import MetaFilogic.Hnat.Tables

/-!
# The HNAT API

`hnat_api.c` reads an entry of the flow table as a tuple, computes the bucket of a tuple,
and updates single fields of a bound entry.  The update functions share a template that
copies the entry, changes the copy and writes it back.
-/

namespace MetaFilogic.Hnat

inductive HnatStatus where
  | alreadySet
  | success
  | fail
  | entryNotFound
  deriving DecidableEq

inductive ByteOrder where
  | little
  | big

def htonl (order : ByteOrder) (x : BitVec 32) : BitVec 32 :=
  match order with
  | .little => swab32 x
  | .big => x

/-- The four bytes of a `u32` in memory, first byte on top. -/
def bytes32 (order : ByteOrder) (x : BitVec 32) : BitVec 32 := htonl order x

/-- The two bytes of a `u16` in memory, first byte on top. -/
def bytes16 (order : ByteOrder) (x : BitVec 16) : BitVec 16 :=
  match order with
  | .little => swab16 x
  | .big => x

structure HnatTuple where
  ppeIndex : BitVec 16
  hashIndex : BitVec 16
  ttl : BitVec 16
  psn : BitVec 16
  fqos : BitVec 16
  qid : BitVec 16
  vlanLayer : BitVec 16
  dscp : BitVec 16
  pktType : BitVec 16
  isUdp : BitVec 16
  fdrEn : BitVec 16
  rxid : BitVec 16
  fp : BitVec 16
  tid : BitVec 16
  isPrior : BitVec 16
  dmac : Mac
  smac : Mac
  vlan1 : BitVec 16
  vlan2 : BitVec 16
  pppoeId : BitVec 16
  ingSipv4 : BitVec 32
  ingDipv4 : BitVec 32
  ingSipv6 : Fin 4 → BitVec 32
  ingDipv6 : Fin 4 → BitVec 32
  egSipv4 : BitVec 32
  egDipv4 : BitVec 32
  egSipv6 : Fin 4 → BitVec 32
  egDipv6 : Fin 4 → BitVec 32
  ingSp : BitVec 16
  ingDp : BitVec 16
  egSp : BitVec 16
  egDp : BitVec 16
  ingDev : List Char

def HnatTuple.zero : HnatTuple where
  ppeIndex := 0
  hashIndex := 0
  ttl := 0
  psn := 0
  fqos := 0
  qid := 0
  vlanLayer := 0
  dscp := 0
  pktType := 0
  isUdp := 0
  fdrEn := 0
  rxid := 0
  fp := 0
  tid := 0
  isPrior := 0
  dmac := 0
  smac := 0
  vlan1 := 0
  vlan2 := 0
  pppoeId := 0
  ingSipv4 := 0
  ingDipv4 := 0
  ingSipv6 _ := 0
  ingDipv6 _ := 0
  egSipv4 := 0
  egDipv4 := 0
  egSipv6 _ := 0
  egDipv6 _ := 0
  ingSp := 0
  ingDp := 0
  egSp := 0
  egDp := 0
  ingDev := []

/-! ## Entries as tuples -/

def NR_QDMA_TPORT : BitVec 4 := 1

def foeToTupleInfo2 (member : Member) (entry : FoeEntry) (opt : HnatTuple) : HnatTuple :=
  { opt with
    fqos := if member.tportId.get entry = NR_QDMA_TPORT then 1 else 0
    qid := (member.qid.get entry).setWidth 16
    dscp := (member.dscp.get entry).setWidth 16
    fdrEn := (member.winfoi.get entry).setWidth 16
    rxid := (member.rxid.get entry).setWidth 16
    fp := (member.dp.get entry).setWidth 16
    tid := (member.tid.get entry).setWidth 16
    isPrior := (member.isPrior.get entry).setWidth 16 }

def mtkHnatFoeToTupleInfoBlk (entry : FoeEntry) (opt : HnatTuple) : HnatTuple :=
  let opt := { opt with
    isUdp := (Bfib1.udp.get entry).setWidth 16
    pktType := (Bfib1.pktType.get entry).setWidth 16
    vlanLayer := (Bfib1.vlanLayer.get entry).setWidth 16
    psn := (Bfib1.psn.get entry).setWidth 16
    ttl := (Bfib1.ttl.get entry).setWidth 16 }
  if entry.isType IPV4_HNAPT then foeToTupleInfo2 ipv4Hnapt entry opt
  else if entry.isType IPV6_5T_ROUTE then foeToTupleInfo2 ipv65tRoute entry opt
  else opt

def mtkHnatFoeToTupleL2 (order : ByteOrder) (entry : FoeEntry) (opt : HnatTuple) : HnatTuple :=
  let member := if entry.isIpv4Grp then ipv4Hnapt else ipv65tRoute
  { opt with
    vlan1 := member.vlan1.get entry
    vlan2 := member.vlan2.get entry
    pppoeId := member.pppoeId.get entry
    dmac := bytes32 order (swab32 (member.dmacHi.get entry)) ++
      bytes16 order (swab16 (member.dmacLo.get entry))
    smac := bytes32 order (swab32 (member.smacHi.get entry)) ++
      bytes16 order (swab16 (member.smacLo.get entry)) }

def mtkHnatFoeToTupleL3 (order : ByteOrder) (entry : FoeEntry) (opt : HnatTuple) : HnatTuple :=
  if entry.isType IPV4_HNAPT then
    { opt with
      ingSipv4 := htonl order (Ipv4.sip.get entry)
      ingDipv4 := htonl order (Ipv4.dip.get entry)
      egSipv4 := htonl order (Ipv4.newSip.get entry)
      egDipv4 := htonl order (Ipv4.newDip.get entry) }
  else if entry.isType IPV6_5T_ROUTE then
    { opt with
      ingSipv6 := fun i => (Ipv6.sip i).get entry
      ingDipv6 := fun i => (Ipv6.dip i).get entry
      egSipv6 := fun i => (Ipv6.sip i).get entry
      egDipv6 := fun i => (Ipv6.dip i).get entry }
  else opt

def mtkHnatFoeToTupleL4 (entry : FoeEntry) (opt : HnatTuple) : HnatTuple :=
  if entry.isType IPV4_HNAPT then
    { opt with
      ingSp := Ipv4.sport.get entry
      ingDp := Ipv4.dport.get entry
      egSp := Ipv4.newSport.get entry
      egDp := Ipv4.newDport.get entry }
  else if entry.isType IPV6_5T_ROUTE then
    { opt with
      ingSp := Ipv6.sport.get entry
      ingDp := Ipv6.dport.get entry
      egSp := Ipv6.sport.get entry
      egDp := Ipv6.dport.get entry }
  else opt

def mtkHnatFoeToHnatTuple (order : ByteOrder) (entry : FoeEntry) (opt : HnatTuple) : HnatTuple :=
  mtkHnatFoeToTupleL4 entry (mtkHnatFoeToTupleL3 order entry
    (mtkHnatFoeToTupleL2 order entry (mtkHnatFoeToTupleInfoBlk entry opt)))

namespace MtkHnat

variable (h : MtkHnat)

/-- `foe_table_cpu[ppe_index][hash_index]`. -/
def foeEntry (ppeIndex hashIndex : Nat) : Option FoeEntry :=
  (h.foeTableCpu ppeIndex).bind fun table => table[hashIndex]?

def setFoeEntry (ppeIndex hashIndex : Nat) (entry : FoeEntry) : MtkHnat :=
  { h with
    foeTableCpu := Function.update h.foeTableCpu ppeIndex
      ((h.foeTableCpu ppeIndex).map fun table => table.set hashIndex entry) }

variable {h} {ppe index : Nat} {entry after : FoeEntry}

theorem foeEntry_setFoeEntry (placed : h.foeEntry ppe index = some entry) :
    (h.setFoeEntry ppe index after).foeEntry ppe index = some after := by
  rw [foeEntry, Option.bind_eq_some_iff] at placed
  obtain ⟨table, present, found⟩ := placed
  obtain ⟨inside, _⟩ := List.getElem?_eq_some_iff.mp found
  simp [foeEntry, setFoeEntry, present, inside]

theorem foeEntry_setFoeEntry_other {ppe' index' : Nat} (other : ppe' ≠ ppe ∨ index' ≠ index) :
    (h.setFoeEntry ppe index after).foeEntry ppe' index' = h.foeEntry ppe' index' := by
  by_cases same : ppe' = ppe
  · subst same
    have apart : index ≠ index' := (other.resolve_left (absurd rfl)).symm
    cases present : h.foeTableCpu ppe' with
    | none => simp [foeEntry, setFoeEntry, present]
    | some table => simp [foeEntry, setFoeEntry, present, List.getElem?_set_ne apart]
  · simp [foeEntry, setFoeEntry, same]

theorem setFoeEntry_self (placed : h.foeEntry ppe index = some entry) :
    h.setFoeEntry ppe index entry = h := by
  rw [foeEntry, Option.bind_eq_some_iff] at placed
  obtain ⟨table, present, found⟩ := placed
  obtain ⟨inside, rfl⟩ := List.getElem?_eq_some_iff.mp found
  have tables : Function.update h.foeTableCpu ppe
      ((h.foeTableCpu ppe).map fun table' => table'.set index table[index]) = h.foeTableCpu := by
    rw [Function.update_eq_self_iff, present, Option.map_some, List.set_getElem_self]
  rw [setFoeEntry, tables]

end MtkHnat

def mtkHnatGetPpeEntryByIndex (order : ByteOrder) (h : MtkHnat) (opt : HnatTuple) :
    Option (HnatStatus × HnatTuple) :=
  if opt.ppeIndex.toNat ≥ h.ppeNum ∨ opt.hashIndex.toNat ≥ h.foeEtryNum then some (.fail, opt)
  else
    (h.foeEntry opt.ppeIndex.toNat opt.hashIndex.toNat).map fun entry =>
      if entry.isBound then (.success, mtkHnatFoeToHnatTuple order entry opt)
      else (.entryNotFound, opt)

/-! ## Hashes -/

/-- `(u32)hi << 16 | lo`. -/
def u16Pair (hi lo : BitVec 16) : BitVec 32 := hi.setWidth 32 <<< 16 ||| lo.setWidth 32

/-- The three words `hnat_get_ppe_hash` takes from an entry. -/
def hashWords (entry : FoeEntry) : BitVec 32 × BitVec 32 × BitVec 32 :=
  if entry.isType L2_BRIDGE then
    (u16Pair (L2Bridge.etype.get entry) (L2Bridge.vlan2.get entry ^^^ L2Bridge.vlan1.get entry),
      0x5a5a ||| (L2Bridge.smacLo.get entry ^^^ L2Bridge.dmacLo.get entry).setWidth 32 <<< 16,
      L2Bridge.dmacHi.get entry ^^^ L2Bridge.smacHi.get entry)
  else if entry.isType IPV4_HNAPT || entry.isType IPV4_HNAT || entry.isType IPV4_DSLITE then
    (u16Pair (Ipv4.sport.get entry) (Ipv4.dport.get entry), Ipv4.dip.get entry,
      Ipv4.sip.get entry)
  else if entry.isType IPV6_3T_ROUTE || entry.isType IPV6_5T_ROUTE || entry.isType IPV6_6RD then
    ((Ipv6.sip 3).get entry ^^^ (Ipv6.dip 3).get entry ^^^
        u16Pair (Ipv6.sport.get entry) (Ipv6.dport.get entry),
      (Ipv6.sip 2).get entry ^^^ (Ipv6.dip 2).get entry ^^^ (Ipv6.dip 0).get entry,
      (Ipv6.sip 1).get entry ^^^ (Ipv6.dip 1).get entry ^^^ (Ipv6.sip 0).get entry)
  else
    (0, 0, 0)

/-- The mixing of `hnat_get_ppe_hash` before the mask. -/
def mixHash (hv1 hv2 hv3 : BitVec 32) : BitVec 32 :=
  let hash := (hv1 &&& hv2) ||| (~~~hv1 &&& hv3)
  let hash := (hash >>> 24) ||| ((hash &&& 0xffffff) <<< 8)
  let hash := hash ^^^ (hv1 ^^^ hv2 ^^^ hv3)
  let hash := hash ^^^ hash >>> 16
  hash <<< 2

def hnatGetPpeHash (h : MtkHnat) (entry : FoeEntry) : BitVec 32 :=
  let (hv1, hv2, hv3) := hashWords entry
  mixHash hv1 hv2 hv3 &&& (BitVec.ofNat 32 h.foeEtryNum - 1)

/-- The PPE `mtk_hnat_calc_ppe_hash_index_by_tuple` picks for the MAC of a device. -/
def ppeOfMac (h : MtkHnat) (macId : MacId) : BitVec 16 :=
  if macId = .gmac3 ∧ h.ppeNum ≥ 3 then 2
  else if macId = .gmac2 ∧ h.ppeNum ≥ 2 then 1
  else 0

/-- The entry `mtk_hnat_calc_ppe_hash_index_by_tuple` builds, for the types it knows. -/
def tupleToEntry (opt : HnatTuple) : Option FoeEntry :=
  let entry := Bfib1.pktType.set (opt.pktType.setWidth 5) FoeEntry.zero
  if opt.pktType = IPV4_HNAPT.setWidth 16 then
    some (Ipv4.dport.set opt.ingDp (Ipv4.sport.set opt.ingSp
      (Ipv4.dip.set opt.ingDipv4 (Ipv4.sip.set opt.ingSipv4 entry))))
  else if opt.pktType = IPV6_5T_ROUTE.setWidth 16 then
    let copy (field : Fin 4 → FoeField 32) (value : Fin 4 → BitVec 32) (entry : FoeEntry) :=
      (List.finRange 4).foldl (fun entry i => (field i).set (value i) entry) entry
    some (Ipv6.dport.set opt.ingDp (Ipv6.sport.set opt.ingSp
      (copy Ipv6.dip opt.ingDipv6 (copy Ipv6.sip opt.ingSipv6 entry))))
  else
    none

/-- `mtk_hnat_calc_ppe_hash_index_by_tuple(opt)`; `devGetByName` finds the MAC of a
registered device. -/
def mtkHnatCalcPpeHashIndexByTuple (devGetByName : List Char → Option MacId) (h : MtkHnat)
    (opt : HnatTuple) : HnatStatus × HnatTuple :=
  match devGetByName opt.ingDev with
  | none => (.fail, opt)
  | some macId =>
    let opt := { opt with ppeIndex := ppeOfMac h macId }
    match tupleToEntry opt with
    | none => (.fail, opt)
    | some entry => (.success, { opt with hashIndex := (hnatGetPpeHash h entry).setWidth 16 })

/-! ## Updates -/

def hnatUpdateEntryGeneric (ppeIndex hashIndex : BitVec 16)
    (updateLogic : FoeEntry → HnatStatus × FoeEntry) (h : MtkHnat) :
    Option (HnatStatus × MtkHnat) :=
  if ppeIndex.toNat ≥ h.ppeNum ∨ hashIndex.toNat ≥ h.foeEtryNum then some (.fail, h)
  else
    (h.foeEntry ppeIndex.toNat hashIndex.toNat).map fun hwEntry =>
      if !hwEntry.isBound then (.entryNotFound, h)
      else
        match updateLogic hwEntry with
        | (.success, entry) => (.success, h.setFoeEntry ppeIndex.toNat hashIndex.toNat entry)
        | (.alreadySet, _) => (.success, h)
        | (ret, _) => (ret, h)

def flag (b : Prop) [Decidable b] : BitVec 1 := if b then 1 else 0

/-- The union member the setters of the second info block and the Ethernet header use. -/
def setterMember (entry : FoeEntry) : Option Member :=
  if entry.isIpv4Grp then some ipv4Hnapt
  else if entry.isIpv6Grp then some ipv65tRoute
  else none

/-- The union member the setters of `winfo_pao` use. -/
def paoMember (entry : FoeEntry) : Option Member :=
  if entry.isIpv4Grp then some ipv4Hnapt
  else if entry.isType IPV6_HNAPT || entry.isType IPV6_HNAT then some ipv6Hnapt
  else if entry.isIpv6Grp then some ipv4Mape
  else none

def MTK_QDMA_TX_NUM : BitVec 16 := 16
def MTK_QDMA_TX_MASK : BitVec 16 := MTK_QDMA_TX_NUM - 1

def hnatEntrySetHqos (fqos qid : BitVec 16) (entry : FoeEntry) : HnatStatus × FoeEntry :=
  if qid ≥ MTK_QDMA_TX_NUM then (.fail, entry)
  else
    let fqos := flag (fqos ≠ 0)
    let qid := (qid &&& MTK_QDMA_TX_MASK).setWidth 7
    match setterMember entry with
    | none => (.fail, entry)
    | some member =>
      if member.fqos.get entry = fqos ∧ member.qid.get entry = qid then (.alreadySet, entry)
      else
        (.success, member.qid.set qid (member.fqos.set fqos
          (member.tportId.set (if fqos = 1 then NR_QDMA_TPORT else 0) entry)))

def hnatEntrySetDscp (dscp : BitVec 32) (entry : FoeEntry) : HnatStatus × FoeEntry :=
  let dscp : BitVec 8 := if (0 : BitVec 32).slt dscp then (dscp &&& 0xff).setWidth 8 else 0
  match setterMember entry with
  | none => (.fail, entry)
  | some member =>
    if member.dscp.get entry = dscp then (.alreadySet, entry)
    else (.success, member.dscp.set dscp entry)

def ETH_P_8021Q : BitVec 16 := 0x8100

def hnatEntrySetVlan (vlan1 vlan2 : BitVec 16) (entry : FoeEntry) : HnatStatus × FoeEntry :=
  match setterMember entry with
  | none => (.fail, entry)
  | some member =>
    let vlanLayer : BitVec 3 := (if vlan1 ≠ 0 then 1 else 0) + (if vlan2 ≠ 0 then 1 else 0)
    if Bfib1.vlanLayer.get entry = vlanLayer ∧ member.vlan1.get entry = vlan1 ∧
        member.vlan2.get entry = vlan2 then (.alreadySet, entry)
    else
      let spTag := member.spTag.get entry
      let isDsa := Bfib1.vlanLayer.get entry ≠ 0 ∧ spTag ≠ ETH_P_8021Q
      let tagged := member.vlan2.set vlan2 (member.vlan1.set vlan1
        (Bfib1.vlanLayer.set vlanLayer entry))
      if isDsa then
        if vlanLayer = 0 then
          (.success, member.spTag.set (spTag &&& ~~~0x100) (Bfib1.vlanLayer.set 1 tagged))
        else
          (.success, member.spTag.set (spTag ||| 0x100) tagged)
      else if vlanLayer ≠ 0 then
        (.success, member.spTag.set ETH_P_8021Q tagged)
      else
        (.success, tagged)

def hnatEntrySetPppoe (psn pppoeId : BitVec 16) (entry : FoeEntry) : HnatStatus × FoeEntry :=
  let psn := flag (psn ≠ 0)
  match setterMember entry with
  | none => (.fail, entry)
  | some member =>
    if Bfib1.psn.get entry = psn ∧ member.pppoeId.get entry = pppoeId then (.alreadySet, entry)
    else (.success, Bfib1.psn.set psn (member.pppoeId.set pppoeId entry))

/-- `hnat_entry_set_is_prior` and `hnat_entry_set_tid` with their field of `winfo_pao`. -/
def hnatEntrySetPao {width : Nat} (field : Member → FoeField width) (value : BitVec width)
    (entry : FoeEntry) : HnatStatus × FoeEntry :=
  match paoMember entry with
  | none => (.fail, entry)
  | some member =>
    if (field member).get entry = value then (.alreadySet, entry)
    else (.success, (field member).set value entry)

def hnatEntrySetIsPrior (isPrior : BitVec 16) (entry : FoeEntry) : HnatStatus × FoeEntry :=
  hnatEntrySetPao Member.isPrior ((isPrior &&& 0x1).setWidth 1) entry

def hnatEntrySetTid (tid : BitVec 16) (entry : FoeEntry) : HnatStatus × FoeEntry :=
  hnatEntrySetPao Member.tid ((tid &&& 0xf).setWidth 4) entry

def mtkHnatUpdateHqosByIndex (ppeIndex hashIndex fqos qid : BitVec 16) :=
  hnatUpdateEntryGeneric ppeIndex hashIndex (hnatEntrySetHqos fqos qid)

def mtkHnatUpdateDscpByIndex (ppeIndex hashIndex : BitVec 16) (dscp : BitVec 32) :=
  hnatUpdateEntryGeneric ppeIndex hashIndex (hnatEntrySetDscp dscp)

def mtkHnatUpdateVlanByIndex (ppeIndex hashIndex vlan1 vlan2 : BitVec 16) :=
  hnatUpdateEntryGeneric ppeIndex hashIndex (hnatEntrySetVlan vlan1 vlan2)

def mtkHnatUpdatePppoeByIndex (ppeIndex hashIndex psn pppoeId : BitVec 16) :=
  hnatUpdateEntryGeneric ppeIndex hashIndex (hnatEntrySetPppoe psn pppoeId)

def mtkHnatUpdateIsPriorByIndex (ppeIndex hashIndex isPrior : BitVec 16) :=
  hnatUpdateEntryGeneric ppeIndex hashIndex (hnatEntrySetIsPrior isPrior)

def mtkHnatUpdateTidByIndex (ppeIndex hashIndex tid : BitVec 16) :=
  hnatUpdateEntryGeneric ppeIndex hashIndex (hnatEntrySetTid tid)

def onePpe (entries : Nat → FoeEntry) : MtkHnat where
  ppeNum := 1
  foeEtryNum := 1024
  etryNumCfg := 0
  foeTableCpu _ := some ((List.range 1024).map entries)
  foeFlow _ := none
  tbEtryNum _ := 0

theorem onePpe_foeEntry {entries : Nat → FoeEntry} {index : Nat} (inside : index < 1024) :
    (onePpe entries).foeEntry 0 index = some (entries index) := by
  simp [MtkHnat.foeEntry, onePpe, inside]

end MetaFilogic.Hnat
