import MetaFilogic.Hnat.Hash

/-!
# The contract of the updates

An update that succeeds should be read back by `mtk_hnat_get_ppe_entry_by_index`, leave
the other fields of the entry's own layout alone, and do nothing the second time.  The
setters choose the member of the union by a coarser division of the packet types than
the layouts follow, and the shortcut for a value that is set already does not look at
the field the getter reads, so each of the three has its exceptions.
-/

namespace MetaFilogic.Hnat

open Fields

/-! ## Requests -/

/-- A call of one of the `mtk_hnat_update_…_by_index`, with its arguments. -/
inductive UpdateRequest where
  | hqos (fqos qid : BitVec 16)
  | dscp (dscp : BitVec 32)
  | vlan (vlan1 vlan2 : BitVec 16)
  | pppoe (psn pppoeId : BitVec 16)
  | tid (tid : BitVec 16)
  | isPrior (isPrior : BitVec 16)

namespace UpdateRequest

def byIndex (ppeIndex hashIndex : BitVec 16) :
    UpdateRequest → MtkHnat → Option (HnatStatus × MtkHnat)
  | .hqos fqos qid => mtkHnatUpdateHqosByIndex ppeIndex hashIndex fqos qid
  | .dscp value => mtkHnatUpdateDscpByIndex ppeIndex hashIndex value
  | .vlan vlan1 vlan2 => mtkHnatUpdateVlanByIndex ppeIndex hashIndex vlan1 vlan2
  | .pppoe psn pppoeId => mtkHnatUpdatePppoeByIndex ppeIndex hashIndex psn pppoeId
  | .tid value => mtkHnatUpdateTidByIndex ppeIndex hashIndex value
  | .isPrior value => mtkHnatUpdateIsPriorByIndex ppeIndex hashIndex value

def logic : UpdateRequest → FoeEntry → HnatStatus × FoeEntry
  | .hqos fqos qid => hnatEntrySetHqos fqos qid
  | .dscp value => hnatEntrySetDscp value
  | .vlan vlan1 vlan2 => hnatEntrySetVlan vlan1 vlan2
  | .pppoe psn pppoeId => hnatEntrySetPppoe psn pppoeId
  | .tid value => hnatEntrySetTid value
  | .isPrior value => hnatEntrySetIsPrior value

theorem byIndex_eq (request : UpdateRequest) (ppeIndex hashIndex : BitVec 16) :
    request.byIndex ppeIndex hashIndex =
      hnatUpdateEntryGeneric ppeIndex hashIndex request.logic := by
  cases request <;> rfl

def result (request : UpdateRequest) (entry : FoeEntry) : Option FoeEntry :=
  match request.logic entry with
  | (.success, entry) => some entry
  | (.alreadySet, _) => some entry
  | _ => none

/-- The tuple of an entry shows what was asked for, a flag as 0 or 1 and the others cut to
the width of their field. -/
def Reported (opt : HnatTuple) : UpdateRequest → Prop
  | .hqos fqos qid => opt.fqos = (if fqos ≠ 0 then 1 else 0) ∧ opt.qid = qid
  | .dscp value => opt.dscp = if (0 : BitVec 32).slt value then (value &&& 0xff).setWidth 16 else 0
  | .vlan vlan1 vlan2 => opt.vlan1 = vlan1 ∧ opt.vlan2 = vlan2
  | .pppoe psn pppoeId => opt.psn = (if psn ≠ 0 then 1 else 0) ∧ opt.pppoeId = pppoeId
  | .tid value => opt.tid = value &&& 0xf
  | .isPrior value => opt.isPrior = value &&& 0x1

def Spares (member : Member) {width : Nat} (field : FoeField width) : UpdateRequest → Prop
  | .hqos _ _ =>
    field.Disjoint member.fqos ∧ field.Disjoint member.qid ∧ field.Disjoint member.tportId
  | .dscp _ => field.Disjoint member.dscp
  | .vlan _ _ =>
    field.Disjoint Bfib1.vlanLayer ∧ field.Disjoint member.vlan1 ∧
      field.Disjoint member.vlan2 ∧ field.Disjoint member.spTag
  | .pppoe _ _ => field.Disjoint Bfib1.psn ∧ field.Disjoint member.pppoeId
  | .tid _ => field.Disjoint member.tid
  | .isPrior _ => field.Disjoint member.isPrior

def Framed (request : UpdateRequest) (member : Member) (entry after : FoeEntry) : Prop :=
  ∀ (width : Nat) (field : FoeField width), (field.word : Nat) < member.size →
    request.Spares member field → field.get after = field.get entry

end UpdateRequest

/-! ## The members of the packet types -/

def isMape (entry : FoeEntry) : Bool := entry.isType IPV4_MAP_E || entry.isType IPV4_MAP_T

def isIpv6Nat (entry : FoeEntry) : Bool := entry.isType IPV6_HNAPT || entry.isType IPV6_HNAT

/-- The member of the union that a packet type has its layout from; `ipv4_dslite`,
`ipv6_3t_route`, `ipv6_5t_route` and `ipv6_6rd` have the same words. -/
def ownMember (entry : FoeEntry) : Option Member :=
  if entry.isIpv4Grp then some ipv4Hnapt
  else if isMape entry then some ipv4Mape
  else if isIpv6Nat entry then some ipv6Hnapt
  else if entry.isIpv6Grp then some ipv65tRoute
  else none

/-- The types `mtk_hnat_get_ppe_entry_by_index` decodes. -/
def isDecoded (entry : FoeEntry) : Bool := entry.isType IPV4_HNAPT || entry.isType IPV6_5T_ROUTE

theorem typeGroups (entry : FoeEntry) :
    (entry.isIpv4Grp = true → entry.isType IPV6_5T_ROUTE = false ∧ isMape entry = false ∧
      isIpv6Nat entry = false) ∧
    (isMape entry = true → isDecoded entry = false ∧ isIpv6Nat entry = false ∧
      entry.isIpv6Grp = true) ∧
    (isIpv6Nat entry = true → isDecoded entry = false ∧ entry.isIpv6Grp = true) ∧
    (entry.isIpv4Grp = false → entry.isType IPV4_HNAPT = false) ∧
    (entry.isIpv6Grp = false → entry.isType IPV6_5T_ROUTE = false) := by
  simp only [isMape, isIpv6Nat, isDecoded, FoeEntry.isIpv4Grp, FoeEntry.isIpv6Grp,
    FoeEntry.isType]
  generalize Bfib1.pktType.get entry = type
  revert type
  decide

/-- The members that the setters of the header, the layout and the setters of `winfo_pao`
take for an entry, by groups of packet types. -/
inductive Taken (entry : FoeEntry) : Prop where
  | ipv4 (setter : setterMember entry = some ipv4Hnapt) (own : ownMember entry = some ipv4Hnapt)
      (pao : paoMember entry = some ipv4Hnapt) (notRoute : entry.isType IPV6_5T_ROUTE = false)
      (notMape : isMape entry = false) (notNat : isIpv6Nat entry = false)
  | route (setter : setterMember entry = some ipv65tRoute)
      (own : ownMember entry = some ipv65tRoute) (pao : paoMember entry = some ipv4Mape)
      (notIpv4 : entry.isType IPV4_HNAPT = false)
      (notMape : isMape entry = false) (notNat : isIpv6Nat entry = false)
  | mape (setter : setterMember entry = some ipv65tRoute)
      (own : ownMember entry = some ipv4Mape) (pao : paoMember entry = some ipv4Mape)
      (raw : isDecoded entry = false) (mape : isMape entry = true)
  | ipv6Nat (setter : setterMember entry = some ipv65tRoute)
      (own : ownMember entry = some ipv6Hnapt) (pao : paoMember entry = some ipv6Hnapt)
      (raw : isDecoded entry = false) (nat : isIpv6Nat entry = true)
  | other (setter : setterMember entry = none) (own : ownMember entry = none)
      (pao : paoMember entry = none) (notRoute : entry.isType IPV6_5T_ROUTE = false)

theorem taken (entry : FoeEntry) : Taken entry := by
  obtain ⟨ofIpv4, ofMape, ofNat, notIpv4, notRoute⟩ := typeGroups entry
  have paoGroups : paoMember entry =
      if entry.isIpv4Grp then some ipv4Hnapt else if isIpv6Nat entry then some ipv6Hnapt
      else if entry.isIpv6Grp then some ipv4Mape else none := rfl
  by_cases ipv4 : entry.isIpv4Grp = true
  · obtain ⟨notRoute, notMape, notNat⟩ := ofIpv4 ipv4
    exact .ipv4 (by simp [setterMember, ipv4]) (by simp [ownMember, ipv4])
      (by simp [paoGroups, ipv4]) notRoute notMape notNat
  · by_cases mape : isMape entry = true
    · obtain ⟨raw, notNat, ipv6⟩ := ofMape mape
      exact .mape (by simp [setterMember, ipv4, ipv6]) (by simp [ownMember, ipv4, mape])
        (by simp [paoGroups, ipv4, notNat, ipv6]) raw mape
    · by_cases nat : isIpv6Nat entry = true
      · obtain ⟨raw, ipv6⟩ := ofNat nat
        exact .ipv6Nat (by simp [setterMember, ipv4, ipv6]) (by simp [ownMember, ipv4, mape, nat])
          (by simp [paoGroups, ipv4, nat]) raw nat
      · by_cases ipv6 : entry.isIpv6Grp = true
        · exact .route (by simp [setterMember, ipv4, ipv6])
            (by simp [ownMember, ipv4, mape, nat, ipv6]) (by simp [paoGroups, ipv4, nat, ipv6])
            (notIpv4 (Bool.eq_false_iff.mpr ipv4)) (Bool.eq_false_iff.mpr mape)
            (Bool.eq_false_iff.mpr nat)
        · exact .other (by simp [setterMember, ipv4, ipv6])
            (by simp [ownMember, ipv4, mape, nat, ipv6]) (by simp [paoGroups, ipv4, nat, ipv6])
            (notRoute (Bool.eq_false_iff.mpr ipv6))

variable {entry after : FoeEntry} {setter own pao : Member}

theorem setter_cases (set : setterMember entry = some setter) :
    setter = ipv4Hnapt ∨ setter = ipv65tRoute := by
  rcases taken entry with ⟨at', _⟩ | ⟨at', _⟩ | ⟨at', _⟩ | ⟨at', _⟩ | ⟨at', _⟩ <;>
    rw [at'] at set <;> simp_all

theorem header_same (set : setterMember entry = some setter) (owns : ownMember entry = some own) :
    own.infoBlk2 = setter.infoBlk2 ∧ own.vlan1Word = setter.vlan1Word ∧
      own.vlan2Word = setter.vlan2Word ∧ own.pppoeWord = setter.pppoeWord := by
  rcases taken entry with ⟨at', own', _⟩ | ⟨at', own', _⟩ | ⟨at', own', _⟩ | ⟨at', own', _⟩ |
      ⟨at', own', _⟩ <;>
    rw [at'] at set <;> rw [own'] at owns <;> cases set <;> cases owns <;> decide

/-- The layouts that go on differently after the header have no `tport_id` where the setter
writes it, and other types have the setters' member for their layout. -/
theorem own_tport (set : setterMember entry = some setter) (owns : ownMember entry = some own) :
    if isMape entry || isIpv6Nat entry then
      own.tportWord ≠ setter.tportWord ∧ (setter.tportWord : Nat) < own.size
    else own = setter := by
  rcases taken entry with ⟨at', own', _, _, notMape, notNat⟩ | ⟨at', own', _, _, notMape, notNat⟩ |
      ⟨at', own', _, _, mape⟩ | ⟨at', own', _, _, nat⟩ | ⟨at', _⟩
  · simp_all
  · simp_all
  · rw [at', Option.some_inj] at set
    rw [own', Option.some_inj] at owns
    subst set owns
    simp only [mape, Bool.true_or, if_true]
    decide
  · rw [at', Option.some_inj] at set
    rw [own', Option.some_inj] at owns
    subst set owns
    simp only [nat, Bool.or_true, if_true]
    decide
  · rw [at'] at set
    cases set

theorem own_of_setter (set : setterMember entry = some setter) :
    ∃ own, ownMember entry = some own := by
  rcases taken entry with ⟨_, own⟩ | ⟨_, own⟩ | ⟨_, own⟩ | ⟨_, own⟩ | ⟨at', _⟩
  · exact ⟨_, own⟩
  · exact ⟨_, own⟩
  · exact ⟨_, own⟩
  · exact ⟨_, own⟩
  · rw [at'] at set
    cases set

theorem setter_of_own (owns : ownMember entry = some own) :
    ∃ setter, setterMember entry = some setter := by
  rcases taken entry with ⟨set, _⟩ | ⟨set, _⟩ | ⟨set, _⟩ | ⟨set, _⟩ | ⟨_, own', _⟩
  · exact ⟨_, set⟩
  · exact ⟨_, set⟩
  · exact ⟨_, set⟩
  · exact ⟨_, set⟩
  · rw [own'] at owns
    cases owns

theorem members_congr (same : Bfib1.pktType.get after = Bfib1.pktType.get entry) :
    setterMember after = setterMember entry ∧ paoMember after = paoMember entry ∧
      isDecoded after = isDecoded entry := by
  have types (type : BitVec 5) : after.isType type = entry.isType type := by
    rw [FoeEntry.isType, same, FoeEntry.isType]
  simp only [setterMember, paoMember, isDecoded, FoeEntry.isIpv4Grp, FoeEntry.isIpv6Grp, types]
  exact ⟨rfl, rfl, trivial⟩

/-! ## Updated entries -/

structure EntryContract (request : UpdateRequest) (entry after : FoeEntry) : Prop where
  reported : isDecoded entry = true → ∀ order opt,
    request.Reported (mtkHnatFoeToHnatTuple order after opt)
  framed : ∀ own, ownMember entry = some own → request.Framed own entry after
  repeats : request.result after = some after

theorem tuple_shows (decoded : isDecoded entry = true) (set : setterMember entry = some setter)
    (order : ByteOrder) (opt : HnatTuple) :
    let shown := mtkHnatFoeToHnatTuple order entry opt
    (shown.fqos = (if setter.tportId.get entry = NR_QDMA_TPORT then 1 else 0) ∧
      shown.qid = (setter.qid.get entry).setWidth 16 ∧
      shown.dscp = (setter.dscp.get entry).setWidth 16 ∧
      shown.tid = (setter.tid.get entry).setWidth 16 ∧
      shown.isPrior = (setter.isPrior.get entry).setWidth 16) ∧
    (shown.vlan1 = setter.vlan1.get entry ∧ shown.vlan2 = setter.vlan2.get entry ∧
      shown.pppoeId = setter.pppoeId.get entry) ∧
    shown.psn = (Bfib1.psn.get entry).setWidth 16 := by
  rcases Bool.or_eq_true_iff.mp decoded with ipv4 | ipv6
  · have grp : entry.isIpv4Grp = true := by simp only [FoeEntry.isIpv4Grp, ipv4, Bool.true_or]
    rw [setterMember, if_pos grp, Option.some_inj] at set
    subst set
    simp only [mtkHnatFoeToHnatTuple, mtkHnatFoeToTupleL4, mtkHnatFoeToTupleL3,
      mtkHnatFoeToTupleL2, mtkHnatFoeToTupleInfoBlk, foeToTupleInfo2, ipv4, grp, if_true, and_self]
  · have notIpv4 : entry.isType IPV4_HNAPT = false := by
      rw [FoeEntry.isType, eq_of_beq ipv6]
      rfl
    have notGrp : entry.isIpv4Grp = false := by
      rw [FoeEntry.isIpv4Grp, FoeEntry.isType, FoeEntry.isType, eq_of_beq ipv6]
      rfl
    have grp : entry.isIpv6Grp = true := by
      simp only [FoeEntry.isIpv6Grp, ipv6, Bool.true_or, Bool.or_true]
    rw [setterMember, if_neg (Bool.eq_false_iff.mp notGrp), if_pos grp, Option.some_inj] at set
    subst set
    simp only [mtkHnatFoeToHnatTuple, mtkHnatFoeToTupleL4, mtkHnatFoeToTupleL3,
      mtkHnatFoeToTupleL2, mtkHnatFoeToTupleInfoBlk, foeToTupleInfo2, ipv6, notIpv4, notGrp,
      if_true, Bool.false_eq_true, if_false, and_self]

/-! ### The second info block and the header -/

theorem wide_eq_masked {n k : Nat} {x : BitVec k} {y mask : BitVec n} (fits : mask.toNat < 2 ^ k)
    (le : k ≤ n) : x.setWidth n = y &&& mask ↔ x = (y &&& mask).setWidth k := by
  constructor
  · intro shown
    rw [← shown, BitVec.setWidth_setWidth_of_le _ le, BitVec.setWidth_eq]
  · rintro rfl
    rw [setWidth_masked fits, BitVec.setWidth_eq]

/-- The value `hnat_entry_set_dscp` writes. -/
def dscpOf (value : BitVec 32) : BitVec 8 :=
  if (0 : BitVec 32).slt value then (value &&& 0xff).setWidth 8 else 0

theorem dscp_result (value : BitVec 32) :
    (UpdateRequest.dscp value).result entry =
      (setterMember entry).map fun setter => setter.dscp.set (dscpOf value) entry := by
  simp only [UpdateRequest.result, UpdateRequest.logic, hnatEntrySetDscp, ← dscpOf.eq_1]
  cases setterMember entry with
  | none => rfl
  | some setter =>
    by_cases same : setter.dscp.get entry = dscpOf value
    · simp only [same, if_true, Option.map_some, Field.set_eq_self_iff.mpr same]
    · simp only [same, if_false, Option.map_some]

theorem dscp_contract (value : BitVec 32)
    (done : (UpdateRequest.dscp value).result entry = some after) :
    EntryContract (.dscp value) entry after := by
  rw [dscp_result, Option.map_eq_some_iff] at done
  obtain ⟨setter, set, rfl⟩ := done
  have same : Bfib1.pktType.get (setter.dscp.set (dscpOf value) entry) =
      Bfib1.pktType.get entry := by
    rcases setter_cases set with rfl | rfl <;> exact Field.get_set_disjoint (by decide)
  obtain ⟨setter', _, decoded'⟩ := members_congr same
  constructor
  · intro decoded order opt
    obtain ⟨⟨_, _, shown, _⟩, _⟩ :=
      tuple_shows (decoded'.trans decoded) (setter'.trans set) order opt
    rw [UpdateRequest.Reported, shown, Field.get_set, dscpOf]
    split
    · exact setWidth_masked (by decide)
    · rfl
  · intro own owns width field _ spared
    obtain ⟨block, _⟩ := header_same set owns
    refine Field.get_set_disjoint ?_
    rwa [UpdateRequest.Spares, Member.dscp, block] at spared
  · rw [dscp_result, setter', set, Option.map_some, Field.set_set]

theorem pppoe_result (psn pppoeId : BitVec 16) :
    (UpdateRequest.pppoe psn pppoeId).result entry =
      (setterMember entry).map fun setter =>
        Bfib1.psn.set (flag (psn ≠ 0)) (setter.pppoeId.set pppoeId entry) := by
  simp only [UpdateRequest.result, UpdateRequest.logic, hnatEntrySetPppoe]
  cases setterMember entry with
  | none => rfl
  | some setter =>
    by_cases same : Bfib1.psn.get entry = flag (psn ≠ 0) ∧ setter.pppoeId.get entry = pppoeId
    · simp only [same, and_self, if_true, Option.map_some, Field.set_eq_self_iff.mpr same.2,
        Field.set_eq_self_iff.mpr same.1]
    · simp only [same, if_false, Option.map_some]

theorem flag_wide (p : Prop) [Decidable p] :
    (flag p).setWidth 16 = (if p then 1 else 0 : BitVec 16) := by
  rw [flag]
  split <;> rfl

theorem pppoe_contract (psn pppoeId : BitVec 16)
    (done : (UpdateRequest.pppoe psn pppoeId).result entry = some after) :
    EntryContract (.pppoe psn pppoeId) entry after := by
  rw [pppoe_result, Option.map_eq_some_iff] at done
  obtain ⟨setter, set, after_eq⟩ := done
  have apart : setter.pppoeId.Disjoint Bfib1.psn ∧ Bfib1.pktType.Disjoint setter.pppoeId ∧
      Bfib1.pktType.Disjoint Bfib1.psn := by
    rcases setter_cases set with rfl | rfl <;> decide
  obtain ⟨idApart, typeApart, typeApart'⟩ := apart
  have psnSet : Bfib1.psn.get after = flag (psn ≠ 0) := by rw [← after_eq, Field.get_set]
  have idSet : setter.pppoeId.get after = pppoeId := by
    rw [← after_eq, Field.get_set_disjoint idApart, Field.get_set]
  have same : Bfib1.pktType.get after = Bfib1.pktType.get entry := by
    rw [← after_eq, Field.get_set_disjoint typeApart', Field.get_set_disjoint typeApart]
  obtain ⟨setter', _, decoded'⟩ := members_congr same
  constructor
  · intro decoded order opt
    obtain ⟨_, ⟨_, _, shownId⟩, shownPsn⟩ :=
      tuple_shows (decoded'.trans decoded) (setter'.trans set) order opt
    exact ⟨by rw [shownPsn, psnSet, flag_wide], by rw [shownId, idSet]⟩
  · intro own owns width field _ spared
    obtain ⟨_, _, _, word⟩ := header_same set owns
    rw [UpdateRequest.Spares, Member.pppoeId, word] at spared
    rw [← after_eq, Field.get_set_disjoint spared.1]
    exact Field.get_set_disjoint spared.2
  · rw [pppoe_result, setter', set, Option.map_some, Field.set_eq_self_iff.mpr idSet,
      Field.set_eq_self_iff.mpr psnSet]

/-- The number of tags `hnat_entry_set_vlan` counts. -/
def vlanLayerOf (vlan1 vlan2 : BitVec 16) : BitVec 3 :=
  (if vlan1 ≠ 0 then 1 else 0) + (if vlan2 ≠ 0 then 1 else 0)

section Vlan

variable {vlan1 vlan2 : BitVec 16}

/-- The fields of the VLAN setter share no bit, nor do they with the packet type. -/
structure VlanApart (setter : Member) : Prop where
  layer1 : Bfib1.vlanLayer.Disjoint setter.vlan1
  layer2 : Bfib1.vlanLayer.Disjoint setter.vlan2
  layerTag : Bfib1.vlanLayer.Disjoint setter.spTag
  one2 : setter.vlan1.Disjoint setter.vlan2
  oneTag : setter.vlan1.Disjoint setter.spTag
  twoTag : setter.vlan2.Disjoint setter.spTag
  typeLayer : Bfib1.pktType.Disjoint Bfib1.vlanLayer
  type1 : Bfib1.pktType.Disjoint setter.vlan1
  type2 : Bfib1.pktType.Disjoint setter.vlan2
  typeTag : Bfib1.pktType.Disjoint setter.spTag

theorem vlanApart (set : setterMember entry = some setter) : VlanApart setter := by
  rcases setter_cases set with rfl | rfl <;> constructor <;> decide

def vlanTags (vlan1 vlan2 : BitVec 16) (setter : Member) (entry : FoeEntry) :
    Option (BitVec 3 × BitVec 16) :=
  let spTag := setter.spTag.get entry
  let layer := vlanLayerOf vlan1 vlan2
  if Bfib1.vlanLayer.get entry = layer ∧ setter.vlan1.get entry = vlan1 ∧
      setter.vlan2.get entry = vlan2 then none
  else if Bfib1.vlanLayer.get entry ≠ 0 ∧ spTag ≠ ETH_P_8021Q then
    if layer = 0 then some (1, spTag &&& ~~~0x100) else some (layer, spTag ||| 0x100)
  else some (layer, if layer ≠ 0 then ETH_P_8021Q else spTag)

def withTags (vlan1 vlan2 : BitVec 16) (setter : Member) (tags : BitVec 3 × BitVec 16)
    (entry : FoeEntry) : FoeEntry :=
  setter.spTag.set tags.2 (setter.vlan2.set vlan2 (setter.vlan1.set vlan1
    (Bfib1.vlanLayer.set tags.1 entry)))

theorem vlan_result (vlan1 vlan2 : BitVec 16) :
    (UpdateRequest.vlan vlan1 vlan2).result entry =
      (setterMember entry).map fun setter =>
        match vlanTags vlan1 vlan2 setter entry with
        | none => entry
        | some tags => withTags vlan1 vlan2 setter tags entry := by
  simp only [UpdateRequest.result, UpdateRequest.logic, hnatEntrySetVlan, ← vlanLayerOf.eq_1,
    vlanTags]
  cases set : setterMember entry with
  | none => rfl
  | some setter =>
    have apart := vlanApart set
    rw [Option.map_some]
    dsimp only
    by_cases already : Bfib1.vlanLayer.get entry = vlanLayerOf vlan1 vlan2 ∧
        setter.vlan1.get entry = vlan1 ∧ setter.vlan2.get entry = vlan2
    · simp only [if_pos already]
    · by_cases dsa : Bfib1.vlanLayer.get entry ≠ 0 ∧ setter.spTag.get entry ≠ ETH_P_8021Q
      · by_cases bare : vlanLayerOf vlan1 vlan2 = 0
        · simp only [if_neg already, if_pos dsa, if_pos bare, withTags]
          rw [Field.set_comm apart.layer2, Field.set_comm apart.layer1, Field.set_set]
        · simp only [if_neg already, if_pos dsa, if_neg bare, withTags]
      · by_cases bare : vlanLayerOf vlan1 vlan2 ≠ 0
        · simp only [if_neg already, if_neg dsa, if_pos bare, withTags]
        · have tagKept : setter.spTag.get entry = setter.spTag.get (setter.vlan2.set vlan2
              (setter.vlan1.set vlan1 (Bfib1.vlanLayer.set (vlanLayerOf vlan1 vlan2) entry))) := by
            rw [Field.get_set_disjoint apart.twoTag.symm, Field.get_set_disjoint apart.oneTag.symm,
              Field.get_set_disjoint apart.layerTag.symm]
          simp only [if_neg already, if_neg dsa, if_neg bare, withTags]
          rw [tagKept, Field.set_get]

theorem withTags_fields (vlan1 vlan2 : BitVec 16) (tags : BitVec 3 × BitVec 16)
    (entry : FoeEntry) (apart : VlanApart setter) :
    let after := withTags vlan1 vlan2 setter tags entry
    Bfib1.vlanLayer.get after = tags.1 ∧ setter.vlan1.get after = vlan1 ∧
      setter.vlan2.get after = vlan2 ∧ setter.spTag.get after = tags.2 ∧
      Bfib1.pktType.get after = Bfib1.pktType.get entry := by
  refine ⟨?_, ?_, ?_, ?_, ?_⟩
  · rw [withTags, Field.get_set_disjoint apart.layerTag, Field.get_set_disjoint apart.layer2,
      Field.get_set_disjoint apart.layer1, Field.get_set]
  · rw [withTags, Field.get_set_disjoint apart.oneTag, Field.get_set_disjoint apart.one2,
      Field.get_set]
  · rw [withTags, Field.get_set_disjoint apart.twoTag, Field.get_set]
  · rw [withTags, Field.get_set]
  · rw [withTags, Field.get_set_disjoint apart.typeTag, Field.get_set_disjoint apart.type2,
      Field.get_set_disjoint apart.type1, Field.get_set_disjoint apart.typeLayer]

theorem vlanTags_again {tags : BitVec 3 × BitVec 16} (apart : VlanApart setter)
    (found : vlanTags vlan1 vlan2 setter entry = some tags) :
    let after := withTags vlan1 vlan2 setter tags entry
    vlanTags vlan1 vlan2 setter after = none ∨ vlanTags vlan1 vlan2 setter after = some tags := by
  intro after
  obtain ⟨layer, one, two, tag, _⟩ := withTags_fields vlan1 vlan2 tags entry apart
  have settled (same : tags.1 = vlanLayerOf vlan1 vlan2) :
      vlanTags vlan1 vlan2 setter after = none := if_pos ⟨layer.trans same, one, two⟩
  simp only [vlanTags] at found
  split at found
  · cases found
  · split at found
    · split at found
      · rename_i bare
        right
        obtain rfl := Option.some_inj.mp found
        have layerSet : Bfib1.vlanLayer.get after = 1 := layer
        have tagSet : setter.spTag.get after = setter.spTag.get entry &&& ~~~0x100 := tag
        have clear (x : BitVec 16) : x &&& ~~~0x100 ≠ ETH_P_8021Q ∧
            x &&& ~~~0x100 &&& ~~~0x100 = x &&& ~~~0x100 := by
          refine ⟨fun tagged => ?_, by rw [BitVec.and_assoc, BitVec.and_self]⟩
          have bit := congrArg (·.getLsbD 8) tagged
          simp [ETH_P_8021Q] at bit
        rw [vlanTags, bare, layerSet, tagSet, if_neg fun both => absurd both.1 (by decide),
          if_pos ⟨by decide, (clear _).1⟩, if_pos rfl, (clear _).2]
      · cases found
        exact .inl (settled rfl)
    · cases found
      exact .inl (settled rfl)

theorem vlan_contract (done : (UpdateRequest.vlan vlan1 vlan2).result entry = some after) :
    EntryContract (.vlan vlan1 vlan2) entry after := by
  rw [vlan_result, Option.map_eq_some_iff] at done
  obtain ⟨setter, set, after_eq⟩ := done
  have apart := vlanApart set
  -- The two outcomes of the setter have the same description.
  obtain ⟨one, two, same, kept, again⟩ : setter.vlan1.get after = vlan1 ∧
      setter.vlan2.get after = vlan2 ∧ Bfib1.pktType.get after = Bfib1.pktType.get entry ∧
      (∀ (width : Nat) (field : FoeField width),
        (UpdateRequest.vlan vlan1 vlan2).Spares setter field → field.get after = field.get entry) ∧
      (vlanTags vlan1 vlan2 setter after = none ∨
        ∃ tags, vlanTags vlan1 vlan2 setter after = some tags ∧
          withTags vlan1 vlan2 setter tags after = after) := by
    cases found : vlanTags vlan1 vlan2 setter entry with
    | none =>
      obtain rfl : entry = after := by rw [← after_eq, found]
      have already : Bfib1.vlanLayer.get entry = vlanLayerOf vlan1 vlan2 ∧
          setter.vlan1.get entry = vlan1 ∧ setter.vlan2.get entry = vlan2 := by
        by_contra new
        rw [vlanTags, if_neg new] at found
        split at found
        · split at found <;> cases found
        · cases found
      exact ⟨already.2.1, already.2.2, rfl, fun _ _ _ => rfl, .inl found⟩
    | some tags =>
      obtain rfl : withTags vlan1 vlan2 setter tags entry = after := by rw [← after_eq, found]
      obtain ⟨layer, one, two, tag, same⟩ := withTags_fields vlan1 vlan2 tags entry apart
      refine ⟨one, two, same, ?_, ?_⟩
      · rintro width field ⟨offLayer, off1, off2, offTag⟩
        rw [withTags, Field.get_set_disjoint offTag, Field.get_set_disjoint off2,
          Field.get_set_disjoint off1, Field.get_set_disjoint offLayer]
      · rcases vlanTags_again apart found with settled | again
        · exact .inl settled
        · refine .inr ⟨tags, again, ?_⟩
          rw [withTags, Field.set_eq_self_iff.mpr layer, Field.set_eq_self_iff.mpr one,
            Field.set_eq_self_iff.mpr two, Field.set_eq_self_iff.mpr tag]
  obtain ⟨setter', _, decoded'⟩ := members_congr same
  constructor
  · intro decoded order opt
    obtain ⟨_, ⟨shown1, shown2, _⟩, _⟩ :=
      tuple_shows (decoded'.trans decoded) (setter'.trans set) order opt
    exact ⟨shown1.trans one, shown2.trans two⟩
  · intro own owns width field _ spared
    obtain ⟨_, word1, word2, _⟩ := header_same set owns
    rw [UpdateRequest.Spares, Member.vlan1, Member.vlan2, Member.spTag, word1, word2] at spared
    exact kept width field spared
  · rw [vlan_result, setter', set, Option.map_some]
    rcases again with settled | ⟨tags, again, unchanged⟩
    · rw [settled]
    · rw [again]
      exact congrArg some unchanged

end Vlan

/-! ### The QoS queue -/

section Hqos

variable {fqos qid : BitVec 16}

/-- What `hnat_entry_set_hqos` takes for a queue that is set already. -/
def HqosSet (fqos qid : BitVec 16) (setter : Member) (entry : FoeEntry) : Prop :=
  setter.fqos.get entry = flag (fqos ≠ 0) ∧ setter.qid.get entry = qid.setWidth 7

instance (setter : Member) : Decidable (HqosSet fqos qid setter entry) :=
  inferInstanceAs (Decidable (_ ∧ _))

/-- The value `hnat_entry_set_hqos` writes to `tport_id`. -/
def tportOf (fqos : BitVec 16) : BitVec 4 := if fqos ≠ 0 then NR_QDMA_TPORT else 0

def withQueue (fqos qid : BitVec 16) (setter : Member) (entry : FoeEntry) : FoeEntry :=
  setter.qid.set (qid.setWidth 7) (setter.fqos.set (flag (fqos ≠ 0))
    (setter.tportId.set (tportOf fqos) entry))

theorem queue_masked (small : qid < MTK_QDMA_TX_NUM) : qid &&& MTK_QDMA_TX_MASK = qid := by
  have bound : qid.toNat < 2 ^ 4 := small
  refine BitVec.eq_of_toNat_eq ?_
  rw [BitVec.toNat_and, show MTK_QDMA_TX_MASK.toNat = 2 ^ 4 - 1 from rfl,
    Nat.and_two_pow_sub_one_eq_mod, Nat.mod_eq_of_lt bound]

theorem hqos_result_large (large : ¬qid < MTK_QDMA_TX_NUM) :
    (UpdateRequest.hqos fqos qid).result entry = none := by
  have refused : qid ≥ MTK_QDMA_TX_NUM := BitVec.not_lt.mp large
  simp only [UpdateRequest.result, UpdateRequest.logic, hnatEntrySetHqos, if_pos refused]

theorem hqos_result_set (small : qid < MTK_QDMA_TX_NUM) (set : setterMember entry = some setter)
    (already : HqosSet fqos qid setter entry) :
    (UpdateRequest.hqos fqos qid).result entry = some entry := by
  have accepted : ¬qid ≥ MTK_QDMA_TX_NUM := fun large => absurd small (BitVec.not_lt.mpr large)
  simp only [UpdateRequest.result, UpdateRequest.logic, hnatEntrySetHqos, if_neg accepted, set,
    queue_masked small]
  rw [if_pos (by exact already)]

theorem hqos_result_none (set : setterMember entry = none) :
    (UpdateRequest.hqos fqos qid).result entry = none := by
  simp only [UpdateRequest.result, UpdateRequest.logic, hnatEntrySetHqos, set]
  split <;> simp_all

theorem flag_eq_one (p : Prop) [Decidable p] : flag p = 1 ↔ p := by
  by_cases true' : p <;> simp [flag, true']

theorem hqos_result_new (small : qid < MTK_QDMA_TX_NUM) (set : setterMember entry = some setter)
    (new : ¬HqosSet fqos qid setter entry) :
    (UpdateRequest.hqos fqos qid).result entry = some (withQueue fqos qid setter entry) := by
  have accepted : ¬qid ≥ MTK_QDMA_TX_NUM := fun large => absurd small (BitVec.not_lt.mpr large)
  simp only [UpdateRequest.result, UpdateRequest.logic, hnatEntrySetHqos, if_neg accepted, set,
    queue_masked small, flag_eq_one]
  rw [if_neg (by exact new)]
  rfl

/-- The queue is reported as it was asked for exactly when `tport_id` agrees. -/
theorem hqos_reported (small : qid < MTK_QDMA_TX_NUM) (decoded : isDecoded entry = true)
    (set : setterMember entry = some setter) (already : HqosSet fqos qid setter entry)
    (order : ByteOrder) (opt : HnatTuple) :
    (UpdateRequest.hqos fqos qid).Reported (mtkHnatFoeToHnatTuple order entry opt) ↔
      (setter.tportId.get entry = NR_QDMA_TPORT ↔ fqos ≠ 0) := by
  obtain ⟨⟨shownFqos, shownQid, _⟩, _⟩ := tuple_shows decoded set order opt
  have whole : (qid.setWidth 7).setWidth 16 = qid := by
    have cut := setWidth_masked (k := 7) (m := 16) (x := qid)
      (show MTK_QDMA_TX_MASK.toNat < 2 ^ 7 by decide)
    rwa [queue_masked small, BitVec.setWidth_eq] at cut
  rw [UpdateRequest.Reported, shownFqos, shownQid, already.2, whole, and_iff_left rfl]
  by_cases tport : setter.tportId.get entry = NR_QDMA_TPORT <;>
    by_cases on : fqos = 0 <;> simp [tport, on]

theorem hqos_contract_set (small : qid < MTK_QDMA_TX_NUM)
    (set : setterMember entry = some setter) (already : HqosSet fqos qid setter entry) :
    EntryContract (.hqos fqos qid) entry entry ↔
      (isDecoded entry = true → (setter.tportId.get entry = NR_QDMA_TPORT ↔ fqos ≠ 0)) := by
  constructor
  · intro contract decoded
    exact (hqos_reported small decoded set already .little .zero).mp
      (contract.reported decoded .little .zero)
  · intro agrees
    exact ⟨fun decoded order opt => (hqos_reported small decoded set already order opt).mpr
      (agrees decoded), fun _ _ _ _ _ _ => rfl, hqos_result_set small set already⟩

/-- The fields of the QoS setter share no bit, nor do they with the packet type. -/
structure QueueApart (setter : Member) : Prop where
  qidFqos : setter.fqos.Disjoint setter.qid
  tportQid : setter.tportId.Disjoint setter.qid
  tportFqos : setter.tportId.Disjoint setter.fqos
  typeQid : Bfib1.pktType.Disjoint setter.qid
  typeFqos : Bfib1.pktType.Disjoint setter.fqos
  typeTport : Bfib1.pktType.Disjoint setter.tportId

theorem queueApart (set : setterMember entry = some setter) : QueueApart setter := by
  rcases setter_cases set with rfl | rfl <;> constructor <;> decide

theorem withQueue_fields (fqos qid : BitVec 16) (entry : FoeEntry) (apart : QueueApart setter) :
    let after := withQueue fqos qid setter entry
    HqosSet fqos qid setter after ∧ setter.tportId.get after = tportOf fqos ∧
      Bfib1.pktType.get after = Bfib1.pktType.get entry := by
  refine ⟨⟨?_, ?_⟩, ?_, ?_⟩
  · rw [withQueue, Field.get_set_disjoint apart.qidFqos, Field.get_set]
  · rw [withQueue, Field.get_set]
  · rw [withQueue, Field.get_set_disjoint apart.tportQid, Field.get_set_disjoint apart.tportFqos,
      Field.get_set]
  · rw [withQueue, Field.get_set_disjoint apart.typeQid, Field.get_set_disjoint apart.typeFqos,
      Field.get_set_disjoint apart.typeTport]

/-- A queue set anew keeps the contract exactly when the word of `tport_id`, which the
translated layouts use for something else, has the value already. -/
theorem hqos_contract_new (small : qid < MTK_QDMA_TX_NUM) (set : setterMember entry = some setter) :
    EntryContract (.hqos fqos qid) entry (withQueue fqos qid setter entry) ↔
      ((isMape entry || isIpv6Nat entry) = true → setter.tportId.get entry = tportOf fqos) := by
  have apart := queueApart set
  obtain ⟨queueSet, tportSet, same⟩ := withQueue_fields fqos qid entry apart
  obtain ⟨setter', _, decoded'⟩ := members_congr same
  have tportReads : setter.tportId.get (withQueue fqos qid setter entry) = NR_QDMA_TPORT ↔
      fqos ≠ 0 := by
    rw [tportSet, tportOf]
    by_cases on : fqos = 0 <;> simp [on, NR_QDMA_TPORT]
  constructor
  · intro contract translated
    obtain ⟨own, owns⟩ := own_of_setter set
    obtain ⟨block, _⟩ := header_same set owns
    have other := own_tport set owns
    rw [if_pos translated] at other
    have kept := contract.framed own owns 4 setter.tportId other.2
      ⟨by rw [Member.fqos, block]; exact apart.tportFqos,
        by rw [Member.qid, block]; exact apart.tportQid, .inl other.1.symm⟩
    rw [← kept, tportSet]
  · intro agrees
    refine ⟨fun decoded order opt => ?_, fun own owns width field _ spared => ?_, ?_⟩
    · exact (hqos_reported small (decoded'.trans decoded) (setter'.trans set) queueSet order
        opt).mpr tportReads
    · obtain ⟨block, _⟩ := header_same set owns
      have offFqos : field.Disjoint setter.fqos := by
        rw [Member.fqos, ← block]
        exact spared.1
      have offQid : field.Disjoint setter.qid := by
        rw [Member.qid, ← block]
        exact spared.2.1
      have other := own_tport set owns
      rw [withQueue, Field.get_set_disjoint offQid, Field.get_set_disjoint offFqos]
      by_cases translated : (isMape entry || isIpv6Nat entry) = true
      · rw [Field.set_eq_self_iff.mpr (agrees translated)]
      · rw [if_neg translated] at other
        subst other
        exact Field.get_set_disjoint spared.2.2
    · exact hqos_result_set small (setter'.trans set) queueSet

end Hqos

/-! ### The Wi-Fi words -/

/-- A value of `winfo_pao` keeps the contract, except that entries of type `IPV6_5T_ROUTE`
have it written past their layout. -/
theorem pao_contract {request : UpdateRequest} {width : Nat} {field : Member → FoeField width}
    {value : BitVec width} (result : ∀ entry, request.result entry =
      (paoMember entry).map fun member => (field member).set value entry)
    (spares : ∀ (member : Member) (other : Nat) (field' : FoeField other),
      request.Spares member field' ↔ field'.Disjoint (field member))
    (reported : ∀ (entry : FoeEntry) (setter : Member) (order : ByteOrder) (opt : HnatTuple),
      isDecoded entry = true → setterMember entry = some setter →
      (request.Reported (mtkHnatFoeToHnatTuple order entry opt) ↔
        (field setter).get entry = value)) (type : ∀ member ∈ [ipv4Hnapt, ipv4Mape, ipv6Hnapt],
      Bfib1.pktType.Disjoint (field member))
    (outside : (field ipv65tRoute).Disjoint (field ipv4Mape) ∧
      ipv65tRoute.size ≤ (field ipv4Mape).word) :
    (∀ after, request.result entry = some after → EntryContract request entry after) ↔
      (entry.isType IPV6_5T_ROUTE = true → (field ipv65tRoute).get entry = value) := by
  have same {member : Member} (listed : member ∈ [ipv4Hnapt, ipv4Mape, ipv6Hnapt]) :
      Bfib1.pktType.get ((field member).set value entry) = Bfib1.pktType.get entry :=
    Field.get_set_disjoint (type member listed)
  have again {member : Member} (listed : member ∈ [ipv4Hnapt, ipv4Mape, ipv6Hnapt])
      (pao : paoMember entry = some member) :
      request.result ((field member).set value entry) = some ((field member).set value entry) := by
    rw [result, (members_congr (same listed)).2.1, pao, Option.map_some, Field.set_set]
  have framed {member : Member} (own : ownMember entry = some member) (other : Member)
      (owns : ownMember entry = some other) :
      request.Framed other entry ((field member).set value entry) := by
    rw [own, Option.some_inj] at owns
    subst owns
    exact fun width field' _ spared => Field.get_set_disjoint ((spares _ _ _).mp spared)
  rcases taken entry with ⟨set, own, pao, notRoute, _⟩ | ⟨set, own, pao, notIpv4, _⟩ |
      ⟨set, own, pao, raw, _⟩ | ⟨set, own, pao, raw, _⟩ | ⟨set, own, pao, notRoute⟩
  · refine iff_of_true (fun after done => ?_) fun route => absurd (notRoute.symm.trans route) nofun
    rw [result, pao, Option.map_some, Option.some_inj] at done
    subst done
    refine ⟨fun decoded order opt => ?_, framed own, again (by decide) pao⟩
    obtain ⟨setter', _, decoded'⟩ := members_congr (same (by decide : ipv4Hnapt ∈ _))
    exact (reported _ _ order opt (decoded'.trans decoded) (setter'.trans set)).mpr Field.get_set
  · have done : request.result entry = some ((field ipv4Mape).set value entry) := by
      rw [result, pao, Option.map_some]
    obtain ⟨setter', _, decoded'⟩ := members_congr (same (by decide : ipv4Mape ∈ _))
    constructor
    · intro all route
      have decoded : isDecoded entry = true := by rw [isDecoded, route, Bool.or_true]
      have shown := (all _ done).reported decoded .little .zero
      rw [reported _ _ _ _ (decoded'.trans decoded) (setter'.trans set),
        Field.get_set_disjoint outside.1] at shown
      exact shown
    · intro agrees after done'
      obtain rfl := Option.some_inj.mp (done.symm.trans done')
      refine ⟨fun decoded order opt => ?_, fun other owns width field' inside spared => ?_,
        again (by decide) pao⟩
      · have route : entry.isType IPV6_5T_ROUTE = true := by
          rwa [isDecoded, notIpv4, Bool.false_or] at decoded
        rw [reported _ _ _ _ (decoded'.trans decoded) (setter'.trans set),
          Field.get_set_disjoint outside.1]
        exact agrees route
      · rw [own, Option.some_inj] at owns
        subst owns
        refine Field.get_set_disjoint (.inl fun word => ?_)
        rw [word] at inside
        exact absurd inside (Nat.not_lt.mpr outside.2)
  · refine iff_of_true (fun after done => ?_) fun route => ?_
    · rw [result, pao, Option.map_some, Option.some_inj] at done
      subst done
      exact ⟨fun decoded => absurd (raw.symm.trans decoded) nofun, framed own,
        again (by decide) pao⟩
    · rw [isDecoded, route, Bool.or_true] at raw
      cases raw
  · refine iff_of_true (fun after done => ?_) fun route => ?_
    · rw [result, pao, Option.map_some, Option.some_inj] at done
      subst done
      exact ⟨fun decoded => absurd (raw.symm.trans decoded) nofun, framed own,
        again (by decide) pao⟩
    · rw [isDecoded, route, Bool.or_true] at raw
      cases raw
  · refine iff_of_true (fun after done => ?_) fun route => absurd (notRoute.symm.trans route) nofun
    rw [result, pao] at done
    cases done

theorem pao_result {width : Nat} {field : Member → FoeField width} {value : BitVec width} :
    (match hnatEntrySetPao field value entry with
      | (.success, entry) => some entry
      | (.alreadySet, _) => some entry
      | _ => none) = (paoMember entry).map fun member => (field member).set value entry := by
  rw [hnatEntrySetPao]
  cases paoMember entry with
  | none => rfl
  | some member =>
    by_cases same : (field member).get entry = value
    · simp only [same, if_true, Option.map_some, Field.set_eq_self_iff.mpr same]
    · simp only [same, if_false, Option.map_some]

theorem tid_result (value : BitVec 16) : (UpdateRequest.tid value).result entry =
    (paoMember entry).map fun member => member.tid.set ((value &&& 0xf).setWidth 4) entry :=
  pao_result

theorem isPrior_result (value : BitVec 16) : (UpdateRequest.isPrior value).result entry =
    (paoMember entry).map fun member => member.isPrior.set ((value &&& 0x1).setWidth 1) entry :=
  pao_result

/-! ## The exact condition -/

def UpdateRequest.InPlace (entry : FoeEntry) : UpdateRequest → Prop
  | .hqos fqos qid =>
    qid < MTK_QDMA_TX_NUM → ∀ setter, setterMember entry = some setter →
      if HqosSet fqos qid setter entry then
        isDecoded entry = true → (setter.tportId.get entry = NR_QDMA_TPORT ↔ fqos ≠ 0)
      else
        (isMape entry || isIpv6Nat entry) = true → setter.tportId.get entry = tportOf fqos
  | .tid value =>
    entry.isType IPV6_5T_ROUTE = true → ipv65tRoute.tid.get entry = (value &&& 0xf).setWidth 4
  | .isPrior value =>
    entry.isType IPV6_5T_ROUTE = true →
      ipv65tRoute.isPrior.get entry = (value &&& 0x1).setWidth 1
  | _ => True

theorem entry_contract_iff (request : UpdateRequest) (entry : FoeEntry) :
    (∀ after, request.result entry = some after → EntryContract request entry after) ↔
      request.InPlace entry := by
  cases request with
  | hqos fqos qid =>
    by_cases small : qid < MTK_QDMA_TX_NUM
    · cases set : setterMember entry with
      | none =>
        refine iff_of_true (fun after done => ?_) fun _ setter set' => by
          rw [set] at set'
          cases set'
        rw [hqos_result_none set] at done
        cases done
      | some setter =>
        have condition : (UpdateRequest.hqos fqos qid).InPlace entry ↔
            if HqosSet fqos qid setter entry then
              isDecoded entry = true → (setter.tportId.get entry = NR_QDMA_TPORT ↔ fqos ≠ 0)
            else (isMape entry || isIpv6Nat entry) = true →
              setter.tportId.get entry = tportOf fqos := by
          constructor
          · exact fun inPlace => inPlace small setter set
          · intro meets _ setter' set'
            obtain rfl := Option.some_inj.mp (set.symm.trans set')
            exact meets
        rw [condition]
        by_cases already : HqosSet fqos qid setter entry
        · rw [if_pos already, ← hqos_contract_set small set already]
          constructor
          · exact fun all => all entry (hqos_result_set small set already)
          · intro contract after done
            rw [hqos_result_set small set already, Option.some_inj] at done
            exact done ▸ contract
        · rw [if_neg already, ← hqos_contract_new small set]
          constructor
          · exact fun all => all _ (hqos_result_new small set already)
          · intro contract after done
            rw [hqos_result_new small set already, Option.some_inj] at done
            exact done ▸ contract
    · exact iff_of_true (fun after done => by rw [hqos_result_large small] at done; cases done)
        fun small' => absurd small' small
  | dscp value => exact iff_of_true (fun _ done => dscp_contract value done) trivial
  | vlan vlan1 vlan2 => exact iff_of_true (fun _ done => vlan_contract done) trivial
  | pppoe psn pppoeId => exact iff_of_true (fun _ done => pppoe_contract psn pppoeId done) trivial
  | tid value =>
    refine pao_contract (fun _ => tid_result value) (fun _ _ _ => Iff.rfl)
      (fun entry setter order opt decoded set => ?_) (by decide) (by decide)
    obtain ⟨⟨_, _, _, shown, _⟩, _⟩ := tuple_shows decoded set order opt
    rw [UpdateRequest.Reported, shown]
    exact wide_eq_masked (by decide) (by decide)
  | isPrior value =>
    refine pao_contract (fun _ => isPrior_result value) (fun _ _ _ => Iff.rfl)
      (fun entry setter order opt decoded set => ?_) (by decide) (by decide)
    obtain ⟨⟨_, _, _, _, shown⟩, _⟩ := tuple_shows decoded set order opt
    rw [UpdateRequest.Reported, shown]
    exact wide_eq_masked (by decide) (by decide)


theorem result_own {request : UpdateRequest} (done : request.result entry = some after) :
    ∃ own, ownMember entry = some own := by
  rcases taken entry with ⟨_, own⟩ | ⟨_, own⟩ | ⟨_, own⟩ | ⟨_, own⟩ | ⟨set, _, pao⟩
  · exact ⟨_, own⟩
  · exact ⟨_, own⟩
  · exact ⟨_, own⟩
  · exact ⟨_, own⟩
  · cases request with
    | hqos fqos qid => rw [hqos_result_none set] at done; cases done
    | dscp value => rw [dscp_result, set] at done; cases done
    | vlan vlan1 vlan2 => rw [vlan_result, set] at done; cases done
    | pppoe psn pppoeId => rw [pppoe_result, set] at done; cases done
    | tid value => rw [tid_result, pao] at done; cases done
    | isPrior value => rw [isPrior_result, pao] at done; cases done

theorem own_cases (owns : ownMember entry = some own) :
    own = ipv4Hnapt ∨ own = ipv65tRoute ∨ own = ipv4Mape ∨ own = ipv6Hnapt := by
  rcases taken entry with ⟨_, own', _⟩ | ⟨_, own', _⟩ | ⟨_, own', _⟩ | ⟨_, own', _⟩ |
      ⟨_, own', _⟩ <;>
    rw [own'] at owns <;> cases owns <;> simp

theorem framed_head {request : UpdateRequest} (owns : ownMember entry = some own)
    (framed : request.Framed own entry after) :
    Bfib1.pktType.get after = Bfib1.pktType.get entry ∧ after.isBound = entry.isBound := by
  have inside : 0 < own.size := by rcases own_cases owns with rfl | rfl | rfl | rfl <;> decide
  have type : request.Spares own Bfib1.pktType := by
    rcases own_cases owns with rfl | rfl | rfl | rfl <;> cases request <;>
      dsimp only [UpdateRequest.Spares] <;> decide
  have state : request.Spares own Bfib1.state := by
    rcases own_cases owns with rfl | rfl | rfl | rfl <;> cases request <;>
      dsimp only [UpdateRequest.Spares] <;> decide
  refine ⟨framed 5 Bfib1.pktType inside type, ?_⟩
  rw [FoeEntry.isBound, framed 2 Bfib1.state inside state, FoeEntry.isBound]

theorem reported_congr {request : UpdateRequest} (decoded : isDecoded entry = true)
    (set : setterMember entry = some setter) {order order' : ByteOrder} {opt opt' : HnatTuple} :
    request.Reported (mtkHnatFoeToHnatTuple order entry opt) ↔
      request.Reported (mtkHnatFoeToHnatTuple order' entry opt') := by
  have shown := tuple_shows decoded set order opt
  have shown' := tuple_shows decoded set order' opt'
  dsimp only at shown shown'
  cases request <;> simp only [UpdateRequest.Reported, shown, shown']

/-! ## Calls on the table -/

section Table

variable {h : MtkHnat} {request : UpdateRequest} {ppeIndex hashIndex : BitVec 16}

def UpdateContract (h : MtkHnat) (request : UpdateRequest) (ppeIndex hashIndex : BitVec 16)
    (entry : FoeEntry) : Prop :=
  ∃ status later, request.byIndex ppeIndex hashIndex h = some (status, later) ∧
    (status ≠ .success → later = h) ∧
    (status = .success →
      ∃ after, later.foeEntry ppeIndex.toNat hashIndex.toNat = some after ∧
        (∀ ppe index, ppe ≠ ppeIndex.toNat ∨ index ≠ hashIndex.toNat →
          later.foeEntry ppe index = h.foeEntry ppe index) ∧
        (isDecoded entry = true → ∀ order opt, opt.ppeIndex = ppeIndex →
          opt.hashIndex = hashIndex → ∃ shown,
            mtkHnatGetPpeEntryByIndex order later opt = some (.success, shown) ∧
              request.Reported shown) ∧
        (∀ own, ownMember entry = some own → request.Framed own entry after) ∧
        request.byIndex ppeIndex hashIndex later = some (.success, later))

theorem byIndex_result (request : UpdateRequest) (inPpe : ppeIndex.toNat < h.ppeNum)
    (inTable : hashIndex.toNat < h.foeEtryNum)
    (placed : h.foeEntry ppeIndex.toNat hashIndex.toNat = some entry)
    (bound : entry.isBound = true) :
    match request.result entry with
    | some after => request.byIndex ppeIndex hashIndex h =
        some (.success, h.setFoeEntry ppeIndex.toNat hashIndex.toNat after)
    | none => ∃ status, status ≠ .success ∧
        request.byIndex ppeIndex hashIndex h = some (status, h) := by
  have inside : ¬(ppeIndex.toNat ≥ h.ppeNum ∨ hashIndex.toNat ≥ h.foeEtryNum) := by omega
  rw [request.byIndex_eq, hnatUpdateEntryGeneric, if_neg inside, placed, Option.map_some, bound,
    UpdateRequest.result]
  rcases outcome : request.logic entry with ⟨status, after⟩
  cases status with
  | success => rfl
  | alreadySet =>
    dsimp only
    rw [MtkHnat.setFoeEntry_self placed]
    rfl
  | fail => exact ⟨.fail, nofun, rfl⟩
  | entryNotFound => exact ⟨.entryNotFound, nofun, rfl⟩

theorem updateContract_iff_entry (inPpe : ppeIndex.toNat < h.ppeNum)
    (inTable : hashIndex.toNat < h.foeEtryNum)
    (placed : h.foeEntry ppeIndex.toNat hashIndex.toNat = some entry)
    (bound : entry.isBound = true) :
    UpdateContract h request ppeIndex hashIndex entry ↔
      ∀ after, request.result entry = some after → EntryContract request entry after := by
  have ran := byIndex_result request inPpe inTable placed bound
  cases result : request.result entry with
  | none =>
    rw [result] at ran
    obtain ⟨status, failed, run⟩ := ran
    exact iff_of_true ⟨status, h, run, fun _ => rfl, fun success => absurd success failed⟩ nofun
  | some after =>
    rw [result] at ran
    dsimp only at ran
    have there : (h.setFoeEntry ppeIndex.toNat hashIndex.toNat after).foeEntry ppeIndex.toNat
        hashIndex.toNat = some after := MtkHnat.foeEntry_setFoeEntry placed
    obtain ⟨own, owns⟩ := result_own result
    obtain ⟨setter, set⟩ := setter_of_own owns
    have reads {opt : HnatTuple} (ppeSame : opt.ppeIndex = ppeIndex)
        (hashSame : opt.hashIndex = hashIndex) (order : ByteOrder) (bound' : after.isBound = true) :
        mtkHnatGetPpeEntryByIndex order (h.setFoeEntry ppeIndex.toNat hashIndex.toNat after) opt =
          some (.success, mtkHnatFoeToHnatTuple order after opt) := by
      have inside : ¬(ppeIndex.toNat ≥ h.ppeNum ∨ hashIndex.toNat ≥ h.foeEtryNum) := by omega
      rw [mtkHnatGetPpeEntryByIndex, ppeSame, hashSame, there, Option.map_some, if_pos bound']
      exact if_neg inside
    constructor
    · rintro ⟨status, later, run, _, ok⟩ after' done
      obtain rfl := Option.some_inj.mp done
      rw [ran, Option.some_inj, Prod.mk.injEq] at run
      obtain ⟨rfl, rfl⟩ := run
      obtain ⟨after', there', _, reported, framed, repeats⟩ := ok rfl
      obtain rfl := Option.some_inj.mp (there.symm.trans there')
      obtain ⟨type, boundSame⟩ := framed_head owns (framed own owns)
      have bound' := boundSame.trans bound
      obtain ⟨setter', _, decoded'⟩ := members_congr type
      refine ⟨fun decoded order opt => ?_, framed, ?_⟩
      · obtain ⟨shown, run, reported⟩ :=
          reported decoded order { opt with ppeIndex, hashIndex } rfl rfl
        rw [reads rfl rfl order bound', Option.some_inj, Prod.mk.injEq] at run
        obtain ⟨_, rfl⟩ := run
        exact (reported_congr (decoded'.trans decoded) (setter'.trans set)).mp reported
      · have again := byIndex_result request
          (h := h.setFoeEntry ppeIndex.toNat hashIndex.toNat after) inPpe inTable there bound'
        cases second : request.result after with
        | none =>
          rw [second] at again
          obtain ⟨status, failed, run⟩ := again
          rw [repeats, Option.some_inj, Prod.mk.injEq] at run
          exact absurd run.1.symm failed
        | some twice =>
          rw [second] at again
          rw [again, Option.some_inj, Prod.mk.injEq] at repeats
          have same : (some twice : Option FoeEntry) = some after :=
            (MtkHnat.foeEntry_setFoeEntry there).symm.trans ((congrArg (fun later =>
              later.foeEntry ppeIndex.toNat hashIndex.toNat) repeats.2).trans there)
          exact same
    · intro contract
      obtain ⟨reported, framed, repeats⟩ := contract after rfl
      obtain ⟨type, boundSame⟩ := framed_head owns (framed own owns)
      have bound' := boundSame.trans bound
      refine ⟨.success, _, ran, absurd rfl, fun _ => ⟨after, there, fun ppe index other =>
        MtkHnat.foeEntry_setFoeEntry_other other, fun decoded order opt ppeSame hashSame =>
          ⟨_, reads ppeSame hashSame order bound', reported decoded order opt⟩, framed, ?_⟩⟩
      have again := byIndex_result request
        (h := h.setFoeEntry ppeIndex.toNat hashIndex.toNat after) inPpe inTable there bound'
      rw [repeats] at again
      dsimp only at again
      rw [again, MtkHnat.setFoeEntry_self there]

/-- The contract holds of a call about a bound entry exactly where the setter's member puts
the value in place. -/
theorem update_contract_iff (inPpe : ppeIndex.toNat < h.ppeNum)
    (inTable : hashIndex.toNat < h.foeEtryNum)
    (placed : h.foeEntry ppeIndex.toNat hashIndex.toNat = some entry)
    (bound : entry.isBound = true) :
    UpdateContract h request ppeIndex hashIndex entry ↔ request.InPlace entry :=
  (updateContract_iff_entry inPpe inTable placed bound).trans (entry_contract_iff request entry)

end Table

theorem update_contract_iff_dscp :
    UpdateContract (onePpe fun _ => dnsFlow 0xc0a80102) (.dscp 46) 0 600 (dnsFlow 0xc0a80102) ↔
      (UpdateRequest.dscp 46).InPlace (dnsFlow 0xc0a80102) :=
  update_contract_iff (by decide) (by decide) (onePpe_foeEntry (by decide)) (by decide)

def mapeFlow : FoeEntry := Bfib1.pktType.set IPV4_MAP_E (Bfib1.state.set BIND FoeEntry.zero)

/-- Putting a MAP-E flow into queue 3 changes its translated source port. -/
theorem update_contract_mape :
    ¬∀ (h : MtkHnat) (request : UpdateRequest) (ppeIndex hashIndex : BitVec 16)
        (entry : FoeEntry), ppeIndex.toNat < h.ppeNum → hashIndex.toNat < h.foeEtryNum →
      h.foeEntry ppeIndex.toNat hashIndex.toNat = some entry → entry.isBound = true →
      UpdateContract h request ppeIndex hashIndex entry := by
  intro always
  have placed : (onePpe fun _ => mapeFlow).foeEntry (0 : BitVec 16).toNat (0 : BitVec 16).toNat =
      some mapeFlow := onePpe_foeEntry (by decide)
  have contract := always (onePpe fun _ => mapeFlow) (.hqos 1 3) 0 0 mapeFlow (by decide)
    (by decide) placed (by decide)
  rw [updateContract_iff_entry (by decide) (by decide) placed (by decide),
    entry_contract_iff] at contract
  have unchanged := contract (by decide) ipv65tRoute (by decide)
  revert unchanged
  decide

end MetaFilogic.Hnat
