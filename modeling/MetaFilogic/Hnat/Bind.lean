import MetaFilogic.Hnat.Headers

/-!
# Preparing an entry

`skb_to_hnat_info` makes the entry of a flow from the packet that goes out, the path to its
next hop and the device it leaves by.  It takes the addresses from the headers and the
entry the PPE has learnt, and then fills in the Ethernet header, the first info block, the
port and the queue.  An entry for a Wi-Fi device with hardware acceleration is kept in
`foe_flow` for `mtk_sw_nat_hook_tx`, and any other is written to the table.
-/

namespace MetaFilogic.Hnat

open Fields

/-! ## Filling an entry -/

def fillMacs (member : Member) (path : HwPath) (entry : FoeEntry) : FoeEntry :=
  member.smacLo.set (swab16 (macLo path.ethSrc)) (member.smacHi.set (swab32 (macHi path.ethSrc))
    (member.dmacLo.set (swab16 (macLo path.ethDest))
      (member.dmacHi.set (swab32 (macHi path.ethDest)) entry)))

/-- The types that `ppe_fill_L2_info` and `ppe_fill_info_blk` fill through
`ipv6_5t_route`: `IS_IPV6_GRP` without MAP-T. -/
def FoeEntry.isFilledGrp (entry : FoeEntry) : Bool :=
  entry.isType IPV4_DSLITE || entry.isType IPV4_MAP_E || entry.isType IPV6_6RD ||
    entry.isType IPV6_5T_ROUTE || entry.isType IPV6_3T_ROUTE || entry.isType IPV6_HNAPT ||
    entry.isType IPV6_HNAT

def ppeFillL2Info (path : HwPath) (entry : FoeEntry) : FoeEntry :=
  if entry.isType L2_BRIDGE then fillMacs l2Bridge path entry
  else if entry.isIpv4Grp then ipv4Hnapt.pppoeId.set path.pppoeSid (fillMacs ipv4Hnapt path entry)
  else if entry.isFilledGrp then
    ipv65tRoute.pppoeId.set path.pppoeSid (fillMacs ipv65tRoute path entry)
  else entry

/-- The second info block and the tag of `ppe_fill_info_blk`, in a member of the union. -/
def fillBlk2 (s : HnatSettings) (path : HwPath) (member : Member) (entry : FoeEntry) : FoeEntry :=
  let multicast := s.mcastMultiMode && isMulticastEtherAddr path.ethDest
  let entry := member.portAg.set 0xf (member.mcast.set (flag (multicast = true)) entry)
  if Bfib1.vlanLayer.get entry ≠ 0 then member.spTag.set ETH_P_8021Q entry else entry

def ppeFillInfoBlk (s : HnatSettings) (path : HwPath) (entry : FoeEntry) : FoeEntry :=
  let vlanLayer := Bfib1.vlanLayer.get entry + if path.vlan then 1 else 0
  let entry : FoeEntry := Bfib1.ttl.set (flag (path.bridging = false)) (Bfib1.sta.set 0 (Bfib1.cah.set 1
    (Bfib1.vpm.set 0 (Bfib1.vlanLayer.set vlanLayer
      (Bfib1.psn.set (flag (path.pppoe = true)) entry)))))
  if entry.isType L2_BRIDGE then fillBlk2 s path l2Bridge entry
  else if entry.isIpv4Grp then fillBlk2 s path ipv4Hnapt entry
  else if entry.isFilledGrp then fillBlk2 s path ipv65tRoute entry
  else entry

def UDF_PINGPONG_IFIDX : BitVec 8 := 0x7f

/-- The device index in `act_dp`. -/
def fillPingpong (member : Member) (netif : NetIf) (entry : FoeEntry) : FoeEntry :=
  member.actDp.set (member.actDp.get entry &&& ~~~UDF_PINGPONG_IFIDX |||
    (netif.ifindex &&& UDF_PINGPONG_IFIDX.setWidth 32).setWidth 8) entry

def fillGmac1Vlan (s : HnatSettings) (desc : HnatDesc) (entry : FoeEntry) : FoeEntry :=
  if !s.whnat && s.gmac1Mode then
    let entry := Bfib1.vlanLayer.set 1 (Bfib1.vpm.set 1 entry)
    if desc.iface = FOE_MAGIC_GE_LAN then ipv4Hnapt.vlan1.set 1 entry
    else if desc.iface = FOE_MAGIC_GE_WAN ∨ desc.iface = FOE_MAGIC_GE_VIRTUAL then
      ipv4Hnapt.vlan1.set 2 entry
    else entry
  else entry

/-- The port `skb_to_hnat_info` sends a flow to, with what it fills in for the device;
nothing for a device it does not know. -/
def fillEgress (s : HnatSettings) (desc : HnatDesc) (dev : OutDev) (mape : Bool)
    (foe entry : FoeEntry) : Option (BitVec 4 × FoeEntry) :=
  if dev.lanGrp || dev.wan then
    match dev.stag entry with
    | none => none
    | some entry =>
      if dev.wan && s.mapeToggle && mape then
        some (NR_PDMA_PORT, fillPingpong ipv4Hnapt dev.netif entry)
      else
        dev.gmac.map fun gmac => (gmac, entry)
  else if dev.ext && desc.fromEth then
    let entry := fillGmac1Vlan s desc entry
    if foe.isIpv4Grp || foe.isType L2_BRIDGE then
      some (NR_PDMA_PORT, fillPingpong ipv4Hnapt dev.netif entry)
    else
      some (NR_PDMA_PORT, fillPingpong ipv65tRoute dev.netif entry)
  else
    none

/-- The member of the union that has `tport_id` where the layout of the type has it. -/
def tportMember (entry : FoeEntry) : Member :=
  if entry.isType IPV4_MAP_E || entry.isType IPV4_MAP_T then ipv4Mape
  else if entry.isType IPV6_HNAPT || entry.isType IPV6_HNAT then ipv6Hnapt
  else ipv65tRoute

def fillQos (s : HnatSettings) (desc : HnatDesc) (qos : QosChoice) (gmac : BitVec 4)
    (entry : FoeEntry) : FoeEntry :=
  let plain := desc.iface = FOE_MAGIC_EXT ∨ desc.sport = NR_QDMA_PORT
  let fill (member : Member) (tport : FoeEntry → FoeEntry) :=
    let entry := member.portMg.set 0 (member.dp.set gmac entry)
    if s.qosToggle then
      let entry := member.qid.set qos.qid entry
      if plain then member.fqos.set 0 entry
      else member.fqos.set (flag (qos.hqosFlag = true)) (tport entry)
    else member.fqos.set 0 entry
  let tport := if qos.hqosFlag then NR_QDMA_TPORT else 0
  if entry.isIpv4Grp then fill ipv4Hnapt (ipv4Hnapt.tportId.set tport)
  else if entry.isType L2_BRIDGE then fill l2Bridge id
  else fill ipv65tRoute ((tportMember entry).tportId.set tport)

def hnatFillOffloadEngineEntry (s : HnatSettings) (desc : HnatDesc) (entry : FoeEntry) : FoeEntry :=
  let member := if entry.isIpv4Grp then ipv4Hnapt else ipv65tRoute
  let crypto := desc.cdrt ≠ 0 ∧ desc.isEncrypt = true
  if !s.tnlToggle then entry
  else if desc.tops ≠ 0 ∧ desc.isEncap = true then
    let entry :=
      if crypto then
        member.cdrtId.set desc.cdrt (member.tportId.set NR_TDMA_EIP197_QDMA_TPORT entry)
      else member.tportId.set NR_TDMA_QDMA_TPORT entry
    member.qid.set 14 (member.topsEntry.set desc.tops entry)
  else if crypto then
    member.qid.set 14 (member.cdrtId.set desc.cdrt (member.tportId.set NR_EIP197_QDMA_TPORT entry))
  else entry

def fillL4s (s : HnatSettings) (desc : HnatDesc) (dev : OutDev) (entry : FoeEntry) : FoeEntry :=
  let detour (member tops : Member) :=
    let entry := tops.tportId.set 0
      (tops.topsEntry.set ((member.dp.get entry).setWidth 6) entry)
    member.qid.set 0 (member.fqos.set 0 (member.dp.set NR_TDMA_PORT entry))
  if s.l4sToggle && desc.fromWed && !dev.whnat then
    if entry.isIpv4Grp then detour ipv4Hnapt ipv4Hnapt
    else detour ipv65tRoute (tportMember entry)
  else entry

/-- `skb_to_hnat_info` from `hnat_entry_bind` to the finished entry. -/
def hnatEntryBind (s : HnatSettings) (desc : HnatDesc) (dev : OutDev) (path : HwPath)
    (qos : QosChoice) (mape : Bool) (foe entry : FoeEntry) : Option FoeEntry :=
  match fillEgress s desc dev mape foe (ppeFillInfoBlk s path entry) with
  | none => none
  | some (gmac, entry) =>
    some (fillL4s s desc dev (hnatFillOffloadEngineEntry s desc (fillQos s desc qos gmac entry)))

/-! ## The preparation -/

def hnatGetFilledUnbindEntry (foe : FoeEntry) : FoeEntry :=
  Bfib1.ps.set 0 (Bfib1.vpm.set 0 (Bfib1.psn.set 0 (Bfib1.vlanLayer.set 0 (Bfib1.ka.set 0
    (Bfib1.mc.set 0 foe)))))

/-- `hnat_offload_engine_done(skb, hw_path)`; `xfrm` tells whether the route of the packet
has a transformation. -/
def hnatOffloadEngineDone (s : HnatSettings) (desc : HnatDesc) (path : HwPath) (xfrm : Bool) : Int :=
  if desc.tops ≠ 0 ∧ path.tnl = false then
    if !s.tnlToggle then -1 else if xfrm then -1 else 1
  else 0

/-- What `skb_to_hnat_info` has made before it takes a lock. -/
inductive Prepared where
  | refused
  /-- An entry of a tunnel that is not complete yet, which is written as it is. -/
  | partial' (entry : FoeEntry)
  /-- An entry to be kept or bound. -/
  | filled (entry : FoeEntry)

/-- `skb_to_hnat_info` from `hnat_entry_bind`, as far as it prepares the entry. -/
def prepareBind (s : HnatSettings) (desc : HnatDesc) (dev : OutDev) (path : HwPath)
    (qos : QosChoice) (mape : Bool) (foe entry : FoeEntry) : Prepared :=
  match hnatEntryBind s desc dev path qos mape foe entry with
  | none => .refused
  | some entry => .filled entry

def typedEntry (foe : FoeEntry) : FoeEntry :=
  Bfib1.sp.set (Bfib1.sp.get foe) (Bfib1.state.set (Bfib1.state.get foe)
    (Bfib1.pktType.set (Bfib1.pktType.get foe) FoeEntry.zero))

/-- `skb_to_hnat_info(skb, dev, foe, hw_path)` as far as it prepares the entry. -/
def prepareEntry (s : HnatSettings) (desc : HnatDesc) (pkt : Packet) (dev : OutDev)
    (path : HwPath) (qos : QosChoice) (xfrm : Bool) (foe : FoeEntry) : Prepared :=
  if !s.mcast && isMulticastEtherAddr path.ethDest then .refused
  else
    match hnatOffloadEngineDone s desc path xfrm with
    | 1 => prepareBind s desc dev path qos false foe (hnatGetFilledUnbindEntry foe)
    | 0 =>
      if Bfib1.state.get foe ≠ UNBIND then .refused
      else
        let path := pppoePath pkt path
        match (hdrProto pkt).bind
          (hnatSwitch s pkt path foe (typedEntry foe) qos (dev.wan || dev.dsaWan)) with
        | none => .refused
        | some (entry, mape) =>
          let entry := ppeFillL2Info path entry
          if (desc.tops ≠ 0 ∧ path.tnl = true) ∨
              (desc.cdrt = 0 ∧ desc.isEncrypt = true ∧ xfrm = true) then
            .partial' entry
          else
            prepareBind s desc dev path qos mape foe entry
    | _ => .refused

/-- `hnat_foe_entry_commit(foe, entry, state)`, the entry left in the table; `stamp` is what
`foe_timestamp` reads. -/
def hnatFoeEntryCommit (stamp : BitVec 8) (state : BitVec 2) (entry : FoeEntry) : FoeEntry :=
  Bfib1.state.set state (Bfib1.timeStamp.set stamp entry)

section Cases

variable {s : HnatSettings} {desc : HnatDesc} {pkt : Packet} {dev : OutDev} {path : HwPath}
  {qos : QosChoice} {xfrm mape : Bool} {foe entry after : FoeEntry}

theorem prepareBind_filled :
    prepareBind s desc dev path qos mape foe entry = .filled after ↔
      hnatEntryBind s desc dev path qos mape foe entry = some after := by
  rw [prepareBind]
  cases hnatEntryBind s desc dev path qos mape foe entry with
  | none => exact iff_of_false nofun nofun
  | some bound => exact ⟨fun same => congrArg some (Prepared.filled.inj same),
      fun same => congrArg Prepared.filled (Option.some_inj.mp same)⟩

/-- The entry the switch over the headers makes of a learnt one, and `mape`. -/
def parsedEntry (s : HnatSettings) (pkt : Packet) (dev : OutDev) (path : HwPath)
    (qos : QosChoice) (foe : FoeEntry) : Option (FoeEntry × Bool) :=
  (hdrProto pkt).bind
    (hnatSwitch s pkt (pppoePath pkt path) foe (typedEntry foe) qos (dev.wan || dev.dsaWan))

/-- Where a filled entry comes from: from the learnt entry itself when it has been through
the tunnel engine, and otherwise from the headers. -/
theorem prepareEntry_filled
    (prepared : prepareEntry s desc pkt dev path qos xfrm foe = .filled entry) :
    (hnatOffloadEngineDone s desc path xfrm = 1 ∧
        hnatEntryBind s desc dev path qos false foe (hnatGetFilledUnbindEntry foe) = some entry) ∨
      (hnatOffloadEngineDone s desc path xfrm = 0 ∧ Bfib1.state.get foe = UNBIND ∧
        ∃ parsed mape, parsedEntry s pkt dev path qos foe = some (parsed, mape) ∧
          hnatEntryBind s desc dev (pppoePath pkt path) qos mape foe
            (ppeFillL2Info (pppoePath pkt path) parsed) = some entry) := by
  simp only [prepareEntry] at prepared
  split at prepared
  · cases prepared
  · split at prepared
    · rename_i done
      exact .inl ⟨done, prepareBind_filled.mp prepared⟩
    · rename_i done
      split at prepared
      · cases prepared
      · rename_i unbind
        split at prepared
        · cases prepared
        · rename_i parsed mape ran
          split at prepared
          · cases prepared
          · exact .inr ⟨done, not_not.mp unbind, parsed, mape, ran, prepareBind_filled.mp prepared⟩
    · cases prepared

theorem typedEntry_type : Bfib1.pktType.get (typedEntry foe) = Bfib1.pktType.get foe := by
  simp (disch := decide) only [typedEntry, Field.get_set_disjoint, Field.get_set]

theorem parsedEntry_type {parsed : FoeEntry}
    (ran : parsedEntry s pkt dev path qos foe = some (parsed, mape)) :
    Bfib1.pktType.get parsed = Bfib1.pktType.get foe ∨
      (Bfib1.pktType.get foe = IPV6_5T_ROUTE ∧ Bfib1.pktType.get parsed = IPV6_HNAPT) := by
  obtain ⟨hProto, _, switched⟩ := Option.bind_eq_some_iff.mp ran
  have type := hnatSwitch_type switched
  rwa [typedEntry_type] at type

end Cases

/-! ## What the filling leaves alone -/

section Untouched

variable {s : HnatSettings} {desc : HnatDesc} {dev : OutDev} {path : HwPath} {qos : QosChoice}
  {gmac : BitVec 4} {mape : Bool} {foe entry after : FoeEntry} {word : Fin 32}

/-- The words with the second info block or `tport_id` in some member. -/
def tailWords : List (Fin 32) := [4, 8, 14, 19, 23, 26, 28]

variable {width : Nat} {member : Member}

theorem set_off {words : List (Fin 32)} {field : FoeField width} {value : BitVec width}
    (off : word ∉ words) (inside : field.word ∈ words) : field.set value entry word = entry word :=
  Field.set_word fun same => off (same ▸ inside)

theorem tportMember_mem (entry : FoeEntry) :
    tportMember entry = ipv4Mape ∨ tportMember entry = ipv6Hnapt ∨
      tportMember entry = ipv65tRoute := by
  unfold tportMember
  split
  · exact .inl rfl
  · split
    · exact .inr (.inl rfl)
    · exact .inr (.inr rfl)

theorem tportMember_inside (entry : FoeEntry) : (tportMember entry).tportWord ∈ tailWords := by
  rcases tportMember_mem entry with is | is | is <;> rw [is] <;> decide

theorem fillQos_word (off : word ∉ tailWords) :
    fillQos s desc qos gmac entry word = entry word := by
  have tport (value : BitVec 4) (entry' : FoeEntry) :
      (tportMember entry).tportId.set value entry' word = entry' word :=
    set_off off (tportMember_inside entry)
  simp only [fillQos]
  split_ifs <;> simp (disch := decide) only [set_off off, tport, id]

theorem hnatFillOffloadEngineEntry_word (off : word ∉ tailWords) :
    hnatFillOffloadEngineEntry s desc entry word = entry word := by
  simp only [hnatFillOffloadEngineEntry]
  split_ifs <;> simp (disch := decide) only [set_off off]

theorem fillL4s_word (off : word ∉ tailWords) : fillL4s s desc dev entry word = entry word := by
  have tport (value : BitVec 4) (entry' : FoeEntry) :
      (tportMember entry).tportId.set value entry' word = entry' word :=
    set_off off (tportMember_inside entry)
  have tops (value : BitVec 6) (entry' : FoeEntry) :
      (tportMember entry).topsEntry.set value entry' word = entry' word :=
    set_off off (tportMember_inside entry)
  simp only [fillL4s]
  split_ifs <;> simp (disch := decide) only [set_off off, tport, tops]

/-- The words `ppe_fill_info_blk` and the tags of the egress device are written to. -/
def headWords : List (Fin 32) := [0, 4, 8, 11, 14, 15]

theorem fillBlk2_word (blk2 : member.infoBlk2 ∈ headWords) (tag : member.vlan1Word ∈ headWords)
    (off : word ∉ headWords) : fillBlk2 s path member entry word = entry word := by
  simp only [fillBlk2]
  split_ifs
  · rw [set_off off (show member.spTag.word ∈ headWords from tag),
      set_off off (show member.portAg.word ∈ headWords from blk2),
      set_off off (show member.mcast.word ∈ headWords from blk2)]
  · rw [set_off off (show member.portAg.word ∈ headWords from blk2),
      set_off off (show member.mcast.word ∈ headWords from blk2)]

theorem ppeFillInfoBlk_word (off : word ∉ headWords) :
    ppeFillInfoBlk s path entry word = entry word := by
  have l2 (entry' : FoeEntry) : fillBlk2 s path l2Bridge entry' word = entry' word :=
    fillBlk2_word (by decide) (by decide) off
  have ipv4 (entry' : FoeEntry) : fillBlk2 s path ipv4Hnapt entry' word = entry' word :=
    fillBlk2_word (by decide) (by decide) off
  have ipv6 (entry' : FoeEntry) : fillBlk2 s path ipv65tRoute entry' word = entry' word :=
    fillBlk2_word (by decide) (by decide) off
  simp only [ppeFillInfoBlk]
  split_ifs <;> simp (disch := decide) only [l2, ipv4, ipv6, set_off off]

def HeadKept {width : Nat} (field : FoeField width) : Prop :=
  field.word = 0 ∧ field.Disjoint Bfib1.vlanLayer ∧ field.Disjoint Bfib1.psn ∧
    field.Disjoint Bfib1.vpm ∧ field.Disjoint Bfib1.cah ∧ field.Disjoint Bfib1.sta ∧
    field.Disjoint Bfib1.ttl

instance {width : Nat} (field : FoeField width) : Decidable (HeadKept field) :=
  inferInstanceAs (Decidable (_ ∧ _ ∧ _ ∧ _ ∧ _ ∧ _ ∧ _))

theorem fillBlk2_head {field : FoeField width} (first : field.word = 0) (blk2 : member.infoBlk2 ≠ 0)
    (tag : member.vlan1Word ≠ 0) : field.get (fillBlk2 s path member entry) = field.get entry := by
  have offMcast : field.Disjoint member.mcast := .inl (first ▸ blk2.symm)
  have offPortAg : field.Disjoint member.portAg := .inl (first ▸ blk2.symm)
  have offTag : field.Disjoint member.spTag := .inl (first ▸ tag.symm)
  simp only [fillBlk2]
  split_ifs <;> simp only [Field.get_set_disjoint offMcast, Field.get_set_disjoint offPortAg,
    Field.get_set_disjoint offTag]

theorem ppeFillInfoBlk_head {field : FoeField width} (kept : HeadKept field) :
    field.get (ppeFillInfoBlk s path entry) = field.get entry := by
  obtain ⟨first, layer, psn, vpm, cah, sta, ttl⟩ := kept
  have l2 (entry' : FoeEntry) : field.get (fillBlk2 s path l2Bridge entry') = field.get entry' :=
    fillBlk2_head first (by decide) (by decide)
  have ipv4 (entry' : FoeEntry) :
      field.get (fillBlk2 s path ipv4Hnapt entry') = field.get entry' :=
    fillBlk2_head first (by decide) (by decide)
  have ipv6 (entry' : FoeEntry) :
      field.get (fillBlk2 s path ipv65tRoute entry') = field.get entry' :=
    fillBlk2_head first (by decide) (by decide)
  simp only [ppeFillInfoBlk]
  split_ifs <;> simp only [l2, ipv4, ipv6, Field.get_set_disjoint layer,
    Field.get_set_disjoint psn, Field.get_set_disjoint vpm, Field.get_set_disjoint cah,
    Field.get_set_disjoint sta, Field.get_set_disjoint ttl]

theorem get_of_word {field : FoeField width} (same : after field.word = entry field.word) :
    field.get after = field.get entry := by
  rw [Field.get, same, Field.get]

def pingpongMember (foe : FoeEntry) : Member :=
  if foe.isIpv4Grp || foe.isType L2_BRIDGE then ipv4Hnapt else ipv65tRoute

theorem fillGmac1Vlan_word (off : word ∉ headWords) :
    fillGmac1Vlan s desc entry word = entry word := by
  simp only [fillGmac1Vlan]
  split_ifs <;> simp (disch := decide) only [set_off off]

theorem fillGmac1Vlan_head {field : FoeField width} (kept : HeadKept field) :
    field.get (fillGmac1Vlan s desc entry) = field.get entry := by
  obtain ⟨first, layer, _, vpm, _⟩ := kept
  have offVlan1 : field.Disjoint ipv4Hnapt.vlan1 := by
    refine .inl ?_
    rw [first]
    decide
  simp only [fillGmac1Vlan]
  split_ifs <;> simp only [Field.get_set_disjoint layer, Field.get_set_disjoint vpm,
    Field.get_set_disjoint offVlan1]

theorem fillEgress_ext (lanGrp : dev.lanGrp = false) (wan : dev.wan = false)
    (made : fillEgress s desc dev mape foe entry = some (gmac, after)) :
    after = fillPingpong (pingpongMember foe) dev.netif (fillGmac1Vlan s desc entry) := by
  simp only [fillEgress, lanGrp, wan, Bool.or_self, Bool.false_eq_true, if_false] at made
  unfold pingpongMember
  split_ifs at made ⊢ <;> simp_all

theorem fillPingpong_type (act : member.actDpWord ≠ 0) (netif : NetIf) (entry : FoeEntry) :
    Bfib1.pktType.get (fillPingpong member netif entry) = Bfib1.pktType.get entry :=
  Field.get_set_disjoint (.inl act.symm)

theorem fillEgress_type (made : fillEgress s desc dev mape foe entry = some (gmac, after)) :
    Bfib1.pktType.get after = Bfib1.pktType.get entry := by
  rw [fillEgress] at made
  split at made
  · split at made
    · cases made
    · rename_i tagged is
      have kept := (dev.stag_head is).1
      split at made
      · obtain ⟨_, rfl⟩ := Prod.mk.inj (Option.some_inj.mp made)
        rw [fillPingpong_type (by decide), kept]
      · obtain ⟨_, _, same⟩ := Option.map_eq_some_iff.mp made
        obtain ⟨_, rfl⟩ := Prod.mk.inj same
        exact kept
  · have vlan : Bfib1.pktType.get (fillGmac1Vlan s desc entry) = Bfib1.pktType.get entry :=
      fillGmac1Vlan_head (by decide)
    split at made
    · split at made
      · obtain ⟨_, rfl⟩ := Prod.mk.inj (Option.some_inj.mp made)
        rw [fillPingpong_type (by decide), vlan]
      · obtain ⟨_, rfl⟩ := Prod.mk.inj (Option.some_inj.mp made)
        rw [fillPingpong_type (by decide), vlan]
    · cases made

theorem hnatEntryBind_type (made : hnatEntryBind s desc dev path qos mape foe entry = some after) :
    Bfib1.pktType.get after = Bfib1.pktType.get entry := by
  rw [hnatEntryBind] at made
  split at made
  · cases made
  · rename_i gmac filled egress
    obtain rfl := Option.some_inj.mp made
    have tail : fillL4s s desc dev (hnatFillOffloadEngineEntry s desc
        (fillQos s desc qos gmac filled)) 0 = filled 0 := by
      rw [fillL4s_word (by decide), hnatFillOffloadEngineEntry_word (by decide),
        fillQos_word (by decide)]
    rw [get_of_word tail, fillEgress_type egress, ppeFillInfoBlk_head (by decide)]

theorem fillPingpong_get (member : Member) (netif : NetIf) (entry : FoeEntry) :
    member.actDp.get (fillPingpong member netif entry) &&& UDF_PINGPONG_IFIDX =
      (netif.ifindex &&& UDF_PINGPONG_IFIDX.setWidth 32).setWidth 8 := by
  rw [fillPingpong, Field.get_set]
  refine BitVec.eq_of_getLsbD_eq fun i inside => ?_
  simp only [BitVec.getLsbD_and, BitVec.getLsbD_or, BitVec.getLsbD_not, BitVec.getLsbD_setWidth]
  cases (UDF_PINGPONG_IFIDX.getLsbD i) <;> simp

/-- An entry that is bound to an external device has the index of the device in the member
for its type, and its addresses and its type are the ones it came with. -/
theorem hnatEntryBind_ext (lanGrp : dev.lanGrp = false) (wan : dev.wan = false)
    (made : hnatEntryBind s desc dev path qos mape foe entry = some after) :
    (pingpongMember foe).actDp.get after &&& UDF_PINGPONG_IFIDX =
        (dev.netif.ifindex &&& UDF_PINGPONG_IFIDX.setWidth 32).setWidth 8 ∧
      (∀ word ∉ headWords, word ∉ tailWords → word ≠ (pingpongMember foe).actDpWord →
        after word = entry word) ∧
      Bfib1.pktType.get after = Bfib1.pktType.get entry := by
  rw [hnatEntryBind] at made
  cases egress : fillEgress s desc dev mape foe (ppeFillInfoBlk s path entry) with
  | none => simp [egress] at made
  | some filled =>
    obtain ⟨gmac, filled⟩ := filled
    rw [egress] at made
    obtain rfl := Option.some_inj.mp made
    obtain rfl := fillEgress_ext lanGrp wan egress
    have tail {word : Fin 32} (off : word ∉ tailWords) (filled : FoeEntry) :
        fillL4s s desc dev (hnatFillOffloadEngineEntry s desc (fillQos s desc qos gmac filled))
          word = filled word := by
      rw [fillL4s_word off, hnatFillOffloadEngineEntry_word off, fillQos_word off]
    have member : pingpongMember foe = ipv4Hnapt ∨ pingpongMember foe = ipv65tRoute := by
      unfold pingpongMember
      split
      · exact .inl rfl
      · exact .inr rfl
    refine ⟨?_, fun word offHead offTail apart => ?_, ?_⟩
    · have offTail : (pingpongMember foe).actDp.word ∉ tailWords := by
        rcases member with is | is <;> rw [is] <;> decide
      rw [get_of_word (tail offTail _), fillPingpong_get]
    · rw [tail offTail, fillPingpong, Field.set_word apart, fillGmac1Vlan_word offHead,
        ppeFillInfoBlk_word offHead]
    · have kept : HeadKept Bfib1.pktType := by decide
      have apart : Bfib1.pktType.Disjoint (pingpongMember foe).actDp := by
        rcases member with is | is <;> rw [is] <;> decide
      rw [get_of_word (tail (by decide) _), fillPingpong, Field.get_set_disjoint apart,
        fillGmac1Vlan_head kept, ppeFillInfoBlk_head kept]

theorem fillMacs_type (macs : member.dmacHiWord ≠ 0 ∧ member.vlan2Word ≠ 0 ∧
    member.smacHiWord ≠ 0 ∧ member.pppoeWord ≠ 0) :
    Bfib1.pktType.get (fillMacs member path entry) = Bfib1.pktType.get entry := by
  obtain ⟨dmacHi, dmacLo, smacHi, smacLo⟩ := macs
  rw [fillMacs, Field.get_set_disjoint (.inl smacLo.symm), Field.get_set_disjoint (.inl smacHi.symm),
    Field.get_set_disjoint (.inl dmacLo.symm), Field.get_set_disjoint (.inl dmacHi.symm)]

theorem ppeFillL2Info_type :
    Bfib1.pktType.get (ppeFillL2Info path entry) = Bfib1.pktType.get entry := by
  simp only [ppeFillL2Info]
  split_ifs
  · exact fillMacs_type (by decide)
  · rw [Field.get_set_disjoint (by decide), fillMacs_type (by decide)]
  · rw [Field.get_set_disjoint (by decide), fillMacs_type (by decide)]
  · rfl

theorem prepareEntry_type {pkt : Packet} {xfrm : Bool}
    (prepared : prepareEntry s desc pkt dev path qos xfrm foe = .filled entry) :
    Bfib1.pktType.get entry = Bfib1.pktType.get foe ∨
      (Bfib1.pktType.get foe = IPV6_5T_ROUTE ∧ Bfib1.pktType.get entry = IPV6_HNAPT) := by
  rcases prepareEntry_filled prepared with ⟨_, made⟩ | ⟨_, _, parsed, mape, ran, made⟩
  · rw [hnatEntryBind_type made]
    simp (disch := decide) only [hnatGetFilledUnbindEntry, Field.get_set_disjoint, true_or]
  · rw [hnatEntryBind_type made, ppeFillL2Info_type]
    exact parsedEntry_type ran

end Untouched

/-! ## A plain flow -/

def plainSettings : HnatSettings where
  mcast := false
  whnat := false
  gmac1Mode := false
  qosToggle := false
  hqosMode := false
  hqosDlMode := false
  perFlowAccounting := false
  mapeToggle := false
  tnlToggle := false
  l4sToggle := false
  mcastMultiMode := false

def ppdDesc : HnatDesc where
  entry := 7
  filled := 0
  crsn := 0
  sport := 0
  alg := 0
  iface := FOE_MAGIC_GE_PPD
  rxid := 0
  wcid := 0
  bssid := 0
  usrInfo := 0
  tid := 0
  isFixedrate := 0
  isPrior := 0
  isSp := 0
  hf := 0
  amsdu := 0
  tops := 0
  isDecap := 1
  cdrt := 0
  isDecrypt := 1
  magicTagProtect := 0

def extDev (ifindex : BitVec 32) : OutDev where
  netif := ⟨0, ifindex⟩
  lanGrp := false
  wan := false
  dsaWan := false
  ext := true
  whnat := false
  gmac := none
  stag := some
  stag_word same _ := by rw [Option.some_inj.mp same]
  stag_head same := by
    rw [Option.some_inj.mp same]
    exact ⟨rfl, rfl⟩

def tcpHeader : IpHdr where
  tos := 0
  totLen := 40
  id := 0
  fragOff := 0
  ttl := 64
  protocol := IPPROTO_TCP
  check := 0
  saddr := 0xc0a80102
  daddr := 0x08080808
  ports := some ⟨1000, 80⟩

def ipv6Header : Ipv6Hdr where
  priority := 0
  flowLbl0 := 0
  flowLbl1 := 0
  flowLbl2 := 0
  nexthdr := IPPROTO_TCP
  hopLimit := 64
  saddr _ := 0
  daddr _ := 0
  ports := some ⟨1000, 80⟩

def tcpPacket : Packet where
  ethProto := ETH_P_IP
  protocol := ETH_P_IP
  version := 4
  pppoeSid := 0
  pppProto := none
  iph := tcpHeader
  ip6h := ipv6Header
  innerIph := tcpHeader
  innerIp6h := ipv6Header
  vlanTagged := false
  vlanTci := 0

def plainPath : HwPath where
  ethDest := 0x020000000001
  ethSrc := 0x020000000002
  pppoeSid := 0
  vlanId := 0
  pppoe := false
  vlan := false
  tnl := false
  bridging := false

def noQos : QosChoice := ⟨0, false, 0, false⟩

def learntEntry (type : BitVec 5) : FoeEntry :=
  Bfib1.state.set UNBIND (Bfib1.pktType.set type FoeEntry.zero)

end MetaFilogic.Hnat
