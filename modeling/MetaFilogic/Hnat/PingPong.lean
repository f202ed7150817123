import MetaFilogic.Hnat.Bind

/-!
# Packets between the PPE and external devices

A flow to an external device is bound to the CPU, and the entry keeps the index of the
device for `do_hnat_ge_to_ext`.  A packet from an external device goes into the PPE with
the index of the device as its VLAN tag, and comes back to `do_hnat_ext_to_ge2`.  Both ways
the index is cut to the width of its field.
-/

namespace MetaFilogic.Hnat

open Fields

/-! ## External devices -/

def MAX_EXT_DEVS : Nat := 0x3f

/-- `hnat_priv->ext_if` up to the first empty slot, by the device of each entry. -/
structure ExtIf where
  devs : List (Option NetIf)
  fits : devs.length ≤ MAX_EXT_DEVS

namespace ExtIf

variable (ext : ExtIf)

def getIndexFromDev (dev : NetIf) : BitVec 32 :=
  if some dev ∈ ext.devs then dev.ifindex else 0

def isExt (dev : NetIf) : Bool := ext.getIndexFromDev dev != 0

def getDevFromIndex (index : BitVec 32) : Option NetIf :=
  ext.devs.findSome? fun dev => dev.filter fun dev => index == dev.ifindex

def Distinct : Prop :=
  ∀ dev dev', some dev ∈ ext.devs → some dev' ∈ ext.devs → dev.ifindex = dev'.ifindex → dev = dev'

variable {ext} {dev : NetIf}

theorem getDevFromIndex_some {index : BitVec 32} (found : ext.getDevFromIndex index = some dev) :
    some dev ∈ ext.devs ∧ dev.ifindex = index := by
  obtain ⟨slot, inside, cell⟩ := List.exists_of_findSome?_eq_some found
  rw [Option.filter_eq_some_iff] at cell
  obtain ⟨rfl, same⟩ := cell
  exact ⟨inside, (eq_of_beq same).symm⟩

theorem getDevFromIndex_eq_iff (distinct : ext.Distinct) (registered : some dev ∈ ext.devs)
    (index : BitVec 32) : ext.getDevFromIndex index = some dev ↔ dev.ifindex = index := by
  constructor
  · exact fun found => (getDevFromIndex_some found).2
  · rintro rfl
    cases found : ext.getDevFromIndex dev.ifindex with
    | none =>
      have none := List.findSome?_eq_none_iff.mp found _ registered
      simp at none
    | some other =>
      obtain ⟨inside, same⟩ := getDevFromIndex_some found
      rw [distinct _ _ inside registered same]

end ExtIf

/-! ## From the PPE to an external device -/

/-- What `do_hnat_ge_to_ext` asks of a packet apart from its descriptor: whether it has the
tag of the QoS mode, and whether the tag could be taken off. -/
structure HqosTag where
  tagged : Bool
  unshared : Bool
  pulled : Bool

def NF_ACCEPT : Int := 1

/-- `do_hnat_ge_to_ext(skb)`: what it returns, and the device it gives the packet to.
Nothing when the entry is not in the table.  What follows the test of `skb->dev` in the
source is not reached, as a device has been put there. -/
def doHnatGeToExt (h : MtkHnat) (ext : ExtIf) (desc : HnatDesc) (tag : HqosTag) :
    Option (Int × Option NetIf) :=
  if desc.entry.toNat ≥ h.foeEtryNum ∨ desc.ppe h.ppeNum ≥ h.ppeNum then some (-1, none)
  else
    (h.foeEntry (desc.ppe h.ppeNum) desc.entry.toNat).map fun entry =>
      let member := if entry.isIpv4Grp then ipv4Hnapt else ipv65tRoute
      let index := member.actDp.get entry &&& UDF_PINGPONG_IFIDX
      match ext.getDevFromIndex (index.setWidth 32) with
      | none => (0, none)
      | some dev =>
        if tag.tagged && !(tag.unshared && tag.pulled) then (NF_ACCEPT, some dev)
        else (0, some dev)

/-! ## From an external device and back -/

def VLAN_CFI_MASK : BitVec 16 := 0x1000
def VLAN_VID_MASK : BitVec 16 := 0x0fff

/-- `do_hnat_ext_to_ge(skb, in)`: the tag the packet is sent with, and nothing when it is
not sent.  `ppdUp` tells whether the PPE's device is up, and `inserted` whether the packet
had no tag of its own or it could be put into the packet. -/
def doHnatExtToGe (ppdUp inserted : Bool) (dev : NetIf) : Option (BitVec 16) :=
  if ppdUp && inserted then
    some (VLAN_CFI_MASK ||| (dev.ifindex &&& VLAN_VID_MASK.setWidth 32).setWidth 16)
  else none

/-- What `do_hnat_ext_to_ge2` depends on: whether a tag inside the packet could be taken
off, the WAN device, the MAP-E toggle, and whether the IPv6 header could be put on. -/
structure ReturnPath where
  untagged : Bool
  wandev : Option NetIf
  mapeToggle : Bool
  headerAdded : Bool

def ReturnPath.getWandevFromIndex (path : ReturnPath) (index : BitVec 32) : Option NetIf :=
  path.wandev.filter fun dev => dev.ifindex == index

def doHnatExtToGe2 (h : MtkHnat) (ext : ExtIf) (desc : HnatDesc) (path : ReturnPath)
    (vlanTci : BitVec 16) : Option NetIf :=
  let index := (vlanTci &&& VLAN_VID_MASK).setWidth 32
  if desc.entry.toNat ≥ h.foeEtryNum ∨ desc.ppe h.ppeNum ≥ h.ppeNum then none
  else
    match ext.getDevFromIndex index with
    | some dev => if path.untagged then some dev else none
    | none =>
      match path.getWandevFromIndex index with
      | some dev => if path.mapeToggle && path.headerAdded then some dev else none
      | none => none

/-! ## The index that comes back -/

section Index

variable {s : HnatSettings} {pkt : Packet} {desc hit : HnatDesc} {dev : OutDev}
  {path : HwPath} {qos : QosChoice} {xfrm : Bool} {foe entry : FoeEntry}

/-- The index `do_hnat_ge_to_ext` reads from an entry that was bound to an external device.
For a bridged flow it is the fifth byte of the destination address, as the index is
written through `ipv4_hnapt` and read through `ipv6_5t_route`. -/
def pingpongIndex (s : HnatSettings) (desc : HnatDesc) (path : HwPath) (xfrm : Bool)
    (foe : FoeEntry) (netif : NetIf) : BitVec 32 :=
  if foe.isType L2_BRIDGE then
    ((if hnatOffloadEngineDone s desc path xfrm = 1 then ipv65tRoute.actDp.get foe
      else path.ethDest.extractLsb' 8 8) &&& UDF_PINGPONG_IFIDX).setWidth 32
  else netif.ifindex &&& UDF_PINGPONG_IFIDX.setWidth 32

theorem actDp_of_dmacLo (entry : FoeEntry) :
    ipv65tRoute.actDp.get entry = (l2Bridge.dmacLo.get entry).extractLsb' 8 8 := by
  refine BitVec.eq_of_getLsbD_eq fun i inside => ?_
  have wide : 8 + i < 16 := by omega
  have place : 24 + i = 16 + (8 + i) := by omega
  simp only [BitVec.getLsbD_extractLsb', Field.getLsbD_get, inside, wide, decide_true,
    Bool.true_and]
  exact congrArg (entry 13).getLsbD place

/-- Filling in the Ethernet header of a bridged flow puts the fifth byte of the destination
address where the index is read. -/
theorem ppeFillL2Info_index (bridged : entry.isType L2_BRIDGE = true) :
    ipv65tRoute.actDp.get (ppeFillL2Info path entry) = path.ethDest.extractLsb' 8 8 := by
  rw [ppeFillL2Info, if_pos bridged, actDp_of_dmacLo, fillMacs,
    Field.get_set_disjoint (by decide), Field.get_set_disjoint (by decide), Field.get_set,
    macLo, swab16_swab16]
  refine BitVec.eq_of_getLsbD_eq fun i inside => ?_
  simp [inside]

theorem pppoePath_ethDest : (pppoePath pkt path).ethDest = path.ethDest := by
  rw [pppoePath]
  split <;> rfl

theorem prepareEntry_base
    (prepared : prepareEntry s desc pkt dev path qos xfrm foe = .filled entry) :
    ∃ path' mape base, hnatEntryBind s desc dev path' qos mape foe base = some entry ∧
      (Bfib1.pktType.get base = Bfib1.pktType.get foe ∨
        (Bfib1.pktType.get foe = IPV6_5T_ROUTE ∧ Bfib1.pktType.get base = IPV6_HNAPT)) ∧
      (foe.isType L2_BRIDGE = true → ipv65tRoute.actDp.get base =
        if hnatOffloadEngineDone s desc path xfrm = 1 then ipv65tRoute.actDp.get foe
        else path.ethDest.extractLsb' 8 8) := by
  rcases prepareEntry_filled prepared with ⟨done, made⟩ | ⟨done, _, parsed, mape, ran, made⟩
  · refine ⟨path, false, _, made, .inl ?_, fun _ => ?_⟩
    · simp (disch := decide) only [hnatGetFilledUnbindEntry, Field.get_set_disjoint]
    · rw [if_pos done]
      simp (disch := decide) only [hnatGetFilledUnbindEntry, Field.get_set_disjoint]
  · have type := parsedEntry_type ran
    refine ⟨_, mape, _, made, ?_, fun bridged => ?_⟩
    · rwa [ppeFillL2Info_type]
    · rw [if_neg (by rw [done]; decide)]
      have dest : (pppoePath pkt path).ethDest = path.ethDest := pppoePath_ethDest
      rw [← dest]
      refine ppeFillL2Info_index ?_
      rcases type with same | ⟨route, _⟩
      · rw [FoeEntry.isType, same]
        exact bridged
      · rw [FoeEntry.isType, route] at bridged
        cases bridged

theorem hnatFoeEntryCommit_type (stamp : BitVec 8) (state : BitVec 2) :
    Bfib1.pktType.get (hnatFoeEntryCommit stamp state entry) = Bfib1.pktType.get entry := by
  rw [hnatFoeEntryCommit, Field.get_set_disjoint (by decide), Field.get_set_disjoint (by decide)]

theorem hnatFoeEntryCommit_word (stamp : BitVec 8) (state : BitVec 2) {word : Fin 32}
    (later : word ≠ 0) : hnatFoeEntryCommit stamp state entry word = entry word := by
  rw [hnatFoeEntryCommit, Field.set_word later, Field.set_word later]

theorem boundIndex (lanGrp : dev.lanGrp = false) (wan : dev.wan = false)
    (prepared : prepareEntry s desc pkt dev path qos xfrm foe = .filled entry)
    (stamp : BitVec 8) (state : BitVec 2) :
    let bound := hnatFoeEntryCommit stamp state entry
    ((if bound.isIpv4Grp then ipv4Hnapt else ipv65tRoute).actDp.get bound &&&
      UDF_PINGPONG_IFIDX).setWidth 32 = pingpongIndex s desc path xfrm foe dev.netif := by
  intro bound
  obtain ⟨_, mape, base, made, type, bridged⟩ := prepareEntry_base prepared
  obtain ⟨index, untouched, kept⟩ := hnatEntryBind_ext lanGrp wan made
  have written (member : Member) (first : member.actDpWord ≠ 0) :
      member.actDp.get bound = member.actDp.get entry :=
    get_of_word (hnatFoeEntryCommit_word stamp state first)
  have cut : ((dev.netif.ifindex &&& UDF_PINGPONG_IFIDX.setWidth 32).setWidth 8).setWidth 32 =
      dev.netif.ifindex &&& UDF_PINGPONG_IFIDX.setWidth 32 := by
    rw [setWidth_masked (by decide), BitVec.setWidth_eq]
  have boundType : Bfib1.pktType.get bound = Bfib1.pktType.get base :=
    (hnatFoeEntryCommit_type stamp state).trans kept
  by_cases isBridged : foe.isType L2_BRIDGE = true
  · have same : Bfib1.pktType.get foe = L2_BRIDGE := eq_of_beq isBridged
    have member : pingpongMember foe = ipv4Hnapt := by
      rw [pingpongMember, isBridged, Bool.or_true, if_pos rfl]
    have notIpv4 : bound.isIpv4Grp = false := by
      rw [FoeEntry.isIpv4Grp, FoeEntry.isType, FoeEntry.isType, boundType]
      rcases type with type | ⟨route, _⟩
      · rw [type, same]
        rfl
      · rw [same] at route
        cases route
    rw [notIpv4, if_neg Bool.false_ne_true, written _ (by decide), pingpongIndex, if_pos isBridged,
      ← bridged isBridged]
    rw [member] at untouched
    rw [get_of_word (untouched 13 (by decide) (by decide) (by decide))]
  · have grp : bound.isIpv4Grp = foe.isIpv4Grp := by
      simp only [FoeEntry.isIpv4Grp, FoeEntry.isType, boundType]
      rcases type with type | ⟨route, nat⟩
      · rw [type]
      · rw [route, nat]
        rfl
    have member : (if bound.isIpv4Grp then ipv4Hnapt else ipv65tRoute) = pingpongMember foe := by
      rw [pingpongMember, grp, Bool.eq_false_iff.mpr isBridged, Bool.or_false]
    have first : (pingpongMember foe).actDpWord ≠ 0 := by
      unfold pingpongMember
      split <;> decide
    rw [member, written _ first, index, pingpongIndex, if_neg isBridged, cut]

end Index

/-! ## Both ways -/

theorem index_kept_iff (index : BitVec 32) :
    index &&& VLAN_VID_MASK.setWidth 32 = index ↔ index < 4096 := by
  have low : (index &&& VLAN_VID_MASK.setWidth 32).toNat = index.toNat % 4096 := by
    rw [BitVec.toNat_and, show (VLAN_VID_MASK.setWidth 32).toNat = 2 ^ 12 - 1 from rfl,
      Nat.and_two_pow_sub_one_eq_mod]
  rw [← BitVec.toNat_inj, low, BitVec.lt_def]
  have bound : (4096 : BitVec 32).toNat = 4096 := rfl
  omega

theorem tag_index (index : BitVec 32) :
    ((VLAN_CFI_MASK ||| (index &&& VLAN_VID_MASK.setWidth 32).setWidth 16) &&&
      VLAN_VID_MASK).setWidth 32 = index &&& VLAN_VID_MASK.setWidth 32 := by
  refine BitVec.eq_of_getLsbD_eq fun i inside => ?_
  have cfi : ∀ i < 32, VLAN_VID_MASK.getLsbD i = true →
      VLAN_CFI_MASK.getLsbD i = false ∧ i < 16 := by decide
  simp only [BitVec.getLsbD_setWidth, BitVec.getLsbD_and, BitVec.getLsbD_or]
  cases mask : VLAN_VID_MASK.getLsbD i with
  | false => simp
  | true =>
    obtain ⟨clear, small⟩ := cfi i inside mask
    simp only [clear, Bool.false_or]
    simp [small, inside]

section BothWays

variable {s : HnatSettings} {pkt : Packet} {desc hit returned : HnatDesc} {dev : OutDev}
  {path : HwPath} {qos : QosChoice} {xfrm : Bool} {foe entry : FoeEntry} {stamp : BitVec 8}
  {h : MtkHnat} {ext : ExtIf} {sender : NetIf} {vlanTci : BitVec 16}

theorem geToExt_iff (tag : HqosTag) (lanGrp : dev.lanGrp = false) (wan : dev.wan = false)
    (prepared : prepareEntry s desc pkt dev path qos xfrm foe = .filled entry)
    (inTable : hit.entry.toNat < h.foeEtryNum) (inPpe : hit.ppe h.ppeNum < h.ppeNum)
    (bound : h.foeEntry (hit.ppe h.ppeNum) hit.entry.toNat =
      some (hnatFoeEntryCommit stamp BIND entry))
    (distinct : ext.Distinct) (registered : some dev.netif ∈ ext.devs) :
    (∃ ret, doHnatGeToExt h ext hit tag = some (ret, some dev.netif)) ↔
      pingpongIndex s desc path xfrm foe dev.netif = dev.netif.ifindex := by
  have inside : ¬(hit.entry.toNat ≥ h.foeEtryNum ∨ hit.ppe h.ppeNum ≥ h.ppeNum) := by omega
  have index := boundIndex lanGrp wan prepared stamp BIND
  rw [doHnatGeToExt, if_neg inside, bound, Option.map_some]
  dsimp only at index ⊢
  rw [index, eq_comm (a := pingpongIndex s desc path xfrm foe dev.netif),
    ← ext.getDevFromIndex_eq_iff distinct registered]
  cases found : ext.getDevFromIndex (pingpongIndex s desc path xfrm foe dev.netif) with
  | none => simp
  | some other =>
    dsimp only
    split <;> simp

theorem extToGe2_iff {ppdUp inserted : Bool} (back : ReturnPath) (distinct : ext.Distinct)
    (sent : doHnatExtToGe ppdUp inserted sender = some vlanTci) (from' : some sender ∈ ext.devs) :
    doHnatExtToGe2 h ext returned back vlanTci = some sender ↔
      sender.ifindex < 4096 ∧ returned.entry.toNat < h.foeEtryNum ∧
        returned.ppe h.ppeNum < h.ppeNum ∧ back.untagged = true := by
  have tci : vlanTci = VLAN_CFI_MASK |||
      (sender.ifindex &&& VLAN_VID_MASK.setWidth 32).setWidth 16 := by
    rw [doHnatExtToGe] at sent
    split at sent
    · exact (Option.some_inj.mp sent).symm
    · cases sent
  rw [doHnatExtToGe2, tci, tag_index, ← index_kept_iff]
  by_cases inside : returned.entry.toNat ≥ h.foeEtryNum ∨ returned.ppe h.ppeNum ≥ h.ppeNum
  · rw [if_pos inside]
    refine iff_of_false nofun fun ⟨_, entry, ppe, _⟩ => ?_
    omega
  · have ranges : returned.entry.toNat < h.foeEtryNum ∧ returned.ppe h.ppeNum < h.ppeNum := by
      omega
    rw [if_neg inside]
    have own := ext.getDevFromIndex_eq_iff distinct from'
      (sender.ifindex &&& VLAN_VID_MASK.setWidth 32)
    cases found : ext.getDevFromIndex (sender.ifindex &&& VLAN_VID_MASK.setWidth 32) with
    | none =>
      rw [found] at own
      have apart : ¬sender.ifindex &&& VLAN_VID_MASK.setWidth 32 = sender.ifindex :=
        fun same => absurd (own.mpr same.symm) nofun
      refine iff_of_false (fun handed => ?_) fun meets => apart meets.1
      dsimp only at handed
      split at handed
      · rename_i other wandev
        split at handed
        · rw [ReturnPath.getWandevFromIndex, Option.filter_eq_some_iff] at wandev
          have same : other.ifindex = sender.ifindex &&& VLAN_VID_MASK.setWidth 32 :=
            eq_of_beq wandev.2
          rw [Option.some_inj.mp handed] at same
          exact apart same.symm
        · cases handed
      · cases handed
    | some other =>
      rw [found] at own
      dsimp only
      rw [eq_comm (a := sender.ifindex &&& VLAN_VID_MASK.setWidth 32), ← own]
      cases back.untagged with
      | true => simp [ranges]
      | false => simp

/-- A flow to an external device comes back to it exactly when its entry gives the index
of the device whole, and a packet from an external device does when its index fits a VLAN
tag and it has an entry. -/
theorem pingpong_iff {ppdUp inserted : Bool} (tag : HqosTag) (back : ReturnPath)
    (lanGrp : dev.lanGrp = false) (wan : dev.wan = false)
    (prepared : prepareEntry s desc pkt dev path qos xfrm foe = .filled entry)
    (inTable : hit.entry.toNat < h.foeEtryNum) (inPpe : hit.ppe h.ppeNum < h.ppeNum)
    (bound : h.foeEntry (hit.ppe h.ppeNum) hit.entry.toNat =
      some (hnatFoeEntryCommit stamp BIND entry))
    (distinct : ext.Distinct) (registered : some dev.netif ∈ ext.devs)
    (sent : doHnatExtToGe ppdUp inserted sender = some vlanTci)
    (from' : some sender ∈ ext.devs) :
    ((∃ ret, doHnatGeToExt h ext hit tag = some (ret, some dev.netif)) ↔
        pingpongIndex s desc path xfrm foe dev.netif = dev.netif.ifindex) ∧
      (doHnatExtToGe2 h ext returned back vlanTci = some sender ↔
        sender.ifindex < 4096 ∧ returned.entry.toNat < h.foeEtryNum ∧
          returned.ppe h.ppeNum < h.ppeNum ∧ back.untagged = true) :=
  ⟨geToExt_iff tag lanGrp wan prepared inTable inPpe bound distinct registered,
    extToGe2_iff back distinct sent from'⟩

end BothWays

/-! ## Two devices -/

def extEntry (ifindex : BitVec 32) : FoeEntry :=
  match prepareEntry plainSettings ppdDesc tcpPacket (extDev ifindex) plainPath noQos false
    (learntEntry IPV4_HNAPT) with
  | .filled entry => entry
  | _ => FoeEntry.zero

theorem extEntry_prepared (ifindex : BitVec 32) :
    prepareEntry plainSettings ppdDesc tcpPacket (extDev ifindex) plainPath noQos false
      (learntEntry IPV4_HNAPT) = .filled (extEntry ifindex) := rfl

def extTable (ifindex : BitVec 32) : MtkHnat :=
  onePpe fun _ => hnatFoeEntryCommit 0 BIND (extEntry ifindex)

def twoDevs : ExtIf where
  devs := [some ⟨0, 5⟩, some ⟨0, 130⟩]
  fits := by decide

theorem twoDevs_distinct : twoDevs.Distinct := by
  intro dev dev' inside inside' same
  obtain ⟨ptr, ifindex⟩ := dev
  obtain ⟨ptr', ifindex'⟩ := dev'
  simp only [twoDevs, List.mem_cons, Option.some.injEq, NetIf.mk.injEq, List.not_mem_nil,
    or_false] at inside inside'
  obtain rfl : ifindex = ifindex' := same
  obtain rfl : ptr = 0 := by rcases inside with ⟨is, _⟩ | ⟨is, _⟩ <;> exact is
  obtain rfl : ptr' = 0 := by rcases inside' with ⟨is, _⟩ | ⟨is, _⟩ <;> exact is
  rfl

def returnPath : ReturnPath := ⟨true, none, false, false⟩

theorem pingpong_iff_small :
    ((∃ ret, doHnatGeToExt (extTable 5) twoDevs ppdDesc ⟨false, false, false⟩ =
          some (ret, some ⟨0, 5⟩)) ↔
        pingpongIndex plainSettings ppdDesc plainPath false (learntEntry IPV4_HNAPT) ⟨0, 5⟩ = 5) ∧
      (doHnatExtToGe2 (extTable 5) twoDevs ppdDesc returnPath 0x1005 = some ⟨0, 5⟩ ↔
        (5 : BitVec 32) < 4096 ∧ ppdDesc.entry.toNat < 1024 ∧ ppdDesc.ppe 1 < 1 ∧
          returnPath.untagged = true) := by
  have lanGrp : (extDev 5).lanGrp = false := rfl
  have bound : (extTable 5).foeEntry (ppdDesc.ppe (extTable 5).ppeNum) ppdDesc.entry.toNat =
      some (hnatFoeEntryCommit 0 BIND (extEntry 5)) := onePpe_foeEntry (by decide)
  have sent : doHnatExtToGe true true ⟨0, 5⟩ = some 0x1005 := by decide
  exact pingpong_iff ⟨false, false, false⟩ returnPath lanGrp rfl (extEntry_prepared 5) (by decide)
    (by decide) bound twoDevs_distinct (by decide) sent (by decide)

/-- The flow to the device with the index 130 gives the index 2. -/
theorem pingpong_truncated :
    ¬∀ (s : HnatSettings) (pkt : Packet) (desc hit : HnatDesc) (dev : OutDev) (path : HwPath)
        (qos : QosChoice) (xfrm : Bool) (foe entry : FoeEntry) (stamp : BitVec 8) (h : MtkHnat)
        (ext : ExtIf) (tag : HqosTag),
      dev.lanGrp = false → dev.wan = false →
      prepareEntry s desc pkt dev path qos xfrm foe = .filled entry →
      hit.entry.toNat < h.foeEtryNum → hit.ppe h.ppeNum < h.ppeNum →
      h.foeEntry (hit.ppe h.ppeNum) hit.entry.toNat =
        some (hnatFoeEntryCommit stamp BIND entry) →
      ext.Distinct → some dev.netif ∈ ext.devs →
      ∃ ret, doHnatGeToExt h ext hit tag = some (ret, some dev.netif) := by
  intro always
  have handed := always plainSettings tcpPacket ppdDesc ppdDesc (extDev 130) plainPath noQos false
    (learntEntry IPV4_HNAPT) (extEntry 130) 0 (extTable 130) twoDevs ⟨false, false, false⟩ rfl rfl
    (extEntry_prepared 130) (by decide) (by decide) (onePpe_foeEntry (by decide)) twoDevs_distinct
    (by decide)
  have placed : (extTable 130).foeEntry (ppdDesc.ppe (extTable 130).ppeNum) ppdDesc.entry.toNat =
      some (hnatFoeEntryCommit 0 BIND (extEntry 130)) := onePpe_foeEntry (by decide)
  have whole : pingpongIndex plainSettings ppdDesc plainPath false (learntEntry IPV4_HNAPT)
      ⟨0, 130⟩ = 130 :=
    (geToExt_iff _ rfl rfl (extEntry_prepared 130) (by decide) (by decide) placed
      twoDevs_distinct (by decide)).mp handed
  exact absurd whole (by decide)

end MetaFilogic.Hnat
