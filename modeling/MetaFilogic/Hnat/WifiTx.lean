import MetaFilogic.Hnat.Bind

/-!
# Entries of Wi-Fi flows

`mtk_sw_nat_hook_tx` gets a packet that a Wi-Fi driver sends by a WDMA.  It takes the entry
that `skb_to_hnat_info` has prepared for the flow, fills in what the driver knows of the
station, and binds it.
-/

namespace MetaFilogic.Hnat

open Fields

/-- A packet on its way to a WDMA.  `port` is `gmac_no`, `tag` the VLAN tag beside the packet,
with whether it is an 802.1Q tag, and `innerTags` the tags in the packet. -/
structure WifiPacket where
  desc : HnatDesc
  port : BitVec 4
  headroom : Bool
  macHeaderSet : Bool
  ethDest : Mac
  ethSource : Mac
  tag : Option (Bool × BitVec 16)
  innerTags : List (BitVec 16)

def HNAT_MAGIC_TAG : BitVec 16 := 0x6789
def HNAT_INFO_FILLED : BitVec 3 := 7
def HIT_UNBIND_RATE_REACH : BitVec 5 := 0x0f

namespace HnatDesc

variable (desc : HnatDesc)

def isHashed (foeEtryNum : Nat) : Bool := desc.entry != 0x7fff && decide (desc.entry.toNat < foeEtryNum)

end HnatDesc

/-- The tests of `mtk_sw_nat_hook_tx` on the packet. -/
def WifiPacket.accepted (pkt : WifiPacket) (h : MtkHnat) : Bool :=
  pkt.desc.isHashed h.foeEtryNum && decide (pkt.desc.ppe h.ppeNum < h.ppeNum) &&
    pkt.desc.alg == 0 && pkt.desc.filled == HNAT_INFO_FILLED &&
    pkt.desc.magicTagProtect == HNAT_MAGIC_TAG && pkt.headroom &&
    (pkt.port == 8 || pkt.port == 9 || pkt.port == 13) && pkt.macHeaderSet &&
    pkt.desc.crsn == HIT_UNBIND_RATE_REACH

def hnatAddVlanLayer (vlanTci : BitVec 16) (entry : FoeEntry) : Option FoeEntry :=
  let member := if entry.isIpv4Grp || entry.isType L2_BRIDGE then ipv4Hnapt else ipv65tRoute
  let layer := Bfib1.vlanLayer.get entry
  if layer ≥ 2 then none
  else
    let entry : FoeEntry :=
      if layer = 0 then member.vlan1.set vlanTci entry else member.vlan2.set vlanTci entry
    some (Bfib1.vlanLayer.set (layer + 1) entry)

def clearMcast (s : HnatSettings) (entry : FoeEntry) : FoeEntry :=
  let member :=
    if entry.isType L2_BRIDGE then l2Bridge else if entry.isIpv4Grp then ipv4Hnapt else ipv65tRoute
  if s.mcast then entry else member.mcast.set 0 entry

def fillSmac (pkt : WifiPacket) (entry : FoeEntry) : FoeEntry :=
  let fill (member : Member) : FoeEntry :=
    member.smacLo.set (swab16 (macLo pkt.ethSource)) (member.smacHi.set (swab32 (macHi pkt.ethSource)) entry)
  if entry.isType L2_BRIDGE || entry.isIpv4Grp then
    if pkt.desc.tops ≠ 0 ∧ pkt.desc.isEncap = true then entry else fill ipv4Hnapt
  else if entry.isFilledGrp then fill ipv65tRoute
  else entry

def fillTags (pkt : WifiPacket) (entry : FoeEntry) : Option FoeEntry :=
  let entry : FoeEntry := Bfib1.vlanLayer.set 0 entry
  let outer :=
    match pkt.tag with
    | none => some entry
    | some (is8021q, tci) => if is8021q then hnatAddVlanLayer tci entry else none
  match outer.bind fun entry => pkt.innerTags.foldlM (fun entry tci => hnatAddVlanLayer tci entry) entry with
  | none => none
  | some entry =>
    if Bfib1.vlanLayer.get entry = 0 then some entry
    else if entry.isIpv4Grp || entry.isType L2_BRIDGE then some (ipv4Hnapt.spTag.set ETH_P_8021Q entry)
    else if entry.isIpv6Grp then some (ipv65tRoute.spTag.set ETH_P_8021Q entry)
    else none

def wifiMember (entry : FoeEntry) : Member :=
  if entry.isIpv4Grp then ipv4Hnapt
  else if entry.isType IPV6_HNAPT || entry.isType IPV6_HNAT then ipv6Hnapt
  else if entry.isType L2_BRIDGE then l2Bridge
  else if entry.isType IPV4_MAP_E || entry.isType IPV4_MAP_T then ipv4Mape
  else ipv65tRoute

def fillWinfo (s : HnatSettings) (desc : HnatDesc) (port : BitVec 4) (member : Member)
    (entry : FoeEntry) : FoeEntry :=
  let entry := member.winfoi.set 1 (member.rxid.set desc.rxid (member.dp.set port entry))
  let entry := member.wcid.set desc.wcid (member.bssid.set desc.bssid entry)
  let entry := member.isFixedrate.set desc.isFixedrate (member.tid.set desc.tid
    (member.usrInfo.set desc.usrInfo entry))
  let entry := member.amsdu.set desc.amsdu (member.hf.set desc.hf (member.isSp.set desc.isSp
    (member.isPrior.set desc.isPrior entry)))
  member.fqos.set (flag (s.hqosDlMode = true)) entry

/-- The entry `mtk_sw_nat_hook_tx` makes of the prepared one; nothing for a packet it lets
pass. -/
def wifiFill (s : HnatSettings) (pkt : WifiPacket) (entry : FoeEntry) : Option FoeEntry :=
  if !s.mcast && isMulticastEtherAddr pkt.ethDest then none
  else
    (fillTags pkt (fillSmac pkt (clearMcast s entry))).map fun entry =>
      let member := wifiMember entry
      let entry := fillWinfo s pkt.desc pkt.port member entry
      let entry : FoeEntry :=
        if entry.isType L2_BRIDGE then entry
        else member.tportId.set (if s.hqosDlMode then NR_QDMA_TPORT else 0) entry
      hnatFillOffloadEngineEntry s pkt.desc entry

end MetaFilogic.Hnat
