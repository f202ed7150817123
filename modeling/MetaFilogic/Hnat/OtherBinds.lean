import MetaFilogic.Hnat.WifiTx

/-!
# The other ways to bind an entry

`hnat_bind_crypto_entry` binds a flow that goes through the crypto engine,
`mtk_464xlat_post_process` one between IPv4 and IPv6, and `hnat_static_entry_write` one the
user has written down.  Each makes an entry of its own and writes it to the table.
-/

namespace MetaFilogic.Hnat

open Fields

/-! ## `hnat_bind_crypto_entry` -/

section Crypto

variable (s : HnatSettings) (pkt : Packet) (path : HwPath) (foe entry : FoeEntry)

def fillInnerIpv4 (udp : BitVec 1) : Option FoeEntry :=
  let entry : FoeEntry := ipv4Hnapt.spTag.set (htons ETH_P_IP) entry
  if entry.isIpv4Grp then (fillIpv4Nat s pkt path foe entry).map (Bfib1.udp.set udp) else none

def fillInnerIpv6 (udp : BitVec 1) : Option FoeEntry :=
  let entry := fillVlan pkt path ipv65tRoute (ipv65tRoute.spTag.set (htons ETH_P_IPV6) entry)
  let entry : FoeEntry := Bfib1.udp.set udp (fillMibf s ipv65tRoute entry)
  let entry := fillKeep ipv65tRoute (copy4 Ipv6.dip foe (copy4 Ipv6.sip foe entry))
  let filled : Option FoeEntry :=
    if entry.isType IPV6_3T_ROUTE then some (Ipv6.hph.copy foe (Ipv6.prot.copy foe entry))
    else if entry.isType IPV6_5T_ROUTE then
      some (Ipv6.dport.copy foe (Ipv6.sport.copy foe entry))
    else none
  filled.map (ipv65tRoute.dscp.set pkt.ip6h.dscp)

def fillInner : Option FoeEntry :=
  if pkt.version = 4 then
    if pkt.iph.protocol = IPPROTO_UDP then fillInnerIpv4 s pkt path foe entry 1
    else if pkt.iph.protocol = IPPROTO_TCP then fillInnerIpv4 s pkt path foe entry 0
    else none
  else
    if pkt.ip6h.nexthdr = IPPROTO_UDP then fillInnerIpv6 s pkt path foe entry 1
    else if pkt.ip6h.nexthdr = IPPROTO_TCP then fillInnerIpv6 s pkt path foe entry 0
    else none

/-- `hnat_bind_crypto_entry(skb, dev, fill_inner_info)` between its two tests of the entry.
`gmac` is the port of the device, when that is LAN or WAN. -/
def fillCryptoEntry (desc : HnatDesc) (gmac : Option (BitVec 4)) (fillInnerInfo : Bool) :
    Option FoeEntry :=
  if pkt.version ≠ 4 ∧ pkt.version ≠ 6 then none
  else
    let entry := hnatGetFilledUnbindEntry foe
    let filled := if fillInnerInfo then fillInner s pkt path foe entry else some entry
    match filled, gmac with
    | some entry, some gmac =>
      let entry := ppeFillInfoBlk s path entry
      let member := if entry.isIpv4Grp then ipv4Hnapt else ipv65tRoute
      let entry : FoeEntry := Bfib1.state.set BIND (Bfib1.ttl.set 1
        (member.portMg.set 0 (member.dp.set gmac entry)))
      let entry := if desc.tops ≠ 0 then entry else fillMacs member path entry
      some (hnatFillOffloadEngineEntry s desc (member.pppoeId.set path.pppoeSid entry))
    | _, _ => none

end Crypto

/-! ## `mtk_464xlat_post_process` -/

structure Map46 where
  ipv4 : BitVec 32
  ipv6 : Fin 4 → BitVec 32

structure Xlat where
  mapList : List Map46
  pfx : Fin 4 → BitVec 32

def mtkPpeGetXlatV6ByV4 (xlat : Xlat) (ipv4 : BitVec 32) :
    Option ((Fin 4 → BitVec 32) × (Fin 4 → BitVec 32)) :=
  (xlat.mapList.find? fun m => m.ipv4 == ipv4).map fun m => (m.ipv6, xlat.pfx)

def mtkPpeGetXlatV4ByV6 (xlat : Xlat) (ipv6 : Fin 4 → BitVec 32) : Option (BitVec 32) :=
  (xlat.mapList.find? fun m => decide (∀ i, m.ipv6 i = ipv6 i)).map Map46.ipv4

/-- The device a translated packet leaves by: its address, and for a DSA port of the LAN its
number, when the device tree gives one. -/
structure XlatDev where
  devAddr : Mac
  dsaLan : Bool
  portReg : Option Nat

def NR_GMAC1_PORT : BitVec 4 := 1

section Xlat

variable (xlat : Xlat) (pkt : Packet) (l2w : Bool)

def mtk464xlatGetHash (h : MtkHnat) : Option (BitVec 32) :=
  if l2w then
    match mtkPpeGetXlatV4ByV6 xlat pkt.ip6h.daddr, pkt.ip6h.ports with
    | some addr, some ports =>
      some (hnatGetPpeHash h (Ipv4.dport.set ports.dst (Ipv4.sport.set ports.src
        (Ipv4.dip.set addr (Ipv4.sip.set (pkt.ip6h.saddr 3)
          (Bfib1.pktType.set IPV4_HNAPT FoeEntry.zero))))))
    | _, _ => none
  else
    match mtkPpeGetXlatV6ByV4 xlat pkt.iph.saddr, pkt.iph.ports with
    | some (addrV6, pfx), some ports =>
      some (hnatGetPpeHash h (Ipv6.dport.set ports.dst (Ipv6.sport.set ports.src
        (set4 Ipv6.dip (Function.update pfx 3 pkt.iph.daddr) (set4 Ipv6.sip addrV6
          (Bfib1.pktType.set IPV6_5T_ROUTE FoeEntry.zero))))))
    | _, _ => none

def mtk464xlatFillInfo1 (stamp : BitVec 8) (entry : FoeEntry) : FoeEntry :=
  let entry := Bfib1.timeStamp.set stamp (Bfib1.state.set BIND (Bfib1.ttl.set 1
    (Bfib1.cah.set 1 entry)))
  if l2w then
    Bfib1.udp.set (flag (pkt.ip6h.nexthdr = IPPROTO_UDP)) (Bfib1.pktType.set IPV4_DSLITE entry)
  else
    Bfib1.udp.set (flag (pkt.iph.protocol = IPPROTO_UDP)) (Bfib1.pktType.set IPV6_6RD entry)

def mtk464xlatFillInfo2 (entry : FoeEntry) : FoeEntry :=
  let entry := ipv4Dslite.portAg.set 0xf (ipv4Dslite.mibf.set 1 entry)
  if l2w then ipv4Dslite.dp.set NR_GMAC2_PORT entry else ipv65tRoute.dp.set NR_GMAC1_PORT entry

def mtk464xlatFillIpv4 (foe entry : FoeEntry) : FoeEntry :=
  if l2w then copyIpv4Key foe entry
  else
    let iph := pkt.iph
    let entry := Ipv6.dport.copy foe (Ipv6.sport.copy foe (Ipv6.tunnelDipv4.set iph.daddr
      (Ipv6.tunnelSipv4.set iph.saddr entry)))
    Sixrd.flag.set (iph.fragOff.extractLsb' 13 3) (Sixrd.dscp.set iph.tos (Sixrd.ttl.set iph.ttl
      (Sixrd.hdrChksum.set (ppeGetChkbase iph) entry)))

def mtk464xlatFillIpv6 (foe entry : FoeEntry) : Option FoeEntry :=
  if l2w then
    let ip6h := pkt.ip6h
    ((mtkPpeGetXlatV4ByV6 xlat ip6h.daddr).bind (mtkPpeGetXlatV6ByV4 xlat)).map fun (_, pfx) =>
      let entry := set4 Ipv4.tunnelDipv6 ip6h.daddr
        (set4 Ipv4.tunnelSipv6 (Function.update ip6h.saddr 0 (pfx 0)) entry)
      Ipv4.hopLimit.set ip6h.hopLimit (Ipv4.priority.set (ip6h.priority.setWidth 8)
        (ppeFillFlowLbl ip6h entry))
  else some (copy4 Ipv6.dip foe (copy4 Ipv6.sip foe entry))

/-- `mtk_464xlat_fill_l2(entry, skb, dev, l2w)`; `neigh` is the address of the next hop, when
it is known. -/
def mtk464xlatFillL2 (dev : XlatDev) (neigh : Option Mac) (entry : FoeEntry) : Option FoeEntry :=
  let tagged : Option FoeEntry :=
    if l2w then some (ipv4Dslite.spTag.set ETH_P_IP entry)
    else if dev.dsaLan then
      dev.portReg.map fun portIndex =>
        ipv65tRoute.spTag.set (BitVec.ofNat 16 (1 <<< portIndex))
          (Bfib1.vpm.set 0 (Bfib1.vlanLayer.set 1 entry))
    else some (ipv65tRoute.spTag.set ETH_P_IPV6 entry)
  match tagged, neigh with
  | some entry, some ha =>
    some (ipv4Dslite.smacLo.set (swab16 (macLo dev.devAddr)) (ipv4Dslite.smacHi.set
      (swab32 (macHi dev.devAddr)) (ipv4Dslite.dmacLo.set (swab16 (macLo ha))
        (ipv4Dslite.dmacHi.set (swab32 (macHi ha)) entry))))
  | _, _ => none

/-- The entry `mtk_464xlat_post_process` makes. -/
def fillXlatEntry (dev : XlatDev) (neigh : Option Mac) (stamp : BitVec 8) (foe : FoeEntry) :
    Option FoeEntry :=
  (mtk464xlatFillIpv6 xlat pkt l2w foe (mtk464xlatFillIpv4 pkt l2w foe
    (mtk464xlatFillInfo1 pkt l2w stamp FoeEntry.zero))).bind fun entry =>
      mtk464xlatFillL2 l2w dev neigh (mtk464xlatFillInfo2 l2w entry)

/-- `l2w` of `mtk_464xlat_post_process`. -/
def xlatL2w : Option Bool :=
  if pkt.protocol = ETH_P_IPV6 then some true
  else if pkt.protocol = ETH_P_IP then some false
  else none

def headroomPpe (ppeNum : Nat) (headroom : HnatDesc) : Nat :=
  if (headroom.iface = FOE_MAGIC_GE_LAN2 ∨ headroom.iface = FOE_MAGIC_WED2) ∧ ppeNum = 3 then 2
  else 0

end Xlat

/-! ## `hnat_static_entry_write` -/

/-- What the user has written, by the packet type in `infoBlk1`. -/
inductive StaticArgs where
  | ipv4 (infoBlk1 sip dip : BitVec 32) (sport dport : BitVec 16) (infoBlk2 newSip newDip : BitVec 32)
      (newSport newDport : BitVec 16) (dmac smac : Mac) (tportId topsEntry cdrtId : BitVec 32)
  | ipv6 (infoBlk1 : BitVec 32) (sip dip : Fin 4 → BitVec 32) (sport dport : BitVec 16)
      (infoBlk2 : BitVec 32) (dmac smac : Mac) (tportId topsEntry cdrtId : BitVec 32)
  | bridge (infoBlk1 : BitVec 32) (dmac smac : Mac) (etype vlan1 vlan2 : BitVec 16)
      (infoBlk2 : BitVec 32) (newDmac newSmac : Mac) (newVlan1 newVlan2 : BitVec 16)

def staticMacs (member : Member) (dmac smac : Mac) (entry : FoeEntry) : FoeEntry :=
  member.smacLo.set (swab16 (macLo smac)) (member.smacHi.set (swab32 (macHi smac))
    (member.dmacLo.set (swab16 (macLo dmac)) (member.dmacHi.set (swab32 (macHi dmac)) entry)))

/-- `tport_id`, `tops_entry` and `cdrt_id` of a static entry; nothing when one is too wide. -/
def staticTport (member : Member) (tportId topsEntry cdrtId : BitVec 32) (entry : FoeEntry) :
    Option FoeEntry :=
  if tportId &&& 0xf ≠ tportId ∨ topsEntry &&& 0x3f ≠ topsEntry ∨ cdrtId &&& 0xff ≠ cdrtId then none
  else some (member.cdrtId.set (cdrtId.setWidth 8) (member.topsEntry.set (topsEntry.setWidth 6)
    (member.tportId.set (tportId.setWidth 4) entry)))

def staticEntry : StaticArgs → Option FoeEntry
  | .ipv4 infoBlk1 sip dip sport dport infoBlk2 newSip newDip newSport newDport dmac smac tportId
      topsEntry cdrtId =>
    let entry : FoeEntry := (u32 0).set infoBlk1 FoeEntry.zero
    if !entry.isType IPV4_HNAPT then none
    else
      let entry : FoeEntry := Ipv4.dport.set dport (Ipv4.sport.set sport (Ipv4.dip.set dip
        (Ipv4.sip.set sip entry)))
      let entry : FoeEntry := Ipv4.newDport.set newDport (Ipv4.newSport.set newSport
        (Ipv4.newDip.set newDip (Ipv4.newSip.set newSip ((u32 ipv4Hnapt.infoBlk2).set infoBlk2 entry))))
      (staticTport ipv4Hnapt tportId topsEntry cdrtId entry).map (staticMacs ipv4Hnapt dmac smac)
  | .ipv6 infoBlk1 sip dip sport dport infoBlk2 dmac smac tportId topsEntry cdrtId =>
    let entry : FoeEntry := (u32 0).set infoBlk1 FoeEntry.zero
    if !entry.isType IPV6_5T_ROUTE then none
    else
      let entry : FoeEntry := Ipv6.dport.set dport (Ipv6.sport.set sport (set4 Ipv6.dip dip
        (set4 Ipv6.sip sip entry)))
      let entry := (u32 ipv65tRoute.infoBlk2).set infoBlk2 entry
      (staticTport ipv65tRoute tportId topsEntry cdrtId entry).map (staticMacs ipv65tRoute dmac smac)
  | .bridge infoBlk1 dmac smac etype vlan1 vlan2 infoBlk2 newDmac newSmac newVlan1 newVlan2 =>
    let entry : FoeEntry := (u32 0).set infoBlk1 FoeEntry.zero
    if !entry.isType L2_BRIDGE then none
    else
      let entry : FoeEntry := L2Bridge.vlan2.set vlan2 (L2Bridge.vlan1.set vlan1
        (L2Bridge.hph.set 0xa5a5 (L2Bridge.etype.set etype entry)))
      let entry : FoeEntry := L2Bridge.smacLo.set (swab16 (macLo smac)) (L2Bridge.smacHi.set
        (swab32 (macHi smac)) (L2Bridge.dmacLo.set (swab16 (macLo dmac)) (L2Bridge.dmacHi.set
          (swab32 (macHi dmac)) entry)))
      let entry := (u32 l2Bridge.infoBlk2).set infoBlk2 entry
      some (staticMacs l2Bridge newDmac newSmac
        (l2Bridge.vlan2.set newVlan2 (l2Bridge.vlan1.set newVlan1 entry)))

def staticHash (h : MtkHnat) (hash : Int) (entry : FoeEntry) : Option Nat :=
  if hash ≥ h.foeEtryNum ∨ hash < -1 then none
  else if hash = -1 then some (hnatGetPpeHash h entry).toNat
  else some hash.toNat

/-- `ppe_id` of a static entry. -/
def staticPpe (h : MtkHnat) (entry : FoeEntry) : Nat :=
  if h.ppeNum ≥ 3 ∧ Bfib1.sp.get entry = NR_GMAC3_PORT then 2
  else if h.ppeNum ≥ 2 ∧ Bfib1.sp.get entry = NR_GMAC2_PORT then 1
  else 0

end MetaFilogic.Hnat
