import MetaFilogic.Hnat.Api

/-!
# The headers of a packet

`skb_to_hnat_info` takes the addresses of an entry from the packet that goes out and from
the entry the PPE has learnt.  A switch over the headers and the type of the entry selects
which of the two each field comes from.
-/

namespace MetaFilogic.Hnat

open Fields

/-! ## Packets and devices -/

/-- `struct net_device`, known by its address. -/
structure NetIf where
  ptr : Nat
  ifindex : BitVec 32
  deriving DecidableEq

structure HnatDesc where
  entry : BitVec 15
  filled : BitVec 3
  crsn : BitVec 5
  sport : BitVec 4
  alg : BitVec 1
  iface : BitVec 8
  rxid : BitVec 2
  wcid : BitVec 16
  bssid : BitVec 8
  usrInfo : BitVec 16
  tid : BitVec 4
  isFixedrate : BitVec 1
  isPrior : BitVec 1
  isSp : BitVec 1
  hf : BitVec 1
  amsdu : BitVec 1
  tops : BitVec 6
  isDecap : BitVec 1
  cdrt : BitVec 8
  isDecrypt : BitVec 1
  magicTagProtect : BitVec 16

def FOE_MAGIC_GE_LAN : BitVec 8 := 0x1
def FOE_MAGIC_GE_WAN : BitVec 8 := 0x2
def FOE_MAGIC_EXT : BitVec 8 := 0x3
def FOE_MAGIC_GE_VIRTUAL : BitVec 8 := 0x4
def FOE_MAGIC_GE_PPD : BitVec 8 := 0x5
def FOE_MAGIC_GE_LAN2 : BitVec 8 := 0x6
def FOE_MAGIC_WED0 : BitVec 8 := 0x78
def FOE_MAGIC_WED1 : BitVec 8 := 0x79
def FOE_MAGIC_WED2 : BitVec 8 := 0x7a

def NR_PDMA_PORT : BitVec 4 := 0
def NR_GMAC2_PORT : BitVec 4 := 2
def NR_QDMA_PORT : BitVec 4 := 5
def NR_TDMA_PORT : BitVec 4 := 10
def NR_GMAC3_PORT : BitVec 4 := 15

def NR_EIP197_QDMA_TPORT : BitVec 4 := 3
def NR_TDMA_QDMA_TPORT : BitVec 4 := 5
def NR_TDMA_EIP197_QDMA_TPORT : BitVec 4 := 9

namespace HnatDesc

variable (desc : HnatDesc)

def ppe (ppeNum : Nat) : Nat :=
  if desc.sport = NR_GMAC3_PORT ∧ ppeNum ≥ 3 then 2
  else if desc.sport = NR_GMAC2_PORT ∧ ppeNum ≥ 2 then 1
  else 0

def isEncap : Bool := desc.isDecap == 0
def isEncrypt : Bool := desc.isDecrypt == 0

def fromWed : Bool :=
  desc.iface == FOE_MAGIC_WED0 || desc.iface == FOE_MAGIC_WED1 || desc.iface == FOE_MAGIC_WED2

/-- The sources `skb_to_hnat_info` binds an external device for. -/
def fromEth : Bool :=
  desc.iface == FOE_MAGIC_GE_PPD || desc.iface == FOE_MAGIC_GE_LAN ||
    desc.iface == FOE_MAGIC_GE_LAN2 || desc.iface == FOE_MAGIC_GE_WAN ||
    desc.iface == FOE_MAGIC_GE_VIRTUAL || desc.fromWed

end HnatDesc

/-- The settings the preparation depends on: parts of `struct mtk_hnat_data` and the
toggles. -/
structure HnatSettings where
  mcast : Bool
  whnat : Bool
  gmac1Mode : Bool
  qosToggle : Bool
  /-- `IS_HQOS_MODE`. -/
  hqosMode : Bool
  /-- `IS_HQOS_DL_MODE`. -/
  hqosDlMode : Bool
  perFlowAccounting : Bool
  mapeToggle : Bool
  tnlToggle : Bool
  l4sToggle : Bool
  mcastMultiMode : Bool

/-- What `flow_offload_hw_path` says of the way to the next hop; `bridging` is
`hnat_is_hw_path_bridging`. -/
structure HwPath where
  ethDest : Mac
  ethSrc : Mac
  pppoeSid : BitVec 16
  vlanId : BitVec 16
  pppoe : Bool
  vlan : Bool
  tnl : Bool
  bridging : Bool

def isMulticastEtherAddr (addr : Mac) : Bool := addr.getLsbD 40

/-- The device a packet leaves by, with what the macros on its name say of it.  `gmac` is
`HNAT_GMAC_FP` of its MAC, and `stag` what `hnat_dsa_fill_stag` does to an entry for it. -/
structure OutDev where
  netif : NetIf
  lanGrp : Bool
  wan : Bool
  dsaWan : Bool
  ext : Bool
  whnat : Bool
  gmac : Option (BitVec 4)
  stag : FoeEntry → Option FoeEntry
  /-- The tag goes into the VLAN fields. -/
  stag_word : ∀ {entry tagged : FoeEntry} {word : Fin 32}, stag entry = some tagged →
    word ∉ ([0, 11, 13, 15, 17] : List (Fin 32)) → tagged word = entry word
  stag_head : ∀ {entry tagged : FoeEntry}, stag entry = some tagged →
    Bfib1.pktType.get tagged = Bfib1.pktType.get entry ∧
      Bfib1.udp.get tagged = Bfib1.udp.get entry

/-- The queue the QoS settings give a packet and the one its mark gives it, and `HQOS_FLAG`
for each. -/
structure QosChoice where
  qid : BitVec 7
  hqosFlag : Bool
  markQid : BitVec 7
  markFlag : Bool

/-! ## Packets -/

abbrev ETH_P_IP : BitVec 16 := 0x0800
abbrev ETH_P_IPV6 : BitVec 16 := 0x86dd
abbrev ETH_P_PPP_SES : BitVec 16 := 0x8864
abbrev PPP_IP : BitVec 16 := 0x0021
abbrev PPP_IPV6 : BitVec 16 := 0x0057
abbrev IPPROTO_TCP : BitVec 8 := 6
abbrev IPPROTO_UDP : BitVec 8 := 17
abbrev IPPROTO_IPV6 : BitVec 8 := 41
abbrev NEXTHDR_IPIP : BitVec 8 := 4

def htons (x : BitVec 16) : BitVec 16 := swab16 x

structure TcpUdpHdr where
  src : BitVec 16
  dst : BitVec 16

/-- `struct iphdr` in host byte order, with what `skb_header_pointer` finds behind it. -/
structure IpHdr where
  tos : BitVec 8
  totLen : BitVec 16
  id : BitVec 16
  fragOff : BitVec 16
  ttl : BitVec 8
  protocol : BitVec 8
  check : BitVec 16
  saddr : BitVec 32
  daddr : BitVec 32
  ports : Option TcpUdpHdr

def IpHdr.isFragment (iph : IpHdr) : Bool := iph.fragOff &&& 0x3fff != 0

/-- `struct ipv6hdr` in host byte order, with what `skb_header_pointer` finds behind it. -/
structure Ipv6Hdr where
  priority : BitVec 4
  flowLbl0 : BitVec 8
  flowLbl1 : BitVec 8
  flowLbl2 : BitVec 8
  nexthdr : BitVec 8
  hopLimit : BitVec 8
  saddr : Fin 4 → BitVec 32
  daddr : Fin 4 → BitVec 32
  ports : Option TcpUdpHdr

/-- What `skb_to_hnat_info` reads from a packet apart from its descriptor.  `iph` and `ip6h`
are what the network header is taken for, and `innerIph` and `innerIp6h` the inner one. -/
structure Packet where
  /-- The protocol in the Ethernet header. -/
  ethProto : BitVec 16
  /-- `skb->protocol`. -/
  protocol : BitVec 16
  version : BitVec 4
  pppoeSid : BitVec 16
  /-- The protocol in the PPP header, when there is one. -/
  pppProto : Option (BitVec 16)
  iph : IpHdr
  ip6h : Ipv6Hdr
  innerIph : IpHdr
  innerIp6h : Ipv6Hdr
  vlanTagged : Bool
  vlanTci : BitVec 16

/-- `-EPROTO` as a `u16`. -/
def EPROTO_U16 : BitVec 16 := 0xffb9

/-- `hnat_get_hdr_protocol(skb, h_offset)`, kept in a `u16`. -/
def hnatGetHdrProtocol (pkt : Packet) : BitVec 16 :=
  if pkt.protocol = ETH_P_PPP_SES then
    match pkt.pppProto with
    | none => EPROTO_U16
    | some proto =>
      if proto = PPP_IP then ETH_P_IP
      else if proto = PPP_IPV6 then ETH_P_IPV6
      else EPROTO_U16
  else pkt.protocol

/-- `h_proto` of `skb_to_hnat_info`, when it takes the packet. -/
def hdrProto (pkt : Packet) : Option (BitVec 16) :=
  if pkt.ethProto = ETH_P_PPP_SES then some (hnatGetHdrProtocol pkt)
  else if pkt.version = 4 then some ETH_P_IP
  else if pkt.version = 6 then some ETH_P_IPV6
  else none

def pppoePath (pkt : Packet) (path : HwPath) : HwPath :=
  if pkt.ethProto = ETH_P_PPP_SES then { path with pppoe := true, pppoeSid := pkt.pppoeSid }
  else path

/-! ## Groups of fields -/

def set4 (fields : Fin 4 → FoeField 32) (values : Fin 4 → BitVec 32) (entry : FoeEntry) : FoeEntry :=
  (fields 3).set (values 3) ((fields 2).set (values 2)
    ((fields 1).set (values 1) ((fields 0).set (values 0) entry)))

def copy4 (fields : Fin 4 → FoeField 32) (foe entry : FoeEntry) : FoeEntry :=
  set4 fields (fun i => (fields i).get foe) entry

def copyIpv4Key (foe entry : FoeEntry) : FoeEntry :=
  Ipv4.dport.copy foe (Ipv4.sport.copy foe (Ipv4.dip.copy foe (Ipv4.sip.copy foe entry)))

def fillMibf (s : HnatSettings) (member : Member) (entry : FoeEntry) : FoeEntry :=
  if s.perFlowAccounting then member.mibf.set 1 entry else entry

/-- `eg_keep_ecn` and `eg_keep_cls` of a member. -/
def fillKeep (member : Member) (entry : FoeEntry) : FoeEntry :=
  member.egKeepCls.set 1 (member.egKeepEcn.set 1 entry)

def fillVlan (pkt : Packet) (path : HwPath) (member : Member) (entry : FoeEntry) : FoeEntry :=
  let entry := member.vlan1.set path.vlanId entry
  if pkt.vlanTagged then
    let entry := Bfib1.vlanLayer.set (Bfib1.vlanLayer.get entry + 1) entry
    if member.vlan1.get entry ≠ 0 then member.vlan2.set pkt.vlanTci entry
    else member.vlan1.set pkt.vlanTci entry
  else entry

def ppeGetChkbase (iph : IpHdr) : BitVec 16 :=
  let fold (tmp : BitVec 32) : BitVec 32 := (tmp >>> 16 &&& 0x7) + (tmp &&& 0xffff)
  let tmp := (~~~iph.check).setWidth 32 + (~~~iph.totLen).setWidth 32 + (~~~iph.id).setWidth 32
  (fold (fold tmp)).setWidth 16

def ppeFillFlowLbl (ip6h : Ipv6Hdr) (entry : FoeEntry) : FoeEntry :=
  Ipv4.flowLbl2.set ip6h.flowLbl0 (Ipv4.flowLbl1.set ip6h.flowLbl1
    (Ipv4.flowLbl0.set ip6h.flowLbl2 entry))

/-! ## The branches of the switch -/

section Branches

variable (s : HnatSettings) (pkt : Packet) (path : HwPath) (foe entry : FoeEntry)

/-- A packet that has come out of a DS-Lite or MAP-E tunnel. -/
def fillTunnelW2l : Option FoeEntry :=
  let rest (entry : FoeEntry) : FoeEntry :=
    fillKeep ipv4Dslite (fillMibf s ipv4Dslite (ipv4Dslite.vlan1.set path.vlanId
      (ipv4Dslite.dscp.set pkt.iph.tos (Bfib1.rmt.set 1
        (copy4 Ipv4.tunnelDipv6 foe (copy4 Ipv4.tunnelSipv6 foe entry))))))
  let entry := copyIpv4Key foe entry
  if entry.isType IPV4_MAP_E then
    pkt.iph.ports.map fun ports =>
      rest (Mape.newDport.set ports.dst (Mape.newSport.set ports.src
        (Mape.newDip.set pkt.iph.daddr (Mape.newSip.set pkt.iph.saddr entry))))
  else some (rest entry)

def fillIpv4Nat : Option FoeEntry :=
  let entry := fillVlan pkt path ipv4Hnapt
    (fillMibf s ipv4Hnapt (ipv4Hnapt.dscp.set pkt.iph.tos entry))
  let entry : FoeEntry := Ipv4.newDip.set pkt.iph.daddr (Ipv4.newSip.set pkt.iph.saddr
    (copyIpv4Key foe entry))
  if entry.isType IPV4_HNAPT then
    pkt.iph.ports.map fun ports =>
      fillKeep ipv4Hnapt (Ipv4.newDport.set ports.dst (Ipv4.newSport.set ports.src entry))
  else some (fillKeep ipv4Hnapt entry)

def fillIpv4 (udp : BitVec 1) : Option FoeEntry :=
  let entry : FoeEntry := ipv4Hnapt.spTag.set (htons ETH_P_IP) entry
  let filled :=
    if entry.isType IPV4_DSLITE || entry.isType IPV4_MAP_E then fillTunnelW2l s pkt path foe entry
    else if entry.isIpv4Grp then fillIpv4Nat s pkt path foe entry
    else none
  filled.map (Bfib1.udp.set udp)

def fill6rdL2w : FoeEntry :=
  let iph := pkt.iph
  let entry := Ipv6.dport.copy foe (Ipv6.sport.copy foe (copy4 Ipv6.dip foe (copy4 Ipv6.sip foe entry)))
  let entry := Sixrd.flag.set (iph.fragOff.extractLsb' 13 3) (Sixrd.hdrChksum.set (ppeGetChkbase iph)
    (Ipv6.tunnelDipv4.set iph.daddr (Ipv6.tunnelSipv4.set iph.saddr entry)))
  let entry := fillMibf s ipv65tRoute (ipv65tRoute.vlan1.set path.vlanId
    (Sixrd.perFlow6rdId.set 1 (Sixrd.dscp.set iph.tos (Sixrd.ttl.set iph.ttl entry))))
  let entry := if pkt.innerIp6h.nexthdr = IPPROTO_UDP then Bfib1.udp.set 1 entry else entry
  fillKeep ipv65tRoute entry

/-- `ip6h->priority << 4 | (ip6h->flow_lbl[0] >> 4)`. -/
def Ipv6Hdr.dscp (ip6h : Ipv6Hdr) : BitVec 8 := ip6h.priority ++ ip6h.flowLbl0.extractLsb' 4 4

def fillIpv6Nat (toWan : Bool) : Option FoeEntry :=
  let entry := Bfib1.pktType.set IPV6_HNAPT entry
  let entry :=
    if toWan then set4 Ipv6.newIpv6Ip pkt.ip6h.saddr (Ipv6.egIpv6Dir.set IPV6_SNAT entry)
    else set4 Ipv6.newIpv6Ip pkt.ip6h.daddr (Ipv6.egIpv6Dir.set IPV6_DNAT entry)
  pkt.ip6h.ports.map fun ports =>
    Ipv6.newDport.set ports.dst (Ipv6.newSport.set ports.src entry)

def sameIpv6 (ip6h : Ipv6Hdr) (entry : FoeEntry) : Bool :=
  decide (∀ i, (Ipv6.sip i).get entry = ip6h.saddr i) &&
    decide (∀ i, (Ipv6.dip i).get entry = ip6h.daddr i)

def fillIpv6Common (udp : BitVec 1) : FoeEntry :=
  let entry := fillVlan pkt path ipv65tRoute (ipv65tRoute.spTag.set (htons ETH_P_IPV6) entry)
  let entry : FoeEntry := Bfib1.udp.set udp (fillMibf s ipv65tRoute entry)
  let entry :=
    if entry.isType IPV6_6RD then
      Ipv6.tunnelDipv4.copy foe (Ipv6.tunnelSipv4.copy foe (Bfib1.rmt.set 1 entry))
    else entry
  fillKeep ipv65tRoute (copy4 Ipv6.dip foe (copy4 Ipv6.sip foe entry))

def fillIpv6 (toWan : Bool) (udp : BitVec 1) : Option FoeEntry :=
  let entry := fillIpv6Common s pkt path foe entry udp
  let filled :=
    if entry.isType IPV6_3T_ROUTE then some (Ipv6.hph.copy foe (Ipv6.prot.copy foe entry))
    else if entry.isType IPV6_5T_ROUTE || entry.isType IPV6_6RD then
      let entry : FoeEntry := Ipv6.dport.copy foe (Ipv6.sport.copy foe entry)
      if entry.isType IPV6_5T_ROUTE && !sameIpv6 pkt.ip6h entry then fillIpv6Nat pkt entry toWan
      else some entry
    else none
  filled.map (ipv65tRoute.dscp.set pkt.ip6h.dscp)

/-- A packet that DS-Lite or MAP-E has put into IPv6, for an entry with a tunnel. -/
def fillTunnelL2w : FoeEntry :=
  let entry := copyIpv4Key foe (Bfib1.udp.copy foe entry)
  let entry := set4 Ipv4.tunnelDipv6 pkt.ip6h.daddr (set4 Ipv4.tunnelSipv6 pkt.ip6h.saddr entry)
  let entry := Ipv4.hopLimit.set pkt.ip6h.hopLimit (Ipv4.priority.set (pkt.ip6h.priority.setWidth 8)
    (ppeFillFlowLbl pkt.ip6h entry))
  let entry := fillKeep ipv4Dslite (fillMibf s ipv4Dslite (ipv4Dslite.vlan1.set path.vlanId entry))
  if s.mapeToggle then
    Mape.newDport.copy foe (Mape.newSport.copy foe (Mape.newDip.copy foe (Mape.newSip.copy foe
      (ipv4Dslite.dscp.copy foe entry))))
  else entry

/-- A packet that MAP-E has put into IPv6, for an entry without a tunnel. -/
def fillMapeL2w (qos : QosChoice) : FoeEntry :=
  let entry := fillMibf s ipv4Hnapt (ipv4Hnapt.dscp.copy foe entry)
  let entry := ipv4Hnapt.vlan1.set (if s.gmac1Mode then 1 else path.vlanId) entry
  let entry := Ipv4.newDip.copy foe (Ipv4.newSip.copy foe (copyIpv4Key foe entry))
  let entry := ipv4Hnapt.spTag.set (htons ETH_P_IP) entry
  let entry :=
    if s.hqosMode then
      ipv4Hnapt.fqos.set (flag (qos.markFlag = true))
        (ipv4Hnapt.tportId.set (if qos.markFlag then 1 else 0) (ipv4Hnapt.qid.set qos.markQid entry))
    else entry
  fillKeep ipv4Hnapt (Ipv4.newDport.copy foe (Ipv4.newSport.copy foe (Bfib1.udp.copy foe entry)))

def fillBridge (hProto : BitVec 16) : FoeEntry :=
  let entry := L2Bridge.smacLo.copy foe (L2Bridge.smacHi.copy foe (L2Bridge.dmacLo.copy foe
    (L2Bridge.dmacHi.copy foe entry)))
  let entry := L2Bridge.vlan2.copy foe (L2Bridge.vlan1.copy foe (L2Bridge.hph.copy foe
    (L2Bridge.etype.copy foe entry)))
  fillVlan pkt path l2Bridge (fillMibf s l2Bridge (l2Bridge.spTag.set (htons hProto) entry))

/-- The switch over the headers, from an entry that has only its type yet; nothing for a
packet it does not take.  The second component is `mape`.  An IPv4 packet inside IPv6 is
taken even when its entry is not for a tunnel. -/
def hnatSwitch (qos : QosChoice) (toWan : Bool) (hProto : BitVec 16) : Option (FoeEntry × Bool) :=
  let plain (filled : Option FoeEntry) := filled.map fun entry => (entry, false)
  if hProto = ETH_P_IP then
    if pkt.iph.isFragment then none
    else if pkt.iph.protocol = IPPROTO_UDP then plain (fillIpv4 s pkt path foe entry 1)
    else if pkt.iph.protocol = IPPROTO_TCP then plain (fillIpv4 s pkt path foe entry 0)
    else if pkt.iph.protocol = IPPROTO_IPV6 then
      if entry.isType IPV6_6RD then some (fill6rdL2w s pkt path foe entry, false) else none
    else none
  else if hProto = ETH_P_IPV6 then
    if pkt.ip6h.nexthdr = IPPROTO_UDP then plain (fillIpv6 s pkt path foe entry toWan 1)
    else if pkt.ip6h.nexthdr = IPPROTO_TCP then plain (fillIpv6 s pkt path foe entry toWan 0)
    else if pkt.ip6h.nexthdr = NEXTHDR_IPIP then
      if pkt.innerIph.isFragment then none
      else if (!s.mapeToggle && entry.isType IPV4_DSLITE) ||
          (s.mapeToggle && entry.isType IPV4_MAP_E) then
        some (fillTunnelL2w s pkt path foe entry, false)
      else if s.mapeToggle && entry.isType IPV4_HNAPT then
        some (fillMapeL2w s path foe entry qos, true)
      else some (entry, false)
    else none
  else if entry.isType L2_BRIDGE then some (fillBridge s pkt path foe entry hProto, false)
  else none

end Branches

/-! ## What the switch leaves alone -/

section Untouched

variable {s : HnatSettings} {pkt : Packet} {path : HwPath} {foe entry parsed : FoeEntry}
  {width : Nat} {field : FoeField width} {member : Member}

theorem set4_get {fields : Fin 4 → FoeField 32} (values : Fin 4 → BitVec 32)
    (off : ∀ i, field.Disjoint (fields i)) (entry : FoeEntry) :
    field.get (set4 fields values entry) = field.get entry := by
  simp only [set4, Field.get_set_disjoint (off _)]

theorem copyIpv4Key_get (off : field.word ∉ [1, 2, 3]) (foe entry : FoeEntry) :
    field.get (copyIpv4Key foe entry) = field.get entry := by
  have apart {width : Nat} {field' : FoeField width} (key : field'.word ∈ [1, 2, 3]) :
      field.Disjoint field' := .inl fun same => off (same ▸ key)
  simp (disch := exact apart (by decide)) only [copyIpv4Key, Field.get_copy_disjoint]

theorem fillVlan_get (off : field.Disjoint member.vlan1 ∧ field.Disjoint member.vlan2 ∧
    field.Disjoint Bfib1.vlanLayer) (entry : FoeEntry) :
    field.get (fillVlan pkt path member entry) = field.get entry := by
  obtain ⟨one, two, layer⟩ := off
  simp only [fillVlan]
  split_ifs <;> simp only [Field.get_set_disjoint one, Field.get_set_disjoint two,
    Field.get_set_disjoint layer]

theorem fillMibf_get (off : field.Disjoint member.mibf) (entry : FoeEntry) :
    field.get (fillMibf s member entry) = field.get entry := by
  rw [fillMibf]
  split
  · exact Field.get_set_disjoint off
  · rfl

theorem fillKeep_get (off : field.Disjoint member.egKeepEcn ∧ field.Disjoint member.egKeepCls)
    (entry : FoeEntry) : field.get (fillKeep member entry) = field.get entry := by
  rw [fillKeep, Field.get_set_disjoint off.2, Field.get_set_disjoint off.1]

theorem fillTunnelW2l_type (filled : fillTunnelW2l s pkt path foe entry = some parsed) :
    Bfib1.pktType.get parsed = Bfib1.pktType.get entry := by
  simp only [fillTunnelW2l] at filled
  split at filled
  · obtain ⟨ports, _, rfl⟩ := Option.map_eq_some_iff.mp filled
    simp (disch := decide) only [fillKeep_get, fillMibf_get, Field.get_set_disjoint, copy4,
      set4_get, copyIpv4Key_get]
  · obtain rfl := Option.some_inj.mp filled
    simp (disch := decide) only [fillKeep_get, fillMibf_get, Field.get_set_disjoint, copy4,
      set4_get, copyIpv4Key_get]

theorem fillIpv4Nat_type (filled : fillIpv4Nat s pkt path foe entry = some parsed) :
    Bfib1.pktType.get parsed = Bfib1.pktType.get entry := by
  simp only [fillIpv4Nat] at filled
  split at filled
  · obtain ⟨ports, _, rfl⟩ := Option.map_eq_some_iff.mp filled
    simp (disch := decide) only [fillKeep_get, fillMibf_get, fillVlan_get, Field.get_set_disjoint,
      copyIpv4Key_get]
  · obtain rfl := Option.some_inj.mp filled
    simp (disch := decide) only [fillKeep_get, fillMibf_get, fillVlan_get, Field.get_set_disjoint,
      copyIpv4Key_get]

variable {udp : BitVec 1} {toWan : Bool}

theorem fillIpv4_type (filled : fillIpv4 s pkt path foe entry udp = some parsed) :
    Bfib1.pktType.get parsed = Bfib1.pktType.get entry := by
  obtain ⟨inner, made, rfl⟩ := Option.map_eq_some_iff.mp filled
  rw [Field.get_set_disjoint (by decide)]
  have tagged : Bfib1.pktType.get (ipv4Hnapt.spTag.set (htons ETH_P_IP) entry) =
      Bfib1.pktType.get entry := Field.get_set_disjoint (by decide)
  split_ifs at made
  · rw [fillTunnelW2l_type made, tagged]
  · rw [fillIpv4Nat_type made, tagged]

theorem fill6rdL2w_type :
    Bfib1.pktType.get (fill6rdL2w s pkt path foe entry) = Bfib1.pktType.get entry := by
  simp only [fill6rdL2w]
  split <;> simp (disch := decide) only [fillKeep_get, fillMibf_get, Field.get_set_disjoint,
    Field.get_copy_disjoint, copy4, set4_get]

theorem fillIpv6Nat_type (filled : fillIpv6Nat pkt entry toWan = some parsed) :
    Bfib1.pktType.get parsed = IPV6_HNAPT := by
  rw [fillIpv6Nat] at filled
  obtain ⟨ports, _, rfl⟩ := Option.map_eq_some_iff.mp filled
  split <;> simp (disch := decide) only [Field.get_set_disjoint, set4_get, Field.get_set]

theorem fillTunnelL2w_type :
    Bfib1.pktType.get (fillTunnelL2w s pkt path foe entry) = Bfib1.pktType.get entry := by
  simp only [fillTunnelL2w]
  split <;> simp (disch := decide) only [fillKeep_get, fillMibf_get, Field.get_set_disjoint,
    Field.get_copy_disjoint, set4_get, ppeFillFlowLbl, copyIpv4Key_get]

theorem fillMapeL2w_type {qos : QosChoice} :
    Bfib1.pktType.get (fillMapeL2w s path foe entry qos) = Bfib1.pktType.get entry := by
  simp only [fillMapeL2w]
  split_ifs <;> simp (disch := decide) only [fillKeep_get, fillMibf_get, Field.get_set_disjoint,
    Field.get_copy_disjoint, copyIpv4Key_get]

theorem fillBridge_type {hProto : BitVec 16} :
    Bfib1.pktType.get (fillBridge s pkt path foe entry hProto) = Bfib1.pktType.get entry := by
  simp (disch := decide) only [fillBridge, fillVlan_get, fillMibf_get, Field.get_set_disjoint,
    Field.get_copy_disjoint]

theorem fillIpv6Common_type :
    Bfib1.pktType.get (fillIpv6Common s pkt path foe entry udp) = Bfib1.pktType.get entry := by
  simp only [fillIpv6Common]
  split_ifs <;> simp (disch := decide) only [fillKeep_get, fillMibf_get, fillVlan_get,
    Field.get_set_disjoint, Field.get_copy_disjoint, copy4, set4_get]

theorem fillIpv6_type (filled : fillIpv6 s pkt path foe entry toWan udp = some parsed) :
    Bfib1.pktType.get parsed = Bfib1.pktType.get entry ∨
      (Bfib1.pktType.get entry = IPV6_5T_ROUTE ∧ Bfib1.pktType.get parsed = IPV6_HNAPT) := by
  obtain ⟨inner, made, rfl⟩ := Option.map_eq_some_iff.mp filled
  have common : Bfib1.pktType.get (fillIpv6Common s pkt path foe entry udp) =
      Bfib1.pktType.get entry := fillIpv6Common_type
  rw [Field.get_set_disjoint (by decide), ← common]
  dsimp only at made
  split_ifs at made with threeTuple fiveTuple translated
  · obtain rfl := Option.some_inj.mp made
    simp (disch := decide) only [Field.get_copy_disjoint, true_or]
  · rw [Bool.and_eq_true, FoeEntry.isType] at translated
    simp (disch := decide) only [Field.get_copy_disjoint, beq_iff_eq] at translated
    exact .inr ⟨translated.1, fillIpv6Nat_type made⟩
  · obtain rfl := Option.some_inj.mp made
    simp (disch := decide) only [Field.get_copy_disjoint, true_or]

/-- The switch changes the type in one place, for an IPv6 packet whose addresses have been
translated. -/
theorem hnatSwitch_type {qos : QosChoice} {hProto : BitVec 16} {mape : Bool}
    (filled : hnatSwitch s pkt path foe entry qos toWan hProto = some (parsed, mape)) :
    Bfib1.pktType.get parsed = Bfib1.pktType.get entry ∨
      (Bfib1.pktType.get entry = IPV6_5T_ROUTE ∧ Bfib1.pktType.get parsed = IPV6_HNAPT) := by
  have plain {filled : Option FoeEntry}
      (is : filled.map (fun entry => (entry, false)) = some (parsed, mape)) :
      filled = some parsed := by
    obtain ⟨_, found, same⟩ := Option.map_eq_some_iff.mp is
    rw [found, (Prod.mk.inj same).1]
  have only {entry' : FoeEntry} {mape' : Bool} (is : some (entry', mape') = some (parsed, mape)) :
      entry' = parsed := (Prod.mk.inj (Option.some_inj.mp is)).1
  simp only [hnatSwitch] at filled
  split_ifs at filled
  · exact .inl (fillIpv4_type (plain filled))
  · exact .inl (fillIpv4_type (plain filled))
  · exact .inl (only filled ▸ fill6rdL2w_type)
  · exact fillIpv6_type (plain filled)
  · exact fillIpv6_type (plain filled)
  · exact .inl (only filled ▸ fillTunnelL2w_type)
  · exact .inl (only filled ▸ fillMapeL2w_type)
  · exact .inl (congrArg _ (only filled).symm)
  · exact .inl (only filled ▸ fillBridge_type)

end Untouched

end MetaFilogic.Hnat
