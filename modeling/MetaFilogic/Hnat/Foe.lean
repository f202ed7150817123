import MetaFilogic.Hnat.Mcast
import MetaFilogic.Library.Fields
import Mathlib.Data.Fin.Basic
import Mathlib.Tactic.IntervalCases

/-!
# Entries of the flow table

`struct foe_entry` of NETSYS_V3 is a union of one packed structure per packet type, 32
words long.  A member of the union is where its fields are in those words: the
structures agree on the first word, and each puts the second info block, the Ethernet
header and the Wi-Fi words in a place of its own.
-/

namespace MetaFilogic.Hnat

open Fields

abbrev FoeEntry := Words 32 32

abbrev FoeField := Field 32 32

/-- `struct foe_entry entry = { 0 }`. -/
def FoeEntry.zero : FoeEntry := fun _ => 0

def u32 (word : Fin 32) : FoeField 32 := ⟨word, 0, by decide⟩

def u16Lo (word : Fin 32) : FoeField 16 := ⟨word, 0, by decide⟩

def u16Hi (word : Fin 32) : FoeField 16 := ⟨word, 16, by decide⟩

/-! ## The first word -/

/-- `enum FoeEntryState`. -/
abbrev INVALID : BitVec 2 := 0
abbrev UNBIND : BitVec 2 := 1
abbrev BIND : BitVec 2 := 2
abbrev FIN : BitVec 2 := 3

/-- `enum FoeIpAct`. -/
abbrev IPV4_HNAPT : BitVec 5 := 0
abbrev IPV4_HNAT : BitVec 5 := 1
abbrev L2_BRIDGE : BitVec 5 := 2
abbrev IPV4_DSLITE : BitVec 5 := 3
abbrev IPV6_3T_ROUTE : BitVec 5 := 4
abbrev IPV6_5T_ROUTE : BitVec 5 := 5
abbrev IPV6_6RD : BitVec 5 := 7
abbrev IPV4_MAP_T : BitVec 5 := 8
abbrev IPV4_MAP_E : BitVec 5 := 9
abbrev IPV6_HNAPT : BitVec 5 := 10
abbrev IPV6_HNAT : BitVec 5 := 11

/-- The values of `eg_ipv6_dir`. -/
abbrev IPV6_SNAT : BitVec 1 := 0
abbrev IPV6_DNAT : BitVec 1 := 1

/-! `bfib1` and `udib1`, which have the fields from `pkt_type` on in common. -/

scoped instance neZero4 : NeZero 4 := ⟨by decide⟩

scoped instance neZero32 : NeZero 32 := ⟨by decide⟩

namespace Bfib1

def timeStamp : FoeField 8 := ⟨0, 0, by decide⟩
def sp : FoeField 4 := ⟨0, 8, by decide⟩
def mc : FoeField 1 := ⟨0, 12, by decide⟩
def ka : FoeField 1 := ⟨0, 13, by decide⟩
def vlanLayer : FoeField 3 := ⟨0, 14, by decide⟩
def psn : FoeField 1 := ⟨0, 17, by decide⟩
def vpm : FoeField 1 := ⟨0, 18, by decide⟩
def ps : FoeField 1 := ⟨0, 19, by decide⟩
def cah : FoeField 1 := ⟨0, 20, by decide⟩
def rmt : FoeField 1 := ⟨0, 21, by decide⟩
def ttl : FoeField 1 := ⟨0, 22, by decide⟩
def pktType : FoeField 5 := ⟨0, 23, by decide⟩
def state : FoeField 2 := ⟨0, 28, by decide⟩
def udp : FoeField 1 := ⟨0, 30, by decide⟩
def sta : FoeField 1 := ⟨0, 31, by decide⟩

end Bfib1

/-! ## The members of the union -/

/-- Where a member of the union has the words that all members but `l2_bridge` have. -/
structure Member where
  infoBlk2 : Fin 32
  actDpWord : Fin 32
  vlan1Word : Fin 32
  dmacHiWord : Fin 32
  vlan2Word : Fin 32
  smacHiWord : Fin 32
  pppoeWord : Fin 32
  winfoWord : Fin 32
  winfoPao : Fin 32
  /-- The word of `cdrt_id`, `tops_entry` and `tport_id`. -/
  tportWord : Fin 32
  /-- The number of words of the structure. -/
  size : Nat
  deriving DecidableEq

def ipv4Hnapt : Member := ⟨4, 10, 11, 12, 13, 14, 15, 17, 18, 19, 20⟩
def ipv4Dslite : Member := ⟨14, 13, 15, 16, 17, 18, 19, 21, 22, 23, 24⟩
def ipv4Mape : Member := ⟨14, 13, 15, 16, 17, 18, 19, 24, 25, 26, 27⟩
def ipv65tRoute : Member := ⟨14, 13, 15, 16, 17, 18, 19, 21, 22, 23, 24⟩
def ipv6Hnapt : Member := ⟨14, 13, 15, 16, 17, 18, 19, 26, 27, 28, 32⟩

/-- `l2_bridge`, with its new addresses and VLANs, which has no `tport_id`. -/
def l2Bridge : Member := ⟨8, 10, 11, 12, 13, 14, 15, 17, 18, 19, 19⟩

namespace Member

variable (member : Member)

/-! `iblk2` -/

def qid : FoeField 7 := ⟨member.infoBlk2, 0, by decide⟩
def portMg : FoeField 1 := ⟨member.infoBlk2, 7, by decide⟩
def fqos : FoeField 1 := ⟨member.infoBlk2, 8, by decide⟩
def dp : FoeField 4 := ⟨member.infoBlk2, 9, by decide⟩
def mcast : FoeField 1 := ⟨member.infoBlk2, 13, by decide⟩
def mibf : FoeField 1 := ⟨member.infoBlk2, 15, by decide⟩
def rxid : FoeField 2 := ⟨member.infoBlk2, 17, by decide⟩
def winfoi : FoeField 1 := ⟨member.infoBlk2, 19, by decide⟩
def portAg : FoeField 4 := ⟨member.infoBlk2, 20, by decide⟩
def dscp : FoeField 8 := ⟨member.infoBlk2, 24, by decide⟩

/-! The word of `act_dp` -/

def egKeepEcn : FoeField 1 := ⟨member.actDpWord, 9, by decide⟩

/-- `eg_keep_cls`, and `eg_keep_dscp` of the members without a tunnel. -/
def egKeepCls : FoeField 1 := ⟨member.actDpWord, 10, by decide⟩

def actDp : FoeField 8 := ⟨member.actDpWord, 24, by decide⟩

/-! The Ethernet header -/

def vlan1 : FoeField 16 := u16Lo member.vlan1Word
def spTag : FoeField 16 := u16Hi member.vlan1Word
def dmacHi : FoeField 32 := u32 member.dmacHiWord
def vlan2 : FoeField 16 := u16Lo member.vlan2Word
def dmacLo : FoeField 16 := u16Hi member.vlan2Word
def smacHi : FoeField 32 := u32 member.smacHiWord
def pppoeId : FoeField 16 := u16Lo member.pppoeWord
def smacLo : FoeField 16 := u16Hi member.pppoeWord

/-! `winfo` and `winfo_pao` -/

def wcid : FoeField 16 := u16Lo member.winfoWord
def bssid : FoeField 8 := ⟨member.winfoWord, 16, by decide⟩
def usrInfo : FoeField 16 := u16Lo member.winfoPao
def tid : FoeField 4 := ⟨member.winfoPao, 16, by decide⟩
def isFixedrate : FoeField 1 := ⟨member.winfoPao, 20, by decide⟩
def isPrior : FoeField 1 := ⟨member.winfoPao, 21, by decide⟩
def isSp : FoeField 1 := ⟨member.winfoPao, 22, by decide⟩
def hf : FoeField 1 := ⟨member.winfoPao, 23, by decide⟩
def amsdu : FoeField 1 := ⟨member.winfoPao, 24, by decide⟩

def cdrtId : FoeField 8 := ⟨member.tportWord, 0, by decide⟩
def topsEntry : FoeField 6 := ⟨member.tportWord, 8, by decide⟩
def tportId : FoeField 4 := ⟨member.tportWord, 16, by decide⟩

end Member

/-! The addresses and ports of `ipv4_hnapt`, the first four also of `ipv4_dslite` and
`ipv4_mape`. -/

namespace Ipv4

def sip : FoeField 32 := u32 1
def dip : FoeField 32 := u32 2
def dport : FoeField 16 := u16Lo 3
def sport : FoeField 16 := u16Hi 3
def newSip : FoeField 32 := u32 5
def newDip : FoeField 32 := u32 6
def newDport : FoeField 16 := u16Lo 7
def newSport : FoeField 16 := u16Hi 7

end Ipv4

/-! The tunnel of `ipv4_dslite` and `ipv4_mape`. -/

namespace Ipv4

def tunnelSipv6 (i : Fin 4) : FoeField 32 := u32 (i.castLE (by decide) + 4)
def tunnelDipv6 (i : Fin 4) : FoeField 32 := u32 (i.castLE (by decide) + 8)
def flowLbl0 : FoeField 8 := ⟨12, 0, by decide⟩
def flowLbl1 : FoeField 8 := ⟨12, 8, by decide⟩
def flowLbl2 : FoeField 8 := ⟨12, 16, by decide⟩
def priority : FoeField 8 := ⟨12, 24, by decide⟩
def hopLimit : FoeField 8 := ⟨13, 0, by decide⟩

end Ipv4

/-! The addresses and ports after translation of `ipv4_mape`. -/

namespace Mape

def newSip : FoeField 32 := u32 21
def newDip : FoeField 32 := u32 22
def newDport : FoeField 16 := u16Lo 23
def newSport : FoeField 16 := u16Hi 23

end Mape

/-! The addresses and ports of the IPv6 members. -/

namespace Ipv6

def sip (i : Fin 4) : FoeField 32 := u32 (i.castLE (by decide) + 1)
def dip (i : Fin 4) : FoeField 32 := u32 (i.castLE (by decide) + 5)
def dport : FoeField 16 := u16Lo 9
def sport : FoeField 16 := u16Hi 9
def prot : FoeField 8 := ⟨9, 0, by decide⟩
def hph : FoeField 24 := ⟨9, 8, by decide⟩
def tunnelSipv4 : FoeField 32 := u32 10
def tunnelDipv4 : FoeField 32 := u32 11
def egIpv6Dir : FoeField 1 := ⟨13, 8, by decide⟩
def newIpv6Ip (i : Fin 4) : FoeField 32 := u32 (i.castLE (by decide) + 21)
def newDport : FoeField 16 := u16Lo 25
def newSport : FoeField 16 := u16Hi 25

end Ipv6

/-! The tunnel header of `ipv6_6rd`. -/

namespace Sixrd

def hdrChksum : FoeField 16 := ⟨12, 0, by decide⟩
def dscp : FoeField 8 := ⟨12, 16, by decide⟩
def ttl : FoeField 8 := ⟨12, 24, by decide⟩
def flag : FoeField 3 := ⟨13, 0, by decide⟩
def perFlow6rdId : FoeField 1 := ⟨13, 16, by decide⟩

end Sixrd

/-! The header of a frame that `l2_bridge` matches. -/

namespace L2Bridge

def dmacHi : FoeField 32 := u32 1
def smacLo : FoeField 16 := u16Lo 2
def dmacLo : FoeField 16 := u16Hi 2
def smacHi : FoeField 32 := u32 3
def etype : FoeField 16 := u16Lo 4
def hph : FoeField 16 := u16Hi 4
def vlan1 : FoeField 16 := u16Lo 5
def vlan2 : FoeField 16 := u16Hi 5

end L2Bridge

/-! ## Tests on an entry -/

namespace FoeEntry

variable (entry : FoeEntry)

def isBound : Bool := Bfib1.state.get entry == BIND

/-- `(x)->bfib1.pkt_type == type`, as in the macros `IS_IPV4_HNAPT(x)` and its like. -/
def isType (type : BitVec 5) : Bool := Bfib1.pktType.get entry == type

def isIpv4Grp : Bool := entry.isType IPV4_HNAPT || entry.isType IPV4_HNAT

def isIpv6Grp : Bool :=
  entry.isType IPV6_3T_ROUTE || entry.isType IPV6_5T_ROUTE || entry.isType IPV6_6RD ||
    entry.isType IPV4_DSLITE || entry.isType IPV4_MAP_E || entry.isType IPV4_MAP_T ||
    entry.isType IPV6_HNAPT || entry.isType IPV6_HNAT

end FoeEntry

/-! ## Comparing and deleting entries -/

def swab32 (x : BitVec 32) : BitVec 32 :=
  x.extractLsb' 0 8 ++ x.extractLsb' 8 8 ++ x.extractLsb' 16 8 ++ x.extractLsb' 24 8

def swab16 (x : BitVec 16) : BitVec 16 :=
  x.extractLsb' 0 8 ++ x.extractLsb' 8 8

theorem swab16_swab16 (x : BitVec 16) : swab16 (swab16 x) = x := by
  refine BitVec.eq_of_getLsbD_eq fun i inside => ?_
  simp only [swab16, BitVec.getLsbD_append, BitVec.getLsbD_extractLsb']
  interval_cases i <;> rfl

theorem swab32_swab32 (x : BitVec 32) : swab32 (swab32 x) = x := by
  refine BitVec.eq_of_getLsbD_eq fun i inside => ?_
  simp only [swab32, BitVec.getLsbD_append, BitVec.getLsbD_extractLsb']
  interval_cases i <;> rfl

/-- `*(u32 *)mac` on a little-endian host. -/
def macHi (mac : Mac) : BitVec 32 := swab32 (mac.extractLsb' 16 32)

/-- `*(u16 *)&mac[4]` on a little-endian host. -/
def macLo (mac : Mac) : BitVec 16 := swab16 (mac.extractLsb' 0 16)

structure EntryCmpFlags where
  src : Bool
  dst : Bool

def ENTRY_CMP_DST : EntryCmpFlags := ⟨false, true⟩
def ENTRY_CMP_ANY : EntryCmpFlags := ⟨true, true⟩

def entryMacCmp (entry : FoeEntry) (mac : Mac) (flags : EntryCmpFlags) : Bool :=
  let member := if entry.isIpv4Grp then ipv4Hnapt else ipv65tRoute
  (flags.src && swab32 (member.smacHi.get entry) == macHi mac &&
      swab16 (member.smacLo.get entry) == macLo mac) ||
    (flags.dst && swab32 (member.dmacHi.get entry) == macHi mac &&
      swab16 (member.dmacLo.get entry) == macLo mac)

inductive IpAddr where
  | ip4 (ip : BitVec 32)
  | ip6 (ip : Fin 4 → BitVec 32)
  deriving DecidableEq

/-- The fields `entry_ip_cmp` compares an IPv4 address with, source first. -/
def ipv4CmpFields (entry : FoeEntry) : Option (FoeField 32 × FoeField 32) :=
  if entry.isType IPV4_HNAPT || entry.isType IPV4_HNAT then some (Ipv4.sip, Ipv4.newDip)
  else if entry.isType IPV4_DSLITE || entry.isType IPV4_MAP_E then some (Ipv4.sip, Ipv4.dip)
  else if entry.isType IPV6_6RD then some (Ipv6.tunnelSipv4, Ipv6.tunnelDipv4)
  else none

/-- The fields `entry_ip_cmp` compares an IPv6 address with, source first. -/
def ipv6CmpFields (entry : FoeEntry) : Option ((Fin 4 → FoeField 32) × (Fin 4 → FoeField 32)) :=
  if entry.isType IPV6_3T_ROUTE || entry.isType IPV6_5T_ROUTE || entry.isType IPV6_6RD then
    some (Ipv6.sip, Ipv6.dip)
  else if entry.isType IPV6_HNAT || entry.isType IPV6_HNAPT then
    some (Ipv6.sip, Ipv6.newIpv6Ip)
  else if entry.isType IPV4_DSLITE || entry.isType IPV4_MAP_E then
    some (Ipv4.tunnelSipv6, Ipv4.tunnelDipv6)
  else none

def entryIpCmp (entry : FoeEntry) (addr : IpAddr) (flags : EntryCmpFlags) : Bool :=
  match addr with
  | .ip4 ip =>
    match ipv4CmpFields entry with
    | none => false
    | some (sip, dip) => (flags.src && sip.get entry == ip) || (flags.dst && dip.get entry == ip)
  | .ip6 ip =>
    match ipv6CmpFields entry with
    | none => false
    | some (sip, dip) =>
      (flags.src && decide (∀ i, (sip i).get entry = ip i)) ||
        (flags.dst && decide (∀ i, (dip i).get entry = ip i))

/-- `__entry_delete(entry)`; `stamp` is what `foe_timestamp` reads. -/
def entryDelete (stamp : BitVec 8) (entry : FoeEntry) : FoeEntry :=
  Bfib1.timeStamp.set stamp (Bfib1.state.set INVALID entry)

end MetaFilogic.Hnat
