import MetaFilogic.Hnat.Foe
import MetaFilogic.Library.Walk

/-!
# The flow tables of the PPEs

`hnat_start` allocates a flow table and a table of pending Wi-Fi flows for one PPE,
halving the number of entries until both fit, and programs the size into the PPE.  The
other functions of this file walk these tables, some up to the number of entries
`hnat_start` has settled on, some up to the number it starts from.
-/

namespace MetaFilogic.Hnat

def DEF_ETRY_NUM : Nat := 8192

def DEF_ETRY_NUM_CFG : Nat := 3

/-! ## State -/

structure FlowEntry where
  data : FoeEntry
  lastUpdate : BitVec 64
  ppeIndex : BitVec 16
  hash : BitVec 16

/-- What this file reads and writes of `struct mtk_hnat`, and the register field with the
table size.  A table that is not allocated is `none`. -/
structure MtkHnat where
  ppeNum : Nat
  foeEtryNum : Nat
  etryNumCfg : Nat
  foeTableCpu : Nat → Option (List FoeEntry)
  foeFlow : Nat → Option (List (List FlowEntry))
  /-- `TB_ETRY_NUM` of `PPE_TB_CFG`, by PPE. -/
  tbEtryNum : Nat → Nat

def MtkHnat.probed (ppeNum : Nat) : MtkHnat where
  ppeNum
  foeEtryNum := DEF_ETRY_NUM
  etryNumCfg := 0
  foeTableCpu _ := none
  foeFlow _ := none
  tbEtryNum _ := 0

/-- The outcome of every allocation, by PPE and, in the retry loop, by the value of
`etry_num_cfg` it is made with. -/
structure AllocOutcomes where
  foeTable : Nat → Nat → Bool
  foeFlow : Nat → Nat → Bool
  foeMib : Nat → Bool
  acct : Nat → Bool

/-- The data of the chip that `hnat_start` looks at. -/
structure HnatData where
  versionV11 : Bool
  perFlowAccounting : Bool

/-! ## `hnat_start` -/

def boundaryEntryOffset : List Nat := [12, 25, 38, 51, 76, 89, 102, 115]

def excludeBoundaryEntry (foeEtryNum : Nat) (table : List FoeEntry) : Option (List FoeEntry) :=
  (List.range ((foeEtryNum + 127) / 128)).foldlM (fun table i =>
    boundaryEntryOffset.foldlM (fun table offset =>
      (table[i * 128 + offset]?).map fun entry =>
        table.set (i * 128 + offset) (Bfib1.sta.set 1 entry)) table) table

/-- The retry loop of `hnat_start`, from `etry_num_cfg = tries - 1` down. -/
def allocTables (alloc : AllocOutcomes) (ppeId : Nat) : Nat → MtkHnat → Option Nat × MtkHnat
  | 0, h => (none, h)
  | etryNumCfg + 1, h =>
    let halved := { h with foeEtryNum := h.foeEtryNum / 2 }
    if alloc.foeTable ppeId etryNumCfg then
      if alloc.foeFlow ppeId etryNumCfg then
        (some etryNumCfg, { h with
          foeTableCpu := Function.update h.foeTableCpu ppeId
            (some (List.replicate h.foeEtryNum .zero))
          foeFlow := Function.update h.foeFlow ppeId
            (some (List.replicate (h.foeEtryNum / 4) [])) })
      else
        allocTables alloc ppeId etryNumCfg halved
    else
      allocTables alloc ppeId etryNumCfg halved

def hnatStart (alloc : AllocOutcomes) (data : HnatData) (ppeId : Nat) (h : MtkHnat) :
    Option (Int × MtkHnat) :=
  if ppeId ≥ h.ppeNum then some (-EINVAL, h)
  else
    match allocTables alloc ppeId (DEF_ETRY_NUM_CFG + 1) h with
    | (none, h) => some (-1, h)
    | (some etryNumCfg, h) =>
      let table := (h.foeTableCpu ppeId).getD []
      match if data.versionV11 then excludeBoundaryEntry h.foeEtryNum table else some table with
      | none => none
      | some table =>
        let h := { h with foeTableCpu := Function.update h.foeTableCpu ppeId (some table) }
        if data.perFlowAccounting && !(alloc.foeMib ppeId && alloc.acct ppeId) then some (-1, h)
        else
          some (0, { h with
            etryNumCfg
            tbEtryNum := Function.update h.tbEtryNum ppeId etryNumCfg })

/-- The loop of `hnat_probe` over the first `count` PPEs, when all of them start. -/
def startPpes (alloc : AllocOutcomes) (data : HnatData) : Nat → MtkHnat → Option MtkHnat
  | 0, h => some h
  | count + 1, h =>
    match startPpes alloc data count h with
    | none => none
    | some h =>
      match hnatStart alloc data count h with
      | some (0, h) => some h
      | _ => none

/-! ## Walking the flow tables -/

/-- A loop over the PPEs and the first `count` entries of each table; nothing when it
leaves a table.  `skipNull` tells whether it passes over a PPE without table. -/
def walkPpes (skipNull : Bool) (visit : Nat → Nat → FoeEntry → Option FoeEntry) (count : Nat) :
    Nat → MtkHnat → Option (Nat × MtkHnat)
  | 0, h => some (0, h)
  | ppes + 1, h =>
    match walkPpes skipNull visit count ppes h with
    | none => none
    | some (ret, h) =>
      match h.foeTableCpu ppes with
      | none => if skipNull then some (ret, h) else none
      | some table =>
        match walk (visit ppes) count table with
        | none => none
        | some (cnt, table) =>
          some (ret + cnt, { h with foeTableCpu := Function.update h.foeTableCpu ppes (some table) })

/-- Deleting the bound entries that match; `stamps` are the readings of `foe_timestamp`. -/
def deleteMatching (stamps : Nat → Nat → BitVec 8) (isMatch : FoeEntry → Bool) (ppe index : Nat)
    (entry : FoeEntry) : Option FoeEntry :=
  if entry.isBound && isMatch entry then some (entryDelete (stamps ppe index) entry) else none

def entryDeleteByMac (stamps : Nat → Nat → BitVec 8) (mac : Mac) (h : MtkHnat) :
    Option (Nat × MtkHnat) :=
  walkPpes false (deleteMatching stamps fun entry => entryMacCmp entry mac ENTRY_CMP_ANY)
    DEF_ETRY_NUM h.ppeNum h

def entryDeleteByIp (stamps : Nat → Nat → BitVec 8) (addr : IpAddr) (h : MtkHnat) :
    Option (Nat × MtkHnat) :=
  walkPpes false (deleteMatching stamps fun entry => entryIpCmp entry addr ENTRY_CMP_ANY)
    DEF_ETRY_NUM h.ppeNum h

def mtkGetWdmaRxPort (wdmaIdx : Nat) : Option (BitVec 4) :=
  if wdmaIdx = 2 then some 13 else if wdmaIdx = 1 then some 9 else if wdmaIdx = 0 then some 8
  else none

/-- The test of `entry_delete_by_bssid_wcid` on an entry. -/
def bssidWcidCmp (port : BitVec 4) (bssid wcid : BitVec 16) (entry : FoeEntry) : Bool :=
  let member :=
    if entry.isIpv4Grp then ipv4Hnapt
    else if entry.isType IPV4_MAP_E || entry.isType IPV4_MAP_T then ipv4Mape
    else if entry.isType IPV6_HNAPT || entry.isType IPV6_HNAT then ipv6Hnapt
    else ipv65tRoute
  (member.bssid.get entry).setWidth 16 == bssid && member.wcid.get entry == wcid &&
    member.dp.get entry == port

def entryDeleteByBssidWcid (stamps : Nat → Nat → BitVec 8) (port : BitVec 4)
    (bssid wcid : BitVec 16) (h : MtkHnat) : Option (Nat × MtkHnat) :=
  walkPpes false (deleteMatching stamps (bssidWcidCmp port bssid wcid)) DEF_ETRY_NUM h.ppeNum h

def foeClearAllBindEntries (stamps : Nat → Nat → BitVec 8) (h : MtkHnat) :
    Option (Nat × MtkHnat) :=
  walkPpes false (deleteMatching stamps fun _ => true) h.foeEtryNum h.ppeNum h

/-- The switch port of a device in `foe_clear_ethdev_bind_entries`. -/
structure DsaPort where
  portId : Nat
  mxl8628021q : Bool

def DsaPort.tag (port : DsaPort) : BitVec 32 :=
  if port.mxl8628021q then BitVec.ofNat 32 (port.portId + 2 ^ 11) else 1#32 <<< port.portId

/-- The test of `foe_clear_ethdev_bind_entries` on a bound entry. -/
def ethdevCmp (gmac : BitVec 4) (port : Option DsaPort) (entry : FoeEntry) : Bool :=
  let member := if entry.isIpv4Grp then ipv4Hnapt else ipv65tRoute
  member.dp.get entry == gmac &&
    match port with
    | none => true
    | some port =>
      if port.mxl8628021q then (member.vlan1.get entry).setWidth 32 == port.tag
      else (member.spTag.get entry).setWidth 32 &&& port.tag != 0

def foeClearEthdevBindEntries (stamps : Nat → Nat → BitVec 8) (gmac : BitVec 4)
    (port : Option DsaPort) (h : MtkHnat) : Option (Nat × MtkHnat) :=
  walkPpes false (deleteMatching stamps (ethdevCmp gmac port)) h.foeEtryNum h.ppeNum h

def foeClearCryptoEntry (stamps : Nat → Nat → BitVec 8) (cdrtIdx : BitVec 32) (h : MtkHnat) :
    Option (Nat × MtkHnat) :=
  walkPpes true (deleteMatching stamps fun entry =>
    entry.isType IPV4_HNAPT && (ipv4Hnapt.cdrtId.get entry).setWidth 32 == cdrtIdx)
    h.foeEtryNum h.ppeNum h

def NUD_FAILED : BitVec 8 := 0x20

structure NeighUpdateEvent where
  dip : IpAddr
  ha : Mac
  nudState : BitVec 8

/-- The test of `foe_clear_entry` on a bound entry, for one event. -/
def neighCmp (entry : FoeEntry) (neigh : NeighUpdateEvent) : Bool :=
  entryIpCmp entry neigh.dip ENTRY_CMP_DST &&
    (neigh.nudState &&& NUD_FAILED != 0 || !entryMacCmp entry neigh.ha ENTRY_CMP_DST)

def foeClearEntry (stamps : Nat → Nat → BitVec 8) (head : List NeighUpdateEvent) (h : MtkHnat) :
    Option (Nat × MtkHnat) :=
  walkPpes true (deleteMatching stamps fun entry => head.any (neighCmp entry))
    h.foeEtryNum h.ppeNum h

def hnatGetFoeEntry (h : MtkHnat) (ppeId index : Nat) : Option (Nat × Nat) :=
  if index = 0x7fff ∨ index ≥ h.foeEtryNum ∨ ppeId ≥ h.ppeNum then none else some (ppeId, index)

/-! ## Walking the pending flows -/

def timeAfter (a b : BitVec 64) : Bool := (b - a).slt 0

def hnatFlowEntryTeardownAll (ppeId : Nat) (h : MtkHnat) : Option MtkHnat :=
  match h.foeFlow ppeId with
  | none => none
  | some heads =>
    match walk (fun _ _ => some []) (DEF_ETRY_NUM / 4) heads with
    | none => none
    | some (_, heads) => some { h with foeFlow := Function.update h.foeFlow ppeId (some heads) }

/-- The flow entries of one list that a teardown at `jiffies` leaves. -/
def liveEntries (hz : Nat) (jiffies : BitVec 64) (head : List FlowEntry) : List FlowEntry :=
  head.filter fun flow => !timeAfter jiffies (flow.lastUpdate + BitVec.ofNat 64 (30 * hz))

def hnatFlowEntryTeardownHandler (hz : Nat) (jiffies : BitVec 64) : Nat → MtkHnat → Option MtkHnat
  | 0, h => some h
  | ppes + 1, h =>
    match hnatFlowEntryTeardownHandler hz jiffies ppes h with
    | none => none
    | some h =>
      match h.foeFlow ppes with
      | none => none
      | some heads =>
        match walk (fun _ head => some (liveEntries hz jiffies head)) (DEF_ETRY_NUM / 4) heads with
        | none => none
        | some (_, heads) => some { h with foeFlow := Function.update h.foeFlow ppes (some heads) }

end MetaFilogic.Hnat
