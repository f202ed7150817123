import MetaFilogic.Library.Steps
import Mathlib.Data.BitVec

/-!
# The VLAN table of the switch

The driver keeps a table by VLAN index, with the vid and the ports of each, and writes it to the
table of the switch, which is by vid.
-/

namespace MetaFilogic.Mt753x

def MT753X_NUM_PORTS : Nat := 7

def MT753X_NUM_VLANS : Nat := 4095

def MT753X_MAX_VID : Nat := 4095

/-! ## The switch -/

def VTCR_BUSY : BitVec 32 := 0x80000000

def VTCR_FUNC_S : Nat := 12

def VTCR_FUNC_M : BitVec 32 := 0xf000

def VTCR_VID_M : BitVec 32 := 0xfff

def VTCR_WRITE_VLAN_ENTRY : BitVec 32 := 1

def IVL_MAC : BitVec 32 := 0x40000000

def VTAG_EN : BitVec 32 := 0x10000000

def VENTRY_VALID : BitVec 32 := 1

def PORT_MEM_S : Nat := 16

def PORT_MEM_M : BitVec 32 := 0xff0000

def PORT_ETAG_M : BitVec 32 := 3

def portEtagS (port : Nat) : Nat := port * 2

def ETAG_CTRL_UNTAG : BitVec 32 := 0

def ETAG_CTRL_TAG : BitVec 32 := 2

def GRP_PORT_VID_M : BitVec 32 := 0xfff

structure HwEntry where
  vawd1 : BitVec 32
  vawd2 : BitVec 32

/-- The registers for the VLANs, with those of the ports by their number. -/
structure Hw where
  vawd1 : BitVec 32
  vawd2 : BitVec 32
  table : BitVec 12 → HwEntry
  pcr : Nat → BitVec 32
  pvc : Nat → BitVec 32
  ppbv1 : Nat → BitVec 32

namespace HwEntry

variable (entry : HwEntry)

def valid : Bool := entry.vawd1.getLsbD 0

def member : BitVec 8 := ((entry.vawd1 &&& PORT_MEM_M) >>> PORT_MEM_S).setWidth 8

def etag (port : Nat) : BitVec 32 := (entry.vawd2 >>> portEtagS port) &&& PORT_ETAG_M

end HwEntry

def Hw.writeVtcr (hw : Hw) (val : BitVec 32) : Hw :=
  if val &&& VTCR_FUNC_M = VTCR_WRITE_VLAN_ENTRY <<< VTCR_FUNC_S then
    { hw with
      table := Function.update hw.table ((val &&& VTCR_VID_M).setWidth 12) ⟨hw.vawd1, hw.vawd2⟩ }
  else hw

/-! ## The driver -/

structure VlanEntry where
  vid : BitVec 16
  member : BitVec 8
  etags : BitVec 8

/-- `struct gsw_mt753x`, as far as it is about VLANs: the entries are by VLAN index, and
`portEntries` has the `pvid` of each port, a VLAN index too. -/
structure Gsw where
  globalVlanEnable : Bool
  vlanEntries : Nat → VlanEntry
  portEntries : Nat → BitVec 16
  cpuPort : Nat
  port5Stag : Bool
  port6Stag : Bool
  hw : Hw

def mt753xVlanCtrl (cmd val : BitVec 32) (hw : Hw) : Hw :=
  hw.writeVtcr (VTCR_BUSY ||| ((cmd <<< VTCR_FUNC_S) &&& VTCR_FUNC_M) ||| (val &&& VTCR_VID_M))

/-- The egress modes of the first ports, in the order of `VAWD2`. -/
def egressModes (etags : BitVec 8) : Nat → BitVec 32
  | 0 => 0
  | port + 1 => egressModes etags port |||
      (if etags.getLsbD port then ETAG_CTRL_TAG else ETAG_CTRL_UNTAG) <<< portEtagS port

def hwEntry (ports etags : BitVec 8) : HwEntry where
  vawd1 :=
    if ports = 0 then 0
    else IVL_MAC ||| VTAG_EN ||| VENTRY_VALID |||
      ((ports.setWidth 32 <<< PORT_MEM_S) &&& PORT_MEM_M)
  vawd2 := egressModes etags MT753X_NUM_PORTS

def mt753xWriteVlanEntry (vid : BitVec 16) (ports etags : BitVec 8) (hw : Hw) : Hw :=
  mt753xVlanCtrl VTCR_WRITE_VLAN_ENTRY (vid.setWidth 32)
    { hw with vawd1 := (hwEntry ports etags).vawd1, vawd2 := (hwEntry ports etags).vawd2 }

def clearTable : Nat → Hw → Hw
  | 0, hw => hw
  | i + 1, hw => mt753xWriteVlanEntry (BitVec.ofNat 16 i) 0 0 (clearTable i hw)

def programTable (entries : Nat → VlanEntry) : Nat → Hw → Hw
  | 0, hw => hw
  | i + 1, hw =>
    let hw := programTable entries i hw
    if (entries i).member = 0 then hw
    else mt753xWriteVlanEntry (entries i).vid (entries i).member (entries i).etags hw

namespace Gsw

variable (gsw : Gsw)

def pvidOf (port : Nat) : BitVec 16 :=
  let vlan := (gsw.portEntries port).toNat
  if vlan < MT753X_NUM_VLANS ∧ (gsw.vlanEntries vlan).member ≠ 0 then (gsw.vlanEntries vlan).vid
  else 0

def writePvids : Nat → Hw → Hw
  | 0, hw => hw
  | port + 1, hw =>
    let hw := writePvids port hw
    { hw with
      ppbv1 := Function.update hw.ppbv1 port
        ((hw.ppbv1 port &&& ~~~GRP_PORT_VID_M) ||| (gsw.pvidOf port).setWidth 32) }

def usedIn (tag : Bool) (port : Nat) : Bool :=
  (List.range MT753X_NUM_VLANS).any fun i =>
    (gsw.vlanEntries i).member.getLsbD port && ((gsw.vlanEntries i).etags.getLsbD port == tag)

def stagOn (port : Nat) : Bool := gsw.port5Stag && port == 5 || gsw.port6Stag && port == 6

def pvcMode (port : Nat) : BitVec 32 :=
  if gsw.stagOn port then 0x8100 <<< 16 ||| 0x20
  else if gsw.usedIn false port && !gsw.usedIn true port then 0x8100 <<< 16 ||| 3 <<< 6
  else 0x8100 <<< 16

def isolationPvcMode (port : Nat) : BitVec 32 :=
  if gsw.stagOn port then 0x8100 <<< 16 ||| 0x20 else 0x8100 <<< 16 ||| 3 <<< 6

def eachPort (regs : Nat → BitVec 32) (val : Nat → BitVec 32) (port : Nat) : BitVec 32 :=
  if port < MT753X_NUM_PORTS then val port else regs port

def mt753xApplyVlanConfig : Gsw :=
  let hw := { gsw.hw with
    pcr := eachPort gsw.hw.pcr fun _ => PORT_MEM_M ||| 3
    pvc := eachPort gsw.hw.pvc gsw.pvcMode }
  let hw := clearTable MT753X_NUM_VLANS hw
  let hw := programTable gsw.vlanEntries MT753X_NUM_VLANS hw
  { gsw with hw := gsw.writePvids MT753X_NUM_PORTS hw }

def mt753xPortIsolation : Gsw :=
  { gsw with
    hw := { gsw.hw with
      pcr := Function.update (eachPort gsw.hw.pcr fun _ => 1 <<< gsw.cpuPort <<< 16) gsw.cpuPort
        PORT_MEM_M
      pvc := eachPort gsw.hw.pvc gsw.isolationPvcMode } }

def mt753xApplyConfig : Gsw :=
  if gsw.globalVlanEnable then gsw.mt753xApplyVlanConfig else gsw.mt753xPortIsolation

def mt753xSetVlanEnable (val : BitVec 32) : Gsw := { gsw with globalVlanEnable := val != 0 }

def mt753xSetPortPvid (port : Nat) (pvid : Int) : Option Gsw :=
  if MT753X_NUM_PORTS ≤ port then none
  else if pvid < 0 ∨ MT753X_MAX_VID < pvid then none
  else some { gsw with portEntries := Function.update gsw.portEntries port (BitVec.ofInt 16 pvid) }

def mt753xSetVid (portVlan val : BitVec 32) : Option Gsw :=
  let vlan := portVlan.toInt
  let vid := val.setWidth 16
  if vlan < 0 ∨ MT753X_NUM_VLANS ≤ vlan then none
  else if MT753X_MAX_VID < vid.toNat then none
  else some { gsw with
    vlanEntries := Function.update gsw.vlanEntries vlan.toNat
      { gsw.vlanEntries vlan.toNat with vid := vid } }

structure SwitchPort where
  id : Nat
  tagged : Bool

def portMasks : List SwitchPort → BitVec 8 → BitVec 8 → Option (BitVec 8 × BitVec 8)
  | [], member, etags => some (member, etags)
  | p :: ports, member, etags =>
    if MT753X_NUM_PORTS ≤ p.id then none
    else portMasks ports (member ||| 1 <<< p.id)
      (if p.tagged then etags ||| 1 <<< p.id else etags)

def mt753xSetVlanPorts (portVlan : Nat) (ports : List SwitchPort) : Option Gsw :=
  if MT753X_NUM_VLANS ≤ portVlan ∨ MT753X_NUM_PORTS < ports.length then none
  else (portMasks ports 0 0).map fun masks =>
    { gsw with
      vlanEntries := Function.update gsw.vlanEntries portVlan
        { gsw.vlanEntries portVlan with member := masks.1, etags := masks.2 } }

def mt753xResetSwitch : Gsw :=
  { gsw with
    portEntries := fun _ => 0
    vlanEntries := fun i => if i < MT753X_NUM_VLANS then ⟨BitVec.ofNat 16 i, 0, 0⟩ else ⟨0, 0, 0⟩ }

end Gsw

/-! ## Set-up -/

structure Mapping where
  name : String
  pvids : List (BitVec 16)
  members : List (BitVec 8)
  etags : List (BitVec 8)
  vids : List (BitVec 16)

def mt753xDefMapping : List Mapping :=
  [⟨"llllw", [1, 1, 1, 1, 2, 2, 1], [0, 0x4f, 0x30], [0, 0, 0], [0, 1, 2]⟩,
    ⟨"wllll", [2, 1, 1, 1, 1, 2, 1], [0, 0x5e, 0x21], [0, 0, 0], [0, 1, 2]⟩,
    ⟨"lwlll", [1, 2, 1, 1, 1, 2, 1], [0, 0x5d, 0x22], [0, 0, 0], [0, 1, 2]⟩,
    ⟨"lllll", [1, 1, 1, 1, 1, 1, 1], [0, 0x7f], [0, 0], [0, 1]⟩]

def mt753xFindMapping (map : Option String) : Option Mapping :=
  map.bind fun map => mt753xDefMapping.find? fun mapping => mapping.name == map

/-- The driver as `mt753x_probe` leaves it for `mt753x_swconfig_init`. -/
def Gsw.probe (map : Option String) (cpuPort : Nat) (port5Stag port6Stag : Bool) (hw : Hw) : Gsw :=
  match mt753xFindMapping map with
  | none => ⟨false, fun _ => ⟨0, 0, 0⟩, fun _ => 0, cpuPort, port5Stag, port6Stag, hw⟩
  | some mapping =>
    ⟨true, fun i => ⟨mapping.vids.getD i 0, mapping.members.getD i 0, mapping.etags.getD i 0⟩,
      fun port => mapping.pvids.getD port 0, cpuPort, port5Stag, port6Stag, hw⟩

/-! ## Runs -/

/-- The driver in use: `accepted` records the VLAN index last accepted for each port, which is 0
after a reset. -/
structure VlanRun where
  gsw : Gsw
  accepted : Nat → Nat

inductive VlanCall where
  | setVid (portVlan val : BitVec 32)
  | setVlanPorts (portVlan : Nat) (ports : List Gsw.SwitchPort)
  | setPortPvid (port : Nat) (pvid : Int)
  | setVlanEnable (val : BitVec 32)
  | resetSwitch
  | applyConfig

namespace VlanRun

def start (gsw : Gsw) : VlanRun := ⟨gsw, fun port => (gsw.portEntries port).toNat⟩

def call (s : VlanRun) : VlanCall → VlanRun
  | .setVid portVlan val => { s with gsw := (s.gsw.mt753xSetVid portVlan val).getD s.gsw }
  | .setVlanPorts portVlan ports =>
    { s with gsw := (s.gsw.mt753xSetVlanPorts portVlan ports).getD s.gsw }
  | .setPortPvid port pvid =>
    match s.gsw.mt753xSetPortPvid port pvid with
    | none => s
    | some gsw => ⟨gsw, Function.update s.accepted port pvid.toNat⟩
  | .setVlanEnable val => { s with gsw := s.gsw.mt753xSetVlanEnable val }
  | .resetSwitch => ⟨s.gsw.mt753xResetSwitch, fun _ => 0⟩
  | .applyConfig => { s with gsw := s.gsw.mt753xApplyConfig }

def step (s : VlanRun) (event : VlanCall) : Option VlanRun := some (s.call event)

end VlanRun

end MetaFilogic.Mt753x
