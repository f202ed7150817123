import MetaFilogic.Library.Numerals
import MetaFilogic.Library.WordParts
import Mathlib.Data.Nat.Digits.Defs

/-!
# The commands of the switch tool

The arguments of a command are read with `strtoul`, stored in narrow variables, compared with
their limits and put into fields of the registers.
-/

namespace MetaFilogic.Switch

open Numerals WordParts

abbrev CString := List Char

structure Write where
  reg : Nat
  value : BitVec 32
  deriving DecidableEq

def MAX_PORT : Nat := 6
def MAX_VID_VALUE : Nat := 4095
def MAX_VLAN_RULE : Nat := 16
def ACTIVED : Nat := 1
def REG_CFC_ADDR : Nat := 0x0004
def REG_CFC_MIRROR_PORT_OFFT : Nat := 16
def REG_CFC_MIRROR_PORT_RELMASK : Nat := 0x7
def REG_CFC_MIRROR_PORT_MASK : BitVec 32 := 0x7#32 <<< REG_CFC_MIRROR_PORT_OFFT
def REG_CFC_MIRROR_EN_OFFT : Nat := 19
def REG_CFC_MIRROR_EN_MASK : BitVec 32 := 0x1#32 <<< REG_CFC_MIRROR_EN_OFFT
def REG_VTCR_ADDR : Nat := 0x0090
def REG_VAWD1_ADDR : Nat := 0x0094
def REG_VAWD2_ADDR : Nat := 0x0098
def REG_SSC_P0_ADDR : Nat := 0x2000
def REG_PCR_P0_ADDR : Nat := 0x2004
def REG_PORT_ACL_EN_OFFT : Nat := 10
def REG_PORT_ACL_EN_MASK : BitVec 32 := 0x1#32 <<< REG_PORT_ACL_EN_OFFT

/-- The C library, of which `einval` says whether `strtoul` sets `EINVAL` when it finds no number;
the arguments; and the registers before the command. -/
structure Run where
  einval : Bool
  argv : List CString
  regs : Nat → BitVec 32

namespace Run

variable (r : Run)

/-! ## Arguments -/

/-- An argument that is stored in a variable of `width` bits, with the check of `errno`, `endptr`
and the limit; `none` is a message or an argument that is missing. -/
def checked (i base width limit : Nat) : Option Nat := do
  let s ← r.argv[i]?
  let n := strtoul r.einval base s
  let narrow := n.value.setWidth width
  if n.failed ∨ n.rest ≠ [] ∨ limit < narrow.toNat then none else some narrow.toNat

def unlimited (i base width : Nat) : Option Nat := r.checked i base width (2 ^ width - 1)

/-- An argument of `vlan_set` that is stored in an `int` and checked against a range. -/
def ranged (i base limit : Nat) : Option Nat := do
  let s ← r.argv[i]?
  let n := ((strtoul r.einval base s).value.setWidth 32).toInt
  if n < 0 ∨ limit < n then none else some n.toNat

/-- A text with a digit up to `high` for each of eight ports. -/
def portDigits (i : Nat) (high : Char) : Option (List Nat) := do
  let s ← r.argv[i]?
  haveI : Decidable (∀ c ∈ s, '0' ≤ c ∧ c ≤ high) := List.decidableBAll _ s
  if s.length ≠ 8 ∨ ¬∀ c ∈ s, '0' ≤ c ∧ c ≤ high then none
  else some (s.map fun c => c.toNat - '0'.toNat)

/-! ## Commands -/

def aclPortEnable : Option (List Write) := do
  let aclPort ← r.checked 3 10 8 MAX_PORT
  let aclEn ← r.checked 4 10 8 1
  let reg := REG_PCR_P0_ADDR + 0x100 * aclPort
  let value := r.regs reg
  let value := value &&& ~~~REG_PORT_ACL_EN_MASK
  let value := value ||| BitVec.ofNat 32 aclEn <<< REG_PORT_ACL_EN_OFFT
  return [⟨reg, value⟩]

def macMT753xVlanSetPvid (port pvid : Nat) : Option (List Write) :=
  if port > 6 then none
  else
    let reg := 0x2014 + port * 0x100
    let value := r.regs reg
    let value := value &&& ~~~0xfff#32
    let value := value ||| BitVec.ofNat 32 pvid
    some [⟨reg, value⟩, ⟨0x80, 0x8002#32⟩]

def doVlanSetPvid : Option (List Write) := do
  let port ← r.checked 3 10 8 MAX_PORT
  let pvid ← r.checked 4 10 16 MAX_VID_VALUE
  r.macMT753xVlanSetPvid port pvid

/-- The `VAWD2` word of `macMT753xVlanSetVid`, for the ports below `count`. -/
def tagWord (tagPortMap : Nat) : Nat → BitVec 32
  | 0 => 0#32
  | i + 1 =>
    let value2 := tagWord tagPortMap i
    if tagPortMap.testBit i then value2 ||| 0x2#32 <<< (i * 2) else value2

def macMT753xVlanSetVid (active vid portMap tagPortMap ivlEn fid stag : Nat) : List Write :=
  let value := BitVec.ofNat 32 portMap <<< 16
  let value := value ||| BitVec.ofNat 32 stag <<< 4
  let value := value ||| BitVec.ofNat 32 ivlEn <<< 30
  let value := value ||| BitVec.ofNat 32 fid <<< 1
  let value := value ||| if active ≠ 0 then 1#32 else 0#32
  let value2 := tagWord tagPortMap 7
  let value := if value2 ≠ 0#32 then value ||| 1#32 <<< 28 else value
  [⟨0x98, value2⟩, ⟨0x94, value⟩, ⟨0x90, 0x80001000#32 + BitVec.ofNat 32 vid⟩, ⟨0x80, 0x8002#32⟩]

def optional (i : Nat) (read : Option Nat) : Option Nat :=
  if i < r.argv.length then read else some 0

def doVlanSetVid : Option (List Write) := do
  let _index ← r.checked 3 10 8 (MAX_VLAN_RULE - 1)
  let active ← r.checked 4 10 8 ACTIVED
  let vid ← r.checked 5 10 16 4095
  let portMap ← r.unlimited 6 10 8
  let tagPortMap ← r.unlimited 7 10 8
  let ivlEn ← r.optional 8 (r.unlimited 8 10 8)
  let fid ← r.optional 9 (r.unlimited 9 16 8)
  let stag ← r.optional 10 (r.unlimited 10 10 16)
  return macMT753xVlanSetVid active vid portMap tagPortMap ivlEn fid stag

def doStp : Option (List Write) := do
  let port ← r.checked 2 10 8 MAX_PORT
  let fid ← r.checked 3 10 8 7
  let state ← r.checked 4 10 8 3
  let reg := REG_SSC_P0_ADDR + port * 0x100
  let value := r.regs reg
  let value := value &&& ~~~(3#32 <<< (fid * 4))
  let value := value ||| BitVec.ofNat 32 state <<< (fid * 4)
  return [⟨reg, value⟩]

def doVlanSetPortMode : Option (List Write) := do
  let port ← r.checked 3 10 8 MAX_PORT
  let mode ← r.checked 4 10 8 3
  let reg := 0x2004 + port * 0x100
  let value := r.regs reg
  let value := value &&& ~~~(1#32 <<< 0 ||| 1#32 <<< 1)
  let value := value ||| BitVec.ofNat 32 mode &&& 0x3#32
  return [⟨reg, value⟩]

def doMirrorEn : Option (List Write) := do
  let mirrorEn ← r.checked 3 10 8 1
  let mirrorPort ← r.checked 4 10 8 REG_CFC_MIRROR_PORT_RELMASK
  let value := r.regs REG_CFC_ADDR
  let value := value &&& ~~~REG_CFC_MIRROR_EN_MASK
  let value := value ||| BitVec.ofNat 32 mirrorEn <<< REG_CFC_MIRROR_EN_OFFT
  let value := value &&& ~~~REG_CFC_MIRROR_PORT_MASK
  let value := value ||| BitVec.ofNat 32 mirrorPort <<< REG_CFC_MIRROR_PORT_OFFT
  return [⟨REG_CFC_ADDR, value⟩]

def vlanMem (digits : List Nat) : Nat := (digits.mapIdx fun i digit => digit * 2 ^ i).sum

def egTag (digits : List Nat) : BitVec 32 :=
  (digits.zipIdx).foldl (fun tag digit => tag ||| BitVec.ofNat 32 digit.1 <<< (digit.2 * 2)) 0#32

def egCon : Option Nat := do
  let s ← r.argv[7]?
  return if (strtoul r.einval 2 s).value = 0#64 then 0 else 1

/-- The digits of `argv[8]`, which are read when `eg_con` is not set. -/
def tagDigits (egCon : Nat) : Option (List Nat) :=
  if 8 < r.argv.length ∧ egCon = 0 then r.portDigits 8 '3' else some []

def vlanSet : Option (List Write) := do
  let fid ← r.ranged 3 0 7
  let vid ← r.ranged 4 0 0xfff
  let member ← r.portDigits 5 '1'
  let stag ← r.optional 6 (r.ranged 6 16 0xfff)
  let value := BitVec.ofNat 32 fid <<< 1
  let value := value ||| BitVec.ofNat 32 (vlanMem member) <<< 16
  let value := value ||| 1#32 <<< 30
  let value := value ||| (BitVec.ofNat 32 stag &&& 0xfff#32) <<< 4
  let value := value ||| 1#32
  let egCon ← r.optional 7 r.egCon
  let value := if 7 < r.argv.length then value ||| BitVec.ofNat 32 egCon <<< 29 ||| 1#32 <<< 28
    else value
  let digits ← r.tagDigits egCon
  let value := if 8 < r.argv.length ∧ egCon = 0 then value ||| 1#32 <<< 28 else value
  return [⟨REG_VAWD1_ADDR, value⟩, ⟨REG_VAWD2_ADDR, egTag digits⟩,
    ⟨REG_VTCR_ADDR, 0x80001000#32 + BitVec.ofNat 32 vid⟩]

end Run

/-! ## What is asked for -/

namespace Run

variable (r : Run)

/-- An argument is a number up to `range`. -/
def Value (i base range n : Nat) : Prop :=
  ∃ s, r.argv[i]? = some s ∧ numeral base s = some (n : Int) ∧ n ≤ range

def InRange (i base range : Nat) : Prop := ∃ n, r.Value i base range n

/-- An argument is a number that is in range once it is cut to `width` bits, or it is empty and
the C library lets that pass. -/
def Taken (i base width limit : Nat) : Prop :=
  ∃ s, r.argv[i]? = some s ∧
    ((∃ v, numeral base s = some v ∧ v.natAbs < 2 ^ 64 ∧ v % 2 ^ width ≤ limit) ∨
      s = [] ∧ r.einval = false)

/-- An argument of `vlan_set` begins with a number that is in range once it is cut to an `int`, or
with none. -/
def TakenInt (i base limit : Nat) : Prop :=
  ∃ s, r.argv[i]? = some s ∧
    ∀ n, scan base s = some n → n.magnitude < 2 ^ 64 ∧ n.value % 2 ^ 32 ≤ limit

def Unless (i : Nat) (p : Prop) : Prop := i < r.argv.length → p

def OptionalValue (i base range n : Nat) : Prop :=
  if i < r.argv.length then r.Value i base range n else n = 0

end Run

/-- The fields for the digits of a port map, from `lo` on. -/
def portFields (lo width : Nat) (digits : List Nat) : List FieldValue :=
  digits.zipIdx.map fun digit => ⟨lo + width * digit.2, width, digit.1⟩

/-- The fields for the tags of the ports of `tagPortMap`. -/
def tagFields (tagPortMap : Nat) : List FieldValue :=
  (List.range 7).map fun i => ⟨2 * i, 2, if tagPortMap.testBit i then 2 else 0⟩

inductive Command where
  | aclPortEnable
  | doVlanSetPvid
  | doVlanSetVid
  | doStp
  | doVlanSetPortMode
  | doMirrorEn
  | vlanSet

namespace Command

open FieldValue

def run (r : Run) : Command → Option (List Write)
  | aclPortEnable => r.aclPortEnable
  | doVlanSetPvid => r.doVlanSetPvid
  | doVlanSetVid => r.doVlanSetVid
  | doStp => r.doStp
  | doVlanSetPortMode => r.doVlanSetPortMode
  | doMirrorEn => r.doMirrorEn
  | vlanSet => r.vlanSet

/-- The writes put the values of the arguments, which are in range, into the fields of the registers
they belong to. -/
def Programs (r : Run) (ws : List Write) : Command → Prop
  | aclPortEnable => ∃ port en word, r.Value 3 10 6 port ∧ r.Value 4 10 1 en ∧
      ws = [⟨0x2004 + 0x100 * port, word⟩] ∧
      Replaced (r.regs (0x2004 + 0x100 * port)) word [⟨10, 1, en⟩]
  | doVlanSetPvid => ∃ port pvid word, r.Value 3 10 6 port ∧ r.Value 4 10 4095 pvid ∧
      ws = [⟨0x2014 + port * 0x100, word⟩, ⟨0x80, 0x8002#32⟩] ∧
      Replaced (r.regs (0x2014 + port * 0x100)) word [⟨0, 12, pvid⟩]
  | doVlanSetVid => ∃ index active vid portMap tagPortMap ivlEn fid stag vawd2 vawd1 vtcr,
      r.Value 3 10 15 index ∧ r.Value 4 10 1 active ∧ r.Value 5 10 4095 vid ∧
      r.Value 6 10 255 portMap ∧ r.Value 7 10 127 tagPortMap ∧ r.OptionalValue 8 10 1 ivlEn ∧
      r.OptionalValue 9 16 7 fid ∧ r.OptionalValue 10 10 4095 stag ∧
      ws = [⟨0x98, vawd2⟩, ⟨0x94, vawd1⟩, ⟨0x90, vtcr⟩, ⟨0x80, 0x8002#32⟩] ∧
      Replaced 0#32 vawd2 (tagFields tagPortMap) ∧
      Replaced 0#32 vawd1 [⟨16, 8, portMap⟩, ⟨4, 12, stag⟩, ⟨30, 1, ivlEn⟩, ⟨1, 3, fid⟩,
        ⟨0, 1, active⟩, ⟨28, 1, if tagPortMap = 0 then 0 else 1⟩] ∧
      Replaced 0x80001000#32 vtcr [⟨0, 12, vid⟩]
  | doStp => ∃ port fid state word, r.Value 2 10 6 port ∧ r.Value 3 10 7 fid ∧
      r.Value 4 10 3 state ∧ ws = [⟨0x2000 + port * 0x100, word⟩] ∧
      Replaced (r.regs (0x2000 + port * 0x100)) word [⟨fid * 4, 2, state⟩]
  | doVlanSetPortMode => ∃ port mode word, r.Value 3 10 6 port ∧ r.Value 4 10 3 mode ∧
      ws = [⟨0x2004 + port * 0x100, word⟩] ∧
      Replaced (r.regs (0x2004 + port * 0x100)) word [⟨0, 2, mode⟩]
  | doMirrorEn => ∃ en port word, r.Value 3 10 1 en ∧ r.Value 4 10 7 port ∧
      ws = [⟨0x4, word⟩] ∧ Replaced (r.regs 0x4) word [⟨19, 1, en⟩, ⟨16, 3, port⟩]
  | vlanSet => ∃ fid vid member stag egCon tags vawd1 vawd2 vtcr,
      r.Value 3 0 7 fid ∧ r.Value 4 0 4095 vid ∧ r.portDigits 5 '1' = some member ∧
      r.OptionalValue 6 16 4095 stag ∧ r.OptionalValue 7 2 1 egCon ∧
      r.tagDigits egCon = some tags ∧
      ws = [⟨0x94, vawd1⟩, ⟨0x98, vawd2⟩, ⟨0x90, vtcr⟩] ∧
      Replaced 0#32 vawd1 ([⟨1, 3, fid⟩] ++ portFields 16 1 member ++ [⟨30, 1, 1⟩] ++
        [⟨4, 12, stag⟩] ++ [⟨0, 1, 1⟩] ++ [⟨29, 1, egCon⟩] ++
        [⟨28, 1, if 7 < r.argv.length then 1 else 0⟩]) ∧
      Replaced 0#32 vawd2 (portFields 0 2 tags) ∧
      Replaced 0x80001000#32 vtcr [⟨0, 12, vid⟩]

def AllTaken (r : Run) : Command → Prop
  | aclPortEnable => r.Taken 3 10 8 6 ∧ r.Taken 4 10 8 1
  | doVlanSetPvid => r.Taken 3 10 8 6 ∧ r.Taken 4 10 16 4095
  | doVlanSetVid => r.Taken 3 10 8 15 ∧ r.Taken 4 10 8 1 ∧ r.Taken 5 10 16 4095 ∧
      r.Taken 6 10 8 255 ∧ r.Taken 7 10 8 255 ∧ r.Unless 8 (r.Taken 8 10 8 255) ∧
      r.Unless 9 (r.Taken 9 16 8 255) ∧ r.Unless 10 (r.Taken 10 10 16 65535)
  | doStp => r.Taken 2 10 8 6 ∧ r.Taken 3 10 8 7 ∧ r.Taken 4 10 8 3
  | doVlanSetPortMode => r.Taken 3 10 8 6 ∧ r.Taken 4 10 8 3
  | doMirrorEn => r.Taken 3 10 8 1 ∧ r.Taken 4 10 8 7
  | vlanSet => r.TakenInt 3 0 7 ∧ r.TakenInt 4 0 4095 ∧ (r.portDigits 5 '1').isSome ∧
      r.Unless 6 (r.TakenInt 6 16 4095) ∧
      r.Unless 8 (r.egCon = some 0 → (r.portDigits 8 '3').isSome)

def AllInRange (r : Run) : Command → Prop
  | aclPortEnable => r.InRange 3 10 6 ∧ r.InRange 4 10 1
  | doVlanSetPvid => r.InRange 3 10 6 ∧ r.InRange 4 10 4095
  | doVlanSetVid => r.InRange 3 10 15 ∧ r.InRange 4 10 1 ∧ r.InRange 5 10 4095 ∧
      r.InRange 6 10 255 ∧ r.InRange 7 10 127 ∧ r.Unless 8 (r.InRange 8 10 1) ∧
      r.Unless 9 (r.InRange 9 16 7) ∧ r.Unless 10 (r.InRange 10 10 4095)
  | doStp => r.InRange 2 10 6 ∧ r.InRange 3 10 7 ∧ r.InRange 4 10 3
  | doVlanSetPortMode => r.InRange 3 10 6 ∧ r.InRange 4 10 3
  | doMirrorEn => r.InRange 3 10 1 ∧ r.InRange 4 10 7
  | vlanSet => r.InRange 3 0 7 ∧ r.InRange 4 0 4095 ∧ r.Unless 6 (r.InRange 6 16 4095) ∧
      r.Unless 7 (r.InRange 7 2 1)

end Command

end MetaFilogic.Switch
