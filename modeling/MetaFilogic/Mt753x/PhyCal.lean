import MetaFilogic.Library.EarlyReturn
import Mathlib.Logic.Function.Basic
import Mathlib.Data.BitVec

/-!
# The calibration of the gigabit PHYs

`phy_calibration` of `mt753x_phy.c`: each code is moved from its middle up or down until the
comparator of the PHY changes, and then corrected.  A time-out of the comparator ends the function
that waits for it, and the calibration, with -1.
-/

namespace MetaFilogic.Mt753x

def PHY0 : Nat := 0

def RG_185 : Nat := 0x185

def DAC_IN_0V : BitVec 32 := 0x00

def DAC_IN_2V : BitVec 32 := 0xf0

def TX_AMP_OFFSET_0MV : BitVec 32 := 0x20

def MT753x_ZCAL_TO_R50ohm_GE_TBL_100 : List (BitVec 8) := [
  127, 127, 127, 127, 127, 127, 127, 127,
  127, 127, 127, 127, 127, 123, 122, 117,
  115, 112, 103, 100, 98, 87, 85, 83,
  81, 72, 70, 68, 66, 64, 55, 53,
  52, 50, 49, 48, 38, 36, 35, 34,
  33, 32, 22, 21, 20, 19, 18, 17,
  16, 7, 6, 5, 4, 3, 2, 1,
  0, 0, 0, 0, 0, 0, 0, 0]

def MT753x_TX_OFFSET_TBL : List (BitVec 8) := [
  0x1f, 0x1e, 0x1d, 0x1c, 0x1b, 0x1a, 0x19, 0x18,
  0x17, 0x16, 0x15, 0x14, 0x13, 0x12, 0x11, 0x10,
  0xf, 0xe, 0xd, 0xc, 0xb, 0xa, 0x9, 0x8,
  0x7, 0x6, 0x5, 0x4, 0x3, 0x2, 0x1, 0x0,
  0x20, 0x21, 0x22, 0x23, 0x24, 0x25, 0x26, 0x27,
  0x28, 0x29, 0x2a, 0x2b, 0x2c, 0x2d, 0x2e, 0x2f,
  0x30, 0x31, 0x32, 0x33, 0x34, 0x35, 0x36, 0x37,
  0x38, 0x39, 0x3a, 0x3b, 0x3c, 0x3d, 0x3e, 0x3f]

/-! ## The PHYs -/

/-- What PHY 0 answers to a wait: bit 0 of 1e.17b at each poll, also of the second try, and bit 8 of
1e.17a, the comparator, behind it. -/
structure Wait where
  first : Nat → Bool
  second : Nat → Bool
  compOut : Bool

/-- What a function does with a code: a table is used at an index, or a word is written of which
only the field of the code is to differ from what the function keeps. -/
inductive CodeUse where
  | index (i : Int) (size : Nat)
  | field (mask kept data : BitVec 32)

/-- The registers of the PHYs by port, device and address, the answers that are still to come with
the last one, and the codes that were used.  `outside` is the memory around the table of
`ge_cal_r50`. -/
structure Phys where
  mii : Nat → Nat → BitVec 16
  reg : Nat → Nat → Nat → BitVec 16
  waits : Nat → Wait
  compOut : Bool
  geCalFlag : Bool
  uses : List CodeUse
  outside : Int → BitVec 8

/-- Why a function ends early: it returns -1, or a loop does not end. -/
inductive Stop where
  | timeOut
  | endless
  deriving DecidableEq

abbrev Program := EStateM Stop Phys

def Phys.write (port dev addr : Nat) (data : BitVec 32) (s : Phys) : Phys :=
  { s with
    reg := fun port' dev' addr' =>
      if port' = port ∧ dev' = dev ∧ addr' = addr then data.setWidth 16 else s.reg port' dev' addr' }

def Phys.use (u : CodeUse) (s : Phys) : Phys := { s with uses := s.uses ++ [u] }

def tcPhyWriteDevReg (port dev addr : Nat) (data : BitVec 32) : Program Unit := fun s =>
  .ok () (s.write port dev addr data)

def tcPhyReadDevReg (port dev addr : Nat) : Program (BitVec 32) := fun s =>
  .ok ((s.reg port dev addr).setWidth 32) s

def switchPhyWrite (port addr : Nat) (data : BitVec 32) : Program Unit := fun s =>
  let bank := Function.update (s.mii port) addr (data.setWidth 16)
  .ok () { s with mii := Function.update s.mii port bank }

/-- A write of a code, of which the fields are given by `mask`. -/
def writeCode (port dev addr : Nat) (mask kept data : BitVec 32) : Program Unit := fun s =>
  .ok () ((s.write port dev addr data).use (.field mask kept data))

/-- `ge_cal_flag = 1` -/
def setGeCalFlag : Program Unit := fun s => .ok () { s with geCalFlag := true }

def getGeCalFlag : Program Bool := fun s => .ok s.geCalFlag s

def tableAt (tbl : List (BitVec 8)) (i : Int) : Program (BitVec 8) := fun s =>
  .ok (if 0 ≤ i ∧ i < tbl.length then tbl.getD i.toNat 0 else s.outside i)
    (s.use (.index i tbl.length))

/-! ## Waiting -/

/-- The loop over `cnt` polls ends with the status 1. -/
def polls (status : Nat → Bool) : Nat → Nat → Bool
  | 0, _ => false
  | cnt + 1, i => status i || polls status cnt (i + 1)

def later (waits : Nat → Wait) : Nat → Wait := fun n => waits (n + 1)

def nextWait : Program Wait := fun s =>
  .ok (s.waits 0) { s with waits := later s.waits, compOut := (s.waits 0).compOut }

def allGeAnaCalWait : Program Bool := do
  tcPhyWriteDevReg PHY0 0x1e 0x17c 1
  let answer ← nextWait
  if polls answer.first 10000 0 then
    tcPhyWriteDevReg PHY0 0x1e 0x17c 0
    return true
  else
    tcPhyWriteDevReg PHY0 0x1e 0x17c 0
    tcPhyWriteDevReg PHY0 0x1e 0x17c 1
    tcPhyWriteDevReg PHY0 0x1e 0x17c 0
    return polls answer.second 10000 0

def adCalCompOut : Program Bool := fun s => .ok s.compOut s

def calWait : Program Bool := do
  let status ← allGeAnaCalWait
  if status then adCalCompOut else throw .timeOut

inductive AnaCal where
  | error
  | saturation
  | finish
  deriving DecidableEq

/-- `while (all_ana_cal_status < ANACAL_ERROR)` -/
def sweepLoop {w : Nat} (put : BitVec w → Program Unit) (polarity : BitVec w) (init : Bool) :
    Nat → BitVec w → Program (AnaCal × BitVec w)
  | 0, _ => throw .endless
  | fuel + 1, code => do
    let code := code + polarity
    put code
    let compOut ← calWait
    if compOut ≠ init then return (.finish, code)
    else if code = 0x3f ∨ code = 0 then return (.saturation, code)
    else sweepLoop put polarity init fuel code

def sweep {w : Nat} (put : BitVec w → Program Unit) (polarity : Bool → BitVec w)
    (code : BitVec w) : Program (AnaCal × BitVec w) := do
  let init ← calWait
  sweepLoop put (polarity init) init 64 code

def downWhenSet {w : Nat} (init : Bool) : BitVec w := if init then -1 else 1

def upWhenSet {w : Nat} (init : Bool) : BitVec w := if init then 1 else -1

/-! ## The resistors -/

def zeroDb {w : Nat} : BitVec w := 0x20

def geCalRext (phyaddr : Nat) : Program Unit := do
  tcPhyWriteDevReg PHY0 0x1e 0xdb 0x1110
  tcPhyWriteDevReg PHY0 0x1e 0xdc 0
  let dev1eE0 ← tcPhyReadDevReg PHY0 0x1e 0xe0
  writeCode PHY0 0x1e 0xe0 0x3f 0 0x20
  let (status, zcalCtrl) ← sweep (w := 8)
    (fun code => writeCode PHY0 0x1e 0xe0 0x3f 0 (code.setWidth 32)) downWhenSet zeroDb
  match status with
  | .error => writeCode PHY0 0x1e 0xe0 0x3f dev1eE0 (dev1eE0 ||| 0x20)
  | .finish =>
    let code := zcalCtrl.setWidth 32
    writeCode PHY0 0x1e 0xe0 0x3f3f 0 (code <<< 8 ||| code)
    writeCode PHY0 0x1f 0x115 0x7 0 ((code &&& 0x3f) >>> 3)
    setGeCalFlag
  | .saturation => pure ()
  tcPhyWriteDevReg PHY0 0x1e 0xdb 0
  tcPhyWriteDevReg phyaddr 0x1e 0xdb 0
  tcPhyWriteDevReg PHY0 0x1e 0xdc 0
  tcPhyWriteDevReg phyaddr 0x1e 0xdc 0

inductive Pair where
  | a
  | b
  | c
  | d
  deriving DecidableEq

def Pair.all : List Pair := [.a, .b, .c, .d]

/-- `1e_db` and `1e_dc` for a pair. -/
def Pair.zcalen : Pair → BitVec 32 × BitVec 32
  | .a => (0x1101, 0x0000)
  | .b => (0x1100, 0x1000)
  | .c => (0x1100, 0x0100)
  | .d => (0x1100, 0x0010)

def Pair.r50 : Pair → Nat × Nat
  | .a => (0x174, 8)
  | .b => (0x174, 0)
  | .c => (0x175, 8)
  | .d => (0x175, 0)

def geCalR50Pair (phyaddr : Nat) (pair : Pair) : Program Unit := do
  let dev1eE0 ← tcPhyReadDevReg PHY0 0x1e 0xe0
  let r5 := dev1eE0 &&& ~~~0x3f#32
  writeCode PHY0 0x1e 0xe0 0x3f r5 (r5 ||| 0x20)
  tcPhyWriteDevReg phyaddr 0x1e 0xdb pair.zcalen.1
  tcPhyWriteDevReg phyaddr 0x1e 0xdc pair.zcalen.2
  let (status, zcalCtrl) ← sweep (w := 8)
    (fun code => writeCode PHY0 0x1e 0xe0 0x3f r5 (r5 ||| code.setWidth 32)) downWhenSet zeroDb
  let zcalCtrl ←
    match status with
    | .error => pure 0x20
    | _ => tableAt MT753x_ZCAL_TO_R50ohm_GE_TBL_100 (zcalCtrl.toNat - 9)
  let (reg, shift) := pair.r50
  let old ← tcPhyReadDevReg phyaddr 0x1e reg
  let old := old &&& ~~~(0x7f#32 <<< shift)
  writeCode phyaddr 0x1e reg (0x7f#32 <<< shift) (old ||| 0x80#32 <<< shift)
    (old ||| ((zcalCtrl.setWidth 32 <<< shift &&& 0xff#32 <<< shift) ||| 0x80#32 <<< shift))

def geCalR50 (phyaddr : Nat) : Program Unit := do
  tcPhyWriteDevReg PHY0 0x1e 0xdb 0x1100
  tcPhyWriteDevReg PHY0 0x1e 0xdc 0x0000
  Pair.all.forM (geCalR50Pair phyaddr)
  tcPhyWriteDevReg PHY0 0x1e 0xdb 0x0000
  tcPhyWriteDevReg phyaddr 0x1e 0xdb 0x0000
  tcPhyWriteDevReg PHY0 0x1e 0xdc 0x0000
  tcPhyWriteDevReg phyaddr 0x1e 0xdc 0x0000

/-! ## The transmitter -/

/-- `1e_dd` and the two `dac_in` registers for a pair. -/
def Pair.txgCalen : Pair → BitVec 32 × Nat × Nat
  | .a => (0x1000, 0x17d, 0x181)
  | .b => (0x0100, 0x17e, 0x182)
  | .c => (0x0010, 0x17f, 0x183)
  | .d => (0x0001, 0x180, 0x184)

def enablePair (phyaddr : Nat) (pair : Pair) (dacIn : BitVec 32) : Program Unit := do
  let (dd, dacIn0, dacIn1) := pair.txgCalen
  tcPhyWriteDevReg phyaddr 0x1e 0xdd dd
  tcPhyWriteDevReg phyaddr 0x1e dacIn0 (0x8000 ||| dacIn)
  tcPhyWriteDevReg phyaddr 0x1e dacIn1 (0x8000 ||| dacIn)

/-- `for(i = 0; i <= 4; i++)` over `1e_dd` -/
def clearCalen : Program Unit := [0, 1, 2, 3, 4].forM fun i => tcPhyWriteDevReg i 0x1e 0xdd 0x0000

def disableTxCal (phyaddr : Nat) : Program Unit := do
  [0x17d, 0x17e, 0x17f, 0x180, 0x181, 0x182, 0x183, 0x184].forM fun addr =>
    tcPhyWriteDevReg phyaddr 0x1e addr 0x0000
  tcPhyWriteDevReg PHY0 0x1e 0xdb 0x0000
  tcPhyWriteDevReg PHY0 0x1e 0xdc 0x0000
  tcPhyWriteDevReg phyaddr 0x1e 0xdb 0x0000
  tcPhyWriteDevReg phyaddr 0x1e 0xdc 0x0000
  tcPhyWriteDevReg phyaddr 0x1e 0x3e 0x0000
  tcPhyWriteDevReg phyaddr 0x1e 0xdd 0x0000

def Pair.txOffset : Pair → Nat × Nat
  | .a => (0x172, 8)
  | .b => (0x172, 0)
  | .c => (0x173, 8)
  | .d => (0x173, 0)

def putTxOffset (phyaddr reg shift : Nat) (regTemp : BitVec 32) (tablIdx : BitVec 8) :
    Program Unit := do
  let calTemp ← tableAt MT753x_TX_OFFSET_TBL tablIdx.toNat
  writeCode phyaddr 0x1e reg (0x3f#32 <<< shift) regTemp
    (regTemp ||| calTemp.setWidth 32 <<< shift)

def geCalTxOffsetPair (phyaddr : Nat) (pair : Pair) : Program Unit := do
  let temp ← tableAt MT753x_TX_OFFSET_TBL 31
  enablePair phyaddr pair DAC_IN_0V
  let (reg, shift) := pair.txOffset
  let old ← tcPhyReadDevReg phyaddr 0x1e reg
  let regTemp := old &&& ~~~(0x3f#32 <<< shift)
  writeCode phyaddr 0x1e reg (0x3f#32 <<< shift) regTemp (regTemp ||| temp.setWidth 32 <<< shift)
  let (status, tablIdx) ← sweep (putTxOffset phyaddr reg shift regTemp) upWhenSet 31
  match status with
  | .error =>
    writeCode phyaddr 0x1e reg (0x3f#32 <<< shift) regTemp (regTemp ||| TX_AMP_OFFSET_0MV <<< shift)
  | _ =>
    let _ ← tableAt MT753x_TX_OFFSET_TBL tablIdx.toNat
    pure ()

def geCalTxOffset (phyaddr : Nat) : Program Unit := do
  tcPhyWriteDevReg PHY0 0x1e 0xdb 0x0100
  tcPhyWriteDevReg PHY0 0x1e 0xdc 0x0001
  tcPhyWriteDevReg phyaddr 0x1e 0x96 0x8000
  tcPhyWriteDevReg phyaddr 0x1e 0x3e 0xf808
  clearCalen
  Pair.all.forM (geCalTxOffsetPair phyaddr)
  disableTxCal phyaddr

def Pair.txAmp : Pair → Nat × Nat × Nat
  | .a => (0x12, 0x16, 10)
  | .b => (0x17, 0x18, 8)
  | .c => (0x19, 0x20, 8)
  | .d => (0x21, 0x22, 8)

/-- What is subtracted from `tx_amp_temp` behind a sweep. -/
def txAmpLess (phyaddr : Nat) (pair : Pair) : BitVec 32 :=
  match phyaddr, pair with
  | 0, .a => 2
  | 0, .b => 1
  | 0, .c => 2
  | 0, .d => 1
  | 1, .a => 1
  | 1, .c => 1
  | 1, .d => 1
  | 2, .b => 1
  | 2, .d => 1
  | 4, .b => 1
  | _, _ => 0

/-- What is added to the word for `tx_amp_reg`. -/
def txAmpMore (phyaddr : Nat) (pair : Pair) : Option (BitVec 32) :=
  match phyaddr, pair with
  | 0, .a => some 7
  | 0, .b => some 7
  | 1, .a => some 9
  | 1, .b => some 7
  | 2, .a => some 6
  | 2, .b => some 6
  | 3, .a => some 4
  | 3, .b => some 7
  | 4, .a => some 5
  | 4, .b => some 5
  | _, _ => none

/-- What is added to the upper code in `tx_amp_reg_100`. -/
def txAmpMore100 (phyaddr : Nat) (pair : Pair) : Option (BitVec 32) :=
  match phyaddr, pair with
  | 0, .a => some (1 + 4)
  | 0, .b => some 4
  | 1, .a => some 4
  | 1, .b => some (-1 + 4)
  | 2, .a => some (-1 + 4)
  | 2, .b => some (-1 + 4)
  | 3, .a => some (-2 + 4)
  | 3, .b => some (-1 + 3)
  | 4, .a => some (-2 + 4)
  | 4, .b => some (-1 + 4)
  | _, _ => none

def bothFields (shift : Nat) (low high : BitVec 32) : BitVec 32 := low ||| high <<< shift

/-- The mask of the fields of `ge_cal_tx_amp`. -/
def ampMask (shift : Nat) : BitVec 32 := bothFields shift 0x3f 0x3f

def lowerAmp (phyaddr : Nat) (pair : Pair) : Program Unit := do
  let (reg, reg100, shift) := pair.txAmp
  let backup ← tcPhyReadDevReg phyaddr 0x1e reg
  let tmp := ((backup &&& 0x3f#32 <<< shift) >>> shift) - 8
  match pair with
  | .a | .b => writeCode phyaddr 0x1e reg (ampMask shift) 0 (tmp <<< shift ||| tmp)
  | .c | .d =>
    let backup := backup &&& ~~~(0x3f#32 <<< shift)
    writeCode phyaddr 0x1e reg (0x3f#32 <<< shift) backup (backup ||| tmp <<< shift)
  let backup ← tcPhyReadDevReg phyaddr 0x1e reg100
  let tmp := (backup &&& 0x3f) - 8
  let backup := backup &&& ~~~0x3f#32
  writeCode phyaddr 0x1e reg100 0x3f backup (backup ||| tmp)

/-- What `ge_cal_tx_amp` does at `ANACAL_FINISH`. -/
def finishAmp (phyaddr : Nat) (pair : Pair) (temp : BitVec 32) : Program Unit := do
  let (reg, reg100, shift) := pair.txAmp
  let temp := temp - txAmpLess phyaddr pair
  writeCode phyaddr 0x1e reg100 (ampMask shift) 0 (bothFields shift temp temp)
  writeCode phyaddr 0x1e reg (ampMask shift) 0 (bothFields shift temp temp)
  match txAmpMore phyaddr pair with
  | none => pure ()
  | some more =>
    writeCode phyaddr 0x1e reg (ampMask shift) 0 (bothFields shift temp temp + more)
  match txAmpMore100 phyaddr pair with
  | none => pure ()
  | some more =>
    writeCode phyaddr 0x1e reg100 (ampMask shift) 0 (bothFields shift temp (temp + more))
  lowerAmp phyaddr pair

def putTxAmp (phyaddr reg reg100 shift : Nat) (temp : BitVec 32) : Program Unit := do
  writeCode phyaddr 0x1e reg (ampMask shift) 0 (bothFields shift temp temp)
  writeCode phyaddr 0x1e reg100 (ampMask shift) 0 (bothFields shift temp temp)

def geCalTxAmpPair (phyaddr : Nat) (pair : Pair) : Program Unit := do
  enablePair phyaddr pair DAC_IN_2V
  let (reg, reg100, shift) := pair.txAmp
  let old ← tcPhyReadDevReg phyaddr 0x1e reg
  let regTemp := old &&& ~~~(0x3f#32 <<< shift)
  putTxAmp phyaddr reg reg100 shift 0x20
  let (status, temp) ← sweep (putTxAmp phyaddr reg reg100 shift) downWhenSet zeroDb
  match status with
  | .error =>
    writeCode phyaddr 0x1e reg (0x3f#32 <<< shift) regTemp (regTemp ||| 0x20 <<< shift)
  | .finish => finishAmp phyaddr pair temp
  | .saturation => pure ()

def geCalTxAmp (phyaddr : Nat) : Program Unit := do
  tcPhyWriteDevReg PHY0 0x1e 0xdb 0x1100
  tcPhyWriteDevReg PHY0 0x1e 0xdc 0x0001
  tcPhyWriteDevReg PHY0 0x1e 0xe1 0x0010
  tcPhyWriteDevReg phyaddr 0x1e 0x3e 0xf808
  let orig1e11 ← tcPhyReadDevReg phyaddr 0x1e 0x11
  tcPhyWriteDevReg phyaddr 0x1e 0x11 0xff00
  tcPhyWriteDevReg phyaddr 0x1e 0xc9 0xffff
  let orig1f300 ← tcPhyReadDevReg phyaddr 0x1f 0x300
  tcPhyWriteDevReg phyaddr 0x1f 0x300 0x4
  clearCalen
  Pair.all.forM (geCalTxAmpPair phyaddr)
  disableTxCal phyaddr
  tcPhyWriteDevReg phyaddr 0x1e 0xc9 0x0fff
  tcPhyWriteDevReg phyaddr 0x1e 0x145 0x1000
  tcPhyWriteDevReg phyaddr 0x1e 0x11 orig1e11
  tcPhyWriteDevReg phyaddr 0x1f 0x300 orig1f300

/-! ## The calibration of a port -/

/-- The calibrations of `phy_calibration`, the first of which is done once. -/
def calibrate (phyaddr : Nat) : Program Unit := do
  let geCalFlag ← getGeCalFlag
  if !geCalFlag then
    geCalRext 0
    setGeCalFlag
  geCalR50 phyaddr
  geCalTxOffset phyaddr
  geCalTxAmp phyaddr

/-- The end of `phy_calibration`, where the registers of its beginning are restored. -/
def restore (phyaddr : Nat) (orig1e185 orig1f100 orig1e11 orig1eE1 : BitVec 32) : Program Unit := do
  [(0x3a8, 0x0810), (0x3aa, 0x0008), (0x3ab, 0x0810), (0x3ad, 0x0008), (0x3ae, 0x0106),
    (0x3b0, 0x0001), (0x3b1, 0x0106), (0x3b3, 0x0001), (0x18c, 0x0001), (0x18d, 0x0001),
    (0x18e, 0x0001), (0x18f, 0x0001)].forM fun (entry : Nat × BitVec 32) =>
      tcPhyWriteDevReg phyaddr 0x1e entry.1 entry.2
  let regTmp ← tcPhyReadDevReg phyaddr 0x1e 0x3aa
  tcPhyWriteDevReg phyaddr 0x1e 0x3aa (regTmp &&& ~~~0x1f00#32 ||| 0x2 <<< 8)
  let regTmp ← tcPhyReadDevReg phyaddr 0x1e 0x3a9
  tcPhyWriteDevReg phyaddr 0x1e 0x3a9 (regTmp &&& ~~~0x1f#32 ||| 0x2)
  tcPhyWriteDevReg phyaddr 0x1e RG_185 orig1e185
  tcPhyWriteDevReg phyaddr 0x1f 0x100 orig1f100
  tcPhyWriteDevReg phyaddr 0x1e 0x11 orig1e11
  tcPhyWriteDevReg PHY0 0x1e 0xe1 orig1eE1

def phyCalibration (phyaddr : Nat) : Program Unit := do
  switchPhyWrite phyaddr 0 0x140
  tcPhyWriteDevReg phyaddr 0x1e 0x145 0x1010
  let orig1e185 ← tcPhyReadDevReg phyaddr 0x1e RG_185
  tcPhyWriteDevReg phyaddr 0x1e RG_185 0
  let orig1f100 ← tcPhyReadDevReg phyaddr 0x1f 0x100
  tcPhyWriteDevReg phyaddr 0x1f 0x100 0xc000
  let orig1e11 ← tcPhyReadDevReg phyaddr 0x1e 0x11
  let regTmp ← tcPhyReadDevReg phyaddr 0x1e 0x11
  tcPhyWriteDevReg phyaddr 0x1e 0x11 (regTmp ||| 0xf <<< 12)
  let orig1eE1 ← tcPhyReadDevReg PHY0 0x1e 0xe1
  tcPhyWriteDevReg PHY0 0x1e 0xe1 0x10
  calibrate phyaddr
  restore phyaddr orig1e185 orig1f100 orig1e11 orig1eE1

end MetaFilogic.Mt753x
