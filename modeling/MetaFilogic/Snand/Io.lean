import MetaFilogic.Snand.Soc
import Mathlib.Logic.Function.Basic

/-!
# Commands on the SPI bus

Every command goes through `mtk_snand_mac_io`.  A stream of `Transfer`s says what each of them
comes back with, and `State.log` keeps the bytes sent with what came back, latest first.  The chip
acts on the commands that reach it.
-/

namespace MetaFilogic.Snand

/-! ## Commands -/

def SNAND_CMD_GET_FEATURE : Byte := 0x0f
def SNAND_CMD_SET_FEATURE : Byte := 0x1f
def SNAND_CMD_READ_TO_CACHE : Byte := 0x13
def SNAND_CMD_PROGRAM_EXECUTE : Byte := 0x10
def SNAND_CMD_BLOCK_ERASE : Byte := 0xd8
def SNAND_CMD_WRITE_ENABLE : Byte := 0x06
def SNAND_CMD_WINBOND_SELECT_DIE : Byte := 0xc2

def SNAND_FEATURE_STATUS_ADDR : Byte := 0xc0
def SNAND_FEATURE_CONFIG_ADDR : Byte := 0xb0
def SNAND_FEATURE_PROTECT_ADDR : Byte := 0xa0
def SNAND_FEATURE_MICRON_DIE_ADDR : Byte := 0xd0

def SNAND_STATUS_OIP : CInt := 1
def SNAND_STATUS_WEL : CInt := 2
def SNAND_STATUS_ERASE_FAIL : CInt := 4
def SNAND_STATUS_PROGRAM_FAIL : CInt := 8

def SNAND_FEATURE_QUAD_ENABLE : Byte := 1
def SNAND_FEATURE_ECC_EN : Byte := 16
def SNAND_MICRON_DIE_SEL_1 : Byte := 64

/-! ## Transfers -/

/-- What a transfer comes back with: the byte read, or a negative error code. -/
inductive Transfer where
  | ok (value : Byte)
  | error (code : CInt) (negative : code.msb = true)
  deriving DecidableEq

namespace Transfer

/-- What `mtk_snand_mac_io` returns. -/
def ret : Transfer → CInt
  | .ok _ => 0
  | .error code _ => code

/-- What `mtk_snand_get_feature` returns. -/
def value : Transfer → CInt
  | .ok value => value.setWidth 32
  | .error code _ => code

theorem ret_eq_zero_iff {transfer : Transfer} : transfer.ret = 0 ↔ ∃ v, transfer = .ok v := by
  cases transfer with
  | ok v => exact ⟨fun _ => ⟨v, rfl⟩, fun _ => rfl⟩
  | error code negative =>
    constructor
    · intro zero
      rw [show code = 0 from zero] at negative
      exact absurd negative (by decide)
    · rintro ⟨v, same⟩
      exact absurd same (by simp)

theorem value_msb {transfer : Transfer} : transfer.value.msb = true ↔ transfer.ret ≠ 0 := by
  cases transfer with
  | ok v =>
    have low : (v.setWidth 32).msb = false := by
      rw [BitVec.msb_setWidth]
      simp
    simp [value, ret, low]
  | error code negative =>
    have nonzero : code ≠ 0 := by
      rintro rfl
      exact absurd negative (by decide)
    exact ⟨fun _ => nonzero, fun _ => negative⟩

end Transfer

abbrev Bytes := Nat → Byte

structure Chip where
  flash : Nat → Bytes
  cache : Bytes

/-- What lies outside of the driver: what the transfers come back with, how often the timer lets a
wait poll again, and what `mtk_snand_program_load` gets from the NFI, each by the number of
transfers so far.  `parity` is the ECC engine: the parity bytes of a sector's data and FDM.  A block
of the chip has `2 ^ blockShift` pages. -/
structure Bus where
  blockShift : Nat
  transfer : Nat → Transfer
  polls : Nat → Nat
  load : Nat → CInt
  parity : Bytes → Bytes → Bytes

/-- The transfers so far, the two buffers of the driver and the chip. -/
structure State where
  clock : Nat
  log : List (List Byte × Transfer)
  pageCache : Bytes
  bufCache : Bytes
  chip : Chip

abbrev SnandM := StateM State

def pageNumber (high mid low : Byte) : Nat := (high ++ mid ++ low).toNat

def Chip.act (chip : Chip) (blockShift : Nat) : List Byte → Chip
  | [command, high, mid, low] =>
    let page := pageNumber high mid low
    if command = SNAND_CMD_READ_TO_CACHE then { chip with cache := chip.flash page }
    else if command = SNAND_CMD_PROGRAM_EXECUTE then
      { chip with flash := Function.update chip.flash page chip.cache }
    else if command = SNAND_CMD_BLOCK_ERASE then
      { chip with
        flash := fun other => if other >>> blockShift = page >>> blockShift then fun _ => 0xff
          else chip.flash other }
    else chip
  | _ => chip

section Commands

variable (bus : Bus)

def mtkSnandMacIo (out : List Byte) : SnandM Transfer := fun s =>
  let transfer := bus.transfer s.clock
  (transfer,
    { s with
      clock := s.clock + 1
      log := (out, transfer) :: s.log
      chip := if transfer.ret = 0 then s.chip.act bus.blockShift out else s.chip })

def mtkSnandGetFeature (addr : Byte) : SnandM CInt := do
  return (← mtkSnandMacIo bus [SNAND_CMD_GET_FEATURE, addr]).value

def mtkSnandSetFeature (addr val : Byte) : SnandM CInt := do
  return (← mtkSnandMacIo bus [SNAND_CMD_SET_FEATURE, addr, val]).ret

/-- One pass of the loop of `mtk_snand_poll_status`: what it returns when it ends the wait. -/
def pollOnce : SnandM (Option CInt) := do
  let val ← mtkSnandGetFeature bus SNAND_FEATURE_STATUS_ADDR
  if val &&& SNAND_STATUS_OIP = 0 then
    return some (val &&& (SNAND_STATUS_ERASE_FAIL ||| SNAND_STATUS_PROGRAM_FAIL))
  else return none

/-- The loop of `mtk_snand_poll_status`, with the number of passes the timer still allows after the
next one. -/
def pollFrom : Nat → SnandM CInt
  | 0 => do return (← pollOnce bus).getD (errno ETIMEDOUT)
  | polls + 1 => do
    match ← pollOnce bus with
    | some ret => return ret
    | none => pollFrom polls

def mtkSnandPollStatus : SnandM CInt := fun s => pollFrom bus (bus.polls s.clock) s

def mtkSnandConfigFeature (clr set : Byte) : SnandM CInt := do
  let val ← mtkSnandGetFeature bus SNAND_FEATURE_CONFIG_ADDR
  if val.msb then return val
  else
    let newval := (val &&& ~~~clr.setWidth 32) ||| set.setWidth 32
    if newval = val then return 0
    else
      -- The test after the write looks at the value read before it.
      let _ ← mtkSnandSetFeature bus SNAND_FEATURE_CONFIG_ADDR (newval.setWidth 8)
      let val ← mtkSnandGetFeature bus SNAND_FEATURE_CONFIG_ADDR
      if val.msb then return val
      else if newval ≠ val then return errno ENOTSUPP
      else return 0

def mtkSnandOndieEccControl (enable : Bool) : SnandM CInt :=
  if enable then mtkSnandConfigFeature bus 0 SNAND_FEATURE_ECC_EN
  else mtkSnandConfigFeature bus SNAND_FEATURE_ECC_EN 0

def mtkSnandQspiControl (enable : Bool) : SnandM CInt :=
  if enable then mtkSnandConfigFeature bus 0 SNAND_FEATURE_QUAD_ENABLE
  else mtkSnandConfigFeature bus SNAND_FEATURE_QUAD_ENABLE 0

def mtkSnandUnlock : SnandM CInt := mtkSnandSetFeature bus SNAND_FEATURE_PROTECT_ADDR 0

def mtkSnandWriteEnable : SnandM CInt := do
  let ret := (← mtkSnandMacIo bus [SNAND_CMD_WRITE_ENABLE]).ret
  if ret ≠ 0 then return ret
  else
    let val ← mtkSnandGetFeature bus SNAND_FEATURE_STATUS_ADDR
    if val.msb then return ret
    else if val &&& SNAND_STATUS_WEL ≠ 0 then return 0
    else return errno ENOTSUPP

def mtkSnandWinbondSelectDie (dieidx : Nat) : SnandM CInt := do
  if 1 < dieidx then return errno EINVAL
  else return (← mtkSnandMacIo bus [SNAND_CMD_WINBOND_SELECT_DIE, BitVec.ofNat 8 dieidx]).ret

def mtkSnandMicronSelectDie (dieidx : Nat) : SnandM CInt := do
  if 1 < dieidx then return errno EINVAL
  else mtkSnandSetFeature bus SNAND_FEATURE_MICRON_DIE_ADDR SNAND_MICRON_DIE_SEL_1

def mtkSnandSelectDie (selectDie : Option SelectDie) (dieidx : Nat) : SnandM CInt :=
  match selectDie with
  | none => return 0
  | some .winbond => mtkSnandWinbondSelectDie bus dieidx
  | some .micron => mtkSnandMicronSelectDie bus dieidx

def mtkSnandSelectDieAddress (snf : MtkSnand) (addr : Nat) : SnandM Nat := do
  if snf.selectDie = none then return addr
  else
    let _ ← mtkSnandSelectDie bus snf.selectDie (u32 (addr >>> snf.dieShift))
    return addr &&& snf.dieMask

def mtkSnandPageOp (page : Nat) (cmd : Byte) : SnandM CInt := do
  return (← mtkSnandMacIo bus
    [cmd, BitVec.ofNat 8 (page >>> 16), BitVec.ofNat 8 (page >>> 8), BitVec.ofNat 8 page]).ret

end Commands

end MetaFilogic.Snand
