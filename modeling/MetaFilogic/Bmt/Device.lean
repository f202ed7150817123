import MetaFilogic.Library.StateProgram
import Mathlib.Logic.Function.Basic
import Mathlib.Data.Nat.Bitwise

/-!
# The flash under the bad block layer

`Desc` is the part of `struct bmt_desc` that is fixed once a chip is attached.
The lower driver's `_read_oob`, `_write_oob` and `_erase` act on a flash of
pages; a stream of `Fault`s decides call by call what they return.  A call that
succeeds has its documented effect, a failing write or erase may leave anything
in the pages it was given and nothing anywhere else.

`State.trace` is ghost: it keeps the state in which each remap was started.  No
function of the driver reads it.
-/

namespace MetaFilogic

namespace Bmt

/-! ## Constants -/

def EIO : Int := 5
def EINVAL : Int := 22
def EBADMSG : Int := 74
def EUCLEAN : Int := 117

def MAIN_SIGNATURE_OFFSET : Nat := 0
def OOB_SIGNATURE_OFFSET : Nat := 1

def u16 (value : Nat) : Nat := value % 2 ^ 16

def u32 (value : Nat) : Nat := value % 2 ^ 32

def mtdIsBitflip (err : Int) : Bool := err == -EUCLEAN

theorem u16_lt (value : Nat) : u16 value < 2 ^ 16 :=
  Nat.mod_lt _ (by decide)

theorem u16_of_lt {value : Nat} (small : value < 2 ^ 16) : u16 value = value :=
  Nat.mod_eq_of_lt small

/-! ## Flash -/

/-- Two bytes of the main area, the unit of the tables this layer stores. -/
abbrev Half := BitVec 16

abbrev Byte := BitVec 8

/-- One page: main area, spare area, and whether its bit errors can be
corrected. -/
structure PageData where
  data : Nat → Half
  oob : Nat → Byte
  readable : Bool

abbrev Flash := Nat → PageData

def erasedPage : PageData where
  data _ := 0xffff
  oob _ := 0xff
  readable := true

/-- What the lower driver does at one call: return codes, the number of spare
bytes a read reports, the main bytes a failing read leaves in the buffer, and
the pages a failing write or erase leaves behind (`none` for unchanged). -/
structure Fault where
  readRet : Int := 0
  oobretlen : Nat := 0
  readLeaves : Option (Nat → Half) := none
  writeRet : Int := 0
  writeLeaves : Option (Nat → PageData) := none
  eraseRet : Int := 0
  eraseLeaves : Option (Nat → PageData) := none

/-- The constants of `struct bmt_desc`, with the device tree properties they are
computed from.  An empty `remapRange` is an absent property. -/
structure Desc where
  totalBlks : Nat
  blkShift : Nat
  pgShift : Nat
  bmtPoolSize : Nat
  tableSize : Nat
  oobOffset : Nat
  bitflipThreshold : Nat
  remapRange : List (Nat × Nat)
  fault : Nat → Fault
  totalBlks_pos : 0 < totalBlks
  totalBlks_lt : totalBlks < 2 ^ 16
  pgShift_pos : 0 < pgShift
  pgShift_le : pgShift ≤ blkShift
  tableSize_le : tableSize ≤ 2 ^ 16

namespace Desc

variable (d : Desc)

def blkSize : Nat := 2 ^ d.blkShift

def pgSize : Nat := 2 ^ d.pgShift

def pgWords : Nat := 2 ^ (d.pgShift - 1)

def pages : Nat := 2 ^ (d.blkShift - d.pgShift)

def totalPages : Nat := d.totalBlks * d.pages

def blkPg (block : Nat) : Nat := block * d.pages

theorem pages_pos : 0 < d.pages :=
  Nat.two_pow_pos _

def setBlock (flash : Flash) (block : Nat) (contents : Nat → PageData) : Flash :=
  fun page => if page / d.pages = block then contents page else flash page

def afterErase (fault : Fault) (flash : Flash) (block : Nat) : Flash :=
  if fault.eraseRet = 0 then
    d.setBlock flash block fun _ => erasedPage
  else
    match fault.eraseLeaves with
    | none => flash
    | some contents => d.setBlock flash block contents

end Desc

def setPages (flash : Flash) (first count : Nat) (contents : Nat → PageData) : Flash :=
  fun page => if first ≤ page ∧ page < first + count then contents page else flash page

def afterWrite (fault : Fault) (flash : Flash) (first count : Nat)
    (contents : Nat → PageData) : Flash :=
  if 0 ≤ fault.writeRet then
    setPages flash first count contents
  else
    match fault.writeLeaves with
    | none => flash
    | some left => setPages flash first count left

/-! ## Machine state -/

structure Remap (μ : Type) where
  block : Nat
  mapped : Nat
  copyLen : Nat
  mem : μ
  flash : Flash
  clock : Nat

/-- The memory of the mapping back-end, the chip, the number of calls of the
lower driver so far and the ghost trace (latest record first). -/
structure State (μ : Type) where
  mem : μ
  flash : Flash
  clock : Nat
  trace : List (Remap μ)

/-- Code of the bad block layer over the memory of one back-end. -/
abbrev BmtM (μ : Type) := StateM (State μ)

section Calls

variable {μ : Type} (d : Desc)

def getMem : BmtM μ μ := fun s => (s.mem, s)

def modifyMem (update : μ → μ) : BmtM μ Unit :=
  fun s => ((), { s with mem := update s.mem })

def noteRemap (block mapped copyLen : Nat) : BmtM μ Unit :=
  fun s => ((), { s with
    trace := ⟨block, mapped, copyLen, s.mem, s.flash, s.clock⟩ :: s.trace })

def nextFault : BmtM μ Fault :=
  fun s => (d.fault s.clock, { s with clock := s.clock + 1 })

/-- The return code of a read of `count` pages: an uncorrectable page makes it an
error other than `-EUCLEAN`. -/
def readRet (fault : Fault) (flash : Flash) (first count : Nat) : Int :=
  if (List.range count).all fun index => (flash (first + index)).readable then
    fault.readRet
  else if fault.readRet < 0 ∧ !mtdIsBitflip fault.readRet then
    fault.readRet
  else
    -EBADMSG

/-- `bmtd._read_oob` on `count` pages: the return code, the behaviour behind it
and the flash it read. -/
def readOob (first count : Nat) : BmtM μ (Int × Fault × Flash) := do
  let fault ← nextFault d
  let s ← get
  if d.totalPages < first + count then
    return (-EINVAL, fault, s.flash)
  else
    return (readRet fault s.flash first count, fault, s.flash)

/-- `bmtd._write_oob` on `count` pages. -/
def writeOob (first count : Nat) (contents : Flash → Nat → PageData) : BmtM μ Int := do
  let fault ← nextFault d
  if d.totalPages < first + count then
    return -EINVAL
  else
    modify fun s => { s with
      flash := afterWrite fault s.flash first count (contents s.flash) }
    return fault.writeRet

def bbtNandErase (block : Nat) : BmtM μ Int := do
  let fault ← nextFault d
  if d.totalBlks ≤ block then
    return -EINVAL
  else
    modify fun s => { s with flash := d.afterErase fault s.flash block }
    return fault.eraseRet

/-- Reads this layer takes for failed: `bbt_nand_read` hands a negative return
value up and turns a count of bitflips into success. -/
def bbtNandRead (page count : Nat) : BmtM μ (Int × Fault × Flash) := do
  let (ret, fault, flash) ← readOob d page count
  return (if ret < 0 then ret else 0, fault, flash)

end Calls

/-! ## What one call does -/

section Runs

variable {μ : Type} (d : Desc) (s : State μ)

theorem readOob_run (first count : Nat) :
    readOob d first count s =
      ((if d.totalPages < first + count then -EINVAL
        else readRet (d.fault s.clock) s.flash first count, d.fault s.clock, s.flash),
        { s with clock := s.clock + 1 }) := by
  by_cases outside : d.totalPages < first + count
  · simp only [readOob, if_pos outside]
    rfl
  · simp only [readOob, if_neg outside]
    rfl

theorem bbtNandRead_run (page count : Nat) :
    bbtNandRead d page count s =
      ((if (readOob d page count s).1.1 < 0 then (readOob d page count s).1.1 else 0,
        d.fault s.clock, s.flash), { s with clock := s.clock + 1 }) := by
  rw [readOob_run]
  show (let read := readOob d page count s
    ((if read.1.1 < 0 then read.1.1 else 0, read.1.2.1, read.1.2.2), read.2)) = _
  rw [readOob_run]

theorem writeOob_run (first count : Nat) (contents : Flash → Nat → PageData) :
    writeOob d first count contents s =
      if d.totalPages < first + count then (-EINVAL, { s with clock := s.clock + 1 })
      else ((d.fault s.clock).writeRet, { s with
        clock := s.clock + 1
        flash := afterWrite (d.fault s.clock) s.flash first count (contents s.flash) }) := by
  split <;> rename_i outside
  · simp only [writeOob, if_pos outside]
    rfl
  · simp only [writeOob, if_neg outside]
    rfl

theorem bbtNandErase_run (block : Nat) :
    bbtNandErase d block s =
      if d.totalBlks ≤ block then (-EINVAL, { s with clock := s.clock + 1 })
      else ((d.fault s.clock).eraseRet, { s with
        clock := s.clock + 1
        flash := d.afterErase (d.fault s.clock) s.flash block }) := by
  split <;> rename_i outside
  · simp only [bbtNandErase, if_pos outside]
    rfl
  · simp only [bbtNandErase, if_neg outside]
    rfl

end Runs

/-! ## Rules -/

/-- A run that leaves the memory of the back-end alone. -/
def KeepsMem {μ : Type} (before after : State μ) : Prop :=
  after.mem = before.mem

namespace KeepsMem

variable {μ : Type} (d : Desc)

instance : Std.Refl (@KeepsMem μ) := ⟨fun _ => rfl⟩

instance : IsTrans (State μ) KeepsMem := ⟨fun _ _ _ first second => second.trans first⟩

theorem readOob (first count : Nat) : Preserves KeepsMem (@Bmt.readOob μ d first count) :=
  fun s => by simp only [KeepsMem, readOob_run]

theorem bbtNandRead (page count : Nat) : Preserves KeepsMem (@Bmt.bbtNandRead μ d page count) :=
  fun s => by simp only [KeepsMem, bbtNandRead_run]

theorem writeOob (first count : Nat) (contents : Flash → Nat → PageData) :
    Preserves KeepsMem (@Bmt.writeOob μ d first count contents) :=
  fun s => by
    simp only [KeepsMem, writeOob_run]
    split <;> rfl

theorem bbtNandErase (block : Nat) : Preserves KeepsMem (@Bmt.bbtNandErase μ d block) :=
  fun s => by
    simp only [KeepsMem, bbtNandErase_run]
    split <;> rfl

end KeepsMem

end Bmt

namespace Ensures

open Bmt

variable {μ α : Type} {post : α → State μ → Prop} {state : State μ}

theorem getMem_bind {next : μ → BmtM μ α} (holds : Ensures (next state.mem) state post) :
    Ensures (getMem >>= next) state post :=
  holds

theorem modifyMem_bind {update : μ → μ} {next : Unit → BmtM μ α}
    (holds : Ensures (next ()) { state with mem := update state.mem } post) :
    Ensures (modifyMem update >>= next) state post :=
  holds

end Ensures

end MetaFilogic
