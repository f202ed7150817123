import MetaFilogic.Bmt.Core
import MetaFilogic.Library.SkipOrder
import Mathlib.Tactic.IntervalCases

/-!
# The `bbt` back-end

The table is a bitmap with two bits for each block, stored in the block
`bmt_blk_idx`.  There is no map: a logical block is mapped to the block that many
good blocks into its range, and when the good blocks run out to one of the bad.
-/

namespace MetaFilogic.Bmt.Bbt

/-- The members of `struct bmt_desc` the back-end changes. -/
structure Memory where
  bbtBuf : Nat → Byte
  bmtBlkIdx : Nat

variable (d : Desc)

/-! ## The bitmap -/

def stateMask (block : Nat) : Byte := (3 : Byte) <<< ((block % 4) * 2)

def bbtBlockIsBad (m : Memory) (block : Nat) : Bool :=
  m.bbtBuf (block / 4) &&& stateMask block != 0

/-- The byte `bbt_set_block_state` changes. -/
def setState (block : Nat) (bad : Bool) (m : Memory) : Memory :=
  let cur := m.bbtBuf (block / 4)
  let next := if bad then cur ||| stateMask block else cur &&& ~~~stateMask block
  { m with bbtBuf := Function.update m.bbtBuf (block / 4) next }

/-- The spare bytes `"mtknand"`. -/
def sig : Nat → Byte
  | 0 => 0x6d
  | 1 => 0x74
  | 2 => 0x6b
  | 3 => 0x6e
  | 4 => 0x61
  | 5 => 0x6e
  | _ => 0x64

def bmtPgs : Nat := (d.totalBlks / 4 + d.blkSize - 1) / d.blkSize * d.blkSize / d.pgSize

/-- The pages `write_bmt` stores. -/
def tablePages (m : Memory) (first : Nat) (flash : Flash) (page : Nat) : PageData where
  data word :=
    m.bbtBuf ((page - first) * d.pgSize + 2 * word + 1) ++
      m.bbtBuf ((page - first) * d.pgSize + 2 * word)
  oob byte :=
    if page = first ∧ d.oobOffset + OOB_SIGNATURE_OFFSET ≤ byte ∧
        byte < d.oobOffset + OOB_SIGNATURE_OFFSET + 7 then
      sig (byte - d.oobOffset - OOB_SIGNATURE_OFFSET)
    else
      (flash page).oob byte
  readable := true

def writeBmt (block : Nat) : BmtM Memory Int := do
  let m ← getMem
  writeOob d (d.blkPg block) (bmtPgs d) (tablePages d m (d.blkPg block))

def bbtSetBlockState (block : Nat) (bad : Bool) : BmtM Memory Unit := do
  modifyMem (setState block bad)
  let m ← getMem
  let _ ← bbtNandErase d m.bmtBlkIdx
  let _ ← writeBmt d m.bmtBlkIdx
  return ()

/-! ## Mapping -/

/-- Conversion of a `u32` to `int`. -/
def asInt (value : Nat) : Int := if value < 2 ^ 31 then value else value - 2 ^ 32

/-- Conversion of an `int` to `u16`. -/
def asU16 (value : Int) : Nat := (value % 2 ^ 16).toNat

/-- What the first loop of `get_mapping_block_index_bbt` ends with: the block it
stopped at, or `ofs` and `bad_blocks` behind the last block. -/
inductive Skip where
  | stopped (i : Int)
  | overflow (ofs badBlocks : Nat)

/-- The first loop, with `rest` blocks still to look at. -/
def skipBadBlocks (m : Memory) : (rest : Nat) → (i : Int) → (ofs badBlocks : Nat) → Skip
  | 0, _, ofs, badBlocks => .overflow ofs badBlocks
  | rest + 1, i, ofs, badBlocks =>
    if bbtBlockIsBad m (asU16 i) then
      skipBadBlocks m rest (i + 1) ofs (badBlocks + 1)
    else if ofs ≠ 0 then
      skipBadBlocks m rest (i + 1) (ofs - 1) badBlocks
    else
      .stopped i

/-- The second loop, from block `i` down.  It ends when it has met the bad blocks
the first loop counted, so there are no more rounds than blocks. -/
def takeBadBlock (m : Memory) : (rounds : Nat) → (i : Int) → (ofs badBlocks : Nat) → Option Int
  | 0, _, _, _ => none
  | rounds + 1, i, ofs, badBlocks =>
    if badBlocks = 0 then
      none
    else if bbtBlockIsBad m (asU16 i) = false then
      takeBadBlock m rounds (i - 1) ofs badBlocks
    else if badBlocks - 1 ≤ ofs then
      some i
    else
      takeBadBlock m rounds (i - 1) ofs (badBlocks - 1)

/-- `get_mapping_block_index_bbt(block)`.  A block is never before the start of its
range, so `ofs` is not negative. -/
def getMappingBlockIndexBbt (m : Memory) (block : Nat) : Int :=
  match mappingBlockInRange d block with
  | none => block
  | some (first, last) =>
    let start := asInt first >>> d.blkShift
    let stop := asInt last >>> d.blkShift
    match skipBadBlocks m (stop - start).toNat start (block - start).toNat 0 with
    | .stopped i => i
    | .overflow ofs badBlocks =>
      (takeBadBlock m (stop - start).toNat (stop - 1) ofs badBlocks).getD block

def remapBlockBbt (block mapped copyLen : Nat) : BmtM Memory Bool := do
  if (mappingBlockInRange d block).isNone then
    return false
  else
    bbtSetBlockState d mapped true
    let m ← getMem
    let newBlk := asU16 (getMappingBlockIndexBbt d m block)
    let _ ← bbtNandErase d newBlk
    if 0 < copyLen then
      let _ ← bbtNandCopy d newBlk mapped copyLen
    return true

/-! ## Bits of the bitmap -/

section Bits

variable {m : Memory} {block other : Nat}

theorem stateMask_ne_zero (block : Nat) : stateMask block ≠ 0 := by
  have small : block % 4 < 4 := Nat.mod_lt _ (by decide)
  rw [stateMask]
  generalize block % 4 = position at small
  interval_cases position <;> decide

theorem stateMask_apart (sameByte : block / 4 = other / 4) (different : block ≠ other) :
    stateMask block &&& stateMask other = 0 := by
  have positions : block % 4 ≠ other % 4 := by omega
  have small : block % 4 < 4 := Nat.mod_lt _ (by decide)
  have otherSmall : other % 4 < 4 := Nat.mod_lt _ (by decide)
  rw [stateMask, stateMask]
  generalize block % 4 = position at small positions
  generalize other % 4 = otherPosition at otherSmall positions
  interval_cases position <;> interval_cases otherPosition <;>
    first | exact absurd rfl positions | decide

theorem bbtBlockIsBad_setState_self : bbtBlockIsBad (setState block true m) block = true := by
  rw [bbtBlockIsBad, setState]
  simp only [Function.update_self, if_true, bne_iff_ne]
  intro none
  have masked : (m.bbtBuf (block / 4) ||| stateMask block) &&& stateMask block = stateMask block := by
    ext i inside
    simp only [BitVec.getElem_and, BitVec.getElem_or]
    cases (stateMask block)[i] <;> simp
  exact stateMask_ne_zero block (masked.symm.trans none)

theorem bbtBlockIsBad_setState_of_ne (different : other ≠ block) :
    bbtBlockIsBad (setState block true m) other = bbtBlockIsBad m other := by
  rw [bbtBlockIsBad, bbtBlockIsBad, setState]
  simp only [if_true]
  by_cases sameByte : other / 4 = block / 4
  · rw [sameByte, Function.update_self]
    have masked : (m.bbtBuf (block / 4) ||| stateMask block) &&& stateMask other =
        m.bbtBuf (block / 4) &&& stateMask other := by
      have apart := stateMask_apart sameByte.symm (Ne.symm different)
      rw [BitVec.and_comm, BitVec.and_or_distrib_left,
        BitVec.and_comm (stateMask other) (stateMask block), apart]
      exact BitVec.or_zero.trans (BitVec.and_comm ..)
    rw [masked]
  · rw [Function.update_of_ne sameByte]

theorem marks_setState (good : bbtBlockIsBad m block = false) :
    Marks (bbtBlockIsBad m) (bbtBlockIsBad (setState block true m)) block where
  wasGood := good
  isBad := bbtBlockIsBad_setState_self
  others _ := bbtBlockIsBad_setState_of_ne

end Bits

end MetaFilogic.Bmt.Bbt
