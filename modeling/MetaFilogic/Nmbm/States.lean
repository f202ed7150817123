import MetaFilogic.Nmbm.Image

/-!
# The block state bitmap

Recording the state of one block leaves the states of all others alone, and the
dirty counter tells whether a record changed anything.  The walks only ever stop
inside the range they were given.
-/

namespace MetaFilogic.Nmbm

open Bytes

theorem getLsbD_mask (index : Nat) : BLOCK_ST_MASK.getLsbD index = decide (index < 2) := by
  by_cases small : index < 32
  · interval_cases index <;> decide
  · rw [BitVec.getLsbD_of_ge _ _ (by omega)]
    simp
    omega

theorem stateShift_le (ba : Nat) : stateShift ba ≤ 30 := by
  simp only [stateShift, NMBM_BITMAP_BLOCKS_PER_UNIT, NMBM_BITMAP_BITS_PER_BLOCK]
  omega

theorem stateShift_apart {ba other : Nat} (distinct : other ≠ ba)
    (sameUnit : other / NMBM_BITMAP_BLOCKS_PER_UNIT = ba / NMBM_BITMAP_BLOCKS_PER_UNIT) :
    stateShift other + 2 ≤ stateShift ba ∨ stateShift ba + 2 ≤ stateShift other := by
  simp only [stateShift, NMBM_BITMAP_BLOCKS_PER_UNIT, NMBM_BITMAP_BITS_PER_BLOCK] at *
  omega

theorem getBlockStateRaw_put_same (blockState : Nat → BitVec 32) (ba : Nat) (state : BitVec 32) :
    getBlockStateRaw (putBlockStateRaw blockState ba state) ba = state &&& BLOCK_ST_MASK := by
  have shift := stateShift_le ba
  apply BitVec.eq_of_getLsbD_eq
  intro index _
  simp only [getBlockStateRaw, putBlockStateRaw, if_true, BitVec.getLsbD_and, getLsbD_mask,
    BitVec.getLsbD_ushiftRight, BitVec.getLsbD_or, BitVec.getLsbD_not, BitVec.getLsbD_shiftLeft]
  by_cases low : index < 2
  · have width : stateShift ba + index < 32 := by omega
    simp [low, width]
  · simp [low]

theorem getBlockStateRaw_put_other (blockState : Nat → BitVec 32) {ba other : Nat}
    (state : BitVec 32) (distinct : other ≠ ba) :
    getBlockStateRaw (putBlockStateRaw blockState ba state) other =
      getBlockStateRaw blockState other := by
  by_cases sameUnit :
      other / NMBM_BITMAP_BLOCKS_PER_UNIT = ba / NMBM_BITMAP_BLOCKS_PER_UNIT
  · have shift := stateShift_le other
    have apart := stateShift_apart distinct sameUnit
    apply BitVec.eq_of_getLsbD_eq
    intro index _
    simp only [getBlockStateRaw, putBlockStateRaw, sameUnit, if_true, BitVec.getLsbD_and,
      getLsbD_mask, BitVec.getLsbD_ushiftRight, BitVec.getLsbD_or, BitVec.getLsbD_not,
      BitVec.getLsbD_shiftLeft]
    by_cases low : index < 2
    · have outside : ¬ (stateShift ba ≤ stateShift other + index ∧
          stateShift other + index - stateShift ba < 2) := by omega
      by_cases below : stateShift other + index < stateShift ba
      · simp [low, below]
        omega
      · have high : ¬ stateShift other + index - stateShift ba < 2 := by omega
        simp [low, below, high]
        omega
    · simp [low]
  · simp [getBlockStateRaw, putBlockStateRaw, sameUnit]

theorem putBlockStateRaw_self {blockState : Nat → BitVec 32} {ba : Nat} {state : BitVec 32}
    (recorded : getBlockStateRaw blockState ba = state &&& BLOCK_ST_MASK) :
    putBlockStateRaw blockState ba state = blockState := by
  funext unit
  by_cases ofBlock : unit = ba / NMBM_BITMAP_BLOCKS_PER_UNIT
  · subst ofBlock
    apply BitVec.eq_of_getLsbD_eq
    intro index indexLt
    simp only [putBlockStateRaw, if_true, ← recorded, getBlockStateRaw, BitVec.getLsbD_and, getLsbD_mask, BitVec.getLsbD_ushiftRight,
      BitVec.getLsbD_or, BitVec.getLsbD_not, BitVec.getLsbD_shiftLeft, indexLt, decide_true,
      Bool.true_and]
    by_cases below : index < stateShift ba
    · simp [below]
    · have inside : stateShift ba + (index - stateShift ba) = index := by omega
      by_cases low : index - stateShift ba < 2 <;> simp [below, low, inside]
  · simp [putBlockStateRaw, ofBlock]

namespace Instance

variable (ni : Instance) (ba : Nat)

theorem getBlockState_set_same (state : BitVec 32) :
    (ni.setBlockState ba state).getBlockState ba = state &&& BLOCK_ST_MASK :=
  getBlockStateRaw_put_same _ _ _

theorem getBlockState_set_other (state : BitVec 32) {other : Nat} (distinct : other ≠ ba) :
    (ni.setBlockState ba state).getBlockState other = ni.getBlockState other :=
  getBlockStateRaw_put_other _ _ distinct

theorem blockStateChanged_set (state : BitVec 32) :
    ni.blockStateChanged ≤ (ni.setBlockState ba state).blockStateChanged := by
  simp only [setBlockState]
  split <;> omega

theorem blockState_set (state : BitVec 32)
    (still : (ni.setBlockState ba state).blockStateChanged = ni.blockStateChanged) :
    (ni.setBlockState ba state).blockState = ni.blockState := by
  simp only [setBlockState] at still ⊢
  split at still
  · omega
  · exact putBlockStateRaw_self (not_not.mp ‹_›)

end Instance

/-! ## Walks -/

theorem blockWalkDescLoop_spec {ni : Instance} {blocks ba found : Nat} {nblock : Int}
    (walked : blockWalkDescLoop ni blocks ba nblock = some found) (start : 0 ≤ nblock) :
    found ≤ ba ∧ ba < found + blocks ∧ ni.getBlockState found = BLOCK_ST_GOOD ∧
      (0 < nblock → found < ba ∨ ba = 0) ∧
      (nblock = 0 → ∀ other, found < other → other ≤ ba →
        ni.getBlockState other ≠ BLOCK_ST_GOOD) := by
  induction blocks generalizing ba nblock with
  | zero => simp [blockWalkDescLoop] at walked
  | succ blocks ih =>
    simp only [blockWalkDescLoop] at walked
    by_cases good : ni.getBlockState ba = BLOCK_ST_GOOD
    · simp only [good, if_true] at walked
      split at walked
      · rename_i last
        obtain rfl : ba = found := Option.some.inj walked
        refine ⟨le_rfl, by omega, good, by omega, by omega⟩
      · obtain ⟨below, within, goodFound, _, _⟩ := ih walked (by omega)
        exact ⟨by omega, by omega, goodFound, by omega, by omega⟩
    · simp only [good, if_false, show ¬ nblock < 0 by omega] at walked
      obtain ⟨below, within, goodFound, skipped, first⟩ := ih walked start
      refine ⟨by omega, by omega, goodFound, fun more => by have := skipped more; omega, ?_⟩
      intro zero other above upTo
      by_cases top : other = ba
      · exact top ▸ good
      · exact first zero other above (by omega)

theorem blockWalkAscLoop_spec {ni : Instance} {blocks ba found : Nat} {nblock : Int}
    (walked : blockWalkAscLoop ni blocks ba nblock = some found) :
    ba ≤ found ∧ found < ba + blocks := by
  induction blocks generalizing ba nblock with
  | zero => simp [blockWalkAscLoop] at walked
  | succ blocks ih =>
    simp only [blockWalkAscLoop] at walked
    generalize (if ni.getBlockState ba = BLOCK_ST_GOOD then nblock - 1 else nblock) = next
      at walked
    split at walked
    · obtain rfl : ba = found := Option.some.inj walked
      omega
    · have inside := ih walked
      omega

end MetaFilogic.Nmbm
