import Mathlib.Data.BitVec

/-!
# Registers and masks

A register is a word of which a driver sets, clears or replaces some bits.  What a mask shows of
it changes only where the driver's bits meet the mask.
-/

namespace MetaFilogic.Registers

variable {w : Nat} {x bits mask mask' val : BitVec w}

/-- The register with the bits of `mask` replaced by those of `val`. -/
def updateBits (mask val x : BitVec w) : BitVec w := x &&& ~~~mask ||| val &&& mask

theorem getLsbD_and_eq (same : bits &&& mask = x) (i : Nat) :
    (bits.getLsbD i && mask.getLsbD i) = x.getLsbD i := by
  rw [← same, BitVec.getLsbD_and]

theorem or_and_of_apart (apart : bits &&& mask = 0#w) : (x ||| bits) &&& mask = x &&& mask := by
  refine BitVec.eq_of_getLsbD_eq fun i _ => ?_
  have bit := getLsbD_and_eq apart i
  rw [BitVec.getLsbD_zero] at bit
  rw [BitVec.getLsbD_and, BitVec.getLsbD_or, BitVec.getLsbD_and, Bool.and_or_distrib_right, bit,
    Bool.or_false]

theorem or_and_of_within (within : bits &&& mask = bits) :
    (x ||| bits) &&& mask = x &&& mask ||| bits := by
  refine BitVec.eq_of_getLsbD_eq fun i _ => ?_
  rw [BitVec.getLsbD_and, BitVec.getLsbD_or, BitVec.getLsbD_or, BitVec.getLsbD_and,
    Bool.and_or_distrib_right, getLsbD_and_eq within]

theorem clear_and_of_apart (apart : bits &&& mask = 0#w) : x &&& ~~~bits &&& mask = x &&& mask := by
  refine BitVec.eq_of_getLsbD_eq fun i inside => ?_
  have bit := getLsbD_and_eq apart i
  rw [BitVec.getLsbD_zero] at bit
  rw [BitVec.getLsbD_and, BitVec.getLsbD_and, BitVec.getLsbD_and, BitVec.getLsbD_not]
  cases here : mask.getLsbD i with
  | false => rw [Bool.and_false, Bool.and_false]
  | true =>
    rw [here, Bool.and_true] at bit
    rw [bit, Bool.not_false, decide_eq_true inside, Bool.and_true, Bool.and_true]

theorem clear_and_of_shown (shown : x &&& mask = bits) : x &&& ~~~bits &&& mask = 0#w := by
  refine BitVec.eq_of_getLsbD_eq fun i inside => ?_
  have bit := getLsbD_and_eq shown i
  rw [BitVec.getLsbD_and, BitVec.getLsbD_and, BitVec.getLsbD_not, BitVec.getLsbD_zero, ← bit]
  cases x.getLsbD i <;> cases mask.getLsbD i <;> simp

theorem and_of_within {y : BitVec w} (within : mask' &&& mask = mask')
    (same : x &&& mask = y &&& mask) : x &&& mask' = y &&& mask' := by
  rw [← within, BitVec.and_comm mask', ← BitVec.and_assoc, ← BitVec.and_assoc, same]

theorem getLsbD_updateBits (i : Nat) :
    (updateBits mask val x).getLsbD i = if mask.getLsbD i then val.getLsbD i else x.getLsbD i := by
  rw [updateBits, BitVec.getLsbD_or, BitVec.getLsbD_and, BitVec.getLsbD_and, BitVec.getLsbD_not]
  by_cases inside : i < w
  · cases mask.getLsbD i <;> simp [inside]
  · have outside : w ≤ i := Nat.le_of_not_lt inside
    simp [BitVec.getLsbD_of_ge _ _ outside]

theorem updateBits_and_of_within (within : mask' &&& mask = mask') :
    updateBits mask val x &&& mask' = val &&& mask' := by
  refine BitVec.eq_of_getLsbD_eq fun i inside => ?_
  have bit := getLsbD_and_eq within i
  rw [updateBits, BitVec.getLsbD_and, BitVec.getLsbD_or, BitVec.getLsbD_and, BitVec.getLsbD_and,
    BitVec.getLsbD_not, BitVec.getLsbD_and, ← bit]
  cases mask.getLsbD i <;> simp

theorem updateBits_and_of_apart (apart : mask &&& mask' = 0#w) :
    updateBits mask val x &&& mask' = x &&& mask' := by
  rw [updateBits, or_and_of_apart, clear_and_of_apart apart]
  rw [BitVec.and_assoc, apart]
  simp

end MetaFilogic.Registers
