import MetaFilogic.Library.Bytes
import MetaFilogic.Library.Memory
import Mathlib.Data.Nat.Count

/-!
# Memory by bits

The bits of a memory of bytes have addresses of their own, eight to the byte with the low bit
first.  This file counts the zero bits of a range, by bytes and by words, and sets the bits of one.
-/

namespace MetaFilogic.BitMemory

open Memory

variable {mem : Nat → Byte} {start count pos i : Nat}

def bit (mem : Nat → Byte) (i : Nat) : Bool := (mem (i / 8)).getLsbD (i % 8)

def hweight {w : Nat} (value : BitVec w) : Nat := Nat.count (fun i => value.getLsbD i = true) w

def load32 (mem : Nat → Byte) (pos : Nat) : BitVec 32 :=
  mem (pos + 3) ++ mem (pos + 2) ++ mem (pos + 1) ++ mem pos

def zeroBits (mem : Nat → Byte) (start count : Nat) : Nat :=
  Nat.count (fun i => bit mem (start + i) = false) count

/-! ## Counting -/

@[simp]
theorem zeroBits_zero : zeroBits mem start 0 = 0 :=
  rfl

theorem zeroBits_add (left right : Nat) :
    zeroBits mem start (left + right) =
      zeroBits mem start left + zeroBits mem (start + left) right := by
  unfold zeroBits
  rw [Nat.count_add]
  simp only [Nat.add_assoc]

theorem zeroBits_le : zeroBits mem start count ≤ count :=
  Nat.count_le _

theorem count_false_eq (bits : Nat → Bool) (count : Nat) :
    Nat.count (fun i => bits i = false) count =
      count - Nat.count (fun i => bits i = true) count := by
  have sum : Nat.count (fun i => bits i = false) count +
      Nat.count (fun i => bits i = true) count = count := by
    induction count with
    | zero => rfl
    | succ count ih =>
      rw [Nat.count_succ, Nat.count_succ]
      cases bits count with
      | false =>
        rw [if_pos rfl, if_neg Bool.false_ne_true]
        omega
      | true =>
        rw [if_neg (Ne.symm Bool.false_ne_true), if_pos rfl]
        omega
  omega

theorem bit_mul_add (k : Nat) (below : k < 8) : bit mem (8 * pos + k) = (mem pos).getLsbD k := by
  unfold bit
  rw [show (8 * pos + k) / 8 = pos by omega, show (8 * pos + k) % 8 = k by omega]

theorem count_congr {p q : Nat → Prop} [DecidablePred p] [DecidablePred q]
    (same : ∀ i < count, (p i ↔ q i)) : Nat.count p count = Nat.count q count := by
  refine Nat.le_antisymm (Nat.count_mono_left fun i below => (same i below).mp)
    (Nat.count_mono_left fun i below => (same i below).mpr)

theorem zeroBits_byte : zeroBits mem (8 * pos) 8 = 8 - hweight (mem pos) := by
  unfold zeroBits hweight
  rw [← count_false_eq]
  refine count_congr fun i below => ?_
  rw [bit_mul_add i below]

theorem zeroBits_partial (below : count ≤ 8) :
    zeroBits mem (8 * pos) count = Nat.count (fun i => (mem pos).getLsbD i = false) count := by
  refine count_congr fun i under => ?_
  rw [bit_mul_add i (by omega)]

theorem getLsbD_load32 (below : i < 32) : (load32 mem pos).getLsbD i = bit mem (8 * pos + i) := by
  unfold load32
  rw [BitVec.getLsbD_append, BitVec.getLsbD_append, BitVec.getLsbD_append]
  by_cases first : i < 8
  · rw [if_pos first, bit_mul_add i first]
  rw [if_neg first]
  by_cases second : i - 8 < 8
  · rw [if_pos second, show 8 * pos + i = 8 * (pos + 1) + (i - 8) by omega, bit_mul_add _ second]
  rw [if_neg second]
  by_cases third : i - 8 - 8 < 8
  · rw [if_pos third, show 8 * pos + i = 8 * (pos + 2) + (i - 8 - 8) by omega,
      bit_mul_add _ third]
  rw [if_neg third, show 8 * pos + i = 8 * (pos + 3) + (i - 8 - 8 - 8) by omega,
    bit_mul_add _ (by omega)]

theorem zeroBits_word : zeroBits mem (8 * pos) 32 = 32 - hweight (load32 mem pos) := by
  unfold zeroBits hweight
  rw [← count_false_eq]
  exact count_congr fun i below => by rw [getLsbD_load32 below]

theorem hweight_allOnes (w : Nat) : hweight (BitVec.allOnes w) = w := by
  refine Nat.count_iff_forall.mpr fun i below => ?_
  rw [BitVec.getLsbD_allOnes, decide_eq_true below]

/-! ## Setting -/

def Within (start count i : Nat) : Prop := start ≤ i ∧ i < start + count

theorem bit_of_zeroBits_eq_zero (none : zeroBits mem start count = 0)
    (within : Within start count i) : bit mem i = true := by
  obtain ⟨above, below⟩ := within
  have set := Nat.count_iff_forall_not.mp none (i - start) (by omega)
  rw [Nat.add_sub_cancel' above, Bool.not_eq_false] at set
  exact set

theorem bit_fill :
    bit (fill mem pos 0xff count) i = true ↔ bit mem i = true ∨ Within (8 * pos) (8 * count) i := by
  unfold bit Within
  by_cases inside : pos ≤ i / 8 ∧ i / 8 < pos + count
  · have ones : (0xff : Byte) = BitVec.allOnes 8 := rfl
    rw [fill_inside inside.1 inside.2, ones, BitVec.getLsbD_allOnes]
    exact iff_of_true (decide_eq_true (Nat.mod_lt _ (by decide))) (.inr (by omega))
  · rw [fill_outside (by omega)]
    exact (or_iff_left (by omega)).symm

def setLow (mem : Nat → Byte) (pos bits : Nat) : Nat → Byte :=
  Function.update mem pos (mem pos ||| BitVec.ofNat 8 (2 ^ bits - 1))

theorem bit_setLow (small : count ≤ 8) :
    bit (setLow mem pos count) i = true ↔ bit mem i = true ∨ Within (8 * pos) count i := by
  unfold bit setLow Within
  by_cases same : i / 8 = pos
  · have mask : (BitVec.ofNat 8 (2 ^ count - 1)).getLsbD (i % 8) = decide (i % 8 < count) := by
      rw [BitVec.getLsbD_ofNat, decide_eq_true (Nat.mod_lt _ (by decide)), Bool.true_and,
        Nat.testBit_two_pow_sub_one]
    rw [same, Function.update_self, BitVec.getLsbD_or, mask, Bool.or_eq_true, decide_eq_true_iff]
    exact or_congr_right (by omega)
  · rw [Function.update_of_ne same]
    exact (or_iff_left (by omega)).symm

end MetaFilogic.BitMemory
