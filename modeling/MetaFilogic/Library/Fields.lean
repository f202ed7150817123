import Mathlib.Logic.Function.Basic
import Mathlib.Algebra.Ring.Nat

/-!
# Bit fields of a record of words

A record is a vector of words, and a field is a range of bits inside one of them, as a
C compiler lays out the members of a packed structure.  Reading a field back after
writing it gives the value written, and fields that share no bit do not see the write.
-/

namespace MetaFilogic.Fields

open Function (update update_self update_of_ne update_idem update_comm)

variable {n w width other : Nat}

/-- A record of `n` words of `w` bits. -/
abbrev Words (n w : Nat) := Fin n → BitVec w

/-- A field of `width` bits of a record. -/
structure Field (n w width : Nat) where
  word : Fin n
  lo : Nat
  fits : lo + width ≤ w

/-- A word with the bits from `lo` on replaced by a value. -/
def insertBits (x : BitVec w) (lo : Nat) (value : BitVec width) : BitVec w :=
  (x &&& ~~~((BitVec.allOnes width).setWidth w <<< lo)) ||| value.setWidth w <<< lo

theorem getLsbD_insertBits {x : BitVec w} {lo : Nat} {value : BitVec width}
    (fits : lo + width ≤ w) (i : Nat) :
    (insertBits x lo value).getLsbD i =
      if lo ≤ i ∧ i < lo + width then value.getLsbD (i - lo) else x.getLsbD i := by
  unfold insertBits
  rw [BitVec.getLsbD_or, BitVec.getLsbD_and, BitVec.getLsbD_not, BitVec.getLsbD_shiftLeft,
    BitVec.getLsbD_shiftLeft, BitVec.getLsbD_setWidth, BitVec.getLsbD_setWidth,
    BitVec.getLsbD_allOnes]
  by_cases inWord : i < w
  · by_cases low : i < lo
    · have outside : ¬(lo ≤ i ∧ i < lo + width) := by omega
      simp [inWord, low, outside]
    · by_cases high : i < lo + width
      · have inside : lo ≤ i ∧ i < lo + width := by omega
        have inField : i - lo < width := by omega
        have inWord' : i - lo < w := by omega
        simp [inWord, low, inside, inField, inWord']
      · have outside : ¬(lo ≤ i ∧ i < lo + width) := by omega
        have past : ¬i - lo < width := by omega
        have clear : value.getLsbD (i - lo) = false := BitVec.getLsbD_of_ge _ _ (by omega)
        simp [inWord, low, outside, past, clear]
  · have outside : ¬(lo ≤ i ∧ i < lo + width) := by omega
    have clear : x.getLsbD i = false := BitVec.getLsbD_of_ge _ _ (by omega)
    simp [inWord, outside, clear]

theorem setWidth_masked {m k : Nat} {x mask : BitVec n} (fits : mask.toNat < 2 ^ k) :
    ((x &&& mask).setWidth k).setWidth m = (x &&& mask).setWidth m := by
  have small : (x &&& mask).toNat < 2 ^ k := by
    rw [BitVec.toNat_and]
    exact Nat.lt_of_le_of_lt Nat.and_le_right fits
  refine BitVec.eq_of_toNat_eq ?_
  rw [BitVec.toNat_setWidth, BitVec.toNat_setWidth, BitVec.toNat_setWidth,
    Nat.mod_eq_of_lt small]

namespace Field

variable (field : Field n w width)

def get (record : Words n w) : BitVec width :=
  (record field.word).extractLsb' field.lo width

def set (value : BitVec width) (record : Words n w) : Words n w :=
  update record field.word (insertBits (record field.word) field.lo value)

def copy (source record : Words n w) : Words n w :=
  field.set (field.get source) record

def Disjoint (field : Field n w width) (field' : Field n w other) : Prop :=
  field.word ≠ field'.word ∨ field.lo + width ≤ field'.lo ∨ field'.lo + other ≤ field.lo

instance (field' : Field n w other) : Decidable (field.Disjoint field') :=
  inferInstanceAs (Decidable (_ ∨ _ ∨ _))

variable {field} {record : Words n w} {value : BitVec width}

variable {field' : Field n w other}

theorem Disjoint.symm (disjoint : field.Disjoint field') : field'.Disjoint field :=
  disjoint.imp Ne.symm Or.symm

theorem getLsbD_get (i : Nat) :
    (field.get record).getLsbD i = (decide (i < width) && (record field.word).getLsbD (field.lo + i)) :=
  BitVec.getLsbD_extractLsb' ..

@[simp] theorem get_set : field.get (field.set value record) = value := by
  refine BitVec.eq_of_getLsbD_eq fun i inside => ?_
  rw [getLsbD_get, set, update_self, getLsbD_insertBits field.fits,
    if_pos ⟨Nat.le_add_right .., Nat.add_lt_add_left inside _⟩, Nat.add_sub_cancel_left,
    decide_eq_true inside, Bool.true_and]

theorem get_set_disjoint (disjoint : field'.Disjoint field) :
    field'.get (field.set value record) = field'.get record := by
  refine BitVec.eq_of_getLsbD_eq fun i inside => ?_
  rw [getLsbD_get, getLsbD_get, set]
  by_cases same : field'.word = field.word
  · have apart : ¬(field.lo ≤ field'.lo + i ∧ field'.lo + i < field.lo + width) := by
      rcases disjoint with different | below | above
      · exact absurd same different
      · omega
      · omega
    rw [same, update_self, getLsbD_insertBits field.fits, if_neg apart]
  · rw [update_of_ne same]

theorem set_get : field.set (field.get record) record = record := by
  refine Function.update_eq_self_iff.mpr (BitVec.eq_of_getLsbD_eq fun i inside => ?_)
  rw [getLsbD_insertBits field.fits]
  split
  · rename_i within
    have inField : i - field.lo < width := by omega
    rw [getLsbD_get, decide_eq_true inField, Bool.true_and, Nat.add_sub_cancel' within.1]
  · rfl

theorem set_eq_self_iff : field.set value record = record ↔ field.get record = value := by
  constructor
  · intro same
    rw [← same, get_set]
  · rintro rfl
    exact set_get

@[simp] theorem set_set {value' : BitVec width} :
    field.set value' (field.set value record) = field.set value' record := by
  unfold set
  rw [update_self, update_idem]
  congr 1
  refine BitVec.eq_of_getLsbD_eq fun i _ => ?_
  rw [getLsbD_insertBits field.fits, getLsbD_insertBits field.fits,
    getLsbD_insertBits field.fits]
  split <;> rfl

theorem set_comm {value' : BitVec other} (disjoint : field.Disjoint field') :
    field.set value (field'.set value' record) = field'.set value' (field.set value record) := by
  unfold set
  by_cases same : field.word = field'.word
  · rw [same, update_self, update_self, update_idem,
      update_idem]
    congr 1
    refine BitVec.eq_of_getLsbD_eq fun i _ => ?_
    rw [getLsbD_insertBits field.fits, getLsbD_insertBits field'.fits,
      getLsbD_insertBits field'.fits, getLsbD_insertBits field.fits]
    rcases disjoint with different | below | above
    · exact absurd same different
    all_goals split <;> split <;> first | rfl | omega
  · rw [update_of_ne same, update_of_ne (Ne.symm same),
      update_comm same]

theorem get_copy_disjoint {source : Words n w} (disjoint : field'.Disjoint field) :
    field'.get (field.copy source record) = field'.get record :=
  get_set_disjoint disjoint

theorem set_word {word : Fin n} (different : word ≠ field.word) :
    field.set value record word = record word :=
  update_of_ne different ..

end Field

end MetaFilogic.Fields
