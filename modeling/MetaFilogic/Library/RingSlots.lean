import Mathlib.Data.Set.Insert
import Mathlib.Order.Interval.Set.Basic
import Mathlib.Data.Nat.ModEq
import Mathlib.Tactic.Ring

/-!
# Slots of a ring

A ring of `size` slots is used from one end and given back at the other.  Places are counted
without end, and place `p` is in slot `p % size`; the places in use are those from `tail` up to
`head`.
-/

namespace MetaFilogic.Circular

variable {size p q tail head : Nat}

theorem place_unique (tail : Nat) (low : tail ≤ p) (high : p < tail + size) (low' : tail ≤ q)
    (high' : q < tail + size) (same : p % size = q % size) : p = q := by
  have gap : ∀ a b, tail ≤ a → a ≤ b → b < tail + size → a % size = b % size → a = b := by
    intro a b _ le _ same
    have multiple : size ∣ b - a := (Nat.modEq_iff_dvd' le).mp same
    have := Nat.eq_zero_of_dvd_of_lt multiple (by omega)
    omega
  rcases Nat.le_total p q with le | le
  · exact gap p q low le high' same
  · exact (gap q p low' le high same.symm).symm

/-- The slots of the places from `tail` up to `head`. -/
def slots (size tail head : Nat) : Set Nat := {i | ∃ p, tail ≤ p ∧ p < head ∧ p % size = i}

variable {i : Nat}

theorem mem_slots : i ∈ slots size tail head ↔ ∃ p, tail ≤ p ∧ p < head ∧ p % size = i :=
  Iff.rfl

@[simp]
theorem slots_empty : slots size tail tail = ∅ := by
  ext i
  simp only [mem_slots, Set.mem_empty_iff_false, iff_false]
  rintro ⟨p, low, high, _⟩
  omega

theorem slot_mem (low : tail ≤ p) (high : p < head) : p % size ∈ slots size tail head :=
  ⟨p, low, high, rfl⟩

theorem slots_head (le : tail ≤ head) :
    slots size tail (head + 1) = insert (head % size) (slots size tail head) := by
  ext i
  simp only [mem_slots, Set.mem_insert_iff]
  constructor
  · rintro ⟨p, low, high, rfl⟩
    rcases Nat.lt_succ_iff_lt_or_eq.mp high with earlier | rfl
    · exact .inr ⟨p, low, earlier, rfl⟩
    · exact .inl rfl
  · rintro (rfl | ⟨p, low, high, rfl⟩)
    · exact ⟨head, le, by omega, rfl⟩
    · exact ⟨p, low, by omega, rfl⟩

theorem slots_tail (lt : tail < head) :
    slots size tail head = insert (tail % size) (slots size (tail + 1) head) := by
  ext i
  simp only [mem_slots, Set.mem_insert_iff]
  constructor
  · rintro ⟨p, low, high, rfl⟩
    rcases Nat.eq_or_lt_of_le low with rfl | later
    · exact .inl rfl
    · exact .inr ⟨p, later, high, rfl⟩
  · rintro (rfl | ⟨p, low, high, rfl⟩)
    · exact ⟨tail, by omega, lt, rfl⟩
    · exact ⟨p, by omega, high, rfl⟩

theorem slots_append {mid : Nat} (le : tail ≤ mid) (le' : mid ≤ head) :
    slots size tail head = slots size tail mid ∪ slots size mid head := by
  ext i
  simp only [mem_slots, Set.mem_union]
  constructor
  · rintro ⟨p, low, high, rfl⟩
    rcases Nat.lt_or_ge p mid with early | late
    · exact .inl ⟨p, low, early, rfl⟩
    · exact .inr ⟨p, late, high, rfl⟩
  · rintro (⟨p, low, high, rfl⟩ | ⟨p, low, high, rfl⟩)
    · exact ⟨p, low, by omega, rfl⟩
    · exact ⟨p, by omega, high, rfl⟩

theorem not_mem_slots (low : head ≤ p) (high : p < tail + size) :
    p % size ∉ slots size tail head := by
  rintro ⟨q, low', high', same⟩
  have := place_unique tail low' (by omega) (by omega) high same
  omega

theorem not_mem_slots_before (low : tail ≤ p) (high : p < q) (room : head ≤ tail + size) :
    p % size ∉ slots size q head := by
  rintro ⟨r, low', high', same⟩
  have := place_unique tail low (by omega) (by omega) (by omega) same.symm
  omega

theorem exists_place (tail : Nat) (lt : i < size) :
    ∃ p, tail ≤ p ∧ p < tail + size ∧ p % size = i := by
  have positive : 0 < size := by omega
  have below := Nat.mod_lt tail positive
  have parts := Nat.div_add_mod tail size
  rcases Nat.lt_or_ge i (tail % size) with low | high
  · refine ⟨size * (tail / size) + (i + size), by omega, by omega, ?_⟩
    rw [Nat.mul_add_mod, Nat.add_mod_right, Nat.mod_eq_of_lt lt]
  · refine ⟨size * (tail / size) + i, by omega, by omega, ?_⟩
    rw [Nat.mul_add_mod, Nat.mod_eq_of_lt lt]

theorem mem_slots_lt (positive : 0 < size) (used : i ∈ slots size tail head) : i < size := by
  obtain ⟨p, _, _, rfl⟩ := used
  exact Nat.mod_lt p positive

/-- The slots from `i` up to `last`, as far as the fuel goes. -/
def walk (size last : Nat) : Nat → Nat → List Nat
  | 0, _ => []
  | fuel + 1, i => if i = last then [] else i :: walk size last fuel ((i + 1) % size)

theorem walk_eq {n fuel : Nat} (short : n < size) (enough : n ≤ fuel) :
    walk size ((p + n) % size) fuel (p % size) =
      (List.range n).map fun d => (p + d) % size := by
  induction n generalizing p fuel with
  | zero => cases fuel <;> simp [walk]
  | succ n ih =>
    cases fuel with
    | zero => omega
    | succ fuel =>
      have apart : p % size ≠ (p + (n + 1)) % size := by
        intro same
        have := place_unique p le_rfl (by omega) (by omega) (by omega) same
        omega
      rw [walk, if_neg apart, Nat.mod_add_mod, List.range_succ_eq_map, List.map_cons, List.map_map]
      have rest : walk size ((p + 1 + n) % size) fuel ((p + 1) % size) =
          (List.range n).map fun d => (p + 1 + d) % size := ih (by omega) (by omega)
      rw [show p + (n + 1) = p + 1 + n by ring, rest]
      congr 1
      refine List.map_congr_left fun d _ => ?_
      simp only [Function.comp_apply, Nat.succ_eq_add_one]
      congr 1
      ring

end MetaFilogic.Circular
