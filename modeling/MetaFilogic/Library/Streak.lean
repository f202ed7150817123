import Mathlib.Data.BitVec

/-!
# Counting how long something holds

A monitor looks again and again, counts in a byte for how many looks in a row a condition has
held, and raises an alarm from some count on.  Until the byte overflows, the alarm says that the
condition has held at each of the last looks.
-/

namespace MetaFilogic.Streak

/-- For how many of the last looks in a row the condition has held; the last look comes first. -/
def streak : List Bool → Nat
  | true :: looks => streak looks + 1
  | _ => 0

/-- The condition has held at each of the last `n` looks. -/
def HeldFor (n : Nat) (looks : List Bool) : Prop := ∀ k < n, looks[k]? = some true

variable {looks : List Bool} {count : BitVec 8}

theorem heldFor_succ {n : Nat} {look : Bool} :
    HeldFor (n + 1) (look :: looks) ↔ look = true ∧ HeldFor n looks := by
  constructor
  · intro held
    refine ⟨?_, fun k below => held (k + 1) (Nat.succ_lt_succ below)⟩
    have first := held 0 (Nat.succ_pos n)
    exact Option.some_inj.mp first
  · rintro ⟨rfl, held⟩ k below
    cases k with
    | zero => rfl
    | succ k => exact held k (Nat.lt_of_succ_lt_succ below)

theorem heldFor_iff {n : Nat} : HeldFor n looks ↔ n ≤ streak looks := by
  induction looks generalizing n with
  | nil =>
    cases n with
    | zero => simp [HeldFor, streak]
    | succ n =>
      simp only [streak, Nat.le_zero, Nat.succ_ne_zero, iff_false]
      exact fun held => nomatch held 0 (Nat.succ_pos n)
  | cons look looks ih =>
    cases n with
    | zero => exact ⟨fun _ => Nat.zero_le _, fun _ => nofun⟩
    | succ n =>
      rw [heldFor_succ, ih]
      cases look with
      | false => simp [streak]
      | true => simp [streak]

def bump (held : Bool) (count : BitVec 8) : BitVec 8 := if held then count + 1 else 0

def Counts (count : BitVec 8) (looks : List Bool) : Prop := count.toNat = streak looks

theorem Counts.nil : Counts 0 [] := rfl

theorem Counts.bump (counts : Counts count looks) {held : Bool} (room : held = true → count ≠ 255) :
    Counts (bump held count) (held :: looks) := by
  cases held with
  | false => rfl
  | true =>
    have below : count.toNat < 255 := by
      have bound := count.isLt
      have other : count.toNat ≠ 255 := fun full => room rfl (BitVec.eq_of_toNat_eq full)
      omega
    rw [Counts, Streak.bump, if_pos rfl, BitVec.toNat_add, streak, ← counts]
    exact Nat.mod_eq_of_lt (by simpa using Nat.add_lt_add_right below 1)

theorem Counts.skip (none : count = 0) : Counts count (false :: looks) := by
  rw [none]
  rfl

theorem Counts.le_iff (counts : Counts count looks) {n : BitVec 8} :
    n ≤ count ↔ HeldFor n.toNat looks := by
  rw [heldFor_iff, ← counts]
  exact BitVec.le_def

end MetaFilogic.Streak
