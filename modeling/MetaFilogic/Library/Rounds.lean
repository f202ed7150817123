import Mathlib.Data.Nat.Notation

/-!
# Rounds of a loop

One round of a loop ends it with a value or leaves a state for the next round.  A measure that
every round lowers bounds the number of rounds, and a loop with a round counter gives the same
result for every counter above the measure.
-/

namespace MetaFilogic

variable {State Value : Type*}

inductive Rounds (round : State → Value ⊕ State) : Nat → State → State → Prop
  | none (s : State) : Rounds round 0 s s
  | more {count : Nat} {s next after : State} :
      round s = .inr next → Rounds round count next after → Rounds round (count + 1) s after

variable {round : State → Value ⊕ State} {measure : State → Nat}

theorem Rounds.le_measure (lowers : ∀ s next, round s = .inr next → measure next < measure s)
    {count : Nat} {s after : State} (rounds : Rounds round count s after) :
    count + measure after ≤ measure s := by
  induction rounds with
  | none s => exact Nat.le_of_eq (Nat.zero_add _)
  | more goesOn _ ih =>
    have := lowers _ _ goesOn
    omega

theorem loop_eq_of_enough {loop : Nat → State → Value}
    (unfold : ∀ rounds s, loop (rounds + 1) s = (round s).elim id (loop rounds))
    (lowers : ∀ s next, round s = .inr next → measure next < measure s)
    {s : State} {rounds more : Nat} (enough : measure s < rounds) (enoughMore : measure s < more) :
    loop rounds s = loop more s := by
  induction rounds generalizing s more with
  | zero => exact absurd enough (Nat.not_lt_zero _)
  | succ rounds ih =>
    cases more with
    | zero => exact absurd enoughMore (Nat.not_lt_zero _)
    | succ more =>
      rw [unfold, unfold]
      cases goesOn : round s with
      | inl value => rfl
      | inr next =>
        have := lowers s next goesOn
        exact ih (by omega) (by omega)

end MetaFilogic
