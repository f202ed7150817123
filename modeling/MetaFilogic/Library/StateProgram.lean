import Mathlib.Order.Defs.Unbundled

/-!
# State-passing programs

Rules for reasoning about `StateM` programs from the code downwards.

`Ensures program state post` says what a run from one given state returns and
leaves behind; `Preserves related program` says that every run takes a state to
a related one, for a preorder on states such as "nothing outside a region has
changed".  Each rule is named after the construct of the program it is about.
-/

namespace MetaFilogic

universe u

variable {σ α β : Type u}

/-- The run of `program` from `state` returns a value and a state that satisfy
`post`. -/
def Ensures (program : StateM σ α) (state : σ) (post : α → σ → Prop) : Prop :=
  post (program state).1 (program state).2

namespace Ensures

variable {program : StateM σ α} {state : σ} {post stronger : α → σ → Prop}

theorem of_true (program : StateM σ α) (state : σ) : Ensures program state fun _ _ => True :=
  trivial

theorem mono (holds : Ensures program state stronger)
    (weaken : ∀ value after, stronger value after → post value after) :
    Ensures program state post :=
  weaken _ _ holds

theorem both {other : α → σ → Prop} (left : Ensures program state post)
    (right : Ensures program state other) :
    Ensures program state fun value after => post value after ∧ other value after :=
  ⟨left, right⟩

theorem pure {value : α} (holds : post value state) :
    Ensures (Pure.pure value : StateM σ α) state post :=
  holds

theorem bind {next : α → StateM σ β} {final : β → σ → Prop} (first : Ensures program state post)
    (second : ∀ value after, post value after → Ensures (next value) after final) :
    Ensures (program >>= next) state final :=
  second _ _ first

theorem ite {condition : Prop} [Decidable condition] {no : StateM σ α}
    (holds : condition → Ensures program state post) (fails : ¬condition → Ensures no state post) :
    Ensures (if condition then program else no) state post := by
  split
  · exact holds ‹_›
  · exact fails ‹_›

end Ensures

/-- Every run of `program` takes a state to a related one. -/
def Preserves (related : σ → σ → Prop) (program : StateM σ α) : Prop :=
  ∀ state, related state (program state).2

namespace Preserves

variable {related : σ → σ → Prop} {program : StateM σ α}

theorem ensures (preserves : Preserves related program) (state : σ) :
    Ensures program state fun _ after => related state after :=
  preserves state

theorem of_ensures (holds : ∀ state, Ensures program state fun _ after => related state after) :
    Preserves related program :=
  holds

theorem mono {weaker : σ → σ → Prop} (preserves : Preserves related program)
    (weaken : ∀ before after, related before after → weaker before after) :
    Preserves weaker program :=
  fun state => weaken _ _ (preserves state)

theorem pure [Std.Refl related] (value : α) : Preserves related (Pure.pure value : StateM σ α) :=
  fun state => refl_of related state

theorem bind [IsTrans σ related] {next : α → StateM σ β} (first : Preserves related program)
    (second : ∀ value, Preserves related (next value)) : Preserves related (program >>= next) :=
  fun state => trans_of related (first state) (second _ _)

theorem ite {condition : Prop} [Decidable condition] {no : StateM σ α}
    (holds : condition → Preserves related program) (fails : ¬condition → Preserves related no) :
    Preserves related (if condition then program else no) := by
  split
  · exact holds ‹_›
  · exact fails ‹_›

end Preserves

end MetaFilogic
