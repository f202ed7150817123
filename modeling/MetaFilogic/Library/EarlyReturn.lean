import Mathlib.Logic.Basic

/-!
# Programs with early returns

An `EStateM` program ends with a result or returns early with a reason; the state is what it is
then, nothing is taken back.  `Leads` says what holds at either end of one run, `Keeps` that an
invariant holds at either end of every run that begins with it.
-/

namespace MetaFilogic

universe u

variable {ε σ α β γ : Type u}

/-- The run of `program` from `state` ends with a result and a state that satisfy `post`, or
returns early with a reason and a state that satisfy `stop`. -/
def Leads (program : EStateM ε σ α) (state : σ) (post : α → σ → Prop) (stop : ε → σ → Prop) :
    Prop :=
  match program state with
  | .ok value after => post value after
  | .error reason after => stop reason after

namespace Leads

variable {program : EStateM ε σ α} {state : σ} {post stronger : α → σ → Prop}
  {stop stronger' : ε → σ → Prop}

theorem mono (leads : Leads program state stronger stronger')
    (weaken : ∀ value after, stronger value after → post value after)
    (weaken' : ∀ reason after, stronger' reason after → stop reason after) :
    Leads program state post stop := by
  rw [Leads] at leads ⊢
  cases run : program state with
  | ok value after =>
    rw [run] at leads
    exact weaken _ _ leads
  | error reason after =>
    rw [run] at leads
    exact weaken' _ _ leads

theorem both {other : α → σ → Prop} {other' : ε → σ → Prop} {stop : ε → σ → Prop}
    (left : Leads program state post stop) (right : Leads program state other other') :
    Leads program state (fun value after => post value after ∧ other value after)
      fun reason after => stop reason after ∧ other' reason after := by
  rw [Leads] at left right ⊢
  cases run : program state with
  | ok value after =>
    rw [run] at left right
    exact ⟨left, right⟩
  | error reason after =>
    rw [run] at left right
    exact ⟨left, right⟩

/-- A sequence: the second part begins where the first ends with a result. -/
theorem bind_iff {next : α → EStateM ε σ β} {final : β → σ → Prop} :
    Leads (program >>= next) state final stop ↔
      Leads program state (fun value after => Leads (next value) after final stop) stop := by
  show Leads (EStateM.bind program next) state final stop ↔ _
  rw [Leads, Leads, EStateM.bind]
  cases program state with
  | ok value after => rfl
  | error reason after => rfl

theorem bind {next : α → EStateM ε σ β} {final : β → σ → Prop}
    (first : Leads program state post stop)
    (second : ∀ value after, post value after → Leads (next value) after final stop) :
    Leads (program >>= next) state final stop :=
  bind_iff.mpr (first.mono second fun _ _ stopped => stopped)

end Leads

/-- An invariant holds at either end of every run of `program` that begins with it. -/
def Keeps (inv : σ → Prop) (program : EStateM ε σ α) : Prop :=
  ∀ state, inv state → Leads program state (fun _ => inv) (fun _ => inv)

namespace Keeps

variable {inv : σ → Prop} {program : EStateM ε σ α}

theorem pure (value : α) : Keeps inv (Pure.pure value : EStateM ε σ α) := fun _ holds => holds

theorem throw (reason : ε) : Keeps inv (MonadExcept.throw reason : EStateM ε σ α) :=
  fun _ holds => holds

theorem bind {next : α → EStateM ε σ β} (first : Keeps inv program)
    (second : ∀ value, Keeps inv (next value)) : Keeps inv (program >>= next) :=
  fun state holds => (first state holds).bind fun value after => second value after

theorem ite {condition : Prop} [Decidable condition] {no : EStateM ε σ α} (yes : Keeps inv program)
    (other : Keeps inv no) : Keeps inv (if condition then program else no) := by
  split
  · exact yes
  · exact other

theorem forM {body : α → EStateM ε σ PUnit} (each : ∀ item, Keeps inv (body item))
    (items : List α) : Keeps inv (items.forM body) := by
  induction items with
  | nil => exact pure _
  | cons item items ih => exact bind (each item) fun _ => ih

end Keeps

end MetaFilogic
