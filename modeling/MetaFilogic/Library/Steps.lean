import Mathlib.Logic.Relation

/-!
# Runs of a step function

Several parties act on one state, each in steps that nothing interrupts.  A label says
which step is taken and what it finds outside of the state, and the step function gives
the next state or nothing when the step cannot be taken.  A property of every run is an
invariant of the steps; when the steps keep it under a condition only, it holds in every
run whose steps meet the condition.
-/

namespace MetaFilogic

variable {State Label : Type*}

/-- One step from `s` to `s'` that meets the condition `allowed`. -/
def StepsTo (allowed : State → Label → Prop) (step : State → Label → Option State)
    (s s' : State) : Prop :=
  ∃ label, allowed s label ∧ step s label = some s'

/-- A run from `s` to `s'` whose steps all meet the condition `allowed`. -/
abbrev Reaches (allowed : State → Label → Prop) (step : State → Label → Option State) :
    State → State → Prop :=
  Relation.ReflTransGen (StepsTo allowed step)

def anyStep (_ : State) (_ : Label) : Prop := True

variable {allowed : State → Label → Prop} {step : State → Label → Option State}
  {s s' : State}

variable {inv : State → Prop} {labels : List Label} {base : State → Label → Prop}

theorem Reaches.invariant
    (preserved : ∀ s label s', inv s → allowed s label → step s label = some s' → inv s')
    (start : inv s) (reaches : Reaches allowed step s s') : inv s' := by
  induction reaches with
  | refl => exact start
  | tail _ last ih =>
    obtain ⟨label, meets, stepped⟩ := last
    exact preserved _ label _ ih meets stepped

def runSteps (step : State → Label → Option State) : List Label → State → Option State
  | [], s => some s
  | label :: labels, s => (step s label).bind (runSteps step labels)

theorem runSteps_cons {label : Label} (stepped : step s label = some s') :
    runSteps step (label :: labels) s = runSteps step labels s' := by
  rw [runSteps, stepped, Option.bind_some]

def AllAllowed (allowed : State → Label → Prop) (step : State → Label → Option State) :
    List Label → State → Prop
  | [], _ => True
  | label :: labels, s =>
    allowed s label ∧ ∀ s', step s label = some s' → AllAllowed allowed step labels s'

instance decidableAllAllowed [∀ s label, Decidable (allowed s label)] :
    ∀ (labels : List Label) (s : State), Decidable (AllAllowed allowed step labels s)
  | [], _ => isTrue trivial
  | label :: labels, s =>
    have : Decidable (∀ s', step s label = some s' → AllAllowed allowed step labels s') :=
      match step s label with
      | none => isTrue nofun
      | some next =>
        have := decidableAllAllowed labels next
        decidable_of_iff (AllAllowed allowed step labels next)
          ⟨fun meets _ same => Option.some_inj.mp same ▸ meets, fun meets => meets next rfl⟩
    inferInstanceAs (Decidable (_ ∧ _))

theorem reaches_of_runSteps (meet : AllAllowed allowed step labels s)
    (run : runSteps step labels s = some s') : Reaches allowed step s s' := by
  induction labels generalizing s with
  | nil =>
    obtain rfl := Option.some_inj.mp run
    exact .refl
  | cons label labels ih =>
    obtain ⟨next, first, rest⟩ := Option.bind_eq_some_iff.mp run
    exact .head ⟨label, meet.1, first⟩ (ih (meet.2 next first) rest)

theorem allAllowed_anyStep : AllAllowed anyStep step labels s := by
  induction labels generalizing s with
  | nil => trivial
  | cons label labels ih => exact ⟨trivial, fun _ _ => ih⟩

/-- Two conditions that agree wherever the invariant holds hold of the same sequences. -/
theorem allAllowed_congr {other : State → Label → Prop}
    (same : ∀ s label, inv s → base s label → (allowed s label ↔ other s label))
    (preserved : ∀ s label s', inv s → base s label → allowed s label →
      step s label = some s' → inv s') (start : inv s) (based : AllAllowed base step labels s) :
    AllAllowed allowed step labels s ↔ AllAllowed other step labels s := by
  induction labels generalizing s with
  | nil => exact Iff.rfl
  | cons label labels ih =>
    constructor
    · intro all
      refine ⟨(same s label start based.1).mp all.1, fun s' stepped => ?_⟩
      exact (ih (preserved s label s' start based.1 all.1 stepped) (based.2 s' stepped)).mp
        (all.2 s' stepped)
    · intro all
      have first := (same s label start based.1).mpr all.1
      refine ⟨first, fun s' stepped => ?_⟩
      exact (ih (preserved s label s' start based.1 first stepped) (based.2 s' stepped)).mpr
        (all.2 s' stepped)

def Throughout (inv : State → Prop) (step : State → Label → Option State) :
    List Label → State → Prop
  | [], s => inv s
  | label :: labels, s => inv s ∧ ∀ s', step s label = some s' → Throughout inv step labels s'

theorem Throughout.head (throughout : Throughout inv step labels s) : inv s := by
  cases labels with
  | nil => exact throughout
  | cons _ _ => exact throughout.1

theorem Throughout.last (throughout : Throughout inv step labels s)
    (run : runSteps step labels s = some s') : inv s' := by
  induction labels generalizing s with
  | nil =>
    obtain rfl := Option.some_inj.mp run
    exact throughout
  | cons label labels ih =>
    obtain ⟨next, first, rest⟩ := Option.bind_eq_some_iff.mp run
    exact ih (throughout.2 next first) rest

/-- Where a step from a state with the property keeps it exactly under a condition, the property
holds throughout a run exactly when all its steps meet the condition. -/
theorem throughout_iff (good : State → Prop)
    (taken : ∀ s label, base s label → ∃ s', step s label = some s')
    (stays : ∀ s label s', good s → base s label → step s label = some s' → good s')
    (keeps : ∀ s label s', good s → inv s → base s label → step s label = some s' →
      (inv s' ↔ allowed s label)) (start : good s) (holds : inv s)
    (based : AllAllowed base step labels s) :
    Throughout inv step labels s ↔ AllAllowed allowed step labels s := by
  induction labels generalizing s with
  | nil => exact ⟨fun _ => trivial, fun _ => holds⟩
  | cons label labels ih =>
    obtain ⟨next, stepped⟩ := taken s label based.1
    have one := keeps s label next start holds based.1 stepped
    have rest := fun held : inv next =>
      ih (stays s label next start based.1 stepped) held (based.2 next stepped)
    constructor
    · intro throughout
      have held := (throughout.2 next stepped).head
      refine ⟨one.1 held, fun s' other => ?_⟩
      obtain rfl := Option.some_inj.1 (stepped.symm.trans other)
      exact (rest held).1 (throughout.2 next stepped)
    · intro meet
      refine ⟨holds, fun s' other => ?_⟩
      obtain rfl := Option.some_inj.1 (stepped.symm.trans other)
      exact (rest (one.2 meet.1)).2 (meet.2 next stepped)

/-- A property that a stronger invariant gives holds throughout a run exactly when all steps meet the
condition, where the condition keeps the invariant and a step that does not meet it breaks the
property. -/
theorem throughout_iff_of_invariant (good : State → Prop) (gives : ∀ s, good s → inv s)
    (taken : ∀ s label, base s label → ∃ s', step s label = some s')
    (keeps : ∀ s label s', good s → allowed s label → step s label = some s' → good s')
    (breaks : ∀ s label s', good s → step s label = some s' → inv s' → allowed s label)
    (start : good s) (based : AllAllowed base step labels s) :
    Throughout inv step labels s ↔ AllAllowed allowed step labels s := by
  induction labels generalizing s with
  | nil => exact ⟨fun _ => trivial, fun _ => gives s start⟩
  | cons label labels ih =>
    obtain ⟨next, stepped⟩ := taken s label based.1
    have rest := fun meets : allowed s label =>
      ih (keeps s label next start meets stepped) (based.2 next stepped)
    constructor
    · intro throughout
      have later := throughout.2 next stepped
      have meets := breaks s label next start stepped later.head
      refine ⟨meets, fun s' other => ?_⟩
      obtain rfl := Option.some_inj.1 (stepped.symm.trans other)
      exact (rest meets).1 later
    · intro meet
      refine ⟨gives s start, fun s' other => ?_⟩
      obtain rfl := Option.some_inj.1 (stepped.symm.trans other)
      exact (rest meet.1).2 (meet.2 next stepped)

end MetaFilogic
