import MetaFilogic.Upgrade.Scripts

/-!
# Interrupted upgrades

What the commands keep, and what is expected of an upgrade at every point at which it may be
interrupted.
-/

namespace MetaFilogic.Upgrade

open Journey

/-! ## What is expected -/

/-- The slot that is upgraded, the volumes and the contents of its parts, and the volumes of the
slot that was booted. -/
structure Plan where
  slot : String
  parts : List (String × List (BitVec 8))
  booted : List String

def Written (d : Device) (name : String) (part : List (BitVec 8)) : Prop :=
  part ≠ [] → ∃ vol, d.vols name = some vol ∧ vol.bytes = part ∧ vol.whole = true

def Selects (slot : String) (d : Device) : Prop :=
  d.env currentSlot = some slot ∨ d.env (slotInvalid slot) = some "0"

/-- The upgraded slot is selected only when it is complete; otherwise the one before still is.  The
volumes of the booted slot are as they were. -/
structure Safe (plan : Plan) (before d : Device) : Prop where
  complete : Selects plan.slot d → ∀ part ∈ plan.parts, Written d part.1 part.2
  selected : ¬ Selects plan.slot d → d.env currentSlot = before.env currentSlot
  booted : ∀ name ∈ plan.booted, d.vols name = before.vols name

/-- Nothing has been changed in the environment or the booted slot. -/
structure Idle (booted : List String) (before d : Device) : Prop where
  env : d.env = before.env
  booted : ∀ name ∈ booted, d.vols name = before.vols name

/-- All parts are complete, and another slot may be selected. -/
structure Done (plan : Plan) (before d : Device) : Prop where
  parts : ∀ part ∈ plan.parts, Written d part.1 part.2
  env : d.env currentSlot = before.env currentSlot ∨ d.env currentSlot = some plan.slot
  booted : ∀ name ∈ plan.booted, d.vols name = before.vols name

variable {plan : Plan} {before d : Device} {booted : List String}

theorem Idle.refl : Idle booted before before := ⟨rfl, fun _ _ => rfl⟩

theorem Idle.safe (idle : Idle plan.booted before d) (unselected : ¬ Selects plan.slot before) :
    Safe plan before d := by
  have same : Selects plan.slot d ↔ Selects plan.slot before := by
    rw [Selects, Selects, idle.env]
  refine ⟨fun selected => absurd (same.mp selected) unselected, fun _ => ?_, idle.booted⟩
  rw [idle.env]

theorem Done.safe (done : Done plan before d) : Safe plan before d :=
  ⟨fun _ => done.parts, fun unselected =>
    done.env.resolve_right fun selected => unselected (.inl selected), done.booted⟩

/-! ## What the commands keep -/

theorem setVol_of_ne {name other : String} {vol : Option Volume} (different : other ≠ name) :
    (d.setVol name vol).vols other = d.vols other :=
  Function.update_of_ne different _ _

theorem setVol_self {name : String} {vol : Option Volume} : (d.setVol name vol).vols name = vol :=
  Function.update_self _ _ _

theorem setEnv_of_ne {name other value : String} (different : other ≠ name) :
    (d.setEnv name value).env other = d.env other :=
  Function.update_of_ne different _ _

theorem setEnv_self {name value : String} : (d.setEnv name value).env name = some value :=
  Function.update_self _ _ _

def Ignores (inv : Device → Prop) (name : String) : Prop :=
  ∀ d vol, inv d → inv (d.setVol name vol)

theorem Idle.ignores {name : String} (apart : name ∉ booted) :
    Ignores (Idle booted before) name :=
  fun _ _ idle => ⟨idle.env, fun other member =>
    (setVol_of_ne fun same : other = name => apart (same ▸ member)).trans (idle.booted other member)⟩

section

variable {inv : Device → Prop} {name : String} {ok : Bool}

theorem stays_ubirmvol (ignores : Ignores inv name) : Stays inv (ubirmvol name ok) := by
  rw [ubirmvol]
  split
  · exact stays_change fun d => ignores d none
  · exact .pure _

theorem stays_ubimkvol {size : Nat} (ignores : Ignores inv name) :
    Stays inv (ubimkvol name size ok) := by
  refine stays_look fun d _ => ?_
  split
  · exact .bind (stays_change fun d => ignores d _) fun _ => .pure _
  · exact .pure _

theorem stays_ubiupdatevol {mtd : Bool} {len : Nat} {stream : List (BitVec 8)}
    (ignores : ∀ vol, (∃ d, inv d ∧ d.findVolume mtd name = some vol) →
      ∀ d bytes whole, inv d → inv (d.setVol name (some { vol with bytes, whole }))) :
    Stays inv (ubiupdatevol mtd name len stream ok) := by
  refine stays_look fun d holds => ?_
  split
  next => exact .pure _
  next vol found =>
    have kept := ignores vol ⟨d, holds, found⟩
    split
    · exact .pure _
    · refine .bind (stays_change fun d => kept d _ _) fun _ => ?_
      split
      · exact .bind (stays_change fun d => kept d _ _) fun _ => .pure _
      · exact .pure _

theorem stays_redirect {stream : List (BitVec 8)} {opened : Bool} (ignores : Ignores inv name) :
    Stays inv (redirect name stream opened ok) := by
  rw [redirect]
  split
  · refine .bind (stays_change fun d => ignores d _) fun _ => ?_
    split
    · exact stays_change fun d => ignores d _
    · exact .pure _
  · exact .pure _

theorem stays_saveConfig (holds : ∀ d, inv d →
    inv (d.setVol name ((d.vols name).map fun vol => { vol with config := true }))) :
    Stays inv (saveConfig name ok) := by
  rw [saveConfig]
  split
  · exact stays_change holds
  · exact .pure _

theorem stays_fwSetenv {value : String} (holds : ∀ d, inv d → inv (d.setEnv name value)) :
    Stays inv (fwSetenv name value ok) := by
  rw [fwSetenv]
  split
  · exact stays_change holds
  · exact .pure _

end

/-! ## The environment -/

theorem slotInvalid_ne (slot : String) : currentSlot ≠ slotInvalid slot := by
  intro same
  have chars := congrArg (fun s : String => s.toList[10]?) same
  simp [currentSlot, slotInvalid] at chars

theorem Done.setEnv (done : Done plan before d) {name value : String}
    (sets : name = currentSlot ∧ value = plan.slot ∨ name ≠ currentSlot) :
    Done plan before (d.setEnv name value) := by
  refine ⟨done.parts, ?_, done.booted⟩
  rcases sets with ⟨rfl, rfl⟩ | other
  · exact .inr setEnv_self
  · rw [setEnv_of_ne other.symm]
    exact done.env

theorem Done.stays_setImageSlot {o : EnvOutcomes} :
    Stays (Done plan before) (setImageSlot plan.slot o) := by
  rw [setImageSlot]
  split
  · refine .bind (stays_fwSetenv fun d done => done.setEnv (.inl ⟨rfl, rfl⟩)) fun _ => ?_
    exact stays_fwSetenv fun d done => done.setEnv (.inr (slotInvalid_ne _).symm)
  · exact .pure _

/-- No slot, or no call of `fw_setenv` that succeeds. -/
theorem setImageSlot_eq_pure {slot : String} {o : EnvOutcomes}
    (none : slot ≠ "" → o.current = false ∧ o.invalid = false) :
    setImageSlot slot o = pure ⟨⟩ := by
  rw [setImageSlot]
  split
  next some =>
    obtain ⟨current, invalid⟩ := none some
    rw [fwSetenv, fwSetenv, current, invalid]
    rfl
  next => rfl

end MetaFilogic.Upgrade
