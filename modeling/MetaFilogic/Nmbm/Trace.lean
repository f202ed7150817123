import MetaFilogic.Nmbm.Update
import MetaFilogic.Nmbm.Run

/-!
# What a run records

Records only ever pile up, in every function of the driver, so a condition on the
records of a run holds at each point on the way.  `Faithful` is the condition
under which the bookkeeping is sound: a spare block is only taken while the block
at `mapping_blocks_top_ba` is itself usable, and an attach only finds signatures
and tables that the driver has written where they are found.
-/

namespace MetaFilogic.Nmbm

open Bytes

section Conditions

variable (ld : LowerDevice)

def LoadedTable.WrittenHere (signatureBa : Nat) (earlier : List Event) (table : LoadedTable) :
    Prop :=
  ∃ lower limit, .tableWrite lower limit table.image ∈ earlier ∧ lower ≤ table.startBa ∧
    table.endBa ≤ limit ∧ limit < signatureBa

def LoadedTable.AgreesWith (table other : LoadedTable) : Prop :=
  table.writeCount = other.writeCount →
    ∀ lb, lb < ld.blockCount → imageMapping table.image lb = imageMapping other.image lb

def Event.FaithfulTo (earlier : List Event) : Event → Prop
  | .spareTaken topState => topState = BLOCK_ST_GOOD
  | .signatureFound _ signature =>
    ∃ limit image, .signatureWrite limit image ∈ earlier ∧ signature = Signature.parse image
  | .tablesFound _ signatureBa main backup =>
    main.WrittenHere signatureBa earlier ∧
      ∀ second ∈ backup, second.WrittenHere signatureBa earlier ∧ main.AgreesWith ld second
  | _ => True

def Faithful : List Event → Prop
  | [] => True
  | event :: earlier => event.FaithfulTo ld earlier ∧ Faithful earlier

end Conditions

/-- Whenever a logical block lost its mapping a dirty counter was up. -/
def Noticed (trace : List Event) : Prop :=
  ∀ dirty, .unmapped dirty ∈ trace → dirty = true

instance (trace : List Event) : Decidable (Noticed trace) :=
  decidable_of_iff (trace.all (fun | .unmapped dirty => dirty | _ => true) = true) <| by
    rw [List.all_eq_true]
    refine ⟨fun all dirty among => all _ among, fun is event among => ?_⟩
    cases event with
    | unmapped dirty => exact is dirty among
    | _ => rfl

variable {ld : LowerDevice}

/-- Whether some record of written management data passes a test. -/
instance (signatureBa : Nat) (earlier : List Event) (table : LoadedTable) :
    Decidable (table.WrittenHere signatureBa earlier) :=
  decidable_of_iff (earlier.any (fun
      | .tableWrite lower limit image => image = table.image ∧ lower ≤ table.startBa ∧
          table.endBa ≤ limit ∧ limit < signatureBa
      | _ => false) = true) <| by
    rw [List.any_eq_true]
    constructor
    · rintro ⟨event, among, passes⟩
      cases event with
      | tableWrite lower limit image =>
        obtain ⟨rfl, fits⟩ := of_decide_eq_true passes
        exact ⟨lower, limit, among, fits⟩
      | _ => cases passes
    · rintro ⟨lower, limit, among, fits⟩
      exact ⟨_, among, decide_eq_true ⟨rfl, fits⟩⟩

instance (table other : LoadedTable) : Decidable (table.AgreesWith ld other) := by
  unfold LoadedTable.AgreesWith
  infer_instance

instance (earlier : List Event) (event : Event) : Decidable (event.FaithfulTo ld earlier) :=
  match event with
  | .spareTaken topState => inferInstanceAs (Decidable (topState = BLOCK_ST_GOOD))
  | .signatureFound _ signature =>
    decidable_of_iff (earlier.any (fun
        | .signatureWrite _ image => signature = Signature.parse image
        | _ => false) = true) <| by
      rw [List.any_eq_true]
      constructor
      · rintro ⟨event, among, passes⟩
        cases event with
        | signatureWrite limit image => exact ⟨limit, image, among, of_decide_eq_true passes⟩
        | _ => cases passes
      · rintro ⟨limit, image, among, parsed⟩
        exact ⟨_, among, decide_eq_true parsed⟩
  | .tablesFound _ signatureBa main none =>
    decidable_of_iff (main.WrittenHere signatureBa earlier) ⟨fun is => ⟨is, nofun⟩, And.left⟩
  | .tablesFound _ signatureBa main (some second) =>
    decidable_of_iff (main.WrittenHere signatureBa earlier ∧
        second.WrittenHere signatureBa earlier ∧ main.AgreesWith ld second) <| by
      refine ⟨fun is => ⟨is.1, fun other among => ?_⟩, fun is => ⟨is.1, is.2 second rfl⟩⟩
      obtain rfl := Option.some.inj among
      exact is.2
  | .erase _ _ | .program _ _ | .markBad _ _ | .signatureWrite _ _ | .tableWrite _ _ _
  | .tablesClean _ | .unmapped _ | .attached => .isTrue trivial

instance decidableFaithful : (trace : List Event) → Decidable (Faithful ld trace)
  | [] => .isTrue trivial
  | event :: earlier =>
    have := decidableFaithful earlier
    inferInstanceAs (Decidable (event.FaithfulTo ld earlier ∧ Faithful ld earlier))

theorem Faithful.earlier {new old : List Event} (faithful : Faithful ld (new ++ old)) :
    Faithful ld old := by
  induction new with
  | nil => exact faithful
  | cons _ _ ih => exact ih faithful.2

/-! ## Records pile up -/

def Grows (before after : State) : Prop := ∃ new, after.trace = new ++ before.trace

theorem Grows.refl (state : State) : Grows state state := ⟨[], rfl⟩

variable {α : Type} {before after : State} {program : NmbmM α}

theorem Grows.trans {middle : State} (first : Grows before middle) (second : Grows middle after) :
    Grows before after := by
  obtain ⟨new, trace⟩ := first
  obtain ⟨newer, later⟩ := second
  exact ⟨newer ++ new, by rw [later, trace, List.append_assoc]⟩

instance : IsPreorder State Grows where
  refl := .refl
  trans _ _ _ := .trans

theorem Grows.faithful (grows : Grows before after) (faithful : Faithful ld after.trace) :
    Faithful ld before.trace := by
  obtain ⟨new, trace⟩ := grows
  rw [trace] at faithful
  exact faithful.earlier

theorem Grows.mem (grows : Grows before after) {event : Event} (among : event ∈ before.trace) :
    event ∈ after.trace := by
  obtain ⟨new, trace⟩ := grows
  exact trace ▸ List.mem_append_right _ among

theorem Grows.noticed (grows : Grows before after) (noticed : Noticed after.trace) :
    Noticed before.trace :=
  fun dirty among => noticed dirty (grows.mem among)

theorem Confined.grows {region : Nat → Prop} (confined : Confined ld region before after) :
    Grows before after :=
  let ⟨new, trace, _⟩ := confined.trace
  ⟨new, trace⟩

theorem Maintained.grows (maintained : Maintained ld before after) : Grows before after :=
  let ⟨new, trace, _⟩ := maintained.trace
  ⟨new, trace⟩

/-- Under a condition on the records at the end, it may be assumed at the start. -/
theorem ensures_faithful {state : State} {post : α → State → Prop} (grows : Preserves Grows program)
    (holds : Faithful ld state.trace →
      Ensures program state fun value after => Faithful ld after.trace → post value after) :
    Ensures program state fun value after => Faithful ld after.trace → post value after :=
  fun faithful => holds ((grows state).faithful faithful) faithful

theorem grows_of_touches (ld : LowerDevice) (touches : Preserves (Touches ld Anywhere) program) :
    Preserves Grows program :=
  fun state => (touches state).grows

theorem grows_of_confined (ld : LowerDevice) (confined : Preserves (Confined ld Anywhere) program) :
    Preserves Grows program :=
  fun state => (confined state).grows

theorem grows_getNi : Preserves Grows getNi := Grows.refl

theorem grows_modifyNi (update : Instance → Instance) : Preserves Grows (modifyNi update) :=
  fun _ => ⟨[], rfl⟩

theorem grows_note (event : Event) : Preserves Grows (note event) := fun _ => ⟨[event], rfl⟩

end MetaFilogic.Nmbm
