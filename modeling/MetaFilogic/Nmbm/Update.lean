import MetaFilogic.Nmbm.Pair

/-!
# Bringing the tables up to date

`nmbm_update_info_table` repeats whole rounds.  `Maintained` is what any number
of rounds leaves alone, `Saved` and `Durable` are what they are for: with both
dirty counters at zero one of the two tables on flash has the mapping, or all
that is in memory.
-/

namespace MetaFilogic.Nmbm

open Bytes

def Instance.kept (ni : Instance) : Instance :=
  { ni.settled with infoTableCache := [], infoTable := ⟨⟨0, 0, 0, 0⟩, 0, 0, 0, 0⟩ }

section Definitions

variable (ld : LowerDevice)

structure Describes (image : List Byte) (blockMapping : Nat → BitVec 32) : Prop where
  valid : ValidTable ld image
  placed : (InfoTableHeader.parse image).Placed ld
  mapping : ∀ lb, lb < ld.blockCount → imageMapping image lb = blockMapping lb

def Event.Maintains (before : State) : Event → Prop
  | .tableWrite lower limit image =>
    (∀ block, lower ≤ block → block < limit → before.ni.Spares block) ∧
      Describes ld image before.ni.blockMapping
  | event => event.Within ld before.ni.Spares before

structure Maintained (before after : State) : Prop where
  kept : after.ni.kept = before.ni.kept
  placed : after.ni.infoTable.Placed ld
  states : ∀ ba, after.ni.getBlockState ba = before.ni.getBlockState ba ∨
    before.ni.Spares ba ∧ after.ni.getBlockState ba = BLOCK_ST_BAD
  flash : before.flash.AgreesOutside ld before.ni.Spares after.flash
  trace : ∃ new, after.trace = new ++ before.trace ∧ ∀ event ∈ new, event.Maintains ld before

/-- Some logical block's mapping is not only in memory: a dirty counter is up or a
table on flash has the mapping. -/
def Saved (state : State) : Prop :=
  state.ni.mgmtStartBa = 0 ∨ state.ni.blockStateChanged ≠ 0 ∨
    state.ni.blockMappingChanged ≠ 0 ∨
      ∃ image, Stores ld state image ∧
        ∀ lb, lb < ld.blockCount → imageMapping image lb = state.ni.blockMapping lb

/-- A dirty counter is up or a table on flash has the tables in memory. -/
def Durable (state : State) : Prop :=
  state.ni.isProtected = true ∨ state.ni.blockStateChanged ≠ 0 ∨
    state.ni.blockMappingChanged ≠ 0 ∨
      ∃ image, Stores ld state image ∧ state.ni.describedBy ld image = true

end Definitions

/-- Every clearing of the dirty counters found the image still describing the tables
in memory. -/
def Exact (trace : List Event) : Prop :=
  ∀ exact, .tablesClean exact ∈ trace → exact = true

instance (trace : List Event) : Decidable (Exact trace) :=
  decidable_of_iff (trace.all (fun | .tablesClean exact => exact | _ => true) = true) <| by
    rw [List.all_eq_true]
    refine ⟨fun all exact among => all _ among, fun is event among => ?_⟩
    cases event with
    | tablesClean exact => exact is exact among
    | _ => rfl

variable {ld : LowerDevice}

namespace Maintained

variable {before middle after : State}

theorem mapping (maintained : Maintained ld before after) :
    after.ni.blockMapping = before.ni.blockMapping :=
  (congrArg Instance.blockMapping maintained.kept :)

theorem flags (maintained : Maintained ld before after) : after.ni.flags = before.ni.flags :=
  (congrArg Instance.flags maintained.kept :)

theorem dataBlockCount (maintained : Maintained ld before after) :
    after.ni.dataBlockCount = before.ni.dataBlockCount :=
  (congrArg Instance.dataBlockCount maintained.kept :)

theorem mgmtStartBa (maintained : Maintained ld before after) :
    after.ni.mgmtStartBa = before.ni.mgmtStartBa :=
  (congrArg Instance.mgmtStartBa maintained.kept :)

theorem mappingBlocksTopBa (maintained : Maintained ld before after) :
    after.ni.mappingBlocksTopBa = before.ni.mappingBlocksTopBa :=
  (congrArg Instance.mappingBlocksTopBa maintained.kept :)

theorem signatureBa (maintained : Maintained ld before after) :
    after.ni.signatureBa = before.ni.signatureBa :=
  (congrArg Instance.signatureBa maintained.kept :)

theorem spares (maintained : Maintained ld before after) : after.ni.Spares = before.ni.Spares := by
  simp only [Instance.Spares, maintained.mgmtStartBa, maintained.mappingBlocksTopBa]

theorem refl (placed : before.ni.infoTable.Placed ld) : Maintained ld before before :=
  ⟨rfl, placed, fun _ => Or.inl rfl, .refl _, ⟨[], rfl, by simp⟩⟩

theorem maintains (first : Maintained ld before middle) {event : Event}
    (later : event.Maintains ld middle) : event.Maintains ld before := by
  have spares := first.spares
  cases event with
  | erase block flash =>
    exact ⟨spares ▸ later.1, first.flash.trans (spares ▸ later.2.1), first.flags ▸ later.2.2⟩
  | program block flash =>
    exact ⟨spares ▸ later.1, first.flash.trans (spares ▸ later.2.1), first.flags ▸ later.2.2⟩
  | markBad block flash =>
    exact ⟨spares ▸ later.1, first.flash.trans (spares ▸ later.2.1), first.flags ▸ later.2.2⟩
  | tableWrite lower limit image => exact ⟨spares ▸ later.1, first.mapping ▸ later.2⟩
  | tablesClean => trivial
  | signatureWrite => exact later
  | spareTaken => exact later
  | unmapped => exact later
  | signatureFound => exact later
  | tablesFound => exact later
  | attached => exact later

theorem trans (first : Maintained ld before middle) (second : Maintained ld middle after) :
    Maintained ld before after where
  kept := second.kept.trans first.kept
  placed := second.placed
  states ba := by
    rcases second.states ba with same | bad
    · rw [same]
      exact first.states ba
    · exact Or.inr (first.spares ▸ bad)
  flash := first.flash.trans (first.spares ▸ second.flash)
  trace := by
    obtain ⟨new, trace, inside⟩ := first.trace
    obtain ⟨newer, traceAfter, insideAfter⟩ := second.trace
    refine ⟨newer ++ new, by rw [traceAfter, trace, List.append_assoc], ?_⟩
    intro event among
    rcases List.mem_append.mp among with late | early
    · exact first.maintains (insideAfter event late)
    · exact inside event early

end Maintained

section Image

variable (sound : ld.Sound)

include sound

variable {state : State}

theorem describes_generated (placed : state.ni.infoTable.Placed ld) :
    Describes ld (generated ld state).ni.infoTableCache state.ni.blockMapping := by
  have nextPlaced : (state.ni.nextInfoTable ld).Placed ld := placed
  refine ⟨validTable_infoTableImage sound _ _ nextPlaced rfl rfl,
    placed_infoTableImage sound _ _ nextPlaced, fun lb below => ?_⟩
  exact imageMapping_infoTableImage sound _ _ nextPlaced below

/-- Maintenance that stays in the spare area once the image has been generated. -/
theorem maintained_of_confined {before after : State} (placed : before.ni.infoTable.Placed ld)
    (confined : Confined ld before.ni.Spares (generated ld before) after) :
    Maintained ld before after where
  kept := (congrArg Instance.kept confined.settled :)
  placed := by
    rw [confined.infoTable]
    exact placed
  states := confined.states
  flash := confined.flash
  trace := by
    obtain ⟨new, trace, inside⟩ := confined.trace
    refine ⟨new, trace, fun event among => ?_⟩
    have within := inside event among
    cases event with
    | tableWrite lower limit image =>
      exact ⟨within.1, within.2 ▸ describes_generated sound placed⟩
    | erase => exact within
    | program => exact within
    | markBad => exact within
    | tablesClean => trivial
    | signatureWrite => exact within
    | spareTaken => exact within
    | unmapped => exact within
    | signatureFound => exact within
    | tablesFound => exact within
    | attached => exact within

structure Updated (ld : LowerDevice) (before after : State) : Prop where
  maintained : Maintained ld before after
  layout : Layout ld after
  saved : Saved ld before → Saved ld after
  durable : Durable ld before → Exact after.trace → Durable ld after

omit sound in
theorem Updated.idle (layout : Layout ld state) (placed : state.ni.infoTable.Placed ld) :
    Updated ld state state :=
  ⟨.refl placed, layout, id, fun durable _ => durable⟩

omit sound in
theorem Maintained.exact {before after : State} (maintained : Maintained ld before after)
    (exact : Exact after.trace) : Exact before.trace := by
  obtain ⟨new, trace, _⟩ := maintained.trace
  intro noted among
  exact exact noted (trace ▸ List.mem_append_right _ among)

/-- A table with the generated image is on flash, and the dirty counters have been
cleared since it was generated. -/
theorem writtenBack {after : State} (placed : state.ni.infoTable.Placed ld)
    (stores : Stores ld after (generated ld state).ni.infoTableCache)
    (cleaned : Cleaned ld state.ni.Spares (generated ld state) after) :
    Saved ld after ∧ (Exact after.trace → Durable ld after) := by
  have describes := describes_generated sound placed
  have mapping : after.ni.blockMapping = state.ni.blockMapping := cleaned.confined.mapping
  refine ⟨Or.inr (Or.inr (Or.inr ⟨_, stores, mapping ▸ describes.mapping⟩)), fun exact => ?_⟩
  by_cases clear : after.ni.blockStateChanged = 0
  · have cache := cleaned.confined.cache
    exact Or.inr (Or.inr (Or.inr ⟨_, cache ▸ stores, exact _ (cleaned.noted clear)⟩))
  · exact Or.inr (Or.inl clear)

theorem updateInfoTableOnce_updated (layout : Layout ld state)
    (placed : state.ni.infoTable.Placed ld)
    (dirty : state.ni.blockStateChanged ≠ 0 ∨ state.ni.blockMappingChanged ≠ 0) :
    Ensures (updateInfoTableOnce ld false) state fun _ after =>
      Maintained ld state after ∧ Layout ld after ∧ Saved ld after ∧
        (Exact after.trace → Durable ld after) := by
  have describes := describes_generated sound placed
  refine (updateInfoTableOnce_spec sound layout describes.valid (by tauto)).mono
    fun success after round => ?_
  obtain ⟨kept, done, failed⟩ := round
  have maintained := maintained_of_confined sound placed kept.confined
  have start := maintained.mgmtStartBa
  cases success with
  | true =>
    obtain ⟨saved, durable⟩ := writtenBack sound placed (done rfl).1 (done rfl).2
    exact ⟨maintained, kept.layout, saved, durable⟩
  | false =>
    refine ⟨maintained, kept.layout, ?_, fun _ => Or.inl (failed rfl).1⟩
    rcases (failed rfl).2 with recorded | none
    · have states : state.ni.blockStateChanged ≤ after.ni.blockStateChanged :=
        recorded.counted
      have mapping : after.ni.blockMappingChanged = state.ni.blockMappingChanged :=
        recorded.mappingCounter
      rcases dirty with states | mapping
      · exact Or.inr (Or.inl (by omega))
      · exact Or.inr (Or.inr (Or.inl (by omega)))
    · exact Or.inl (by omega)

theorem updateInfoTableLoop_spec {rounds : Nat} (layout : Layout ld state)
    (placed : state.ni.infoTable.Placed ld) :
    Ensures (updateInfoTableLoop ld rounds) state fun _ after => Updated ld state after := by
  induction rounds generalizing state with
  | zero => exact .pure (.idle layout placed)
  | succ rounds ih =>
    unfold updateInfoTableLoop
    refine .getNi_bind (.ite (fun dirty => ?_) fun _ => .pure (.idle layout placed))
    refine (updateInfoTableOnce_updated sound layout placed dirty).bind
      fun _ middle round => ?_
    obtain ⟨maintained, middleLayout, saved, durable⟩ := round
    refine .ite (fun _ => ?_) fun _ =>
      .pure ⟨maintained, middleLayout, fun _ => saved, fun _ => durable⟩
    refine (ih middleLayout maintained.placed).mono fun _ after rest => ?_
    exact ⟨maintained.trans rest.maintained, rest.layout, fun _ => rest.saved saved,
      fun _ exact => rest.durable (durable (rest.maintained.exact exact)) exact⟩

theorem updateInfoTable_spec (layout : Layout ld state) (placed : state.ni.infoTable.Placed ld) :
    Ensures (updateInfoTable ld) state fun _ after => Updated ld state after := by
  unfold updateInfoTable
  exact .getNi_bind (.ite (fun _ => .pure (.idle layout placed)) fun _ =>
    updateInfoTableLoop_spec sound layout placed)

end Image

theorem updateInfoTableLoop_clean (rounds : Nat) (state : State) :
    Ensures (updateInfoTableLoop ld rounds) state fun success after => success = true →
      after.ni.blockStateChanged = 0 ∧ after.ni.blockMappingChanged = 0 := by
  induction rounds generalizing state with
  | zero => exact .pure nofun
  | succ rounds ih =>
    unfold updateInfoTableLoop
    refine .getNi_bind (.ite (fun _ => ?_) fun clean => .pure fun _ => ?_)
    · exact Ensures.bind (.of_true _ _) fun _ middle _ =>
        .ite (fun _ => ih middle) fun _ => .pure nofun
    · simpa only [not_or, not_not] using clean

theorem updateInfoTable_clean {state : State} (notProtected : state.ni.isProtected = false) :
    Ensures (updateInfoTable ld) state fun success after => success = true →
      after.ni.blockStateChanged = 0 ∧ after.ni.blockMappingChanged = 0 := by
  unfold updateInfoTable
  refine .getNi_bind (.ite (fun isProtected => ?_) fun _ => updateInfoTableLoop_clean _ state)
  rw [notProtected] at isProtected
  cases isProtected

end MetaFilogic.Nmbm
