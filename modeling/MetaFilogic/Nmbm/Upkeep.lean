import MetaFilogic.Nmbm.Stored

/-!
# Table maintenance from outside

What the functions that maintain the pair of info tables leave alone whatever
state they are started in: the mapping, the boundaries of the spare area, the
signature and the image being written.  `Recorded` and `Cleaned` say what became
of the dirty counters on the way.
-/

namespace MetaFilogic.Nmbm

open Bytes

variable {ld : LowerDevice} {region wider : Nat → Prop}

def Anywhere (_ba : Nat) : Prop := True

/-- Nothing was written back between the two states: every change of a block state
is still counted. -/
structure Recorded (ld : LowerDevice) (region : Nat → Prop) (before after : State) : Prop
    extends Confined ld region before after where
  mappingCounter : after.ni.blockMappingChanged = before.ni.blockMappingChanged
  counted : before.ni.blockStateChanged ≤ after.ni.blockStateChanged
  still : after.ni.blockStateChanged = before.ni.blockStateChanged →
    after.ni.blockState = before.ni.blockState
  lost : after.ni.blockStateChanged ≠ before.ni.blockStateChanged → Lost region before after

/-- The dirty counters were cleared somewhere between the two states, and what
happened after the last time is recorded. -/
def Cleaned (ld : LowerDevice) (region : Nat → Prop) (before after : State) : Prop :=
  ∃ clean, Confined ld region before clean ∧ clean.ni.blockStateChanged = 0 ∧
    clean.ni.blockMappingChanged = 0 ∧
    .tablesClean (clean.ni.describedBy ld clean.ni.infoTableCache) ∈ clean.trace ∧
    Recorded ld region clean after

theorem Writes.recorded {before after : State} (writes : Writes ld region before after) :
    Recorded ld region before after :=
  ⟨writes.toConfined, writes.blockMappingChanged, writes.counted, writes.still, writes.lost⟩

namespace Recorded

variable {before middle after : State}

theorem trans (first : Recorded ld region before middle)
    (second : Recorded ld region middle after) : Recorded ld region before after where
  toConfined := first.toConfined.trans second.toConfined
  mappingCounter := second.mappingCounter.trans first.mappingCounter
  counted := first.counted.trans second.counted
  still same := by
    have low := first.counted
    have high := second.counted
    exact (second.still (by omega)).trans (first.still (by omega))
  lost changed := by
    by_cases early : middle.ni.blockStateChanged = before.ni.blockStateChanged
    · obtain ⟨ba, inside, notYet, bad⟩ := second.lost (by omega)
      exact ⟨ba, inside, fun already => notYet (first.bad already), bad⟩
    · obtain ⟨ba, inside, notYet, bad⟩ := first.lost early
      exact ⟨ba, inside, notYet, second.bad bad⟩

theorem ofUpdate (state : State) (update : Instance → Instance)
    (settled : (update state.ni).settled = state.ni.settled)
    (states : (update state.ni).blockState = state.ni.blockState)
    (stateCounter : (update state.ni).blockStateChanged = state.ni.blockStateChanged)
    (mappingCounter : (update state.ni).blockMappingChanged = state.ni.blockMappingChanged) :
    Recorded ld region state { state with ni := update state.ni } :=
  ⟨.ofSettled update settled states, mappingCounter, stateCounter.ge, fun _ => states,
    fun changed => absurd stateCounter changed⟩

end Recorded

namespace Cleaned

variable {before middle after : State}

theorem confined (cleaned : Cleaned ld region before after) : Confined ld region before after :=
  let ⟨_, first, _, _, _, second⟩ := cleaned
  first.trans second.toConfined

theorem recorded (cleaned : Cleaned ld region before middle)
    (later : Recorded ld region middle after) : Cleaned ld region before after :=
  let ⟨clean, first, states, mapping, noted, second⟩ := cleaned
  ⟨clean, first, states, mapping, noted, second.trans later⟩

theorem afterConfined (earlier : Confined ld region before middle)
    (cleaned : Cleaned ld region middle after) : Cleaned ld region before after :=
  let ⟨clean, first, states, mapping, noted, second⟩ := cleaned
  ⟨clean, earlier.trans first, states, mapping, noted, second⟩

theorem mappingCounter (cleaned : Cleaned ld region before after) :
    after.ni.blockMappingChanged = 0 :=
  let ⟨_, _, _, mapping, _, second⟩ := cleaned
  second.mappingCounter.trans mapping

/-- With both counters at zero the last clearing tells whether the image describes
the tables in memory. -/
theorem noted (cleaned : Cleaned ld region before after) (clear : after.ni.blockStateChanged = 0) :
    .tablesClean (after.ni.describedBy ld after.ni.infoTableCache) ∈ after.trace := by
  obtain ⟨clean, _, states, _, noted, second⟩ := cleaned
  have same := second.still (by omega)
  have described : after.ni.describedBy ld after.ni.infoTableCache =
      clean.ni.describedBy ld clean.ni.infoTableCache := by
    simp only [Instance.describedBy, same, second.mapping, second.cache]
  obtain ⟨new, trace, _⟩ := second.trace
  rw [described, trace]
  exact List.mem_append_right _ noted

theorem lost (cleaned : Cleaned ld region before after)
    (dirty : after.ni.blockStateChanged ≠ 0) : Lost region before after := by
  obtain ⟨clean, first, states, _, _, second⟩ := cleaned
  obtain ⟨ba, inside, notYet, bad⟩ := second.lost (by omega)
  exact ⟨ba, inside, fun already => notYet (first.bad already), bad⟩

end Cleaned

theorem markTablesClean_cleaned (state : State) :
    Cleaned ld region state (markTablesClean ld state).2 := by
  refine ⟨(markTablesClean ld state).2, ⟨rfl, fun _ => Or.inl rfl, .refl _,
    ⟨[.tablesClean (state.ni.describedBy ld state.ni.infoTableCache)], rfl, ?_⟩⟩, rfl, rfl, ?_,
      Writes.recorded (.refl _)⟩
  · simp [Event.Within]
  · exact List.mem_cons_self

/-! ## Preservation from any state -/

theorem confined_moveBind {α : Type} {update : Instance → Instance} {next : Unit → NmbmM α}
    (settled : ∀ ni, (update ni).settled = ni.settled)
    (states : ∀ ni, (update ni).blockState = ni.blockState)
    (rest : Preserves (Confined ld region) (next ())) :
    Preserves (Confined ld region) (modifyNi update >>= next) :=
  Preserves.bind (fun state => .ofSettled update (settled state.ni) (states state.ni)) fun _ => rest

theorem confined_getNi : Preserves (Confined ld region) getNi :=
  Confined.refl

theorem confined_markTablesClean : Preserves (Confined ld region) (markTablesClean ld) :=
  fun state => (markTablesClean_cleaned state).confined

section Anywhere

variable (sound : ld.Sound)

include sound

theorem confined_writeInfoTable (ba limit : Nat) :
    Preserves (Confined ld Anywhere) (writeInfoTable ld ba limit) :=
  fun state => (writes_writeInfoTable sound (fun _ _ => trivial) state).toConfined

theorem confined_eraseRange (ba limit : Nat) :
    Preserves (Confined ld Anywhere) (eraseRange ld ba limit) :=
  fun state => (touches_eraseRange sound (fun _ _ => trivial) state).toConfined

theorem confined_writeInfoTableDownward (writeBa tries : Nat) :
    Preserves (Confined ld Anywhere) (writeInfoTableDownward ld writeBa tries) := by
  induction tries generalizing writeBa with
  | zero => exact .pure _
  | succ tries ih =>
    unfold writeInfoTableDownward
    refine confined_getNi.bind fun ni => ?_
    refine (confined_writeInfoTable sound _ _).bind fun range => ?_
    cases range with
    | some range => exact .pure _
    | none => exact ih _

theorem confined_rebuildInfoTable : Preserves (Confined ld Anywhere) (rebuildInfoTable ld) := by
  unfold rebuildInfoTable
  refine confined_moveBind (fun _ => rfl) (fun _ => rfl) ?_
  refine confined_getNi.bind fun ni => ?_
  refine (confined_writeInfoTable sound _ _).bind fun main => ?_
  cases main with
  | none => exact confined_moveBind (fun _ => rfl) (fun _ => rfl) (.pure _)
  | some main =>
    refine confined_moveBind (fun _ => rfl) (fun _ => rfl) ?_
    refine confined_markTablesClean.bind fun _ => confined_getNi.bind fun ni => ?_
    split
    · exact .pure _
    · refine (confined_writeInfoTable sound _ _).bind fun backup => ?_
      cases backup with
      | none => exact .pure _
      | some backup =>
        refine confined_moveBind (fun _ => rfl) (fun _ => rfl) ?_
        exact (confined_eraseRange sound _ _).bind fun _ => .pure _

theorem confined_rescueSingleInfoTable :
    Preserves (Confined ld Anywhere) (rescueSingleInfoTable ld) := by
  unfold rescueSingleInfoTable
  refine confined_getNi.bind fun ni => (confined_writeInfoTable sound _ _).bind fun front => ?_
  cases front with
  | some front =>
    refine confined_moveBind (fun _ => rfl) (fun _ => rfl) ?_
    refine confined_markTablesClean.bind fun _ => confined_getNi.bind fun ni => ?_
    exact (confined_eraseRange sound _ _).bind fun _ => .pure _
  | none =>
    refine confined_getNi.bind fun ni => ?_
    split
    · exact .pure _
    · refine (confined_writeInfoTableDownward sound _ _).bind fun back => ?_
      cases back with
      | none => exact .pure _
      | some back =>
        refine confined_getNi.bind fun ni => (confined_eraseRange sound _ _).bind fun _ => ?_
        refine confined_moveBind (fun _ => rfl) (fun _ => rfl) ?_
        exact confined_markTablesClean.bind fun _ => .pure _

theorem confined_updateSingleInfoTable (updateMainTable : Bool) :
    Preserves (Confined ld Anywhere) (updateSingleInfoTable ld updateMainTable) := by
  unfold updateSingleInfoTable
  refine confined_getNi.bind fun ni => (confined_writeInfoTable sound _ _).bind fun range => ?_
  cases range with
  | some range =>
    refine .ite (fun _ => ?_) fun _ => ?_
    · exact confined_moveBind (fun _ => rfl) (fun _ => rfl) <|
        confined_markTablesClean.bind fun _ => .pure _
    · exact confined_moveBind (fun _ => rfl) (fun _ => rfl) <|
        confined_markTablesClean.bind fun _ => .pure _
  | none =>
    refine .ite (fun _ => ?_) fun _ => ?_
    · exact confined_moveBind (fun _ => rfl) (fun _ => rfl) <|
        confined_rescueSingleInfoTable sound
    · exact confined_moveBind (fun _ => rfl) (fun _ => rfl) (.pure _)

omit sound in
theorem confined_promoteBackupTable : Preserves (Confined ld region) promoteBackupTable :=
  fun _ => .ofSettled (fun ni => { ni with mainTableBa := ni.backupTableBa, backupTableBa := 0 })
    rfl rfl

theorem confined_rescueBackupInfoTable (mainTableEndBa : Nat) :
    Preserves (Confined ld Anywhere) (rescueBackupInfoTable ld mainTableEndBa) := by
  unfold rescueBackupInfoTable
  refine confined_moveBind (fun _ => rfl) (fun _ => rfl) ?_
  refine confined_getNi.bind fun ni => ?_
  split
  · exact confined_moveBind (fun _ => rfl) (fun _ => rfl) (.pure _)
  · refine (confined_writeInfoTableDownward sound _ _).bind fun back => ?_
    cases back with
    | none => exact confined_moveBind (fun _ => rfl) (fun _ => rfl) (.pure _)
    | some back =>
      refine confined_moveBind (fun _ => rfl) (fun _ => rfl) ?_
      exact (confined_eraseRange sound _ _).bind fun _ => .pure _

theorem confined_rescueMainInfoTable :
    Preserves (Confined ld Anywhere) (rescueMainInfoTable ld) := by
  unfold rescueMainInfoTable
  refine confined_getNi.bind fun ni => ?_
  split
  · exact confined_promoteBackupTable.bind fun _ => .pure _
  · refine (confined_writeInfoTableDownward sound _ _).bind fun tmp => ?_
    cases tmp with
    | none => exact confined_promoteBackupTable.bind fun _ => .pure _
    | some tmp =>
      refine confined_moveBind (fun _ => rfl) (fun _ => rfl) ?_
      refine confined_getNi.bind fun ni => ?_
      refine (confined_writeInfoTable sound _ _).bind fun main => ?_
      cases main with
      | none =>
        refine confined_moveBind (fun _ => rfl) (fun _ => rfl) ?_
        exact confined_markTablesClean.bind fun _ => .pure _
      | some main =>
        refine confined_moveBind (fun _ => rfl) (fun _ => rfl) ?_
        refine confined_markTablesClean.bind fun _ => .ite (fun _ => ?_) fun _ => ?_
        · exact confined_moveBind (fun _ => rfl) (fun _ => rfl) (.pure _)
        · exact confined_rescueBackupInfoTable sound _

theorem confined_updateMainInfoTable (mainTableLimit : Nat) :
    Preserves (Confined ld Anywhere) (updateMainInfoTable ld mainTableLimit) := by
  unfold updateMainInfoTable
  refine confined_getNi.bind fun ni => .ite (fun _ => ?_) fun _ => ?_
  · exact confined_rebuildInfoTable sound
  · refine (confined_writeInfoTable sound _ _).bind fun range => ?_
    cases range with
    | none =>
      exact .ite (fun _ => confined_rebuildInfoTable sound) fun _ =>
        confined_rescueMainInfoTable sound
    | some range =>
      refine confined_moveBind (fun _ => rfl) (fun _ => rfl) ?_
      exact confined_markTablesClean.bind fun _ => .pure _

section Update

variable {related : State → State → Prop} [IsPreorder State related]

theorem preserves_updateInfoTableOnce
    (confined : ∀ before after, Confined ld Anywhere before after → related before after)
    (generates : Preserves related (generateInfoTableCache ld)) (force : Bool) :
    Preserves related (updateInfoTableOnce ld force) := by
  unfold updateInfoTableOnce
  refine generates.bind fun changed => .ite (fun _ => .pure _) fun _ => ?_
  refine Preserves.mono ?_ confined
  refine confined_getNi.bind fun ni => .ite (fun _ => ?_) fun _ => ?_
  · exact confined_updateMainInfoTable sound _
  · refine (confined_writeInfoTable sound _ _).bind fun range => ?_
    cases range with
    | none =>
      exact confined_moveBind (fun _ => rfl) (fun _ => rfl) (confined_updateMainInfoTable sound _)
    | some range =>
      refine confined_moveBind (fun _ => rfl) (fun _ => rfl) ?_
      exact confined_markTablesClean.bind fun _ => confined_updateMainInfoTable sound _

theorem preserves_updateInfoTable
    (confined : ∀ before after, Confined ld Anywhere before after → related before after)
    (generates : Preserves related (generateInfoTableCache ld)) :
    Preserves related (updateInfoTable ld) := by
  have read : Preserves related getNi := fun state => confined _ _ (.refl state)
  have loop (rounds : Nat) : Preserves related (updateInfoTableLoop ld rounds) := by
    induction rounds with
    | zero => exact .pure _
    | succ rounds ih =>
      unfold updateInfoTableLoop
      refine read.bind fun ni => .ite (fun _ => ?_) fun _ => .pure _
      exact (preserves_updateInfoTableOnce sound confined generates false).bind fun _ =>
        .ite (fun _ => ih) fun _ => .pure _
  unfold updateInfoTable
  exact read.bind fun ni => .ite (fun _ => .pure _) fun _ => loop _

end Update

end Anywhere

end MetaFilogic.Nmbm
