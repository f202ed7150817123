import MetaFilogic.Nmbm.Persistence

/-!
# Losing power during an update

`nmbm_update_info_table_once` writes the backup table before the main table, and
`nmbm_rescue_main_info_table` writes a temporary table before it gives up the backup
table.  So whenever the device stops, some table is complete: the main table while
the backup table is written, the new backup table while the main table and the
temporary table are written, and the temporary table after that.
-/

namespace MetaFilogic.Nmbm

variable {ld : LowerDevice}

def Event.Leaves (flash : Flash) : Event → Prop
  | .erase _ after | .program _ after | .markBad _ after => after = flash
  | _ => False

/-- Between the two states the chip had a property after every lower-device write. -/
def Keeps (property : Flash → Prop) (before after : State) : Prop :=
  ∃ new, after.trace = new ++ before.trace ∧
    ∀ event ∈ new, ∀ flash, event.Leaves flash → property flash

namespace Keeps

variable {property : Flash → Prop} {before middle after : State}

theorem trans (first : Keeps property before middle) (second : Keeps property middle after) :
    Keeps property before after := by
  obtain ⟨new, trace, kept⟩ := first
  obtain ⟨newer, later, keptLater⟩ := second
  refine ⟨newer ++ new, by rw [later, trace, List.append_assoc], fun event among flash leaves => ?_⟩
  exact (List.mem_append.mp among).elim (fun fresh => keptLater event fresh flash leaves)
    fun old => kept event old flash leaves

theorem idle (trace : after.trace = before.trace) : Keeps property before after :=
  ⟨[], trace, by simp⟩

theorem cleaned (ld : LowerDevice) (property : Flash → Prop) (state : State) :
    Keeps property state (markTablesClean ld state).2 :=
  ⟨[_], rfl, by simp [Event.Leaves]⟩

end Keeps

def HasTable (ld : LowerDevice) (images : List (List Byte)) (flash : Flash) : Prop :=
  ∃ start stop, ∃ image ∈ images, HoldsTable ld flash start stop image

theorem Confined.keeps (sound : ld.Sound) {region : Nat → Prop} {before after : State}
    {images : List (List Byte)} {start stop : Nat} {image : List Byte}
    (confined : Confined ld region before after) (holds : HoldsTable ld before.flash start stop image)
    (among : image ∈ images) (apart : ∀ block, Between start stop block → ¬region block) :
    Keeps (HasTable ld images) before after := by
  obtain ⟨new, trace, within⟩ := confined.trace
  refine ⟨new, trace, fun event recorded flash leaves => ⟨start, stop, image, among, ?_⟩⟩
  have inside := within event recorded
  cases event with
  | erase => exact leaves ▸ holds.frame sound inside.2.1 apart
  | program => exact leaves ▸ holds.frame sound inside.2.1 apart
  | markBad => exact leaves ▸ holds.frame sound inside.2.1 apart
  | _ => exact leaves.elim

theorem update_bind {α : Type} {state : State} {update : Instance → Instance}
    {next : Unit → NmbmM α} {post : α → State → Prop}
    (rest : ∀ after, after.flash = state.flash → after.trace = state.trace →
      after.ni = update state.ni → Ensures (next ()) after post) :
    Ensures (modifyNi update >>= next) state post :=
  rest _ rfl rfl rfl

section Crash

variable (sound : ld.Sound) (images : List (List Byte)) {state : State}

include sound

theorem writeInfoTable_keeps {ba limit start stop : Nat} {image : List Byte}
    (valid : ValidTable ld state.ni.infoTableCache)
    (holds : HoldsTable ld state.flash start stop image) (among : image ∈ images)
    (apart : stop ≤ ba ∨ limit ≤ start) :
    Ensures (writeInfoTable ld ba limit) state fun range after =>
      Keeps (HasTable ld images) state after ∧ Writes ld (Between ba limit) state after ∧
        HoldsTable ld after.flash start stop image ∧
          ∀ low high, range = some (low, high) → ba ≤ low ∧ high ≤ limit ∧
            HoldsTable ld after.flash low high state.ni.infoTableCache := by
  refine (writeInfoTable_spec sound ba limit valid).mono fun range after written => ?_
  refine ⟨written.1.toConfined.keeps sound holds among fun block inside outside => ?_, written.1,
    holds.keep sound written.1 apart, written.2⟩
  have := inside.1
  have := inside.2
  have := outside.1
  have := outside.2
  omega

theorem rescueMainInfoTable_keeps {start : Nat} (valid : ValidTable ld state.ni.infoTableCache)
    (among : state.ni.infoTableCache ∈ images)
    (backup : HoldsTable ld state.flash start state.ni.mappingBlocksBa state.ni.infoTableCache) :
    Ensures (rescueMainInfoTable ld) state fun _ after => Keeps (HasTable ld images) state after := by
  unfold rescueMainInfoTable
  refine .getNi_bind ?_
  split
  · exact .modifyNi_bind (.pure (.idle rfl))
  · rename_i writeBa reserved
    have above := reserveTableStart_ge reserved
    refine (writeInfoTableDownward_spec sound
      (show state.ni.mappingBlocksBa + (writeBa + 1 - state.ni.mappingBlocksBa) ≤ writeBa + 1
        by omega) valid).bind fun tmp written tmpWrite => ?_
    have keeps : Keeps (HasTable ld images) state written :=
      tmpWrite.1.toConfined.keeps sound backup among fun block inside outside => by
        have := inside.2
        have := outside.1
        omega
    cases tmp with
    | none => exact .modifyNi_bind (.pure keeps)
    | some range =>
      obtain ⟨tmpStart, tmpEnd⟩ := range
      obtain ⟨_, _, tmpHolds⟩ := tmpWrite.2 _ _ rfl
      have cache : written.ni.infoTableCache = state.ni.infoTableCache := tmpWrite.1.cache
      refine update_bind fun moved movedFlash movedTrace movedNi => .getNi_bind ?_
      have movedCache : moved.ni.infoTableCache = state.ni.infoTableCache := by
        rw [movedNi]
        exact cache
      -- From here on the temporary table is the complete one
      refine (writeInfoTable_keeps sound images (movedCache ▸ valid) (movedFlash ▸ tmpHolds) among
        (Or.inr le_rfl)).bind fun main rewritten mainWrite => ?_
      obtain ⟨keepsMain, _, _, placed⟩ := mainWrite
      have all := (keeps.trans (.idle movedTrace)).trans keepsMain
      cases main with
      | none =>
        exact update_bind fun after _ trace _ =>
          (all.trans (.idle trace)).trans (.cleaned ld _ after)
      | some range =>
        obtain ⟨mainStart, mainEnd⟩ := range
        have fits := (placed _ _ rfl).2.1
        refine update_bind fun after _ trace _ => ?_
        have cleans : Ensures (markTablesClean ld) after fun _ cleaned =>
            Keeps (HasTable ld images) state cleaned :=
          (all.trans (.idle trace)).trans (.cleaned ld _ after)
        refine cleans.bind fun _ cleaned kept => ?_
        rw [if_pos fits]
        exact .modifyNi_bind (.pure kept)

theorem updatePair_keeps {force : Bool} {mainStop : Nat} {mainImage : List Byte}
    (some : state.ni.mainTableBa ≠ 0)
    (main : HoldsTable ld state.flash state.ni.mainTableBa mainStop mainImage)
    (below : mainStop ≤ state.ni.backupTableBa)
    (valid : ValidTable ld (generated ld state).ni.infoTableCache) (mainAmong : mainImage ∈ images)
    (generatedAmong : (generated ld state).ni.infoTableCache ∈ images)
    (written : (writeInfoTable ld state.ni.backupTableBa state.ni.mappingBlocksTopBa
      (generated ld state)).1 ≠ none) :
    Ensures (updateInfoTableOnce ld force) state fun _ after =>
      Keeps (HasTable ld images) state after := by
  have between := main.lt
  refine updateInfoTableOnce_cases (fun _ _ _ => .idle rfl) (fun _ alone => by omega) fun _ _ => ?_
  have mainGenerated : HoldsTable ld (generated ld state).flash state.ni.mainTableBa mainStop
      mainImage := main
  have first := (writeInfoTable_keeps sound images valid mainGenerated mainAmong (Or.inl below)).both
    (show Ensures (writeInfoTable ld state.ni.backupTableBa state.ni.mappingBlocksTopBa)
      (generated ld state) fun range _ => range ≠ none from written)
  refine first.bind fun range middle both => ?_
  obtain ⟨⟨keeps, writes, _, placed⟩, done⟩ := both
  have keepsMiddle : Keeps (HasTable ld images) state middle := keeps
  cases range with
  | none => exact absurd rfl done
  | some range =>
    obtain ⟨backupStart, backupEnd⟩ := range
    obtain ⟨low, _, backup⟩ := placed _ _ rfl
    have cache : middle.ni.infoTableCache = (generated ld state).ni.infoTableCache :=
      writes.cache
    have mainBa : middle.ni.mainTableBa = state.ni.mainTableBa := writes.mainTableBa
    refine update_bind fun moved movedFlash movedTrace movedNi => ?_
    have cleans : Ensures (markTablesClean ld) moved fun _ clean =>
        Keeps (HasTable ld images) moved clean ∧ SameTables moved clean ∧
          clean.ni.infoTableCache = moved.ni.infoTableCache :=
      ⟨.cleaned ld _ moved, ⟨rfl, rfl, rfl, rfl, rfl⟩, rfl⟩
    refine cleans.bind fun _ clean cleaned => ?_
    obtain ⟨keepsClean, same, sameCache⟩ := cleaned
    have keepsAll := (keepsMiddle.trans (.idle movedTrace)).trans keepsClean
    have cleanCache : clean.ni.infoTableCache = (generated ld state).ni.infoTableCache := by
      rw [sameCache, movedNi]
      exact cache
    have cleanMain : clean.ni.mainTableBa = state.ni.mainTableBa := by
      rw [same.main, movedNi]
      exact mainBa
    have cleanBackup : clean.ni.backupTableBa = backupStart := by rw [same.backup, movedNi]
    have cleanBlocks : clean.ni.mappingBlocksBa = backupEnd := by rw [same.blocks, movedNi]
    have cleanHolds : HoldsTable ld clean.flash backupStart backupEnd clean.ni.infoTableCache := by
      rw [same.flash, movedFlash, cleanCache]
      exact backup
    -- The new backup table is complete while the main table is written
    unfold updateMainInfoTable
    refine .getNi_bind (.ite (fun is => by omega) fun _ => ?_)
    refine (writeInfoTable_keeps sound images (cleanCache ▸ valid) cleanHolds
      (cleanCache ▸ generatedAmong) (Or.inr le_rfl)).bind fun main rewritten mainWrite => ?_
    obtain ⟨keepsMain, mainWrites, backupIntact, _⟩ := mainWrite
    have all := keepsAll.trans keepsMain
    have rewrittenCache : rewritten.ni.infoTableCache = clean.ni.infoTableCache :=
      mainWrites.cache
    have rewrittenBlocks : rewritten.ni.mappingBlocksBa = backupEnd :=
      mainWrites.mappingBlocksBa.trans cleanBlocks
    cases main with
    | some range =>
      exact update_bind fun after _ trace _ =>
        (all.trans (.idle trace)).trans (.cleaned ld _ after)
    | none =>
      refine .ite (fun is => by omega) fun _ => ?_
      have rescued := rescueMainInfoTable_keeps sound images
        (rewrittenCache.trans cleanCache ▸ valid) (rewrittenCache.trans cleanCache ▸ generatedAmong)
          (rewrittenBlocks.symm ▸ rewrittenCache.symm ▸ backupIntact)
      exact rescued.mono fun _ after keepsRescue => all.trans keepsRescue

omit sound in
theorem Session.mainBelow {capacity : Nat} (session : Session ld capacity state)
    (some : state.ni.mainTableBa ≠ 0) (two : state.ni.backupTableBa ≠ 0) :
    ∃ stop image, HoldsTable ld state.flash state.ni.mainTableBa stop image ∧
      stop ≤ state.ni.backupTableBa := by
  obtain ⟨stop, image, holds, within⟩ := session.layout.main some
  rw [Instance.mainLimit, if_neg two] at within
  exact ⟨stop, image, holds, within⟩

end Crash

end MetaFilogic.Nmbm
