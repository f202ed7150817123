import MetaFilogic.Nmbm.Upkeep

/-!
# The pair of info tables

`Layout` is the order of the five addresses together with the tables they stand
for: the main table lies below the backup table, the last of them ends below
`mapping_blocks_ba`, and both are complete and valid on flash.  Every function
that maintains the tables keeps the layout and stays between the start of the
management area and the next spare block, whatever the device does.
-/

namespace MetaFilogic.Nmbm

open Bytes

def Instance.Spares (ni : Instance) : Nat → Prop :=
  Between ni.mgmtStartBa ni.mappingBlocksTopBa

section Definitions

variable (ld : LowerDevice)

/-- A complete checksum-valid info table lies in the blocks from `start` up to, not
including, `stop`. -/
structure HoldsTable (flash : Flash) (start stop : Nat) (image : List Byte) : Prop where
  valid : ValidTable ld image
  stored : StoredAt ld (fun _ => True) flash start stop image

/-- The info table at `main_table_ba` or the one at `backup_table_ba` is `image`. -/
def Stores (state : State) (image : List Byte) : Prop :=
  ∃ ba stop, (ba = state.ni.mainTableBa ∨ ba = state.ni.backupTableBa) ∧
    state.ni.mgmtStartBa ≤ ba ∧ stop ≤ state.ni.mappingBlocksBa ∧
    HoldsTable ld state.flash ba stop image

def Instance.mainLimit (ni : Instance) : Nat :=
  if ni.backupTableBa = 0 then ni.mappingBlocksBa else ni.backupTableBa

def MainStored (state : State) : Prop :=
  ∃ stop image, HoldsTable ld state.flash state.ni.mainTableBa stop image ∧
    stop ≤ state.ni.mainLimit

def BackupStored (state : State) : Prop :=
  ∃ stop image, HoldsTable ld state.flash state.ni.backupTableBa stop image ∧
    stop ≤ state.ni.mappingBlocksBa

/-- The order of the addresses in the management area and the tables on flash. -/
structure Layout (state : State) : Prop where
  lower : state.ni.mgmtStartBa ≤ state.ni.mappingBlocksBa
  upper : state.ni.mappingBlocksBa ≤ state.ni.mappingBlocksTopBa
  mainLow : state.ni.mainTableBa ≠ 0 ∨ state.ni.backupTableBa ≠ 0 →
    state.ni.mgmtStartBa ≤ state.ni.mainTableBa
  main : state.ni.mainTableBa ≠ 0 → MainStored ld state
  backup : state.ni.backupTableBa ≠ 0 →
    state.ni.mgmtStartBa ≤ state.ni.backupTableBa ∧ BackupStored ld state

/-- What table maintenance guarantees: it stays in the spare area and leaves a
proper layout. -/
structure Upkept (before after : State) : Prop where
  confined : Confined ld before.ni.Spares before after
  layout : Layout ld after

end Definitions

variable {ld : LowerDevice}

variable {start : Nat}

theorem HoldsTable.lt {flash : Flash} {stop : Nat} {image : List Byte}
    (holds : HoldsTable ld flash start stop image) : start < stop :=
  holds.stored.lt

theorem HoldsTable.frame (sound : ld.Sound) {flash after : Flash} {region : Nat → Prop} {stop : Nat}
    {image : List Byte} (holds : HoldsTable ld flash start stop image)
    (agrees : flash.AgreesOutside ld region after)
    (outside : ∀ block, Between start stop block → ¬region block) :
    HoldsTable ld after start stop image :=
  ⟨holds.valid, holds.stored.frame sound agrees outside⟩

theorem HoldsTable.keep (sound : ld.Sound) {before after : State} {lower upper stop : Nat}
    {image : List Byte} (holds : HoldsTable ld before.flash start stop image)
    (writes : Writes ld (Between lower upper) before after) (apart : stop ≤ lower ∨ upper ≤ start) :
    HoldsTable ld after.flash start stop image := by
  refine holds.frame sound writes.flash fun block inside outside => ?_
  have := inside.1
  have := inside.2
  have := outside.1
  have := outside.2
  omega

theorem Writes.spare {ni : Instance} {before after : State} {lower upper : Nat}
    (writes : Writes ld (Between lower upper) before after) (low : ni.mgmtStartBa ≤ lower)
    (high : upper ≤ ni.mappingBlocksTopBa) : Writes ld ni.Spares before after :=
  writes.mono fun _ inside => ⟨low.trans inside.1, inside.2.trans_le high⟩

theorem ValidTable.ne_nil (sound : ld.Sound) {image : List Byte} (valid : ValidTable ld image) :
    image ≠ [] := by
  have positive := sound.infoTableSize_pos
  have length := valid.1
  rintro rfl
  simp only [List.length_nil] at length
  omega

namespace Layout

variable {state : State} {stop mainStop : Nat} {image mainImage : List Byte}

theorem mainLimit_le (layout : Layout ld state) :
    state.ni.mainLimit ≤ state.ni.mappingBlocksBa := by
  unfold Instance.mainLimit
  split
  · exact le_rfl
  · rename_i some
    obtain ⟨_, stop, image, holds, within⟩ := layout.backup some
    have between := holds.lt
    omega

theorem empty (lower : state.ni.mgmtStartBa ≤ state.ni.mappingBlocksBa)
    (upper : state.ni.mappingBlocksBa ≤ state.ni.mappingBlocksTopBa)
    (noMain : state.ni.mainTableBa = 0) (noBackup : state.ni.backupTableBa = 0) : Layout ld state :=
  ⟨lower, upper, by omega, by omega, by omega⟩

theorem single (low : state.ni.mgmtStartBa ≤ state.ni.mainTableBa)
    (main : HoldsTable ld state.flash state.ni.mainTableBa stop image)
    (within : stop ≤ state.ni.mappingBlocksBa)
    (upper : state.ni.mappingBlocksBa ≤ state.ni.mappingBlocksTopBa)
    (noBackup : state.ni.backupTableBa = 0) : Layout ld state := by
  have between := main.lt
  refine ⟨by omega, upper, fun _ => low, fun _ => ⟨stop, image, main, ?_⟩, by omega⟩
  rwa [Instance.mainLimit, if_pos noBackup]

theorem pair (low : state.ni.mgmtStartBa ≤ state.ni.mainTableBa)
    (main : HoldsTable ld state.flash state.ni.mainTableBa mainStop mainImage)
    (below : mainStop ≤ state.ni.backupTableBa)
    (backup : HoldsTable ld state.flash state.ni.backupTableBa stop image)
    (within : stop ≤ state.ni.mappingBlocksBa)
    (upper : state.ni.mappingBlocksBa ≤ state.ni.mappingBlocksTopBa) : Layout ld state := by
  have mainBetween := main.lt
  have backupBetween := backup.lt
  refine ⟨by omega, upper, fun _ => low, fun _ => ⟨mainStop, mainImage, main, ?_⟩,
    fun _ => ⟨by omega, stop, image, backup, within⟩⟩
  rw [Instance.mainLimit, if_neg (by omega)]
  exact below

theorem replaceBackup (low : state.ni.mgmtStartBa ≤ state.ni.mainTableBa)
    (main : state.ni.mainTableBa ≠ 0 → ∃ stop image,
      HoldsTable ld state.flash state.ni.mainTableBa stop image ∧
        stop ≤ state.ni.backupTableBa) (backupLow : state.ni.mgmtStartBa ≤ state.ni.backupTableBa)
    (backup : HoldsTable ld state.flash state.ni.backupTableBa stop image)
    (within : stop ≤ state.ni.mappingBlocksBa)
    (upper : state.ni.mappingBlocksBa ≤ state.ni.mappingBlocksTopBa)
    (some : state.ni.backupTableBa ≠ 0) : Layout ld state := by
  have between := backup.lt
  refine ⟨by omega, upper, fun _ => low, fun is => ?_,
    fun _ => ⟨backupLow, stop, image, backup, within⟩⟩
  rw [MainStored, Instance.mainLimit, if_neg some]
  exact main is

theorem dropBackup (lower : state.ni.mgmtStartBa ≤ state.ni.mappingBlocksBa)
    (upper : state.ni.mappingBlocksBa ≤ state.ni.mappingBlocksTopBa)
    (low : state.ni.mgmtStartBa ≤ state.ni.mainTableBa)
    (main : state.ni.mainTableBa ≠ 0 → ∃ stop image,
      HoldsTable ld state.flash state.ni.mainTableBa stop image ∧
        stop ≤ state.ni.mappingBlocksBa)
    (noBackup : state.ni.backupTableBa = 0) : Layout ld state := by
  refine ⟨lower, upper, fun _ => low, fun is => ?_, by omega⟩
  rw [MainStored, Instance.mainLimit, if_pos noBackup]
  exact main is

end Layout

theorem Stores.main {state : State} {stop : Nat} {image : List Byte}
    (low : state.ni.mgmtStartBa ≤ state.ni.mainTableBa)
    (holds : HoldsTable ld state.flash state.ni.mainTableBa stop image)
    (within : stop ≤ state.ni.mappingBlocksBa) : Stores ld state image :=
  ⟨_, stop, Or.inl rfl, low, within, holds⟩

theorem Stores.backup {state : State} {stop : Nat} {image : List Byte}
    (low : state.ni.mgmtStartBa ≤ state.ni.backupTableBa)
    (holds : HoldsTable ld state.flash state.ni.backupTableBa stop image)
    (within : stop ≤ state.ni.mappingBlocksBa) : Stores ld state image :=
  ⟨_, stop, Or.inr rfl, low, within, holds⟩

/-! ## Writing one table -/

section Write

variable (sound : ld.Sound)

include sound

theorem writeInfoTable_spec (ba limit : Nat) {state : State}
    (valid : ValidTable ld state.ni.infoTableCache) :
    Ensures (writeInfoTable ld ba limit) state fun range after =>
      Writes ld (Between ba limit) state after ∧
        ∀ start stop, range = some (start, stop) → ba ≤ start ∧ stop ≤ limit ∧
          HoldsTable ld after.flash start stop state.ni.infoTableCache := by
  refine ((writes_writeInfoTable sound fun _ between => between).ensures state).both ?_
  refine .getNi_bind (.note_bind ?_)
  refine (writeMgmtRangeLoop_spec sound _).mono fun range after written start stop found => ?_
  obtain ⟨upper, _, fresh⟩ := written start stop found
  obtain ⟨low, stored⟩ := fresh rfl (valid.ne_nil sound)
  have between := stored.lt
  exact ⟨low, by omega, valid, stored.mono fun _ _ => trivial⟩

theorem writeInfoTableDownward_spec {writeBa tries lower : Nat} {state : State}
    (low : lower + tries ≤ writeBa + 1) (valid : ValidTable ld state.ni.infoTableCache) :
    Ensures (writeInfoTableDownward ld writeBa tries) state fun range after =>
      Writes ld (Between lower state.ni.mappingBlocksTopBa) state after ∧
        ∀ start stop, range = some (start, stop) →
          lower ≤ start ∧ stop ≤ state.ni.mappingBlocksTopBa ∧
            HoldsTable ld after.flash start stop state.ni.infoTableCache := by
  induction tries generalizing writeBa state with
  | zero => exact .pure ⟨.refl _, nofun⟩
  | succ tries ih =>
    unfold writeInfoTableDownward
    refine .getNi_bind ?_
    refine (writeInfoTable_spec sound writeBa _ valid).bind fun range after first => ?_
    have touches : Writes ld (Between lower state.ni.mappingBlocksTopBa) state after :=
      first.1.mono fun block between => ⟨by have := between.1; omega, between.2⟩
    cases range with
    | some range =>
      refine .pure ⟨touches, fun start stop found => ?_⟩
      obtain ⟨above, below, holds⟩ := first.2 start stop found
      exact ⟨by omega, below, holds⟩
    | none =>
      have cache := first.1.cache
      have top := first.1.mappingBlocksTopBa
      refine (ih (show lower + tries ≤ writeBa - 1 + 1 by omega) (cache ▸ valid)).mono
        fun range final rest => ?_
      rw [top, cache] at rest
      exact ⟨touches.trans rest.1, rest.2⟩

end Write

theorem reserveTableStart_ge {ni : Instance} {ba writeBa : Nat}
    (reserved : reserveTableStart ld ni ba = some writeBa) : ba ≤ writeBa := by
  have walked {count limit : Nat} (found : blockWalk ld ni true ba count limit = some writeBa) :
      ba ≤ writeBa :=
    (blockWalkAscLoop_spec found).1
  have tries (nblocks limit : Nat)
      (found : tryReserveBlocks ld ni ba 0 limit nblocks = some writeBa) : ba ≤ writeBa := by
    induction nblocks with
    | zero => exact walked found
    | succ nblocks ih =>
      simp only [tryReserveBlocks, Nat.not_lt_zero, if_false] at found
      split at found
      · rename_i start walk
        exact walked (walk.trans found)
      · exact ih found
  exact tries _ _ reserved

/-! ## Steps of the bookkeeping -/

structure SameTables (before after : State) : Prop where
  main : after.ni.mainTableBa = before.ni.mainTableBa
  backup : after.ni.backupTableBa = before.ni.backupTableBa
  blocks : after.ni.mappingBlocksBa = before.ni.mappingBlocksBa
  protection : after.ni.isProtected = before.ni.isProtected
  flash : after.flash = before.flash

section Steps

variable (ld : LowerDevice) (region : Nat → Prop) {α : Type} {state : State} {next : Unit → NmbmM α}
  {post : α → State → Prop}

theorem move_bind {update : Instance → Instance}
    (settled : (update state.ni).settled = state.ni.settled)
    (states : (update state.ni).blockState = state.ni.blockState)
    (stateCounter : (update state.ni).blockStateChanged = state.ni.blockStateChanged)
    (mappingCounter : (update state.ni).blockMappingChanged = state.ni.blockMappingChanged)
    (rest : ∀ after, Recorded ld region state after → after.flash = state.flash →
      after.ni = update state.ni → Ensures (next ()) after post) :
    Ensures (modifyNi update >>= next) state post :=
  rest _ (.ofUpdate state update settled states stateCounter mappingCounter) rfl rfl

theorem clean_bind (rest : ∀ after, Cleaned ld region state after → SameTables state after →
      Ensures (next ()) after post) : Ensures (markTablesClean ld >>= next) state post :=
  rest _ (markTablesClean_cleaned state) ⟨rfl, rfl, rfl, rfl, rfl⟩

end Steps

/-! ## The functions of the pair -/

section Functions

variable (sound : ld.Sound)

include sound

theorem rebuildInfoTable_spec {state : State}
    (fits : state.ni.mgmtStartBa ≤ state.ni.mappingBlocksTopBa)
    (valid : ValidTable ld state.ni.infoTableCache) :
    Ensures (rebuildInfoTable ld) state fun success after =>
      Upkept ld state after ∧
        (success = true → Stores ld after state.ni.infoTableCache ∧
          Cleaned ld state.ni.Spares state after) ∧
        (success = false → Recorded ld state.ni.Spares state after ∧
          after.ni.isProtected = true) := by
  unfold rebuildInfoTable
  refine move_bind ld state.ni.Spares rfl rfl rfl rfl
    fun reset resetRecorded resetFlash resetNi => .getNi_bind ?_
  have start := resetRecorded.mgmtStartBa
  have top := resetRecorded.mappingBlocksTopBa
  have cache := resetRecorded.cache
  refine (writeInfoTable_spec sound _ _ (cache ▸ valid)).bind fun main written mainWrite => ?_
  have mainTouches : Writes ld state.ni.Spares reset written :=
    mainWrite.1.spare start.ge top.le
  have writtenRecorded := resetRecorded.trans mainTouches.recorded
  cases main with
  | none =>
    refine move_bind ld state.ni.Spares rfl rfl rfl rfl
      fun after recorded flash ni => .pure ?_
    have all := writtenRecorded.trans recorded
    have noMain : after.ni.mainTableBa = 0 := by
      rw [ni, mainTouches.mainTableBa, resetNi]
    have noBackup : after.ni.backupTableBa = 0 := by
      rw [ni, mainTouches.backupTableBa, resetNi]
    have blocks : after.ni.mappingBlocksBa = state.ni.mappingBlocksTopBa := by
      rw [ni, mainTouches.mappingBlocksBa, resetNi]
    have topAfter := all.mappingBlocksTopBa
    have startAfter := all.mgmtStartBa
    refine ⟨⟨all.toConfined, ?_⟩, nofun, fun _ => ⟨all, by rw [ni]⟩⟩
    exact .empty (by omega) (by omega) noMain noBackup
  | some range =>
    obtain ⟨mainStart, mainEnd⟩ := range
    obtain ⟨low, high, holds⟩ := mainWrite.2 _ _ rfl
    refine move_bind ld state.ni.Spares rfl rfl rfl rfl fun moved movedRecorded movedFlash movedNi =>
      clean_bind ld state.ni.Spares fun clean cleaned same => .getNi_bind ?_
    have cleanAll : Cleaned ld state.ni.Spares state clean :=
      cleaned.afterConfined (writtenRecorded.trans movedRecorded).toConfined
    have cleanMain : clean.ni.mainTableBa = mainStart := by rw [same.main, movedNi]
    have cleanBackup : clean.ni.backupTableBa = 0 := by
      rw [same.backup, movedNi, mainTouches.backupTableBa, resetNi]
    have cleanBlocks : clean.ni.mappingBlocksBa = mainEnd := by rw [same.blocks, movedNi]
    have cleanCache : clean.ni.infoTableCache = state.ni.infoTableCache := cleanAll.confined.cache
    rw [← movedFlash, ← same.flash, cache] at holds
    rw [start] at low
    rw [top] at high
    -- Whatever is written afterwards, the main table stays where it is
    have done (after : State) (recorded : Recorded ld state.ni.Spares clean after)
        (layout : Layout ld after) (mainSame : after.ni.mainTableBa = mainStart)
        (within : mainEnd ≤ after.ni.mappingBlocksBa)
        (intact : HoldsTable ld after.flash mainStart mainEnd state.ni.infoTableCache) :
        Upkept ld state after ∧
          (true = true → Stores ld after state.ni.infoTableCache ∧
            Cleaned ld state.ni.Spares state after) ∧
          (true = false → Recorded ld state.ni.Spares state after ∧
            after.ni.isProtected = true) := by
      have afterCleaned := cleanAll.recorded recorded
      have afterStart := afterCleaned.confined.mgmtStartBa
      exact ⟨⟨afterCleaned.confined, layout⟩,
        fun _ => ⟨.main (by omega) (mainSame ▸ intact) within, afterCleaned⟩, nofun⟩
    have cleanStart := cleanAll.confined.mgmtStartBa
    have cleanTop := cleanAll.confined.mappingBlocksTopBa
    split
    · refine .pure (done clean (Writes.recorded (.refl _)) ?_ cleanMain cleanBlocks.ge holds)
      exact .single (by omega) (cleanMain ▸ holds) cleanBlocks.ge (by omega) cleanBackup
    · rename_i nextStart reserved
      have above := reserveTableStart_ge reserved
      refine (writeInfoTable_spec sound _ _ (cleanCache ▸ valid)).bind
        fun backup rewritten backupWrite => ?_
      have between := holds.lt
      have backupTouches : Writes ld state.ni.Spares clean rewritten :=
        backupWrite.1.spare (by omega) (by omega)
      have mainIntact := holds.keep sound backupWrite.1 (by omega)
      have mainSame := backupTouches.mainTableBa.trans cleanMain
      have rewrittenStart := backupTouches.mgmtStartBa
      have rewrittenTop := backupTouches.mappingBlocksTopBa
      cases backup with
      | none =>
        have blocksSame := backupTouches.mappingBlocksBa.trans cleanBlocks
        refine .pure (done rewritten backupTouches.recorded ?_ mainSame blocksSame.ge mainIntact)
        exact .single (by omega) (mainSame ▸ mainIntact) blocksSame.ge (by omega)
          (backupTouches.backupTableBa.trans cleanBackup)
      | some range =>
        obtain ⟨backupStart, backupEnd⟩ := range
        obtain ⟨backupLow, backupHigh, backupHolds⟩ := backupWrite.2 _ _ rfl
        have backupBetween := backupHolds.lt
        refine move_bind ld state.ni.Spares rfl rfl rfl rfl
          fun placed placedRecorded placedFlash placedNi => ?_
        refine ((touches_eraseRange sound fun _ between => between).ensures placed).bind
          fun _ after erased => .pure ?_
        have erasedTouches : Writes ld state.ni.Spares placed after :=
          erased.spare (by omega) (by omega)
        have afterMain : after.ni.mainTableBa = mainStart := by
          rw [erasedTouches.mainTableBa, placedNi, mainSame]
        have afterBackup : after.ni.backupTableBa = backupStart := by
          rw [erasedTouches.backupTableBa, placedNi]
        have afterBlocks : after.ni.mappingBlocksBa = backupEnd := by
          rw [erasedTouches.mappingBlocksBa, placedNi]
        have afterRecorded := (backupTouches.recorded.trans placedRecorded).trans
          erasedTouches.recorded
        have afterStart := afterRecorded.mgmtStartBa
        have afterTop := afterRecorded.mappingBlocksTopBa
        rw [← placedFlash] at mainIntact backupHolds
        have afterMainHolds := mainIntact.keep sound erased.toWrites (by omega)
        have afterBackupHolds := backupHolds.keep sound erased.toWrites (by omega)
        refine done after afterRecorded ?_ afterMain (by omega) afterMainHolds
        exact .pair (by omega) (afterMain ▸ afterMainHolds) (by omega)
          (afterBackup ▸ afterBackupHolds) (by omega) (by omega)

/-- `nmbm_rescue_single_info_table` on a chip with a main table. -/
theorem rescueSingleInfoTable_spec {state : State} {stop : Nat} {image : List Byte}
    (low : state.ni.mgmtStartBa ≤ state.ni.mainTableBa)
    (main : HoldsTable ld state.flash state.ni.mainTableBa stop image)
    (within : stop ≤ state.ni.mappingBlocksBa)
    (upper : state.ni.mappingBlocksBa ≤ state.ni.mappingBlocksTopBa)
    (valid : ValidTable ld state.ni.infoTableCache) :
    Ensures (rescueSingleInfoTable ld) state fun success after =>
      (success = true → Upkept ld state after ∧ Stores ld after state.ni.infoTableCache ∧
        Cleaned ld state.ni.Spares state after) ∧
      (success = false → Recorded ld state.ni.Spares state after ∧
        after.ni.mainTableBa = state.ni.mainTableBa ∧
        after.ni.backupTableBa = state.ni.backupTableBa ∧
        after.ni.mappingBlocksBa = state.ni.mappingBlocksBa ∧
        HoldsTable ld after.flash state.ni.mainTableBa stop image) := by
  have mainBetween := main.lt
  unfold rescueSingleInfoTable
  refine .getNi_bind ?_
  refine (writeInfoTable_spec sound _ _ valid).bind fun front written frontWrite => ?_
  have frontTouches : Writes ld state.ni.Spares state written :=
    frontWrite.1.spare le_rfl (by omega)
  have intact := main.keep sound frontWrite.1 (Or.inr le_rfl)
  have writtenStart := frontTouches.mgmtStartBa
  have writtenTop := frontTouches.mappingBlocksTopBa
  have writtenMain := frontTouches.mainTableBa
  have writtenBlocks := frontTouches.mappingBlocksBa
  have writtenCache := frontTouches.cache
  cases front with
  | some range =>
    -- The new table lies in front of the existing one, which becomes the backup
    obtain ⟨newStart, newEnd⟩ := range
    obtain ⟨newLow, newHigh, holds⟩ := frontWrite.2 _ _ rfl
    refine move_bind ld state.ni.Spares rfl rfl rfl rfl fun moved movedRecorded movedFlash movedNi =>
      clean_bind ld state.ni.Spares fun clean cleaned same => .getNi_bind ?_
    refine ((touches_eraseRange sound fun _ between => between).ensures clean).bind
      fun _ after erased => .pure ⟨fun _ => ?_, nofun⟩
    have cleanAll := cleaned.afterConfined
      (frontTouches.recorded.trans movedRecorded).toConfined
    have cleanStart := cleanAll.confined.mgmtStartBa
    have cleanTop := cleanAll.confined.mappingBlocksTopBa
    have cleanMain : clean.ni.mainTableBa = newStart := by rw [same.main, movedNi]
    have cleanBackup : clean.ni.backupTableBa = state.ni.mainTableBa := by
      rw [same.backup, movedNi, writtenMain]
    have cleanBlocks : clean.ni.mappingBlocksBa = state.ni.mappingBlocksBa := by
      rw [same.blocks, movedNi, writtenBlocks]
    rw [← movedFlash, ← same.flash] at holds intact
    have newBetween := holds.lt
    have eraseTouches : Writes ld state.ni.Spares clean after :=
      erased.spare (by omega) (by omega)
    have afterHolds := holds.keep sound erased.toWrites (by omega)
    have afterIntact := intact.keep sound erased.toWrites (by omega)
    have afterMain := eraseTouches.mainTableBa.trans cleanMain
    have afterBackup := eraseTouches.backupTableBa.trans cleanBackup
    have afterBlocks := eraseTouches.mappingBlocksBa.trans cleanBlocks
    have afterStart := eraseTouches.mgmtStartBa.trans cleanStart
    have afterTop := eraseTouches.mappingBlocksTopBa.trans cleanTop
    have afterCleaned := cleanAll.recorded eraseTouches.recorded
    refine ⟨⟨afterCleaned.confined, ?_⟩, ?_, afterCleaned⟩
    · exact .pair (by omega) (afterMain ▸ afterHolds) (by omega) (afterBackup ▸ afterIntact)
        (by omega) (by omega)
    · exact .main (by omega) (afterMain ▸ afterHolds) (by omega)
  | none =>
    refine .getNi_bind ?_
    split
    · refine .pure ⟨nofun, fun _ => ⟨frontTouches.recorded, writtenMain,
        frontTouches.backupTableBa, writtenBlocks, intact⟩⟩
    · rename_i writeBa reserved
      have above := reserveTableStart_ge reserved
      refine (writeInfoTableDownward_spec sound
        (show written.ni.mappingBlocksBa + (writeBa + 1 - written.ni.mappingBlocksBa) ≤ writeBa + 1
          by omega) (writtenCache ▸ valid)).bind fun back rewritten backWrite => ?_
      have backTouches : Writes ld state.ni.Spares written rewritten :=
        backWrite.1.spare (by omega) (by omega)
      have kept := intact.keep sound backWrite.1 (by omega)
      have both := frontTouches.trans backTouches
      cases back with
      | none =>
        exact .pure ⟨nofun, fun _ => ⟨both.recorded, both.mainTableBa, both.backupTableBa,
          both.mappingBlocksBa, kept⟩⟩
      | some range =>
        -- The new table lies behind the existing one and becomes the backup
        obtain ⟨newStart, newEnd⟩ := range
        obtain ⟨newLow, newHigh, holds⟩ := backWrite.2 _ _ rfl
        rw [writtenCache] at holds
        rw [writtenTop] at newHigh
        have newBetween := holds.lt
        have rewrittenBlocks := both.mappingBlocksBa
        refine .getNi_bind ?_
        refine ((touches_eraseRange sound fun _ between => between).ensures rewritten).bind
          fun _ erasedState erased => ?_
        have eraseTouches : Writes ld state.ni.Spares rewritten erasedState :=
          erased.spare (by have := both.mgmtStartBa; omega) (by omega)
        have all := both.trans eraseTouches
        have keptAfter := kept.keep sound erased.toWrites (by omega)
        have holdsAfter := holds.keep sound erased.toWrites (by omega)
        refine move_bind ld state.ni.Spares rfl rfl rfl rfl
          fun moved movedRecorded movedFlash movedNi =>
            clean_bind ld state.ni.Spares fun after cleaned same => .pure ⟨fun _ => ?_, nofun⟩
        have afterCleaned := cleaned.afterConfined (all.recorded.trans movedRecorded).toConfined
        have afterStart := afterCleaned.confined.mgmtStartBa
        have afterTop := afterCleaned.confined.mappingBlocksTopBa
        have afterMain : after.ni.mainTableBa = state.ni.mainTableBa := by
          rw [same.main, movedNi, all.mainTableBa]
        have afterBackup : after.ni.backupTableBa = newStart := by rw [same.backup, movedNi]
        have afterBlocks : after.ni.mappingBlocksBa = newEnd := by rw [same.blocks, movedNi]
        rw [← movedFlash, ← same.flash] at keptAfter holdsAfter
        refine ⟨⟨afterCleaned.confined, ?_⟩, ?_, afterCleaned⟩
        · exact .pair (by omega) (afterMain ▸ keptAfter) (by omega) (afterBackup ▸ holdsAfter)
            (by omega) (by omega)
        · exact .backup (by omega) (afterBackup ▸ holdsAfter) (by omega)

theorem updateSingleInfoTable_main {state : State} {stop : Nat} {image : List Byte}
    (low : state.ni.mgmtStartBa ≤ state.ni.mainTableBa)
    (order : state.ni.mainTableBa ≤ state.ni.backupTableBa)
    (backup : HoldsTable ld state.flash state.ni.backupTableBa stop image)
    (within : stop ≤ state.ni.mappingBlocksBa)
    (upper : state.ni.mappingBlocksBa ≤ state.ni.mappingBlocksTopBa)
    (valid : ValidTable ld state.ni.infoTableCache) :
    Ensures (updateSingleInfoTable ld true) state fun success after =>
      Upkept ld state after ∧
        (success = true → Stores ld after state.ni.infoTableCache ∧
          Cleaned ld state.ni.Spares state after) ∧
        (success = false → Recorded ld state.ni.Spares state after) := by
  have backupBetween := backup.lt
  unfold updateSingleInfoTable
  refine .getNi_bind ?_
  simp only [if_true]
  refine (writeInfoTable_spec sound _ _ valid).bind fun range written write => ?_
  have touches : Writes ld state.ni.Spares state written := write.1.spare low (by omega)
  have intact := backup.keep sound write.1 (Or.inr le_rfl)
  cases range with
  | some range =>
    obtain ⟨newStart, newEnd⟩ := range
    obtain ⟨newLow, newHigh, holds⟩ := write.2 _ _ rfl
    refine move_bind ld state.ni.Spares rfl rfl rfl rfl fun moved movedRecorded movedFlash movedNi =>
      clean_bind ld state.ni.Spares fun after cleaned same => .pure ?_
    have afterCleaned := cleaned.afterConfined (touches.recorded.trans movedRecorded).toConfined
    have afterStart := afterCleaned.confined.mgmtStartBa
    have afterTop := afterCleaned.confined.mappingBlocksTopBa
    have afterMain : after.ni.mainTableBa = newStart := by rw [same.main, movedNi]
    have afterBackup : after.ni.backupTableBa = state.ni.backupTableBa := by
      rw [same.backup, movedNi, touches.backupTableBa]
    have afterBlocks : after.ni.mappingBlocksBa = state.ni.mappingBlocksBa := by
      rw [same.blocks, movedNi, touches.mappingBlocksBa]
    rw [← movedFlash, ← same.flash] at holds intact
    refine ⟨⟨afterCleaned.confined, ?_⟩, fun _ => ⟨?_, afterCleaned⟩, nofun⟩
    · exact .pair (by omega) (afterMain ▸ holds) (by omega) (afterBackup ▸ intact) (by omega)
        (by omega)
    · exact .main (by omega) (afterMain ▸ holds) (by omega)
  | none =>
    refine move_bind ld state.ni.Spares rfl rfl rfl rfl fun moved movedRecorded movedFlash movedNi => ?_
    have recorded := touches.recorded.trans movedRecorded
    have start := recorded.mgmtStartBa
    have top := recorded.mappingBlocksTopBa
    have cache := recorded.cache
    have movedMain : moved.ni.mainTableBa = state.ni.backupTableBa := by
      rw [movedNi, touches.backupTableBa]
    have movedBackup : moved.ni.backupTableBa = 0 := by rw [movedNi]
    have movedBlocks : moved.ni.mappingBlocksBa = state.ni.mappingBlocksBa := by
      rw [movedNi, touches.mappingBlocksBa]
    have spares : moved.ni.Spares = state.ni.Spares := by
      simp only [Instance.Spares, start, top]
    rw [← movedFlash, ← movedMain] at intact
    refine (rescueSingleInfoTable_spec sound (by omega) intact (by omega) (by omega)
      (cache ▸ valid)).mono fun success after rescued => ?_
    rw [cache, spares] at rescued
    cases success with
    | true =>
      obtain ⟨kept, stores, cleaned⟩ := rescued.1 rfl
      exact ⟨⟨(cleaned.afterConfined recorded.toConfined).confined, kept.layout⟩,
        fun _ => ⟨stores, cleaned.afterConfined recorded.toConfined⟩, nofun⟩
    | false =>
      obtain ⟨later, mainSame, backupSame, blocksSame, still⟩ := rescued.2 rfl
      have all := recorded.trans later
      have afterStart := all.mgmtStartBa
      have afterTop := all.mappingBlocksTopBa
      refine ⟨⟨all.toConfined, ?_⟩, nofun, fun _ => all⟩
      exact .single (by omega) (mainSame ▸ still) (by omega) (by omega) (by omega)

theorem updateSingleInfoTable_backup {state : State} {stop : Nat} {image : List Byte}
    (low : state.ni.mgmtStartBa ≤ state.ni.mainTableBa)
    (main : HoldsTable ld state.flash state.ni.mainTableBa stop image)
    (below : stop ≤ state.ni.backupTableBa) (valid : ValidTable ld state.ni.infoTableCache) :
    Ensures (updateSingleInfoTable ld false) state fun success after =>
      (success = true → Upkept ld state after ∧ Stores ld after state.ni.infoTableCache ∧
        Cleaned ld state.ni.Spares state after) ∧
      (success = false → Recorded ld state.ni.Spares state after ∧
        (state.ni.backupTableBa ≤ state.ni.mappingBlocksTopBa → Layout ld after)) := by
  have mainBetween := main.lt
  unfold updateSingleInfoTable
  refine .getNi_bind ?_
  simp only [Bool.false_eq_true, if_false]
  refine (writeInfoTable_spec sound _ _ valid).bind fun range written write => ?_
  have touches : Writes ld state.ni.Spares state written := write.1.spare (by omega) le_rfl
  have intact := main.keep sound write.1 (Or.inl below)
  cases range with
  | some range =>
    obtain ⟨newStart, newEnd⟩ := range
    obtain ⟨newLow, newHigh, holds⟩ := write.2 _ _ rfl
    refine move_bind ld state.ni.Spares rfl rfl rfl rfl fun moved movedRecorded movedFlash movedNi =>
      clean_bind ld state.ni.Spares fun after cleaned same => .pure ⟨fun _ => ?_, nofun⟩
    have afterCleaned := cleaned.afterConfined (touches.recorded.trans movedRecorded).toConfined
    have afterStart := afterCleaned.confined.mgmtStartBa
    have afterTop := afterCleaned.confined.mappingBlocksTopBa
    have afterMain : after.ni.mainTableBa = state.ni.mainTableBa := by
      rw [same.main, movedNi, touches.mainTableBa]
    have afterBackup : after.ni.backupTableBa = newStart := by rw [same.backup, movedNi]
    have afterBlocks : after.ni.mappingBlocksBa = newEnd := by rw [same.blocks, movedNi]
    rw [← movedFlash, ← same.flash] at holds intact
    refine ⟨⟨afterCleaned.confined, ?_⟩, ?_, afterCleaned⟩
    · exact .pair (by omega) (afterMain ▸ intact) (by omega) (afterBackup ▸ holds) (by omega)
        (by omega)
    · exact .backup (by omega) (afterBackup ▸ holds) (by omega)
  | none =>
    refine move_bind ld state.ni.Spares rfl rfl rfl rfl
      fun after recorded flash ni => .pure ⟨nofun, fun _ => ⟨touches.recorded.trans recorded,
        fun fits => ?_⟩⟩
    have all := touches.recorded.trans recorded
    have afterStart := all.mgmtStartBa
    have afterTop := all.mappingBlocksTopBa
    have afterMain : after.ni.mainTableBa = state.ni.mainTableBa := by
      rw [ni, touches.mainTableBa]
    have afterBackup : after.ni.backupTableBa = 0 := by rw [ni]
    have afterBlocks : after.ni.mappingBlocksBa = state.ni.backupTableBa := by
      rw [ni, touches.backupTableBa]
    rw [← flash, ← afterMain] at intact
    exact .single (by omega) intact (by omega) (by omega) afterBackup

omit sound in
theorem promoteBackupTable_spec {state : State}
    (lower : state.ni.mgmtStartBa ≤ state.ni.mappingBlocksBa)
    (upper : state.ni.mappingBlocksBa ≤ state.ni.mappingBlocksTopBa)
    (backup : state.ni.backupTableBa ≠ 0 →
      state.ni.mgmtStartBa ≤ state.ni.backupTableBa ∧ BackupStored ld state) (region : Nat → Prop) :
    Ensures promoteBackupTable state fun _ after =>
      Recorded ld region state after ∧ Layout ld after ∧
        after.flash = state.flash ∧ after.ni.mainTableBa = state.ni.backupTableBa ∧
        after.ni.mappingBlocksBa = state.ni.mappingBlocksBa := by
  refine ⟨.ofUpdate state
    (fun ni => { ni with mainTableBa := ni.backupTableBa, backupTableBa := 0 }) rfl rfl rfl rfl,
    ?_, rfl, rfl, rfl⟩
  by_cases none : state.ni.backupTableBa = 0
  · exact .empty lower upper none rfl
  · obtain ⟨low, stop, image, holds, within⟩ := backup none
    exact .single low holds within upper rfl

theorem rescueMainInfoTable_spec {state : State}
    (lower : state.ni.mgmtStartBa ≤ state.ni.mappingBlocksBa)
    (upper : state.ni.mappingBlocksBa ≤ state.ni.mappingBlocksTopBa)
    (backup : state.ni.backupTableBa ≠ 0 →
      state.ni.mgmtStartBa ≤ state.ni.backupTableBa ∧ BackupStored ld state)
    (valid : ValidTable ld state.ni.infoTableCache) :
    Ensures (rescueMainInfoTable ld) state fun success after =>
      success = true ∧ Upkept ld state after ∧
        (Recorded ld state.ni.Spares state after ∨ Cleaned ld state.ni.Spares state after) ∧
        ((∃ stop, HoldsTable ld state.flash state.ni.backupTableBa stop state.ni.infoTableCache ∧
          state.ni.mgmtStartBa ≤ state.ni.backupTableBa ∧ stop ≤ state.ni.mappingBlocksBa) →
          Stores ld after state.ni.infoTableCache) := by
  unfold rescueMainInfoTable
  refine .getNi_bind ?_
  split
  · refine (promoteBackupTable_spec lower upper backup state.ni.Spares).bind
      fun _ after promoted => .pure ?_
    obtain ⟨recorded, layout, flash, mainSame, blocksSame⟩ := promoted
    refine ⟨rfl, ⟨recorded.toConfined, layout⟩, Or.inl recorded, ?_⟩
    rintro ⟨stop, holds, low, within⟩
    have start := recorded.mgmtStartBa
    rw [← flash, ← mainSame] at holds
    exact .main (by omega) holds (by omega)
  · rename_i writeBa reserved
    have above := reserveTableStart_ge reserved
    refine (writeInfoTableDownward_spec sound
      (show state.ni.mappingBlocksBa + (writeBa + 1 - state.ni.mappingBlocksBa) ≤ writeBa + 1
        by omega) valid).bind fun tmp written tmpWrite => ?_
    have tmpTouches : Writes ld state.ni.Spares state written :=
      tmpWrite.1.spare (by omega) le_rfl
    have start := tmpTouches.mgmtStartBa
    have top := tmpTouches.mappingBlocksTopBa
    have backupSame := tmpTouches.backupTableBa
    have blocksSame := tmpTouches.mappingBlocksBa
    cases tmp with
    | none =>
      have backupKept : written.ni.backupTableBa ≠ 0 →
          written.ni.mgmtStartBa ≤ written.ni.backupTableBa ∧ BackupStored ld written := by
        intro some
        obtain ⟨low, stop, image, holds, within⟩ := backup (by omega)
        refine ⟨by omega, stop, image, ?_, by omega⟩
        rw [backupSame]
        exact holds.keep sound tmpWrite.1 (Or.inl within)
      refine (promoteBackupTable_spec (by omega) (by omega) backupKept state.ni.Spares).bind
        fun _ after promoted => .pure ?_
      obtain ⟨recorded, layout, flash, mainSame, blocksAfter⟩ := promoted
      have all := tmpTouches.recorded.trans recorded
      refine ⟨rfl, ⟨all.toConfined, layout⟩, Or.inl all, ?_⟩
      rintro ⟨stop, holds, low, within⟩
      have kept := holds.keep sound tmpWrite.1 (Or.inl within)
      have startAfter := all.mgmtStartBa
      rw [← flash, ← backupSame, ← mainSame] at kept
      exact .main (by omega) kept (by omega)
    | some range =>
      obtain ⟨tmpStart, tmpEnd⟩ := range
      obtain ⟨tmpLow, tmpHigh, tmpHolds⟩ := tmpWrite.2 _ _ rfl
      have tmpBetween := tmpHolds.lt
      refine move_bind ld state.ni.Spares rfl rfl rfl rfl
        fun moved movedRecorded movedFlash movedNi => .getNi_bind ?_
      have movedAll := tmpTouches.recorded.trans movedRecorded
      have movedStart := movedAll.mgmtStartBa
      have movedTop := movedAll.mappingBlocksTopBa
      have movedCache := movedAll.cache
      have movedBlocks : moved.ni.mappingBlocksBa = tmpEnd := by rw [movedNi]
      rw [← movedFlash] at tmpHolds
      refine (writeInfoTable_spec sound _ _ (movedCache ▸ valid)).bind
        fun main rewritten mainWrite => ?_
      have mainTouches : Writes ld state.ni.Spares moved rewritten :=
        mainWrite.1.spare (by omega) (by omega)
      have tmpIntact := tmpHolds.keep sound mainWrite.1 (Or.inr le_rfl)
      have rewrittenAll := movedAll.trans mainTouches.recorded
      cases main with
      | none =>
        -- Temporary info table becomes the main table
        refine move_bind ld state.ni.Spares rfl rfl rfl rfl
          fun placed placedRecorded placedFlash placedNi =>
            clean_bind ld state.ni.Spares fun after cleaned same => .pure ?_
        have afterCleaned := cleaned.afterConfined
          (rewrittenAll.trans placedRecorded).toConfined
        have afterStart := afterCleaned.confined.mgmtStartBa
        have afterTop := afterCleaned.confined.mappingBlocksTopBa
        have afterMain : after.ni.mainTableBa = tmpStart := by rw [same.main, placedNi]
        have afterBackup : after.ni.backupTableBa = 0 := by rw [same.backup, placedNi]
        have afterBlocks : after.ni.mappingBlocksBa = tmpEnd := by
          rw [same.blocks, placedNi, mainTouches.mappingBlocksBa, movedBlocks]
        rw [← placedFlash, ← same.flash, ← afterMain] at tmpIntact
        exact ⟨rfl, ⟨afterCleaned.confined, .single (by omega) tmpIntact (by omega) (by omega)
          afterBackup⟩, Or.inr afterCleaned, fun _ => .main (by omega) tmpIntact (by omega)⟩
      | some range =>
        obtain ⟨mainStart, mainEnd⟩ := range
        obtain ⟨mainLow, mainHigh, mainHolds⟩ := mainWrite.2 _ _ rfl
        rw [movedCache] at mainHolds
        refine move_bind ld state.ni.Spares rfl rfl rfl rfl
          fun placed placedRecorded placedFlash placedNi =>
            clean_bind ld state.ni.Spares fun clean cleaned same => ?_
        rw [if_pos mainHigh]
        refine move_bind ld state.ni.Spares rfl rfl rfl rfl
          fun after recorded flash ni => .pure ?_
        have afterCleaned := (cleaned.afterConfined
          (rewrittenAll.trans placedRecorded).toConfined).recorded recorded
        have afterStart := afterCleaned.confined.mgmtStartBa
        have afterTop := afterCleaned.confined.mappingBlocksTopBa
        have afterMain : after.ni.mainTableBa = mainStart := by
          rw [ni, same.main, placedNi]
        have afterBackup : after.ni.backupTableBa = tmpStart := by rw [ni]
        have afterBlocks : after.ni.mappingBlocksBa = tmpEnd := by
          rw [ni, same.blocks, placedNi, mainTouches.mappingBlocksBa, movedBlocks]
        rw [← placedFlash, ← same.flash, ← flash] at tmpIntact mainHolds
        refine ⟨rfl, ⟨afterCleaned.confined, ?_⟩, Or.inr afterCleaned, fun _ => ?_⟩
        · exact .pair (by omega) (afterMain ▸ mainHolds) (by omega)
            (afterBackup ▸ tmpIntact) (by omega) (by omega)
        · exact .main (by omega) (afterMain ▸ mainHolds) (by omega)

theorem updateMainInfoTable_single {state : State} (layout : Layout ld state)
    (alone : state.ni.backupTableBa = 0) (valid : ValidTable ld state.ni.infoTableCache) :
    Ensures (updateMainInfoTable ld state.ni.mappingBlocksTopBa) state fun success after =>
      Upkept ld state after ∧
        (success = true → Stores ld after state.ni.infoTableCache ∧
          Cleaned ld state.ni.Spares state after) ∧
        (success = false → Recorded ld state.ni.Spares state after ∧
          after.ni.isProtected = true) := by
  have lower := layout.lower
  have upper := layout.upper
  unfold updateMainInfoTable
  refine .getNi_bind (.ite (fun _ => rebuildInfoTable_spec sound (by omega) valid) fun some => ?_)
  have low := layout.mainLow (Or.inl some)
  refine (writeInfoTable_spec sound _ _ valid).bind fun range written write => ?_
  have touches : Writes ld state.ni.Spares state written := write.1.spare low le_rfl
  have start := touches.mgmtStartBa
  have top := touches.mappingBlocksTopBa
  have cache := touches.cache
  cases range with
  | none =>
    have spares : written.ni.Spares = state.ni.Spares := by
      simp only [Instance.Spares, start, top]
    dsimp only
    rw [if_pos alone]
    refine (rebuildInfoTable_spec sound (by omega) (cache ▸ valid)).mono
      fun success after rebuilt => ?_
    rw [cache, spares] at rebuilt
    obtain ⟨kept, done, failed⟩ := rebuilt
    refine ⟨⟨touches.toConfined.trans (spares ▸ kept.confined), kept.layout⟩, fun is => ?_,
      fun is => ?_⟩
    · exact ⟨(done is).1, (done is).2.afterConfined touches.toConfined⟩
    · exact ⟨touches.recorded.trans (failed is).1, (failed is).2⟩
  | some range =>
    obtain ⟨newStart, newEnd⟩ := range
    obtain ⟨newLow, newHigh, holds⟩ := write.2 _ _ rfl
    refine move_bind ld state.ni.Spares rfl rfl rfl rfl fun moved movedRecorded movedFlash movedNi =>
      clean_bind ld state.ni.Spares fun after cleaned same => .pure ?_
    have afterCleaned := cleaned.afterConfined (touches.recorded.trans movedRecorded).toConfined
    have afterStart := afterCleaned.confined.mgmtStartBa
    have afterTop := afterCleaned.confined.mappingBlocksTopBa
    have noBackup : written.ni.backupTableBa = 0 := touches.backupTableBa.trans alone
    have afterMain : after.ni.mainTableBa = newStart := by rw [same.main, movedNi]
    have afterBackup : after.ni.backupTableBa = 0 := by rw [same.backup, movedNi, noBackup]
    have afterBlocks : after.ni.mappingBlocksBa = newEnd := by
      rw [same.blocks, movedNi]
      exact if_pos noBackup
    rw [← movedFlash, ← same.flash, ← afterMain] at holds
    exact ⟨⟨afterCleaned.confined, .single (by omega) holds (by omega) (by omega) afterBackup⟩,
      fun _ => ⟨.main (by omega) holds (by omega), afterCleaned⟩, nofun⟩

/-- Updating the main table next to a backup table that is already up to date.  The
backup table survives, so the tables are only lost if there was no main table. -/
theorem updateMainInfoTable_pair {state : State} {stop : Nat} (layout : Layout ld state)
    (some : state.ni.backupTableBa ≠ 0) (valid : ValidTable ld state.ni.infoTableCache)
    (backup : HoldsTable ld state.flash state.ni.backupTableBa stop state.ni.infoTableCache)
    (within : stop ≤ state.ni.mappingBlocksBa) :
    Ensures (updateMainInfoTable ld state.ni.backupTableBa) state fun success after =>
      Upkept ld state after ∧
        (Recorded ld state.ni.Spares state after ∨ Cleaned ld state.ni.Spares state after) ∧
        (success = true → Stores ld after state.ni.infoTableCache) ∧
        (success = false → state.ni.mainTableBa = 0 ∧ after.ni.isProtected = true) := by
  have lower := layout.lower
  have upper := layout.upper
  have backupLow := (layout.backup some).1
  have backupBetween := backup.lt
  have low := layout.mainLow (Or.inr some)
  unfold updateMainInfoTable
  refine .getNi_bind (.ite (fun none => ?_) fun mainSome => ?_)
  · refine (rebuildInfoTable_spec sound (by omega) valid).mono fun success after rebuilt => ?_
    obtain ⟨kept, done, failed⟩ := rebuilt
    cases success with
    | true => exact ⟨kept, Or.inr (done rfl).2, fun _ => (done rfl).1, nofun⟩
    | false => exact ⟨kept, Or.inl (failed rfl).1, nofun, fun _ => ⟨none, (failed rfl).2⟩⟩
  · refine (writeInfoTable_spec sound _ _ valid).bind fun range written write => ?_
    have touches : Writes ld state.ni.Spares state written := write.1.spare low (by omega)
    have intact := backup.keep sound write.1 (Or.inr le_rfl)
    have start := touches.mgmtStartBa
    have top := touches.mappingBlocksTopBa
    have cache := touches.cache
    have backupSame := touches.backupTableBa
    have blocksSame := touches.mappingBlocksBa
    cases range with
    | none =>
      have spares : written.ni.Spares = state.ni.Spares := by
        simp only [Instance.Spares, start, top]
      dsimp only
      rw [if_neg some]
      rw [← backupSame] at intact
      refine (rescueMainInfoTable_spec sound (by omega) (by omega)
        (fun _ => ⟨by omega, stop, _, intact, by omega⟩) (cache ▸ valid)).mono
          fun success after rescued => ?_
      rw [cache, spares] at rescued
      obtain ⟨rfl, kept, counters, stores⟩ := rescued
      refine ⟨⟨touches.toConfined.trans (spares ▸ kept.confined), kept.layout⟩, ?_,
        fun _ => stores ⟨stop, intact, by omega, by omega⟩, nofun⟩
      exact counters.imp touches.recorded.trans fun cleaned =>
        cleaned.afterConfined touches.toConfined
    | some range =>
      obtain ⟨newStart, newEnd⟩ := range
      obtain ⟨newLow, newHigh, holds⟩ := write.2 _ _ rfl
      have between := holds.lt
      refine move_bind ld state.ni.Spares rfl rfl rfl rfl
        fun moved movedRecorded movedFlash movedNi =>
          clean_bind ld state.ni.Spares fun after cleaned same => .pure ?_
      have afterCleaned := cleaned.afterConfined (touches.recorded.trans movedRecorded).toConfined
      have afterStart := afterCleaned.confined.mgmtStartBa
      have afterTop := afterCleaned.confined.mappingBlocksTopBa
      have afterMain : after.ni.mainTableBa = newStart := by rw [same.main, movedNi]
      have afterBackup : after.ni.backupTableBa = state.ni.backupTableBa := by
        rw [same.backup, movedNi, backupSame]
      have afterBlocks : after.ni.mappingBlocksBa = state.ni.mappingBlocksBa := by
        rw [same.blocks, movedNi, ← blocksSame]
        exact if_neg (by omega)
      rw [← movedFlash, ← same.flash] at holds intact
      refine ⟨⟨afterCleaned.confined, ?_⟩, Or.inr afterCleaned, fun _ => ?_, nofun⟩
      · exact .pair (by omega) (afterMain ▸ holds) (by omega) (afterBackup ▸ intact)
          (by omega) (by omega)
      · exact .main (by omega) (afterMain ▸ holds) (by omega)

/-! ### One round of the update -/

def generated (ld : LowerDevice) (state : State) : State :=
  (generateInfoTableCache ld state).2

omit sound in
theorem Layout.generated {state : State} (layout : Layout ld state) :
    Layout ld (generated ld state) :=
  ⟨layout.lower, layout.upper, layout.mainLow, layout.main, layout.backup⟩

omit sound in
theorem generateInfoTableCache_spec (state : State) :
    Ensures (generateInfoTableCache ld) state fun changed after =>
      after = generated ld state ∧
        changed = decide (state.ni.blockStateChanged ≠ 0 ∨ state.ni.blockMappingChanged ≠ 0) :=
  ⟨rfl, rfl⟩

omit sound in
theorem updateInfoTableOnce_cases {state : State} {force : Bool} {post : Bool → State → Prop}
    (clean : state.ni.blockStateChanged = 0 → state.ni.blockMappingChanged = 0 →
      force = false → post true (generated ld state))
    (single : (state.ni.blockStateChanged ≠ 0 ∨ state.ni.blockMappingChanged ≠ 0 ∨ force = true) →
      state.ni.backupTableBa = 0 →
      Ensures (updateMainInfoTable ld state.ni.mappingBlocksTopBa) (generated ld state) post)
    (pair : (state.ni.blockStateChanged ≠ 0 ∨ state.ni.blockMappingChanged ≠ 0 ∨ force = true) →
      state.ni.backupTableBa ≠ 0 →
      Ensures (do
        match ← writeInfoTable ld state.ni.backupTableBa state.ni.mappingBlocksTopBa with
        | none =>
          modifyNi fun ni => { ni with mappingBlocksBa := ni.backupTableBa, backupTableBa := 0 }
          updateMainInfoTable ld state.ni.mappingBlocksTopBa
        | some (tableStartBa, tableEndBa) =>
          modifyNi fun ni =>
            { ni with backupTableBa := tableStartBa, mappingBlocksBa := tableEndBa }
          markTablesClean ld
          updateMainInfoTable ld tableStartBa) (generated ld state) post) :
    Ensures (updateInfoTableOnce ld force) state post := by
  have dirtyOr : (!decide (state.ni.blockStateChanged ≠ 0 ∨ state.ni.blockMappingChanged ≠ 0) &&
      !force) = true ↔ state.ni.blockStateChanged = 0 ∧ state.ni.blockMappingChanged = 0 ∧
        force = false := by
    simp only [Bool.and_eq_true, Bool.not_eq_true', decide_eq_false_iff_not, not_or, not_not,
      and_assoc]
  unfold updateInfoTableOnce
  refine (generateInfoTableCache_spec state).bind fun changed after same => ?_
  obtain ⟨rfl, rfl⟩ := same
  refine .ite (fun idle => .pure ?_) fun busy => .getNi_bind (.ite (fun none => ?_) fun some => ?_)
  · obtain ⟨states, mapping, notForced⟩ := dirtyOr.mp idle
    exact clean states mapping notForced
  · refine single ?_ none
    by_contra idle
    simp only [not_or, not_not] at idle
    exact busy (dirtyOr.mpr ⟨idle.1, idle.2.1, by simpa using idle.2.2⟩)
  · refine pair ?_ some
    by_contra idle
    simp only [not_or, not_not] at idle
    exact busy (dirtyOr.mpr ⟨idle.1, idle.2.1, by simpa using idle.2.2⟩)

/-- What one round of the update does: it keeps the layout, and unless there was
nothing to do one of the tables is the generated image afterwards. -/
theorem updateInfoTableOnce_spec {state : State} {force : Bool} (layout : Layout ld state)
    (valid : ValidTable ld (generated ld state).ni.infoTableCache)
    (dirty : state.ni.blockStateChanged ≠ 0 ∨ state.ni.blockMappingChanged ≠ 0 ∨ force = true) :
    Ensures (updateInfoTableOnce ld force) state fun success after =>
      Upkept ld (generated ld state) after ∧
        (success = true → Stores ld after (generated ld state).ni.infoTableCache ∧
          Cleaned ld state.ni.Spares (generated ld state) after) ∧
        (success = false → after.ni.isProtected = true ∧
          (Recorded ld state.ni.Spares (generated ld state) after ∨
            state.ni.mgmtStartBa = 0)) := by
  have upper := layout.upper
  refine updateInfoTableOnce_cases (fun states mapping notForced => ?_) (fun _ alone => ?_)
    fun _ some => ?_
  · simp [states, mapping, notForced] at dirty
  · refine (updateMainInfoTable_single sound layout.generated alone valid).mono
      fun success after updated => ⟨updated.1, updated.2.1, fun failed => ?_⟩
    exact ⟨(updated.2.2 failed).2, Or.inl (updated.2.2 failed).1⟩
  · have low := layout.mainLow (Or.inr some)
    have backupLow := (layout.backup some).1
    refine (writeInfoTable_spec sound _ _ valid).bind fun range written write => ?_
    have touches : Writes ld state.ni.Spares (generated ld state) written :=
      write.1.spare backupLow le_rfl
    have mainIntact (is : state.ni.mainTableBa ≠ 0) : ∃ stop image,
        HoldsTable ld written.flash state.ni.mainTableBa stop image ∧
          stop ≤ state.ni.backupTableBa := by
      obtain ⟨stop, image, holds, within⟩ := layout.main is
      rw [Instance.mainLimit, if_neg some] at within
      have before : HoldsTable ld (generated ld state).flash state.ni.mainTableBa stop image :=
        holds
      exact ⟨stop, image, before.keep sound write.1 (Or.inl within), within⟩
    cases range with
    | none =>
      -- There is nothing to do if failed to write backup table
      refine move_bind ld state.ni.Spares rfl rfl rfl rfl
        fun moved movedRecorded movedFlash movedNi => ?_
      have recorded := touches.recorded.trans movedRecorded
      have start : moved.ni.mgmtStartBa = state.ni.mgmtStartBa := recorded.mgmtStartBa
      have top : moved.ni.mappingBlocksTopBa = state.ni.mappingBlocksTopBa :=
        recorded.mappingBlocksTopBa
      have cache := recorded.cache
      have movedMain : moved.ni.mainTableBa = state.ni.mainTableBa := by
        rw [movedNi]
        exact touches.mainTableBa
      have movedBackup : moved.ni.backupTableBa = 0 := by rw [movedNi]
      have movedBlocks : moved.ni.mappingBlocksBa = state.ni.backupTableBa := by
        rw [movedNi]
        exact touches.backupTableBa
      have backupBelow : state.ni.backupTableBa ≤ state.ni.mappingBlocksTopBa := by
        obtain ⟨_, stop, image, holds, within⟩ := layout.backup some
        have := holds.lt
        omega
      have movedLayout : Layout ld moved := by
        refine .dropBackup (by omega) (by omega) (by omega) (fun is => ?_) movedBackup
        rw [movedFlash, movedMain, movedBlocks]
        exact mainIntact (by omega)
      have spares : moved.ni.Spares = state.ni.Spares := by
        simp only [Instance.Spares, start, top]
      rw [← top]
      refine (updateMainInfoTable_single sound movedLayout movedBackup (cache ▸ valid)).mono
        fun success after updated => ?_
      rw [cache, spares] at updated
      obtain ⟨kept, done, failed⟩ := updated
      refine ⟨⟨recorded.toConfined.trans (spares ▸ kept.confined), kept.layout⟩, fun is => ?_,
        fun is => ?_⟩
      · exact ⟨(done is).1, (done is).2.afterConfined recorded.toConfined⟩
      · exact ⟨(failed is).2, Or.inl (recorded.trans (failed is).1)⟩
    | some range =>
      obtain ⟨newStart, newEnd⟩ := range
      obtain ⟨newLow, newHigh, holds⟩ := write.2 _ _ rfl
      refine move_bind ld state.ni.Spares rfl rfl rfl rfl
        fun moved movedRecorded movedFlash movedNi =>
          clean_bind ld state.ni.Spares fun clean cleaned same => ?_
      have cleanAll : Cleaned ld state.ni.Spares (generated ld state) clean :=
        cleaned.afterConfined (touches.recorded.trans movedRecorded).toConfined
      have start : clean.ni.mgmtStartBa = state.ni.mgmtStartBa :=
        cleanAll.confined.mgmtStartBa
      have top : clean.ni.mappingBlocksTopBa = state.ni.mappingBlocksTopBa :=
        cleanAll.confined.mappingBlocksTopBa
      have cache := cleanAll.confined.cache
      have cleanMain : clean.ni.mainTableBa = state.ni.mainTableBa := by
        rw [same.main, movedNi]
        exact touches.mainTableBa
      have cleanBackup : clean.ni.backupTableBa = newStart := by rw [same.backup, movedNi]
      have cleanBlocks : clean.ni.mappingBlocksBa = newEnd := by rw [same.blocks, movedNi]
      have cleanFlash : clean.flash = written.flash := same.flash.trans movedFlash
      rw [← cleanFlash, ← cleanBackup, ← cache] at holds
      have cleanLayout : Layout ld clean := by
        refine .replaceBackup (by omega) (fun is => ?_) (by omega) holds (by omega) (by omega)
          (by omega)
        obtain ⟨stop, image, intact, within⟩ := mainIntact (by omega)
        rw [cleanFlash, cleanMain]
        exact ⟨stop, image, intact, by omega⟩
      have spares : clean.ni.Spares = state.ni.Spares := by
        simp only [Instance.Spares, start, top]
      rw [← cleanBackup]
      refine (updateMainInfoTable_pair sound cleanLayout (by omega) (cache ▸ valid) holds
        (by omega)).mono fun success after updated => ?_
      rw [cache, spares] at updated
      obtain ⟨kept, counters, done, failed⟩ := updated
      have cleanedAfter : Cleaned ld state.ni.Spares (generated ld state) after :=
        counters.elim cleanAll.recorded fun again => again.afterConfined cleanAll.confined
      refine ⟨⟨cleanAll.confined.trans (spares ▸ kept.confined), kept.layout⟩,
        fun is => ⟨done is, cleanedAfter⟩, fun is => ⟨(failed is).2, Or.inr ?_⟩⟩
      have := (failed is).1
      omega

end Functions

end MetaFilogic.Nmbm
