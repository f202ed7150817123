import MetaFilogic.BmtNmbm.Upkeep

/-!
# The maintenance of the info tables

Whatever an update of the info tables does, the mapping and `mapping_blocks_top_ba` stay, and the
tables and `mapping_blocks_ba` stay between the start of the management area and
`mapping_blocks_top_ba`.  Its loop ends.
-/

namespace MetaFilogic.BmtNmbm

open Bytes
open Nmbm (u32 subU32 BLOCK_ST_BAD BLOCK_ST_GOOD)

variable {σ : Type} {bmtd : Bmtd σ} {s : State σ}

/-- The part of the memory that the maintenance of the info tables leaves alone. -/
def State.kept (s : State σ) : (Nat → BitVec 32) × Nat × Nat × Nat × Nat × List (BitVec 32) :=
  (s.ni.blockMapping, s.ni.dataBlockCount, s.ni.mgmtStartBa, s.ni.mappingBlocksTopBa,
    s.ni.signatureBa, s.spares)

def Kept (before after : State σ) : Prop := after.kept = before.kept

section Kept

variable {α : Type}

instance : Std.Refl (@Kept σ) := ⟨fun _ => rfl⟩

instance : IsTrans (State σ) Kept := ⟨fun _ _ _ first second => second.trans first⟩

theorem kept_of_marked {program : NmbmM σ α} (marked : Preserves Marked program) :
    Preserves Kept program :=
  marked.mono fun before after marked => by
    simp only [Kept, State.kept]
    rw [marked.spares, marked.same]

theorem kept_of_idle {program : NmbmM σ α} (idle : Preserves Idle program) :
    Preserves Kept program :=
  kept_of_marked (marked_of_idle idle)

theorem kept_getNi : Preserves Kept (getNi : NmbmM σ Instance) :=
  fun _ => rfl

theorem kept_setBlockState (ba : Nat) (state : BitVec 32) :
    Preserves Kept (setBlockState ba state : NmbmM σ Unit) :=
  fun _ => rfl

theorem kept_retireBlock (ba : Nat) : Preserves Kept (retireBlock bmtd ba) :=
  (kept_of_idle (idle_call _)).bind fun _ => kept_setBlockState _ _

theorem kept_eraseRange (ba limit : Nat) : Preserves Kept (eraseRange bmtd ba limit) := by
  suffices ∀ blocks ba, Preserves Kept (eraseRangeLoop bmtd blocks ba) from this _ _
  intro blocks
  induction blocks with
  | zero => exact fun _ => .pure _
  | succ blocks ih =>
    refine fun ba => kept_getNi.bind fun _ => .ite (fun _ => ih _) fun _ => ?_
    refine (kept_of_idle (idle_call _)).bind fun _ => .ite (fun _ => ?_) fun _ => ?_
    · exact (kept_setBlockState _ _).bind fun _ => ih _
    refine (kept_of_idle (idle_eraseBlockAndCheck _)).bind fun _ => .ite (fun _ => ih _) fun _ => ?_
    exact (kept_retireBlock _).bind fun _ => ih _

theorem kept_writeInfoTable (ba limit : Nat) : Preserves Kept (writeInfoTable bmtd ba limit) := by
  suffices ∀ blocks ba ptr start, Preserves Kept (writeMgmtRangeLoop bmtd blocks ba ptr start) from
    kept_getNi.bind fun _ => this _ _ _ _
  intro blocks
  induction blocks with
  | zero => exact fun _ _ _ => .pure _
  | succ blocks ih =>
    refine fun ba ptr start => .ite (fun _ => .pure _) fun _ => kept_getNi.bind fun _ => ?_
    refine .ite (fun _ => ih _ _ _) fun _ => ?_
    refine (kept_of_idle (idle_call _)).bind fun _ => .ite (fun _ => ?_) fun _ => ?_
    · exact (kept_setBlockState _ _).bind fun _ => ih _ _ _
    refine (kept_of_idle (idle_eraseBlockAndCheck _)).bind fun _ => .ite (fun _ => ?_) fun _ => ?_
    · exact (kept_retireBlock _).bind fun _ => ih _ _ _
    refine (kept_of_idle (idle_nmbnWriteVerifyData _ _)).bind fun _ => ?_
    refine .ite (fun _ => ih _ _ _) fun _ => (kept_retireBlock _).bind fun _ => ih _ _ _

theorem kept_writeInfoTableDownward (writeBa tries : Nat) :
    Preserves Kept (writeInfoTableDownward bmtd writeBa tries) := by
  induction tries generalizing writeBa with
  | zero => exact .pure _
  | succ tries ih =>
    refine kept_getNi.bind fun _ => (kept_writeInfoTable _ _).bind fun range => ?_
    cases range with
    | some range => exact .pure _
    | none => exact ih _

theorem kept_rebuildInfoTable : Preserves Kept (rebuildInfoTable bmtd) := by
  refine Preserves.bind (fun _ => rfl) fun _ => kept_getNi.bind fun _ => ?_
  refine (kept_writeInfoTable _ _).bind fun range => ?_
  cases range with
  | none => exact Preserves.bind (fun _ => rfl) fun _ => .pure _
  | some range =>
    refine Preserves.bind (fun _ => rfl) fun _ => Preserves.bind (fun _ => rfl) fun _ => ?_
    refine kept_getNi.bind fun ni => ?_
    cases reserveTableStart bmtd ni range.2 with
    | none => exact .pure _
    | some nextStart =>
      refine (kept_writeInfoTable _ _).bind fun backup => ?_
      cases backup with
      | none => exact .pure _
      | some backup =>
        refine Preserves.bind (fun _ => rfl) fun _ => ?_
        exact (kept_eraseRange _ _).bind fun _ => .pure _

theorem kept_rescueBackupInfoTable (stop : Nat) :
    Preserves Kept (rescueBackupInfoTable bmtd stop) := by
  refine Preserves.bind (fun _ => rfl) fun _ => kept_getNi.bind fun ni => ?_
  cases reserveTableStart bmtd ni stop with
  | none => exact Preserves.bind (fun _ => rfl) fun _ => .pure _
  | some writeBa =>
    refine (kept_writeInfoTableDownward _ _).bind fun range => ?_
    cases range with
    | none => exact Preserves.bind (fun _ => rfl) fun _ => .pure _
    | some range =>
      refine Preserves.bind (fun _ => rfl) fun _ => ?_
      exact (kept_eraseRange _ _).bind fun _ => .pure _

theorem kept_rescueMainInfoTable : Preserves Kept (rescueMainInfoTable bmtd) := by
  refine kept_getNi.bind fun ni => ?_
  cases reserveTableStart bmtd ni ni.mappingBlocksBa with
  | none => exact Preserves.bind (fun _ => rfl) fun _ => .pure _
  | some writeBa =>
    refine (kept_writeInfoTableDownward _ _).bind fun range => ?_
    cases range with
    | none => exact Preserves.bind (fun _ => rfl) fun _ => .pure _
    | some range =>
      refine Preserves.bind (fun _ => rfl) fun _ => kept_getNi.bind fun _ => ?_
      refine (kept_writeInfoTable _ _).bind fun main => ?_
      cases main with
      | none =>
        refine Preserves.bind (fun _ => rfl) fun _ => ?_
        exact Preserves.bind (fun _ => rfl) fun _ => .pure _
      | some main =>
        refine Preserves.bind (fun _ => rfl) fun _ => Preserves.bind (fun _ => rfl) fun _ => ?_
        refine .ite (fun _ => ?_) fun _ => kept_rescueBackupInfoTable _
        exact Preserves.bind (fun _ => rfl) fun _ => .pure _

theorem kept_updateMainInfoTable (limit : Nat) :
    Preserves Kept (updateMainInfoTable bmtd limit) := by
  refine kept_getNi.bind fun ni => .ite (fun _ => kept_rebuildInfoTable) fun _ => ?_
  refine (kept_writeInfoTable _ _).bind fun range => ?_
  cases range with
  | none => exact .ite (fun _ => kept_rebuildInfoTable) fun _ => kept_rescueMainInfoTable
  | some range =>
    refine Preserves.bind (fun _ => rfl) fun _ => ?_
    exact Preserves.bind (fun _ => rfl) fun _ => .pure _

theorem kept_updateInfoTableOnce (force : Bool) :
    Preserves Kept (updateInfoTableOnce bmtd force) := by
  have generates : Preserves Kept (generateInfoTableCache bmtd) := fun _ => rfl
  refine generates.bind fun _ => .ite (fun _ => .pure _) fun _ => kept_getNi.bind fun ni => ?_
  refine .ite (fun _ => kept_updateMainInfoTable _) fun _ => ?_
  refine (kept_writeInfoTable _ _).bind fun range => ?_
  cases range with
  | none => exact Preserves.bind (fun _ => rfl) fun _ => kept_updateMainInfoTable _
  | some range =>
    refine Preserves.bind (fun _ => rfl) fun _ => ?_
    exact Preserves.bind (fun _ => rfl) fun _ => kept_updateMainInfoTable _

theorem kept_updateInfoTable : Preserves Kept (updateInfoTable bmtd) := by
  refine kept_getNi.bind fun ni => .ite (fun _ => .pure _) fun _ => ?_
  generalize ni.mappingBlocksTopBa + 2 = rounds
  induction rounds with
  | zero => exact .pure _
  | succ rounds ih =>
    refine kept_getNi.bind fun _ => .ite (fun _ => ?_) fun _ => .pure _
    exact (kept_updateInfoTableOnce _).bind fun _ => .ite (fun _ => ih) fun _ => .pure _

end Kept

structure Maintained (before after : State σ) : Prop where
  kept : after.kept = before.kept
  goods : after.ni.goods ≤ before.ni.goods
  counted : after.ni.goods = before.ni.goods →
    after.ni.blockStateChanged ≤ before.ni.blockStateChanged ∧
      after.ni.blockMappingChanged ≤ before.ni.blockMappingChanged

/-- Maintenance in the course of which the dirty counters have been cleared. -/
structure Cleaned (before after : State σ) : Prop extends Maintained before after where
  clean : after.ni.goods = before.ni.goods →
    after.ni.blockStateChanged = 0 ∧ after.ni.blockMappingChanged = 0

namespace Maintained

variable {before middle after : State σ}

theorem refl (s : State σ) : Maintained s s :=
  ⟨rfl, le_rfl, fun _ => ⟨le_rfl, le_rfl⟩⟩

theorem trans (first : Maintained before middle) (second : Maintained middle after) :
    Maintained before after where
  kept := second.kept.trans first.kept
  goods := second.goods.trans first.goods
  counted equal := by
    have less := first.goods
    have later := second.goods
    have firstCounted := first.counted (by omega)
    have secondCounted := second.counted (by omega)
    omega

theorem mapping (maintained : Maintained before after) :
    after.ni.blockMapping = before.ni.blockMapping :=
  (congrArg (·.1) maintained.kept :)

theorem dataBlockCount (maintained : Maintained before after) :
    after.ni.dataBlockCount = before.ni.dataBlockCount :=
  (congrArg (·.2.1) maintained.kept :)

theorem mgmtStartBa (maintained : Maintained before after) :
    after.ni.mgmtStartBa = before.ni.mgmtStartBa :=
  (congrArg (·.2.2.1) maintained.kept :)

theorem top (maintained : Maintained before after) :
    after.ni.mappingBlocksTopBa = before.ni.mappingBlocksTopBa :=
  (congrArg (·.2.2.2.1) maintained.kept :)

theorem signatureBa (maintained : Maintained before after) :
    after.ni.signatureBa = before.ni.signatureBa :=
  (congrArg (·.2.2.2.2.1) maintained.kept :)

theorem cleaned (first : Maintained before middle) (second : Cleaned middle after) :
    Cleaned before after where
  toMaintained := first.trans second.toMaintained
  clean equal := by
    have less := first.goods
    have later := second.goods
    exact second.clean (by omega)

end Maintained

theorem Cleaned.maintained {before middle after : State σ} (first : Cleaned before middle)
    (second : Maintained middle after) : Cleaned before after where
  toMaintained := first.toMaintained.trans second
  clean equal := by
    have less := first.goods
    have later := second.goods
    have zero := first.clean (by omega)
    have counted := second.counted (by omega)
    omega

theorem Recorded.maintained {before after : State σ} (recorded : Recorded before after) :
    Maintained before after where
  kept := by
    simp only [State.kept]
    rw [recorded.spares, recorded.same]
  goods := recorded.goods
  counted equal := ⟨recorded.counted equal,
    ((congrArg Instance.blockMappingChanged recorded.same :) :
      after.ni.blockMappingChanged = before.ni.blockMappingChanged).le⟩

theorem Cleaned.ofClean {before after : State σ} (kept : after.kept = before.kept)
    (states : after.ni.blockState = before.ni.blockState)
    (zero : after.ni.blockStateChanged = 0 ∧ after.ni.blockMappingChanged = 0) :
    Cleaned before after := by
  have top : after.ni.mappingBlocksTopBa = before.ni.mappingBlocksTopBa :=
    (congrArg (·.2.2.2.1) kept :)
  have goods : after.ni.goods = before.ni.goods := by
    unfold Instance.goods Instance.getBlockState
    rw [top, states]
  exact ⟨⟨kept, goods.le, fun _ => by omega⟩, fun _ => zero⟩

/-! ## Places -/

/-- The tables and the start of the spare blocks lie in the management area, below
`mapping_blocks_top_ba`; an address of zero stands for a table that does not exist. -/
structure Placed (ni : Instance) : Prop where
  low : ni.mgmtStartBa ≤ ni.mappingBlocksBa
  high : ni.mappingBlocksBa ≤ ni.mappingBlocksTopBa
  main : ni.mainTableBa = 0 ∨ ni.mgmtStartBa ≤ ni.mainTableBa
  backup : ni.backupTableBa = 0 ∨
    ni.mgmtStartBa ≤ ni.backupTableBa ∧ ni.backupTableBa ≤ ni.mappingBlocksBa

/-- Where tables are written from: the places are in order and there is an image to write. -/
structure Ready (ni : Instance) : Prop extends Placed ni where
  cache : ni.infoTableCache ≠ []

theorem Recorded.placed {before after : State σ} (recorded : Recorded before after)
    (placed : Placed before.ni) : Placed after.ni := by
  rw [recorded.same]
  exact ⟨placed.low, placed.high, placed.main, placed.backup⟩

theorem Recorded.cache {before after : State σ} (recorded : Recorded before after) :
    after.ni.infoTableCache = before.ni.infoTableCache :=
  (congrArg Instance.infoTableCache recorded.same :)

theorem Recorded.mgmtStartBa {before after : State σ} (recorded : Recorded before after) :
    after.ni.mgmtStartBa = before.ni.mgmtStartBa :=
  (congrArg Instance.mgmtStartBa recorded.same :)

theorem Recorded.ready {before after : State σ} (recorded : Recorded before after)
    (ready : Ready before.ni) : Ready after.ni :=
  ⟨recorded.placed ready.toPlaced, recorded.cache ▸ ready.cache⟩

theorem blockWalkAscLoop_low {ni : Instance} {blocks ba found : Nat} {nblock : Int}
    (walked : blockWalkAscLoop ni blocks ba nblock = some found) : ba ≤ found := by
  induction blocks generalizing ba nblock with
  | zero => cases walked
  | succ blocks ih =>
    simp only [blockWalkAscLoop] at walked
    generalize (if ni.getBlockState ba = BLOCK_ST_GOOD then nblock - 1 else nblock) = next
      at walked
    split at walked
    · exact (Option.some.inj walked).le
    · exact Nat.le_of_succ_le (ih walked)

theorem reserveTableStart_low {ni : Instance} {ba found : Nat}
    (reserved : reserveTableStart bmtd ni ba = some found) : ba ≤ found := by
  suffices ∀ limit nblocks, tryReserveBlocks bmtd ni ba 0 limit nblocks = some found →
      ba ≤ found from this _ _ reserved
  intro limit nblocks reserved
  induction nblocks with
  | zero => exact blockWalkAscLoop_low reserved
  | succ nblocks ih =>
    rw [tryReserveBlocks, if_neg (Nat.not_lt_zero _)] at reserved
    cases walked : blockWalk bmtd ni true ba (nblocks + 1) limit with
    | some nba =>
      rw [walked] at reserved
      exact Option.some.inj reserved ▸ blockWalkAscLoop_low walked
    | none =>
      rw [walked] at reserved
      exact ih reserved

/-! ## Writing tables -/

theorem writeInfoTableDownward_spec {lower writeBa tries : Nat}
    (low : writeBa + 1 = lower + tries) (cache : s.ni.infoTableCache ≠ []) :
    Ensures (writeInfoTableDownward bmtd writeBa tries) s fun range after => Recorded s after ∧
      ∀ start stop, range = some (start, stop) →
        lower ≤ start ∧ start < stop ∧ stop ≤ s.ni.mappingBlocksTopBa := by
  induction tries generalizing writeBa s with
  | zero => exact .pure ⟨.refl s, nofun⟩
  | succ tries ih =>
    refine ensures_getNi ((writeInfoTable_spec le_rfl cache).bind fun range after wrote => ?_)
    cases range with
    | some range =>
      refine .pure ⟨wrote.1, fun start stop found => ?_⟩
      have := wrote.2 start stop found
      omega
    | none =>
      cases tries with
      | zero => exact .pure ⟨wrote.1, nofun⟩
      | succ tries =>
        refine (ih (by omega) (wrote.1.cache ▸ cache)).mono fun range final rest => ?_
        exact ⟨wrote.1.trans rest.1, wrote.1.top ▸ rest.2⟩

/-- `nmbm_rebuild_info_table`. -/
theorem rebuildInfoTable_spec (room : s.ni.mgmtStartBa ≤ s.ni.mappingBlocksTopBa)
    (cache : s.ni.infoTableCache ≠ []) :
    Ensures (rebuildInfoTable bmtd) s fun success after =>
      Maintained s after ∧ Placed after.ni ∧ (success = true → Cleaned s after) := by
  refine ensures_modifyNi (ensures_getNi ?_)
  generalize resetIs : ({ s with ni := { s.ni with
    mainTableBa := 0, backupTableBa := 0, mappingBlocksBa := s.ni.mappingBlocksTopBa } } :
      State σ) = reset
  have toReset : Maintained s reset := by
    subst resetIs
    exact ⟨rfl, le_rfl, fun _ => ⟨le_rfl, le_rfl⟩⟩
  have resetReady : Ready reset.ni := by
    subst resetIs
    exact ⟨⟨room, le_rfl, .inl rfl, .inl rfl⟩, cache⟩
  refine (writeInfoTable_spec le_rfl resetReady.cache).bind fun range written wrote => ?_
  have toWritten : Maintained s written := toReset.trans wrote.1.maintained
  have writtenReady := wrote.1.ready resetReady
  cases range with
  | none =>
    exact ensures_modifyNi (.pure ⟨toWritten.trans ⟨rfl, le_rfl, fun _ => ⟨le_rfl, le_rfl⟩⟩,
      ⟨writtenReady.low, writtenReady.high, writtenReady.main, writtenReady.backup⟩, nofun⟩)
  | some range =>
    obtain ⟨start, stop⟩ := range
    obtain ⟨above, apart, below⟩ := wrote.2 start stop rfl
    rw [← wrote.1.mgmtStartBa] at above
    rw [← wrote.1.top] at below
    have noBackup : written.ni.backupTableBa = 0 := by
      rw [wrote.1.same, ← resetIs]
    refine ensures_modifyNi (ensures_modifyNi (ensures_getNi ?_))
    generalize cleanIs : ({ written with ni := { written.ni with
      mainTableBa := start, mappingBlocksBa := stop, blockStateChanged := 0,
      blockMappingChanged := 0 } } : State σ) = clean
    have toClean : Cleaned s clean := by
      subst cleanIs
      exact toWritten.cleaned (.ofClean rfl rfl ⟨rfl, rfl⟩)
    have cleanReady : Ready clean.ni := by
      subst cleanIs
      exact ⟨⟨above.trans apart.le, below, .inr above, .inl noBackup⟩, writtenReady.cache⟩
    have stopIs : clean.ni.mappingBlocksBa = stop := by
      rw [← cleanIs]
    cases reserved : reserveTableStart bmtd clean.ni stop with
    | none => exact .pure ⟨toClean.toMaintained, cleanReady.toPlaced, fun _ => toClean⟩
    | some nextStart =>
      have next := reserveTableStart_low reserved
      refine (writeInfoTable_spec le_rfl cleanReady.cache).bind
        fun backup rewritten rewrote => ?_
      have toRewritten := toClean.maintained rewrote.1.maintained
      have rewrittenReady := rewrote.1.ready cleanReady
      cases backup with
      | none =>
        exact .pure ⟨toRewritten.toMaintained, rewrittenReady.toPlaced, fun _ => toRewritten⟩
      | some backup =>
        obtain ⟨second, final⟩ := backup
        obtain ⟨later, between, high⟩ := rewrote.2 second final rfl
        have low := cleanReady.low
        rw [← rewrote.1.mgmtStartBa] at low
        rw [← rewrote.1.top] at high
        refine ensures_modifyNi ?_
        generalize movedIs : ({ rewritten with ni := { rewritten.ni with
          backupTableBa := second, mappingBlocksBa := final } } : State σ) = moved
        have toMoved : Cleaned s moved := by
          subst movedIs
          exact toRewritten.maintained ⟨rfl, le_rfl, fun _ => ⟨le_rfl, le_rfl⟩⟩
        have movedPlaced : Placed moved.ni := by
          subst movedIs
          rw [stopIs] at low
          exact ⟨by dsimp only; omega, high, rewrittenReady.main,
            .inr ⟨by dsimp only; omega, between.le⟩⟩
        have high : second ≤ moved.ni.mappingBlocksTopBa := by
          rw [← movedIs]
          dsimp only
          omega
        refine Ensures.bind (eraseRange_recorded high) fun _ after erased => .pure ?_
        exact ⟨toMoved.toMaintained.trans erased.maintained, erased.placed movedPlaced,
          fun _ => toMoved.maintained erased.maintained⟩

theorem promoteBackupTable_spec (placed : Placed s.ni) :
    Ensures promoteBackupTable s fun _ after => Maintained s after ∧ Placed after.ni :=
  ⟨⟨rfl, le_rfl, fun _ => ⟨le_rfl, le_rfl⟩⟩, placed.low, placed.high,
    placed.backup.imp_right And.left, .inl rfl⟩

theorem rescueMainInfoTable_spec (ready : Ready s.ni) :
    Ensures (rescueMainInfoTable bmtd) s fun _ after => Maintained s after ∧ Placed after.ni := by
  refine ensures_getNi ?_
  cases reserved : reserveTableStart bmtd s.ni s.ni.mappingBlocksBa with
  | none => exact (promoteBackupTable_spec ready.toPlaced).bind fun _ after holds => .pure holds
  | some writeBa =>
    have next := reserveTableStart_low reserved
    refine (writeInfoTableDownward_spec
      (show writeBa + 1 = s.ni.mappingBlocksBa + _ by omega) ready.cache).bind fun range written wrote => ?_
    have writtenReady := wrote.1.ready ready
    cases range with
    | none =>
      refine (promoteBackupTable_spec writtenReady.toPlaced).bind fun _ after holds => .pure ?_
      exact ⟨wrote.1.maintained.trans holds.1, holds.2⟩
    | some range =>
      obtain ⟨start, stop⟩ := range
      obtain ⟨above, apart, below⟩ := wrote.2 start stop rfl
      have low := ready.low
      rw [← wrote.1.top] at below
      rw [← wrote.1.mgmtStartBa] at low
      refine ensures_modifyNi (ensures_getNi ?_)
      generalize tmpIs : ({ written with ni := { written.ni with
        mappingBlocksBa := stop } } : State σ) = tmp
      have toTmp : Maintained s tmp := by
        subst tmpIs
        exact wrote.1.maintained.trans ⟨rfl, le_rfl, fun _ => ⟨le_rfl, le_rfl⟩⟩
      have tmpReady : Ready tmp.ni := by
        subst tmpIs
        refine ⟨⟨by dsimp only; omega, below, writtenReady.main, ?_⟩, writtenReady.cache⟩
        refine writtenReady.backup.imp_right fun between => ⟨between.1, ?_⟩
        have : written.ni.mappingBlocksBa = s.ni.mappingBlocksBa :=
          (congrArg Instance.mappingBlocksBa wrote.1.same :)
        dsimp only
        omega
      have tmpStart : tmp.ni.mgmtStartBa ≤ start := by
        subst tmpIs
        dsimp only
        omega
      have tmpBlocks : tmp.ni.mappingBlocksBa = stop := by rw [← tmpIs]
      have startLow : start ≤ tmp.ni.mappingBlocksTopBa := by
        have := tmpReady.high
        omega
      refine (writeInfoTable_spec startLow tmpReady.cache).bind fun main rewritten rewrote => ?_
      have toRewritten := toTmp.trans rewrote.1.maintained
      have rewrittenReady := rewrote.1.ready tmpReady
      have blocks : rewritten.ni.mappingBlocksBa = stop :=
        ((congrArg Instance.mappingBlocksBa rewrote.1.same :) :
          rewritten.ni.mappingBlocksBa = tmp.ni.mappingBlocksBa).trans tmpBlocks
      have mgmt := rewrote.1.mgmtStartBa
      cases main with
      | none =>
        have cleaned : Cleaned rewritten { rewritten with ni := { rewritten.ni with
            mainTableBa := start, backupTableBa := 0, blockStateChanged := 0,
            blockMappingChanged := 0 } } := .ofClean rfl rfl ⟨rfl, rfl⟩
        refine ensures_modifyNi (ensures_modifyNi (.pure
          ⟨toRewritten.trans cleaned.toMaintained, ?_⟩))
        exact ⟨rewrittenReady.low, rewrittenReady.high, .inr (mgmt ▸ tmpStart), .inl rfl⟩
      | some main =>
        obtain ⟨mainStart, mainStop⟩ := main
        obtain ⟨mainAbove, mainApart, mainBelow⟩ := rewrote.2 mainStart mainStop rfl
        refine ensures_modifyNi (ensures_modifyNi (.ite (fun _ => ?_) fun past => ?_))
        · have cleaned : Cleaned rewritten { rewritten with ni := { rewritten.ni with
              mainTableBa := mainStart, backupTableBa := start, blockStateChanged := 0,
              blockMappingChanged := 0 } } := .ofClean rfl rfl ⟨rfl, rfl⟩
          refine ensures_modifyNi (.pure ⟨toRewritten.trans cleaned.toMaintained, ?_⟩)
          exact ⟨rewrittenReady.low, rewrittenReady.high, .inr (mgmt ▸ mainAbove),
            .inr ⟨mgmt ▸ tmpStart, by dsimp only; omega⟩⟩
        · -- the main table ends where the temporary one starts
          exact absurd mainBelow past

theorem updateMainInfoTable_spec {limit : Nat} (ready : Ready s.ni)
    (low : limit ≤ s.ni.mappingBlocksTopBa) :
    Ensures (updateMainInfoTable bmtd limit) s fun success after =>
      Maintained s after ∧ Placed after.ni ∧
        (success = true → s.ni.backupTableBa = 0 → Cleaned s after) := by
  have rebuild {middle : State σ} (recorded : Recorded s middle) :
      Ensures (rebuildInfoTable bmtd) middle fun success after => Maintained s after ∧
        Placed after.ni ∧ (success = true → s.ni.backupTableBa = 0 → Cleaned s after) := by
    have middleReady := recorded.ready ready
    refine (rebuildInfoTable_spec (middleReady.low.trans middleReady.high)
      middleReady.cache).mono fun success after rebuilt => ?_
    exact ⟨recorded.maintained.trans rebuilt.1, rebuilt.2.1,
      fun done _ => recorded.maintained.cleaned (rebuilt.2.2 done)⟩
  refine ensures_getNi (.ite (fun _ => rebuild (.refl s)) fun exists' => ?_)
  refine (writeInfoTable_spec low ready.cache).bind fun range written wrote => ?_
  have writtenReady := wrote.1.ready ready
  have backup : written.ni.backupTableBa = s.ni.backupTableBa :=
    (congrArg Instance.backupTableBa wrote.1.same :)
  cases range with
  | none =>
    refine .ite (fun _ => rebuild wrote.1) fun some => ?_
    refine (rescueMainInfoTable_spec writtenReady).mono fun _ after rescued => ?_
    exact ⟨wrote.1.maintained.trans rescued.1, rescued.2, fun _ none => absurd none some⟩
  | some range =>
    obtain ⟨start, stop⟩ := range
    obtain ⟨above, apart, below⟩ := wrote.2 start stop rfl
    have mgmt : written.ni.mgmtStartBa ≤ start := by
      have := wrote.1.mgmtStartBa
      have := ready.main.resolve_left exists'
      omega
    have high : stop ≤ written.ni.mappingBlocksTopBa := wrote.1.top ▸ below.trans low
    refine ensures_modifyNi (ensures_modifyNi (.pure ?_))
    have cleaned := wrote.1.maintained.cleaned (.ofClean rfl rfl ⟨rfl, rfl⟩ :
      Cleaned written { written with ni := { written.ni with
        mainTableBa := start
        mappingBlocksBa :=
          if written.ni.backupTableBa = 0 then stop else written.ni.mappingBlocksBa
        blockStateChanged := 0
        blockMappingChanged := 0 } })
    refine ⟨cleaned.toMaintained, ?_, fun _ _ => cleaned⟩
    by_cases none : written.ni.backupTableBa = 0
    · exact ⟨by rw [if_pos none]; exact mgmt.trans apart.le, by rw [if_pos none]; exact high,
        .inr mgmt, .inl none⟩
    · exact ⟨by rw [if_neg none]; exact writtenReady.low,
        by rw [if_neg none]; exact writtenReady.high, .inr mgmt,
        by rw [if_neg none]; exact writtenReady.backup⟩

/-! ## The loop of `nmbm_update_info_table` -/

theorem patch_ne_nil {buffer bytes : List Byte} {off : Nat} (some : bytes ≠ []) :
    patch buffer off bytes ≠ [] := by
  simp [patch, some]

theorem infoTableImage_ne_nil (table : Nmbm.InfoTableHeader)
    (blockState blockMapping : Nat → BitVec 32) :
    infoTableImage bmtd table blockState blockMapping ≠ [] :=
  patch_ne_nil nofun

def generated (bmtd : Bmtd σ) (s : State σ) : State σ :=
  { s with ni := { s.ni with
    infoTable := s.ni.nextInfoTable bmtd
    infoTableCache :=
      infoTableImage bmtd (s.ni.nextInfoTable bmtd) s.ni.blockState s.ni.blockMapping } }

theorem ready_generated (placed : Placed s.ni) : Ready (generated bmtd s).ni :=
  ⟨⟨placed.low, placed.high, placed.main, placed.backup⟩, infoTableImage_ne_nil _ _ _⟩

theorem generateInfoTableCache_spec :
    Ensures (generateInfoTableCache bmtd) s fun changed after => after = generated bmtd s ∧
      changed = decide (s.ni.blockStateChanged ≠ 0 ∨ s.ni.blockMappingChanged ≠ 0) :=
  ⟨rfl, rfl⟩

theorem updateInfoTableOnce_spec (placed : Placed s.ni)
    (dirty : s.ni.blockStateChanged ≠ 0 ∨ s.ni.blockMappingChanged ≠ 0) :
    Ensures (updateInfoTableOnce bmtd false) s fun success after =>
      Maintained s after ∧ Placed after.ni ∧ (success = true → Cleaned s after) := by
  have toGenerated : Maintained s (generated bmtd s) :=
    ⟨rfl, le_rfl, fun _ => ⟨le_rfl, le_rfl⟩⟩
  have ready : Ready (generated bmtd s).ni := ready_generated placed
  refine Ensures.bind generateInfoTableCache_spec fun changed start generatedIs => ?_
  obtain ⟨rfl, rfl⟩ := generatedIs
  rw [decide_eq_true dirty]
  refine .ite nofun fun _ => ensures_getNi (.ite (fun alone => ?_) fun both => ?_)
  · refine (updateMainInfoTable_spec ready le_rfl).mono fun success after updated => ?_
    exact ⟨toGenerated.trans updated.1, updated.2.1,
      fun done => toGenerated.cleaned (updated.2.2 done alone)⟩
  refine (writeInfoTable_spec le_rfl ready.cache).bind fun range written wrote => ?_
  have toWritten := toGenerated.trans wrote.1.maintained
  have writtenReady := wrote.1.ready ready
  have blocks : written.ni.mappingBlocksBa = (generated bmtd s).ni.mappingBlocksBa :=
    (congrArg Instance.mappingBlocksBa wrote.1.same :)
  have backup : written.ni.backupTableBa = (generated bmtd s).ni.backupTableBa :=
    (congrArg Instance.backupTableBa wrote.1.same :)
  obtain ⟨low, high⟩ := ready.backup.resolve_left both
  cases range with
  | none =>
    -- There is nothing to do if failed to write backup table
    refine ensures_modifyNi ?_
    generalize aloneIs : ({ written with ni := { written.ni with
      mappingBlocksBa := written.ni.backupTableBa, backupTableBa := 0 } } : State σ) = alone
    have toAlone : Maintained s alone := by
      subst aloneIs
      exact toWritten.trans ⟨rfl, le_rfl, fun _ => ⟨le_rfl, le_rfl⟩⟩
    have aloneReady : Ready alone.ni := by
      have top := writtenReady.high
      have mgmt := wrote.1.mgmtStartBa
      subst aloneIs
      exact ⟨⟨by dsimp only; omega, by dsimp only; omega, writtenReady.main, .inl rfl⟩,
        writtenReady.cache⟩
    have noBackup : alone.ni.backupTableBa = 0 := by rw [← aloneIs]
    have limit : (generated bmtd s).ni.mappingBlocksTopBa ≤ alone.ni.mappingBlocksTopBa :=
      toAlone.top.ge
    refine (updateMainInfoTable_spec aloneReady limit).mono fun success after updated => ?_
    exact ⟨toAlone.trans updated.1, updated.2.1,
      fun done => toAlone.cleaned (updated.2.2 done noBackup)⟩
  | some range =>
    obtain ⟨start, stop⟩ := range
    obtain ⟨above, apart, below⟩ := wrote.2 start stop rfl
    rw [← wrote.1.top] at below
    have mgmt := wrote.1.mgmtStartBa
    refine ensures_modifyNi (ensures_modifyNi ?_)
    generalize cleanIs : ({ written with ni := { written.ni with
      backupTableBa := start, mappingBlocksBa := stop, blockStateChanged := 0,
      blockMappingChanged := 0 } } : State σ) = clean
    have toClean : Cleaned s clean := by
      subst cleanIs
      exact toWritten.cleaned (.ofClean rfl rfl ⟨rfl, rfl⟩)
    have cleanReady : Ready clean.ni := by
      subst cleanIs
      exact ⟨⟨by dsimp only; omega, below, writtenReady.main,
        .inr ⟨by dsimp only; omega, apart.le⟩⟩, writtenReady.cache⟩
    have limit : start ≤ clean.ni.mappingBlocksTopBa := by
      subst cleanIs
      dsimp only
      omega
    refine (updateMainInfoTable_spec cleanReady limit).mono fun success after updated => ?_
    exact ⟨toClean.toMaintained.trans updated.1, updated.2.1,
      fun _ => toClean.maintained updated.1⟩

theorem updateInfoTableLoop_spec {rounds : Nat} (placed : Placed s.ni) :
    Ensures (updateInfoTableLoop bmtd rounds) s fun _ after =>
      Maintained s after ∧ Placed after.ni := by
  induction rounds generalizing s with
  | zero => exact .pure ⟨.refl s, placed⟩
  | succ rounds ih =>
    refine ensures_getNi (.ite (fun dirty => ?_) fun _ => .pure ⟨.refl s, placed⟩)
    refine (updateInfoTableOnce_spec placed dirty).bind fun success middle round => ?_
    refine .ite (fun _ => ?_) fun _ => .pure ⟨round.1, round.2.1⟩
    exact (ih round.2.1).mono fun _ after rest => ⟨round.1.trans rest.1, rest.2⟩

theorem updateInfoTable_spec (placed : Placed s.ni) :
    Ensures (updateInfoTable bmtd) s fun _ after => Maintained s after ∧ Placed after.ni :=
  ensures_getNi (.ite (fun _ => .pure ⟨.refl s, placed⟩) fun _ => updateInfoTableLoop_spec placed)

def State.updateRoundsLeft (s : State σ) : Nat :=
  if s.ni.blockStateChanged ≠ 0 ∨ s.ni.blockMappingChanged ≠ 0 then s.ni.goods + 1 else 0

theorem Cleaned.fewer_rounds {after : State σ} (cleaned : Cleaned s after)
    (dirty : s.ni.blockStateChanged ≠ 0 ∨ s.ni.blockMappingChanged ≠ 0) :
    after.updateRoundsLeft < s.updateRoundsLeft := by
  have fewer := cleaned.goods
  rw [State.updateRoundsLeft, State.updateRoundsLeft, if_pos dirty]
  split
  · rename_i again
    have lost : after.ni.goods ≠ s.ni.goods := fun equal =>
      again.elim (absurd (cleaned.clean equal).1) (absurd (cleaned.clean equal).2)
    omega
  · omega

/-- One round of the loop of `nmbm_update_info_table`; the invariant it needs goes along. -/
def updateRound (bmtd : Bmtd σ) (s : { s : State σ // Placed s.ni }) :
    (Bool × State σ) ⊕ { s : State σ // Placed s.ni } :=
  if dirty : s.val.ni.blockStateChanged ≠ 0 ∨ s.val.ni.blockMappingChanged ≠ 0 then
    if (updateInfoTableOnce bmtd false s.val).1 then
      .inr ⟨(updateInfoTableOnce bmtd false s.val).2, (updateInfoTableOnce_spec s.2 dirty).2.1⟩
    else
      .inl (false, (updateInfoTableOnce bmtd false s.val).2)
  else .inl (true, s.val)

theorem updateInfoTableLoop_round (rounds : Nat) (s : { s : State σ // Placed s.ni }) :
    updateInfoTableLoop bmtd (rounds + 1) s.val =
      (updateRound bmtd s).elim id fun next => updateInfoTableLoop bmtd rounds next.val := by
  rw [updateInfoTableLoop, getNi_run, updateRound]
  by_cases dirty : s.val.ni.blockStateChanged ≠ 0 ∨ s.val.ni.blockMappingChanged ≠ 0
  · rw [if_pos dirty, dif_pos dirty, bind_run]
    split <;> rfl
  · rw [if_neg dirty, dif_neg dirty]
    rfl

theorem updateRound_lowers (s next : { s : State σ // Placed s.ni })
    (goesOn : updateRound bmtd s = .inr next) :
    next.val.updateRoundsLeft < s.val.updateRoundsLeft := by
  rw [updateRound] at goesOn
  split at goesOn
  · rename_i dirty
    split at goesOn
    · rename_i done
      obtain rfl := Sum.inr.inj goesOn
      exact ((updateInfoTableOnce_spec s.2 dirty).2.2 done).fewer_rounds dirty
    · cases goesOn
  · cases goesOn

/-- The rounds that `nmbm_update_info_table` is given are enough: with more it does the same. -/
theorem updateInfoTable_ends {more : Nat} (placed : Placed s.ni)
    (isProtected : s.ni.isProtected = false) (enough : s.ni.mappingBlocksTopBa + 2 ≤ more) :
    updateInfoTable bmtd s = updateInfoTableLoop bmtd more s := by
  have left : s.updateRoundsLeft < s.ni.mappingBlocksTopBa + 2 := by
    have goods : s.ni.goods ≤ s.ni.mappingBlocksTopBa :=
      (Finset.card_filter_le _ _).trans (Finset.card_range _).le
    rw [State.updateRoundsLeft]
    split <;> omega
  let start : { s : State σ // Placed s.ni } := ⟨s, placed⟩
  have same : updateInfoTableLoop bmtd (s.ni.mappingBlocksTopBa + 2) start.val =
      updateInfoTableLoop bmtd more start.val :=
    @loop_eq_of_enough _ _ _ (fun s => s.val.updateRoundsLeft)
      (fun rounds s => updateInfoTableLoop bmtd rounds s.val) updateInfoTableLoop_round
      updateRound_lowers start _ _ left (left.trans_le enough)
  rw [← same, updateInfoTable, getNi_run, if_neg (by rw [isProtected]; decide)]

end MetaFilogic.BmtNmbm
