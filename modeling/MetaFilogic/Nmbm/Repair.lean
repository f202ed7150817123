import MetaFilogic.Nmbm.Load

/-!
# Bringing loaded tables up to date

After loading, a missing table is written anew and an older one is overwritten.
Either this succeeds and leaves a session, or the chip becomes read-only.
-/

namespace MetaFilogic.Nmbm

open Bytes

variable {ld : LowerDevice} (sound : ld.Sound) {before state : State} {main : LoadedTable}
  {backup : Option LoadedTable}

include sound

variable {middle after : State} {ba : Nat}

omit sound in
theorem Confined.spares {region : Nat → Prop} (confined : Confined ld region middle after) :
    after.ni.Spares = middle.ni.Spares := by
  simp only [Instance.Spares, confined.mgmtStartBa, confined.mappingBlocksTopBa]

theorem Grounded.repaired {capacity : Nat} (grounded : Grounded ld capacity state)
    (toMiddle : Confined ld state.ni.Spares (generated ld state) middle)
    (later : Confined ld middle.ni.Spares middle after) : Maintained ld state after := by
  rw [toMiddle.spares] at later
  exact maintained_of_confined sound grounded.placed (toMiddle.trans later)

theorem Grounded.writtenBack {capacity : Nat} (grounded : Grounded ld capacity state)
    (toMiddle : Confined ld state.ni.Spares (generated ld state) middle)
    (kept : Upkept ld middle after)
    (stores : Stores ld after (generated ld state).ni.infoTableCache)
    (cleaned : Cleaned ld middle.ni.Spares middle after) :
    Maintained ld state after ∧ Session ld capacity after := by
  have maintained := grounded.repaired sound toMiddle cleaned.confined
  rw [toMiddle.spares] at cleaned
  obtain ⟨saved, durable⟩ :=
    Nmbm.writtenBack sound grounded.placed stores (cleaned.afterConfined toMiddle)
  exact ⟨maintained, ⟨⟨grounded.maintained maintained, kept.layout⟩, fun _ => saved,
    fun _ => durable⟩⟩

theorem Loaded.session {second : LoadedTable}
    (loaded : Loaded ld ba before main (some second) state) (loadable : Loadable ld before)
    (low : ld.mgmtStart ≤ ba) (genuine : Genuine ld before.ni.signatureBa main)
    (backupGenuine : Genuine ld before.ni.signatureBa second) (agrees : main.AgreesWith ld second)
    (equal : main.writeCount = second.writeCount) :
    Session ld state.ni.dataBlockCount (generated ld state) := by
  have isMain : newest main (some second) = main := by
    simp only [newest, equal]
    exact if_pos (BitVec.le_refl _)
  have grounded := loaded.grounded sound loadable (by rw [isMain]; exact genuine)
  have maintained : Maintained ld state (generated ld state) :=
    maintained_of_confined sound grounded.placed (.refl _)
  have mainHolds := loaded.mainHolds sound genuine
  obtain ⟨backupHolds, below⟩ := loaded.backupHolds sound backupGenuine
  have upper := loaded.endBa_le_top sound loadable low backupGenuine
    (by rw [isMain]; exact agrees equal)
  have blocks : state.ni.mappingBlocksBa = second.endBa := loaded.mappingBlocksBa
  have start : state.ni.mgmtStartBa ≤ state.ni.mainTableBa := by
    rw [grounded.start, loaded.mainTableBa]
    exact low.trans loaded.mainFound.1
  have layout : Layout ld state :=
    .pair start mainHolds below backupHolds (by omega) (by omega)
  have backupBetween := backupHolds.lt
  have stores : Stores ld (generated ld state) main.image :=
    .main start mainHolds (show main.endBa ≤ state.ni.mappingBlocksBa by omega)
  have entries (lb : Nat) (inside : lb < ld.blockCount) :
      imageMapping main.image lb = state.ni.blockMapping lb := by
    rw [loaded.mapping lb (by rw [sound.mappingWords_eq]; exact inside), isMain]
  refine ⟨⟨grounded.maintained maintained, layout.generated⟩, fun _ => ?_, fun _ _ => ?_⟩
  · exact Or.inr (Or.inr (Or.inr ⟨main.image, stores, entries⟩))
  · by_cases clear : state.ni.blockStateChanged = 0
    · refine Or.inr (Or.inr (Or.inr ⟨main.image, stores, ?_⟩))
      simp only [Instance.describedBy, Bool.and_eq_true, List.all_eq_true, List.mem_range,
        beq_iff_eq]
      refine ⟨fun unit inside => ?_, entries⟩
      have states := loaded.states clear unit inside
      rw [isMain] at states
      exact states.symm
    · exact Or.inr (Or.inl clear)

omit sound in
theorem newest_genuine {signatureBa : Nat} (genuine : Genuine ld signatureBa main)
    (backupGenuine : ∀ second ∈ backup, Genuine ld signatureBa second) :
    Genuine ld signatureBa (newest main backup) := by
  cases backup with
  | none => exact genuine
  | some second =>
    simp only [newest]
    split
    · exact genuine
    · exact backupGenuine second rfl

theorem repairLoadedTables_session (loaded : Loaded ld ba before main backup state)
    (loadable : Loadable ld before) (low : ld.mgmtStart ≤ ba)
    (genuine : Genuine ld before.ni.signatureBa main) (backupGenuine : ∀ second ∈ backup,
      Genuine ld before.ni.signatureBa second ∧ main.AgreesWith ld second) :
    Ensures (repairLoadedTables ld main backup) (generated ld state) fun success after =>
      Maintained ld state after ∧ (success = true → Session ld state.ni.dataBlockCount after) := by
  have mainHolds := loaded.mainHolds sound genuine
  have grounded := loaded.grounded sound loadable
    (newest_genuine genuine fun second among => (backupGenuine second among).1)
  have valid := (describes_generated sound grounded.placed).valid
  have start : state.ni.mgmtStartBa ≤ state.ni.mainTableBa := by
    rw [grounded.start, loaded.mainTableBa]
    exact low.trans loaded.mainFound.1
  have untouched : Confined ld state.ni.Spares (generated ld state) (generated ld state) := .refl _
  cases backup with
  | none =>
    have blocks : state.ni.mappingBlocksBa = main.endBa := loaded.mappingBlocksBa
    have upper := loaded.endBa_le_top sound loadable low genuine fun _ _ => rfl
    have startGenerated : (generated ld state).ni.mgmtStartBa ≤
        (generated ld state).ni.mainTableBa := start
    refine (rescueSingleInfoTable_spec sound startGenerated mainHolds
      (show main.endBa ≤ state.ni.mappingBlocksBa from blocks.ge)
      (show state.ni.mappingBlocksBa ≤ state.ni.mappingBlocksTopBa from blocks ▸ upper)
      valid).mono fun success after rescued => ?_
    cases success with
    | true =>
      obtain ⟨kept, stores, cleaned⟩ := rescued.1 rfl
      obtain ⟨maintained, session⟩ := grounded.writtenBack sound untouched kept stores cleaned
      exact ⟨maintained, fun _ => session⟩
    | false =>
      exact ⟨maintained_of_confined sound grounded.placed (rescued.2 rfl).1.toConfined, nofun⟩
  | some second =>
    obtain ⟨secondGenuine, agrees⟩ := backupGenuine second rfl
    obtain ⟨backupHolds, below⟩ := loaded.backupHolds sound secondGenuine
    have blocks : state.ni.mappingBlocksBa = second.endBa := loaded.mappingBlocksBa
    refine .ite (fun unequal => .modifyNi_bind ?_) fun equal => .pure ?_
    · -- Mark state & mapping tables changed
      have marked : Confined ld state.ni.Spares (generated ld state)
          { generated ld state with
            ni := { (generated ld state).ni with
              blockStateChanged := 1, blockMappingChanged := 1 } } :=
        .ofSettled (fun ni => { ni with blockStateChanged := 1, blockMappingChanged := 1 }) rfl rfl
      generalize middleEq : ({ generated ld state with
        ni := { (generated ld state).ni with
          blockStateChanged := 1, blockMappingChanged := 1 } } : State) = middle at marked
      have startMiddle : middle.ni.mgmtStartBa ≤ middle.ni.mainTableBa := by
        rw [← middleEq]
        exact start
      have validMiddle : ValidTable ld middle.ni.infoTableCache := by
        rw [← middleEq]
        exact valid
      have belowMiddle : main.endBa ≤ middle.ni.backupTableBa := by
        rw [← middleEq]
        exact below
      have mainMiddle : HoldsTable ld middle.flash middle.ni.mainTableBa main.endBa
          main.image := by
        rw [← middleEq]
        exact mainHolds
      have cache : middle.ni.infoTableCache = (generated ld state).ni.infoTableCache :=
        marked.cache
      by_cases older : main.writeCount < second.writeCount
      · have isSecond : newest main (some second) = second :=
          if_neg (BitVec.not_le.mpr older)
        have upper := loaded.endBa_le_top sound loadable low secondGenuine
          (fun _ _ => by rw [isSecond])
        have backupMiddle : HoldsTable ld middle.flash middle.ni.backupTableBa second.endBa
            second.image := by
          rw [← middleEq]
          exact backupHolds
        have blocksMiddle : middle.ni.mappingBlocksBa = second.endBa := by
          rw [← middleEq]
          exact blocks
        have upperMiddle : second.endBa ≤ middle.ni.mappingBlocksTopBa := by
          rw [← middleEq]
          exact upper
        have between := mainMiddle.lt
        rw [decide_eq_true older]
        refine (updateSingleInfoTable_main sound startMiddle (by omega) backupMiddle
          blocksMiddle.ge (by omega) validMiddle).mono fun success after updated => ?_
        obtain ⟨kept, done, failed⟩ := updated
        cases success with
        | true =>
          obtain ⟨maintained, session⟩ := grounded.writtenBack sound marked kept
            (cache ▸ (done rfl).1) (done rfl).2
          exact ⟨maintained, fun _ => session⟩
        | false => exact ⟨grounded.repaired sound marked kept.confined, nofun⟩
      · rw [decide_eq_false older]
        refine (updateSingleInfoTable_backup sound startMiddle mainMiddle belowMiddle
          validMiddle).mono fun success after updated => ?_
        cases success with
        | true =>
          obtain ⟨kept, stores, cleaned⟩ := updated.1 rfl
          obtain ⟨maintained, session⟩ := grounded.writtenBack sound marked kept
            (cache ▸ stores) cleaned
          exact ⟨maintained, fun _ => session⟩
        | false => exact ⟨grounded.repaired sound marked (updated.2 rfl).1.toConfined, nofun⟩
    · exact ⟨maintained_of_confined sound grounded.placed untouched, fun _ =>
        loaded.session sound loadable low genuine secondGenuine agrees (not_not.mp equal)⟩

/-! ## Loading as a whole -/

omit sound in
theorem FitsLoaded.fits {trace : List Event} {signatureBa : Nat} {second : LoadedTable}
    (fits : FitsLoaded (.tablesFound true signatureBa main (some second) :: trace))
    (newer : second.writeCount < main.writeCount) : second.endBa ≤ main.mappingBlocksTopBa :=
  fits signatureBa main second List.mem_cons_self newer

theorem Loaded.ordered (loaded : Loaded ld ba before main backup state)
    (loadable : Loadable ld before) (low : ld.mgmtStart ≤ ba)
    (genuine : Genuine ld before.ni.signatureBa main) (backupGenuine : ∀ second ∈ backup,
      Genuine ld before.ni.signatureBa second ∧ main.AgreesWith ld second)
    (grounded : Grounded ld state.ni.dataBlockCount state)
    (readOnly : before.ni.flags.readOnly = true) (fits : FitsLoaded state.trace) :
    Ordered ld (generated ld state) := by
  have start : state.ni.mgmtStartBa ≤ state.ni.mainTableBa := by
    rw [grounded.start, loaded.mainTableBa]
    exact low.trans loaded.mainFound.1
  have mainHolds := loaded.mainHolds sound genuine
  have mainBetween := mainHolds.lt
  cases backup with
  | none =>
    have blocks : state.ni.mappingBlocksBa = main.endBa := loaded.mappingBlocksBa
    have noBackup : state.ni.backupTableBa = 0 := loaded.backupTableBa
    have upper := loaded.endBa_le_top sound loadable low genuine fun _ _ => rfl
    refine ⟨start, fun some => absurd noBackup some, ?_, ?_, grounded.top, grounded.chip⟩
    · exact ⟨main.endBa, main.image, (if_pos noBackup).symm ▸ mainHolds, blocks.ge⟩
    · exact blocks.trans_le upper
  | some second =>
    obtain ⟨secondGenuine, agrees⟩ := backupGenuine second rfl
    obtain ⟨backupHolds, below⟩ := loaded.backupHolds sound secondGenuine
    have blocks : state.ni.mappingBlocksBa = second.endBa := loaded.mappingBlocksBa
    have top := loaded.mappingBlocksTopBa
    have present : state.ni.backupTableBa ≠ 0 := by omega
    refine ⟨start, fun _ => show state.ni.mainTableBa < state.ni.backupTableBa by omega, ?_,
      blocks.trans_le ?_, grounded.top, grounded.chip⟩
    · exact ⟨second.endBa, second.image, (if_neg present).symm ▸ backupHolds, blocks.ge⟩
    · by_cases equal : main.writeCount = second.writeCount
      · have isMain : newest main (some second) = main := by
          simp only [newest, equal]
          exact if_pos (BitVec.le_refl _)
        exact loaded.endBa_le_top sound loadable low secondGenuine
          (by rw [isMain]; exact agrees equal)
      by_cases older : main.writeCount < second.writeCount
      · have isSecond : newest main (some second) = second := if_neg (BitVec.not_le.mpr older)
        exact loaded.endBa_le_top sound loadable low secondGenuine
          (fun _ _ => by rw [isSecond])
      · have notOlder := BitVec.not_lt.mp older
        have isMain : newest main (some second) = main := if_pos notOlder
        rw [isMain] at top
        rw [loaded.trace, readOnly] at fits
        have newer : second.writeCount < main.writeCount := by
          rw [BitVec.le_def] at notOlder
          rw [BitVec.lt_def]
          exact lt_of_le_of_ne notOlder fun same => equal (BitVec.eq_of_toNat_eq same.symm)
        exact (fits.fits newer).trans top.ge

structure Missed (ld : LowerDevice) (before after : State) : Prop where
  flags : after.ni.flags = before.ni.flags
  signatureBa : after.ni.signatureBa = before.ni.signatureBa
  mgmtStartBa : after.ni.mgmtStartBa = before.ni.mgmtStartBa
  noMain : after.ni.mainTableBa = 0
  placed : before.ni.infoTable.Placed ld → after.ni.infoTable.Placed ld
  trace : after.trace = before.trace

theorem grows_repairLoadedTables (main : LoadedTable) (backup : Option LoadedTable) :
    Preserves Grows (repairLoadedTables ld main backup) := by
  cases backup with
  | none => exact grows_of_confined ld (confined_rescueSingleInfoTable sound)
  | some second =>
    refine .ite (fun _ => (grows_modifyNi _).bind fun _ => ?_) fun _ => .pure _
    exact grows_of_confined ld (confined_updateSingleInfoTable sound _)

theorem loadInfoTable_grows {limit : Nat} {state : State}
    (length : state.ni.infoTableCache.length = ld.infoTableSize) :
    Ensures (loadInfoTable ld ba limit) state fun _ after => Grows state after := by
  refine loadInfoTable_cases sound length (fun after scanned => ⟨[], scanned.trace⟩)
    fun main backup middle loaded => ?_
  have growsLoaded : Grows state middle := ⟨[_], loaded.trace⟩
  have rest : Preserves Grows (do
      let success ← repairLoadedTables ld main backup
      modifyNi fun ni =>
        { ni with
          isProtected :=
            ni.isProtected || ni.mappingBlocksBa == ni.mappingBlocksTopBa || !success }
      return true) :=
    (grows_repairLoadedTables sound main backup).bind fun success =>
      (grows_modifyNi _).bind fun _ => .pure _
  refine (generateInfoTableCache_spec middle).bind fun _ generatedState same => ?_
  obtain ⟨rfl, _⟩ := same
  refine .getNi_bind (.ite (fun _ => .pure growsLoaded) fun _ => ?_)
  exact (rest.ensures _).mono fun _ _ later => growsLoaded.trans later

theorem loadInfoTable_attached {limit : Nat} {state : State} (loadable : Loadable ld state) :
    Ensures (loadInfoTable ld ld.mgmtStart limit) state fun success after =>
      (success = false → Missed ld state after) ∧
        (Faithful ld after.trace → WellRecorded ld after.trace ∧
          (success = true → Attached ld after)) := by
  refine loadInfoTable_cases sound loadable.length (fun after scanned => ?_)
    fun main backup middle loaded => ?_
  · have trace : after.trace = state.trace := scanned.trace
    exact ⟨fun _ => ⟨scanned.flags, scanned.signatureBa, scanned.mgmtStartBa, scanned.mainTableBa,
      fun placed => scanned.infoTable ▸ placed, trace⟩,
        fun _ => ⟨trace ▸ loadable.trace, nofun⟩⟩
  refine (generateInfoTableCache_spec middle).bind fun _ generatedState same => ?_
  obtain ⟨rfl, _⟩ := same
  refine .getNi_bind (.ite (fun readOnly => .pure ?_) fun writable => ?_)
  · refine ⟨nofun, fun faithful => ?_⟩
    obtain ⟨genuine, backupGenuine⟩ := loaded.genuine sound loadable faithful
    have grounded := loaded.grounded sound loadable
      (newest_genuine genuine fun second among => (backupGenuine second among).1)
    refine ⟨grounded.trace, fun _ => ⟨⟨_, grounded.mapping⟩,
      fun writable => absurd (writable.symm.trans readOnly) Bool.false_ne_true,
      fun writable => absurd (writable.symm.trans readOnly) Bool.false_ne_true,
      fun _ fits _ => ?_⟩⟩
    exact loaded.ordered sound loadable le_rfl genuine backupGenuine grounded
      (loaded.flags ▸ readOnly) fits
  · have grows := grows_repairLoadedTables sound main backup
    refine ((grows.ensures _).both (?_ : Ensures (repairLoadedTables ld main backup)
      (generated ld middle) fun success after => Faithful ld after.trace →
        Maintained ld middle after ∧ (success = true →
          Session ld middle.ni.dataBlockCount after))).bind fun success repaired both => ?_
    · refine ensures_faithful grows fun faithful => ?_
      obtain ⟨genuine, backupGenuine⟩ := loaded.genuine sound loadable faithful
      exact (repairLoadedTables_session sound loaded loadable le_rfl genuine backupGenuine).mono
        fun _ _ repaired _ => repaired
    · obtain ⟨growsRepaired, session⟩ := both
      refine .modifyNi_bind (.pure ⟨nofun, fun faithful => ?_⟩)
      obtain ⟨maintained, done⟩ := session faithful
      have faithfulLoaded : Faithful ld middle.trace := growsRepaired.faithful faithful
      obtain ⟨genuine, backupGenuine⟩ := loaded.genuine sound loadable faithfulLoaded
      have grounded := loaded.grounded sound loadable
        (newest_genuine genuine fun second among => (backupGenuine second among).1)
      have groundedAfter := grounded.maintained maintained
      refine ⟨groundedAfter.trace, fun _ => ?_⟩
      have capacity : repaired.ni.dataBlockCount = middle.ni.dataBlockCount :=
        maintained.dataBlockCount
      have notReadOnly : repaired.ni.flags.readOnly = false :=
        (congrArg Flags.readOnly maintained.flags).trans (Bool.eq_false_iff.mpr writable)
      rw [← capacity] at groundedAfter
      refine ⟨⟨_, groundedAfter.mapping⟩, fun _ => ⟨groundedAfter.start, groundedAfter.top,
        groundedAfter.chip, groundedAfter.placed, groundedAfter.mapping, groundedAfter.trace⟩,
        fun _ unprotected => ?_, fun readOnly => ?_⟩
      · -- An unprotected chip has had its tables repaired
        have isDone : success = true := by
          simp only [Bool.or_eq_false_iff, Bool.not_eq_false'] at unprotected
          exact unprotected.2
        have session := (done isDone).guarded
          (repaired.ni.mappingBlocksBa == repaired.ni.mappingBlocksTopBa || !success)
        rw [← capacity] at session
        simpa only [Bool.or_assoc] using session
      · exact absurd (notReadOnly.symm.trans readOnly) Bool.false_ne_true

end MetaFilogic.Nmbm
