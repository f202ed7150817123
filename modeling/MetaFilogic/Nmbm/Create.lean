import MetaFilogic.Nmbm.Requests

/-!
# Creating the management data

The factory mapping numbers the usable blocks of the data area in ascending order,
so it is injective.  The first info tables are written for it, the logical blocks
that are missing at the end are given spare blocks, and a session results.
-/

namespace MetaFilogic.Nmbm

open Bytes

/-! ## The factory mapping -/

/-- The logical blocks from `lb` on are mapped to ascending ones of the next `blocks`
blocks from `pb` on. -/
structure Numbers (blocks pb lb : Nat) (mapping : Nat → BitVec 32)
    (result : (Nat → BitVec 32) × Nat) : Prop where
  low : lb ≤ result.2
  high : result.2 ≤ lb + blocks
  kept : ∀ other, other < lb → result.1 other = mapping other
  values : ∀ other, lb ≤ other → other < result.2 →
    pb ≤ (result.1 other).toNat ∧ (result.1 other).toNat < pb + blocks
  ascending : ∀ first second, lb ≤ first → first < second → second < result.2 →
    (result.1 first).toNat < (result.1 second).toNat

theorem buildMappingLoop_spec (ni : Instance) (blocks pb lb : Nat) (mapping : Nat → BitVec 32)
    (width : pb + blocks < 2 ^ 32) :
    Numbers blocks pb lb mapping (buildMappingLoop ni blocks pb lb mapping) := by
  induction blocks generalizing pb lb mapping with
  | zero =>
    exact ⟨le_rfl, le_rfl, fun _ _ => rfl,
      fun other low high => absurd (show other < lb from high) (by omega),
      fun first second low apart high => absurd (show second < lb from high) (by omega)⟩
  | succ blocks ih =>
    unfold buildMappingLoop
    split
    · have rest := ih (pb + 1) lb mapping (by omega)
      have low := rest.low
      have high := rest.high
      refine ⟨low, by omega, rest.kept, fun other above below => ?_, rest.ascending⟩
      have := rest.values other above below
      omega
    · have rest := ih (pb + 1) (lb + 1)
        (fun other => if other = lb then mapped pb else mapping other) (by omega)
      generalize buildMappingLoop ni blocks (pb + 1) (lb + 1)
        (fun other => if other = lb then mapped pb else mapping other) = result at rest
      have low := rest.low
      have high := rest.high
      have here : (result.1 lb).toNat = pb := by
        rw [rest.kept lb (Nat.lt_succ_self lb), if_pos rfl, toNat_mapped (by omega)]
      refine ⟨by omega, by omega, fun other below => ?_, fun other above below => ?_,
        fun first second above apart below => ?_⟩
      · rw [rest.kept other (by omega), if_neg (by omega)]
      · by_cases is : other = lb
        · rw [is, here]
          omega
        · have := rest.values other (by omega) below
          omega
      · by_cases is : first = lb
        · have := rest.values second (by omega) below
          rw [is, here]
          omega
        · exact rest.ascending first second (by omega) apart below

section Create

variable {ld : LowerDevice} (sound : ld.Sound) {state : State}

include sound

theorem mgmtStart_lt : ld.mgmtStart < 2 ^ 30 := by
  have small := sound.mgmtStart_le
  have blocks := sound.blockCount_lt
  omega

/-- The factory mapping leaves all blocks above the data area free. -/
theorem buildMappingTable_spec (start : state.ni.mgmtStartBa = ld.mgmtStart) :
    Ensures (buildMappingTable ld) state fun _ after => ∃ capacity mapping,
      after = { state with
        ni := { state.ni with dataBlockCount := capacity, blockMapping := mapping } } ∧
      ∀ top, WellMapped ld capacity top mapping := by
  have small := mgmtStart_lt sound
  have numbers := buildMappingLoop_spec state.ni state.ni.mgmtStartBa 0 0 state.ni.blockMapping
    (by omega)
  have unfolded : (buildMappingTable ld state).2 = { state with
      ni := { state.ni with
        dataBlockCount :=
          (buildMappingLoop state.ni state.ni.mgmtStartBa 0 0 state.ni.blockMapping).2
        blockMapping := fun other =>
          if (buildMappingLoop state.ni state.ni.mgmtStartBa 0 0 state.ni.blockMapping).2 ≤ other ∧
              other < ld.blockCount then unmappedEntry
          else (buildMappingLoop state.ni state.ni.mgmtStartBa 0 0
            state.ni.blockMapping).1 other } } := rfl
  refine ⟨_, _, unfolded, fun top => ?_⟩
  generalize buildMappingLoop state.ni state.ni.mgmtStartBa 0 0 state.ni.blockMapping = result
    at numbers
  have high := numbers.high
  -- A logical block that is mapped is one of those numbered
  have numbered (lb : Nat) (inside : lb < ld.blockCount)
      (is : ¬isUnmapped (if result.2 ≤ lb ∧ lb < ld.blockCount then unmappedEntry
        else result.1 lb)) : lb < result.2 := by
    by_contra beyond
    rw [if_pos ⟨by omega, inside⟩] at is
    exact is isUnmapped_unmappedEntry
  have entry (lb : Nat) (below : lb < result.2) : (if result.2 ≤ lb ∧ lb < ld.blockCount
      then unmappedEntry else result.1 lb) = result.1 lb := if_neg (by omega)
  refine ⟨by omega, fun lb above inside => ?_,
    fun lb other lbInside otherInside is equal => ?_, fun lb inside is => ?_⟩
  · rw [if_pos ⟨above, inside⟩]
    exact isUnmapped_unmappedEntry
  · have lbBelow := numbered lb lbInside is
    have otherBelow := numbered other otherInside (equal ▸ is)
    rw [entry lb lbBelow, entry other otherBelow] at equal
    by_contra distinct
    rcases Nat.lt_or_gt_of_ne distinct with before | before
    · have := numbers.ascending lb other (Nat.zero_le _) before otherBelow
      rw [equal] at this
      omega
    · have := numbers.ascending other lb (Nat.zero_le _) before lbBelow
      rw [equal] at this
      omega
  · have below := numbered lb inside is
    have := numbers.values lb (Nat.zero_le _) below
    rw [entry lb below]
    omega

/-! ## The first tables -/

/-- What is known before the first info tables are written. -/
structure Prepared (ld : LowerDevice) (state : State) : Prop where
  start : state.ni.mgmtStartBa = ld.mgmtStart
  chip : state.ni.signatureBa < ld.blockCount
  placed : state.ni.infoTable.Placed ld
  mapping : ∀ top, WellMapped ld state.ni.dataBlockCount top state.ni.blockMapping
  trace : WellRecorded ld state.trace

theorem grows_remapTail (lb blocks : Nat) : Preserves Grows (remapTail ld lb blocks) := by
  induction blocks generalizing lb with
  | zero => exact .pure _
  | succ blocks ih =>
    unfold remapTail
    refine ((remaps_mapBlock sound lb).mono fun _ _ remaps => remaps.grows).bind
      fun mapped => .ite (fun _ => ?_) fun _ => .pure _
    exact (grows_modifyNi _).bind fun _ => ih _

theorem grows_updateInfoTable : Preserves Grows (updateInfoTable ld) := by
  intro state
  have remaps : Remaps (fun _ => False) state (updateInfoTable ld state).2 :=
    remaps_updateInfoTable sound state
  exact remaps.grows

theorem grows_createInfoTable : Preserves Grows (createInfoTable ld) := by
  unfold createInfoTable
  refine grows_getNi.bind fun ni => ?_
  split
  · exact .pure _
  · refine (grows_modifyNi _).bind fun _ => Preserves.bind (fun _ => ⟨[], rfl⟩) fun _ => ?_
    refine (grows_of_confined ld (confined_rebuildInfoTable sound)).bind fun built => ?_
    refine .ite (fun _ => .pure _) fun _ => grows_getNi.bind fun ni => ?_
    exact (grows_remapTail sound _ _).bind fun _ => grows_updateInfoTable sound

theorem remapTail_session {lb blocks : Nat} (session : Session ld lb state)
    (capacity : state.ni.dataBlockCount = lb) (within : lb + blocks ≤ ld.mgmtStart) :
    Ensures (remapTail ld lb blocks) state fun _ after => Faithful ld after.trace →
      Session ld after.ni.dataBlockCount after := by
  induction blocks generalizing lb state with
  | zero => exact .pure fun _ => capacity ▸ session
  | succ blocks ih =>
    unfold remapTail
    refine ((mapBlock_session sound session le_rfl (by omega)).both
      ((remaps_mapBlock sound lb).ensures state)).bind fun success middle both => ?_
    obtain ⟨mappedSession, remaps⟩ := both
    cases success with
    | false =>
      refine .pure fun faithful => ?_
      rw [remaps.capacity, capacity]
      exact mappedSession faithful
    | true =>
      refine .modifyNi_bind ?_
      rw [if_pos rfl, max_eq_right (Nat.le_succ lb)] at mappedSession
      refine ensures_faithful (grows_remapTail sound _ _) fun faithful => ?_
      refine ih ((mappedSession faithful).recounted _) ?_ (by omega)
      exact congrArg (· + 1) (remaps.capacity.trans capacity)

theorem createInfoTable_session (prepared : Prepared ld state) :
    Ensures (createInfoTable ld) state fun success after => Faithful ld after.trace →
      WellRecorded ld after.trace ∧
        (success = true → Session ld after.ni.dataBlockCount after) := by
  have start := prepared.start
  have chip := prepared.chip
  unfold createInfoTable
  refine .getNi_bind ?_
  split
  · exact .pure fun _ => ⟨prepared.trace, nofun⟩
  · rename_i top walked
    -- The walk leaves the signature behind and stays above the data area
    obtain ⟨below, within, _, skipped, _⟩ := blockWalkDescLoop_spec walked (by omega)
    have topHigh : top < state.ni.signatureBa := by
      have := skipped (by simp)
      omega
    have topLow : state.ni.mgmtStartBa < top := by
      have blocks := sound.blockCount_lt
      simp only [subU32] at within
      split at within <;> omega
    refine .modifyNi_bind ?_
    have grounded : Grounded ld state.ni.dataBlockCount
        { state with ni := { state.ni with mappingBlocksTopBa := top } } :=
      ⟨start, topHigh, chip, prepared.placed, prepared.mapping top, prepared.trace⟩
    refine (generateInfoTableCache_spec _).bind fun _ after same => ?_
    obtain ⟨rfl, _⟩ := same
    refine (rebuildInfoTable_spec sound topLow.le
      (describes_generated sound grounded.placed).valid).bind fun success built rebuilt => ?_
    obtain ⟨kept, done, _⟩ := rebuilt
    have maintained := maintained_of_confined sound grounded.placed kept.confined
    have groundedBuilt := grounded.maintained maintained
    cases success with
    | false => exact .pure fun _ => ⟨groundedBuilt.trace, nofun⟩
    | true =>
      obtain ⟨saved, durable⟩ := writtenBack sound grounded.placed (done rfl).1 (done rfl).2
      have session : Session ld state.ni.dataBlockCount built :=
        ⟨⟨groundedBuilt, kept.layout⟩, fun _ => saved, fun _ => durable⟩
      have fits := session.mapping.fits
      have capacity : built.ni.dataBlockCount = state.ni.dataBlockCount :=
        maintained.dataBlockCount
      refine .getNi_bind ?_
      rw [capacity, session.start]
      refine (remapTail_session sound session capacity (by omega)).bind
        fun _ mapped mappedSession => ?_
      refine ensures_faithful (grows_updateInfoTable sound) fun faithful => ?_
      have frame : Preserves (Remaps fun _ => False) (updateInfoTable ld) :=
        remaps_updateInfoTable sound
      refine ((updateInfoTable_session sound (mappedSession faithful)).both
        (frame.ensures mapped)).mono fun success after both _ => ⟨both.1.trace, fun _ => ?_⟩
      rw [both.2.capacity]
      exact both.1

/-! ## A new chip -/

omit sound in
theorem writeSignatureLoop_spec (signature : List Byte) (blocks ba : Nat) (state : State) :
    Ensures (writeSignatureLoop ld signature blocks ba) state fun found _ =>
      ∀ block ∈ found, block ≤ ba ∧ ba < block + blocks := by
  induction blocks generalizing ba state with
  | zero => exact .pure nofun
  | succ blocks ih =>
    have rest (middle : State) : Ensures (writeSignatureLoop ld signature blocks (ba - 1)) middle
        fun found _ => ∀ block ∈ found, block ≤ ba ∧ ba < block + (blocks + 1) :=
      (ih (ba - 1) middle).mono fun found _ within block among => by
        have := within block among
        omega
    unfold writeSignatureLoop
    refine .getNi_bind (.ite (fun _ => rest state) fun _ => ?_)
    refine Ensures.bind (.of_true _ _) fun bad checked _ => .ite (fun _ => ?_) fun _ => ?_
    · exact Ensures.bind (.of_true _ _) fun _ middle _ => rest middle
    refine Ensures.bind (.of_true _ _) fun erased blank _ => .ite (fun _ => ?_) fun _ => ?_
    · exact Ensures.bind (.of_true _ _) fun _ middle _ => rest middle
    refine Ensures.bind (.of_true _ _) fun success written _ => .ite (fun _ => ?_) fun _ => ?_
    · exact .pure fun block found => by
        obtain rfl := Option.some.inj found
        omega
    · exact Ensures.bind (.of_true _ _) fun _ middle _ => rest middle

theorem writeSignature_spec (limit : Nat) (signature : Signature) :
    Ensures (writeSignature ld limit signature) state fun found after =>
      Touches ld Anywhere
        { state with trace := .signatureWrite limit signature.bytes :: state.trace } after ∧
      ∀ block ∈ found, limit < block ∧ block < ld.blockCount := by
  have positive := sound.blockCount_pos
  have blocks := sound.blockCount_lt
  have last : subU32 ld.blockCount 1 = ld.blockCount - 1 := by
    simp only [subU32]
    omega
  unfold writeSignature
  rw [last]
  refine .note_bind (((touches_writeSignatureLoop sound (Nat.sub_le _ _)
    fun _ _ => trivial).ensures _).both (writeSignatureLoop_spec _ _ _ _) |>.mono ?_)
  intro found after both
  refine ⟨both.1, fun block among => ?_⟩
  have := both.2 block among
  omega

/-- The driver's memory before management data is created. -/
structure Unused (ld : LowerDevice) (state : State) : Prop where
  placed : state.ni.infoTable.Placed ld
  trace : WellRecorded ld state.trace
  noMain : state.ni.mainTableBa = 0

theorem grows_createNew : Preserves Grows (createNew ld) := by
  unfold createNew
  refine (grows_modifyNi _).bind fun _ => ?_
  refine (grows_of_touches ld (touches_scanBadblocksFrom fun _ _ => trivial)).bind fun _ => ?_
  refine (grows_modifyNi _).bind fun _ => (grows_modifyNi _).bind fun _ => grows_getNi.bind fun ni => ?_
  refine .ite (fun _ => .pure _) fun _ => ?_
  have written : Preserves Grows (writeSignature ld ni.mgmtStartBa ni.signature) :=
    (grows_note _).bind fun _ => grows_of_touches ld
      (touches_writeSignatureLoop sound (Nat.sub_le _ _) fun _ _ => trivial)
  refine written.bind fun found => ?_
  cases found with
  | none => exact .pure _
  | some signatureBa => exact (grows_modifyNi _).bind fun _ => grows_createInfoTable sound

structure Built (ld : LowerDevice) (before after : State) : Prop where
  grows : Grows before after
  flags : after.ni.flags = before.ni.flags
  mgmtStartBa : after.ni.mgmtStartBa = before.ni.mgmtStartBa
  signatureBa : after.ni.signatureBa = before.ni.signatureBa
  mainTableBa : after.ni.mainTableBa = before.ni.mainTableBa
  infoTable : after.ni.infoTable = before.ni.infoTable
  trace : WellRecorded ld before.trace → WellRecorded ld after.trace
  mapping : ∀ top, WellMapped ld after.ni.dataBlockCount top after.ni.blockMapping

theorem buildTables_spec {α : Type} {next : Unit → NmbmM α} {post : α → State → Prop}
    (start : state.ni.mgmtStartBa = ld.mgmtStart)
    (rest : ∀ built, Built ld state built → Ensures (next ()) built post) :
    Ensures (scanBadblocks ld >>= fun _ => buildMappingTable ld >>= next) state post := by
  have scans : Preserves (Touches ld Anywhere) (scanBadblocks ld) :=
    touches_scanBadblocksFrom fun _ _ => trivial
  refine (scans.ensures _).bind fun _ scanned touches => ?_
  have startScanned : scanned.ni.mgmtStartBa = ld.mgmtStart := touches.mgmtStartBa.trans start
  refine (buildMappingTable_spec sound startScanned).bind fun _ built is => ?_
  obtain ⟨capacity, mapping, rfl, well⟩ := is
  exact rest _ ⟨touches.grows, touches.flags, touches.mgmtStartBa, touches.signatureBa, touches.mainTableBa,
    touches.infoTable, touches.wellRecorded, well⟩

omit sound in
theorem Attached.ofReadOnly {top : Nat}
    (well : WellMapped ld state.ni.dataBlockCount top state.ni.blockMapping)
    (noMain : state.ni.mainTableBa = 0) (readOnly : state.ni.flags.readOnly = true) :
    Attached ld state :=
  ⟨⟨top, well⟩, fun writable => absurd (writable.symm.trans readOnly) Bool.false_ne_true,
    fun writable => absurd (writable.symm.trans readOnly) Bool.false_ne_true,
    fun _ _ some => absurd noMain some⟩

theorem createNew_attached (unused : Unused ld state) :
    Ensures (createNew ld) state fun success after => Faithful ld after.trace →
      WellRecorded ld after.trace ∧ (success = true → Attached ld after) := by
  unfold createNew
  refine .modifyNi_bind (buildTables_spec sound rfl fun built made => .modifyNi_bind (.getNi_bind ?_))
  have start : built.ni.mgmtStartBa = ld.mgmtStart := made.mgmtStartBa
  have noMain : built.ni.mainTableBa = 0 := made.mainTableBa.trans unused.noMain
  have placed : built.ni.infoTable.Placed ld := made.infoTable ▸ unused.placed
  have recorded : WellRecorded ld built.trace := made.trace unused.trace
  refine .ite (fun readOnly => .pure fun _ => ⟨recorded, fun _ => ?_⟩) fun _ => ?_
  · exact .ofReadOnly (made.mapping 0) noMain readOnly
  · refine (writeSignature_spec sound _ _).bind fun found written done => ?_
    obtain ⟨writes, within⟩ := done
    have writtenRecorded : WellRecorded ld written.trace := by
      refine writes.wellRecorded (recorded.cons ?_)
      change (newSignature ld built.ni.mgmtStartBa).bytes = _
      rw [start]
    cases found with
    | none => exact .pure fun _ => ⟨writtenRecorded, nofun⟩
    | some signatureBa =>
      refine .modifyNi_bind ?_
      have prepared : Prepared ld { written with ni := { written.ni with signatureBa } } := by
        refine ⟨writes.mgmtStartBa.trans start, (within signatureBa rfl).2,
          writes.infoTable ▸ placed, fun top => ?_, writtenRecorded⟩
        change WellMapped ld written.ni.dataBlockCount top written.ni.blockMapping
        rw [writes.dataBlockCount, writes.mapping]
        exact made.mapping top
      exact (createInfoTable_session sound prepared).mono fun success after created faithful =>
        ⟨(created faithful).1, fun done => ((created faithful).2 done).attached⟩

end Create

end MetaFilogic.Nmbm
