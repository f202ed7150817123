import MetaFilogic.BmtNmbm.Session

/-!
# Creating the management data

The factory mapping numbers the blocks of the data area that are not bad in ascending order.  A
creation that succeeds, and takes every spare block at `mapping_blocks_top_ba`, starts a session.
-/

namespace MetaFilogic.BmtNmbm

open Bytes
open Nmbm (u32 subU32 BLOCK_ST_BAD BLOCK_ST_GOOD)

variable {σ : Type} {bmtd : Bmtd σ} {s : State σ}

/-! ## Filling the tables -/

theorem marked_scanBadblocks : Preserves Marked (scanBadblocks bmtd) := by
  suffices ∀ blocks ba, Preserves Marked (scanBadblocksFrom bmtd ba blocks) from this _ _
  intro blocks
  induction blocks with
  | zero => exact fun _ => .pure _
  | succ blocks ih =>
    refine fun ba => (marked_of_idle (idle_call _)).bind fun _ => ?_
    exact .ite (fun _ => (marked_setBlockState _ _).bind fun _ => ih _) fun _ => ih _

structure Filled (bmtd : Bmtd σ) (mgmtStart : Nat) (before after : State σ) : Prop where
  start : after.ni.mgmtStartBa = mgmtStart
  numbers : Factory bmtd mgmtStart after.ni.dataBlockCount after.ni.blockMapping
  spares : after.spares = before.spares

theorem fillTables_spec {mgmtStart : Nat} (width : mgmtStart ≤ 2 ^ 32) :
    Ensures (fillTables bmtd mgmtStart) s fun _ after => Filled bmtd mgmtStart s after := by
  refine ensures_modifyNi (Ensures.bind (marked_scanBadblocks.ensures _) fun _ scanned marked => ?_)
  have start : scanned.ni.mgmtStartBa = mgmtStart := (congrArg Instance.mgmtStartBa marked.same :)
  have numbers := buildMappingLoop_numbers scanned.ni scanned.ni.mgmtStartBa 0 0
    scanned.ni.blockMapping (by omega)
  refine (⟨start, ?_, marked.spares⟩ : Filled bmtd mgmtStart s (buildMappingTable bmtd scanned).2)
  have unfolded : (buildMappingTable bmtd scanned).2.ni.blockMapping = fun other =>
      if (buildMappingLoop scanned.ni scanned.ni.mgmtStartBa 0 0 scanned.ni.blockMapping).2 ≤ other ∧
        other < bmtd.totalBlks then -1
      else (buildMappingLoop scanned.ni scanned.ni.mgmtStartBa 0 0
        scanned.ni.blockMapping).1 other := rfl
  have count : (buildMappingTable bmtd scanned).2.ni.dataBlockCount =
      (buildMappingLoop scanned.ni scanned.ni.mgmtStartBa 0 0 scanned.ni.blockMapping).2 := rfl
  rw [unfolded, count]
  generalize buildMappingLoop scanned.ni scanned.ni.mgmtStartBa 0 0 scanned.ni.blockMapping
    = result at numbers
  have high := numbers.high
  have entry {lb : Nat} (inside : lb < result.2) : (if result.2 ≤ lb ∧ lb < bmtd.totalBlks
      then -1 else result.1 lb) = result.1 lb := if_neg (by omega)
  refine ⟨by omega, fun lb inside => ?_, fun first second apart inside => ?_,
    fun lb above inside => if_pos ⟨above, inside⟩⟩
  · have := numbers.within lb (Nat.zero_le lb) inside
    rw [entry inside]
    omega
  · rw [entry (apart.trans inside), entry inside]
    exact numbers.ascending first second (Nat.zero_le _) apart inside

/-! ## Writing the tables -/

theorem blockWalkDescLoop_bounds {ni : Instance} {blocks ba found : Nat} {nblock : Int}
    (walked : blockWalkDescLoop ni blocks ba nblock = some found) (start : 0 ≤ nblock)
    (fits : blocks ≤ ba) : found ≤ ba ∧ ba < found + blocks ∧ (0 < nblock → found < ba) := by
  induction blocks generalizing ba nblock with
  | zero => cases walked
  | succ blocks ih =>
    simp only [blockWalkDescLoop] at walked
    generalize nextIs : (if ni.getBlockState ba = BLOCK_ST_GOOD then nblock - 1 else nblock)
      = next at walked
    have less : nblock - 1 ≤ next := by split at nextIs <;> omega
    split at walked
    · obtain rfl := Option.some.inj walked
      exact ⟨le_rfl, Nat.lt_add_of_pos_right (Nat.succ_pos _), fun more => by omega⟩
    · obtain ⟨below, within, _⟩ := ih walked (by omega) (by omega)
      exact ⟨by omega, by omega, fun _ => by omega⟩

/-- The first `mapping_blocks_top_ba` lies between the start of the management area and the
signature. -/
theorem blockWalk_second {ni : Instance} {top : Nat} (chip : ni.signatureBa < bmtd.totalBlks)
    (found : blockWalk bmtd ni false ni.signatureBa 1 ni.mgmtStartBa = some top) :
    ni.mgmtStartBa < top ∧ top < ni.signatureBa := by
  simp only [blockWalk, Bool.false_eq_true, if_false, blockWalkDesc] at found
  obtain ⟨_, within, below⟩ := blockWalkDescLoop_bounds found (by decide) (Nat.sub_le _ _)
  have below := below (by decide)
  have small := bmtd.totalBlks_lt
  rw [walkLimit, subU32] at within
  split at within <;> omega

theorem createInfoTable_session
    (numbers : Factory bmtd s.ni.mgmtStartBa s.ni.dataBlockCount s.ni.blockMapping)
    (chip : s.ni.signatureBa < bmtd.totalBlks) :
    Ensures (createInfoTable bmtd) s fun success after => success = true → after.TakenAtTop →
      Session bmtd s.ni.dataBlockCount s.ni.blockMapping after.ni := by
  refine ensures_getNi ?_
  cases found : blockWalk bmtd s.ni false s.ni.signatureBa 1 s.ni.mgmtStartBa with
  | none => exact .pure nofun
  | some top =>
    obtain ⟨low, below⟩ := blockWalk_second chip found
    refine ensures_modifyNi (Ensures.bind generateInfoTableCache_spec fun _ start startIs => ?_)
    obtain ⟨startIs, -⟩ := startIs
    have kept : start.kept = (s.ni.blockMapping, s.ni.dataBlockCount, s.ni.mgmtStartBa, top,
        s.ni.signatureBa, s.spares) := by rw [startIs]; rfl
    have cache : start.ni.infoTableCache ≠ [] := by
      rw [startIs]
      exact infoTableImage_ne_nil _ _ _
    have startLow : start.ni.mgmtStartBa ≤ start.ni.mappingBlocksTopBa := by
      rw [startIs]
      exact low.le
    refine (rebuildInfoTable_spec startLow cache).bind fun success rebuilt holds => ?_
    refine .ite (fun _ => .pure nofun) fun _ => ensures_getNi ?_
    obtain ⟨maintained, placed, -⟩ := holds
    have kept : rebuilt.kept = (s.ni.blockMapping, s.ni.dataBlockCount, s.ni.mgmtStartBa, top,
        s.ni.signatureBa, s.spares) := maintained.kept.trans kept
    have mapping : rebuilt.ni.blockMapping = s.ni.blockMapping := (congrArg (·.1) kept :)
    have count : rebuilt.ni.dataBlockCount = s.ni.dataBlockCount := (congrArg (·.2.1) kept :)
    have mgmt : rebuilt.ni.mgmtStartBa = s.ni.mgmtStartBa := (congrArg (·.2.2.1) kept :)
    have topIs : rebuilt.ni.mappingBlocksTopBa = top := (congrArg (·.2.2.2.1) kept :)
    have signature : rebuilt.ni.signatureBa = s.ni.signatureBa :=
      (congrArg (·.2.2.2.2.1) kept :)
    have fits := numbers.fits
    have session : Session bmtd s.ni.dataBlockCount s.ni.blockMapping rebuilt.ni :=
      { toPlaced := placed
        numbers := mgmt ▸ numbers
        count := by omega
        signature := by omega
        chip := by omega
        original := fun lb _ inside => ⟨count ▸ inside, by rw [mapping]⟩
        spare := by
          intro lb remapped inside
          have := numbers.data lb (count ▸ inside)
          rw [Instance.Remapped, mgmt, mapping] at remapped
          omega
        injective := by
          rw [mapping, count]
          exact fun lb other inside otherInside => numbers.injective inside otherInside
        beyond := fun lb _ => by rw [mapping] }
    have tail : Ensures (remapTail bmtd rebuilt.ni.dataBlockCount
        (rebuilt.ni.mgmtStartBa - rebuilt.ni.dataBlockCount)) rebuilt fun _ after =>
          Keeps bmtd s.ni.dataBlockCount s.ni.blockMapping rebuilt after :=
      keeps_remapTail rfl (by omega)
    refine tail.bind fun _ mapped tailKeeps => ?_
    have update : Ensures (updateInfoTable bmtd) mapped fun _ after =>
        Keeps bmtd s.ni.dataBlockCount s.ni.blockMapping mapped after :=
      keeps_updateInfoTable.ensures mapped
    refine update.mono fun _ after updateKeeps _ taken => ?_
    exact (trans_of _ tailKeeps updateKeeps).session taken session

theorem marked_retireBlock (ba : Nat) : Preserves Marked (retireBlock bmtd ba) :=
  (marked_of_idle (idle_call _)).bind fun _ => marked_setBlockState _ _

theorem writeSignature_spec {limit : Nat} {signature : List Byte} :
    Ensures (writeSignature bmtd limit signature) s fun found after =>
      Marked s after ∧ ∀ ba, found = some ba → ba < bmtd.totalBlks := by
  suffices ∀ blocks ba (s : State σ), ba < bmtd.totalBlks →
      Ensures (writeSignatureLoop bmtd signature blocks ba) s fun found after =>
        Marked s after ∧ ∀ ba, found = some ba → ba < bmtd.totalBlks by
    have pos := bmtd.totalBlks_pos
    have small := bmtd.totalBlks_lt
    exact this _ _ s (by rw [subU32]; omega)
  intro blocks
  induction blocks with
  | zero => exact fun ba s _ => .pure ⟨refl_of _ s, by simp⟩
  | succ blocks ih =>
    intro ba s inside
    have rest {middle : State σ} (marked : Marked s middle) :
        Ensures (writeSignatureLoop bmtd signature blocks (ba - 1)) middle fun found after =>
          Marked s after ∧ ∀ ba, found = some ba → ba < bmtd.totalBlks :=
      (ih (ba - 1) middle (by omega)).mono fun _ _ holds =>
        ⟨trans_of Marked marked holds.1, holds.2⟩
    refine ensures_getNi (.ite (fun _ => rest (refl_of _ s)) fun _ => ?_)
    refine ((marked_of_idle (idle_call _)).ensures s).bind fun _ checked marked => ?_
    refine .ite (fun _ => ?_) fun _ => ?_
    · exact ensures_modifyNi (rest (trans_of Marked marked (marked_setBlockState ba _ checked)))
    refine ((marked_of_idle (idle_eraseBlockAndCheck ba)).ensures checked).bind
      fun _ erased blank => ?_
    have marked := trans_of Marked marked blank
    refine .ite (fun _ => ?_) fun _ => ?_
    · exact ((marked_retireBlock ba).ensures erased).bind fun _ _ retired =>
        rest (trans_of Marked marked retired)
    refine ((marked_of_idle (idle_writeRepeatedData ba _)).ensures erased).bind
      fun _ written wrote => ?_
    have marked := trans_of Marked marked wrote
    refine .ite (fun _ => .pure ⟨marked, fun found is => Option.some.inj is ▸ inside⟩) fun _ => ?_
    exact ((marked_retireBlock ba).ensures written).bind fun _ _ retired =>
      rest (trans_of Marked marked retired)

/-- The mapping that `nmbm_build_mapping_table` builds in a creation. -/
def factoryMapping (bmtd : Bmtd σ) (creation : Creation bmtd) (s : State σ) : Nat → BitVec 32 :=
  (fillTables bmtd creation.mgmtStart s).2.ni.blockMapping

theorem Creation.mgmtStart_lt (creation : Creation bmtd) : creation.mgmtStart < 2 ^ 32 := by
  cases creation with
  | existing mgmtStartPb _ => exact mgmtStartPb.isLt
  | new =>
    have width (value : Nat) : u32 value / Nmbm.NMBM_MGMT_DIV < 2 ^ 32 :=
      (Nat.div_le_self _ _).trans_lt (Nat.mod_lt _ (Nat.two_pow_pos 32))
    rw [Creation.mgmtStart, Bmtd.mgmtStart]
    by_cases reserved : bmtd.maxReservedBlocks ≠ 0 ∧ subU32 bmtd.totalBlks
        (u32 (bmtd.totalBlks * subU32 Nmbm.NMBM_MGMT_DIV bmtd.maxRatio) / Nmbm.NMBM_MGMT_DIV) >
          bmtd.maxReservedBlocks
    · rw [if_pos reserved]
      exact Nat.mod_lt _ (Nat.two_pow_pos 32)
    · rw [if_neg reserved]
      exact width _

theorem create_session (creation : Creation bmtd) (s : State σ) :
    Ensures (create bmtd creation) s fun success after => success = true → after.TakenAtTop →
      Session bmtd (fillTables bmtd creation.mgmtStart s).2.ni.dataBlockCount
        (factoryMapping bmtd creation s) after.ni := by
  have filled : Filled bmtd creation.mgmtStart s (fillTables bmtd creation.mgmtStart s).2 :=
    fillTables_spec creation.mgmtStart_lt.le
  have fills : Ensures (fillTables bmtd creation.mgmtStart) s fun _ after =>
      after = (fillTables bmtd creation.mgmtStart s).2 := rfl
  refine fills.bind fun _ start startIs => ?_
  rw [factoryMapping, ← startIs]
  rw [← startIs] at filled
  have numbers : Factory bmtd start.ni.mgmtStartBa start.ni.dataBlockCount start.ni.blockMapping :=
    filled.start ▸ filled.numbers
  cases creation with
  | existing _ signatureBa => exact ensures_modifyNi (createInfoTable_session numbers signatureBa.isLt)
  | new =>
    refine ensures_getNi (writeSignature_spec.bind fun found written wrote => ?_)
    cases found with
    | none => exact .pure nofun
    | some signatureBa =>
      have mapping : written.ni.blockMapping = start.ni.blockMapping :=
        (congrArg Instance.blockMapping wrote.1.same :)
      have count : written.ni.dataBlockCount = start.ni.dataBlockCount :=
        (congrArg Instance.dataBlockCount wrote.1.same :)
      have mgmt : written.ni.mgmtStartBa = start.ni.mgmtStartBa :=
        (congrArg Instance.mgmtStartBa wrote.1.same :)
      rw [← mapping, ← count, ← mgmt] at numbers
      rw [← mapping, ← count]
      exact ensures_modifyNi (createInfoTable_session numbers (wrote.2 _ rfl))

end MetaFilogic.BmtNmbm
