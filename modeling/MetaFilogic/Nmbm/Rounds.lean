import MetaFilogic.Nmbm.MtdRead
import MetaFilogic.Library.Rounds
import Mathlib.Data.Finset.Range
import Mathlib.Data.Finset.Card

/-!
# The maintenance loops end

A round of `nmbm_update_info_table` that leaves a dirty counter raised has lost a block below
`mapping_blocks_top_ba`, and a round of `nmbm_erase_logic_block` that repeats has lowered
`mapping_blocks_top_ba`.  Both hold in every state, whatever tables and boundaries are recorded
there.
-/

namespace MetaFilogic.Nmbm

open Bytes

def Below (top ba : Nat) : Prop := ba < top

variable {ld : LowerDevice} {top limit : Nat} {state : State}

theorem writeMgmtRangeLoop_start {blocks ba : Nat} {ptr : List Byte} {start : Option Nat}
    (fresh : start.getD 0 ≤ limit) (within : blocks = 0 ∨ ba + blocks ≤ limit) :
    Ensures (writeMgmtRangeLoop ld blocks ba ptr start) state fun range _ =>
      ∀ lower upper, range = some (lower, upper) → lower ≤ limit := by
  induction blocks generalizing ba ptr start state with
  | zero =>
    refine .pure fun lower upper found => ?_
    split at found
    · cases found
      exact fresh
    · cases found
  | succ blocks ih =>
    have rest (state : State) (ptr : List Byte) {start : Option Nat}
        (fresh : start.getD 0 ≤ limit) :
        Ensures (writeMgmtRangeLoop ld blocks (ba + 1) ptr start) state fun range _ =>
          ∀ lower upper, range = some (lower, upper) → lower ≤ limit :=
      ih fresh (.inr (by omega))
    have here : (some (start.getD ba)).getD 0 ≤ limit := by
      cases start with
      | none => exact show ba ≤ limit by omega
      | some lower => exact fresh
    unfold writeMgmtRangeLoop
    refine .ite (fun _ => .pure fun lower upper found => ?_) fun _ => .getNi_bind ?_
    · cases found
      exact fresh
    refine .ite (fun _ => rest _ _ fresh) fun _ => ?_
    refine Ensures.bind (.of_true _ _) fun bad checked _ => .ite (fun _ => ?_) fun _ => ?_
    · exact Ensures.bind (.of_true _ _) fun _ middle _ => rest middle _ fresh
    refine Ensures.bind (.of_true _ _) fun erased blank _ => .ite (fun _ => ?_) fun _ => ?_
    · exact Ensures.bind (.of_true _ _) fun _ middle _ => rest middle _ fresh
    refine Ensures.bind (.of_true _ _) fun success written _ => .ite (fun _ => ?_) fun _ => ?_
    · exact rest written _ here
    · exact Ensures.bind (.of_true _ _) fun _ middle _ => rest middle _ fresh

section Upkeep

variable (sound : ld.Sound)

include sound

theorem writeInfoTable_below {ba : Nat} (low : limit ≤ top) (state : State) :
    Ensures (writeInfoTable ld ba limit) state fun range after =>
      Recorded ld (Below top) state after ∧
        ∀ lower upper, range = some (lower, upper) → lower ≤ limit := by
  have writes : Preserves (Writes ld (Below top)) (writeInfoTable ld ba limit) :=
    writes_writeInfoTable sound fun _ between => between.2.trans_le low
  refine ((writes.ensures state).mono fun _ _ writes => writes.recorded).both ?_
  unfold writeInfoTable writeMgmtRange
  refine .getNi_bind (.note_bind (writeMgmtRangeLoop_start (Nat.zero_le _) ?_))
  omega

theorem writeInfoTableDownward_below {writeBa tries : Nat}
    (is : state.ni.mappingBlocksTopBa = top) :
    Ensures (writeInfoTableDownward ld writeBa tries) state fun range after =>
      Recorded ld (Below top) state after ∧
        ∀ lower upper, range = some (lower, upper) → lower ≤ top := by
  induction tries generalizing writeBa state with
  | zero => exact .pure ⟨Writes.recorded (.refl _), nofun⟩
  | succ tries ih =>
    unfold writeInfoTableDownward
    refine .getNi_bind ?_
    rw [is]
    refine (writeInfoTable_below sound le_rfl state).bind fun range after wrote => ?_
    cases range with
    | some range => exact .pure wrote
    | none =>
      refine (ih (wrote.1.mappingBlocksTopBa.trans is)).mono fun range final rest => ?_
      exact ⟨wrote.1.trans rest.1, rest.2⟩

theorem eraseRange_below {ba : Nat} (low : limit ≤ top) (state : State) :
    Ensures (eraseRange ld ba limit) state fun _ after => Recorded ld (Below top) state after := by
  have touches : Preserves (Touches ld (Below top)) (eraseRange ld ba limit) :=
    touches_eraseRange sound fun _ between => between.2.trans_le low
  exact (touches.ensures state).mono fun _ _ touches => touches.toWrites.recorded

theorem rebuildInfoTable_below (is : state.ni.mappingBlocksTopBa = top) :
    Ensures (rebuildInfoTable ld) state fun success after =>
      success = true → Cleaned ld (Below top) state after := by
  unfold rebuildInfoTable
  refine move_bind ld (Below top) rfl rfl rfl rfl fun reset resetRecorded _ _ => .getNi_bind ?_
  have resetTop := resetRecorded.mappingBlocksTopBa.trans is
  rw [resetTop]
  refine (writeInfoTable_below sound le_rfl reset).bind fun main written wrote => ?_
  cases main with
  | none => exact move_bind ld (Below top) rfl rfl rfl rfl fun _ _ _ _ => .pure nofun
  | some main =>
    refine move_bind ld (Below top) rfl rfl rfl rfl fun moved movedRecorded _ _ =>
      clean_bind ld (Below top) fun clean cleaned _ => .getNi_bind ?_
    have before := (resetRecorded.trans wrote.1).trans movedRecorded
    have cleanAll : Cleaned ld (Below top) state clean := cleaned.afterConfined before.toConfined
    have cleanTop := cleanAll.confined.mappingBlocksTopBa.trans is
    rw [cleanTop]
    split
    · exact .pure fun _ => cleanAll
    · refine (writeInfoTable_below sound le_rfl clean).bind fun backup rewritten rewrote => ?_
      cases backup with
      | none => exact .pure fun _ => cleanAll.recorded rewrote.1
      | some backup =>
        refine move_bind ld (Below top) rfl rfl rfl rfl fun placed placedRecorded _ _ => ?_
        refine (eraseRange_below sound (rewrote.2 _ _ rfl) placed).bind fun _ after erased => ?_
        exact .pure fun _ => cleanAll.recorded ((rewrote.1.trans placedRecorded).trans erased)

theorem rescueBackupInfoTable_below {mainTableEndBa : Nat}
    (is : state.ni.mappingBlocksTopBa = top) :
    Ensures (rescueBackupInfoTable ld mainTableEndBa) state fun _ after =>
      Recorded ld (Below top) state after := by
  unfold rescueBackupInfoTable
  refine move_bind ld (Below top) rfl rfl rfl rfl fun moved movedRecorded _ _ => .getNi_bind ?_
  have movedTop := movedRecorded.mappingBlocksTopBa.trans is
  split
  · exact move_bind ld (Below top) rfl rfl rfl rfl fun after recorded _ _ =>
      .pure (movedRecorded.trans recorded)
  · refine (writeInfoTableDownward_below sound movedTop).bind fun back written wrote => ?_
    have writtenRecorded := movedRecorded.trans wrote.1
    cases back with
    | none =>
      exact move_bind ld (Below top) rfl rfl rfl rfl fun after recorded _ _ =>
        .pure (writtenRecorded.trans recorded)
    | some back =>
      refine move_bind ld (Below top) rfl rfl rfl rfl fun placed placedRecorded _ _ => ?_
      refine (eraseRange_below sound (wrote.2 _ _ rfl) placed).bind fun _ after erased => ?_
      exact .pure ((writtenRecorded.trans placedRecorded).trans erased)

omit sound in
theorem promoteBackupTable_below :
    Ensures promoteBackupTable state fun _ after => Recorded ld (Below top) state after :=
  Recorded.ofUpdate state
    (fun ni => { ni with mainTableBa := ni.backupTableBa, backupTableBa := 0 }) rfl rfl rfl rfl

theorem rescueMainInfoTable_below (is : state.ni.mappingBlocksTopBa = top) :
    Ensures (rescueMainInfoTable ld) state fun _ after =>
      Recorded ld (Below top) state after ∨ Cleaned ld (Below top) state after := by
  unfold rescueMainInfoTable
  refine .getNi_bind ?_
  split
  · exact promoteBackupTable_below.bind fun _ after recorded => .pure (.inl recorded)
  · refine (writeInfoTableDownward_below sound is).bind fun tmp written wrote => ?_
    cases tmp with
    | none =>
      exact promoteBackupTable_below.bind fun _ after recorded =>
        .pure (.inl (wrote.1.trans recorded))
    | some tmp =>
      refine move_bind ld (Below top) rfl rfl rfl rfl fun moved movedRecorded _ _ =>
        .getNi_bind ?_
      refine (writeInfoTable_below sound (wrote.2 _ _ rfl) moved).bind
        fun main rewritten rewrote => ?_
      have before := (wrote.1.trans movedRecorded).trans rewrote.1
      cases main with
      | none =>
        refine move_bind ld (Below top) rfl rfl rfl rfl fun placed placedRecorded _ _ =>
          clean_bind ld (Below top) fun clean cleaned _ => .pure (.inr ?_)
        exact cleaned.afterConfined (before.trans placedRecorded).toConfined
      | some main =>
        refine move_bind ld (Below top) rfl rfl rfl rfl fun placed placedRecorded _ _ =>
          clean_bind ld (Below top) fun clean cleaned _ => ?_
        have cleanAll : Cleaned ld (Below top) state clean :=
          cleaned.afterConfined (before.trans placedRecorded).toConfined
        refine .ite (fun _ => ?_) fun _ => ?_
        · exact move_bind ld (Below top) rfl rfl rfl rfl fun after recorded _ _ =>
            .pure (.inr (cleanAll.recorded recorded))
        · refine (rescueBackupInfoTable_below sound
            (cleanAll.confined.mappingBlocksTopBa.trans is)).mono fun _ after recorded => ?_
          exact .inr (cleanAll.recorded recorded)

theorem updateMainInfoTable_below (low : limit ≤ top) (is : state.ni.mappingBlocksTopBa = top) :
    Ensures (updateMainInfoTable ld limit) state fun success after => success = true →
      Cleaned ld (Below top) state after ∨
        state.ni.backupTableBa ≠ 0 ∧ Recorded ld (Below top) state after := by
  unfold updateMainInfoTable
  refine .getNi_bind (.ite (fun _ => ?_) fun _ => ?_)
  · exact (rebuildInfoTable_below sound is).mono fun _ _ done success => .inl (done success)
  · refine (writeInfoTable_below sound low state).bind fun range written wrote => ?_
    have writtenTop := wrote.1.mappingBlocksTopBa.trans is
    cases range with
    | none =>
      refine .ite (fun _ => ?_) fun some => ?_
      · exact (rebuildInfoTable_below sound writtenTop).mono fun _ _ done success =>
          .inl ((done success).afterConfined wrote.1.toConfined)
      · refine (rescueMainInfoTable_below sound writtenTop).mono fun _ after rescued _ => ?_
        rcases rescued with recorded | cleaned
        · exact .inr ⟨some, wrote.1.trans recorded⟩
        · exact .inl (cleaned.afterConfined wrote.1.toConfined)
    | some range =>
      refine move_bind ld (Below top) rfl rfl rfl rfl fun moved movedRecorded _ _ =>
        clean_bind ld (Below top) fun clean cleaned _ => .pure fun _ => .inl ?_
      exact cleaned.afterConfined (wrote.1.trans movedRecorded).toConfined

theorem updateInfoTableOnce_below
    (dirty : state.ni.blockStateChanged ≠ 0 ∨ state.ni.blockMappingChanged ≠ 0) :
    Ensures (updateInfoTableOnce ld false) state fun success after => success = true →
      Cleaned ld (Below state.ni.mappingBlocksTopBa) (generated ld state) after := by
  refine updateInfoTableOnce_cases (fun states mapping _ => ?_) (fun _ alone => ?_) fun _ both => ?_
  · rcases dirty with dirty | dirty
    · exact absurd states dirty
    · exact absurd mapping dirty
  · have sameTop : (generated ld state).ni.mappingBlocksTopBa = state.ni.mappingBlocksTopBa := rfl
    refine (updateMainInfoTable_below sound le_rfl sameTop).mono fun _ after updated success => ?_
    rcases updated success with cleaned | ⟨some, _⟩
    · exact cleaned
    · exact absurd alone some
  · refine (writeInfoTable_below sound le_rfl (generated ld state)).bind
      fun range written wrote => ?_
    cases range with
    | none =>
      refine move_bind ld (Below state.ni.mappingBlocksTopBa) rfl rfl rfl rfl
        fun moved movedRecorded _ movedNi => ?_
      have before := wrote.1.trans movedRecorded
      refine (updateMainInfoTable_below sound le_rfl before.mappingBlocksTopBa).mono
        fun _ after updated success => ?_
      rcases updated success with cleaned | ⟨some, _⟩
      · exact cleaned.afterConfined before.toConfined
      · rw [movedNi] at some
        exact absurd rfl some
    | some range =>
      refine move_bind ld (Below state.ni.mappingBlocksTopBa) rfl rfl rfl rfl
        fun moved movedRecorded _ movedNi =>
          clean_bind ld (Below state.ni.mappingBlocksTopBa) fun clean cleaned _ => ?_
      have cleanAll : Cleaned ld (Below state.ni.mappingBlocksTopBa) (generated ld state) clean :=
        cleaned.afterConfined (wrote.1.trans movedRecorded).toConfined
      refine (updateMainInfoTable_below sound (wrote.2 _ _ rfl)
        cleanAll.confined.mappingBlocksTopBa).mono fun _ after updated success => ?_
      rcases updated success with again | ⟨_, recorded⟩
      · exact again.afterConfined cleanAll.confined
      · exact cleanAll.recorded recorded

end Upkeep

/-! ## The loop of `nmbm_update_info_table` -/

/-- The blocks below `mapping_blocks_top_ba` that are not recorded as bad. -/
def Instance.usableBelow (ni : Instance) : Nat :=
  ((Finset.range ni.mappingBlocksTopBa).filter fun ba => ni.getBlockState ba ≠ BLOCK_ST_BAD).card

def State.updateRoundsLeft (state : State) : Nat :=
  if state.ni.blockStateChanged ≠ 0 ∨ state.ni.blockMappingChanged ≠ 0 then
    state.ni.usableBelow + 1
  else 0

theorem State.updateRoundsLeft_le (state : State) :
    state.updateRoundsLeft ≤ state.ni.usableBelow + 1 := by
  rw [State.updateRoundsLeft]
  split
  · exact le_rfl
  · exact Nat.zero_le _

/-- One round of the loop of `nmbm_update_info_table`. -/
def updateRound (ld : LowerDevice) (state : State) : (Bool × State) ⊕ State :=
  if state.ni.blockStateChanged ≠ 0 ∨ state.ni.blockMappingChanged ≠ 0 then
    match updateInfoTableOnce ld false state with
    | (true, next) => .inr next
    | (false, after) => .inl (false, after)
  else .inl (true, state)

theorem usableBelow_lt {before after : State}
    (cleaned : Cleaned ld (Below before.ni.mappingBlocksTopBa) before after)
    (dirty : after.ni.blockStateChanged ≠ 0) : after.ni.usableBelow < before.ni.usableBelow := by
  obtain ⟨ba, below, usable, bad⟩ := cleaned.lost dirty
  rw [Instance.usableBelow, Instance.usableBelow, cleaned.confined.mappingBlocksTopBa]
  refine Finset.card_lt_card (Finset.ssubset_iff_of_subset ?_ |>.mpr ⟨ba, ?_, ?_⟩)
  · intro other among
    rw [Finset.mem_filter] at among ⊢
    exact ⟨among.1, fun bad => among.2 (cleaned.confined.bad bad)⟩
  · exact Finset.mem_filter.mpr ⟨Finset.mem_range.mpr below, usable⟩
  · rw [Finset.mem_filter]
    exact fun among => among.2 bad

theorem updateInfoTableLoop_round (rounds : Nat) (state : State) :
    updateInfoTableLoop ld (rounds + 1) state =
      (updateRound ld state).elim id (updateInfoTableLoop ld rounds) := by
  rw [updateInfoTableLoop, getNi_run, updateRound]
  by_cases dirty : state.ni.blockStateChanged ≠ 0 ∨ state.ni.blockMappingChanged ≠ 0
  · rw [if_pos dirty, if_pos dirty, bind_run]
    cases updateInfoTableOnce ld false state with
    | mk success next => cases success <;> rfl
  · rw [if_neg dirty, if_neg dirty]
    rfl

/-! ## The loop of `nmbm_erase_logic_block` -/

/-- The block that was replaced is recorded as bad, and the tables are brought up to date. -/
def updateBeforeErasing (ld : LowerDevice) (pb : Nat) : NmbmM Unit := do
  let ni ← getNi
  if ni.getBlockState pb ≠ BLOCK_ST_NEED_REMAP then
    setBlockState pb BLOCK_ST_BAD
  let _ ← updateInfoTable ld

/-- One round of `nmbm_erase_logic_block` from the label `retry` on. -/
def eraseRound (ld : LowerDevice) (blockAddr : Nat) (state : State) : (Int × State) ⊕ State :=
  let pb := state.ni.blockMapping blockAddr
  if isUnmapped pb then
    .inl (- EIO, state)
  else
    match eraseMappedBlock ld pb.toNat state with
    | (true, erased) => .inl (0, erased)
    | (false, refused) =>
      match mapBlock ld blockAddr refused with
      | (true, remapped) => .inr (updateBeforeErasing ld pb.toNat remapped).2
      | (false, unmapped) =>
        .inl (- EIO, (giveUpLogicBlock ld blockAddr pb.toNat unmapped).2)

theorem eraseLogicBlockLoop_round (blockAddr rounds : Nat) (state : State) :
    eraseLogicBlockLoop ld blockAddr (rounds + 1) state =
      (eraseRound ld blockAddr state).elim id (eraseLogicBlockLoop ld blockAddr rounds) := by
  rw [eraseLogicBlockLoop, getNi_run, eraseRound]
  dsimp only
  by_cases unmapped : isUnmapped (state.ni.blockMapping blockAddr)
  · rw [if_pos unmapped, if_pos unmapped]
    rfl
  rw [if_neg unmapped, if_neg unmapped, bind_run]
  cases eraseMappedBlock ld (state.ni.blockMapping blockAddr).toNat state with
  | mk erased refused =>
    cases erased with
    | true => rfl
    | false =>
      dsimp only
      rw [if_neg (by decide), bind_run]
      cases mapBlock ld blockAddr refused with
      | mk success remapped =>
        cases success with
        | false => rfl
        | true =>
          dsimp only
          rw [if_pos rfl, getNi_run, updateBeforeErasing, getNi_run]
          split <;> rfl

section Terminates

variable (sound : ld.Sound)

include sound

theorem updateRound_lowers (state next : State) (goesOn : updateRound ld state = .inr next) :
    next.updateRoundsLeft < state.updateRoundsLeft := by
  rw [updateRound] at goesOn
  split at goesOn
  · rename_i dirty
    have once := updateInfoTableOnce_below sound dirty
    cases run : updateInfoTableOnce ld false state with
    | mk success after =>
      rw [run] at goesOn
      rw [Ensures, run] at once
      cases success with
      | false => cases goesOn
      | true =>
        obtain rfl := Sum.inr.inj goesOn
        have cleaned : Cleaned ld (Below (generated ld state).ni.mappingBlocksTopBa)
          (generated ld state) after := once rfl
        rw [State.updateRoundsLeft, State.updateRoundsLeft, if_pos dirty]
        split
        · rename_i again
          have states : after.ni.blockStateChanged ≠ 0 :=
            again.resolve_right fun mapping => mapping cleaned.mappingCounter
          have fewer : after.ni.usableBelow < (generated ld state).ni.usableBelow :=
            usableBelow_lt cleaned states
          exact Nat.succ_lt_succ fewer
        · exact Nat.succ_pos _
  · cases goesOn

omit sound in
/-- A block that is mapped is taken from below `mapping_blocks_top_ba`, which is lowered. -/
theorem mapBlock_lowers (lb : Nat) (state : State) :
    Ensures (mapBlock ld lb) state fun success after => success = true →
      after.ni.mappingBlocksTopBa < state.ni.mappingBlocksTopBa := by
  unfold mapBlock
  refine .getNi_bind (.ite (fun _ => .pure nofun) fun _ => ?_)
  split
  · exact Ensures.bind (.of_true _ _) fun _ middle _ => .modifyNi_bind (.pure nofun)
  · rename_i pb walk
    obtain ⟨low, within, _⟩ := blockWalkDescLoop_spec walk le_rfl
    refine .note_bind (.modifyNi_bind (.pure fun _ => ?_))
    simp only [subU32]
    omega

def SameTop (before after : State) : Prop :=
  after.ni.mappingBlocksTopBa = before.ni.mappingBlocksTopBa

omit sound in
instance : IsPreorder State SameTop where
  refl _ := rfl
  trans _ _ _ first second := second.trans first

theorem sameTop_updateBeforeErasing (pb : Nat) : Preserves SameTop (updateBeforeErasing ld pb) := by
  have updates : Preserves SameTop (updateInfoTable ld) :=
    preserves_updateInfoTable sound (fun _ _ confined => confined.mappingBlocksTopBa) fun _ => rfl
  unfold updateBeforeErasing
  refine Preserves.bind (fun _ => rfl) fun ni => .ite (fun _ => ?_) fun _ => ?_
  · exact Preserves.bind (fun _ => rfl) fun _ => updates.bind fun _ => .pure _
  · exact updates.bind fun _ => .pure _

theorem eraseRound_lowers (blockAddr : Nat) (state next : State)
    (goesOn : eraseRound ld blockAddr state = .inr next) :
    next.ni.mappingBlocksTopBa < state.ni.mappingBlocksTopBa := by
  rw [eraseRound] at goesOn
  split at goesOn
  · cases goesOn
  generalize (state.ni.blockMapping blockAddr).toNat = pb at goesOn
  have refusing : Preserves (Touches ld Anywhere) (eraseMappedBlock ld pb) :=
    touches_eraseMappedBlock sound trivial
  have refusedTop := (refusing state).mappingBlocksTopBa
  cases erase : eraseMappedBlock ld pb state with
  | mk erased refused =>
    rw [erase] at goesOn refusedTop
    cases erased with
    | true => cases goesOn
    | false =>
      have lowered := @mapBlock_lowers ld blockAddr refused
      cases map : mapBlock ld blockAddr refused with
      | mk success remapped =>
        rw [Ensures, map] at lowered
        dsimp only at goesOn refusedTop
        rw [map] at goesOn
        cases success with
        | false => cases goesOn
        | true =>
          obtain rfl := Sum.inr.inj goesOn
          have settled := sameTop_updateBeforeErasing sound pb remapped
          have fewer := lowered rfl
          rw [SameTop] at settled
          dsimp only at fewer
          omega

/-- The round counter of `nmbm_update_info_table` in the model is never used up where the spare
area lies on the chip. -/
theorem updateInfoTableLoop_enough {state : State}
    (onChip : state.ni.mappingBlocksTopBa ≤ ld.blockCount) {rounds : Nat}
    (more : ld.blockCount + 2 ≤ rounds) :
    updateInfoTableLoop ld rounds state = updateInfoTableLoop ld (ld.blockCount + 2) state := by
  have usable : state.ni.usableBelow ≤ state.ni.mappingBlocksTopBa :=
    (Finset.card_filter_le _ _).trans (Finset.card_range _).le
  have left := state.updateRoundsLeft_le
  exact loop_eq_of_enough updateInfoTableLoop_round (updateRound_lowers sound) (by omega) (by omega)

/-- In every state the loop of `nmbm_update_info_table` takes at most one round more than there are
usable blocks below `mapping_blocks_top_ba`, and the loop of `nmbm_erase_logic_block` at most
`mapping_blocks_top_ba` rounds, and neither notices a round counter above that. -/
theorem maintenance_terminates (state : State) (blockAddr : Nat) :
    (∀ count after, Rounds (updateRound ld) count state after →
        count ≤ state.ni.usableBelow + 1) ∧
      (∀ rounds, state.ni.usableBelow + 1 < rounds → updateInfoTableLoop ld rounds state =
        updateInfoTableLoop ld (state.ni.usableBelow + 2) state) ∧
      (∀ count after, Rounds (eraseRound ld blockAddr) count state after →
        count ≤ state.ni.mappingBlocksTopBa) ∧
      (∀ rounds, state.ni.mappingBlocksTopBa < rounds →
        eraseLogicBlockLoop ld blockAddr rounds state = eraseLogicBlock ld blockAddr state) ∧
      (state.ni.mappingBlocksTopBa ≤ ld.blockCount → ∀ rounds, ld.blockCount + 2 ≤ rounds →
        updateInfoTableLoop ld rounds state =
          updateInfoTableLoop ld (ld.blockCount + 2) state) := by
  have left := state.updateRoundsLeft_le
  refine ⟨fun count after rounds => ?_, fun rounds enough => ?_, fun count after rounds => ?_,
    fun rounds enough => ?_, fun onChip rounds more => updateInfoTableLoop_enough sound onChip more⟩
  · have bounded := rounds.le_measure (updateRound_lowers sound)
    omega
  · exact loop_eq_of_enough updateInfoTableLoop_round (updateRound_lowers sound) (by omega)
      (by omega)
  · have lowers := eraseRound_lowers sound blockAddr
    have bounded := @Rounds.le_measure _ _ _ (fun state => state.ni.mappingBlocksTopBa) lowers _ _ _
      rounds
    omega
  · rw [eraseLogicBlock, getNi_run]
    exact @loop_eq_of_enough _ _ _ (fun state => state.ni.mappingBlocksTopBa) _
      (eraseLogicBlockLoop_round blockAddr) (eraseRound_lowers sound blockAddr) _ _ _ enough
      (by omega)

end Terminates

theorem maintenance_terminates_created : ∃ sys,
    run (faultyChip 9 []) [.attach creating 40] (initialSys (faultyChip 9 []) (erasedFlash [0])) =
        some sys ∧
      ∀ lb count after, Rounds (eraseRound (faultyChip 9 []) lb) count sys.state after →
        count ≤ 13 := by
  obtain ⟨sys, is, top⟩ : ∃ sys,
      run (faultyChip 9 []) [.attach creating 40] (initialSys (faultyChip 9 []) (erasedFlash [0])) =
          some sys ∧
        sys.state.ni.mappingBlocksTopBa ≤ 13 := exists_of_any (by decide +kernel)
  refine ⟨sys, is, fun lb count after rounds => ?_⟩
  exact ((maintenance_terminates (smallChip_sound _ (by decide)) sys.state lb).2.2.1 count after
    rounds).trans top

end MetaFilogic.Nmbm
