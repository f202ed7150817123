import MetaFilogic.Nmbm.Rounds

/-!
# What an erase request achieves

`nmbm_erase_logic_block` goes on to the next spare block until one has been erased.  When it
returns 0 the logical block is mapped to the block it has just erased; otherwise the logical block
has no mapping any more.  `nmbm_erase_block_range` stops at the first logical block that could not
be erased.
-/

namespace MetaFilogic.Nmbm

open Bytes

variable {ld : LowerDevice} {state : State}

/-! ## States that blocks are given -/

def DriverStates (ni : Instance) : Prop :=
  ∀ ba, ni.getBlockState ba = BLOCK_ST_BAD ∨ ni.getBlockState ba = BLOCK_ST_NEED_REMAP ∨
    ni.getBlockState ba = BLOCK_ST_GOOD

/-- Between the two states blocks may have been recorded as bad, and records were added. -/
structure OnlyRetires (before after : State) : Prop where
  grows : Grows before after
  states : ∀ ba, after.ni.getBlockState ba = before.ni.getBlockState ba ∨
    after.ni.getBlockState ba = BLOCK_ST_BAD

namespace OnlyRetires

variable {before middle after : State}

theorem refl (state : State) : OnlyRetires state state := ⟨.refl state, fun _ => .inl rfl⟩

theorem trans (first : OnlyRetires before middle) (second : OnlyRetires middle after) :
    OnlyRetires before after where
  grows := first.grows.trans second.grows
  states ba := by
    rcases second.states ba with same | bad
    · rw [same]
      exact first.states ba
    · exact .inr bad

theorem driverStates (retires : OnlyRetires before after) (driver : DriverStates before.ni) :
    DriverStates after.ni := by
  intro ba
  rcases retires.states ba with same | bad
  · rw [same]
    exact driver ba
  · exact .inl bad

end OnlyRetires

instance : IsPreorder State OnlyRetires where
  refl := .refl
  trans _ _ _ := .trans

theorem Confined.onlyRetires {region : Nat → Prop} {before after : State}
    (confined : Confined ld region before after) : OnlyRetires before after :=
  ⟨confined.grows, fun ba => (confined.states ba).imp_right And.right⟩

theorem onlyRetires_getNi : Preserves OnlyRetires getNi := OnlyRetires.refl

theorem onlyRetires_note (event : Event) : Preserves OnlyRetires (note event) :=
  fun _ => ⟨⟨[event], rfl⟩, fun _ => .inl rfl⟩

theorem onlyRetires_moveBind {α : Type} {update : Instance → Instance} {next : Unit → NmbmM α}
    (states : ∀ ni, (update ni).blockState = ni.blockState)
    (rest : Preserves OnlyRetires (next ())) :
    Preserves OnlyRetires (modifyNi update >>= next) := by
  have moves : Preserves OnlyRetires (modifyNi update) := fun state => ⟨⟨[], rfl⟩, fun ba => .inl
    (show (update state.ni).getBlockState ba = _ by simp only [Instance.getBlockState, states])⟩
  exact moves.bind fun _ => rest

theorem onlyRetires_recordBad (pb : Nat) :
    Preserves OnlyRetires (setBlockState pb BLOCK_ST_BAD) := by
  intro state
  refine ⟨⟨[], rfl⟩, fun ba => ?_⟩
  by_cases is : ba = pb
  · subst is
    exact .inr (state.ni.getBlockState_set_same ba BLOCK_ST_BAD)
  · exact .inl (state.ni.getBlockState_set_other pb BLOCK_ST_BAD is)

section Retires

variable (sound : ld.Sound)

include sound

theorem onlyRetires_updateInfoTable : Preserves OnlyRetires (updateInfoTable ld) :=
  preserves_updateInfoTable sound (fun _ _ confined => confined.onlyRetires)
    fun _ => ⟨⟨[], rfl⟩, fun _ => .inl rfl⟩

theorem onlyRetires_eraseMappedBlock (pb : Nat) :
    Preserves OnlyRetires (eraseMappedBlock ld pb) := by
  have touches : Preserves (Touches ld Anywhere) (eraseMappedBlock ld pb) :=
    touches_eraseMappedBlock sound trivial
  exact touches.mono fun _ _ touches => touches.toConfined.onlyRetires

theorem onlyRetires_mapBlock (lb : Nat) : Preserves OnlyRetires (mapBlock ld lb) := by
  unfold mapBlock
  refine onlyRetires_getNi.bind fun ni => .ite (fun _ => .pure _) fun _ => ?_
  split
  · exact (onlyRetires_updateInfoTable sound).bind fun _ =>
      onlyRetires_moveBind (fun _ => rfl) (.pure _)
  · exact (onlyRetires_note _).bind fun _ => onlyRetires_moveBind (fun _ => rfl) (.pure _)

theorem onlyRetires_updateBeforeErasing (pb : Nat) :
    Preserves OnlyRetires (updateBeforeErasing ld pb) := by
  unfold updateBeforeErasing
  refine onlyRetires_getNi.bind fun ni => .ite (fun _ => ?_) fun _ => ?_
  · exact (onlyRetires_recordBad pb).bind fun _ =>
      (onlyRetires_updateInfoTable sound).bind fun _ => .pure _
  · exact (onlyRetires_updateInfoTable sound).bind fun _ => .pure _

end Retires

/-! ## One block -/

structure BlockErased (ld : LowerDevice) (pb : Nat) (before after : State) : Prop where
  request : ∃ new, after.trace = new ++ before.trace ∧ .erase pb after.flash ∈ new
  pages : ∀ page, page / ld.pagesPerBlock = pb → after.flash.page page = ld.erasedPage

theorem BlockErased.after {pb : Nat} {before middle after : State} (grows : Grows before middle)
    (erased : BlockErased ld pb middle after) : BlockErased ld pb before after := by
  obtain ⟨earlier, middleTrace⟩ := grows
  obtain ⟨new, trace, among⟩ := erased.request
  refine ⟨⟨new ++ earlier, ?_, List.mem_append_left _ among⟩, erased.pages⟩
  rw [trace, middleTrace, List.append_assoc]

theorem BlockErased.read {pb : Nat} {before middle after : State}
    (erased : BlockErased ld pb before middle)
    (touches : Touches ld (fun _ => False) middle after) :
    BlockErased ld pb before after := by
  obtain ⟨new, trace, among⟩ := erased.request
  obtain ⟨later, afterTrace⟩ := touches.toConfined.grows
  have flash : after.flash = middle.flash := touches.flash.eq
  refine ⟨⟨later ++ new, ?_, List.mem_append_right _ (flash ▸ among)⟩, flash ▸ erased.pages⟩
  rw [afterTrace, trace, List.append_assoc]

theorem lowerEraseBlock_erases (addr : Nat) (state : State) :
    Ensures (lowerEraseBlock ld addr) state fun ret after => after.ni = state.ni ∧
      Grows state after ∧ (ret = 0 → BlockErased ld (ld.blockOf addr) state after) := by
  by_cases high : ld.size ≤ addr
  · simp only [lowerEraseBlock, high, if_true]
    exact ⟨rfl, ⟨[], rfl⟩, fun success => absurd success (by decide : ¬(-EINVAL : Int) = 0)⟩
  · simp only [lowerEraseBlock, high, if_false]
    refine ⟨rfl, ⟨[_], rfl⟩, fun success => ⟨⟨[_], rfl, List.mem_singleton_self _⟩, ?_⟩⟩
    intro page inside
    have done : (ld.fault state.clock).eraseRet = 0 := success
    change (ld.afterErase _ state.flash _).page page = _
    rw [LowerDevice.afterErase, if_pos done, LowerDevice.setBlock]
    exact if_pos inside

theorem erasePhysBlock_erases (addr : Nat) (state : State) :
    Ensures (erasePhysBlock ld addr) state fun success after => after.ni = state.ni ∧
      Grows state after ∧ (success = true → BlockErased ld (ld.blockOf addr) state after) := by
  have tries (count : Nat) (state : State) :
      Ensures (retry (lowerEraseBlock ld addr) count) state fun success after =>
        after.ni = state.ni ∧ Grows state after ∧
          (success = true → BlockErased ld (ld.blockOf addr) state after) := by
    induction count generalizing state with
    | zero => exact .pure ⟨rfl, .refl state, nofun⟩
    | succ count ih =>
      refine (lowerEraseBlock_erases addr state).bind fun ret middle first => ?_
      obtain ⟨ni, grows, erases⟩ := first
      refine .ite (fun success => .pure ⟨ni, grows, fun _ => erases success⟩) fun _ => ?_
      refine (ih middle).mono fun success after rest => ?_
      exact ⟨rest.1.trans ni, grows.trans rest.2.1, fun done => (rest.2.2 done).after grows⟩
  exact Ensures.getNi_bind (.ite (fun _ => .pure ⟨rfl, .refl state, nofun⟩) fun _ => tries _ state)

section Contract

variable (sound : ld.Sound)

include sound

theorem eraseMappedBlock_erases (pb : Nat) (state : State) :
    Ensures (eraseMappedBlock ld pb) state fun success after => success = true →
      BlockErased ld pb state after ∧ after.ni.blockMapping = state.ni.blockMapping ∧
        after.ni.getBlockState pb = state.ni.getBlockState pb ∧
        state.ni.getBlockState pb ≠ BLOCK_ST_BAD ∧
        state.ni.getBlockState pb ≠ BLOCK_ST_NEED_REMAP := by
  unfold eraseMappedBlock
  refine .getNi_bind (.ite (fun _ => .pure nofun) fun usable => ?_)
  rw [not_or] at usable
  have checks : Preserves (Touches ld fun _ => False) (checkBadPhysBlock ld pb) :=
    touches_checkBadPhysBlock pb
  refine (checks.ensures state).bind fun bad checked touches => .ite (fun _ => ?_) fun _ => ?_
  · exact Ensures.bind (.of_true _ _) fun _ middle _ => .pure nofun
  have erases : Ensures (eraseBlockAndCheck ld pb) checked fun success after => success = true →
      BlockErased ld pb checked after ∧ after.ni.blockMapping = checked.ni.blockMapping ∧
        after.ni.getBlockState pb = checked.ni.getBlockState pb := by
    unfold eraseBlockAndCheck
    refine (erasePhysBlock_erases _ checked).bind fun success blank erased => ?_
    rw [sound.blockOf_ba2addr] at erased
    obtain ⟨ni, _, erased⟩ := erased
    refine .ite (fun _ => .pure nofun) fun done => .getNi_bind ?_
    have success : success = true := by simpa using done
    refine .ite (fun _ => .pure fun _ => ⟨erased success, by rw [ni], by rw [ni]⟩) fun _ => ?_
    have reads : Preserves (Touches ld fun _ => False)
        (checkErasedPages ld (ld.ba2addr pb) ld.pagesPerBlock) := touches_checkErasedPages _ _
    refine (reads.ensures blank).mono fun _ after touches _ => ?_
    refine ⟨(erased success).read touches, ?_, ?_⟩
    · rw [touches.mapping, ni]
    · rw [touches.getBlockState, ni]
  refine erases.bind fun success after done => .ite (fun erased => .pure fun _ => ?_) fun _ => ?_
  · obtain ⟨erased, mapping, recorded⟩ := done erased
    exact ⟨erased.after touches.toConfined.grows, mapping.trans touches.mapping,
      recorded.trans (touches.getBlockState pb), usable.1, usable.2⟩
  · exact Ensures.bind (.of_true _ _) fun _ middle _ => .pure nofun

theorem giveUpLogicBlock_unmaps (blockAddr pb : Nat) (state : State) :
    Ensures (giveUpLogicBlock ld blockAddr pb) state fun _ after =>
      isUnmapped (after.ni.blockMapping blockAddr) := by
  have updates : Preserves (Remaps fun _ => False) (updateInfoTable ld) :=
    remaps_updateInfoTable sound
  have rest (middle : State) (unmapped : isUnmapped (middle.ni.blockMapping blockAddr)) :
      Ensures (do
        let ni ← getNi
        note (.unmapped (ni.blockStateChanged ≠ 0 ∨ ni.blockMappingChanged ≠ 0))
        let _ ← updateInfoTable ld
        return ()) middle fun _ after => isUnmapped (after.ni.blockMapping blockAddr) := by
    refine .getNi_bind (.note_bind ((updates.ensures _).bind fun _ after remaps => .pure ?_))
    rw [remaps.mapping blockAddr id]
    exact unmapped
  have entry : isUnmapped (if blockAddr = blockAddr then unmappedEntry
      else state.ni.blockMapping blockAddr) := by
    rw [if_pos rfl]
    exact isUnmapped_unmappedEntry
  unfold giveUpLogicBlock
  refine .modifyNi_bind (.getNi_bind (.ite (fun _ => ?_) fun _ => rest _ entry))
  exact .modifyNi_bind (rest _ entry)

/-- The logical block is mapped to a block that was erased during the call.  The block is recorded
as good if all blocks had one of the three states of the driver in the state `origin`. -/
structure Erases (ld : LowerDevice) (origin : State) (lb : Nat) (before after : State) : Prop where
  mapped : ¬isUnmapped (after.ni.blockMapping lb)
  erased : BlockErased ld (after.ni.blockMapping lb).toNat before after
  notBad : after.ni.getBlockState (after.ni.blockMapping lb).toNat ≠ BLOCK_ST_BAD
  notNeedRemap : after.ni.getBlockState (after.ni.blockMapping lb).toNat ≠ BLOCK_ST_NEED_REMAP
  good : DriverStates origin.ni →
    after.ni.getBlockState (after.ni.blockMapping lb).toNat = BLOCK_ST_GOOD

variable {origin : State}

omit sound in
theorem Erases.after {before middle after : State} {lb : Nat} (grows : Grows before middle)
    (erases : Erases ld origin lb middle after) : Erases ld origin lb before after :=
  ⟨erases.mapped, erases.erased.after grows, erases.notBad, erases.notNeedRemap, erases.good⟩

/-- A round of `nmbm_erase_logic_block` ends with the block erased or without a mapping, or blocks
have only become bad. -/
theorem eraseRound_outcome (retires : OnlyRetires origin state) (lb : Nat) :
    match eraseRound ld lb state with
    | .inl (ret, after) =>
      ret = 0 ∧ Erases ld origin lb state after ∧ OnlyRetires origin after ∨
        ret ≠ 0 ∧ isUnmapped (after.ni.blockMapping lb)
    | .inr next => Grows state next ∧ OnlyRetires origin next := by
  rw [eraseRound]
  by_cases unmapped : isUnmapped (state.ni.blockMapping lb)
  · rw [if_pos unmapped]
    exact .inr ⟨by decide, unmapped⟩
  rw [if_neg unmapped]
  have erases := eraseMappedBlock_erases sound (state.ni.blockMapping lb).toNat state
  have refuses := onlyRetires_eraseMappedBlock sound (state.ni.blockMapping lb).toNat state
  cases erase : eraseMappedBlock ld (state.ni.blockMapping lb).toNat state with
  | mk erased refused =>
    rw [Ensures, erase] at erases
    rw [erase] at refuses
    cases erased with
    | true =>
      obtain ⟨erased, mapping, recorded, notBad, notNeedRemap⟩ := erases rfl
      dsimp only at mapping recorded
      have all := retires.trans refuses
      refine .inl ⟨rfl, ⟨?_, ?_, ?_, ?_, fun driver => ?_⟩, all⟩
      · rw [mapping]
        exact unmapped
      · rw [mapping]
        exact erased
      · rw [mapping, recorded]
        exact notBad
      · rw [mapping, recorded]
        exact notNeedRemap
      · rw [mapping, recorded]
        have given := retires.driverStates driver (state.ni.blockMapping lb).toNat
        exact (given.resolve_left notBad).resolve_left notNeedRemap
    | false =>
      dsimp only
      have maps := onlyRetires_mapBlock sound lb refused
      cases map : mapBlock ld lb refused with
      | mk success remapped =>
        rw [map] at maps
        cases success with
        | false =>
          refine .inr ⟨by decide, ?_⟩
          exact giveUpLogicBlock_unmaps sound lb (state.ni.blockMapping lb).toNat remapped
        | true =>
          have settles := onlyRetires_updateBeforeErasing sound
            (state.ni.blockMapping lb).toNat remapped
          have all := (refuses.trans maps).trans settles
          exact ⟨all.grows, retires.trans all⟩

/-- `nmbm_erase_logic_block` erases the block that the logical block is mapped to, or leaves the
logical block unmapped. -/
theorem eraseLogicBlock_outcome (retires : OnlyRetires origin state) (lb : Nat) :
    Ensures (eraseLogicBlock ld lb) state fun ret after =>
      ret = 0 ∧ Erases ld origin lb state after ∧ OnlyRetires origin after ∨
        ret ≠ 0 ∧ isUnmapped (after.ni.blockMapping lb) := by
  have loop (rounds : Nat) (state : State) (retires : OnlyRetires origin state)
      (enough : state.ni.mappingBlocksTopBa < rounds) :
      Ensures (eraseLogicBlockLoop ld lb rounds) state fun ret after =>
        ret = 0 ∧ Erases ld origin lb state after ∧ OnlyRetires origin after ∨
          ret ≠ 0 ∧ isUnmapped (after.ni.blockMapping lb) := by
    induction rounds generalizing state with
    | zero => exact absurd enough (Nat.not_lt_zero _)
    | succ rounds ih =>
      have outcome := eraseRound_outcome sound retires lb
      rw [Ensures, eraseLogicBlockLoop_round]
      cases round : eraseRound ld lb state with
      | inl done =>
        rw [round] at outcome
        exact outcome
      | inr next =>
        have lower := eraseRound_lowers sound lb state next round
        rw [round] at outcome
        refine (ih next outcome.2 (by omega)).imp ?_ id
        rintro ⟨success, erases, later⟩
        exact ⟨success, erases.after outcome.1, later⟩
  exact .getNi_bind (loop _ state retires (by omega))

/-! ## A range of blocks -/

/-- The logical blocks from `lb` up to `stop` have been erased one after the other. -/
inductive ErasedBlocks (ld : LowerDevice) (origin : State) : Nat → Nat → State → State → Prop
  | none (lb : Nat) (state : State) : ErasedBlocks ld origin lb lb state state
  | more {lb stop : Nat} {before middle after : State} :
      eraseLogicBlock ld lb before = (0, middle) → Erases ld origin lb before middle →
        ErasedBlocks ld origin (lb + 1) stop middle after →
          ErasedBlocks ld origin lb stop before after

/-- All logical blocks from `first` up to `stop` have been erased, or the address of the first one
that could not be erased is reported, and that one has no mapping. -/
inductive EraseOutcome (ld : LowerDevice) (origin : State) (first stop : Nat) (before : State)
    (result : Int × Option Nat) (after : State) : Prop
  | complete : result = (0, none) → ErasedBlocks ld origin first stop before after →
      EraseOutcome ld origin first stop before result after
  | stopped {lb : Nat} {middle : State} : first ≤ lb → lb < stop →
      ErasedBlocks ld origin first lb before middle →
        eraseLogicBlock ld lb middle = (result.1, after) → result.1 ≠ 0 →
          isUnmapped (after.ni.blockMapping lb) → result.2 = some (ld.ba2addr lb) →
            EraseOutcome ld origin first stop before result after

theorem eraseBlocksFrom_outcome {startBa blocks : Nat} (retires : OnlyRetires origin state) :
    Ensures (eraseBlocksFrom ld startBa blocks) state fun result after =>
      EraseOutcome ld origin startBa (startBa + blocks) state result after := by
  induction blocks generalizing startBa state with
  | zero => exact .pure (.complete rfl (.none startBa state))
  | succ blocks ih =>
    have outcome := eraseLogicBlock_outcome sound retires startBa
    have stop : startBa + 1 + blocks = startBa + (blocks + 1) := by omega
    rw [Ensures, eraseBlocksFrom, bind_run]
    cases erase : eraseLogicBlock ld startBa state with
    | mk ret middle =>
      rw [Ensures, erase] at outcome
      dsimp only at outcome ⊢
      rcases outcome with ⟨rfl, erases, later⟩ | ⟨failed, unmapped⟩
      · rw [if_neg (fun failed => failed rfl)]
        have rest := @ih middle (startBa + 1) later
        rw [Ensures, stop] at rest
        cases rest with
        | complete is erased => exact .complete is (.more erase erases erased)
        | stopped low high erased last failed unmapped reported =>
          exact .stopped (by omega) high (.more erase erases erased) last failed unmapped
            reported
      · rw [if_pos failed]
        exact .stopped le_rfl (by omega) (.none startBa state) erase failed unmapped rfl

theorem remaps_eraseBlocksFrom_between (startBa blocks : Nat) :
    Preserves (Remaps (Between startBa (startBa + blocks)))
      (eraseBlocksFrom ld startBa blocks) := by
  induction blocks generalizing startBa with
  | zero => exact .pure _
  | succ blocks ih =>
    unfold eraseBlocksFrom
    refine ((remaps_eraseLogicBlock sound startBa).mono fun _ _ remaps =>
      remaps.mono fun lb same => ⟨same.ge, by omega⟩).bind fun ret =>
        .ite (fun _ => .pure _) fun _ => (ih (startBa + 1)).mono fun _ _ remaps => ?_
    exact remaps.mono fun lb between => ⟨by have := between.1; omega, by have := between.2; omega⟩

omit sound in
def Overlaps (ld : LowerDevice) (addr size lb : Nat) : Prop :=
  ∃ byte, addr ≤ byte ∧ byte < addr + size ∧ ld.blockOf byte = lb

theorem overlaps_iff {addr size : Nat} (some : 0 < size) (lb : Nat) :
    Overlaps ld addr size lb ↔
      ld.blockOf addr ≤ lb ∧ lb ≤ ld.blockOf (addr + size - 1) := by
  have positive := sound.erasesize_pos
  constructor
  · rintro ⟨byte, low, high, rfl⟩
    exact ⟨Nat.div_le_div_right low, Nat.div_le_div_right (by omega)⟩
  · rintro ⟨low, high⟩
    by_cases first : lb = ld.blockOf addr
    · exact ⟨addr, le_rfl, by omega, first.symm⟩
    · refine ⟨lb * ld.erasesize, ?_, ?_, Nat.mul_div_cancel lb positive⟩
      · have above : ld.blockOf addr < lb := lt_of_le_of_ne low (Ne.symm first)
        exact ((Nat.div_lt_iff_lt_mul positive).mp above).le
      · have within := (Nat.le_div_iff_mul_le positive).mp high
        omega

/-- A request within the chip erases the logical blocks that it overlaps, in ascending order, up to
the first one that cannot be erased, and leaves the mapping of all others alone. -/
theorem eraseBlockRange_contract {flash : Flash} {ops : List Op} {sys : Sys}
    (is : run ld ops (initialSys ld flash) = some sys) (attached : sys.isAttached = true)
    (unprotected : sys.state.ni.isProtected = false)
    (writable : sys.state.ni.flags.readOnly = false) {addr size : Nat}
    (starts : addr < ld.ba2addr sys.state.ni.dataBlockCount)
    (ends : addr + size ≤ ld.ba2addr sys.state.ni.dataBlockCount) :
    Ensures (eraseBlockRange ld addr size) sys.state fun result after =>
      ∃ first stop, (∀ lb, Between first stop lb ↔ Overlaps ld addr size lb) ∧
        EraseOutcome ld sys.state first stop sys.state result after ∧
        ∀ lb, ¬Overlaps ld addr size lb →
          after.ni.blockMapping lb = sys.state.ni.blockMapping lb := by
  have width := dataBytes_lt sound is attached
  have covered := run_covered sound (fun none => absurd none Bool.false_ne_true) is attached
  have capacity : sys.state.ni.dataBlockCount < 2 ^ 32 := covered.within.trans_lt (BitVec.isLt _)
  have block (byte : Nat) (inside : byte < ld.ba2addr sys.state.ni.dataBlockCount) :
      ld.addr2ba byte = ld.blockOf byte ∧ ld.blockOf byte < 2 ^ 32 := by
    rw [sound.ba2addr_eq] at inside
    have low : byte / ld.erasesize < sys.state.ni.dataBlockCount :=
      (Nat.div_lt_iff_lt_mul sound.erasesize_pos).mpr inside
    exact ⟨sound.addr2ba_eq (by omega), low.trans capacity⟩
  have sum : addU64 addr size = addr + size := Nat.mod_eq_of_lt (by omega)
  unfold eraseBlockRange
  refine .getNi_bind (.ite (fun refused => ?_) fun _ => .ite (fun high => ?_) fun _ => ?_)
  · rw [unprotected, writable] at refused
    exact absurd refused (by decide)
  · exact absurd high (by omega)
  refine .ite (fun large => absurd large (by omega)) fun _ => .ite (fun empty => ?_) fun some => ?_
  · refine .pure ⟨0, 0, fun lb => ?_, .complete rfl (.none 0 _), fun _ _ => rfl⟩
    refine iff_of_false (fun between => absurd between.2 (Nat.not_lt_zero lb)) ?_
    rintro ⟨byte, low, high, _⟩
    omega
  · have last : addU64 addr (size - 1) = addr + size - 1 := by
      rw [addU64, Nat.mod_eq_of_lt (by omega)]
      omega
    rw [last]
    dsimp only
    rw [(block addr starts).1, (block (addr + size - 1) (by omega)).1]
    have order : ld.blockOf addr ≤ ld.blockOf (addr + size - 1) :=
      Nat.div_le_div_right (by omega)
    have stop : ld.blockOf addr + (ld.blockOf (addr + size - 1) + 1 - ld.blockOf addr) =
        ld.blockOf (addr + size - 1) + 1 := by omega
    have remaps := remaps_eraseBlocksFrom_between sound (ld.blockOf addr)
      (ld.blockOf (addr + size - 1) + 1 - ld.blockOf addr)
    refine ((eraseBlocksFrom_outcome sound (.refl sys.state)).both (remaps.ensures _)).mono
      fun result after both => ⟨_, _, fun lb => ?_, both.1, fun lb outside => ?_⟩
    · rw [stop, overlaps_iff sound (by omega), Between, Nat.lt_succ_iff]
    · refine both.2.mapping lb fun between => outside ?_
      rw [stop] at between
      exact (overlaps_iff sound (by omega) lb).mpr ⟨between.1, Nat.le_of_lt_succ between.2⟩

end Contract

theorem eraseBlockRange_contract_created : ∃ sys,
    run (faultyChip 9 []) [.attach creating 40] (initialSys (faultyChip 9 []) (erasedFlash [0])) =
        some sys ∧
      ∃ first stop, EraseOutcome (faultyChip 9 []) sys.state first stop sys.state
        (eraseBlockRange (faultyChip 9 []) 100 300 sys.state).1
        (eraseBlockRange (faultyChip 9 []) 100 300 sys.state).2 := by
  obtain ⟨sys, is, attached, unprotected, writable, capacity⟩ : ∃ sys,
      run (faultyChip 9 []) [.attach creating 40] (initialSys (faultyChip 9 []) (erasedFlash [0])) =
          some sys ∧
        sys.isAttached = true ∧ sys.state.ni.isProtected = false ∧
          sys.state.ni.flags.readOnly = false ∧
            400 ≤ (faultyChip 9 []).ba2addr sys.state.ni.dataBlockCount :=
    exists_of_any (by decide +kernel)
  obtain ⟨first, stop, _, outcome, _⟩ := eraseBlockRange_contract (smallChip_sound _ (by decide)) is
    attached unprotected writable (lt_of_lt_of_le (by decide : 100 < 400) capacity)
    (show 100 + 300 ≤ _ from capacity)
  exact ⟨sys, is, first, stop, outcome⟩

/-- A chip with a signature in its last block and an info table in block 8 that gives block 0 a
state which the driver does not know. -/
def strangeFlash : Flash :=
  let image := infoTableImage (faultyChip 9 [])
    ⟨⟨NMBM_MAGIC_INFO_TABLE, NMBM_VER, 192, 0⟩, 1, 64, 128, 0⟩
    (fun _ => 0xfffffffd) fun lb => if lb < 7 then mapped lb else unmappedEntry
  ⟨fun page =>
    if page / 4 = 8 then ⟨(image.drop (page % 4 * 64)).take 64, fill 16 0xff⟩
    else if page / 4 = 15 then ⟨(newSignature (faultyChip 9 []) 7).bytes, fill 16 0xff⟩
    else ⟨fill 64 0xff, fill 16 0xff⟩, fun _ => false⟩

/-- Logical block 0 is erased although its block is not recorded as good.  A driver attached
read-only refuses the request without a failed address. -/
theorem eraseBlockRange_notGood :
    (∃ sys, run (faultyChip 9 []) [.attach ⟨false, false, false⟩ 40]
        (initialSys (faultyChip 9 []) strangeFlash) = some sys ∧
      sys.isAttached = true ∧ sys.state.ni.isProtected = false ∧
      256 ≤ (faultyChip 9 []).ba2addr sys.state.ni.dataBlockCount ∧
      (eraseBlockRange (faultyChip 9 []) 0 256 sys.state).1 = (0, none) ∧
      (eraseBlockRange (faultyChip 9 []) 0 256 sys.state).2.ni.blockMapping 0 = 0 ∧
      (eraseBlockRange (faultyChip 9 []) 0 256 sys.state).2.ni.getBlockState 0 ≠ BLOCK_ST_GOOD) ∧
    ∃ sys, run (faultyChip 9 []) [.attach ⟨false, false, true⟩ 40]
        (initialSys (faultyChip 9 []) strangeFlash) = some sys ∧
      sys.isAttached = true ∧ sys.state.ni.isProtected = false ∧
      256 ≤ (faultyChip 9 []).ba2addr sys.state.ni.dataBlockCount ∧
      (eraseBlockRange (faultyChip 9 []) 0 256 sys.state).1 = (-EROFS, none) :=
  ⟨exists_of_any (by decide +kernel), exists_of_any (by decide +kernel)⟩

end MetaFilogic.Nmbm
