import MetaFilogic.Nmbm.Session

/-!
# Requests on a writable session

Erasing, writing and marking logical blocks.  `Remaps` is what every such request
leaves alone whatever state it is made in: the capacity, the flags and the mapping
of all other logical blocks.  On a session a request leads to a session again, as
long as every spare block is taken at `mapping_blocks_top_ba` itself.
-/

namespace MetaFilogic.Nmbm

open Bytes

/-- Between the two states at most the logical blocks of a set were remapped. -/
structure Remaps (changes : Nat → Prop) (before after : State) : Prop where
  grows : Grows before after
  capacity : after.ni.dataBlockCount = before.ni.dataBlockCount
  flags : after.ni.flags = before.ni.flags
  signature : after.ni.signature = before.ni.signature
  mapping : ∀ lb, ¬changes lb → after.ni.blockMapping lb = before.ni.blockMapping lb

namespace Remaps

variable {changes : Nat → Prop} {before middle after : State}

theorem refl (state : State) : Remaps changes state state :=
  ⟨.refl state, rfl, rfl, rfl, fun _ _ => rfl⟩

theorem trans (first : Remaps changes before middle) (second : Remaps changes middle after) :
    Remaps changes before after where
  grows := first.grows.trans second.grows
  capacity := second.capacity.trans first.capacity
  flags := second.flags.trans first.flags
  signature := second.signature.trans first.signature
  mapping lb other := (second.mapping lb other).trans (first.mapping lb other)

theorem mono {wider : Nat → Prop} (remaps : Remaps changes before after)
    (included : ∀ lb, changes lb → wider lb) : Remaps wider before after :=
  ⟨remaps.grows, remaps.capacity, remaps.flags, remaps.signature,
    fun lb other => remaps.mapping lb fun inside => other (included lb inside)⟩

end Remaps

instance (changes : Nat → Prop) : IsPreorder State (Remaps changes) where
  refl := .refl
  trans _ _ _ := .trans

section Remaps

variable {changes : Nat → Prop}

theorem Confined.remaps {ld : LowerDevice} {region : Nat → Prop} {before after : State}
    (confined : Confined ld region before after) : Remaps changes before after :=
  ⟨confined.grows, confined.dataBlockCount, confined.flags, confined.signature,
    fun _ _ => congrFun confined.mapping _⟩

theorem remaps_of_touches (ld : LowerDevice) {α : Type} {program : NmbmM α}
    (touches : Preserves (Touches ld Anywhere) program) : Preserves (Remaps changes) program :=
  fun state => (touches state).remaps

theorem remaps_getNi : Preserves (Remaps changes) getNi := Remaps.refl

theorem remaps_note (event : Event) : Preserves (Remaps changes) (note event) :=
  fun _ => ⟨⟨[event], rfl⟩, rfl, rfl, rfl, fun _ _ => rfl⟩

theorem remaps_moveBind {α : Type} {update : Instance → Instance} {next : Unit → NmbmM α}
    (capacity : ∀ ni, (update ni).dataBlockCount = ni.dataBlockCount)
    (flags : ∀ ni, (update ni).flags = ni.flags)
    (signature : ∀ ni, (update ni).signature = ni.signature)
    (mapping : ∀ ni lb, ¬changes lb → (update ni).blockMapping lb = ni.blockMapping lb)
    (rest : Preserves (Remaps changes) (next ())) :
    Preserves (Remaps changes) (modifyNi update >>= next) :=
  Preserves.bind (fun state => ⟨⟨[], rfl⟩, capacity state.ni, flags state.ni,
    signature state.ni, mapping state.ni⟩) fun _ => rest

theorem remaps_setBlockState (ba : Nat) (state : BitVec 32) :
    Preserves (Remaps changes) (setBlockState ba state) :=
  fun _ => ⟨⟨[], rfl⟩, rfl, rfl, rfl, fun _ _ => rfl⟩

end Remaps

section Frame

variable {ld : LowerDevice} (sound : ld.Sound) {changes : Nat → Prop}

include sound

theorem remaps_updateInfoTable : Preserves (Remaps changes) (updateInfoTable ld) :=
  preserves_updateInfoTable sound (fun _ _ confined => confined.remaps)
    fun _ => ⟨⟨[], rfl⟩, rfl, rfl, rfl, fun _ _ => rfl⟩

theorem remaps_mapBlock (lb : Nat) : Preserves (Remaps (· = lb)) (mapBlock ld lb) := by
  unfold mapBlock
  refine remaps_getNi.bind fun ni => .ite (fun _ => .pure _) fun _ => ?_
  split
  · refine (remaps_updateInfoTable sound).bind fun _ => ?_
    exact remaps_moveBind (fun _ => rfl) (fun _ => rfl) (fun _ => rfl) (fun _ _ _ => rfl) (.pure _)
  · refine (remaps_note _).bind fun _ => ?_
    exact remaps_moveBind (fun _ => rfl) (fun _ => rfl) (fun _ => rfl)
      (fun _ _ other => if_neg other) (.pure _)

theorem remaps_giveUpLogicBlock (blockAddr pb : Nat) :
    Preserves (Remaps (· = blockAddr)) (giveUpLogicBlock ld blockAddr pb) := by
  have rest : Preserves (Remaps (· = blockAddr)) (do
      let ni ← getNi
      note (.unmapped (ni.blockStateChanged ≠ 0 ∨ ni.blockMappingChanged ≠ 0))
      let _ ← updateInfoTable ld
      return ()) :=
    remaps_getNi.bind fun ni => (remaps_note _).bind fun _ =>
      (remaps_updateInfoTable sound).bind fun _ => .pure _
  unfold giveUpLogicBlock
  refine remaps_moveBind (fun _ => rfl) (fun _ => rfl) (fun _ => rfl)
    (fun _ _ other => if_neg other) (remaps_getNi.bind fun ni => ?_)
  exact .ite (fun _ => (remaps_setBlockState _ _).bind fun _ => rest) fun _ => rest

theorem remaps_eraseMappedBlock (pb : Nat) :
    Preserves (Remaps changes) (eraseMappedBlock ld pb) := by
  unfold eraseMappedBlock
  refine remaps_getNi.bind fun ni => .ite (fun _ => .pure _) fun _ => ?_
  refine (remaps_of_touches ld (touches_checkBadPhysBlock pb)).bind fun bad => ?_
  refine .ite (fun _ => (remaps_setBlockState _ _).bind fun _ => .pure _) fun _ => ?_
  refine (remaps_of_touches ld (touches_eraseBlockAndCheck sound trivial)).bind fun erased => ?_
  refine .ite (fun _ => .pure _) fun _ => ?_
  exact (remaps_of_touches ld (touches_retireBlock sound trivial)).bind fun _ => .pure _

theorem remaps_eraseLogicBlockLoop (blockAddr rounds : Nat) :
    Preserves (Remaps (· = blockAddr)) (eraseLogicBlockLoop ld blockAddr rounds) := by
  induction rounds with
  | zero => exact .pure _
  | succ rounds ih =>
    have rest : Preserves (Remaps (· = blockAddr)) (do
        let _ ← updateInfoTable ld
        eraseLogicBlockLoop ld blockAddr rounds) :=
      (remaps_updateInfoTable sound).bind fun _ => ih
    unfold eraseLogicBlockLoop
    refine remaps_getNi.bind fun ni => .ite (fun _ => .pure _) fun _ => ?_
    refine (remaps_eraseMappedBlock sound _).bind fun erased => .ite (fun _ => .pure _) fun _ => ?_
    refine (remaps_mapBlock sound _).bind fun mapped => .ite (fun _ => ?_) fun _ => ?_
    · refine remaps_getNi.bind fun ni => ?_
      exact .ite (fun _ => (remaps_setBlockState _ _).bind fun _ => rest) fun _ => rest
    · exact (remaps_giveUpLogicBlock sound _ _).bind fun _ => .pure _

theorem remaps_eraseLogicBlock (blockAddr : Nat) :
    Preserves (Remaps (· = blockAddr)) (eraseLogicBlock ld blockAddr) :=
  remaps_getNi.bind fun _ => remaps_eraseLogicBlockLoop sound _ _

theorem remaps_eraseBlocksFrom (startBa blocks : Nat) :
    Preserves (Remaps fun lb => startBa ≤ lb) (eraseBlocksFrom ld startBa blocks) := by
  induction blocks generalizing startBa with
  | zero => exact .pure _
  | succ blocks ih =>
    unfold eraseBlocksFrom
    refine ((remaps_eraseLogicBlock sound startBa).mono fun _ _ remaps =>
      remaps.mono fun lb same => same.ge).bind fun ret => .ite (fun _ => .pure _) fun _ => ?_
    exact (ih (startBa + 1)).mono fun _ _ remaps => remaps.mono fun lb above => by omega

theorem remaps_writeThroughMapping {addr : Nat} {write : Nat → NmbmM Bool}
    (writes : ∀ paddr, Preserves (Remaps changes) (write paddr)) :
    Preserves (Remaps changes) (writeThroughMapping ld addr write) := by
  unfold writeThroughMapping
  refine remaps_getNi.bind fun ni => .ite (fun _ => .pure _) fun _ => .ite (fun _ => .pure _) fun _ => ?_
  refine (writes _).bind fun success => .ite (fun _ => .pure _) fun _ => ?_
  exact (remaps_setBlockState _ _).bind fun _ =>
    (remaps_updateInfoTable sound).bind fun _ => .pure _

theorem remaps_writeLogicPage (addr : Nat) (data oob : Option (List Byte)) (mode : OobMode) :
    Preserves (Remaps changes) (writeLogicPage ld addr data oob mode) :=
  remaps_writeThroughMapping sound fun _ =>
    remaps_of_touches ld (touches_writePhysPage sound trivial _ _ _)

theorem remaps_panicWriteLogicPage (addr : Nat) (data : Option (List Byte)) :
    Preserves (Remaps changes) (panicWriteLogicPage ld addr data) :=
  .ite (fun _ => .pure _) fun _ => remaps_writeThroughMapping sound fun _ =>
    remaps_of_touches ld (touches_panicWritePhysPage sound trivial _)

theorem remaps_writeRangeLoop (mode : OobMode) (rounds off : Nat) (ptr : List Byte) :
    Preserves (Remaps changes) (writeRangeLoop ld mode rounds off ptr) := by
  induction rounds generalizing off ptr with
  | zero => exact .pure _
  | succ rounds ih =>
    have rest (page : Instance → List Byte) : Preserves (Remaps changes) (do
        let ni ← getNi
        let ret ← writeLogicPage ld (off - (off &&& ld.writesizeMask)) (some (page ni)) none mode
        if ret ≠ 0 then
          return (ret, ptr.length)
        else
          writeRangeLoop ld mode rounds
            (off + min (ld.writesize - (off &&& ld.writesizeMask)) ptr.length)
            (ptr.drop (min (ld.writesize - (off &&& ld.writesizeMask)) ptr.length))) :=
      remaps_getNi.bind fun ni => (remaps_writeLogicPage sound _ _ _ _).bind fun ret =>
        .ite (fun _ => .pure _) fun _ => ih _ _
    unfold writeRangeLoop
    refine .ite (fun _ => .pure _) fun _ => .ite (fun _ => ?_) fun _ => rest _
    exact remaps_moveBind (fun _ => rfl) (fun _ => rfl) (fun _ => rfl) (fun _ _ _ => rfl) (rest _)

theorem remaps_eraseBlockRange (addr size : Nat) :
    Preserves (Remaps fun _ => True) (eraseBlockRange ld addr size) := by
  unfold eraseBlockRange
  refine remaps_getNi.bind fun ni => .ite (fun _ => .pure _) fun _ => .ite (fun _ => .pure _) fun _ => ?_
  refine .ite (fun _ => .pure _) fun _ => .ite (fun _ => .pure _) fun _ => ?_
  exact (remaps_eraseBlocksFrom sound _ _).mono fun _ _ remaps => remaps.mono fun _ _ => trivial

theorem remaps_writeSinglePage (addr : Nat) (data oob : Option (List Byte)) (mode : OobMode) :
    Preserves (Remaps changes) (writeSinglePage ld addr data oob mode) := by
  unfold writeSinglePage
  refine remaps_getNi.bind fun ni => .ite (fun _ => .pure _) fun _ => .ite (fun _ => .pure _) fun _ => ?_
  exact remaps_writeLogicPage sound _ _ _ _

theorem remaps_panicWriteSinglePage (addr : Nat) (data : Option (List Byte)) :
    Preserves (Remaps changes) (panicWriteSinglePage ld addr data) := by
  unfold panicWriteSinglePage
  refine remaps_getNi.bind fun ni => .ite (fun _ => .pure _) fun _ => .ite (fun _ => .pure _) fun _ => ?_
  exact remaps_panicWriteLogicPage sound _ _

theorem remaps_writeRange (addr : Nat) (data : List Byte) (mode : OobMode) :
    Preserves (Remaps changes) (writeRange ld addr data mode) := by
  unfold writeRange
  refine remaps_getNi.bind fun ni => .ite (fun _ => .pure _) fun _ => .ite (fun _ => .pure _) fun _ => ?_
  refine .ite (fun _ => .pure _) fun _ => .ite (fun _ => .pure _) fun _ => ?_
  exact (remaps_writeRangeLoop sound _ _ _ _).bind fun _ => .pure _

theorem remaps_markBadBlock (addr : Nat) :
    Preserves (Remaps (· = ld.addr2ba addr)) (markBadBlock ld addr) := by
  unfold markBadBlock
  refine remaps_getNi.bind fun ni => .ite (fun _ => .pure _) fun _ => .ite (fun _ => .pure _) fun _ => ?_
  refine .ite (fun _ => .pure _) fun _ => ?_
  refine remaps_moveBind (fun _ => rfl) (fun _ => rfl) (fun _ => rfl)
    (fun _ _ other => if_neg other) ?_
  refine (remaps_of_touches ld (touches_retireBlock sound trivial)).bind fun _ => ?_
  refine remaps_getNi.bind fun ni => (remaps_note _).bind fun _ => ?_
  exact (remaps_updateInfoTable sound).bind fun _ => .pure _

theorem remaps_detach : Preserves (Remaps changes) (detach ld) := by
  unfold detach
  refine remaps_getNi.bind fun ni => .ite (fun _ => ?_) fun _ => .pure _
  exact (remaps_updateInfoTable sound).bind fun _ => .pure _

end Frame

/-! ## Sessions -/

section Session

variable {ld : LowerDevice} (sound : ld.Sound) {capacity : Nat} {state : State}

include sound

theorem updateInfoTable_session (session : Session ld capacity state) :
    Ensures (updateInfoTable ld) state fun _ after => Session ld capacity after :=
  (updateInfoTable_spec sound session.layout session.placed).mono
    fun _ _ updated => session.updated updated

/-- `nmbm_map_block` gives the logical block the block at `mapping_blocks_top_ba`, if
this is a good one. -/
theorem mapBlock_session {lb : Nat} (session : Session ld capacity state) (next : lb ≤ capacity)
    (logical : lb < ld.mgmtStart) :
    Ensures (mapBlock ld lb) state fun success after => Faithful ld after.trace →
      Session ld (if success then max capacity (lb + 1) else capacity) after := by
  have upper := session.layout.upper
  unfold mapBlock
  refine .getNi_bind (.ite (fun full => .pure fun _ => session) fun some => ?_)
  split
  · refine (updateInfoTable_session sound session).bind fun _ middle updated => ?_
    exact .modifyNi_bind (.pure fun _ => updated.closed)
  · rename_i pb walked
    refine .note_bind (.modifyNi_bind (.pure fun faithful => ?_))
    have usable : state.ni.getBlockState state.ni.mappingBlocksTopBa = BLOCK_ST_GOOD :=
      faithful.1
    -- The walk stops at its first good block, and that is where it starts
    obtain ⟨below, _, _, _, first⟩ := blockWalkDescLoop_spec walked (by omega)
    have atTop : pb = state.ni.mappingBlocksTopBa := by
      by_contra skipped
      exact first (by simp) _ (by omega) le_rfl usable
    rw [atTop]
    exact session.assigned sound next logical (by omega) trivial

theorem giveUpLogicBlock_session (session : Session ld capacity state) (blockAddr pb : Nat) :
    Ensures (giveUpLogicBlock ld blockAddr pb) state fun _ after =>
      Session ld capacity after := by
  have rest {middle : State} (arranged : Arranged ld capacity middle) :
      Ensures (do
        let ni ← getNi
        note (.unmapped (ni.blockStateChanged ≠ 0 ∨ ni.blockMappingChanged ≠ 0))
        let _ ← updateInfoTable ld
        return ()) middle fun _ after => Session ld capacity after :=
    .getNi_bind (.note_bind ((updateInfoTable_session sound arranged.noted).bind
      fun _ _ updated => .pure updated))
  have unmapped := session.toArranged.unmap blockAddr
  unfold giveUpLogicBlock
  refine .modifyNi_bind (.getNi_bind (.ite (fun _ => ?_) fun _ => rest unmapped))
  exact .modifyNi_bind (rest (unmapped.recorded sound pb BLOCK_ST_BAD))

theorem touches_eraseMappedBlock {region : Nat → Prop} {pb : Nat} (inside : region pb) :
    Preserves (Touches ld region) (eraseMappedBlock ld pb) := by
  unfold eraseMappedBlock
  refine touches_getNi.bind fun ni => .ite (fun _ => .pure _) fun _ => ?_
  refine (touches_checkBadPhysBlock _).bind fun bad => .ite (fun _ => ?_) fun _ => ?_
  · exact (touches_recordBad inside).bind fun _ => .pure _
  · refine (touches_eraseBlockAndCheck sound inside).bind fun erased => ?_
    refine .ite (fun _ => .pure _) fun _ => ?_
    exact (touches_retireBlock sound inside).bind fun _ => .pure _

theorem eraseMappedBlock_session {lb : Nat} (session : Session ld capacity state)
    (inside : lb < ld.blockCount) (is : ¬isUnmapped (state.ni.blockMapping lb)) :
    Ensures (eraseMappedBlock ld (state.ni.blockMapping lb).toNat) state fun _ after =>
      Session ld capacity after := by
  have touches : Preserves (Touches ld (Eq (state.ni.blockMapping lb).toNat))
      (eraseMappedBlock ld (state.ni.blockMapping lb).toNat) := touches_eraseMappedBlock sound rfl
  exact session.touchedMapped sound inside is (touches state)

theorem eraseLogicBlockLoop_session {blockAddr rounds : Nat} (session : Session ld capacity state)
    (logical : blockAddr < capacity) :
    Ensures (eraseLogicBlockLoop ld blockAddr rounds) state fun _ after =>
      Faithful ld after.trace → Session ld capacity after := by
  have fits := session.mapping.fits
  have blocks := sound.mgmtStart_le
  induction rounds generalizing state with
  | zero => exact .pure fun _ => session
  | succ rounds ih =>
    unfold eraseLogicBlockLoop
    refine .getNi_bind (.ite (fun _ => .pure fun _ => session) fun is => ?_)
    refine (eraseMappedBlock_session sound session (by omega) is).bind
      fun erased failed failedSession => .ite (fun _ => .pure fun _ => failedSession) fun _ => ?_
    refine (mapBlock_session sound failedSession logical.le (by omega)).bind
      fun success mapped mappedSession => ?_
    cases success with
    | true =>
      rw [if_pos rfl] at mappedSession ⊢
      rw [max_eq_left logical] at mappedSession
      -- Update info table before erasing again
      have again (middle : State) (grows : Grows mapped middle)
          (carried : Session ld capacity mapped → Session ld capacity middle) :
          Ensures (do
            let _ ← updateInfoTable ld
            eraseLogicBlockLoop ld blockAddr rounds) middle fun _ after =>
              Faithful ld after.trace → Session ld capacity after := by
        refine ensures_faithful (fun start => (((remaps_updateInfoTable sound).bind fun _ =>
          remaps_eraseLogicBlockLoop sound blockAddr rounds) start).grows) fun faithful => ?_
        have middleSession := carried (mappedSession (grows.faithful faithful))
        exact (updateInfoTable_session sound middleSession).bind
          fun _ updated updatedSession => ih updatedSession
      refine .getNi_bind (.ite (fun _ => ?_) fun _ => again mapped (.refl _) id)
      exact .modifyNi_bind (again _ ⟨[], rfl⟩ fun carried => carried.recorded sound _ _)
    | false =>
      rw [if_neg (by simp)] at mappedSession ⊢
      refine ensures_faithful (fun start => (((remaps_giveUpLogicBlock sound blockAddr _).bind
        fun _ => .pure _) start).grows) fun faithful => ?_
      exact (giveUpLogicBlock_session sound (mappedSession faithful) _ _).bind
        fun _ after session => .pure fun _ => session

theorem eraseLogicBlock_session {blockAddr : Nat} (session : Session ld capacity state)
    (within : blockAddr ≤ capacity) :
    Ensures (eraseLogicBlock ld blockAddr) state fun ret after =>
      (ret = 0 → blockAddr < capacity) ∧
        (Faithful ld after.trace → Session ld capacity after) := by
  unfold eraseLogicBlock
  refine .getNi_bind ?_
  by_cases logical : blockAddr < capacity
  · exact (eraseLogicBlockLoop_session sound session logical).mono
      fun _ _ done => ⟨fun _ => logical, done⟩
  · have unmapped := session.mapping.beyond blockAddr (by omega)
      (by have := session.bound; omega)
    unfold eraseLogicBlockLoop
    refine .getNi_bind (.ite (fun _ => .pure ⟨fun success => ?_, fun _ => session⟩) fun is => ?_)
    · exact absurd success (by decide)
    · exact absurd unmapped is

theorem eraseBlocksFrom_session {startBa blocks : Nat} (session : Session ld capacity state)
    (within : startBa ≤ capacity) :
    Ensures (eraseBlocksFrom ld startBa blocks) state fun _ after =>
      Faithful ld after.trace → Session ld capacity after := by
  induction blocks generalizing startBa state with
  | zero => exact .pure fun _ => session
  | succ blocks ih =>
    unfold eraseBlocksFrom
    refine (eraseLogicBlock_session sound session within).bind fun ret middle erased => ?_
    refine .ite (fun _ => .pure erased.2) fun success => ?_
    have next := erased.1 (not_not.mp success)
    exact ensures_faithful
      (fun start => (remaps_eraseBlocksFrom sound _ _ start).grows)
      fun faithful => ih (erased.2 faithful) next

theorem eraseBlockRange_session (session : Session ld state.ni.dataBlockCount state)
    (addr size : Nat) :
    Ensures (eraseBlockRange ld addr size) state fun _ after =>
      Faithful ld after.trace → Session ld state.ni.dataBlockCount after := by
  have bound := session.bound
  have blocks := sound.blockCount_lt
  unfold eraseBlockRange
  refine .getNi_bind (.ite (fun _ => .pure fun _ => session) fun _ => ?_)
  refine .ite (fun _ => .pure fun _ => session) fun low => ?_
  refine .ite (fun _ => .pure fun _ => session) fun _ => ?_
  refine .ite (fun _ => .pure fun _ => session) fun _ => ?_
  have within : addr / ld.erasesize < state.ni.dataBlockCount := sound.blockOf_lt low
  refine eraseBlocksFrom_session sound session ?_
  rw [sound.addr2ba_eq (by omega)]
  exact within.le

theorem writeThroughMapping_session {addr : Nat} {write : Nat → NmbmM Bool}
    (session : Session ld capacity state) (within : ld.blockOf addr ≤ capacity)
    (writes : ∀ paddr, Preserves (Touches ld (Eq (ld.blockOf paddr))) (write paddr)) :
    Ensures (writeThroughMapping ld addr write) state fun ret after =>
      (ret = 0 → ld.blockOf addr < capacity) ∧ Session ld capacity after := by
  have bound := session.bound
  have blocks := sound.blockCount_lt
  have lb : ld.addr2ba addr = ld.blockOf addr :=
    sound.addr2ba_eq (by unfold LowerDevice.blockOf at within; omega)
  have failed (ret : Int) (isError : ret ≠ 0) : ret = 0 → ld.blockOf addr < capacity :=
    fun success => absurd success isError
  unfold writeThroughMapping
  rw [lb]
  refine .getNi_bind (.ite (fun _ => .pure ⟨failed _ (by decide), session⟩) fun is => ?_)
  refine .ite (fun _ => .pure ⟨failed _ (by decide), session⟩) fun _ => ?_
  have logical : ld.blockOf addr < capacity := by
    by_contra beyond
    exact is (session.mapping.beyond _ (by omega) (by omega))
  have physical : ld.blockOf (ld.ba2addr (state.ni.blockMapping (ld.blockOf addr)).toNat +
      (addr &&& ld.erasesizeMask)) = (state.ni.blockMapping (ld.blockOf addr)).toNat := by
    rw [sound.and_erasesizeMask]
    exact sound.blockOf_ba2addr_add (Nat.mod_lt _ sound.erasesize_pos)
  refine ((writes _).ensures state).bind fun success middle touches => ?_
  rw [physical] at touches
  have written := session.touchedMapped sound (by omega) is touches
  refine .ite (fun _ => .pure ⟨fun _ => logical, written⟩) fun _ => ?_
  refine .modifyNi_bind ?_
  exact (updateInfoTable_session sound (written.recorded sound _ _)).bind
    fun _ after session => .pure ⟨failed _ (by decide), session⟩

theorem writeLogicPage_session {addr : Nat} (session : Session ld capacity state)
    (within : ld.blockOf addr ≤ capacity) (data oob : Option (List Byte)) (mode : OobMode) :
    Ensures (writeLogicPage ld addr data oob mode) state fun ret after =>
      (ret = 0 → ld.blockOf addr < capacity) ∧ Session ld capacity after :=
  writeThroughMapping_session sound session within
    fun _ => touches_writePhysPage sound rfl data oob mode

theorem writeSinglePage_session (session : Session ld state.ni.dataBlockCount state) (addr : Nat)
    (data oob : Option (List Byte)) (mode : OobMode) :
    Ensures (writeSinglePage ld addr data oob mode) state fun _ after =>
      Session ld state.ni.dataBlockCount after := by
  unfold writeSinglePage
  refine .getNi_bind (.ite (fun _ => .pure session) fun _ => .ite (fun _ => .pure session) fun low => ?_)
  exact (writeLogicPage_session sound session (sound.blockOf_lt low).le _ _ _).mono
    fun _ _ written => written.2

theorem panicWriteSinglePage_session (session : Session ld state.ni.dataBlockCount state)
    (addr : Nat) (data : Option (List Byte)) :
    Ensures (panicWriteSinglePage ld addr data) state fun _ after =>
      Session ld state.ni.dataBlockCount after := by
  unfold panicWriteSinglePage
  refine .getNi_bind (.ite (fun _ => .pure session) fun _ => .ite (fun _ => .pure session) fun low => ?_)
  refine .ite (fun _ => .pure session) fun _ => ?_
  exact (writeThroughMapping_session sound session (sound.blockOf_lt low).le
    fun _ => touches_panicWritePhysPage sound rfl data).mono fun _ _ written => written.2

/-- The loop never gets past the end of the last logical block. -/
theorem writeRangeLoop_session {mode : OobMode} {rounds off : Nat} {ptr : List Byte}
    (session : Session ld capacity state) (within : off ≤ ld.ba2addr capacity) :
    Ensures (writeRangeLoop ld mode rounds off ptr) state fun _ after =>
      Session ld capacity after := by
  induction rounds generalizing off ptr state with
  | zero => exact .pure session
  | succ rounds ih =>
    have positive := sound.writesize_pos
    have pages := sound.pages_mul
    have size : min (ld.writesize - (off &&& ld.writesizeMask)) ptr.length +
        off % ld.writesize ≤ ld.writesize := by
      have small := Nat.mod_lt off positive
      rw [sound.and_writesizeMask]
      omega
    have page : ld.blockOf (off - (off &&& ld.writesizeMask)) = ld.blockOf off := by
      rw [sound.and_writesizeMask, sound.blockOf_page]
    have block : ld.blockOf off ≤ capacity := by
      rw [sound.ba2addr_eq] at within
      exact Nat.div_le_of_le_mul (Nat.mul_comm _ _ ▸ within)
    -- A chunk ends at the end of its page at the latest
    have next (logical : ld.blockOf off < capacity) :
        off + min (ld.writesize - (off &&& ld.writesizeMask)) ptr.length ≤
          ld.ba2addr capacity := by
      have inPage := Nat.div_add_mod off ld.writesize
      have ofBlock : off / ld.writesize / ld.pagesPerBlock < capacity := by
        rw [← LowerDevice.pageOf, sound.pageOf_div]
        exact logical
      have pageBelow : off / ld.writesize < capacity * ld.pagesPerBlock :=
        (Nat.div_lt_iff_lt_mul sound.pages_pos).mp ofBlock
      have scaled := Nat.mul_le_mul_left ld.writesize (Nat.succ_le_of_lt pageBelow)
      rw [sound.ba2addr_eq, ← pages, ← Nat.mul_assoc, Nat.mul_comm _ ld.writesize]
      rw [Nat.mul_succ] at scaled
      omega
    have rest (page' : Instance → List Byte) {middle : State}
        (middleSession : Session ld capacity middle) : Ensures (do
          let ni ← getNi
          let ret ← writeLogicPage ld (off - (off &&& ld.writesizeMask)) (some (page' ni)) none
            mode
          if ret ≠ 0 then
            return (ret, ptr.length)
          else
            writeRangeLoop ld mode rounds
              (off + min (ld.writesize - (off &&& ld.writesizeMask)) ptr.length)
              (ptr.drop (min (ld.writesize - (off &&& ld.writesizeMask)) ptr.length)))
          middle fun _ after => Session ld capacity after := by
      refine .getNi_bind ?_
      refine (writeLogicPage_session sound middleSession (page ▸ block) _ _ _).bind
        fun ret written done => .ite (fun _ => .pure done.2) fun success => ?_
      have logical := done.1 (not_not.mp success)
      exact ih done.2 (next (page ▸ logical))
    unfold writeRangeLoop
    refine .ite (fun _ => .pure session) fun _ => .ite (fun _ => ?_) fun _ => rest _ session
    refine .modifyNi_bind (rest _ ?_)
    exact session.carry sound rfl le_rfl (fun _ => rfl)
      (show state.flash.AgreesOutside ld (fun _ => False) state.flash from .refl _)
      (fun _ _ => id) ⟨[], rfl, by simp⟩

theorem writeRange_session (session : Session ld state.ni.dataBlockCount state) (addr : Nat)
    (data : List Byte) (mode : OobMode) :
    Ensures (writeRange ld addr data mode) state fun _ after =>
      Session ld state.ni.dataBlockCount after := by
  unfold writeRange
  refine .getNi_bind (.ite (fun _ => .pure session) fun _ => .ite (fun _ => .pure session) fun low => ?_)
  refine .ite (fun _ => .pure session) fun _ => .ite (fun _ => .pure session) fun _ => ?_
  exact (writeRangeLoop_session sound session (by omega)).bind fun _ _ done => .pure done

theorem markBadBlock_session (session : Session ld state.ni.dataBlockCount state) (addr : Nat) :
    Ensures (markBadBlock ld addr) state fun _ after =>
      Session ld state.ni.dataBlockCount after := by
  have bound := session.bound
  have blocks := sound.blockCount_lt
  unfold markBadBlock
  refine .getNi_bind (.ite (fun _ => .pure session) fun _ => .ite (fun _ => .pure session) fun low => ?_)
  have logical := sound.blockOf_lt low
  have lb : ld.addr2ba addr = ld.blockOf addr :=
    sound.addr2ba_eq (by unfold LowerDevice.blockOf at logical; omega)
  rw [lb]
  refine .ite (fun _ => .pure session) fun is => .modifyNi_bind ?_
  have unmapped := session.toArranged.unmap (ld.blockOf addr)
  refine ((touches_retireBlock sound rfl).ensures _).bind fun _ middle touches => ?_
  have retired := unmapped.touched sound touches (session.apart (by omega) is)
  refine .getNi_bind (.note_bind ?_)
  exact (updateInfoTable_session sound retired.noted).bind fun _ _ done => .pure done

theorem detach_session (session : Session ld capacity state) :
    Ensures (detach ld) state fun _ after => Session ld capacity after := by
  unfold detach
  refine .getNi_bind (.ite (fun _ => ?_) fun _ => .pure session)
  exact (updateInfoTable_session sound session).bind fun _ _ done => .pure done

end Session

end MetaFilogic.Nmbm
