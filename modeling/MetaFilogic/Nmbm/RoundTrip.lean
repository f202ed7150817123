import MetaFilogic.Nmbm.Integrity

/-!
# Reading a table back

The writer skips blocks that are or turn out bad and goes on behind them; the
reader looks at as many blocks as a table without gaps takes.  A table that was
just written is read back exactly if none of these blocks was skipped and the
checks of its contents pass.
-/

namespace MetaFilogic.Nmbm

open Bytes

variable {ld : LowerDevice}

/-! ## A device without failures -/

def Calm (ld : LowerDevice) (state : State) : Prop :=
  ∀ clock, state.clock ≤ clock → ld.fault clock = {}

def Marked (ld : LowerDevice) (flash : Flash) (ba : Nat) : Prop :=
  ld.size ≤ ld.ba2addr ba ∨
    if ld.hasIsBadBlock then flash.bad (ld.blockOf (ld.ba2addr ba)) = true
    else get8 (ld.sized (flash.page (ld.pageOf (ld.ba2addr ba)))).oob 0 ≠ 0xff

def Usable (ld : LowerDevice) (state : State) (ba : Nat) : Prop :=
  ¬state.ni.NotGood ba ∧ ¬Marked ld state.flash ba

section Calm

variable {state : State}

variable {after : State} {addr ba : Nat}

theorem Calm.next (calm : Calm ld state) (later : state.clock ≤ after.clock) : Calm ld after :=
  fun clock low => calm clock (later.trans low)

theorem lowerReadPage_calm (calm : Calm ld state) (mode : OobMode) (inside : addr < ld.size) :
    Ensures (lowerReadPage ld addr mode) state fun result after =>
      result = (0, ld.sized (state.flash.page (ld.pageOf addr))) ∧
        after = { state with clock := state.clock + 1 } := by
  have now : ld.fault state.clock = {} := calm _ le_rfl
  unfold lowerReadPage
  refine .nextFault_bind (.get_bind ?_)
  rw [now, if_neg (by decide), if_neg (by omega)]
  exact .pure ⟨rfl, rfl⟩

theorem readPhysPage_calm (calm : Calm ld state) (mode : OobMode) (inside : addr < ld.size) :
    Ensures (readPhysPage ld addr mode) state fun result after =>
      result = (0, ld.sized (state.flash.page (ld.pageOf addr))) ∧ Calm ld after := by
  unfold readPhysPage NMBM_TRY_COUNT readPhysPageTries
  refine (lowerReadPage_calm calm mode inside).bind fun result middle read => ?_
  obtain ⟨rfl, rfl⟩ := read
  exact .ite (fun _ => .pure ⟨rfl, calm.next (Nat.le_succ _)⟩) fun error =>
    absurd (le_refl (0 : Int)) error

theorem readPhysPage_outside (calm : Calm ld state) (mode : OobMode) (outside : ld.size ≤ addr) :
    Ensures (readPhysPage ld addr mode) state fun result after =>
      result.1 = -EINVAL ∧ Calm ld after := by
  have tries (count : Nat) (last : Int × PageData) (state : State) (calm : Calm ld state)
      (failed : count = 0 → last.1 = -EINVAL) :
      Ensures (readPhysPageTries ld addr mode count last) state fun result after =>
        result.1 = -EINVAL ∧ Calm ld after := by
    induction count generalizing last state with
    | zero => exact .pure ⟨failed rfl, calm⟩
    | succ count ih =>
      have reads : Ensures (lowerReadPage ld addr mode) state fun result after =>
          result.1 = -EINVAL ∧ Calm ld after := by
        unfold lowerReadPage
        refine .nextFault_bind (.get_bind ?_)
        rw [calm _ le_rfl, if_neg (by decide), if_pos outside]
        exact .pure ⟨rfl, calm.next (Nat.le_succ _)⟩
      unfold readPhysPageTries
      refine reads.bind fun result middle read => .ite (fun success => ?_) fun _ => ?_
      · rw [read.1] at success
        exact absurd success (by decide)
      · exact ih result middle read.2 fun _ => read.1
  exact tries NMBM_TRY_COUNT _ state calm fun none => absurd none (by decide)

theorem checkBadPhysBlock_calm (calm : Calm ld state) (ba : Nat) :
    Ensures (checkBadPhysBlock ld ba) state fun bad after =>
      (bad = true ↔ Marked ld state.flash ba) ∧ Calm ld after := by
  unfold checkBadPhysBlock
  refine .ite (fun asks => ?_) fun reads => ?_
  · unfold lowerIsBadBlock
    refine .nextFault_bind (.get_bind (.pure ⟨?_, calm.next (Nat.le_succ _)⟩))
    rw [calm _ le_rfl]
    simp [Marked, asks]
  · by_cases outside : ld.size ≤ ld.ba2addr ba
    · refine (readPhysPage_outside calm .raw outside).bind fun result middle read => ?_
      refine .modifyNi_bind (.ite (fun _ => .pure ⟨?_, read.2⟩) fun success => ?_)
      · exact ⟨fun _ => Or.inl outside, fun _ => rfl⟩
      · rw [read.1] at success
        exact absurd (by decide) success
    · refine (readPhysPage_calm calm .raw (by omega)).bind fun result middle read => ?_
      obtain ⟨rfl, later⟩ := read
      refine .modifyNi_bind (.ite (fun error => absurd error.1 (lt_irrefl 0)) fun _ => ?_)
      refine .pure ⟨?_, later⟩
      simp [Marked, reads, outside]

theorem nmbnReadData_calm (sound : ld.Sound) (calm : Calm ld state) {size : Nat}
    (inside : addr + size ≤ ld.size) :
    Ensures (nmbnReadData ld addr size) state fun result after =>
      result = (0, ld.bytesAt state.flash addr size) ∧ Calm ld after := by
  have positive := sound.writesize_pos
  have rounds (count off sizeremain : Nat) (ptr : List Byte) (state : State)
      (calm : Calm ld state) (inside : off + sizeremain ≤ ld.size) :
      Ensures (nmbnReadDataLoop ld count off sizeremain ptr) state fun result after =>
        result.1 = 0 ∧ Calm ld after := by
    induction count generalizing off sizeremain ptr state with
    | zero => exact .pure ⟨rfl, calm⟩
    | succ count ih =>
      unfold nmbnReadDataLoop
      refine .ite (fun _ => .pure ⟨rfl, calm⟩) fun some => ?_
      simp only [sound.and_writesizeMask]
      refine (readPhysPage_calm calm .placeOob (by omega)).bind fun result middle read => ?_
      have success : ¬result.1 < 0 := by simp [read.1]
      have rest (middle : State) (calm : Calm ld middle) :
          Ensures (if result.1 < 0 then
              pure (result.1,
                if min (ld.writesize - off % ld.writesize) sizeremain = ld.writesize then
                  ptr ++ result.2.data
                else ptr)
            else
              nmbnReadDataLoop ld count
                (off + min (ld.writesize - off % ld.writesize) sizeremain)
                (sizeremain - min (ld.writesize - off % ld.writesize) sizeremain)
                (ptr ++ (result.2.data.drop (off % ld.writesize)).take
                  (min (ld.writesize - off % ld.writesize) sizeremain))) middle
            fun result after => result.1 = 0 ∧ Calm ld after :=
        .ite (fun error => absurd error success) fun _ => ih _ _ _ middle calm (by omega)
      exact .ite (fun _ => .modifyNi_bind (rest _ read.2)) fun _ => rest middle read.2
  refine ((rounds size addr size [] state calm inside).both
    (nmbnReadDataLoop_spec sound state le_rfl)).mono fun result after both => ⟨?_, both.1.2⟩
  exact Prod.ext both.1.1 (both.2.2.2 both.1.1).1

/-! ## The window of the reader -/

theorem Touches.getBlockState {before : State} (touches : Touches ld (fun _ => False) before after)
    (ba : Nat) : after.ni.getBlockState ba = before.ni.getBlockState ba :=
  (touches.states ba).resolve_right fun inside => inside.1

theorem Usable.congr {before : State} (usable : Usable ld before ba)
    (states : ∀ block, after.ni.getBlockState block = before.ni.getBlockState block)
    (flash : after.flash = before.flash) : Usable ld after ba := by
  rw [Usable, Instance.NotGood, states, flash]
  exact usable

theorem Usable.inside (sound : ld.Sound) (usable : Usable ld state ba) : ba < ld.blockCount := by
  by_contra high
  refine usable.2 (Or.inl ?_)
  by_contra low
  exact high ((sound.ba2addr_lt_size_iff sound.erasesize_pos).mp (by omega))

/-- On a calm device the round of a block that can be used adds what is on flash. -/
theorem tryLoadLoop_calmRound (sound : ld.Sound) (calm : Calm ld state) {blocks off : Nat}
    {startBa : Option Nat} {post : Option (Nat × Nat × Nat) → State → Prop}
    (full : ld.infoTableSize ≤ off → post (some (startBa.getD 0, ba, off)) state)
    (skipping : ¬Usable ld state ba → ∀ middle, Scanned state middle →
      Ensures (tryLoadLoop ld blocks (ba + 1) off startBa) middle post)
    (refused : startBa = none → ∀ after cache, after.ni.infoTableCache = cache →
      cache = patch state.ni.infoTableCache off (ld.bytesAt state.flash (ld.ba2addr ba)
        (min (ld.infoTableSize - off) ld.erasesize)) →
      checkInfoTableHeader ld (cache.drop off) = false → post none after)
    (reading : ∀ size after, min (ld.infoTableSize - off) ld.erasesize = size →
      Usable ld state ba → Calm ld after →
      (∀ block, after.ni.getBlockState block = state.ni.getBlockState block) →
      after.flash = state.flash →
      after.ni.infoTableCache =
        patch state.ni.infoTableCache off (ld.bytesAt state.flash (ld.ba2addr ba) size) →
      Ensures (tryLoadLoop ld blocks (ba + 1) (off + size) (some (startBa.getD ba))) after post) :
    Ensures (tryLoadLoop ld (blocks + 1) ba off startBa) state post := by
  have checks : Preserves (Touches ld fun _ => False) (checkBadPhysBlock ld ba) :=
    touches_checkBadPhysBlock ba
  unfold tryLoadLoop
  refine .ite (fun all => .pure (full all)) fun some => ?_
  refine .getNi_bind (.ite (fun bad => skipping (fun usable => absurd bad usable.1) state (.refl _))
    fun good => ?_)
  refine ((checkBadPhysBlock_calm calm ba).both (checks.ensures state)).bind
    fun bad checked both => ?_
  obtain ⟨⟨marked, checkedCalm⟩, touches⟩ := both
  refine .ite (fun bad => ?_) fun unmarked => ?_
  · exact ((scanned_recordBad ba).ensures checked).bind fun _ recorded scanned =>
      skipping (fun usable => usable.2 (marked.mp bad)) recorded
        ((Scanned.ofTouches touches).trans scanned)
  have here : Usable ld state ba := ⟨good, fun is => unmarked (marked.mpr is)⟩
  dsimp only
  generalize sizeEq : min (ld.infoTableSize - off) ld.erasesize = size at *
  have chip : ld.ba2addr ba + size ≤ ld.size := by
    have last : ld.ba2addr ba + (ld.erasesize - 1) < ld.size :=
      (sound.ba2addr_lt_size_iff (by have := sound.erasesize_pos; omega)).mpr (here.inside sound)
    omega
  have reads : Preserves (Touches ld fun _ => False)
      (nmbnReadData ld (ld.ba2addr ba) size) := touches_nmbnReadData _ _
  refine ((nmbnReadData_calm sound checkedCalm chip).both (reads.ensures checked)).bind
    fun result read both => ?_
  obtain ⟨⟨rfl, readCalm⟩, readTouches⟩ := both
  have flash : checked.flash = state.flash := touches.flash.eq
  have cache : patch read.ni.infoTableCache off (ld.bytesAt checked.flash (ld.ba2addr ba) size) =
      patch state.ni.infoTableCache off (ld.bytesAt state.flash (ld.ba2addr ba) size) := by
    rw [readTouches.cache, touches.cache, flash]
  refine .modifyNi_bind (.ite (fun error => absurd error (lt_irrefl 0)) fun _ =>
    .ite (fun error => absurd error (lt_irrefl 0)) fun _ => .getNi_bind ?_)
  refine .ite (fun unchecked => .pure ?_) fun _ => ?_
  · exact refused (by simpa using unchecked.1) _ _ rfl cache (by simpa using unchecked.2)
  · exact reading size _ rfl here readCalm
      (fun block => (readTouches.getBlockState block).trans (touches.getBlockState block))
      (readTouches.flash.eq.trans flash) cache

theorem tryLoadLoop_calm (sound : ld.Sound) (calm : Calm ld state) {blocks off : Nat}
    {startBa : Option Nat}
    (usable : ∀ block, Between ba (ba + blocks) block → Usable ld state block)
    (within : off ≤ ld.infoTableSize) (enough : ld.infoTableSize ≤ off + blocks * ld.erasesize)
    (header : startBa = none → off = 0 ∧ checkInfoTableHeader ld (patch state.ni.infoTableCache 0
      (ld.bytesAt state.flash (ld.ba2addr ba) (min ld.infoTableSize ld.erasesize))) = true) :
    Ensures (tryLoadLoop ld blocks ba off startBa) state fun result after =>
      (∃ start stop read, result = some (start, stop, read) ∧ ld.infoTableSize ≤ read) ∧
        ∀ block, after.ni.getBlockState block = state.ni.getBlockState block := by
  induction blocks generalizing ba off startBa state with
  | zero => exact .pure ⟨⟨_, _, _, rfl, by omega⟩, fun _ => rfl⟩
  | succ blocks ih =>
    have next : (blocks + 1) * ld.erasesize = blocks * ld.erasesize + ld.erasesize :=
      Nat.succ_mul _ _
    have here := usable ba ⟨le_rfl, by omega⟩
    refine tryLoadLoop_calmRound sound calm (fun full => ⟨⟨_, _, _, rfl, full⟩, fun _ => rfl⟩)
      (fun not => absurd here not) (fun none after cache _ same unchecked => ?_)
      fun size rest sizeEq _ restCalm restStates restFlash _ => ?_
    · obtain ⟨rfl, accepted⟩ := header none
      rw [same, List.drop_zero, Nat.sub_zero, accepted] at unchecked
      cases unchecked
    · have restUsable (block : Nat) (between : Between (ba + 1) (ba + 1 + blocks) block) :
          Usable ld rest block :=
        (usable block ⟨by have := between.1; omega, by have := between.2; omega⟩).congr
          restStates restFlash
      refine (ih restCalm restUsable (by omega) (by omega) fun none => by simp at none).mono
        fun result after done => ⟨done.1, fun block => ?_⟩
      rw [done.2, restStates]

theorem tryLoadLoop_gap (sound : ld.Sound) (calm : Calm ld state) {blocks off : Nat}
    {startBa : Option Nat} (length : state.ni.infoTableCache.length = ld.infoTableSize)
    (within : off ≤ ld.infoTableSize)
    (tight : off + blocks * ld.erasesize < ld.infoTableSize + ld.erasesize)
    (gap : ∃ block, Between ba (ba + blocks) block ∧ ¬Usable ld state block) :
    Ensures (tryLoadLoop ld blocks ba off startBa) state fun result _ =>
      ∀ start stop read, result = some (start, stop, read) → read < ld.infoTableSize := by
  induction blocks generalizing ba off startBa state with
  | zero =>
    obtain ⟨block, between, _⟩ := gap
    have := between.1
    have := between.2
    omega
  | succ blocks ih =>
    have next : (blocks + 1) * ld.erasesize = blocks * ld.erasesize + ld.erasesize :=
      Nat.succ_mul _ _
    refine tryLoadLoop_calmRound sound calm (fun full => ?_) (fun _ middle scanned => ?_)
      (fun _ _ _ _ _ _ => nofun) fun size rest sizeEq here restCalm restStates restFlash cache => ?_
    · exact absurd tight (by have := sound.erasesize_pos; omega)
    · -- A block that is skipped leaves too few, wherever the gap is
      refine (tryLoadLoop_spec sound (scanned.length.trans length) within).mono
        fun result after spec start stop read found => ?_
      have bound := (spec.2 start stop read found).1
      omega
    have restLength : rest.ni.infoTableCache.length = ld.infoTableSize := by
      rw [cache, patch_length (by rw [bytesAt_length, length]; omega), length]
    obtain ⟨block, between, unusable⟩ := gap
    have distinct : block ≠ ba := fun same => unusable (same ▸ here)
    have later : Between (ba + 1) (ba + 1 + blocks) block :=
      ⟨by have := between.1; omega, by have := between.2; omega⟩
    refine ih restCalm restLength (by omega) ?_ ⟨block, later, fun usable => unusable ?_⟩
    · -- Were the table complete after this chunk, there would be no more blocks
      have more : 1 ≤ blocks := by
        have := later.1
        have := later.2
        omega
      have := Nat.mul_le_mul_right ld.erasesize more
      omega
    · exact usable.congr (fun block => (restStates block).symm) restFlash.symm

end Calm

/-! ## Reading a table back -/

variable {ba : Nat} {image : List Byte}

theorem Laid.contiguous (sound : ld.Sound) {gap : Nat → Prop} {flash : Flash} {blocks stop : Nat}
    (laid : Laid ld gap flash ba stop image) (enough : image.length ≤ blocks * ld.erasesize)
    (tight : blocks * ld.erasesize < image.length + ld.erasesize)
    (none : ∀ block, Between ba (ba + blocks) block → ¬gap block) :
    stop = ba + blocks ∧ ld.bytesAt flash (ld.ba2addr ba) image.length = image := by
  have positive := sound.erasesize_pos
  induction blocks generalizing ba image with
  | zero =>
    obtain rfl : image = [] := List.length_eq_zero_iff.mp (by omega)
    cases laid with
    | nil => exact ⟨rfl, rfl⟩
    | skip some => exact absurd rfl some
    | chunk some => exact absurd rfl some
  | succ blocks ih =>
    have next : (blocks + 1) * ld.erasesize = blocks * ld.erasesize + ld.erasesize :=
      Nat.succ_mul _ _
    cases laid with
    | nil => simp at tight; omega
    | skip _ skipped => exact absurd skipped (none ba ⟨le_rfl, by omega⟩)
    | chunk some holds rest =>
      have length : (image.drop ld.erasesize).length = image.length - ld.erasesize :=
        List.length_drop
      have later (block : Nat) (between : Between (ba + 1) (ba + 1 + blocks) block) :
          ¬gap block :=
        none block ⟨by have := between.1; omega, by have := between.2; omega⟩
      obtain ⟨stopEq, back⟩ := ih rest (by omega) (by
        by_cases whole : ld.erasesize ≤ image.length
        · omega
        · have last : blocks = 0 := by
            by_contra more
            have := Nat.mul_le_mul_right ld.erasesize (Nat.one_le_iff_ne_zero.mpr more)
            omega
          rw [last, Nat.zero_mul]
          omega) later
      refine ⟨by omega, ?_⟩
      rw [sound.ba2addr_eq, Nat.succ_mul, ← sound.ba2addr_eq, length] at back
      rw [Holds, List.length_take] at holds
      have split : image.length =
          min ld.erasesize image.length + (image.length - ld.erasesize) := by omega
      conv_lhs => rw [split]
      rw [bytesAt_append, holds]
      by_cases whole : ld.erasesize ≤ image.length
      · rw [min_eq_left whole, back, List.take_append_drop]
      · rw [Nat.sub_eq_zero_of_le (by omega), List.take_of_length_le (by omega)]
        exact List.append_nil image

theorem StoredAt.contiguous (sound : ld.Sound) {gap : Nat → Prop} {flash : Flash}
    {blocks start stop : Nat} (stored : StoredAt ld gap flash start stop image)
    (enough : image.length ≤ blocks * ld.erasesize)
    (tight : blocks * ld.erasesize < image.length + ld.erasesize)
    (none : ∀ block, Between start (start + blocks) block → ¬gap block) :
    stop = start + blocks ∧ ld.bytesAt flash (ld.ba2addr start) image.length = image :=
  (Laid.chunk stored.some stored.first stored.rest).contiguous sound enough tight none

/-- What the loader makes of a table in a window without gaps depends on the check of its
contents only. -/
theorem tryLoadInfoTable_whole (sound : ld.Sound) {tableLoaded : Bool} {state : State}
    (calm : Calm ld state) (valid : ValidTable ld image) (cache : state.ni.infoTableCache = image)
    (content : ld.bytesAt state.flash (ld.ba2addr ba) ld.infoTableSize = image)
    (usable : ∀ block, Between ba (ba + ld.infoTableBlocks) block → Usable ld state block) :
    Ensures (tryLoadInfoTable ld ba tableLoaded) state fun result after =>
      ∃ middle, Scanned state middle ∧
        (∀ block, middle.ni.getBlockState block = state.ni.getBlockState block) ∧
        match checkInfoTable middle.ni ba (ba + ld.infoTableBlocks) image with
        | none => result = none
        | some top =>
          result = some ⟨ba, ba + ld.infoTableBlocks, imageWriteCount image, top, image⟩ ∧
            after = taken ld middle tableLoaded
              ⟨ba, ba + ld.infoTableBlocks, imageWriteCount image, top, image⟩ := by
  have blocks := sound.infoTableBlocks_spec
  have blocksPos := sound.infoTableBlocks_pos
  have length : state.ni.infoTableCache.length = ld.infoTableSize := cache ▸ valid.1
  have header : patch state.ni.infoTableCache 0
      (ld.bytesAt state.flash (ld.ba2addr ba) (min ld.infoTableSize ld.erasesize)) = image := by
    rw [← bytesAt_take state.flash (min_le_left ld.infoTableSize ld.erasesize), content, cache,
      patch, List.take_zero, List.nil_append, Nat.zero_add, drop_take_length,
      List.take_append_drop]
  unfold tryLoadInfoTable
  refine ((tryLoadLoop_calm sound calm usable (Nat.zero_le _) (by rw [Nat.zero_add]; exact blocks.1)
    fun _ => ⟨rfl, header.symm ▸ valid.2.1⟩).both
      (tryLoadLoop_spec sound length (Nat.zero_le _))).bind fun window middle both => ?_
  obtain ⟨⟨⟨start, stop, read, rfl, all⟩, states⟩, scanned, windowRead⟩ := both
  obtain ⟨stopEq, _, startEq, middleCache⟩ := (windowRead start stop read rfl).2
    (by rw [Nat.zero_add]; exact blocks.1) (by rw [Nat.zero_add]; exact blocks.2) all
  obtain rfl : start = ba := startEq rfl blocksPos
  rw [List.take_zero, List.nil_append, Nat.sub_zero, content] at middleCache
  refine .getNi_bind (.ite (fun short => absurd all (by omega)) fun _ => ?_)
  rw [middleCache]
  refine .ite (fun refused => absurd valid.2.2 (by simpa using refused)) fun _ => ?_
  rw [stopEq]
  cases checked : checkInfoTable middle.ni start (start + ld.infoTableBlocks) image with
  | none => exact .pure ⟨middle, scanned, states, by rw [checked]⟩
  | some top =>
    dsimp only
    by_cases newer : !tableLoaded ∨ middle.ni.infoTable.writeCount < imageWriteCount image
    · rw [if_pos newer]
      refine ⟨middle, scanned, states, ?_⟩
      rw [checked]
      exact ⟨rfl, (if_pos newer).symm⟩
    · rw [if_neg newer]
      refine ⟨middle, scanned, states, ?_⟩
      rw [checked]
      exact ⟨rfl, (if_neg newer).symm⟩

theorem checkInfoTable_isSome (ni : Instance) (start stop : Nat) (image : List Byte) :
    (checkInfoTable ni start stop image).isSome ↔
      (∀ lb, lb < ni.dataBlockCount → ¬Misplaced ni.dataBlockCount ni.signatureBa stop image lb) ∧
        ∀ block, Between start stop block → ni.NotGood block ∨
          getBlockStateRaw (imageState image) block = BLOCK_ST_GOOD := by
  have spec := checkMapping_spec ni stop image
  unfold checkInfoTable
  cases found : checkMapping ni stop image with
  | none =>
    rw [found] at spec
    obtain ⟨lb, below, misplaced⟩ := spec
    exact ⟨nofun, fun fine => absurd misplaced (fine.1 lb below)⟩
  | some minimum =>
    rw [found] at spec
    have states : ((List.range' start (stop - start)).all fun ba =>
        ni.getBlockState ba ≠ BLOCK_ST_GOOD ∨
          getBlockStateRaw (imageState image) ba = BLOCK_ST_GOOD) = true ↔
        ∀ block, Between start stop block → ni.NotGood block ∨
          getBlockStateRaw (imageState image) block = BLOCK_ST_GOOD := by
      simp only [List.all_eq_true, List.mem_range'_1, decide_eq_true_eq]
      exact ⟨fun all block between => all block ⟨between.1, by have := between.2; omega⟩,
        fun all block inside => all block ⟨inside.1, by omega⟩⟩
    dsimp only
    split
    · rename_i fine
      exact ⟨fun _ => ⟨fun lb below => (spec.1 lb below).1, states.mp fine⟩, fun _ => rfl⟩
    · rename_i bad
      exact ⟨nofun, fun fine => absurd (states.mpr fine.2) bad⟩

theorem getBlockStateRaw_image (sound : ld.Sound) {table : InfoTableHeader}
    {blockState blockMapping : Nat → BitVec 32} (placed : table.Placed ld)
    (inside : ba < ld.blockCount) :
    getBlockStateRaw (imageState (infoTableImage ld table blockState blockMapping)) ba =
      getBlockStateRaw blockState ba := by
  have unit : ba / NMBM_BITMAP_BLOCKS_PER_UNIT < ld.stateUnits := by
    rw [sound.stateUnits_eq]
    simp only [NMBM_BITMAP_BLOCKS_PER_UNIT]
    omega
  rw [getBlockStateRaw, imageState_infoTableImage sound _ _ placed unit, getBlockStateRaw]

/-- The loader has reported a table that ends before block `stop` and, where it had none
or an older one, taken it over. -/
structure Reconstructs (ld : LowerDevice) (table : InfoTableHeader)
    (blockState blockMapping : Nat → BitVec 32) (stop : Nat) (tableLoaded : Bool) (before : State)
    (result : Option LoadedTable) (after : State) : Prop where
  found : ∃ loaded, result = some loaded ∧ loaded.endBa = stop ∧
    loaded.writeCount = table.writeCount
  taken : tableLoaded = false ∨ before.ni.infoTable.writeCount < table.writeCount →
    after.ni.infoTable.writeCount = table.writeCount ∧
      (∀ unit, unit < ld.stateUnits → after.ni.blockState unit = blockState unit) ∧
        ∀ lb, lb < ld.blockCount → after.ni.blockMapping lb = blockMapping lb

/-- The blocks a table without gaps would take from `start` on can all be used, the table
has them as good, and no logical block is mapped to the management area or the signature. -/
structure Rereadable (ld : LowerDevice) (blockState : Nat → BitVec 32) (start : Nat)
    (state : State) : Prop where
  whole : ∀ block, Between start (start + ld.infoTableBlocks) block → Usable ld state block
  states : ∀ block, Between start (start + ld.infoTableBlocks) block →
    getBlockStateRaw blockState block = BLOCK_ST_GOOD
  mapping : ∀ lb, lb < state.ni.dataBlockCount → ¬Misplaced state.ni.dataBlockCount
    state.ni.signatureBa (start + ld.infoTableBlocks) state.ni.infoTableCache lb

/-- A table that `nmbm_write_info_table` has written is read back by
`nmbm_try_load_info_table` exactly if it is `Rereadable`. -/
theorem writtenTable_reconstructs (sound : ld.Sound) {ba limit start stop : Nat}
    {tableLoaded : Bool} {state after : State} {table : InfoTableHeader}
    {blockState blockMapping : Nat → BitVec 32} (placed : table.Placed ld)
    (magic : table.header.magic = NMBM_MAGIC_INFO_TABLE)
    (size : table.header.size = BitVec.ofNat 32 ld.infoTableSize)
    (cache : state.ni.infoTableCache = infoTableImage ld table blockState blockMapping)
    (written : writeInfoTable ld ba limit state = (some (start, stop), after))
    (calm : Calm ld after) :
    Ensures (tryLoadInfoTable ld start tableLoaded) after (fun result final =>
      Reconstructs ld table blockState blockMapping stop tableLoaded after result final ↔
        Rereadable ld blockState start after) := by
  have blocks := sound.infoTableBlocks_spec
  have valid : ValidTable ld state.ni.infoTableCache :=
    cache ▸ validTable_infoTableImage sound blockState blockMapping placed magic size
  have writes : Writes ld (Between ba limit) state after := by
    have spec := (writeInfoTable_spec sound ba limit valid).1
    rwa [written] at spec
  have stored : StoredAt ld after.ni.NotGood after.flash start stop state.ni.infoTableCache := by
    have spec : Ensures (writeInfoTable ld ba limit) state fun range after =>
        RangeWritten ld ba (ba + (limit - ba)) state.ni.infoTableCache none range after :=
      .getNi_bind (.note_bind (writeMgmtRangeLoop_spec sound _))
    rw [Ensures, written] at spec
    exact ((spec start stop rfl).2.2 rfl (valid.ne_nil sound)).2
  have afterCache : after.ni.infoTableCache = state.ni.infoTableCache := writes.cache
  by_cases whole : ∀ block, Between start (start + ld.infoTableBlocks) block → Usable ld after block
  · obtain ⟨stopEq, content⟩ := stored.contiguous sound (valid.1.symm ▸ blocks.1)
      (valid.1.symm ▸ blocks.2) fun block between => (whole block between).1
    rw [valid.1] at content
    refine (tryLoadInfoTable_whole sound calm valid afterCache content whole).mono
      fun result final loaded => ?_
    obtain ⟨middle, scanned, states, outcome⟩ := loaded
    have checks := checkInfoTable_isSome middle.ni start (start + ld.infoTableBlocks)
      state.ni.infoTableCache
    rw [scanned.capacity, scanned.signatureBa] at checks
    have accepted : (checkInfoTable middle.ni start (start + ld.infoTableBlocks)
        state.ni.infoTableCache).isSome ↔ Rereadable ld blockState start after := by
      have recorded (block : Nat) (between : Between start (start + ld.infoTableBlocks) block) :
          ¬middle.ni.NotGood block ∧ getBlockStateRaw (imageState state.ni.infoTableCache) block =
            getBlockStateRaw blockState block := by
        refine ⟨fun bad => (whole block between).1 ?_, ?_⟩
        · rwa [Instance.NotGood, states] at bad
        rw [cache]
        exact getBlockStateRaw_image sound placed ((whole block between).inside sound)
      rw [checks]
      constructor
      · rintro ⟨mapping, good⟩
        refine ⟨whole, fun block between => ?_, afterCache ▸ mapping⟩
        obtain ⟨usable, same⟩ := recorded block between
        exact same ▸ (good block between).resolve_left usable
      · intro fine
        refine ⟨afterCache ▸ fine.mapping, fun block between => Or.inr ?_⟩
        exact (recorded block between).2.trans (fine.states block between)
    have count : imageWriteCount state.ni.infoTableCache = table.writeCount := by
      rw [cache]
      exact imageWriteCount_infoTableImage sound _ _ placed
    rw [← accepted]
    split at outcome
    · rename_i refused
      rw [refused]
      refine ⟨fun reconstructs => ?_, nofun⟩
      obtain ⟨loaded, found, _⟩ := reconstructs.found
      rw [outcome] at found
      cases found
    · rename_i top passed
      obtain ⟨rfl, rfl⟩ := outcome
      rw [passed]
      refine ⟨fun _ => rfl, fun _ => ⟨⟨_, rfl, stopEq.symm, count⟩, fun newer => ?_⟩⟩
      have takes : !tableLoaded ∨ middle.ni.infoTable.writeCount <
          imageWriteCount state.ni.infoTableCache := by
        rw [scanned.infoTable, count]
        simpa using newer
      rw [taken, if_pos takes]
      refine ⟨count, fun unit below => ?_, fun lb below => ?_⟩
      · refine (if_pos below).trans ?_
        rw [cache]
        exact imageState_infoTableImage sound _ _ placed below
      · refine (if_pos (by rwa [sound.mappingWords_eq])).trans ?_
        rw [cache]
        exact imageMapping_infoTableImage sound _ _ placed below
  · have gap : ∃ block, Between start (start + ld.infoTableBlocks) block ∧ ¬Usable ld after block := by
      simpa using whole
    have missed : Ensures (tryLoadInfoTable ld start tableLoaded) after fun result _ =>
        result = none := by
      have length : after.ni.infoTableCache.length = ld.infoTableSize := afterCache ▸ valid.1
      unfold tryLoadInfoTable
      refine (tryLoadLoop_gap sound calm length (Nat.zero_le _)
        (by rw [Nat.zero_add]; exact blocks.2) gap).bind fun window middle short => ?_
      cases window with
      | none => exact .pure rfl
      | some window =>
        obtain ⟨first, last, read⟩ := window
        have few := short first last read rfl
        exact .getNi_bind (.ite (fun _ => .pure rfl) fun all => absurd few all)
    refine missed.mono fun result final none => ⟨fun reconstructs => ?_, fun fine => ?_⟩
    · obtain ⟨loaded, found, _⟩ := reconstructs.found
      rw [none] at found
      cases found
    · exact absurd fine.whole whole

def denseChip : LowerDevice :=
  { smallChip 9 (fun _ => {}) with size := 1024, erasesize := 64 }

theorem denseChip_sound : denseChip.Sound where
  accepted := by
    refine ⟨creating, ?_⟩
    simp only [checkLowerMembers, Bool.and_eq_true]
    refine ⟨⟨⟨⟨⟨⟨⟨?_, ?_⟩, ?_⟩, rfl⟩, rfl⟩, rfl⟩, rfl⟩, rfl⟩
    · exact (by decide : isPowerOf2 1024 = true)
    · exact (by decide : isPowerOf2 64 = true)
    · exact (by decide : isPowerOf2 64 = true)
  wholePages := (by decide : 64 ≤ 64)
  wholeBlocks := (by decide : 64 ≤ 1024)
  erasesizeWidth := (by decide : 64 < 2 ^ 32)
  tableWidth := by
    simp [LowerDevice.tableBytes, LowerDevice.tableBytes.infoTableHeaderSize,
      LowerDevice.infoTableHeaderSize, ceilTo, denseChip, smallChip]

def freshTable (bad : List Nat) : State :=
  generated denseChip (initialSys denseChip (erasedFlash bad)).state

def tableWritten (bad : List Nat) : State :=
  (writeInfoTable denseChip 7 14 (freshTable bad)).2

theorem tableWritten_eq {bad : List Nat} {range : Option (Nat × Nat)}
    (returned : (writeInfoTable denseChip 7 14 (freshTable bad)).1 = range) :
    writeInfoTable denseChip 7 14 (freshTable bad) = (range, tableWritten bad) := by
  rw [tableWritten, ← returned]
  exact (Prod.eta _).symm

theorem freshTable_spec (bad : List Nat) :
    (freshTable bad).ni.infoTable.Placed denseChip ∧
      (freshTable bad).ni.infoTable.header.magic = NMBM_MAGIC_INFO_TABLE ∧
      (freshTable bad).ni.infoTable.header.size = BitVec.ofNat 32 denseChip.infoTableSize ∧
      (freshTable bad).ni.infoTableCache = infoTableImage denseChip (freshTable bad).ni.infoTable
        (freshTable bad).ni.blockState (freshTable bad).ni.blockMapping :=
  ⟨⟨rfl, rfl⟩, rfl, rfl, rfl⟩

theorem writtenTable_reconstructs_fresh :
    writeInfoTable denseChip 7 14 (freshTable []) = (some (7, 10), tableWritten []) ∧
      Rereadable denseChip (freshTable []).ni.blockState 7 (tableWritten []) := by
  have written : writeInfoTable denseChip 7 14 (freshTable []) = (some (7, 10), tableWritten []) :=
    tableWritten_eq (by decide +kernel)
  obtain ⟨placed, magic, size, cache⟩ := freshTable_spec []
  have reread : Ensures (tryLoadInfoTable denseChip 7 false) (tableWritten []) fun result final =>
      Reconstructs denseChip (freshTable []).ni.infoTable (freshTable []).ni.blockState
        (freshTable []).ni.blockMapping 10 false (tableWritten []) result final ↔
          Rereadable denseChip (freshTable []).ni.blockState 7 (tableWritten []) :=
    writtenTable_reconstructs denseChip_sound placed magic size cache written fun _ _ => rfl
  refine ⟨written, reread.mp ⟨?_, fun _ => ⟨?_, ?_, ?_⟩⟩⟩
  · exact exists_of_any (by decide +kernel)
  · decide +kernel
  · decide +kernel
  · decide +kernel

/-- Block 8 is bad: the table written to blocks 7, 9 and 10 is not found again. -/
theorem gappedTable_unreadable :
    writeInfoTable denseChip 7 14 (freshTable [8]) = (some (7, 11), tableWritten [8]) ∧
      (tryLoadInfoTable denseChip 7 false (tableWritten [8])).1.isNone :=
  ⟨tableWritten_eq (by decide +kernel), by decide +kernel⟩

end MetaFilogic.Nmbm
