import MetaFilogic.Nmbm.Session

/-!
# Searching for info tables

A read that succeeds delivers what is on flash.  A table is found only if the whole
window of blocks it may take is readable: `Found` says what is known of it then.
Everything else the search does is to record blocks as bad and to use the cache.
-/

namespace MetaFilogic.Nmbm

open Bytes

variable {ld : LowerDevice}

/-! ## Reading -/

def Delivered (ld : LowerDevice) (flash : Flash) (addr : Nat) (result : Int × PageData) : Prop :=
  result.2.data.length = ld.writesize ∧
    (0 ≤ result.1 → addr < ld.size ∧ result.2 = ld.sized (flash.page (ld.pageOf addr)))

theorem lowerReadPage_spec (addr : Nat) (mode : OobMode) (state : State) :
    Ensures (lowerReadPage ld addr mode) state fun result _ =>
      Delivered ld state.flash addr result := by
  have failed (ret : Int) (page : PageData) (isError : ret < 0) :
      Delivered ld state.flash addr (ret, ld.sized page) :=
    ⟨sized_length ld page, fun success => absurd success (by omega)⟩
  unfold lowerReadPage
  refine .nextFault_bind (.get_bind (.ite (fun error => .pure (failed _ _ error)) fun success => ?_))
  refine .ite (fun _ => .pure (failed _ _ (by decide))) fun within => ?_
  exact .pure ⟨sized_length ld _, fun _ => ⟨by omega, rfl⟩⟩

theorem readPhysPage_spec (addr : Nat) (mode : OobMode) (state : State) :
    Ensures (readPhysPage ld addr mode) state fun result after =>
      Delivered ld state.flash addr result ∧ after.flash = state.flash := by
  have tries (count : Nat) (last : Int × PageData) (state : State)
      (started : count = 0 → Delivered ld state.flash addr last) :
      Ensures (readPhysPageTries ld addr mode count last) state fun result _ =>
        Delivered ld state.flash addr result := by
    induction count generalizing last state with
    | zero => exact .pure (started rfl)
    | succ count ih =>
      unfold readPhysPageTries
      refine ((lowerReadPage_spec addr mode state).both (flash_of_touches ld
        (fun _ => touches_lowerReadPage addr mode) state)).bind fun result middle both => ?_
      refine .ite (fun _ => .pure both.1) fun _ => ?_
      rw [← both.2]
      exact ih result middle fun _ => both.2 ▸ both.1
  exact (tries NMBM_TRY_COUNT _ state fun none => absurd none (by decide)).both
    (flash_of_touches ld (fun _ => touches_readPhysPage addr mode) state)

theorem bytesAt_inPage (flash : Flash) {addr size : Nat} (positive : 0 < ld.writesize)
    (within : addr % ld.writesize + size ≤ ld.writesize) :
    ld.bytesAt flash addr size =
      ((ld.sized (flash.page (ld.pageOf (addr - addr % ld.writesize)))).data.drop
        (addr % ld.writesize)).take size := by
  have split := Nat.div_add_mod addr ld.writesize
  have aligned : (addr - addr % ld.writesize) % ld.writesize = 0 := by
    exact Nat.sub_mod_eq_zero_of_mod_eq (Nat.mod_mod _ _).symm
  have start : addr - addr % ld.writesize + addr % ld.writesize = addr := by omega
  have page : ld.bytesAt flash (addr - addr % ld.writesize) ld.writesize =
      (ld.sized (flash.page (ld.pageOf (addr - addr % ld.writesize)))).data := by
    rw [bytesAt_aligned flash positive aligned le_rfl,
      List.take_of_length_le (sized_length ld _).le]
  rw [← page, bytesAt_drop flash (by omega), start, bytesAt_take flash (by omega)]

variable {off blocks ba : Nat} {state : State} {tableLoaded : Bool}

theorem nmbnReadDataLoop_spec (sound : ld.Sound) {rounds sizeremain : Nat} {ptr : List Byte}
    (state : State) (enough : sizeremain ≤ rounds) :
    Ensures (nmbnReadDataLoop ld rounds off sizeremain ptr) state fun result _ =>
      result.2.length ≤ ptr.length + sizeremain ∧ result.1 ≤ 0 ∧
        (result.1 = 0 → result.2 = ptr ++ ld.bytesAt state.flash off sizeremain ∧
          (0 < sizeremain → ld.blockOf off < ld.blockCount)) := by
  have positive := sound.writesize_pos
  induction rounds generalizing off sizeremain ptr state with
  | zero =>
    obtain rfl : sizeremain = 0 := by omega
    exact .pure ⟨le_rfl, le_rfl, fun _ => ⟨(List.append_nil ptr).symm, by omega⟩⟩
  | succ rounds ih =>
    unfold nmbnReadDataLoop
    refine .ite (fun empty => ?_) fun some => ?_
    · subst empty
      exact .pure ⟨le_rfl, le_rfl, fun _ => ⟨(List.append_nil ptr).symm, by omega⟩⟩
    · simp only [sound.and_writesizeMask]
      have small := Nat.mod_lt off positive
      generalize sizeEq : min (ld.writesize - off % ld.writesize) sizeremain = size
      refine (readPhysPage_spec _ .placeOob state).bind fun result middle delivered => ?_
      obtain ⟨⟨length, read⟩, same⟩ := delivered
      have rest (middle : State) (same : middle.flash = state.flash) :
          Ensures (if result.1 < 0 then
              pure (result.1, if size = ld.writesize then ptr ++ result.2.data else ptr)
            else
              nmbnReadDataLoop ld rounds (off + size) (sizeremain - size)
                (ptr ++ (result.2.data.drop (off % ld.writesize)).take size)) middle
            fun outcome _ => outcome.2.length ≤ ptr.length + sizeremain ∧ outcome.1 ≤ 0 ∧
              (outcome.1 = 0 → outcome.2 = ptr ++ ld.bytesAt state.flash off sizeremain ∧
                (0 < sizeremain → ld.blockOf off < ld.blockCount)) := by
        refine .ite (fun error => .pure ⟨?_, error.le, fun success => ?_⟩) fun success => ?_
        · dsimp only
          split
          · rw [List.length_append, length]
            omega
          · omega
        · exact absurd success (by omega)
        · obtain ⟨inside, content⟩ := read (by omega)
          have chunk : (result.2.data.drop (off % ld.writesize)).take size =
              ld.bytesAt state.flash off size := by
            rw [content, bytesAt_inPage state.flash positive (by omega)]
          have total : sizeremain = size + (sizeremain - size) := by omega
          refine (ih middle (by omega)).mono fun outcome after done => ?_
          rw [chunk, same, List.append_assoc, ← bytesAt_append, ← total] at done
          refine ⟨?_, done.2.1, fun success => ⟨(done.2.2 success).1, fun _ => ?_⟩⟩
          · have := done.1
            rw [List.length_append, bytesAt_length] at this
            omega
          · rw [← sound.blockOf_page]
            have whole := sound.size_blocks
            exact Nat.div_lt_of_lt_mul (by rw [Nat.mul_comm, ← whole]; exact inside)
      refine .ite (fun _ => ?_) fun _ => rest middle same
      refine (flash_of_touches ld (fun _ => touches_cacheData _) middle).bind
        fun _ cached sameCached => rest cached (sameCached.trans same)

/-! ## What a search leaves alone -/

/-- Between the two states blocks may have been recorded as bad, and the cache of the
info table may have been used. -/
structure Scanned (before after : State) : Prop where
  outline : { after.ni.outline with infoTableCache := [] } =
    { before.ni.outline with infoTableCache := [] }
  length : after.ni.infoTableCache.length = before.ni.infoTableCache.length
  counted : before.ni.blockStateChanged ≤ after.ni.blockStateChanged
  still : after.ni.blockStateChanged = before.ni.blockStateChanged →
    after.ni.blockState = before.ni.blockState
  flash : after.flash = before.flash
  trace : after.trace = before.trace

namespace Scanned

variable {before middle after : State}

theorem refl (state : State) : Scanned state state :=
  ⟨rfl, rfl, le_rfl, fun _ => rfl, rfl, rfl⟩

theorem trans (first : Scanned before middle) (second : Scanned middle after) :
    Scanned before after where
  outline := second.outline.trans first.outline
  length := second.length.trans first.length
  counted := first.counted.trans second.counted
  still same := by
    have low := first.counted
    have high := second.counted
    exact (second.still (by omega)).trans (first.still (by omega))
  flash := second.flash.trans first.flash
  trace := second.trace.trans first.trace

theorem signature (scanned : Scanned before after) : after.ni.signature = before.ni.signature :=
  (congrArg Instance.signature scanned.outline :)

theorem flags (scanned : Scanned before after) : after.ni.flags = before.ni.flags :=
  (congrArg Instance.flags scanned.outline :)

theorem infoTable (scanned : Scanned before after) : after.ni.infoTable = before.ni.infoTable :=
  (congrArg Instance.infoTable scanned.outline :)

theorem mapping (scanned : Scanned before after) : after.ni.blockMapping = before.ni.blockMapping :=
  (congrArg Instance.blockMapping scanned.outline :)

theorem capacity (scanned : Scanned before after) :
    after.ni.dataBlockCount = before.ni.dataBlockCount :=
  (congrArg Instance.dataBlockCount scanned.outline :)

theorem mgmtStartBa (scanned : Scanned before after) :
    after.ni.mgmtStartBa = before.ni.mgmtStartBa :=
  (congrArg Instance.mgmtStartBa scanned.outline :)

theorem mainTableBa (scanned : Scanned before after) :
    after.ni.mainTableBa = before.ni.mainTableBa :=
  (congrArg Instance.mainTableBa scanned.outline :)

theorem signatureBa (scanned : Scanned before after) :
    after.ni.signatureBa = before.ni.signatureBa :=
  (congrArg Instance.signatureBa scanned.outline :)

theorem ofTouches (touches : Touches ld (fun _ => False) before after) : Scanned before after := by
  refine ⟨congrArg (fun ni : Instance => { ni with infoTableCache := [] }) touches.outline,
    congrArg List.length touches.cache, touches.counted, touches.still, touches.flash.eq, ?_⟩
  -- A record of an access would be one of an access to no block
  obtain ⟨new, trace, within⟩ := touches.trace
  obtain ⟨access, traceAccess, isAccess⟩ := touches.access
  obtain rfl : new = access := List.append_cancel_right (trace.symm.trans traceAccess)
  suffices new = [] by rw [trace, this, List.nil_append]
  refine List.eq_nil_iff_forall_not_mem.mpr fun event among => ?_
  have inside := within event among
  have kind := isAccess event among
  cases event with
  | erase => exact inside.1
  | program => exact inside.1
  | markBad => exact inside.1
  | _ => exact kind

end Scanned

theorem scanned_recordBad (ba : Nat) : Preserves Scanned (setBlockState ba BLOCK_ST_BAD) :=
  fun state => ⟨rfl, rfl, state.ni.blockStateChanged_set ba _, state.ni.blockState_set ba _, rfl, rfl⟩

theorem scanned_patch (state : State) (off : Nat) (bytes : List Byte)
    (fits : off + bytes.length ≤ state.ni.infoTableCache.length) :
    Scanned state { state with
      ni := { state.ni with infoTableCache := patch state.ni.infoTableCache off bytes } } :=
  ⟨rfl, patch_length fits, le_rfl, fun _ => rfl, rfl, rfl⟩

/-! ## One window -/

/-- What the block loop over a window has done: if all of the table was read, then
from the blocks of the window in turn. -/
def WindowRead (ld : LowerDevice) (blocks ba off : Nat) (startBa : Option Nat)
    (before : State) (result : Option (Nat × Nat × Nat)) (after : State) : Prop :=
  ∀ start stop read, result = some (start, stop, read) →
    read ≤ off + blocks * ld.erasesize ∧
      (ld.infoTableSize ≤ off + blocks * ld.erasesize →
        off + blocks * ld.erasesize < ld.infoTableSize + ld.erasesize →
        ld.infoTableSize ≤ read →
          stop = ba + blocks ∧ (∀ first, startBa = some first → start = first) ∧
            (startBa = none → 0 < blocks → start = ba) ∧
            after.ni.infoTableCache = before.ni.infoTableCache.take off ++
              ld.bytesAt before.flash (ld.ba2addr ba) (ld.infoTableSize - off))

theorem WindowRead.skip {startBa : Option Nat} {before middle after : State}
    {result : Option (Nat × Nat × Nat)}
    (rest : WindowRead ld blocks (ba + 1) off startBa middle result after) :
    WindowRead ld (blocks + 1) ba off startBa before result after := by
  intro start stop read found
  have bound := (rest start stop read found).1
  have next : (blocks + 1) * ld.erasesize = blocks * ld.erasesize + ld.erasesize :=
    Nat.succ_mul _ _
  exact ⟨by omega, fun _ tight all => absurd all (by omega)⟩

/-- One block of a window is passed over, ends the search, or adds its chunk to the cache. -/
theorem tryLoadLoop_round (sound : ld.Sound) {startBa : Option Nat}
    {post : Option (Nat × Nat × Nat) → State → Prop}
    (length : state.ni.infoTableCache.length = ld.infoTableSize)
    (full : ld.infoTableSize ≤ off → post (some (startBa.getD 0, ba, off)) state)
    (skipping : ∀ middle, Scanned state middle →
      Ensures (tryLoadLoop ld blocks (ba + 1) off startBa) middle post)
    (refused : ∀ after, Scanned state after → post none after)
    (reading : ∀ size after, min (ld.infoTableSize - off) ld.erasesize = size → 0 < size →
      Scanned state after → ba < ld.blockCount →
      after.ni.infoTableCache =
        patch state.ni.infoTableCache off (ld.bytesAt state.flash (ld.ba2addr ba) size) →
      (startBa = none → checkInfoTableHeader ld (after.ni.infoTableCache.drop off) = true) →
      Ensures (tryLoadLoop ld blocks (ba + 1) (off + size) (some (startBa.getD ba))) after post) :
    Ensures (tryLoadLoop ld (blocks + 1) ba off startBa) state post := by
  have positive := sound.erasesize_pos
  have checks : Preserves (Touches ld fun _ => False) (checkBadPhysBlock ld ba) :=
    touches_checkBadPhysBlock ba
  unfold tryLoadLoop
  refine .ite (fun all => .pure (full all)) fun some => ?_
  refine .getNi_bind (.ite (fun _ => skipping state (.refl _)) fun _ => ?_)
  refine (checks.ensures state).bind fun bad checked touches => ?_
  have checkedScanned := Scanned.ofTouches touches
  refine .ite (fun _ => ?_) fun _ => ?_
  · exact ((scanned_recordBad ba).ensures checked).bind fun _ recorded scanned =>
      skipping recorded (checkedScanned.trans scanned)
  dsimp only
  generalize sizeEq : min (ld.infoTableSize - off) ld.erasesize = size
  have reads : Preserves (Touches ld fun _ => False)
      (nmbnReadData ld (ld.ba2addr ba) size) := touches_nmbnReadData _ _
  refine ((nmbnReadDataLoop_spec sound checked le_rfl).both (reads.ensures checked)).bind
    fun result read both => ?_
  obtain ⟨⟨short, _, content⟩, readTouches⟩ := both
  have readScanned := checkedScanned.trans (.ofTouches readTouches)
  have readLength := readScanned.length.trans length
  rw [List.length_nil, Nat.zero_add] at short
  refine .modifyNi_bind ?_
  have patched := readScanned.trans (scanned_patch read off result.2 (by omega))
  refine .ite (fun _ => ?_) fun noError => .ite (fun _ => .pure (refused _ patched)) fun noRest => ?_
  · exact ((scanned_recordBad ba).ensures _).bind fun _ recorded scanned =>
      skipping recorded (patched.trans scanned)
  refine .getNi_bind (.ite (fun _ => .pure (refused _ patched)) fun accepted => ?_)
  have chunk : result.2 = ld.bytesAt state.flash (ld.ba2addr ba) size := by
    rw [(content (by omega)).1, List.nil_append, checkedScanned.flash]
  have here : ba < ld.blockCount := by
    have inside := (content (by omega)).2 (by omega)
    rwa [sound.blockOf_ba2addr] at inside
  refine reading size _ sizeEq (by omega) patched here ?_ fun first => ?_
  · rw [← chunk, ← touches.cache, ← readTouches.cache]
  · by_contra unchecked
    exact accepted ⟨by rw [first]; rfl, by simpa using unchecked⟩

theorem tryLoadLoop_spec (sound : ld.Sound) {startBa : Option Nat}
    (length : state.ni.infoTableCache.length = ld.infoTableSize) (within : off ≤ ld.infoTableSize) :
    Ensures (tryLoadLoop ld blocks ba off startBa) state fun result after =>
      Scanned state after ∧ WindowRead ld blocks ba off startBa state result after := by
  have positive := sound.erasesize_pos
  induction blocks generalizing ba off startBa state with
  | zero =>
    refine .pure ⟨.refl _, fun start stop read found => ?_⟩
    simp only [Option.some.injEq, Prod.mk.injEq] at found
    obtain ⟨rfl, rfl, rfl⟩ := found
    refine ⟨by omega, fun enough _ _ => ⟨rfl, fun first given => by simp [given], by omega, ?_⟩⟩
    obtain rfl : off = ld.infoTableSize := by omega
    rw [← length, List.take_length, Nat.sub_self]
    simp [LowerDevice.bytesAt]
  | succ blocks ih =>
    have next : (blocks + 1) * ld.erasesize = blocks * ld.erasesize + ld.erasesize :=
      Nat.succ_mul _ _
    refine tryLoadLoop_round sound length (fun full => ⟨.refl _, fun start stop read found => ?_⟩)
      (fun middle scanned => (ih (scanned.length.trans length) within).mono
        fun result after rest => ⟨scanned.trans rest.1, rest.2.skip⟩)
      (fun after scanned => ⟨scanned, fun _ _ _ none => by cases none⟩) fun size read sizeEq _ patched _ chunk _ => ?_
    · simp only [Option.some.injEq, Prod.mk.injEq] at found
      obtain ⟨rfl, rfl, rfl⟩ := found
      exact ⟨by omega, fun _ tight => absurd tight (by omega)⟩
    refine (ih (patched.length.trans length) (by omega)).mono fun outcome after rest =>
      ⟨patched.trans rest.1, fun start stop last found => ?_⟩
    obtain ⟨bound, conclude⟩ := rest.2 start stop last found
    refine ⟨by omega, fun enough tight all => ?_⟩
    obtain ⟨stopEq, startEq, _, cache⟩ := conclude (by omega) (by omega) all
    refine ⟨by omega, fun first given => startEq first (by rw [given, Option.getD_some]),
      fun none _ => startEq ba (by rw [none, Option.getD_none]), ?_⟩
    -- The cache holds what came before, the chunk just read, and the chunks after it
    have front : read.ni.infoTableCache.take (off + size) =
        state.ni.infoTableCache.take off ++
          ld.bytesAt state.flash (ld.ba2addr ba) size := by
      have sizes : (state.ni.infoTableCache.take off ++
          ld.bytesAt state.flash (ld.ba2addr ba) size).length = off + size := by
        rw [List.length_append, List.length_take, bytesAt_length]
        omega
      rw [chunk, patch, ← sizes, List.take_left]
    have rest : ld.infoTableSize - (off + size) = ld.infoTableSize - off - size := by omega
    have total : ld.infoTableSize - off = size + (ld.infoTableSize - off - size) := by omega
    rw [cache, front, rest, List.append_assoc, patched.flash]
    conv_rhs => rw [total, bytesAt_append]
    congr 2
    by_cases done : ld.infoTableSize - off - size = 0
    · simp [done, LowerDevice.bytesAt]
    · obtain rfl : ld.erasesize = size := by omega
      rw [sound.ba2addr_eq, sound.ba2addr_eq, Nat.succ_mul]

/-! ## The mapping of a table -/

def Misplaced (capacity signatureBa endBa : Nat) (image : List Byte) (lb : Nat) : Prop :=
  (capacity ≤ (imageMapping image lb).toNat ∧ (imageMapping image lb).toNat < endBa) ∨
    (imageMapping image lb).toNat = signatureBa

/-- What the first loop of `nmbm_check_info_table` finds in the first `count` entries:
none is misplaced and `minimum` is the lowest above the table, or one is. -/
def MappingChecked (capacity signatureBa endBa : Nat) (image : List Byte) (count : Nat) :
    Option Nat → Prop
  | none => ∃ lb, lb < count ∧ Misplaced capacity signatureBa endBa image lb
  | some minimum =>
    (∀ lb, lb < count → ¬Misplaced capacity signatureBa endBa image lb ∧
      (endBa ≤ (imageMapping image lb).toNat → minimum ≤ (imageMapping image lb).toNat)) ∧
    minimum ≤ signatureBa ∧
    (minimum = signatureBa ∨ ∃ lb, lb < count ∧ (imageMapping image lb).toNat = minimum ∧
      endBa ≤ minimum)

theorem checkMapping_spec (ni : Instance) (endBa : Nat) (image : List Byte) :
    MappingChecked ni.dataBlockCount ni.signatureBa endBa image ni.dataBlockCount
      (checkMapping ni endBa image) := by
  have entries (count : Nat) : MappingChecked ni.dataBlockCount ni.signatureBa endBa image count
      ((List.range count).foldlM (fun minimum lb =>
        let pb := (imageMapping image lb).toNat
        if (ni.dataBlockCount ≤ pb ∧ pb < endBa) ∨ pb = ni.signatureBa then
          none
        else if endBa ≤ pb ∧ pb < minimum then
          some pb
        else
          some minimum) ni.signatureBa) := by
    induction count with
    | zero => exact ⟨fun _ below => absurd below (by omega), le_rfl, Or.inl rfl⟩
    | succ count ih =>
      rw [List.range_succ, List.foldlM_append]
      generalize ((List.range count).foldlM _ ni.signatureBa : Option Nat) = before at ih ⊢
      cases before with
      | none =>
        obtain ⟨lb, below, misplaced⟩ := ih
        exact ⟨lb, by omega, misplaced⟩
      | some minimum =>
        obtain ⟨placed, low, reached⟩ := ih
        change MappingChecked ni.dataBlockCount ni.signatureBa endBa image (count + 1)
          ((if (ni.dataBlockCount ≤ (imageMapping image count).toNat ∧
              (imageMapping image count).toNat < endBa) ∨
              (imageMapping image count).toNat = ni.signatureBa then none
            else if endBa ≤ (imageMapping image count).toNat ∧
              (imageMapping image count).toNat < minimum then
              some (imageMapping image count).toNat
            else some minimum) >>= pure)
        rw [bind_pure]
        split
        · exact ⟨count, by omega, ‹_›⟩
        · rename_i fine
          split
          · rename_i lower
            refine ⟨fun lb below => ?_, by omega, Or.inr ⟨count, by omega, rfl, lower.1⟩⟩
            by_cases last : lb = count
            · rw [last]
              exact ⟨fine, fun _ => le_rfl⟩
            · have := placed lb (by omega)
              exact ⟨this.1, fun above => (lower.2.trans_le (this.2 above)).le⟩
          · rename_i notLower
            refine ⟨fun lb below => ?_, low, reached.imp_right fun ⟨lb, below, is⟩ =>
              ⟨lb, by omega, is⟩⟩
            by_cases last : lb = count
            · rw [last]
              exact ⟨fine, fun above => by omega⟩
            · exact placed lb (by omega)
  exact entries ni.dataBlockCount

/-! ## One table -/

structure Found (ld : LowerDevice) (flash : Flash) (capacity signatureBa : Nat)
    (table : LoadedTable) : Prop where
  stop : table.endBa = table.startBa + ld.infoTableBlocks
  image : table.image = ld.bytesAt flash (ld.ba2addr table.startBa) ld.infoTableSize
  count : table.writeCount = imageWriteCount table.image
  checked : checkHeader table.image ld.infoTableSize = true
  mapping : ∃ minimum, table.mappingBlocksTopBa = subU32 minimum 1 ∧
    MappingChecked capacity signatureBa table.endBa table.image capacity (some minimum)

def taken (ld : LowerDevice) (state : State) (tableLoaded : Bool) (table : LoadedTable) : State :=
  if !tableLoaded ∨ state.ni.infoTable.writeCount < table.writeCount then
    { state with ni := state.ni.takeTables ld table.image }
  else state

/-- The outcome of looking for a table from block `ba` on. -/
def Searched (ld : LowerDevice) (tableLoaded : Bool) (ba : Nat) (before : State)
    (result : Option LoadedTable) (after : State) : Prop :=
  match result with
  | none => Scanned before after
  | some table => ba ≤ table.startBa ∧ ∃ middle, Scanned before middle ∧
      Found ld before.flash before.ni.dataBlockCount before.ni.signatureBa table ∧
      after = taken ld middle tableLoaded table

theorem tryLoadInfoTable_spec (sound : ld.Sound)
    (length : state.ni.infoTableCache.length = ld.infoTableSize) :
    Ensures (tryLoadInfoTable ld ba tableLoaded) state
      (Searched ld tableLoaded ba state) := by
  have blocks := sound.infoTableBlocks_spec
  have blocksPos := sound.infoTableBlocks_pos
  unfold tryLoadInfoTable
  refine (tryLoadLoop_spec sound length (Nat.zero_le _)).bind fun window after read => ?_
  obtain ⟨scanned, windowRead⟩ := read
  cases window with
  | none => exact .pure scanned
  | some window =>
    obtain ⟨start, stop, off⟩ := window
    refine .getNi_bind (.ite (fun _ => .pure scanned) fun all => ?_)
    refine .ite (fun _ => .pure scanned) fun checked => ?_
    obtain ⟨stopEq, _, startEq, cache⟩ := (windowRead start stop off rfl).2
      (by rw [Nat.zero_add]; exact blocks.1) (by rw [Nat.zero_add]; exact blocks.2) (by omega)
    obtain rfl : start = ba := startEq rfl blocksPos
    rw [List.take_zero, List.nil_append, Nat.sub_zero, ← scanned.flash] at cache
    split
    · exact .pure scanned
    · rename_i top usable
      -- The mapping has been checked together with the block states
      have mapping : ∃ minimum, top = subU32 minimum 1 ∧
          checkMapping after.ni stop after.ni.infoTableCache = some minimum := by
        unfold checkInfoTable at usable
        split at usable
        · cases usable
        · rename_i minimum found
          split at usable
          · exact ⟨minimum, (Option.some.inj usable).symm, found⟩
          · cases usable
      obtain ⟨minimum, topEq, foundMinimum⟩ := mapping
      have spec := checkMapping_spec after.ni stop after.ni.infoTableCache
      rw [foundMinimum] at spec
      rw [scanned.flash] at cache
      rw [scanned.capacity, scanned.signatureBa] at spec
      have found : Found ld state.flash state.ni.dataBlockCount state.ni.signatureBa ⟨start, stop, imageWriteCount after.ni.infoTableCache, top,
          after.ni.infoTableCache⟩ :=
        ⟨stopEq, cache, rfl, by simpa using checked, minimum, topEq, spec⟩
      by_cases newer : !tableLoaded ∨
          after.ni.infoTable.writeCount < imageWriteCount after.ni.infoTableCache
      · rw [if_pos newer]
        exact ⟨le_rfl, after, scanned, found, (if_pos newer).symm⟩
      · rw [if_neg newer]
        exact ⟨le_rfl, after, scanned, found, (if_neg newer).symm⟩

theorem searchInfoTableLoop_spec (sound : ld.Sound)
    (length : state.ni.infoTableCache.length = ld.infoTableSize) :
    Ensures (searchInfoTableLoop ld tableLoaded blocks ba) state
      (Searched ld tableLoaded ba state) := by
  induction blocks generalizing ba state with
  | zero => exact .pure (Scanned.refl state)
  | succ blocks ih =>
    unfold searchInfoTableLoop
    refine (tryLoadInfoTable_spec sound length).bind fun result middle searched => ?_
    cases result with
    | some table => exact .pure searched
    | none =>
      have scanned : Scanned state middle := searched
      refine (ih (scanned.length.trans length)).mono fun result after rest => ?_
      cases result with
      | none => exact scanned.trans rest
      | some table =>
        obtain ⟨low, found, foundScanned, is, taken⟩ := rest
        rw [scanned.flash, scanned.capacity, scanned.signatureBa] at is
        exact ⟨by omega, found, scanned.trans foundScanned, is, taken⟩

theorem searchInfoTable_spec (sound : ld.Sound) {limit : Nat}
    (length : state.ni.infoTableCache.length = ld.infoTableSize) :
    Ensures (searchInfoTable ld ba limit tableLoaded) state
      (Searched ld tableLoaded ba state) :=
  searchInfoTableLoop_spec sound length

end MetaFilogic.Nmbm



