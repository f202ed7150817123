import MetaFilogic.Nmbm.Frame
import Mathlib.Data.List.TakeDrop

/-!
# Data on flash

What a successful write leaves on flash, byte for byte.  Management data longer
than a block lies in chunks of one block each, in ascending blocks with blocks
skipped in between; `StoredAt` describes such a layout and survives everything
that stays outside its range.
-/

namespace MetaFilogic.Nmbm

open Bytes

variable {ld : LowerDevice}

/-! ## Bytes at addresses -/

section Bytes

variable (flash : Flash)

@[simp]
theorem bytesAt_length (addr size : Nat) : (ld.bytesAt flash addr size).length = size := by
  simp [LowerDevice.bytesAt]

theorem bytesAt_append (addr front back : Nat) :
    ld.bytesAt flash addr (front + back) =
      ld.bytesAt flash addr front ++ ld.bytesAt flash (addr + front) back := by
  simp [LowerDevice.bytesAt, List.range_add, Nat.add_assoc]

variable {addr size : Nat}

theorem bytesAt_take {count : Nat} (within : count ≤ size) :
    (ld.bytesAt flash addr size).take count = ld.bytesAt flash addr count := by
  obtain ⟨rest, rfl⟩ := Nat.exists_eq_add_of_le within
  rw [bytesAt_append, List.take_append_of_le_length (by simp), List.take_of_length_le (by simp)]

theorem bytesAt_drop {count : Nat} (within : count ≤ size) :
    (ld.bytesAt flash addr size).drop count = ld.bytesAt flash (addr + count) (size - count) := by
  obtain ⟨rest, rfl⟩ := Nat.exists_eq_add_of_le within
  rw [bytesAt_append, List.drop_append, List.drop_of_length_le (by simp)]
  simp

theorem bytesAt_congr {other : Flash}
    (same : ∀ index, index < size → other.page ((addr + index) / ld.writesize) =
      flash.page ((addr + index) / ld.writesize)) :
    ld.bytesAt other addr size = ld.bytesAt flash addr size := by
  apply List.map_congr_left
  intro index among
  rw [LowerDevice.byteAt, LowerDevice.byteAt, same index (List.mem_range.mp among)]

omit flash in
theorem sized_length (ld : LowerDevice) (page : PageData) : (ld.sized page).data.length = ld.writesize :=
  List.takeD_length _ _ _

theorem bytesAt_page {page : Nat} (positive : 0 < ld.writesize) (within : size ≤ ld.writesize) :
    ld.bytesAt flash (page * ld.writesize) size =
      (ld.sized (flash.page page)).data.take size := by
  have length := sized_length ld (flash.page page)
  apply List.ext_getElem
  · simp [length, within]
  · intro index below _
    have inPage : index < ld.writesize := by
      rw [bytesAt_length] at below
      omega
    have pageEq : (page * ld.writesize + index) / ld.writesize = page := by
      rw [Nat.mul_comm, Nat.mul_add_div positive, Nat.div_eq_of_lt inPage, Nat.add_zero]
    have offEq : (page * ld.writesize + index) % ld.writesize = index := by
      rw [Nat.mul_comm, Nat.mul_add_mod, Nat.mod_eq_of_lt inPage]
    simp only [LowerDevice.bytesAt, List.getElem_map, List.getElem_range, LowerDevice.byteAt,
      pageEq, offEq, get8, List.getElem_take]
    exact (List.getElem_eq_getD 0).symm

theorem bytesAt_aligned (positive : 0 < ld.writesize) (aligned : addr % ld.writesize = 0)
    (within : size ≤ ld.writesize) :
    ld.bytesAt flash addr size = (ld.sized (flash.page (ld.pageOf addr))).data.take size := by
  have whole : addr / ld.writesize * ld.writesize = addr :=
    Nat.div_mul_cancel (Nat.dvd_of_mod_eq_zero aligned)
  conv_lhs => rw [← whole]
  exact bytesAt_page flash positive within

end Bytes

theorem Flash.AgreesOutside.eq {before after : Flash}
    (agrees : before.AgreesOutside ld (fun _ => False) after) : after = before := by
  have page : after.page = before.page := funext fun page => agrees.page page id
  have bad : after.bad = before.bad := funext fun block => agrees.bad block id
  cases before
  cases after
  simp_all

theorem flash_of_touches (ld : LowerDevice) {α : Type} {program : NmbmM α}
    (reads : ∀ region, Preserves (Touches ld region) program) (state : State) :
    Ensures program state fun _ after => after.flash = state.flash :=
  (reads (fun _ => False) state).flash.eq

/-! ## Verified writes -/

theorem lowerWritePage_spec (addr : Nat) (data oob : Option (List Byte)) (mode : OobMode)
    (state : State) :
    Ensures (lowerWritePage ld addr data oob mode) state fun ret after =>
      (∀ other, other ≠ ld.pageOf addr → after.flash.page other = state.flash.page other) ∧
        (ret = 0 → ∀ bytes, data = some bytes →
          (after.flash.page (ld.pageOf addr)).data = bytes) := by
  by_cases high : ld.size ≤ addr
  · simp only [lowerWritePage, high, if_true]
    refine ⟨fun _ _ => rfl, fun success => ?_⟩
    exact absurd (show (-EINVAL : Int) = 0 from success) (by decide)
  · simp only [lowerWritePage, high, if_false]
    refine ⟨fun other distinct => ?_, fun success bytes given => ?_⟩
    · change (LowerDevice.afterProgram _ state.flash _ data oob).page other = _
      unfold LowerDevice.afterProgram
      dsimp only
      split <;> simp [LowerDevice.setPage, distinct]
    · have done : (ld.fault state.clock).writeRet = 0 := success
      change ((LowerDevice.afterProgram _ state.flash _ data oob).page _).data = _
      simp [LowerDevice.afterProgram, done, LowerDevice.setPage, given]

theorem writePhysPage_spec (addr : Nat) (data : List Byte) (oob : Option (List Byte))
    (mode : OobMode) (state : State) :
    Ensures (writePhysPage ld addr (some data) oob mode) state fun success after =>
      (∀ other, other ≠ ld.pageOf addr → after.flash.page other = state.flash.page other) ∧
        (success = true → (after.flash.page (ld.pageOf addr)).data = data) := by
  have tries (count : Nat) (state : State) :
      Ensures (retry (lowerWritePage ld addr (some data) oob mode) count) state
        fun success after =>
          (∀ other, other ≠ ld.pageOf addr →
            after.flash.page other = state.flash.page other) ∧
              (success = true → (after.flash.page (ld.pageOf addr)).data = data) := by
    induction count generalizing state with
    | zero => exact Ensures.pure ⟨fun _ _ => rfl, nofun⟩
    | succ count ih =>
      refine (lowerWritePage_spec addr (some data) oob mode state).bind
        fun ret middle written => ?_
      refine .ite (fun success => .pure ⟨written.1, fun _ => written.2 success data rfl⟩)
        fun _ => ?_
      refine (ih middle).mono fun success after again => ⟨fun other distinct => ?_, again.2⟩
      rw [again.1 other distinct, written.1 other distinct]
  exact Ensures.getNi_bind (.ite (fun _ => .pure ⟨fun _ _ => rfl, nofun⟩) fun _ => tries _ state)

section Write

variable (sound : ld.Sound)

include sound

omit sound in
theorem nmbnWriteVerifyDataLoop_nil (count off : Nat) :
    nmbnWriteVerifyDataLoop ld count off [] = pure true := by
  cases count with
  | zero => rfl
  | succ count => simp [nmbnWriteVerifyDataLoop]

theorem nmbnWriteVerifyDataLoop_spec {count off : Nat} {ptr : List Byte} (state : State)
    (enough : ptr.length ≤ count) (aligned : off % ld.writesize = 0) :
    Ensures (nmbnWriteVerifyDataLoop ld count off ptr) state fun success after =>
      (∀ page, page < ld.pageOf off → after.flash.page page = state.flash.page page) ∧
        (success = true → ld.bytesAt after.flash off ptr.length = ptr) := by
  have positive := sound.writesize_pos
  induction count generalizing off ptr state with
  | zero =>
    obtain rfl : ptr = [] := List.length_eq_zero_iff.mp (by omega)
    exact .pure ⟨fun _ _ => rfl, fun _ => rfl⟩
  | succ count ih =>
    unfold nmbnWriteVerifyDataLoop
    refine .ite (fun empty => ?_) fun some => ?_
    · obtain rfl : ptr = [] := List.length_eq_zero_iff.mp empty
      exact .pure ⟨fun _ _ => rfl, fun _ => rfl⟩
    · simp only [sound.and_writesizeMask, aligned, Nat.sub_zero]
      generalize sizeEq : min ld.writesize ptr.length = size
      refine .modifyNi_bind (.getNi_bind ?_)
      refine (writePhysPage_spec off _ none .placeOob _).bind fun success written write => ?_
      refine .ite (fun failed => ?_) fun _ => ?_
      · exact .pure ⟨fun page below => write.1 page (by omega), by simp⟩
      · rename_i wrote
        have done : success = true := by simpa using wrote
        have content := write.2 done
        refine (flash_of_touches ld (fun _ => touches_readPhysPage _ _) _).bind
          fun result verified sameVerified => ?_
        refine (flash_of_touches ld (fun _ => touches_cacheData _) _).bind
          fun _ cached sameCached => ?_
        have same : cached.flash = written.flash := sameCached.trans sameVerified
        have below (page : Nat) (lower : page < ld.pageOf off) :
            cached.flash.page page = state.flash.page page := by
          rw [same]
          exact write.1 page (by omega)
        refine .ite (fun _ => .pure ⟨below, by simp⟩) fun _ => ?_
        refine .ite (fun _ => .pure ⟨below, by simp⟩) fun _ => ?_
        -- The first chunk lies in a page below all the following ones
        have chunkBytes : ld.bytesAt cached.flash off size = ptr.take size := by
          have fits : size ≤ ld.writesize := by omega
          have buffer : (patch (fill ld.writesize 0xff) 0 (ptr.take size)).length =
              ld.writesize := by
            rw [patch_length (by simp; omega), fill_length]
          rw [bytesAt_aligned _ positive aligned fits, same]
          simp only [LowerDevice.sized, content]
          have chunk : (ptr.take size).length = size := by simp; omega
          rw [List.takeD_eq_take _ buffer.ge, List.take_take, Nat.min_eq_left fits, patch,
            List.take_zero, List.nil_append, List.take_append_of_le_length chunk.ge,
            List.take_of_length_le chunk.le]
        by_cases whole : ld.writesize ≤ ptr.length
        · obtain rfl : ld.writesize = size := by omega
          have length : ptr.length = ld.writesize + (ptr.drop ld.writesize).length := by
            rw [List.length_drop]
            omega
          have nextPage : ld.pageOf (off + ld.writesize) = ld.pageOf off + 1 :=
            Nat.add_div_right off positive
          refine (ih cached (by omega) (by rw [Nat.add_mod_right, aligned])).mono
            fun success after rest => ⟨fun page lower => ?_, fun done => ?_⟩
          · rw [rest.1 page (by omega), below page lower]
          · have front : ld.bytesAt after.flash off ld.writesize =
                ld.bytesAt cached.flash off ld.writesize := by
              rw [bytesAt_aligned _ positive aligned le_rfl,
                bytesAt_aligned _ positive aligned le_rfl, rest.1 _ (by omega)]
            rw [length, bytesAt_append, front, chunkBytes, rest.2 done,
              List.take_append_drop]
        · obtain rfl : ptr.length = size := by omega
          rw [List.drop_length, nmbnWriteVerifyDataLoop_nil]
          exact .pure ⟨below, fun _ => by rw [chunkBytes, List.take_length]⟩

end Write

/-! ## Data in chunks -/

section Layout

variable (ld) (gap : Nat → Prop) (flash : Flash)

def Holds (ba : Nat) (chunk : List Byte) : Prop :=
  ld.bytesAt flash (ld.ba2addr ba) chunk.length = chunk

/-- The remaining `image` lies in ascending blocks from `ba` on and ends right
before block `stop`; the blocks skipped are gaps. -/
inductive Laid : Nat → Nat → List Byte → Prop where
  | nil (ba : Nat) : Laid ba ba []
  | skip {ba stop : Nat} {image : List Byte} (some : image ≠ []) (skipped : gap ba)
      (rest : Laid (ba + 1) stop image) : Laid ba stop image
  | chunk {ba stop : Nat} {image : List Byte} (some : image ≠ [])
      (holds : Holds ld flash ba (image.take ld.erasesize))
      (rest : Laid (ba + 1) stop (image.drop ld.erasesize)) : Laid ba stop image

/-- `image` is stored from block `start` on, where its first chunk is, up to and not
including block `stop`. -/
structure StoredAt (start stop : Nat) (image : List Byte) : Prop where
  some : image ≠ []
  first : Holds ld flash start (image.take ld.erasesize)
  rest : Laid ld gap flash (start + 1) stop (image.drop ld.erasesize)

end Layout

section Frame

variable {gap wider : Nat → Prop} {flash after : Flash} {region : Nat → Prop}

variable {ba stop start : Nat} {image : List Byte}

theorem Holds.frame (sound : ld.Sound) {chunk : List Byte} (holds : Holds ld flash ba chunk)
    (fits : chunk.length ≤ ld.erasesize) (agrees : flash.AgreesOutside ld region after)
    (outside : ¬region ba) : Holds ld after ba chunk := by
  refine (bytesAt_congr flash fun index below => agrees.page _ ?_).trans holds
  have block : ld.blockOf (ld.ba2addr ba + index) = ba := sound.blockOf_ba2addr_add (by omega)
  rwa [← LowerDevice.pageOf, sound.pageOf_div, block]

theorem Laid.le (laid : Laid ld gap flash ba stop image) : ba ≤ stop := by
  induction laid with
  | nil => exact le_rfl
  | skip _ _ _ ih => omega
  | chunk _ _ _ ih => omega

theorem Laid.frame (sound : ld.Sound) (laid : Laid ld gap flash ba stop image)
    (agrees : flash.AgreesOutside ld region after)
    (outside : ∀ block, Between ba stop block → ¬region block) :
    Laid ld gap after ba stop image := by
  induction laid with
  | nil => exact .nil _
  | skip some skipped rest ih =>
    exact .skip some skipped (ih fun block between =>
      outside block ⟨by have := between.1; omega, between.2⟩)
  | chunk some holds rest ih =>
    have low := rest.le
    exact .chunk some (holds.frame sound (by simp) agrees (outside _ ⟨le_rfl, by omega⟩))
      (ih fun block between => outside block ⟨by have := between.1; omega, between.2⟩)

theorem Laid.mono (laid : Laid ld gap flash ba stop image)
    (weaken : ∀ block, gap block → wider block) : Laid ld wider flash ba stop image := by
  induction laid with
  | nil => exact .nil _
  | skip some skipped _ ih => exact .skip some (weaken _ skipped) ih
  | chunk some holds _ ih => exact .chunk some holds ih

theorem StoredAt.lt (stored : StoredAt ld gap flash start stop image) : start < stop :=
  stored.rest.le

theorem StoredAt.frame (sound : ld.Sound) (stored : StoredAt ld gap flash start stop image)
    (agrees : flash.AgreesOutside ld region after)
    (outside : ∀ block, Between start stop block → ¬region block) :
    StoredAt ld gap after start stop image where
  some := stored.some
  first := stored.first.frame sound (by simp) agrees (outside _ ⟨le_rfl, stored.lt⟩)
  rest := stored.rest.frame sound agrees fun block between =>
    outside block ⟨by have := between.1; omega, between.2⟩

theorem StoredAt.mono (stored : StoredAt ld gap flash start stop image)
    (weaken : ∀ block, gap block → wider block) : StoredAt ld wider flash start stop image :=
  ⟨stored.some, stored.first, stored.rest.mono weaken⟩

end Frame

def Instance.NotGood (ni : Instance) (ba : Nat) : Prop := ni.getBlockState ba ≠ BLOCK_ST_GOOD

section WriteRange

variable (sound : ld.Sound)

include sound

variable {ba limit : Nat} {start : Option Nat} {ptr : List Byte}

theorem nmbnWriteVerifyData_holds {chunk : List Byte} (state : State) :
    Ensures (nmbnWriteVerifyData ld (ld.ba2addr ba) chunk) state fun success after =>
      success = true → Holds ld after.flash ba chunk := by
  have aligned : ld.ba2addr ba % ld.writesize = 0 := by
    rw [sound.ba2addr_eq, ← sound.pages_mul, ← Nat.mul_assoc]
    exact Nat.mul_mod_left _ _
  exact (nmbnWriteVerifyDataLoop_spec sound state le_rfl aligned).mono
    fun _ _ written => written.2

omit sound in
theorem setBlockState_bad (ba : Nat) (state : State) :
    Ensures (setBlockState ba BLOCK_ST_BAD) state fun _ after => after.ni.NotGood ba := by
  change (state.ni.setBlockState ba BLOCK_ST_BAD).getBlockState ba ≠ BLOCK_ST_GOOD
  rw [Instance.getBlockState_set_same]
  decide

omit sound in
theorem retireBlock_bad (ba : Nat) (state : State) :
    Ensures (retireBlock ld ba) state fun _ after => after.ni.NotGood ba :=
  setBlockState_bad ba _

/-- What a write of `ptr` from block `ba` on has done when it reports a range: the
data lies in ascending blocks below the limit, with gaps only at blocks that are
not good any more.  `start` is the block of the first chunk, once there is one. -/
def RangeWritten (ld : LowerDevice) (ba limit : Nat) (ptr : List Byte) (start : Option Nat)
    (range : Option (Nat × Nat)) (after : State) : Prop :=
  ∀ rangeStart rangeEnd, range = some (rangeStart, rangeEnd) →
    rangeEnd ≤ limit ∧
      (∀ first, start = some first → rangeStart = first ∧
        Laid ld after.ni.NotGood after.flash ba rangeEnd ptr) ∧
      (start = none → ptr ≠ [] → ba ≤ rangeStart ∧
        StoredAt ld after.ni.NotGood after.flash rangeStart rangeEnd ptr)

omit sound in
theorem RangeWritten.done {after : State} (within : ba ≤ limit) :
    RangeWritten ld ba limit [] start (some (start.getD 0, ba)) after := by
  intro rangeStart rangeEnd range
  simp only [Option.some.injEq, Prod.mk.injEq] at range
  obtain ⟨rfl, rfl⟩ := range
  exact ⟨within, fun first given => ⟨by simp [given], .nil _⟩, fun _ some => absurd rfl some⟩

omit sound in
theorem RangeWritten.skip {range : Option (Nat × Nat)} {after : State} (nonempty : ptr ≠ [])
    (gap : after.ni.NotGood ba) (rest : RangeWritten ld (ba + 1) limit ptr start range after) :
    RangeWritten ld ba limit ptr start range after := by
  intro rangeStart rangeEnd found
  obtain ⟨upper, given, fresh⟩ := rest rangeStart rangeEnd found
  refine ⟨upper, fun first is => ?_, fun is _ => ?_⟩
  · exact ⟨(given first is).1, .skip nonempty gap (given first is).2⟩
  · exact ⟨by have := (fresh is nonempty).1; omega, (fresh is nonempty).2⟩

omit sound in
theorem RangeWritten.chunk {range : Option (Nat × Nat)} {after : State} (nonempty : ptr ≠ [])
    (holds : Holds ld after.flash ba (ptr.take ld.erasesize))
    (rest : RangeWritten ld (ba + 1) limit (ptr.drop ld.erasesize) (some (start.getD ba))
      range after) : RangeWritten ld ba limit ptr start range after := by
  intro rangeStart rangeEnd found
  obtain ⟨upper, given, _⟩ := rest rangeStart rangeEnd found
  obtain ⟨same, laid⟩ := given _ rfl
  refine ⟨upper, fun first is => ?_, fun is _ => ?_⟩
  · exact ⟨by simpa [is] using same, .chunk nonempty holds laid⟩
  · obtain rfl : rangeStart = ba := by simpa [is] using same
    exact ⟨le_rfl, nonempty, holds, laid⟩

omit sound in
theorem drop_take_length (ptr : List Byte) (count : Nat) :
    ptr.drop (ptr.take count).length = ptr.drop count := by
  rw [List.length_take]
  rcases le_total count ptr.length with within | short
  · rw [min_eq_left within]
  · rw [min_eq_right short, List.drop_length, List.drop_of_length_le short]

/-- What `nmbm_write_mgmt_range` has written when it succeeds. -/
theorem writeMgmtRangeLoop_spec {blocks : Nat} (state : State) :
    Ensures (writeMgmtRangeLoop ld blocks ba ptr start) state
      (RangeWritten ld ba (ba + blocks) ptr start) := by
  induction blocks generalizing ba ptr start state with
  | zero =>
    unfold writeMgmtRangeLoop
    by_cases empty : ptr.length = 0
    · obtain rfl : ptr = [] := List.length_eq_zero_iff.mp empty
      exact .pure (.done le_rfl)
    · rw [if_neg empty]
      exact .pure fun _ _ none => by cases none
  | succ blocks ih =>
    have limit : ba + (blocks + 1) = ba + 1 + blocks := by omega
    rw [limit]
    unfold writeMgmtRangeLoop
    refine .ite (fun empty => ?_) fun nonempty => ?_
    · obtain rfl : ptr = [] := List.length_eq_zero_iff.mp empty
      exact .pure (.done (by omega))
    · have some : ptr ≠ [] := fun empty => nonempty (by simp [empty])
      have confined (ptr : List Byte) (start : Option Nat) :
          Preserves (Touches ld (Between (ba + 1) (ba + 1 + blocks)))
            (writeMgmtRangeLoop ld blocks (ba + 1) ptr start) :=
        touches_writeMgmtRangeLoop sound fun _ between => between
      have skipping (middle : State) (bad : middle.ni.NotGood ba) :
          Ensures (writeMgmtRangeLoop ld blocks (ba + 1) ptr start) middle
            (RangeWritten ld ba (ba + 1 + blocks) ptr start) :=
        ((ih middle).both ((confined _ _).ensures middle)).mono fun range after both =>
          both.1.skip some fun good => bad (both.2.good good)
      refine .getNi_bind (.ite (skipping state) fun _ => ?_)
      refine Ensures.bind (.of_true _ _) fun bad checked _ => .ite (fun _ => ?_) fun _ => ?_
      · exact (setBlockState_bad ba checked).bind fun _ => skipping
      refine Ensures.bind (.of_true _ _) fun erased blank _ => .ite (fun _ => ?_) fun _ => ?_
      · exact (retireBlock_bad ba blank).bind fun _ => skipping
      refine (nmbnWriteVerifyData_holds sound blank).bind fun success written holds => ?_
      refine .ite (fun done => ?_) fun _ => ?_
      · rw [drop_take_length]
        refine ((ih written).both ((confined _ _).ensures written)).mono
          fun range after both => both.1.chunk some ?_
        exact (holds done).frame sound (by simp) both.2.flash fun between => by
          have := between.1
          omega
      · exact (retireBlock_bad ba written).bind fun _ => skipping

end WriteRange

end MetaFilogic.Nmbm
