import MetaFilogic.Nmbm.MtdAccounting

/-!
# The pages of a partial write

A write that does not start or end at a page boundary programs the requested bytes with
0xff around them.  `nmbm_mtd_write_data` sets the bytes behind the data to 0xff,
`nmbm_write_range` leaves there what its page cache held before.
-/

namespace MetaFilogic.Nmbm

open Bytes

variable {ld : LowerDevice}

/-! ## Writes and the page cache -/

theorem lowerWritePage_run (addr : Nat) (data oob : Option (List Byte)) (mode : OobMode)
    (state : State) :
    lowerWritePage ld addr data oob mode state =
      let fault := ld.fault state.clock
      let flash := LowerDevice.afterProgram fault state.flash (ld.pageOf addr) data oob
      if ld.size ≤ addr then (-EINVAL, { state with clock := state.clock + 1 })
      else
        (fault.writeRet, { state with
          flash
          clock := state.clock + 1
          trace := .program (ld.blockOf addr) flash :: state.trace }) := by
  rw [lowerWritePage, bind_run, bind_run, ite_apply]
  rfl

theorem lowerWritePage_withCache (addr : Nat) (data oob : Option (List Byte)) (mode : OobMode)
    (state : State) (cache : PageData) :
    lowerWritePage ld addr data oob mode (state.withCache cache) =
      ((lowerWritePage ld addr data oob mode state).1,
        (lowerWritePage ld addr data oob mode state).2.withCache cache) := by
  rw [lowerWritePage_run, lowerWritePage_run]
  dsimp only
  split <;> rfl

theorem lowerWritePage_ni (addr : Nat) (data oob : Option (List Byte)) (mode : OobMode)
    (state : State) : (lowerWritePage ld addr data oob mode state).2.ni = state.ni := by
  rw [lowerWritePage_run]
  dsimp only
  split <;> rfl

theorem retry_withCache {request : NmbmM Int}
    (alike : ∀ (state : State) (cache : PageData), request (state.withCache cache) =
      ((request state).1, (request state).2.withCache cache)) (tries : Nat) (state : State)
    (cache : PageData) :
    retry request tries (state.withCache cache) =
      ((retry request tries state).1, (retry request tries state).2.withCache cache) := by
  induction tries generalizing state with
  | zero => rfl
  | succ tries ih =>
    rw [retry, bind_run, bind_run, alike, ite_apply, ite_apply]
    split
    · rfl
    · exact ih _

theorem retry_ni {request : NmbmM Int} (keeps : ∀ state, (request state).2.ni = state.ni)
    (tries : Nat) (state : State) : (retry request tries state).2.ni = state.ni := by
  induction tries generalizing state with
  | zero => rfl
  | succ tries ih =>
    rw [retry, bind_run, ite_apply]
    split
    · exact keeps state
    · exact (ih _).trans (keeps state)

theorem writePhysPage_withCache (addr : Nat) (data oob : Option (List Byte)) (mode : OobMode)
    (state : State) (cache : PageData) :
    writePhysPage ld addr data oob mode (state.withCache cache) =
      ((writePhysPage ld addr data oob mode state).1,
        (writePhysPage ld addr data oob mode state).2.withCache cache) := by
  rw [writePhysPage, getNi_run, getNi_run]
  by_cases readOnly : state.ni.flags.readOnly = true
  · rw [if_pos (show (state.withCache cache).ni.flags.readOnly = true from readOnly), if_pos readOnly]
    rfl
  · rw [if_neg (show ¬(state.withCache cache).ni.flags.readOnly = true from readOnly),
      if_neg readOnly]
    exact retry_withCache (lowerWritePage_withCache addr data oob mode) _ _ _

theorem writePhysPage_ni (addr : Nat) (data oob : Option (List Byte)) (mode : OobMode)
    (state : State) : (writePhysPage ld addr data oob mode state).2.ni = state.ni := by
  rw [writePhysPage, getNi_run, ite_apply]
  split
  · rfl
  · exact retry_ni (lowerWritePage_ni addr data oob mode) _ _

theorem writeLogicPage_run (addr : Nat) (data oob : Option (List Byte)) (mode : OobMode)
    (state : State) :
    writeLogicPage ld addr data oob mode state =
      match state.ni.physicalAddr ld addr with
      | none => (- EIO, state)
      | some paddr =>
        let written := writePhysPage ld paddr data oob mode state
        if written.1 = true then (0, written.2)
        else
          (do
            setBlockState (state.ni.blockMapping (ld.addr2ba addr)).toNat BLOCK_ST_NEED_REMAP
            let _ ← updateInfoTable ld
            return - EIO : NmbmM Int) written.2 := by
  rw [writeLogicPage, writeThroughMapping, getNi_run]
  dsimp only [Instance.physicalAddr]
  by_cases unmapped : isUnmapped (state.ni.blockMapping (ld.addr2ba addr))
  · rw [if_pos unmapped, if_pos (Or.inl unmapped)]
    rfl
  · rw [if_neg unmapped]
    by_cases bad : state.ni.getBlockState (state.ni.blockMapping (ld.addr2ba addr)).toNat =
        BLOCK_ST_BAD
    · rw [if_pos bad, if_pos (Or.inr bad)]
      rfl
    · rw [if_neg bad, if_neg (not_or.mpr ⟨unmapped, bad⟩), bind_run, ite_apply]
      rfl

/-- Whether a page program succeeds does not depend on the page cache, and a success changes
nothing in memory. -/
theorem writeLogicPage_withCache (addr : Nat) (data oob : Option (List Byte)) (mode : OobMode)
    (state : State) (cache : PageData) :
    (writeLogicPage ld addr data oob mode (state.withCache cache)).1 =
        (writeLogicPage ld addr data oob mode state).1 ∧
      ((writeLogicPage ld addr data oob mode state).1 = 0 →
        (writeLogicPage ld addr data oob mode (state.withCache cache)).2 =
            (writeLogicPage ld addr data oob mode state).2.withCache cache ∧
          (writeLogicPage ld addr data oob mode state).2.ni = state.ni) := by
  have same : (state.withCache cache).ni.physicalAddr ld addr = state.ni.physicalAddr ld addr := rfl
  rw [writeLogicPage_run, writeLogicPage_run, same]
  cases state.ni.physicalAddr ld addr with
  | none => exact ⟨rfl, fun none => absurd none (by decide : ¬(- EIO : Int) = 0)⟩
  | some paddr =>
    dsimp only
    rw [writePhysPage_withCache]
    have kept := @writePhysPage_ni ld paddr data oob mode state
    generalize writePhysPage ld paddr data oob mode state = written at kept ⊢
    by_cases good : written.1 = true
    · rw [if_pos good, if_pos good]
      exact ⟨rfl, fun _ => ⟨rfl, kept⟩⟩
    · rw [if_neg good, if_neg good]
      exact ⟨rfl, fun none => absurd none (by decide : ¬(- EIO : Int) = 0)⟩

theorem writePhysPage_outside {addr : Nat} (outside : ld.size ≤ addr) (data oob : Option (List Byte))
    (mode : OobMode) (state : State) : (writePhysPage ld addr data oob mode state).1 = false := by
  have tries (count : Nat) (state : State) :
      (retry (lowerWritePage ld addr data oob mode) count state).1 = false := by
    induction count generalizing state with
    | zero => rfl
    | succ count ih =>
      rw [retry, bind_run, lowerWritePage_run]
      dsimp only
      rw [if_pos outside, if_neg (by decide : ¬(-EINVAL : Int) = 0)]
      exact ih _
  rw [writePhysPage, getNi_run, ite_apply]
  split
  · rfl
  · exact tries _ _

theorem writePhysPage_calm {state : State} (calm : Calm ld state)
    (writable : state.ni.flags.readOnly = false) {addr : Nat} (inside : addr < ld.size)
    (data oob : Option (List Byte)) (mode : OobMode) :
    (writePhysPage ld addr data oob mode state).1 = true ∧
      Calm ld (writePhysPage ld addr data oob mode state).2 := by
  have now : ld.fault state.clock = {} := calm _ le_rfl
  have written : (lowerWritePage ld addr data oob mode state).1 = 0 ∧
      (lowerWritePage ld addr data oob mode state).2.clock = state.clock + 1 := by
    rw [lowerWritePage_run]
    dsimp only
    rw [if_neg (Nat.not_le.mpr inside), now]
    exact ⟨rfl, rfl⟩
  rw [writePhysPage, getNi_run, if_neg (by simp [writable]), NMBM_TRY_COUNT, retry, bind_run,
    if_pos written.1]
  exact ⟨rfl, calm.next (written.2 ▸ Nat.le_succ _)⟩

theorem writeLogicPage_unplaced {state : State} {addr : Nat}
    (unplaced : ∀ number, state.ni.place ld addr ≠ .page number) (data oob : Option (List Byte))
    (mode : OobMode) : (writeLogicPage ld addr data oob mode state).1 ≠ 0 := by
  rw [writeLogicPage_run]
  cases is : state.ni.physicalAddr ld addr with
  | none => exact (by decide : (- EIO : Int) ≠ 0)
  | some paddr =>
    have outside : ld.size ≤ paddr := by
      by_contra inside
      refine unplaced (ld.pageOf paddr) ?_
      simp only [Instance.place, is, if_neg inside]
    dsimp only
    rw [if_neg (by simp [writePhysPage_outside outside])]
    exact (by decide : (- EIO : Int) ≠ 0)

theorem writeLogicPage_calm {state : State} (calm : Calm ld state)
    (writable : state.ni.flags.readOnly = false) {addr number : Nat}
    (placed : state.ni.place ld addr = .page number) (data oob : Option (List Byte))
    (mode : OobMode) :
    (writeLogicPage ld addr data oob mode state).1 = 0 ∧
      Calm ld (writeLogicPage ld addr data oob mode state).2 := by
  rw [writeLogicPage_run]
  cases is : state.ni.physicalAddr ld addr with
  | none => simp [Instance.place, is] at placed
  | some paddr =>
    have inside : paddr < ld.size := by
      by_contra outside
      simp [Instance.place, is, Nat.le_of_not_lt outside] at placed
    obtain ⟨good, later⟩ := writePhysPage_calm calm writable inside data oob mode
    dsimp only
    rw [if_pos good]
    exact ⟨rfl, later⟩

/-! ## The pages of a request -/

/-- The pages a request calls for: the bytes of `dat` from `col` on in the page at `base`, and
0xff around them. -/
def pageImages (ld : LowerDevice) : (rounds base col : Nat) → (dat : List Byte) →
    List (Nat × List Byte)
  | 0, _, _, _ => []
  | rounds + 1, base, col, dat =>
    if dat = [] then []
    else
      (base, padded ld.writesize col (dat.take (min (ld.writesize - col) dat.length))) ::
        pageImages ld rounds (base + ld.writesize) 0
          (dat.drop (min (ld.writesize - col) dat.length))

/-- The pages that `nmbm_write_range` puts together, with what its page cache holds. -/
def rangeImages (ld : LowerDevice) : (rounds off : Nat) → (ptr cache : List Byte) →
    List (Nat × List Byte)
  | 0, _, _, _ => []
  | rounds + 1, off, ptr, cache =>
    if ptr.length = 0 then []
    else
      (off - (off &&& ld.writesizeMask), rangeImage ld off ptr cache) ::
        rangeImages ld rounds (off + ld.chunkAt off ptr.length)
          (ptr.drop (ld.chunkAt off ptr.length)) (rangeCache ld off ptr cache)

theorem pageImages_nil (rounds base col : Nat) : pageImages ld rounds base col [] = [] := by
  cases rounds <;> rfl

theorem rangeImages_nil (rounds off : Nat) (cache : List Byte) :
    rangeImages ld rounds off [] cache = [] := by
  cases rounds <;> rfl

/-- Program pages one after the other, up to the first failure; how many were handed over. -/
def programImages (ld : LowerDevice) (mode : OobMode) : List (Nat × List Byte) → NmbmM Nat
  | [] => return 0
  | image :: images => do
    let ret ← writeLogicPage ld image.1 (some image.2) none mode
    if ret ≠ 0 then
      return 1
    else
      let more ← programImages ld mode images
      return more + 1

def PageWrite.image (page : PageWrite) : Nat × List Byte := (page.addr, page.data.getD [])

theorem writeRangePagesLoop_images (mode : OobMode) (rounds off : Nat) (ptr : List Byte)
    (pages : List PageWrite) (state : State) (cache : PageData) :
    let images := rangeImages ld rounds off ptr cache.data
    (writeRangePagesLoop ld mode rounds off ptr pages (state.withCache cache)).1.2.2.map
        PageWrite.image =
      pages.map PageWrite.image ++ images.take (programImages ld mode images state).1 := by
  induction rounds generalizing off ptr pages state cache with
  | zero => simp [writeRangePagesLoop, rangeImages, pure, StateT.pure]
  | succ rounds ih =>
    by_cases done : ptr.length = 0
    · simp [writeRangePagesLoop, rangeImages, done, pure, StateT.pure]
    · let next : PageData := { cache with data := rangeCache ld off ptr cache.data }
      obtain ⟨ret, after⟩ := @writeLogicPage_withCache ld (off - (off &&& ld.writesizeMask))
        (some (rangeImage ld off ptr cache.data)) none mode state next
      rw [writeRangePagesLoop_round mode rounds off done, rangeImages, if_neg done]
      dsimp only
      rw [programImages, bind_run, show (state.withCache cache).assembled ld off ptr = state.withCache next from rfl,
        show (state.withCache cache).ni.pageCache.data = cache.data from rfl, ret]
      by_cases failed : (writeLogicPage ld (off - (off &&& ld.writesizeMask))
          (some (rangeImage ld off ptr cache.data)) none mode state).1 ≠ 0
      · rw [if_pos failed, if_pos failed]
        simp [PageWrite.image, pure, StateT.pure]
      · rw [if_neg failed, if_neg failed, (after (not_not.mp failed)).1, bind_run]
        rw [ih _ _ _ _ next]
        simp [PageWrite.image, pure, StateT.pure, next]

/-- `nmbm_mtd_write_data` without spare bytes. -/
theorem mtdWriteDataLoop_images (nm : NmbmMtd) (mode : OobMode) (rounds base col : Nat)
    (dat : List Byte) (ooboffs : Nat) (cache : PageData) (result : MtdWriteResult) (state : State)
    (column : col < ld.writesize)
    (writable : ¬(state.ni.isProtected = true ∨ state.ni.flags.readOnly = true))
    (inside : dat.length ≠ 0 → base + col + dat.length ≤ ld.ba2addr state.ni.dataBlockCount) :
    let images := pageImages ld rounds base col dat
    (mtdWriteDataLoop ld nm mode true false rounds base col dat ooboffs [] cache result
        state).1.pages.map PageWrite.image =
      result.pages.map PageWrite.image ++ images.take (programImages ld mode images state).1 := by
  induction rounds generalizing base col dat ooboffs cache result state with
  | zero => simp [mtdWriteDataLoop, pageImages, pure, StateT.pure]
  | succ rounds ih =>
    by_cases done : dat = []
    · simp [mtdWriteDataLoop, pageImages, done, pure, StateT.pure]
    · have some_ : dat.length ≠ 0 := mt List.length_eq_zero_iff.mp done
      have within := inside some_
      have kept := fun good => ((@writeLogicPage_withCache ld base
        (some (padded ld.writesize col (dat.take (min (ld.writesize - col) dat.length)))) none mode
          state state.ni.pageCache).2 good).2
      have single (data : Option (List Byte)) : writeSinglePage ld base data none mode state =
          writeLogicPage ld base data none mode state := by
        rw [writeSinglePage, getNi_run, if_neg writable, if_neg (by omega)]
      rw [mtdWriteDataLoop_round nm mode true false rounds base col ooboffs (by simp [done]),
        pageImages, if_neg done]
      dsimp only
      rw [programImages, bind_run]
      simp only [if_true, Bool.false_eq_true, if_false, single, mtdCache, if_neg done]
      by_cases failed : (writeLogicPage ld base
          (some (padded ld.writesize col (dat.take (min (ld.writesize - col) dat.length)))) none mode
            state).1 ≠ 0
      · rw [if_pos failed, if_pos failed]
        simp [PageWrite.image, pure, StateT.pure]
      · have same := kept (not_not.mp failed)
        rw [if_neg failed, if_neg failed, bind_run]
        simp only [List.length_nil, Nat.min_zero, List.drop_zero]
        rw [ih _ _ _ _ _ _ _ (by omega) (by rw [same]; exact writable)
          (by rw [same, List.length_drop]; omega)]
        simp [PageWrite.image, pure, StateT.pure]

/-! ## Pages that differ in the last one only -/

theorem take_concat_eq_iff {α : Type} (images : List α) (last other : α) (count : Nat) :
    (images ++ [last]).take count = (images ++ [other]).take count ↔
      last = other ∨ count ≤ images.length := by
  by_cases short : count ≤ images.length
  · rw [List.take_append_of_le_length short, List.take_append_of_le_length short]
    exact iff_of_true rfl (.inr short)
  · rw [List.take_of_length_le (by simp; omega), List.take_of_length_le (by simp; omega)]
    simp [short]

theorem programImages_last (mode : OobMode) (images : List (Nat × List Byte))
    (last other : Nat × List Byte) (state : State) :
    (programImages ld mode (images ++ [last]) state).1 =
      (programImages ld mode (images ++ [other]) state).1 := by
  have alone (image : Nat × List Byte) (state : State) :
      (programImages ld mode [image] state).1 = 1 := by
    rw [programImages, bind_run, ite_apply]
    split <;> rfl
  induction images generalizing state with
  | nil => exact (alone last state).trans (alone other state).symm
  | cons image images ih =>
    rw [List.cons_append, List.cons_append, programImages, programImages, bind_run, bind_run]
    split
    · rfl
    · rw [bind_run, bind_run]
      exact congrArg (· + 1) (ih _)

theorem programImages_pos (mode : OobMode) {images : List (Nat × List Byte)} (some : images ≠ [])
    (state : State) : 0 < (programImages ld mode images state).1 := by
  cases images with
  | nil => exact absurd rfl some
  | cons image images =>
    rw [programImages, bind_run, ite_apply]
    split
    · exact Nat.one_pos
    · exact Nat.succ_pos _

theorem programImages_stops (mode : OobMode) (images : List (Nat × List Byte))
    (last : Nat × List Byte) (state : State)
    (unusable : ∃ image ∈ images, ∀ number, state.ni.place ld image.1 ≠ .page number) :
    (programImages ld mode (images ++ [last]) state).1 ≤ images.length := by
  induction images generalizing state with
  | nil =>
    obtain ⟨image, among, _⟩ := unusable
    exact absurd among List.not_mem_nil
  | cons image images ih =>
    rw [List.cons_append, programImages, bind_run, ite_apply]
    split
    · exact Nat.succ_le_succ (Nat.zero_le _)
    · rename_i good
      have same := ((@writeLogicPage_withCache ld image.1 (some image.2) none mode state
        state.ni.pageCache).2 (not_not.mp good)).2
      have rest : ∃ image ∈ images, ∀ number, state.ni.place ld image.1 ≠ .page number := by
        obtain ⟨other, among, unplaced⟩ := unusable
        rcases List.mem_cons.mp among with rfl | later
        · exact absurd (not_not.mp good) (writeLogicPage_unplaced unplaced _ _ _)
        · exact ⟨other, later, unplaced⟩
      rw [bind_run]
      exact Nat.succ_le_succ (ih _ (same ▸ rest))

theorem programImages_all (mode : OobMode) (images : List (Nat × List Byte))
    (last : Nat × List Byte) (state : State) (calm : Calm ld state)
    (writable : state.ni.flags.readOnly = false)
    (usable : ∀ image ∈ images, ∃ number, state.ni.place ld image.1 = .page number) :
    (programImages ld mode (images ++ [last]) state).1 = images.length + 1 := by
  induction images generalizing state with
  | nil =>
    rw [List.nil_append, programImages, bind_run, ite_apply]
    split <;> rfl
  | cons image images ih =>
    obtain ⟨number, placed⟩ := usable image List.mem_cons_self
    obtain ⟨good, later⟩ := writeLogicPage_calm calm writable placed (some image.2) none mode
    have same := ((@writeLogicPage_withCache ld image.1 (some image.2) none mode state
      state.ni.pageCache).2 good).2
    rw [List.cons_append, programImages, bind_run, if_neg (not_not.mpr good), bind_run]
    refine congrArg (· + 1) (ih _ later (same ▸ writable) fun other among => ?_)
    rw [same]
    exact usable other (List.mem_cons_of_mem _ among)

theorem head_take_programImages (mode : OobMode) (images : List (Nat × List Byte)) (state : State) :
    (images.take (programImages ld mode images state).1).head? = images.head? := by
  cases images with
  | nil => rw [List.take_nil]
  | cons image images =>
    have some_ := @programImages_pos ld mode _ (List.cons_ne_nil image images) state
    rw [List.head?_take, if_neg some_.ne']

theorem pageImages_head {dat : List Byte} (some_ : dat.length ≠ 0) (base col : Nat) :
    (pageImages ld dat.length base col dat).head?.map Prod.fst = some base := by
  obtain ⟨rounds, more⟩ := Nat.exists_eq_succ_of_ne_zero some_
  rw [more, pageImages, if_neg (mt List.length_eq_zero_iff.mpr some_)]
  rfl

theorem rangeImages_head {ptr : List Byte} (cache : List Byte) (some_ : ptr.length ≠ 0) (off : Nat) :
    (rangeImages ld ptr.length off ptr cache).head?.map Prod.fst =
      some (off - (off &&& ld.writesizeMask)) := by
  obtain ⟨rounds, more⟩ := Nat.exists_eq_succ_of_ne_zero some_
  rw [more, rangeImages, if_neg some_]
  rfl

/-! ## The bytes behind the request -/

section Images

variable (sound : ld.Sound)

theorem rangeCache_eq {off : Nat} {ptr cache : List Byte}
    (part : ld.chunkAt off ptr.length ≠ ld.writesize)
    (leading : off &&& ld.writesizeMask = off % ld.writesize) :
    rangeCache ld off ptr cache =
      fill (off % ld.writesize) 0xff ++ ptr.take (ld.chunkAt off ptr.length) ++
        cache.drop (off % ld.writesize + ld.chunkAt off ptr.length) := by
  have chunk : (ptr.take (ld.chunkAt off ptr.length)).length = ld.chunkAt off ptr.length := by
    rw [List.length_take]
    exact Nat.min_eq_left (chunkAt_le _ _)
  have behind : (fill (off % ld.writesize) 0xff ++ cache.drop (off % ld.writesize)).drop
      (off % ld.writesize + ld.chunkAt off ptr.length) =
        cache.drop (off % ld.writesize + ld.chunkAt off ptr.length) := by
    rw [← List.drop_drop, List.drop_left' (fill_length _ _), List.drop_drop]
  rw [rangeCache, if_neg part, leading, patch, patch, List.take_zero, List.nil_append, fill_length,
    Nat.zero_add, chunk, List.take_left' (fill_length _ _), behind]

include sound

/-- From a page boundary on, only the last page can differ, and does so if the cache holds
something else than 0xff behind the data. -/
theorem rangeImages_aligned (cache : List Byte) (rounds off : Nat) (ptr : List Byte) (aligned : off % ld.writesize = 0)
    (some : ptr.length ≠ 0) (enough : ptr.length ≤ rounds) :
    ∃ images last other, pageImages ld rounds off 0 ptr = images ++ [last] ∧
      rangeImages ld rounds off ptr cache = images ++ [other] ∧
      (last = other ↔ ptr.length % ld.writesize = 0 ∨
        cache.drop (ptr.length % ld.writesize) =
          fill (ld.writesize - ptr.length % ld.writesize) 0xff) := by
  have positive := sound.writesize_pos
  induction rounds generalizing off ptr with
  | zero => omega
  | succ rounds ih =>
    have leading : off &&& ld.writesizeMask = 0 := by
      rw [sound.and_writesizeMask, aligned]
    have chunk : ld.chunkAt off ptr.length = min ld.writesize ptr.length := by
      rw [LowerDevice.chunkAt, leading, Nat.sub_zero]
    have given : ¬ptr = [] := mt List.length_eq_zero_iff.mpr some
    rw [pageImages, if_neg given, rangeImages, if_neg some, leading, chunk, Nat.sub_zero,
      Nat.sub_zero]
    by_cases full : ld.writesize ≤ ptr.length
    · have whole : ld.chunkAt off ptr.length = ld.writesize := by omega
      have page : padded ld.writesize 0 (ptr.take ld.writesize) = ptr.take ld.writesize := by
        simp [padded, fill, Nat.min_eq_left full]
      rw [Nat.min_eq_left full, page, rangeImage, if_pos whole, whole, rangeCache, if_pos whole]
      by_cases ends : (ptr.drop ld.writesize).length = 0
      · have exact_ : ptr.length % ld.writesize = 0 := by
          rw [List.length_drop] at ends
          rw [show ptr.length = ld.writesize by omega, Nat.mod_self]
        have nothing : ptr.drop ld.writesize = [] := List.length_eq_zero_iff.mp ends
        rw [nothing, pageImages_nil, rangeImages_nil]
        exact ⟨[], _, _, rfl, rfl, iff_of_true rfl (.inl exact_)⟩
      · have left : (ptr.drop ld.writesize).length % ld.writesize = ptr.length % ld.writesize := by
          rw [List.length_drop, Nat.mod_eq_sub_mod full]
        obtain ⟨images, last, other, called, made, same⟩ := ih (off + ld.writesize)
          (ptr.drop ld.writesize) (by rw [Nat.add_mod_right, aligned]) ends
          (by rw [List.length_drop]; omega)
        rw [left] at same
        exact ⟨_ :: images, last, other, by rw [called]; rfl, by rw [made]; rfl, same⟩
    · have part : ld.chunkAt off ptr.length ≠ ld.writesize := by omega
      have nothing : ptr.drop ptr.length = [] := List.drop_length
      have small := Nat.mod_eq_of_lt (Nat.lt_of_not_le full)
      rw [Nat.min_eq_right (Nat.le_of_not_le full), nothing, rangeImage, if_neg part,
        rangeCache_eq part (by rw [leading, aligned]), chunk,
        Nat.min_eq_right (Nat.le_of_not_le full), List.take_length, aligned, small, Nat.zero_add]
      rw [pageImages_nil, rangeImages_nil]
      refine ⟨[], _, _, rfl, rfl, ?_⟩
      simp [padded, fill, some, eq_comm]

omit sound in
/-- What the page cache of `nmbm_write_range` holds when the last page is put together: the
head page of the request, if there is one before it, or what was there before. -/
def tailCache (ld : LowerDevice) (addr : Nat) (data cache : List Byte) : List Byte :=
  if addr % ld.writesize ≠ 0 ∧ ld.writesize < addr % ld.writesize + data.length then
    fill (addr % ld.writesize) 0xff ++ data.take (ld.writesize - addr % ld.writesize)
  else cache

omit sound in
/-- The request ends at a page boundary, or the cache holds 0xff behind its last page. -/
def TailClean (ld : LowerDevice) (addr : Nat) (data cache : List Byte) : Prop :=
  (addr + data.length) % ld.writesize = 0 ∨
    (tailCache ld addr data cache).drop ((addr + data.length) % ld.writesize) =
      fill (ld.writesize - (addr + data.length) % ld.writesize) 0xff

theorem rangeImages_alike (addr : Nat) {data cache : List Byte}
    (length : cache.length = ld.writesize) (some : data.length ≠ 0) :
    ∃ images last other,
      pageImages ld data.length (addr - addr % ld.writesize) (addr % ld.writesize) data =
          images ++ [last] ∧
        rangeImages ld data.length addr data cache = images ++ [other] ∧
        (last = other ↔ TailClean ld addr data cache) := by
  have positive := sound.writesize_pos
  have column := Nat.mod_lt addr positive
  have low := Nat.mod_le addr ld.writesize
  have sum : (addr + data.length) % ld.writesize =
      (addr % ld.writesize + data.length) % ld.writesize := by rw [Nat.mod_add_mod]
  by_cases aligned : addr % ld.writesize = 0
  · obtain ⟨images, last, other, called, made, same⟩ := rangeImages_aligned sound cache data.length
      addr data aligned some le_rfl
    refine ⟨images, last, other, ?_, made, same.trans ?_⟩
    · rw [aligned, Nat.sub_zero, called]
    · rw [TailClean, tailCache, sum, aligned, Nat.zero_add, if_neg (by simp)]
  · have given : ¬data = [] := mt List.length_eq_zero_iff.mpr some
    have leading : addr &&& ld.writesizeMask = addr % ld.writesize := sound.and_writesizeMask addr
    have chunk : ld.chunkAt addr data.length = min (ld.writesize - addr % ld.writesize) data.length :=
      by rw [LowerDevice.chunkAt, leading]
    have part : ld.chunkAt addr data.length ≠ ld.writesize := by omega
    obtain ⟨rounds, more⟩ := Nat.exists_eq_succ_of_ne_zero some
    rw [more, pageImages, if_neg given, rangeImages, if_neg some, leading, rangeImage, if_neg part,
      rangeCache_eq part leading, chunk]
    by_cases crosses : ld.writesize < addr % ld.writesize + data.length
    · -- The head page fills the cache
      have next : addr + (ld.writesize - addr % ld.writesize) =
          addr - addr % ld.writesize + ld.writesize := by omega
      have behind : cache.drop (addr % ld.writesize + (ld.writesize - addr % ld.writesize)) = [] :=
        List.drop_of_length_le (by omega)
      have head : padded ld.writesize (addr % ld.writesize)
          (data.take (ld.writesize - addr % ld.writesize)) =
            fill (addr % ld.writesize) 0xff ++ data.take (ld.writesize - addr % ld.writesize) := by
        rw [padded, List.length_take, Nat.min_eq_left (by omega), Nat.sub_self, fill, fill,
          List.replicate_zero, List.append_nil]
      have start : (addr - addr % ld.writesize + ld.writesize) % ld.writesize = 0 := by
        have split := Nat.div_add_mod addr ld.writesize
        rw [Nat.add_mod_right, show addr - addr % ld.writesize =
          ld.writesize * (addr / ld.writesize) by omega, Nat.mul_mod_right]
      have left : (data.drop (ld.writesize - addr % ld.writesize)).length % ld.writesize =
          (addr + data.length) % ld.writesize := by
        rw [sum, List.length_drop, Nat.mod_eq_sub_mod crosses.le]
        congr 1
        omega
      obtain ⟨images, last, other, called, made, same⟩ := rangeImages_aligned sound
        (fill (addr % ld.writesize) 0xff ++ data.take (ld.writesize - addr % ld.writesize)) rounds
          (addr - addr % ld.writesize + ld.writesize)
            (data.drop (ld.writesize - addr % ld.writesize)) start
              (by rw [List.length_drop]; omega) (by rw [List.length_drop]; omega)
      rw [left] at same
      rw [Nat.min_eq_left (by omega), next, behind, List.append_nil, head, called, made]
      refine ⟨_ :: images, last, other, rfl, rfl, same.trans ?_⟩
      rw [TailClean, tailCache, if_pos ⟨aligned, crosses⟩]
    · have tail : TailClean ld addr data cache ↔
          cache.drop (addr % ld.writesize + data.length) =
            fill (ld.writesize - addr % ld.writesize - data.length) 0xff := by
        rw [TailClean, tailCache, if_neg (fun both => crosses both.2), sum]
        rcases Nat.lt_or_eq_of_le (Nat.le_of_not_lt crosses) with inside | ends
        · rw [Nat.mod_eq_of_lt inside, Nat.sub_sub]
          exact or_iff_right (by omega)
        · rw [ends, Nat.mod_self, List.drop_of_length_le length.le, Nat.sub_sub, ends, Nat.sub_self]
          exact iff_of_true (.inl rfl) rfl
      have nothing : data.drop data.length = [] := List.drop_length
      rw [Nat.min_eq_right (by omega), nothing, pageImages_nil, rangeImages_nil, List.take_length]
      refine ⟨[], _, _, rfl, rfl, ?_⟩
      rw [tail]
      simp [padded, eq_comm]

end Images

/-! ## The two write paths -/

/-- The pages of a request for `data` from `addr` on. -/
def requestImages (ld : LowerDevice) (addr : Nat) (data : List Byte) : List (Nat × List Byte) :=
  pageImages ld data.length (addr - addr % ld.writesize) (addr % ld.writesize) data

theorem pageImages_behaving (ld : LowerDevice) (fault : Nat → Fault) (rounds base col : Nat)
    (dat : List Byte) :
    pageImages (ld.behaving fault) rounds base col dat = pageImages ld rounds base col dat := by
  induction rounds generalizing base col dat with
  | zero => rfl
  | succ rounds ih =>
    rw [pageImages, pageImages, ih]
    rfl

section Paths

variable (sound : ld.Sound) {state : State}
  (writable : ¬(state.ni.isProtected = true ∨ state.ni.flags.readOnly = true)) {addr : Nat}
  {data : List Byte} (starts : addr < ld.ba2addr state.ni.dataBlockCount)
  (ends : addr + data.length ≤ ld.ba2addr state.ni.dataBlockCount)

include writable ends

include starts in
theorem writeRangePages_images (width : ld.ba2addr state.ni.dataBlockCount < 2 ^ 64)
    (mode : OobMode) (cache : PageData) :
    let images := rangeImages ld data.length addr data cache.data
    (writeRangePages ld addr data mode (state.withCache cache)).1.2.2.map PageWrite.image =
      images.take (programImages ld mode images state).1 := by
  have sum : addU64 addr data.length = addr + data.length := Nat.mod_eq_of_lt (by omega)
  have same : (state.withCache cache).ni.dataBlockCount = state.ni.dataBlockCount := rfl
  rw [writeRangePages, getNi_run, if_neg (show ¬((state.withCache cache).ni.isProtected = true ∨
      (state.withCache cache).ni.flags.readOnly = true) from writable), same, if_neg (by omega), sum,
    if_neg (by omega)]
  by_cases none : data.length = 0
  · rw [if_pos none, none]
    rfl
  · have run := @writeRangePagesLoop_images ld mode data.length addr data [] state cache
    rw [if_neg none, bind_run]
    exact run

include sound in
theorem mtdWriteData_images (nm : NmbmMtd) (mode : OobMode) (cache : PageData) (ooboffs : Nat) :
    let images := pageImages ld data.length (pageBase ld addr) (addr % ld.writesize) data
    (mtdWriteData ld nm cache addr mode data ooboffs [] state).1.pages.map PageWrite.image =
      images.take (programImages ld mode images state).1 := by
  have column := Nat.mod_lt addr sound.writesize_pos
  have start := pageBase_eq sound addr
  have lowColumn := low_mod_writesize sound addr
  have split := Nat.div_add_mod (addr % 2 ^ 32) ld.writesize
  rw [Nat.mul_comm] at split
  rw [mtdWriteData, sound.and_writesizeMask, List.length_nil, Nat.add_zero]
  by_cases none : data = []
  · subst none
    rfl
  · rw [show decide (data ≠ []) = true from decide_eq_true none,
      show decide (([] : List Byte) ≠ []) = false from rfl]
    exact mtdWriteDataLoop_images nm mode data.length (pageBase ld addr) (addr % ld.writesize) data
      ooboffs cache ⟨0, 0, 0, []⟩ state column writable (fun _ => by omega)

end Paths

/-- Both paths program the same pages, as the request calls for them up to the one that ends it. -/
structure SamePages (ld : LowerDevice) (nm : NmbmMtd) (state : State) (mtdCache : PageData)
    (addr : Nat) (data : List Byte) (mode : OobMode) (ooboffs : Nat) : Prop where
  same : (writeRangePages ld addr data mode state).1.2.2.map PageWrite.image =
    (mtdWriteData ld nm mtdCache addr mode data ooboffs [] state).1.pages.map PageWrite.image
  asked : (writeRangePages ld addr data mode state).1.2.2.map PageWrite.image <+:
    requestImages ld addr data

theorem mtdWriteData_closed {state : State}
    (closed : state.ni.isProtected = true ∨ state.ni.flags.readOnly = true) (nm : NmbmMtd)
    (cache : PageData) (addr : Nat) (mode : OobMode) (dat : List Byte) (ooboffs : Nat)
    (oob : List Byte) : (mtdWriteData ld nm cache addr mode dat ooboffs oob state).2 = state := by
  have refused (addr : Nat) (data spare : Option (List Byte)) :
      writeSinglePage ld addr data spare mode state = (-EROFS, state) := by
    rw [writeSinglePage, getNi_run, if_pos closed]
    rfl
  rw [mtdWriteData]
  cases dat.length + oob.length with
  | zero => rfl
  | succ rounds =>
    by_cases done : dat = [] ∧ oob = []
    · rw [mtdWriteDataLoop, if_pos done]
      rfl
    · rw [mtdWriteDataLoop_round nm mode _ _ rounds _ _ ooboffs done]
      simp only [refused]
      rw [if_pos (by decide)]

/-- The two write paths program the same pages, whatever the device does, exactly if the request
is empty, or starts below 4 GiB and either its last page is clean or a page before that cannot
be programmed.  On a protected or read-only chip neither does anything. -/
theorem writePaths_agree_iff (sound : ld.Sound) {flash : Flash} {ops : List Op} {sys : Sys}
    (is : run ld ops (initialSys ld flash) = some sys) (attached : sys.isAttached = true)
    {addr : Nat} {data : List Byte} (starts : addr < ld.ba2addr sys.state.ni.dataBlockCount)
    (ends : addr + data.length ≤ ld.ba2addr sys.state.ni.dataBlockCount) {cache : PageData}
    (length : cache.data.length = ld.writesize) (nm : NmbmMtd) (nmCache : PageData)
    (mode : OobMode) (ooboffs : Nat) :
    ((sys.state.ni.isProtected = true ∨ sys.state.ni.flags.readOnly = true) →
        (writeRangePages ld addr data mode (sys.state.withCache cache)).2 =
            sys.state.withCache cache ∧
          (mtdWriteData ld nm nmCache addr mode data ooboffs [] (sys.state.withCache cache)).2 =
            sys.state.withCache cache) ∧
      (¬(sys.state.ni.isProtected = true ∨ sys.state.ni.flags.readOnly = true) →
        ((∀ (fault : Nat → Fault) (flash : Flash), SamePages (ld.behaving fault) nm
            { sys.state.withCache cache with flash } nmCache addr data mode ooboffs) ↔
          data = [] ∨ addr < 2 ^ 32 ∧ (TailClean ld addr data cache.data ∨
            ∃ image ∈ (requestImages ld addr data).dropLast,
              ∀ number, sys.state.ni.place ld image.1 ≠ .page number))) := by
  refine ⟨fun closed => ?_, fun writable => ?_⟩
  · have shut : (sys.state.withCache cache).ni.isProtected = true ∨
        (sys.state.withCache cache).ni.flags.readOnly = true := closed
    refine ⟨?_, mtdWriteData_closed shut nm nmCache addr mode data ooboffs []⟩
    rw [writeRangePages, getNi_run, if_pos shut]
    rfl
  have width := dataBytes_lt sound is attached
  let start (flash : Flash) : State := { sys.state.withCache cache with flash }
  have range (fault : Nat → Fault) (flash : Flash) :
      let images := rangeImages (ld.behaving fault) data.length addr data cache.data
      (writeRangePages (ld.behaving fault) addr data mode (start flash)).1.2.2.map PageWrite.image =
        images.take (programImages (ld.behaving fault) mode images (start flash)).1 :=
    @writeRangePages_images (ld.behaving fault) (start flash) writable addr data starts ends width
      mode cache
  have mtd (fault : Nat → Fault) (flash : Flash) := @mtdWriteData_images (ld.behaving fault)
    (sound.behaving fault) (start flash) writable addr data ends nm mode nmCache ooboffs
  by_cases empty : data = []
  · subst empty
    refine iff_of_true (fun fault flash => ?_) (.inl rfl)
    have range := range fault flash
    have mtd := mtd fault flash
    rw [rangeImages_nil] at range
    rw [pageImages_nil] at mtd
    dsimp only at range mtd
    rw [List.take_nil] at range mtd
    exact ⟨range.trans mtd.symm, by rw [range]; exact List.nil_prefix⟩
  have some_ : data.length ≠ 0 := mt List.length_eq_zero_iff.mp empty
  have alike (fault : Nat → Fault) := rangeImages_alike (sound.behaving fault) addr length some_
  have base (fault : Nat → Fault) (low : addr < 2 ^ 32) :
      pageBase (ld.behaving fault) addr = addr - addr % ld.writesize := by
    have split := Nat.div_add_mod addr ld.writesize
    rw [pageBase_eq (sound.behaving fault), Nat.mod_eq_of_lt low, Nat.mul_comm]
    exact Nat.eq_sub_of_add_eq split
  constructor
  · intro agree
    have low : addr < 2 ^ 32 := by
      by_contra high
      have same := (agree ld.fault sys.state.flash).same
      have range := range ld.fault sys.state.flash
      have mtd := mtd ld.fault sys.state.flash
      have firsts := congrArg (fun pages => pages.head?.map Prod.fst)
        (range.symm.trans (same.trans mtd))
      have split := Nat.div_add_mod (addr % 2 ^ 32) ld.writesize
      have column := low_mod_writesize sound addr
      have inPage := Nat.mod_le addr ld.writesize
      have width := Nat.mod_lt addr (show 0 < 2 ^ 32 by decide)
      rw [head_take_programImages, head_take_programImages, rangeImages_head _ some_,
        pageImages_head some_, (sound.behaving ld.fault).and_writesizeMask,
        pageBase_eq (sound.behaving ld.fault), Option.some.injEq, Nat.mul_comm] at firsts
      rw [LowerDevice.behaving_writesize] at firsts
      omega
    refine .inr ⟨low, ?_⟩
    by_contra neither
    rw [not_or] at neither
    -- On a calm device the last page is programmed
    obtain ⟨images, last, other, called, made, same⟩ := alike fun _ => {}
    have range := range (fun _ => {}) sys.state.flash
    have mtd := mtd (fun _ => {}) sys.state.flash
    have logs := (agree (fun _ => {}) sys.state.flash).same
    rw [made] at range
    rw [base _ low] at mtd
    dsimp only [LowerDevice.behaving_writesize] at range mtd called
    rw [called, programImages_last mode images last other] at mtd
    have asked : requestImages ld addr data = images ++ [last] := by
      rw [← called, pageImages_behaving, requestImages]
    have placed : ∀ image ∈ images, ∃ number, sys.state.ni.place ld image.1 = .page number := by
      intro image among
      by_contra none
      rw [not_exists] at none
      refine neither.2 ⟨image, ?_, none⟩
      rw [asked, List.dropLast_concat]
      exact among
    have all := @programImages_all (ld.behaving fun _ => {}) mode images other
      (start sys.state.flash) (fun _ _ => rfl)
      (Bool.eq_false_iff.mpr (not_or.mp writable).2) placed
    have equal := (take_concat_eq_iff images last other _).mp (mtd.symm.trans (logs.symm.trans range))
    rcases equal with alike | short
    · exact neither.1 (same.mp alike)
    · omega
  · intro holds fault flash
    obtain ⟨low, clean⟩ := holds.resolve_left empty
    obtain ⟨images, last, other, called, made, same⟩ := alike fault
    have range := range fault flash
    have mtd := mtd fault flash
    rw [made] at range
    rw [base fault low] at mtd
    dsimp only [LowerDevice.behaving_writesize] at range mtd called
    rw [called, programImages_last mode images last other] at mtd
    have asked : requestImages ld addr data = images ++ [last] := by
      rw [← called, pageImages_behaving, requestImages]
    have agree : last = other ∨
        (programImages (ld.behaving fault) mode (images ++ [other]) (start flash)).1 ≤
          images.length := by
      refine clean.imp (fun clean => same.mpr clean) fun unplaced => ?_
      rw [asked, List.dropLast_concat] at unplaced
      exact programImages_stops mode images other (start flash) unplaced
    have logs := (take_concat_eq_iff images last other _).mpr agree
    refine ⟨range.trans (logs.symm.trans mtd.symm), ?_⟩
    rw [show requestImages (ld.behaving fault) addr data = _ from called,
      show (writeRangePages (ld.behaving fault) addr data mode
        { sys.state.withCache cache with flash }).1.2.2.map PageWrite.image = _ from range, ← logs]
    exact List.take_prefix _ _

/-- A request that starts inside a page and ends at a page boundary. -/
theorem writePaths_agree_head : ∃ sys,
    run (faultyChip 9 []) [.attach creating 40] (initialSys (faultyChip 9 []) (erasedFlash [])) =
        some sys ∧
      ∀ (fault : Nat → Fault) (flash : Flash), SamePages ((faultyChip 9 []).behaving fault)
        ⟨1792, 8⟩ { sys.state.withCache ⟨fill 64 0, []⟩ with flash } ⟨[], []⟩ 28 (fill 100 1)
          .placeOob 0 := by
  obtain ⟨sys, is, attached, unprotected, writable, capacity⟩ : ∃ sys,
      run (faultyChip 9 []) [.attach creating 40] (initialSys (faultyChip 9 []) (erasedFlash [])) =
          some sys ∧
        sys.isAttached = true ∧ sys.state.ni.isProtected = false ∧
          sys.state.ni.flags.readOnly = false ∧
            128 ≤ (faultyChip 9 []).ba2addr sys.state.ni.dataBlockCount :=
    exists_of_any (by decide +kernel)
  refine ⟨sys, is, ((writePaths_agree_iff (smallChip_sound _ (by decide)) is attached
    (lt_of_lt_of_le (by decide) capacity) capacity (show (⟨fill 64 0, []⟩ : PageData).data.length = 64 by decide) ⟨1792, 8⟩
      ⟨[], []⟩ .placeOob 0).2 (by simp [unprotected, writable])).mpr ?_⟩
  exact .inr ⟨by decide, .inl (.inl (by decide))⟩

/-- The tail of a page is left as the page cache has it, which is not 0xff after an attach. -/
theorem writePaths_disagree : ∃ sys,
    run (faultyChip 9 []) [.attach creating 40] (initialSys (faultyChip 9 []) (erasedFlash [])) =
        some sys ∧
      sys.isAttached = true ∧ sys.state.ni.isProtected = false ∧
      sys.state.ni.flags.readOnly = false ∧
      10 ≤ (faultyChip 9 []).ba2addr sys.state.ni.dataBlockCount ∧
      sys.state.ni.pageCache.data.length = 64 ∧
      ¬SamePages (faultyChip 9 []) ⟨1792, 8⟩ sys.state ⟨[], []⟩ 0 (fill 10 1) .placeOob 0 := by
  obtain ⟨sys, is, attached, unprotected, writable, capacity, length, differs⟩ : ∃ sys,
      run (faultyChip 9 []) [.attach creating 40] (initialSys (faultyChip 9 []) (erasedFlash [])) =
          some sys ∧
        sys.isAttached = true ∧ sys.state.ni.isProtected = false ∧
          sys.state.ni.flags.readOnly = false ∧
            10 ≤ (faultyChip 9 []).ba2addr sys.state.ni.dataBlockCount ∧
              sys.state.ni.pageCache.data.length = 64 ∧
        (writeRangePages (faultyChip 9 []) 0 (fill 10 1) .placeOob sys.state).1.2.2.map
            PageWrite.image ≠
          (mtdWriteData (faultyChip 9 []) ⟨1792, 8⟩ ⟨[], []⟩ 0 .placeOob (fill 10 1) 0 []
            sys.state).1.pages.map PageWrite.image :=
    exists_of_any (by decide +kernel)
  exact ⟨sys, is, attached, unprotected, writable, capacity, length, fun agree => differs agree.same⟩

end MetaFilogic.Nmbm
