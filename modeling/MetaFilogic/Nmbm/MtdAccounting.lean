import MetaFilogic.Nmbm.MtdRead

/-!
# What a write reports

A write reports how many of the requested bytes it wrote.  `nmbm_write_range` counts a
page after it was programmed.  `nmbm_mtd_write_data` and `nmbm_mtd_panic_write` count it
before, so the page that ends a request is among the reported ones although its program
failed; and the panic write returns 0 all the same.
-/

namespace MetaFilogic.Nmbm

open Bytes

variable {ld : LowerDevice}

def programmedBytes (pages : List PageWrite) : Nat :=
  ((pages.filter fun page => page.ret = 0).map PageWrite.requested).sum

/-- The count is the one of the bytes in programmed pages, and the request succeeds exactly if
these are all. -/
structure Accounted (result : MtdWriteResult) (len : Nat) : Prop where
  retlen : result.retlen = programmedBytes result.pages
  ret : result.ret = 0 ↔ result.retlen = len

@[simp]
theorem programmedBytes_nil : programmedBytes [] = 0 :=
  rfl

theorem programmedBytes_append (pages : List PageWrite) (page : PageWrite) :
    programmedBytes (pages ++ [page]) =
      programmedBytes pages + if page.ret = 0 then page.requested else 0 := by
  rw [programmedBytes, programmedBytes, List.filter_append, List.map_append, List.sum_append]
  by_cases good : page.ret = 0
  · simp [good]
  · simp [good]

/-! ## Data only -/

/-- The bytes of a round of `nmbm_write_range` with `len` bytes to go. -/
def LowerDevice.chunkAt (ld : LowerDevice) (off len : Nat) : Nat :=
  min (ld.writesize - (off &&& ld.writesizeMask)) len

/-- What the round makes of the bytes in `page_cache`. -/
def rangeCache (ld : LowerDevice) (off : Nat) (ptr cache : List Byte) : List Byte :=
  if ld.chunkAt off ptr.length = ld.writesize then cache
  else
    patch (patch cache 0 (fill (off &&& ld.writesizeMask) 0xff)) (off &&& ld.writesizeMask)
      (ptr.take (ld.chunkAt off ptr.length))

def rangeImage (ld : LowerDevice) (off : Nat) (ptr cache : List Byte) : List Byte :=
  if ld.chunkAt off ptr.length = ld.writesize then ptr.take (ld.chunkAt off ptr.length)
  else rangeCache ld off ptr cache

/-- The state in which the round calls `nmbm_write_logic_page`. -/
def State.assembled (ld : LowerDevice) (state : State) (off : Nat) (ptr : List Byte) : State :=
  state.withCache { state.ni.pageCache with data := rangeCache ld off ptr state.ni.pageCache.data }

section Round

variable (mode : OobMode) (rounds off : Nat) {ptr : List Byte} (some_ : ptr.length ≠ 0)

include some_

theorem writeRangePagesLoop_round (pages : List PageWrite) (state : State) :
    writeRangePagesLoop ld mode (rounds + 1) off ptr pages state =
      let image := rangeImage ld off ptr state.ni.pageCache.data
      let result := writeLogicPage ld (off - (off &&& ld.writesizeMask)) (some image) none mode
        (state.assembled ld off ptr)
      let pages := pages ++ [⟨off - (off &&& ld.writesizeMask), some image, none,
        ld.chunkAt off ptr.length, result.1⟩]
      if result.1 ≠ 0 then ((result.1, ptr.length, pages), result.2)
      else
        writeRangePagesLoop ld mode rounds (off + ld.chunkAt off ptr.length)
          (ptr.drop (ld.chunkAt off ptr.length)) pages result.2 := by
  rw [writeRangePagesLoop, if_neg some_]
  by_cases full : ld.chunkAt off ptr.length = ld.writesize
  · have assembled : state.assembled ld off ptr = state := by
      rw [State.assembled, rangeCache, if_pos full]
      rfl
    rw [assembled, rangeImage, if_pos full]
    unfold LowerDevice.chunkAt at full ⊢
    dsimp only
    rw [if_neg (not_not.mpr full), getNi_run, if_pos full, bind_run, ite_apply]
    rfl
  · have assembled : state.assembled ld off ptr = state.withCache { state.ni.pageCache with
        data := patch (patch state.ni.pageCache.data 0 (fill (off &&& ld.writesizeMask) 0xff))
          (off &&& ld.writesizeMask) (ptr.take (ld.chunkAt off ptr.length)) } := by
      rw [State.assembled, rangeCache, if_neg full]
    rw [assembled, rangeImage, if_neg full, rangeCache, if_neg full]
    unfold LowerDevice.chunkAt at full ⊢
    dsimp only
    rw [if_pos full, bind_run, getNi_run, if_neg full, bind_run, ite_apply]
    rfl

end Round

section Sound

variable (sound : ld.Sound)

include sound

theorem chunkAt_pos (off : Nat) {len : Nat} (some : len ≠ 0) : 0 < ld.chunkAt off len := by
  have column := Nat.mod_lt off sound.writesize_pos
  rw [LowerDevice.chunkAt, sound.and_writesizeMask]
  omega

omit sound in
theorem chunkAt_le (off len : Nat) : ld.chunkAt off len ≤ len :=
  Nat.min_le_right _ _

theorem writeRangePagesLoop_accounted (mode : OobMode) (rounds off : Nat) (ptr : List Byte)
    (pages : List PageWrite) (state : State) (enough : ptr.length ≤ rounds) :
    let result := (writeRangePagesLoop ld mode rounds off ptr pages state).1
    programmedBytes result.2.2 + result.2.1 = programmedBytes pages + ptr.length ∧
      (result.1 = 0 ↔ result.2.1 = 0) := by
  induction rounds generalizing off ptr pages state with
  | zero => exact ⟨rfl, ⟨fun _ => Nat.le_zero.mp enough, fun _ => rfl⟩⟩
  | succ rounds ih =>
    by_cases done : ptr.length = 0
    · rw [writeRangePagesLoop, if_pos done, done]
      exact ⟨rfl, ⟨fun _ => rfl, fun _ => rfl⟩⟩
    · have positive := chunkAt_pos sound off done
      have fits := @chunkAt_le ld off ptr.length
      rw [writeRangePagesLoop_round mode rounds off done]
      dsimp only
      split
      · rename_i failed
        refine ⟨?_, ⟨fun good => absurd good failed, fun none => absurd none done⟩⟩
        rw [programmedBytes_append, if_neg failed, Nat.add_zero]
      · rename_i good
        rw [not_not] at good
        obtain ⟨total, ret⟩ := ih (off + ld.chunkAt off ptr.length)
          (ptr.drop (ld.chunkAt off ptr.length)) _ _ (by rw [List.length_drop]; omega)
        refine ⟨total.trans ?_, ret⟩
        rw [programmedBytes_append, if_pos good, List.length_drop]
        dsimp only
        omega

end Sound

/-! ## Data and spare bytes -/

/-- What a round of `nmbm_mtd_write_data` makes of its page cache. -/
def mtdCache (ld : LowerDevice) (nm : NmbmMtd) (mode : OobMode) (col : Nat) (dat : List Byte)
    (ooboffs : Nat) (oob : List Byte) (cache : PageData) : PageData where
  data :=
    if dat = [] then cache.data
    else padded ld.writesize col (dat.take (min (ld.writesize - col) dat.length))
  oob :=
    if oob = [] then cache.oob
    else padded ld.oobsize ooboffs (oob.take (min (mtdOobavail ld nm mode - ooboffs) oob.length))

theorem mtdWriteDataLoop_round (nm : NmbmMtd) (mode : OobMode) (hasDat hasOob : Bool)
    (rounds addr col : Nat) {dat : List Byte} (ooboffs : Nat) {oob : List Byte}
    (some_ : ¬(dat = [] ∧ oob = [])) (cache : PageData) (result : MtdWriteResult) (state : State) :
    mtdWriteDataLoop ld nm mode hasDat hasOob (rounds + 1) addr col dat ooboffs oob cache result
        state =
      let datchk := min (ld.writesize - col) dat.length
      let oobchk := min (mtdOobavail ld nm mode - ooboffs) oob.length
      let cache := mtdCache ld nm mode col dat ooboffs oob cache
      let data := if hasDat then some cache.data else none
      let spare := if hasOob then some cache.oob else none
      let written := writeSinglePage ld addr data spare mode state
      let result : MtdWriteResult := ⟨written.1, result.retlen + datchk,
        result.oobretlen + oobchk, result.pages ++ [⟨addr, data, spare, datchk, written.1⟩]⟩
      if written.1 ≠ 0 then (result, written.2)
      else
        mtdWriteDataLoop ld nm mode hasDat hasOob rounds (addr + ld.writesize) 0
          (dat.drop datchk) 0 (oob.drop oobchk) cache result written.2 := by
  rw [mtdWriteDataLoop, if_neg some_, bind_run, ite_apply]
  rfl

/-- The request has gone well so far: everything that is reported was programmed. -/
structure Faultless (result : MtdWriteResult) (len : Nat) : Prop where
  ret : result.ret = 0
  pages : ∀ page ∈ result.pages, page.ret = 0
  retlen : result.retlen = len
  programmed : programmedBytes result.pages = len

/-- A page has failed: it is among the reported ones, or everything is reported. -/
structure Miscounted (result : MtdWriteResult) (len : Nat) : Prop where
  ret : result.ret ≠ 0
  pages : ∃ page ∈ result.pages, page.ret ≠ 0
  retlen : programmedBytes result.pages < result.retlen ∨ result.retlen = len

variable {result : MtdWriteResult}

theorem Faultless.accounted {len : Nat} (good : Faultless result len) : Accounted result len :=
  ⟨by rw [good.retlen, good.programmed], ⟨fun _ => good.retlen, fun _ => good.ret⟩⟩

theorem Miscounted.not_accounted {len : Nat} (bad : Miscounted result len) :
    ¬Accounted result len := by
  intro accounted
  rcases bad.retlen with fewer | all
  · exact absurd accounted.retlen (Nat.ne_of_gt fewer)
  · exact bad.ret (accounted.ret.mpr all)

theorem Faultless.append {len : Nat} (good : Faultless result len) (page : PageWrite)
    (success : page.ret = 0) (oobretlen : Nat) :
    Faultless ⟨page.ret, result.retlen + page.requested, oobretlen, result.pages ++ [page]⟩
      (len + page.requested) := by
  refine ⟨success, fun other among => ?_, by rw [good.retlen], ?_⟩
  · rcases List.mem_append.mp among with old | new
    · exact good.pages other old
    · rw [List.mem_singleton.mp new, success]
  · rw [programmedBytes_append, if_pos success, good.programmed]

theorem Faultless.fail {len : Nat} (good : Faultless result len) (page : PageWrite)
    (failed : page.ret ≠ 0) (oobretlen total : Nat) (counts : page.requested = 0 → len = total) :
    Miscounted ⟨page.ret, result.retlen + page.requested, oobretlen, result.pages ++ [page]⟩
      total := by
  refine ⟨failed, ⟨page, by simp, failed⟩, ?_⟩
  dsimp only
  rw [programmedBytes_append, if_neg failed, good.programmed, good.retlen, Nat.add_zero]
  by_cases none : page.requested = 0
  · rw [none]
    exact .inr (counts none)
  · exact .inl (by omega)

theorem mtdWriteDataLoop_accounted (nm : NmbmMtd) (mode : OobMode) (hasDat hasOob : Bool)
    (rounds addr col : Nat) (dat : List Byte) (ooboffs : Nat) (oob : List Byte) (cache : PageData)
    (result : MtdWriteResult) (state : State) (len : Nat) (column : col < ld.writesize)
    (oobcolumn : ooboffs < mtdOobavail ld nm mode) (enough : dat.length + oob.length ≤ rounds)
    (good : Faultless result len) :
    let final := (mtdWriteDataLoop ld nm mode hasDat hasOob rounds addr col dat ooboffs oob cache
      result state).1
    Faultless final (len + dat.length) ∨ Miscounted final (len + dat.length) := by
  induction rounds generalizing addr col dat ooboffs oob cache result state len with
  | zero =>
    have none : dat.length = 0 := by omega
    rw [none]
    exact .inl good
  | succ rounds ih =>
    by_cases done : dat = [] ∧ oob = []
    · rw [mtdWriteDataLoop, if_pos done, done.1]
      exact .inl good
    · rw [mtdWriteDataLoop_round nm mode hasDat hasOob rounds addr col ooboffs done]
      dsimp only
      generalize (if hasDat = true then some (mtdCache ld nm mode col dat ooboffs oob cache).data
        else none) = data
      generalize (if hasOob = true then some (mtdCache ld nm mode col dat ooboffs oob cache).oob
        else none) = spare
      split
      · rename_i failed
        refine .inr (good.fail ⟨addr, data, spare, min (ld.writesize - col) dat.length,
          (writeSinglePage ld addr data spare mode state).1⟩ failed _ _ ?_)
        dsimp only
        omega
      · rename_i success
        rw [not_not] at success
        have later := good.append ⟨addr, data, spare, min (ld.writesize - col) dat.length,
          (writeSinglePage ld addr data spare mode state).1⟩ success
            (result.oobretlen + min (mtdOobavail ld nm mode - ooboffs) oob.length)
        have fewer : (dat.drop (min (ld.writesize - col) dat.length)).length +
            (oob.drop (min (mtdOobavail ld nm mode - ooboffs) oob.length)).length ≤ rounds := by
          rw [List.length_drop, List.length_drop]
          omega
        have total : len + min (ld.writesize - col) dat.length +
            (dat.drop (min (ld.writesize - col) dat.length)).length = len + dat.length := by
          rw [List.length_drop]
          omega
        rw [← total]
        exact ih _ _ _ _ _ _ _ _ _ (by omega) (by omega) fewer later

/-! ## Panic write -/

theorem mtdPanicWriteLoop_accounted (rounds addr col : Nat) (buf cache : List Byte) (wrlen : Nat)
    (pages : List PageWrite) (state : State) (column : col < ld.writesize)
    (enough : buf.length ≤ rounds) (good : Faultless ⟨0, wrlen, 0, pages⟩ wrlen) :
    let final := (mtdPanicWriteLoop ld rounds addr col buf cache wrlen pages state).1
    Faultless ⟨0, final.1, 0, final.2⟩ (wrlen + buf.length) ∨
      (∃ page ∈ final.2, page.ret ≠ 0) ∧ programmedBytes final.2 < final.1 := by
  induction rounds generalizing addr col buf cache wrlen pages state with
  | zero =>
    have none : buf.length = 0 := by omega
    rw [none]
    exact .inl good
  | succ rounds ih =>
    by_cases done : buf = []
    · rw [mtdPanicWriteLoop, if_pos done, done]
      exact .inl good
    · have some : 0 < buf.length := List.length_pos_iff.mpr done
      rw [mtdPanicWriteLoop, if_neg done, bind_run, ite_apply]
      generalize patch _ _ _ = image
      split
      · rename_i failed
        refine .inr ⟨⟨_, List.mem_append_right _ (List.mem_singleton_self _), failed⟩, ?_⟩
        change programmedBytes (pages ++ [_]) < wrlen + min (ld.writesize - col) buf.length
        rw [programmedBytes_append, if_neg failed, good.programmed]
        omega
      · rename_i success
        rw [not_not] at success
        have page := good.append ⟨addr, image, none, min (ld.writesize - col) buf.length,
          (panicWriteSinglePage ld addr image state).1⟩ success 0
        have later : Faultless ⟨0, wrlen + min (ld.writesize - col) buf.length, 0, _⟩
            (wrlen + min (ld.writesize - col) buf.length) :=
          ⟨rfl, page.pages, rfl, page.programmed⟩
        have total : wrlen + min (ld.writesize - col) buf.length +
            (buf.drop (min (ld.writesize - col) buf.length)).length = wrlen + buf.length := by
          rw [List.length_drop]
          omega
        rw [← total]
        exact ih _ _ _ _ _ _ _ (by omega) (by rw [List.length_drop]; omega) later

/-! ## All writes -/

def MtdWrite.len (ops : MtdWrite) : Nat := (ops.dat.getD []).length

/-- The checks of `nmbm_mtd_write_oob`, and for a request without spare bytes those of
`nmbm_write_range`, turn the request down. -/
def MtdWrite.Refused (ld : LowerDevice) (nm : NmbmMtd) (ni : Instance) (addr : Nat)
    (ops : MtdWrite) : Prop :=
  (ops.dat ≠ none ∨ ops.oob ≠ none) ∧
    match ops.mode with
    | none => True
    | some mode =>
      (ops.dat.any fun dat => nm.size < addU64 addr dat.length) = true ∨
        match ops.oob with
        | none => (ni.isProtected = true ∨ ni.flags.readOnly = true) ∨
            addr ≥ ld.ba2addr ni.dataBlockCount ∨
              addU64 addr ops.len > ld.ba2addr ni.dataBlockCount
        | some oob => oobOutside ld nm addr mode ops.ooboffs oob.length = true

theorem accounted_refused {error : Int} (failed : error ≠ 0) (len : Nat) :
    Accounted ⟨error, 0, 0, []⟩ len ↔ len ≠ 0 := by
  constructor
  · rintro accounted rfl
    exact failed (accounted.ret.mpr rfl)
  · intro some
    exact ⟨rfl, ⟨fun good => absurd good failed, fun none => absurd none.symm some⟩⟩

section Sound

variable (sound : ld.Sound)

include sound

theorem writeRangePages_accounted (addr : Nat) (data : List Byte) (mode : OobMode) (state : State) :
    let result := (writeRangePages ld addr data mode state).1
    Accounted ⟨result.1, result.2.1.getD 0, 0, result.2.2⟩ data.length ↔
      (data.length = 0 → ¬((state.ni.isProtected = true ∨ state.ni.flags.readOnly = true) ∨
        addr ≥ ld.ba2addr state.ni.dataBlockCount ∨
          addU64 addr data.length > ld.ba2addr state.ni.dataBlockCount)) := by
  rw [writeRangePages, getNi_run]
  by_cases closed : state.ni.isProtected = true ∨ state.ni.flags.readOnly = true
  · rw [if_pos closed]
    refine (accounted_refused (by decide : -EROFS ≠ 0) _).trans ?_
    simp [closed]
  by_cases beyond : addr ≥ ld.ba2addr state.ni.dataBlockCount
  · rw [if_neg closed, if_pos beyond]
    refine (accounted_refused (by decide : -EINVAL ≠ 0) _).trans ?_
    simp [beyond]
  by_cases long : addU64 addr data.length > ld.ba2addr state.ni.dataBlockCount
  · rw [if_neg closed, if_neg beyond, if_pos long]
    refine (accounted_refused (by decide : -EINVAL ≠ 0) _).trans ?_
    simp [long]
  rw [if_neg closed, if_neg beyond, if_neg long]
  have open_ : data.length = 0 → ¬((state.ni.isProtected = true ∨ state.ni.flags.readOnly = true) ∨
      addr ≥ ld.ba2addr state.ni.dataBlockCount ∨
        addU64 addr data.length > ld.ba2addr state.ni.dataBlockCount) :=
    fun _ => not_or.mpr ⟨closed, not_or.mpr ⟨beyond, long⟩⟩
  refine iff_of_true ?_ open_
  by_cases none : data.length = 0
  · rw [if_pos none, none]
    exact ⟨rfl, ⟨fun _ => rfl, fun _ => rfl⟩⟩
  · rw [if_neg none, bind_run]
    obtain ⟨total, ret⟩ := writeRangePagesLoop_accounted sound mode data.length addr data [] state
      le_rfl
    generalize writeRangePagesLoop ld mode data.length addr data [] state = final at total ret ⊢
    rw [programmedBytes_nil, Nat.zero_add] at total
    constructor
    · change data.length - final.1.2.1 = programmedBytes final.1.2.2
      omega
    · change final.1.1 = 0 ↔ data.length - final.1.2.1 = data.length
      rw [ret]
      omega

theorem mtdWriteData_accounted (nm : NmbmMtd) (cache : PageData) (addr : Nat) (mode : OobMode)
    (dat : List Byte) (ooboffs : Nat) (oob : List Byte) (state : State)
    (inside : ooboffs < mtdOobavail ld nm mode) :
    let result := (mtdWriteData ld nm cache addr mode dat ooboffs oob state).1
    Accounted result dat.length ↔ ∀ page ∈ result.pages, page.ret = 0 := by
  have column : addr &&& ld.writesizeMask < ld.writesize := by
    rw [sound.and_writesizeMask]
    exact Nat.mod_lt _ sound.writesize_pos
  have final := mtdWriteDataLoop_accounted nm mode (dat ≠ []) (oob ≠ []) (dat.length + oob.length)
    (pageBase ld addr) (addr &&& ld.writesizeMask) dat ooboffs oob cache ⟨0, 0, 0, []⟩ state 0 column
    inside le_rfl ⟨rfl, by simp, rfl, rfl⟩
  rw [Nat.zero_add] at final
  rcases final with good | bad
  · exact iff_of_true good.accounted good.pages
  · obtain ⟨page, among, failed⟩ := bad.pages
    exact iff_of_false bad.not_accounted fun all => failed (all page among)

theorem mtdPanicWrite_accounted (cache : List Byte) (addr : Nat) (buf : List Byte) (state : State) :
    let result := (mtdPanicWrite ld cache addr buf state).1
    Accounted result buf.length ↔ ∀ page ∈ result.pages, page.ret = 0 := by
  have column : addr &&& ld.writesizeMask < ld.writesize := by
    rw [sound.and_writesizeMask]
    exact Nat.mod_lt _ sound.writesize_pos
  have final := mtdPanicWriteLoop_accounted buf.length (pageBase ld addr)
    (addr &&& ld.writesizeMask) buf cache 0 [] state column le_rfl ⟨rfl, by simp, rfl, rfl⟩
  rw [Nat.zero_add] at final
  rw [mtdPanicWrite, bind_run]
  rcases final with good | ⟨⟨page, among, failed⟩, fewer⟩
  · exact iff_of_true good.accounted good.pages
  · exact iff_of_false (fun accounted => absurd accounted.retlen (Nat.ne_of_gt fewer))
      fun all => failed (all page among)

/-- Both kinds of write report right exactly if a request for no bytes at all is not turned
down, and no page fails in a panic write or in a request with spare bytes. -/
theorem writes_accounted_iff (nm : NmbmMtd) (cache : PageData) (state : State) (addr : Nat)
    (ops : MtdWrite) (buf : List Byte) :
    (Accounted (mtdWriteOob ld nm cache addr ops state).1 ops.len ↔
        (ops.len = 0 → ¬ops.Refused ld nm state.ni addr) ∧
          (ops.oob = none ∨
            ∀ page ∈ (mtdWriteOob ld nm cache addr ops state).1.pages, page.ret = 0)) ∧
      (Accounted (mtdPanicWrite ld cache.data addr buf state).1 buf.length ↔
        ∀ page ∈ (mtdPanicWrite ld cache.data addr buf state).1.pages, page.ret = 0) := by
  refine ⟨?_, mtdPanicWrite_accounted sound cache.data addr buf state⟩
  obtain ⟨mode, dat, oob, ooboffs⟩ := ops
  by_cases empty : dat = none ∧ oob = none
  · obtain ⟨rfl, rfl⟩ := empty
    have idle : (mtdWriteOob ld nm cache addr ⟨mode, none, none, ooboffs⟩ state).1 =
        ⟨0, 0, 0, []⟩ := by
      cases mode <;> simp [mtdWriteOob, pure, StateT.pure]
    rw [idle]
    exact iff_of_true ⟨rfl, ⟨fun _ => rfl, fun _ => rfl⟩⟩
      ⟨fun _ refused => refused.1.elim (absurd rfl) (absurd rfl), .inl rfl⟩
  have some_ : dat ≠ none ∨ oob ≠ none := not_and_or.mp empty
  have turnedDown {error : Int} (failed : error ≠ 0) (ops : MtdWrite)
      (is : (mtdWriteOob ld nm cache addr ops state).1 = ⟨error, 0, 0, []⟩)
      (refused : ops.Refused ld nm state.ni addr) :
      Accounted (mtdWriteOob ld nm cache addr ops state).1 ops.len ↔
        (ops.len = 0 → ¬ops.Refused ld nm state.ni addr) ∧
          (ops.oob = none ∨
            ∀ page ∈ (mtdWriteOob ld nm cache addr ops state).1.pages, page.ret = 0) := by
    rw [is, accounted_refused failed]
    exact ⟨fun some => ⟨fun none => absurd none some, .inr (by simp)⟩,
      fun holds none => holds.1 none refused⟩
  cases mode with
  | none =>
    refine turnedDown (by decide : -ENOTSUPP ≠ 0) _ ?_ ⟨some_, trivial⟩
    rw [mtdWriteOob]
    dsimp only
    rw [if_neg empty]
    rfl
  | some mode =>
    by_cases past : (dat.any fun dat => nm.size < addU64 addr dat.length) = true
    · refine turnedDown (by decide : -EINVAL ≠ 0) _ ?_ ⟨some_, .inl past⟩
      rw [mtdWriteOob]
      dsimp only
      rw [if_neg empty, if_pos past]
      rfl
    cases oob with
    | none =>
      have path : (mtdWriteOob ld nm cache addr ⟨some mode, dat, none, ooboffs⟩ state).1 =
          ⟨(writeRangePages ld addr (dat.getD []) mode state).1.1,
            (writeRangePages ld addr (dat.getD []) mode state).1.2.1.getD 0, 0,
            (writeRangePages ld addr (dat.getD []) mode state).1.2.2⟩ := by
        rw [mtdWriteOob]
        dsimp only
        rw [if_neg empty, if_neg past]
        rfl
      rw [path]
      refine (writeRangePages_accounted sound addr (dat.getD []) mode state).trans ?_
      have given : dat ≠ none := fun none => empty ⟨none, rfl⟩
      simp [MtdWrite.Refused, MtdWrite.len, past, given]
    | some oob =>
      by_cases outside : oobOutside ld nm addr mode ooboffs oob.length = true
      · refine turnedDown (by decide : -EINVAL ≠ 0) _ ?_ ⟨some_, .inr outside⟩
        rw [mtdWriteOob]
        dsimp only
        rw [if_neg empty, if_neg past, if_pos outside]
        rfl
      have path : (mtdWriteOob ld nm cache addr ⟨some mode, dat, some oob, ooboffs⟩ state).1 =
          (mtdWriteData ld nm cache addr mode (dat.getD []) ooboffs oob state).1 := by
        rw [mtdWriteOob]
        dsimp only
        rw [if_neg empty, if_neg past, if_neg outside]
      have inside : ooboffs < mtdOobavail ld nm mode := by
        simp only [oobOutside, Bool.or_eq_true, decide_eq_true_eq, not_or] at outside
        omega
      rw [path]
      refine (mtdWriteData_accounted sound nm cache addr mode (dat.getD []) ooboffs oob state
        inside).trans ?_
      simp [MtdWrite.Refused, past, outside]

end Sound

def programFaults (clocks : List Nat) (clock : Nat) : Fault :=
  if clocks.contains clock then { writeRet := - EIO } else {}

theorem writes_accounted_dataOnly : ∃ sys,
    run (faultyChip 9 []) [.attach creating 40] (initialSys (faultyChip 9 []) (erasedFlash [])) =
        some sys ∧
      Accounted (mtdWriteOob (faultyChip 9 []) ⟨1792, 8⟩ ⟨[], []⟩ 50
        ⟨some .placeOob, some (fill 100 0), none, 0⟩ sys.state).1 100 := by
  obtain ⟨sys, is⟩ : ∃ sys,
      run (faultyChip 9 []) [.attach creating 40] (initialSys (faultyChip 9 []) (erasedFlash [])) =
        some sys := Option.isSome_iff_exists.mp (by decide +kernel)
  refine ⟨sys, is, ?_⟩
  exact (writes_accounted_iff (smallChip_sound _ (by decide)) ⟨1792, 8⟩ ⟨[], []⟩ sys.state 50
    ⟨some .placeOob, some (fill 100 0), none, 0⟩ []).1.mpr
      ⟨fun none => absurd none (by decide), .inl rfl⟩

def wornChip : LowerDevice := smallChip 9 (programFaults [96, 97, 98])

/-- The page that fails is reported, by the panic write as a success. -/
theorem writes_miscounted : ∃ sys,
    run wornChip [.attach creating 40] (initialSys wornChip (erasedFlash [])) = some sys ∧
      sys.isAttached = true ∧
      ¬Accounted (mtdWriteOob wornChip ⟨1792, 8⟩ ⟨[], []⟩ 0
        ⟨some .placeOob, some (fill 100 0), some [0], 0⟩ sys.state).1 100 ∧
      ¬Accounted (mtdPanicWrite wornChip [] 0 (fill 100 0) sys.state).1 100 ∧
      (mtdPanicWrite wornChip [] 0 (fill 64 0) sys.state).1.ret = 0 ∧
      (mtdPanicWrite wornChip [] 0 (fill 64 0) sys.state).1.retlen = 64 ∧
      programmedBytes (mtdPanicWrite wornChip [] 0 (fill 64 0) sys.state).1.pages = 0 := by
  obtain ⟨sys, is, attached, oobPath, panicPath, rest⟩ : ∃ sys,
      run wornChip [.attach creating 40] (initialSys wornChip (erasedFlash [])) = some sys ∧
        sys.isAttached = true ∧
        (let result := (mtdWriteOob wornChip ⟨1792, 8⟩ ⟨[], []⟩ 0
          ⟨some .placeOob, some (fill 100 0), some [0], 0⟩ sys.state).1
        result.retlen ≠ programmedBytes result.pages) ∧
        (let result := (mtdPanicWrite wornChip [] 0 (fill 100 0) sys.state).1
        result.retlen ≠ programmedBytes result.pages) ∧
        (mtdPanicWrite wornChip [] 0 (fill 64 0) sys.state).1.ret = 0 ∧
        (mtdPanicWrite wornChip [] 0 (fill 64 0) sys.state).1.retlen = 64 ∧
        programmedBytes (mtdPanicWrite wornChip [] 0 (fill 64 0) sys.state).1.pages = 0 :=
    exists_of_any (by decide +kernel)
  exact ⟨sys, is, attached, fun accounted => oobPath accounted.retlen,
    fun accounted => panicPath accounted.retlen, rest⟩

end MetaFilogic.Nmbm
