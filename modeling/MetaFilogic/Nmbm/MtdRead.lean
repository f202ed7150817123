import MetaFilogic.Nmbm.Mtd
import MetaFilogic.Nmbm.Capacity
import MetaFilogic.Nmbm.RoundTrip

/-!
# The two read paths

`nmbm_read_range` and `nmbm_mtd_read_data` read the pages of a request one after the
other, up to the first one with an error other than an ECC error.  What they make of
the results is the same: `readPages` and `summary` describe both.  They differ in where
they start.  The mask that `nmbm_mtd_read_data` rounds the address with has 32 bits, so
from 4 GiB on it reads the pages of a lower address.
-/

namespace MetaFilogic.Nmbm

open Bytes

variable {ld : LowerDevice}

/-! ## The address of the first page -/

/-- The mask rounds the lower half of the address down and drops the upper half. -/
theorem pageBase_eq (sound : ld.Sound) (addr : Nat) :
    pageBase ld addr = addr % 2 ^ 32 / ld.writesize * ld.writesize := by
  obtain ⟨exponent, power⟩ := sound.writesize_pow
  have width : 2 ^ exponent < 2 ^ 32 := by
    rw [← power]
    exact sound.wholePages.trans_lt sound.erasesizeWidth
  have positive := Nat.two_pow_pos exponent
  rw [pageBase, LowerDevice.writesizeMask, power,
    show 2 ^ 32 - 1 - (2 ^ exponent - 1) = 2 ^ 32 - (2 ^ exponent - 1 + 1) by omega]
  apply Nat.eq_of_testBit_eq
  intro index
  rw [Nat.testBit_and, Nat.testBit_two_pow_sub_succ (by omega), Nat.testBit_two_pow_sub_one,
    Nat.testBit_mul_two_pow, Nat.testBit_div_two_pow, Nat.testBit_mod_two_pow]
  by_cases low : exponent ≤ index
  · rw [Nat.sub_add_cancel low]
    simp [Nat.not_lt.mpr low, low, Bool.and_comm]
  · simp [Nat.lt_of_not_le low]

theorem low_mod_writesize (sound : ld.Sound) (addr : Nat) :
    addr % 2 ^ 32 % ld.writesize = addr % ld.writesize := by
  obtain ⟨exponent, power⟩ := sound.writesize_pow
  have width : 2 ^ exponent < 2 ^ 32 := by
    rw [← power]
    exact sound.wholePages.trans_lt sound.erasesizeWidth
  rw [power]
  exact Nat.mod_mod_of_dvd _
    (Nat.pow_dvd_pow 2 ((Nat.pow_lt_pow_iff_right (by omega)).mp width).le)

/-! ## Reads and the page cache -/

theorem bind_run {α β : Type} (program : NmbmM α) (next : α → NmbmM β) (state : State) :
    (program >>= next) state = next (program state).1 (program state).2 :=
  rfl

theorem getNi_run {α : Type} (next : Instance → NmbmM α) (state : State) :
    (getNi >>= next) state = next state.ni state :=
  rfl

def State.withCache (state : State) (cache : PageData) : State :=
  { state with ni := { state.ni with pageCache := cache } }

theorem lowerReadPage_withCache (addr : Nat) (mode : OobMode) (state : State) (cache : PageData) :
    lowerReadPage ld addr mode (state.withCache cache) =
      ((lowerReadPage ld addr mode state).1,
        (lowerReadPage ld addr mode state).2.withCache cache) := by
  simp only [lowerReadPage, nextFault, bind, StateT.bind, get, getThe, MonadStateOf.get, StateT.get,
    pure, State.withCache]
  split
  · rfl
  · split <;> rfl

theorem readPhysPage_withCache (addr : Nat) (mode : OobMode) (state : State) (cache : PageData) :
    readPhysPage ld addr mode (state.withCache cache) =
      ((readPhysPage ld addr mode state).1, (readPhysPage ld addr mode state).2.withCache cache) := by
  have tries (count : Nat) (last : Int × PageData) (state : State) :
      readPhysPageTries ld addr mode count last (state.withCache cache) =
        ((readPhysPageTries ld addr mode count last state).1,
          (readPhysPageTries ld addr mode count last state).2.withCache cache) := by
    induction count generalizing last state with
    | zero => rfl
    | succ count ih =>
      simp only [readPhysPageTries, bind_run, lowerReadPage_withCache]
      split
      · rfl
      · exact ih _ _
  exact tries _ _ _

theorem lowerReadPage_ni (addr : Nat) (mode : OobMode) (state : State) :
    (lowerReadPage ld addr mode state).2 = { state with clock := state.clock + 1 } := by
  rw [lowerReadPage, bind_run, bind_run, ite_apply, ite_apply]
  split
  · rfl
  · split <;> rfl

theorem readPhysPage_ni (addr : Nat) (mode : OobMode) (state : State) :
    ∃ clock, (readPhysPage ld addr mode state).2 = { state with clock } := by
  have tries (count : Nat) (last : Int × PageData) (state : State) :
      ∃ clock, (readPhysPageTries ld addr mode count last state).2 = { state with clock } := by
    induction count generalizing last state with
    | zero => exact ⟨state.clock, rfl⟩
    | succ count ih =>
      have read := @lowerReadPage_ni ld addr mode state
      rw [readPhysPageTries, bind_run]
      split
      · exact ⟨_, read⟩
      · obtain ⟨clock, same⟩ := ih (lowerReadPage ld addr mode state).1
          (lowerReadPage ld addr mode state).2
        exact ⟨clock, by rw [same, read]⟩
  exact tries _ _ _

/-- Where `nmbm_read_logic_page` reads; `none` if it refuses to. -/
def Instance.physicalAddr (ld : LowerDevice) (ni : Instance) (addr : Nat) : Option Nat :=
  let pb := ni.blockMapping (ld.addr2ba addr)
  if isUnmapped pb ∨ ni.getBlockState pb.toNat = BLOCK_ST_BAD then none
  else some (ld.ba2addr pb.toNat + (addr &&& ld.erasesizeMask))

theorem readLogicPage_run (addr : Nat) (mode : OobMode) (state : State) :
    readLogicPage ld addr mode state =
      match state.ni.physicalAddr ld addr with
      | none => ((- EIO, ⟨[], []⟩), state)
      | some paddr => readPhysPage ld paddr mode state := by
  rw [readLogicPage, getNi_run]
  dsimp only [Instance.physicalAddr]
  by_cases unmapped : isUnmapped (state.ni.blockMapping (ld.addr2ba addr))
  · rw [if_pos unmapped, if_pos (Or.inl unmapped)]
    rfl
  · rw [if_neg unmapped]
    by_cases bad : state.ni.getBlockState (state.ni.blockMapping (ld.addr2ba addr)).toNat =
        BLOCK_ST_BAD
    · rw [if_pos bad, if_pos (Or.inr bad)]
      rfl
    · rw [if_neg bad, if_neg (not_or.mpr ⟨unmapped, bad⟩)]

theorem readLogicPage_withCache (addr : Nat) (mode : OobMode) (state : State) (cache : PageData) :
    readLogicPage ld addr mode (state.withCache cache) =
      ((readLogicPage ld addr mode state).1,
        (readLogicPage ld addr mode state).2.withCache cache) := by
  have same : (state.withCache cache).ni.physicalAddr ld addr = state.ni.physicalAddr ld addr := rfl
  rw [readLogicPage_run, readLogicPage_run, same]
  cases state.ni.physicalAddr ld addr with
  | none => rfl
  | some paddr => exact readPhysPage_withCache _ _ _ _

theorem readLogicPage_ni (addr : Nat) (mode : OobMode) (state : State) :
    (readLogicPage ld addr mode state).2.ni = state.ni ∧
      (readLogicPage ld addr mode state).2.flash = state.flash := by
  rw [readLogicPage_run]
  cases state.ni.physicalAddr ld addr with
  | none => exact ⟨rfl, rfl⟩
  | some paddr =>
    obtain ⟨clock, same⟩ := @readPhysPage_ni ld paddr mode state
    dsimp only
    rw [same]
    exact ⟨rfl, rfl⟩

/-! ## The pages of a request -/

def EndsRead (ret : Int) : Prop := ret < 0 ∧ ret ≠ -EBADMSG

instance (ret : Int) : Decidable (EndsRead ret) := by
  unfold EndsRead
  infer_instance

/-- The requested bytes that the pages of a request delivered, and the return value of each
page. -/
structure PagesRead where
  data : List Byte
  rets : List Int

/-- The pages of a request for `len` bytes from `col` on in the page at `base`, up to the
first one with an error other than an ECC error. -/
def readPages (ld : LowerDevice) (mode : OobMode) : (rounds base col len : Nat) → NmbmM PagesRead
  | 0, _, _, _ => return ⟨[], []⟩
  | rounds + 1, base, col, len => do
    if len = 0 then
      return ⟨[], []⟩
    else
      let result ← readLogicPage ld base mode
      if EndsRead result.1 then
        return ⟨[], [result.1]⟩
      else
        let chunk := min (ld.writesize - col) len
        let rest ← readPages ld mode rounds (base + ld.writesize) 0 (len - chunk)
        return ⟨(result.2.data.drop col).take chunk ++ rest.data, result.1 :: rest.rets⟩

/-- The return value for the pages to come, after `hasEccErr` and `maxBitflips`. -/
def summaryFrom (hasEccErr : Bool) (maxBitflips : Int) (rets : List Int) : Int :=
  match rets.find? fun ret => EndsRead ret with
  | some error => error
  | none =>
    if hasEccErr = true ∨ -EBADMSG ∈ rets then -EBADMSG else rets.foldl max maxBitflips

/-- The return value of a request: an error other than an ECC error, -EBADMSG if some page
had an ECC error, or the maximum of the bitflips. -/
def summary (rets : List Int) : Int := summaryFrom false 0 rets

theorem summaryFrom_cons {ret : Int} (goesOn : ¬EndsRead ret) (hasEccErr : Bool)
    (maxBitflips : Int) (rets : List Int) :
    summaryFrom hasEccErr maxBitflips (ret :: rets) =
      summaryFrom (hasEccErr || ret = -EBADMSG) (max maxBitflips ret) rets := by
  simp only [summaryFrom, List.find?_cons, decide_eq_false goesOn, List.foldl_cons,
    List.mem_cons, Bool.or_eq_true, decide_eq_true_eq, or_assoc, eq_comm (a := -EBADMSG)]

theorem readPages_done (mode : OobMode) (rounds base col : Nat) (state : State) :
    (readPages ld mode rounds base col 0 state).1 = ⟨[], []⟩ := by
  cases rounds <;> rfl

theorem readPages_length_le (mode : OobMode) (rounds base col len : Nat) (state : State) :
    (readPages ld mode rounds base col len state).1.data.length ≤ len := by
  induction rounds generalizing base col len state with
  | zero => exact Nat.zero_le _
  | succ rounds ih =>
    by_cases done : len = 0
    · rw [done, readPages_done]
      exact Nat.le_refl 0
    · rw [readPages, if_neg done, bind_run]
      obtain ⟨⟨ret, page⟩, after⟩ := readLogicPage ld base mode state
      dsimp only
      split
      · exact Nat.zero_le _
      · have rest := ih (base + ld.writesize) 0 (len - min (ld.writesize - col) len) after
        rw [bind_run]
        simp only [pure, StateT.pure, List.length_append, List.length_take]
        omega

theorem readLogicPage_length (addr : Nat) (mode : OobMode) (state : State)
    (goesOn : ¬EndsRead (readLogicPage ld addr mode state).1.1) :
    (readLogicPage ld addr mode state).1.2.data.length = ld.writesize := by
  rw [readLogicPage_run] at goesOn ⊢
  cases is : state.ni.physicalAddr ld addr with
  | none =>
    rw [is] at goesOn
    exact absurd (by decide : EndsRead (- EIO)) goesOn
  | some paddr => exact (readPhysPage_spec paddr mode state).1.1

/-- Where a request goes on after a chunk: at the start of the next page, unless nothing is
left. -/
theorem readPages_next (sound : ld.Sound) (mode : OobMode) (rounds off len : Nat) (state : State) :
    let chunk := min (ld.writesize - off % ld.writesize) len
    (readPages ld mode rounds (off + chunk - (off + chunk) % ld.writesize)
        ((off + chunk) % ld.writesize) (len - chunk) state).1 =
      (readPages ld mode rounds (off - off % ld.writesize + ld.writesize) 0 (len - chunk) state).1 := by
  intro chunk
  by_cases done : len - chunk = 0
  · rw [done, readPages_done, readPages_done]
  · have column := Nat.mod_lt off sound.writesize_pos
    have whole : off + chunk = off - off % ld.writesize + ld.writesize := by
      have low := Nat.mod_le off ld.writesize
      omega
    have aligned : (off + chunk) % ld.writesize = 0 := by
      have split := Nat.div_add_mod off ld.writesize
      rw [whole, Nat.add_mod_right, show off - off % ld.writesize = ld.writesize * (off / ld.writesize)
        by omega, Nat.mul_mod_right]
    rw [aligned, whole, Nat.sub_zero]

theorem readRangeLoop_run (sound : ld.Sound) (size : Nat) (mode : OobMode) (rounds off len : Nat)
    (ptr : List Byte) (hasEccErr : Bool) (maxBitflips : Int) (state : State) (cache : PageData) :
    let pages :=
      (readPages ld mode rounds (off - off % ld.writesize) (off % ld.writesize) len state).1
    (readRangeLoop ld size mode rounds off len ptr hasEccErr maxBitflips
        (state.withCache cache)).1 =
      ⟨summaryFrom hasEccErr maxBitflips pages.rets, ptr ++ pages.data,
        some (size - (len - pages.data.length))⟩ := by
  induction rounds generalizing off len ptr hasEccErr maxBitflips state cache with
  | zero => simp [readRangeLoop, readPages, summaryFrom, pure, StateT.pure]
  | succ rounds ih =>
    by_cases done : len = 0
    · subst done
      simp [readRangeLoop, readPages, summaryFrom, pure, StateT.pure]
    · have positive := sound.writesize_pos
      have column := Nat.mod_lt off positive
      have sized := @readLogicPage_length ld (off - off % ld.writesize) mode state
      rw [readRangeLoop, readPages, if_neg done, if_neg done, sound.and_writesizeMask, bind_run,
        bind_run, readLogicPage_withCache]
      generalize readLogicPage ld (off - off % ld.writesize) mode state = result at sized ⊢
      obtain ⟨⟨ret, page⟩, after⟩ := result
      dsimp only at sized ⊢
      by_cases ends : EndsRead ret
      · have first : summaryFrom hasEccErr maxBitflips [ret] = ret := by
          simp [summaryFrom, ends]
        rw [if_pos ends]
        split <;> simp only [if_pos (show ret < 0 ∧ ret ≠ -EBADMSG from ends)] <;>
          simp [cacheData, modifyNi, bind_run, pure, StateT.pure, first]
      · have taken : ((page.data.drop (off % ld.writesize)).take
            (min (ld.writesize - off % ld.writesize) len)).length =
              min (ld.writesize - off % ld.writesize) len := by
          rw [List.length_take, List.length_drop, sized ends]
          omega
        have rest (cache : PageData) := ih (off + min (ld.writesize - off % ld.writesize) len)
          (len - min (ld.writesize - off % ld.writesize) len)
          (ptr ++ (page.data.drop (off % ld.writesize)).take
            (min (ld.writesize - off % ld.writesize) len))
          (hasEccErr || ret = -EBADMSG) (max maxBitflips ret) after cache
        simp only [readPages_next sound] at rest
        rw [if_neg ends, bind_run]
        generalize readPages ld mode rounds (off - off % ld.writesize + ld.writesize) 0
          (len - min (ld.writesize - off % ld.writesize) len) after = pages at rest ⊢
        have total : len - min (ld.writesize - off % ld.writesize) len - pages.1.data.length =
            len - (min (ld.writesize - off % ld.writesize) len + pages.1.data.length) := by
          omega
        simp only [pure, StateT.pure, summaryFrom_cons ends, List.length_append, taken, ← total,
          ← List.append_assoc]
        simp only [if_neg (show ¬(ret < 0 ∧ ret ≠ -EBADMSG) from ends)]
        split
        · exact rest _
        · exact rest _

theorem readSinglePage_eq {state : State} (unprotected : state.ni.isProtected = false) {addr : Nat}
    (inside : addr < ld.ba2addr state.ni.dataBlockCount) (mode : OobMode) :
    readSinglePage ld addr mode state = readLogicPage ld addr mode state := by
  rw [readSinglePage, getNi_run, if_neg (by simp [unprotected]), if_neg (by omega)]

theorem mtdReadDataLoop_run (sound : ld.Sound) (nm : NmbmMtd) (mode : OobMode)
    (rounds base col len ooboffs : Nat) (dat oob : List Byte) (hasEccErr : Bool) (maxBitflips : Int)
    (state : State) (column : col < ld.writesize) (unprotected : state.ni.isProtected = false)
    (inside : len ≠ 0 → base + col + len ≤ ld.ba2addr state.ni.dataBlockCount) :
    let pages := (readPages ld mode rounds base col len state).1
    (mtdReadDataLoop ld nm mode rounds base col len ooboffs 0 dat oob hasEccErr maxBitflips
        state).1 =
      ⟨summaryFrom hasEccErr maxBitflips pages.rets, dat ++ pages.data, oob⟩ := by
  induction rounds generalizing base col len ooboffs dat hasEccErr maxBitflips state with
  | zero => simp [mtdReadDataLoop, readPages, summaryFrom, pure, StateT.pure]
  | succ rounds ih =>
    by_cases done : len = 0
    · subst done
      simp [mtdReadDataLoop, readPages, summaryFrom, pure, StateT.pure]
    · have same := (@readLogicPage_ni ld base mode state).1
      rw [mtdReadDataLoop, readPages, if_neg done, if_neg (by simp [done]), bind_run, bind_run,
        readSinglePage_eq unprotected (by have within := inside done; omega)]
      generalize readLogicPage ld base mode state = result at same ⊢
      obtain ⟨⟨ret, page⟩, after⟩ := result
      dsimp only at same ⊢
      by_cases ends : EndsRead ret
      · have first : summaryFrom hasEccErr maxBitflips [ret] = ret := by
          simp [summaryFrom, ends]
        rw [if_pos ends, if_pos (show ret < 0 ∧ ret ≠ -EBADMSG from ends)]
        simp [pure, StateT.pure, first]
      · rw [if_neg ends, if_neg (show ¬(ret < 0 ∧ ret ≠ -EBADMSG) from ends), bind_run]
        have rest := ih (base + ld.writesize) 0 (len - min (ld.writesize - col) len) 0
          (dat ++ (page.data.drop col).take (min (ld.writesize - col) len))
          (hasEccErr || ret = -EBADMSG) (max maxBitflips ret) after sound.writesize_pos
          (same ▸ unprotected) (fun more => by have within := inside done; rw [same]; omega)
        simp only [Nat.min_zero, Nat.sub_zero, List.take_zero, List.append_nil]
        rw [rest]
        simp [pure, StateT.pure, summaryFrom_cons ends]

/-- The pages of a request for `size` bytes from `addr` on. -/
def requestPages (ld : LowerDevice) (addr size : Nat) (mode : OobMode) : NmbmM PagesRead :=
  readPages ld mode size (addr - addr % ld.writesize) (addr % ld.writesize) size

section Requests

variable (sound : ld.Sound) {state : State} (unprotected : state.ni.isProtected = false)
  {addr size : Nat} (starts : addr < ld.ba2addr state.ni.dataBlockCount)
  (ends : addr + size ≤ ld.ba2addr state.ni.dataBlockCount)

include sound unprotected starts ends

theorem readRange_run (width : ld.ba2addr state.ni.dataBlockCount < 2 ^ 64) (mode : OobMode) :
    let pages := (requestPages ld addr size mode state).1
    (readRange ld addr size mode state).1.ret = summary pages.rets ∧
      (readRange ld addr size mode state).1.data = pages.data ∧
        (readRange ld addr size mode state).1.retlen.getD 0 = pages.data.length := by
  have sum : addU64 addr size = addr + size := Nat.mod_eq_of_lt (by omega)
  have run := readRangeLoop_run sound size mode size addr size [] false 0 state
    state.ni.pageCache
  intro pages
  rw [readRange, getNi_run, if_neg (by simp [unprotected]), if_neg (by omega), sum,
    if_neg (by omega)]
  by_cases none : size = 0
  · have nothing : pages = ⟨[], []⟩ := by
      simp only [pages, requestPages, none, readPages_done]
    rw [if_pos none, nothing]
    exact ⟨rfl, rfl, rfl⟩
  · have fits := @readPages_length_le ld mode size (addr - addr % ld.writesize)
      (addr % ld.writesize) size state
    have all : size - (size - pages.data.length) = pages.data.length := by
      simp only [pages, requestPages]
      omega
    rw [if_neg none, show readRangeLoop ld size mode size addr size [] false 0 state = _ from rfl]
    refine ⟨congrArg RangeRead.ret run, congrArg RangeRead.data run, ?_⟩
    rw [← all]
    exact congrArg (fun read : RangeRead => read.retlen.getD 0) run

omit starts in
theorem mtdReadData_run (nm : NmbmMtd) (mode : OobMode) (ooboffs : Nat) :
    let pages := (requestPages ld (addr % 2 ^ 32) size mode state).1
    (mtdReadData ld nm addr mode size ooboffs 0 state).1 =
      ⟨summary pages.rets, pages.data, []⟩ := by
  have start : addr % 2 ^ 32 - addr % 2 ^ 32 % ld.writesize = pageBase ld addr := by
    have split := Nat.div_add_mod (addr % 2 ^ 32) ld.writesize
    rw [pageBase_eq sound, Nat.mul_comm]
    omega
  have low := Nat.mod_le addr (2 ^ 32)
  have inPage := Nat.mod_le (addr % 2 ^ 32) ld.writesize
  have column := low_mod_writesize sound addr
  rw [requestPages, start, low_mod_writesize sound, mtdReadData, sound.and_writesizeMask, Nat.add_zero]
  exact mtdReadDataLoop_run sound nm mode size (pageBase ld addr) (addr % ld.writesize) size ooboffs
    [] [] false 0 state (Nat.mod_lt _ sound.writesize_pos) unprotected (fun _ => by omega)

end Requests

/-! ## Where the pages lie -/

/-- Where a logical page is read from: the block may be unusable, the mapping may lead
beyond the chip. -/
inductive Place where
  | unusable
  | outside
  | page (number : Nat)
  deriving DecidableEq

def Instance.place (ld : LowerDevice) (ni : Instance) (addr : Nat) : Place :=
  match ni.physicalAddr ld addr with
  | none => .unusable
  | some paddr => if ld.size ≤ paddr then .outside else .page (ld.pageOf paddr)

def readPlaces (ld : LowerDevice) (ni : Instance) : (rounds base col len : Nat) → List Place
  | 0, _, _, _ => []
  | rounds + 1, base, col, len =>
    if len = 0 then []
    else if ni.place ld base = .unusable then [.unusable]
    else
      ni.place ld base ::
        readPlaces ld ni rounds (base + ld.writesize) 0 (len - min (ld.writesize - col) len)

/-- The places of a request for `size` bytes from `addr` on. -/
def requestPlaces (ld : LowerDevice) (ni : Instance) (addr size : Nat) : List Place :=
  readPlaces ld ni size (addr - addr % ld.writesize) (addr % ld.writesize) size

theorem lowerReadPage_congr {addr other : Nat} (outside : ld.size ≤ addr ↔ ld.size ≤ other)
    (page : addr < ld.size → ld.pageOf addr = ld.pageOf other) (mode : OobMode) :
    lowerReadPage ld addr mode = lowerReadPage ld other mode := by
  funext state
  simp only [lowerReadPage, bind_run]
  by_cases beyond : ld.size ≤ addr
  · simp only [if_pos beyond, if_pos (outside.mp beyond)]
  · simp only [if_neg beyond, if_neg (mt outside.mpr beyond), page (by omega)]

theorem readLogicPage_congr {state : State} {addr other : Nat}
    (same : state.ni.place ld addr = state.ni.place ld other) (mode : OobMode) :
    readLogicPage ld addr mode state = readLogicPage ld other mode state := by
  rw [readLogicPage_run, readLogicPage_run]
  simp only [Instance.place] at same
  cases here : state.ni.physicalAddr ld addr with
  | none =>
    cases there : state.ni.physicalAddr ld other with
    | none => rfl
    | some paddr =>
      simp only [here, there] at same
      split at same <;> cases same
  | some paddr =>
    cases there : state.ni.physicalAddr ld other with
    | none =>
      simp only [here, there] at same
      split at same <;> cases same
    | some otherPaddr =>
      simp only [here, there] at same
      have read : lowerReadPage ld paddr mode = lowerReadPage ld otherPaddr mode := by
        refine lowerReadPage_congr ?_ (fun inside => ?_) mode
        · by_cases beyond : ld.size ≤ paddr <;> by_cases beyondToo : ld.size ≤ otherPaddr <;>
            simp [beyond, beyondToo] at same ⊢
        · rw [if_neg (by omega)] at same
          split at same
          · cases same
          · exact Place.page.inj same
      have tries (count : Nat) (last : Int × PageData) :
          readPhysPageTries ld paddr mode count last =
            readPhysPageTries ld otherPaddr mode count last := by
        induction count generalizing last with
        | zero => rfl
        | succ count ih => simp only [readPhysPageTries, read, ih]
      exact congrFun (tries _ _) state

theorem readLogicPage_unusable {state : State} {addr : Nat}
    (unusable : state.ni.place ld addr = .unusable) (mode : OobMode) :
    readLogicPage ld addr mode state = ((- EIO, ⟨[], []⟩), state) := by
  rw [readLogicPage_run]
  simp only [Instance.place] at unusable
  cases is : state.ni.physicalAddr ld addr with
  | none => rfl
  | some paddr =>
    simp only [is] at unusable
    split at unusable <;> cases unusable

theorem readPages_congr (mode : OobMode) (rounds base other col len : Nat) (state : State)
    (same : readPlaces ld state.ni rounds base col len =
      readPlaces ld state.ni rounds other col len) :
    (readPages ld mode rounds base col len state).1 =
      (readPages ld mode rounds other col len state).1 := by
  induction rounds generalizing base other col len state with
  | zero => rfl
  | succ rounds ih =>
    by_cases done : len = 0
    · rw [done, readPages_done, readPages_done]
    · rw [readPlaces, readPlaces, if_neg done, if_neg done] at same
      have first : state.ni.place ld base = state.ni.place ld other := by
        split at same <;> split at same <;> simp_all
      have kept := (@readLogicPage_ni ld other mode state).1
      have refused : state.ni.place ld other = .unusable →
          (readLogicPage ld other mode state).1.1 = - EIO := fun unusable => by
        rw [readLogicPage_unusable unusable]
      rw [readPages, readPages, if_neg done, if_neg done, bind_run, bind_run,
        readLogicPage_congr first]
      generalize readLogicPage ld other mode state = result at kept refused ⊢
      obtain ⟨⟨ret, page⟩, after⟩ := result
      dsimp only at kept ⊢
      by_cases ends : EndsRead ret
      · rw [if_pos ends, if_pos ends]
      · have usable : state.ni.place ld other ≠ .unusable := by
          intro unusable
          rw [show ret = - EIO from refused unusable] at ends
          exact ends (by decide)
        rw [first, if_neg usable, if_neg usable, List.cons_eq_cons] at same
        rw [if_neg ends, if_neg ends, bind_run, bind_run]
        simp only [pure, StateT.pure]
        rw [ih _ _ _ _ after (kept ▸ same.2)]

/-! ## Telling two requests apart -/

/-- For `count` pages every read has an ECC error, and every later call succeeds. -/
structure EccFor (ld : LowerDevice) (count : Nat) (state : State) : Prop where
  errors : ∀ clock, state.clock ≤ clock → clock < state.clock + 3 * count →
    ld.fault clock = { readRet := -EBADMSG }
  calm : ∀ clock, state.clock + 3 * count ≤ clock → ld.fault clock = {}

theorem EccFor.rest {count : Nat} {state : State} (ecc : EccFor ld (count + 1) state) :
    EccFor ld count { state with clock := state.clock + 3 } := by
  constructor
  · intro clock low high
    dsimp only at low high
    exact ecc.errors clock (by omega) (by omega)
  · intro clock low
    dsimp only at low
    exact ecc.calm clock (by omega)

theorem lowerReadPage_ecc {state : State} (error : ld.fault state.clock = { readRet := -EBADMSG })
    (addr : Nat) (mode : OobMode) :
    lowerReadPage ld addr mode state =
      ((-EBADMSG, ld.sized ⟨[], []⟩), { state with clock := state.clock + 1 }) := by
  rw [lowerReadPage, bind_run, bind_run]
  simp only [nextFault, error]
  rfl

theorem readLogicPage_ecc {count : Nat} {state : State} (ecc : EccFor ld (count + 1) state)
    {addr : Nat} (usable : state.ni.place ld addr ≠ .unusable) (mode : OobMode) :
    readLogicPage ld addr mode state =
      ((-EBADMSG, ld.sized ⟨[], []⟩), { state with clock := state.clock + 3 }) := by
  have error (tries : Nat) (few : tries < 3) :
      ld.fault (state.clock + tries) = { readRet := -EBADMSG } :=
    ecc.errors _ (by omega) (by omega)
  rw [readLogicPage_run]
  cases is : state.ni.physicalAddr ld addr with
  | none => exact absurd (by simp [Instance.place, is]) usable
  | some paddr =>
    have failed : ¬(-EBADMSG : Int) ≥ 0 := by decide
    dsimp only
    rw [readPhysPage, NMBM_TRY_COUNT, readPhysPageTries, bind_run,
      lowerReadPage_ecc (error 0 (by omega))]
    dsimp only
    rw [if_neg failed, readPhysPageTries, bind_run, lowerReadPage_ecc (error 1 (by omega))]
    dsimp only
    rw [if_neg failed, readPhysPageTries, bind_run, lowerReadPage_ecc (error 2 (by omega))]
    dsimp only
    rw [if_neg failed]
    rfl

theorem readLogicPage_page {state : State} (calm : Calm ld state) {addr number : Nat}
    (is : state.ni.place ld addr = .page number) (mode : OobMode) :
    (readLogicPage ld addr mode state).1 = (0, ld.sized (state.flash.page number)) := by
  rw [readLogicPage_run]
  simp only [Instance.place] at is
  cases at_ : state.ni.physicalAddr ld addr with
  | none =>
    simp only [at_] at is
    cases is
  | some paddr =>
    simp only [at_] at is
    by_cases beyond : ld.size ≤ paddr
    · rw [if_pos beyond] at is
      cases is
    · rw [if_neg beyond] at is
      rw [← Place.page.inj is]
      exact (readPhysPage_calm calm mode (by omega)).1

theorem readLogicPage_outside {state : State} (calm : Calm ld state) {addr : Nat}
    (is : state.ni.place ld addr = .outside) (mode : OobMode) :
    (readLogicPage ld addr mode state).1.1 = -EINVAL := by
  rw [readLogicPage_run]
  simp only [Instance.place] at is
  cases at_ : state.ni.physicalAddr ld addr with
  | none =>
    simp only [at_] at is
    cases is
  | some paddr =>
    simp only [at_] at is
    by_cases beyond : ld.size ≤ paddr
    · exact (readPhysPage_outside calm mode beyond).1
    · rw [if_neg beyond] at is
      cases is

def PagesRead.failure (pages : PagesRead) : Option Int := pages.rets.find? fun ret => EndsRead ret

def plainPages (ld : LowerDevice) (byte : Nat → Byte) (number : Nat) : PageData :=
  ⟨fill ld.writesize (byte number), []⟩

def Place.opening (byte : Nat → Byte) : Place → Option Byte × Option Int
  | .unusable => (none, some (- EIO))
  | .outside => (none, some (-EINVAL))
  | .page number => (some (byte number), none)

theorem Place.opening_page {byte : Nat → Byte} {place : Place} {first : Byte}
    (is : (place.opening byte).1 = some first) : (place.opening byte).2 = none := by
  cases place with
  | unusable => cases is
  | outside => cases is
  | page number => rfl

theorem Place.opening_injective {place other : Place}
    (same : place.opening (fun number => if place = .page number then 0 else 1) =
      other.opening fun number => if place = .page number then 0 else 1) : place = other := by
  cases place with
  | page number =>
    cases other with
    | page otherNumber => simpa [opening] using same
    | _ => cases congrArg Prod.fst same
  | unusable =>
    cases other with
    | unusable => rfl
    | outside => exact absurd (congrArg Prod.snd same) (by decide)
    | page => cases congrArg Prod.fst same
  | outside =>
    cases other with
    | unusable => exact absurd (congrArg Prod.snd same) (by decide)
    | outside => rfl
    | page => cases congrArg Prod.fst same

theorem readPages_opening {state : State} (calm : Calm ld state) {byte : Nat → Byte}
    (plain : state.flash.page = plainPages ld byte) (mode : OobMode) (rounds base : Nat)
    {col len : Nat} (column : col < ld.writesize) (some : len ≠ 0) :
    let pages := (readPages ld mode (rounds + 1) base col len state).1
    pages.data.head? = ((state.ni.place ld base).opening byte).1 ∧
      (pages.data = [] → pages.failure = ((state.ni.place ld base).opening byte).2) := by
  intro pages
  have first : pages = (readPages ld mode (rounds + 1) base col len state).1 := rfl
  rw [readPages, if_neg some, bind_run] at first
  cases is : state.ni.place ld base with
  | unusable =>
    rw [readLogicPage_unusable is, if_pos (by decide : EndsRead (- EIO))] at first
    rw [first]
    exact ⟨rfl, fun _ => rfl⟩
  | outside =>
    have ret := readLogicPage_outside calm is mode
    rw [ret, if_pos (by decide)] at first
    rw [first]
    exact ⟨rfl, fun _ => rfl⟩
  | page number =>
    have result := readLogicPage_page calm is mode
    rw [result, if_neg (by decide : ¬EndsRead 0), bind_run] at first
    have chunk : ∃ rest, ((ld.sized (state.flash.page number)).data.drop col).take
        (min (ld.writesize - col) len) = byte number :: rest := by
      have whole : (ld.sized (state.flash.page number)).data = fill ld.writesize (byte number) := by
        rw [plain, LowerDevice.sized, plainPages]
        dsimp only
        rw [List.takeD_eq_take _ (fill_length _ _).ge, List.take_of_length_le (fill_length _ _).le]
      obtain ⟨more, more_eq⟩ := Nat.exists_eq_add_of_lt
        (show 0 < min (min (ld.writesize - col) len) (ld.writesize - col) by omega)
      rw [whole, fill, List.drop_replicate, List.take_replicate, more_eq]
      exact ⟨_, rfl⟩
    obtain ⟨rest, chunk⟩ := chunk
    rw [chunk] at first
    rw [first]
    exact ⟨rfl, fun none => by cases none⟩

def LowerDevice.behaving (ld : LowerDevice) (fault : Nat → Fault) : LowerDevice := { ld with fault }

@[simp]
theorem LowerDevice.behaving_writesize (ld : LowerDevice) (fault : Nat → Fault) :
    (ld.behaving fault).writesize = ld.writesize :=
  rfl

theorem readPlaces_behaving (ld : LowerDevice) (fault : Nat → Fault) (ni : Instance)
    (rounds base col len : Nat) :
    readPlaces (ld.behaving fault) ni rounds base col len = readPlaces ld ni rounds base col len := by
  induction rounds generalizing base col len with
  | zero => rfl
  | succ rounds ih =>
    rw [readPlaces, readPlaces, ih]
    rfl

/-- Unless the pages of two requests lie at the same places, some behaviour of the device
tells the requests apart. -/
theorem readPages_differ (ld : LowerDevice) (positive : 0 < ld.writesize) (ni : Instance)
    (mode : OobMode) (rounds base other col len : Nat) (column : col < ld.writesize)
    (different : readPlaces ld ni rounds base col len ≠ readPlaces ld ni rounds other col len) :
    ∃ (count : Nat) (byte : Nat → Byte), ∀ (fault : Nat → Fault) (state : State),
      state.ni = ni → state.flash.page = plainPages ld byte →
      EccFor (ld.behaving fault) count state →
      let first := (readPages (ld.behaving fault) mode rounds base col len state).1
      let second := (readPages (ld.behaving fault) mode rounds other col len state).1
      first.data ≠ second.data ∨ first.failure ≠ second.failure := by
  induction rounds generalizing base other col len with
  | zero => exact absurd rfl different
  | succ rounds ih =>
    have some : len ≠ 0 := by
      intro none
      exact different (by rw [readPlaces, readPlaces, if_pos none, if_pos none])
    rw [readPlaces, readPlaces, if_neg some, if_neg some] at different
    by_cases same : ni.place ld base = ni.place ld other
    · have usable : ni.place ld other ≠ .unusable := by
        intro unusable
        rw [same, if_pos unusable, if_pos unusable] at different
        exact different rfl
      rw [same, if_neg usable, if_neg usable] at different
      obtain ⟨count, byte, tells⟩ := ih (base + ld.writesize) (other + ld.writesize) 0
        (len - min (ld.writesize - col) len) positive fun rest => different (by rw [rest])
      refine ⟨count + 1, byte, fun fault state here plain ecc => ?_⟩
      subst here
      have firstUsable : state.ni.place (ld.behaving fault) base ≠ .unusable := same ▸ usable
      have secondUsable : state.ni.place (ld.behaving fault) other ≠ .unusable := usable
      have tells := tells fault { state with clock := state.clock + 3 } rfl plain ecc.rest
      have goesOn : ¬EndsRead (-EBADMSG) := by decide
      rw [readPages, readPages, if_neg some, if_neg some, bind_run, bind_run,
        readLogicPage_ecc ecc firstUsable, readLogicPage_ecc ecc secondUsable]
      dsimp only at tells ⊢
      rw [if_neg goesOn, if_neg goesOn, bind_run, bind_run]
      simpa [pure, StateT.pure, PagesRead.failure, goesOn] using tells
    · -- The first page tells them apart
      refine ⟨0, fun number => if ni.place ld base = .page number then 0 else 1,
        fun fault state here plain ecc => ?_⟩
      subst here
      have calm : Calm (ld.behaving fault) state := fun clock low => ecc.calm clock (by omega)
      have first := readPages_opening calm plain mode rounds base column some
      have second := readPages_opening calm plain mode rounds other column some
      have places : state.ni.place (ld.behaving fault) base = state.ni.place ld base ∧
          state.ni.place (ld.behaving fault) other = state.ni.place ld other := ⟨rfl, rfl⟩
      dsimp only at first second ⊢
      rw [places.1] at first
      rw [places.2] at second
      by_contra alike
      push Not at alike
      rw [alike.1, alike.2] at first
      refine same (Place.opening_injective (Prod.ext (first.1.symm.trans second.1) ?_))
      cases data : (readPages (ld.behaving fault) mode (rounds + 1) other col len state).1.data with
      | nil => exact (first.2 data).symm.trans (second.2 data)
      | cons byte rest =>
        rw [data] at first second
        rw [Place.opening_page first.1.symm, Place.opening_page second.1.symm]

theorem le_foldl_max (rets : List Int) (maxBitflips : Int) :
    maxBitflips ≤ rets.foldl max maxBitflips := by
  induction rets generalizing maxBitflips with
  | nil => exact le_refl _
  | cons ret rets ih => exact (Int.le_max_left _ _).trans (ih _)

theorem PagesRead.failure_eq (pages : PagesRead) :
    pages.failure = if EndsRead (summary pages.rets) then some (summary pages.rets) else none := by
  rw [failure, summary, summaryFrom]
  cases found : pages.rets.find? fun ret => EndsRead ret with
  | some error =>
    have ends : EndsRead error := by simpa using List.find?_some found
    rw [if_pos ends]
  | none =>
    dsimp only
    rw [if_neg]
    split
    · decide
    · exact fun ends => absurd (le_foldl_max pages.rets 0) (Int.not_le.mpr ends.1)

/-! ## The two read paths -/

theorem LowerDevice.Sound.behaving (sound : ld.Sound) (fault : Nat → Fault) :
    (ld.behaving fault).Sound :=
  ⟨sound.accepted, sound.wholePages, sound.wholeBlocks, sound.erasesizeWidth, sound.tableWidth⟩

/-- Both read paths deliver the same bytes, count and return value, and this is the value that
the pages of the request call for. -/
structure ReadPathsAgree (ld : LowerDevice) (nm : NmbmMtd) (state : State) (addr size : Nat)
    (mode : OobMode) (ooboffs : Nat) : Prop where
  data : (readRange ld addr size mode state).1.data =
    (mtdReadData ld nm addr mode size ooboffs 0 state).1.dat
  retlen : (readRange ld addr size mode state).1.retlen.getD 0 =
    (mtdReadData ld nm addr mode size ooboffs 0 state).1.dat.length
  ret : (readRange ld addr size mode state).1.ret =
    (mtdReadData ld nm addr mode size ooboffs 0 state).1.ret
  summarised : (readRange ld addr size mode state).1.ret =
    summary (requestPages ld addr size mode state).1.rets

theorem dataBytes_lt (sound : ld.Sound) {flash : Flash} {ops : List Op} {sys : Sys}
    (is : run ld ops (initialSys ld flash) = some sys) (attached : sys.isAttached = true) :
    ld.ba2addr sys.state.ni.dataBlockCount < 2 ^ 64 := by
  have covered := run_covered sound (fun none => absurd none Bool.false_ne_true) is attached
  have blocks : sys.state.ni.dataBlockCount < 2 ^ 32 := covered.within.trans_lt (BitVec.isLt _)
  rw [sound.ba2addr_eq]
  calc
    sys.state.ni.dataBlockCount * ld.erasesize < 2 ^ 32 * 2 ^ 32 :=
      Nat.mul_lt_mul_of_lt_of_lt blocks sound.erasesizeWidth
    _ = 2 ^ 64 := by decide

/-- The two read paths agree, whatever the pages deliver, exactly if the request starts below
4 GiB or its pages lie where those of the lower address do. -/
theorem readPaths_agree_iff (sound : ld.Sound) {flash : Flash} {ops : List Op} {sys : Sys}
    (is : run ld ops (initialSys ld flash) = some sys) (attached : sys.isAttached = true)
    (unprotected : sys.state.ni.isProtected = false) {addr size : Nat}
    (starts : addr < ld.ba2addr sys.state.ni.dataBlockCount)
    (ends : addr + size ≤ ld.ba2addr sys.state.ni.dataBlockCount) (nm : NmbmMtd) (mode : OobMode)
    (ooboffs : Nat) :
    (∀ (fault : Nat → Fault) (flash : Flash),
        ReadPathsAgree (ld.behaving fault) nm { sys.state with flash } addr size mode ooboffs) ↔
      addr < 2 ^ 32 ∨ requestPlaces ld sys.state.ni addr size =
        requestPlaces ld sys.state.ni (addr % 2 ^ 32) size := by
  have width := dataBytes_lt sound is attached
  have range (fault : Nat → Fault) (flash : Flash) := @readRange_run (ld.behaving fault)
    (sound.behaving fault) { sys.state with flash } unprotected addr size starts ends width mode
  have mtd (fault : Nat → Fault) (flash : Flash) := @mtdReadData_run (ld.behaving fault)
    (sound.behaving fault) { sys.state with flash } unprotected addr size ends nm mode ooboffs
  constructor
  · intro agree
    by_contra apart
    rw [not_or] at apart
    have different := apart.2
    rw [requestPlaces, requestPlaces, low_mod_writesize sound] at different
    obtain ⟨count, byte, tells⟩ := readPages_differ ld sound.writesize_pos sys.state.ni mode size _ _
      _ _ (Nat.mod_lt addr sound.writesize_pos) different
    let fault (clock : Nat) : Fault :=
      if clock < sys.state.clock + 3 * count then { readRet := -EBADMSG } else {}
    let flash : Flash := ⟨plainPages ld byte, fun _ => false⟩
    have ecc : EccFor (ld.behaving fault) count { sys.state with flash } :=
      ⟨fun clock _ high => if_pos high, fun clock low => if_neg (by dsimp only at low; omega)⟩
    have differ := tells fault { sys.state with flash } rfl rfl ecc
    have agree := agree fault flash
    have range := range fault flash
    have mtd := mtd fault flash
    rw [requestPages, low_mod_writesize (sound.behaving fault)] at mtd
    rw [requestPages] at range
    have data := agree.data
    have ret := agree.ret
    rw [range.2.1, mtd] at data
    rw [range.1, mtd] at ret
    dsimp only [LowerDevice.behaving_writesize] at data ret differ
    rw [PagesRead.failure_eq, PagesRead.failure_eq, ret] at differ
    exact differ.elim (fun bytes => bytes data) fun failures => failures rfl
  · intro same fault flash
    have pages : (requestPages (ld.behaving fault) addr size mode { sys.state with flash }).1 =
        (requestPages (ld.behaving fault) (addr % 2 ^ 32) size mode
          { sys.state with flash }).1 := by
      rcases same with low | places
      · rw [Nat.mod_eq_of_lt low]
      · rw [requestPlaces, requestPlaces, low_mod_writesize sound] at places
        rw [requestPages, requestPages, low_mod_writesize (sound.behaving fault)]
        refine readPages_congr mode size _ _ _ size _ ?_
        rw [readPlaces_behaving, readPlaces_behaving]
        exact places
    obtain ⟨ret, data, retlen⟩ := range fault flash
    have mtd := mtd fault flash
    rw [← pages] at mtd
    refine ⟨?_, ?_, ?_, ret⟩
    · rw [mtd, data]
    · rw [mtd, retlen]
    · rw [mtd, ret]

theorem readPaths_agree_small : ∃ sys,
    run (faultyChip 9 []) [.attach creating 40] (initialSys (faultyChip 9 []) (erasedFlash [])) =
        some sys ∧
      ∀ (fault : Nat → Fault) (flash : Flash), ReadPathsAgree ((faultyChip 9 []).behaving fault)
        ⟨1792, 8⟩ { sys.state with flash } 50 100 .placeOob 0 := by
  obtain ⟨sys, is, attached, unprotected, capacity⟩ : ∃ sys,
      run (faultyChip 9 []) [.attach creating 40] (initialSys (faultyChip 9 []) (erasedFlash [])) =
          some sys ∧
        sys.isAttached = true ∧ sys.state.ni.isProtected = false ∧
          150 ≤ (faultyChip 9 []).ba2addr sys.state.ni.dataBlockCount :=
    exists_of_any (by decide +kernel)
  exact ⟨sys, is, (readPaths_agree_iff (smallChip_sound _ (by decide)) is attached unprotected
    (lt_of_lt_of_le (by decide) capacity) capacity ⟨1792, 8⟩ .placeOob 0).mpr (.inl (by decide))⟩

/-- Sixteen blocks of 512 MiB, of which twelve hold data. -/
def largeChip : LowerDevice :=
  { smallChip 4 (fun _ => {}) with size := 2 ^ 33, erasesize := 2 ^ 29 }

def largeFlash : Flash :=
  ⟨fun page =>
    if page = 15 * 2 ^ 23 then ⟨(newSignature largeChip 12).bytes, []⟩
    else plainPages largeChip (fun number => if number = 0 then 0 else 1) page, fun _ => false⟩

/-- `nmbm_mtd_read_data` reads the start of the chip in place of the bytes at 4 GiB. -/
theorem readPaths_disagree : ∃ sys,
    run largeChip [.attach ⟨true, false, true⟩ 40] (initialSys largeChip largeFlash) = some sys ∧
      sys.isAttached = true ∧ sys.state.ni.isProtected = false ∧
      2 ^ 32 < largeChip.ba2addr sys.state.ni.dataBlockCount ∧
      2 ^ 32 + 4 ≤ largeChip.ba2addr sys.state.ni.dataBlockCount ∧
      ¬ReadPathsAgree largeChip ⟨6 * 2 ^ 30, 8⟩ sys.state (2 ^ 32) 4 .placeOob 0 := by
  obtain ⟨sys, is, attached, unprotected, capacity, differs⟩ : ∃ sys,
      run largeChip [.attach ⟨true, false, true⟩ 40] (initialSys largeChip largeFlash) = some sys ∧
        sys.isAttached = true ∧ sys.state.ni.isProtected = false ∧
        2 ^ 32 + 4 ≤ largeChip.ba2addr sys.state.ni.dataBlockCount ∧
        (readRange largeChip (2 ^ 32) 4 .placeOob sys.state).1.data ≠
          (mtdReadData largeChip ⟨6 * 2 ^ 30, 8⟩ (2 ^ 32) .placeOob 4 0 0 sys.state).1.dat :=
    exists_of_any (by decide +kernel)
  exact ⟨sys, is, attached, unprotected, by omega, capacity, fun agree => differs agree.data⟩

end MetaFilogic.Nmbm
