import MetaFilogic.Library.Scatter
import MetaFilogic.Snand.Io

/-!
# The free bytes of the spare area

The first byte of every FDM is left to bad marks.  `mtk_snand_fill_oob`, `mtk_snand_transfer_oob`
and the layout that the MTD layer asks for all skip it, each by a calculation of its own.
-/

namespace MetaFilogic.Snand

open Memory

/-- The FDMs of a page: `fdm_size` has 16 bits, and `mtk_snand_setup` lets through no more steps
than `max_sectors`, which has 16 bits as well. -/
structure FdmLayout where
  fdmSize : Nat
  eccSteps : Nat
  fdmSize_pos : 0 < fdmSize
  fdmSize_lt : fdmSize < 2 ^ 16
  eccSteps_lt : eccSteps < 2 ^ 16

def MtkSnand.fdmLayout (snf : MtkSnand) (few : snf.eccSteps ≤ snf.nfiSoc.maxSectors) :
    FdmLayout where
  fdmSize := snf.nfiSoc.fdmSize
  eccSteps := snf.eccSteps
  fdmSize_pos := by
    rw [MtkSnand.nfiSoc, snf.soc.fdmSize_eq]
    decide
  fdmSize_lt := by
    rw [MtkSnand.nfiSoc, snf.soc.fdmSize_eq]
    decide
  eccSteps_lt := by
    have := snf.soc.maxSectors_le
    rw [MtkSnand.nfiSoc] at few
    omega

variable (fdm : FdmLayout)

/-! ## The driver -/

/-- The loop of `mtk_snand_fill_oob`: `left` steps are to come, and `oob` stands at `src`. -/
def fillSteps (oob : Bytes) : (left step len src : Nat) → (oobraw : Bytes) → Nat × Bytes
  | 0, _, len, _, oobraw => (len, oobraw)
  | left + 1, step, len, src, oobraw =>
    if len = 0 then (len, oobraw)
    else
      let sectFdmLen := if len < fdm.fdmSize - 1 then len else fdm.fdmSize - 1
      fillSteps oob left (step + 1) (len - sectFdmLen) (src + sectFdmLen)
        (copy oobraw (u32 (step * fdm.fdmSize + 1)) oob src sectFdmLen)

def mtkSnandFillOob (oobraw oobbuf : Bytes) (ooblen : Nat) : CInt × Bytes :=
  let run := fillSteps fdm oobbuf fdm.eccSteps 0 ooblen 0 oobraw
  (BitVec.ofNat 32 run.1, run.2)

/-- The loop of `mtk_snand_transfer_oob`: `left` steps are to come, and `oob` stands at `dst`. -/
def transferSteps (oobraw : Bytes) : (left step len dst : Nat) → (oob : Bytes) → Nat × Bytes
  | 0, _, len, _, oob => (len, oob)
  | left + 1, step, len, dst, oob =>
    if len = 0 then (len, oob)
    else
      let sectFdmLen := if len < fdm.fdmSize - 1 then len else fdm.fdmSize - 1
      transferSteps oobraw left (step + 1) (len - sectFdmLen) (dst + sectFdmLen)
        (copy oob dst oobraw (u32 (step * fdm.fdmSize + 1)) sectFdmLen)

def mtkSnandTransferOob (oobbuf : Bytes) (ooblen : Nat) (oobraw : Bytes) : CInt × Bytes :=
  let run := transferSteps fdm oobraw fdm.eccSteps 0 ooblen 0 oobbuf
  (BitVec.ofNat 32 run.1, run.2)

/-- `mtk_snand_ooblayout_free(mtd, section, oobfree)`: the offset and the length of a section, or
`-ERANGE`. -/
def mtkSnandOoblayoutFree (sect : Nat) : Option (Nat × Nat) :=
  if fdm.eccSteps ≤ sect then none
  else some (u32 (sect * fdm.fdmSize + 1), fdm.fdmSize - 1)

def sectionPlaces : (left sect : Nat) → List Nat
  | 0, _ => []
  | left + 1, sect =>
    match mtkSnandOoblayoutFree fdm sect with
    | none => []
    | some (offset, length) => List.range' offset length ++ sectionPlaces left (sect + 1)

def freePlaces : List Nat := sectionPlaces fdm (fdm.eccSteps + 1) 0

/-! ## One sequence of places -/

namespace FdmLayout

def free : Nat := fdm.fdmSize - 1

/-- The place of the free byte with the number `k`. -/
def place (k : Nat) : Nat := k / fdm.free * fdm.fdmSize + 1 + k % fdm.free

/-- How many of `len` bytes find a place in `left` FDMs. -/
def room (left len : Nat) : Nat := min len (left * fdm.free)

theorem fdmSize_eq : fdm.fdmSize = fdm.free + 1 := by
  have := fdm.fdmSize_pos
  unfold free
  omega

theorem place_step {step i : Nat} (below : i < fdm.free) :
    fdm.place (step * fdm.free + i) = step * fdm.fdmSize + 1 + i := by
  unfold place
  rw [Nat.mul_comm step fdm.free, Nat.mul_add_div (by omega), Nat.mul_add_mod,
    Nat.mod_eq_of_lt below, Nat.div_eq_of_lt below, Nat.add_zero step]

theorem offset_eq {step : Nat} (below : step < fdm.eccSteps) :
    u32 (step * fdm.fdmSize + 1) = step * fdm.fdmSize + 1 := by
  have steps := fdm.eccSteps_lt
  have size := fdm.fdmSize_lt
  have le : step * fdm.fdmSize ≤ (2 ^ 16 - 1) * (2 ^ 16 - 1) :=
    Nat.mul_le_mul (by omega) (by omega)
  exact u32_of_lt (by omega)

theorem place_injective {i j : Nat} (free : 0 < fdm.free) (same : fdm.place i = fdm.place j) :
    i = j := by
  have low : ∀ k, k % fdm.free < fdm.free := fun k => Nat.mod_lt _ free
  have split : ∀ k, fdm.place k = fdm.fdmSize * (k / fdm.free) + (1 + k % fdm.free) := by
    intro k
    unfold place
    rw [Nat.mul_comm, Nat.add_assoc]
  have inStep : ∀ k, 1 + k % fdm.free < fdm.fdmSize := by
    intro k
    have := low k
    rw [fdm.fdmSize_eq]
    omega
  have quotient : ∀ k, fdm.place k / fdm.fdmSize = k / fdm.free := by
    intro k
    rw [split, Nat.mul_add_div fdm.fdmSize_pos, Nat.div_eq_of_lt (inStep k), Nat.add_zero]
  have rest : ∀ k, fdm.place k % fdm.fdmSize = 1 + k % fdm.free := by
    intro k
    rw [split, Nat.mul_add_mod, Nat.mod_eq_of_lt (inStep k)]
  have quotients : i / fdm.free = j / fdm.free := by
    rw [← quotient, ← quotient, same]
  have rests : i % fdm.free = j % fdm.free := by
    have := rest i
    rw [same, rest j] at this
    omega
  rw [← Nat.div_add_mod i fdm.free, ← Nat.div_add_mod j fdm.free, quotients, rests]

variable {left len : Nat}

theorem places_distinct :
    ∀ i < fdm.room left len, ∀ j < fdm.room left len, fdm.place i = fdm.place j → i = j := by
  intro i below j _ same
  refine fdm.place_injective ?_ same
  unfold room at below
  rcases Nat.eq_zero_or_pos fdm.free with none | free
  · rw [none, Nat.mul_zero] at below
    omega
  · exact free

theorem place_within {k : Nat} (below : k < fdm.eccSteps * fdm.free) :
    fdm.place k % fdm.fdmSize ≠ 0 ∧ fdm.place k < fdm.eccSteps * fdm.fdmSize := by
  have free : 0 < fdm.free := Nat.pos_of_mul_pos_left (Nat.zero_lt_of_lt below)
  have step : k / fdm.free < fdm.eccSteps := Nat.div_lt_of_lt_mul (Nat.mul_comm .. ▸ below)
  have rest : k % fdm.free < fdm.free := Nat.mod_lt _ free
  have size := fdm.fdmSize_eq
  have split : fdm.place k = fdm.fdmSize * (k / fdm.free) + (1 + k % fdm.free) := by
    unfold place
    rw [Nat.mul_comm, Nat.add_assoc]
  constructor
  · rw [split, Nat.mul_add_mod, Nat.mod_eq_of_lt (by omega)]
    omega
  · calc fdm.place k = fdm.fdmSize * (k / fdm.free) + (1 + k % fdm.free) := split
      _ < fdm.fdmSize * (k / fdm.free) + fdm.fdmSize := by omega
      _ = (k / fdm.free + 1) * fdm.fdmSize := by rw [Nat.mul_comm, Nat.succ_mul]
      _ ≤ fdm.eccSteps * fdm.fdmSize := Nat.mul_le_mul_right _ step

@[simp]
theorem room_zero (len : Nat) : fdm.room 0 len = 0 := by
  unfold room
  rw [Nat.zero_mul, Nat.min_zero]

@[simp]
theorem room_none (left : Nat) : fdm.room left 0 = 0 :=
  Nat.zero_min _

theorem room_succ (whole : fdm.free ≤ len) :
    fdm.room (left + 1) len = fdm.free + fdm.room left (len - fdm.free) := by
  unfold room
  rw [Nat.succ_mul]
  omega

theorem room_short (short : len < fdm.free) : fdm.room (left + 1) len = len := by
  unfold room
  rw [Nat.succ_mul]
  omega

end FdmLayout

/-! ## The three agree -/

section Agree

variable {fdm}

variable {oob oobraw : Bytes} {step left : Nat}

theorem fillSteps_none (left step src : Nat) :
    fillSteps fdm oob left step 0 src oobraw = (0, oobraw) := by
  cases left <;> rfl

theorem transferSteps_none (left step dst : Nat) :
    transferSteps fdm oobraw left step 0 dst oob = (0, oob) := by
  cases left <;> rfl

/-- A step of `mtk_snand_fill_oob` scatters its bytes. -/
theorem fill_step {n : Nat} (within : step < fdm.eccSteps) (few : n ≤ fdm.free) :
    copy oobraw (u32 (step * fdm.fdmSize + 1)) oob (step * fdm.free) n =
      scatter oobraw (fun i => fdm.place (step * fdm.free + i))
        (fun i => oob (step * fdm.free + i)) n := by
  rw [fdm.offset_eq within, copy_eq_scatter]
  exact scatter_congr (fun i below => (fdm.place_step (Nat.lt_of_lt_of_le below few)).symm)
    fun i _ => rfl

theorem transfer_step {n : Nat} (within : step < fdm.eccSteps) (few : n ≤ fdm.free) :
    copy oob (step * fdm.free) oobraw (u32 (step * fdm.fdmSize + 1)) n =
      gather oob (step * fdm.free) (fun i => fdm.place (step * fdm.free + i)) oobraw n := by
  rw [fdm.offset_eq within, copy_eq_gather]
  exact gather_congr fun i below => (fdm.place_step (Nat.lt_of_lt_of_le below few)).symm

theorem fillSteps_eq {len : Nat} (within : step + left ≤ fdm.eccSteps) :
    fillSteps fdm oob left step len (step * fdm.free) oobraw =
      (len - fdm.room left len,
        scatter oobraw (fun i => fdm.place (step * fdm.free + i))
          (fun i => oob (step * fdm.free + i)) (fdm.room left len)) := by
  induction left generalizing step len oobraw with
  | zero =>
    rw [fdm.room_zero]
    rfl
  | succ left ih =>
    rw [fillSteps]
    by_cases done : len = 0
    · rw [if_pos done, done, fdm.room_none]
      rfl
    rw [if_neg done]
    dsimp only
    by_cases short : len < fdm.free
    · rw [FdmLayout.free] at short
      rw [if_pos short, Nat.sub_self, fillSteps_none, fill_step (by omega) (Nat.le_of_lt short),
        fdm.room_short short, Nat.sub_self]
    · have next : step * fdm.free + fdm.free = (step + 1) * fdm.free := (Nat.succ_mul ..).symm
      rw [← FdmLayout.free, if_neg short, fill_step (by omega) (Nat.le_refl _), next,
        ih (by omega), fdm.room_succ (Nat.le_of_not_lt short), scatter_add, ← next,
        Nat.sub_sub]
      simp only [Nat.add_assoc]

theorem transferSteps_eq {len : Nat} (within : step + left ≤ fdm.eccSteps) :
    transferSteps fdm oobraw left step len (step * fdm.free) oob =
      (len - fdm.room left len,
        gather oob (step * fdm.free) (fun i => fdm.place (step * fdm.free + i)) oobraw
          (fdm.room left len)) := by
  induction left generalizing step len oob with
  | zero =>
    rw [fdm.room_zero, gather_zero]
    rfl
  | succ left ih =>
    rw [transferSteps]
    by_cases done : len = 0
    · rw [if_pos done, done, fdm.room_none, gather_zero]
    rw [if_neg done]
    dsimp only
    by_cases short : len < fdm.free
    · rw [FdmLayout.free] at short
      rw [if_pos short, Nat.sub_self, transferSteps_none,
        transfer_step (by omega) (Nat.le_of_lt short), fdm.room_short short, Nat.sub_self]
    · have next : step * fdm.free + fdm.free = (step + 1) * fdm.free := (Nat.succ_mul ..).symm
      rw [← FdmLayout.free, if_neg short, transfer_step (by omega) (Nat.le_refl _), next,
        ih (by omega), fdm.room_succ (Nat.le_of_not_lt short), gather_add, ← next,
        Nat.sub_sub]
      simp only [Nat.add_assoc]

theorem sectionPlaces_eq {sect : Nat} (whole : sect + left = fdm.eccSteps) :
    sectionPlaces fdm (left + 1) sect =
      (List.range' (sect * fdm.free) (left * fdm.free)).map fdm.place := by
  induction left generalizing sect with
  | zero =>
    rw [sectionPlaces, mtkSnandOoblayoutFree, if_pos (by omega), Nat.zero_mul]
    rfl
  | succ left ih =>
    have next : (sect + 1) * fdm.free = sect * fdm.free + fdm.free := Nat.succ_mul ..
    have here : List.range' (sect * fdm.fdmSize + 1) fdm.free =
        (List.range' (sect * fdm.free) fdm.free).map fdm.place := by
      rw [List.range'_eq_map_range, List.range'_eq_map_range, List.map_map]
      refine List.map_congr_left fun i below => ?_
      exact (fdm.place_step (List.mem_range.mp below)).symm
    rw [sectionPlaces, mtkSnandOoblayoutFree, if_neg (by omega)]
    dsimp only
    rw [ih (by omega), fdm.offset_eq (by omega), ← FdmLayout.free, here, next,
      ← List.map_append, Nat.succ_mul left, Nat.add_comm (left * fdm.free),
      ← List.range'_append_1]

theorem freePlaces_eq : freePlaces fdm = (List.range (fdm.eccSteps * fdm.free)).map fdm.place := by
  rw [freePlaces, sectionPlaces_eq (Nat.zero_add _), Nat.zero_mul, List.range_eq_range']

theorem freePlaces_getD {i : Nat} (below : i < fdm.eccSteps * fdm.free) :
    (freePlaces fdm).getD i 0 = fdm.place i := by
  rw [freePlaces_eq, List.getD_eq_getElem?_getD, List.getElem?_map, List.getElem?_range below]
  rfl

theorem mem_take_freePlaces {count i : Nat} (below : i < count)
    (room : count ≤ fdm.eccSteps * fdm.free) : fdm.place i ∈ (freePlaces fdm).take count := by
  rw [freePlaces_eq, ← List.map_take, List.take_range, Nat.min_eq_left room]
  exact List.mem_map_of_mem (List.mem_range.mpr below)

theorem fillOob_eq (oobraw oobbuf : Bytes) (ooblen : Nat) :
    mtkSnandFillOob fdm oobraw oobbuf ooblen =
      (BitVec.ofNat 32 (ooblen - fdm.room fdm.eccSteps ooblen),
        scatter oobraw fdm.place oobbuf (fdm.room fdm.eccSteps ooblen)) := by
  have steps := @fillSteps_eq fdm oobbuf oobraw 0 fdm.eccSteps ooblen (Nat.zero_add _).le
  simp only [Nat.zero_mul, Nat.zero_add] at steps
  rw [mtkSnandFillOob, steps]

theorem transferOob_eq (oobraw oobbuf : Bytes) (ooblen : Nat) :
    mtkSnandTransferOob fdm oobbuf ooblen oobraw =
      (BitVec.ofNat 32 (ooblen - fdm.room fdm.eccSteps ooblen),
        gather oobbuf 0 fdm.place oobraw (fdm.room fdm.eccSteps ooblen)) := by
  have steps := @transferSteps_eq fdm oobbuf oobraw 0 fdm.eccSteps ooblen (Nat.zero_add _).le
  simp only [Nat.zero_mul, Nat.zero_add] at steps
  rw [mtkSnandTransferOob, steps]

end Agree

/-- Bytes that have been filled in come back from the places that the layout enumerates, in order;
the first byte of an FDM and what follows the FDMs are not touched. -/
theorem freeOob_round_trip (oobraw oobbuf out : Bytes) (ooblen : Nat) :
    let count := min ooblen (fdm.eccSteps * (fdm.fdmSize - 1))
    let filled := mtkSnandFillOob fdm oobraw oobbuf ooblen
    let moved := mtkSnandTransferOob fdm out ooblen filled.2
    (∀ i < count, moved.2 i = oobbuf i) ∧
      filled.1 = BitVec.ofNat 32 (ooblen - count) ∧ moved.1 = filled.1 ∧
      (∀ j, j % fdm.fdmSize = 0 ∨ fdm.eccSteps * fdm.fdmSize ≤ j → filled.2 j = oobraw j) ∧
      (freePlaces fdm).length = fdm.eccSteps * (fdm.fdmSize - 1) ∧
      (∀ i < count, filled.2 ((freePlaces fdm).getD i 0) = oobbuf i) ∧
      (∀ j, j ∉ (freePlaces fdm).take count → filled.2 j = oobraw j) ∧
      ∀ raw i, (mtkSnandTransferOob fdm out ooblen raw).2 i =
        if i < count then raw ((freePlaces fdm).getD i 0) else out i := by
  intro count filled moved
  have room : count ≤ fdm.eccSteps * fdm.free := Nat.min_le_right ..
  have filledEq : filled = _ := fillOob_eq oobraw oobbuf ooblen
  have movedEq : moved = _ := transferOob_eq filled.2 out ooblen
  have untouched : ∀ j, (∀ i < count, fdm.place i ≠ j) → filled.2 j = oobraw j := by
    intro j apart
    rw [filledEq]
    exact scatter_other apart
  refine ⟨fun i below => ?_, congrArg Prod.fst filledEq, ?_, fun j outside => ?_, ?_,
    fun i below => ?_, fun j other => ?_, fun raw i => ?_⟩
  · rw [movedEq, filledEq]
    exact gather_scatter fdm.places_distinct below
  · rw [movedEq, filledEq]
  · refine untouched j fun i below same => ?_
    obtain ⟨notFirst, inside⟩ := fdm.place_within (Nat.lt_of_lt_of_le below room)
    rw [same] at notFirst inside
    rcases outside with first | past
    · exact notFirst first
    · omega
  · rw [freePlaces_eq, List.length_map, List.length_range]
    rfl
  · rw [freePlaces_getD (Nat.lt_of_lt_of_le below room), filledEq]
    exact scatter_at fdm.places_distinct below
  · exact untouched j fun i below same => other (same ▸ mem_take_freePlaces below room)
  · rw [transferOob_eq]
    by_cases below : i < count
    · rw [if_pos below, freePlaces_getD (Nat.lt_of_lt_of_le below room)]
      exact if_pos ⟨Nat.zero_le i, (Nat.zero_add count).symm ▸ below⟩
    · rw [if_neg below]
      exact if_neg fun inside => below ((Nat.zero_add count) ▸ inside.2)

end MetaFilogic.Snand
