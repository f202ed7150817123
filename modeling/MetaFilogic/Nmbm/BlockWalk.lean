import MetaFilogic.Nmbm.Integrity
import Mathlib.Data.Nat.Count
import Mathlib.Tactic.Tauto

/-!
# The counters of the walks

The walks count the good blocks with an `int32_t`, and the reservation counts down with one, while
the counts that they are given, the blocks and the limits are unsigned.
-/

namespace MetaFilogic.Nmbm

/-- `ni->block_state` and `ni->block_count`. -/
structure BlockTable where
  blockState : Nat → BitVec 32
  blockCount : BitVec 32

/-- What comes of a reservation; `endless` is a loop that has tried every count. -/
inductive Reservation where
  | found (nba : Nat)
  | failed
  | endless

namespace BlockTable

variable (t : BlockTable)

def Good (ba : Nat) : Prop := getBlockStateRaw t.blockState ba = BLOCK_ST_GOOD

instance : DecidablePred t.Good := fun _ => inferInstanceAs (Decidable (_ = _))

/-- The loop of `nmbm_block_walk_asc` and `nmbm_block_walk_desc` over the next blocks. -/
def walkLoop (next : Nat → Nat) : Nat → Nat → BitVec 32 → Option Nat
  | 0, _, _ => none
  | blocks + 1, ba, nblock =>
    let nblock := if t.Good ba then nblock - 1#32 else nblock
    if nblock.slt 0#32 then some ba else walkLoop next blocks (next ba) nblock

def clamped (limit : BitVec 32) : BitVec 32 :=
  if t.blockCount ≤ limit then t.blockCount - 1#32 else limit

def nmbmBlockWalkAsc (ba count limit : BitVec 32) : Option Nat :=
  t.walkLoop (· + 1) ((t.clamped limit).toNat - ba.toNat) ba.toNat count

def nmbmBlockWalkDesc (ba count limit : BitVec 32) : Option Nat :=
  t.walkLoop (· - 1) (ba.toNat - (t.clamped limit).toNat) ba.toNat count

def nmbmBlockWalk (ascending : Bool) (ba count limit : BitVec 32) : Option Nat :=
  if ascending then t.nmbmBlockWalkAsc ba count limit else t.nmbmBlockWalkDesc ba count limit

/-- The rounds of `nmbm_try_reserve_blocks`. -/
def reserveLoop (ba minCount limit : BitVec 32) : Nat → BitVec 32 → Reservation
  | 0, _ => .endless
  | rounds + 1, nblocks =>
    if minCount.sle nblocks then
      match t.nmbmBlockWalk true ba nblocks limit with
      | some nba => .found nba
      | none => reserveLoop ba minCount limit rounds (nblocks - 1#32)
    else .failed

def nmbmTryReserveBlocks (ba count minCount limit : BitVec 32) : Reservation :=
  t.reserveLoop ba minCount limit (2 ^ 32) count

/-! ## What they are for -/

def InRange (ascending : Bool) (ba limit : BitVec 32) (nba : Nat) : Prop :=
  if ascending then ba.toNat ≤ nba ∧ nba < (t.clamped limit).toNat
  else (t.clamped limit).toNat < nba ∧ nba ≤ ba.toNat

def place (ascending : Bool) (ba steps : Nat) : Nat := if ascending then ba + steps else ba - steps

def distance (ascending : Bool) (ba nba : Nat) : Nat := if ascending then nba - ba else ba - nba

def goodBefore (ascending : Bool) (ba : BitVec 32) (steps : Nat) : Nat :=
  Nat.count (fun i => t.Good (place ascending ba.toNat i)) steps

/-- A good block of the range has so many good blocks before it in walking order. -/
structure Reached (ascending : Bool) (ba limit : BitVec 32) (skipped nba : Nat) : Prop where
  inRange : t.InRange ascending ba limit nba
  good : t.Good nba
  before : t.goodBefore ascending ba (distance ascending ba.toNat nba) = skipped

def WalkRight (ascending : Bool) (ba count limit : BitVec 32) : Prop :=
  match t.nmbmBlockWalk ascending ba count limit with
  | some nba => t.Reached ascending ba limit count.toNat nba ∧
      ∀ other, t.Reached ascending ba limit count.toNat other → other = nba
  | none => ∀ nba, ¬t.Reached ascending ba limit count.toNat nba

def ReserveRight (ba count minCount limit : BitVec 32) : Prop :=
  let Asked := fun (k nba : Nat) => minCount.toInt ≤ (k : Int) ∧ k ≤ count.toNat ∧
    t.Reached true ba limit k nba
  match t.nmbmTryReserveBlocks ba count minCount limit with
  | .found nba => ∃ k, Asked k nba ∧ ∀ more other, Asked more other → more ≤ k
  | .failed => ∀ k nba, ¬Asked k nba
  | .endless => False

def walked (ascending : Bool) (ba limit : BitVec 32) : Nat :=
  if ascending then (t.clamped limit).toNat - ba.toNat else ba.toNat - (t.clamped limit).toNat

/-- The count is one of an `int32_t` that is not negative, or its first decrement makes it one, or
it does not matter. -/
def Counts (ascending : Bool) (ba count limit : BitVec 32) : Prop :=
  count.toNat < 2 ^ 31 ∨ t.walked ascending ba limit = 0 ∨
    count.toNat = 2 ^ 31 ∧ t.Good ba.toNat

/-- The loop of a reservation ends before it counts below 0, or what it does then does no harm. -/
def Bounded (ba count minCount limit : BitVec 32) : Prop :=
  let goods := t.goodBefore true ba (t.walked true ba limit)
  if t.walked true ba limit = 0 then minCount.toInt ≠ -2 ^ 31
  else if count.toNat < 2 ^ 31 then 0 ≤ minCount.toInt ∨ 0 < goods
  else minCount.toInt = -2 ^ 31 ∨ (goods : Int) ≤ minCount.toInt

/-! ## One walk -/

section Walk

variable {t} {ascending : Bool} {ba count limit : BitVec 32} {k nba : Nat}

/-- While the counter is not negative, the loop stops at the block that has so many good ones
before it. -/
theorem walkLoop_eq_some_iff {next order : Nat → Nat}
    (follows : ∀ i, next (order i) = order (i + 1)) (blocks i : Nat) {nblock : BitVec 32}
    (counts : nblock.toNat < 2 ^ 31 ∨ nblock.toNat = 2 ^ 31 ∧ t.Good (order i)) :
    t.walkLoop next blocks (order i) nblock = some nba ↔
      ∃ j < blocks, order (i + j) = nba ∧ t.Good nba ∧
        Nat.count (fun steps => t.Good (order (i + steps))) j = nblock.toNat := by
  induction blocks generalizing i nblock with
  | zero => simp [walkLoop]
  | succ blocks ih =>
    have split : (∃ j < blocks + 1, order (i + j) = nba ∧ t.Good nba ∧
        Nat.count (fun steps => t.Good (order (i + steps))) j = nblock.toNat) ↔
        (order i = nba ∧ t.Good nba ∧ nblock.toNat = 0) ∨
          ∃ j < blocks, order (i + 1 + j) = nba ∧ t.Good nba ∧
            Nat.count (fun steps => t.Good (order (i + 1 + steps))) j +
              (if t.Good (order i) then 1 else 0) = nblock.toNat := by
      constructor
      · rintro ⟨j, inside, rfl, good, passed⟩
        cases j with
        | zero => exact .inl ⟨rfl, good, passed.symm⟩
        | succ j =>
          rw [Nat.count_succ'] at passed
          simp only [← Nat.add_assoc, Nat.add_right_comm i _ 1, Nat.add_zero] at passed good ⊢
          exact .inr ⟨j, by omega, rfl, good, passed⟩
      · rintro (⟨rfl, good, zero⟩ | ⟨j, inside, rfl, good, passed⟩)
        · exact ⟨0, Nat.succ_pos _, rfl, good, zero.symm⟩
        · refine ⟨j + 1, by omega, ?_, good, ?_⟩
          · rw [← Nat.add_assoc, Nat.add_right_comm]
          · rw [Nat.count_succ']
            simp only [← Nat.add_assoc, Nat.add_right_comm i _ 1, Nat.add_zero]
            exact passed
    rw [split, walkLoop]
    by_cases good : t.Good (order i)
    · simp only [good, if_true]
      by_cases last : nblock.toNat = 0
      · obtain rfl : nblock = 0#32 := BitVec.eq_of_toNat_eq last
        rw [if_pos (by decide), Option.some.injEq]
        constructor
        · rintro rfl
          exact .inl ⟨rfl, good, rfl⟩
        · rintro (⟨same, -, -⟩ | ⟨j, -, -, -, passed⟩)
          · exact same
          · exact absurd passed (Nat.succ_ne_zero _)
      · have less : (nblock - 1#32).toNat = nblock.toNat - 1 := by
          rw [BitVec.toNat_sub]
          have := nblock.isLt
          simp only [BitVec.toNat_ofNat]
          omega
        have positive : ¬(nblock - 1#32).slt 0#32 = true := by
          rw [BitVec.slt_zero_iff_msb_cond, BitVec.msb_eq_decide, less]
          simp only [decide_eq_true_eq]
          omega
        rw [if_neg positive, follows, ih (i + 1) (.inl (by rw [less]; omega)), less]
        constructor
        · rintro ⟨j, inside, same, goodThere, passed⟩
          exact .inr ⟨j, inside, same, goodThere, by omega⟩
        · rintro (⟨-, -, zero⟩ | ⟨j, inside, same, goodThere, passed⟩)
          · exact absurd zero last
          · exact ⟨j, inside, same, goodThere, by omega⟩
    · simp only [good, if_false, Nat.add_zero]
      have small : nblock.toNat < 2 ^ 31 := counts.resolve_right fun other => good other.2
      have positive : ¬nblock.slt 0#32 = true := by
        rw [BitVec.slt_zero_iff_msb_cond, BitVec.msb_eq_decide]
        simp only [decide_eq_true_eq]
        omega
      rw [if_neg positive, follows, ih (i + 1) (.inl small)]
      constructor
      · exact .inr
      · rintro (⟨rfl, goodThere, -⟩ | found)
        · exact absurd goodThere good
        · exact found

theorem walkLoop_negative {next : Nat → Nat} {blocks start : Nat} {nblock : BitVec 32}
    (negative : ¬(nblock.toNat < 2 ^ 31 ∨ nblock.toNat = 2 ^ 31 ∧ t.Good start)) :
    t.walkLoop next (blocks + 1) start nblock = some start := by
  rw [not_or] at negative
  refine if_pos ?_
  split
  · rename_i good
    have other : nblock.toNat ≠ 2 ^ 31 := fun same => negative.2 ⟨same, good⟩
    rw [BitVec.slt_zero_iff_msb_cond, BitVec.msb_eq_decide, decide_eq_true_eq, BitVec.toNat_sub]
    have := nblock.isLt
    simp only [BitVec.toNat_ofNat]
    omega
  · rw [BitVec.slt_zero_iff_msb_cond, BitVec.msb_eq_decide, decide_eq_true_eq]
    omega

theorem nmbmBlockWalk_eq (ascending : Bool) (ba count limit : BitVec 32) :
    t.nmbmBlockWalk ascending ba count limit =
      t.walkLoop (fun block => place ascending block 1) (t.walked ascending ba limit)
        (place ascending ba.toNat 0) count := by
  cases ascending <;> rfl

theorem place_follows (ascending : Bool) (ba i : Nat) :
    place ascending (place ascending ba i) 1 = place ascending ba (i + 1) := by
  cases ascending
  · exact Nat.sub_sub ..
  · exact Nat.add_assoc ..

theorem exists_place_iff (p : Nat → Nat → Prop) :
    (∃ j < t.walked ascending ba limit, place ascending ba.toNat j = nba ∧ p j nba) ↔
      t.InRange ascending ba limit nba ∧ p (distance ascending ba.toNat nba) nba := by
  constructor
  · rintro ⟨j, inside, rfl, holds⟩
    cases ascending
    · simp only [walked, InRange, place, distance, Bool.false_eq_true, if_false] at inside holds ⊢
      exact ⟨by omega, by rwa [show ba.toNat - (ba.toNat - j) = j by omega]⟩
    · simp only [walked, InRange, place, distance, if_true] at inside holds ⊢
      exact ⟨by omega, by rwa [Nat.add_sub_cancel_left]⟩
  · rintro ⟨inRange, holds⟩
    refine ⟨distance ascending ba.toNat nba, ?_, ?_, holds⟩
    all_goals
      cases ascending <;>
        simp only [walked, InRange, place, distance, Bool.false_eq_true, if_false, if_true]
          at inRange ⊢ <;>
        omega

theorem nmbmBlockWalk_eq_some_iff
    (counts : count.toNat < 2 ^ 31 ∨ count.toNat = 2 ^ 31 ∧ t.Good ba.toNat) :
    t.nmbmBlockWalk ascending ba count limit = some nba ↔
      t.Reached ascending ba limit count.toNat nba := by
  have start : place ascending ba.toNat 0 = ba.toNat := by cases ascending <;> rfl
  rw [← start] at counts
  rw [nmbmBlockWalk_eq, walkLoop_eq_some_iff (place_follows ascending ba.toNat) _ 0 counts]
  simp only [Nat.zero_add]
  refine (exists_place_iff fun j nba =>
    t.Good nba ∧ t.goodBefore ascending ba j = count.toNat).trans ?_
  exact ⟨fun ⟨inRange, good, before⟩ => ⟨inRange, good, before⟩,
    fun ⟨inRange, good, before⟩ => ⟨inRange, good, before⟩⟩

theorem Reached.unique {other : Nat} (here : t.Reached ascending ba limit k nba)
    (there : t.Reached ascending ba limit k other) : other = nba := by
  obtain ⟨j, -, rfl, good, before⟩ := (exists_place_iff
    fun j nba => t.Good nba ∧ t.goodBefore ascending ba j = k).2 ⟨here.1, here.2, here.3⟩
  obtain ⟨j', -, rfl, good', before'⟩ := (exists_place_iff
    fun j nba => t.Good nba ∧ t.goodBefore ascending ba j = k).2 ⟨there.1, there.2, there.3⟩
  rw [Nat.count_injective (p := fun i => t.Good (place ascending ba.toNat i)) good good'
    (before.trans before'.symm)]

theorem exists_reached_iff :
    (∃ nba, t.Reached ascending ba limit k nba) ↔
      k < t.goodBefore ascending ba (t.walked ascending ba limit) := by
  have counted (steps : Nat) : (∃ j < steps, t.Good (place ascending ba.toNat j) ∧
      t.goodBefore ascending ba j = k) ↔ k < t.goodBefore ascending ba steps := by
    induction steps with
    | zero => simp [goodBefore]
    | succ steps ih =>
      rw [goodBefore, Nat.count_succ, ← goodBefore]
      constructor
      · rintro ⟨j, inside, good, rfl⟩
        by_cases last : j = steps
        · subst last
          rw [if_pos good]
          omega
        · have := ih.1 ⟨j, by omega, good, rfl⟩
          omega
      · intro less
        by_cases before : k < t.goodBefore ascending ba steps
        · obtain ⟨j, inside, found⟩ := ih.2 before
          exact ⟨j, by omega, found⟩
        · split at less
          · exact ⟨steps, by omega, ‹_›, by omega⟩
          · omega
  rw [← counted]
  constructor
  · rintro ⟨nba, inRange, good, before⟩
    obtain ⟨j, inside, rfl, holds⟩ := (exists_place_iff
      fun j nba => t.Good nba ∧ t.goodBefore ascending ba j = k).2 ⟨inRange, good, before⟩
    exact ⟨j, inside, holds⟩
  · rintro ⟨j, inside, holds⟩
    obtain ⟨inRange, good, before⟩ := (exists_place_iff
      fun j nba => t.Good nba ∧ t.goodBefore ascending ba j = k).1 ⟨j, inside, rfl, holds⟩
    exact ⟨_, inRange, good, before⟩

theorem walkRight_iff (ascending : Bool) (ba count limit : BitVec 32) :
    t.WalkRight ascending ba count limit ↔ t.Counts ascending ba count limit := by
  rw [WalkRight, Counts]
  by_cases counts : count.toNat < 2 ^ 31 ∨ count.toNat = 2 ^ 31 ∧ t.Good ba.toNat
  · have finds nba := @nmbmBlockWalk_eq_some_iff t ascending ba count limit nba counts
    refine iff_of_true ?_ (counts.imp_right .inr)
    split
    · rename_i nba found
      exact ⟨(finds _).1 found, fun other there => ((finds _).1 found).unique there⟩
    · rename_i none
      exact fun nba there => nomatch none.symm.trans ((finds _).2 there)
  · by_cases empty : t.walked ascending ba limit = 0
    · refine iff_of_true ?_ (.inr (.inl empty))
      rw [nmbmBlockWalk_eq, empty]
      intro nba there
      have := exists_reached_iff.1 ⟨nba, there⟩
      rw [empty] at this
      exact Nat.not_lt_zero _ this
    · refine iff_of_false ?_ (by tauto)
      have start : place ascending ba.toNat 0 = ba.toNat := by cases ascending <;> rfl
      obtain ⟨more, some⟩ := Nat.exists_eq_succ_of_ne_zero empty
      rw [nmbmBlockWalk_eq, some, start, walkLoop_negative counts]
      rintro ⟨reached, -⟩
      have none : distance ascending ba.toNat ba.toNat = 0 := by
        cases ascending <;> exact Nat.sub_self _
      have before := reached.before
      rw [none] at before
      rw [not_or] at counts
      have zero : t.goodBefore ascending ba 0 = 0 := Nat.count_zero _
      omega

end Walk

/-! ## The calls of the driver -/

def of (ld : LowerDevice) (ni : Instance) : BlockTable :=
  ⟨ni.blockState, BitVec.ofNat 32 ld.blockCount⟩

section Driver

variable {ld : LowerDevice} {ni : Instance}

theorem counter_step {k : Nat} (small : k < 2 ^ 31) (good : Prop) [Decidable good] :
    (if good then BitVec.ofNat 32 k - 1#32 else BitVec.ofNat 32 k).slt 0#32 = true ↔
      (if good then (k : Int) - 1 else k) < 0 := by
  have value : (BitVec.ofNat 32 k).toNat = k := by
    rw [BitVec.toNat_ofNat, Nat.mod_eq_of_lt (by omega)]
  rw [BitVec.slt_zero_iff_msb_cond, BitVec.msb_eq_decide, decide_eq_true_eq]
  split
  · rw [BitVec.toNat_sub, value]
    simp only [BitVec.toNat_ofNat]
    omega
  · omega

theorem walkLoop_of {next : Nat → Nat} (loop : Nat → Nat → Int → Option Nat)
    (zero : ∀ ba nblock, loop 0 ba nblock = none)
    (succ : ∀ blocks ba nblock, loop (blocks + 1) ba nblock =
      let nblock := if ni.getBlockState ba = BLOCK_ST_GOOD then nblock - 1 else nblock
      if nblock < 0 then some ba else loop blocks (next ba) nblock)
    (blocks ba : Nat) {k : Nat} (small : k < 2 ^ 31) :
    (of ld ni).walkLoop next blocks ba (BitVec.ofNat 32 k) = loop blocks ba k := by
  induction blocks generalizing ba k with
  | zero => exact (zero ba k).symm
  | succ blocks ih =>
    have step := counter_step small ((of ld ni).Good ba)
    rw [walkLoop, succ]
    dsimp only
    by_cases good : ni.getBlockState ba = BLOCK_ST_GOOD
    · have here : (of ld ni).Good ba := good
      rw [if_pos here, if_pos here] at step
      rw [if_pos good, if_pos here]
      by_cases stops : (k : Int) - 1 < 0
      · rw [if_pos stops, if_pos (step.2 stops)]
      · obtain ⟨k, rfl⟩ := Nat.exists_eq_succ_of_ne_zero (show k ≠ 0 by omega)
        rw [if_neg stops, if_neg (mt step.1 stops), Nat.succ_eq_add_one, BitVec.ofNat_add,
          BitVec.add_sub_cancel, ih _ (by omega),
          show ((k + 1 : Nat) : Int) - 1 = k by omega]
    · have here : ¬(of ld ni).Good ba := good
      rw [if_neg here, if_neg here] at step
      have goesOn : ¬(k : Int) < 0 := by omega
      rw [if_neg good, if_neg here, if_neg goesOn, if_neg (mt step.1 goesOn), ih _ small]

theorem blockWalk_of (ascending : Bool) {ba count limit : Nat} (chip : ld.blockCount < 2 ^ 32)
    (baFits : ba < 2 ^ 32) (countFits : count < 2 ^ 31) (limitFits : limit < 2 ^ 32) :
    (of ld ni).nmbmBlockWalk ascending (BitVec.ofNat 32 ba) (BitVec.ofNat 32 count)
      (BitVec.ofNat 32 limit) = blockWalk ld ni ascending ba count limit := by
  have baValue : (BitVec.ofNat 32 ba).toNat = ba := Nat.mod_eq_of_lt baFits
  have clampValue : ((of ld ni).clamped (BitVec.ofNat 32 limit)).toNat =
      if limit ≥ ld.blockCount then subU32 ld.blockCount 1 else limit := by
    have le : (of ld ni).blockCount ≤ BitVec.ofNat 32 limit ↔ limit ≥ ld.blockCount := by
      rw [BitVec.le_def, of, BitVec.toNat_ofNat, BitVec.toNat_ofNat, Nat.mod_eq_of_lt chip,
        Nat.mod_eq_of_lt limitFits]
    rw [clamped]
    by_cases beyond : limit ≥ ld.blockCount
    · have countValue : (of ld ni).blockCount.toNat = ld.blockCount := Nat.mod_eq_of_lt chip
      rw [if_pos beyond, if_pos (le.2 beyond), BitVec.toNat_sub, countValue, subU32]
      simp only [BitVec.toNat_ofNat]
      omega
    · rw [if_neg beyond, if_neg (mt le.1 beyond), BitVec.toNat_ofNat, Nat.mod_eq_of_lt limitFits]
  cases ascending
  · rw [nmbmBlockWalk, blockWalk, if_neg (by decide), if_neg (by decide), nmbmBlockWalkDesc,
      clampValue, baValue, walkLoop_of (blockWalkDescLoop ni) (fun _ _ => rfl)
        (fun _ _ _ => rfl) _ _ countFits, blockWalkDesc]
  · rw [nmbmBlockWalk, blockWalk, if_pos rfl, if_pos rfl, nmbmBlockWalkAsc, clampValue, baValue,
      walkLoop_of (blockWalkAscLoop ni) (fun _ _ => rfl) (fun _ _ _ => rfl) _ _ countFits,
      blockWalkAsc]

theorem blockWalk_of_small :
    (of (smallChip 9 fun _ => {}) (initStructure (smallChip 9 fun _ => {}) creating)).nmbmBlockWalk
        true 0#32 1#32 7#32 =
      blockWalk (smallChip 9 fun _ => {}) (initStructure (smallChip 9 fun _ => {}) creating)
        true 0 1 7 :=
  blockWalk_of true (by decide) (by decide) (by decide) (by decide)

end Driver

/-! ## The reservation -/

section Reserve

variable {t} {ba count minCount limit : BitVec 32}

theorem sle_ofNat_iff {k : Nat} (small : k < 2 ^ 31) :
    minCount.sle (BitVec.ofNat 32 k) = true ↔ minCount.toInt ≤ k := by
  have value : (BitVec.ofNat 32 k).toInt = k := by
    rw [BitVec.toInt_ofNat', Int.bmod_eq_of_le (by omega) (by omega)]
  rw [BitVec.sle_iff_toInt_le, value]

/-- From a count that is not negative on, the loop finds the largest count that reaches a block, or
it goes on below 0. -/
theorem reserveLoop_cases (rounds k : Nat) (small : k < 2 ^ 31) (enough : k + 1 < rounds) :
    (∃ most nba, most ≤ k ∧ minCount.toInt ≤ most ∧ t.Reached true ba limit most nba ∧
      (∀ more other, most < more → more ≤ k → ¬t.Reached true ba limit more other) ∧
      t.reserveLoop ba minCount limit rounds (BitVec.ofNat 32 k) = .found nba) ∨
    (∀ more other, more ≤ k → minCount.toInt ≤ more → ¬t.Reached true ba limit more other) ∧
      (0 ≤ minCount.toInt ∧
          t.reserveLoop ba minCount limit rounds (BitVec.ofNat 32 k) = .failed ∨
        minCount.toInt < 0 ∧ t.reserveLoop ba minCount limit rounds (BitVec.ofNat 32 k) =
          t.reserveLoop ba minCount limit (rounds - (k + 1)) (-1#32)) := by
  obtain ⟨rounds, rfl⟩ := Nat.exists_eq_succ_of_ne_zero (Nat.ne_zero_of_lt enough)
  have value : (BitVec.ofNat 32 k).toNat = k := by
    rw [BitVec.toNat_ofNat, Nat.mod_eq_of_lt (by omega)]
  by_cases asked : minCount.toInt ≤ k
  · have finds nba := @nmbmBlockWalk_eq_some_iff t true ba (BitVec.ofNat 32 k) limit nba
      (.inl (value.symm ▸ small))
    simp only [value] at finds
    cases walk : t.nmbmBlockWalk true ba (BitVec.ofNat 32 k) limit with
    | some nba =>
      refine .inl ⟨k, nba, le_rfl, asked, (finds _).1 walk, fun more _ above within => by omega, ?_⟩
      rw [reserveLoop, if_pos ((sle_ofNat_iff small).2 asked), walk]
    | none =>
      have none : ∀ other, ¬t.Reached true ba limit k other := fun other there =>
        nomatch walk.symm.trans ((finds _).2 there)
      have next : t.reserveLoop ba minCount limit (rounds + 1) (BitVec.ofNat 32 k) =
          t.reserveLoop ba minCount limit rounds (BitVec.ofNat 32 k - 1#32) := by
        rw [reserveLoop, if_pos ((sle_ofNat_iff small).2 asked), walk]
      rw [Nat.succ_eq_add_one, next]
      cases k with
      | zero =>
        refine .inr ⟨fun more other within _ => ?_, ?_⟩
        · rw [Nat.le_zero.1 within]
          exact none other
        · by_cases nonneg : 0 ≤ minCount.toInt
          · obtain ⟨rounds, rfl⟩ := Nat.exists_eq_succ_of_ne_zero (show rounds ≠ 0 by omega)
            refine .inl ⟨nonneg, if_neg ?_⟩
            rw [BitVec.sle_iff_toInt_le]
            exact Int.not_le.2 (Int.lt_of_lt_of_le (by decide) nonneg)
          · exact .inr ⟨by omega, rfl⟩
      | succ k =>
        have less : BitVec.ofNat 32 (k + 1) - 1#32 = BitVec.ofNat 32 k := by
          rw [BitVec.ofNat_add, BitVec.add_sub_cancel]
        rw [less, show rounds + 1 - (k + 1 + 1) = rounds - (k + 1) by omega]
        obtain ⟨most, nba, le, asked, reached, above, found⟩ | ⟨below, rest⟩ :=
          reserveLoop_cases rounds k (by omega) (by omega)
        · refine .inl ⟨most, nba, by omega, asked, reached, fun more other more_lt within => ?_,
            found⟩
          by_cases top : more = k + 1
          · exact top ▸ none other
          · exact above more other more_lt (by omega)
        · refine .inr ⟨fun more other within => ?_, rest⟩
          by_cases top : more = k + 1
          · exact fun _ => top ▸ none other
          · exact below more other (by omega)
  · refine .inr ⟨fun more other within minLe => by omega, .inl ⟨by omega, if_neg ?_⟩⟩
    rwa [sle_ofNat_iff small]

theorem reserve_empty (empty : t.walked true ba limit = 0) :
    t.nmbmTryReserveBlocks ba count minCount limit =
      if minCount.toInt = -2 ^ 31 then .endless else .failed := by
  have walk (nblocks : BitVec 32) : t.nmbmBlockWalk true ba nblocks limit = none := by
    rw [nmbmBlockWalk_eq, empty]
    rfl
  split
  · rename_i lowest
    have endless (rounds : Nat) (nblocks : BitVec 32) :
        t.reserveLoop ba minCount limit rounds nblocks = .endless := by
      induction rounds generalizing nblocks with
      | zero => rfl
      | succ rounds ih =>
        have above : minCount.sle nblocks = true := by
          rw [BitVec.sle_iff_toInt_le, lowest]
          exact BitVec.le_toInt nblocks
        rw [reserveLoop, if_pos above, walk]
        exact ih _
    exact endless _ _
  · rename_i notLowest
    have lowest := BitVec.le_toInt minCount
    have failed (rounds : Nat) (nblocks : BitVec 32) (some : 0 < rounds)
        (enough : nblocks.toInt - minCount.toInt + 1 < rounds) :
        t.reserveLoop ba minCount limit rounds nblocks = .failed := by
      induction rounds generalizing nblocks with
      | zero => exact absurd some (Nat.lt_irrefl 0)
      | succ rounds ih =>
        rw [reserveLoop]
        split
        · rename_i above
          rw [BitVec.sle_iff_toInt_le] at above
          have less : (nblocks - 1#32).toInt = nblocks.toInt - 1 := by
            have high := BitVec.toInt_lt (x := nblocks)
            rw [BitVec.toInt_sub, Int.bmod_eq_of_le]
            · rfl
            all_goals
              have one : (1#32).toInt = 1 := rfl
              rw [one]
              omega
          rw [walk]
          exact ih _ (by omega) (by rw [less]; omega)
        · rfl
    have high := BitVec.toInt_lt (x := count)
    exact failed _ _ (by decide) (by omega)

theorem reserveRight_iff (counts : t.Counts true ba count limit) :
    t.ReserveRight ba count minCount limit ↔ t.Bounded ba count minCount limit := by
  rw [ReserveRight, Bounded]
  dsimp only
  by_cases empty : t.walked true ba limit = 0
  · have none (k nba : Nat) : ¬t.Reached true ba limit k nba := fun there => by
      have less := exists_reached_iff.1 ⟨nba, there⟩
      rw [empty] at less
      exact Nat.not_lt_zero _ less
    rw [if_pos empty, reserve_empty empty]
    by_cases lowest : minCount.toInt = -2 ^ 31
    · rw [if_pos lowest]
      exact iff_of_false id fun other => other lowest
    · rw [if_neg lowest]
      exact iff_of_true (fun k nba there => none k nba there.2.2) lowest
  rw [if_neg empty]
  by_cases small : count.toNat < 2 ^ 31
  · rw [if_pos small, nmbmTryReserveBlocks]
    have cases := @reserveLoop_cases t ba minCount limit
      (2 ^ 32) count.toNat small (by omega)
    rw [BitVec.ofNat_toNat, BitVec.setWidth_eq] at cases
    obtain ⟨k, nba, le, asked, reached, above, found⟩ |
      ⟨none, ⟨nonneg, failed⟩ | ⟨negative, goesOn⟩⟩ := cases
    · rw [found]
      refine iff_of_true ⟨k, ⟨asked, le, reached⟩, fun more other there => ?_⟩ (.inr ?_)
      · by_contra higher
        exact above more other (by omega) there.2.1 there.2.2
      · exact Nat.lt_of_le_of_lt (Nat.zero_le k) (exists_reached_iff.1 ⟨nba, reached⟩)
    · rw [failed]
      exact iff_of_true (fun k nba there => none k nba there.2.1 there.1 there.2.2) (.inl nonneg)
    · -- the first negative count takes the first block as it is
      have first : t.reserveLoop ba minCount limit (2 ^ 32 - (count.toNat + 1)) (-1#32) =
          .found ba.toNat := by
        obtain ⟨rounds, same⟩ := Nat.exists_eq_succ_of_ne_zero
          (show 2 ^ 32 - (count.toNat + 1) ≠ 0 by omega)
        obtain ⟨blocks, some⟩ := Nat.exists_eq_succ_of_ne_zero empty
        have asked : minCount.sle (-1#32) = true := by
          rw [BitVec.sle_iff_toInt_le]
          exact Int.le_sub_one_of_lt negative
        rw [same, reserveLoop, if_pos asked, nmbmBlockWalk_eq, some,
          walkLoop_negative
            (by rw [not_or]; exact ⟨by decide, fun both => absurd both.1 (by decide)⟩)]
        rfl
      rw [goesOn, first]
      refine iff_of_false ?_ ?_
      · rintro ⟨k, there, -⟩
        exact none k _ there.2.1 there.1 there.2.2
      · rintro (nonneg | some)
        · omega
        · obtain ⟨nba, reached⟩ := exists_reached_iff.2 some
          exact none 0 nba (Nat.zero_le _) (Int.le_of_lt negative) reached
  · rw [if_neg small]
    obtain ⟨top, good⟩ := (counts.resolve_left small).resolve_left empty
    have some : 0 < t.goodBefore true ba (t.walked true ba limit) := by
      refine exists_reached_iff.1 ⟨ba.toNat, ?_, good, ?_⟩
      · simp only [walked, InRange, if_true] at empty ⊢
        omega
      · rw [distance, if_pos rfl, Nat.sub_self]
        exact Nat.count_zero _
    have lowest := BitVec.le_toInt minCount
    have value : count.toInt = -2 ^ 31 := by
      rw [BitVec.toInt_eq_toNat_cond, top]
      rfl
    by_cases same : minCount.toInt = -2 ^ 31
    · refine iff_of_true ?_ (.inl same)
      have asked : minCount.sle count = true := by rw [BitVec.sle_iff_toInt_le, same, value]
      have finds nba := @nmbmBlockWalk_eq_some_iff t true ba count limit nba (.inr ⟨top, good⟩)
      rw [nmbmTryReserveBlocks, show 2 ^ 32 = 2 ^ 32 - 1 + 1 from rfl, reserveLoop, if_pos asked]
      cases walk : t.nmbmBlockWalk true ba count limit with
      | some nba => exact ⟨_, ⟨by omega, le_rfl, (finds _).1 walk⟩, fun _ _ there => there.2.1⟩
      | none =>
        have next : count - 1#32 = BitVec.ofNat 32 (2 ^ 31 - 1) := by
          rw [show count = 0x80000000#32 from BitVec.eq_of_toNat_eq top]
          rfl
        have cases := @reserveLoop_cases t ba minCount limit
          (2 ^ 32 - 1) (2 ^ 31 - 1) (by omega) (by omega)
        rw [← next] at cases
        obtain ⟨k, nba, le, least, reached, above, found⟩ | ⟨none, -⟩ := cases
        · dsimp only
          rw [found]
          refine ⟨k, ⟨least, by omega, reached⟩, fun more other there => ?_⟩
          by_contra higher
          by_cases last : more = count.toNat
          · exact nomatch walk.symm.trans ((finds _).2 (last ▸ there.2.2))
          · exact above more other (by omega) (by have := there.2.1; omega) there.2.2
        · obtain ⟨nba, reached⟩ := exists_reached_iff.2 some
          exact absurd reached (none 0 nba (Nat.zero_le _) (by omega))
    · have failed : t.nmbmTryReserveBlocks ba count minCount limit = .failed := by
        refine if_neg ?_
        rw [BitVec.sle_iff_toInt_le]
        omega
      have high := BitVec.toInt_lt (x := minCount)
      rw [failed]
      constructor
      · intro none
        refine .inr (not_lt.1 fun more => ?_)
        obtain ⟨nba, reached⟩ := exists_reached_iff.2
          (show minCount.toInt.toNat < t.goodBefore true ba (t.walked true ba limit) by omega)
        exact none _ nba ⟨by omega, by omega, reached⟩
      · rintro (lowest | within) k nba there
        · exact same lowest
        · have less := exists_reached_iff.1 ⟨nba, there.2.2⟩
          omega

end Reserve

end BlockTable

end MetaFilogic.Nmbm
