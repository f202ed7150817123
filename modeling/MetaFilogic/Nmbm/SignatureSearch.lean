import MetaFilogic.Nmbm.MtdRead

/-!
# The search for the signature

`nmbm_find_signature` counts down from the end of the chip and compares the block number with its
limit before it decrements it.  When the limit is 0, which it is for chips of less than 16 blocks,
the number wraps around.  `nmbm_create_new` computes its own limit with the multiplication first,
which overflows on the largest chips.
-/

namespace MetaFilogic.Nmbm

open Bytes

variable (ld : LowerDevice)

/-! ## Rounds of the search -/

/-- What `nmbm_find_signature` does with one block. -/
def lookAt (ba : Nat) : NmbmM (Option Signature) := do
  if ← checkBadPhysBlock ld ba then
    return none
  else
    findSignatureInPages ld (ld.ba2addr ba) ld.pagesPerBlock

def SearchRound (limit : Nat) (before after : Nat × State) : Prop :=
  limit ≤ before.1 ∧ after.1 = subU32 before.1 1 ∧ lookAt ld after.1 before.2 = (none, after.2)

abbrev SearchReaches (limit : Nat) : Nat × State → Nat × State → Prop :=
  Relation.ReflTransGen (SearchRound ld limit)

variable {ld} {limit ba : Nat} {state : State}

variable {rounds : Nat}

theorem findSignatureLoop_stop (below : ba < limit) :
    findSignatureLoop ld limit (rounds + 1) ba state = (some none, state) := by
  rw [findSignatureLoop, if_pos below]
  rfl

theorem findSignatureLoop_round (goesOn : ¬ba < limit) :
    findSignatureLoop ld limit (rounds + 1) ba state =
      match lookAt ld (subU32 ba 1) state with
      | (some sig, after) => (some (some (sig, subU32 ba 1)), after)
      | (none, after) => findSignatureLoop ld limit rounds (subU32 ba 1) after := by
  rw [findSignatureLoop, if_neg goesOn, lookAt, bind_run, bind_run]
  cases checkBadPhysBlock ld (subU32 ba 1) state with
  | mk bad checked =>
    cases bad with
    | true => rfl
    | false =>
      dsimp only
      rw [if_neg (by decide), if_neg (by decide), bind_run]
      cases findSignatureInPages ld (ld.ba2addr (subU32 ba 1)) ld.pagesPerBlock checked with
      | mk found after =>
        cases found with
        | none => rfl
        | some sig => rfl

theorem subU32_one {ba : Nat} (positive : 0 < ba) (width : ba < 2 ^ 32) : subU32 ba 1 = ba - 1 := by
  simp only [subU32]
  omega

theorem findSignatureLoop_ends (positive : 0 < limit) (width : ba < 2 ^ 32)
    (enough : ba < limit + rounds) :
    (findSignatureLoop ld limit (rounds + 1) ba state).1 ≠ none := by
  induction rounds generalizing ba state with
  | zero =>
    rw [findSignatureLoop_stop (by omega)]
    nofun
  | succ rounds ih =>
    by_cases below : ba < limit
    · rw [findSignatureLoop_stop below]
      nofun
    · rw [findSignatureLoop_round below, subU32_one (by omega) width]
      cases lookAt ld (ba - 1) state with
      | mk found after =>
        cases found with
        | none => exact ih (by omega) (by omega)
        | some sig => nofun

theorem SearchReaches.within {start after : Nat × State} (positive : 0 < limit)
    (width : start.1 < 2 ^ 32) (reaches : SearchReaches ld limit start after) :
    after.1 ≤ start.1 := by
  induction reaches with
  | refl => exact le_rfl
  | tail _ last ih =>
    obtain ⟨goesOn, next, _⟩ := last
    rw [subU32_one (by omega) (by omega)] at next
    omega

theorem findSignatureLoop_mono {high : Nat} {found : Signature × Nat} (low : limit ≤ high)
    (finds : (findSignatureLoop ld high rounds ba state).1 = some (some found)) :
    (findSignatureLoop ld limit rounds ba state).1 = some (some found) := by
  induction rounds generalizing ba state with
  | zero => exact nomatch finds
  | succ rounds ih =>
    by_cases below : ba < high
    · rw [findSignatureLoop_stop below] at finds
      exact nomatch finds
    · rw [findSignatureLoop_round below] at finds
      rw [findSignatureLoop_round (by omega)]
      cases run : lookAt ld (subU32 ba 1) state with
      | mk sig after =>
        rw [run] at finds
        cases sig with
        | none => exact ih finds
        | some sig => exact finds

/-! ## A chip on which every read fails -/

def Unreadable (ld : LowerDevice) : Prop := ∀ clock, (ld.fault clock).readRet < 0

theorem readPhysPage_unreadable (unreadable : Unreadable ld) (addr : Nat) (mode : OobMode) :
    (readPhysPage ld addr mode state).1.1 < 0 := by
  have tries (count : Nat) (last : Int × PageData) (state : State)
      (failed : count = 0 → last.1 < 0) :
      (readPhysPageTries ld addr mode count last state).1.1 < 0 := by
    induction count generalizing last state with
    | zero => exact failed rfl
    | succ count ih =>
      have read : (lowerReadPage ld addr mode state).1.1 < 0 := by
        have fails : (nextFault ld state).1.readRet < 0 := unreadable state.clock
        rw [lowerReadPage, bind_run, bind_run, ite_apply, ite_apply, if_pos fails]
        exact fails
      rw [readPhysPageTries, bind_run, ite_apply, if_neg (by omega)]
      exact ih _ _ fun _ => read
  exact tries NMBM_TRY_COUNT _ state fun none => absurd none (by decide)

theorem nmbnReadData_unreadable (unreadable : Unreadable ld) (addr : Nat) {size : Nat}
    (some : 0 < size) : (nmbnReadData ld addr size state).1.1 < 0 := by
  obtain ⟨size, rfl⟩ := Nat.exists_eq_succ_of_ne_zero some.ne'
  have fails := @readPhysPage_unreadable ld state unreadable
    (addr - (addr &&& ld.writesizeMask)) .placeOob
  rw [nmbnReadData, nmbnReadDataLoop, if_neg (Nat.succ_ne_zero size), bind_run]
  dsimp only
  split
  · exact fails
  · exact fails

theorem lookAt_unreadable (unreadable : Unreadable ld) (ba : Nat) :
    (lookAt ld ba state).1 = none := by
  have pages (count addr : Nat) (state : State) :
      (findSignatureInPages ld addr count state).1 = none := by
    induction count generalizing addr state with
    | zero => rfl
    | succ count ih =>
      have fails := @nmbnReadData_unreadable ld state unreadable addr signatureSize (by decide)
      rw [findSignatureInPages, bind_run, ite_apply, if_neg fun found => by omega]
      exact ih _ _
  rw [lookAt, bind_run, ite_apply]
  split
  · rfl
  · exact pages _ _ _

theorem findSignatureLoop_unreadable (unreadable : Unreadable ld) (rounds : Nat) :
    (findSignatureLoop ld 0 rounds ba state).1 = none := by
  induction rounds generalizing ba state with
  | zero => rfl
  | succ rounds ih =>
    rw [findSignatureLoop_round (Nat.not_lt_zero ba)]
    have none := @lookAt_unreadable ld state unreadable (subU32 ba 1)
    cases run : lookAt ld (subU32 ba 1) state with
    | mk found after =>
      rw [run] at none
      dsimp only at none
      rw [none]
      exact ih

/-! ## The two limits -/

/-- The product in `nmbm_create_new` does not overflow, or the limit on the reserved blocks makes
up for it. -/
def LowerDevice.SearchCovers (ld : LowerDevice) : Prop :=
  ld.blockCount * (NMBM_MGMT_DIV - ld.effectiveMaxRatio) < 2 ^ 32 ∨
    ld.maxReservedBlocks ≠ 0 ∧
      ld.blockCount / NMBM_MGMT_DIV * (NMBM_MGMT_DIV - ld.effectiveMaxRatio) ≤
        ld.blockCount - ld.maxReservedBlocks + 2

section Accepted

variable {flags : Flags} (accepted : checkLowerMembers ld flags = true)

include accepted

theorem accepted_ratio : 1 ≤ ld.effectiveMaxRatio ∧ ld.effectiveMaxRatio < 15 := by
  simp only [checkLowerMembers, Bool.and_eq_true] at accepted
  have small : ld.effectiveMaxRatio < 15 := of_decide_eq_true accepted.1.2
  refine ⟨?_, small⟩
  rw [LowerDevice.effectiveMaxRatio]
  split <;> omega

theorem accepted_reserved : ld.maxReservedBlocks = 0 ∨ 32 ≤ ld.maxReservedBlocks := by
  simp only [checkLowerMembers, Bool.and_eq_true, Bool.or_eq_true, decide_eq_true_eq] at accepted
  exact accepted.2

theorem accepted_blockCount : ld.blockCount < 16 ∨ 16 ∣ ld.blockCount := by
  simp only [checkLowerMembers, Bool.and_eq_true, isPowerOf2_iff] at accepted
  obtain ⟨exponent, power⟩ := accepted.1.1.1.1.1.1.1
  rw [LowerDevice.blockCount, power, Nat.shiftRight_eq_div_pow, u32]
  generalize ld.erasesizeShift = shift
  by_cases small : shift ≤ exponent
  · rw [Nat.pow_div small (by decide)]
    by_cases width : exponent - shift < 32
    · rw [Nat.mod_eq_of_lt (Nat.pow_lt_pow_right (by decide) width)]
      by_cases few : exponent - shift < 4
      · exact .inl (Nat.pow_lt_pow_right (by decide) few)
      · exact .inr (Nat.pow_dvd_pow 2 (Nat.le_of_not_lt few))
    · refine .inl ?_
      rw [Nat.mod_eq_zero_of_dvd (Nat.pow_dvd_pow 2 (Nat.le_of_not_lt width))]
      decide
  · refine .inl ?_
    rw [Nat.div_eq_of_lt (Nat.pow_lt_pow_right (by decide) (Nat.lt_of_not_le small))]
    decide

omit accepted in
theorem blockCount_width : ld.blockCount < 2 ^ 32 :=
  Nat.mod_lt _ (by decide)

theorem signatureLimit_pos_iff : 0 < ld.signatureLimit ↔ 16 ≤ ld.blockCount := by
  obtain ⟨low, high⟩ := accepted_ratio accepted
  have reserved := accepted_reserved accepted
  have width := @blockCount_width ld
  have share : subU32 NMBM_MGMT_DIV ld.effectiveMaxRatio = 16 - ld.effectiveMaxRatio := by
    simp only [subU32, NMBM_MGMT_DIV]
    omega
  rw [LowerDevice.signatureLimit, share, NMBM_MGMT_DIV]
  by_cases many : 16 ≤ ld.blockCount
  · refine iff_of_true ?_ many
    have some : 0 < ld.blockCount / 16 := Nat.div_pos many (by decide)
    have positive : 0 < ld.blockCount / 16 * (16 - ld.effectiveMaxRatio) :=
      Nat.mul_pos some (by omega)
    have le : ld.blockCount / 16 * (16 - ld.effectiveMaxRatio) ≤ ld.blockCount / 16 * 16 :=
      Nat.mul_le_mul_left _ (Nat.sub_le _ _)
    generalize ld.blockCount / 16 * (16 - ld.effectiveMaxRatio) = bound at positive le ⊢
    split
    · next exceeded =>
        simp only [subU32] at exceeded ⊢
        omega
    · exact positive
  · refine iff_of_false ?_ many
    rw [Nat.div_eq_of_lt (by omega), Nat.zero_mul]
    split
    · next exceeded =>
        simp only [subU32] at exceeded
        omega
    · exact lt_irrefl 0

theorem signatureLimit_le : ld.signatureLimit ≤ ld.blockCount := by
  obtain ⟨low, high⟩ := accepted_ratio accepted
  have width := @blockCount_width ld
  have share : subU32 NMBM_MGMT_DIV ld.effectiveMaxRatio = 16 - ld.effectiveMaxRatio := by
    simp only [subU32, NMBM_MGMT_DIV]
    omega
  have le : ld.blockCount / 16 * (16 - ld.effectiveMaxRatio) ≤ ld.blockCount / 16 * 16 :=
    Nat.mul_le_mul_left _ (Nat.sub_le _ _)
  rw [LowerDevice.signatureLimit, share, NMBM_MGMT_DIV]
  generalize ld.blockCount / 16 * (16 - ld.effectiveMaxRatio) = bound at le ⊢
  split
  · next exceeded =>
      simp only [subU32] at exceeded ⊢
      omega
  · omega

theorem accepted_oobsize : 0 < ld.oobsize := by
  simp only [checkLowerMembers, Bool.and_eq_true, decide_eq_true_eq] at accepted
  exact Nat.pos_of_ne_zero accepted.1.1.1.1.2

theorem signatureLimit_le_iff : ld.signatureLimit ≤ ld.mgmtStart + 2 ↔ ld.SearchCovers := by
  obtain ⟨low, high⟩ := accepted_ratio accepted
  have reserved := accepted_reserved accepted
  have width := @blockCount_width ld
  have share : subU32 NMBM_MGMT_DIV ld.effectiveMaxRatio = 16 - ld.effectiveMaxRatio := by
    simp only [subU32, NMBM_MGMT_DIV]
    omega
  rw [LowerDevice.signatureLimit, LowerDevice.mgmtStart, LowerDevice.SearchCovers, share,
    NMBM_MGMT_DIV, u32]
  rcases accepted_blockCount accepted with few | ⟨quotient, is⟩
  · refine iff_of_true ?_ (.inl ?_)
    · rw [Nat.div_eq_of_lt few, Nat.zero_mul]
      split
      · next exceeded =>
          simp only [subU32] at exceeded
          omega
      · exact Nat.zero_le _
    · calc
        ld.blockCount * (16 - ld.effectiveMaxRatio) ≤ 16 * 16 :=
          Nat.mul_le_mul (by omega) (by omega)
        _ < 2 ^ 32 := by decide
  · have scaled : ld.blockCount * (16 - ld.effectiveMaxRatio) =
        16 * (ld.blockCount / 16 * (16 - ld.effectiveMaxRatio)) := by
      rw [is, Nat.mul_div_cancel_left _ (by decide), Nat.mul_assoc]
    have le : ld.blockCount / 16 * (16 - ld.effectiveMaxRatio) ≤ ld.blockCount / 16 * 16 :=
      Nat.mul_le_mul_left _ (Nat.sub_le _ _)
    rw [scaled]
    generalize ld.blockCount / 16 * (16 - ld.effectiveMaxRatio) = bound at le ⊢
    have sub {x : Nat} (within : x ≤ ld.blockCount) :
        subU32 ld.blockCount x = ld.blockCount - x := by
      simp only [subU32]
      omega
    have boundWithin : bound ≤ ld.blockCount := by omega
    have startWithin : 16 * bound % 2 ^ 32 / 16 ≤ ld.blockCount := by omega
    rw [sub boundWithin, sub startWithin]
    by_cases reserves : ld.maxReservedBlocks ≤ ld.blockCount
    · rw [sub reserves]
      split <;> split <;> omega
    · rw [if_neg fun exceeded => by omega, if_neg fun exceeded => by omega]
      omega

/-! ## What the search does on every chip -/

omit accepted in
def SearchEnds (ld : LowerDevice) : Prop :=
  ∀ fault state,
    (∃ rounds, (findSignature (ld.behaving fault) rounds state).1 ≠ none) ∧
      ∀ ba after, SearchReaches (ld.behaving fault) ld.signatureLimit (ld.blockCount, state)
        (ba, after) → ld.signatureLimit ≤ ba → subU32 ba 1 < ld.blockCount

omit accepted in
/-- `nmbm_find_signature` finds whatever a search finds that goes down to a block a signature has
been written to. -/
def SearchesDown (ld : LowerDevice) : Prop :=
  ∀ fault state sig ba written,
    writeSignature (ld.behaving fault) ld.mgmtStart sig state = (some ba, written) →
      ∀ later other rounds found,
        (findSignatureLoop (ld.behaving other) (ba + 1) rounds ld.blockCount later).1 =
            some (some found) →
          (findSignature (ld.behaving other) rounds later).1 = some (some found)

theorem searchEnds_iff : SearchEnds ld ↔ 16 ≤ ld.blockCount := by
  rw [← signatureLimit_pos_iff accepted]
  constructor
  · intro ends
    by_contra zero
    have none : ld.signatureLimit = 0 := Nat.eq_zero_of_not_pos zero
    have unreadable : Unreadable (ld.behaving fun _ => { readRet := -1 }) :=
      fun _ => show (-1 : Int) < 0 by decide
    let state : State :=
      ⟨initStructure ld ⟨false, false, false⟩, ⟨fun _ => ⟨[], []⟩, fun _ => false⟩, 0, []⟩
    obtain ⟨⟨rounds, ended⟩, _⟩ := ends (fun _ => { readRet := -1 }) state
    refine ended ?_
    change (findSignatureLoop _ ld.signatureLimit rounds ld.blockCount state).1 = _
    rw [none]
    exact findSignatureLoop_unreadable unreadable rounds
  · intro positive fault state
    have width := @blockCount_width ld
    refine ⟨⟨ld.blockCount + 1, ?_⟩, fun ba after reaches goesOn => ?_⟩
    · exact findSignatureLoop_ends positive width (Nat.lt_add_of_pos_left positive)
    · have within : ba ≤ ld.blockCount := reaches.within positive width
      rw [subU32_one (by omega) (by omega)]
      omega

omit accepted in
theorem writeSignature_above (limit : Nat) (sig : Signature) (state : State) :
    Ensures (writeSignature ld limit sig) state fun found _ => ∀ ba ∈ found, limit < ba := by
  unfold writeSignature
  refine .note_bind ((writeSignatureLoop_spec _ _ _ _).mono fun found _ within ba among => ?_)
  have := within ba among
  omega

theorem searchesDown (covers : ld.SearchCovers) : SearchesDown ld := by
  intro fault state sig ba written run later other rounds found finds
  have above : ld.mgmtStart < ba := by
    have written := @writeSignature_above (ld.behaving fault) ld.mgmtStart sig state
    rw [Ensures, run] at written
    exact written ba rfl
  have limits := (signatureLimit_le_iff accepted).mpr covers
  have low : ld.signatureLimit ≤ ba + 1 := by omega
  exact findSignatureLoop_mono low finds

end Accepted

end MetaFilogic.Nmbm
