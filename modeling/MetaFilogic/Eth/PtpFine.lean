import MetaFilogic.Library.Registers
import Mathlib.Data.Nat.Log

/-!
# Fine adjustment of the PTP clock

The rate of the clock is set either by the nanoseconds it gains in a tick or by the nanoseconds it
takes for a second.  `mtk_ptp_adjfine` corrects the nominal value of the one that `ptp_mode` names.
-/

namespace MetaFilogic.Eth.Ptp

/-! ## Arithmetic of the PTP core -/

/-- `ilog2(n)`, which is `fls64(n) - 1`. -/
def ilog2 (n : BitVec 64) : Int := if n = 0#64 then -1 else Nat.log2 n.toNat

def mulU64U64DivU64 (a b c : BitVec 64) : BitVec 64 :=
  if 62 < ilog2 a + ilog2 b then
    let res := b / c * a
    let b := b % c
    let shift := ilog2 a + ilog2 b - 62
    if 0 < shift then
      if c >>> shift.toNat = 0#64 then res
      else res + a * (b >>> shift.toNat) / (c >>> shift.toNat)
    else res + a * b / c
  else a * b / c

def diffByScaledPpm (base scaledPpm : BitVec 64) : Bool × BitVec 64 :=
  (scaledPpm.msb,
    mulU64U64DivU64 base (if scaledPpm.msb then -scaledPpm else scaledPpm) (1000000#64 <<< 16))

def scaledPpmToPpb (ppm : BitVec 64) : Int := (1 + ppm.toInt) * 125 / 2 ^ 13

/-! ## The driver -/

def CSR_TICK_UPDATE : BitVec 32 := 1#32 <<< 1

/-- `max_adj` of `mtk_ptp_caps`. -/
def maxAdj : Int := 24999999

def Adjustable (scaledPpm : BitVec 64) : Prop :=
  -maxAdj ≤ scaledPpmToPpb scaledPpm ∧ scaledPpmToPpb scaledPpm ≤ maxAdj

instance (scaledPpm : BitVec 64) : Decidable (Adjustable scaledPpm) :=
  inferInstanceAs (Decidable (_ ∧ _))

/-- What the fine adjustment works on: `ptp_mode` and the registers `MAC_TS_TICK_SUBSECOND`,
`MAC_TS_SECOND_VALUE` and `MAC_TS_TICK_CTRL`. -/
structure Clock where
  ptpMode : Int
  tickSubsecond : BitVec 32
  secondValue : BitVec 32
  tickCtrl : BitVec 32
  deriving DecidableEq

namespace Clock

variable (s : Clock) (scaledPpm : BitVec 64)

def mtkPtpAdjustSubsecondWidth : Clock :=
  let base := 0x4#64 <<< 16
  let part := diffByScaledPpm base scaledPpm
  let data16 : BitVec 64 := (part.2.setWidth 16).setWidth 64
  { s with
    tickSubsecond := (if part.1 then base - data16 else base + data16).setWidth 32
    tickCtrl := Registers.updateBits CSR_TICK_UPDATE 0#32
      (Registers.updateBits CSR_TICK_UPDATE CSR_TICK_UPDATE s.tickCtrl) }

def mtkPtpAdjustSecondWidth : Clock :=
  let base := 1000000000#64
  let part := diffByScaledPpm base scaledPpm
  { s with secondValue := (if part.1 then base + part.2 else base - part.2).setWidth 32 }

def mtkPtpAdjfine : Clock :=
  if scaledPpm ≠ 0#64 then
    if s.ptpMode = 0 then s.mtkPtpAdjustSubsecondWidth scaledPpm
    else if s.ptpMode = 1 then s.mtkPtpAdjustSecondWidth scaledPpm
    else s
  else s

def adjfineAll (calls : List (BitVec 64)) : Clock := calls.foldl mtkPtpAdjfine s

/-! ## The rate that is asked for -/

def rate : BitVec 32 := if s.ptpMode = 0 then s.tickSubsecond else s.secondValue

def nominal (mode : Int) : Nat := if mode = 0 then 0x4 * 2 ^ 16 else 1000000000

/-- What the rate register is to change by: longer ticks and shorter seconds speed the clock up. -/
def correction (mode : Int) (scaledPpm : Int) : Int :=
  let amount : Int := (nominal mode * scaledPpm.natAbs / (10 ^ 6 * 2 ^ 16) : Nat)
  if (mode = 0 ↔ 0 ≤ scaledPpm) then amount else -amount

/-- The rate register shows the adjustment `scaledPpm`. -/
def Shows : Prop :=
  (s.rate.toNat : Int) = nominal s.ptpMode + correction s.ptpMode scaledPpm.toInt

end Clock

/-! ## Without overflow -/

theorem ilog2_le {n : BitVec 64} {k : Nat} (small : n.toNat < 2 ^ (k + 1)) : ilog2 n ≤ k := by
  rw [ilog2]
  split
  · omega
  · rename_i nonzero
    have positive : n.toNat ≠ 0 := fun zero => nonzero (BitVec.eq_of_toNat_eq zero)
    have below := (Nat.log2_lt positive).2 small
    omega

theorem mulU64U64DivU64_toNat {a b c : BitVec 64} (smallA : a.toNat < 2 ^ 30)
    (smallB : b.toNat < 2 ^ 31) : (mulU64U64DivU64 a b c).toNat = a.toNat * b.toNat / c.toNat := by
  have logA := ilog2_le (k := 29) smallA
  have logB := ilog2_le (k := 30) smallB
  have fits : a.toNat * b.toNat < 2 ^ 64 := by
    have product := Nat.mul_lt_mul'' smallA smallB
    omega
  rw [mulU64U64DivU64, if_neg (by omega), BitVec.toNat_udiv, BitVec.toNat_mul,
    Nat.mod_eq_of_lt fits]

theorem Adjustable.bounds {p : BitVec 64} (adjustable : Adjustable p) :
    p.toInt.natAbs < 2 ^ 31 ∧ p.toInt.natAbs < 1638400000 := by
  obtain ⟨low, high⟩ := adjustable
  rw [scaledPpmToPpb, maxAdj] at low high
  omega

theorem msb_eq_decide (p : BitVec 64) : p.msb = decide (p.toInt < 0) :=
  BitVec.msb_eq_toInt

theorem abs_toNat (p : BitVec 64) : (if p.msb then -p else p).toNat = p.toInt.natAbs := by
  rw [msb_eq_decide]
  have range := p.isLt
  split
  · rename_i negative
    have sign := of_decide_eq_true negative
    rw [BitVec.toNat_neg]
    rw [BitVec.toInt_eq_toNat_cond] at sign ⊢
    split at sign <;> rename_i side
    · omega
    · rw [if_neg side]
      omega
  · rename_i positive
    rw [decide_eq_true_eq] at positive
    rw [BitVec.toInt_eq_toNat_cond] at positive ⊢
    split at positive <;> rename_i side
    · rw [if_pos side]
      omega
    · omega

theorem diffByScaledPpm_toNat (base : BitVec 64) {p : BitVec 64} (small : base.toNat < 2 ^ 30)
    (adjustable : Adjustable p) :
    (diffByScaledPpm base p).2.toNat = base.toNat * p.toInt.natAbs / (10 ^ 6 * 2 ^ 16) := by
  rw [diffByScaledPpm, mulU64U64DivU64_toNat small (by rw [abs_toNat]; exact adjustable.bounds.1),
    abs_toNat]
  rfl

namespace Clock

variable {s : Clock} {p last : BitVec 64} {calls : List (BitVec 64)}

/-! ## One call -/

theorem shows_subsecondWidth (mode : s.ptpMode = 0) (adjustable : Adjustable p) :
    (s.mtkPtpAdjustSubsecondWidth p).Shows p := by
  have bound := adjustable.bounds.2
  have amount := diffByScaledPpm_toNat (0x4#64 <<< 16) (by decide) adjustable
  have sign : (diffByScaledPpm (0x4#64 <<< 16) p).1 = decide (p.toInt < 0) := msb_eq_decide p
  have base : (0x4#64 <<< 16).toNat = 0x4 * 2 ^ 16 := rfl
  rw [base] at amount
  simp only [Shows, rate, mtkPtpAdjustSubsecondWidth, mode, nominal, correction, ↓reduceIte,
    true_iff, sign]
  generalize diffByScaledPpm (0x4#64 <<< 16) p = part at amount
  by_cases negative : p.toInt < 0
  · rw [if_pos (decide_eq_true negative), if_neg (not_le.2 negative), BitVec.toNat_setWidth,
      BitVec.toNat_sub, BitVec.toNat_setWidth, BitVec.toNat_setWidth, base, amount]
    omega
  · rw [if_neg (by simpa using negative), if_pos (not_lt.1 negative), BitVec.toNat_setWidth,
      BitVec.toNat_add, BitVec.toNat_setWidth, BitVec.toNat_setWidth, base, amount]
    omega

theorem shows_secondWidth (mode : s.ptpMode = 1) (adjustable : Adjustable p) :
    (s.mtkPtpAdjustSecondWidth p).Shows p := by
  have bound := adjustable.bounds.2
  have amount := diffByScaledPpm_toNat 1000000000#64 (by decide) adjustable
  have sign : (diffByScaledPpm 1000000000#64 p).1 = decide (p.toInt < 0) := msb_eq_decide p
  have base : (1000000000#64).toNat = 1000000000 := rfl
  rw [base] at amount
  have small : 1000000000 * p.toInt.natAbs / (10 ^ 6 * 2 ^ 16) < 2 ^ 25 := by omega
  simp only [Shows, rate, mtkPtpAdjustSecondWidth, mode, nominal, correction, one_ne_zero,
    ↓reduceIte, false_iff, sign]
  generalize diffByScaledPpm 1000000000#64 p = part at amount
  by_cases negative : p.toInt < 0
  · rw [if_pos (decide_eq_true negative), if_pos (not_le.2 negative), BitVec.toNat_setWidth,
      BitVec.toNat_add, base, amount]
    omega
  · rw [if_neg (by simpa using negative), if_neg (not_not.2 (not_lt.1 negative)),
      BitVec.toNat_setWidth, BitVec.toNat_sub, base, amount]
    omega

theorem shows_adjfine (mode : s.ptpMode = 0 ∨ s.ptpMode = 1) (adjustable : Adjustable p)
    (nonzero : p ≠ 0#64) : (s.mtkPtpAdjfine p).Shows p := by
  rw [mtkPtpAdjfine, if_pos nonzero]
  rcases mode with mode | mode
  · rw [if_pos mode]
    exact shows_subsecondWidth mode adjustable
  · rw [if_neg (by omega), if_pos mode]
    exact shows_secondWidth mode adjustable

theorem adjfine_zero : s.mtkPtpAdjfine 0#64 = s := if_neg (not_not.2 rfl)

theorem adjfine_ptpMode : (s.mtkPtpAdjfine p).ptpMode = s.ptpMode := by
  rw [mtkPtpAdjfine]
  split
  · split
    · rfl
    · split <;> rfl
  · rfl

/-! ## Sequences of calls -/

theorem adjfineAll_append (more : List (BitVec 64)) :
    s.adjfineAll (calls ++ more) = (s.adjfineAll calls).adjfineAll more :=
  List.foldl_append

theorem adjfineAll_ptpMode : (s.adjfineAll calls).ptpMode = s.ptpMode := by
  induction calls generalizing s with
  | nil => rfl
  | cons p calls ih => exact ih.trans adjfine_ptpMode

def lastCall (calls : List (BitVec 64)) : Option (BitVec 64) :=
  (calls.filter (· ≠ 0#64)).getLast?

theorem lastCall_append_zero : lastCall (calls ++ [0#64]) = lastCall calls := by
  simp [lastCall]

theorem lastCall_append (nonzero : p ≠ 0#64) : lastCall (calls ++ [p]) = some p := by
  simp [lastCall, nonzero]

theorem adjfineAll_rate (mode : s.ptpMode = 0 ∨ s.ptpMode = 1)
    (adjustable : ∀ p ∈ calls, Adjustable p) :
    match lastCall calls with
    | some p => (s.adjfineAll calls).Shows p
    | none => s.adjfineAll calls = s := by
  induction calls using List.reverseRecOn with
  | nil => rfl
  | append_singleton calls p ih =>
    have before := ih fun q inside => adjustable q (List.mem_append_left _ inside)
    rw [adjfineAll_append]
    by_cases zero : p = 0#64
    · subst zero
      rw [lastCall_append_zero, show (s.adjfineAll calls).adjfineAll [0#64] =
        s.adjfineAll calls from adjfine_zero]
      exact before
    · rw [lastCall_append zero]
      exact shows_adjfine (by rwa [adjfineAll_ptpMode])
        (adjustable p (List.mem_append_right _ (List.mem_singleton_self p))) zero

theorem shows_zero_iff : s.Shows 0#64 ↔ s.rate.toNat = nominal s.ptpMode := by
  have none : correction s.ptpMode (0#64 : BitVec 64).toInt = 0 := by simp [correction]
  rw [Shows, none]
  omega

theorem correction_eq_zero_iff (mode p : Int) :
    correction mode p = 0 ↔ nominal mode * p.natAbs < 10 ^ 6 * 2 ^ 16 := by
  rw [correction, ← Nat.div_eq_zero_iff_lt (by decide)]
  split <;> omega

/-- The rate is nominal although the calls so far may have been ignored or not. -/
def Undisturbed (s : Clock) (calls : List (BitVec 64)) : Prop :=
  match lastCall calls with
  | some p => nominal s.ptpMode * p.toInt.natAbs < 10 ^ 6 * 2 ^ 16
  | none => s.rate.toNat = nominal s.ptpMode

/-- A call with 0 is ignored: the rate is that of the last call if this is not 0, or if there was
nothing to undo. -/
theorem adjfine_memoryless_iff (mode : s.ptpMode = 0 ∨ s.ptpMode = 1)
    (adjustable : ∀ p ∈ calls ++ [last], Adjustable p) :
    (s.adjfineAll (calls ++ [last])).Shows last ↔ last ≠ 0#64 ∨ s.Undisturbed calls := by
  have after := adjfineAll_rate mode adjustable
  by_cases zero : last = 0#64
  · subst zero
    have before := adjfineAll_rate mode fun p inside =>
      adjustable p (List.mem_append_left _ inside)
    rw [adjfineAll_append, show (s.adjfineAll calls).adjfineAll [0#64] =
      s.adjfineAll calls from adjfine_zero, shows_zero_iff, adjfineAll_ptpMode, Undisturbed]
    simp only [ne_eq, not_true_eq_false, false_or]
    cases found : lastCall calls with
    | none =>
      rw [found] at before
      rw [show s.adjfineAll calls = s from before]
    | some p =>
      rw [found] at before
      have shows_ : (s.adjfineAll calls).Shows p := before
      have quiet := correction_eq_zero_iff s.ptpMode p.toInt
      rw [Shows, adjfineAll_ptpMode] at shows_
      change _ ↔ nominal s.ptpMode * p.toInt.natAbs < 10 ^ 6 * 2 ^ 16
      rw [← quiet]
      omega
  · rw [lastCall_append zero] at after
    exact ⟨fun _ => Or.inl zero, fun _ => after⟩

def fresh : Clock := ⟨1, 0x40000#32, 1000000000#32, 0#32⟩

theorem adjfine_memoryless_up :
    (fresh.adjfineAll ([655360#64] ++ [0xfffffffffff60000#64])).Shows 0xfffffffffff60000#64 :=
  (adjfine_memoryless_iff (Or.inr rfl) (List.forall_mem_cons.2 ⟨by decide +kernel,
    List.forall_mem_singleton.2 (by decide +kernel)⟩)).2 (Or.inl (by decide))

/-- After 10 ppm a call with 0 leaves the clock 10 ppm fast. -/
theorem adjfine_remembers : ¬∀ (s : Clock) (calls : List (BitVec 64)) (last : BitVec 64),
    (s.ptpMode = 0 ∨ s.ptpMode = 1) → s.rate.toNat = nominal s.ptpMode →
    (∀ p ∈ calls ++ [last], Adjustable p) → (s.adjfineAll (calls ++ [last])).Shows last := by
  intro always
  have kept := always fresh [655360#64] 0#64 (Or.inr rfl) rfl (List.forall_mem_cons.2
    ⟨by decide +kernel, List.forall_mem_singleton.2 (by decide +kernel)⟩)
  rw [shows_zero_iff] at kept
  have fast : (fresh.adjfineAll ([655360#64] ++ [0#64])).rate = 999990000#32 := by decide +kernel
  rw [fast] at kept
  exact absurd kept (by decide)

end Clock

end MetaFilogic.Eth.Ptp
