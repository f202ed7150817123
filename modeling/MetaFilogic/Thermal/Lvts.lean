import Mathlib.Data.BitVec
import Mathlib.Tactic.Linarith

/-!
# Readings of the low voltage thermal sensors

A sensor counts down when it gets warmer.  The driver turns its counts into temperatures and the
temperature of the hardware reboot into a count, with coefficients of the SoC and a temperature
from the fuses.
-/

namespace MetaFilogic.Thermal

/-! ## The formulas -/

def GOLDEN_TEMP_MAX : BitVec 32 := 62

structure FormulaCoeff where
  a : BitVec 32
  b : BitVec 32
  goldenTemp : BitVec 32
  deriving DecidableEq

namespace FormulaCoeff

variable (co : FormulaCoeff)

def lvtsRawToTemp (msrRaw : BitVec 32) : BitVec 32 :=
  let msrRaw := msrRaw &&& 0xffff#32
  let temp := ((co.a.signExtend 64 * msrRaw.setWidth 64) >>> 14).setWidth 32
  temp + co.goldenTemp * 500#32 + co.b

def lvtsTempToRaw (temp : BitVec 32) : BitVec 32 :=
  (((co.goldenTemp * 500#32 + co.b - temp).setWidth 64 <<< 14).sdiv
    ((-1#32 * co.a).signExtend 64)).setWidth 32

/-- The golden temperature that `prepare_calibration_data` leaves. -/
def prepareGoldenTemp (useFakeEfuse : Bool) (goldenTemp defaultGoldenTemp : BitVec 32) :
    FormulaCoeff :=
  { co with
    goldenTemp :=
      if useFakeEfuse ∨ goldenTemp = 0 ∨ GOLDEN_TEMP_MAX < goldenTemp then defaultGoldenTemp
      else goldenTemp }

/-- The coefficients are in range and the golden temperature is one that
`prepare_calibration_data` takes from the fuses. -/
structure Sound : Prop where
  slope_neg : co.a.toInt < 0
  slope_ge : -(2 ^ 28) ≤ co.a.toInt
  offset_le : |co.b.toInt| ≤ 2 ^ 28
  golden_pos : 0 < co.goldenTemp
  golden_le : co.goldenTemp ≤ GOLDEN_TEMP_MAX

/-! ## What they come to -/

/-- How far a count of the sensor goes down for a thousandth of a degree, in units of `2 ^ -14`. -/
def slope : Int := -co.a.toInt

def top : Int := co.goldenTemp.toNat * 500 + co.b.toInt

def threshold (temp : Int) : Int := (co.top - temp) * 2 ^ 14 / co.slope

namespace Sound

variable {co : FormulaCoeff}

theorem slope_pos (sound : co.Sound) : 0 < co.slope := by
  have := sound.slope_neg
  rw [slope]
  omega

theorem slope_le (sound : co.Sound) : co.slope ≤ 2 ^ 28 := by
  have := sound.slope_ge
  rw [slope]
  omega

theorem golden_le_nat (sound : co.Sound) : co.goldenTemp.toNat ≤ 62 := sound.golden_le

theorem top_bounds (sound : co.Sound) : -(2 ^ 28) ≤ co.top ∧ co.top ≤ 2 ^ 28 + 31000 := by
  have golden := sound.golden_le_nat
  have offset := abs_le.1 sound.offset_le
  rw [top]
  omega

/-! ## Reading a count -/

/-- The 64-bit product of the negative slope wraps around, and the shift divides it downwards. -/
theorem product_eq (sound : co.Sound) (r : BitVec 32) :
    ((co.a.signExtend 64 * (r &&& 0xffff#32).setWidth 64) >>> 14).setWidth 32 =
      BitVec.ofInt 32 (-(co.slope * (r.toNat % 2 ^ 16 : Nat)) / 2 ^ 14) := by
  have positive := sound.slope_pos
  have small := sound.slope_le
  have count : ((r &&& 0xffff#32).setWidth 64 : BitVec 64).toNat = r.toNat % 2 ^ 16 := by
    rw [BitVec.toNat_setWidth, BitVec.toNat_and, show (0xffff#32).toNat = 2 ^ 16 - 1 from rfl,
      Nat.and_two_pow_sub_one_eq_mod]
    omega
  have low : r.toNat % 2 ^ 16 < 2 ^ 16 := Nat.mod_lt _ (by decide)
  have extended : (co.a.signExtend 64).toNat = 2 ^ 64 - co.slope.toNat := by
    have same : (co.a.signExtend 64).toInt = co.a.toInt :=
      BitVec.toInt_signExtend_of_le (by decide)
    rw [BitVec.toInt_eq_toNat_cond] at same
    rw [slope] at positive small ⊢
    split at same <;> omega
  refine BitVec.eq_of_toNat_eq ?_
  rw [BitVec.toNat_setWidth, BitVec.toNat_ushiftRight, BitVec.toNat_mul, count, extended,
    Nat.shiftRight_eq_div_pow, BitVec.toNat_ofInt]
  generalize r.toNat % 2 ^ 16 = n at low
  obtain ⟨k, slope_eq⟩ := Int.eq_ofNat_of_zero_le positive.le
  rw [slope_eq] at positive small ⊢
  have bound : k * n ≤ 2 ^ 28 * 2 ^ 16 := Nat.mul_le_mul (by omega) low.le
  have within : k * n ≤ 2 ^ 64 * n := Nat.mul_le_mul_right n (by omega)
  rw [Int.toNat_natCast, Nat.sub_mul, ← Int.natCast_mul]
  generalize k * n = x at bound within
  omega

theorem lvtsRawToTemp_toInt (sound : co.Sound) (r : BitVec 32) :
    (co.lvtsRawToTemp r).toInt =
      -(co.slope * (r.toNat % 2 ^ 16 : Nat)) / 2 ^ 14 + co.top := by
  have positive := sound.slope_pos
  have small := sound.slope_le
  have limits := sound.top_bounds
  have low : r.toNat % 2 ^ 16 < 2 ^ 16 := Nat.mod_lt _ (by decide)
  have golden : co.goldenTemp * 500#32 = BitVec.ofInt 32 (co.goldenTemp.toNat * 500) := by
    refine BitVec.eq_of_toNat_eq ?_
    have := sound.golden_le_nat
    rw [BitVec.toNat_mul, BitVec.toNat_ofInt, show (500#32).toNat = 500 from rfl]
    omega
  have below : co.slope * (r.toNat % 2 ^ 16 : Nat) ≤ 2 ^ 28 * 2 ^ 16 :=
    mul_le_mul small (by omega) (by omega) (by decide)
  have above : 0 ≤ co.slope * (r.toNat % 2 ^ 16 : Nat) := by positivity
  have sum : co.lvtsRawToTemp r = BitVec.ofInt 32
      (-(co.slope * (r.toNat % 2 ^ 16 : Nat)) / 2 ^ 14 + co.top) := by
    rw [lvtsRawToTemp, product_eq sound, golden, top, ← add_assoc, BitVec.ofInt_add,
      BitVec.ofInt_add, BitVec.ofInt_toInt]
  rw [sum, BitVec.toInt_ofInt]
  generalize co.slope * (r.toNat % 2 ^ 16 : Nat) = x at below above
  exact Int.bmod_eq_of_le (by omega) (by omega)

/-! ## The count of a temperature -/

variable {trip r : BitVec 32}

theorem lvtsTempToRaw_toNat (sound : co.Sound) (below : trip.toInt ≤ co.top) :
    ((co.lvtsTempToRaw trip).toNat : Int) = co.threshold trip.toInt % 2 ^ 32 := by
  have positive := sound.slope_pos
  have small := sound.slope_le
  have limits := sound.top_bounds
  have lowest := trip.le_toInt
  obtain ⟨d, gap⟩ := Int.eq_ofNat_of_zero_le (sub_nonneg.2 below)
  have difference : (co.goldenTemp * 500#32 + co.b - trip).toNat = d := by
    have offset := co.b.toInt_eq_toNat_cond
    have point := trip.toInt_eq_toNat_cond
    rw [BitVec.toNat_sub, BitVec.toNat_add, BitVec.toNat_mul, show (500#32).toNat = 500 from rfl]
    rw [top] at gap limits
    split at offset <;> split at point <;> omega
  have divisor : ((-1#32 * co.a).signExtend 64).toInt = co.slope := by
    rw [BitVec.toInt_signExtend_of_le (by decide), BitVec.neg_mul, BitVec.one_mul, slope,
      BitVec.toInt_neg]
    rw [slope] at positive small
    exact Int.bmod_eq_of_le (by omega) (by omega)
  have divisor_msb : ((-1#32 * co.a).signExtend 64).msb = false := by
    rw [BitVec.msb_eq_toInt, divisor]
    exact decide_eq_false (by omega)
  have dividend : ((co.goldenTemp * 500#32 + co.b - trip).setWidth 64 <<< 14 : BitVec 64).toNat =
      d * 2 ^ 14 := by
    have range := (co.goldenTemp * 500#32 + co.b - trip).isLt
    rw [BitVec.toNat_shiftLeft, BitVec.toNat_setWidth, Nat.shiftLeft_eq]
    omega
  have dividend_msb :
      ((co.goldenTemp * 500#32 + co.b - trip).setWidth 64 <<< 14 : BitVec 64).msb = false := by
    have range := (co.goldenTemp * 500#32 + co.b - trip).isLt
    rw [BitVec.msb_eq_decide, dividend]
    exact decide_eq_false (by omega)
  have divisor_nat : (((-1#32 * co.a).signExtend 64).toNat : Int) = co.slope := by
    rw [← divisor, BitVec.toInt_eq_toNat_of_msb divisor_msb]
  rw [lvtsTempToRaw, BitVec.toNat_setWidth, BitVec.sdiv_eq, dividend_msb, divisor_msb]
  dsimp only
  rw [BitVec.udiv_eq, BitVec.toNat_udiv, dividend, threshold, gap, ← divisor_nat]
  push_cast
  rfl

theorem lvtsTempToRaw_of_small (sound : co.Sound) (below : trip.toInt ≤ co.top)
    (small : co.threshold trip.toInt ≤ 0xffff) :
    ((co.lvtsTempToRaw trip).toNat : Int) = co.threshold trip.toInt := by
  have positive : 0 ≤ co.threshold trip.toInt :=
    Int.ediv_nonneg (mul_nonneg (sub_nonneg.2 below) (by decide)) sound.slope_pos.le
  rw [lvtsTempToRaw_toNat sound below]
  exact Int.emod_eq_of_lt positive (by omega)

/-! ## The reboot and the reading -/

theorem lvtsRawToTemp_of_le (sound : co.Sound) (small : r.toNat ≤ 0xffff) :
    (co.lvtsRawToTemp r).toInt = -(co.slope * r.toNat) / 2 ^ 14 + co.top := by
  rw [lvtsRawToTemp_toInt sound, Nat.mod_eq_of_lt (by omega)]

theorem lvtsRawToTemp_antitone (sound : co.Sound) {r' : BitVec 32} (le : r.toNat ≤ r'.toNat)
    (small : r'.toNat ≤ 0xffff) : (co.lvtsRawToTemp r').toInt ≤ (co.lvtsRawToTemp r).toInt := by
  rw [lvtsRawToTemp_of_le sound small, lvtsRawToTemp_of_le sound (le.trans small)]
  have further : co.slope * r.toNat ≤ co.slope * r'.toNat :=
    mul_le_mul_of_nonneg_left (by omega) sound.slope_pos.le
  exact Int.add_le_add_right (Int.ediv_le_ediv (by decide) (neg_le_neg further)) _

theorem le_threshold_iff (sound : co.Sound) (temp r : Int) :
    r ≤ co.threshold temp ↔ temp ≤ -(co.slope * r) / 2 ^ 14 + co.top := by
  have reads : temp - co.top ≤ -(co.slope * r) / 2 ^ 14 ↔
      (temp - co.top) * 2 ^ 14 ≤ -(co.slope * r) := Int.le_ediv_iff_mul_le (by decide)
  rw [threshold, Int.le_ediv_iff_mul_le sound.slope_pos, ← sub_le_iff_le_add, reads,
    mul_comm r co.slope]
  constructor <;> intro le <;> linarith

theorem le_lvtsTempToRaw_iff (sound : co.Sound) (below : trip.toInt ≤ co.top)
    (small : co.threshold trip.toInt ≤ 0xffff) (count : r.toNat ≤ 0xffff) :
    r ≤ co.lvtsTempToRaw trip ↔ trip.toInt ≤ (co.lvtsRawToTemp r).toInt := by
  rw [lvtsRawToTemp_of_le sound count, ← le_threshold_iff sound,
    ← lvtsTempToRaw_of_small sound below small, BitVec.le_def, Nat.cast_le]

theorem threshold_reading (sound : co.Sound) (steep : 2 ^ 14 ≤ co.slope) (r : Int) :
    co.threshold (-(co.slope * r) / 2 ^ 14 + co.top) = r := by
  have positive := sound.slope_pos
  have next := Int.lt_mul_ediv_self_add (x := -(co.slope * r)) (k := 2 ^ 14) (by decide)
  refine le_antisymm ?_ ((le_threshold_iff sound _ r).2 le_rfl)
  refine Int.lt_add_one_iff.1 ((Int.ediv_lt_iff_lt_mul positive).2 ?_)
  have more : (r + 1) * co.slope = co.slope * r + co.slope := by
    rw [add_mul, one_mul, mul_comm]
  rw [more]
  linarith

theorem lvtsTempToRaw_lvtsRawToTemp (sound : co.Sound) (steep : 2 ^ 14 ≤ co.slope)
    (count : r.toNat ≤ 0xffff) : co.lvtsTempToRaw (co.lvtsRawToTemp r) = r := by
  have reading := lvtsRawToTemp_of_le sound count
  have inverse := threshold_reading sound steep r.toNat
  rw [← reading] at inverse
  have below : (co.lvtsRawToTemp r).toInt ≤ co.top := by
    have nonneg : 0 ≤ co.slope * r.toNat := mul_nonneg sound.slope_pos.le (by omega)
    rw [reading]
    omega
  have same := lvtsTempToRaw_of_small sound below (by omega)
  rw [inverse] at same
  exact BitVec.eq_of_toNat_eq (by exact_mod_cast same)

end Sound

/-- The reading falls with the count, the threshold of the hardware parts the counts where the
reading passes the trip point, and reading a count loses nothing when the slope is steep.  The
threshold is returned in 32 bits, so it has to be one that the sensor can count to. -/
theorem reboot_agrees {co : FormulaCoeff} (sound : co.Sound) :
    (∀ r r' : BitVec 32, r.toNat ≤ r'.toNat → r'.toNat ≤ 0xffff →
      (co.lvtsRawToTemp r').toInt ≤ (co.lvtsRawToTemp r).toInt) ∧
    (∀ trip r : BitVec 32, trip.toInt ≤ co.top → co.threshold trip.toInt ≤ 0xffff →
      r.toNat ≤ 0xffff →
      (r ≤ co.lvtsTempToRaw trip ↔ trip.toInt ≤ (co.lvtsRawToTemp r).toInt)) ∧
    (2 ^ 14 ≤ co.slope → ∀ r : BitVec 32, r.toNat ≤ 0xffff →
      co.lvtsTempToRaw (co.lvtsRawToTemp r) = r) :=
  ⟨fun _ _ => sound.lvtsRawToTemp_antitone, fun _ _ => sound.le_lvtsTempToRaw_iff,
    fun steep _ => sound.lvtsTempToRaw_lvtsRawToTemp steep⟩

def mt7988 : FormulaCoeff := ⟨BitVec.ofInt 32 (-204650), 204650, 60⟩

theorem mt7988_sound : mt7988.Sound := ⟨by decide, by decide, by decide, by decide, by decide⟩

theorem reboot_agrees_mt7988 : mt7988.lvtsTempToRaw (mt7988.lvtsRawToTemp 9000) = 9000 :=
  (reboot_agrees mt7988_sound).2.2 (by decide) 9000 (by decide)

/-- A slope of one unit: a trip point far below gets the threshold 0, although a count of 1 still
reads warmer. -/
theorem threshold_wraps : ¬∀ (co : FormulaCoeff) (trip r : BitVec 32), co.Sound →
    trip.toInt ≤ co.top → (co.lvtsTempToRaw trip).toNat ≤ 0xffff → r.toNat ≤ 0xffff →
    (r ≤ co.lvtsTempToRaw trip ↔ trip.toInt ≤ (co.lvtsRawToTemp r).toInt) := by
  intro always
  have sound : FormulaCoeff.Sound ⟨BitVec.ofInt 32 (-1), 0, 1⟩ :=
    ⟨by decide, by decide, by decide, by decide, by decide⟩
  have both := always _ (BitVec.ofInt 32 (500 - 2 ^ 18)) 1 sound (by decide +kernel)
    (by decide +kernel) (by decide)
  exact absurd (both.2 (by decide +kernel)) (by decide +kernel)

end FormulaCoeff

end MetaFilogic.Thermal
