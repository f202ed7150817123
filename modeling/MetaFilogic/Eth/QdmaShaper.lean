import MetaFilogic.Library.WordParts
import Mathlib.Tactic.Positivity

/-!
# The shapers of the QDMA

The files of debugfs set the rate of a scheduler and the rates, weight and reservation of a queue.
A rate is stored as a mantissa and a decimal exponent, in fields whose places depend on the
version of the QDMA.
-/

namespace MetaFilogic.Eth.Qdma

open WordParts
open Function (update update_self update_of_ne)

/-! ## Fields -/

structure Mask where
  lo : Nat
  width : Nat

def genmask (hi lo : Nat) : Mask := ⟨lo, hi + 1 - lo⟩

def Mask.prep (mask : Mask) (val : Int) : BitVec 32 := place 32 mask.lo (BitVec.ofInt mask.width val)

def Mask.get (mask : Mask) (reg : BitVec 32) : Nat := (reg.extractLsb' mask.lo mask.width).toNat

def MTK_QTX_SCH_TX_SEL : Mask := genmask 31 31
def MTK_QTX_SCH_TX_SEL_V2 : Mask := genmask 31 30
def MTK_QTX_SCH_MIN_RATE_EN : Mask := genmask 27 27
def MTK_QTX_SCH_MIN_RATE_MAN : Mask := genmask 26 20
def MTK_QTX_SCH_MIN_RATE_MAN_V2 : Mask := genmask 25 19
def MTK_QTX_SCH_MIN_RATE_EXP : Mask := genmask 19 16
def MTK_QTX_SCH_MIN_RATE_EXP_V2 : Mask := genmask 18 16
def MTK_QTX_SCH_MAX_RATE_WEIGHT : Mask := genmask 15 12
def MTK_QTX_SCH_MAX_RATE_WEIGHT_V2 : Mask := genmask 15 10
def MTK_QTX_SCH_MAX_RATE_EN : Mask := genmask 11 11
def MTK_QTX_SCH_MAX_RATE_EN_V2 : Mask := genmask 26 26
def MTK_QTX_SCH_MAX_RATE_MAN : Mask := genmask 10 4
def MTK_QTX_SCH_MAX_RATE_MAN_V2 : Mask := genmask 9 3
def MTK_QTX_SCH_MAX_RATE_EXP : Mask := genmask 3 0
def MTK_QTX_SCH_MAX_RATE_EXP_V2 : Mask := genmask 2 0
def MTK_QTX_CFG_HW_RESV_CNT_OFFSET : Mask := genmask 15 8
def MTK_QTX_CFG_SW_RESV_CNT_OFFSET : Mask := genmask 7 0
def MTK_QDMA_TX_SCH_MAX_WFQ : Mask := genmask 15 15
def MTK_QDMA_TX_SCH_RATE_EN : Mask := genmask 11 11
def MTK_QDMA_TX_SCH_RATE_MAN : Mask := genmask 10 4
def MTK_QDMA_TX_SCH_RATE_EXP : Mask := genmask 3 0

def MTK_QTX_PER_PAGE : Nat := 16
def MTK_QDMA_TX_NUM : Nat := 16

/-- The version of the QDMA, of which a SoC has one in its `caps`. -/
inductive Version where
  | v1_1
  | v1_2
  | v1_3
  | v1_4
  deriving DecidableEq

/-- Where the settings of a queue stand in `MTK_QTX_SCH`. -/
structure Layout where
  txSel : Mask
  minRateEn : Mask
  minRateMan : Mask
  minRateExp : Mask
  maxRateEn : Mask
  maxWeight : Mask
  maxRateMan : Mask
  maxRateExp : Mask

/-- The places that the reader and the writer choose by `caps`. -/
def layout (version : Version) : Layout :=
  let txSel := if version ≠ .v1_1 then MTK_QTX_SCH_TX_SEL_V2 else MTK_QTX_SCH_TX_SEL
  if version = .v1_4 then
    ⟨txSel, MTK_QTX_SCH_MIN_RATE_EN, MTK_QTX_SCH_MIN_RATE_MAN_V2, MTK_QTX_SCH_MIN_RATE_EXP_V2,
      MTK_QTX_SCH_MAX_RATE_EN_V2, MTK_QTX_SCH_MAX_RATE_WEIGHT_V2, MTK_QTX_SCH_MAX_RATE_MAN_V2,
      MTK_QTX_SCH_MAX_RATE_EXP_V2⟩
  else
    ⟨txSel, MTK_QTX_SCH_MIN_RATE_EN, MTK_QTX_SCH_MIN_RATE_MAN, MTK_QTX_SCH_MIN_RATE_EXP,
      MTK_QTX_SCH_MAX_RATE_EN, MTK_QTX_SCH_MAX_RATE_WEIGHT, MTK_QTX_SCH_MAX_RATE_MAN,
      MTK_QTX_SCH_MAX_RATE_EXP⟩

/-- The registers: those of the queues of all pages, and the schedulers by the word they share. -/
structure Regs where
  page : BitVec 32
  qtxCfg : Nat → BitVec 32
  qtxSch : Nat → BitVec 32
  tx2sch : BitVec 32
  tx4sch : Nat → BitVec 32

namespace Regs

variable (regs : Regs)

def queueAt (x : Nat) : Nat := regs.page.toNat % 16 * MTK_QTX_PER_PAGE + x

def setPage (page : Nat) : Regs := { regs with page := BitVec.ofNat 32 page }

def readSch (x : Nat) : BitVec 32 := regs.qtxSch (regs.queueAt x)

def readCfg (x : Nat) : BitVec 32 := regs.qtxCfg (regs.queueAt x)

def writeSch (x : Nat) (val : BitVec 32) : Regs :=
  { regs with qtxSch := update regs.qtxSch (regs.queueAt x) val }

def writeCfg (x : Nat) (val : BitVec 32) : Regs :=
  { regs with qtxCfg := update regs.qtxCfg (regs.queueAt x) val }

def readTxSch (version : Version) (id : Nat) : BitVec 32 :=
  if version ≠ .v1_1 then regs.tx4sch (id / 2) else regs.tx2sch

def writeTxSch (version : Version) (id : Nat) (val : BitVec 32) : Regs :=
  if version ≠ .v1_1 then { regs with tx4sch := update regs.tx4sch (id / 2) val }
  else { regs with tx2sch := val }

end Regs

/-! ## Rates -/

def expUnitsKbps : List Nat := [1, 10, 100, 1000, 10000, 100000, 1000000]

/-- The loop of `qdma_rate_exp_man_calc` over the exponents below `levels`, from the last on. -/
def rateExpManFrom (rate : Nat) : Nat → Option (Nat × Nat)
  | 0 => none
  | exp + 1 =>
    let unitRate := expUnitsKbps.getD exp 1
    if rate % unitRate > 0 then rateExpManFrom rate exp
    else
      let man := rate / unitRate
      if 1 ≤ man ∧ man ≤ 127 then some (exp, man) else rateExpManFrom rate exp

def qdmaRateExpManCalc (rate : Nat) : Option (Nat × Nat) :=
  if rate = 0 then some (0, 0) else rateExpManFrom rate expUnitsKbps.length

/-- The loop of `qdma_queue_write` that brings a rate into its mantissa. -/
def reduceFrom : Nat → Nat → Nat → Nat × Nat
  | 0, rate, exp => (rate, exp)
  | left + 1, rate, exp => if 127 < rate then reduceFrom left (rate / 10) (exp + 1) else (rate, exp)

def reduceRate (rate : Nat) : Nat × Nat := reduceFrom rate rate 0

def multiplyOut : Nat → BitVec 32 → BitVec 32
  | 0, rate => rate
  | exp + 1, rate => multiplyOut exp (rate * 10#32)

def maxRate (version : Version) : Int :=
  if version = .v1_3 ∨ version = .v1_4 then 10000000 else 1000000

/-! ## The schedulers -/

/-- A number that `sscanf` reads in at most `width` characters, the sign included. -/
structure Num (width : Nat) where
  val : Int
  low : -10 ^ (width - 1) < val
  high : val < 10 ^ width

def Num.asInt {width : Nat} (num : Num width) : Int := (BitVec.ofInt 32 num.val).toInt

/-- A line that `qdma_sched_write` reads: `"%1d %3s %9d"`. -/
structure SchedLine where
  enable : Num 1
  scheduling : String
  rate : Num 9

def schedVal (line : SchedLine) (exp man : Nat) : BitVec 32 :=
  orIf (orIf 0#32 (decide (line.enable.asInt ≠ 0)) (MTK_QDMA_TX_SCH_RATE_EN.prep 1))
      (decide (line.scheduling ≠ "sp")) (MTK_QDMA_TX_SCH_MAX_WFQ.prep 1) |||
    MTK_QDMA_TX_SCH_RATE_MAN.prep man ||| MTK_QDMA_TX_SCH_RATE_EXP.prep exp

def schedShift (id : Nat) : Nat := if id % 2 = 1 then 16 else 0

/-- `qdma_sched_write` of the file of scheduler `id`; `none` is `-EINVAL`. -/
def qdmaSchedWrite (version : Version) (id : Nat) (line : SchedLine) (regs : Regs) :
    Option Regs :=
  let rate := line.rate.asInt
  if rate > maxRate version ∨ rate < 0 then none
  else
    match qdmaRateExpManCalc rate.toNat with
    | none => none
    | some (exp, man) =>
      let shift := schedShift id
      let qdmaTxSch := regs.readTxSch version id
      let qdmaTxSch := qdmaTxSch &&& ~~~(place 32 shift (BitVec.allOnes 16))
      let qdmaTxSch := qdmaTxSch ||| schedVal line exp man <<< shift
      some (regs.writeTxSch version id qdmaTxSch)

def schedulers (version : Version) : Nat := if version ≠ .v1_1 then 4 else 2

structure SchedShown where
  enable : Nat
  scheduling : String
  maxRate : BitVec 32
  queues : List Nat
  deriving DecidableEq

def schedHalf (version : Version) (id : Nat) (regs : Regs) : BitVec 32 :=
  (regs.readTxSch version id >>> schedShift id) &&& 0xffff#32

/-- `qdma_sched_show` of the file of scheduler `id`. -/
def qdmaSchedShow (version : Version) (id : Nat) (regs : Regs) : SchedShown :=
  let qdmaTxSch := schedHalf version id regs
  let scheduling := MTK_QDMA_TX_SCH_MAX_WFQ.get qdmaTxSch
  { enable := MTK_QDMA_TX_SCH_RATE_EN.get qdmaTxSch
    scheduling := if scheduling = 1 then "WRR" else "SP"
    maxRate := multiplyOut (MTK_QDMA_TX_SCH_RATE_EXP.get qdmaTxSch)
      (BitVec.ofNat 32 (MTK_QDMA_TX_SCH_RATE_MAN.get qdmaTxSch))
    queues := (List.range MTK_QDMA_TX_NUM).filter fun i =>
      id = (layout version).txSel.get
        ((regs.setPage (i / MTK_QTX_PER_PAGE)).readSch (i % MTK_QTX_PER_PAGE)) }

/-! ## The queues -/

/-- A line that `qdma_queue_write` reads: `"%10d %10d %10d %10d %10d %10d %10d"`. -/
structure QueueLine where
  scheduler : Num 10
  minEnable : Num 10
  minRate : Num 10
  maxEnable : Num 10
  maxRate : Num 10
  weight : Num 10
  resv : Num 10

/-- The word for `MTK_QTX_SCH`. -/
def qtxSchWord (l : Layout) (line : QueueLine) (maxRate minRate : Nat × Nat) : BitVec 32 :=
  let qtxSch := l.txSel.prep line.scheduler.asInt
  let qtxSch := orIf qtxSch (decide (line.minEnable.asInt ≠ 0)) (l.minRateEn.prep 1)
  let qtxSch := qtxSch ||| l.minRateMan.prep minRate.1
  let qtxSch := qtxSch ||| l.minRateExp.prep minRate.2
  let qtxSch := orIf qtxSch (decide (line.maxEnable.asInt ≠ 0)) (l.maxRateEn.prep 1)
  let qtxSch := qtxSch ||| l.maxWeight.prep line.weight.asInt
  let qtxSch := qtxSch ||| l.maxRateMan.prep maxRate.1
  qtxSch ||| l.maxRateExp.prep maxRate.2

/-- `qdma_queue_write` of the file of queue `id`; `false` is `-EINVAL`. -/
def qdmaQueueWrite (version : Version) (id : Nat) (line : QueueLine) (regs : Regs) : Bool × Regs :=
  let regs := regs.setPage (id / MTK_QTX_PER_PAGE)
  let maxRate_ := line.maxRate.asInt
  let minRate := line.minRate.asInt
  if maxRate_ > maxRate version ∨ maxRate_ < 0 ∨ minRate > maxRate version ∨ minRate < 0 then
    (false, regs)
  else
    let qtxSch := qtxSchWord (layout version) line (reduceRate maxRate_.toNat)
      (reduceRate minRate.toNat)
    let regs := regs.writeSch (id % MTK_QTX_PER_PAGE) qtxSch
    let qtxCfg := regs.readCfg (id % MTK_QTX_PER_PAGE)
    let qtxCfg := qtxCfg &&& 0xffff0000#32
    let qtxCfg := qtxCfg ||| MTK_QTX_CFG_HW_RESV_CNT_OFFSET.prep line.resv.asInt
    let qtxCfg := qtxCfg ||| MTK_QTX_CFG_SW_RESV_CNT_OFFSET.prep line.resv.asInt
    (true, regs.writeCfg (id % MTK_QTX_PER_PAGE) qtxCfg)

structure QueueShown where
  scheduler : Nat
  hwResv : Nat
  swResv : Nat
  maxRateEn : Nat
  maxRate : BitVec 32
  maxWeight : Nat
  minRateEn : Nat
  minRate : BitVec 32
  deriving DecidableEq

/-- `qdma_queue_show` of the file of queue `id`. -/
def qdmaQueueShow (version : Version) (id : Nat) (regs : Regs) : QueueShown :=
  let regs := regs.setPage (id / MTK_QTX_PER_PAGE)
  let qtxCfg := regs.readCfg (id % MTK_QTX_PER_PAGE)
  let qtxSch := regs.readSch (id % MTK_QTX_PER_PAGE)
  let l := layout version
  { scheduler := l.txSel.get qtxSch
    hwResv := ((qtxCfg >>> 8) &&& 0xff#32).toNat
    swResv := (qtxCfg &&& 0xff#32).toNat
    maxRateEn := l.maxRateEn.get qtxSch
    maxRate := multiplyOut (l.maxRateExp.get qtxSch) (BitVec.ofNat 32 (l.maxRateMan.get qtxSch))
    maxWeight := l.maxWeight.get qtxSch
    minRateEn := l.minRateEn.get qtxSch
    minRate := multiplyOut (l.minRateExp.get qtxSch) (BitVec.ofNat 32 (l.minRateMan.get qtxSch)) }

/-! ## What is asked for -/

/-- The largest value with a mantissa up to 127 that is not above a rate, with the smallest
exponent that lets the mantissa fit. -/
structure Denotes (rate : Int) (man exp : Nat) : Prop where
  fits : man ≤ 127
  le : (man * 10 ^ exp : Nat) ≤ rate
  largest : ∀ m ≤ 127, ((m * 10 ^ exp : Nat) : Int) ≤ rate → m ≤ man
  covers : rate < (128 * 10 ^ exp : Nat)
  smallest : ∀ e < exp, ((128 * 10 ^ e : Nat) : Int) ≤ rate

/-- The settings of a scheduler are those of the line, and show as such; the other schedulers and
the queues are as before. -/
structure SchedKept (version : Version) (id : Nat) (line : SchedLine) (regs regs' : Regs) :
    Prop where
  exact : ∃ man exp, man ≤ 127 ∧ exp < 16 ∧ ((man * 10 ^ exp : Nat) : Int) = line.rate.val ∧
    MTK_QDMA_TX_SCH_RATE_MAN.get (schedHalf version id regs') = man ∧
    MTK_QDMA_TX_SCH_RATE_EXP.get (schedHalf version id regs') = exp
  shown : qdmaSchedShow version id regs' =
    { enable := if line.enable.val = 0 then 0 else 1
      scheduling := if line.scheduling = "sp" then "SP" else "WRR"
      maxRate := BitVec.ofInt 32 line.rate.val
      queues := (qdmaSchedShow version id regs).queues }
  others : ∀ other < schedulers version, other ≠ id →
    schedHalf version other regs' = schedHalf version other regs
  queues : regs'.qtxCfg = regs.qtxCfg ∧ regs'.qtxSch = regs.qtxSch

/-- The settings of a queue are those of the line, and show as such; the other queues and the
schedulers are as before. -/
structure QueueKept (version : Version) (id : Nat) (line : QueueLine) (regs regs' : Regs) :
    Prop where
  maxRate : ∃ man exp, Denotes line.maxRate.val man exp ∧
    (layout version).maxRateMan.get (regs'.qtxSch id) = man ∧
    (layout version).maxRateExp.get (regs'.qtxSch id) = exp ∧
    (qdmaQueueShow version id regs').maxRate.toNat = man * 10 ^ exp
  minRate : ∃ man exp, Denotes line.minRate.val man exp ∧
    (layout version).minRateMan.get (regs'.qtxSch id) = man ∧
    (layout version).minRateExp.get (regs'.qtxSch id) = exp ∧
    (qdmaQueueShow version id regs').minRate.toNat = man * 10 ^ exp
  scheduler : ((qdmaQueueShow version id regs').scheduler : Int) = line.scheduler.val
  weight : ((qdmaQueueShow version id regs').maxWeight : Int) = line.weight.val
  hwResv : ((qdmaQueueShow version id regs').hwResv : Int) = line.resv.val
  swResv : ((qdmaQueueShow version id regs').swResv : Int) = line.resv.val
  maxEnable : (qdmaQueueShow version id regs').maxRateEn = if line.maxEnable.val = 0 then 0 else 1
  minEnable : (qdmaQueueShow version id regs').minRateEn = if line.minEnable.val = 0 then 0 else 1
  others : ∀ q ≠ id, regs'.qtxSch q = regs.qtxSch q ∧ regs'.qtxCfg q = regs.qtxCfg q
  schedulers : regs'.tx2sch = regs.tx2sch ∧ regs'.tx4sch = regs.tx4sch

structure QueueFits (version : Version) (line : QueueLine) : Prop where
  scheduler : 0 ≤ line.scheduler.val ∧ line.scheduler.val < 2 ^ (layout version).txSel.width
  weight : 0 ≤ line.weight.val ∧ line.weight.val < 2 ^ (layout version).maxWeight.width
  resv : 0 ≤ line.resv.val ∧ line.resv.val < 2 ^ 8
  maxRate : line.maxRate.val < 2 ^ 31
  minRate : line.minRate.val < 2 ^ 31
  maxEnable : line.maxEnable.val ≠ 2 ^ 32 ∧ line.maxEnable.val ≠ 2 ^ 33
  minEnable : line.minEnable.val ≠ 2 ^ 32 ∧ line.minEnable.val ≠ 2 ^ 33

/-! ## Fields that are read back -/

def Mask.Apart (mask other : Mask) : Prop :=
  mask.lo + mask.width ≤ other.lo ∨ other.lo + other.width ≤ mask.lo

instance (mask other : Mask) : Decidable (mask.Apart other) := inferInstanceAs (Decidable (_ ∨ _))

theorem extract_prep (mask : Mask) (fits : mask.lo + mask.width ≤ 32) (val : Int) :
    (mask.prep val).extractLsb' mask.lo mask.width = BitVec.ofInt mask.width val :=
  extract_place _ fits

theorem extract_prep_apart (mask other : Mask) (apart : mask.Apart other) (val : Int) :
    (mask.prep val).extractLsb' other.lo other.width = 0#_ :=
  extract_place_apart _ apart

theorem multiplyOut_eq (exp : Nat) (rate : BitVec 32) :
    multiplyOut exp rate = rate * BitVec.ofNat 32 (10 ^ exp) := by
  induction exp generalizing rate with
  | zero => simp [multiplyOut]
  | succ exp ih =>
    rw [multiplyOut, ih, BitVec.mul_assoc, Nat.pow_succ, Nat.mul_comm, BitVec.ofNat_mul]

variable {man exp width : Nat}

theorem multiplyOut_toNat (small : man * 10 ^ exp < 2 ^ 32) :
    (multiplyOut exp (BitVec.ofNat 32 man)).toNat = man * 10 ^ exp := by
  rw [multiplyOut_eq, ← BitVec.ofNat_mul, BitVec.toNat_ofNat, Nat.mod_eq_of_lt small]

/-! ## Rates -/

theorem reduceFrom_spec (rate left exp : Nat) (enough : rate / 10 ^ exp ≤ left) :
    ∃ e, exp ≤ e ∧ reduceFrom left (rate / 10 ^ exp) exp = (rate / 10 ^ e, e) ∧
      rate / 10 ^ e ≤ 127 ∧ ∀ k, exp ≤ k → k < e → 127 < rate / 10 ^ k := by
  induction left generalizing exp with
  | zero => exact ⟨exp, le_rfl, rfl, by omega, fun k low high => by omega⟩
  | succ left ih =>
    by_cases large : 127 < rate / 10 ^ exp
    · have next : rate / 10 ^ exp / 10 = rate / 10 ^ (exp + 1) := by
        rw [Nat.div_div_eq_div_mul, ← Nat.pow_succ]
      obtain ⟨e, low, result, fits, before⟩ := ih (exp + 1) (by omega)
      refine ⟨e, by omega, ?_, fits, fun k start lower => ?_⟩
      · rw [reduceFrom, if_pos large, next, result]
      · rcases Nat.eq_or_lt_of_le start with rfl | further
        · exact large
        · exact before k further lower
    · refine ⟨exp, le_rfl, ?_, by omega, fun k low high => by omega⟩
      rw [reduceFrom, if_neg large]

theorem reduceRate_denotes (rate : Nat) : Denotes rate (reduceRate rate).1 (reduceRate rate).2 := by
  obtain ⟨e, -, result, fits, before⟩ := reduceFrom_spec rate rate 0 (by simp)
  rw [Nat.pow_zero, Nat.div_one] at result
  rw [reduceRate, result]
  have positive : 0 < 10 ^ e := Nat.pow_pos (by decide)
  have below := Nat.div_mul_le_self rate (10 ^ e)
  have above : rate < (rate / 10 ^ e + 1) * 10 ^ e := by
    rw [Nat.mul_comm]
    exact Nat.lt_mul_div_succ rate positive
  refine ⟨fits, by exact_mod_cast below, fun m _ le => ?_, ?_, fun k lower => ?_⟩
  · exact (Nat.le_div_iff_mul_le positive).2 (by exact_mod_cast le)
  · have wide : (rate / 10 ^ e + 1) * 10 ^ e ≤ 128 * 10 ^ e := Nat.mul_le_mul_right _ (by omega)
    exact_mod_cast above.trans_le wide
  · have large := before k (Nat.zero_le k) lower
    exact_mod_cast (Nat.le_div_iff_mul_le (Nat.pow_pos (by decide))).1 large

theorem Denotes.exp_lt {rate : Int} (denotes : Denotes rate man exp) (small : rate ≤ 10000000) :
    exp < 6 := by
  by_contra high
  have fits := denotes.smallest 5 (by omega)
  omega

theorem expUnitsKbps_eq : ∀ exp < 7, expUnitsKbps.getD exp 1 = 10 ^ exp := by decide

theorem rateExpManFrom_exact {rate levels : Nat} (known : levels ≤ 7)
    (found : rateExpManFrom rate levels = some (exp, man)) :
    man ≤ 127 ∧ exp < levels ∧ man * 10 ^ exp = rate := by
  induction levels with
  | zero => exact nomatch found
  | succ level ih =>
    rw [rateExpManFrom, expUnitsKbps_eq level (by omega)] at found
    dsimp only at found
    split at found
    · obtain ⟨small, low, exact_⟩ := ih (by omega) found
      exact ⟨small, by omega, exact_⟩
    · rename_i divides
      split at found
      · rename_i small
        cases found
        exact ⟨small.2, by omega,
          Nat.div_mul_cancel (Nat.dvd_of_mod_eq_zero (by omega))⟩
      · obtain ⟨small, low, exact_⟩ := ih (by omega) found
        exact ⟨small, by omega, exact_⟩

theorem qdmaRateExpManCalc_exact {rate : Nat} (found : qdmaRateExpManCalc rate = some (exp, man)) :
    man ≤ 127 ∧ exp < 7 ∧ man * 10 ^ exp = rate := by
  rw [qdmaRateExpManCalc] at found
  split at found
  · rename_i zero
    cases found
    exact ⟨by omega, by omega, by omega⟩
  · exact rateExpManFrom_exact le_rfl found

theorem ofInt_toNat_of_lt {val : Nat} (small : val < 2 ^ width) :
    (BitVec.ofInt width val).toNat = val := by
  rw [BitVec.ofInt_natCast, BitVec.toNat_ofNat, Nat.mod_eq_of_lt small]

theorem ofInt_toNat_eq_iff (width : Nat) (val : Int) :
    ((BitVec.ofInt width val).toNat : Int) = val ↔ 0 ≤ val ∧ val < 2 ^ width := by
  rw [BitVec.toNat_ofInt, Int.toNat_of_nonneg (Int.emod_nonneg _ (by positivity))]
  push_cast
  constructor
  · intro same
    rw [← same]
    exact ⟨Int.emod_nonneg _ (by positivity), Int.emod_lt_of_pos _ (by positivity)⟩
  · exact fun range => Int.emod_eq_of_lt range.1 range.2

theorem flag_toNat (positive : 0 < width) (val : Int) :
    (if decide (val ≠ 0) = true then BitVec.ofInt width 1 else BitVec.ofNat width 0).toNat =
      if val = 0 then 0 else 1 := by
  by_cases zero : val = 0
  · simp [zero]
  · have one : (BitVec.ofInt width ((1 : Nat) : Int)).toNat = 1 :=
      ofInt_toNat_of_lt (Nat.one_lt_two_pow (by omega))
    simpa [zero] using one

/-! ## The queues -/

structure Reads (l : Layout) (line : QueueLine) (maxRate minRate : Nat × Nat) (word : BitVec 32) :
    Prop where
  txSel : l.txSel.get word = (BitVec.ofInt l.txSel.width line.scheduler.asInt).toNat
  minRateEn : l.minRateEn.get word = if line.minEnable.asInt = 0 then 0 else 1
  minRateMan : l.minRateMan.get word = (BitVec.ofInt l.minRateMan.width minRate.1).toNat
  minRateExp : l.minRateExp.get word = (BitVec.ofInt l.minRateExp.width minRate.2).toNat
  maxRateEn : l.maxRateEn.get word = if line.maxEnable.asInt = 0 then 0 else 1
  maxWeight : l.maxWeight.get word = (BitVec.ofInt l.maxWeight.width line.weight.asInt).toNat
  maxRateMan : l.maxRateMan.get word = (BitVec.ofInt l.maxRateMan.width maxRate.1).toNat
  maxRateExp : l.maxRateExp.get word = (BitVec.ofInt l.maxRateExp.width maxRate.2).toNat

theorem reads_qtxSchWord (version : Version) (line : QueueLine) (maxRate minRate : Nat × Nat) :
    Reads (layout version) line maxRate minRate
      (qtxSchWord (layout version) line maxRate minRate) := by
  cases version <;> constructor <;> unfold Mask.get qtxSchWord <;>
    simp (disch := decide) only [BitVec.extractLsb'_or, extract_orIf, extract_prep,
      extract_prep_apart, BitVec.or_zero, BitVec.zero_or, orIf_zero, zero_orIf, flag_toNat]

theorem layout_widths (version : Version) :
    7 ≤ (layout version).minRateMan.width ∧ 7 ≤ (layout version).maxRateMan.width ∧
      3 ≤ (layout version).minRateExp.width ∧ 3 ≤ (layout version).maxRateExp.width := by
  cases version <;> decide

theorem narrow_fields (version : Version) :
    (layout version).txSel.width ≤ 32 ∧ (layout version).maxWeight.width ≤ 32 := by
  cases version <;> decide

theorem Num.asInt_eq (num : Num width) :
    num.asInt = num.val.bmod (2 ^ 32) := BitVec.toInt_ofInt _

/-- A narrow field takes the low bits of the number, which the `int` has too. -/
theorem Num.ofInt_asInt {k : Nat} (num : Num width) (narrow : k ≤ 32) :
    BitVec.ofInt k num.asInt = BitVec.ofInt k num.val := by
  have divides : ((2 ^ k : Nat) : Int) ∣ ((2 ^ 32 : Nat) : Int) :=
    Int.natCast_dvd_natCast.2 (Nat.pow_dvd_pow 2 narrow)
  refine BitVec.eq_of_toNat_eq ?_
  rw [BitVec.toNat_ofInt, BitVec.toNat_ofInt, num.asInt_eq, ← Int.emod_emod_of_dvd _ divides,
    Int.bmod_emod, Int.emod_emod_of_dvd _ divides]

theorem Num.bounds (num : Num 10) : -10 ^ 9 < num.val ∧ num.val < 10 ^ 10 := ⟨num.low, num.high⟩

theorem Num.asInt_of_lt (num : Num 10) (small : num.val < 2 ^ 31) : num.asInt = num.val := by
  have bounds := num.bounds
  rw [num.asInt_eq]
  exact Int.bmod_eq_of_le (by omega) (by omega)

theorem Num.asInt_eq_zero_iff (num : Num 10) :
    num.asInt = 0 ↔ num.val = 0 ∨ num.val = 2 ^ 32 ∨ num.val = 2 ^ 33 := by
  have bounds := num.bounds
  rw [num.asInt_eq, Int.bmod_def]
  split <;> omega

theorem Num.lt_of_denotes (num : Num 10) (small : exp < 6) (denotes : Denotes num.val man exp) :
    num.val < 2 ^ 31 := by
  have covers := denotes.covers
  have widest : 128 * 10 ^ exp ≤ 128 * 10 ^ 5 :=
    Nat.mul_le_mul_left _ (Nat.pow_le_pow_right (by decide) (by omega))
  omega

section Queue

variable {version : Version} {id : Nat} {line : QueueLine} {regs : Regs}

/-- The word for `MTK_QTX_CFG`. -/
def qtxCfgWord (line : QueueLine) (qtxCfg : BitVec 32) : BitVec 32 :=
  qtxCfg &&& 0xffff0000#32 ||| MTK_QTX_CFG_HW_RESV_CNT_OFFSET.prep line.resv.asInt |||
    MTK_QTX_CFG_SW_RESV_CNT_OFFSET.prep line.resv.asInt

def Accepts (version : Version) (line : QueueLine) : Prop :=
  (0 ≤ line.maxRate.asInt ∧ line.maxRate.asInt ≤ maxRate version) ∧
    0 ≤ line.minRate.asInt ∧ line.minRate.asInt ≤ maxRate version

theorem qdmaQueueWrite_accepts (done : (qdmaQueueWrite version id line regs).1 = true) :
    Accepts version line := by
  rw [qdmaQueueWrite] at done
  dsimp only at done
  split at done
  · exact nomatch done
  · rename_i accepted
    push Not at accepted
    exact ⟨⟨accepted.2.1, accepted.1⟩, accepted.2.2.2, accepted.2.2.1⟩

theorem queueAt_first (regs : Regs) (inPage : id < MTK_QTX_PER_PAGE) :
    (regs.setPage (id / MTK_QTX_PER_PAGE)).queueAt (id % MTK_QTX_PER_PAGE) = id := by
  rw [Nat.div_eq_of_lt inPage, Nat.mod_eq_of_lt inPage, Regs.queueAt, Regs.setPage]
  simp

theorem qdmaQueueWrite_eq (inPage : id < MTK_QTX_PER_PAGE) (accepts : Accepts version line) :
    (qdmaQueueWrite version id line regs).2 =
      { regs.setPage (id / MTK_QTX_PER_PAGE) with
        qtxSch := update regs.qtxSch id (qtxSchWord (layout version) line
          (reduceRate line.maxRate.asInt.toNat) (reduceRate line.minRate.asInt.toNat))
        qtxCfg := update regs.qtxCfg id (qtxCfgWord line (regs.qtxCfg id)) } := by
  obtain ⟨⟨maxLow, maxHigh⟩, minLow, minHigh⟩ := accepts
  have place := queueAt_first regs inPage
  rw [qdmaQueueWrite]
  dsimp only
  rw [if_neg (by omega)]
  simp only [Regs.writeSch, Regs.readCfg, Regs.writeCfg]
  rw [show ∀ x, Regs.queueAt { regs.setPage (id / MTK_QTX_PER_PAGE) with qtxSch := x }
    (id % MTK_QTX_PER_PAGE) = id from fun _ => place, place]
  rfl

theorem qtxCfgWord_hwResv (qtxCfg : BitVec 32) :
    ((qtxCfgWord line qtxCfg >>> 8) &&& 0xff#32).toNat =
      (BitVec.ofInt 8 line.resv.asInt).toNat := by
  have byte : (qtxCfgWord line qtxCfg).extractLsb' 8 8 = BitVec.ofInt 8 line.resv.asInt := by
    rw [qtxCfgWord, BitVec.extractLsb'_or, BitVec.extractLsb'_or, BitVec.extractLsb'_and,
      show (0xffff0000#32).extractLsb' 8 8 = 0#8 from rfl, BitVec.and_zero, BitVec.zero_or,
      show (MTK_QTX_CFG_SW_RESV_CNT_OFFSET.prep line.resv.asInt).extractLsb' 8 8 = 0#8 from
        extract_prep_apart _ MTK_QTX_CFG_HW_RESV_CNT_OFFSET (by decide) _,
      BitVec.or_zero]
    exact extract_prep MTK_QTX_CFG_HW_RESV_CNT_OFFSET (by decide) _
  rw [← byte, BitVec.extractLsb'_toNat, BitVec.toNat_and, BitVec.toNat_ushiftRight,
    show (0xff#32).toNat = 2 ^ 8 - 1 from rfl, Nat.and_two_pow_sub_one_eq_mod]

theorem qtxCfgWord_swResv (qtxCfg : BitVec 32) :
    (qtxCfgWord line qtxCfg &&& 0xff#32).toNat = (BitVec.ofInt 8 line.resv.asInt).toNat := by
  have byte : (qtxCfgWord line qtxCfg).extractLsb' 0 8 = BitVec.ofInt 8 line.resv.asInt := by
    rw [qtxCfgWord, BitVec.extractLsb'_or, BitVec.extractLsb'_or, BitVec.extractLsb'_and,
      show (0xffff0000#32).extractLsb' 0 8 = 0#8 from rfl, BitVec.and_zero, BitVec.zero_or,
      show (MTK_QTX_CFG_HW_RESV_CNT_OFFSET.prep line.resv.asInt).extractLsb' 0 8 = 0#8 from
        extract_prep_apart _ MTK_QTX_CFG_SW_RESV_CNT_OFFSET (by decide) _,
      BitVec.zero_or]
    exact extract_prep MTK_QTX_CFG_SW_RESV_CNT_OFFSET (by decide) _
  rw [← byte, BitVec.extractLsb'_toNat, BitVec.toNat_and,
    show (0xff#32).toNat = 2 ^ 8 - 1 from rfl, Nat.and_two_pow_sub_one_eq_mod]
  rfl

theorem qdmaQueueShow_eq (version : Version) (regs : Regs) (inPage : id < MTK_QTX_PER_PAGE) :
    qdmaQueueShow version id regs =
      { scheduler := (layout version).txSel.get (regs.qtxSch id)
        hwResv := ((regs.qtxCfg id >>> 8) &&& 0xff#32).toNat
        swResv := (regs.qtxCfg id &&& 0xff#32).toNat
        maxRateEn := (layout version).maxRateEn.get (regs.qtxSch id)
        maxRate := multiplyOut ((layout version).maxRateExp.get (regs.qtxSch id))
          (BitVec.ofNat 32 ((layout version).maxRateMan.get (regs.qtxSch id)))
        maxWeight := (layout version).maxWeight.get (regs.qtxSch id)
        minRateEn := (layout version).minRateEn.get (regs.qtxSch id)
        minRate := multiplyOut ((layout version).minRateExp.get (regs.qtxSch id))
          (BitVec.ofNat 32 ((layout version).minRateMan.get (regs.qtxSch id))) } := by
  have place := queueAt_first regs inPage
  rw [qdmaQueueShow]
  simp only [Regs.readSch, Regs.readCfg, place]
  rfl

theorem accepted_rate (num : Num 10) {limit : Int} (low : 0 ≤ num.asInt)
    (high : num.asInt ≤ limit) (limited : limit ≤ 10000000) :
    Denotes num.asInt (reduceRate num.asInt.toNat).1 (reduceRate num.asInt.toNat).2 ∧
      (reduceRate num.asInt.toNat).2 < 6 ∧
      (reduceRate num.asInt.toNat).1 * 10 ^ (reduceRate num.asInt.toNat).2 < 2 ^ 32 := by
  have denotes := reduceRate_denotes num.asInt.toNat
  rw [Int.toNat_of_nonneg low] at denotes
  have value := denotes.le
  exact ⟨denotes, denotes.exp_lt (high.trans limited), by omega⟩

theorem maxRate_le (version : Version) : maxRate version ≤ 10000000 := by
  rw [maxRate]
  split <;> decide

theorem rate_fields {manWidth expWidth : Nat} {rate : Nat × Nat} (wideMan : 7 ≤ manWidth)
    (wideExp : 3 ≤ expWidth) (small : rate.1 ≤ 127) (low : rate.2 < 6) :
    (BitVec.ofInt manWidth rate.1).toNat = rate.1 ∧
      (BitVec.ofInt expWidth rate.2).toNat = rate.2 := by
  have manRoom : 2 ^ 7 ≤ 2 ^ manWidth := Nat.pow_le_pow_right (by decide) wideMan
  have expRoom : 2 ^ 3 ≤ 2 ^ expWidth := Nat.pow_le_pow_right (by decide) wideExp
  exact ⟨ofInt_toNat_of_lt (by omega), ofInt_toNat_of_lt (by omega)⟩

theorem flag_eq_iff (num : Num 10) : ((if num.asInt = 0 then 0 else 1) =
    if num.val = 0 then 0 else 1) ↔ num.val ≠ 2 ^ 32 ∧ num.val ≠ 2 ^ 33 := by
  have zero := num.asInt_eq_zero_iff
  by_cases asZero : num.asInt = 0
  · by_cases isZero : num.val = 0
    · rw [if_pos asZero, if_pos isZero, isZero]
      exact ⟨fun _ => ⟨by decide, by decide⟩, fun _ => rfl⟩
    · rw [if_pos asZero, if_neg isZero]
      rcases (zero.1 asZero).resolve_left isZero with large | large <;> rw [large] <;> decide
  · rw [if_neg asZero, if_neg fun isZero => asZero (zero.2 (.inl isZero))]
    exact ⟨fun _ => ⟨fun large => asZero (zero.2 (.inr (.inl large))),
      fun large => asZero (zero.2 (.inr (.inr large)))⟩, fun _ => rfl⟩

/-- What is put into a field is read back as the number of the line when the field can hold it. -/
theorem field_eq_iff (num : Num 10) {width : Nat} (narrow : width ≤ 32) :
    ((BitVec.ofInt width num.asInt).toNat : Int) = num.val ↔
      0 ≤ num.val ∧ num.val < 2 ^ width := by
  rw [num.ofInt_asInt narrow, ofInt_toNat_eq_iff]

theorem rateKept_iff (num : Num 10) {limit : Int} (low : 0 ≤ num.asInt) (high : num.asInt ≤ limit)
    (limited : limit ≤ 10000000) :
    (∃ man exp, Denotes num.val man exp ∧ (reduceRate num.asInt.toNat).1 = man ∧
      (reduceRate num.asInt.toNat).2 = exp ∧
      (multiplyOut (reduceRate num.asInt.toNat).2
        (BitVec.ofNat 32 (reduceRate num.asInt.toNat).1)).toNat = man * 10 ^ exp) ↔
      num.val < 2 ^ 31 := by
  obtain ⟨denotes, small, fits⟩ := accepted_rate num low high limited
  constructor
  · rintro ⟨man, exp, asked, -, rfl, -⟩
    exact num.lt_of_denotes small asked
  · intro inRange
    rw [num.asInt_of_lt inRange] at denotes fits ⊢
    exact ⟨_, _, denotes, rfl, rfl, multiplyOut_toNat fits⟩

theorem queueKept_iff (inPage : id < MTK_QTX_PER_PAGE)
    (done : (qdmaQueueWrite version id line regs).1 = true) :
    QueueKept version id line regs (qdmaQueueWrite version id line regs).2 ↔
      QueueFits version line := by
  have accepts := qdmaQueueWrite_accepts done
  obtain ⟨⟨maxLow, maxHigh⟩, minLow, minHigh⟩ := accepts
  have limited := maxRate_le version
  have maxKept := rateKept_iff line.maxRate maxLow maxHigh limited
  have minKept := rateKept_iff line.minRate minLow minHigh limited
  obtain ⟨maxDenotes, maxSmall, -⟩ := accepted_rate line.maxRate maxLow maxHigh limited
  obtain ⟨minDenotes, minSmall, -⟩ := accepted_rate line.minRate minLow minHigh limited
  obtain ⟨minMan, maxMan, minExp, maxExp⟩ := layout_widths version
  have maxFields := rate_fields maxMan maxExp maxDenotes.fits maxSmall
  have minFields := rate_fields minMan minExp minDenotes.fits minSmall
  have reads := reads_qtxSchWord version line (reduceRate line.maxRate.asInt.toNat)
    (reduceRate line.minRate.asInt.toNat)
  have narrow := narrow_fields version
  have shown := qdmaQueueShow_eq version (qdmaQueueWrite version id line regs).2 inPage
  rw [qdmaQueueWrite_eq inPage ⟨⟨maxLow, maxHigh⟩, minLow, minHigh⟩] at shown ⊢
  simp only [update_self, reads.txSel, reads.minRateEn, reads.minRateMan,
    reads.minRateExp, reads.maxRateEn, reads.maxWeight, reads.maxRateMan, reads.maxRateExp,
    qtxCfgWord_hwResv, qtxCfgWord_swResv, maxFields.1, maxFields.2, minFields.1,
    minFields.2] at shown
  constructor
  · rintro ⟨maxRate_, minRate_, scheduler, weight, hwResv, -, maxEnable, minEnable, -, -⟩
    rw [shown] at maxRate_ minRate_ scheduler weight hwResv maxEnable minEnable
    simp only [update_self, reads.minRateMan, reads.minRateExp, reads.maxRateMan,
      reads.maxRateExp, maxFields.1, maxFields.2, minFields.1,
      minFields.2] at maxRate_ minRate_
    exact ⟨(field_eq_iff _ narrow.1).1 scheduler, (field_eq_iff _ narrow.2).1 weight,
      (field_eq_iff _ (by decide)).1 hwResv, maxKept.1 maxRate_, minKept.1 minRate_,
      (flag_eq_iff _).1 maxEnable, (flag_eq_iff _).1 minEnable⟩
  · rintro ⟨scheduler, weight, resv, maxRate_, minRate_, maxEnable, minEnable⟩
    refine ⟨?_, ?_, ?_, ?_, ?_, ?_, ?_, ?_, fun q other => ?_, rfl, rfl⟩
    · rw [shown]
      simpa only [update_self, reads.maxRateMan, reads.maxRateExp, maxFields.1,
        maxFields.2] using maxKept.2 maxRate_
    · rw [shown]
      simpa only [update_self, reads.minRateMan, reads.minRateExp, minFields.1,
        minFields.2] using minKept.2 minRate_
    · rw [shown]
      exact (field_eq_iff _ narrow.1).2 scheduler
    · rw [shown]
      exact (field_eq_iff _ narrow.2).2 weight
    · rw [shown]
      exact (field_eq_iff _ (by decide)).2 resv
    · rw [shown]
      exact (field_eq_iff _ (by decide)).2 resv
    · rw [shown]
      exact (flag_eq_iff _).2 maxEnable
    · rw [shown]
      exact (flag_eq_iff _).2 minEnable
    · exact ⟨update_of_ne other _ _, update_of_ne other _ _⟩

end Queue

/-! ## The schedulers -/

section Sched

variable {version : Version} {id other : Nat} {line : SchedLine} {regs regs' : Regs}

theorem schedHalf_eq (version : Version) (id : Nat) (regs : Regs) :
    schedHalf version id regs =
      place 32 0 ((regs.readTxSch version id).extractLsb' (schedShift id) 16) := by
  rw [schedHalf, show 0xffff#32 = (BitVec.allOnes 16).setWidth 32 from rfl, and_mask,
    BitVec.setWidth_ushiftRight_eq_extractLsb]

structure SchedReads (line : SchedLine) (exp man : Nat) (word : BitVec 32) : Prop where
  enable : MTK_QDMA_TX_SCH_RATE_EN.get word = if line.enable.asInt = 0 then 0 else 1
  wfq : MTK_QDMA_TX_SCH_MAX_WFQ.get word = if line.scheduling = "sp" then 0 else 1
  man : MTK_QDMA_TX_SCH_RATE_MAN.get word = (BitVec.ofInt 7 man).toNat
  exp : MTK_QDMA_TX_SCH_RATE_EXP.get word = (BitVec.ofInt 4 exp).toNat

theorem notSp_toNat (scheduling : String) :
    (if decide (scheduling ≠ "sp") = true then BitVec.ofInt 1 1 else 0#1).toNat =
      if scheduling = "sp" then 0 else 1 := by
  by_cases sp : scheduling = "sp"
  · simp [sp]
  · simp [sp]

theorem reads_schedVal (line : SchedLine) (exp man : Nat) :
    SchedReads line exp man (schedVal line exp man) := by
  constructor
  · unfold Mask.get schedVal
    simp (disch := decide) only [BitVec.extractLsb'_or, extract_orIf, extract_prep,
      extract_prep_apart, BitVec.or_zero, orIf_zero, BitVec.extractLsb'_zero]
    rw [zero_orIf]
    exact flag_toNat Nat.one_pos _
  · unfold Mask.get schedVal
    simp (disch := decide) only [BitVec.extractLsb'_or, extract_orIf, extract_prep,
      extract_prep_apart, BitVec.or_zero, orIf_zero, BitVec.extractLsb'_zero]
    rw [zero_orIf]
    exact notSp_toNat _
  · unfold Mask.get schedVal
    simp (disch := decide) only [BitVec.extractLsb'_or, extract_orIf, extract_prep,
      extract_prep_apart, BitVec.or_zero, BitVec.zero_or, orIf_zero, BitVec.extractLsb'_zero]
    rfl
  · unfold Mask.get schedVal
    simp (disch := decide) only [BitVec.extractLsb'_or, extract_orIf, extract_prep,
      extract_prep_apart, BitVec.or_zero, BitVec.zero_or, orIf_zero, BitVec.extractLsb'_zero]
    rfl

theorem schedVal_eq_place (line : SchedLine) (exp man : Nat) :
    schedVal line exp man = place 32 0 ((schedVal line exp man).extractLsb' 0 16) := by
  refine eq_place_of_high_clear _ ?_
  have high : (schedVal line exp man).extractLsb' (genmask 31 16).lo (genmask 31 16).width = 0#_ := by
    unfold schedVal
    simp (disch := decide) only [BitVec.extractLsb'_or, extract_orIf, extract_prep_apart,
      BitVec.or_zero, orIf_zero, BitVec.extractLsb'_zero]
  exact high

def putHalf (word val : BitVec 32) (shift : Nat) : BitVec 32 :=
  word &&& ~~~(place 32 shift (BitVec.allOnes 16)) ||| val <<< shift

theorem putHalf_self {shift : Nat} (fits : shift + 16 ≤ 32) (word : BitVec 32) (half : BitVec 16) :
    (putHalf word (place 32 0 half) shift).extractLsb' shift 16 = half := by
  rw [putHalf, BitVec.extractLsb'_or, extract_clear _ fits, BitVec.zero_or, place_shiftLeft,
    Nat.zero_add, extract_place _ fits]

theorem putHalf_apart {shift shift' : Nat} (apart : shift + 16 ≤ shift' ∨ shift' + 16 ≤ shift)
    (fits : shift' + 16 ≤ 32) (word : BitVec 32) (half : BitVec 16) :
    (putHalf word (place 32 0 half) shift).extractLsb' shift' 16 = word.extractLsb' shift' 16 := by
  rw [putHalf, BitVec.extractLsb'_or, extract_clear_apart _ _ apart fits, place_shiftLeft,
    Nat.zero_add, extract_place_apart _ apart, BitVec.or_zero]

theorem schedShift_fits (id : Nat) : schedShift id + 16 ≤ 32 := by
  rw [schedShift]
  split <;> omega

theorem readTxSch_writeTxSch (word : BitVec 32) :
    (regs.writeTxSch version id word).readTxSch version id = word := by
  unfold Regs.readTxSch Regs.writeTxSch
  split
  · exact update_self _ _ _
  · rfl

theorem schedHalf_write_self (line : SchedLine) (exp man : Nat) :
    schedHalf version id (regs.writeTxSch version id
      (putHalf (regs.readTxSch version id) (schedVal line exp man) (schedShift id))) =
      schedVal line exp man := by
  rw [schedHalf_eq, readTxSch_writeTxSch, schedVal_eq_place, putHalf_self (schedShift_fits id)]

theorem schedHalf_write_other (line : SchedLine) (exp man : Nat) (exists_ : id < schedulers version)
    (otherExists : other < schedulers version) (ne : other ≠ id) :
    schedHalf version other (regs.writeTxSch version id
      (putHalf (regs.readTxSch version id) (schedVal line exp man) (schedShift id))) =
      schedHalf version other regs := by
  rw [schedHalf_eq, schedHalf_eq]
  by_cases sharesWord : version = .v1_1 ∨ other / 2 = id / 2
  · have apart : schedShift id + 16 ≤ schedShift other ∨ schedShift other + 16 ≤ schedShift id := by
      unfold schedulers at exists_ otherExists
      unfold schedShift
      rcases sharesWord with first | sameWord
      · rw [if_neg (not_not.2 first)] at exists_ otherExists
        split <;> split <;> omega
      · split <;> split <;> omega
    have sameWord : ∀ regs : Regs, regs.readTxSch version other = regs.readTxSch version id := by
      intro regs
      unfold Regs.readTxSch
      split
      · rename_i later
        rw [sharesWord.resolve_left later]
      · rfl
    rw [sameWord, sameWord, readTxSch_writeTxSch, schedVal_eq_place,
      putHalf_apart apart (schedShift_fits other)]
  · push Not at sharesWord
    unfold Regs.readTxSch Regs.writeTxSch
    rw [if_pos sharesWord.1, if_pos sharesWord.1, if_pos sharesWord.1, if_pos sharesWord.1]
    dsimp only
    rw [update_of_ne sharesWord.2]

theorem Num.asInt_of_short {width : Nat} (num : Num width) (short : width ≤ 9) :
    num.asInt = num.val := by
  have wide : (10 : Int) ^ width ≤ 10 ^ 9 := pow_le_pow_right₀ (by decide) short
  have low : (10 : Int) ^ (width - 1) ≤ 10 ^ 9 := pow_le_pow_right₀ (by decide) (by omega)
  have bounds := And.intro num.low num.high
  rw [num.asInt_eq]
  exact Int.bmod_eq_of_le (by omega) (by omega)

theorem schedKept (exists_ : id < schedulers version)
    (done : qdmaSchedWrite version id line regs = some regs') :
    SchedKept version id line regs regs' := by
  have rate := line.rate.asInt_of_short le_rfl
  have enable := line.enable.asInt_of_short (by decide)
  rw [qdmaSchedWrite] at done
  dsimp only at done
  split at done
  · exact nomatch done
  rename_i inRange
  push Not at inRange
  split at done
  · exact nomatch done
  rename_i exp man found
  obtain ⟨small, low, value⟩ := qdmaRateExpManCalc_exact found
  have asked : ((man * 10 ^ exp : Nat) : Int) = line.rate.val := by
    rw [value, Int.toNat_of_nonneg inRange.2, rate]
  replace done := (Option.some.inj done).symm
  have half : schedHalf version id regs' = schedVal line exp man := by
    rw [done]
    exact schedHalf_write_self line exp man
  have reads := reads_schedVal line exp man
  have manRead := reads.man.trans (ofInt_toNat_of_lt (by omega))
  have expRead := reads.exp.trans (ofInt_toNat_of_lt (by omega))
  have queues : regs'.qtxCfg = regs.qtxCfg ∧ regs'.qtxSch = regs.qtxSch := by
    rw [done, Regs.writeTxSch]
    split <;> exact ⟨rfl, rfl⟩
  refine ⟨⟨man, exp, small, by omega, asked, by rw [half, manRead], by rw [half, expRead]⟩, ?_,
    fun other otherExists ne => ?_, queues⟩
  · rw [qdmaSchedShow, half, reads.enable, reads.wfq, manRead, expRead, enable, multiplyOut_eq,
      ← BitVec.ofNat_mul, ← asked, BitVec.ofInt_natCast]
    congr 1
    · by_cases sp : line.scheduling = "sp" <;> simp [sp]
    · unfold Regs.readSch Regs.queueAt Regs.setPage qdmaSchedShow
      rw [queues.2]
      rfl
  · rw [done]
    exact schedHalf_write_other line exp man exists_ otherExists ne

end Sched

/-! ## Accepted lines -/

/-- What is accepted for a scheduler is kept; what is accepted for a queue is kept exactly when its
numbers fit. -/
theorem accepted_kept_iff (version : Version) (id : Nat) (regs : Regs) :
    (id < schedulers version → ∀ line regs', qdmaSchedWrite version id line regs = some regs' →
      SchedKept version id line regs regs') ∧
    (id < MTK_QDMA_TX_NUM → ∀ line, (qdmaQueueWrite version id line regs).1 = true →
      (QueueKept version id line regs (qdmaQueueWrite version id line regs).2 ↔
        QueueFits version line)) :=
  ⟨fun exists_ _ _ done => schedKept exists_ done, fun exists_ _ done => queueKept_iff exists_ done⟩

def clearRegs : Regs := ⟨0#32, fun _ => 0#32, fun _ => 0#32, 0#32, fun _ => 0#32⟩

def digit (width val : Nat) (small : val < 10) (positive : 0 < width) : Num width where
  val := val
  low := by
    have sign : (0 : Int) < 10 ^ (width - 1) := by positivity
    omega
  high := by
    have room : (10 : Int) ^ 1 ≤ 10 ^ width := pow_le_pow_right₀ (by decide) positive
    omega

def gigabitLine (scheduler : Nat) (known : scheduler < 10) : QueueLine where
  scheduler := digit 10 scheduler known (by decide)
  minEnable := digit 10 0 (by decide) (by decide)
  minRate := digit 10 0 (by decide) (by decide)
  maxEnable := digit 10 1 (by decide) (by decide)
  maxRate := ⟨1000000, by decide, by decide⟩
  weight := digit 10 4 (by decide) (by decide)
  resv := digit 10 4 (by decide) (by decide)

def gigabitSched : SchedLine :=
  ⟨digit 1 1 (by decide) Nat.one_pos, "wrr", ⟨1000000, by decide, by decide⟩⟩

theorem accepted_kept_gigabit :
    ((qdmaSchedWrite .v1_1 1 gigabitSched clearRegs).isSome ∧
      ∀ regs', qdmaSchedWrite .v1_1 1 gigabitSched clearRegs = some regs' →
        SchedKept .v1_1 1 gigabitSched clearRegs regs') ∧
    QueueKept .v1_1 3 (gigabitLine 1 (by decide)) clearRegs
      (qdmaQueueWrite .v1_1 3 (gigabitLine 1 (by decide)) clearRegs).2 := by
  refine ⟨⟨by decide +kernel, (accepted_kept_iff .v1_1 1 clearRegs).1 (by decide) gigabitSched⟩, ?_⟩
  refine ((accepted_kept_iff .v1_1 3 clearRegs).2 (by decide) _ (by decide +kernel)).2 ?_
  constructor <;> decide

/-- On the first version a queue is accepted for a third scheduler, and shows the first. -/
theorem queue_of_absent_scheduler :
    ¬∀ version id line regs, id < MTK_QDMA_TX_NUM →
      (qdmaQueueWrite version id line regs).1 = true →
        QueueKept version id line regs (qdmaQueueWrite version id line regs).2 := by
  intro all
  have kept := all .v1_1 3 (gigabitLine 2 (by decide)) clearRegs (by decide) (by decide +kernel)
  have shown : ((qdmaQueueShow .v1_1 3 (qdmaQueueWrite .v1_1 3 (gigabitLine 2 (by decide))
    clearRegs).2).scheduler : Int) ≠ 2 := by decide +kernel
  exact shown kept.scheduler

end MetaFilogic.Eth.Qdma
