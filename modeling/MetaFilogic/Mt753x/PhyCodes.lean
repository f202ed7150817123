import MetaFilogic.Mt753x.PhyCal
import MetaFilogic.Library.Registers
import Mathlib.Tactic.Tauto

/-!
# The codes of the calibration

A sweep ends, and its codes stay between 0 and 63.  The table of `ge_cal_r50` begins at the code 9,
and `ge_cal_tx_amp` corrects its codes by more than they may be away from an end.
-/

namespace MetaFilogic.Mt753x

open Registers

/-- The index is within the table; the word differs from what is kept in the field only. -/
def CodeUse.Ok : CodeUse → Prop
  | .index i size => 0 ≤ i ∧ i < size
  | .field mask kept data => data &&& ~~~mask = kept &&& ~~~mask

instance : DecidablePred CodeUse.Ok
  | .index i size => inferInstanceAs (Decidable (0 ≤ i ∧ i < size))
  | .field mask kept data => inferInstanceAs (Decidable (data &&& ~~~mask = kept &&& ~~~mask))

def CodesFit (s : Phys) : Prop := ∀ u ∈ s.uses, u.Ok

def CodesSafe (program : Program Unit) (s : Phys) : Prop :=
  Leads program { s with uses := [] } (fun _ t => CodesFit t)
    fun reason t => reason = .timeOut ∧ CodesFit t

/-! ## What is answered -/

def Wait.done (answer : Wait) : Bool := polls answer.first 10000 0 || polls answer.second 10000 0

def sweepEnd {w : Nat} (polarity : BitVec w) (init : Bool) :
    Nat → BitVec w → (Nat → Wait) → Option (AnaCal × BitVec w × (Nat → Wait))
  | 0, _, _ => none
  | fuel + 1, code, waits =>
    if !(waits 0).done then none
    else if (waits 0).compOut ≠ init then some (.finish, code + polarity, later waits)
    else if code + polarity = 0x3f ∨ code + polarity = 0 then
      some (.saturation, code + polarity, later waits)
    else sweepEnd polarity init fuel (code + polarity) (later waits)

def sweepFrom {w : Nat} (polarity : Bool → BitVec w) (code : BitVec w) (waits : Nat → Wait) :
    Option (AnaCal × BitVec w × (Nat → Wait)) :=
  if (waits 0).done then
    sweepEnd (polarity (waits 0).compOut) (waits 0).compOut 64 code (later waits)
  else none

section Runs

variable {s t : Phys} {w : Nat} {α : Type}

variable {port dev addr : Nat} {data mask kept c : BitVec 32} {next : Unit → Program α}
  {post : α → Phys → Prop} {stop : Stop → Phys → Prop} {u : CodeUse}

@[simp]
theorem leads_write_bind :
    Leads (tcPhyWriteDevReg port dev addr data >>= next) s post stop ↔
      Leads (next ()) (s.write port dev addr data) post stop := Iff.rfl

@[simp]
theorem leads_read_bind {next : BitVec 32 → Program α} :
    Leads (tcPhyReadDevReg port dev addr >>= next) s post stop ↔
      Leads (next ((s.reg port dev addr).setWidth 32)) s post stop := Iff.rfl

@[simp]
theorem leads_writeCode_bind :
    Leads (writeCode port dev addr mask kept data >>= next) s post stop ↔
      Leads (next ()) ((s.write port dev addr data).use (.field mask kept data)) post stop :=
  Iff.rfl

@[simp]
theorem leads_write {post : Unit → Phys → Prop} :
    Leads (tcPhyWriteDevReg port dev addr data) s post stop ↔
      post () (s.write port dev addr data) := Iff.rfl

@[simp]
theorem leads_writeCode {post : Unit → Phys → Prop} :
    Leads (writeCode port dev addr mask kept data) s post stop ↔
      post () ((s.write port dev addr data).use (.field mask kept data)) := Iff.rfl

@[simp]
theorem leads_tableAt_bind {tbl : List (BitVec 8)} {i : Int} {next : BitVec 8 → Program α} :
    Leads (tableAt tbl i >>= next) s post stop ↔
      Leads (next (if 0 ≤ i ∧ i < tbl.length then tbl.getD i.toNat 0 else s.outside i))
        (s.use (.index i tbl.length)) post stop := Iff.rfl

def Phys.flagged (s : Phys) : Phys := { s with geCalFlag := true }

@[simp]
theorem leads_setGeCalFlag_bind :
    Leads (setGeCalFlag >>= next) s post stop ↔ Leads (next ()) s.flagged post stop := Iff.rfl

@[simp]
theorem waits_flagged : s.flagged.waits = s.waits := rfl

@[simp]
theorem codesFit_flagged : CodesFit s.flagged ↔ CodesFit s := Iff.rfl

@[simp]
theorem waits_write :
    (s.write port dev addr data).waits = s.waits := rfl

@[simp]
theorem codesFit_write :
    CodesFit (s.write port dev addr data) ↔ CodesFit s := Iff.rfl

theorem reg_write {port' dev' addr' : Nat} :
    (s.write port dev addr data).reg port' dev' addr' =
      if port' = port ∧ dev' = dev ∧ addr' = addr then data.setWidth 16
      else s.reg port' dev' addr' := rfl

theorem reg_write_self :
    (s.write port dev addr data).reg port dev addr = data.setWidth 16 := if_pos ⟨rfl, rfl, rfl⟩

theorem reg_write_other {port' dev' addr' : Nat} (other : addr' ≠ addr) :
    (s.write port dev addr data).reg port' dev' addr' = s.reg port' dev' addr' :=
  if_neg fun same => other same.2.2

@[simp]
theorem reg_use : (s.use u).reg = s.reg := rfl

@[simp]
theorem waits_use : (s.use u).waits = s.waits := rfl

@[simp]
theorem codesFit_use : CodesFit (s.use u) ↔ CodesFit s ∧ u.Ok := by
  simp only [CodesFit, Phys.use, List.forall_mem_append, List.forall_mem_singleton]

def Phys.answered (s : Phys) : Phys :=
  { s with waits := later s.waits, compOut := (s.waits 0).compOut }

@[simp]
theorem leads_nextWait_bind {next : Wait → Program α} :
    Leads (nextWait >>= next) s post stop ↔ Leads (next (s.waits 0)) s.answered post stop := Iff.rfl

theorem calWait_leads (s : Phys) :
    Leads calWait s
      (fun compOut t => (s.waits 0).done = true ∧ compOut = (s.waits 0).compOut ∧
        t.waits = later s.waits ∧ (CodesFit t ↔ CodesFit s))
      (fun reason t => reason = .timeOut ∧ (s.waits 0).done = false ∧
        (CodesFit t ↔ CodesFit s)) := by
  rw [calWait, Leads.bind_iff, allGeAnaCalWait, Wait.done]
  simp only [leads_write_bind, leads_nextWait_bind]
  split
  · rename_i first
    exact ⟨Bool.or_eq_true_iff.mpr (.inl first), rfl, rfl, Iff.rfl⟩
  · rename_i first
    have first : polls (s.waits 0).first 10000 0 = false := Bool.not_eq_true _ |>.mp first
    rw [first, Bool.false_or]
    show Leads (if polls (s.waits 0).second 10000 0 then adCalCompOut else throw .timeOut) _ _ _
    split
    · rename_i second
      exact ⟨second, rfl, rfl, Iff.rfl⟩
    · rename_i second
      exact ⟨rfl, Bool.not_eq_true _ |>.mp second, Iff.rfl⟩

theorem one_toNat (wide : 128 ≤ 2 ^ w) : (1 : BitVec w).toNat = 1 := by
  show 1 % 2 ^ w = 1
  exact Nat.mod_eq_of_lt (by omega)

theorem toNat_add_one {code : BitVec w} (wide : 128 ≤ 2 ^ w) (below : code.toNat < 0x3f) :
    (code + 1).toNat = code.toNat + 1 := by
  rw [BitVec.toNat_add, one_toNat wide]
  exact Nat.mod_eq_of_lt (by omega)

theorem toNat_add_neg_one {code : BitVec w} (wide : 128 ≤ 2 ^ w) (above : 0 < code.toNat) :
    (code + -1).toNat = code.toNat - 1 := by
  rw [BitVec.toNat_add, BitVec.toNat_neg, one_toNat wide,
    Nat.mod_eq_of_lt (show 2 ^ w - 1 < 2 ^ w by omega),
    show code.toNat + (2 ^ w - 1) = code.toNat - 1 + 2 ^ w by omega, Nat.add_mod_right]
  exact Nat.mod_eq_of_lt (by omega)

def Room (polarity code : BitVec w) (fuel : Nat) : Prop :=
  polarity = 1 ∧ code.toNat < 0x3f ∧ 0x3f < code.toNat + fuel ∨
    polarity = -1 ∧ 0 < code.toNat ∧ code.toNat ≤ 0x3f ∧ code.toNat < fuel

theorem Room.step {polarity code : BitVec w} {fuel : Nat} (wide : 128 ≤ 2 ^ w)
    (room : Room polarity code (fuel + 1)) :
    (code + polarity).toNat ≤ 0x3f ∧
      (code + polarity = 0x3f ∨ code + polarity = 0 ∨ Room polarity (code + polarity) fuel) := by
  have whole : ∀ n, n ≤ 0x3f → (code + polarity).toNat = n →
      code + polarity = BitVec.ofNat w n := by
    intro n small same
    refine BitVec.eq_of_toNat_eq ?_
    rw [same, BitVec.toNat_ofNat, Nat.mod_eq_of_lt (by omega)]
  obtain ⟨rfl, below, enough⟩ | ⟨rfl, above, within, enough⟩ := room
  · have next := toNat_add_one wide below
    refine ⟨by omega, ?_⟩
    by_cases last : code.toNat + 1 = 0x3f
    · exact .inl (whole 0x3f (by omega) (next.trans last))
    · exact .inr (.inr (.inl ⟨rfl, by omega, by omega⟩))
  · have next := toNat_add_neg_one wide above
    refine ⟨by omega, ?_⟩
    by_cases last : code.toNat - 1 = 0
    · exact .inr (.inl (whole 0 (by omega) (next.trans last)))
    · exact .inr (.inr (.inr ⟨rfl, by omega, by omega, by omega⟩))

/-- A program that uses codes as it should, whatever they are within 6 bits. -/
def PutsFit (put : BitVec w → Program Unit) : Prop :=
  ∀ code s, code.toNat ≤ 0x3f →
    Leads (put code) s (fun _ t => t.waits = s.waits ∧ (CodesFit t ↔ CodesFit s))
      fun _ _ => False

theorem sweepLoop_leads {put : BitVec w → Program Unit} (puts : PutsFit put)
    (wide : 128 ≤ 2 ^ w) {polarity : BitVec w} (init : Bool) (fuel : Nat) (code : BitVec w)
    (s : Phys) (room : Room polarity code fuel) :
    Leads (sweepLoop put polarity init fuel code) s
      (fun result t =>
        sweepEnd polarity init fuel code s.waits = some (result.1, result.2, t.waits) ∧
          result.1 ≠ .error ∧ result.2.toNat ≤ 0x3f ∧ (CodesFit t ↔ CodesFit s))
      (fun reason t => reason = .timeOut ∧ sweepEnd polarity init fuel code s.waits = none ∧
        (CodesFit t ↔ CodesFit s)) := by
  induction fuel generalizing code s with
  | zero =>
    rcases room with ⟨-, below, enough⟩ | ⟨-, -, -, enough⟩
    · omega
    · omega
  | succ fuel ih =>
    obtain ⟨small, moves⟩ := room.step wide
    rw [sweepLoop, sweepEnd]
    refine Leads.bind ((puts _ s small).mono (fun _ _ holds => holds) fun _ _ never => never.elim)
      fun _ t₁ ⟨waits₁, fit₁⟩ => ?_
    refine Leads.bind ((calWait_leads t₁).mono (fun _ _ holds => holds) ?_)
      fun compOut t₂ ⟨done, seen, waits₂, fit₂⟩ => ?_
    · rintro reason t ⟨rfl, timeOut, fit⟩
      rw [waits₁] at timeOut
      rw [timeOut]
      exact ⟨rfl, rfl, fit.trans fit₁⟩
    · rw [waits₁] at done seen waits₂
      rw [done, seen]
      simp only [Bool.not_true, Bool.false_eq_true, if_false]
      by_cases crossed : (s.waits 0).compOut ≠ init
      · rw [if_pos crossed, if_pos crossed]
        exact ⟨by rw [waits₂], nofun, small, fit₂.trans fit₁⟩
      · rw [if_neg crossed, if_neg crossed]
        by_cases atEnd : code + polarity = 0x3f ∨ code + polarity = 0
        · rw [if_pos atEnd, if_pos atEnd]
          exact ⟨by rw [waits₂], nofun, small, fit₂.trans fit₁⟩
        · rw [if_neg atEnd, if_neg atEnd, ← waits₂]
          have further := (moves.resolve_left fun up => atEnd (.inl up)).resolve_left fun down =>
            atEnd (.inr down)
          refine (ih _ t₂ further).mono ?_ ?_
          · rintro result t ⟨ends, noError, small', fit⟩
            exact ⟨ends, noError, small', fit.trans (fit₂.trans fit₁)⟩
          · rintro reason t ⟨rfl, ends, fit⟩
            exact ⟨rfl, ends, fit.trans (fit₂.trans fit₁)⟩

theorem sweep_leads {put : BitVec w → Program Unit} (puts : PutsFit put) (wide : 128 ≤ 2 ^ w)
    {polarity : Bool → BitVec w} {code : BitVec w} (s : Phys)
    (room : ∀ init, Room (polarity init) code 64) :
    Leads (sweep put polarity code) s
      (fun result t => sweepFrom polarity code s.waits = some (result.1, result.2, t.waits) ∧
        result.1 ≠ .error ∧ result.2.toNat ≤ 0x3f ∧ (CodesFit t ↔ CodesFit s))
      (fun reason t => reason = .timeOut ∧ sweepFrom polarity code s.waits = none ∧
        (CodesFit t ↔ CodesFit s)) := by
  rw [sweep, sweepFrom]
  refine Leads.bind ((calWait_leads s).mono (fun _ _ holds => holds) ?_)
    fun init t₁ ⟨done, seen, waits₁, fit₁⟩ => ?_
  · rintro reason t ⟨rfl, timeOut, fit⟩
    rw [timeOut]
    exact ⟨rfl, rfl, fit⟩
  · rw [done, if_pos rfl, ← seen, ← waits₁]
    refine (sweepLoop_leads puts wide init 64 code t₁ (room init)).mono ?_ ?_
    · rintro result t ⟨ends, noError, small, fit⟩
      exact ⟨ends, noError, small, fit.trans fit₁⟩
    · rintro reason t ⟨rfl, ends, fit⟩
      exact ⟨rfl, ends, fit.trans fit₁⟩

theorem sweep_bind {put : BitVec w → Program Unit} (puts : PutsFit put) (wide : 128 ≤ 2 ^ w)
    {polarity : Bool → BitVec w} {code : BitVec w} (room : ∀ init, Room (polarity init) code 64)
    {next : AnaCal × BitVec w → Program α}
    (stopped : ∀ t, sweepFrom polarity code s.waits = none → (CodesFit t ↔ CodesFit s) →
      stop .timeOut t)
    (ended : ∀ status found t, sweepFrom polarity code s.waits = some (status, found, t.waits) →
      status ≠ .error → found.toNat ≤ 0x3f → (CodesFit t ↔ CodesFit s) →
      Leads (next (status, found)) t post stop) :
    Leads (sweep put polarity code >>= next) s post stop := by
  refine Leads.bind ((sweep_leads puts wide s room).mono (fun _ _ holds => holds) ?_)
    fun result t ⟨swept, noError, small, fit⟩ => ended _ _ t swept noError small fit
  rintro reason t ⟨rfl, swept, fit⟩
  exact stopped t swept fit

/-! ## The fields -/

theorem within_of_small (small : c.toNat ≤ 0x3f) : c &&& ~~~0x3f#32 = 0#32 := by
  have all : ∀ n < 64, BitVec.ofNat 32 n &&& ~~~0x3f#32 = 0#32 := by decide
  have same : BitVec.ofNat 32 c.toNat = c := by rw [BitVec.ofNat_toNat, BitVec.setWidth_eq]
  rw [← same]
  exact all _ (by omega)

theorem toNat_setWidth_small {c : BitVec 8} (small : c.toNat ≤ 0x3f) :
    (c.setWidth 32).toNat ≤ 0x3f := by
  rw [BitVec.toNat_setWidth]
  exact Nat.le_trans (Nat.mod_le ..) small

theorem shift_within (within : c &&& ~~~mask = 0#32) (k : Nat) :
    c <<< k &&& ~~~(mask <<< k) = 0#32 := by
  refine BitVec.eq_of_getLsbD_eq fun i inside => ?_
  have bit := congrArg (BitVec.getLsbD · (i - k)) within
  simp only [BitVec.getLsbD_and, BitVec.getLsbD_not, BitVec.getLsbD_shiftLeft,
    BitVec.getLsbD_zero] at bit ⊢
  by_cases low : i < k
  · simp [low]
  · have below : i - k < 32 := by omega
    simp only [below, decide_true, Bool.true_and] at bit
    simp only [inside, low, decide_true, decide_false, Bool.not_false, Bool.true_and]
    exact bit

theorem ok_or (within : c &&& ~~~mask = 0#32) : (CodeUse.field mask kept (kept ||| c)).Ok :=
  or_and_of_apart within

theorem ok_alone (within : c &&& ~~~mask = 0#32) : (CodeUse.field mask 0 c).Ok := by
  show c &&& ~~~mask = 0#32 &&& ~~~mask
  rw [within, BitVec.zero_and]

theorem ok_both (within : c &&& ~~~mask = 0#32) (k : Nat) :
    (CodeUse.field (bothFields k mask mask) 0 (bothFields k c c)).Ok := by
  have high := shift_within within k
  refine ok_alone (BitVec.eq_of_getLsbD_eq fun i inside => ?_)
  have bit := congrArg (BitVec.getLsbD · i) within
  have bit' := congrArg (BitVec.getLsbD · i) high
  simp only [bothFields, BitVec.getLsbD_and, BitVec.getLsbD_not, BitVec.getLsbD_or, inside,
    decide_true, Bool.true_and, BitVec.getLsbD_zero] at bit bit' ⊢
  revert bit bit'
  cases c.getLsbD i <;> cases (c <<< k).getLsbD i <;> cases mask.getLsbD i <;>
    cases (mask <<< k).getLsbD i <;> simp

/-- The code for `1e_174` and `1e_175`, with its bit that enables it. -/
theorem ok_enabled (old c : BitVec 32) (k : Nat) :
    (CodeUse.field (0x7f#32 <<< k) (old ||| 0x80#32 <<< k)
      (old ||| (c <<< k &&& 0xff#32 <<< k ||| 0x80#32 <<< k))).Ok := by
  have parts : (0xff#32 <<< k) = 0x7f#32 <<< k ||| 0x80#32 <<< k := by
    rw [← BitVec.shiftLeft_or_distrib]
    rfl
  rw [CodeUse.Ok, parts]
  refine BitVec.eq_of_getLsbD_eq fun i inside => ?_
  simp only [BitVec.getLsbD_and, BitVec.getLsbD_not, BitVec.getLsbD_or]
  cases old.getLsbD i <;> cases (c <<< k).getLsbD i <;> cases (0x7f#32 <<< k).getLsbD i <;>
    cases (0x80#32 <<< k).getLsbD i <;> simp

end Runs

/-! ## The pairs -/

section Pairs

variable {s : Phys} {w : Nat} {polarity : Bool → BitVec w} {code : BitVec w}
  {fits : Pair → AnaCal → BitVec w → Prop} {body : Pair → Program Unit}

def PairsFit (polarity : Bool → BitVec w) (code : BitVec w)
    (fits : Pair → AnaCal → BitVec w → Prop) : List Pair → (Nat → Wait) → Prop
  | [], _ => True
  | pair :: pairs, waits =>
    match sweepFrom polarity code waits with
    | none => True
    | some (status, found, rest) =>
      fits pair status found ∧ PairsFit polarity code fits pairs rest

def pairsEnd (polarity : Bool → BitVec w) (code : BitVec w) :
    List Pair → (Nat → Wait) → Option (Nat → Wait)
  | [], waits => some waits
  | _ :: pairs, waits =>
    match sweepFrom polarity code waits with
    | none => none
    | some (_, _, rest) => pairsEnd polarity code pairs rest

/-- A pair is calibrated by one sweep, and its codes fit under this condition. -/
def PairRuns (polarity : Bool → BitVec w) (code : BitVec w)
    (fits : Pair → AnaCal → BitVec w → Prop) (body : Pair → Program Unit) : Prop :=
  ∀ pair s, Leads (body pair) s
    (fun _ t => ∃ status found, sweepFrom polarity code s.waits = some (status, found, t.waits) ∧
      (CodesFit t ↔ CodesFit s ∧ fits pair status found))
    (fun reason t => reason = .timeOut ∧ sweepFrom polarity code s.waits = none ∧
      (CodesFit t ↔ CodesFit s))

theorem forM_leads (runs : PairRuns polarity code fits body) (pairs : List Pair) (s : Phys) :
    Leads (pairs.forM body) s
      (fun _ t => pairsEnd polarity code pairs s.waits = some t.waits ∧
        (CodesFit t ↔ CodesFit s ∧ PairsFit polarity code fits pairs s.waits))
      (fun reason t => reason = .timeOut ∧ pairsEnd polarity code pairs s.waits = none ∧
        (CodesFit t ↔ CodesFit s ∧ PairsFit polarity code fits pairs s.waits)) := by
  induction pairs generalizing s with
  | nil => exact ⟨rfl, by simp [PairsFit]⟩
  | cons pair pairs ih =>
    refine Leads.bind ((runs pair s).mono (fun _ _ holds => holds) ?_)
      fun _ t₁ ⟨status, found, swept, fit₁⟩ => ?_
    · rintro reason t ⟨rfl, swept, fit⟩
      rw [pairsEnd, PairsFit, swept]
      exact ⟨rfl, rfl, by rwa [and_true]⟩
    · rw [pairsEnd, PairsFit, swept]
      refine (ih t₁).mono ?_ ?_
      · rintro _ t ⟨ends, fit⟩
        exact ⟨ends, fit.trans ((and_congr_left' fit₁).trans and_assoc)⟩
      · rintro reason t ⟨rfl, ends, fit⟩
        exact ⟨rfl, ends, fit.trans ((and_congr_left' fit₁).trans and_assoc)⟩

end Pairs

/-! ## The functions -/

section Functions

variable (phyaddr : Nat) (s : Phys)

theorem room_down {w : Nat} (wide : 128 ≤ 2 ^ w) (init : Bool) :
    Room (downWhenSet init) (zeroDb : BitVec w) 64 := by
  have middle : (zeroDb : BitVec w).toNat = 0x20 := by
    show 0x20 % 2 ^ w = 0x20
    exact Nat.mod_eq_of_lt (by omega)
  rw [Room, middle]
  cases init with
  | true => exact .inr ⟨rfl, by omega, by omega, by omega⟩
  | false => exact .inl ⟨rfl, by omega, by omega⟩

theorem room_up (init : Bool) : Room (upWhenSet init) (31 : BitVec 8) 64 := by
  cases init with
  | true => exact .inl ⟨rfl, by decide, by decide⟩
  | false => exact .inr ⟨rfl, by decide, by decide, by decide⟩

/-- `ge_cal_rext` is one sweep, and its codes fit. -/
theorem geCalRext_leads :
    Leads (geCalRext phyaddr) s
      (fun _ t => (∃ status found,
          sweepFrom downWhenSet (zeroDb : BitVec 8) s.waits = some (status, found, t.waits)) ∧
        (CodesFit t ↔ CodesFit s))
      (fun reason t => reason = .timeOut ∧
        sweepFrom downWhenSet (zeroDb : BitVec 8) s.waits = none ∧ (CodesFit t ↔ CodesFit s)) := by
  have puts : PutsFit fun code : BitVec 8 => writeCode PHY0 0x1e 0xe0 0x3f 0 (code.setWidth 32) := by
    intro code s small
    have ok := ok_alone (within_of_small (toNat_setWidth_small small))
    exact ⟨rfl, codesFit_use.trans (and_iff_left ok)⟩
  have first : (CodeUse.field 0x3f 0 0x20).Ok := by decide
  rw [geCalRext]
  simp only [leads_write_bind, leads_read_bind, leads_writeCode_bind]
  refine sweep_bind puts (by decide) (room_down (by decide)) (fun t swept fit => ?_)
    fun status found t swept noError small fit => ?_
  · exact ⟨rfl, swept, fit.trans (codesFit_use.trans (and_iff_left first))⟩
  · have fit : CodesFit t ↔ CodesFit s := fit.trans (codesFit_use.trans (and_iff_left first))
    cases status with
    | error => exact absurd rfl noError
    | saturation => exact ⟨⟨_, _, swept⟩, fit⟩
    | finish =>
      have both : (CodeUse.field 0x3f3f 0
          (found.setWidth 32 <<< 8 ||| found.setWidth 32)).Ok := by
        rw [BitVec.or_comm]
        exact ok_both (within_of_small (toNat_setWidth_small small)) 8
      have upper : ∀ n < 64, (CodeUse.field 0x7 0 ((BitVec.ofNat 32 n &&& 0x3f) >>> 3)).Ok := by
        decide
      have upper := upper (found.setWidth 32).toNat (Nat.lt_succ_of_le (toNat_setWidth_small small))
      rw [BitVec.ofNat_toNat, BitVec.setWidth_eq] at upper
      simp only [leads_write_bind, leads_writeCode_bind, leads_setGeCalFlag_bind,
        leads_write, waits_write, waits_use, waits_flagged, codesFit_write, codesFit_use,
        codesFit_flagged]
      exact ⟨⟨_, _, swept⟩, (and_iff_left upper).trans ((and_iff_left both).trans fit)⟩

theorem geCalR50Pair_runs :
    PairRuns downWhenSet (zeroDb : BitVec 8) (fun _ _ found => 9 ≤ found.toNat)
      (geCalR50Pair phyaddr) := by
  intro pair s
  have puts : ∀ r5 : BitVec 32, PutsFit fun code : BitVec 8 =>
      writeCode PHY0 0x1e 0xe0 0x3f r5 (r5 ||| code.setWidth 32) := by
    intro r5 code s small
    exact ⟨rfl, codesFit_use.trans
      (and_iff_left (ok_or (within_of_small (toNat_setWidth_small small))))⟩
  rw [geCalR50Pair]
  simp only [leads_write_bind, leads_read_bind, leads_writeCode_bind]
  generalize (s.reg PHY0 0x1e 0xe0).setWidth 32 &&& ~~~0x3f#32 = r5
  have first : (CodeUse.field 0x3f r5 (r5 ||| 0x20)).Ok := ok_or (by decide)
  refine sweep_bind (puts r5) (by decide) (room_down (by decide)) (fun t swept fit => ?_)
    fun status found t swept noError small fit => ?_
  · exact ⟨rfl, swept, fit.trans (codesFit_use.trans (and_iff_left first))⟩
  · have fit : CodesFit t ↔ CodesFit s := fit.trans (codesFit_use.trans (and_iff_left first))
    have index : (CodeUse.index ((found.toNat : Int) - 9)
        MT753x_ZCAL_TO_R50ohm_GE_TBL_100.length).Ok ↔ 9 ≤ found.toNat := by
      show (0 ≤ (found.toNat : Int) - 9 ∧ (found.toNat : Int) - 9 < (64 : Nat)) ↔ _
      omega
    cases status with
    | error => exact absurd rfl noError
    | saturation =>
      simp only [leads_tableAt_bind, leads_read_bind, leads_writeCode]
      exact ⟨_, _, swept, codesFit_use.trans ((and_iff_left (ok_enabled ..)).trans
        (codesFit_use.trans (and_congr fit index)))⟩
    | finish =>
      simp only [leads_tableAt_bind, leads_read_bind, leads_writeCode]
      exact ⟨_, _, swept, codesFit_use.trans ((and_iff_left (ok_enabled ..)).trans
        (codesFit_use.trans (and_congr fit index)))⟩

theorem geCalTxOffsetPair_runs :
    PairRuns upWhenSet (31 : BitVec 8) (fun _ _ _ => True) (geCalTxOffsetPair phyaddr) := by
  intro pair s
  have entry : ∀ n < 64, ((MT753x_TX_OFFSET_TBL.getD n 0).setWidth 32) &&& ~~~0x3f#32 = 0#32 := by
    decide
  have index : ∀ {n : Nat}, n < 64 → (CodeUse.index n MT753x_TX_OFFSET_TBL.length).Ok := fun lt =>
    ⟨Int.natCast_nonneg _, Int.ofNat_lt.mpr lt⟩
  have value : ∀ {n : Nat} (s : Phys), n < 64 →
      (if 0 ≤ (n : Int) ∧ (n : Int) < (MT753x_TX_OFFSET_TBL.length : Nat) then
        MT753x_TX_OFFSET_TBL.getD (n : Int).toNat 0 else s.outside n) =
      MT753x_TX_OFFSET_TBL.getD n 0 := fun s lt => if_pos (index lt)
  have puts : ∀ reg shift regTemp, PutsFit (putTxOffset phyaddr reg shift regTemp) := by
    intro reg shift regTemp code s small
    have inside : code.toNat < 64 := Nat.lt_succ_of_le small
    have ok := @ok_or _ regTemp _ (shift_within (entry code.toNat inside) shift)
    rw [putTxOffset, leads_tableAt_bind, value s inside]
    exact ⟨rfl, codesFit_use.trans ((and_iff_left ok).trans
      (codesFit_use.trans (and_iff_left (index inside))))⟩
  rw [geCalTxOffsetPair]
  simp only [leads_tableAt_bind, enablePair, bind_assoc, leads_write_bind, leads_read_bind,
    leads_writeCode_bind]
  generalize BitVec.setWidth 32 _ &&& ~~~(0x3f#32 <<< pair.txOffset.2) = regTemp
  have middle := @ok_or _ regTemp _ (shift_within (entry 31 (by omega)) pair.txOffset.2)
  have ready : ∀ {t : Prop}, (t ↔ ((CodesFit s ∧
      (CodeUse.index 31 MT753x_TX_OFFSET_TBL.length).Ok) ∧ (CodeUse.field _ _ _).Ok)) →
      (t ↔ CodesFit s) := fun fit =>
    fit.trans ((and_iff_left middle).trans (and_iff_left ⟨by decide, by decide⟩))
  refine sweep_bind (puts _ _ _) (by decide) room_up (fun t swept fit => ?_)
    fun status found t swept noError small fit => ?_
  · simp only [codesFit_use, codesFit_write] at fit
    exact ⟨rfl, swept, ready fit⟩
  · simp only [codesFit_use, codesFit_write] at fit
    have printed := index (n := found.toNat) (Nat.lt_succ_of_le small)
    cases status with
    | error => exact absurd rfl noError
    | saturation =>
      exact ⟨_, _, swept, codesFit_use.trans ((and_iff_left printed).trans
        ((ready fit).trans (Iff.of_eq (and_true _).symm)))⟩
    | finish =>
      exact ⟨_, _, swept, codesFit_use.trans ((and_iff_left printed).trans
        ((ready fit).trans (Iff.of_eq (and_true _).symm)))⟩

/-! ### The amplitude -/

def txAmpMost (phyaddr : Nat) (pair : Pair) : Nat :=
  max ((txAmpMore phyaddr pair).getD 0).toNat ((txAmpMore100 phyaddr pair).getD 0).toNat

/-- A code that the corrections leave within 6 bits. -/
def AmpFits (phyaddr : Nat) (pair : Pair) (found : Nat) : Prop :=
  (txAmpLess phyaddr pair).toNat + 8 ≤ found ∧
    found + txAmpMost phyaddr pair ≤ 0x3f + (txAmpLess phyaddr pair).toNat

instance (phyaddr : Nat) (pair : Pair) (found : Nat) : Decidable (AmpFits phyaddr pair found) :=
  inferInstanceAs (Decidable (_ ∧ _))

def LowerFits (pair : Pair) (word word100 : BitVec 32) : Prop :=
  let shift := pair.txAmp.2.2
  let tmp := ((word &&& 0x3f#32 <<< shift) >>> shift) - 8
  let backup := word &&& ~~~(0x3f#32 <<< shift)
  (match pair with
    | .a | .b => CodeUse.field (ampMask shift) 0 (tmp <<< shift ||| tmp)
    | .c | .d => CodeUse.field (0x3f#32 <<< shift) backup (backup ||| tmp <<< shift)).Ok ∧
  (CodeUse.field 0x3f (word100 &&& ~~~0x3f#32)
    (word100 &&& ~~~0x3f#32 ||| ((word100 &&& 0x3f) - 8))).Ok

instance (pair : Pair) (word word100 : BitVec 32) : Decidable (LowerFits pair word word100) :=
  inferInstanceAs (Decidable (_ ∧ _))

theorem lowerAmp_leads (pair : Pair) :
    Leads (lowerAmp phyaddr pair) s
      (fun _ t => t.waits = s.waits ∧ (CodesFit t ↔ CodesFit s ∧
        LowerFits pair ((s.reg phyaddr 0x1e pair.txAmp.1).setWidth 32)
          ((s.reg phyaddr 0x1e pair.txAmp.2.1).setWidth 32)))
      fun _ _ => False := by
  cases pair
  all_goals
    simp only [lowerAmp, Pair.txAmp, leads_read_bind, leads_writeCode_bind, leads_writeCode,
      reg_use]
    rw [reg_write_other (by decide)]
    exact ⟨rfl, codesFit_use.trans ((and_congr_left' codesFit_use).trans and_assoc)⟩

/-- The last words for the two registers in front of `lowerAmp`. -/
def ampWord (phyaddr : Nat) (pair : Pair) (temp : BitVec 32) : BitVec 32 :=
  let word := bothFields pair.txAmp.2.2 temp temp
  match txAmpMore phyaddr pair with
  | none => word
  | some more => word + more

def ampWord100 (phyaddr : Nat) (pair : Pair) (temp : BitVec 32) : BitVec 32 :=
  match txAmpMore100 phyaddr pair with
  | none => bothFields pair.txAmp.2.2 temp temp
  | some more => bothFields pair.txAmp.2.2 temp (temp + more)

def FinishFits (phyaddr : Nat) (pair : Pair) (temp : BitVec 32) : Prop :=
  let mask := ampMask pair.txAmp.2.2
  (CodeUse.field mask 0 (bothFields pair.txAmp.2.2 temp temp)).Ok ∧
    (CodeUse.field mask 0 (ampWord phyaddr pair temp)).Ok ∧
    (CodeUse.field mask 0 (ampWord100 phyaddr pair temp)).Ok ∧
    LowerFits pair (((ampWord phyaddr pair temp).setWidth 16).setWidth 32)
      (((ampWord100 phyaddr pair temp).setWidth 16).setWidth 32)

instance (phyaddr : Nat) (pair : Pair) (temp : BitVec 32) :
    Decidable (FinishFits phyaddr pair temp) :=
  inferInstanceAs (Decidable (_ ∧ _))

theorem finishAmp_leads (pair : Pair) (temp : BitVec 32) :
    Leads (finishAmp phyaddr pair temp) s
      (fun _ t => t.waits = s.waits ∧
        (CodesFit t ↔ CodesFit s ∧ FinishFits phyaddr pair (temp - txAmpLess phyaddr pair)))
      fun _ _ => False := by
  have apart : pair.txAmp.1 ≠ pair.txAmp.2.1 := by cases pair <;> decide
  rw [finishAmp]
  generalize temp - txAmpLess phyaddr pair = temp
  simp only [leads_writeCode_bind]
  rw [FinishFits, ampWord, ampWord100]
  generalize bothFields pair.txAmp.2.2 temp temp = word
  cases txAmpMore phyaddr pair
  all_goals
    cases txAmpMore100 phyaddr pair
    all_goals
      simp only [leads_writeCode_bind]
      refine (lowerAmp_leads phyaddr _ pair).mono (fun _ t ⟨waits, fit⟩ => ⟨waits, fit.trans ?_⟩)
        fun _ _ never => never
      simp only [codesFit_use, codesFit_write, reg_use, reg_write_self, reg_write_other apart,
        reg_write_other apart.symm]
      tauto

/-- A word for an `AmpFits` code: the corrections are few enough to try all of them. -/
theorem finishFits_iff (pair : Pair) {temp : BitVec 32} (small : temp.toNat ≤ 0x3f) :
    FinishFits phyaddr pair (temp - txAmpLess phyaddr pair) ↔ AmpFits phyaddr pair temp.toNat := by
  have all : ∀ phyaddr < 6, ∀ n < 64,
      FinishFits phyaddr pair (BitVec.ofNat 32 n - txAmpLess phyaddr pair) ↔
        AmpFits phyaddr pair n := by
    cases pair
    all_goals decide +kernel
  have same : BitVec.ofNat 32 temp.toNat = temp := by rw [BitVec.ofNat_toNat, BitVec.setWidth_eq]
  have one := fun phyaddr lt => all phyaddr lt temp.toNat (Nat.lt_succ_of_le small)
  rw [same] at one
  by_cases known : phyaddr < 6
  · exact one phyaddr known
  · have other := one 5 (by decide)
    obtain ⟨n, rfl⟩ : ∃ n, phyaddr = n + 6 := ⟨phyaddr - 6, by omega⟩
    cases pair <;> exact other

theorem geCalTxAmpPair_runs :
    PairRuns downWhenSet (zeroDb : BitVec 32)
      (fun pair status found => status = .finish → AmpFits phyaddr pair found.toNat)
      (geCalTxAmpPair phyaddr) := by
  intro pair s
  have puts : ∀ reg reg100 shift, PutsFit (putTxAmp phyaddr reg reg100 shift) := by
    intro reg reg100 shift code s small
    have ok : (CodeUse.field (ampMask shift) 0 (bothFields shift code code)).Ok :=
      ok_both (within_of_small small) shift
    exact ⟨rfl, codesFit_use.trans ((and_iff_left ok).trans
      (codesFit_use.trans (and_iff_left ok)))⟩
  rw [geCalTxAmpPair]
  simp only [enablePair, bind_assoc, leads_write_bind, leads_read_bind]
  refine Leads.bind ((puts _ _ _ 0x20 _ (by decide)).mono (fun _ _ holds => holds)
    fun _ _ never => never.elim) fun _ t₁ ⟨waits₁, fit₁⟩ => ?_
  simp only [waits_write] at waits₁
  simp only [codesFit_write] at fit₁
  refine sweep_bind (puts _ _ _) (by decide) (room_down (by decide)) (fun t swept fit => ?_)
    fun status found t swept noError small fit => ?_
  · exact ⟨rfl, waits₁ ▸ swept, fit.trans fit₁⟩
  · rw [waits₁] at swept
    cases status with
    | error => exact absurd rfl noError
    | saturation =>
      exact ⟨_, _, swept, (fit.trans fit₁).trans (and_iff_left (nomatch ·)).symm⟩
    | finish =>
      refine (finishAmp_leads phyaddr t pair found).mono (fun _ t₂ ⟨waits₂, fit₂⟩ => ?_)
        fun _ _ never => never.elim
      rw [← waits₂] at swept
      refine ⟨_, _, swept, fit₂.trans ?_⟩
      rw [finishFits_iff phyaddr pair small, fit, fit₁]
      simp

end Functions

/-! ## The sweeps of the four functions -/

/-- The codes that `ge_cal_r50` finds are all in its table. -/
def R50Fits (waits : Nat → Wait) : Prop :=
  PairsFit downWhenSet (zeroDb : BitVec 8) (fun _ _ found => 9 ≤ found.toNat) Pair.all waits

/-- The codes that `ge_cal_tx_amp` finds are all far enough from their ends for its corrections. -/
def TxAmpFits (phyaddr : Nat) (waits : Nat → Wait) : Prop :=
  PairsFit downWhenSet (zeroDb : BitVec 32)
    (fun pair status found => status = .finish → AmpFits phyaddr pair found.toNat) Pair.all waits

section Safety

variable (phyaddr : Nat) (s : Phys)

theorem pairsFit_of_true {w : Nat} {polarity : Bool → BitVec w} {code : BitVec w}
    (pairs : List Pair) (waits : Nat → Wait) :
    PairsFit polarity code (fun _ _ _ => True) pairs waits := by
  induction pairs generalizing waits with
  | nil => trivial
  | cons pair pairs ih =>
    rw [PairsFit]
    split
    · trivial
    · exact ⟨trivial, ih _⟩

theorem forM_write_leads {ι : Type} (items : List ι) (port dev addr : ι → Nat)
    (data : ι → BitVec 32) :
    Leads (items.forM fun i => tcPhyWriteDevReg (port i) (dev i) (addr i) (data i)) s
      (fun _ t => t.waits = s.waits ∧ (CodesFit t ↔ CodesFit s)) fun _ _ => False := by
  induction items generalizing s with
  | nil => exact ⟨rfl, Iff.rfl⟩
  | cons item items ih => exact ih (s.write (port item) (dev item) (addr item) (data item))

theorem clearCalen_leads : Leads clearCalen s
    (fun _ t => t.waits = s.waits ∧ (CodesFit t ↔ CodesFit s)) fun _ _ => False :=
  forM_write_leads s [0, 1, 2, 3, 4] (fun i => i) (fun _ => 0x1e) (fun _ => 0xdd) fun _ => 0x0000

theorem disableTxCal_leads : Leads (disableTxCal phyaddr) s
    (fun _ t => t.waits = s.waits ∧ (CodesFit t ↔ CodesFit s)) fun _ _ => False := by
  rw [disableTxCal]
  refine Leads.bind (forM_write_leads s _ (fun _ => phyaddr) (fun _ => 0x1e) (fun addr => addr)
    fun _ => 0x0000) fun _ t holds => ?_
  simp only [leads_write_bind, leads_write, waits_write, codesFit_write]
  exact holds

theorem geCalR50_leads :
    Leads (geCalR50 phyaddr) s
      (fun _ t => pairsEnd downWhenSet (zeroDb : BitVec 8) Pair.all s.waits = some t.waits ∧
        (CodesFit t ↔ CodesFit s ∧ R50Fits s.waits))
      (fun reason t => reason = .timeOut ∧
        pairsEnd downWhenSet (zeroDb : BitVec 8) Pair.all s.waits = none ∧
        (CodesFit t ↔ CodesFit s ∧ R50Fits s.waits)) := by
  rw [geCalR50]
  simp only [leads_write_bind]
  exact Leads.bind (forM_leads (geCalR50Pair_runs phyaddr) Pair.all _)
    fun _ t₁ ⟨ends, fit⟩ => ⟨ends, fit⟩

theorem geCalTxOffset_leads :
    Leads (geCalTxOffset phyaddr) s
      (fun _ t => pairsEnd upWhenSet (31 : BitVec 8) Pair.all s.waits = some t.waits ∧
        (CodesFit t ↔ CodesFit s))
      (fun reason t => reason = .timeOut ∧
        pairsEnd upWhenSet (31 : BitVec 8) Pair.all s.waits = none ∧
        (CodesFit t ↔ CodesFit s)) := by
  rw [geCalTxOffset]
  simp only [leads_write_bind]
  refine Leads.bind ((clearCalen_leads _).mono (fun _ _ holds => holds)
    fun _ _ never => never.elim) fun _ t₁ ⟨waits₁, fit₁⟩ => ?_
  simp only [waits_write] at waits₁
  simp only [codesFit_write] at fit₁
  refine Leads.bind ((forM_leads (geCalTxOffsetPair_runs phyaddr) Pair.all t₁).mono
    (fun _ _ holds => holds) ?_) fun _ t₂ ⟨ends, fit₂⟩ => ?_
  · rintro reason t ⟨rfl, ends, fit⟩
    rw [waits₁] at ends
    exact ⟨rfl, ends, fit.trans ((and_iff_left (pairsFit_of_true _ _)).trans fit₁)⟩
  · rw [waits₁] at ends
    refine (disableTxCal_leads phyaddr t₂).mono (fun _ t ⟨waits, fit⟩ => ?_)
      fun _ _ never => never.elim
    exact ⟨waits ▸ ends, fit.trans (fit₂.trans
      ((and_iff_left (pairsFit_of_true _ _)).trans fit₁))⟩

theorem geCalTxAmp_leads :
    Leads (geCalTxAmp phyaddr) s
      (fun _ t => pairsEnd downWhenSet (zeroDb : BitVec 32) Pair.all s.waits = some t.waits ∧
        (CodesFit t ↔ CodesFit s ∧ TxAmpFits phyaddr s.waits))
      (fun reason t => reason = .timeOut ∧
        pairsEnd downWhenSet (zeroDb : BitVec 32) Pair.all s.waits = none ∧
        (CodesFit t ↔ CodesFit s ∧ TxAmpFits phyaddr s.waits)) := by
  rw [geCalTxAmp]
  simp only [leads_write_bind, leads_read_bind]
  refine Leads.bind ((clearCalen_leads _).mono (fun _ _ holds => holds)
    fun _ _ never => never.elim) fun _ t₁ ⟨waits₁, fit₁⟩ => ?_
  simp only [waits_write] at waits₁
  simp only [codesFit_write] at fit₁
  refine Leads.bind ((forM_leads (geCalTxAmpPair_runs phyaddr) Pair.all t₁).mono
    (fun _ _ holds => holds) ?_) fun _ t₂ ⟨ends, fit₂⟩ => ?_
  · rintro reason t ⟨rfl, ends, fit⟩
    rw [waits₁] at ends fit
    exact ⟨rfl, ends, fit.trans (and_congr_left' fit₁)⟩
  · rw [waits₁] at ends fit₂
    refine Leads.bind ((disableTxCal_leads phyaddr t₂).mono (fun _ _ holds => holds)
      fun _ _ never => never.elim) fun _ t₃ ⟨waits₃, fit₃⟩ => ?_
    exact ⟨waits₃ ▸ ends, fit₃.trans (fit₂.trans (and_congr_left' fit₁))⟩

theorem codesSafe_iff {program : Program Unit} {condition : Prop}
    (run : Leads program { s with uses := [] }
      (fun _ t => CodesFit t ↔ CodesFit { s with uses := [] } ∧ condition)
      (fun reason t => reason = .timeOut ∧
        (CodesFit t ↔ CodesFit { s with uses := [] } ∧ condition))) :
    CodesSafe program s ↔ condition := by
  have none : CodesFit { s with uses := [] } := fun u member => nomatch member
  rw [CodesSafe, Leads]
  rw [Leads] at run
  cases ends : program { s with uses := [] } with
  | ok _ t =>
    rw [ends] at run
    exact run.trans (and_iff_right none)
  | error reason t =>
    rw [ends] at run
    exact (and_iff_right run.1).trans (run.2.trans (and_iff_right none))

theorem geCalR50_safe_iff : CodesSafe (geCalR50 phyaddr) s ↔ R50Fits s.waits := by
  refine codesSafe_iff s ((geCalR50_leads phyaddr _).mono ?_ ?_)
  · exact fun _ t holds => holds.2
  · exact fun reason t holds => ⟨holds.1, holds.2.2⟩

theorem geCalTxAmp_safe_iff : CodesSafe (geCalTxAmp phyaddr) s ↔ TxAmpFits phyaddr s.waits := by
  refine codesSafe_iff s ((geCalTxAmp_leads phyaddr _).mono ?_ ?_)
  · exact fun _ t holds => holds.2
  · exact fun reason t holds => ⟨holds.1, holds.2.2⟩

/-- The functions end whatever is answered.  The codes of `ge_cal_rext` and `ge_cal_tx_offset`
fit, those of `ge_cal_r50` and `ge_cal_tx_amp` exactly under these conditions. -/
theorem calibration_codes_iff :
    CodesSafe (geCalRext phyaddr) s ∧
      (CodesSafe (geCalR50 phyaddr) s ↔ R50Fits s.waits) ∧
      CodesSafe (geCalTxOffset phyaddr) s ∧
      (CodesSafe (geCalTxAmp phyaddr) s ↔ TxAmpFits phyaddr s.waits) := by
  refine ⟨?_, geCalR50_safe_iff phyaddr s, ?_, geCalTxAmp_safe_iff phyaddr s⟩
  · refine (codesSafe_iff s ((geCalRext_leads phyaddr _).mono ?_ ?_)).mpr trivial
    · exact fun _ t holds => holds.2.trans (Iff.of_eq (and_true _).symm)
    · exact fun reason t holds => ⟨holds.1, holds.2.2.trans (Iff.of_eq (and_true _).symm)⟩
  · refine (codesSafe_iff s ((geCalTxOffset_leads phyaddr _).mono ?_ ?_)).mpr trivial
    · exact fun _ t holds => holds.2.trans (Iff.of_eq (and_true _).symm)
    · exact fun reason t holds => ⟨holds.1, holds.2.2.trans (Iff.of_eq (and_true _).symm)⟩

end Safety

def clearPhys (waits : Nat → Wait) : Phys where
  mii := fun _ _ => 0
  reg := fun _ _ _ => 0
  waits := waits
  compOut := false
  geCalFlag := false
  uses := []
  outside := fun _ => 0

/-- Every wait ends with its first poll, and the comparator is set for the first `n` of them. -/
def setFor (n : Nat) : Nat → Wait := fun i => ⟨fun _ => true, fun _ => true, decide (i < n)⟩

/-- The comparator changes at the code 7: it has no entry in the table, and none of the
corrections can be taken off it. -/
theorem calibration_codes_misfit :
    ¬CodesSafe (geCalR50 0) (clearPhys (setFor 25)) ∧
      ¬CodesSafe (geCalTxAmp 0) (clearPhys (setFor 25)) := by
  have r50 : sweepFrom downWhenSet (zeroDb : BitVec 8) (setFor 25) =
      some (.finish, 7, fun n => setFor 25 (n + 26)) := rfl
  have amp : sweepFrom downWhenSet (zeroDb : BitVec 32) (setFor 25) =
      some (.finish, 7, fun n => setFor 25 (n + 26)) := rfl
  rw [geCalR50_safe_iff, geCalTxAmp_safe_iff]
  constructor
  · intro fits
    rw [R50Fits, Pair.all, PairsFit, clearPhys, r50] at fits
    exact absurd fits.1 (by decide)
  · intro fits
    rw [TxAmpFits, Pair.all, PairsFit, clearPhys, amp] at fits
    exact absurd (fits.1 rfl) (by decide)

end MetaFilogic.Mt753x
