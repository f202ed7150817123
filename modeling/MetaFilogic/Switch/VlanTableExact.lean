import MetaFilogic.Switch.VlanTable
import MetaFilogic.Switch.CliExact
import Mathlib.Data.List.GetD

/-!
# What the VLAN table shows

The dump reads the fields back that `vlan_set` has packed.  While no wait times out, every command
finds the engine idle, so the table has what was set since the last clear.
-/

namespace MetaFilogic.Switch

open WordParts FieldValue
open Function (update update_self update_of_ne)

/-! ## Fields -/

section Fields

variable {value : BitVec 32} {lo width : Nat}

theorem masked_toNat (value : BitVec 32) (lo width : Nat) (inside : lo + width ≤ 32) :
    ((value &&& (BitVec.allOnes width).setWidth 32 <<< lo) >>> lo).toNat =
      (value.extractLsb' lo width).toNat := by
  have same : (value &&& (BitVec.allOnes width).setWidth 32 <<< lo) >>> lo =
      (value.extractLsb' lo width).setWidth 32 := by
    refine BitVec.eq_of_getLsbD_eq fun i small => ?_
    simp only [BitVec.getLsbD_ushiftRight, BitVec.getLsbD_and, BitVec.getLsbD_shiftLeft,
      BitVec.getLsbD_setWidth, BitVec.getLsbD_allOnes, BitVec.getLsbD_extractLsb']
    by_cases within : i < width
    · have low : lo + i < 32 := by omega
      simp [within, low, small]
    · simp [within]
  rw [same, BitVec.toNat_setWidth_of_le (by omega)]

theorem getLsbD_of_field {bit : Nat} (field : (value.extractLsb' lo 1).toNat = bit) :
    value.getLsbD lo = decide (bit = 1) := by
  have first : (value.extractLsb' lo 1).getLsbD 0 = value.getLsbD lo := by
    simp
  rw [← first, ← field, BitVec.getLsbD, Nat.testBit_zero]
  have small := (value.extractLsb' lo 1).isLt
  rw [Nat.mod_eq_of_lt small]

theorem and_bit (value : BitVec 32) (i : Nat) :
    value &&& 1#32 <<< i = if value.getLsbD i then 1#32 <<< i else 0#32 := by
  have power : 1#32 <<< i = BitVec.twoPow 32 i := rfl
  rw [power, BitVec.and_twoPow]

theorem and_bit_ne_zero_iff {bit : Nat} (inside : lo < 32)
    (field : (value.extractLsb' lo 1).toNat = bit) : value &&& 1#32 <<< lo ≠ 0#32 ↔ bit = 1 := by
  have power : 1#32 <<< lo ≠ 0#32 := by
    intro zero
    have set := congrArg (·.getLsbD lo) zero
    simp [inside] at set
  rw [and_bit, getLsbD_of_field field]
  by_cases one : bit = 1
  · simpa [one] using power
  · simp [one]

end Fields

/-! ## Entries -/

structure Shown (v : VlanEntry) (value value2 : BitVec 32) : Prop where
  valid : value &&& 0x1#32 ≠ 0#32
  row : ∀ vid, dumpRow true vid value value2 = v.row vid

variable {r : Run} {n : Nat} {digits : List Nat}

theorem Run.ranged_le {i base limit : Nat} (read : r.ranged i base limit = some n) : n ≤ limit := by
  rw [ranged, Option.bind_eq_bind] at read
  obtain ⟨s, -, read⟩ := Option.bind_eq_some_iff.1 read
  dsimp only at read
  split at read
  · cases read
  · obtain rfl := Option.some_inj.1 read
    omega

theorem Run.optional_le {i bound : Nat} {read : Option Nat} (done : r.optional i read = some n)
    (le : ∀ m, read = some m → m ≤ bound) : n ≤ bound := by
  rw [optional] at done
  split at done
  · exact le n done
  · obtain rfl := Option.some_inj.1 done
    exact Nat.zero_le _

theorem Run.egCon_le (read : r.egCon = some n) : n ≤ 1 := by
  rw [egCon, Option.bind_eq_bind] at read
  obtain ⟨s, -, read⟩ := Option.bind_eq_some_iff.1 read
  obtain rfl := Option.some_inj.1 read
  split <;> decide

theorem mem_portFields_getD (lo width : Nat) {port : Nat} (inside : port < digits.length) :
    ⟨lo + width * port, width, digits.getD port 0⟩ ∈ portFields lo width digits := by
  refine Command.mem_portFields.2 ⟨port, _, ?_, rfl⟩
  rw [List.getD_eq_getElem _ _ inside, List.getElem?_eq_getElem inside]

theorem tag_field {port : Nat} (small : ∀ d ∈ digits, d < 4) (short : digits.length ≤ 16) :
    ((Run.egTag digits).extractLsb' (2 * port) 2).toNat = digits.getD port 0 := by
  have word := Command.replaced_egTag small short
  by_cases present : port < digits.length
  · have field := word.holds _ (mem_portFields_getD 0 2 present)
    rwa [Nat.zero_add] at field
  · have clear := word.extract_apart (f := ⟨2 * port, 2, 0⟩) fun g inFields => by
      obtain ⟨i, d, digit, rfl⟩ := Command.mem_portFields.1 inFields
      obtain ⟨below, -⟩ := List.getElem?_eq_some_iff.1 digit
      exact .inr (by dsimp only; omega)
    rw [clear, BitVec.extractLsb'_zero, List.getD_eq_default _ _ (Nat.not_lt.1 present)]
    rfl

theorem and_two_bits (value : BitVec 32) :
    value &&& 0x3#32 <<< 28 = 0x3#32 <<< 28 ↔
      value.getLsbD 28 = true ∧ value.getLsbD 29 = true := by
  have parts : 0x3#32 <<< 28 = 1#32 <<< 28 ||| 1#32 <<< 29 := by decide
  rw [parts, BitVec.and_or_distrib_left, and_bit, and_bit]
  cases value.getLsbD 28 <;> cases value.getLsbD 29 <;> decide

theorem shown_of_fields {value : BitVec 32} {fid stag present : Nat} (eg : Nat) {member : List Nat}
    {egress : Egress} (eight : member.length = 8) (small : ∀ d ∈ digits, d < 4)
    (short : digits.length ≤ 16)
    (word : Replaced 0#32 value ([⟨1, 3, fid⟩] ++ portFields 16 1 member ++ [⟨30, 1, 1⟩] ++
      [⟨4, 12, stag⟩] ++ [⟨0, 1, 1⟩] ++ [⟨29, 1, eg⟩] ++ [⟨28, 1, present⟩]))
    (column : egress = if present = 1 then if eg = 1 then .consistent else .tags digits
      else .disabled) : Shown ⟨fid, member, stag, egress⟩ value (Run.egTag digits) := by
  have holds {f : FieldValue} (inFields : _) := word.holds f inFields
  have valid := and_bit_ne_zero_iff (by decide) (holds (f := ⟨0, 1, 1⟩) (by simp))
  have control := getLsbD_of_field (holds (f := ⟨28, 1, present⟩) (by simp))
  have consistent := getLsbD_of_field (holds (f := ⟨29, 1, eg⟩) (by simp))
  have fidField := (masked_toNat _ 1 3 (by decide)).trans
    (holds (f := ⟨1, 3, fid⟩) (by simp))
  have stagField := (masked_toNat _ 4 12 (by decide)).trans
    (holds (f := ⟨4, 12, stag⟩) (by simp))
  refine ⟨valid.2 rfl, fun vid => ?_⟩
  have ports : (List.range 8).map (fun port =>
      if value &&& 0x00010000#32 <<< port ≠ 0#32 then '1' else '-') =
      (List.range 8).map fun port => if member.getD port 0 = 1 then '1' else '-' := by
    refine List.map_congr_left fun port inRange => ?_
    have inside := List.mem_range.1 inRange
    have place : 0x00010000#32 <<< port = 1#32 <<< (16 + 1 * port) := by
      rw [Nat.one_mul, BitVec.shiftLeft_add]
      rfl
    have listed := mem_portFields_getD 16 1 (eight.symm ▸ inside)
    have bit := and_bit_ne_zero_iff (show 16 + 1 * port < 32 by omega)
      (holds (f := ⟨16 + 1 * port, 1, member.getD port 0⟩)
        (by simp only [List.mem_append, listed, or_true, true_or]))
    rw [place]
    simp only [bit]
  have tags : (List.range 8).map (fun port => Nat.digitChar
      ((Run.egTag digits &&& 0x3#32 <<< (2 * port)) >>> (2 * port)).toNat) =
      (List.range 8).map fun port => Nat.digitChar (digits.getD port 0) := by
    refine List.map_congr_left fun port inRange => ?_
    have inside := List.mem_range.1 inRange
    have field := masked_toNat (Run.egTag digits) (2 * port) 2 (by omega)
    rw [tag_field small short] at field
    exact congrArg Nat.digitChar field
  have set : value &&& 0x1#32 <<< 28 ≠ 0#32 ↔ present = 1 :=
    and_bit_ne_zero_iff (by decide) (holds (f := ⟨28, 1, present⟩) (by simp))
  have column' : (if value &&& 0x3#32 <<< 28 = 0x3#32 <<< 28 then "CONSISTENT".toList
      else if value &&& 0x1#32 <<< 28 ≠ 0#32 then
        (List.range 8).map fun port =>
          Nat.digitChar ((Run.egTag digits &&& 0x3#32 <<< (2 * port)) >>> (2 * port)).toNat
      else "DISABLED".toList) = egress.text := by
    by_cases on : present = 1
    · by_cases same : eg = 1
      · rw [if_pos ((and_two_bits value).2 ⟨control.trans (decide_eq_true on),
          consistent.trans (decide_eq_true same)⟩), column, if_pos on, if_pos same]
        rfl
      · rw [if_neg fun both => same (of_decide_eq_true
          (consistent.symm.trans ((and_two_bits value).1 both).2)), if_pos (set.2 on), tags, column,
          if_pos on, if_neg same]
        rfl
    · rw [if_neg fun both => on (of_decide_eq_true
        (control.symm.trans ((and_two_bits value).1 both).1)), if_neg (mt set.1 on), column,
        if_neg on]
      rfl
  rw [dumpRow, VlanEntry.row, if_pos rfl, column', ports]
  exact congrArg₂ (fun fid stag => VlanRow.mk vid fid _ stag _) fidField stagField

theorem vlanSet_given (r : Run) :
    match r.vlanSet with
    | none => r.given = none
    | some writes => ∃ vid v value value2, r.given = some (vid, v) ∧ vid ≤ 4095 ∧
        writes = [⟨REG_VAWD1_ADDR, value⟩, ⟨REG_VAWD2_ADDR, value2⟩,
          ⟨REG_VTCR_ADDR, 0x80001000#32 + BitVec.ofNat 32 vid⟩] ∧ Shown v value value2 := by
  rw [Run.vlanSet, Run.given]
  cases fidRead : r.ranged 3 0 7 with
  | none => rfl
  | some fid =>
    cases vidRead : r.ranged 4 0 0xfff with
    | none => rfl
    | some vid =>
      cases memberRead : r.portDigits 5 '1' with
      | none => rfl
      | some member =>
        cases stagRead : r.optional 6 (r.ranged 6 16 0xfff) with
        | none => rfl
        | some stag =>
          cases egRead : r.optional 7 r.egCon with
          | none => rfl
          | some eg =>
            cases tagsRead : r.tagDigits eg with
            | none => simp [tagsRead]
            | some digits =>
              simp only [Option.bind_eq_bind, Option.bind_some, tagsRead]
              have egLe := Run.optional_le egRead fun m read => Run.egCon_le read
              have tagsSound := Run.tagDigits_sound tagsRead
              refine ⟨vid, _, _, _, rfl, Run.ranged_le vidRead, rfl, ?_⟩
              refine shown_of_fields eg (Run.portDigits_length memberRead) tagsSound.1
                tagsSound.2 (Command.replaced_vlanSet (Run.ranged_le fidRead)
                  (fun d inMember => Nat.lt_succ_of_le (Run.portDigits_small memberRead d inMember))
                  (Run.portDigits_length memberRead)
                  (Run.optional_le stagRead fun m read => Run.ranged_le read) egLe
                  (fun absent => ?_) fun tagged => by omega) ?_
              · rw [Run.optional, if_neg absent] at egRead
                exact (Option.some_inj.1 egRead).symm
              · by_cases few : r.argv.length ≤ 7
                · simp [few, Nat.not_lt.2 few]
                · have zero : eg = 0 ↔ ¬eg = 1 := by omega
                  simp [few, Nat.lt_of_not_le few, zero]

/-! ## The engine -/

namespace VlanEngine

variable {e : VlanEngine} {idle : Nat → Bool}

theorem poll_idle {left i : Nat} (inTime : (poll idle left i e).2 = false) :
    (poll idle left i e).1 = { e with busy := false } := by
  induction left generalizing i with
  | zero => exact nomatch inTime
  | succ left ih =>
    rw [poll] at inTime ⊢
    split at inTime
    · rw [if_pos ‹_›]
      exact ih inTime
    · rw [if_neg ‹_›]

theorem vid_of_command (base : BitVec 32) {vid : Nat} (clear : ∀ i < 12, base.getLsbD i = false)
    (le : vid ≤ 4095) :
    ((base + BitVec.ofNat 32 vid) &&& 0xfff#32).toNat = vid ∧
      (base + BitVec.ofNat 32 vid) &&& 0xf000#32 = base &&& 0xf000#32 := by
  have word := Command.replaced_vtcr clear le
  constructor
  · have field := (masked_toNat _ 0 12 (by decide)).trans
      (word.holds ⟨0, 12, vid⟩ (by simp))
    rwa [BitVec.ushiftRight_zero] at field
  · refine BitVec.eq_of_getLsbD_eq fun i inside => ?_
    rw [BitVec.getLsbD_and, BitVec.getLsbD_and]
    by_cases low : i < 12
    · have mask : ∀ i < 12, (0xf000#32).getLsbD i = false := by decide
      rw [mask i low, Bool.and_false, Bool.and_false]
    · rw [word.others i fun f inFields => by
        obtain rfl := List.mem_singleton.1 inFields
        exact fun covers => low (by simpa using covers.2)]

theorem foldl_entry (ready : Bool) (quiet : e.busy = false) {vid : Nat} (le : vid ≤ 4095)
    (value value2 : BitVec 32) :
    [⟨REG_VAWD1_ADDR, value⟩, ⟨REG_VAWD2_ADDR, value2⟩,
      ⟨REG_VTCR_ADDR, 0x80001000#32 + BitVec.ofNat 32 vid⟩].foldl (write ready) e =
      ⟨value, value2, update e.entry vid (value, value2), true⟩ := by
  obtain ⟨place, kind⟩ := vid_of_command 0x80001000#32 (by decide) le
  have idleNow : ¬(e.busy = true ∧ ready = false) := by simp [quiet]
  rw [List.foldl_cons, List.foldl_cons, List.foldl_cons, List.foldl_nil]
  simp only [write, REG_VAWD1_ADDR, REG_VAWD2_ADDR, REG_VTCR_ADDR, Nat.reduceEqDiff, if_false,
    if_true]
  rw [command, if_neg idleNow]
  dsimp only
  rw [kind, place, if_pos (by decide)]

theorem vlanSet_spec (quiet : e.busy = false) {r : Run} {wait : Wait}
    (inTime : (e.vlanSet r wait).2 = false) :
    (e.vlanSet r wait).1.busy = false ∧
      match r.given with
      | none => (e.vlanSet r wait).1.entry = e.entry
      | some (vid, v) => vid ≤ 4095 ∧ ∃ value value2, Shown v value value2 ∧
          (e.vlanSet r wait).1.entry = update e.entry vid (value, value2) := by
  have given := vlanSet_given r
  rw [vlanSet] at inTime ⊢
  cases asked : r.vlanSet with
  | none =>
    rw [asked] at given
    rw [given]
    exact ⟨quiet, rfl⟩
  | some writes =>
    rw [asked] at given inTime
    obtain ⟨vid, v, value, value2, isGiven, le, rfl, shown⟩ := given
    dsimp only at inTime ⊢
    rw [poll_idle inTime, foldl_entry _ quiet le, isGiven]
    exact ⟨rfl, le, value, value2, shown, rfl⟩

end VlanEngine

/-! ## `vlan_clear` -/

namespace ClearState

variable {wait : ClearWait} {s : ClearState}

def cleared (wait : ClearWait) (vid : Nat) (e : VlanEngine) : VlanEngine :=
  (e.write wait.ready ⟨REG_VAWD1_ADDR, 0#32⟩).write wait.ready
    ⟨REG_VTCR_ADDR, 0x80001000#32 + BitVec.ofNat 32 vid⟩

theorem busy_cleared (vid : Nat) (e : VlanEngine) : (cleared wait vid e).busy = true := by
  simp only [cleared, VlanEngine.write, REG_VAWD1_ADDR, REG_VAWD2_ADDR, REG_VTCR_ADDR,
    Nat.reduceEqDiff, if_false, if_true, VlanEngine.command]
  split
  · exact And.left ‹_›
  · split
    · rfl
    · split <;> rfl

variable {vid : Nat}

theorem cleared_eq {e : VlanEngine} (quiet : e.busy = false) (le : vid ≤ 4095) :
    cleared wait vid e =
      ⟨0#32, e.vawd2, update e.entry vid (0#32, e.vawd2), true⟩ := by
  have whole := VlanEngine.foldl_entry wait.ready quiet le 0#32 e.vawd2
  rw [List.foldl_cons, List.foldl_cons, List.foldl_cons, List.foldl_nil] at whole
  exact whole

theorem waitIdle_late (left i : Nat) (late : 1000 < s.durationUs) : waitIdle wait left i s = s := by
  cases left with
  | zero => rfl
  | succ left => exact if_pos late

theorem waitIdle_spec (wait : ClearWait) (left i : Nat) (busy : s.engine.busy = true)
    (short : s.durationUs ≤ 1000)
    (past : ∀ k < i, wait.idle k = false ∧ timespecDiffUs wait.start (wait.clock k) ≤ 1000)
    (enough : wait.last < i + left) :
    (wait.FindsIdle ∧ ∃ d ≤ 1000, waitIdle wait left i s = { s with
        engine := { s.engine with busy := false }, durationUs := d, trace := .idle :: s.trace }) ∨
      (¬wait.FindsIdle ∧ ∃ d, 1000 < d ∧ waitIdle wait left i s = { s with durationUs := d }) := by
  have reached : i ≤ wait.last := by
    by_contra beyond
    have last := past wait.last (by omega)
    rcases wait.ends with idle | late
    · exact nomatch last.1.symm.trans idle
    · omega
  induction left generalizing i s with
  | zero => omega
  | succ left ih =>
    rw [waitIdle, if_neg (Nat.not_lt.2 short)]
    cases now : wait.idle i with
    | true =>
      rw [if_neg (by simp)]
      exact .inl ⟨⟨i, now, fun k before => (past k before).2⟩, s.durationUs, short, rfl⟩
    | false =>
      rw [if_pos ⟨busy, rfl⟩]
      by_cases late : 1000 < timespecDiffUs wait.start (wait.clock i)
      · refine .inr ⟨?_, _, late, waitIdle_late left (i + 1) late⟩
        rintro ⟨j, idle, inTime⟩
        rcases Nat.lt_trichotomy j i with before | rfl | after
        · exact nomatch (past j before).1.symm.trans idle
        · exact nomatch now.symm.trans idle
        · exact absurd (inTime i after) (Nat.not_le.2 late)
      · have next : ∀ k < i + 1, wait.idle k = false ∧
            timespecDiffUs wait.start (wait.clock k) ≤ 1000 := by
          intro k before
          rcases Nat.lt_succ_iff_lt_or_eq.1 before with earlier | rfl
          · exact past k earlier
          · exact ⟨now, Nat.not_lt.1 late⟩
        have goesOn : i + 1 ≤ wait.last := by
          by_contra beyond
          obtain rfl : i = wait.last := by omega
          rcases wait.ends with idle | tooLate
          · exact nomatch now.symm.trans idle
          · exact late tooLate
        exact ih (i + 1) (s := { s with durationUs := _ }) busy (Nat.not_lt.1 late) next
          (by omega) goesOn

theorem clearEntry_short (wait : ClearWait) (vid : Nat) (short : s.durationUs ≤ 1000) :
    (wait.FindsIdle ∧ ∃ d ≤ 1000, clearEntry wait vid s =
        ⟨{ cleared wait vid s.engine with busy := false }, d, s.timedOut,
          .idle :: .command wait.issued :: s.trace⟩) ∨
      (¬wait.FindsIdle ∧ ∃ d, 1000 < d ∧ clearEntry wait vid s =
        ⟨cleared wait vid s.engine, d, true, .command wait.issued :: s.trace⟩) := by
  have waited := waitIdle_spec wait (wait.last + 2) 0
    (s := { s with engine := cleared wait vid s.engine, trace := .command wait.issued :: s.trace })
    (busy_cleared vid s.engine) short (fun k none => absurd none (Nat.not_lt_zero k)) (by omega)
  rcases waited with ⟨finds, d, inTime, same⟩ | ⟨misses, d, late, same⟩
  · refine .inl ⟨finds, d, inTime, ?_⟩
    rw [clearEntry, ← cleared]
    dsimp only at same ⊢
    rw [same]
    simp [Nat.not_lt.2 inTime]
  · refine .inr ⟨misses, d, late, ?_⟩
    rw [clearEntry, ← cleared]
    dsimp only at same ⊢
    rw [same]
    simp [late]

theorem clearEntry_late (vid : Nat) (late : 1000 < s.durationUs) : clearEntry wait vid s =
    ⟨cleared wait vid s.engine, s.durationUs, true, .command wait.issued :: s.trace⟩ := by
  have kept : waitIdle wait (wait.last + 2) 0 { s with
        engine := cleared wait vid s.engine, trace := .command wait.issued :: s.trace } = _ :=
    waitIdle_late _ 0 late
  rw [clearEntry, ← cleared, kept]
  simp [late]

theorem clearEntry_timedOut (vid : Nat) (late : s.timedOut = true) :
    (clearEntry wait vid s).timedOut = true := by
  rcases Nat.lt_or_ge 1000 s.durationUs with late | short
  · rw [clearEntry_late vid late]
  · rcases clearEntry_short wait vid short with ⟨-, d, -, same⟩ | ⟨-, d, -, same⟩
    · rw [same]
      exact late
    · rw [same]

variable {waits : Nat → ClearWait}

theorem clearFrom_timedOut {count : Nat} (late : s.timedOut = true) :
    (clearFrom waits count vid s).timedOut = true := by
  induction count generalizing vid s with
  | zero => exact late
  | succ count ih => exact ih (clearEntry_timedOut vid late)

theorem clearFrom_engine {count : Nat} (quiet : s.engine.busy = false) (short : s.durationUs ≤ 1000)
    (inside : vid + count ≤ 4096) (inTime : (clearFrom waits count vid s).timedOut = false) :
    (clearFrom waits count vid s).engine.busy = false ∧ ∀ k,
      (clearFrom waits count vid s).engine.entry k =
        if vid ≤ k ∧ k < vid + count then (0#32, s.engine.vawd2) else s.engine.entry k := by
  induction count generalizing vid s with
  | zero =>
    refine ⟨quiet, fun k => ?_⟩
    rw [if_neg (by omega)]
    rfl
  | succ count ih =>
    rw [clearFrom] at inTime ⊢
    rcases clearEntry_short (waits vid) vid short with ⟨-, d, le, same⟩ | ⟨-, d, -, same⟩
    · rw [cleared_eq quiet (by omega)] at same
      rw [same] at inTime ⊢
      obtain ⟨idle, rest⟩ := ih rfl le (by omega) inTime
      refine ⟨idle, fun k => (rest k).trans ?_⟩
      dsimp only
      by_cases this : k = vid
      · subst this
        simp
      · rw [update_of_ne this]
        by_cases later : vid + 1 ≤ k ∧ k < vid + 1 + count
        · rw [if_pos later, if_pos (by omega)]
        · rw [if_neg later, if_neg (by omega)]
    · rw [same, clearFrom_timedOut rfl] at inTime
      exact nomatch inTime

end ClearState

theorem VlanEngine.vlanClear_engine {e : VlanEngine} {waits : Nat → ClearWait} {state : ClearState}
    (quiet : e.busy = false) (cleared : e.vlanClear waits = state)
    (inTime : state.timedOut = false) :
    state.engine.busy = false ∧ ∀ vid ≤ 4095, state.engine.entry vid = (0#32, e.vawd2) := by
  rw [vlanClear] at cleared
  rw [← cleared] at inTime ⊢
  obtain ⟨idle, all⟩ := @ClearState.clearFrom_engine ⟨e, 0, false, []⟩ 0 waits 4096 quiet
    (Nat.zero_le _) (Nat.le_refl _) inTime
  exact ⟨idle, fun vid le => (all vid).trans (if_pos ⟨Nat.zero_le _, by omega⟩)⟩

/-! ## The commands of a clear -/

def Gap (next : Nat) : List ClearEvent → Prop
  | .command first :: _ => first + 1000000 ≤ next
  | _ => True

theorem spaced_command {time : Nat} {trace : List ClearEvent} :
    Spaced (.command time :: trace) ↔ Gap time trace ∧ Spaced trace := by
  cases trace with
  | nil => simp [Spaced, Gap]
  | cons event rest => cases event <;> simp [Spaced, Gap]

namespace ClearState

variable {wait : ClearWait} {waits : Nat → ClearWait} {s : ClearState}

theorem clearEntry_trace (wait : ClearWait) (vid : Nat) :
    ((clearEntry wait vid s).durationUs ≤ 1000 ↔ s.durationUs ≤ 1000 ∧ wait.FindsIdle) ∧
      (Spaced (clearEntry wait vid s).trace ↔ Gap wait.issued s.trace ∧ Spaced s.trace) ∧
      ∀ next, Gap next (clearEntry wait vid s).trace ↔
        (s.durationUs ≤ 1000 ∧ wait.FindsIdle) ∨ wait.issued + 1000000 ≤ next := by
  rcases Nat.lt_or_ge 1000 s.durationUs with late | short
  · have missed := Nat.not_le.2 late
    rw [clearEntry_late vid late]
    exact ⟨by simp [missed], spaced_command, fun next => by simp [Gap, missed]⟩
  · rcases clearEntry_short wait vid short with ⟨finds, d, le, same⟩ | ⟨misses, d, late, same⟩
    · rw [same]
      exact ⟨by simp [le, short, finds], spaced_command, fun next => by simp [Gap, short, finds]⟩
    · rw [same]
      exact ⟨by simp [Nat.not_le.2 late, misses], spaced_command,
        fun next => by simp [Gap, misses]⟩

/-- The commands of the loop over the entries are spaced, if each is waited for with success or the
next one comes late enough. -/
theorem clearFrom_spaced (count vid : Nat) (s : ClearState) :
    Spaced (clearFrom waits count vid s).trace ↔
      Spaced s.trace ∧ (0 < count → Gap (waits vid).issued s.trace) ∧
        ∀ k, vid ≤ k → k + 1 < vid + count →
          (s.durationUs ≤ 1000 ∧ ∀ i, vid ≤ i → i ≤ k → (waits i).FindsIdle) ∨
            (waits k).issued + 1000000 ≤ (waits (k + 1)).issued := by
  induction count generalizing vid s with
  | zero =>
    refine ⟨fun spaced =>
      ⟨spaced, fun none => absurd none (Nat.lt_irrefl 0), fun k least below => ?_⟩, And.left⟩
    omega
  | succ count ih =>
    obtain ⟨inTime, spaced, gap⟩ := clearEntry_trace (waits vid) vid (s := s)
    rw [clearFrom, ih, spaced, inTime, gap]
    constructor
    · rintro ⟨⟨first, before⟩, second, rest⟩
      refine ⟨before, fun _ => first, fun k least below => ?_⟩
      rcases Nat.eq_or_lt_of_le least with rfl | later
      · refine (second (by omega)).imp_left fun ⟨short, finds⟩ => ⟨short, fun i low high => ?_⟩
        obtain rfl := Nat.le_antisymm high low
        exact finds
      · refine (rest k later (by omega)).imp_left fun ⟨⟨short, finds⟩, all⟩ =>
          ⟨short, fun i low high => ?_⟩
        rcases Nat.eq_or_lt_of_le low with rfl | next
        · exact finds
        · exact all i next high
    · rintro ⟨before, first, rest⟩
      refine ⟨⟨first (Nat.succ_pos _), before⟩, fun more => ?_, fun k later below => ?_⟩
      · exact (rest vid (Nat.le_refl _) (by omega)).imp_left fun ⟨short, all⟩ =>
          ⟨short, all vid (Nat.le_refl _) (Nat.le_refl _)⟩
      · exact (rest k (by omega) (by omega)).imp_left fun ⟨short, all⟩ =>
          ⟨⟨short, all vid (Nat.le_refl _) (by omega)⟩, fun i low high => all i (by omega) high⟩

end ClearState

theorem VlanEngine.vlanClear_spaced (waits : Nat → ClearWait) (e : VlanEngine) :
    Spaced (e.vlanClear waits).trace ↔ ∀ k < 4095, (∀ i ≤ k, (waits i).FindsIdle) ∨
      (waits k).issued + 1000000 ≤ (waits (k + 1)).issued := by
  rw [vlanClear, ClearState.clearFrom_spaced]
  simp only [Spaced, Gap, Nat.zero_le, implies_true, true_and, forall_const, Nat.zero_add]
  exact forall_congr' fun k => by rw [Nat.add_lt_iff_lt_sub_right]

/-! ## The table over a run -/

/-- The table holds what has been set. -/
structure Represents (entries : Nat → Option VlanEntry) (e : VlanEngine) : Prop where
  idle : e.busy = false
  absent : ∀ vid ≤ 4095, entries vid = none → (e.entry vid).1 &&& 0x1#32 = 0#32
  present : ∀ vid ≤ 4095, ∀ v, entries vid = some v → Shown v (e.entry vid).1 (e.entry vid).2

namespace VlanCall

variable {e : VlanEngine} {entries : Nat → Option VlanEntry}

theorem represents_clear (waits : Nat → ClearWait) {after : VlanEngine × Bool}
    (quiet : e.busy = false) (done : (clear waits).run e = after) (inTime : after.2 = false) :
    Represents (fun _ => none) after.1 := by
  rw [run] at done
  cases cleared : e.vlanClear waits with
  | mk engine durationUs timedOut trace =>
    rw [cleared] at done
    subst done
    obtain ⟨idle, all⟩ := VlanEngine.vlanClear_engine quiet cleared inTime
    refine ⟨idle, fun vid le _ => ?_, fun vid _ v some => nomatch some⟩
    exact (congrArg (·.1 &&& 0x1#32) (all vid le)).trans BitVec.zero_and

theorem idle_after_run {call : VlanCall} (quiet : e.busy = false)
    (inTime : (call.run e).2 = false) :
    (call.run e).1.busy = false := by
  cases call with
  | set r wait => exact (VlanEngine.vlanSet_spec quiet inTime).1
  | clear waits => exact (represents_clear waits quiet rfl inTime).idle

/-- A call without a time-out keeps the table as what has been set. -/
theorem represents_run {call : VlanCall} (holds : Represents entries e)
    (inTime : (call.run e).2 = false) : Represents (asks entries call) (call.run e).1 := by
  cases call with
  | clear waits => exact represents_clear waits holds.idle rfl inTime
  | set r wait =>
    obtain ⟨idle, change⟩ := VlanEngine.vlanSet_spec holds.idle inTime
    rw [asks]
    cases given : r.given with
    | none =>
      rw [given] at change
      refine ⟨idle, fun vid le none => ?_, fun vid le v some => ?_⟩
      · exact (congrArg (fun entry => (entry vid).1 &&& 0x1#32) change).trans
          (holds.absent vid le none)
      · rw [run, change]
        exact holds.present vid le v some
    | some asked =>
      obtain ⟨place, new⟩ := asked
      rw [given] at change
      obtain ⟨-, value, value2, shown, same⟩ := change
      refine ⟨idle, fun vid le none => ?_, fun vid le v some => ?_⟩
      · dsimp only at none
        rw [run, same]
        by_cases this : vid = place
        · rw [this, update_self] at none
          exact nomatch none
        · rw [update_of_ne this] at none ⊢
          exact holds.absent vid le none
      · dsimp only at some
        rw [run, same]
        by_cases this : vid = place
        · subst this
          rw [update_self] at some ⊢
          obtain rfl := Option.some_inj.1 some
          exact shown
        · rw [update_of_ne this] at some ⊢
          exact holds.present vid le v some

theorem runAll_cons (e : VlanEngine) (call : VlanCall) (calls : List VlanCall) :
    runAll e (call :: calls) =
      ((runAll (call.run e).1 calls).1, (call.run e).2 || (runAll (call.run e).1 calls).2) :=
  rfl

theorem runAll_append (e : VlanEngine) (calls more : List VlanCall) :
    runAll e (calls ++ more) =
      ((runAll (runAll e calls).1 more).1,
        (runAll e calls).2 || (runAll (runAll e calls).1 more).2) := by
  induction calls generalizing e with
  | nil => rfl
  | cons call calls ih =>
    rw [List.cons_append, runAll_cons, ih, runAll_cons, Bool.or_assoc]

theorem idle_after_runAll {calls : List VlanCall} (quiet : e.busy = false)
    (inTime : (runAll e calls).2 = false) : (runAll e calls).1.busy = false := by
  induction calls generalizing e with
  | nil => exact quiet
  | cons call calls ih =>
    rw [runAll_cons] at inTime ⊢
    obtain ⟨first, rest⟩ := Bool.or_eq_false_iff.1 inTime
    exact ih (idle_after_run quiet first) rest

theorem represents_runAll {calls : List VlanCall} (holds : Represents entries e)
    (inTime : (runAll e calls).2 = false) :
    Represents (calls.foldl asks entries) (runAll e calls).1 := by
  induction calls generalizing e entries with
  | nil => exact holds
  | cons call calls ih =>
    rw [runAll_cons] at inTime ⊢
    obtain ⟨first, rest⟩ := Bool.or_eq_false_iff.1 inTime
    exact ih (represents_run holds first) rest

theorem represents_since_clear (entries : Nat → Option VlanEntry) {before after : List VlanCall}
    {waits : Nat → ClearWait} (quiet : e.busy = false)
    (inTime : (runAll e (before ++ clear waits :: after)).2 = false) :
    Represents ((before ++ clear waits :: after).foldl asks entries)
      (runAll e (before ++ clear waits :: after)).1 := by
  rw [runAll_append, runAll_cons] at inTime ⊢
  obtain ⟨first, rest⟩ := Bool.or_eq_false_iff.1 inTime
  have cleared := represents_clear waits (idle_after_runAll quiet first) rfl
  rw [List.foldl_append, List.foldl_cons, asks]
  generalize clear waits = call at cleared rest ⊢
  obtain ⟨clearing, later⟩ := Bool.or_eq_false_iff.1 rest
  exact represents_runAll (cleared clearing) later

end VlanCall

/-! ## The dump -/

theorem listed_append (lines more : List DumpLine) :
    listed (lines ++ more) = listed lines ++ listed more :=
  List.filterMap_append

namespace VlanEngine

variable {entries : Nat → Option VlanEntry} {e : VlanEngine}

theorem dumpVid_spec (holds : Represents entries e) {wait : Wait} {vid : Nat} (le : vid ≤ 4095)
    (inTime : DumpLine.timeout ∉ (e.dumpVid true wait vid).2) :
    Represents entries (e.dumpVid true wait vid).1 ∧
      listed (e.dumpVid true wait vid).2 = ((entries vid).map (VlanEntry.row vid)).toList := by
  obtain ⟨place, kind⟩ := vid_of_command 0x80000000#32 (by decide) le
  have idleNow : ¬(e.busy = true ∧ wait.ready = false) := by simp [holds.idle]
  have started : e.write wait.ready ⟨REG_VTCR_ADDR, 0x80000000#32 + BitVec.ofNat 32 vid⟩ =
      ⟨(e.entry vid).1, (e.entry vid).2, e.entry, true⟩ := by
    simp only [write, REG_VAWD1_ADDR, REG_VAWD2_ADDR, REG_VTCR_ADDR, Nat.reduceEqDiff, if_false,
      if_true]
    rw [command, if_neg idleNow]
    dsimp only
    rw [kind, place, if_neg (by decide), if_pos (by decide)]
  rw [dumpVid, started] at inTime ⊢
  cases late : (poll wait.idle 20 0 ⟨(e.entry vid).1, (e.entry vid).2, e.entry, true⟩).2 with
  | true =>
    refine absurd ?_ inTime
    simp only [late, if_true]
    split
    · exact List.mem_cons_self
    · split
      · exact List.mem_cons_self
      · exact List.mem_cons_self
  | false =>
    have found := poll_idle late
    simp only [late, found]
    have kept : Represents entries ⟨(e.entry vid).1, (e.entry vid).2, e.entry, false⟩ :=
      ⟨rfl, holds.absent, holds.present⟩
    cases set : entries vid with
    | none =>
      have zero := holds.absent vid le set
      rw [if_neg (not_not.2 zero)]
      split
      · exact ⟨kept, rfl⟩
      · exact ⟨kept, rfl⟩
    | some v =>
      have shown := holds.present vid le v set
      rw [if_pos shown.valid]
      exact ⟨kept, congrArg (fun row => [row]) (shown.row vid)⟩

theorem listed_dumpFrom {waits : Nat → Wait} {count vid : Nat} (holds : Represents entries e)
    (inside : vid + count ≤ 4096) (inTime : DumpLine.timeout ∉ e.dumpFrom true waits count vid) :
    listed (e.dumpFrom true waits count vid) =
      (List.range' vid count).filterMap fun vid => (entries vid).map (VlanEntry.row vid) := by
  induction count generalizing vid e with
  | zero => rfl
  | succ count ih =>
    rw [dumpFrom] at inTime ⊢
    obtain ⟨first, rest⟩ := not_or.1 (mt List.mem_append.2 inTime)
    obtain ⟨kept, line⟩ := dumpVid_spec holds (by omega) first
    rw [listed_append, line, ih kept (by omega) rest, List.range'_succ, List.filterMap_cons]
    cases entries vid <;> rfl

end VlanEngine

theorem expected_eq_iff (entries : Nat → Option VlanEntry) :
    ((List.range' 1 4094).filterMap fun vid => (entries vid).map (VlanEntry.row vid)) =
      expected entries ↔ entries 0 = none ∧ entries 4095 = none := by
  have all : List.range 4096 = List.range' 0 1 ++ List.range' 1 4094 ++ List.range' 4095 1 := by
    rw [List.range_eq_range', List.range'_append_1, List.range'_append_1]
  have lengths (same : ((List.range' 1 4094).filterMap fun vid =>
      (entries vid).map (VlanEntry.row vid)) = expected entries) := congrArg List.length same
  rw [expected, all, List.filterMap_append, List.filterMap_append] at lengths ⊢
  cases first : entries 0 <;> cases last : entries 4095
  · simp [first, last]
  all_goals
    refine iff_of_false (fun same => ?_) (by simp)
    have lengths := lengths same
    simp [first, last] at lengths
    try omega

theorem listed_vlanDump {e : VlanEngine} {before after : List VlanCall} {waits : Nat → ClearWait}
    {dumpWaits : Nat → Wait} (quiet : e.busy = false)
    (inTime : (VlanCall.runAll e (before ++ .clear waits :: after)).2 = false)
    (four : r.argv.length = 4) (egtag : r.argv[3]? = some "egtag".toList)
    (dumped : DumpLine.timeout ∉
      (VlanCall.runAll e (before ++ .clear waits :: after)).1.vlanDump r dumpWaits) :
    listed ((VlanCall.runAll e (before ++ .clear waits :: after)).1.vlanDump r dumpWaits) =
      (List.range' 1 4094).filterMap fun vid =>
        ((before ++ .clear waits :: after).foldl VlanCall.asks (fun _ => none) vid).map
          (VlanEntry.row vid) := by
  have holds := VlanCall.represents_since_clear (fun _ => none) quiet inTime
  rw [VlanEngine.vlanDump, decide_eq_true (And.intro four egtag)] at dumped ⊢
  exact VlanEngine.listed_dumpFrom holds (by omega) dumped

/-! ### An engine that is idle at once -/

section Prompt

/-- A wait of `vlan_clear` that is over at the first read. -/
def promptClear : ClearWait where
  ready := true
  idle _ := true
  issued := 0
  start := ⟨0, 0⟩
  clock _ := ⟨0, 0⟩
  last := 0
  ends := .inl rfl

theorem clearFrom_prompt {waits : Nat → ClearWait} {count vid : Nat} {s : ClearState}
    (prompt : ∀ k, (waits k).FindsIdle) (short : s.durationUs ≤ 1000)
    (inTime : s.timedOut = false) :
    (ClearState.clearFrom waits count vid s).timedOut = false := by
  induction count generalizing vid s with
  | zero => exact inTime
  | succ count ih =>
    rcases ClearState.clearEntry_short (waits vid) vid short with
      ⟨-, d, le, same⟩ | ⟨misses, -⟩
    · rw [ClearState.clearFrom, same]
      exact ih le inTime
    · exact absurd (prompt vid) misses

theorem dumpFrom_prompt {egTag : Bool} {waits : Nat → Wait} {count vid : Nat} {e : VlanEngine}
    (prompt : ∀ k, (waits k).idle 0 = true) :
    DumpLine.timeout ∉ e.dumpFrom egTag waits count vid := by
  induction count generalizing vid e with
  | zero => exact List.not_mem_nil
  | succ count ih =>
    have first : DumpLine.timeout ∉ (e.dumpVid egTag (waits vid) vid).2 := by
      have found : ∀ e : VlanEngine, (VlanEngine.poll (waits vid).idle 20 0 e).2 = false := by
        intro e
        rw [VlanEngine.poll, if_neg (by simp [prompt])]
      rw [VlanEngine.dumpVid]
      simp only [found]
      split
      · simp
      · split <;> simp
    rw [VlanEngine.dumpFrom]
    exact fun listed => (List.mem_append.1 listed).elim first ih

theorem vlanDump_prompt {waits : Nat → Wait} (r : Run) (e : VlanEngine)
    (prompt : ∀ k, (waits k).idle 0 = true) : DumpLine.timeout ∉ e.vlanDump r waits := by
  rw [VlanEngine.vlanDump]
  exact dumpFrom_prompt prompt

theorem vlanSet_prompt {wait : Wait} (r : Run) (e : VlanEngine) (prompt : wait.idle 0 = true) :
    (e.vlanSet r wait).2 = false := by
  rw [VlanEngine.vlanSet]
  cases r.vlanSet with
  | none => rfl
  | some writes =>
    dsimp only
    rw [VlanEngine.poll, if_neg (by simp [prompt])]

/-- `switch vlan set 0 <vid> 11111111` -/
def promptSet (vid : List Char) : VlanCall :=
  .set ⟨true, [[], [], [], ['0'], vid, "11111111".toList], fun _ => 0#32⟩ ⟨true, fun _ => true⟩

def promptCalls (vid : List Char) : List VlanCall := [.clear fun _ => promptClear, promptSet vid]

def egTagRun : Run := ⟨true, [[], [], [], "egtag".toList], fun _ => 0#32⟩

theorem runAll_prompt (vid : List Char) (e : VlanEngine) :
    (VlanCall.runAll e (promptCalls vid)).2 = false := by
  cases cleared : e.vlanClear fun _ => promptClear with
  | mk engine durationUs timedOut trace =>
    have inTime : timedOut = false := by
      rw [VlanEngine.vlanClear] at cleared
      have kept := @clearFrom_prompt (fun _ => promptClear) 4096 0 ⟨e, 0, false, []⟩
        (fun _ => ⟨0, rfl, fun i none => absurd none (Nat.not_lt_zero i)⟩) (Nat.zero_le _) rfl
      rwa [cleared] at kept
    rw [promptCalls, VlanCall.runAll_cons, VlanCall.run, cleared, VlanCall.runAll_cons]
    exact Bool.or_eq_false_iff.2 ⟨inTime, Bool.or_eq_false_iff.2 ⟨vlanSet_prompt _ _ rfl, rfl⟩⟩

def blankTable : VlanEngine := ⟨0#32, 0#32, fun _ => (0#32, 0#32), false⟩

def stuckClear (vid : Nat) : ClearWait where
  ready := false
  idle _ := false
  issued := if vid = 0 then 0 else 1200000 + 1000 * vid
  start := ⟨0, 0⟩
  clock _ := ⟨0, 1100000⟩
  last := 0
  ends := .inr (by decide)

end Prompt

/-- The dump agrees with what has been set, unless that is vid 0 or 4095; and the commands of a
clear are spaced, unless one after a time-out comes too soon. -/
theorem vlanTable_agrees_iff {e : VlanEngine} {before after : List VlanCall}
    {waits : Nat → ClearWait} {r : Run} {dumpWaits : Nat → Wait} (quiet : e.busy = false)
    (inTime : (VlanCall.runAll e (before ++ .clear waits :: after)).2 = false)
    (four : r.argv.length = 4) (egtag : r.argv[3]? = some "egtag".toList)
    (dumped : DumpLine.timeout ∉
      (VlanCall.runAll e (before ++ .clear waits :: after)).1.vlanDump r dumpWaits) :
    let entries := (before ++ .clear waits :: after).foldl VlanCall.asks fun _ => none
    (listed ((VlanCall.runAll e (before ++ .clear waits :: after)).1.vlanDump r dumpWaits) =
        expected entries ↔ entries 0 = none ∧ entries 4095 = none) ∧
      ∀ (e : VlanEngine) (waits : Nat → ClearWait), Spaced (e.vlanClear waits).trace ↔
        ∀ k < 4095, (∀ i ≤ k, (waits i).FindsIdle) ∨
          (waits k).issued + 1000000 ≤ (waits (k + 1)).issued := by
  refine ⟨?_, fun e waits => VlanEngine.vlanClear_spaced waits e⟩
  rw [listed_vlanDump quiet inTime four egtag dumped]
  exact expected_eq_iff _

theorem vid_5_listed :
    listed ((VlanCall.runAll blankTable (promptCalls ['5'])).1.vlanDump egTagRun
      fun _ => ⟨true, fun _ => true⟩) =
      expected ((promptCalls ['5']).foldl VlanCall.asks fun _ => none) := by
  have agrees := @vlanTable_agrees_iff blankTable [] [promptSet ['5']] (fun _ => promptClear)
    egTagRun (fun _ => ⟨true, fun _ => true⟩) rfl (runAll_prompt ['5'] blankTable) rfl rfl
    (vlanDump_prompt _ _ fun _ => rfl)
  refine agrees.1.2 ⟨?_, ?_⟩
  · exact Option.isNone_iff_eq_none.1 (by decide +kernel)
  · exact Option.isNone_iff_eq_none.1 (by decide +kernel)

/-- Vid 4095 is set and not listed; and after the time-out for vid 0 a command follows the one
before it by a microsecond. -/
theorem vid_4095_not_listed :
    ((VlanCall.runAll blankTable (promptCalls "4095".toList)).2 = false ∧
      DumpLine.timeout ∉ (VlanCall.runAll blankTable
        (promptCalls "4095".toList)).1.vlanDump egTagRun (fun _ => ⟨true, fun _ => true⟩) ∧
      listed ((VlanCall.runAll blankTable (promptCalls "4095".toList)).1.vlanDump egTagRun
        fun _ => ⟨true, fun _ => true⟩) ≠
        expected ((promptCalls "4095".toList).foldl VlanCall.asks fun _ => none)) ∧
    ¬Spaced (blankTable.vlanClear stuckClear).trace := by
  have inTime := runAll_prompt "4095".toList blankTable
  have dumped := vlanDump_prompt egTagRun
    (VlanCall.runAll blankTable (promptCalls "4095".toList)).1
    (fun _ => rfl : ∀ k, ((fun _ => ⟨true, fun _ => true⟩ : Nat → Wait) k).idle 0 = true)
  have spaced := VlanEngine.vlanClear_spaced stuckClear blankTable
  refine ⟨⟨inTime, dumped, fun same => ?_⟩, mt spaced.1 fun all => ?_⟩
  · have lines := @listed_vlanDump egTagRun blankTable [] [promptSet "4095".toList]
      (fun _ => promptClear) _ rfl inTime rfl rfl dumped
    have last := ((expected_eq_iff _).1 (lines.symm.trans same)).2
    have set : ((promptCalls "4095".toList).foldl VlanCall.asks (fun _ => none) 4095).isSome =
        true := by
      decide +kernel
    exact nomatch (congrArg Option.isSome last).symm.trans set
  · rcases all 1 (by decide) with finds | gap
    · obtain ⟨j, idle, -⟩ := finds 0 (Nat.zero_le 1)
      exact nomatch idle
    · exact absurd gap (by decide)

end MetaFilogic.Switch
