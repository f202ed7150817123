import MetaFilogic.Switch.Cli
import Mathlib.Data.Nat.Digits.Lemmas
import Mathlib.Tactic.IntervalCases

/-!
# Which commands program what they were given

A command whose arguments pass the checks programs their values exactly when the arguments are
numbers in range.
-/

namespace MetaFilogic.Switch

open Numerals WordParts

namespace Run

variable {r : Run} {i base width limit range n : Nat}

/-! ## Arguments -/

theorem setWidth_ofInt_toNat (v : Int) (narrow : width ≤ 64) :
    (((BitVec.ofInt 64 v).setWidth width).toNat : Int) = v % 2 ^ width := by
  have divides : (2 : Int) ^ width ∣ 2 ^ 64 := pow_dvd_pow 2 narrow
  rw [BitVec.toNat_setWidth, BitVec.toNat_ofInt, Int.natCast_mod,
    Int.toNat_of_nonneg (Int.emod_nonneg _ (by decide))]
  push_cast
  exact Int.emod_emod_of_dvd v divides

theorem checked_value (value : r.Value i base range n) (small : range ≤ limit)
    (room : limit < 2 ^ width) (narrow : width ≤ 64) : r.checked i base width limit = some n := by
  obtain ⟨s, present, known, le⟩ := value
  have wide : 2 ^ width ≤ 2 ^ 64 := Nat.pow_le_pow_right (by decide) narrow
  have converted := @strtoul_numeral r.einval _ _ _ known (by rw [Int.natAbs_natCast]; omega)
  have stored : ((BitVec.ofInt 64 (n : Int)).setWidth width).toNat = n := by
    rw [BitVec.ofInt_natCast, BitVec.toNat_setWidth, BitVec.toNat_ofNat,
      Nat.mod_eq_of_lt (show n < 2 ^ 64 by omega), Nat.mod_eq_of_lt (by omega)]
  rw [checked, present, Option.bind_eq_bind, Option.bind_some]
  dsimp only
  rw [converted]
  simp only [stored]
  exact if_neg (by simp; omega)

theorem checked_taken (read : r.checked i base width limit = some n) (narrow : width ≤ 64) :
    r.Taken i base width limit := by
  rw [checked, Option.bind_eq_bind] at read
  obtain ⟨s, present, read⟩ := Option.bind_eq_some_iff.1 read
  dsimp only at read
  split at read
  · exact nomatch read
  · rename_i passes
    push Not at passes
    obtain ⟨sound, whole, le⟩ := passes
    refine ⟨s, present, ?_⟩
    rcases strtoul_whole (Bool.eq_false_iff.2 sound) whole with ⟨v, known, fits⟩ | empty
    · refine .inl ⟨v, known, fits, ?_⟩
      rw [strtoul_numeral known fits] at le
      rw [← setWidth_ofInt_toNat v narrow]
      exact_mod_cast le
    · exact .inr empty

theorem checked_of_taken (taken : r.Taken i base width limit) (narrow : width ≤ 64) :
    ∃ n, r.checked i base width limit = some n := by
  obtain ⟨s, present, ⟨v, known, fits, le⟩ | ⟨rfl, silent⟩⟩ := taken
  · rw [checked, present, Option.bind_eq_bind, Option.bind_some]
    dsimp only
    rw [strtoul_numeral known fits]
    refine ⟨_, if_neg ?_⟩
    rw [← setWidth_ofInt_toNat v narrow] at le
    have stored : ((BitVec.ofInt 64 v).setWidth width).toNat ≤ limit := by exact_mod_cast le
    simpa using stored
  · rw [checked, present, Option.bind_eq_bind, Option.bind_some]
    dsimp only
    rw [strtoul_nil, silent]
    exact ⟨_, if_neg (by simp)⟩

theorem toInt_inRange_iff (x : BitVec 64) (small : limit < 2 ^ 31) :
    ¬((x.setWidth 32).toInt < 0 ∨ limit < (x.setWidth 32).toInt) ↔
      (x.setWidth 32).toNat ≤ limit := by
  rw [BitVec.toInt_eq_toNat_cond]
  split <;> omega

theorem ranged_value (value : r.Value i base range n) (le : range ≤ limit) (small : limit < 2 ^ 31) :
    r.ranged i base limit = some n := by
  obtain ⟨s, present, known, inRange⟩ := value
  have converted := @strtoul_numeral r.einval _ _ _ known (by rw [Int.natAbs_natCast]; omega)
  have stored : ((BitVec.ofInt 64 (n : Int)).setWidth 32).toInt = n := by
    have low : ((BitVec.ofInt 64 (n : Int)).setWidth 32).toNat = n := by
      rw [BitVec.ofInt_natCast, BitVec.toNat_setWidth, BitVec.toNat_ofNat,
        Nat.mod_eq_of_lt (show n < 2 ^ 64 by omega), Nat.mod_eq_of_lt (by omega)]
    rw [BitVec.toInt_eq_toNat_cond, if_pos (by omega), low]
  rw [ranged, present, Option.bind_eq_bind, Option.bind_some]
  dsimp only
  rw [converted]
  simp only [stored]
  rw [if_neg (by omega), Int.toNat_natCast]

theorem ranged_taken_iff (small : limit < 2 ^ 31) :
    (∃ n, r.ranged i base limit = some n) ↔ r.TakenInt i base limit := by
  constructor
  · rintro ⟨n, read⟩
    rw [ranged, Option.bind_eq_bind] at read
    obtain ⟨s, present, read⟩ := Option.bind_eq_some_iff.1 read
    refine ⟨s, present, fun m found => ?_⟩
    dsimp only at read
    split at read
    · exact nomatch read
    · rename_i passes
      have le := (toInt_inRange_iff _ small).1 passes
      rw [strtoul, found] at le
      dsimp only at le
      split at le
      · have most : ((BitVec.allOnes 64).setWidth 32).toNat = 2 ^ 32 - 1 := by decide
        dsimp only at le
        omega
      · rename_i fits
        refine ⟨Nat.not_le.1 fits, ?_⟩
        rw [← setWidth_ofInt_toNat m.value (by decide)]
        exact_mod_cast le
  · rintro ⟨s, present, fits⟩
    rw [ranged, present, Option.bind_eq_bind, Option.bind_some]
    dsimp only
    refine ⟨_, if_neg ((toInt_inRange_iff _ small).2 ?_)⟩
    rw [strtoul]
    cases found : scan base s with
    | none => exact Nat.zero_le _
    | some m =>
      obtain ⟨magnitude, le⟩ := fits m found
      dsimp only
      rw [if_neg (Nat.not_le.2 magnitude)]
      rw [← setWidth_ofInt_toNat m.value (by decide)] at le
      exact_mod_cast le

theorem InRange.value_of_checked (inRange : r.InRange i base range)
    (read : r.checked i base width limit = some n) (small : range ≤ limit)
    (room : limit < 2 ^ width) (narrow : width ≤ 64) : r.Value i base range n := by
  obtain ⟨m, value⟩ := inRange
  have same := (checked_value value small room narrow).symm.trans read
  exact Option.some_inj.1 same ▸ value

theorem InRange.value_of_ranged (inRange : r.InRange i base range)
    (read : r.ranged i base limit = some n) (le : range ≤ limit) (small : limit < 2 ^ 31) :
    r.Value i base range n := by
  obtain ⟨m, value⟩ := inRange
  have same := (ranged_value value le small).symm.trans read
  exact Option.some_inj.1 same ▸ value

theorem Value.le (value : r.Value i base range n) : n ≤ range := value.choose_spec.2.2

end Run

/-! ## Words -/

namespace Command

open FieldValue

theorem replaced_shift (old : BitVec 32) (lo width val : Nat) (inside : lo + width ≤ 32)
    (room : val < 2 ^ width) :
    Replaced old (old &&& ~~~((BitVec.allOnes width).setWidth 32 <<< lo) |||
      BitVec.ofNat 32 val <<< lo) [⟨lo, width, val⟩] := by
  have part := shift_eq_part (n := 32) (f := ⟨lo, width, val⟩) room
  rw [part]
  exact replaced_one (f := ⟨lo, width, val⟩) ⟨inside, room⟩ old

theorem replaced_shifted (lo width val : Nat) (inside : lo + width ≤ 32) (room : val < 2 ^ width) :
    Replaced 0#32 (BitVec.ofNat 32 val <<< lo) [⟨lo, width, val⟩] := by
  have part := shift_eq_part (n := 32) (f := ⟨lo, width, val⟩) room
  rw [part]
  exact replaced_part (f := ⟨lo, width, val⟩) ⟨inside, room⟩

theorem replaced_vtcr {base : BitVec 32} {vid : Nat} (clear : ∀ i < 12, base.getLsbD i = false)
    (le : vid ≤ 4095) : Replaced base (base + BitVec.ofNat 32 vid) [⟨0, 12, vid⟩] := by
  have word := replaced_shift base 0 12 vid (by decide) (by omega)
  have kept : base &&& ~~~((BitVec.allOnes 12).setWidth 32 <<< 0) = base := by
    refine BitVec.eq_of_getLsbD_eq fun i inside => ?_
    rw [BitVec.getLsbD_and]
    by_cases low : i < 12
    · rw [clear i low, Bool.false_and]
    · have mask : ∀ i < 32, 12 ≤ i →
          (~~~((BitVec.allOnes 12).setWidth 32 <<< 0)).getLsbD i = true := by decide
      rw [mask i inside (Nat.not_lt.1 low), Bool.and_true]
  have apart : base &&& BitVec.ofNat 32 vid = 0#32 := by
    refine BitVec.eq_of_getLsbD_eq fun i inside => ?_
    rw [BitVec.getLsbD_and, BitVec.getLsbD_zero]
    by_cases low : i < 12
    · rw [clear i low, Bool.false_and]
    · have bit : (BitVec.ofNat 32 vid).getLsbD i = false := by
        rw [BitVec.getLsbD_ofNat, Nat.testBit_lt_two_pow, Bool.and_false]
        exact Nat.lt_of_lt_of_le (show vid < 2 ^ 12 by omega)
          (Nat.pow_le_pow_right (by decide) (by omega))
      rw [bit, Bool.and_false]
  rw [kept, BitVec.shiftLeft_zero] at word
  rwa [BitVec.add_eq_or_of_and_eq_zero _ _ apart]

/-! ## Port maps -/

theorem tagWord_eq_join (tagPortMap : Nat) : Run.tagWord tagPortMap 7 =
    join 32 (tagFields tagPortMap) := by
  have counted : ∀ count, Run.tagWord tagPortMap count = join 32 ((List.range count).map fun i =>
      ⟨2 * i, 2, if tagPortMap.testBit i then 2 else 0⟩) := by
    intro count
    induction count with
    | zero => rfl
    | succ i ih =>
      rw [List.range_succ, List.map_append, join, List.foldl_append, ← join, ← ih, Run.tagWord,
        List.map_singleton, List.foldl_cons, List.foldl_nil]
      split
      · have part := shift_eq_part (n := 32) (f := ⟨2 * i, 2, 2⟩) (by decide : 2 < 2 ^ 2)
        rw [Nat.mul_comm i 2]
        exact congrArg _ part
      · have part := shift_eq_part (n := 32) (f := ⟨2 * i, 2, 0⟩) (by decide : 0 < 2 ^ 2)
        rw [← part]
        simp
  exact counted 7

theorem replaced_tagWord (tagPortMap : Nat) :
    Replaced 0#32 (Run.tagWord tagPortMap 7) (tagFields tagPortMap) := by
  rw [tagWord_eq_join]
  refine replaced_join (fun f inFields => ?_) ?_
  · obtain ⟨i, below, rfl⟩ := List.mem_map.1 inFields
    rw [List.mem_range] at below
    exact ⟨by dsimp only; omega, by dsimp only; split <;> decide⟩
  · refine List.pairwise_map.2 (List.pairwise_lt_range.imp fun lower => .inl ?_)
    dsimp only
    omega

theorem tagWord_ne_zero_iff : ∀ tagPortMap ≤ 127,
    (Run.tagWord tagPortMap 7 ≠ 0#32 ↔ tagPortMap ≠ 0) := by
  decide +kernel

theorem mem_portFields {lo width : Nat} {digits : List Nat} {f : FieldValue} :
    f ∈ portFields lo width digits ↔
      ∃ i d, digits[i]? = some d ∧ f = ⟨lo + width * i, width, d⟩ := by
  constructor
  · intro inFields
    obtain ⟨⟨d, i⟩, digit, rfl⟩ := List.mem_map.1 inFields
    exact ⟨i, d, List.mem_zipIdx_iff_getElem?.1 digit, rfl⟩
  · rintro ⟨i, d, digit, rfl⟩
    exact List.mem_map.2 ⟨(d, i), List.mem_zipIdx_iff_getElem?.2 digit, rfl⟩

theorem egTag_eq_join {digits : List Nat} (small : ∀ d ∈ digits, d < 4) :
    Run.egTag digits = join 32 (portFields 0 2 digits) := by
  rw [Run.egTag, join, portFields, List.foldl_map]
  refine List.foldl_ext _ _ _ fun tag digit inDigits => ?_
  have member : digit.1 ∈ digits := List.fst_mem_of_mem_zipIdx inDigits
  have part := shift_eq_part (n := 32) (f := ⟨2 * digit.2, 2, digit.1⟩) (small _ member)
  rw [Nat.zero_add, ← part, Nat.mul_comm]

theorem portFields_apart (lo width : Nat) (digits : List Nat) :
    (portFields lo width digits).Pairwise FieldValue.Apart := by
  have indices : digits.zipIdx.Pairwise fun digit later => digit.2 < later.2 := by
    rw [← List.pairwise_map, List.zipIdx_map_snd]
    exact List.pairwise_lt_range'
  refine List.pairwise_map.2 (indices.imp fun {digit later} lower => .inl ?_)
  have next := Nat.mul_le_mul_left width (Nat.succ_le_of_lt lower)
  rw [Nat.mul_succ] at next
  dsimp only
  omega

theorem replaced_egTag {digits : List Nat} (small : ∀ d ∈ digits, d < 4)
    (short : digits.length ≤ 16) : Replaced 0#32 (Run.egTag digits) (portFields 0 2 digits) := by
  rw [egTag_eq_join small]
  refine replaced_join (fun f inFields => ?_) (portFields_apart _ _ _)
  obtain ⟨i, d, digit, rfl⟩ := mem_portFields.1 inFields
  obtain ⟨below, -⟩ := List.getElem?_eq_some_iff.1 digit
  exact ⟨by dsimp only; omega, small d (List.mem_of_getElem? digit)⟩

theorem vlanMem_digit {digits : List Nat} {i d : Nat} (small : ∀ d ∈ digits, d < 2)
    (digit : digits[i]? = some d) : Run.vlanMem digits / 2 ^ i % 2 = d := by
  obtain ⟨below, rfl⟩ := List.getElem?_eq_some_iff.1 digit
  rw [Run.vlanMem, ← Nat.ofDigits_eq_sum_mapIdx,
    Nat.ofDigits_div_pow_eq_ofDigits_drop i (by decide) digits small,
    List.drop_eq_getElem_cons below, Nat.ofDigits_cons]
  have bit := small _ (List.getElem_mem below)
  omega

theorem replaced_vlanMem {digits : List Nat} (small : ∀ d ∈ digits, d < 2)
    (eight : digits.length = 8) :
    Replaced 0#32 (BitVec.ofNat 32 (Run.vlanMem digits) <<< 16) (portFields 16 1 digits) := by
  have room : Run.vlanMem digits < 2 ^ 8 := by
    have bound := Nat.ofDigits_lt_base_pow_length (by decide : 1 < 2) small
    rwa [Run.vlanMem, ← Nat.ofDigits_eq_sum_mapIdx, ← eight]
  have whole := replaced_shifted 16 8 _ (by decide) room
  constructor
  · intro f inFields
    obtain ⟨i, d, digit, rfl⟩ := mem_portFields.1 inFields
    have shifted : (BitVec.ofNat 32 (Run.vlanMem digits) <<< 16).toNat =
        2 ^ 16 * Run.vlanMem digits := by
      rw [BitVec.toNat_shiftLeft, BitVec.toNat_ofNat, Nat.shiftLeft_eq,
        Nat.mod_eq_of_lt (show Run.vlanMem digits < 2 ^ 32 by omega), Nat.mod_eq_of_lt (by omega),
        Nat.mul_comm]
    dsimp only
    rw [BitVec.extractLsb'_toNat, shifted, Nat.shiftRight_eq_div_pow, Nat.one_mul, Nat.pow_add,
      Nat.mul_div_mul_left _ _ (Nat.pow_pos (by decide)), Nat.pow_one]
    exact vlanMem_digit small digit
  · intro i outside
    refine whole.others i fun f one => ?_
    obtain rfl := List.mem_singleton.1 one
    rintro ⟨low, high⟩
    have below : i - 16 < digits.length := by
      dsimp only at low high
      omega
    refine outside _ (mem_portFields.2 ⟨i - 16, _, List.getElem?_eq_getElem below, rfl⟩) ?_
    dsimp only [FieldValue.Covers] at low high ⊢
    omega

variable {r : Run}

theorem aclPortEnable_exact : (∀ ws, aclPortEnable.run r = some ws → aclPortEnable.Programs r ws) ↔
    (aclPortEnable.AllTaken r → aclPortEnable.AllInRange r) := by
  constructor
  · rintro sound ⟨portTaken, enTaken⟩
    obtain ⟨port, portRead⟩ := Run.checked_of_taken portTaken (by decide)
    obtain ⟨en, enRead⟩ := Run.checked_of_taken enTaken (by decide)
    obtain ⟨_, _, _, port, en, _⟩ := sound _ (by
      rw [run, Run.aclPortEnable, MAX_PORT, portRead, enRead]
      rfl)
    exact ⟨⟨_, port⟩, ⟨_, en⟩⟩
  · intro exact_ ws ran
    simp only [run, Run.aclPortEnable, Option.bind_eq_bind, Option.bind_eq_some_iff] at ran
    obtain ⟨port, portRead, en, enRead, written⟩ := ran
    obtain ⟨portIn, enIn⟩ := exact_ ⟨Run.checked_taken portRead (by decide),
      Run.checked_taken enRead (by decide)⟩
    have portValue := portIn.value_of_checked portRead (by decide) (by decide) (by decide)
    have enValue := enIn.value_of_checked enRead (by decide) (by decide) (by decide)
    have le := enValue.le
    exact ⟨port, en, _, portValue, enValue, (Option.some_inj.1 written).symm,
      replaced_shift _ 10 1 en (by decide) (by omega)⟩

theorem doVlanSetPvid_exact : (∀ ws, doVlanSetPvid.run r = some ws → doVlanSetPvid.Programs r ws) ↔
    (doVlanSetPvid.AllTaken r → doVlanSetPvid.AllInRange r) := by
  have within : ∀ {port}, r.checked 3 10 8 6 = some port → ¬port > 6 := fun read => by
    rw [Run.checked, Option.bind_eq_bind] at read
    obtain ⟨s, -, read⟩ := Option.bind_eq_some_iff.1 read
    dsimp only at read
    split at read
    · exact nomatch read
    · obtain rfl := Option.some_inj.1 read
      omega
  constructor
  · rintro sound ⟨portTaken, pvidTaken⟩
    obtain ⟨port, portRead⟩ := Run.checked_of_taken portTaken (by decide)
    obtain ⟨pvid, pvidRead⟩ := Run.checked_of_taken pvidTaken (by decide)
    obtain ⟨_, _, _, port, pvid, _⟩ := sound _ (by
      rw [run, Run.doVlanSetPvid, MAX_PORT, MAX_VID_VALUE, portRead, pvidRead]
      exact if_neg (within portRead))
    exact ⟨⟨_, port⟩, ⟨_, pvid⟩⟩
  · intro exact_ ws ran
    simp only [run, Run.doVlanSetPvid, Option.bind_eq_bind, Option.bind_eq_some_iff] at ran
    obtain ⟨port, portRead, pvid, pvidRead, written⟩ := ran
    obtain ⟨portIn, pvidIn⟩ := exact_ ⟨Run.checked_taken portRead (by decide),
      Run.checked_taken pvidRead (by decide)⟩
    have portValue := portIn.value_of_checked portRead (by decide) (by decide) (by decide)
    have pvidValue := pvidIn.value_of_checked pvidRead (by decide) (by decide) (by decide)
    have le := pvidValue.le
    rw [Run.macMT753xVlanSetPvid, if_neg (within portRead)] at written
    have word := replaced_shift (r.regs (0x2014 + port * 0x100)) 0 12 pvid (by decide) (by omega)
    rw [BitVec.shiftLeft_zero, BitVec.shiftLeft_zero] at word
    exact ⟨port, pvid, _, portValue, pvidValue, (Option.some_inj.1 written).symm, word⟩

theorem doStp_exact : (∀ ws, doStp.run r = some ws → doStp.Programs r ws) ↔
    (doStp.AllTaken r → doStp.AllInRange r) := by
  constructor
  · rintro sound ⟨portTaken, fidTaken, stateTaken⟩
    obtain ⟨port, portRead⟩ := Run.checked_of_taken portTaken (by decide)
    obtain ⟨fid, fidRead⟩ := Run.checked_of_taken fidTaken (by decide)
    obtain ⟨state, stateRead⟩ := Run.checked_of_taken stateTaken (by decide)
    obtain ⟨_, _, _, _, port, fid, state, _⟩ := sound _ (by
      rw [run, Run.doStp, MAX_PORT, portRead, fidRead, stateRead]
      rfl)
    exact ⟨⟨_, port⟩, ⟨_, fid⟩, ⟨_, state⟩⟩
  · intro exact_ ws ran
    simp only [run, Run.doStp, Option.bind_eq_bind, Option.bind_eq_some_iff] at ran
    obtain ⟨port, portRead, fid, fidRead, state, stateRead, written⟩ := ran
    obtain ⟨portIn, fidIn, stateIn⟩ := exact_ ⟨Run.checked_taken portRead (by decide),
      Run.checked_taken fidRead (by decide), Run.checked_taken stateRead (by decide)⟩
    have portValue := portIn.value_of_checked portRead (by decide) (by decide) (by decide)
    have fidValue := fidIn.value_of_checked fidRead (by decide) (by decide) (by decide)
    have stateValue := stateIn.value_of_checked stateRead (by decide) (by decide) (by decide)
    have fidLe := fidValue.le
    have stateLe := stateValue.le
    exact ⟨port, fid, state, _, portValue, fidValue, stateValue, (Option.some_inj.1 written).symm,
      replaced_shift _ (fid * 4) 2 state (by omega) (by omega)⟩

theorem doVlanSetPortMode_exact :
    (∀ ws, doVlanSetPortMode.run r = some ws → doVlanSetPortMode.Programs r ws) ↔
      (doVlanSetPortMode.AllTaken r → doVlanSetPortMode.AllInRange r) := by
  constructor
  · rintro sound ⟨portTaken, modeTaken⟩
    obtain ⟨port, portRead⟩ := Run.checked_of_taken portTaken (by decide)
    obtain ⟨mode, modeRead⟩ := Run.checked_of_taken modeTaken (by decide)
    obtain ⟨_, _, _, port, mode, _⟩ := sound _ (by
      rw [run, Run.doVlanSetPortMode, MAX_PORT, portRead, modeRead]
      rfl)
    exact ⟨⟨_, port⟩, ⟨_, mode⟩⟩
  · intro exact_ ws ran
    simp only [run, Run.doVlanSetPortMode, Option.bind_eq_bind, Option.bind_eq_some_iff] at ran
    obtain ⟨port, portRead, mode, modeRead, written⟩ := ran
    obtain ⟨portIn, modeIn⟩ := exact_ ⟨Run.checked_taken portRead (by decide),
      Run.checked_taken modeRead (by decide)⟩
    have portValue := portIn.value_of_checked portRead (by decide) (by decide) (by decide)
    have modeValue := modeIn.value_of_checked modeRead (by decide) (by decide) (by decide)
    have le := modeValue.le
    have low : BitVec.ofNat 32 mode &&& 0x3#32 = BitVec.ofNat 32 mode := by
      interval_cases mode <;> decide
    have word := replaced_shift (r.regs (0x2004 + port * 0x100)) 0 2 mode (by decide) (by omega)
    rw [BitVec.shiftLeft_zero, BitVec.shiftLeft_zero, ← low] at word
    exact ⟨port, mode, _, portValue, modeValue, (Option.some_inj.1 written).symm, word⟩

theorem doMirrorEn_exact : (∀ ws, doMirrorEn.run r = some ws → doMirrorEn.Programs r ws) ↔
    (doMirrorEn.AllTaken r → doMirrorEn.AllInRange r) := by
  constructor
  · rintro sound ⟨enTaken, portTaken⟩
    obtain ⟨en, enRead⟩ := Run.checked_of_taken enTaken (by decide)
    obtain ⟨port, portRead⟩ := Run.checked_of_taken portTaken (by decide)
    obtain ⟨_, _, _, en, port, _⟩ := sound _ (by
      rw [run, Run.doMirrorEn, REG_CFC_MIRROR_PORT_RELMASK, enRead, portRead]
      rfl)
    exact ⟨⟨_, en⟩, ⟨_, port⟩⟩
  · intro exact_ ws ran
    simp only [run, Run.doMirrorEn, Option.bind_eq_bind, Option.bind_eq_some_iff] at ran
    obtain ⟨en, enRead, port, portRead, written⟩ := ran
    obtain ⟨enIn, portIn⟩ := exact_ ⟨Run.checked_taken enRead (by decide),
      Run.checked_taken portRead (by decide)⟩
    have enValue := enIn.value_of_checked enRead (by decide) (by decide) (by decide)
    have portValue := portIn.value_of_checked portRead (by decide) (by decide) (by decide)
    have enLe := enValue.le
    have portLe := portValue.le
    have first := replaced_shift (r.regs 0x4) 19 1 en (by decide) (by omega)
    have word := first.trans (replaced_shift _ 16 3 port (by decide) (by omega)) (by
      simp [FieldValue.Apart])
    exact ⟨en, port, _, enValue, portValue, (Option.some_inj.1 written).symm, word⟩

/-! ## The VLAN commands -/

end Command

namespace Run

variable {r : Run} {i base width limit range n : Nat} {read : Option Nat}

theorem optional_taken (done : r.optional i read = some n) : r.Unless i (∃ m, read = some m) := by
  intro present
  rw [optional, if_pos present] at done
  exact ⟨n, done⟩

theorem optional_of_taken (taken : r.Unless i (∃ m, read = some m)) :
    ∃ n, r.optional i read = some n := by
  by_cases present : i < r.argv.length
  · rw [optional, if_pos present]
    exact taken present
  · exact ⟨0, if_neg present⟩

theorem optional_value (done : r.optional i read = some n)
    (value : r.Unless i (∀ m, read = some m → r.Value i base range m)) :
    r.OptionalValue i base range n := by
  rw [OptionalValue]
  by_cases present : i < r.argv.length
  · rw [optional, if_pos present] at done
    rw [if_pos present]
    exact value present n done
  · rw [optional, if_neg present] at done
    rw [if_neg present]
    exact (Option.some_inj.1 done).symm

theorem OptionalValue.le (value : r.OptionalValue i base range n) : n ≤ range := by
  rw [OptionalValue] at value
  split at value
  · exact value.le
  · omega

theorem OptionalValue.inRange (value : r.OptionalValue i base range n) :
    r.Unless i (r.InRange i base range) := by
  intro present
  rw [OptionalValue, if_pos present] at value
  exact ⟨n, value⟩

end Run

namespace Command

open FieldValue

variable {r : Run}

theorem replaced_vawd1 {active ports tags ivl fid stag : Nat} (portsLe : ports ≤ 255)
    (stagLe : stag ≤ 4095) (ivlLe : ivl ≤ 1) (fidLe : fid ≤ 7) (activeLe : active ≤ 1)
    (tagsLe : tags ≤ 127) :
    Replaced 0#32
      (let value := BitVec.ofNat 32 ports <<< 16 ||| BitVec.ofNat 32 stag <<< 4 |||
        BitVec.ofNat 32 ivl <<< 30 ||| BitVec.ofNat 32 fid <<< 1 |||
        if active ≠ 0 then 1#32 else 0#32
      if Run.tagWord tags 7 ≠ 0#32 then value ||| 1#32 <<< 28 else value)
      [⟨16, 8, ports⟩, ⟨4, 12, stag⟩, ⟨30, 1, ivl⟩, ⟨1, 3, fid⟩, ⟨0, 1, active⟩,
        ⟨28, 1, if tags = 0 then 0 else 1⟩] := by
  have activeBit : (if active ≠ 0 then 1#32 else 0#32) = BitVec.ofNat 32 active <<< 0 := by
    interval_cases active <;> rfl
  have tagBit : ∀ value : BitVec 32,
      (if Run.tagWord tags 7 ≠ 0#32 then value ||| 1#32 <<< 28 else value) =
        value ||| BitVec.ofNat 32 (if tags = 0 then 0 else 1) <<< 28 := by
    intro value
    by_cases none : tags = 0
    · rw [if_neg fun tagged => (tagWord_ne_zero_iff tags tagsLe).1 tagged none, if_pos none]
      exact BitVec.or_zero.symm
    · rw [if_pos ((tagWord_ne_zero_iff tags tagsLe).2 none), if_neg none]
  have tagRoom : (if tags = 0 then 0 else 1) < 2 ^ 1 := by split <;> decide
  have word := ((((replaced_shifted 16 8 ports (by decide)
    (by omega)).or (replaced_shifted 4 12 stag (by decide) (by omega))
    (by simp [FieldValue.Apart])).or
    (replaced_shifted 30 1 ivl (by decide) (by omega))
    (by simp [FieldValue.Apart])).or
    (replaced_shifted 1 3 fid (by decide) (by omega))
    (by simp [FieldValue.Apart])).or
    (replaced_shifted 0 1 active (by decide) (by omega))
    (by simp [FieldValue.Apart])
  have tagged := word.or (replaced_shifted 28 1 _ (by decide) tagRoom)
    (by simp [FieldValue.Apart])
  dsimp only
  rw [activeBit, tagBit]
  exact tagged

theorem doVlanSetVid_exact : (∀ ws, doVlanSetVid.run r = some ws → doVlanSetVid.Programs r ws) ↔
    (doVlanSetVid.AllTaken r → doVlanSetVid.AllInRange r) := by
  constructor
  · rintro sound ⟨indexTaken, activeTaken, vidTaken, portsTaken, tagsTaken, ivlTaken, fidTaken,
      stagTaken⟩
    obtain ⟨index, indexRead⟩ := Run.checked_of_taken indexTaken (by decide)
    obtain ⟨active, activeRead⟩ := Run.checked_of_taken activeTaken (by decide)
    obtain ⟨vid, vidRead⟩ := Run.checked_of_taken vidTaken (by decide)
    obtain ⟨ports, portsRead⟩ := Run.checked_of_taken portsTaken (by decide)
    obtain ⟨tags, tagsRead⟩ := Run.checked_of_taken tagsTaken (by decide)
    obtain ⟨ivl, ivlRead⟩ := Run.optional_of_taken (r := r) (i := 8)
      fun present => Run.checked_of_taken (ivlTaken present) (by decide)
    obtain ⟨fid, fidRead⟩ := Run.optional_of_taken (r := r) (i := 9)
      fun present => Run.checked_of_taken (fidTaken present) (by decide)
    obtain ⟨stag, stagRead⟩ := Run.optional_of_taken (r := r) (i := 10)
      fun present => Run.checked_of_taken (stagTaken present) (by decide)
    obtain ⟨_, _, _, _, _, _, _, _, _, _, _, index, active, vid, ports, tags, ivl, fid, stag, _⟩ :=
      sound _ (by
        rw [run, Run.doVlanSetVid, show MAX_VLAN_RULE - 1 = 15 from rfl, ACTIVED, indexRead,
          activeRead, vidRead]
        simp only [Run.unlimited, show 2 ^ 8 - 1 = 255 from rfl, show 2 ^ 16 - 1 = 65535 from rfl,
          Option.bind_eq_bind, Option.bind_some]
        rw [portsRead, tagsRead]
        simp only [Option.bind_some]
        rw [ivlRead, fidRead, stagRead]
        rfl)
    exact ⟨⟨_, index⟩, ⟨_, active⟩, ⟨_, vid⟩, ⟨_, ports⟩, ⟨_, tags⟩, ivl.inRange, fid.inRange,
      stag.inRange⟩
  · intro exact_ ws ran
    simp only [run, Run.doVlanSetVid, show MAX_VLAN_RULE - 1 = 15 from rfl, ACTIVED, Run.unlimited,
      show 2 ^ 8 - 1 = 255 from rfl, show 2 ^ 16 - 1 = 65535 from rfl, Option.bind_eq_bind,
      Option.bind_eq_some_iff] at ran
    obtain ⟨index, indexRead, active, activeRead, vid, vidRead, ports, portsRead, tags, tagsRead,
      ivl, ivlRead, fid, fidRead, stag, stagRead, written⟩ := ran
    obtain ⟨indexIn, activeIn, vidIn, portsIn, tagsIn, ivlIn, fidIn, stagIn⟩ := exact_
      ⟨Run.checked_taken indexRead (by decide), Run.checked_taken activeRead (by decide),
        Run.checked_taken vidRead (by decide), Run.checked_taken portsRead (by decide),
        Run.checked_taken tagsRead (by decide),
        fun present => Run.checked_taken (Run.optional_taken ivlRead present).choose_spec (by decide),
        fun present => Run.checked_taken (Run.optional_taken fidRead present).choose_spec (by decide),
        fun present => Run.checked_taken (Run.optional_taken stagRead present).choose_spec
          (by decide)⟩
    have activeValue := activeIn.value_of_checked activeRead (by decide) (by decide) (by decide)
    have vidValue := vidIn.value_of_checked vidRead (by decide) (by decide) (by decide)
    have portsValue := portsIn.value_of_checked portsRead (by decide) (by decide) (by decide)
    have tagsValue := tagsIn.value_of_checked tagsRead (by decide) (by decide) (by decide)
    have ivlValue : r.OptionalValue 8 10 1 ivl := Run.optional_value ivlRead fun present _ read =>
      (ivlIn present).value_of_checked read (by decide) (by decide) (by decide)
    have fidValue : r.OptionalValue 9 16 7 fid := Run.optional_value fidRead fun present _ read =>
      (fidIn present).value_of_checked read (by decide) (by decide) (by decide)
    have stagValue : r.OptionalValue 10 10 4095 stag :=
      Run.optional_value stagRead fun present _ read =>
        (stagIn present).value_of_checked read (by decide) (by decide) (by decide)
    exact ⟨index, active, vid, ports, tags, ivl, fid, stag, _, _, _,
      indexIn.value_of_checked indexRead (by decide) (by decide) (by decide), activeValue, vidValue,
      portsValue, tagsValue, ivlValue, fidValue, stagValue, (Option.some_inj.1 written).symm,
      replaced_tagWord tags, replaced_vawd1 portsValue.le stagValue.le ivlValue.le fidValue.le
        activeValue.le tagsValue.le, replaced_vtcr (by decide) vidValue.le⟩

/-! ## `vlan_set` -/

end Command

namespace Run

variable {r : Run} {i n : Nat} {high : Char} {digits : List Nat}

theorem portDigits_length (read : r.portDigits i high = some digits) : digits.length = 8 := by
  rw [portDigits, Option.bind_eq_bind] at read
  obtain ⟨s, -, read⟩ := Option.bind_eq_some_iff.1 read
  split at read
  · exact nomatch read
  · rename_i passes
    push Not at passes
    obtain rfl := Option.some_inj.1 read
    rw [List.length_map]
    exact passes.1

theorem portDigits_small (read : r.portDigits i high = some digits) :
    ∀ d ∈ digits, d ≤ high.toNat - '0'.toNat := by
  rw [portDigits, Option.bind_eq_bind] at read
  obtain ⟨s, -, read⟩ := Option.bind_eq_some_iff.1 read
  split at read
  · exact nomatch read
  · rename_i passes
    push Not at passes
    obtain rfl := Option.some_inj.1 read
    intro d inDigits
    obtain ⟨c, inText, rfl⟩ := List.mem_map.1 inDigits
    have le : c.toNat ≤ high.toNat := (passes.2 c inText).2
    exact Nat.sub_le_sub_right le _

theorem InRange.value_of_egCon (inRange : r.InRange 7 2 1) (read : r.egCon = some n) :
    r.Value 7 2 1 n := by
  obtain ⟨m, s, present, known, le⟩ := inRange
  have converted := @strtoul_numeral r.einval _ _ _ known (by rw [Int.natAbs_natCast]; omega)
  rw [egCon, present, Option.bind_eq_bind, Option.bind_some] at read
  rw [converted, BitVec.ofInt_natCast] at read
  obtain rfl := Option.some_inj.1 read
  refine ⟨s, present, ?_, by split <;> decide⟩
  interval_cases m <;> exact known

end Run

theorem Run.tagDigits_sound {r : Run} {eg : Nat} {digits : List Nat}
    (read : r.tagDigits eg = some digits) : (∀ d ∈ digits, d < 4) ∧ digits.length ≤ 16 := by
  rw [tagDigits] at read
  split at read
  · refine ⟨fun d inTags => Nat.lt_succ_of_le (portDigits_small read d inTags), ?_⟩
    rw [portDigits_length read]
    decide
  · obtain rfl := Option.some_inj.1 read
    exact ⟨fun d inTags => (List.not_mem_nil inTags).elim, by decide⟩

namespace Command

open FieldValue

variable {r : Run}

theorem replaced_vlanSet {fid stag eg : Nat} {member : List Nat} {present tagged : Prop}
    [Decidable present] [Decidable tagged] (fidLe : fid ≤ 7) (small : ∀ d ∈ member, d < 2)
    (eight : member.length = 8) (stagLe : stag ≤ 4095) (egLe : eg ≤ 1)
    (absent : ¬present → eg = 0) (given : tagged → present) :
    Replaced 0#32
      (let value := BitVec.ofNat 32 fid <<< 1 ||| BitVec.ofNat 32 (Run.vlanMem member) <<< 16 |||
        1#32 <<< 30 ||| (BitVec.ofNat 32 stag &&& 0xfff#32) <<< 4 ||| 1#32
      let value := if present then value ||| BitVec.ofNat 32 eg <<< 29 ||| 1#32 <<< 28 else value
      if tagged then value ||| 1#32 <<< 28 else value)
      ([⟨1, 3, fid⟩] ++ portFields 16 1 member ++ [⟨30, 1, 1⟩] ++ [⟨4, 12, stag⟩] ++
        [⟨0, 1, 1⟩] ++ [⟨29, 1, eg⟩] ++ [⟨28, 1, if present then 1 else 0⟩]) := by
  have stagWord : BitVec.ofNat 32 stag &&& 0xfff#32 = BitVec.ofNat 32 stag := by
    refine BitVec.eq_of_toNat_eq ?_
    rw [BitVec.toNat_and, BitVec.toNat_ofNat, Nat.mod_eq_of_lt (by omega)]
    exact (Nat.and_two_pow_sub_one_eq_mod stag 12).trans (Nat.mod_eq_of_lt (by omega))
  have bits : ∀ value : BitVec 32,
      (let value := if present then value ||| BitVec.ofNat 32 eg <<< 29 ||| 1#32 <<< 28 else value
      if tagged then value ||| 1#32 <<< 28 else value) =
        value ||| BitVec.ofNat 32 eg <<< 29 |||
          BitVec.ofNat 32 (if present then 1 else 0) <<< 28 := by
    intro value
    by_cases here : present
    · by_cases again : tagged
      · simp only [here, again, if_true, BitVec.or_assoc, BitVec.or_self]
      · simp only [here, again, if_true, if_false]
    · simp only [here, mt given here, absent here, if_false, BitVec.zero_shiftLeft,
        BitVec.or_zero]
  have presentRoom : (if present then 1 else 0) < 2 ^ 1 := by split <;> decide
  have ports : ∀ f ∈ portFields 16 1 member, 16 ≤ f.lo ∧ f.lo + f.width ≤ 24 := by
    intro f inFields
    obtain ⟨i, d, digit, rfl⟩ := mem_portFields.1 inFields
    obtain ⟨below, -⟩ := List.getElem?_eq_some_iff.1 digit
    dsimp only
    omega
  have word := ((((((replaced_shifted 1 3 fid (by decide) (by omega)).or
    (replaced_vlanMem small eight) ?_).or (replaced_shifted 30 1 1 (by decide) (by decide)) ?_).or
    (replaced_shifted 4 12 stag (by decide) (by omega)) ?_).or
    (replaced_shifted 0 1 1 (by decide) (by decide)) ?_).or
    (replaced_shifted 29 1 eg (by decide) (by omega)) ?_).or
    (replaced_shifted 28 1 _ (by decide) presentRoom) ?_
  · have same := bits (BitVec.ofNat 32 fid <<< 1 |||
      BitVec.ofNat 32 (Run.vlanMem member) <<< 16 ||| 1#32 <<< 30 |||
      (BitVec.ofNat 32 stag &&& 0xfff#32) <<< 4 ||| 1#32)
    dsimp only at same ⊢
    rw [same, stagWord]
    exact word
  all_goals
    intro f early g late
    simp only [List.mem_append, List.mem_singleton] at early late
    unfold FieldValue.Apart
    grind

theorem vlanSet_exact : (∀ ws, vlanSet.run r = some ws → vlanSet.Programs r ws) ↔
    (vlanSet.AllTaken r → vlanSet.AllInRange r) := by
  constructor
  · rintro sound ⟨fidTaken, vidTaken, memberTaken, stagTaken, tagsTaken⟩
    obtain ⟨fid, fidRead⟩ := (Run.ranged_taken_iff (by decide)).2 fidTaken
    obtain ⟨vid, vidRead⟩ := (Run.ranged_taken_iff (by decide)).2 vidTaken
    obtain ⟨member, memberRead⟩ := Option.isSome_iff_exists.1 memberTaken
    obtain ⟨stag, stagRead⟩ := Run.optional_of_taken (r := r) (i := 6)
      fun present => (Run.ranged_taken_iff (by decide)).2 (stagTaken present)
    obtain ⟨eg, egRead⟩ : ∃ n, r.optional 7 r.egCon = some n := Run.optional_of_taken
      fun present => ⟨_, by rw [Run.egCon, List.getElem?_eq_getElem present]; rfl⟩
    have tagsRead : ∃ tags, r.tagDigits eg = some tags := by
      rw [Run.tagDigits]
      split
      · rename_i tagged
        rw [Run.optional, if_pos (by omega)] at egRead
        exact Option.isSome_iff_exists.1 (tagsTaken tagged.1 (tagged.2 ▸ egRead))
      · exact ⟨[], rfl⟩
    obtain ⟨tags, tagsRead⟩ := tagsRead
    obtain ⟨_, _, _, _, _, _, _, _, _, fid, vid, -, stag, eg, _⟩ := sound _ (by
      rw [run, Run.vlanSet, fidRead, vidRead, memberRead, stagRead, egRead]
      simp only [Option.bind_eq_bind, Option.bind_some]
      rw [tagsRead]
      rfl)
    exact ⟨⟨_, fid⟩, ⟨_, vid⟩, stag.inRange, eg.inRange⟩
  · intro exact_ ws ran
    simp only [run, Run.vlanSet, Option.bind_eq_bind, Option.bind_eq_some_iff] at ran
    obtain ⟨fid, fidRead, vid, vidRead, member, memberRead, stag, stagRead, eg, egRead, tags,
      tagsRead, written⟩ := ran
    obtain ⟨fidIn, vidIn, stagIn, egIn⟩ := exact_
      ⟨(Run.ranged_taken_iff (by decide)).1 ⟨_, fidRead⟩,
        (Run.ranged_taken_iff (by decide)).1 ⟨_, vidRead⟩, Option.isSome_iff_exists.2 ⟨_, memberRead⟩,
        fun present => (Run.ranged_taken_iff (by decide)).1 (Run.optional_taken stagRead present),
        fun present zero => by
          rw [Run.optional, if_pos (by omega), zero] at egRead
          rw [Run.tagDigits, if_pos ⟨present, (Option.some_inj.1 egRead).symm⟩] at tagsRead
          exact Option.isSome_iff_exists.2 ⟨_, tagsRead⟩⟩
    have fidValue := fidIn.value_of_ranged fidRead (by decide) (by decide)
    have vidValue := vidIn.value_of_ranged vidRead (by decide) (by decide)
    have stagValue : r.OptionalValue 6 16 4095 stag :=
      Run.optional_value stagRead fun present _ read =>
        (stagIn present).value_of_ranged read (by decide) (by decide)
    have egValue : r.OptionalValue 7 2 1 eg := Run.optional_value egRead fun present _ read =>
      (egIn present).value_of_egCon read
    have digits := Run.portDigits_small memberRead
    have tagsSound := Run.tagDigits_sound tagsRead
    exact ⟨fid, vid, member, stag, eg, tags, _, _, _, fidValue, vidValue, memberRead, stagValue,
      egValue, tagsRead, (Option.some_inj.1 written).symm,
      replaced_vlanSet fidValue.le (fun d inMember => Nat.lt_succ_of_le (digits d inMember))
        (Run.portDigits_length memberRead) stagValue.le egValue.le
        (fun absent => by rwa [Run.OptionalValue, if_neg absent] at egValue) (fun tagged => by omega),
      replaced_egTag tagsSound.1 tagsSound.2, replaced_vtcr (by decide) vidValue.le⟩

/-- A command that writes programs what it was given, unless an argument passes the checks that is
not a number in range. -/
theorem programs_iff (c : Command) (r : Run) :
    (∀ ws, c.run r = some ws → c.Programs r ws) ↔ (c.AllTaken r → c.AllInRange r) := by
  cases c with
  | aclPortEnable => exact aclPortEnable_exact
  | doVlanSetPvid => exact doVlanSetPvid_exact
  | doVlanSetVid => exact doVlanSetVid_exact
  | doStp => exact doStp_exact
  | doVlanSetPortMode => exact doVlanSetPortMode_exact
  | doMirrorEn => exact doMirrorEn_exact
  | vlanSet => exact vlanSet_exact

/-- `switch acl enable 256 1` switches the access list of port 0 on. -/
theorem port_256_taken : ∃ r : Run, ∃ ws, aclPortEnable.run r = some ws ∧
    ¬aclPortEnable.Programs r ws ∧ ws = [⟨0x2004, 0x400#32⟩] := by
  refine ⟨⟨true, [[], [], [], ['2', '5', '6'], ['1']], fun _ => 0#32⟩, [⟨0x2004, 0x400#32⟩],
    by decide +kernel, ?_, rfl⟩
  rintro ⟨port, en, word, ⟨s, present, known, le⟩, -⟩
  obtain rfl := Option.some_inj.1 present
  have value : numeral 10 ['2', '5', '6'] = some 256 := by decide +kernel
  have same := Option.some_inj.1 (value.symm.trans known)
  omega

end Command

end MetaFilogic.Switch
