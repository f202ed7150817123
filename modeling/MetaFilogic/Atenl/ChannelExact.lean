import Mathlib.Tactic.IntervalCases
import MetaFilogic.Atenl.ChannelSearch

/-!
# Requests and the channels set for them

The searches are put together over the fields as the driver cuts them off, which settles for every
request whether the channel set is the one asked for.
-/

namespace MetaFilogic.Atenl

variable {w c sel : Nat}

theorem widthOf_cases {bw : BitVec 32} (width : widthOf bw = some w) :
    (bw = 0 ∧ w = 1) ∨ (bw = 1 ∧ w = 2) ∨ (bw = 2 ∧ w = 4) ∨ (bw = 5 ∧ w = 8) ∨
      (bw = 12 ∧ w = 16) := by
  unfold widthOf at width
  split_ifs at width <;> simp_all

theorem chanFor_single (chList : List Channel) (sel c : Nat) :
    chanFor chList 0 sel c = chanFor chList 0 0 c := by
  unfold chanFor
  cases searchChannel chList 0 c <;> rfl

theorem Listed.wide_iff {chList : List Channel} (listed : Listed chList) (inside : sel < 16) :
    Finds chList 12 16 c sel ↔ c ≠ 0 ∧ ∃ entry ∈ chList, c = entry.ch320₁ ∨ c = entry.ch320₂ := by
  constructor
  · intro finds
    refine ⟨?_, ?_⟩
    · rintro rfl
      exact listed.origin320 sel inside finds
    · obtain ⟨entry, chosen, -, -⟩ := finds.entry
      obtain ⟨chan, found, -⟩ := chanFor_eq_some chosen
      rw [show searchChannel chList 12 c = searchFrom (stops320 c) chList 0 from rfl] at found
      by_contra none_has
      push Not at none_has
      have : searchFrom (stops320 c) chList 0 = none := (searchFrom_eq_none 0).mpr fun entry member =>
        (stops320_eq_none entry).mpr (none_has entry member)
      rw [this] at found
      cases found
  · rintro ⟨nonzero, entry, member, same⟩
    refine listed.wide c ?_ nonzero sel inside
    rw [List.mem_dedup, List.mem_flatMap]
    exact ⟨entry, member, by simpa using same⟩

theorem Listed.finds_iff {chList : List Channel} {bw : BitVec 32} (listed : Listed chList)
    (width : widthOf bw = some w) (inside : w ≠ 1 → sel < w)
    (answered : chanFor chList (bw.setWidth 8) sel c ≠ none) :
    Finds chList (bw.setWidth 8) w c sel ↔ RightIn chList w c sel := by
  rcases widthOf_cases width with ⟨rfl, rfl⟩ | ⟨rfl, rfl⟩ | ⟨rfl, rfl⟩ | ⟨rfl, rfl⟩ | ⟨rfl, rfl⟩
  · rw [RightIn, if_pos rfl]
    constructor
    · intro finds
      obtain ⟨entry, -, member, wanted⟩ := finds.entry
      exact ⟨entry, member, by simpa [wantedChannel] using wanted⟩
    · rintro ⟨entry, member, rfl⟩
      have single := listed.single entry member
      rwa [Finds, ← chanFor_single chList sel] at single
  · rw [RightIn, if_neg (by decide), if_pos rfl]
    have inside := inside (by decide)
    constructor
    · intro finds
      obtain ⟨entry, -, member, wanted⟩ := finds.entry
      rw [wantedChannel, if_neg (by decide)] at wanted
      exact ⟨entry, member, by omega⟩
    · rintro ⟨entry, member, same⟩
      interval_cases sel
      · obtain rfl : c = entry.ch + 2 := by omega
        exact listed.lower entry member (Option.isSome_iff_ne_none.mpr answered)
      · obtain rfl : c = entry.ch - 2 := by omega
        exact listed.upper entry member (by omega)
  · rw [RightIn, if_neg (by decide), if_neg (by decide), if_pos rfl]
    exact listed.blocks80.finds_iff (by decide) (by decide) (fun _ => rfl) (inside (by decide))
  · rw [RightIn, if_neg (by decide), if_neg (by decide), if_neg (by decide), if_pos rfl]
    exact listed.blocks160.finds_iff (by decide) (by decide) (fun _ => rfl) (inside (by decide))
  · rw [RightIn, if_neg (by decide), if_neg (by decide), if_neg (by decide), if_neg (by decide)]
    exact listed.wide_iff (inside (by decide))

theorem RightIn.lt {chList : List Channel} (right : RightIn chList w c sel)
    (small : ∀ entry ∈ chList, entry.ch < 256 ∧ entry.ch80 < 256 ∧ entry.ch160 < 256 ∧
      entry.ch320₁ < 256 ∧ entry.ch320₂ < 256) : c < 300 := by
  have column {column : Channel → Nat} {w : Nat} (few : w ≤ 8)
      (bound : ∀ entry ∈ chList, column entry < 256)
      (right : RightByColumn column chList w c sel) : c < 300 := by
    rcases right with ⟨-, entry, member, same⟩ | ⟨-, -, entry, member, same⟩ |
      ⟨-, pair, member, same, -⟩
    · have := bound entry member
      omega
    · have := bound entry member
      omega
    · have := small pair.1 (List.of_mem_zip member).1
      omega
  unfold RightIn at right
  split_ifs at right
  · obtain ⟨entry, member, same⟩ := right
    have := small entry member
    omega
  · obtain ⟨entry, member, same⟩ := right
    have := small entry member
    omega
  · exact column (by omega) (fun entry member => (small entry member).2.1) right
  · exact column (by omega) (fun entry member => (small entry member).2.2.1) right
  · obtain ⟨-, entry, member, same⟩ := right
    have := small entry member
    omega

theorem tables_small : ∀ entry ∈ atenlChannels5ghz ++ atenlChannels6ghz,
    entry.ch < 256 ∧ entry.ch80 < 256 ∧ entry.ch160 < 256 ∧ entry.ch320₁ < 256 ∧
      entry.ch320₂ < 256 := by
  decide +kernel

section Requests

variable {req : SetChannelReq} {chList : List Channel}

variable {w : Nat}

/-- The channel of the table is the wanted one under the condition, whatever the driver cuts off
from the fields. -/
theorem Listed.right_iff (listed : Listed chList)
    (small : ∀ entry ∈ chList, entry.ch < 256 ∧ entry.ch80 < 256 ∧ entry.ch160 < 256 ∧
      entry.ch320₁ < 256 ∧ entry.ch320₂ < 256) (width : widthOf req.bw = some w)
    (inside : w ≠ 1 → req.priSel.toNat < w) {chan : Option Channel}
    (answered : chanFor chList (req.bw.setWidth 8) (req.priSel.setWidth 8 : BitVec 8).toNat
      (req.ch1.setWidth 16 : BitVec 16).toNat = some chan) :
    (∃ entry, chan = some entry ∧
        (entry.ch : Int) = wantedChannel w req.ch1.toNat req.priSel.toNat) ↔
      RightIn chList w req.ch1.toNat req.priSel.toNat := by
  have narrow : w = 1 ∨ (req.priSel.setWidth 8 : BitVec 8).toNat = req.priSel.toNat := by
    have := widthOf_cases width
    by_cases single : w = 1
    · exact .inl single
    · have := inside single
      rw [BitVec.toNat_setWidth, Nat.mod_eq_of_lt (by omega)]
      exact .inr rfl
  generalize (req.priSel.setWidth 8 : BitVec 8).toNat = sel8 at narrow answered
  have few : w ≤ 16 := by
    have := widthOf_cases width
    omega
  have same_wanted (c : Nat) : wantedChannel w c sel8 = wantedChannel w c req.priSel.toNat := by
    rcases narrow with rfl | same
    · rfl
    · rw [same]
  have same_right (c : Nat) : RightIn chList w c sel8 ↔ RightIn chList w c req.priSel.toNat := by
    rcases narrow with rfl | same
    · rfl
    · rw [same]
  by_cases short : req.ch1.toNat < 65536
  · rw [BitVec.toNat_setWidth, Nat.mod_eq_of_lt (by omega)] at answered
    have inside8 : w ≠ 1 → sel8 < w := fun single => by
      rw [narrow.resolve_left single]
      exact inside single
    rw [← same_right, ← listed.finds_iff width inside8 (by rw [answered]; simp), Finds, answered]
    cases chan with
    | none => simp
    | some entry => simp [same_wanted]
  · refine iff_of_false ?_ fun right => absurd (right.lt small) (by omega)
    rintro ⟨entry, rfl, wanted⟩
    obtain ⟨at_chan, -, member⟩ := chanFor_eq_some answered
    have := small entry (entryAt_mem member)
    unfold wantedChannel at wanted
    split_ifs at wanted <;> omega

theorem set_isSome (width : widthOf req.bw = some w) :
    ¬TEST_CBW_MAX < (req.bw.setWidth 8 : BitVec 8) := by
  rcases widthOf_cases width with ⟨is_bw, -⟩ | ⟨is_bw, -⟩ | ⟨is_bw, -⟩ | ⟨is_bw, -⟩ |
    ⟨is_bw, -⟩ <;> rw [is_bw] <;> decide

theorem iwCommand_iff {entry : Channel} {cmd : IwCommand}
    (table : tableOf req.chBand = some chList) (member : entry ∈ chList)
    (set : atenlSetChannel (req.bw.setWidth 8) (req.chBand.setWidth 8)
      (BitVec.ofNat 16 entry.ch) (req.ch1.setWidth 16) = some cmd) :
    cmd.ctrlCh.toNat = entry.ch ∧ cmd.Programs req.chBand := by
  unfold atenlSetChannel at set
  by_cases beyond : TEST_CBW_MAX < req.bw.setWidth 8
  · rw [if_pos beyond] at set
    cases set
  rw [if_neg beyond] at set
  obtain rfl := Option.some.inj set
  have small := tables_small entry
  unfold tableOf at table
  split_ifs at table with is5 is6
  all_goals obtain rfl := Option.some.inj table
  · have fits : entry.ch < 65536 := by
      have := small (by simp [member])
      omega
    refine ⟨by simpa using fits, .inr ⟨_, by rw [is5]; rfl, entry, member, ?_, ?_⟩⟩
    · simpa using fits
    · rw [is5]
      exact freq_eq.1 entry member
  · have fits : entry.ch < 65536 := by
      have := small (by simp [member])
      omega
    refine ⟨by simpa using fits, .inr ⟨_, by rw [is6]; rfl, entry, member, ?_, ?_⟩⟩
    · simpa using fits
    · rw [is6]
      exact freq_eq.2 entry member

theorem table_eq (table : tableOf req.chBand = some chList) :
    (if (req.chBand.setWidth 8 : BitVec 8) = CH_BAND_6GHZ then atenlChannels6ghz
      else atenlChannels5ghz) = chList ∧ Listed chList ∧
      ∀ entry ∈ chList, entry.ch < 256 ∧ entry.ch80 < 256 ∧ entry.ch160 < 256 ∧
        entry.ch320₁ < 256 ∧ entry.ch320₂ < 256 := by
  unfold tableOf at table
  split_ifs at table with is5 is6
  · rw [is5]
    obtain rfl := Option.some.inj table
    exact ⟨rfl, listed_5ghz, fun entry member => tables_small entry (by simp [member])⟩
  · rw [is6]
    obtain rfl := Option.some.inj table
    exact ⟨rfl, listed_6ghz, fun entry member => tables_small entry (by simp [member])⟩

theorem table_selects_iff (other : req.chBand ≠ 0) {chan : Option Channel}
    (answered : chanFor (if (req.chBand.setWidth 8 : BitVec 8) = CH_BAND_6GHZ
      then atenlChannels6ghz else atenlChannels5ghz) (req.bw.setWidth 8)
      (req.priSel.setWidth 8 : BitVec 8).toNat (req.ch1.setWidth 16 : BitVec 16).toNat =
        some chan) :
    req.Selects (match chan with
      | none => .outside
      | some chan => .set (atenlSetChannel (req.bw.setWidth 8) (req.chBand.setWidth 8)
          (BitVec.ofNat 16 chan.ch) (req.ch1.setWidth 16))) ↔ req.Right := by
  have right_iff : req.Right ↔ ∃ w chList, widthOf req.bw = some w ∧
      (w ≠ 1 → req.priSel.toNat < w) ∧ tableOf req.chBand = some chList ∧
      ∃ entry, chan = some entry ∧
        (entry.ch : Int) = wantedChannel w req.ch1.toNat req.priSel.toNat := by
    constructor
    · rintro ⟨w, width, inside, ⟨band, -⟩ | ⟨chList, table, right⟩⟩
      · exact absurd band other
      · obtain ⟨same, listed, small⟩ := table_eq table
        rw [same] at answered
        exact ⟨w, chList, width, inside, table,
          (listed.right_iff small width inside answered).mpr right⟩
    · rintro ⟨w, chList, width, inside, table, entry, rfl, wanted⟩
      obtain ⟨same, listed, small⟩ := table_eq table
      rw [same] at answered
      exact ⟨w, width, inside, .inr ⟨chList, table,
        (listed.right_iff small width inside answered).mp ⟨entry, rfl, wanted⟩⟩⟩
  rw [right_iff]
  cases chan with
  | none => simp [SetChannelReq.Selects]
  | some entry =>
    have member := (chanFor_eq_some answered).elim fun _ found => entryAt_mem found.2
    cases set : atenlSetChannel (req.bw.setWidth 8) (req.chBand.setWidth 8)
      (BitVec.ofNat 16 entry.ch) (req.ch1.setWidth 16) with
    | none =>
      simp only [set, SetChannelReq.Selects, false_iff]
      rintro ⟨w, -, width, -⟩
      unfold atenlSetChannel at set
      rw [if_neg (set_isSome width)] at set
      cases set
    | some cmd =>
      simp only [set, SetChannelReq.Selects]
      constructor
      · rintro ⟨⟨band, -⟩ | ⟨chList, table, -⟩, w, width, inside, wanted⟩
        · exact absurd band other
        · rw [(table_eq table).1] at member
          rw [(iwCommand_iff table member set).1] at wanted
          exact ⟨w, chList, width, inside, table, entry, rfl, wanted⟩
      · rintro ⟨w, chList, width, inside, table, _, same, wanted⟩
        obtain rfl := Option.some.inj same
        rw [(table_eq table).1] at member
        obtain ⟨ctrl, programs⟩ := iwCommand_iff table member set
        exact ⟨programs, w, width, inside, by rw [ctrl, wanted]⟩

theorem freq_2ghz_iff (ch : BitVec 16) :
    (atenlGetFreqByChannel CH_BAND_2GHZ ch).toNat = 2407 + 5 * ch.toNat ↔
      2407 + 5 * ch.toNat < 65536 := by
  have sum : (atenlGetFreqByChannel CH_BAND_2GHZ ch).toNat = (2407 + ch.toNat * 5) % 65536 := by
    rw [show atenlGetFreqByChannel CH_BAND_2GHZ ch = 2407 + ch * 5 from rfl]
    simp [BitVec.toNat_add, BitVec.toNat_mul]
  omega

def ctrlCh2ghz (req : SetChannelReq) : BitVec 16 :=
  if (req.bw.setWidth 8 : BitVec 8) = TEST_CBW_40MHZ then
    if (req.priSel.setWidth 8 : BitVec 8) = 1 then req.ch1.setWidth 16 + 2
    else req.ch1.setWidth 16 - 2
  else req.ch1.setWidth 16

theorem ctrlCh2ghz_iff (width : widthOf req.bw = some w) (inside : w ≠ 1 → req.priSel.toNat < w) :
    (2407 + 5 * (ctrlCh2ghz req).toNat < 65536 ∧
      ((ctrlCh2ghz req).toNat : Int) = wantedChannel w req.ch1.toNat req.priSel.toNat) ↔
    w ≤ 2 ∧ 0 ≤ wantedChannel w req.ch1.toNat req.priSel.toNat ∧
      2407 + 5 * wantedChannel w req.ch1.toNat req.priSel.toNat < 65536 := by
  have low : (req.ch1.setWidth 16).toNat = req.ch1.toNat % 65536 := BitVec.toNat_setWidth ..
  have sub (ch : BitVec 16) : (ch - 2).toNat = (65534 + ch.toNat) % 65536 :=
    BitVec.toNat_sub ..
  have add (ch : BitVec 16) : (ch + 2).toNat = (ch.toNat + 2) % 65536 := BitVec.toNat_add ..
  have single (other : (req.bw.setWidth 8 : BitVec 8) ≠ TEST_CBW_40MHZ) :
      (ctrlCh2ghz req).toNat = req.ch1.toNat % 65536 := by
    rw [ctrlCh2ghz, if_neg other, low]
  unfold wantedChannel
  rcases widthOf_cases width with ⟨is_bw, rfl⟩ | ⟨is_bw, rfl⟩ | ⟨is_bw, rfl⟩ | ⟨is_bw, rfl⟩ |
    ⟨is_bw, rfl⟩
  · rw [single (by rw [is_bw]; decide), if_pos rfl]
    omega
  · have inside := inside (by decide)
    rw [if_neg (by decide)]
    by_cases upper : req.priSel = 1
    · have ctrl : (ctrlCh2ghz req).toNat = (req.ch1.toNat % 65536 + 2) % 65536 := by
        rw [ctrlCh2ghz, is_bw, upper, if_pos (by decide), if_pos (by decide), add, low]
      rw [ctrl, upper]
      simp
      omega
    · have zero : req.priSel = 0 := by
        have : req.priSel.toNat ≠ 1 := fun one => upper (BitVec.eq_of_toNat_eq one)
        exact BitVec.eq_of_toNat_eq (show req.priSel.toNat = 0 by omega)
      have ctrl : (ctrlCh2ghz req).toNat = (65534 + req.ch1.toNat % 65536) % 65536 := by
        rw [ctrlCh2ghz, is_bw, zero, if_pos (by decide), if_neg (by decide), sub, low]
      rw [ctrl, zero]
      simp
      omega
  all_goals
    rw [single (by rw [is_bw]; decide), if_neg (by decide)]
    omega

theorem selects_2ghz_iff (band : (req.chBand.setWidth 8 : BitVec 8) = CH_BAND_2GHZ) :
    req.Selects (.set (atenlSetChannel (req.bw.setWidth 8) CH_BAND_2GHZ (ctrlCh2ghz req)
      (req.ch1.setWidth 16))) ↔ req.Right := by
  have no_table (chList) : tableOf req.chBand ≠ some chList := by
    intro table
    unfold tableOf at table
    split_ifs at table with is5 is6
    · rw [is5] at band
      exact absurd band (by decide)
    · rw [is6] at band
      exact absurd band (by decide)
  unfold atenlSetChannel
  by_cases beyond : TEST_CBW_MAX < (req.bw.setWidth 8 : BitVec 8)
  · rw [if_pos beyond]
    refine iff_of_false id ?_
    rintro ⟨w, width, -⟩
    exact set_isSome width beyond
  · rw [if_neg beyond]
    simp only [SetChannelReq.Selects, IwCommand.InBlock, IwCommand.Programs, SetChannelReq.Right,
      no_table, false_and, exists_false, or_false, freq_2ghz_iff]
    constructor
    · rintro ⟨⟨zero, fits⟩, w, width, inside, wanted⟩
      exact ⟨w, width, inside, zero, (ctrlCh2ghz_iff width inside).mp ⟨fits, wanted⟩⟩
    · rintro ⟨w, width, inside, zero, right⟩
      obtain ⟨fits, wanted⟩ := (ctrlCh2ghz_iff width inside).mpr right
      exact ⟨⟨zero, fits⟩, w, width, inside, wanted⟩

end Requests

/-- A request is answered as it should be exactly when it is refused or its block is one of those
that the searches find. -/
theorem atenlHqaSetChannel_selects_iff (req : SetChannelReq) :
    req.Selects (atenlHqaSetChannel req) ↔ req.Refused ∨ req.Right := by
  unfold atenlHqaSetChannel SetChannelReq.Refused
  by_cases beyond : (3 : BitVec 8) ≤ req.band.setWidth 8
  · rw [if_pos beyond]
    exact iff_of_true trivial (.inl (.inl beyond))
  · rw [if_neg beyond]
    simp only [beyond, false_or]
    cases accepted : RxState.priSelOk (req.bw.setWidth 8) (req.priSel.setWidth 8) with
    | false => simp [SetChannelReq.Selects]
    | true =>
      simp only [Bool.not_true, Bool.false_eq_true, if_false, Bool.true_eq_false, false_or]
      by_cases band : (req.chBand.setWidth 8 : BitVec 8) = CH_BAND_2GHZ
      · simp only [band, if_true, not_true_eq_false, false_and, false_or, ne_eq]
        exact selects_2ghz_iff band
      · have other : req.chBand ≠ 0 := by
          rintro zero
          rw [zero] at band
          exact band rfl
        have roomy : Roomy (if (req.chBand.setWidth 8 : BitVec 8) = CH_BAND_6GHZ
            then atenlChannels6ghz else atenlChannels5ghz) := by
          split_ifs
          · exact roomy_6ghz
          · exact roomy_5ghz
        simp only [band, if_false, not_false_eq_true, true_and, ne_eq]
        rw [← roomy.chanFor_eq_none_iff accepted]
        cases answered : chanFor (if (req.chBand.setWidth 8 : BitVec 8) = CH_BAND_6GHZ
            then atenlChannels6ghz else atenlChannels5ghz) (req.bw.setWidth 8)
            (req.priSel.setWidth 8 : BitVec 8).toNat
            (req.ch1.setWidth 16 : BitVec 16).toNat with
        | none => simp [SetChannelReq.Selects]
        | some chan =>
          simp only [reduceCtorEq, false_or]
          rw [← table_selects_iff other answered]
          cases chan <;> rfl

/-- A centre below the first block of the 6 GHz table: the entry before the table is read. -/
theorem atenlHqaSetChannel_outside :
    ¬SetChannelReq.Selects ⟨0, 1, 0, 2, 0, 2⟩ (atenlHqaSetChannel ⟨0, 1, 0, 2, 0, 2⟩) := by
  rw [show atenlHqaSetChannel ⟨0, 1, 0, 2, 0, 2⟩ = .outside by decide +kernel]
  exact id

end MetaFilogic.Atenl
