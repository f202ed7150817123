import Mathlib.Data.List.Dedup
import MetaFilogic.Atenl.Channel

/-!
# The searches of the channel tables

Where a search ends is read off the table from the first entry that stops it, so a centre is refused
only when it is beyond the table, and the blocks that the table lists whole are found.
-/

namespace MetaFilogic.Atenl

/-! ## The search -/

section Search

variable {stops : Channel → Option Bool} {column : Channel → Nat} {chList : List Channel}
  {c n : Nat}

theorem searchFrom_eq_none (i : Nat) :
    searchFrom stops chList i = none ↔ ∀ entry ∈ chList, stops entry = none := by
  induction chList generalizing i with
  | nil => simp [searchFrom]
  | cons entry rest ih =>
    rw [searchFrom, List.forall_mem_cons]
    cases stopped : stops entry with
    | none => simp [ih]
    | some found => cases found <;> simp

theorem searchFrom_lt {i : Nat} {j : Int} (within : ∃ entry ∈ chList.take n, stops entry ≠ none)
    (found : searchFrom stops chList i = some j) : j < i + n := by
  induction chList generalizing i n with
  | nil => simp at within
  | cons entry rest ih =>
    cases n with
    | zero => simp at within
    | succ n =>
      rw [searchFrom] at found
      cases stopped : stops entry with
      | none =>
        rw [stopped] at found
        have later : ∃ entry ∈ rest.take n, stops entry ≠ none := by
          obtain ⟨other, member, stops'⟩ := within
          rw [List.take_succ_cons, List.mem_cons] at member
          rcases member with rfl | member
          · exact absurd stopped stops'
          · exact ⟨other, member, stops'⟩
        have := ih later found
        push_cast at this ⊢
        omega
      | some atEntry =>
        rw [stopped] at found
        cases atEntry <;> simp only [Option.some.injEq] at found <;> push_cast <;> omega

theorem stopsColumn_eq_none (entry : Channel) :
    stopsColumn column c entry = none ↔ column entry < c := by
  unfold stopsColumn
  split_ifs <;> simp <;> omega

theorem stops320_eq_none (entry : Channel) :
    stops320 c entry = none ↔ c ≠ entry.ch320₁ ∧ c ≠ entry.ch320₂ := by
  unfold stops320
  split_ifs <;> simp_all

theorem searchFrom_column (sorted : chList.Pairwise (column · < column ·)) (i : Nat) :
    searchFrom (stopsColumn column c) chList i =
      if ∀ entry ∈ chList, column entry < c then none
      else some ((i : Int) + chList.countP (column · ≤ c) - 1) := by
  induction chList generalizing i with
  | nil => simp [searchFrom]
  | cons entry rest ih =>
    obtain ⟨above, sorted⟩ := List.pairwise_cons.mp sorted
    have beyond (small : c ≤ column entry) : rest.countP (column · ≤ c) = 0 :=
      List.countP_eq_zero.mpr fun other member => by
        have := above other member
        simp only [decide_eq_true_eq]
        omega
    simp only [searchFrom, stopsColumn, List.forall_mem_cons, List.countP_cons]
    rcases Nat.lt_trichotomy c (column entry) with lower | same | higher
    · rw [if_neg (by omega), if_pos lower, if_neg (by omega), beyond (by omega)]
      simp [Nat.not_le.mpr lower]
    · rw [if_pos same, if_neg (by omega), beyond (by omega)]
      simp [same]
    · have rest' : (column entry < c ∧ ∀ other ∈ rest, column other < c) ↔
          ∀ other ∈ rest, column other < c := by
        simp [higher]
      rw [if_neg (by omega), if_neg (by omega), ih sorted]
      simp only [rest', Nat.le_of_lt higher, decide_true, if_true]
      split_ifs
      · rfl
      · rw [Option.some.injEq]
        push_cast
        omega

theorem chanFor_eq_none {bw : BitVec 8} {sel : Nat} :
    chanFor chList bw sel c = none ↔ ∀ chan, searchChannel chList bw c = some chan →
      bw ≠ TEST_CBW_20MHZ ∧ (chList.length : Int) ≤ chan + sel := by
  unfold chanFor
  cases searchChannel chList bw c with
  | none => simp
  | some chan =>
    simp only [Option.some.injEq, forall_eq']
    by_cases narrow : bw = TEST_CBW_20MHZ
    · simp [narrow]
    · simp only [narrow, if_false, not_false_eq_true, and_true, ne_eq, true_and]
      split_ifs <;> simp <;> omega

theorem entryAt_mem {chan : Int} {entry : Channel} (found : entryAt chList chan = some entry) :
    entry ∈ chList := by
  cases chan with
  | ofNat i => exact List.mem_of_getElem? found
  | negSucc i => cases found

end Search

/-! ## The errors -/

/-- Every centre of a table has its first entry before enough others. -/
structure Roomy (chList : List Channel) : Prop where
  sorted : chList.Pairwise (·.ch < ·.ch)
  room80 : ∀ entry ∈ chList, ∃ early ∈ chList.take (chList.length - 3), entry.ch80 ≤ early.ch80
  room160 : ∀ entry ∈ chList,
    ∃ early ∈ chList.take (chList.length - 7), entry.ch160 ≤ early.ch160
  room320 : ∀ entry ∈ chList, ∀ c ∈ [entry.ch320₁, entry.ch320₂],
    ∃ early ∈ chList.take (chList.length - 15), c = early.ch320₁ ∨ c = early.ch320₂

theorem roomy_5ghz : Roomy atenlChannels5ghz where
  sorted := by decide +kernel
  room80 := by decide +kernel
  room160 := by decide +kernel
  room320 := by decide +kernel

theorem roomy_6ghz : Roomy atenlChannels6ghz where
  sorted := by decide +kernel
  room80 := by decide +kernel
  room160 := by decide +kernel
  room320 := by decide +kernel

section Errors

variable {chList : List Channel} {stops : Channel → Option Bool} {column : Channel → Nat}
  {c n : Nat}

theorem refused_iff_of_room {bw : BitVec 8} {sel : Nat} (fits : sel ≤ n)
    (is_search : searchChannel chList bw c = searchFrom stops chList 0)
    (room : ∀ entry ∈ chList, stops entry ≠ none →
      ∃ early ∈ chList.take (chList.length - n), stops early ≠ none) :
    chanFor chList bw sel c = none ↔ ∀ entry ∈ chList, stops entry = none := by
  rw [chanFor_eq_none, is_search, ← searchFrom_eq_none 0]
  constructor
  · intro refused
    cases found : searchFrom stops chList 0 with
    | none => rfl
    | some chan =>
      have stopped : ∃ entry ∈ chList, stops entry ≠ none := by
        by_contra never
        push Not at never
        rw [(searchFrom_eq_none 0).mpr never] at found
        cases found
      obtain ⟨entry, member, at_entry⟩ := stopped
      obtain ⟨early, first, at_early⟩ := room entry member at_entry
      have before := searchFrom_lt ⟨early, first, at_early⟩ found
      have beyond := (refused chan found).2
      have positive : 0 < chList.length - n := by
        by_contra none_left
        rw [Nat.eq_zero_of_not_pos none_left, List.take_zero] at first
        cases first
      push_cast at before
      omega
  · intro missing chan found
    rw [missing] at found
    cases found

theorem room_of_column
    (room : ∀ entry ∈ chList, ∃ early ∈ chList.take n, column entry ≤ column early) :
    ∀ entry ∈ chList, stopsColumn column c entry ≠ none →
      ∃ early ∈ chList.take n, stopsColumn column c early ≠ none := by
  intro entry member stopped
  obtain ⟨early, first, higher⟩ := room entry member
  refine ⟨early, first, ?_⟩
  rw [Ne, stopsColumn_eq_none] at stopped ⊢
  omega

theorem Roomy.chanFor_eq_none_iff (roomy : Roomy chList) {bw priSel : BitVec 8}
    (accepted : RxState.priSelOk bw priSel = true) :
    chanFor chList bw priSel.toNat c = none ↔ RefusedIn chList bw c priSel.toNat := by
  have bounds : (bw = 12 → priSel.toNat ≤ 15) ∧ (bw = 5 → priSel.toNat ≤ 7) ∧
      (bw = 2 → priSel.toNat ≤ 3) := by
    simp only [RxState.priSelOk, Bool.not_eq_true', Bool.or_eq_false_iff, Bool.and_eq_false_iff,
      beq_eq_false_iff_ne, decide_eq_false_iff_not, BitVec.not_lt, BitVec.le_def] at accepted
    obtain ⟨⟨⟨b320, b160⟩, b80⟩, -⟩ := accepted
    exact ⟨fun w => b320.resolve_left (fun no => no w), fun w => b160.resolve_left (fun no => no w),
      fun w => b80.resolve_left (fun no => no w)⟩
  unfold RefusedIn
  split_ifs with is320 is160 is80
  · have room (entry) (member : entry ∈ chList) (stopped : stops320 c entry ≠ none) :
        ∃ early ∈ chList.take (chList.length - 15), stops320 c early ≠ none := by
      rw [Ne, stops320_eq_none, not_and_or, not_not, not_not] at stopped
      obtain ⟨early, first, same⟩ := roomy.room320 entry member c (by simpa using stopped)
      refine ⟨early, first, ?_⟩
      rwa [Ne, stops320_eq_none, not_and_or, not_not, not_not]
    rw [refused_iff_of_room (bounds.1 is320) (by rw [searchChannel, if_pos is320]) room]
    simp only [stops320_eq_none]
  · rw [refused_iff_of_room (bounds.2.1 is160)
      (by rw [searchChannel, if_neg is320, if_pos is160]) (room_of_column roomy.room160)]
    simp only [stopsColumn_eq_none]
  · rw [refused_iff_of_room (bounds.2.2 is80)
      (by rw [searchChannel, if_neg is320, if_neg is160, if_pos is80])
      (room_of_column roomy.room80)]
    simp only [stopsColumn_eq_none]
  · rw [chanFor_eq_none, searchChannel, if_neg is320, if_neg is160, if_neg is80,
      searchFrom_column roomy.sorted]
    split_ifs with beyond
    · exact iff_of_true (by simp) (.inl beyond)
    · simp only [Option.some.injEq, forall_eq', beyond, false_or]
      refine and_congr_right fun _ => ?_
      push_cast
      omega

end Errors

/-! ## The channels found -/

def Finds (chList : List Channel) (bw : BitVec 8) (w c sel : Nat) : Prop :=
  match chanFor chList bw sel c with
  | some (some entry) => (entry.ch : Int) = wantedChannel w c sel
  | _ => False

instance (chList : List Channel) (bw : BitVec 8) (w c sel : Nat) :
    Decidable (Finds chList bw w c sel) := by
  unfold Finds
  split <;> infer_instance

structure Blocks (column : Channel → Nat) (chList : List Channel) (bw : BitVec 8) (w : Nat) :
    Prop where
  whole : ∀ i < chList.length, ∀ entry ∈ chList[i]?, column entry ≠ 0 →
    (∀ early ∈ chList.take i, column early < column entry) →
    column entry = entry.ch + 2 * (w - 1) ∧
      ∀ k < w, ∀ other ∈ chList[i + k]?, other.ch = entry.ch + 4 * k
  centre : ∀ c ∈ (chList.map column).dedup, c ≠ 0 → ∀ sel < w,
    Finds chList bw w c sel ∧ (sel ≠ 0 → Finds chList bw w (c - 4) sel)
  before : ∀ pair ∈ chList.zip chList.tail, column pair.2 ≠ 0 → column pair.1 ≠ column pair.2 →
    Finds chList bw w (pair.1.ch + 2 * (w - 1)) 0
  origin : ∀ sel < w, ¬Finds chList bw w 0 sel

structure Listed (chList : List Channel) : Prop where
  single : ∀ entry ∈ chList, Finds chList 0 1 entry.ch 0
  upper : ∀ entry ∈ chList, 2 ≤ entry.ch → Finds chList 1 2 (entry.ch - 2) 1
  lower : ∀ entry ∈ chList, (chanFor chList 1 0 (entry.ch + 2)).isSome →
    Finds chList 1 2 (entry.ch + 2) 0
  blocks80 : Blocks Channel.ch80 chList 2 4
  blocks160 : Blocks Channel.ch160 chList 5 8
  wide : ∀ c ∈ (chList.flatMap fun entry => [entry.ch320₁, entry.ch320₂]).dedup, c ≠ 0 →
    ∀ sel < 16, Finds chList 12 16 c sel
  origin320 : ∀ sel < 16, ¬Finds chList 12 16 0 sel

theorem listed_5ghz : Listed atenlChannels5ghz where
  single := by decide +kernel
  upper := by decide +kernel
  lower := by decide +kernel
  blocks80 := ⟨by decide +kernel, by decide +kernel, by decide +kernel, by decide +kernel⟩
  blocks160 := ⟨by decide +kernel, by decide +kernel, by decide +kernel, by decide +kernel⟩
  wide := by decide +kernel
  origin320 := by decide +kernel

theorem listed_6ghz : Listed atenlChannels6ghz where
  single := by decide +kernel
  upper := by decide +kernel
  lower := by decide +kernel
  blocks80 := ⟨by decide +kernel, by decide +kernel, by decide +kernel, by decide +kernel⟩
  blocks160 := ⟨by decide +kernel, by decide +kernel, by decide +kernel, by decide +kernel⟩
  wide := by decide +kernel
  origin320 := by decide +kernel

section Found

variable {chList : List Channel} {column : Channel → Nat} {bw : BitVec 8} {w c sel : Nat}

theorem searchFrom_column_found {i : Nat} {j : Int}
    (found : searchFrom (stopsColumn column c) chList i = some j) :
    ∃ pre entry post, chList = pre ++ entry :: post ∧ (∀ early ∈ pre, column early < c) ∧
      c ≤ column entry ∧ j = i + pre.length - if c = column entry then 0 else 1 := by
  induction chList generalizing i with
  | nil => simp [searchFrom] at found
  | cons entry rest ih =>
    simp only [searchFrom, stopsColumn] at found
    split_ifs at found with same lower
    · refine ⟨[], entry, rest, rfl, by simp, by omega, ?_⟩
      simp only [Option.some.injEq] at found
      simp [same, ← found]
    · refine ⟨[], entry, rest, rfl, by simp, by omega, ?_⟩
      simp only [Option.some.injEq] at found
      simp [same, ← found]
    · obtain ⟨pre, other, post, split, below, above, at_j⟩ := ih found
      refine ⟨entry :: pre, other, post, by rw [split, List.cons_append], ?_, above, ?_⟩
      · intro early member
        rcases List.mem_cons.mp member with rfl | member
        · omega
        · exact below early member
      · rw [at_j, List.length_cons]
        push_cast
        omega

theorem chanFor_eq_some {entry : Channel} (chosen : chanFor chList bw sel c = some (some entry)) :
    ∃ chan, searchChannel chList bw c = some chan ∧
      entryAt chList (if bw = TEST_CBW_20MHZ then chan else chan + sel) = some entry := by
  unfold chanFor at chosen
  cases found : searchChannel chList bw c with
  | none => simp [found] at chosen
  | some chan =>
    rw [found] at chosen
    dsimp only at chosen
    by_cases beyond : (chList.length : Int) - 1 <
        (if bw = TEST_CBW_20MHZ then chan else chan + sel) ∧ bw ≠ TEST_CBW_20MHZ
    · rw [if_pos beyond] at chosen
      cases chosen
    · rw [if_neg beyond] at chosen
      exact ⟨chan, rfl, Option.some.inj chosen⟩

theorem Finds.entry (finds : Finds chList bw w c sel) :
    ∃ entry, chanFor chList bw sel c = some (some entry) ∧ entry ∈ chList ∧
      (entry.ch : Int) = wantedChannel w c sel := by
  unfold Finds at finds
  split at finds
  · rename_i entry chosen
    obtain ⟨chan, -, at_chan⟩ := chanFor_eq_some chosen
    exact ⟨entry, chosen, entryAt_mem at_chan, finds⟩
  · exact finds.elim

theorem mem_zip_tail {α : Type} (init : List α) {last first : α} (post : List α) :
    (last, first) ∈ (init.concat last ++ first :: post).zip
      (init.concat last ++ first :: post).tail := by
  rw [List.mem_iff_getElem?]
  refine ⟨init.length, ?_⟩
  rw [List.getElem?_zip_eq_some, List.getElem?_tail]
  constructor <;> simp [List.concat_eq_append]

theorem Blocks.finds_iff (blocks : Blocks column chList bw w) (wide : bw ≠ TEST_CBW_20MHZ)
    (large : 1 < w) (is_search : ∀ c, searchChannel chList bw c =
      searchFrom (stopsColumn column c) chList 0) (inside : sel < w) :
    Finds chList bw w c sel ↔ RightByColumn column chList w c sel := by
  constructor
  · intro finds
    have nonzero : c ≠ 0 := by
      rintro rfl
      exact blocks.origin sel inside finds
    obtain ⟨entry, chosen, -, wanted⟩ := finds.entry
    rw [wantedChannel, if_neg (by omega)] at wanted
    obtain ⟨chan, found, chosen⟩ := chanFor_eq_some chosen
    rw [is_search] at found
    rw [if_neg wide] at chosen
    obtain ⟨pre, first, post, rfl, below, above, at_chan⟩ := searchFrom_column_found found
    have at_pre : (pre ++ first :: post)[pre.length]? = some first := by simp
    obtain ⟨centre, others⟩ := blocks.whole pre.length (by simp) first at_pre (by omega)
      (fun early member => lt_of_lt_of_le (below early (by simpa using member)) above)
    by_cases same : c = column first
    · exact .inl ⟨nonzero, first, by simp, same.symm⟩
    rw [if_neg same] at at_chan
    cases sel with
    | zero =>
      -- the entry before the block
      rcases List.eq_nil_or_concat pre with rfl | ⟨init, last, rfl⟩
      · rw [at_chan] at chosen
        cases chosen
      · have index : chan + ((0 : Nat) : Int) = ((init.length : Nat) : Int) := by
          rw [at_chan, List.length_concat]
          push_cast
          omega
        rw [index] at chosen
        have is_last : last = entry := by
          simpa [entryAt, List.concat_eq_append] using chosen
        have lower := below last (by simp)
        refine .inr (.inr ⟨rfl, (last, first), ?_, ?_, ?_, ?_⟩)
        · exact mem_zip_tail init post
        · simp only [is_last]
          push_cast at wanted
          omega
        · simp only
          omega
        · simp only
          omega
    | succ k =>
      -- an entry of the block, one place before the one wanted
      have index : chan + ((k + 1 : Nat) : Int) = ((pre.length + k : Nat) : Int) := by
        rw [at_chan]
        push_cast
        omega
      rw [index] at chosen
      have := others k (by omega) entry chosen
      refine .inr (.inl ⟨by omega, by omega, first, by simp, ?_⟩)
      push_cast at wanted
      omega
  · rintro (⟨nonzero, entry, member, rfl⟩ | ⟨later, -, entry, member, next⟩ |
      ⟨rfl, pair, member, rfl, centre, other⟩)
    · exact (blocks.centre _ (by simpa using ⟨entry, member, rfl⟩) nonzero sel inside).1
    · have := (blocks.centre (column entry) (by simpa using ⟨entry, member, rfl⟩) (by omega)
        sel inside).2 later
      rwa [next, Nat.add_sub_cancel] at this
    · exact blocks.before pair member centre other

end Found

end MetaFilogic.Atenl
