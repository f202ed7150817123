import Mathlib.Data.BitVec

/-!
# Words put together from parts

A word is the disjunction of parts, each shifted to its place.  A part is read back at its place
when the others are apart from it.
-/

namespace MetaFilogic.WordParts

variable {n k w lo lo' : Nat}

/-- A part at the place `lo` of a word. -/
def place (n lo : Nat) (x : BitVec k) : BitVec n := x.setWidth n <<< lo

theorem getLsbD_place (x : BitVec k) (i : Nat) :
    (place n lo x).getLsbD i = (decide (lo ≤ i ∧ i < n) && x.getLsbD (i - lo)) := by
  unfold place
  rw [BitVec.getLsbD_shiftLeft, BitVec.getLsbD_setWidth]
  by_cases inside : i < n
  · by_cases low : lo ≤ i
    · have shifted : i - lo < n := by omega
      simp [inside, low, shifted, Nat.not_lt.mpr low]
    · simp [inside, low, Nat.lt_of_not_le low]
  · simp [inside]

theorem extract_place (x : BitVec k) (fits : lo + k ≤ n) : (place n lo x).extractLsb' lo k = x := by
  refine BitVec.eq_of_getLsbD_eq fun i inside => ?_
  rw [BitVec.getLsbD_extractLsb', getLsbD_place, decide_eq_true inside,
    decide_eq_true (show lo ≤ lo + i ∧ lo + i < n by omega), Nat.add_sub_cancel_left]
  rfl

theorem extract_place_apart (x : BitVec k) (apart : lo + k ≤ lo' ∨ lo' + w ≤ lo) :
    (place n lo x).extractLsb' lo' w = 0#w := by
  refine BitVec.eq_of_getLsbD_eq fun i inside => ?_
  rw [BitVec.getLsbD_extractLsb', getLsbD_place, BitVec.getLsbD_zero]
  rcases apart with below | above
  · rw [BitVec.getLsbD_of_ge x (lo' + i - lo) (by omega)]
    simp
  · have outside : ¬(lo ≤ lo' + i ∧ lo' + i < n) := by omega
    simp [outside]

theorem and_mask (x : BitVec n) :
    x &&& (BitVec.allOnes k).setWidth n = place n 0 (x.setWidth k) := by
  refine BitVec.eq_of_getLsbD_eq fun i inside => ?_
  rw [BitVec.getLsbD_and, getLsbD_place, BitVec.getLsbD_setWidth, BitVec.getLsbD_setWidth,
    BitVec.getLsbD_allOnes]
  by_cases low : i < k <;> simp [inside, low]

theorem place_shiftLeft (x : BitVec k) (shift : Nat) :
    place n lo x <<< shift = place n (lo + shift) x := by
  unfold place
  rw [← BitVec.shiftLeft_add]

theorem setWidth_eq_place (x : BitVec k) : x.setWidth n = place n 0 x := by
  unfold place
  simp

theorem getLsbD_congr {x y : BitVec n} {i : Nat}
    (same : x.extractLsb' i 1 = y.extractLsb' i 1) : x.getLsbD i = y.getLsbD i := by
  have bit := congrArg (·.getLsbD 0) same
  simpa [BitVec.getLsbD_extractLsb'] using bit

theorem extract_clear_apart (x : BitVec n) (part : BitVec k) (apart : lo + k ≤ lo' ∨ lo' + w ≤ lo)
    (fits : lo' + w ≤ n) :
    (x &&& ~~~(place n lo part)).extractLsb' lo' w = x.extractLsb' lo' w := by
  refine BitVec.eq_of_getLsbD_eq fun i inside => ?_
  have clear := congrArg (·.getLsbD i) (extract_place_apart (n := n) part apart)
  simp only [BitVec.getLsbD_extractLsb', inside, decide_true, Bool.true_and,
    BitVec.getLsbD_zero] at clear
  simp only [BitVec.getLsbD_extractLsb', inside, decide_true, Bool.true_and, BitVec.getLsbD_and,
    BitVec.getLsbD_not, clear, show lo' + i < n by omega, Bool.not_false, Bool.and_true]

theorem extract_clear (x : BitVec n) (fits : lo + k ≤ n) :
    (x &&& ~~~(place n lo (BitVec.allOnes k))).extractLsb' lo k = 0#k := by
  refine BitVec.eq_of_getLsbD_eq fun i inside => ?_
  have set := congrArg (·.getLsbD i) (extract_place (n := n) (BitVec.allOnes k) fits)
  simp only [BitVec.getLsbD_extractLsb', inside, decide_true, Bool.true_and,
    BitVec.getLsbD_allOnes] at set
  simp [inside, BitVec.getLsbD_and, BitVec.getLsbD_not, set]

def orIf (x : BitVec n) (flag : Bool) (part : BitVec n) : BitVec n :=
  if flag then x ||| part else x

theorem orIf_zero (x : BitVec n) (flag : Bool) : orIf x flag 0#n = x := by
  cases flag with
  | false => rfl
  | true => exact BitVec.or_zero

theorem zero_orIf (part : BitVec n) (flag : Bool) :
    orIf 0#n flag part = if flag then part else 0#n := by
  rw [orIf, BitVec.zero_or]

theorem extract_orIf (x part : BitVec n) (flag : Bool) :
    (orIf x flag part).extractLsb' lo k =
      orIf (x.extractLsb' lo k) flag (part.extractLsb' lo k) := by
  cases flag with
  | false => rfl
  | true => exact BitVec.extractLsb'_or

theorem getLsbD_orIf (x part : BitVec n) (flag : Bool) (i : Nat) :
    (orIf x flag part).getLsbD i = (x.getLsbD i || (flag && part.getLsbD i)) := by
  cases flag with
  | false => simp [orIf]
  | true => simp [orIf]

theorem eq_place_of_high_clear (x : BitVec n) (clear : x.extractLsb' k (n - k) = 0#_) :
    x = place n 0 (x.extractLsb' 0 k) := by
  refine BitVec.eq_of_getLsbD_eq fun i inside => ?_
  rw [getLsbD_place, BitVec.getLsbD_extractLsb']
  by_cases low : i < k
  · simp [inside, low]
  · have bit := congrArg (·.getLsbD (i - k)) clear
    simp only [BitVec.getLsbD_extractLsb', BitVec.getLsbD_zero, show i - k < n - k by omega,
      show k + (i - k) = i by omega, decide_true, Bool.true_and] at bit
    simp [low, bit]

section Join

variable {ι : Type*} {part : ι → BitVec n} {l : List ι}

theorem extract_foldl_or (l : List ι) (part : ι → BitVec n) (x : BitVec n) :
    (l.foldl (fun word i => word ||| part i) x).extractLsb' lo k =
      l.foldl (fun word i => word ||| (part i).extractLsb' lo k) (x.extractLsb' lo k) := by
  induction l generalizing x with
  | nil => rfl
  | cons i rest ih => rw [List.foldl_cons, ih, BitVec.extractLsb'_or, List.foldl_cons]

theorem foldl_or_clear (clear : ∀ i ∈ l, part i = 0#n) (x : BitVec n) :
    l.foldl (fun word i => word ||| part i) x = x := by
  induction l generalizing x with
  | nil => rfl
  | cons i rest ih =>
    rw [List.foldl_cons, clear i List.mem_cons_self, BitVec.or_zero]
    exact ih (fun other inRest => clear other (List.mem_cons_of_mem _ inRest)) x

theorem foldl_or_single [DecidableEq ι] {j : ι} (nodup : l.Nodup) (inList : j ∈ l)
    (clear : ∀ i ∈ l, i ≠ j → part i = 0#n) :
    l.foldl (fun word i => word ||| part i) 0#n = part j := by
  induction l with
  | nil => exact absurd inList List.not_mem_nil
  | cons i rest ih =>
    have restClear := fun other inRest => clear other (List.mem_cons_of_mem i inRest)
    rw [List.foldl_cons, BitVec.zero_or]
    by_cases first : i = j
    · subst first
      exact foldl_or_clear (fun other inRest => restClear other inRest
        fun same => (List.nodup_cons.1 nodup).1 (same ▸ inRest)) _
    · rw [clear i List.mem_cons_self first]
      exact ih (List.nodup_cons.1 nodup).2
        ((List.mem_cons.1 inList).resolve_left fun same => first same.symm) restClear

end Join

/-! ## Fields and their values -/

/-- A value for the bits of a word from `lo` on. -/
structure FieldValue where
  lo : Nat
  width : Nat
  val : Nat

namespace FieldValue

variable {f g : FieldValue} {fields : List FieldValue} {old mid new : BitVec n} {i : Nat}

def part (n : Nat) (f : FieldValue) : BitVec n := place n f.lo (BitVec.ofNat f.width f.val)

def mask (n : Nat) (f : FieldValue) : BitVec n := place n f.lo (BitVec.allOnes f.width)

def Fits (n : Nat) (f : FieldValue) : Prop := f.lo + f.width ≤ n ∧ f.val < 2 ^ f.width

def Apart (f g : FieldValue) : Prop := f.lo + f.width ≤ g.lo ∨ g.lo + g.width ≤ f.lo

instance : Decidable (Apart f g) := inferInstanceAs (Decidable (_ ∨ _))

def Covers (f : FieldValue) (i : Nat) : Prop := f.lo ≤ i ∧ i < f.lo + f.width

theorem shift_eq_part (fits : f.val < 2 ^ f.width) : BitVec.ofNat n f.val <<< f.lo = f.part n := by
  have same : (BitVec.ofNat f.width f.val).setWidth n = BitVec.ofNat n f.val := by
    refine BitVec.eq_of_toNat_eq ?_
    rw [BitVec.toNat_setWidth, BitVec.toNat_ofNat, BitVec.toNat_ofNat, Nat.mod_eq_of_lt fits]
  rw [part, place, same]

theorem getLsbD_part_outside (outside : ¬f.Covers i) : (f.part n).getLsbD i = false := by
  rw [part, getLsbD_place]
  by_cases low : f.lo ≤ i
  · rw [BitVec.getLsbD_of_ge _ (i - f.lo) (by unfold Covers at outside; omega), Bool.and_false]
  · simp [low]

theorem extract_part (fits : f.Fits n) : ((f.part n).extractLsb' f.lo f.width).toNat = f.val := by
  rw [part, extract_place _ fits.1, BitVec.toNat_ofNat, Nat.mod_eq_of_lt fits.2]

theorem Apart.symm (apart : f.Apart g) : g.Apart f := Or.symm apart

structure Replaced (old new : BitVec n) (fields : List FieldValue) : Prop where
  holds : ∀ f ∈ fields, (new.extractLsb' f.lo f.width).toNat = f.val
  others : ∀ i, (∀ f ∈ fields, ¬f.Covers i) → new.getLsbD i = old.getLsbD i

theorem replaced_one (fits : f.Fits n) (old : BitVec n) :
    Replaced old (old &&& ~~~f.mask n ||| f.part n) [f] where
  holds := by
    rintro _ (- | @⟨-, -, ⟨⟩⟩)
    rw [BitVec.extractLsb'_or, mask, extract_clear _ fits.1, BitVec.zero_or, extract_part fits]
  others := fun i outside => by
    have notCovered := outside f List.mem_cons_self
    have clear : (f.mask n).getLsbD i = false := by
      rw [mask, getLsbD_place]
      by_cases low : f.lo ≤ i
      · rw [BitVec.getLsbD_of_ge _ (i - f.lo) (by unfold Covers at notCovered; omega),
          Bool.and_false]
      · simp [low]
    rw [BitVec.getLsbD_or, getLsbD_part_outside notCovered, Bool.or_false, BitVec.getLsbD_and,
      BitVec.getLsbD_not, clear]
    by_cases inside : i < n
    · simp [inside]
    · simp [BitVec.getLsbD_of_ge old i (by omega)]

theorem Replaced.extract_apart (replaced : Replaced old new fields)
    (apart : ∀ g ∈ fields, f.Apart g) :
    new.extractLsb' f.lo f.width = old.extractLsb' f.lo f.width := by
  refine BitVec.eq_of_getLsbD_eq fun i inside => ?_
  rw [BitVec.getLsbD_extractLsb', BitVec.getLsbD_extractLsb',
    replaced.others (f.lo + i) fun g inFields => ?_]
  have between := apart g inFields
  unfold Apart at between
  unfold Covers
  omega

theorem Replaced.trans {later : List FieldValue} (first : Replaced old mid fields)
    (second : Replaced mid new later) (apart : ∀ f ∈ fields, ∀ g ∈ later, f.Apart g) :
    Replaced old new (fields ++ later) where
  holds := fun f inFields => by
    rcases List.mem_append.1 inFields with early | late
    · rw [second.extract_apart (apart f early)]
      exact first.holds f early
    · exact second.holds f late
  others := fun i outside =>
    (second.others i fun g inLater => outside g (List.mem_append_right _ inLater)).trans
      (first.others i fun f inFields => outside f (List.mem_append_left _ inFields))

theorem replaced_part (fits : f.Fits n) : Replaced 0#n (f.part n) [f] := by
  have one := replaced_one fits 0#n
  rwa [BitVec.zero_and, BitVec.zero_or] at one

/-- Two words that are clear but for their fields are put together. -/
theorem Replaced.or {x y : BitVec n} {later : List FieldValue} (first : Replaced 0#n x fields)
    (second : Replaced 0#n y later) (apart : ∀ f ∈ fields, ∀ g ∈ later, f.Apart g) :
    Replaced 0#n (x ||| y) (fields ++ later) where
  holds := fun f inFields => by
    rw [BitVec.extractLsb'_or]
    rcases List.mem_append.1 inFields with early | late
    · rw [second.extract_apart (apart f early), BitVec.extractLsb'_zero, BitVec.or_zero]
      exact first.holds f early
    · rw [first.extract_apart fun g early => (apart g early f late).symm, BitVec.extractLsb'_zero,
        BitVec.zero_or]
      exact second.holds f late
  others := fun i outside => by
    rw [BitVec.getLsbD_or, first.others i fun f early => outside f (List.mem_append_left _ early),
      second.others i fun f late => outside f (List.mem_append_right _ late), Bool.or_self]

def join (n : Nat) (fields : List FieldValue) : BitVec n :=
  fields.foldl (fun word f => word ||| f.part n) 0#n

theorem getLsbD_foldl_or (word : BitVec n) (outside : ∀ f ∈ fields, ¬f.Covers i) :
    (fields.foldl (fun word f => word ||| f.part n) word).getLsbD i = word.getLsbD i := by
  induction fields generalizing word with
  | nil => rfl
  | cons f rest ih =>
    rw [List.foldl_cons, ih _ fun g inRest => outside g (List.mem_cons_of_mem _ inRest),
      BitVec.getLsbD_or, getLsbD_part_outside (outside f List.mem_cons_self), Bool.or_false]

theorem replaced_join (fits : ∀ f ∈ fields, f.Fits n) (apart : fields.Pairwise Apart) :
    Replaced 0#n (join n fields) fields where
  holds := fun f inFields => by
    obtain ⟨early, late, rfl⟩ := List.append_of_mem inFields
    have parted := List.pairwise_append.1 apart
    have clear : ∀ g ∈ early ++ late, (g.part n).extractLsb' f.lo f.width = 0#_ := by
      intro g member
      rcases List.mem_append.1 member with before | after
      · exact extract_place_apart _ (parted.2.2 g before f List.mem_cons_self)
      · exact extract_place_apart _ ((List.pairwise_cons.1 parted.2.1).1 g after).symm
    rw [join, extract_foldl_or, List.foldl_append, List.foldl_cons, BitVec.extractLsb'_zero,
      foldl_or_clear fun g before => clear g (List.mem_append_left _ before),
      foldl_or_clear fun g after => clear g (List.mem_append_right _ after), BitVec.zero_or]
    exact extract_part (fits f inFields)
  others := fun i outside => getLsbD_foldl_or 0#n outside

end FieldValue

end MetaFilogic.WordParts
