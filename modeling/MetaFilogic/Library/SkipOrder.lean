import Mathlib.Data.List.Nodup
import Mathlib.Data.List.Range

/-!
# Sorting the bad elements of a list to its end

A list of places some of which are bad can be used as if it had none: the good
places in their order, the bad ones behind them.  `skipOrder` is that order.  It
permutes the list, and marking one more place bad moves this place behind every
good one after it and every bad one before it.
-/

namespace MetaFilogic

variable {α : Type} {bad : α → Bool}

def goods (bad : α → Bool) (places : List α) : List α := places.filter fun place => !bad place

def bads (bad : α → Bool) (places : List α) : List α := places.filter bad

def skipOrder (bad : α → Bool) (places : List α) : List α := goods bad places ++ bads bad places

theorem skipOrder_perm (bad : α → Bool) (places : List α) : (skipOrder bad places).Perm places := by
  have halves := List.filter_append_perm (fun place => !bad place) places
  simpa only [skipOrder, goods, bads, Bool.not_not] using halves

theorem skipOrder_length (bad : α → Bool) (places : List α) :
    (skipOrder bad places).length = places.length :=
  (skipOrder_perm bad places).length_eq

theorem goods_length_add_bads (bad : α → Bool) (places : List α) :
    (goods bad places).length + (bads bad places).length = places.length := by
  rw [← List.length_append]
  exact skipOrder_length bad places

variable {places : List α}

theorem mem_goods {place : α} : place ∈ goods bad places ↔ place ∈ places ∧ bad place = false := by
  rw [goods, List.mem_filter, Bool.not_eq_true']

theorem mem_bads {place : α} : place ∈ bads bad places ↔ place ∈ places ∧ bad place = true :=
  List.mem_filter

theorem goods_of_all_good (good : ∀ place ∈ places, bad place = false) :
    goods bad places = places :=
  List.filter_eq_self.mpr fun place member => by rw [good place member]; rfl

theorem bads_of_all_good (good : ∀ place ∈ places, bad place = false) : bads bad places = [] :=
  List.filter_eq_nil_iff.mpr fun place member => by rw [good place member]; decide

theorem goods_of_all_bad (all : ∀ place ∈ places, bad place = true) : goods bad places = [] :=
  List.filter_eq_nil_iff.mpr fun place member => by rw [all place member]; decide

theorem bads_of_all_bad (all : ∀ place ∈ places, bad place = true) : bads bad places = places :=
  List.filter_eq_self.mpr all

theorem goods_append (first second : List α) :
    goods bad (first ++ second) = goods bad first ++ goods bad second :=
  List.filter_append ..

theorem bads_append (first second : List α) :
    bads bad (first ++ second) = bads bad first ++ bads bad second :=
  List.filter_append ..

theorem goods_cons_of_bad {place : α} (places : List α) (isBad : bad place = true) :
    goods bad (place :: places) = goods bad places :=
  List.filter_cons_of_neg (by rw [isBad]; decide)

theorem bads_cons_of_bad {place : α} (places : List α) (isBad : bad place = true) :
    bads bad (place :: places) = place :: bads bad places :=
  List.filter_cons_of_pos isBad

theorem goods_cons_of_good {place : α} (places : List α) (isGood : bad place = false) :
    goods bad (place :: places) = place :: goods bad places :=
  List.filter_cons_of_pos (by rw [isGood]; rfl)

theorem bads_cons_of_good {place : α} (places : List α) (isGood : bad place = false) :
    bads bad (place :: places) = bads bad places :=
  List.filter_cons_of_neg (by rw [isGood]; decide)

theorem skipOrder_nodup (nodup : places.Nodup) : (skipOrder bad places).Nodup :=
  (skipOrder_perm bad places).nodup_iff.mpr nodup

theorem skipOrder_congr {other : α → Bool} (same : ∀ place ∈ places, bad place = other place) :
    skipOrder bad places = skipOrder other places := by
  have goodsSame : goods bad places = goods other places :=
    List.filter_congr fun place member => by rw [same place member]
  rw [skipOrder, skipOrder, goodsSame, bads, bads, List.filter_congr same]

/-! ## Marking a place bad -/

section Mark

variable {marked : α → Bool} {below above : List α} {place : α}

def overtaken (bad : α → Bool) (below above : List α) : List α := goods bad above ++ bads bad below

/-- `marked` is `bad` with one more bad place. -/
structure Marks (bad marked : α → Bool) (place : α) : Prop where
  wasGood : bad place = false
  isBad : marked place = true
  others : ∀ other, other ≠ place → marked other = bad other

theorem skipOrder_before (good : bad place = false) :
    skipOrder bad (below ++ place :: above) =
      goods bad below ++ place :: (overtaken bad below above ++ bads bad above) := by
  rw [skipOrder, goods_append, bads_append, goods_cons_of_good above good,
    bads_cons_of_good above good, overtaken]
  simp only [List.append_assoc, List.cons_append]

theorem skipOrder_marked (marks : Marks bad marked place) (nodup : (below ++ place :: above).Nodup) :
    skipOrder marked (below ++ place :: above) =
      goods bad below ++ (overtaken bad below above ++ place :: bads bad above) := by
  obtain ⟨-, aboveNodup, apart⟩ := List.nodup_append.mp nodup
  have below_ne : ∀ other ∈ below, marked other = bad other := fun other member =>
    marks.others other (apart other member place (List.mem_cons_self ..))
  have above_ne : ∀ other ∈ above, marked other = bad other := fun other member =>
    marks.others other fun same => (List.nodup_cons.mp aboveNodup).1 (same ▸ member)
  have goodsSame : ∀ places : List α, (∀ other ∈ places, marked other = bad other) →
      goods marked places = goods bad places :=
    fun places same => List.filter_congr fun other member => by rw [same other member]
  rw [skipOrder, goods_append, bads_append, goods_cons_of_bad above marks.isBad,
    bads_cons_of_bad above marks.isBad, goodsSame below below_ne, goodsSame above above_ne,
    overtaken, bads, bads, List.filter_congr below_ne, List.filter_congr above_ne]
  simp only [List.append_assoc, bads]

end Mark

end MetaFilogic
