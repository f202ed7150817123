import Mathlib.Algebra.BigOperators.Group.List.Basic
import Mathlib.Logic.Function.Basic

/-!
# What slots hold

Each of some slots holds a thing or none.  The sum over the things grows and shrinks with what is
put into a slot and taken from it.
-/

namespace MetaFilogic.Circular

variable {α M : Type*} [AddCommMonoid M] {size i : Nat} {held taken left : Nat → Option α} {a : α}

def contents (size : Nat) (held : Nat → Option α) : List α := (List.range size).filterMap held

theorem contents_succ (size : Nat) (held : Nat → Option α) :
    contents (size + 1) held = contents size held ++ (held size).toList := by
  rw [contents, List.range_succ, List.filterMap_append, contents]
  cases here : held size with
  | none => simp [here]
  | some a => simp [here]

theorem mem_contents : a ∈ contents size held ↔ ∃ i < size, held i = some a := by
  simp [contents]

theorem contents_congr (same : ∀ i < size, held i = left i) :
    contents size held = contents size left :=
  List.filterMap_congr fun i inRange => same i (List.mem_range.mp inRange)

theorem contents_eq_nil (none : ∀ i < size, held i = none) : contents size held = [] := by
  rw [contents, List.filterMap_eq_nil_iff]
  exact fun i inRange => none i (List.mem_range.mp inRange)

theorem sum_contents_put (weight : α → M) (lt : i < size) (empty : held i = none) :
    ((contents size (Function.update held i (some a))).map weight).sum =
      ((contents size held).map weight).sum + weight a := by
  induction size with
  | zero => exact absurd lt (Nat.not_lt_zero i)
  | succ size ih =>
    rw [contents_succ, contents_succ, List.map_append, List.map_append, List.sum_append,
      List.sum_append]
    rcases Nat.lt_succ_iff_lt_or_eq.mp lt with below | rfl
    · rw [ih below, Function.update_of_ne (Nat.ne_of_gt below), add_right_comm]
    · have before : ∀ j < i, Function.update held i (some a) j = held j :=
        fun j below => Function.update_of_ne (Nat.ne_of_lt below) ..
      rw [contents_congr before]
      simp [empty]

theorem sum_contents_split (weight : α → M)
    (split : ∀ i < size, taken i = held i ∧ left i = none ∨ taken i = none ∧ left i = held i) :
    ((contents size taken).map weight).sum + ((contents size left).map weight).sum =
      ((contents size held).map weight).sum := by
  induction size with
  | zero => simp [contents]
  | succ size ih =>
    have before := ih fun i below => split i (Nat.lt_succ_of_lt below)
    simp only [contents_succ, List.map_append, List.sum_append, ← before]
    rcases split size (Nat.lt_succ_self size) with ⟨here, gone⟩ | ⟨gone, here⟩
    · rw [here, gone]
      simp only [Option.toList_none, List.map_nil, List.sum_nil, add_zero]
      rw [add_right_comm]
    · rw [here, gone]
      simp only [Option.toList_none, List.map_nil, List.sum_nil, add_zero]
      rw [add_assoc]

end MetaFilogic.Circular
