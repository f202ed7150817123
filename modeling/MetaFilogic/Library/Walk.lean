import Mathlib.Data.List.Basic

/-!
# Index loops over an array

A loop `for (index = 0; index < count; index++)` that looks at a cell of an array and
may rewrite it.  A loop whose bound is the length of the array visits every cell once,
and one whose bound is larger runs past the end.
-/

namespace MetaFilogic

variable {α : Type*}

/-- One pass over the first `count` cells.  A visit gives the new contents of a cell, or
nothing for a cell it leaves alone; the result counts the cells rewritten, and there is
none when the loop leaves the array. -/
def walk (visit : Nat → α → Option α) (count : Nat) (cells : List α) : Option (Nat × List α) :=
  match count with
  | 0 => some (0, cells)
  | count + 1 =>
    match walk visit count cells with
    | none => none
    | some (rewritten, done) =>
      match done[count]? with
      | none => none
      | some cell =>
        match visit count cell with
        | none => some (rewritten, done)
        | some new => some (rewritten + 1, done.set count new)

variable {visit : Nat → α → Option α} {count : Nat} {cells : List α}

def walked (visit : Nat → α → Option α) (count : Nat) (cells : List α) : List α :=
  cells.mapIdx fun index cell => if index < count then (visit index cell).getD cell else cell

def rewrites (visit : Nat → α → Option α) (count : Nat) (cells : List α) : Nat :=
  (List.range count).countP fun index => (cells[index]?.bind (visit index)).isSome

theorem rewrites_succ :
    rewrites visit (count + 1) cells =
      rewrites visit count cells + if (cells[count]?.bind (visit count)).isSome then 1 else 0 := by
  rw [rewrites, List.range_succ, List.countP_append, List.countP_singleton]
  rfl

/-- Whether a pass over the first `count` cells or one over all of them counts makes no difference
when the rest is left alone. -/
theorem rewrites_all {visit' : Nat → α → Option α} (inside : count ≤ cells.length)
    (same : ∀ index cell, cells[index]? = some cell →
      (if index < count then visit index cell else none) = visit' index cell) :
    rewrites visit' cells.length cells = rewrites visit count cells := by
  have rest : cells.length = count + (cells.length - count) := by omega
  have front : ∀ index ∈ List.range count,
      (cells[index]?.bind (visit' index)).isSome = true ↔
        (cells[index]?.bind (visit index)).isSome = true := by
    intro index member
    cases present : cells[index]? with
    | none => rfl
    | some cell =>
      rw [Option.bind_some, Option.bind_some, ← same index cell present,
        if_pos (List.mem_range.mp member)]
  have back : (List.map (fun x => count + x) (List.range (cells.length - count))).countP
      (fun index => (cells[index]?.bind (visit' index)).isSome) = 0 := by
    refine List.countP_eq_zero.mpr fun index member => ?_
    obtain ⟨offset, -, rfl⟩ := List.mem_map.mp member
    cases present : cells[count + offset]? with
    | none => exact Bool.false_ne_true
    | some cell =>
      rw [Option.bind_some, ← same _ cell present, if_neg (by omega)]
      exact Bool.false_ne_true
  unfold rewrites
  rw [rest, List.range_add, List.countP_append, back, Nat.add_zero, List.countP_congr front]

theorem walk_eq (visit : Nat → α → Option α) (inside : count ≤ cells.length) :
    walk visit count cells = some (rewrites visit count cells, walked visit count cells) := by
  induction count with
  | zero =>
    have unchanged : walked visit 0 cells = cells :=
      List.ext_getElem (by simp [walked]) fun index left right => by simp [walked]
    rw [walk, unchanged]
    rfl
  | succ count ih =>
    have run := ih (Nat.le_of_succ_le inside)
    have short : count < cells.length := inside
    have cell : (walked visit count cells)[count]? = some cells[count] := by
      simp [walked, short]
    have after : walked visit (count + 1) cells =
        (walked visit count cells).set count ((visit count cells[count]).getD cells[count]) := by
      refine List.ext_getElem (by simp [walked]) fun index left right => ?_
      simp only [walked, List.getElem_mapIdx, List.getElem_set]
      by_cases here : count = index
      · subst here
        simp
      · have step : index < count + 1 ↔ index < count := by omega
        simp [here, step]
    rw [walk, run, rewrites_succ, List.getElem?_eq_getElem short, Option.bind_some]
    dsimp only
    rw [cell]
    dsimp only
    cases outcome : visit count cells[count] with
    | none =>
      have sized : count < (walked visit count cells).length := by simpa [walked] using short
      have kept : cells[count] = (walked visit count cells)[count] := by simp [walked]
      rw [after, outcome, Option.getD_none, kept, List.set_getElem_self]
      rfl
    | some new =>
      rw [after, outcome, Option.getD_some]
      rfl

theorem walk_inside (visit : Nat → α → Option α) (inside : count ≤ cells.length) :
    ∃ rewritten, walk visit count cells = some (rewritten, walked visit count cells) :=
  ⟨_, walk_eq visit inside⟩

theorem walk_all (visit : Nat → α → Option α) (cells : List α) :
    ∃ rewritten, walk visit cells.length cells =
      some (rewritten, cells.mapIdx fun index cell => (visit index cell).getD cell) := by
  obtain ⟨rewritten, run⟩ := walk_inside visit (Nat.le_refl cells.length)
  refine ⟨rewritten, run.trans ?_⟩
  congr 2
  refine List.ext_getElem (by simp [walked]) fun index left right => ?_
  have inside : index < cells.length := by simpa [walked] using left
  simp [walked, inside]

theorem walk_outside (outside : cells.length < count) : walk visit count cells = none := by
  induction count with
  | zero => exact absurd outside (Nat.not_lt_zero _)
  | succ count ih =>
    rw [walk]
    rcases Nat.lt_or_ge cells.length count with before | reached
    · rw [ih before]
    · have last : count = cells.length := by omega
      obtain ⟨rewritten, run⟩ := walk_inside visit (Nat.le_of_eq last)
      have past : (walked visit count cells)[count]? = none := by
        simp [walked, last]
      rw [run]
      dsimp only
      rw [past]

theorem walk_some {rewritten : Nat} {done : List α}
    (run : walk visit count cells = some (rewritten, done)) : done = walked visit count cells := by
  rcases Nat.lt_or_ge cells.length count with outside | inside
  · rw [walk_outside outside] at run
    cases run
  · obtain ⟨_, run'⟩ := walk_inside visit inside
    rw [run'] at run
    exact (Prod.mk.inj (Option.some_inj.mp run)).2.symm

end MetaFilogic
