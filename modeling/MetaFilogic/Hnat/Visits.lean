import MetaFilogic.Hnat.Start

/-!
# Passes that do what they should

A pass over the flow tables visits the first entries of each table.  It does what a treatment of
every entry asks for exactly when it stays inside the tables, and agrees with the treatment about
every entry.
-/

namespace MetaFilogic.Hnat

variable {visit spec : Nat → Nat → FoeEntry → Option FoeEntry} {skipNull : Bool} {count ppes : Nat}
  {h : MtkHnat}

/-- How many of the first `count` entries of each of the first `ppes` tables a pass rewrites. -/
def MtkHnat.rewrites (h : MtkHnat) (visit : Nat → Nat → FoeEntry → Option FoeEntry) (count : Nat) :
    (ppes : Nat) → Nat
  | 0 => 0
  | ppes + 1 => h.rewrites visit count ppes +
      MetaFilogic.rewrites (visit ppes) count ((h.foeTableCpu ppes).getD [])

/-- The first `count` entries of the first `ppes` tables visited. -/
def MtkHnat.walked (h : MtkHnat) (visit : Nat → Nat → FoeEntry → Option FoeEntry)
    (count ppes : Nat) : MtkHnat :=
  { h with foeTableCpu := fun ppeId =>
      if ppeId < ppes then (h.foeTableCpu ppeId).map (MetaFilogic.walked (visit ppeId) count)
      else h.foeTableCpu ppeId }

def MtkHnat.Sized (h : MtkHnat) (count ppes : Nat) : Prop :=
  ∀ ppeId < ppes, ∃ table, h.foeTableCpu ppeId = some table ∧ count ≤ table.length

theorem walkPpes_eq (sized : h.Sized count ppes) :
    walkPpes skipNull visit count ppes h =
      some (h.rewrites visit count ppes, h.walked visit count ppes) := by
  induction ppes with
  | zero =>
    rw [walkPpes, MtkHnat.walked, MtkHnat.rewrites]
    simp only [Nat.not_lt_zero, if_false]
  | succ ppes ih =>
    have run := ih fun ppeId below => sized ppeId (Nat.lt_succ_of_lt below)
    obtain ⟨table, present, inside⟩ := sized ppes (Nat.lt_succ_self _)
    have unvisited : (h.walked visit count ppes).foeTableCpu ppes = some table :=
      (if_neg (Nat.lt_irrefl _)).trans present
    rw [walkPpes, run]
    dsimp only
    rw [unvisited]
    dsimp only
    rw [walk_eq (visit ppes) inside, MtkHnat.rewrites, present, Option.getD_some]
    dsimp only [MtkHnat.walked]
    congr 3
    funext ppeId
    by_cases same : ppeId = ppes
    · subst same
      rw [Function.update_self, if_pos (Nat.lt_succ_self _), present, Option.map_some]
    · rw [Function.update_of_ne same]
      exact if_congr (by omega) rfl rfl

theorem walkPpes_sized {result : Nat × MtkHnat}
    (run : walkPpes false visit count ppes h = some result) : h.Sized count ppes := by
  induction ppes generalizing result with
  | zero => exact fun _ below => absurd below (Nat.not_lt_zero _)
  | succ ppes ih =>
    intro ppeId below
    rw [walkPpes] at run
    cases earlier : walkPpes false visit count ppes h with
    | none =>
      rw [earlier] at run
      cases run
    | some before =>
      rw [earlier] at run
      rcases Nat.lt_or_eq_of_le (Nat.le_of_lt_succ below) with before' | rfl
      · exact ih earlier ppeId before'
      · have untouched := walkPpes_beyond earlier ppeId (Nat.le_refl _)
        dsimp only at run
        rw [untouched] at run
        cases present : h.foeTableCpu ppeId with
        | none =>
          rw [present] at run
          cases run
        | some table =>
          rw [present] at run
          refine ⟨table, rfl, Nat.le_of_not_lt fun short => ?_⟩
          dsimp only at run
          rw [walk_outside short] at run
          cases run

def visited (visit : Nat → Nat → FoeEntry → Option FoeEntry) (count ppeId index : Nat)
    (entry : FoeEntry) : Option FoeEntry :=
  if index < count then visit ppeId index entry else none

/-- A pass leaves the tables as a treatment of every entry does exactly when it stays inside them
and makes the same of every entry. -/
theorem walkPpes_tables_iff :
    (∃ ret, walkPpes false visit count h.ppeNum h = some (ret, h.visitAll spec h.ppeNum)) ↔
      h.Sized count h.ppeNum ∧
      ∀ ppeId < h.ppeNum, ∀ table, h.foeTableCpu ppeId = some table →
        ∀ index entry, table[index]? = some entry →
          (visited visit count ppeId index entry).getD entry =
            (spec ppeId index entry).getD entry := by
  have tables (sized : h.Sized count h.ppeNum) :
      h.walked visit count h.ppeNum = h.visitAll spec h.ppeNum ↔
        ∀ ppeId < h.ppeNum, ∀ table, h.foeTableCpu ppeId = some table →
          MetaFilogic.walked (visit ppeId) count table =
            table.mapIdx fun index entry => (spec ppeId index entry).getD entry := by
    unfold MtkHnat.walked MtkHnat.visitAll
    rw [MtkHnat.mk.injEq]
    simp only [true_and, and_true]
    rw [funext_iff]
    refine forall_congr' fun ppeId => ?_
    by_cases below : ppeId < h.ppeNum
    · rw [if_pos below, if_pos below]
      obtain ⟨table, present, -⟩ := sized ppeId below
      rw [present]
      simp only [Option.map_some, Option.some.injEq, below, forall_const, forall_eq']
    · rw [if_neg below, if_neg below]
      exact iff_of_true rfl fun below' => absurd below' below
  have cells (ppeId : Nat) (table : List FoeEntry) :
      MetaFilogic.walked (visit ppeId) count table =
          table.mapIdx (fun index entry => (spec ppeId index entry).getD entry) ↔
        ∀ index entry, table[index]? = some entry →
          (visited visit count ppeId index entry).getD entry =
            (spec ppeId index entry).getD entry := by
    unfold MetaFilogic.walked visited
    rw [List.ext_getElem?_iff]
    refine forall_congr' fun index => ?_
    rw [List.getElem?_mapIdx, List.getElem?_mapIdx]
    cases table[index]? with
    | none => simp
    | some entry =>
      simp only [Option.map_some, Option.some.injEq, forall_eq']
      by_cases visitedHere : index < count
      · rw [if_pos visitedHere, if_pos visitedHere]
      · rw [if_neg visitedHere, if_neg visitedHere, Option.getD_none]
  constructor
  · rintro ⟨ret, run⟩
    have sized := walkPpes_sized run
    rw [walkPpes_eq sized] at run
    have same := (tables sized).mp (Prod.mk.inj (Option.some.inj run)).2
    exact ⟨sized, fun ppeId below table present =>
      (cells ppeId table).mp (same ppeId below table present)⟩
  · rintro ⟨sized, same⟩
    refine ⟨h.rewrites visit count h.ppeNum, ?_⟩
    rw [walkPpes_eq sized, (tables sized).mpr fun ppeId below table present =>
      (cells ppeId table).mpr (same ppeId below table present)]

/-- How many entries of the first `ppes` tables a treatment rewrites. -/
def MtkHnat.treated (h : MtkHnat) (spec : Nat → Nat → FoeEntry → Option FoeEntry) :
    (ppes : Nat) → Nat
  | 0 => 0
  | ppes + 1 => h.treated spec ppes +
      MetaFilogic.rewrites (spec ppes) ((h.foeTableCpu ppes).getD []).length
        ((h.foeTableCpu ppes).getD [])

theorem rewrites_eq_treated (sized : h.Sized count ppes)
    (same : ∀ ppeId < ppes, ∀ table, h.foeTableCpu ppeId = some table →
      ∀ index entry, table[index]? = some entry →
        visited visit count ppeId index entry = spec ppeId index entry) :
    h.rewrites visit count ppes = h.treated spec ppes := by
  induction ppes with
  | zero => rfl
  | succ ppes ih =>
    obtain ⟨table, present, inside⟩ := sized ppes (Nat.lt_succ_self _)
    rw [MtkHnat.rewrites, MtkHnat.treated,
      ih (fun ppeId below => sized ppeId (Nat.lt_succ_of_lt below))
        fun ppeId below => same ppeId (Nat.lt_succ_of_lt below),
      present, Option.getD_some,
      rewrites_all inside (same ppes (Nat.lt_succ_self _) table present)]

theorem walkPpes_exact_iff (visitChanges : ∀ ppeId index entry, visit ppeId index entry ≠ some entry)
    (specChanges : ∀ ppeId index entry, spec ppeId index entry ≠ some entry) :
    walkPpes false visit count h.ppeNum h =
        some (h.treated spec h.ppeNum, h.visitAll spec h.ppeNum) ↔
      h.Sized count h.ppeNum ∧
      ∀ ppeId < h.ppeNum, ∀ table, h.foeTableCpu ppeId = some table →
        ∀ index entry, table[index]? = some entry →
          visited visit count ppeId index entry = spec ppeId index entry := by
  have visitedChanges (ppeId index : Nat) (entry : FoeEntry) :
      visited visit count ppeId index entry ≠ some entry := by
    unfold visited
    split
    · exact visitChanges ppeId index entry
    · exact nofun
  constructor
  · intro run
    obtain ⟨sized, same⟩ := walkPpes_tables_iff.mp ⟨_, run⟩
    refine ⟨sized, fun ppeId below table present index entry at_ => ?_⟩
    have getD := same ppeId below table present index entry at_
    have left := visitedChanges ppeId index entry
    have right := specChanges ppeId index entry
    cases visitedTo : visited visit count ppeId index entry with
    | none =>
      cases treatedTo : spec ppeId index entry with
      | none => rfl
      | some new =>
        rw [visitedTo, treatedTo] at getD
        exact absurd (treatedTo.trans (congrArg some getD.symm)) right
    | some new =>
      cases treatedTo : spec ppeId index entry with
      | none =>
        rw [visitedTo, treatedTo] at getD
        exact absurd (visitedTo.trans (congrArg some getD)) left
      | some new' =>
        rw [visitedTo, treatedTo] at getD
        exact congrArg some getD
  · rintro ⟨sized, same⟩
    obtain ⟨ret, run⟩ := walkPpes_tables_iff.mpr ⟨sized, fun ppeId below table present index entry
      at_ => congrArg (fun treated => treated.getD entry)
        (same ppeId below table present index entry at_)⟩
    have number := run
    rw [walkPpes_eq sized] at number
    rw [run, ← (Prod.mk.inj (Option.some.inj number)).1, rewrites_eq_treated sized same]

end MetaFilogic.Hnat
