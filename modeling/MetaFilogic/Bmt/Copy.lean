import MetaFilogic.Bmt.Core

/-!
# What `bbt_nand_copy` copies

A copy that returns 0 has written every page below `max_offset` and no other.
The main area comes from the source; the spare area stays what it was, because
the write descriptor of a page gets its `ooblen` only after it was used.
-/

namespace MetaFilogic.Bmt

variable {μ : Type} {d : Desc}

/-! ## Page numbers -/

variable {index page first dest src maxOffset rest : Nat} {flash : Flash} {s : State μ}

theorem blkPg_add_inj {block other next : Nat} (first : index < d.pages) (second : next < d.pages)
    (same : d.blkPg block + index = d.blkPg other + next) : block = other ∧ index = next := by
  have blocks : block = other := by
    have quotient := congrArg (· / d.pages) same
    simpa only [Desc.blkPg, Nat.mul_add_div d.pages_pos, Nat.mul_comm _ d.pages,
      Nat.div_eq_of_lt first, Nat.div_eq_of_lt second, Nat.add_zero] using quotient
  subst blocks
  exact ⟨rfl, Nat.add_left_cancel same⟩

@[simp]
theorem setPages_self (flash : Flash) (page : Nat) (contents : Nat → PageData) :
    setPages flash page 1 contents page = contents page :=
  if_pos ⟨le_rfl, Nat.lt_succ_self page⟩

theorem setPages_of_ne {contents : Nat → PageData} (other : page ≠ first) :
    setPages flash first 1 contents page = flash page :=
  if_neg (by omega)

theorem setPages_congr {contents other : Nat → PageData} (same : contents first = other first) :
    setPages flash first 1 contents = setPages flash first 1 other := by
  funext page
  by_cases here : page = first
  · rw [here, setPages_self, setPages_self, same]
  · rw [setPages_of_ne here, setPages_of_ne here]

/-! ## The loop -/

/-- The pages one call is to copy, from page `index` of the block on. -/
def Due (d : Desc) (maxOffset index rest page : Nat) : Prop :=
  index ≤ page ∧ page < index + rest ∧ page * d.pgSize < maxOffset

def copyPage (d : Desc) (before : Flash) (dest src page : Nat) : PageData :=
  ⟨(before (d.blkPg src + page)).data, (before (d.blkPg dest + page)).oob, true⟩

theorem copyPage_congr {before after : Flash}
    (source : after (d.blkPg src + page) = before (d.blkPg src + page))
    (target : after (d.blkPg dest + page) = before (d.blkPg dest + page)) :
    copyPage d after dest src page = copyPage d before dest src page := by
  rw [copyPage, source, target, copyPage]

/-- Every due page holds its copy and every other page of the chip is untouched. -/
structure Wrote (d : Desc) (dest src maxOffset index rest : Nat) (before after : Flash) :
    Prop where
  due : ∀ page, Due d maxOffset index rest page →
    after (d.blkPg dest + page) = copyPage d before dest src page
  others : ∀ address, (∀ page, Due d maxOffset index rest page →
    address ≠ d.blkPg dest + page) → after address = before address

theorem Wrote.nothing (none : ∀ page, ¬Due d maxOffset index rest page) :
    Wrote d dest src maxOffset index rest flash flash where
  due page isDue := absurd isDue (none page)
  others _ _ := rfl

theorem Wrote.cons {before after : Flash} (bound : index + (rest + 1) ≤ d.pages)
    (below : index * d.pgSize < maxOffset) (later : Wrote d dest src maxOffset (index + 1) rest
      (setPages before (d.blkPg dest + index) 1 fun _ => copyPage d before dest src index)
      after) : Wrote d dest src maxOffset index (rest + 1) before after := by
  have apart : ∀ block page, page < d.pages → page ≠ index →
      setPages before (d.blkPg dest + index) 1 (fun _ => copyPage d before dest src index)
        (d.blkPg block + page) = before (d.blkPg block + page) := by
    intro block page inside different
    refine setPages_of_ne fun same => different ?_
    exact (blkPg_add_inj inside (by omega) same).2
  refine ⟨fun page isDue => ?_, fun address notDue => ?_⟩
  · obtain ⟨fromIndex, inside, short⟩ := isDue
    by_cases first : page = index
    · subst first
      have kept := later.others (d.blkPg dest + page) fun other isDue same => by
        have := (blkPg_add_inj (by omega) (by have := isDue.2.1; omega) same).2
        have := isDue.1
        omega
      rw [kept, setPages_self]
    · rw [later.due page ⟨by omega, by omega, short⟩]
      exact copyPage_congr (apart src page (by omega) first) (apart dest page (by omega) first)
  · rw [later.others address fun page isDue =>
      notDue page ⟨by have := isDue.1; omega, by have := isDue.2.1; omega, isDue.2.2⟩]
    exact setPages_of_ne (notDue index ⟨le_rfl, by omega, below⟩)

def copied (d : Desc) (dest src index : Nat) (s : State μ) : State μ :=
  { s with
    clock := s.clock + 2
    flash := setPages s.flash (d.blkPg dest + index) 1 fun _ => copyPage d s.flash dest src index }

theorem bind_run {α β : Type} (program : BmtM μ α) (next : α → BmtM μ β) (s : State μ) :
    (program >>= next) s = next (program s).1 (program s).2 :=
  rfl

/-- The page the copy is at: a read, then a write, and the error of either ends the
call. -/
theorem bbtNandCopyFrom_run (below : index * d.pgSize < maxOffset) :
    bbtNandCopyFrom d dest src maxOffset (rest + 1) index s =
      let read := readOob d (d.blkPg src + index) 1 s
      if read.1.1 < 0 ∧ !mtdIsBitflip read.1.1 then
        (read.1.1, read.2)
      else
        let write := writeOob d (d.blkPg dest + index) 1 (fun flash page =>
          ⟨(read.1.2.2 (d.blkPg src + index)).data, (flash page).oob, true⟩) read.2
        if write.1 < 0 then write
        else bbtNandCopyFrom d dest src maxOffset rest (index + 1) write.2 := by
  rw [bbtNandCopyFrom, if_neg (Nat.not_le_of_lt below)]
  rw [bind_run]
  obtain ⟨⟨ret, fault, source⟩, after⟩ := readOob d (d.blkPg src + index) 1 s
  dsimp only
  rw [ite_apply]
  refine if_congr Iff.rfl rfl ?_
  rw [bind_run, ite_apply]
  rfl

theorem writeOob_succeeded {contents : Flash → Nat → PageData}
    (success : ¬(writeOob d first 1 contents s).1 < 0) :
    (writeOob d first 1 contents s).2 =
      { s with clock := s.clock + 1, flash := setPages s.flash first 1 (contents s.flash) } := by
  rw [writeOob_run] at success ⊢
  split at success
  · exact absurd (show (-EINVAL : Int) < 0 by decide) success
  · rename_i inside
    rw [if_neg inside, afterWrite, if_pos (Int.not_lt.mp success)]

theorem bbtNandCopyFrom_succ (below : index * d.pgSize < maxOffset)
    (success : (bbtNandCopyFrom d dest src maxOffset (rest + 1) index s).1 = 0) :
    bbtNandCopyFrom d dest src maxOffset (rest + 1) index s =
      bbtNandCopyFrom d dest src maxOffset rest (index + 1) (copied d dest src index s) := by
  rw [bbtNandCopyFrom_run below] at success ⊢
  dsimp only at success ⊢
  have failing : ∀ {ret : Int}, ret < 0 → ret ≠ 0 := fun negative => by omega
  split at success
  · rename_i failed
    exact absurd success (failing failed.1)
  · rename_i read
    rw [if_neg read]
    split at success
    · rename_i failed
      exact absurd success (failing failed)
    · rename_i written
      rw [if_neg written]
      refine congrArg _ ?_
      have image : setPages s.flash (d.blkPg dest + index) 1
            (fun page => ⟨(s.flash (d.blkPg src + index)).data, (s.flash page).oob, true⟩) =
          setPages s.flash (d.blkPg dest + index) 1 fun _ => copyPage d s.flash dest src index :=
        setPages_congr rfl
      rw [writeOob_succeeded written, readOob_run, copied]
      dsimp only
      rw [image]

theorem bbtNandCopyFrom_wrote (bound : index + rest ≤ d.pages)
    (success : (bbtNandCopyFrom d dest src maxOffset rest index s).1 = 0) :
    Wrote d dest src maxOffset index rest s.flash
      (bbtNandCopyFrom d dest src maxOffset rest index s).2.flash := by
  induction rest generalizing index s with
  | zero =>
    exact Wrote.nothing fun page isDue => by
      have := isDue.1
      have := isDue.2.1
      omega
  | succ rest ih =>
    by_cases past : maxOffset ≤ index * d.pgSize
    · have stays : bbtNandCopyFrom d dest src maxOffset (rest + 1) index s = (0, s) := by
        rw [bbtNandCopyFrom, if_pos past]
        rfl
      rw [stays]
      refine Wrote.nothing fun page isDue => ?_
      have := Nat.mul_le_mul_right d.pgSize isDue.1
      have := isDue.2.2
      omega
    · have step := bbtNandCopyFrom_succ (Nat.lt_of_not_le past) success
      rw [step] at success ⊢
      exact .cons bound (Nat.lt_of_not_le past) (ih (by omega) success)

/-! ## Frames -/

def KeepsPages {μ : Type} (kept : Nat → Prop) (before after : State μ) : Prop :=
  ∀ page, kept page → after.flash page = before.flash page

namespace KeepsPages

variable {kept : Nat → Prop}

instance : Std.Refl (@KeepsPages μ kept) := ⟨fun _ _ _ => rfl⟩

instance : IsTrans (State μ) (KeepsPages kept) :=
  ⟨fun _ _ _ first second page isKept => (second page isKept).trans (first page isKept)⟩

theorem setPages {flash : Flash} {first count : Nat} {contents : Nat → PageData} {page : Nat}
    (outside : ¬(first ≤ page ∧ page < first + count)) :
    setPages flash first count contents page = flash page :=
  if_neg outside

theorem readOob (d : Desc) (first count : Nat) :
    Preserves (KeepsPages kept) (@Bmt.readOob μ d first count) :=
  fun s page _ => by rw [readOob_run]

theorem writeOob (d : Desc) {first count : Nat} (contents : Flash → Nat → PageData)
    (outside : ∀ page, kept page → ¬(first ≤ page ∧ page < first + count)) :
    Preserves (KeepsPages kept) (@Bmt.writeOob μ d first count contents) := by
  intro s page isKept
  rw [writeOob_run]
  split
  · rfl
  · show afterWrite _ _ _ _ _ page = _
    rw [afterWrite]
    split
    · exact setPages (outside page isKept)
    · cases (d.fault s.clock).writeLeaves with
      | none => rfl
      | some left => exact setPages (outside page isKept)

theorem bbtNandErase (d : Desc) {block : Nat}
    (outside : ∀ page, kept page → page / d.pages ≠ block) :
    Preserves (KeepsPages kept) (@Bmt.bbtNandErase μ d block) := by
  intro s page isKept
  rw [bbtNandErase_run]
  split
  · rfl
  · show Desc.afterErase _ _ _ _ page = _
    rw [Desc.afterErase]
    split
    · exact if_neg (outside page isKept)
    · cases (d.fault s.clock).eraseLeaves with
      | none => rfl
      | some contents => exact if_neg (outside page isKept)

theorem bbtNandCopyFrom (d : Desc) {dest : Nat} (src maxOffset : Nat) {rest index : Nat}
    (bound : index + rest ≤ d.pages) (outside : ∀ page, kept page → page / d.pages ≠ dest) :
    Preserves (KeepsPages kept) (@Bmt.bbtNandCopyFrom μ d dest src maxOffset rest index) := by
  induction rest generalizing index with
  | zero => exact .pure _
  | succ rest ih =>
    have apart : ∀ page, kept page →
        ¬(d.blkPg dest + index ≤ page ∧ page < d.blkPg dest + index + 1) := by
      rintro page isKept ⟨first, last⟩
      refine outside page isKept ?_
      have same : page = d.blkPg dest + index := by omega
      rw [same, Desc.blkPg, Nat.mul_comm, Nat.mul_add_div d.pages_pos,
        Nat.div_eq_of_lt (by omega), Nat.add_zero]
    refine .ite (fun _ => .pure _) fun _ => (readOob d _ 1).bind fun _ => ?_
    refine .ite (fun _ => .pure _) fun _ => (writeOob d _ apart).bind fun _ => ?_
    exact .ite (fun _ => .pure _) fun _ => ih (by omega)

theorem bbtNandCopy (d : Desc) {dest : Nat} (src maxOffset : Nat)
    (outside : ∀ page, kept page → page / d.pages ≠ dest) :
    Preserves (KeepsPages kept) (@Bmt.bbtNandCopy μ d dest src maxOffset) :=
  bbtNandCopyFrom d src maxOffset (by omega) outside

end KeepsPages

/-! ## Fidelity -/

/-- The spare bytes `bbt_nand_copy` reads of a page: `min(oobsize / pages, sizeof(oob))`. -/
def copyOobLen (d : Desc) (oobsize : Nat) : Nat := min (oobsize / d.pages) 64

def InCopy (d : Desc) (maxOffset page : Nat) : Prop :=
  page < d.pages ∧ page * d.pgSize < maxOffset

/-- Every page below `max_offset` has the main area and the spare bytes of its
source, and nothing else was written. -/
structure Faithful (d : Desc) (oobsize dest src maxOffset : Nat) (before after : Flash) :
    Prop where
  data : ∀ page, InCopy d maxOffset page →
    (after (d.blkPg dest + page)).data = (before (d.blkPg src + page)).data
  oob : ∀ page, InCopy d maxOffset page → ∀ byte < copyOobLen d oobsize,
    (after (d.blkPg dest + page)).oob byte = (before (d.blkPg src + page)).oob byte
  others : ∀ address, (∀ page, InCopy d maxOffset page → address ≠ d.blkPg dest + page) →
    after address = before address

def SameOob (d : Desc) (oobsize dest src maxOffset : Nat) (flash : Flash) : Prop :=
  ∀ page, InCopy d maxOffset page → ∀ byte < copyOobLen d oobsize,
    (flash (d.blkPg dest + page)).oob byte = (flash (d.blkPg src + page)).oob byte

theorem due_iff : Due d maxOffset 0 d.pages page ↔ InCopy d maxOffset page := by
  rw [Due, Nat.zero_add, InCopy]
  exact and_iff_right (Nat.zero_le page)

theorem bbtNandCopy_wrote (success : (bbtNandCopy d dest src maxOffset s).1 = 0) :
    Wrote d dest src maxOffset 0 d.pages s.flash (bbtNandCopy d dest src maxOffset s).2.flash :=
  bbtNandCopyFrom_wrote (by omega) success

/-- A copy that returns 0 is faithful exactly when there was no spare byte to carry
over. -/
theorem bbtNandCopy_faithful_iff (d : Desc) (oobsize dest src maxOffset : Nat) (s : State μ)
    (success : (bbtNandCopy d dest src maxOffset s).1 = 0) :
    Faithful d oobsize dest src maxOffset s.flash (bbtNandCopy d dest src maxOffset s).2.flash ↔
      SameOob d oobsize dest src maxOffset s.flash := by
  have wrote := bbtNandCopy_wrote success
  have copies : ∀ page, InCopy d maxOffset page →
      (bbtNandCopy d dest src maxOffset s).2.flash (d.blkPg dest + page) =
        copyPage d s.flash dest src page :=
    fun page inCopy => wrote.due page (due_iff.mpr inCopy)
  constructor
  · intro faithful page inCopy byte inside
    have carried := faithful.oob page inCopy byte inside
    rwa [copies page inCopy] at carried
  · intro same
    refine ⟨fun page inCopy => ?_, fun page inCopy byte inside => ?_, fun address notDue => ?_⟩
    · rw [copies page inCopy, copyPage]
    · rw [copies page inCopy]
      exact same page inCopy byte inside
    · exact wrote.others address fun page isDue => notDue page (due_iff.mp isDue)

/-! ## A chip with one written block -/

def twoPageChip : Desc where
  totalBlks := 8
  blkShift := 9
  pgShift := 8
  bmtPoolSize := 4
  tableSize := 8
  oobOffset := 0
  bitflipThreshold := 0
  remapRange := []
  fault _ := {}
  totalBlks_pos := by decide
  totalBlks_lt := by decide
  pgShift_pos := by decide
  pgShift_le := by decide
  tableSize_le := by decide

def writtenChip : State Unit where
  mem := ()
  flash page := if page < 2 then ⟨fun _ => 0x1234, fun _ => 0x56, true⟩ else erasedPage
  clock := 0
  trace := []

theorem bbtNandCopy_faithful_erased :
    Faithful twoPageChip 64 5 4 512 writtenChip.flash
        (bbtNandCopy twoPageChip 5 4 512 writtenChip).2.flash ↔
      SameOob twoPageChip 64 5 4 512 writtenChip.flash :=
  bbtNandCopy_faithful_iff twoPageChip 64 5 4 512 writtenChip (by decide)

/-- The spare bytes `0x56` of block 0 do not reach block 1. -/
theorem bbtNandCopy_loses_oob :
    (bbtNandCopy twoPageChip 1 0 512 writtenChip).1 = 0 ∧
      ¬Faithful twoPageChip 64 1 0 512 writtenChip.flash
        (bbtNandCopy twoPageChip 1 0 512 writtenChip).2.flash := by
  refine ⟨by decide, fun faithful => ?_⟩
  have carried := faithful.oob 0 ⟨by decide, by decide⟩ 0 (by decide)
  exact absurd carried (by decide)

end MetaFilogic.Bmt
