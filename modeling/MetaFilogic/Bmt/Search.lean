import MetaFilogic.Bmt.Table

/-!
# Finding the stored table

`searchBmt` reads the candidate blocks from the top of the chip down and takes
the first that holds a valid table.  Here is what it can find, whatever the reads
return, and what it does find when every readable page is read.
-/

namespace MetaFilogic.Bmt.V2

variable {d : Desc}

def tableAt (d : Desc) (flash : Flash) (block : Nat) : Nat → Half := fun word =>
  if word < bufWords d then
    (flash (d.blkPg block + word / d.pgWords)).data (word % d.pgWords)
  else
    0

/-- The pages of the table at a block lie on the chip and can be corrected. -/
def Legible (d : Desc) (flash : Flash) (block : Nat) : Prop :=
  d.blkPg block + bmtPgs d ≤ d.totalPages ∧
    ∀ index < bmtPgs d, (flash (d.blkPg block + index)).readable = true

def Carries (d : Desc) (flash : Flash) (block : Nat) : Prop :=
  Legible d flash block ∧
    isValidBmt d (tableAt d flash block) (flash (d.blkPg block)) = true

def tableMemory (d : Desc) (flash : Flash) (block : Nat) : Memory :=
  let table : Memory := ⟨tableAt d flash block, 0, 0⟩
  { table with bmtBlkIdx := getBmtIndex d table }

variable {m : Memory} {s : State Memory}

theorem getBmtIndexFrom_congr {other : Memory} (same : m.bbt = other.bbt) (rest i : Nat) :
    getBmtIndexFrom d m rest i = getBmtIndexFrom d other rest i := by
  cases m
  cases other
  obtain rfl := same
  induction rest generalizing i with
  | zero => rfl
  | succ rest ih =>
    simp only [getBmtIndexFrom, ih]
    rfl

theorem getBmtIndex_congr {other : Memory} (same : m.bbt = other.bbt) :
    getBmtIndex d m = getBmtIndex d other :=
  getBmtIndexFrom_congr same _ _

/-- The memory behind the end of `bbt_buf` is as `kzalloc` left it. -/
def Bounded (d : Desc) (m : Memory) : Prop :=
  ∀ word, bufWords d ≤ word → m.bbt word = 0

theorem Bounded.fresh (m : Memory) : Bounded d { m with bbt := freshBuffer d } :=
  fun _ outside => if_neg (by omega)

theorem Bounded.spoiled (bounded : Bounded d m) (fault : Fault) :
    Bounded d (spoiled d fault m) := by
  intro word outside
  unfold V2.spoiled
  cases fault.readLeaves with
  | none => exact bounded word outside
  | some left =>
    show (if word < bufWords d then left word else m.bbt word) = 0
    rw [if_neg (by omega)]
    exact bounded word outside

theorem Bounded.loaded (bounded : Bounded d m) (flash : Flash) (block : Nat) :
    (loaded d flash block m).bbt = tableAt d flash block := by
  funext word
  show (if word < bufWords d then _ else m.bbt word) = tableAt d flash block word
  unfold tableAt
  split
  · rfl
  · exact bounded word (by omega)

/-! ## Reading one candidate -/

theorem readRet_nonneg {fault : Fault} {flash : Flash} {first count : Nat}
    (success : 0 ≤ readRet fault flash first count) :
    ∀ index < count, (flash (first + index)).readable = true := by
  intro index inside
  by_contra unreadable
  have notAll : ¬((List.range count).all fun index => (flash (first + index)).readable) = true :=
    fun all => unreadable (List.all_eq_true.mp all index (List.mem_range.mpr inside))
  simp only [readRet, if_neg notAll] at success
  split at success <;> rename_i failing
  · omega
  · exact absurd success (by decide)

theorem bbtNandRead_legible {block : Nat}
    (success : (bbtNandRead d (d.blkPg block) (bmtPgs d) s).1.1 = 0) : Legible d s.flash block := by
  rw [bbtNandRead_run, readOob_run] at success
  have passed : 0 ≤ (if d.totalPages < d.blkPg block + bmtPgs d then -EINVAL
      else readRet (d.fault s.clock) s.flash (d.blkPg block) (bmtPgs d)) := by
    by_contra negative
    dsimp only at success
    rw [if_pos (Int.not_le.mp negative)] at success
    omega
  by_cases outside : d.totalPages < d.blkPg block + bmtPgs d
  · rw [if_pos outside] at passed
    exact absurd passed (by decide)
  · rw [if_neg outside] at passed
    exact ⟨not_lt.mp outside, readRet_nonneg passed⟩

def ReadsSucceed (d : Desc) : Prop :=
  ∀ clock, 0 ≤ (d.fault clock).readRet

theorem bbtNandRead_of_legible {block : Nat} (reads : ReadsSucceed d)
    (legible : Legible d s.flash block) : (bbtNandRead d (d.blkPg block) (bmtPgs d) s).1.1 = 0 := by
  have all : ((List.range (bmtPgs d)).all fun index =>
      (s.flash (d.blkPg block + index)).readable) = true :=
    List.all_eq_true.mpr fun index inside => legible.2 index (List.mem_range.mp inside)
  rw [bbtNandRead_run, readOob_run, if_neg (not_lt.mpr legible.1), readRet, if_pos all]
  exact if_neg (Int.not_lt.mpr (reads _))

/-! ## The search -/

/-- What the search leaves behind when it stops at a block. -/
structure FoundAt (d : Desc) (flash : Flash) (block : Nat) (m : Memory) : Prop where
  carries : Carries d flash block
  bbt : m.bbt = tableAt d flash block
  index : m.bmtBlkIdx = getBmtIndex d m

/-- Whatever the reads return, a table the search takes is a valid one on the
chip. -/
theorem searchBmt_found (count : Nat) (bounded : Bounded d s.mem) :
    Ensures (searchBmt d count) s fun found after =>
      after.flash = s.flash ∧ (found → after.mem.bmtBlkIdx ≠ 0 ∧
        ∃ block, poolLba d ≤ block ∧ block < poolLba d + count ∧
          FoundAt d s.flash block after.mem) := by
  induction count generalizing s with
  | zero => exact ⟨rfl, nofun⟩
  | succ count ih =>
    have lower {middle : State Memory} (bounded : Bounded d middle.mem)
        (sameFlash : middle.flash = s.flash) :
        Ensures (searchBmt d count) middle fun found after =>
          after.flash = s.flash ∧ (found → after.mem.bmtBlkIdx ≠ 0 ∧
            ∃ block, poolLba d ≤ block ∧ block < poolLba d + (count + 1) ∧
              FoundAt d s.flash block after.mem) := by
      refine (ih bounded).mono fun found after result => ?_
      rw [sameFlash] at result
      refine ⟨result.1, fun holds => ?_⟩
      obtain ⟨nonzero, block, atLeast, below, foundAt⟩ := result.2 holds
      exact ⟨nonzero, block, atLeast, by omega, foundAt⟩
    let block := poolLba d + count
    have read : Ensures (bbtNandRead d (d.blkPg block) (bmtPgs d)) s fun read after =>
        after.mem = s.mem ∧ after.flash = s.flash ∧ read.2.2 = s.flash ∧
          (read.1 = 0 → Legible d s.flash block) := by
      unfold Ensures
      refine ⟨?_, ?_, ?_, bbtNandRead_legible⟩ <;> rw [bbtNandRead_run]
    refine read.bind fun (ret, fault, flash) after ⟨sameMem, sameFlash, same, legible⟩ => ?_
    obtain rfl : flash = s.flash := same
    refine .ite (fun _ => .modifyMem_bind (lower ?_ sameFlash)) fun success =>
      .modifyMem_bind (.getMem_bind (.ite (fun _ => lower ?_ sameFlash) fun valid => ?_))
    · exact (sameMem ▸ bounded : Bounded d after.mem).spoiled fault
    · intro word outside
      rw [Bounded.loaded (sameMem ▸ bounded)]
      exact if_neg (by omega)
    · have table := Bounded.loaded (sameMem ▸ bounded : Bounded d after.mem) s.flash block
      have carries : Carries d s.flash block :=
        ⟨legible (not_not.mp success), by rw [← table]; simpa using valid⟩
      refine .modifyMem_bind (.pure ⟨sameFlash, fun nonzero => ?_⟩)
      exact ⟨of_decide_eq_true nonzero, block, Nat.le_add_right _ _, by omega,
        carries, table, getBmtIndex_congr rfl⟩

/-- The topmost of the `count` candidates that holds a valid table. -/
structure Topmost (d : Desc) (flash : Flash) (count block : Nat) : Prop where
  atLeast : poolLba d ≤ block
  below : block < poolLba d + count
  carries : Carries d flash block
  top : ∀ other, block < other → other < poolLba d + count → ¬Carries d flash other

/-- When every readable page is read, the search takes the topmost valid table, and
refuses it when no entry in it is marked. -/
theorem searchBmt_topmost (reads : ReadsSucceed d) (count : Nat) (bounded : Bounded d s.mem) :
    Ensures (searchBmt d count) s fun found after =>
      (found → ∃ block, Topmost d s.flash count block) ∧
        ∀ block, Topmost d s.flash count block →
          (found ↔ after.mem.bmtBlkIdx ≠ 0) ∧ FoundAt d s.flash block after.mem := by
  induction count generalizing s with
  | zero =>
    refine ⟨nofun, fun block top => ?_⟩
    have below := top.below
    have atLeast := top.atLeast
    omega
  | succ count ih =>
    let block := poolLba d + count
    have lower {middle : State Memory} (bounded : Bounded d middle.mem)
        (sameFlash : middle.flash = s.flash) (none : ¬Carries d s.flash block) :
        Ensures (searchBmt d count) middle fun found after =>
          (found → ∃ block, Topmost d s.flash (count + 1) block) ∧
            ∀ block, Topmost d s.flash (count + 1) block →
              (found ↔ after.mem.bmtBlkIdx ≠ 0) ∧ FoundAt d s.flash block after.mem := by
      refine (ih bounded).mono fun found after result => ?_
      rw [sameFlash] at result
      refine ⟨fun isFound => ?_, fun other top => result.2 other ?_⟩
      · obtain ⟨other, top⟩ := result.1 isFound
        have below := top.below
        refine ⟨other, top.atLeast, by omega, top.carries, fun higher above inside => ?_⟩
        rcases Nat.lt_or_eq_of_le (Nat.le_of_lt_succ inside) with inner | rfl
        · exact top.top higher above inner
        · exact none
      · have different : other ≠ block := fun same => none (same ▸ top.carries)
        have below := top.below
        exact ⟨top.atLeast, by omega, top.carries,
          fun higher above inside => top.top higher above (by omega)⟩
    have read : Ensures (bbtNandRead d (d.blkPg block) (bmtPgs d)) s fun read after =>
        after.mem = s.mem ∧ after.flash = s.flash ∧ read.2.2 = s.flash ∧
          (read.1 = 0 ↔ Legible d s.flash block) := by
      unfold Ensures
      refine ⟨?_, ?_, ?_, bbtNandRead_legible, bbtNandRead_of_legible reads⟩ <;>
        rw [bbtNandRead_run]
    refine read.bind fun (ret, fault, flash) after ⟨sameMem, sameFlash, same, legible⟩ => ?_
    obtain rfl : flash = s.flash := same
    have boundedAfter : Bounded d after.mem := sameMem ▸ bounded
    have table := boundedAfter.loaded s.flash block
    refine .ite (fun failed => .modifyMem_bind (lower (boundedAfter.spoiled fault) sameFlash ?_))
      fun success => .modifyMem_bind (.getMem_bind (.ite (fun invalid => lower ?_ sameFlash ?_)
        fun valid => ?_))
    · exact fun carries => failed (legible.mpr carries.1)
    · intro word outside
      rw [table]
      exact if_neg (by omega)
    · intro carries
      have valid := carries.2
      rw [← table] at valid
      simp [block, valid] at invalid
    · have carries : Carries d s.flash block :=
        ⟨legible.mp (not_not.mp success), by rw [← table]; simpa using valid⟩
      have top : Topmost d s.flash (count + 1) block :=
        ⟨Nat.le_add_right _ _, by omega, carries, fun other above inside => by omega⟩
      refine .modifyMem_bind (.pure ⟨fun _ => ⟨block, top⟩, fun other otherTop => ?_⟩)
      have same : other = block := by
        by_contra different
        have below := otherTop.below
        exact otherTop.top block (by omega) (by omega) carries
      subst same
      exact ⟨⟨fun isFound => of_decide_eq_true isFound, fun nonzero => decide_eq_true nonzero⟩,
        carries, table, getBmtIndex_congr rfl⟩

/-! ## Marked entries -/

/-- Entry `n` is the first marked for the table, with no empty entry before it. -/
structure Marked (d : Desc) (n : Nat) (m : Memory) : Prop where
  nonzero : bmtBlock d m n ≠ BMT_TBL_DEF_VAL
  marked : bmtMapped d m n = BMT_MAPPED
  earlier : ∀ k < n, bmtBlock d m k ≠ BMT_TBL_DEF_VAL ∧ bmtMapped d m k ≠ BMT_MAPPED

theorem getBmtIndexFrom_of_marked {n : Nat} (marked : Marked d n m) (rest i : Nat) (upTo : i ≤ n)
    (inside : n < i + rest) : getBmtIndexFrom d m rest i = u16 n := by
  induction rest generalizing i with
  | zero => omega
  | succ rest ih =>
    rcases Nat.lt_or_eq_of_le upTo with before | rfl
    · obtain ⟨nonzero, unmarked⟩ := marked.earlier i before
      rw [getBmtIndexFrom, if_neg nonzero, if_neg unmarked]
      exact ih (i + 1) before (by omega)
    · rw [getBmtIndexFrom, if_neg marked.nonzero, if_pos marked.marked]

theorem marked_of_getBmtIndexFrom (rest i : Nat) (bound : i + rest ≤ 2 ^ 16)
    (earlier : ∀ k < i, bmtBlock d m k ≠ BMT_TBL_DEF_VAL ∧ bmtMapped d m k ≠ BMT_MAPPED)
    (nonzero : getBmtIndexFrom d m rest i ≠ 0) :
    getBmtIndexFrom d m rest i < i + rest ∧ Marked d (getBmtIndexFrom d m rest i) m := by
  induction rest generalizing i with
  | zero => exact absurd rfl nonzero
  | succ rest ih =>
    rw [getBmtIndexFrom] at nonzero ⊢
    by_cases empty : bmtBlock d m i = BMT_TBL_DEF_VAL
    · exact absurd (if_pos empty) nonzero
    · rw [if_neg empty] at nonzero ⊢
      by_cases found : bmtMapped d m i = BMT_MAPPED
      · rw [if_pos found, u16_of_lt (by omega)]
        exact ⟨by omega, empty, found, earlier⟩
      · rw [if_neg found] at nonzero ⊢
        have next : ∀ k < i + 1,
            bmtBlock d m k ≠ BMT_TBL_DEF_VAL ∧ bmtMapped d m k ≠ BMT_MAPPED := by
          intro k below
          rcases Nat.lt_or_eq_of_le (Nat.le_of_lt_succ below) with before | rfl
          · exact earlier k before
          · exact ⟨empty, found⟩
        obtain ⟨inside, marked⟩ := ih (i + 1) (by omega) next nonzero
        exact ⟨by omega, marked⟩

/-- `get_bmt_index` answers `n` other than zero exactly when entry `n` is marked. -/
theorem getBmtIndex_eq_iff {n : Nat} (some : n ≠ 0) :
    getBmtIndex d m = n ↔ n < d.tableSize ∧ Marked d n m := by
  have small := d.tableSize_le
  constructor
  · rintro rfl
    have found := marked_of_getBmtIndexFrom (m := m) d.tableSize 0 (by omega) (by omega) some
    exact ⟨found.1.trans_eq (Nat.zero_add _), found.2⟩
  · rintro ⟨inside, marked⟩
    exact (getBmtIndexFrom_of_marked marked _ 0 (Nat.zero_le n) (by omega)).trans
      (u16_of_lt (by omega))

end MetaFilogic.Bmt.V2
