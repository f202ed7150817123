import MetaFilogic.Bmt.Mapping

/-!
# Finding the table again after an upload

`upload_bmt` stores the table in the block of pool entry `n` and, when that block
fails, empties the entry and goes on with entry `n - 1`.  The mark `BMT_MAPPED`
stays behind at the entry given up, so the table it stores then is one in which
`get_bmt_index` meets an empty entry before any mark.  The search at the next start
refuses it, or takes an older table it finds further up.
-/

namespace MetaFilogic.Bmt.V2

variable {d : Desc}

/-- Two tables that agree on `bb_tbl` and on the pool entries up to `n`. -/
structure SameTable (d : Desc) (n : Nat) (m other : Memory) : Prop where
  bbTbl : ∀ i < d.tableSize, bbTbl m i = bbTbl other i
  bmtBlock : ∀ k ≤ n, bmtBlock d m k = bmtBlock d other k
  bmtMapped : ∀ k ≤ n, bmtMapped d m k = bmtMapped d other k

variable {n : Nat} {m other : Memory}

theorem SameTable.symm (same : SameTable d n m other) : SameTable d n other m :=
  ⟨fun i inside => (same.bbTbl i inside).symm, fun k upTo => (same.bmtBlock k upTo).symm,
    fun k upTo => (same.bmtMapped k upTo).symm⟩

theorem SameTable.congr {loaded : Memory} (same : SameTable d n loaded other)
    (bbt : m.bbt = loaded.bbt) : SameTable d n m other := by
  obtain ⟨_, _, _⟩ := m
  obtain rfl := bbt
  exact ⟨same.bbTbl, same.bmtBlock, same.bmtMapped⟩

theorem SameTable.marked (same : SameTable d n m other) (marked : Marked d n m) :
    Marked d n other := by
  refine ⟨?_, ?_, fun k below => ?_⟩
  · rw [← same.bmtBlock n le_rfl]
    exact marked.nonzero
  · rw [← same.bmtMapped n le_rfl]
    exact marked.marked
  · rw [← same.bmtBlock k below.le, ← same.bmtMapped k below.le]
    exact marked.earlier k below

/-- After a start without read failures the table in memory is back: it is found, at
index `n`, with the same entries. -/
def Restored (d : Desc) (n : Nat) (s : State Memory) : Prop :=
  ∀ fault : Nat → Fault, (∀ clock, 0 ≤ (fault clock).readRet) →
    let load := loadBmt { d with fault } s
    load.1 = true ∧ load.2.mem.bmtBlkIdx = n ∧ SameTable d n load.2.mem s.mem

/-- What the chip and the table have to be like for that: entry `n` is the first one
marked, and the topmost valid table in the pool area is this one. -/
structure Recoverable (d : Desc) (n : Nat) (s : State Memory) : Prop where
  nonzero : n ≠ 0
  inside : n < d.tableSize
  marked : Marked d n s.mem
  topmost : ∃ block, Topmost d s.flash (d.totalBlks - poolLba d) block ∧
    SameTable d n (tableMemory d s.flash block) s.mem

theorem loadBmt_topmost (d : Desc) (reads : ReadsSucceed d) (s : State Memory) :
    Ensures (loadBmt d) s fun found after =>
      (found → ∃ block, Topmost d s.flash (d.totalBlks - poolLba d) block) ∧
        ∀ block, Topmost d s.flash (d.totalBlks - poolLba d) block →
          (found ↔ after.mem.bmtBlkIdx ≠ 0) ∧ FoundAt d s.flash block after.mem :=
  .modifyMem_bind (searchBmt_topmost reads _ (Bounded.fresh s.mem))

/-! The behaviour of the device has no part in what a table or a chip holds. -/

theorem marked_fault {fault : Nat → Fault} : Marked { d with fault } n m ↔ Marked d n m :=
  ⟨fun marked => ⟨marked.nonzero, marked.marked, marked.earlier⟩,
    fun marked => ⟨marked.nonzero, marked.marked, marked.earlier⟩⟩

theorem topmost_fault {fault : Nat → Fault} {flash : Flash} {count block : Nat} :
    Topmost { d with fault } flash count block ↔ Topmost d flash count block :=
  ⟨fun top => ⟨top.atLeast, top.below, top.carries, top.top⟩,
    fun top => ⟨top.atLeast, top.below, top.carries, top.top⟩⟩

theorem restored_iff (d : Desc) (n : Nat) (s : State Memory) :
    Restored d n s ↔ Recoverable d n s := by
  constructor
  · intro restored
    let calm : Nat → Fault := fun _ => {}
    have quiet (clock : Nat) : 0 ≤ (calm clock).readRet := Int.le_refl 0
    obtain ⟨found, index, same⟩ := restored calm quiet
    have search := loadBmt_topmost { d with fault := calm } quiet s
    obtain ⟨block, top⟩ := search.1 found
    obtain ⟨nonzero, foundAt⟩ := search.2 block top
    have some : n ≠ 0 := fun zero => nonzero.mp found (index.trans zero)
    obtain ⟨inside, marked⟩ := (getBmtIndex_eq_iff some).mp (foundAt.index.symm.trans index)
    exact ⟨some, inside, same.marked (marked_fault.mp marked), block, topmost_fault.mp top,
      same.congr foundAt.bbt.symm⟩
  · intro recoverable fault reads
    obtain ⟨block, top, same⟩ := recoverable.topmost
    have search := loadBmt_topmost { d with fault } reads s
    obtain ⟨isFound, foundAt⟩ := search.2 block (topmost_fault.mpr top)
    have loadedSame : SameTable d n (loadBmt { d with fault } s).2.mem s.mem :=
      same.congr foundAt.bbt
    have marked := loadedSame.symm.marked recoverable.marked
    have index : (loadBmt { d with fault } s).2.mem.bmtBlkIdx = n :=
      foundAt.index.trans ((getBmtIndex_eq_iff recoverable.nonzero).mpr
        ⟨recoverable.inside, marked_fault.mpr marked⟩)
    exact ⟨isFound.mpr (index ▸ recoverable.nonzero), index, loadedSame⟩

/-- Going down from entry `n`, the first block that can be erased and written is that
of an entry from which the table can be found again. -/
def Restorable (d : Desc) : (n : Nat) → State Memory → Prop
  | 0, s =>
    bmtMapped d s.mem 0 = NORMAL_MAPPED ∨ (uploadTo d 0 s).1 = false
  | n + 1, s =>
    bmtMapped d s.mem (n + 1) = NORMAL_MAPPED ∨
      if (uploadTo d (n + 1) s).1 then
        n + 1 = NO_SPACE ∨ Recoverable d (n + 1) (uploadTo d (n + 1) s).2
      else
        Restorable d n (uploadTo d (n + 1) s).2

theorem uploadFrom_run (n : Nat) (previous : BmtM Memory Nat) (s : State Memory) :
    uploadFrom d n previous s =
      if bmtMapped d s.mem n = NORMAL_MAPPED then (NO_SPACE, s)
      else if (uploadTo d n s).1 then (u16 n, (uploadTo d n s).2)
      else previous (uploadTo d n s).2 := by
  by_cases inUse : bmtMapped d s.mem n = NORMAL_MAPPED
  · rw [if_pos inUse]
    show (if bmtMapped d s.mem n = NORMAL_MAPPED then _ else _ : BmtM Memory Nat) s = _
    rw [if_pos inUse]
    rfl
  · rw [if_neg inUse]
    show (if bmtMapped d s.mem n = NORMAL_MAPPED then _ else _ : BmtM Memory Nat) s = _
    rw [if_neg inUse]
    show (if (uploadTo d n s).1 then _ else _ : BmtM Memory Nat) (uploadTo d n s).2 = _
    split <;> rfl

/-- What `upload_bmt` returns, when it is an entry, is one from which the next start
finds the table again. -/
def UploadRestored (d : Desc) (result : Nat × State Memory) : Prop :=
  result.1 ≠ NO_SPACE → Restored d result.1 result.2

theorem uploadRestored_iff (d : Desc) (n : Nat) (small : n < 2 ^ 16) (s : State Memory) :
    UploadRestored d (uploadBmt d n s) ↔ Restorable d n s := by
  induction n generalizing s with
  | zero =>
    have run : uploadBmt d 0 s = _ := uploadFrom_run 0 _ s
    rw [run]
    unfold Restorable
    by_cases inUse : bmtMapped d s.mem 0 = NORMAL_MAPPED
    · rw [if_pos inUse]
      exact iff_of_true (fun some => absurd rfl some) (.inl inUse)
    · rw [if_neg inUse]
      cases done : (uploadTo d 0 s).1 with
      | false => exact iff_of_true (fun some => absurd rfl some) (.inr rfl)
      | true =>
        refine iff_of_false (fun restored => ?_) (fun failed => failed.elim inUse nofun)
        have some : u16 0 ≠ NO_SPACE := by decide
        exact ((restored_iff d _ _).mp (restored some)).nonzero rfl
  | succ n ih =>
    have run : uploadBmt d (n + 1) s = _ := uploadFrom_run (n + 1) _ s
    rw [run]
    unfold Restorable
    by_cases inUse : bmtMapped d s.mem (n + 1) = NORMAL_MAPPED
    · rw [if_pos inUse]
      exact iff_of_true (fun some => absurd rfl some) (.inl inUse)
    · rw [if_neg inUse]
      cases done : (uploadTo d (n + 1) s).1 with
      | false =>
        exact (ih (by omega) _).trans (or_iff_right inUse).symm
      | true =>
        refine Iff.trans ?_ (or_iff_right inUse).symm
        have returned : u16 (n + 1) = n + 1 := u16_of_lt small
        show (u16 (n + 1) ≠ NO_SPACE → Restored d (u16 (n + 1)) _) ↔ _
        rw [returned, restored_iff]
        exact Decidable.imp_iff_not_or.trans (or_congr_left not_not)

/-- The chip of `smallChip`, with a first call that fails as an erase. -/
def wornChip : Desc :=
  { smallChip with fault := fun clock => if clock = 0 then { eraseRet := - EIO } else {} }

/-- The state `mtk_bmt_init_v2` leaves, before further calls. -/
def attachedChip : State Memory :=
  { (mtkBmtInitV2 smallChip blankChip).2 with clock := 0 }

end MetaFilogic.Bmt.V2
