import MetaFilogic.Bmt.Injective
import MetaFilogic.Bmt.Search

/-!
# The mapping of a chip in use

`scan_bad_blocks` sets the table up in order, and so do the tables the driver
finds on a chip when they are in order themselves.  With the invariant of the
requests this gives the distinctness of the mapping over whole runs, and a run in
which unmapping a block gives it to two logical blocks at once.
-/

namespace MetaFilogic.Bmt.V2

variable {d : Desc} {m : Memory}

/-! ## Scanning -/

/-- The first `n` entries of `bb_tbl` are blocks of the chip in ascending order. -/
structure Ascending (d : Desc) (n : Nat) (m : Memory) : Prop where
  lt : ∀ i j, i < j → j < n → (bbTbl m i).toNat < (bbTbl m j).toNat
  inside : ∀ i < n, (bbTbl m i).toNat < d.totalBlks

namespace Ascending

variable {n : Nat}

theorem le_entry (ascending : Ascending d n m) : ∀ i < n, i ≤ (bbTbl m i).toNat := by
  intro i
  induction i with
  | zero => exact fun _ => Nat.zero_le _
  | succ i ih =>
    intro below
    have earlier := ih (by omega)
    have step := ascending.lt i (i + 1) (Nat.lt_succ_self i) below
    omega

theorem le_last (ascending : Ascending d n m) {i : Nat} (below : i < n) :
    (bbTbl m i).toNat ≤ (bbTbl m (n - 1)).toNat := by
  rcases Nat.lt_or_eq_of_le (Nat.le_sub_one_of_lt below) with earlier | rfl
  · exact (ascending.lt i (n - 1) earlier (by omega)).le
  · exact le_rfl

theorem extend {block : Nat} (ascending : Ascending d n m) (some : 0 < n)
    (later : (bbTbl m (n - 1)).toNat < block) (inside : block < d.totalBlks) :
    Ascending d (n + 1) (setBbTbl n block m) := by
  have entry : (bbTbl (setBbTbl n block m) n).toNat = block := by
    rw [bbTbl_setBbTbl_self, toNat_ofNat_of_lt (inside.trans d.totalBlks_lt)]
  have kept (i : Nat) (below : i < n) : bbTbl (setBbTbl n block m) i = bbTbl m i :=
    bbTbl_setBbTbl_of_ne below.ne
  refine ⟨fun i j earlier below => ?_, fun i below => ?_⟩
  · rw [kept i (by omega)]
    rcases Nat.lt_or_eq_of_le (Nat.le_of_lt_succ below) with inner | rfl
    · rw [kept j inner]
      exact ascending.lt i j earlier inner
    · rw [entry]
      exact (ascending.le_last (by omega)).trans_lt later
  · rcases Nat.lt_or_eq_of_le (Nat.le_of_lt_succ below) with inner | rfl
    · rw [kept i inner]
      exact ascending.inside i inner
    · rwa [entry]

theorem distinct (ascending : Ascending d n m) (all : poolLba d ≤ n) : Distinct d m := by
  intro i iBelow j jBelow equal
  by_contra different
  rcases Nat.lt_or_gt_of_ne different with earlier | later
  · exact absurd (congrArg BitVec.toNat equal) (ascending.lt i j earlier (by omega)).ne
  · exact absurd (congrArg BitVec.toNat equal) (ascending.lt j i later (by omega)).ne'

end Ascending

theorem findValidBlock_later (left block : Nat) (s : State Memory) :
    Ensures (findValidBlockFrom d left block) s fun found after =>
      after.mem = s.mem ∧ (found ≠ 0 → block ≤ found ∧ found < d.totalBlks) := by
  induction left generalizing block s with
  | zero =>
    refine .ite (fun _ => .pure ⟨rfl, fun some => absurd rfl some⟩) fun inside => ?_
    refine ((KeepsMem.bbtNandRead d _ 1).ensures s).bind fun _ _ kept => ?_
    exact .ite (fun _ => .pure ⟨kept, fun some => absurd rfl some⟩) fun _ =>
      .pure ⟨kept, fun _ => ⟨le_rfl, not_le.mp inside⟩⟩
  | succ left ih =>
    refine .ite (fun _ => .pure ⟨rfl, fun some => absurd rfl some⟩) fun inside => ?_
    refine ((KeepsMem.bbtNandRead d _ 1).ensures s).bind fun _ after kept => ?_
    refine .ite (fun _ => (ih (block + 1) after).mono fun found last result => ?_) fun _ =>
      .pure ⟨kept, fun _ => ⟨le_rfl, not_le.mp inside⟩⟩
    refine ⟨result.1.trans kept, fun some => ?_⟩
    obtain ⟨later, below⟩ := result.2 some
    exact ⟨by omega, below⟩

variable {i first : Nat} {s : State Memory}

theorem scanMainBlocks_ascending (count : Nat) (some : 0 < i) (ascending : Ascending d i s.mem) :
    Ensures (scanMainBlocks d count i) s fun done after =>
      done → Ascending d (i + count) after.mem := by
  induction count generalizing i s with
  | zero => exact fun _ => ascending
  | succ count ih =>
    refine .getMem_bind ((findValidBlock_later _ _ s).bind fun block after result => ?_)
    obtain ⟨kept, later⟩ := result
    refine .modifyMem_bind (.ite (fun _ => .pure nofun) fun nonzero => ?_)
    have last : (bbTbl s.mem (i - 1)).toNat < d.totalBlks := ascending.inside _ (by omega)
    have start : u16 ((bbTbl s.mem (i - 1)).toNat + 1) = (bbTbl s.mem (i - 1)).toNat + 1 :=
      u16_of_lt (by have := d.totalBlks_lt; omega)
    obtain ⟨atLeast, inside⟩ := later nonzero
    have extended : Ascending d (i + 1) (setBbTbl i block after.mem) := by
      rw [kept]
      exact ascending.extend some (by omega) inside
    refine (ih (Nat.succ_pos i) extended).mono fun done final holds isDone => ?_
    have reached := holds isDone
    rwa [show i.succ + count = i + (count + 1) by omega] at reached

/-- The first `n` entries of the pool are unused blocks in ascending order, from
`first` on and before `bound`. -/
structure Filled (d : Desc) (first bound n : Nat) (m : Memory) : Prop where
  lt : ∀ k l, k < l → l < n → (bmtBlock d m k).toNat < (bmtBlock d m l).toNat
  first_le : ∀ k < n, first ≤ (bmtBlock d m k).toNat
  lt_bound : ∀ k < n, (bmtBlock d m k).toNat < bound
  unused : ∀ k < n, bmtMapped d m k = NO_MAPPED

theorem Filled.extend {bound n block : Nat} (filled : Filled d first bound n m)
    (atLeast : bound ≤ block) (first_le : first ≤ bound) (inside : block < d.totalBlks) :
    Filled d first (block + 1) (n + 1)
      (setBmtMapped d n NO_MAPPED (setBmtBlock d n block m)) := by
  let after := setBmtMapped d n NO_MAPPED (setBmtBlock d n block m)
  have entry : (bmtBlock d after n).toNat = block := by
    rw [bmtBlock_setBmtMapped, bmtBlock_setBmtBlock_self,
      toNat_ofNat_of_lt (inside.trans d.totalBlks_lt)]
  have kept (k : Nat) (below : k < n) : bmtBlock d after k = bmtBlock d m k :=
    bmtBlock_setBmtMapped.trans (bmtBlock_setBmtBlock_of_ne below.ne)
  refine ⟨fun k l earlier below => ?_, fun k below => ?_, fun k below => ?_,
    fun k below => ?_⟩
  · rw [kept k (by omega)]
    rcases Nat.lt_or_eq_of_le (Nat.le_of_lt_succ below) with inner | rfl
    · rw [kept l inner]
      exact filled.lt k l earlier inner
    · rw [entry]
      exact (filled.lt_bound k earlier).trans_le atLeast
  · rcases Nat.lt_or_eq_of_le (Nat.le_of_lt_succ below) with inner | rfl
    · rw [kept k inner]
      exact filled.first_le k inner
    · rw [entry]
      exact first_le.trans atLeast
  · rcases Nat.lt_or_eq_of_le (Nat.le_of_lt_succ below) with inner | rfl
    · rw [kept k inner]
      have := filled.lt_bound k inner
      omega
    · rw [entry]
      omega
  · rcases Nat.lt_or_eq_of_le (Nat.le_of_lt_succ below) with inner | rfl
    · rw [bmtMapped_setBmtMapped_of_ne inner.ne, bmtMapped_setBmtBlock]
      exact filled.unused k inner
    · exact bmtMapped_setBmtMapped_self

/-- The second loop fills the pool and leaves `bb_tbl` alone. -/
theorem scanPool_filled (rounds : Nat) {block : Nat} (first_le : first ≤ block)
    (filled : Filled d first block i s.mem) :
    Ensures (scanPool d rounds block i) s fun n after =>
      n ≤ i + rounds ∧ (∃ bound, Filled d first bound n after.mem) ∧
        ∀ j < d.tableSize, bbTbl after.mem j = bbTbl s.mem j := by
  induction rounds generalizing block i s with
  | zero => exact ⟨le_rfl, ⟨block, filled⟩, fun _ _ => rfl⟩
  | succ rounds ih =>
    refine (findValidBlock_later _ _ s).bind fun found after result => ?_
    obtain ⟨kept, later⟩ := result
    refine .ite (fun _ => .pure ?_) fun nonzero => .modifyMem_bind ?_
    · rw [kept]
      exact ⟨Nat.le_add_right _ _, ⟨block, filled⟩, fun _ _ => rfl⟩
    · obtain ⟨atLeast, inside⟩ := later nonzero
      have extended := filled.extend atLeast first_le inside
      rw [← kept] at extended
      refine (ih (by omega) extended).mono fun n final result => ?_
      obtain ⟨few, filledAfter, same⟩ := result
      refine ⟨by omega, filledAfter, fun j below => ?_⟩
      rw [same j below, ← kept]
      exact (bbTbl_setBmtMapped below).trans (bbTbl_setBmtBlock below)

theorem prevU16_of_pos (some : 1 ≤ i) (small : i < 0x10000) : prevU16 i = i - 1 := by
  unfold prevU16 u16
  omega

/-- The pool after the scan: unused blocks behind those of `bb_tbl`, and the last one
marked for the table. -/
theorem Filled.poolUpTo {bound n index : Nat} (filled : Filled d first bound n m)
    (last : n = index + 1) (positive : 0 < first) (atLeast : poolLba d ≤ first)
    (entries : ∀ i < poolLba d, (bbTbl m i).toNat < first) (fits : poolLba d ≤ d.tableSize) :
    PoolUpTo d index (setBmtMapped d index BMT_MAPPED m) := by
  have blocks (k : Nat) : bmtBlock d (setBmtMapped d index BMT_MAPPED m) k = bmtBlock d m k :=
    bmtBlock_setBmtMapped
  have inside (k : Nat) (upTo : k ≤ index) : k < n := by omega
  refine ⟨fun k upTo zero => ?_, fun k kUpTo l lUpTo equal => ?_, fun k upTo => ?_, ?_,
    fun k upTo _ i below equal => ?_⟩
  · have reached := filled.first_le k (inside k upTo)
    rw [← blocks, zero] at reached
    exact absurd reached (not_le.mpr positive)
  · rw [blocks, blocks] at equal
    by_contra different
    rcases Nat.lt_or_gt_of_ne different with earlier | later
    · exact (filled.lt k l earlier (inside l lUpTo)).ne (congrArg _ equal)
    · exact (filled.lt l k later (inside k kUpTo)).ne' (congrArg _ equal)
  · rw [blocks]
    exact atLeast.trans (filled.first_le k (inside k upTo))
  · exact bmtMapped_setBmtMapped_self.trans_ne (by decide)
  · rw [blocks, bbTbl_setBmtMapped (below.trans_le fits)] at equal
    have reached := filled.first_le k (inside k upTo)
    rw [← equal] at reached
    exact absurd (entries i below) (not_lt.mpr reached)

theorem Ascending.poolPba {n : Nat} (ascending : Ascending d n m) (some : 0 < n)
    (all : poolLba d ≤ n) :
    let poolPba := u16 ((bbTbl m (n - 1)).toNat + 1)
    0 < poolPba ∧ poolLba d ≤ poolPba ∧ ∀ i < poolLba d, (bbTbl m i).toNat < poolPba := by
  intro poolPba
  have inside := ascending.inside (n - 1) (by omega)
  have reached := ascending.le_entry (n - 1) (by omega)
  have chip := d.totalBlks_lt
  have start : poolPba = (bbTbl m (n - 1)).toNat + 1 := u16_of_lt (by omega)
  refine ⟨by omega, by omega, fun i below => ?_⟩
  have last := ascending.le_last (i := i) (by omega)
  omega

theorem scanBadBlocks_inOrder (s : State Memory) (fits : poolLba d ≤ d.tableSize) :
    Ensures (scanBadBlocks d) s fun ret after => ret = 0 →
      after.mem.bmtBlkIdx < 2 ^ 16 ∧ Distinct d after.mem ∧
        PoolUpTo d after.mem.bmtBlkIdx after.mem := by
  have start : Ascending d 1 (setBbTbl 0 0 s.mem) := by
    refine ⟨fun i j earlier below => by omega, fun i below => ?_⟩
    obtain rfl : i = 0 := by omega
    rw [bbTbl_setBbTbl_self]
    exact d.totalBlks_pos
  refine .modifyMem_bind ((scanMainBlocks_ascending _ Nat.one_pos start).bind
    fun done scanned ascending => ?_)
  refine .ite (fun _ => .pure nofun) fun isDone => .getMem_bind (.modifyMem_bind ?_)
  have count : 1 + (poolLba d - 1) = max 1 (poolLba d) := by omega
  replace ascending : Ascending d (max 1 (poolLba d)) scanned.mem :=
    count ▸ ascending (by simpa using isDone)
  obtain ⟨positive, atLeast, entries⟩ := ascending.poolPba (by omega) (by omega)
  generalize u16 ((bbTbl scanned.mem (max 1 (poolLba d) - 1)).toNat + 1) = poolPba
    at positive atLeast entries ⊢
  refine .ite (fun _ => .pure nofun) fun _ => ?_
  have empty : Filled d poolPba poolPba 0 { scanned.mem with poolPba } :=
    ⟨fun _ _ _ below => absurd below (Nat.not_lt_zero _),
      fun _ below => absurd below (Nat.not_lt_zero _),
      fun _ below => absurd below (Nat.not_lt_zero _),
      fun _ below => absurd below (Nat.not_lt_zero _)⟩
  refine (scanPool_filled _ le_rfl empty).bind fun n pooled result => .modifyMem_bind (.pure ?_)
  obtain ⟨few, ⟨bound, filled⟩, same⟩ := result
  replace same (i : Nat) (below : i < poolLba d) : bbTbl pooled.mem i = bbTbl scanned.mem i :=
    same i (below.trans_le fits)
  intro success
  have some : 1 ≤ n := by
    by_contra none
    rw [if_pos (not_le.mp none)] at success
    exact absurd success (by decide)
  have chip := d.totalBlks_lt
  have index : prevU16 n = n - 1 := prevU16_of_pos some (by omega)
  generalize prevU16 n = last at index ⊢
  have pool : PoolUpTo d last (setBmtMapped d last BMT_MAPPED pooled.mem) :=
    filled.poolUpTo (by omega) positive atLeast
      (fun i below => (congrArg _ (same i below)).trans_lt (entries i below)) fits
  have small : last < 2 ^ 16 := by omega
  refine ⟨small, ?_, pool.congr rfl⟩
  exact (ascending.distinct (by omega)).congr fun i below =>
    (bbTbl_setBmtMapped (below.trans_le fits)).trans (same i below)

/-! ## Attaching a chip -/

def StoredInOrder (d : Desc) (flash : Flash) : Prop :=
  ∀ block, poolLba d ≤ block → block < d.totalBlks → Carries d flash block →
    (tableMemory d flash block).bmtBlkIdx ≠ 0 → InOrder d (tableMemory d flash block)

theorem InOrder.congr {other : Memory} (inOrder : InOrder d other) (bbt : m.bbt = other.bbt)
    (index : m.bmtBlkIdx = other.bmtBlkIdx) : InOrder d m := by
  obtain ⟨_, _, poolPba⟩ := m
  obtain rfl := bbt
  obtain rfl := index
  exact ⟨inOrder.index_lt, inOrder.distinct, fun some => (inOrder.pool some).congr rfl⟩

theorem loadBmt_inOrder (stored : StoredInOrder d s.flash) :
    Ensures (loadBmt d) s fun found after => found → InOrder d after.mem := by
  refine .modifyMem_bind ((searchBmt_found _ (Bounded.fresh s.mem)).mono
    fun found after result isFound => ?_)
  obtain ⟨nonzero, block, atLeast, below, foundAt⟩ := result.2 isFound
  have bbt : after.mem.bbt = (tableMemory d s.flash block).bbt := foundAt.bbt
  have index : after.mem.bmtBlkIdx = (tableMemory d s.flash block).bmtBlkIdx :=
    foundAt.index.trans (getBmtIndex_congr bbt)
  have inOrder := stored block atLeast (by omega) foundAt.carries (index ▸ nonzero)
  exact inOrder.congr bbt index

theorem createBmt_inOrder (s : State Memory) (fits : poolLba d ≤ d.tableSize) :
    Ensures (createBmt d) s fun ret after => ret = 0 → InOrder d after.mem := by
  refine .ite (fun _ => .pure nofun) fun _ => .modifyMem_bind ?_
  refine (scanBadBlocks_inOrder _ fits).bind fun ret scanned result => ?_
  refine .ite (fun _ => .pure nofun) fun success => ?_
  obtain ⟨small, distinct, pool⟩ := result (not_not.mp success)
  refine (refreshBmt_inOrder fits small distinct pool).bind fun _ after inOrder => ?_
  exact .getMem_bind (.pure fun _ => inOrder)

theorem mtkBmtInitV2_inOrder (fits : poolLba d ≤ d.tableSize) (stored : StoredInOrder d s.flash)
    (success : (mtkBmtInitV2 d s).1 = 0) : InOrder d (mtkBmtInitV2 d s).2.mem := by
  have ensures : Ensures (mtkBmtInitV2 d) s fun ret after => ret = 0 → InOrder d after.mem := by
    refine (loadBmt_inOrder stored).bind fun found after inOrder => ?_
    exact .ite (fun holds => .pure fun _ => inOrder holds) fun _ => createBmt_inOrder after fits
  exact ensures success

/-- From a successful initialisation on, as long as every request meets its
condition, distinct logical blocks have distinct entries and none has the block of
the table. -/
theorem mapping_distinct (d : Desc) (s : State Memory) (requests : List Request)
    (fits : poolLba d ≤ d.tableSize) (stored : StoredInOrder d s.flash)
    (success : (mtkBmtInitV2 d s).1 = 0)
    (allowed : Allowed d (mtkBmtInitV2 d s).2 requests) :
    Distinct d (afterRequests d (mtkBmtInitV2 d s).2 requests).mem ∧
      TableApart d (afterRequests d (mtkBmtInitV2 d s).2 requests).mem := by
  have inOrder := afterRequests_inOrder fits (mtkBmtInitV2_inOrder fits stored success) allowed
  exact ⟨inOrder.distinct, inOrder.tableApart⟩

/-! ## A chip with one bad block -/

theorem pageShift_pos : 0 < 8 := by decide

/-- Fifty blocks of one page of 256 bytes, all but four of them for the pool, and
calls that all succeed. -/
def smallChip : Desc where
  totalBlks := 50
  blkShift := 8
  pgShift := 8
  bmtPoolSize := 46
  tableSize := 50
  oobOffset := 0
  bitflipThreshold := 0
  remapRange := []
  fault _ := {}
  totalBlks_pos := by decide
  totalBlks_lt := by decide
  pgShift_pos := pageShift_pos
  pgShift_le := le_rfl
  tableSize_le := by decide

def blankChip : State Memory where
  mem := ⟨fun _ => 0, 0, 0⟩
  flash page :=
    if page = 1 ∨ page = 8 ∨ page = 9 then { erasedPage with oob := fun _ => 0 } else erasedPage
  clock := 0
  trace := []

theorem blankChip_stored : StoredInOrder smallChip blankChip.flash := by
  intro block atLeast _ carries
  have blank : (blankChip.flash (smallChip.blkPg block)).data 0 = 0xffff := by
    dsimp only [blankChip]
    split <;> rfl
  have first : tableAt smallChip blankChip.flash block 0 = 0xffff := by
    rw [tableAt, if_pos (by decide)]
    simpa using blank
  have valid := carries.2
  rw [isValidBmt, first] at valid
  exact absurd valid (by simp [SIGNATURE])

/-- Block 1 is remapped twice and its first pool block reclaimed. -/
theorem mapping_distinct_reclaimed :
    Distinct smallChip (afterRequests smallChip (mtkBmtInitV2 smallChip blankChip).2
        [.remap 1 2 0, .remap 1 5 0, .reclaim]).mem ∧
      TableApart smallChip (afterRequests smallChip (mtkBmtInitV2 smallChip blankChip).2
        [.remap 1 2 0, .remap 1 5 0, .reclaim]).mem :=
  mapping_distinct smallChip blankChip _ (by decide) blankChip_stored (by decide +kernel)
    (by decide +kernel)

/-- Block 1 is bad, so the scan gives block 2 to logical block 1.  Unmapping logical
block 2 gives it block 2 as well. -/
theorem unmapped_block_shared :
    (mtkBmtInitV2 smallChip blankChip).1 = 0 ∧
      ¬Distinct smallChip
        (afterRequests smallChip (mtkBmtInitV2 smallChip blankChip).2 [.unmap 2]).mem := by
  refine ⟨by decide +kernel, fun distinct => ?_⟩
  exact absurd (distinct 1 (by decide) 2 (by decide) (by decide +kernel)) (by decide)

end MetaFilogic.Bmt.V2
