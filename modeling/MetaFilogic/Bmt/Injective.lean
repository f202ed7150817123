import MetaFilogic.Bmt.Table

/-!
# Distinct blocks for distinct blocks

The state machine of the `bmt-v2` back-end: attach a chip, then remap, unmap and
reclaim in any order.  `InOrder` is its invariant: the entries of `bb_tbl` below
`pool_lba` differ from each other and from every pool block that is not in use,
the one with the table included.

Three requests do not keep it.  `unmap_block_v2` maps a block to itself, also when
the skip-bad shift of the first scan gave that block to a neighbour.  The mask of
`mtk_bmt_debug_v2` looks for users of a pool block from logical block 1 up to the
end of the mtd device and misses those outside.  And once `upload_bmt` has run out
of entries there is no current index to go on from.
-/

namespace MetaFilogic.Bmt.V2

/-! ## Requests -/

/-- The calls that change the table after `mtk_bmt_init_v2`. -/
inductive Request where
  | remap (block mapped copyLen : Nat)
  | unmap (block : Nat)
  | reclaim
  deriving DecidableEq

def perform (d : Desc) : Request → BmtM Memory Unit
  | .remap block mapped copyLen => do
    let _ ← remapBlockV2 d block mapped copyLen
  | .unmap block => unmapBlockV2 d block
  | .reclaim => reclaimV2 d

def afterRequests (d : Desc) (s : State Memory) (requests : List Request) : State Memory :=
  requests.foldl (fun s request => (perform d request s).2) s

/-! ## The invariant -/

variable {d : Desc} {m : Memory}

/-- No two logical blocks below `pool_lba` have the same entry. -/
def Distinct (d : Desc) (m : Memory) : Prop :=
  ∀ i < poolLba d, ∀ j < poolLba d, bbTbl m i = bbTbl m j → i = j

def TableApart (d : Desc) (m : Memory) : Prop :=
  m.bmtBlkIdx ≠ NO_SPACE → ∀ i < poolLba d, bbTbl m i ≠ bmtBlock d m m.bmtBlkIdx

/-- The pool entries up to `n` are those of distinct blocks above `pool_lba`, and
the ones not in use are nobody's. -/
structure PoolUpTo (d : Desc) (n : Nat) (m : Memory) : Prop where
  nonzero : ∀ k ≤ n, bmtBlock d m k ≠ 0
  distinct : ∀ k ≤ n, ∀ l ≤ n, bmtBlock d m k = bmtBlock d m l → k = l
  above : ∀ k ≤ n, poolLba d ≤ (bmtBlock d m k).toNat
  last : bmtMapped d m n ≠ NORMAL_MAPPED
  spare : ∀ k ≤ n, bmtMapped d m k ≠ NORMAL_MAPPED →
    ∀ i < poolLba d, bbTbl m i ≠ bmtBlock d m k

/-- The table is in order: the pool up to the current index, when there is one. -/
structure InOrder (d : Desc) (m : Memory) : Prop where
  index_lt : m.bmtBlkIdx < 2 ^ 16
  distinct : Distinct d m
  pool : m.bmtBlkIdx ≠ NO_SPACE → PoolUpTo d m.bmtBlkIdx m

theorem InOrder.tableApart (inOrder : InOrder d m) : TableApart d m := fun some i below =>
  (inOrder.pool some).spare _ le_rfl (inOrder.pool some).last i below

/-! ## Uploading -/

theorem Distinct.congr {after : Memory} (distinct : Distinct d m)
    (same : ∀ i < poolLba d, bbTbl after i = bbTbl m i) : Distinct d after := by
  intro i iBelow j jBelow equal
  rw [same i iBelow, same j jBelow] at equal
  exact distinct i iBelow j jBelow equal

theorem PoolUpTo.congr {n : Nat} {other : Memory} (pool : PoolUpTo d n other)
    (same : m.bbt = other.bbt) : PoolUpTo d n m := by
  obtain ⟨bbt, _, _⟩ := m
  obtain rfl := same
  exact ⟨pool.nonzero, pool.distinct, pool.above, pool.last, pool.spare⟩

theorem PoolUpTo.uploaded {n found : Nat} {after : Memory} (pool : PoolUpTo d n m)
    (fits : poolLba d ≤ d.tableSize) (uploaded : Uploaded d n m found after)
    (some : found ≠ NO_SPACE) : PoolUpTo d found after := by
  have le := uploaded.le some
  have kept := uploaded.kept some
  refine ⟨fun k upTo => ?_, fun k kUpTo l lUpTo equal => ?_, fun k upTo => ?_, ?_,
    fun k upTo unused i below => ?_⟩
  · rw [kept k upTo]
    exact pool.nonzero k (upTo.trans le)
  · rw [kept k kUpTo, kept l lUpTo] at equal
    exact pool.distinct k (kUpTo.trans le) l (lUpTo.trans le) equal
  · rw [kept k upTo]
    exact pool.above k (upTo.trans le)
  · rw [uploaded.emptied.bmtMapped]
    exact uploaded.free some
  · rw [uploaded.emptied.bmtMapped] at unused
    rw [kept k upTo, uploaded.emptied.bbTbl i (by omega)]
    exact pool.spare k (upTo.trans le) unused i below

variable {s : State Memory} {block : Nat}

theorem refreshBmt_inOrder (fits : poolLba d ≤ d.tableSize) (small : s.mem.bmtBlkIdx < 2 ^ 16)
    (distinct : Distinct d s.mem) (pool : PoolUpTo d s.mem.bmtBlkIdx s.mem) :
    Ensures (refreshBmt d) s fun _ after => InOrder d after.mem := by
  refine .getMem_bind ((uploadBmt_uploaded d small s).bind fun found after uploaded => ?_)
  show InOrder d { after.mem with bmtBlkIdx := found }
  refine ⟨?_, ?_, fun some => ?_⟩
  · by_cases none : found = NO_SPACE
    · exact none.trans_lt (by decide)
    · exact (uploaded.le none).trans_lt small
  · exact distinct.congr fun i below => uploaded.emptied.bbTbl i (by omega)
  · exact (pool.uploaded fits uploaded some).congr rfl

/-! ## Requests that keep the invariant -/

def Meets (d : Desc) (m : Memory) : Request → Prop
  | .remap block _ _ => m.bmtBlkIdx ≠ NO_SPACE ∧ block < d.tableSize
  | .unmap block =>
    m.bmtBlkIdx ≠ NO_SPACE ∧ block < d.tableSize ∧
      (block < poolLba d → ∀ i < poolLba d, i ≠ block → (bbTbl m i).toNat ≠ block)
  | .reclaim =>
    m.bmtBlkIdx ≠ NO_SPACE ∧
      ∀ i < poolLba d, ∀ k < m.bmtBlkIdx, bbTbl m i = bmtBlock d m k →
        1 ≤ i ∧ i < mainBlocks d

instance (request : Request) : Decidable (Meets d m request) :=
  match request with
  | .remap _ _ _ => inferInstanceAs (Decidable (_ ∧ _))
  | .unmap block => inferInstanceAs (Decidable (_ ∧ _ ∧ (block < poolLba d →
      ∀ i < poolLba d, i ≠ block → (bbTbl m i).toNat ≠ block)))
  | .reclaim => inferInstanceAs (Decidable (_ ∧ ∀ i < poolLba d, ∀ k < m.bmtBlkIdx,
      bbTbl m i = bmtBlock d m k → 1 ≤ i ∧ i < mainBlocks d))

def Allowed (d : Desc) : State Memory → List Request → Prop
  | _, [] => True
  | s, request :: rest => Meets d s.mem request ∧ Allowed d (perform d request s).2 rest

instance decidableAllowed : (s : State Memory) → (requests : List Request) →
    Decidable (Allowed d s requests)
  | _, [] => .isTrue trivial
  | s, request :: rest =>
    have := decidableAllowed (perform d request s).2 rest
    inferInstanceAs (Decidable (_ ∧ _))

theorem toNat_ofNat_of_lt (small : block < 2 ^ 16) : (BitVec.ofNat 16 block).toNat = block := by
  rw [BitVec.toNat_ofNat, Nat.mod_eq_of_lt small]

theorem unmapBlockV2_inOrder (fits : poolLba d ≤ d.tableSize) (inOrder : InOrder d s.mem)
    (meets : Meets d s.mem (.unmap block)) :
    Ensures (unmapBlockV2 d block) s fun _ after => InOrder d after.mem := by
  obtain ⟨some, inside, alone⟩ := meets
  have pool := inOrder.pool some
  have small : block < poolLba d → block < 2 ^ 16 := fun below => below.trans (u16_lt _)
  -- The entry of any logical block below `pool_lba` after the change.
  have entry (i : Nat) (below : i < poolLba d) :
      i = block ∧ bbTbl (setBbTbl block block s.mem) i = BitVec.ofNat 16 block ∨
        i ≠ block ∧ bbTbl (setBbTbl block block s.mem) i = bbTbl s.mem i := by
    by_cases same : i = block
    · exact .inl ⟨same, same ▸ bbTbl_setBbTbl_self⟩
    · exact .inr ⟨same, bbTbl_setBbTbl_of_ne same⟩
  have apart (i : Nat) (below : i < poolLba d) (different : i ≠ block)
      (blockBelow : block < poolLba d) : bbTbl s.mem i ≠ BitVec.ofNat 16 block := fun equal =>
    alone blockBelow i below different (by rw [equal, toNat_ofNat_of_lt (small blockBelow)])
  refine .modifyMem_bind (refreshBmt_inOrder fits inOrder.index_lt ?_ ?_)
  · intro i iBelow j jBelow equal
    rcases entry i iBelow with ⟨rfl, iEntry⟩ | ⟨iOther, iEntry⟩ <;>
      rcases entry j jBelow with ⟨jSame, jEntry⟩ | ⟨jOther, jEntry⟩
    · exact jSame.symm
    · exact absurd (jEntry.symm.trans (equal.symm.trans iEntry)) (apart j jBelow jOther iBelow)
    · subst jSame
      exact absurd (iEntry.symm.trans (equal.trans jEntry)) (apart i iBelow iOther jBelow)
    · exact inOrder.distinct i iBelow j jBelow (iEntry.symm.trans (equal.trans jEntry))
  · refine ⟨fun k upTo => ?_, fun k kUpTo l lUpTo equal => ?_, fun k upTo => ?_, ?_,
      fun k upTo unused i below => ?_⟩
    · exact (bmtBlock_setBbTbl inside).trans_ne (pool.nonzero k upTo)
    · rw [bmtBlock_setBbTbl inside, bmtBlock_setBbTbl inside] at equal
      exact pool.distinct k kUpTo l lUpTo equal
    · exact (pool.above k upTo).trans_eq (congrArg _ (bmtBlock_setBbTbl inside).symm)
    · exact (bmtMapped_setBbTbl inside).trans_ne pool.last
    · rw [bmtMapped_setBbTbl inside] at unused
      rw [bmtBlock_setBbTbl inside]
      rcases entry i below with ⟨rfl, changed⟩ | ⟨_, kept⟩
      · intro equal
        have atLeast := pool.above k upTo
        rw [← equal, changed, toNat_ofNat_of_lt (small below)] at atLeast
        omega
      · rw [kept]
        exact pool.spare k upTo unused i below

/-- The pool entry `find_valid_block_in_pool` takes. -/
structure Taken (d : Desc) (m : Memory) (i : Nat) : Prop where
  lt : i < m.bmtBlkIdx
  nonzero : bmtBlock d m i ≠ 0
  unused : bmtMapped d m i ≠ NORMAL_MAPPED

theorem findValidBlockInPool_cases (d : Desc) (s : State Memory) :
    findValidBlockInPool d s = (0, s) ∨
      ∃ i, Taken d s.mem i ∧ findValidBlockInPool d s =
        ((bmtBlock d s.mem i).toNat, { s with mem := setBmtMapped d i NORMAL_MAPPED s.mem }) := by
  have run : findValidBlockInPool d s =
      ((List.range s.mem.bmtBlkIdx).find? fun i =>
          bmtBlock d s.mem i != 0 && bmtMapped d s.mem i == NO_MAPPED).elim (0, s) fun i =>
        ((bmtBlock d s.mem i).toNat,
          { s with mem := setBmtMapped d i NORMAL_MAPPED s.mem }) := by
    unfold findValidBlockInPool
    simp only [bind, StateT.bind, getMem]
    cases (List.range s.mem.bmtBlkIdx).find? _ <;> rfl
  rw [run]
  cases choice : (List.range s.mem.bmtBlkIdx).find? _ with
  | none => exact .inl rfl
  | some i =>
    have inRange := List.mem_range.mp (List.mem_of_find?_eq_some choice)
    have found := List.find?_some choice
    simp only [Bool.and_eq_true, bne_iff_ne, beq_iff_eq] at found
    refine .inr ⟨i, ⟨inRange, found.1, ?_⟩, rfl⟩
    rw [found.2]
    decide

theorem Taken.inOrder {i : Nat} (taken : Taken d m i) (inside : block < d.tableSize)
    (inOrder : InOrder d m) (some : m.bmtBlkIdx ≠ NO_SPACE) (fits : poolLba d ≤ d.tableSize) :
    let after := setBbTbl block (bmtBlock d m i).toNat (setBmtMapped d i NORMAL_MAPPED m)
    Distinct d after ∧ PoolUpTo d m.bmtBlkIdx after := by
  intro after
  have pool := inOrder.pool some
  have free := pool.spare i taken.lt.le taken.unused
  have entry (j : Nat) (below : j < poolLba d) :
      j = block ∧ bbTbl after j = bmtBlock d m i ∨
        j ≠ block ∧ bbTbl after j = bbTbl m j := by
    by_cases same : j = block
    · subst same
      exact .inl ⟨rfl, bbTbl_setBbTbl_self.trans (BitVec.ofNat_toNat _ _ |>.trans (by simp))⟩
    · exact .inr ⟨same, (bbTbl_setBbTbl_of_ne same).trans (bbTbl_setBmtMapped (by omega))⟩
  have poolBlock (k : Nat) : bmtBlock d after k = bmtBlock d m k :=
    (bmtBlock_setBbTbl inside).trans bmtBlock_setBmtMapped
  have poolMapped (k : Nat) (different : k ≠ i) : bmtMapped d after k = bmtMapped d m k :=
    (bmtMapped_setBbTbl inside).trans (bmtMapped_setBmtMapped_of_ne different)
  refine ⟨fun j jBelow l lBelow equal => ?_, fun k upTo => ?_, fun k kUpTo l lUpTo equal => ?_,
    fun k upTo => ?_, ?_, fun k upTo unused j below => ?_⟩
  · rcases entry j jBelow with ⟨rfl, jEntry⟩ | ⟨_, jEntry⟩ <;>
      rcases entry l lBelow with ⟨lSame, lEntry⟩ | ⟨_, lEntry⟩
    · exact lSame.symm
    · exact absurd (lEntry.symm.trans (equal.symm.trans jEntry)) (free l lBelow)
    · exact absurd (jEntry.symm.trans (equal.trans lEntry)) (free j jBelow)
    · exact inOrder.distinct j jBelow l lBelow (jEntry.symm.trans (equal.trans lEntry))
  · exact (poolBlock k).trans_ne (pool.nonzero k upTo)
  · rw [poolBlock, poolBlock] at equal
    exact pool.distinct k kUpTo l lUpTo equal
  · exact (pool.above k upTo).trans_eq (congrArg _ (poolBlock k).symm)
  · exact (poolMapped _ taken.lt.ne').trans_ne pool.last
  · have different : k ≠ i := by
      rintro rfl
      exact unused ((bmtMapped_setBbTbl inside).trans bmtMapped_setBmtMapped_self)
    rw [poolMapped k different] at unused
    rw [poolBlock]
    rcases entry j below with ⟨_, taken'⟩ | ⟨_, kept⟩
    · rw [taken']
      exact fun equal => different (pool.distinct i taken.lt.le k upTo equal).symm
    · rw [kept]
      exact pool.spare k upTo unused j below

theorem remapBlockV2_inOrder {mapped copyLen : Nat} (fits : poolLba d ≤ d.tableSize)
    (inOrder : InOrder d s.mem) (meets : Meets d s.mem (.remap block mapped copyLen)) :
    Ensures (remapBlockV2 d block mapped copyLen) s fun _ after => InOrder d after.mem := by
  obtain ⟨some, inside⟩ := meets
  have picked : Ensures (findValidBlockInPool d) s fun newBlock after =>
      newBlock = 0 ∧ after = s ∨
        ∃ i, Taken d s.mem i ∧ newBlock = (bmtBlock d s.mem i).toNat ∧
          after.mem = setBmtMapped d i NORMAL_MAPPED s.mem := by
    unfold Ensures
    rcases findValidBlockInPool_cases d s with run | ⟨i, taken, run⟩ <;> rw [run]
    · exact .inl ⟨rfl, rfl⟩
    · exact .inr ⟨i, taken, rfl, rfl⟩
  refine picked.bind fun newBlock middle choice => ?_
  rcases choice with ⟨rfl, rfl⟩ | ⟨i, taken, rfl, marked⟩
  · exact .ite (fun _ => .pure inOrder) fun nonzero => absurd rfl nonzero
  · refine .ite (fun zero => ?_) fun _ => .modifyMem_bind ?_
    · exact absurd (BitVec.eq_of_toNat_eq zero) taken.nonzero
    · refine ((KeepsMem.bbtNandErase d _).ensures _).bind fun _ erased keptErase => ?_
      have settled (copied : State Memory) (keptCopy : copied.mem = erased.mem) :
          Ensures (refreshBmt d >>= fun _ => pure true) copied
            fun _ after => InOrder d after.mem := by
        have table : copied.mem = setBbTbl block (bmtBlock d s.mem i).toNat
            (setBmtMapped d i NORMAL_MAPPED s.mem) :=
          keptCopy.trans (keptErase.trans (congrArg (setBbTbl block _) marked))
        obtain ⟨distinct, pool⟩ := taken.inOrder inside inOrder some fits
        refine (refreshBmt_inOrder fits ?_ ?_ ?_).bind fun _ _ ordered => .pure ordered
        · rw [table]
          exact inOrder.index_lt
        · rwa [table]
        · rwa [table]
      refine .ite (fun _ => ?_) fun _ => ?_
      · exact ((KeepsMem.bbtNandCopy d _ _ _).ensures _).bind fun _ copied kept =>
          settled copied kept
      · exact settled erased rfl

/-! ## Reclaiming -/

/-- Entries `freeUnused` may have freed: in use, not in the mask, below `count`. -/
structure Freed (d : Desc) (used : Nat → Bool) (count : Nat) (before after : Memory) : Prop where
  bbTbl : ∀ i < d.tableSize, bbTbl after i = bbTbl before i
  bmtBlock : ∀ k, bmtBlock d after k = bmtBlock d before k
  bmtBlkIdx : after.bmtBlkIdx = before.bmtBlkIdx
  bmtMapped : ∀ k, bmtMapped d after k = bmtMapped d before k ∨
    k < count ∧ bmtMapped d before k = NORMAL_MAPPED ∧ used k = false

theorem freeUnused_freed (d : Desc) (used : Nat → Bool) (count : Nat) (m : Memory) :
    Freed d used count m (freeUnused d used count m).1 := by
  induction count with
  | zero => exact ⟨fun _ _ => rfl, fun _ => rfl, rfl, fun _ => .inl rfl⟩
  | succ count ih =>
    have run : freeUnused d used (count + 1) m =
        if bmtMapped d (freeUnused d used count m).1 count ≠ NORMAL_MAPPED ∨ used count then
          freeUnused d used count m
        else
          (setBmtMapped d count NO_MAPPED (freeUnused d used count m).1,
            (freeUnused d used count m).2 + 1) := by
      simp only [freeUnused, List.range_succ, List.foldl_append, List.foldl_cons, List.foldl_nil]
      rfl
    rw [run]
    split <;> rename_i skipped
    · exact { ih with
        bmtMapped := fun k => (ih.bmtMapped k).imp id fun freed => ⟨by omega, freed.2⟩ }
    · simp only [not_or, not_not, Bool.not_eq_true] at skipped
      refine ⟨fun i inside => (bbTbl_setBmtMapped inside).trans (ih.bbTbl i inside),
        fun k => bmtBlock_setBmtMapped.trans (ih.bmtBlock k), ih.bmtBlkIdx, fun k => ?_⟩
      by_cases same : k = count
      · subst same
        refine .inr ⟨Nat.lt_succ_self k, ?_, skipped.2⟩
        rcases ih.bmtMapped k with kept | freed
        · exact kept.symm.trans skipped.1
        · exact freed.2.1
      · rw [bmtMapped_setBmtMapped_of_ne same]
        exact (ih.bmtMapped k).imp id fun freed => ⟨by omega, freed.2⟩

/-- A pool block of some relocated logical block inside the mtd device is in the
mask, since the pool has that block only once. -/
theorem mask_of_user {i k : Nat} (pool : PoolUpTo d m.bmtBlkIdx m) (below : k < m.bmtBlkIdx)
    (user : bbTbl m i = bmtBlock d m k) (first : 1 ≤ i) (inside : i < mainBlocks d)
    (logical : i < poolLba d) : mtkBmtGetMappingMask d m k = true := by
  have atLeast := pool.above k below.le
  have moved : (bbTbl m i).toNat ≠ i := by
    rw [user]
    omega
  have position : (List.range m.bmtBlkIdx).find? (fun k => bbTbl m i == bmtBlock d m k) =
      some k := by
    rw [List.find?_range_eq_some]
    refine ⟨beq_iff_eq.mpr user, List.mem_range.mpr below, fun j earlier => ?_⟩
    simp only [Bool.not_eq_true', beq_eq_false_iff_ne, user]
    exact fun equal => absurd (pool.distinct k below.le j (by omega) equal) (by omega)
  refine List.any_eq_true.mpr ⟨i, List.mem_range.mpr inside, ?_⟩
  simp only [Bool.and_eq_true, decide_eq_true_eq, bne_iff_ne, beq_iff_eq]
  exact ⟨⟨first, moved⟩, position⟩

theorem reclaimV2_inOrder (fits : poolLba d ≤ d.tableSize) (inOrder : InOrder d s.mem)
    (meets : Meets d s.mem .reclaim) :
    Ensures (reclaimV2 d) s fun _ after => InOrder d after.mem := by
  obtain ⟨some, seen⟩ := meets
  have pool := inOrder.pool some
  let used := mtkBmtGetMappingMask d s.mem
  let freed := (freeUnused d used (s.mem.bmtBlkIdx + 1) s.mem).1
  have result : Freed d used (s.mem.bmtBlkIdx + 1) s.mem freed := freeUnused_freed d used _ _
  have distinct : Distinct d freed :=
    inOrder.distinct.congr fun i below => result.bbTbl i (by omega)
  have pooled : PoolUpTo d freed.bmtBlkIdx freed := by
    rw [result.bmtBlkIdx]
    refine ⟨fun k upTo => ?_, fun k kUpTo l lUpTo equal => ?_, fun k upTo => ?_, ?_,
      fun k upTo unused i below equal => ?_⟩
    · exact (result.bmtBlock k).trans_ne (pool.nonzero k upTo)
    · rw [result.bmtBlock, result.bmtBlock] at equal
      exact pool.distinct k kUpTo l lUpTo equal
    · exact (pool.above k upTo).trans_eq (congrArg _ (result.bmtBlock k).symm)
    · rcases result.bmtMapped s.mem.bmtBlkIdx with kept | ⟨_, inUse, _⟩
      · exact kept.trans_ne pool.last
      · exact absurd inUse pool.last
    · rw [result.bmtBlock, result.bbTbl i (by omega)] at equal
      rcases result.bmtMapped k with kept | ⟨_, inUse, unmasked⟩
      · exact pool.spare k upTo (kept.symm.trans_ne unused) i below equal
      · -- A freed entry has no user the mask could have missed.
        have inner : k < s.mem.bmtBlkIdx := lt_of_le_of_ne upTo fun same =>
          pool.last (same ▸ inUse)
        obtain ⟨first, inside⟩ := seen i below k inner equal
        have masked := mask_of_user pool inner equal first inside below
        exact absurd (unmasked.symm.trans masked) nofun
  refine .getMem_bind (.modifyMem_bind ?_)
  refine .ite (fun _ => ?_) fun _ => .pure ?_
  · exact refreshBmt_inOrder fits (result.bmtBlkIdx.trans_lt inOrder.index_lt) distinct pooled
  · exact ⟨result.bmtBlkIdx.trans_lt inOrder.index_lt, distinct, fun _ => pooled⟩

/-! ## Runs -/

theorem perform_inOrder {request : Request} (fits : poolLba d ≤ d.tableSize)
    (inOrder : InOrder d s.mem) (meets : Meets d s.mem request) :
    InOrder d (perform d request s).2.mem := by
  cases request with
  | remap block mapped copyLen => exact remapBlockV2_inOrder fits inOrder meets
  | unmap block => exact unmapBlockV2_inOrder fits inOrder meets
  | reclaim => exact reclaimV2_inOrder fits inOrder meets

theorem afterRequests_inOrder {requests : List Request} (fits : poolLba d ≤ d.tableSize)
    (inOrder : InOrder d s.mem) (allowed : Allowed d s requests) :
    InOrder d (afterRequests d s requests).mem := by
  induction requests generalizing s with
  | nil => exact inOrder
  | cons request rest ih => exact ih (perform_inOrder fits inOrder allowed.1) allowed.2

end MetaFilogic.Bmt.V2
