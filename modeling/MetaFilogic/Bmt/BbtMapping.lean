import MetaFilogic.Bmt.Bbt
import MetaFilogic.Bmt.Copy

/-!
# The bad blocks come last

With a remap range, `get_mapping_block_index_bbt` sends the blocks of the range in
order to `skipOrder` of the bitmap.  Without one, `mapping_block_in_range` answers
in blocks where bytes are expected: the shift leaves an empty range and no block is
skipped.
-/

namespace MetaFilogic.Bmt.Bbt

variable {d : Desc} {m : Memory}

/-! ## Conversions -/

@[simp]
theorem asU16_natCast {block : Nat} (small : block < 2 ^ 16) : asU16 block = block := by
  rw [asU16]
  omega

theorem asInt_of_lt {value : Nat} (small : value < 2 ^ 31) : asInt value = value :=
  if_pos small

theorem asInt_shiftRight {value : Nat} (small : value < 2 ^ 31) (shift : Nat) :
    asInt value >>> shift = ((value >>> shift : Nat) : Int) := by
  rw [asInt_of_lt small]
  rfl

/-! ## The two loops -/

abbrev blocks (start count : Nat) : List Nat := List.range' start count

theorem skipBadBlocks_eq (m : Memory) (rest start ofs badBlocks : Nat)
    (small : start + rest ≤ 2 ^ 16) :
    skipBadBlocks m rest start ofs badBlocks =
      match (goods (bbtBlockIsBad m) (blocks start rest))[ofs]? with
      | some i => .stopped i
      | none => .overflow (ofs - (goods (bbtBlockIsBad m) (blocks start rest)).length)
          (badBlocks + (bads (bbtBlockIsBad m) (blocks start rest)).length) := by
  induction rest generalizing start ofs badBlocks with
  | zero => rfl
  | succ rest ih =>
    have next : ((start : Int) + 1) = ((start + 1 : Nat) : Int) := rfl
    rw [skipBadBlocks, asU16_natCast (by omega), blocks, List.range'_succ, next]
    cases isBad : bbtBlockIsBad m start with
    | true =>
      rw [if_pos rfl, ih _ _ _ (by omega), goods_cons_of_bad _ isBad, bads_cons_of_bad _ isBad,
        List.length_cons, Nat.add_assoc badBlocks, Nat.add_comm 1]
    | false =>
      rw [if_neg Bool.false_ne_true, goods_cons_of_good _ isBad, bads_cons_of_good _ isBad,
        List.length_cons]
      cases ofs with
      | zero => rfl
      | succ ofs =>
        rw [if_pos (Nat.succ_ne_zero ofs), Nat.add_sub_cancel, ih _ _ _ (by omega),
          List.getElem?_cons_succ, Nat.add_sub_add_right]

theorem takeBadBlock_eq (m : Memory) (start count ofs : Nat) (small : start + count ≤ 2 ^ 16) :
    takeBadBlock m count (start + count - 1) ofs
        (bads (bbtBlockIsBad m) (blocks start count)).length =
      ((bads (bbtBlockIsBad m) (blocks start count))[min ofs
        ((bads (bbtBlockIsBad m) (blocks start count)).length - 1)]?).map Nat.cast := by
  induction count with
  | zero => rfl
  | succ count ih =>
    have here : (start : Int) + (count + 1 : Nat) - 1 = ((start + count : Nat) : Int) := by
      push_cast
      omega
    have before : ((start + count : Nat) : Int) - 1 = start + count - 1 := by
      push_cast
      rfl
    have ih := ih (by omega)
    rw [takeBadBlock, here, asU16_natCast (by omega), blocks, List.range'_concat, bads_append,
      Nat.one_mul]
    rw [blocks] at ih
    cases isBad : bbtBlockIsBad m (start + count) with
    | false =>
      rw [bads_cons_of_good _ isBad, show bads (bbtBlockIsBad m) [] = [] from rfl, List.append_nil,
        if_pos rfl, before, ih]
      split
      · rename_i none
        rw [List.eq_nil_of_length_eq_zero none]
        rfl
      · rfl
    | true =>
      generalize earlier : bads (bbtBlockIsBad m) (List.range' start count) = found at ih ⊢
      rw [bads_cons_of_bad _ isBad, show bads (bbtBlockIsBad m) [] = [] from rfl,
        List.length_append, List.length_singleton, if_neg (Nat.succ_ne_zero _),
        if_neg Bool.noConfusion, Nat.add_sub_cancel, before, ih]
      split
      · rename_i last
        rw [Nat.min_eq_right last, List.getElem?_concat_length]
        rfl
      · rename_i inside
        rw [Nat.min_eq_left (by omega), Nat.min_eq_left (by omega),
          List.getElem?_append_left (by omega)]

/-! ## The image of a block -/

/-- The blocks the loops of `get_mapping_block_index_bbt` run over. -/
structure Window (d : Desc) (block start stop : Nat) : Prop where
  range : ∃ first last, mappingBlockInRange d block = some (first, last) ∧
    asInt first >>> d.blkShift = start ∧ asInt last >>> d.blkShift = stop
  after : start ≤ block
  small : stop ≤ 2 ^ 16

def order (m : Memory) (start stop : Nat) : List Nat :=
  skipOrder (bbtBlockIsBad m) (blocks start (stop - start))

variable {start stop : Nat}

theorem Window.mapping {block : Nat} (window : Window d block start stop) (m : Memory) :
    getMappingBlockIndexBbt d m block =
      match (goods (bbtBlockIsBad m) (blocks start (stop - start)))[block - start]? with
      | some i => (i : Int)
      | none =>
        (((bads (bbtBlockIsBad m) (blocks start (stop - start)))[min
          (block - start - (goods (bbtBlockIsBad m) (blocks start (stop - start))).length)
          ((bads (bbtBlockIsBad m) (blocks start (stop - start))).length - 1)]?).map
            Nat.cast).getD (block : Int) := by
  obtain ⟨⟨first, last, range, startEq, stopEq⟩, after, small⟩ := window
  have count : ((stop : Int) - start).toNat = stop - start := Int.toNat_sub stop start
  have residue : ((block : Int) - start).toNat = block - start := Int.toNat_sub block start
  rw [getMappingBlockIndexBbt, range]
  dsimp only
  rw [startEq, stopEq, count, residue]
  by_cases empty : stop ≤ start
  · rw [Nat.sub_eq_zero_of_le empty]
    rfl
  · have top : (stop : Int) - 1 = start + (stop - start : Nat) - 1 := by omega
    rw [skipBadBlocks_eq _ _ _ _ _ (by omega)]
    cases (goods (bbtBlockIsBad m) (blocks start (stop - start)))[block - start]? with
    | some i => rfl
    | none =>
      dsimp only
      rw [Nat.zero_add, top, takeBadBlock_eq _ _ _ _ (by omega)]

/-- Inside its window the block with number `k` is mapped to number `k` of the order. -/
theorem Window.mapping_inside {block i : Nat} (window : Window d block start stop)
    (inside : block < stop) (found : (order m start stop)[block - start]? = some i) :
    getMappingBlockIndexBbt d m block = i := by
  have total := goods_length_add_bads (bbtBlockIsBad m) (blocks start (stop - start))
  have after := window.after
  rw [blocks, List.length_range'] at total
  rw [order, skipOrder, blocks] at found
  rw [window.mapping, blocks]
  generalize goods (bbtBlockIsBad m) (List.range' start (stop - start)) = good at *
  generalize bads (bbtBlockIsBad m) (List.range' start (stop - start)) = bad at *
  by_cases below : block - start < good.length
  · rw [List.getElem?_append_left below] at found
    rw [found]
  · rw [List.getElem?_append_right (by omega)] at found
    rw [List.getElem?_eq_none (by omega), Nat.min_eq_left (by omega), found]
    rfl

theorem Window.mapping_last {block i : Nat} (window : Window d block start stop)
    (past : stop ≤ block + 1)
    (some : 0 < (bads (bbtBlockIsBad m) (blocks start (stop - start))).length)
    (last : (order m start stop)[stop - start - 1]? = Option.some i) :
    getMappingBlockIndexBbt d m block = i := by
  have total := goods_length_add_bads (bbtBlockIsBad m) (blocks start (stop - start))
  have after := window.after
  rw [blocks, List.length_range'] at total
  rw [order, skipOrder, blocks] at last
  rw [window.mapping]
  rw [blocks] at some ⊢
  generalize goods (bbtBlockIsBad m) (List.range' start (stop - start)) = good at *
  generalize bads (bbtBlockIsBad m) (List.range' start (stop - start)) = bad at *
  have index : stop - start - 1 - good.length = bad.length - 1 := by omega
  rw [List.getElem?_append_right (by omega), index] at last
  rw [List.getElem?_eq_none (by omega), Nat.min_eq_right (by omega), last]
  rfl

theorem order_length (m : Memory) (start stop : Nat) :
    (order m start stop).length = stop - start := by
  rw [order, skipOrder_length, blocks, List.length_range']

theorem order_nodup (m : Memory) (start stop : Nat) : (order m start stop).Nodup :=
  skipOrder_nodup List.nodup_range'

theorem order_perm (m : Memory) (start stop : Nat) :
    (order m start stop).Perm (blocks start (stop - start)) :=
  skipOrder_perm _ _

/-! ## Skipping bad blocks -/

structure SkipsBadIn (d : Desc) (m : Memory) (start stop : Nat) : Prop where
  permutes : ((blocks start (stop - start)).map (getMappingBlockIndexBbt d m)).Perm
    ((blocks start (stop - start)).map Nat.cast)
  goodFirst : ∀ k i : Nat, (goods (bbtBlockIsBad m) (blocks start (stop - start)))[k]? = some i →
    getMappingBlockIndexBbt d m (start + k) = i
  badLast : ∀ k, (goods (bbtBlockIsBad m) (blocks start (stop - start))).length ≤ k →
    start + k < stop →
    ∃ i, getMappingBlockIndexBbt d m (start + k) = (i : Nat) ∧ bbtBlockIsBad m i = true

theorem SkipsBadIn.of_order (mapping : ∀ k i : Nat, (order m start stop)[k]? = some i →
      getMappingBlockIndexBbt d m (start + k) = i) : SkipsBadIn d m start stop := by
  have images : (blocks start (stop - start)).map (getMappingBlockIndexBbt d m) =
      (order m start stop).map Nat.cast := by
    apply List.ext_getElem?
    intro k
    rw [List.getElem?_map, List.getElem?_map]
    by_cases inside : k < stop - start
    · obtain ⟨i, found⟩ : ∃ i, (order m start stop)[k]? = some i :=
        ⟨_, List.getElem?_eq_getElem (by rwa [order_length])⟩
      rw [found, blocks, List.getElem?_range' inside, Nat.one_mul, Option.map_some,
        Option.map_some, mapping k i found]
    · rw [List.getElem?_eq_none (by rw [blocks, List.length_range']; omega),
        List.getElem?_eq_none (by rw [order_length]; omega)]
      rfl
  have total := goods_length_add_bads (bbtBlockIsBad m) (blocks start (stop - start))
  rw [blocks, List.length_range'] at total
  refine ⟨?_, fun k i found => ?_, fun k past inside => ?_⟩
  · rw [images]
    exact (order_perm m start stop).map _
  · obtain ⟨below, -⟩ := List.getElem?_eq_some_iff.mp found
    refine mapping k i ?_
    rw [order, skipOrder, List.getElem?_append_left below, found]
  · rw [blocks] at past
    have room : k - (goods (bbtBlockIsBad m) (List.range' start (stop - start))).length <
        (bads (bbtBlockIsBad m) (List.range' start (stop - start))).length := by omega
    have found : (order m start stop)[k]? = some
        (bads (bbtBlockIsBad m) (List.range' start (stop - start)))[
          k - (goods (bbtBlockIsBad m) (List.range' start (stop - start))).length] := by
      rw [order, skipOrder, blocks, List.getElem?_append_right past,
        List.getElem?_eq_getElem room]
    exact ⟨_, mapping k _ found, (mem_bads.mp (List.getElem_mem room)).2⟩

/-! ## Remap ranges -/

def configuredRanges (d : Desc) : List (Nat × Nat) :=
  if d.remapRange = [] then [(0, d.totalBlks)]
  else d.remapRange.map fun range => (range.1 >>> d.blkShift, range.2 >>> d.blkShift)

def SkipsBad (d : Desc) (m : Memory) : Prop :=
  ∀ range ∈ configuredRanges d, SkipsBadIn d m range.1 range.2

def Apart (first second : Nat × Nat) : Prop := first.2 ≤ second.1 ∨ second.2 ≤ first.1

instance : Std.Symm Apart := ⟨fun _ _ apart => apart.symm⟩

/-- The property holds disjoint runs of blocks of the chip, below 2 GiB. -/
structure RangesSound (d : Desc) : Prop where
  starts : ∀ range ∈ d.remapRange, d.blkSize ∣ range.1
  stops : ∀ range ∈ d.remapRange, d.blkSize ∣ range.2
  inChip : ∀ range ∈ d.remapRange, range.2 ≤ d.totalBlks * d.blkSize
  positive : ∀ range ∈ d.remapRange, range.2 < 2 ^ 31
  disjoint : d.remapRange.Pairwise Apart

theorem blkSize_pos (d : Desc) : 0 < d.blkSize :=
  Nat.two_pow_pos _

theorem shiftRight_eq (d : Desc) (address : Nat) : address >>> d.blkShift = address / d.blkSize :=
  Nat.shiftRight_eq_div_pow ..

theorem shiftLeft_eq (d : Desc) (block : Nat) : block <<< d.blkShift = block * d.blkSize :=
  Nat.shiftLeft_eq ..

theorem totalBlks_shiftRight_lt (d : Desc) : d.totalBlks >>> d.blkShift < d.totalBlks := by
  have large : 2 ≤ d.blkSize := by
    have shift : 1 ≤ d.blkShift := d.pgShift_pos.trans_le d.pgShift_le
    exact Nat.pow_le_pow_right Nat.two_pos shift
  rw [shiftRight_eq]
  exact Nat.div_lt_self d.totalBlks_pos large

namespace RangesSound

variable (sound : RangesSound d) {range : Nat × Nat} {block : Nat} (member : range ∈ d.remapRange)
include sound member

theorem stop_le : range.2 >>> d.blkShift ≤ d.totalBlks := by
  rw [shiftRight_eq]
  exact Nat.div_le_of_le_mul (Nat.mul_comm .. ▸ sound.inChip range member)

theorem address_mem (after : range.1 >>> d.blkShift ≤ block)
    (inside : block < range.2 >>> d.blkShift) :
    range.1 ≤ block * d.blkSize ∧ block * d.blkSize < range.2 := by
  rw [shiftRight_eq] at after inside
  constructor
  · rw [← Nat.div_mul_cancel (sound.starts range member)]
    exact Nat.mul_le_mul_right _ after
  · rw [← Nat.div_mul_cancel (sound.stops range member)]
    exact Nat.mul_lt_mul_of_pos_right inside (blkSize_pos d)

theorem mappingBlockInRange_eq (after : range.1 >>> d.blkShift ≤ block)
    (inside : block < range.2 >>> d.blkShift) : mappingBlockInRange d block = some range := by
  obtain ⟨first, last⟩ := sound.address_mem member after inside
  have small := sound.positive range member
  have address : u32 (block <<< d.blkShift) = block * d.blkSize := by
    rw [shiftLeft_eq]
    exact Nat.mod_eq_of_lt (by omega)
  rw [mappingBlockInRange, if_neg (List.ne_nil_of_mem member), address]
  cases found : d.remapRange.find? _ with
  | none =>
    have missing := List.find?_eq_none.mp found range member
    simp only [Bool.and_eq_true, decide_eq_true_eq] at missing
    exact absurd ⟨first, last⟩ missing
  | some other =>
    have holds := List.find?_some found
    simp only [Bool.and_eq_true, decide_eq_true_eq] at holds
    by_contra different
    have apart : Apart range other := sound.disjoint.forall member
      (List.mem_of_find?_eq_some found) fun same => different (congrArg some same.symm)
    rcases apart with before | behind
    · exact absurd (holds.1.trans_lt last) (Nat.not_lt.mpr before)
    · exact absurd (first.trans_lt holds.2) (Nat.not_lt.mpr behind)

theorem window (after : range.1 >>> d.blkShift ≤ block) (inside : block < range.2 >>> d.blkShift) :
    Window d block (range.1 >>> d.blkShift) (range.2 >>> d.blkShift) where
  range := by
    obtain ⟨first, last⟩ := sound.address_mem member after inside
    have small := sound.positive range member
    exact ⟨range.1, range.2, sound.mappingBlockInRange_eq member after inside,
      asInt_shiftRight (by omega) _, asInt_shiftRight small _⟩
  after := after
  small := (sound.stop_le member).trans d.totalBlks_lt.le

end RangesSound

/-- Without a remap range the loops run over the blocks below `total_blks >> blk_shift`. -/
theorem window_default (none : d.remapRange = []) (block : Nat) :
    Window d block 0 (d.totalBlks >>> d.blkShift) where
  range := by
    have small := d.totalBlks_lt
    refine ⟨0, d.totalBlks, if_pos none, ?_, asInt_shiftRight (by omega) _⟩
    rw [asInt_shiftRight (by decide), Nat.zero_shiftRight]
  after := Nat.zero_le block
  small := (totalBlks_shiftRight_lt d).le.trans d.totalBlks_lt.le

/-! ## When bad blocks are skipped -/

/-- The bad blocks are the last of the chip, and none is in its first part. -/
def BadAtEnd (d : Desc) (m : Memory) : Prop :=
  ∃ good, d.totalBlks >>> d.blkShift ≤ good ∧
    ∀ block < d.totalBlks, bbtBlockIsBad m block = decide (good ≤ block)

theorem skipsBad_of_range (m : Memory) (sound : RangesSound d) {range : Nat × Nat}
    (member : range ∈ d.remapRange) :
    SkipsBadIn d m (range.1 >>> d.blkShift) (range.2 >>> d.blkShift) := by
  refine .of_order fun k i found => ?_
  have inside := (List.getElem?_eq_some_iff.mp found).1
  rw [order_length] at inside
  refine (sound.window member (Nat.le_add_right _ k) (by omega)).mapping_inside (by omega) ?_
  rwa [Nat.add_sub_cancel_left]

theorem mapping_default (none : d.remapRange = [])
    (good : ∀ block < d.totalBlks >>> d.blkShift, bbtBlockIsBad m block = false) (block : Nat) :
    getMappingBlockIndexBbt d m block = block := by
  have places : ∀ place ∈ blocks 0 (d.totalBlks >>> d.blkShift - 0),
      bbtBlockIsBad m place = false := fun place member => by
    rw [blocks, List.mem_range'_1] at member
    exact good place (by omega)
  rw [(window_default none block).mapping, goods_of_all_good places, bads_of_all_good places]
  by_cases inside : block < d.totalBlks >>> d.blkShift
  · rw [blocks, List.getElem?_range' (by omega)]
    simp
  · rw [List.getElem?_eq_none (by rw [blocks, List.length_range']; omega)]
    rfl

/-- A bad block at the start of the chip: the last block of the empty range and the
first block behind it are mapped to the same place. -/
theorem not_injective_default (none : d.remapRange = []) {block : Nat}
    (inside : block < d.totalBlks >>> d.blkShift) (isBad : bbtBlockIsBad m block = true) :
    getMappingBlockIndexBbt d m (d.totalBlks >>> d.blkShift - 1) =
      getMappingBlockIndexBbt d m (d.totalBlks >>> d.blkShift) := by
  have member : block ∈ bads (bbtBlockIsBad m) (blocks 0 (d.totalBlks >>> d.blkShift - 0)) :=
    mem_bads.mpr ⟨List.mem_range'_1.mpr (by omega), isBad⟩
  have some := List.length_pos_of_mem member
  have last := List.getElem?_eq_getElem (l := order m 0 (d.totalBlks >>> d.blkShift))
    (i := d.totalBlks >>> d.blkShift - 0 - 1) (by rw [order_length]; omega)
  rw [(window_default none _).mapping_last (by omega) some last,
    (window_default none _).mapping_last (by omega) some last]

theorem order_of_badAtEnd {good : Nat}
    (states : ∀ block < d.totalBlks, bbtBlockIsBad m block = decide (good ≤ block)) :
    order m 0 d.totalBlks = blocks 0 d.totalBlks := by
  have split : blocks 0 d.totalBlks =
      blocks 0 (min good d.totalBlks) ++ blocks (min good d.totalBlks)
        (d.totalBlks - min good d.totalBlks) := by
    have halves := @List.range'_append_1 0 (min good d.totalBlks)
      (d.totalBlks - min good d.totalBlks)
    rw [Nat.zero_add, Nat.add_sub_cancel' (Nat.min_le_right ..)] at halves
    exact halves.symm
  have low : ∀ place ∈ blocks 0 (min good d.totalBlks), bbtBlockIsBad m place = false := by
    intro place member
    rw [blocks, List.mem_range'_1] at member
    rw [states place (by omega), decide_eq_false (by omega)]
  have high : ∀ place ∈ blocks (min good d.totalBlks) (d.totalBlks - min good d.totalBlks),
      bbtBlockIsBad m place = true := by
    intro place member
    rw [blocks, List.mem_range'_1] at member
    rw [states place (by omega), decide_eq_true (by omega)]
  rw [order, Nat.sub_zero, skipOrder, split, goods_append, bads_append, goods_of_all_good low,
    bads_of_all_good low, goods_of_all_bad high, bads_of_all_bad high, List.append_nil,
    List.nil_append]

theorem SkipsBadIn.injective (skips : SkipsBadIn d m start stop) {block other : Nat}
    (first : block ∈ blocks start (stop - start)) (second : other ∈ blocks start (stop - start))
    (same : getMappingBlockIndexBbt d m block = getMappingBlockIndexBbt d m other) :
    block = other := by
  have distinct := skips.permutes.nodup_iff.mpr
    ((List.nodup_range' (s := start) (n := stop - start)).map Nat.cast_injective)
  exact List.inj_on_of_nodup_map distinct first second same

theorem skipsBad_default_iff (m : Memory) (none : d.remapRange = []) :
    SkipsBadIn d m 0 d.totalBlks ↔ BadAtEnd d m := by
  have inChip := totalBlks_shiftRight_lt d
  constructor
  · intro skips
    have good : ∀ block < d.totalBlks >>> d.blkShift, bbtBlockIsBad m block = false := by
      intro block inside
      by_contra isBad
      have same := not_injective_default none inside (eq_true_of_ne_false isBad)
      have equal := skips.injective (List.mem_range'_1.mpr (by omega))
        (List.mem_range'_1.mpr (by omega)) same
      omega
    have identity := mapping_default none good
    have bad : ∀ k, (goods (bbtBlockIsBad m) (blocks 0 (d.totalBlks - 0))).length ≤ k →
        k < d.totalBlks → bbtBlockIsBad m k = true := by
      intro k past inside
      obtain ⟨i, image, isBad⟩ := skips.badLast k past (by omega)
      rw [identity, Nat.zero_add, Nat.cast_inj] at image
      rwa [image]
    refine ⟨(goods (bbtBlockIsBad m) (blocks 0 (d.totalBlks - 0))).length, ?_,
      fun block inside => ?_⟩
    · by_contra short
      have first := good _ (Nat.lt_of_not_le short)
      rw [bad _ le_rfl (by omega)] at first
      cases first
    · by_cases past : (goods (bbtBlockIsBad m) (blocks 0 (d.totalBlks - 0))).length ≤ block
      · rw [bad block past inside, decide_eq_true past]
      · have found := List.getElem?_eq_getElem (Nat.lt_of_not_le past)
        have image := skips.goodFirst block _ found
        rw [identity, Nat.zero_add, Nat.cast_inj] at image
        have member := List.getElem_mem (Nat.lt_of_not_le past)
        rw [← image] at member
        rw [(mem_goods.mp member).2, decide_eq_false past]
  · rintro ⟨good, first, states⟩
    refine .of_order fun k i found => ?_
    rw [order_of_badAtEnd states] at found
    obtain ⟨inside, rfl⟩ := List.getElem?_eq_some_iff.mp found
    rw [mapping_default none fun block below => ?_, List.getElem_range', Nat.one_mul]
    rw [states block (by omega), decide_eq_false (by omega)]

/-- A configured range skips its bad blocks.  The default does only when the bad blocks
are the last of the chip. -/
theorem skipsBad_iff (d : Desc) (m : Memory) (sound : RangesSound d) :
    SkipsBad d m ↔ d.remapRange ≠ [] ∨ BadAtEnd d m := by
  rw [SkipsBad, configuredRanges]
  split
  · rename_i none
    rw [List.forall_mem_singleton]
    exact (skipsBad_default_iff m none).trans (or_iff_right (not_not.mpr none)).symm
  · rename_i some
    refine iff_of_true (fun range member => ?_) (.inl some)
    obtain ⟨bytes, inProperty, rfl⟩ := List.mem_map.mp member
    exact skipsBad_of_range m sound inProperty

/-! ## A chip with a bad block 0 -/

def rangeChip : Desc :=
  { twoPageChip with remapRange := [(0, 2048)] }

theorem rangeChip_sound : RangesSound rangeChip where
  starts := by decide
  stops := by decide
  inChip := by decide
  positive := by decide
  disjoint := List.pairwise_singleton ..

def badFirst : Memory where
  bbtBuf byte := if byte = 0 then 3 else 0
  bmtBlkIdx := 7

theorem skipsBad_rangeChip :
    SkipsBad rangeChip badFirst ↔ rangeChip.remapRange ≠ [] ∨ BadAtEnd rangeChip badFirst :=
  skipsBad_iff rangeChip badFirst rangeChip_sound

/-- Without the property logical block 0 stays on the bad block 0. -/
theorem bad_block_not_skipped : ¬SkipsBad twoPageChip badFirst := by
  intro skips
  have chip : SkipsBadIn twoPageChip badFirst 0 8 := skips (0, 8) (by decide)
  exact absurd (chip.goodFirst 0 1 (by decide)) (by decide)

end MetaFilogic.Bmt.Bbt
