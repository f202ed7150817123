import MetaFilogic.Bmt.BbtMapping

/-!
# What a `bbt` remap does to the other blocks

Marking one block bad changes the order of its whole range, but `remap_block_bbt`
erases and copies one block.  The image of every other logical block stays only
when the block that is marked is bad already, or none of the places after it moves.
-/

namespace MetaFilogic.Bmt.Bbt

variable {d : Desc} {m : Memory}

/-! ## Images of logical blocks -/

/-- The blocks of `mtd->size`, which `mtk_bmt_init_bbt` cuts by four. -/
def logicalBlks (d : Desc) : Nat := d.totalBlks - 4

def physical (d : Desc) (m : Memory) (block : Nat) : Nat :=
  (getMappingBlockIndexBbt d m block).toNat

def InRange (d : Desc) (range : Nat × Nat) (block : Nat) : Prop :=
  range.1 >>> d.blkShift ≤ block ∧ block < range.2 >>> d.blkShift

/-- Besides sound ranges: byte addresses fit 32 bits, and a block has room for the
bitmap of the chip. -/
structure ChipSound (d : Desc) : Prop extends RangesSound d where
  tableFits : d.totalBlks < d.blkSize
  addresses : d.totalBlks * d.blkSize ≤ 2 ^ 32

namespace ChipSound

variable (sound : ChipSound d) {range : Nat × Nat} {block other : Nat}
include sound

theorem order_physical (member : range ∈ d.remapRange) (inRange : InRange d range block) :
    (order m (range.1 >>> d.blkShift) (range.2 >>> d.blkShift))[
      block - range.1 >>> d.blkShift]? = some (physical d m block) := by
  obtain ⟨after, inside⟩ := inRange
  have found := List.getElem?_eq_getElem
    (l := order m (range.1 >>> d.blkShift) (range.2 >>> d.blkShift))
    (i := block - range.1 >>> d.blkShift) (by rw [order_length]; omega)
  rw [found, physical, (sound.window member after inside).mapping_inside inside found]
  rfl

theorem physical_inRange (member : range ∈ d.remapRange) (inRange : InRange d range block) :
    InRange d range (physical d m block) := by
  have place := List.mem_of_getElem? (sound.order_physical (m := m) member inRange)
  have inBlocks := (order_perm m _ _).mem_iff.mp place
  rw [blocks, List.mem_range'_1] at inBlocks
  exact ⟨inBlocks.1, by omega⟩

theorem mapping_outside (inChip : block < d.totalBlks)
    (outside : ∀ range ∈ d.remapRange, ¬InRange d range block) :
    getMappingBlockIndexBbt d m block = block := by
  by_cases none : d.remapRange = []
  · refine mapping_default none (fun place below => ?_) block
    rw [shiftRight_eq, Nat.div_eq_of_lt sound.tableFits] at below
    exact absurd below (Nat.not_lt_zero _)
  · have address : u32 (block <<< d.blkShift) = block * d.blkSize := by
      rw [shiftLeft_eq]
      refine Nat.mod_eq_of_lt (Nat.lt_of_lt_of_le ?_ sound.addresses)
      exact Nat.mul_lt_mul_of_pos_right inChip (blkSize_pos d)
    have missing : mappingBlockInRange d block = Option.none := by
      rw [mappingBlockInRange, if_neg none, address]
      refine List.find?_eq_none.mpr fun range member => ?_
      simp only [Bool.and_eq_true, decide_eq_true_eq]
      rintro ⟨first, last⟩
      refine outside range member ⟨?_, ?_⟩
      · rw [shiftRight_eq]
        exact Nat.div_le_of_le_mul (Nat.mul_comm .. ▸ first)
      · rw [shiftRight_eq]
        exact (Nat.lt_div_iff_mul_lt_of_dvd (blkSize_pos d).ne' (sound.stops range member)).mpr last
    rw [getMappingBlockIndexBbt, missing]

theorem physical_outside (inChip : block < d.totalBlks)
    (outside : ∀ range ∈ d.remapRange, ¬InRange d range block) : physical d m block = block := by
  rw [physical, sound.mapping_outside inChip outside]
  rfl

theorem mapping_eq (inChip : block < d.totalBlks) :
    getMappingBlockIndexBbt d m block = physical d m block := by
  by_cases some : ∃ range ∈ d.remapRange, InRange d range block
  · obtain ⟨range, member, inRange⟩ := some
    exact (sound.window member inRange.1 inRange.2).mapping_inside inRange.2
      (sound.order_physical member inRange)
  · have outside : ∀ range ∈ d.remapRange, ¬InRange d range block :=
      fun range member inRange => some ⟨range, member, inRange⟩
    rw [sound.mapping_outside inChip outside, sound.physical_outside inChip outside]

theorem eq_of_inRange {second : Nat × Nat} (member : range ∈ d.remapRange)
    (secondMember : second ∈ d.remapRange) (inFirst : InRange d range block)
    (inSecond : InRange d second block) : range = second := by
  have first := sound.mappingBlockInRange_eq member inFirst.1 inFirst.2
  have again := sound.mappingBlockInRange_eq secondMember inSecond.1 inSecond.2
  exact Option.some.inj (first.symm.trans again)

theorem inRange_of_physical (inChip : block < d.totalBlks) (member : range ∈ d.remapRange)
    (inRange : InRange d range (physical d m block)) : InRange d range block := by
  by_cases some : ∃ own ∈ d.remapRange, InRange d own block
  · obtain ⟨own, ownMember, inOwn⟩ := some
    rwa [sound.eq_of_inRange member ownMember inRange (sound.physical_inRange ownMember inOwn)]
  · have outside : ∀ own ∈ d.remapRange, ¬InRange d own block :=
      fun own ownMember inOwn => some ⟨own, ownMember, inOwn⟩
    rwa [sound.physical_outside inChip outside] at inRange

theorem physical_lt (inChip : block < d.totalBlks) : physical d m block < d.totalBlks := by
  by_cases some : ∃ own ∈ d.remapRange, InRange d own block
  · obtain ⟨own, member, inOwn⟩ := some
    exact (sound.physical_inRange member inOwn).2.trans_le (sound.stop_le member)
  · rwa [sound.physical_outside inChip fun own member inOwn => some ⟨own, member, inOwn⟩]

theorem physical_injective (inChip : block < d.totalBlks) (otherInChip : other < d.totalBlks)
    (same : physical d m block = physical d m other) : block = other := by
  by_cases some : ∃ range ∈ d.remapRange, InRange d range block
  · obtain ⟨range, member, inRange⟩ := some
    have image := sound.physical_inRange (m := m) member inRange
    have otherInRange := sound.inRange_of_physical otherInChip member (same ▸ image)
    have place := sound.order_physical (m := m) member inRange
    have otherPlace := sound.order_physical (m := m) member otherInRange
    rw [← same] at otherPlace
    have room := (List.getElem?_eq_some_iff.mp place).1
    have position := (List.getElem?_inj room (order_nodup m _ _)).mp
      (place.trans otherPlace.symm)
    have after := inRange.1
    have otherAfter := otherInRange.1
    omega
  · have outside : ∀ range ∈ d.remapRange, ¬InRange d range block :=
      fun range member inRange => some ⟨range, member, inRange⟩
    have image := sound.physical_outside (m := m) inChip outside
    have otherOutside : ∀ range ∈ d.remapRange, ¬InRange d range other :=
      fun range member inRange => outside range member <| by
        have := sound.physical_inRange (m := m) member inRange
        rwa [← same, image] at this
    rw [← image, same, sound.physical_outside otherInChip otherOutside]

end ChipSound

/-! ## Marking a block of a window -/

section Marked

variable {start stop place : Nat}

/-- The places between the position of `place` and the one it has once it is bad. -/
def movers (m : Memory) (start stop place : Nat) : List Nat :=
  overtaken (bbtBlockIsBad m) (blocks start (place - start)) (blocks (place + 1) (stop - place - 1))

theorem blocks_split (after : start ≤ place) (inside : place < stop) :
    blocks start (stop - start) =
      blocks start (place - start) ++ place :: blocks (place + 1) (stop - place - 1) := by
  have halves := @List.range'_append_1 start (place - start) (stop - place - 1 + 1)
  rw [List.range'_succ, Nat.add_sub_cancel' after] at halves
  rw [blocks, blocks, blocks, halves]
  congr 1
  omega

theorem movers_eq_nil_iff : movers m start stop place = [] ↔
    (∀ other, start ≤ other → other < place → bbtBlockIsBad m other = false) ∧
      ∀ other, place < other → other < stop → bbtBlockIsBad m other = true := by
  rw [movers, overtaken, List.append_eq_nil_iff, and_comm, goods, bads, List.filter_eq_nil_iff,
    List.filter_eq_nil_iff]
  simp only [blocks, List.mem_range'_1, Bool.not_eq_true, Bool.not_eq_true',
    Bool.not_eq_false]
  constructor
  · rintro ⟨below, above⟩
    exact ⟨fun other first last => below other (by omega),
      fun other first last => above other (by omega)⟩
  · rintro ⟨below, above⟩
    exact ⟨fun other inBlocks => below other (by omega) (by omega),
      fun other inBlocks => above other (by omega) (by omega)⟩

variable (after : start ≤ place) (inside : place < stop) (good : bbtBlockIsBad m place = false)
include after inside good

theorem order_split : order m start stop =
    goods (bbtBlockIsBad m) (blocks start (place - start)) ++
      place :: (movers m start stop place ++
        bads (bbtBlockIsBad m) (blocks (place + 1) (stop - place - 1))) := by
  rw [order, blocks_split after inside, skipOrder_before good, movers]

theorem order_marked : order (setState place true m) start stop =
    goods (bbtBlockIsBad m) (blocks start (place - start)) ++
      (movers m start stop place ++
        place :: bads (bbtBlockIsBad m) (blocks (place + 1) (stop - place - 1))) := by
  have nodup : (blocks start (stop - start)).Nodup := List.nodup_range'
  rw [blocks_split after inside] at nodup
  rw [order, blocks_split after inside, skipOrder_marked (marks_setState good) nodup, movers]

variable {k : Nat}

theorem order_position (found : (order m start stop)[k]? = some place) :
    k = (goods (bbtBlockIsBad m) (blocks start (place - start))).length := by
  have room := (List.getElem?_eq_some_iff.mp found).1
  refine (List.getElem?_inj room (order_nodup m start stop)).mp ?_
  rw [found, order_split after inside good, List.getElem?_append_right le_rfl, Nat.sub_self]
  rfl

theorem order_marked_of_none (none : movers m start stop place = []) :
    order (setState place true m) start stop = order m start stop := by
  rw [order_marked after inside good, order_split after inside good, none]
  rfl

theorem order_marked_before
    (before : k < (goods (bbtBlockIsBad m) (blocks start (place - start))).length) :
    (order (setState place true m) start stop)[k]? = (order m start stop)[k]? := by
  rw [order_marked after inside good, order_split after inside good,
    List.getElem?_append_left before, List.getElem?_append_left before]

theorem order_marked_at (some : movers m start stop place ≠ [])
    (at_ : k = (goods (bbtBlockIsBad m) (blocks start (place - start))).length) :
    (order (setState place true m) start stop)[k]? = (order m start stop)[k + 1]? := by
  subst at_
  rw [order_marked after inside good, order_split after inside good,
    List.getElem?_append_right le_rfl, List.getElem?_append_right (Nat.le_add_right _ 1),
    Nat.sub_self, Nat.add_sub_cancel_left, List.getElem?_cons_succ]
  obtain ⟨first, rest, list⟩ := List.exists_cons_of_ne_nil some
  rw [list]
  rfl

end Marked

/-! ## Marking the block a logical block is mapped to -/

/-- The bitmap once the block of `block` is marked. -/
def marked (d : Desc) (m : Memory) (block : Nat) : Memory := setState (physical d m block) true m

/-- Nothing behind `block` moves when its block is marked: the mark is there already,
or `block` is the last logical one of its range, or its range has the good blocks in
front of `block` and the bad ones behind it. -/
def Settled (d : Desc) (m : Memory) (block : Nat) : Prop :=
  bbtBlockIsBad m (physical d m block) = true ∨
    ∀ range ∈ d.remapRange, InRange d range block →
      (∀ other < logicalBlks d, InRange d range other → other ≤ block) ∨
        (∀ other, InRange d range other → other < block → bbtBlockIsBad m other = false) ∧
          ∀ other, InRange d range other → block < other → bbtBlockIsBad m other = true

theorem order_congr {other : Memory} {start stop : Nat}
    (same : ∀ block, start ≤ block → block < stop →
      bbtBlockIsBad other block = bbtBlockIsBad m block) :
    order other start stop = order m start stop :=
  skipOrder_congr fun place inBlocks => by
    rw [blocks, List.mem_range'_1] at inBlocks
    exact same place inBlocks.1 (by omega)

theorem order_marked_bad {block start stop : Nat}
    (isBad : bbtBlockIsBad m (physical d m block) = true) :
    order (marked d m block) start stop = order m start stop := by
  refine order_congr fun place _ _ => ?_
  by_cases same : place = physical d m block
  · rw [same, isBad]
    exact bbtBlockIsBad_setState_self
  · exact bbtBlockIsBad_setState_of_ne same

namespace ChipSound

variable (sound : ChipSound d) {range : Nat × Nat} {block other : Nat}
include sound

theorem physical_congr {after : Memory} (inChip : block < d.totalBlks)
    (same : ∀ range ∈ d.remapRange, InRange d range block →
      (order after (range.1 >>> d.blkShift) (range.2 >>> d.blkShift))[
          block - range.1 >>> d.blkShift]? =
        (order m (range.1 >>> d.blkShift) (range.2 >>> d.blkShift))[
          block - range.1 >>> d.blkShift]?) : physical d after block = physical d m block := by
  by_cases some : ∃ range ∈ d.remapRange, InRange d range block
  · obtain ⟨range, member, inRange⟩ := some
    have equal := same range member inRange
    rw [sound.order_physical member inRange, sound.order_physical member inRange] at equal
    exact Option.some.inj equal
  · have outside : ∀ range ∈ d.remapRange, ¬InRange d range block :=
      fun range member inRange => some ⟨range, member, inRange⟩
    rw [sound.physical_outside inChip outside, sound.physical_outside inChip outside]

theorem order_marked_apart (inChip : block < d.totalBlks) (member : range ∈ d.remapRange)
    (apart : ¬InRange d range block) :
    order (marked d m block) (range.1 >>> d.blkShift) (range.2 >>> d.blkShift) =
      order m (range.1 >>> d.blkShift) (range.2 >>> d.blkShift) := by
  refine order_congr fun place first last => bbtBlockIsBad_setState_of_ne fun same => apart ?_
  have placed : InRange d range place := ⟨first, last⟩
  rw [same] at placed
  exact sound.inRange_of_physical inChip member placed

theorem position (member : range ∈ d.remapRange) (inRange : InRange d range block)
    (good : bbtBlockIsBad m (physical d m block) = false) :
    block - range.1 >>> d.blkShift = (goods (bbtBlockIsBad m) (blocks (range.1 >>> d.blkShift)
      (physical d m block - range.1 >>> d.blkShift))).length := by
  obtain ⟨after, inside⟩ := sound.physical_inRange (m := m) member inRange
  exact order_position after inside good (sound.order_physical member inRange)

theorem physical_eq_self (inRange : InRange d range block) (member : range ∈ d.remapRange)
    (below : ∀ other, InRange d range other → other < block → bbtBlockIsBad m other = false)
    (above : ∀ other, InRange d range other → block < other → bbtBlockIsBad m other = true) :
    physical d m block = block := by
  obtain ⟨after, inside⟩ := inRange
  have low : ∀ place ∈ blocks (range.1 >>> d.blkShift) (block - range.1 >>> d.blkShift),
      bbtBlockIsBad m place = false := fun place inBlocks => by
    rw [blocks, List.mem_range'_1] at inBlocks
    exact below place ⟨inBlocks.1, by omega⟩ (by omega)
  have high : ∀ place ∈ blocks (block + 1) (range.2 >>> d.blkShift - block - 1),
      bbtBlockIsBad m place = true := fun place inBlocks => by
    rw [blocks, List.mem_range'_1] at inBlocks
    exact above place ⟨by omega, by omega⟩ (by omega)
  have here : (order m (range.1 >>> d.blkShift) (range.2 >>> d.blkShift))[
      block - range.1 >>> d.blkShift]? = some block := by
    have length : (blocks (range.1 >>> d.blkShift) (block - range.1 >>> d.blkShift)).length =
        block - range.1 >>> d.blkShift := List.length_range'
    rw [order, blocks_split after inside, skipOrder, goods_append, bads_append,
      goods_of_all_good low, bads_of_all_good low]
    cases isBad : bbtBlockIsBad m block with
    | true =>
      rw [goods_cons_of_bad _ isBad, goods_of_all_bad high, bads_cons_of_bad _ isBad,
        List.append_nil, List.getElem?_append_right (by omega), length, Nat.sub_self]
      rfl
    | false =>
      rw [goods_cons_of_good _ isBad, List.append_assoc,
        List.getElem?_append_right (by omega), length, Nat.sub_self]
      rfl
  exact (Option.some.inj (here.symm.trans (sound.order_physical member ⟨after, inside⟩))).symm

/-- While nothing behind `block` moves, the other logical blocks stay where they are. -/
theorem physical_marked (settled : Settled d m block) (inChip : block < d.totalBlks)
    (logical : other < logicalBlks d) (different : other ≠ block) :
    physical d (marked d m block) other = physical d m other := by
  have otherInChip : other < d.totalBlks := logical.trans_le (Nat.sub_le ..)
  refine sound.physical_congr otherInChip fun range member otherInRange => ?_
  by_cases inRange : InRange d range block
  · cases isBad : bbtBlockIsBad m (physical d m block) with
    | true => rw [order_marked_bad isBad]
    | false =>
      have nothing := settled.resolve_left (ne_true_of_eq_false isBad)
      obtain ⟨after, inside⟩ := sound.physical_inRange (m := m) member inRange
      have position := sound.position member inRange isBad
      rcases nothing range member inRange with last | ⟨below, above⟩
      · have before : other < block := lt_of_le_of_ne (last other logical otherInRange) different
        refine order_marked_before after inside isBad ?_
        have first := otherInRange.1
        omega
      · have self := sound.physical_eq_self inRange member below above
        rw [marked, order_marked_of_none after inside isBad]
        rw [self]
        exact movers_eq_nil_iff.mpr ⟨fun place first last =>
            below place ⟨first, last.trans inRange.2⟩ last,
          fun place first last => above place ⟨inRange.1.trans first.le, last⟩ first⟩
  · rw [sound.order_marked_apart inChip member inRange]

theorem exists_displaced (unsettled : ¬Settled d m block) :
    ∃ other < logicalBlks d, other ≠ block ∧
      physical d (marked d m block) block = physical d m other := by
  by_contra nowhere
  cases isBad : bbtBlockIsBad m (physical d m block) with
  | true => exact unsettled (.inl isBad)
  | false =>
    refine unsettled (.inr fun range member inRange => ?_)
    obtain ⟨after, inside⟩ := sound.physical_inRange (m := m) member inRange
    have position := sound.position member inRange isBad
    by_cases last : ∀ other < logicalBlks d, InRange d range other → other ≤ block
    · exact .inl last
    · have stuck : movers m (range.1 >>> d.blkShift) (range.2 >>> d.blkShift)
          (physical d m block) = [] := by
        by_contra some
        push Not at last
        obtain ⟨later, logical, laterInRange, behind⟩ := last
        refine nowhere ⟨block + 1, by omega, by omega, ?_⟩
        have next : InRange d range (block + 1) :=
          ⟨inRange.1.trans (Nat.le_succ block), by have := laterInRange.2; omega⟩
        have shifted := order_marked_at after inside isBad some position
        rw [← Nat.sub_add_comm inRange.1, sound.order_physical member next] at shifted
        have image := sound.order_physical (m := marked d m block) member inRange
        exact Option.some.inj (image.symm.trans shifted)
      obtain ⟨below, above⟩ := movers_eq_nil_iff.mp stuck
      have low : ∀ place ∈ blocks (range.1 >>> d.blkShift)
          (physical d m block - range.1 >>> d.blkShift), bbtBlockIsBad m place = false :=
        fun place inBlocks => by
          rw [blocks, List.mem_range'_1] at inBlocks
          exact below place inBlocks.1 (by omega)
      have self : physical d m block = block := by
        rw [goods_of_all_good low, blocks, List.length_range'] at position
        have first := inRange.1
        omega
      rw [self] at below above
      exact .inr ⟨fun other inOwn before => below other inOwn.1 before,
        fun other inOwn behind => above other behind inOwn.2⟩

end ChipSound

/-! ## The run of a remap -/

theorem bmtPgs_le (sound : ChipSound d) : bmtPgs d ≤ d.pages := by
  have blocksNeeded : (d.totalBlks / 4 + d.blkSize - 1) / d.blkSize ≤ 1 := by
    have fits := sound.tableFits
    refine Nat.le_of_lt_succ ((Nat.div_lt_iff_lt_mul (blkSize_pos d)).mpr ?_)
    omega
  have size : d.blkSize = d.pages * d.pgSize := by
    rw [Desc.blkSize, Desc.pages, Desc.pgSize, ← Nat.pow_add, Nat.sub_add_cancel d.pgShift_le]
  rw [bmtPgs]
  refine Nat.div_le_of_le_mul ?_
  calc (d.totalBlks / 4 + d.blkSize - 1) / d.blkSize * d.blkSize
      ≤ 1 * d.blkSize := Nat.mul_le_mul_right _ blocksNeeded
    _ = d.pgSize * d.pages := by rw [Nat.one_mul, size, Nat.mul_comm]

theorem div_pages_of_mem {block page count : Nat} (first : d.blkPg block ≤ page)
    (last : page < d.blkPg block + count) (fits : count ≤ d.pages) : page / d.pages = block := by
  have bound : d.blkPg block + count ≤ (block + 1) * d.pages := by
    rw [Desc.blkPg, Nat.succ_mul]
    omega
  exact Nat.div_eq_of_lt_le first (last.trans_le bound)

variable {kept : Nat → Prop}

theorem writeBmt_keepsPages (sound : ChipSound d) {block : Nat}
    (outside : ∀ page, kept page → page / d.pages ≠ block) :
    Preserves (KeepsPages kept) (writeBmt d block) :=
  fun s => KeepsPages.writeOob d _ (fun page isKept inside =>
    outside page isKept (div_pages_of_mem inside.1 inside.2 (bmtPgs_le sound))) s

theorem writeBmt_keepsMem (d : Desc) (block : Nat) : Preserves KeepsMem (writeBmt d block) :=
  fun s => KeepsMem.writeOob d _ _ _ s

theorem bbtSetBlockState_mem (d : Desc) (block : Nat) (s : State Memory) :
    Ensures (bbtSetBlockState d block true) s fun _ after =>
      after.mem = setState block true s.mem := by
  refine .modifyMem_bind (.getMem_bind ?_)
  exact ((KeepsMem.bbtNandErase d _).bind fun _ => (writeBmt_keepsMem d _).bind fun _ =>
    .pure _).ensures _

theorem bbtSetBlockState_pages (sound : ChipSound d) (block : Nat) (s : State Memory)
    (outside : ∀ page, kept page → page / d.pages ≠ s.mem.bmtBlkIdx) :
    Ensures (bbtSetBlockState d block true) s fun _ after => KeepsPages kept s after := by
  refine .modifyMem_bind (.getMem_bind ?_)
  exact ((KeepsPages.bbtNandErase d outside).bind fun _ =>
    (writeBmt_keepsPages sound outside).bind fun _ => .pure _).ensures _

def newBlk (d : Desc) (m : Memory) (block mapped : Nat) : Nat :=
  asU16 (getMappingBlockIndexBbt d (setState mapped true m) block)

theorem remapBlockBbt_mem {block : Nat} (inRange : mappingBlockInRange d block ≠ none)
    (mapped copyLen : Nat) (s : State Memory) :
    Ensures (remapBlockBbt d block mapped copyLen) s fun _ after =>
      after.mem = setState mapped true s.mem := by
  refine .ite (fun missing => absurd (Option.isNone_iff_eq_none.mp missing) inRange) fun _ => ?_
  refine (bbtSetBlockState_mem d mapped s).bind fun _ after mem => .getMem_bind ?_
  rw [← mem]
  refine (((KeepsMem.bbtNandErase d _).bind fun _ => ?_).ensures after).mono fun _ _ kept => kept
  refine .ite (fun _ => (KeepsMem.bbtNandCopy d _ _ _).bind fun _ => .pure _) fun _ => .pure _

theorem remapBlockBbt_pages (sound : ChipSound d) {block : Nat}
    (inRange : mappingBlockInRange d block ≠ none) (mapped copyLen : Nat) (s : State Memory)
    (table : ∀ page, kept page → page / d.pages ≠ s.mem.bmtBlkIdx)
    (outside : ∀ page, kept page → page / d.pages ≠ newBlk d s.mem block mapped) :
    Ensures (remapBlockBbt d block mapped copyLen) s fun _ after => KeepsPages kept s after := by
  refine .ite (fun missing => absurd (Option.isNone_iff_eq_none.mp missing) inRange) fun _ => ?_
  refine ((bbtSetBlockState_mem d mapped s).both (bbtSetBlockState_pages sound mapped s table)).bind
    fun _ middle both => .getMem_bind ?_
  obtain ⟨mem, pages⟩ := both
  rw [mem]
  refine (((KeepsPages.bbtNandErase d outside).bind fun _ => ?_).ensures middle).mono
    fun _ _ kept => trans_of _ pages kept
  refine .ite (fun _ => (KeepsPages.bbtNandCopy d _ _ outside).bind fun _ => .pure _)
    fun _ => .pure _

/-! ## The frame of a remap -/

/-- Page `page` of a logical block, read through the mapping. -/
def content (d : Desc) (s : State Memory) (block page : Nat) : PageData :=
  s.flash (d.blkPg (physical d s.mem block) + page)

def withFault (d : Desc) (fault : Nat → Fault) : Desc := { d with fault := fault }

def afterRemap (d : Desc) (block copyLen : Nat) (s : State Memory) : State Memory :=
  (remapBlockBbt d block (physical d s.mem block) copyLen s).2

/-- Whatever the chip holds and the lower driver does, a remap of `block` keeps what
can be read of the other logical blocks and takes a place none of them had. -/
def RemapFrames (d : Desc) (m : Memory) (block : Nat) : Prop :=
  ∀ (fault : Nat → Fault) (s : State Memory) (copyLen : Nat), s.mem = m →
    ∀ other < logicalBlks d, other ≠ block →
      (∀ page < d.pages, content d (afterRemap (withFault d fault) block copyLen s) other page =
        content d s other page) ∧
      physical d (afterRemap (withFault d fault) block copyLen s).mem block ≠ physical d m other

def TableApart (d : Desc) (m : Memory) (block : Nat) : Prop :=
  ∀ other < logicalBlks d, other ≠ block → physical d m other ≠ m.bmtBlkIdx

theorem ChipSound.withFault (sound : ChipSound d) (fault : Nat → Fault) :
    ChipSound (withFault d fault) where
  starts := sound.starts
  stops := sound.stops
  inChip := sound.inChip
  positive := sound.positive
  disjoint := sound.disjoint
  tableFits := sound.tableFits
  addresses := sound.addresses

theorem afterRemap_mem {block : Nat} (inRange : mappingBlockInRange d block ≠ none)
    (fault : Nat → Fault) (copyLen : Nat) (s : State Memory) :
    (afterRemap (withFault d fault) block copyLen s).mem = marked d s.mem block :=
  remapBlockBbt_mem (d := withFault d fault) inRange (physical d s.mem block) copyLen s

theorem newBlk_eq {block : Nat} (sound : ChipSound d) (inChip : block < d.totalBlks) :
    newBlk d m block (physical d m block) = physical d (marked d m block) block := by
  have small := (sound.physical_lt (m := marked d m block) inChip).trans d.totalBlks_lt
  rw [newBlk, ← marked, sound.mapping_eq inChip, asU16_natCast small]

theorem settled_of_remapFrames {block : Nat} (sound : ChipSound d)
    (inRange : mappingBlockInRange d block ≠ none) (frames : RemapFrames d m block) : Settled d m block := by
  by_contra unsettled
  obtain ⟨other, otherLogical, different, displaced⟩ := sound.exists_displaced unsettled
  have taken := (frames (fun _ => {}) ⟨m, fun _ => erasedPage, 0, []⟩ 0 rfl other otherLogical
    different).2
  rw [afterRemap_mem inRange] at taken
  exact taken displaced

/-! ## The table block -/

def spareByte (d : Desc) : Nat := d.oobOffset + 8

def quiet (d : Desc) : Desc := withFault d fun _ => {}

theorem writeBmt_spareByte (block page : Nat) (s : State Memory) :
    ((writeBmt (quiet d) block s).2.flash page).oob (spareByte d) =
      (s.flash page).oob (spareByte d) := by
  show ((writeOob (quiet d) _ _ _ s).2.flash page).oob _ = _
  rw [writeOob_run]
  split
  · rfl
  · show ((if _ then tablePages (quiet d) s.mem _ s.flash page else s.flash page).oob _) = _
    split
    · refine if_neg ?_
      show ¬(page = _ ∧ d.oobOffset + 1 ≤ d.oobOffset + 8 ∧ d.oobOffset + 8 < d.oobOffset + 1 + 7)
      omega
    · rfl

theorem bbtNandErase_spareByte (block : Nat) (s : State Memory) (inChip : block < d.totalBlks) :
    Ensures (bbtNandErase (quiet d) block) s fun _ after =>
      (after.flash (d.blkPg block)).oob (spareByte d) = 0xff := by
  rw [Ensures, bbtNandErase_run, if_neg (show ¬(quiet d).totalBlks ≤ block from
    Nat.not_le_of_lt inChip)]
  show (if _ then erasedPage else _ : PageData).oob _ = _
  rw [if_pos (show d.blkPg block / (quiet d).pages = block from
    Nat.mul_div_cancel _ d.pages_pos)]
  rfl

theorem bbtSetBlockState_spareByte (block : Nat) (s : State Memory)
    (inChip : s.mem.bmtBlkIdx < d.totalBlks) :
    Ensures (bbtSetBlockState (quiet d) block true) s fun _ after =>
      (after.flash (d.blkPg s.mem.bmtBlkIdx)).oob (spareByte d) = 0xff := by
  refine .modifyMem_bind (.getMem_bind ?_)
  refine (bbtNandErase_spareByte s.mem.bmtBlkIdx { s with mem := setState block true s.mem }
    inChip).bind fun _ middle erased => ?_
  show ((writeBmt (quiet d) _ middle).2.flash _).oob _ = _
  rw [writeBmt_spareByte, erased]

theorem remapBlockBbt_spareByte {block mapped : Nat} (inRange : mappingBlockInRange d block ≠ none)
    (copyLen : Nat) (s : State Memory) (inChip : s.mem.bmtBlkIdx < d.totalBlks)
    (apart : newBlk d s.mem block mapped ≠ s.mem.bmtBlkIdx) :
    Ensures (remapBlockBbt (quiet d) block mapped copyLen) s fun _ after =>
      (after.flash (d.blkPg s.mem.bmtBlkIdx)).oob (spareByte d) = 0xff := by
  have outside : ∀ page, page = d.blkPg s.mem.bmtBlkIdx →
      page / (quiet d).pages ≠ newBlk (quiet d) s.mem block mapped := by
    rintro _ rfl same
    refine apart (same.symm.trans ?_)
    exact Nat.mul_div_cancel _ d.pages_pos
  refine .ite (fun missing => absurd (Option.isNone_iff_eq_none.mp missing) inRange) fun _ => ?_
  refine ((bbtSetBlockState_mem _ mapped s).both
    (bbtSetBlockState_spareByte mapped s inChip)).bind fun _ middle both => .getMem_bind ?_
  obtain ⟨mem, erased⟩ := both
  rw [mem]
  refine (((KeepsPages.bbtNandErase (quiet d) outside).bind fun _ => ?_).ensures middle).mono
    fun _ _ kept => by rw [kept _ rfl, erased]
  refine .ite (fun _ => (KeepsPages.bbtNandCopy _ _ _ outside).bind fun _ => .pure _)
    fun _ => .pure _

section Frames

variable {block : Nat} (sound : ChipSound d) (logical : block < logicalBlks d)
  (inRange : mappingBlockInRange d block ≠ none)
include sound logical inRange

theorem afterRemap_pages (fault : Nat → Fault) (copyLen : Nat) (s : State Memory) {page : Nat}
    (table : page / d.pages ≠ s.mem.bmtBlkIdx)
    (outside : page / d.pages ≠ physical d (marked d s.mem block) block) :
    (afterRemap (withFault d fault) block copyLen s).flash page = s.flash page := by
  rw [← newBlk_eq sound (logical.trans_le (Nat.sub_le ..))] at outside
  have kept : KeepsPages (fun page => page / d.pages ≠ s.mem.bmtBlkIdx ∧
      page / d.pages ≠ newBlk d s.mem block (physical d s.mem block)) s
      (afterRemap (withFault d fault) block copyLen s) :=
    remapBlockBbt_pages (sound.withFault fault) inRange (physical d s.mem block) copyLen s
      (fun _ isKept => isKept.1) fun _ isKept => isKept.2
  exact kept page ⟨table, outside⟩

theorem remapFrames_of_settled (settled : Settled d m block) (apart : TableApart d m block) :
    RemapFrames d m block := by
  intro fault s copyLen mem other otherLogical different
  have inChip : block < d.totalBlks := logical.trans_le (Nat.sub_le ..)
  have otherInChip : other < d.totalBlks := otherLogical.trans_le (Nat.sub_le ..)
  subst mem
  have stays := sound.physical_marked settled inChip otherLogical different
  have taken : physical d (marked d s.mem block) block ≠ physical d s.mem other := fun same =>
    different (sound.physical_injective otherInChip inChip (stays.trans same.symm))
  rw [afterRemap_mem inRange]
  refine ⟨fun page inside => ?_, taken⟩
  have address : (d.blkPg (physical d s.mem other) + page) / d.pages = physical d s.mem other := by
    rw [Desc.blkPg, Nat.mul_comm, Nat.mul_add_div d.pages_pos, Nat.div_eq_of_lt inside,
      Nat.add_zero]
  rw [content, content, afterRemap_mem inRange, stays]
  refine afterRemap_pages sound logical inRange fault copyLen s ?_ ?_
  · rw [address]
    exact apart other otherLogical different
  · rw [address]
    exact taken.symm

/-- A table block that a logical block is mapped to loses what the block held: spare
byte 8 is erased and not written. -/
theorem tableApart_of_remapFrames (frames : RemapFrames d m block) : TableApart d m block := by
  intro other otherLogical different onTable
  have otherInChip : other < d.totalBlks := otherLogical.trans_le (Nat.sub_le ..)
  have inChip : m.bmtBlkIdx < d.totalBlks := onTable ▸ sound.physical_lt otherInChip
  have settled := settled_of_remapFrames sound inRange frames
  obtain ⟨same, taken⟩ := frames (fun _ => {})
    ⟨m, fun _ => { erasedPage with oob := fun _ => 0 }, 0, []⟩ 0 rfl other otherLogical different
  have logicalInChip : block < d.totalBlks := logical.trans_le (Nat.sub_le ..)
  have stays := sound.physical_marked settled logicalInChip otherLogical different
  rw [afterRemap_mem inRange, onTable, ← newBlk_eq sound logicalInChip] at taken
  have kept := congrArg (PageData.oob · (spareByte d)) (same 0 d.pages_pos)
  simp only [content, afterRemap_mem inRange, stays, onTable, Nat.add_zero] at kept
  have erased := remapBlockBbt_spareByte inRange 0
    ⟨m, fun _ => { erasedPage with oob := fun _ => 0 }, 0, []⟩ inChip taken
  exact absurd (kept.symm.trans erased) (by decide)

end Frames

/-- A remap leaves the other logical blocks alone exactly when none of them moves and
none is on the block of the table. -/
theorem remapFrames_iff (d : Desc) (m : Memory) (block : Nat) (sound : ChipSound d)
    (logical : block < logicalBlks d) (inRange : mappingBlockInRange d block ≠ none) :
    RemapFrames d m block ↔ Settled d m block ∧ TableApart d m block := by
  constructor
  · intro frames
    exact ⟨settled_of_remapFrames sound inRange frames,
      tableApart_of_remapFrames sound logical inRange frames⟩
  · rintro ⟨settled, apart⟩
    exact remapFrames_of_settled sound logical inRange settled apart

/-! ## A chip without bad blocks -/

theorem rangeChip_chipSound : ChipSound rangeChip where
  toRangesSound := rangeChip_sound
  tableFits := by decide
  addresses := by decide

def allGood : Memory where
  bbtBuf _ := 0
  bmtBlkIdx := 7

theorem remapFrames_last :
    RemapFrames rangeChip allGood 3 ↔ Settled rangeChip allGood 3 ∧ TableApart rangeChip allGood 3 :=
  remapFrames_iff rangeChip allGood 3 rangeChip_chipSound (by decide) (by decide)

/-- Block 0 is remapped to block 1, which is erased under logical block 1. -/
theorem remap_erases_next : ¬RemapFrames rangeChip allGood 0 := by
  intro frames
  have taken := (frames (fun _ => {}) ⟨allGood, fun _ => erasedPage, 0, []⟩ 0 rfl 1 (by decide)
    (by decide)).2
  exact taken (by decide)

end MetaFilogic.Bmt.Bbt
