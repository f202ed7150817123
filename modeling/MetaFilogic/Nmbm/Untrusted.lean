import MetaFilogic.Nmbm.RoundTrip

/-!
# Tables with arbitrary contents

What `nmbm_try_load_info_table` makes sure of when the bytes on the chip are not the
driver's own.  The header check compares differences of offsets, and these are
differences of `uint32_t`: a table whose offsets make one of them wrap around is
accepted, and so is an entry that points past the end of the chip.
-/

namespace MetaFilogic.Nmbm

open Bytes

variable {ld : LowerDevice}

/-! ## What was read -/

variable {ba : Nat} {state : State}

theorem tryLoadLoop_inside (sound : ld.Sound) {blocks off : Nat} {startBa : Option Nat}
    (length : state.ni.infoTableCache.length = ld.infoTableSize) (within : off ≤ ld.infoTableSize)
    (tight : off + blocks * ld.erasesize < ld.infoTableSize + ld.erasesize) :
    Ensures (tryLoadLoop ld blocks ba off startBa) state fun result _ =>
      ∀ start stop read, result = some (start, stop, read) → ld.infoTableSize ≤ read →
        ∀ block, Between ba (ba + blocks) block → block < ld.blockCount := by
  induction blocks generalizing ba off startBa state with
  | zero =>
    refine .pure fun _ _ _ _ _ block between => ?_
    have := between.1
    have := between.2
    omega
  | succ blocks ih =>
    have next : (blocks + 1) * ld.erasesize = blocks * ld.erasesize + ld.erasesize :=
      Nat.succ_mul _ _
    refine tryLoadLoop_round sound length (fun full => absurd tight (by omega))
      (fun middle scanned => ?_) (fun _ _ => nofun) fun size rest _ _ scanned here _ _ => ?_
    · refine (tryLoadLoop_spec sound (scanned.length.trans length) within).mono
        fun result after spec start stop read found all => ?_
      have bound := (spec.2 start stop read found).1
      omega
    have restTight : blocks = 0 ∨
        off + size + blocks * ld.erasesize < ld.infoTableSize + ld.erasesize := by
      by_cases none : blocks = 0
      · exact Or.inl none
      · have := Nat.mul_le_mul_right ld.erasesize (Nat.one_le_iff_ne_zero.mpr none)
        omega
    rcases restTight with rfl | restTight
    · refine (Ensures.of_true _ _).mono fun _ _ _ _ _ _ _ _ block between => ?_
      have := between.1
      have := between.2
      omega
    · refine (ih (scanned.length.trans length) (by omega) restTight).mono
        fun result after done start stop read found all block between => ?_
      by_cases first : block = ba
      · exact first ▸ here
      · exact done start stop read found all block
          ⟨by have := between.1; omega, by have := between.2; omega⟩

theorem get32_congr {buffer other : List Byte} {count off : Nat}
    (same : ∀ index, index < count → get8 buffer index = get8 other index)
    (within : off + 4 ≤ count) : get32 buffer off = get32 other off := by
  simp only [get32, same _ (show off + 3 < count by omega), same _ (show off + 2 < count by omega),
    same _ (show off + 1 < count by omega), same _ (show off < count by omega)]

theorem InfoTableHeader.parse_congr {image other : List Byte}
    (same : ∀ index, index < 32 → get8 image index = get8 other index) :
    InfoTableHeader.parse image = InfoTableHeader.parse other := by
  simp only [InfoTableHeader.parse, Header.parse, get32_congr same (show 0 + 4 ≤ 32 by omega),
    get32_congr same (show 4 + 4 ≤ 32 by omega), get32_congr same (show 8 + 4 ≤ 32 by omega),
    get32_congr same (show 12 + 4 ≤ 32 by omega), get32_congr same (show 16 + 4 ≤ 32 by omega),
    get32_congr same (show 20 + 4 ≤ 32 by omega), get32_congr same (show 24 + 4 ≤ 32 by omega),
    get32_congr same (show 28 + 4 ≤ 32 by omega)]

theorem tryLoadLoop_header (sound : ld.Sound) {blocks : Nat}
    (length : state.ni.infoTableCache.length = ld.infoTableSize)
    (enough : ld.infoTableSize ≤ blocks * ld.erasesize)
    (tight : blocks * ld.erasesize < ld.infoTableSize + ld.erasesize) (whole : 32 ≤ ld.erasesize) :
    Ensures (tryLoadLoop ld blocks ba 0 none) state fun result after =>
      ∀ start stop read, result = some (start, stop, read) → ld.infoTableSize ≤ read →
        checkInfoTableHeader ld after.ni.infoTableCache = true := by
  have positive := sound.infoTableSize_pos
  have long : 32 ≤ ld.infoTableSize := by
    have header := sound.headerSize_le_stateTableOff
    have states := sound.stateTable_within
    have mapping := sound.mappingTable_within
    omega
  cases blocks with
  | zero => rw [Nat.zero_mul] at enough; omega
  | succ blocks =>
    have next : (blocks + 1) * ld.erasesize = blocks * ld.erasesize + ld.erasesize :=
      Nat.succ_mul _ _
    refine tryLoadLoop_round sound length (fun full => by omega)
      (fun middle scanned => ?_) (fun _ _ => nofun)
      fun size rest _ _ scanned _ _ accepted => ?_
    · refine (tryLoadLoop_spec sound (scanned.length.trans length) (Nat.zero_le _)).mono
        fun result after spec start stop read found all => ?_
      have bound := (spec.2 start stop read found).1
      omega
    have restLength := scanned.length.trans length
    refine (tryLoadLoop_spec sound restLength (by omega)).mono
      fun outcome after spec start stop read found all => ?_
    obtain ⟨_, _, _, cache⟩ := (spec.2 start stop read found).2 (by omega) (by omega) all
    have same : InfoTableHeader.parse after.ni.infoTableCache =
        InfoTableHeader.parse rest.ni.infoTableCache := by
      refine InfoTableHeader.parse_congr fun index below => ?_
      have front : (rest.ni.infoTableCache.take (0 + size)).length = 0 + size := by
        rw [List.length_take]
        omega
      rw [cache, get8, List.getD_append _ _ _ _ (by omega), ← get8, get8_take (by omega)]
    rw [checkInfoTableHeader, same]
    exact accepted rfl

structure Accepted (ld : LowerDevice) (state : State) (ba : Nat) (table : LoadedTable) : Prop
    extends Found ld state.flash state.ni.dataBlockCount state.ni.signatureBa table where
  start : table.startBa = ba
  inside : ∀ block, Between table.startBa table.endBa block → block < ld.blockCount
  header : 32 ≤ ld.erasesize → checkInfoTableHeader ld table.image = true

theorem tryLoadInfoTable_accepted (sound : ld.Sound) {tableLoaded : Bool}
    (length : state.ni.infoTableCache.length = ld.infoTableSize) :
    Ensures (tryLoadInfoTable ld ba tableLoaded) state fun result _ =>
      ∀ table ∈ result, Accepted ld state ba table := by
  have blocks := sound.infoTableBlocks_spec
  have tight : 0 + ld.infoTableBlocks * ld.erasesize < ld.infoTableSize + ld.erasesize := by
    rw [Nat.zero_add]
    exact blocks.2
  have read : Ensures (tryLoadInfoTable ld ba tableLoaded) state fun result _ =>
      ∀ table ∈ result, table.startBa = ba ∧
        (∀ block, Between ba (ba + ld.infoTableBlocks) block → block < ld.blockCount) ∧
          (32 ≤ ld.erasesize → checkInfoTableHeader ld table.image = true) := by
    have header : Ensures (tryLoadLoop ld ld.infoTableBlocks ba 0 none) state fun result after =>
        32 ≤ ld.erasesize → ∀ start stop read, result = some (start, stop, read) →
          ld.infoTableSize ≤ read → checkInfoTableHeader ld after.ni.infoTableCache = true := by
      by_cases whole : 32 ≤ ld.erasesize
      · exact (tryLoadLoop_header sound length blocks.1 blocks.2 whole).mono
          fun _ _ checked _ => checked
      · exact (Ensures.of_true _ _).mono fun _ _ _ is => absurd is whole
    unfold tryLoadInfoTable
    refine ((tryLoadLoop_inside sound length (Nat.zero_le _) tight).both header).bind
      fun window middle seen => ?_
    cases window with
    | none => exact .pure (by simp)
    | some window =>
      obtain ⟨start, stop, off⟩ := window
      refine .getNi_bind (.ite (fun _ => .pure (by simp)) fun all => ?_)
      refine .ite (fun _ => .pure (by simp)) fun _ => ?_
      have known : (∀ block, Between ba (ba + ld.infoTableBlocks) block →
          block < ld.blockCount) ∧ (32 ≤ ld.erasesize →
            checkInfoTableHeader ld middle.ni.infoTableCache = true) :=
        ⟨seen.1 start stop off rfl (by omega), fun whole =>
          seen.2 whole start stop off rfl (by omega)⟩
      split
      · exact .pure (by simp)
      · refine .ite (fun _ => .modifyNi_bind (.pure ?_)) fun _ => .pure ?_
        all_goals
          intro table among
          obtain rfl := Option.some.inj among
          exact ⟨rfl, known⟩
  refine (read.both (tryLoadInfoTable_spec sound length)).mono
    fun result after both table among => ?_
  obtain ⟨start, inside, header⟩ := both.1 table among
  obtain rfl : result = some table := among
  obtain ⟨_, _, _, found, _⟩ := both.2
  refine ⟨found, start, ?_, header⟩
  rw [found.stop, start]
  exact inside

/-! ## What the loader relies on -/

def stateOff (image : List Byte) : Nat := (InfoTableHeader.parse image).stateTableOff.toNat

def mappingOff (image : List Byte) : Nat := (InfoTableHeader.parse image).mappingTableOff.toNat

inductive Inspected (ld : LowerDevice) (capacity : Nat) (table : LoadedTable) : Nat → Prop where
  | header {off : Nat} (inside : off < LowerDevice.infoTableHeaderSize) :
      Inspected ld capacity table off
  | states {block off : Nat} (between : Between table.startBa table.endBa block)
      (inside : Between (stateOff table.image + 4 * (block / NMBM_BITMAP_BLOCKS_PER_UNIT))
        (stateOff table.image + 4 * (block / NMBM_BITMAP_BLOCKS_PER_UNIT) + 4) off) :
      Inspected ld capacity table off
  | entries {lb off : Nat} (below : lb < capacity)
      (inside : Between (mappingOff table.image + 4 * lb) (mappingOff table.image + 4 * lb + 4)
        off) : Inspected ld capacity table off
  | copyStates {off : Nat} (inside : Between (stateOff table.image)
      (stateOff table.image + ld.stateTableSize) off) : Inspected ld capacity table off
  | copyMapping {off : Nat} (inside : Between (mappingOff table.image)
      (mappingOff table.image + ld.mappingTableSize) off) : Inspected ld capacity table off

/-- The tables lie in the cache, behind the header and apart, and every logical block is
unmapped or mapped to a block of the chip that is neither the signature's nor one of the
table. -/
structure Safe (ld : LowerDevice) (capacity signatureBa : Nat) (table : LoadedTable) : Prop where
  inside : ∀ off, Inspected ld capacity table off → off < ld.infoTableSize
  apart : stateOff table.image + ld.stateTableSize ≤ mappingOff table.image ∨
    mappingOff table.image + ld.mappingTableSize ≤ stateOff table.image
  behind : LowerDevice.infoTableHeaderSize ≤ stateOff table.image ∧
    LowerDevice.infoTableHeaderSize ≤ mappingOff table.image
  entries : ∀ lb, lb < capacity → isUnmapped (imageMapping table.image lb) ∨
    (imageMapping table.image lb).toNat < ld.blockCount ∧
      (imageMapping table.image lb).toNat ≠ signatureBa ∧
        ¬Between table.startBa table.endBa (imageMapping table.image lb).toNat

def OffsetsCompared (ld : LowerDevice) (image : List Byte) : Prop :=
  ld.stateTableSize ≤ subU32 (mappingOff image) (stateOff image) ∧
    ld.mappingTableSize ≤ subU32 ld.infoTableSize (mappingOff image)

/-- The differences of the header check are true differences, or the mapping table comes
first. -/
def OffsetsFit (ld : LowerDevice) (image : List Byte) : Prop :=
  (LowerDevice.infoTableHeaderSize ≤ stateOff image ∧ stateOff image ≤ mappingOff image ∧
      mappingOff image ≤ ld.infoTableSize ∧ (32 ≤ ld.erasesize ∨ OffsetsCompared ld image)) ∨
    (LowerDevice.infoTableHeaderSize ≤ mappingOff image ∧
      mappingOff image + ld.mappingTableSize ≤ stateOff image ∧
        stateOff image + ld.stateTableSize ≤ ld.infoTableSize)

/-- No entry points past the chip or, below the capacity, at a block of the table. -/
structure EntriesFit (ld : LowerDevice) (capacity start : Nat) (image : List Byte) : Prop where
  read : ld.blockCount < capacity → mappingOff image + 4 * capacity ≤ ld.infoTableSize
  chip : ∀ lb, lb < capacity → ¬isUnmapped (imageMapping image lb) →
    (imageMapping image lb).toNat < ld.blockCount
  below : ∀ lb, lb < capacity → (imageMapping image lb).toNat < capacity →
    ¬Between start (start + ld.infoTableBlocks) (imageMapping image lb).toNat

theorem offsetsCompared_of_header {image : List Byte}
    (checked : checkInfoTableHeader ld image = true) : OffsetsCompared ld image := by
  have difference : ((InfoTableHeader.parse image).mappingTableOff -
      (InfoTableHeader.parse image).stateTableOff).toNat =
        subU32 (mappingOff image) (stateOff image) := by
    rw [BitVec.toNat_sub, subU32, mappingOff, stateOff]
    omega
  unfold checkInfoTableHeader at checked
  simp only [difference] at checked
  split at checked
  · cases checked
  · split at checked
    · cases checked
    · split at checked
      · cases checked
      · split at checked
        · cases checked
        · exact ⟨by omega, not_lt.mp ‹_›⟩

theorem layout_iff (sound : ld.Sound) {capacity : Nat} {table : LoadedTable}
    (blocks : ∀ block, Between table.startBa table.endBa block → block < ld.blockCount)
    (header : 32 ≤ ld.erasesize → checkInfoTableHeader ld table.image = true) :
    ((∀ off, Inspected ld capacity table off → off < ld.infoTableSize) ∧
      (stateOff table.image + ld.stateTableSize ≤ mappingOff table.image ∨
        mappingOff table.image + ld.mappingTableSize ≤ stateOff table.image) ∧
      LowerDevice.infoTableHeaderSize ≤ stateOff table.image ∧
        LowerDevice.infoTableHeaderSize ≤ mappingOff table.image) ↔
      OffsetsFit ld table.image ∧ (ld.blockCount < capacity →
        mappingOff table.image + 4 * capacity ≤ ld.infoTableSize) := by
  have chip := sound.blockCount_pos
  have states := sound.stateTableSize_eq
  have entries := sound.mappingTableSize_eq
  have long := sound.headerSize_le_stateTableOff
  have statesWithin := sound.stateTable_within
  have mappingWithin := sound.mappingTable_within
  have width := sound.infoTableSize_lt
  constructor
  · rintro ⟨inside, apart, behindStates, behindMapping⟩
    have statesEnd := inside (stateOff table.image + ld.stateTableSize - 1)
      (.copyStates ⟨by omega, by omega⟩)
    have mappingEnd := inside (mappingOff table.image + ld.mappingTableSize - 1)
      (.copyMapping ⟨by omega, by omega⟩)
    refine ⟨?_, fun more => ?_⟩
    · rcases apart with first | second
      · refine Or.inl ⟨behindStates, by omega, by omega, Or.inr ⟨?_, ?_⟩⟩ <;>
          simp only [subU32] <;> omega
      · exact Or.inr ⟨behindMapping, second, by omega⟩
    · have last := inside (mappingOff table.image + 4 * (capacity - 1) + 3)
        (.entries (show capacity - 1 < capacity by omega) ⟨by omega, by omega⟩)
      omega
  · rintro ⟨fits, read⟩
    -- In both orders the two tables end within the cache
    have within : stateOff table.image + ld.stateTableSize ≤ ld.infoTableSize ∧
        mappingOff table.image + ld.mappingTableSize ≤ ld.infoTableSize ∧
        (stateOff table.image + ld.stateTableSize ≤ mappingOff table.image ∨
          mappingOff table.image + ld.mappingTableSize ≤ stateOff table.image) ∧
        LowerDevice.infoTableHeaderSize ≤ stateOff table.image ∧
          LowerDevice.infoTableHeaderSize ≤ mappingOff table.image := by
      rcases fits with ⟨behind, order, end_, compared⟩ | ⟨behind, order, end_⟩
      · have compared : OffsetsCompared ld table.image :=
          compared.elim (fun whole => offsetsCompared_of_header (header whole)) id
        obtain ⟨first, second⟩ := compared
        simp only [subU32] at first second
        refine ⟨by omega, by omega, Or.inl (by omega), behind, by omega⟩
      · exact ⟨end_, by omega, Or.inr order, by omega, behind⟩
    obtain ⟨statesEnd, mappingEnd, apart, behind⟩ := within
    refine ⟨fun off inspected => ?_, apart, behind⟩
    cases inspected with
    | header inside =>
      simp only [LowerDevice.infoTableHeaderSize] at inside
      omega
    | states between inside =>
      have block := blocks _ between
      have := inside.2
      simp only [NMBM_BITMAP_BLOCKS_PER_UNIT] at this
      omega
    | entries below inside =>
      have := inside.2
      by_cases more : ld.blockCount < capacity
      · have := read more
        omega
      · omega
    | copyStates inside =>
      have := inside.2
      omega
    | copyMapping inside =>
      have := inside.2
      omega

/-- An accepted table is safe exactly if its offsets and its entries fit. -/
theorem acceptedTable_safe (sound : ld.Sound) {ba : Nat} {tableLoaded : Bool} {state : State}
    (length : state.ni.infoTableCache.length = ld.infoTableSize) :
    Ensures (tryLoadInfoTable ld ba tableLoaded) state fun result _ => ∀ table ∈ result,
      (Safe ld state.ni.dataBlockCount state.ni.signatureBa table ↔
        OffsetsFit ld (ld.bytesAt state.flash (ld.ba2addr ba) ld.infoTableSize) ∧
          EntriesFit ld state.ni.dataBlockCount ba
            (ld.bytesAt state.flash (ld.ba2addr ba) ld.infoTableSize)) := by
  refine (tryLoadInfoTable_accepted sound length).mono fun result _ accepted table among => ?_
  have is := accepted table among
  have image := is.image
  have stop := is.stop
  rw [is.start] at image stop
  rw [← image]
  have layout := @layout_iff ld sound state.ni.dataBlockCount table is.inside is.header
  obtain ⟨minimum, _, placed, _, _⟩ := is.mapping
  constructor
  · intro safe
    obtain ⟨offsets, read⟩ := layout.mp ⟨safe.inside, safe.apart, safe.behind⟩
    refine ⟨offsets, read, fun lb below mapped => ?_, fun lb below low between => ?_⟩
    · exact ((safe.entries lb below).resolve_left mapped).1
    · have block : Between table.startBa table.endBa (imageMapping table.image lb).toNat := by
        rw [is.start, stop]
        exact between
      rcases safe.entries lb below with unmapped | ⟨_, _, outside⟩
      · have chip := is.inside _ block
        have blocks := sound.blockCount_lt
        rw [isUnmapped_iff] at unmapped
        omega
      · exact outside block
  · rintro ⟨offsets, entries⟩
    obtain ⟨inside, apart, behind⟩ := layout.mpr ⟨offsets, entries.read⟩
    refine ⟨inside, apart, behind, fun lb below => ?_⟩
    by_cases unmapped : isUnmapped (imageMapping table.image lb)
    · exact Or.inl unmapped
    · have fine := (placed lb below).1
      refine Or.inr ⟨entries.chip lb below unmapped, fun is => fine (Or.inr is), fun between => ?_⟩
      rw [is.start, stop] at between
      by_cases low : (imageMapping table.image lb).toNat < state.ni.dataBlockCount
      · exact entries.below lb below low between
      · exact fine (Or.inl ⟨by omega, stop ▸ between.2⟩)

/-! ## Two tables -/

def aboutToLoad (image : List Byte) : State :=
  let flash : Flash :=
    ⟨fun page =>
      if page / 4 = 8 then ⟨(image.drop (page % 4 * 64)).take 64, fill 16 0xff⟩
      else ⟨fill 64 0xff, fill 16 0xff⟩, fun _ => false⟩
  let state := (initialSys (faultyChip 9 []) flash).state
  { state with ni := { state.ni with dataBlockCount := 7, signatureBa := 15 } }

def plainImage (stateTableOff mappingTableOff : BitVec 32) : List Byte :=
  infoTableImage (faultyChip 9 [])
    ⟨⟨NMBM_MAGIC_INFO_TABLE, NMBM_VER, 192, 0⟩, 1, stateTableOff, mappingTableOff, 0⟩
    (fun _ => -1) fun lb => if lb < 7 then mapped lb else unmappedEntry

theorem acceptedTable_safe_plain : ∃ table,
    (tryLoadInfoTable (faultyChip 9 []) 8 false (aboutToLoad (plainImage 64 128))).1 = some table ∧
      Safe (faultyChip 9 []) 7 15 table := by
  obtain ⟨table, is, _⟩ : ∃ table,
      (tryLoadInfoTable (faultyChip 9 []) 8 false (aboutToLoad (plainImage 64 128))).1 = some table ∧
        table.startBa = 8 :=
    exists_of_any (by decide +kernel)
  refine ⟨table, is, (acceptedTable_safe (smallChip_sound _ (by decide)) ?_ table is).mpr
    ⟨Or.inl ⟨?_, ?_, ?_, Or.inl ?_⟩, ?_, ?_, ?_⟩⟩
  · exact fill_length _ _
  · decide +kernel
  · decide +kernel
  · decide +kernel
  · decide
  · exact fun more => absurd more (by decide)
  · decide +kernel
  · unfold Between
    decide +kernel

/-- The state table lies inside the mapping table: the difference of the two offsets wraps
around. -/
theorem acceptedTable_overlaps : ∃ table,
    (tryLoadInfoTable (faultyChip 9 []) 8 false (aboutToLoad (plainImage 188 128))).1 =
        some table ∧
      ¬Safe (faultyChip 9 []) 7 15 table := by
  obtain ⟨table, is, overlap⟩ : ∃ table,
      (tryLoadInfoTable (faultyChip 9 []) 8 false (aboutToLoad (plainImage 188 128))).1 =
          some table ∧
        ¬(stateOff table.image + (faultyChip 9 []).stateTableSize ≤ mappingOff table.image ∨
          mappingOff table.image + (faultyChip 9 []).mappingTableSize ≤ stateOff table.image) :=
    exists_of_any (by decide +kernel)
  exact ⟨table, is, fun safe => overlap safe.apart⟩

end MetaFilogic.Nmbm
