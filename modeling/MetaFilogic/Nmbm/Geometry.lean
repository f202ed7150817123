import MetaFilogic.Nmbm.Attach

/-!
# The geometry of an accepted chip

`LowerDevice.Sound` collects what the driver may rely on: the checks of
`nmbm_check_lower_members`, and what a NAND device with buffers allocated by
`nmbm_calc_structure_size` promises (whole pages in a block, whole blocks in the
chip, sizes that do not overflow the 32-bit members).  Under it the shifts, masks
and wrapped sums of the code are divisions, remainders and plain sums.
-/

namespace MetaFilogic.Nmbm

open Bytes

/-- `value` rounded up to a multiple of `unit`, without wrapping. -/
def ceilTo (value unit : Nat) : Nat := (value + unit - 1) / unit * unit

def LowerDevice.tableBytes (ld : LowerDevice) : Nat :=
  ceilTo infoTableHeaderSize ld.writesize +
    ceilTo ((ld.size / ld.erasesize + 15) / 16 * 4) ld.writesize +
      ceilTo (4 * (ld.size / ld.erasesize)) ld.writesize
where
  infoTableHeaderSize := LowerDevice.infoTableHeaderSize

/-- A chip that passes `nmbm_check_lower_members`, made of whole blocks of whole
pages, whose info table fits 32-bit sizes. -/
structure LowerDevice.Sound (ld : LowerDevice) : Prop where
  accepted : ∃ flags, checkLowerMembers ld flags = true
  wholePages : ld.writesize ≤ ld.erasesize
  wholeBlocks : ld.erasesize ≤ ld.size
  erasesizeWidth : ld.erasesize < 2 ^ 32
  tableWidth : ld.tableBytes < 2 ^ 32

theorem isPowerOf2_iff (n : Nat) : isPowerOf2 n = true ↔ n.isPowerOfTwo := by
  rw [← Nat.ne_zero_and_sub_one_eq_zero_iff_isPowerOfTwo]
  simp [isPowerOf2]

theorem ffs_two_pow {exponent : Nat} (small : exponent < 32) :
    ffs (2 ^ exponent) = exponent + 1 := by
  have found : (List.range 32).find? (fun index => (2 ^ exponent).testBit index) =
      some exponent := by
    rw [List.find?_range_eq_some]
    refine ⟨by simp, by simpa using small, ?_⟩
    intro index below
    simp [Nat.testBit_two_pow]
    omega
  simp [ffs, found]

variable {unit : Nat}

theorem le_ceilTo (value : Nat) (positive : 0 < unit) : value ≤ ceilTo value unit := by
  have split := Nat.div_add_mod (value + unit - 1) unit
  have small := Nat.mod_lt (value + unit - 1) positive
  unfold ceilTo
  rw [Nat.mul_comm]
  omega

theorem ceilTo_lt (value : Nat) (positive : 0 < unit) : ceilTo value unit < value + unit := by
  calc
    ceilTo value unit ≤ value + unit - 1 := Nat.div_mul_le_self _ _
    _ < value + unit := Nat.sub_lt (Nat.add_pos_right value positive) Nat.one_pos

theorem unit_le_ceilTo {value : Nat} (some : 0 < value) (positive : 0 < unit) :
    unit ≤ ceilTo value unit := by
  have quotient : 1 ≤ (value + unit - 1) / unit :=
    (Nat.le_div_iff_mul_le positive).mpr (by omega)
  have scaled := Nat.mul_le_mul_right unit quotient
  unfold ceilTo
  omega

theorem alignUp_eq {value : Nat} (sumWidth : value + unit - 1 < 2 ^ 32) :
    alignUp value unit = ceilTo value unit := by
  have low : (value + unit - 1) / unit * unit ≤ value + unit - 1 := Nat.div_mul_le_self _ _
  unfold alignUp ceilTo u32
  rw [Nat.mod_eq_of_lt sumWidth, Nat.mod_eq_of_lt (by omega)]

theorem reserve_le {blocks start reserved : Nat} (width : blocks < 2 ^ 32)
    (within : start ≤ blocks) :
    (if reserved ≠ 0 ∧ subU32 blocks start > reserved then subU32 blocks reserved
      else start) ≤ blocks := by
  split
  · rename_i exceeded
    simp only [subU32] at exceeded ⊢
    omega
  · exact within

namespace LowerDevice.Sound

variable {ld : LowerDevice} (sound : ld.Sound)

include sound

theorem size_pow : ∃ exponent, ld.size = 2 ^ exponent := by
  obtain ⟨flags, accepted⟩ := sound.accepted
  simp only [checkLowerMembers, Bool.and_eq_true, isPowerOf2_iff] at accepted
  exact accepted.1.1.1.1.1.1.1

theorem erasesize_pow : ∃ exponent, exponent < 32 ∧ ld.erasesize = 2 ^ exponent := by
  obtain ⟨flags, accepted⟩ := sound.accepted
  simp only [checkLowerMembers, Bool.and_eq_true, isPowerOf2_iff] at accepted
  obtain ⟨exponent, power⟩ := accepted.1.1.1.1.1.1.2
  refine ⟨exponent, ?_, power⟩
  have width := sound.erasesizeWidth
  rw [power] at width
  exact (Nat.pow_lt_pow_iff_right (by omega)).mp width

theorem writesize_pow : ∃ exponent, ld.writesize = 2 ^ exponent := by
  obtain ⟨flags, accepted⟩ := sound.accepted
  simp only [checkLowerMembers, Bool.and_eq_true, isPowerOf2_iff] at accepted
  exact accepted.1.1.1.1.1.2

theorem ratio_small : ld.effectiveMaxRatio < 15 := by
  obtain ⟨flags, accepted⟩ := sound.accepted
  simp only [checkLowerMembers, Bool.and_eq_true] at accepted
  exact of_decide_eq_true accepted.1.2

theorem erasesize_pos : 0 < ld.erasesize := by
  obtain ⟨exponent, _, power⟩ := sound.erasesize_pow
  rw [power]
  exact Nat.two_pow_pos exponent

theorem writesize_pos : 0 < ld.writesize := by
  obtain ⟨exponent, power⟩ := sound.writesize_pow
  rw [power]
  exact Nat.two_pow_pos exponent

theorem erasesize_shift : 2 ^ ld.erasesizeShift = ld.erasesize := by
  obtain ⟨exponent, small, power⟩ := sound.erasesize_pow
  simp [LowerDevice.erasesizeShift, power, ffs_two_pow small]

/-! ### Blocks of the chip -/

theorem size_eq : ld.size / ld.erasesize * ld.erasesize = ld.size := by
  obtain ⟨sizeExponent, sizePower⟩ := sound.size_pow
  obtain ⟨exponent, _, power⟩ := sound.erasesize_pow
  have le := sound.wholeBlocks
  rw [sizePower, power] at le ⊢
  exact Nat.div_mul_cancel (Nat.pow_dvd_pow 2 ((Nat.pow_le_pow_iff_right (by omega)).mp le))

theorem blocks_pos : 0 < ld.size / ld.erasesize :=
  Nat.div_pos sound.wholeBlocks sound.erasesize_pos

theorem mapping_width : 4 * (ld.size / ld.erasesize) + ld.writesize ≤ ld.tableBytes := by
  have mapping := le_ceilTo (4 * (ld.size / ld.erasesize)) sound.writesize_pos
  have header := unit_le_ceilTo (show 0 < tableBytes.infoTableHeaderSize by decide)
    sound.writesize_pos
  unfold LowerDevice.tableBytes
  omega

theorem blockCount_eq : ld.blockCount = ld.size / ld.erasesize := by
  have width := sound.tableWidth
  have mapping := sound.mapping_width
  unfold LowerDevice.blockCount u32
  rw [Nat.shiftRight_eq_div_pow, sound.erasesize_shift, Nat.mod_eq_of_lt (by omega)]

theorem blockCount_pos : 0 < ld.blockCount := by
  rw [sound.blockCount_eq]
  exact sound.blocks_pos

theorem blockCount_lt : ld.blockCount < 2 ^ 30 := by
  have width := sound.tableWidth
  have mapping := sound.mapping_width
  rw [sound.blockCount_eq]
  omega

theorem size_blocks : ld.size = ld.blockCount * ld.erasesize := by
  rw [sound.blockCount_eq, sound.size_eq]

theorem ba2addr_eq (ba : Nat) : ld.ba2addr ba = ba * ld.erasesize := by
  simp [LowerDevice.ba2addr, Nat.shiftLeft_eq, sound.erasesize_shift]

variable {addr ba : Nat}

theorem addr2ba_eq (within : addr / ld.erasesize < 2 ^ 32) :
    ld.addr2ba addr = addr / ld.erasesize := by
  unfold LowerDevice.addr2ba u32
  rw [Nat.shiftRight_eq_div_pow, sound.erasesize_shift, Nat.mod_eq_of_lt within]

theorem blockOf_ba2addr_add {offset : Nat} (small : offset < ld.erasesize) :
    ld.blockOf (ld.ba2addr ba + offset) = ba := by
  rw [sound.ba2addr_eq, LowerDevice.blockOf, Nat.mul_comm,
    Nat.mul_add_div sound.erasesize_pos, Nat.div_eq_of_lt small, Nat.add_zero]

theorem blockOf_ba2addr (ba : Nat) : ld.blockOf (ld.ba2addr ba) = ba := by
  rw [sound.ba2addr_eq, LowerDevice.blockOf, Nat.mul_div_cancel _ sound.erasesize_pos]

theorem blockOf_eq (low : ld.ba2addr ba ≤ addr) (high : addr < ld.ba2addr ba + ld.erasesize) :
    ld.blockOf addr = ba := by
  obtain ⟨offset, rfl⟩ := Nat.exists_eq_add_of_le low
  exact sound.blockOf_ba2addr_add (by omega)

theorem blockOf_lt (low : ¬addr ≥ ld.ba2addr ba) : ld.blockOf addr < ba := by
  rw [sound.ba2addr_eq, ge_iff_le, not_le] at low
  exact Nat.div_lt_of_lt_mul (Nat.mul_comm _ _ ▸ low)

theorem ba2addr_lt_size_iff {offset : Nat} (small : offset < ld.erasesize) :
    ld.ba2addr ba + offset < ld.size ↔ ba < ld.blockCount := by
  rw [sound.ba2addr_eq, sound.size_blocks]
  constructor
  · intro below
    by_contra high
    have scaled := Nat.mul_le_mul_right ld.erasesize (Nat.le_of_not_lt high)
    omega
  · intro below
    have scaled := Nat.mul_le_mul_right ld.erasesize (Nat.succ_le_of_lt below)
    rw [Nat.succ_mul] at scaled
    omega

/-! ### Pages of a block -/

theorem pages_mul : ld.pagesPerBlock * ld.writesize = ld.erasesize := by
  obtain ⟨pageExponent, pagePower⟩ := sound.writesize_pow
  obtain ⟨exponent, _, power⟩ := sound.erasesize_pow
  have le := sound.wholePages
  have divides : ld.writesize ∣ ld.erasesize := by
    rw [pagePower, power] at le ⊢
    exact Nat.pow_dvd_pow 2 ((Nat.pow_le_pow_iff_right (by omega)).mp le)
  obtain ⟨pages, total⟩ := divides
  have positive := sound.writesize_pos
  have count : (ld.erasesize + ld.writesize - 1) / ld.writesize = pages := by
    rw [total, Nat.add_sub_assoc positive, Nat.mul_add_div positive,
      Nat.div_eq_of_lt (by omega), Nat.add_zero]
  rw [LowerDevice.pagesPerBlock, count, total, Nat.mul_comm]

theorem pages_pos : 0 < ld.pagesPerBlock := by
  have total := sound.pages_mul
  have positive := sound.erasesize_pos
  by_contra none
  rw [Nat.eq_zero_of_not_pos none] at total
  omega

theorem pageOf_div (addr : Nat) : ld.pageOf addr / ld.pagesPerBlock = ld.blockOf addr := by
  rw [LowerDevice.pageOf, LowerDevice.blockOf, Nat.div_div_eq_div_mul, Nat.mul_comm,
    sound.pages_mul]

theorem blockOf_page (addr : Nat) : ld.blockOf (addr - addr % ld.writesize) = ld.blockOf addr := by
  have whole : addr - addr % ld.writesize = ld.writesize * (addr / ld.writesize) := by
    have split := Nat.div_add_mod addr ld.writesize
    omega
  rw [← sound.pageOf_div, ← sound.pageOf_div, whole, LowerDevice.pageOf,
    Nat.mul_div_cancel_left _ sound.writesize_pos, LowerDevice.pageOf]

theorem and_writesizeMask (addr : Nat) : addr &&& ld.writesizeMask = addr % ld.writesize := by
  obtain ⟨exponent, power⟩ := sound.writesize_pow
  rw [LowerDevice.writesizeMask, power, Nat.and_two_pow_sub_one_eq_mod]

theorem and_erasesizeMask (addr : Nat) : addr &&& ld.erasesizeMask = addr % ld.erasesize := by
  obtain ⟨exponent, _, power⟩ := sound.erasesize_pow
  rw [LowerDevice.erasesizeMask, power, Nat.and_two_pow_sub_one_eq_mod]

/-! ### The info table -/

theorem stateTableSize_eq : ld.stateTableSize = (ld.blockCount + 15) / 16 * 4 := by
  have blocks := sound.blockCount_lt
  simp only [LowerDevice.stateTableSize, NMBM_BITMAP_BLOCKS_PER_UNIT,
    NMBM_BITMAP_UNIT_SIZE, u32]
  omega

theorem stateUnits_eq : ld.stateUnits = (ld.blockCount + 15) / 16 := by
  rw [LowerDevice.stateUnits, sound.stateTableSize_eq]
  omega

theorem mappingTableSize_eq : ld.mappingTableSize = 4 * ld.blockCount := by
  have blocks := sound.blockCount_lt
  unfold LowerDevice.mappingTableSize u32
  omega

theorem mappingWords_eq : ld.mappingTableSize / 4 = ld.blockCount := by
  rw [sound.mappingTableSize_eq]
  omega

theorem table_layout :
    ld.stateTableOff = ceilTo LowerDevice.infoTableHeaderSize ld.writesize ∧
      ld.mappingTableOff = ld.stateTableOff + ceilTo ld.stateTableSize ld.writesize ∧
        ld.infoTableSize = ld.mappingTableOff + ceilTo ld.mappingTableSize ld.writesize ∧
          ld.infoTableSize < 2 ^ 32 := by
  have positive := sound.writesize_pos
  have blocks := sound.blockCount_pos
  have header := unit_le_ceilTo (show 0 < LowerDevice.infoTableHeaderSize by decide)
    positive
  have headerLow := le_ceilTo (LowerDevice.infoTableHeaderSize) positive
  have state := unit_le_ceilTo
    (show 0 < ld.stateTableSize by rw [sound.stateTableSize_eq]; omega) positive
  have stateLow := le_ceilTo (ld.stateTableSize) positive
  have mapping := unit_le_ceilTo
    (show 0 < ld.mappingTableSize by rw [sound.mappingTableSize_eq]; omega) positive
  have mappingLow := le_ceilTo (ld.mappingTableSize) positive
  have total : ceilTo LowerDevice.infoTableHeaderSize ld.writesize +
      ceilTo ld.stateTableSize ld.writesize + ceilTo ld.mappingTableSize ld.writesize
        < 2 ^ 32 := by
    have width := sound.tableWidth
    rw [LowerDevice.tableBytes, ← sound.blockCount_eq] at width
    rw [sound.stateTableSize_eq, sound.mappingTableSize_eq]
    exact width
  have stateOff : ld.stateTableOff = ceilTo LowerDevice.infoTableHeaderSize ld.writesize :=
    alignUp_eq (by omega)
  have mappingOff :
      ld.mappingTableOff = ld.stateTableOff + ceilTo ld.stateTableSize ld.writesize := by
    rw [LowerDevice.mappingTableOff, alignUp_eq (by omega), stateOff, u32,
      Nat.mod_eq_of_lt (by omega)]
  have size :
      ld.infoTableSize = ld.mappingTableOff + ceilTo ld.mappingTableSize ld.writesize := by
    rw [LowerDevice.infoTableSize, alignUp_eq (by omega), mappingOff, stateOff, u32,
      Nat.mod_eq_of_lt (by omega)]
  exact ⟨stateOff, mappingOff, size, by omega⟩

theorem headerSize_le_stateTableOff : 32 ≤ ld.stateTableOff := by
  rw [sound.table_layout.1]
  exact le_ceilTo _ sound.writesize_pos

theorem stateTable_within : ld.stateTableOff + ld.stateTableSize ≤ ld.mappingTableOff := by
  have low := le_ceilTo (ld.stateTableSize) sound.writesize_pos
  rw [sound.table_layout.2.1]
  omega

theorem mappingTable_within : ld.mappingTableOff + ld.mappingTableSize ≤ ld.infoTableSize := by
  have low := le_ceilTo (ld.mappingTableSize) sound.writesize_pos
  rw [sound.table_layout.2.2.1]
  omega

theorem infoTableSize_lt : ld.infoTableSize < 2 ^ 32 :=
  sound.table_layout.2.2.2

theorem infoTableSize_pos : 0 < ld.infoTableSize := by
  have header := sound.headerSize_le_stateTableOff
  have state := sound.stateTable_within
  have mapping := sound.mappingTable_within
  omega

theorem infoTableBlocks_spec :
    ld.infoTableSize ≤ ld.infoTableBlocks * ld.erasesize ∧
      ld.infoTableBlocks * ld.erasesize < ld.infoTableSize + ld.erasesize := by
  have positive := sound.erasesize_pos
  have width := sound.infoTableSize_lt
  have erasesizeWidth := sound.erasesizeWidth
  have blocks : ld.infoTableBlocks * ld.erasesize = ceilTo ld.infoTableSize ld.erasesize := by
    have bound : (ld.infoTableSize + ld.erasesize - 1) / ld.erasesize < 2 ^ 32 := by
      rw [Nat.div_lt_iff_lt_mul positive]
      calc
        ld.infoTableSize + ld.erasesize - 1 < 2 ^ 32 + (ld.erasesize - 1) := by omega
        _ ≤ 2 ^ 32 + 2 ^ 32 * (ld.erasesize - 1) := by omega
        _ = 2 ^ 32 * ld.erasesize := by
          obtain ⟨rest, eq⟩ := Nat.exists_eq_add_of_lt positive
          rw [eq]
          omega
    rw [LowerDevice.infoTableBlocks, LowerDevice.size2blk, u32,
      Nat.shiftRight_eq_div_pow, sound.erasesize_shift, Nat.mod_eq_of_lt bound, ceilTo]
  rw [blocks]
  exact ⟨le_ceilTo _ positive, ceilTo_lt _ positive⟩

theorem infoTableBlocks_pos : 0 < ld.infoTableBlocks := by
  have blocks := sound.infoTableBlocks_spec.1
  have size := sound.infoTableSize_pos
  by_contra none
  rw [Nat.eq_zero_of_not_pos none] at blocks
  omega

theorem mgmtStart_le : ld.mgmtStart ≤ ld.blockCount := by
  have blocks := sound.blockCount_lt
  have ratio : subU32 NMBM_MGMT_DIV ld.effectiveMaxRatio ≤ 16 := by
    have small := sound.ratio_small
    simp only [subU32, NMBM_MGMT_DIV]
    omega
  apply reserve_le (by omega)
  calc
    u32 (ld.blockCount * subU32 NMBM_MGMT_DIV ld.effectiveMaxRatio) / 16
        ≤ ld.blockCount * subU32 NMBM_MGMT_DIV ld.effectiveMaxRatio / 16 :=
      Nat.div_le_div_right (Nat.mod_le _ _)
    _ ≤ ld.blockCount * 16 / 16 := Nat.div_le_div_right (Nat.mul_le_mul_left _ ratio)
    _ = ld.blockCount := Nat.mul_div_cancel _ (by omega)

end LowerDevice.Sound

end MetaFilogic.Nmbm
