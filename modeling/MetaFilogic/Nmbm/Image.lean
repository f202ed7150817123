import MetaFilogic.Nmbm.Geometry
import Mathlib.Tactic.IntervalCases

/-!
# Info table images round trip

The buffer built by `nmbm_generate_info_table_cache` passes the loader's checks
of the header and of the checksum, and the write count, the block states and the
mapping read from it are the ones it was built from.
-/

namespace MetaFilogic

namespace Bytes

theorem get8_take {buffer : List Byte} {count index : Nat} (below : index < count) :
    get8 (buffer.take count) index = get8 buffer index := by
  simp [get8, List.getElem?_take_of_lt below]

theorem le32_append (high upper lower low : Byte) :
    le32 (high ++ upper ++ lower ++ low) = [low, lower, upper, high] := by
  simp only [le32, List.cons.injEq, and_true]
  refine ⟨?_, ?_, ?_, ?_⟩ <;>
  · apply BitVec.eq_of_getLsbD_eq
    intro index indexLt
    simp only [BitVec.getLsbD_extractLsb', BitVec.getLsbD_append, indexLt, decide_true,
      Bool.true_and]
    grind

theorem le32_get32 {buffer : List Byte} {off : Nat} (within : off + 4 ≤ buffer.length) :
    le32 (get32 buffer off) = (buffer.drop off).take 4 := by
  have read (index : Nat) (below : index < 4) :
      (buffer.drop off)[index]? = some (get8 buffer (off + index)) := by
    rw [List.getElem?_drop, get8, List.getD_eq_getElem?_getD,
      List.getElem?_eq_getElem (by omega)]
    simp
  rw [get32, le32_append]
  apply List.ext_getElem?
  intro index
  by_cases below : index < 4
  · rw [List.getElem?_take_of_lt below, read index below]
    interval_cases index <;> rfl
  · rw [List.getElem?_eq_none (by simp; omega), List.getElem?_eq_none (by simp; omega)]

end Bytes

namespace Nmbm

open Bytes Crc32

theorem Header.bytes_length (header : Header) : header.bytes.length = 16 :=
  rfl

theorem InfoTableHeader.bytes_length (table : InfoTableHeader) : table.bytes.length = 32 :=
  rfl

theorem Header.parse_bytes (header : Header) : Header.parse header.bytes = header := by
  have magic : get32 header.bytes 0 = header.magic := append_extractLsb _
  have version : get32 header.bytes 4 = header.version := append_extractLsb _
  have size : get32 header.bytes 8 = header.size := append_extractLsb _
  have checksum : get32 header.bytes 12 = header.checksum := append_extractLsb _
  simp only [Header.parse, magic, version, size, checksum]

theorem InfoTableHeader.parse_bytes (table : InfoTableHeader) :
    InfoTableHeader.parse table.bytes = table := by
  have magic : get32 table.bytes 0 = table.header.magic := append_extractLsb _
  have version : get32 table.bytes 4 = table.header.version := append_extractLsb _
  have size : get32 table.bytes 8 = table.header.size := append_extractLsb _
  have checksum : get32 table.bytes 12 = table.header.checksum := append_extractLsb _
  have writeCount : get32 table.bytes 16 = table.writeCount := append_extractLsb _
  have state : get32 table.bytes 20 = table.stateTableOff := append_extractLsb _
  have mapping : get32 table.bytes 24 = table.mappingTableOff := append_extractLsb _
  have padding : get32 table.bytes 28 = table.padding := append_extractLsb _
  simp only [InfoTableHeader.parse, Header.parse, magic, version, size, checksum, writeCount,
    state, mapping, padding]

theorem Header.bytes_parse {data : List Byte} (long : headerSize ≤ data.length) :
    (Header.parse data).bytes = data.take headerSize := by
  simp only [headerSize] at long ⊢
  simp only [Header.bytes, Header.parse]
  rw [le32_get32 (by omega), le32_get32 (by omega), le32_get32 (by omega),
    le32_get32 (by omega)]
  have join (from_ size : Nat) :
      data.take from_ ++ (data.drop from_).take size = data.take (from_ + size) :=
    (List.take_add).symm
  rw [List.drop_zero, join 4 4, join 8 4, join 12 4]

section Checksum

variable {data : List Byte}

theorem patch_checksum_length (bytes : List Byte) (long : headerSize ≤ data.length)
    (word : bytes.length = 4) : (patch data 12 bytes).length = data.length := by
  simp only [headerSize] at long
  exact patch_length (by omega)

theorem get32_patch_checksum {bytes : List Byte} {index : Nat} (long : headerSize ≤ data.length)
    (word : bytes.length = 4) (outside : index + 4 ≤ 12 ∨ headerSize ≤ index) :
    get32 (patch data 12 bytes) index = get32 data index := by
  simp only [headerSize] at long outside
  rcases outside with below | above
  · exact get32_patch_below (by omega) below
  · exact get32_patch_above (by omega) (by omega)

theorem updateChecksum_length (long : headerSize ≤ data.length) :
    (updateChecksum data).length = data.length := by
  have cleared := patch_checksum_length (le32 0) long rfl
  unfold updateChecksum
  rw [patch_checksum_length _ (by omega) rfl, cleared]

theorem get32_updateChecksum {index : Nat} (long : headerSize ≤ data.length)
    (outside : index + 4 ≤ 12 ∨ headerSize ≤ index) :
    get32 (updateChecksum data) index = get32 data index := by
  have cleared := patch_checksum_length (le32 0) long rfl
  unfold updateChecksum
  rw [get32_patch_checksum (by omega) rfl outside, get32_patch_checksum long rfl outside]

theorem patch_patch_same {bytes other : List Byte} {off : Nat}
    (within : off + other.length ≤ data.length) (same : bytes.length = other.length) :
    patch (patch data off other) off bytes = patch data off bytes := by
  have front : (data.take off).length = off := by simp; omega
  unfold patch
  rw [List.append_assoc, List.append_assoc, List.take_append_of_le_length (by omega),
    List.take_of_length_le (by omega), List.drop_append, List.drop_of_length_le (by omega)]
  simp [front, same]

theorem drop_patch (bytes : List Byte) {off : Nat} (within : off ≤ data.length) :
    (patch data off bytes).drop (off + bytes.length) = data.drop (off + bytes.length) := by
  have front : (data.take off ++ bytes).length = off + bytes.length := by simp; omega
  rw [patch, List.drop_append, List.drop_of_length_le (by omega), front]
  simp

theorem updateChecksum_eq (long : headerSize ≤ data.length)
    (exact : (Header.parse data).size.toNat = data.length) :
    updateChecksum data =
      patch data 12 (le32 (nmbmCrc32 0 (patch data 12 (le32 0)))) := by
  have clearedLength := patch_checksum_length (le32 0) long rfl
  have clearedSize : (Header.parse (patch data 12 (le32 0))).size = (Header.parse data).size :=
    get32_patch_checksum long rfl (Or.inl (by omega))
  simp only [headerSize] at long
  have whole : (patch data 12 (le32 0)).take (Header.parse (patch data 12 (le32 0))).size.toNat =
      patch data 12 (le32 0) := by
    rw [clearedSize, exact, ← clearedLength, List.take_length]
  simp only [updateChecksum, whole]
  exact patch_patch_same (by rw [le32_length]; omega) rfl

/-- The checksum that `nmbm_check_header` computes in two parts. -/
theorem nmbmCrc32_parts {data : List Byte} (long : headerSize ≤ data.length) :
    (if data.length > headerSize then
        nmbmCrc32 (nmbmCrc32 0 (Header.parse data).bytes)
          ((data.drop headerSize).take (data.length - headerSize))
      else nmbmCrc32 0 (Header.parse data).bytes) = nmbmCrc32 0 data := by
  have rest : (data.drop headerSize).take (data.length - headerSize) = data.drop headerSize :=
    List.take_of_length_le (by rw [List.length_drop])
  rw [Header.bytes_parse long, rest]
  split
  · rw [nmbmCrc32, nmbmCrc32, ← crc32Le_append, List.take_append_drop, nmbmCrc32]
  · rw [List.take_of_length_le (by omega)]

theorem checkHeader_updateChecksum (long : headerSize ≤ data.length)
    (exact : (Header.parse data).size.toNat = data.length) :
    checkHeader (updateChecksum data) data.length = true := by
  have within : 16 ≤ data.length := long
  have clearedLength := patch_checksum_length (le32 0) long rfl
  have crcParts := nmbmCrc32_parts (clearedLength.symm ▸ long)
  rw [clearedLength] at crcParts
  have size : (Header.parse (updateChecksum data)).size = (Header.parse data).size :=
    get32_updateChecksum long (Or.inl (by omega))
  -- With the checksum field cleared again the buffer is the one the CRC was taken of
  have magic : (Header.parse (updateChecksum data)).magic =
      (Header.parse (patch data 12 (le32 0))).magic :=
    (get32_updateChecksum long (Or.inl (by omega))).trans
      (get32_patch_checksum long rfl (Or.inl (by omega))).symm
  have version : (Header.parse (updateChecksum data)).version =
      (Header.parse (patch data 12 (le32 0))).version :=
    (get32_updateChecksum long (Or.inl (by omega))).trans
      (get32_patch_checksum long rfl (Or.inl (by omega))).symm
  have clearedSize : (Header.parse (patch data 12 (le32 0))).size = (Header.parse data).size :=
    get32_patch_checksum long rfl (Or.inl (by omega))
  have cleared : (Header.parse (patch data 12 (le32 0))).checksum = 0 :=
    (get32_patch_inside (by omega) (by omega) (by simp)).trans (by decide)
  have header : (⟨(Header.parse (updateChecksum data)).magic,
      (Header.parse (updateChecksum data)).version,
      (Header.parse (updateChecksum data)).size, 0⟩ : Header) =
        Header.parse (patch data 12 (le32 0)) := by
    rw [magic, version, size, ← clearedSize]
    exact congrArg (Header.mk _ _ _) cleared.symm
  have rest : (updateChecksum data).drop headerSize =
      (patch data 12 (le32 0)).drop headerSize := by
    rw [updateChecksum_eq long exact]
    have skip (word : BitVec 32) :
        (patch data 12 (le32 word)).drop headerSize = data.drop headerSize :=
      drop_patch (le32 word) (show 12 ≤ data.length by omega)
    rw [skip, skip]
  have checksum : (Header.parse (updateChecksum data)).checksum =
      nmbmCrc32 0 (patch data 12 (le32 0)) := by
    rw [updateChecksum_eq long exact]
    refine (get32_patch_inside (by omega) (by omega) (by simp)).trans ?_
    exact append_extractLsb _
  simp only [checkHeader]
  rw [header, rest, checksum, size, exact, crcParts, if_neg (by omega), beq_self_eq_true]

end Checksum

/-! ## Images -/

/-- The offsets in an info table header are the ones computed by
`nmbm_init_structure`. -/
def InfoTableHeader.Placed (ld : LowerDevice) (table : InfoTableHeader) : Prop :=
  table.stateTableOff = BitVec.ofNat 32 ld.stateTableOff ∧
    table.mappingTableOff = BitVec.ofNat 32 ld.mappingTableOff

section Image

variable {ld : LowerDevice} (sound : ld.Sound)

include sound

theorem toNat_stateTableOff : (BitVec.ofNat 32 ld.stateTableOff).toNat = ld.stateTableOff := by
  have state := sound.stateTable_within
  have mapping := sound.mappingTable_within
  have width := sound.infoTableSize_lt
  rw [BitVec.toNat_ofNat, Nat.mod_eq_of_lt (by omega)]

theorem toNat_mappingTableOff :
    (BitVec.ofNat 32 ld.mappingTableOff).toNat = ld.mappingTableOff := by
  have mapping := sound.mappingTable_within
  have width := sound.infoTableSize_lt
  rw [BitVec.toNat_ofNat, Nat.mod_eq_of_lt (by omega)]

theorem toNat_infoTableSize : (BitVec.ofNat 32 ld.infoTableSize).toNat = ld.infoTableSize := by
  rw [BitVec.toNat_ofNat, Nat.mod_eq_of_lt sound.infoTableSize_lt]

variable {table : InfoTableHeader}

theorem infoTableImage_spec (blockState blockMapping : Nat → BitVec 32) (placed : table.Placed ld) :
    ∃ data, infoTableImage ld table blockState blockMapping = updateChecksum data ∧
      data.length = ld.infoTableSize ∧
      (∀ index, index + 4 ≤ 32 → get32 data index = get32 table.bytes index) ∧
      (∀ unit, unit < ld.stateUnits →
        get32 data (ld.stateTableOff + 4 * unit) = blockState unit) ∧
      ∀ lb, lb < ld.blockCount →
        get32 data (ld.mappingTableOff + 4 * lb) = blockMapping lb := by
  have header := sound.headerSize_le_stateTableOff
  have state := sound.stateTable_within
  have mapping := sound.mappingTable_within
  have units : 4 * ld.stateUnits = ld.stateTableSize := by
    rw [sound.stateUnits_eq, sound.stateTableSize_eq, Nat.mul_comm]
  have entries := sound.mappingTableSize_eq
  have emptyLength : (fill ld.infoTableSize 0xff).length = ld.infoTableSize := by simp
  have statesLength : (patch (fill ld.infoTableSize 0xff) ld.stateTableOff
      (words blockState ld.stateUnits)).length = ld.infoTableSize := by
    rw [patch_length (by simp; omega), emptyLength]
  have mappingsLength : (patch (patch (fill ld.infoTableSize 0xff) ld.stateTableOff
      (words blockState ld.stateUnits)) ld.mappingTableOff
        (words blockMapping ld.blockCount)).length = ld.infoTableSize := by
    rw [patch_length (by rw [statesLength]; simp; omega), statesLength]
  refine ⟨patch (patch (patch (fill ld.infoTableSize 0xff) ld.stateTableOff
    (words blockState ld.stateUnits)) ld.mappingTableOff
      (words blockMapping ld.blockCount)) 0 table.bytes, ?_, ?_, ?_, ?_, ?_⟩
  · rw [infoTableImage, placed.1, placed.2, toNat_stateTableOff sound,
      toNat_mappingTableOff sound, sound.mappingWords_eq]
  · rw [patch_length (by rw [mappingsLength, InfoTableHeader.bytes_length]; omega),
      mappingsLength]
  · intro index inside
    rw [get32_patch_inside (by omega) (by omega)
      (by rw [InfoTableHeader.bytes_length]; omega), Nat.sub_zero]
  · intro unit below
    rw [get32_patch_above (by omega) (by rw [InfoTableHeader.bytes_length]; omega),
      get32_patch_below (by rw [statesLength]; omega) (by omega),
      get32_patch_inside (by rw [emptyLength]; omega) (by omega) (by simp; omega),
      Nat.add_sub_cancel_left, get32_words below]
  · intro lb below
    rw [get32_patch_above (by omega) (by rw [InfoTableHeader.bytes_length]; omega),
      get32_patch_inside (by rw [statesLength]; omega) (by omega) (by simp; omega),
      Nat.add_sub_cancel_left, get32_words below]

theorem parse_infoTableImage (blockState blockMapping : Nat → BitVec 32)
    (placed : table.Placed ld) :
    ∃ checksum, InfoTableHeader.parse (infoTableImage ld table blockState blockMapping) =
      { table with header := { table.header with checksum } } := by
  obtain ⟨data, built, length, header, _, _⟩ :=
    infoTableImage_spec sound blockState blockMapping placed
  have long : headerSize ≤ data.length := by
    have low := sound.headerSize_le_stateTableOff
    have state := sound.stateTable_within
    have mapping := sound.mappingTable_within
    simp only [headerSize]
    omega
  have word (index : Nat) (inside : index + 4 ≤ 32)
      (outside : index + 4 ≤ 12 ∨ headerSize ≤ index) :
      get32 (updateChecksum data) index = get32 table.bytes index :=
    (get32_updateChecksum long outside).trans (header index inside)
  have parsed := InfoTableHeader.parse_bytes table
  simp only [InfoTableHeader.parse, Header.parse] at parsed
  refine ⟨get32 (updateChecksum data) 12, ?_⟩
  rw [built, InfoTableHeader.parse, Header.parse, word 0 (by omega) (by simp),
    word 4 (by omega) (by simp), word 8 (by omega) (by simp),
    word 16 (by omega) (by simp [headerSize]), word 20 (by omega) (by simp [headerSize]),
    word 24 (by omega) (by simp [headerSize]), word 28 (by omega) (by simp [headerSize])]
  conv_rhs => rw [← parsed]

theorem imageWriteCount_infoTableImage (blockState blockMapping : Nat → BitVec 32)
    (placed : table.Placed ld) :
    imageWriteCount (infoTableImage ld table blockState blockMapping) = table.writeCount := by
  obtain ⟨checksum, parsed⟩ := parse_infoTableImage sound blockState blockMapping placed
  rw [imageWriteCount, parsed]

theorem placed_infoTableImage (blockState blockMapping : Nat → BitVec 32)
    (placed : table.Placed ld) :
    (InfoTableHeader.parse (infoTableImage ld table blockState blockMapping)).Placed ld := by
  obtain ⟨checksum, parsed⟩ := parse_infoTableImage sound blockState blockMapping placed
  rw [parsed]
  exact placed

theorem imageState_infoTableImage (blockState blockMapping : Nat → BitVec 32)
    (placed : table.Placed ld) {unit : Nat} (below : unit < ld.stateUnits) :
    imageState (infoTableImage ld table blockState blockMapping) unit = blockState unit := by
  have off := (placed_infoTableImage sound blockState blockMapping placed).1
  obtain ⟨data, built, length, _, states, _⟩ :=
    infoTableImage_spec sound blockState blockMapping placed
  have header := sound.headerSize_le_stateTableOff
  have state := sound.stateTable_within
  have mapping := sound.mappingTable_within
  rw [imageState, off, toNat_stateTableOff sound, built,
    get32_updateChecksum (by simp only [headerSize]; omega)
      (Or.inr (by simp only [headerSize]; omega)), states unit below]

theorem imageMapping_infoTableImage (blockState blockMapping : Nat → BitVec 32)
    (placed : table.Placed ld) {lb : Nat} (below : lb < ld.blockCount) :
    imageMapping (infoTableImage ld table blockState blockMapping) lb = blockMapping lb := by
  have off := (placed_infoTableImage sound blockState blockMapping placed).2
  obtain ⟨data, built, length, _, _, entries⟩ :=
    infoTableImage_spec sound blockState blockMapping placed
  have header := sound.headerSize_le_stateTableOff
  have state := sound.stateTable_within
  have mapping := sound.mappingTable_within
  rw [imageMapping, off, toNat_mappingTableOff sound, built,
    get32_updateChecksum (by simp only [headerSize]; omega)
      (Or.inr (by simp only [headerSize]; omega)), entries lb below]

theorem validTable_infoTableImage (blockState blockMapping : Nat → BitVec 32)
    (placed : table.Placed ld) (magic : table.header.magic = NMBM_MAGIC_INFO_TABLE)
    (size : table.header.size = BitVec.ofNat 32 ld.infoTableSize) :
    ValidTable ld (infoTableImage ld table blockState blockMapping) := by
  obtain ⟨data, built, length, header, _, _⟩ :=
    infoTableImage_spec sound blockState blockMapping placed
  obtain ⟨checksum, parsed⟩ := parse_infoTableImage sound blockState blockMapping placed
  have low := sound.headerSize_le_stateTableOff
  have state := sound.stateTable_within
  have mapping := sound.mappingTable_within
  have width := sound.infoTableSize_lt
  have long : headerSize ≤ data.length := by
    simp only [headerSize]
    omega
  refine ⟨?_, ?_, ?_⟩
  · rw [built, updateChecksum_length long, length]
  · have gap : (BitVec.ofNat 32 ld.mappingTableOff - BitVec.ofNat 32 ld.stateTableOff).toNat =
        ld.mappingTableOff - ld.stateTableOff := by
      rw [BitVec.toNat_sub, toNat_stateTableOff sound, toNat_mappingTableOff sound]
      omega
    have rest : subU32 ld.infoTableSize ld.mappingTableOff =
        ld.infoTableSize - ld.mappingTableOff := by
      simp only [subU32]
      omega
    rw [checkInfoTableHeader, parsed]
    simp only [magic, size, placed.1, placed.2, toNat_infoTableSize sound,
      toNat_mappingTableOff sound, gap, rest]
    rw [if_neg (by simp), if_neg (by simp), if_neg (by omega), if_neg (by omega)]
  · have sizeField : (Header.parse data).size = table.header.size :=
      (header 8 (by omega)).trans (append_extractLsb _)
    rw [built, ← length]
    apply checkHeader_updateChecksum long
    rw [sizeField, size, toNat_infoTableSize sound, length]

end Image

end Nmbm

end MetaFilogic
