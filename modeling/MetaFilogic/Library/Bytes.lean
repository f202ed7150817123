import Mathlib.Data.List.Basic
import Mathlib.Data.Nat.Bitwise

/-!
# Byte buffers

Flash structures are C structs laid over byte arrays.  This file has the few
operations such code performs on a buffer (overwriting a range, filling,
reading and writing little-endian words) and the lemmas that say when a word
written at one offset is read back at another.
-/

namespace MetaFilogic

abbrev Byte := BitVec 8

namespace Bytes

def le32 (word : BitVec 32) : List Byte :=
  [word.extractLsb' 0 8, word.extractLsb' 8 8,
    word.extractLsb' 16 8, word.extractLsb' 24 8]

def le64 (word : BitVec 64) : List Byte :=
  le32 (word.extractLsb' 0 32) ++ le32 (word.extractLsb' 32 32)

def get8 (buffer : List Byte) (off : Nat) : Byte :=
  buffer.getD off 0

def get32 (buffer : List Byte) (off : Nat) : BitVec 32 :=
  get8 buffer (off + 3) ++ get8 buffer (off + 2) ++
    get8 buffer (off + 1) ++ get8 buffer off

def get64 (buffer : List Byte) (off : Nat) : BitVec 64 :=
  get32 buffer (off + 4) ++ get32 buffer off

/-- `memcpy(buffer + off, bytes, bytes.length)`. -/
def patch (buffer : List Byte) (off : Nat) (bytes : List Byte) : List Byte :=
  buffer.take off ++ bytes ++ buffer.drop (off + bytes.length)

/-- `memset(_, value, count)` as the bytes it leaves behind. -/
def fill (count : Nat) (value : Byte) : List Byte :=
  List.replicate count value

/-- The bytes of the first `count` words of a word array. -/
def words (table : Nat → BitVec 32) (count : Nat) : List Byte :=
  (List.range count).flatMap fun index => le32 (table index)

@[simp]
theorem le32_length (word : BitVec 32) : (le32 word).length = 4 :=
  rfl

@[simp]
theorem le64_length (word : BitVec 64) : (le64 word).length = 8 :=
  rfl

@[simp]
theorem fill_length (count : Nat) (value : Byte) : (fill count value).length = count := by
  simp [fill]

@[simp]
theorem words_length (table : Nat → BitVec 32) (count : Nat) :
    (words table count).length = 4 * count := by
  induction count with
  | zero => rfl
  | succ count ih =>
    simp only [words, List.range_succ, List.flatMap_append] at ih ⊢
    simp [ih]
    omega

variable {buffer bytes : List Byte} {off index : Nat}

theorem patch_length (within : off + bytes.length ≤ buffer.length) :
    (patch buffer off bytes).length = buffer.length := by
  simp [patch]
  omega

theorem get8_patch_inside (within : off ≤ buffer.length) (lower : off ≤ index)
    (upper : index < off + bytes.length) :
    get8 (patch buffer off bytes) index = get8 bytes (index - off) := by
  have takeLength : (buffer.take off).length = off := by simp; omega
  simp only [get8, patch, List.getD_eq_getElem?_getD, List.append_assoc]
  rw [List.getElem?_append_right (by omega), takeLength,
    List.getElem?_append_left (by omega)]

theorem get8_patch_below (within : off ≤ buffer.length) (below : index < off) :
    get8 (patch buffer off bytes) index = get8 buffer index := by
  simp only [get8, patch, List.getD_eq_getElem?_getD, List.append_assoc]
  rw [List.getElem?_append_left (by simp; omega), List.getElem?_take_of_lt below]

theorem get8_patch_above (within : off ≤ buffer.length) (above : off + bytes.length ≤ index) :
    get8 (patch buffer off bytes) index = get8 buffer index := by
  have takeLength : (buffer.take off).length = off := by simp; omega
  simp only [get8, patch, List.getD_eq_getElem?_getD, List.append_assoc]
  rw [List.getElem?_append_right (by omega), takeLength,
    List.getElem?_append_right (by omega), List.getElem?_drop]
  congr 2
  omega

theorem get32_patch_inside (within : off ≤ buffer.length) (lower : off ≤ index)
    (upper : index + 4 ≤ off + bytes.length) :
    get32 (patch buffer off bytes) index = get32 bytes (index - off) := by
  unfold get32
  rw [get8_patch_inside within (by omega) (by omega),
    get8_patch_inside within (by omega) (by omega),
    get8_patch_inside within (by omega) (by omega),
    get8_patch_inside within (by omega) (by omega),
    Nat.sub_add_comm lower, Nat.sub_add_comm lower, Nat.sub_add_comm lower]

theorem get32_patch_below (within : off ≤ buffer.length) (below : index + 4 ≤ off) :
    get32 (patch buffer off bytes) index = get32 buffer index := by
  unfold get32
  rw [get8_patch_below within (by omega), get8_patch_below within (by omega),
    get8_patch_below within (by omega), get8_patch_below within (by omega)]

theorem get32_patch_above (within : off ≤ buffer.length) (above : off + bytes.length ≤ index) :
    get32 (patch buffer off bytes) index = get32 buffer index := by
  unfold get32
  rw [get8_patch_above within (by omega), get8_patch_above within (by omega),
    get8_patch_above within (by omega), get8_patch_above within (by omega)]

theorem append_extractLsb (word : BitVec 32) :
    word.extractLsb' 24 8 ++ word.extractLsb' 16 8 ++
      word.extractLsb' 8 8 ++ word.extractLsb' 0 8 = word := by
  apply BitVec.eq_of_getLsbD_eq
  intro index indexLt
  simp only [BitVec.getLsbD_append, BitVec.getLsbD_extractLsb']
  split
  · simp_all
  · split
    · simp_all only [decide_true, Bool.true_and]
      congr 1
      omega
    · split
      · simp_all only [decide_true, Bool.true_and]
        congr 1
        omega
      · have low : index - 8 - 8 - 8 < 8 := by omega
        simp only [low, decide_true, Bool.true_and]
        congr 1
        omega

theorem get32_le32_append (word : BitVec 32) (rest : List Byte) :
    get32 (le32 word ++ rest) 0 = word := by
  exact append_extractLsb word

theorem get32_append_right (front back : List Byte) (off : Nat) :
    get32 (front ++ back) (front.length + off) = get32 back off := by
  have shifted (index : Nat) :
      get8 (front ++ back) (front.length + index) = get8 back index := by
    simp only [get8, List.getD_eq_getElem?_getD]
    rw [List.getElem?_append_right (by omega), Nat.add_sub_cancel_left]
  simp only [get32, Nat.add_assoc, shifted]

theorem get32_words {table : Nat → BitVec 32} {count : Nat} (indexLt : index < count) :
    get32 (words table count) (4 * index) = table index := by
  have split : words table count =
      words table index ++
        (le32 (table index) ++
          ((List.range (count - index - 1)).flatMap fun step =>
            le32 (table (index + 1 + step)))) := by
    have parts : List.range count =
        List.range index ++ index ::
          (List.range (count - index - 1)).map (index + 1 + ·) := by
      obtain ⟨rest, rfl⟩ : ∃ rest, count = index + 1 + rest :=
        ⟨count - index - 1, by omega⟩
      have remaining : index + 1 + rest - index - 1 = rest := by omega
      rw [List.range_add, List.range_succ, remaining]
      simp
    simp only [words, parts, List.flatMap_append, List.flatMap_cons, List.flatMap_map]
  have front : (words table index).length + 0 = 4 * index := by simp
  rw [split, ← front, get32_append_right, get32_le32_append]

end Bytes

end MetaFilogic
