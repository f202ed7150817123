import MetaFilogic.Library.BitMemory
import MetaFilogic.Snand.Layout
import MetaFilogic.Snand.Page

/-!
# Empty sectors with bit flips

A sector that the ECC engine cannot correct may be an erased one in which some bits have flipped to
zero.  `mtk_ecc_fixup_empty_sector` counts the zero bits of what the engine protects and, when they
are few enough to be flips, sets them.
-/

namespace MetaFilogic.Snand

open Memory BitMemory

/-! ## Counting -/

/-- How far a scan of a buffer has come: the bytes left, the offset of the next one, and the zero
bits so far. -/
structure Scan where
  len : Nat
  pos : Nat
  bitflips : Nat

section Loops

variable (snf : MtkSnand) (mem : Bytes)

/-- The loop of `mtk_ecc_check_buf_bitflips` up to a word boundary, for a memory that starts at the
address `base`. -/
def headLoop (base : Nat) : (len pos bitflips : Nat) → Option Scan
  | 0, pos, bitflips => some ⟨0, pos, bitflips⟩
  | len + 1, pos, bitflips =>
    if (base + pos) % 4 = 0 then some ⟨len + 1, pos, bitflips⟩
    else
      let bitflips := u32 (bitflips + (8 - hweight (mem pos)))
      if snf.eccStrength < bitflips then none else headLoop base len (pos + 1) bitflips

/-- The loop of `mtk_ecc_check_buf_bitflips` over the words. -/
def wordLoop : (len pos bitflips : Nat) → Option Scan
  | len + 4, pos, bitflips =>
    let d := load32 mem pos
    let bitflips :=
      if d ≠ BitVec.allOnes 32 then u32 (bitflips + (32 - hweight d)) else bitflips
    if snf.eccStrength < bitflips then none else wordLoop len (pos + 4) bitflips
  | len, pos, bitflips => some ⟨len, pos, bitflips⟩

/-- The loop of `mtk_ecc_check_buf_bitflips` over the bytes after the last word. -/
def tailLoop : (len pos bitflips : Nat) → Option Scan
  | 0, pos, bitflips => some ⟨0, pos, bitflips⟩
  | len + 1, pos, bitflips =>
    let bitflips := u32 (bitflips + (8 - hweight (mem pos)))
    if snf.eccStrength < bitflips then none else tailLoop len (pos + 1) bitflips

def mtkEccCheckBufBitflips (base pos len bitflips : Nat) : CInt :=
  match headLoop snf mem base len pos bitflips with
  | none => errno EBADMSG
  | some head =>
    match wordLoop snf mem head.len head.pos head.bitflips with
    | none => errno EBADMSG
    | some words =>
      match tailLoop snf mem words.len words.pos words.bitflips with
      | none => errno EBADMSG
      | some tail => BitVec.ofNat 32 tail.bitflips

/-- The loop of `mtk_ecc_check_parity_bitflips` over the low bits of a byte. -/
def countLow (b : Byte) (bitflips : Nat) : (bits : Nat) → Nat
  | 0 => bitflips
  | i + 1 => if b.getLsbD i then countLow b bitflips i else u32 (countLow b bitflips i + 1)

def mtkEccCheckParityBitflips (base pos bits bitflips : Nat) : CInt :=
  let len := bits >>> 3
  let bits := bits &&& 7
  let rc := mtkEccCheckBufBitflips snf mem base pos len bitflips
  if bits = 0 ∨ rc.msb then rc
  else
    let bitflips := countLow (mem (pos + len)) rc.toNat bits
    if snf.eccStrength < bitflips then errno EBADMSG else BitVec.ofNat 32 bitflips

def mtkEccResetParity (pos bits : Nat) : Bytes :=
  let len := bits >>> 3
  let bits := bits &&& 7
  let mem := fill mem pos 0xff len
  if bits = 0 then mem else setLow mem (pos + len) bits

end Loops

section Sector

variable (snf : MtkSnand) (sect : Nat)

/-- The offset of `data_ptr` in the page cache. -/
def dataPos : Nat := u32 (sect * snf.nfiSoc.sectorSize)

/-- The offset of `fdm_ptr`. -/
def fdmPos : Nat := snf.writesize + u32 (sect * snf.nfiSoc.fdmSize)

/-- The offset of `ecc_ptr`. -/
def eccPos : Nat :=
  snf.writesize + u32 (snf.eccSteps * snf.nfiSoc.fdmSize) + u32 (sect * eccBytesOf snf)

/-- `mtk_ecc_fixup_empty_sector(snf, sect)` on the page cache at the address `base`. -/
def mtkEccFixupEmptySector (base : Nat) (cache : Bytes) : CInt × Bytes :=
  let parityBits := fls (snf.nfiSoc.sectorSize * 8)
  let eccBits := u32 (snf.eccStrength * parityBits)
  let bitflips :=
    mtkEccCheckBufBitflips snf cache base (dataPos snf sect) snf.nfiSoc.sectorSize 0
  if bitflips.msb then (errno EBADMSG, cache)
  else
    let bitflips := mtkEccCheckBufBitflips snf cache base (fdmPos snf sect) snf.nfiSoc.fdmEccSize
      bitflips.toNat
    if bitflips.msb then (errno EBADMSG, cache)
    else
      let bitflips := mtkEccCheckParityBitflips snf cache base (eccPos snf sect) eccBits
        bitflips.toNat
      if bitflips.msb then (errno EBADMSG, cache)
      else if bitflips = 0 then (0, cache)
      else
        let cache := fill cache (dataPos snf sect) 0xff snf.nfiSoc.sectorSize
        let cache := fill cache (fdmPos snf sect) 0xff snf.nfiSoc.fdmEccSize
        (bitflips, mtkEccResetParity cache (eccPos snf sect) eccBits)

/-! ## What is protected -/

def sectorParityBits : Nat := snf.eccStrength * fls (snf.nfiSoc.sectorSize * 8)

/-- A bit of the page cache that the ECC engine protects in a sector: one of its data, of the
protected bytes of its FDM, or of its parity. -/
def Protected (i : Nat) : Prop :=
  Within (8 * dataPos snf sect) (8 * snf.nfiSoc.sectorSize) i ∨
    Within (8 * fdmPos snf sect) (8 * snf.nfiSoc.fdmEccSize) i ∨
      Within (8 * eccPos snf sect) (sectorParityBits snf) i

def sectorZeros (cache : Bytes) : Nat :=
  zeroBits cache (8 * dataPos snf sect) (8 * snf.nfiSoc.sectorSize) +
    zeroBits cache (8 * fdmPos snf sect) (8 * snf.nfiSoc.fdmEccSize) +
    zeroBits cache (8 * eccPos snf sect) (sectorParityBits snf)

theorem fls_sector_le (soc : Soc) : fls ((mtkSnandSocs soc).sectorSize * 8) ≤ 14 := by
  cases soc <;> decide

end Sector

/-! ## The count is exact -/

section Exact

variable {snf : MtkSnand} {mem : Bytes} {base len pos bitflips bits : Nat}

def Scan.total (mem : Bytes) (scan : Scan) : Nat :=
  scan.bitflips + zeroBits mem (8 * scan.pos) (8 * scan.len)

def Counts (snf : MtkSnand) (mem : Bytes) (total : Nat) : Option Scan → Prop
  | none => snf.eccStrength < total
  | some scan => scan.bitflips ≤ snf.eccStrength ∧ scan.total mem = total

theorem tailLoop_len {scan : Scan} (ends : tailLoop snf mem len pos bitflips = some scan) :
    scan.len = 0 := by
  induction len generalizing pos bitflips with
  | zero =>
    cases ends
    rfl
  | succ len ih =>
    rw [tailLoop] at ends
    split at ends
    · cases ends
    · exact ih ends

variable (small : snf.eccStrength ≤ 24)
include small

/-- A step of `bytes` bytes adds their zero bits. -/
theorem step_total (few : bitflips ≤ snf.eccStrength) {bytes rest : Nat} (short : bytes ≤ 4) :
    u32 (bitflips + zeroBits mem (8 * pos) (8 * bytes)) =
        bitflips + zeroBits mem (8 * pos) (8 * bytes) ∧
      Scan.total mem ⟨rest, pos + bytes, bitflips + zeroBits mem (8 * pos) (8 * bytes)⟩ =
        Scan.total mem ⟨rest + bytes, pos, bitflips⟩ := by
  have le : zeroBits mem (8 * pos) (8 * bytes) ≤ 8 * bytes := zeroBits_le
  refine ⟨u32_of_lt (by omega), ?_⟩
  unfold Scan.total
  dsimp only
  rw [show 8 * (rest + bytes) = 8 * bytes + 8 * rest by omega, zeroBits_add, Nat.mul_add,
    Nat.add_assoc]

theorem headLoop_counts (few : bitflips ≤ snf.eccStrength) :
    Counts snf mem (Scan.total mem ⟨len, pos, bitflips⟩)
      (headLoop snf mem base len pos bitflips) := by
  induction len generalizing pos bitflips with
  | zero => exact ⟨few, rfl⟩
  | succ len ih =>
    rw [headLoop]
    by_cases aligned : (base + pos) % 4 = 0
    · rw [if_pos aligned]
      exact ⟨few, rfl⟩
    · obtain ⟨exact, total⟩ := @step_total snf mem pos bitflips small few 1 len (by decide)
      rw [if_neg aligned, ← zeroBits_byte, exact, ← total]
      by_cases many : snf.eccStrength < bitflips + zeroBits mem (8 * pos) 8
      · rw [if_pos many]
        exact Nat.lt_of_lt_of_le many (Nat.le_add_right _ _)
      · rw [if_neg many]
        exact ih (Nat.le_of_not_lt many)

theorem word_flips (few : bitflips ≤ snf.eccStrength) :
    (if load32 mem pos ≠ BitVec.allOnes 32 then
        u32 (bitflips + (32 - hweight (load32 mem pos))) else bitflips) =
      u32 (bitflips + zeroBits mem (8 * pos) 32) := by
  rw [zeroBits_word]
  by_cases ones : load32 mem pos = BitVec.allOnes 32
  · rw [if_neg (not_not.mpr ones), ones, hweight_allOnes]
    exact (u32_of_lt (by omega)).symm
  · rw [if_pos ones]

theorem wordLoop_counts (few : bitflips ≤ snf.eccStrength) :
    Counts snf mem (Scan.total mem ⟨len, pos, bitflips⟩) (wordLoop snf mem len pos bitflips) := by
  induction len, pos, bitflips using wordLoop.induct snf mem with
  | case1 len pos bitflips d flips many =>
    obtain ⟨exact, total⟩ := @step_total snf mem pos bitflips small few 4 len (by decide)
    have flipsEq : flips = bitflips + zeroBits mem (8 * pos) 32 :=
      (word_flips small few).trans exact
    rw [wordLoop, if_pos many, ← total]
    exact Nat.lt_of_lt_of_le (flipsEq ▸ many) (Nat.le_add_right _ _)
  | case2 len pos bitflips d flips many ih =>
    obtain ⟨exact, total⟩ := @step_total snf mem pos bitflips small few 4 len (by decide)
    have flipsEq : flips = bitflips + zeroBits mem (8 * pos) 32 :=
      (word_flips small few).trans exact
    rw [wordLoop, if_neg many, ← total]
    have counts := ih (Nat.le_of_not_lt many)
    rw [flipsEq] at counts
    exact flipsEq ▸ counts
  | case3 len pos bitflips short =>
    rw [wordLoop]
    · exact ⟨few, rfl⟩
    · exact short

theorem tailLoop_counts (few : bitflips ≤ snf.eccStrength) :
    Counts snf mem (Scan.total mem ⟨len, pos, bitflips⟩) (tailLoop snf mem len pos bitflips) := by
  induction len generalizing pos bitflips with
  | zero => exact ⟨few, rfl⟩
  | succ len ih =>
    obtain ⟨exact, total⟩ := @step_total snf mem pos bitflips small few 1 len (by decide)
    rw [tailLoop, ← zeroBits_byte, exact, ← total]
    by_cases many : snf.eccStrength < bitflips + zeroBits mem (8 * pos) 8
    · rw [if_pos many]
      exact Nat.lt_of_lt_of_le many (Nat.le_add_right _ _)
    · rw [if_neg many]
      exact ih (Nat.le_of_not_lt many)

theorem checkBuf_eq (few : bitflips ≤ snf.eccStrength) :
    mtkEccCheckBufBitflips snf mem base pos len bitflips =
      if bitflips + zeroBits mem (8 * pos) (8 * len) ≤ snf.eccStrength then
        BitVec.ofNat 32 (bitflips + zeroBits mem (8 * pos) (8 * len))
      else errno EBADMSG := by
  change _ = if Scan.total mem ⟨len, pos, bitflips⟩ ≤ _ then
    BitVec.ofNat 32 (Scan.total mem ⟨len, pos, bitflips⟩) else _
  have head := @headLoop_counts snf mem base len pos bitflips small few
  unfold mtkEccCheckBufBitflips
  cases headEnd : headLoop snf mem base len pos bitflips with
  | none =>
    rw [headEnd] at head
    rw [if_neg (Nat.not_le_of_lt head)]
  | some scan =>
    rw [headEnd] at head
    obtain ⟨few, total⟩ := head
    have words := @wordLoop_counts snf mem scan.len scan.pos scan.bitflips small few
    rw [← total]
    dsimp only
    cases wordsEnd : wordLoop snf mem scan.len scan.pos scan.bitflips with
    | none =>
      rw [wordsEnd] at words
      rw [if_neg (Nat.not_le_of_lt words)]
    | some scan' =>
      rw [wordsEnd] at words
      obtain ⟨few', total'⟩ := words
      have tail := @tailLoop_counts snf mem scan'.len scan'.pos scan'.bitflips small few'
      change scan'.total mem = scan.total mem at total'
      change Counts snf mem (scan'.total mem) _ at tail
      rw [← total']
      dsimp only
      cases tailEnd : tailLoop snf mem scan'.len scan'.pos scan'.bitflips with
      | none =>
        rw [tailEnd] at tail
        rw [if_neg (Nat.not_le_of_lt tail)]
      | some last =>
        rw [tailEnd] at tail
        obtain ⟨few'', total''⟩ := tail
        have found : last.total mem = last.bitflips := by
          unfold Scan.total
          rw [tailLoop_len tailEnd, Nat.mul_zero, zeroBits_zero, Nat.add_zero]
        rw [← total'', found, if_pos few'']

theorem countLow_eq {b : Byte} (few : bitflips ≤ snf.eccStrength) (short : bits ≤ 8) :
    countLow b bitflips bits =
      bitflips + Nat.count (fun i => b.getLsbD i = false) bits := by
  induction bits with
  | zero => rfl
  | succ i ih =>
    have le : Nat.count (fun i => b.getLsbD i = false) i ≤ i := Nat.count_le _
    rw [countLow, ih (by omega), Nat.count_succ]
    cases b.getLsbD i with
    | true => rw [if_pos rfl, if_neg (by simp), Nat.add_zero]
    | false =>
      rw [if_neg Bool.false_ne_true, if_pos rfl, u32_of_lt (by omega)]
      rfl

theorem ofNat_not_negative (few : bitflips ≤ snf.eccStrength) :
    (BitVec.ofNat 32 bitflips).msb = false ∧ (BitVec.ofNat 32 bitflips).toNat = bitflips := by
  have value : (BitVec.ofNat 32 bitflips).toNat = bitflips :=
    (BitVec.toNat_ofNat ..).trans (Nat.mod_eq_of_lt (by omega))
  refine ⟨?_, value⟩
  rw [BitVec.msb_eq_decide, value]
  exact decide_eq_false (by omega)

theorem checkParity_eq (few : bitflips ≤ snf.eccStrength) :
    mtkEccCheckParityBitflips snf mem base pos bits bitflips =
      if bitflips + zeroBits mem (8 * pos) bits ≤ snf.eccStrength then
        BitVec.ofNat 32 (bitflips + zeroBits mem (8 * pos) bits)
      else errno EBADMSG := by
  have lenEq : bits >>> 3 = bits / 8 := Nat.shiftRight_eq_div_pow bits 3
  have restEq : bits &&& 7 = bits % 8 := Nat.and_two_pow_sub_one_eq_mod bits 3
  have restLe : bits % 8 ≤ 8 := by omega
  have whole : zeroBits mem (8 * pos) bits = zeroBits mem (8 * pos) (8 * (bits / 8)) +
      Nat.count (fun i => (mem (pos + bits / 8)).getLsbD i = false) (bits % 8) := by
    rw [← zeroBits_partial restLe, Nat.mul_add, ← zeroBits_add, Nat.div_add_mod]
  unfold mtkEccCheckParityBitflips
  rw [lenEq, restEq]
  dsimp only
  rw [checkBuf_eq small few, whole]
  by_cases bytes : bitflips + zeroBits mem (8 * pos) (8 * (bits / 8)) ≤ snf.eccStrength
  · obtain ⟨positive, value⟩ := ofNat_not_negative small bytes
    rw [if_pos bytes, positive, value, countLow_eq small bytes restLe]
    by_cases rest : bits % 8 = 0
    · rw [if_pos (.inl rest), rest, Nat.count_zero, Nat.add_zero, if_pos bytes]
    · rw [if_neg (by simp [rest]), ← Nat.add_assoc]
      by_cases many : bitflips + zeroBits mem (8 * pos) (8 * (bits / 8)) +
          Nat.count (fun i => (mem (pos + bits / 8)).getLsbD i = false) (bits % 8) ≤
            snf.eccStrength
      · rw [if_neg (Nat.not_lt_of_le many), if_pos many]
      · rw [if_pos (Nat.lt_of_not_le many), if_neg many]
  · have negative : (errno EBADMSG).msb = true := by decide
    rw [if_neg bytes, if_pos (.inr negative), if_neg (by omega)]

end Exact

theorem bit_resetParity {mem : Bytes} {pos bits i : Nat} :
    bit (mtkEccResetParity mem pos bits) i = true ↔
      bit mem i = true ∨ Within (8 * pos) bits i := by
  have lenEq : bits >>> 3 = bits / 8 := Nat.shiftRight_eq_div_pow bits 3
  have restEq : bits &&& 7 = bits % 8 := Nat.and_two_pow_sub_one_eq_mod bits 3
  unfold mtkEccResetParity
  rw [lenEq, restEq]
  dsimp only
  by_cases rest : bits % 8 = 0
  · rw [if_pos rest, bit_fill, show 8 * (bits / 8) = bits by omega]
  · rw [if_neg rest, bit_setLow (by omega), bit_fill, or_assoc]
    refine or_congr_right ?_
    unfold Within
    omega

/-! ## The fix-up -/

section Fixup

variable (snf : MtkSnand) (sect : Nat) {base : Nat} {cache : Bytes}

theorem fixup_eq (small : snf.eccStrength ≤ 24) :
    mtkEccFixupEmptySector snf sect base cache =
      if sectorZeros snf sect cache ≤ snf.eccStrength then
        if sectorZeros snf sect cache = 0 then (0, cache)
        else
          (BitVec.ofNat 32 (sectorZeros snf sect cache),
            mtkEccResetParity
              (fill (fill cache (dataPos snf sect) 0xff snf.nfiSoc.sectorSize)
                (fdmPos snf sect) 0xff snf.nfiSoc.fdmEccSize)
              (eccPos snf sect) (sectorParityBits snf))
      else (errno EBADMSG, cache) := by
  have parity : u32 (snf.eccStrength * fls (snf.nfiSoc.sectorSize * 8)) =
      sectorParityBits snf := by
    have le : snf.eccStrength * fls (snf.nfiSoc.sectorSize * 8) ≤ 24 * 14 :=
      Nat.mul_le_mul small (fls_sector_le snf.soc)
    exact u32_of_lt (by omega)
  have negative : (errno EBADMSG).msb = true := by decide
  have three : sectorZeros snf sect cache =
      zeroBits cache (8 * dataPos snf sect) (8 * snf.nfiSoc.sectorSize) +
        zeroBits cache (8 * fdmPos snf sect) (8 * snf.nfiSoc.fdmEccSize) +
        zeroBits cache (8 * eccPos snf sect) (sectorParityBits snf) := rfl
  unfold mtkEccFixupEmptySector
  dsimp only
  rw [parity, checkBuf_eq small (Nat.zero_le _), Nat.zero_add]
  generalize zeroBits cache (8 * dataPos snf sect) (8 * snf.nfiSoc.sectorSize) = data at three ⊢
  by_cases dataFew : data ≤ snf.eccStrength
  swap
  · rw [if_neg dataFew, if_pos negative, if_neg (by omega)]
  obtain ⟨dataPositive, dataValue⟩ := ofNat_not_negative small dataFew
  rw [if_pos dataFew, dataPositive, if_neg Bool.false_ne_true, dataValue,
    checkBuf_eq small dataFew]
  generalize zeroBits cache (8 * fdmPos snf sect) (8 * snf.nfiSoc.fdmEccSize) = fdm at three ⊢
  by_cases fdmFew : data + fdm ≤ snf.eccStrength
  swap
  · rw [if_neg fdmFew, if_pos negative, if_neg (by omega)]
  obtain ⟨fdmPositive, fdmValue⟩ := ofNat_not_negative small fdmFew
  rw [if_pos fdmFew, fdmPositive, if_neg Bool.false_ne_true, fdmValue,
    checkParity_eq small fdmFew, ← three]
  by_cases few : sectorZeros snf sect cache ≤ snf.eccStrength
  swap
  · rw [if_neg few, if_pos negative, if_neg few]
  obtain ⟨positive, value⟩ := ofNat_not_negative small few
  have zero : BitVec.ofNat 32 (sectorZeros snf sect cache) = 0 ↔
      sectorZeros snf sect cache = 0 := by
    rw [← BitVec.toNat_inj, value]
    rfl
  rw [if_pos few, positive, if_neg Bool.false_ne_true, if_pos few]
  simp only [zero]

theorem bit_of_no_zeros (none : sectorZeros snf sect cache = 0) {i : Nat}
    (within : Protected snf sect i) : bit cache i = true := by
  unfold sectorZeros at none
  rcases within with data | fdm | parity
  · exact bit_of_zeroBits_eq_zero (by omega) data
  · exact bit_of_zeroBits_eq_zero (by omega) fdm
  · exact bit_of_zeroBits_eq_zero (by omega) parity

/-- A sector with no more zero bits than the engine can correct is all ones after the fix-up, which
returns their number; any other is left as it is. -/
theorem mtkEccFixupEmptySector_spec (strength : snf.eccStrength ∈ mtkEccSocs snf.soc) :
    (sectorZeros snf sect cache ≤ snf.eccStrength →
      (mtkEccFixupEmptySector snf sect base cache).1 =
          BitVec.ofNat 32 (sectorZeros snf sect cache) ∧
        ∀ i, bit (mtkEccFixupEmptySector snf sect base cache).2 i = true ↔
          bit cache i = true ∨ Protected snf sect i) ∧
      (snf.eccStrength < sectorZeros snf sect cache →
        mtkEccFixupEmptySector snf sect base cache = (errno EBADMSG, cache)) := by
  rw [fixup_eq snf sect (snf.soc.eccCap_le strength)]
  constructor
  · intro few
    rw [if_pos few]
    by_cases none : sectorZeros snf sect cache = 0
    · rw [if_pos none, none]
      exact ⟨rfl, fun i => (or_iff_left_of_imp (bit_of_no_zeros snf sect none)).symm⟩
    · rw [if_neg none]
      refine ⟨rfl, fun i => ?_⟩
      rw [bit_resetParity, bit_fill, bit_fill, or_assoc, or_assoc]
      rfl
  · intro many
    rw [if_neg (Nat.not_le_of_lt many)]

end Fixup

def strength4 : MtkSnand :=
  (plainChip 2048 64).snand .mt7622 (0, 0x0b, 8) (0, 0x02, 0) (16, 528) (4, 7, 13)

/-- A flipped bit at an odd address is counted and set; an empty page cache is left as it is. -/
theorem mtkEccFixupEmptySector_spec_strength4 :
    ((mtkEccFixupEmptySector strength4 1 1 fun i => if i = 514 then 0xfe else 0xff).1 = 1 ∧
      bit (mtkEccFixupEmptySector strength4 1 1 fun i => if i = 514 then 0xfe else 0xff).2
        (8 * 514) = true) ∧
      mtkEccFixupEmptySector strength4 1 1 (fun _ => 0) = (errno EBADMSG, fun _ => 0) := by
  have flipped := @mtkEccFixupEmptySector_spec strength4 1 1
    (fun i => if i = 514 then 0xfe else 0xff) (by decide)
  have zeros : sectorZeros strength4 1 (fun i => if i = 514 then 0xfe else 0xff) = 1 := by
    decide +kernel
  have few : sectorZeros strength4 1 (fun i => if i = 514 then 0xfe else 0xff) ≤
      strength4.eccStrength := by
    rw [zeros]
    decide
  obtain ⟨ret, bits⟩ := flipped.1 few
  rw [zeros] at ret
  refine ⟨⟨ret, (bits _).mpr (.inr (.inl ⟨by decide, by decide⟩))⟩, ?_⟩
  exact (mtkEccFixupEmptySector_spec strength4 1 (by decide)).2 (by decide +kernel)

end MetaFilogic.Snand
