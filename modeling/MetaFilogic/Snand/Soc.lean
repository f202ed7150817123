import MetaFilogic.Library.Bytes

/-!
# The SPI-NAND controllers

The tables of the SoCs and what the driver keeps of an attached chip.  An `int` of the source is a
`BitVec 32`: status bytes and negative error codes travel in the same values.
-/

namespace MetaFilogic.Snand

/-! ## Numbers -/

abbrev CInt := BitVec 32

/-- The `int` with the value `-code`. -/
def errno (code : Nat) : CInt := -(BitVec.ofNat 32 code)

def EIO : Nat := 5
def EBUSY : Nat := 16
def EINVAL : Nat := 22
def EBADMSG : Nat := 74
def ETIMEDOUT : Nat := 110
def ENOTSUPP : Nat := 524

/-- Conversion to `uint32_t`. -/
def u32 (value : Nat) : Nat := value % 2 ^ 32

/-- Subtraction of `uint32_t` values. -/
def subU32 (left right : Nat) : Nat := (left + 2 ^ 32 - right) % 2 ^ 32

def fls (value : Nat) : Nat := if value = 0 then 0 else Nat.log2 value + 1

theorem u32_of_lt {value : Nat} (small : value < 2 ^ 32) : u32 value = value :=
  Nat.mod_eq_of_lt small

/-! ## SoCs -/

inductive Soc where
  | mt7622
  | mt7629
  | mt7981
  | mt7986
  | mt7988
  deriving DecidableEq

def mt7622SpareSizes : List Nat := [16, 26, 27, 28]

def mt7981SpareSizes : List Nat :=
  [16, 26, 27, 28, 32, 36, 40, 44, 48, 49, 50, 51, 52, 62, 61, 63, 64, 67, 74]

def mt7986SpareSizes : List Nat :=
  [16, 26, 27, 28, 32, 36, 40, 44, 48, 49, 50, 51, 52, 62, 61, 63, 64, 67, 74]

structure SocData where
  sectorSize : Nat
  maxSectors : Nat
  fdmSize : Nat
  fdmEccSize : Nat
  bbmSwap : Bool
  spareSizes : List Nat

def mtkSnandSocs : Soc → SocData
  | .mt7622 => ⟨512, 8, 8, 1, false, mt7622SpareSizes⟩
  | .mt7629 => ⟨512, 8, 8, 1, true, mt7622SpareSizes⟩
  | .mt7981 => ⟨1024, 16, 8, 1, true, mt7981SpareSizes⟩
  | .mt7986 => ⟨1024, 16, 8, 1, true, mt7986SpareSizes⟩
  | .mt7988 => ⟨1024, 16, 8, 1, true, mt7986SpareSizes⟩

def mt7622EccCaps : List Nat := [4, 6, 8, 10, 12]

def mt7981EccCaps : List Nat := [4, 6, 8, 10, 12, 14, 16, 18, 20, 22, 24]

def mt7986EccCaps : List Nat := [4, 6, 8, 10, 12, 14, 16, 18, 20, 22, 24]

/-- `mtk_ecc_socs`, as far as `ecc_caps`. -/
def mtkEccSocs : Soc → List Nat
  | .mt7622 => mt7622EccCaps
  | .mt7629 => mt7622EccCaps
  | .mt7981 => mt7981EccCaps
  | .mt7986 => mt7986EccCaps
  | .mt7988 => mt7986EccCaps

namespace Soc

variable (soc : Soc)

theorem sectorSize_cases :
    (mtkSnandSocs soc).sectorSize = 512 ∨ (mtkSnandSocs soc).sectorSize = 1024 := by
  cases soc <;> simp [mtkSnandSocs]

theorem fdmSize_eq : (mtkSnandSocs soc).fdmSize = 8 := by
  cases soc <;> rfl

theorem maxSectors_le : (mtkSnandSocs soc).maxSectors ≤ 16 := by
  cases soc <;> decide

theorem eccCap_le {cap : Nat} (member : cap ∈ mtkEccSocs soc) : cap ≤ 24 := by
  revert cap
  cases soc <;> decide

end Soc

/-! ## An attached chip -/

inductive SelectDie where
  | winbond
  | micron
  deriving DecidableEq

structure MtkSnand where
  soc : Soc
  quadSpiOp : Bool
  size : Nat
  dieSize : Nat
  erasesize : Nat
  writesize : Nat
  oobsize : Nat
  numDies : Nat
  selectDie : Option SelectDie
  opcodeRfc : Byte
  opcodePl : Byte
  dummyRfc : Byte
  modeRfc : Nat
  modePl : Nat
  erasesizeMask : Nat
  dieMask : Nat
  writesizeShift : Nat
  erasesizeShift : Nat
  dieShift : Nat
  sparePerSector : Nat
  rawSectorSize : Nat
  eccStrength : Nat
  eccSteps : Nat
  eccBytes : Nat
  eccParityBits : Nat

def MtkSnand.nfiSoc (snf : MtkSnand) : SocData := mtkSnandSocs snf.soc

end MetaFilogic.Snand
