import MetaFilogic.Snand.Io

/-!
# Setting up the page format

`mtk_snand_setup` splits a page into the sectors of the ECC engine and looks for the spare size and
the ECC strength in the tables of the SoC.  A step that the C standard leaves undefined (a division
by zero, a read outside of a table) ends in `Stop.trap`.
-/

namespace MetaFilogic.Snand

/-! ## The driver -/

inductive Stop where
  | trap
  | error (ret : CInt)
  deriving DecidableEq

abbrev Try := Except Stop

/-- Division of `uint32_t` values. -/
def divU32 (value divisor : Nat) : Try Nat :=
  if divisor = 0 then .error .trap else .ok (value / divisor)

structure MemOrg where
  pagesize : BitVec 16
  sparesize : BitVec 16
  pagesPerBlock : BitVec 16
  blocksPerDie : BitVec 16
  ndies : BitVec 16

structure IoCap where
  caps : BitVec 8
  opcodes : Nat → Byte × Byte

structure FlashInfo where
  memorg : MemOrg
  capRd : IoCap
  capPl : IoCap
  selectDie : Option SelectDie

def SPI_IO_1_1_1 : BitVec 32 := 1
def SPI_IO_1_1_2 : BitVec 32 := 2
def SPI_IO_1_2_2 : BitVec 32 := 4
def SPI_IO_1_1_4 : BitVec 32 := 8
def SPI_IO_1_4_4 : BitVec 32 := 16

def snfiCaps (quadSpi : Bool) : BitVec 32 :=
  let caps := SPI_IO_1_1_1 ||| SPI_IO_1_1_2 ||| SPI_IO_1_2_2
  if quadSpi then caps ||| (SPI_IO_1_1_4 ||| SPI_IO_1_4_4) else caps

def mtkSnandSelectOpcode (caps : BitVec 32) (opCap : IoCap) : Option (Nat × Byte × Byte) :=
  match fls (caps &&& opCap.caps.setWidth 32).toNat with
  | 0 => none
  | idx + 1 => some (idx, opCap.opcodes idx)

/-- The table of `mtk_snand_select_opcode_rfc`. -/
def rfcModes : List Nat := [0, 1, 5, 2, 6]

/-- The table of `mtk_snand_select_opcode_pl`. -/
def plModes : List Nat := [0, 0, 0, 1, 0]

/-- A loop from the last index below `count` down to 0 that stops at the first index that fits. -/
def lastFitting (fits : Nat → Bool) : (count : Nat) → Option Nat
  | 0 => none
  | count + 1 => if fits count then some count else lastFitting fits count

def SocData.mul (soc : SocData) : Nat := if soc.sectorSize = 1024 then 2 else 1

def mtkSnandSelectSparePerSector (soc : SocData) (oobsize eccSteps sparePerSector : Nat) :
    Try (Int × Nat) := do
  let sparePerStep ← divU32 oobsize eccSteps
  let sparePerStep := sparePerStep / soc.mul
  match lastFitting (fun i => soc.spareSizes.getD i 0 ≤ sparePerStep) soc.spareSizes.length with
  | some i => return (i, soc.spareSizes.getD i 0 * soc.mul)
  | none => return (-1, sparePerSector)

/-- The page sizes in the `switch` of `mtk_snand_pagefmt_setup`, less the arithmetic of their
codes. -/
def pageSizes : List Nat := [512, 2048, 4096, 8192, 16384]

/-- `mtk_snand_pagefmt_setup(snf)`: `spare_per_sector` and `raw_sector_size`. -/
def mtkSnandPagefmtSetup (soc : SocData) (writesize oobsize eccSteps sparePerSector : Nat) :
    Try (Nat × Nat) := do
  if writesize ∉ pageSizes then throw (.error (errno ENOTSUPP))
  let (index, sparePerSector) ← mtkSnandSelectSparePerSector soc oobsize eccSteps sparePerSector
  -- `spare_size_idx` has an unsigned type.
  let spareSizeIdx : BitVec 32 := BitVec.ofInt 32 index
  if spareSizeIdx < 0 then throw (.error (errno ENOTSUPP))
  return (sparePerSector, soc.sectorSize + sparePerSector)

/-- How the waits of `mtk_ecc_setup` for the two engines end. -/
structure EccIdle where
  enc : Bool
  dec : Bool

/-- `mtk_ecc_setup(snf, fmdaddr, max_ecc_bytes, msg_size)`: `ecc_strength`, `ecc_bytes` and
`ecc_parity_bits`.  The index of the loop is unsigned, so the loop runs on below the table. -/
def mtkEccSetup (eccCaps : List Nat) (idle : EccIdle) (maxEccBytes msgSize : Nat) :
    Try (Nat × Nat × Nat) := do
  let parityBits := fls (1 + 8 * msgSize)
  let eccStrength ← divU32 (u32 (maxEccBytes * 8)) parityBits
  match lastFitting (fun i => eccCaps.getD i 0 ≤ eccStrength) eccCaps.length with
  | none => throw .trap
  | some i =>
    let eccStrength := eccCaps.getD i 0
    if !idle.enc then throw (.error (errno EBUSY))
    if !idle.dec then throw (.error (errno EBUSY))
    return (eccStrength, (eccStrength * parityBits + 7) / 8, parityBits)

def ffs (value : Nat) : Nat :=
  ((List.range 64).find? fun index => value.testBit index).elim 0 (· + 1)

/-- The members that `mtk_snand_setup` computes from the chip, with what its steps have found: the
modes with their opcodes, the spare size and the ECC layout. -/
def FlashInfo.snand (info : FlashInfo) (soc : Soc) (rfc pl : Nat × Byte × Byte)
    (format : Nat × Nat) (ecc : Nat × Nat × Nat) : MtkSnand :=
  let writesize := info.memorg.pagesize.toNat
  let erasesize := writesize * info.memorg.pagesPerBlock.toNat
  let dieSize := erasesize * info.memorg.blocksPerDie.toNat
  { soc
    quadSpiOp := rfc.1 = 3 || rfc.1 = 4 || pl.1 = 3
    size := dieSize * info.memorg.ndies.toNat
    dieSize
    erasesize
    writesize
    oobsize := info.memorg.sparesize.toNat
    numDies := info.memorg.ndies.toNat
    selectDie := info.selectDie
    opcodeRfc := rfc.2.1
    opcodePl := pl.2.1
    dummyRfc := rfc.2.2
    modeRfc := rfcModes.getD rfc.1 0
    modePl := plModes.getD pl.1 0
    erasesizeMask := subU32 erasesize 1
    dieMask := (dieSize + 2 ^ 64 - 1) % 2 ^ 64
    writesizeShift := subU32 (ffs writesize) 1
    erasesizeShift := subU32 (ffs erasesize) 1
    dieShift := subU32 (ffs dieSize) 1
    sparePerSector := format.1
    rawSectorSize := format.2
    eccStrength := ecc.1
    eccSteps := writesize / (mtkSnandSocs soc).sectorSize
    eccBytes := ecc.2.1
    eccParityBits := ecc.2.2 }

/-- `mtk_snand_setup` up to the dies, of a structure that is all zero. -/
def mtkSnandFormat (soc : Soc) (quadSpi : Bool) (idle : EccIdle) (info : FlashInfo) :
    Try MtkSnand :=
  match mtkSnandSelectOpcode (snfiCaps quadSpi) info.capRd,
    mtkSnandSelectOpcode (snfiCaps quadSpi) info.capPl with
  | some rfc, some pl =>
    let nfiSoc := mtkSnandSocs soc
    let writesize := info.memorg.pagesize.toNat
    let eccSteps := writesize / nfiSoc.sectorSize
    if nfiSoc.maxSectors < eccSteps then .error (.error (errno ENOTSUPP))
    else do
      let format ← mtkSnandPagefmtSetup nfiSoc writesize info.memorg.sparesize.toNat eccSteps 0
      let ecc ← mtkEccSetup (mtkEccSocs soc) idle (subU32 format.1 nfiSoc.fdmSize)
        (nfiSoc.sectorSize + nfiSoc.fdmEccSize)
      return info.snand soc rfc pl format ecc
  | _, _ => .error (.error (errno ENOTSUPP))

/-- The loop of `mtk_snand_setup` over the dies from number `die` on. -/
def setupDies (bus : Bus) (selectDie : Option SelectDie) (quadSpiOp : Bool) :
    (left die : Nat) → SnandM CInt
  | 0, _ => return 0
  | left + 1, die => do
    let _ ← mtkSnandSelectDie bus selectDie die
    let ret ← mtkSnandOndieEccControl bus false
    if ret ≠ 0 then return ret
    else
      let _ ← mtkSnandUnlock bus
      let _ ← mtkSnandQspiControl bus quadSpiOp
      setupDies bus selectDie quadSpiOp left (die + 1)

def mtkSnandSetup (bus : Bus) (soc : Soc) (quadSpi : Bool) (idle : EccIdle) (info : FlashInfo) :
    SnandM (Try MtkSnand) := do
  match mtkSnandFormat soc quadSpi idle info with
  | .error stop => return .error stop
  | .ok snf =>
    let ret ← setupDies bus snf.selectDie snf.quadSpiOp snf.numDies 0
    if ret ≠ 0 then return .error (.error ret)
    else
      let _ ← mtkSnandSelectDie bus snf.selectDie 0
      return .ok snf

end MetaFilogic.Snand
