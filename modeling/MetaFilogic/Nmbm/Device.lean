import MetaFilogic.Library.Crc32
import Mathlib.Logic.Function.Basic

/-!
# The lower NAND device and the NMBM instance

`LowerDevice` is `struct nmbm_lower_device`: the geometry of the chip and the
callbacks it offers.  What the callbacks do is decided call by call by a stream
of `Fault`s, so a statement about every stream is a statement about every
behaviour of the chip, adaptive ones included.  A callback that succeeds has its
documented effect on the flash; one that fails may leave anything in the page or
block it was given and nothing else.

`Instance` is the mutable part of `struct nmbm_instance`.  The sizes and shifts
that `nmbm_init_structure` computes once are functions of the lower device.

`State.trace` is ghost: it records the lower-device writes, each with the flash
it leaves behind, and the points of the bookkeeping that the correctness
statements are about.  No function of the driver reads it.
-/

namespace MetaFilogic.Nmbm

open Bytes

/-! ## Constants -/

def EIO : Int := 5
def ENODEV : Int := 19
def EINVAL : Int := 22
def EROFS : Int := 30
def EBADMSG : Int := 74
def ENOTSUPP : Int := 524

def NMBM_TRY_COUNT : Nat := 3
def NMBM_MGMT_DIV : Nat := 16
def NMBM_MGMT_BLOCKS_MIN : Nat := 32
def NMBM_SPARE_BLOCK_MULTI : Nat := 1
def NMBM_SPARE_BLOCK_DIV : Nat := 2
def NMBM_SPARE_BLOCK_MIN : Nat := 2
def NMBM_BITMAP_UNIT_SIZE : Nat := 4
def NMBM_BITMAP_BITS_PER_BLOCK : Nat := 2
def NMBM_BITMAP_BLOCKS_PER_UNIT : Nat := 16

def BLOCK_ST_BAD : BitVec 32 := 0
def BLOCK_ST_NEED_REMAP : BitVec 32 := 2
def BLOCK_ST_GOOD : BitVec 32 := 3
def BLOCK_ST_MASK : BitVec 32 := 3

/-! ## 32-bit arithmetic -/

/-- Conversion to `uint32_t`. -/
def u32 (value : Nat) : Nat := value % 2 ^ 32

/-- Subtraction of `uint32_t` values. -/
def subU32 (left right : Nat) : Nat := (left + 2 ^ 32 - right) % 2 ^ 32

/-- `NMBM_ALIGN(v, a)` for a power of two `a`. -/
def alignUp (value unit : Nat) : Nat := u32 (u32 (value + unit - 1) / unit * unit)

def ffs (value : Nat) : Nat :=
  ((List.range 32).find? fun index => value.testBit index).elim 0 (· + 1)

/-! ## Lower device -/

inductive OobMode where
  | placeOob
  | autoOob
  | raw
  deriving DecidableEq

structure PageData where
  data : List Byte
  oob : List Byte

/-- What the device does at one call: return codes, the bytes a failing read
delivers, and the contents a failing write or erase leaves behind (`none` for
unchanged).  `reportsBad` makes `is_bad_block` answer yes for a block that
carries no mark. -/
structure Fault where
  readRet : Int := 0
  readData : PageData := ⟨[], []⟩
  writeRet : Int := 0
  writeLeaves : Option PageData := none
  eraseRet : Int := 0
  eraseLeaves : Option (Nat → PageData) := none
  reportsBad : Bool := false
  markRet : Int := 0
  markLeaves : Option (Nat → PageData) := none

/-- The members of `struct nmbm_lower_device`; `fault` gives the behaviour of
the callbacks at each call. -/
structure LowerDevice where
  maxRatio : Nat
  maxReservedBlocks : Nat
  size : Nat
  erasesize : Nat
  writesize : Nat
  oobsize : Nat
  hasReadPage : Bool := true
  hasWritePage : Bool := true
  hasPanicWritePage : Bool := true
  hasEraseBlock : Bool := true
  hasIsBadBlock : Bool := true
  hasMarkBadBlock : Bool := true
  fault : Nat → Fault

structure Flags where
  create : Bool
  emptyPageEccOk : Bool
  readOnly : Bool
  deriving DecidableEq

/-- The contents of the chip: its pages by page number and its bad-block marks
by block number. -/
structure Flash where
  page : Nat → PageData
  bad : Nat → Bool

namespace LowerDevice

variable (ld : LowerDevice)

/-! ### Members computed by `nmbm_init_structure` -/

def erasesizeShift : Nat := ffs ld.erasesize - 1

def writesizeMask : Nat := ld.writesize - 1

def erasesizeMask : Nat := ld.erasesize - 1

def blockCount : Nat := u32 (ld.size >>> ld.erasesizeShift)

def stateTableSize : Nat :=
  u32 ((ld.blockCount + NMBM_BITMAP_BLOCKS_PER_UNIT - 1) /
    NMBM_BITMAP_BLOCKS_PER_UNIT * NMBM_BITMAP_UNIT_SIZE)

def mappingTableSize : Nat := u32 (ld.blockCount * 4)

/-- `sizeof(struct nmbm_info_table_header)`. -/
def infoTableHeaderSize : Nat := 32

def stateTableOff : Nat := alignUp infoTableHeaderSize ld.writesize

def mappingTableOff : Nat :=
  u32 (ld.stateTableOff + alignUp ld.stateTableSize ld.writesize)

def infoTableSize : Nat :=
  u32 (ld.mappingTableOff + alignUp ld.mappingTableSize ld.writesize)

def stateUnits : Nat := ld.stateTableSize / 4

/-- Pages in one block: how often a loop from 0 to `erasesize` in steps of
`writesize` runs. -/
def pagesPerBlock : Nat := (ld.erasesize + ld.writesize - 1) / ld.writesize

/-! ### Address conversion -/

def addr2ba (addr : Nat) : Nat := u32 (addr >>> ld.erasesizeShift)

def ba2addr (ba : Nat) : Nat := ba <<< ld.erasesizeShift

def size2blk (size : Nat) : Nat :=
  u32 ((size + ld.erasesize - 1) >>> ld.erasesizeShift)

def infoTableBlocks : Nat := ld.size2blk ld.infoTableSize

def pageOf (addr : Nat) : Nat := addr / ld.writesize

def blockOf (addr : Nat) : Nat := addr / ld.erasesize

/-- A page as the device delivers it: exactly `writesize` and `oobsize` bytes. -/
def sized (page : PageData) : PageData :=
  ⟨page.data.takeD ld.writesize 0xff, page.oob.takeD ld.oobsize 0xff⟩

def erasedPage : PageData :=
  ⟨fill ld.writesize 0xff, fill ld.oobsize 0xff⟩

def setPage (flash : Flash) (page : Nat) (content : PageData) : Flash :=
  { flash with page := fun other => if other = page then content else flash.page other }

/-- Replace every page of one block; `contents` is indexed by page in block. -/
def setBlock (flash : Flash) (block : Nat) (contents : Nat → PageData) : Flash :=
  { flash with
    page := fun page =>
      if page / ld.pagesPerBlock = block then contents (page % ld.pagesPerBlock)
      else flash.page page }

def setBad (flash : Flash) (block : Nat) : Flash :=
  { flash with bad := fun other => if other = block then true else flash.bad other }

def afterErase (fault : Fault) (flash : Flash) (block : Nat) : Flash :=
  if fault.eraseRet = 0 then
    ld.setBlock flash block fun _ => ld.erasedPage
  else
    match fault.eraseLeaves with
    | none => flash
    | some contents => ld.setBlock flash block contents

def afterProgram (fault : Fault) (flash : Flash) (page : Nat) (data oob : Option (List Byte)) :
    Flash :=
  let old := flash.page page
  if fault.writeRet = 0 then
    setPage flash page ⟨data.getD old.data, oob.getD old.oob⟩
  else
    setPage flash page (fault.writeLeaves.getD old)

def afterMark (fault : Fault) (flash : Flash) (block : Nat) : Flash :=
  let disturbed :=
    match fault.markLeaves with
    | none => flash
    | some contents => ld.setBlock flash block contents
  if fault.markRet = 0 then setBad disturbed block else disturbed

def byteAt (flash : Flash) (addr : Nat) : Byte :=
  get8 (ld.sized (flash.page (addr / ld.writesize))).data (addr % ld.writesize)

def bytesAt (flash : Flash) (addr size : Nat) : List Byte :=
  (List.range size).map fun index => ld.byteAt flash (addr + index)

end LowerDevice

/-! ## On-flash structures -/

structure Header where
  magic : BitVec 32
  version : BitVec 32
  size : BitVec 32
  checksum : BitVec 32
  deriving DecidableEq

structure Signature where
  header : Header
  nandSize : BitVec 64
  blockSize : BitVec 32
  pageSize : BitVec 32
  spareSize : BitVec 32
  mgmtStartPb : BitVec 32
  maxTryCount : Byte
  deriving DecidableEq

structure InfoTableHeader where
  header : Header
  writeCount : BitVec 32
  stateTableOff : BitVec 32
  mappingTableOff : BitVec 32
  padding : BitVec 32
  deriving DecidableEq

/-! ## Instance and machine state -/

/-- The mutable members of `struct nmbm_instance`.  `blockState` is indexed by
bitmap unit and `blockMapping` by logical block. -/
structure Instance where
  flags : Flags
  signature : Signature
  infoTableCache : List Byte
  infoTable : InfoTableHeader
  blockState : Nat → BitVec 32
  blockStateChanged : Nat
  blockMapping : Nat → BitVec 32
  blockMappingChanged : Nat
  pageCache : PageData
  isProtected : Bool
  dataBlockCount : Nat
  mgmtStartBa : Nat
  mainTableBa : Nat
  backupTableBa : Nat
  mappingBlocksBa : Nat
  mappingBlocksTopBa : Nat
  signatureBa : Nat

/-- What `nmbm_try_load_info_table` reports about the table it found, and the image
it read. -/
structure LoadedTable where
  startBa : Nat
  endBa : Nat
  writeCount : BitVec 32
  mappingBlocksTopBa : Nat
  image : List Byte

/-- Ghost records.  The first three are the lower-device writes with the flash
they leave; the others mark points of the driver's bookkeeping. -/
inductive Event where
  /-- `erase_block` was called on a block. -/
  | erase (block : Nat) (after : Flash)
  /-- `write_page` or `panic_write_page` was called on a page of a block. -/
  | program (block : Nat) (after : Flash)
  /-- `mark_bad_block` was called on a block. -/
  | markBad (block : Nat) (after : Flash)
  /-- A signature is about to be written to some block above `limit`. -/
  | signatureWrite (limit : Nat) (image : List Byte)
  /-- An info table is about to be written from block `lower` up to `limit`. -/
  | tableWrite (lower limit : Nat) (image : List Byte)
  /-- A spare block was taken while the block at `mapping_blocks_top_ba` was
  recorded with this state. -/
  | spareTaken (topState : BitVec 32)
  /-- The dirty counters were cleared; `exact` tells whether the image in
  `info_table_cache` was still the one of the tables in memory. -/
  | tablesClean (exact : Bool)
  /-- A logical block lost its mapping; `dirty` tells whether a dirty counter
  was raised when the tables were next brought up to date. -/
  | unmapped (dirty : Bool)
  /-- An attach found this signature. -/
  | signatureFound (block : Nat) (signature : Signature)
  /-- An attach found these tables, on a chip with this signature block. -/
  | tablesFound (readOnly : Bool) (signatureBa : Nat) (main : LoadedTable)
      (backup : Option LoadedTable)
  /-- An attach loaded or created the management data. -/
  | attached

/-- The driver's memory, the chip, the number of lower-device calls so far and
the ghost trace (latest record first). -/
structure State where
  ni : Instance
  flash : Flash
  clock : Nat
  trace : List Event

abbrev NmbmM := StateM State

def getNi : NmbmM Instance := fun s => (s.ni, s)

def modifyNi (update : Instance → Instance) : NmbmM Unit :=
  fun s => ((), { s with ni := update s.ni })

def note (event : Event) : NmbmM Unit :=
  fun s => ((), { s with trace := event :: s.trace })

section Callbacks

variable (ld : LowerDevice)

def nextFault : NmbmM Fault :=
  fun s => (ld.fault s.clock, { s with clock := s.clock + 1 })

/-- `lower.read_page`: the return value and the bytes delivered. -/
def lowerReadPage (addr : Nat) (_mode : OobMode) : NmbmM (Int × PageData) := do
  let fault ← nextFault ld
  let s ← get
  if fault.readRet < 0 then
    return (fault.readRet, ld.sized fault.readData)
  else if ld.size ≤ addr then
    return (-EINVAL, ld.sized fault.readData)
  else
    return (fault.readRet, ld.sized (s.flash.page (ld.pageOf addr)))

/-- `lower.write_page` and `lower.panic_write_page`. -/
def lowerWritePage (addr : Nat) (data oob : Option (List Byte)) (_mode : OobMode) :
    NmbmM Int := do
  let fault ← nextFault ld
  let s ← get
  if ld.size ≤ addr then
    return -EINVAL
  else
    let flash := LowerDevice.afterProgram fault s.flash (ld.pageOf addr) data oob
    set { s with flash, trace := .program (ld.blockOf addr) flash :: s.trace }
    return fault.writeRet

/-- `lower.erase_block`. -/
def lowerEraseBlock (addr : Nat) : NmbmM Int := do
  let fault ← nextFault ld
  let s ← get
  if ld.size ≤ addr then
    return -EINVAL
  else
    let flash := ld.afterErase fault s.flash (ld.blockOf addr)
    set { s with flash, trace := .erase (ld.blockOf addr) flash :: s.trace }
    return fault.eraseRet

/-- `lower.is_bad_block`, as a truth value; a failing query counts as bad. -/
def lowerIsBadBlock (addr : Nat) : NmbmM Bool := do
  let fault ← nextFault ld
  let s ← get
  return ld.size ≤ addr || s.flash.bad (ld.blockOf addr) || fault.reportsBad

/-- `lower.mark_bad_block`. -/
def lowerMarkBadBlock (addr : Nat) : NmbmM Int := do
  let fault ← nextFault ld
  let s ← get
  if ld.size ≤ addr then
    return -EINVAL
  else
    let flash := ld.afterMark fault s.flash (ld.blockOf addr)
    set { s with flash, trace := .markBad (ld.blockOf addr) flash :: s.trace }
    return fault.markRet

end Callbacks

end MetaFilogic.Nmbm
