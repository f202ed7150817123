import MetaFilogic.Nmbm.States
import MetaFilogic.Library.StateProgram

/-!
# The NMBM back-end of the bad block layer and the flash driver under it

`Bmtd` is the part of `struct bmt_desc` that is fixed once a chip is attached, together with the
device tree properties the back-end reads.  The operations of the flash driver belong to it: each
acts on a state of the driver's own, about which nothing is assumed.  `Instance` is the mutable
part of `struct nmbm_instance`.

The on-flash structures, the state bitmap and the checksum are laid out as in the stand-alone NMBM
library, whose definitions are used here.  Log output is left out.

`State.spares` is ghost: it keeps, for every spare block taken, the state that was recorded for
the block at `mapping_blocks_top_ba` just before.  No function of the driver reads it.
-/

namespace MetaFilogic.BmtNmbm

open Bytes
open Nmbm (u32 subU32 alignUp getBlockStateRaw putBlockStateRaw BLOCK_ST_BAD BLOCK_ST_GOOD
  BLOCK_ST_MASK NMBM_TRY_COUNT NMBM_MGMT_DIV)

def EBADMSG : Int := 74
def EUCLEAN : Int := 117

def mtdIsBitflip (err : Int) : Bool := err == -EUCLEAN

/-! ## The flash driver -/

/-- What a read hands back: the return value, `ops.retlen` and the data buffer. -/
structure ReadResult where
  ret : Int
  retlen : Nat
  data : List Byte

structure FlashDriver (σ : Type) where
  readOob (addr len ooblen : Nat) : StateM σ ReadResult
  writeOob (addr : Nat) (data : List Byte) : StateM σ Int
  erase (addr len : Nat) : StateM σ Int
  blockIsbad (addr : Nat) : StateM σ Bool
  blockMarkbad (addr : Nat) : StateM σ Int

/-- The constants of `struct bmt_desc`, of its MTD device and of the device tree node. -/
structure Bmtd (σ : Type) where
  driver : FlashDriver σ
  totalBlks : Nat
  blkShift : Nat
  pgShift : Nat
  oobsize : Nat
  bitflipThreshold : Nat
  eccStrength : Nat
  maxRatio : Nat
  maxReservedBlocks : Nat
  emptyPageEccOk : Bool
  totalBlks_pos : 0 < totalBlks
  /-- `total_blks` is a `u16`. -/
  totalBlks_lt : totalBlks < 2 ^ 16
  pgShift_le : pgShift ≤ blkShift

namespace Bmtd

variable {σ : Type} (bmtd : Bmtd σ)

def blkSize : Nat := 2 ^ bmtd.blkShift

def pgSize : Nat := 2 ^ bmtd.pgShift

/-- Pages in one block: how often a loop from 0 to `blk_size` in steps of `pg_size` runs. -/
def pages : Nat := bmtd.blkSize >>> bmtd.pgShift

/-! ### Members computed by `nmbm_init_structure` -/

def stateTableSize : Nat :=
  u32 ((bmtd.totalBlks + Nmbm.NMBM_BITMAP_BLOCKS_PER_UNIT - 1) /
    Nmbm.NMBM_BITMAP_BLOCKS_PER_UNIT * Nmbm.NMBM_BITMAP_UNIT_SIZE)

def mappingTableSize : Nat := u32 (bmtd.totalBlks * 4)

def stateTableOff : Nat := alignUp Nmbm.LowerDevice.infoTableHeaderSize bmtd.pgSize

def mappingTableOff : Nat := u32 (bmtd.stateTableOff + alignUp bmtd.stateTableSize bmtd.pgSize)

def infoTableSize : Nat :=
  u32 (bmtd.mappingTableOff + alignUp bmtd.mappingTableSize bmtd.pgSize)

def ba2addr (ba : Nat) : Nat := ba <<< bmtd.blkShift

def size2blk (size : Nat) : Nat := u32 ((size + bmtd.blkSize - 1) >>> bmtd.blkShift)

def infoTableSpareBlocks : Nat := Nmbm.getSpareBlockCount (bmtd.size2blk bmtd.infoTableSize)

end Bmtd

/-! ## Instance and machine state -/

/-- The mutable members of `struct nmbm_instance`.  `blockState` is indexed by bitmap unit and
`blockMapping` by logical block. -/
structure Instance where
  infoTableCache : List Byte
  infoTable : Nmbm.InfoTableHeader
  blockState : Nat → BitVec 32
  blockStateChanged : Nat
  blockMapping : Nat → BitVec 32
  blockMappingChanged : Nat
  isProtected : Bool
  dataBlockCount : Nat
  mgmtStartBa : Nat
  mainTableBa : Nat
  backupTableBa : Nat
  mappingBlocksBa : Nat
  mappingBlocksTopBa : Nat
  signatureBa : Nat

/-- The driver's memory, the state of the flash driver and the ghost record of the spare blocks
taken (latest first). -/
structure State (σ : Type) where
  ni : Instance
  chip : σ
  spares : List (BitVec 32)

abbrev NmbmM (σ : Type) := StateM (State σ)

section Access

variable {σ α : Type}

def getNi : NmbmM σ Instance := fun s => (s.ni, s)

def modifyNi (update : Instance → Instance) : NmbmM σ Unit :=
  fun s => ((), { s with ni := update s.ni })

def noteSpare (topState : BitVec 32) : NmbmM σ Unit :=
  fun s => ((), { s with spares := topState :: s.spares })

def call (operation : StateM σ α) : NmbmM σ α :=
  fun s => ((operation s.chip).1, { s with chip := (operation s.chip).2 })

end Access

/-! ## High level NAND chip APIs -/

section Phys

variable {σ : Type} (bmtd : Bmtd σ)

/-- The retry loop of `nmbm_read_phys_page`; `last` is the outcome of the previous try. -/
def readPhysPageTries (addr : Nat) : Nat → Int × List Byte → NmbmM σ (Int × List Byte)
  | 0, last => return last
  | tries + 1, _ => do
    let result ← call (bmtd.driver.readOob addr bmtd.pgSize 0)
    if result.ret = -EUCLEAN then
      return (min (u32 (bmtd.bitflipThreshold + 1)) (u32 bmtd.eccStrength), result.data)
    else if result.ret ≥ 0 then
      return (0, result.data)
    else
      readPhysPageTries addr tries (result.ret, result.data)

def readPhysPage (addr : Nat) : NmbmM σ (Int × List Byte) :=
  readPhysPageTries bmtd addr NMBM_TRY_COUNT (0, [])

/-- The retry loop shared by `nmbm_write_phys_page` and `nmbm_erase_phys_block`. -/
def retry (request : NmbmM σ Int) : Nat → NmbmM σ Bool
  | 0 => return false
  | tries + 1 => do
    let ret ← request
    if ret = 0 then
      return true
    else
      retry request tries

def writePhysPage (addr : Nat) (data : List Byte) : NmbmM σ Bool :=
  retry (call (bmtd.driver.writeOob addr data)) NMBM_TRY_COUNT

def erasePhysBlock (addr : Nat) : NmbmM σ Bool :=
  retry (call (bmtd.driver.erase addr bmtd.blkSize)) NMBM_TRY_COUNT

def checkBadPhysBlock (ba : Nat) : NmbmM σ Bool :=
  call (bmtd.driver.blockIsbad (bmtd.ba2addr ba))

def markPhysBadBlock (ba : Nat) : NmbmM σ Int :=
  call (bmtd.driver.blockMarkbad (bmtd.ba2addr ba))

def bbtNandErase (block : Nat) : NmbmM σ Int :=
  call (bmtd.driver.erase (bmtd.ba2addr block) bmtd.blkSize)

/-- The loop of `bbt_nand_copy` over the pages still to do, from byte `offset` of the block on.
The write is given no spare bytes: `wr_ops.ooblen` is set after the write it was meant for. -/
def bbtNandCopyFrom (dest src : Nat) (maxOffset : Int) : (pages offset : Nat) → NmbmM σ Int
  | 0, _ => return 0
  | pages + 1, offset => do
    if maxOffset ≤ offset then
      return 0
    else
      let result ← call (bmtd.driver.readOob (bmtd.ba2addr src + offset) bmtd.pgSize
        (min (bmtd.oobsize / bmtd.pages) 64))
      if result.ret < 0 ∧ !mtdIsBitflip result.ret then
        return result.ret
      else if result.retlen = 0 then
        return 0
      else
        let ret ← call (bmtd.driver.writeOob (bmtd.ba2addr dest + offset) result.data)
        if ret < 0 then
          return ret
        else
          bbtNandCopyFrom dest src maxOffset pages (offset + result.retlen)

def bbtNandCopy (dest src : Nat) (maxOffset : Int) : NmbmM σ Int :=
  bbtNandCopyFrom bmtd dest src maxOffset bmtd.pages 0

end Phys

/-! ## Block states, walks and the factory mapping -/

def Instance.getBlockState (ni : Instance) (ba : Nat) : BitVec 32 :=
  getBlockStateRaw ni.blockState ba

def Instance.setBlockState (ni : Instance) (ba : Nat) (state : BitVec 32) : Instance :=
  { ni with
    blockState := putBlockStateRaw ni.blockState ba state
    blockStateChanged :=
      if ni.getBlockState ba ≠ state &&& BLOCK_ST_MASK then ni.blockStateChanged + 1
      else ni.blockStateChanged }

def setBlockState {σ : Type} (ba : Nat) (state : BitVec 32) : NmbmM σ Unit :=
  modifyNi fun ni => ni.setBlockState ba state

/-- The loop of `nmbm_block_walk_asc` over the next blocks below the limit. -/
def blockWalkAscLoop (ni : Instance) : Nat → Nat → Int → Option Nat
  | 0, _, _ => none
  | blocks + 1, ba, nblock =>
    let nblock := if ni.getBlockState ba = BLOCK_ST_GOOD then nblock - 1 else nblock
    if nblock < 0 then some ba else blockWalkAscLoop ni blocks (ba + 1) nblock

/-- The loop of `nmbm_block_walk_desc` over the next blocks above the limit. -/
def blockWalkDescLoop (ni : Instance) : Nat → Nat → Int → Option Nat
  | 0, _, _ => none
  | blocks + 1, ba, nblock =>
    let nblock := if ni.getBlockState ba = BLOCK_ST_GOOD then nblock - 1 else nblock
    if nblock < 0 then some ba else blockWalkDescLoop ni blocks (ba - 1) nblock

section Blocks

variable {σ : Type} (bmtd : Bmtd σ)

def walkLimit (limit : Nat) : Nat :=
  if limit ≥ bmtd.totalBlks then subU32 bmtd.totalBlks 1 else limit

/-- `nmbm_block_walk_asc`; `none` is the return value `false`. -/
def blockWalkAsc (ni : Instance) (ba count limit : Nat) : Option Nat :=
  blockWalkAscLoop ni (walkLimit bmtd limit - ba) ba count

def blockWalkDesc (ni : Instance) (ba count limit : Nat) : Option Nat :=
  blockWalkDescLoop ni (ba - walkLimit bmtd limit) ba count

def blockWalk (ni : Instance) (ascending : Bool) (ba count limit : Nat) : Option Nat :=
  if ascending then blockWalkAsc bmtd ni ba count limit
  else blockWalkDesc bmtd ni ba count limit

def scanBadblocksFrom (ba : Nat) : Nat → NmbmM σ Unit
  | 0 => return ()
  | blocks + 1 => do
    if ← checkBadPhysBlock bmtd ba then
      setBlockState ba BLOCK_ST_BAD
    scanBadblocksFrom (ba + 1) blocks

def scanBadblocks : NmbmM σ Unit :=
  scanBadblocksFrom bmtd 0 bmtd.totalBlks

/-- The first loop of `nmbm_build_mapping_table`: blocks `pb` and up to the next logical block
`lb`; the result is the mapping and the next free logical block. -/
def buildMappingLoop (ni : Instance) :
    Nat → Nat → Nat → (Nat → BitVec 32) → (Nat → BitVec 32) × Nat
  | 0, _, lb, mapping => (mapping, lb)
  | blocks + 1, pb, lb, mapping =>
    if ni.getBlockState pb = BLOCK_ST_BAD then
      buildMappingLoop ni blocks (pb + 1) lb mapping
    else
      -- Always map to the next good block
      buildMappingLoop ni blocks (pb + 1) (lb + 1)
        fun other => if other = lb then BitVec.ofNat 32 pb else mapping other

def buildMappingTable : NmbmM σ Unit :=
  modifyNi fun ni =>
    let (mapping, lb) := buildMappingLoop ni ni.mgmtStartBa 0 0 ni.blockMapping
    { ni with
      dataBlockCount := lb
      -- Unusable/Management blocks
      blockMapping := fun other =>
        if lb ≤ other ∧ other < bmtd.totalBlks then -1 else mapping other }

end Blocks

end MetaFilogic.BmtNmbm
