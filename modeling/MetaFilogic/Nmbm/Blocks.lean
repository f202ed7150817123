import MetaFilogic.Nmbm.Phys

/-!
# Block states, walks and the factory mapping

The block state table is a bitmap with two bits for each block.  The walks count
good blocks upward or downward; the factory mapping numbers the blocks of the
data area that are not bad.
-/

namespace MetaFilogic.Nmbm

open Bytes

variable (ld : LowerDevice)

def getSpareBlockCount (blockCount : Nat) : Nat :=
  let val := (blockCount + NMBM_SPARE_BLOCK_DIV / 2) / NMBM_SPARE_BLOCK_DIV
  let val := val * NMBM_SPARE_BLOCK_MULTI
  if val < NMBM_SPARE_BLOCK_MIN then NMBM_SPARE_BLOCK_MIN else val

def LowerDevice.infoTableSpareBlocks : Nat :=
  getSpareBlockCount ld.infoTableBlocks

def stateShift (ba : Nat) : Nat :=
  ba % NMBM_BITMAP_BLOCKS_PER_UNIT * NMBM_BITMAP_BITS_PER_BLOCK

def getBlockStateRaw (blockState : Nat → BitVec 32) (ba : Nat) : BitVec 32 :=
  (blockState (ba / NMBM_BITMAP_BLOCKS_PER_UNIT) >>> stateShift ba) &&& BLOCK_ST_MASK

def Instance.getBlockState (ni : Instance) (ba : Nat) : BitVec 32 :=
  getBlockStateRaw ni.blockState ba

def putBlockStateRaw (blockState : Nat → BitVec 32) (ba : Nat) (state : BitVec 32) :
    Nat → BitVec 32 :=
  let unit := ba / NMBM_BITMAP_BLOCKS_PER_UNIT
  let uv := blockState unit &&& ~~~(BLOCK_ST_MASK <<< stateShift ba)
  let uv := uv ||| ((state &&& BLOCK_ST_MASK) <<< stateShift ba)
  fun other => if other = unit then uv else blockState other

def Instance.setBlockState (ni : Instance) (ba : Nat) (state : BitVec 32) : Instance :=
  let orig := ni.getBlockState ba
  { ni with
    blockState := putBlockStateRaw ni.blockState ba state
    blockStateChanged :=
      if orig ≠ state &&& BLOCK_ST_MASK then ni.blockStateChanged + 1
      else ni.blockStateChanged }

def setBlockState (ba : Nat) (state : BitVec 32) : NmbmM Unit :=
  modifyNi fun ni => ni.setBlockState ba state

/-- The loop of `nmbm_block_walk_asc` over the next blocks below the limit. -/
def blockWalkAscLoop (ni : Instance) : Nat → Nat → Int → Option Nat
  | 0, _, _ => none
  | blocks + 1, ba, nblock =>
    let nblock := if ni.getBlockState ba = BLOCK_ST_GOOD then nblock - 1 else nblock
    if nblock < 0 then some ba else blockWalkAscLoop ni blocks (ba + 1) nblock

/-- `nmbm_block_walk_asc`; `none` is the return value `false`. -/
def blockWalkAsc (ni : Instance) (ba count limit : Nat) : Option Nat :=
  let limit := if limit ≥ ld.blockCount then subU32 ld.blockCount 1 else limit
  blockWalkAscLoop ni (limit - ba) ba count

/-- The loop of `nmbm_block_walk_desc` over the next blocks above the limit. -/
def blockWalkDescLoop (ni : Instance) : Nat → Nat → Int → Option Nat
  | 0, _, _ => none
  | blocks + 1, ba, nblock =>
    let nblock := if ni.getBlockState ba = BLOCK_ST_GOOD then nblock - 1 else nblock
    if nblock < 0 then some ba else blockWalkDescLoop ni blocks (ba - 1) nblock

def blockWalkDesc (ni : Instance) (ba count limit : Nat) : Option Nat :=
  let limit := if limit ≥ ld.blockCount then subU32 ld.blockCount 1 else limit
  blockWalkDescLoop ni (ba - limit) ba count

def blockWalk (ni : Instance) (ascending : Bool) (ba count limit : Nat) : Option Nat :=
  if ascending then blockWalkAsc ld ni ba count limit
  else blockWalkDesc ld ni ba count limit

def scanBadblocksFrom (ba : Nat) : Nat → NmbmM Unit
  | 0 => return ()
  | blocks + 1 => do
    if ← checkBadPhysBlock ld ba then
      setBlockState ba BLOCK_ST_BAD
    scanBadblocksFrom (ba + 1) blocks

def scanBadblocks : NmbmM Unit :=
  scanBadblocksFrom ld 0 ld.blockCount

/-- A physical block number as a `block_mapping` entry. -/
def mapped (pb : Nat) : BitVec 32 := BitVec.ofNat 32 pb

def unmappedEntry : BitVec 32 := -1

/-- The first loop of `nmbm_build_mapping_table`: blocks `pb` and up to the next
logical block `lb`; the result is the mapping and the next free logical block. -/
def buildMappingLoop (ni : Instance) :
    Nat → Nat → Nat → (Nat → BitVec 32) → (Nat → BitVec 32) × Nat
  | 0, _, lb, mapping => (mapping, lb)
  | blocks + 1, pb, lb, mapping =>
    if ni.getBlockState pb = BLOCK_ST_BAD then
      buildMappingLoop ni blocks (pb + 1) lb mapping
    else
      buildMappingLoop ni blocks (pb + 1) (lb + 1)
        fun other => if other = lb then mapped pb else mapping other

def buildMappingTable : NmbmM Unit :=
  modifyNi fun ni =>
    let (mapping, lb) := buildMappingLoop ni ni.mgmtStartBa 0 0 ni.blockMapping
    { ni with
      dataBlockCount := lb
      -- Unusable/Management blocks
      blockMapping := fun other =>
        if lb ≤ other ∧ other < ld.blockCount then unmappedEntry else mapping other }

end MetaFilogic.Nmbm
