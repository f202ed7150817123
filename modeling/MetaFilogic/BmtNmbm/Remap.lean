import MetaFilogic.BmtNmbm.Tables

/-!
# Taking spare blocks and giving them back

`nmbm_map_block`, the creation of the management data, and the operations `remap_block` and
`unmap_block` of the back-end.
-/

namespace MetaFilogic.BmtNmbm

open Bytes
open Nmbm (u32 subU32 BLOCK_ST_BAD BLOCK_ST_GOOD NMBM_MAGIC_SIGNATURE NMBM_VER NMBM_TRY_COUNT
  NMBM_MGMT_DIV)

variable {σ : Type} (bmtd : Bmtd σ)

def mapBlock (lb : Nat) : NmbmM σ Bool := do
  let ni ← getNi
  if ni.mappingBlocksBa = ni.mappingBlocksTopBa then
    return false
  else
    match blockWalk bmtd ni false ni.mappingBlocksTopBa 0 ni.mappingBlocksBa with
    | none =>
      let _ ← updateInfoTable bmtd
      modifyNi fun ni => { ni with mappingBlocksTopBa := ni.mappingBlocksBa }
      return false
    | some pb =>
      noteSpare (ni.getBlockState ni.mappingBlocksTopBa)
      modifyNi fun ni =>
        { ni with
          blockMapping := fun other =>
            if other = lb then BitVec.ofNat 32 pb else ni.blockMapping other
          mappingBlocksTopBa := subU32 ni.mappingBlocksTopBa 1
          blockMappingChanged := ni.blockMappingChanged + 1 }
      return true

/-- The loop of `nmbm_create_info_table` that remaps the logical blocks from `lb` on. -/
def remapTail (lb : Nat) : Nat → NmbmM σ Unit
  | 0 => return ()
  | blocks + 1 => do
    if ← mapBlock bmtd lb then
      modifyNi fun ni => { ni with dataBlockCount := ni.dataBlockCount + 1 }
      remapTail (lb + 1) blocks

def createInfoTable : NmbmM σ Bool := do
  let ni ← getNi
  -- Set initial mapping_blocks_top_off
  match blockWalk bmtd ni false ni.signatureBa 1 ni.mgmtStartBa with
  | none => return false
  | some top =>
    modifyNi fun ni => { ni with mappingBlocksTopBa := top }
    let _ ← generateInfoTableCache bmtd
    -- Write info table
    if !(← rebuildInfoTable bmtd) then
      return false
    else
      -- Remap bad block(s) at end of data area
      let ni ← getNi
      remapTail bmtd ni.dataBlockCount (ni.mgmtStartBa - ni.dataBlockCount)
      -- If state table and/or mapping table changed, update info table
      updateInfoTable bmtd

/-- The boundary of the management blocks that `nmbm_create_new` determines. -/
def Bmtd.mgmtStart : Nat :=
  let start := u32 (bmtd.totalBlks * subU32 NMBM_MGMT_DIV bmtd.maxRatio) / NMBM_MGMT_DIV
  if bmtd.maxReservedBlocks ≠ 0 ∧ subU32 bmtd.totalBlks start > bmtd.maxReservedBlocks then
    subU32 bmtd.totalBlks bmtd.maxReservedBlocks
  else start

/-- The signature that `nmbm_create_new` writes, before its checksum is set. -/
def Bmtd.signature (mgmtStartBa : Nat) : Nmbm.Signature where
  header := ⟨NMBM_MAGIC_SIGNATURE, NMBM_VER, BitVec.ofNat 32 Nmbm.signatureSize, 0⟩
  nandSize := BitVec.ofNat 64 (u32 (bmtd.totalBlks <<< bmtd.blkShift))
  blockSize := BitVec.ofNat 32 bmtd.blkSize
  pageSize := BitVec.ofNat 32 bmtd.pgSize
  spareSize := BitVec.ofNat 32 bmtd.oobsize
  mgmtStartPb := BitVec.ofNat 32 mgmtStartBa
  maxTryCount := BitVec.ofNat 8 NMBM_TRY_COUNT

/-- How the management data comes to be created: by `nmbm_create_new`, or by `nmbm_load_existing`
on a chip that has a signature but no info table. -/
inductive Creation (bmtd : Bmtd σ) where
  | new
  | existing (mgmtStartPb : BitVec 32) (signatureBa : Fin bmtd.totalBlks)

def Creation.mgmtStart {bmtd : Bmtd σ} : Creation bmtd → Nat
  | .new => bmtd.mgmtStart
  | .existing mgmtStartPb _ => mgmtStartPb.toNat

def fillTables (mgmtStart : Nat) : NmbmM σ Unit := do
  modifyNi fun ni => { ni with mgmtStartBa := mgmtStart }
  scanBadblocks bmtd
  buildMappingTable bmtd

def writeTables : Creation bmtd → NmbmM σ Bool
  | .new => do
    let ni ← getNi
    let signature := Nmbm.updateChecksum (bmtd.signature ni.mgmtStartBa).bytes
    match ← writeSignature bmtd ni.mgmtStartBa signature with
    | none => return false
    | some signatureBa =>
      modifyNi fun ni => { ni with signatureBa }
      createInfoTable bmtd
  | .existing _ signatureBa => do
    modifyNi fun ni => { ni with signatureBa := signatureBa.val }
    createInfoTable bmtd

/-- `nmbm_create_new`, and the creation at the end of `nmbm_load_existing`. -/
def create (creation : Creation bmtd) : NmbmM σ Bool := do
  fillTables bmtd creation.mgmtStart
  writeTables bmtd creation

def remapBlockNmbm (block mappedBlock : BitVec 16) (copyLen : Int) : NmbmM σ Bool := do
  let ni ← getNi
  if ni.dataBlockCount ≤ block.toNat then
    return false
  else
    setBlockState mappedBlock.toNat BLOCK_ST_BAD
    if !(← mapBlock bmtd block.toNat) then
      return false
    else
      let ni ← getNi
      let newBlock := (ni.blockMapping block.toNat).toNat % 2 ^ 16
      let _ ← bbtNandErase bmtd newBlock
      if 0 < copyLen then
        let _ ← bbtNandCopy bmtd newBlock mappedBlock.toNat copyLen
      let _ ← updateInfoTable bmtd
      return true

/-- The loop of `unmap_block_nmbm` that goes back from a logical block to one that is not mapped
above `mapping_blocks_ba`: the block and the distance.  `none` is the return when there is no
such block.  An entry of `block_mapping` is compared as an unsigned number. -/
def unmapStart (ni : Instance) : (start offset : Nat) → Option (Nat × Nat)
  | 0, offset =>
    if ni.mappingBlocksBa ≤ (ni.blockMapping 0).toNat then none else some (0, offset)
  | start + 1, offset =>
    if ni.mappingBlocksBa ≤ (ni.blockMapping (start + 1)).toNat then
      unmapStart ni start (offset + 1)
    else some (start + 1, offset)

/-- The loop of `unmap_block_nmbm` that computes the new `mapping_blocks_top_ba`: logical blocks
`block` and up, with the value so far.  The first comparison is one of unsigned numbers, the
second of signed ones.  The counter is a `u16`, as is the number of blocks. -/
def unmapTop (ni : Instance) : (blocks block : Nat) → Int → Int
  | 0, _, newBlock => newBlock
  | blocks + 1, block, newBlock =>
    let cur := ni.blockMapping block
    if cur.toNat < ni.mappingBlocksBa then
      unmapTop ni blocks (block + 1) newBlock
    else if cur.toInt ≤ newBlock then
      unmapTop ni blocks (block + 1) (cur.toInt - 1)
    else
      unmapTop ni blocks (block + 1) newBlock

def unmapBlockNmbm (block : BitVec 16) : NmbmM σ Unit := do
  let ni ← getNi
  if ni.dataBlockCount ≤ block.toNat then
    return ()
  else
    match unmapStart ni block.toNat 0 with
    | none => return ()
    | some (start, offset) =>
      if offset = 0 then
        return ()
      else
        let newBlock := ni.blockMapping start + BitVec.ofNat 32 offset
        setBlockState newBlock.toNat BLOCK_ST_GOOD
        modifyNi fun ni =>
          { ni with
            blockMapping := fun other =>
              if other = block.toNat then newBlock else ni.blockMapping other
            blockMappingChanged := ni.blockMappingChanged + 1 }
        modifyNi fun ni =>
          { ni with
            mappingBlocksTopBa :=
              (BitVec.ofInt 32 (unmapTop ni ni.dataBlockCount 0
                (BitVec.ofNat 32 ni.signatureBa - 1).toInt)).toNat }
        let _ ← updateInfoTable bmtd

/-! ## Runs -/

structure Remap where
  block : BitVec 16
  mappedBlock : BitVec 16
  copyLen : Int

def remapAll : List Remap → NmbmM σ Unit
  | [] => return ()
  | remap :: rest => do
    let _ ← remapBlockNmbm bmtd remap.block remap.mappedBlock remap.copyLen
    remapAll rest

end MetaFilogic.BmtNmbm
