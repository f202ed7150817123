import MetaFilogic.BmtNmbm.Driver

/-!
# Writing the management data of the back-end

Erasing, writing and verifying blocks, the image of the info table, and the maintenance of the
main and the backup table.  Blocks that fail are marked and skipped.
-/

namespace MetaFilogic.BmtNmbm

open Bytes
open Nmbm (u32 subU32 BLOCK_ST_BAD BLOCK_ST_GOOD NMBM_MAGIC_INFO_TABLE NMBM_VER)

variable {σ : Type} (bmtd : Bmtd σ)

/-! ## Blocks -/

/-- The page loop of `nmbm_erase_block_and_check`. -/
def checkErasedPages (addr : Nat) : Nat → NmbmM σ Bool
  | 0 => return true
  | pages + 1 => do
    let result ← readPhysPage bmtd addr
    if result.1 = -EBADMSG then
      -- Too many bitflips in an empty page
      return false
    else
      checkErasedPages (addr + bmtd.pgSize) pages

def eraseBlockAndCheck (ba : Nat) : NmbmM σ Bool := do
  let success ← erasePhysBlock bmtd (bmtd.ba2addr ba)
  if !success then
    return false
  else if !bmtd.emptyPageEccOk then
    return true
  else
    checkErasedPages bmtd (bmtd.ba2addr ba) bmtd.pages

/-- Give up a block that failed: `nmbm_mark_phys_bad_block` followed by
`nmbm_set_block_state(ni, ba, BLOCK_ST_BAD)`. -/
def retireBlock (ba : Nat) : NmbmM σ Unit := do
  let _ ← markPhysBadBlock bmtd ba
  setBlockState ba BLOCK_ST_BAD

/-- The loop of `nmbm_erase_range` over the next blocks below the limit. -/
def eraseRangeLoop : Nat → Nat → NmbmM σ Unit
  | 0, _ => return ()
  | blocks + 1, ba => do
    let ni ← getNi
    if ni.getBlockState ba ≠ BLOCK_ST_GOOD then
      eraseRangeLoop blocks (ba + 1)
    else if ← checkBadPhysBlock bmtd ba then
      -- Insurance to detect unexpected bad block marked by user
      setBlockState ba BLOCK_ST_BAD
      eraseRangeLoop blocks (ba + 1)
    else if ← eraseBlockAndCheck bmtd ba then
      eraseRangeLoop blocks (ba + 1)
    else
      retireBlock bmtd ba
      eraseRangeLoop blocks (ba + 1)

def eraseRange (ba limit : Nat) : NmbmM σ Unit :=
  eraseRangeLoop bmtd (limit - ba) ba

/-- The page loop of `nmbm_write_repeated_data`. -/
def writeRepeatedPages (data : List Byte) (addr : Nat) : Nat → NmbmM σ Bool
  | 0 => return true
  | pages + 1 => do
    -- Prepare page data. fill 0xff to unused region
    let success ← writePhysPage bmtd addr (data ++ fill (bmtd.pgSize - data.length) 0xff)
    if !success then
      return false
    else
      -- Verify the data just written. ECC error indicates failure
      let result ← readPhysPage bmtd addr
      if result.1 < 0 then
        return false
      else if result.2.take data.length ≠ data then
        return false
      else
        writeRepeatedPages data (addr + bmtd.pgSize) pages

def writeRepeatedData (ba : Nat) (data : List Byte) : NmbmM σ Bool :=
  if data.length > bmtd.pgSize then
    return false
  else
    writeRepeatedPages bmtd data (bmtd.ba2addr ba) bmtd.pages

/-- The loop of `nmbm_write_signature` over the next blocks above the limit; the result is the
block the signature was written to. -/
def writeSignatureLoop (signature : List Byte) : Nat → Nat → NmbmM σ (Option Nat)
  | 0, _ => return none
  | blocks + 1, ba => do
    let ni ← getNi
    if ni.getBlockState ba ≠ BLOCK_ST_GOOD then
      writeSignatureLoop signature blocks (ba - 1)
    else if ← checkBadPhysBlock bmtd ba then
      -- Insurance to detect unexpected bad block marked by user
      setBlockState ba BLOCK_ST_BAD
      writeSignatureLoop signature blocks (ba - 1)
    else if !(← eraseBlockAndCheck bmtd ba) then
      retireBlock bmtd ba
      writeSignatureLoop signature blocks (ba - 1)
    else if ← writeRepeatedData bmtd ba signature then
      return some ba
    else
      retireBlock bmtd ba
      writeSignatureLoop signature blocks (ba - 1)

def writeSignature (limit : Nat) (signature : List Byte) : NmbmM σ (Option Nat) :=
  let ba := subU32 bmtd.totalBlks 1
  writeSignatureLoop bmtd signature (ba - limit) ba

/-- The loop of `nmbn_write_verify_data`: the bytes `ptr` still to be written from `off` on.  Each
round writes at least one byte. -/
def nmbnWriteVerifyDataLoop : Nat → Nat → List Byte → NmbmM σ Bool
  | 0, _, _ => return true
  | rounds + 1, off, ptr => do
    if ptr.length = 0 then
      return true
    else
      let leading := off &&& (bmtd.pgSize - 1)
      let chunksize := min (bmtd.pgSize - leading) ptr.length
      -- Prepare page data. fill 0xff to unused region
      let success ← writePhysPage bmtd (off - leading)
        (patch (fill bmtd.pgSize 0xff) leading (ptr.take chunksize))
      if !success then
        return false
      else
        -- Verify the data just written. ECC error indicates failure
        let result ← readPhysPage bmtd (off - leading)
        if result.1 < 0 then
          return false
        else if (result.2.drop leading).take chunksize ≠ ptr.take chunksize then
          return false
        else
          nmbnWriteVerifyDataLoop rounds (off + chunksize) (ptr.drop chunksize)

def nmbnWriteVerifyData (addr : Nat) (data : List Byte) : NmbmM σ Bool :=
  nmbnWriteVerifyDataLoop bmtd data.length addr data

/-- The loop of `nmbm_write_mgmt_range` over the next blocks below the limit: `ptr` is still to be
written and `start` is the block of the first chunk, once there is one. -/
def writeMgmtRangeLoop : Nat → Nat → List Byte → Option Nat → NmbmM σ (Option (Nat × Nat))
  | 0, ba, ptr, start => return if ptr.length = 0 then some (start.getD 0, ba) else none
  | blocks + 1, ba, ptr, start => do
    if ptr.length = 0 then
      return some (start.getD 0, ba)
    else
      let chunk := ptr.take bmtd.blkSize
      let ni ← getNi
      if ni.getBlockState ba ≠ BLOCK_ST_GOOD then
        writeMgmtRangeLoop blocks (ba + 1) ptr start
      else if ← checkBadPhysBlock bmtd ba then
        -- Insurance to detect unexpected bad block marked by user
        setBlockState ba BLOCK_ST_BAD
        writeMgmtRangeLoop blocks (ba + 1) ptr start
      else if !(← eraseBlockAndCheck bmtd ba) then
        retireBlock bmtd ba
        writeMgmtRangeLoop blocks (ba + 1) ptr start
      else if ← nmbnWriteVerifyData bmtd (bmtd.ba2addr ba) chunk then
        writeMgmtRangeLoop blocks (ba + 1) (ptr.drop chunk.length) (some (start.getD ba))
      else
        retireBlock bmtd ba
        writeMgmtRangeLoop blocks (ba + 1) ptr start

/-- `nmbm_write_mgmt_range`: the actual start block and the block after the end of the data, or
`none` if the data did not fit below the limit. -/
def writeMgmtRange (ba limit : Nat) (data : List Byte) : NmbmM σ (Option (Nat × Nat)) :=
  writeMgmtRangeLoop bmtd (limit - ba) ba data none

/-! ## Info tables -/

/-- The header that `nmbm_generate_info_table_cache` leaves in `ni->info_table`. -/
def Instance.nextInfoTable (ni : Instance) : Nmbm.InfoTableHeader :=
  { ni.infoTable with
    header :=
      { ni.infoTable.header with
        magic := NMBM_MAGIC_INFO_TABLE
        version := NMBM_VER
        size := BitVec.ofNat 32 bmtd.infoTableSize }
    writeCount :=
      if ni.blockStateChanged ≠ 0 ∨ ni.blockMappingChanged ≠ 0 then
        ni.infoTable.writeCount + 1
      else ni.infoTable.writeCount }

/-- The buffer `nmbm_generate_info_table_cache` builds from the tables in memory. -/
def infoTableImage (table : Nmbm.InfoTableHeader) (blockState blockMapping : Nat → BitVec 32) :
    List Byte :=
  let cache := fill bmtd.infoTableSize 0xff
  let cache := patch cache table.stateTableOff.toNat (words blockState (bmtd.stateTableSize / 4))
  let cache := patch cache table.mappingTableOff.toNat
    (words blockMapping (bmtd.mappingTableSize / 4))
  let cache := patch cache 0 table.bytes
  Nmbm.updateChecksum cache

def generateInfoTableCache : NmbmM σ Bool := do
  let ni ← getNi
  let changed : Bool := ni.blockStateChanged ≠ 0 ∨ ni.blockMappingChanged ≠ 0
  modifyNi fun ni =>
    { ni with
      infoTable := ni.nextInfoTable bmtd
      infoTableCache :=
        infoTableImage bmtd (ni.nextInfoTable bmtd) ni.blockState ni.blockMapping }
  return changed

def writeInfoTable (ba limit : Nat) : NmbmM σ (Option (Nat × Nat)) := do
  let ni ← getNi
  writeMgmtRange bmtd ba limit ni.infoTableCache

def markTablesClean : NmbmM σ Unit :=
  modifyNi fun ni => { ni with blockStateChanged := 0, blockMappingChanged := 0 }

/-- `nmbm_try_reserve_blocks`, with at most `nblocks` blocks skipped. -/
def tryReserveBlocks (ni : Instance) (ba minCount limit : Nat) : Nat → Option Nat
  | 0 => if minCount = 0 then blockWalk bmtd ni true ba 0 limit else none
  | nblocks + 1 =>
    if nblocks + 1 < minCount then
      none
    else
      match blockWalk bmtd ni true ba (nblocks + 1) limit with
      | some nba => some nba
      | none => tryReserveBlocks ni ba minCount limit nblocks

/-- The reservation all table writers ask for: up to `info_table_spare_blocks` good blocks skipped
from `ba` on, leaving room for a table. -/
def reserveTableStart (ni : Instance) (ba : Nat) : Option Nat :=
  tryReserveBlocks bmtd ni ba 0
    (subU32 ni.mappingBlocksTopBa (bmtd.size2blk bmtd.infoTableSize)) bmtd.infoTableSpareBlocks

/-- The loop `while (write_ba >= lower) { ... write_ba--; }` that tries to write an info table from
`write_ba` on, then from ever lower blocks. -/
def writeInfoTableDownward (writeBa : Nat) : Nat → NmbmM σ (Option (Nat × Nat))
  | 0 => return none
  | tries + 1 => do
    let ni ← getNi
    match ← writeInfoTable bmtd writeBa ni.mappingBlocksTopBa with
    | some range => return some range
    | none => writeInfoTableDownward (writeBa - 1) tries

def rebuildInfoTable : NmbmM σ Bool := do
  -- Set initial value
  modifyNi fun ni =>
    { ni with mainTableBa := 0, backupTableBa := 0, mappingBlocksBa := ni.mappingBlocksTopBa }
  let ni ← getNi
  -- Write main table
  match ← writeInfoTable bmtd ni.mgmtStartBa ni.mappingBlocksTopBa with
  | none =>
    -- Failed to write main table, data will be lost
    modifyNi fun ni => { ni with isProtected := true }
    return false
  | some (tableStartBa, mainTableEndBa) =>
    -- Main info table is successfully written, record its offset
    modifyNi fun ni =>
      { ni with mainTableBa := tableStartBa, mappingBlocksBa := mainTableEndBa }
    markTablesClean
    -- Reserve spare blocks for main info table
    let ni ← getNi
    match reserveTableStart bmtd ni mainTableEndBa with
    | none => return true
    | some nextStartBa =>
      -- Write backup info table
      match ← writeInfoTable bmtd nextStartBa ni.mappingBlocksTopBa with
      | none => return true
      | some (tableStartBa, tableEndBa) =>
        modifyNi fun ni =>
          { ni with backupTableBa := tableStartBa, mappingBlocksBa := tableEndBa }
        -- Erase spare blocks of main table to clean possible interference data
        eraseRange bmtd mainTableEndBa tableStartBa
        return true

def promoteBackupTable : NmbmM σ Unit :=
  modifyNi fun ni => { ni with mainTableBa := ni.backupTableBa, backupTableBa := 0 }

/-- The end of `nmbm_rescue_main_info_table`, for a main table that reached past the temporary
table: a new backup table has to be written. -/
def rescueBackupInfoTable (mainTableEndBa : Nat) : NmbmM σ Bool := do
  -- Adjust mapping_blocks_off
  modifyNi fun ni => { ni with mappingBlocksBa := mainTableEndBa }
  let ni ← getNi
  -- Try to reserve spare blocks for new main info table
  match reserveTableStart bmtd ni mainTableEndBa with
  | none =>
    -- There is no spare block. Only main table exists.
    modifyNi fun ni => { ni with backupTableBa := 0 }
    return true
  | some writeBa =>
    -- Write new backup info table
    match ← writeInfoTableDownward bmtd writeBa (writeBa + 1 - mainTableEndBa) with
    | none =>
      modifyNi fun ni => { ni with backupTableBa := 0 }
      return true
    | some (tmpTableStartBa, tmpTableEndBa) =>
      modifyNi fun ni =>
        { ni with backupTableBa := tmpTableStartBa, mappingBlocksBa := tmpTableEndBa }
      eraseRange bmtd mainTableEndBa tmpTableStartBa
      return true

def rescueMainInfoTable : NmbmM σ Bool := do
  let ni ← getNi
  -- Try to reserve spare blocks for existing backup info table
  match reserveTableStart bmtd ni ni.mappingBlocksBa with
  | none =>
    -- There is no spare block
    promoteBackupTable
    return true
  | some writeBa =>
    -- Try to write temporary info table into spare unmapped blocks
    match ← writeInfoTableDownward bmtd writeBa (writeBa + 1 - ni.mappingBlocksBa) with
    | none =>
      promoteBackupTable
      return true
    | some (tmpTableStartBa, tmpTableEndBa) =>
      -- Adjust mapping_blocks_off
      modifyNi fun ni => { ni with mappingBlocksBa := tmpTableEndBa }
      -- Now write main info table at the beginning of management area.
      -- This operation will generally destroy the original backup info table.
      let ni ← getNi
      match ← writeInfoTable bmtd ni.mgmtStartBa tmpTableStartBa with
      | none =>
        -- Temporary info table becomes the main table
        modifyNi fun ni =>
          { ni with mainTableBa := tmpTableStartBa, backupTableBa := 0 }
        markTablesClean
        return true
      | some (mainTableStartBa, mainTableEndBa) =>
        modifyNi fun ni => { ni with mainTableBa := mainTableStartBa }
        markTablesClean
        -- Temporary info table becomes the new backup info table if it's not overwritten.
        if mainTableEndBa ≤ tmpTableStartBa then
          modifyNi fun ni => { ni with backupTableBa := tmpTableStartBa }
          return true
        else
          rescueBackupInfoTable bmtd mainTableEndBa

/-- The part of `nmbm_update_info_table_once` from the label `write_main_table` on. -/
def updateMainInfoTable (mainTableLimit : Nat) : NmbmM σ Bool := do
  let ni ← getNi
  if ni.mainTableBa = 0 then
    rebuildInfoTable bmtd
  else
    -- Write main info table in its current range
    match ← writeInfoTable bmtd ni.mainTableBa mainTableLimit with
    | none =>
      -- If failed to write main table, go rescue procedure
      if ni.backupTableBa = 0 then
        rebuildInfoTable bmtd
      else
        rescueMainInfoTable bmtd
    | some (tableStartBa, tableEndBa) =>
      modifyNi fun ni =>
        { ni with
          mainTableBa := tableStartBa
          mappingBlocksBa :=
            if ni.backupTableBa = 0 then tableEndBa else ni.mappingBlocksBa }
      markTablesClean
      return true

def updateInfoTableOnce (force : Bool) : NmbmM σ Bool := do
  let changed ← generateInfoTableCache bmtd
  -- Do nothing if there is no change
  if !changed && !force then
    return true
  else
    let ni ← getNi
    -- Check whether both two tables exist
    if ni.backupTableBa = 0 then
      updateMainInfoTable bmtd ni.mappingBlocksTopBa
    else
      -- Write backup info table in its current range
      match ← writeInfoTable bmtd ni.backupTableBa ni.mappingBlocksTopBa with
      | none =>
        -- There is nothing to do if failed to write backup table
        modifyNi fun ni =>
          { ni with mappingBlocksBa := ni.backupTableBa, backupTableBa := 0 }
        updateMainInfoTable bmtd ni.mappingBlocksTopBa
      | some (tableStartBa, tableEndBa) =>
        modifyNi fun ni =>
          { ni with backupTableBa := tableStartBa, mappingBlocksBa := tableEndBa }
        markTablesClean
        -- The normal limit of main table
        updateMainInfoTable bmtd tableStartBa

/-- The loop of `nmbm_update_info_table`, for at most so many rounds. -/
def updateInfoTableLoop : Nat → NmbmM σ Bool
  | 0 => return false
  | rounds + 1 => do
    let ni ← getNi
    if ni.blockStateChanged ≠ 0 ∨ ni.blockMappingChanged ≠ 0 then
      if ← updateInfoTableOnce bmtd false then
        updateInfoTableLoop rounds
      else
        return false
    else
      return true

/-- `nmbm_update_info_table`.  A round that leaves a dirty counter raised has lost a good block
below `mapping_blocks_top_ba`, which bounds the rounds. -/
def updateInfoTable : NmbmM σ Bool := do
  let ni ← getNi
  if ni.isProtected then
    return true
  else
    updateInfoTableLoop bmtd (ni.mappingBlocksTopBa + 2)

end MetaFilogic.BmtNmbm
