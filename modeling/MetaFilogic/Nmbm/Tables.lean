import MetaFilogic.Nmbm.Mgmt

/-!
# Maintaining the pair of info tables

Rebuilding, rescuing and updating the main and the backup info table, taking a
spare block for a logical block, and the creation of the first tables.
-/

namespace MetaFilogic.Nmbm

variable (ld : LowerDevice)

/-- `nmbm_try_reserve_blocks`, with at most `nblocks` blocks skipped. -/
def tryReserveBlocks (ni : Instance) (ba minCount limit : Nat) : Nat → Option Nat
  | 0 => if minCount = 0 then blockWalk ld ni true ba 0 limit else none
  | nblocks + 1 =>
    if nblocks + 1 < minCount then
      none
    else
      match blockWalk ld ni true ba (nblocks + 1) limit with
      | some nba => some nba
      | none => tryReserveBlocks ni ba minCount limit nblocks

/-- The reservation all table writers ask for: up to `info_table_spare_blocks`
good blocks skipped from `ba` on, leaving room for a table. -/
def reserveTableStart (ni : Instance) (ba : Nat) : Option Nat :=
  tryReserveBlocks ld ni ba 0
    (subU32 ni.mappingBlocksTopBa (ld.size2blk ld.infoTableSize))
    ld.infoTableSpareBlocks

/-- The loop `while (write_ba >= lower) { ... write_ba--; }` that tries to write
an info table from `write_ba` on, then from ever lower blocks. -/
def writeInfoTableDownward (writeBa : Nat) : Nat → NmbmM (Option (Nat × Nat))
  | 0 => return none
  | tries + 1 => do
    let ni ← getNi
    match ← writeInfoTable ld writeBa ni.mappingBlocksTopBa with
    | some range => return some range
    | none => writeInfoTableDownward (writeBa - 1) tries

def rebuildInfoTable : NmbmM Bool := do
  -- Set initial value
  modifyNi fun ni =>
    { ni with
      mainTableBa := 0
      backupTableBa := 0
      mappingBlocksBa := ni.mappingBlocksTopBa }
  let ni ← getNi
  -- Write main table
  match ← writeInfoTable ld ni.mgmtStartBa ni.mappingBlocksTopBa with
  | none =>
    -- Failed to write main table, data will be lost
    modifyNi fun ni => { ni with isProtected := true }
    return false
  | some (tableStartBa, mainTableEndBa) =>
    -- Main info table is successfully written, record its offset
    modifyNi fun ni =>
      { ni with mainTableBa := tableStartBa, mappingBlocksBa := mainTableEndBa }
    markTablesClean ld
    -- Reserve spare blocks for main info table
    let ni ← getNi
    match reserveTableStart ld ni mainTableEndBa with
    | none => return true
    | some nextStartBa =>
      -- Write backup info table
      match ← writeInfoTable ld nextStartBa ni.mappingBlocksTopBa with
      | none => return true
      | some (tableStartBa, tableEndBa) =>
        modifyNi fun ni =>
          { ni with backupTableBa := tableStartBa, mappingBlocksBa := tableEndBa }
        -- Erase spare blocks of main table to clean possible interference data
        eraseRange ld mainTableEndBa tableStartBa
        return true

def rescueSingleInfoTable : NmbmM Bool := do
  let ni ← getNi
  -- Try to write new info table in front of existing table
  match ← writeInfoTable ld ni.mgmtStartBa ni.mainTableBa with
  | some (tableStartBa, tableEndBa) =>
    -- New table becomes the main table, existing table becomes the backup table
    modifyNi fun ni =>
      { ni with backupTableBa := ni.mainTableBa, mainTableBa := tableStartBa }
    markTablesClean ld
    let ni ← getNi
    eraseRange ld tableEndBa ni.backupTableBa
    return true
  | none =>
    -- Try to reserve spare blocks for existing table
    let ni ← getNi
    match reserveTableStart ld ni ni.mappingBlocksBa with
    | none => return false
    | some writeBa =>
      -- Try to write new info table next to the existing table
      match ← writeInfoTableDownward ld writeBa (writeBa + 1 - ni.mappingBlocksBa) with
      | some (tableStartBa, tableEndBa) =>
        let ni ← getNi
        eraseRange ld ni.mappingBlocksBa tableStartBa
        -- New table becomes the backup table
        modifyNi fun ni =>
          { ni with backupTableBa := tableStartBa, mappingBlocksBa := tableEndBa }
        markTablesClean ld
        return true
      | none => return false

def updateSingleInfoTable (updateMainTable : Bool) : NmbmM Bool := do
  let ni ← getNi
  -- Determine the write range
  let writeStartBa := if updateMainTable then ni.mainTableBa else ni.backupTableBa
  let writeLimit := if updateMainTable then ni.backupTableBa else ni.mappingBlocksTopBa
  match ← writeInfoTable ld writeStartBa writeLimit with
  | some (tableStartBa, tableEndBa) =>
    if updateMainTable then
      modifyNi fun ni => { ni with mainTableBa := tableStartBa }
    else
      modifyNi fun ni =>
        { ni with backupTableBa := tableStartBa, mappingBlocksBa := tableEndBa }
    markTablesClean ld
    return true
  | none =>
    if updateMainTable then
      -- Make backup table the new main table
      modifyNi fun ni =>
        { ni with mainTableBa := ni.backupTableBa, backupTableBa := 0 }
      rescueSingleInfoTable ld
    else
      -- Only one table left
      modifyNi fun ni =>
        { ni with mappingBlocksBa := ni.backupTableBa, backupTableBa := 0 }
      return false

def promoteBackupTable : NmbmM Unit :=
  modifyNi fun ni => { ni with mainTableBa := ni.backupTableBa, backupTableBa := 0 }

/-- The end of `nmbm_rescue_main_info_table`, for a main table that reached past
the temporary table: a new backup table has to be written. -/
def rescueBackupInfoTable (mainTableEndBa : Nat) : NmbmM Bool := do
  -- Adjust mapping_blocks_off
  modifyNi fun ni => { ni with mappingBlocksBa := mainTableEndBa }
  let ni ← getNi
  -- Try to reserve spare blocks for new main info table
  match reserveTableStart ld ni mainTableEndBa with
  | none =>
    -- There is no spare block. Only main table exists.
    modifyNi fun ni => { ni with backupTableBa := 0 }
    return true
  | some writeBa =>
    -- Write new backup info table
    match ← writeInfoTableDownward ld writeBa (writeBa + 1 - mainTableEndBa) with
    | none =>
      modifyNi fun ni => { ni with backupTableBa := 0 }
      return true
    | some (tmpTableStartBa, tmpTableEndBa) =>
      modifyNi fun ni =>
        { ni with backupTableBa := tmpTableStartBa, mappingBlocksBa := tmpTableEndBa }
      eraseRange ld mainTableEndBa tmpTableStartBa
      return true

def rescueMainInfoTable : NmbmM Bool := do
  let ni ← getNi
  -- Try to reserve spare blocks for existing backup info table
  match reserveTableStart ld ni ni.mappingBlocksBa with
  | none =>
    -- There is no spare block
    promoteBackupTable
    return true
  | some writeBa =>
    -- Try to write temporary info table into spare unmapped blocks
    match ← writeInfoTableDownward ld writeBa (writeBa + 1 - ni.mappingBlocksBa) with
    | none =>
      promoteBackupTable
      return true
    | some (tmpTableStartBa, tmpTableEndBa) =>
      -- Adjust mapping_blocks_off
      modifyNi fun ni => { ni with mappingBlocksBa := tmpTableEndBa }
      -- Now write main info table at the beginning of management area.
      -- This operation will generally destroy the original backup info table.
      let ni ← getNi
      match ← writeInfoTable ld ni.mgmtStartBa tmpTableStartBa with
      | none =>
        -- Temporary info table becomes the main table
        modifyNi fun ni =>
          { ni with mainTableBa := tmpTableStartBa, backupTableBa := 0 }
        markTablesClean ld
        return true
      | some (mainTableStartBa, mainTableEndBa) =>
        modifyNi fun ni => { ni with mainTableBa := mainTableStartBa }
        markTablesClean ld
        -- Temporary info table becomes the new backup info table if it's
        -- not overwritten.
        if mainTableEndBa ≤ tmpTableStartBa then
          modifyNi fun ni => { ni with backupTableBa := tmpTableStartBa }
          return true
        else
          rescueBackupInfoTable ld mainTableEndBa

/-- The part of `nmbm_update_info_table_once` from the label `write_main_table`
on. -/
def updateMainInfoTable (mainTableLimit : Nat) : NmbmM Bool := do
  let ni ← getNi
  if ni.mainTableBa = 0 then
    rebuildInfoTable ld
  else
    -- Write main info table in its current range
    match ← writeInfoTable ld ni.mainTableBa mainTableLimit with
    | none =>
      -- If failed to write main table, go rescue procedure
      if ni.backupTableBa = 0 then
        rebuildInfoTable ld
      else
        rescueMainInfoTable ld
    | some (tableStartBa, tableEndBa) =>
      modifyNi fun ni =>
        { ni with
          mainTableBa := tableStartBa
          mappingBlocksBa :=
            if ni.backupTableBa = 0 then tableEndBa else ni.mappingBlocksBa }
      markTablesClean ld
      return true

def updateInfoTableOnce (force : Bool) : NmbmM Bool := do
  let changed ← generateInfoTableCache ld
  -- Do nothing if there is no change
  if !changed && !force then
    return true
  else
    let ni ← getNi
    -- Check whether both two tables exist
    if ni.backupTableBa = 0 then
      updateMainInfoTable ld ni.mappingBlocksTopBa
    else
      -- Write backup info table in its current range
      match ← writeInfoTable ld ni.backupTableBa ni.mappingBlocksTopBa with
      | none =>
        -- There is nothing to do if failed to write backup table
        modifyNi fun ni =>
          { ni with mappingBlocksBa := ni.backupTableBa, backupTableBa := 0 }
        updateMainInfoTable ld ni.mappingBlocksTopBa
      | some (tableStartBa, tableEndBa) =>
        modifyNi fun ni =>
          { ni with backupTableBa := tableStartBa, mappingBlocksBa := tableEndBa }
        markTablesClean ld
        -- The normal limit of main table
        updateMainInfoTable ld tableStartBa

/-- The loop of `nmbm_update_info_table`.  Every round that leaves a dirty counter
raised has recorded a good block as bad, so the rounds are bounded by the number
of blocks. -/
def updateInfoTableLoop : Nat → NmbmM Bool
  | 0 => return false
  | rounds + 1 => do
    let ni ← getNi
    if ni.blockStateChanged ≠ 0 ∨ ni.blockMappingChanged ≠ 0 then
      if ← updateInfoTableOnce ld false then
        updateInfoTableLoop rounds
      else
        return false
    else
      return true

def updateInfoTable : NmbmM Bool := do
  let ni ← getNi
  if ni.isProtected then
    return true
  else
    updateInfoTableLoop ld (ld.blockCount + 2)

def mapBlock (lb : Nat) : NmbmM Bool := do
  let ni ← getNi
  if ni.mappingBlocksBa = ni.mappingBlocksTopBa then
    return false
  else
    match blockWalk ld ni false ni.mappingBlocksTopBa 0 ni.mappingBlocksBa with
    | none =>
      let _ ← updateInfoTable ld
      modifyNi fun ni => { ni with mappingBlocksTopBa := ni.mappingBlocksBa }
      return false
    | some pb =>
      note (.spareTaken (ni.getBlockState ni.mappingBlocksTopBa))
      modifyNi fun ni =>
        { ni with
          blockMapping := fun other => if other = lb then mapped pb else ni.blockMapping other
          mappingBlocksTopBa := subU32 ni.mappingBlocksTopBa 1
          blockMappingChanged := ni.blockMappingChanged + 1 }
      return true

/-- The loop of `nmbm_create_info_table` that remaps the logical blocks from `lb`
on. -/
def remapTail (lb : Nat) : Nat → NmbmM Unit
  | 0 => return ()
  | blocks + 1 => do
    if ← mapBlock ld lb then
      modifyNi fun ni => { ni with dataBlockCount := ni.dataBlockCount + 1 }
      remapTail (lb + 1) blocks

def createInfoTable : NmbmM Bool := do
  let ni ← getNi
  -- Set initial mapping_blocks_top_off
  match blockWalk ld ni false ni.signatureBa 1 ni.mgmtStartBa with
  | none => return false
  | some top =>
    modifyNi fun ni => { ni with mappingBlocksTopBa := top }
    let _ ← generateInfoTableCache ld
    -- Write info table
    if !(← rebuildInfoTable ld) then
      return false
    else
      -- Remap bad block(s) at end of data area
      let ni ← getNi
      remapTail ld ni.dataBlockCount (ni.mgmtStartBa - ni.dataBlockCount)
      -- If state table and/or mapping table changed, update info table
      updateInfoTable ld

end MetaFilogic.Nmbm
