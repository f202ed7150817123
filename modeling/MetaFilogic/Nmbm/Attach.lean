import MetaFilogic.Nmbm.Tables

/-!
# Attaching to a chip

Creating the management data on a new chip, searching and loading it on one that
has it, and `nmbm_attach` itself.
-/

namespace MetaFilogic.Nmbm

open Bytes

variable (ld : LowerDevice)

/-! ## Creation -/

/-- `max_ratio` after the defaulting in `nmbm_check_lower_members`. -/
def LowerDevice.effectiveMaxRatio : Nat :=
  if ld.maxRatio = 0 then 1 else ld.maxRatio

/-- The boundary of the management blocks computed by `nmbm_create_new`. -/
def LowerDevice.mgmtStart : Nat :=
  let start :=
    u32 (ld.blockCount * subU32 NMBM_MGMT_DIV ld.effectiveMaxRatio) / NMBM_MGMT_DIV
  if ld.maxReservedBlocks ≠ 0 ∧ subU32 ld.blockCount start > ld.maxReservedBlocks then
    subU32 ld.blockCount ld.maxReservedBlocks
  else start

def newSignature (mgmtStartBa : Nat) : Signature :=
  let signature : Signature :=
    { header := ⟨NMBM_MAGIC_SIGNATURE, NMBM_VER, BitVec.ofNat 32 signatureSize, 0⟩
      nandSize := BitVec.ofNat 64 ld.size
      blockSize := BitVec.ofNat 32 ld.erasesize
      pageSize := BitVec.ofNat 32 ld.writesize
      spareSize := BitVec.ofNat 32 ld.oobsize
      mgmtStartPb := BitVec.ofNat 32 mgmtStartBa
      maxTryCount := BitVec.ofNat 8 NMBM_TRY_COUNT }
  -- nmbm_update_checksum
  { signature with
    header := { signature.header with checksum := nmbmCrc32 0 signature.bytes } }

def createNew : NmbmM Bool := do
  -- Determine the boundary of management blocks
  modifyNi fun ni => { ni with mgmtStartBa := ld.mgmtStart }
  -- Fill block state table & mapping table
  scanBadblocks ld
  buildMappingTable ld
  modifyNi fun ni => { ni with signature := newSignature ld ni.mgmtStartBa }
  let ni ← getNi
  if ni.flags.readOnly then
    return true
  else
    -- Write signature
    match ← writeSignature ld ni.mgmtStartBa ni.signature with
    | none => return false
    | some signatureBa =>
      modifyNi fun ni => { ni with signatureBa }
      -- Write info table(s)
      createInfoTable ld

/-! ## Loading -/

/-- The first loop of `nmbm_check_info_table`: no entry points into the
management area or at the signature; the result is the lowest entry above the
table. -/
def checkMapping (ni : Instance) (endBa : Nat) (image : List Byte) : Option Nat :=
  (List.range ni.dataBlockCount).foldlM (fun minimum lb =>
    let pb := (imageMapping image lb).toNat
    if (ni.dataBlockCount ≤ pb ∧ pb < endBa) ∨ pb = ni.signatureBa then
      none
    else if endBa ≤ pb ∧ pb < minimum then
      some pb
    else
      some minimum) ni.signatureBa

/-- `nmbm_check_info_table`; the result is `mapping_blocks_top_ba`. -/
def checkInfoTable (ni : Instance) (startBa endBa : Nat) (image : List Byte) :
    Option Nat :=
  match checkMapping ni endBa image with
  | none => none
  | some minimumMappingPb =>
    if (List.range' startBa (endBa - startBa)).all fun ba =>
        ni.getBlockState ba ≠ BLOCK_ST_GOOD ∨
          getBlockStateRaw (imageState image) ba = BLOCK_ST_GOOD then
      some (subU32 minimumMappingPb 1)
    else
      none

/-- The block loop of `nmbm_try_load_info_table` over the blocks of its window:
`off` bytes have been read into the cache.  The result is the first block read
and the block after the last one, or `none` for an early `return false`. -/
def tryLoadLoop : Nat → Nat → Nat → Option Nat → NmbmM (Option (Nat × Nat × Nat))
  | 0, ba, off, startBa => return some (startBa.getD 0, ba, off)
  | blocks + 1, ba, off, startBa => do
    if ld.infoTableSize ≤ off then
      return some (startBa.getD 0, ba, off)
    else
      let ni ← getNi
      if ni.getBlockState ba ≠ BLOCK_ST_GOOD then
        tryLoadLoop blocks (ba + 1) off startBa
      else if ← checkBadPhysBlock ld ba then
        setBlockState ba BLOCK_ST_BAD
        tryLoadLoop blocks (ba + 1) off startBa
      else
        let chunksize := min (ld.infoTableSize - off) ld.erasesize
        -- Assume block with ECC error has no info table data
        let result ← nmbnReadData ld (ld.ba2addr ba) chunksize
        modifyNi fun ni =>
          { ni with infoTableCache := patch ni.infoTableCache off result.2 }
        if result.1 < 0 then
          -- Only mark bad in memory
          setBlockState ba BLOCK_ST_BAD
          tryLoadLoop blocks (ba + 1) off startBa
        else if result.1 > 0 then
          return none
        else
          let ni ← getNi
          if startBa.isNone ∧
              !checkInfoTableHeader ld (ni.infoTableCache.drop off) then
            return none
          else
            tryLoadLoop blocks (ba + 1) (off + chunksize) (some (startBa.getD ba))

def Instance.takeTables (ni : Instance) (image : List Byte) : Instance :=
  { ni with
    infoTable := InfoTableHeader.parse image
    blockState := fun unit =>
      if unit < ld.stateUnits then imageState image unit else ni.blockState unit
    blockMapping := fun lb =>
      if lb < ld.mappingTableSize / 4 then imageMapping image lb else ni.blockMapping lb }

def tryLoadInfoTable (ba : Nat) (tableLoaded : Bool) : NmbmM (Option LoadedTable) := do
  match ← tryLoadLoop ld (ld.size2blk ld.infoTableSize) ba 0 none with
  | none => return none
  | some (startBa, endBa, off) =>
    let ni ← getNi
    let image := ni.infoTableCache
    if off < ld.infoTableSize then
      return none
    else if !checkHeader image ld.infoTableSize then
      return none
    else
      match checkInfoTable ni startBa endBa image with
      | none => return none
      | some mappingBlocksTopBa =>
        if !tableLoaded ∨ ni.infoTable.writeCount < imageWriteCount image then
          modifyNi fun ni => ni.takeTables ld image
        return some ⟨ba, endBa, imageWriteCount image, mappingBlocksTopBa, image⟩

/-- The loop of `nmbm_search_info_table` over the next candidate blocks. -/
def searchInfoTableLoop (tableLoaded : Bool) : Nat → Nat → NmbmM (Option LoadedTable)
  | 0, _ => return none
  | blocks + 1, ba => do
    match ← tryLoadInfoTable ld ba tableLoaded with
    | some table => return some table
    | none => searchInfoTableLoop tableLoaded blocks (ba + 1)

def searchInfoTable (ba limit : Nat) (tableLoaded : Bool) : NmbmM (Option LoadedTable) :=
  searchInfoTableLoop ld tableLoaded
    (subU32 limit (ld.size2blk ld.infoTableSize) - ba) ba

/-- One more than the highest logical block below `bound` that is mapped. -/
def highestMapped (mapping : Nat → BitVec 32) : Nat → Option Nat
  | 0 => none
  | bound + 1 =>
    if 0 ≤ (mapping bound).toInt then some (bound + 1) else highestMapped mapping bound

/-- The part of `nmbm_load_info_table` after the tables have been found: pick the
boundaries and the capacity from them. -/
def settleLoadedTables (main : LoadedTable) (backup : Option LoadedTable) : NmbmM Unit :=
  modifyNi fun ni =>
    { ni with
      mappingBlocksTopBa :=
        match backup with
        | none => main.mappingBlocksTopBa
        | some backup =>
          if main.writeCount ≥ backup.writeCount then main.mappingBlocksTopBa
          else backup.mappingBlocksTopBa
      mappingBlocksBa :=
        match backup with
        | none => main.endBa
        | some backup => backup.endBa
      dataBlockCount :=
        (highestMapped ni.blockMapping ni.signature.mgmtStartPb.toNat).getD
          ni.dataBlockCount }

/-- The part of `nmbm_load_info_table` that brings the tables on flash up to
date; the result is the value of `success`. -/
def repairLoadedTables (main : LoadedTable) (backup : Option LoadedTable) :
    NmbmM Bool := do
  match backup with
  | none =>
    -- If only one table exists, try to write another table
    rescueSingleInfoTable ld
  | some backup =>
    if main.writeCount ≠ backup.writeCount then
      -- Mark state & mapping tables changed
      modifyNi fun ni => { ni with blockStateChanged := 1, blockMappingChanged := 1 }
      updateSingleInfoTable ld (main.writeCount < backup.writeCount)
    else
      return true

def loadInfoTable (ba limit : Nat) : NmbmM Bool := do
  -- Set initial value
  modifyNi fun ni =>
    { ni with
      mainTableBa := 0
      backupTableBa := 0
      infoTable := { ni.infoTable with writeCount := 0 }
      mappingBlocksTopBa := subU32 ni.signatureBa 1
      dataBlockCount := ni.signature.mgmtStartPb.toNat }
  -- Find first info table
  match ← searchInfoTable ld ba limit false with
  | none => return false
  | some main =>
    modifyNi fun ni => { ni with mainTableBa := main.startBa }
    -- Find second info table
    let backup ← searchInfoTable ld main.endBa limit true
    modifyNi fun ni =>
      { ni with backupTableBa := backup.elim ni.backupTableBa LoadedTable.startBa }
    let ni ← getNi
    note (.tablesFound ni.flags.readOnly ni.signatureBa main backup)
    settleLoadedTables main backup
    -- Regenerate the info table cache from the final selected info table
    let _ ← generateInfoTableCache ld
    let ni ← getNi
    if ni.flags.readOnly then
      return true
    else
      let success ← repairLoadedTables ld main backup
      -- If there is no spare unmapped blocks, or still only one table exists,
      -- set the chip to read-only
      modifyNi fun ni =>
        { ni with
          isProtected :=
            ni.isProtected || ni.mappingBlocksBa == ni.mappingBlocksTopBa || !success }
      return true

def loadExisting : NmbmM Bool := do
  -- Calculate the boundary of management blocks
  modifyNi fun ni => { ni with mgmtStartBa := ni.signature.mgmtStartPb.toNat }
  let ni ← getNi
  -- Look for info table(s)
  if ← loadInfoTable ld ni.mgmtStartBa ni.signatureBa then
    return true
  else if !ni.flags.create then
    return false
  else
    -- Fill block state table & mapping table
    scanBadblocks ld
    buildMappingTable ld
    if ni.flags.readOnly then
      return true
    else
      -- Write info table(s)
      createInfoTable ld

/-! ## Attach and detach -/

/-- The page loop of `nmbm_find_signature` in one block. -/
def findSignatureInPages (addr : Nat) : Nat → NmbmM (Option Signature)
  | 0 => return none
  | pages + 1 => do
    let result ← nmbnReadData ld addr signatureSize
    let sig := Signature.parse result.2
    if result.1 = 0 ∧ checkHeader result.2 signatureSize ∧
        sig.header.magic = NMBM_MAGIC_SIGNATURE then
      return some sig
    else
      findSignatureInPages (addr + ld.writesize) pages

/-- The loop of `nmbm_find_signature`.  A chip of fewer blocks than the loop bound
expects makes it wrap around for ever; `none` is the outcome of a search that
has not ended after the given number of rounds. -/
def findSignatureLoop (limit : Nat) :
    Nat → Nat → NmbmM (Option (Option (Signature × Nat)))
  | 0, _ => return none
  | rounds + 1, ba => do
    if ba < limit then
      return some none
    else
      let ba := subU32 ba 1
      if ← checkBadPhysBlock ld ba then
        findSignatureLoop limit rounds ba
      else
        match ← findSignatureInPages ld (ld.ba2addr ba) ld.pagesPerBlock with
        | some sig => return some (some (sig, ba))
        | none => findSignatureLoop limit rounds ba

/-- The lower bound of the blocks `nmbm_find_signature` looks at. -/
def LowerDevice.signatureLimit : Nat :=
  let limit := ld.blockCount / NMBM_MGMT_DIV * subU32 NMBM_MGMT_DIV ld.effectiveMaxRatio
  if ld.maxReservedBlocks ≠ 0 ∧ subU32 ld.blockCount limit > ld.maxReservedBlocks then
    subU32 ld.blockCount ld.maxReservedBlocks
  else limit

/-- `nmbm_find_signature`, searching for at most `rounds` blocks. -/
def findSignature (rounds : Nat) : NmbmM (Option (Option (Signature × Nat))) :=
  findSignatureLoop ld ld.signatureLimit rounds ld.blockCount

def isPowerOf2 (n : Nat) : Bool := n ≠ 0 ∧ n &&& (n - 1) = 0

def checkLowerMembers (flags : Flags) : Bool :=
  isPowerOf2 ld.size && isPowerOf2 ld.erasesize && isPowerOf2 ld.writesize &&
    ld.oobsize ≠ 0 && ld.hasReadPage &&
    (flags.readOnly || (ld.hasWritePage && ld.hasEraseBlock)) &&
    ld.effectiveMaxRatio < NMBM_MGMT_DIV - 1 &&
    (ld.maxReservedBlocks = 0 || NMBM_MGMT_BLOCKS_MIN ≤ ld.maxReservedBlocks)

def initStructure (flags : Flags) : Instance where
  flags
  signature := ⟨⟨0, 0, 0, 0⟩, 0, 0, 0, 0, 0, 0⟩
  infoTableCache := fill ld.infoTableSize 0
  infoTable :=
    ⟨⟨0, 0, 0, 0⟩, 0, BitVec.ofNat 32 ld.stateTableOff,
      BitVec.ofNat 32 ld.mappingTableOff, 0⟩
  blockState := fun unit => if unit < ld.stateUnits then -1 else 0
  blockStateChanged := 0
  blockMapping := fun _ => 0
  blockMappingChanged := 0
  pageCache := ⟨fill ld.writesize 0, fill ld.oobsize 0⟩
  isProtected := false
  dataBlockCount := 0
  mgmtStartBa := 0
  mainTableBa := 0
  backupTableBa := 0
  mappingBlocksBa := 0
  mappingBlocksTopBa := 0
  signatureBa := 0

/-- `nmbm_attach` after the check of the lower device; `none` while the signature
search has not ended. -/
def attachInstance (flags : Flags) (rounds : Nat) : NmbmM (Option Int) := do
  modifyNi fun _ => initStructure ld flags
  match ← findSignature ld rounds with
  | none => return none
  | some none =>
    if !flags.create then
      return some (-ENODEV)
    else if ← createNew ld then
      return some 0
    else
      return some (-ENODEV)
  | some (some (signature, signatureBa)) =>
    note (.signatureFound signatureBa signature)
    modifyNi fun ni => { ni with signature, signatureBa }
    if signature.header.version ≠ NMBM_VER then
      return some (-EINVAL)
    else if signature.nandSize ≠ BitVec.ofNat 64 ld.size ∨
        signature.blockSize ≠ BitVec.ofNat 32 ld.erasesize ∨
        signature.pageSize ≠ BitVec.ofNat 32 ld.writesize ∨
        signature.spareSize ≠ BitVec.ofNat 32 ld.oobsize then
      return some (-EINVAL)
    else if ← loadExisting ld then
      return some 0
    else
      return some (-ENODEV)

def attach (flags : Flags) (rounds : Nat) : NmbmM (Option Int) :=
  if checkLowerMembers ld flags then
    attachInstance ld flags rounds
  else
    return some (-EINVAL)

def detach : NmbmM Int := do
  let ni ← getNi
  if !ni.flags.readOnly then
    let _ ← updateInfoTable ld
  return 0

end MetaFilogic.Nmbm
