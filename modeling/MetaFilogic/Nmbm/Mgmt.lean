import MetaFilogic.Nmbm.Blocks

/-!
# Writing and reading management data

Erasing with a usability check, the verified writes of the signature and of info
tables, and the generation of the info table image.  A block that fails while
management data is written is marked bad and skipped.
-/

namespace MetaFilogic.Nmbm

open Bytes

variable (ld : LowerDevice)

/-- The page loop of `nmbm_erase_block_and_check`. -/
def checkErasedPages (addr : Nat) : Nat → NmbmM Bool
  | 0 => return true
  | pages + 1 => do
    let result ← readPhysPage ld addr .placeOob
    cacheData result.2
    if result.1 = -EBADMSG then
      -- Too many bitflips in an empty page
      return false
    else
      checkErasedPages (addr + ld.writesize) pages

def eraseBlockAndCheck (ba : Nat) : NmbmM Bool := do
  let success ← erasePhysBlock ld (ld.ba2addr ba)
  if !success then
    return false
  else
    let ni ← getNi
    if !ni.flags.emptyPageEccOk then
      return true
    else
      checkErasedPages ld (ld.ba2addr ba) ld.pagesPerBlock

/-- Give up a block that failed: `nmbm_mark_phys_bad_block` followed by
`nmbm_set_block_state(ni, ba, BLOCK_ST_BAD)`. -/
def retireBlock (ba : Nat) : NmbmM Unit := do
  let _ ← markPhysBadBlock ld ba
  setBlockState ba BLOCK_ST_BAD

/-- The loop of `nmbm_erase_range` over the next blocks below the limit. -/
def eraseRangeLoop : Nat → Nat → NmbmM Unit
  | 0, _ => return ()
  | blocks + 1, ba => do
    let ni ← getNi
    if ni.getBlockState ba ≠ BLOCK_ST_GOOD then
      eraseRangeLoop blocks (ba + 1)
    else if ← checkBadPhysBlock ld ba then
      -- Insurance to detect unexpected bad block marked by user
      setBlockState ba BLOCK_ST_BAD
      eraseRangeLoop blocks (ba + 1)
    else if ← eraseBlockAndCheck ld ba then
      eraseRangeLoop blocks (ba + 1)
    else
      retireBlock ld ba
      eraseRangeLoop blocks (ba + 1)

def eraseRange (ba limit : Nat) : NmbmM Unit :=
  eraseRangeLoop ld (limit - ba) ba

/-- The page loop of `nmbm_write_repeated_data`. -/
def writeRepeatedPages (data : List Byte) (addr : Nat) : Nat → NmbmM Bool
  | 0 => return true
  | pages + 1 => do
    -- Prepare page data. fill 0xff to unused region
    modifyNi fun ni =>
      { ni with pageCache :=
          ⟨data ++ fill (ld.writesize - data.length) 0xff, fill ld.oobsize 0xff⟩ }
    let ni ← getNi
    let success ← writePhysPage ld addr (some ni.pageCache.data) none .placeOob
    if !success then
      return false
    else
      -- Verify the data just written. ECC error indicates failure
      let result ← readPhysPage ld addr .placeOob
      cacheData result.2
      if result.1 < 0 then
        return false
      else if result.2.data.take data.length ≠ data then
        return false
      else
        writeRepeatedPages data (addr + ld.writesize) pages

def writeRepeatedData (ba : Nat) (data : List Byte) : NmbmM Bool :=
  if data.length > ld.writesize then
    return false
  else
    writeRepeatedPages ld data (ld.ba2addr ba) ld.pagesPerBlock

/-- The loop of `nmbm_write_signature` over the next blocks above the limit; the
result is the block the signature was written to. -/
def writeSignatureLoop (signature : List Byte) : Nat → Nat → NmbmM (Option Nat)
  | 0, _ => return none
  | blocks + 1, ba => do
    let ni ← getNi
    if ni.getBlockState ba ≠ BLOCK_ST_GOOD then
      writeSignatureLoop signature blocks (ba - 1)
    else if ← checkBadPhysBlock ld ba then
      -- Insurance to detect unexpected bad block marked by user
      setBlockState ba BLOCK_ST_BAD
      writeSignatureLoop signature blocks (ba - 1)
    else if !(← eraseBlockAndCheck ld ba) then
      retireBlock ld ba
      writeSignatureLoop signature blocks (ba - 1)
    else if ← writeRepeatedData ld ba signature then
      return some ba
    else
      retireBlock ld ba
      writeSignatureLoop signature blocks (ba - 1)

def writeSignature (limit : Nat) (signature : Signature) : NmbmM (Option Nat) := do
  note (.signatureWrite limit signature.bytes)
  let ba := subU32 ld.blockCount 1
  writeSignatureLoop ld signature.bytes (ba - limit) ba

/-- The loop of `nmbn_read_data`: the remaining `sizeremain` bytes from `off` on,
behind the bytes already delivered.  Each round delivers at least one byte. -/
def nmbnReadDataLoop : Nat → Nat → Nat → List Byte → NmbmM (Int × List Byte)
  | 0, _, _, ptr => return (0, ptr)
  | rounds + 1, off, sizeremain, ptr => do
    if sizeremain = 0 then
      return (0, ptr)
    else
      let leading := off &&& ld.writesizeMask
      let chunksize := min (ld.writesize - leading) sizeremain
      let result ← readPhysPage ld (off - leading) .placeOob
      if chunksize ≠ ld.writesize then
        cacheData result.2
      if result.1 < 0 then
        -- A failing full-page read has still filled the caller's buffer
        return (result.1,
          if chunksize = ld.writesize then ptr ++ result.2.data else ptr)
      else
        nmbnReadDataLoop rounds (off + chunksize) (sizeremain - chunksize)
          (ptr ++ (result.2.data.drop leading).take chunksize)

def nmbnReadData (addr size : Nat) : NmbmM (Int × List Byte) :=
  nmbnReadDataLoop ld size addr size []

/-- The loop of `nmbn_write_verify_data`: the bytes `ptr` still to be written from
`off` on.  Each round writes at least one byte. -/
def nmbnWriteVerifyDataLoop : Nat → Nat → List Byte → NmbmM Bool
  | 0, _, _ => return true
  | rounds + 1, off, ptr => do
    if ptr.length = 0 then
      return true
    else
      let leading := off &&& ld.writesizeMask
      let chunksize := min (ld.writesize - leading) ptr.length
      -- Prepare page data. fill 0xff to unused region
      modifyNi fun ni =>
        { ni with pageCache :=
            ⟨patch (fill ld.writesize 0xff) leading (ptr.take chunksize),
              fill ld.oobsize 0xff⟩ }
      let ni ← getNi
      let success ←
        writePhysPage ld (off - leading) (some ni.pageCache.data) none .placeOob
      if !success then
        return false
      else
        -- Verify the data just written. ECC error indicates failure
        let result ← readPhysPage ld (off - leading) .placeOob
        cacheData result.2
        if result.1 < 0 then
          return false
        else if (result.2.data.drop leading).take chunksize ≠ ptr.take chunksize then
          return false
        else
          nmbnWriteVerifyDataLoop rounds (off + chunksize) (ptr.drop chunksize)

def nmbnWriteVerifyData (addr : Nat) (data : List Byte) : NmbmM Bool :=
  nmbnWriteVerifyDataLoop ld data.length addr data

/-- The loop of `nmbm_write_mgmt_range` over the next blocks below the limit:
`ptr` is still to be written and `start` is the block of the first chunk, once
there is one. -/
def writeMgmtRangeLoop : Nat → Nat → List Byte → Option Nat →
    NmbmM (Option (Nat × Nat))
  | 0, ba, ptr, start =>
    return if ptr.length = 0 then some (start.getD 0, ba) else none
  | blocks + 1, ba, ptr, start => do
    if ptr.length = 0 then
      return some (start.getD 0, ba)
    else
      let chunk := ptr.take ld.erasesize
      let ni ← getNi
      if ni.getBlockState ba ≠ BLOCK_ST_GOOD then
        writeMgmtRangeLoop blocks (ba + 1) ptr start
      else if ← checkBadPhysBlock ld ba then
        -- Insurance to detect unexpected bad block marked by user
        setBlockState ba BLOCK_ST_BAD
        writeMgmtRangeLoop blocks (ba + 1) ptr start
      else if !(← eraseBlockAndCheck ld ba) then
        retireBlock ld ba
        writeMgmtRangeLoop blocks (ba + 1) ptr start
      else if ← nmbnWriteVerifyData ld (ld.ba2addr ba) chunk then
        writeMgmtRangeLoop blocks (ba + 1) (ptr.drop chunk.length)
          (some (start.getD ba))
      else
        retireBlock ld ba
        writeMgmtRangeLoop blocks (ba + 1) ptr start

/-- `nmbm_write_mgmt_range`: the actual start block and the block after the end
of the data, or `none` if the data did not fit below the limit. -/
def writeMgmtRange (ba limit : Nat) (data : List Byte) : NmbmM (Option (Nat × Nat)) :=
  writeMgmtRangeLoop ld (limit - ba) ba data none

/-- The header that `nmbm_generate_info_table_cache` leaves in `ni->info_table`. -/
def Instance.nextInfoTable (ni : Instance) : InfoTableHeader :=
  { ni.infoTable with
    header :=
      { ni.infoTable.header with
        magic := NMBM_MAGIC_INFO_TABLE
        version := NMBM_VER
        size := BitVec.ofNat 32 ld.infoTableSize }
    writeCount :=
      if ni.blockStateChanged ≠ 0 ∨ ni.blockMappingChanged ≠ 0 then
        ni.infoTable.writeCount + 1
      else ni.infoTable.writeCount }

def generateInfoTableCache : NmbmM Bool := do
  let ni ← getNi
  let changed : Bool := ni.blockStateChanged ≠ 0 ∨ ni.blockMappingChanged ≠ 0
  let infoTable := ni.nextInfoTable ld
  modifyNi fun ni =>
    { ni with
      infoTable
      infoTableCache := infoTableImage ld infoTable ni.blockState ni.blockMapping }
  return changed

def writeInfoTable (ba limit : Nat) : NmbmM (Option (Nat × Nat)) := do
  let ni ← getNi
  note (.tableWrite ba limit ni.infoTableCache)
  writeMgmtRange ld ba limit ni.infoTableCache

/-- Whether an info table image holds the block states and the mapping that are
in memory. -/
def Instance.describedBy (ni : Instance) (image : List Byte) : Bool :=
  ((List.range ld.stateUnits).all fun unit => imageState image unit == ni.blockState unit) &&
    (List.range ld.blockCount).all fun lb => imageMapping image lb == ni.blockMapping lb

def markTablesClean : NmbmM Unit := do
  let ni ← getNi
  note (.tablesClean (ni.describedBy ld ni.infoTableCache))
  modifyNi fun ni => { ni with blockStateChanged := 0, blockMappingChanged := 0 }

end MetaFilogic.Nmbm
