import MetaFilogic.Nmbm.Attach

/-!
# The public block and page operations

Erasing, reading, writing and marking logical blocks.  Addresses are byte
addresses in the logical space; sums of an address and a length are those of
`uint64_t`.
-/

namespace MetaFilogic.Nmbm

open Bytes

variable (ld : LowerDevice)

/-- Addition of `uint64_t` values. -/
def addU64 (left right : Nat) : Nat := (left + right) % 2 ^ 64

def isUnmapped (entry : BitVec 32) : Prop := entry.toInt < 0

instance (entry : BitVec 32) : Decidable (isUnmapped entry) := by
  unfold isUnmapped
  infer_instance

/-! ## Erase -/

/-- The end of `nmbm_erase_logic_block` for a block without a spare: mark the
logic block unusable, and update the info table. -/
def giveUpLogicBlock (blockAddr pb : Nat) : NmbmM Unit := do
  modifyNi fun ni =>
    { ni with
      blockMapping := fun other =>
        if other = blockAddr then unmappedEntry else ni.blockMapping other }
  let ni ← getNi
  if ni.getBlockState pb ≠ BLOCK_ST_NEED_REMAP then
    setBlockState pb BLOCK_ST_BAD
  let ni ← getNi
  note (.unmapped (ni.blockStateChanged ≠ 0 ∨ ni.blockMappingChanged ≠ 0))
  let _ ← updateInfoTable ld

/-- Whether the block a logical block is mapped to can be erased now; a block that
cannot be used is recorded as bad. -/
def eraseMappedBlock (pb : Nat) : NmbmM Bool := do
  let ni ← getNi
  -- Remap logic block if current physical block is a bad block
  if ni.getBlockState pb = BLOCK_ST_BAD ∨ ni.getBlockState pb = BLOCK_ST_NEED_REMAP then
    return false
  else if ← checkBadPhysBlock ld pb then
    -- Insurance to detect unexpected bad block marked by user
    setBlockState pb BLOCK_ST_BAD
    return false
  else if ← eraseBlockAndCheck ld pb then
    return true
  else
    -- Mark bad block
    retireBlock ld pb
    return false

/-- The rounds of `nmbm_erase_logic_block` from the label `retry` on.  Every round
that repeats has lowered `mapping_blocks_top_ba`. -/
def eraseLogicBlockLoop (blockAddr : Nat) : Nat → NmbmM Int
  | 0 => return - EIO
  | rounds + 1 => do
    let ni ← getNi
    -- Map logic block to physical block
    let pb := ni.blockMapping blockAddr
    -- Whether the logic block is good (has valid mapping)
    if isUnmapped pb then
      return - EIO
    else if ← eraseMappedBlock ld pb.toNat then
      return 0
    else if ← mapBlock ld blockAddr then
      -- Update info table before erasing
      let ni ← getNi
      if ni.getBlockState pb.toNat ≠ BLOCK_ST_NEED_REMAP then
        setBlockState pb.toNat BLOCK_ST_BAD
      let _ ← updateInfoTable ld
      eraseLogicBlockLoop blockAddr rounds
    else
      giveUpLogicBlock ld blockAddr pb.toNat
      return - EIO

def eraseLogicBlock (blockAddr : Nat) : NmbmM Int := do
  let ni ← getNi
  eraseLogicBlockLoop ld blockAddr (ni.mappingBlocksTopBa + 2)

/-- The loop of `nmbm_erase_block_range`; the second component is the failed
address. -/
def eraseBlocksFrom (startBa : Nat) : Nat → NmbmM (Int × Option Nat)
  | 0 => return (0, none)
  | blocks + 1 => do
    let ret ← eraseLogicBlock ld startBa
    if ret ≠ 0 then
      return (ret, some (ld.ba2addr startBa))
    else
      eraseBlocksFrom (startBa + 1) blocks

def eraseBlockRange (addr size : Nat) : NmbmM (Int × Option Nat) := do
  let ni ← getNi
  if ni.isProtected ∨ ni.flags.readOnly then
    return (-EROFS, none)
  else if addr ≥ ld.ba2addr ni.dataBlockCount then
    return (-EINVAL, none)
  else if addU64 addr size > ld.ba2addr ni.dataBlockCount then
    return (-EINVAL, none)
  else if size = 0 then
    return (0, none)
  else
    let startBa := ld.addr2ba addr
    let endBa := ld.addr2ba (addU64 addr (size - 1))
    eraseBlocksFrom ld startBa (endBa + 1 - startBa)

/-! ## Read -/

def readLogicPage (addr : Nat) (mode : OobMode) : NmbmM (Int × PageData) := do
  let ni ← getNi
  -- Extract block address and in-block offset
  let lb := ld.addr2ba addr
  let offset := addr &&& ld.erasesizeMask
  -- Map logic block to physical block
  let pb := ni.blockMapping lb
  if isUnmapped pb then
    return (- EIO, ⟨[], []⟩)
  else if ni.getBlockState pb.toNat = BLOCK_ST_BAD then
    -- Fail if physical block is marked bad
    return (- EIO, ⟨[], []⟩)
  else
    -- Assemble new address
    readPhysPage ld (ld.ba2addr pb.toNat + offset) mode

def readSinglePage (addr : Nat) (mode : OobMode) : NmbmM (Int × PageData) := do
  let ni ← getNi
  if ni.isProtected then
    return (-EROFS, ⟨[], []⟩)
  else if addr ≥ ld.ba2addr ni.dataBlockCount then
    return (-EINVAL, ⟨[], []⟩)
  else
    readLogicPage ld addr mode

/-- The outcome of `nmbm_read_range`: the return value, the bytes stored in the
buffer and `*retlen`, if it was set. -/
structure RangeRead where
  ret : Int
  data : List Byte
  retlen : Option Nat

/-- The loop of `nmbm_read_range`; `ptr` holds the bytes stored so far. -/
def readRangeLoop (size : Nat) (mode : OobMode) :
    Nat → Nat → Nat → List Byte → Bool → Int → NmbmM RangeRead
  | 0, _, sizeremain, ptr, hasEccErr, maxBitflips =>
    return ⟨if hasEccErr then -EBADMSG else maxBitflips, ptr, some (size - sizeremain)⟩
  | rounds + 1, off, sizeremain, ptr, hasEccErr, maxBitflips => do
    if sizeremain = 0 then
      return ⟨if hasEccErr then -EBADMSG else maxBitflips, ptr, some (size - sizeremain)⟩
    else
      let leading := off &&& ld.writesizeMask
      let chunksize := min (ld.writesize - leading) sizeremain
      let result ← readLogicPage ld (off - leading) mode
      if chunksize ≠ ld.writesize then
        cacheData result.2
      if result.1 < 0 ∧ result.1 ≠ -EBADMSG then
        return ⟨result.1, ptr, some (size - sizeremain)⟩
      else
        readRangeLoop size mode rounds (off + chunksize) (sizeremain - chunksize)
          (ptr ++ (result.2.data.drop leading).take chunksize)
          (hasEccErr || result.1 = -EBADMSG) (max maxBitflips result.1)

def readRange (addr size : Nat) (mode : OobMode) : NmbmM RangeRead := do
  let ni ← getNi
  if ni.isProtected then
    return ⟨-EROFS, [], none⟩
  else if addr ≥ ld.ba2addr ni.dataBlockCount then
    return ⟨-EINVAL, [], none⟩
  else if addU64 addr size > ld.ba2addr ni.dataBlockCount then
    return ⟨-EINVAL, [], none⟩
  else if size = 0 then
    return ⟨0, [], none⟩
  else
    readRangeLoop ld size mode size addr size [] false 0

/-! ## Write -/

/-- What `nmbm_write_logic_page` and `nmbm_panic_write_logic_page` share: find the
physical page, write it with `write`, and on failure mark the block for
remapping on the next erase. -/
def writeThroughMapping (addr : Nat) (write : Nat → NmbmM Bool) : NmbmM Int := do
  let ni ← getNi
  -- Extract block address and in-block offset
  let lb := ld.addr2ba addr
  let offset := addr &&& ld.erasesizeMask
  -- Map logic block to physical block
  let pb := ni.blockMapping lb
  if isUnmapped pb then
    return - EIO
  else if ni.getBlockState pb.toNat = BLOCK_ST_BAD then
    -- Fail if physical block is marked bad
    return - EIO
  else if ← write (ld.ba2addr pb.toNat + offset) then
    return 0
  else
    -- Do not remap bad block here. Just mark this block in state table.
    -- Remap this block on erasing.
    setBlockState pb.toNat BLOCK_ST_NEED_REMAP
    let _ ← updateInfoTable ld
    return - EIO

def writeLogicPage (addr : Nat) (data oob : Option (List Byte)) (mode : OobMode) :
    NmbmM Int :=
  writeThroughMapping ld addr fun paddr => writePhysPage ld paddr data oob mode

def panicWriteLogicPage (addr : Nat) (data : Option (List Byte)) : NmbmM Int :=
  if !ld.hasPanicWritePage then
    return -ENOTSUPP
  else
    writeThroughMapping ld addr fun paddr => panicWritePhysPage ld paddr data

def writeSinglePage (addr : Nat) (data oob : Option (List Byte)) (mode : OobMode) :
    NmbmM Int := do
  let ni ← getNi
  if ni.isProtected ∨ ni.flags.readOnly then
    return -EROFS
  else if addr ≥ ld.ba2addr ni.dataBlockCount then
    return -EINVAL
  else
    writeLogicPage ld addr data oob mode

def panicWriteSinglePage (addr : Nat) (data : Option (List Byte)) : NmbmM Int := do
  let ni ← getNi
  if ni.isProtected ∨ ni.flags.readOnly then
    return -EROFS
  else if addr ≥ ld.ba2addr ni.dataBlockCount then
    return -EINVAL
  else
    panicWriteLogicPage ld addr data

/-- The loop of `nmbm_write_range`: the bytes `ptr` still to be written from `off`
on; the result is the return value and the bytes not written. -/
def writeRangeLoop (mode : OobMode) : Nat → Nat → List Byte → NmbmM (Int × Nat)
  | 0, _, ptr => return (0, ptr.length)
  | rounds + 1, off, ptr => do
    if ptr.length = 0 then
      return (0, 0)
    else
      let leading := off &&& ld.writesizeMask
      let chunksize := min (ld.writesize - leading) ptr.length
      let chunk := ptr.take chunksize
      if chunksize ≠ ld.writesize then
        modifyNi fun ni =>
          { ni with pageCache :=
              { ni.pageCache with
                data := patch (patch ni.pageCache.data 0 (fill leading 0xff)) leading chunk } }
      let ni ← getNi
      let page := if chunksize = ld.writesize then chunk else ni.pageCache.data
      let ret ← writeLogicPage ld (off - leading) (some page) none mode
      if ret ≠ 0 then
        return (ret, ptr.length)
      else
        writeRangeLoop mode rounds (off + chunksize) (ptr.drop chunksize)

/-- `nmbm_write_range`: the return value and `*retlen`, if it was set. -/
def writeRange (addr : Nat) (data : List Byte) (mode : OobMode) :
    NmbmM (Int × Option Nat) := do
  let ni ← getNi
  if ni.isProtected ∨ ni.flags.readOnly then
    return (-EROFS, none)
  else if addr ≥ ld.ba2addr ni.dataBlockCount then
    return (-EINVAL, none)
  else if addU64 addr data.length > ld.ba2addr ni.dataBlockCount then
    return (-EINVAL, none)
  else if data.length = 0 then
    return (0, none)
  else
    let result ← writeRangeLoop ld mode data.length addr data
    return (result.1, some (data.length - result.2))

/-! ## Bad blocks and capacity -/

def checkBadBlock (addr : Nat) : NmbmM Int := do
  let ni ← getNi
  if addr ≥ ld.ba2addr ni.dataBlockCount then
    return -EINVAL
  else
    let pb := ni.blockMapping (ld.addr2ba addr)
    if isUnmapped pb then
      return 1
    else if ni.getBlockState pb.toNat = BLOCK_ST_BAD then
      return 1
    else
      return 0

def markBadBlock (addr : Nat) : NmbmM Int := do
  let ni ← getNi
  if ni.isProtected ∨ ni.flags.readOnly then
    return -EROFS
  else if addr ≥ ld.ba2addr ni.dataBlockCount then
    return -EINVAL
  else
    let lb := ld.addr2ba addr
    -- Map logic block to physical block
    let pb := ni.blockMapping lb
    if isUnmapped pb then
      return 0
    else
      modifyNi fun ni =>
        { ni with
          blockMapping := fun other =>
            if other = lb then unmappedEntry else ni.blockMapping other }
      retireBlock ld pb.toNat
      let ni ← getNi
      note (.unmapped (ni.blockStateChanged ≠ 0 ∨ ni.blockMappingChanged ≠ 0))
      let _ ← updateInfoTable ld
      return 0

def getAvailSize (ni : Instance) : Nat :=
  ni.dataBlockCount <<< ld.erasesizeShift

end MetaFilogic.Nmbm
