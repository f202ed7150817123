import MetaFilogic.Bmt.Core

/-!
# The `bmt-v2` back-end

The bad block table lives in `bbt_buf`, an array of halfwords: the signature and
version, `bb_tbl` with one entry per logical block, and from index `table_size`
of `bb_tbl` on the pairs `bmt_tbl[k]` of the spare pool.  The buffer is kept as
the flat array it is, so an index past the end of `bb_tbl` reaches `bmt_tbl` as
it does in memory.
-/

namespace MetaFilogic.Bmt.V2

def NO_MAPPED : Half := 0
def NORMAL_MAPPED : Half := 1
def BMT_MAPPED : Half := 2
def BMT_TBL_DEF_VAL : Half := 0
def BBPOOL_RATIO : Nat := 2

/-- The two halfwords with the signature `"BMT"` and `BBMT_VERSION`. -/
def SIGNATURE : Half := 0x4d42
def SIGNATURE_VERSION : Half := 0x0254

/-- The spare bytes `"bmt"`. -/
def sig : Nat → Byte
  | 0 => 0x62
  | 1 => 0x6d
  | _ => 0x74

/-- The members of `struct bmt_desc` the back-end changes. -/
structure Memory where
  bbt : Nat → Half
  bmtBlkIdx : Nat
  poolPba : Nat

variable (d : Desc)

/-! ## Members computed by `mtk_bmt_init_v2` -/

def pmtBlock : Nat := u16 (u32 (d.totalBlks + 2 ^ 33 - d.bmtPoolSize % 2 ^ 32 - 2))

def poolLba : Nat := u16 (pmtBlock d + 2)

/-- `mtd->size >> blk_shift`. -/
def mainBlocks : Nat := pmtBlock d

def bbMax : Nat := d.totalBlks * BBPOOL_RATIO / 100

def bmtPgs : Nat := (4 + d.tableSize * 4 + d.pgSize - 1) / d.pgSize

/-- Halfwords of `bbt_buf`. -/
def bufWords : Nat := bmtPgs d * d.pgWords

/-! ## The buffer -/

def bbTbl (m : Memory) (i : Nat) : Half := m.bbt (2 + i)

/-- `bmt_tbl[k].block`. -/
def bmtBlock (m : Memory) (k : Nat) : Half := m.bbt (2 + d.tableSize + 2 * k)

/-- `bmt_tbl[k].mapped`. -/
def bmtMapped (m : Memory) (k : Nat) : Half := m.bbt (2 + d.tableSize + 2 * k + 1)

def Memory.store (m : Memory) (index : Nat) (value : Half) : Memory :=
  { m with bbt := Function.update m.bbt index value }

def setBbTbl (i block : Nat) (m : Memory) : Memory :=
  m.store (2 + i) (BitVec.ofNat 16 block)

def setBmtBlock (k block : Nat) (m : Memory) : Memory :=
  m.store (2 + d.tableSize + 2 * k) (BitVec.ofNat 16 block)

def setBmtMapped (k : Nat) (mapped : Half) (m : Memory) : Memory :=
  m.store (2 + d.tableSize + 2 * k + 1) mapped

/-! ## Scanning the chip -/

/-- `fdm[i]` of a page: the spare bytes from `oob_offset` on. -/
def fdm (page : PageData) (i : Nat) : Byte := page.oob (d.oobOffset + i)

/-- `find_valid_block(block)`; `left` is how often it may still step over a bad
block. -/
def findValidBlockFrom : (left block : Nat) → BmtM Memory Nat
  | left, block => do
    if d.totalBlks ≤ block then
      return 0
    else
      let (ret, _, flash) ← bbtNandRead d (d.blkPg block) 1
      if ret ≠ 0 ∨ fdm d (flash (d.blkPg block)) 0 ≠ 0xff then
        match left with
        | 0 => return 0
        | left + 1 => findValidBlockFrom left (block + 1)
      else
        return block

def findValidBlock (block : Nat) : BmtM Memory Nat :=
  findValidBlockFrom d (bbMax d) block

/-- The loop of `scan_bad_blocks` over `bb_tbl`, from entry `i` on. -/
def scanMainBlocks : (count i : Nat) → BmtM Memory Bool
  | 0, _ => return true
  | count + 1, i => do
    let m ← getMem
    let block ← findValidBlock d (u16 ((bbTbl m (i - 1)).toNat + 1))
    modifyMem (setBbTbl i block)
    if block = 0 then
      return false
    else
      scanMainBlocks count (i + 1)

/-- The loop of `scan_bad_blocks` over the pool: the number of entries filled.
Every round starts at a later block, so there are no more rounds than blocks. -/
def scanPool : (rounds block i : Nat) → BmtM Memory Nat
  | 0, _, i => return i
  | rounds + 1, block, i => do
    let block ← findValidBlock d block
    if block = 0 then
      return i
    else
      modifyMem fun m => setBmtMapped d i NO_MAPPED (setBmtBlock d i block m)
      scanPool rounds (block + 1) (i + 1)

/-- `i - 1` stored in a `u16`. -/
def prevU16 (i : Nat) : Nat := u16 (i + 0xffff)

def scanBadBlocks : BmtM Memory Int := do
  modifyMem (setBbTbl 0 0)
  if !(← scanMainBlocks d (poolLba d - 1) 1) then
    return -1
  else
    let m ← getMem
    let poolPba := u16 ((bbTbl m (max 1 (poolLba d) - 1)).toNat + 1)
    modifyMem fun m => { m with poolPba }
    if (d.totalBlks : Int) - 2 ≤ poolPba then
      return -1
    else
      let i ← scanPool d d.totalBlks poolPba 0
      modifyMem fun m =>
        setBmtMapped d (prevU16 i) BMT_MAPPED { m with bmtBlkIdx := prevU16 i }
      return if i < 1 then -1 else 0

/-! ## The stored table -/

/-- The pages `write_bmt` stores: the buffer page by page, the signature in the
spare area of the first. -/
def tablePages (m : Memory) (first : Nat) (flash : Flash) (page : Nat) : PageData where
  data word := m.bbt ((page - first) * d.pgWords + word)
  oob byte :=
    if page = first ∧ d.oobOffset + OOB_SIGNATURE_OFFSET ≤ byte ∧
        byte < d.oobOffset + OOB_SIGNATURE_OFFSET + 3 then
      sig (byte - d.oobOffset - OOB_SIGNATURE_OFFSET)
    else
      (flash page).oob byte
  readable := true

def writeBmt (block : Nat) : BmtM Memory Int := do
  let m ← getMem
  writeOob d (d.blkPg block) (bmtPgs d) (tablePages d m (d.blkPg block))

def isValidBmt (buf : Nat → Half) (first : PageData) : Bool :=
  buf 0 == SIGNATURE &&
    ((List.range 3).all fun i => fdm d first (OOB_SIGNATURE_OFFSET + i) == sig i) &&
    buf 1 == SIGNATURE_VERSION

/-- `get_bmt_index(bmt)` from entry `i` on; `rest` counts the entries of `bmt_tbl`
left.  An array without an empty entry would be read past its end. -/
def getBmtIndexFrom (m : Memory) : (rest i : Nat) → Nat
  | 0, _ => 0
  | rest + 1, i =>
    if bmtBlock d m i = BMT_TBL_DEF_VAL then
      0
    else if bmtMapped d m i = BMT_MAPPED then
      u16 i
    else
      getBmtIndexFrom m rest (i + 1)

def getBmtIndex (m : Memory) : Nat :=
  getBmtIndexFrom d m d.tableSize 0

/-- One round of the loop of `upload_bmt`: whether the block of entry `n` was
erased and took the table.  An entry whose block fails is emptied. -/
def uploadTo (n : Nat) : BmtM Memory Bool := do
  let m ← getMem
  let block := (bmtBlock d m n).toNat
  if (← bbtNandErase d block) ≠ 0 then
    modifyMem (setBmtBlock d n 0)
    return false
  else
    modifyMem fun m => (m.store 0 SIGNATURE).store 1 SIGNATURE_VERSION
    if (← writeBmt d block) ≠ 0 then
      modifyMem (setBmtBlock d n 0)
      return false
    else
      return true

/-- What `upload_bmt` returns when no entry is left. -/
def NO_SPACE : Nat := 0xffff

/-- `upload_bmt` at an entry; `previous` is what it does when the entry fails. -/
def uploadFrom (n : Nat) (previous : BmtM Memory Nat) : BmtM Memory Nat := do
  let m ← getMem
  if bmtMapped d m n = NORMAL_MAPPED then
    return NO_SPACE
  else if ← uploadTo d n then
    return u16 n
  else
    previous

/-- `upload_bmt(bbt, n)`; below the first entry is the `n < 0` of the source. -/
def uploadBmt : (n : Nat) → BmtM Memory Nat
  | 0 => uploadFrom d 0 (return NO_SPACE)
  | n + 1 => uploadFrom d (n + 1) (uploadBmt n)

/-! ## Mapping -/

def findValidBlockInPool : BmtM Memory Nat := do
  let m ← getMem
  match (List.range m.bmtBlkIdx).find? fun i =>
      bmtBlock d m i != 0 && bmtMapped d m i == NO_MAPPED with
  | none => return 0
  | some i =>
    modifyMem (setBmtMapped d i NORMAL_MAPPED)
    return (bmtBlock d m i).toNat

/-- `bmtd.bmt_blk_idx = upload_bmt(bbt, bmtd.bmt_blk_idx)`. -/
def refreshBmt : BmtM Memory Unit := do
  let m ← getMem
  let bmtBlkIdx ← uploadBmt d m.bmtBlkIdx
  modifyMem fun m => { m with bmtBlkIdx }

def remapBlockV2 (block mapped copyLen : Nat) : BmtM Memory Bool := do
  let newBlock ← findValidBlockInPool d
  if newBlock = 0 then
    return false
  else
    modifyMem (setBbTbl block newBlock)
    let _ ← bbtNandErase d newBlock
    if 0 < copyLen then
      let _ ← bbtNandCopy d newBlock mapped copyLen
    refreshBmt d
    return true

def getMappingBlockIndexV2 (m : Memory) (block : Nat) : Nat :=
  if poolLba d ≤ block then
    block
  else if (mappingBlockInRange d block).isNone then
    block
  else
    (bbTbl m block).toNat

def unmapBlockV2 (block : Nat) : BmtM Memory Unit := do
  modifyMem (setBbTbl block block)
  refreshBmt d

/-- `mtk_bmt_get_mapping_mask()`: which pool entries below `bmt_blk_idx` are the
first with the block of some relocated logical block. -/
def mtkBmtGetMappingMask (m : Memory) (k : Nat) : Bool :=
  (List.range (mainBlocks d)).any fun i =>
    1 ≤ i && (bbTbl m i).toNat != i &&
      ((List.range m.bmtBlkIdx).find? fun k => bbTbl m i == bmtBlock d m k) == some k

/-- The loop of `mtk_bmt_debug_v2(100)` over the entries `0 … bmt_blk_idx`: the
table it leaves and how many entries it freed. -/
def freeUnused (used : Nat → Bool) (count : Nat) (m : Memory) : Memory × Nat :=
  (List.range count).foldl (fun (m, freed) i =>
    if bmtMapped d m i ≠ NORMAL_MAPPED ∨ used i then
      (m, freed)
    else
      (setBmtMapped d i NO_MAPPED m, freed + 1)) (m, 0)

/-- `mtk_bmt_debug_v2(data, 100)`. -/
def reclaimV2 : BmtM Memory Unit := do
  let m ← getMem
  let (freed, nRemap) := freeUnused d (mtkBmtGetMappingMask d m) (m.bmtBlkIdx + 1) m
  modifyMem fun _ => freed
  if nRemap ≠ 0 then
    refreshBmt d

/-! ## Initialisation -/

/-- `bbt_buf` as a read of the table at a block leaves it. -/
def loaded (flash : Flash) (block : Nat) (m : Memory) : Memory :=
  { m with bbt := fun word =>
      if word < bufWords d then
        (flash (d.blkPg block + word / d.pgWords)).data (word % d.pgWords)
      else
        m.bbt word }

/-- `bbt_buf` as a failing read leaves it. -/
def spoiled (fault : Fault) (m : Memory) : Memory :=
  match fault.readLeaves with
  | none => m
  | some left =>
    { m with bbt := fun word => if word < bufWords d then left word else m.bbt word }

/-- The search loop of `mtk_bmt_init_v2` over the `count` blocks from `pool_lba`
on, topmost first; whether a table was found.  With `pool_lba` zero the loop of
the source would start over where this one gives up. -/
def searchBmt : (count : Nat) → BmtM Memory Bool
  | 0 => return false
  | count + 1 => do
    let block := poolLba d + count
    let (ret, fault, flash) ← bbtNandRead d (d.blkPg block) (bmtPgs d)
    if ret ≠ 0 then
      modifyMem (spoiled d fault)
      searchBmt count
    else
      modifyMem (loaded d flash block)
      let m ← getMem
      if !isValidBmt d m.bbt (flash (d.blkPg block)) then
        searchBmt count
      else
        modifyMem fun m => { m with bmtBlkIdx := getBmtIndex d m }
        return getBmtIndex d m ≠ 0

/-- `bbt_buf` after `kzalloc` and `memset`. -/
def freshBuffer (word : Nat) : Half :=
  if word < bufWords d then 0xffff else 0

def loadBmt : BmtM Memory Bool := do
  modifyMem fun m => { m with bbt := freshBuffer d }
  searchBmt d (d.totalBlks - poolLba d)

/-- `memset(bmt_tbl(bbt), BMT_TBL_DEF_VAL, …)`. -/
def clearBmtTbl (m : Memory) : Memory :=
  { m with bbt := fun word =>
      if 2 + d.tableSize ≤ word ∧ word < 2 + 3 * d.tableSize then
        BMT_TBL_DEF_VAL
      else
        m.bbt word }

/-- The part of `mtk_bmt_init_v2` for a chip without a table. -/
def createBmt : BmtM Memory Int := do
  if d.tableSize + d.tableSize * BBPOOL_RATIO / 100 < d.totalBlks then
    return -1
  else
    modifyMem (clearBmtTbl d)
    if (← scanBadBlocks d) ≠ 0 then
      return -1
    else
      refreshBmt d
      let m ← getMem
      return if m.bmtBlkIdx = NO_SPACE then -1 else 0

def mtkBmtInitV2 : BmtM Memory Int := do
  if ← loadBmt d then
    return 0
  else
    createBmt d

end MetaFilogic.Bmt.V2
