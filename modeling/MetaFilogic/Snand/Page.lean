import MetaFilogic.Snand.Io
import MetaFilogic.Library.Memory

/-!
# Writing pages and erasing blocks

A page goes to the chip by way of `page_cache`, either as it is or through the formatter and the
ECC engine of the NFI.
-/

namespace MetaFilogic.Snand

open Memory

variable (bus : Bus) (snf : MtkSnand)

/-! ## Bad mark swaps -/

def noSwap : Bool := !snf.nfiSoc.bbmSwap || snf.eccSteps = 1

def mtkSnandBmSwapRaw (cache : Bytes) : Bytes :=
  if noSwap snf then cache
  else
    let fdmBbmPos := (snf.eccSteps - 1) * snf.rawSectorSize + snf.nfiSoc.sectorSize
    swap cache fdmBbmPos snf.writesize

def mtkSnandBmSwap (cache : Bytes) : Bytes :=
  if noSwap snf then cache
  else
    let bufBbmPos := subU32 snf.writesize ((snf.eccSteps - 1) * snf.sparePerSector)
    let fdmBbmPos := snf.writesize + (snf.eccSteps - 1) * snf.nfiSoc.fdmSize
    swap cache fdmBbmPos bufBbmPos

def mtkSnandFdmBmSwapRaw (cache : Bytes) : Bytes :=
  if noSwap snf then cache
  else
    let fdmBbmPos1 := snf.nfiSoc.sectorSize
    let fdmBbmPos2 := (snf.eccSteps - 1) * snf.rawSectorSize + snf.nfiSoc.sectorSize
    swap cache fdmBbmPos1 fdmBbmPos2

def mtkSnandFdmBmSwap (cache : Bytes) : Bytes :=
  if noSwap snf then cache
  else
    let fdmBbmPos1 := snf.writesize
    let fdmBbmPos2 := snf.writesize + (snf.eccSteps - 1) * snf.nfiSoc.fdmSize
    swap cache fdmBbmPos1 fdmBbmPos2

/-! ## Raw pages -/

def eccBytesOf : Nat := subU32 snf.sparePerSector snf.nfiSoc.fdmSize

/-- A pass of the loop of `mtk_snand_to_raw_page`. -/
def toRawSector (buf oob : Option Bytes) (emptyEcc : Bool) (cache : Bytes) (i : Nat) : Bytes :=
  let rawSector := i * snf.rawSectorSize
  let cache :=
    match buf with
    | none => cache
    | some buf => copy cache rawSector buf (i * snf.nfiSoc.sectorSize) snf.nfiSoc.sectorSize
  let rawSector := rawSector + snf.nfiSoc.sectorSize
  match oob with
  | none => cache
  | some oob =>
    let cache := copy cache rawSector oob (i * snf.nfiSoc.fdmSize) snf.nfiSoc.fdmSize
    let rawSector := rawSector + snf.nfiSoc.fdmSize
    if emptyEcc then fill cache rawSector 0xff (eccBytesOf snf)
    else copy cache rawSector oob
      (snf.eccSteps * snf.nfiSoc.fdmSize + i * eccBytesOf snf) (eccBytesOf snf)

/-- `memset(snf->page_cache, 0xff, snf->writesize + snf->oobsize)` -/
def blankCache (cache : Bytes) : Bytes := fill cache 0 0xff (snf.writesize + snf.oobsize)

def mtkSnandToRawPage (buf oob : Option Bytes) (emptyEcc : Bool) (cache : Bytes) : Bytes :=
  (List.range snf.eccSteps).foldl (toRawSector snf buf oob emptyEcc) (blankCache snf cache)

def mtkSnandIsEmptyPage (buf oob : Option Bytes) : Bool :=
  (match buf with
    | none => true
    | some buf => (List.range snf.writesize).all fun i => buf i == 0xff) &&
  match oob with
  | none => true
  | some oob => (List.range snf.eccSteps).all fun j =>
    (List.range snf.nfiSoc.fdmEccSize).all fun i => oob (j * snf.nfiSoc.fdmSize + i) == 0xff

/-! ## Programming -/

def autoFormat (parity : Bytes → Bytes → Bytes) (cache : Bytes) : Bytes := fun col =>
  let i := col / snf.rawSectorSize
  let off := col % snf.rawSectorSize
  let data := fun k => cache (i * snf.nfiSoc.sectorSize + k)
  let fdm := fun k => cache (snf.writesize + i * snf.nfiSoc.fdmSize + k)
  if snf.eccSteps ≤ i then 0xff
  else if off < snf.nfiSoc.sectorSize then data off
  else if off < snf.nfiSoc.sectorSize + snf.nfiSoc.fdmSize then fdm (off - snf.nfiSoc.sectorSize)
  else parity data fdm (off - snf.nfiSoc.sectorSize - snf.nfiSoc.fdmSize)

def rawBytes (cache : Bytes) : Bytes := fun col =>
  if col < snf.eccSteps * snf.rawSectorSize then cache col else 0xff

def mtkSnandProgramLoad (raw : Bool) : SnandM CInt := fun s =>
  let ret := bus.load s.clock
  (ret,
    if ret = 0 then
      { s with chip.cache := if raw then rawBytes snf s.pageCache
               else autoFormat snf bus.parity s.pageCache }
    else s)

/-- What `mtk_snand_do_write_page` makes of the page cache; `emptyEcc` says that the page has
nothing for the ECC engine to protect. -/
def fillPageCache (buf oob : Option Bytes) (raw format emptyEcc : Bool) (cache : Bytes) : Bytes :=
  if raw then
    if format then
      mtkSnandBmSwapRaw snf
        (mtkSnandFdmBmSwapRaw snf (mtkSnandToRawPage snf buf oob emptyEcc cache))
    else
      let cache := blankCache snf cache
      let cache := match buf with | none => cache | some buf => copy cache 0 buf 0 snf.writesize
      match oob with
      | none => cache
      | some oob => copy cache snf.writesize oob 0 (snf.eccSteps * snf.sparePerSector)
  else
    let cache := blankCache snf cache
    let cache := match buf with | none => cache | some buf => copy cache 0 buf 0 snf.writesize
    let cache :=
      match oob with
      | none => cache
      | some oob => copy cache snf.writesize oob 0 (snf.eccSteps * snf.nfiSoc.fdmSize)
    mtkSnandBmSwap snf (mtkSnandFdmBmSwap snf cache)

def waitFor (failBit : CInt) : SnandM CInt := do
  let ret ← mtkSnandPollStatus bus
  if ret.msb then return ret
  else if ret &&& failBit ≠ 0 then return errno EIO
  else return 0

/-- The common end of `mtk_snand_do_write_page` and `mtk_snand_erase_block`: the chip is enabled for
writing, `load` gives it the data, and the command is sent and waited for. -/
def runCommand (load : SnandM CInt) (page : Nat) (cmd : Byte) (failBit : CInt) : SnandM CInt := do
  let ret ← mtkSnandWriteEnable bus
  if ret ≠ 0 then return ret
  else
    let ret ← load
    if ret ≠ 0 then return ret
    else
      let ret ← mtkSnandPageOp bus page cmd
      if ret ≠ 0 then return ret
      else waitFor bus failBit

def mtkSnandDoWritePage (addr : Nat) (buf oob : Option Bytes) (raw format : Bool) :
    SnandM CInt := do
  let dieAddr ← mtkSnandSelectDieAddress bus snf addr
  let page := u32 (dieAddr >>> snf.writesizeShift)
  -- A page with nothing to protect is written raw, its parity left blank.
  let emptyEcc := !raw && mtkSnandIsEmptyPage snf buf oob
  let raw := raw || emptyEcc
  let format := format || emptyEcc
  modify fun s => { s with
    pageCache := fillPageCache snf buf oob raw format emptyEcc s.pageCache }
  runCommand bus (mtkSnandProgramLoad bus snf raw) page SNAND_CMD_PROGRAM_EXECUTE
    SNAND_STATUS_PROGRAM_FAIL

def mtkSnandWritePage (addr : Nat) (buf oob : Option Bytes) (raw : Bool) : SnandM CInt := do
  if buf = none ∧ oob = none then return errno EINVAL
  else if snf.size ≤ addr then return errno EINVAL
  else mtkSnandDoWritePage bus snf addr buf oob raw true

def mtkSnandEraseBlock (addr : Nat) : SnandM CInt := do
  if snf.size ≤ addr then return errno EINVAL
  else
    let dieAddr ← mtkSnandSelectDieAddress bus snf addr
    let block := u32 (dieAddr >>> snf.erasesizeShift)
    let page := u32 (block <<< (snf.erasesizeShift - snf.writesizeShift))
    runCommand bus (pure 0) page SNAND_CMD_BLOCK_ERASE SNAND_STATUS_ERASE_FAIL

end MetaFilogic.Snand
