import MetaFilogic.Nmbm.Format

/-!
# High level NAND chip access

The retry loops around the lower device and the bad-block marker.  Log output,
watchdog resets and `reset_chip` have no effect on the modelled state and are
left out.
-/

namespace MetaFilogic.Nmbm

open Bytes

variable (ld : LowerDevice)

/-- The retry loop of `nmbm_read_phys_page`; `last` is the outcome of the
previous try. -/
def readPhysPageTries (addr : Nat) (mode : OobMode) :
    Nat → Int × PageData → NmbmM (Int × PageData)
  | 0, last => return last
  | tries + 1, _ => do
    let result ← lowerReadPage ld addr mode
    if result.1 ≥ 0 then
      return result
    else
      readPhysPageTries addr mode tries result

def readPhysPage (addr : Nat) (mode : OobMode) : NmbmM (Int × PageData) :=
  readPhysPageTries ld addr mode NMBM_TRY_COUNT (0, ⟨[], []⟩)

/-- The retry loop shared by `nmbm_write_phys_page`,
`nmbm_panic_write_phys_page` and `nmbm_erase_phys_block`. -/
def retry (request : NmbmM Int) : Nat → NmbmM Bool
  | 0 => return false
  | tries + 1 => do
    let ret ← request
    if ret = 0 then
      return true
    else
      retry request tries

def writePhysPage (addr : Nat) (data oob : Option (List Byte)) (mode : OobMode) :
    NmbmM Bool := do
  let ni ← getNi
  if ni.flags.readOnly then
    return false
  else
    retry (lowerWritePage ld addr data oob mode) NMBM_TRY_COUNT

def panicWritePhysPage (addr : Nat) (data : Option (List Byte)) : NmbmM Bool := do
  let ni ← getNi
  if ni.flags.readOnly then
    return false
  else
    retry (lowerWritePage ld addr data none .placeOob) NMBM_TRY_COUNT

def erasePhysBlock (addr : Nat) : NmbmM Bool := do
  let ni ← getNi
  if ni.flags.readOnly then
    return false
  else
    retry (lowerEraseBlock ld addr) NMBM_TRY_COUNT

/-- Store delivered main bytes in `page_cache`. -/
def cacheData (page : PageData) : NmbmM Unit :=
  modifyNi fun ni => { ni with pageCache := { ni.pageCache with data := page.data } }

/-- Store delivered spare bytes in `page_cache + writesize`. -/
def cacheOob (page : PageData) : NmbmM Unit :=
  modifyNi fun ni => { ni with pageCache := { ni.pageCache with oob := page.oob } }

def checkBadPhysBlock (ba : Nat) : NmbmM Bool := do
  let addr := ld.ba2addr ba
  if ld.hasIsBadBlock then
    lowerIsBadBlock ld addr
  else
    -- Treat ECC error as read success
    let result ← readPhysPage ld addr .raw
    cacheOob result.2
    if result.1 < 0 ∧ result.1 ≠ -EBADMSG then
      return true
    else
      return get8 result.2.oob 0 != 0xff

/-- The page loop of `nmbm_mark_phys_bad_block`: `pages` pages from `addr` on are
overwritten with the page cache, errors ignored. -/
def overwritePages (addr : Nat) : Nat → NmbmM Unit
  | 0 => return ()
  | pages + 1 => do
    let ni ← getNi
    let _ ← writePhysPage ld addr (some ni.pageCache.data) (some ni.pageCache.oob) .raw
    overwritePages (addr + ld.writesize) pages

def markPhysBadBlock (ba : Nat) : NmbmM Int := do
  let addr := ld.ba2addr ba
  let ni ← getNi
  if ni.flags.readOnly then
    return 0
  else if ld.hasMarkBadBlock then
    lowerMarkBadBlock ld addr
  else
    -- Whole page set to 0x00
    modifyNi fun ni => { ni with pageCache := ⟨fill ld.writesize 0, fill ld.oobsize 0⟩ }
    overwritePages ld addr ld.pagesPerBlock
    return 0

end MetaFilogic.Nmbm
