import MetaFilogic.Nmbm.Access

/-!
# The MTD layer

`nmbm_mtd_read_oob`, `nmbm_mtd_write_oob` and `nmbm_mtd_panic_write` over the
operations of the core.  MTD hands over a length of zero for a buffer that is not
there, so a request has an optional buffer in place of both.

The lists of `PageWrite` are ghost: they keep what was handed to the core page by
page.  `writeRangePages` is `nmbm_write_range` with such a list.
-/

namespace MetaFilogic.Nmbm

open Bytes

variable (ld : LowerDevice)

/-- The members of `struct nmbm_mtd` the functions read: the size of the upper device
and `oobavail`. -/
structure NmbmMtd where
  size : Nat
  oobavail : Nat

variable (nm : NmbmMtd)

def mtdOobavail (mode : OobMode) : Nat :=
  if mode = .autoOob then nm.oobavail else ld.oobsize

/-- `addr & ~writesize_mask`.  The mask is an `unsigned int`, so its complement has no
bit above the lower half of the address. -/
def pageBase (addr : Nat) : Nat := addr &&& (2 ^ 32 - 1 - ld.writesizeMask)

/-! ## Read -/

/-- A read request: the mode if it is supported, the lengths of the buffers that are
there, and `ooboffs`. -/
structure MtdRead where
  mode : Option OobMode
  dat : Option Nat
  oob : Option Nat
  ooboffs : Nat

/-- The return value and the bytes stored in the buffers; their lengths are `retlen`
and `oobretlen`. -/
structure MtdReadResult where
  ret : Int
  dat : List Byte
  oob : List Byte

/-- The loop of `nmbm_mtd_read_data`.  Every round takes a byte of a request that has
some left. -/
def mtdReadDataLoop (mode : OobMode) : (rounds addr col len ooboffs ooblen : Nat) →
    (dat oob : List Byte) → (hasEccErr : Bool) → (maxBitflips : Int) → NmbmM MtdReadResult
  | 0, _, _, _, _, _, dat, oob, hasEccErr, maxBitflips =>
    return ⟨if hasEccErr then -EBADMSG else maxBitflips, dat, oob⟩
  | rounds + 1, addr, col, len, ooboffs, ooblen, dat, oob, hasEccErr, maxBitflips => do
    if len = 0 ∧ ooblen = 0 then
      return ⟨if hasEccErr then -EBADMSG else maxBitflips, dat, oob⟩
    else
      let result ← readSinglePage ld addr mode
      if result.1 < 0 ∧ result.1 ≠ -EBADMSG then
        return ⟨result.1, dat, oob⟩
      else
        -- Move data
        let datchk := min (ld.writesize - col) len
        -- Move oob
        let oobchk := min (mtdOobavail ld nm mode - ooboffs) ooblen
        mtdReadDataLoop mode rounds (addr + ld.writesize) 0 (len - datchk) 0
          (ooblen - oobchk) (dat ++ (result.2.data.drop col).take datchk)
          (oob ++ (result.2.oob.drop ooboffs).take oobchk)
          (hasEccErr || result.1 = -EBADMSG) (max maxBitflips result.1)

def mtdReadData (addr : Nat) (mode : OobMode) (len ooboffs ooblen : Nat) :
    NmbmM MtdReadResult :=
  mtdReadDataLoop ld nm mode (len + ooblen) (pageBase ld addr) (addr &&& ld.writesizeMask) len
    ooboffs ooblen [] [] false 0

def oobOutside (addr : Nat) (mode : OobMode) (ooboffs ooblen : Nat) : Bool :=
  mtdOobavail ld nm mode ≤ ooboffs || nm.size ≤ addr ||
    (nm.size / ld.writesize - addr / ld.writesize) * mtdOobavail ld nm mode < ooboffs + ooblen

def mtdReadOob (addr : Nat) (ops : MtdRead) : NmbmM MtdReadResult :=
  match ops.mode with
  | none => return ⟨if ops.dat = none ∧ ops.oob = none then 0 else -ENOTSUPP, [], []⟩
  | some mode =>
    if ops.dat = none ∧ ops.oob = none then
      return ⟨0, [], []⟩
    else if ops.dat.any fun len => nm.size < addU64 addr len then
      -- Do not allow read past end of device
      return ⟨-EINVAL, [], []⟩
    else
      match ops.oob with
      | none => do
        -- Optimized for reading data only
        let result ← readRange ld addr (ops.dat.getD 0) mode
        return ⟨result.ret, result.data, []⟩
      | some ooblen =>
        if oobOutside ld nm addr mode ops.ooboffs ooblen then
          return ⟨-EINVAL, [], []⟩
        else
          mtdReadData ld nm addr mode (ops.dat.getD 0) ops.ooboffs ooblen

/-! ## Write -/

/-- One page handed to the core: its address, the buffers, how many of its bytes were
requested, and what the core returned. -/
structure PageWrite where
  addr : Nat
  data : Option (List Byte)
  oob : Option (List Byte)
  requested : Nat
  ret : Int

structure MtdWriteResult where
  ret : Int
  retlen : Nat
  oobretlen : Nat
  pages : List PageWrite

structure MtdWrite where
  mode : Option OobMode
  dat : Option (List Byte)
  oob : Option (List Byte)
  ooboffs : Nat

/-- A buffer of `size` bytes with `chunk` at `offset` and 0xff everywhere else. -/
def padded (size offset : Nat) (chunk : List Byte) : List Byte :=
  fill offset 0xff ++ chunk ++ fill (size - offset - chunk.length) 0xff

/-- The loop of `nmbm_mtd_write_data` with the bytes still to be written.  `hasDat` and
`hasOob` tell whether `datcache` and `oobcache` were set before the loop. -/
def mtdWriteDataLoop (mode : OobMode) (hasDat hasOob : Bool) : (rounds addr col : Nat) →
    (dat : List Byte) → (ooboffs : Nat) → (oob : List Byte) → (cache : PageData) →
    MtdWriteResult → NmbmM MtdWriteResult
  | 0, _, _, _, _, _, _, result => return result
  | rounds + 1, addr, col, dat, ooboffs, oob, cache, result => do
    if dat = [] ∧ oob = [] then
      return result
    else
      -- Move data
      let datchk := min (ld.writesize - col) dat.length
      -- Move oob
      let oobchk := min (mtdOobavail ld nm mode - ooboffs) oob.length
      let cache : PageData := {
        data := if dat = [] then cache.data else padded ld.writesize col (dat.take datchk)
        oob := if oob = [] then cache.oob else padded ld.oobsize ooboffs (oob.take oobchk) }
      let data := if hasDat then some cache.data else none
      let spare := if hasOob then some cache.oob else none
      let ret ← writeSinglePage ld addr data spare mode
      let result := {
        ret
        retlen := result.retlen + datchk
        oobretlen := result.oobretlen + oobchk
        pages := result.pages ++ [⟨addr, data, spare, datchk, ret⟩] }
      if ret ≠ 0 then
        return result
      else
        mtdWriteDataLoop mode hasDat hasOob rounds (addr + ld.writesize) 0 (dat.drop datchk) 0
          (oob.drop oobchk) cache result

/-- `nmbm_mtd_write_data`; `cache` is what `nm->page_cache` holds. -/
def mtdWriteData (cache : PageData) (addr : Nat) (mode : OobMode) (dat : List Byte)
    (ooboffs : Nat) (oob : List Byte) : NmbmM MtdWriteResult :=
  mtdWriteDataLoop ld nm mode (dat ≠ []) (oob ≠ []) (dat.length + oob.length) (pageBase ld addr)
    (addr &&& ld.writesizeMask) dat ooboffs oob cache ⟨0, 0, 0, []⟩

/-- The loop of `nmbm_write_range` with the pages it hands over. -/
def writeRangePagesLoop (mode : OobMode) : (rounds off : Nat) → (ptr : List Byte) →
    (pages : List PageWrite) → NmbmM (Int × Nat × List PageWrite)
  | 0, _, ptr, pages => return (0, ptr.length, pages)
  | rounds + 1, off, ptr, pages => do
    if ptr.length = 0 then
      return (0, 0, pages)
    else
      let leading := off &&& ld.writesizeMask
      let chunksize := min (ld.writesize - leading) ptr.length
      let chunk := ptr.take chunksize
      if chunksize ≠ ld.writesize then
        modifyNi fun ni =>
          { ni with pageCache :=
              { ni.pageCache with
                data := patch (patch ni.pageCache.data 0 (fill leading 0xff)) leading chunk } }
      let ni ← getNi
      let page := if chunksize = ld.writesize then chunk else ni.pageCache.data
      let ret ← writeLogicPage ld (off - leading) (some page) none mode
      let pages := pages ++ [⟨off - leading, some page, none, chunksize, ret⟩]
      if ret ≠ 0 then
        return (ret, ptr.length, pages)
      else
        writeRangePagesLoop mode rounds (off + chunksize) (ptr.drop chunksize) pages

def writeRangePages (addr : Nat) (data : List Byte) (mode : OobMode) :
    NmbmM (Int × Option Nat × List PageWrite) := do
  let ni ← getNi
  if ni.isProtected ∨ ni.flags.readOnly then
    return (-EROFS, none, [])
  else if addr ≥ ld.ba2addr ni.dataBlockCount then
    return (-EINVAL, none, [])
  else if addU64 addr data.length > ld.ba2addr ni.dataBlockCount then
    return (-EINVAL, none, [])
  else if data.length = 0 then
    return (0, none, [])
  else
    let result ← writeRangePagesLoop ld mode data.length addr data []
    return (result.1, some (data.length - result.2.1), result.2.2)

/-- `nmbm_mtd_write_oob`.  MTD has set `retlen` to 0. -/
def mtdWriteOob (cache : PageData) (addr : Nat) (ops : MtdWrite) : NmbmM MtdWriteResult :=
  match ops.mode with
  | none => return ⟨if ops.dat = none ∧ ops.oob = none then 0 else -ENOTSUPP, 0, 0, []⟩
  | some mode =>
    if ops.dat = none ∧ ops.oob = none then
      return ⟨0, 0, 0, []⟩
    else if ops.dat.any fun dat => nm.size < addU64 addr dat.length then
      -- Do not allow write past end of device
      return ⟨-EINVAL, 0, 0, []⟩
    else
      match ops.oob with
      | none => do
        -- Optimized for writing data only
        let result ← writeRangePages ld addr (ops.dat.getD []) mode
        return ⟨result.1, result.2.1.getD 0, 0, result.2.2⟩
      | some oob =>
        if oobOutside ld nm addr mode ops.ooboffs oob.length then
          return ⟨-EINVAL, 0, 0, []⟩
        else
          mtdWriteData ld nm cache addr mode (ops.dat.getD []) ops.ooboffs oob

/-- The loop of `nmbm_mtd_panic_write` with the bytes still to be written. -/
def mtdPanicWriteLoop : (rounds addr col : Nat) → (buf cache : List Byte) → (wrlen : Nat) →
    (pages : List PageWrite) → NmbmM (Nat × List PageWrite)
  | 0, _, _, _, _, wrlen, pages => return (wrlen, pages)
  | rounds + 1, addr, col, buf, cache, wrlen, pages => do
    if buf = [] then
      return (wrlen, pages)
    else
      -- Move data
      let chklen := min (ld.writesize - col) buf.length
      let cache := if chklen < ld.writesize then fill ld.writesize 0xff else cache
      let cache := patch cache col (buf.take chklen)
      let ret ← panicWriteSinglePage ld addr (some cache)
      let pages := pages ++ [⟨addr, some cache, none, chklen, ret⟩]
      if ret ≠ 0 then
        return (wrlen + chklen, pages)
      else
        mtdPanicWriteLoop rounds (addr + ld.writesize) 0 (buf.drop chklen) cache (wrlen + chklen)
          pages

def mtdPanicWrite (cache : List Byte) (addr : Nat) (buf : List Byte) : NmbmM MtdWriteResult := do
  let result ← mtdPanicWriteLoop ld buf.length (pageBase ld addr) (addr &&& ld.writesizeMask) buf
    cache 0 []
  return ⟨0, result.1, 0, result.2⟩

end MetaFilogic.Nmbm
