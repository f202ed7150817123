import Mathlib.Data.BitVec

/-!
# The EEPROM image in flash

`sync eeprom all` writes the EEPROM image and the calibration data to a partition, and
`clear eeprom all` fills both with zeros.  A block device is written where the offset says;
the volume of a UBI device is read as a whole, changed in memory and updated as a whole.
-/

namespace MetaFilogic.Atenl

inductive FlashType where
  | mtd
  | emmc
  | ubi
  deriving DecidableEq

structure Flash where
  type : FlashType
  size : Nat
  content : Nat → BitVec 8

/-- What `write` does: it takes at most so many bytes, or gives up with `EINTR` or with another
error. -/
inductive WriteOutcome where
  | wrote (count : Nat)
  | interrupted
  | failed

/-- What the other calls of `atenl_flash_write` do; `read` is what reading the volume returns. -/
structure FlashOutcome where
  seek : Bool
  malloc : Bool
  read : Option Nat
  volup : Bool
  writes : List WriteOutcome

/-- `count` bytes of `bytes` are put over those from `pos` on. -/
def overlay (content : Nat → BitVec 8) (pos : Nat) (bytes : Nat → BitVec 8) (count : Nat) :
    Nat → BitVec 8 :=
  fun a => if pos ≤ a ∧ a < pos + count then bytes (a - pos) else content a

/-- The write loop of `atenl_flash_write` from `base` on in a device that takes bytes below
`room`.  It returns whether it has ended and with success, if all writes of the pattern were
needed for that. -/
def writeLoop (room base : Nat) (buf : Nat → BitVec 8) :
    List WriteOutcome → Nat → Nat → (Nat → BitVec 8) → Option Bool × (Nat → BitVec 8)
  | _, _, 0, content => (some true, content)
  | [], _, _ + 1, content => (none, content)
  | .interrupted :: writes, i, rem + 1, content =>
    writeLoop room base buf writes i (rem + 1) content
  | .failed :: _, _, _ + 1, content => (some false, content)
  | .wrote count :: writes, i, rem + 1, content =>
    -- ENOSPC of a block device, EPERM of a volume that is not updated
    if room ≤ base + i then (some false, content)
    else
      let ret := min count (min (rem + 1) (room - (base + i)))
      writeLoop room base buf writes (i + ret) (rem + 1 - ret)
        (overlay content (base + i) (fun j => buf (i + j)) ret)

namespace Flash

variable (f : Flash)

def ubiWrite (data : Nat → BitVec 8) (offs size : BitVec 32) (out : FlashOutcome) :
    Option Bool × (Nat → BitVec 8) :=
  if size.toNat < f.size then
    if out.malloc then
      match out.read with
      | none => (some false, f.content)
      | some ret =>
        -- a short read is no error for the caller, but the volume is not updated
        if BitVec.ofNat 32 (min ret f.size) ≠ BitVec.ofNat 32 f.size then
          writeLoop 0 0 data out.writes 0 size.toNat f.content
        else if out.volup then
          let rem := (BitVec.ofNat 32 f.size).toNat
          writeLoop rem 0 (overlay f.content offs.toNat data size.toNat) out.writes 0 rem
            fun _ => 0xff
        else (some false, f.content)
    else (some false, f.content)
  else if out.volup then writeLoop size.toNat 0 data out.writes 0 size.toNat fun _ => 0xff
  else (some false, f.content)

def writeOut (data : Nat → BitVec 8) (offs size : BitVec 32) (out : FlashOutcome) :
    Option Bool × (Nat → BitVec 8) :=
  match f.type with
  | .ubi => f.ubiWrite data offs size out
  | .mtd | .emmc => writeLoop f.size offs.toNat data out.writes 0 size.toNat f.content

def atenlFlashWrite (data : Nat → BitVec 8) (offs size : BitVec 32) (out : FlashOutcome) :
    Option Bool × Flash :=
  if out.seek = false ∨ f.size < (size + offs).toNat then (some false, f)
  else
    let (ret, content) := f.writeOut data offs size out
    (ret, { f with content := content })

end Flash

/-- `an->eeprom_size` and `an->cal_data_offs`. -/
structure EepromLayout where
  eepromSize : Nat
  calDataOffs : Nat

def PRE_CAL_INFO : Nat := 16

def MT7999_DEVICE_ID : BitVec 16 := 0x80f2

/-- `atenl_eeprom_init_max_size(an)` for a chip id `atenl_eeprom_init_chip_id` knows. -/
def atenlEepromInitMaxSize (chipId : BitVec 16) : EepromLayout :=
  let eepromSize :=
    if chipId = 0x7915 then 3584
    else if chipId = 0x7916 ∨ chipId = 0x7906 ∨ chipId = 0x7981 ∨ chipId = 0x7986 then 4096
    else if chipId = 0x7990 ∨ chipId = 0x7992 ∨ chipId = 0x7993 then 7680
    else if chipId = MT7999_DEVICE_ID then 25600
    else 0
  ⟨eepromSize, if chipId = MT7999_DEVICE_ID then eepromSize else eepromSize + PRE_CAL_INFO⟩

/-- What `atenl_eeprom_sync_precal` finds: no calibration data, an error on the way, or
`an->cal` and `an->cal_size`. -/
inductive Precal where
  | missing
  | failed
  | found (cal : Nat → BitVec 8) (calSize : BitVec 32)

/-- `an->cal_size` after `atenl_eeprom_sync_precal`. -/
def Precal.calSize : Precal → BitVec 32
  | .found _ calSize => calSize
  | .missing | .failed => 0

/-- What the two commands work on.  `flashOffset` is not `-1` and the partition could be opened. -/
structure FlashJob where
  chipId : BitVec 16
  eepromData : Nat → BitVec 8
  flashOffset : BitVec 32
  precal : Precal
  flash : Flash

namespace FlashJob

variable (j : FlashJob)

def eepromSize : BitVec 32 := BitVec.ofNat 32 (atenlEepromInitMaxSize j.chipId).eepromSize

def calDataOffs : BitVec 32 := BitVec.ofNat 32 (atenlEepromInitMaxSize j.chipId).calDataOffs

def atenlFlashWriteEeprom (first second : FlashOutcome) : Option Bool × Flash :=
  match j.flash.atenlFlashWrite j.eepromData j.flashOffset j.eepromSize first with
  | (some true, f) =>
    match j.precal with
    | .missing | .failed => (some true, f)
    | .found cal calSize => f.atenlFlashWrite cal (j.flashOffset + j.calDataOffs) calSize second
  | r => r

/-- The size `atenl_eeprom_clear_flash` clears. -/
def clearSize : BitVec 32 :=
  let size := j.eepromSize + j.precal.calSize
  let flashSize := BitVec.ofNat 32 j.flash.size
  if flashSize < size then flashSize else size

def atenlEepromClearFlash (out : FlashOutcome) : Option Bool × Flash :=
  j.flash.atenlFlashWrite (fun _ => 0) j.flashOffset j.clearSize out

/-- The two regions where `sync eeprom all` puts the image and the calibration data. -/
def InImage (a : Nat) : Prop :=
  j.flashOffset.toNat ≤ a ∧ a < j.flashOffset.toNat + j.eepromSize.toNat

def InCal (a : Nat) : Prop :=
  j.flashOffset.toNat + j.calDataOffs.toNat ≤ a ∧
    a < j.flashOffset.toNat + j.calDataOffs.toNat + j.precal.calSize.toNat

def cal : Nat → BitVec 8 :=
  match j.precal with
  | .found cal _ => cal
  | .missing | .failed => fun _ => 0

/-- What the partition holds after `sync eeprom all`. -/
structure Synced (after : Flash) : Prop where
  image : ∀ a < j.flash.size, j.InImage a →
    after.content a = j.eepromData (a - j.flashOffset.toNat)
  cal : ∀ a < j.flash.size, j.InCal a →
    after.content a = j.cal (a - (j.flashOffset.toNat + j.calDataOffs.toNat))
  rest : ∀ a < j.flash.size, ¬j.InImage a → ¬j.InCal a →
    after.content a = j.flash.content a

/-- What the partition holds after `clear eeprom all`. -/
structure Cleared (after : Flash) : Prop where
  zero : ∀ a < j.flash.size, j.InImage a ∨ j.InCal a → after.content a = 0
  rest : ∀ a < j.flash.size, a < j.flashOffset.toNat ∨
    j.flashOffset.toNat + j.calDataOffs.toNat + j.precal.calSize.toNat ≤ a →
      after.content a = j.flash.content a

def Refused (f : Flash) (offs size : BitVec 32) : Prop :=
  f.size < offs.toNat + size.toNat → ∀ data out, (f.atenlFlashWrite data offs size out).2 = f

/-- The commands do what they should, whatever the outcomes of the calls. -/
structure Correct : Prop where
  sync : ∀ first second, (j.atenlFlashWriteEeprom first second).1 = some true →
    j.precal ≠ .failed → j.Synced (j.atenlFlashWriteEeprom first second).2
  clear : ∀ out, (j.atenlEepromClearFlash out).1 = some true → j.precal ≠ .failed →
    j.Cleared (j.atenlEepromClearFlash out).2
  refused : ∀ offs size, (offs, size) ∈ [(j.flashOffset, j.eepromSize),
    (j.flashOffset + j.calDataOffs, j.precal.calSize), (j.flashOffset, j.clearSize)] →
      ∀ content, Refused { j.flash with content := content } offs size

/-- The regions end below 4 GiB, and so does the volume that is written as a whole. -/
structure NoWrap : Prop where
  region : j.flashOffset.toNat + j.calDataOffs.toNat + j.precal.calSize.toNat < 2 ^ 32
  volume : j.flash.type = .ubi → j.flash.size < 2 ^ 32

/-- Where `clear eeprom all` ends: behind the image and as many bytes as there are of calibration
data, at most the size of the partition in 32 bits. -/
def clearEnd : Nat :=
  j.flashOffset.toNat + min (j.eepromSize.toNat + j.precal.calSize.toNat) (j.flash.size % 2 ^ 32)

/-- If what is cleared fits, the bytes of the two regions behind it are zero already. -/
def TailZero : Prop :=
  j.clearEnd ≤ j.flash.size → j.precal ≠ .failed →
    ∀ a < j.flash.size, j.InImage a ∨ j.InCal a → j.clearEnd ≤ a → j.flash.content a = 0

end FlashJob

/-! ## One write -/

section Writes

variable {content bytes buf data : Nat → BitVec 8} {pos count room base i rem : Nat}

theorem overlay_zero : overlay content pos bytes 0 = content := by
  funext a
  rw [overlay, if_neg (by omega)]

theorem overlay_inside {a : Nat} (above : pos ≤ a) (below : a < pos + count) :
    overlay content pos bytes count a = bytes (a - pos) :=
  if_pos ⟨above, below⟩

theorem overlay_outside {a : Nat} (apart : a < pos ∨ pos + count ≤ a) :
    overlay content pos bytes count a = content a :=
  if_neg (by omega)

theorem overlay_overlay {more : Nat} :
    overlay (overlay content pos (fun j => buf (i + j)) count) (pos + count)
        (fun j => buf (i + count + j)) more =
      overlay content pos (fun j => buf (i + j)) (count + more) := by
  funext a
  by_cases before : a < pos
  · rw [overlay_outside (.inl (by omega)), overlay_outside (.inl before),
      overlay_outside (.inl before)]
  · by_cases first : a < pos + count
    · rw [overlay_outside (.inl first), overlay_inside (by omega) first,
        overlay_inside (by omega) (by omega)]
    · by_cases second : a < pos + (count + more)
      · rw [overlay_inside (by omega) (by omega), overlay_inside (by omega) second]
        congr 1
        omega
      · rw [overlay_outside (.inr (by omega)), overlay_outside (.inr (by omega)),
          overlay_outside (.inr (by omega))]

theorem writeLoop_ok {writes : List WriteOutcome}
    (succeeded : (writeLoop room base buf writes i rem content).1 = some true) :
    (rem = 0 ∨ base + i + rem ≤ room) ∧ (writeLoop room base buf writes i rem content).2 =
      overlay content (base + i) (fun j => buf (i + j)) rem := by
  induction writes generalizing i rem content with
  | nil =>
    cases rem with
    | zero => exact ⟨.inl rfl, overlay_zero.symm⟩
    | succ rem => cases succeeded
  | cons outcome writes ih =>
    cases rem with
    | zero => exact ⟨.inl rfl, overlay_zero.symm⟩
    | succ rem =>
      cases outcome with
      | interrupted => exact ih succeeded
      | failed => cases succeeded
      | wrote count =>
        rw [writeLoop] at succeeded ⊢
        by_cases full : room ≤ base + i
        · rw [if_pos full] at succeeded
          cases succeeded
        · rw [if_neg full] at succeeded ⊢
          let ret := min count (min (rem + 1) (room - (base + i)))
          obtain ⟨fits, written⟩ := ih succeeded
          have enough : ret ≤ rem + 1 ∧ ret ≤ room - (base + i) := by omega
          have fits : rem + 1 - ret = 0 ∨ base + (i + ret) + (rem + 1 - ret) ≤ room := fits
          refine ⟨.inr (by omega), ?_⟩
          have total : ret + (rem + 1 - ret) = rem + 1 := by omega
          calc
            _ = overlay (overlay content (base + i) (fun j => buf (i + j)) ret) (base + (i + ret))
                (fun j => buf (i + ret + j)) (rem + 1 - ret) := written
            _ = overlay content (base + i) (fun j => buf (i + j)) (rem + 1) := by
              rw [← Nat.add_assoc, overlay_overlay, total]

theorem writeLoop_full (fits : base + rem ≤ room) :
    (writeLoop room base buf [.wrote rem] 0 rem content).1 = some true := by
  cases rem with
  | zero => rfl
  | succ rem =>
    have all : rem + 1 - min (rem + 1) (min (rem + 1) (room - (base + 0))) = 0 := by omega
    rw [writeLoop, if_neg (by omega)]
    dsimp only
    rw [all]
    rfl

namespace Flash

variable {f : Flash} {offs size : BitVec 32} {out : FlashOutcome}

structure Narrow (f : Flash) (offs size : BitVec 32) : Prop where
  sum : offs.toNat + size.toNat < 2 ^ 32
  volume : f.type = .ubi → f.size < 2 ^ 32

theorem Narrow.end_eq (narrow : f.Narrow offs size) :
    (size + offs).toNat = offs.toNat + size.toNat := by
  have sum := narrow.sum
  rw [BitVec.toNat_add, Nat.mod_eq_of_lt (by omega), Nat.add_comm]

theorem flashWrite_refused (narrow : f.Narrow offs size)
    (large : f.size < offs.toNat + size.toNat) :
    f.atenlFlashWrite data offs size out = (some false, f) := by
  rw [atenlFlashWrite, if_pos (.inr (narrow.end_eq ▸ large))]

theorem ubiWrite_ok (narrow : f.Narrow offs size) (ubi : f.type = .ubi)
    (fits : offs.toNat + size.toNat ≤ f.size)
    (succeeded : (f.ubiWrite data offs size out).1 = some true) :
    ∀ a < f.size, (f.ubiWrite data offs size out).2 a =
      overlay f.content offs.toNat data size.toNat a := by
  intro a inside
  have whole : (BitVec.ofNat 32 f.size).toNat = f.size := by
    rw [BitVec.toNat_ofNat, Nat.mod_eq_of_lt (narrow.volume ubi)]
  revert succeeded
  rw [ubiWrite]
  split
  · split
    · split
      · exact fun failed => by cases failed
      · split
        · intro succeeded
          obtain ⟨room, written⟩ := writeLoop_ok succeeded
          have none : size.toNat = 0 := by omega
          rw [written, none, overlay_zero, overlay_zero]
        · split
          · intro succeeded
            obtain ⟨_, written⟩ := writeLoop_ok succeeded
            rw [written, whole, overlay_inside (by omega) (by omega)]
            simp
          · exact fun failed => by cases failed
    · exact fun failed => by cases failed
  · rename_i all
    split
    · intro succeeded
      obtain ⟨_, written⟩ := writeLoop_ok succeeded
      have start : offs.toNat = 0 := by omega
      rw [written, start, overlay_inside (by omega) (by omega),
        overlay_inside (by omega) (by omega)]
      simp
    · exact fun failed => by cases failed

theorem writeOut_ok (narrow : f.Narrow offs size) (fits : offs.toNat + size.toNat ≤ f.size)
    (succeeded : (f.writeOut data offs size out).1 = some true) :
    ∀ a < f.size, (f.writeOut data offs size out).2 a =
      overlay f.content offs.toNat data size.toNat a := by
  intro a inside
  cases type : f.type with
  | ubi =>
    simp only [writeOut, type] at succeeded ⊢
    exact ubiWrite_ok narrow type fits succeeded a inside
  | mtd | emmc =>
    simp only [writeOut, type] at succeeded ⊢
    obtain ⟨_, written⟩ := writeLoop_ok succeeded
    rw [written]
    simp only [Nat.add_zero, Nat.zero_add]

theorem flashWrite_ok (narrow : f.Narrow offs size)
    (succeeded : (f.atenlFlashWrite data offs size out).1 = some true) :
    offs.toNat + size.toNat ≤ f.size ∧ ∃ content,
      (f.atenlFlashWrite data offs size out).2 = { f with content := content } ∧
      ∀ a < f.size, content a = overlay f.content offs.toNat data size.toNat a := by
  have fits : offs.toNat + size.toNat ≤ f.size := by
    by_contra large
    rw [flashWrite_refused narrow (by omega)] at succeeded
    cases succeeded
  refine ⟨fits, (f.writeOut data offs size out).2, ?_⟩
  rw [atenlFlashWrite] at succeeded ⊢
  by_cases begun : out.seek = false ∨ f.size < (size + offs).toNat
  · rw [if_pos begun] at succeeded
    cases succeeded
  · rw [if_neg begun] at succeeded ⊢
    exact ⟨rfl, writeOut_ok narrow fits succeeded⟩

def smooth (f : Flash) (size : BitVec 32) : FlashOutcome where
  seek := true
  malloc := true
  read := some f.size
  volup := true
  writes := [.wrote (if f.type = .ubi then f.size else size.toNat)]

theorem flashWrite_smooth (narrow : f.Narrow offs size) (fits : offs.toNat + size.toNat ≤ f.size) :
    (f.atenlFlashWrite data offs size (f.smooth size)).1 = some true := by
  have begun : ¬((f.smooth size).seek = false ∨ f.size < (size + offs).toNat) := by
    rw [narrow.end_eq]
    rintro (seek | large)
    · cases seek
    · omega
  rw [atenlFlashWrite, if_neg begun]
  show (f.writeOut data offs size (f.smooth size)).1 = some true
  cases type : f.type with
  | ubi =>
    have whole : (BitVec.ofNat 32 f.size).toNat = f.size := by
      rw [BitVec.toNat_ofNat, Nat.mod_eq_of_lt (narrow.volume type)]
    have writes : (f.smooth size).writes = [.wrote f.size] := by
      rw [smooth, if_pos type]
    have malloc : (f.smooth size).malloc = true := rfl
    have read : (f.smooth size).read = some f.size := rfl
    have volup : (f.smooth size).volup = true := rfl
    simp only [writeOut, type]
    rw [ubiWrite, writes, whole, read, if_pos malloc, if_pos volup]
    split
    · dsimp only
      rw [Nat.min_self, if_neg (not_not.mpr rfl)]
      exact writeLoop_full (by omega)
    · have all : size.toNat = f.size := by omega
      rw [all]
      exact writeLoop_full (by omega)
  | mtd | emmc =>
    have writes : (f.smooth size).writes = [.wrote size.toNat] := by
      rw [smooth, type]
      rfl
    simp only [writeOut, type]
    rw [writes]
    exact writeLoop_full fits

end Flash

end Writes

namespace FlashJob

variable {j : FlashJob}

/-! ## The two commands -/

theorem layout_bounds (chipId : BitVec 16) :
    (atenlEepromInitMaxSize chipId).eepromSize ≤ (atenlEepromInitMaxSize chipId).calDataOffs ∧
      (atenlEepromInitMaxSize chipId).calDataOffs < 2 ^ 32 := by
  have image : (atenlEepromInitMaxSize chipId).eepromSize ≤ 25600 := by
    rw [atenlEepromInitMaxSize]
    dsimp only
    split_ifs <;> omega
  have cal : (atenlEepromInitMaxSize chipId).calDataOffs =
      (atenlEepromInitMaxSize chipId).eepromSize ∨
      (atenlEepromInitMaxSize chipId).calDataOffs =
        (atenlEepromInitMaxSize chipId).eepromSize + 16 := by
    by_cases mt7999 : chipId = MT7999_DEVICE_ID
    · exact .inl (if_pos mt7999)
    · exact .inr (if_neg mt7999)
  omega

theorem eepromSize_le : j.eepromSize.toNat ≤ j.calDataOffs.toNat := by
  obtain ⟨ordered, small⟩ := layout_bounds j.chipId
  rw [eepromSize, calDataOffs, BitVec.toNat_ofNat, BitVec.toNat_ofNat,
    Nat.mod_eq_of_lt (by omega), Nat.mod_eq_of_lt small]
  exact ordered

theorem clearEnd_le : j.clearEnd ≤
    j.flashOffset.toNat + j.calDataOffs.toNat + j.precal.calSize.toNat := by
  have image := j.eepromSize_le
  rw [clearEnd]
  omega

namespace NoWrap

variable (narrow : j.NoWrap)
include narrow

theorem calOffset : (j.flashOffset + j.calDataOffs).toNat =
    j.flashOffset.toNat + j.calDataOffs.toNat := by
  have region := narrow.region
  rw [BitVec.toNat_add, Nat.mod_eq_of_lt (by omega)]

theorem clearSize : j.flashOffset.toNat + j.clearSize.toNat = j.clearEnd := by
  have region := narrow.region
  have image := j.eepromSize_le
  have sum : (j.eepromSize + j.precal.calSize).toNat =
      j.eepromSize.toNat + j.precal.calSize.toNat := by
    rw [BitVec.toNat_add, Nat.mod_eq_of_lt (by omega)]
  rw [FlashJob.clearSize, clearEnd]
  split
  · rename_i smaller
    rw [BitVec.lt_def, sum, BitVec.toNat_ofNat] at smaller
    rw [BitVec.toNat_ofNat, Nat.min_eq_right (by omega)]
  · rename_i larger
    rw [BitVec.lt_def, sum, BitVec.toNat_ofNat] at larger
    rw [sum, Nat.min_eq_left (by omega)]

theorem clear_narrow : j.flash.Narrow j.flashOffset j.clearSize where
  sum := by
    rw [narrow.clearSize]
    exact Nat.lt_of_le_of_lt j.clearEnd_le narrow.region
  volume := narrow.volume

theorem image_narrow : j.flash.Narrow j.flashOffset j.eepromSize where
  sum := by
    have region := narrow.region
    have image := j.eepromSize_le
    omega
  volume := narrow.volume

theorem cal_narrow : j.flash.Narrow (j.flashOffset + j.calDataOffs) j.precal.calSize where
  sum := by
    rw [narrow.calOffset]
    exact narrow.region
  volume := narrow.volume

theorem refused {offs size : BitVec 32} (write : (offs, size) ∈ [(j.flashOffset, j.eepromSize),
    (j.flashOffset + j.calDataOffs, j.precal.calSize), (j.flashOffset, j.clearSize)])
    (content : Nat → BitVec 8) : Refused { j.flash with content := content } offs size := by
  have fits : j.flash.Narrow offs size := by
    simp only [List.mem_cons, Prod.mk.injEq, List.not_mem_nil, or_false] at write
    obtain ⟨rfl, rfl⟩ | ⟨rfl, rfl⟩ | ⟨rfl, rfl⟩ := write
    · exact narrow.image_narrow
    · exact narrow.cal_narrow
    · exact narrow.clear_narrow
  intro large data out
  have fits : Flash.Narrow { j.flash with content := content } offs size := ⟨fits.sum, fits.volume⟩
  rw [Flash.flashWrite_refused fits large]

theorem synced {first second : FlashOutcome}
    (succeeded : (j.atenlFlashWriteEeprom first second).1 = some true) (sure : j.precal ≠ .failed) :
    j.Synced (j.atenlFlashWriteEeprom first second).2 := by
  have ordered := j.eepromSize_le
  rw [atenlFlashWriteEeprom] at succeeded ⊢
  split at succeeded
  · rename_i f image
    have imageOk : (j.flash.atenlFlashWrite j.eepromData j.flashOffset j.eepromSize first).1 =
        some true := by
      rw [image]
    obtain ⟨fits, content, written, bytes⟩ := Flash.flashWrite_ok narrow.image_narrow imageOk
    rw [image] at written
    have written : f = { j.flash with content := content } := written
    subst written
    split at succeeded
    · rename_i missing
      have none : j.precal.calSize.toNat = 0 := by
        rw [missing]
        rfl
      refine ⟨fun a inside region => ?_, fun a inside region => ?_, fun a inside out _ => ?_⟩
      · exact (bytes a inside).trans (overlay_inside region.1 region.2)
      · obtain ⟨above, below⟩ := region
        omega
      · rw [InImage] at out
        exact (bytes a inside).trans (overlay_outside (by omega))
    · rename_i failed
      exact absurd failed sure
    · rename_i cal calSize found
      have size : j.precal.calSize = calSize := by
        rw [found]
        rfl
      have data : j.cal = cal := by
        rw [FlashJob.cal, found]
      have second : Flash.Narrow { j.flash with content := content }
          (j.flashOffset + j.calDataOffs) calSize :=
        size ▸ ⟨narrow.cal_narrow.sum, narrow.cal_narrow.volume⟩
      obtain ⟨_, after, write, more⟩ := Flash.flashWrite_ok second succeeded
      rw [write]
      rw [narrow.calOffset] at more
      refine ⟨fun a inside region => ?_, fun a inside region => ?_, fun a inside out away => ?_⟩
      · obtain ⟨above, below⟩ := region
        calc
          after a = content a := (more a inside).trans (overlay_outside (.inl (by omega)))
          _ = j.eepromData (a - j.flashOffset.toNat) :=
            (bytes a inside).trans (overlay_inside above below)
      · rw [InCal, size] at region
        rw [data]
        exact (more a inside).trans (overlay_inside region.1 region.2)
      · rw [InImage] at out
        rw [InCal, size] at away
        calc
          after a = content a := (more a inside).trans (overlay_outside (by omega))
          _ = j.flash.content a := (bytes a inside).trans (overlay_outside (by omega))
  · rename_i other
    exact (other _ (Prod.ext succeeded rfl)).elim

theorem cleared (tail : j.TailZero) {out : FlashOutcome}
    (succeeded : (j.atenlEepromClearFlash out).1 = some true) (sure : j.precal ≠ .failed) :
    j.Cleared (j.atenlEepromClearFlash out).2 := by
  have bounded := j.clearEnd_le
  obtain ⟨fits, content, written, bytes⟩ := Flash.flashWrite_ok narrow.clear_narrow succeeded
  rw [narrow.clearSize] at fits
  rw [atenlEepromClearFlash, written]
  refine ⟨fun a inside region => ?_, fun a inside away => ?_⟩
  · have above : j.flashOffset.toNat ≤ a := by
      obtain ⟨above, _⟩ | ⟨above, _⟩ := region <;> omega
    by_cases covered : a < j.clearEnd
    · exact (bytes a inside).trans (overlay_inside above (narrow.clearSize ▸ covered))
    · calc
        content a = j.flash.content a := (bytes a inside).trans
          (overlay_outside (.inr (narrow.clearSize ▸ Nat.le_of_not_lt covered)))
        _ = 0 := tail fits sure a inside region (Nat.le_of_not_lt covered)
  · refine (bytes a inside).trans (overlay_outside ?_)
    rw [narrow.clearSize]
    omega

/-- A clear command whose calls all succeed leaves what is behind the cleared bytes. -/
theorem tailZero (correct : j.Correct) : j.TailZero := by
  intro fits sure a inside region behind
  rw [← narrow.clearSize] at fits behind
  have succeeded : (j.atenlEepromClearFlash (j.flash.smooth j.clearSize)).1 = some true :=
    Flash.flashWrite_smooth narrow.clear_narrow fits
  obtain ⟨_, content, written, bytes⟩ := Flash.flashWrite_ok narrow.clear_narrow succeeded
  have zero := (correct.clear _ succeeded sure).zero a inside region
  rw [atenlEepromClearFlash, written] at zero
  have zero : content a = 0 := zero
  rw [← zero, bytes a inside, overlay_outside (.inr behind)]

end NoWrap

end FlashJob

end MetaFilogic.Atenl
