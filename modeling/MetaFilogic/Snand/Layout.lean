import MetaFilogic.Snand.Setup
import Mathlib.Tactic.Linarith

/-!
# The page formats that a setup lets through

A setup that is not refused for another reason ends with a sound layout exactly when a page has a
sector at all, one of the spare sizes fits, and the scan of the table meets the largest of them
first.
-/

namespace MetaFilogic.Snand

/-! ## The scan of a table -/

theorem lastFitting_congr {fits fits' : Nat → Bool} {count : Nat}
    (same : ∀ i < count, fits i = fits' i) : lastFitting fits count = lastFitting fits' count := by
  induction count with
  | zero => rfl
  | succ count ih =>
    rw [lastFitting, lastFitting, same count (Nat.lt_succ_self _),
      ih fun i below => same i (by omega)]

/-! ## The spare size -/

def spareShare (soc : SocData) (oobsize eccSteps : Nat) : Nat := oobsize / eccSteps / soc.mul

def scannedSpare (soc : SocData) (share : Nat) : Option Nat :=
  (lastFitting (fun i => soc.spareSizes.getD i 0 ≤ share) soc.spareSizes.length).map fun i =>
    soc.spareSizes.getD i 0

def IsLargest (soc : SocData) (share size : Nat) : Prop :=
  size ∈ soc.spareSizes ∧ size ≤ share ∧ ∀ other ∈ soc.spareSizes, other ≤ share → other ≤ size

instance (soc : SocData) (share size : Nat) : Decidable (IsLargest soc share size) :=
  inferInstanceAs (Decidable (_ ∧ _ ∧ _))

section Scan

variable (soc : Soc) (share : Nat)

theorem spareSize_le : ∀ size ∈ (mtkSnandSocs soc).spareSizes, size ≤ 74 := by
  cases soc <;> decide

theorem spareSize_ge : ∀ size ∈ (mtkSnandSocs soc).spareSizes, 16 ≤ size := by
  cases soc <;> decide

theorem scannedSpare_min :
    scannedSpare (mtkSnandSocs soc) share = scannedSpare (mtkSnandSocs soc) (min share 74) := by
  have small : ∀ i, (mtkSnandSocs soc).spareSizes.getD i 0 ≤ 74 := by
    intro i
    rw [List.getD_eq_getElem?_getD]
    cases entry : (mtkSnandSocs soc).spareSizes[i]? with
    | none => simp
    | some size => exact spareSize_le soc size (List.mem_of_getElem? entry)
  unfold scannedSpare
  rw [lastFitting_congr]
  intro i _
  have := small i
  simp only [decide_eq_decide]
  omega

theorem isLargest_min (size : Nat) :
    IsLargest (mtkSnandSocs soc) share size ↔ IsLargest (mtkSnandSocs soc) (min share 74) size := by
  have small := spareSize_le soc
  constructor
  · rintro ⟨member, fits, largest⟩
    have := small size member
    exact ⟨member, by omega, fun other among le => largest other among (by omega)⟩
  · rintro ⟨member, fits, largest⟩
    refine ⟨member, by omega, fun other among le => largest other among ?_⟩
    have := small other among
    omega

theorem scan_none_small : ∀ soc : Soc, ∀ share ≤ 74,
    scannedSpare (mtkSnandSocs soc) share = none ↔
      ∀ size ∈ (mtkSnandSocs soc).spareSizes, ¬size ≤ share := by
  intro soc
  cases soc <;> decide +kernel

theorem scan_largest_small :
    ∀ soc : Soc, ∀ share ≤ 74, ∀ size ∈ scannedSpare (mtkSnandSocs soc) share,
    size ∈ (mtkSnandSocs soc).spareSizes ∧ size ≤ share ∧
      (IsLargest (mtkSnandSocs soc) share size ↔
        ¬((mtkSnandSocs soc).sectorSize = 1024 ∧ share = 62)) := by
  intro soc
  cases soc <;> decide +kernel

theorem scannedSpare_eq_none_iff :
    scannedSpare (mtkSnandSocs soc) share = none ↔
      ∀ size ∈ (mtkSnandSocs soc).spareSizes, ¬size ≤ share := by
  have small := spareSize_le soc
  rw [scannedSpare_min, scan_none_small soc _ (Nat.min_le_right ..)]
  constructor
  · intro none size member le
    have := small size member
    exact none size member (by omega)
  · intro none size member le
    exact none size member (by omega)

theorem scannedSpare_some {size : Nat}
    (scanned : scannedSpare (mtkSnandSocs soc) share = some size) :
    size ∈ (mtkSnandSocs soc).spareSizes ∧ size ≤ share ∧
      (IsLargest (mtkSnandSocs soc) share size ↔
        ¬((mtkSnandSocs soc).sectorSize = 1024 ∧ share = 62)) := by
  rw [scannedSpare_min] at scanned
  obtain ⟨member, le, largest⟩ := scan_largest_small soc _ (Nat.min_le_right ..) size scanned
  rw [isLargest_min, largest]
  refine ⟨member, by omega, ?_⟩
  have same : min share 74 = 62 ↔ share = 62 := by omega
  rw [same]

end Scan

/-! ## What the steps of the setup return -/

def sparePerSectorOf (soc : SocData) (oobsize eccSteps : Nat) : Nat :=
  (scannedSpare soc (spareShare soc oobsize eccSteps)).elim 0 (· * soc.mul)

theorem divU32_of_pos {value divisor : Nat} (pos : 0 < divisor) :
    divU32 value divisor = .ok (value / divisor) :=
  if_neg (by omega)

theorem selectSparePerSector_eq (soc : SocData) (oobsize : Nat) {eccSteps : Nat}
    (pos : 0 < eccSteps) :
    ∃ index : Int, mtkSnandSelectSparePerSector soc oobsize eccSteps 0 =
      .ok (index, sparePerSectorOf soc oobsize eccSteps) := by
  unfold mtkSnandSelectSparePerSector sparePerSectorOf scannedSpare spareShare
  rw [divU32_of_pos pos]
  simp only [bind, Except.bind, pure, Except.pure]
  split
  · rename_i i found
    exact ⟨i, by rw [found]; rfl⟩
  · rename_i none
    exact ⟨-1, by rw [none]; rfl⟩

theorem pagefmtSetup_eq (soc : SocData) {writesize eccSteps : Nat} (oobsize : Nat)
    (known : writesize ∈ pageSizes) (pos : 0 < eccSteps) :
    mtkSnandPagefmtSetup soc writesize oobsize eccSteps 0 =
      .ok (sparePerSectorOf soc oobsize eccSteps,
        soc.sectorSize + sparePerSectorOf soc oobsize eccSteps) := by
  obtain ⟨index, selected⟩ := selectSparePerSector_eq soc oobsize pos
  have unsigned : ¬BitVec.ofInt 32 index < 0 := by
    simp [BitVec.lt_def]
  unfold mtkSnandPagefmtSetup
  rw [if_neg (by simpa using known), selected]
  simp only [bind, Except.bind, pure, Except.pure, if_neg unsigned]

theorem pagefmtSetup_trap (soc : SocData) {writesize : Nat} (oobsize : Nat)
    (known : writesize ∈ pageSizes) :
    mtkSnandPagefmtSetup soc writesize oobsize 0 0 = .error .trap := by
  unfold mtkSnandPagefmtSetup
  rw [if_neg (by simpa using known)]
  rfl

theorem eccStrength_found : ∀ soc : Soc, ∀ spare ∈ 0 :: (mtkSnandSocs soc).spareSizes,
    (lastFitting (fun i => (mtkEccSocs soc).getD i 0 ≤
        u32 (subU32 (spare * (mtkSnandSocs soc).mul) (mtkSnandSocs soc).fdmSize * 8) /
          fls (1 + 8 * ((mtkSnandSocs soc).sectorSize + (mtkSnandSocs soc).fdmEccSize)))
      (mtkEccSocs soc).length).isSome := by
  intro soc
  cases soc <;> decide +kernel

theorem fls_pos {value : Nat} (pos : 0 < value) : 0 < fls value := by
  unfold fls
  rw [if_neg (by omega)]
  omega

theorem eccSetup_eq (soc : Soc) (idle : EccIdle) {spare : Nat}
    (known : spare ∈ 0 :: (mtkSnandSocs soc).spareSizes) :
    ∃ layout, mtkEccSetup (mtkEccSocs soc) idle
        (subU32 (spare * (mtkSnandSocs soc).mul) (mtkSnandSocs soc).fdmSize)
        ((mtkSnandSocs soc).sectorSize + (mtkSnandSocs soc).fdmEccSize) =
      if idle.enc = true ∧ idle.dec = true then .ok layout
      else .error (.error (errno EBUSY)) := by
  obtain ⟨i, found⟩ := Option.isSome_iff_exists.mp (eccStrength_found soc spare known)
  have parityBits : 0 < fls
      (1 + 8 * ((mtkSnandSocs soc).sectorSize + (mtkSnandSocs soc).fdmEccSize)) :=
    fls_pos (by omega)
  simp only [mtkEccSetup, divU32_of_pos parityBits, bind, Except.bind, pure, Except.pure, found]
  obtain ⟨enc, dec⟩ := idle
  cases enc with
  | false => exact ⟨default, rfl⟩
  | true =>
    cases dec with
    | false => exact ⟨default, rfl⟩
    | true => exact ⟨_, rfl⟩

/-! ## Sound layouts -/

/-- A layout in which every sector has its share of the page, as large as the table allows. -/
structure MtkSnand.Sound (snf : MtkSnand) : Prop where
  steps_pos : 0 < snf.eccSteps
  supported : ∃ size ∈ snf.nfiSoc.spareSizes, snf.sparePerSector = size * snf.nfiSoc.mul
  fits : snf.sparePerSector ≤ snf.oobsize / snf.eccSteps
  largest : ∀ size ∈ snf.nfiSoc.spareSizes, size * snf.nfiSoc.mul ≤ snf.oobsize / snf.eccSteps →
    size * snf.nfiSoc.mul ≤ snf.sparePerSector
  fdm_le : snf.nfiSoc.fdmSize ≤ snf.sparePerSector
  room : snf.eccSteps * (snf.nfiSoc.sectorSize + snf.sparePerSector) ≤ snf.writesize + snf.oobsize

def Proper (soc : Soc) (info : FlashInfo) : Try MtkSnand → Prop
  | .error .trap => False
  | .error (.error ret) => ret ≠ 0
  | .ok snf => snf.soc = soc ∧ snf.writesize = info.memorg.pagesize.toNat ∧
      snf.oobsize = info.memorg.sparesize.toNat ∧ snf.Sound

/-! ### What a setup depends on -/

section Setup

variable (bus : Bus) (soc : Soc) (quadSpi : Bool) (idle : EccIdle) (info : FlashInfo) (s : State)

def NoCommonMode : Prop :=
  mtkSnandSelectOpcode (snfiCaps quadSpi) info.capRd = none ∨
    mtkSnandSelectOpcode (snfiCaps quadSpi) info.capPl = none

def PageUnsupported : Prop :=
  (mtkSnandSocs soc).maxSectors < info.memorg.pagesize.toNat / (mtkSnandSocs soc).sectorSize ∨
    info.memorg.pagesize.toNat ∉ pageSizes

def usesQuad : Bool :=
  match mtkSnandSelectOpcode (snfiCaps quadSpi) info.capRd,
    mtkSnandSelectOpcode (snfiCaps quadSpi) info.capPl with
  | some (rfc, _), some (pl, _) => rfc = 3 || rfc = 4 || pl = 3
  | _, _ => false

/-- An ECC engine stays busy, or a die keeps its own ECC engine on. -/
def EngineFails : Prop :=
  ¬(idle.enc = true ∧ idle.dec = true) ∨
    (setupDies bus info.selectDie (usesQuad quadSpi info) info.memorg.ndies.toNat 0 s).1 ≠ 0

def shareOf : Nat :=
  spareShare (mtkSnandSocs soc) info.memorg.sparesize.toNat
    (info.memorg.pagesize.toNat / (mtkSnandSocs soc).sectorSize)

/-- Some spare size fits, and the scan does not take 61 for 62. -/
def SpareFound : Prop :=
  (∃ size ∈ (mtkSnandSocs soc).spareSizes, size ≤ shareOf soc info) ∧
    ¬((mtkSnandSocs soc).sectorSize = 1024 ∧ shareOf soc info = 62)

variable {soc quadSpi idle info s}

/-! ### The result of a setup -/

theorem format_noCommonMode (none : NoCommonMode quadSpi info) :
    mtkSnandFormat soc quadSpi idle info = .error (.error (errno ENOTSUPP)) := by
  rcases none with noRead | noProgram
  · simp only [mtkSnandFormat, noRead]
  · simp only [mtkSnandFormat, noProgram]
    cases mtkSnandSelectOpcode (snfiCaps quadSpi) info.capRd with
    | none => rfl
    | some mode => rfl

theorem modes_of_common (mode : ¬NoCommonMode quadSpi info) :
    ∃ rfc pl, mtkSnandSelectOpcode (snfiCaps quadSpi) info.capRd = some rfc ∧
      mtkSnandSelectOpcode (snfiCaps quadSpi) info.capPl = some pl := by
  obtain ⟨⟨rfc, rd⟩, ⟨pl, program⟩⟩ :=
    (not_or.mp mode).imp Option.ne_none_iff_exists'.mp Option.ne_none_iff_exists'.mp
  exact ⟨rfc, pl, rd, program⟩

theorem format_pageUnsupported (unsupported : PageUnsupported soc info) :
    mtkSnandFormat soc quadSpi idle info = .error (.error (errno ENOTSUPP)) := by
  by_cases none : NoCommonMode quadSpi info
  · exact format_noCommonMode none
  · obtain ⟨rfc, pl, rd, program⟩ := modes_of_common none
    simp only [mtkSnandFormat, rd, program]
    by_cases many : (mtkSnandSocs soc).maxSectors <
        info.memorg.pagesize.toNat / (mtkSnandSocs soc).sectorSize
    · rw [if_pos many]
    · have unknown : info.memorg.pagesize.toNat ∉ pageSizes := unsupported.resolve_left many
      rw [if_neg many]
      simp only [mtkSnandPagefmtSetup, if_pos unknown]
      rfl

theorem format_trap (mode : ¬NoCommonMode quadSpi info) (supported : ¬PageUnsupported soc info)
    (short : info.memorg.pagesize.toNat < (mtkSnandSocs soc).sectorSize) :
    mtkSnandFormat soc quadSpi idle info = .error .trap := by
  obtain ⟨rfc, pl, rd, program⟩ := modes_of_common mode
  obtain ⟨few, known⟩ := not_or.mp supported
  simp only [mtkSnandFormat, rd, program]
  rw [if_neg few, Nat.div_eq_of_lt short, pagefmtSetup_trap _ _ (not_not.mp known)]
  rfl

theorem sparePerSectorOf_known (soc : Soc) (oobsize eccSteps : Nat) :
    ∃ spare ∈ 0 :: (mtkSnandSocs soc).spareSizes,
      sparePerSectorOf (mtkSnandSocs soc) oobsize eccSteps = spare * (mtkSnandSocs soc).mul := by
  unfold sparePerSectorOf
  cases scanned : scannedSpare (mtkSnandSocs soc)
      (spareShare (mtkSnandSocs soc) oobsize eccSteps) with
  | none => exact ⟨0, List.mem_cons_self, (Nat.zero_mul _).symm⟩
  | some size => exact ⟨size, List.mem_cons_of_mem _ (scannedSpare_some _ _ scanned).1, rfl⟩

theorem steps_pos (sectors : (mtkSnandSocs soc).sectorSize ≤ info.memorg.pagesize.toNat) :
    0 < info.memorg.pagesize.toNat / (mtkSnandSocs soc).sectorSize := by
  refine Nat.div_pos sectors ?_
  rcases soc.sectorSize_cases with small | large
  · omega
  · omega

theorem format_of_sectors (mode : ¬NoCommonMode quadSpi info)
    (supported : ¬PageUnsupported soc info)
    (sectors : (mtkSnandSocs soc).sectorSize ≤ info.memorg.pagesize.toNat) :
    ∃ rfc pl ecc, mtkSnandFormat soc quadSpi idle info =
        (if idle.enc = true ∧ idle.dec = true then
          .ok (info.snand soc rfc pl
            (sparePerSectorOf (mtkSnandSocs soc) info.memorg.sparesize.toNat
                (info.memorg.pagesize.toNat / (mtkSnandSocs soc).sectorSize),
              (mtkSnandSocs soc).sectorSize +
                sparePerSectorOf (mtkSnandSocs soc) info.memorg.sparesize.toNat
                  (info.memorg.pagesize.toNat / (mtkSnandSocs soc).sectorSize)) ecc)
        else .error (.error (errno EBUSY))) ∧
      usesQuad quadSpi info = (rfc.1 = 3 || rfc.1 = 4 || pl.1 = 3) := by
  obtain ⟨rfc, pl, rd, program⟩ := modes_of_common mode
  obtain ⟨few, known⟩ := not_or.mp supported
  obtain ⟨spare, listed, same⟩ := sparePerSectorOf_known soc info.memorg.sparesize.toNat
    (info.memorg.pagesize.toNat / (mtkSnandSocs soc).sectorSize)
  obtain ⟨ecc, found⟩ := eccSetup_eq soc idle listed
  refine ⟨rfc, pl, ecc, ?_, ?_⟩
  · simp only [mtkSnandFormat, rd, program]
    rw [if_neg few, pagefmtSetup_eq _ _ (not_not.mp known) (steps_pos sectors), same]
    simp only [bind, Except.bind, pure, Except.pure, found]
    by_cases both : idle.enc = true ∧ idle.dec = true
    · rw [if_pos both, if_pos both]
    · rw [if_neg both, if_neg both]
  · simp only [usesQuad, rd, program]

theorem mul_pos (soc : SocData) : 0 < soc.mul := by
  unfold SocData.mul
  split <;> omega

/-- The layout is sound exactly when the scan finds the largest size that fits. -/
theorem snand_sound_iff {rfc pl : Nat × Byte × Byte} {ecc : Nat × Nat × Nat} {raw : Nat}
    (sectors : (mtkSnandSocs soc).sectorSize ≤ info.memorg.pagesize.toNat) :
    (info.snand soc rfc pl
      (sparePerSectorOf (mtkSnandSocs soc) info.memorg.sparesize.toNat
        (info.memorg.pagesize.toNat / (mtkSnandSocs soc).sectorSize), raw) ecc).Sound ↔
      SpareFound soc info := by
  have pos := steps_pos sectors
  have unit := mul_pos (mtkSnandSocs soc)
  have share (size : Nat) : size ≤ shareOf soc info ↔
      size * (mtkSnandSocs soc).mul ≤ info.memorg.sparesize.toNat /
        (info.memorg.pagesize.toNat / (mtkSnandSocs soc).sectorSize) :=
    Nat.le_div_iff_mul_le unit
  cases scanned : scannedSpare (mtkSnandSocs soc) (shareOf soc info) with
  | none =>
    have zero : sparePerSectorOf (mtkSnandSocs soc) info.memorg.sparesize.toNat
        (info.memorg.pagesize.toNat / (mtkSnandSocs soc).sectorSize) = 0 := by
      unfold sparePerSectorOf
      rw [← shareOf, scanned]
      rfl
    constructor
    · intro sound
      have fdm := sound.fdm_le
      rw [zero] at fdm
      change (mtkSnandSocs soc).fdmSize ≤ 0 at fdm
      rw [soc.fdmSize_eq] at fdm
      omega
    · rintro ⟨⟨size, member, le⟩, -⟩
      exact absurd le ((scannedSpare_eq_none_iff soc _).mp scanned size member)
  | some size =>
    obtain ⟨member, le, largest⟩ := scannedSpare_some soc _ scanned
    have same : sparePerSectorOf (mtkSnandSocs soc) info.memorg.sparesize.toNat
        (info.memorg.pagesize.toNat / (mtkSnandSocs soc).sectorSize) =
          size * (mtkSnandSocs soc).mul := by
      unfold sparePerSectorOf
      rw [← shareOf, scanned]
      rfl
    rw [same]
    constructor
    · intro sound
      refine ⟨⟨size, member, le⟩, largest.mp ⟨member, le, fun other among fits => ?_⟩⟩
      exact Nat.le_of_mul_le_mul_right (sound.largest other among ((share other).mp fits)) unit
    · rintro ⟨-, unlike⟩
      have whole := (share size).mp le
      refine ⟨pos, ⟨size, member, rfl⟩, whole, fun other among fits => ?_, ?_, ?_⟩
      · exact Nat.mul_le_mul_right _ ((largest.mpr unlike).2.2 other among ((share other).mpr fits))
      · change (mtkSnandSocs soc).fdmSize ≤ size * (mtkSnandSocs soc).mul
        rw [soc.fdmSize_eq]
        have := spareSize_ge soc size member
        nlinarith
      · change info.memorg.pagesize.toNat / (mtkSnandSocs soc).sectorSize *
            ((mtkSnandSocs soc).sectorSize + size * (mtkSnandSocs soc).mul) ≤
          info.memorg.pagesize.toNat + info.memorg.sparesize.toNat
        rw [Nat.mul_add]
        exact Nat.add_le_add (Nat.div_mul_le_self ..)
          ((Nat.mul_le_mul_left _ whole).trans (Nat.mul_div_le ..))

theorem setup_of_error {stop : Stop}
    (refused : mtkSnandFormat soc quadSpi idle info = .error stop) :
    (mtkSnandSetup bus soc quadSpi idle info s).1 = .error stop := by
  unfold mtkSnandSetup
  rw [refused]
  rfl

theorem setup_of_ok {snf : MtkSnand} (formatted : mtkSnandFormat soc quadSpi idle info = .ok snf) :
    (mtkSnandSetup bus soc quadSpi idle info s).1 =
      if (setupDies bus snf.selectDie snf.quadSpiOp snf.numDies 0 s).1 ≠ 0 then
        .error (.error (setupDies bus snf.selectDie snf.quadSpiOp snf.numDies 0 s).1)
      else .ok snf := by
  unfold mtkSnandSetup
  rw [formatted]
  simp only [bind, StateT.bind]
  cases setupDies bus snf.selectDie snf.quadSpiOp snf.numDies 0 s with
  | mk ret after =>
    by_cases fails : ret ≠ 0
    · simp only [if_pos fails]
      rfl
    · simp only [if_neg fails]
      rfl

theorem proper_refused {ret : CInt} (nonzero : ret ≠ 0) : Proper soc info (.error (.error ret)) :=
  nonzero

theorem setup_proper_of_sectors (mode : ¬NoCommonMode quadSpi info)
    (supported : ¬PageUnsupported soc info)
    (sectors : (mtkSnandSocs soc).sectorSize ≤ info.memorg.pagesize.toNat) :
    Proper soc info (mtkSnandSetup bus soc quadSpi idle info s).1 ↔
      EngineFails bus quadSpi idle info s ∨ SpareFound soc info := by
  obtain ⟨rfc, pl, ecc, formatted, quad⟩ := @format_of_sectors _ _ idle _ mode supported sectors
  unfold EngineFails
  by_cases both : idle.enc = true ∧ idle.dec = true
  · rw [if_pos both] at formatted
    rw [setup_of_ok bus formatted, quad]
    split
    · rename_i fails
      exact iff_of_true (proper_refused fails) (.inl (.inr fails))
    · rename_i fails
      constructor
      · rintro ⟨-, -, -, sound⟩
        exact .inr ((snand_sound_iff sectors).mp sound)
      · rintro ((busy | dies) | found)
        · exact absurd both busy
        · exact absurd dies fails
        · exact ⟨rfl, rfl, rfl, (snand_sound_iff sectors).mpr found⟩
  · rw [if_neg both] at formatted
    rw [setup_of_error bus formatted]
    exact iff_of_true (proper_refused (by decide)) (.inl (.inl both))

variable (soc quadSpi idle info s)

/-- A setup ends properly exactly when the chip is refused before its pages are split, or its pages
have sectors and the hardware refuses it or the scan finds the right spare size. -/
theorem setup_proper_iff :
    Proper soc info (mtkSnandSetup bus soc quadSpi idle info s).1 ↔
      NoCommonMode quadSpi info ∨ PageUnsupported soc info ∨
        (mtkSnandSocs soc).sectorSize ≤ info.memorg.pagesize.toNat ∧
          (EngineFails bus quadSpi idle info s ∨ SpareFound soc info) := by
  by_cases mode : NoCommonMode quadSpi info
  · rw [setup_of_error bus (format_noCommonMode mode)]
    exact iff_of_true (proper_refused (by decide)) (.inl mode)
  · by_cases supported : PageUnsupported soc info
    · rw [setup_of_error bus (format_pageUnsupported supported)]
      exact iff_of_true (proper_refused (by decide)) (.inr (.inl supported))
    · by_cases sectors : (mtkSnandSocs soc).sectorSize ≤ info.memorg.pagesize.toNat
      · rw [setup_proper_of_sectors bus mode supported sectors]
        simp only [mode, supported, sectors, false_or, true_and]
      · rw [setup_of_error bus (format_trap mode supported (by omega))]
        simp only [mode, supported, sectors, Proper, false_or, false_and]

end Setup

/-- A chip with pages of `pagesize` bytes and `sparesize` spare bytes that only knows the plainest
commands. -/
def plainChip (pagesize sparesize : BitVec 16) : FlashInfo where
  memorg := ⟨pagesize, sparesize, 64, 1024, 1⟩
  capRd := ⟨1, fun _ => (0x0b, 8)⟩
  capPl := ⟨1, fun _ => (0x02, 0)⟩
  selectDie := none

def quietBus : Bus where
  blockShift := 6
  transfer _ := .ok 0
  polls _ := 0
  load _ := 0
  parity _ _ _ := 0

def idleState : State := ⟨0, [], fun _ => 0, fun _ => 0, ⟨fun _ _ => 0xff, fun _ => 0xff⟩⟩

/-- A page of half a sector divides by zero, spare areas without room for any spare size are let
through, and a sector gets 61 where 62 fits. -/
theorem setup_improper :
    (¬Proper .mt7981 (plainChip 512 16)
        (mtkSnandSetup quietBus .mt7981 false ⟨true, true⟩ (plainChip 512 16) idleState).1) ∧
      (¬Proper .mt7622 (plainChip 2048 48)
        (mtkSnandSetup quietBus .mt7622 false ⟨true, true⟩ (plainChip 2048 48) idleState).1) ∧
      ¬Proper .mt7981 (plainChip 2048 248)
        (mtkSnandSetup quietBus .mt7981 false ⟨true, true⟩ (plainChip 2048 248) idleState).1 := by
  refine ⟨?_, ?_, ?_⟩
  · rintro ⟨⟩
  · rintro ⟨-, -, -, sound⟩
    exact absurd sound.fdm_le (by decide +kernel)
  · rintro ⟨-, -, -, sound⟩
    exact absurd (sound.largest 62 (by decide +kernel) (by decide +kernel)) (by decide +kernel)

end MetaFilogic.Snand
