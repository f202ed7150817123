import MetaFilogic.Upgrade.Tar

/-!
# Complete before selected

The three scripts are safe at every point of interruption when the parts of the image are written
by commands that succeed before the environment is changed.
-/

namespace MetaFilogic.Upgrade

open Journey

variable {before : Device} {booted : List String}

/-! ## UBI, from a FIT image -/

namespace ItbParams

variable (p : ItbParams) (o : ItbOutcomes) (fit : List (BitVec 8))

def plan (booted : List String) : Plan where
  slot := p.upgradeImageSlot
  parts := [(p.upgradeFirmwarePart, fit)]
  booted := booted

/-- The booted slot has volumes of its own; UBI is not formatted; and the image is counted completely
if it is written and the environment is to be changed. -/
structure Completes (booted : List String) (before : Device) : Prop where
  firmware : p.upgradeFirmwarePart ∉ booted
  data : p.upgradeRootfsDataPart ∉ booted
  envVolume : p.envUbiVolume ∉ booted
  envVolumeRedund : p.envUbiVolumeRedund ∉ booted
  attaches : p.mtd = true → before.attached = true ∨ o.prepare.attach = true
  counted : EnvChanges p.upgradeImageSlot o.env → o.fit.write = true →
    delivered fit o.fit.length = fit

end ItbParams

variable {inv : Device → Prop} {name : String}

theorem stays_makeEnvVolume {p : ItbParams} {size : Nat} {ok : Bool} (ignores : Ignores inv name) :
    Stays inv (makeEnvVolume p name size ok) := by
  refine stays_look fun _ _ => .ite (fun _ => ?_) fun _ => .pure _
  exact .bind (stays_ubimkvol ignores) fun _ => .pure _

theorem stays_ubiPrepareUBootEnv {p : ItbParams} {o : ItbPrepareOutcomes}
    (envVolume : Ignores inv p.envUbiVolume) (redund : Ignores inv p.envUbiVolumeRedund) :
    Stays inv (ubiPrepareUBootEnv p o) := by
  rw [ubiPrepareUBootEnv]
  split
  next => exact .pure _
  next => exact .bind (stays_makeEnvVolume envVolume) fun _ => stays_makeEnvVolume redund

theorem prepareV2_idle {p : ItbParams} {o : ItbOutcomes} {fit : List (BitVec 8)} {length : Nat}
    (completes : p.Completes o fit booted before) :
    Ensures (dualBootUpgradePrepareUbiV2 p o.prepare length) (start before)
      fun _ after => IdleSoFar booted before after := by
  have attached : Ensures (nandAttachUbi p o.prepare) (start before) fun _ after =>
      IdleSoFar booted before after := by
    refine .ite (fun there => ?_) fun _ => .pure idleSoFar_start
    refine .bind (attachUbi_idle booted there (completes.attaches there)) fun _ j both => ?_
    refine ensures_look ?_
    rw [there, both.2]
    exact .pure both.1
  refine .bind attached fun _ j idle => ensures_look (ensures_look (ensures_look ?_))
  refine .ite (fun _ => .pure idle) fun _ => .ite (fun _ => .pure idle) fun _ => ?_
  refine .ite (fun _ => .pure idle) fun _ => idle.ensures ?_
  have firmware : Ignores (Idle booted before) p.upgradeFirmwarePart := .ignores completes.firmware
  have data : Ignores (Idle booted before) p.upgradeRootfsDataPart := .ignores completes.data
  refine .bind (stays_killVolume firmware) fun _ => .bind (stays_killVolume data) fun _ => ?_
  refine .bind (stays_ubimkvol firmware) fun _ => .ite (fun _ => .pure _) fun _ => ?_
  refine .bind ?_ fun _ => .ite (fun _ => .pure _) fun _ => stays_ubimkvol data
  exact stays_ubiPrepareUBootEnv (.ignores completes.envVolume) (.ignores completes.envVolumeRedund)

/-- `ubiupdatevol` succeeds only when the volume has all bytes. -/
theorem ubiupdatevol_done {mtd : Bool} {len : Nat} {stream : List (BitVec 8)} {ok : Bool}
    {j : Journey Device} :
    Ensures (ubiupdatevol mtd name len stream ok) j fun done after => done = true →
      ok = true ∧ len ≤ stream.length ∧ ∃ vol : Volume,
        after.now.vols name = some { vol with bytes := stream.take len, whole := true } := by
  refine ensures_look ?_
  split
  next => exact .pure nofun
  next vol _ =>
    refine .ite (fun _ => .pure nofun) fun _ => ensures_change ?_
    refine .ite (fun both => ensures_change (.pure fun _ => ?_)) fun _ => .pure nofun
    obtain ⟨succeeds, enough⟩ := (Bool.and_eq_true _ _).mp both
    exact ⟨succeeds, of_decide_eq_true enough, vol, setVol_self⟩

theorem take_delivered {part : List (BitVec 8)} {pass : Option Nat}
    (enough : part.length ≤ (delivered part pass).length) :
    (delivered part pass).take part.length = part := by
  cases pass with
  | none => exact List.take_length
  | some n =>
    have all : (part.take n).length ≤ part.length := List.length_take_le' _ _
    have same : part.take n = part :=
      (List.take_prefix n part).eq_of_length (Nat.le_antisymm all enough)
    rw [delivered, same, List.take_length]

theorem ubiDualBootUpgradeItb_safe {p : ItbParams} {o : ItbOutcomes} {fit : List (BitVec 8)}
    (unselected : ¬ Selects p.upgradeImageSlot before)
    (completes : p.bootFirmwarePart ≠ "" → p.upgradeFirmwarePart ≠ "" →
      p.Completes o fit booted before) :
    ∀ s ∈ (ubiDualBootUpgradeItb p o fit (start before)).2.seen,
      Safe (p.plan fit booted) before s := by
  let plan := p.plan fit booted
  have unselected : ¬ Selects plan.slot before := unselected
  have idleSafe : ∀ {j}, IdleSoFar plan.booted before j → ∀ s ∈ j.seen, Safe plan before s :=
    fun idle s member => (idle.2 s member).safe unselected
  suffices Ensures (ubiDualBootUpgradeItb p o fit) (start before) fun _ after =>
      ∀ s ∈ after.seen, Safe plan before s from this
  rw [ubiDualBootUpgradeItb]
  refine .ite (fun _ => .pure (idleSafe idleSoFar_start)) fun bootFirmwarePart => ?_
  refine .ite (fun _ => .pure (idleSafe idleSoFar_start)) fun firmwarePart => ?_
  have completes := completes bootFirmwarePart firmwarePart
  refine .bind (prepareV2_idle completes) fun _ j idle => ?_
  refine .ite (fun _ => .pure (idleSafe idle)) fun _ => ?_
  have writes : Stays (Idle booted before) (ubiupdatevol p.mtd p.upgradeFirmwarePart
      (delivered fit o.fit.length).length (delivered fit o.fit.data) o.fit.write) :=
    stays_ubiupdatevol fun _ _ d _ _ => Idle.ignores completes.firmware d _
  refine .bind ((idle.ensures writes).both ubiupdatevol_done) fun done j both => ?_
  obtain ⟨idle, whole⟩ := both
  refine .ite (fun _ => .pure (idleSafe idle)) fun updated => ?_
  obtain ⟨succeeds, enough, vol, found⟩ := whole (by simpa using updated)
  have complete : EnvChanges plan.slot o.env →
      ∀ part ∈ plan.parts, Written j.now part.1 part.2 := by
    intro changes part member _
    obtain rfl := List.mem_singleton.mp member
    rw [completes.counted changes succeeds] at enough found
    exact ⟨_, found, take_delivered enough, rfl⟩
  exact (setImageSlot_safe idle unselected complete).mono fun _ _ both => both.1

/-! ## eMMC -/

namespace MmcParams

variable (p : MmcParams) (o : MmcOutcomes) (img : TarImage)

def kernelDev : Option String := blockDevPath p.blkid p.upgradeKernelPart
def rootfsDev : Option String := blockDevPath p.blkid p.upgradeRootfsPart
def rootfsDataDev : Option String := blockDevPath p.blkid p.rootfsDataPart

def plan (booted : List String) : Plan where
  slot := p.upgradeImageSlot
  parts := [(p.kernelDev.getD "", img.kernel), (p.rootfsDev.getD "", img.rootfs)]
  booted := booted

/-- The booted slot has partitions of its own, and both parts can be written if the environment is
to be changed. -/
structure Completes (kernelDev rootfsDev : String) (booted : List String) : Prop where
  kernel : kernelDev ∉ booted
  rootfs : rootfsDev ∉ booted
  apart : kernelDev ≠ rootfsDev
  data : p.reserveRootfsData = false → ∀ dev, p.rootfsDataDev = some dev →
    dev ∉ booted ∧ dev ≠ kernelDev ∧ dev ≠ rootfsDev
  writes : EnvChanges p.upgradeImageSlot o.env →
    MmcWritable img.kernel o.kernel ∧ MmcWritable img.rootfs o.rootfs

end MmcParams

theorem Done.ignores {plan : Plan} (apart : name ∉ plan.booted)
    (others : ∀ part ∈ plan.parts, part.1 ≠ name) : Ignores (Done plan before) name := by
  refine fun d vol done => ⟨fun part member => ?_, done.env, fun other booted => ?_⟩
  · exact Written.ignores (others part member) d vol (done.parts part member)
  · exact (setVol_of_ne fun same : other = name => apart (same ▸ booted)).trans
      (done.booted other booted)

theorem stays_formatRootfsData {p : MmcParams} {o : MmcOutcomes}
    (ignores : ∀ dev, p.rootfsDataDev = some dev → Ignores inv dev) :
    Stays inv (formatRootfsData p o) := by
  rw [formatRootfsData]
  split
  next => exact .pure _
  next dev found =>
    refine .bind (stays_change fun d => ignores dev found d _) fun _ => ?_
    exact .ite (fun _ => stays_saveConfig fun d => ignores dev found d _) fun _ => .pure _

theorem mtkMmcDoUpgradeDualBoot_safe {p : MmcParams} {o : MmcOutcomes} {img : TarImage}
    (unselected : ¬ Selects p.upgradeImageSlot before)
    (completes : ∀ kernelDev rootfsDev, p.kernelDev = some kernelDev →
      p.rootfsDev = some rootfsDev → p.Completes o img kernelDev rootfsDev booted) :
    ∀ s ∈ (mtkMmcDoUpgradeDualBoot p o img (start before)).2.seen,
      Safe (p.plan img booted) before s := by
  let plan := p.plan img booted
  have unselected : ¬ Selects plan.slot before := unselected
  suffices Ensures (mtkMmcDoUpgradeDualBoot p o img) (start before) fun _ after =>
      ∀ s ∈ after.seen, Safe plan before s from this
  have first : ∀ s ∈ (start before).seen, Safe plan before s :=
    fun s member => Idle.safe (idleSoFar_start.2 s member) unselected
  rw [mtkMmcDoUpgradeDualBoot, ← MmcParams.kernelDev, ← MmcParams.rootfsDev]
  cases kernelFound : p.kernelDev with
  | none => exact first
  | some kernelDev =>
  cases rootfsFound : p.rootfsDev with
  | none => exact first
  | some rootfsDev =>
  have completes := completes kernelDev rootfsDev kernelFound rootfsFound
  have parts_eq : plan.parts = [(kernelDev, img.kernel), (rootfsDev, img.rootfs)] := by
    change [(p.kernelDev.getD "", img.kernel), (p.rootfsDev.getD "", img.rootfs)] = _
    rw [kernelFound, rootfsFound]
    rfl
  have kernelIdle : Ignores (Idle booted before) kernelDev := .ignores completes.kernel
  have rootfsIdle : Ignores (Idle booted before) rootfsDev := .ignores completes.rootfs
  have kernel : Ensures (writeMmcPart kernelDev img.kernel o.kernel) (start before) fun _ after =>
      IdleSoFar booted before after ∧
        (EnvChanges plan.slot o.env → Written after.now kernelDev img.kernel) :=
    (idleSoFar_start.ensures (stays_writeMmcPart kernelIdle)).both fun changes =>
      writeMmcPart_written (completes.writes changes).1
  refine .bind kernel fun _ j both => ?_
  obtain ⟨idle, kernelWritten⟩ := both
  have keeps : Stays (fun d => Written d kernelDev img.kernel)
      (writeMmcPart rootfsDev img.rootfs o.rootfs) :=
    stays_writeMmcPart (Written.ignores completes.apart)
  have rootfs : Ensures (writeMmcPart rootfsDev img.rootfs o.rootfs) j fun _ after =>
      IdleSoFar booted before after ∧ (EnvChanges plan.slot o.env →
        Written after.now kernelDev img.kernel ∧ Written after.now rootfsDev img.rootfs) :=
    (idle.ensures (stays_writeMmcPart rootfsIdle)).both fun changes =>
      ⟨keeps.now (kernelWritten changes), writeMmcPart_written (completes.writes changes).2⟩
  refine .bind rootfs fun _ j both => ?_
  obtain ⟨idle, parts⟩ := both
  have complete : EnvChanges plan.slot o.env →
      ∀ part ∈ plan.parts, Written j.now part.1 part.2 := by
    intro changes part member
    rw [parts_eq] at member
    rcases List.mem_cons.mp member with rfl | member
    · exact (parts changes).1
    · obtain rfl := List.mem_singleton.mp member
      exact (parts changes).2
  refine .bind (setImageSlot_safe idle unselected complete) fun _ j both => ?_
  obtain ⟨seen, last⟩ := both
  refine .ite (fun renews => ?_) fun _ => .pure seen
  have data := completes.data (by simpa using renews)
  rcases last with idle | done
  · have format : Stays (Idle plan.booted before) (formatRootfsData p o) :=
      stays_formatRootfsData fun dev found => .ignores (data dev found).1
    exact (format.ensures idle (fun _ idle => idle.safe unselected) seen).mono fun _ _ both => both.2
  · have format : Stays (Done plan before) (formatRootfsData p o) := by
      refine stays_formatRootfsData fun dev found => .ignores (data dev found).1 ?_
      intro part member
      rw [parts_eq] at member
      rcases List.mem_cons.mp member with rfl | member
      · exact (data dev found).2.1.symm
      · obtain rfl := List.mem_singleton.mp member
        exact (data dev found).2.2.symm
    exact (format.ensures done (fun _ done => done.safe) seen).mono fun _ _ both => both.2

/-! ## All scripts -/

def booted0 : Device where
  vols name := if name = "kernel" ∨ name = "rootfs" then some ⟨2, [1, 2], true, false⟩ else none
  attached := true
  env name := if name = currentSlot then some "0" else none

theorem booted0_unselected : ¬ Selects "1" booted0 := by
  rintro (current | valid)
  · simp [booted0] at current
  · have other := slotInvalid_ne "1"
    simp [booted0, other.symm] at valid

def allWell : PartOutcomes := ⟨none, none, true, true⟩

def tarParams : TarParams := ⟨true, "kernel2", "rootfs2", "rootfs_data", "1", false, "rootfs"⟩

def tarOutcomes : TarOutcomes where
  prepare := ⟨true, true, true, false, true, true, true, true, true, true, 0, true⟩
  kernel := allWell
  rootfs := allWell
  env := ⟨true, true⟩
  restore := ⟨false, false⟩

def image : TarImage := ⟨[3], [4, 5]⟩

def itbParams : ItbParams :=
  ⟨true, "fit", "fit2", "rootfs_data", "1", true, none, none, "ubootenv", "ubootenv2"⟩

def itbOutcomes : ItbOutcomes where
  prepare := ⟨true, true, true, true, true, true, true, true, true, true, 0, true⟩
  fit := allWell
  env := ⟨true, true⟩

def mmcParams : MmcParams :=
  ⟨"/dev/mmcblk0p3", "/dev/mmcblk0p4", "", fun _ => "", "1", true, false⟩

def mmcOutcomes (rootfsWritten : Bool) : MmcOutcomes where
  kernel := allWell
  rootfs := { allWell with write := rootfsWritten }
  env := ⟨true, true⟩
  mkfs := true
  mounted := true

theorem tar_completes : tarParams.Completes tarOutcomes image ["kernel", "rootfs"] booted0 where
  kernel := by decide
  rootfs := by decide
  apart := by decide
  data := by decide
  attaches _ := .inl rfl
  writes _ := ⟨fun _ => ⟨rfl, rfl, rfl, ⟨1, [], false, false⟩, by decide, by decide⟩,
    fun _ => ⟨rfl, rfl, rfl, ⟨2, [], false, false⟩, by decide, by decide⟩⟩
  restores _ saved := nomatch saved

theorem itb_completes : itbParams.Completes itbOutcomes [3, 4] ["kernel", "rootfs"] booted0 where
  firmware := by decide
  data := by decide
  envVolume := by decide
  envVolumeRedund := by decide
  attaches _ := .inl rfl
  counted _ _ := rfl

theorem mmc_completes {kernelDev rootfsDev : String} (kernel : mmcParams.kernelDev = some kernelDev)
    (rootfs : mmcParams.rootfsDev = some rootfsDev) :
    mmcParams.Completes (mmcOutcomes true) image kernelDev rootfsDev ["kernel", "rootfs"] := by
  have kernelFound : mmcParams.kernelDev = some "/dev/mmcblk0p3" := by decide
  have rootfsFound : mmcParams.rootfsDev = some "/dev/mmcblk0p4" := by decide
  obtain rfl := Option.some_inj.mp (kernelFound.symm.trans kernel)
  obtain rfl := Option.some_inj.mp (rootfsFound.symm.trans rootfs)
  exact
    { kernel := by decide
      rootfs := by decide
      apart := by decide
      data := nofun
      writes := fun _ => ⟨fun _ => ⟨nofun, rfl, rfl, rfl⟩, fun _ => ⟨nofun, rfl, rfl, rfl⟩⟩ }

end MetaFilogic.Upgrade
