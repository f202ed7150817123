import MetaFilogic.Upgrade.Device

/-!
# The dual-boot upgrade scripts

`ubi_dual_boot_upgrade_tar`, `ubi_dual_boot_upgrade_itb` and `mtk_mmc_do_upgrade_dual_boot`, with
the outcomes of their commands.  A function that returns 0 gives `true` here.
-/

namespace MetaFilogic.Upgrade

open Journey

/-- Of a part of the image: what the command that counts its bytes reads, what the command that
feeds the writing one reads, and whether the latter can open its target and succeeds. -/
structure PartOutcomes where
  length : Option Nat
  data : Option Nat
  opened : Bool
  write : Bool

/-! ## UBI, from a tar file -/

/-- The boot parameters, the root volume of a system without dual boot, and whether the partition
for UBI exists. -/
structure TarParams where
  mtd : Bool
  upgradeKernelPart : String
  upgradeRootfsPart : String
  rootfsDataPart : String
  upgradeImageSlot : String
  reserveRootfsData : Bool
  ciRootpart : String

/-- `ubiblock` is whether the block device of the root volume exists; `dataBytes` is what is read
as the size of the data volume. -/
structure TarPrepareOutcomes where
  attach : Bool
  attachAgain : Bool
  mkEnv : Bool
  ubiblock : Bool
  removeUbiblock : Bool
  rmKernel : Bool
  rmRootfs : Bool
  mkKernel : Bool
  mkRootfs : Bool
  rmData : Bool
  dataBytes : Nat
  mkData : Bool

def attachUbi (mtd : Bool) (ok : Bool) : Script PUnit := do
  if !(← nandFindUbi mtd) then ubiattach ok

def formatUbi (p : TarParams) (o : TarPrepareOutcomes) : Script PUnit := do
  if !(← nandFindUbi p.mtd) then
    ubiformat
    ubiattach o.attachAgain
    let _ ← ubimkvol "u-boot-env" (512 * 1024) o.mkEnv

def killVolume (vol : Option Volume) (name : String) (ok : Bool) : Script PUnit :=
  if vol.isSome then ubirmvol name ok else pure ⟨⟩

def formatDataVolume (p : TarParams) (o : TarPrepareOutcomes) (vol : Option Volume) :
    Script PUnit := do
  if vol.isSome then
    ubirmvol p.rootfsDataPart o.rmData
    let _ ← ubimkvol p.rootfsDataPart o.dataBytes o.mkData

def dualBootUpgradePrepareUbi (p : TarParams) (o : TarPrepareOutcomes)
    (kernelLength rootfsLength : Nat) : Script Bool := do
  if !p.mtd then return false
  attachUbi p.mtd o.attach
  formatUbi p o
  let kernUbivol ← nandFindVolume p.mtd p.upgradeKernelPart
  let rootUbivol ← nandFindVolume p.mtd p.upgradeRootfsPart
  let dataUbivol ← nandFindVolume p.mtd p.rootfsDataPart
  if rootUbivol.isSome && o.ubiblock && !o.removeUbiblock then return false
  killVolume kernUbivol p.upgradeKernelPart o.rmKernel
  killVolume rootUbivol p.upgradeRootfsPart o.rmRootfs
  if !(← ubimkvol p.upgradeKernelPart kernelLength o.mkKernel) then return false
  if !(← ubimkvol p.upgradeRootfsPart rootfsLength o.mkRootfs) then return false
  if p.reserveRootfsData then return true
  formatDataVolume p o dataUbivol
  return true

/-- `saved` is whether there is a saved configuration, `mounted` whether its volume is mounted. -/
structure RestoreOutcomes where
  saved : Bool
  mounted : Bool

/-- The volume to which `nand_restore_config` moves the configuration. -/
def Device.configVol (d : Device) (p : TarParams) : Option String :=
  if (d.findVolume p.mtd "rootfs_data").isSome then some "rootfs_data"
  else if (d.findVolume p.mtd p.ciRootpart).isSome then some p.ciRootpart
  else none

def nandDoUpgradeSuccess (p : TarParams) (o : RestoreOutcomes) : Script PUnit := do
  match ← look fun d => d.configVol p with
  | some name => if o.saved then saveConfig name o.mounted
  | none => return

structure TarOutcomes where
  prepare : TarPrepareOutcomes
  kernel : PartOutcomes
  rootfs : PartOutcomes
  env : EnvOutcomes
  restore : RestoreOutcomes

structure TarImage where
  kernel : List (BitVec 8)
  rootfs : List (BitVec 8)

def writeUbiPart (mtd : Bool) (name : String) (part : List (BitVec 8)) (o : PartOutcomes) :
    Script PUnit := do
  let length := (delivered part o.length).length
  if length ≠ 0 then
    let _ ← ubiupdatevol mtd name length (delivered part o.data) o.write

def ubiDualBootUpgradeTar (p : TarParams) (o : TarOutcomes) (img : TarImage) : Script PUnit := do
  if p.upgradeKernelPart = "" then return
  if p.upgradeRootfsPart = "" then return
  let _ ← dualBootUpgradePrepareUbi p o.prepare (delivered img.kernel o.kernel.length).length
    (delivered img.rootfs o.rootfs.length).length
  writeUbiPart p.mtd p.upgradeKernelPart img.kernel o.kernel
  writeUbiPart p.mtd p.upgradeRootfsPart img.rootfs o.rootfs
  setImageSlot p.upgradeImageSlot o.env
  if !p.reserveRootfsData then nandDoUpgradeSuccess p o.restore

/-! ## UBI, from a FIT image -/

structure ItbParams where
  mtd : Bool
  bootFirmwarePart : String
  upgradeFirmwarePart : String
  upgradeRootfsDataPart : String
  upgradeImageSlot : String
  reserveRootfsData : Bool
  rootfsDataSizeLimit : Option Nat
  envSize : Option Nat
  envUbiVolume : String
  envUbiVolumeRedund : String

/-- `available` is the number of bytes that a volume of the maximal size gets. -/
structure ItbPrepareOutcomes where
  attach : Bool
  attachAgain : Bool
  removeBootUbiblock : Bool
  removeUbiblock : Bool
  removeDataUbiblock : Bool
  rmFirmware : Bool
  rmData : Bool
  mkFirmware : Bool
  mkEnv : Bool
  mkEnvRedund : Bool
  available : Nat
  mkData : Bool

def nandAttachUbi (p : ItbParams) (o : ItbPrepareOutcomes) : Script PUnit := do
  if p.mtd then
    attachUbi p.mtd o.attach
    if !(← nandFindUbi p.mtd) then
      ubiformat
      ubiattach o.attachAgain

def makeEnvVolume (p : ItbParams) (name : String) (size : Nat) (ok : Bool) : Script PUnit := do
  if name ≠ "" && (← nandFindVolume p.mtd name).isNone then
    let _ ← ubimkvol name size ok

def ubiPrepareUBootEnv (p : ItbParams) (o : ItbPrepareOutcomes) : Script PUnit :=
  match p.envSize with
  | none => pure ⟨⟩
  | some size => do
    makeEnvVolume p p.envUbiVolume size o.mkEnv
    makeEnvVolume p p.envUbiVolumeRedund size o.mkEnvRedund

/-- `dual_boot_upgrade_prepare_ubi` of `nand_v2.sh`; the second try for the data volume names no
device. -/
def dualBootUpgradePrepareUbiV2 (p : ItbParams) (o : ItbPrepareOutcomes) (firmwareLength : Nat) :
    Script Bool := do
  nandAttachUbi p o
  let bootFwUbivol ← nandFindVolume p.mtd p.bootFirmwarePart
  let fwUbivol ← nandFindVolume p.mtd p.upgradeFirmwarePart
  let dataUbivol ← nandFindVolume p.mtd "rootfs_data"
  if bootFwUbivol.isSome && !o.removeBootUbiblock then return false
  if fwUbivol.isSome && !o.removeUbiblock then return false
  if dataUbivol.isSome && !o.removeDataUbiblock then return false
  killVolume fwUbivol p.upgradeFirmwarePart o.rmFirmware
  killVolume (if p.reserveRootfsData then none else dataUbivol) p.upgradeRootfsDataPart o.rmData
  if !(← ubimkvol p.upgradeFirmwarePart firmwareLength o.mkFirmware) then return false
  ubiPrepareUBootEnv p o
  if p.reserveRootfsData then return true
  ubimkvol p.upgradeRootfsDataPart (p.rootfsDataSizeLimit.getD o.available) o.mkData

structure ItbOutcomes where
  prepare : ItbPrepareOutcomes
  fit : PartOutcomes
  env : EnvOutcomes

def ubiDualBootUpgradeItb (p : ItbParams) (o : ItbOutcomes) (fit : List (BitVec 8)) :
    Script PUnit := do
  if p.bootFirmwarePart = "" then return
  if p.upgradeFirmwarePart = "" then return
  let fitLength := (delivered fit o.fit.length).length
  if !(← dualBootUpgradePrepareUbiV2 p o.prepare fitLength) then return
  if !(← ubiupdatevol p.mtd p.upgradeFirmwarePart fitLength (delivered fit o.fit.data)
      o.fit.write) then return
  setImageSlot p.upgradeImageSlot o.env

/-! ## eMMC -/

/-- The boot parameters; `blkid` is what the command finds, and `backup` whether the configuration
is to be kept. -/
structure MmcParams where
  upgradeKernelPart : String
  upgradeRootfsPart : String
  rootfsDataPart : String
  blkid : String → String
  upgradeImageSlot : String
  reserveRootfsData : Bool
  backup : Bool

def blockDevPath (blkid : String → String) (name : String) : Option String :=
  if "/dev/mmcblk".toList <+: name.toList then some name
  else if "PARTLABEL=".toList <+: name.toList ∨ "PARTUUID=".toList <+: name.toList then
    if blkid name = "" then none else some (blkid name)
  else none

structure MmcOutcomes where
  kernel : PartOutcomes
  rootfs : PartOutcomes
  env : EnvOutcomes
  mkfs : Bool
  mounted : Bool

def writeMmcPart (dev : String) (part : List (BitVec 8)) (o : PartOutcomes) : Script PUnit := do
  if (delivered part o.length).length ≠ 0 then
    redirect dev (delivered part o.data) o.opened o.write

def formatRootfsData (p : MmcParams) (o : MmcOutcomes) : Script PUnit := do
  match blockDevPath p.blkid p.rootfsDataPart with
  | none => return
  | some dev =>
    change fun d => d.setVol dev (some ⟨0, [], false, false⟩)
    if o.mkfs && p.backup then saveConfig dev o.mounted

def mtkMmcDoUpgradeDualBoot (p : MmcParams) (o : MmcOutcomes) (img : TarImage) :
    Script PUnit := do
  match blockDevPath p.blkid p.upgradeKernelPart, blockDevPath p.blkid p.upgradeRootfsPart with
  | some kernelDev, some rootfsDev =>
    writeMmcPart kernelDev img.kernel o.kernel
    writeMmcPart rootfsDev img.rootfs o.rootfs
    setImageSlot p.upgradeImageSlot o.env
    if !p.reserveRootfsData then formatRootfsData p o
  | _, _ => return

end MetaFilogic.Upgrade
