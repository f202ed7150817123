import MetaFilogic.Library.Journey
import Mathlib.Logic.Function.Basic

/-!
# Commands of the upgrade scripts

The scripts change UBI volumes, partitions of an eMMC and the U-Boot environment by commands that
may fail.  Whether a command fails is given with the command.
-/

namespace MetaFilogic.Upgrade

open Journey

/-- A UBI volume or a partition: what the last image that was written to it holds, whether that has
been written completely, and whether the saved configuration is in its file system. -/
structure Volume where
  size : Nat
  bytes : List (BitVec 8)
  whole : Bool
  config : Bool
  deriving DecidableEq

/-- The volumes of the UBI device, which may not be attached, or the partitions, and the U-Boot
environment. -/
structure Device where
  vols : String → Option Volume
  attached : Bool
  env : String → Option String

namespace Device

variable (d : Device)

def setVol (name : String) (vol : Option Volume) : Device :=
  { d with vols := Function.update d.vols name vol }

def setEnv (name value : String) : Device :=
  { d with env := Function.update d.env name (some value) }

/-- `nand_find_volume` on the device that `nand_find_ubi` finds; `mtd` is whether the partition is
there. -/
def findVolume (mtd : Bool) (name : String) : Option Volume :=
  if mtd && d.attached then d.vols name else none

end Device

abbrev Script (α : Type) := StateM (Journey Device) α

def nandFindUbi (mtd : Bool) : Script Bool := look fun d => mtd && d.attached

def nandFindVolume (mtd : Bool) (name : String) : Script (Option Volume) :=
  look fun d => d.findVolume mtd name

def ubiattach (ok : Bool) : Script PUnit :=
  if ok then change fun d => { d with attached := true } else pure ⟨⟩

def ubiformat : Script PUnit := change fun d => { d with vols := fun _ => none }

def ubirmvol (name : String) (ok : Bool) : Script PUnit :=
  if ok then change fun d => d.setVol name none else pure ⟨⟩

def ubimkvol (name : String) (size : Nat) (ok : Bool) : Script Bool := do
  if (← look fun d => d.attached && (d.vols name).isNone) && decide (size ≠ 0) && ok then
    change fun d => d.setVol name (some ⟨size, [], false, false⟩)
    return true
  else return false

def ubiupdatevol (mtd : Bool) (name : String) (len : Nat) (stream : List (BitVec 8)) (ok : Bool) :
    Script Bool := do
  match ← nandFindVolume mtd name with
  | none => return false
  | some vol =>
    if vol.size < len then return false
    else
      change fun d => d.setVol name (some { vol with bytes := [], whole := false })
      if ok && decide (len ≤ stream.length) then
        change fun d => d.setVol name (some { vol with bytes := stream.take len, whole := true })
        return true
      else return false

def redirect (name : String) (stream : List (BitVec 8)) (opened ok : Bool) : Script PUnit :=
  if opened then do
    change fun d => d.setVol name (some ⟨0, [], false, false⟩)
    if ok then change fun d => d.setVol name (some ⟨0, stream, true, false⟩) else pure ⟨⟩
  else pure ⟨⟩

def fwSetenv (name value : String) (ok : Bool) : Script PUnit :=
  if ok then change fun d => d.setEnv name value else pure ⟨⟩

def saveConfig (name : String) (mounted : Bool) : Script PUnit :=
  if mounted then
    change fun d => d.setVol name ((d.vols name).map fun vol => { vol with config := true })
  else pure ⟨⟩

/-- What a command that reads a part of the image writes to its output, and `none` if it writes all
of it. -/
def delivered (part : List (BitVec 8)) : Option Nat → List (BitVec 8)
  | none => part
  | some n => part.take n

/-! ## The environment -/

def currentSlot : String := "dual_boot.current_slot"

def slotInvalid (slot : String) : String := "dual_boot.slot_" ++ slot ++ "_invalid"

/-- Whether the two calls of `fw_setenv` succeed. -/
structure EnvOutcomes where
  current : Bool
  invalid : Bool

def setImageSlot (slot : String) (o : EnvOutcomes) : Script PUnit :=
  if slot ≠ "" then do
    fwSetenv currentSlot slot o.current
    fwSetenv (slotInvalid slot) "0" o.invalid
  else pure ⟨⟩

end MetaFilogic.Upgrade
