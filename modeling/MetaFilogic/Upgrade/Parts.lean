import MetaFilogic.Upgrade.Safety

/-!
# Parts of the image

Writing a part of the image completes it if its commands succeed; making the volumes for the parts
changes nothing of the booted slot.
-/

namespace MetaFilogic.Upgrade

open Journey

variable {before : Device} {booted : List String}

/-! ## Parts of the image -/

section

variable {inv : Device → Prop} {mtd : Bool} {name : String} {part : List (BitVec 8)}
  {o : PartOutcomes} {j : Journey Device}

theorem stays_writeUbiPart (ignores : ∀ vol, (∃ d, inv d ∧ d.findVolume mtd name = some vol) →
      ∀ d bytes whole, inv d → inv (d.setVol name (some { vol with bytes, whole }))) :
    Stays inv (writeUbiPart mtd name part o) := by
  rw [writeUbiPart]
  split
  · exact .bind (stays_ubiupdatevol ignores) fun _ => .pure _
  · exact .pure _

theorem stays_writeMmcPart (ignores : Ignores inv name) : Stays inv (writeMmcPart name part o) := by
  rw [writeMmcPart]
  split
  · exact stays_redirect ignores
  · exact .pure _

/-- The part is counted and read completely, and its volume is there and large enough and is
written. -/
def UbiWritable (d : Device) (mtd : Bool) (name : String) (part : List (BitVec 8))
    (o : PartOutcomes) : Prop :=
  part ≠ [] → delivered part o.length = part ∧ delivered part o.data = part ∧ o.write = true ∧
    ∃ vol, d.findVolume mtd name = some vol ∧ part.length ≤ vol.size

def EnvChanges (slot : String) (o : EnvOutcomes) : Prop :=
  slot ≠ "" ∧ (o.current = true ∨ o.invalid = true)

theorem ubiupdatevol_vols {len : Nat} {stream : List (BitVec 8)} {vol : Volume}
    (found : j.now.findVolume mtd name = some vol) (fits : len ≤ vol.size)
    (enough : len ≤ stream.length) :
    Ensures (ubiupdatevol mtd name len stream true) j fun _ after =>
      after.now.vols name = some { vol with bytes := stream.take len, whole := true } := by
  refine ensures_look ?_
  rw [found]
  refine .ite (fun short => absurd fits (Nat.not_le.mpr short)) fun _ => ensures_change ?_
  refine .ite (fun _ => ensures_change (.pure setVol_self)) fun failed => absurd ?_ failed
  rw [Bool.true_and]
  exact decide_eq_true enough

theorem writeUbiPart_written (writable : UbiWritable j.now mtd name part o) :
    Ensures (writeUbiPart mtd name part o) j fun _ after => Written after.now name part := by
  by_cases empty : part = []
  · exact fun some => absurd empty some
  obtain ⟨counted, read, written, vol, found, fits⟩ := writable empty
  rw [writeUbiPart, counted, read, written]
  have some : part.length ≠ 0 := fun none => empty (List.eq_nil_of_length_eq_zero none)
  refine .ite (fun _ => ?_) fun none => absurd some none
  refine .bind (ubiupdatevol_vols found fits (Nat.le_refl _)) fun _ _ vols => .pure fun _ => ?_
  exact ⟨_, vols, List.take_length, rfl⟩

/-- Some byte of the part is counted, it is read completely, and the partition is opened and
written. -/
def MmcWritable (part : List (BitVec 8)) (o : PartOutcomes) : Prop :=
  part ≠ [] → delivered part o.length ≠ [] ∧ delivered part o.data = part ∧ o.opened = true ∧
    o.write = true

theorem writeMmcPart_written (writable : MmcWritable part o) :
    Ensures (writeMmcPart name part o) j fun _ after => Written after.now name part := by
  by_cases empty : part = []
  · exact fun some => absurd empty some
  obtain ⟨counted, read, opened, written⟩ := writable empty
  rw [writeMmcPart, read, redirect, opened, written]
  have some : (delivered part o.length).length ≠ 0 :=
    fun none => counted (List.eq_nil_of_length_eq_zero none)
  refine .ite (fun _ => ensures_change ?_) fun none => absurd some none
  exact fun _ => ⟨_, setVol_self, rfl, rfl⟩

end

theorem Written.ignores {name other : String} {part : List (BitVec 8)} (different : name ≠ other) :
    Ignores (fun d => Written d name part) other :=
  fun _ _ written some => (written some).imp fun _ found =>
    found.imp_left (setVol_of_ne different).trans

/-! ## Preparing the volumes -/

def IdleSoFar (booted : List String) (before : Device) (j : Journey Device) : Prop :=
  Idle booted before j.now ∧ ∀ s ∈ j.seen, Idle booted before s

theorem idleSoFar_start : IdleSoFar booted before (start before) :=
  ⟨.refl, fun _ member => List.mem_singleton.mp member ▸ .refl⟩

theorem IdleSoFar.ensures {α : Type} {script : Script α} {j : Journey Device}
    (idle : IdleSoFar booted before j) (stays : Stays (Idle booted before) script) :
    Ensures script j fun _ after => IdleSoFar booted before after :=
  stays.ensures idle.1 (fun _ => id) idle.2

theorem stays_killVolume {inv : Device → Prop} {vol : Option Volume} {name : String} {ok : Bool}
    (ignores : Ignores inv name) : Stays inv (killVolume vol name ok) := by
  rw [killVolume]
  split
  · exact stays_ubirmvol ignores
  · exact .pure _

theorem attachUbi_idle (booted : List String) {mtd ok : Bool} (there : mtd = true)
    (attaches : before.attached = true ∨ ok = true) :
    Ensures (attachUbi mtd ok) (start before) fun _ after =>
      IdleSoFar booted before after ∧ after.now.attached = true := by
  refine ensures_look ?_
  rw [there]
  change Ensures (if (!before.attached) = true then ubiattach ok else pure ⟨⟩) _ _
  refine .ite (fun missing => ?_) fun found => .pure ⟨idleSoFar_start, ?_⟩
  · have detached : before.attached = false := Bool.not_eq_true' _ ▸ missing
    rw [attaches.resolve_left fun attached => nomatch detached.symm.trans attached]
    refine ⟨⟨⟨rfl, fun _ _ => rfl⟩, fun s member => ?_⟩, rfl⟩
    rcases List.mem_cons.mp member with rfl | first
    · exact ⟨rfl, fun _ _ => rfl⟩
    · exact idleSoFar_start.2 s first
  · have attached : before.attached = true := by simpa using found
    exact attached

theorem prepare_idle {p : TarParams} {o : TarPrepareOutcomes} {kernelLength rootfsLength : Nat}
    (attaches : p.mtd = true → before.attached = true ∨ o.attach = true)
    (kernel : p.upgradeKernelPart ∉ booted) (rootfs : p.upgradeRootfsPart ∉ booted)
    (data : p.rootfsDataPart ∉ booted) :
    Ensures (dualBootUpgradePrepareUbi p o kernelLength rootfsLength) (start before)
      fun _ after => IdleSoFar booted before after := by
  rw [dualBootUpgradePrepareUbi]
  refine .ite (fun _ => .pure idleSoFar_start) fun there => ?_
  have there : p.mtd = true := by simpa using there
  refine .bind (attachUbi_idle booted there (attaches there)) fun _ j both => ?_
  obtain ⟨idle, attached⟩ := both
  have formatted : Ensures (formatUbi p o) j fun _ after => IdleSoFar booted before after := by
    refine ensures_look ?_
    rw [there, attached]
    exact .pure idle
  refine .bind formatted fun _ j idle => ?_
  refine ensures_look (ensures_look (ensures_look ?_))
  refine .ite (fun _ => .pure idle) fun _ => idle.ensures ?_
  have kernelIgnored : Ignores (Idle booted before) p.upgradeKernelPart := .ignores kernel
  have rootfsIgnored : Ignores (Idle booted before) p.upgradeRootfsPart := .ignores rootfs
  have dataIgnored : Ignores (Idle booted before) p.rootfsDataPart := .ignores data
  refine .bind (stays_killVolume kernelIgnored) fun _ => ?_
  refine .bind (stays_killVolume rootfsIgnored) fun _ => ?_
  refine .bind (stays_ubimkvol kernelIgnored) fun made => .ite (fun _ => .pure _) fun _ => ?_
  refine .bind (stays_ubimkvol rootfsIgnored) fun made => .ite (fun _ => .pure _) fun _ => ?_
  refine .ite (fun _ => .pure _) fun _ => .bind ?_ fun _ => .pure _
  refine .ite (fun _ => ?_) fun _ => .pure _
  exact .bind (stays_ubirmvol dataIgnored) fun _ => .bind (stays_ubimkvol dataIgnored) fun _ =>
    .pure _

end MetaFilogic.Upgrade
