import MetaFilogic.Upgrade.Parts

/-!
# The upgrade from a tar file

`ubi_dual_boot_upgrade_tar` of `nand.sh`.
-/

namespace MetaFilogic.Upgrade

open Journey

variable {before : Device} {booted : List String}

namespace TarParams

variable (p : TarParams) (o : TarOutcomes) (img : TarImage)

def plan (booted : List String) : Plan where
  slot := p.upgradeImageSlot
  parts := [(p.upgradeKernelPart, img.kernel), (p.upgradeRootfsPart, img.rootfs)]
  booted := booted

def prepared (before : Device) : Device :=
  (dualBootUpgradePrepareUbi p o.prepare (delivered img.kernel o.kernel.length).length
    (delivered img.rootfs o.rootfs.length).length (start before)).2.now

/-- The booted slot has volumes of its own; UBI is not formatted; both parts can be written if the
environment is to be changed; and the configuration is not saved to a volume of the booted slot. -/
structure Completes (booted : List String) (before : Device) : Prop where
  kernel : p.upgradeKernelPart ∉ booted
  rootfs : p.upgradeRootfsPart ∉ booted
  apart : p.upgradeKernelPart ≠ p.upgradeRootfsPart
  data : p.rootfsDataPart ∉ booted
  attaches : p.mtd = true → before.attached = true ∨ o.prepare.attach = true
  writes : EnvChanges p.upgradeImageSlot o.env →
    UbiWritable (p.prepared o img before) p.mtd p.upgradeKernelPart img.kernel o.kernel ∧
    UbiWritable (p.prepared o img before) p.mtd p.upgradeRootfsPart img.rootfs o.rootfs
  restores : p.reserveRootfsData = false → o.restore.saved = true → o.restore.mounted = true →
    ∀ name, (p.prepared o img before).configVol p = some name → name ∉ booted

end TarParams

structure SameVolumes (d d' : Device) : Prop where
  attached : d'.attached = d.attached
  vols : ∀ name, (d'.vols name).isSome = (d.vols name).isSome

variable {d : Device} {j : Journey Device}

theorem SameVolumes.configVol {d' : Device} (same : SameVolumes d d') (p : TarParams) :
    d'.configVol p = d.configVol p := by
  have found : ∀ name, (d'.findVolume p.mtd name).isSome = (d.findVolume p.mtd name).isSome := by
    intro name
    rw [Device.findVolume, Device.findVolume, same.attached]
    split
    · exact same.vols name
    · rfl
  rw [Device.configVol, Device.configVol, found, found]

theorem SameVolumes.stays_writeUbiPart {mtd : Bool} {name : String} {part : List (BitVec 8)}
    {o : PartOutcomes} : Stays (SameVolumes d) (writeUbiPart mtd name part o) := by
  refine MetaFilogic.Upgrade.stays_writeUbiPart fun vol found d' bytes whole same => ?_
  obtain ⟨other, sameOther, found⟩ := found
  have there : other.vols name = some vol := (Option.ite_none_right_eq_some.mp found).2
  refine ⟨same.attached, fun other' => ?_⟩
  by_cases here : other' = name
  · rw [here, setVol_self, ← sameOther.vols name, there]
    rfl
  · rw [setVol_of_ne here]
    exact same.vols other'

def KeepsConfig (inv : Device → Prop) (booted : List String) : Prop :=
  ∀ name ∉ booted, ∀ d, inv d →
    inv (d.setVol name ((d.vols name).map fun vol => { vol with config := true }))

theorem Idle.keepsConfig : KeepsConfig (Idle booted before) booted :=
  fun _ apart d => Idle.ignores apart d _

theorem Done.keepsConfig {plan : Plan} : KeepsConfig (Done plan before) plan.booted := by
  intro name apart d done
  refine ⟨fun part member some => ?_, done.env, fun other booted => ?_⟩
  · obtain ⟨vol, found, bytes, whole⟩ := done.parts part member some
    by_cases here : part.1 = name
    · refine ⟨{ vol with config := true }, ?_, bytes, whole⟩
      rw [here, setVol_self, ← here, found]
      rfl
    · exact ⟨vol, (setVol_of_ne here).trans found, bytes, whole⟩
  · have different : other ≠ name := fun same => apart (same ▸ booted)
    exact (setVol_of_ne different).trans (done.booted other booted)

theorem nandDoUpgradeSuccess_safe {inv safe : Device → Prop} {p : TarParams} {o : RestoreOutcomes}
    (keeps : KeepsConfig inv booted) (weaken : ∀ s, inv s → safe s) (now : inv j.now)
    (seen : ∀ s ∈ j.seen, safe s) (apart : o.saved = true → o.mounted = true →
      ∀ name, j.now.configVol p = some name → name ∉ booted) :
    Ensures (nandDoUpgradeSuccess p o) j fun _ after => ∀ s ∈ after.seen, safe s := by
  refine ensures_look ?_
  cases found : j.now.configVol p with
  | none => exact seen
  | some name =>
    refine .ite (fun saved => ?_) fun _ => seen
    rw [saveConfig]
    refine .ite (fun mounted => ?_) fun _ => seen
    have other := apart saved mounted name found
    intro s member
    exact (List.mem_cons.mp member).elim
      (fun last => last ▸ weaken _ (keeps name other j.now now)) (seen s)

variable {p : TarParams} {o : TarOutcomes} {img : TarImage}

theorem UbiWritable.ignores {mtd : Bool} {name other : String} {part : List (BitVec 8)}
    {po : PartOutcomes} (different : name ≠ other) :
    Ignores (fun d => UbiWritable d mtd name part po) other := by
  intro d vol writable some
  have same : (d.setVol other vol).findVolume mtd name = d.findVolume mtd name := by
    rw [Device.findVolume, Device.findVolume, setVol_of_ne different]
    rfl
  rw [same]
  exact writable some

theorem TarParams.Completes.writes_kernel (completes : p.Completes o img booted before)
    (idle : IdleSoFar booted before j) (now : j.now = p.prepared o img before) :
    Ensures (writeUbiPart p.mtd p.upgradeKernelPart img.kernel o.kernel) j fun _ after =>
      IdleSoFar booted before after ∧ SameVolumes (p.prepared o img before) after.now ∧
      (EnvChanges p.upgradeImageSlot o.env → Written after.now p.upgradeKernelPart img.kernel ∧
        UbiWritable after.now p.mtd p.upgradeRootfsPart img.rootfs o.rootfs) := by
  have stays : Stays (Idle booted before)
      (writeUbiPart p.mtd p.upgradeKernelPart img.kernel o.kernel) :=
    stays_writeUbiPart fun _ _ d _ _ => Idle.ignores completes.kernel d _
  have still : Stays (fun d => UbiWritable d p.mtd p.upgradeRootfsPart img.rootfs o.rootfs)
      (writeUbiPart p.mtd p.upgradeKernelPart img.kernel o.kernel) :=
    stays_writeUbiPart fun _ _ d _ _ => UbiWritable.ignores completes.apart.symm d _
  have same : SameVolumes (p.prepared o img before) j.now := now ▸ ⟨rfl, fun _ => rfl⟩
  refine (idle.ensures stays).both (((SameVolumes.stays_writeUbiPart).now same).both ?_)
  intro changes
  obtain ⟨kernel, rootfs⟩ := completes.writes changes
  rw [← now] at kernel rootfs
  exact ⟨writeUbiPart_written kernel, still.now rootfs⟩

theorem TarParams.Completes.writes_rootfs (completes : p.Completes o img booted before)
    (idle : IdleSoFar booted before j) (same : SameVolumes (p.prepared o img before) j.now)
    (writable : EnvChanges p.upgradeImageSlot o.env →
      Written j.now p.upgradeKernelPart img.kernel ∧
      UbiWritable j.now p.mtd p.upgradeRootfsPart img.rootfs o.rootfs) :
    Ensures (writeUbiPart p.mtd p.upgradeRootfsPart img.rootfs o.rootfs) j fun _ after =>
      IdleSoFar booted before after ∧ SameVolumes (p.prepared o img before) after.now ∧
      (EnvChanges p.upgradeImageSlot o.env → Written after.now p.upgradeKernelPart img.kernel ∧
        Written after.now p.upgradeRootfsPart img.rootfs) := by
  have stays : Stays (Idle booted before)
      (writeUbiPart p.mtd p.upgradeRootfsPart img.rootfs o.rootfs) :=
    stays_writeUbiPart fun _ _ d _ _ => Idle.ignores completes.rootfs d _
  have still : Stays (fun d => Written d p.upgradeKernelPart img.kernel)
      (writeUbiPart p.mtd p.upgradeRootfsPart img.rootfs o.rootfs) :=
    stays_writeUbiPart fun _ _ d _ _ => Written.ignores completes.apart d _
  refine (idle.ensures stays).both (((SameVolumes.stays_writeUbiPart).now same).both ?_)
  intro changes
  obtain ⟨kernel, rootfs⟩ := writable changes
  exact ⟨still.now kernel, writeUbiPart_written rootfs⟩

theorem SameVolumes.stays_setImageSlot {slot : String} {env : EnvOutcomes} :
    Stays (SameVolumes d) (setImageSlot slot env) := by
  rw [setImageSlot]
  split
  · exact .bind (stays_fwSetenv fun _ same => ⟨same.attached, same.vols⟩) fun _ =>
      stays_fwSetenv fun _ same => ⟨same.attached, same.vols⟩
  · exact .pure _

theorem setImageSlot_safe {plan : Plan} {env : EnvOutcomes} (idle : IdleSoFar plan.booted before j)
    (unselected : ¬ Selects plan.slot before)
    (parts : EnvChanges plan.slot env → ∀ part ∈ plan.parts, Written j.now part.1 part.2) :
    Ensures (setImageSlot plan.slot env) j fun _ after =>
      (∀ s ∈ after.seen, Safe plan before s) ∧
        (Idle plan.booted before after.now ∨ Done plan before after.now) := by
  have seen : ∀ s ∈ j.seen, Safe plan before s := fun s member => (idle.2 s member).safe unselected
  by_cases changes : EnvChanges plan.slot env
  · have done : Done plan before j.now :=
      ⟨parts changes, .inl (congrFun idle.1.env _), idle.1.booted⟩
    have sets : Stays (Done plan before) (setImageSlot plan.slot env) := Done.stays_setImageSlot
    exact (sets.ensures done (fun _ last => last.safe) seen).mono fun _ _ both =>
      ⟨both.2, .inr both.1⟩
  · have unchanged : plan.slot ≠ "" → env.current = false ∧ env.invalid = false := by
      intro some
      have neither := fun either => changes ⟨some, either⟩
      exact ⟨Bool.eq_false_iff.mpr fun set => neither (.inl set),
        Bool.eq_false_iff.mpr fun set => neither (.inr set)⟩
    rw [setImageSlot_eq_pure unchanged]
    exact .pure ⟨seen, .inl idle.1⟩

theorem ubiDualBootUpgradeTar_safe (unselected : ¬ Selects p.upgradeImageSlot before)
    (completes : p.upgradeKernelPart ≠ "" → p.upgradeRootfsPart ≠ "" →
      p.Completes o img booted before) :
    ∀ s ∈ (ubiDualBootUpgradeTar p o img (start before)).2.seen,
      Safe (p.plan img booted) before s := by
  let plan := p.plan img booted
  have unselected : ¬ Selects plan.slot before := unselected
  have idleSafe : ∀ s, Idle plan.booted before s → Safe plan before s :=
    fun s idle => idle.safe unselected
  have first : ∀ s ∈ (start before).seen, Safe (p.plan img booted) before s :=
    fun s member => idleSafe s (idleSoFar_start.2 s member)
  suffices Ensures (ubiDualBootUpgradeTar p o img) (start before) fun _ after =>
      ∀ s ∈ after.seen, Safe (p.plan img booted) before s from this
  rw [ubiDualBootUpgradeTar]
  refine .ite (fun _ => .pure first) fun kernelPart => ?_
  refine .ite (fun _ => .pure first) fun rootfsPart => ?_
  have completes := completes kernelPart rootfsPart
  have prepares : Ensures (dualBootUpgradePrepareUbi p o.prepare
      (delivered img.kernel o.kernel.length).length (delivered img.rootfs o.rootfs.length).length)
      (start before) fun _ after =>
        IdleSoFar booted before after ∧ after.now = p.prepared o img before :=
    ⟨prepare_idle completes.attaches completes.kernel completes.rootfs completes.data, rfl⟩
  refine .bind prepares fun _ j prepared => ?_
  refine .bind (completes.writes_kernel prepared.1 prepared.2) fun _ j kernel => ?_
  refine .bind (completes.writes_rootfs kernel.1 kernel.2.1 kernel.2.2) fun _ j rootfs => ?_
  obtain ⟨idle, same, parts⟩ := rootfs
  have complete : EnvChanges plan.slot o.env →
      ∀ part ∈ plan.parts, Written j.now part.1 part.2 := by
    intro changes part member
    rcases List.mem_cons.mp member with rfl | member
    · exact (parts changes).1
    · obtain rfl := List.mem_singleton.mp member
      exact (parts changes).2
  have kept : Stays (SameVolumes (p.prepared o img before)) (setImageSlot plan.slot o.env) :=
    SameVolumes.stays_setImageSlot
  refine .bind ((setImageSlot_safe idle unselected complete).both (kept.now same)) fun _ j both => ?_
  obtain ⟨⟨seen, last⟩, same⟩ := both
  refine .ite (fun renews => ?_) fun _ => .pure seen
  have restores := completes.restores (by simpa using renews)
  rw [← same.configVol p] at restores
  rcases last with idle | done
  · exact nandDoUpgradeSuccess_safe Idle.keepsConfig idleSafe idle seen restores
  · exact nandDoUpgradeSuccess_safe Done.keepsConfig (fun _ done => done.safe) done seen restores

end MetaFilogic.Upgrade
