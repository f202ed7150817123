import MetaFilogic.Mt753x.Vlan

/-!
# The table of the switch follows that of the driver

After an apply the switch has an entry for the vids of the VLANs with members and for no others,
but for the highest vid, which the driver programs and never clears.
-/

namespace MetaFilogic.Mt753x

open Function (update update_self update_of_ne)

/-! ## Entries -/

theorem hwEntry_valid (etags : BitVec 8) : ∀ ports : BitVec 8,
    (hwEntry ports etags).valid = true ↔ ports ≠ 0 := by
  simp only [HwEntry.valid, hwEntry]
  decide +kernel

theorem hwEntry_member (etags : BitVec 8) : ∀ ports : BitVec 8,
    (hwEntry ports etags).member = ports := by
  simp only [HwEntry.member, hwEntry]
  decide +kernel

theorem hwEntry_etag (ports : BitVec 8) : ∀ etags : BitVec 8, ∀ port < MT753X_NUM_PORTS,
    (hwEntry ports etags).etag port =
      if etags.getLsbD port then ETAG_CTRL_TAG else ETAG_CTRL_UNTAG := by
  simp only [HwEntry.etag, hwEntry]
  decide +kernel

theorem vtcr_fields (vid control : BitVec 32) (low : control &&& VTCR_VID_M = 0) :
    (control ||| (vid &&& VTCR_VID_M)) &&& VTCR_FUNC_M = control &&& VTCR_FUNC_M ∧
      (control ||| (vid &&& VTCR_VID_M)) &&& VTCR_VID_M = vid &&& VTCR_VID_M := by
  have apart : ∀ i < 32, (VTCR_VID_M.getLsbD i && VTCR_FUNC_M.getLsbD i) = false := by decide
  constructor
  · apply BitVec.eq_of_getLsbD_eq
    intro i inside
    have := apart i inside
    simp only [BitVec.getLsbD_and, BitVec.getLsbD_or]
    grind
  · apply BitVec.eq_of_getLsbD_eq
    intro i inside
    have := congrArg (fun x => BitVec.getLsbD x i) low
    simp only [BitVec.getLsbD_and, BitVec.getLsbD_or] at this ⊢
    grind

theorem vidMask_setWidth (vid : BitVec 16) :
    (vid.setWidth 32 &&& VTCR_VID_M).setWidth 12 = vid.setWidth 12 := by
  have mask : ∀ i < 12, VTCR_VID_M.getLsbD i = true := by decide
  apply BitVec.eq_of_getLsbD_eq
  intro i inside
  have := mask i inside
  simp only [BitVec.getLsbD_setWidth, BitVec.getLsbD_and]
  grind

theorem mt753xVlanCtrl_write (hw : Hw) (vid : BitVec 16) :
    mt753xVlanCtrl VTCR_WRITE_VLAN_ENTRY (vid.setWidth 32) hw =
      { hw with table := update hw.table (vid.setWidth 12) ⟨hw.vawd1, hw.vawd2⟩ } := by
  obtain ⟨func, index⟩ := vtcr_fields (vid.setWidth 32)
    (VTCR_BUSY ||| ((VTCR_WRITE_VLAN_ENTRY <<< VTCR_FUNC_S) &&& VTCR_FUNC_M)) rfl
  have write : (VTCR_BUSY ||| ((VTCR_WRITE_VLAN_ENTRY <<< VTCR_FUNC_S) &&& VTCR_FUNC_M)) &&&
      VTCR_FUNC_M = VTCR_WRITE_VLAN_ENTRY <<< VTCR_FUNC_S := rfl
  rw [mt753xVlanCtrl, Hw.writeVtcr, func, index, write, if_pos rfl, vidMask_setWidth]

theorem mt753xWriteVlanEntry_table (vid : BitVec 16) (ports etags : BitVec 8) (hw : Hw) :
    (mt753xWriteVlanEntry vid ports etags hw).table =
      update hw.table (vid.setWidth 12) (hwEntry ports etags) := by
  rw [mt753xWriteVlanEntry, mt753xVlanCtrl_write]

/-! ## Tables -/

variable {n : Nat}

theorem clearTable_table (bound : n ≤ 4096) (hw : Hw) (vid : BitVec 12) :
    (clearTable n hw).table vid = if vid.toNat < n then hwEntry 0 0 else hw.table vid := by
  induction n with
  | zero => simp [clearTable]
  | succ n ih =>
    have number : ((BitVec.ofNat 16 n).setWidth 12).toNat = n := by
      rw [BitVec.toNat_setWidth, BitVec.toNat_ofNat]
      omega
    rw [clearTable, mt753xWriteVlanEntry_table]
    by_cases here : vid.toNat = n
    · have same : vid = (BitVec.ofNat 16 n).setWidth 12 :=
        BitVec.eq_of_toNat_eq (here.trans number.symm)
      rw [same, update_self, if_pos (by omega)]
    · have other : vid ≠ (BitVec.ofNat 16 n).setWidth 12 := by
        rintro rfl
        exact here number
      rw [update_of_ne other, ih (by omega)]
      exact if_congr (by omega) rfl rfl

variable {entries : Nat → VlanEntry}

theorem programTable_other {hw : Hw} {vid : BitVec 12}
    (none : ∀ i < n, (entries i).member ≠ 0 → (entries i).vid.setWidth 12 ≠ vid) :
    (programTable entries n hw).table vid = hw.table vid := by
  induction n with
  | zero => rfl
  | succ n ih =>
    have before := ih fun i lt => none i (Nat.lt_succ_of_lt lt)
    rw [programTable]
    split
    · exact before
    · rename_i used
      rw [mt753xWriteVlanEntry_table,
        update_of_ne (none n (Nat.lt_succ_self n) used).symm, before]

def Distinct (entries : Nat → VlanEntry) : Prop :=
  ∀ i < MT753X_NUM_VLANS, ∀ j < MT753X_NUM_VLANS, (entries i).member ≠ 0 →
    (entries j).member ≠ 0 → (entries i).vid = (entries j).vid → i = j

def VidsFit (entries : Nat → VlanEntry) : Prop :=
  ∀ i < MT753X_NUM_VLANS, (entries i).vid.toNat ≤ MT753X_MAX_VID

theorem setWidth_vid_inj {x y : BitVec 16} (small : x.toNat ≤ MT753X_MAX_VID)
    (small' : y.toNat ≤ MT753X_MAX_VID) (same : x.setWidth 12 = y.setWidth 12) : x = y := by
  rw [MT753X_MAX_VID] at small small'
  have number := congrArg BitVec.toNat same
  rw [BitVec.toNat_setWidth, BitVec.toNat_setWidth] at number
  exact BitVec.eq_of_toNat_eq (by omega)

theorem programTable_own {i : Nat} {hw : Hw} (distinct : Distinct entries) (fit : VidsFit entries)
    (bound : n ≤ MT753X_NUM_VLANS) (inside : i < n) (used : (entries i).member ≠ 0) :
    (programTable entries n hw).table ((entries i).vid.setWidth 12) =
      hwEntry (entries i).member (entries i).etags := by
  induction n with
  | zero => cases inside
  | succ n ih =>
    rw [programTable]
    by_cases last : i = n
    · subst last
      rw [if_neg used, mt753xWriteVlanEntry_table, update_self]
    · have before := ih (by omega) (by omega)
      split
      · exact before
      · rename_i also
        rw [mt753xWriteVlanEntry_table, update_of_ne, before]
        intro same
        exact last (distinct i (by omega) n (by omega) used also
          (setWidth_vid_inj (fit i (by omega)) (fit n (by omega)) same))

theorem writePvids_table (gsw : Gsw) (n : Nat) (hw : Hw) :
    (gsw.writePvids n hw).table = hw.table := by
  induction n with
  | zero => rfl
  | succ n ih => exact ih

theorem writePvids_ppbv1 (gsw : Gsw) {port : Nat} (hw : Hw) (inside : port < n) :
    ∃ old, (gsw.writePvids n hw).ppbv1 port =
      (old &&& ~~~GRP_PORT_VID_M) ||| (gsw.pvidOf port).setWidth 32 := by
  induction n with
  | zero => cases inside
  | succ n ih =>
    rw [Gsw.writePvids]
    by_cases last : port = n
    · subst last
      exact ⟨_, update_self ..⟩
    · obtain ⟨old, before⟩ := ih (by omega)
      exact ⟨old, (update_of_ne last ..).trans before⟩

/-! ## An apply -/

namespace Gsw

variable (gsw : Gsw)

def Carries (vid : BitVec 12) : Prop :=
  ∃ i < MT753X_NUM_VLANS, (gsw.vlanEntries i).member ≠ 0 ∧
    (gsw.vlanEntries i).vid = vid.setWidth 16

def TableExact : Prop :=
  ∀ vid : BitVec 12, ((gsw.hw.table vid).valid = true ↔ gsw.Carries vid) ∧
    ∀ i < MT753X_NUM_VLANS, (gsw.vlanEntries i).member ≠ 0 →
      (gsw.vlanEntries i).vid = vid.setWidth 16 →
        (gsw.hw.table vid).member = (gsw.vlanEntries i).member ∧
        ∀ port < MT753X_NUM_PORTS, (gsw.hw.table vid).etag port =
          if (gsw.vlanEntries i).etags.getLsbD port then ETAG_CTRL_TAG else ETAG_CTRL_UNTAG

def PvidsExact (accepted : Nat → Nat) : Prop :=
  ∀ port < MT753X_NUM_PORTS, accepted port < MT753X_NUM_VLANS →
    (gsw.vlanEntries (accepted port)).member ≠ 0 →
      gsw.hw.ppbv1 port &&& GRP_PORT_VID_M =
        (gsw.vlanEntries (accepted port)).vid.setWidth 32

def LastVidCarried : Prop :=
  (gsw.hw.table (BitVec.ofNat 12 MT753X_MAX_VID)).valid = true →
    gsw.Carries (BitVec.ofNat 12 MT753X_MAX_VID)

variable {gsw}

theorem apply_table : gsw.mt753xApplyVlanConfig.hw.table =
    (programTable gsw.vlanEntries MT753X_NUM_VLANS
      (clearTable MT753X_NUM_VLANS { gsw.hw with
        pcr := eachPort gsw.hw.pcr fun _ => PORT_MEM_M ||| 3
        pvc := eachPort gsw.hw.pvc gsw.pvcMode })).table :=
  writePvids_table ..

theorem apply_own (distinct : Distinct gsw.vlanEntries) (fit : VidsFit gsw.vlanEntries)
    {vid : BitVec 12} {i : Nat} (inside : i < MT753X_NUM_VLANS)
    (used : (gsw.vlanEntries i).member ≠ 0) (same : (gsw.vlanEntries i).vid = vid.setWidth 16) :
    gsw.mt753xApplyVlanConfig.hw.table vid =
      hwEntry (gsw.vlanEntries i).member (gsw.vlanEntries i).etags := by
  have index : (gsw.vlanEntries i).vid.setWidth 12 = vid := by
    rw [same, BitVec.setWidth_setWidth_of_le _ (by omega), BitVec.setWidth_eq]
  rw [apply_table, ← index]
  exact programTable_own distinct fit (Nat.le_refl _) inside used

theorem apply_other (fit : VidsFit gsw.vlanEntries) {vid : BitVec 12} (none : ¬gsw.Carries vid) :
    gsw.mt753xApplyVlanConfig.hw.table vid =
      if vid.toNat < MT753X_NUM_VLANS then hwEntry 0 0 else gsw.hw.table vid := by
  rw [apply_table, programTable_other, clearTable_table (by decide)]
  intro i inside used same
  refine none ⟨i, inside, used, ?_⟩
  have small := fit i inside
  rw [MT753X_MAX_VID] at small
  apply BitVec.eq_of_toNat_eq
  have number := congrArg BitVec.toNat same
  rw [BitVec.toNat_setWidth] at number ⊢
  omega

theorem apply_tableExact (distinct : Distinct gsw.vlanEntries) (fit : VidsFit gsw.vlanEntries) :
    gsw.mt753xApplyVlanConfig.TableExact ↔ gsw.LastVidCarried := by
  constructor
  · intro exact valid
    by_contra none
    refine none ((exact _).1.mp ?_)
    rw [apply_other fit none, if_neg (by decide)]
    exact valid
  · intro last vid
    refine ⟨⟨fun valid => ?_, fun carried => ?_⟩, fun i inside used same => ?_⟩
    · by_contra none
      have none : ¬gsw.Carries vid := none
      rw [apply_other fit none] at valid
      split at valid
      · exact (hwEntry_valid 0 0).mp valid rfl
      · rename_i beyond
        have highest : vid = BitVec.ofNat 12 MT753X_MAX_VID := by
          apply BitVec.eq_of_toNat_eq
          have := vid.isLt
          rw [MT753X_NUM_VLANS] at beyond
          rw [BitVec.toNat_ofNat, MT753X_MAX_VID]
          omega
        exact none (highest ▸ last (highest ▸ valid))
    · obtain ⟨i, inside, used, same⟩ := carried
      rw [apply_own distinct fit inside used same]
      exact (hwEntry_valid _ _).mpr used
    · rw [apply_own distinct fit inside used same]
      exact ⟨hwEntry_member _ _, hwEntry_etag _ _⟩

theorem apply_pvidsExact (fit : VidsFit gsw.vlanEntries) :
    gsw.mt753xApplyVlanConfig.PvidsExact fun port => (gsw.portEntries port).toNat := by
  intro port inside vlan used
  have written : ∃ old, gsw.mt753xApplyVlanConfig.hw.ppbv1 port =
      (old &&& ~~~GRP_PORT_VID_M) ||| (gsw.pvidOf port).setWidth 32 :=
    writePvids_ppbv1 gsw _ inside
  obtain ⟨old, written⟩ := written
  have pvid : gsw.pvidOf port = (gsw.vlanEntries (gsw.portEntries port).toNat).vid :=
    if_pos ⟨vlan, used⟩
  have small := fit _ vlan
  rw [← pvid, MT753X_MAX_VID] at small
  have fits : (gsw.pvidOf port).setWidth 32 &&& GRP_PORT_VID_M =
      (gsw.pvidOf port).setWidth 32 := by
    have mask : GRP_PORT_VID_M = BitVec.ofNat 32 (2 ^ 12 - 1) := rfl
    apply BitVec.eq_of_toNat_eq
    rw [mask, BitVec.toNat_and, BitVec.toNat_ofNat, BitVec.toNat_setWidth,
      Nat.mod_eq_of_lt (by omega : 2 ^ 12 - 1 < 2 ^ 32), Nat.and_two_pow_sub_one_eq_mod]
    omega
  have masked : ∀ x y : BitVec 32, y &&& GRP_PORT_VID_M = y →
      ((x &&& ~~~GRP_PORT_VID_M) ||| y) &&& GRP_PORT_VID_M = y := by
    intro x y low
    apply BitVec.eq_of_getLsbD_eq
    intro i _
    have := congrArg (fun z => BitVec.getLsbD z i) low
    simp only [BitVec.getLsbD_and, BitVec.getLsbD_or, BitVec.getLsbD_not] at this ⊢
    grind
  rw [written, masked _ _ fits, pvid]
  rfl

end Gsw

/-! ## Runs -/

namespace VlanRun

/-- What every call keeps: no vid is too large, and the ports have the VLANs accepted for them. -/
structure Kept (s : VlanRun) : Prop where
  fit : VidsFit s.gsw.vlanEntries
  accepted : ∀ port, (s.gsw.portEntries port).toNat = s.accepted port

theorem accepted_start (gsw : Gsw) (port : Nat) :
    ((start gsw).gsw.portEntries port).toNat = (start gsw).accepted port :=
  rfl

theorem zero_fits : (0 : BitVec 16).toNat ≤ MT753X_MAX_VID :=
  Nat.zero_le MT753X_MAX_VID

theorem mapping_fits (mapping : Mapping) (member : mapping ∈ mt753xDefMapping) (i : Nat) :
    (mapping.vids.getD i 0).toNat ≤ MT753X_MAX_VID := by
  have small : ∀ mapping ∈ mt753xDefMapping, ∀ vid ∈ mapping.vids, vid.toNat ≤ 2 := by
    simp [mt753xDefMapping]
  rw [List.getD_eq_getElem?_getD]
  cases there : mapping.vids[i]? with
  | none => exact zero_fits
  | some vid =>
    have := small mapping member vid (List.mem_of_getElem? there)
    rw [MT753X_MAX_VID, Option.getD_some]
    omega

theorem probe_fits (map : Option String) (cpuPort : Nat) (port5Stag port6Stag : Bool) (hw : Hw) :
    VidsFit (Gsw.probe map cpuPort port5Stag port6Stag hw).vlanEntries := by
  intro i _
  rw [Gsw.probe]
  cases found : mt753xFindMapping map with
  | none => exact zero_fits
  | some mapping =>
    obtain ⟨name, _, here⟩ := Option.bind_eq_some_iff.mp found
    exact mapping_fits mapping (List.mem_of_find?_eq_some here) i

theorem Kept.start (map : Option String) (cpuPort : Nat) (port5Stag port6Stag : Bool) (hw : Hw) :
    Kept (start (.probe map cpuPort port5Stag port6Stag hw)) :=
  ⟨probe_fits map cpuPort port5Stag port6Stag hw, accepted_start _⟩

theorem Kept.call {s : VlanRun} (kept : Kept s) (event : VlanCall) : Kept (s.call event) := by
  cases event with
  | setVid portVlan val =>
    simp only [VlanRun.call, Gsw.mt753xSetVid]
    split
    · exact kept
    · split
      · exact kept
      · rename_i small
        refine ⟨fun i inside => ?_, kept.accepted⟩
        simp only [Option.getD_some]
        by_cases here : i = portVlan.toInt.toNat
        · rw [here, update_self]
          exact Nat.le_of_not_lt small
        · rw [update_of_ne here]
          exact kept.fit i inside
  | setVlanPorts portVlan ports =>
    simp only [VlanRun.call, Gsw.mt753xSetVlanPorts]
    split
    · exact kept
    · cases Gsw.portMasks ports 0 0 with
      | none => exact kept
      | some masks =>
        refine ⟨fun i inside => ?_, kept.accepted⟩
        simp only [Option.map_some, Option.getD_some]
        by_cases here : i = portVlan
        · rw [here, update_self]
          exact kept.fit portVlan (here ▸ inside)
        · rw [update_of_ne here]
          exact kept.fit i inside
  | setPortPvid port pvid =>
    simp only [VlanRun.call, Gsw.mt753xSetPortPvid]
    split_ifs with beyond range
    · exact kept
    · exact kept
    · refine ⟨kept.fit, fun other => ?_⟩
      dsimp only
      by_cases here : other = port
      · subst here
        rw [update_self, update_self, BitVec.toNat_ofInt]
        rw [MT753X_MAX_VID] at range
        omega
      · rw [update_of_ne here, update_of_ne here]
        exact kept.accepted other
  | setVlanEnable val => exact ⟨kept.fit, kept.accepted⟩
  | resetSwitch =>
    refine ⟨fun i inside => ?_, fun _ => rfl⟩
    simp only [VlanRun.call, Gsw.mt753xResetSwitch, if_pos inside]
    rw [MT753X_NUM_VLANS] at inside
    rw [BitVec.toNat_ofNat, MT753X_MAX_VID]
    omega
  | applyConfig =>
    simp only [VlanRun.call, Gsw.mt753xApplyConfig]
    split
    · exact ⟨kept.fit, kept.accepted⟩
    · exact ⟨kept.fit, kept.accepted⟩

/-- In every run, an apply in VLAN mode makes the table of the switch and the default PVIDs what
the driver has, if and only if the highest vid is not left behind in the table. -/
theorem vlan_table_follows {map : Option String} {cpuPort : Nat} {port5Stag port6Stag : Bool}
    {hw : Hw} {s : VlanRun}
    (reaches : Reaches anyStep step (start (.probe map cpuPort port5Stag port6Stag hw)) s)
    (enabled : s.gsw.globalVlanEnable = true) (distinct : Distinct s.gsw.vlanEntries) :
    (s.call .applyConfig).gsw.TableExact ∧
        (s.call .applyConfig).gsw.PvidsExact (s.call .applyConfig).accepted ↔
      s.gsw.LastVidCarried := by
  have preserved : ∀ (before : VlanRun) event after, Kept before → anyStep before event →
      step before event = some after → Kept after := by
    intro before event after kept _ stepped
    obtain rfl := Option.some_inj.mp stepped
    exact kept.call event
  have kept := reaches.invariant preserved (Kept.start map cpuPort port5Stag port6Stag hw)
  have applied : (s.call .applyConfig).gsw = s.gsw.mt753xApplyVlanConfig := if_pos enabled
  have pvids : s.gsw.mt753xApplyVlanConfig.PvidsExact s.accepted := by
    rw [← funext kept.accepted]
    exact Gsw.apply_pvidsExact kept.fit
  rw [applied]
  exact ⟨fun exact => (Gsw.apply_tableExact distinct kept.fit).mp exact.1,
    fun last => ⟨(Gsw.apply_tableExact distinct kept.fit).mpr last, pvids⟩⟩

def emptyHw : Hw := ⟨0, 0, fun _ => ⟨0, 0⟩, fun _ => 0, fun _ => 0, fun _ => 0⟩

theorem distinct_of_one {entries : Nat → VlanEntry} {vlan : Nat}
    (one : ∀ i, (entries i).member ≠ 0 → i = vlan) : Distinct entries :=
  fun i _ j _ used also _ => (one i used).trans (one j also).symm

theorem vlan_table_follows_lllll : ∃ s : VlanRun,
    s.gsw.globalVlanEnable = true ∧ (s.call .applyConfig).gsw.TableExact ∧
      (s.call .applyConfig).gsw.PvidsExact (s.call .applyConfig).accepted := by
  let s := start (.probe (some "lllll") 6 false false emptyHw)
  have enabled : s.gsw.globalVlanEnable = true := rfl
  have one : ∀ i, (s.gsw.vlanEntries i).member ≠ 0 → i = 1 := by
    intro i used
    match i, used with
    | 0, used => exact absurd rfl used
    | 1, _ => rfl
    | i + 2, used => exact absurd rfl used
  have hw : s.gsw.hw = emptyHw := rfl
  have empty : (s.gsw.hw.table (BitVec.ofNat 12 MT753X_MAX_VID)).valid = false := by
    rw [hw]
    rfl
  have last : s.gsw.LastVidCarried := fun valid => absurd (empty.symm.trans valid) (by simp)
  exact ⟨s, enabled, (vlan_table_follows .refl enabled (distinct_of_one one)).mpr last⟩

/-- The highest vid stays in the table when its VLAN gets another vid. -/
theorem highest_vid_left_behind : ¬∀ (map : Option String) (cpuPort : Nat)
    (port5Stag port6Stag : Bool) (hw : Hw) (s : VlanRun),
      Reaches anyStep step (start (.probe map cpuPort port5Stag port6Stag hw)) s →
        s.gsw.globalVlanEnable = true → Distinct s.gsw.vlanEntries →
          (s.call .applyConfig).gsw.TableExact ∧
            (s.call .applyConfig).gsw.PvidsExact (s.call .applyConfig).accepted := by
  intro follows
  let first : List VlanCall :=
    [.setVlanEnable 1, .resetSwitch, .setVid 1 4095, .setVlanPorts 1 [⟨0, false⟩]]
  let s := start (.probe none 6 false false emptyHw)
  let before := (((s.call (.setVlanEnable 1)).call .resetSwitch).call (.setVid 1 4095)).call
    (.setVlanPorts 1 [⟨0, false⟩])
  let after := (before.call .applyConfig).call (.setVid 1 1)
  have run : runSteps step (first ++ [.applyConfig, .setVid 1 1]) s = some after := rfl
  have reaches := reaches_of_runSteps allAllowed_anyStep run
  let numbered : Nat → VlanEntry :=
    fun i => if i < MT753X_NUM_VLANS then ⟨BitVec.ofNat 16 i, 0, 0⟩ else ⟨0, 0, 0⟩
  have memberless : ∀ i, (numbered i).member = 0 := by
    intro i
    by_cases inside : i < MT753X_NUM_VLANS
    · exact congrArg VlanEntry.member (if_pos inside)
    · exact congrArg VlanEntry.member (if_neg inside)
  have entries : before.gsw.vlanEntries =
      update (update numbered 1 ⟨4095, 0, 0⟩) 1 ⟨4095, 1, 0⟩ := rfl
  have renumbered : after.gsw.vlanEntries =
      update before.gsw.vlanEntries 1 ⟨1, 1, 0⟩ := rfl
  have one : ∀ i, (before.gsw.vlanEntries i).member ≠ 0 → i = 1 := by
    intro i used
    by_contra other
    rw [entries, update_of_ne other, update_of_ne other] at used
    exact used (memberless i)
  have still : ∀ i, (after.gsw.vlanEntries i).member ≠ 0 → i = 1 := by
    intro i used
    by_contra other
    rw [renumbered, update_of_ne other] at used
    exact other (one i used)
  have kept : Kept before :=
    ((((Kept.start none 6 false false emptyHw).call _).call _).call _).call _
  have here : before.gsw.vlanEntries 1 = ⟨4095, 1, 0⟩ := by rw [entries, update_self]
  have there : after.gsw.vlanEntries 1 = ⟨1, 1, 0⟩ := by rw [renumbered, update_self]
  have own : before.gsw.mt753xApplyVlanConfig.hw.table (BitVec.ofNat 12 MT753X_MAX_VID) =
      hwEntry (before.gsw.vlanEntries 1).member (before.gsw.vlanEntries 1).etags := by
    refine Gsw.apply_own (distinct_of_one one) kept.fit (by decide) ?_ ?_
    · rw [here]
      decide
    · rw [here]
      rfl
  have valid : (after.gsw.hw.table (BitVec.ofNat 12 MT753X_MAX_VID)).valid = true := by
    have same : after.gsw.hw = before.gsw.mt753xApplyVlanConfig.hw := rfl
    rw [same, own, here]
    exact (hwEntry_valid _ _).mpr (by decide)
  have exact := (follows none 6 false false emptyHw after reaches rfl (distinct_of_one still)).1
  have last := (Gsw.apply_tableExact (distinct_of_one still)
    ((kept.call .applyConfig).call (.setVid 1 1)).fit).mp exact
  obtain ⟨i, _, used, same⟩ := last valid
  obtain rfl := still i used
  rw [there] at same
  exact absurd same (by decide)

end VlanRun

end MetaFilogic.Mt753x
