import MetaFilogic.Eth.Pcs
import MetaFilogic.Library.Steps

/-!
# The link poll of a PCS and phylink's configuration

As long as the poll configures the PCS with what phylink has last asked for, the settings are
those that phylink's call alone gives.
-/

namespace MetaFilogic.Eth

open Registers

/-! ## SGMII -/

structure SgmiiSettings where
  advertise : BitVec 32
  anEnable : BitVec 32
  mode : BitVec 32
  lineSpeed : BitVec 32
  linkTimer : BitVec 32

def SgmiiRegs.settings (r : SgmiiRegs) : SgmiiSettings where
  advertise := r.pcsAdvertise &&& SGMII_ADVERTISE
  anEnable := r.pcsControl1 &&& SGMII_AN_ENABLE
  mode := r.sgmiiMode &&& sgmiiModeMask
  lineSpeed := r.anaRgc3 &&& RG_PHY_SPEED_3_125G
  linkTimer := r.pcsLinkTimer

structure SgmiiRun where
  pcs : SgmiiPcs
  last : Option PcsConfig

inductive SgmiiEvent where
  | config (call : PcsConfig) (hw : SgmiiHw)
  | poll (link queued : Bool) (hw : SgmiiHw)

namespace SgmiiRun

variable (s : SgmiiRun)

def step (s : SgmiiRun) : SgmiiEvent → Option SgmiiRun
  | .config call hw =>
    if call.mode ≤ MLO_AN_INBAND then
      match s.pcs.mtkSgmiiPcsConfig call hw with
      | none => some s
      | some (pcs, _) => some ⟨pcs, some call⟩
    else none
  | .poll link queued hw => some { s with pcs := s.pcs.mtkSgmiiPcsLinkPoll link queued hw }

/-- The settings are those that phylink's last call gives on any PCS, and the poll schedules
itself again as the mode of that call has it. -/
def Transparent : Prop :=
  ∀ call, s.last = some call →
    (∀ fresh hw, (SgmiiPcs.mtkSgmiiPcsConfig fresh call hw).map (fun done => done.1.regs.settings) =
      some s.pcs.regs.settings) ∧
    ∀ queued, s.pcs.rearms queued = if call.mode = MLO_AN_INBAND then false else !queued

def SameModes (interface : PhyInterface) (modes modes' : LinkModes) : Prop :=
  (interface = .basex1000 ∨ interface = .basex2500 →
    modes ETHTOOL_LINK_MODE_Pause_BIT = modes' ETHTOOL_LINK_MODE_Pause_BIT ∧
    modes ETHTOOL_LINK_MODE_Asym_Pause_BIT = modes' ETHTOOL_LINK_MODE_Asym_Pause_BIT) ∧
  (interface = .basex1000 →
    modes ETHTOOL_LINK_MODE_Autoneg_BIT = modes' ETHTOOL_LINK_MODE_Autoneg_BIT)

/-- A call that keeps the interface keeps whether the mode is in-band, and a poll that configures
the PCS remembers the link modes of the last call. -/
def Remembers : SgmiiEvent → Prop
  | .config call _ =>
    s.pcs.interface = call.interface → (call.mode = MLO_AN_INBAND ↔ s.pcs.mode = MLO_AN_INBAND)
  | .poll link _ _ =>
    s.pcs.polls link = true → ∀ call, s.last = some call →
      SameModes s.pcs.interface call.advertising s.pcs.advertising

end SgmiiRun

def sgmiiSettings (interface : PhyInterface) (advertise : BitVec 32) (linkTimer : Nat)
    (advertising : LinkModes) : SgmiiSettings where
  advertise := advertise &&& SGMII_ADVERTISE
  anEnable := (sgmiiModes interface advertising).1 &&& SGMII_AN_ENABLE
  mode :=
    ((sgmiiModes interface advertising).2.1 ||| (sgmiiModes interface advertising).2.2) &&&
      sgmiiModeMask
  lineSpeed := (if interface = .basex2500 then RG_PHY_SPEED_3_125G else 0) &&& RG_PHY_SPEED_3_125G
  linkTimer := BitVec.ofNat 32 (linkTimer / 2 / 8)

theorem SgmiiRegs.settings_configure (r : SgmiiRegs) (mt7987 : Bool) (polarity : BitVec 32)
    (interface : PhyInterface) (advertise : BitVec 32) (linkTimer : Nat) (advertising : LinkModes) :
    (r.configure mt7987 polarity interface advertise linkTimer advertising).settings =
      sgmiiSettings interface advertise linkTimer advertising := by
  have anEnable : ∀ bmcr : BitVec 32,
      (if mt7987 then bmcr ||| SGMII_PCS_REF_CK_SEL else bmcr) &&& SGMII_AN_ENABLE =
        bmcr &&& SGMII_AN_ENABLE := by
    intro bmcr
    cases mt7987 with
    | false => rfl
    | true => exact or_and_of_apart (by decide)
  unfold settings configure sgmiiSettings
  dsimp only
  rw [updateBits_and_of_within (BitVec.and_self ..), updateBits_and_of_within (by decide), anEnable,
    updateBits_and_of_within (BitVec.and_self ..), updateBits_and_of_within (BitVec.and_self ..)]

namespace SgmiiPcs

variable {mpcs done : SgmiiPcs} {call : PcsConfig} {hw : SgmiiHw} {changed : Bool}

theorem config_eq (configured : mpcs.mtkSgmiiPcsConfig call hw = some (done, changed)) :
    ∃ advertise linkTimer,
      phylinkMiiC22PcsEncodeAdvertisement call.interface call.advertising = some advertise ∧
      phylinkGetLinkTimerNs call.interface = some linkTimer ∧
      done.regs.settings =
        sgmiiSettings call.interface advertise linkTimer call.advertising ∧
      done.interface = (mpcs.remember call).interface ∧ done.mode = (mpcs.remember call).mode := by
  obtain ⟨advertise, encoded, timed⟩ := Option.bind_eq_some_iff.mp configured
  obtain ⟨linkTimer, timer, same⟩ := Option.map_eq_some_iff.mp timed
  obtain ⟨rfl, -⟩ := Prod.mk.inj same
  exact ⟨advertise, linkTimer, encoded, timer, SgmiiRegs.settings_configure .., rfl, rfl⟩

theorem config_some (mpcs : SgmiiPcs) (hw : SgmiiHw) {advertise : BitVec 32} {linkTimer : Nat}
    (encoded : phylinkMiiC22PcsEncodeAdvertisement call.interface call.advertising = some advertise)
    (timer : phylinkGetLinkTimerNs call.interface = some linkTimer) :
    ∃ done changed, mpcs.mtkSgmiiPcsConfig call hw = some (done, changed) := by
  rw [mtkSgmiiPcsConfig, encoded, timer]
  exact ⟨_, _, rfl⟩

end SgmiiPcs

namespace SgmiiRun

variable {s : SgmiiRun}

def AsAsked (s : SgmiiRun) : Prop :=
  match s.last with
  | none => s.pcs.interface = .na
  | some call =>
    s.pcs.interface = call.interface ∧
    (call.mode = MLO_AN_INBAND ↔ s.pcs.mode = MLO_AN_INBAND) ∧
    ∃ advertise linkTimer,
      phylinkMiiC22PcsEncodeAdvertisement call.interface call.advertising = some advertise ∧
      phylinkGetLinkTimerNs call.interface = some linkTimer ∧
      s.pcs.regs.settings = sgmiiSettings call.interface advertise linkTimer call.advertising

theorem AsAsked.transparent (asked : AsAsked s) : s.Transparent := by
  intro call last
  rw [AsAsked, last] at asked
  obtain ⟨-, mode, advertise, linkTimer, encoded, timer, settings⟩ := asked
  refine ⟨fun fresh hw => ?_, fun queued => ?_⟩
  · obtain ⟨done, changed, configured⟩ := SgmiiPcs.config_some fresh hw encoded timer
    obtain ⟨_, _, encoded', timer', settings', -⟩ := SgmiiPcs.config_eq configured
    rw [encoded] at encoded'
    rw [timer] at timer'
    rw [configured, settings, Option.map_some, settings', Option.some_inj.mp encoded',
      Option.some_inj.mp timer']
  · rw [SgmiiPcs.rearms, if_congr mode.symm rfl rfl]

theorem remember_interface (mpcs : SgmiiPcs) {call : PcsConfig} (mode : call.mode ≤ MLO_AN_INBAND) :
    (mpcs.remember call).interface = call.interface := by
  rw [SgmiiPcs.remember]
  by_cases same : mpcs.interface = call.interface
  · rw [if_neg fun both => both.2 same]
    exact same
  · rw [if_pos ⟨mode, same⟩]

theorem remember_mode {mpcs : SgmiiPcs} {call : PcsConfig} (mode : call.mode ≤ MLO_AN_INBAND)
    (kept : mpcs.interface = call.interface →
      (call.mode = MLO_AN_INBAND ↔ mpcs.mode = MLO_AN_INBAND)) :
    call.mode = MLO_AN_INBAND ↔ (mpcs.remember call).mode = MLO_AN_INBAND := by
  rw [SgmiiPcs.remember]
  by_cases same : mpcs.interface = call.interface
  · rw [if_neg fun both => both.2 same]
    exact kept same
  · rw [if_pos ⟨mode, same⟩]

theorem remember_poll (mpcs : SgmiiPcs) (interface : PhyInterface) (advertising : LinkModes) :
    mpcs.remember ⟨UINT_MAX, interface, advertising⟩ = mpcs :=
  if_neg fun both => (by decide : ¬UINT_MAX ≤ MLO_AN_INBAND) both.1

theorem encode_congr {interface : PhyInterface} {modes modes' : LinkModes}
    (same : SameModes interface modes modes') :
    phylinkMiiC22PcsEncodeAdvertisement interface modes =
      phylinkMiiC22PcsEncodeAdvertisement interface modes' := by
  obtain ⟨pause, -⟩ := same
  cases interface with
  | basex1000 => simp [phylinkMiiC22PcsEncodeAdvertisement, pause (.inl rfl)]
  | basex2500 => simp [phylinkMiiC22PcsEncodeAdvertisement, pause (.inr rfl)]
  | _ => rfl

theorem settings_congr {interface : PhyInterface} {modes modes' : LinkModes}
    (polled : interface = .sgmii ∨ interface = .basex1000 ∨ interface = .basex2500)
    (same : SameModes interface modes modes') (advertise : BitVec 32) (linkTimer : Nat) :
    sgmiiSettings interface advertise linkTimer modes =
      sgmiiSettings interface advertise linkTimer modes' := by
  have equal : sgmiiModes interface modes = sgmiiModes interface modes' := by
    rcases polled with rfl | rfl | rfl
    · rfl
    · simp [sgmiiModes, same.2 rfl]
    · rfl
  rw [sgmiiSettings, sgmiiSettings, equal]

theorem polls_interface {mpcs : SgmiiPcs} {link : Bool} (polls : mpcs.polls link = true) :
    mpcs.interface = .sgmii ∨ mpcs.interface = .basex1000 ∨ mpcs.interface = .basex2500 := by
  simp only [SgmiiPcs.polls, Bool.and_eq_true, Bool.or_eq_true, decide_eq_true_eq] at polls
  rcases polls.1.1 with (sgmii | basex1000) | basex2500
  · exact .inl sgmii
  · exact .inr (.inl basex1000)
  · exact .inr (.inr basex2500)

theorem AsAsked.poll (asked : AsAsked s) {link queued : Bool} {hw : SgmiiHw}
    (remembers : s.Remembers (.poll link queued hw)) :
    AsAsked { s with pcs := s.pcs.mtkSgmiiPcsLinkPoll link queued hw } := by
  rw [SgmiiPcs.mtkSgmiiPcsLinkPoll, SgmiiPcs.reconfigure]
  by_cases polls : s.pcs.polls link = true
  · have interface := polls_interface polls
    rw [if_pos polls]
    cases last : s.last with
    | none =>
      rw [AsAsked, last] at asked
      rw [asked] at interface
      rcases interface with no | no | no <;> cases no
    | some call =>
      have same := remembers polls call last
      rw [AsAsked, last] at asked
      obtain ⟨kept, mode, advertise, linkTimer, encoded, timer, -⟩ := asked
      rw [← kept] at encoded timer
      rw [encode_congr same] at encoded
      have again : ∃ done changed, s.pcs.mtkSgmiiPcsConfig
          ⟨UINT_MAX, s.pcs.interface, s.pcs.advertising⟩ hw = some (done, changed) :=
        SgmiiPcs.config_some s.pcs hw encoded timer
      obtain ⟨done, changed, configured⟩ := again
      obtain ⟨advertise', linkTimer', encoded', timer', settings', interface', mode'⟩ :=
        SgmiiPcs.config_eq configured
      rw [remember_poll] at interface' mode'
      rw [configured]
      refine ⟨interface'.trans kept, mode'.symm ▸ mode, advertise', linkTimer', ?_, ?_, ?_⟩
      · rw [← kept, encode_congr same]
        exact encoded'
      · rw [← kept]
        exact timer'
      · rw [← kept]
        exact settings'.trans (settings_congr interface same advertise' linkTimer').symm
  · rw [if_neg polls]
    exact asked

theorem AsAsked.config (asked : AsAsked s) {call : PcsConfig} {hw : SgmiiHw} {s' : SgmiiRun}
    (remembers : s.Remembers (.config call hw)) (stepped : s.step (.config call hw) = some s') :
    AsAsked s' := by
  obtain ⟨mode, stepped⟩ := Option.ite_none_right_eq_some.mp stepped
  split at stepped
  · obtain rfl := Option.some_inj.mp stepped
    exact asked
  · rename_i configured
    obtain rfl := Option.some_inj.mp stepped
    obtain ⟨advertise, linkTimer, encoded, timer, settings, interface', mode'⟩ :=
      SgmiiPcs.config_eq configured
    refine ⟨interface'.trans (remember_interface s.pcs mode), ?_, advertise, linkTimer, encoded,
      timer, settings⟩
    rw [mode']
    exact remember_mode mode remembers

theorem AsAsked.step (asked : AsAsked s) {event : SgmiiEvent} {s' : SgmiiRun}
    (remembers : s.Remembers event) (stepped : s.step event = some s') : AsAsked s' := by
  cases event with
  | config call hw => exact asked.config remembers stepped
  | poll link queued hw =>
    obtain rfl := Option.some_inj.mp stepped
    exact asked.poll remembers

theorem transparent_of_remembers {pcs : SgmiiPcs} (new : pcs.interface = .na)
    (run : Reaches Remembers SgmiiRun.step ⟨pcs, none⟩ s) : s.Transparent := by
  have start : AsAsked ⟨pcs, none⟩ := new
  have asked : AsAsked s :=
    run.invariant (fun _ _ _ asked remembers stepped => asked.step remembers stepped) start
  exact asked.transparent

end SgmiiRun

/-! ## USXGMII -/

structure UsxgmiiSettings where
  an : BitVec 32
  linkTimer : BitVec 32
  rateAdapt : BitVec 32
  xfiMode : BitVec 32

def UsxgmiiRegs.settings (r : UsxgmiiRegs) : UsxgmiiSettings where
  an := r.anCtrl0 &&& (USXGMII_AN_SYNC_CNT ||| USXGMII_AN_ENABLE)
  linkTimer := r.anCtrl2 &&& usxgmiiLinkTimerMask
  rateAdapt := r.speedCtrl1 &&& (USXGMII_RATE_UPDATE_MODE ||| USXGMII_RATE_ADAPT_MODE)
  xfiMode := r.speedCtrl1 &&& usxgmiiXfiModeMask

structure UsxgmiiRun where
  pcs : UsxgmiiPcs
  last : Option PcsConfig

inductive UsxgmiiEvent where
  | config (call : PcsConfig) (reset : UsxgmiiRegs → UsxgmiiRegs)
  | poll (link queued : Bool) (reset : UsxgmiiRegs → UsxgmiiRegs) (partner : BitVec 16)
      (xgmacSts : BitVec 32)

namespace UsxgmiiRun

variable (s : UsxgmiiRun)

def step (s : UsxgmiiRun) : UsxgmiiEvent → Option UsxgmiiRun
  | .config call reset =>
    if call.mode ≤ MLO_AN_INBAND then
      match s.pcs.mtkUsxgmiiPcsConfig call reset with
      | none => some s
      | some (pcs, _) => some ⟨pcs, some call⟩
    else none
  | .poll link queued reset partner xgmacSts =>
    some { s with pcs := s.pcs.mtkUsxgmiiPcsLinkPoll link queued reset partner xgmacSts }

/-- The settings are those that phylink's last call gives on any PCS, and the poll schedules
itself again as the mode of that call has it. -/
def Transparent : Prop :=
  ∀ call, s.last = some call →
    (∀ fresh reset, (UsxgmiiPcs.mtkUsxgmiiPcsConfig fresh call reset).map
        (fun done => done.1.regs.settings) = some s.pcs.regs.settings) ∧
    ∀ queued, s.pcs.rearms queued = if call.mode = MLO_AN_INBAND then false else !queued

def Remembers : UsxgmiiEvent → Prop
  | .config call _ =>
    s.pcs.interface = call.interface → (call.mode = MLO_AN_INBAND ↔ s.pcs.mode = MLO_AN_INBAND)
  | .poll _ _ _ _ _ => True

end UsxgmiiRun

def UsxgmiiModes.settings (modes : UsxgmiiModes) : UsxgmiiSettings where
  an := modes.anCtrl &&& (USXGMII_AN_SYNC_CNT ||| USXGMII_AN_ENABLE)
  linkTimer := modes.linkTimer &&& usxgmiiLinkTimerMask
  rateAdapt := modes.adaptMode &&& (USXGMII_RATE_UPDATE_MODE ||| USXGMII_RATE_ADAPT_MODE)
  xfiMode := modes.xfiMode &&& usxgmiiXfiModeMask

theorem writeSpeedCtrl1_rateAdapt (modes : UsxgmiiModes) (reg : BitVec 32) :
    writeSpeedCtrl1 modes reg &&& (USXGMII_RATE_UPDATE_MODE ||| USXGMII_RATE_ADAPT_MODE) =
      modes.adaptMode &&& (USXGMII_RATE_UPDATE_MODE ||| USXGMII_RATE_ADAPT_MODE) := by
  unfold writeSpeedCtrl1
  split
  · rw [updateBits_and_of_apart (by decide), updateBits_and_of_apart (by decide),
      updateBits_and_of_apart (by decide), updateBits_and_of_within (BitVec.and_self ..)]
  · rw [updateBits_and_of_apart (by decide), updateBits_and_of_apart (by decide),
      updateBits_and_of_within (BitVec.and_self ..)]

theorem writeSpeedCtrl1_xfiMode (modes : UsxgmiiModes) (reg : BitVec 32) :
    writeSpeedCtrl1 modes reg &&& usxgmiiXfiModeMask = modes.xfiMode &&& usxgmiiXfiModeMask := by
  unfold writeSpeedCtrl1
  split
  · rw [updateBits_and_of_apart (by decide), updateBits_and_of_apart (by decide),
      updateBits_and_of_within (BitVec.and_self ..)]
  · rw [updateBits_and_of_apart (by decide), updateBits_and_of_within (BitVec.and_self ..)]

theorem UsxgmiiRegs.settings_configure (r : UsxgmiiRegs) (polarity : BitVec 32)
    (modes : UsxgmiiModes) : (r.configure polarity modes).settings = modes.settings := by
  unfold settings configure UsxgmiiModes.settings
  dsimp only
  rw [updateBits_and_of_within (BitVec.and_self ..), updateBits_and_of_within (BitVec.and_self ..),
    writeSpeedCtrl1_rateAdapt, writeSpeedCtrl1_xfiMode]

namespace UsxgmiiPcs

variable {mpcs done : UsxgmiiPcs} {call : PcsConfig} {reset : UsxgmiiRegs → UsxgmiiRegs}
  {changed : Bool}

theorem config_eq (configured : mpcs.mtkUsxgmiiPcsConfig call reset = some (done, changed)) :
    ∃ modes, usxgmiiModes call.interface = some modes ∧ done.regs.settings = modes.settings ∧
      done.interface = (mpcs.remember call).interface ∧ done.mode = (mpcs.remember call).mode := by
  obtain ⟨modes, asked, same⟩ := Option.map_eq_some_iff.mp configured
  obtain ⟨rfl, -⟩ := Prod.mk.inj same
  exact ⟨modes, asked, UsxgmiiRegs.settings_configure .., rfl, rfl⟩

theorem config_some (mpcs : UsxgmiiPcs) (reset : UsxgmiiRegs → UsxgmiiRegs) {modes : UsxgmiiModes}
    (asked : usxgmiiModes call.interface = some modes) :
    ∃ done changed, mpcs.mtkUsxgmiiPcsConfig call reset = some (done, changed) := by
  rw [mtkUsxgmiiPcsConfig, asked]
  exact ⟨_, _, rfl⟩

theorem getState_kept (mpcs : UsxgmiiPcs) (partner : BitVec 16) (xgmacSts : BitVec 32) :
    (mpcs.mtkUsxgmiiGetState partner xgmacSts).regs.settings = mpcs.regs.settings ∧
      (mpcs.mtkUsxgmiiGetState partner xgmacSts).interface = mpcs.interface ∧
      (mpcs.mtkUsxgmiiGetState partner xgmacSts).mode = mpcs.mode := by
  rw [mtkUsxgmiiGetState]
  split
  · exact ⟨rfl, rfl, rfl⟩
  · exact ⟨rfl, rfl, rfl⟩

theorem remember_interface (mode : call.mode ≤ MLO_AN_INBAND) :
    (mpcs.remember call).interface = call.interface := by
  rw [remember]
  by_cases same : mpcs.interface = call.interface
  · rw [if_neg fun both => both.2 same]
    exact same
  · rw [if_pos ⟨mode, same⟩]

theorem remember_mode (mode : call.mode ≤ MLO_AN_INBAND) (kept : mpcs.interface = call.interface →
      (call.mode = MLO_AN_INBAND ↔ mpcs.mode = MLO_AN_INBAND)) :
    call.mode = MLO_AN_INBAND ↔ (mpcs.remember call).mode = MLO_AN_INBAND := by
  rw [remember]
  by_cases same : mpcs.interface = call.interface
  · rw [if_neg fun both => both.2 same]
    exact kept same
  · rw [if_pos ⟨mode, same⟩]

theorem remember_poll (interface : PhyInterface) (advertising : LinkModes) :
    mpcs.remember ⟨UINT_MAX, interface, advertising⟩ = mpcs :=
  if_neg fun both => (by decide : ¬UINT_MAX ≤ MLO_AN_INBAND) both.1

end UsxgmiiPcs

namespace UsxgmiiRun

variable {s : UsxgmiiRun}

def AsAsked (pcs : UsxgmiiPcs) : Option PcsConfig → Prop
  | none => pcs.interface = .na
  | some call =>
    pcs.interface = call.interface ∧
    (call.mode = MLO_AN_INBAND ↔ pcs.mode = MLO_AN_INBAND) ∧
    ∃ modes, usxgmiiModes call.interface = some modes ∧ pcs.regs.settings = modes.settings

theorem AsAsked.transparent (asked : AsAsked s.pcs s.last) : s.Transparent := by
  intro call last
  rw [last] at asked
  obtain ⟨-, mode, modes, valid, settings⟩ := asked
  refine ⟨fun fresh reset => ?_, fun queued => ?_⟩
  · obtain ⟨done, changed, configured⟩ := UsxgmiiPcs.config_some fresh reset valid
    obtain ⟨modes', valid', settings', -⟩ := UsxgmiiPcs.config_eq configured
    rw [valid] at valid'
    rw [configured, settings, Option.map_some, settings', Option.some_inj.mp valid']
  · rw [UsxgmiiPcs.rearms, if_congr mode.symm rfl rfl]

variable {pcs : UsxgmiiPcs} {last : Option PcsConfig}

theorem AsAsked.congr {pcs' : UsxgmiiPcs} (asked : AsAsked pcs last)
    (settings : pcs'.regs.settings = pcs.regs.settings) (interface : pcs'.interface = pcs.interface)
    (mode : pcs'.mode = pcs.mode) : AsAsked pcs' last := by
  cases last with
  | none => exact interface.trans asked
  | some call =>
    obtain ⟨kept, inband, modes, valid, was⟩ := asked
    exact ⟨interface.trans kept, mode.symm ▸ inband, modes, valid, settings.trans was⟩

theorem AsAsked.reconfigure (asked : AsAsked pcs last) (link : Bool)
    (reset : UsxgmiiRegs → UsxgmiiRegs) : AsAsked (pcs.reconfigure link reset) last := by
  rw [UsxgmiiPcs.reconfigure]
  split
  · cases last with
    | none =>
      rename_i polls
      have none : pcs.interface = .na := asked
      simp [UsxgmiiPcs.polls, none] at polls
    | some call =>
      obtain ⟨kept, inband, modes, valid, -⟩ := asked
      rw [← kept] at valid
      have again : ∃ done changed, pcs.mtkUsxgmiiPcsConfig
          ⟨UINT_MAX, pcs.interface, fun _ => false⟩ reset = some (done, changed) :=
        UsxgmiiPcs.config_some pcs reset valid
      obtain ⟨done, changed, configured⟩ := again
      obtain ⟨modes', valid', settings, interface, mode⟩ := UsxgmiiPcs.config_eq configured
      rw [UsxgmiiPcs.remember_poll] at interface mode
      rw [configured]
      exact ⟨interface.trans kept, mode.symm ▸ inband, modes', kept ▸ valid', settings⟩
  · exact asked

theorem AsAsked.poll (asked : AsAsked pcs last) (link queued : Bool)
    (reset : UsxgmiiRegs → UsxgmiiRegs) (partner : BitVec 16) (xgmacSts : BitVec 32) :
    AsAsked (pcs.mtkUsxgmiiPcsLinkPoll link queued reset partner xgmacSts) last := by
  have again := asked.reconfigure link reset
  rw [UsxgmiiPcs.mtkUsxgmiiPcsLinkPoll]
  split
  · obtain ⟨settings, interface, mode⟩ := UsxgmiiPcs.getState_kept _ partner xgmacSts
    exact again.congr settings interface mode
  · exact again.congr rfl rfl rfl

theorem AsAsked.step (asked : AsAsked s.pcs s.last) {event : UsxgmiiEvent} {s' : UsxgmiiRun}
    (remembers : s.Remembers event) (stepped : s.step event = some s') :
    AsAsked s'.pcs s'.last := by
  cases event with
  | config call reset =>
    obtain ⟨mode, stepped⟩ := Option.ite_none_right_eq_some.mp stepped
    split at stepped
    · obtain rfl := Option.some_inj.mp stepped
      exact asked
    · rename_i configured
      obtain rfl := Option.some_inj.mp stepped
      obtain ⟨modes, valid, settings, interface', mode'⟩ := UsxgmiiPcs.config_eq configured
      refine ⟨interface'.trans (UsxgmiiPcs.remember_interface mode), ?_, modes, valid, settings⟩
      rw [mode']
      exact UsxgmiiPcs.remember_mode mode remembers
  | poll link queued reset partner xgmacSts =>
    obtain rfl := Option.some_inj.mp stepped
    exact asked.poll link queued reset partner xgmacSts

theorem transparent_of_remembers (new : pcs.interface = .na)
    (run : Reaches Remembers UsxgmiiRun.step ⟨pcs, none⟩ s) : s.Transparent := by
  have start : AsAsked pcs none := new
  have kept : ∀ (s : UsxgmiiRun) event (s' : UsxgmiiRun), AsAsked s.pcs s.last →
      s.Remembers event → s.step event = some s' → AsAsked s'.pcs s'.last :=
    fun _ _ _ asked remembers stepped => asked.step remembers stepped
  exact (run.invariant kept start).transparent

end UsxgmiiRun

/-! ## Both -/

/-- From `mtk_sgmii_init` and `mtk_usxgmii_init` on, the link polls are transparent as long as they
remember what phylink has asked for. -/
theorem link_poll_transparent (netsysV3 mt7987 gmac2 : Bool) (polarity : BitVec 32) :
    (∀ regs s,
      Reaches SgmiiRun.Remembers SgmiiRun.step ⟨.init netsysV3 mt7987 polarity regs, none⟩ s →
        s.Transparent) ∧
    (∀ regs s,
      Reaches UsxgmiiRun.Remembers UsxgmiiRun.step ⟨.init polarity gmac2 regs, none⟩ s →
        s.Transparent) :=
  ⟨fun _ _ run => SgmiiRun.transparent_of_remembers rfl run,
    fun _ _ run => UsxgmiiRun.transparent_of_remembers rfl run⟩

def quietHw : SgmiiHw := ⟨id, id⟩

def autoneg (pause : Bool) : LinkModes := fun bit =>
  bit == ETHTOOL_LINK_MODE_Autoneg_BIT || pause && bit == ETHTOOL_LINK_MODE_Pause_BIT

def newSgmii : SgmiiRun := ⟨.init true false 0 ⟨0, 0, 0, 0, 0, 0, 0, 0⟩, none⟩

def newUsxgmii : UsxgmiiRun := ⟨.init 0 true ⟨0, 0, 0, 0, 0⟩, none⟩

def sgmiiRun : List SgmiiEvent :=
  [.config ⟨MLO_AN_INBAND, .basex1000, autoneg true⟩ quietHw, .poll false false quietHw]

def usxgmiiRun : List UsxgmiiEvent :=
  [.config ⟨MLO_AN_INBAND, .usxgmii, autoneg true⟩ id, .poll false false id 0 0]

theorem sgmiiRun_remembers : AllAllowed SgmiiRun.Remembers SgmiiRun.step sgmiiRun newSgmii := by
  refine ⟨nofun, fun s configured => ⟨fun _ call last => ?_, fun _ _ => trivial⟩⟩
  obtain rfl := Option.some_inj.mp configured
  obtain rfl := Option.some_inj.mp last
  exact ⟨fun _ => ⟨rfl, rfl⟩, fun _ => rfl⟩

theorem usxgmiiRun_remembers :
    AllAllowed UsxgmiiRun.Remembers UsxgmiiRun.step usxgmiiRun newUsxgmii :=
  ⟨nofun, fun _ _ => ⟨trivial, fun _ _ => trivial⟩⟩

theorem link_poll_transparent_once :
    (∃ s, runSteps SgmiiRun.step sgmiiRun newSgmii = some s ∧
      s.pcs.regs.pcsAdvertise = 0xa0 ∧ s.Transparent) ∧
    (∃ s, runSteps UsxgmiiRun.step usxgmiiRun newUsxgmii = some s ∧
      s.pcs.regs.anCtrl0 = 0xff801 ∧ s.Transparent) := by
  have sgmii : ∃ s, runSteps SgmiiRun.step sgmiiRun newSgmii = some s ∧
      s.pcs.regs.pcsAdvertise = 0xa0 := ⟨_, rfl, rfl⟩
  have usxgmii : ∃ s, runSteps UsxgmiiRun.step usxgmiiRun newUsxgmii = some s ∧
      s.pcs.regs.anCtrl0 = 0xff801 := ⟨_, rfl, rfl⟩
  obtain ⟨s, run, advertise⟩ := sgmii
  obtain ⟨t, run', an⟩ := usxgmii
  obtain ⟨sgmii, usxgmii⟩ := link_poll_transparent true false true 0
  exact ⟨⟨s, run, advertise, sgmii _ s (reaches_of_runSteps sgmiiRun_remembers run)⟩,
    t, run', an, usxgmii _ t (reaches_of_runSteps usxgmiiRun_remembers run')⟩

/-- phylink adds pause frames to what a 1000BASE-X interface advertises, and the link goes. -/
def pauseRun : List SgmiiEvent :=
  [.config ⟨MLO_AN_INBAND, .basex1000, autoneg false⟩ quietHw,
    .config ⟨MLO_AN_INBAND, .basex1000, autoneg true⟩ quietHw, .poll false false quietHw]

/-- The link poll advertises without them again. -/
theorem link_poll_forgets_pause :
    ¬ ((∀ netsysV3 mt7987 polarity regs s,
        Reaches anyStep SgmiiRun.step ⟨.init netsysV3 mt7987 polarity regs, none⟩ s →
          s.Transparent) ∧
      (∀ polarity gmac2 regs s,
        Reaches anyStep UsxgmiiRun.step ⟨.init polarity gmac2 regs, none⟩ s →
          s.Transparent)) := by
  rintro ⟨transparent, -⟩
  have run : ∃ s, runSteps SgmiiRun.step pauseRun newSgmii = some s ∧
      s.last = some ⟨MLO_AN_INBAND, .basex1000, autoneg true⟩ ∧
      s.pcs.regs.settings.advertise = 0x20 := ⟨_, rfl, rfl, rfl⟩
  obtain ⟨s, run, last, advertise⟩ := run
  have asked := ((transparent _ _ _ _ s (reaches_of_runSteps allAllowed_anyStep run)) _ last).1
    newSgmii.pcs quietHw
  have alone := congrArg SgmiiSettings.advertise (Option.some_inj.mp asked)
  rw [advertise] at alone
  exact absurd alone (by decide)

end MetaFilogic.Eth
