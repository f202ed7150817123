import MetaFilogic.Eth.PcsPoll

/-!
# The link partner's state of a USXGMII PCS

The link poll and the disabling of the PCS publish what the link partner's ability is, and phylink
is given what they have published.
-/

namespace MetaFilogic.Eth

open Registers

/-! ## Runs -/

/-- What a run does outside: it publishes a state while the link partner has an ability, or gives
phylink a state. -/
inductive PcsOutput where
  | published (partner : BitVec 16) (state : PcsState)
  | given (state : PcsState)

/-- A PCS, the link partner's ability, and what has been published and given, the last first. -/
structure PartnerRun where
  pcs : UsxgmiiPcs
  partner : BitVec 16
  outputs : List PcsOutput

/-- The ability changes, or the PCS is configured, enabled, disabled, polled or asked. -/
inductive PartnerEvent where
  | linkPartner (ability : BitVec 16)
  | config (call : PcsConfig) (reset : UsxgmiiRegs → UsxgmiiRegs)
  | enable
  | disable (xgmacSts : BitVec 32)
  | poll (link queued : Bool) (reset : UsxgmiiRegs → UsxgmiiRegs) (xgmacSts : BitVec 32)
  | getState (interface : PhyInterface) (expired : Bool)

namespace PartnerRun

variable (s : PartnerRun)

/-- In-band, `mtk_usxgmii_get_state` has run and has published the state. -/
def publish (pcs : UsxgmiiPcs) : PartnerRun :=
  { s with
    pcs := pcs
    outputs := if pcs.mode = MLO_AN_INBAND then .published s.partner pcs.state :: s.outputs
      else s.outputs }

def step (s : PartnerRun) : PartnerEvent → Option PartnerRun
  | .linkPartner ability => some { s with partner := ability }
  | .config call reset =>
    if call.mode = MLO_AN_INBAND ∧ call.interface = .usxgmii then
      (s.pcs.mtkUsxgmiiPcsConfig call reset).map fun done => { s with pcs := done.1 }
    else none
  | .enable => some { s with pcs := s.pcs.mtkUsxgmiiPcsEnable }
  | .disable xgmacSts => some (s.publish (s.pcs.mtkUsxgmiiPcsDisable s.partner xgmacSts))
  | .poll link queued reset xgmacSts =>
    if s.pcs.pending then
      some (s.publish (s.pcs.mtkUsxgmiiPcsLinkPoll link queued reset s.partner xgmacSts))
    else none
  | .getState interface expired =>
    let done := s.pcs.mtkUsxgmiiPcsGetState interface expired
    some { s with pcs := done.1, outputs := .given done.2 :: s.outputs }

/-- A PCS that phylink has configured for USXGMII in-band, before anything is published. -/
structure Negotiating (s : PartnerRun) : Prop where
  mode : s.pcs.mode = MLO_AN_INBAND
  interface : s.pcs.interface = .usxgmii
  an : s.pcs.regs.anCtrl0 &&& USXGMII_AN_ENABLE ≠ 0

end PartnerRun

/-! ## Fresh states -/

def PcsState.Exact (state : PcsState) (partner : BitVec 16) : Prop :=
  state.link = partner.getLsbD 15 ∧ state.duplex = partner.getLsbD 12 ∧
    ∀ speed, lpaSpeed (partner.setWidth 32) = some speed → state.speed = speed

def lastPublished (initial : PcsState) : List PcsOutput → PcsState
  | [] => initial
  | .published _ state :: _ => state
  | .given _ :: outputs => lastPublished initial outputs

def PublishesFresh (initial : PcsState) : List PcsOutput → Prop
  | [] => True
  | .published partner state :: outputs => state.Exact partner ∧ PublishesFresh initial outputs
  | .given state :: outputs =>
    (state.link = (lastPublished initial outputs).link ∧
      state.duplex = (lastPublished initial outputs).duplex ∧
      state.speed = (lastPublished initial outputs).speed) ∧ PublishesFresh initial outputs

/-- The latch bit is set in `RG_PCS_AN_STS0`, or the register already has the ability; `speed` is
what has been published before. -/
def Latches (sts0 : BitVec 32) (speed : Nat) (partner : BitVec 16) : Prop :=
  sts0 &&& USXGMII_LPA_LATCH ≠ 0 ∨
  (sts0.getLsbD 15 = partner.getLsbD 15 ∧ sts0.getLsbD 12 = partner.getLsbD 12 ∧
    ∀ asked, lpaSpeed (partner.setWidth 32) = some asked → (lpaSpeed sts0).getD speed = asked)

/-- Before each run of `mtk_usxgmii_get_state` the latch bit is set or the register has the
ability. -/
def PartnerRun.Refreshes (s : PartnerRun) : PartnerEvent → Prop
  | .disable _ => Latches s.pcs.regs.anSts0 s.pcs.state.speed s.partner
  | .poll link _ reset _ =>
    Latches (if s.pcs.polls link then (reset s.pcs.regs).anSts0 else s.pcs.regs.anSts0)
      s.pcs.state.speed s.partner
  | _ => True

/-! ## One run of `mtk_usxgmii_get_state` -/

theorem getLsbD_setLpa (partner : BitVec 16) (reg : BitVec 32) {i : Nat} (low : i < 16) :
    (setLpa partner reg).getLsbD i = partner.getLsbD i := by
  have mask : ∀ i < 16, (0xffff : BitVec 32).getLsbD i = true := by decide
  have inside : i < 32 := by omega
  rw [setLpa, getLsbD_updateBits, mask i low, if_pos rfl, BitVec.getLsbD_setWidth,
    decide_eq_true inside, Bool.true_and]

theorem lpaSpeed_congr {reg reg' : BitVec 32}
    (same : ∀ i < 16, reg.getLsbD i = reg'.getLsbD i) : lpaSpeed reg = lpaSpeed reg' := by
  have field : reg.extractLsb' 9 3 = reg'.extractLsb' 9 3 := by
    refine BitVec.eq_of_getLsbD_eq fun i inside => ?_
    rw [BitVec.getLsbD_extractLsb', BitVec.getLsbD_extractLsb', same (9 + i) (by omega)]
  rw [lpaSpeed, lpaSpeed, fieldGet, fieldGet, field]

theorem clear_latch (val : BitVec 32) :
    updateBits USXGMII_LPA_LATCH (if val &&& USXGMII_LPA_LATCH = 0 then 1 else 0) val =
      val &&& ~~~USXGMII_LPA_LATCH := by
  rw [updateBits]
  split <;> exact BitVec.or_zero

theorem invert_iff (val : BitVec 32) :
    (val ^^^ (val &&& ~~~USXGMII_LPA_LATCH)) &&& USXGMII_LPA_LATCH = val &&& USXGMII_LPA_LATCH := by
  refine BitVec.eq_of_getLsbD_eq fun i inside => ?_
  rw [BitVec.getLsbD_and, BitVec.getLsbD_xor, BitVec.getLsbD_and, BitVec.getLsbD_not,
    BitVec.getLsbD_and, decide_eq_true inside]
  cases val.getLsbD i <;> cases USXGMII_LPA_LATCH.getLsbD i <;> rfl

theorem setLpa_exact (partner : BitVec 16) (reg : BitVec 32) (interface : PhyInterface)
    (speed : Nat) :
    PcsState.Exact ⟨interface, (setLpa partner reg).getLsbD 15, (setLpa partner reg).getLsbD 12,
      (lpaSpeed (setLpa partner reg)).getD speed⟩ partner := by
  refine ⟨getLsbD_setLpa partner reg (by decide), getLsbD_setLpa partner reg (by decide),
    fun asked code => ?_⟩
  have same : lpaSpeed (setLpa partner reg) = lpaSpeed (partner.setWidth 32) := by
    refine lpaSpeed_congr fun i low => ?_
    have inside : i < 32 := by omega
    rw [getLsbD_setLpa partner reg low, BitVec.getLsbD_setWidth, decide_eq_true inside,
      Bool.true_and]
  rw [same, code]
  rfl

namespace UsxgmiiPcs

variable {mpcs : UsxgmiiPcs}

theorem getState_state (an : mpcs.regs.anCtrl0 &&& USXGMII_AN_ENABLE ≠ 0) (partner : BitVec 16)
    (xgmacSts : BitVec 32) :
    ∃ sts0, sts0 = (if mpcs.regs.anSts0 &&& USXGMII_LPA_LATCH ≠ 0 then
        setLpa partner (mpcs.regs.anSts0 &&& ~~~USXGMII_LPA_LATCH)
      else mpcs.regs.anSts0 &&& ~~~USXGMII_LPA_LATCH) ∧
      (mpcs.mtkUsxgmiiGetState partner xgmacSts).state =
        ⟨mpcs.interface, sts0.getLsbD 15, sts0.getLsbD 12,
          (lpaSpeed sts0).getD mpcs.state.speed⟩ := by
  refine ⟨_, rfl, ?_⟩
  rw [mtkUsxgmiiGetState, if_pos an]
  dsimp only
  rw [clear_latch, writeAnSts0, invert_iff]

/-- The state is published as the link partner has it exactly when the write refreshes the
register or the register has the ability already. -/
theorem getState_exact_iff (an : mpcs.regs.anCtrl0 &&& USXGMII_AN_ENABLE ≠ 0)
    (partner : BitVec 16) (xgmacSts : BitVec 32) :
    (mpcs.mtkUsxgmiiGetState partner xgmacSts).state.Exact partner ↔
      Latches mpcs.regs.anSts0 mpcs.state.speed partner := by
  obtain ⟨sts0, written, state⟩ := getState_state an partner xgmacSts
  rw [state]
  by_cases latch : mpcs.regs.anSts0 &&& USXGMII_LPA_LATCH = 0
  · have kept : ∀ i < 16, sts0.getLsbD i = mpcs.regs.anSts0.getLsbD i := by
      intro i low
      have apart : ∀ i < 16, USXGMII_LPA_LATCH.getLsbD i = false := by decide
      have inside : i < 32 := by omega
      rw [written, if_neg fun set => set latch, BitVec.getLsbD_and, BitVec.getLsbD_not,
        apart i low, decide_eq_true inside, Bool.not_false, Bool.and_true, Bool.and_true]
    rw [Latches, or_iff_right fun set => set latch, PcsState.Exact, kept 15 (by decide),
      kept 12 (by decide), lpaSpeed_congr kept]
  · rw [written, if_pos latch]
    exact ⟨fun _ => .inl latch, fun _ => setLpa_exact ..⟩

end UsxgmiiPcs

namespace PartnerRun

variable {s : PartnerRun} {initial : PcsState}

/-- The PCS negotiates, and its state is the last that has been published. -/
structure Kept (initial : PcsState) (s : PartnerRun) : Prop where
  negotiating : s.Negotiating
  state : s.pcs.state = lastPublished initial s.outputs
  fresh : PublishesFresh initial s.outputs

theorem config_usxgmii {call : PcsConfig} (interface : call.interface = .usxgmii)
    (mpcs : UsxgmiiPcs) (reset : UsxgmiiRegs → UsxgmiiRegs) :
    ∃ done changed, mpcs.mtkUsxgmiiPcsConfig call reset = some (done, changed) ∧
      done.regs.anCtrl0 &&& USXGMII_AN_ENABLE ≠ 0 ∧
      done.regs.anSts0 = (reset mpcs.regs).anSts0 ∧ done.state = mpcs.state ∧
      done.mode = (mpcs.remember call).mode ∧
      done.interface = (mpcs.remember call).interface := by
  have modes : usxgmiiModes call.interface = some ⟨fieldPrep 11 0x1ff ||| USXGMII_AN_ENABLE,
      usxgmiiLinkTimer 0x7b, fieldPrep 4 0 ||| fieldPrep 0 0, fieldPrep 8 0⟩ := by
    rw [interface]
    rfl
  rw [UsxgmiiPcs.mtkUsxgmiiPcsConfig, modes]
  refine ⟨_, _, rfl, ?_, rfl, ?_, rfl, rfl⟩
  · rw [UsxgmiiRegs.configure]
    dsimp only
    rw [updateBits_and_of_within (by decide)]
    decide
  · rw [UsxgmiiPcs.remember]
    split <;> rfl

/-- The poll leaves the PCS as it has to be for its run of `mtk_usxgmii_get_state`. -/
theorem reconfigure_kept {mpcs : UsxgmiiPcs} (interface : mpcs.interface = .usxgmii)
    (an : mpcs.regs.anCtrl0 &&& USXGMII_AN_ENABLE ≠ 0) (link : Bool)
    (reset : UsxgmiiRegs → UsxgmiiRegs) :
    (mpcs.reconfigure link reset).regs.anCtrl0 &&& USXGMII_AN_ENABLE ≠ 0 ∧
      (mpcs.reconfigure link reset).regs.anSts0 =
        (if mpcs.polls link then (reset mpcs.regs).anSts0 else mpcs.regs.anSts0) ∧
      (mpcs.reconfigure link reset).state = mpcs.state ∧
      (mpcs.reconfigure link reset).mode = mpcs.mode ∧
      (mpcs.reconfigure link reset).interface = mpcs.interface := by
  rw [UsxgmiiPcs.reconfigure]
  split
  · let call : PcsConfig := ⟨UINT_MAX, mpcs.interface, fun _ => false⟩
    have usxgmii : call.interface = .usxgmii := interface
    obtain ⟨done, changed, configured, an, sts0, state, mode, same⟩ :=
      config_usxgmii usxgmii mpcs reset
    rw [UsxgmiiPcs.remember_poll] at mode same
    rw [configured]
    exact ⟨an, sts0, state, mode, same⟩
  · exact ⟨an, rfl, rfl, rfl, rfl⟩

theorem getState_an {mpcs : UsxgmiiPcs} (partner : BitVec 16) (xgmacSts : BitVec 32) :
    (mpcs.mtkUsxgmiiGetState partner xgmacSts).regs.anCtrl0 = mpcs.regs.anCtrl0 := by
  rw [UsxgmiiPcs.mtkUsxgmiiGetState]
  split <;> rfl

theorem Kept.getState (kept : Kept initial s) {mpcs : UsxgmiiPcs} (mode : mpcs.mode = MLO_AN_INBAND)
    (interface : mpcs.interface = .usxgmii) (an : mpcs.regs.anCtrl0 &&& USXGMII_AN_ENABLE ≠ 0)
    (xgmacSts : BitVec 32) (latches : Latches mpcs.regs.anSts0 mpcs.state.speed s.partner) :
    Kept initial (s.publish (mpcs.mtkUsxgmiiGetState s.partner xgmacSts)) := by
  have exact' := (UsxgmiiPcs.getState_exact_iff an s.partner xgmacSts).mpr latches
  obtain ⟨-, same, mode'⟩ := mpcs.getState_kept s.partner xgmacSts
  have inband := mode'.trans mode
  refine ⟨⟨inband, same.trans interface, ?_⟩, ?_, ?_⟩
  · exact (getState_an s.partner xgmacSts).symm ▸ an
  · rw [publish, if_pos inband]
    rfl
  · rw [publish, if_pos inband]
    exact ⟨exact', kept.fresh⟩

theorem Kept.step (kept : Kept initial s) {event : PartnerEvent} {s' : PartnerRun}
    (refreshes : s.Refreshes event) (stepped : s.step event = some s') : Kept initial s' := by
  obtain ⟨mode, interface, an⟩ := kept.negotiating
  cases event with
  | linkPartner ability =>
    obtain rfl := Option.some_inj.mp stepped
    exact ⟨⟨mode, interface, an⟩, kept.state, kept.fresh⟩
  | config call reset =>
    obtain ⟨⟨inband, usxgmii⟩, stepped⟩ := Option.ite_none_right_eq_some.mp stepped
    obtain ⟨done, changed, configured, an', -, state, mode', interface'⟩ :=
      config_usxgmii usxgmii s.pcs reset
    rw [configured] at stepped
    obtain rfl := Option.some_inj.mp stepped
    have same : s.pcs.remember call = s.pcs :=
      if_neg fun both => both.2 (interface.trans usxgmii.symm)
    rw [same] at mode' interface'
    exact ⟨⟨mode'.trans mode, interface'.trans interface, an'⟩, state.trans kept.state, kept.fresh⟩
  | enable =>
    obtain rfl := Option.some_inj.mp stepped
    exact ⟨⟨mode, interface, an⟩, kept.state, kept.fresh⟩
  | disable xgmacSts =>
    obtain rfl := Option.some_inj.mp stepped
    rw [UsxgmiiPcs.mtkUsxgmiiPcsDisable, if_pos mode]
    refine kept.getState ?_ ?_ ?_ xgmacSts ?_
    · exact mode
    · exact interface
    · exact an
    · exact refreshes
  | poll link queued reset xgmacSts =>
    obtain ⟨-, stepped⟩ := Option.ite_none_right_eq_some.mp stepped
    obtain rfl := Option.some_inj.mp stepped
    obtain ⟨an', sts0, state, mode', interface'⟩ := reconfigure_kept interface an link reset
    rw [UsxgmiiPcs.mtkUsxgmiiPcsLinkPoll, if_pos (mode'.trans mode)]
    refine kept.getState ?_ ?_ ?_ xgmacSts ?_
    · exact mode'.trans mode
    · exact interface'.trans interface
    · exact an'
    · dsimp only
      rw [sts0, state]
      exact refreshes
  | getState interface' expired =>
    obtain rfl := Option.some_inj.mp stepped
    refine ⟨⟨mode, interface, an⟩, kept.state, ⟨?_, kept.fresh⟩⟩
    rw [← kept.state]
    exact ⟨rfl, rfl, rfl⟩

/-- While each run of `mtk_usxgmii_get_state` finds the latch bit set or the ability in the
register, phylink is given the link partner's state. -/
theorem fresh_of_refreshes {s₀ s : PartnerRun} (negotiating : s₀.Negotiating)
    (new : s₀.outputs = []) (run : Reaches Refreshes PartnerRun.step s₀ s) :
    PublishesFresh s₀.pcs.state s.outputs := by
  have start : Kept s₀.pcs.state s₀ := by
    refine ⟨negotiating, ?_, ?_⟩
    · rw [new]
      rfl
    · rw [new]
      trivial
  have kept : Kept s₀.pcs.state s :=
    run.invariant (fun _ _ _ kept refreshes stepped => kept.step refreshes stepped) start
  exact kept.fresh

/-- `mtk_usxgmii_init` and phylink's call for USXGMII in-band; the register has `sts0`. -/
def configured (sts0 : BitVec 32) : PartnerRun :=
  ⟨(((UsxgmiiPcs.init 0 true ⟨0, 0, 0, 0, sts0⟩).mtkUsxgmiiPcsConfig
      ⟨MLO_AN_INBAND, .usxgmii, fun _ => false⟩ id).map Prod.fst).getD
        (UsxgmiiPcs.init 0 true ⟨0, 0, 0, 0, sts0⟩), 0, []⟩

theorem configured_negotiating (sts0 : BitVec 32) : (configured sts0).Negotiating :=
  ⟨rfl, rfl, (by decide : (configured 0).pcs.regs.anCtrl0 &&& USXGMII_AN_ENABLE ≠ 0)⟩

/-- The link partner comes up with 10 Gbit/s full duplex, and the PCS is polled. -/
def partnerRun : List PartnerEvent :=
  [.linkPartner 0x9600, .enable, .poll true false id 0, .getState .usxgmii false]

/-- With the latch bit set phylink is given a link of 10 Gbit/s. -/
theorem partnerRun_fresh : ∃ s, runSteps PartnerRun.step partnerRun (configured 0x80000000) =
    some s ∧ (s.outputs.head? = some (.given ⟨.usxgmii, true, true, 10000⟩)) ∧
    PublishesFresh (configured 0x80000000).pcs.state s.outputs := by
  have run : ∃ s, runSteps PartnerRun.step partnerRun (configured 0x80000000) = some s ∧
      (s.outputs.head? = some (.given ⟨.usxgmii, true, true, 10000⟩)) := ⟨_, rfl, rfl⟩
  obtain ⟨s, run, given⟩ := run
  have refreshes : AllAllowed Refreshes PartnerRun.step partnerRun (configured 0x80000000) := by
    refine ⟨trivial, fun _ changed => ⟨trivial, fun _ enabled => ⟨?_, fun _ _ =>
      ⟨trivial, fun _ _ => trivial⟩⟩⟩⟩
    obtain rfl := Option.some_inj.mp changed
    obtain rfl := Option.some_inj.mp enabled
    exact .inl (by decide)
  exact ⟨s, run, given, fresh_of_refreshes (configured_negotiating 0x80000000) rfl
    (reaches_of_runSteps refreshes run)⟩

/-- With the latch bit clear it stays clear, and phylink is given the state before. -/
theorem partnerRun_stale :
    ¬ ∀ s₀ s, s₀.Negotiating → s₀.outputs = [] → Reaches anyStep PartnerRun.step s₀ s →
      PublishesFresh s₀.pcs.state s.outputs := by
  intro fresh
  have run : ∃ s, runSteps PartnerRun.step partnerRun (configured 0) = some s ∧
      s.outputs = [.given ⟨.usxgmii, false, false, 10⟩,
        .published 0x9600 ⟨.usxgmii, false, false, 10⟩] := ⟨_, rfl, rfl⟩
  obtain ⟨s, run, outputs⟩ := run
  have all := fresh (configured 0) s (configured_negotiating 0) rfl
    (reaches_of_runSteps allAllowed_anyStep run)
  rw [outputs] at all
  exact absurd all.2.1.1 (by decide)

end PartnerRun

end MetaFilogic.Eth
