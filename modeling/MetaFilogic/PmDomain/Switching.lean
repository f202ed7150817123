import MetaFilogic.PmDomain.Domain

/-!
# Switching is not all or nothing

A failed `scpsys_power_on` takes back what it has enabled, except when it is a clock that cannot
be enabled: the labels it goes to then disable clocks that have not been enabled.  What it has
written to the registers before the failure it does not take back.
-/

namespace MetaFilogic.PmDomain

open Registers

/-! ## Registers -/

variable {data : DomainData} {hw : Hardware} {pd pd' : ScpsysDomain} {ret ret' : Int}
  {a b c : Int}

theorem ite_setBits (reg : Nat) (bits : Word) :
    (if bits ≠ 0 then pd.setBits reg bits else pd) = pd.setBits reg bits := by
  split
  · rfl
  · next zero =>
      rw [not_not.mp zero, ScpsysDomain.setBits, Update.apply_of_mask_eq_zero pd.regs rfl]

theorem ite_clearBits (reg : Nat) (bits : Word) :
    (if bits ≠ 0 then pd.clearBits reg bits else pd) = pd.clearBits reg bits := by
  split
  · rfl
  · next zero =>
      rw [not_not.mp zero, ScpsysDomain.clearBits, Update.apply_of_mask_eq_zero pd.regs rfl]

namespace DomainData

variable (data : DomainData)

/-- What `scpsys_power_on` writes before it waits for the power acknowledge. -/
def powerOnUpdates : List (Update 32) :=
  [.set data.pwrOnOffs data.pwrOnBit, .set data.pwrOn2ndOffs data.pwrOn2ndBit]

/-- What it writes from the power acknowledge on, up to `scpsys_sram_enable`. -/
def releaseUpdates : List (Update 32) :=
  [.clear data.pwrOnOffs data.pwrClampBit, .set data.pwrOnOffs data.pwrRstBit]

/-- What `scpsys_sram_disable` writes. -/
def sramDisableUpdates : List (Update 32) :=
  [.set data.sram2ndCtrlOffs data.sram2ndClkDisBit, .set data.sramCtrlOffs data.sramClkIsoBit,
    .set data.sramCtrlOffs data.sramPdnBit, .set data.sram2ndCtrlOffs data.sram2ndClkIsoBit,
    .set data.sram2ndCtrlOffs data.sram2ndPdnBit]

end DomainData

theorem scpsysSramDisable_eq : scpsysSramDisable data pd =
    { pd with regs := applyAll data.sramDisableUpdates pd.regs } := by
  rw [scpsysSramDisable]
  simp only [ite_setBits]
  rfl

/-! ## Counts -/

structure Counts (supply clks subsysClks : Int) (pd : ScpsysDomain) : Prop where
  supply_eq : ∀ enabled, pd.supply = .regulator enabled → enabled = supply
  clks_eq : ∀ count ∈ pd.clks, count = clks
  subsysClks_eq : ∀ count ∈ pd.subsysClks, count = subsysClks
  above : pd.below = false

namespace Counts

theorem withRegs (counts : Counts a b c pd) (regs : Nat → Word) : Counts a b c { pd with regs } :=
  ⟨counts.supply_eq, counts.clks_eq, counts.subsysClks_eq, counts.above⟩

theorem setBits (counts : Counts a b c pd) (reg : Nat) (bits : Word) :
    Counts a b c (pd.setBits reg bits) := counts.withRegs _

theorem clearBits (counts : Counts a b c pd) (reg : Nat) (bits : Word) :
    Counts a b c (pd.clearBits reg bits) := counts.withRegs _

theorem enableClks (counts : Counts a b c pd) :
    Counts a (b + 1) c { pd with clks := pd.clks.map (· + 1) } := by
  refine ⟨counts.supply_eq, ?_, counts.subsysClks_eq, counts.above⟩
  intro count mem
  obtain ⟨before, member, rfl⟩ := List.mem_map.mp mem
  rw [counts.clks_eq before member]

theorem enableSubsysClks (counts : Counts a b c pd) :
    Counts a b (c + 1) { pd with subsysClks := pd.subsysClks.map (· + 1) } := by
  refine ⟨counts.supply_eq, counts.clks_eq, ?_, counts.above⟩
  intro count mem
  obtain ⟨before, member, rfl⟩ := List.mem_map.mp mem
  rw [counts.subsysClks_eq before member]

theorem not_any_le {counts : List Int} (all : ∀ count ∈ counts, count = 1) :
    counts.any (· ≤ 0) = false := by
  rw [List.any_eq_false]
  intro count mem
  rw [all count mem]
  decide

theorem disableClks (counts : Counts a 1 c pd) : Counts a 0 c (clkBulkDisableUnprepare pd) := by
  refine ⟨counts.supply_eq, ?_, counts.subsysClks_eq, ?_⟩
  · intro count mem
    obtain ⟨before, member, rfl⟩ := List.mem_map.mp mem
    rw [counts.clks_eq before member]
    rfl
  · rw [clkBulkDisableUnprepare, counts.above, not_any_le counts.clks_eq]
    rfl

theorem disableSubsysClks (counts : Counts a b 1 pd) :
    Counts a b 0 (clkBulkDisableUnprepareSubsys pd) := by
  refine ⟨counts.supply_eq, counts.clks_eq, ?_, ?_⟩
  · intro count mem
    obtain ⟨before, member, rfl⟩ := List.mem_map.mp mem
    rw [counts.subsysClks_eq before member]
    rfl
  · rw [clkBulkDisableUnprepareSubsys, counts.above, not_any_le counts.subsysClks_eq]
    rfl

theorem disableSupply (counts : Counts 1 b c pd) (disabled : scpsysRegulatorDisable pd = some pd') :
    Counts 0 b c pd' ∧ pd'.regs = pd.regs := by
  rw [scpsysRegulatorDisable] at disabled
  cases is : pd.supply with
  | none =>
    rw [is] at disabled
    obtain rfl := Option.some_inj.mp disabled
    refine ⟨⟨fun enabled held => ?_, counts.clks_eq, counts.subsysClks_eq, counts.above⟩, rfl⟩
    rw [is] at held
    exact nomatch held
  | error =>
    rw [is] at disabled
    exact nomatch disabled
  | regulator enabled =>
    rw [is] at disabled
    obtain rfl := Option.some_inj.mp disabled
    have one := counts.supply_eq enabled is
    subst one
    refine ⟨⟨fun enabled held => ?_, counts.clks_eq, counts.subsysClks_eq, ?_⟩, rfl⟩
    · cases held
      rfl
    · dsimp only
      rw [counts.above]
      decide

end Counts

/-! ## Which step fails first -/

inductive Stage where
  | supply
  | clks
  | powerAck
  | subsysClks
  | sram
  | sram2nd
  deriving DecidableEq

def supplyFails (data : DomainData) (hw : Hardware) (pd : ScpsysDomain) : Bool :=
  match scpsysRegulatorGet data hw pd.supply with
  | (ret, .none) => ret != 0
  | (_, .error) => true
  | (ret, .regulator _) => ret != 0 || hw.regulatorErr != 0

def failsAcked (data : DomainData) (hw : Hardware) (pd : ScpsysDomain) : Option Stage :=
  if pd.subsysClks ≠ [] ∧ hw.subsysErr ≠ 0 then some .subsysClks
  else if data.sramPdnBit ≠ 0 ∧ hw.sramCtrl data.sramCtrlOffs &&& data.sramPdnAckBit ≠ 0 then
    some .sram
  else if data.sram2ndPdnBit ≠ 0 ∧
      hw.sram2ndCtrl data.sram2ndCtrlOffs &&& data.sram2ndPdnAckBit ≠ 0 then
    some .sram2nd
  else none

theorem failsAcked_congr (same : pd.subsysClks = pd'.subsysClks) :
    failsAcked data hw pd = failsAcked data hw pd' := by
  rw [failsAcked, failsAcked, same]

theorem failsAcked_cases : failsAcked data hw pd = none ∨
    failsAcked data hw pd = some .subsysClks ∨ failsAcked data hw pd = some .sram ∨
      failsAcked data hw pd = some .sram2nd := by
  rw [failsAcked]
  split_ifs <;> simp

/-- The first step of `scpsys_power_on` that fails. -/
def failsAt (data : DomainData) (hw : Hardware) (pd : ScpsysDomain) : Option Stage :=
  if supplyFails data hw pd then some .supply
  else if pd.clks ≠ [] ∧ hw.clkErr ≠ 0 then some .clks
  else if ¬scpsysDomainIsOn data hw then some .powerAck
  else failsAcked data hw pd

def DomainData.updatesAcked (data : DomainData) : Stage → List (Update 32)
  | .sram => data.releaseUpdates ++ [.clear data.sramCtrlOffs data.sramPdnBit] ++
      data.sramDisableUpdates
  | .sram2nd => data.releaseUpdates ++
      [.clear data.sramCtrlOffs data.sramPdnBit,
        .clear data.sram2ndCtrlOffs data.sram2ndPdnBit] ++ data.sramDisableUpdates
  | _ => []

def DomainData.updates (data : DomainData) : Stage → List (Update 32)
  | .supply | .clks => []
  | stage => data.powerOnUpdates ++ data.updatesAcked stage

/-- There are clocks, subsystem clocks and a regulator of both domains or of none. -/
structure SameSupplies (pd pd' : ScpsysDomain) : Prop where
  clks_iff : pd.clks = [] ↔ pd'.clks = []
  subsysClks_iff : pd.subsysClks = [] ↔ pd'.subsysClks = []
  supply_iff : (∃ n, pd.supply = .regulator n) ↔ ∃ n, pd'.supply = .regulator n

namespace SameSupplies

theorem refl (pd : ScpsysDomain) : SameSupplies pd pd := ⟨Iff.rfl, Iff.rfl, Iff.rfl⟩

theorem trans {pd'' : ScpsysDomain} (first : SameSupplies pd pd')
    (second : SameSupplies pd' pd'') : SameSupplies pd pd'' :=
  ⟨first.clks_iff.trans second.clks_iff, first.subsysClks_iff.trans second.subsysClks_iff,
    first.supply_iff.trans second.supply_iff⟩

theorem enableClks (pd : ScpsysDomain) (regs : Nat → Word) :
    SameSupplies pd { pd with clks := pd.clks.map (· + 1), regs } :=
  ⟨List.map_eq_nil_iff.symm, Iff.rfl, Iff.rfl⟩

theorem enableSubsysClks (pd : ScpsysDomain) (regs : Nat → Word) :
    SameSupplies pd { pd with subsysClks := pd.subsysClks.map (· + 1), regs } :=
  ⟨Iff.rfl, List.map_eq_nil_iff.symm, Iff.rfl⟩

end SameSupplies

theorem regulatorGet_counts (counts : Counts 0 b c pd) :
    Counts 0 b c { pd with supply := (scpsysRegulatorGet data hw pd.supply).2 } := by
  refine ⟨fun enabled held => ?_, counts.clks_eq, counts.subsysClks_eq, counts.above⟩
  dsimp only at held
  rw [scpsysRegulatorGet] at held
  split at held
  · split at held
    · exact nomatch held
    · cases held
      rfl
    · exact nomatch held
  · exact counts.supply_eq enabled held

theorem regulatorGet_ret (supply : Supply) : (scpsysRegulatorGet data hw supply).1 ≤ 0 := by
  rw [scpsysRegulatorGet]
  split
  · split <;> decide
  · exact le_rfl

theorem regulatorEnable_spec (counts : Counts 0 b c pd)
    (enabled : scpsysRegulatorEnable data hw pd = some (ret, pd')) :
    (pd'.regs = pd.regs ∧ pd'.clks = pd.clks ∧ pd'.subsysClks = pd.subsysClks) ∧
      if supplyFails data hw pd then ret < 0 ∧ Counts 0 b c pd'
      else ret = 0 ∧ Counts 1 b c pd' ∧
        SameSupplies { pd with supply := (scpsysRegulatorGet data hw pd.supply).2 } pd' := by
  have got : Counts 0 b c { pd with supply := (scpsysRegulatorGet data hw pd.supply).2 } :=
    regulatorGet_counts counts
  have sign : (scpsysRegulatorGet data hw pd.supply).1 ≤ 0 := regulatorGet_ret pd.supply
  rw [scpsysRegulatorEnable] at enabled
  rw [supplyFails]
  generalize scpsysRegulatorGet data hw pd.supply = gets at got sign enabled ⊢
  obtain ⟨get, supply⟩ := gets
  dsimp only at got sign enabled ⊢
  by_cases failed : get ≠ 0
  · rw [if_pos failed] at enabled
    obtain ⟨rfl, rfl⟩ := Prod.mk.inj (Option.some_inj.mp enabled)
    refine ⟨⟨rfl, rfl, rfl⟩, ?_⟩
    have fails : (get != 0) = true := by simpa using failed
    have negative : get < 0 := by omega
    cases supply with
    | none =>
      simp only [fails, if_true]
      exact ⟨negative, got⟩
    | error => exact ⟨negative, got⟩
    | regulator =>
      simp only [fails, Bool.true_or, if_true]
      exact ⟨negative, got⟩
  · rw [if_neg failed] at enabled
    have zero : get = 0 := not_not.mp failed
    subst zero
    cases supply with
    | none =>
      obtain ⟨rfl, rfl⟩ := Prod.mk.inj (Option.some_inj.mp enabled)
      exact ⟨⟨rfl, rfl, rfl⟩, rfl, ⟨nofun, got.clks_eq, got.subsysClks_eq, got.above⟩, .refl _⟩
    | error => exact nomatch enabled
    | regulator count =>
      have none := got.supply_eq count rfl
      subst none
      dsimp only at enabled ⊢
      by_cases works : hw.regulatorErr = 0
      · rw [if_pos works] at enabled
        obtain ⟨rfl, rfl⟩ := Prod.mk.inj (Option.some_inj.mp enabled)
        refine ⟨⟨rfl, rfl, rfl⟩, ?_⟩
        rw [works]
        refine ⟨rfl, ⟨fun enabled held => ?_, got.clks_eq, got.subsysClks_eq, got.above⟩,
          Iff.rfl, Iff.rfl, ⟨fun _ => ⟨_, rfl⟩, fun _ => ⟨_, rfl⟩⟩⟩
        cases held
        rfl
      · rw [if_neg works] at enabled
        obtain ⟨rfl, rfl⟩ := Prod.mk.inj (Option.some_inj.mp enabled)
        refine ⟨⟨rfl, rfl, rfl⟩, ?_⟩
        have fails : (hw.regulatorErr != 0) = true := by simpa using works
        simp only [fails, Bool.or_true, if_true]
        exact ⟨by omega, got⟩

theorem errPwrAck_spec (counts : Counts 1 1 c pd) (undone : errPwrAck ret' pd = some (ret, pd')) :
    ret = ret' ∧ Counts 0 0 c pd' ∧ pd'.regs = pd.regs := by
  obtain ⟨after, disabled, same⟩ := Option.map_eq_some_iff.mp undone
  obtain ⟨rfl, rfl⟩ := Prod.mk.inj same
  exact ⟨rfl, counts.disableClks.disableSupply disabled⟩

theorem errDisableSubsysClks_spec (counts : Counts 1 1 1 pd)
    (undone : errDisableSubsysClks ret' pd = some (ret, pd')) :
    ret = ret' ∧ Counts 0 0 0 pd' ∧ pd'.regs = pd.regs := by
  obtain ⟨same, none, regs⟩ := errPwrAck_spec counts.disableSubsysClks undone
  exact ⟨same, none, regs⟩

theorem errDisableSram_spec (counts : Counts 1 1 1 pd)
    (undone : errDisableSram data ret' pd = some (ret, pd')) :
    ret = ret' ∧ Counts 0 0 0 pd' ∧ pd'.regs = applyAll data.sramDisableUpdates pd.regs := by
  rw [errDisableSram, scpsysSramDisable_eq] at undone
  obtain ⟨same, none, regs⟩ := errDisableSubsysClks_spec (counts.withRegs _) undone
  exact ⟨same, none, regs⟩

theorem regulatorDisable_below (low : pd.below = true)
    (disabled : scpsysRegulatorDisable pd = some pd') : pd'.below = true := by
  rw [scpsysRegulatorDisable] at disabled
  split at disabled
  · obtain rfl := Option.some_inj.mp disabled
    exact low
  · exact nomatch disabled
  · obtain rfl := Option.some_inj.mp disabled
    dsimp only
    rw [low]
    rfl

theorem any_le_of_zero {counts : List Int} (nonempty : counts ≠ [])
    (all : ∀ count ∈ counts, count = 0) : counts.any (· ≤ 0) = true := by
  obtain ⟨count, counts, rfl⟩ := List.exists_cons_of_ne_nil nonempty
  rw [List.any_cons, all count List.mem_cons_self]
  rfl

theorem errPwrAck_below (low : pd.below = true ∨ pd.clks ≠ [] ∧ ∀ count ∈ pd.clks, count = 0)
    (undone : errPwrAck ret' pd = some (ret, pd')) : ret = ret' ∧ pd'.below = true := by
  obtain ⟨after, disabled, same⟩ := Option.map_eq_some_iff.mp undone
  obtain ⟨rfl, rfl⟩ := Prod.mk.inj same
  refine ⟨rfl, regulatorDisable_below ?_ disabled⟩
  rw [clkBulkDisableUnprepare]
  rcases low with low | ⟨nonempty, zero⟩
  · rw [low]
    rfl
  · rw [any_le_of_zero nonempty zero, Bool.or_true]

theorem errDisableSubsysClks_below (nonempty : pd.subsysClks ≠ [])
    (zero : ∀ count ∈ pd.subsysClks, count = 0)
    (undone : errDisableSubsysClks ret' pd = some (ret, pd')) : ret = ret' ∧ pd'.below = true := by
  refine errPwrAck_below (.inl ?_) undone
  rw [clkBulkDisableUnprepareSubsys, any_le_of_zero nonempty zero, Bool.or_true]

/-! ## Switching on and off -/

theorem clkBulkPrepareEnable_fails {err : Nat} {clks : List Int} (fails : clks ≠ [] ∧ err ≠ 0) :
    clkBulkPrepareEnable err clks = (-(err : Int), clks) := by
  rw [clkBulkPrepareEnable, if_neg (by simp [fails])]

theorem clkBulkPrepareEnable_works {err : Nat} {clks : List Int} (works : ¬(clks ≠ [] ∧ err ≠ 0)) :
    clkBulkPrepareEnable err clks = (0, clks.map (· + 1)) := by
  rw [clkBulkPrepareEnable, if_pos (by rw [← not_or, not_not] at works; exact works)]

/-- `scpsys_sram_enable`, by the acknowledge that does not come. -/
theorem scpsysSramEnable_spec :
    if data.sramPdnBit ≠ 0 ∧ hw.sramCtrl data.sramCtrlOffs &&& data.sramPdnAckBit ≠ 0 then
      scpsysSramEnable data hw pd =
        (-ETIMEDOUT, pd.clearBits data.sramCtrlOffs data.sramPdnBit)
    else if data.sram2ndPdnBit ≠ 0 ∧
        hw.sram2ndCtrl data.sram2ndCtrlOffs &&& data.sram2ndPdnAckBit ≠ 0 then
      scpsysSramEnable data hw pd =
        (-ETIMEDOUT, (pd.clearBits data.sramCtrlOffs data.sramPdnBit).clearBits
          data.sram2ndCtrlOffs data.sram2ndPdnBit)
    else ∃ regs, scpsysSramEnable data hw pd = (0, { pd with regs }) := by
  rw [scpsysSramEnable]
  simp only [ite_clearBits]
  split
  · rfl
  · split
    · rfl
    · exact ⟨_, rfl⟩

theorem powerOnAcked_spec (counts : Counts 1 1 0 pd)
    (switched : powerOnAcked data hw pd = some (ret, pd')) :
    match failsAcked data hw pd with
    | none => ret = 0 ∧ Counts 1 1 1 pd' ∧ SameSupplies pd pd'
    | some .subsysClks => ret < 0 ∧ pd'.below = true
    | some stage => ret < 0 ∧ Counts 0 0 0 pd' ∧
        pd'.regs = applyAll (data.updatesAcked stage) pd.regs := by
  have released := (counts.clearBits data.pwrOnOffs data.pwrClampBit).setBits data.pwrOnOffs
    data.pwrRstBit
  rw [powerOnAcked] at switched
  simp only [ite_clearBits, ite_setBits] at switched
  have regs : applyAll data.releaseUpdates pd.regs = ((pd.clearBits data.pwrOnOffs
    data.pwrClampBit).setBits data.pwrOnOffs data.pwrRstBit).regs := rfl
  have subsysClks : pd.subsysClks = ((pd.clearBits data.pwrOnOffs
    data.pwrClampBit).setBits data.pwrOnOffs data.pwrRstBit).subsysClks := rfl
  have same : SameSupplies pd ((pd.clearBits data.pwrOnOffs data.pwrClampBit).setBits
    data.pwrOnOffs data.pwrRstBit) := ⟨Iff.rfl, Iff.rfl, Iff.rfl⟩
  rw [failsAcked, subsysClks]
  generalize (pd.clearBits data.pwrOnOffs data.pwrClampBit).setBits data.pwrOnOffs data.pwrRstBit =
    on at released switched regs subsysClks same ⊢
  by_cases noSubsys : on.subsysClks ≠ [] ∧ hw.subsysErr ≠ 0
  · rw [clkBulkPrepareEnable_fails noSubsys] at switched
    dsimp only at switched
    rw [if_pos (by omega)] at switched
    rw [if_pos noSubsys]
    obtain ⟨rfl, low⟩ := errDisableSubsysClks_below noSubsys.1 released.subsysClks_eq switched
    exact ⟨by omega, low⟩
  rw [clkBulkPrepareEnable_works noSubsys] at switched
  dsimp only at switched
  rw [if_neg (by decide)] at switched
  rw [if_neg noSubsys]
  have ready := released.enableSubsysClks
  generalize turned : ({ on with subsysClks := on.subsysClks.map (· + 1) } : ScpsysDomain) = turning
    at switched ready
  have sram := @scpsysSramEnable_spec data hw turning
  by_cases first : data.sramPdnBit ≠ 0 ∧
      hw.sramCtrl data.sramCtrlOffs &&& data.sramPdnAckBit ≠ 0
  · rw [if_pos first] at sram ⊢
    rw [sram] at switched
    dsimp only at switched
    rw [if_pos (by decide)] at switched
    obtain ⟨rfl, none, kept⟩ := errDisableSram_spec (ready.clearBits _ _) switched
    refine ⟨by decide, none, ?_⟩
    rw [kept, DomainData.updatesAcked, applyAll_append, applyAll_append, regs, ← turned]
    rfl
  rw [if_neg first] at sram ⊢
  by_cases second : data.sram2ndPdnBit ≠ 0 ∧
      hw.sram2ndCtrl data.sram2ndCtrlOffs &&& data.sram2ndPdnAckBit ≠ 0
  · rw [if_pos second] at sram ⊢
    rw [sram] at switched
    dsimp only at switched
    rw [if_pos (by decide)] at switched
    obtain ⟨rfl, none, kept⟩ := errDisableSram_spec ((ready.clearBits _ _).clearBits _ _) switched
    refine ⟨by decide, none, ?_⟩
    rw [kept, DomainData.updatesAcked, applyAll_append, applyAll_append, regs, ← turned]
    rfl
  rw [if_neg second] at sram ⊢
  obtain ⟨after, enabled⟩ := sram
  rw [enabled] at switched
  dsimp only at switched
  rw [if_neg (by decide)] at switched
  obtain ⟨rfl, rfl⟩ := Prod.mk.inj (Option.some_inj.mp switched)
  refine ⟨rfl, ready.withRegs _, ?_⟩
  rw [← turned]
  exact same.trans (.enableSubsysClks on _)

theorem scpsysPowerOn_spec (counts : Counts 0 0 0 pd)
    (switched : scpsysPowerOn data hw pd = some (ret, pd')) :
    match failsAt data hw pd with
    | none => ret = 0 ∧ Counts 1 1 1 pd' ∧
        SameSupplies { pd with supply := (scpsysRegulatorGet data hw pd.supply).2 } pd'
    | some .clks | some .subsysClks => ret < 0 ∧ pd'.below = true
    | some stage => ret < 0 ∧ Counts 0 0 0 pd' ∧
        pd'.regs = applyAll (data.updates stage) pd.regs := by
  rw [scpsysPowerOn] at switched
  obtain ⟨⟨enabled, on⟩, supply, rest⟩ := Option.bind_eq_some_iff.mp switched
  obtain ⟨⟨regs, clks, subsysClks⟩, held⟩ := regulatorEnable_spec counts supply
  dsimp only at rest
  rw [failsAt, ← regs, ← clks]
  by_cases noSupply : supplyFails data hw pd = true
  · rw [if_pos noSupply] at held ⊢
    obtain ⟨negative, none⟩ := held
    rw [if_pos (by omega)] at rest
    obtain ⟨rfl, rfl⟩ := Prod.mk.inj (Option.some_inj.mp rest)
    exact ⟨negative, none, rfl⟩
  rw [if_neg noSupply] at held ⊢
  obtain ⟨rfl, one, supplies⟩ := held
  rw [← regs, ← clks] at supplies
  rw [if_neg (by decide)] at rest
  by_cases noClks : on.clks ≠ [] ∧ hw.clkErr ≠ 0
  · rw [clkBulkPrepareEnable_fails noClks] at rest
    dsimp only at rest
    rw [if_pos (by omega)] at rest
    rw [if_pos noClks]
    obtain ⟨rfl, low⟩ := errPwrAck_below (.inr ⟨noClks.1, one.clks_eq⟩) rest
    exact ⟨by omega, low⟩
  rw [clkBulkPrepareEnable_works noClks] at rest
  dsimp only at rest
  rw [if_neg (by decide)] at rest
  rw [if_neg noClks]
  have powered := (one.enableClks.setBits data.pwrOnOffs data.pwrOnBit).setBits data.pwrOn2ndOffs
    data.pwrOn2ndBit
  generalize asks : (({ on with clks := on.clks.map (· + 1) } : ScpsysDomain).setBits
    data.pwrOnOffs data.pwrOnBit).setBits data.pwrOn2ndOffs data.pwrOn2ndBit = asked
    at rest powered
  have askedRegs : asked.regs = applyAll data.powerOnUpdates on.regs := by
    rw [← asks]
    rfl
  have askedClks : asked.subsysClks = pd.subsysClks := by
    rw [← asks]
    exact subsysClks
  have askedSupplies : SameSupplies on asked := by
    rw [← asks]
    exact .enableClks on _
  by_cases noAck : ¬scpsysDomainIsOn data hw = true
  · rw [if_pos noAck]
    rw [if_pos (by simpa using noAck)] at rest
    obtain ⟨rfl, none, kept⟩ := errPwrAck_spec powered rest
    exact ⟨by decide, none, kept.trans askedRegs⟩
  rw [if_neg noAck]
  rw [if_neg (by simpa using noAck)] at rest
  have acked := powerOnAcked_spec powered rest
  rw [failsAcked_congr askedClks, askedRegs] at acked
  rcases @failsAcked_cases data hw pd with stage | stage | stage | stage <;>
    rw [stage] at acked ⊢
  · obtain ⟨zero, counts, same⟩ := acked
    exact ⟨zero, counts, supplies.trans (askedSupplies.trans same)⟩
  · exact acked
  · dsimp only at acked ⊢
    rw [← applyAll_append] at acked
    exact acked
  · dsimp only at acked ⊢
    rw [← applyAll_append] at acked
    exact acked

theorem scpsysPowerOff_spec (counts : Counts 1 1 1 pd)
    (switched : scpsysPowerOff data pd = some (ret, pd')) : ret = 0 ∧ Counts 0 0 0 pd' := by
  rw [scpsysPowerOff, scpsysSramDisable_eq] at switched
  simp only [ite_clearBits, ite_setBits] at switched
  obtain ⟨after, disabled, same⟩ := Option.map_eq_some_iff.mp switched
  obtain ⟨rfl, rfl⟩ := Prod.mk.inj same
  have off := (counts.withRegs (applyAll data.sramDisableUpdates pd.regs)).disableSubsysClks
  have cleared := (((off.setBits data.pwrOnOffs data.pwrClampBit).clearBits data.pwrOnOffs
    data.pwrRstBit).clearBits data.pwrOnOffs data.pwrOnBit).clearBits data.pwrOn2ndOffs
      data.pwrOn2ndBit
  exact ⟨rfl, (cleared.disableClks.disableSupply disabled).1⟩

/-! ## Runs -/

/-- A domain, and whether its last switching has been a successful `scpsys_power_on`. -/
structure Session where
  on : Bool
  pd : ScpsysDomain

inductive Call where
  | powerOn (hw : Hardware)
  | powerOff

/-- `scpsys_power_off` is called only after a successful `scpsys_power_on`. -/
def step (data : DomainData) (s : Session) : Call → Option Session
  | .powerOn hw => (scpsysPowerOn data hw s.pd).map fun (ret, pd) => ⟨s.on || ret = 0, pd⟩
  | .powerOff => if s.on then (scpsysPowerOff data s.pd).map fun (_, pd) => ⟨false, pd⟩ else none

def Session.Counted (s : Session) : Prop :=
  Counts (if s.on then 1 else 0) (if s.on then 1 else 0) (if s.on then 1 else 0) s.pd

def DomainData.controls (data : DomainData) : List (Nat × Word) :=
  [(data.pwrOnOffs, data.pwrOnBit), (data.pwrOn2ndOffs, data.pwrOn2ndBit),
    (data.pwrOnOffs, data.pwrRstBit), (data.pwrOnOffs, data.pwrClampBit),
    (data.sramCtrlOffs, data.sramPdnBit), (data.sram2ndCtrlOffs, data.sram2ndPdnBit)]

/-- The control bits of `regs` are as in `before`. -/
def DomainData.SameControls (data : DomainData) (regs before : Nat → Word) : Prop :=
  ∀ control ∈ data.controls, regs control.1 &&& control.2 = before control.1 &&& control.2

/-- A call is all or nothing: it leaves the counts right, and the control bits as they were when it
fails to switch the domain on. -/
def AllOrNothing (data : DomainData) (s : Session) (call : Call) : Prop :=
  (∀ s', step data s call = some s' → s'.Counted) ∧
    ∀ hw, call = .powerOn hw → ∀ ret pd, scpsysPowerOn data hw s.pd = some (ret, pd) → ret ≠ 0 →
      data.SameControls pd.regs s.pd.regs

def Alternates (s : Session) : Call → Prop
  | .powerOn _ => s.on = false
  | .powerOff => True

instance decidableAlternates (s : Session) : (call : Call) → Decidable (Alternates s call)
  | .powerOn _ => inferInstanceAs (Decidable (s.on = false))
  | .powerOff => isTrue trivial

/-- The control bits hold before the call what is written to them last when the step fails, and it
is not the enabling of a clock that fails. -/
def Clean (data : DomainData) (s : Session) : Call → Prop
  | .powerOn hw =>
    match failsAt data hw s.pd with
    | none => True
    | some .clks | some .subsysClks => False
    | some stage => ∀ control ∈ data.controls,
        Settled (data.updates stage) s.pd.regs control.1 control.2
  | .powerOff => True

/-! ### Every call returns -/

theorem regulatorEnable_isSome (works : supplyFails data hw pd = false) :
    ∃ on, scpsysRegulatorEnable data hw pd = some (0, on) ∧ on.supply ≠ .error := by
  rw [supplyFails] at works
  rw [scpsysRegulatorEnable]
  generalize scpsysRegulatorGet data hw pd.supply = gets at works ⊢
  obtain ⟨get, supply⟩ := gets
  cases supply with
  | none =>
    have zero : get = 0 := by simpa using works
    subst zero
    exact ⟨_, rfl, nofun⟩
  | error => exact nomatch works
  | regulator count =>
    have zero : get = 0 ∧ hw.regulatorErr = 0 := by simpa using works
    obtain ⟨rfl, working⟩ := zero
    dsimp only
    rw [if_neg (by decide), if_pos working]
    exact ⟨_, rfl, nofun⟩

theorem errPwrAck_isSome (held : pd.supply ≠ .error) : ∃ pd', errPwrAck ret pd = some (ret, pd') := by
  rw [errPwrAck, scpsysRegulatorDisable]
  have same : (clkBulkDisableUnprepare pd).supply = pd.supply := rfl
  rw [same]
  cases is : pd.supply with
  | none => exact ⟨_, rfl⟩
  | error => exact absurd is held
  | regulator count => exact ⟨_, rfl⟩

theorem sramEnable_supply : (scpsysSramEnable data hw pd).2.supply = pd.supply := by
  rw [scpsysSramEnable]
  simp only [ite_clearBits]
  split
  · rfl
  · split <;> rfl

theorem powerOnAcked_isSome (held : pd.supply ≠ .error) :
    ∃ ret pd', powerOnAcked data hw pd = some (ret, pd') := by
  rw [powerOnAcked]
  simp only [ite_clearBits, ite_setBits]
  split
  · exact ⟨_, errPwrAck_isSome held⟩
  · split
    · rw [errDisableSram, scpsysSramDisable_eq]
      refine ⟨_, errPwrAck_isSome fun error => held ?_⟩
      change (scpsysSramEnable data hw _).2.supply = .error at error
      rw [sramEnable_supply] at error
      exact error
    · exact ⟨_, _, rfl⟩

theorem scpsysPowerOn_isSome (works : supplyFails data hw pd = false) :
    ∃ ret pd', scpsysPowerOn data hw pd = some (ret, pd') := by
  obtain ⟨on, supply, held⟩ := regulatorEnable_isSome works
  rw [scpsysPowerOn, supply]
  dsimp only [bind, Option.bind]
  rw [if_neg (by decide)]
  split
  · exact ⟨_, errPwrAck_isSome held⟩
  · split
    · exact ⟨_, errPwrAck_isSome held⟩
    · exact powerOnAcked_isSome held

variable {s s' : Session}

theorem Session.counted_of_off (off : s.on = false) : s.Counted ↔ Counts 0 0 0 s.pd := by
  rw [Session.Counted, off]
  rfl

theorem Session.counted_of_on (on : s.on = true) : s.Counted ↔ Counts 1 1 1 s.pd := by
  rw [Session.Counted, on]
  rfl

theorem applyAll_sameControls_iff {updates : List (Update 32)} {regs : Nat → Word} :
    data.SameControls (applyAll updates regs) regs ↔
      ∀ control ∈ data.controls, Settled updates regs control.1 control.2 :=
  forall₂_congr fun _ _ => applyAll_and_iff

theorem supplyFails_of_ne (stage : failsAt data hw pd ≠ some .supply) :
    supplyFails data hw pd = false := by
  by_contra fails
  rw [Bool.not_eq_false] at fails
  rw [failsAt, if_pos fails] at stage
  exact stage rfl

theorem allOrNothing_powerOn (off : s.on = false)
    (switched : scpsysPowerOn data hw s.pd = some (ret, pd')) :
    AllOrNothing data s (.powerOn hw) ↔
      (Session.mk (decide (ret = 0)) pd').Counted ∧
        (ret ≠ 0 → data.SameControls pd'.regs s.pd.regs) := by
  have stepped : step data s (.powerOn hw) = some ⟨decide (ret = 0), pd'⟩ := by
    rw [step, switched, off]
    rfl
  constructor
  · rintro ⟨counted, kept⟩
    exact ⟨counted _ stepped, kept hw rfl ret pd' switched⟩
  · rintro ⟨counted, kept⟩
    refine ⟨fun s' other => ?_, fun hw' same ret' pd other => ?_⟩
    · rw [stepped] at other
      obtain rfl := Option.some_inj.mp other
      exact counted
    · obtain rfl := Call.powerOn.inj same
      rw [switched] at other
      obtain ⟨rfl, rfl⟩ := Prod.mk.inj (Option.some_inj.mp other)
      exact kept

theorem not_counted_of_below {on : Bool} (low : pd.below = true) : ¬(Session.mk on pd).Counted :=
  fun counted => nomatch low.symm.trans counted.above

theorem counted_of_failed (failed : ret < 0) (counts : Counts 0 0 0 pd) :
    (Session.mk (decide (ret = 0)) pd).Counted := by
  have off : decide (ret = 0) = false := decide_eq_false (by omega)
  rw [Session.Counted, off]
  exact counts

theorem powerOn_iff (off : s.on = false) (counted : s.Counted) :
    AllOrNothing data s (.powerOn hw) ↔ Clean data s (.powerOn hw) := by
  have counts := (Session.counted_of_off off).mp counted
  have spec := fun ret pd' => @scpsysPowerOn_spec data hw s.pd pd' ret counts
  have returns := fun stage => @scpsysPowerOn_isSome data hw s.pd (supplyFails_of_ne stage)
  rw [Clean]
  cases stage : failsAt data hw s.pd with
  | none =>
    obtain ⟨ret, pd', switched⟩ := returns (by rw [stage]; nofun)
    have on := spec ret pd' switched
    rw [stage] at on
    obtain ⟨rfl, on, _⟩ := on
    rw [allOrNothing_powerOn off switched]
    exact iff_of_true ⟨on, fun failed => absurd rfl failed⟩ trivial
  | some stage' =>
    by_cases supply : stage' = .supply
    · subst supply
      refine iff_of_true ⟨fun s' stepped => ?_, fun hw' same ret pd' switched failed => ?_⟩
        fun control _ i value _ last => nomatch last
      · rw [step] at stepped
        obtain ⟨⟨ret, pd'⟩, switched, rfl⟩ := Option.map_eq_some_iff.mp stepped
        have failed := spec ret pd' switched
        rw [stage] at failed
        rw [off]
        exact counted_of_failed failed.1 failed.2.1
      · obtain rfl := Call.powerOn.inj same
        have failed := spec ret pd' switched
        rw [stage] at failed
        intro control _
        rw [failed.2.2]
        rfl
    · obtain ⟨ret, pd', switched⟩ := returns (by rw [stage]; simpa using supply)
      have failed := spec ret pd' switched
      rw [stage] at failed
      rw [allOrNothing_powerOn off switched]
      have below (failed : ret < 0 ∧ pd'.below = true) :
          ((Session.mk (decide (ret = 0)) pd').Counted ∧
            (ret ≠ 0 → data.SameControls pd'.regs s.pd.regs)) ↔ False :=
        iff_of_false (fun claim => not_counted_of_below failed.2 claim.1) id
      have settled (failed : ret < 0 ∧ Counts 0 0 0 pd' ∧
            pd'.regs = applyAll (data.updates stage') s.pd.regs) :
          ((Session.mk (decide (ret = 0)) pd').Counted ∧
            (ret ≠ 0 → data.SameControls pd'.regs s.pd.regs)) ↔
              ∀ control ∈ data.controls,
                Settled (data.updates stage') s.pd.regs control.1 control.2 := by
        obtain ⟨negative, none, regs⟩ := failed
        rw [← applyAll_sameControls_iff, ← regs]
        exact ⟨fun claim => claim.2 (by omega),
          fun same => ⟨counted_of_failed negative none, fun _ => same⟩⟩
      cases stage' with
      | supply => exact absurd rfl supply
      | clks => exact below failed
      | subsysClks => exact below failed
      | powerAck => exact settled failed
      | sram => exact settled failed
      | sram2nd => exact settled failed

theorem allOrNothing_iff (call : Call) (counted : s.Counted) (alternates : Alternates s call) :
    AllOrNothing data s call ↔ Clean data s call := by
  cases call with
  | powerOn hw => exact powerOn_iff alternates counted
  | powerOff =>
    refine iff_of_true ⟨fun s' stepped => ?_, fun hw same => nomatch same⟩ trivial
    rw [step] at stepped
    split at stepped
    · next on =>
        obtain ⟨⟨ret, pd'⟩, switched, rfl⟩ := Option.map_eq_some_iff.mp stepped
        exact (scpsysPowerOff_spec ((Session.counted_of_on on).mp counted) switched).2
    · exact nomatch stepped

def Session.fresh (clks subsysClks : Nat) (regs : Nat → Word) : Session :=
  ⟨false, .allocated clks subsysClks regs⟩

theorem allocated_counts (clks subsysClks : Nat) (regs : Nat → Word) :
    Counts 0 0 0 (.allocated clks subsysClks regs) :=
  ⟨nofun, fun _ mem => List.eq_of_mem_replicate mem, fun _ mem => List.eq_of_mem_replicate mem,
    rfl⟩

theorem run_iff (clks subsysClks : Nat) (regs : Nat → Word) {calls : List Call}
    (alternates : AllAllowed Alternates (step data) calls (.fresh clks subsysClks regs)) :
    AllAllowed (AllOrNothing data) (step data) calls (.fresh clks subsysClks regs) ↔
      AllAllowed (Clean data) (step data) calls (.fresh clks subsysClks regs) := by
  have same (s : Session) (call : Call) (counted : s.Counted) (first : Alternates s call) :
      AllOrNothing data s call ↔ Clean data s call := allOrNothing_iff call counted first
  have kept (s : Session) (call : Call) (s' : Session) (_ : s.Counted) (_ : Alternates s call)
      (claim : AllOrNothing data s call) (stepped : step data s call = some s') : s'.Counted :=
    claim.1 s' stepped
  have start : (Session.fresh clks subsysClks regs).Counted :=
    (Session.counted_of_off rfl).mpr (allocated_counts clks subsysClks regs)
  exact allAllowed_congr same kept start alternates

/-! ## Adding a domain -/

/-- `scpsys_add_one_domain` gets as far as switching the domain on. -/
structure SwitchesOn (domainsData : List DomainData) (node : Node) (id : Nat)
    (data : DomainData) : Prop where
  reg : node.reg = some id
  known : domainsData[id]? = some data
  defined : data.staMask ≠ 0
  allocated : node.pdAllocated = true ∧
    ¬(node.clkParents > 0 ∧ ¬(node.clksAllocated ∧ node.subsysClksAllocated))
  gets : node.getClks 0 node.numClks = 0 ∧ node.getClks node.numClks node.numSubsysClks = 0
  wanted : data.cap MTK_SCPD_KEEP_DEFAULT_OFF = false

def Supplied (data : DomainData) (hw : Hardware) (node : Node) : Prop :=
  node.numClks ≠ 0 ∨ node.numSubsysClks ≠ 0 ∨
    ∃ n, (scpsysRegulatorGet data hw .none).2 = .regulator n

/-- The domain is not switched on at once, or enabling a clock is not what fails and a domain that
is switched on is not registered already. -/
def AddsCleanly (domainsData : List DomainData) (registered : Nat → Bool) (node : Node)
    (hw : Hardware) (regs : Nat → Word) : Prop :=
  ∀ id data, SwitchesOn domainsData node id data →
    match failsAt data hw (.allocated node.numClks node.numSubsysClks regs) with
    | none => Supplied data hw node → registered id = false
    | some .clks | some .subsysClks => False
    | some _ => True

theorem not_counts_one_zero {kind : ScpsysDomain} (same : SameSupplies kind pd)
    (supplied : kind.clks ≠ [] ∨ kind.subsysClks ≠ [] ∨ ∃ n, kind.supply = .regulator n)
    (one : Counts 1 1 1 pd) : ¬Counts 0 0 0 pd := by
  intro zero
  rcases supplied with clks | subsysClks | supply
  · rw [Ne, same.clks_iff] at clks
    obtain ⟨count, counts, is⟩ := List.exists_cons_of_ne_nil clks
    have mem : count ∈ pd.clks := by
      rw [is]
      exact List.mem_cons_self
    have both := (one.clks_eq count mem).symm.trans (zero.clks_eq count mem)
    exact absurd both (by decide)
  · rw [Ne, same.subsysClks_iff] at subsysClks
    obtain ⟨count, counts, is⟩ := List.exists_cons_of_ne_nil subsysClks
    have mem : count ∈ pd.subsysClks := by
      rw [is]
      exact List.mem_cons_self
    have both := (one.subsysClks_eq count mem).symm.trans (zero.subsysClks_eq count mem)
    exact absurd both (by decide)
  · obtain ⟨n, is⟩ := same.supply_iff.mp supply
    have both := (one.supply_eq n is).symm.trans (zero.supply_eq n is)
    exact absurd both (by decide)

theorem counts_zero_of_unsupplied {kind : ScpsysDomain} (same : SameSupplies kind pd)
    (clks : kind.clks = []) (subsysClks : kind.subsysClks = [])
    (supply : ¬∃ n, kind.supply = .regulator n) (one : Counts 1 1 1 pd) : Counts 0 0 0 pd := by
  rw [same.clks_iff] at clks
  rw [same.subsysClks_iff] at subsysClks
  rw [same.supply_iff] at supply
  refine ⟨fun n is => absurd ⟨n, is⟩ supply, fun count mem => ?_, fun count mem => ?_, one.above⟩
  · rw [clks] at mem
    exact nomatch mem
  · rw [subsysClks] at mem
    exact nomatch mem

variable {domainsData : List DomainData} {registered : Nat → Bool} {node : Node}
  {regs : Nat → Word} {result : Added}

theorem added_or_switchesOn
    (added : scpsysAddOneDomain domainsData registered node hw regs = some result)
    (failed : result.ret < 0) :
    (∀ pd, result.pd = some pd → pd = .allocated node.numClks node.numSubsysClks regs) ∧
        (∀ id data, ¬SwitchesOn domainsData node id data) ∨
      (∃ id data, SwitchesOn domainsData node id data ∧
        ∃ ret pd, scpsysPowerOn data hw (.allocated node.numClks node.numSubsysClks regs) =
            some (ret, pd) ∧ result.pd = some pd ∧ (ret < 0 ∨ registered id = true)) := by
  rw [scpsysAddOneDomain] at added
  cases reg : node.reg with
  | none =>
    rw [reg] at added
    obtain rfl := Option.some_inj.mp added
    exact .inl ⟨nofun, fun _ _ on => nomatch reg.symm.trans on.reg⟩
  | some id =>
  rw [reg] at added
  dsimp only at added
  have only {id' : Nat} (on : node.reg = some id') : id' = id :=
    Option.some_inj.mp (on.symm.trans reg)
  cases known : domainsData[id]? with
  | none =>
    rw [known] at added
    obtain rfl := Option.some_inj.mp added
    refine .inl ⟨nofun, fun id' data on => ?_⟩
    obtain rfl := only on.reg
    exact nomatch known.symm.trans on.known
  | some data =>
  rw [known] at added
  dsimp only at added
  have early {why : Prop} (pd : Option ScpsysDomain) (isPd : result.pd = pd)
      (fresh : pd = none ∨ pd = some (.allocated node.numClks node.numSubsysClks regs))
      (stops : SwitchesOn domainsData node id data → False) :
      (∀ pd, result.pd = some pd → pd = .allocated node.numClks node.numSubsysClks regs) ∧
          (∀ id data, ¬SwitchesOn domainsData node id data) ∨ why := by
    refine .inl ⟨fun pd' is => ?_, fun id' data' on => ?_⟩
    · rcases fresh with rfl | rfl
      · exact nomatch isPd.symm.trans is
      · exact (Option.some_inj.mp (isPd.symm.trans is)).symm
    · obtain rfl := only on.reg
      obtain rfl := Option.some_inj.mp (on.known.symm.trans known)
      exact stops on
  by_cases undefined : data.staMask = 0
  · rw [if_pos undefined] at added
    obtain rfl := Option.some_inj.mp added
    exact early none rfl (.inl rfl) fun on => on.defined undefined
  rw [if_neg undefined] at added
  by_cases noPd : (!node.pdAllocated) = true
  · rw [if_pos noPd] at added
    obtain rfl := Option.some_inj.mp added
    refine early none rfl (.inl rfl) fun on => ?_
    rw [on.allocated.1] at noPd
    exact nomatch noPd
  rw [if_neg noPd] at added
  by_cases noClks : node.clkParents > 0 ∧ ¬(node.clksAllocated ∧ node.subsysClksAllocated)
  · rw [if_pos noClks] at added
    obtain rfl := Option.some_inj.mp added
    exact early _ rfl (.inr rfl) fun on => on.allocated.2 noClks
  rw [if_neg noClks] at added
  by_cases noGet : node.getClks 0 node.numClks ≠ 0
  · rw [if_pos noGet] at added
    obtain rfl := Option.some_inj.mp added
    exact early _ rfl (.inr rfl) fun on => noGet on.gets.1
  rw [if_neg noGet] at added
  by_cases noSubsysGet : node.getClks node.numClks node.numSubsysClks ≠ 0
  · rw [if_pos noSubsysGet] at added
    obtain rfl := Option.some_inj.mp added
    exact early _ rfl (.inr rfl) fun on => noSubsysGet on.gets.2
  rw [if_neg noSubsysGet] at added
  by_cases keep : data.cap MTK_SCPD_KEEP_DEFAULT_OFF = true
  · rw [if_pos keep] at added
    have isPd : result.pd = some (.allocated node.numClks node.numSubsysClks regs) := by
      dsimp only [bind, Option.bind] at added
      rw [if_neg (by decide)] at added
      split at added
      · obtain rfl := Option.some_inj.mp added
        rfl
      · obtain rfl := Option.some_inj.mp added
        rfl
    exact early _ isPd (.inr rfl) fun on => nomatch keep.symm.trans on.wanted
  rw [if_neg keep] at added
  obtain ⟨⟨ret, pd⟩, switched, rest⟩ := Option.bind_eq_some_iff.mp added
  dsimp only at rest
  refine .inr ⟨id, data, ⟨reg, known, undefined, ⟨?_, noClks⟩, ⟨?_, ?_⟩, ?_⟩, ret, pd, switched, ?_⟩
  · simpa using noPd
  · simpa using noGet
  · simpa using noSubsysGet
  · simpa using keep
  · split at rest
    · next negative =>
        obtain rfl := Option.some_inj.mp rest
        exact ⟨rfl, .inl negative⟩
    · split at rest
      · next there =>
          obtain rfl := Option.some_inj.mp rest
          exact ⟨rfl, .inr there⟩
      · obtain rfl := Option.some_inj.mp rest
        exact absurd failed (lt_irrefl 0)

theorem add_iff (added : scpsysAddOneDomain domainsData registered node hw regs = some result)
    (failed : result.ret < 0) :
    (∀ pd, result.pd = some pd → Counts 0 0 0 pd) ↔
      AddsCleanly domainsData registered node hw regs := by
  have start := allocated_counts node.numClks node.numSubsysClks regs
  rcases added_or_switchesOn added failed with ⟨fresh, never⟩ | ⟨id, data, on, ret, pd, run⟩
  · refine iff_of_true (fun pd is => ?_) fun id data on => absurd on (never id data)
    rw [fresh pd is]
    exact start
  obtain ⟨switched, isPd, stopped⟩ := run
  have spec := scpsysPowerOn_spec start switched
  have counts : (∀ pd', result.pd = some pd' → Counts 0 0 0 pd') ↔ Counts 0 0 0 pd := by
    rw [isPd]
    exact ⟨fun all => all pd rfl, fun zero pd' is => Option.some_inj.mp is ▸ zero⟩
  have clean : AddsCleanly domainsData registered node hw regs ↔
      match failsAt data hw (.allocated node.numClks node.numSubsysClks regs) with
      | none => Supplied data hw node → registered id = false
      | some .clks | some .subsysClks => False
      | some _ => True := by
    refine ⟨fun all => all id data on, fun one id' data' on' => ?_⟩
    obtain rfl := Option.some_inj.mp (on'.reg.symm.trans on.reg)
    obtain rfl := Option.some_inj.mp (on'.known.symm.trans on.known)
    exact one
  rw [counts, clean]
  generalize failsAt data hw (.allocated node.numClks node.numSubsysClks regs) = stage at spec ⊢
  have low (below : pd.below = true) : ¬Counts 0 0 0 pd :=
    fun zero => nomatch below.symm.trans zero.above
  rcases stage with _ | stage
  · obtain ⟨rfl, one, same⟩ := spec
    have there : registered id = true := stopped.resolve_left (by decide)
    dsimp only
    rw [there]
    by_cases supplied : Supplied data hw node
    · refine iff_of_false (not_counts_one_zero same ?_ one) fun ok => nomatch ok supplied
      rcases supplied with clks | subsysClks | supply
      · exact .inl (by simpa [ScpsysDomain.allocated] using clks)
      · exact .inr (.inl (by simpa [ScpsysDomain.allocated] using subsysClks))
      · exact .inr (.inr supply)
    · rw [Supplied, not_or, not_or, not_not, not_not] at supplied
      obtain ⟨clks, subsysClks, supply⟩ := supplied
      refine iff_of_true (counts_zero_of_unsupplied same ?_ ?_ supply one) fun given => ?_
      · simpa [ScpsysDomain.allocated] using clks
      · simpa [ScpsysDomain.allocated] using subsysClks
      · rcases given with given | given | given
        · exact absurd clks given
        · exact absurd subsysClks given
        · exact absurd given supply
  cases stage with
  | clks => exact iff_of_false (low spec.2) not_false
  | subsysClks => exact iff_of_false (low spec.2) not_false
  | supply => exact iff_of_true spec.2.1 trivial
  | powerAck => exact iff_of_true spec.2.1 trivial
  | sram => exact iff_of_true spec.2.1 trivial
  | sram2nd => exact iff_of_true spec.2.1 trivial

/-! ## All or nothing -/

/-- Every call of a run is all or nothing just when every call is clean: no clock fails to be
enabled, and where the power acknowledge or an SRAM acknowledge fails, the control bits hold
already what is written to them last.  The same goes for adding a domain, whose call to
`scpsys_power_on` is the first one of its run. -/
theorem switching_iff (data : DomainData) (clks subsysClks : Nat) (regs : Nat → Word)
    (calls : List Call)
    (alternates : AllAllowed Alternates (step data) calls (.fresh clks subsysClks regs)) :
    (AllAllowed (AllOrNothing data) (step data) calls (.fresh clks subsysClks regs) ↔
        AllAllowed (Clean data) (step data) calls (.fresh clks subsysClks regs)) ∧
      ∀ domainsData registered node hw regs result,
        scpsysAddOneDomain domainsData registered node hw regs = some result → result.ret < 0 →
          ((∀ pd, result.pd = some pd → Counts 0 0 0 pd) ↔
            AddsCleanly domainsData registered node hw regs) :=
  ⟨run_iff clks subsysClks regs alternates, fun _ _ _ _ _ _ added failed => add_iff added failed⟩

def tops0 : DomainData where
  staMask := 0x40000000
  sta2ndMask := 0x80000000
  pwrStaOffs := 0x40
  pwrSta2ndOffs := 0x40
  pwrOnBit := 2
  pwrOn2ndBit := 4
  pwrOnOffs := 0x40
  pwrOn2ndOffs := 0x40
  pwrClampBit := 0x10
  pwrRstBit := 1
  sramPdnBit := 4
  sramPdnAckBit := 0x10000000
  sramClkIsoBit := 1
  sramCtrlOffs := 0x48
  sram2ndPdnBit := 0x100
  sram2ndPdnAckBit := 0x1000000
  sram2ndClkIsoBit := 0x20
  sram2ndClkDisBit := 8
  sram2ndCtrlOffs := 0x40
  caps := MTK_SCPD_KEEP_DEFAULT_OFF

def answering : Hardware where
  status := fun _ => 0x40000000
  status2nd := fun _ => 0x80000000
  sramCtrl := fun _ => 0
  sram2ndCtrl := fun _ => 0

def oneClock : Node where
  reg := some 0
  clkParents := 1
  clockNames := [['a']]

theorem switching_iff_tops0 :
    (AllAllowed (AllOrNothing tops0) (step tops0) [.powerOn answering, .powerOff]
          (.fresh 1 1 fun _ => 0) ↔
        AllAllowed (Clean tops0) (step tops0) [.powerOn answering, .powerOff]
          (.fresh 1 1 fun _ => 0)) ∧
      ((∀ pd, some (ScpsysDomain.allocated 1 0 fun _ => 0) = some pd → Counts 0 0 0 pd) ↔
        AddsCleanly [tops0] (fun _ => true) oneClock answering fun _ => 0) :=
  have both := switching_iff tops0 1 1 (fun _ => 0) [.powerOn answering, .powerOff] (by decide)
  ⟨both.1, both.2 [tops0] (fun _ => true) oneClock answering (fun _ => 0)
    ⟨-EINVAL, some (.allocated 1 0 fun _ => 0)⟩ rfl (by decide)⟩

/-- A clock that cannot be enabled is disabled all the same; a domain that does not acknowledge its
power keeps its power-on bits set; a domain that is registered already is left switched on. -/
theorem switching_not_all_or_nothing :
    ¬AllAllowed (AllOrNothing tops0) (step tops0) [.powerOn { answering with clkErr := 5 }]
        (.fresh 1 0 fun _ => 0) ∧
      ¬AllAllowed (AllOrNothing tops0) (step tops0)
        [.powerOn { answering with status := fun _ => 0 }] (.fresh 1 0 fun _ => 0) ∧
      ∃ result, scpsysAddOneDomain [{ tops0 with caps := 0 }] (fun _ => true) oneClock answering
          (fun _ => 0) = some result ∧ result.ret < 0 ∧
        ∃ pd, result.pd = some pd ∧ pd.clks = [1] := by
  refine ⟨fun all => ?_, fun all => ?_, _, rfl, by decide, _, rfl, rfl⟩
  · have above := (all.1.1 _ rfl).above
    exact nomatch above
  · have kept := all.1.2 _ rfl _ _ rfl (by decide) (0x40, 2) List.mem_cons_self
    exact absurd kept (by decide)

end MetaFilogic.PmDomain
