import MetaFilogic.Library.RegisterFile
import MetaFilogic.Library.Steps

/-!
# Power domains

A power domain is switched on in six steps that can fail: its supply, its clocks, the power
acknowledge, its subsystem clocks and two SRAM acknowledges.  A chain of labels undoes them.  The
enable counts are those that the domain itself holds of its supply and its clocks.
-/

namespace MetaFilogic.PmDomain

open Registers

abbrev Word := BitVec 32

def EINVAL : Int := 22

def ENOMEM : Int := 12

def ETIMEDOUT : Int := 110

def MTK_SCPD_KEEP_DEFAULT_OFF : BitVec 8 := 8

def MTK_SCPD_DOMAIN_SUPPLY : BitVec 8 := 16

structure DomainData where
  staMask : Word := 0
  sta2ndMask : Word := 0
  pwrStaOffs : Nat := 0
  pwrSta2ndOffs : Nat := 0
  pwrOnBit : Word := 0
  pwrOn2ndBit : Word := 0
  pwrOnOffs : Nat := 0
  pwrOn2ndOffs : Nat := 0
  pwrClampBit : Word := 0
  pwrRstBit : Word := 0
  sramPdnBit : Word := 0
  sramPdnAckBit : Word := 0
  sramClkIsoBit : Word := 0
  sramClkDisBit : Word := 0
  sramCtrlOffs : Nat := 0
  sram2ndPdnBit : Word := 0
  sram2ndPdnAckBit : Word := 0
  sram2ndClkIsoBit : Word := 0
  sram2ndClkDisBit : Word := 0
  sram2ndCtrlOffs : Nat := 0
  caps : BitVec 8 := 0

def DomainData.cap (data : DomainData) (flag : BitVec 8) : Bool := data.caps &&& flag != 0

/-- `pd->supply`: `NULL`, an error pointer or a regulator with what the domain has enabled. -/
inductive Supply where
  | none
  | error
  | regulator (enabled : Int)
  deriving DecidableEq

/-- The fields of `struct scpsys_domain` with the enable counts and the registers; `below` says
that a count has been decremented to less than zero. -/
structure ScpsysDomain where
  supply : Supply
  clks : List Int
  subsysClks : List Int
  regs : Nat → Word
  below : Bool

/-- What `of_find_node_by_name` and `devm_regulator_get` give. -/
inductive Lookup where
  | noNode
  | regulator
  | error
  deriving DecidableEq

/-- What one call finds outside of the driver: error numbers, where 0 is success, and the
registers as the last look of each poll reads them. -/
structure Hardware where
  lookup : Lookup := .noNode
  regulatorErr : Nat := 0
  clkErr : Nat := 0
  status : Nat → Word
  status2nd : Nat → Word
  subsysErr : Nat := 0
  sramCtrl : Nat → Word
  sram2ndCtrl : Nat → Word

/-! ## Registers and clocks -/

namespace ScpsysDomain

variable (pd : ScpsysDomain)

def setBits (reg : Nat) (bits : Word) : ScpsysDomain :=
  { pd with regs := (Update.set reg bits).apply pd.regs }

def clearBits (reg : Nat) (bits : Word) : ScpsysDomain :=
  { pd with regs := (Update.clear reg bits).apply pd.regs }

end ScpsysDomain

def clkBulkPrepareEnable (err : Nat) (clks : List Int) : Int × List Int :=
  if clks = [] ∨ err = 0 then (0, clks.map (· + 1)) else (-err, clks)

def clkBulkDisableUnprepare (pd : ScpsysDomain) : ScpsysDomain :=
  { pd with clks := pd.clks.map (· - 1), below := pd.below || pd.clks.any (· ≤ 0) }

def clkBulkDisableUnprepareSubsys (pd : ScpsysDomain) : ScpsysDomain :=
  { pd with
    subsysClks := pd.subsysClks.map (· - 1)
    below := pd.below || pd.subsysClks.any (· ≤ 0) }

variable (data : DomainData) (hw : Hardware)

def scpsysDomainIsOn : Bool :=
  hw.status data.pwrStaOffs &&& data.staMask != 0 &&
    hw.status2nd data.pwrSta2ndOffs &&& data.sta2ndMask != 0

def scpsysSramEnable (pd : ScpsysDomain) : Int × ScpsysDomain :=
  let first := pd.clearBits data.sramCtrlOffs data.sramPdnBit
  if data.sramPdnBit ≠ 0 ∧ hw.sramCtrl data.sramCtrlOffs &&& data.sramPdnAckBit ≠ 0 then
    (-ETIMEDOUT, first)
  else
    let pd := if data.sramPdnBit ≠ 0 then first else pd
    let second := pd.clearBits data.sram2ndCtrlOffs data.sram2ndPdnBit
    if data.sram2ndPdnBit ≠ 0 ∧
        hw.sram2ndCtrl data.sram2ndCtrlOffs &&& data.sram2ndPdnAckBit ≠ 0 then
      (-ETIMEDOUT, second)
    else
      let pd := if data.sram2ndPdnBit ≠ 0 then second else pd
      let pd := if data.sramClkIsoBit ≠ 0 then
        pd.clearBits data.sramCtrlOffs data.sramClkIsoBit else pd
      let pd := if data.sramClkDisBit ≠ 0 then
        pd.clearBits data.sramCtrlOffs data.sramClkDisBit else pd
      let pd := if data.sram2ndClkIsoBit ≠ 0 then
        pd.clearBits data.sram2ndCtrlOffs data.sram2ndClkIsoBit else pd
      let pd := if data.sram2ndClkDisBit ≠ 0 then
        pd.clearBits data.sram2ndCtrlOffs data.sram2ndClkDisBit else pd
      (0, pd)

def scpsysSramDisable (pd : ScpsysDomain) : ScpsysDomain :=
  let pd := if data.sram2ndClkDisBit ≠ 0 then
    pd.setBits data.sram2ndCtrlOffs data.sram2ndClkDisBit else pd
  let pd := if data.sramClkIsoBit ≠ 0 then
    pd.setBits data.sramCtrlOffs data.sramClkIsoBit else pd
  let pd := if data.sramPdnBit ≠ 0 then pd.setBits data.sramCtrlOffs data.sramPdnBit else pd
  let pd := if data.sram2ndClkIsoBit ≠ 0 then
    pd.setBits data.sram2ndCtrlOffs data.sram2ndClkIsoBit else pd
  if data.sram2ndPdnBit ≠ 0 then pd.setBits data.sram2ndCtrlOffs data.sram2ndPdnBit else pd

/-! ## Supply -/

def scpsysRegulatorGet (supply : Supply) : Int × Supply :=
  if data.cap MTK_SCPD_DOMAIN_SUPPLY = true ∧ supply = .none then
    match hw.lookup with
    | .noNode => (0, .none)
    | .regulator => (0, .regulator 0)
    | .error => (-EINVAL, .error)
  else (0, supply)

def scpsysRegulatorEnable (pd : ScpsysDomain) : Option (Int × ScpsysDomain) :=
  let (ret, supply) := scpsysRegulatorGet data hw pd.supply
  let pd := { pd with supply }
  if ret ≠ 0 then some (ret, pd)
  else
    match supply with
    | .none => some (0, pd)
    | .error => none
    | .regulator enabled =>
      if hw.regulatorErr = 0 then some (0, { pd with supply := .regulator (enabled + 1) })
      else some (-hw.regulatorErr, pd)

def scpsysRegulatorDisable (pd : ScpsysDomain) : Option ScpsysDomain :=
  match pd.supply with
  | .none => some pd
  | .error => none
  | .regulator enabled =>
    some { pd with supply := .regulator (enabled - 1), below := pd.below || enabled ≤ 0 }

/-! ## Switching -/

/-- From the label `err_pwr_ack` of `scpsys_power_on`. -/
def errPwrAck (ret : Int) (pd : ScpsysDomain) : Option (Int × ScpsysDomain) :=
  (scpsysRegulatorDisable (clkBulkDisableUnprepare pd)).map fun pd => (ret, pd)

def errDisableSubsysClks (ret : Int) (pd : ScpsysDomain) : Option (Int × ScpsysDomain) :=
  errPwrAck ret (clkBulkDisableUnprepareSubsys pd)

def errDisableSram (ret : Int) (pd : ScpsysDomain) : Option (Int × ScpsysDomain) :=
  errDisableSubsysClks ret (scpsysSramDisable data pd)

/-- The rest of `scpsys_power_on` when the power acknowledge has come. -/
def powerOnAcked (pd : ScpsysDomain) : Option (Int × ScpsysDomain) :=
  let pd := if data.pwrClampBit ≠ 0 then pd.clearBits data.pwrOnOffs data.pwrClampBit else pd
  let pd := if data.pwrRstBit ≠ 0 then pd.setBits data.pwrOnOffs data.pwrRstBit else pd
  let (ret, subsysClks) := clkBulkPrepareEnable hw.subsysErr pd.subsysClks
  let pd := { pd with subsysClks }
  if ret ≠ 0 then errDisableSubsysClks ret pd
  else
    let (ret, pd) := scpsysSramEnable data hw pd
    if ret < 0 then errDisableSram data ret pd else some (0, pd)

def scpsysPowerOn (pd : ScpsysDomain) : Option (Int × ScpsysDomain) := do
  let (ret, pd) ← scpsysRegulatorEnable data hw pd
  if ret ≠ 0 then return (ret, pd)
  let (ret, clks) := clkBulkPrepareEnable hw.clkErr pd.clks
  let pd := { pd with clks }
  if ret ≠ 0 then errPwrAck ret pd
  else
    let pd := pd.setBits data.pwrOnOffs data.pwrOnBit
    let pd := pd.setBits data.pwrOn2ndOffs data.pwrOn2ndBit
    if !scpsysDomainIsOn data hw then errPwrAck (-ETIMEDOUT) pd else powerOnAcked data hw pd

def scpsysPowerOff (pd : ScpsysDomain) : Option (Int × ScpsysDomain) :=
  let pd := scpsysSramDisable data pd
  let pd := clkBulkDisableUnprepareSubsys pd
  let pd := if data.pwrClampBit ≠ 0 then pd.setBits data.pwrOnOffs data.pwrClampBit else pd
  let pd := if data.pwrRstBit ≠ 0 then pd.clearBits data.pwrOnOffs data.pwrRstBit else pd
  let pd := pd.clearBits data.pwrOnOffs data.pwrOnBit
  let pd := pd.clearBits data.pwrOn2ndOffs data.pwrOn2ndBit
  (scpsysRegulatorDisable (clkBulkDisableUnprepare pd)).map fun pd => (0, pd)

/-! ## Adding a domain -/

/-- What `scpsys_add_one_domain` finds of a node: its properties, which allocations fail, and the
error numbers of `of_clk_get`. -/
structure Node where
  reg : Option Nat
  clkParents : Nat
  clockNames : List (List Char)
  pdAllocated : Bool := true
  clksAllocated : Bool := true
  subsysClksAllocated : Bool := true
  clkGetErr : Nat → Nat := fun _ => 0

namespace Node

variable (node : Node)

def numSubsysClks : Nat :=
  if node.clkParents > 0 then node.clockNames.countP (·.contains '-') else 0

def numClks : Nat :=
  if node.clkParents > 0 then node.clockNames.countP (!·.contains '-') else 0

/-- The error number of the first `of_clk_get` that fails among `count` from the index `first`. -/
def getClks (first : Nat) : Nat → Nat
  | 0 => 0
  | count + 1 =>
    if node.clkGetErr first ≠ 0 then node.clkGetErr first else getClks (first + 1) count

end Node

/-- `devm_kzalloc`, with clocks of which none is enabled. -/
def ScpsysDomain.allocated (clks subsysClks : Nat) (regs : Nat → Word) : ScpsysDomain where
  supply := .none
  clks := .replicate clks 0
  subsysClks := .replicate subsysClks 0
  regs := regs
  below := false

/-- What `scpsys_add_one_domain` returns, and the domain that it has allocated. -/
structure Added where
  ret : Int
  pd : Option ScpsysDomain := none

/-- `domainsData` is `soc_data`, `registered` says which of `scpsys->domains` are there. -/
def scpsysAddOneDomain (domainsData : List DomainData) (registered : Nat → Bool) (node : Node)
    (hw : Hardware) (regs : Nat → Word) : Option Added :=
  match node.reg with
  | none => some { ret := -EINVAL }
  | some id =>
    match domainsData[id]? with
    | none => some { ret := -EINVAL }
    | some data =>
      if data.staMask = 0 then some { ret := -EINVAL }
      else if !node.pdAllocated then some { ret := -ENOMEM }
      else
        let pd := ScpsysDomain.allocated node.numClks node.numSubsysClks regs
        if node.clkParents > 0 ∧ ¬(node.clksAllocated ∧ node.subsysClksAllocated) then
          some { ret := -ENOMEM, pd }
        else if node.getClks 0 node.numClks ≠ 0 then
          some { ret := -node.getClks 0 node.numClks, pd }
        else if node.getClks node.numClks node.numSubsysClks ≠ 0 then
          some { ret := -node.getClks node.numClks node.numSubsysClks, pd }
        else do
          let (ret, pd) ← if data.cap MTK_SCPD_KEEP_DEFAULT_OFF then some (0, pd)
            else scpsysPowerOn data hw pd
          if ret < 0 then return { ret, pd }
          else if registered id then return { ret := -EINVAL, pd }
          else return { ret := 0, pd }

end MetaFilogic.PmDomain
