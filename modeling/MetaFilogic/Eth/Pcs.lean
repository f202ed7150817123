import MetaFilogic.Library.Registers

/-!
# The SGMII and USXGMII PCS

phylink configures a PCS for an interface.  The PCS remembers with what, and its link poll
configures it again with that as long as there is no link.
-/

namespace MetaFilogic.Eth

open Registers

/-! ## phylink -/

/-- `phy_interface_t`, as far as the PCS drivers tell its values apart. -/
inductive PhyInterface where
  | na
  | sgmii
  | qsgmii
  | basex1000
  | basex2500
  | usxgmii
  | kr10g
  | baser5g
  | other
  deriving DecidableEq

def MLO_AN_PHY : Nat := 0

def MLO_AN_INBAND : Nat := 2

def UINT_MAX : Nat := 0xffffffff

abbrev LinkModes := Nat → Bool

def ETHTOOL_LINK_MODE_Autoneg_BIT : Nat := 6

def ETHTOOL_LINK_MODE_Pause_BIT : Nat := 13

def ETHTOOL_LINK_MODE_Asym_Pause_BIT : Nat := 14

structure PcsConfig where
  mode : Nat
  interface : PhyInterface
  advertising : LinkModes

def phylinkMiiC22PcsEncodeAdvertisement (interface : PhyInterface) (advertising : LinkModes) :
    Option (BitVec 32) :=
  let basex : BitVec 32 :=
    0x20 ||| (if advertising ETHTOOL_LINK_MODE_Pause_BIT then 0x80 else 0) |||
      (if advertising ETHTOOL_LINK_MODE_Asym_Pause_BIT then 0x100 else 0)
  match interface with
  | .basex1000 => some basex
  | .basex2500 => some basex
  | .sgmii => some 1
  | .qsgmii => some 1
  | _ => none

def phylinkGetLinkTimerNs : PhyInterface → Option Nat
  | .sgmii => some 1600000
  | .qsgmii => some 1600000
  | .usxgmii => some 1600000
  | .basex1000 => some 10000000
  | .basex2500 => some 10000000
  | _ => none

/-! ## SGMII -/

def SGMII_AN_ENABLE : BitVec 32 := 0x1000

def SGMII_PCS_REF_CK_SEL : BitVec 32 := 0x1000000

def SGMII_ADVERTISE : BitVec 32 := 0xffff

def SGMII_IF_MODE_SGMII : BitVec 32 := 1

def SGMII_SPEED_DUPLEX_AN : BitVec 32 := 2

def SGMII_SPEED_MASK : BitVec 32 := 0xc

def SGMII_SPEED_1000 : BitVec 32 := 8

def SGMII_DUPLEX_HALF : BitVec 32 := 0x10

def SGMII_REMOTE_FAULT_DIS : BitVec 32 := 0x100

def SGMII_TRX_BUF_THR_MASK : BitVec 32 := 0xffff0000

def SGMII_SW_RESET : BitVec 32 := 1

def SGMII_PHYA_PWD : BitVec 32 := 0x19

def SGMII_PN_SWAP_MASK : BitVec 32 := 3

def RG_PHY_SPEED_3_125G : BitVec 32 := 4

/-- The bits that a configuration replaces in `SGMSYS_SGMII_MODE`. -/
def sgmiiModeMask : BitVec 32 :=
  SGMII_REMOTE_FAULT_DIS ||| SGMII_DUPLEX_HALF ||| SGMII_SPEED_MASK ||| SGMII_SPEED_DUPLEX_AN |||
    SGMII_IF_MODE_SGMII

/-- The registers of an SGMII PCS; `anaRgc3` is the one at `mpcs->ana_rgc3`. -/
structure SgmiiRegs where
  pcsControl1 : BitVec 32
  pcsAdvertise : BitVec 32
  pcsLinkTimer : BitVec 32
  sgmiiMode : BitVec 32
  reserved0 : BitVec 32
  anaRgc3 : BitVec 32
  qphyPwrStateCtrl : BitVec 32
  qphyWrapCtrl : BitVec 32

/-- What the hardware makes of the registers when `mtk_sgmii_reset` resets it, and when
`SGMII_SW_RESET` is set. -/
structure SgmiiHw where
  reset : SgmiiRegs → SgmiiRegs
  swReset : SgmiiRegs → SgmiiRegs

/-- `struct mtk_sgmii_pcs` and its SoC; `pending` says that the link poll is scheduled. -/
structure SgmiiPcs where
  netsysV3 : Bool
  mt7987 : Bool
  polarity : BitVec 32
  regs : SgmiiRegs
  interface : PhyInterface
  mode : Nat
  advertising : LinkModes
  linkPollEnable : Bool
  pending : Bool

/-- What the interface asks for: `bmcr`, `sgm_mode` and `speed`. -/
def sgmiiModes (interface : PhyInterface) (advertising : LinkModes) :
    BitVec 32 × BitVec 32 × BitVec 32 :=
  match interface with
  | .sgmii =>
    (SGMII_AN_ENABLE, SGMII_IF_MODE_SGMII ||| SGMII_REMOTE_FAULT_DIS ||| SGMII_SPEED_DUPLEX_AN, 0)
  | .basex2500 => (0, SGMII_IF_MODE_SGMII, SGMII_SPEED_1000)
  | _ =>
    if advertising ETHTOOL_LINK_MODE_Autoneg_BIT then (SGMII_AN_ENABLE, SGMII_SPEED_DUPLEX_AN, 0)
    else (0, 0, SGMII_SPEED_1000)

namespace SgmiiRegs

def powerDown (r : SgmiiRegs) : SgmiiRegs :=
  { r with
    qphyPwrStateCtrl := updateBits SGMII_PHYA_PWD SGMII_PHYA_PWD r.qphyPwrStateCtrl
    reserved0 := updateBits SGMII_SW_RESET SGMII_SW_RESET r.reserved0 }

def configure (r : SgmiiRegs) (mt7987 : Bool) (polarity : BitVec 32) (interface : PhyInterface)
    (advertise : BitVec 32) (linkTimer : Nat) (advertising : LinkModes) : SgmiiRegs :=
  let modes := sgmiiModes interface advertising
  { r with
    qphyWrapCtrl := updateBits SGMII_PN_SWAP_MASK polarity r.qphyWrapCtrl
    anaRgc3 := updateBits RG_PHY_SPEED_3_125G
      (if interface = .basex2500 then RG_PHY_SPEED_3_125G else 0) r.anaRgc3
    pcsLinkTimer := BitVec.ofNat 32 (linkTimer / 2 / 8)
    pcsAdvertise := updateBits SGMII_ADVERTISE advertise r.pcsAdvertise
    sgmiiMode := updateBits sgmiiModeMask (modes.2.1 ||| modes.2.2)
      (if mt7987 then updateBits SGMII_TRX_BUF_THR_MASK 0x21110000 r.sgmiiMode else r.sgmiiMode)
    pcsControl1 := updateBits (SGMII_AN_ENABLE ||| SGMII_PCS_REF_CK_SEL)
      (if mt7987 then modes.1 ||| SGMII_PCS_REF_CK_SEL else modes.1) r.pcsControl1
    qphyPwrStateCtrl := 0 }

end SgmiiRegs

namespace SgmiiPcs

variable (mpcs : SgmiiPcs)

def remember (call : PcsConfig) : SgmiiPcs :=
  if call.mode ≤ MLO_AN_INBAND ∧ mpcs.interface ≠ call.interface then
    { mpcs with
      interface := call.interface, mode := call.mode, advertising := call.advertising }
  else mpcs

/-- `mtk_sgmii_pcs_config(pcs, mode, interface, advertising)`; `none` when it fails. -/
def mtkSgmiiPcsConfig (call : PcsConfig) (hw : SgmiiHw) : Option (SgmiiPcs × Bool) :=
  (phylinkMiiC22PcsEncodeAdvertisement call.interface call.advertising).bind fun advertise =>
    (phylinkGetLinkTimerNs call.interface).map fun linkTimer =>
      let reset := hw.swReset
        (if mpcs.netsysV3 then hw.reset mpcs.regs else mpcs.regs).powerDown
      let changed := updateBits SGMII_ADVERTISE advertise reset.pcsAdvertise != reset.pcsAdvertise
      let modeChanged := decide (call.mode ≤ MLO_AN_INBAND) && mpcs.interface != call.interface
      ({ mpcs.remember call with
          regs := reset.configure mpcs.mt7987 mpcs.polarity call.interface advertise linkTimer
            call.advertising },
        changed || modeChanged)

/-- Whether the link poll schedules itself again; `queued` is `delayed_work_pending`. -/
def rearms (queued : Bool) : Bool := if mpcs.mode = MLO_AN_INBAND then false else !queued

def polls (link : Bool) : Bool :=
  (mpcs.interface = .sgmii || mpcs.interface = .basex1000 || mpcs.interface = .basex2500) &&
    mpcs.linkPollEnable && !link

/-- The poll's call of `mtk_sgmii_pcs_config`. -/
def reconfigure (link : Bool) (hw : SgmiiHw) : SgmiiPcs :=
  if mpcs.polls link then
    ((mpcs.mtkSgmiiPcsConfig ⟨UINT_MAX, mpcs.interface, mpcs.advertising⟩ hw).map
      Prod.fst).getD mpcs
  else mpcs

def mtkSgmiiPcsLinkPoll (link queued : Bool) (hw : SgmiiHw) : SgmiiPcs :=
  let configured := mpcs.reconfigure link hw
  { configured with pending := queued || configured.rearms queued }

def init (netsysV3 mt7987 : Bool) (polarity : BitVec 32) (regs : SgmiiRegs) : SgmiiPcs where
  netsysV3 := netsysV3
  mt7987 := mt7987
  polarity := polarity
  regs := regs
  interface := .na
  mode := MLO_AN_PHY
  advertising := fun _ => false
  linkPollEnable := true
  pending := false

end SgmiiPcs

/-! ## USXGMII -/

def fieldPrep (lo : Nat) (val : BitVec 32) : BitVec 32 := val <<< lo

def fieldGet (lo width : Nat) (reg : BitVec 32) : Nat := (reg.extractLsb' lo width).toNat

def USXGMII_AN_SYNC_CNT : BitVec 32 := 0x7ffff800

def USXGMII_AN_ENABLE : BitVec 32 := 1

/-- `USXGMII_LINK_TIMER_IDLE_DETECT`, `USXGMII_LINK_TIMER_COMP_ACK_DETECT` and
`USXGMII_LINK_TIMER_AN_RESTART` -/
def usxgmiiLinkTimerMask : BitVec 32 := 0x3fffffff

def USXGMII_RATE_UPDATE_MODE : BitVec 32 := 0x80000000

def USXGMII_MAC_CK_GATED : BitVec 32 := 0x20000000

def USXGMII_IF_FORCE_EN : BitVec 32 := 0x10000000

def USXGMII_RATE_ADAPT_MODE : BitVec 32 := 0x700

/-- `USXGMII_XFI_RX_MODE` and `USXGMII_XFI_TX_MODE` -/
def usxgmiiXfiModeMask : BitVec 32 := 0x77

def USXGMII_PN_SWAP_MASK : BitVec 32 := 3

def USXGMII_LPA_LATCH : BitVec 32 := 0x80000000

structure UsxgmiiRegs where
  topCtrl0 : BitVec 32
  anCtrl0 : BitVec 32
  anCtrl2 : BitVec 32
  speedCtrl1 : BitVec 32
  anSts0 : BitVec 32

/-- `mpcs->state`: what the link poll has published. -/
structure PcsState where
  interface : PhyInterface
  link : Bool
  duplex : Bool
  speed : Nat
  deriving DecidableEq

/-- `struct mtk_usxgmii_pcs`; `gmac2` says that its MAC is GMAC2, and `pending` that the link poll
is scheduled. -/
structure UsxgmiiPcs where
  polarity : BitVec 32
  gmac2 : Bool
  regs : UsxgmiiRegs
  interface : PhyInterface
  mode : Nat
  linkPollEnable : Bool
  pending : Bool
  state : PcsState

/-- `an_ctrl`, `link_timer`, `xfi_mode` and `adapt_mode` of an interface. -/
structure UsxgmiiModes where
  anCtrl : BitVec 32
  linkTimer : BitVec 32
  xfiMode : BitVec 32
  adaptMode : BitVec 32

def usxgmiiLinkTimer (val : BitVec 32) : BitVec 32 :=
  fieldPrep 20 val ||| fieldPrep 10 val ||| fieldPrep 0 val

def usxgmiiModes : PhyInterface → Option UsxgmiiModes
  | .usxgmii =>
    some ⟨fieldPrep 11 0x1ff ||| USXGMII_AN_ENABLE, usxgmiiLinkTimer 0x7b,
      fieldPrep 4 0 ||| fieldPrep 0 0, fieldPrep 8 0⟩
  | .kr10g =>
    some ⟨fieldPrep 11 0x1ff, usxgmiiLinkTimer 0x7b, fieldPrep 4 0 ||| fieldPrep 0 0,
      USXGMII_RATE_UPDATE_MODE ||| fieldPrep 8 0⟩
  | .baser5g =>
    some ⟨fieldPrep 11 0xff, usxgmiiLinkTimer 0x3d, fieldPrep 4 1 ||| fieldPrep 0 1,
      USXGMII_RATE_UPDATE_MODE ||| fieldPrep 8 0⟩
  | _ => none

/-- The writes to `RG_PHY_TOP_SPEED_CTRL1`. -/
def writeSpeedCtrl1 (modes : UsxgmiiModes) (reg : BitVec 32) : BitVec 32 :=
  let gated := updateBits USXGMII_MAC_CK_GATED USXGMII_MAC_CK_GATED reg
  let forced := updateBits USXGMII_IF_FORCE_EN USXGMII_IF_FORCE_EN gated
  let adapted :=
    updateBits (USXGMII_RATE_UPDATE_MODE ||| USXGMII_RATE_ADAPT_MODE) modes.adaptMode forced
  let sped := updateBits usxgmiiXfiModeMask modes.xfiMode adapted
  let ungated := updateBits USXGMII_MAC_CK_GATED 0 sped
  if modes.anCtrl &&& USXGMII_AN_ENABLE ≠ 0 then updateBits USXGMII_IF_FORCE_EN 0 ungated
  else ungated

def UsxgmiiRegs.configure (r : UsxgmiiRegs) (polarity : BitVec 32) (modes : UsxgmiiModes) :
    UsxgmiiRegs :=
  { r with
    topCtrl0 := updateBits USXGMII_PN_SWAP_MASK polarity r.topCtrl0
    anCtrl0 := updateBits (USXGMII_AN_SYNC_CNT ||| USXGMII_AN_ENABLE) modes.anCtrl r.anCtrl0
    anCtrl2 := updateBits usxgmiiLinkTimerMask modes.linkTimer r.anCtrl2
    speedCtrl1 := writeSpeedCtrl1 modes r.speedCtrl1 }

/-- A value of `RG_PCS_AN_STS0` with another link partner ability. -/
def setLpa (partner : BitVec 16) (reg : BitVec 32) : BitVec 32 :=
  updateBits 0xffff (partner.setWidth 32) reg

/-- The PCS takes a write to `RG_PCS_AN_STS0`: when the latch bit is inverted, it copies the
ability that the link partner has at that time. -/
def writeAnSts0 (partner : BitVec 16) (old new : BitVec 32) : BitVec 32 :=
  if (old ^^^ new) &&& USXGMII_LPA_LATCH ≠ 0 then setLpa partner new else new

def lpaSpeed (reg : BitVec 32) : Option Nat :=
  match fieldGet 9 3 reg with
  | 0 => some 10
  | 1 => some 100
  | 2 => some 1000
  | 4 => some 2500
  | 5 => some 5000
  | 3 => some 10000
  | _ => none

/-- The speed in `MTK_XGMAC_STS`. -/
def xgmacSpeed (val : BitVec 32) : Option Nat :=
  match fieldGet 1 3 val with
  | 0 => some 10000
  | 1 => some 5000
  | 2 => some 2500
  | 3 => some 1000
  | _ => none

namespace UsxgmiiPcs

variable (mpcs : UsxgmiiPcs)

/-- `mtk_usxgmii_get_state`: `partner` is the link partner's ability and `xgmacSts` what
`MTK_XGMAC_STS` has. -/
def mtkUsxgmiiGetState (partner : BitVec 16) (xgmacSts : BitVec 32) : UsxgmiiPcs :=
  if mpcs.regs.anCtrl0 &&& USXGMII_AN_ENABLE ≠ 0 then
    let val := mpcs.regs.anSts0
    -- the value is the negated bit, not a mask of it
    let latch : BitVec 32 := if val &&& USXGMII_LPA_LATCH = 0 then 1 else 0
    let sts0 := writeAnSts0 partner val (updateBits USXGMII_LPA_LATCH latch val)
    { mpcs with
      regs := { mpcs.regs with anSts0 := sts0 }
      state := ⟨mpcs.interface, sts0.getLsbD 15, sts0.getLsbD 12,
        (lpaSpeed sts0).getD mpcs.state.speed⟩ }
  else
    let val := if mpcs.gmac2 then xgmacSts >>> 16 else xgmacSts
    { mpcs with
      state := ⟨mpcs.interface, val.getLsbD 8, true, (xgmacSpeed val).getD mpcs.state.speed⟩ }

def remember (call : PcsConfig) : UsxgmiiPcs :=
  if call.mode ≤ MLO_AN_INBAND ∧ mpcs.interface ≠ call.interface then
    { mpcs with interface := call.interface, mode := call.mode }
  else mpcs

/-- `mtk_usxgmii_pcs_config(pcs, mode, interface)`; `reset` is what the hardware makes of the
registers when `mtk_usxgmii_reset` resets it. -/
def mtkUsxgmiiPcsConfig (call : PcsConfig) (reset : UsxgmiiRegs → UsxgmiiRegs) :
    Option (UsxgmiiPcs × Bool) :=
  (usxgmiiModes call.interface).map fun modes =>
    ({ mpcs.remember call with regs := (reset mpcs.regs).configure mpcs.polarity modes },
      decide (call.mode ≤ MLO_AN_INBAND) && mpcs.interface != call.interface)

/-- Whether the link poll schedules itself again; `queued` is `delayed_work_pending`. -/
def rearms (queued : Bool) : Bool := if mpcs.mode = MLO_AN_INBAND then false else !queued

def polls (link : Bool) : Bool :=
  (mpcs.interface = .baser5g || mpcs.interface = .kr10g || mpcs.interface = .usxgmii) &&
    mpcs.linkPollEnable && !link

/-- The poll's call of `mtk_usxgmii_pcs_config`. -/
def reconfigure (link : Bool) (reset : UsxgmiiRegs → UsxgmiiRegs) : UsxgmiiPcs :=
  if mpcs.polls link then
    ((mpcs.mtkUsxgmiiPcsConfig ⟨UINT_MAX, mpcs.interface, fun _ => false⟩ reset).map
      Prod.fst).getD mpcs
  else mpcs

def mtkUsxgmiiPcsLinkPoll (link queued : Bool) (reset : UsxgmiiRegs → UsxgmiiRegs)
    (partner : BitVec 16) (xgmacSts : BitVec 32) : UsxgmiiPcs :=
  let configured := mpcs.reconfigure link reset
  let polled := { configured with pending := queued || configured.rearms queued }
  if configured.mode = MLO_AN_INBAND then polled.mtkUsxgmiiGetState partner xgmacSts else polled

def mtkUsxgmiiPcsEnable : UsxgmiiPcs := { mpcs with pending := true }

def mtkUsxgmiiPcsDisable (partner : BitVec 16) (xgmacSts : BitVec 32) : UsxgmiiPcs :=
  let cancelled := { mpcs with pending := false }
  if mpcs.mode = MLO_AN_INBAND then cancelled.mtkUsxgmiiGetState partner xgmacSts else cancelled

/-- `mtk_usxgmii_pcs_get_state`: `interface` is that of the caller's state, and `expired` says that
the last call that has scheduled the poll is a second ago. -/
def mtkUsxgmiiPcsGetState (interface : PhyInterface) (expired : Bool) : UsxgmiiPcs × PcsState :=
  ({ mpcs with pending := mpcs.pending || expired },
    { mpcs.state with
      interface := if mpcs.state.interface = .na then interface else mpcs.state.interface })

def init (polarity : BitVec 32) (gmac2 : Bool) (regs : UsxgmiiRegs) : UsxgmiiPcs where
  polarity := polarity
  gmac2 := gmac2
  regs := regs
  interface := .na
  mode := MLO_AN_PHY
  linkPollEnable := true
  pending := false
  state := ⟨.na, false, true, 10000⟩

end UsxgmiiPcs

end MetaFilogic.Eth
