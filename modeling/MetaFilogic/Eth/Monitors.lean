import MetaFilogic.Library.Streak
import Mathlib.Data.List.Range

/-!
# The hang monitors of the frame engine

Once a second each monitor reads registers, compares them with those of its last sample and counts
in how many samples in a row its part of the frame engine looks stuck.  With the fifth it asks for
a reset.  The sizes are those of `CONFIG_MEDIATEK_NETSYS_V3`.
-/

namespace MetaFilogic.Eth.Monitors

open Streak

def MTK_WDMA_CNT : Nat := 3

def MTK_MAX_DEVS : Nat := 3

inductive FeEvent where
  | startReset
  | stopTraffic
  deriving DecidableEq

/-! ## The output queues -/

def PSE_GDM1_PORT : Nat := 1

def PSE_GDM2_PORT : Nat := 2

def PSE_WDMA0_PORT : Nat := 8

def PSE_WDMA1_PORT : Nat := 9

def PSE_WDMA2_PORT : Nat := 13

def PSE_GDM3_PORT : Nat := 15

/-- `*pre_opq` and `*err_opq` of a port. -/
structure PortMem where
  preOpq : BitVec 16
  errOpq : BitVec 8

/-- `mtk_check_pse_oq_sta(eth, port, pre_opq, err_opq)`, with `reg` read from
`MTK_PSE_OQ_STA(port / 2)`. -/
def mtkCheckPseOqSta (netsysV1 : Bool) (port : Nat) (reg : BitVec 32) (mem : PortMem) : PortMem :=
  if netsysV1 then mem
  else
    let mask : BitVec 32 := if port % 2 = 1 then 0x0fff0000 else 0x00000fff
    let curOpq : BitVec 16 := (reg &&& mask).setWidth 16
    ⟨curOpq, bump (curOpq != 0 && curOpq == mem.preOpq) mem.errOpq⟩

/-! ## WDMA -/

def MTK_TX_DMA_BUSY : BitVec 32 := 2

def MTK_RX_DMA_EN : BitVec 32 := 4

def MTK_RX_DMA_BUSY : BitVec 32 := 8

/-- `MTK_CDM_TS_FSM_MASK | MTK_CDM_TS_PARSER_FSM_MASK` -/
def cdmTsMask : BitVec 32 := 0x1f0f

/-- `MTK_CDM_FS_FSM_MASK | MTK_CDM_FS_PARSER_FSM_MASK` -/
def cdmFsMask : BitVec 32 := 0x0f0f0000

/-- `struct wdma_tx_monitor`; `ports` has `pre_opq_gdm`, `pre_opq_wdma`, `err_opq_gdm` and
`err_opq_wdma`. -/
structure WdmaTx where
  ports : Nat → PortMem
  preDtx : Nat → BitVec 32
  hangCount : Nat → BitVec 8

/-- What a sample reads: for a port the word with its queue, and for a ring `MTK_WDMA_DTX_PTR`,
`MTK_WDMA_GLO_CFG` and `MTK_FE_CDM_FSM`. -/
structure WdmaTxSample where
  oqSta : Nat → BitVec 32
  dtx : Nat → BitVec 32
  gloCfg : Nat → BitVec 32
  cdmFsm : Nat → BitVec 32

def wdmaTxPorts : List Nat :=
  [PSE_GDM1_PORT, PSE_GDM2_PORT, PSE_GDM3_PORT, PSE_WDMA0_PORT, PSE_WDMA1_PORT, PSE_WDMA2_PORT]

def wdmaTxHangs (preDtx : BitVec 32) (errOpq : Bool) (x : WdmaTxSample) (i : Nat) : Bool :=
  x.dtx i == preDtx && x.gloCfg i &&& MTK_TX_DMA_BUSY != 0 && x.cdmFsm i &&& cdmTsMask != 0 &&
    errOpq

def mtkMonitorWdmaTx (netsysV1 : Bool) (m : WdmaTx) (x : WdmaTxSample) :
    WdmaTx × Option FeEvent :=
  let ports := fun port =>
    if port ∈ wdmaTxPorts then mtkCheckPseOqSta netsysV1 port (x.oqSta port) (m.ports port)
    else m.ports port
  let errOpq := wdmaTxPorts.any fun port => decide (3 ≤ (ports port).errOpq)
  let hangs := fun i => wdmaTxHangs (m.preDtx i) errOpq x i
  let hangCount := fun i =>
    if i < MTK_WDMA_CNT then bump (hangs i) (m.hangCount i) else m.hangCount i
  (⟨ports, fun i => if i < MTK_WDMA_CNT then x.dtx i else m.preDtx i, hangCount⟩,
    if (List.range MTK_WDMA_CNT).any fun i => hangs i && decide (5 ≤ hangCount i) then
      some .startReset
    else none)

structure WdmaRxSeen where
  crx : BitVec 32
  drx : BitVec 32
  opq : BitVec 32
  fsm : BitVec 32

structure WdmaRx where
  pre : WdmaRxSeen
  connsys : BitVec 8
  netsys : BitVec 8

/-- What a sample reads of a ring: its configuration twice, its pointers three times each, its
output queue, and whether `mtk_check_wifi_busy` is there and finds the Wi-Fi chip idle. -/
structure WdmaRxSample where
  gloCfg : BitVec 32
  gloCfg' : BitVec 32
  maxCnt : BitVec 32
  crx : Fin 3 → BitVec 32
  drx : Fin 3 → BitVec 32
  opq : BitVec 32
  cdmFsm : BitVec 32
  wifiIdle : Bool

namespace WdmaRxSample

variable (x : WdmaRxSample)

def examined : Bool := x.gloCfg &&& MTK_RX_DMA_EN != 0 && x.maxCnt != 0

theorem threeReads : NeZero 3 := ⟨by decide⟩

def seen : WdmaRxSeen :=
  haveI := threeReads
  ⟨x.crx 2, x.drx 2, x.opq, x.cdmFsm &&& cdmFsMask⟩

def rxCnt : Int :=
  haveI := threeReads
  (if x.crx 2 < x.drx 2 then x.drx 2 - 1 - x.crx 2 else x.drx 2 - 1 - x.crx 2 + x.maxCnt).toInt

def unchanged (pre : BitVec 32) (reads : Fin 3 → BitVec 32) : Bool :=
  haveI := threeReads
  reads 0 == pre && reads 1 == pre && reads 2 == pre

def connsysBusy (pre : WdmaRxSeen) : Bool :=
  unchanged pre.drx x.drx && unchanged pre.crx x.crx && decide (0 < x.rxCnt) && x.wifiIdle

def netsysBusy (pre : WdmaRxSeen) : Bool :=
  !x.connsysBusy pre && (x.rxCnt == 0 && x.gloCfg' &&& MTK_RX_DMA_BUSY != 0 &&
    (x.opq != 0 && x.opq == pre.opq) && (x.seen.fsm != 0 && x.seen.fsm == pre.fsm))

end WdmaRxSample

/-- `mtk_monitor_wdma_rx` for one ring, and whether it sets `err_flag`. -/
def wdmaRxRing (m : WdmaRx) (x : WdmaRxSample) : WdmaRx × Bool :=
  if x.examined then
    if x.connsysBusy m.pre then
      (⟨x.seen, m.connsys + 1, m.netsys⟩, decide (5 ≤ m.connsys + 1 ∨ 5 ≤ m.netsys))
    else if x.netsysBusy m.pre then
      (⟨x.seen, m.connsys, m.netsys + 1⟩, decide (5 ≤ m.connsys ∨ 5 ≤ m.netsys + 1))
    else (⟨x.seen, 0, 0⟩, false)
  else (m, false)

def mtkMonitorWdmaRx (m : Nat → WdmaRx) (x : Nat → WdmaRxSample) :
    (Nat → WdmaRx) × Option FeEvent :=
  (fun i => if i < MTK_WDMA_CNT then (wdmaRxRing (m i) (x i)).1 else m i,
    if (List.range MTK_WDMA_CNT).any fun i => (wdmaRxRing (m i) (x i)).2 then some .startReset
    else none)

/-! ## One counter -/

/-- A monitor of one counter: it compares a sample with what it has seen before, and asks for a
reset when it has hung five times. -/
def watch {Seen Sample : Type} (hangs : Seen → Sample → Bool) (seen : Sample → Seen)
    (m : Seen × BitVec 8) (x : Sample) : (Seen × BitVec 8) × Option FeEvent :=
  ((seen x, bump (hangs m.1 x) m.2),
    if hangs m.1 x && decide (5 ≤ bump (hangs m.1 x) m.2) then some .stopTraffic else none)

/-- `gdmRxfc` says that a GDM has got flow control frames, as `mtk_monitor_gdm_tx` has left it. -/
structure QdmaTxSample where
  gdmRxfc : Bool
  fsm : BitVec 32
  fwdCnt : BitVec 32

def qdmaTxHangs (_ : Unit) (x : QdmaTxSample) : Bool :=
  !x.gdmRxfc && x.fsm &&& 0xf00 != 0 && x.fwdCnt == 0

def mtkMonitorQdmaTx (m : Unit × BitVec 8) (x : QdmaTxSample) :
    (Unit × BitVec 8) × Option FeEvent :=
  watch qdmaTxHangs (fun _ => ()) m x

structure QdmaRxSeen where
  fqHead : BitVec 32
  fqTail : BitVec 32

structure QdmaRxSample where
  fsm : BitVec 32
  fqHead : BitVec 32
  fqTail : BitVec 32

def qdmaRxHangs (pre : QdmaRxSeen) (x : QdmaRxSample) : Bool :=
  x.fsm &&& 0x1f == 9 && x.fqHead == pre.fqHead && x.fqTail == pre.fqTail

def mtkMonitorQdmaRx (m : QdmaRxSeen × BitVec 8) (x : QdmaRxSample) :
    (QdmaRxSeen × BitVec 8) × Option FeEvent :=
  watch qdmaRxHangs (fun x => ⟨x.fqHead, x.fqTail⟩) m x

structure AdmaRxSeen where
  drx : Nat → BitVec 32
  fsm : BitVec 32
  opq : BitVec 16

structure AdmaRxSample where
  oqSta : BitVec 32
  cdm1Fsm : BitVec 32
  drx : Nat → BitVec 32

namespace AdmaRxSample

variable (x : AdmaRxSample)

def opq : BitVec 32 := x.oqSta &&& 0xfff

def fsm : BitVec 32 := x.cdm1Fsm &&& 0xffff0000

end AdmaRxSample

/-- `rings` is 1, or the number of RSS rings when the SoC has RSS. -/
def admaRxHangs (rings : Nat) (pre : AdmaRxSeen) (x : AdmaRxSample) : Bool :=
  (List.range rings).all (fun i => x.drx i == pre.drx i) &&
    (x.opq != 0 && x.opq == pre.opq.setWidth 32) && (x.fsm != 0 && x.fsm == pre.fsm)

/-- What lies in `pre_drx` beyond the rings is never looked at. -/
def mtkMonitorAdmaRx (rings : Nat) (m : AdmaRxSeen × BitVec 8) (x : AdmaRxSample) :
    (AdmaRxSeen × BitVec 8) × Option FeEvent :=
  watch (admaRxHangs rings) (fun x => ⟨x.drx, x.fsm, x.opq.setWidth 16⟩) m x

structure TdmaTxSeen where
  ipq10 : BitVec 32
  fsm : BitVec 32

structure TdmaTxSample where
  iqSta : BitVec 32
  cdm6Fsm : BitVec 32
  gloCfg : BitVec 32

namespace TdmaTxSample

variable (x : TdmaTxSample)

def seen : TdmaTxSeen := ⟨x.iqSta &&& 0xfff, x.cdm6Fsm &&& 0x1fff⟩

end TdmaTxSample

def tdmaTxHangs (pre : TdmaTxSeen) (x : TdmaTxSample) : Bool :=
  x.seen.ipq10 != 0 && x.seen.fsm != 0 && x.gloCfg &&& 2 != 0 && x.seen.fsm == pre.fsm &&
    x.seen.ipq10 == pre.ipq10

def mtkMonitorTdmaTx (netsysV3 : Bool) (m : TdmaTxSeen × BitVec 8) (x : TdmaTxSample) :
    (TdmaTxSeen × BitVec 8) × Option FeEvent :=
  if netsysV3 then watch tdmaTxHangs TdmaTxSample.seen m x else (m, none)

structure TdmaRxSeen where
  rxDidx : BitVec 32
  opq10 : BitVec 32
  fsm : BitVec 32

structure TdmaRxSample where
  drxIdx : Nat → BitVec 32
  oqSta : BitVec 32
  cdm6Fsm : BitVec 32
  gloCfg : BitVec 32

namespace TdmaRxSample

variable (x : TdmaRxSample)

def seen : TdmaRxSeen where
  rxDidx := (List.range 4).foldl (fun didx i => didx ||| (x.drxIdx i &&& 0xff) <<< (8 * i)) 0
  opq10 := x.oqSta &&& 0xfff
  fsm := x.cdm6Fsm &&& 0xfff0000

end TdmaRxSample

def tdmaRxHangs (pre : TdmaRxSeen) (x : TdmaRxSample) : Bool :=
  x.seen.opq10 != 0 && x.seen.fsm != 0 && x.gloCfg &&& 8 != 0 && x.seen.fsm == pre.fsm &&
    x.seen.opq10 == pre.opq10 && x.seen.rxDidx == pre.rxDidx

def mtkMonitorTdmaRx (netsysV3 : Bool) (m : TdmaRxSeen × BitVec 8) (x : TdmaRxSample) :
    (TdmaRxSeen × BitVec 8) × Option FeEvent :=
  if netsysV3 then watch tdmaRxHangs TdmaRxSample.seen m x else (m, none)

/-! ## GDM -/

def MTK_GMAC1_ID : Nat := 0

structure GdmRx where
  preRxCnt : BitVec 32
  preFsm : BitVec 32
  preIpq : BitVec 16
  gdm : BitVec 8
  gmac : BitVec 8

/-- A MAC at a sample: `running` says that it is there and its netdev runs, and `xgdm` that its
type is `MTK_XGDM_TYPE`; `iqSta` is the word with the input queue of its GDM. -/
structure GdmRxSample where
  running : Bool
  xgdm : Bool
  rxPackets : BitVec 64
  macFsm : BitVec 32
  iqSta : BitVec 32
  gdmFsm : BitVec 32

/-- The mask of `MTK_FE_GDM_IQ(i)` and `MTK_FE_GDM_OQ(i)`. -/
def gdmQueueMask (i : Nat) : BitVec 32 := if i = 1 then 0x00000fff else 0x0fff0000

namespace GdmRxSample

variable (x : GdmRxSample)

def rxCnt : BitVec 32 := x.rxPackets.setWidth 32

def fsm : BitVec 32 := x.gdmFsm &&& 0xff

def ipq (i : Nat) : BitVec 32 := x.iqSta &&& gdmQueueMask i

def gmacHangs (preRxCnt : BitVec 32) : Bool :=
  x.macFsm &&& 0xff0000 != 0x10000 && x.rxCnt == preRxCnt

def gdmHangs (i : Nat) (preRxCnt preFsm preIpq : BitVec 32) : Bool :=
  (x.fsm == preFsm && x.fsm == 0x23 || x.fsm == preFsm && x.fsm == 0x24) &&
    (x.ipq i == preIpq && x.ipq i != 0) && x.rxCnt == preRxCnt

end GdmRxSample

/-- `mtk_monitor_gdm_rx` for one MAC, and whether it sets `err_flag`. -/
def gdmRxMac (i : Nat) (m : GdmRx) (x : GdmRxSample) : GdmRx × Bool :=
  if x.running then
    if !x.xgdm then
      let hangs := x.gmacHangs m.preRxCnt
      ({ m with gmac := bump hangs m.gmac, preRxCnt := x.rxCnt },
        hangs && decide (5 ≤ bump hangs m.gmac))
    else if i ≠ MTK_GMAC1_ID then
      let hangs := x.gdmHangs i m.preRxCnt m.preFsm (m.preIpq.setWidth 32)
      ({ m with
          gdm := bump hangs m.gdm, preFsm := x.fsm, preIpq := (x.ipq i).setWidth 16,
          preRxCnt := x.rxCnt },
        hangs && decide (5 ≤ bump hangs m.gdm))
    else ({ m with preRxCnt := x.rxCnt }, false)
  else (m, false)

def mtkMonitorGdmRx (m : Nat → GdmRx) (x : Nat → GdmRxSample) : (Nat → GdmRx) × Option FeEvent :=
  (fun i => if i < MTK_MAX_DEVS then (gdmRxMac i (m i) (x i)).1 else m i,
    if (List.range MTK_MAX_DEVS).any fun i => (gdmRxMac i (m i) (x i)).2 then some .stopTraffic
    else none)

structure GdmTxSeen where
  txCnt : BitVec 32
  rxfcCnt : BitVec 32
  fsm : BitVec 32
  opq : BitVec 32

structure GdmTx where
  pre : GdmTxSeen
  rxfc : Bool
  gdm : BitVec 8
  gmac : BitVec 8

/-- A MAC at a sample; `oqSta` is the word with the output queue of its GDM. -/
structure GdmTxSample where
  running : Bool
  xgdm : Bool
  txPackets : BitVec 64
  rxFlowControlPackets : BitVec 64
  macFsm : BitVec 32
  oqSta : BitVec 32
  gdmFsm : BitVec 32

namespace GdmTxSample

variable (x : GdmTxSample)

def seen (i : Nat) : GdmTxSeen :=
  ⟨x.txPackets.setWidth 32, x.rxFlowControlPackets.setWidth 32, x.gdmFsm &&& 0x1fff0000,
    x.oqSta &&& gdmQueueMask i⟩

def gmacHangs (i : Nat) (pre : GdmTxSeen) : Bool :=
  x.macFsm &&& 0xff000000 != 0x1000000 && (x.seen i).txCnt == pre.txCnt &&
    (x.seen i).rxfcCnt == pre.rxfcCnt && (x.seen i).opq != 0

def gdmHangs (i : Nat) (pre : GdmTxSeen) : Bool :=
  (x.seen i).fsm == pre.fsm && (x.seen i).fsm == 0x10330000 && (x.seen i).opq == pre.opq &&
    (x.seen i).opq != 0 && (x.seen i).rxfcCnt == pre.rxfcCnt && (x.seen i).txCnt == pre.txCnt

end GdmTxSample

/-- `mtk_monitor_gdm_tx` for one MAC, and whether it sets `err_flag`. -/
def gdmTxMac (i : Nat) (m : GdmTx) (x : GdmTxSample) : GdmTx × Bool :=
  if x.running then
    let gmacHangs := !x.xgdm && x.gmacHangs i m.pre
    let gmac := if x.xgdm then m.gmac else bump gmacHangs m.gmac
    let gdmHangs := x.gdmHangs i m.pre
    let gdm := bump gdmHangs m.gdm
    (⟨x.seen i, (x.seen i).rxfcCnt - m.pre.rxfcCnt != 0, gdm, gmac⟩,
      gmacHangs && decide (5 ≤ gmac) || gdmHangs && decide (5 ≤ gdm))
  else (m, false)

def mtkMonitorGdmTx (m : Nat → GdmTx) (x : Nat → GdmTxSample) : (Nat → GdmTx) × Option FeEvent :=
  (fun i => if i < MTK_MAX_DEVS then (gdmTxMac i (m i) (x i)).1 else m i,
    if (List.range MTK_MAX_DEVS).any fun i => (gdmTxMac i (m i) (x i)).2 then some .stopTraffic
    else none)

end MetaFilogic.Eth.Monitors
