import MetaFilogic.Library.Steps

/-!
# The transmit timestamp slot

The poll of the transmit ring puts a PTP packet into the slot of its MAC, and a work item looks for
its timestamp in the registers of the MAC, gives it to the packet and clears the slot.  No lock is
taken.
-/

namespace MetaFilogic.Eth.Ptp

/-! ## Packets -/

def PTP_CLASS_NONE : BitVec 32 := 0x00
def PTP_CLASS_L2 : BitVec 32 := 0x40
def PTP_CLASS_PMASK : BitVec 32 := 0x70
def PTP_CLASS_VLAN : BitVec 32 := 0x80
def VLAN_HLEN : Nat := 4
def ETH_HLEN : Nat := 14
def OFF_PTP_SEQUENCE_ID : Nat := 30

def SYNC : BitVec 8 := 0x0
def DELAY_REQ : BitVec 8 := 0x1
def PDELAY_REQ : BitVec 8 := 0x2
def PDELAY_RESP : BitVec 8 := 0x3

inductive TsReg where
  | t1
  | t3
  deriving DecidableEq

def ptpOffset (ptpClass : BitVec 32) : Nat :=
  (if ptpClass &&& PTP_CLASS_VLAN ≠ 0 then VLAN_HLEN else 0) +
    (if ptpClass &&& PTP_CLASS_PMASK = PTP_CLASS_L2 then ETH_HLEN else 0)

/-- A packet: its bytes from the MAC header on, and what `ptp_classify_raw` makes of it. -/
structure Packet where
  id : Nat
  ptpClass : BitVec 32
  data : List (BitVec 8)
  deriving DecidableEq

namespace Packet

variable (p : Packet)

def seqidAt (ptpClass : BitVec 32) : BitVec 16 :=
  p.data.getD (ptpOffset ptpClass + OFF_PTP_SEQUENCE_ID) 0 ++
    p.data.getD (ptpOffset ptpClass + OFF_PTP_SEQUENCE_ID + 1) 0

def tsRegAt (ptpClass : BitVec 32) : Option TsReg :=
  let msgtype := p.data.getD (ptpOffset ptpClass) 0 &&& 0x0f
  if msgtype = SYNC ∨ msgtype = PDELAY_REQ then some .t1
  else if msgtype = DELAY_REQ ∨ msgtype = PDELAY_RESP then some .t3
  else none

/-- `mtk_ptp_hwtstamp_process_tx` takes the packet. -/
def Taken : Prop := p.ptpClass ≠ PTP_CLASS_NONE ∧ p.ptpClass &&& PTP_CLASS_PMASK = PTP_CLASS_L2

instance : Decidable p.Taken := inferInstanceAs (Decidable (_ ∧ _))

def IsEvent : Prop := (p.tsRegAt p.ptpClass).isSome = true

end Packet

/-! ## Timestamps -/

structure Timespec where
  sec : BitVec 64
  nsec : BitVec 32
  deriving DecidableEq

/-- What the MAC has latched for a packet that it has sent; nothing is known of the packet when it
has not been passed to the driver. -/
structure Stamp where
  owner : Option Nat
  sid : BitVec 32
  dw : Nat → BitVec 32

def Stamp.time (stamp : Stamp) : Timespec where
  sec := (stamp.dw 2).setWidth 64 ||| (stamp.dw 3).setWidth 64 <<< 32
  nsec := stamp.dw 1

def Stamp.word (stamp : Stamp) : Nat → BitVec 32
  | 0 => stamp.sid
  | i + 1 => if i < 4 then stamp.dw i else stamp.sid

def mtkPtpHwtstampGet (seqid : BitVec 16) : List (BitVec 32) → Option Timespec
  | [sid0, _, dw1, dw2, dw3, sid1] =>
    if seqid.setWidth 32 ≠ sid0 ∨ sid0 ≠ sid1 then none
    else some ⟨dw2.setWidth 64 ||| dw3.setWidth 64 <<< 32, dw1⟩
  | _ => none

/-! ## The slot and those who use it -/

/-- Where `mtk_ptp_hwtstamp_tx_work` is: the step named comes next. -/
inductive WorkPhase where
  | idle
  | readClass (skb : Packet)
  | reading (skb : Packet) (reg : TsReg) (seqid : BitVec 16) (words : List (BitVec 32))
  | stamping (skb : Packet) (seqid : BitVec 16) (time : Timespec)
  | freeing (skb : Packet)
  | clearSkb
  | clearClass
  | clearStart
  deriving DecidableEq

/-- Where `mtk_ptp_hwtstamp_process_tx` is. -/
inductive PollPhase where
  | idle
  | writeClass (skb : Packet)
  | writeStart
  | schedule

/-- Where `mtk_ptp_clock_deinit` is. -/
inductive DeinitPhase where
  | idle
  | cancelling
  | freeing
  | clearSkb
  | clearClass
  | clearStart
  deriving DecidableEq

/-- What happens to a packet: a reference is taken or released, it is given a timestamp with a
sequence id, or a warning says that it has none. -/
inductive Output where
  | took (skb : Packet)
  | released (skb : Packet)
  | stamped (skb : Packet) (seqid : BitVec 16) (time : Timespec)
  | timedOut (skb : Packet)
  | unrecognized (skb : Packet)
  deriving DecidableEq

/-- A MAC: its slot, its registers, what has been latched so far, and the outputs, the last
first. -/
structure Mac where
  ptpTxSkb : Option Packet
  ptpTxClass : BitVec 32
  ptpTxStart : BitVec 64
  regs : TsReg → Stamp
  latched : List Stamp
  pending : Bool
  work : WorkPhase
  poll : PollPhase
  deinit : DeinitPhase
  outputs : List Output

/-- What happens: the MAC latches the timestamp of a packet, the ring's poll passes a packet on, the
clock is shut down, or one of them takes its next step at a time. -/
inductive Label where
  | latch (reg : TsReg) (id : Nat) (sid : BitVec 32) (dw : Nat → BitVec 32)
  | process (skb : Packet)
  | poll (jiffies : BitVec 64)
  | work (jiffies : BitVec 64)
  | deinit
  | deinitStep

namespace Mac

variable (timeout : BitVec 64) (m : Mac)

def scheduleWork : Bool := m.pending || decide (m.deinit ≠ .cancelling)

/-- `mtk_ptp_hwtstamp_process_tx` up to the write of `ptp_tx_skb`. -/
def mtkPtpHwtstampProcessTx (skb : Packet) : Mac :=
  if skb.Taken then
    { m with
      ptpTxSkb := some skb, poll := .writeClass skb, outputs := .took skb :: m.outputs }
  else m

/-- The rest of `mtk_ptp_hwtstamp_process_tx`. -/
def pollStep (jiffies : BitVec 64) : Option Mac :=
  match m.poll with
  | .idle => none
  | .writeClass skb => some { m with ptpTxClass := skb.ptpClass, poll := .writeStart }
  | .writeStart => some { m with ptpTxStart := jiffies, poll := .schedule }
  | .schedule => some { m with pending := m.scheduleWork, poll := .idle }

/-- `time_is_before_jiffies(mac->ptp_tx_start + msecs_to_jiffies(500))`. -/
def timedOut (jiffies : BitVec 64) : Bool := (m.ptpTxStart + timeout - jiffies).slt 0

/-- One step of `mtk_ptp_hwtstamp_tx_work`. -/
def workStep (jiffies : BitVec 64) : Option Mac :=
  match m.work with
  | .idle =>
    if m.pending = true then
      some { m with
        pending := false
        work := match m.ptpTxSkb with
          | some skb => .readClass skb
          | none => .idle }
    else none
  | .readClass skb =>
    some (match skb.tsRegAt m.ptpTxClass with
      | some reg => { m with work := .reading skb reg (skb.seqidAt m.ptpTxClass) [] }
      | none => { m with work := .freeing skb, outputs := .unrecognized skb :: m.outputs })
  | .reading skb reg seqid words =>
    if words.length < 6 then
      some { m with
        work := .reading skb reg seqid (words ++ [(m.regs reg).word words.length]) }
    else
      some (match mtkPtpHwtstampGet seqid words with
        | some time => { m with work := .stamping skb seqid time }
        | none =>
          if m.timedOut timeout jiffies then
            { m with work := .freeing skb, outputs := .timedOut skb :: m.outputs }
          else { m with work := .idle, pending := m.scheduleWork })
  | .stamping skb seqid time =>
    some { m with work := .freeing skb, outputs := .stamped skb seqid time :: m.outputs }
  | .freeing skb => some { m with work := .clearSkb, outputs := .released skb :: m.outputs }
  | .clearSkb => some { m with work := .clearClass, ptpTxSkb := none }
  | .clearClass => some { m with work := .clearStart, ptpTxClass := 0 }
  | .clearStart => some { m with work := .idle, ptpTxStart := 0 }

/-- One step of `mtk_ptp_clock_deinit`; `cancel_work_sync` waits until the work does not run. -/
def deinitStep : Option Mac :=
  match m.deinit with
  | .idle => none
  | .cancelling =>
    match m.work with
    | .idle => some { m with deinit := .freeing }
    | _ => none
  | .freeing =>
    some { m with
      deinit := .clearSkb
      outputs := match m.ptpTxSkb with
        | some skb => .released skb :: m.outputs
        | none => m.outputs }
  | .clearSkb => some { m with deinit := .clearClass, ptpTxSkb := none }
  | .clearClass => some { m with deinit := .clearStart, ptpTxClass := 0 }
  | .clearStart => some { m with deinit := .idle, ptpTxStart := 0 }

def takenIds : List Nat :=
  m.outputs.filterMap fun
    | .took skb => some skb.id
    | _ => none

def step (m : Mac) : Label → Option Mac
  | .latch reg id sid dw =>
    if ∀ stamp ∈ m.latched, stamp.owner ≠ some id then
      some { m with
        regs := fun other => if other = reg then ⟨some id, sid, dw⟩ else m.regs other
        latched := ⟨some id, sid, dw⟩ :: m.latched }
    else none
  | .process skb =>
    match m.poll with
    | .idle => if skb.id ∈ m.takenIds then none else some (m.mtkPtpHwtstampProcessTx skb)
    | _ => none
  | .poll jiffies => m.pollStep jiffies
  | .work jiffies => m.workStep timeout jiffies
  | .deinit =>
    match m.deinit with
    | .idle => some { m with deinit := .cancelling, pending := false }
    | _ => none
  | .deinitStep => m.deinitStep

/-- `mtk_ptp_clock_init` has run; whatever is in the registers was not latched for a packet. -/
def initial (regs : TsReg → Stamp) : Mac where
  ptpTxSkb := none
  ptpTxClass := 0
  ptpTxStart := 0
  regs := fun reg => { regs reg with owner := none }
  latched := []
  pending := false
  work := .idle
  poll := .idle
  deinit := .idle
  outputs := []

/-! ## What is expected -/

structure Quiet : Prop where
  pending : m.pending = false
  work : m.work = .idle
  poll : m.poll = .idle
  deinit : m.deinit = .idle

/-- A reference that was taken is released once, an event message is given a timestamp with its
sequence id or reported, and a timestamp that is given was latched for the packet. -/
structure Serves : Prop where
  released_le : ∀ skb, m.outputs.count (.released skb) ≤ m.outputs.count (.took skb)
  released : m.Quiet → ∀ skb, m.outputs.count (.released skb) = m.outputs.count (.took skb)
  reported : m.Quiet → ∀ skb, .took skb ∈ m.outputs → skb.IsEvent →
    (∃ time, .stamped skb (skb.seqidAt skb.ptpClass) time ∈ m.outputs) ∨
      .timedOut skb ∈ m.outputs
  own : ∀ skb seqid time, .stamped skb seqid time ∈ m.outputs →
    ∃ stamp ∈ m.latched, stamp.owner = some skb.id ∧
      stamp.sid = (skb.seqidAt skb.ptpClass).setWidth 32 ∧ stamp.time = time

end Mac

end MetaFilogic.Eth.Ptp
