import MetaFilogic.Eth.TxOwner
import MetaFilogic.Library.SlotContents
import Mathlib.Algebra.Group.Prod

/-!
# What the queues are told of packets

The stack limits the bytes of a queue that are on their way: the driver tells a queue of each packet
it puts into the ring, and of those it has released, which one poll adds up while their queue stays
the same.  The device of a packet is found in the flags of its `tx_buf`.
-/

namespace MetaFilogic.Eth

open Circular (contents)
open Function (update)

/-! ## Queues -/

/-- `mac->id` -/
inductive Gmac where
  | gmac1
  | gmac2
  | gmac3
  deriving DecidableEq

/-- Of `tx_buf->flags` those with the port of a packet. -/
structure PortFlags where
  fport0 : Bool
  fport1 : Bool
  fport2 : Bool
  deriving DecidableEq

namespace PortFlags

def clear : PortFlags := ⟨false, false, false⟩

def mark (flags : PortFlags) : Gmac → PortFlags
  | .gmac1 => { flags with fport0 := true }
  | .gmac2 => { flags with fport1 := true }
  | .gmac3 => { flags with fport2 := true }

/-- `mac` in the loops of `mtk_poll_tx_qdma` and `mtk_poll_tx_pdma` -/
def mac (flags : PortFlags) : Gmac :=
  if flags.fport1 then .gmac2 else if flags.fport2 then .gmac3 else .gmac1

end PortFlags

structure TxQueue where
  dev : Gmac
  qid : Nat
  deriving DecidableEq

structure QueuedSkb where
  dev : Gmac
  queueMapping : Nat
  len : Nat

def QueuedSkb.queue (skb : QueuedSkb) : TxQueue := ⟨skb.dev, skb.queueMapping⟩

/-- `netdev_tx_completed_queue(queue, done, bytes)` -/
structure Report where
  queue : TxQueue
  done : Nat
  bytes : Nat
  deriving DecidableEq

abbrev Tally := Nat × Nat

def Report.tally (report : Report) : Tally := (report.done, report.bytes)

def reported (q : TxQueue) (reports : List Report) : Tally :=
  ((reports.filter fun report => report.queue = q).map Report.tally).sum

structure QueueCall where
  call : TxCall
  dev : Gmac
  queueMapping : Nat

/-- The skb that `mtk_tx_map` maps. -/
def QueueCall.queued (x : QueueCall) : QueuedSkb := ⟨x.dev, x.queueMapping, x.call.skb.toMap.len⟩

/-! ## Transmitting -/

/-- What the loops of `mtk_tx_map` work on, and the flags of the buffers. -/
structure MarkedWork where
  work : TxWork
  flags : Nat → PortFlags

section Map

variable (soc : TxSoc) (ring : TxRing) (x : QueueCall)

/-- One pass of the inner loop of `mtk_tx_map`. -/
def mapPieceMarked (piece : Nat × Nat) (w : MarkedWork) : Option (Bool × MarkedWork) :=
  (mapPiece soc ring x.call piece w.work).map fun (ok, work) =>
    let flags := if soc.newDesc piece.1 then .clear else w.flags work.txd
    (ok, ⟨work, if ok then update w.flags work.txd (flags.mark x.dev) else w.flags⟩)

/-- The loops of `mtk_tx_map`. -/
def mapPiecesMarked : List (Nat × Nat) → MarkedWork → Option (Bool × MarkedWork)
  | [], w => some (true, w)
  | piece :: pieces, w =>
    (mapPieceMarked soc ring x piece w).bind fun part =>
      if part.1 then mapPiecesMarked pieces part.2 else some part

/-- `mtk_tx_unmap` of one of the buffers of a ring. -/
def unmapMarked (i : Nat) (work : ((Nat → TxBuf) × DmaRes) × (Nat → PortFlags)) :
    ((Nat → TxBuf) × DmaRes) × (Nat → PortFlags) :=
  (unmapSlot soc i work.1, update work.2 i .clear)

/-- The loop at `err_dma`, from the descriptor `itxd` on. -/
def unwindMarked (txd : Nat) :
    Nat → Nat → ((Nat → TxBuf) × DmaRes) × (Nat → PortFlags) →
      ((Nat → TxBuf) × DmaRes) × (Nat → PortFlags)
  | 0, _, work => work
  | left + 1, itxd, work =>
    let work := unmapMarked soc itxd work
    if ring.next itxd = txd then work else unwindMarked txd left (ring.next itxd) work

structure MarkedRing where
  ring : TxRing
  res : DmaRes
  flags : Nat → PortFlags

/-- The tail of `mtk_tx_map`. -/
def mapEndMarked (ok : Bool) (w : MarkedWork) : Bool × MarkedRing :=
  if ok then
    let part := mapEnd soc ring x.call true w.work
    (true, ⟨part.2.1, part.2.2, w.flags⟩)
  else
    let work := unwindMarked soc ring w.work.txd ring.dmaSize ring.nextFree
      ((w.work.buf, w.work.res), w.flags)
    (false, ⟨{ ring with buf := work.1.1 }, work.1.2, work.2⟩)

def mtkTxMapMarked (res : DmaRes) (flags : Nat → PortFlags) : Option (Bool × MarkedRing) :=
  if x.call.skb.len ≤ 40 ∧ x.call.padto = false then
    some (false, ⟨ring, res.release x.call.skb.head, flags⟩)
  else if ring.nextFree = ring.lastFree then some (false, ⟨ring, res, flags⟩)
  else
    let skb := x.call.skb.toMap
    match x.call.mapped 0 with
    | none =>
      some (false, ⟨{ ring with buf := update ring.buf ring.nextFree .zero }, res,
        update flags ring.nextFree .clear⟩)
    | some addr =>
      (res.map soc.dmaBits addr skb.head).bind fun res =>
        (mapPiecesMarked soc ring x (piecesFrom soc.dmaMaxLen 0 skb.frags)
          ⟨⟨update ring.buf ring.nextFree (headBuf soc addr skb.headlen), res,
            ring.nextFree, 1, 1⟩,
            update flags ring.nextFree (PortFlags.clear.mark x.dev)⟩).map
          fun (ok, w) => mapEndMarked soc ring x ok w

end Map

/-- A ring with the flags of its buffers, the skbs, and what `netdev_tx_sent_queue` and
`netdev_tx_completed_queue` have been told since a queue was reset. -/
structure QueueState where
  tx : TxState
  flags : Nat → PortFlags
  skbs : Nat → QueuedSkb
  sent : TxQueue → Nat
  completed : TxQueue → Nat

structure PollState where
  txq : Option TxQueue
  total : Nat
  done : Nat
  bytes : Nat

def PollState.empty : PollState := ⟨none, 0, 0, 0⟩

/-- `mtk_poll_tx_done(eth, state, mac, skb)`, where `present` says which `eth->netdev` there
are. -/
def mtkPollTxDone (present : Gmac → Bool) (state : PollState) (mac : Gmac) (skb : QueuedSkb) :
    PollState × List Report :=
  let state := { state with total := state.total + 1 }
  if present mac = false then (state, [])
  else
    let txq : TxQueue := ⟨mac, skb.queueMapping⟩
    if state.txq = some txq then
      ({ state with done := state.done + 1, bytes := state.bytes + skb.len }, [])
    else
      ({ state with txq := some txq, done := 1, bytes := skb.len },
        state.txq.toList.map fun q => ⟨q, state.done, state.bytes⟩)

structure PollWork where
  tx : TxState
  flags : Nat → PortFlags
  state : PollState
  reports : List Report

namespace QueueState

variable (soc : TxSoc) (present : Gmac → Bool) (b : QueueState)

def sentQueue (x : QueueCall) : QueueState :=
  { b with
    sent := update b.sent x.queued.queue (b.sent x.queued.queue + x.queued.len) }

def drop (x : QueueCall) : XmitEnd × QueueState :=
  (.dropped, { b with tx := (b.tx.drop x.call).2 })

def mtkStartXmit (x : QueueCall) : Option (XmitEnd × QueueState) :=
  let b : QueueState := { b with skbs := update b.skbs x.call.skb.head x.queued }
  if x.call.resetting then some (b.drop x)
  else if b.tx.ring.freeCount ≤ mtkCalTxdReq soc x.call.skb then some (.busy, b)
  else if x.call.skb.gso ∧ x.call.cowHead = false then some (b.drop x)
  else
    (mtkTxMapMarked soc b.tx.ring x b.tx.res b.flags).map fun (ok, part) =>
      if ok then
        let stack := update b.tx.stack x.call.skb.head false
        (.sent, { b with tx := ⟨part.ring, part.res, stack⟩, flags := part.flags }.sentQueue x)
      else ({ b with tx := { b.tx with ring := part.ring, res := part.res },
                     flags := part.flags }.drop x)

def giveBack (slot : Nat) (w : PollWork) : PollWork :=
  { w with tx := w.tx.giveBack soc slot, flags := update w.flags slot .clear }

def release (slot m : Nat) (w : PollWork) : PollWork :=
  let part := mtkPollTxDone present w.state (w.flags slot).mac (b.skbs m)
  giveBack soc slot { w with state := part.1, reports := w.reports ++ part.2 }

def pollTx (slot next : Nat → Nat) (done : TxDone) : Nat → Nat → Nat → PollWork → Nat × PollWork
  | 0, _, cpu, w => (cpu, w)
  | left + 1, budget, cpu, w =>
    if cpu = done.dma ∨ budget = 0 ∨ done.owner cpu = false then (cpu, w)
    else
      match (w.tx.ring.buf (slot cpu)).skb with
      | .null => (cpu, w)
      | .dummy => pollTx slot next done left budget (next cpu) (giveBack soc (slot cpu) w)
      | .skb m =>
        pollTx slot next done left (budget - 1) (next cpu) (b.release soc present (slot cpu) m w)

def mtkPollTxQdma (budget : Nat) (done : TxDone) : PollWork :=
  let ring := b.tx.ring
  let part := b.pollTx soc present ring.next ring.next done ring.dmaSize budget ring.lastFreePtr
    ⟨b.tx, b.flags, .empty, []⟩
  { part.2 with tx := { part.2.tx with ring.lastFreePtr := part.1 } }

def mtkPollTxPdma (budget : Nat) (done : TxDone) : PollWork :=
  let ring := b.tx.ring
  let part := b.pollTx soc present id (fun cpu => nextDespIdx cpu ring.dmaSize) done ring.dmaSize
    budget ring.cpuIdx ⟨b.tx, b.flags, .empty, []⟩
  { part.2 with tx := { part.2.tx with ring.cpuIdx := part.1 } }

def PollWork.flush (w : PollWork) : List Report :=
  w.reports ++ w.state.txq.toList.map fun q => ⟨q, w.state.done, w.state.bytes⟩

def mtkPollTx (budget : Nat) (done : TxDone) : QueueState × List Report × Nat :=
  let w := if soc.qdma then b.mtkPollTxQdma soc present budget done
    else b.mtkPollTxPdma soc present budget done
  let reports := PollWork.flush w
  ({ b with
     tx := w.tx
     flags := w.flags
     completed := fun q => b.completed q + (reported q reports).2 }, reports, w.state.total)

/-- The ring is cleaned and its queues reset by `mtk_dma_free`, and then set up again. -/
def restart (alloc : TxAllocCall) : Option QueueState :=
  let part := mtkTxClean soc b.tx.ring b.tx.res
  let part := mtkTxAlloc soc alloc part.1 part.2
  if part.1 then
    some { b with
      tx := { b.tx with ring := part.2.1, res := part.2.2 }
      flags := fun _ => .clear
      sent := fun _ => 0
      completed := fun _ => 0 }
  else none

/-- The descriptor the hardware has come to is one of those in use, or the next. -/
def DoneWithin (soc : TxSoc) (s : TxState) (done : TxDone) : Prop :=
  done.dma < soc.txDmaSize ∧
    ((done.dma + soc.txDmaSize - if soc.qdma then s.ring.lastFreePtr else s.ring.cpuIdx) %
      soc.txDmaSize : Nat) + s.ring.freeCount + 2 ≤ soc.txDmaSize

instance (s : TxState) (done : TxDone) : Decidable (DoneWithin soc s done) :=
  inferInstanceAs (Decidable (_ ∧ _))

inductive Event where
  | skb
  | xmit (x : QueueCall)
  | poll (budget : Nat) (done : TxDone)
  | restart (alloc : TxAllocCall)

/-- The stack makes an skb, or hands one to the driver, or the driver polls, or it starts again. -/
def step (b : QueueState) : Event → Option QueueState
  | .skb =>
    some { b with
      tx := { b.tx with
        res := b.tx.res.alloc, stack := update b.tx.stack b.tx.res.next true } }
  | .xmit x =>
    if b.tx.stack x.call.skb.head ∧ present x.dev then (b.mtkStartXmit soc x).map Prod.snd
    else none
  | .poll budget done =>
    if DoneWithin soc b.tx done then some (b.mtkPollTx soc present budget done).1 else none
  | .restart alloc => b.restart soc alloc

/-- A ring after `mtk_tx_alloc`, when no queue has been told anything. -/
def start (soc : TxSoc) (alloc : TxAllocCall) (ring : TxRing) : QueueState :=
  ⟨TxState.start soc alloc ring, fun _ => .clear, fun _ => ⟨.gmac1, 0, 0⟩, fun _ => 0, fun _ => 0⟩

/-! ## What is in the ring -/

def packetOf (q : TxQueue) (i : Nat) : Option Nat :=
  match (b.tx.ring.buf i).skb with
  | .skb m => if (b.skbs m).queue = q then some m else none
  | .null => none
  | .dummy => none

def inRing (q : TxQueue) : List Nat := contents soc.txDmaSize (b.packetOf q)

def released (b' : QueueState) (q : TxQueue) : List Nat :=
  contents soc.txDmaSize fun i =>
    if (b'.tx.ring.buf i).skb = .null then b.packetOf q i else none

def HasPackets : Prop :=
  ∃ i < soc.txDmaSize, (b.tx.ring.buf i).skb ≠ .null ∧ (b.tx.ring.buf i).skb ≠ .dummy

instance : Decidable (b.HasPackets soc) := inferInstanceAs (Decidable (∃ i < _, _))

def tally (packets : List Nat) : Tally :=
  (packets.length, (packets.map fun m => (b.skbs m).len).sum)

end QueueState

end MetaFilogic.Eth
