import MetaFilogic.Eth.RxRing

/-!
# The transmit rings

A packet takes one descriptor for its linear part and some for its fragments, from the one after
the last packet on; the hardware works them off in ring order and the driver gives back what it
has done.  A QDMA descriptor carries one piece of a packet, a PDMA descriptor two.
-/

namespace MetaFilogic.Eth

open Function (update)

/-! ## Rings -/

def MTK_MIN_TX_LENGTH : Nat := 60

def MAX_SKB_FRAGS : Nat := 17

/-- What `struct mtk_soc_data` has about transmitting.  `inSram` is `has_sram` and what
`mtk_validate_sram_range` says of the ring. -/
structure TxSoc where
  qdma : Bool
  dma36 : Bool
  inSram : Bool
  dmaMaxLen : Nat
  txDmaSize : Nat
  dmaMaxLen_pos : 0 < dmaMaxLen
  txDmaSize_pow : ∃ k, txDmaSize = 2 ^ k

def TxSoc.dmaBits (soc : TxSoc) : Nat := if soc.dma36 then 36 else 32

/-- What `tx_buf->skb` points to; `dummy` is `MTK_DMA_DUMMY_DESC`. -/
inductive SkbPtr where
  | null
  | dummy
  | skb (memory : Nat)
  deriving DecidableEq

/-- `struct mtk_tx_buf`: of the flags those that say how its piece is mapped. -/
structure TxBuf where
  skb : SkbPtr
  single0 : Bool
  page0 : Bool
  dmaAddr0 : DmaAddr
  dmaLen0 : Nat
  dmaAddr1 : DmaAddr
  dmaLen1 : Nat
  deriving DecidableEq

def TxBuf.zero : TxBuf := ⟨.null, false, false, 0, 0, 0, 0⟩

/-- `struct mtk_tx_ring`: `array` is the memory of `ring->buf`, and descriptors are numbered from
`ring->dma` on. -/
structure TxRing where
  array : Option Nat
  buf : Nat → TxBuf
  dma : Option DmaRegion
  dmaPdma : Option Nat
  nextFree : Nat
  lastFree : Nat
  lastFreePtr : Nat
  cpuIdx : Nat
  freeCount : Int
  thresh : Nat
  dmaSize : Nat
  inSram : Bool

def TxRing.unused : TxRing := ⟨none, fun _ => .zero, none, none, 0, 0, 0, 0, 0, 0, 0, false⟩

/-- The descriptor that `txd2` of a descriptor points to. -/
def TxRing.next (ring : TxRing) (i : Nat) : Nat := (i + 1) % ring.dmaSize

/-! ## Memory of a ring -/

structure TxAllocCall where
  array : Bool
  coherent : Bool
  pdma : Bool

/-- `dma_free_coherent` of a region; that of the SRAM is none of its memory. -/
def DmaRes.freeRegion (res : DmaRes) : DmaRegion → DmaRes
  | .coherent memory => res.release memory
  | .sram => { res with fault := true }

section Alloc

variable (soc : TxSoc) (call : TxAllocCall)

def allocTxRegion (ring : TxRing) (res : DmaRes) : Bool × TxRing × DmaRes :=
  if soc.inSram then (true, { ring with dma := some .sram, inSram := true }, res)
  else if call.coherent then (true, { ring with dma := some (.coherent res.next) }, res.alloc)
  else (false, { ring with dma := none }, res)

def allocPdmaRegion (ring : TxRing) (res : DmaRes) : Bool × TxRing × DmaRes :=
  if soc.qdma then (true, ring, res)
  else if call.pdma then (true, { ring with dmaPdma := some res.next }, res.alloc)
  else (false, { ring with dmaPdma := none }, res)

def TxRing.setUp (ring : TxRing) : TxRing :=
  { ring with
    dmaSize := soc.txDmaSize
    freeCount := soc.txDmaSize - 2
    nextFree := 0
    lastFree := soc.txDmaSize - 1
    lastFreePtr := soc.txDmaSize - 1
    thresh := MAX_SKB_FRAGS
    cpuIdx := 0 }

def mtkTxAlloc (ring : TxRing) (res : DmaRes) : Bool × TxRing × DmaRes :=
  if call.array then
    let part := allocTxRegion soc call
      { ring with array := some res.next, buf := fun _ => .zero } res.alloc
    if part.1 then
      let part := allocPdmaRegion soc call part.2.1 part.2.2
      if part.1 then (true, part.2.1.setUp soc, part.2.2) else part
    else part
  else (false, { ring with array := none }, res)

end Alloc

section Unmap

variable (soc : TxSoc)

/-- The addresses `mtk_tx_unmap` unmaps. -/
def TxBuf.addrs (buf : TxBuf) : List DmaAddr :=
  if soc.qdma then if buf.single0 || buf.page0 then [buf.dmaAddr0] else []
  else (if buf.dmaLen0 ≠ 0 then [buf.dmaAddr0] else []) ++
    if buf.dmaLen1 ≠ 0 then [buf.dmaAddr1] else []

/-- The skb a `tx_buf` points to is freed. -/
def SkbPtr.free (res : DmaRes) : SkbPtr → DmaRes
  | .null => res
  | .dummy => res
  | .skb memory => res.release memory

def mtkTxUnmap (buf : TxBuf) (res : DmaRes) : TxBuf × DmaRes :=
  ({ buf with skb := .null, single0 := false, page0 := false },
    buf.skb.free ((buf.addrs soc).foldl DmaRes.unmap res))

/-- `mtk_tx_unmap` of one of the buffers of a ring. -/
def unmapSlot (i : Nat) (work : (Nat → TxBuf) × DmaRes) : (Nat → TxBuf) × DmaRes :=
  let part := mtkTxUnmap soc (work.1 i) work.2
  (update work.1 i part.1, part.2)

/-- The loop of `mtk_tx_clean` over the first buffers. -/
def unmapSlots : Nat → (Nat → TxBuf) × DmaRes → (Nat → TxBuf) × DmaRes
  | 0, work => work
  | i + 1, work => unmapSlot soc i (unmapSlots i work)

def cleanBufs (ring : TxRing) (res : DmaRes) : TxRing × DmaRes :=
  match ring.array with
  | none => (ring, res)
  | some memory =>
    let work := unmapSlots soc soc.txDmaSize (ring.buf, res)
    ({ ring with array := none, buf := work.1 }, work.2.release memory)

def mtkTxClean (ring : TxRing) (res : DmaRes) : TxRing × DmaRes :=
  let part := cleanBufs soc ring res
  let ring := part.1
  let part : Option DmaRegion × DmaRes :=
    match ring.dma with
    | none => (none, part.2)
    | some region => if ring.inSram then (some region, part.2) else (none, part.2.freeRegion region)
  let res :=
    match ring.dmaPdma with
    | none => part.2
    | some memory => part.2.release memory
  ({ ring with dma := part.1, dmaPdma := none }, res)

end Unmap

/-! ## Transmitting -/

/-- What the driver looks at of an skb: its memory, the length of its linear part, the lengths of
its fragments and whether it is a GSO packet. -/
structure TxSkb where
  head : Nat
  headlen : Nat
  frags : List Nat
  gso : Bool

def TxSkb.len (skb : TxSkb) : Nat := skb.headlen + skb.frags.sum

/-- One call of `mtk_start_xmit`: whether the device is being reset, and how `skb_cow_head`,
`skb_put_padto` and the mappings of the pieces end. -/
structure TxCall where
  skb : TxSkb
  resetting : Bool
  cowHead : Bool
  padto : Bool
  mapped : Nat → Option DmaAddr

/-- The packet after `skb_put_padto`, which makes it linear. -/
def TxSkb.padded (skb : TxSkb) : TxSkb := { skb with headlen := MTK_MIN_TX_LENGTH, frags := [] }

/-- The packet `mtk_tx_map` maps. -/
def TxSkb.toMap (skb : TxSkb) : TxSkb := if skb.len ≤ 40 then skb.padded else skb

/-- The sizes that the inner loop of `mtk_tx_map` cuts a fragment into. -/
def fragPieces (maxLen : Nat) : Nat → Nat → List Nat
  | 0, _ => []
  | left + 1, fragSize =>
    if fragSize = 0 then []
    else min fragSize maxLen :: fragPieces maxLen left (fragSize - min fragSize maxLen)

def piecesFrom (maxLen : Nat) : Nat → List Nat → List (Nat × Nat)
  | _, [] => []
  | i, fragSize :: frags =>
    (fragPieces maxLen fragSize fragSize).map (fun size => (i, size)) ++
      piecesFrom maxLen (i + 1) frags

/-- What the loops of `mtk_tx_map` work on. -/
structure TxWork where
  buf : Nat → TxBuf
  res : DmaRes
  txd : Nat
  nDesc : Nat
  k : Nat

section Map

variable (soc : TxSoc)

def TxSoc.newDesc (i : Nat) : Bool := soc.qdma || decide (i % 2 = 1)

def setupTxBuf (buf : TxBuf) (mappedAddr : DmaAddr) (size idx : Nat) : TxBuf :=
  if soc.qdma then { buf with dmaAddr0 := mappedAddr, dmaLen0 := size }
  else if idx % 2 = 1 then { buf with dmaAddr1 := mappedAddr, dmaLen1 := size }
  else { buf with skb := .dummy, dmaAddr0 := mappedAddr, dmaLen0 := size }

/-- A mapped piece is put into the descriptor `txd`. -/
def TxWork.place (w : TxWork) (newDesc : Bool) (addr : DmaAddr) (size : Nat) (res : DmaRes) :
    TxWork :=
  let buf := if newDesc then TxBuf.zero else w.buf w.txd
  { w with
    buf := update w.buf w.txd
      (setupTxBuf soc { buf with skb := .dummy, page0 := true } addr size w.k)
    res := res
    k := w.k + 1 }

variable (ring : TxRing) (call : TxCall)

/-- One pass of the inner loop of `mtk_tx_map`; `false` when it goes to `err_dma`. -/
def mapPiece (piece : Nat × Nat) (w : TxWork) : Option (Bool × TxWork) :=
  let newDesc := soc.newDesc piece.1
  let w := if newDesc then { w with txd := ring.next w.txd } else w
  if newDesc ∧ w.txd = ring.lastFree then some (false, w)
  else
    let w := if newDesc then { w with nDesc := w.nDesc + 1 } else w
    match call.mapped w.k with
    | none => some (false, w)
    | some addr =>
      (w.res.map soc.dmaBits addr call.skb.head).map fun res =>
        (true, w.place soc newDesc addr piece.2 res)

/-- The loops of `mtk_tx_map`. -/
def mapPieces : List (Nat × Nat) → TxWork → Option (Bool × TxWork)
  | [], w => some (true, w)
  | piece :: pieces, w =>
    (mapPiece soc ring call piece w).bind fun part =>
      if part.1 then mapPieces pieces part.2 else some part

/-- The loop at `err_dma`, from the descriptor `itxd` on. -/
def unwind (txd : Nat) : Nat → Nat → (Nat → TxBuf) × DmaRes → (Nat → TxBuf) × DmaRes
  | 0, _, work => work
  | left + 1, itxd, work =>
    let work := unmapSlot soc itxd work
    if ring.next itxd = txd then work else unwind txd left (ring.next itxd) work

/-- The `tx_buf` of the linear part. -/
def headBuf (addr : DmaAddr) (size : Nat) : TxBuf :=
  setupTxBuf soc { TxBuf.zero with single0 := true } addr size 0

/-- The tail of `mtk_tx_map`: the packet is published, or all is undone. -/
def mapEnd (ok : Bool) (w : TxWork) : Bool × TxRing × DmaRes :=
  if ok then
    (true,
      { ring with
        buf := update w.buf ring.nextFree
          { w.buf ring.nextFree with skb := .skb call.skb.head }
        nextFree := ring.next w.txd
        freeCount := ring.freeCount - w.nDesc },
      w.res)
  else
    let work := unwind soc ring w.txd ring.dmaSize ring.nextFree (w.buf, w.res)
    (false, { ring with buf := work.1 }, work.2)

/-- `mtk_tx_map(skb, dev, tx_num, ring, gso)`; `false` is an error. -/
def mtkTxMap (res : DmaRes) : Option (Bool × TxRing × DmaRes) :=
  if call.skb.len ≤ 40 ∧ call.padto = false then some (false, ring, res.release call.skb.head)
  else if ring.nextFree = ring.lastFree then some (false, ring, res)
  else
    let skb := call.skb.toMap
    match call.mapped 0 with
    | none =>
      some (false, { ring with buf := update ring.buf ring.nextFree .zero }, res)
    | some addr =>
      (res.map soc.dmaBits addr skb.head).bind fun res =>
        (mapPieces soc ring call (piecesFrom soc.dmaMaxLen 0 skb.frags)
          ⟨update ring.buf ring.nextFree (headBuf soc addr skb.headlen), res,
            ring.nextFree, 1, 1⟩).map fun (ok, w) => mapEnd soc ring call ok w

def mtkCalTxdReq (skb : TxSkb) : Nat :=
  if skb.gso then
    1 + (skb.frags.map fun size => (size + soc.dmaMaxLen - 1) / soc.dmaMaxLen).sum
  else 1 + skb.frags.length

end Map

/-- A ring with what is allocated and mapped; `stack` are the skbs in the hands of the network
stack. -/
structure TxState where
  ring : TxRing
  res : DmaRes
  stack : Nat → Bool

/-- How `mtk_start_xmit` ends: the first two return `NETDEV_TX_OK`, the last
`NETDEV_TX_BUSY`. -/
inductive XmitEnd where
  | sent
  | dropped
  | busy
  deriving DecidableEq

/-- What a poll reads of the hardware: the index the hardware has come to, and the bit
`TX_DMA_OWNER_CPU` of descriptors. -/
structure TxDone where
  dma : Nat
  owner : Nat → Bool

namespace TxState

variable (soc : TxSoc) (s : TxState)

/-- The end of `mtk_start_xmit` at `drop`. -/
def drop (call : TxCall) : XmitEnd × TxState :=
  (.dropped,
    { s with
      res := s.res.release call.skb.head
      stack := update s.stack call.skb.head false })

def mtkStartXmit (call : TxCall) : Option (XmitEnd × TxState) :=
  if call.resetting then some (s.drop call)
  else if s.ring.freeCount ≤ mtkCalTxdReq soc call.skb then some (.busy, s)
  else if call.skb.gso ∧ call.cowHead = false then some (s.drop call)
  else
    (mtkTxMap soc s.ring call s.res).map fun (ok, ring, res) =>
      if ok then (.sent, ⟨ring, res, update s.stack call.skb.head false⟩)
      else ({ s with ring := ring, res := res }.drop call)

def giveBack (slot : Nat) : TxState :=
  let work := unmapSlot soc slot (s.ring.buf, s.res)
  { s with
    ring := { s.ring with buf := work.1, lastFree := slot, freeCount := s.ring.freeCount + 1 }
    res := work.2 }

/-- The loop of `mtk_poll_tx_qdma` and `mtk_poll_tx_pdma`, which look at different descriptors for
an index; it returns the index it has come to. -/
def pollTx (slot next : Nat → Nat) (done : TxDone) :
    Nat → Nat → Nat → TxState → Nat × TxState
  | 0, _, cpu, s => (cpu, s)
  | left + 1, budget, cpu, s =>
    if cpu = done.dma ∨ budget = 0 ∨ done.owner cpu = false then (cpu, s)
    else
      match (s.ring.buf (slot cpu)).skb with
      | .null => (cpu, s)
      | .dummy => pollTx slot next done left budget (next cpu) (s.giveBack soc (slot cpu))
      | .skb _ => pollTx slot next done left (budget - 1) (next cpu) (s.giveBack soc (slot cpu))

def mtkPollTxQdma (budget : Nat) (done : TxDone) : TxState :=
  let part := pollTx soc s.ring.next s.ring.next done s.ring.dmaSize budget s.ring.lastFreePtr s
  { part.2 with ring.lastFreePtr := part.1 }

def mtkPollTxPdma (budget : Nat) (done : TxDone) : TxState :=
  let part := pollTx soc id (fun cpu => nextDespIdx cpu s.ring.dmaSize) done s.ring.dmaSize budget
    s.ring.cpuIdx s
  { part.2 with ring.cpuIdx := part.1 }

def mtkPollTx (budget : Nat) (done : TxDone) : TxState :=
  if soc.qdma then s.mtkPollTxQdma soc budget done else s.mtkPollTxPdma soc budget done

inductive Event where
  | skb
  | xmit (call : TxCall)
  | poll (budget : Nat) (done : TxDone)

/-- The stack makes an skb, or hands one to the driver, or the driver polls.  A call is a step when
all of its mappings are possible. -/
def step (s : TxState) : Event → Option TxState
  | .skb =>
    some { s with res := s.res.alloc, stack := update s.stack s.res.next true }
  | .xmit call =>
    if s.stack call.skb.head then (s.mtkStartXmit soc call).map Prod.snd else none
  | .poll budget done => some (s.mtkPollTx soc budget done)

def ofAlloc (ring : TxRing) (res : DmaRes) : TxState := ⟨ring, res, fun _ => false⟩

end TxState

end MetaFilogic.Eth
