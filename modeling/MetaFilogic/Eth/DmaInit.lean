import MetaFilogic.Eth.TxRing

/-!
# Setting up the DMA

`mtk_dma_init` allocates the scratch memory of the QDMA, the transmit rings and the receive rings,
and stops where something is not to be had.  `mtk_dma_free` takes down what it finds, after an
error as after use.
-/

namespace MetaFilogic.Eth

open Function (update)

/-- What decides which memory and rings there are.  `lroV2` says what the driver is built for;
`fqInSram` and `rxInSram` are what `mtk_validate_sram_range` says. -/
structure DmaSoc where
  rx : RxSoc
  tx : TxSoc
  fqDmaSize : Nat
  fqInSram : Bool
  rxInSram : Nat → Bool
  hwlro : Bool
  rss : Bool
  lroV2 : Bool
  dma36 : tx.dma36 = rx.dma36
  fq_pos : tx.qdma = true → 0 < fqDmaSize
  lro_rss : hwlro = true → rss = true → lroV2 = true
  pdma : tx.qdma = false → rx.mt7628 = true ∧ rx.hasSram = false ∧ tx.inSram = false ∧
    hwlro = false ∧ rss = false

def MTK_MAX_TX_RING_NUM : Nat := 4

def MTK_FQ_DMA_LENGTH : Nat := 2048

namespace DmaSoc

variable (soc : DmaSoc)

def txRings : List Nat := if soc.tx.qdma then [0] else List.range MTK_MAX_TX_RING_NUM

/-- `MTK_HW_LRO_RING(i)` for all `i`, when they are in use. -/
def lroRings : List Nat :=
  if soc.hwlro then if soc.lroV2 then [4, 5, 6, 7] else [1, 2, 3] else []

/-- `MTK_RSS_RING(i)` for all `i`, when they are in use. -/
def rssRings : List Nat := if soc.rss then [1, 2, 3] else []

/-- `DIV_ROUND_UP(soc->txrx.fq_dma_size, MTK_FQ_DMA_LENGTH)` -/
def fqHeads : Nat := (soc.fqDmaSize + (MTK_FQ_DMA_LENGTH - 1)) / MTK_FQ_DMA_LENGTH

end DmaSoc

structure FqRing where
  scratchRing : Option DmaRegion
  scratchHead : Nat → Option Nat
  inSram : Bool

structure DmaState where
  fqRing : FqRing
  txRing : Nat → TxRing
  rxRing : Nat → RxRing
  rxRingQdma : RxRing
  res : DmaRes

def RxRing.unused : RxRing :=
  ⟨none, fun _ => none, none, fun _ => ⟨0, 0, 0, 0, 0, 0, 0⟩, 0, 0, 0, false⟩

def DmaState.boot (res : DmaRes) : DmaState :=
  ⟨⟨none, fun _ => none, false⟩, fun _ => .unused, fun _ => .unused, .unused, res⟩

structure FqCall where
  coherent : Bool
  head : Nat → Bool
  mapped : Nat → Option DmaAddr

structure RxOutcome where
  array : Bool
  buffer : Nat → Bool
  coherent : Bool
  mapped : Nat → Option DmaAddr

structure InitCall where
  busy : Bool
  rxBufLen : Nat
  fq : FqCall
  tx : Nat → TxAllocCall
  rxQdma : RxOutcome
  rx : Nat → RxOutcome

namespace DmaState

variable (soc : DmaSoc) (cfg : KernelConfig) (call : InitCall)

/-! ## Allocating -/

/-- A part of `mtk_dma_init` that may fail. -/
abbrev Part := Option (Bool × DmaState)

def Part.andThen (part : Part) (next : DmaState → Part) : Part :=
  part.bind fun p => if p.1 then next p.2 else some p

def forRings (alloc : Nat → DmaState → Part) : List Nat → DmaState → Part
  | [], s => some (true, s)
  | i :: rings, s => (alloc i s).andThen (forRings alloc rings)

def allocScratchRing (s : DmaState) : Bool × DmaState :=
  if soc.rx.hasSram && soc.fqInSram then
    (true, { s with
      fqRing := { s.fqRing with scratchRing := some .sram, inSram := true } })
  else if call.fq.coherent then
    (true, { s with
      fqRing := { s.fqRing with scratchRing := some (.coherent s.res.next) }
      res := s.res.alloc })
  else (false, { s with fqRing := { s.fqRing with scratchRing := none } })

/-- One pass of the loop of `mtk_init_fq_dma`. -/
def initHead (j : Nat) (s : DmaState) : Part :=
  if call.fq.head j then
    let head := s.res.next
    let s := { s with
      fqRing := { s.fqRing with scratchHead := update s.fqRing.scratchHead j (some head) }
      res := s.res.alloc }
    match call.fq.mapped j with
    | none => some (false, s)
    | some addr => (s.res.map soc.rx.dmaBits addr head).map fun res => (true, { s with res := res })
  else
    some (false, { s with
      fqRing := { s.fqRing with scratchHead := update s.fqRing.scratchHead j none } })

def mtkInitFqDma (s : DmaState) : Part :=
  Part.andThen (some (allocScratchRing soc call s))
    (forRings (initHead soc call) (List.range soc.fqHeads))

def txAlloc (i : Nat) (s : DmaState) : Part :=
  let part := mtkTxAlloc soc.tx (call.tx i) (s.txRing i) s.res
  some (part.1, { s with txRing := update s.txRing i part.2.1, res := part.2.2 })

def rxCall (flags : RxFlags) (sramFits : Bool) (outcome : RxOutcome) : RxAllocCall :=
  ⟨flags, call.rxBufLen, sramFits, outcome.array, outcome.buffer, outcome.coherent, outcome.mapped⟩

def rxAlloc (flags : RxFlags) (i : Nat) (s : DmaState) : Part :=
  (mtkRxAlloc soc.rx cfg (rxCall call flags (soc.rxInSram i) (call.rx i)) (s.rxRing i)
    s.res).map fun part =>
      (part.1, { s with rxRing := update s.rxRing i part.2.1, res := part.2.2 })

/-- `mtk_rx_alloc(eth, 0, MTK_RX_FLAGS_QDMA)` -/
def rxAllocQdma (s : DmaState) : Part :=
  (mtkRxAlloc soc.rx cfg (rxCall call .qdma false call.rxQdma) s.rxRingQdma s.res).map fun part =>
    (part.1, { s with rxRingQdma := part.2.1, res := part.2.2 })

def mtkDmaInit (s : DmaState) : Part :=
  if call.busy then some (false, s)
  else
    Part.andThen (if soc.tx.qdma then mtkInitFqDma soc call s else some (true, s)) fun s =>
    Part.andThen (forRings (txAlloc soc call) soc.txRings s) fun s =>
    Part.andThen (if soc.tx.qdma then rxAllocQdma soc cfg call s else some (true, s)) fun s =>
    Part.andThen (rxAlloc soc cfg call .normal 0 s) fun s =>
    Part.andThen (forRings (rxAlloc soc cfg call .hwlro) soc.lroRings s) fun s =>
      forRings (rxAlloc soc cfg call .normal) soc.rssRings s

end DmaState

/-! ## Taking down -/

/-- The memory of a buffer whose mapping is taken down: to take down another's is an error. -/
def DmaRes.unmapFor (res : DmaRes) (addr : DmaAddr) (memory : Nat) : DmaRes :=
  if res.mapped addr = some memory then
    { res with mapped := update res.mapped addr none }
  else { res.unmap addr with fault := true }

/-- One pass of the loop of `mtk_rx_clean`. -/
def cleanSlot (soc : RxSoc) (ring : RxRing) (i : Nat) (res : DmaRes) : DmaRes :=
  match ring.data i with
  | none => res
  | some buffer =>
    if (ring.desc i).rxd1 = 0 then res
    else (res.unmapFor (soc.addr (ring.desc i)) buffer).release buffer

/-- The loop of `mtk_rx_clean` over the first slots. -/
def cleanSlots (soc : RxSoc) (ring : RxRing) : Nat → DmaRes → DmaRes
  | 0, res => res
  | i + 1, res => cleanSlot soc ring i (cleanSlots soc ring i res)

def cleanData (soc : RxSoc) (ring : RxRing) (res : DmaRes) : RxRing × DmaRes :=
  match ring.array, ring.dma with
  | some memory, some _ =>
    ({ ring with array := none }, (cleanSlots soc ring ring.dmaSize res).release memory)
  | _, _ => (ring, res)

def mtkRxClean (soc : RxSoc) (inSram : Bool) (ring : RxRing) (res : DmaRes) : RxRing × DmaRes :=
  let part := cleanData soc ring res
  if inSram then part
  else
    match part.1.dma with
    | none => part
    | some region => ({ part.1 with dma := none }, part.2.freeRegion region)

namespace DmaState

variable (soc : DmaSoc)

def freeScratchRing (s : DmaState) : DmaState :=
  if s.fqRing.inSram then s
  else
    match s.fqRing.scratchRing with
    | none => s
    | some region =>
      { s with fqRing := { s.fqRing with scratchRing := none }, res := s.res.freeRegion region }

def txClean (s : DmaState) (i : Nat) : DmaState :=
  let part := mtkTxClean soc.tx (s.txRing i) s.res
  { s with txRing := update s.txRing i part.1, res := part.2 }

def rxClean (inSram : RxRing → Bool) (s : DmaState) (i : Nat) : DmaState :=
  let part := mtkRxClean soc.rx (inSram (s.rxRing i)) (s.rxRing i) s.res
  { s with rxRing := update s.rxRing i part.1, res := part.2 }

/-- `mtk_rx_clean(eth, &eth->rx_ring_qdma, 0)` -/
def rxCleanQdma (s : DmaState) : DmaState :=
  let part := mtkRxClean soc.rx false s.rxRingQdma s.res
  { s with rxRingQdma := part.1, res := part.2 }

/-- `kfree` of one of the scratch heads. -/
def freeHead (s : DmaState) (j : Nat) : DmaState :=
  { s with
    fqRing := { s.fqRing with scratchHead := update s.fqRing.scratchHead j none }
    res :=
      match s.fqRing.scratchHead j with
      | none => s.res
      | some head => s.res.release head }

def mtkDmaFree (s : DmaState) : DmaState :=
  let s := soc.txRings.foldl (txClean soc) s.freeScratchRing
  let s := rxCleanQdma soc (rxClean soc RxRing.inSram s 0)
  let s := soc.lroRings.foldl (rxClean soc fun _ => false) s
  let s := soc.rssRings.foldl (rxClean soc RxRing.inSram) s
  (List.range soc.fqHeads).foldl freeHead s

def mtkStartDma (cfg : KernelConfig) (call : InitCall) (s : DmaState) : Part :=
  (mtkDmaInit soc cfg call s).map fun part =>
    if part.1 then part else (false, mtkDmaFree soc part.2)

/-- What may have happened to the rings when they are taken down after use: buffers and packets
have been exchanged, but the rings have the memory they were given. -/
structure InUse (s s' : DmaState) : Prop where
  fqRing : s'.fqRing = s.fqRing
  tx : ∀ i, s'.txRing i = { s'.txRing i with
    array := (s.txRing i).array, dma := (s.txRing i).dma, dmaPdma := (s.txRing i).dmaPdma
    inSram := (s.txRing i).inSram }
  rx : ∀ i, s'.rxRing i = { s'.rxRing i with
    array := (s.rxRing i).array, dma := (s.rxRing i).dma, inSram := (s.rxRing i).inSram }
  rxQdma : s'.rxRingQdma = { s'.rxRingQdma with
    array := s.rxRingQdma.array, dma := s.rxRingQdma.dma, inSram := s.rxRingQdma.inSram }
  fresh : ∀ m, s'.res.next ≤ m → s'.res.live m = false

/-- The states in which `mtk_start_dma` may find the device: at first, after a start that failed,
and after one that did not and the use that followed. -/
inductive Idle (cfg : KernelConfig) : DmaState → Prop where
  | boot (res : DmaRes) (fresh : ∀ m, res.next ≤ m → res.live m = false) : Idle cfg (boot res)
  | failed {s s' : DmaState} (call : InitCall) (idle : Idle cfg s)
    (started : mtkStartDma soc cfg call s = some (false, s')) : Idle cfg s'
  | stopped {s s' s'' : DmaState} (call : InitCall) (idle : Idle cfg s)
    (started : mtkStartDma soc cfg call s = some (true, s')) (inUse : InUse s' s'') :
    Idle cfg (mtkDmaFree soc s'')

end DmaState

end MetaFilogic.Eth
