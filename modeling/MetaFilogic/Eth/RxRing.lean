import MetaFilogic.Eth.Dma

/-!
# The receive rings

Each descriptor of a ring carries the DMA address of a buffer.  The hardware fills the buffers
in ring order and marks their descriptors as done; the driver takes the buffer of a done
descriptor out, puts a new one in its place, and gives the descriptor back.  When anything fails
on the way it gives the old buffer back.
-/

namespace MetaFilogic.Eth

/-! ## Descriptors -/

/-- `struct mtk_rx_dma_v2` -/
structure RxDesc where
  rxd1 : BitVec 32
  rxd2 : BitVec 32
  rxd3 : BitVec 32
  rxd4 : BitVec 32
  rxd5 : BitVec 32
  rxd6 : BitVec 32
  rxd7 : BitVec 32
  deriving DecidableEq

def RX_DMA_DONE : BitVec 32 := 0x80000000

def RX_DMA_LSO : BitVec 32 := 0x40000000

/-- The bit `RX_DMA_DONE` of `rxd2`. -/
def RxDesc.done (rxd : RxDesc) : Bool := rxd.rxd2.getLsbD 31

def RX_DMA_ADDR64_MASK : BitVec 32 := 0xf

def fieldGetAddr64 (x : BitVec 32) : BitVec 64 := (x &&& RX_DMA_ADDR64_MASK).setWidth 64

def rxDmaGetAddr64 (x : BitVec 32) : BitVec 64 := fieldGetAddr64 x <<< 32

def rxDmaPrepAddr64 (x : DmaAddr) : BitVec 64 :=
  ((x >>> 32).setWidth 32 &&& RX_DMA_ADDR64_MASK).setWidth 64

/-- Where the length of a buffer is in `rxd2`. -/
inductive RxLen where
  | bits14
  | bits16
  deriving DecidableEq

/-- `dma_max_len` -/
def RxLen.mask : RxLen → BitVec 32
  | .bits14 => 0x3fff
  | .bits16 => 0xffff

/-- `dma_len_offset` -/
def RxLen.shift : RxLen → Nat
  | .bits14 => 16
  | .bits16 => 8

def RxLen.plen0 (len : RxLen) (x : BitVec 32) : BitVec 32 := (x &&& len.mask) <<< len.shift

def RxLen.getPlen0 (len : RxLen) (x : BitVec 32) : BitVec 32 := (x >>> len.shift) &&& len.mask

/-- What `struct mtk_soc_data` has about receiving. -/
structure RxSoc where
  mt7628 : Bool
  netsysRxV2 : Bool
  dma36 : Bool
  rx9k : Bool
  hasSram : Bool
  len : RxLen
  rxDmaSize : Nat
  rxDmaSize_pow : ∃ k ≤ 15, rxDmaSize = 2 ^ k
  dma36_v2 : dma36 = true → mt7628 = false ∧ len = .bits16
  rx9k_v2 : rx9k = true → len = .bits16

namespace RxSoc

variable (soc : RxSoc)

def dmaBits : Nat := if soc.dma36 then 36 else 32

/-- The address in a descriptor, as the hardware and `dma_unmap_single` take it. -/
def addr (rxd : RxDesc) : DmaAddr :=
  rxd.rxd1.setWidth 64 ||| if soc.dma36 then rxDmaGetAddr64 rxd.rxd2 else 0

end RxSoc

/-! ## Rings -/

inductive RxFlags where
  | normal
  | hwlro
  | qdma
  deriving DecidableEq

/-- Where `ring->dma` is. -/
inductive DmaRegion where
  | coherent (memory : Nat)
  | sram
  deriving DecidableEq

/-- `struct mtk_rx_ring`: `array` is the memory of `ring->data`, `desc` what is at `ring->dma`. -/
structure RxRing where
  array : Option Nat
  data : Nat → Option Nat
  dma : Option DmaRegion
  desc : Nat → RxDesc
  bufSize : Nat
  dmaSize : Nat
  calcIdx : Nat
  inSram : Bool

structure KernelConfig where
  NET_SKB_PAD : Nat
  NET_IP_ALIGN : Nat
  SMP_CACHE_BYTES : Nat
  sharedInfoSize : Nat
  cache_pos : 0 < SMP_CACHE_BYTES
  cache_le : SMP_CACHE_BYTES ≤ 256

namespace KernelConfig

variable (cfg : KernelConfig)

def skbDataAlign (x : Nat) : Nat :=
  (x + (cfg.SMP_CACHE_BYTES - 1)) / cfg.SMP_CACHE_BYTES * cfg.SMP_CACHE_BYTES

def MTK_RX_ETH_HLEN : Nat := 26

def mtkMaxFragSize (rxBufLen mtu : Nat) : Nat :=
  let mtu := if mtu + MTK_RX_ETH_HLEN < rxBufLen then rxBufLen - MTK_RX_ETH_HLEN else mtu
  cfg.skbDataAlign (cfg.NET_SKB_PAD + MTK_RX_ETH_HLEN + cfg.NET_IP_ALIGN + mtu) +
    cfg.skbDataAlign cfg.sharedInfoSize

def mtkMaxBufSize (fragSize : Nat) : Nat :=
  fragSize - cfg.NET_SKB_PAD - cfg.NET_IP_ALIGN - cfg.skbDataAlign cfg.sharedInfoSize

end KernelConfig

def ETH_DATA_LEN : Nat := 1500

def MTK_HW_LRO_DMA_SIZE : Nat := 64

/-- `eth->rx_buf_len` after `mtk_change_mtu` for a largest MTU. -/
def rxBufLenOf (maxMtu : Nat) : Nat :=
  let length := maxMtu + KernelConfig.MTK_RX_ETH_HLEN
  if length ≤ 1536 then 1536 else (length + 1023) / 1024 * 1024

def RxSoc.maxMtu (soc : RxSoc) : Nat :=
  (if soc.rx9k then 9216 else 2048) - KernelConfig.MTK_RX_ETH_HLEN

/-- What `mtk_rx_alloc` is called for, and how the calls it makes end: `sramFits` is the answer of
`mtk_validate_sram_range`. -/
structure RxAllocCall where
  flags : RxFlags
  rxBufLen : Nat
  sramFits : Bool
  array : Bool
  buffer : Nat → Bool
  coherent : Bool
  mapped : Nat → Option DmaAddr

section Alloc

variable (soc : RxSoc) (cfg : KernelConfig) (call : RxAllocCall)

def rxDataLen : Nat :=
  if call.flags = .hwlro then 4096 * 3 + call.rxBufLen else ETH_DATA_LEN

def rxDmaSizeOf : Nat := if call.flags = .hwlro then MTK_HW_LRO_DMA_SIZE else soc.rxDmaSize

/-- The descriptor `mtk_rx_alloc` writes for a mapping. -/
def RxSoc.posted (bufSize : Nat) (addr : DmaAddr) : RxDesc where
  rxd1 := addr.setWidth 32
  rxd2 := (if soc.mt7628 then RX_DMA_LSO else soc.len.plen0 (BitVec.ofNat 32 bufSize)) |||
    if soc.dma36 then (rxDmaPrepAddr64 addr).setWidth 32 else 0
  rxd3 := 0
  rxd4 := 0
  rxd5 := 0
  rxd6 := 0
  rxd7 := 0

/-- The part of `mtk_rx_alloc` behind a part, which is left with an error if that fails. -/
def andThen (part : Bool × RxRing × DmaRes)
    (next : RxRing → DmaRes → Option (Bool × RxRing × DmaRes)) :
    Option (Bool × RxRing × DmaRes) :=
  if part.1 then next part.2.1 part.2.2 else some part

/-- The buffers of the first slots; `false` when one is not to be had. -/
def fillData (ok : Nat → Bool) : Nat → RxRing → DmaRes → Bool × RxRing × DmaRes
  | 0, ring, res => (true, ring, res)
  | i + 1, ring, res =>
    let part := fillData ok i ring res
    if part.1 then
      if ok i then
        (true, { part.2.1 with data := Function.update part.2.1.data i (some part.2.2.next) },
          part.2.2.alloc)
      else (false, part.2.1, part.2.2)
    else part

/-- The descriptors of the first slots; `false` when a buffer cannot be mapped. -/
def fillDesc (mapped : Nat → Option DmaAddr) :
    Nat → RxRing → DmaRes → Option (Bool × RxRing × DmaRes)
  | 0, ring, res => some (true, ring, res)
  | i + 1, ring, res =>
    (fillDesc mapped i ring res).bind fun part => andThen part fun ring res =>
      match mapped i, ring.data i with
      | some addr, some buffer =>
        (res.map soc.dmaBits addr buffer).map fun res =>
          (true, { ring with desc := Function.update ring.desc i (soc.posted ring.bufSize addr) },
            res)
      | _, _ => some (false, ring, res)

def allocRegion (ring : RxRing) (res : DmaRes) : Bool × RxRing × DmaRes :=
  if soc.hasSram = false ∨ call.flags ≠ .normal ∨ call.sramFits = false then
    if call.coherent then
      (true, { ring with dma := some (.coherent res.next), desc := fun _ => ⟨0, 0, 0, 0, 0, 0, 0⟩ },
        res.alloc)
    else (false, { ring with dma := none }, res)
  else (true, { ring with dma := some .sram, inSram := true }, res)

def mtkRxAlloc (ring : RxRing) (res : DmaRes) : Option (Bool × RxRing × DmaRes) :=
  let bufSize := cfg.mtkMaxBufSize (cfg.mtkMaxFragSize call.rxBufLen (rxDataLen call))
  let rxDmaSize := rxDmaSizeOf soc call
  if call.array then
    andThen (fillData call.buffer rxDmaSize
      { ring with bufSize := bufSize, array := some res.next, data := fun _ => none } res.alloc)
      fun ring res => andThen (allocRegion soc call ring res)
      fun ring res => (fillDesc soc call.mapped rxDmaSize ring res).bind
      fun part => andThen part
      fun ring res => some (true, { ring with dmaSize := rxDmaSize, calcIdx := rxDmaSize - 1 }, res)
  else some (false, { ring with bufSize := bufSize, array := none }, res)

end Alloc

/-! ## Receiving -/

structure RxWriteback where
  rxd2 : BitVec 32
  rxd3 : BitVec 32
  rxd4 : BitVec 32
  rxd5 : BitVec 32
  rxd6 : BitVec 32
  rxd7 : BitVec 32

def RxWriteback.apply (w : RxWriteback) (soc : RxSoc) (rxd : RxDesc) : RxDesc where
  rxd1 := rxd.rxd1
  rxd2 :=
    (if soc.dma36 then (w.rxd2 &&& ~~~RX_DMA_ADDR64_MASK) ||| (rxd.rxd2 &&& RX_DMA_ADDR64_MASK)
      else w.rxd2) ||| RX_DMA_DONE
  rxd3 := w.rxd3
  rxd4 := w.rxd4
  rxd5 := w.rxd5
  rxd6 := w.rxd6
  rxd7 := w.rxd7

structure RxSkb where
  head : Nat
  len : BitVec 32

/-- A ring in use: `crxIdx` is the CPU index register, `drxIdx` the descriptor the hardware fills
next.  `completed` and `consumed` record the descriptors with their slots. -/
structure RxState where
  ring : RxRing
  res : DmaRes
  crxIdx : Nat
  drxIdx : Nat
  delivered : List RxSkb
  completed : List (Nat × RxDesc)
  consumed : List (Nat × RxDesc)

/-- One pass of the loop of `mtk_poll_rx`: what the hardware completes before it, what the local
`trxd` holds, whether the device is being reset and how the calls end.  `tnlDev` is
`mtk_get_tnl_dev`, if it is set. -/
structure RxRound where
  completions : List RxWriteback
  trxd : RxDesc
  tnlDev : Option (BitVec 32 → Bool)
  resetting : Bool
  buffer : Bool
  mapped : Option DmaAddr
  skb : Bool

/-- What `mtk_poll_rx` knows of the device: which of the MACs have a netdev. -/
structure RxEth where
  soc : RxSoc
  macCount : Nat
  netdev : Nat → Bool

def nextDespIdx (x y : Nat) : Nat := (x + 1) &&& (y - 1)

theorem nextDespIdx_eq {x k : Nat} : nextDespIdx x (2 ^ k) = (x + 1) % 2 ^ k := by
  rw [nextDespIdx, Nat.and_two_pow_sub_one_eq_mod]

/-- `mtk_rx_get_desc(eth, trxd, rxd)`; on some SoCs three words of `trxd` stay as they are. -/
def RxSoc.mtkRxGetDesc (soc : RxSoc) (trxd rxd : RxDesc) : Option RxDesc :=
  if rxd.done then
    some (if soc.netsysRxV2 then rxd
      else { rxd with rxd5 := trxd.rxd5, rxd6 := trxd.rxd6, rxd7 := trxd.rxd7 })
  else none

/-- The descriptor a pass gives back: with the address of `dma_addr`, or as it was if that still is
the mark of no mapping. -/
def RxSoc.giveBack (soc : RxSoc) (bufSize : Nat) (dmaAddr : DmaAddr) (rxd : RxDesc) : RxDesc :=
  let addr64 :=
    if soc.dma36 then
      if dmaAddr = DMA_MAPPING_ERROR then fieldGetAddr64 rxd.rxd2 else rxDmaPrepAddr64 dmaAddr
    else 0
  { rxd with
    rxd2 :=
      if soc.mt7628 then RX_DMA_LSO
      else soc.len.plen0 (BitVec.ofNat 32 bufSize) ||| addr64.setWidth 32 }

namespace RxEth

variable (eth : RxEth)

def mac (trxd : RxDesc) : Int :=
  if eth.soc.mt7628 then 0
  else if eth.soc.netsysRxV2 then
    -- PSE_GDM1_PORT, PSE_GDM2_PORT and PSE_GDM3_PORT
    let sport := ((trxd.rxd5 >>> 26) &&& 0xf).toNat
    if sport = 1 ∨ sport = 2 then sport - 1 else if sport = 15 then 2 else 0
  else if trxd.rxd4.getLsbD 22 then 0
  else (((trxd.rxd4 >>> 19) &&& 0x7).toNat : Int) - 1

def netdevFound (round : RxRound) (trxd : RxDesc) : Bool :=
  let topsCrsn := (trxd.rxd6 >>> 24) &&& 0xff
  (match round.tnlDev with
    | some tnlDev => topsCrsn != 0 && tnlDev topsCrsn
    | none => false) ||
  (decide (0 ≤ eth.mac trxd ∧ eth.mac trxd < eth.macCount) && eth.netdev (eth.mac trxd).toNat)

end RxEth

namespace RxState

variable (s : RxState)

def complete (soc : RxSoc) (w : RxWriteback) : RxState :=
  let rxd := s.ring.desc s.drxIdx
  if rxd.done then s
  else
    { s with
      ring.desc := Function.update s.ring.desc s.drxIdx (w.apply soc rxd)
      drxIdx := (s.drxIdx + 1) % s.ring.dmaSize
      completed := s.completed ++ [(s.drxIdx, w.apply soc rxd)] }

def releaseDesc (soc : RxSoc) (idx : Nat) (dmaAddr : DmaAddr) : RxState :=
  { s with
    ring.desc := Function.update s.ring.desc idx
      (soc.giveBack s.ring.bufSize dmaAddr (s.ring.desc idx))
    ring.calcIdx := idx }

/-- The old buffer leaves the ring, as an skb or freed when `build_skb` fails, and the new one
takes its slot. -/
def exchange (soc : RxSoc) (idx : Nat) (trxd : RxDesc) (skb : Bool) (new : Nat) (addr : DmaAddr) :
    RxState :=
  match s.ring.data idx with
  | none => s
  | some old =>
    { s with
      ring.data := Function.update s.ring.data idx (some new)
      ring.desc := Function.update s.ring.desc idx
        { s.ring.desc idx with rxd1 := addr.setWidth 32 }
      res := (s.res.unmap (soc.addr trxd)).release old
      delivered := if skb then s.delivered ++ [⟨old, soc.len.getPlen0 trxd.rxd2⟩]
        else s.delivered }

/-- One pass of the loop of `mtk_poll_rx` with a done descriptor. -/
def consume (eth : RxEth) (round : RxRound) (idx : Nat) (trxd : RxDesc) : Option RxState :=
  let s := { s with consumed := s.consumed ++ [(idx, s.ring.desc idx)] }
  if eth.netdevFound round trxd = false ∨ round.resetting ∨ round.buffer = false then
    some (s.releaseDesc eth.soc idx DMA_MAPPING_ERROR)
  else
    let new := s.res.next
    match round.mapped with
    | none =>
      some ({ s with res := s.res.alloc.release new }.releaseDesc eth.soc idx DMA_MAPPING_ERROR)
    | some addr =>
      (s.res.alloc.map eth.soc.dmaBits addr new).map fun res =>
        ({ s with res := res }.exchange eth.soc idx trxd round.skb new addr).releaseDesc
          eth.soc idx addr

/-- The loop of `mtk_poll_rx`; it returns `done`. -/
def pollLoop (eth : RxEth) (rounds : Nat → RxRound) :
    Nat → Nat → RxState → Option (Nat × RxState)
  | 0, done, s => some (done, s)
  | left + 1, done, s =>
    let s := (rounds done).completions.foldl (fun s w => s.complete eth.soc w) s
    let idx := nextDespIdx s.ring.calcIdx s.ring.dmaSize
    match eth.soc.mtkRxGetDesc (rounds done).trxd (s.ring.desc idx) with
    | none => some (done, s)
    | some trxd =>
      (s.consume eth (rounds done) idx trxd).bind (pollLoop eth rounds left (done + 1))

def mtkPollRx (eth : RxEth) (budget : Nat) (rounds : Nat → RxRound) : Option (Nat × RxState) :=
  (pollLoop eth rounds budget 0 s).map fun
  | (done, s) => (done, if done ≠ 0 then { s with crxIdx := s.ring.calcIdx } else s)

/-- One poll of `mtk_napi_rx`, and whether the interrupt status is set again after it. -/
structure NapiRound where
  rounds : Nat → RxRound
  status : Bool

def mtkNapiRx (eth : RxEth) (budget : Nat) :
    List NapiRound → Nat → RxState → Option (Nat × Bool × RxState)
  | [], _, _ => none
  | poll :: polls, remainBudget, s =>
    (s.mtkPollRx eth remainBudget poll.rounds).bind fun
    | (rxDone, s) =>
      if rxDone = remainBudget then some (budget, false, s)
      else if poll.status then mtkNapiRx eth budget polls (remainBudget - rxDone) s
      else some (rxDone + budget - remainBudget, true, s)

inductive Event where
  | complete (w : RxWriteback)
  | poll (budget : Nat) (rounds : Nat → RxRound)
  | napi (budget : Nat) (polls : List NapiRound)

def step (eth : RxEth) (s : RxState) : Event → Option RxState
  | .complete w => some (s.complete eth.soc w)
  | .poll budget rounds => (s.mtkPollRx eth budget rounds).map fun (_, s) => s
  | .napi budget polls => (mtkNapiRx eth budget polls budget s).map fun (_, _, s) => s

/-- A ring after `mtk_rx_alloc`, which writes the CPU index and resets that of the hardware. -/
def ofAlloc (ring : RxRing) (res : DmaRes) : RxState :=
  ⟨ring, res, ring.calcIdx, 0, [], [], []⟩

end RxState

end MetaFilogic.Eth
