import MetaFilogic.Eth.TxRing
import MetaFilogic.Library.RingSlots
import MetaFilogic.Library.WordParts

/-!
# Transmit descriptors

The words that `mtk_tx_map` writes for a packet, in the three formats of the QDMA and the two of
the PDMA, and what the hardware reads from them.
-/

namespace MetaFilogic.Eth

open WordParts (orIf)

/-! ## Formats -/

/-- `struct mtk_tx_dma_v2`, whose first four words are `struct mtk_tx_dma`. -/
structure Txd where
  txd1 : BitVec 32
  txd2 : BitVec 32
  txd3 : BitVec 32
  txd4 : BitVec 32
  txd5 : BitVec 32
  txd6 : BitVec 32
  txd7 : BitVec 32
  txd8 : BitVec 32
  deriving DecidableEq

inductive Netsys where
  | v1
  | v2
  | v3
  deriving DecidableEq

def Netsys.bufLen : Netsys → Nat
  | .v1 => 0x3fff
  | .v2 | .v3 => 0xffff

def Netsys.bufShift : Netsys → Nat
  | .v1 => 16
  | .v2 | .v3 => 8

/-- A chip, with what holds of all of them: the lengths are those of the format, only the last
format has long addresses, and the second comes with the QDMA. -/
structure TxDescSoc extends TxSoc where
  netsys : Netsys
  dmaMaxLen_eq : dmaMaxLen = netsys.bufLen
  dma36_netsys : dma36 = true → netsys = .v3
  qdma_netsys : netsys = .v2 → qdma = true

def TX_DMA_OWNER_CPU : BitVec 32 := 1#32 <<< 31
def TX_DMA_LS0 : BitVec 32 := 1#32 <<< 30
def TX_DMA_LS1 : BitVec 32 := 1#32 <<< 14
def TX_DMA_LS1_V2 : BitVec 32 := 1#32 <<< 30
def TX_DMA_DONE : BitVec 32 := 1#32 <<< 31
def TX_DMA_DESP2_DEF : BitVec 32 := TX_DMA_LS0 ||| TX_DMA_DONE
def TX_DMA_SWC : BitVec 32 := 1#32 <<< 14
def TX_DMA_SWC_V2 : BitVec 32 := 1#32 <<< 30
def TX_DMA_TSO : BitVec 32 := 1#32 <<< 28
def TX_DMA_TSO_V2 : BitVec 32 := 1#32 <<< 31
def TX_DMA_CHKSUM : BitVec 32 := 0x7#32 <<< 29
def TX_DMA_CHKSUM_V2 : BitVec 32 := 0x7#32 <<< 28
def TX_DMA_SPTAG_V3 : BitVec 32 := 1#32 <<< 27
def TX_DMA_INS_VLAN : BitVec 32 := 1#32 <<< 16
def TX_DMA_INS_VLAN_V2 : BitVec 32 := 1#32 <<< 16
def TX_DMA_FPORT_SHIFT : Nat := 25
def TX_DMA_FPORT_SHIFT_V2 : Nat := 8
def TX_DMA_FPORT_SHIFT_PDMA : Nat := 16
def TX_DMA_TPORT_SHIFT : Nat := 0
def TX_DMA_TPORT_MASK : BitVec 32 := 0xf
def TX_DMA_TOPS_ENTRY_SHIFT : Nat := 8
def TX_DMA_TOPS_ENTRY_MASK : BitVec 32 := 0x3f
def TX_DMA_CDRT_SHIFT : Nat := 0
def TX_DMA_CDRT_MASK : BitVec 32 := 0xff
def MTK_GMAC3_ID : Fin 3 := .last 2
def PSE_GDM3_PORT : BitVec 32 := 15
def EIP197_TPORT : BitVec 8 := 2

def qidLowBits (qid : BitVec 16) : BitVec 32 := qid.setWidth 32 &&& 0xf

def qidHighBits (qid : BitVec 16) : BitVec 32 := (qid.setWidth 32 >>> 4 &&& 0x3) <<< 20

def qidBitsV2 (qid : BitVec 16) : BitVec 32 := (qid.setWidth 32 &&& 0x3f) <<< 16

def txDmaPrepAddr64 (addr : DmaAddr) : BitVec 32 := (addr >>> 32 &&& 0xf).setWidth 32

/-- What `mtk_tx_set_dma_desc` reads of the packet and its device, beside the lengths.  `tnlParams`
is what `mtk_get_tnl_netsys_params` gives, where there is one, and `gso` that argument of
`mtk_tx_map`. -/
structure TxPacket where
  macId : Fin 3
  qid : BitVec 16
  gso : Bool
  csum : Bool
  vlan : Bool
  vlanTci : BitVec 16
  hnatMagic : Bool
  dsa : Bool
  tnlParams : Option (BitVec 32)
  esp : Bool
  cdrt : BitVec 8
  tagValid : Bool

/-- `struct mtk_tx_dma_desc_info` -/
structure TxDescInfo where
  addr : DmaAddr
  size : Nat
  vlanTci : BitVec 16
  qid : BitVec 16
  gso : Bool
  csum : Bool
  vlan : Bool
  first : Bool
  last : Bool

/-! ## Writing a descriptor -/

section Write

variable (soc : TxDescSoc) (p : TxPacket) (info : TxDescInfo)

def TxDescSoc.plen (size shift : Nat) : BitVec 32 :=
  (BitVec.ofNat 32 size &&& BitVec.ofNat 32 soc.dmaMaxLen) <<< shift

def TxDescSoc.plen0 (size : Nat) : BitVec 32 := soc.plen size soc.netsys.bufShift

def TxDescSoc.plen1 (size : Nat) : BitVec 32 :=
  soc.plen size (if soc.netsys = .v3 then soc.netsys.bufShift else 0)

def hnatFport (mask : BitVec 32) (shift : Nat) (data : BitVec 32) : BitVec 32 :=
  if p.hnatMagic then data &&& ~~~(mask <<< shift) ||| 0x4#32 <<< shift else data

def fportV2 : BitVec 32 :=
  if p.macId = MTK_GMAC3_ID then PSE_GDM3_PORT else BitVec.ofNat 32 (p.macId.val + 1)

def mtkTxSetDmaDescV1 (txd : Txd) : Txd :=
  let txd3 := TX_DMA_SWC ||| qidLowBits info.qid ||| soc.plen0 info.size
  let txd3 := orIf txd3 info.last TX_DMA_LS0
  let data := BitVec.ofNat 32 (p.macId.val + 1) <<< TX_DMA_FPORT_SHIFT
  let data := data ||| qidHighBits info.qid
  let data := orIf data (info.first && info.gso) TX_DMA_TSO
  let data := orIf data (info.first && info.csum) TX_DMA_CHKSUM
  let data := orIf data (info.first && info.vlan) (TX_DMA_INS_VLAN ||| info.vlanTci.setWidth 32)
  { txd with
    txd1 := info.addr.setWidth 32
    txd3 := txd3
    txd4 := hnatFport p 0x7 TX_DMA_FPORT_SHIFT data }

def txd4V2 : BitVec 32 :=
  hnatFport p 0xf TX_DMA_FPORT_SHIFT_V2
    (fportV2 p <<< TX_DMA_FPORT_SHIFT_V2 ||| (TX_DMA_SWC_V2 ||| qidBitsV2 info.qid))

def txd6V2 : BitVec 32 :=
  orIf 0 (info.first && info.vlan) (TX_DMA_INS_VLAN_V2 ||| info.vlanTci.setWidth 32)

def mtkTxSetDmaDescV2 (txd : Txd) : Txd :=
  let data := orIf 0 (info.first && info.gso) TX_DMA_TSO_V2
  { txd with
    txd1 := info.addr.setWidth 32
    txd3 := orIf (soc.plen0 info.size) info.last TX_DMA_LS0
    txd4 := txd4V2 p info
    txd5 := orIf data (info.first && info.csum) TX_DMA_CHKSUM_V2
    txd6 := txd6V2 info
    txd7 := 0
    txd8 := 0 }

/-- The tunnel parameters in the third format: port, TOPS entry and CDRT entry, and whether the
tag of the packet is still valid after them. -/
def tnlParams (tagValid : Bool) : BitVec 8 × BitVec 8 × BitVec 8 × Bool :=
  match p.tnlParams, p.esp with
  | some params, false =>
    ((params >>> 8).setWidth 8, params.setWidth 8, (params >>> 16).setWidth 8, tagValid)
  | _, esp =>
    if esp && p.cdrt != 0 && tagValid then (EIP197_TPORT, 0, p.cdrt, false)
    else (0, 0, 0, tagValid)

def putField (mask : BitVec 32) (shift : Nat) (value : BitVec 8) (data : BitVec 32) : BitVec 32 :=
  if value = 0 then data
  else data &&& ~~~(mask <<< shift) ||| (value.setWidth 32 &&& mask) <<< shift

def mtkTxSetDmaDescV3 (tagValid : Bool) (txd : Txd) : Bool × Txd :=
  let txd3 := orIf (soc.plen0 info.size) info.last TX_DMA_LS0
  let txd3 := orIf txd3 soc.dma36 (txDmaPrepAddr64 info.addr)
  let (tport, topsEntry, cdrt, tagValid) := tnlParams p tagValid
  let data := orIf 0 (info.first && info.gso) TX_DMA_TSO_V2
  let data := orIf data (info.first && info.csum) TX_DMA_CHKSUM_V2
  let data := orIf data (info.first && p.dsa) TX_DMA_SPTAG_V3
  (tagValid,
    { txd with
      txd1 := info.addr.setWidth 32
      txd3 := txd3
      txd4 := putField TX_DMA_TPORT_MASK TX_DMA_TPORT_SHIFT tport (txd4V2 p info)
      txd5 := data
      txd6 := txd6V2 info
      txd7 := 0
      txd8 := putField TX_DMA_CDRT_MASK TX_DMA_CDRT_SHIFT cdrt
        (putField TX_DMA_TOPS_ENTRY_MASK TX_DMA_TOPS_ENTRY_SHIFT topsEntry 0) })

def mtkTxSetPdmaDesc (txd : Txd) : Txd :=
  if info.first then
    let data := fportV2 p <<< TX_DMA_FPORT_SHIFT_PDMA
    let data := orIf data info.gso TX_DMA_TSO_V2
    let data := orIf data info.csum TX_DMA_CHKSUM_V2
    let data := orIf data p.dsa TX_DMA_SPTAG_V3
    { txd with
      txd5 := data
      txd6 := if info.vlan then TX_DMA_INS_VLAN_V2 else txd.txd6
      txd7 := if info.vlan then info.vlanTci.setWidth 32 else txd.txd7
      txd8 := 0 }
  else txd

def mtkTxSetDmaDesc (tagValid : Bool) (txd : Txd) : Bool × Txd :=
  if soc.qdma then
    match soc.netsys with
    | .v3 => mtkTxSetDmaDescV3 soc p info tagValid txd
    | .v2 => (tagValid, mtkTxSetDmaDescV2 soc p info txd)
    | .v1 => (tagValid, mtkTxSetDmaDescV1 soc p info txd)
  else
    match soc.netsys with
    | .v3 => (tagValid, mtkTxSetPdmaDesc p info txd)
    | .v2 | .v1 => (tagValid, txd)

/-- What `setup_tx_buf(eth, tx_buf, txd, mapped_addr, size, idx)` writes into the descriptor. -/
def setupTxDesc (mappedAddr : DmaAddr) (size idx : Nat) (txd : Txd) : Txd :=
  let addr64 := if soc.dma36 then txDmaPrepAddr64 mappedAddr else 0
  if soc.qdma then txd
  else if idx % 2 = 1 then
    if soc.netsys = .v3 then
      { txd with txd3 := mappedAddr.setWidth 32, txd4 := soc.plen1 size ||| addr64 }
    else { txd with txd3 := mappedAddr.setWidth 32, txd2 := txd.txd2 ||| soc.plen1 size }
  else if soc.netsys = .v3 then
    { txd with txd1 := mappedAddr.setWidth 32, txd2 := soc.plen0 size ||| addr64 }
  else { txd with txd1 := mappedAddr.setWidth 32, txd2 := soc.plen0 size }

def markLast (k : Nat) (txd : Txd) : Txd :=
  if k % 2 = 1 then { txd with txd2 := txd.txd2 ||| TX_DMA_LS0 }
  else if soc.netsys = .v3 then { txd with txd4 := txd.txd4 ||| TX_DMA_LS1_V2 }
  else { txd with txd2 := txd.txd2 ||| TX_DMA_LS1 }

end Write

/-! ## Writing a packet -/

structure TxPiece where
  frag : Nat
  size : Nat
  left : Nat

/-- The pieces that the inner loop of `mtk_tx_map` cuts a fragment into. -/
def fragCuts (maxLen i : Nat) : Nat → Nat → List TxPiece
  | 0, _ => []
  | fuel + 1, fragSize =>
    if fragSize = 0 then []
    else
      let size := min fragSize maxLen
      ⟨i, size, fragSize - size⟩ :: fragCuts maxLen i fuel (fragSize - size)

/-- The pieces of the fragments from number `i` on. -/
def cutsFrom (maxLen : Nat) : Nat → List Nat → List TxPiece
  | _, [] => []
  | i, fragSize :: frags =>
    fragCuts maxLen i fragSize fragSize ++ cutsFrom maxLen (i + 1) frags

/-- What the loops of `mtk_tx_map` work on, with the descriptors of the hardware. -/
structure DescWork where
  work : TxWork
  desc : Nat → Txd
  tagValid : Bool

section Map

variable (soc : TxDescSoc) (p : TxPacket) (ring : TxRing) (call : TxCall)

def DescWork.write (w : DescWork) (info : TxDescInfo) (txd k : Nat) : DescWork :=
  let part := mtkTxSetDmaDesc soc p info w.tagValid (w.desc txd)
  { w with
    desc := Function.update w.desc txd (setupTxDesc soc info.addr info.size k part.2)
    tagValid := part.1 }

def pieceInfo (nrFrags : Nat) (piece : TxPiece) (addr : DmaAddr) : TxDescInfo where
  addr := addr
  size := piece.size
  vlanTci := 0
  qid := p.qid
  gso := false
  csum := false
  vlan := false
  first := false
  last := decide (piece.frag + 1 = nrFrags) && decide (piece.left = 0)

def headInfo (skb : TxSkb) (addr : DmaAddr) : TxDescInfo where
  addr := addr
  size := skb.headlen
  vlanTci := p.vlanTci
  qid := p.qid
  gso := p.gso
  csum := p.csum
  vlan := p.vlan
  first := true
  last := decide (skb.frags.sum = 0)

/-- One pass of the inner loop of `mtk_tx_map`. -/
def mapPieceDesc (nrFrags : Nat) (piece : TxPiece) (w : DescWork) :
    Option (Bool × DescWork) :=
  (mapPiece soc.toTxSoc ring call (piece.frag, piece.size) w.work).map fun (ok, work) =>
    match ok, call.mapped w.work.k with
    | true, some addr =>
      (true, { w with work := work }.write soc p (pieceInfo p nrFrags piece addr) work.txd
        w.work.k)
    | _, _ => (ok, { w with work := work })

/-- The loops of `mtk_tx_map`. -/
def mapPiecesDesc (nrFrags : Nat) : List TxPiece → DescWork → Option (Bool × DescWork)
  | [], w => some (true, w)
  | piece :: pieces, w =>
    (mapPieceDesc soc p ring call nrFrags piece w).bind fun part =>
      if part.1 then mapPiecesDesc nrFrags pieces part.2 else some part

/-- The loop at `err_dma` over the descriptors of the hardware. -/
def unwindDesc (txd : Nat) : Nat → Nat → (Nat → Txd) → Nat → Txd
  | 0, _, desc => desc
  | fuel + 1, itxd, desc =>
    let desc := Function.update desc itxd
      (if soc.qdma then { desc itxd with txd3 := TX_DMA_LS0 ||| TX_DMA_OWNER_CPU }
        else { desc itxd with txd2 := TX_DMA_DESP2_DEF })
    if ring.next itxd = txd then desc else unwindDesc txd fuel (ring.next itxd) desc

/-- The descriptors at the end of `mtk_tx_map`. -/
def descEnd (ok : Bool) (w : DescWork) : Nat → Txd :=
  if ok then
    if soc.qdma then w.desc
    else Function.update w.desc w.work.txd (markLast soc w.work.k (w.desc w.work.txd))
  else unwindDesc soc ring w.work.txd ring.dmaSize ring.nextFree w.desc

def headWork (skb : TxSkb) (addr : DmaAddr) (desc : Nat → Txd) (res : DmaRes) : DescWork :=
  DescWork.write soc p
    ⟨⟨Function.update ring.buf ring.nextFree (headBuf soc.toTxSoc addr skb.headlen), res,
      ring.nextFree, 1, 1⟩, desc, p.tagValid⟩
    (headInfo p skb addr) ring.nextFree 0

/-- `mtk_tx_map(skb, dev, tx_num, ring, gso)` with the descriptors of the hardware; `false` is an
error. -/
def mtkTxMapDesc (desc : Nat → Txd) (res : DmaRes) :
    Option (Bool × TxRing × (Nat → Txd) × DmaRes) :=
  if call.skb.len ≤ 40 ∧ call.padto = false then
    some (false, ring, desc, res.release call.skb.head)
  else if ring.nextFree = ring.lastFree then some (false, ring, desc, res)
  else
    let skb := call.skb.toMap
    match call.mapped 0 with
    | none =>
      some (false, { ring with buf := Function.update ring.buf ring.nextFree .zero }, desc, res)
    | some addr =>
      (res.map soc.dmaBits addr skb.head).bind fun res =>
        (mapPiecesDesc soc p ring call skb.frags.length (cutsFrom soc.dmaMaxLen 0 skb.frags)
          (headWork soc p ring skb addr desc res)).map fun (ok, w) =>
            let part := mapEnd soc.toTxSoc ring call ok w.work
            (part.1, part.2.1, descEnd soc ring ok w, part.2.2)

end Map

end MetaFilogic.Eth
