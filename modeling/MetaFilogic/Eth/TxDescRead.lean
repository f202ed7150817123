import MetaFilogic.Eth.TxDesc

/-!
# What the hardware reads from transmit descriptors

A descriptor is read in the format of the chip, as one segment or, by a PDMA, as up to two; the
words that the driver writes for a piece are read back as that piece.
-/

namespace MetaFilogic.Eth

open WordParts

/-! ## Reading -/

/-- A part of a packet in memory, and whether it is marked as the last. -/
structure Segment where
  addr : DmaAddr
  len : Nat
  last : Bool
  deriving DecidableEq

structure TxControls where
  tso : Bool
  csum : Bool
  vlan : Option (BitVec 16)
  deriving DecidableEq

section Read

variable (soc : TxDescSoc) (txd : Txd)

def TxDescSoc.length (word : BitVec 32) : Nat :=
  match soc.netsys with
  | .v1 => (word.extractLsb' 16 14).toNat
  | .v2 | .v3 => (word.extractLsb' 8 16).toNat

def TxDescSoc.address (low high : BitVec 32) : DmaAddr :=
  match soc.netsys with
  | .v1 | .v2 => low.setWidth 64
  | .v3 => (high.extractLsb' 0 4 ++ low).setWidth 64

def TxDescSoc.second : Segment :=
  match soc.netsys with
  | .v1 | .v2 =>
    ⟨txd.txd3.setWidth 64, (txd.txd2.extractLsb' 0 14).toNat, txd.txd2.getLsbD 14⟩
  | .v3 => ⟨soc.address txd.txd3 txd.txd4, soc.length txd.txd4, txd.txd4.getLsbD 30⟩

def TxDescSoc.segments : List Segment :=
  if soc.qdma then
    [⟨soc.address txd.txd1 txd.txd3, soc.length txd.txd3, txd.txd3.getLsbD 30⟩]
  else
    let first : Segment :=
      ⟨soc.address txd.txd1 txd.txd2, soc.length txd.txd2, txd.txd2.getLsbD 30⟩
    if first.last then [first] else [first, soc.second txd]

def TxDescSoc.controls : TxControls :=
  match soc.netsys with
  | .v1 =>
    ⟨txd.txd4.getLsbD 28, decide (txd.txd4.extractLsb' 29 3 = 7),
      if txd.txd4.getLsbD 16 then some (txd.txd4.extractLsb' 0 16) else none⟩
  | .v2 | .v3 =>
    ⟨txd.txd5.getLsbD 31, decide (txd.txd5.extractLsb' 28 3 = 7),
      if txd.txd6.getLsbD 16 then
        some ((if soc.qdma then txd.txd6 else txd.txd7).extractLsb' 0 16) else none⟩

def TxDescSoc.forwardPort : BitVec 4 :=
  if soc.qdma then
    match soc.netsys with
    | .v1 => (txd.txd4.extractLsb' 25 3).setWidth 4
    | .v2 | .v3 => txd.txd4.extractLsb' 8 4
  else txd.txd5.extractLsb' 16 4

def TxPacket.controls (p : TxPacket) : TxControls :=
  ⟨p.gso, p.csum, if p.vlan then some p.vlanTci else none⟩

def TxPacket.port (p : TxPacket) : BitVec 4 :=
  if soc.qdma && p.hnatMagic then 4
  else
    match soc.netsys with
    | .v1 => BitVec.ofNat 4 (p.macId.val + 1)
    | .v2 | .v3 => (fportV2 p).setWidth 4

end Read

/-! ## Parts of words -/

section Parts

variable (soc : TxDescSoc)

theorem plen_eq (size shift : Nat) : soc.plen size shift =
    match soc.netsys with
    | .v1 => place 32 shift (BitVec.ofNat 14 size)
    | .v2 | .v3 => place 32 shift (BitVec.ofNat 16 size) := by
  have short : BitVec.ofNat 32 Netsys.v1.bufLen = (BitVec.allOnes 14).setWidth 32 := rfl
  have long : BitVec.ofNat 32 Netsys.v2.bufLen = (BitVec.allOnes 16).setWidth 32 := rfl
  have long' : BitVec.ofNat 32 Netsys.v3.bufLen = (BitVec.allOnes 16).setWidth 32 := rfl
  unfold TxDescSoc.plen
  rw [soc.dmaMaxLen_eq]
  cases soc.netsys with
  | v1 =>
    rw [short, and_mask, place_shiftLeft]
    simp
  | v2 =>
    rw [long, and_mask, place_shiftLeft]
    simp
  | v3 =>
    rw [long', and_mask, place_shiftLeft]
    simp

theorem qidLowBits_eq (qid : BitVec 16) : qidLowBits qid = place 32 0 (qid.setWidth 4) := by
  rw [qidLowBits, show (0xf : BitVec 32) = (BitVec.allOnes 4).setWidth 32 from rfl, and_mask]
  simp

theorem qidHighBits_eq (qid : BitVec 16) :
    qidHighBits qid = place 32 20 ((qid.setWidth 32 >>> 4).setWidth 2) := by
  rw [qidHighBits, show (0x3 : BitVec 32) = (BitVec.allOnes 2).setWidth 32 from rfl, and_mask,
    place_shiftLeft]

theorem qidBitsV2_eq (qid : BitVec 16) : qidBitsV2 qid = place 32 16 (qid.setWidth 6) := by
  rw [qidBitsV2, show (0x3f : BitVec 32) = (BitVec.allOnes 6).setWidth 32 from rfl, and_mask,
    place_shiftLeft]
  simp

theorem txDmaPrepAddr64_eq (addr : DmaAddr) :
    txDmaPrepAddr64 addr = place 32 0 ((addr >>> 32).setWidth 4) := by
  rw [txDmaPrepAddr64, show (0xf : DmaAddr) = (BitVec.allOnes 4).setWidth 64 from rfl, and_mask]
  refine BitVec.eq_of_getLsbD_eq fun i inside => ?_
  rw [BitVec.getLsbD_setWidth, getLsbD_place, getLsbD_place]
  simp [inside, show i < 64 by omega]

theorem flags_eq : TX_DMA_LS0 = place 32 30 1#1 ∧ TX_DMA_LS1 = place 32 14 1#1 ∧
    TX_DMA_LS1_V2 = place 32 30 1#1 ∧ TX_DMA_SWC = place 32 14 1#1 ∧
    TX_DMA_SWC_V2 = place 32 30 1#1 ∧ TX_DMA_TSO = place 32 28 1#1 ∧
    TX_DMA_TSO_V2 = place 32 31 1#1 ∧ TX_DMA_CHKSUM = place 32 29 7#3 ∧
    TX_DMA_CHKSUM_V2 = place 32 28 7#3 ∧ TX_DMA_SPTAG_V3 = place 32 27 1#1 ∧
    TX_DMA_INS_VLAN = place 32 16 1#1 ∧ TX_DMA_INS_VLAN_V2 = place 32 16 1#1 := by
  decide

end Parts

/-! ## One segment of the QDMA -/

section Qdma

variable {soc : TxDescSoc} {p : TxPacket} {info : TxDescInfo} {tagValid : Bool} {txd : Txd}
  {size : Nat} {addr : DmaAddr}

theorem lt_size14 (netsys : soc.netsys = .v1) (fits : size ≤ soc.dmaMaxLen) : size < 16384 := by
  rw [soc.dmaMaxLen_eq, netsys] at fits
  exact Nat.lt_succ_of_le fits

theorem lt_size16 (netsys : soc.netsys ≠ .v1) (fits : size ≤ soc.dmaMaxLen) : size < 65536 := by
  have long : soc.netsys.bufLen = 0xffff := by
    cases other : soc.netsys with
    | v1 => exact absurd other netsys
    | v2 => rfl
    | v3 => rfl
  rw [soc.dmaMaxLen_eq, long] at fits
  exact Nat.lt_succ_of_le fits

theorem address_low (reach : addr.toNat < 2 ^ 32) : (addr.setWidth 32).setWidth 64 = addr := by
  refine BitVec.eq_of_toNat_eq ?_
  rw [BitVec.toNat_setWidth, BitVec.toNat_setWidth, Nat.mod_eq_of_lt reach,
    Nat.mod_eq_of_lt addr.isLt]

/-- An address of 36 bits comes back from its low half and four more bits. -/
theorem address_high (reach : addr.toNat < 2 ^ 36) :
    ((addr >>> 32).setWidth 4 ++ addr.setWidth 32).setWidth 64 = addr := by
  refine BitVec.eq_of_toNat_eq ?_
  rw [BitVec.toNat_setWidth, BitVec.toNat_append,
    ← Nat.shiftLeft_add_eq_or_of_lt (BitVec.isLt _), BitVec.toNat_setWidth,
    BitVec.toNat_setWidth, BitVec.toNat_ushiftRight, Nat.shiftLeft_eq, Nat.shiftRight_eq_div_pow]
  omega

theorem high_eq (reach : addr.toNat < 2 ^ soc.dmaBits) :
    (addr >>> 32).setWidth 4 = if soc.dma36 then (addr >>> 32).setWidth 4 else 0#4 := by
  by_cases wide : soc.dma36 = true
  · rw [if_pos wide]
  · rw [if_neg wide]
    rw [TxSoc.dmaBits, if_neg wide] at reach
    refine BitVec.eq_of_toNat_eq ?_
    rw [BitVec.toNat_setWidth, BitVec.toNat_ushiftRight, Nat.shiftRight_eq_div_pow,
      Nat.div_eq_of_lt reach]
    rfl

theorem address_eq (reach : addr.toNat < 2 ^ soc.dmaBits) {high : BitVec 32}
    (parts : soc.netsys = .v3 → high.extractLsb' 0 4 =
      if soc.dma36 then (addr >>> 32).setWidth 4 else 0#4) :
    soc.address (addr.setWidth 32) high = addr := by
  have short (netsys : soc.netsys ≠ .v3) : addr.toNat < 2 ^ 32 := by
    have narrow : soc.dma36 ≠ true := fun wide => netsys (soc.dma36_netsys wide)
    rwa [TxSoc.dmaBits, if_neg narrow] at reach
  unfold TxDescSoc.address
  cases netsys : soc.netsys with
  | v1 => exact address_low (short (by rw [netsys]; decide))
  | v2 => exact address_low (short (by rw [netsys]; decide))
  | v3 =>
    rw [parts netsys, ← high_eq reach]
    refine address_high (lt_of_lt_of_le reach (Nat.pow_le_pow_right (by omega) ?_))
    unfold TxSoc.dmaBits
    split_ifs <;> omega

theorem qdma_segments (qdma : soc.qdma = true) (fits : info.size ≤ soc.dmaMaxLen)
    (reach : info.addr.toNat < 2 ^ soc.dmaBits) :
    soc.segments (mtkTxSetDmaDesc soc p info tagValid txd).2 =
      [⟨info.addr, info.size, info.last⟩] := by
  unfold TxDescSoc.segments mtkTxSetDmaDesc
  rw [if_pos qdma, if_pos qdma]
  cases netsys : soc.netsys with
  | v1 =>
    have high (word : BitVec 32) : soc.address (info.addr.setWidth 32) word = info.addr :=
      address_eq reach fun v3 => by
        rw [netsys] at v3
        cases v3
    simp (disch := omega) only [mtkTxSetDmaDescV1, TxDescSoc.plen0, plen_eq, netsys,
      Netsys.bufShift, qidLowBits_eq, flags_eq, high, TxDescSoc.length, extract_orIf,
      BitVec.extractLsb'_or, extract_place, extract_place_apart, getLsbD_orIf, BitVec.getLsbD_or,
      getLsbD_place]
    simpa [orIf] using lt_size14 netsys fits
  | v2 =>
    have high (word : BitVec 32) : soc.address (info.addr.setWidth 32) word = info.addr :=
      address_eq reach fun v3 => by
        rw [netsys] at v3
        cases v3
    simp (disch := omega) only [mtkTxSetDmaDescV2, TxDescSoc.plen0, plen_eq, netsys,
      Netsys.bufShift, flags_eq, high, TxDescSoc.length, extract_orIf, extract_place,
      extract_place_apart, getLsbD_orIf, getLsbD_place]
    simpa [orIf] using lt_size16 (by rw [netsys]; decide) fits
  | v3 =>
    have low : (orIf (orIf (place 32 8 (BitVec.ofNat 16 info.size)) info.last (place 32 30 1#1))
        soc.dma36 (place 32 0 ((info.addr >>> 32).setWidth 4))).extractLsb' 0 4 =
          if soc.dma36 then (info.addr >>> 32).setWidth 4 else 0#4 := by
      simp (disch := omega) only [extract_orIf, extract_place, extract_place_apart]
      simp [orIf]
    simp (disch := omega) only [mtkTxSetDmaDescV3, TxDescSoc.plen0, plen_eq, netsys,
      Netsys.bufShift, flags_eq, txDmaPrepAddr64_eq]
    rw [address_eq reach fun _ => low]
    simp (disch := omega) only [TxDescSoc.length, netsys, extract_orIf, extract_place,
      extract_place_apart, getLsbD_orIf, getLsbD_place]
    simpa [orIf] using lt_size16 (by rw [netsys]; decide) fits

section Port

variable {mask data : BitVec 32} {shift k lo width : Nat}

theorem extract_hnatFport_apart (mask_eq : mask <<< shift = place 32 shift (BitVec.allOnes k))
    (port_eq : 0x4#32 <<< shift = place 32 shift (4#k))
    (apart : shift + k ≤ lo ∨ lo + width ≤ shift) (fits : lo + width ≤ 32) :
    (hnatFport p mask shift data).extractLsb' lo width = data.extractLsb' lo width := by
  unfold hnatFport
  split_ifs
  · rw [mask_eq, port_eq, BitVec.extractLsb'_or, extract_clear_apart _ _ apart fits,
      extract_place_apart _ apart, BitVec.or_zero]
  · rfl

theorem extract_hnatFport (mask_eq : mask <<< shift = place 32 shift (BitVec.allOnes k))
    (port_eq : 0x4#32 <<< shift = place 32 shift (4#k)) (fits : shift + k ≤ 32) :
    (hnatFport p mask shift data).extractLsb' shift k =
      if p.hnatMagic then 4#k else data.extractLsb' shift k := by
  unfold hnatFport
  split_ifs
  · rw [mask_eq, port_eq, BitVec.extractLsb'_or, extract_clear _ fits, extract_place _ fits,
      BitVec.zero_or]
  · rfl

theorem masks_v1 : (0x7 : BitVec 32) <<< TX_DMA_FPORT_SHIFT = place 32 25 (BitVec.allOnes 3) ∧
    0x4#32 <<< TX_DMA_FPORT_SHIFT = place 32 25 4#3 := by
  decide

theorem masks_v2 :
    (0xf : BitVec 32) <<< TX_DMA_FPORT_SHIFT_V2 = place 32 8 (BitVec.allOnes 4) ∧
      0x4#32 <<< TX_DMA_FPORT_SHIFT_V2 = place 32 8 4#4 := by
  decide

theorem fportV1_eq (macId : Fin 3) (shift : Nat) : BitVec.ofNat 32 (macId.val + 1) <<< shift =
    place 32 shift (BitVec.ofNat 3 (macId.val + 1)) := by
  have low : BitVec.ofNat 32 (macId.val + 1) = place 32 0 (BitVec.ofNat 3 (macId.val + 1)) := by
    revert macId
    decide
  rw [low, place_shiftLeft, Nat.zero_add]

theorem fportV2_eq (shift : Nat) :
    fportV2 p <<< shift = place 32 shift ((fportV2 p).setWidth 4) := by
  have low : fportV2 p = place 32 0 ((fportV2 p).setWidth 4) := by
    unfold fportV2
    generalize p.macId = macId
    revert macId
    decide
  have shifted := congrArg (fun word : BitVec 32 => word <<< shift) low
  rwa [place_shiftLeft, Nat.zero_add] at shifted

end Port

theorem controls_v1 (netsys : soc.netsys = .v1) :
    soc.controls (mtkTxSetDmaDescV1 soc p info txd) =
      if info.first then ⟨info.gso, info.csum, if info.vlan then some info.vlanTci else none⟩
      else ⟨false, false, none⟩ := by
  have apart {data : BitVec 32} {lo width : Nat} (apart : 28 ≤ lo ∨ lo + width ≤ 25)
      (fits : lo + width ≤ 32) :
      (hnatFport p 0x7 TX_DMA_FPORT_SHIFT data).extractLsb' lo width =
        data.extractLsb' lo width :=
    extract_hnatFport_apart masks_v1.1 masks_v1.2 apart fits
  have bit {data : BitVec 32} {i : Nat} (out : 28 ≤ i ∨ i < 25) (fits : i < 32) :
      (hnatFport p 0x7 TX_DMA_FPORT_SHIFT data).getLsbD i = data.getLsbD i :=
    getLsbD_congr (apart (by omega) (by omega))
  simp (disch := omega) only [TxDescSoc.controls, netsys, mtkTxSetDmaDescV1, apart, bit]
  simp (disch := omega) only [TX_DMA_FPORT_SHIFT, fportV1_eq, qidHighBits_eq, flags_eq,
    setWidth_eq_place info.vlanTci, extract_orIf, BitVec.extractLsb'_or, extract_place,
    extract_place_apart, getLsbD_orIf, BitVec.getLsbD_or, getLsbD_place]
  cases info.first <;> cases info.csum <;> cases info.vlan <;> simp [orIf]

theorem controls_v2 (qdma : soc.qdma = true) (netsys : soc.netsys ≠ .v1) {txd : Txd}
    (txd5 : ∃ tag : Bool, txd.txd5 = orIf (orIf (orIf 0 (info.first && info.gso) TX_DMA_TSO_V2)
      (info.first && info.csum) TX_DMA_CHKSUM_V2) tag TX_DMA_SPTAG_V3)
    (txd6 : txd.txd6 = txd6V2 info) :
    soc.controls txd =
      if info.first then ⟨info.gso, info.csum, if info.vlan then some info.vlanTci else none⟩
      else ⟨false, false, none⟩ := by
  obtain ⟨tag, txd5⟩ := txd5
  have read : soc.controls txd = ⟨txd.txd5.getLsbD 31, decide (txd.txd5.extractLsb' 28 3 = 7),
      if txd.txd6.getLsbD 16 then some (txd.txd6.extractLsb' 0 16) else none⟩ := by
    unfold TxDescSoc.controls
    cases other : soc.netsys with
    | v1 => exact absurd other netsys
    | v2 => rw [qdma, if_pos rfl]
    | v3 => rw [qdma, if_pos rfl]
  rw [read, txd5, txd6]
  simp (disch := omega) only [txd6V2, flags_eq, setWidth_eq_place info.vlanTci, extract_orIf,
    BitVec.extractLsb'_or, extract_place, extract_place_apart, getLsbD_orIf, BitVec.getLsbD_or,
    getLsbD_place]
  cases info.first <;> cases info.csum <;> cases info.vlan <;> simp [orIf]

theorem qdma_controls (qdma : soc.qdma = true) :
    soc.controls (mtkTxSetDmaDesc soc p info tagValid txd).2 =
      if info.first then ⟨info.gso, info.csum, if info.vlan then some info.vlanTci else none⟩
      else ⟨false, false, none⟩ := by
  unfold mtkTxSetDmaDesc
  rw [if_pos qdma]
  cases netsys : soc.netsys with
  | v1 => exact controls_v1 netsys
  | v2 => exact controls_v2 qdma (by rw [netsys]; decide) ⟨false, rfl⟩ rfl
  | v3 => exact controls_v2 qdma (by rw [netsys]; decide) ⟨_, rfl⟩ rfl

theorem extract_txd4V2 : (txd4V2 p info).extractLsb' 8 4 =
    if p.hnatMagic then 4#4 else (fportV2 p).setWidth 4 := by
  rw [txd4V2, ← show TX_DMA_FPORT_SHIFT_V2 = 8 from rfl,
    extract_hnatFport masks_v2.1 masks_v2.2 (by decide), show TX_DMA_FPORT_SHIFT_V2 = 8 from rfl]
  simp (disch := omega) only [fportV2_eq, flags_eq, qidBitsV2_eq, BitVec.extractLsb'_or,
    extract_place, extract_place_apart]
  simp

theorem extract_putField (value : BitVec 8) (data : BitVec 32) :
    (putField TX_DMA_TPORT_MASK TX_DMA_TPORT_SHIFT value data).extractLsb' 8 4 =
      data.extractLsb' 8 4 := by
  have mask : TX_DMA_TPORT_MASK <<< TX_DMA_TPORT_SHIFT = place 32 0 (BitVec.allOnes 4) := by
    decide
  have value_eq : (value.setWidth 32 &&& TX_DMA_TPORT_MASK) <<< TX_DMA_TPORT_SHIFT =
      place 32 0 ((value.setWidth 32).setWidth 4) := by
    rw [show TX_DMA_TPORT_MASK = (BitVec.allOnes 4).setWidth 32 from rfl, and_mask,
      place_shiftLeft]
    rfl
  unfold putField
  split_ifs
  · rfl
  · rw [mask, value_eq, BitVec.extractLsb'_or, extract_clear_apart _ _ (by omega) (by omega),
      extract_place_apart _ (by omega), BitVec.or_zero]

theorem qdma_forwardPort (qdma : soc.qdma = true) :
    soc.forwardPort (mtkTxSetDmaDesc soc p info tagValid txd).2 = p.port soc := by
  unfold TxDescSoc.forwardPort mtkTxSetDmaDesc TxPacket.port
  rw [if_pos qdma, if_pos qdma, qdma, Bool.true_and]
  cases netsys : soc.netsys with
  | v1 =>
    simp only [mtkTxSetDmaDescV1]
    rw [← show TX_DMA_FPORT_SHIFT = 25 from rfl,
      extract_hnatFport masks_v1.1 masks_v1.2 (by decide), show TX_DMA_FPORT_SHIFT = 25 from rfl]
    simp (disch := omega) only [fportV1_eq, qidHighBits_eq, flags_eq,
      setWidth_eq_place info.vlanTci, extract_orIf, BitVec.extractLsb'_or, extract_place,
      extract_place_apart]
    have wide : (BitVec.ofNat 3 (p.macId.val + 1)).setWidth 4 =
        BitVec.ofNat 4 (p.macId.val + 1) := by
      generalize p.macId = macId
      revert macId
      decide
    cases p.hnatMagic <;> simp [orIf, wide]
  | v2 => exact extract_txd4V2
  | v3 => exact (extract_putField ..).trans extract_txd4V2

end Qdma

/-! ## Two segments of the PDMA -/

section Pdma

variable {soc : TxDescSoc} {p : TxPacket} {info : TxDescInfo} {tagValid : Bool} {txd : Txd}
  {addr addr' : DmaAddr} {size size' k k' : Nat}

theorem pdma_netsys (pdma : soc.qdma = false) : soc.netsys = .v1 ∨ soc.netsys = .v3 := by
  cases netsys : soc.netsys with
  | v1 => exact .inl rfl
  | v2 =>
    have := soc.qdma_netsys netsys
    rw [pdma] at this
    cases this
  | v3 => exact .inr rfl

theorem addr64_eq : (if soc.dma36 then txDmaPrepAddr64 addr else 0) =
    place 32 0 (if soc.dma36 then (addr >>> 32).setWidth 4 else 0#4) := by
  split_ifs
  · exact txDmaPrepAddr64_eq addr
  · rfl

/-- A descriptor has its first piece, and nothing else in the word of its length. -/
structure FilledFirst (soc : TxDescSoc) (addr : DmaAddr) (size : Nat) (txd : Txd) : Prop where
  txd1 : txd.txd1 = addr.setWidth 32
  txd2 : txd.txd2 = if soc.netsys = .v3 then
      soc.plen0 size ||| (if soc.dma36 then txDmaPrepAddr64 addr else 0) else soc.plen0 size

theorem filledFirst_setup (pdma : soc.qdma = false) (even : k % 2 = 0) :
    FilledFirst soc addr size (setupTxDesc soc addr size k txd) := by
  have not_odd : k % 2 ≠ 1 := by omega
  unfold setupTxDesc
  rw [if_neg (by simp [pdma]), if_neg not_odd]
  by_cases netsys : soc.netsys = .v3
  · rw [if_pos netsys]
    exact ⟨rfl, by rw [if_pos netsys]⟩
  · rw [if_neg netsys]
    exact ⟨rfl, by rw [if_neg netsys]⟩

theorem segments_first (pdma : soc.qdma = false) (filled : FilledFirst soc addr size txd)
    (odd : k % 2 = 1) (fits : size ≤ soc.dmaMaxLen) (reach : addr.toNat < 2 ^ soc.dmaBits) :
    soc.segments (markLast soc k txd) = [⟨addr, size, true⟩] := by
  unfold TxDescSoc.segments markLast
  rw [if_neg (by simp [pdma]), if_pos odd]
  simp only [filled.txd1, filled.txd2]
  rcases pdma_netsys pdma with netsys | netsys
  · have high (word : BitVec 32) : soc.address (addr.setWidth 32) word = addr :=
      address_eq reach fun v3 => by
        rw [netsys] at v3
        cases v3
    simp (disch := omega) only [netsys, reduceCtorEq, if_false, TxDescSoc.plen0, plen_eq,
      Netsys.bufShift, flags_eq, high, TxDescSoc.length, BitVec.extractLsb'_or, extract_place,
      extract_place_apart, BitVec.getLsbD_or, getLsbD_place]
    simpa using lt_size14 netsys fits
  · have low : (place 32 8 (BitVec.ofNat 16 size) ||| place 32 0
        (if soc.dma36 then (addr >>> 32).setWidth 4 else 0#4) ||| place 32 30 1#1).extractLsb' 0 4 =
          if soc.dma36 then (addr >>> 32).setWidth 4 else 0#4 := by
      simp (disch := omega) only [BitVec.extractLsb'_or, extract_place, extract_place_apart]
      simp
    simp (disch := omega) only [netsys, if_true, TxDescSoc.plen0, plen_eq, Netsys.bufShift,
      flags_eq, addr64_eq]
    rw [address_eq reach fun _ => low]
    simp (disch := omega) only [TxDescSoc.length, netsys, BitVec.extractLsb'_or, extract_place,
      extract_place_apart, BitVec.getLsbD_or, getLsbD_place]
    simpa using lt_size16 (by rw [netsys]; decide) fits

theorem segments_both (pdma : soc.qdma = false) (filled : FilledFirst soc addr size txd)
    (odd : k % 2 = 1) (even : k' % 2 = 0) (fits : size ≤ soc.dmaMaxLen)
    (reach : addr.toNat < 2 ^ soc.dmaBits) (fits' : size' ≤ soc.dmaMaxLen)
    (reach' : addr'.toNat < 2 ^ soc.dmaBits) (last : Bool) :
    soc.segments (if last then markLast soc k' (setupTxDesc soc addr' size' k txd)
      else setupTxDesc soc addr' size' k txd) =
        [⟨addr, size, false⟩, ⟨addr', size', last⟩] := by
  have not_odd : k' % 2 ≠ 1 := by omega
  unfold TxDescSoc.segments markLast setupTxDesc
  rw [if_neg not_odd]
  simp only [if_neg (show ¬soc.qdma = true by simp [pdma]), if_pos odd]
  rcases pdma_netsys pdma with netsys | netsys
  · have high (addr : DmaAddr) (reach : addr.toNat < 2 ^ soc.dmaBits) (word : BitVec 32) :
        soc.address (addr.setWidth 32) word = addr :=
      address_eq reach fun v3 => by
        rw [netsys] at v3
        cases v3
    have low : (addr'.setWidth 32).setWidth 64 = addr' := by
      simpa [TxDescSoc.address, netsys] using high addr' reach' 0
    cases last with
    | false =>
      simp (disch := omega) only [netsys, reduceCtorEq, if_false, filled.txd1, filled.txd2,
        Bool.false_eq_true, TxDescSoc.plen0, TxDescSoc.plen1, plen_eq, Netsys.bufShift,
        high addr reach, TxDescSoc.length, TxDescSoc.second, low, BitVec.extractLsb'_or,
        extract_place, extract_place_apart, BitVec.getLsbD_or, getLsbD_place]
      simpa using ⟨lt_size14 netsys fits, lt_size14 netsys fits'⟩
    | true =>
      simp (disch := omega) only [netsys, reduceCtorEq, if_false, filled.txd1, filled.txd2,
        if_true, TxDescSoc.plen0, TxDescSoc.plen1, plen_eq, Netsys.bufShift, flags_eq,
        high addr reach, TxDescSoc.length, TxDescSoc.second, low, BitVec.extractLsb'_or,
        extract_place, extract_place_apart, BitVec.getLsbD_or, getLsbD_place]
      simpa using ⟨lt_size14 netsys fits, lt_size14 netsys fits'⟩
  · have low (addr : DmaAddr) (size : Nat) (rest : BitVec 32)
        (clear : rest.extractLsb' 0 4 = 0#4) :
        (place 32 8 (BitVec.ofNat 16 size) ||| place 32 0
          (if soc.dma36 then (addr >>> 32).setWidth 4 else 0#4) ||| rest).extractLsb' 0 4 =
            if soc.dma36 then (addr >>> 32).setWidth 4 else 0#4 := by
      simp (disch := omega) only [BitVec.extractLsb'_or, extract_place, extract_place_apart, clear]
      simp
    have plain (addr : DmaAddr) (size : Nat) : (place 32 8 (BitVec.ofNat 16 size) ||| place 32 0
          (if soc.dma36 then (addr >>> 32).setWidth 4 else 0#4)).extractLsb' 0 4 =
            if soc.dma36 then (addr >>> 32).setWidth 4 else 0#4 := by
      simpa using low addr size 0#32 (by decide)
    have long : soc.netsys ≠ .v1 := by
      rw [netsys]
      decide
    cases last with
    | false =>
      simp (disch := omega) only [netsys, if_true, filled.txd1, filled.txd2, Bool.false_eq_true,
        if_false, TxDescSoc.plen0, TxDescSoc.plen1, plen_eq, Netsys.bufShift, addr64_eq,
        TxDescSoc.second]
      rw [address_eq reach fun _ => plain addr size, address_eq reach' fun _ => plain addr' size']
      simp (disch := omega) only [TxDescSoc.length, netsys, BitVec.extractLsb'_or, extract_place,
        extract_place_apart, BitVec.getLsbD_or, getLsbD_place]
      simpa using ⟨lt_size16 long fits, lt_size16 long fits'⟩
    | true =>
      simp (disch := omega) only [netsys, if_true, filled.txd1, filled.txd2, TxDescSoc.plen0,
        TxDescSoc.plen1, plen_eq, Netsys.bufShift, addr64_eq, flags_eq, TxDescSoc.second]
      rw [address_eq reach fun _ => plain addr size,
        address_eq reach' fun _ => low addr' size' _ (by decide)]
      simp (disch := omega) only [TxDescSoc.length, netsys, BitVec.extractLsb'_or, extract_place,
        extract_place_apart, BitVec.getLsbD_or, getLsbD_place]
      simpa using ⟨lt_size16 long fits, lt_size16 long fits'⟩

/-! ## The controls of the PDMA -/

/-- Two descriptors have the same words from the fifth on. -/
structure SameTail (txd txd' : Txd) : Prop where
  txd5 : txd'.txd5 = txd.txd5
  txd6 : txd'.txd6 = txd.txd6
  txd7 : txd'.txd7 = txd.txd7
  txd8 : txd'.txd8 = txd.txd8

theorem SameTail.refl (txd : Txd) : SameTail txd txd := ⟨rfl, rfl, rfl, rfl⟩

theorem SameTail.trans {txd'' : Txd} {txd' : Txd} (first : SameTail txd txd')
    (second : SameTail txd' txd'') : SameTail txd txd'' :=
  ⟨second.txd5.trans first.txd5, second.txd6.trans first.txd6, second.txd7.trans first.txd7,
    second.txd8.trans first.txd8⟩

theorem sameTail_setup : SameTail txd (setupTxDesc soc addr size k txd) := by
  unfold setupTxDesc
  dsimp only
  split_ifs <;> exact ⟨rfl, rfl, rfl, rfl⟩

theorem sameTail_markLast : SameTail txd (markLast soc k txd) := by
  unfold markLast
  split_ifs <;> exact ⟨rfl, rfl, rfl, rfl⟩

theorem setup_txd4 (netsys : soc.netsys ≠ .v3) :
    (setupTxDesc soc addr size k txd).txd4 = txd.txd4 := by
  unfold setupTxDesc
  dsimp only
  split_ifs <;> rfl

theorem markLast_txd4 (netsys : soc.netsys ≠ .v3) : (markLast soc k txd).txd4 = txd.txd4 := by
  unfold markLast
  split_ifs <;> rfl

theorem pdma_controls (pdma : soc.qdma = false) (netsys : soc.netsys = .v3)
    (first : info.first = true) {txd' : Txd} (same : SameTail (mtkTxSetPdmaDesc p info txd) txd') :
    (soc.controls txd').tso = info.gso ∧ (soc.controls txd').csum = info.csum ∧
      (info.vlan = true → (soc.controls txd').vlan = some info.vlanTci) ∧
      soc.forwardPort txd' = p.port soc := by
  have txd5 : txd'.txd5 = orIf (orIf (orIf (place 32 16 ((fportV2 p).setWidth 4)) info.gso
      TX_DMA_TSO_V2) info.csum TX_DMA_CHKSUM_V2) p.dsa TX_DMA_SPTAG_V3 := by
    rw [same.txd5, mtkTxSetPdmaDesc, if_pos first]
    exact congrArg (fun word => orIf (orIf (orIf word info.gso TX_DMA_TSO_V2) info.csum
      TX_DMA_CHKSUM_V2) p.dsa TX_DMA_SPTAG_V3) (fportV2_eq TX_DMA_FPORT_SHIFT_PDMA)
  unfold TxDescSoc.controls TxDescSoc.forwardPort TxPacket.port
  simp only [netsys, pdma, Bool.false_eq_true, if_false, Bool.false_and, txd5]
  simp (disch := omega) only [flags_eq, extract_orIf, extract_place, extract_place_apart,
    getLsbD_orIf, getLsbD_place]
  refine ⟨by simp, by cases info.csum <;> simp [orIf], fun vlan => ?_, by simp [orIf]⟩
  have txd6 : txd'.txd6 = place 32 16 1#1 := by
    rw [same.txd6, mtkTxSetPdmaDesc, if_pos first]
    exact if_pos vlan
  have txd7 : txd'.txd7 = place 32 0 info.vlanTci := by
    rw [same.txd7, mtkTxSetPdmaDesc, if_pos first, ← setWidth_eq_place]
    exact if_pos vlan
  rw [txd6, txd7, extract_place _ (by omega), getLsbD_place]
  simp

end Pdma

end MetaFilogic.Eth
