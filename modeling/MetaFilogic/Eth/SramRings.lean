import Mathlib.Data.List.Nodup
import Mathlib.Tactic.Tauto
import Mathlib.Algebra.Ring.Nat

/-!
# The rings in SRAM

The rings of descriptors are placed in the SRAM of the chip as far as it goes, one after another,
and in coherent memory otherwise.  Each allocation finds its place from that of another ring.
-/

namespace MetaFilogic.Eth.Sram

/-! ## Allocation -/

structure Soc where
  hasSram : Bool
  qdma : Bool
  rss : Bool
  hwlro : Bool
  txdSize : Nat
  rxdSize : Nat
  txDmaSize : Nat
  rxDmaSize : Nat
  fqDmaSize : Nat
  txd_pos : 0 < txdSize
  rxd_pos : 0 < rxdSize
  tx_pos : 0 < txDmaSize
  rx_pos : 0 < rxDmaSize
  fq_pos : 0 < fqDmaSize

def MTK_MAX_TX_RING_NUM : Nat := 4
def MTK_RX_RSS_NUM : Nat := 3
def MTK_HW_LRO_RING_NUM : Nat := 4
def MTK_HW_LRO_DMA_SIZE : Nat := 8

def mtkRssRing (x : Nat) : Nat := x + 1

def mtkHwLroRing (x : Nat) : Nat := x + 4

def u32 (n : Nat) : Nat := n % 2 ^ 32

structure Addr where
  phys : Nat
  virt : Nat

/-- The SRAM: `sram_base`, `sram_size` and its address for the device. -/
structure Window where
  base : Nat
  virt : Nat
  size : Nat

/-- A ring, of `bytes` bytes; `allocated` is what `dma_alloc_coherent` was asked for. -/
structure Ring where
  phys : Nat
  dma : Nat
  inSram : Bool
  bytes : Nat
  allocated : Nat

inductive RxFlags where
  | normal
  | hwlro
  | qdma
  deriving DecidableEq

/-- `mtk_validate_sram_range(eth, offset, size)`, where `start` is `phy_scratch_ring`. -/
def mtkValidateSramRange (start sramSize offset size : Nat) : Bool :=
  start ≤ offset ∧ offset + size - 1 ≤ start + sramSize - 1

/-- A ring that `dma_alloc_coherent` places. -/
def coherentRing (addr : Addr) (bytes : Nat) : Ring :=
  ⟨addr.phys, addr.virt, false, bytes, u32 bytes⟩

variable (soc : Soc) (w : Window)

/-- `mtk_init_fq_dma`; `phy` is `phy_scratch_ring` on entry, `addr` is for coherent memory. -/
def mtkInitFqDma (phy : Nat) (addr : Addr) : Ring :=
  let cnt := soc.fqDmaSize
  if soc.hasSram && mtkValidateSramRange phy w.size phy (cnt * soc.txdSize) then
    ⟨phy, w.virt, true, cnt * soc.txdSize, 0⟩
  else coherentRing addr (cnt * soc.txdSize)

def mtkTxAlloc (phy : Nat) (ringNo : Nat) (addr : Addr) : Ring :=
  let sz := soc.txdSize
  let offset := soc.fqDmaSize * sz + soc.txDmaSize * sz * ringNo
  if soc.hasSram && mtkValidateSramRange phy w.size (phy + offset) (soc.txDmaSize * sz) then
    ⟨phy + offset, w.virt + offset, true, soc.txDmaSize * sz, 0⟩
  else coherentRing addr (soc.txDmaSize * sz)

def txRingNum : Nat := if soc.qdma then 1 else MTK_MAX_TX_RING_NUM

/-- `mtk_rx_alloc(eth, ring_no, rx_flag)`, where `tx` is the first ring of `tx_ring`. -/
def mtkRxAlloc (phy : Nat) (tx : Ring) (ringNo : Nat) (rxFlag : RxFlags) (addr : Addr) : Ring :=
  let rxDmaSize := if rxFlag = .hwlro then MTK_HW_LRO_DMA_SIZE else soc.rxDmaSize
  let offset := soc.txDmaSize * soc.txdSize * txRingNum soc + soc.rxDmaSize * soc.rxdSize * ringNo
  if ¬soc.hasSram ∨ soc.hasSram ∧ (rxFlag ≠ .normal ∨
      ¬mtkValidateSramRange phy w.size (tx.phys + offset) (u32 (rxDmaSize * soc.rxdSize))) then
    coherentRing addr (rxDmaSize * soc.rxdSize)
  else ⟨tx.phys + offset, tx.dma + offset, true, rxDmaSize * soc.rxdSize, 0⟩

inductive RingId where
  | fq
  | tx (i : Nat)
  | rxQdma
  | rx (i : Nat)
  deriving DecidableEq

/-- Where coherent memory is found for a ring, and `phy_scratch_ring` before the first one. -/
structure Placement where
  entry : Nat
  coherent : RingId → Addr

variable (place : Placement)

namespace Placement

def fqRing : Ring := mtkInitFqDma soc w place.entry (place.coherent .fq)

/-- `phy_scratch_ring` after `mtk_init_fq_dma`, which only a QDMA has. -/
def phy : Nat := if soc.qdma then (place.fqRing soc w).phys else place.entry

def txRing (i : Nat) : Ring := mtkTxAlloc soc w (place.phy soc w) i (place.coherent (.tx i))

def rxRing (i : Nat) (rxFlag : RxFlags) (id : RingId) : Ring :=
  mtkRxAlloc soc w (place.phy soc w) (place.txRing soc w 0) i rxFlag (place.coherent id)

end Placement

def mtkDmaInit : List (RingId × Ring) :=
  (if soc.qdma then [(.fq, place.fqRing soc w)] else []) ++
  (List.range (txRingNum soc)).map (fun i => (.tx i, place.txRing soc w i)) ++
  (if soc.qdma then [(.rxQdma, place.rxRing soc w 0 .qdma .rxQdma)] else []) ++
  [(.rx 0, place.rxRing soc w 0 .normal (.rx 0))] ++
  (if soc.hwlro then (List.range MTK_HW_LRO_RING_NUM).map fun i =>
    (.rx (mtkHwLroRing i), place.rxRing soc w (mtkHwLroRing i) .hwlro (.rx (mtkHwLroRing i)))
  else []) ++
  (if soc.rss then (List.range MTK_RX_RSS_NUM).map fun i =>
    (.rx (mtkRssRing i), place.rxRing soc w (mtkRssRing i) .normal (.rx (mtkRssRing i)))
  else [])

/-! ## What is asked for -/

def Apart (start len start' len' : Nat) : Prop := start + len ≤ start' ∨ start' + len' ≤ start

instance (start len start' len' : Nat) : Decidable (Apart start len start' len') :=
  inferInstanceAs (Decidable (_ ∨ _))

/-- The bytes of a ring are in the SRAM, the same ones for the CPU and for the device. -/
def Inside (ring : Ring) : Prop :=
  ∃ offset, ring.phys = w.base + offset ∧ ring.dma = w.virt + offset ∧ offset + ring.bytes ≤ w.size

structure Partition (rings : List (RingId × Ring)) : Prop where
  inside : ∀ r ∈ rings, r.2.inSram → Inside w r.2
  apart : rings.Pairwise fun r r' => r.2.inSram → r'.2.inSram →
    Apart r.2.phys r.2.bytes r'.2.phys r'.2.bytes
  backed : ∀ r ∈ rings, r.2.inSram = false → r.2.bytes ≤ r.2.allocated

def fqBytes : Nat := soc.fqDmaSize * soc.txdSize
def txBytes : Nat := soc.txDmaSize * soc.txdSize
def rxBytes : Nat := soc.rxDmaSize * soc.rxdSize
def hwlroBytes : Nat := MTK_HW_LRO_DMA_SIZE * soc.rxdSize

def RingId.asked : RingId → Nat
  | .fq => u32 (fqBytes soc)
  | .tx _ => u32 (txBytes soc)
  | .rxQdma => u32 (rxBytes soc)
  | .rx i => if i < 4 then u32 (rxBytes soc) else u32 (hwlroBytes soc)

/-- Coherent memory is outside of the SRAM, each allocation apart from the others; the address of
the scratch ring is that of the SRAM, or was cleared when a scratch ring in memory was freed. -/
structure Placement.Valid : Prop where
  entry : place.entry = w.base ∨ place.entry = 0 ∧ soc.qdma ∧ w.size < fqBytes soc
  outside : ∀ id, Apart (place.coherent id).phys (id.asked soc) w.base w.size
  apart : ∀ id id', id ≠ id' → Apart (place.coherent id).phys (id.asked soc)
    (place.coherent id').phys (id'.asked soc)

/-- How many rings `mtk_rx_alloc` may place in the SRAM. -/
def rxRingNum : Nat := if soc.rss then 1 + MTK_RX_RSS_NUM else 1

/-- A ring of `bytes` bytes is in SRAM up to `bound`, or its size is not cut in 32 bits. -/
def FitsOr (bound size bytes : Nat) : Prop := soc.hasSram ∧ bound ≤ size ∨ bytes < 2 ^ 32

/-- The first ring of `tx_ring` is in the SRAM, or the rings that are placed from it are too large
for the SRAM; and no size is cut for a ring in memory. -/
structure Fits (size : Nat) : Prop where
  fq : soc.qdma → FitsOr soc (fqBytes soc) size (fqBytes soc)
  tx : ∀ i < txRingNum soc, FitsOr soc (fqBytes soc + txBytes soc * (i + 1)) size (txBytes soc)
  rxQdma : soc.qdma → rxBytes soc < 2 ^ 32
  hwlro : soc.hwlro → hwlroBytes soc < 2 ^ 32
  rx : FitsOr soc (fqBytes soc + txBytes soc * txRingNum soc + rxBytes soc * rxRingNum soc) size
    (rxBytes soc)
  anchored : soc.hasSram → fqBytes soc + txBytes soc ≤ size ∨ size < rxBytes soc

/-! ## Places in the SRAM -/

section Places

variable {soc w place} {i : Nat} {rxFlag : RxFlags} {id : RingId}

theorem mtkValidateSramRange_iff {sramSize : Nat} (start offset size : Nat)
    (positive : 0 < sramSize) :
    mtkValidateSramRange start sramSize offset size = true ↔
      start ≤ offset ∧ offset + size ≤ start + sramSize := by
  rw [mtkValidateSramRange, decide_eq_true_eq]
  omega

theorem rxBytes_pos (soc : Soc) : 0 < rxBytes soc := Nat.mul_pos soc.rx_pos soc.rxd_pos

structure At (w : Window) (start : Nat) (ring : Ring) : Prop where
  phys : ring.phys = w.base + start
  dma : ring.dma = w.virt + start

theorem fqRing_cases (soc : Soc) (w : Window) (place : Placement) (positive : 0 < w.size) :
    (soc.hasSram ∧ fqBytes soc ≤ w.size) ∧
      place.fqRing soc w = ⟨place.entry, w.virt, true, fqBytes soc, 0⟩ ∨
    ¬(soc.hasSram ∧ fqBytes soc ≤ w.size) ∧
      place.fqRing soc w = coherentRing (place.coherent .fq) (fqBytes soc) := by
  have range : mtkValidateSramRange place.entry w.size place.entry (fqBytes soc) = true ↔
      fqBytes soc ≤ w.size := by
    rw [mtkValidateSramRange_iff _ _ _ positive]
    omega
  have accepts : (soc.hasSram && mtkValidateSramRange place.entry w.size place.entry
      (soc.fqDmaSize * soc.txdSize)) = true ↔ soc.hasSram ∧ fqBytes soc ≤ w.size := by
    rw [Bool.and_eq_true]
    exact and_congr_right fun _ => range
  by_cases fits : soc.hasSram ∧ fqBytes soc ≤ w.size
  · exact .inl ⟨fits, if_pos (accepts.2 fits)⟩
  · exact .inr ⟨fits, if_neg (mt accepts.1 fits)⟩

theorem Placement.Valid.entry_eq (valid : place.Valid soc w) (fits : fqBytes soc ≤ w.size) :
    place.entry = w.base :=
  valid.entry.resolve_right fun cleared => absurd cleared.2.2 (by omega)

theorem Placement.Valid.phy_eq (valid : place.Valid soc w) (positive : 0 < w.size)
    (sram : soc.hasSram) (fits : fqBytes soc ≤ w.size) : place.phy soc w = w.base := by
  rw [Placement.phy]
  split
  · rcases fqRing_cases soc w place positive with ⟨-, ring⟩ | ⟨large, -⟩
    · rw [ring]
      exact valid.entry_eq fits
    · exact absurd ⟨sram, fits⟩ large
  · exact valid.entry_eq fits

theorem txRing_cases (soc : Soc) (w : Window) (place : Placement) (positive : 0 < w.size) (i : Nat) :
    (soc.hasSram ∧ fqBytes soc + txBytes soc * (i + 1) ≤ w.size) ∧
      place.txRing soc w i = ⟨place.phy soc w + (fqBytes soc + txBytes soc * i),
        w.virt + (fqBytes soc + txBytes soc * i), true, txBytes soc, 0⟩ ∨
    ¬(soc.hasSram ∧ fqBytes soc + txBytes soc * (i + 1) ≤ w.size) ∧
      place.txRing soc w i = coherentRing (place.coherent (.tx i)) (txBytes soc) := by
  have range : mtkValidateSramRange (place.phy soc w) w.size
      (place.phy soc w + (fqBytes soc + txBytes soc * i)) (txBytes soc) = true ↔
        fqBytes soc + txBytes soc * (i + 1) ≤ w.size := by
    rw [mtkValidateSramRange_iff _ _ _ positive, Nat.mul_succ]
    omega
  have accepts : (soc.hasSram && mtkValidateSramRange (place.phy soc w) w.size
      (place.phy soc w + (fqBytes soc + txBytes soc * i)) (txBytes soc)) = true ↔
        soc.hasSram ∧ fqBytes soc + txBytes soc * (i + 1) ≤ w.size := by
    rw [Bool.and_eq_true]
    exact and_congr_right fun _ => range
  by_cases fits : soc.hasSram ∧ fqBytes soc + txBytes soc * (i + 1) ≤ w.size
  · exact .inl ⟨fits, if_pos (accepts.2 fits)⟩
  · exact .inr ⟨fits, if_neg (mt accepts.1 fits)⟩

/-- How far a ring for packets received is from the first ring of `tx_ring`. -/
def rxOffset (soc : Soc) (i : Nat) : Nat := txBytes soc * txRingNum soc + rxBytes soc * i

/-- The check that `mtk_rx_alloc` makes. -/
def Accepted (soc : Soc) (w : Window) (place : Placement) (i : Nat) : Prop :=
  soc.hasSram ∧ place.phy soc w ≤ (place.txRing soc w 0).phys + rxOffset soc i ∧
    (place.txRing soc w 0).phys + rxOffset soc i + u32 (rxBytes soc) ≤ place.phy soc w + w.size

theorem rxRing_normal (soc : Soc) (w : Window) (place : Placement) (positive : 0 < w.size)
    (i : Nat) (id : RingId) :
    Accepted soc w place i ∧ place.rxRing soc w i .normal id =
      ⟨(place.txRing soc w 0).phys + rxOffset soc i, (place.txRing soc w 0).dma + rxOffset soc i,
        true, rxBytes soc, 0⟩ ∨
    ¬Accepted soc w place i ∧
      place.rxRing soc w i .normal id = coherentRing (place.coherent id) (rxBytes soc) := by
  have range := mtkValidateSramRange_iff (place.phy soc w)
    ((place.txRing soc w 0).phys + rxOffset soc i) (u32 (rxBytes soc)) positive
  have rejects : (¬soc.hasSram ∨ soc.hasSram ∧ (RxFlags.normal ≠ .normal ∨
      ¬mtkValidateSramRange (place.phy soc w) w.size ((place.txRing soc w 0).phys + rxOffset soc i)
        (u32 (rxBytes soc)))) ↔ ¬Accepted soc w place i := by
    rw [Accepted, range]
    tauto
  by_cases accepted : Accepted soc w place i
  · exact .inl ⟨accepted, if_neg fun fails => rejects.1 fails accepted⟩
  · exact .inr ⟨accepted, if_pos (rejects.2 accepted)⟩

theorem rxRing_other (other : rxFlag ≠ .normal) (i : Nat) (id : RingId) :
    place.rxRing soc w i rxFlag id = coherentRing (place.coherent id)
      (if rxFlag = .hwlro then hwlroBytes soc else rxBytes soc) := by
  rw [Placement.rxRing, mtkRxAlloc]
  rw [if_pos (by cases soc.hasSram <;> simp [other])]
  split <;> rfl

end Places

/-! ## The list of rings -/

section Rings

variable {soc w place} {r r' : RingId × Ring}

theorem rxRings_iff (ring : Nat → RingId × Ring) :
    (∃ i < rxRingNum soc, ring i = r) ↔
      r = ring 0 ∨ soc.rss ∧ ∃ i < MTK_RX_RSS_NUM, ring (mtkRssRing i) = r := by
  constructor
  · rintro ⟨i, below, rfl⟩
    cases i with
    | zero => exact .inl rfl
    | succ i =>
      rw [rxRingNum] at below
      split at below
      · rename_i enabled
        exact .inr ⟨enabled, i, by omega, rfl⟩
      · omega
  · rintro (rfl | ⟨enabled, i, below, rfl⟩)
    · exact ⟨0, by rw [rxRingNum]; split <;> omega, rfl⟩
    · exact ⟨mtkRssRing i, by rw [rxRingNum, if_pos enabled, mtkRssRing]; omega, rfl⟩

theorem mem_mtkDmaInit (soc : Soc) (w : Window) (place : Placement) :
    r ∈ mtkDmaInit soc w place ↔
      soc.qdma ∧ r = (.fq, place.fqRing soc w) ∨
      (∃ i < txRingNum soc, (.tx i, place.txRing soc w i) = r) ∨
      soc.qdma ∧ r = (.rxQdma, place.rxRing soc w 0 .qdma .rxQdma) ∨
      (∃ i < rxRingNum soc, (.rx i, place.rxRing soc w i .normal (.rx i)) = r) ∨
      soc.hwlro ∧ ∃ i < MTK_HW_LRO_RING_NUM, (.rx (mtkHwLroRing i),
        place.rxRing soc w (mtkHwLroRing i) .hwlro (.rx (mtkHwLroRing i))) = r := by
  have optional : ∀ (flag : Bool) (rings : List (RingId × Ring)),
      r ∈ (if flag then rings else []) ↔ flag ∧ r ∈ rings := fun flag _ => by cases flag <;> simp
  rw [rxRings_iff fun i => (.rx i, place.rxRing soc w i .normal (.rx i))]
  simp only [mtkDmaInit, List.mem_append, optional, List.mem_map, List.mem_range,
    List.mem_singleton]
  constructor
  · rintro (((((fq | tx) | rxQdma) | first) | hwlro) | rss)
    · exact .inl fq
    · exact .inr (.inl tx)
    · exact .inr (.inr (.inl rxQdma))
    · exact .inr (.inr (.inr (.inl (.inl first))))
    · exact .inr (.inr (.inr (.inr hwlro)))
    · exact .inr (.inr (.inr (.inl (.inr rss))))
  · rintro (fq | tx | rxQdma | (first | rss) | hwlro)
    · exact .inl (.inl (.inl (.inl (.inl fq))))
    · exact .inl (.inl (.inl (.inl (.inr tx))))
    · exact .inl (.inl (.inl (.inr rxQdma)))
    · exact .inl (.inl (.inr first))
    · exact .inr rss
    · exact .inl (.inr hwlro)

def ringIds (qdma hwlro rss : Bool) : List RingId :=
  (if qdma then [.fq] else []) ++
  (List.range (if qdma then 1 else MTK_MAX_TX_RING_NUM)).map .tx ++
  (if qdma then [.rxQdma] else []) ++ [.rx 0] ++
  (if hwlro then (List.range MTK_HW_LRO_RING_NUM).map (.rx ∘ mtkHwLroRing) else []) ++
  (if rss then (List.range MTK_RX_RSS_NUM).map (.rx ∘ mtkRssRing) else [])

theorem nodup_mtkDmaInit (soc : Soc) (w : Window) (place : Placement) :
    (mtkDmaInit soc w place).Pairwise fun r r' => r.1 ≠ r'.1 := by
  have same : (mtkDmaInit soc w place).map Prod.fst = ringIds soc.qdma soc.hwlro soc.rss := by
    rw [mtkDmaInit, txRingNum]
    cases soc.qdma <;> cases soc.hwlro <;> cases soc.rss <;> rfl
  have nodup : ∀ qdma hwlro rss, (ringIds qdma hwlro rss).Nodup := by decide
  exact List.pairwise_map.1 (same ▸ nodup _ _ _)

def slot (soc : Soc) : RingId → Nat
  | .fq | .rxQdma => 0
  | .tx i => fqBytes soc + txBytes soc * i
  | .rx i => fqBytes soc + rxOffset soc i

def slotBytes (soc : Soc) : RingId → Nat
  | .fq => fqBytes soc
  | .tx _ => txBytes soc
  | .rxQdma | .rx _ => rxBytes soc

def HasSlot (soc : Soc) : RingId → Prop
  | .fq | .rx _ => True
  | .tx i => i < txRingNum soc
  | .rxQdma => False

theorem mul_add_le {i j : Nat} (bytes : Nat) (lower : i < j) : bytes * i + bytes ≤ bytes * j := by
  rw [← Nat.mul_succ]
  exact Nat.mul_le_mul_left bytes lower

theorem slots_apart {id id' : RingId} (has : HasSlot soc id) (has' : HasSlot soc id')
    (ne : id ≠ id') : Apart (slot soc id) (slotBytes soc id) (slot soc id') (slotBytes soc id') := by
  cases id with
  | rxQdma => exact has.elim
  | fq =>
    cases id' with
    | fq => exact absurd rfl ne
    | rxQdma => exact has'.elim
    | tx j | rx j => exact .inl (by simp only [slot, slotBytes]; omega)
  | tx i =>
    cases id' with
    | fq => exact .inr (by simp only [slot, slotBytes]; omega)
    | rxQdma => exact has'.elim
    | tx j =>
      simp only [Apart, slot, slotBytes]
      rcases Nat.lt_or_gt_of_ne fun same : i = j => ne (congrArg RingId.tx same) with lower | higher
      · have below := mul_add_le (txBytes soc) lower
        omega
      · have below := mul_add_le (txBytes soc) higher
        omega
    | rx j =>
      simp only [Apart, slot, slotBytes, rxOffset]
      have below := mul_add_le (txBytes soc) (show i < txRingNum soc from has)
      omega
  | rx i =>
    cases id' with
    | fq => exact .inr (by simp only [slot, slotBytes]; omega)
    | rxQdma => exact has'.elim
    | tx j =>
      simp only [Apart, slot, slotBytes, rxOffset]
      have below := mul_add_le (txBytes soc) (show j < txRingNum soc from has')
      omega
    | rx j =>
      simp only [Apart, slot, slotBytes, rxOffset]
      rcases Nat.lt_or_gt_of_ne fun same : i = j => ne (congrArg RingId.rx same) with lower | higher
      · have below := mul_add_le (rxBytes soc) lower
        omega
      · have below := mul_add_le (rxBytes soc) higher
        omega

end Rings

/-! ## Fitting descriptions -/

section Fitting

variable {soc w place} {r r' : RingId × Ring}

theorem u32_of_lt {n : Nat} (small : n < 2 ^ 32) : u32 n = n := Nat.mod_eq_of_lt small

/-- A ring for packets received is placed in the SRAM only after the first ring of `tx_ring`. -/
theorem Fits.anchor (fits : Fits soc w.size) {i : Nat} (accepted : Accepted soc w place i) :
    fqBytes soc + txBytes soc ≤ w.size := by
  obtain ⟨sram, above, below⟩ := accepted
  refine (fits.anchored sram).resolve_right fun large => ?_
  have small : rxBytes soc < 2 ^ 32 := fits.rx.resolve_left fun room => by
    have one : rxBytes soc ≤ rxBytes soc * rxRingNum soc := Nat.le_mul_of_pos_right _ (by
      rw [rxRingNum]
      split <;> omega)
    omega
  rw [u32_of_lt small] at below
  omega

structure Placed (soc : Soc) (w : Window) (r : RingId × Ring) : Prop where
  slot : r.2.inSram → HasSlot soc r.1 ∧ At w (slot soc r.1) r.2 ∧ r.2.bytes = slotBytes soc r.1 ∧
    Sram.slot soc r.1 + slotBytes soc r.1 ≤ w.size
  backed : r.2.inSram = false → r.2.bytes ≤ r.2.allocated

theorem placed_coherent {id : RingId} {addr : Addr} {bytes : Nat} (small : bytes < 2 ^ 32) :
    Placed soc w (id, coherentRing addr bytes) := ⟨nofun, fun _ => Nat.le_of_eq (u32_of_lt small).symm⟩

theorem placed_fq (fits : Fits soc w.size) (valid : place.Valid soc w) (positive : 0 < w.size)
    (qdma : soc.qdma) : Placed soc w (.fq, place.fqRing soc w) := by
  rcases fqRing_cases soc w place positive with ⟨⟨sram, room⟩, ring⟩ | ⟨large, ring⟩
  · rw [ring, valid.entry_eq room]
    refine ⟨fun _ => ⟨trivial, ⟨rfl, rfl⟩, rfl, ?_⟩, nofun⟩
    rwa [slot, slotBytes, Nat.zero_add]
  · rw [ring]
    exact placed_coherent ((fits.fq qdma).resolve_left large)

theorem placed_tx (fits : Fits soc w.size) (valid : place.Valid soc w) (positive : 0 < w.size)
    {i : Nat} (below : i < txRingNum soc) : Placed soc w (.tx i, place.txRing soc w i) := by
  rcases txRing_cases soc w place positive i with
    ⟨⟨sram, room⟩, ring⟩ | ⟨large, ring⟩
  · have phy := valid.phy_eq positive sram (by omega)
    rw [ring, phy]
    refine ⟨fun _ => ⟨below, ⟨rfl, rfl⟩, rfl, ?_⟩, nofun⟩
    rwa [slot, slotBytes, Nat.add_assoc, ← Nat.mul_succ]
  · rw [ring]
    exact placed_coherent ((fits.tx i below).resolve_left large)

theorem txRing_zero (valid : place.Valid soc w) (positive : 0 < w.size) (sram : soc.hasSram)
    (room : fqBytes soc + txBytes soc ≤ w.size) : place.txRing soc w 0 =
      ⟨w.base + fqBytes soc, w.virt + fqBytes soc, true, txBytes soc, 0⟩ := by
  have one : fqBytes soc + txBytes soc * (0 + 1) ≤ w.size := by omega
  rcases txRing_cases soc w place positive 0 with ⟨-, ring⟩ | ⟨large, -⟩
  · rw [ring, valid.phy_eq positive sram (by omega), Nat.mul_zero, Nat.add_zero]
  · exact absurd ⟨sram, one⟩ large

theorem accepted_iff (valid : place.Valid soc w) (positive : 0 < w.size) (sram : soc.hasSram)
    (room : fqBytes soc + txBytes soc ≤ w.size) (i : Nat) : Accepted soc w place i ↔
      fqBytes soc + rxOffset soc i + u32 (rxBytes soc) ≤ w.size := by
  rw [Accepted, valid.phy_eq positive sram (by omega), txRing_zero valid positive sram room]
  constructor
  · rintro ⟨-, -, below⟩
    dsimp only at below
    omega
  · exact fun below => ⟨sram, by dsimp only; omega, by dsimp only; omega⟩

theorem placed_rx (fits : Fits soc w.size) (valid : place.Valid soc w) (positive : 0 < w.size)
    {i : Nat} (below : i < rxRingNum soc) :
    Placed soc w (.rx i, place.rxRing soc w i .normal (.rx i)) := by
  have upTo := mul_add_le (rxBytes soc) below
  rcases rxRing_normal soc w place positive i (.rx i) with
    ⟨accepted, ring⟩ | ⟨rejected, ring⟩
  · have sram := accepted.1
    have room := fits.anchor accepted
    have checked := (accepted_iff valid positive sram room i).1 accepted
    rw [ring, txRing_zero valid positive sram room]
    refine ⟨fun _ => ⟨trivial, ⟨?_, ?_⟩, rfl, ?_⟩, nofun⟩
    · simp only [slot]
      omega
    · simp only [slot]
      omega
    · rw [slot, slotBytes]
      rcases fits.rx with ⟨-, whole⟩ | small
      · rw [rxOffset]
        omega
      · rwa [u32_of_lt small] at checked
  · rw [ring]
    refine placed_coherent (fits.rx.resolve_left fun ⟨sram, whole⟩ => rejected ?_)
    have cut : u32 (rxBytes soc) ≤ rxBytes soc := Nat.mod_le _ _
    have first : txBytes soc * 1 ≤ txBytes soc * txRingNum soc := Nat.mul_le_mul_left _ (by
      rw [txRingNum, MTK_MAX_TX_RING_NUM]
      split <;> omega)
    refine (accepted_iff valid positive sram (by omega) i).2 ?_
    rw [rxOffset]
    omega

theorem placed (fits : Fits soc w.size) (valid : place.Valid soc w) (positive : 0 < w.size)
    (inList : r ∈ mtkDmaInit soc w place) : Placed soc w r := by
  rcases (mem_mtkDmaInit soc w place).1 inList with
    ⟨qdma, rfl⟩ | ⟨i, below, rfl⟩ | ⟨qdma, rfl⟩ | ⟨i, below, rfl⟩ | ⟨hwlro, i, -, rfl⟩
  · exact placed_fq fits valid positive qdma
  · exact placed_tx fits valid positive below
  · rw [rxRing_other (by decide)]
    exact placed_coherent (fits.rxQdma qdma)
  · exact placed_rx fits valid positive below
  · rw [rxRing_other (by decide)]
    exact placed_coherent (fits.hwlro hwlro)

theorem Fits.partition (fits : Fits soc w.size) (valid : place.Valid soc w)
    (positive : 0 < w.size) : Partition w (mtkDmaInit soc w place) where
  inside := fun r inList inSram => by
    obtain ⟨-, spot, bytes, room⟩ := (placed fits valid positive inList).slot inSram
    exact ⟨slot soc r.1, spot.phys, spot.dma, bytes ▸ room⟩
  apart := (nodup_mtkDmaInit soc w place).imp_of_mem fun inList inList' ne inSram inSram' => by
    obtain ⟨has, spot, bytes, -⟩ := (placed fits valid positive inList).slot inSram
    obtain ⟨has', spot', bytes', -⟩ := (placed fits valid positive inList').slot inSram'
    have apart := slots_apart has has' ne
    rw [spot.phys, spot'.phys, bytes, bytes']
    unfold Apart at apart ⊢
    omega
  backed := fun _ inList => (placed fits valid positive inList).backed

theorem Partition.take {rings : List (RingId × Ring)} (partition : Partition w rings) (stop : Nat) :
    Partition w (rings.take stop) where
  inside := fun r inList => partition.inside r (List.mem_of_mem_take inList)
  apart := partition.apart.take
  backed := fun r inList => partition.backed r (List.mem_of_mem_take inList)

end Fitting

/-! ## Placements that break the partition -/

section Converse

variable {soc w}

def farWindow (size : Nat) : Window := ⟨2 ^ 40, 2 ^ 40, size⟩

def RingId.index : RingId → Nat
  | .fq => 0
  | .rxQdma => 1
  | .tx i => 2 * i + 2
  | .rx i => 2 * i + 3

theorem index_inj {id id' : RingId} (same : id.index = id'.index) : id = id' := by
  cases id <;> cases id' <;> simp only [RingId.index] at same <;>
    first | rfl | (congr 1; omega)

/-- The first ring of `tx_ring` and the scratch ring where one wants them, the other rings far
above the SRAM. -/
def farPlace (size tx fq : Nat) : Placement where
  entry := 2 ^ 40
  coherent := fun id =>
    let phys :=
      match id with
      | .tx 0 => tx
      | .fq => fq
      | _ => 2 ^ 40 + size + 2 ^ 32 * (id.index + 2)
    ⟨phys, phys + 1⟩

theorem asked_lt (soc : Soc) (id : RingId) : id.asked soc < 2 ^ 32 := by
  have cut : ∀ n, u32 n < 2 ^ 32 := fun n => Nat.mod_lt _ (by decide)
  cases id with
  | rx i =>
    rw [RingId.asked]
    split <;> exact cut _
  | fq | tx i | rxQdma => exact cut _

variable {size : Nat}

theorem farPlace_valid {tx fq : Nat} (txOutside : Apart tx (u32 (txBytes soc)) (2 ^ 40) size)
    (fqOutside : Apart fq (u32 (fqBytes soc)) (2 ^ 40) size) (txBelow : tx ≤ 2 ^ 40 + size + 2 ^ 32)
    (fqBelow : fq ≤ 2 ^ 40 + size + 2 ^ 32)
    (apart : Apart tx (u32 (txBytes soc)) fq (u32 (fqBytes soc))) :
    (farPlace size tx fq).Valid soc (farWindow size) := by
  have far : ∀ id : RingId, id ≠ .tx 0 → id ≠ .fq → ((farPlace size tx fq).coherent id).phys =
      2 ^ 40 + size + 2 ^ 32 * (id.index + 2) := by
    intro id notTx notFq
    cases id with
    | fq => exact absurd rfl notFq
    | tx i =>
      cases i with
      | zero => exact absurd rfl notTx
      | succ i => rfl
    | rxQdma | rx i => rfl
  have low : ∀ id : RingId, id = .tx 0 ∨ id = .fq →
      ((farPlace size tx fq).coherent id).phys ≤ 2 ^ 40 + size + 2 ^ 32 := by
    rintro id (rfl | rfl)
    · exact txBelow
    · exact fqBelow
  refine ⟨.inl rfl, fun id => ?_, fun id id' ne => ?_⟩
  · by_cases isTx : id = .tx 0
    · subst isTx
      exact txOutside
    · by_cases isFq : id = .fq
      · subst isFq
        exact fqOutside
      · refine .inr ?_
        rw [far id isTx isFq]
        simp only [farWindow]
        omega
  · have small := asked_lt soc id
    have small' := asked_lt soc id'
    by_cases first : id = .tx 0 ∨ id = .fq
    · by_cases second : id' = .tx 0 ∨ id' = .fq
      · rcases first with rfl | rfl <;> rcases second with rfl | rfl
        · exact absurd rfl ne
        · exact apart
        · exact apart.symm
        · exact absurd rfl ne
      · push Not at second
        refine .inl ?_
        have below := low id first
        rw [far id' second.1 second.2]
        omega
    · push Not at first
      rw [far id first.1 first.2]
      by_cases second : id' = .tx 0 ∨ id' = .fq
      · refine .inr ?_
        have below := low id' second
        omega
      · push Not at second
        rw [far id' second.1 second.2]
        have differ : id.index ≠ id'.index := fun same => ne (index_inj same)
        unfold Apart
        omega

theorem small_of_coherent {rings : List (RingId × Ring)} {id : RingId} {addr : Addr} {bytes : Nat}
    (partition : Partition w rings) (inList : (id, coherentRing addr bytes) ∈ rings) :
    bytes < 2 ^ 32 := by
  have backed : bytes ≤ u32 bytes := partition.backed _ inList rfl
  exact Nat.lt_of_le_of_lt backed (Nat.mod_lt _ (by decide))

theorem rx_mem (soc : Soc) (w : Window) (place : Placement) {i : Nat} (below : i < rxRingNum soc) :
    (.rx i, place.rxRing soc w i .normal (.rx i)) ∈ mtkDmaInit soc w place :=
  (mem_mtkDmaInit soc w place).2 (.inr (.inr (.inr (.inl ⟨i, below, rfl⟩))))

theorem rxRingNum_pos (soc : Soc) : 0 < rxRingNum soc := by
  rw [rxRingNum]
  split <;> omega

theorem txRingNum_le (soc : Soc) : txRingNum soc ≤ 4 := by
  rw [txRingNum, MTK_MAX_TX_RING_NUM]
  split <;> omega

theorem txRingNum_pos (soc : Soc) : 0 < txRingNum soc := by
  rw [txRingNum, MTK_MAX_TX_RING_NUM]
  split <;> omega

theorem not_inside_of_accepted {place : Placement} (positive : 0 < w.size)
    (partition : Partition w (mtkDmaInit soc w place)) (accepted : Accepted soc w place 0)
    (large : ¬(soc.hasSram ∧ fqBytes soc + txBytes soc * (0 + 1) ≤ w.size)) :
    ∃ offset, (place.coherent (.tx 0)).phys + rxOffset soc 0 = w.base + offset ∧
      (place.coherent (.tx 0)).virt + rxOffset soc 0 = w.virt + offset ∧
      offset + rxBytes soc ≤ w.size := by
  have inside := partition.inside _ (rx_mem soc w place (rxRingNum_pos soc))
  rcases txRing_cases soc w place positive 0 with ⟨fits, -⟩ | ⟨-, tx⟩
  · exact absurd fits large
  · rcases rxRing_normal soc w place positive 0 (.rx 0) with
      ⟨-, ring⟩ | ⟨rejected, -⟩
    · rw [ring, tx] at inside
      exact inside rfl
    · exact absurd accepted rejected

abbrev abovePlace (size : Nat) : Placement :=
  farPlace size (2 ^ 40 + size) (2 ^ 40 + size + 2 ^ 32)

theorem abovePlace_valid (soc : Soc) (size : Nat) :
    (abovePlace size).Valid soc (farWindow size) := by
  have cut : ∀ n, u32 n < 2 ^ 32 := fun n => Nat.mod_lt _ (by decide)
  refine farPlace_valid (.inr (Nat.le_refl _)) (.inr (by omega)) (by omega) (Nat.le_refl _) (.inl ?_)
  have small := cut (txBytes soc)
  omega

theorem fits_of_far (positive : 0 < size)
    (partition : Partition (farWindow size) (mtkDmaInit soc (farWindow size) (abovePlace size))) :
    (soc.qdma → FitsOr soc (fqBytes soc) size (fqBytes soc)) ∧
    (∀ i < txRingNum soc, FitsOr soc (fqBytes soc + txBytes soc * (i + 1)) size (txBytes soc)) ∧
    (soc.qdma → rxBytes soc < 2 ^ 32) ∧ (soc.hwlro → hwlroBytes soc < 2 ^ 32) := by
  have member := fun r => mem_mtkDmaInit (r := r) soc (farWindow size)
    (abovePlace size)
  refine ⟨fun qdma => ?_, fun i below => ?_, fun qdma => ?_, fun hwlro => ?_⟩
  · have inList := (member _).2 (.inl ⟨qdma, rfl⟩)
    rcases fqRing_cases soc (farWindow size) (abovePlace size) positive with
      ⟨fits, -⟩ | ⟨-, ring⟩
    · exact .inl fits
    · rw [ring] at inList
      exact .inr (small_of_coherent partition inList)
  · have inList := (member _).2 (.inr (.inl ⟨i, below, rfl⟩))
    rcases txRing_cases soc (farWindow size) (abovePlace size) positive i with
      ⟨fits, -⟩ | ⟨-, ring⟩
    · exact .inl fits
    · rw [ring] at inList
      exact .inr (small_of_coherent partition inList)
  · have inList := (member _).2 (.inr (.inr (.inl ⟨qdma, rfl⟩)))
    rw [rxRing_other (by decide)] at inList
    exact small_of_coherent partition inList
  · have inList := (member _).2 (.inr (.inr (.inr (.inr ⟨hwlro, 0, by decide, rfl⟩))))
    rw [rxRing_other (by decide)] at inList
    exact small_of_coherent partition inList

/-- For rings placed from the first ring of `tx_ring` as well. -/
theorem fitsOr_rx_of_far (positive : 0 < size)
    (partition : Partition (farWindow size) (mtkDmaInit soc (farWindow size) (abovePlace size))) :
    FitsOr soc (fqBytes soc + txBytes soc * txRingNum soc + rxBytes soc * rxRingNum soc) size
      (rxBytes soc) := by
  by_cases small : rxBytes soc < 2 ^ 32
  · exact .inr small
  obtain ⟨last, count⟩ := Nat.exists_eq_succ_of_ne_zero (Nat.ne_of_gt (rxRingNum_pos soc))
  have inList := rx_mem soc (farWindow size) (abovePlace size) (show last < rxRingNum soc by omega)
  rcases rxRing_normal soc (farWindow size) (abovePlace size) positive last
    (.rx last) with ⟨accepted, ring⟩ | ⟨-, ring⟩
  · obtain ⟨offset, phys, -, room⟩ := partition.inside _ inList (by rw [ring])
    rw [ring] at phys room
    dsimp only at phys room
    rcases txRing_cases soc (farWindow size) (abovePlace size) positive 0 with
      ⟨fits, -⟩ | ⟨-, tx⟩
    · have first : fqBytes soc + txBytes soc ≤ size := by
        have one := fits.2
        simp only [farWindow] at one
        omega
      rw [txRing_zero (abovePlace_valid soc size) positive accepted.1 first] at phys
      refine .inl ⟨accepted.1, ?_⟩
      simp only [farWindow, rxOffset] at phys room
      rw [count, Nat.mul_succ]
      omega
    · rw [tx] at phys
      have above : (coherentRing ((abovePlace size).coherent (.tx 0)) (txBytes soc)).phys =
        2 ^ 40 + size := rfl
      simp only [farWindow] at phys room
      omega
  · rw [ring] at inList
    exact absurd (small_of_coherent partition inList) small

theorem anchored_of_placements (positive : 0 < size)
    (all : ∀ place : Placement, place.Valid soc (farWindow size) →
      Partition (farWindow size) (mtkDmaInit soc (farWindow size) place)) (sram : soc.hasSram) :
    fqBytes soc + txBytes soc ≤ size ∨ size < rxBytes soc := by
  by_contra neither
  push Not at neither
  obtain ⟨large, room⟩ := neither
  have far := all _ (abovePlace_valid soc size)
  obtain ⟨fq, tx, -, -⟩ := fits_of_far positive far
  have some_ := rxBytes_pos soc
  have count := txRingNum_le soc
  have smallTx : txBytes soc < 2 ^ 32 :=
    (tx 0 (txRingNum_pos soc)).resolve_left fun fits => by
      omega
  have upTo : txBytes soc * txRingNum soc ≤ txBytes soc * 4 := Nat.mul_le_mul_left _ count
  have one : txBytes soc * 1 ≤ txBytes soc * txRingNum soc :=
    Nat.mul_le_mul_left _ (txRingNum_pos soc)
  have smallRx : rxBytes soc < 2 ^ 32 := (fitsOr_rx_of_far positive far).resolve_left fun fits => by
    have whole := fits.2
    omega
  have notFirst : ¬(soc.hasSram ∧ fqBytes soc + txBytes soc * (0 + 1) ≤ (farWindow size).size) :=
    fun fits => by
      have whole : fqBytes soc + txBytes soc * (0 + 1) ≤ size := fits.2
      omega
  have cut : ∀ n, u32 n ≤ n := fun n => Nat.mod_le _ _
  have cutTx := cut (txBytes soc)
  by_cases scratch : soc.qdma ∧ size < fqBytes soc
  · -- the scratch ring right after the ring it is taken for the start of the SRAM from
    let place := farPlace size (2 ^ 40 + size) (2 ^ 40 + size + txBytes soc)
    have valid : place.Valid soc (farWindow size) := farPlace_valid (.inr (Nat.le_refl _))
      (.inr (by omega)) (by omega) (by omega) (.inl (by omega))
    have single : txRingNum soc = 1 := if_pos scratch.1
    have phy : place.phy soc (farWindow size) = 2 ^ 40 + size + txBytes soc := by
      rw [Placement.phy, if_pos scratch.1]
      rcases fqRing_cases soc (farWindow size) place positive with
        ⟨fits, -⟩ | ⟨-, ring⟩
      · exact absurd fits.2 (Nat.not_le.2 scratch.2)
      · rw [ring]
        rfl
    have tx : (place.txRing soc (farWindow size) 0).phys = 2 ^ 40 + size := by
      rcases txRing_cases soc (farWindow size) place positive 0 with
        ⟨fits, -⟩ | ⟨-, ring⟩
      · exact absurd fits notFirst
      · rw [ring]
        rfl
    have accepted : Accepted soc (farWindow size) place 0 := by
      rw [Accepted, phy, tx, rxOffset, single, u32_of_lt smallRx]
      simp only [farWindow]
      exact ⟨sram, by omega, by omega⟩
    obtain ⟨offset, phys, -, fits⟩ :=
      not_inside_of_accepted positive (all place valid) accepted notFirst
    have start : (place.coherent (.tx 0)).phys = 2 ^ 40 + size := rfl
    simp only [farWindow] at phys fits
    omega
  · -- a ring in memory below the SRAM, so that the next one is at the start of the SRAM
    let place := farPlace size (2 ^ 40 - txBytes soc * txRingNum soc) (2 ^ 40 + size)
    have valid : place.Valid soc (farWindow size) := farPlace_valid (.inl (by omega))
      (.inr (by omega)) (by omega) (by omega) (.inl (by omega))
    have phy : place.phy soc (farWindow size) = 2 ^ 40 := by
      rw [Placement.phy]
      split
      · rename_i qdma
        rcases fqRing_cases soc (farWindow size) place positive with
          ⟨-, ring⟩ | ⟨large, -⟩
        · rw [ring]
          rfl
        · exact absurd ⟨sram, Nat.not_lt.1 fun larger => scratch ⟨qdma, larger⟩⟩ large
      · rfl
    have tx : (place.txRing soc (farWindow size) 0).phys =
        2 ^ 40 - txBytes soc * txRingNum soc := by
      rcases txRing_cases soc (farWindow size) place positive 0 with
        ⟨fits, -⟩ | ⟨-, ring⟩
      · exact absurd fits notFirst
      · rw [ring]
        rfl
    have accepted : Accepted soc (farWindow size) place 0 := by
      rw [Accepted, phy, tx, rxOffset, u32_of_lt smallRx]
      simp only [farWindow]
      exact ⟨sram, by omega, by omega⟩
    obtain ⟨offset, phys, dma, -⟩ :=
      not_inside_of_accepted positive (all place valid) accepted notFirst
    have start : (place.coherent (.tx 0)).phys = 2 ^ 40 - txBytes soc * txRingNum soc := rfl
    have cpu : (place.coherent (.tx 0)).virt = 2 ^ 40 - txBytes soc * txRingNum soc + 1 := rfl
    simp only [farWindow] at phys dma
    omega

end Converse

/-! ## All placements -/

def mt7988 : Soc where
  hasSram := true
  qdma := true
  rss := true
  hwlro := true
  txdSize := 32
  rxdSize := 32
  txDmaSize := 4096
  rxDmaSize := 1024
  fqDmaSize := 4096
  txd_pos := by decide
  rxd_pos := by decide
  tx_pos := by decide
  rx_pos := by decide
  fq_pos := by decide

end MetaFilogic.Eth.Sram
