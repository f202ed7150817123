import MetaFilogic.Eth.RxRing
import MetaFilogic.Library.Steps

/-!
# Who owns the receive buffers

At any time the address in each descriptor of the ring is the mapping of the buffer in its slot,
no other buffer is mapped or still allocated, and the descriptors the hardware has completed are
consumed once each and in order.
-/

namespace MetaFilogic.Eth

open Function (update update_self update_of_ne update_idem)

/-! ## Words of a descriptor -/

theorem addr64Mask_getLsbD (i : Nat) : RX_DMA_ADDR64_MASK.getLsbD i = decide (i < 4) := by
  have low : RX_DMA_ADDR64_MASK = BitVec.ofNat 32 (2 ^ 4 - 1) := rfl
  rw [low, BitVec.getLsbD_ofNat, Nat.testBit_two_pow_sub_one]
  grind

theorem done_getLsbD (i : Nat) : RX_DMA_DONE.getLsbD i = decide (i = 31) := by
  have top : RX_DMA_DONE = BitVec.ofNat 32 (2 ^ 31) := rfl
  rw [top, BitVec.getLsbD_ofNat, Nat.testBit_two_pow]
  grind

def RxLen.width : RxLen → Nat
  | .bits14 => 14
  | .bits16 => 16

theorem RxLen.mask_getLsbD (len : RxLen) (i : Nat) :
    len.mask.getLsbD i = decide (i < len.width) := by
  have low : len.mask = BitVec.ofNat 32 (2 ^ len.width - 1) := by cases len <;> rfl
  have narrow : len.width < 32 := by cases len <;> decide
  rw [low, BitVec.getLsbD_ofNat, Nat.testBit_two_pow_sub_one]
  grind

theorem RxLen.shift_bounds (len : RxLen) : 4 ≤ len.shift ∧ len.shift + len.width ≤ 31 := by
  cases len <;> decide

theorem plen0_getLsbD (len : RxLen) (x : BitVec 32) (i : Nat) : (len.plen0 x).getLsbD i =
    (decide (len.shift ≤ i) && x.getLsbD (i - len.shift) &&
      decide (i - len.shift < len.width)) := by
  have := len.shift_bounds
  rw [RxLen.plen0, BitVec.getLsbD_shiftLeft, BitVec.getLsbD_and, len.mask_getLsbD]
  grind

theorem getPlen0_getLsbD (len : RxLen) (x : BitVec 32) (i : Nat) : (len.getPlen0 x).getLsbD i =
    (x.getLsbD (len.shift + i) && decide (i < len.width)) := by
  rw [RxLen.getPlen0, BitVec.getLsbD_and, BitVec.getLsbD_ushiftRight, len.mask_getLsbD]

theorem getLsbD_beyond {w k i : Nat} {x : BitVec w} (small : x.toNat < 2 ^ k) (large : k ≤ i) :
    x.getLsbD i = false := by
  rw [← BitVec.testBit_toNat]
  exact Nat.testBit_lt_two_pow (Nat.lt_of_lt_of_le small (Nat.pow_le_pow_right (by decide) large))

variable {high : BitVec 64}

theorem fieldGetAddr64_word (len : RxLen) (x : BitVec 32) (low : high.toNat < 2 ^ 4) :
    fieldGetAddr64 (len.plen0 x ||| high.setWidth 32) = high := by
  have := len.shift_bounds
  apply BitVec.eq_of_getLsbD_eq
  intro i inside
  have beyond : 4 ≤ i → high.getLsbD i = false := getLsbD_beyond low
  rw [fieldGetAddr64, BitVec.getLsbD_setWidth, BitVec.getLsbD_and, BitVec.getLsbD_or,
    addr64Mask_getLsbD, plen0_getLsbD, BitVec.getLsbD_setWidth]
  grind

theorem getPlen0_word (len : RxLen) {size : Nat} (fits : size < 2 ^ len.width)
    (low : high.toNat < 2 ^ 4) :
    len.getPlen0 (len.plen0 (BitVec.ofNat 32 size) ||| high.setWidth 32) =
      BitVec.ofNat 32 size := by
  have := len.shift_bounds
  apply BitVec.eq_of_getLsbD_eq
  intro i inside
  have beyond : 4 ≤ len.shift + i → high.getLsbD (len.shift + i) = false := getLsbD_beyond low
  have short : len.width ≤ i → size.testBit i = false := fun large =>
    Nat.testBit_lt_two_pow (Nat.lt_of_lt_of_le fits (Nat.pow_le_pow_right (by decide) large))
  rw [getPlen0_getLsbD, BitVec.getLsbD_or, plen0_getLsbD, BitVec.getLsbD_setWidth,
    BitVec.getLsbD_ofNat, BitVec.getLsbD_ofNat]
  grind

theorem done_word (len : RxLen) (x : BitVec 32) (low : high.toNat < 2 ^ 4) :
    (len.plen0 x ||| high.setWidth 32).getLsbD 31 = false := by
  have := len.shift_bounds
  have beyond : high.getLsbD 31 = false := getLsbD_beyond low (by decide)
  rw [BitVec.getLsbD_or, plen0_getLsbD, BitVec.getLsbD_setWidth, beyond]
  grind

theorem fieldGetAddr64_lt (x : BitVec 32) : (fieldGetAddr64 x).toNat < 2 ^ 4 := by
  rw [fieldGetAddr64, BitVec.toNat_setWidth, BitVec.toNat_and]
  have small : x.toNat &&& RX_DMA_ADDR64_MASK.toNat ≤ 15 := Nat.and_le_right
  exact Nat.lt_of_le_of_lt (Nat.mod_le _ _) (by omega)

theorem rxDmaPrepAddr64_lt (addr : DmaAddr) : (rxDmaPrepAddr64 addr).toNat < 2 ^ 4 :=
  fieldGetAddr64_lt _

theorem addr_parts {addr : DmaAddr} (reach : addr.toNat < 2 ^ 36) :
    (addr.setWidth 32).setWidth 64 ||| rxDmaPrepAddr64 addr <<< 32 = addr := by
  apply BitVec.eq_of_getLsbD_eq
  intro i inside
  have beyond : 36 ≤ i → addr.getLsbD i = false := getLsbD_beyond reach
  rw [BitVec.getLsbD_or, BitVec.getLsbD_setWidth, BitVec.getLsbD_setWidth, rxDmaPrepAddr64,
    BitVec.getLsbD_shiftLeft, BitVec.getLsbD_setWidth, BitVec.getLsbD_and,
    BitVec.getLsbD_setWidth, BitVec.getLsbD_ushiftRight, addr64Mask_getLsbD]
  by_cases small : i < 32
  · simp [small, inside]
  · have back : 32 + (i - 32) = i := by omega
    rw [back]
    grind

namespace RxSoc

variable {soc : RxSoc} {rxd : RxDesc} {addr : DmaAddr} {bufSize : Nat}

theorem addr_eq (reach : addr.toNat < 2 ^ soc.dmaBits) (low : rxd.rxd1 = addr.setWidth 32)
    (high : soc.dma36 = true → fieldGetAddr64 rxd.rxd2 = rxDmaPrepAddr64 addr) :
    soc.addr rxd = addr := by
  rw [RxSoc.addr, low]
  by_cases wide : soc.dma36 = true
  · rw [if_pos wide, rxDmaGetAddr64, high wide]
    rw [dmaBits, if_pos wide] at reach
    exact addr_parts reach
  · rw [dmaBits, if_neg wide] at reach
    rw [if_neg wide]
    apply BitVec.eq_of_toNat_eq
    have none : (0 : DmaAddr).toNat = 0 := rfl
    rw [BitVec.toNat_or, BitVec.toNat_setWidth, BitVec.toNat_setWidth, none, Nat.or_zero]
    omega

/-- The hardware has not been through with the descriptor, and it has the whole buffer. -/
structure FullSize (soc : RxSoc) (bufSize : Nat) (rxd : RxDesc) : Prop where
  done : rxd.done = false
  size : if soc.mt7628 then rxd.rxd2 = RX_DMA_LSO
    else soc.len.getPlen0 rxd.rxd2 = BitVec.ofNat 32 bufSize

/-- What `mtk_rx_alloc` and `mtk_poll_rx` put into `rxd2`. -/
theorem fullSize_word {high : BitVec 64} (fits : bufSize < 2 ^ soc.len.width)
    (low : high.toNat < 2 ^ 4) (word : rxd.rxd2 = if soc.mt7628 then RX_DMA_LSO
      else soc.len.plen0 (BitVec.ofNat 32 bufSize) ||| high.setWidth 32) :
    soc.FullSize bufSize rxd := by
  by_cases old : soc.mt7628 = true
  · rw [if_pos old] at word
    refine ⟨by rw [RxDesc.done, word]; rfl, ?_⟩
    rw [if_pos old]
    exact word
  · rw [if_neg old] at word
    refine ⟨by rw [RxDesc.done, word]; exact done_word _ _ low, ?_⟩
    rw [if_neg old, word]
    exact getPlen0_word _ fits low

theorem posted_rxd2 : (soc.posted bufSize addr).rxd2 = if soc.mt7628 then RX_DMA_LSO
    else soc.len.plen0 (BitVec.ofNat 32 bufSize) |||
      (if soc.dma36 then rxDmaPrepAddr64 addr else 0).setWidth 32 := by
  rw [posted]
  dsimp only
  by_cases wide : soc.dma36 = true
  · rw [(soc.dma36_v2 wide).1, if_pos wide, if_pos wide]
    rfl
  · rw [if_neg wide, if_neg wide]
    split
    · rfl
    · rfl

theorem posted_addr (reach : addr.toNat < 2 ^ soc.dmaBits) :
    soc.addr (soc.posted bufSize addr) = addr := by
  refine addr_eq reach rfl fun wide => ?_
  rw [posted_rxd2, (soc.dma36_v2 wide).1, if_pos wide]
  exact fieldGetAddr64_word _ _ (rxDmaPrepAddr64_lt addr)

theorem posted_fullSize (fits : bufSize < 2 ^ soc.len.width) :
    soc.FullSize bufSize (soc.posted bufSize addr) := by
  refine fullSize_word fits ?_ posted_rxd2
  split
  · exact rxDmaPrepAddr64_lt addr
  · decide

theorem apply_addr (w : RxWriteback) : soc.addr (w.apply soc rxd) = soc.addr rxd := by
  rw [RxSoc.addr, RxSoc.addr]
  by_cases wide : soc.dma36 = true
  · rw [if_pos wide, if_pos wide]
    have same : fieldGetAddr64 (w.apply soc rxd).rxd2 = fieldGetAddr64 rxd.rxd2 := by
      rw [fieldGetAddr64, fieldGetAddr64]
      congr 1
      apply BitVec.eq_of_getLsbD_eq
      intro i inside
      rw [RxWriteback.apply]
      dsimp only
      rw [if_pos wide, BitVec.getLsbD_and, BitVec.getLsbD_and, BitVec.getLsbD_or,
        BitVec.getLsbD_or, BitVec.getLsbD_and, BitVec.getLsbD_and, BitVec.getLsbD_not,
        addr64Mask_getLsbD, done_getLsbD]
      grind
    rw [rxDmaGetAddr64, rxDmaGetAddr64, same]
    rfl
  · rw [if_neg wide, if_neg wide]
    rfl

theorem apply_done (w : RxWriteback) : (w.apply soc rxd).done = true := by
  rw [RxDesc.done, RxWriteback.apply]
  dsimp only
  rw [BitVec.getLsbD_or, done_getLsbD]
  exact Bool.or_true _

variable {dmaAddr : DmaAddr}

theorem giveBack_high_lt : (if soc.dma36 then
      if dmaAddr = DMA_MAPPING_ERROR then fieldGetAddr64 rxd.rxd2 else rxDmaPrepAddr64 dmaAddr
    else 0 : BitVec 64).toNat < 2 ^ 4 := by
  split
  · split
    · exact fieldGetAddr64_lt _
    · exact rxDmaPrepAddr64_lt _
  · decide

theorem giveBack_fullSize (fits : bufSize < 2 ^ soc.len.width) :
    soc.FullSize bufSize (soc.giveBack bufSize dmaAddr rxd) :=
  fullSize_word fits giveBack_high_lt rfl

theorem giveBack_high (wide : soc.dma36 = true) :
    fieldGetAddr64 (soc.giveBack bufSize dmaAddr rxd).rxd2 =
      if dmaAddr = DMA_MAPPING_ERROR then fieldGetAddr64 rxd.rxd2
      else rxDmaPrepAddr64 dmaAddr := by
  have low : (if dmaAddr = DMA_MAPPING_ERROR then fieldGetAddr64 rxd.rxd2
      else rxDmaPrepAddr64 dmaAddr).toNat < 2 ^ 4 := by
    split
    · exact fieldGetAddr64_lt _
    · exact rxDmaPrepAddr64_lt _
  rw [giveBack]
  dsimp only
  rw [(soc.dma36_v2 wide).1, if_pos wide]
  exact fieldGetAddr64_word _ _ low

theorem giveBack_kept : soc.addr (soc.giveBack bufSize DMA_MAPPING_ERROR rxd) = soc.addr rxd := by
  rw [RxSoc.addr, RxSoc.addr]
  by_cases wide : soc.dma36 = true
  · rw [if_pos wide, if_pos wide, rxDmaGetAddr64, rxDmaGetAddr64, giveBack_high wide, if_pos rfl]
    rfl
  · rw [if_neg wide, if_neg wide]
    rfl

theorem giveBack_new (reach : addr.toNat < 2 ^ soc.dmaBits) :
    soc.addr (soc.giveBack bufSize addr { rxd with rxd1 := addr.setWidth 32 }) = addr := by
  have valid : addr ≠ DMA_MAPPING_ERROR := by
    rintro rfl
    have large : 2 ^ 36 ≤ DMA_MAPPING_ERROR.toNat := by decide
    have bits : 2 ^ soc.dmaBits ≤ 2 ^ 36 :=
      Nat.pow_le_pow_right (by decide) (by rw [dmaBits]; split <;> decide)
    omega
  refine addr_eq reach rfl fun wide => ?_
  rw [giveBack_high wide, if_neg valid]

end RxSoc

/-! ## Buffers -/

/-- Each slot holds an allocated buffer, mapped at the address in its descriptor; nothing else is
mapped or allocated but the ring itself; what was delivered is gone; and nothing was released that
was not there. -/
structure Owns (soc : RxSoc) (ring : RxRing) (res : DmaRes) (delivered : List RxSkb) : Prop where
  sound : res.fault = false
  slot : ∀ i < ring.dmaSize, ∃ buffer, ring.data i = some buffer ∧ res.live buffer = true ∧
    res.mapped (soc.addr (ring.desc i)) = some buffer
  mapped : ∀ addr buffer, res.mapped addr = some buffer →
    ∃ i < ring.dmaSize, soc.addr (ring.desc i) = addr
  live : ∀ memory, res.live memory = true → memory < res.next ∧
    ((∃ i < ring.dmaSize, ring.data i = some memory) ∨ ring.array = some memory ∨
      ring.dma = some (.coherent memory))
  distinct : ∀ i < ring.dmaSize, ∀ j < ring.dmaSize, ring.data i = ring.data j → i = j
  gone : ∀ skb ∈ delivered, skb.head < res.next ∧ res.live skb.head = false

namespace Owns

variable {soc : RxSoc} {ring : RxRing} {res res' : DmaRes} {delivered : List RxSkb} {idx : Nat}
  (owns : Owns soc ring res delivered)
include owns

theorem addr_ne {i j : Nat} (first : i < ring.dmaSize) (second : j < ring.dmaSize) (ne : i ≠ j) :
    soc.addr (ring.desc i) ≠ soc.addr (ring.desc j) := by
  intro same
  obtain ⟨a, dataA, _, mappedA⟩ := owns.slot i first
  obtain ⟨b, dataB, _, mappedB⟩ := owns.slot j second
  have equal : a = b := Option.some_inj.mp (mappedA.symm.trans (same ▸ mappedB))
  exact ne (owns.distinct i first j second (by rw [dataA, dataB, equal]))

theorem desc_congr {desc : Nat → RxDesc}
    (same : ∀ i < ring.dmaSize, soc.addr (desc i) = soc.addr (ring.desc i)) (calcIdx : Nat) :
    Owns soc { ring with desc := desc, calcIdx := calcIdx } res delivered where
  sound := owns.sound
  slot i inside := by
    obtain ⟨buffer, data, live, mapped⟩ := owns.slot i inside
    exact ⟨buffer, data, live, (same i inside).symm ▸ mapped⟩
  mapped addr buffer mapped := by
    obtain ⟨i, inside, at_⟩ := owns.mapped addr buffer mapped
    exact ⟨i, inside, (same i inside).trans at_⟩
  live := owns.live
  distinct := owns.distinct
  gone := owns.gone

theorem fresh : res.live res.next = false :=
  Bool.eq_false_iff.mpr fun live => Nat.lt_irrefl _ (owns.live res.next live).1

theorem alloc_release : Owns soc ring (res.alloc.release res.next) delivered := by
  rw [DmaRes.alloc_release owns.fresh]
  refine ⟨owns.sound, owns.slot, owns.mapped, fun memory live => ?_, owns.distinct,
    fun skb sent => ?_⟩
  · obtain ⟨old, place⟩ := owns.live memory live
    exact ⟨Nat.lt_succ_of_lt old, place⟩
  · obtain ⟨old, gone⟩ := owns.gone skb sent
    exact ⟨Nat.lt_succ_of_lt old, gone⟩

theorem exchange {old : Nat} {addr : DmaAddr} {desc : RxDesc} (inside : idx < ring.dmaSize)
    (data : ring.data idx = some old) (map : res.alloc.map soc.dmaBits addr res.next = some res')
    (posted : soc.addr desc = addr) {more : List RxSkb} (only : ∀ skb ∈ more, skb.head = old)
    (calcIdx : Nat) :
    Owns soc
      { ring with
        data := update ring.data idx (some res.next)
        desc := update ring.desc idx desc
        calcIdx := calcIdx }
      ((res'.unmap (soc.addr (ring.desc idx))).release old) (delivered ++ more) := by
  obtain ⟨buffer, data', live, mapped⟩ := owns.slot idx inside
  obtain rfl : old = buffer := Option.some_inj.mp (data.symm.trans data')
  have older : old < res.next := (owns.live old live).1
  obtain ⟨free, apart, swapped⟩ := DmaRes.swap_eq map mapped live older
  rw [swapped]
  -- where the other slots are, nothing changes
  have others : ∀ i < ring.dmaSize, i ≠ idx → ∃ buffer, ring.data i = some buffer ∧
      buffer ≠ old ∧ buffer < res.next ∧ res.live buffer = true ∧
      res.mapped (soc.addr (ring.desc i)) = some buffer ∧
      soc.addr (ring.desc i) ≠ addr ∧ soc.addr (ring.desc i) ≠ soc.addr (ring.desc idx) := by
    intro i other ne
    obtain ⟨buffer, dataI, liveI, mappedI⟩ := owns.slot i other
    refine ⟨buffer, dataI, ?_, (owns.live buffer liveI).1, liveI, mappedI, ?_,
      owns.addr_ne other inside ne⟩
    · rintro rfl
      exact ne (owns.distinct i other idx inside (dataI.trans data.symm))
    · intro same
      rw [same, free] at mappedI
      cases mappedI
  refine ⟨owns.sound, fun i within => ?_, fun a buffer at_ => ?_, fun memory lives => ?_,
    fun i first j second same => ?_, fun skb sent => ?_⟩
  · by_cases here : i = idx
    · subst here
      refine ⟨res.next, update_self .., ?_, ?_⟩
      · exact (update_of_ne (Nat.ne_of_gt older) ..).trans DmaRes.alloc_live_new
      · dsimp only
        rw [update_self, posted, update_of_ne apart.symm, update_self]
    · obtain ⟨buffer, dataI, ne, low, liveI, mappedI, notNew, notOld⟩ := others i within here
      refine ⟨buffer, (update_of_ne here ..).trans dataI, ?_, ?_⟩
      · exact (update_of_ne ne ..).trans
          ((DmaRes.alloc_live_old (Nat.ne_of_lt low)).trans liveI)
      · dsimp only
        rw [update_of_ne here, update_of_ne notOld,
          update_of_ne notNew]
        exact mappedI
  · dsimp only at at_ ⊢
    by_cases off : a = soc.addr (ring.desc idx)
    · rw [off, update_self] at at_
      cases at_
    · rw [update_of_ne off] at at_
      by_cases new : a = addr
      · exact ⟨idx, inside, by rw [update_self, posted, new]⟩
      · rw [update_of_ne new] at at_
        obtain ⟨i, within, at_⟩ := owns.mapped a buffer at_
        have here : i ≠ idx := fun same => off (same ▸ at_.symm)
        exact ⟨i, within, by rw [update_of_ne here, at_]⟩
  · dsimp only at lives ⊢
    by_cases gone : memory = old
    · rw [gone, update_self] at lives
      cases lives
    · rw [update_of_ne gone] at lives
      by_cases new : memory = res.next
      · exact ⟨by omega, .inl ⟨idx, inside, by rw [new, update_self]⟩⟩
      · rw [update_of_ne new] at lives
        obtain ⟨low, ⟨i, within, held⟩ | rest⟩ := owns.live memory lives
        · have here : i ≠ idx := by
            rintro rfl
            exact gone (Option.some_inj.mp (held.symm.trans data))
          exact ⟨by omega, .inl ⟨i, within, by rw [update_of_ne here, held]⟩⟩
        · exact ⟨by omega, .inr rest⟩
  · dsimp only at same first second
    by_cases hereI : i = idx
    · by_cases hereJ : j = idx
      · rw [hereI, hereJ]
      · obtain ⟨buffer, dataJ, _, low, _⟩ := others j second hereJ
        rw [hereI, update_self, update_of_ne hereJ, dataJ] at same
        have new : res.next = buffer := Option.some_inj.mp same
        omega
    · by_cases hereJ : j = idx
      · obtain ⟨buffer, dataI, _, low, _⟩ := others i first hereI
        rw [hereJ, update_self, update_of_ne hereI, dataI] at same
        have new : buffer = res.next := Option.some_inj.mp same
        omega
      · rw [update_of_ne hereI, update_of_ne hereJ] at same
        exact owns.distinct i first j second same
  · dsimp only
    rcases List.mem_append.mp sent with before | now
    · obtain ⟨low, gone⟩ := owns.gone skb before
      refine ⟨by omega, ?_⟩
      by_cases same : skb.head = old
      · rw [same, update_self]
      · rw [update_of_ne same, update_of_ne (by omega), gone]
    · rw [only skb now, update_self]
      exact ⟨by omega, rfl⟩

end Owns

/-! ## Order -/

/-- The descriptors the hardware has completed are consumed in ring order, those that are not yet
are the ones marked as done, and the others wait for the hardware with a whole buffer. -/
structure Order (soc : RxSoc) (s : RxState) : Prop where
  size : ∃ k ≤ 15, s.ring.dmaSize = 2 ^ k
  fits : s.ring.bufSize < 2 ^ soc.len.width
  consumed_eq : s.consumed = s.completed.take s.consumed.length
  consumed_le : s.consumed.length ≤ s.completed.length
  room : s.completed.length ≤ s.consumed.length + s.ring.dmaSize
  slots : ∀ n rxd, s.completed[n]? = some rxd → rxd.1 = n % s.ring.dmaSize
  drxIdx : s.drxIdx = s.completed.length % s.ring.dmaSize
  calcIdx : s.ring.calcIdx = (s.consumed.length + s.ring.dmaSize - 1) % s.ring.dmaSize
  waiting : ∀ n rxd, s.consumed.length ≤ n → s.completed[n]? = some rxd →
    s.ring.desc rxd.1 = rxd.2
  done : ∀ i < s.ring.dmaSize, (s.ring.desc i).done = true →
    ∃ n, s.consumed.length ≤ n ∧ n < s.completed.length ∧ n % s.ring.dmaSize = i
  pending : ∀ n, s.consumed.length ≤ n → n < s.completed.length →
    (s.ring.desc (n % s.ring.dmaSize)).done = true
  posted : ∀ i < s.ring.dmaSize, (s.ring.desc i).done = false →
    soc.FullSize s.ring.bufSize (s.ring.desc i)

theorem getElem?_snoc {α : Type*} {l : List α} {x y : α} {n : Nat}
    (at_ : (l ++ [x])[n]? = some y) : l[n]? = some y ∨ n = l.length ∧ y = x := by
  rcases Nat.lt_or_ge n l.length with before | after
  · rw [List.getElem?_append_left before] at at_
    exact .inl at_
  · rw [List.getElem?_append_right after] at at_
    obtain ⟨within, value⟩ := List.getElem?_eq_some_iff.mp at_
    rw [List.length_singleton] at within
    refine .inr ⟨by omega, ?_⟩
    rw [← value, List.getElem_singleton]

namespace Order

variable {soc : RxSoc} {s : RxState} (order : Order soc s)
include order

theorem size_pos : 0 < s.ring.dmaSize := by
  obtain ⟨k, _, size⟩ := order.size
  rw [size]
  exact Nat.two_pow_pos k

/-- The driver looks at the slot of the first descriptor not yet consumed. -/
theorem next_eq : nextDespIdx s.ring.calcIdx s.ring.dmaSize =
    s.consumed.length % s.ring.dmaSize := by
  have pos := order.size_pos
  have calcIdx := order.calcIdx
  obtain ⟨k, _, size⟩ := order.size
  rw [size] at calcIdx pos ⊢
  rw [nextDespIdx_eq, calcIdx, Nat.mod_add_mod]
  have back : s.consumed.length + 2 ^ k - 1 + 1 = s.consumed.length + 2 ^ k := by omega
  rw [back, Nat.add_mod_right]

theorem complete (w : RxWriteback) : Order soc (s.complete soc w) := by
  have pos := order.size_pos
  rw [RxState.complete]
  by_cases taken : (s.ring.desc s.drxIdx).done = true
  · rw [if_pos taken]
    exact order
  · rw [if_neg taken]
    have here := order.drxIdx
    -- the slot has been given back, so the ring is not full
    have short : s.completed.length < s.consumed.length + s.ring.dmaSize := by
      refine Nat.lt_of_le_of_ne order.room fun full => taken ?_
      have more := order.pending s.consumed.length (Nat.le_refl _) (by omega)
      rwa [here, full, Nat.add_mod_right]
    have added : ∀ n rxd, (s.completed ++ [(s.drxIdx, w.apply soc (s.ring.desc s.drxIdx))])[n]? =
        some rxd → s.completed[n]? = some rxd ∨
          n = s.completed.length ∧ rxd = (s.drxIdx, w.apply soc (s.ring.desc s.drxIdx)) :=
      fun n rxd => getElem?_snoc
    have total : (s.completed ++ [(s.drxIdx, w.apply soc (s.ring.desc s.drxIdx))]).length =
        s.completed.length + 1 := List.length_append
    refine ⟨order.size, order.fits, ?_, ?_, ?_, fun n rxd at_ => ?_, ?_, order.calcIdx,
      fun n rxd late at_ => ?_, fun i within done => ?_, fun n late early => ?_,
      fun i within given => ?_⟩
    · exact order.consumed_eq.trans (List.take_append_of_le_length order.consumed_le).symm
    · have := order.consumed_le
      dsimp only
      omega
    · dsimp only
      omega
    · obtain before | ⟨rfl, rfl⟩ := added n rxd at_
      · exact order.slots n rxd before
      · exact here
    · dsimp only
      rw [total, here, Nat.mod_add_mod]
    · dsimp only
      obtain before | ⟨rfl, rfl⟩ := added n rxd at_
      · have other : rxd.1 ≠ s.drxIdx := by
          rintro same
          have marked := order.pending n late (List.getElem?_eq_some_iff.mp before).1
          rw [← order.slots n rxd before, same] at marked
          exact taken marked
        rw [update_of_ne other]
        exact order.waiting n rxd late before
      · exact update_self ..
    · dsimp only at done ⊢
      by_cases same : i = s.drxIdx
      · exact ⟨s.completed.length, order.consumed_le, by omega, same ▸ here.symm⟩
      · rw [update_of_ne same] at done
        obtain ⟨n, late, early, at_⟩ := order.done i within done
        exact ⟨n, late, by omega, at_⟩
    · dsimp only at early ⊢
      by_cases same : n % s.ring.dmaSize = s.drxIdx
      · rw [same, update_self]
        exact RxSoc.apply_done w
      · rw [update_of_ne same]
        have old : n ≠ s.completed.length := fun new => same (new ▸ here.symm)
        exact order.pending n late (by omega)
    · dsimp only at given ⊢
      by_cases same : i = s.drxIdx
      · rw [same, update_self, RxSoc.apply_done] at given
        cases given
      · rw [update_of_ne same] at given ⊢
        exact order.posted i within given

theorem consume {idx : Nat} {ring : RxRing} {res : DmaRes} {delivered : List RxSkb} {rxd : RxDesc}
    (next : idx = nextDespIdx s.ring.calcIdx s.ring.dmaSize)
    (ready : (s.ring.desc idx).done = true) (whole : soc.FullSize s.ring.bufSize rxd)
    (dmaSize : ring.dmaSize = s.ring.dmaSize) (bufSize : ring.bufSize = s.ring.bufSize)
    (calcIdx : ring.calcIdx = idx) (desc : ring.desc = update s.ring.desc idx rxd) :
    Order soc { s with
      ring := ring
      res := res
      delivered := delivered
      consumed := s.consumed ++ [(idx, s.ring.desc idx)] } := by
  have pos := order.size_pos
  have here : idx = s.consumed.length % s.ring.dmaSize := next.trans order.next_eq
  have inside : idx < s.ring.dmaSize := here ▸ Nat.mod_lt _ pos
  obtain ⟨ahead, late, early, at_⟩ := order.done idx inside ready
  have room := order.room
  obtain ⟨first, found⟩ : ∃ first, s.completed[s.consumed.length]? = some first :=
    ⟨_, List.getElem?_eq_getElem (by omega)⟩
  have taken : first = (idx, s.ring.desc idx) := by
    have slot := order.slots _ _ found
    have content := order.waiting _ _ (Nat.le_refl _) found
    rw [← here] at slot
    rw [slot] at content
    exact Prod.ext slot content.symm
  have total : (s.consumed ++ [(idx, s.ring.desc idx)]).length = s.consumed.length + 1 :=
    List.length_append
  -- no other descriptor that waits is in this slot
  have apart : ∀ n, s.consumed.length + 1 ≤ n → n < s.completed.length →
      n % s.ring.dmaSize ≠ idx := by
    intro n behind before same
    rw [here] at same
    have close : n - s.consumed.length < s.ring.dmaSize := by omega
    have whole : (n - s.consumed.length) % s.ring.dmaSize = 0 := by
      have := Nat.sub_mod_eq_zero_of_mod_eq same
      exact this
    rw [Nat.mod_eq_of_lt close] at whole
    omega
  refine ⟨dmaSize ▸ order.size, bufSize ▸ order.fits, ?_, ?_, ?_, ?_, ?_, ?_,
    fun n rxd' late at_ => ?_, fun i within done => ?_, fun n late early => ?_,
    fun i within given => ?_⟩
  · dsimp only
    rw [total, List.take_add_one, ← order.consumed_eq, found, taken]
    rfl
  · dsimp only
    omega
  · dsimp only
    omega
  · dsimp only
    rw [dmaSize]
    exact order.slots
  · dsimp only
    rw [dmaSize]
    exact order.drxIdx
  · dsimp only
    rw [calcIdx, dmaSize, total, here]
    have back : s.consumed.length + 1 + s.ring.dmaSize - 1 =
        s.consumed.length + s.ring.dmaSize := by omega
    rw [back, Nat.add_mod_right]
  · dsimp only at late ⊢
    have other : rxd'.1 ≠ idx := by
      rw [order.slots n rxd' at_]
      exact apart n (by omega) (List.getElem?_eq_some_iff.mp at_).1
    rw [desc, update_of_ne other]
    exact order.waiting n rxd' (by omega) at_
  · dsimp only at within done ⊢
    rw [dmaSize] at within ⊢
    rw [desc] at done
    by_cases same : i = idx
    · rw [same, update_self, whole.done] at done
      cases done
    · rw [update_of_ne same] at done
      obtain ⟨n, later, before, slot⟩ := order.done i within done
      refine ⟨n, ?_, before, slot⟩
      have notFirst : n ≠ s.consumed.length := fun first => same (by rw [← slot, first, here])
      omega
  · dsimp only at late early ⊢
    rw [dmaSize, desc, update_of_ne (apart n (by omega) early)]
    exact order.pending n (by omega) early
  · dsimp only at within given ⊢
    rw [dmaSize] at within
    rw [desc] at given ⊢
    rw [bufSize]
    by_cases same : i = idx
    · rw [same, update_self]
      exact whole
    · rw [update_of_ne same] at given ⊢
      exact order.posted i within given

end Order

/-! ## One pass -/

/-- What holds between two passes of the loop. -/
structure Held (soc : RxSoc) (s : RxState) : Prop where
  owns : Owns soc s.ring s.res s.delivered
  order : Order soc s

namespace Held

variable {eth : RxEth} {s s' : RxState} {round : RxRound} {idx : Nat} {trxd : RxDesc}

theorem complete (held : Held eth.soc s) (w : RxWriteback) :
    Held eth.soc (s.complete eth.soc w) := by
  refine ⟨?_, held.order.complete w⟩
  rw [RxState.complete]
  by_cases taken : (s.ring.desc s.drxIdx).done = true
  · rw [if_pos taken]
    exact held.owns
  · rw [if_neg taken]
    refine held.owns.desc_congr (fun i _ => ?_) s.ring.calcIdx
    by_cases here : i = s.drxIdx
    · rw [here, update_self, RxSoc.apply_addr]
    · rw [update_of_ne here]

theorem completions (held : Held eth.soc s) (ws : List RxWriteback) :
    Held eth.soc (ws.foldl (fun s w => s.complete eth.soc w) s) := by
  induction ws generalizing s with
  | nil => exact held
  | cons w ws ih => exact ih (held.complete w)

theorem consume (held : Held eth.soc s) (next : idx = nextDespIdx s.ring.calcIdx s.ring.dmaSize)
    (desc : eth.soc.mtkRxGetDesc round.trxd (s.ring.desc idx) = some trxd)
    (passed : s.consume eth round idx trxd = some s') : Held eth.soc s' := by
  obtain ⟨ready, copied⟩ := Option.ite_some_none_eq_some.mp desc
  have order := held.order
  have inside : idx < s.ring.dmaSize := by
    rw [next, order.next_eq]
    exact Nat.mod_lt _ order.size_pos
  -- a pass that fails on the way keeps the buffer and its address
  have kept : ∀ res, Owns eth.soc s.ring res s.delivered →
      Held eth.soc ({ s with
        consumed := s.consumed ++ [(idx, s.ring.desc idx)]
        res := res }.releaseDesc eth.soc idx DMA_MAPPING_ERROR) := by
    intro res owns
    refine ⟨owns.desc_congr (fun i _ => ?_) idx,
      order.consume next ready (RxSoc.giveBack_fullSize order.fits) rfl rfl rfl rfl⟩
    by_cases here : i = idx
    · rw [here, update_self, RxSoc.giveBack_kept]
    · rw [update_of_ne here]
  rw [RxState.consume] at passed
  dsimp only at passed
  by_cases early : eth.netdevFound round trxd = false ∨ round.resetting = true ∨
      round.buffer = false
  · rw [if_pos early] at passed
    obtain rfl := Option.some_inj.mp passed
    exact kept s.res held.owns
  · rw [if_neg early] at passed
    split at passed
    · obtain rfl := Option.some_inj.mp passed
      exact kept _ held.owns.alloc_release
    · rename_i addr _
      obtain ⟨res, map, rfl⟩ := Option.map_eq_some_iff.mp passed
      obtain ⟨old, data, _⟩ := held.owns.slot idx inside
      have same : eth.soc.addr trxd = eth.soc.addr (s.ring.desc idx) := by
        subst copied
        split <;> rfl
      let posted := eth.soc.giveBack s.ring.bufSize addr
        { s.ring.desc idx with rxd1 := addr.setWidth 32 }
      let more : List RxSkb :=
        if round.skb then [⟨old, eth.soc.len.getPlen0 trxd.rxd2⟩] else []
      have only : ∀ skb ∈ more, skb.head = old := by
        intro skb sent
        by_cases built : round.skb = true
        · rw [show more = _ from if_pos built, List.mem_singleton] at sent
          rw [sent]
        · rw [show more = _ from if_neg built] at sent
          cases sent
      have after : RxState.releaseDesc (RxState.exchange
          { s with consumed := s.consumed ++ [(idx, s.ring.desc idx)], res := res } eth.soc idx trxd
            round.skb s.res.next addr) eth.soc idx addr =
          { s with
            ring.data := update s.ring.data idx (some s.res.next)
            ring.desc := update s.ring.desc idx posted
            ring.calcIdx := idx
            res := (res.unmap (eth.soc.addr (s.ring.desc idx))).release old
            delivered := s.delivered ++ more
            consumed := s.consumed ++ [(idx, s.ring.desc idx)] } := by
        rw [RxState.exchange, RxState.releaseDesc, data, ← same]
        dsimp only
        rw [update_self, update_idem]
        by_cases built : round.skb = true
        · rw [if_pos built, show more = _ from if_pos built]
        · rw [if_neg built, show more = _ from if_neg built, List.append_nil]
      rw [after]
      refine ⟨held.owns.exchange inside data map ?_ only idx,
        order.consume next ready ?_ rfl rfl rfl rfl⟩
      · exact RxSoc.giveBack_new (DmaRes.map_eq map).1
      · exact RxSoc.giveBack_fullSize order.fits

end Held

theorem consume_crxIdx {eth : RxEth} {s s' : RxState} {round : RxRound} {idx : Nat} {trxd : RxDesc}
    (passed : s.consume eth round idx trxd = some s') : s'.crxIdx = s.crxIdx := by
  rw [RxState.consume] at passed
  dsimp only at passed
  split at passed
  · obtain rfl := Option.some_inj.mp passed
    rfl
  · split at passed
    · obtain rfl := Option.some_inj.mp passed
      rfl
    · obtain ⟨res, _, rfl⟩ := Option.map_eq_some_iff.mp passed
      rw [RxState.releaseDesc, RxState.exchange]
      dsimp only
      split <;> rfl

theorem completions_frame {soc : RxSoc} (ws : List RxWriteback) (s : RxState) :
    (ws.foldl (fun s w => s.complete soc w) s).ring.calcIdx = s.ring.calcIdx ∧
      (ws.foldl (fun s w => s.complete soc w) s).crxIdx = s.crxIdx := by
  induction ws generalizing s with
  | nil => exact ⟨rfl, rfl⟩
  | cons w ws ih =>
    obtain ⟨calcIdx, crxIdx⟩ := ih (s.complete soc w)
    have same : (s.complete soc w).ring.calcIdx = s.ring.calcIdx ∧
        (s.complete soc w).crxIdx = s.crxIdx := by
      rw [RxState.complete]
      dsimp only
      split <;> exact ⟨rfl, rfl⟩
    exact ⟨calcIdx.trans same.1, crxIdx.trans same.2⟩

/-! ## Polls -/

namespace Held

variable {eth : RxEth} {s s' : RxState}

/-- Passes keep what holds, as many as the budget lets through. -/
theorem pollLoop {rounds : Nat → RxRound} {left done done' : Nat} (held : Held eth.soc s)
    (polled : RxState.pollLoop eth rounds left done s = some (done', s')) :
    Held eth.soc s' ∧ done ≤ done' ∧ done' ≤ done + left ∧
      (done' = done → s'.ring.calcIdx = s.ring.calcIdx) ∧ s'.crxIdx = s.crxIdx := by
  induction left generalizing done s with
  | zero =>
    obtain ⟨rfl, rfl⟩ := Prod.mk.inj (Option.some_inj.mp polled)
    exact ⟨held, Nat.le_refl _, Nat.le_refl _, fun _ => rfl, rfl⟩
  | succ left ih =>
    rw [RxState.pollLoop] at polled
    have before := held.completions (rounds done).completions
    obtain ⟨calcIdx, crxIdx⟩ := completions_frame (rounds done).completions s
    generalize (rounds done).completions.foldl (fun s w => s.complete eth.soc w) s = mid
      at polled before calcIdx crxIdx
    split at polled
    · obtain ⟨rfl, rfl⟩ := Prod.mk.inj (Option.some_inj.mp polled)
      exact ⟨before, Nat.le_refl _, Nat.le_add_right _ _, fun _ => calcIdx, crxIdx⟩
    · rename_i trxd desc
      obtain ⟨next, passed, rest⟩ := Option.bind_eq_some_iff.mp polled
      obtain ⟨after, low, high, _, kept⟩ := ih (before.consume rfl desc passed) rest
      exact ⟨after, by omega, by omega, fun same => by omega,
        kept.trans ((consume_crxIdx passed).trans crxIdx)⟩

theorem mtkPollRx {budget rxDone : Nat} {rounds : Nat → RxRound} (held : Held eth.soc s)
    (index : s.crxIdx = s.ring.calcIdx)
    (polled : s.mtkPollRx eth budget rounds = some (rxDone, s')) :
    Held eth.soc s' ∧ s'.crxIdx = s'.ring.calcIdx ∧ rxDone ≤ budget := by
  obtain ⟨⟨done, after⟩, loop, result⟩ := Option.map_eq_some_iff.mp polled
  obtain ⟨rfl, rfl⟩ := Prod.mk.inj result
  obtain ⟨heldAfter, _, bound, same, kept⟩ := held.pollLoop loop
  by_cases some : done ≠ 0
  · rw [if_pos some]
    exact ⟨⟨heldAfter.owns, { heldAfter.order with }⟩, rfl, by omega⟩
  · rw [if_neg some]
    exact ⟨heldAfter, kept.trans (index.trans (same (by omega)).symm), by omega⟩

theorem mtkNapiRx {budget remain ret : Nat} {completed : Bool} {polls : List RxState.NapiRound}
    (held : Held eth.soc s) (index : s.crxIdx = s.ring.calcIdx) (within : remain ≤ budget)
    (returned : RxState.mtkNapiRx eth budget polls remain s = some (ret, completed, s')) :
    Held eth.soc s' ∧ s'.crxIdx = s'.ring.calcIdx ∧ (ret < budget ↔ completed = true) := by
  induction polls generalizing remain s with
  | nil => cases returned
  | cons poll polls ih =>
    obtain ⟨⟨rxDone, after⟩, polled, rest⟩ := Option.bind_eq_some_iff.mp returned
    obtain ⟨heldAfter, indexAfter, bound⟩ := held.mtkPollRx index polled
    dsimp only at rest
    by_cases full : rxDone = remain
    · rw [if_pos full] at rest
      obtain ⟨rfl, pair⟩ := Prod.mk.inj (Option.some_inj.mp rest)
      obtain ⟨rfl, rfl⟩ := Prod.mk.inj pair
      exact ⟨heldAfter, indexAfter, fun less => absurd less (Nat.lt_irrefl _), nofun⟩
    · rw [if_neg full] at rest
      by_cases again : poll.status = true
      · rw [if_pos again] at rest
        exact ih heldAfter indexAfter (by omega) rest
      · rw [if_neg again] at rest
        obtain ⟨rfl, pair⟩ := Prod.mk.inj (Option.some_inj.mp rest)
        obtain ⟨rfl, rfl⟩ := Prod.mk.inj pair
        exact ⟨heldAfter, indexAfter, fun _ => rfl, fun _ => by omega⟩

end Held

/-! ## The ring after its allocation -/

section Alloc

variable {soc : RxSoc} {cfg : KernelConfig} {call : RxAllocCall} {ring ring' : RxRing}
  {res res' : DmaRes} {n : Nat}

theorem skbDataAlign_le (x : Nat) : cfg.skbDataAlign x ≤ x + 255 := by
  have pos := cfg.cache_pos
  have small := cfg.cache_le
  have whole := Nat.div_mul_le_self (x + (cfg.SMP_CACHE_BYTES - 1)) cfg.SMP_CACHE_BYTES
  rw [KernelConfig.skbDataAlign]
  omega

theorem bufSize_fits {mtu : Nat} (within : mtu ≤ soc.maxMtu)
    (rxBufLen : call.rxBufLen = rxBufLenOf mtu) :
    cfg.mtkMaxBufSize (cfg.mtkMaxFragSize call.rxBufLen (rxDataLen call)) <
      2 ^ soc.len.width := by
  have header : KernelConfig.MTK_RX_ETH_HLEN = 26 := rfl
  have normal : ETH_DATA_LEN = 1500 := rfl
  have narrow : 2 ^ 14 ≤ 2 ^ soc.len.width := by cases soc.len <;> decide
  have wide : soc.rx9k = true → 2 ^ soc.len.width = 2 ^ 16 := fun large => by
    rw [soc.rx9k_v2 large]
    rfl
  have bufLen : call.rxBufLen ≤ if soc.rx9k then 9216 else 2048 := by
    rw [RxSoc.maxMtu] at within
    rw [rxBufLen, rxBufLenOf]
    split_ifs at within ⊢ <;> omega
  rw [KernelConfig.mtkMaxBufSize, KernelConfig.mtkMaxFragSize, rxDataLen]
  have align : ∀ x, cfg.skbDataAlign x ≤ x + 255 := skbDataAlign_le
  generalize hdata : (if call.flags = .hwlro then 4096 * 3 + call.rxBufLen else ETH_DATA_LEN) =
    dataLen
  have short : dataLen ≤ 12288 + call.rxBufLen := by
    rw [← hdata]
    split_ifs <;> omega
  generalize hmtu : (if dataLen + KernelConfig.MTK_RX_ETH_HLEN < call.rxBufLen then
    call.rxBufLen - KernelConfig.MTK_RX_ETH_HLEN else dataLen) = used
  have usedLe : used ≤ 12288 + call.rxBufLen := by
    rw [← hmtu]
    split_ifs <;> omega
  have total := align (cfg.NET_SKB_PAD + KernelConfig.MTK_RX_ETH_HLEN + cfg.NET_IP_ALIGN + used)
  by_cases large : soc.rx9k = true
  · rw [if_pos large] at bufLen
    have bits := wide large
    omega
  · rw [if_neg large] at bufLen
    omega

theorem andThen_ok {part : Bool × RxRing × DmaRes}
    {next : RxRing → DmaRes → Option (Bool × RxRing × DmaRes)}
    (ok : andThen part next = some (true, ring', res')) :
    part.1 = true ∧ next part.2.1 part.2.2 = some (true, ring', res') := by
  rw [andThen] at ok
  by_cases first : part.1 = true
  · rw [if_pos first] at ok
    exact ⟨first, ok⟩
  · rw [if_neg first] at ok
    exact absurd (congrArg Prod.fst (Option.some_inj.mp ok)) first

theorem fillData_ok {ok : Nat → Bool} (filled : (fillData ok n ring res).1 = true) :
    (fillData ok n ring res).2 =
      ({ ring with data := fun i => if i < n then some (res.next + i) else ring.data i },
      { res with
        next := res.next + n
        live := fun memory =>
          res.live memory || decide (res.next ≤ memory ∧ memory < res.next + n) }) := by
  induction n with
  | zero =>
    have none : (fun memory => res.live memory ||
        decide (res.next ≤ memory ∧ memory < res.next + 0)) = res.live := by
      funext memory
      rw [decide_eq_false (by omega), Bool.or_false]
    rw [none]
    rfl
  | succ n ih =>
    rw [fillData] at filled ⊢
    dsimp only at filled ⊢
    by_cases before : (fillData ok n ring res).1 = true
    · rw [if_pos before] at filled ⊢
      by_cases more : ok n = true
      · rw [if_pos more, ih before]
        refine Prod.ext ?_ ?_
        · dsimp only
          congr 1
          funext i
          by_cases last : i = n
          · rw [last, update_self, if_pos (by omega)]
          · rw [update_of_ne last]
            exact if_congr (by omega) rfl rfl
        · dsimp only [DmaRes.alloc]
          congr 1
          funext memory
          by_cases last : memory = res.next + n
          · rw [last, update_self, decide_eq_true (by omega), Bool.or_true]
          · rw [update_of_ne last]
            congr 1
            exact decide_eq_decide.mpr (by omega)
      · rw [if_neg more] at filled
        cases filled
    · rw [if_neg before] at filled
      exact absurd filled before

theorem allocRegion_ok (region : allocRegion soc call ring res = (true, ring', res')) :
    ring'.array = ring.array ∧ ring'.data = ring.data ∧ ring'.bufSize = ring.bufSize ∧
      (res' = res ∨ res' = res.alloc ∧ ring'.dma = some (.coherent res.next)) := by
  rw [allocRegion] at region
  split_ifs at region
  · obtain ⟨_, pair⟩ := Prod.mk.inj region
    obtain ⟨rfl, rfl⟩ := Prod.mk.inj pair
    exact ⟨rfl, rfl, rfl, .inr ⟨rfl, rfl⟩⟩
  · obtain ⟨failed, _⟩ := Prod.mk.inj region
    cases failed
  · obtain ⟨_, pair⟩ := Prod.mk.inj region
    obtain ⟨rfl, rfl⟩ := Prod.mk.inj pair
    exact ⟨rfl, rfl, rfl, .inl rfl⟩

/-- The descriptors that are filled have the addresses of their buffers. -/
structure Filled (soc : RxSoc) (n : Nat) (ring : RxRing) (res : DmaRes) (ring' : RxRing)
    (res' : DmaRes) : Prop where
  ring_eq : ring' = { ring with desc := ring'.desc }
  res_eq : res' = { res with mapped := res'.mapped }
  slot : ∀ i < n, ∃ buffer, ring.data i = some buffer ∧
    res'.mapped (soc.addr (ring'.desc i)) = some buffer
  whole : ring.bufSize < 2 ^ soc.len.width → ∀ i < n, soc.FullSize ring.bufSize (ring'.desc i)
  mapped : ∀ addr buffer, res'.mapped addr = some buffer →
    res.mapped addr = some buffer ∨ ∃ i < n, soc.addr (ring'.desc i) = addr

theorem fillDesc_ok {mapped : Nat → Option DmaAddr}
    (filled : fillDesc soc mapped n ring res = some (true, ring', res')) :
    Filled soc n ring res ring' res' := by
  induction n generalizing ring' res' with
  | zero =>
    obtain ⟨_, pair⟩ := Prod.mk.inj (Option.some_inj.mp filled)
    obtain ⟨rfl, rfl⟩ := Prod.mk.inj pair
    exact ⟨rfl, rfl, nofun, fun _ => nofun, fun _ _ there => .inl there⟩
  | succ n ih =>
    obtain ⟨⟨ok, ring₁, res₁⟩, before, rest⟩ := Option.bind_eq_some_iff.mp filled
    obtain ⟨rfl, last⟩ := andThen_ok rest
    have filled₁ := ih before
    dsimp only at last
    split at last
    · rename_i addr buffer _ data
      obtain ⟨res₂, map, result⟩ := Option.map_eq_some_iff.mp last
      obtain ⟨_, pair⟩ := Prod.mk.inj result
      obtain ⟨rfl, rfl⟩ := Prod.mk.inj pair
      obtain ⟨reach, free, rfl⟩ := DmaRes.map_eq map
      have sameData : ring₁.data = ring.data := by rw [filled₁.ring_eq]
      have sameSize : ring₁.bufSize = ring.bufSize := by rw [filled₁.ring_eq]
      have posted : soc.addr (soc.posted ring₁.bufSize addr) = addr := RxSoc.posted_addr reach
      refine ⟨?_, ?_, fun i within => ?_, fun fits i within => ?_, fun a b there => ?_⟩
      · rw [filled₁.ring_eq]
      · rw [filled₁.res_eq]
      · dsimp only
        by_cases here : i = n
        · rw [here, update_self, posted, update_self]
          exact ⟨buffer, sameData ▸ data, rfl⟩
        · obtain ⟨b, dataI, there⟩ := filled₁.slot i (by omega)
          rw [update_of_ne here]
          refine ⟨b, dataI, ?_⟩
          rw [update_of_ne]
          · exact there
          · intro same
            rw [same, free] at there
            cases there
      · dsimp only
        by_cases here : i = n
        · rw [here, update_self, sameSize]
          exact RxSoc.posted_fullSize fits
        · rw [update_of_ne here]
          exact filled₁.whole fits i (by omega)
      · dsimp only at there ⊢
        by_cases new : a = addr
        · exact .inr ⟨n, by omega, by rw [update_self, posted, new]⟩
        · rw [update_of_ne new] at there
          obtain old | ⟨i, within, at_⟩ := filled₁.mapped a b there
          · exact .inl old
          · refine .inr ⟨i, by omega, ?_⟩
            rw [update_of_ne (by omega), at_]
    · obtain ⟨failed, _⟩ := Prod.mk.inj (Option.some_inj.mp last)
      cases failed

theorem rxDmaSizeOf_pow : ∃ k ≤ 15, rxDmaSizeOf soc call = 2 ^ k := by
  rw [rxDmaSizeOf]
  split
  · exact ⟨6, by decide, rfl⟩
  · exact soc.rxDmaSize_pow

/-- A ring with a new buffer in each slot, and with nothing else about but its array and the
memory at `dma`. -/
structure Furnished (n : Nat) (ring : RxRing) (res : DmaRes) (dma : Option DmaRegion) : Prop where
  data : ∀ i < n, ring.data i = some (1 + i)
  live : ∀ i < n, res.live (1 + i) = true
  only : ∀ memory, res.live memory = true → memory < res.next ∧
    ((∃ i < n, memory = 1 + i) ∨ ring.array = some memory ∨ dma = some (.coherent memory))
  mapped : ∀ addr, res.mapped addr = none
  sound : res.fault = false

theorem fillData_furnished {ok : Nat → Bool} (array : ring.array = some 0)
    (filled : (fillData ok n ring DmaRes.empty.alloc).1 = true) :
    Furnished n (fillData ok n ring DmaRes.empty.alloc).2.1
      (fillData ok n ring DmaRes.empty.alloc).2.2 none := by
  rw [fillData_ok filled]
  have first : DmaRes.empty.alloc.next = 1 := rfl
  have live : ∀ memory, DmaRes.empty.alloc.live memory = true → memory = 0 := by
    intro memory there
    by_contra other
    rw [DmaRes.alloc_live_old other] at there
    cases there
  refine ⟨fun i within => if_pos within, fun i within => ?_, fun memory there => ?_,
    fun _ => rfl, rfl⟩
  · dsimp only
    rw [first, decide_eq_true (by omega), Bool.or_true]
  · dsimp only at there ⊢
    rw [first] at there ⊢
    rcases Bool.or_eq_true_iff.mp there with old | new
    · obtain rfl := live memory old
      exact ⟨by omega, .inr (.inl array)⟩
    · have new := of_decide_eq_true new
      exact ⟨by omega, .inl ⟨memory - 1, by omega, by omega⟩⟩

theorem Furnished.region (furnished : Furnished n ring res none)
    (region : allocRegion soc call ring res = (true, ring', res')) :
    Furnished n ring' res' ring'.dma := by
  obtain ⟨array, data, _, rfl | ⟨rfl, dma⟩⟩ := allocRegion_ok region
  · refine ⟨data ▸ furnished.data, furnished.live, fun memory there => ?_, furnished.mapped,
      furnished.sound⟩
    obtain ⟨low, slot | held | none⟩ := furnished.only memory there
    · exact ⟨low, .inl slot⟩
    · exact ⟨low, .inr (.inl (array ▸ held))⟩
    · cases none
  · have fresh : res.live res.next = false :=
      Bool.eq_false_iff.mpr fun live => Nat.lt_irrefl _ (furnished.only res.next live).1
    refine ⟨data ▸ furnished.data, fun i within => ?_, fun memory there => ?_, furnished.mapped,
      furnished.sound⟩
    · have there := furnished.live i within
      rw [DmaRes.alloc_live_old]
      · exact there
      · intro same
        rw [same, fresh] at there
        cases there
    · by_cases new : memory = res.next
      · exact ⟨new ▸ Nat.lt_succ_self _, .inr (.inr (new ▸ dma))⟩
      · rw [DmaRes.alloc_live_old new] at there
        obtain ⟨low, slot | held | none⟩ := furnished.only memory there
        · exact ⟨Nat.lt_succ_of_lt low, .inl slot⟩
        · exact ⟨Nat.lt_succ_of_lt low, .inr (.inl (array ▸ held))⟩
        · cases none

theorem Filled.held {ring₁ : RxRing} {res₁ : DmaRes} (filled : Filled soc n ring res ring₁ res₁)
    (furnished : Furnished n ring res ring.dma) (size : ∃ k ≤ 15, n = 2 ^ k)
    (fits : ring.bufSize < 2 ^ soc.len.width) :
    Held soc (.ofAlloc { ring₁ with dmaSize := n, calcIdx := n - 1 } res₁) := by
  have pos : 0 < n := by
    obtain ⟨k, _, rfl⟩ := size
    exact Nat.two_pow_pos k
  have ringEq := filled.ring_eq
  have resEq := filled.res_eq
  have data : ring₁.data = ring.data := by rw [ringEq]
  have array : ring₁.array = ring.array := by rw [ringEq]
  have dma : ring₁.dma = ring.dma := by rw [ringEq]
  have bufSize : ring₁.bufSize = ring.bufSize := by rw [ringEq]
  have live : res₁.live = res.live := by rw [resEq]
  have next : res₁.next = res.next := by rw [resEq]
  have fault : res₁.fault = res.fault := by rw [resEq]
  have whole := filled.whole fits
  constructor
  · refine ⟨fault.trans furnished.sound, fun i within => ?_, fun addr buffer there => ?_,
      fun memory there => ?_, fun i first j second same => ?_, nofun⟩
    · obtain ⟨buffer, dataI, there⟩ := filled.slot i within
      have number : buffer = 1 + i :=
        Option.some_inj.mp (dataI.symm.trans (furnished.data i within))
      have alive : res₁.live buffer = true := by
        rw [number, live]
        exact furnished.live i within
      exact ⟨buffer, data ▸ dataI, alive, there⟩
    · obtain old | here := filled.mapped addr buffer there
      · rw [furnished.mapped] at old
        cases old
      · exact here
    · have there : res₁.live memory = true := there
      rw [live] at there
      obtain ⟨low, ⟨i, within, rfl⟩ | rest⟩ := furnished.only memory there
      · exact ⟨next ▸ low, .inl ⟨i, within, data ▸ furnished.data i within⟩⟩
      · refine ⟨next ▸ low, .inr ?_⟩
        rw [RxState.ofAlloc]
        dsimp only
        rw [array, dma]
        exact rest
    · have same : ring₁.data i = ring₁.data j := same
      rw [data, furnished.data i first, furnished.data j second] at same
      have equal : 1 + i = 1 + j := Option.some_inj.mp same
      omega
  · refine ⟨size, bufSize ▸ fits, rfl, Nat.le_refl _, Nat.zero_le _, nofun,
      (Nat.zero_mod n).symm, ?_, nofun, fun i within done => ?_, nofun, fun i within _ => ?_⟩
    · have small : n - 1 < n := by omega
      rw [RxState.ofAlloc, List.length_nil, Nat.zero_add]
      exact (Nat.mod_eq_of_lt small).symm
    · have done : (ring₁.desc i).done = true := done
      rw [(whole i within).done] at done
      cases done
    · exact bufSize ▸ whole i within

/-- A ring that has been set up holds what polls keep. -/
theorem mtkRxAlloc_held {mtu : Nat} (within : mtu ≤ soc.maxMtu)
    (rxBufLen : call.rxBufLen = rxBufLenOf mtu)
    (done : mtkRxAlloc soc cfg call ring .empty = some (true, ring', res')) :
    Held soc (.ofAlloc ring' res') := by
  rw [mtkRxAlloc] at done
  split at done
  · obtain ⟨data, rest⟩ := andThen_ok done
    obtain ⟨region, rest⟩ := andThen_ok rest
    obtain ⟨⟨ok, ring₃, res₃⟩, desc, rest⟩ := Option.bind_eq_some_iff.mp rest
    obtain ⟨rfl, rest⟩ := andThen_ok rest
    obtain ⟨_, pair⟩ := Prod.mk.inj (Option.some_inj.mp rest)
    obtain ⟨rfl, rfl⟩ := Prod.mk.inj pair
    have furnished := (fillData_furnished rfl data).region (Prod.ext region rfl)
    refine (fillDesc_ok desc).held furnished rxDmaSizeOf_pow ?_
    rw [(allocRegion_ok (Prod.ext region rfl)).2.2.1, fillData_ok data]
    exact bufSize_fits within rxBufLen
  · obtain ⟨failed, _⟩ := Prod.mk.inj (Option.some_inj.mp done)
    cases failed

end Alloc

/-! ## Runs -/

/-- Who owns the buffers between two calls: the CPU index is that of the last slot given back. -/
structure RxOwned (soc : RxSoc) (s : RxState) : Prop where
  owns : Owns soc s.ring s.res s.delivered
  order : Order soc s
  index : s.crxIdx = s.ring.calcIdx
  last : ∀ slot rxd, s.consumed.getLast? = some (slot, rxd) → s.crxIdx = slot

namespace RxOwned

variable {eth : RxEth} {s s' : RxState}

theorem of_held (held : Held eth.soc s) (index : s.crxIdx = s.ring.calcIdx) :
    RxOwned eth.soc s := by
  refine ⟨held.owns, held.order, index, fun slot rxd last => ?_⟩
  have order := held.order
  rw [List.getLast?_eq_getElem?] at last
  obtain ⟨inside, _⟩ := List.getElem?_eq_some_iff.mp last
  rw [order.consumed_eq, List.getElem?_take_of_lt (by
    rw [← order.consumed_eq]
    omega), ← order.consumed_eq] at last
  have slots := order.slots _ _ last
  have pos := order.size_pos
  have back : s.consumed.length + s.ring.dmaSize - 1 =
      s.consumed.length - 1 + s.ring.dmaSize := by omega
  rw [index, order.calcIdx, back, Nat.add_mod_right]
  exact slots.symm

theorem step (owned : RxOwned eth.soc s) {event : RxState.Event}
    (stepped : s.step eth event = some s') : RxOwned eth.soc s' := by
  have held : Held eth.soc s := ⟨owned.owns, owned.order⟩
  cases event with
  | complete w =>
    obtain rfl := Option.some_inj.mp stepped
    refine of_held (held.complete w) ?_
    have same : (s.complete eth.soc w).ring.calcIdx = s.ring.calcIdx ∧
        (s.complete eth.soc w).crxIdx = s.crxIdx := completions_frame [w] s
    exact same.2.trans (owned.index.trans same.1.symm)
  | poll budget rounds =>
    obtain ⟨⟨_, _⟩, polled, rfl⟩ := Option.map_eq_some_iff.mp stepped
    obtain ⟨after, index, _⟩ := held.mtkPollRx owned.index polled
    exact of_held after index
  | napi budget polls =>
    obtain ⟨⟨_, _, _⟩, returned, rfl⟩ := Option.map_eq_some_iff.mp stepped
    obtain ⟨after, index, _⟩ := held.mtkNapiRx owned.index (Nat.le_refl _) returned
    exact of_held after index

end RxOwned

end MetaFilogic.Eth
