import MetaFilogic.Eth.TxRing
import MetaFilogic.Library.RingSlots
import MetaFilogic.Library.Steps

/-!
# Who owns packets and their mappings

Every skb the driver has taken is in one descriptor in use or is freed, and every mapping is that
of a piece of a packet in use.  This holds through every transmit that succeeds or fails, every
poll, and the clean-up of the ring.
-/

namespace MetaFilogic.Eth

open Circular (slots slots_head slots_tail slots_append slot_mem not_mem_slots not_mem_slots_before)
open Function (update update_self update_of_ne update_apply)

variable {soc : TxSoc}

/-! ## Mappings and packets -/

def TxBuf.Live (buf : TxBuf) : Prop :=
  buf.skb ≠ .null ∨ buf.single0 = true ∨ buf.page0 = true

/-- What is mapped and allocated is that of the buffers in some slots and of others. -/
structure Holds (soc : TxSoc) (buf : Nat → TxBuf) (res : DmaRes) (others : Nat → Prop)
    (used : Set Nat) : Prop where
  mapped : ∀ a, (res.mapped a).isSome ↔ ∃ i ∈ used, a ∈ (buf i).addrs soc
  apart : ∀ i ∈ used, ∀ j ∈ used, ∀ a, a ∈ (buf i).addrs soc → a ∈ (buf j).addrs soc → i = j
  nodup : ∀ i ∈ used, ((buf i).addrs soc).Nodup
  live : ∀ m, res.live m = true ↔ others m ∨ ∃ i ∈ used, (buf i).skb = .skb m
  unique : ∀ i ∈ used, ∀ j ∈ used, ∀ m, (buf i).skb = .skb m → (buf j).skb = .skb m → i = j
  alien : ∀ i ∈ used, ∀ m, (buf i).skb = .skb m → ¬others m

theorem DmaRes.foldl_unmap {res : DmaRes} {addrs : List DmaAddr} (nodup : addrs.Nodup)
    (mapped : ∀ a ∈ addrs, (res.mapped a).isSome) :
    addrs.foldl DmaRes.unmap res =
      { res with mapped := fun a => if a ∈ addrs then none else res.mapped a } := by
  induction addrs generalizing res with
  | nil => simp
  | cons addr addrs ih =>
    obtain ⟨absent, nodup⟩ := List.nodup_cons.mp nodup
    have first : res.unmap addr = { res with mapped := update res.mapped addr none } :=
      if_pos (mapped addr (by simp))
    rw [List.foldl_cons, first, ih nodup]
    · congr 1
      funext a
      by_cases same : a = addr
      · simp [same]
      · simp [same]
    · intro a member
      have apart : a ≠ addr := by
        rintro rfl
        exact absent member
      simpa [apart] using mapped a (by simp [member])

theorem SkbPtr.free_mapped (ptr : SkbPtr) (res : DmaRes) : (ptr.free res).mapped = res.mapped := by
  cases ptr with
  | null => rfl
  | dummy => rfl
  | skb memory =>
    simp only [SkbPtr.free, DmaRes.release]
    split <;> rfl

theorem SkbPtr.free_next (ptr : SkbPtr) (res : DmaRes) : (ptr.free res).next = res.next := by
  cases ptr with
  | null => rfl
  | dummy => rfl
  | skb memory =>
    simp only [SkbPtr.free, DmaRes.release]
    split <;> rfl

/-- Nothing is allocated or released again on the way from one to the other. -/
structure DmaRes.Shrinks (res res' : DmaRes) : Prop where
  next : res'.next = res.next
  fault : res'.fault = res.fault
  live : ∀ m, res'.live m = true → res.live m = true

theorem DmaRes.Shrinks.refl (res : DmaRes) : res.Shrinks res := ⟨rfl, rfl, fun _ => id⟩

theorem DmaRes.Shrinks.trans {res res' res'' : DmaRes} (first : res.Shrinks res')
    (second : res'.Shrinks res'') : res.Shrinks res'' :=
  ⟨second.next.trans first.next, second.fault.trans first.fault,
    fun m live => first.live m (second.live m live)⟩

namespace Holds

variable {buf : Nat → TxBuf} {res res' : DmaRes} {others : Nat → Prop} {used : Set Nat} {i : Nat}
  {b : TxBuf} {addr : DmaAddr} {memory bits : Nat}

theorem congr (holds : Holds soc buf res others used) {buf' : Nat → TxBuf}
    (same : ∀ i ∈ used, buf' i = buf i) : Holds soc buf' res others used := by
  have exists_ : ∀ P : TxBuf → Prop, (∃ i ∈ used, P (buf' i)) ↔ ∃ i ∈ used, P (buf i) :=
    fun P => exists_congr fun i => and_congr_right fun member => by rw [same i member]
  refine ⟨fun a => ?_, fun i member j member' => ?_, fun i member => ?_, fun m => ?_,
    fun i member j member' => ?_, fun i member => ?_⟩
  · exact (holds.mapped a).trans (exists_ fun b => a ∈ b.addrs soc).symm
  · rw [same i member, same j member']
    exact holds.apart i member j member'
  · rw [same i member]
    exact holds.nodup i member
  · exact (holds.live m).trans (or_congr_right (exists_ fun b => b.skb = .skb m).symm)
  · rw [same i member, same j member']
    exact holds.unique i member j member'
  · rw [same i member]
    exact holds.alien i member

theorem put (holds : Holds soc buf res others used) (unused : i ∉ used)
    (map : res.map bits addr memory = some res') (addrs : b.addrs soc = [addr])
    (noSkb : ∀ m, b.skb ≠ .skb m) :
    Holds soc (update buf i b) res' others (insert i used) := by
  obtain ⟨_, free, rfl⟩ := DmaRes.map_eq map
  have old : ∀ j ∈ used, update buf i b j = buf j := by
    intro j member
    refine update_of_ne ?_ ..
    rintro rfl
    exact unused member
  have fresh : ∀ j ∈ used, addr ∉ (buf j).addrs soc := by
    intro j member here
    have taken := (holds.mapped addr).mpr ⟨j, member, here⟩
    simp [free] at taken
  refine ⟨fun a => ?_, ?_, ?_, fun m => ?_, ?_, ?_⟩
  · by_cases same : a = addr
    · simp [same, addrs]
    · simp only [update_of_ne same, holds.mapped a, Set.mem_insert_iff]
      constructor
      · rintro ⟨j, member, here⟩
        exact ⟨j, .inr member, by rwa [old j member]⟩
      · rintro ⟨j, rfl | member, here⟩
        · simp [addrs, same] at here
        · exact ⟨j, member, by rwa [old j member] at here⟩
  · rintro j (rfl | member) l (rfl | member') a here there
    · rfl
    · simp only [update_self, addrs, List.mem_singleton] at here
      subst here
      rw [old l member'] at there
      exact absurd there (fresh l member')
    · simp only [update_self, addrs, List.mem_singleton] at there
      subst there
      rw [old j member] at here
      exact absurd here (fresh j member)
    · rw [old j member] at here
      rw [old l member'] at there
      exact holds.apart j member l member' a here there
  · rintro j (rfl | member)
    · simp [addrs]
    · rw [old j member]
      exact holds.nodup j member
  · refine (holds.live m).trans (or_congr_right ?_)
    constructor
    · rintro ⟨j, member, here⟩
      exact ⟨j, .inr member, by rwa [old j member]⟩
    · rintro ⟨j, rfl | member, here⟩
      · rw [update_self] at here
        exact absurd here (noSkb m)
      · exact ⟨j, member, by rwa [old j member] at here⟩
  · rintro j (rfl | member) l (rfl | member') m here there
    · rfl
    · rw [update_self] at here
      exact absurd here (noSkb m)
    · rw [update_self] at there
      exact absurd there (noSkb m)
    · rw [old j member] at here
      rw [old l member'] at there
      exact holds.unique j member l member' m here there
  · rintro j (rfl | member) m here
    · rw [update_self] at here
      exact absurd here (noSkb m)
    · rw [old j member] at here
      exact holds.alien j member m here

theorem add (holds : Holds soc buf res others used) (inUse : i ∈ used)
    (map : res.map bits addr memory = some res')
    (addrs : ∀ a, a ∈ b.addrs soc ↔ a = addr ∨ a ∈ (buf i).addrs soc)
    (nodup : addr ∉ (buf i).addrs soc → (b.addrs soc).Nodup)
    (noSkb : ∀ m, b.skb ≠ .skb m) (noSkb' : ∀ m, (buf i).skb ≠ .skb m) :
    Holds soc (update buf i b) res' others used := by
  obtain ⟨_, free, rfl⟩ := DmaRes.map_eq map
  have old : ∀ j, j ≠ i → update buf i b j = buf j := fun j apart =>
    update_of_ne apart ..
  have fresh : ∀ j ∈ used, addr ∉ (buf j).addrs soc := by
    intro j member here
    have taken := (holds.mapped addr).mpr ⟨j, member, here⟩
    simp [free] at taken
  have only : ∀ j ∈ used, ∀ a, a ∈ (update buf i b j).addrs soc →
      a = addr ∧ j = i ∨ a ∈ (buf j).addrs soc := by
    intro j _ a here
    by_cases same : j = i
    · subst same
      rw [update_self, addrs] at here
      exact here.imp_left fun new => ⟨new, rfl⟩
    · rw [old j same] at here
      exact .inr here
  have skbs : ∀ j, ∀ m, (update buf i b j).skb = .skb m ↔ (buf j).skb = .skb m := by
    intro j m
    by_cases same : j = i
    · subst same
      rw [update_self]
      exact iff_of_false (noSkb m) (noSkb' m)
    · rw [old j same]
  refine ⟨fun a => ?_, ?_, ?_, fun m => ?_, ?_, ?_⟩
  · by_cases same : a = addr
    · simp only [same, update_self, Option.isSome_some, true_iff]
      exact ⟨i, inUse, by simp [addrs]⟩
    · simp only [update_of_ne same, holds.mapped a]
      refine exists_congr fun j => and_congr_right fun member => ?_
      by_cases at_ : j = i
      · subst at_
        simp [addrs, same]
      · rw [old j at_]
  · intro j member l member' a here there
    rcases only j member a here with ⟨rfl, rfl⟩ | here
    · rcases only l member' a there with ⟨_, rfl⟩ | there
      · rfl
      · exact absurd there (fresh l member')
    · rcases only l member' a there with ⟨new, _⟩ | there
      · exact absurd (new ▸ here) (fresh j member)
      · exact holds.apart j member l member' a here there
  · intro j member
    by_cases same : j = i
    · subst same
      rw [update_self]
      exact nodup (fresh j member)
    · rw [old j same]
      exact holds.nodup j member
  · refine (holds.live m).trans (or_congr_right (exists_congr fun j => ?_))
    rw [skbs]
  · intro j member l member' m here there
    exact holds.unique j member l member' m ((skbs j m).mp here) ((skbs l m).mp there)
  · intro j member m here
    exact holds.alien j member m ((skbs j m).mp here)

theorem unmapSlot (holds : Holds soc buf res others (insert i used)) (apart : i ∉ used) :
    Holds soc (unmapSlot soc i (buf, res)).1 (unmapSlot soc i (buf, res)).2 others used ∧
      res.Shrinks (unmapSlot soc i (buf, res)).2 := by
  have here : i ∈ insert i used := Set.mem_insert ..
  have there : ∀ j ∈ used, j ∈ insert i used := fun j => Set.mem_insert_of_mem i
  have unmapped := DmaRes.foldl_unmap (holds.nodup i here)
    (fun a member => (holds.mapped a).mpr ⟨i, here, member⟩)
  have old : ∀ j ∈ used, (Eth.unmapSlot soc i (buf, res)).1 j = buf j := by
    intro j member
    refine update_of_ne ?_ ..
    rintro rfl
    exact apart member
  have mapped : (Eth.unmapSlot soc i (buf, res)).2.mapped =
      fun a => if a ∈ (buf i).addrs soc then none else res.mapped a := by
    simp only [Eth.unmapSlot, mtkTxUnmap, SkbPtr.free_mapped, unmapped]
  have freed : ∀ m, (Eth.unmapSlot soc i (buf, res)).2.live m = true ↔
      res.live m = true ∧ (buf i).skb ≠ .skb m := by
    intro m
    simp only [Eth.unmapSlot, mtkTxUnmap, unmapped]
    cases ptr : (buf i).skb with
    | null => simp [SkbPtr.free]
    | dummy => simp [SkbPtr.free]
    | skb memory =>
      have held : res.live memory = true := (holds.live memory).mpr (.inr ⟨i, here, ptr⟩)
      simp only [SkbPtr.free, DmaRes.release, held, if_true]
      by_cases same : m = memory
      · simp [same]
      · simp [same, Ne.symm same]
  have fault : (Eth.unmapSlot soc i (buf, res)).2.fault = res.fault := by
    simp only [Eth.unmapSlot, mtkTxUnmap, unmapped]
    cases ptr : (buf i).skb with
    | null => rfl
    | dummy => rfl
    | skb memory =>
      have held : res.live memory = true := (holds.live memory).mpr (.inr ⟨i, here, ptr⟩)
      simp [SkbPtr.free, DmaRes.release, held]
  have next : (Eth.unmapSlot soc i (buf, res)).2.next = res.next := by
    simp only [Eth.unmapSlot, mtkTxUnmap, SkbPtr.free_next, unmapped]
  refine ⟨⟨fun a => ?_, ?_, ?_, fun m => ?_, ?_, ?_⟩,
    ⟨next, fault, fun m live => ((freed m).mp live).1⟩⟩
  · simp only [mapped]
    split
    · rename_i gone
      refine iff_of_false (by simp) ?_
      rintro ⟨j, member, mine⟩
      rw [old j member] at mine
      have same := holds.apart i here j (there j member) a gone mine
      exact apart (same ▸ member)
    · rename_i stays
      rw [holds.mapped a]
      constructor
      · rintro ⟨j, rfl | member, mine⟩
        · exact absurd mine stays
        · exact ⟨j, member, by rwa [old j member]⟩
      · rintro ⟨j, member, mine⟩
        exact ⟨j, there j member, by rwa [old j member] at mine⟩
  · intro j member l member' a
    rw [old j member, old l member']
    exact holds.apart j (there j member) l (there l member') a
  · intro j member
    rw [old j member]
    exact holds.nodup j (there j member)
  · rw [freed, holds.live]
    constructor
    · rintro ⟨other | ⟨j, rfl | member, mine⟩, kept⟩
      · exact .inl other
      · exact absurd mine kept
      · exact .inr ⟨j, member, by rwa [old j member]⟩
    · rintro (other | ⟨j, member, mine⟩)
      · exact ⟨.inl other, fun mine => holds.alien i here m mine other⟩
      · rw [old j member] at mine
        refine ⟨.inr ⟨j, there j member, mine⟩, fun both => ?_⟩
        have same := holds.unique i here j (there j member) m both mine
        exact apart (same ▸ member)
  · intro j member l member' m
    rw [old j member, old l member']
    exact holds.unique j (there j member) l (there l member') m
  · intro j member m
    rw [old j member]
    exact holds.alien j (there j member) m

end Holds

variable {work : (Nat → TxBuf) × DmaRes} {maxLen size k : Nat}

theorem unmapSlot_of_ne {i j : Nat} (apart : j ≠ i) : (unmapSlot soc i work).1 j = work.1 j :=
  update_of_ne apart ..

theorem unmapSlot_not_live {i : Nat} : ¬((unmapSlot soc i work).1 i).Live := by
  simp [unmapSlot, mtkTxUnmap, TxBuf.Live]

theorem unmapSlot_skb {i : Nat} : ((unmapSlot soc i work).1 i).skb = .null := by
  simp [unmapSlot, mtkTxUnmap]

/-! ## Pieces of packets -/

theorem fragPieces_sum {left fragSize : Nat} (positive : 0 < maxLen) (enough : fragSize ≤ left) :
    (fragPieces maxLen left fragSize).sum = fragSize := by
  induction left generalizing fragSize with
  | zero =>
    rw [Nat.le_zero.mp enough]
    rfl
  | succ left ih =>
    rw [fragPieces]
    split
    · rename_i none
      simp [none]
    · rw [List.sum_cons, ih (by omega)]
      omega

theorem fragPieces_pos {left fragSize : Nat} (positive : 0 < maxLen)
    (member : size ∈ fragPieces maxLen left fragSize) : 0 < size := by
  induction left generalizing fragSize with
  | zero => simp [fragPieces] at member
  | succ left ih =>
    rw [fragPieces] at member
    split at member
    · simp at member
    · rcases List.mem_cons.mp member with rfl | member
      · omega
      · exact ih member

theorem piecesFrom_pos {i : Nat} {frags : List Nat} (positive : 0 < maxLen) :
    ∀ piece ∈ piecesFrom maxLen i frags, 0 < piece.2 := by
  induction frags generalizing i with
  | nil => simp [piecesFrom]
  | cons fragSize frags ih =>
    intro piece member
    rw [piecesFrom] at member
    rcases List.mem_append.mp member with member | member
    · obtain ⟨size, inner, rfl⟩ := List.mem_map.mp member
      exact fragPieces_pos positive inner
    · exact ih piece member

/-- Each piece that is reached finds room in its descriptor, and its mapping succeeds unless it is
the first there.  `room` is how many more descriptors are free, `k` the number of the piece and
`filled` how many pieces the descriptor has. -/
def Fits (soc : TxSoc) (mapped : Nat → Option DmaAddr) :
    Nat → Nat → Nat → List (Nat × Nat) → Prop
  | _, _, _, [] => True
  | room, k, filled, piece :: pieces =>
    if soc.newDesc piece.1 then
      room = 0 ∨ mapped k = none ∨ Fits soc mapped (room - 1) (k + 1) 1 pieces
    else filled < 2 ∧ mapped k ≠ none ∧ Fits soc mapped room (k + 1) (filled + 1) pieces

instance decidableFits (soc : TxSoc) (mapped : Nat → Option DmaAddr) :
    ∀ (room k filled : Nat) (pieces : List (Nat × Nat)),
      Decidable (Fits soc mapped room k filled pieces)
  | _, _, _, [] => isTrue trivial
  | room, k, filled, piece :: pieces =>
    have := decidableFits soc mapped (room - 1) (k + 1) 1 pieces
    have := decidableFits soc mapped room (k + 1) (filled + 1) pieces
    inferInstanceAs (Decidable (if soc.newDesc piece.1 then
      room = 0 ∨ mapped k = none ∨ Fits soc mapped (room - 1) (k + 1) 1 pieces
      else filled < 2 ∧ mapped k ≠ none ∧ Fits soc mapped room (k + 1) (filled + 1) pieces))

theorem fits_of_qdma (qdma : soc.qdma = true) {mapped : Nat → Option DmaAddr} {room filled : Nat}
    {pieces : List (Nat × Nat)} : Fits soc mapped room k filled pieces := by
  induction pieces generalizing room k filled with
  | nil => trivial
  | cons piece pieces ih =>
    rw [Fits, if_pos (by simp [TxSoc.newDesc, qdma])]
    exact .inr (.inr ih)

/-! ## Places of a ring -/

theorem TxSoc.txDmaSize_pos (soc : TxSoc) : 0 < soc.txDmaSize := by
  obtain ⟨k, size⟩ := soc.txDmaSize_pow
  rw [size]
  exact Nat.two_pow_pos k

/-- The places from `tail` up to `head` are in use. -/
structure TxRing.At (ring : TxRing) (soc : TxSoc) (tail head : Nat) : Prop where
  size : ring.dmaSize = soc.txDmaSize
  le : tail ≤ head
  room : head < tail + soc.txDmaSize
  nextFree : ring.nextFree = head % soc.txDmaSize
  lastFree : ring.lastFree = (tail + (soc.txDmaSize - 1)) % soc.txDmaSize
  count : ring.freeCount + head + 2 = tail + soc.txDmaSize

namespace TxRing.At

variable {ring : TxRing} {tail head : Nat}

theorem next (at_ : ring.At soc tail head) (p : Nat) :
    ring.next (p % soc.txDmaSize) = (p + 1) % soc.txDmaSize := by
  rw [TxRing.next, at_.size, Nat.mod_add_mod]

theorem ne_lastFree (at_ : ring.At soc tail head) {p : Nat} (low : tail ≤ p)
    (high : p < tail + soc.txDmaSize) (apart : p % soc.txDmaSize ≠ ring.lastFree) :
    p + 1 < tail + soc.txDmaSize := by
  rw [at_.lastFree] at apart
  have : p ≠ tail + (soc.txDmaSize - 1) := by
    rintro rfl
    exact apart rfl
  omega

end TxRing.At

/-! ## Mapping a packet -/

/-- A packet is being mapped: its last descriptor so far is in place `last`. -/
structure Mapping (soc : TxSoc) (ring : TxRing) (res : DmaRes) (others : Nat → Prop)
    (tail head : Nat) (w : TxWork) (last : Nat) : Prop where
  low : head ≤ last
  room : last + 1 < tail + soc.txDmaSize
  txd : w.txd = last % soc.txDmaSize
  nDesc : w.nDesc + head = last + 1
  holds : Holds soc w.buf w.res others (slots soc.txDmaSize tail (last + 1))
  old : ∀ i, i ∉ slots soc.txDmaSize head (last + 1) → w.buf i = ring.buf i
  noSkb : ∀ i ∈ slots soc.txDmaSize head (last + 1), ∀ m, (w.buf i).skb ≠ .skb m
  dummy : ∀ i ∈ slots soc.txDmaSize (head + 1) (last + 1), (w.buf i).skb = .dummy
  shrinks : res.Shrinks w.res

/-- A PDMA descriptor with one piece has none in the place of the next. -/
def TxWork.HalfFilled (soc : TxSoc) (w : TxWork) : Prop :=
  soc.qdma = false →
    if w.k % 2 = 1 then (w.buf w.txd).dmaLen1 = 0 else (w.buf w.txd).dmaLen0 = 0

theorem DmaRes.Shrinks.map {res res' : DmaRes} {bits memory : Nat} {addr : DmaAddr}
    (map : res.map bits addr memory = some res') : res.Shrinks res' := by
  obtain ⟨_, _, rfl⟩ := DmaRes.map_eq map
  exact ⟨rfl, rfl, fun _ => id⟩

theorem setupTxBuf_zero {addr : DmaAddr} (b : TxBuf) (positive : soc.qdma = false → size ≠ 0)
    (blank : b.dmaLen0 = 0 ∧ b.dmaLen1 = 0) (flag : b.single0 = true ∨ b.page0 = true) :
    (setupTxBuf soc b addr size k).addrs soc = [addr] := by
  simp only [setupTxBuf, TxBuf.addrs]
  split
  · simp_all
  · split <;> simp_all

theorem setupTxBuf_skb {b : TxBuf} {addr : DmaAddr} (dummy : b.skb = .dummy) :
    (setupTxBuf soc b addr size k).skb = .dummy := by
  simp only [setupTxBuf]
  split_ifs <;> first | exact dummy | rfl

namespace Mapping

variable {ring : TxRing} {res : DmaRes} {others : Nat → Prop} {tail head last : Nat}
  {w w' : TxWork} {call : TxCall}

theorem take (m : Mapping soc ring res others tail head w last) (le : tail ≤ head) {size : Nat}
    {res' : DmaRes} {addr : DmaAddr} {memory : Nat} (positive : 0 < size)
    (room : last + 2 < tail + soc.txDmaSize) (map : w.res.map soc.dmaBits addr memory = some res') :
    Mapping soc ring res others tail head
      ({ w with txd := (last + 1) % soc.txDmaSize, nDesc := w.nDesc + 1 }.place soc true addr size
        res') (last + 1) := by
  have unused : (last + 1) % soc.txDmaSize ∉ slots soc.txDmaSize tail (last + 1) :=
    not_mem_slots le_rfl (by omega)
  have dummy : (setupTxBuf soc { TxBuf.zero with skb := .dummy, page0 := true } addr size
      w.k).skb = .dummy := setupTxBuf_skb rfl
  have old : ∀ i, i ∈ slots soc.txDmaSize tail (last + 1) →
      update w.buf ((last + 1) % soc.txDmaSize) (setupTxBuf soc
        { TxBuf.zero with skb := .dummy, page0 := true } addr size w.k) i = w.buf i := by
    intro i member
    refine update_of_ne ?_ ..
    rintro rfl
    exact unused member
  have sub : ∀ {p i : Nat}, tail ≤ p → i ∈ slots soc.txDmaSize p (last + 1) →
      i ∈ slots soc.txDmaSize tail (last + 1) := by
    rintro p i low ⟨q, low', high, rfl⟩
    exact slot_mem (by omega) high
  have := m.low
  refine ⟨by omega, by omega, rfl, ?_, ?_, ?_, ?_, ?_, m.shrinks.trans (.map map)⟩
  · have := m.nDesc
    simp only [TxWork.place]
    omega
  · rw [slots_head (by omega)]
    refine m.holds.put unused map ?_ ?_
    · exact setupTxBuf_zero _ (fun _ => by omega) ⟨rfl, rfl⟩ (.inr rfl)
    · simp [dummy]
  · intro i absent
    rw [slots_head (by omega)] at absent
    obtain ⟨apart, absent⟩ := not_or.mp absent
    exact (update_of_ne apart ..).trans (m.old i absent)
  · rw [slots_head (by omega)]
    rintro i (rfl | member) n
    · simp [TxWork.place, dummy]
    · have same := old i (sub le member)
      simpa [TxWork.place, same] using m.noSkb i member n
  · rw [slots_head (by omega)]
    rintro i (rfl | member)
    · simp [TxWork.place, dummy]
    · have same := old i (sub (by omega) member)
      simpa [TxWork.place, same] using m.dummy i member

theorem join (m : Mapping soc ring res others tail head w last) (le : tail ≤ head)
    (pdma : soc.qdma = false) (half : w.HalfFilled soc) {size : Nat} {res' : DmaRes}
    {addr : DmaAddr} {memory : Nat} (positive : 0 < size)
    (map : w.res.map soc.dmaBits addr memory = some res') :
    Mapping soc ring res others tail head (w.place soc false addr size res') last := by
  have inUse : w.txd ∈ slots soc.txDmaSize head (last + 1) := by
    rw [m.txd]
    exact slot_mem m.low (Nat.lt_succ_self last)
  have dummy : (setupTxBuf soc { w.buf w.txd with skb := .dummy, page0 := true } addr size
      w.k).skb = .dummy := setupTxBuf_skb rfl
  have half := half pdma
  have notZero : size ≠ 0 := by omega
  have := m.low
  refine ⟨m.low, m.room, m.txd, m.nDesc, ?_, ?_, ?_, ?_, m.shrinks.trans (.map map)⟩
  · refine m.holds.add ?_ map ?_ ?_ ?_ (m.noSkb w.txd inUse)
    · rw [m.txd]
      exact slot_mem (by omega) (Nat.lt_succ_self last)
    · intro a
      simp only [setupTxBuf, TxBuf.addrs, pdma]
      split at half <;> rename_i odd <;> simp [odd, half, notZero]; tauto
    · intro absent
      simp only [setupTxBuf, TxBuf.addrs, pdma]
      simp only [TxBuf.addrs, pdma] at absent
      split at half <;> rename_i odd
      · by_cases first : (w.buf w.txd).dmaLen0 = 0
        · simp [odd, notZero, first]
        · have apart : (w.buf w.txd).dmaAddr0 ≠ addr := by
            rintro rfl
            simp [first] at absent
          simp [odd, notZero, first, apart]
      · by_cases second : (w.buf w.txd).dmaLen1 = 0
        · simp [odd, notZero, second]
        · have apart : addr ≠ (w.buf w.txd).dmaAddr1 := by
            rintro rfl
            simp [second] at absent
          simp [odd, notZero, second, apart]
    · simp [dummy]
  · intro i absent
    have apart : i ≠ w.txd := by
      rintro rfl
      exact absent inUse
    exact (update_of_ne apart ..).trans (m.old i absent)
  · intro i member n
    by_cases here : i = w.txd
    · subst here
      simp [TxWork.place, dummy]
    · simpa [TxWork.place, here] using m.noSkb i member n
  · intro i member
    by_cases here : i = w.txd
    · subst here
      simp [TxWork.place, dummy]
    · simpa [TxWork.place, here] using m.dummy i member

end Mapping

theorem mapPiece_new {ring : TxRing} {call : TxCall} {piece : Nat × Nat} {w : TxWork}
    (new : soc.newDesc piece.1 = true) : mapPiece soc ring call piece w =
      if ring.next w.txd = ring.lastFree then some (false, { w with txd := ring.next w.txd })
      else
        match call.mapped w.k with
        | none => some (false, { w with txd := ring.next w.txd, nDesc := w.nDesc + 1 })
        | some addr =>
          (w.res.map soc.dmaBits addr call.skb.head).map fun res =>
            (true, { w with txd := ring.next w.txd, nDesc := w.nDesc + 1 }.place soc true addr
              piece.2 res) := by
  simp only [mapPiece, new, if_true, true_and] <;> rfl

theorem mapPiece_same {ring : TxRing} {call : TxCall} {piece : Nat × Nat} {w : TxWork}
    (same : soc.newDesc piece.1 = false) : mapPiece soc ring call piece w =
      match call.mapped w.k with
      | none => some (false, w)
      | some addr =>
        (w.res.map soc.dmaBits addr call.skb.head).map fun res =>
          (true, w.place soc false addr piece.2 res) := by
  simp only [mapPiece, same, Bool.false_eq_true, if_false, false_and] <;> rfl

section Loop

variable {ring : TxRing} {res : DmaRes} {others : Nat → Prop} {tail head last : Nat}
  {w : TxWork} {call : TxCall}

/-- The loops of `mtk_tx_map` have mapped all pieces, or stop at a descriptor where none is. -/
def Ends (soc : TxSoc) (ring : TxRing) (res : DmaRes) (others : Nat → Prop) (tail head : Nat)
    (part : Bool × TxWork) : Prop :=
  ∃ w last, Mapping soc ring res others tail head w last ∧
    if part.1 then part.2 = w
    else part.2.buf = w.buf ∧ part.2.res = w.res ∧ part.2.txd = (last + 1) % soc.txDmaSize

theorem mapPieces_ends (at_ : ring.At soc tail head) {filled : Nat} {pieces : List (Nat × Nat)}
    {part : Bool × TxWork} (m : Mapping soc ring res others tail head w last) (some_ : 1 ≤ filled)
    (half : filled = 1 → w.HalfFilled soc) (positive : ∀ piece ∈ pieces, 0 < piece.2)
    (fits : Fits soc call.mapped (tail + soc.txDmaSize - 2 - last) w.k filled pieces)
    (done : mapPieces soc ring call pieces w = some part) :
    Ends soc ring res others tail head part := by
  induction pieces generalizing w last filled with
  | nil =>
    obtain rfl := Option.some_inj.mp done
    exact ⟨w, last, m, rfl⟩
  | cons piece pieces ih =>
    obtain ⟨first, one, rest⟩ := Option.bind_eq_some_iff.mp done
    have size := positive piece (by simp)
    have sizes : ∀ piece ∈ pieces, 0 < piece.2 := fun piece member =>
      positive piece (by simp [member])
    have low := m.low
    have le := at_.le
    cases new : soc.newDesc piece.1 with
    | true =>
      rw [Fits, if_pos new] at fits
      rw [mapPiece_new new, m.txd, at_.next] at one
      split at one
      · obtain rfl := Option.some_inj.mp one
        obtain rfl := Option.some_inj.mp rest
        exact ⟨w, last, m, rfl, rfl, rfl⟩
      · rename_i apart
        have room := at_.ne_lastFree (by omega) m.room apart
        split at one
        · obtain rfl := Option.some_inj.mp one
          obtain rfl := Option.some_inj.mp rest
          exact ⟨w, last, m, rfl, rfl, rfl⟩
        · rename_i addr mapped
          obtain ⟨res', map, rfl⟩ := Option.map_eq_some_iff.mp one
          have fits : Fits soc call.mapped (tail + soc.txDmaSize - 2 - (last + 1)) (w.k + 1) 1
              pieces := by
            rcases fits with none | none | fits
            · omega
            · simp [mapped] at none
            · rwa [Nat.sub_sub] at fits
          refine ih (m.take le size (by omega) map) le_rfl (fun _ pdma => ?_) sizes fits rest
          simp only [TxWork.place, update_self, if_true, setupTxBuf, pdma]
          rcases Nat.mod_two_eq_zero_or_one w.k with even | odd
          · have : (w.k + 1) % 2 = 1 := by omega
            simp [this, even, TxBuf.zero]
          · have : (w.k + 1) % 2 = 0 := by omega
            simp [this, odd, TxBuf.zero]
    | false =>
      rw [Fits, if_neg (by simp [new])] at fits
      obtain ⟨few, succeeds, fits⟩ := fits
      rw [mapPiece_same new] at one
      split at one
      · contradiction
      · obtain ⟨res', map, rfl⟩ := Option.map_eq_some_iff.mp one
        have pdma : soc.qdma = false := by
          cases qdma : soc.qdma with
          | false => rfl
          | true => simp [TxSoc.newDesc, qdma] at new
        have joined := m.join le pdma (half (by omega)) size map
        exact ih joined (by omega) (by omega) sizes fits rest

/-- The loop at `err_dma` undoes what is mapped from place `j` up to the one it ends at. -/
theorem unwind_holds (at_ : ring.At soc tail head) {kept : Set Nat} {j e : Nat} (fuel : Nat)
    (work : (Nat → TxBuf) × DmaRes) (lt : j < e) (enough : e ≤ j + fuel)
    (span : e ≤ j + soc.txDmaSize) (apart : ∀ p, j ≤ p → p < e → p % soc.txDmaSize ∉ kept)
    (holds : Holds soc work.1 work.2 others (kept ∪ slots soc.txDmaSize j e)) :
    let work' := unwind soc ring (e % soc.txDmaSize) fuel (j % soc.txDmaSize) work
    Holds soc work'.1 work'.2 others kept ∧ work.2.Shrinks work'.2 ∧
      (∀ i ∉ slots soc.txDmaSize j e, work'.1 i = work.1 i) ∧
      ∀ i ∈ slots soc.txDmaSize j e, ¬(work'.1 i).Live := by
  induction fuel generalizing j work with
  | zero => omega
  | succ fuel ih =>
    have fresh : j % soc.txDmaSize ∉ kept ∪ slots soc.txDmaSize (j + 1) e := by
      rintro (member | member)
      · exact apart j le_rfl lt member
      · exact not_mem_slots_before le_rfl (Nat.lt_succ_self j) span member
    rw [slots_tail lt, Set.union_insert] at holds
    obtain ⟨holds, shrinks⟩ := holds.unmapSlot fresh
    simp only [unwind, at_.next]
    split
    · rename_i same
      obtain rfl : j + 1 = e := Circular.place_unique (j + 1) le_rfl (by omega) (by omega)
        (by omega) same
      rw [Circular.slots_empty, Set.union_empty] at holds
      refine ⟨holds, shrinks, fun i absent => ?_, fun i member => ?_⟩
      · refine unmapSlot_of_ne ?_
        rintro rfl
        exact absent (slot_mem le_rfl lt)
      · rw [slots_tail lt, Circular.slots_empty] at member
        obtain rfl : i = j % soc.txDmaSize := by simpa using member
        exact unmapSlot_not_live
    · rename_i more
      have lt' : j + 1 < e := by
        refine Nat.lt_of_le_of_ne lt ?_
        rintro rfl
        exact more rfl
      obtain ⟨holds, shrinks', old, gone⟩ := ih _ lt' (by omega) (by omega)
        (fun p low high => apart p (by omega) high) holds
      refine ⟨holds, shrinks.trans shrinks', fun i absent => ?_, fun i member => ?_⟩
      · rw [slots_tail lt, Set.mem_insert_iff, not_or] at absent
        exact (old i absent.2).trans (unmapSlot_of_ne absent.1)
      · by_cases later : i ∈ slots soc.txDmaSize (j + 1) e
        · exact gone i later
        · rw [slots_tail lt, Set.mem_insert_iff] at member
          obtain rfl := member.resolve_right later
          rw [old _ later]
          exact unmapSlot_not_live

end Loop

/-! ## The ring through a transmit -/

def TxRing.Own (ring : TxRing) (memory : Nat) : Prop :=
  ring.array = some memory ∨ ring.dma = some (.coherent memory) ∨ ring.dmaPdma = some memory

structure TxRing.Furnished (ring : TxRing) : Prop where
  array : ring.array ≠ none
  dma : ring.dma = some .sram ∧ ring.inSram = true ∨
    ring.inSram = false ∧ ∃ m, ring.dma = some (.coherent m) ∧ ring.array ≠ some m
  pdma : ∀ m, ring.dmaPdma = some m → ring.array ≠ some m ∧ ring.dma ≠ some (.coherent m)

namespace TxState

def Others (s : TxState) (memory : Nat) : Prop :=
  s.stack memory = true ∨ s.ring.Own memory

/-- The places from `tail` up to `head` are those of packets, and nothing else is held. -/
structure Core (soc : TxSoc) (s : TxState) (tail head : Nat) : Prop where
  at_ : s.ring.At soc tail head
  furnished : s.ring.Furnished
  holds : Holds soc s.ring.buf s.res s.Others (slots soc.txDmaSize tail head)
  used : ∀ i ∈ slots soc.txDmaSize tail head, (s.ring.buf i).skb ≠ .null
  free : ∀ i ∉ slots soc.txDmaSize tail head, ¬(s.ring.buf i).Live
  stackOwn : ∀ m, s.stack m = true → ¬s.ring.Own m
  fresh : ∀ m, s.res.next ≤ m → s.res.live m = false
  fault : s.res.fault = false

end TxState

theorem DmaRes.Shrinks.fresh {res res' : DmaRes} (shrinks : res.Shrinks res')
    (fresh : ∀ m, res.next ≤ m → res.live m = false) (m : Nat) (beyond : res'.next ≤ m) :
    res'.live m = false := by
  rw [shrinks.next] at beyond
  have before := fresh m beyond
  by_contra alive
  rw [Bool.not_eq_false] at alive
  simp [shrinks.live m alive] at before

namespace Holds

variable {buf : Nat → TxBuf} {res : DmaRes} {others others' : Nat → Prop} {used : Set Nat} {i : Nat}
  {memory : Nat}

theorem publish (holds : Holds soc buf res others used) (inUse : i ∈ used)
    (noSkb : ∀ m, (buf i).skb ≠ .skb m) (other : others memory)
    (rest : ∀ m, others' m ↔ others m ∧ m ≠ memory) :
    Holds soc (update buf i { buf i with skb := .skb memory }) res others' used := by
  have addrs : ∀ j, (update buf i { buf i with skb := .skb memory } j).addrs soc =
      (buf j).addrs soc := by
    intro j
    by_cases same : j = i
    · subst same
      rw [update_self]
      rfl
    · rw [update_of_ne same]
  have skbs : ∀ j m, (update buf i { buf i with skb := .skb memory } j).skb = .skb m ↔
      j = i ∧ m = memory ∨ (buf j).skb = .skb m := by
    intro j m
    by_cases same : j = i
    · subst same
      simp [noSkb, eq_comm]
    · simp [same]
  have foreign : ∀ j ∈ used, (buf j).skb ≠ .skb memory :=
    fun j member mine => holds.alien j member memory mine other
  refine ⟨?_, ?_, ?_, fun m => ?_, ?_, ?_⟩
  · simpa only [addrs] using holds.mapped
  · simpa only [addrs] using holds.apart
  · simpa only [addrs] using holds.nodup
  · rw [holds.live, rest]
    constructor
    · rintro (held | ⟨j, member, mine⟩)
      · by_cases same : m = memory
        · exact .inr ⟨i, inUse, (skbs i m).mpr (.inl ⟨rfl, same⟩)⟩
        · exact .inl ⟨held, same⟩
      · exact .inr ⟨j, member, (skbs j m).mpr (.inr mine)⟩
    · rintro (⟨held, _⟩ | ⟨j, member, mine⟩)
      · exact .inl held
      · rcases (skbs j m).mp mine with ⟨_, rfl⟩ | mine
        · exact .inl other
        · exact .inr ⟨j, member, mine⟩
  · intro j member l member' m here there
    rcases (skbs j m).mp here with ⟨atHead, same⟩ | mine
    · rcases (skbs l m).mp there with ⟨atHead', _⟩ | yours
      · exact atHead.trans atHead'.symm
      · exact absurd (same ▸ yours) (foreign l member')
    · rcases (skbs l m).mp there with ⟨_, same⟩ | yours
      · exact absurd (same ▸ mine) (foreign j member)
      · exact holds.unique j member l member' m mine yours
  · intro j member m mine held
    obtain ⟨held, apart⟩ := (rest m).mp held
    rcases (skbs j m).mp mine with ⟨_, same⟩ | mine
    · exact apart same
    · exact holds.alien j member m mine held

theorem release (holds : Holds soc buf res others used) (other : others memory)
    (rest : ∀ m, others' m ↔ others m ∧ m ≠ memory) :
    Holds soc buf (res.release memory) others' used ∧ res.Shrinks (res.release memory) := by
  have alive : res.live memory = true := (holds.live memory).mpr (.inl other)
  rw [DmaRes.release_live alive]
  refine ⟨⟨holds.mapped, holds.apart, holds.nodup, fun m => ?_, holds.unique, ?_⟩, rfl, rfl, ?_⟩
  · by_cases same : m = memory
    · subst same
      simp only [update_self, Bool.false_eq_true, rest, ne_eq, not_true, and_false,
        false_or, false_iff]
      rintro ⟨j, member, mine⟩
      exact holds.alien j member m mine other
    · simp only [update_of_ne same, rest, ne_eq, same, not_false_eq_true, and_true]
      exact holds.live m
  · intro j member m mine held
    exact holds.alien j member m mine ((rest m).mp held).1
  · intro m live
    by_cases same : m = memory
    · rwa [same]
    · simpa [same] using live

end Holds

namespace TxState

variable {s : TxState} {tail head : Nat} {call : TxCall}

theorem others_update {memory : Nat} (stackOwn : ∀ m, s.stack m = true → ¬s.ring.Own m)
    (held : s.stack memory = true) {ring : TxRing} (own : ∀ m, ring.Own m ↔ s.ring.Own m)
    (res : DmaRes) (m : Nat) :
    Others ⟨ring, res, update s.stack memory false⟩ m ↔ s.Others m ∧ m ≠ memory := by
  by_cases same : m = memory
  · subst same
    simpa [Others, own] using stackOwn m held
  · simp [Others, own, same]

structure SameRing (s s' : TxState) : Prop where
  nextFree : s'.ring.nextFree = s.ring.nextFree
  freeCount : s'.ring.freeCount = s.ring.freeCount
  bufs : ∀ i, (s.ring.buf i).skb ≠ .null → s'.ring.buf i = s.ring.buf i

namespace Core

theorem drop (core : s.Core soc tail head) (held : s.stack call.skb.head = true) :
    (s.drop call).2.Core soc tail head := by
  obtain ⟨holds, shrinks⟩ := core.holds.release (show s.Others call.skb.head from .inl held)
    (others_update core.stackOwn held (fun _ => .rfl) s.res)
  refine ⟨core.at_, core.furnished, holds, core.used, core.free, fun m there => ?_,
    shrinks.fresh core.fresh, shrinks.fault.trans core.fault⟩
  by_cases same : m = call.skb.head
  · simp [TxState.drop, same] at there
  · simp only [TxState.drop, update_of_ne same] at there
    exact core.stackOwn m there

theorem setBuf (core : s.Core soc tail head) {buf : Nat → TxBuf} {res : DmaRes}
    (holds : Holds soc buf res s.Others (slots soc.txDmaSize tail head))
    (old : ∀ i ∈ slots soc.txDmaSize tail head, buf i = s.ring.buf i)
    (free : ∀ i ∉ slots soc.txDmaSize tail head, ¬(buf i).Live) (shrinks : s.res.Shrinks res) :
    Core soc { s with ring := { s.ring with buf := buf }, res := res } tail head :=
  ⟨⟨core.at_.size, core.at_.le, core.at_.room, core.at_.nextFree, core.at_.lastFree,
      core.at_.count⟩, ⟨core.furnished.array, core.furnished.dma, core.furnished.pdma⟩, holds,
    fun i member => (congrArg TxBuf.skb (old i member)).trans_ne
        (core.used i member), free,
    core.stackOwn, shrinks.fresh core.fresh, shrinks.fault.trans core.fault⟩

theorem sameRing (core : s.Core soc tail head) {buf : Nat → TxBuf} {res : DmaRes}
    (old : ∀ i ∈ slots soc.txDmaSize tail head, buf i = s.ring.buf i) :
    SameRing s { s with ring := { s.ring with buf := buf }, res := res } := by
  refine ⟨rfl, rfl, fun i live => old i ?_⟩
  by_contra absent
  exact core.free i absent (.inl live)

end Core

/-- When `mtk_tx_map` keeps the books: padding succeeds, and in a PDMA ring every piece finds its
place. -/
def MapOrderly (soc : TxSoc) (s : TxState) (call : TxCall) : Prop :=
  (call.skb.len ≤ 40 → call.padto = true) ∧
    (soc.qdma = false → call.mapped 0 ≠ none → call.skb.toMap.headlen ≠ 0 ∧
      Fits soc call.mapped s.ring.freeCount.toNat 1 1
        (piecesFrom soc.dmaMaxLen 0 call.skb.toMap.frags))

instance (soc : TxSoc) (s : TxState) (call : TxCall) : Decidable (MapOrderly soc s call) :=
  inferInstanceAs (Decidable (_ ∧ _))

namespace Core

theorem start (core : s.Core soc tail head) (orderly : s.MapOrderly soc call) {addr : DmaAddr}
    {res : DmaRes} (apart : s.ring.nextFree ≠ s.ring.lastFree) (mapped : call.mapped 0 = some addr)
    (map : s.res.map soc.dmaBits addr call.skb.toMap.head = some res) :
    Mapping soc s.ring s.res s.Others tail head
      ⟨update s.ring.buf s.ring.nextFree (headBuf soc addr call.skb.toMap.headlen), res,
        s.ring.nextFree, 1, 1⟩ head := by
  have at_ := core.at_
  have room := at_.ne_lastFree at_.le at_.room (at_.nextFree ▸ apart)
  have unused : head % soc.txDmaSize ∉ slots soc.txDmaSize tail head :=
    not_mem_slots le_rfl at_.room
  have noSkb : ∀ m, (headBuf soc addr call.skb.toMap.headlen).skb ≠ .skb m := by
    intro m
    simp only [headBuf, setupTxBuf, TxBuf.zero]
    split <;> simp
  rw [at_.nextFree]
  refine ⟨le_rfl, room, rfl, Nat.add_comm 1 head, ?_, ?_, ?_, ?_, .map map⟩
  · rw [slots_head at_.le]
    refine core.holds.put unused map ?_ noSkb
    refine setupTxBuf_zero _ (fun pdma => ?_) ⟨rfl, rfl⟩ (.inl rfl)
    exact (orderly.2 pdma (by simp [mapped])).1
  · intro i absent
    refine update_of_ne ?_ ..
    rintro rfl
    exact absent (slot_mem le_rfl (Nat.lt_succ_self head))
  · rintro i member
    rw [slots_head le_rfl, Circular.slots_empty] at member
    obtain rfl : i = head % soc.txDmaSize := by simpa using member
    simpa using noSkb
  · simp

theorem sent (core : s.Core soc tail head) (held : s.stack call.skb.head = true) {w : TxWork}
    {last : Nat} (m : Mapping soc s.ring s.res s.Others tail head w last) :
    Core soc ⟨(mapEnd soc s.ring call true w).2.1, (mapEnd soc s.ring call true w).2.2,
      update s.stack call.skb.head false⟩ tail (last + 1) := by
  have at_ := core.at_
  have low := m.low
  have le := at_.le
  have first : head % soc.txDmaSize ∈ slots soc.txDmaSize head (last + 1) :=
    slot_mem le_rfl (by omega)
  have inUse : head % soc.txDmaSize ∈ slots soc.txDmaSize tail (last + 1) :=
    slot_mem le (by omega)
  refine ⟨⟨at_.size, by omega, m.room, ?_, at_.lastFree, ?_⟩, ?_, ?_, ?_, ?_, ?_,
    m.shrinks.fresh core.fresh, m.shrinks.fault.trans core.fault⟩
  · simp only [mapEnd, if_true]
    rw [m.txd, at_.next]
  · have := at_.count
    have := m.nDesc
    simp only [mapEnd, if_true]
    omega
  · exact ⟨core.furnished.array, core.furnished.dma, core.furnished.pdma⟩
  · simp only [mapEnd, if_true, at_.nextFree]
    refine m.holds.publish inUse (m.noSkb _ first) (.inl held) ?_
    exact others_update core.stackOwn held (fun _ => .rfl) w.res
  · intro i member
    simp only [mapEnd, if_true, at_.nextFree]
    by_cases here : i = head % soc.txDmaSize
    · simp [here]
    · rw [update_of_ne here]
      rw [slots_append le (by omega : head ≤ last + 1), slots_tail (by omega : head < last + 1)]
        at member
      rcases member with early | rfl | late
      · have absent : i ∉ slots soc.txDmaSize head (last + 1) := by
          obtain ⟨p, low', high', rfl⟩ := early
          have := m.room
          exact not_mem_slots_before low' high' (by omega)
        rw [m.old i absent]
        exact core.used i early
      · exact absurd rfl here
      · simp [m.dummy i late]
  · intro i absent
    simp only [mapEnd, if_true, at_.nextFree]
    have apart : i ≠ head % soc.txDmaSize := by
      rintro rfl
      exact absent inUse
    rw [slots_append le (by omega : head ≤ last + 1), Set.mem_union, not_or] at absent
    rw [update_of_ne apart, m.old i absent.2]
    exact core.free i absent.1
  · intro n there
    by_cases same : n = call.skb.head
    · simp [same] at there
    · simp only [update_of_ne same] at there
      exact core.stackOwn n there

theorem undone (core : s.Core soc tail head) (call : TxCall) {w w' : TxWork} {last : Nat}
    (m : Mapping soc s.ring s.res s.Others tail head w last) (buf : w'.buf = w.buf)
    (res : w'.res = w.res) (txd : w'.txd = (last + 1) % soc.txDmaSize) :
    Core soc ⟨(mapEnd soc s.ring call false w').2.1, (mapEnd soc s.ring call false w').2.2,
      s.stack⟩ tail head ∧
    SameRing s ⟨(mapEnd soc s.ring call false w').2.1, (mapEnd soc s.ring call false w').2.2,
      s.stack⟩ := by
  have at_ := core.at_
  have low := m.low
  have room := m.room
  have le := at_.le
  have apart : ∀ p, head ≤ p → p < last + 1 →
      p % soc.txDmaSize ∉ slots soc.txDmaSize tail head :=
    fun p low' high' => not_mem_slots low' (by omega)
  have holds := m.holds
  rw [slots_append le (by omega : head ≤ last + 1)] at holds
  obtain ⟨holds, shrinks, old, gone⟩ := unwind_holds at_ s.ring.dmaSize
    (w.buf, w.res) (by omega : head < last + 1) (by rw [at_.size]; omega) (by omega)
    apart holds
  rw [← at_.nextFree] at holds old gone shrinks
  simp only [mapEnd, Bool.false_eq_true, if_false, buf, res, txd]
  have kept : ∀ i ∉ slots soc.txDmaSize head (last + 1),
      (unwind soc s.ring ((last + 1) % soc.txDmaSize) s.ring.dmaSize s.ring.nextFree
        (w.buf, w.res)).1 i = s.ring.buf i :=
    fun i absent => (old i absent).trans (m.old i absent)
  have before : ∀ i ∈ slots soc.txDmaSize tail head,
      (unwind soc s.ring ((last + 1) % soc.txDmaSize) s.ring.dmaSize s.ring.nextFree
        (w.buf, w.res)).1 i = s.ring.buf i := by
    rintro i ⟨p, low', high', rfl⟩
    exact kept _ (not_mem_slots_before low' high' (by omega))
  refine ⟨core.setBuf holds before (fun i absent => ?_) (m.shrinks.trans shrinks),
    core.sameRing before⟩
  by_cases member : i ∈ slots soc.txDmaSize head (last + 1)
  · exact gone i member
  · rw [kept i member]
    exact core.free i absent

theorem mtkTxMap (core : s.Core soc tail head) (held : s.stack call.skb.head = true)
    (orderly : s.MapOrderly soc call) {ok : Bool} {ring : TxRing} {res : DmaRes}
    (done : mtkTxMap soc s.ring call s.res = some (ok, ring, res)) :
    if ok then
      ∃ head', Core soc ⟨ring, res, update s.stack call.skb.head false⟩ tail head'
    else Core soc ⟨ring, res, s.stack⟩ tail head ∧ SameRing s ⟨ring, res, s.stack⟩ := by
  have at_ := core.at_
  have same : ∀ i ∈ slots soc.txDmaSize tail head, s.ring.buf i = s.ring.buf i := fun _ _ => rfl
  rw [Eth.mtkTxMap] at done
  split at done
  · rename_i fails
    simp [orderly.1 fails.1] at fails
  split at done
  · cases done
    exact ⟨core, core.sameRing same⟩
  rename_i apart
  dsimp only at done
  split at done
  · cases done
    have unused : head % soc.txDmaSize ∉ slots soc.txDmaSize tail head :=
      not_mem_slots le_rfl at_.room
    have old : ∀ i ∈ slots soc.txDmaSize tail head,
        update s.ring.buf s.ring.nextFree .zero i = s.ring.buf i := by
      intro i member
      refine update_of_ne ?_ ..
      rw [at_.nextFree]
      rintro rfl
      exact unused member
    refine ⟨core.setBuf (core.holds.congr old) old (fun i absent => ?_) (.refl _),
      core.sameRing old⟩
    by_cases here : i = s.ring.nextFree
    · simp [here, TxBuf.Live, TxBuf.zero]
    · rw [update_of_ne here]
      exact core.free i absent
  · rename_i addr mapped
    obtain ⟨res', map, rest⟩ := Option.bind_eq_some_iff.mp done
    obtain ⟨part, pieces, last⟩ := Option.map_eq_some_iff.mp rest
    have room := at_.ne_lastFree at_.le at_.room (at_.nextFree ▸ apart)
    have count := at_.count
    have free : s.ring.freeCount.toNat = tail + soc.txDmaSize - 2 - head := by omega
    have fits : Fits soc call.mapped (tail + soc.txDmaSize - 2 - head) 1 1
        (piecesFrom soc.dmaMaxLen 0 call.skb.toMap.frags) := by
      cases qdma : soc.qdma with
      | true => exact fits_of_qdma qdma
      | false =>
        rw [← free]
        exact (orderly.2 qdma (by simp [mapped])).2
    have half : TxWork.HalfFilled soc ⟨update s.ring.buf s.ring.nextFree
        (headBuf soc addr call.skb.toMap.headlen), res', s.ring.nextFree, 1, 1⟩ := by
      intro pdma
      simp [headBuf, setupTxBuf, pdma, TxBuf.zero]
    obtain ⟨w, last', m, outcome⟩ := mapPieces_ends at_ (core.start orderly apart mapped map) le_rfl
      (fun _ => half) (piecesFrom_pos soc.dmaMaxLen_pos) fits pieces
    cases success : part.1 with
    | true =>
      rw [success, if_pos rfl] at outcome
      simp only [success, outcome] at last
      cases last
      exact ⟨_, core.sent held m⟩
    | false =>
      rw [success, if_neg Bool.false_ne_true] at outcome
      obtain ⟨buf, res, txd⟩ := outcome
      simp only [success] at last
      cases last
      exact core.undone call m buf res txd

end Core

/-- When `mtk_start_xmit` keeps the books, as far as it comes to `mtk_tx_map`. -/
def XmitOrderly (soc : TxSoc) (s : TxState) (call : TxCall) : Prop :=
  call.resetting = false → mtkCalTxdReq soc call.skb < s.ring.freeCount →
    (call.skb.gso = true → call.cowHead = true) → s.MapOrderly soc call

instance (soc : TxSoc) (s : TxState) (call : TxCall) : Decidable (XmitOrderly soc s call) :=
  inferInstanceAs (Decidable (_ → _ → _ → _))

namespace Core

theorem xmit (core : s.Core soc tail head) (held : s.stack call.skb.head = true)
    (orderly : s.XmitOrderly soc call) {ending : XmitEnd} {s' : TxState}
    (done : s.mtkStartXmit soc call = some (ending, s')) :
    (∃ head', s'.Core soc tail head') ∧ (ending ≠ .sent → SameRing s s') := by
  rw [mtkStartXmit] at done
  split at done
  · cases done
    exact ⟨⟨head, core.drop held⟩, fun _ => ⟨rfl, rfl, fun _ _ => rfl⟩⟩
  rename_i running
  split at done
  · cases done
    exact ⟨⟨head, core⟩, fun _ => ⟨rfl, rfl, fun _ _ => rfl⟩⟩
  rename_i enough
  split at done
  · cases done
    exact ⟨⟨head, core.drop held⟩, fun _ => ⟨rfl, rfl, fun _ _ => rfl⟩⟩
  rename_i expands
  obtain ⟨⟨ok, ring, res⟩, map, rest⟩ := Option.map_eq_some_iff.mp done
  have maps : s.MapOrderly soc call := by
    refine orderly (by simpa using running) (by omega) fun gso => ?_
    by_contra fails
    exact expands ⟨gso, by simpa using fails⟩
  have mapped := core.mtkTxMap held maps map
  cases ok with
  | true =>
    cases rest
    exact ⟨mapped, fun other => absurd rfl other⟩
  | false =>
    obtain ⟨core', same⟩ := mapped
    cases rest
    exact ⟨⟨head, core'.drop held⟩, fun _ => ⟨same.nextFree, same.freeCount, same.bufs⟩⟩

/-! ## The ring through a poll -/

theorem giveBack (core : s.Core soc tail head)
    (live : (s.ring.buf (tail % soc.txDmaSize)).skb ≠ .null) :
    tail < head ∧ (s.giveBack soc (tail % soc.txDmaSize)).Core soc (tail + 1) head := by
  have at_ := core.at_
  have le := at_.le
  have room := at_.room
  have lt : tail < head := by
    refine Nat.lt_of_le_of_ne le ?_
    rintro rfl
    exact core.free _ (by simp) (.inl live)
  have apart : tail % soc.txDmaSize ∉ slots soc.txDmaSize (tail + 1) head :=
    not_mem_slots_before le_rfl (Nat.lt_succ_self tail) (by omega)
  have old : ∀ i ∈ slots soc.txDmaSize (tail + 1) head,
      (unmapSlot soc (tail % soc.txDmaSize) (s.ring.buf, s.res)).1 i = s.ring.buf i := by
    intro i member
    refine unmapSlot_of_ne ?_
    rintro rfl
    exact apart member
  have holds := core.holds
  rw [slots_tail lt] at holds
  obtain ⟨holds, shrinks⟩ := holds.unmapSlot apart
  refine ⟨lt, ⟨at_.size, lt, by omega, at_.nextFree, ?_, ?_⟩,
    ⟨core.furnished.array, core.furnished.dma, core.furnished.pdma⟩, holds, fun i member => ?_,
    fun i absent => ?_, core.stackOwn, shrinks.fresh core.fresh, shrinks.fault.trans core.fault⟩
  · have positive := soc.txDmaSize_pos
    rw [show tail + 1 + (soc.txDmaSize - 1) = tail + soc.txDmaSize by omega, Nat.add_mod_right]
    rfl
  · have := at_.count
    simp only [TxState.giveBack]
    omega
  · simp only [TxState.giveBack, old i member]
    refine core.used i ?_
    rw [slots_tail lt]
    exact .inr member
  · by_cases here : i = tail % soc.txDmaSize
    · subst here
      exact unmapSlot_not_live
    · simp only [TxState.giveBack, unmapSlot_of_ne here]
      refine core.free i ?_
      rw [slots_tail lt]
      exact not_or.mpr ⟨here, absent⟩

theorem pollTx (core : s.Core soc tail head) (slot next cpuAt : Nat → Nat)
    (slotAt : ∀ p, slot (cpuAt p) = p % soc.txDmaSize)
    (nextAt : ∀ p, next (cpuAt p) = cpuAt (p + 1)) (done : TxDone) (left budget : Nat) :
    ∃ tail', (pollTx soc slot next done left budget (cpuAt tail) s).2.Core soc tail' head ∧
      (pollTx soc slot next done left budget (cpuAt tail) s).1 = cpuAt tail' := by
  induction left generalizing s tail budget with
  | zero => exact ⟨tail, core, rfl⟩
  | succ left ih =>
    rw [TxState.pollTx]
    split
    · exact ⟨tail, core, rfl⟩
    · rw [slotAt, nextAt]
      split
      · exact ⟨tail, core, rfl⟩
      · rename_i ptr
        exact ih (core.giveBack (by simp [ptr])).2 _
      · rename_i ptr
        exact ih (core.giveBack (by simp [ptr])).2 _

end Core

/-- The driver looks next at the place `tail`. -/
structure Ptrs (soc : TxSoc) (ring : TxRing) (tail : Nat) : Prop where
  lastFreePtr : soc.qdma = true →
    ring.lastFreePtr = (tail + (soc.txDmaSize - 1)) % soc.txDmaSize
  cpuIdx : soc.qdma = false → ring.cpuIdx = tail % soc.txDmaSize

theorem mtkTxMap_ptrs {ring ring' : TxRing} {res res' : DmaRes} {ok : Bool}
    (done : mtkTxMap soc ring call res = some (ok, ring', res')) :
    ring'.lastFreePtr = ring.lastFreePtr ∧ ring'.cpuIdx = ring.cpuIdx := by
  rw [mtkTxMap] at done
  split at done
  · cases done
    exact ⟨rfl, rfl⟩
  split at done
  · cases done
    exact ⟨rfl, rfl⟩
  dsimp only at done
  split at done
  · cases done
    exact ⟨rfl, rfl⟩
  · obtain ⟨_, _, rest⟩ := Option.bind_eq_some_iff.mp done
    obtain ⟨⟨ok', w⟩, _, last⟩ := Option.map_eq_some_iff.mp rest
    cases ok' <;> cases last <;> exact ⟨rfl, rfl⟩

variable {s' : TxState}

theorem xmit_ptrs {ending : XmitEnd} (done : s.mtkStartXmit soc call = some (ending, s')) :
    s'.ring.lastFreePtr = s.ring.lastFreePtr ∧ s'.ring.cpuIdx = s.ring.cpuIdx := by
  rw [mtkStartXmit] at done
  split at done
  · cases done
    exact ⟨rfl, rfl⟩
  split at done
  · cases done
    exact ⟨rfl, rfl⟩
  split at done
  · cases done
    exact ⟨rfl, rfl⟩
  obtain ⟨⟨ok, ring, res⟩, map, rest⟩ := Option.map_eq_some_iff.mp done
  have same := mtkTxMap_ptrs map
  cases ok <;> cases rest <;> exact same

def Owned (soc : TxSoc) (s : TxState) : Prop :=
  ∃ tail head, s.Core soc tail head ∧ Ptrs soc s.ring tail

theorem Owned.poll (owned : s.Owned soc) (budget : Nat) (done : TxDone) :
    (s.mtkPollTx soc budget done).Owned soc := by
  obtain ⟨tail, head, core, ptrs⟩ := owned
  have positive := soc.txDmaSize_pos
  have at_ := core.at_
  rw [mtkPollTx]
  cases kind : soc.qdma with
  | true =>
    have slotAt : ∀ p, s.ring.next ((p + (soc.txDmaSize - 1)) % soc.txDmaSize) =
        p % soc.txDmaSize := by
      intro p
      rw [at_.next, show p + (soc.txDmaSize - 1) + 1 = p + soc.txDmaSize by omega,
        Nat.add_mod_right]
    have nextAt : ∀ p, s.ring.next ((p + (soc.txDmaSize - 1)) % soc.txDmaSize) =
        (p + 1 + (soc.txDmaSize - 1)) % soc.txDmaSize := by
      intro p
      rw [at_.next, show p + (soc.txDmaSize - 1) + 1 = p + 1 + (soc.txDmaSize - 1) by omega]
    obtain ⟨tail', core', cpu⟩ := core.pollTx s.ring.next s.ring.next
      (fun p => (p + (soc.txDmaSize - 1)) % soc.txDmaSize) slotAt nextAt done s.ring.dmaSize budget
    rw [← ptrs.lastFreePtr kind] at core' cpu
    rw [if_pos rfl, mtkPollTxQdma]
    exact ⟨tail', head, ⟨⟨core'.at_.size, core'.at_.le, core'.at_.room, core'.at_.nextFree,
      core'.at_.lastFree, core'.at_.count⟩, ⟨core'.furnished.array, core'.furnished.dma,
      core'.furnished.pdma⟩, core'.holds, core'.used, core'.free, core'.stackOwn, core'.fresh,
      core'.fault⟩, fun _ => cpu, fun pdma => by simp [kind] at pdma⟩
  | false =>
    obtain ⟨k, size⟩ := soc.txDmaSize_pow
    have nextAt : ∀ p, (fun cpu => nextDespIdx cpu s.ring.dmaSize) (p % soc.txDmaSize) =
        (p + 1) % soc.txDmaSize := by
      intro p
      simp only [at_.size, size, nextDespIdx_eq, Nat.mod_add_mod]
    have slotAt : ∀ p, id (p % soc.txDmaSize) = p % soc.txDmaSize := fun _ => rfl
    obtain ⟨tail', core', cpu⟩ := core.pollTx id
      (fun cpu => nextDespIdx cpu s.ring.dmaSize) (fun p => p % soc.txDmaSize) slotAt nextAt done
      s.ring.dmaSize budget
    rw [← ptrs.cpuIdx kind] at core' cpu
    rw [if_neg Bool.false_ne_true, mtkPollTxPdma]
    exact ⟨tail', head, ⟨⟨core'.at_.size, core'.at_.le, core'.at_.room, core'.at_.nextFree,
      core'.at_.lastFree, core'.at_.count⟩, ⟨core'.furnished.array, core'.furnished.dma,
      core'.furnished.pdma⟩, core'.holds, core'.used, core'.free, core'.stackOwn, core'.fresh,
      core'.fault⟩, fun qdma => by simp [kind] at qdma, fun _ => cpu⟩

def Orderly (soc : TxSoc) (s : TxState) : Event → Prop
  | .skb => True
  | .xmit call => s.XmitOrderly soc call
  | .poll _ _ => True

instance (soc : TxSoc) (s : TxState) : ∀ event, Decidable (Orderly soc s event)
  | .skb => isTrue trivial
  | .xmit call => inferInstanceAs (Decidable (s.XmitOrderly soc call))
  | .poll _ _ => isTrue trivial

theorem Core.newSkb (core : s.Core soc tail head) :
    Core soc { s with res := s.res.alloc, stack := update s.stack s.res.next true }
      tail head := by
  have free := core.fresh s.res.next le_rfl
  have absent : ¬(s.Others s.res.next ∨
      ∃ i ∈ slots soc.txDmaSize tail head, (s.ring.buf i).skb = .skb s.res.next) := by
    rw [← core.holds.live, free]
    exact Bool.false_ne_true
  rw [not_or] at absent
  have own : ¬s.ring.Own s.res.next := fun own => absent.1 (.inr own)
  have others : ∀ m, m ≠ s.res.next →
      (Others ⟨s.ring, s.res.alloc, update s.stack s.res.next true⟩ m ↔ s.Others m) := by
    intro m apart
    simp [Others, apart]
  refine ⟨core.at_, core.furnished, ⟨core.holds.mapped, core.holds.apart, core.holds.nodup,
    fun m => ?_, core.holds.unique, fun i member m mine held => ?_⟩, core.used, core.free,
    fun m there => ?_, fun m beyond => ?_, core.fault⟩
  · by_cases same : m = s.res.next
    · subst same
      simp [DmaRes.alloc, Others]
    · rw [others m same, DmaRes.alloc_live_old same]
      exact core.holds.live m
  · by_cases same : m = s.res.next
    · subst same
      exact absent.2 ⟨i, member, mine⟩
    · exact core.holds.alien i member m mine ((others m same).mp held)
  · by_cases same : m = s.res.next
    · subst same
      exact own
    · simp only [update_of_ne same] at there
      exact core.stackOwn m there
  · have beyond : s.res.next + 1 ≤ m := beyond
    rw [DmaRes.alloc_live_old (by omega)]
    exact core.fresh m (by omega)

theorem Owned.step (owned : s.Owned soc) {event : Event} (orderly : Orderly soc s event)
    (stepped : TxState.step soc s event = some s') : s'.Owned soc := by
  cases event with
  | skb =>
    obtain ⟨tail, head, core, ptrs⟩ := owned
    obtain rfl := Option.some_inj.mp stepped
    exact ⟨tail, head, core.newSkb, ptrs⟩
  | xmit call =>
    obtain ⟨tail, head, core, ptrs⟩ := owned
    obtain ⟨held, called⟩ := Option.ite_none_right_eq_some.mp stepped
    obtain ⟨⟨ending, s''⟩, done, rfl⟩ := Option.map_eq_some_iff.mp called
    obtain ⟨⟨head', core'⟩, _⟩ := core.xmit held orderly done
    have same := xmit_ptrs done
    exact ⟨tail, head', core', fun qdma => same.1.trans (ptrs.lastFreePtr qdma),
      fun pdma => same.2.trans (ptrs.cpuIdx pdma)⟩
  | poll budget done =>
    obtain rfl := Option.some_inj.mp stepped
    exact owned.poll budget done

/-! ## The clean-up -/

/-- In a PDMA ring only descriptors in use have lengths of mappings. -/
def CleanOrderly (soc : TxSoc) (s : TxState) : Prop :=
  soc.qdma = false → ∀ i < soc.txDmaSize, (s.ring.buf i).skb = .null →
    (s.ring.buf i).dmaLen0 = 0 ∧ (s.ring.buf i).dmaLen1 = 0

instance (soc : TxSoc) (s : TxState) : Decidable (CleanOrderly soc s) :=
  inferInstanceAs (Decidable (_ → ∀ i < soc.txDmaSize, _))

theorem unmapSlots_holds {buf : Nat → TxBuf} {res : DmaRes} {others : Nat → Prop}
    {used : Set Nat} (holds : Holds soc buf res others used) {n : Nat}
    (idle : ∀ i < n, i ∉ used → (buf i).addrs soc = [] ∧ (buf i).skb = .null) :
    let work := unmapSlots soc n (buf, res)
    Holds soc work.1 work.2 others (used ∩ {i | n ≤ i}) ∧ res.Shrinks work.2 ∧
      ∀ i, n ≤ i → work.1 i = buf i := by
  induction n with
  | zero => exact ⟨by simpa [unmapSlots] using holds, .refl res, fun _ _ => rfl⟩
  | succ n ih =>
    obtain ⟨holds, shrinks, old⟩ := ih fun i lt => idle i (by omega)
    simp only [unmapSlots]
    generalize unmapSlots soc n (buf, res) = work at holds shrinks old
    have later : ∀ i, n + 1 ≤ i → (unmapSlot soc n work).1 i = buf i := fun i le =>
      (unmapSlot_of_ne (by omega)).trans (old i (by omega))
    by_cases member : n ∈ used
    · have split : used ∩ {i | n ≤ i} = insert n (used ∩ {i | n + 1 ≤ i}) := by
        ext i
        simp only [Set.mem_inter_iff, Set.mem_ofPred_eq, Set.mem_insert_iff]
        constructor
        · rintro ⟨inUse, le⟩
          rcases Nat.eq_or_lt_of_le le with rfl | lt
          · exact .inl rfl
          · exact .inr ⟨inUse, lt⟩
        · rintro (rfl | ⟨inUse, le⟩)
          · exact ⟨member, le_rfl⟩
          · exact ⟨inUse, by omega⟩
      rw [split] at holds
      obtain ⟨holds, shrinks'⟩ := holds.unmapSlot (by simp)
      exact ⟨holds, shrinks.trans shrinks', later⟩
    · have same : used ∩ {i | n ≤ i} = used ∩ {i | n + 1 ≤ i} := by
        ext i
        simp only [Set.mem_inter_iff, Set.mem_ofPred_eq]
        refine and_congr_right fun inUse => ⟨fun le => ?_, fun le => by omega⟩
        refine Nat.lt_of_le_of_ne le ?_
        rintro rfl
        exact member inUse
      obtain ⟨addrs, skb⟩ := idle n (Nat.lt_succ_self n) member
      have unchanged : (unmapSlot soc n work).2 = work.2 := by
        simp [unmapSlot, mtkTxUnmap, old n le_rfl, addrs, skb, SkbPtr.free]
      rw [same] at holds
      rw [unchanged]
      refine ⟨holds.congr fun i inUse => ?_, shrinks, later⟩
      exact (later i inUse.2).trans (old i (by have := inUse.2; simp at this; omega)).symm

/-- Nothing is mapped, only some memory is left, and nothing has been released again. -/
structure Left (res : DmaRes) (memory : Nat → Prop) : Prop where
  mapped : ∀ a, res.mapped a = none
  live : ∀ m, res.live m = true ↔ memory m
  fault : res.fault = false

theorem Left.release {res : DmaRes} {memory : Nat → Prop} (left : Left res memory) {m : Nat}
    (there : memory m) : Left (res.release m) fun n => memory n ∧ n ≠ m := by
  rw [DmaRes.release_live ((left.live m).mpr there)]
  refine ⟨left.mapped, fun n => ?_, left.fault⟩
  by_cases same : n = m
  · simp [same]
  · simp [same, left.live n]

theorem Left.congr {res : DmaRes} {memory memory' : Nat → Prop} (left : Left res memory)
    (same : ∀ m, memory m ↔ memory' m) : Left res memory' :=
  ⟨left.mapped, fun m => (left.live m).trans (same m), left.fault⟩

theorem Core.cleanBufs (core : s.Core soc tail head) (orderly : s.CleanOrderly soc) :
    Left (unmapSlots soc soc.txDmaSize (s.ring.buf, s.res)).2 s.Others := by
  have idle : ∀ i < soc.txDmaSize, i ∉ slots soc.txDmaSize tail head →
      (s.ring.buf i).addrs soc = [] ∧ (s.ring.buf i).skb = .null := by
    intro i lt absent
    have still := core.free i absent
    simp only [TxBuf.Live, not_or, not_not, Bool.not_eq_true] at still
    obtain ⟨null, single0, page0⟩ := still
    refine ⟨?_, null⟩
    cases kind : soc.qdma with
    | true => simp [TxBuf.addrs, kind, single0, page0]
    | false =>
      obtain ⟨len0, len1⟩ := orderly kind i lt null
      simp [TxBuf.addrs, kind, len0, len1]
  obtain ⟨holds, shrinks, _⟩ := unmapSlots_holds core.holds idle
  have none : slots soc.txDmaSize tail head ∩ {i | soc.txDmaSize ≤ i} = ∅ := by
    ext i
    simp only [Set.mem_inter_iff, Set.mem_ofPred_eq, Set.mem_empty_iff_false, iff_false, not_and,
      not_le]
    exact Circular.mem_slots_lt soc.txDmaSize_pos
  rw [none] at holds
  refine ⟨fun a => ?_, fun m => ?_, shrinks.fault.trans core.fault⟩
  · simpa using holds.mapped a
  · simpa using holds.live m

theorem Core.clean (core : s.Core soc tail head) (orderly : s.CleanOrderly soc) :
    Left (mtkTxClean soc s.ring s.res).2 fun m => s.stack m = true := by
  have left := core.cleanBufs orderly
  have furnished := core.furnished
  have others : ∀ m, s.Others m ↔ s.stack m = true ∨ s.ring.Own m := fun _ => .rfl
  have stackOwn := core.stackOwn
  obtain ⟨memory, array⟩ := Option.ne_none_iff_exists'.mp furnished.array
  simp only [TxRing.Own, array, Option.some_inj] at others stackOwn
  have left := left.release ((others memory).mpr (.inr (.inl rfl)))
  simp only [mtkTxClean, Eth.cleanBufs, array]
  generalize (unmapSlots soc soc.txDmaSize (s.ring.buf, s.res)).2.release memory = res at left
  rcases furnished.dma with ⟨dma, inSram⟩ | ⟨inSram, region, dma, apart⟩
  · simp only [dma, inSram, if_true]
    cases pdma : s.ring.dmaPdma with
    | none =>
      refine left.congr fun m => ?_
      have := stackOwn m
      simp only [dma, pdma] at others this
      grind
    | some second =>
      have apart := (furnished.pdma second pdma).1
      simp only [dma, pdma] at others stackOwn
      refine (left.release ⟨(others second).mpr (by simp), ?_⟩).congr fun m => ?_
      · rintro rfl
        exact apart array
      · have := stackOwn m
        grind
  · simp only [dma, inSram, Bool.false_eq_true, if_false, DmaRes.freeRegion]
    have left : Left (res.release region) fun m =>
        (s.Others m ∧ m ≠ memory) ∧ m ≠ region := by
      refine left.release ⟨(others region).mpr (by simp [dma]), ?_⟩
      rintro rfl
      exact apart array
    cases pdma : s.ring.dmaPdma with
    | none =>
      refine left.congr fun m => ?_
      have := stackOwn m
      simp only [dma, pdma] at others this
      grind
    | some second =>
      obtain ⟨apart, apart'⟩ := furnished.pdma second pdma
      simp only [dma, pdma] at others stackOwn
      refine (left.release ⟨⟨(others second).mpr (by simp), ?_⟩, ?_⟩).congr fun m => ?_
      · rintro rfl
        exact apart array
      · rintro rfl
        exact apart' dma
      · have := stackOwn m
        grind

/-! ## A ring in use -/

/-- What `mtk_tx_alloc` finds: the memory of the PDMA descriptors is gone, and a ring outside of
the SRAM was never in it. -/
def Bare (soc : TxSoc) (ring : TxRing) : Prop :=
  ring.dmaPdma = none ∧ (ring.inSram = true → soc.inSram = true)

section Start

variable {alloc : TxAllocCall} {ring : TxRing}

/-- The ring after `mtk_tx_alloc`, when nothing else is allocated or mapped. -/
def start (soc : TxSoc) (alloc : TxAllocCall) (ring : TxRing) : TxState :=
  ofAlloc (mtkTxAlloc soc alloc ring .empty).2.1 (mtkTxAlloc soc alloc ring .empty).2.2

theorem furnished_setUp (furnished : ring.Furnished) : (ring.setUp soc).Furnished :=
  ⟨furnished.array, furnished.dma, furnished.pdma⟩

theorem at_setUp : (ring.setUp soc).At soc 0 0 := by
  have positive := soc.txDmaSize_pos
  refine ⟨rfl, le_rfl, by omega, (Nat.zero_mod _).symm, ?_, ?_⟩
  · rw [Nat.zero_add, Nat.mod_eq_of_lt (by omega)]
    rfl
  · simp [TxRing.setUp]

theorem ptrs_setUp : Ptrs soc (ring.setUp soc) 0 := by
  have positive := soc.txDmaSize_pos
  refine ⟨fun _ => ?_, fun _ => (Nat.zero_mod _).symm⟩
  rw [Nat.zero_add, Nat.mod_eq_of_lt (by omega)]
  rfl

theorem owned_setUp {res : DmaRes} (furnished : ring.Furnished) (blank : ring.buf = fun _ => .zero)
    (mapped : res.mapped = fun _ => none) (live : ∀ m, res.live m = true ↔ ring.Own m)
    (fresh : ∀ m, res.next ≤ m → res.live m = false) (fault : res.fault = false) :
    (ofAlloc (ring.setUp soc) res).Owned soc := by
  refine ⟨0, 0, ⟨at_setUp, furnished_setUp furnished, ⟨?_, ?_, ?_, ?_, ?_, ?_⟩, ?_, ?_, ?_, fresh,
    fault⟩, ptrs_setUp⟩
  · simp [ofAlloc, mapped]
  · simp
  · simp
  · simp [ofAlloc, Others, live, TxRing.Own, TxRing.setUp]
  · simp
  · simp
  · simp
  · simp [ofAlloc, TxRing.setUp, blank, TxBuf.Live, TxBuf.zero]
  · simp [ofAlloc]

theorem owned_start (bare : Bare soc ring) (done : (mtkTxAlloc soc alloc ring .empty).1 = true) :
    (start soc alloc ring).Owned soc := by
  obtain ⟨pdma, sram⟩ := bare
  have array : alloc.array = true := by
    by_contra fails
    simp [mtkTxAlloc, fails] at done
  cases inSram : soc.inSram with
  | true =>
    cases qdma : soc.qdma with
    | true =>
      simp only [start, mtkTxAlloc, allocTxRegion, allocPdmaRegion, array, inSram, qdma, if_true]
      refine owned_setUp ⟨by simp, .inl ⟨rfl, rfl⟩, by simp [pdma]⟩ rfl rfl ?_ ?_ rfl
      · simp [DmaRes.alloc, DmaRes.empty, TxRing.Own, pdma, update_apply]
        grind
      · simp [DmaRes.alloc, DmaRes.empty, update_apply]
        omega
    | false =>
      have second : alloc.pdma = true := by
        by_contra fails
        simp [mtkTxAlloc, allocTxRegion, allocPdmaRegion, array, inSram, qdma, fails] at done
      simp only [start, mtkTxAlloc, allocTxRegion, allocPdmaRegion, array, inSram, qdma, second,
        if_true, Bool.false_eq_true, if_false]
      refine owned_setUp ⟨by simp, .inl ⟨rfl, rfl⟩, by simp [DmaRes.alloc, DmaRes.empty]⟩ rfl rfl
        ?_ ?_ rfl
      · simp [DmaRes.alloc, DmaRes.empty, TxRing.Own, update_apply]
        grind
      · simp [DmaRes.alloc, DmaRes.empty, update_apply]
        omega
  | false =>
    have outside : ring.inSram = false := by
      by_contra inside
      simp [sram (by simpa using inside)] at inSram
    have coherent : alloc.coherent = true := by
      by_contra fails
      simp [mtkTxAlloc, allocTxRegion, array, inSram, fails] at done
    cases qdma : soc.qdma with
    | true =>
      simp only [start, mtkTxAlloc, allocTxRegion, allocPdmaRegion, array, inSram, qdma, coherent,
        if_true, Bool.false_eq_true, if_false]
      refine owned_setUp ⟨by simp, .inr ⟨outside, _, rfl, ?_⟩, by simp [pdma]⟩ rfl rfl ?_ ?_ rfl
      · simp [DmaRes.alloc, DmaRes.empty]
      · simp [DmaRes.alloc, DmaRes.empty, TxRing.Own, pdma, update_apply]
        grind
      · simp [DmaRes.alloc, DmaRes.empty, update_apply]
        omega
    | false =>
      have second : alloc.pdma = true := by
        by_contra fails
        simp [mtkTxAlloc, allocTxRegion, allocPdmaRegion, array, inSram, qdma, coherent, fails]
          at done
      simp only [start, mtkTxAlloc, allocTxRegion, allocPdmaRegion, array, inSram, qdma, coherent,
        second, if_true, Bool.false_eq_true, if_false]
      refine owned_setUp ⟨by simp, .inr ⟨outside, _, rfl, ?_⟩, ?_⟩ rfl rfl ?_ ?_ rfl
      · simp [DmaRes.alloc, DmaRes.empty]
      · simp [DmaRes.alloc, DmaRes.empty]
      · simp [DmaRes.alloc, DmaRes.empty, TxRing.Own, update_apply]
        grind
      · simp [DmaRes.alloc, DmaRes.empty, update_apply]
        omega

end Start

/-- The descriptors from `next_free` up to `last_free`. -/
def freeChain (ring : TxRing) : List Nat :=
  Circular.walk ring.dmaSize ring.lastFree ring.dmaSize ring.nextFree

/-- The free descriptors are as many as counted and hold nothing; what is allocated are the skbs of
the stack, the memory of the ring and the skbs in its descriptors, and what is mapped are their
pieces, each once. -/
structure Sound (soc : TxSoc) (s : TxState) : Prop where
  count : ((freeChain s.ring).length : Int) = s.ring.freeCount + 1
  idle : ∀ i ∈ freeChain s.ring, ¬(s.ring.buf i).Live
  skbs : ∀ m, s.res.live m = true ↔
    s.Others m ∨ ∃ i < soc.txDmaSize, (s.ring.buf i).skb = .skb m
  skbOnce : ∀ i < soc.txDmaSize, ∀ j < soc.txDmaSize, ∀ m,
    (s.ring.buf i).skb = .skb m → (s.ring.buf j).skb = .skb m → i = j
  mappings : ∀ a, (s.res.mapped a).isSome ↔
    ∃ i < soc.txDmaSize, (s.ring.buf i).skb ≠ .null ∧ a ∈ (s.ring.buf i).addrs soc
  fault : s.res.fault = false

theorem Core.sound (core : s.Core soc tail head) : s.Sound soc := by
  have at_ := core.at_
  have le := at_.le
  have room := at_.room
  have positive := soc.txDmaSize_pos
  have inRing : ∀ i, i ∈ slots soc.txDmaSize tail head → i < soc.txDmaSize := fun _ =>
    Circular.mem_slots_lt positive
  have inUse : ∀ i, (s.ring.buf i).skb ≠ .null → i ∈ slots soc.txDmaSize tail head := by
    intro i there
    by_contra absent
    exact core.free i absent (.inl there)
  have chain : freeChain s.ring = (List.range (tail + (soc.txDmaSize - 1) - head)).map
      fun d => (head + d) % soc.txDmaSize := by
    rw [freeChain, at_.size, at_.nextFree, at_.lastFree,
      show tail + (soc.txDmaSize - 1) = head + (tail + (soc.txDmaSize - 1) - head) by omega,
      Circular.walk_eq (by omega) (by omega)]
    congr 2
    omega
  refine ⟨?_, ?_, fun m => ?_, ?_, fun a => ?_, core.fault⟩
  · have := at_.count
    rw [chain, List.length_map, List.length_range]
    omega
  · intro i member
    rw [chain] at member
    obtain ⟨d, short, rfl⟩ := List.mem_map.mp member
    rw [List.mem_range] at short
    exact core.free _ (not_mem_slots (by omega) (by omega))
  · rw [core.holds.live]
    refine or_congr_right ⟨?_, ?_⟩
    · rintro ⟨i, member, mine⟩
      exact ⟨i, inRing i member, mine⟩
    · rintro ⟨i, _, mine⟩
      exact ⟨i, inUse i (by simp [mine]), mine⟩
  · intro i _ j _ m mine yours
    exact core.holds.unique i (inUse i (by simp [mine])) j (inUse j (by simp [yours])) m mine yours
  · rw [core.holds.mapped]
    constructor
    · rintro ⟨i, member, mine⟩
      exact ⟨i, inRing i member, core.used i member, mine⟩
    · rintro ⟨i, _, there, mine⟩
      exact ⟨i, inUse i there, mine⟩

theorem xmit_busy (done : s.mtkStartXmit soc call = some (.busy, s')) : s' = s := by
  rw [mtkStartXmit] at done
  split at done
  · cases done
  split at done
  · cases done
    rfl
  split at done
  · cases done
  obtain ⟨⟨ok, ring, res⟩, _, rest⟩ := Option.map_eq_some_iff.mp done
  cases ok <;> cases rest

/-- Through every run whose transmits keep the books the ring is in order; a transmit that fails
changes nothing of the packets before it, one that is refused nothing at all; and the clean-up
leaves only the skbs of the stack. -/
theorem tx_ring_owned {alloc : TxAllocCall} {ring : TxRing} (bare : Bare soc ring)
    (done : (mtkTxAlloc soc alloc ring .empty).1 = true)
    (reaches : Reaches (Orderly soc) (step soc) (start soc alloc ring) s) :
    s.Sound soc ∧
      (∀ call ending s', s.stack call.skb.head = true → s.XmitOrderly soc call →
        s.mtkStartXmit soc call = some (ending, s') → ending ≠ .sent →
          SameRing s s' ∧ (ending = .busy → s' = s)) ∧
      (s.CleanOrderly soc → Left (mtkTxClean soc s.ring s.res).2 fun m => s.stack m = true) := by
  have preserved : ∀ (before : TxState) event after, before.Owned soc →
      Orderly soc before event → step soc before event = some after → after.Owned soc :=
    fun _ _ _ owned orderly stepped => owned.step orderly stepped
  obtain ⟨tail, head, core, _⟩ := reaches.invariant preserved (owned_start bare done)
  refine ⟨core.sound, ?_, core.clean⟩
  intro call ending s' held orderly sent failed
  refine ⟨(core.xmit held orderly sent).2 failed, ?_⟩
  rintro rfl
  exact xmit_busy sent

def pdma8 : TxSoc := ⟨false, false, false, 0x3fff, 8, by decide, 3, rfl⟩

def twoFragments : TxCall :=
  ⟨⟨3, 100, [200, 300], false⟩, false, true, true, fun k => some (BitVec.ofNat 64 (0x1000 * k))⟩

theorem tx_ring_owned_two : ∃ s, Reaches (Orderly pdma8) (step pdma8)
      (start pdma8 ⟨true, true, true⟩ .unused) s ∧ s.ring.freeCount = 4 ∧ s.Sound pdma8 ∧
    Left (mtkTxClean pdma8 s.ring s.res).2 fun m => s.stack m = true := by
  let events : List Event := [.skb, .xmit twoFragments]
  have bare : Bare pdma8 .unused := ⟨rfl, nofun⟩
  have done : (mtkTxAlloc pdma8 ⟨true, true, true⟩ .unused .empty).1 = true := rfl
  have result : (runSteps (step pdma8) events (start pdma8 ⟨true, true, true⟩ .unused)).map
      (fun s => (s.ring.freeCount, decide (s.CleanOrderly pdma8))) = some (4, true) := by
    decide +kernel
  have meets : AllAllowed (Orderly pdma8) (step pdma8) events
      (start pdma8 ⟨true, true, true⟩ .unused) := by decide +kernel
  obtain ⟨s, run, last⟩ := Option.map_eq_some_iff.mp result
  obtain ⟨count, clean⟩ := Prod.mk.inj last
  have reaches := reaches_of_runSteps meets run
  obtain ⟨sound, _, cleaned⟩ := tx_ring_owned bare done reaches
  exact ⟨s, reaches, count, sound, cleaned (of_decide_eq_true clean)⟩

def shortPacket : TxCall := ⟨⟨2, 20, [], false⟩, false, true, false, fun _ => none⟩

def qdma8 : TxSoc := ⟨true, false, false, 0x3fff, 8, by decide, 3, rfl⟩

/-- `skb_put_padto` frees the skb it cannot pad, and `mtk_start_xmit` frees it again. -/
theorem freed_twice : ¬∀ (soc : TxSoc) (alloc : TxAllocCall) (ring : TxRing) (s : TxState),
    Bare soc ring → (mtkTxAlloc soc alloc ring .empty).1 = true →
      Reaches anyStep (step soc) (start soc alloc ring) s → s.Sound soc := by
  intro sound
  let events : List Event := [.skb, .xmit shortPacket]
  have result : (runSteps (step qdma8) events (start qdma8 ⟨true, true, true⟩ .unused)).map
      (fun s => s.res.fault) = some true := by decide +kernel
  obtain ⟨s, run, fault⟩ := Option.map_eq_some_iff.mp result
  have reaches := reaches_of_runSteps allAllowed_anyStep run
  have once := (sound qdma8 ⟨true, true, true⟩ .unused s ⟨rfl, nofun⟩ rfl reaches).fault
  simp [fault] at once

end TxState

end MetaFilogic.Eth
