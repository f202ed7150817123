import MetaFilogic.Eth.TxQueues

/-!
# The queues are told of every packet once

A queue has been told of the bytes of its packets in the ring and of none that are gone, through
every run in which no packet fails at a piece that shares the descriptor of its linear part while
others are in the ring.
-/

namespace MetaFilogic.Eth

open Circular (slots slots_head slots_tail slots_append slot_mem not_mem_slots not_mem_slots_before
  contents)
open Function (update update_self update_of_ne update_apply)

variable {soc : TxSoc} {ring : TxRing} {x : QueueCall} {res : DmaRes} {flags : Nat → PortFlags}
  {tail head last : Nat} {w : MarkedWork}

/-! ## The flags apart -/

section Erase

variable {piece : Nat × Nat} {pieces : List (Nat × Nat)}

theorem mapPieceMarked_erase :
    (mapPieceMarked soc ring x piece w).map (fun part => (part.1, part.2.work)) =
      mapPiece soc ring x.call piece w.work := by
  rw [mapPieceMarked, Option.map_map]
  exact Option.map_id'

theorem mapPiecesMarked_erase (w : MarkedWork) :
    (mapPiecesMarked soc ring x pieces w).map (fun part => (part.1, part.2.work)) =
      mapPieces soc ring x.call pieces w.work := by
  induction pieces generalizing w with
  | nil => rfl
  | cons piece pieces ih =>
    rw [mapPiecesMarked, mapPieces, ← mapPieceMarked_erase, Option.map_bind, Option.bind_map]
    congr 1
    funext part
    simp only [Function.comp_apply]
    split
    · exact ih _
    · rfl

theorem unwindMarked_erase {txd itxd fuel : Nat}
    {work : ((Nat → TxBuf) × DmaRes) × (Nat → PortFlags)} :
    (unwindMarked soc ring txd fuel itxd work).1 = unwind soc ring txd fuel itxd work.1 := by
  induction fuel generalizing itxd work with
  | zero => rfl
  | succ fuel ih =>
    simp only [unwindMarked, unwind]
    split
    · rfl
    · exact ih

theorem mapEndMarked_erase (ok : Bool) :
    ((mapEndMarked soc ring x ok w).1, (mapEndMarked soc ring x ok w).2.ring,
      (mapEndMarked soc ring x ok w).2.res) = mapEnd soc ring x.call ok w.work := by
  cases ok with
  | true => rfl
  | false =>
    simp only [mapEndMarked, mapEnd, Bool.false_eq_true, if_false, unwindMarked_erase]

theorem mtkTxMapMarked_erase (flags : Nat → PortFlags) :
    (mtkTxMapMarked soc ring x res flags).map (fun part => (part.1, part.2.ring, part.2.res)) =
      mtkTxMap soc ring x.call res := by
  rw [mtkTxMapMarked, mtkTxMap]
  split
  · rfl
  split
  · rfl
  cases x.call.mapped 0 with
  | none => rfl
  | some addr =>
    dsimp only
    rw [Option.map_bind]
    congr 1
    funext res
    rw [Function.comp_apply, ← mapPiecesMarked_erase
      ⟨_, update flags ring.nextFree (PortFlags.clear.mark x.dev)⟩, Option.map_map,
      Option.map_map]
    congr 1
    funext part
    exact mapEndMarked_erase part.1

end Erase

/-! ## Mapping a packet -/

/-- A packet is being mapped: its last descriptor so far is in place `last`, and the first has the
flag of its device. -/
structure Marking (soc : TxSoc) (ring : TxRing) (x : QueueCall) (res : DmaRes)
    (flags : Nat → PortFlags) (tail head : Nat) (w : MarkedWork) (last : Nat) : Prop where
  low : head ≤ last
  room : last + 1 < tail + soc.txDmaSize
  txd : w.work.txd = last % soc.txDmaSize
  nDesc : w.work.nDesc + head = last + 1
  old : ∀ i ∉ slots soc.txDmaSize head (last + 1),
    w.work.buf i = ring.buf i ∧ w.flags i = flags i
  noSkb : ∀ i ∈ slots soc.txDmaSize head (last + 1), ∀ m, (w.work.buf i).skb ≠ .skb m
  mine : w.flags (head % soc.txDmaSize) = PortFlags.clear.mark x.dev
  next : w.work.res.next = res.next

theorem PortFlags.mark_mark (flags : PortFlags) (dev : Gmac) :
    (flags.mark dev).mark dev = flags.mark dev := by
  cases dev <;> rfl

theorem PortFlags.mac_mark (dev : Gmac) : (PortFlags.clear.mark dev).mac = dev := by
  cases dev <;> rfl

namespace Marking

variable {res' : DmaRes} {size : Nat} {addr : DmaAddr}

theorem take (m : Marking soc ring x res flags tail head w last) (le : tail ≤ head)
    (room : last + 2 < tail + soc.txDmaSize) (next : res'.next = w.work.res.next) :
    Marking soc ring x res flags tail head
      ⟨{ w.work with txd := (last + 1) % soc.txDmaSize, nDesc := w.work.nDesc + 1 }.place soc true
        addr size res',
        update w.flags ((last + 1) % soc.txDmaSize) (PortFlags.clear.mark x.dev)⟩
      (last + 1) := by
  have low := m.low
  have dummy : (setupTxBuf soc { TxBuf.zero with skb := .dummy, page0 := true } addr size
      w.work.k).skb = .dummy := setupTxBuf_skb rfl
  have apart : head % soc.txDmaSize ≠ (last + 1) % soc.txDmaSize := by
    intro same
    have := Circular.place_unique tail le (by omega) (by omega) (by omega) same
    omega
  refine ⟨by omega, by omega, rfl, ?_, ?_, ?_, ?_, next.trans m.next⟩
  · have := m.nDesc
    simp only [TxWork.place]
    omega
  · intro i absent
    rw [slots_head (by omega)] at absent
    obtain ⟨other, absent⟩ := not_or.mp absent
    obtain ⟨buf, flag⟩ := m.old i absent
    exact ⟨(update_of_ne other ..).trans buf, (update_of_ne other ..).trans flag⟩
  · rw [slots_head (by omega)]
    intro i member n
    by_cases here : i = (last + 1) % soc.txDmaSize
    · simp [TxWork.place, here, dummy]
    · simpa [TxWork.place, here] using m.noSkb i (member.resolve_left here) n
  · exact (update_of_ne apart ..).trans m.mine

theorem join (m : Marking soc ring x res flags tail head w last)
    (next : res'.next = w.work.res.next) :
    Marking soc ring x res flags tail head
      ⟨w.work.place soc false addr size res',
        update w.flags w.work.txd ((w.flags w.work.txd).mark x.dev)⟩ last := by
  have dummy : (setupTxBuf soc { w.work.buf w.work.txd with skb := .dummy, page0 := true } addr size
      w.work.k).skb = .dummy := setupTxBuf_skb rfl
  have inUse : w.work.txd ∈ slots soc.txDmaSize head (last + 1) := by
    rw [m.txd]
    exact slot_mem m.low (Nat.lt_succ_self last)
  refine ⟨m.low, m.room, m.txd, m.nDesc, ?_, ?_, ?_, next.trans m.next⟩
  · intro i absent
    have other : i ≠ w.work.txd := by
      rintro rfl
      exact absent inUse
    obtain ⟨buf, flag⟩ := m.old i absent
    exact ⟨(update_of_ne other ..).trans buf, (update_of_ne other ..).trans flag⟩
  · intro i member n
    by_cases here : i = w.work.txd
    · simp [TxWork.place, here, dummy]
    · simpa [TxWork.place, here] using m.noSkb i member n
  · by_cases here : head % soc.txDmaSize = w.work.txd
    · simp only [here, update_self]
      rw [← here, m.mine, PortFlags.mark_mark]
    · exact (update_of_ne here ..).trans m.mine

end Marking

def SharedFails (soc : TxSoc) (mapped : Nat → Option DmaAddr) (k : Nat)
    (pieces : List (Nat × Nat)) : Prop :=
  ∃ j < (pieces.takeWhile fun piece => !soc.newDesc piece.1).length, mapped (k + j) = none

instance (soc : TxSoc) (mapped : Nat → Option DmaAddr) (k : Nat) (pieces : List (Nat × Nat)) :
    Decidable (SharedFails soc mapped k pieces) :=
  inferInstanceAs (Decidable (∃ j < _, _))

section Loop

variable {mapped : Nat → Option DmaAddr} {k : Nat} {piece : Nat × Nat} {pieces : List (Nat × Nat)}

theorem not_sharedFails_new (mapped : Nat → Option DmaAddr) (k : Nat) (pieces : List (Nat × Nat))
    (new : soc.newDesc piece.1 = true) : ¬SharedFails soc mapped k (piece :: pieces) := by
  rintro ⟨j, lt, -⟩
  simp [new] at lt

theorem sharedFails_here (same : soc.newDesc piece.1 = false) (fails : mapped k = none) :
    SharedFails soc mapped k (piece :: pieces) :=
  ⟨0, by simp [same], fails⟩

theorem sharedFails_later (pieces : List (Nat × Nat)) (same : soc.newDesc piece.1 = false)
    (succeeds : mapped k ≠ none) :
    SharedFails soc mapped k (piece :: pieces) ↔ SharedFails soc mapped (k + 1) pieces := by
  unfold SharedFails
  rw [List.takeWhile_cons_of_pos (by simp [same]), List.length_cons]
  constructor
  · rintro ⟨_ | j, lt, fails⟩
    · exact absurd fails succeeds
    · exact ⟨j, Nat.lt_of_succ_lt_succ lt, by rwa [Nat.add_assoc, Nat.add_comm 1 j]⟩
  · rintro ⟨j, lt, fails⟩
    exact ⟨j + 1, Nat.succ_lt_succ lt, by rwa [Nat.add_comm j 1, ← Nat.add_assoc]⟩

/-- The loops of `mtk_tx_map` have mapped all pieces, or stop at a descriptor: the next one, or the
last one for a piece that shares it. -/
def MarkEnds (soc : TxSoc) (ring : TxRing) (x : QueueCall) (res : DmaRes)
    (flags : Nat → PortFlags) (tail head : Nat) (fails : Prop) (part : Bool × MarkedWork) : Prop :=
  ∃ w last, Marking soc ring x res flags tail head w last ∧
    if part.1 then part.2 = w ∧ ¬fails
    else part.2.work.buf = w.work.buf ∧ part.2.work.res = w.work.res ∧ part.2.flags = w.flags ∧
      ∃ e, last ≤ e ∧ e ≤ last + 1 ∧ part.2.work.txd = e % soc.txDmaSize ∧ (e = head ↔ fails)

theorem mapPiecesMarked_ends (at_ : ring.At soc tail head) {part : Bool × MarkedWork}
    (m : Marking soc ring x res flags tail head w last)
    (done : mapPiecesMarked soc ring x pieces w = some part) :
    MarkEnds soc ring x res flags tail head
      (last = head ∧ SharedFails soc x.call.mapped w.work.k pieces) part := by
  induction pieces generalizing w last with
  | nil =>
    obtain rfl := Option.some_inj.mp done
    refine ⟨w, last, m, rfl, ?_⟩
    rintro ⟨-, j, lt, -⟩
    exact absurd lt (Nat.not_lt_zero j)
  | cons piece pieces ih =>
    obtain ⟨first, marked, rest⟩ := Option.bind_eq_some_iff.mp done
    rw [mapPieceMarked] at marked
    obtain ⟨⟨ok, work⟩, one, rfl⟩ := Option.map_eq_some_iff.mp marked
    have low := m.low
    have le := at_.le
    cases new : soc.newDesc piece.1 with
    | true =>
      have never := not_sharedFails_new x.call.mapped w.work.k pieces new
      rw [mapPiece_new new, m.txd, at_.next] at one
      split at one
      · cases one
        cases rest
        exact ⟨w, last, m, rfl, rfl, rfl, last + 1, Nat.le_succ _, le_rfl, rfl,
          iff_of_false (by omega) fun both => never both.2⟩
      · rename_i apart
        have room := at_.ne_lastFree (by omega) m.room apart
        split at one
        · cases one
          cases rest
          exact ⟨w, last, m, rfl, rfl, rfl, last + 1, Nat.le_succ _, le_rfl, rfl,
            iff_of_false (by omega) fun both => never both.2⟩
        · obtain ⟨res', map, same⟩ := Option.map_eq_some_iff.mp one
          cases same
          have ends := ih (m.take le (by omega) (DmaRes.Shrinks.map map).next) (by
            simpa [new, TxWork.place] using rest)
          have neither : (last + 1 = head ∧ SharedFails soc x.call.mapped (w.work.k + 1) pieces) ↔
              (last = head ∧ SharedFails soc x.call.mapped w.work.k (piece :: pieces)) :=
            iff_of_false (by omega) fun both => never both.2
          rw [← neither]
          exact ends
    | false =>
      rw [mapPiece_same new] at one
      split at one
      · rename_i fails
        cases one
        cases rest
        exact ⟨w, last, m, rfl, rfl, rfl, last, le_rfl, Nat.le_succ _, m.txd,
          ⟨fun here => ⟨here, sharedFails_here new fails⟩, And.left⟩⟩
      · rename_i addr succeeds
        obtain ⟨res', map, same⟩ := Option.map_eq_some_iff.mp one
        cases same
        have ends := ih (m.join (DmaRes.Shrinks.map map).next) (by
          simpa [new, TxWork.place] using rest)
        have later := sharedFails_later pieces new
          (show x.call.mapped w.work.k ≠ none by simp [succeeds])
        rw [later]
        exact ends

end Loop

/-! ## Undoing a packet -/

theorem DmaRes.foldl_unmap_next (addrs : List DmaAddr) (res : DmaRes) :
    (addrs.foldl DmaRes.unmap res).next = res.next := by
  induction addrs generalizing res with
  | nil => rfl
  | cons addr addrs ih =>
    rw [List.foldl_cons, ih, DmaRes.unmap]
    split <;> rfl

theorem unmapSlot_next (i : Nat) (work : (Nat → TxBuf) × DmaRes) :
    (unmapSlot soc i work).2.next = work.2.next :=
  (SkbPtr.free_next ..).trans (DmaRes.foldl_unmap_next ..)

theorem DmaRes.release_next (res : DmaRes) (memory : Nat) :
    (res.release memory).next = res.next := by
  rw [DmaRes.release]
  split <;> rfl

section Unwind

variable {txd itxd fuel j e : Nat} {work : ((Nat → TxBuf) × DmaRes) × (Nat → PortFlags)}

theorem unwindMarked_next :
    (unwindMarked soc ring txd fuel itxd work).1.2.next = work.1.2.next := by
  induction fuel generalizing itxd work with
  | zero => rfl
  | succ fuel ih =>
    simp only [unwindMarked]
    split
    · exact unmapSlot_next ..
    · exact ih.trans (unmapSlot_next ..)

theorem unwindMarked_or (i : Nat) :
    (unwindMarked soc ring txd fuel itxd work).1.1 i = work.1.1 i ∨
      ((unwindMarked soc ring txd fuel itxd work).1.1 i).skb = .null := by
  induction fuel generalizing itxd work with
  | zero => exact .inl rfl
  | succ fuel ih =>
    have one : (unmapSlot soc itxd work.1).1 i = work.1.1 i ∨
        ((unmapSlot soc itxd work.1).1 i).skb = .null := by
      by_cases here : i = itxd
      · exact .inr (here ▸ unmapSlot_skb)
      · exact .inl (unmapSlot_of_ne here)
    simp only [unwindMarked]
    split
    · exact one
    · rcases @ih (ring.next itxd) (unmapMarked soc itxd work) with same | null
      · exact one.imp same.trans fun null => (congrArg TxBuf.skb same).trans null
      · exact .inr null

/-- The loop ends at the place `e`. -/
theorem unwindMarked_spans (fuel j e : Nat) (work : ((Nat → TxBuf) × DmaRes) × (Nat → PortFlags))
    (at_ : ring.At soc tail head) (lt : j < e) (span : e ≤ j + soc.txDmaSize) :
    let after := unwindMarked soc ring (e % soc.txDmaSize) fuel (j % soc.txDmaSize) work
    (∀ i ∉ slots soc.txDmaSize j e, after.1.1 i = work.1.1 i ∧ after.2 i = work.2 i) ∧
      (e ≤ j + fuel → ∀ i ∈ slots soc.txDmaSize j e, (after.1.1 i).skb = .null) := by
  induction fuel generalizing j work with
  | zero => exact ⟨fun _ _ => ⟨rfl, rfl⟩, fun enough => by omega⟩
  | succ fuel ih =>
    have apart : ∀ i ∉ slots soc.txDmaSize j e,
        (unmapMarked soc (j % soc.txDmaSize) work).1.1 i = work.1.1 i ∧
          (unmapMarked soc (j % soc.txDmaSize) work).2 i = work.2 i := by
      intro i absent
      have other : i ≠ j % soc.txDmaSize := by
        rintro rfl
        exact absent (slot_mem le_rfl lt)
      exact ⟨unmapSlot_of_ne other, update_of_ne other ..⟩
    simp only [unwindMarked, at_.next]
    split
    · rename_i same
      obtain rfl : j + 1 = e := Circular.place_unique (j + 1) le_rfl (by omega) (by omega)
        (by omega) same
      refine ⟨apart, fun _ i member => ?_⟩
      rw [slots_tail lt, Circular.slots_empty] at member
      obtain rfl : i = j % soc.txDmaSize := by simpa using member
      exact unmapSlot_skb
    · rename_i more
      have lt' : j + 1 < e := by
        refine Nat.lt_of_le_of_ne lt ?_
        rintro rfl
        exact more rfl
      obtain ⟨old, gone⟩ := @ih (j + 1) (unmapMarked soc (j % soc.txDmaSize) work) lt' (by omega)
      refine ⟨fun i absent => ?_, fun enough i member => ?_⟩
      · have later : i ∉ slots soc.txDmaSize (j + 1) e := by
          rw [slots_tail lt, Set.mem_insert_iff, not_or] at absent
          exact absent.2
        exact ⟨(old i later).1.trans (apart i absent).1, (old i later).2.trans (apart i absent).2⟩
      · rw [slots_tail lt, Set.mem_insert_iff] at member
        rcases member with rfl | later
        · exact (unwindMarked_or _).elim
            (fun same => (congrArg TxBuf.skb same).trans unmapSlot_skb) id
        · exact gone (by omega) i later

end Unwind

theorem QueueCall.queued_len_pos (x : QueueCall) : 0 < x.queued.len := by
  have padded : x.call.skb.padded.len = 60 := rfl
  rw [QueueCall.queued, TxSkb.toMap]
  split
  · dsimp only
    omega
  · dsimp only
    omega

/-! ## The ring through a transmit -/

namespace QueueState

variable {present : Gmac → Bool} {b : QueueState} {q : TxQueue}

/-- A queue has been told of the bytes of its packets in the ring; each packet has the flag of its
device, and the stack has none of them. -/
structure Books (soc : TxSoc) (present : Gmac → Bool) (b : QueueState) (tail head : Nat) :
    Prop where
  at_ : b.tx.ring.At soc tail head
  outside : ∀ i ∉ slots soc.txDmaSize tail head, ∀ m, (b.tx.ring.buf i).skb ≠ .skb m
  marked : ∀ i m, (b.tx.ring.buf i).skb = .skb m → (b.flags i).mac = (b.skbs m).dev
  present : ∀ i m, (b.tx.ring.buf i).skb = .skb m → present (b.skbs m).dev = true
  taken : ∀ i m, (b.tx.ring.buf i).skb = .skb m → b.tx.stack m = false ∧ m < b.tx.res.next
  long : ∀ i m, (b.tx.ring.buf i).skb = .skb m → 0 < (b.skbs m).len
  known : ∀ m, b.tx.stack m = true → m < b.tx.res.next
  balance : ∀ q, b.sent q = b.completed q + (b.tally (b.inRing soc q)).2

variable {i : Nat}

theorem packetOf_eq_some {m : Nat} : b.packetOf q i = some m ↔
    (b.tx.ring.buf i).skb = .skb m ∧ (b.skbs m).queue = q := by
  rw [packetOf]
  cases (b.tx.ring.buf i).skb with
  | null => simp
  | dummy => simp
  | skb n =>
    by_cases mine : (b.skbs n).queue = q
    · simp only [mine, if_true, Option.some_inj, SkbPtr.skb.injEq]
      exact ⟨fun same => ⟨same, same ▸ mine⟩, And.left⟩
    · simp only [mine, if_false, SkbPtr.skb.injEq, reduceCtorEq, false_iff]
      rintro ⟨rfl, other⟩
      exact mine other

theorem packetOf_eq_none (empty : ∀ m, (b.tx.ring.buf i).skb ≠ .skb m) : b.packetOf q i = none := by
  rw [Option.eq_none_iff_forall_ne_some]
  exact fun m here => empty m (packetOf_eq_some.mp here).1

theorem packetOf_congr {b' : QueueState} (same : (b'.tx.ring.buf i).skb = (b.tx.ring.buf i).skb)
    (skbs : ∀ m, (b.tx.ring.buf i).skb = .skb m → b'.skbs m = b.skbs m) :
    b'.packetOf q i = b.packetOf q i := by
  rw [packetOf, packetOf, same]
  cases here : (b.tx.ring.buf i).skb with
  | null => rfl
  | dummy => rfl
  | skb m => simp only [skbs m here]

theorem tally_eq_sum (packets : List Nat) :
    b.tally packets = (packets.map fun m => (1, (b.skbs m).len)).sum := by
  induction packets with
  | nil => rfl
  | cons m packets ih =>
    rw [List.map_cons, List.sum_cons, ← ih]
    simp only [tally, List.length_cons, List.map_cons, List.sum_cons, Prod.mk_add_mk,
      Nat.add_comm 1]

theorem tally_inRing_put (b b' : QueueState) {slot m : Nat} (lt : slot < soc.txDmaSize)
    (empty : ∀ n, (b.tx.ring.buf slot).skb ≠ .skb n) (new : (b'.tx.ring.buf slot).skb = .skb m)
    (skbs : b'.skbs = b.skbs) (others : ∀ i, i ≠ slot → b'.packetOf q i = b.packetOf q i) :
    b'.tally (b'.inRing soc q) = b.tally (b.inRing soc q) +
      if (b.skbs m).queue = q then (1, (b.skbs m).len) else 0 := by
  have before : b.packetOf q slot = none := packetOf_eq_none empty
  rw [tally_eq_sum, tally_eq_sum, skbs, inRing, inRing]
  by_cases mine : (b.skbs m).queue = q
  · have put : ∀ i < soc.txDmaSize, b'.packetOf q i =
        update (b.packetOf q) slot (some m) i := by
      intro i _
      by_cases here : i = slot
      · rw [here, update_self]
        exact packetOf_eq_some.mpr ⟨new, skbs ▸ mine⟩
      · rw [update_of_ne here]
        exact others i here
    rw [Circular.contents_congr put, Circular.sum_contents_put _ lt before, if_pos mine]
  · have same : ∀ i < soc.txDmaSize, b'.packetOf q i = b.packetOf q i := by
      intro i _
      by_cases here : i = slot
      · rw [here, before, Option.eq_none_iff_forall_ne_some]
        intro n other
        obtain ⟨ptr, queue⟩ := packetOf_eq_some.mp other
        obtain rfl := SkbPtr.skb.inj (new.symm.trans ptr)
        exact mine (skbs ▸ queue)
      · exact others i here
    rw [Circular.contents_congr same, if_neg mine, add_zero]

namespace Books

variable {buf : Nat → TxBuf} {flags : Nat → PortFlags} {res : DmaRes}

theorem ready (books : b.Books soc present tail head) (held : b.tx.stack x.call.skb.head = true) :
    Books soc present { b with skbs := update b.skbs x.call.skb.head x.queued }
      tail head := by
  have other : ∀ i m, (b.tx.ring.buf i).skb = .skb m →
      update b.skbs x.call.skb.head x.queued m = b.skbs m := by
    intro i m here
    refine update_of_ne ?_ ..
    rintro rfl
    exact Bool.false_ne_true ((books.taken i _ here).1.symm.trans held)
  refine ⟨books.at_, books.outside, fun i m here => ?_, fun i m here => ?_, books.taken,
    fun i m here => ?_, books.known, fun q => ?_⟩
  · simp only [other i m here]
    exact books.marked i m here
  · simp only [other i m here]
    exact books.present i m here
  · simp only [other i m here]
    exact books.long i m here
  · have packets : ∀ i, packetOf { b with
        skbs := update b.skbs x.call.skb.head x.queued } q i = b.packetOf q i :=
      fun i => packetOf_congr rfl (other i)
    have lens : ∀ m ∈ b.inRing soc q,
        (update b.skbs x.call.skb.head x.queued m).len = (b.skbs m).len := by
      intro m inRing
      obtain ⟨i, -, here⟩ := Circular.mem_contents.mp inRing
      rw [other i m (packetOf_eq_some.mp here).1]
    rw [inRing, Circular.contents_congr fun i _ => packets i, ← inRing, tally,
      List.map_congr_left lens]
    exact books.balance q

theorem setBuf (books : b.Books soc present tail head)
    (kept : ∀ i, (∀ m, (buf i).skb ≠ .skb m) ∧ (∀ m, (b.tx.ring.buf i).skb ≠ .skb m) ∨
      buf i = b.tx.ring.buf i ∧ flags i = b.flags i) (next : res.next = b.tx.res.next) :
    Books soc present
      { b with tx := { b.tx with ring := { b.tx.ring with buf := buf }, res := res },
               flags := flags } tail head := by
  have before : ∀ i m, (buf i).skb = .skb m →
      (b.tx.ring.buf i).skb = .skb m ∧ flags i = b.flags i := by
    intro i m here
    rcases kept i with ⟨empty, -⟩ | ⟨same, flag⟩
    · exact absurd here (empty m)
    · exact ⟨same ▸ here, flag⟩
  refine ⟨⟨books.at_.size, books.at_.le, books.at_.room, books.at_.nextFree, books.at_.lastFree,
    books.at_.count⟩, fun i absent m here => books.outside i absent m (before i m here).1,
    fun i m here => ?_, fun i m here => books.present i m (before i m here).1,
    fun i m here => ?_, fun i m here => books.long i m (before i m here).1, fun m there => ?_,
    fun q => ?_⟩
  · simp only [(before i m here).2]
    exact books.marked i m (before i m here).1
  · simp only [next]
    exact books.taken i m (before i m here).1
  · simp only [next]
    exact books.known m there
  · rw [inRing, Circular.contents_congr
      (show ∀ i < soc.txDmaSize, _ = b.packetOf q i from fun i _ => ?_)]
    · exact books.balance q
    · rcases kept i with ⟨empty, empty'⟩ | ⟨same, -⟩
      · rw [packetOf_eq_none empty']
        exact packetOf_eq_none empty
      · exact packetOf_congr (congrArg TxBuf.skb same) fun _ _ => rfl

theorem drop (books : b.Books soc present tail head) :
    (b.drop x).2.Books soc present tail head := by
  have next : (b.tx.res.release x.call.skb.head).next = b.tx.res.next := DmaRes.release_next ..
  refine ⟨books.at_, books.outside, books.marked, books.present, fun i m here => ?_, books.long,
    fun m there => ?_, books.balance⟩
  · obtain ⟨absent, below⟩ := books.taken i m here
    refine ⟨?_, next ▸ below⟩
    simp only [QueueState.drop, TxState.drop, update_apply]
    split
    · rfl
    · exact absent
  · by_cases same : m = x.call.skb.head
    · simp [QueueState.drop, TxState.drop, same] at there
    · simp only [QueueState.drop, TxState.drop, update_of_ne same] at there
      exact next ▸ books.known m there

theorem sent (books : b.Books soc present tail head) (held : b.tx.stack x.call.skb.head = true)
    (there : present x.dev = true) (skb : b.skbs x.call.skb.head = x.queued)
    (m : Marking soc b.tx.ring x b.tx.res b.flags tail head w last) {b' : QueueState}
    (after : b' = { b with
      tx := ⟨(mapEnd soc b.tx.ring x.call true w.work).2.1,
        (mapEnd soc b.tx.ring x.call true w.work).2.2,
        update b.tx.stack x.call.skb.head false⟩, flags := w.flags }.sentQueue x) :
    b'.Books soc present tail (last + 1) := by
  have at_ := books.at_
  have low := m.low
  have le := at_.le
  have room := m.room
  have below := books.known _ held
  have absent : head % soc.txDmaSize ∉ slots soc.txDmaSize tail head :=
    not_mem_slots le_rfl at_.room
  have first : head % soc.txDmaSize ∈ slots soc.txDmaSize head (last + 1) :=
    slot_mem le_rfl (by omega)
  have span : slots soc.txDmaSize tail (last + 1) =
      slots soc.txDmaSize tail head ∪ slots soc.txDmaSize head (last + 1) :=
    slots_append le (by omega)
  have atNew : b'.tx.ring.At soc tail (last + 1) := by
    have := at_.count
    have := m.nDesc
    subst after
    simp only [sentQueue, mapEnd, if_true]
    exact ⟨at_.size, by omega, room, by rw [m.txd, at_.next], at_.lastFree, by dsimp only; omega⟩
  have buf : b'.tx.ring.buf = update w.work.buf (head % soc.txDmaSize)
      { w.work.buf (head % soc.txDmaSize) with skb := .skb x.call.skb.head } := by
    subst after
    simp only [sentQueue, mapEnd, if_true, at_.nextFree]
  have flagsNew : b'.flags = w.flags := by
    subst after
    rfl
  have skbs : b'.skbs = b.skbs := by
    subst after
    rfl
  have stack : b'.tx.stack = update b.tx.stack x.call.skb.head false := by
    subst after
    rfl
  have next : b'.tx.res.next = b.tx.res.next := by
    subst after
    exact m.next
  have told : b'.sent = update b.sent x.queued.queue
      (b.sent x.queued.queue + x.queued.len) := by
    subst after
    rfl
  have completed : b'.completed = b.completed := by
    subst after
    rfl
  have here : (b'.tx.ring.buf (head % soc.txDmaSize)).skb = .skb x.call.skb.head := by
    rw [buf, update_self]
  have others : ∀ i, i ≠ head % soc.txDmaSize →
      (∀ n, (b'.tx.ring.buf i).skb ≠ .skb n) ∧ (∀ n, (b.tx.ring.buf i).skb ≠ .skb n) ∨
        b'.tx.ring.buf i = b.tx.ring.buf i ∧ b'.flags i = b.flags i := by
    intro i other
    rw [buf, flagsNew, update_of_ne other]
    by_cases member : i ∈ slots soc.txDmaSize head (last + 1)
    · refine .inl ⟨m.noSkb i member, books.outside i ?_⟩
      obtain ⟨p, low', high, rfl⟩ := member
      exact not_mem_slots low' (by omega)
    · exact .inr (m.old i member)
  have packet : ∀ i n, (b'.tx.ring.buf i).skb = .skb n →
      i = head % soc.txDmaSize ∧ n = x.call.skb.head ∨
        (b.tx.ring.buf i).skb = .skb n ∧ b'.flags i = b.flags i := by
    intro i n ptr
    by_cases same : i = head % soc.txDmaSize
    · exact .inl ⟨same, SkbPtr.skb.inj (ptr.symm.trans (same ▸ here))⟩
    · rcases others i same with ⟨empty, -⟩ | ⟨old, flag⟩
      · exact absurd ptr (empty n)
      · exact .inr ⟨old ▸ ptr, flag⟩
  have gone : ∀ n, b.tx.stack n = false → b'.tx.stack n = false := by
    intro n free
    rw [stack, update_apply]
    split
    · rfl
    · exact free
  refine ⟨atNew, fun i outside n ptr => ?_, fun i n ptr => ?_, fun i n ptr => ?_,
    fun i n ptr => ?_, fun i n ptr => ?_, fun n waits => ?_, fun q => ?_⟩
  · rw [span, Set.mem_union, not_or] at outside
    rcases packet i n ptr with ⟨rfl, -⟩ | ⟨old, -⟩
    · exact outside.2 first
    · exact books.outside i outside.1 n old
  · rw [skbs]
    rcases packet i n ptr with ⟨rfl, rfl⟩ | ⟨old, flag⟩
    · rw [flagsNew, m.mine, PortFlags.mac_mark, skb]
      rfl
    · rw [flag]
      exact books.marked i n old
  · rw [skbs]
    rcases packet i n ptr with ⟨rfl, rfl⟩ | ⟨old, -⟩
    · rw [skb]
      exact there
    · exact books.present i n old
  · rw [next]
    rcases packet i n ptr with ⟨rfl, rfl⟩ | ⟨old, -⟩
    · exact ⟨by rw [stack, update_self], below⟩
    · exact (books.taken i n old).imp_left (gone n)
  · rw [skbs]
    rcases packet i n ptr with ⟨rfl, rfl⟩ | ⟨old, -⟩
    · rw [skb]
      exact x.queued_len_pos
    · exact books.long i n old
  · rw [next]
    refine books.known n ?_
    cases free : b.tx.stack n with
    | true => rfl
    | false => exact absurd ((gone n free).symm.trans waits) Bool.false_ne_true
  · have put := tally_inRing_put (q := q) b b' (Nat.mod_lt head soc.txDmaSize_pos)
      (books.outside _ absent) here skbs fun i other => by
        rcases others i other with ⟨empty, empty'⟩ | ⟨same, -⟩
        · rw [packetOf_eq_none empty, packetOf_eq_none empty']
        · exact packetOf_congr (congrArg TxBuf.skb same) fun n _ => by rw [skbs]
    rw [put, told, completed, skb]
    have balance := books.balance q
    by_cases mine : x.queued.queue = q
    · rw [if_pos mine, mine, update_self, Prod.snd_add, balance, Nat.add_assoc]
    · rw [if_neg mine, update_of_ne (Ne.symm mine), add_zero, balance]

end Books

/-- A packet fails at a piece that shares the descriptor of its linear part. -/
def MapLoses (soc : TxSoc) (b : QueueState) (x : QueueCall) : Prop :=
  (x.call.skb.len ≤ 40 → x.call.padto = true) ∧ b.tx.ring.nextFree ≠ b.tx.ring.lastFree ∧
    x.call.mapped 0 ≠ none ∧
      SharedFails soc x.call.mapped 1 (piecesFrom soc.dmaMaxLen 0 x.call.skb.toMap.frags)

instance (soc : TxSoc) (b : QueueState) (x : QueueCall) : Decidable (MapLoses soc b x) :=
  inferInstanceAs (Decidable (_ ∧ _ ∧ _ ∧ _))

def Loses (soc : TxSoc) (b : QueueState) (x : QueueCall) : Prop :=
  x.call.resetting = false ∧ mtkCalTxdReq soc x.call.skb < b.tx.ring.freeCount ∧
    (x.call.skb.gso = true → x.call.cowHead = true) ∧ MapLoses soc b x ∧ b.HasPackets soc

instance (soc : TxSoc) (b : QueueState) (x : QueueCall) : Decidable (Loses soc b x) :=
  inferInstanceAs (Decidable (_ ∧ _ ∧ _ ∧ _ ∧ _))

theorem hasPackets_iff (books : b.Books soc present tail head) :
    b.HasPackets soc ↔ ∃ i m, (b.tx.ring.buf i).skb = .skb m := by
  constructor
  · rintro ⟨i, -, notNull, notDummy⟩
    cases ptr : (b.tx.ring.buf i).skb with
    | null => exact absurd ptr notNull
    | dummy => exact absurd ptr notDummy
    | skb m => exact ⟨i, m, ptr⟩
  · rintro ⟨i, m, ptr⟩
    have inUse : i ∈ slots soc.txDmaSize tail head := by
      by_contra absent
      exact books.outside i absent m ptr
    exact ⟨i, Circular.mem_slots_lt soc.txDmaSize_pos inUse, by simp [ptr], by simp [ptr]⟩

namespace Books

def Fails (soc : TxSoc) (b : QueueState) (x : QueueCall) (part : MarkedRing) : Prop :=
  ∃ buf, part.ring = { b.tx.ring with buf := buf } ∧ part.res.next = b.tx.res.next ∧
    ((MapLoses soc b x → ¬b.HasPackets soc) →
      ∀ i, (∀ m, (buf i).skb ≠ .skb m) ∧ (∀ m, (b.tx.ring.buf i).skb ≠ .skb m) ∨
        buf i = b.tx.ring.buf i ∧ part.flags i = b.flags i) ∧
    (MapLoses soc b x → ∀ i < soc.txDmaSize, (buf i).skb = .null)

theorem undone (books : b.Books soc present tail head) {w' : MarkedWork} {e : Nat}
    (m : Marking soc b.tx.ring x b.tx.res b.flags tail head w last)
    (buf : w'.work.buf = w.work.buf) (res : w'.work.res = w.work.res) (flags : w'.flags = w.flags)
    (low : last ≤ e) (high : e ≤ last + 1) (txd : w'.work.txd = e % soc.txDmaSize)
    (loses : e = head ↔ MapLoses soc b x) :
    Fails soc b x (mapEndMarked soc b.tx.ring x false w').2 := by
  have at_ := books.at_
  have first := m.low
  have room := m.room
  have le := at_.le
  have positive := soc.txDmaSize_pos
  obtain ⟨undone, result⟩ : ∃ undone, unwindMarked soc b.tx.ring (e % soc.txDmaSize)
      soc.txDmaSize (head % soc.txDmaSize) ((w.work.buf, w.work.res), w.flags) = undone := ⟨_, rfl⟩
  have unwound : unwindMarked soc b.tx.ring w'.work.txd b.tx.ring.dmaSize b.tx.ring.nextFree
      ((w'.work.buf, w'.work.res), w'.flags) = undone := by
    rw [buf, res, flags, txd, at_.size, at_.nextFree, result]
  rw [mapEndMarked, if_neg Bool.false_ne_true, unwound]
  have either : ∀ i, undone.1.1 i = w.work.buf i ∨ (undone.1.1 i).skb = .null := by
    subst result
    exact unwindMarked_or
  have next : undone.1.2.next = b.tx.res.next := by
    subst result
    exact unwindMarked_next.trans m.next
  have mine : ∀ i ∈ slots soc.txDmaSize head (last + 1),
      (∀ n, (undone.1.1 i).skb ≠ .skb n) ∧ ∀ n, (b.tx.ring.buf i).skb ≠ .skb n := by
    intro i member
    refine ⟨fun n ptr => ?_, books.outside i ?_⟩
    · rcases either i with same | null
      · exact m.noSkb i member n (same ▸ ptr)
      · exact SkbPtr.noConfusion (null.symm.trans ptr)
    · obtain ⟨p, low', high', rfl⟩ := member
      exact not_mem_slots low' (by omega)
  by_cases whole : e = head
  · have wiped := unwindMarked_spans soc.txDmaSize head (head + soc.txDmaSize)
      ((w.work.buf, w.work.res), w.flags) at_ (by omega) le_rfl
    rw [Nat.add_mod_right, ← whole] at wiped
    rw [← whole] at result
    rw [result] at wiped
    have all : ∀ i < soc.txDmaSize, (undone.1.1 i).skb = .null := by
      intro i lt
      refine wiped.2 le_rfl i ?_
      obtain ⟨p, low', high', rfl⟩ := Circular.exists_place e lt
      exact slot_mem low' high'
    refine ⟨undone.1.1, rfl, next, fun quiet i => ?_, fun _ => all⟩
    have empty : ∀ n, (b.tx.ring.buf i).skb ≠ .skb n := fun n ptr =>
      quiet (loses.mp whole) ((hasPackets_iff books).mpr ⟨i, n, ptr⟩)
    by_cases lt : i < soc.txDmaSize
    · exact .inl ⟨fun n ptr => SkbPtr.noConfusion ((all i lt).symm.trans ptr), empty⟩
    · have outside : ∀ {j e}, i ∉ slots soc.txDmaSize j e := fun member =>
        lt (Circular.mem_slots_lt positive member)
      obtain ⟨sameBuf, sameFlag⟩ := wiped.1 i outside
      obtain ⟨oldBuf, oldFlag⟩ := m.old i outside
      exact .inr ⟨sameBuf.trans oldBuf, sameFlag.trans oldFlag⟩
  · obtain ⟨kept, -⟩ := unwindMarked_spans soc.txDmaSize head e
      ((w.work.buf, w.work.res), w.flags) at_ (by omega) (by omega)
    rw [result] at kept
    refine ⟨undone.1.1, rfl, next, fun _ i => ?_, fun fails => absurd (loses.mpr fails) whole⟩
    by_cases member : i ∈ slots soc.txDmaSize head (last + 1)
    · exact .inl (mine i member)
    · have outside : i ∉ slots soc.txDmaSize head e := by
        rintro ⟨p, low', high', rfl⟩
        exact member (slot_mem low' (by omega))
      obtain ⟨sameBuf, sameFlag⟩ := kept i outside
      obtain ⟨oldBuf, oldFlag⟩ := m.old i member
      exact .inr ⟨sameBuf.trans oldBuf, sameFlag.trans oldFlag⟩

theorem start (books : b.Books soc present tail head) {addr : DmaAddr} {res : DmaRes}
    (apart : b.tx.ring.nextFree ≠ b.tx.ring.lastFree) (next : res.next = b.tx.res.next) :
    Marking soc b.tx.ring x b.tx.res b.flags tail head
      ⟨⟨update b.tx.ring.buf b.tx.ring.nextFree
          (headBuf soc addr x.call.skb.toMap.headlen), res, b.tx.ring.nextFree, 1, 1⟩,
        update b.flags b.tx.ring.nextFree (PortFlags.clear.mark x.dev)⟩ head := by
  have at_ := books.at_
  have room := at_.ne_lastFree at_.le at_.room (at_.nextFree ▸ apart)
  rw [at_.nextFree]
  refine ⟨le_rfl, room, rfl, Nat.add_comm 1 head, fun i absent => ?_, fun i member m => ?_,
    update_self .., next⟩
  · have other : i ≠ head % soc.txDmaSize := by
      rintro rfl
      exact absent (slot_mem le_rfl (Nat.lt_succ_self head))
    exact ⟨update_of_ne other .., update_of_ne other ..⟩
  · rw [slots_head le_rfl, Circular.slots_empty] at member
    obtain rfl : i = head % soc.txDmaSize := by simpa using member
    simp only [update_self, headBuf, setupTxBuf, TxBuf.zero]
    split <;> simp

theorem mtkTxMap (books : b.Books soc present tail head) (held : b.tx.stack x.call.skb.head = true)
    (there : present x.dev = true) (skb : b.skbs x.call.skb.head = x.queued) {ok : Bool}
    {part : MarkedRing} (done : mtkTxMapMarked soc b.tx.ring x b.tx.res b.flags = some (ok, part)) :
    if ok then
      ¬MapLoses soc b x ∧ ∃ head', Books soc present ({ b with
        tx := ⟨part.ring, part.res, update b.tx.stack x.call.skb.head false⟩
        flags := part.flags }.sentQueue x) tail head'
    else Fails soc b x part := by
  have at_ := books.at_
  rw [mtkTxMapMarked] at done
  split at done
  · rename_i fails
    cases done
    have never : ¬MapLoses soc b x := fun loses =>
      Bool.false_ne_true (fails.2.symm.trans (loses.1 fails.1))
    exact ⟨b.tx.ring.buf, rfl, DmaRes.release_next .., fun _ i => .inr ⟨rfl, rfl⟩,
      fun loses => absurd loses never⟩
  rename_i pads
  split at done
  · rename_i full
    cases done
    exact ⟨b.tx.ring.buf, rfl, rfl, fun _ i => .inr ⟨rfl, rfl⟩, fun loses => absurd full loses.2.1⟩
  rename_i apart
  dsimp only at done
  split at done
  · rename_i fails
    cases done
    have absent : head % soc.txDmaSize ∉ slots soc.txDmaSize tail head :=
      not_mem_slots le_rfl at_.room
    refine ⟨_, rfl, rfl, fun _ i => ?_, fun loses => absurd fails loses.2.2.1⟩
    by_cases here : i = b.tx.ring.nextFree
    · refine .inl ⟨fun m => ?_, ?_⟩
      · simp [here, TxBuf.zero]
      · rw [here, at_.nextFree]
        exact books.outside _ absent
    · exact .inr ⟨update_of_ne here .., update_of_ne here ..⟩
  · rename_i addr mapped
    obtain ⟨res', map, rest⟩ := Option.bind_eq_some_iff.mp done
    obtain ⟨⟨ok', w'⟩, pieces, last⟩ := Option.map_eq_some_iff.mp rest
    have next : res'.next = b.tx.res.next := (DmaRes.Shrinks.map map).next
    obtain ⟨w, last', m, ends⟩ := mapPiecesMarked_ends at_ (books.start apart next) pieces
    have fits : x.call.skb.len ≤ 40 → x.call.padto = true := by
      intro short
      by_contra fails
      exact pads ⟨short, by simpa using fails⟩
    have loses : (head = head ∧ SharedFails soc x.call.mapped 1
        (piecesFrom soc.dmaMaxLen 0 x.call.skb.toMap.frags)) ↔ MapLoses soc b x :=
      ⟨fun fails => ⟨fits, apart, by simp [mapped], fails.2⟩, fun loses => ⟨rfl, loses.2.2.2⟩⟩
    cases ok' with
    | true =>
      rw [if_pos rfl] at ends
      obtain ⟨same, never⟩ := ends
      cases last
      refine ⟨fun fails => never (loses.mpr fails), last' + 1, ?_⟩
      obtain rfl : w' = w := same
      exact books.sent held there skb m rfl
    | false =>
      rw [if_neg Bool.false_ne_true] at ends
      obtain ⟨buf, res, flags, e, low, high, txd, iff⟩ := ends
      cases last
      exact books.undone m buf res flags low high txd (iff.trans loses)

end Books

/-- Without what the queues are about, this is `mtk_start_xmit` of the ring. -/
theorem mtkStartXmit_erase (soc : TxSoc) (b : QueueState) (x : QueueCall) :
    (b.mtkStartXmit soc x).map (fun part => (part.1, part.2.tx)) =
      b.tx.mtkStartXmit soc x.call := by
  simp only [mtkStartXmit, TxState.mtkStartXmit]
  split
  · rfl
  split
  · rfl
  split
  · rfl
  rw [← mtkTxMapMarked_erase b.flags, Option.map_map, Option.map_map]
  congr 1
  funext part
  obtain ⟨ok, part⟩ := part
  cases ok <;> rfl

theorem Books.xmit (books : b.Books soc present tail head)
    (held : b.tx.stack x.call.skb.head = true) (there : present x.dev = true) {ending : XmitEnd}
    {b' : QueueState} (done : b.mtkStartXmit soc x = some (ending, b')) :
    (¬Loses soc b x → ∃ head', b'.Books soc present tail head') ∧
      (Loses soc b x → b'.sent = b.sent ∧ b'.completed = b.completed ∧
        ∀ q, b'.inRing soc q = []) := by
  have ready := books.ready (x := x) held
  generalize known : ({ b with
    skbs := update b.skbs x.call.skb.head x.queued } : QueueState) = b₁ at ready
  have tx : b₁.tx = b.tx := by
    subst known
    rfl
  have skb : b₁.skbs x.call.skb.head = x.queued := by
    subst known
    exact update_self ..
  have told : b₁.sent = b.sent ∧ b₁.completed = b.completed := by
    subst known
    exact ⟨rfl, rfl⟩
  have loses : Loses soc b₁ x ↔ Loses soc b x := by
    subst known
    exact Iff.rfl
  rw [mtkStartXmit, known] at done
  rw [← loses, ← told.1, ← told.2]
  split at done
  · rename_i resetting
    cases done
    exact ⟨fun _ => ⟨head, ready.drop⟩, fun lost => by simp [lost.1] at resetting⟩
  split at done
  · rename_i full
    cases done
    exact ⟨fun _ => ⟨head, ready⟩, fun lost => absurd lost.2.1 (by omega)⟩
  rename_i enough
  split at done
  · rename_i fails
    cases done
    exact ⟨fun _ => ⟨head, ready.drop⟩, fun lost => by simp [lost.2.2.1 fails.1] at fails⟩
  rename_i expands
  obtain ⟨⟨ok, part⟩, map, rest⟩ := Option.map_eq_some_iff.mp done
  have mapped := ready.mtkTxMap (tx.symm ▸ held) there skb map
  cases ok with
  | true =>
    obtain ⟨never, head', after⟩ := mapped
    cases rest
    exact ⟨fun _ => ⟨head', after⟩, fun lost => absurd lost.2.2.2.1 never⟩
  | false =>
    obtain ⟨buf, ring, next, keeps, wiped⟩ := mapped
    cases rest
    rw [ring]
    constructor
    · intro safe
      refine ⟨head, (ready.setBuf (keeps fun fails packets => safe ⟨?_, by omega, fun gso => ?_,
        fails, packets⟩) next).drop⟩
      · simpa using ‹¬x.call.resetting = true›
      · by_contra fails
        exact expands ⟨gso, by simpa using fails⟩
    · intro lost
      refine ⟨rfl, rfl, fun q => Circular.contents_eq_nil fun i lt => ?_⟩
      refine packetOf_eq_none fun m ptr => ?_
      exact SkbPtr.noConfusion ((wiped lost.2.2.2.1 i lt).symm.trans ptr)

end QueueState

end MetaFilogic.Eth
