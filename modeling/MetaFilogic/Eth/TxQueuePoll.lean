import MetaFilogic.Eth.TxQueueBooks
import Mathlib.Algebra.Order.BigOperators.Group.List

/-!
# Polls and runs

A poll tells each queue of the packets of it that are released; what a queue has been told through a
run is exact unless a transmit loses packets that are in the ring.
-/

namespace MetaFilogic.Eth

open Circular (slots slots_tail slot_mem not_mem_slots_before contents)

variable {soc : TxSoc} {present : Gmac → Bool} {tail head : Nat} {q : TxQueue}

/-! ## Reports -/

def PollState.pending (state : PollState) (q : TxQueue) : Tally :=
  if state.txq = some q then (state.done, state.bytes) else 0

theorem reported_append (reports reports' : List Report) :
    reported q (reports ++ reports') = reported q reports + reported q reports' := by
  rw [reported, List.filter_append, List.map_append, List.sum_append, reported, reported]

theorem reported_pending (state : PollState) :
    reported q (state.txq.toList.map fun q => ⟨q, state.done, state.bytes⟩) = state.pending q := by
  rw [PollState.pending]
  cases state.txq with
  | none => rfl
  | some q' =>
    by_cases mine : q' = q
    · simp [reported, mine, Report.tally]
    · simp [reported, mine]

theorem mtkPollTxDone_tally {mac : Gmac} (there : present mac = true) (state : PollState)
    (skb : QueuedSkb) :
    reported q (mtkPollTxDone present state mac skb).2 +
        (mtkPollTxDone present state mac skb).1.pending q =
      state.pending q +
        if (⟨mac, skb.queueMapping⟩ : TxQueue) = q then (1, skb.len) else 0 := by
  rw [mtkPollTxDone, if_neg (by simp [there])]
  by_cases same : state.txq = some ⟨mac, skb.queueMapping⟩
  · rw [if_pos same]
    by_cases mine : (⟨mac, skb.queueMapping⟩ : TxQueue) = q
    · simp only [PollState.pending, same, mine, if_true, reported, List.filter_nil, List.map_nil,
        List.sum_nil, zero_add, Prod.mk_add_mk]
    · simp only [PollState.pending, same, Option.some_inj, mine, if_false, reported,
        List.filter_nil, List.map_nil, List.sum_nil]
  · rw [if_neg same]
    have first := reported_pending (q := q) state
    dsimp only at first ⊢
    rw [first]
    congr 1
    simp only [PollState.pending, Option.some_inj]

namespace QueueState

variable {b : QueueState} {w : PollWork} {slot next : Nat → Nat} {done : TxDone}

/-! ## One poll -/

theorem pollTx_erase (present : Gmac → Bool) (b : QueueState) (slot next : Nat → Nat)
    (left budget cpu : Nat) (w : PollWork) :
    ((b.pollTx soc present slot next done left budget cpu w).1,
      (b.pollTx soc present slot next done left budget cpu w).2.tx) =
      TxState.pollTx soc slot next done left budget cpu w.tx := by
  induction left generalizing budget cpu w with
  | zero => rfl
  | succ left ih =>
    rw [pollTx, TxState.pollTx]
    split
    · rfl
    cases (w.tx.ring.buf (slot cpu)).skb with
    | null => rfl
    | dummy => exact ih ..
    | skb m => exact ih ..

theorem mtkPollTx_erase (budget : Nat) :
    (b.mtkPollTx soc present budget done).1.tx = b.tx.mtkPollTx soc budget done := by
  rw [mtkPollTx, TxState.mtkPollTx]
  cases soc.qdma with
  | true =>
    simp only [if_true, mtkPollTxQdma, TxState.mtkPollTxQdma]
    rw [← pollTx_erase present b _ _ _ _ _ ⟨b.tx, b.flags, .empty, []⟩]
  | false =>
    simp only [Bool.false_eq_true, if_false, mtkPollTxPdma, TxState.mtkPollTxPdma]
    rw [← pollTx_erase present b _ _ _ _ _ ⟨b.tx, b.flags, .empty, []⟩]

/-- The packets of a queue are in the ring, reported or about to be. -/
structure Polling (soc : TxSoc) (b : QueueState) (w : PollWork) (tail head : Nat) : Prop where
  at_ : w.tx.ring.At soc tail head
  outside : ∀ i ∉ slots soc.txDmaSize tail head, ∀ m, (w.tx.ring.buf i).skb ≠ .skb m
  kept : ∀ i, w.tx.ring.buf i = b.tx.ring.buf i ∧ w.flags i = b.flags i ∨
    (w.tx.ring.buf i).skb = .null
  stack : w.tx.stack = b.tx.stack
  next : w.tx.res.next = b.tx.res.next
  sums : ∀ q, reported q w.reports + w.state.pending q +
    b.tally (inRing soc { b with tx := w.tx } q) = b.tally (b.inRing soc q)

theorem giveBack_at {s : TxState} (at_ : s.ring.At soc tail head) (lt : tail < head) :
    (s.giveBack soc (tail % soc.txDmaSize)).ring.At soc (tail + 1) head := by
  have room := at_.room
  have count := at_.count
  have positive := soc.txDmaSize_pos
  refine ⟨at_.size, lt, by omega, at_.nextFree, ?_, ?_⟩
  · rw [show tail + 1 + (soc.txDmaSize - 1) = tail + soc.txDmaSize by omega, Nat.add_mod_right]
    rfl
  · simp only [TxState.giveBack]
    omega

namespace Polling

theorem giveBack_skb {s : TxState} (i : Nat) : ((s.giveBack soc i).ring.buf i).skb = .null :=
  unmapSlot_skb

theorem giveBack_of_ne {s : TxState} {i j : Nat} (other : j ≠ i) :
    (s.giveBack soc i).ring.buf j = s.ring.buf j :=
  unmapSlot_of_ne other

theorem advance (p : Polling soc b w tail head) (lt : tail < head) {w' : PollWork}
    (tx : w'.tx = w.tx.giveBack soc (tail % soc.txDmaSize))
    (flags : w'.flags = Function.update w.flags (tail % soc.txDmaSize) .clear)
    (sums : ∀ q, reported q w'.reports + w'.state.pending q +
      b.tally (inRing soc { b with tx := w'.tx } q) = b.tally (b.inRing soc q)) :
    Polling soc b w' (tail + 1) head := by
  refine ⟨tx ▸ giveBack_at p.at_ lt, fun i absent m ptr => ?_, fun i => ?_, tx ▸ p.stack, ?_, sums⟩
  · rw [tx] at ptr
    by_cases same : i = tail % soc.txDmaSize
    · rw [same, giveBack_skb] at ptr
      exact SkbPtr.noConfusion ptr
    · rw [giveBack_of_ne same] at ptr
      refine p.outside i ?_ m ptr
      rw [slots_tail lt]
      exact not_or.mpr ⟨same, absent⟩
  · rw [tx, flags]
    by_cases same : i = tail % soc.txDmaSize
    · exact .inr (same ▸ giveBack_skb _)
    · rw [giveBack_of_ne same, Function.update_of_ne same]
      exact p.kept i
  · rw [tx]
    exact (unmapSlot_next ..).trans p.next

theorem packetOf_giveBack {i j : Nat} (other : j ≠ i) :
    packetOf { b with tx := w.tx } q j = packetOf { b with tx := w.tx.giveBack soc i } q j :=
  packetOf_congr (congrArg TxBuf.skb (giveBack_of_ne other).symm) fun _ _ => rfl

theorem giveBack (p : Polling soc b w tail head) (lt : tail < head)
    (empty : ∀ m, (w.tx.ring.buf (tail % soc.txDmaSize)).skb ≠ .skb m) :
    Polling soc b (QueueState.giveBack soc (tail % soc.txDmaSize) w) (tail + 1) head := by
  refine p.advance lt rfl rfl fun q => ?_
  rw [← p.sums q, inRing, inRing, QueueState.giveBack]
  congr 2
  refine Circular.contents_congr fun i _ => ?_
  by_cases same : i = tail % soc.txDmaSize
  · subst same
    have gone : ∀ m, ((w.tx.giveBack soc (tail % soc.txDmaSize)).ring.buf
        (tail % soc.txDmaSize)).skb ≠ .skb m := fun m ptr =>
      SkbPtr.noConfusion ((giveBack_skb _).symm.trans ptr)
    exact (packetOf_eq_none gone).trans (packetOf_eq_none empty).symm
  · exact (packetOf_giveBack same).symm

theorem release {tail₀ : Nat} (books : b.Books soc present tail₀ head)
    (p : Polling soc b w tail head) (lt : tail < head) {m : Nat}
    (ptr : (w.tx.ring.buf (tail % soc.txDmaSize)).skb = .skb m) :
    Polling soc b (b.release soc present (tail % soc.txDmaSize) m w) (tail + 1) head := by
  obtain ⟨sameBuf, sameFlags⟩ := (p.kept (tail % soc.txDmaSize)).resolve_right (by simp [ptr])
  have old : (b.tx.ring.buf (tail % soc.txDmaSize)).skb = .skb m := sameBuf ▸ ptr
  have mac : (w.flags (tail % soc.txDmaSize)).mac = (b.skbs m).dev :=
    (congrArg PortFlags.mac sameFlags).trans (books.marked _ m old)
  have there : present (w.flags (tail % soc.txDmaSize)).mac = true :=
    (congrArg present mac).trans (books.present _ m old)
  refine p.advance lt rfl rfl fun q => ?_
  have told := mtkPollTxDone_tally (q := q) there w.state (b.skbs m)
  have gone : ∀ n, ((w.tx.giveBack soc (tail % soc.txDmaSize)).ring.buf
      (tail % soc.txDmaSize)).skb ≠ .skb n := fun n other =>
    SkbPtr.noConfusion ((giveBack_skb _).symm.trans other)
  have fewer : b.tally (inRing soc { b with tx := w.tx } q) =
      b.tally (inRing soc { b with tx := w.tx.giveBack soc (tail % soc.txDmaSize) } q) +
        if (b.skbs m).queue = q then (1, (b.skbs m).len) else 0 :=
    tally_inRing_put { b with tx := w.tx.giveBack soc _ }
    { b with tx := w.tx } (Nat.mod_lt tail soc.txDmaSize_pos) gone ptr rfl
    fun i other => packetOf_giveBack other
  have queue : (⟨(w.flags (tail % soc.txDmaSize)).mac, (b.skbs m).queueMapping⟩ : TxQueue) =
      (b.skbs m).queue := by
    rw [mac]
    rfl
  rw [queue] at told
  rw [← p.sums q, fewer]
  simp only [QueueState.release, QueueState.giveBack, reported_append]
  generalize inRing soc { b with tx := w.tx.giveBack soc (tail % soc.txDmaSize) } q = packets
  calc reported q w.reports + reported q _ + PollState.pending _ q + b.tally packets
      = reported q w.reports + (reported q _ + PollState.pending _ q) + b.tally packets := by
        rw [add_assoc (reported q w.reports)]
    _ = reported q w.reports + w.state.pending q + (b.tally packets + _) := by
        rw [told, add_comm (b.tally packets), ← add_assoc, ← add_assoc]

/-- The loop gives descriptors back in ring order, up to the one the hardware has come to. -/
theorem pollTx {tail₀ target budget left : Nat} (books : b.Books soc present tail₀ head)
    (p : Polling soc b w tail head) (slot next : Nat → Nat) {cpuAt : Nat → Nat}
    (slotAt : ∀ p, slot (cpuAt p) = p % soc.txDmaSize)
    (nextAt : ∀ p, next (cpuAt p) = cpuAt (p + 1)) (dma : done.dma = cpuAt target)
    (low : tail ≤ target) (high : target ≤ head) :
    ∃ tail', Polling soc b (b.pollTx soc present slot next done left budget (cpuAt tail) w).2
        tail' head ∧
      (b.pollTx soc present slot next done left budget (cpuAt tail) w).1 = cpuAt tail' := by
  induction left generalizing w tail budget with
  | zero => exact ⟨tail, p, rfl⟩
  | succ left ih =>
    rw [QueueState.pollTx]
    split
    · exact ⟨tail, p, rfl⟩
    · rename_i more
      have lt : tail < target := by
        refine Nat.lt_of_le_of_ne low ?_
        rintro rfl
        exact more (.inl dma.symm)
      rw [slotAt, nextAt]
      split
      · exact ⟨tail, p, rfl⟩
      · rename_i ptr
        exact ih (p.giveBack (by omega) (by simp [ptr])) lt
      · rename_i m ptr
        exact ih (p.release books (by omega) ptr) lt

end Polling

theorem DoneWithin.place {s : TxState} (within : DoneWithin soc s done)
    (at_ : s.ring.At soc tail head) {k : Nat}
    (ptr : (if soc.qdma then s.ring.lastFreePtr else s.ring.cpuIdx) = (tail + k) % soc.txDmaSize) :
    ∃ target, tail ≤ target ∧ target ≤ head ∧ done.dma = (target + k) % soc.txDmaSize := by
  obtain ⟨lt, few⟩ := within
  have count := at_.count
  have positive := soc.txDmaSize_pos
  rw [ptr] at few
  have below : (tail + k) % soc.txDmaSize < soc.txDmaSize := Nat.mod_lt _ positive
  refine ⟨tail + (done.dma + soc.txDmaSize - (tail + k) % soc.txDmaSize) % soc.txDmaSize,
    by omega, by omega, ?_⟩
  rw [Nat.add_right_comm, Nat.add_mod, Nat.mod_mod, Nat.add_mod_mod,
    show (tail + k) % soc.txDmaSize + (done.dma + soc.txDmaSize - (tail + k) % soc.txDmaSize) =
      done.dma + soc.txDmaSize by omega, Nat.add_mod_right, Nat.mod_eq_of_lt lt]

theorem Books.polling (books : b.Books soc present tail head) :
    Polling soc b ⟨b.tx, b.flags, .empty, []⟩ tail head :=
  ⟨books.at_, books.outside, fun _ => .inl ⟨rfl, rfl⟩, rfl, rfl, fun _ => by
    show 0 + 0 + _ = _
    rw [add_zero, zero_add]⟩

structure Polled (soc : TxSoc) (present : Gmac → Bool) (b b' : QueueState)
    (reports : List Report) : Prop where
  owned : ∃ tail head, b'.Books soc present tail head ∧ TxState.Ptrs soc b'.tx.ring tail
  exact_ : ∀ q, reported q reports = b.tally (b.released soc b' q)

theorem Polling.polled {tail₀ : Nat} (books : b.Books soc present tail₀ head)
    (p : Polling soc b w tail head) (ptrs : TxState.Ptrs soc w.tx.ring tail) :
    Polled soc present b
      { b with
        tx := w.tx
        flags := w.flags
        completed := fun q => b.completed q + (reported q (PollWork.flush w)).2 }
      (PollWork.flush w) := by
  have old : ∀ i m, (w.tx.ring.buf i).skb = .skb m →
      (b.tx.ring.buf i).skb = .skb m ∧ w.flags i = b.flags i := by
    intro i m ptr
    rcases p.kept i with ⟨same, flag⟩ | null
    · exact ⟨same ▸ ptr, flag⟩
    · exact SkbPtr.noConfusion (null.symm.trans ptr)
  have flushed : ∀ q, reported q (PollWork.flush w) +
      b.tally (inRing soc { b with tx := w.tx } q) = b.tally (b.inRing soc q) := by
    intro q
    rw [PollWork.flush, reported_append, reported_pending]
    exact p.sums q
  refine ⟨⟨tail, head, ⟨p.at_, p.outside, fun i m ptr => ?_, fun i m ptr => ?_, fun i m ptr => ?_,
    fun i m ptr => ?_, fun m waits => ?_, fun q => ?_⟩, ptrs⟩, fun q => ?_⟩
  · show (w.flags i).mac = (b.skbs m).dev
    rw [(old i m ptr).2]
    exact books.marked i m (old i m ptr).1
  · exact books.present i m (old i m ptr).1
  · show w.tx.stack m = false ∧ m < w.tx.res.next
    rw [p.stack, p.next]
    exact books.taken i m (old i m ptr).1
  · exact books.long i m (old i m ptr).1
  · show m < w.tx.res.next
    rw [p.next]
    exact books.known m (p.stack ▸ waits)
  · have balance := books.balance q
    rw [← flushed q, Prod.snd_add, ← Nat.add_assoc] at balance
    exact balance
  · have split : b.tally (b.released soc { b with tx := w.tx } q) +
        b.tally (inRing soc { b with tx := w.tx } q) = b.tally (b.inRing soc q) := by
      rw [tally_eq_sum, tally_eq_sum, tally_eq_sum]
      refine Circular.sum_contents_split _ fun i _ => ?_
      dsimp only
      split
      · rename_i null
        exact .inl ⟨rfl, packetOf_eq_none fun m ptr => SkbPtr.noConfusion (null.symm.trans ptr)⟩
      · rename_i still
        obtain ⟨same, -⟩ := (p.kept i).resolve_right still
        exact .inr ⟨rfl, packetOf_congr (congrArg TxBuf.skb same) fun _ _ => rfl⟩
    exact add_right_cancel ((flushed q).trans split.symm)

theorem Books.poll (books : b.Books soc present tail head) (ptrs : TxState.Ptrs soc b.tx.ring tail)
    (budget : Nat) (within : DoneWithin soc b.tx done) :
    Polled soc present b (b.mtkPollTx soc present budget done).1
      (b.mtkPollTx soc present budget done).2.1 := by
  have at_ := books.at_
  have positive := soc.txDmaSize_pos
  rw [mtkPollTx]
  cases kind : soc.qdma with
  | true =>
    have slotAt : ∀ p, b.tx.ring.next ((p + (soc.txDmaSize - 1)) % soc.txDmaSize) =
        p % soc.txDmaSize := by
      intro p
      rw [at_.next, show p + (soc.txDmaSize - 1) + 1 = p + soc.txDmaSize by omega,
        Nat.add_mod_right]
    have nextAt : ∀ p, b.tx.ring.next ((p + (soc.txDmaSize - 1)) % soc.txDmaSize) =
        (p + 1 + (soc.txDmaSize - 1)) % soc.txDmaSize := by
      intro p
      rw [at_.next, show p + (soc.txDmaSize - 1) + 1 = p + 1 + (soc.txDmaSize - 1) by omega]
    obtain ⟨target, low, high, dma⟩ := within.place at_ (k := soc.txDmaSize - 1)
      (by rw [if_pos kind, ptrs.lastFreePtr kind])
    obtain ⟨tail', p, cpu⟩ := books.polling.pollTx books b.tx.ring.next b.tx.ring.next slotAt nextAt
      dma low high
    rw [← ptrs.lastFreePtr kind] at p cpu
    have at' := p.at_
    exact Polling.polled books ⟨⟨at'.size, at'.le, at'.room, at'.nextFree, at'.lastFree,
      at'.count⟩, p.outside, p.kept, p.stack, p.next, p.sums⟩
      ⟨fun _ => cpu, fun pdma => by simp [kind] at pdma⟩
  | false =>
    obtain ⟨k, size⟩ := soc.txDmaSize_pow
    have nextAt : ∀ p, (fun cpu => nextDespIdx cpu b.tx.ring.dmaSize) (p % soc.txDmaSize) =
        (p + 1) % soc.txDmaSize := by
      intro p
      simp only [at_.size, size, nextDespIdx_eq, Nat.mod_add_mod]
    have slotAt : ∀ p, id (p % soc.txDmaSize) = p % soc.txDmaSize := fun _ => rfl
    obtain ⟨target, low, high, dma⟩ := within.place at_ (k := 0)
      (by rw [if_neg (by simp [kind]), ptrs.cpuIdx kind, Nat.add_zero])
    rw [Nat.add_zero] at dma
    obtain ⟨tail', p, cpu⟩ := books.polling.pollTx books id
      (fun cpu => nextDespIdx cpu b.tx.ring.dmaSize) slotAt nextAt dma low high
    rw [← ptrs.cpuIdx kind] at p cpu
    have at' := p.at_
    exact Polling.polled books ⟨⟨at'.size, at'.le, at'.room, at'.nextFree, at'.lastFree,
      at'.count⟩, p.outside, p.kept, p.stack, p.next, p.sums⟩
      ⟨fun qdma => by simp [kind] at qdma, fun _ => cpu⟩

/-! ## Starting again -/

theorem cleanBufs_next (soc : TxSoc) (ring : TxRing) (res : DmaRes) :
    (cleanBufs soc ring res).2.next = res.next := by
  have slots : ∀ n work, (unmapSlots soc n work).2.next = work.2.next := by
    intro n work
    induction n with
    | zero => rfl
    | succ i ih => exact (unmapSlot_next ..).trans ih
  rw [cleanBufs]
  cases ring.array with
  | none => rfl
  | some memory => exact (DmaRes.release_next ..).trans (slots ..)

theorem mtkTxClean_next (ring : TxRing) (res : DmaRes) :
    (mtkTxClean soc ring res).2.next = res.next := by
  have cleaned := cleanBufs_next soc ring res
  rw [mtkTxClean]
  generalize Eth.cleanBufs soc ring res = part at cleaned
  obtain ⟨ring, res'⟩ := part
  replace cleaned : res'.next = res.next := cleaned
  have freed (region : DmaRegion) : (res'.freeRegion region).next = res.next := by
    cases region with
    | coherent memory => exact (DmaRes.release_next ..).trans cleaned
    | sram => exact cleaned
  cases ring.dmaPdma <;> cases ring.dma <;> dsimp only <;> try split
  all_goals simp only [DmaRes.release_next, freed, cleaned]

theorem allocTxRegion_buf (soc : TxSoc) (alloc : TxAllocCall) (ring : TxRing) (res : DmaRes) :
    (allocTxRegion soc alloc ring res).2.1.buf = ring.buf ∧
      res.next ≤ (allocTxRegion soc alloc ring res).2.2.next := by
  rw [allocTxRegion]
  split
  · exact ⟨rfl, le_rfl⟩
  split
  · exact ⟨rfl, Nat.le_succ _⟩
  · exact ⟨rfl, le_rfl⟩

theorem allocPdmaRegion_buf (soc : TxSoc) (alloc : TxAllocCall) (ring : TxRing) (res : DmaRes) :
    (allocPdmaRegion soc alloc ring res).2.1.buf = ring.buf ∧
      res.next ≤ (allocPdmaRegion soc alloc ring res).2.2.next := by
  rw [allocPdmaRegion]
  split
  · exact ⟨rfl, le_rfl⟩
  split
  · exact ⟨rfl, Nat.le_succ _⟩
  · exact ⟨rfl, le_rfl⟩

theorem mtkTxAlloc_setUp (alloc : TxAllocCall) (ring : TxRing) (res : DmaRes)
    (done : (mtkTxAlloc soc alloc ring res).1 = true) :
    (∃ blank : TxRing, (∀ i, blank.buf i = .zero) ∧
      (mtkTxAlloc soc alloc ring res).2.1 = blank.setUp soc) ∧
      res.next ≤ (mtkTxAlloc soc alloc ring res).2.2.next := by
  rw [mtkTxAlloc] at done ⊢
  split at done
  · rename_i array
    simp only [array, if_true] at done ⊢
    split at done
    · rename_i first
      simp only [first, if_true] at done ⊢
      split at done
      · rename_i second
        simp only [second, if_true]
        obtain ⟨buf, next⟩ := allocTxRegion_buf soc alloc
          { ring with array := some res.next, buf := fun _ => .zero } res.alloc
        obtain ⟨buf', next'⟩ := allocPdmaRegion_buf soc alloc _ _
        refine ⟨⟨_, fun i => ?_, rfl⟩, ((Nat.le_succ _).trans next).trans next'⟩
        rw [buf', buf]
      · rename_i fails
        exact absurd done fails
    · rename_i fails
      exact absurd done fails
  · exact absurd done Bool.false_ne_true

theorem books_setUp {blank : TxRing} (empty : ∀ i, blank.buf i = .zero)
    (ring : b.tx.ring = blank.setUp soc) (known : ∀ m, b.tx.stack m = true → m < b.tx.res.next)
    (sent : ∀ q, b.sent q = 0) (completed : ∀ q, b.completed q = 0) :
    b.Books soc present 0 0 ∧ TxState.Ptrs soc b.tx.ring 0 := by
  have null : ∀ i, (b.tx.ring.buf i).skb = .null := by
    intro i
    rw [ring]
    exact congrArg TxBuf.skb (empty i)
  have none : ∀ i m, (b.tx.ring.buf i).skb ≠ .skb m := fun i m ptr =>
    SkbPtr.noConfusion ((null i).symm.trans ptr)
  refine ⟨⟨ring ▸ TxState.at_setUp, fun i _ => none i, fun i m ptr => absurd ptr (none i m),
    fun i m ptr => absurd ptr (none i m), fun i m ptr => absurd ptr (none i m),
    fun i m ptr => absurd ptr (none i m), known, fun q => ?_⟩, ring ▸ TxState.ptrs_setUp⟩
  rw [sent, completed, inRing, Circular.contents_eq_nil fun i _ => packetOf_eq_none (none i)]
  rfl

/-! ## Runs -/

/-- What the queues have been told is exact: the bytes on their way are those in the ring, and any
poll tells each queue of the packets of it that it releases. -/
structure Accounted (soc : TxSoc) (present : Gmac → Bool) (b : QueueState) : Prop where
  balance : ∀ q, b.sent q = b.completed q + (b.tally (b.inRing soc q)).2
  polls : ∀ budget done, DoneWithin soc b.tx done → ∀ q,
    reported q (b.mtkPollTx soc present budget done).2.1 =
      b.tally (b.released soc (b.mtkPollTx soc present budget done).1 q)

def Kept (soc : TxSoc) (b : QueueState) : Event → Prop
  | .skb => True
  | .xmit x => ¬Loses soc b x
  | .poll _ _ => True
  | .restart _ => True

instance (soc : TxSoc) (b : QueueState) : ∀ event, Decidable (Kept soc b event)
  | .skb => isTrue trivial
  | .xmit x => inferInstanceAs (Decidable (¬Loses soc b x))
  | .poll _ _ => isTrue trivial
  | .restart _ => isTrue trivial

def Taken (soc : TxSoc) (present : Gmac → Bool) (b : QueueState) (event : Event) : Prop :=
  (b.step soc present event).isSome = true

instance (soc : TxSoc) (present : Gmac → Bool) (b : QueueState) (event : Event) :
    Decidable (Taken soc present b event) :=
  inferInstanceAs (Decidable (_ = true))

def InOrder (soc : TxSoc) (present : Gmac → Bool) (b : QueueState) : Prop :=
  ∃ tail head, b.Books soc present tail head ∧ TxState.Ptrs soc b.tx.ring tail

theorem InOrder.accounted (order : b.InOrder soc present) : b.Accounted soc present := by
  obtain ⟨tail, head, books, ptrs⟩ := order
  exact ⟨books.balance, fun budget done within => (books.poll ptrs budget within).exact_⟩

theorem InOrder.step (order : b.InOrder soc present) {event : Event} {b' : QueueState}
    (kept : Kept soc b event) (stepped : b.step soc present event = some b') :
    b'.InOrder soc present := by
  obtain ⟨tail, head, books, ptrs⟩ := order
  cases event with
  | skb =>
    obtain rfl := Option.some_inj.mp stepped
    refine ⟨tail, head, ⟨books.at_, books.outside, books.marked, books.present, fun i m ptr => ?_,
      books.long, fun m waits => ?_, books.balance⟩, ptrs⟩
    · obtain ⟨free, below⟩ := books.taken i m ptr
      exact ⟨(Function.update_of_ne (by omega) ..).trans free, Nat.lt_succ_of_lt below⟩
    · by_cases same : m = b.tx.res.next
      · exact Nat.lt_succ_of_le (Nat.le_of_eq same)
      · exact Nat.lt_succ_of_lt (books.known m ((Function.update_of_ne same ..).symm.trans waits))
  | xmit x =>
    obtain ⟨⟨held, there⟩, called⟩ := Option.ite_none_right_eq_some.mp stepped
    obtain ⟨⟨ending, b''⟩, done, rfl⟩ := Option.map_eq_some_iff.mp called
    obtain ⟨head', after⟩ := (books.xmit held there done).1 kept
    have erased := mtkStartXmit_erase soc b x
    rw [done, Option.map_some] at erased
    have same := TxState.xmit_ptrs erased.symm
    exact ⟨tail, head', after, fun qdma => same.1.trans (ptrs.lastFreePtr qdma),
      fun pdma => same.2.trans (ptrs.cpuIdx pdma)⟩
  | poll budget done =>
    obtain ⟨within, polled⟩ := Option.ite_none_right_eq_some.mp stepped
    obtain rfl := Option.some_inj.mp polled
    exact (books.poll ptrs budget within).owned
  | restart alloc =>
    rw [QueueState.step, restart] at stepped
    obtain ⟨done, same⟩ := Option.ite_none_right_eq_some.mp stepped
    obtain rfl := Option.some_inj.mp same
    obtain ⟨⟨blank, empty, ring⟩, more⟩ := mtkTxAlloc_setUp alloc _ _ done
    rw [mtkTxClean_next] at more
    exact ⟨0, 0, books_setUp empty ring
      (fun m waits => Nat.lt_of_lt_of_le (books.known m waits) more) (fun _ => rfl) fun _ => rfl⟩

/-- A transmit that loses packets leaves a queue with bytes on their way that are not in the
ring. -/
theorem InOrder.kept (order : b.InOrder soc present) {event : Event} {b' : QueueState}
    (stepped : b.step soc present event = some b') (accounted : b'.Accounted soc present) :
    Kept soc b event := by
  cases event with
  | skb => trivial
  | poll budget done => trivial
  | restart alloc => trivial
  | xmit x =>
    intro loses
    obtain ⟨tail, head, books, -⟩ := order
    obtain ⟨⟨held, there⟩, called⟩ := Option.ite_none_right_eq_some.mp stepped
    obtain ⟨⟨ending, b''⟩, done, rfl⟩ := Option.map_eq_some_iff.mp called
    obtain ⟨sent, completed, empty⟩ := (books.xmit held there done).2 loses
    obtain ⟨i, m, ptr⟩ := (hasPackets_iff books).mp loses.2.2.2.2
    have inUse : i ∈ slots soc.txDmaSize tail head := by
      by_contra absent
      exact books.outside i absent m ptr
    have member : m ∈ b.inRing soc (b.skbs m).queue := Circular.mem_contents.mpr
      ⟨i, Circular.mem_slots_lt soc.txDmaSize_pos inUse, packetOf_eq_some.mpr ⟨ptr, rfl⟩⟩
    have bytes : (b.skbs m).len ≤ (b.tally (b.inRing soc (b.skbs m).queue)).2 :=
      List.single_le_sum (fun _ _ => Nat.zero_le _) _ (List.mem_map_of_mem member)
    have before := books.balance (b.skbs m).queue
    have after := accounted.balance (b.skbs m).queue
    rw [empty, sent, completed] at after
    have none : (QueueState.tally b'' []).2 = 0 := rfl
    have positive := books.long i m ptr
    dsimp only at after
    omega

/-- Through a run the queues are told of every packet once, exactly when no transmit fails at a
piece that shares the descriptor of the linear part while other packets are in the ring. -/
theorem accounted_iff {alloc : TxAllocCall} {ring : TxRing} {events : List Event}
    (done : (mtkTxAlloc soc alloc ring .empty).1 = true)
    (taken : AllAllowed (Taken soc present) (step soc present) events (start soc alloc ring)) :
    Throughout (Accounted soc present) (step soc present) events (start soc alloc ring) ↔
      AllAllowed (Kept soc) (step soc present) events (start soc alloc ring) := by
  refine throughout_iff_of_invariant (InOrder soc present) (fun _ => InOrder.accounted)
    (fun _ _ taken => Option.isSome_iff_exists.mp taken) (fun _ _ _ order kept => order.step kept)
    (fun _ _ _ order stepped => order.kept stepped) ?_ taken
  obtain ⟨⟨blank, empty, ring⟩, -⟩ := mtkTxAlloc_setUp alloc ring .empty done
  exact ⟨0, 0, books_setUp empty ring (fun m waits => nomatch waits) (fun _ => rfl) fun _ => rfl⟩

def linear (head : Nat) (dev : Gmac) (queueMapping : Nat) : QueueCall :=
  ⟨⟨⟨head, 100, [], false⟩, false, true, true, fun k => some (BitVec.ofNat 64 (0x1000 * head + k))⟩,
    dev, queueMapping⟩

def fragmentFails (head : Nat) : QueueCall :=
  ⟨⟨⟨head, 100, [200], false⟩, false, true, true, fun k => if k = 0 then some 0x8000 else none⟩,
    .gmac1, 0⟩

def doneTo (dma : Nat) : TxDone := ⟨dma, fun _ => true⟩

def twoQueues : List Event :=
  [.skb, .skb, .skb, .xmit (linear 3 .gmac1 0), .xmit (linear 4 .gmac2 1),
    .xmit (linear 5 .gmac1 0), .poll 2 (doneTo 3), .poll 2 (doneTo 3), .restart ⟨true, true, true⟩]

theorem accounted_twoQueues : Throughout (Accounted TxState.pdma8 fun _ => true)
    (step TxState.pdma8 fun _ => true) twoQueues
    (start TxState.pdma8 ⟨true, true, true⟩ .unused) :=
  (accounted_iff (by decide) (by decide +kernel)).mpr (by decide +kernel)

/-- A packet fails while another is in the ring: the bytes of that one are never reported. -/
theorem packet_lost : ∃ events, AllAllowed (Taken TxState.pdma8 fun _ => true)
      (step TxState.pdma8 fun _ => true) events (start TxState.pdma8 ⟨true, true, true⟩ .unused) ∧
    ¬Throughout (Accounted TxState.pdma8 fun _ => true) (step TxState.pdma8 fun _ => true) events
      (start TxState.pdma8 ⟨true, true, true⟩ .unused) := by
  let events : List Event := [.skb, .skb, .xmit (linear 3 .gmac1 0), .xmit (fragmentFails 4)]
  refine ⟨events, by decide +kernel, fun throughout => ?_⟩
  have lost : (runSteps (step TxState.pdma8 fun _ => true) events
      (start TxState.pdma8 ⟨true, true, true⟩ .unused)).map
        (fun b => (b.sent ⟨.gmac1, 0⟩, b.completed ⟨.gmac1, 0⟩,
          b.inRing TxState.pdma8 ⟨.gmac1, 0⟩)) = some (100, 0, []) := by decide +kernel
  obtain ⟨b, run, last⟩ := Option.map_eq_some_iff.mp lost
  have balance := (throughout.last run).balance ⟨.gmac1, 0⟩
  obtain ⟨sent, rest⟩ := Prod.mk.inj last
  obtain ⟨completed, inRing⟩ := Prod.mk.inj rest
  rw [sent, completed, inRing] at balance
  have none : (QueueState.tally b []).2 = 0 := rfl
  rw [none] at balance
  exact absurd balance (by decide)

/-- Between two set-ups of the ring, a run is one of ring and memory alone. -/
theorem reaches_erase {b' : QueueState} (reaches : Reaches
    (fun _ event => ∀ alloc, event ≠ .restart alloc) (step soc present) b b') :
    Reaches anyStep (TxState.step soc) b.tx b'.tx := by
  refine reaches.lift tx fun b b' ⟨event, goesOn, stepped⟩ => ?_
  cases event with
  | skb =>
    obtain rfl := Option.some_inj.mp stepped
    exact ⟨.skb, trivial, rfl⟩
  | xmit x =>
    obtain ⟨⟨held, -⟩, called⟩ := Option.ite_none_right_eq_some.mp stepped
    obtain ⟨part, done, rfl⟩ := Option.map_eq_some_iff.mp called
    refine ⟨.xmit x.call, trivial, ?_⟩
    rw [TxState.step, if_pos held, ← mtkStartXmit_erase, done]
    rfl
  | poll budget done =>
    obtain rfl := Option.some_inj.mp (Option.ite_none_right_eq_some.mp stepped).2
    exact ⟨.poll budget done, trivial, congrArg some (mtkPollTx_erase budget).symm⟩
  | restart alloc => exact absurd rfl (goesOn alloc)

theorem reaches_erase_linear : ∃ b : QueueState,
    b.sent ⟨.gmac1, 0⟩ = 100 ∧ Reaches anyStep (TxState.step TxState.pdma8)
      (TxState.start TxState.pdma8 ⟨true, true, true⟩ .unused) b.tx := by
  have sent : (runSteps (step TxState.pdma8 fun _ => true) [.skb, .xmit (linear 3 .gmac1 0)]
      (start TxState.pdma8 ⟨true, true, true⟩ .unused)).map (fun b => b.sent ⟨.gmac1, 0⟩) =
      some 100 := by decide +kernel
  obtain ⟨b, run, bytes⟩ := Option.map_eq_some_iff.mp sent
  exact ⟨b, bytes, reaches_erase (reaches_of_runSteps (by simp [AllAllowed]) run)⟩

end QueueState

end MetaFilogic.Eth
