import MetaFilogic.Eth.TxDescMap

/-!
# Whole packets

What `mtk_tx_map` hands to the hardware for a packet, when it succeeds: the pieces in order with
the last one marked, and the controls where the format has them.
-/

namespace MetaFilogic.Eth

/-! ## Packets -/

def pieceSizes (soc : TxDescSoc) (skb : TxSkb) : List Nat :=
  skb.headlen :: (cutsFrom soc.dmaMaxLen 0 skb.frags).map TxPiece.size

def handed (ring ring' : TxRing) (desc : Nat → Txd) : List Txd :=
  (Circular.walk ring.dmaSize ring'.nextFree ring.dmaSize ring.nextFree).map desc

/-- Bytes are in the last fragment of a QDMA packet, or in none; the pieces of a PDMA packet keep
step with its fragments. -/
def TxDescSoc.Regular (soc : TxDescSoc) (skb : TxSkb) : Prop :=
  if soc.qdma then skb.frags.getLast? ≠ some 0 ∨ skb.frags.sum = 0
  else InStep 0 (cutsFrom soc.dmaMaxLen 0 skb.frags)

/-- The segments are the pieces of the packet in order, the last one marked. -/
def TxDescSoc.Lists (soc : TxDescSoc) (call : TxCall) (chain : List Txd) : Prop :=
  chain.flatMap soc.segments = segmentsFrom call.mapped 0 (pieceSizes soc call.skb.toMap) ∧
    (pieceSizes soc call.skb.toMap).sum = call.skb.toMap.len

def TxDescSoc.Controlled (soc : TxDescSoc) (p : TxPacket) : List Txd → Prop
  | [] => False
  | first :: rest =>
    if soc.qdma then
      soc.controls first = p.controls ∧
        (∀ txd ∈ rest, soc.controls txd = ⟨false, false, none⟩) ∧
        ∀ txd ∈ first :: rest, soc.forwardPort txd = p.port soc
    else soc.netsys = .v3 →
      (soc.controls first).tso = p.gso ∧ (soc.controls first).csum = p.csum ∧
        (p.vlan = true → (soc.controls first).vlan = some p.vlanTci) ∧
        soc.forwardPort first = p.port soc

section Packets

variable {soc : TxDescSoc} {p : TxPacket} {ring : PlacedRing} {call : TxCall} {desc : Nat → Txd}
  {res : DmaRes}

variable {ring' : TxRing} {desc' : Nat → Txd} {res' : DmaRes}

theorem mtkTxMapDesc_done
    (done : mtkTxMapDesc soc p ring.toTxRing call desc res = some (true, ring', desc', res')) :
    ∃ addr res₁ w, call.mapped 0 = some addr ∧ addr.toNat < 2 ^ soc.dmaBits ∧ 0 < ring.room ∧
      mapPiecesDesc soc p ring.toTxRing call call.skb.toMap.frags.length
        (cutsFrom soc.dmaMaxLen 0 call.skb.toMap.frags)
        (headWork soc p ring.toTxRing call.skb.toMap addr desc res₁) = some (true, w) ∧
      desc' = descEnd soc ring.toTxRing true w ∧
      ring'.nextFree = ring.toTxRing.next w.work.txd := by
  unfold mtkTxMapDesc at done
  split_ifs at done with short full
  · simp at done
  · simp at done
  · dsimp only at done
    cases mapped : call.mapped 0 with
    | none => simp [mapped] at done
    | some addr =>
      rw [mapped] at done
      obtain ⟨res₁, map, done⟩ := Option.bind_eq_some_iff.mp done
      obtain ⟨⟨ok, w⟩, loops, done⟩ := Option.map_eq_some_iff.mp done
      cases ok with
      | false => simp [mapEnd] at done
      | true =>
        simp only [mapEnd, if_true, Prod.mk.injEq, true_and] at done
        obtain ⟨rfl, rfl, -⟩ := done
        exact ⟨addr, res₁, w, rfl, (DmaRes.map_eq map).1, PlacedRing.room_pos full, loops, rfl,
          rfl⟩

theorem handed_eq {n : Nat} (room : n < ring.room) (nextFree : ring'.nextFree = ring.slot (n + 1))
    (desc : Nat → Txd) :
    handed ring.toTxRing ring' desc = (List.range (n + 1)).map fun d => desc (ring.slot d) := by
  have := ring.room_lt
  have walked : Circular.walk ring.dmaSize ((ring.nextFree + (n + 1)) % ring.dmaSize) ring.dmaSize
      (ring.nextFree % ring.dmaSize) =
        (List.range (n + 1)).map fun d => (ring.nextFree + d) % ring.dmaSize :=
    Circular.walk_eq (by omega) (by omega)
  rw [Nat.mod_eq_of_lt ring.nextFree_lt] at walked
  rw [handed, nextFree, PlacedRing.slot, walked, List.map_map]
  rfl

theorem handed_cons {n : Nat} (room : n < ring.room) (nextFree : ring'.nextFree = ring.slot (n + 1))
    (desc : Nat → Txd) :
    handed ring.toTxRing ring' desc = desc (ring.slot 0) ::
      (List.range n).map fun d => desc (ring.slot (0 + 1 + d)) := by
  rw [handed_eq room nextFree, List.range_succ_eq_map, List.map_cons, List.map_map]
  refine congrArg _ (List.map_congr_left fun d _ => ?_)
  simp only [Function.comp_apply]
  congr 2
  omega

theorem pieceSizes_sum (skb : TxSkb) : (pieceSizes soc skb).sum = skb.len := by
  rw [pieceSizes, List.sum_cons, cutsFrom_sum soc.dmaMaxLen_pos, TxSkb.len]

theorem mtkTxMapDesc_qdma (qdma : soc.qdma = true)
    (done : mtkTxMapDesc soc p ring.toTxRing call desc res = some (true, ring', desc', res'))
    (linear : call.skb.toMap.headlen ≤ soc.dmaMaxLen) (regular : soc.Regular call.skb.toMap) :
    soc.Lists call (handed ring.toTxRing ring' desc') ∧
      soc.Controlled p (handed ring.toTxRing ring' desc') := by
  obtain ⟨addr, res₁, w, mapped, reach, room, loops, rfl, nextFree⟩ := mtkTxMapDesc_done done
  have ends : EndsAt call.skb.toMap.frags.length
      (cutsFrom soc.dmaMaxLen 0 call.skb.toMap.frags) := by
    rw [TxDescSoc.Regular, if_pos qdma] at regular
    rcases regular with last | none
    · have := endsAt_cutsFrom (i := 0) soc.dmaMaxLen_pos last
      rwa [Nat.zero_add] at this
    · rw [(cutsFrom_eq_nil soc.dmaMaxLen_pos).mpr none]
      trivial
  obtain ⟨txd, room', frame, read, free⟩ := run_qdma qdma loops ring.slot_zero.symm room
    (fun piece member => cutsFrom_size member) ends
  have desc_eq : descEnd soc ring.toTxRing true w = w.desc := by
    rw [descEnd, if_pos rfl, if_pos qdma]
  have head : w.desc (ring.slot 0) = (mtkTxSetDmaDesc soc p (headInfo p call.skb.toMap addr)
      p.tagValid (desc (ring.slot 0))).2 := by
    rw [frame 0 le_rfl, headWork, DescWork.write, ring.slot_zero]
    simp only [Function.update_self, setupTxDesc, qdma, if_true]
  have nextFree' : ring'.nextFree = ring.slot
      ((cutsFrom soc.dmaMaxLen 0 call.skb.toMap.frags).length + 1) := by
    rw [nextFree, txd, ring.next_slot, Nat.zero_add]
  rw [Nat.zero_add] at room'
  have is_last : (headInfo p call.skb.toMap addr).last =
      ((cutsFrom soc.dmaMaxLen 0 call.skb.toMap.frags).map TxPiece.size).isEmpty := by
    rw [Bool.eq_iff_iff, List.isEmpty_iff, List.map_eq_nil_iff,
      cutsFrom_eq_nil soc.dmaMaxLen_pos]
    simp [headInfo]
  rw [handed_cons room' nextFree', desc_eq]
  refine ⟨⟨?_, pieceSizes_sum _⟩, ?_⟩
  · rw [List.flatMap_cons, read, head, qdma_segments qdma linear reach, pieceSizes, segmentsFrom,
      mapped, is_last]
    rfl
  · rw [TxDescSoc.Controlled, if_pos qdma, head]
    refine ⟨qdma_controls qdma, ?_, ?_⟩
    · intro txd' member
      obtain ⟨d, below, rfl⟩ := List.mem_map.mp member
      exact (free d (List.mem_range.mp below)).1
    · intro txd' member
      rcases List.mem_cons.mp member with rfl | member
      · exact qdma_forwardPort qdma
      · obtain ⟨d, below, rfl⟩ := List.mem_map.mp member
        exact (free d (List.mem_range.mp below)).2

theorem tails_pdma (pdma : soc.qdma = false) {pieces : List TxPiece} {nrFrags : Nat}
    {w w' : DescWork}
    (loops : mapPiecesDesc soc p ring.toTxRing call nrFrags pieces w = some (true, w')) (i : Nat) :
    SameTail (w.desc i) (descEnd soc ring.toTxRing true w' i) ∧
      (soc.netsys = .v1 → (descEnd soc ring.toTxRing true w' i).txd4 = (w.desc i).txd4) := by
  obtain ⟨tail, word⟩ := run_tails pdma loops i
  rw [descEnd_pdma pdma]
  by_cases here : i = w'.work.txd
  · subst here
    rw [Function.update_self]
    exact ⟨tail.trans sameTail_markLast, fun netsys =>
      (markLast_txd4 (by rw [netsys]; decide)).trans (word netsys)⟩
  · rw [Function.update_of_ne here]
    exact ⟨tail, word⟩

theorem mtkTxMapDesc_pdma (pdma : soc.qdma = false)
    (done : mtkTxMapDesc soc p ring.toTxRing call desc res = some (true, ring', desc', res'))
    (linear : call.skb.toMap.headlen ≤ soc.dmaMaxLen) (regular : soc.Regular call.skb.toMap) :
    soc.Lists call (handed ring.toTxRing ring' desc') ∧
      soc.Controlled p (handed ring.toTxRing ring' desc') := by
  obtain ⟨addr, res₁, w, mapped, reach, room, loops, rfl, nextFree⟩ := mtkTxMapDesc_done done
  rw [TxDescSoc.Regular, if_neg (by simp [pdma])] at regular
  have head : (headWork soc p ring.toTxRing call.skb.toMap addr desc res₁).desc (ring.slot 0) =
      setupTxDesc soc addr call.skb.toMap.headlen 0 (mtkTxSetDmaDesc soc p
        (headInfo p call.skb.toMap addr) p.tagValid (desc (ring.slot 0))).2 := by
    rw [headWork, DescWork.write, ring.slot_zero]
    simp only [Function.update_self]
    rfl
  obtain ⟨n, txd, room', -, read⟩ := run_pdma pdma loops ring.slot_zero.symm room rfl
    (by rw [head]; exact filledFirst_setup pdma rfl) linear reach
    (fun piece member => cutsFrom_size member) regular
  rw [Nat.zero_add] at txd room'
  have nextFree' : ring'.nextFree = ring.slot (n + 1) := by
    rw [nextFree, txd, ring.next_slot]
  refine ⟨⟨?_, pieceSizes_sum _⟩, ?_⟩
  · rw [handed_eq room' nextFree']
    simp only [Nat.zero_add] at read
    rw [read, pieceSizes, segmentsFrom, mapped]
    simp [headWork, DescWork.write]
  · rw [handed_cons room' nextFree', TxDescSoc.Controlled, if_neg (by simp [pdma])]
    intro netsys
    have tail := (tails_pdma pdma loops (ring.slot 0)).1
    rw [head] at tail
    have set : (mtkTxSetDmaDesc soc p (headInfo p call.skb.toMap addr) p.tagValid
        (desc (ring.slot 0))).2 =
          mtkTxSetPdmaDesc p (headInfo p call.skb.toMap addr) (desc (ring.slot 0)) := by
      unfold mtkTxSetDmaDesc
      rw [if_neg (by simp [pdma]), netsys]
    rw [set] at tail
    exact pdma_controls pdma netsys rfl (sameTail_setup.trans tail)

theorem mtkTxMapDesc_pdma_v1 (pdma : soc.qdma = false) (netsys : soc.netsys = .v1)
    (done : mtkTxMapDesc soc p ring.toTxRing call desc res = some (true, ring', desc', res'))
    (i : Nat) : SameTail (desc i) (desc' i) ∧ (desc' i).txd4 = (desc i).txd4 := by
  obtain ⟨addr, res₁, w, -, -, -, loops, rfl, -⟩ := mtkTxMapDesc_done done
  obtain ⟨tail, word⟩ := tails_pdma pdma loops i
  have head : SameTail (desc i)
      ((headWork soc p ring.toTxRing call.skb.toMap addr desc res₁).desc i) ∧
        ((headWork soc p ring.toTxRing call.skb.toMap addr desc res₁).desc i).txd4 =
          (desc i).txd4 := by
    have set (txd : Txd) : (mtkTxSetDmaDesc soc p (headInfo p call.skb.toMap addr) p.tagValid
        txd).2 = txd := by
      unfold mtkTxSetDmaDesc
      rw [if_neg (by simp [pdma]), netsys]
    rw [headWork, DescWork.write]
    dsimp only
    by_cases here : i = ring.nextFree
    · subst here
      rw [Function.update_self, set]
      exact ⟨sameTail_setup, setup_txd4 (by rw [netsys]; decide)⟩
    · rw [Function.update_of_ne here]
      exact ⟨.refl _, rfl⟩
  exact ⟨head.1.trans tail, (word netsys).trans head.2⟩

/-- A packet that is mapped is in the descriptors that the hardware is given, whatever was in them
before. -/
theorem mtkTxMapDesc_describes {ring' : TxRing} {desc' : Nat → Txd} {res' : DmaRes}
    (done : mtkTxMapDesc soc p ring.toTxRing call desc res = some (true, ring', desc', res'))
    (linear : call.skb.toMap.headlen ≤ soc.dmaMaxLen) (regular : soc.Regular call.skb.toMap) :
    soc.Lists call (handed ring.toTxRing ring' desc') ∧
      soc.Controlled p (handed ring.toTxRing ring' desc') ∧
      (soc.qdma = false → soc.netsys = .v1 →
        ∀ i, SameTail (desc i) (desc' i) ∧ (desc' i).txd4 = (desc i).txd4) := by
  cases qdma : soc.qdma with
  | true =>
    obtain ⟨lists, controlled⟩ := mtkTxMapDesc_qdma qdma done linear regular
    exact ⟨lists, controlled, fun pdma => by cases pdma⟩
  | false =>
    obtain ⟨lists, controlled⟩ := mtkTxMapDesc_pdma qdma done linear regular
    exact ⟨lists, controlled, fun _ netsys i => mtkTxMapDesc_pdma_v1 qdma netsys done i⟩

end Packets

def TxDescSoc.FirstOnly (soc : TxDescSoc) (p : TxPacket) : List Txd → Prop
  | [] => False
  | first :: rest =>
    soc.controls first = p.controls ∧ soc.forwardPort first = p.port soc ∧
      ∀ txd ∈ rest, soc.controls txd = ⟨false, false, none⟩ ∧ soc.forwardPort txd = 0

instance (soc : TxDescSoc) (p : TxPacket) : ∀ chain, Decidable (soc.FirstOnly p chain)
  | [] => isFalse id
  | first :: rest => inferInstanceAs (Decidable (soc.controls first = p.controls ∧
      soc.forwardPort first = p.port soc ∧
        ∀ txd ∈ rest, soc.controls txd = ⟨false, false, none⟩ ∧ soc.forwardPort txd = 0))

def eightPlaces : PlacedRing where
  toTxRing := TxRing.unused.setUp TxState.qdma8
  nextFree_lt := by decide
  lastFree_lt := by decide

def qdmaV1 : TxDescSoc :=
  { TxState.qdma8 with
    netsys := .v1
    dmaMaxLen_eq := rfl
    dma36_netsys := nofun
    qdma_netsys := nofun }

def pdmaV1 : TxDescSoc :=
  { TxState.pdma8 with
    netsys := .v1
    dmaMaxLen_eq := rfl
    dma36_netsys := nofun
    qdma_netsys := nofun }

theorem threeMacs : NeZero 3 := ⟨by decide⟩

def plainPacket : TxPacket :=
  haveI := threeMacs
  ⟨0, 0, false, false, false, 0, false, false, none, false, 0, false⟩

def staleDesc (_ : Nat) : Txd :=
  let old := BitVec.allOnes 32
  ⟨old, old, old, old, old, old, old, old⟩

theorem mtkTxMapDesc_describes_two : ∃ ring' desc' res',
    mtkTxMapDesc pdmaV1 plainPacket eightPlaces.toTxRing TxState.twoFragments staleDesc .empty =
        some (true, ring', desc', res') ∧
      pdmaV1.Lists TxState.twoFragments (handed eightPlaces.toTxRing ring' desc') := by
  have result : (mtkTxMapDesc pdmaV1 plainPacket eightPlaces.toTxRing TxState.twoFragments
      staleDesc .empty).map Prod.fst = some true := by
    decide +kernel
  obtain ⟨⟨_, ring', desc', res'⟩, done, rfl⟩ := Option.map_eq_some_iff.mp result
  have regular : pdmaV1.Regular TxState.twoFragments.skb.toMap := by
    rw [TxDescSoc.Regular, if_neg (by decide)]
    decide +kernel
  exact ⟨ring', desc', res', done,
    (mtkTxMapDesc_describes done (by decide) regular).1⟩

/-- A fragment's descriptor has the forward port as well. -/
theorem forwardPort_everywhere : ∃ ring' desc' res',
    mtkTxMapDesc qdmaV1 plainPacket eightPlaces.toTxRing TxState.twoFragments staleDesc .empty =
        some (true, ring', desc', res') ∧
      ¬qdmaV1.FirstOnly plainPacket (handed eightPlaces.toTxRing ring' desc') := by
  have result : (mtkTxMapDesc qdmaV1 plainPacket eightPlaces.toTxRing TxState.twoFragments
      staleDesc .empty).map (fun part => (part.1, decide (qdmaV1.FirstOnly plainPacket
        (handed eightPlaces.toTxRing part.2.1 part.2.2.1)))) = some (true, false) := by
    decide +kernel
  obtain ⟨⟨_, ring', desc', res'⟩, done, last⟩ := Option.map_eq_some_iff.mp result
  obtain ⟨rfl, never⟩ := Prod.mk.inj last
  exact ⟨ring', desc', res', done, of_decide_eq_false never⟩

end MetaFilogic.Eth
