import MetaFilogic.Eth.TxDescRead
import MetaFilogic.Eth.TxOwner

/-!
# Packets in transmit descriptors

A packet that `mtk_tx_map` maps is read back from the descriptors as its pieces in order.  A QDMA
takes a descriptor for each piece; a PDMA two pieces in each, as long as the pieces keep step with
the fragments.
-/

namespace MetaFilogic.Eth

open Function (update update_self update_of_ne)

/-! ## Rings and what is mapped -/

section Erase

variable {soc : TxDescSoc} {p : TxPacket} {ring : TxRing} {call : TxCall}

def TxPiece.erase (piece : TxPiece) : Nat × Nat := (piece.frag, piece.size)

theorem fragCuts_erase (maxLen i fuel fragSize : Nat) :
    (fragCuts maxLen i fuel fragSize).map TxPiece.erase =
      (fragPieces maxLen fuel fragSize).map fun size => (i, size) := by
  induction fuel generalizing fragSize with
  | zero => rfl
  | succ fuel ih =>
    rw [fragCuts, fragPieces]
    split_ifs
    · rfl
    · rw [List.map_cons, List.map_cons, ih]
      rfl

theorem cutsFrom_erase (maxLen i : Nat) (frags : List Nat) :
    (cutsFrom maxLen i frags).map TxPiece.erase = piecesFrom maxLen i frags := by
  induction frags generalizing i with
  | nil => rfl
  | cons fragSize frags ih =>
    rw [cutsFrom, piecesFrom, List.map_append, fragCuts_erase, ih]

theorem mapPieceDesc_erase (nrFrags : Nat) (piece : TxPiece) (w : DescWork) :
    (mapPieceDesc soc p ring call nrFrags piece w).map (fun part => (part.1, part.2.work)) =
      mapPiece soc.toTxSoc ring call piece.erase w.work := by
  unfold mapPieceDesc TxPiece.erase
  cases mapPiece soc.toTxSoc ring call (piece.frag, piece.size) w.work with
  | none => rfl
  | some part =>
    obtain ⟨ok, work⟩ := part
    cases ok <;> cases call.mapped w.work.k <;> simp [DescWork.write]

theorem mapPiecesDesc_erase (nrFrags : Nat) (pieces : List TxPiece) (w : DescWork) :
    (mapPiecesDesc soc p ring call nrFrags pieces w).map (fun part => (part.1, part.2.work)) =
      mapPieces soc.toTxSoc ring call (pieces.map TxPiece.erase) w.work := by
  induction pieces generalizing w with
  | nil => rfl
  | cons piece pieces ih =>
    rw [mapPiecesDesc, List.map_cons, mapPieces, ← @mapPieceDesc_erase soc p ring call]
    cases mapPieceDesc soc p ring call nrFrags piece w with
    | none => rfl
    | some part =>
      obtain ⟨ok, work⟩ := part
      cases ok with
      | false => rfl
      | true => exact ih work

theorem mtkTxMapDesc_erase (desc : Nat → Txd) (res : DmaRes) :
    (mtkTxMapDesc soc p ring call desc res).map
        (fun part => (part.1, part.2.1, part.2.2.2)) =
      mtkTxMap soc.toTxSoc ring call res := by
  unfold mtkTxMapDesc mtkTxMap
  split_ifs
  · rfl
  · rfl
  · dsimp only
    cases call.mapped 0 with
    | none => rfl
    | some addr =>
      dsimp only
      cases res.map soc.dmaBits addr call.skb.toMap.head with
      | none => rfl
      | some res =>
        rw [Option.bind_some, Option.bind_some, ← cutsFrom_erase]
        have erased := @mapPiecesDesc_erase soc p ring call call.skb.toMap.frags.length
          (cutsFrom soc.dmaMaxLen 0 call.skb.toMap.frags)
          (headWork soc p ring call.skb.toMap addr desc res)
        rw [show (headWork soc p ring call.skb.toMap addr desc res).work =
          ⟨update ring.buf ring.nextFree
            (headBuf soc.toTxSoc addr call.skb.toMap.headlen), res, ring.nextFree, 1, 1⟩ from rfl]
          at erased
        rw [← erased, Option.map_map, Option.map_map]
        rfl

end Erase

/-! ## Places -/

structure PlacedRing extends TxRing where
  nextFree_lt : nextFree < dmaSize
  lastFree_lt : lastFree < dmaSize

def TxRing.At.placed {soc : TxSoc} {ring : TxRing} {tail head : Nat}
    (at_ : ring.At soc tail head) : PlacedRing :=
  { ring with
    nextFree_lt := by
      rw [at_.nextFree, at_.size]
      exact Nat.mod_lt _ soc.txDmaSize_pos
    lastFree_lt := by
      rw [at_.lastFree, at_.size]
      exact Nat.mod_lt _ soc.txDmaSize_pos }

namespace PlacedRing

variable (ring : PlacedRing)

def slot (d : Nat) : Nat := (ring.nextFree + d) % ring.dmaSize

def room : Nat := (ring.lastFree + ring.dmaSize - ring.nextFree) % ring.dmaSize

theorem room_lt : ring.room < ring.dmaSize :=
  Nat.mod_lt _ (Nat.zero_lt_of_lt ring.nextFree_lt)

theorem slot_zero : ring.slot 0 = ring.nextFree :=
  Nat.mod_eq_of_lt ring.nextFree_lt

theorem next_slot (d : Nat) : ring.toTxRing.next (ring.slot d) = ring.slot (d + 1) := by
  rw [TxRing.next, slot, Nat.mod_add_mod]
  rfl

theorem slot_room : ring.slot ring.room = ring.lastFree := by
  have nextFree := ring.nextFree_lt
  have lastFree := ring.lastFree_lt
  rw [slot, room, Nat.add_mod_mod]
  rw [show ring.nextFree + (ring.lastFree + ring.dmaSize - ring.nextFree) =
    ring.lastFree + ring.dmaSize by omega, Nat.add_mod_right, Nat.mod_eq_of_lt lastFree]

theorem slot_inj {d e : Nat} (d_lt : d < ring.dmaSize) (e_lt : e < ring.dmaSize)
    (same : ring.slot d = ring.slot e) : d = e := by
  have := Circular.place_unique ring.nextFree (by omega) (by omega) (by omega) (by omega) same
  omega

variable {ring}

theorem lt_room {d : Nat} (below : d < ring.room)
    (apart : ring.slot (d + 1) ≠ ring.lastFree) : d + 1 < ring.room := by
  have : d + 1 ≠ ring.room := by
    rintro last
    exact apart (last ▸ ring.slot_room)
  omega

theorem room_pos (apart : ring.nextFree ≠ ring.lastFree) : 0 < ring.room := by
  refine Nat.pos_of_ne_zero fun none => apart ?_
  rw [← ring.slot_zero, ← none, ring.slot_room]

end PlacedRing

/-! ## One piece -/

/-- A piece of a fragment is written for an address, from one state of the loop to the next. -/
structure Wrote (soc : TxDescSoc) (p : TxPacket) (ring : TxRing) (nrFrags : Nat) (piece : TxPiece)
    (addr : DmaAddr) (w w' : DescWork) : Prop where
  reach : addr.toNat < 2 ^ soc.dmaBits
  k : w'.work.k = w.work.k + 1
  txd : w'.work.txd = if soc.newDesc piece.frag then ring.next w.work.txd else w.work.txd
  free : soc.newDesc piece.frag = true → w'.work.txd ≠ ring.lastFree
  desc : w'.desc = update w.desc w'.work.txd (setupTxDesc soc addr piece.size w.work.k
    (mtkTxSetDmaDesc soc p (pieceInfo p nrFrags piece addr) w.tagValid
      (w.desc w'.work.txd)).2)

section Piece

variable {soc : TxDescSoc} {p : TxPacket} {ring : TxRing} {call : TxCall} {nrFrags : Nat}
  {piece : TxPiece} {w w' : DescWork}

theorem mapPiece_done {work work' : TxWork} {piece : Nat × Nat}
    (done : mapPiece soc.toTxSoc ring call piece work = some (true, work')) :
    ∃ addr, call.mapped work.k = some addr ∧ addr.toNat < 2 ^ soc.dmaBits ∧
      work'.k = work.k + 1 ∧
      work'.txd = (if soc.newDesc piece.1 then ring.next work.txd else work.txd) ∧
      (soc.newDesc piece.1 = true → work'.txd ≠ ring.lastFree) := by
  cases new : soc.newDesc piece.1 with
  | true =>
    rw [mapPiece_new new] at done
    split_ifs at done with full
    · simp at done
    · cases is_mapped : call.mapped work.k with
      | none => simp [is_mapped] at done
      | some addr =>
        rw [is_mapped] at done
        obtain ⟨res, map, result⟩ := Option.map_eq_some_iff.mp done
        simp only [Prod.mk.injEq, true_and] at result
        subst result
        exact ⟨addr, rfl, (DmaRes.map_eq map).1, rfl, rfl, fun _ => full⟩
  | false =>
    rw [mapPiece_same new] at done
    cases is_mapped : call.mapped work.k with
    | none => simp [is_mapped] at done
    | some addr =>
      rw [is_mapped] at done
      obtain ⟨res, map, result⟩ := Option.map_eq_some_iff.mp done
      simp only [Prod.mk.injEq, true_and] at result
      subst result
      exact ⟨addr, rfl, (DmaRes.map_eq map).1, rfl, rfl, by simp⟩

theorem mapPieceDesc_done (done : mapPieceDesc soc p ring call nrFrags piece w = some (true, w')) :
    ∃ addr, call.mapped w.work.k = some addr ∧ Wrote soc p ring nrFrags piece addr w w' := by
  unfold mapPieceDesc at done
  obtain ⟨⟨ok, work⟩, mapped, result⟩ := Option.map_eq_some_iff.mp done
  cases ok with
  | false => cases call.mapped w.work.k <;> simp at result
  | true =>
    obtain ⟨addr, is_mapped, reach, k, txd, free⟩ := mapPiece_done mapped
    simp only [is_mapped, Prod.mk.injEq, true_and] at result
    subst result
    exact ⟨addr, is_mapped, reach, k, txd, free, rfl⟩

end Piece

/-! ## Pieces in order -/

/-- The segments of pieces of some sizes, of which the first is number `k` of the packet. -/
def segmentsFrom (mapped : Nat → Option DmaAddr) : Nat → List Nat → List Segment
  | _, [] => []
  | k, size :: sizes =>
    ⟨(mapped k).getD 0, size, sizes.isEmpty⟩ :: segmentsFrom mapped (k + 1) sizes

def EndsAt (nrFrags : Nat) : List TxPiece → Prop
  | [] => True
  | piece :: pieces =>
    (piece.frag + 1 = nrFrags ∧ piece.left = 0 ↔ pieces = []) ∧ EndsAt nrFrags pieces

/-- The pieces, of which the first is number `j`, keep step with their fragments. -/
def InStep : Nat → List TxPiece → Prop
  | _, [] => True
  | j, piece :: pieces => piece.frag % 2 = j % 2 ∧ InStep (j + 1) pieces

instance decidableInStep : ∀ (j : Nat) (pieces : List TxPiece), Decidable (InStep j pieces)
  | _, [] => isTrue trivial
  | j, piece :: pieces =>
    have := decidableInStep (j + 1) pieces
    inferInstanceAs (Decidable (piece.frag % 2 = j % 2 ∧ InStep (j + 1) pieces))

theorem inStep_add_two {j : Nat} {pieces : List TxPiece} :
    InStep (j + 1 + 1) pieces ↔ InStep j pieces := by
  induction pieces generalizing j with
  | nil => rfl
  | cons piece pieces ih =>
    rw [InStep, InStep, ih (j := j + 1)]
    exact and_congr_left fun _ => by omega

section Cuts

variable {maxLen i fuel fragSize nrFrags : Nat} {frags : List Nat}

theorem fragCuts_mem {piece : TxPiece} (member : piece ∈ fragCuts maxLen i fuel fragSize) :
    piece.frag = i ∧ piece.size ≤ maxLen := by
  induction fuel generalizing fragSize with
  | zero => cases member
  | succ fuel ih =>
    rw [fragCuts] at member
    split_ifs at member
    · cases member
    · rcases List.mem_cons.mp member with rfl | member
      · exact ⟨rfl, Nat.min_le_right ..⟩
      · exact ih member

theorem cutsFrom_size {piece : TxPiece} (member : piece ∈ cutsFrom maxLen i frags) :
    piece.size ≤ maxLen := by
  induction frags generalizing i with
  | nil => cases member
  | cons fragSize frags ih =>
    rcases List.mem_append.mp member with member | member
    · exact (fragCuts_mem member).2
    · exact ih member

theorem cutsFrom_sum (positive : 0 < maxLen) :
    ((cutsFrom maxLen i frags).map TxPiece.size).sum = frags.sum := by
  have erased (cuts : List TxPiece) :
      cuts.map TxPiece.size = (cuts.map TxPiece.erase).map Prod.snd := by
    rw [List.map_map]
    rfl
  rw [erased, cutsFrom_erase]
  induction frags generalizing i with
  | nil => rfl
  | cons fragSize frags ih =>
    rw [piecesFrom, List.map_append, List.sum_append, ih, List.sum_cons, List.map_map]
    simpa [Function.comp_def] using fragPieces_sum positive (le_refl fragSize)

theorem endsAt_append {cuts pieces : List TxPiece}
    (earlier : ∀ piece ∈ cuts, piece.frag + 1 < nrFrags) (some_left : pieces ≠ [])
    (ends : EndsAt nrFrags pieces) : EndsAt nrFrags (cuts ++ pieces) := by
  induction cuts with
  | nil => exact ends
  | cons piece cuts ih =>
    have first := earlier piece (by simp)
    refine ⟨iff_of_false (by omega) (by simp [some_left]),
      ih fun other member => earlier other (by simp [member])⟩

theorem endsAt_fragCuts (positive : 0 < maxLen) (enough : fragSize ≤ fuel) :
    EndsAt (i + 1) (fragCuts maxLen i fuel fragSize) := by
  induction fuel generalizing fragSize with
  | zero => trivial
  | succ fuel ih =>
    rw [fragCuts]
    split_ifs with none
    · trivial
    · refine ⟨?_, ih (by omega)⟩
      have empty : fragCuts maxLen i fuel (fragSize - min fragSize maxLen) = [] ↔
          fragSize - min fragSize maxLen = 0 := by
        cases fuel with
        | zero => exact iff_of_true rfl (by omega)
        | succ fuel =>
          rw [fragCuts]
          split_ifs with done
          · exact iff_of_true rfl done
          · exact iff_of_false (by simp) done
      rw [empty]
      simp

theorem cutsFrom_ne_nil (positive : 0 < maxLen) (some_bytes : frags.sum ≠ 0) :
    cutsFrom maxLen i frags ≠ [] := by
  intro none
  have : ((cutsFrom maxLen i frags).map TxPiece.size).sum = frags.sum := cutsFrom_sum positive
  rw [none] at this
  exact some_bytes this.symm

theorem cutsFrom_eq_nil (positive : 0 < maxLen) : cutsFrom maxLen i frags = [] ↔ frags.sum = 0 := by
  refine ⟨fun none => by_contra fun some_bytes => cutsFrom_ne_nil positive some_bytes none,
    fun none => ?_⟩
  induction frags generalizing i with
  | nil => rfl
  | cons fragSize frags ih =>
    rw [List.sum_cons] at none
    obtain rfl : fragSize = 0 := by omega
    exact ih (by omega)

theorem endsAt_cutsFrom (positive : 0 < maxLen) (last : frags.getLast? ≠ some 0) :
    EndsAt (i + frags.length) (cutsFrom maxLen i frags) := by
  induction frags generalizing i with
  | nil => trivial
  | cons fragSize frags ih =>
    rw [cutsFrom]
    cases frags with
    | nil =>
      rw [cutsFrom, List.append_nil]
      exact endsAt_fragCuts positive le_rfl
    | cons next frags =>
      have last' : (next :: frags).getLast? ≠ some 0 := by
        simpa [List.getLast?_cons_cons] using last
      have ends := ih (i := i + 1) last'
      rw [show i + (fragSize :: next :: frags).length = i + 1 + (next :: frags).length by
        simp; omega]
      refine endsAt_append (fun piece member => ?_) (cutsFrom_ne_nil positive ?_) ends
      · rw [(fragCuts_mem member).1]
        simp
      · intro none
        have zero : ∀ size ∈ next :: frags, size = 0 := List.sum_eq_zero_iff_forall_eq_nat.mp none
        obtain ⟨size, is_last⟩ : ∃ size, (next :: frags).getLast? = some size :=
          Option.isSome_iff_exists.mp (by simp)
        rw [zero size (List.mem_of_getLast? is_last)] at is_last
        exact last' is_last

end Cuts

/-! ## Runs of the loops -/

section Runs

variable {soc : TxDescSoc} {p : TxPacket} {ring : PlacedRing} {call : TxCall} {nrFrags : Nat}

variable {pieces : List TxPiece} {addr : DmaAddr} {mid : DescWork} {m : Nat}

theorem mapPiecesDesc_cons {piece : TxPiece} {w w' : DescWork}
    (done : mapPiecesDesc soc p ring.toTxRing call nrFrags (piece :: pieces) w =
      some (true, w')) :
    ∃ addr mid, call.mapped w.work.k = some addr ∧
      Wrote soc p ring.toTxRing nrFrags piece addr w mid ∧
      mapPiecesDesc soc p ring.toTxRing call nrFrags pieces mid = some (true, w') := by
  obtain ⟨⟨ok, mid⟩, one, rest⟩ := Option.bind_eq_some_iff.mp done
  cases ok with
  | false => simp at rest
  | true =>
    obtain ⟨addr, mapped, wrote⟩ := mapPieceDesc_done one
    exact ⟨addr, mid, mapped, wrote, rest⟩

theorem Wrote.new {piece : TxPiece} {w : DescWork}
    (wrote : Wrote soc p ring.toTxRing nrFrags piece addr w mid)
    (new : soc.newDesc piece.frag = true) (txd : w.work.txd = ring.slot m) (room : m < ring.room) :
    mid.work.txd = ring.slot (m + 1) ∧ m + 1 < ring.room ∧
      ∀ d ≤ m, mid.desc (ring.slot d) = w.desc (ring.slot d) := by
  have txd' : mid.work.txd = ring.slot (m + 1) := by
    rw [wrote.txd, if_pos new, txd, ring.next_slot]
  have room' := PlacedRing.lt_room room (txd' ▸ wrote.free new)
  refine ⟨txd', room', fun d before => ?_⟩
  have := ring.room_lt
  rw [wrote.desc, txd', update_of_ne]
  intro same
  have := ring.slot_inj (by omega) (by omega) same
  omega

theorem run_qdma (qdma : soc.qdma = true) {w w' : DescWork}
    (done : mapPiecesDesc soc p ring.toTxRing call nrFrags pieces w = some (true, w'))
    (txd : w.work.txd = ring.slot m) (room : m < ring.room)
    (fits : ∀ piece ∈ pieces, piece.size ≤ soc.dmaMaxLen) (ends : EndsAt nrFrags pieces) :
    w'.work.txd = ring.slot (m + pieces.length) ∧ m + pieces.length < ring.room ∧
      (∀ d ≤ m, w'.desc (ring.slot d) = w.desc (ring.slot d)) ∧
      ((List.range pieces.length).map fun d => w'.desc (ring.slot (m + 1 + d))).flatMap
        soc.segments = segmentsFrom call.mapped w.work.k (pieces.map TxPiece.size) ∧
      ∀ d < pieces.length, soc.controls (w'.desc (ring.slot (m + 1 + d))) =
          ⟨false, false, none⟩ ∧
        soc.forwardPort (w'.desc (ring.slot (m + 1 + d))) = p.port soc := by
  induction pieces generalizing w m with
  | nil =>
    obtain rfl : w = w' := by simpa [mapPiecesDesc] using done
    exact ⟨txd, room, fun _ _ => rfl, rfl, by simp⟩
  | cons piece pieces ih =>
    obtain ⟨addr, mid, mapped, wrote, rest⟩ := mapPiecesDesc_cons done
    obtain ⟨txd', room', before⟩ := wrote.new (by simp [TxSoc.newDesc, qdma]) txd room
    obtain ⟨end_, room_, frame, read, free⟩ := ih rest txd' room'
      (fun other member => fits other (by simp [member])) ends.2
    have here : w'.desc (ring.slot (m + 1)) = (mtkTxSetDmaDesc soc p
        (pieceInfo p nrFrags piece addr) w.tagValid (w.desc mid.work.txd)).2 := by
      rw [frame (m + 1) le_rfl, wrote.desc, txd', update_self, setupTxDesc,
        if_pos qdma]
    have places : (List.range (pieces.length + 1)).map
        (fun d => w'.desc (ring.slot (m + 1 + d))) = w'.desc (ring.slot (m + 1)) ::
          (List.range pieces.length).map fun d => w'.desc (ring.slot (m + 1 + 1 + d)) := by
      rw [List.range_succ_eq_map, List.map_cons, List.map_map]
      refine congrArg _ (List.map_congr_left fun d _ => ?_)
      simp only [Function.comp_apply]
      congr 2
      omega
    refine ⟨?_, ?_, ?_, ?_, ?_⟩
    · rw [end_, List.length_cons]
      congr 1
      omega
    · rw [List.length_cons]
      omega
    · intro d low
      rw [frame d (by omega), before d low]
    · have is_last : (pieceInfo p nrFrags piece addr).last = pieces.isEmpty := by
        have := ends.1
        rw [Bool.eq_iff_iff]
        simpa [pieceInfo] using this
      rw [List.length_cons, places, List.flatMap_cons, read, here,
        qdma_segments qdma (fits piece (by simp)) wrote.reach, List.map_cons, segmentsFrom, mapped,
        is_last, wrote.k]
      simp [pieceInfo]
    · intro d below
      rcases Nat.eq_zero_or_pos d with rfl | later
      · rw [Nat.add_zero, here, qdma_controls qdma, qdma_forwardPort qdma]
        exact ⟨if_neg (by simp [pieceInfo]), rfl⟩
      · have := free (d - 1) (by simp at below; omega)
        rwa [show m + 1 + 1 + (d - 1) = m + 1 + d by omega] at this

theorem Wrote.same {piece : TxPiece} {w : DescWork}
    (wrote : Wrote soc p ring.toTxRing nrFrags piece addr w mid)
    (same : soc.newDesc piece.frag = false) (txd : w.work.txd = ring.slot m)
    (room : m < ring.room) :
    mid.work.txd = ring.slot m ∧ ∀ d < m, mid.desc (ring.slot d) = w.desc (ring.slot d) := by
  have txd' : mid.work.txd = ring.slot m := by
    rw [wrote.txd, if_neg (by simp [same]), txd]
  refine ⟨txd', fun d before => ?_⟩
  have := ring.room_lt
  rw [wrote.desc, txd', update_of_ne]
  intro same
  have := ring.slot_inj (by omega) (by omega) same
  omega

theorem Wrote.desc_pdma (pdma : soc.qdma = false) {piece : TxPiece} {w : DescWork}
    (wrote : Wrote soc p ring.toTxRing nrFrags piece addr w mid) :
    mid.desc = update w.desc mid.work.txd
      (setupTxDesc soc addr piece.size w.work.k (w.desc mid.work.txd)) := by
  rw [wrote.desc]
  congr 2
  unfold mtkTxSetDmaDesc
  rw [if_neg (by simp [pdma])]
  cases soc.netsys <;> rfl

theorem descEnd_pdma (pdma : soc.qdma = false) (w : DescWork) :
    descEnd soc ring.toTxRing true w =
      update w.desc w.work.txd (markLast soc w.work.k (w.desc w.work.txd)) := by
  rw [descEnd, if_pos rfl, if_neg (by simp [pdma])]

theorem run_pdma (pdma : soc.qdma = false) : ∀ {pieces : List TxPiece} {w w' : DescWork}
    {m size : Nat} {addr : DmaAddr},
    mapPiecesDesc soc p ring.toTxRing call nrFrags pieces w = some (true, w') →
    w.work.txd = ring.slot m → m < ring.room → w.work.k % 2 = 1 →
    FilledFirst soc addr size (w.desc (ring.slot m)) → size ≤ soc.dmaMaxLen →
    addr.toNat < 2 ^ soc.dmaBits → (∀ piece ∈ pieces, piece.size ≤ soc.dmaMaxLen) →
    InStep 0 pieces →
    ∃ n, w'.work.txd = ring.slot (m + n) ∧ m + n < ring.room ∧
      (∀ d < m, w'.desc (ring.slot d) = w.desc (ring.slot d)) ∧
      ((List.range (n + 1)).map fun d =>
        descEnd soc ring.toTxRing true w' (ring.slot (m + d))).flatMap soc.segments =
          ⟨addr, size, pieces.isEmpty⟩ ::
            segmentsFrom call.mapped w.work.k (pieces.map TxPiece.size)
  | [], w, w', m, size, addr, done, txd, room, odd, filled, fits, reach, _, _ => by
    obtain rfl : w = w' := by simpa [mapPiecesDesc] using done
    refine ⟨0, txd, room, fun _ _ => rfl, ?_⟩
    rw [descEnd_pdma pdma, txd]
    simp [segments_first pdma filled odd fits reach, segmentsFrom]
  | [piece], w, w', m, size, addr, done, txd, room, odd, filled, fits, reach, small, step => by
    obtain ⟨addr', mid, mapped, wrote, rest⟩ := mapPiecesDesc_cons done
    obtain rfl : mid = w' := by simpa [mapPiecesDesc] using rest
    have even : piece.frag % 2 = 0 := step.1
    obtain ⟨txd', before⟩ := wrote.same (by simp [TxSoc.newDesc, pdma, even]) txd room
    have here : mid.desc (ring.slot m) =
        setupTxDesc soc addr' piece.size w.work.k (w.desc (ring.slot m)) := by
      rw [wrote.desc_pdma pdma, txd', update_self]
    have next : mid.work.k % 2 = 0 := by rw [wrote.k]; omega
    have read := segments_both pdma filled odd next fits reach (small piece (by simp)) wrote.reach true
    rw [if_pos rfl] at read
    refine ⟨0, txd', room, before, ?_⟩
    rw [descEnd_pdma pdma, txd']
    simp [here, read, segmentsFrom, mapped]
  | piece :: next :: pieces, w, w', m, size, addr, done, txd, room, odd, filled, fits, reach, small,
      step => by
    obtain ⟨addr', mid, mapped, wrote, rest⟩ := mapPiecesDesc_cons done
    obtain ⟨addr'', mid', mapped', wrote', rest⟩ := mapPiecesDesc_cons rest
    have even : piece.frag % 2 = 0 := step.1
    have odd' : next.frag % 2 = 1 := step.2.1
    obtain ⟨txd', before⟩ := wrote.same (by simp [TxSoc.newDesc, pdma, even]) txd room
    obtain ⟨txd'', room', before'⟩ := wrote'.new (by simp [TxSoc.newDesc, odd']) txd' room
    have filled' : FilledFirst soc addr'' next.size (mid'.desc (ring.slot (m + 1))) := by
      rw [wrote'.desc_pdma pdma, txd'', update_self]
      exact filledFirst_setup pdma (by rw [wrote.k]; omega)
    obtain ⟨n, end_, room_, frame, read⟩ := run_pdma pdma rest txd'' room'
      (by rw [wrote'.k, wrote.k]; omega) filled' (small next (by simp)) wrote'.reach
      (fun other member => small other (by simp [member])) (inStep_add_two.mp step.2.2)
    have here : w'.desc (ring.slot m) =
        setupTxDesc soc addr' piece.size w.work.k (w.desc (ring.slot m)) := by
      rw [frame m (by omega), before' m le_rfl, wrote.desc_pdma pdma, txd', update_self]
    have both := segments_both pdma filled odd (show 0 % 2 = 0 from rfl) fits reach
      (small piece (by simp)) wrote.reach false
    rw [if_neg (by simp)] at both
    have apart : ring.slot m ≠ w'.work.txd := by
      rw [end_]
      intro same
      have := ring.room_lt
      have := ring.slot_inj (by omega) (by omega) same
      omega
    have places : (List.range (n + 1 + 1)).map
        (fun d => descEnd soc ring.toTxRing true w' (ring.slot (m + d))) =
          descEnd soc ring.toTxRing true w' (ring.slot m) ::
            (List.range (n + 1)).map fun d =>
              descEnd soc ring.toTxRing true w' (ring.slot (m + 1 + d)) := by
      rw [List.range_succ_eq_map, List.map_cons, List.map_map]
      refine congrArg _ (List.map_congr_left fun d _ => ?_)
      simp only [Function.comp_apply]
      congr 2
      omega
    refine ⟨n + 1, by rw [end_]; congr 1; omega, by omega, ?_, ?_⟩
    · intro d low
      rw [frame d (by omega), before' d (by omega), before d low]
    · rw [places, List.flatMap_cons, read, descEnd_pdma pdma, update_of_ne apart, here,
        both, List.map_cons, List.map_cons, segmentsFrom, segmentsFrom, wrote'.k, wrote.k]
      simp [mapped, ← wrote.k, mapped']

theorem run_tails (pdma : soc.qdma = false) {w w' : DescWork}
    (done : mapPiecesDesc soc p ring.toTxRing call nrFrags pieces w = some (true, w')) (i : Nat) :
    SameTail (w.desc i) (w'.desc i) ∧
      (soc.netsys = .v1 → (w'.desc i).txd4 = (w.desc i).txd4) := by
  induction pieces generalizing w with
  | nil =>
    obtain rfl : w = w' := by simpa [mapPiecesDesc] using done
    exact ⟨.refl _, fun _ => rfl⟩
  | cons piece pieces ih =>
    obtain ⟨addr, mid, -, wrote, rest⟩ := mapPiecesDesc_cons done
    obtain ⟨tail, word⟩ := ih rest
    have one : SameTail (w.desc i) (mid.desc i) ∧
        (soc.netsys = .v1 → (mid.desc i).txd4 = (w.desc i).txd4) := by
      rw [wrote.desc_pdma pdma]
      by_cases here : i = mid.work.txd
      · subst here
        rw [update_self]
        exact ⟨sameTail_setup, fun netsys => setup_txd4 (by rw [netsys]; decide)⟩
      · rw [update_of_ne here]
        exact ⟨.refl _, fun _ => rfl⟩
    exact ⟨one.1.trans tail, fun netsys => (word netsys).trans (one.2 netsys)⟩

end Runs

end MetaFilogic.Eth
