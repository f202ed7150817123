import MetaFilogic.Eth.DmaClean

/-!
# What is mapped for the QDMA

The scratch memory of the QDMA is mapped and never unmapped, and nothing that follows undoes it.
A start that fails before that has only the memory of the scratch ring to give back.
-/

namespace MetaFilogic.Eth

open Function (update update_self update_of_ne update_eq_self)

/-- What `mtk_tx_clean` may release, when no buffer is in use. -/
structure TxSpared (Rel : Nat → Prop) (ring : TxRing) : Prop where
  buf : ring.array = none ∨ ring.buf = fun _ => .zero
  memory : ∀ m ∈ ring.memory, Rel m

section Spared

variable {Rel Unm : Nat → Prop}

theorem TxSpared.clean {soc : TxSoc} {ring : TxRing} {res : DmaRes} (spared : TxSpared Rel ring) :
    TxSpared Rel (mtkTxClean soc ring res).1 := by
  refine ⟨.inl (@mtkTxClean_gone soc ring res).1.1, fun m member => spared.memory m ?_⟩
  have dma : (mtkTxClean soc ring res).1.dma = none ∨
      (mtkTxClean soc ring res).1.dma = ring.dma := by
    have same : (cleanBufs soc ring res).1.dma = ring.dma := cleanBufs_fst.2.1
    simp only [mtkTxClean, same]
    split
    · exact .inl rfl
    · rename_i region there
      split
      · exact .inr there.symm
      · exact .inl rfl
  obtain ⟨⟨array, second, _⟩, _⟩ := @mtkTxClean_gone soc ring res
  rcases dma with gone | kept
  · simp [TxRing.memory, array, second, gone] at member
  · simp only [TxRing.memory, array, second, kept] at member
    simp only [TxRing.memory, List.mem_append]
    exact .inl (.inr (by simpa using member))

variable {ring : RxRing}

theorem RxSpared.clean {soc : RxSoc} {inSram : Bool} {res : DmaRes}
    (spared : RxSpared Rel Unm ring) :
    RxSpared Rel Unm (mtkRxClean soc inSram ring res).1 := by
  have data : RxSpared Rel Unm (cleanData soc ring res).1 := by
    simp only [cleanData]
    split
    · exact ⟨fun _ => by simp, fun none => absurd rfl none, spared.region⟩
    · exact spared
  simp only [mtkRxClean]
  split
  · exact data
  · split
    · exact data
    · exact ⟨fun none => absurd rfl none, fun _ none => absurd rfl none, by simp⟩

theorem RxGone.spared (gone : RxGone false ring) : RxSpared Rel Unm ring := by
  have none : ring.dma = none := by simpa [RxGone] using gone.2
  exact ⟨fun some => absurd none some, fun _ some => absurd none some, by simp [none]⟩

theorem RxGone.stuck {flag : Bool} (gone : RxGone flag ring) :
    RxSpared (fun _ => True) Unm ring := by
  refine ⟨fun _ _ _ => trivial, fun array dma => ?_, fun _ _ _ _ => trivial⟩
  rcases gone.1 with none | none
  · exact absurd none array
  · exact absurd none dma

end Spared

namespace DmaState

variable {soc : DmaSoc} {cfg : KernelConfig} {call : InitCall}

/-- What `mtk_dma_free` may release. -/
structure Spared (soc : DmaSoc) (Rel Unm : Nat → Prop) (s : DmaState) : Prop where
  scratch : ∀ region ∈ s.fqRing.scratchRing, ∀ m ∈ region.memory, Rel m
  heads : ∀ j < soc.fqHeads, ∀ m ∈ s.fqRing.scratchHead j, Rel m
  tx : ∀ i ∈ soc.txRings, TxSpared Rel (s.txRing i)
  rx : ∀ i ∈ soc.rxRings, RxSpared Rel Unm (s.rxRing i)
  rxQdma : RxSpared Rel Unm s.rxRingQdma

section Spared

variable {Rel Unm : Nat → Prop} {P : DmaRes → Prop}

theorem update_spared {α : Type*} {Q : α → Prop} {rings : List Nat} {f : Nat → α} {i : Nat} {x : α}
    (before : ∀ j ∈ rings, Q (f j)) (new : Q x) : ∀ j ∈ rings, Q (update f i x j) := by
  intro j member
  by_cases same : j = i
  · subst same
    rwa [update_self]
  · rw [update_of_ne same]
    exact before j member

/-- A property survives `mtk_dma_free` when that has nothing to take from it. -/
theorem Spared.free (drops : Drops Rel Unm P) :
    KeptByFree soc fun s => P s.res ∧ Spared soc Rel Unm s where
  scratch s kept := by
    obtain ⟨holds, spared⟩ := kept
    simp only [freeScratchRing]
    split
    · exact ⟨holds, spared⟩
    · split
      · exact ⟨holds, spared⟩
      · rename_i region there
        exact ⟨drops.freeRegion (spared.scratch region (by simp [there])) holds,
          by simp, spared.heads, spared.tx, spared.rx, spared.rxQdma⟩
  tx i member s kept := by
    obtain ⟨holds, spared⟩ := kept
    have ring := spared.tx i member
    refine ⟨drops.txClean (fun array => ?_) ring.memory holds, spared.scratch, spared.heads,
      update_spared spared.tx ring.clean, spared.rx, spared.rxQdma⟩
    rw [ring.buf.resolve_left array, unmapSlots_zero]
    exact holds
  rx inSram i member s kept := by
    obtain ⟨holds, spared⟩ := kept
    have ring := spared.rx i member
    exact ⟨drops.rxClean ring holds, spared.scratch, spared.heads, spared.tx,
      update_spared spared.rx ring.clean, spared.rxQdma⟩
  rxQdma s kept := by
    obtain ⟨holds, spared⟩ := kept
    exact ⟨drops.rxClean spared.rxQdma holds, spared.scratch, spared.heads, spared.tx, spared.rx,
      spared.rxQdma.clean⟩
  head j member s kept := by
    obtain ⟨holds, spared⟩ := kept
    refine ⟨?_, spared.scratch, fun i lt m there => ?_, spared.tx, spared.rx, spared.rxQdma⟩
    · simp only [freeHead]
      split
      · exact holds
      · rename_i head there
        exact drops.release _ _
          (spared.heads j (List.mem_range.mp member) head (by simp [there])) holds
    · by_cases same : i = j
      · simp [freeHead, same] at there
      · simp only [freeHead, update_of_ne same] at there
        exact spared.heads i lt m there

end Spared

/-! ## The QDMA -/

def Leaks (addr : DmaAddr) (memory : Nat) (res : DmaRes) : Prop :=
  (res.mapped addr = some memory ∨ res.fault = true) ∧ memory < res.next

section Leaks

variable {addr : DmaAddr} {memory : Nat}

theorem grows_leaks : DmaRes.Grows (Leaks addr memory) := by
  refine ⟨fun res leaks => ⟨leaks.1, Nat.lt_succ_of_lt leaks.2⟩, ?_⟩
  intro res bits addr' m res' leaks map
  obtain ⟨_, free, rfl⟩ := DmaRes.map_eq map
  refine ⟨leaks.1.imp_left fun there => ?_, leaks.2⟩
  have apart : addr ≠ addr' := by
    rintro rfl
    rw [free] at there
    cases there
  exact (update_of_ne apart ..).trans there

theorem drops_leaks : Drops (fun _ => True) (fun m => m ≠ memory) (Leaks addr memory) := by
  refine ⟨fun res m _ leaks => ?_, fun res addr' m apart mapped leaks => ?_, ?_⟩
  · simp only [DmaRes.release]
    split
    · exact leaks
    · exact ⟨.inr rfl, leaks.2⟩
  · refine ⟨leaks.1.imp_left fun there => ?_, leaks.2⟩
    have other : addr ≠ addr' := by
      rintro rfl
      exact apart (Option.some_inj.mp (mapped.symm.trans there))
    exact (update_of_ne other ..).trans there
  · exact fun res res' leaks next _ fault => ⟨.inr fault, next ▸ leaks.2⟩

def Stuck (soc : DmaSoc) (addr : DmaAddr) (memory : Nat) (s : DmaState) : Prop :=
  Leaks addr memory s.res ∧ Spared soc (fun _ => True) (fun m => m ≠ memory) s

theorem stuck_rx {ring : RxRing} {res : DmaRes} {ring' : RxRing} (leaks : Leaks addr memory res)
    (allocated : RxAllocated soc.rx ring res ring') :
    RxSpared (fun _ => True) (fun m => m ≠ memory) ring' := by
  refine ⟨fun _ _ _ => trivial, fun array _ i m there _ => ⟨trivial, ?_⟩, fun _ _ _ _ => trivial⟩
  have new := allocated.data.resolve_left array i m there
  exact Nat.ne_of_gt (Nat.lt_of_lt_of_le leaks.2 new)

theorem stuck_rings : KeptByRings soc cfg call (Stuck soc addr memory) where
  tx i _ s stuck p done := by
    obtain rfl := Option.some_inj.mp done
    obtain ⟨leaks, spared⟩ := stuck
    exact ⟨grows_leaks.txAlloc leaks, spared.scratch, spared.heads,
      update_spared spared.tx ⟨mtkTxAlloc_buf, fun _ _ => trivial⟩, spared.rx, spared.rxQdma⟩
  rx kind i _ s stuck p done := by
    obtain ⟨part, alloc, rfl⟩ := Option.map_eq_some_iff.mp done
    obtain ⟨leaks, spared⟩ := stuck
    exact ⟨grows_leaks.rxAlloc leaks alloc, spared.scratch, spared.heads, spared.tx,
      update_spared spared.rx (stuck_rx leaks (mtkRxAlloc_allocated alloc)), spared.rxQdma⟩
  rxQdma s stuck p done := by
    obtain ⟨part, alloc, rfl⟩ := Option.map_eq_some_iff.mp done
    obtain ⟨leaks, spared⟩ := stuck
    exact ⟨grows_leaks.rxAlloc leaks alloc, spared.scratch, spared.heads, spared.tx, spared.rx,
      stuck_rx leaks (mtkRxAlloc_allocated alloc)⟩

theorem Stuck.initHead {s : DmaState} (stuck : Stuck soc addr memory s) (j : Nat) :
    (initHead soc call j s).Keeps (Stuck soc addr memory) := by
  obtain ⟨leaks, spared⟩ := stuck
  have any : ∀ fqRing res, Leaks addr memory res →
      Stuck soc addr memory { s with fqRing := fqRing, res := res } := fun fqRing res leaks =>
    ⟨leaks, fun _ _ _ _ => trivial, fun _ _ _ _ => trivial, spared.tx, spared.rx, spared.rxQdma⟩
  intro p done
  simp only [DmaState.initHead] at done
  split at done
  · split at done
    · obtain rfl := Option.some_inj.mp done
      exact any _ _ (grows_leaks.alloc _ leaks)
    · obtain ⟨res, map, rfl⟩ := Option.map_eq_some_iff.mp done
      exact any _ _ (grows_leaks.map _ _ _ _ _ (grows_leaks.alloc _ leaks) map)
  · obtain rfl := Option.some_inj.mp done
    exact any _ _ leaks

end Leaks

/-- `mtk_init_fq_dma` fails before it has mapped anything. -/
def FqFails (soc : DmaSoc) (fq : FqCall) : Prop :=
  (soc.rx.hasSram && soc.fqInSram) = false ∧ fq.coherent = false ∨ fq.head 0 = false ∨
    fq.mapped 0 = none

theorem Clean.rx_gone {s : DmaState} {i : Nat} (clean : Clean soc s) (member : i ∈ soc.rxRings) :
    RxGone (s.rxRing i).inSram (s.rxRing i) ∨ RxGone false (s.rxRing i) := by
  rw [DmaSoc.rxRings, List.mem_cons, List.mem_append] at member
  rcases member with first | lro | rss
  · exact .inl (clean.rx i (by simp [first]))
  · exact .inr (clean.lro i lro)
  · exact .inl (clean.rx i (by simp [rss]))

theorem Part.andThen_ok {s : DmaState} {next : DmaState → Part} :
    Part.andThen (some (true, s)) next = next s :=
  rfl

def Part.Fails (Q : DmaState → Prop) (part : Part) : Prop :=
  ∀ p, part = some p → p.1 = false ∧ Q p.2

theorem Part.Fails.andThen {Q : DmaState → Prop} {part : Part} {next : DmaState → Part}
    (fails : part.Fails Q) : (part.andThen next).Fails Q := by
  intro p done
  obtain ⟨q, begun, rest⟩ := Option.bind_eq_some_iff.mp done
  rw [(fails q begun).1, if_neg Bool.false_ne_true] at rest
  obtain rfl := Option.some_inj.mp rest
  exact fails q begun

section Qdma

variable {s : DmaState}

theorem fqHeads_pos (qdma : soc.tx.qdma = true) : 0 < soc.fqHeads := by
  have pos := soc.fq_pos qdma
  rw [DmaSoc.fqHeads, MTK_FQ_DMA_LENGTH]
  omega

theorem range_fqHeads (qdma : soc.tx.qdma = true) : List.range soc.fqHeads =
    0 :: (List.range (soc.fqHeads - 1)).map Nat.succ := by
  rw [← List.range_succ_eq_map, Nat.sub_add_cancel (fqHeads_pos qdma)]

theorem allocScratchRing_rings : (allocScratchRing soc call s).2 =
    { s with
      fqRing := { (allocScratchRing soc call s).2.fqRing with
        scratchHead := s.fqRing.scratchHead }
      res := (allocScratchRing soc call s).2.res } := by
  simp only [allocScratchRing]
  split_ifs <;> rfl

theorem stuck_init {addr : DmaAddr} (clean : Clean soc s) (qdma : soc.tx.qdma = true)
    (idle : call.busy = false) (mapped : call.fq.mapped 0 = some addr)
    (late : ¬FqFails soc call.fq) :
    (mtkDmaInit soc cfg call s).Keeps fun s' => s.res.mapped addr = none ∧
      Stuck soc addr (allocScratchRing soc call s).2.res.next s' := by
  rw [FqFails, not_or, not_or] at late
  obtain ⟨place, head, _⟩ := late
  have begun : (allocScratchRing soc call s).1 = true ∧
      (allocScratchRing soc call s).2.res.mapped = s.res.mapped := by
    simp only [allocScratchRing]
    split_ifs with sram coherent
    · exact ⟨rfl, rfl⟩
    · exact ⟨rfl, rfl⟩
    · exact absurd ⟨by simpa using sram, by simpa using coherent⟩ place
  have rings : (allocScratchRing soc call s).2 = _ := allocScratchRing_rings
  generalize first : allocScratchRing soc call s = part at begun rings
  obtain ⟨ok, s₁⟩ := part
  obtain ⟨rfl, same⟩ := begun
  dsimp only at same rings ⊢
  have here : (initHead soc call 0 s₁).Keeps fun s' => s.res.mapped addr = none ∧
      Stuck soc addr s₁.res.next s' := by
    intro p done
    simp only [DmaState.initHead, mapped] at done
    rw [if_pos (by simpa using head)] at done
    obtain ⟨res, map, rfl⟩ := Option.map_eq_some_iff.mp done
    obtain ⟨_, free, rfl⟩ := DmaRes.map_eq map
    refine ⟨same ▸ free, ⟨.inl (update_self ..), Nat.lt_succ_self _⟩,
      fun _ _ _ _ => trivial, fun _ _ _ _ => trivial, fun i member => ?_, fun i member => ?_, ?_⟩
    · rw [rings]
      exact ⟨.inl (clean.tx i member).1, fun _ _ => trivial⟩
    · rw [rings]
      rcases clean.rx_gone member with gone | gone
      · exact gone.stuck
      · exact gone.stuck
    · rw [rings]
      exact clean.rxQdma.stuck
  rw [mtkDmaInit_eq, idle, if_neg Bool.false_ne_true, if_pos qdma]
  refine Part.Keeps.andThen ?_ fun s' stuck p done =>
    ⟨stuck.1, stuck_rings.initRings stuck.2 p done⟩
  rw [mtkInitFqDma, first, Part.andThen_ok, range_fqHeads qdma]
  refine Part.Keeps.andThen here fun s' stuck => ?_
  refine forRings_keeps (fun j _ s stuck p done => ?_) stuck
  exact ⟨stuck.1, stuck.2.initHead j p done⟩

variable {base : DmaRes}

/-- A start whose mapping stays has not given everything back. -/
theorem not_restored_of_stuck {addr : DmaAddr} {memory : Nat} {s : DmaState}
    (stuck : Stuck soc addr memory s) (free : base.mapped addr = none)
    (sound : base.fault = false) :
    ¬base.Restored (mtkDmaFree soc s).res := by
  intro restored
  obtain ⟨⟨there | fault, _⟩, _⟩ := (Spared.free drops_leaks).mtkDmaFree stuck
  · rw [restored.mapped, free] at there
    cases there
  · rw [restored.fault, sound] at fault
    cases fault

structure RingsGone (soc : DmaSoc) (s : DmaState) : Prop where
  tx : ∀ i ∈ soc.txRings, TxGone (s.txRing i)
  rx : ∀ i ∈ 0 :: soc.rssRings, RxGone (s.rxRing i).inSram (s.rxRing i)
  lro : ∀ i ∈ soc.lroRings, RxGone false (s.rxRing i)
  rxQdma : RxGone false s.rxRingQdma

theorem Clean.ringsGone (clean : Clean soc s) : RingsGone soc s :=
  ⟨clean.tx, clean.rx, clean.lro, clean.rxQdma⟩

theorem foldl_same {f : DmaState → Nat → DmaState} {rings : List Nat}
    (each : ∀ i ∈ rings, f s i = s) : rings.foldl f s = s :=
  foldl_keeps (Q := fun s' => s' = s) (fun i member s' same => by rw [same, each i member]) rfl

theorem txClean_same {i : Nat} (gone : TxGone (s.txRing i)) : s.txClean soc i = s := by
  rw [txClean, gone.clean, update_eq_self]

theorem rxClean_same {inSram : RxRing → Bool} {i : Nat}
    (gone : RxGone (inSram (s.rxRing i)) (s.rxRing i)) : rxClean soc inSram s i = s := by
  rw [rxClean, gone.clean, update_eq_self]

theorem rxCleanQdma_same (gone : RxGone false s.rxRingQdma) : s.rxCleanQdma soc = s := by
  rw [rxCleanQdma, gone.clean]

theorem RingsGone.free (gone : RingsGone soc s) : freeRss soc s = s.freeScratchRing := by
  have tx : freeTx soc s = s.freeScratchRing := by
    refine foldl_same fun i member => txClean_same ?_
    rw [freeScratchRing_rings.1]
    exact gone.tx i member
  have rings := freeScratchRing_rings (s := s)
  have rx : freeRx soc s = s.freeScratchRing := by
    rw [freeRx, tx, rxClean_same, rxCleanQdma_same]
    · rw [rings.2.2]
      exact gone.rxQdma
    · rw [rings.2.1]
      exact gone.rx 0 (by simp)
  have lro : freeLro soc s = s.freeScratchRing := by
    rw [freeLro, rx]
    refine foldl_same fun i member => rxClean_same ?_
    rw [rings.2.1]
    exact gone.lro i member
  rw [freeRss, lro]
  refine foldl_same fun i member => rxClean_same ?_
  rw [rings.2.1]
  exact gone.rx i (by simp [member])

theorem freeHead_same {j : Nat} (none : s.fqRing.scratchHead j = none) : s.freeHead j = s := by
  simp only [freeHead, none]
  rw [← none, update_eq_self]

def FqRing.memory (fq : FqRing) : List Nat :=
  if fq.inSram then [] else fq.scratchRing.toList.flatMap DmaRegion.memory

theorem freeScratchRing_above {own : List Nat} {maps : List (DmaAddr × Nat)}
    (above : base.Above s.res (FqRing.memory s.fqRing ++ own) maps)
    (place : s.fqRing.inSram = true ∨ s.fqRing.scratchRing ≠ some .sram) :
    base.Above s.freeScratchRing.res own maps := by
  cases sram : s.fqRing.inSram with
  | true => simpa [freeScratchRing, FqRing.memory, sram] using above
  | false =>
    have place := place.resolve_left (by simp [sram])
    cases there : s.fqRing.scratchRing with
    | none => simpa [freeScratchRing, FqRing.memory, sram, there] using above
    | some region =>
      cases region with
      | sram => exact absurd there place
      | coherent memory =>
        have above : base.Above s.res (memory :: own) maps := by
          simpa [FqRing.memory, sram, there, DmaRegion.memory] using above
        simpa [freeScratchRing, sram, there, DmaRes.freeRegion] using above.release

theorem freeHead_above {own : List Nat} {maps : List (DmaAddr × Nat)} {j : Nat}
    (above : base.Above s.res ((s.fqRing.scratchHead j).toList ++ own) maps) :
    base.Above (s.freeHead j).res own maps := by
  cases there : s.fqRing.scratchHead j with
  | none => simpa [freeHead, there] using above
  | some head =>
    have above : base.Above s.res (head :: own) maps := by simpa [there] using above
    simpa [freeHead, there] using above.release

/-- A start that fails before anything is mapped has only memory of the scratch ring. -/
structure Early (soc : DmaSoc) (base : DmaRes) (s : DmaState) : Prop where
  gone : RingsGone soc s
  above : base.Above s.res
    (FqRing.memory s.fqRing ++ (s.fqRing.scratchHead 0).toList) []
  place : s.fqRing.inSram = true ∨ s.fqRing.scratchRing ≠ some .sram
  heads : ∀ j < soc.fqHeads, j ≠ 0 → s.fqRing.scratchHead j = none

theorem Early.restored (early : Early soc base s) (qdma : soc.tx.qdma = true) :
    base.Restored (mtkDmaFree soc s).res := by
  have scratch := freeScratchRing_above early.above early.place
  rw [← freeScratchRing_head (s := s),
    ← List.append_nil (s.freeScratchRing.fqRing.scratchHead 0).toList] at scratch
  have above := freeHead_above scratch
  rw [mtkDmaFree_eq, early.gone.free, range_fqHeads qdma, List.foldl_cons, foldl_same]
  · exact above.restored
  · intro j member
    obtain ⟨k, inside, rfl⟩ := List.mem_map.mp member
    have lt : k.succ < soc.fqHeads := by
      have := List.mem_range.mp inside
      omega
    refine freeHead_same ?_
    rw [freeHead_of_ne (Nat.succ_ne_zero k), freeScratchRing_head]
    exact early.heads _ lt (Nat.succ_ne_zero k)

theorem allocScratchRing_early (clean : Clean soc s) (qdma : soc.tx.qdma = true) :
    Early soc s.res (allocScratchRing soc call s).2 := by
  have fresh := DmaRes.Above.refl clean.flags.fresh
  have head := clean.heads 0 (fqHeads_pos qdma)
  simp only [allocScratchRing]
  split_ifs with sram coherent
  · refine ⟨⟨clean.tx, clean.rx, clean.lro, clean.rxQdma⟩, ?_, .inl rfl,
      fun j lt _ => clean.heads j lt⟩
    simpa [FqRing.memory, head] using fresh
  · have outside : s.fqRing.inSram = false := by
      rw [Bool.eq_false_iff]
      exact fun inside => sram (by simp [clean.flags.fq inside])
    refine ⟨⟨clean.tx, clean.rx, clean.lro, clean.rxQdma⟩, ?_, .inr (by simp),
      fun j lt _ => clean.heads j lt⟩
    simpa [FqRing.memory, head, outside, DmaRegion.memory] using fresh.alloc
  · refine ⟨⟨clean.tx, clean.rx, clean.lro, clean.rxQdma⟩, ?_, .inr (by simp),
      fun j lt _ => clean.heads j lt⟩
    simpa [FqRing.memory, head] using fresh

theorem initHead_early (early : Early soc base s) (empty : s.fqRing.scratchHead 0 = none)
    (fails : call.fq.head 0 = false ∨ call.fq.mapped 0 = none) :
    (initHead soc call 0 s).Fails (Early soc base) := by
  intro p done
  have heads : ∀ (head : Option Nat), ∀ j < soc.fqHeads, j ≠ 0 →
      update s.fqRing.scratchHead 0 head j = none := by
    intro head j lt apart
    rw [update_of_ne apart]
    exact early.heads j lt apart
  have above := early.above
  rw [empty, Option.toList_none, List.append_nil] at above
  simp only [initHead] at done
  split at done
  · rename_i allocated
    rw [fails.resolve_left (by simp [allocated])] at done
    obtain rfl := Option.some_inj.mp done
    refine ⟨rfl, ⟨early.gone.tx, early.gone.rx, early.gone.lro, early.gone.rxQdma⟩, ?_, early.place,
      heads _⟩
    simpa [FqRing.memory] using above.alloc
  · obtain rfl := Option.some_inj.mp done
    refine ⟨rfl, ⟨early.gone.tx, early.gone.rx, early.gone.lro, early.gone.rxQdma⟩, ?_, early.place,
      heads _⟩
    simpa [FqRing.memory] using above

theorem early_init (clean : Clean soc s) (qdma : soc.tx.qdma = true) (idle : call.busy = false)
    (fails : FqFails soc call.fq) : (mtkDmaInit soc cfg call s).Keeps (Early soc s.res) := by
  have early : Early soc s.res (allocScratchRing soc call s).2 :=
    allocScratchRing_early clean qdma
  have rings : (allocScratchRing soc call s).2 = _ := allocScratchRing_rings
  rw [mtkDmaInit_eq, idle, if_neg Bool.false_ne_true, if_pos qdma]
  suffices failed : (mtkInitFqDma soc call s).Fails (Early soc s.res) from
    fun p done => (failed.andThen p done).2
  rw [mtkInitFqDma]
  cases begun : (allocScratchRing soc call s).1 with
  | false =>
    refine Part.Fails.andThen fun p done => ?_
    obtain rfl := Option.some_inj.mp done
    exact ⟨begun, early⟩
  | true =>
    have empty : (allocScratchRing soc call s).2.fqRing.scratchHead 0 = none := by
      rw [rings]
      exact clean.heads 0 (fqHeads_pos qdma)
    have later : call.fq.head 0 = false ∨ call.fq.mapped 0 = none := by
      refine fails.resolve_left fun ⟨place, coherent⟩ => ?_
      simp [allocScratchRing, place, coherent] at begun
    have part : allocScratchRing soc call s = (true, (allocScratchRing soc call s).2) :=
      Prod.ext begun rfl
    rw [part, Part.andThen_ok, range_fqHeads qdma]
    exact Part.Fails.andThen (initHead_early early empty later)

end Qdma

end DmaState

end MetaFilogic.Eth
