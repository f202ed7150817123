import MetaFilogic.Eth.DmaLedger

/-!
# Everything is taken down between runs

`mtk_dma_free` leaves no ring with anything to release, whatever it finds, so that a start finds
the device as it was before the first one.
-/

namespace MetaFilogic.Eth

open Function (update_self update_of_ne)

namespace DmaSoc

variable (soc : DmaSoc)

def rxRings : List Nat := 0 :: (soc.lroRings ++ soc.rssRings)

theorem zero_mem : 0 ∈ soc.rxRings := by simp [rxRings]

variable {soc} {i : Nat}

theorem lro_mem (member : i ∈ soc.lroRings) : i ∈ soc.rxRings := by simp [rxRings, member]

theorem rss_mem (member : i ∈ soc.rssRings) : i ∈ soc.rxRings := by simp [rxRings, member]

end DmaSoc

namespace DmaState

variable {soc : DmaSoc} {cfg : KernelConfig} {call : InitCall}

/-! ## Parts of a start -/

def Part.Keeps (Q : DmaState → Prop) (part : Part) : Prop := ∀ p, part = some p → Q p.2

section Keeps

variable {Q : DmaState → Prop}

theorem Part.Keeps.andThen {part : Part} {next : DmaState → Part} (first : part.Keeps Q)
    (second : ∀ s, Q s → (next s).Keeps Q) : (part.andThen next).Keeps Q := by
  intro p done
  obtain ⟨q, begun, rest⟩ := Option.bind_eq_some_iff.mp done
  split at rest
  · exact second _ (first q begun) p rest
  · obtain rfl := Option.some_inj.mp rest
    exact first q begun

theorem Part.keeps_some {ok : Bool} {s : DmaState} (holds : Q s) : Part.Keeps Q (some (ok, s)) := by
  intro p done
  obtain rfl := Option.some_inj.mp done
  exact holds

theorem forRings_keeps {alloc : Nat → DmaState → Part} {rings : List Nat} {s : DmaState}
    (each : ∀ i ∈ rings, ∀ s, Q s → (alloc i s).Keeps Q) (holds : Q s) :
    (forRings alloc rings s).Keeps Q := by
  induction rings generalizing s with
  | nil => exact Part.keeps_some holds
  | cons i rings ih =>
    refine (each i (by simp) s holds).andThen fun s holds => ?_
    exact ih (fun j member => each j (by simp [member])) holds

theorem foldl_keeps {f : DmaState → Nat → DmaState} {rings : List Nat} {s : DmaState}
    (each : ∀ i ∈ rings, ∀ s, Q s → Q (f s i)) (holds : Q s) : Q (rings.foldl f s) := by
  induction rings generalizing s with
  | nil => exact holds
  | cons i rings ih =>
    exact ih (fun j member => each j (by simp [member])) (each i (by simp) s holds)

theorem foldl_establishes {f : DmaState → Nat → DmaState} {rings : List Nat} {s : DmaState}
    {i : Nat} (each : ∀ j ∈ rings, ∀ s, Q s → Q (f s j)) (here : ∀ s, Q (f s i))
    (member : i ∈ rings) : Q (rings.foldl f s) := by
  induction rings generalizing s with
  | nil => cases member
  | cons j rings ih =>
    have rest : ∀ k ∈ rings, ∀ s, Q s → Q (f s k) := fun k member => each k (by simp [member])
    rcases List.mem_cons.mp member with rfl | member
    · exact foldl_keeps (s := f s i) rest (here s)
    · exact ih rest member

/-- What the parts of `mtk_dma_init` behind the scratch memory keep. -/
structure KeptByRings (soc : DmaSoc) (cfg : KernelConfig) (call : InitCall)
    (Q : DmaState → Prop) : Prop where
  tx : ∀ i ∈ soc.txRings, ∀ s, Q s → (txAlloc soc call i s).Keeps Q
  rx : ∀ flags, ∀ i ∈ soc.rxRings, ∀ s, Q s → (rxAlloc soc cfg call flags i s).Keeps Q
  rxQdma : ∀ s, Q s → (rxAllocQdma soc cfg call s).Keeps Q

/-- The parts of `mtk_dma_init` behind the scratch memory. -/
def initRings (soc : DmaSoc) (cfg : KernelConfig) (call : InitCall) (s : DmaState) : Part :=
  Part.andThen (forRings (txAlloc soc call) soc.txRings s) fun s =>
  Part.andThen (if soc.tx.qdma then rxAllocQdma soc cfg call s else some (true, s)) fun s =>
  Part.andThen (rxAlloc soc cfg call .normal 0 s) fun s =>
  Part.andThen (forRings (rxAlloc soc cfg call .hwlro) soc.lroRings s) fun s =>
    forRings (rxAlloc soc cfg call .normal) soc.rssRings s

theorem mtkDmaInit_eq {s : DmaState} : mtkDmaInit soc cfg call s =
    if call.busy then some (false, s)
    else Part.andThen (if soc.tx.qdma then mtkInitFqDma soc call s else some (true, s))
      (initRings soc cfg call) :=
  rfl

theorem KeptByRings.initRings (kept : KeptByRings soc cfg call Q) {s : DmaState} (holds : Q s) :
    (initRings soc cfg call s).Keeps Q := by
  refine (forRings_keeps kept.tx holds).andThen fun s holds => ?_
  refine Part.Keeps.andThen ?_ fun s holds => ?_
  · split
    · exact kept.rxQdma s holds
    · exact Part.keeps_some holds
  refine (kept.rx _ 0 soc.zero_mem s holds).andThen fun s holds => ?_
  refine (forRings_keeps (fun i member => kept.rx _ i (soc.lro_mem member)) holds).andThen
    fun s holds => ?_
  exact forRings_keeps (fun i member => kept.rx _ i (soc.rss_mem member)) holds

/-- What the parts of `mtk_dma_free` keep. -/
structure KeptByFree (soc : DmaSoc) (Q : DmaState → Prop) : Prop where
  scratch : ∀ s, Q s → Q s.freeScratchRing
  tx : ∀ i ∈ soc.txRings, ∀ s, Q s → Q (s.txClean soc i)
  rx : ∀ inSram, ∀ i ∈ soc.rxRings, ∀ s, Q s → Q (rxClean soc inSram s i)
  rxQdma : ∀ s, Q s → Q (s.rxCleanQdma soc)
  head : ∀ j ∈ List.range soc.fqHeads, ∀ s, Q s → Q (s.freeHead j)

section Stages

variable (soc : DmaSoc) (s : DmaState)

/-- `mtk_dma_free` up to the transmit rings. -/
def freeTx : DmaState := soc.txRings.foldl (txClean soc) s.freeScratchRing

/-- `mtk_dma_free` up to the first receive rings. -/
def freeRx : DmaState := rxCleanQdma soc (rxClean soc RxRing.inSram (freeTx soc s) 0)

/-- `mtk_dma_free` up to the rings of the LRO. -/
def freeLro : DmaState := soc.lroRings.foldl (rxClean soc fun _ => false) (freeRx soc s)

/-- `mtk_dma_free` up to the rings of the RSS. -/
def freeRss : DmaState := soc.rssRings.foldl (rxClean soc RxRing.inSram) (freeLro soc s)

theorem mtkDmaFree_eq :
    mtkDmaFree soc s = (List.range soc.fqHeads).foldl freeHead (freeRss soc s) :=
  rfl

end Stages

namespace KeptByFree

variable {s : DmaState} (kept : KeptByFree soc Q)

include kept

theorem afterRss (holds : Q (freeRss soc s)) : Q (mtkDmaFree soc s) := foldl_keeps kept.head holds

theorem afterLro (holds : Q (freeLro soc s)) : Q (mtkDmaFree soc s) :=
  kept.afterRss (foldl_keeps (fun i member => kept.rx _ i (soc.rss_mem member)) holds)

theorem afterRx (holds : Q (freeRx soc s)) : Q (mtkDmaFree soc s) :=
  kept.afterLro (foldl_keeps (fun i member => kept.rx _ i (soc.lro_mem member)) holds)

theorem afterTx (holds : Q (freeTx soc s)) : Q (mtkDmaFree soc s) :=
  kept.afterRx (kept.rxQdma _ (kept.rx _ 0 soc.zero_mem _ holds))

theorem afterScratch (holds : Q s.freeScratchRing) : Q (mtkDmaFree soc s) :=
  kept.afterTx (foldl_keeps kept.tx holds)

theorem mtkDmaFree (holds : Q s) : Q (mtkDmaFree soc s) := kept.afterScratch (kept.scratch s holds)

end KeptByFree

end Keeps

/-! ## Between runs -/

structure Flags (soc : DmaSoc) (s : DmaState) : Prop where
  fq : s.fqRing.inSram = true → soc.rx.hasSram = true ∧ soc.fqInSram = true
  tx : ∀ i, (s.txRing i).inSram = true → soc.tx.inSram = true
  rx : ∀ i, (s.rxRing i).inSram = true → soc.rx.hasSram = true
  fresh : Fresh s.res

theorem mtkTxAlloc_inSram {soc : TxSoc} {call : TxAllocCall} {ring : TxRing} {res : DmaRes}
    (there : (mtkTxAlloc soc call ring res).2.1.inSram = true) :
    ring.inSram = true ∨ soc.inSram = true := by
  simp only [mtkTxAlloc, allocTxRegion, allocPdmaRegion, TxRing.setUp] at there
  cases sram : soc.inSram with
  | true => exact .inr rfl
  | false =>
    refine .inl ?_
    simp only [sram, Bool.false_eq_true, if_false] at there
    split_ifs at there <;> exact there

theorem Flags.rings : KeptByRings soc cfg call (Flags soc) where
  tx i _ s flags p done := by
    obtain rfl := Option.some_inj.mp done
    refine ⟨flags.fq, fun j there => ?_, flags.rx, grows_fresh.txAlloc flags.fresh⟩
    by_cases same : j = i
    · subst same
      simp only [update_self] at there
      rcases mtkTxAlloc_inSram there with old | new
      · exact flags.tx j old
      · exact new
    · simp only [update_of_ne same] at there
      exact flags.tx j there
  rx kind i _ s flags p done := by
    obtain ⟨part, alloc, rfl⟩ := Option.map_eq_some_iff.mp done
    refine ⟨flags.fq, flags.tx, fun j there => ?_, grows_fresh.rxAlloc flags.fresh alloc⟩
    by_cases same : j = i
    · subst same
      simp only [update_self] at there
      rcases (mtkRxAlloc_allocated alloc).inSram there with old | new
      · exact flags.rx j old
      · exact new
    · simp only [update_of_ne same] at there
      exact flags.rx j there
  rxQdma s flags p done := by
    obtain ⟨part, alloc, rfl⟩ := Option.map_eq_some_iff.mp done
    exact ⟨flags.fq, flags.tx, flags.rx, grows_fresh.rxAlloc flags.fresh alloc⟩

theorem Flags.initHead {s : DmaState} (flags : Flags soc s) (j : Nat) :
    (initHead soc call j s).Keeps (Flags soc) := by
  intro p done
  simp only [DmaState.initHead] at done
  split at done
  · split at done
    · obtain rfl := Option.some_inj.mp done
      exact ⟨flags.fq, flags.tx, flags.rx, grows_fresh.alloc _ flags.fresh⟩
    · obtain ⟨res, map, rfl⟩ := Option.map_eq_some_iff.mp done
      exact ⟨flags.fq, flags.tx, flags.rx,
        grows_fresh.map _ _ _ _ _ (grows_fresh.alloc _ flags.fresh) map⟩
  · obtain rfl := Option.some_inj.mp done
    exact ⟨flags.fq, flags.tx, flags.rx, flags.fresh⟩

theorem Flags.allocScratchRing {s : DmaState} (flags : Flags soc s) :
    Flags soc (allocScratchRing soc call s).2 := by
  simp only [DmaState.allocScratchRing]
  split_ifs with place
  · exact ⟨fun _ => by simpa using place, flags.tx, flags.rx, flags.fresh⟩
  · exact ⟨flags.fq, flags.tx, flags.rx, grows_fresh.alloc _ flags.fresh⟩
  · exact ⟨flags.fq, flags.tx, flags.rx, flags.fresh⟩

theorem Flags.init {s : DmaState} (flags : Flags soc s) :
    (mtkDmaInit soc cfg call s).Keeps (Flags soc) := by
  rw [mtkDmaInit_eq]
  split
  · exact Part.keeps_some flags
  · refine Part.Keeps.andThen ?_ fun s flags => Flags.rings.initRings flags
    split
    · refine Part.Keeps.andThen (Part.keeps_some flags.allocScratchRing) fun s flags => ?_
      exact forRings_keeps (fun j _ s flags => flags.initHead j) flags
    · exact Part.keeps_some flags

theorem Flags.free : KeptByFree soc (Flags soc) where
  scratch s flags := by
    simp only [freeScratchRing]
    split
    · exact flags
    · split
      · exact flags
      · exact ⟨flags.fq, flags.tx, flags.rx,
          drops_fresh.freeRegion (fun _ _ => trivial) flags.fresh⟩
  tx i _ s flags := by
    refine ⟨flags.fq, fun j there => ?_, flags.rx,
      drops_fresh.txClean (fun _ => fresh_unmapSlots flags.fresh) (fun _ _ => trivial) flags.fresh⟩
    by_cases same : j = i
    · subst same
      simp only [txClean, update_self, mtkTxClean_gone.2] at there
      exact flags.tx j there
    · simp only [txClean, update_of_ne same] at there
      exact flags.tx j there
  rx inSram i _ s flags := by
    refine ⟨flags.fq, flags.tx, fun j there => ?_, drops_fresh.rxClean spared_all flags.fresh⟩
    by_cases same : j = i
    · subst same
      simp only [rxClean, update_self, mtkRxClean_inSram] at there
      exact flags.rx j there
    · simp only [rxClean, update_of_ne same] at there
      exact flags.rx j there
  rxQdma s flags :=
    ⟨flags.fq, flags.tx, flags.rx, drops_fresh.rxClean spared_all flags.fresh⟩
  head j _ s flags := by
    refine ⟨flags.fq, flags.tx, flags.rx, ?_⟩
    simp only [freeHead]
    split
    · exact flags.fresh
    · exact drops_fresh.release _ _ trivial flags.fresh

theorem Flags.inUse {s s' : DmaState} (flags : Flags soc s) (inUse : InUse s s') :
    Flags soc s' := by
  refine ⟨?_, fun i there => ?_, fun i there => ?_, inUse.fresh⟩
  · rw [inUse.fqRing]
    exact flags.fq
  · rw [inUse.tx i] at there
    exact flags.tx i there
  · rw [inUse.rx i] at there
    exact flags.rx i there

structure Clean (soc : DmaSoc) (s : DmaState) : Prop where
  flags : Flags soc s
  scratch : s.fqRing.scratchRing = none ∨ s.fqRing.inSram = true
  heads : ∀ j < soc.fqHeads, s.fqRing.scratchHead j = none
  tx : ∀ i ∈ soc.txRings, TxGone (s.txRing i)
  rx : ∀ i ∈ 0 :: soc.rssRings, RxGone (s.rxRing i).inSram (s.rxRing i)
  lro : ∀ i ∈ soc.lroRings, RxGone false (s.rxRing i)
  rxQdma : RxGone false s.rxRingQdma

variable {j : Nat}

theorem txClean_of_ne {s : DmaState} {i : Nat} (apart : j ≠ i) :
    (s.txClean soc i).txRing j = s.txRing j :=
  update_of_ne apart ..

theorem rxClean_of_ne {inSram : RxRing → Bool} {s : DmaState} {i : Nat} (apart : j ≠ i) :
    (rxClean soc inSram s i).rxRing j = s.rxRing j :=
  update_of_ne apart ..

theorem txClean_self {s : DmaState} {i : Nat} : TxGone ((s.txClean soc i).txRing i) := by
  simp only [txClean, update_self]
  exact mtkTxClean_gone.1

theorem rxClean_self {s : DmaState} {i : Nat} :
    RxGone ((rxClean soc RxRing.inSram s i).rxRing i).inSram
      ((rxClean soc RxRing.inSram s i).rxRing i) := by
  simp only [rxClean, update_self, mtkRxClean_inSram]
  exact mtkRxClean_gone

theorem rxClean_zero {s : DmaState} {i : Nat} :
    RxGone false ((rxClean soc (fun _ => false) s i).rxRing i) := by
  simp only [rxClean, update_self]
  exact mtkRxClean_gone

theorem freeHead_self {s : DmaState} : (s.freeHead j).fqRing.scratchHead j = none :=
  update_self ..

theorem freeHead_of_ne {s : DmaState} {i : Nat} (apart : i ≠ j) :
    (s.freeHead j).fqRing.scratchHead i = s.fqRing.scratchHead i :=
  update_of_ne apart ..

theorem freeScratchRing_gone {s : DmaState} :
    s.freeScratchRing.fqRing.scratchRing = none ∨ s.freeScratchRing.fqRing.inSram = true := by
  simp only [freeScratchRing]
  split
  · rename_i sram
    exact .inr sram
  · split
    · rename_i none
      exact .inl none
    · exact .inl rfl

theorem kept_scratch : KeptByFree soc fun s =>
    s.fqRing.scratchRing = none ∨ s.fqRing.inSram = true where
  scratch _ _ := freeScratchRing_gone
  tx _ _ _ := id
  rx _ _ _ _ := id
  rxQdma _ := id
  head _ _ _ := id

theorem freeScratchRing_head {s : DmaState} :
    s.freeScratchRing.fqRing.scratchHead j = s.fqRing.scratchHead j := by
  simp only [freeScratchRing]
  split
  · rfl
  · split <;> rfl

theorem freeScratchRing_rings {s : DmaState} : s.freeScratchRing.txRing = s.txRing ∧
    s.freeScratchRing.rxRing = s.rxRing ∧ s.freeScratchRing.rxRingQdma = s.rxRingQdma := by
  simp only [freeScratchRing]
  split
  · exact ⟨rfl, rfl, rfl⟩
  · split <;> exact ⟨rfl, rfl, rfl⟩

theorem kept_head (soc : DmaSoc) (j : Nat) :
    KeptByFree soc fun s => s.fqRing.scratchHead j = none where
  scratch _ none := freeScratchRing_head.trans none
  tx _ _ _ := id
  rx _ _ _ _ := id
  rxQdma _ := id
  head i _ s none := by
    by_cases same : j = i
    · subst same
      exact freeHead_self
    · exact (freeHead_of_ne same).trans none

theorem kept_tx (i : Nat) : KeptByFree soc fun s => TxGone (s.txRing i) where
  scratch s gone := by rwa [freeScratchRing_rings.1]
  tx j _ s gone := by
    by_cases same : i = j
    · subst same
      exact txClean_self
    · rwa [txClean_of_ne same]
  rx _ _ _ _ := id
  rxQdma _ := id
  head _ _ _ := id

theorem kept_rx (inSram : Bool) (i : Nat) :
    KeptByFree soc fun s => RxGone inSram (s.rxRing i) where
  scratch s gone := by rwa [freeScratchRing_rings.2.1]
  tx _ _ _ := id
  rx flag j _ s gone := by
    by_cases same : i = j
    · subst same
      simp only [rxClean, update_self]
      exact gone.kept
    · rwa [rxClean_of_ne same]
  rxQdma _ := id
  head _ _ _ := id

theorem kept_rxQdma : KeptByFree soc fun s => RxGone false s.rxRingQdma where
  scratch s gone := by rwa [freeScratchRing_rings.2.2]
  tx _ _ _ := id
  rx _ _ _ _ := id
  rxQdma _ _ := mtkRxClean_gone
  head _ _ _ := id

/-- `mtk_dma_free` takes everything down. -/
theorem clean_mtkDmaFree {s : DmaState} (flags : Flags soc s) : Clean soc (mtkDmaFree soc s) where
  flags := Flags.free.mtkDmaFree flags
  scratch := kept_scratch.afterScratch freeScratchRing_gone
  heads j lt :=
    foldl_establishes (kept_head soc j).head (fun _ => freeHead_self) (List.mem_range.mpr lt)
  tx i member :=
    (kept_tx i).afterTx (foldl_establishes (kept_tx i).tx (fun _ => txClean_self) member)
  rx i member := by
    have kept : KeptByFree soc fun s => RxGone (s.rxRing i).inSram (s.rxRing i) := by
      refine ⟨fun s gone => ?_, fun _ _ _ => id, fun flag j _ s gone => ?_, fun _ => id,
        fun _ _ _ => id⟩
      · rwa [freeScratchRing_rings.2.1]
      · by_cases same : i = j
        · subst same
          simp only [rxClean, update_self, mtkRxClean_inSram]
          exact gone.kept
        · rwa [rxClean_of_ne same]
    rcases List.mem_cons.mp member with rfl | member
    · exact kept.afterRx (kept.rxQdma _ rxClean_self)
    · exact kept.afterRss (foldl_establishes (fun j rss => kept.rx _ j (soc.rss_mem rss))
        (fun _ => rxClean_self) member)
  lro i member :=
    (kept_rx false i).afterLro
      (foldl_establishes (fun j lro => (kept_rx false i).rx _ j (soc.lro_mem lro))
        (fun _ => rxClean_zero) member)
  rxQdma := kept_rxQdma.afterRx mtkRxClean_gone

theorem Clean.boot {res : DmaRes} (fresh : Fresh res) : Clean soc (boot res) where
  flags := ⟨nofun, fun _ => nofun, fun _ => nofun, fresh⟩
  scratch := .inl rfl
  heads _ _ := rfl
  tx _ _ := ⟨rfl, rfl, .inl rfl⟩
  rx _ _ := ⟨.inl rfl, .inl rfl⟩
  lro _ _ := ⟨.inl rfl, .inl rfl⟩
  rxQdma := ⟨.inl rfl, .inl rfl⟩

theorem Idle.clean {s : DmaState} (idle : Idle soc cfg s) : Clean soc s := by
  induction idle with
  | boot res fresh => exact Clean.boot fresh
  | failed call idle started clean =>
    obtain ⟨⟨ok, s₁⟩, init, ends⟩ := Option.map_eq_some_iff.mp started
    have flags : Flags soc s₁ := Flags.init clean.flags _ init
    split at ends
    · rename_i done
      have failed := congrArg Prod.fst ends
      exact absurd (done.symm.trans failed) (by simp)
    · obtain rfl := (Prod.mk.inj ends).2
      exact clean_mtkDmaFree flags
  | stopped call idle started inUse clean =>
    obtain ⟨⟨ok, s₁⟩, init, ends⟩ := Option.map_eq_some_iff.mp started
    have flags : Flags soc s₁ := Flags.init clean.flags _ init
    split at ends
    · obtain rfl := (Prod.mk.inj ends).2
      exact clean_mtkDmaFree (flags.inUse inUse)
    · exact absurd (Prod.mk.inj ends).1 (by simp)

end DmaState

end MetaFilogic.Eth
