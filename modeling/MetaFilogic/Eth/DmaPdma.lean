import MetaFilogic.Eth.DmaQdma

/-!
# The rings of the PDMA

The transmit rings give back what they have got.  The receive ring gives everything back when it
has got everything; what it has got before it fails stays, but for the array of its buffers being
the first thing it asks for.
-/

namespace MetaFilogic.Eth

namespace DmaState

variable {soc : DmaSoc} {cfg : KernelConfig} {call : InitCall}

section RxRelease

variable {soc : RxSoc} {cfg : KernelConfig} {call : RxAllocCall} {ring : RxRing} {res : DmaRes}
  {n : Nat}

theorem fillData_true {ok : Nat → Bool} :
    (fillData ok n ring res).1 = true ↔ ∀ j < n, ok j = true := by
  induction n with
  | zero => simp [fillData]
  | succ n ih =>
    simp only [fillData]
    by_cases most : (fillData ok n ring res).1 = true
    · rw [if_pos most]
      have before := ih.mp most
      constructor
      · intro done j lt
        rcases Nat.lt_succ_iff_lt_or_eq.mp lt with old | rfl
        · exact before j old
        · by_contra fails
          rw [if_neg fails] at done
          cases done
      · intro all
        rw [if_pos (all n (Nat.lt_succ_self n))]
    · rw [if_neg most]
      exact ⟨fun done => absurd done most,
        fun all => absurd (ih.mpr fun j lt => all j (Nat.lt_succ_of_lt lt)) most⟩

variable {mapped : Nat → Option DmaAddr}

theorem fillDesc_rxd1 {part : Bool × RxRing × DmaRes} {i : Nat}
    (done : fillDesc soc mapped n ring res = some part) (unused : (ring.desc i).rxd1 = 0)
    (bad : mapped i = none ∨ mapped i = some 0) : (part.2.1.desc i).rxd1 = 0 := by
  induction n generalizing part with
  | zero =>
    obtain rfl := Option.some_inj.mp done
    exact unused
  | succ n ih =>
    obtain ⟨first, most, last⟩ := Option.bind_eq_some_iff.mp done
    have before := ih most
    rcases andThen_cases last with ⟨_, rfl⟩ | ⟨_, last⟩
    · exact before
    · split at last
      · rename_i addr _ there _
        obtain ⟨res', map, rfl⟩ := Option.map_eq_some_iff.mp last
        by_cases same : i = n
        · subst same
          obtain rfl : addr = 0 := by simpa [there] using bad
          simp [RxSoc.posted]
        · simp only [Function.update_of_ne same]
          exact before
      · obtain rfl := Option.some_inj.mp last
        exact before

theorem fillDesc_rxd1_ne {ring' : RxRing} {res' : DmaRes}
    (done : fillDesc soc mapped n ring res = some (true, ring', res')) (narrow : soc.dma36 = false)
    (good : ∀ j < n, ∃ addr, mapped j = some addr ∧ addr ≠ 0) {i : Nat} (inside : i < n) :
    (ring'.desc i).rxd1 ≠ 0 := by
  induction n generalizing ring' res' with
  | zero => cases inside
  | succ n ih =>
    obtain ⟨⟨ok, ring₁, res₁⟩, before, rest⟩ := Option.bind_eq_some_iff.mp done
    obtain ⟨rfl, last⟩ := andThen_ok rest
    dsimp only at last
    split at last
    · rename_i addr buffer there data
      obtain ⟨res₂, map, result⟩ := Option.map_eq_some_iff.mp last
      obtain ⟨_, pair⟩ := Prod.mk.inj result
      obtain ⟨rfl, rfl⟩ := Prod.mk.inj pair
      by_cases same : i = n
      · subst same
        obtain ⟨addr', mapped', nonzero⟩ := good i inside
        obtain rfl := Option.some_inj.mp (there.symm.trans mapped')
        have reach := (DmaRes.map_eq map).1
        simp only [RxSoc.dmaBits, narrow, Bool.false_eq_true, if_false] at reach
        simp only [Function.update_self, RxSoc.posted]
        intro zero
        refine nonzero (BitVec.eq_of_toNat_eq ?_)
        have low := congrArg BitVec.toNat zero
        rw [BitVec.toNat_setWidth, Nat.mod_eq_of_lt reach] at low
        exact low
      · simp only [Function.update_of_ne same]
        exact ih before (fun j lt => good j (Nat.lt_succ_of_lt lt))
          (by omega)
    · obtain ⟨failed, _⟩ := Prod.mk.inj (Option.some_inj.mp last)
      cases failed

theorem fillDesc_failed {part : Bool × RxRing × DmaRes}
    (done : fillDesc soc mapped n ring res = some part) (failed : part.1 = false)
    (held : ∀ j < n, ring.data j ≠ none) : ∃ j < n, mapped j = none := by
  induction n generalizing part with
  | zero =>
    obtain rfl := Option.some_inj.mp done
    cases failed
  | succ n ih =>
    obtain ⟨first, most, last⟩ := Option.bind_eq_some_iff.mp done
    rcases andThen_cases last with ⟨early, rfl⟩ | ⟨_, last⟩
    · obtain ⟨j, lt, none⟩ := ih most early fun j lt => held j (Nat.lt_succ_of_lt lt)
      exact ⟨j, Nat.lt_succ_of_lt lt, none⟩
    · refine ⟨n, Nat.lt_succ_self n, ?_⟩
      have data : first.2.1.data = ring.data := by rw [fillDesc_ring most]
      split at last
      · obtain ⟨res', map, rfl⟩ := Option.map_eq_some_iff.mp last
        cases failed
      · rename_i missing
        by_contra some
        obtain ⟨addr, there⟩ := Option.ne_none_iff_exists'.mp some
        obtain ⟨buffer, held⟩ := Option.ne_none_iff_exists'.mp (held n (Nat.lt_succ_self n))
        exact missing addr buffer there (by rw [data, held])

end RxRelease

section RxRelease

variable {soc : RxSoc} {cfg : KernelConfig} {call : RxAllocCall} {ring : RxRing} {res : DmaRes}

def RxWhole (soc : RxSoc) (call : RxAllocCall) : Prop :=
  (∀ j < rxDmaSizeOf soc call, call.buffer j = true) ∧ call.coherent = true ∧
    ∀ j < rxDmaSizeOf soc call, ∃ addr, call.mapped j = some addr ∧ addr ≠ 0

theorem allocRegion_outside (outside : soc.hasSram = false) : allocRegion soc call ring res =
    if call.coherent then
      (true, { ring with dma := some (.coherent res.next), desc := fun _ => ⟨0, 0, 0, 0, 0, 0, 0⟩ },
        res.alloc)
    else (false, { ring with dma := none }, res) := by
  rw [allocRegion, if_pos (.inl outside)]

theorem grows_live (memory : Nat) : DmaRes.Grows fun res => res.live memory = true := by
  refine ⟨fun res live => ?_, ?_⟩
  · by_cases new : memory = res.next
    · rw [new]
      exact DmaRes.alloc_live_new
    · rw [DmaRes.alloc_live_old new]
      exact live
  · intro res bits addr m res' live map
    obtain ⟨_, _, rfl⟩ := DmaRes.map_eq map
    exact live

/-- The array of a ring, its buffers and the memory for its descriptors, from a number on. -/
structure RxHolds (n first : Nat) (ring : RxRing) : Prop where
  array : ring.array = some first
  dma : ring.dma = some (.coherent (first + 1 + n))
  data : ∀ i, ring.data i = if i < n then some (first + 1 + i) else none

variable {first : Nat} {part : Bool × RxRing × DmaRes}

theorem RxHolds.fillDesc {n : Nat} {ring : RxRing} (holds : RxHolds n first ring)
    {mapped : Nat → Option DmaAddr} (done : fillDesc soc mapped n ring res = some part) :
    RxHolds n first part.2.1 := by
  rw [fillDesc_ring done]
  exact ⟨holds.array, holds.dma, holds.data⟩

theorem RxHolds.clean {n : Nat} {ring : RxRing} (holds : RxHolds n first ring) :
    (mtkRxClean soc false ring res).2 =
      ((cleanSlots soc ring ring.dmaSize res).release first).release (first + 1 + n) := by
  simp [mtkRxClean, cleanData, holds.array, holds.dma, DmaRes.freeRegion]

/-- A ring whose size and descriptors are right is taken down as a whole. -/
theorem RxHolds.released {n : Nat} {ring : RxRing} {base : DmaRes} (holds : RxHolds n first ring)
    (size : ring.dmaSize = n) (written : ∀ i < n, (ring.desc i).rxd1 ≠ 0)
    (left : base.Above res (first :: (ring.buffers n ++ [first + 1 + n])) (ring.mappings soc n)) :
    base.Above (mtkRxClean soc false ring res).2 [] [] := by
  have order : (first :: (ring.buffers n ++ [first + 1 + n])).Perm
      (ring.buffers n ++ [first, first + 1 + n]) := List.perm_middle.symm
  have left := left.perm order
  rw [← List.append_nil (ring.mappings soc n)] at left
  have slots := left.cleanSlots (fun i inside => by simp [holds.data i, inside]) written
  rw [holds.clean, size]
  exact slots.release.release

theorem RxHolds.buffers {n : Nat} {ring ring' : RxRing} (holds : RxHolds n first ring)
    (holds' : RxHolds n first ring') : ring'.buffers n = ring.buffers n :=
  buffers_congr fun i _ => (holds'.data i).trans (holds.data i).symm

/-- The buffers and the memory for the descriptors are there, and no buffer is mapped. -/
structure RxPlaced (soc : RxSoc) (call : RxAllocCall) (res : DmaRes)
    (part : Bool × RxRing × DmaRes) : Prop where
  holds : RxHolds (rxDmaSizeOf soc call) res.next part.2.1
  desc : ∀ i, (part.2.1.desc i).rxd1 = 0
  coherent : call.coherent = true
  buffer : ∀ j < rxDmaSizeOf soc call, call.buffer j = true
  live : ∀ j < rxDmaSizeOf soc call, part.2.2.live (res.next + 1 + j) = true
  above : ∀ base own, DmaRes.Above base res own [] → DmaRes.Above base part.2.2
    (own ++ res.next :: (part.2.1.buffers (rxDmaSizeOf soc call) ++
      [res.next + 1 + rxDmaSizeOf soc call])) []

theorem rxPlaced {first : Bool × RxRing × DmaRes} (outside : soc.hasSram = false)
    (data : fillData call.buffer (rxDmaSizeOf soc call)
      (rxSized cfg call ring (some res.next) fun _ => none) res.alloc = first)
    (filled : first.1 = true) (region : allocRegion soc call first.2.1 first.2.2 = part)
    (placed : part.1 = true) : RxPlaced soc call res part := by
  have whole := fillData_ok (data ▸ filled)
  rw [data] at whole
  rw [allocRegion_outside outside] at region
  split at region
  · rename_i coherent
    rw [← region]
    refine ⟨⟨?_, ?_, fun i => ?_⟩, fun _ => rfl, coherent,
      fillData_true.mp (data ▸ filled), fun j lt => ?_, fun base own above => ?_⟩
    · rw [whole]
      rfl
    · rw [whole]
      rfl
    · rw [whole]
      rfl
    · refine (grows_live _).alloc _ ?_
      rw [whole]
      simp [DmaRes.alloc, lt]
    · have number : first.2.2.next = res.next + 1 + rxDmaSizeOf soc call := by
        rw [whole]
        rfl
      have most := (above.alloc.fillData (data ▸ filled)).alloc
      rw [data, number] at most
      simpa [RxRing.buffers] using most
  · rw [← region] at placed
    cases placed

/-- What `mtk_rx_alloc` has obtained `mtk_rx_clean` releases. -/
def RxReleased (soc : RxSoc) (base : DmaRes) (own : List Nat) (part : Bool × RxRing × DmaRes) :
    Prop :=
  ∃ own' maps, base.Above part.2.2 (own ++ own') maps ∧ ∀ res, base.Above res own' maps →
    base.Above (mtkRxClean soc false part.2.1 res).2 [] []

theorem rxReleased {base : DmaRes} {own : List Nat} (above : base.Above res own [])
    (gone : RxGone false ring) (outside : soc.hasSram = false) (narrow : soc.dma36 = false)
    (good : call.array = false ∨ RxWhole soc call)
    (done : mtkRxAlloc soc cfg call ring res = some part) : RxReleased soc base own part := by
  have bare : ring.dma = none := by simpa [RxGone] using gone.2
  cases mtkRxAlloc_ends done with
  | noArray =>
    refine ⟨[], [], by simpa using above, fun res above => ?_⟩
    have gone : RxGone false (rxSized cfg call ring none ring.data) := ⟨.inl rfl, .inl bare⟩
    rw [gone.clean]
    exact above
  | noBuffer array data failed =>
    obtain ⟨buffers, _⟩ := good.resolve_left (by simp [array])
    rw [← data, fillData_true.mpr buffers] at failed
    cases failed
  | noRegion array data filled region failed =>
    obtain ⟨_, coherent, _⟩ := good.resolve_left (by simp [array])
    rw [← region, allocRegion_outside outside, coherent] at failed
    cases failed
  | noMapping array data filled region placed desc failed =>
    obtain ⟨_, _, mapped⟩ := good.resolve_left (by simp [array])
    have ready := rxPlaced outside data filled region placed
    obtain ⟨j, lt, none⟩ := fillDesc_failed desc failed fun j lt => by simp [ready.holds.data j, lt]
    obtain ⟨addr, there, _⟩ := mapped j lt
    rw [none] at there
    cases there
  | whole array data filled region placed desc written =>
    rename_i first second third
    obtain ⟨_, _, mapped⟩ := good.resolve_left (by simp [array])
    have ready := rxPlaced outside data filled region placed
    obtain ⟨ok, ring', res'⟩ := third
    obtain rfl : ok = true := written
    have above := (ready.above base own above).fillDesc desc
    have holds : RxHolds (rxDmaSizeOf soc call) res.next
        { ring' with
          dmaSize := rxDmaSizeOf soc call
          calcIdx := rxDmaSizeOf soc call - 1 } := by
      have kept := ready.holds.fillDesc desc
      exact ⟨kept.array, kept.dma, kept.data⟩
    refine ⟨_, _, above, fun res₁ left => ?_⟩
    rw [holds.buffers ready.holds] at left
    exact holds.released rfl (fun i inside => fillDesc_rxd1_ne desc narrow mapped inside) left

/-! ### Memory that stays -/

def Stays (memory : Nat) (res : DmaRes) : Prop := res.live memory = true ∨ res.fault = true

theorem drops_stays (memory : Nat) :
    Drops (fun m => m ≠ memory) (fun _ => True) (Stays memory) := by
  refine ⟨fun res m apart stays => ?_, fun _ _ _ _ _ stays => stays, ?_⟩
  · simp only [DmaRes.release]
    split
    · refine stays.imp_left fun live => ?_
      exact (Function.update_of_ne apart.symm ..).trans live
    · exact .inr rfl
  · exact fun _ _ _ _ _ fault => .inr fault

/-- What `mtk_rx_alloc` has allocated and `mtk_rx_clean` does not release. -/
structure RxLeft (first : Nat) (part : Bool × RxRing × DmaRes) (memory : Nat) : Prop where
  new : first ≤ memory
  live : part.2.2.live memory = true
  spared : RxSpared (fun m => m ≠ memory) (fun _ => True) part.2.1

theorem rxLeft_array (none : part.2.1.dma = none) (live : part.2.2.live res.next = true) :
    RxLeft res.next part res.next :=
  ⟨le_rfl, live, fun some => absurd none some, fun _ some => absurd none some, by simp [none]⟩

theorem rxLeft_slot {n j : Nat} (holds : RxHolds n first part.2.1) (inside : j < n)
    (unused : (part.2.1.desc j).rxd1 = 0) (live : part.2.2.live (first + 1 + j) = true) :
    RxLeft first part (first + 1 + j) := by
  refine ⟨by omega, live, fun _ m member => ?_, fun _ _ i m there written => ⟨?_, trivial⟩,
    fun region member m inRegion => ?_⟩
  · rw [holds.array, Option.mem_some_iff] at member
    omega
  · rintro rfl
    rw [holds.data i] at there
    split at there
    · have same : i = j := by
        have := Option.some_inj.mp there
        omega
      exact written (same ▸ unused)
    · cases there
  · rw [holds.dma, Option.mem_some_iff] at member
    subst member
    rw [DmaRegion.memory, List.mem_singleton] at inRegion
    omega

theorem rxLeft (gone : RxGone false ring) (outside : soc.hasSram = false)
    (array : call.array = true) (bad : ¬RxWhole soc call)
    (done : mtkRxAlloc soc cfg call ring res = some part) :
    ∃ memory, RxLeft res.next part memory := by
  have bare : ring.dma = none := by simpa [RxGone] using gone.2
  have live : res.alloc.live res.next = true := DmaRes.alloc_live_new
  cases mtkRxAlloc_ends done with
  | noArray none => exact absurd (none.symm.trans array) (by simp)
  | noBuffer _ data failed =>
    refine ⟨_, rxLeft_array ?_ ?_⟩
    · rw [← data, fillData_ring]
      exact bare
    · rw [← data]
      exact (grows_live res.next).fillData live
  | noRegion _ data filled region failed =>
    refine ⟨_, rxLeft_array ?_ ?_⟩
    · rw [← region, allocRegion_outside outside] at failed ⊢
      split at failed
      · cases failed
      · rename_i no
        rw [if_neg no]
    · rw [← region, ← data]
      exact (grows_live res.next).allocRegion ((grows_live res.next).fillData live)
  | noMapping _ data filled region placed desc failed =>
    have ready := rxPlaced outside data filled region placed
    obtain ⟨j, lt, none⟩ := fillDesc_failed desc failed fun j lt => by simp [ready.holds.data j, lt]
    refine ⟨_, rxLeft_slot (ready.holds.fillDesc desc) lt
      (fillDesc_rxd1 desc (ready.desc j) (.inl none)) ?_⟩
    exact (grows_live _).fillDesc (ready.live j lt) desc
  | whole _ data filled region placed desc written =>
    have ready := rxPlaced outside data filled region placed
    have some : ∃ j < rxDmaSizeOf soc call, call.mapped j = none ∨ call.mapped j = some 0 := by
      by_contra none
      push Not at none
      refine bad ⟨ready.buffer, ready.coherent, fun j lt => ?_⟩
      obtain ⟨missing, zero⟩ := none j lt
      obtain ⟨addr, there⟩ := Option.ne_none_iff_exists'.mp missing
      exact ⟨addr, there, fun same => zero (same ▸ there)⟩
    obtain ⟨j, lt, zero⟩ := some
    have holds := ready.holds.fillDesc desc
    have live := (grows_live _).fillDesc (ready.live j lt) desc
    have unused := fillDesc_rxd1 desc (ready.desc j) zero
    exact ⟨_, rxLeft_slot ⟨holds.array, holds.dma, holds.data⟩ lt unused live⟩

end RxRelease

section Pdma

variable {s : DmaState} {base : DmaRes}

def txMemory (rings : List Nat) (s : DmaState) : List Nat :=
  rings.flatMap fun i => (s.txRing i).memory

variable {rings own : List Nat} {i : Nat} {p q : Bool × DmaState}

theorem txMemory_congr {s s' : DmaState} (same : ∀ i ∈ rings, s'.txRing i = s.txRing i) :
    txMemory rings s' = txMemory rings s := by
  refine List.flatMap_congr fun i member => ?_
  rw [same i member]

structure TxEnds (soc : DmaSoc) (call : InitCall) (base : DmaRes) (own : List Nat)
    (rings : List Nat) (s : DmaState) (p : Bool × DmaState) : Prop where
  rest : p.2 = { s with txRing := p.2.txRing, res := p.2.res }
  others : ∀ j, j ∉ rings → p.2.txRing j = s.txRing j
  bare : ∀ i ∈ rings, TxBare (p.2.txRing i)
  above : base.Above p.2.res (own ++ txMemory rings p.2) []
  ok : p.1 = true ↔ ∀ i ∈ rings, (call.tx i).array = true ∧ (call.tx i).coherent = true ∧
    (call.tx i).pdma = true

theorem mtkTxAlloc_ok {soc : TxSoc} {call : TxAllocCall} {ring : TxRing} {res : DmaRes}
    (pdma : soc.qdma = false) (outside : soc.inSram = false) :
    (mtkTxAlloc soc call ring res).1 = true ↔
      call.array = true ∧ call.coherent = true ∧ call.pdma = true := by
  obtain ⟨array, coherent, second⟩ := call
  cases array <;> cases coherent <;> cases second <;>
    simp [mtkTxAlloc, allocTxRegion, allocPdmaRegion, pdma, outside]

theorem forRings_cases {alloc : Nat → DmaState → Part}
    (done : forRings alloc (i :: rings) s = some p) :
    ∃ q, alloc i s = some q ∧
      (q.1 = true ∧ forRings alloc rings q.2 = some p ∨ q.1 = false ∧ p = q) := by
  obtain ⟨q, begun, rest⟩ := Option.bind_eq_some_iff.mp done
  refine ⟨q, begun, ?_⟩
  split at rest
  · rename_i fine
    exact .inl ⟨fine, rest⟩
  · rename_i failed
    exact .inr ⟨by simpa using failed, (Option.some_inj.mp rest).symm⟩

theorem txEnds_one (pdma : soc.tx.qdma = false) (outside : soc.tx.inSram = false)
    (gone : TxGone (s.txRing i)) (outer : (s.txRing i).inSram = false)
    (above : base.Above s.res own []) (done : txAlloc soc call i s = some q) :
    TxEnds soc call base own [i] s q := by
  obtain rfl := Option.some_inj.mp done
  have self : ∀ ring, Function.update s.txRing i ring i = ring := fun _ => Function.update_self ..
  refine ⟨rfl, fun j apart => Function.update_of_ne (by simpa using apart) .., ?_, ?_, ?_⟩
  · intro j member
    obtain rfl := List.mem_singleton.mp member
    simp only [self]
    exact mtkTxAlloc_bare (gone.bare outer).1 outside
  · simp only [txMemory, List.flatMap_singleton, self]
    exact above.txAlloc gone outer outside
  · simp only [List.forall_mem_singleton]
    exact mtkTxAlloc_ok pdma outside

theorem TxEnds.cons (absent : i ∉ rings) (first : TxEnds soc call base own [i] s q)
    (fine : q.1 = true) (rest : TxEnds soc call base (own ++ txMemory [i] q.2) rings q.2 p) :
    TxEnds soc call base own (i :: rings) s p := by
  have self := rest.others i absent
  refine ⟨?_, fun j apart => ?_, fun j member => ?_, ?_, ?_⟩
  · rw [rest.rest, first.rest]
  · rw [rest.others j (by simp_all), first.others j (by simp_all)]
  · rcases List.mem_cons.mp member with rfl | member
    · rw [self]
      exact first.bare j (by simp)
    · exact rest.bare j member
  · have memory : txMemory (i :: rings) p.2 = txMemory [i] q.2 ++ txMemory rings p.2 := by
      simp [txMemory, self]
    rw [memory, ← List.append_assoc]
    exact rest.above
  · rw [rest.ok, List.forall_mem_cons]
    have here := first.ok.mp fine i (by simp)
    exact ⟨fun later => ⟨here, later⟩, fun all => all.2⟩

theorem TxEnds.stop (absent : i ∉ rings)
    (gone : ∀ j ∈ rings, TxGone (s.txRing j) ∧ (s.txRing j).inSram = false)
    (first : TxEnds soc call base own [i] s q) (failed : q.1 = false) :
    TxEnds soc call base own (i :: rings) s q := by
  have later : ∀ j ∈ rings, q.2.txRing j = s.txRing j := fun j member => by
    refine first.others j ?_
    rintro same
    obtain rfl := List.mem_singleton.mp same
    exact absent member
  have none : txMemory rings q.2 = [] := by
    rw [txMemory, List.flatMap_eq_nil_iff]
    intro j member
    rw [later j member]
    exact ((gone j member).1.bare (gone j member).2).2
  refine ⟨first.rest, fun j apart => first.others j (by simp_all), fun j member => ?_, ?_, ?_⟩
  · rcases List.mem_cons.mp member with rfl | member
    · exact first.bare j (by simp)
    · rw [later j member]
      exact ((gone j member).1.bare (gone j member).2).1
  · have memory : txMemory (i :: rings) q.2 = txMemory [i] q.2 ++ txMemory rings q.2 := by
      simp [txMemory]
    rw [memory, none, List.append_nil]
    exact first.above
  · have fails := first.ok
    rw [failed] at fails ⊢
    refine ⟨nofun, fun all => ?_⟩
    exact fails.mpr fun j member => all j (by simp_all)

theorem txEnds (pdma : soc.tx.qdma = false) (outside : soc.tx.inSram = false) (nodup : rings.Nodup)
    (gone : ∀ i ∈ rings, TxGone (s.txRing i) ∧ (s.txRing i).inSram = false)
    (above : base.Above s.res own []) (done : forRings (txAlloc soc call) rings s = some p) :
    TxEnds soc call base own rings s p := by
  induction rings generalizing s own with
  | nil =>
    obtain rfl := Option.some_inj.mp done
    exact ⟨rfl, fun _ _ => rfl, nofun, by simpa [txMemory] using above, by simp⟩
  | cons i rings ih =>
    obtain ⟨absent, nodup⟩ := List.nodup_cons.mp nodup
    have here := gone i (by simp)
    have others : ∀ j ∈ rings, TxGone (s.txRing j) ∧ (s.txRing j).inSram = false :=
      fun j member => gone j (by simp [member])
    obtain ⟨q, begun, rest⟩ := forRings_cases done
    have first := txEnds_one pdma outside here.1 here.2 above begun
    rcases rest with ⟨fine, rest⟩ | ⟨failed, rfl⟩
    · refine first.cons absent fine (ih nodup (fun j member => ?_) first.above rest)
      rw [first.others j]
      · exact others j member
      · rintro same
        obtain rfl := List.mem_singleton.mp same
        exact absent member
    · exact first.stop absent others failed

/-- What `mtk_tx_clean` does to the rings is to release their memory. -/
theorem foldl_txClean {maps : List (DmaAddr × Nat)} (nodup : rings.Nodup)
    (bare : ∀ i ∈ rings, TxBare (s.txRing i))
    (above : base.Above s.res (txMemory rings s ++ own) maps) :
    base.Above (rings.foldl (txClean soc) s).res own maps := by
  induction rings generalizing s with
  | nil => simpa [txMemory] using above
  | cons i rings ih =>
    obtain ⟨absent, nodup⟩ := List.nodup_cons.mp nodup
    have apart : ∀ j ∈ rings, (s.txClean soc i).txRing j = s.txRing j := fun j member =>
      txClean_of_ne fun same => absent (same ▸ member)
    refine ih nodup (fun j member => ?_) ?_
    · rw [apart j member]
      exact bare j (by simp [member])
    · rw [txMemory_congr apart]
      have above : base.Above s.res ((s.txRing i).memory ++ (txMemory rings s ++ own)) maps := by
        simpa [txMemory] using above
      exact above.txClean (bare i (by simp))

theorem foldl_txClean_rest :
    (rings.foldl (txClean soc) s).rxRing = s.rxRing ∧
      (rings.foldl (txClean soc) s).rxRingQdma = s.rxRingQdma ∧
      (rings.foldl (txClean soc) s).fqRing = s.fqRing :=
  foldl_keeps (Q := fun s' => s'.rxRing = s.rxRing ∧ s'.rxRingQdma = s.rxRingQdma ∧
    s'.fqRing = s.fqRing) (fun _ _ _ same => same) ⟨rfl, rfl, rfl⟩

theorem freeScratchRing_same (scratch : s.fqRing.scratchRing = none ∨ s.fqRing.inSram = true) :
    s.freeScratchRing = s := by
  rcases scratch with none | sram
  · cases inside : s.fqRing.inSram <;> simp [freeScratchRing, inside, none]
  · simp [freeScratchRing, sram]

/-- Without a QDMA `mtk_dma_free` is about the transmit rings and one receive ring. -/
theorem pdma_free (pdma : soc.tx.qdma = false)
    (scratch : s.fqRing.scratchRing = none ∨ s.fqRing.inSram = true)
    (heads : ∀ j < soc.fqHeads, s.fqRing.scratchHead j = none)
    (rxQdma : RxGone false s.rxRingQdma) (outer : (s.rxRing 0).inSram = false) :
    (mtkDmaFree soc s).res =
      (mtkRxClean soc.rx false (s.rxRing 0) (soc.txRings.foldl (txClean soc) s).res).2 := by
  obtain ⟨_, _, _, hwlro, rss⟩ := soc.pdma pdma
  have lro : soc.lroRings = [] := by simp [DmaSoc.lroRings, hwlro]
  have rssRings : soc.rssRings = [] := by simp [DmaSoc.rssRings, rss]
  have first := freeScratchRing_same scratch
  obtain ⟨rx, qdma, fq⟩ := @foldl_txClean_rest soc s soc.txRings
  rw [mtkDmaFree_eq, freeRss, rssRings, List.foldl_nil, freeLro, lro, List.foldl_nil, freeRx,
    freeTx, first, rxCleanQdma_same]
  · rw [foldl_same]
    · simp only [rxClean, rx, outer]
    · intro j member
      refine freeHead_same ?_
      simp only [rxClean, fq]
      exact heads j (List.mem_range.mp member)
  · simp only [rxClean, qdma]
    exact rxQdma

end Pdma

end DmaState

end MetaFilogic.Eth
