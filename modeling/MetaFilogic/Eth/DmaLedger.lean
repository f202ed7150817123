import MetaFilogic.Eth.DmaInit
import MetaFilogic.Eth.RxOwner

/-!
# What allocating and releasing keep

A ledger of what has been obtained since some moment, and the properties of memory and mappings
that a ring's allocation or its taking down does not touch.
-/

namespace MetaFilogic.Eth

open Function (update update_self update_of_ne update_eq_self)

/-! ## What has been obtained -/

namespace DmaRes

/-- Besides what there was, the memory `own` is allocated and the mappings `maps` are made. -/
structure Above (base res : DmaRes) (own : List Nat) (maps : List (DmaAddr × Nat)) : Prop where
  next : base.next ≤ res.next
  live : ∀ m, res.live m = true ↔ base.live m = true ∨ m ∈ own
  nodup : own.Nodup
  range : ∀ m ∈ own, base.next ≤ m ∧ m < res.next
  mapped : ∀ a m, res.mapped a = some m ↔ base.mapped a = some m ∨ (a, m) ∈ maps
  apart : (maps.map Prod.fst).Nodup
  free : ∀ p ∈ maps, base.mapped p.1 = none
  fresh : ∀ m, base.next ≤ m → base.live m = false
  fault : res.fault = base.fault

/-- Everything obtained has been released once, and nothing else. -/
structure Restored (base res : DmaRes) : Prop where
  live : ∀ m, res.live m = base.live m
  mapped : ∀ a, res.mapped a = base.mapped a
  fault : res.fault = base.fault

namespace Above

variable {base res res' : DmaRes} {own own' : List Nat} {maps : List (DmaAddr × Nat)}
  {addr : DmaAddr} {memory bits : Nat}

theorem refl (fresh : ∀ m, base.next ≤ m → base.live m = false) : Above base base [] [] := by
  refine ⟨le_rfl, ?_, ?_, ?_, ?_, ?_, ?_, fresh, rfl⟩ <;> simp

theorem perm (above : Above base res own maps) (same : own.Perm own') : Above base res own' maps :=
  ⟨above.next, fun m => (above.live m).trans (or_congr_right same.mem_iff),
    same.nodup_iff.mp above.nodup, fun m member => above.range m (same.mem_iff.mpr member),
    above.mapped, above.apart, above.free, above.fresh, above.fault⟩

theorem alloc (above : Above base res own maps) :
    Above base res.alloc (own ++ [res.next]) maps := by
  have new : res.next ∉ own := fun member => Nat.lt_irrefl _ (above.range _ member).2
  have next := above.next
  refine ⟨Nat.le_succ_of_le next, fun m => ?_, ?_, fun m member => ?_, above.mapped, above.apart,
    above.free, above.fresh, above.fault⟩
  · by_cases same : m = res.next
    · simp [DmaRes.alloc, same]
    · rw [DmaRes.alloc_live_old same, above.live]
      simp [same]
  · rw [List.nodup_append]
    refine ⟨above.nodup, by simp, ?_⟩
    rintro a member b last rfl
    rw [List.mem_singleton] at last
    exact new (last ▸ member)
  · rcases List.mem_append.mp member with old | last
    · have := above.range m old
      simp only [DmaRes.alloc]
      omega
    · rw [List.mem_singleton] at last
      simp only [DmaRes.alloc]
      omega

theorem release (above : Above base res (memory :: own) maps) :
    Above base (res.release memory) own maps := by
  have live : res.live memory = true := (above.live memory).mpr (.inr (by simp))
  obtain ⟨absent, nodup⟩ := List.nodup_cons.mp above.nodup
  have low := (above.range memory (by simp)).1
  rw [DmaRes.release_live live]
  refine ⟨above.next, fun m => ?_, nodup, fun m member => above.range m (by simp [member]),
    above.mapped, above.apart, above.free, above.fresh, above.fault⟩
  by_cases same : m = memory
  · subst same
    simp [absent, above.fresh m low]
  · simp [same, above.live m]

theorem map (above : Above base res own maps) (done : res.map bits addr memory = some res') :
    Above base res' own (maps ++ [(addr, memory)]) := by
  obtain ⟨_, free, rfl⟩ := DmaRes.map_eq done
  have unmapped : ∀ m, base.mapped addr ≠ some m ∧ (addr, m) ∉ maps := by
    intro m
    rw [← not_or, ← above.mapped, free]
    simp
  have baseFree : base.mapped addr = none := by
    rw [Option.eq_none_iff_forall_ne_some]
    exact fun m => (unmapped m).1
  refine ⟨above.next, above.live, above.nodup, above.range, fun a m => ?_, ?_, ?_, above.fresh,
    above.fault⟩
  · by_cases same : a = addr
    · subst same
      simp [baseFree, (unmapped m).2, eq_comm]
    · simp [same, above.mapped a m]
  · rw [List.map_append, List.nodup_append]
    refine ⟨above.apart, by simp, ?_⟩
    rintro a member b last same
    obtain ⟨⟨c, m⟩, there, rfl⟩ := List.mem_map.mp member
    have here : c = addr := same.trans (List.mem_singleton.mp last)
    exact (unmapped m).2 (here ▸ there)
  · intro p member
    rcases List.mem_append.mp member with old | last
    · exact above.free p old
    · rw [List.mem_singleton] at last
      rw [last]
      exact baseFree

theorem unmapFor (above : Above base res own ((addr, memory) :: maps)) :
    Above base (res.unmapFor addr memory) own maps := by
  have there : res.mapped addr = some memory := (above.mapped addr memory).mpr (.inr (by simp))
  obtain ⟨absent, apart⟩ := List.nodup_cons.mp above.apart
  have baseFree := above.free (addr, memory) (by simp)
  rw [DmaRes.unmapFor, if_pos there]
  refine ⟨above.next, above.live, above.nodup, above.range, fun a m => ?_, apart,
    fun p member => above.free p (by simp [member]), above.fresh, above.fault⟩
  by_cases same : a = addr
  · subst same
    have gone : (a, m) ∉ maps := fun member => absent (List.mem_map.mpr ⟨_, member, rfl⟩)
    simp [baseFree, gone]
  · simp [same, above.mapped a m]

theorem restored (above : Above base res [] []) : Restored base res := by
  refine ⟨fun m => ?_, fun a => ?_, above.fault⟩
  · rw [Bool.eq_iff_iff, above.live]
    simp
  · refine Option.ext fun m => ?_
    have := above.mapped a m
    simpa using this

end Above

end DmaRes

/-! ## The memory of a ring -/

def DmaRegion.memory : DmaRegion → List Nat
  | .coherent memory => [memory]
  | .sram => []

def TxRing.memory (ring : TxRing) : List Nat :=
  ring.array.toList ++ ring.dma.toList.flatMap DmaRegion.memory ++ ring.dmaPdma.toList

/-- `mtk_tx_clean` has nothing to do. -/
def TxGone (ring : TxRing) : Prop :=
  ring.array = none ∧ ring.dmaPdma = none ∧ (ring.dma = none ∨ ring.inSram = true)

/-- `mtk_rx_clean` has nothing to do. -/
def RxGone (inSram : Bool) (ring : RxRing) : Prop :=
  (ring.array = none ∨ ring.dma = none) ∧ (ring.dma = none ∨ inSram = true)

/-- The buffers of a transmit ring are not in use, and its descriptors are not in the SRAM. -/
structure TxBare (ring : TxRing) : Prop where
  buf : ring.array = none ∨ ring.buf = fun _ => .zero
  place : ring.dma ≠ some .sram
  inSram : ring.inSram = false

theorem TxGone.bare {ring : TxRing} (gone : TxGone ring) (inSram : ring.inSram = false) :
    TxBare ring ∧ ring.memory = [] := by
  obtain ⟨array, second, place⟩ := gone
  have none : ring.dma = none := by simpa [inSram] using place
  exact ⟨⟨.inl array, by simp [none], inSram⟩, by simp [TxRing.memory, array, second, none]⟩

theorem mtkTxAlloc_buf {soc : TxSoc} {call : TxAllocCall} {ring : TxRing} {res : DmaRes} :
    (mtkTxAlloc soc call ring res).2.1.array = none ∨
      (mtkTxAlloc soc call ring res).2.1.buf = fun _ => .zero := by
  simp only [mtkTxAlloc, allocTxRegion, allocPdmaRegion, TxRing.setUp]
  cases call.array with
  | false => exact .inl rfl
  | true =>
    refine .inr ?_
    rw [if_pos rfl]
    split_ifs <;> rfl

theorem mtkTxAlloc_bare {soc : TxSoc} {call : TxAllocCall} {ring : TxRing} {res : DmaRes}
    (bare : TxBare ring) (outside : soc.inSram = false) :
    TxBare (mtkTxAlloc soc call ring res).2.1 := by
  refine ⟨mtkTxAlloc_buf, ?_, ?_⟩
  · have := bare.place
    simp only [mtkTxAlloc, allocTxRegion, allocPdmaRegion, TxRing.setUp, outside,
      Bool.false_eq_true, if_false]
    split_ifs <;> simp_all
  · have := bare.inSram
    simp only [mtkTxAlloc, allocTxRegion, allocPdmaRegion, TxRing.setUp, outside,
      Bool.false_eq_true, if_false]
    split_ifs <;> exact this

namespace DmaRes.Above

variable {base res : DmaRes} {own : List Nat} {maps : List (DmaAddr × Nat)}

theorem txAlloc {soc : TxSoc} {call : TxAllocCall} {ring : TxRing} (above : Above base res own maps)
    (gone : TxGone ring) (inSram : ring.inSram = false) (outside : soc.inSram = false) :
    Above base (mtkTxAlloc soc call ring res).2.2
      (own ++ (mtkTxAlloc soc call ring res).2.1.memory) maps := by
  obtain ⟨array, second, place⟩ := gone
  have none : ring.dma = none := by simpa [inSram] using place
  have first := above.alloc
  have two := first.alloc
  have three := two.alloc
  simp only [List.append_assoc, List.cons_append, List.nil_append] at two three
  simp only [mtkTxAlloc, allocTxRegion, allocPdmaRegion, TxRing.setUp, outside,
    Bool.false_eq_true, if_false]
  cases call.array with
  | false => simpa [TxRing.memory, second, none] using above
  | true =>
    cases call.coherent with
    | false => simpa [TxRing.memory, second] using first
    | true =>
      cases soc.qdma with
      | true => simpa [TxRing.memory, DmaRegion.memory, second] using two
      | false =>
        cases call.pdma with
        | false => simpa [TxRing.memory, DmaRegion.memory] using two
        | true => simpa [TxRing.memory, DmaRegion.memory] using three

end DmaRes.Above

theorem unmapSlots_zero {soc : TxSoc} {n : Nat} {res : DmaRes} :
    unmapSlots soc n (fun _ => .zero, res) = (fun _ => .zero, res) := by
  induction n with
  | zero => rfl
  | succ n ih =>
    have none : TxBuf.zero.addrs soc = [] := by
      simp [TxBuf.addrs, TxBuf.zero]
    simp only [unmapSlots, ih, unmapSlot, mtkTxUnmap, none]
    refine Prod.ext ?_ rfl
    exact update_eq_self n _

theorem DmaRes.Above.txClean {base res : DmaRes} {own : List Nat}
    {maps : List (DmaAddr × Nat)} {soc : TxSoc} {ring : TxRing} (bare : TxBare ring)
    (above : DmaRes.Above base res (ring.memory ++ own) maps) :
    DmaRes.Above base (mtkTxClean soc ring res).2 own maps := by
  have bufs : DmaRes.Above base (cleanBufs soc ring res).2
      (ring.dma.toList.flatMap DmaRegion.memory ++ ring.dmaPdma.toList ++ own) maps := by
    cases array : ring.array with
    | none => simpa [cleanBufs, array, TxRing.memory] using above
    | some memory =>
      have zero := bare.buf.resolve_left (by simp [array])
      have above : DmaRes.Above base res (memory :: (ring.dma.toList.flatMap DmaRegion.memory ++
          ring.dmaPdma.toList ++ own)) maps := by
        simpa [array, TxRing.memory] using above
      simpa [cleanBufs, array, zero, unmapSlots_zero] using above.release
  have dma : (cleanBufs soc ring res).1.dma = ring.dma := by
    cases array : ring.array <;> simp [cleanBufs, array]
  have second : (cleanBufs soc ring res).1.dmaPdma = ring.dmaPdma := by
    cases array : ring.array <;> simp [cleanBufs, array]
  have sram : (cleanBufs soc ring res).1.inSram = false := by
    cases array : ring.array <;> simp [cleanBufs, array, bare.inSram]
  simp only [mtkTxClean, dma, second, sram, Bool.false_eq_true, if_false]
  generalize (cleanBufs soc ring res).2 = res₁ at bufs
  have last (res₂ : DmaRes) (above : DmaRes.Above base res₂ (ring.dmaPdma.toList ++ own) maps) :
      (ring.dmaPdma = none → DmaRes.Above base res₂ own maps) ∧
        ∀ memory, ring.dmaPdma = some memory →
          DmaRes.Above base (res₂.release memory) own maps := by
    refine ⟨fun none => by simpa [none] using above, fun memory there => ?_⟩
    have above : DmaRes.Above base res₂ (memory :: own) maps := by simpa [there] using above
    exact above.release
  cases place : ring.dma with
  | none =>
    have last := last res₁ (by simpa [place] using bufs)
    cases there : ring.dmaPdma with
    | none => exact last.1 there
    | some memory => exact last.2 memory there
  | some region =>
    cases region with
    | sram => exact absurd place bare.place
    | coherent memory =>
      have bufs : DmaRes.Above base res₁ (memory :: (ring.dmaPdma.toList ++ own)) maps := by
        simpa [place, DmaRegion.memory] using bufs
      have last := last _ bufs.release
      cases there : ring.dmaPdma with
      | none => exact last.1 there
      | some memory => exact last.2 memory there

def RxRing.buffers (ring : RxRing) (n : Nat) : List Nat := (List.range n).filterMap ring.data

def RxRing.mappings (soc : RxSoc) (ring : RxRing) (n : Nat) : List (DmaAddr × Nat) :=
  (List.range n).filterMap fun i => (ring.data i).map fun buffer => (soc.addr (ring.desc i), buffer)

section RxLists

variable {soc : RxSoc} {ring ring' : RxRing} {n : Nat}

theorem buffers_congr (same : ∀ i < n, ring'.data i = ring.data i) :
    ring'.buffers n = ring.buffers n :=
  List.filterMap_congr fun i member => same i (List.mem_range.mp member)

theorem mappings_congr (data : ∀ i < n, ring'.data i = ring.data i)
    (desc : ∀ i < n, ring'.desc i = ring.desc i) : ring'.mappings soc n = ring.mappings soc n := by
  refine List.filterMap_congr fun i member => ?_
  have inside := List.mem_range.mp member
  rw [data i inside, desc i inside]

theorem buffers_succ : ring.buffers (n + 1) = ring.buffers n ++ (ring.data n).toList := by
  rw [RxRing.buffers, List.range_succ, List.filterMap_append]
  cases there : ring.data n <;> simp [RxRing.buffers, there]

theorem mappings_succ (ring : RxRing) {buffer : Nat} (there : ring.data n = some buffer) :
    ring.mappings soc (n + 1) = ring.mappings soc n ++ [(soc.addr (ring.desc n), buffer)] := by
  rw [RxRing.mappings, List.range_succ, List.filterMap_append]
  simp [RxRing.mappings, there]

end RxLists

namespace DmaRes.Above

variable {base res : DmaRes} {own : List Nat} {maps : List (DmaAddr × Nat)} {soc : RxSoc}
  {ring : RxRing} {n : Nat}

theorem fillData {ok : Nat → Bool} (above : Above base res own maps)
    (filled : (fillData ok n ring res).1 = true) :
    Above base (fillData ok n ring res).2.2
      (own ++ (Eth.fillData ok n ring res).2.1.buffers n) maps := by
  induction n with
  | zero => simpa [RxRing.buffers, Eth.fillData] using above
  | succ n ih =>
    simp only [Eth.fillData] at filled ⊢
    split_ifs at filled with first second
    swap
    · exact absurd filled first
    rw [if_pos first, if_pos second]
    have most := (ih first).alloc
    have before : RxRing.buffers { (Eth.fillData ok n ring res).2.1 with
        data := update (Eth.fillData ok n ring res).2.1.data n
          (some (Eth.fillData ok n ring res).2.2.next) } n =
        (Eth.fillData ok n ring res).2.1.buffers n :=
      buffers_congr fun i inside => update_of_ne (Nat.ne_of_lt inside) ..
    rw [buffers_succ, before]
    simpa using most

theorem fillDesc {mapped : Nat → Option DmaAddr} {ring' : RxRing} {res' : DmaRes}
    (above : Above base res own maps)
    (done : fillDesc soc mapped n ring res = some (true, ring', res')) :
    Above base res' own (maps ++ ring'.mappings soc n) := by
  induction n generalizing ring' res' with
  | zero =>
    obtain ⟨_, pair⟩ := Prod.mk.inj (Option.some_inj.mp done)
    obtain ⟨rfl, rfl⟩ := Prod.mk.inj pair
    simpa [RxRing.mappings] using above
  | succ n ih =>
    obtain ⟨⟨ok, ring₁, res₁⟩, before, rest⟩ := Option.bind_eq_some_iff.mp done
    obtain ⟨rfl, last⟩ := andThen_ok rest
    have most := ih before
    dsimp only at last
    split at last
    · rename_i addr buffer _ data
      obtain ⟨res₂, map, result⟩ := Option.map_eq_some_iff.mp last
      obtain ⟨_, pair⟩ := Prod.mk.inj result
      obtain ⟨rfl, rfl⟩ := Prod.mk.inj pair
      have posted : soc.addr (soc.posted ring₁.bufSize addr) = addr :=
        RxSoc.posted_addr (DmaRes.map_eq map).1
      have before : RxRing.mappings soc { ring₁ with
          desc := update ring₁.desc n (soc.posted ring₁.bufSize addr) } n =
          ring₁.mappings soc n :=
        mappings_congr (fun _ _ => rfl)
          fun i inside => update_of_ne (Nat.ne_of_lt inside) ..
      have all : RxRing.mappings soc { ring₁ with
          desc := update ring₁.desc n (soc.posted ring₁.bufSize addr) } (n + 1) =
          ring₁.mappings soc n ++ [(addr, buffer)] := by
        rw [mappings_succ { ring₁ with
          desc := update ring₁.desc n (soc.posted ring₁.bufSize addr) } data, before]
        simp only [update_self, posted]
      rw [all, ← List.append_assoc]
      exact most.map map
    · obtain ⟨failed, _⟩ := Prod.mk.inj (Option.some_inj.mp last)
      cases failed

theorem cleanSlots (above : Above base res (ring.buffers n ++ own) (ring.mappings soc n ++ maps))
    (held : ∀ i < n, ring.data i ≠ none) (written : ∀ i < n, (ring.desc i).rxd1 ≠ 0) :
    Above base (cleanSlots soc ring n res) own maps := by
  induction n generalizing own maps with
  | zero => simpa [RxRing.buffers, RxRing.mappings, Eth.cleanSlots] using above
  | succ n ih =>
    obtain ⟨buffer, there⟩ := Option.ne_none_iff_exists'.mp (held n (Nat.lt_succ_self n))
    rw [buffers_succ, there, mappings_succ _ there, List.append_assoc, List.append_assoc] at above
    have most := ih above (fun i inside => held i (Nat.lt_succ_of_lt inside))
      fun i inside => written i (Nat.lt_succ_of_lt inside)
    simp only [Eth.cleanSlots, cleanSlot, there, written n (Nat.lt_succ_self n), if_false]
    exact most.unmapFor.release

end DmaRes.Above

/-! ## How the allocation of a receive ring ends -/

theorem andThen_cases {part part' : Bool × RxRing × DmaRes}
    {next : RxRing → DmaRes → Option (Bool × RxRing × DmaRes)}
    (done : andThen part next = some part') :
    part.1 = false ∧ part' = part ∨ part.1 = true ∧ next part.2.1 part.2.2 = some part' := by
  rw [andThen] at done
  cases first : part.1 with
  | true => exact .inr ⟨rfl, by simpa [first] using done⟩
  | false => exact .inl ⟨rfl, by simpa [first, eq_comm] using done⟩

section RxAlloc

variable (soc : RxSoc) (cfg : KernelConfig) (call : RxAllocCall) (ring : RxRing) (res : DmaRes)

def rxSized (array : Option Nat) (data : Nat → Option Nat) : RxRing :=
  { ring with
    bufSize := cfg.mtkMaxBufSize (cfg.mtkMaxFragSize call.rxBufLen (rxDataLen call))
    array := array
    data := data }

/-- What fails in `mtk_rx_alloc`, and what it leaves. -/
inductive RxAllocEnds : Bool × RxRing × DmaRes → Prop where
  | noArray (array : call.array = false) :
    RxAllocEnds (false, rxSized cfg call ring none ring.data, res)
  | noBuffer {part : Bool × RxRing × DmaRes} (array : call.array = true)
    (data : fillData call.buffer (rxDmaSizeOf soc call)
      (rxSized cfg call ring (some res.next) fun _ => none) res.alloc = part)
    (failed : part.1 = false) : RxAllocEnds part
  | noRegion {first part : Bool × RxRing × DmaRes} (array : call.array = true)
    (data : fillData call.buffer (rxDmaSizeOf soc call)
      (rxSized cfg call ring (some res.next) fun _ => none) res.alloc = first)
    (filled : first.1 = true) (region : allocRegion soc call first.2.1 first.2.2 = part)
    (failed : part.1 = false) : RxAllocEnds part
  | noMapping {first second part : Bool × RxRing × DmaRes} (array : call.array = true)
    (data : fillData call.buffer (rxDmaSizeOf soc call)
      (rxSized cfg call ring (some res.next) fun _ => none) res.alloc = first)
    (filled : first.1 = true) (region : allocRegion soc call first.2.1 first.2.2 = second)
    (placed : second.1 = true)
    (desc : fillDesc soc call.mapped (rxDmaSizeOf soc call) second.2.1 second.2.2 = some part)
    (failed : part.1 = false) : RxAllocEnds part
  | whole {first second third : Bool × RxRing × DmaRes} (array : call.array = true)
    (data : fillData call.buffer (rxDmaSizeOf soc call)
      (rxSized cfg call ring (some res.next) fun _ => none) res.alloc = first)
    (filled : first.1 = true) (region : allocRegion soc call first.2.1 first.2.2 = second)
    (placed : second.1 = true)
    (desc : fillDesc soc call.mapped (rxDmaSizeOf soc call) second.2.1 second.2.2 = some third)
    (written : third.1 = true) :
    RxAllocEnds (true, { third.2.1 with
      dmaSize := rxDmaSizeOf soc call, calcIdx := rxDmaSizeOf soc call - 1 }, third.2.2)

variable {soc cfg call ring res}

theorem mtkRxAlloc_ends {part : Bool × RxRing × DmaRes}
    (done : mtkRxAlloc soc cfg call ring res = some part) :
    RxAllocEnds soc cfg call ring res part := by
  rw [mtkRxAlloc] at done
  split at done
  · rename_i array
    rcases andThen_cases done with ⟨failed, rfl⟩ | ⟨filled, done⟩
    · exact .noBuffer array rfl failed
    rcases andThen_cases done with ⟨failed, rfl⟩ | ⟨placed, done⟩
    · exact .noRegion array rfl filled rfl failed
    obtain ⟨desc, mapped, done⟩ := Option.bind_eq_some_iff.mp done
    rcases andThen_cases done with ⟨failed, rfl⟩ | ⟨written, done⟩
    · exact .noMapping array rfl filled rfl placed mapped failed
    · obtain rfl := Option.some_inj.mp done
      exact .whole array rfl filled rfl placed mapped written
  · rename_i array
    obtain rfl := Option.some_inj.mp done
    exact .noArray (by simpa using array)

end RxAlloc

/-! ## What every part keeps -/

structure DmaRes.Grows (P : DmaRes → Prop) : Prop where
  alloc : ∀ res, P res → P res.alloc
  map : ∀ res bits addr memory res', P res → res.map bits addr memory = some res' → P res'

section Grows

variable {P : DmaRes → Prop}

theorem DmaRes.Grows.txAlloc (grows : DmaRes.Grows P) {soc : TxSoc} {call : TxAllocCall}
    {ring : TxRing} {res : DmaRes} (before : P res) : P (mtkTxAlloc soc call ring res).2.2 := by
  have region : ∀ ring res, P res → P (allocTxRegion soc call ring res).2.2 := by
    intro ring res before
    simp only [allocTxRegion]
    split_ifs <;> first | exact before | exact grows.alloc _ before
  have second : ∀ ring res, P res → P (allocPdmaRegion soc call ring res).2.2 := by
    intro ring res before
    simp only [allocPdmaRegion]
    split_ifs <;> first | exact before | exact grows.alloc _ before
  simp only [mtkTxAlloc]
  split_ifs
  · exact second _ _ (region _ _ (grows.alloc _ before))
  · exact second _ _ (region _ _ (grows.alloc _ before))
  · exact region _ _ (grows.alloc _ before)
  · exact before

theorem DmaRes.Grows.fillData (grows : DmaRes.Grows P) {ok : Nat → Bool} {n : Nat}
    {ring : RxRing} {res : DmaRes} (before : P res) : P (fillData ok n ring res).2.2 := by
  induction n with
  | zero => exact before
  | succ n ih =>
    simp only [Eth.fillData]
    split_ifs
    · exact grows.alloc _ ih
    · exact ih
    · exact ih

theorem DmaRes.Grows.allocRegion (grows : DmaRes.Grows P) {soc : RxSoc} {call : RxAllocCall}
    {ring : RxRing} {res : DmaRes} (before : P res) : P (allocRegion soc call ring res).2.2 := by
  simp only [Eth.allocRegion]
  split_ifs <;> first | exact before | exact grows.alloc _ before

theorem DmaRes.Grows.fillDesc (grows : DmaRes.Grows P) {soc : RxSoc} {mapped : Nat → Option DmaAddr}
    {n : Nat} {ring : RxRing} {res : DmaRes} {part : Bool × RxRing × DmaRes} (before : P res)
    (done : fillDesc soc mapped n ring res = some part) : P part.2.2 := by
  induction n generalizing part with
  | zero =>
    obtain rfl := Option.some_inj.mp done
    exact before
  | succ n ih =>
    obtain ⟨first, most, last⟩ := Option.bind_eq_some_iff.mp done
    have kept := ih most
    rcases andThen_cases last with ⟨_, rfl⟩ | ⟨_, last⟩
    · exact kept
    · split at last
      · obtain ⟨res', map, rfl⟩ := Option.map_eq_some_iff.mp last
        exact grows.map _ _ _ _ _ kept map
      · obtain rfl := Option.some_inj.mp last
        exact kept

theorem DmaRes.Grows.rxAlloc (grows : DmaRes.Grows P) {soc : RxSoc} {cfg : KernelConfig}
    {call : RxAllocCall} {ring : RxRing} {res : DmaRes} {part : Bool × RxRing × DmaRes}
    (before : P res) (done : mtkRxAlloc soc cfg call ring res = some part) : P part.2.2 := by
  cases mtkRxAlloc_ends done with
  | noArray => exact before
  | noBuffer _ data =>
    rw [← data]
    exact grows.fillData (grows.alloc _ before)
  | noRegion _ data _ region =>
    rw [← region, ← data]
    exact grows.allocRegion (grows.fillData (grows.alloc _ before))
  | noMapping _ data _ region _ desc =>
    refine grows.fillDesc ?_ desc
    rw [← region, ← data]
    exact grows.allocRegion (grows.fillData (grows.alloc _ before))
  | whole _ data _ region _ desc =>
    have kept := fun before => grows.fillDesc before desc
    refine kept ?_
    rw [← region, ← data]
    exact grows.allocRegion (grows.fillData (grows.alloc _ before))

end Grows

/-! ## What the allocation of a receive ring leaves -/

section RxRings

variable {soc : RxSoc} {cfg : KernelConfig} {call : RxAllocCall} {ring : RxRing} {res : DmaRes}

theorem fillData_ring {ok : Nat → Bool} {n : Nat} : (fillData ok n ring res).2.1 =
    { ring with data := (fillData ok n ring res).2.1.data } := by
  induction n with
  | zero => rfl
  | succ n ih =>
    simp only [fillData]
    split_ifs
    · rw [ih]
    · exact ih
    · exact ih

theorem fillData_new {ok : Nat → Bool} {n i m : Nat}
    (there : (fillData ok n ring res).2.1.data i = some m) :
    ring.data i = some m ∨ res.next ≤ m := by
  induction n with
  | zero => exact .inl there
  | succ n ih =>
    have grows : DmaRes.Grows fun r => res.next ≤ r.next := by
      refine ⟨fun _ => Nat.le_succ_of_le, ?_⟩
      intro _ _ _ _ _ before map
      obtain ⟨_, _, rfl⟩ := DmaRes.map_eq map
      exact before
    simp only [fillData] at there
    split_ifs at there
    · by_cases same : i = n
      · rw [same] at there
        simp only [update_self, Option.some_inj] at there
        rw [← there]
        exact .inr (grows.fillData le_rfl)
      · simp only [update_of_ne same] at there
        exact ih there
    · exact ih there
    · exact ih there

theorem allocRegion_ring (soc : RxSoc) (call : RxAllocCall) (ring : RxRing) (res : DmaRes) :
    (allocRegion soc call ring res).2.1.array = ring.array ∧
    (allocRegion soc call ring res).2.1.data = ring.data ∧
    ((allocRegion soc call ring res).2.1.inSram = true →
      ring.inSram = true ∨ soc.hasSram = true) := by
  simp only [allocRegion]
  split_ifs with place
  · exact ⟨rfl, rfl, .inl⟩
  · exact ⟨rfl, rfl, .inl⟩
  · refine ⟨rfl, rfl, fun _ => .inr ?_⟩
    simpa using fun none => place (.inl none)

theorem fillDesc_ring {mapped : Nat → Option DmaAddr} {n : Nat} {part : Bool × RxRing × DmaRes}
    (done : fillDesc soc mapped n ring res = some part) :
    part.2.1 = { ring with desc := part.2.1.desc } := by
  induction n generalizing part with
  | zero =>
    obtain rfl := Option.some_inj.mp done
    rfl
  | succ n ih =>
    obtain ⟨first, most, last⟩ := Option.bind_eq_some_iff.mp done
    have kept := ih most
    rcases andThen_cases last with ⟨_, rfl⟩ | ⟨_, last⟩
    · exact kept
    · split at last
      · obtain ⟨res', map, rfl⟩ := Option.map_eq_some_iff.mp last
        simp only
        rw [kept]
      · obtain rfl := Option.some_inj.mp last
        exact kept

/-- The buffers of a ring with an array are new, and a ring is in the SRAM when there is one. -/
structure RxAllocated (soc : RxSoc) (ring : RxRing) (res : DmaRes) (ring' : RxRing) : Prop where
  data : ring'.array = none ∨ ∀ i m, ring'.data i = some m → res.next ≤ m
  inSram : ring'.inSram = true → ring.inSram = true ∨ soc.hasSram = true

theorem mtkRxAlloc_allocated {part : Bool × RxRing × DmaRes}
    (done : mtkRxAlloc soc cfg call ring res = some part) : RxAllocated soc ring res part.2.1 := by
  have filled : ∀ first, fillData call.buffer (rxDmaSizeOf soc call)
      (rxSized cfg call ring (some res.next) fun _ => none) res.alloc = first →
        RxAllocated soc ring res first.2.1 := by
    rintro first rfl
    refine ⟨.inr fun i m there => ?_, ?_⟩
    · rcases fillData_new there with old | new
      · simp [rxSized] at old
      · exact Nat.le_of_succ_le new
    · rw [fillData_ring]
      exact .inl
  have placed : ∀ first second : Bool × RxRing × DmaRes, RxAllocated soc ring res first.2.1 →
      allocRegion soc call first.2.1 first.2.2 = second →
        RxAllocated soc ring res second.2.1 := by
    rintro first second before rfl
    obtain ⟨array, data, inSram⟩ := allocRegion_ring soc call first.2.1 first.2.2
    refine ⟨?_, fun there => ?_⟩
    · rw [array, data]
      exact before.data
    · rcases inSram there with old | new
      · exact before.inSram old
      · exact .inr new
  cases mtkRxAlloc_ends done with
  | noArray => exact ⟨.inl rfl, .inl⟩
  | noBuffer _ data => exact filled _ data
  | noRegion _ data _ region =>
    exact placed _ _ (filled _ data) region
  | noMapping _ data _ region _ desc =>
    have before := placed _ _ (filled _ data) region
    rw [fillDesc_ring desc]
    exact ⟨before.data, before.inSram⟩
  | whole _ data _ region _ desc =>
    have before := placed _ _ (filled _ data) region
    simp only
    rw [fillDesc_ring desc]
    exact ⟨before.data, before.inSram⟩

end RxRings

/-! ## Rings that are gone -/

theorem cleanBufs_fst {soc : TxSoc} {ring : TxRing} {res : DmaRes} :
    (cleanBufs soc ring res).1.array = none ∧ (cleanBufs soc ring res).1.dma = ring.dma ∧
      (cleanBufs soc ring res).1.inSram = ring.inSram := by
  simp only [cleanBufs]
  split
  · rename_i none
    exact ⟨none, rfl, rfl⟩
  · exact ⟨rfl, rfl, rfl⟩

theorem mtkTxClean_gone {soc : TxSoc} {ring : TxRing} {res : DmaRes} :
    TxGone (mtkTxClean soc ring res).1 ∧ (mtkTxClean soc ring res).1.inSram = ring.inSram := by
  obtain ⟨array, dma, sram⟩ := @cleanBufs_fst soc ring res
  simp only [mtkTxClean]
  refine ⟨⟨array, rfl, ?_⟩, sram⟩
  cases there : (cleanBufs soc ring res).1.dma with
  | none => exact .inl rfl
  | some region =>
    cases inside : (cleanBufs soc ring res).1.inSram with
    | true => exact .inr rfl
    | false => exact .inl rfl

theorem TxGone.clean {soc : TxSoc} {ring : TxRing} {res : DmaRes} (gone : TxGone ring) :
    mtkTxClean soc ring res = (ring, res) := by
  obtain ⟨array, buf, dma, second, nextFree, lastFree, lastFreePtr, cpuIdx, freeCount, thresh,
    dmaSize, inSram⟩ := ring
  obtain ⟨rfl, rfl, rfl | rfl⟩ := gone
  · rfl
  · cases dma <;> rfl

theorem cleanData_fst {soc : RxSoc} {ring : RxRing} {res : DmaRes} :
    (cleanData soc ring res).1.dma = ring.dma ∧ (cleanData soc ring res).1.inSram = ring.inSram ∧
      ((cleanData soc ring res).1.array = none ∨ ring.dma = none) := by
  cases array : ring.array <;> cases dma : ring.dma <;> simp [cleanData, array, dma]

variable {inSram : Bool}

theorem mtkRxClean_gone {soc : RxSoc} {ring : RxRing} {res : DmaRes} :
    RxGone inSram (mtkRxClean soc inSram ring res).1 := by
  obtain ⟨dma, sram, array⟩ := @cleanData_fst soc ring res
  simp only [mtkRxClean]
  cases inSram with
  | true =>
    refine ⟨?_, .inr rfl⟩
    rw [if_pos rfl, dma]
    exact array
  | false =>
    simp only [Bool.false_eq_true, if_false]
    split
    · rename_i none
      exact ⟨.inr none, .inl none⟩
    · exact ⟨.inr rfl, .inl rfl⟩

theorem mtkRxClean_inSram {soc : RxSoc} {ring : RxRing} {res : DmaRes} :
    (mtkRxClean soc inSram ring res).1.inSram = ring.inSram := by
  simp only [mtkRxClean]
  split
  · exact cleanData_fst.2.1
  · split <;> exact cleanData_fst.2.1

theorem RxGone.clean {soc : RxSoc} {ring : RxRing} {res : DmaRes} (gone : RxGone inSram ring) :
    mtkRxClean soc inSram ring res = (ring, res) := by
  have data : cleanData soc ring res = (ring, res) := by
    rcases gone.1 with array | dma
    · simp [cleanData, array]
    · cases array : ring.array <;> simp [cleanData, dma, array]
  rcases gone.2 with dma | sram
  · simp [mtkRxClean, data, dma]
  · simp [mtkRxClean, data, sram]

theorem RxGone.kept {soc : RxSoc} {flag : Bool} {ring : RxRing} {res : DmaRes}
    (gone : RxGone inSram ring) : RxGone inSram (mtkRxClean soc flag ring res).1 := by
  have data : cleanData soc ring res = (ring, res) := by
    rcases gone.1 with array | dma
    · simp [cleanData, array]
    · cases array : ring.array <;> simp [cleanData, dma, array]
  simp only [mtkRxClean, data]
  split
  · exact gone
  · split
    · exact gone
    · exact ⟨.inr rfl, .inl rfl⟩

/-- A property that releasing such memory and unmapping such buffers keep. -/
structure Drops (Rel Unm : Nat → Prop) (P : DmaRes → Prop) : Prop where
  release : ∀ res memory, Rel memory → P res → P (res.release memory)
  unmap : ∀ (res : DmaRes) addr memory, Unm memory → res.mapped addr = some memory → P res →
    P { res with mapped := update res.mapped addr none }
  fault : ∀ res res' : DmaRes, P res → res'.next = res.next → res'.live = res.live →
    res'.fault = true → P res'

/-- The memory of a receive ring that `mtk_rx_clean` may release, and the buffers it may unmap. -/
structure RxSpared (Rel Unm : Nat → Prop) (ring : RxRing) : Prop where
  array : ring.dma ≠ none → ∀ m ∈ ring.array, Rel m
  data : ring.array ≠ none → ring.dma ≠ none →
    ∀ i m, ring.data i = some m → (ring.desc i).rxd1 ≠ 0 → Rel m ∧ Unm m
  region : ∀ region ∈ ring.dma, ∀ m ∈ region.memory, Rel m

section Drops

variable {Rel Unm : Nat → Prop} {P : DmaRes → Prop} {res : DmaRes}

theorem Drops.freeRegion (drops : Drops Rel Unm P) {region : DmaRegion}
    (own : ∀ m ∈ region.memory, Rel m) (before : P res) : P (res.freeRegion region) := by
  cases region with
  | coherent memory =>
    exact drops.release res memory (own memory (by simp [DmaRegion.memory])) before
  | sram => exact drops.fault res _ before rfl rfl rfl

theorem Drops.txClean (drops : Drops Rel Unm P) {soc : TxSoc} {ring : TxRing}
    (slots : ring.array ≠ none → P (unmapSlots soc soc.txDmaSize (ring.buf, res)).2)
    (own : ∀ m ∈ ring.memory, Rel m) (before : P res) : P (mtkTxClean soc ring res).2 := by
  have bufs : P (cleanBufs soc ring res).2 ∧ (cleanBufs soc ring res).1.dma = ring.dma ∧
      (cleanBufs soc ring res).1.dmaPdma = ring.dmaPdma := by
    simp only [cleanBufs]
    split
    · exact ⟨before, rfl, rfl⟩
    · rename_i memory array
      exact ⟨drops.release _ _ (own memory (by simp [TxRing.memory, array]))
        (slots (by simp [array])), rfl, rfl⟩
  obtain ⟨bufs, dma, second⟩ := bufs
  have last (res : DmaRes) (before : P res) (memory : Nat) (there : ring.dmaPdma = some memory) :
      P (res.release memory) :=
    drops.release _ _ (own memory (by simp [TxRing.memory, there])) before
  have freed (region : DmaRegion) (there : ring.dma = some region) :
      P ((cleanBufs soc ring res).2.freeRegion region) := by
    refine drops.freeRegion (fun m member => own m ?_) bufs
    simp [TxRing.memory, there, member]
  simp only [mtkTxClean, dma, second]
  cases place : ring.dma with
  | none =>
    cases there : ring.dmaPdma with
    | none => exact bufs
    | some memory => exact last _ bufs memory there
  | some region =>
    cases there : ring.dmaPdma with
    | none =>
      dsimp only
      split
      · exact bufs
      · exact freed region place
    | some memory =>
      dsimp only
      split
      · exact last _ bufs memory there
      · exact last _ (freed region place) memory there

theorem Drops.unmapFor (drops : Drops Rel Unm P) {addr : DmaAddr} {memory : Nat}
    (free : Unm memory) (before : P res) : P (res.unmapFor addr memory) := by
  simp only [DmaRes.unmapFor]
  split
  · rename_i there
    exact drops.unmap res addr memory free there before
  · refine drops.fault res _ before ?_ ?_ rfl
    all_goals
      simp only [DmaRes.unmap]
      split <;> rfl

theorem Drops.cleanSlots (drops : Drops Rel Unm P) {soc : RxSoc} {ring : RxRing} {n : Nat}
    (data : ∀ i m, ring.data i = some m → (ring.desc i).rxd1 ≠ 0 → Rel m ∧ Unm m)
    (before : P res) : P (cleanSlots soc ring n res) := by
  induction n with
  | zero => exact before
  | succ n ih =>
    simp only [Eth.cleanSlots, cleanSlot]
    split
    · exact ih
    · rename_i m there
      split
      · exact ih
      · rename_i written
        obtain ⟨rel, unm⟩ := data n m there written
        exact drops.release _ _ rel (drops.unmapFor unm ih)

theorem Drops.rxClean (drops : Drops Rel Unm P) {soc : RxSoc} {inSram : Bool} {ring : RxRing}
    (spared : RxSpared Rel Unm ring) (before : P res) : P (mtkRxClean soc inSram ring res).2 := by
  have data : P (cleanData soc ring res).2 := by
    simp only [cleanData]
    split
    · rename_i memory _ array dma
      exact drops.release _ _ (spared.array (by simp [dma]) memory (by simp [array]))
        (drops.cleanSlots (spared.data (by simp [array]) (by simp [dma])) before)
    · exact before
  simp only [mtkRxClean, cleanData_fst.1]
  split
  · exact data
  · split
    · exact data
    · rename_i region there
      exact drops.freeRegion (spared.region region (by simp [there])) data

end Drops

/-! ## Numbers of memory -/

def Fresh (res : DmaRes) : Prop := ∀ m, res.next ≤ m → res.live m = false

theorem drops_fresh : Drops (fun _ => True) (fun _ => True) Fresh := by
  refine ⟨fun res memory _ fresh => ?_, fun _ _ _ _ _ fresh => fresh, ?_⟩
  · simp only [DmaRes.release]
    split
    · intro m beyond
      by_cases same : m = memory
      · simp [same]
      · simp only [update_of_ne same]
        exact fresh m beyond
    · exact fresh
  · intro res res' fresh next live _ m beyond
    rw [next] at beyond
    rw [live]
    exact fresh m beyond

theorem grows_fresh : DmaRes.Grows Fresh := by
  refine ⟨fun res fresh m beyond => ?_, ?_⟩
  · have beyond : res.next + 1 ≤ m := beyond
    rw [DmaRes.alloc_live_old (by omega)]
    exact fresh m (by omega)
  · intro res bits addr memory res' fresh map
    obtain ⟨_, _, rfl⟩ := DmaRes.map_eq map
    exact fresh

theorem fresh_unmapSlots {soc : TxSoc} {n : Nat} {buf : Nat → TxBuf} {res : DmaRes}
    (fresh : Fresh res) : Fresh (unmapSlots soc n (buf, res)).2 := by
  have fold : ∀ (addrs : List DmaAddr) (res : DmaRes), Fresh res →
      Fresh (addrs.foldl DmaRes.unmap res) := by
    intro addrs
    induction addrs with
    | nil => exact fun _ fresh => fresh
    | cons addr addrs ih =>
      refine fun res fresh => ih _ ?_
      simp only [DmaRes.unmap]
      split <;> exact fresh
  have free : ∀ (ptr : SkbPtr) (res : DmaRes), Fresh res → Fresh (ptr.free res) := by
    intro ptr res fresh
    cases ptr with
    | null => exact fresh
    | dummy => exact fresh
    | skb memory => exact drops_fresh.release res memory trivial fresh
  induction n with
  | zero => exact fresh
  | succ n ih => exact free _ _ (fold _ _ ih)

theorem spared_all {ring : RxRing} : RxSpared (fun _ => True) (fun _ => True) ring :=
  ⟨fun _ _ _ => trivial, fun _ _ _ _ _ _ => ⟨trivial, trivial⟩, fun _ _ _ _ => trivial⟩

end MetaFilogic.Eth
