import MetaFilogic.Eth.DmaPdma

/-!
# What a start of the DMA leaves

Every pointer the driver keeps tells whether it has something to release.  A start that fails
before anything is mapped for the QDMA gives everything back; what is mapped for the QDMA stays
mapped.
-/

namespace MetaFilogic.Eth

namespace DmaState

variable {soc : DmaSoc} {cfg : KernelConfig} {call : InitCall}

/-- What the rings of the PDMA obtain is given back: one of the transmit rings is not to be had,
or there is no memory for the buffers of the receive ring, or nothing fails and no buffer is mapped
at zero. -/
def PdmaReleased (soc : DmaSoc) (call : InitCall) : Prop :=
  (∃ i < MTK_MAX_TX_RING_NUM,
    ¬((call.tx i).array = true ∧ (call.tx i).coherent = true ∧ (call.tx i).pdma = true)) ∨
  (call.rx 0).array = false ∨
  RxWhole soc.rx (rxCall call .normal (soc.rxInSram 0) (call.rx 0))

def AllReleased (soc : DmaSoc) (call : InitCall) : Prop :=
  call.busy = true ∨ if soc.tx.qdma then FqFails soc call.fq else PdmaReleased soc call

def forget (s : DmaState) : DmaState := { s with res := { s.res with fault := false } }

theorem Clean.forget {s : DmaState} (clean : Clean soc s) : Clean soc s.forget :=
  ⟨⟨clean.flags.fq, clean.flags.tx, clean.flags.rx, clean.flags.fresh⟩, clean.scratch, clean.heads,
    clean.tx, clean.rx, clean.lro, clean.rxQdma⟩

section Whole

variable {s : DmaState} {p : Bool × DmaState}

theorem Clean.free (clean : Clean soc s) : mtkDmaFree soc s = s := by
  rw [mtkDmaFree_eq, clean.ringsGone.free, freeScratchRing_same clean.scratch]
  exact foldl_same fun j member => freeHead_same (clean.heads j (List.mem_range.mp member))

theorem restored_busy (clean : Clean soc s) (busy : call.busy = true)
    (done : mtkDmaInit soc cfg call s = some p) : s.res.Restored (mtkDmaFree soc p.2).res := by
  rw [mtkDmaInit_eq, if_pos busy] at done
  obtain rfl := Option.some_inj.mp done
  rw [clean.free]
  exact ⟨fun _ => rfl, fun _ => rfl, rfl⟩

theorem qdma_released (clean : Clean soc s) (sound : s.res.fault = false)
    (qdma : soc.tx.qdma = true) (idle : call.busy = false)
    (done : mtkDmaInit soc cfg call s = some p) :
    s.res.Restored (mtkDmaFree soc p.2).res ↔ FqFails soc call.fq := by
  constructor
  · intro restored
    by_contra late
    obtain ⟨addr, mapped⟩ := Option.ne_none_iff_exists'.mp fun none => late (.inr (.inr none))
    obtain ⟨free, stuck⟩ := stuck_init clean qdma idle mapped late p done
    exact not_restored_of_stuck stuck free sound restored
  · intro fails
    exact (early_init clean qdma idle fails p done).restored qdma

theorem pdma_init (pdma : soc.tx.qdma = false) (idle : call.busy = false)
    (done : mtkDmaInit soc cfg call s = some p) :
    ∃ q, forRings (txAlloc soc call) soc.txRings s = some q ∧
      (q.1 = false ∧ p = q ∨ q.1 = true ∧ ∃ part,
        mtkRxAlloc soc.rx cfg (rxCall call .normal (soc.rxInSram 0) (call.rx 0)) (q.2.rxRing 0)
          q.2.res = some part ∧
        p.2 = { q.2 with rxRing := Function.update q.2.rxRing 0 part.2.1, res := part.2.2 }) := by
  obtain ⟨_, _, _, hwlro, rss⟩ := soc.pdma pdma
  have lro : soc.lroRings = [] := by simp [DmaSoc.lroRings, hwlro]
  have rssRings : soc.rssRings = [] := by simp [DmaSoc.rssRings, rss]
  rw [mtkDmaInit_eq, idle, if_neg Bool.false_ne_true, pdma, if_neg Bool.false_ne_true,
    Part.andThen_ok, initRings, pdma, lro, rssRings] at done
  obtain ⟨q, tx, rest⟩ := Option.bind_eq_some_iff.mp done
  refine ⟨q, tx, ?_⟩
  split at rest
  · rename_i fine
    dsimp only at rest
    rw [if_neg Bool.false_ne_true, Part.andThen_ok] at rest
    obtain ⟨r, rx, last⟩ := Option.bind_eq_some_iff.mp rest
    obtain ⟨part, alloc, rfl⟩ := Option.map_eq_some_iff.mp rx
    refine .inr ⟨fine, part, alloc, ?_⟩
    split at last
    · obtain rfl := Option.some_inj.mp last
      rfl
    · obtain rfl := Option.some_inj.mp last
      rfl
  · rename_i failed
    exact .inl ⟨by simpa using failed, (Option.some_inj.mp rest).symm⟩

theorem pdma_released (clean : Clean soc s) (sound : s.res.fault = false)
    (pdma : soc.tx.qdma = false) (idle : call.busy = false)
    (done : mtkDmaInit soc cfg call s = some p) :
    s.res.Restored (mtkDmaFree soc p.2).res ↔ PdmaReleased soc call := by
  obtain ⟨old, noSram, outside, hwlro, rss⟩ := soc.pdma pdma
  have narrow : soc.rx.dma36 = false := by
    rw [Bool.eq_false_iff]
    exact fun wide => by simp [(soc.rx.dma36_v2 wide).1] at old
  have txRings : soc.txRings = List.range MTK_MAX_TX_RING_NUM := by simp [DmaSoc.txRings, pdma]
  have nodup : soc.txRings.Nodup := txRings ▸ List.nodup_range
  have gone : ∀ i ∈ soc.txRings, TxGone (s.txRing i) ∧ (s.txRing i).inSram = false := by
    refine fun i member => ⟨clean.tx i member, ?_⟩
    rw [Bool.eq_false_iff]
    exact fun inside => by simp [clean.flags.tx i inside] at outside
  have outer : (s.rxRing 0).inSram = false := by
    rw [Bool.eq_false_iff]
    exact fun inside => by simp [clean.flags.rx 0 inside] at noSram
  have rxGone : RxGone false (s.rxRing 0) := outer ▸ clean.rx 0 (by simp)
  obtain ⟨q, tx, rest⟩ := pdma_init pdma idle done
  have ends := txEnds pdma outside nodup gone (DmaRes.Above.refl clean.flags.fresh) tx
  have fq : q.2.fqRing = s.fqRing := by rw [ends.rest]
  have rx : q.2.rxRing = s.rxRing := by rw [ends.rest]
  have rxQdma : q.2.rxRingQdma = s.rxRingQdma := by rw [ends.rest]
  have above := ends.above
  rw [List.nil_append] at above
  rcases rest with ⟨failed, rfl⟩ | ⟨fine, part, alloc, whole⟩
  · -- the receive ring has not been touched
    refine iff_of_true ?_ (.inl ?_)
    · rw [pdma_free pdma (fq ▸ clean.scratch) (fq ▸ clean.heads) (rxQdma ▸ clean.rxQdma)
        (rx ▸ outer), rx, rxGone.clean]
      rw [← List.append_nil (txMemory soc.txRings p.2)] at above
      exact (foldl_txClean nodup ends.bare above).restored
    · by_contra all
      push Not at all
      rw [ends.ok.mpr fun i member => all i (by simpa [txRings] using member)] at failed
      cases failed
  · have scratch : p.2.fqRing = s.fqRing := by rw [whole, ← fq]
    have qdma : p.2.rxRingQdma = s.rxRingQdma := by rw [whole, ← rxQdma]
    have txSame : p.2.txRing = q.2.txRing := by rw [whole]
    have ring : p.2.rxRing 0 = part.2.1 := by
      rw [whole]
      exact Function.update_self 0 part.2.1 q.2.rxRing
    have res : p.2.res = part.2.2 := by rw [whole]
    rw [rx] at alloc
    have outer' : (p.2.rxRing 0).inSram = false := by
      rw [ring, Bool.eq_false_iff]
      intro inside
      rcases (mtkRxAlloc_allocated alloc).inSram inside with old | new
      · simp [outer] at old
      · simp [noSram] at new
    constructor
    · intro restored
      by_contra bad
      rw [PdmaReleased, not_or, not_or] at bad
      obtain ⟨_, array, notWhole⟩ := bad
      obtain ⟨memory, left⟩ := rxLeft rxGone noSram (by simpa [rxCall] using array) notWhole alloc
      have rings : soc.rxRings = [0] := by
        simp [DmaSoc.rxRings, DmaSoc.lroRings, DmaSoc.rssRings, hwlro, rss]
      have spared : Spared soc (fun m => m ≠ memory) (fun _ => True) p.2 := by
        refine ⟨?_, ?_, fun i member => ⟨?_, fun m inRing => ?_⟩, fun i member => ?_, ?_⟩
        · rw [scratch]
          intro region there
          rcases clean.scratch with none | sram
          · simp [none] at there
          · simp [(clean.flags.fq sram).1] at noSram
        · intro j lt m there
          rw [scratch, clean.heads j lt] at there
          cases there
        · rw [txSame]
          exact (ends.bare i member).buf
        · rw [txSame] at inRing
          have old := (above.range m (List.mem_flatMap.mpr ⟨i, member, inRing⟩)).2
          exact Nat.ne_of_lt (Nat.lt_of_lt_of_le old left.new)
        · obtain rfl := List.mem_singleton.mp (rings ▸ member)
          rw [ring]
          exact left.spared
        · rw [qdma]
          exact clean.rxQdma.spared
      have stays : Stays memory p.2.res := .inl (res ▸ left.live)
      rcases ((Spared.free (drops_stays memory)).mtkDmaFree ⟨stays, spared⟩).1 with live | fault
      · rw [restored.live, clean.flags.fresh memory (above.next.trans left.new)] at live
        cases live
      · rw [restored.fault, sound] at fault
        cases fault
    · intro released
      have good : (rxCall call .normal (soc.rxInSram 0) (call.rx 0)).array = false ∨
          RxWhole soc.rx (rxCall call .normal (soc.rxInSram 0) (call.rx 0)) := by
        rcases released with ⟨i, lt, fails⟩ | array | all
        · exact absurd (ends.ok.mp fine i (by simp [txRings, lt])) fails
        · exact .inl array
        · exact .inr all
      obtain ⟨own, maps, held, clean'⟩ := rxReleased above rxGone noSram narrow good alloc
      rw [pdma_free pdma (scratch ▸ clean.scratch) (scratch ▸ clean.heads)
        (qdma ▸ clean.rxQdma) outer', ring]
      refine (clean' _ (foldl_txClean nodup (fun i member => ?_) ?_)).restored
      · rw [txSame]
        exact ends.bare i member
      · have memory : txMemory soc.txRings p.2 = txMemory soc.txRings q.2 :=
          txMemory_congr fun i _ => by rw [txSame]
        rw [memory, res]
        exact held

/-- After a start that failed, or one that did not and was taken down, everything obtained has been
released once and nothing else has, if and only if the start fails before anything is mapped for
the QDMA, or the rings of the PDMA get everything or fail early. -/
theorem dma_all_or_nothing (idle : Idle soc cfg s)
    (started : mtkStartDma soc cfg call s.forget = some p) :
    s.forget.res.Restored (if p.1 then mtkDmaFree soc p.2 else p.2).res ↔
      AllReleased soc call := by
  have clean := idle.clean.forget
  obtain ⟨q, done, ends⟩ := Option.map_eq_some_iff.mp started
  have last : (if p.1 then mtkDmaFree soc p.2 else p.2) = mtkDmaFree soc q.2 := by
    rw [← ends]
    by_cases fine : q.1 = true
    · rw [if_pos fine, if_pos fine]
    · rw [if_neg fine, if_neg Bool.false_ne_true]
  rw [last, AllReleased]
  cases busy : call.busy with
  | true => exact iff_of_true (restored_busy clean busy done) (.inl rfl)
  | false =>
    cases qdma : soc.tx.qdma with
    | true => simpa using qdma_released clean rfl qdma busy done
    | false => simpa using pdma_released clean rfl qdma busy done

/-- On a PDMA without SRAM a start that gets everything is taken down as a whole. -/
theorem dma_all_or_nothing_pdma : ∃ (soc : DmaSoc) (cfg : KernelConfig) (call : InitCall)
    (p : Bool × DmaState), mtkStartDma soc cfg call (boot .empty).forget = some p ∧ p.1 = true ∧
      (boot .empty).forget.res.Restored (mtkDmaFree soc p.2).res := by
  let rx : RxSoc :=
    ⟨true, false, false, false, false, .bits14, 2, ⟨1, by decide, rfl⟩, nofun, nofun⟩
  let tx : TxSoc := ⟨false, false, false, 0x3fff, 2, by decide, 1, rfl⟩
  let soc : DmaSoc := ⟨rx, tx, 0, false, fun _ => false, false, false, false, rfl, nofun, nofun,
    fun _ => ⟨rfl, rfl, rfl, rfl, rfl⟩⟩
  let cfg : KernelConfig := ⟨64, 0, 64, 320, by decide, by decide⟩
  let mapped : Nat → Option DmaAddr := fun i => some (0x40000000 + BitVec.ofNat 64 (i * 2048))
  let outcome : RxOutcome := ⟨true, fun _ => true, true, mapped⟩
  let call : InitCall := ⟨false, 1536, ⟨true, fun _ => true, mapped⟩, fun _ => ⟨true, true, true⟩,
    outcome, fun _ => outcome⟩
  have begun : (mtkStartDma soc cfg call (boot .empty).forget).map Prod.fst = some true := by
    decide +kernel
  obtain ⟨p, started, fine⟩ := Option.map_eq_some_iff.mp begun
  have idle : Idle soc cfg (boot .empty) := .boot .empty fun _ _ => rfl
  have nonzero : ∀ j < 2, (0x40000000 + BitVec.ofNat 64 (j * 2048) : DmaAddr) ≠ 0 := by decide
  have whole : RxWhole rx (rxCall call .normal false outcome) :=
    ⟨fun _ _ => rfl, rfl, fun j lt => ⟨_, rfl, nonzero j lt⟩⟩
  have released : AllReleased soc call := .inr (.inr (.inr whole))
  have restored := (dma_all_or_nothing idle started).mpr released
  rw [fine, if_pos rfl] at restored
  exact ⟨soc, cfg, call, p, started, fine, restored⟩

/-- The mapping of a scratch head stays when there is no memory for a transmit ring. -/
theorem scratch_head_stays_mapped : ¬∀ (soc : DmaSoc) (cfg : KernelConfig) (call : InitCall)
    (s : DmaState) (p : Bool × DmaState), Idle soc cfg s →
      mtkStartDma soc cfg call s.forget = some p →
        s.forget.res.Restored (if p.1 then mtkDmaFree soc p.2 else p.2).res := by
  intro whole
  let rx : RxSoc := ⟨false, true, true, true, false, .bits16, 2, ⟨1, by decide, rfl⟩,
    fun _ => ⟨rfl, rfl⟩, fun _ => rfl⟩
  let tx : TxSoc := ⟨true, true, false, 0x3fff, 2, by decide, 1, rfl⟩
  let soc : DmaSoc := ⟨rx, tx, 2, false, fun _ => false, false, false, false, rfl,
    fun _ => by decide, nofun, nofun⟩
  let cfg : KernelConfig := ⟨64, 0, 64, 320, by decide, by decide⟩
  let mapped : Nat → Option DmaAddr := fun i => some (0x40000000 + BitVec.ofNat 64 (i * 2048))
  let outcome : RxOutcome := ⟨true, fun _ => true, true, mapped⟩
  let call : InitCall := ⟨false, 1536, ⟨true, fun _ => true, mapped⟩, fun _ => ⟨false, true, true⟩,
    outcome, fun _ => outcome⟩
  have begun : (mtkStartDma soc cfg call (boot .empty).forget).map
      (fun p => (p.1, p.2.res.mapped 0x40000000)) = some (false, some 1) := by
    decide +kernel
  obtain ⟨p, started, ends⟩ := Option.map_eq_some_iff.mp begun
  obtain ⟨failed, mapping⟩ := Prod.mk.inj ends
  have restored := whole soc cfg call _ p (.boot .empty fun _ _ => rfl) started
  rw [failed, if_neg Bool.false_ne_true] at restored
  have same := restored.mapped 0x40000000
  rw [mapping] at same
  cases same

end Whole

end DmaState

end MetaFilogic.Eth
