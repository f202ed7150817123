import MetaFilogic.BmtNmbm.Remap
import MetaFilogic.Library.Rounds
import Mathlib.Data.Finset.Range
import Mathlib.Data.Finset.Card

/-!
# What the maintenance of the info tables leaves alone

Writing management data changes nothing in memory but block states: a good block below
`mapping_blocks_top_ba` may become bad.  The maintenance of the tables moves the tables and
`mapping_blocks_ba` inside the management area and leaves the mapping and `mapping_blocks_top_ba`
alone.
-/

namespace MetaFilogic.BmtNmbm

open Bytes
open Nmbm (u32 subU32 BLOCK_ST_BAD BLOCK_ST_GOOD)

variable {σ α : Type} {bmtd : Bmtd σ} {post : α → State σ → Prop} {s : State σ}

theorem ensures_getNi {next : Instance → NmbmM σ α} (holds : Ensures (next s.ni) s post) :
    Ensures (getNi >>= next) s post :=
  holds

theorem ensures_modifyNi {update : Instance → Instance} {next : Unit → NmbmM σ α}
    (holds : Ensures (next ()) { s with ni := update s.ni } post) :
    Ensures (modifyNi update >>= next) s post :=
  holds

theorem bind_run {β : Type} (program : NmbmM σ α) (next : α → NmbmM σ β) (s : State σ) :
    (program >>= next) s = next (program s).1 (program s).2 :=
  rfl

theorem getNi_run (next : Instance → NmbmM σ α) (s : State σ) : (getNi >>= next) s = next s.ni s :=
  rfl

/-! ## Calls of the flash driver -/

def Idle (before after : State σ) : Prop :=
  after.ni = before.ni ∧ after.spares = before.spares

instance : Std.Refl (@Idle σ) := ⟨fun _ => ⟨rfl, rfl⟩⟩

instance : IsTrans (State σ) Idle :=
  ⟨fun _ _ _ first second => ⟨second.1.trans first.1, second.2.trans first.2⟩⟩

theorem idle_call (operation : StateM σ α) : Preserves Idle (call operation) :=
  fun _ => ⟨rfl, rfl⟩

theorem idle_readPhysPageTries (addr tries : Nat) (last : Int × List Byte) :
    Preserves Idle (readPhysPageTries bmtd addr tries last) := by
  induction tries generalizing last with
  | zero => exact .pure _
  | succ tries ih =>
    refine (idle_call _).bind fun _ => .ite (fun _ => .pure _) fun _ => ?_
    exact .ite (fun _ => .pure _) fun _ => ih _

theorem idle_readPhysPage (addr : Nat) : Preserves Idle (readPhysPage bmtd addr) :=
  idle_readPhysPageTries addr _ _

theorem idle_retry {request : NmbmM σ Int} (idle : Preserves Idle request) (tries : Nat) :
    Preserves Idle (retry request tries) := by
  induction tries with
  | zero => exact .pure _
  | succ tries ih => exact idle.bind fun _ => .ite (fun _ => .pure _) fun _ => ih

theorem idle_checkErasedPages (addr pages : Nat) :
    Preserves Idle (checkErasedPages bmtd addr pages) := by
  induction pages generalizing addr with
  | zero => exact .pure _
  | succ pages ih =>
    exact (idle_readPhysPage addr).bind fun _ => .ite (fun _ => .pure _) fun _ => ih _

theorem idle_eraseBlockAndCheck (ba : Nat) : Preserves Idle (eraseBlockAndCheck bmtd ba) := by
  refine (idle_retry (idle_call _) _).bind fun _ => .ite (fun _ => .pure _) fun _ => ?_
  exact .ite (fun _ => .pure _) fun _ => idle_checkErasedPages _ _

theorem idle_writePhysPage (addr : Nat) (data : List Byte) :
    Preserves Idle (writePhysPage bmtd addr data) :=
  idle_retry (idle_call _) _

theorem idle_writeRepeatedPages (data : List Byte) (addr pages : Nat) :
    Preserves Idle (writeRepeatedPages bmtd data addr pages) := by
  induction pages generalizing addr with
  | zero => exact .pure _
  | succ pages ih =>
    refine (idle_writePhysPage _ _).bind fun _ => .ite (fun _ => .pure _) fun _ => ?_
    refine (idle_readPhysPage _).bind fun _ => .ite (fun _ => .pure _) fun _ => ?_
    exact .ite (fun _ => .pure _) fun _ => ih _

theorem idle_writeRepeatedData (ba : Nat) (data : List Byte) :
    Preserves Idle (writeRepeatedData bmtd ba data) :=
  .ite (fun _ => .pure _) fun _ => idle_writeRepeatedPages _ _ _

theorem idle_nmbnWriteVerifyDataLoop (rounds off : Nat) (ptr : List Byte) :
    Preserves Idle (nmbnWriteVerifyDataLoop bmtd rounds off ptr) := by
  induction rounds generalizing off ptr with
  | zero => exact .pure _
  | succ rounds ih =>
    refine .ite (fun _ => .pure _) fun _ => (idle_writePhysPage _ _).bind fun _ => ?_
    refine .ite (fun _ => .pure _) fun _ => (idle_readPhysPage _).bind fun _ => ?_
    exact .ite (fun _ => .pure _) fun _ => .ite (fun _ => .pure _) fun _ => ih _ _

theorem idle_nmbnWriteVerifyData (addr : Nat) (data : List Byte) :
    Preserves Idle (nmbnWriteVerifyData bmtd addr data) :=
  idle_nmbnWriteVerifyDataLoop _ _ _

theorem idle_bbtNandCopy (dest src : Nat) (maxOffset : Int) :
    Preserves Idle (bbtNandCopy bmtd dest src maxOffset) := by
  suffices ∀ pages offset,
      Preserves Idle (bbtNandCopyFrom bmtd dest src maxOffset pages offset) from this _ _
  intro pages
  induction pages with
  | zero => exact fun _ => .pure _
  | succ pages ih =>
    refine fun offset => .ite (fun _ => .pure _) fun _ => (idle_call _).bind fun _ => ?_
    refine .ite (fun _ => .pure _) fun _ => .ite (fun _ => .pure _) fun _ => ?_
    exact (idle_call _).bind fun _ => .ite (fun _ => .pure _) fun _ => ih _

/-! ## Block states -/

theorem getBlockState_set_same (ni : Instance) (ba : Nat) (state : BitVec 32) :
    (ni.setBlockState ba state).getBlockState ba = state &&& Nmbm.BLOCK_ST_MASK :=
  Nmbm.getBlockStateRaw_put_same _ _ _

variable {ba blocks first : Nat} {before after : State σ} {ptr : List Byte} {start : Option Nat}

theorem getBlockState_set_other (ni : Instance) {other : Nat} (state : BitVec 32)
    (distinct : other ≠ ba) :
    (ni.setBlockState ba state).getBlockState other = ni.getBlockState other :=
  Nmbm.getBlockStateRaw_put_other _ _ distinct

/-- The blocks below `mapping_blocks_top_ba` that are recorded as good. -/
def Instance.goods (ni : Instance) : Nat :=
  ((Finset.range ni.mappingBlocksTopBa).filter fun ba => ni.getBlockState ba = BLOCK_ST_GOOD).card

theorem goods_lost {ni : Instance} (good : ni.getBlockState ba = BLOCK_ST_GOOD)
    (below : ba < ni.mappingBlocksTopBa) : (ni.setBlockState ba BLOCK_ST_BAD).goods < ni.goods := by
  have bad : (ni.setBlockState ba BLOCK_ST_BAD).getBlockState ba ≠ BLOCK_ST_GOOD := by
    rw [getBlockState_set_same]
    decide
  refine Finset.card_lt_card (Finset.ssubset_iff_of_subset ?_ |>.mpr ⟨ba, ?_, ?_⟩)
  · intro other among
    rw [Finset.mem_filter] at among ⊢
    have distinct : other ≠ ba := fun is => bad (is ▸ among.2)
    exact ⟨among.1, getBlockState_set_other ni BLOCK_ST_BAD distinct ▸ among.2⟩
  · exact Finset.mem_filter.mpr ⟨Finset.mem_range.mpr below, good⟩
  · exact fun among => bad (Finset.mem_filter.mp among).2

/-- Nothing in memory has changed but block states. -/
structure Marked (before after : State σ) : Prop where
  same : after.ni = { before.ni with
    blockState := after.ni.blockState, blockStateChanged := after.ni.blockStateChanged }
  spares : after.spares = before.spares

instance : Std.Refl (@Marked σ) := ⟨fun _ => ⟨rfl, rfl⟩⟩

instance : IsTrans (State σ) Marked :=
  ⟨fun _ _ _ first second =>
    ⟨second.same.trans (first.same ▸ rfl), second.spares.trans first.spares⟩⟩

theorem marked_setBlockState (ba : Nat) (state : BitVec 32) :
    Preserves Marked (setBlockState ba state : NmbmM σ Unit) :=
  fun _ => ⟨rfl, rfl⟩

theorem marked_of_idle {program : NmbmM σ α} (idle : Preserves Idle program) :
    Preserves Marked program :=
  idle.mono fun _ _ idle => ⟨by rw [idle.1], idle.2⟩

/-- The states of good blocks below `mapping_blocks_top_ba` have changed, and the dirty counter is
only raised for them. -/
structure Recorded (before after : State σ) : Prop extends Marked before after where
  goods : after.ni.goods ≤ before.ni.goods
  counted : after.ni.goods = before.ni.goods →
    after.ni.blockStateChanged ≤ before.ni.blockStateChanged

theorem Recorded.refl (s : State σ) : Recorded s s :=
  ⟨⟨rfl, rfl⟩, le_rfl, fun _ => le_rfl⟩

theorem Recorded.trans {middle : State σ} (first : Recorded before middle)
    (second : Recorded middle after) : Recorded before after where
  toMarked := trans_of Marked first.toMarked second.toMarked
  goods := second.goods.trans first.goods
  counted equal := by
    have less := first.goods
    have later := second.goods
    exact (second.counted (by omega)).trans (first.counted (by omega))

theorem Idle.recorded (idle : Idle before after) : Recorded before after :=
  ⟨⟨by rw [idle.1], idle.2⟩, by rw [idle.1], fun _ => by rw [idle.1]⟩

/-- A good block below `mapping_blocks_top_ba` is given up. -/
theorem recorded_lost (good : s.ni.getBlockState ba = BLOCK_ST_GOOD)
    (below : ba < s.ni.mappingBlocksTopBa) :
    Recorded s { s with ni := s.ni.setBlockState ba BLOCK_ST_BAD } :=
  have lost := goods_lost good below
  ⟨⟨rfl, rfl⟩, lost.le, fun equal => absurd equal lost.ne⟩

theorem Recorded.top (recorded : Recorded before after) :
    after.ni.mappingBlocksTopBa = before.ni.mappingBlocksTopBa :=
  (congrArg Instance.mappingBlocksTopBa recorded.same :)

/-! ## Ranges of blocks -/

theorem retireBlock_recorded (good : s.ni.getBlockState ba = BLOCK_ST_GOOD)
    (below : ba < s.ni.mappingBlocksTopBa) :
    Ensures (retireBlock bmtd ba) s fun _ after => Recorded s after := by
  refine Ensures.bind ((idle_call _).ensures s) fun _ marked idle => ?_
  exact idle.recorded.trans (recorded_lost (idle.1 ▸ good) (idle.1 ▸ below))

theorem eraseRangeLoop_recorded (within : blocks = 0 ∨ ba + blocks ≤ s.ni.mappingBlocksTopBa) :
    Ensures (eraseRangeLoop bmtd blocks ba) s fun _ after => Recorded s after := by
  induction blocks generalizing ba s with
  | zero => exact .pure (.refl s)
  | succ blocks ih =>
    -- the blocks that follow, from whatever state this one leaves
    have rest {middle : State σ} (recorded : Recorded s middle) :
        Ensures (eraseRangeLoop bmtd blocks (ba + 1)) middle fun _ after => Recorded s after :=
      (ih (.inr (by rw [recorded.top]; omega))).mono fun _ _ later => recorded.trans later
    refine ensures_getNi (.ite (fun _ => rest (.refl s)) fun good => ?_)
    have good := not_not.mp good
    have below : ba < s.ni.mappingBlocksTopBa := by omega
    refine Ensures.bind ((idle_call _).ensures s) fun _ checked idle => ?_
    refine .ite (fun _ => ?_) fun _ => ?_
    · exact ensures_modifyNi (rest
        (idle.recorded.trans (recorded_lost (idle.1 ▸ good) (idle.1 ▸ below))))
    refine Ensures.bind ((idle_eraseBlockAndCheck ba).ensures checked) fun _ erased blank => ?_
    have idle : Idle s erased := trans_of Idle idle blank
    refine .ite (fun _ => rest idle.recorded) fun _ => ?_
    refine Ensures.bind (retireBlock_recorded (idle.1 ▸ good) (idle.1 ▸ below))
      fun _ _ retired => rest (idle.recorded.trans retired)

theorem eraseRange_recorded {limit : Nat} (low : limit ≤ s.ni.mappingBlocksTopBa) :
    Ensures (eraseRange bmtd ba limit) s fun _ after => Recorded s after :=
  eraseRangeLoop_recorded (by omega)

theorem writeMgmtRangeLoop_recorded (within : blocks = 0 ∨ ba + blocks ≤ s.ni.mappingBlocksTopBa) :
    Ensures (writeMgmtRangeLoop bmtd blocks ba ptr start) s fun _ after => Recorded s after := by
  induction blocks generalizing ba ptr start s with
  | zero => exact .pure (.refl s)
  | succ blocks ih =>
    have rest {middle : State σ} (ptr : List Byte) (start : Option Nat)
        (recorded : Recorded s middle) :
        Ensures (writeMgmtRangeLoop bmtd blocks (ba + 1) ptr start) middle
          fun _ after => Recorded s after :=
      (ih (.inr (by rw [recorded.top]; omega))).mono fun _ _ later => recorded.trans later
    refine .ite (fun _ => .pure (.refl s)) fun _ => ensures_getNi ?_
    refine .ite (fun _ => rest _ _ (.refl s)) fun good => ?_
    have good := not_not.mp good
    have below : ba < s.ni.mappingBlocksTopBa := by omega
    refine Ensures.bind ((idle_call _).ensures s) fun _ checked idle => ?_
    refine .ite (fun _ => ?_) fun _ => ?_
    · exact ensures_modifyNi (rest _ _
        (idle.recorded.trans (recorded_lost (idle.1 ▸ good) (idle.1 ▸ below))))
    refine Ensures.bind ((idle_eraseBlockAndCheck ba).ensures checked) fun _ erased blank => ?_
    have idle : Idle s erased := trans_of Idle idle blank
    refine .ite (fun _ => ?_) fun _ => ?_
    · refine Ensures.bind (retireBlock_recorded (idle.1 ▸ good) (idle.1 ▸ below))
        fun _ _ retired => rest _ _ (idle.recorded.trans retired)
    refine Ensures.bind ((idle_nmbnWriteVerifyData _ _).ensures erased) fun _ written wrote => ?_
    have idle : Idle s written := trans_of Idle idle wrote
    refine .ite (fun _ => rest _ _ idle.recorded) fun _ => ?_
    exact Ensures.bind (retireBlock_recorded (idle.1 ▸ good) (idle.1 ▸ below))
      fun _ _ retired => rest _ _ (idle.recorded.trans retired)

/-- Where the first chunk is, or that there is still a chunk to write, while a range from block
`first` on is written. -/
def Started (first ba : Nat) (ptr : List Byte) : Option Nat → Prop
  | none => ptr.length ≠ 0 ∧ first ≤ ba
  | some start => first ≤ start ∧ start < ba

theorem Started.next {rest : List Byte} (started : Started first ba ptr start)
    (kept : rest.length = 0 → ptr.length = 0) : Started first (ba + 1) rest start := by
  cases start with
  | none => exact ⟨fun empty => started.1 (kept empty), Nat.le_succ_of_le started.2⟩
  | some start => exact ⟨started.1, Nat.lt_succ_of_lt started.2⟩

theorem Started.written (started : Started first ba ptr start) (rest : List Byte) :
    Started first (ba + 1) rest (some (start.getD ba)) := by
  cases start with
  | none => exact ⟨started.2, Nat.lt_succ_self ba⟩
  | some start => exact ⟨started.1, Nat.lt_succ_of_lt started.2⟩

theorem Started.done (started : Started first ba ptr start) (empty : ptr.length = 0) :
    first ≤ start.getD 0 ∧ start.getD 0 < ba := by
  cases start with
  | none => exact absurd empty started.1
  | some start => exact started

theorem writeMgmtRangeLoop_range (started : Started first ba ptr start) :
    Ensures (writeMgmtRangeLoop bmtd blocks ba ptr start) s fun range _ =>
      ∀ lower upper, range = some (lower, upper) →
        first ≤ lower ∧ lower < upper ∧ upper ≤ ba + blocks := by
  induction blocks generalizing ba ptr start s with
  | zero =>
    refine .pure fun lower upper found => ?_
    split at found
    · cases found
      exact ⟨(started.done ‹_›).1, (started.done ‹_›).2, Nat.le_add_right _ _⟩
    · cases found
  | succ blocks ih =>
    have rest {ptr : List Byte} {start : Option Nat} (middle : State σ)
        (started : Started first (ba + 1) ptr start) :
        Ensures (writeMgmtRangeLoop bmtd blocks (ba + 1) ptr start) middle fun range _ =>
          ∀ lower upper, range = some (lower, upper) →
            first ≤ lower ∧ lower < upper ∧ upper ≤ ba + (blocks + 1) :=
      (ih started).mono fun _ _ holds lower upper found => by
        have := holds lower upper found
        omega
    have skipped : Started first (ba + 1) ptr start := started.next id
    refine .ite (fun empty => .pure fun lower upper found => ?_) fun _ => ensures_getNi ?_
    · cases found
      exact ⟨(started.done empty).1, (started.done empty).2, Nat.le_add_right _ _⟩
    refine .ite (fun _ => rest _ skipped) fun _ => ?_
    refine Ensures.bind (.of_true _ _) fun _ checked _ => .ite (fun _ => ?_) fun _ => ?_
    · exact ensures_modifyNi (rest _ skipped)
    refine Ensures.bind (.of_true _ _) fun _ erased _ => .ite (fun _ => ?_) fun _ => ?_
    · exact Ensures.bind (.of_true _ _) fun _ middle _ => rest middle skipped
    refine Ensures.bind (.of_true _ _) fun _ written _ => .ite (fun _ => ?_) fun _ => ?_
    · exact rest written (started.written _)
    · exact Ensures.bind (.of_true _ _) fun _ middle _ => rest middle skipped

/-- `nmbm_write_info_table` below `mapping_blocks_top_ba`. -/
theorem writeInfoTable_spec {limit : Nat} (low : limit ≤ s.ni.mappingBlocksTopBa)
    (cache : s.ni.infoTableCache ≠ []) :
    Ensures (writeInfoTable bmtd ba limit) s fun range after => Recorded s after ∧
      ∀ lower upper, range = some (lower, upper) → ba ≤ lower ∧ lower < upper ∧ upper ≤ limit := by
  have started : Started ba ba s.ni.infoTableCache none :=
    ⟨fun empty => cache (List.eq_nil_of_length_eq_zero empty), le_rfl⟩
  refine ensures_getNi ((writeMgmtRangeLoop_recorded (by omega)).both ?_)
  refine (writeMgmtRangeLoop_range started).mono fun range _ holds lower upper found => ?_
  have := holds lower upper found
  omega

end MetaFilogic.BmtNmbm
