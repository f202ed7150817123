import MetaFilogic.Nmbm.Trace

/-!
# The invariant of a writable session

`WellMapped` is what the mapping of the logical blocks has to be: injective, with
every mapped block in the data area or above `mapping_blocks_top_ba`.  A session
is well mapped, its boundaries are in order and its tables are on flash; every
info table it has ever written was well mapped too, which is what a later attach
relies on.

The lemmas here say that single steps keep a session: access to a block outside
the management data, a change of a block state, an update of the tables, a
logical block that is given a spare block or loses its mapping.
-/

namespace MetaFilogic.Nmbm

open Bytes

section Definitions

variable (ld : LowerDevice)

/-- A mapping of logical blocks below `capacity`: different logical blocks go to
different physical blocks, and these lie in the data area or above `top`. -/
structure WellMapped (capacity top : Nat) (mapping : Nat → BitVec 32) : Prop where
  fits : capacity ≤ ld.mgmtStart
  beyond : ∀ lb, capacity ≤ lb → lb < ld.blockCount → isUnmapped (mapping lb)
  injective : ∀ lb other, lb < ld.blockCount → other < ld.blockCount →
    ¬isUnmapped (mapping lb) → mapping lb = mapping other → lb = other
  apart : ∀ lb, lb < ld.blockCount → ¬isUnmapped (mapping lb) →
    (mapping lb).toNat < ld.mgmtStart ∨ top < (mapping lb).toNat

/-- What is known of an info table that was written to blocks below `limit`. -/
structure RecordedTable (lower limit : Nat) (image : List Byte) : Prop where
  valid : ValidTable ld image
  placed : (InfoTableHeader.parse image).Placed ld
  start : ld.mgmtStart ≤ lower
  mapping : WellMapped ld ld.mgmtStart limit (imageMapping image)

def Event.WellFormed : Event → Prop
  | .tableWrite lower limit image => lower < limit → RecordedTable ld lower limit image
  | .signatureWrite _ image => image = (newSignature ld ld.mgmtStart).bytes
  | _ => True

def WellRecorded (trace : List Event) : Prop := ∀ event ∈ trace, event.WellFormed ld

/-- Whenever a read-only attach found a backup table older than the main table, this
ended below the spare blocks the main table has in use. -/
def FitsLoaded (trace : List Event) : Prop :=
  ∀ signatureBa main backup, .tablesFound true signatureBa main (some backup) ∈ trace →
    backup.writeCount < main.writeCount → backup.endBa ≤ main.mappingBlocksTopBa

structure Grounded (capacity : Nat) (state : State) : Prop where
  start : state.ni.mgmtStartBa = ld.mgmtStart
  top : state.ni.mappingBlocksTopBa < state.ni.signatureBa
  chip : state.ni.signatureBa < ld.blockCount
  placed : state.ni.infoTable.Placed ld
  mapping : WellMapped ld capacity state.ni.mappingBlocksTopBa state.ni.blockMapping
  trace : WellRecorded ld state.trace

/-- The same with the info tables on flash and in order. -/
structure Arranged (capacity : Nat) (state : State) : Prop
    extends Grounded ld capacity state where
  layout : Layout ld state

/-- A session that may write: the tables hold what is in memory, unless a dirty
counter is up or the run has shown one of the ways to lose track. -/
structure Session (capacity : Nat) (state : State) : Prop
    extends Arranged ld capacity state where
  saved : Noticed state.trace → Saved ld state
  durable : Noticed state.trace → Exact state.trace → Durable ld state

/-- The order of the boundaries on a chip with info tables. -/
structure Ordered (state : State) : Prop where
  mainLow : state.ni.mgmtStartBa ≤ state.ni.mainTableBa
  mainFirst : state.ni.backupTableBa ≠ 0 → state.ni.mainTableBa < state.ni.backupTableBa
  last : ∃ stop image, HoldsTable ld state.flash
    (if state.ni.backupTableBa = 0 then state.ni.mainTableBa else state.ni.backupTableBa)
      stop image ∧ stop ≤ state.ni.mappingBlocksBa
  upper : state.ni.mappingBlocksBa ≤ state.ni.mappingBlocksTopBa
  top : state.ni.mappingBlocksTopBa < state.ni.signatureBa
  chip : state.ni.signatureBa < ld.blockCount

/-- What holds after a successful attach and all requests that follow. -/
structure Attached (state : State) : Prop where
  mapping : ∃ top, WellMapped ld state.ni.dataBlockCount top state.ni.blockMapping
  grounded : state.ni.flags.readOnly = false → Grounded ld state.ni.dataBlockCount state
  session : state.ni.flags.readOnly = false → state.ni.isProtected = false →
    Session ld state.ni.dataBlockCount state
  ordered : state.ni.flags.readOnly = true → FitsLoaded state.trace →
    state.ni.mainTableBa ≠ 0 → Ordered ld state

end Definitions

instance (trace : List Event) : Decidable (FitsLoaded trace) :=
  decidable_of_iff (trace.all (fun
      | .tablesFound true _ main (some backup) =>
        backup.writeCount < main.writeCount → backup.endBa ≤ main.mappingBlocksTopBa
      | _ => true) = true) <| by
    rw [List.all_eq_true]
    refine ⟨fun all signatureBa main backup among => of_decide_eq_true (all _ among :),
      fun fits event among => ?_⟩
    split
    · exact decide_eq_true (fits _ _ _ among)
    · rfl

/-! ## Entries of the mapping -/

theorem isUnmapped_unmappedEntry : isUnmapped unmappedEntry := by
  decide

theorem toNat_mapped {pb : Nat} (small : pb < 2 ^ 32) : (mapped pb).toNat = pb := by
  rw [mapped, BitVec.toNat_ofNat, Nat.mod_eq_of_lt small]

theorem isUnmapped_iff (entry : BitVec 32) : isUnmapped entry ↔ 2 ^ 31 ≤ entry.toNat := by
  rw [isUnmapped, BitVec.toInt_eq_toNat_cond]
  have width := entry.isLt
  split <;> omega

namespace WellMapped

variable {ld : LowerDevice} {capacity larger top lower lb : Nat}
  {mapping other : Nat → BitVec 32}

theorem mono (well : WellMapped ld capacity top mapping) (grow : capacity ≤ larger)
    (within : larger ≤ ld.mgmtStart) (below : lower ≤ top) :
    WellMapped ld larger lower mapping where
  fits := within
  beyond lb high := well.beyond lb (by omega)
  injective := well.injective
  apart lb small is := (well.apart lb small is).imp_right (by omega)

theorem congr (well : WellMapped ld capacity top mapping)
    (same : ∀ lb, lb < ld.blockCount → other lb = mapping lb) :
    WellMapped ld capacity top other where
  fits := well.fits
  beyond lb high small := same lb small ▸ well.beyond lb high small
  injective lb next lbSmall nextSmall is equal := by
    rw [same lb lbSmall] at is equal
    rw [same next nextSmall] at equal
    exact well.injective lb next lbSmall nextSmall is equal
  apart lb small is := by
    rw [same lb small] at is ⊢
    exact well.apart lb small is

theorem unmap (well : WellMapped ld capacity top mapping) (lb : Nat) :
    WellMapped ld capacity top fun next => if next = lb then unmappedEntry else mapping next where
  fits := well.fits
  beyond next high small := by
    by_cases here : next = lb
    · rw [if_pos here]
      exact isUnmapped_unmappedEntry
    · rw [if_neg here]
      exact well.beyond next high small
  injective first second firstSmall secondSmall is equal := by
    by_cases here : first = lb
    · rw [if_pos here] at is
      exact absurd isUnmapped_unmappedEntry is
    · rw [if_neg here] at is equal
      by_cases there : second = lb
      · rw [if_pos there] at equal
        exact absurd (equal ▸ isUnmapped_unmappedEntry) is
      · rw [if_neg there] at equal
        exact well.injective first second firstSmall secondSmall is equal
  apart next small is := by
    by_cases here : next = lb
    · rw [if_pos here] at is
      exact absurd isUnmapped_unmappedEntry is
    · rw [if_neg here] at is ⊢
      exact well.apart next small is

/-- A logical block is mapped to the block at `top`, which is free. -/
theorem assign (well : WellMapped ld capacity top mapping) (next : lb ≤ capacity)
    (logical : lb < ld.mgmtStart) (free : ld.mgmtStart ≤ top) (positive : 0 < top)
    (small : top < 2 ^ 31) :
    WellMapped ld (max capacity (lb + 1)) (top - 1)
      fun other => if other = lb then mapped top else mapping other where
  fits := by
    have := well.fits
    omega
  beyond other high inside := by
    rw [if_neg (by omega)]
    exact well.beyond other (by omega) inside
  injective first second firstSmall secondSmall is equal := by
    -- No other logical block can be mapped to the block at `top`
    have unused (other : Nat) (inside : other < ld.blockCount)
        (is : ¬isUnmapped (mapping other)) : (mapping other).toNat ≠ top := by
      rcases well.apart other inside is with low | high <;> omega
    have value : (mapped top).toNat = top := toNat_mapped (by omega)
    by_cases here : first = lb <;> by_cases there : second = lb
    · omega
    · rw [if_pos here] at is equal
      rw [if_neg there] at equal
      exact absurd (equal ▸ value) (unused second secondSmall (equal ▸ is))
    · rw [if_neg here] at is equal
      rw [if_pos there] at equal
      exact absurd (equal ▸ value) (unused first firstSmall is)
    · rw [if_neg here] at is equal
      rw [if_neg there] at equal
      exact well.injective first second firstSmall secondSmall is equal
  apart other inside is := by
    by_cases here : other = lb
    · rw [if_pos here, toNat_mapped (by omega)]
      omega
    · rw [if_neg here] at is ⊢
      have := well.apart other inside is
      omega

end WellMapped

/-! ## Records -/

variable {new old : List Event} {region : Nat → Prop}

theorem WellRecorded.append {ld : LowerDevice} (recorded : WellRecorded ld old)
    (fine : ∀ event ∈ new, event.WellFormed ld) : WellRecorded ld (new ++ old) := by
  intro event among
  exact (List.mem_append.mp among).elim (fine event) (recorded event)

theorem WellRecorded.cons {ld : LowerDevice} {event : Event} {trace : List Event}
    (recorded : WellRecorded ld trace) (fine : event.WellFormed ld) :
    WellRecorded ld (event :: trace) :=
  List.forall_mem_cons.mpr ⟨fine, recorded⟩

theorem Event.IsAccess.wellFormed (ld : LowerDevice) {event : Event} (access : event.IsAccess) :
    event.WellFormed ld := by
  cases event <;> trivial

theorem noticed_append (access : ∀ event ∈ new, event.IsAccess) :
    Noticed (new ++ old) ↔ Noticed old := by
  refine ⟨fun noticed dirty among => noticed dirty (List.mem_append_right _ among),
    fun noticed dirty among => ?_⟩
  exact (List.mem_append.mp among).elim (fun fresh => (access _ fresh).elim) (noticed dirty)

theorem exact_append (access : ∀ event ∈ new, event.IsAccess) : Exact (new ++ old) ↔ Exact old := by
  refine ⟨fun exact noted among => exact noted (List.mem_append_right _ among),
    fun exact noted among => ?_⟩
  exact (List.mem_append.mp among).elim (fun fresh => (access _ fresh).elim) (exact noted)

/-! ## Steps of a session -/

variable {ld : LowerDevice} {capacity : Nat} {state after : State}

theorem Touches.wellRecorded (touches : Touches ld region state after)
    (recorded : WellRecorded ld state.trace) : WellRecorded ld after.trace := by
  obtain ⟨new, trace, access⟩ := touches.access
  rw [trace]
  exact recorded.append fun event among => (access event among).wellFormed ld

theorem Grounded.maintained (grounded : Grounded ld capacity state)
    (maintained : Maintained ld state after) : Grounded ld capacity after := by
  have start := maintained.mgmtStartBa
  have top := maintained.mappingBlocksTopBa
  have signature := maintained.signatureBa
  have topLow := grounded.top
  have chip := grounded.chip
  refine ⟨start.trans grounded.start, by omega, by omega, maintained.placed, ?_, ?_⟩
  · rw [top, maintained.mapping]
    exact grounded.mapping
  · obtain ⟨new, trace, inside⟩ := maintained.trace
    rw [trace]
    refine grounded.trace.append fun event among => ?_
    have proper := inside event among
    cases event with
    | tableWrite lower limit image =>
      intro nonempty
      have low := (proper.1 lower le_rfl nonempty).1
      have high := (proper.1 (limit - 1) (by omega) (by omega)).2
      rw [grounded.start] at low
      refine ⟨proper.2.valid, proper.2.placed, low, ?_⟩
      exact (grounded.mapping.mono grounded.mapping.fits le_rfl (by omega)).congr
        proper.2.mapping
    | signatureWrite => exact proper.elim
    | erase => trivial
    | program => trivial
    | markBad => trivial
    | tablesClean => trivial
    | spareTaken => trivial
    | unmapped => trivial
    | signatureFound => trivial
    | tablesFound => trivial
    | attached => trivial

theorem Maintained.noticed (maintained : Maintained ld state after) :
    Noticed after.trace ↔ Noticed state.trace := by
  obtain ⟨new, trace, inside⟩ := maintained.trace
  refine ⟨maintained.grows.noticed, fun noticed dirty among => ?_⟩
  rw [trace] at among
  exact (List.mem_append.mp among).elim (fun fresh => (inside _ fresh).elim) (noticed dirty)

theorem Stores.keep (sound : ld.Sound) {image : List Byte} (stores : Stores ld state image)
    (outline : after.ni.outline = state.ni.outline)
    (flash : state.flash.AgreesOutside ld region after.flash)
    (apart : ∀ block, Between state.ni.mgmtStartBa state.ni.mappingBlocksBa block →
      ¬region block) : Stores ld after image := by
  obtain ⟨ba, stop, which, low, high, holds⟩ := stores
  have start : after.ni.mgmtStartBa = state.ni.mgmtStartBa :=
    (congrArg Instance.mgmtStartBa outline :)
  have main : after.ni.mainTableBa = state.ni.mainTableBa :=
    (congrArg Instance.mainTableBa outline :)
  have backup : after.ni.backupTableBa = state.ni.backupTableBa :=
    (congrArg Instance.backupTableBa outline :)
  have blocks : after.ni.mappingBlocksBa = state.ni.mappingBlocksBa :=
    (congrArg Instance.mappingBlocksBa outline :)
  refine ⟨ba, stop, main ▸ backup ▸ which, by omega, by omega, holds.frame sound flash ?_⟩
  exact fun block between => apart block ⟨low.trans between.1, between.2.trans_le high⟩

theorem Layout.keep (sound : ld.Sound) (layout : Layout ld state)
    (outline : after.ni.outline = state.ni.outline)
    (flash : state.flash.AgreesOutside ld region after.flash)
    (apart : ∀ block, Between state.ni.mgmtStartBa state.ni.mappingBlocksBa block →
      ¬region block) : Layout ld after := by
  have start : after.ni.mgmtStartBa = state.ni.mgmtStartBa :=
    (congrArg Instance.mgmtStartBa outline :)
  have main : after.ni.mainTableBa = state.ni.mainTableBa :=
    (congrArg Instance.mainTableBa outline :)
  have backup : after.ni.backupTableBa = state.ni.backupTableBa :=
    (congrArg Instance.backupTableBa outline :)
  have blocks : after.ni.mappingBlocksBa = state.ni.mappingBlocksBa :=
    (congrArg Instance.mappingBlocksBa outline :)
  have top : after.ni.mappingBlocksTopBa = state.ni.mappingBlocksTopBa :=
    (congrArg Instance.mappingBlocksTopBa outline :)
  have lower := layout.lower
  have upper := layout.upper
  refine ⟨by omega, by omega, fun some => ?_, fun some => ?_, fun some => ?_⟩
  · have low := layout.mainLow (by omega)
    omega
  · obtain ⟨stop, image, holds, within⟩ := layout.main (by omega)
    have low := layout.mainLow (Or.inl (by omega))
    have limit := layout.mainLimit_le
    refine ⟨stop, image, main ▸ holds.frame sound flash fun block between =>
      apart block ⟨low.trans between.1, between.2.trans_le (within.trans limit)⟩, ?_⟩
    simpa only [Instance.mainLimit, backup, blocks] using within
  · obtain ⟨low, stop, image, holds, within⟩ := layout.backup (by omega)
    refine ⟨by omega, stop, image, backup ▸ holds.frame sound flash fun block between =>
      apart block ⟨low.trans between.1, between.2.trans_le within⟩, by omega⟩

namespace Arranged

theorem carry (sound : ld.Sound) (arranged : Arranged ld capacity state) {region : Nat → Prop}
    (outline : after.ni.outline = state.ni.outline)
    (flash : state.flash.AgreesOutside ld region after.flash)
    (apart : ∀ block, Between state.ni.mgmtStartBa state.ni.mappingBlocksBa block →
      ¬region block)
    (trace : ∃ new, after.trace = new ++ state.trace ∧ ∀ event ∈ new, event.IsAccess) :
    Arranged ld capacity after := by
  obtain ⟨new, trace, access⟩ := trace
  have mapping : after.ni.blockMapping = state.ni.blockMapping :=
    (congrArg Instance.blockMapping outline :)
  have top : after.ni.mappingBlocksTopBa = state.ni.mappingBlocksTopBa :=
    (congrArg Instance.mappingBlocksTopBa outline :)
  have signature : after.ni.signatureBa = state.ni.signatureBa :=
    (congrArg Instance.signatureBa outline :)
  have start : after.ni.mgmtStartBa = state.ni.mgmtStartBa :=
    (congrArg Instance.mgmtStartBa outline :)
  have infoTable : after.ni.infoTable = state.ni.infoTable :=
    (congrArg Instance.infoTable outline :)
  have topLow := arranged.top
  have chip := arranged.chip
  refine ⟨⟨start.trans arranged.start, by omega, by omega, infoTable ▸ arranged.placed, ?_, ?_⟩,
    arranged.layout.keep sound outline flash apart⟩
  · rw [top, mapping]
    exact arranged.mapping
  · rw [trace]
    exact arranged.trace.append fun event among => (access event among).wellFormed ld

theorem touched (sound : ld.Sound) (arranged : Arranged ld capacity state)
    {region : Nat → Prop} (touches : Touches ld region state after)
    (apart : ∀ block, Between state.ni.mgmtStartBa state.ni.mappingBlocksBa block →
      ¬region block) : Arranged ld capacity after :=
  arranged.carry sound touches.outline touches.flash apart touches.access

theorem recorded (sound : ld.Sound) (arranged : Arranged ld capacity state) (ba : Nat)
    (blockState : BitVec 32) :
    Arranged ld capacity { state with ni := state.ni.setBlockState ba blockState } :=
  have unchanged : state.flash.AgreesOutside ld (fun _ => False) state.flash := .refl _
  arranged.carry sound rfl unchanged (fun _ _ => id) ⟨[], rfl, by simp⟩

theorem unmap (arranged : Arranged ld capacity state) (lb : Nat) :
    Arranged ld capacity { state with
      ni := { state.ni with
        blockMapping := fun other =>
          if other = lb then unmappedEntry else state.ni.blockMapping other } } :=
  ⟨⟨arranged.start, arranged.top, arranged.chip, arranged.placed, arranged.mapping.unmap lb,
    arranged.trace⟩, ⟨arranged.layout.lower, arranged.layout.upper, arranged.layout.mainLow,
      arranged.layout.main, arranged.layout.backup⟩⟩

theorem ordered (arranged : Arranged ld capacity state) (some : state.ni.mainTableBa ≠ 0) :
    Ordered ld state := by
  obtain ⟨stop, image, holds, within⟩ := arranged.layout.main some
  have between := holds.lt
  refine ⟨arranged.layout.mainLow (Or.inl some), fun is => ?_, ?_, arranged.layout.upper,
    arranged.top, arranged.chip⟩
  · rw [Instance.mainLimit, if_neg is] at within
    omega
  · by_cases none : state.ni.backupTableBa = 0
    · rw [if_pos none]
      rw [Instance.mainLimit, if_pos none] at within
      exact ⟨stop, image, holds, within⟩
    · rw [if_neg none]
      exact (arranged.layout.backup none).2

theorem bound (arranged : Arranged ld capacity state) : capacity < ld.blockCount := by
  have fits := arranged.mapping.fits
  have start := arranged.start
  have lower := arranged.layout.lower
  have upper := arranged.layout.upper
  have top := arranged.top
  have chip := arranged.chip
  omega

theorem apart (arranged : Arranged ld capacity state) {lb : Nat} (inside : lb < ld.blockCount)
    (is : ¬isUnmapped (state.ni.blockMapping lb)) (block : Nat)
    (between : Between state.ni.mgmtStartBa state.ni.mappingBlocksBa block) :
    (state.ni.blockMapping lb).toNat ≠ block := by
  have start := arranged.start
  have upper := arranged.layout.upper
  have low := between.1
  have high := between.2
  rcases arranged.mapping.apart lb inside is with data | spare <;> omega

/-- A logical block was unmapped and the record of it made: either a dirty counter is
up, or the run has shown otherwise. -/
theorem noted (arranged : Arranged ld capacity state) :
    Session ld capacity { state with
      trace := .unmapped (state.ni.blockStateChanged ≠ 0 ∨ state.ni.blockMappingChanged ≠ 0) ::
        state.trace } := by
  have dirty (noticed : Noticed (.unmapped
      (state.ni.blockStateChanged ≠ 0 ∨ state.ni.blockMappingChanged ≠ 0) :: state.trace)) :
      state.ni.blockStateChanged ≠ 0 ∨ state.ni.blockMappingChanged ≠ 0 :=
    of_decide_eq_true (noticed _ List.mem_cons_self)
  refine ⟨⟨⟨arranged.start, arranged.top, arranged.chip, arranged.placed, arranged.mapping,
    arranged.trace.cons trivial⟩, ⟨arranged.layout.lower, arranged.layout.upper,
      arranged.layout.mainLow, arranged.layout.main, arranged.layout.backup⟩⟩, fun noticed => ?_,
        fun noticed _ => ?_⟩
  · exact Or.inr ((dirty noticed).imp_right Or.inl)
  · exact Or.inr ((dirty noticed).imp_right Or.inl)

end Arranged

namespace Session

theorem updated (session : Session ld capacity state) (updated : Updated ld state after) :
    Session ld capacity after where
  toGrounded := session.toGrounded.maintained updated.maintained
  layout := updated.layout
  saved noticed := updated.saved (session.saved (updated.maintained.noticed.mp noticed))
  durable noticed exact :=
    updated.durable (session.durable (updated.maintained.noticed.mp noticed)
      (updated.maintained.exact exact)) exact

theorem carry (sound : ld.Sound) (session : Session ld capacity state) {region : Nat → Prop}
    (outline : after.ni.outline = state.ni.outline)
    (counted : state.ni.blockStateChanged ≤ after.ni.blockStateChanged)
    (still : after.ni.blockStateChanged = state.ni.blockStateChanged →
      after.ni.blockState = state.ni.blockState)
    (flash : state.flash.AgreesOutside ld region after.flash)
    (apart : ∀ block, Between state.ni.mgmtStartBa state.ni.mappingBlocksBa block →
      ¬region block)
    (trace : ∃ new, after.trace = new ++ state.trace ∧ ∀ event ∈ new, event.IsAccess) :
    Session ld capacity after := by
  have arranged := session.toArranged.carry sound outline flash apart trace
  obtain ⟨new, trace, access⟩ := trace
  have mapping : after.ni.blockMapping = state.ni.blockMapping :=
    (congrArg Instance.blockMapping outline :)
  have mappingCounter : after.ni.blockMappingChanged = state.ni.blockMappingChanged :=
    (congrArg Instance.blockMappingChanged outline :)
  have start : after.ni.mgmtStartBa = state.ni.mgmtStartBa :=
    (congrArg Instance.mgmtStartBa outline :)
  have protection : after.ni.isProtected = state.ni.isProtected :=
    (congrArg Instance.isProtected outline :)
  refine ⟨arranged, fun noticed => ?_, fun noticed exact => ?_⟩
  · rw [trace, noticed_append access] at noticed
    rcases session.saved noticed with none | states | mappings | ⟨image, stores, same⟩
    · exact Or.inl (by omega)
    · exact Or.inr (Or.inl (by omega))
    · exact Or.inr (Or.inr (Or.inl (by omega)))
    · refine Or.inr (Or.inr (Or.inr ⟨image, stores.keep sound outline flash apart, ?_⟩))
      rw [mapping]
      exact same
  · rw [trace, noticed_append access] at noticed
    rw [trace, exact_append access] at exact
    by_cases changed : after.ni.blockStateChanged = state.ni.blockStateChanged
    · have states := still changed
      rcases session.durable noticed exact with isProtected | dirty | mappings |
        ⟨image, stores, described⟩
      · exact Or.inl (protection.trans isProtected)
      · exact Or.inr (Or.inl (by omega))
      · exact Or.inr (Or.inr (Or.inl (by omega)))
      · refine Or.inr (Or.inr (Or.inr ⟨image, stores.keep sound outline flash apart, ?_⟩))
        simpa only [Instance.describedBy, states, mapping] using described
    · exact Or.inr (Or.inl (by omega))

theorem touchedMapped (sound : ld.Sound) (session : Session ld capacity state) {lb : Nat}
    (inside : lb < ld.blockCount) (is : ¬isUnmapped (state.ni.blockMapping lb))
    (touches : Touches ld (Eq (state.ni.blockMapping lb).toNat) state after) :
    Session ld capacity after :=
  session.carry sound touches.outline touches.counted touches.still touches.flash
    (session.apart inside is) touches.access

theorem recorded (sound : ld.Sound) (session : Session ld capacity state) (ba : Nat)
    (blockState : BitVec 32) :
    Session ld capacity { state with ni := state.ni.setBlockState ba blockState } :=
  have unchanged : state.flash.AgreesOutside ld (fun _ => False) state.flash := .refl _
  session.carry sound rfl (state.ni.blockStateChanged_set ba blockState)
    (state.ni.blockState_set ba blockState) unchanged (fun _ _ => id) ⟨[], rfl, by simp⟩

theorem attached (session : Session ld state.ni.dataBlockCount state) : Attached ld state :=
  ⟨⟨_, session.mapping⟩, fun _ => session.toGrounded, fun _ _ => session,
    fun _ _ some => session.ordered some⟩

theorem guarded (session : Session ld capacity state) (more : Bool) :
    Session ld capacity { state with
      ni := { state.ni with isProtected := state.ni.isProtected || more } } := by
  refine ⟨⟨⟨session.start, session.top, session.chip, session.placed, session.mapping,
    session.trace⟩, ⟨session.layout.lower, session.layout.upper, session.layout.mainLow,
      session.layout.main, session.layout.backup⟩⟩, session.saved, fun noticed exact => ?_⟩
  refine (session.durable noticed exact).imp_left fun isProtected => ?_
  simp [isProtected]

theorem recounted (session : Session ld capacity state) (count : Nat) :
    Session ld capacity { state with ni := { state.ni with dataBlockCount := count } } :=
  ⟨⟨⟨session.start, session.top, session.chip, session.placed, session.mapping, session.trace⟩,
    ⟨session.layout.lower, session.layout.upper, session.layout.mainLow, session.layout.main,
      session.layout.backup⟩⟩, session.saved, session.durable⟩

theorem closed (session : Session ld capacity state) :
    Session ld capacity { state with
      ni := { state.ni with mappingBlocksTopBa := state.ni.mappingBlocksBa } } := by
  have upper := session.layout.upper
  have top := session.top
  exact ⟨⟨⟨session.start, show state.ni.mappingBlocksBa < state.ni.signatureBa by omega, session.chip,
    session.placed, session.mapping.mono le_rfl session.mapping.fits upper, session.trace⟩,
      ⟨session.layout.lower, le_rfl, session.layout.mainLow, session.layout.main,
        session.layout.backup⟩⟩, session.saved, session.durable⟩

theorem assigned (sound : ld.Sound) (session : Session ld capacity state) {lb : Nat}
    (next : lb ≤ capacity) (logical : lb < ld.mgmtStart)
    (spare : state.ni.mappingBlocksBa < state.ni.mappingBlocksTopBa)
    {event : Event} (fine : event.WellFormed ld) :
    Session ld (max capacity (lb + 1)) { state with
      ni := { state.ni with
        blockMapping := fun other =>
          if other = lb then mapped state.ni.mappingBlocksTopBa else state.ni.blockMapping other
        mappingBlocksTopBa := subU32 state.ni.mappingBlocksTopBa 1
        blockMappingChanged := state.ni.blockMappingChanged + 1 }
      trace := event :: state.trace } := by
  have start := session.start
  have lower := session.layout.lower
  have top := session.top
  have chip := session.chip
  have blocks := sound.blockCount_lt
  have down : subU32 state.ni.mappingBlocksTopBa 1 = state.ni.mappingBlocksTopBa - 1 := by
    simp only [subU32]
    omega
  rw [down]
  refine ⟨⟨⟨start, show state.ni.mappingBlocksTopBa - 1 < state.ni.signatureBa by omega, chip,
    session.placed, session.mapping.assign next logical (by omega) (by omega) (by omega),
      session.trace.cons fine⟩, ⟨lower,
        show state.ni.mappingBlocksBa ≤ state.ni.mappingBlocksTopBa - 1 by omega,
        session.layout.mainLow, session.layout.main, session.layout.backup⟩⟩, fun _ => ?_,
          fun _ _ => ?_⟩
  · exact Or.inr (Or.inr (Or.inl (Nat.succ_ne_zero _)))
  · exact Or.inr (Or.inr (Or.inl (Nat.succ_ne_zero _)))

end Session

end MetaFilogic.Nmbm
