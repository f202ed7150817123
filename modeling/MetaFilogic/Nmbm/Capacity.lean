import MetaFilogic.Nmbm.Integrity

/-!
# The number of logical blocks

An attach that loads the tables on flash does not look for the capacity that the
chip had: `nmbm_load_info_table` takes one more than the highest logical block that
is mapped, or the size of the data area if none is.  Up to then a run never maps a
logical block that was unmapped, so all blocks from the capacity on stay unmapped.
-/

namespace MetaFilogic.Nmbm

open Bytes

variable {ld : LowerDevice}

/-! ## The highest mapped logical block -/

def loadedCapacity (mapping : Nat → BitVec 32) (bound : Nat) : Nat :=
  (highestMapped mapping bound).getD bound

theorem loadedCapacity_congr {mapping other : Nat → BitVec 32} {bound : Nat}
    (same : ∀ lb, lb < bound → other lb = mapping lb) :
    loadedCapacity other bound = loadedCapacity mapping bound := by
  suffices highestMapped other bound = highestMapped mapping bound by
    rw [loadedCapacity, this, loadedCapacity]
  induction bound with
  | zero => rfl
  | succ bound ih =>
    simp only [highestMapped, same bound (Nat.lt_succ_self _),
      ih fun lb below => same lb (Nat.lt_succ_of_lt below)]

/-- It is the old capacity exactly if the last logical block is mapped, or no logical
block is and the chip had its full size. -/
theorem loadedCapacity_eq_iff {mapping : Nat → BitVec 32} {bound capacity : Nat}
    (fits : capacity ≤ bound)
    (beyond : ∀ lb, capacity ≤ lb → lb < bound → isUnmapped (mapping lb)) :
    loadedCapacity mapping bound = capacity ↔
      (0 < capacity ∧ ¬isUnmapped (mapping (capacity - 1))) ∨
        (capacity = bound ∧ ∀ lb, lb < bound → isUnmapped (mapping lb)) := by
  obtain ⟨above, within, unmapped, found⟩ := highestMapped_spec mapping bound
  unfold loadedCapacity
  cases is : highestMapped mapping bound with
  | none =>
    have none := unmapped is
    rw [Option.getD_none]
    constructor
    · exact fun same => Or.inr ⟨same.symm, none⟩
    · rintro (⟨positive, last⟩ | ⟨same, _⟩)
      · exact absurd (none _ (by omega)) last
      · exact same.symm
  | some highest =>
    rw [is, Option.getD_some] at above within
    obtain ⟨positive, last⟩ := found highest is
    have low : highest ≤ capacity := by
      by_contra high
      exact last (beyond (highest - 1) (by omega) (by omega))
    rw [Option.getD_some]
    constructor
    · rintro rfl
      exact Or.inl ⟨positive, last⟩
    · rintro (⟨some, mapped⟩ | ⟨_, none⟩)
      · by_contra lower
        exact mapped (above (capacity - 1) (by omega) (by omega))
      · exact absurd (none _ (by omega)) last

/-! ## Attaches that find no tables -/

def Event.IsTables : Event → Prop
  | .tablesFound _ _ _ _ => True
  | _ => False

instance : DecidablePred Event.IsTables := fun event =>
  match event with
  | .tablesFound _ _ _ _ => .isTrue trivial
  | .erase _ _ | .program _ _ | .markBad _ _ | .signatureFound _ _ | .signatureWrite _ _
  | .tableWrite _ _ _ | .tablesClean _ | .unmapped _ | .spareTaken _ | .attached => .isFalse id

def Untabled (before after : State) : Prop :=
  ∃ new, after.trace = new ++ before.trace ∧ ∀ event ∈ new, ¬event.IsTables

namespace Untabled

theorem refl (state : State) : Untabled state state := ⟨[], rfl, by simp⟩

theorem trans {before middle after : State} (first : Untabled before middle)
    (second : Untabled middle after) : Untabled before after := by
  obtain ⟨new, trace, none⟩ := first
  obtain ⟨newer, later, noneLater⟩ := second
  refine ⟨newer ++ new, by rw [later, trace, List.append_assoc], fun event among => ?_⟩
  exact (List.mem_append.mp among).elim (noneLater event) (none event)

theorem count {before after : State} (untabled : Untabled before after) :
    after.trace.countP (fun event => event.IsTables) =
      before.trace.countP fun event => event.IsTables := by
  obtain ⟨new, trace, none⟩ := untabled
  rw [trace, List.countP_append, Nat.add_eq_right, List.countP_eq_zero]
  exact fun event among => by simpa using none event among

end Untabled

instance : IsPreorder State Untabled where
  refl := .refl
  trans _ _ _ := .trans

variable {before after : State}

theorem Confined.untabled {region : Nat → Prop} (confined : Confined ld region before after) :
    Untabled before after := by
  obtain ⟨new, trace, within⟩ := confined.trace
  refine ⟨new, trace, fun event among isTables => ?_⟩
  cases event with
  | tablesFound => exact within _ among
  | _ => exact isTables

theorem untabled_modifyNi (update : Instance → Instance) : Preserves Untabled (modifyNi update) :=
  fun _ => ⟨[], rfl, by simp⟩

theorem untabled_getNi : Preserves Untabled getNi := Untabled.refl

theorem untabled_note {event : Event} (other : ¬event.IsTables) : Preserves Untabled (note event) :=
  fun _ => ⟨[event], rfl, by simpa using other⟩

theorem untabled_of_touches (ld : LowerDevice) {α : Type} {program : NmbmM α}
    (touches : Preserves (Touches ld Anywhere) program) : Preserves Untabled program :=
  fun state => (touches state).toConfined.untabled

section Create

variable (sound : ld.Sound)

include sound

theorem untabled_updateInfoTable : Preserves Untabled (updateInfoTable ld) :=
  preserves_updateInfoTable sound (fun _ _ confined => confined.untabled)
    fun _ => ⟨[], rfl, by simp⟩

theorem untabled_mapBlock (lb : Nat) : Preserves Untabled (mapBlock ld lb) := by
  unfold mapBlock
  refine untabled_getNi.bind fun ni => .ite (fun _ => .pure _) fun _ => ?_
  split
  · exact (untabled_updateInfoTable sound).bind fun _ => (untabled_modifyNi _).bind fun _ => .pure _
  · refine (untabled_note id).bind fun _ => (untabled_modifyNi _).bind fun _ => .pure _

theorem untabled_remapTail (lb blocks : Nat) : Preserves Untabled (remapTail ld lb blocks) := by
  induction blocks generalizing lb with
  | zero => exact .pure _
  | succ blocks ih =>
    unfold remapTail
    refine (untabled_mapBlock sound lb).bind fun mapped => .ite (fun _ => ?_) fun _ => .pure _
    exact (untabled_modifyNi _).bind fun _ => ih _

theorem untabled_createInfoTable : Preserves Untabled (createInfoTable ld) := by
  have rebuilds : Preserves Untabled (rebuildInfoTable ld) :=
    (confined_rebuildInfoTable sound).mono fun _ _ confined => confined.untabled
  unfold createInfoTable
  refine untabled_getNi.bind fun ni => ?_
  split
  · exact .pure _
  · refine (untabled_modifyNi _).bind fun _ => Preserves.bind (fun _ => ⟨[], rfl, by simp⟩) fun _ => ?_
    refine rebuilds.bind fun built => .ite (fun _ => .pure _) fun _ => untabled_getNi.bind fun ni => ?_
    exact (untabled_remapTail sound _ _).bind fun _ => untabled_updateInfoTable sound

omit sound in
theorem untabled_scanBadblocks : Preserves Untabled (scanBadblocks ld) :=
  untabled_of_touches ld (touches_scanBadblocksFrom fun _ _ => trivial)

theorem untabled_createNew : Preserves Untabled (createNew ld) := by
  have written (limit : Nat) (signature : Signature) :
      Preserves Untabled (writeSignature ld limit signature) :=
    (untabled_note id).bind fun _ => untabled_of_touches ld
      (touches_writeSignatureLoop sound (Nat.sub_le _ _) fun _ _ => trivial)
  unfold createNew
  refine (untabled_modifyNi _).bind fun _ => Preserves.bind untabled_scanBadblocks fun _ => ?_
  refine (untabled_modifyNi _).bind fun _ => (untabled_modifyNi _).bind fun _ => ?_
  refine untabled_getNi.bind fun ni => .ite (fun _ => .pure _) fun _ => ?_
  refine (written _ _).bind fun found => ?_
  cases found with
  | none => exact .pure _
  | some signatureBa => exact (untabled_modifyNi _).bind fun _ => untabled_createInfoTable sound

end Create

/-! ## Unmapped blocks stay unmapped -/

/-- Between the two states no logical block was mapped that was not. -/
structure KeepsUnmapped (before after : State) : Prop where
  capacity : after.ni.dataBlockCount = before.ni.dataBlockCount
  signature : after.ni.signature = before.ni.signature
  unmapped : ∀ lb, isUnmapped (before.ni.blockMapping lb) → isUnmapped (after.ni.blockMapping lb)

namespace KeepsUnmapped

theorem refl (state : State) : KeepsUnmapped state state := ⟨rfl, rfl, fun _ => id⟩

theorem trans {before middle after : State} (first : KeepsUnmapped before middle)
    (second : KeepsUnmapped middle after) : KeepsUnmapped before after :=
  ⟨second.capacity.trans first.capacity, second.signature.trans first.signature,
    fun lb is => second.unmapped lb (first.unmapped lb is)⟩

end KeepsUnmapped

instance : IsPreorder State KeepsUnmapped where
  refl := .refl
  trans _ _ _ := .trans

theorem Remaps.keepsUnmapped {changes : Nat → Prop} (remaps : Remaps changes before after)
    (mapped : ∀ lb, changes lb → ¬isUnmapped (before.ni.blockMapping lb)) :
    KeepsUnmapped before after := by
  refine ⟨remaps.capacity, remaps.signature, fun lb is => ?_⟩
  rw [remaps.mapping lb fun changed => mapped lb changed is]
  exact is

theorem keepsUnmapped_of_remaps {α : Type} {program : NmbmM α}
    (remaps : Preserves (Remaps fun _ => False) program) : Preserves KeepsUnmapped program :=
  fun state => (remaps state).keepsUnmapped nofun

section Requests

variable (sound : ld.Sound)

include sound

theorem keepsUnmapped_eraseLogicBlock (blockAddr : Nat) :
    Preserves KeepsUnmapped (eraseLogicBlock ld blockAddr) := by
  intro state
  by_cases is : isUnmapped (state.ni.blockMapping blockAddr)
  · have same : (eraseLogicBlock ld blockAddr state).2 = state := by
      simp only [eraseLogicBlock, eraseLogicBlockLoop, bind, StateT.bind, getNi, if_pos is]
      rfl
    rw [same]
    exact .refl _
  · refine (remaps_eraseLogicBlock sound blockAddr state).keepsUnmapped fun lb same => ?_
    rwa [same]

theorem keepsUnmapped_eraseBlocksFrom (startBa blocks : Nat) :
    Preserves KeepsUnmapped (eraseBlocksFrom ld startBa blocks) := by
  induction blocks generalizing startBa with
  | zero => exact .pure _
  | succ blocks ih =>
    unfold eraseBlocksFrom
    exact (keepsUnmapped_eraseLogicBlock sound startBa).bind fun ret =>
      .ite (fun _ => .pure _) fun _ => ih _

theorem keepsUnmapped_eraseBlockRange (addr size : Nat) :
    Preserves KeepsUnmapped (eraseBlockRange ld addr size) := by
  unfold eraseBlockRange
  refine Preserves.bind KeepsUnmapped.refl fun ni => .ite (fun _ => .pure _) fun _ => ?_
  refine .ite (fun _ => .pure _) fun _ => .ite (fun _ => .pure _) fun _ => ?_
  exact .ite (fun _ => .pure _) fun _ => keepsUnmapped_eraseBlocksFrom sound _ _

theorem keepsUnmapped_markBadBlock (addr : Nat) : Preserves KeepsUnmapped (markBadBlock ld addr) := by
  intro state
  by_cases is : isUnmapped (state.ni.blockMapping (ld.addr2ba addr))
  · have same : Ensures (markBadBlock ld addr) state fun _ after => after = state := by
      refine .getNi_bind (.ite (fun _ => .pure rfl) fun _ => .ite (fun _ => .pure rfl) fun _ => ?_)
      exact .ite (fun _ => .pure rfl) fun mapped => absurd is mapped
    rw [show (markBadBlock ld addr state).2 = state from same]
    exact .refl _
  · refine (remaps_markBadBlock sound addr state).keepsUnmapped fun lb same => ?_
    rwa [same]

end Requests

/-! ## The capacity covers the mapping -/

def Instance.boundary (ni : Instance) : Nat := ni.signature.mgmtStartPb.toNat

/-- The capacity lies below the boundary, and all logical blocks in between are unmapped
if the boundary lies on the chip. -/
structure Covered (ld : LowerDevice) (state : State) : Prop where
  within : state.ni.dataBlockCount ≤ state.ni.boundary
  beyond : state.ni.boundary ≤ ld.blockCount → ∀ lb, state.ni.dataBlockCount ≤ lb →
    lb < state.ni.boundary → isUnmapped (state.ni.blockMapping lb)

theorem Covered.keep (covered : Covered ld before) (keeps : KeepsUnmapped before after) :
    Covered ld after := by
  have boundary : after.ni.boundary = before.ni.boundary :=
    congrArg (fun signature : Signature => signature.mgmtStartPb.toNat) keeps.signature
  constructor
  · rw [keeps.capacity, boundary]
    exact covered.within
  · rw [keeps.capacity, boundary]
    exact fun chip lb above below => keeps.unmapped lb (covered.beyond chip lb above below)

def CountsMapped (state : State) : Prop :=
  state.ni.dataBlockCount = loadedCapacity state.ni.blockMapping state.ni.boundary

theorem CountsMapped.covered {state : State} (counts : CountsMapped state) : Covered ld state := by
  obtain ⟨beyond, within, _, _⟩ := highestMapped_spec state.ni.blockMapping state.ni.boundary
  constructor
  · rw [counts]
    exact within
  · rw [counts]
    exact fun _ => beyond

section Create

variable (sound : ld.Sound)

variable {state : State}

theorem buildMappingTable_covered (start : state.ni.mgmtStartBa = state.ni.boundary) :
    Ensures (buildMappingTable ld) state fun _ after =>
      Covered ld after ∧ after.ni.mgmtStartBa = after.ni.boundary := by
  have width := state.ni.signature.mgmtStartPb.isLt
  have numbers := buildMappingLoop_spec state.ni state.ni.mgmtStartBa 0 0 state.ni.blockMapping
    (by rw [start, Instance.boundary]; omega)
  have high := numbers.high
  refine ⟨⟨?_, fun chip lb above below => ?_⟩, start⟩
  · change (buildMappingLoop state.ni state.ni.mgmtStartBa 0 0 state.ni.blockMapping).2 ≤
      state.ni.boundary
    omega
  · have inside : lb < ld.blockCount := below.trans_le chip
    change isUnmapped (if _ ≤ lb ∧ lb < ld.blockCount then unmappedEntry else _)
    rw [if_pos ⟨above, inside⟩]
    exact isUnmapped_unmappedEntry

include sound

theorem mapBlock_keepsUnmapped (lb : Nat) (state : State) :
    Ensures (mapBlock ld lb) state fun success after =>
      success = false → KeepsUnmapped state after := by
  have updates : Preserves KeepsUnmapped (updateInfoTable ld) :=
    keepsUnmapped_of_remaps (remaps_updateInfoTable sound)
  unfold mapBlock
  refine .getNi_bind (.ite (fun _ => .pure fun _ => .refl _) fun _ => ?_)
  split
  · refine (updates.ensures state).bind fun _ updated keeps => .modifyNi_bind (.pure fun _ => ?_)
    exact ⟨keeps.capacity, keeps.signature, keeps.unmapped⟩
  · exact .note_bind (.modifyNi_bind (.pure nofun))

theorem remapTail_covered {lb blocks : Nat} (covered : Covered ld state)
    (capacity : state.ni.dataBlockCount = lb) (within : lb + blocks ≤ state.ni.boundary) :
    Ensures (remapTail ld lb blocks) state fun _ after => Covered ld after := by
  induction blocks generalizing lb state with
  | zero => exact .pure covered
  | succ blocks ih =>
    unfold remapTail
    refine ((mapBlock_keepsUnmapped sound lb state).both
      ((remaps_mapBlock sound lb).ensures state)).bind fun success middle both => ?_
    obtain ⟨keeps, remaps⟩ := both
    cases success with
    | false => exact .pure (covered.keep (keeps rfl))
    | true =>
      have boundary : middle.ni.boundary = state.ni.boundary :=
        congrArg (fun signature : Signature => signature.mgmtStartPb.toNat) remaps.signature
      have counted : middle.ni.dataBlockCount = lb := remaps.capacity.trans capacity
      have counts : Covered ld { middle with
          ni := { middle.ni with dataBlockCount := middle.ni.dataBlockCount + 1 } } := by
        refine ⟨?_, fun chip other above below => ?_⟩
        · change middle.ni.dataBlockCount + 1 ≤ middle.ni.boundary
          omega
        · change middle.ni.dataBlockCount + 1 ≤ other at above
          change other < middle.ni.boundary at below
          change middle.ni.boundary ≤ ld.blockCount at chip
          change isUnmapped (middle.ni.blockMapping other)
          rw [remaps.mapping other (by omega)]
          exact covered.beyond (by omega) other (by omega) (by omega)
      refine .modifyNi_bind (ih counts (congrArg (· + 1) counted) ?_)
      change lb + 1 + blocks ≤ middle.ni.boundary
      omega

theorem createInfoTable_covered (covered : Covered ld state)
    (start : state.ni.mgmtStartBa = state.ni.boundary) :
    Ensures (createInfoTable ld) state fun _ after => Covered ld after := by
  have rebuilds : Preserves (Confined ld Anywhere) (rebuildInfoTable ld) :=
    confined_rebuildInfoTable sound
  have updates : Preserves KeepsUnmapped (updateInfoTable ld) :=
    keepsUnmapped_of_remaps (remaps_updateInfoTable sound)
  unfold createInfoTable
  refine .getNi_bind ?_
  split
  · exact .pure covered
  · refine .modifyNi_bind ((generateInfoTableCache_spec _).bind fun _ prepared same => ?_)
    obtain ⟨rfl, _⟩ := same
    refine (rebuilds.ensures _).bind fun built after confined => ?_
    have keeps : KeepsUnmapped state after := by
      refine ⟨confined.dataBlockCount, confined.signature, fun lb is => ?_⟩
      rw [confined.mapping]
      exact is
    have coveredAfter := covered.keep keeps
    refine .ite (fun _ => .pure coveredAfter) fun _ => .getNi_bind ?_
    have boundary : after.ni.boundary = state.ni.boundary :=
      congrArg (fun signature : Signature => signature.mgmtStartPb.toNat) keeps.signature
    have startAfter : after.ni.mgmtStartBa = state.ni.mgmtStartBa := confined.mgmtStartBa
    have low := coveredAfter.within
    refine (remapTail_covered sound coveredAfter rfl (by omega)).bind fun _ mapped tail => ?_
    exact (updates.ensures mapped).mono fun _ _ later => tail.keep later

end Create

/-! ## Attaches that load -/

section Attach

variable (sound : ld.Sound)

include sound

theorem loadInfoTable_counts {ba limit : Nat} {state : State}
    (length : state.ni.infoTableCache.length = ld.infoTableSize) :
    Ensures (loadInfoTable ld ba limit) state fun success after =>
      (success = true → CountsMapped after) ∧
        (success = false → Untabled state after ∧ after.ni.signature = state.ni.signature ∧
          after.ni.mgmtStartBa = state.ni.mgmtStartBa) := by
  refine loadInfoTable_cases sound length (fun after scanned => ⟨nofun, fun _ => ?_⟩)
    fun main backup middle loaded => ?_
  · exact ⟨⟨[], scanned.trace, by simp⟩, scanned.signature, scanned.mgmtStartBa⟩
  have counts : CountsMapped middle := by
    rw [CountsMapped, loaded.capacity, Instance.boundary, loaded.signature]
    rfl
  refine (generateInfoTableCache_spec middle).bind fun _ generatedState same => ?_
  obtain ⟨rfl, _⟩ := same
  refine .getNi_bind (.ite (fun _ => .pure ⟨fun _ => counts, nofun⟩) fun _ => ?_)
  have repairs : Preserves (Confined ld Anywhere) (repairLoadedTables ld main backup) := by
    cases backup with
    | none => exact confined_rescueSingleInfoTable sound
    | some second =>
      refine .ite (fun _ => ?_) fun _ => .pure _
      exact confined_moveBind (fun _ => rfl) (fun _ => rfl) (confined_updateSingleInfoTable sound _)
  refine (repairs.ensures _).bind fun success repaired confined => .modifyNi_bind (.pure ?_)
  refine ⟨fun _ => ?_, nofun⟩
  have capacity : repaired.ni.dataBlockCount = middle.ni.dataBlockCount := confined.dataBlockCount
  have mapping : repaired.ni.blockMapping = middle.ni.blockMapping := confined.mapping
  have signature : repaired.ni.signature = middle.ni.signature := confined.signature
  change repaired.ni.dataBlockCount =
    loadedCapacity repaired.ni.blockMapping repaired.ni.signature.mgmtStartPb.toNat
  rw [capacity, mapping, signature]
  exact counts

/-- An attach that succeeds either finds tables and counts what they map, or finds no
tables; the mapping is covered in both cases. -/
def Counted (ld : LowerDevice) (before after : State) : Prop :=
  Covered ld after ∧ (CountsMapped after ∨ Untabled before after)

theorem loadExisting_counts {state : State}
    (length : state.ni.infoTableCache.length = ld.infoTableSize) :
    Ensures (loadExisting ld) state fun success after => success = true → Counted ld state after := by
  unfold loadExisting
  refine .modifyNi_bind (.getNi_bind ?_)
  generalize startedEq : ({ state with
    ni := { state.ni with mgmtStartBa := state.ni.signature.mgmtStartPb.toNat } } : State) = started
  have begun : Untabled state started ∧ started.ni.mgmtStartBa = started.ni.boundary := by
    rw [← startedEq]
    exact ⟨⟨[], rfl, by simp⟩, rfl⟩
  have startLength : started.ni.infoTableCache.length = ld.infoTableSize := by
    rw [← startedEq]
    exact length
  refine (loadInfoTable_counts sound startLength).bind fun found middle loaded => ?_
  refine .ite (fun done => .pure fun _ => ?_) fun notFound => .ite (fun _ => .pure nofun) fun _ => ?_
  · have counts := loaded.1 done
    exact ⟨counts.covered, Or.inl counts⟩
  obtain ⟨missed, signature, start⟩ := loaded.2 (Bool.eq_false_iff.mpr notFound)
  have startMiddle : middle.ni.mgmtStartBa = middle.ni.boundary := by
    rw [start, begun.2, Instance.boundary, Instance.boundary, signature]
  have scans : Preserves (Touches ld Anywhere) (scanBadblocks ld) :=
    touches_scanBadblocksFrom fun _ _ => trivial
  refine (scans.ensures middle).bind fun _ scanned touches => ?_
  have startScanned : scanned.ni.mgmtStartBa = scanned.ni.boundary := by
    have signature : scanned.ni.signature = middle.ni.signature := touches.signature
    have same : scanned.ni.mgmtStartBa = middle.ni.mgmtStartBa := touches.mgmtStartBa
    rw [same, startMiddle, Instance.boundary, Instance.boundary, signature]
  have untabledScanned : Untabled state scanned :=
    (begun.1.trans missed).trans touches.toConfined.untabled
  refine ((buildMappingTable_covered startScanned).both
    ((untabled_modifyNi _).ensures scanned)).bind fun _ built both => ?_
  obtain ⟨⟨covered, startBuilt⟩, untabledBuilt⟩ := both
  have untabled := untabledScanned.trans untabledBuilt
  refine .ite (fun _ => .pure fun _ => ⟨covered, Or.inr untabled⟩) fun _ => ?_
  exact ((createInfoTable_covered sound covered startBuilt).both
    ((untabled_createInfoTable sound).ensures built)).mono fun _ _ both _ =>
      ⟨both.1, Or.inr (untabled.trans both.2)⟩

theorem createNew_counts (state : State) :
    Ensures (createNew ld) state fun success after => success = true → Counted ld state after := by
  have small := mgmtStart_lt sound
  refine Ensures.mono (.both ?_ ((untabled_createNew sound).ensures state))
    fun success after (both : (success = true → Covered ld after) ∧ _) done =>
      ⟨both.1 done, Or.inr both.2⟩
  unfold createNew
  refine .modifyNi_bind (buildTables_spec sound rfl fun built made => .modifyNi_bind (.getNi_bind ?_))
  have start : built.ni.mgmtStartBa = ld.mgmtStart := made.mgmtStartBa
  generalize signedEq : ({ built with
    ni := { built.ni with signature := newSignature ld built.ni.mgmtStartBa } } : State) = signed
  have boundary : signed.ni.boundary = ld.mgmtStart := by
    rw [← signedEq, ← start]
    exact toNat_mapped (by omega)
  have covered : Covered ld signed := by
    have well := made.mapping 0
    constructor
    · rw [boundary, ← signedEq]
      exact well.fits
    · rw [boundary, ← signedEq]
      exact fun chip lb above below => well.beyond lb above (below.trans_le chip)
  have startSigned : signed.ni.mgmtStartBa = signed.ni.boundary := by
    rw [boundary, ← signedEq]
    exact start
  refine .ite (fun _ => .pure fun _ => covered) fun _ => ?_
  refine (writeSignature_spec sound _ _).bind fun found written done => ?_
  obtain ⟨writes, _⟩ := done
  have signature : written.ni.signature = signed.ni.signature := writes.signature
  cases found with
  | none => exact .pure nofun
  | some signatureBa =>
    refine .modifyNi_bind ((createInfoTable_covered sound ?_ ?_).mono fun _ _ created _ => created)
    · refine covered.keep ⟨writes.dataBlockCount, signature, fun lb is => ?_⟩
      change isUnmapped (written.ni.blockMapping lb)
      rw [writes.mapping]
      exact is
    · change written.ni.mgmtStartBa = written.ni.signature.mgmtStartPb.toNat
      rw [writes.mgmtStartBa, signature]
      exact startSigned

theorem attach_counts (flags : Flags) (rounds : Nat) (state : State) :
    Ensures (attach ld flags rounds) state fun ret after =>
      ret = some 0 → Counted ld state after := by
  refine .ite (fun _ => ?_) fun _ => .pure nofun
  unfold attachInstance
  refine .modifyNi_bind ?_
  have searches : Preserves (Touches ld fun _ => False) (findSignature ld rounds) :=
    touches_findSignatureLoop _ _ _
  refine (searches.ensures _).bind fun found middle touches => ?_
  have untabled : Untabled state middle := touches.toConfined.untabled
  match found with
  | none => exact .pure nofun
  | some none =>
    refine .ite (fun _ => .pure nofun) fun _ => ?_
    refine (createNew_counts sound middle).bind fun success after created => ?_
    refine .ite (fun done => .pure fun _ => ?_) fun _ => .pure nofun
    exact ⟨(created done).1, (created done).2.imp_right untabled.trans⟩
  | some (some (signature, signatureBa)) =>
    refine .note_bind (.modifyNi_bind ?_)
    generalize openedEq : ({ middle with
      ni := { middle.ni with signature, signatureBa }
      trace := .signatureFound signatureBa signature :: middle.trace } : State) = opened
    have untabledOpened : Untabled state opened := by
      rw [← openedEq]
      exact untabled.trans ⟨[_], rfl, by simp [Event.IsTables]⟩
    have length : opened.ni.infoTableCache.length = ld.infoTableSize := by
      rw [← openedEq]
      exact (Scanned.ofTouches touches).length.trans (fill_length _ _)
    refine .ite (fun _ => .pure nofun) fun _ => .ite (fun _ => .pure nofun) fun _ => ?_
    refine (loadExisting_counts sound length).bind fun success after loaded => ?_
    refine .ite (fun done => .pure fun _ => ?_) fun _ => .pure nofun
    exact ⟨(loaded done).1, (loaded done).2.imp_right untabledOpened.trans⟩

end Attach


/-! ## Attaching again -/

def Op.isRequest : Op → Bool
  | .attach _ _ | .detach => false
  | _ => true

section Run

variable (sound : ld.Sound)

include sound

theorem step_keepsUnmapped {op : Op} {sys next : Sys} (request : op.isRequest = true)
    (is : step ld op sys = some next) :
    sys.isAttached = true ∧ KeepsUnmapped sys.state next.state := by
  have made {α : Type} {program : NmbmM α} (is : step.request sys program = some next)
      (keeps : Preserves KeepsUnmapped program) :
      sys.isAttached = true ∧ KeepsUnmapped sys.state next.state := by
    obtain ⟨attached, rfl⟩ := request_cases is
    exact ⟨attached, keeps sys.state⟩
  have reads {α : Type} {program : NmbmM α}
      (touches : Preserves (Touches ld fun _ => False) program) : Preserves KeepsUnmapped program :=
    keepsUnmapped_of_remaps fun state => (touches state).toConfined.remaps
  cases op with
  | attach flags rounds => cases request
  | detach => cases request
  | eraseBlockRange addr size => exact made is (keepsUnmapped_eraseBlockRange sound addr size)
  | readSinglePage addr mode => exact made is (reads (touches_readSinglePage addr mode))
  | readRange addr size mode => exact made is (reads (touches_readRange addr size mode))
  | writeSinglePage addr data oob mode =>
    exact made is (keepsUnmapped_of_remaps (remaps_writeSinglePage sound addr data oob mode))
  | panicWriteSinglePage addr data =>
    exact made is (keepsUnmapped_of_remaps (remaps_panicWriteSinglePage sound addr data))
  | writeRange addr data mode =>
    exact made is (keepsUnmapped_of_remaps (remaps_writeRange sound addr data mode))
  | checkBadBlock addr => exact made is (reads (touches_checkBadBlock addr))
  | markBadBlock addr => exact made is (keepsUnmapped_markBadBlock sound addr)

theorem step_covered {op : Op} {sys next : Sys}
    (covered : sys.isAttached = true → Covered ld sys.state) (is : step ld op sys = some next) :
    next.isAttached = true → Covered ld next.state := by
  by_cases request : op.isRequest = true
  · obtain ⟨attached, keeps⟩ := step_keepsUnmapped sound request is
    exact fun _ => (covered attached).keep keeps
  cases op with
  | attach flags rounds =>
    obtain ⟨ret, returned, rfl⟩ := step_attach_cases is
    intro success
    obtain rfl : ret = 0 := of_decide_eq_true success
    have counted := (attach_counts sound flags rounds sys.state returned).1
    rw [if_pos rfl]
    exact ⟨counted.within, counted.beyond⟩
  | detach =>
    obtain ⟨_, rfl⟩ := step_detach_cases is
    exact nofun
  | _ => exact absurd rfl request

theorem run_covered {ops : List Op} {sys final : Sys}
    (covered : sys.isAttached = true → Covered ld sys.state) (is : run ld ops sys = some final) :
    final.isAttached = true → Covered ld final.state := by
  induction ops generalizing sys with
  | nil =>
    obtain rfl := Option.some.inj is
    exact covered
  | cons op ops ih =>
    obtain ⟨next, stepped, rest⟩ := Option.bind_eq_some_iff.mp is
    exact ih (step_covered sound covered stepped) rest

/-- While a device is attached its capacity and its signature stay as they are, and a logical
block that has lost its block gets none again. -/
theorem requests_keepUnmapped {ops : List Op} {sys final : Sys}
    (requests : ∀ op ∈ ops, op.isRequest = true) (is : run ld ops sys = some final) :
    KeepsUnmapped sys.state final.state := by
  induction ops generalizing sys with
  | nil =>
    obtain rfl := Option.some.inj is
    exact .refl _
  | cons op ops ih =>
    obtain ⟨next, stepped, rest⟩ := Option.bind_eq_some_iff.mp is
    have first := (step_keepsUnmapped sound (requests op List.mem_cons_self) stepped).2
    exact first.trans (ih (fun later among => requests later (List.mem_cons_of_mem _ among)) rest)

end Run

theorem requests_keepUnmapped_created : ∃ sys final,
    run (faultyChip 9 []) [.attach creating 40] (initialSys (faultyChip 9 []) (erasedFlash [0])) =
        some sys ∧
      run (faultyChip 9 []) [.markBadBlock 1536, .eraseBlockRange 0 512] sys = some final ∧
      KeepsUnmapped sys.state final.state := by
  obtain ⟨sys, is, rest⟩ : ∃ sys,
      run (faultyChip 9 []) [.attach creating 40] (initialSys (faultyChip 9 []) (erasedFlash [0])) =
          some sys ∧
        (run (faultyChip 9 []) [.markBadBlock 1536, .eraseBlockRange 0 512] sys).isSome = true :=
    exists_of_any (by decide +kernel)
  obtain ⟨final, later⟩ := Option.isSome_iff_exists.mp rest
  exact ⟨sys, final, is, later,
    requests_keepUnmapped (smallChip_sound _ (by decide)) (by decide) later⟩

end MetaFilogic.Nmbm
