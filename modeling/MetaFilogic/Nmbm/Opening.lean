import MetaFilogic.Nmbm.Repair

/-!
# Attaching as a whole

From the search for the signature to the instance handed out.  An attach that
succeeds leaves what `Attached` says, provided that the signature and the tables
it found on the chip are ones the driver has written.
-/

namespace MetaFilogic.Nmbm

open Bytes

theorem Signature.parse_mgmtStartPb (signature : Signature) :
    (Signature.parse signature.bytes).mgmtStartPb = signature.mgmtStartPb :=
  append_extractLsb signature.mgmtStartPb

section Search

variable {ld : LowerDevice} {region : Nat → Prop}

theorem touches_findSignatureInPages (addr pages : Nat) :
    Preserves (Touches ld region) (findSignatureInPages ld addr pages) := by
  induction pages generalizing addr with
  | zero => exact .pure _
  | succ pages ih =>
    unfold findSignatureInPages
    refine (touches_nmbnReadData _ _).bind fun result => ?_
    exact .ite (fun _ => .pure _) fun _ => ih _

theorem touches_findSignatureLoop (limit rounds ba : Nat) :
    Preserves (Touches ld region) (findSignatureLoop ld limit rounds ba) := by
  induction rounds generalizing ba with
  | zero => exact .pure _
  | succ rounds ih =>
    unfold findSignatureLoop
    refine .ite (fun _ => .pure _) fun _ => ?_
    refine (touches_checkBadPhysBlock _).bind fun bad => .ite (fun _ => ih _) fun _ => ?_
    refine (touches_findSignatureInPages _ _).bind fun found => ?_
    cases found with
    | none => exact ih _
    | some signature => exact .pure _

variable (sound : ld.Sound)

include sound

theorem findSignatureInPages_spec {ba addr pages : Nat} (low : ld.ba2addr ba ≤ addr)
    (high : addr + pages * ld.writesize ≤ ld.ba2addr ba + ld.erasesize) (state : State) :
    Ensures (findSignatureInPages ld addr pages) state fun found _ =>
      found.isSome → ba < ld.blockCount := by
  have positive := sound.writesize_pos
  induction pages generalizing addr state with
  | zero => exact .pure nofun
  | succ pages ih =>
    rw [Nat.succ_mul] at high
    unfold findSignatureInPages
    refine (nmbnReadDataLoop_spec sound state le_rfl).bind fun result middle read => ?_
    refine .ite (fun accepted => .pure fun _ => ?_) fun _ => ih (by omega) (by omega) middle
    have inside := (read.2.2 accepted.1).2 (by decide)
    rwa [sound.blockOf_eq low (by omega)] at inside

theorem findSignatureLoop_spec {limit rounds ba : Nat} (state : State) :
    Ensures (findSignatureLoop ld limit rounds ba) state fun found _ =>
      ∀ signature signatureBa, found = some (some (signature, signatureBa)) →
        signatureBa < ld.blockCount := by
  induction rounds generalizing ba state with
  | zero => exact .pure nofun
  | succ rounds ih =>
    unfold findSignatureLoop
    refine .ite (fun _ => .pure nofun) fun _ => ?_
    refine Ensures.bind (.of_true _ _) fun bad checked _ => .ite (fun _ => ih checked) fun _ => ?_
    have block : ld.ba2addr (subU32 ba 1) + ld.pagesPerBlock * ld.writesize ≤
        ld.ba2addr (subU32 ba 1) + ld.erasesize := by
      rw [sound.pages_mul]
    refine (findSignatureInPages_spec sound le_rfl block checked).bind fun found middle inside => ?_
    cases found with
    | none => exact ih middle
    | some signature =>
      refine .pure fun other signatureBa is => ?_
      obtain ⟨-, rfl⟩ := Prod.mk.inj (Option.some.inj (Option.some.inj is))
      exact inside rfl

end Search

section Attach

variable {ld : LowerDevice} (sound : ld.Sound) {state : State}

include sound

/-- What is known when an attach has taken over a signature. -/
structure Opened (ld : LowerDevice) (state : State) : Prop where
  boundary : state.ni.signature.mgmtStartPb.toNat = ld.mgmtStart
  chip : state.ni.signatureBa < ld.blockCount
  placed : state.ni.infoTable.Placed ld
  length : state.ni.infoTableCache.length = ld.infoTableSize
  trace : WellRecorded ld state.trace

/-- The part of `nmbm_load_existing` that creates tables when there are none. -/
theorem grows_createMissing (ni : Instance) : Preserves Grows (do
    scanBadblocks ld
    buildMappingTable ld
    if ni.flags.readOnly then
      return true
    else
      createInfoTable ld) := by
  refine (grows_of_touches ld (touches_scanBadblocksFrom fun _ _ => trivial)).bind fun _ => ?_
  refine (grows_modifyNi _).bind fun _ => .ite (fun _ => .pure _) fun _ => ?_
  exact grows_createInfoTable sound

theorem loadExisting_grows (length : state.ni.infoTableCache.length = ld.infoTableSize) :
    Ensures (loadExisting ld) state fun _ after => Grows state after := by
  unfold loadExisting
  have begun : Grows state { state with
    ni := { state.ni with mgmtStartBa := state.ni.signature.mgmtStartPb.toNat } } := ⟨[], rfl⟩
  have startLength : ({ state with
    ni := { state.ni with mgmtStartBa := state.ni.signature.mgmtStartPb.toNat } } :
      State).ni.infoTableCache.length = ld.infoTableSize := length
  refine .modifyNi_bind (.getNi_bind ((loadInfoTable_grows sound startLength).bind
    fun success middle later => ?_))
  have grows := begun.trans later
  refine .ite (fun _ => .pure grows) fun _ => .ite (fun _ => .pure grows) fun _ => ?_
  exact ((grows_createMissing sound _).ensures middle).mono fun _ _ later => grows.trans later

theorem loadExisting_attached (opened : Opened ld state) :
    Ensures (loadExisting ld) state fun success after => Faithful ld after.trace →
      WellRecorded ld after.trace ∧ (success = true → Attached ld after) := by
  unfold loadExisting
  refine .modifyNi_bind (.getNi_bind ?_)
  generalize startedEq : ({ state with
    ni := { state.ni with mgmtStartBa := state.ni.signature.mgmtStartPb.toNat } } : State) = started
  have start : started.ni.mgmtStartBa = ld.mgmtStart := by
    rw [← startedEq]
    exact opened.boundary
  have loadable : Loadable ld started := by
    rw [← startedEq]
    exact ⟨opened.boundary, opened.boundary, opened.chip, opened.placed, opened.length,
      opened.trace⟩
  rw [start]
  refine (loadInfoTable_attached sound loadable).bind fun success middle loaded => ?_
  obtain ⟨missed, attached⟩ := loaded
  refine .ite (fun found => .pure fun faithful => ⟨(attached faithful).1, fun _ =>
    (attached faithful).2 found⟩) fun notFound => ?_
  have missed := missed (Bool.eq_false_iff.mpr notFound)
  refine .ite (fun _ => .pure fun faithful => ⟨(attached faithful).1, nofun⟩) fun _ => ?_
  have recorded : WellRecorded ld middle.trace := missed.trace ▸ loadable.trace
  have startMiddle : middle.ni.mgmtStartBa = ld.mgmtStart := missed.mgmtStartBa.trans start
  refine buildTables_spec sound startMiddle fun built made => ?_
  have flags : built.ni.flags = started.ni.flags := made.flags.trans missed.flags
  refine .ite (fun readOnly => .pure fun _ => ⟨made.trace recorded, fun _ => ?_⟩) fun _ => ?_
  · exact .ofReadOnly (made.mapping 0) (made.mainTableBa.trans missed.noMain) (flags ▸ readOnly)
  · have prepared : Prepared ld built :=
      ⟨made.mgmtStartBa.trans startMiddle,
        (made.signatureBa.trans missed.signatureBa).trans_lt loadable.chip,
        made.infoTable ▸ missed.placed loadable.placed, made.mapping, made.trace recorded⟩
    exact (createInfoTable_session sound prepared).mono fun _ _ created faithful =>
      ⟨(created faithful).1, fun done => ((created faithful).2 done).attached⟩

theorem grows_attachInstance (flags : Flags) (rounds : Nat) :
    Preserves Grows (attachInstance ld flags rounds) := by
  intro state
  have searches : Preserves (Touches ld fun _ => False) (findSignature ld rounds) :=
    touches_findSignatureLoop _ _ _
  have begun : Grows state { state with ni := initStructure ld flags } := ⟨[], rfl⟩
  refine (?_ : Ensures (attachInstance ld flags rounds) state fun _ after => Grows state after)
  unfold attachInstance
  refine .modifyNi_bind ((searches.ensures _).bind fun found middle touches => ?_)
  have growsMiddle := begun.trans touches.grows
  match found with
  | none => exact .pure growsMiddle
  | some none =>
    refine .ite (fun _ => .pure growsMiddle) fun _ => ?_
    refine ((grows_createNew sound).ensures middle).bind fun success after created => ?_
    exact .ite (fun _ => .pure (growsMiddle.trans created)) fun _ =>
      .pure (growsMiddle.trans created)
  | some (some (signature, signatureBa)) =>
    refine .note_bind (.modifyNi_bind ?_)
    generalize openedEq : ({ middle with
      ni := { middle.ni with signature, signatureBa }
      trace := .signatureFound signatureBa signature :: middle.trace } : State) = opened
    have growsOpened : Grows state opened := by
      rw [← openedEq]
      exact growsMiddle.trans ⟨[_], rfl⟩
    have length : opened.ni.infoTableCache.length = ld.infoTableSize := by
      rw [← openedEq]
      exact (Scanned.ofTouches touches).length.trans (fill_length _ _)
    refine .ite (fun _ => .pure growsOpened) fun _ => .ite (fun _ => .pure growsOpened) fun _ => ?_
    refine (loadExisting_grows sound length).bind fun success after loaded => ?_
    exact .ite (fun _ => .pure (growsOpened.trans loaded)) fun _ =>
      .pure (growsOpened.trans loaded)

theorem grows_attach (flags : Flags) (rounds : Nat) : Preserves Grows (attach ld flags rounds) :=
  .ite (fun _ => grows_attachInstance sound flags rounds) fun _ => .pure _

theorem attachInstance_attached (flags : Flags) (rounds : Nat)
    (recorded : WellRecorded ld state.trace) :
    Ensures (attachInstance ld flags rounds) state fun ret after => Faithful ld after.trace →
      WellRecorded ld after.trace ∧ (ret = some 0 → Attached ld after) := by
  unfold attachInstance
  refine .modifyNi_bind ?_
  generalize freshEq : ({ state with ni := initStructure ld flags } : State) = fresh
  have unused : Unused ld fresh := by
    rw [← freshEq]
    exact ⟨⟨rfl, rfl⟩, recorded, rfl⟩
  have length : fresh.ni.infoTableCache.length = ld.infoTableSize := by
    rw [← freshEq]
    exact fill_length _ _
  have searches : Preserves (Touches ld fun _ => False) (findSignature ld rounds) :=
    touches_findSignatureLoop _ _ _
  refine ((searches.ensures fresh).both (findSignatureLoop_spec sound fresh)).bind
    fun found middle both => ?_
  obtain ⟨touches, within⟩ := both
  have scanned := Scanned.ofTouches touches
  have unusedMiddle : Unused ld middle :=
    ⟨touches.infoTable ▸ unused.placed, scanned.trace ▸ unused.trace,
      scanned.mainTableBa.trans unused.noMain⟩
  match found with
  | none => exact .pure fun _ => ⟨unusedMiddle.trace, nofun⟩
  | some none =>
    refine .ite (fun _ => .pure fun _ => ⟨unusedMiddle.trace, nofun⟩) fun _ => ?_
    refine (createNew_attached sound unusedMiddle).bind fun success after created => ?_
    exact .ite (fun done => .pure fun faithful => ⟨(created faithful).1, fun _ =>
      (created faithful).2 done⟩) fun _ => .pure fun faithful => ⟨(created faithful).1, nofun⟩
  | some (some (signature, signatureBa)) =>
    refine .note_bind (.modifyNi_bind ?_)
    generalize openedEq : ({ middle with
      ni := { middle.ni with signature, signatureBa }
      trace := .signatureFound signatureBa signature :: middle.trace } : State) = opened
    have recordedOpened : WellRecorded ld opened.trace := by
      rw [← openedEq]
      exact unusedMiddle.trace.cons trivial
    have refused (ret : Int) (isError : ret ≠ 0) : Faithful ld opened.trace →
        WellRecorded ld opened.trace ∧ (some ret = some 0 → Attached ld opened) :=
      fun _ => ⟨recordedOpened, fun is => absurd (Option.some.inj is) isError⟩
    refine .ite (fun _ => .pure (refused _ (by decide))) fun _ => ?_
    refine .ite (fun _ => .pure (refused _ (by decide))) fun _ => ?_
    -- The signature is one the driver has written
    have opens (faithful : Faithful ld opened.trace) : Opened ld opened := by
      rw [← openedEq] at faithful ⊢
      obtain ⟨⟨limit, image, among, parsed⟩, _⟩ := faithful
      have written : image = (newSignature ld ld.mgmtStart).bytes := unusedMiddle.trace _ among
      refine ⟨?_, within _ _ rfl, unusedMiddle.placed, scanned.length.trans length,
        unusedMiddle.trace.cons trivial⟩
      change signature.mgmtStartPb.toNat = ld.mgmtStart
      rw [parsed, written, Signature.parse_mgmtStartPb]
      exact toNat_mapped (by have := mgmtStart_lt sound; omega)
    have openedLength : opened.ni.infoTableCache.length = ld.infoTableSize := by
      rw [← openedEq]
      exact scanned.length.trans length
    have loads : Ensures (loadExisting ld) opened fun success after => Faithful ld after.trace →
        WellRecorded ld after.trace ∧ (success = true → Attached ld after) :=
      fun faithful => loadExisting_attached sound
        (opens ((loadExisting_grows sound openedLength).faithful faithful)) faithful
    refine loads.bind fun success after loaded => ?_
    exact .ite (fun done => .pure fun faithful => ⟨(loaded faithful).1, fun _ =>
      (loaded faithful).2 done⟩) fun _ => .pure fun faithful => ⟨(loaded faithful).1, nofun⟩

theorem attach_attached (flags : Flags) (rounds : Nat) (recorded : WellRecorded ld state.trace) :
    Ensures (attach ld flags rounds) state fun ret after => Faithful ld after.trace →
      WellRecorded ld after.trace ∧ (ret = some 0 → Attached ld after) :=
  .ite (fun _ => attachInstance_attached sound flags rounds recorded) fun _ =>
    .pure fun _ => ⟨recorded, nofun⟩

end Attach

end MetaFilogic.Nmbm
