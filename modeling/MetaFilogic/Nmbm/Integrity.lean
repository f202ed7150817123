import MetaFilogic.Nmbm.Reachable
import Mathlib

/-!
# Blocks have one use

In every run whose records are faithful the mapping is injective, the boundaries
of the management area are in order, and table maintenance keeps away from mapped
blocks and from the signature.  The runs at which each of these fails take a spare
block while the block at `mapping_blocks_top_ba` is bad: `nmbm_map_block` walks
past it but lowers the boundary by one block only.
-/

namespace MetaFilogic.Nmbm

open Bytes

/-! ## A chip for examples -/

def smallChip (maxRatio : Nat) (fault : Nat → Fault) : LowerDevice :=
  { maxRatio, maxReservedBlocks := 0, size := 4096, erasesize := 256, writesize := 64, oobsize := 16,
    fault }

def erasedFlash (bad : List Nat) : Flash :=
  ⟨fun _ => ⟨fill 64 0xff, fill 16 0xff⟩, fun block => bad.contains block⟩

def eraseFaults (clocks : List Nat) (clock : Nat) : Fault :=
  if clocks.contains clock then { eraseRet := - EIO } else {}

def creating : Flags := ⟨true, false, false⟩

theorem smallChip_sound {maxRatio : Nat} (fault : Nat → Fault)
    (small : (if maxRatio = 0 then 1 else maxRatio) < 15) : (smallChip maxRatio fault).Sound where
  accepted := by
    refine ⟨creating, ?_⟩
    simp only [checkLowerMembers, Bool.and_eq_true]
    refine ⟨⟨⟨⟨⟨⟨⟨?_, ?_⟩, ?_⟩, rfl⟩, rfl⟩, rfl⟩, decide_eq_true small⟩, rfl⟩
    · exact (by decide : isPowerOf2 4096 = true)
    · exact (by decide : isPowerOf2 256 = true)
    · exact (by decide : isPowerOf2 64 = true)
  wholePages := (by decide : 64 ≤ 256)
  wholeBlocks := (by decide : 256 ≤ 4096)
  erasesizeWidth := (by decide : 256 < 2 ^ 32)
  tableWidth := by
    simp [LowerDevice.tableBytes, LowerDevice.tableBytes.infoTableHeaderSize,
      LowerDevice.infoTableHeaderSize, ceilTo, smallChip]

theorem exists_of_any {α : Type} {option : Option α} {test : α → Prop} [DecidablePred test]
    (any : option.any (fun value => test value) = true) :
    ∃ value, option = some value ∧ test value := by
  obtain ⟨value, is, passes⟩ := (Option.any_eq_true _ _).mp any
  exact ⟨value, is, of_decide_eq_true passes⟩

/-! ## The mapping is injective -/

section Reached

variable {ld : LowerDevice} (sound : ld.Sound) {flash : Flash} {ops : List Op} {sys : Sys}

include sound

theorem reached (is : run ld ops (initialSys ld flash) = some sys)
    (attached : sys.isAttached = true) (faithful : Faithful ld sys.state.trace) :
    Attached ld sys.state :=
  (run_running sound (initialSys_running flash) is faithful).attached attached

/-- Different logical blocks are mapped to different physical blocks. -/
theorem blockMapping_injective (is : run ld ops (initialSys ld flash) = some sys)
    (attached : sys.isAttached = true) (faithful : Faithful ld sys.state.trace) {lb other : Nat}
    (inside : lb < sys.state.ni.dataBlockCount) (otherInside : other < sys.state.ni.dataBlockCount)
    (distinct : lb ≠ other) (mapped : ¬isUnmapped (sys.state.ni.blockMapping lb)) :
    (sys.state.ni.blockMapping lb).toNat ≠ (sys.state.ni.blockMapping other).toNat := by
  obtain ⟨top, well⟩ := (reached sound is attached faithful).mapping
  have fits := well.fits
  have blocks := sound.mgmtStart_le
  intro same
  exact distinct (well.injective lb other (by omega) (by omega) mapped (BitVec.eq_of_toNat_eq same))

end Reached

/-- A small chip at which the erase requests made at some points in time fail. -/
def faultyChip (maxRatio : Nat) (clocks : List Nat) : LowerDevice :=
  smallChip maxRatio (eraseFaults clocks)

/-- Block 0 is bad, so the last logical block is given a spare block at creation. -/
theorem blockMapping_injective_created : ∃ sys,
    run (faultyChip 9 []) [.attach creating 40] (initialSys (faultyChip 9 []) (erasedFlash [0])) =
        some sys ∧
      (sys.state.ni.blockMapping 0).toNat ≠ (sys.state.ni.blockMapping 6).toNat := by
  obtain ⟨sys, is, attached, faithful, capacity, mapped⟩ : ∃ sys,
      run (faultyChip 9 []) [.attach creating 40] (initialSys (faultyChip 9 []) (erasedFlash [0])) =
          some sys ∧
        sys.isAttached = true ∧ Faithful (faultyChip 9 []) sys.state.trace ∧
          sys.state.ni.dataBlockCount = 7 ∧ ¬isUnmapped (sys.state.ni.blockMapping 0) :=
    exists_of_any (by decide +kernel)
  exact ⟨sys, is, blockMapping_injective (smallChip_sound _ (by decide)) is attached faithful
    (by omega) (by omega) (by decide) mapped⟩

/-- Blocks 0 and 13 are bad.  Erasing logical block 0 fails and so does erasing
logical block 1: both are given block 12. -/
theorem spareTakenTwice : ∃ sys,
    run (faultyChip 9 [109, 110, 111, 132, 133, 134])
        [.attach creating 40, .eraseBlockRange 0 256, .eraseBlockRange 256 256]
        (initialSys (faultyChip 9 [109, 110, 111, 132, 133, 134]) (erasedFlash [0, 13])) =
          some sys ∧
      sys.isAttached = true ∧ 1 < sys.state.ni.dataBlockCount ∧
      ¬isUnmapped (sys.state.ni.blockMapping 0) ∧ ¬isUnmapped (sys.state.ni.blockMapping 1) ∧
      (sys.state.ni.blockMapping 0).toNat = (sys.state.ni.blockMapping 1).toNat :=
  exists_of_any (by decide +kernel)

/-! ## Table maintenance keeps away from data -/

inductive TableCall where
  | updateInfoTable
  | updateInfoTableOnce (force : Bool)
  | rebuildInfoTable
  | rescueSingleInfoTable
  | rescueMainInfoTable
  | updateSingleInfoTable (updateMainTable : Bool)

def TableCall.program (ld : LowerDevice) : TableCall → NmbmM Bool
  | .updateInfoTable => Nmbm.updateInfoTable ld
  | .updateInfoTableOnce force => Nmbm.updateInfoTableOnce ld force
  | .rebuildInfoTable => do
    let _ ← generateInfoTableCache ld
    Nmbm.rebuildInfoTable ld
  | .rescueSingleInfoTable => do
    let _ ← generateInfoTableCache ld
    Nmbm.rescueSingleInfoTable ld
  | .rescueMainInfoTable => do
    let _ ← generateInfoTableCache ld
    Nmbm.rescueMainInfoTable ld
  | .updateSingleInfoTable updateMainTable => do
    let _ ← generateInfoTableCache ld
    Nmbm.updateSingleInfoTable ld updateMainTable

/-- When the driver makes the call: a protected chip is left alone, and a table is
rescued or updated only if it exists. -/
def TableCall.Applies (ni : Instance) : TableCall → Prop
  | .updateInfoTable => True
  | .updateInfoTableOnce _ | .rebuildInfoTable => ni.isProtected = false
  | .rescueSingleInfoTable => ni.isProtected = false ∧ ni.mainTableBa ≠ 0
  | .rescueMainInfoTable | .updateSingleInfoTable _ =>
    ni.isProtected = false ∧ ni.mainTableBa ≠ 0 ∧ ni.backupTableBa ≠ 0

def Event.Accesses (block : Nat) : Event → Prop
  | .erase other _ | .program other _ | .markBad other _ => other = block
  | _ => False

structure Silent (before after : State) : Prop where
  flags : after.ni.flags = before.ni.flags
  trace : ∃ new, after.trace = new ++ before.trace ∧
    ∀ event ∈ new, ∀ block, event.Accesses block → before.ni.flags.readOnly = false

namespace Silent

theorem refl (state : State) : Silent state state := ⟨rfl, [], rfl, by simp⟩

theorem trans {before middle after : State} (first : Silent before middle)
    (second : Silent middle after) : Silent before after := by
  obtain ⟨new, trace, quiet⟩ := first.trace
  obtain ⟨newer, later, quietLater⟩ := second.trace
  refine ⟨second.flags.trans first.flags, newer ++ new, by rw [later, trace, List.append_assoc],
    fun event among block accesses => ?_⟩
  rcases List.mem_append.mp among with fresh | old
  · exact first.flags ▸ quietLater event fresh block accesses
  · exact quiet event old block accesses

end Silent

instance : IsPreorder State Silent where
  refl := .refl
  trans _ _ _ := .trans

theorem Confined.silent {ld : LowerDevice} {before after : State}
    (confined : Confined ld Anywhere before after) : Silent before after := by
  obtain ⟨new, trace, within⟩ := confined.trace
  refine ⟨confined.flags, new, trace, fun event among block accesses => ?_⟩
  have inside := within event among
  cases event with
  | erase => exact inside.2.2
  | program => exact inside.2.2
  | markBad => exact inside.2.2
  | _ => exact accesses.elim

theorem silent_generateInfoTableCache (ld : LowerDevice) :
    Preserves Silent (generateInfoTableCache ld) :=
  fun _ => ⟨rfl, [], rfl, by simp⟩

section Calls

variable {ld : LowerDevice} (sound : ld.Sound)

include sound

theorem silent_tableCall (call : TableCall) : Preserves Silent (call.program ld) := by
  have silent (before after : State) (confined : Confined ld Anywhere before after) :
      Silent before after := confined.silent
  have generates {program : NmbmM Bool} (confined : Preserves (Confined ld Anywhere) program) :
      Preserves Silent (do
        let _ ← generateInfoTableCache ld
        program) :=
    (silent_generateInfoTableCache ld).bind fun _ => confined.mono silent
  cases call with
  | updateInfoTable =>
    exact preserves_updateInfoTable sound silent (silent_generateInfoTableCache ld)
  | updateInfoTableOnce force =>
    exact preserves_updateInfoTableOnce sound silent (silent_generateInfoTableCache ld) force
  | rebuildInfoTable => exact generates (confined_rebuildInfoTable sound)
  | rescueSingleInfoTable => exact generates (confined_rescueSingleInfoTable sound)
  | rescueMainInfoTable => exact generates (confined_rescueMainInfoTable sound)
  | updateSingleInfoTable updateMainTable =>
    exact generates (confined_updateSingleInfoTable sound updateMainTable)

theorem Session.tableCall {capacity : Nat} {state : State} (session : Session ld capacity state)
    {call : TableCall} (applies : call.Applies state.ni) :
    Ensures (call.program ld) state fun _ after => Maintained ld state after := by
  have layout : Layout ld (generated ld state) := session.layout.generated
  have upper := layout.upper
  have describes := describes_generated sound session.placed
  have confined {after : State} (kept : Confined ld state.ni.Spares (generated ld state) after) :
      Maintained ld state after :=
    maintained_of_confined sound session.placed kept
  have generates {program : NmbmM Bool}
      (keeps : Ensures program (generated ld state) fun _ after =>
        Confined ld state.ni.Spares (generated ld state) after) :
      Ensures (do
        let _ ← generateInfoTableCache ld
        program) state fun _ after => Maintained ld state after := by
    refine (generateInfoTableCache_spec state).bind fun _ after same => ?_
    obtain ⟨rfl, _⟩ := same
    exact keeps.mono fun _ _ kept => confined kept
  cases call with
  | updateInfoTable =>
    exact (updateInfoTable_spec sound session.layout session.placed).mono fun _ _ updated =>
      updated.maintained
  | updateInfoTableOnce force =>
    by_cases dirty : state.ni.blockStateChanged ≠ 0 ∨ state.ni.blockMappingChanged ≠ 0 ∨
        force = true
    · exact (updateInfoTableOnce_spec sound session.layout describes.valid dirty).mono
        fun _ _ round => confined round.1.confined
    · refine updateInfoTableOnce_cases (fun _ _ _ => confined (.refl _)) ?_ ?_
      · exact fun is => absurd is dirty
      · exact fun is => absurd is dirty
  | rebuildInfoTable =>
    exact generates ((rebuildInfoTable_spec sound (layout.lower.trans upper) describes.valid).mono
      fun _ _ rebuilt => rebuilt.1.confined)
  | rescueSingleInfoTable =>
    obtain ⟨stop, image, holds, within⟩ := layout.main applies.2
    have low := layout.mainLow (Or.inl applies.2)
    refine generates ((rescueSingleInfoTable_spec sound low holds
      (within.trans layout.mainLimit_le) upper describes.valid).mono fun success after rescued => ?_)
    cases success with
    | true => exact (rescued.1 rfl).1.confined
    | false => exact (rescued.2 rfl).1.toConfined
  | rescueMainInfoTable =>
    exact generates ((rescueMainInfoTable_spec sound layout.lower upper layout.backup
      describes.valid).mono fun _ _ rescued => rescued.2.1.confined)
  | updateSingleInfoTable updateMainTable =>
    obtain ⟨_, isMain, isBackup⟩ := applies
    have low := layout.mainLow (Or.inl isMain)
    obtain ⟨stop, image, holds, within⟩ := layout.main isMain
    obtain ⟨_, backupStop, backupImage, backupHolds, backupWithin⟩ := layout.backup isBackup
    rw [Instance.mainLimit, if_neg (show (generated ld state).ni.backupTableBa ≠ 0 from isBackup)]
      at within
    have between := holds.lt
    refine generates ?_
    cases updateMainTable with
    | true =>
      have order : (generated ld state).ni.mainTableBa ≤ (generated ld state).ni.backupTableBa := by
        omega
      exact (updateSingleInfoTable_main sound low order backupHolds backupWithin upper
        describes.valid).mono fun _ _ updated => updated.1.confined
    | false =>
      refine (updateSingleInfoTable_backup sound low holds within describes.valid).mono
        fun success after updated => ?_
      cases success with
      | true => exact (updated.1 rfl).1.confined
      | false => exact (updated.2 rfl).1.toConfined

/-- No block that table maintenance writes is mapped, and none is the signature block. -/
theorem tableCall_apart {flash : Flash} {ops : List Op} {sys : Sys}
    (is : run ld ops (initialSys ld flash) = some sys) (attached : sys.isAttached = true)
    (faithful : Faithful ld sys.state.trace) {call : TableCall}
    (applies : call.Applies sys.state.ni) :
    ∃ new, (call.program ld sys.state).2.trace = new ++ sys.state.trace ∧
      ∀ event ∈ new, ∀ block, event.Accesses block → block ≠ sys.state.ni.signatureBa ∧
        ∀ lb, lb < sys.state.ni.dataBlockCount → ¬isUnmapped (sys.state.ni.blockMapping lb) →
          (sys.state.ni.blockMapping lb).toNat ≠ block := by
  have attached := reached sound is attached faithful
  by_cases readOnly : sys.state.ni.flags.readOnly = true
  · obtain ⟨new, trace, quiet⟩ := (silent_tableCall sound call sys.state).trace
    refine ⟨new, trace, fun event among block accesses => ?_⟩
    exact absurd ((quiet event among block accesses).symm.trans readOnly) Bool.false_ne_true
  by_cases isProtected : sys.state.ni.isProtected = true
  · -- Only `nmbm_update_info_table` is called, and does nothing
    have idle : call = .updateInfoTable := by
      cases call <;> simp_all [TableCall.Applies]
    subst idle
    refine ⟨[], ?_, by simp⟩
    simp [TableCall.program, updateInfoTable, bind, StateT.bind, getNi, isProtected, pure,
      StateT.pure]
  simp only [Bool.not_eq_true] at readOnly isProtected
  have session := attached.session readOnly isProtected
  have maintained : Maintained ld sys.state (call.program ld sys.state).2 :=
    session.tableCall sound applies
  obtain ⟨new, trace, within⟩ := maintained.trace
  have start := session.start
  have top := session.top
  have fits := session.mapping.fits
  have blocks := sound.mgmtStart_le
  refine ⟨new, trace, fun event among block accesses => ?_⟩
  have spare : sys.state.ni.Spares block := by
    have inside := within event among
    cases event with
    | erase => exact accesses ▸ inside.1
    | program => exact accesses ▸ inside.1
    | markBad => exact accesses ▸ inside.1
    | _ => exact accesses.elim
  have low := spare.1
  have high := spare.2
  refine ⟨by omega, fun lb inside mapped => ?_⟩
  rcases session.mapping.apart lb (by omega) mapped with data | above <;> omega

end Calls

theorem tableCall_apart_forced : ∃ sys,
    run (faultyChip 9 []) [.attach creating 40] (initialSys (faultyChip 9 []) (erasedFlash [0])) =
        some sys ∧
      ∃ new, ((TableCall.updateInfoTableOnce true).program (faultyChip 9 []) sys.state).2.trace =
          new ++ sys.state.trace ∧
        ∀ event ∈ new, ∀ block, event.Accesses block → block ≠ sys.state.ni.signatureBa ∧
          ∀ lb, lb < sys.state.ni.dataBlockCount → ¬isUnmapped (sys.state.ni.blockMapping lb) →
            (sys.state.ni.blockMapping lb).toNat ≠ block := by
  obtain ⟨sys, is, attached, faithful, unprotected⟩ : ∃ sys,
      run (faultyChip 9 []) [.attach creating 40] (initialSys (faultyChip 9 []) (erasedFlash [0])) =
          some sys ∧
        sys.isAttached = true ∧ Faithful (faultyChip 9 []) sys.state.trace ∧
          sys.state.ni.isProtected = false :=
    exists_of_any (by decide +kernel)
  exact ⟨sys, is, tableCall_apart (smallChip_sound _ (by decide)) is attached faithful unprotected⟩

instance (event : Event) (block : Nat) : Decidable (event.Accesses block) := by
  cases event <;> unfold Event.Accesses <;> infer_instance

theorem take_append_sub {new old whole : List Event} (is : whole = new ++ old) :
    whole.take (whole.length - old.length) = new := by
  rw [is, List.length_append, Nat.add_sub_cancel, List.take_left]

def overwritingChip : LowerDevice :=
  faultyChip 10 [110, 111, 112, 133, 134, 135, 138, 139, 140]

/-- Blocks 0, 12 and 13 are bad and block 1 fails, so logical block 0 is given block
11.  When blocks 9 and 10 fail too, the backup table is written over it. -/
theorem tableCall_overwritesData : ∃ sys,
    run overwritingChip [.attach creating 40, .eraseBlockRange 0 256]
        (initialSys overwritingChip (erasedFlash [0, 12, 13])) = some sys ∧
      sys.isAttached = true ∧ (TableCall.updateInfoTableOnce true).Applies sys.state.ni ∧
      0 < sys.state.ni.dataBlockCount ∧ ¬isUnmapped (sys.state.ni.blockMapping 0) ∧
      ∃ new, ((TableCall.updateInfoTableOnce true).program overwritingChip sys.state).2.trace =
          new ++ sys.state.trace ∧
        ∃ event ∈ new, event.Accesses (sys.state.ni.blockMapping 0).toNat := by
  obtain ⟨sys, is, attached, unprotected, some, mapped, event, among, accesses⟩ : ∃ sys,
      run overwritingChip [.attach creating 40, .eraseBlockRange 0 256]
          (initialSys overwritingChip (erasedFlash [0, 12, 13])) = some sys ∧
        sys.isAttached = true ∧ sys.state.ni.isProtected = false ∧
        0 < sys.state.ni.dataBlockCount ∧ ¬isUnmapped (sys.state.ni.blockMapping 0) ∧
        ∃ event ∈ ((TableCall.updateInfoTableOnce true).program overwritingChip
              sys.state).2.trace.take
            (((TableCall.updateInfoTableOnce true).program overwritingChip
              sys.state).2.trace.length - sys.state.trace.length),
          event.Accesses (sys.state.ni.blockMapping 0).toNat :=
    exists_of_any (by decide +kernel)
  have sound : overwritingChip.Sound := smallChip_sound _ (by decide)
  obtain ⟨new, trace, _⟩ := (silent_tableCall sound (.updateInfoTableOnce true) sys.state).trace
  refine ⟨sys, is, attached, unprotected, some, mapped, new, trace, event, ?_, accesses⟩
  rwa [← take_append_sub trace]

/-! ## The order of the boundaries -/

/-- On an attached chip that is not protected the boundaries are in order. -/
theorem boundaries_ordered {ld : LowerDevice} (sound : ld.Sound) {flash : Flash} {ops : List Op}
    {sys : Sys} (is : run ld ops (initialSys ld flash) = some sys) (attached : sys.isAttached = true)
    (faithful : Faithful ld sys.state.trace) (fits : FitsLoaded sys.state.trace)
    (unprotected : sys.state.ni.isProtected = false) (some : sys.state.ni.mainTableBa ≠ 0) :
    Ordered ld sys.state := by
  have attached := reached sound is attached faithful
  by_cases readOnly : sys.state.ni.flags.readOnly = true
  · exact attached.ordered readOnly fits some
  · exact (attached.session (Bool.eq_false_iff.mpr readOnly) unprotected).ordered some

theorem boundaries_ordered_created : ∃ sys,
    run (faultyChip 9 []) [.attach creating 40] (initialSys (faultyChip 9 []) (erasedFlash [0])) =
        some sys ∧ Ordered (faultyChip 9 []) sys.state := by
  obtain ⟨sys, is, attached, faithful, fits, unprotected, some⟩ : ∃ sys,
      run (faultyChip 9 []) [.attach creating 40] (initialSys (faultyChip 9 []) (erasedFlash [0])) =
          some sys ∧
        sys.isAttached = true ∧ Faithful (faultyChip 9 []) sys.state.trace ∧
          FitsLoaded sys.state.trace ∧ sys.state.ni.isProtected = false ∧
            sys.state.ni.mainTableBa ≠ 0 :=
    exists_of_any (by decide +kernel)
  exact ⟨sys, is, boundaries_ordered (smallChip_sound _ (by decide)) is attached faithful fits
    unprotected some⟩

/-- Blocks 0 and 13 are bad, block 1 fails and then block 10 does: the tables end at
block 12, which a logical block is mapped to, and the next attach finds the boundaries
out of order. -/
theorem boundaries_crossed : ∃ sys,
    run (faultyChip 9 [109, 110, 111, 114, 115, 116])
        [.attach creating 40, .eraseBlockRange 0 256, .attach creating 40]
        (initialSys (faultyChip 9 [109, 110, 111, 114, 115, 116]) (erasedFlash [0, 13])) =
          some sys ∧
      sys.isAttached = true ∧ sys.state.ni.isProtected = false ∧ sys.state.ni.mainTableBa ≠ 0 ∧
      sys.state.ni.mappingBlocksTopBa < sys.state.ni.mappingBlocksBa :=
  exists_of_any (by decide +kernel)

end MetaFilogic.Nmbm
