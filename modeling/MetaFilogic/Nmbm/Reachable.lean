import MetaFilogic.Nmbm.Opening

/-!
# The states of a run

Every state a run reaches satisfies `Running`: management data on record has the
right contents, and an attached instance is as `Attached` says.  One step keeps
this as long as its records are faithful; records only pile up, so a run whose
records are faithful at the end keeps it throughout.
-/

namespace MetaFilogic.Nmbm

open Bytes

variable {ld : LowerDevice}

structure Running (ld : LowerDevice) (sys : Sys) : Prop where
  recorded : WellRecorded ld sys.state.trace
  attached : sys.isAttached = true → Attached ld sys.state

/-! ## Refused requests -/

section Refused

variable {state : State} (closed : state.ni.isProtected = true ∨ state.ni.flags.readOnly = true)

include closed

theorem eraseBlockRange_refused (addr size : Nat) :
    eraseBlockRange ld addr size state = ((-EROFS, none), state) := by
  simp only [eraseBlockRange, bind, StateT.bind, getNi, if_pos closed]
  rfl

theorem writeSinglePage_refused (addr : Nat) (data oob : Option (List Byte)) (mode : OobMode) :
    writeSinglePage ld addr data oob mode state = (-EROFS, state) := by
  simp only [writeSinglePage, bind, StateT.bind, getNi, if_pos closed]
  rfl

theorem panicWriteSinglePage_refused (addr : Nat) (data : Option (List Byte)) :
    panicWriteSinglePage ld addr data state = (-EROFS, state) := by
  simp only [panicWriteSinglePage, bind, StateT.bind, getNi, if_pos closed]
  rfl

theorem writeRange_refused (addr : Nat) (data : List Byte) (mode : OobMode) :
    writeRange ld addr data mode state = ((-EROFS, none), state) := by
  simp only [writeRange, bind, StateT.bind, getNi, if_pos closed]
  rfl

theorem markBadBlock_refused (addr : Nat) : markBadBlock ld addr state = (-EROFS, state) := by
  simp only [markBadBlock, bind, StateT.bind, getNi, if_pos closed]
  rfl

theorem detach_closed : (detach ld state).2 = state := by
  by_cases readOnly : state.ni.flags.readOnly = true
  · simp only [detach, bind, StateT.bind, getNi, readOnly]
    rfl
  · have isProtected := closed.resolve_right readOnly
    simp [detach, updateInfoTable, bind, StateT.bind, getNi, readOnly, isProtected]
    rfl

end Refused

/-! ## Reads -/

section Reads

variable {region : Nat → Prop}

theorem touches_readLogicPage (addr : Nat) (mode : OobMode) :
    Preserves (Touches ld region) (readLogicPage ld addr mode) := by
  unfold readLogicPage
  refine touches_getNi.bind fun ni => .ite (fun _ => .pure _) fun _ => ?_
  exact .ite (fun _ => .pure _) fun _ => touches_readPhysPage _ _

theorem touches_readSinglePage (addr : Nat) (mode : OobMode) :
    Preserves (Touches ld region) (readSinglePage ld addr mode) := by
  unfold readSinglePage
  refine touches_getNi.bind fun ni => .ite (fun _ => .pure _) fun _ => ?_
  exact .ite (fun _ => .pure _) fun _ => touches_readLogicPage _ _

theorem touches_readRangeLoop (size : Nat) (mode : OobMode) (rounds off sizeremain : Nat)
    (ptr : List Byte) (hasEccErr : Bool) (maxBitflips : Int) :
    Preserves (Touches ld region)
      (readRangeLoop ld size mode rounds off sizeremain ptr hasEccErr maxBitflips) := by
  induction rounds generalizing off sizeremain ptr hasEccErr maxBitflips with
  | zero => exact .pure _
  | succ rounds ih =>
    unfold readRangeLoop
    refine .ite (fun _ => .pure _) fun _ => ?_
    refine (touches_readLogicPage _ _).bind fun result => .ite (fun _ => ?_) fun _ => ?_
    · refine (touches_cacheData _).bind fun _ => ?_
      exact .ite (fun _ => .pure _) fun _ => ih _ _ _ _ _
    · exact .ite (fun _ => .pure _) fun _ => ih _ _ _ _ _

theorem touches_readRange (addr size : Nat) (mode : OobMode) :
    Preserves (Touches ld region) (readRange ld addr size mode) := by
  unfold readRange
  refine touches_getNi.bind fun ni => .ite (fun _ => .pure _) fun _ => ?_
  refine .ite (fun _ => .pure _) fun _ => .ite (fun _ => .pure _) fun _ => ?_
  exact .ite (fun _ => .pure _) fun _ => touches_readRangeLoop _ _ _ _ _ _ _ _

theorem touches_checkBadBlock (addr : Nat) :
    Preserves (Touches ld region) (checkBadBlock ld addr) := by
  unfold checkBadBlock
  refine touches_getNi.bind fun ni => .ite (fun _ => .pure _) fun _ => ?_
  exact .ite (fun _ => .pure _) fun _ => .ite (fun _ => .pure _) fun _ => .pure _

end Reads

/-! ## Attached instances -/

variable {after : State} {sys next : Sys}

theorem Attached.read (sound : ld.Sound) {state : State} (attached : Attached ld state)
    (touches : Touches ld (fun _ => False) state after) : Attached ld after := by
  have capacity : after.ni.dataBlockCount = state.ni.dataBlockCount := touches.dataBlockCount
  have flags : after.ni.flags = state.ni.flags := touches.flags
  have trace : after.trace = state.trace := (Scanned.ofTouches touches).trace
  have flash : after.flash = state.flash := touches.flash.eq
  have outline := touches.outline
  refine ⟨?_, fun writable => ?_, fun writable unprotected => ?_, fun readOnly fits some => ?_⟩
  · rw [capacity, touches.mapping]
    exact attached.mapping
  · rw [flags] at writable
    have grounded := attached.grounded writable
    refine ⟨touches.mgmtStartBa.trans grounded.start, ?_, ?_, touches.infoTable ▸ grounded.placed,
      ?_, trace ▸ grounded.trace⟩
    · rw [touches.mappingBlocksTopBa, touches.signatureBa]
      exact grounded.top
    · rw [touches.signatureBa]
      exact grounded.chip
    · rw [capacity, touches.mappingBlocksTopBa, touches.mapping]
      exact grounded.mapping
  · rw [flags] at writable
    rw [touches.isProtected] at unprotected
    rw [capacity]
    exact (attached.session writable unprotected).carry sound outline touches.counted touches.still
      touches.flash (fun _ _ => id) touches.access
  · rw [flags] at readOnly
    rw [trace] at fits
    rw [touches.mainTableBa] at some
    have ordered := attached.ordered readOnly fits some
    constructor
    · rw [touches.mgmtStartBa, touches.mainTableBa]
      exact ordered.mainLow
    · rw [touches.mainTableBa, touches.backupTableBa]
      exact ordered.mainFirst
    · rw [flash, touches.mainTableBa, touches.backupTableBa, touches.mappingBlocksBa]
      exact ordered.last
    · rw [touches.mappingBlocksBa, touches.mappingBlocksTopBa]
      exact ordered.upper
    · rw [touches.mappingBlocksTopBa, touches.signatureBa]
      exact ordered.top
    · rw [touches.signatureBa]
      exact ordered.chip

theorem Running.read (sound : ld.Sound) {state : State} (running : Running ld ⟨state, true⟩)
    (touches : Touches ld (fun _ => False) state after) : Running ld ⟨after, true⟩ := by
  have trace : after.trace = state.trace := (Scanned.ofTouches touches).trace
  exact ⟨(trace ▸ running.recorded : WellRecorded ld after.trace), fun _ =>
    (running.attached rfl).read sound touches⟩

theorem Running.request {state : State} (running : Running ld ⟨state, true⟩)
    (refused : state.ni.isProtected = true ∨ state.ni.flags.readOnly = true → after = state)
    (capacity : after.ni.dataBlockCount = state.ni.dataBlockCount)
    (session : Session ld state.ni.dataBlockCount state → Session ld state.ni.dataBlockCount after) :
    Running ld ⟨after, true⟩ := by
  by_cases closed : state.ni.isProtected = true ∨ state.ni.flags.readOnly = true
  · rw [refused closed]
    exact running
  · simp only [not_or, Bool.not_eq_true] at closed
    have later := session ((running.attached rfl).session closed.2 closed.1)
    refine ⟨later.trace, fun _ => ?_⟩
    rw [← capacity] at later
    exact later.attached

/-! ## Steps and runs -/

theorem request_cases {α : Type} {program : NmbmM α} (is : step.request sys program = some next) :
    sys.isAttached = true ∧ next = ⟨(program sys.state).2, true⟩ := by
  unfold step.request at is
  split at is
  · exact ⟨‹_›, (Option.some.inj is).symm⟩
  · cases is

theorem step_attach_cases {flags : Flags} {rounds : Nat}
    (is : step ld (.attach flags rounds) sys = some next) :
    ∃ ret, (attach ld flags rounds sys.state).1 = some ret ∧
      next = ⟨if ret = 0 then { (attach ld flags rounds sys.state).2 with
          trace := .attached :: (attach ld flags rounds sys.state).2.trace }
        else (attach ld flags rounds sys.state).2, decide (ret = 0)⟩ := by
  simp only [step] at is
  generalize attach ld flags rounds sys.state = result at is ⊢
  obtain ⟨ret, state⟩ := result
  cases ret with
  | none => cases is
  | some ret => exact ⟨ret, rfl, (Option.some.inj is).symm⟩

theorem step_detach_cases (is : step ld .detach sys = some next) :
    sys.isAttached = true ∧ next = ⟨(detach ld sys.state).2, false⟩ := by
  unfold step at is
  dsimp only at is
  split at is
  · exact ⟨‹_›, (Option.some.inj is).symm⟩
  · cases is

section Step

variable (sound : ld.Sound)

include sound

variable {sys : Sys}

theorem step_grows {op : Op} {next : Sys} (is : step ld op sys = some next) :
    Grows sys.state next.state := by
  have request {α : Type} {program : NmbmM α} (is : step.request sys program = some next)
      (grows : Preserves Grows program) : Grows sys.state next.state := by
    obtain ⟨_, rfl⟩ := request_cases is
    exact grows sys.state
  have remapped {α : Type} {program : NmbmM α} {changes : Nat → Prop}
      (is : step.request sys program = some next)
      (remaps : Preserves (Remaps changes) program) : Grows sys.state next.state :=
    request is (remaps.mono fun _ _ remaps => remaps.grows)
  cases op with
  | attach flags rounds =>
    obtain ⟨ret, _, rfl⟩ := step_attach_cases is
    have grows := grows_attach sound flags rounds sys.state
    dsimp only
    split
    · exact grows.trans ⟨[_], rfl⟩
    · exact grows
  | detach =>
    obtain ⟨_, rfl⟩ := step_detach_cases is
    have frame : Preserves (Remaps fun _ => True) (detach ld) := remaps_detach sound
    exact (frame sys.state).grows
  | eraseBlockRange addr size => exact remapped is (remaps_eraseBlockRange sound addr size)
  | readSinglePage addr mode => exact request is (grows_of_touches ld (touches_readSinglePage _ _))
  | readRange addr size mode => exact request is (grows_of_touches ld (touches_readRange _ _ _))
  | writeSinglePage addr data oob mode =>
    have frame : Preserves (Remaps fun _ => True) (writeSinglePage ld addr data oob mode) :=
      remaps_writeSinglePage sound _ _ _ _
    exact remapped is frame
  | panicWriteSinglePage addr data =>
    have frame : Preserves (Remaps fun _ => True) (panicWriteSinglePage ld addr data) :=
      remaps_panicWriteSinglePage sound _ _
    exact remapped is frame
  | writeRange addr data mode =>
    have frame : Preserves (Remaps fun _ => True) (writeRange ld addr data mode) :=
      remaps_writeRange sound _ _ _
    exact remapped is frame
  | checkBadBlock addr => exact request is (grows_of_touches ld (touches_checkBadBlock _))
  | markBadBlock addr => exact remapped is (remaps_markBadBlock sound addr)

omit sound in
theorem Attached.recordAttached {state : State} (attached : Attached ld state) :
    Attached ld { state with trace := .attached :: state.trace } := by
  refine ⟨attached.mapping, fun writable => ?_, fun writable unprotected => ?_,
    fun readOnly fits some => ?_⟩
  · have grounded := attached.grounded writable
    exact ⟨grounded.start, grounded.top, grounded.chip, grounded.placed, grounded.mapping,
      grounded.trace.cons trivial⟩
  · have session := attached.session writable unprotected
    refine ⟨⟨⟨session.start, session.top, session.chip, session.placed, session.mapping,
      session.trace.cons trivial⟩, ⟨session.layout.lower, session.layout.upper,
        session.layout.mainLow, session.layout.main, session.layout.backup⟩⟩,
          fun noticed => ?_, fun noticed exact => ?_⟩
    · exact session.saved fun dirty among => noticed dirty (List.mem_cons_of_mem _ among)
    · exact session.durable (fun dirty among => noticed dirty (List.mem_cons_of_mem _ among))
        fun noted among => exact noted (List.mem_cons_of_mem _ among)
  · have ordered := attached.ordered readOnly (fun signatureBa main backup among =>
      fits signatureBa main backup (List.mem_cons_of_mem _ among)) some
    exact ⟨ordered.mainLow, ordered.mainFirst, ordered.last, ordered.upper, ordered.top,
      ordered.chip⟩

theorem step_running {op : Op} {next : Sys} (running : Running ld sys)
    (is : step ld op sys = some next) (faithful : Faithful ld next.state.trace) :
    Running ld next := by
  obtain ⟨state, isAttached⟩ := sys
  cases op with
  | attach flags rounds =>
    obtain ⟨ret, returned, rfl⟩ := step_attach_cases is
    have made : Faithful ld (attach ld flags rounds state).2.trace →
        WellRecorded ld (attach ld flags rounds state).2.trace ∧
          ((attach ld flags rounds state).1 = some 0 → Attached ld (attach ld flags rounds state).2) :=
      attach_attached sound flags rounds running.recorded
    dsimp only at faithful returned ⊢
    by_cases done : ret = 0
    · rw [if_pos done] at faithful ⊢
      obtain ⟨recorded, attached⟩ := made faithful.2
      refine ⟨recorded.cons trivial, fun _ => ?_⟩
      exact (attached (done ▸ returned)).recordAttached
    · rw [if_neg done] at faithful ⊢
      exact ⟨(made faithful).1, fun attached => absurd (of_decide_eq_true attached) done⟩
  | detach =>
    obtain ⟨rfl, rfl⟩ := step_detach_cases is
    have after := running.request (fun closed => detach_closed closed) ?_
      fun session => detach_session sound session
    · exact ⟨after.recorded, nofun⟩
    · have frame : Preserves (Remaps fun _ => True) (detach ld) := remaps_detach sound
      exact (frame state).capacity
  | eraseBlockRange addr size =>
    obtain ⟨rfl, rfl⟩ := request_cases is
    exact running.request (fun closed => by rw [eraseBlockRange_refused closed])
      (remaps_eraseBlockRange sound addr size state).capacity
      fun session => eraseBlockRange_session sound session addr size faithful
  | readSinglePage addr mode =>
    obtain ⟨rfl, rfl⟩ := request_cases is
    exact running.read sound (touches_readSinglePage addr mode state)
  | readRange addr size mode =>
    obtain ⟨rfl, rfl⟩ := request_cases is
    exact running.read sound (touches_readRange addr size mode state)
  | writeSinglePage addr data oob mode =>
    obtain ⟨rfl, rfl⟩ := request_cases is
    have frame : Remaps (fun _ => True) state (writeSinglePage ld addr data oob mode state).2 :=
      remaps_writeSinglePage sound _ _ _ _ state
    exact running.request (fun closed => by rw [writeSinglePage_refused closed]) frame.capacity
      fun session => writeSinglePage_session sound session addr data oob mode
  | panicWriteSinglePage addr data =>
    obtain ⟨rfl, rfl⟩ := request_cases is
    have frame : Remaps (fun _ => True) state (panicWriteSinglePage ld addr data state).2 :=
      remaps_panicWriteSinglePage sound _ _ state
    exact running.request (fun closed => by rw [panicWriteSinglePage_refused closed])
      frame.capacity fun session => panicWriteSinglePage_session sound session addr data
  | writeRange addr data mode =>
    obtain ⟨rfl, rfl⟩ := request_cases is
    have frame : Remaps (fun _ => True) state (writeRange ld addr data mode state).2 :=
      remaps_writeRange sound _ _ _ state
    exact running.request (fun closed => by rw [writeRange_refused closed]) frame.capacity
      fun session => writeRange_session sound session addr data mode
  | checkBadBlock addr =>
    obtain ⟨rfl, rfl⟩ := request_cases is
    exact running.read sound (touches_checkBadBlock addr state)
  | markBadBlock addr =>
    obtain ⟨rfl, rfl⟩ := request_cases is
    exact running.request (fun closed => by rw [markBadBlock_refused closed])
      (remaps_markBadBlock sound addr state).capacity
      fun session => markBadBlock_session sound session addr

theorem run_grows {ops : List Op} {final : Sys} (is : run ld ops sys = some final) :
    Grows sys.state final.state := by
  induction ops generalizing sys with
  | nil =>
    obtain rfl := Option.some.inj is
    exact .refl _
  | cons op ops ih =>
    obtain ⟨next, stepped, rest⟩ := Option.bind_eq_some_iff.mp is
    exact (step_grows sound stepped).trans (ih rest)

theorem run_running {ops : List Op} {final : Sys} (running : Running ld sys)
    (is : run ld ops sys = some final) (faithful : Faithful ld final.state.trace) :
    Running ld final := by
  induction ops generalizing sys with
  | nil =>
    obtain rfl := Option.some.inj is
    exact running
  | cons op ops ih =>
    obtain ⟨next, stepped, rest⟩ := Option.bind_eq_some_iff.mp is
    have later := (run_grows sound rest).faithful faithful
    exact ih (step_running sound running stepped later) rest

omit sound in
theorem initialSys_running (flash : Flash) : Running ld (initialSys ld flash) :=
  ⟨fun _ among => absurd among List.not_mem_nil, nofun⟩

end Step

end MetaFilogic.Nmbm
