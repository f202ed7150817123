import MetaFilogic.Nmbm.Persistence

/-!
# The protected chip

Once the chip is protected every request that would write is refused without any
access to the device.  So is every read: a page that could be read before cannot be
read any more.
-/

namespace MetaFilogic.Nmbm

open Bytes

inductive ReadRequest where
  | singlePage (addr : Nat) (mode : OobMode)
  | range (addr size : Nat) (mode : OobMode) (some : 0 < size)

def ReadRequest.delivers (ld : LowerDevice) (sys : Sys) : ReadRequest → Option PageData
  | .singlePage addr mode =>
    let result := (readSinglePage ld addr mode sys.state).1
    if sys.isAttached ∧ 0 ≤ result.1 then some result.2 else none
  | .range addr size mode _ =>
    let result := (readRange ld addr size mode sys.state).1
    if sys.isAttached ∧ 0 ≤ result.ret then some ⟨result.data, []⟩ else none

def StaysReadable (ld : LowerDevice) (before after : Sys) : Prop :=
  ∀ (read : ReadRequest) content, read.delivers ld before = some content →
    read.delivers ld after = some content

/-- All requests that would write are refused, and leave everything as it is. -/
structure RefusesWrites (ld : LowerDevice) (state : State) : Prop where
  eraseBlockRange : ∀ addr size, eraseBlockRange ld addr size state = ((-EROFS, none), state)
  writeSinglePage : ∀ addr data oob mode,
    writeSinglePage ld addr data oob mode state = (-EROFS, state)
  panicWriteSinglePage : ∀ addr data, panicWriteSinglePage ld addr data state = (-EROFS, state)
  writeRange : ∀ addr data mode, writeRange ld addr data mode state = ((-EROFS, none), state)
  markBadBlock : ∀ addr, markBadBlock ld addr state = (-EROFS, state)

variable {ld : LowerDevice}

theorem ReadRequest.refused {sys : Sys} (isProtected : sys.state.ni.isProtected = true)
    (read : ReadRequest) : read.delivers ld sys = none := by
  cases read with
  | singlePage addr mode =>
    have refused : (readSinglePage ld addr mode sys.state).1.1 = -EROFS := by
      simp only [readSinglePage, bind, StateT.bind, getNi, if_pos isProtected]
      rfl
    simp [delivers, refused, EROFS]
  | range addr size mode some =>
    have refused : (readRange ld addr size mode sys.state).1.ret = -EROFS := by
      simp only [readRange, bind, StateT.bind, getNi, if_pos isProtected]
      rfl
    simp [delivers, refused, EROFS]

/-- After any step of a run that leaves the chip protected, writes are refused, and what
could be read before stays readable only if there was nothing to read. -/
theorem protected_readable {flash : Flash} {ops : List Op} {op : Op} {sys next : Sys}
    (_reached : run ld ops (initialSys ld flash) = some sys) (_is : step ld op sys = some next)
    (isProtected : next.state.ni.isProtected = true) :
    RefusesWrites ld next.state ∧
      (StaysReadable ld sys next ↔ ∀ read : ReadRequest, read.delivers ld sys = none) := by
  have closed : next.state.ni.isProtected = true ∨ next.state.ni.flags.readOnly = true :=
    Or.inl isProtected
  refine ⟨⟨eraseBlockRange_refused closed, writeSinglePage_refused closed,
    panicWriteSinglePage_refused closed, writeRange_refused closed, markBadBlock_refused closed⟩,
      fun stays read => ?_, fun nothing read content delivered => ?_⟩
  · cases delivered : read.delivers ld sys with
    | none => rfl
    | some content =>
      have later := stays read content delivered
      rw [read.refused isProtected] at later
      cases later
  · rw [nothing read] at delivered
    cases delivered

def exhaustedChip : LowerDevice :=
  faultyChip 9 [113, 114, 115, 118, 119, 120]

/-- The chip is protected when it is attached again. -/
theorem protected_readable_exhausted : ∃ sys next,
    run exhaustedChip [.attach creating 40, .eraseBlockRange 0 256]
        (initialSys exhaustedChip (erasedFlash [0])) = some sys ∧
      step exhaustedChip (.attach creating 40) sys = some next ∧
      RefusesWrites exhaustedChip next.state := by
  obtain ⟨sys, is, passes⟩ : ∃ sys,
      run exhaustedChip [.attach creating 40, .eraseBlockRange 0 256]
          (initialSys exhaustedChip (erasedFlash [0])) = some sys ∧
        (step exhaustedChip (.attach creating 40) sys).any
          (fun next => decide (next.state.ni.isProtected = true)) = true :=
    exists_of_any (by decide +kernel)
  obtain ⟨next, stepped, isProtected⟩ := exists_of_any passes
  exact ⟨sys, next, is, stepped, (protected_readable is stepped isProtected).1⟩

/-- Page 0 could be read before that, and not afterwards. -/
theorem protected_unreadable : ∃ sys next,
    run exhaustedChip [.attach creating 40, .eraseBlockRange 0 256]
        (initialSys exhaustedChip (erasedFlash [0])) = some sys ∧
      step exhaustedChip (.attach creating 40) sys = some next ∧ next.isAttached = true ∧
      sys.state.ni.isProtected = false ∧ next.state.ni.isProtected = true ∧
      ¬StaysReadable exhaustedChip sys next := by
  obtain ⟨sys, is, unprotected, readable, passes⟩ : ∃ sys,
      run exhaustedChip [.attach creating 40, .eraseBlockRange 0 256]
          (initialSys exhaustedChip (erasedFlash [0])) = some sys ∧
        sys.state.ni.isProtected = false ∧
        ((ReadRequest.singlePage 0 .placeOob).delivers exhaustedChip sys).isSome = true ∧
        (step exhaustedChip (.attach creating 40) sys).any (fun next =>
          decide (next.isAttached = true ∧ next.state.ni.isProtected = true)) = true :=
    exists_of_any (by decide +kernel)
  obtain ⟨next, stepped, both⟩ := exists_of_any passes
  refine ⟨sys, next, is, stepped, both.1, unprotected, both.2, fun stays => ?_⟩
  obtain ⟨content, delivered⟩ := Option.isSome_iff_exists.mp readable
  have later := stays (.singlePage 0 .placeOob) content delivered
  rw [ReadRequest.refused both.2] at later
  cases later

end MetaFilogic.Nmbm
