import MetaFilogic.Library.Registers
import MetaFilogic.Library.Steps

/-!
# Resets of the PCS instances

A PCS is reset through two registers that all instances share: its bits are enabled and set, and
cleared and disabled again, each by reading a register and writing it back.  An SGMII instance
does this under a lock of its own, all USXGMII instances under one lock.
-/

namespace MetaFilogic.Eth

/-! ## The two registers -/

def SWSYSRST_XFI_PEXPT1_GRST : BitVec 32 := 0x8000

def SWSYSRST_XFI_PEXPT0_GRST : BitVec 32 := 0x4000

def SWSYSRST_XFI1_GRST : BitVec 32 := 0x2000

def SWSYSRST_XFI0_GRST : BitVec 32 := 0x1000

def SWSYSRST_SGMII1_GRST : BitVec 32 := 4

def SWSYSRST_SGMII0_GRST : BitVec 32 := 2

def unlockKey : BitVec 32 := 0x88000000

/-- A PCS instance; `pextp` says whether an SGMII instance has a `regmap_pextp`. -/
inductive Pcs where
  | sgmii (pextp : Bool)
  | usxgmii

/-- The bits of `mtk_sgmii_reset` in the case of `id`. -/
def mtkSgmiiReset (pextp : Bool) : Nat → Option (BitVec 32)
  | 0 => some (SWSYSRST_SGMII0_GRST ||| if pextp then SWSYSRST_XFI_PEXPT0_GRST else 0)
  | 1 => some (SWSYSRST_SGMII1_GRST ||| if pextp then SWSYSRST_XFI_PEXPT1_GRST else 0)
  | _ => none

/-- The bits of `mtk_usxgmii_reset` in the case of `id`. -/
def mtkUsxgmiiReset : Nat → Option (BitVec 32)
  | 0 => some (SWSYSRST_XFI_PEXPT0_GRST ||| SWSYSRST_XFI0_GRST)
  | 1 => some (SWSYSRST_XFI_PEXPT1_GRST ||| SWSYSRST_XFI1_GRST)
  | _ => none

namespace Pcs

/-- The case of the `switch (id)`. -/
def resetCase : Pcs → Nat → Option (BitVec 32)
  | .sgmii pextp => mtkSgmiiReset pextp
  | .usxgmii => mtkUsxgmiiReset

def bits (pcs : Pcs) (id : Nat) : BitVec 32 := (pcs.resetCase id).getD 0

end Pcs

/-! ## Calls -/

/-- `mpcs->reset_lock` of an SGMII instance, and `ss->toprgu_lock`. -/
inductive PcsLock where
  | resetLock (id : Nat)
  | toprguLock
  deriving DecidableEq

def Pcs.lock : Pcs → Nat → PcsLock
  | .sgmii _, id => .resetLock id
  | .usxgmii, _ => .toprguLock

/-- What a reset does next: `val` is what its last `regmap_read` has read. -/
inductive ResetPhase where
  | lock
  | enableRead
  | enableWrite (val : BitVec 32)
  | assertRead
  | assertWrite (val : BitVec 32)
  | deassertRead
  | deassertWrite (val : BitVec 32)
  | disableRead
  | disableWrite (val : BitVec 32)
  | unlock

/-- The shared registers, the locks that are held, and the reset in progress on each `id`. -/
structure TopRgu where
  maxDevs : Nat
  toprgu : Bool
  swsysrst : BitVec 32
  swsysrstEn : BitVec 32
  held : PcsLock → Bool
  calls : Nat → Option (Pcs × ResetPhase)

inductive ResetEvent where
  | call (id : Nat) (pcs : Pcs)
  | go (id : Nat)

namespace TopRgu

variable (s : TopRgu)

def move (id : Nat) (pcs : Pcs) (phase : ResetPhase) : TopRgu :=
  { s with calls := Function.update s.calls id (some (pcs, phase)) }

def writeEn (val : BitVec 32) : TopRgu := { s with swsysrstEn := val }

def write (val : BitVec 32) : TopRgu := { s with swsysrst := val }

def go (id : Nat) (pcs : Pcs) : ResetPhase → Option TopRgu
  | .lock =>
    if s.held (pcs.lock id) then none
    else
      some ({ s with held := Function.update s.held (pcs.lock id) true }.move id pcs
        (if (pcs.resetCase id).isSome then .enableRead else .unlock))
  | .enableRead => some (s.move id pcs (.enableWrite s.swsysrstEn))
  | .enableWrite val => some ((s.writeEn (val ||| pcs.bits id)).move id pcs .assertRead)
  | .assertRead => some (s.move id pcs (.assertWrite s.swsysrst))
  | .assertWrite val =>
    some ((s.write (val ||| unlockKey ||| pcs.bits id)).move id pcs .deassertRead)
  | .deassertRead => some (s.move id pcs (.deassertWrite s.swsysrst))
  | .deassertWrite val =>
    some ((s.write ((val ||| unlockKey) &&& ~~~pcs.bits id)).move id pcs .disableRead)
  | .disableRead => some (s.move id pcs (.disableWrite s.swsysrstEn))
  | .disableWrite val => some ((s.writeEn (val &&& ~~~pcs.bits id)).move id pcs .unlock)
  | .unlock =>
    some { s with
      held := Function.update s.held (pcs.lock id) false
      calls := Function.update s.calls id none }

def step (s : TopRgu) : ResetEvent → Option TopRgu
  | .call id pcs =>
    match s.calls id with
    | some _ => none
    | none => if s.maxDevs ≤ id ∨ s.toprgu = false then some s else some (s.move id pcs .lock)
  | .go id =>
    match s.calls id with
    | some (pcs, phase) => s.go id pcs phase
    | none => none

end TopRgu

/-! ## What a reset leaves alone -/

def resetMask : Nat → BitVec 32
  | 0 => SWSYSRST_XFI_PEXPT0_GRST ||| SWSYSRST_XFI0_GRST ||| SWSYSRST_SGMII0_GRST
  | 1 => SWSYSRST_XFI_PEXPT1_GRST ||| SWSYSRST_XFI1_GRST ||| SWSYSRST_SGMII1_GRST
  | _ => 0

def resetBits : BitVec 32 := resetMask 0 ||| resetMask 1

def ResetPhase.enabled : ResetPhase → Bool
  | .assertRead | .assertWrite _ | .deassertRead | .deassertWrite _ | .disableRead
  | .disableWrite _ => true
  | _ => false

def ResetPhase.asserted : ResetPhase → Bool
  | .deassertRead | .deassertWrite _ => true
  | _ => false

namespace Pcs

variable (pcs : Pcs)

theorem bits_within : ∀ id, pcs.bits id &&& resetMask id = pcs.bits id
  | 0 => by rcases pcs with ⟨_ | _⟩ | _ <;> rfl
  | 1 => by rcases pcs with ⟨_ | _⟩ | _ <;> rfl
  | _ + 2 => by rcases pcs with ⟨_ | _⟩ | _ <;> exact BitVec.zero_and

theorem bits_apart {id other : Nat} (apart : id ≠ other) :
    pcs.bits id &&& resetMask other = 0#32 := by
  match id, other with
  | 0, 0 => exact absurd rfl apart
  | 1, 1 => exact absurd rfl apart
  | 0, 1 => rcases pcs with ⟨_ | _⟩ | _ <;> rfl
  | 1, 0 => rcases pcs with ⟨_ | _⟩ | _ <;> rfl
  | id + 2, _ =>
    have none : pcs.bits (id + 2) = 0#32 := by rcases pcs with ⟨_ | _⟩ | _ <;> rfl
    rw [none, BitVec.zero_and]
  | _, other + 2 => exact BitVec.and_zero

end Pcs

theorem resetMask_within : ∀ id, resetMask id &&& resetBits = resetMask id
  | 0 => rfl
  | 1 => rfl
  | _ + 2 => BitVec.zero_and

def ownBits (set : ResetPhase → Bool) (id : Nat) : Option (Pcs × ResetPhase) → BitVec 32
  | some (pcs, phase) => if set phase then pcs.bits id else 0#32
  | none => 0#32

namespace TopRgu

variable {s : TopRgu} {id : Nat} {pcs : Pcs}

/-- No reset is in progress and no reset bit is set. -/
structure Quiet (s : TopRgu) : Prop where
  calls : ∀ id, s.calls id = none
  swsysrst : s.swsysrst &&& resetBits = 0#32
  swsysrstEn : s.swsysrstEn &&& resetBits = 0#32

/-- When no reset is in progress no bit is left set, and between the write that asserts and the
write that de-asserts the bits of a reset stay set. -/
structure Undisturbed (s : TopRgu) : Prop where
  quiet : (∀ id, s.calls id = none) → s.Quiet
  kept : ∀ id pcs phase, s.calls id = some (pcs, phase) → phase.asserted = true →
    s.swsysrst &&& pcs.bits id = pcs.bits id ∧ s.swsysrstEn &&& pcs.bits id = pcs.bits id

/-- The registers have the bits of the resets in progress and no others. -/
structure Tidy (s : TopRgu) : Prop where
  swsysrst : ∀ id, s.swsysrst &&& resetMask id = ownBits ResetPhase.asserted id (s.calls id)
  swsysrstEn : ∀ id, s.swsysrstEn &&& resetMask id = ownBits ResetPhase.enabled id (s.calls id)

variable {x y : BitVec 32}

theorem and_resetBits (clear : ∀ id, x &&& resetMask id = 0#32) : x &&& resetBits = 0#32 := by
  rw [resetBits, BitVec.and_or_distrib_left, clear 0, clear 1]
  rfl

theorem enabled_of_asserted {phase : ResetPhase} (asserted : phase.asserted = true) :
    phase.enabled = true := by
  cases phase with
  | deassertRead => rfl
  | deassertWrite _ => rfl
  | _ => cases asserted

namespace Tidy

theorem of_quiet (quiet : s.Quiet) : Tidy s := by
  have clear : ∀ {x : BitVec 32}, x &&& resetBits = 0#32 → ∀ id, x &&& resetMask id = 0#32 := by
    intro x none id
    rw [← resetMask_within id, BitVec.and_comm (resetMask id), ← BitVec.and_assoc, none,
      BitVec.zero_and]
  refine ⟨fun id => ?_, fun id => ?_⟩
  · rw [quiet.calls id, clear quiet.swsysrst]
    rfl
  · rw [quiet.calls id, clear quiet.swsysrstEn]
    rfl

theorem undisturbed (tidy : Tidy s) : Undisturbed s := by
  refine ⟨fun none => ⟨none, and_resetBits fun id => ?_, and_resetBits fun id => ?_⟩,
    fun id pcs phase call asserted => ?_⟩
  · rw [tidy.swsysrst id, none id]
    rfl
  · rw [tidy.swsysrstEn id, none id]
    rfl
  · have shown := tidy.swsysrst id
    have shownEn := tidy.swsysrstEn id
    rw [call, ownBits, asserted, if_pos rfl] at shown
    rw [call, ownBits, enabled_of_asserted asserted, if_pos rfl] at shownEn
    have own : ∀ {x : BitVec 32}, x &&& resetMask id = pcs.bits id →
        x &&& pcs.bits id = pcs.bits id := by
      intro x shown
      calc x &&& pcs.bits id = x &&& (resetMask id &&& pcs.bits id) := by
            rw [BitVec.and_comm (resetMask id), pcs.bits_within]
        _ = x &&& resetMask id &&& pcs.bits id := (BitVec.and_assoc ..).symm
        _ = pcs.bits id := by rw [shown, BitVec.and_self]
    exact ⟨own shown, own shownEn⟩

theorem update (tidy : Tidy s) {rst en : BitVec 32} {entry : Option (Pcs × ResetPhase)}
    {held : PcsLock → Bool}
    (rstOther : ∀ other, id ≠ other → rst &&& resetMask other = s.swsysrst &&& resetMask other)
    (enOther : ∀ other, id ≠ other → en &&& resetMask other = s.swsysrstEn &&& resetMask other)
    (rstOwn : rst &&& resetMask id = ownBits ResetPhase.asserted id entry)
    (enOwn : en &&& resetMask id = ownBits ResetPhase.enabled id entry) :
    Tidy { s with
      swsysrst := rst, swsysrstEn := en, held := held,
      calls := Function.update s.calls id entry } := by
  refine ⟨fun other => ?_, fun other => ?_⟩
  all_goals
    dsimp only
    by_cases here : id = other
  · rw [← here, Function.update_self]
    exact rstOwn
  · rw [Function.update_of_ne (Ne.symm here)]
    exact (rstOther other here).trans (tidy.swsysrst other)
  · rw [← here, Function.update_self]
    exact enOwn
  · rw [Function.update_of_ne (Ne.symm here)]
    exact (enOther other here).trans (tidy.swsysrstEn other)

theorem same (tidy : Tidy s) {entry : Option (Pcs × ResetPhase)} {held : PcsLock → Bool}
    (rst : ownBits ResetPhase.asserted id entry = ownBits ResetPhase.asserted id (s.calls id))
    (en : ownBits ResetPhase.enabled id entry = ownBits ResetPhase.enabled id (s.calls id)) :
    Tidy { s with held := held, calls := Function.update s.calls id entry } :=
  tidy.update (fun _ _ => rfl) (fun _ _ => rfl) ((tidy.swsysrst id).trans rst.symm)
    ((tidy.swsysrstEn id).trans en.symm)

end Tidy

def Finds (s : TopRgu) : ResetPhase → Prop
  | .enableWrite val => val &&& resetBits = s.swsysrstEn &&& resetBits
  | .assertWrite val => val &&& resetBits = s.swsysrst &&& resetBits
  | .deassertWrite val => val &&& resetBits = s.swsysrst &&& resetBits
  | .disableWrite val => val &&& resetBits = s.swsysrstEn &&& resetBits
  | _ => True

instance (s : TopRgu) : DecidablePred s.Finds
  | .enableWrite _ => inferInstanceAs (Decidable (_ = _))
  | .assertWrite _ => inferInstanceAs (Decidable (_ = _))
  | .deassertWrite _ => inferInstanceAs (Decidable (_ = _))
  | .disableWrite _ => inferInstanceAs (Decidable (_ = _))
  | .lock | .enableRead | .assertRead | .deassertRead | .disableRead | .unlock => isTrue trivial

def Fresh (s : TopRgu) : ResetEvent → Prop
  | .call _ _ => True
  | .go id => ∀ call ∈ s.calls id, s.Finds call.2

instance (s : TopRgu) : DecidablePred s.Fresh
  | .call _ _ => isTrue trivial
  | .go id => inferInstanceAs (Decidable (∀ call ∈ s.calls id, s.Finds call.2))

theorem set_other (same : x &&& resetBits = y &&& resetBits) {other : Nat} (apart : id ≠ other) :
    (x ||| pcs.bits id) &&& resetMask other = y &&& resetMask other := by
  rw [Registers.or_and_of_apart (pcs.bits_apart apart)]
  exact Registers.and_of_within (resetMask_within other) same

theorem clear_other (same : x &&& resetBits = y &&& resetBits) {other : Nat} (apart : id ≠ other) :
    x &&& ~~~pcs.bits id &&& resetMask other = y &&& resetMask other := by
  rw [Registers.clear_and_of_apart (pcs.bits_apart apart)]
  exact Registers.and_of_within (resetMask_within other) same

theorem key_same (same : x &&& resetBits = y &&& resetBits) :
    (x ||| unlockKey) &&& resetBits = y &&& resetBits := by
  rw [Registers.or_and_of_apart (by decide), same]

theorem set_own (same : x &&& resetBits = y &&& resetBits) (clear : y &&& resetMask id = 0#32) :
    (x ||| pcs.bits id) &&& resetMask id = pcs.bits id := by
  rw [Registers.or_and_of_within (pcs.bits_within id),
    Registers.and_of_within (resetMask_within id) same, clear, BitVec.zero_or]

theorem clear_own (same : x &&& resetBits = y &&& resetBits)
    (own : y &&& resetMask id = pcs.bits id) : x &&& ~~~pcs.bits id &&& resetMask id = 0#32 :=
  Registers.clear_and_of_shown
    ((Registers.and_of_within (resetMask_within id) same).trans own)

theorem Tidy.go (tidy : Tidy s) {phase : ResetPhase} {s' : TopRgu}
    (call : s.calls id = some (pcs, phase)) (fresh : s.Finds phase)
    (gone : s.go id pcs phase = some s') : Tidy s' := by
  have rst := tidy.swsysrst id
  have en := tidy.swsysrstEn id
  rw [call] at rst en
  cases phase with
  | lock =>
    obtain ⟨-, gone⟩ := Option.ite_none_left_eq_some.mp gone
    obtain rfl := Option.some_inj.mp gone
    refine tidy.same ?_ ?_
    all_goals
      rw [call]
      split <;> rfl
  | enableRead =>
    obtain rfl := Option.some_inj.mp gone
    exact tidy.same (by rw [call]; rfl) (by rw [call]; rfl)
  | enableWrite val =>
    obtain rfl := Option.some_inj.mp gone
    exact tidy.update (fun _ _ => rfl) (fun _ apart => set_other fresh apart) rst
      (set_own fresh en)
  | assertRead =>
    obtain rfl := Option.some_inj.mp gone
    exact tidy.same (by rw [call]; rfl) (by rw [call]; rfl)
  | assertWrite val =>
    obtain rfl := Option.some_inj.mp gone
    exact tidy.update (fun _ apart => set_other (key_same fresh) apart) (fun _ _ => rfl)
      (set_own (key_same fresh) rst) en
  | deassertRead =>
    obtain rfl := Option.some_inj.mp gone
    exact tidy.same (by rw [call]; rfl) (by rw [call]; rfl)
  | deassertWrite val =>
    obtain rfl := Option.some_inj.mp gone
    exact tidy.update (fun _ apart => clear_other (key_same fresh) apart) (fun _ _ => rfl)
      (clear_own (key_same fresh) rst) en
  | disableRead =>
    obtain rfl := Option.some_inj.mp gone
    exact tidy.same (by rw [call]; rfl) (by rw [call]; rfl)
  | disableWrite val =>
    obtain rfl := Option.some_inj.mp gone
    exact tidy.update (fun _ _ => rfl) (fun _ apart => clear_other fresh apart) rst
      (clear_own fresh en)
  | unlock =>
    obtain rfl := Option.some_inj.mp gone
    exact tidy.same (by rw [call]; rfl) (by rw [call]; rfl)

theorem Tidy.step (tidy : Tidy s) {event : ResetEvent} {s' : TopRgu} (fresh : s.Fresh event)
    (stepped : s.step event = some s') : Tidy s' := by
  cases event with
  | call id pcs =>
    rw [TopRgu.step] at stepped
    split at stepped
    · cases stepped
    · rename_i none
      split at stepped
      · obtain rfl := Option.some_inj.mp stepped
        exact tidy
      · obtain rfl := Option.some_inj.mp stepped
        exact tidy.same (by rw [none]; rfl) (by rw [none]; rfl)
  | go id =>
    rw [TopRgu.step] at stepped
    split at stepped
    · rename_i pcs phase call
      exact tidy.go call (fresh (pcs, phase) call) stepped
    · cases stepped

/-- While every write finds what its read has seen, resets do not disturb each other. -/
theorem undisturbed_of_fresh {s₀ s : TopRgu} (quiet : s₀.Quiet)
    (run : Reaches Fresh TopRgu.step s₀ s) : Undisturbed s :=
  (run.invariant (fun _ _ _ tidy fresh stepped => tidy.step fresh stepped)
    (Tidy.of_quiet quiet)).undisturbed

/-- Two registers without a reset bit, and any `maxDevs` from 2 on. -/
def idle : TopRgu := ⟨2, true, 0, 0, fun _ => false, fun _ => none⟩

theorem idle_quiet : idle.Quiet := ⟨fun _ => rfl, rfl, rfl⟩

/-- An SGMII reset sets its bits, a USXGMII reset of another id runs, and the first goes on. -/
def apartRun : List ResetEvent :=
  [.call 0 (.sgmii true)] ++ List.replicate 5 (.go 0) ++ [.call 1 .usxgmii] ++
    List.replicate 10 (.go 1) ++ List.replicate 5 (.go 0)

theorem apartRun_undisturbed : ∃ s, Reaches Fresh TopRgu.step idle s ∧
    s.swsysrst = unlockKey ∧ Undisturbed s := by
  have run : ∃ s, runSteps TopRgu.step apartRun idle = some s ∧ s.swsysrst = unlockKey :=
    ⟨_, rfl, rfl⟩
  obtain ⟨s, run, key⟩ := run
  have reaches : Reaches Fresh TopRgu.step idle s := reaches_of_runSteps (by decide) run
  exact ⟨s, reaches, key, undisturbed_of_fresh idle_quiet reaches⟩

/-- An SGMII reset reads which resets are enabled, the other reset disables its bits, and the
first enables them again with its own. -/
def staleRun : List ResetEvent :=
  [.call 0 (.sgmii true), .call 1 (.sgmii true)] ++ List.replicate 7 (.go 0) ++
    List.replicate 2 (.go 1) ++ List.replicate 3 (.go 0) ++ List.replicate 8 (.go 1)

theorem staleRun_disturbed :
    ¬ ∀ s₀ s, s₀.Quiet → Reaches anyStep TopRgu.step s₀ s → Undisturbed s := by
  intro undisturbed
  have run : ∃ s, runSteps TopRgu.step staleRun idle = some s ∧ (∀ id, s.calls id = none) ∧
      s.swsysrstEn &&& resetBits = 0x4002#32 :=
    ⟨_, rfl, fun | 0 => rfl | 1 => rfl | _ + 2 => rfl, rfl⟩
  obtain ⟨s, run, none, left⟩ := run
  have kept := undisturbed idle s idle_quiet (reaches_of_runSteps allAllowed_anyStep run)
  have clear := (kept.quiet none).swsysrstEn
  rw [left] at clear
  exact absurd clear (by decide)

end TopRgu

end MetaFilogic.Eth
