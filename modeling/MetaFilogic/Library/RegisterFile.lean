import MetaFilogic.Library.Registers

/-!
# Updates of a register file

A driver updates registers one after the other, each time the bits of one mask.  Each bit then
holds what the last update that touches it has written.
-/

namespace MetaFilogic.Registers

variable {w : Nat}

/-- The bits of `mask` in the register `reg` are replaced by those of `val`. -/
structure Update (w : Nat) where
  reg : Nat
  mask : BitVec w
  val : BitVec w

namespace Update

def apply (regs : Nat → BitVec w) (update : Update w) : Nat → BitVec w := fun reg =>
  if reg = update.reg then updateBits update.mask update.val (regs reg) else regs reg

def set (reg : Nat) (bits : BitVec w) : Update w := ⟨reg, bits, bits⟩

def clear (reg : Nat) (bits : BitVec w) : Update w := ⟨reg, bits, 0⟩

def write (update : Update w) (reg i : Nat) : Option Bool :=
  if reg = update.reg ∧ update.mask.getLsbD i then some (update.val.getLsbD i) else none

theorem getLsbD_apply (regs : Nat → BitVec w) (update : Update w) (reg i : Nat) :
    (apply regs update reg).getLsbD i = (update.write reg i).getD ((regs reg).getLsbD i) := by
  rw [apply, write]
  by_cases here : reg = update.reg
  · rw [if_pos here, getLsbD_updateBits]
    by_cases touched : update.mask.getLsbD i = true
    · rw [if_pos touched, if_pos ⟨here, touched⟩]
      rfl
    · rw [if_neg touched, if_neg fun both => touched both.2]
      rfl
  · rw [if_neg here, if_neg fun both => here both.1]
    rfl

theorem apply_of_mask_eq_zero (regs : Nat → BitVec w) {update : Update w}
    (empty : update.mask = 0) : apply regs update = regs := by
  funext reg
  refine BitVec.eq_of_getLsbD_eq fun i _ => ?_
  rw [getLsbD_apply, write, empty]
  simp

end Update

def applyAll (updates : List (Update w)) (regs : Nat → BitVec w) : Nat → BitVec w :=
  updates.foldl Update.apply regs

theorem applyAll_append (first second : List (Update w)) (regs : Nat → BitVec w) :
    applyAll (first ++ second) regs = applyAll second (applyAll first regs) :=
  List.foldl_append

def lastWrite (reg i : Nat) : List (Update w) → Option Bool
  | [] => none
  | update :: updates => (lastWrite reg i updates).or (update.write reg i)

theorem getLsbD_applyAll (updates : List (Update w)) (regs : Nat → BitVec w) (reg i : Nat) :
    (applyAll updates regs reg).getLsbD i =
      (lastWrite reg i updates).getD ((regs reg).getLsbD i) := by
  induction updates generalizing regs with
  | nil => rfl
  | cons update updates ih =>
    rw [applyAll, List.foldl_cons, ← applyAll, ih, Update.getLsbD_apply, lastWrite]
    cases lastWrite reg i updates <;> rfl

def Settled (updates : List (Update w)) (regs : Nat → BitVec w) (reg : Nat) (mask : BitVec w) :
    Prop :=
  ∀ i value, mask.getLsbD i = true → lastWrite reg i updates = some value →
    (regs reg).getLsbD i = value

theorem applyAll_and_iff {updates : List (Update w)} {regs : Nat → BitVec w} {reg : Nat}
    {mask : BitVec w} :
    applyAll updates regs reg &&& mask = regs reg &&& mask ↔ Settled updates regs reg mask := by
  constructor
  · intro same i value shown last
    have bit : ((applyAll updates regs reg &&& mask).getLsbD i) =
        (regs reg &&& mask).getLsbD i := by rw [same]
    rw [BitVec.getLsbD_and, BitVec.getLsbD_and, shown, Bool.and_true, Bool.and_true,
      getLsbD_applyAll, last] at bit
    exact bit.symm
  · intro settled
    refine BitVec.eq_of_getLsbD_eq fun i _ => ?_
    rw [BitVec.getLsbD_and, BitVec.getLsbD_and, getLsbD_applyAll]
    cases shown : mask.getLsbD i with
    | false => rw [Bool.and_false, Bool.and_false]
    | true =>
      cases last : lastWrite reg i updates with
      | none => rfl
      | some value => rw [settled i value shown last, Option.getD_some]

end MetaFilogic.Registers
