import Mathlib.Data.BitVec
import Mathlib.Logic.Function.Basic

/-!
# Big-endian words in a memory

A message is written word by word into a buffer.  Words that do not overlap are read back as they
were written, and the last one written at a place wins.
-/

namespace MetaFilogic.BeWords

variable {mem : Nat → BitVec 8} {pos place i : Nat} {value : BitVec 32}

/-- `*(u32 *)(mem + pos) = htonl(value)` -/
def put (mem : Nat → BitVec 8) (pos : Nat) (value : BitVec 32) : Nat → BitVec 8 := fun i =>
  if pos ≤ i ∧ i < pos + 4 then value.extractLsb' (8 * (3 - (i - pos))) 8 else mem i

/-- `ntohl(*(u32 *)(mem + pos))` -/
def get (mem : Nat → BitVec 8) (pos : Nat) : BitVec 32 :=
  mem pos ++ mem (pos + 1) ++ mem (pos + 2) ++ mem (pos + 3)

def Apart (pos place : Nat) : Prop := pos + 4 ≤ place ∨ place + 4 ≤ pos

instance (pos place : Nat) : Decidable (Apart pos place) := inferInstanceAs (Decidable (_ ∨ _))

theorem put_outside (outside : i < pos ∨ pos + 4 ≤ i) : put mem pos value i = mem i :=
  if_neg (by omega)

theorem put_at {k : Nat} (below : k < 4) :
    put mem pos value (pos + k) = value.extractLsb' (8 * (3 - k)) 8 := by
  unfold put
  rw [if_pos (by omega), Nat.add_sub_cancel_left]

@[simp]
theorem get_put : get (put mem pos value) pos = value := by
  have first : put mem pos value pos = value.extractLsb' 24 8 := @put_at mem pos value 0 (by decide)
  unfold get
  rw [first, put_at (by decide), put_at (by decide), put_at (by decide)]
  refine BitVec.eq_of_getLsbD_eq fun i below => ?_
  simp only [BitVec.getLsbD_append, BitVec.getLsbD_extractLsb']
  by_cases byte0 : i < 8
  · simp [byte0]
  by_cases byte1 : i < 16
  · have in1 : i - 8 < 8 := by omega
    have at1 : 8 + (i - 8) = i := by omega
    simp [byte0, in1, at1]
  by_cases byte2 : i < 24
  · have not1 : ¬i - 8 < 8 := by omega
    have in2 : i - 8 - 8 < 8 := by omega
    have at2 : 16 + (i - 8 - 8) = i := by omega
    simp [byte0, not1, in2, at2]
  · have not1 : ¬i - 8 < 8 := by omega
    have not2 : ¬i - 8 - 8 < 8 := by omega
    have in3 : i - 8 - 8 - 8 < 8 := by omega
    have at3 : 24 + (i - 8 - 8 - 8) = i := by omega
    simp [byte0, not1, not2, in3, at3]

theorem get_put_apart (apart : Apart pos place) : get (put mem pos value) place = get mem place := by
  unfold Apart at apart
  unfold get
  rw [put_outside (by omega), put_outside (by omega), put_outside (by omega),
    put_outside (by omega)]

/-! ## Many words -/

def putAll (mem : Nat → BitVec 8) (writes : List (Nat × BitVec 32)) : Nat → BitVec 8 :=
  writes.foldl (fun mem write => put mem write.1 write.2) mem

theorem putAll_append (front back : List (Nat × BitVec 32)) :
    putAll mem (front ++ back) = putAll (putAll mem front) back :=
  List.foldl_append

variable {writes : List (Nat × BitVec 32)}

theorem putAll_outside (outside : ∀ write ∈ writes, i < write.1 ∨ write.1 + 4 ≤ i) :
    putAll mem writes i = mem i := by
  induction writes generalizing mem with
  | nil => rfl
  | cons write writes ih =>
    have rest := @ih (put mem write.1 write.2) fun other member =>
      outside other (List.mem_cons_of_mem _ member)
    exact rest.trans (put_outside (outside write List.mem_cons_self))

theorem get_putAll_apart (apart : ∀ write ∈ writes, Apart write.1 place) :
    get (putAll mem writes) place = get mem place := by
  induction writes generalizing mem with
  | nil => rfl
  | cons write writes ih =>
    have rest := @ih (put mem write.1 write.2) fun other member =>
      apart other (List.mem_cons_of_mem _ member)
    exact rest.trans (get_put_apart (apart write List.mem_cons_self))

theorem get_putAll_last {front back : List (Nat × BitVec 32)}
    (apart : ∀ write ∈ back, Apart write.1 pos) :
    get (putAll mem (front ++ (pos, value) :: back)) pos = value := by
  rw [putAll_append]
  exact (get_putAll_apart apart).trans get_put

theorem get_putAll_mem (apart : (writes.map Prod.fst).Pairwise Apart)
    (member : (pos, value) ∈ writes) : get (putAll mem writes) pos = value := by
  obtain ⟨front, back, rfl⟩ := List.append_of_mem member
  rw [List.map_append, List.map_cons, List.pairwise_append] at apart
  obtain ⟨-, apart, -⟩ := apart
  refine get_putAll_last fun write among => ?_
  have before := (List.pairwise_cons.mp apart).1 write.1 (List.mem_map_of_mem among)
  exact Or.symm before

end MetaFilogic.BeWords
