import Mathlib.Logic.Function.Basic
import Mathlib.Data.Nat.Basic

/-!
# Memory by address

A buffer is a function from addresses.  Copying, filling and swapping are the changes that C code
makes to one, each with the lemma that reads it back.
-/

namespace MetaFilogic.Memory

variable {α : Type}

/-- `memcpy(dst + pos, src + start, count)` -/
def copy (dst : Nat → α) (pos : Nat) (src : Nat → α) (start count : Nat) : Nat → α :=
  fun i => if pos ≤ i ∧ i < pos + count then src (start + (i - pos)) else dst i

/-- `memset(dst + pos, value, count)` -/
def fill (dst : Nat → α) (pos : Nat) (value : α) (count : Nat) : Nat → α :=
  fun i => if pos ≤ i ∧ i < pos + count then value else dst i

def swap (buf : Nat → α) (i j : Nat) : Nat → α :=
  Function.update (Function.update buf i (buf j)) j (buf i)

variable {dst src : Nat → α} {pos start count i : Nat} {value : α}

theorem copy_inside (above : pos ≤ i) (below : i < pos + count) :
    copy dst pos src start count i = src (start + (i - pos)) :=
  if_pos ⟨above, below⟩

theorem copy_outside (apart : i < pos ∨ pos + count ≤ i) : copy dst pos src start count i = dst i :=
  if_neg (by omega)

theorem fill_inside (above : pos ≤ i) (below : i < pos + count) :
    fill dst pos value count i = value :=
  if_pos ⟨above, below⟩

theorem fill_outside (apart : i < pos ∨ pos + count ≤ i) : fill dst pos value count i = dst i :=
  if_neg (by omega)

end MetaFilogic.Memory
