import Mathlib.Data.BitVec

/-!
# Memory and DMA mappings

What a driver has allocated and what it has mapped for the device.  A release of memory that is
not allocated, or of an address that is not mapped, is remembered.
-/

namespace MetaFilogic.Eth

open Function (update update_self update_of_ne update_eq_self update_idem)

abbrev DmaAddr := BitVec 64

def DMA_MAPPING_ERROR : DmaAddr := BitVec.allOnes 64

structure DmaRes where
  next : Nat
  live : Nat → Bool
  mapped : DmaAddr → Option Nat
  fault : Bool

namespace DmaRes

def empty : DmaRes := ⟨0, fun _ => false, fun _ => none, false⟩

variable (r : DmaRes)

def alloc : DmaRes :=
  { r with next := r.next + 1, live := update r.live r.next true }

def release (memory : Nat) : DmaRes :=
  if r.live memory then { r with live := update r.live memory false }
  else { r with fault := true }

/-- `dma_map_single` when it succeeds, for a device that reaches addresses of so many bits.  An
address the device does not reach or that is in use is never returned. -/
def map (bits : Nat) (addr : DmaAddr) (memory : Nat) : Option DmaRes :=
  if addr.toNat < 2 ^ bits ∧ r.mapped addr = none then
    some { r with mapped := update r.mapped addr (some memory) }
  else none

def unmap (addr : DmaAddr) : DmaRes :=
  if (r.mapped addr).isSome then { r with mapped := update r.mapped addr none }
  else { r with fault := true }

variable {r} {memory : Nat} {addr : DmaAddr} {bits : Nat}

theorem alloc_live_new : r.alloc.live r.next = true :=
  update_self ..

theorem alloc_live_old (old : memory ≠ r.next) : r.alloc.live memory = r.live memory :=
  update_of_ne old ..

theorem release_live (live : r.live memory = true) :
    r.release memory = { r with live := update r.live memory false } :=
  if_pos live

theorem alloc_release (fresh : r.live r.next = false) :
    r.alloc.release r.next = { r with next := r.next + 1 } := by
  rw [release_live alloc_live_new, alloc]
  dsimp only
  rw [update_idem, ← fresh, update_eq_self]

theorem unmap_mapped (mapped : r.mapped addr = some memory) :
    r.unmap addr = { r with mapped := update r.mapped addr none } :=
  if_pos (Option.isSome_of_eq_some mapped)

theorem swap_eq {r' : DmaRes} {old : Nat} {oldAddr : DmaAddr}
    (map : r.alloc.map bits addr r.next = some r') (mapped : r.mapped oldAddr = some old)
    (live : r.live old = true) (older : old < r.next) :
    r.mapped addr = none ∧ oldAddr ≠ addr ∧ (r'.unmap oldAddr).release old =
      { r with
        next := r.next + 1
        live := update (update r.live r.next true) old false
        mapped := update (update r.mapped addr (some r.next)) oldAddr none } := by
  obtain ⟨⟨_, free⟩, rfl⟩ := Option.ite_some_none_eq_some.mp map
  have free : r.mapped addr = none := free
  have apart : oldAddr ≠ addr := by
    rintro rfl
    rw [free] at mapped
    cases mapped
  refine ⟨free, apart, ?_⟩
  have taken : update r.mapped addr (some r.next) oldAddr = some old :=
    (update_of_ne apart ..).trans mapped
  have held : r.alloc.live old = true :=
    (alloc_live_old (Nat.ne_of_lt older)).trans live
  rw [unmap_mapped taken]
  exact release_live held

theorem map_eq {r' : DmaRes} (done : r.map bits addr memory = some r') :
    addr.toNat < 2 ^ bits ∧ r.mapped addr = none ∧
      r' = { r with mapped := update r.mapped addr (some memory) } := by
  obtain ⟨⟨reach, free⟩, rfl⟩ := Option.ite_some_none_eq_some.mp done
  exact ⟨reach, free, rfl⟩

end DmaRes

end MetaFilogic.Eth
