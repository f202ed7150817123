import MetaFilogic.Library.Memory

/-!
# Scattering bytes over a memory

The first `n` elements of a source go to places given by a function, or come back from them.  When
no two of the places are the same, what has been scattered is gathered again.
-/

namespace MetaFilogic.Memory

variable {α : Type} {dst src out : Nat → α} {pos : Nat → Nat} {n i j : Nat}

/-- The element number `i` of the source goes to `pos i`. -/
def scatter (dst : Nat → α) (pos : Nat → Nat) (src : Nat → α) : (n : Nat) → Nat → α
  | 0 => dst
  | n + 1 => Function.update (scatter dst pos src n) (pos n) (src n)

/-- The element at `pos i` becomes number `i` from `start` on. -/
def gather (out : Nat → α) (start : Nat) (pos : Nat → Nat) (src : Nat → α) (n : Nat) : Nat → α :=
  fun i => if start ≤ i ∧ i < start + n then src (pos (i - start)) else out i

theorem scatter_other (apart : ∀ i < n, pos i ≠ j) : scatter dst pos src n j = dst j := by
  induction n with
  | zero => rfl
  | succ n ih =>
    rw [scatter, Function.update_of_ne (Ne.symm (apart n (Nat.lt_succ_self n)))]
    exact ih fun i below => apart i (by omega)

theorem scatter_at (distinct : ∀ i < n, ∀ j < n, pos i = pos j → i = j) (below : i < n) :
    scatter dst pos src n (pos i) = src i := by
  induction n with
  | zero => exact absurd below (Nat.not_lt_zero i)
  | succ n ih =>
    rw [scatter]
    by_cases same : pos i = pos n
    · rw [same, Function.update_self,
        distinct i below n (Nat.lt_succ_self n) same]
    · have before : i < n := Nat.lt_of_le_of_ne (Nat.le_of_lt_succ below) fun h => same (h ▸ rfl)
      rw [Function.update_of_ne same]
      exact ih (fun i' h j' h' => distinct i' (by omega) j' (by omega)) before

theorem scatter_add (left right : Nat) :
    scatter dst pos src (left + right) =
      scatter (scatter dst pos src left) (fun i => pos (left + i)) (fun i => src (left + i))
        right := by
  induction right with
  | zero => rfl
  | succ right ih =>
    rw [← Nat.add_assoc, scatter, ih]
    rfl

theorem scatter_congr {pos' : Nat → Nat} {src' : Nat → α} (places : ∀ i < n, pos i = pos' i)
    (values : ∀ i < n, src i = src' i) : scatter dst pos src n = scatter dst pos' src' n := by
  induction n with
  | zero => rfl
  | succ n ih =>
    rw [scatter, scatter, places n (Nat.lt_succ_self n), values n (Nat.lt_succ_self n),
      ih (fun i below => places i (by omega)) fun i below => values i (by omega)]

theorem copy_eq_scatter (start place : Nat) :
    copy dst place src start n = scatter dst (fun i => place + i) (fun i => src (start + i)) n := by
  have distinct : ∀ i < n, ∀ j < n, place + i = place + j → i = j :=
    fun i _ j _ same => Nat.add_left_cancel same
  ext j
  by_cases inside : place ≤ j ∧ j < place + n
  · have at_ := @scatter_at α dst (fun i => src (start + i)) (fun i => place + i) n (j - place)
      distinct (by omega)
    rw [Nat.add_sub_cancel' inside.1] at at_
    rw [copy_inside inside.1 inside.2, at_]
  · rw [copy_outside (by omega), scatter_other fun i below => by omega]

theorem gather_scatter (distinct : ∀ i < n, ∀ j < n, pos i = pos j → i = j) (below : i < n) :
    gather out 0 pos (scatter dst pos src n) n i = src i := by
  unfold gather
  rw [if_pos ⟨Nat.zero_le i, by omega⟩]
  exact scatter_at distinct below

theorem gather_zero (start : Nat) : gather out start pos src 0 = out := by
  ext i
  exact if_neg (by omega)

theorem gather_add (start left right : Nat) :
    gather out start pos src (left + right) =
      gather (gather out start pos src left) (start + left) (fun i => pos (left + i)) src
        right := by
  ext i
  unfold gather
  by_cases later : start + left ≤ i ∧ i < start + left + right
  · have rest : left + (i - (start + left)) = i - start := by omega
    rw [if_pos (by omega), if_pos later]
    exact congrArg (fun k => src (pos k)) rest.symm
  · rw [if_neg later]
    by_cases first : start ≤ i ∧ i < start + left
    · rw [if_pos (by omega), if_pos first]
    · rw [if_neg (by omega), if_neg first]

theorem copy_eq_gather (start place : Nat) :
    copy out start src place n = gather out start (fun i => place + i) src n :=
  rfl

theorem gather_congr {start : Nat} {pos' : Nat → Nat} (places : ∀ i < n, pos i = pos' i) :
    gather out start pos src n = gather out start pos' src n := by
  ext i
  unfold gather
  by_cases inside : start ≤ i ∧ i < start + n
  · rw [if_pos inside, if_pos inside, places (i - start) (by omega)]
  · rw [if_neg inside, if_neg inside]

end MetaFilogic.Memory
