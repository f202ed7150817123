import Mathlib.Data.List.Basic
import Mathlib.Logic.Function.Basic

/-!
# Texts in a buffer of C

A buffer has bytes up to a last one, and an access beyond it is a fault.  A text in a buffer ends
with the byte 0; the loops over it stay within the buffer as long as there is one.
-/

namespace MetaFilogic.CBuffer

/-- Why a run over buffers stops: it goes outside of a buffer or of a table, or never ends. -/
inductive Fault where
  | outside
  | full
  | endless
  deriving DecidableEq

structure Buffer where
  byte : Nat → Char
  last : Nat

namespace Buffer

variable (b : Buffer)

def load (i : Nat) : Except Fault Char := if i ≤ b.last then .ok (b.byte i) else .error .outside

def store (i : Nat) (c : Char) : Except Fault Buffer :=
  if i ≤ b.last then .ok { b with byte := Function.update b.byte i c } else .error .outside

def find (stop : Char → Bool) : Nat → Nat → Except Fault (Option Nat)
  | 0, _ => .error .endless
  | fuel + 1, i => do
    let c ← b.load i
    if c = '\x00' then return none
    else if stop c then return some i
    else find stop fuel (i + 1)

def skip (p : Char → Bool) : Nat → Nat → Except Fault Nat
  | 0, _ => .error .endless
  | fuel + 1, i => do
    let c ← b.load i
    if p c then skip p fuel (i + 1) else return i

def findNull : Nat → Nat → Except Fault (Option Nat)
  | 0, _ => .ok none
  | len + 1, i => do
    let c ← b.load i
    if c = '\x00' then return some i else findNull len (i + 1)

def string (i : Nat) : List Char :=
  ((List.range (b.last + 1 - i)).map fun d => b.byte (i + d)).takeWhile (· ≠ '\x00')

def Shows (b : Buffer) : Nat → List Char → Prop
  | _, [] => True
  | i, c :: text => b.byte i = c ∧ Shows b (i + 1) text

structure Stands (i : Nat) (text : List Char) : Prop where
  shows_ : b.Shows i text
  ends : b.byte (i + text.length) = '\x00'
  clean : '\x00' ∉ text
  inside : i + text.length ≤ b.last

variable {b} {b' : Buffer} {i j : Nat} {c : Char} {text text' : List Char} {stop p : Char → Bool}

theorem load_eq (inside : i ≤ b.last) : b.load i = .ok (b.byte i) := if_pos inside

theorem store_eq (inside : i ≤ b.last) :
    b.store i c = .ok { b with byte := Function.update b.byte i c } := if_pos inside

theorem shows_append : b.Shows i (text ++ text') ↔
    b.Shows i text ∧ b.Shows (i + text.length) text' := by
  induction text generalizing i with
  | nil => simp [Shows]
  | cons c text ih =>
    rw [List.cons_append, Shows, Shows, ih, List.length_cons, and_assoc,
      show i + 1 + text.length = i + (text.length + 1) by omega]

theorem Shows.congr (shows_ : b.Shows i text)
    (same : ∀ j, i ≤ j → j < i + text.length → b'.byte j = b.byte j) : b'.Shows i text := by
  induction text generalizing i with
  | nil => trivial
  | cons c text ih =>
    rw [List.length_cons] at same
    refine ⟨(same i (Nat.le_refl i) (by omega)).trans shows_.1, ih shows_.2 fun j low high => ?_⟩
    exact same j (by omega) (by omega)

theorem Stands.congr (stands : b.Stands i text) (last : b'.last = b.last)
    (same : ∀ j, i ≤ j → j ≤ i + text.length → b'.byte j = b.byte j) : b'.Stands i text :=
  ⟨stands.shows_.congr fun j low high => same j low (Nat.le_of_lt high),
    (same _ (Nat.le_add_right ..) (Nat.le_refl _)).trans stands.ends, stands.clean,
    last ▸ stands.inside⟩

theorem map_byte_eq (shows_ : b.Shows i text) :
    (List.range text.length).map (fun d => b.byte (i + d)) = text := by
  induction text generalizing i with
  | nil => rfl
  | cons c text ih =>
    rw [List.length_cons, List.range_succ_eq_map, List.map_cons, List.map_map, Nat.add_zero,
      shows_.1]
    congr 1
    refine (List.map_congr_left fun d _ => ?_).trans (ih shows_.2)
    rw [Function.comp_apply, Nat.succ_eq_add_one, Nat.add_right_comm, Nat.add_assoc]

theorem Stands.string_eq (stands : b.Stands i text) : b.string i = text := by
  have inside := stands.inside
  have parts : List.range (b.last + 1 - i) = List.range text.length ++
      (List.range (b.last + 1 - i - text.length)).map (text.length + ·) := by
    rw [← List.range_add]
    congr 1
    omega
  obtain ⟨more, rest⟩ : ∃ more, b.last + 1 - i - text.length = more + 1 :=
    ⟨b.last - i - text.length, by omega⟩
  rw [string, parts, List.map_append, map_byte_eq stands.shows_, rest, List.range_succ_eq_map]
  simp only [List.map_cons, Nat.add_zero, stands.ends]
  rw [List.takeWhile_append_of_pos, List.takeWhile_cons_of_neg (by simp), List.append_nil]
  intro c member
  have : c ≠ '\x00' := fun same => stands.clean (same ▸ member)
  simpa using this

/-! ## The loops -/

variable {fuel : Nat}

theorem find_some (shows_ : b.Shows i text) (clean : '\x00' ∉ text)
    (quiet : ∀ c ∈ text, stop c = false) (notNull : b.byte (i + text.length) ≠ '\x00')
    (stops : stop (b.byte (i + text.length)) = true) (inside : i + text.length ≤ b.last)
    (enough : text.length < fuel) : b.find stop fuel i = .ok (some (i + text.length)) := by
  induction text generalizing i fuel with
  | nil =>
    obtain ⟨fuel, rfl⟩ := Nat.exists_eq_succ_of_ne_zero (Nat.ne_of_gt enough)
    rw [List.length_nil, Nat.add_zero] at notNull stops inside ⊢
    rw [find, load_eq inside]
    exact (if_neg notNull).trans (if_pos stops)
  | cons c text ih =>
    obtain ⟨fuel, rfl⟩ := Nat.exists_eq_succ_of_ne_zero (Nat.ne_of_gt (Nat.zero_lt_of_lt enough))
    rw [List.length_cons, ← Nat.add_assoc, Nat.add_right_comm] at notNull stops inside ⊢
    rw [List.length_cons] at enough
    have first : c ≠ '\x00' := fun same => clean (same ▸ List.mem_cons_self)
    rw [find, load_eq (by omega), shows_.1]
    refine (if_neg first).trans ((if_neg ?_).trans ?_)
    · rw [quiet c List.mem_cons_self]
      exact Bool.false_ne_true
    · exact ih shows_.2 (fun member => clean (List.mem_cons_of_mem _ member))
        (fun c member => quiet c (List.mem_cons_of_mem _ member)) notNull stops inside (by omega)

theorem find_none (stands : b.Stands i text) (quiet : ∀ c ∈ text, stop c = false)
    (enough : text.length < fuel) : b.find stop fuel i = .ok none := by
  induction text generalizing i fuel with
  | nil =>
    obtain ⟨fuel, rfl⟩ := Nat.exists_eq_succ_of_ne_zero (Nat.ne_of_gt enough)
    have ends := stands.ends
    have inside := stands.inside
    rw [List.length_nil, Nat.add_zero] at ends inside
    rw [find, load_eq inside]
    exact if_pos ends
  | cons c text ih =>
    obtain ⟨fuel, rfl⟩ := Nat.exists_eq_succ_of_ne_zero (Nat.ne_of_gt (Nat.zero_lt_of_lt enough))
    obtain ⟨shows_, ends, clean, inside⟩ := stands
    rw [List.length_cons, ← Nat.add_assoc, Nat.add_right_comm] at ends inside
    rw [List.length_cons] at enough
    have first : c ≠ '\x00' := fun same => clean (same ▸ List.mem_cons_self)
    rw [find, load_eq (by omega), shows_.1]
    refine (if_neg first).trans ((if_neg ?_).trans ?_)
    · rw [quiet c List.mem_cons_self]
      exact Bool.false_ne_true
    · exact ih ⟨shows_.2, ends, fun member => clean (List.mem_cons_of_mem _ member), inside⟩
        (fun c member => quiet c (List.mem_cons_of_mem _ member)) (by omega)

theorem skip_eq (shows_ : b.Shows i text) (all : ∀ c ∈ text, p c = true)
    (stops : p (b.byte (i + text.length)) = false) (inside : i + text.length ≤ b.last)
    (enough : text.length < fuel) : b.skip p fuel i = .ok (i + text.length) := by
  induction text generalizing i fuel with
  | nil =>
    obtain ⟨fuel, rfl⟩ := Nat.exists_eq_succ_of_ne_zero (Nat.ne_of_gt enough)
    rw [List.length_nil, Nat.add_zero] at stops inside ⊢
    rw [skip, load_eq inside]
    exact if_neg (by simp [stops])
  | cons c text ih =>
    obtain ⟨fuel, rfl⟩ := Nat.exists_eq_succ_of_ne_zero (Nat.ne_of_gt (Nat.zero_lt_of_lt enough))
    rw [List.length_cons, ← Nat.add_assoc, Nat.add_right_comm] at stops inside ⊢
    rw [List.length_cons] at enough
    rw [skip, load_eq (by omega), shows_.1]
    refine (if_pos (all c List.mem_cons_self)).trans ?_
    exact ih shows_.2 (fun c member => all c (List.mem_cons_of_mem _ member)) stops inside
      (by omega)

theorem findNull_eq (len : Nat) (stands : b.Stands i text) (within : i + len ≤ b.last + 1) :
    b.findNull len i = .ok (if text.length < len then some (i + text.length) else none) := by
  induction text generalizing i len with
  | nil =>
    have ends := stands.ends
    have inside := stands.inside
    rw [List.length_nil, Nat.add_zero] at ends inside ⊢
    cases len with
    | zero => rfl
    | succ len =>
      rw [findNull, load_eq inside, if_pos (Nat.succ_pos len)]
      exact if_pos ends
  | cons c text ih =>
    obtain ⟨shows_, ends, clean, inside⟩ := stands
    rw [List.length_cons, ← Nat.add_assoc, Nat.add_right_comm] at ends inside ⊢
    cases len with
    | zero => rfl
    | succ len =>
      have first : c ≠ '\x00' := fun same => clean (same ▸ List.mem_cons_self)
      rw [findNull, load_eq (by omega), shows_.1]
      refine (if_neg first).trans ((ih len ⟨shows_.2, ends,
        fun member => clean (List.mem_cons_of_mem _ member), inside⟩ (by omega)).trans ?_)
      simp only [Nat.add_lt_add_iff_right]

end Buffer

end MetaFilogic.CBuffer
