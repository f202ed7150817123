import Mathlib.Data.BitVec

/-!
# Numbers in texts

The number at the beginning of a text as `strtoul` of the C library finds it, with an
`unsigned long` of 64 bits, and the value of a text that is a number as a whole.
-/

namespace MetaFilogic.Numerals

def isSpace (c : Char) : Bool := c = ' ' ∨ '\t' ≤ c ∧ c ≤ '\r'

def digitValue (c : Char) : Nat :=
  if '0' ≤ c ∧ c ≤ '9' then c.toNat - '0'.toNat
  else if 'a' ≤ c ∧ c ≤ 'z' then c.toNat - 'a'.toNat + 10
  else if 'A' ≤ c ∧ c ≤ 'Z' then c.toNat - 'A'.toNat + 10
  else 36

def sign : List Char → Bool × List Char
  | '-' :: rest => (true, rest)
  | '+' :: rest => (false, rest)
  | rest => (false, rest)

def numberBase (base : Nat) : List Char → Nat × List Char
  | '0' :: x :: digit :: rest =>
    if (x = 'x' ∨ x = 'X') ∧ (base = 0 ∨ base = 16) ∧ digitValue digit < 16 then
      (16, digit :: rest)
    else (if base = 0 then 8 else base, '0' :: x :: digit :: rest)
  | '0' :: rest => (if base = 0 then 8 else base, '0' :: rest)
  | rest => (if base = 0 then 10 else base, rest)

structure Scanned where
  negative : Bool
  magnitude : Nat
  rest : List Char

def Scanned.value (n : Scanned) : Int := if n.negative then -n.magnitude else n.magnitude

def scan (base : Nat) (s : List Char) : Option Scanned :=
  let (negative, s) := sign (s.dropWhile isSpace)
  let (base, s) := numberBase base s
  let digits := s.takeWhile fun c => digitValue c < base
  if digits = [] then none
  else
    some ⟨negative, digits.foldl (fun value c => value * base + digitValue c) 0,
      s.drop digits.length⟩

/-- What `strtoul` returns, the text at `endptr`, and whether it sets `errno`. -/
structure Converted where
  value : BitVec 64
  rest : List Char
  failed : Bool

/-- `strtoul(s, &endptr, base)`; the library may set `EINVAL` when there is no number. -/
def strtoul (einval : Bool) (base : Nat) (s : List Char) : Converted :=
  match scan base s with
  | none => ⟨0#64, s, einval⟩
  | some n =>
    if 2 ^ 64 ≤ n.magnitude then ⟨BitVec.allOnes 64, n.rest, true⟩
    else ⟨BitVec.ofInt 64 n.value, n.rest, false⟩

def numeral (base : Nat) (s : List Char) : Option Int :=
  match scan base s with
  | none => none
  | some n => if n.rest = [] then some n.value else none

theorem Scanned.natAbs_value (n : Scanned) : n.value.natAbs = n.magnitude := by
  rw [Scanned.value]
  split
  · rw [Int.natAbs_neg, Int.natAbs_natCast]
  · rw [Int.natAbs_natCast]

theorem scan_nil (base : Nat) : scan base [] = none := by
  simp [scan, sign, numberBase]

section Conversion

variable {einval : Bool} {base : Nat} {s : List Char}

theorem strtoul_numeral {v : Int} (known : numeral base s = some v) (fits : v.natAbs < 2 ^ 64) :
    strtoul einval base s = ⟨BitVec.ofInt 64 v, [], false⟩ := by
  rw [numeral] at known
  rw [strtoul]
  cases found : scan base s with
  | none => simp [found] at known
  | some n =>
    rw [found] at known
    dsimp only at known ⊢
    split at known
    · rename_i whole
      obtain rfl := Option.some_inj.1 known
      rw [n.natAbs_value] at fits
      rw [if_neg (Nat.not_le.2 fits), whole]
    · exact nomatch known

/-- A text that is taken to its end is a number in range, or empty where the library lets it
pass. -/
theorem strtoul_whole (sound : (strtoul einval base s).failed = false)
    (whole : (strtoul einval base s).rest = []) :
    (∃ v, numeral base s = some v ∧ v.natAbs < 2 ^ 64) ∨ s = [] ∧ einval = false := by
  rw [strtoul] at sound whole
  rw [numeral]
  cases found : scan base s with
  | none =>
    rw [found] at sound whole
    exact .inr ⟨whole, sound⟩
  | some n =>
    rw [found] at sound whole
    dsimp only at sound whole ⊢
    split at sound
    · exact nomatch sound
    · rename_i fits
      rw [if_neg fits] at whole
      exact .inl ⟨n.value, if_pos whole, by rw [n.natAbs_value]; exact Nat.not_le.1 fits⟩

theorem strtoul_nil (einval : Bool) (base : Nat) : strtoul einval base [] = ⟨0#64, [], einval⟩ := by
  rw [strtoul, scan_nil]

end Conversion

end MetaFilogic.Numerals
