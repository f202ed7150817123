import Mathlib.Data.List.Basic

/-!
# JSON

Values without objects, how they are printed, and a reader that gives back what has been printed.
-/

namespace MetaFilogic.Json

def isPlain (c : Char) : Bool := c ≠ '"' && c ≠ '\\' && ' ' ≤ c

structure PlainString where
  chars : List Char
  plain : chars.all isPlain = true

inductive Value where
  | num (n : Int)
  | str (s : PlainString)
  | arr (items : List Value)

def intText (n : Int) : List Char :=
  if n < 0 then '-' :: Nat.toDigits 10 n.natAbs else Nat.toDigits 10 n.natAbs

mutual

def Value.text : Value → List Char
  | .num n => intText n
  | .str s => '"' :: (s.chars ++ ['"'])
  | .arr [] => ['[', ']']
  | .arr (item :: items) => '[' :: (item.text ++ tailText items)

def tailText : List Value → List Char
  | [] => [']']
  | item :: items => ',' :: (item.text ++ tailText items)

end

/-! ## Reading -/

def natural (s : List Char) : Option (Nat × List Char) :=
  let digits := s.takeWhile Char.isDigit
  let n := Nat.ofDigitChars 10 digits 0
  if Nat.toDigits 10 n = digits then some (n, s.drop digits.length) else none

def string (s : List Char) : Option (PlainString × List Char) :=
  match s.drop (s.takeWhile isPlain).length with
  | '"' :: rest => some (⟨s.takeWhile isPlain, List.all_takeWhile⟩, rest)
  | _ => none

mutual

def value : Nat → List Char → Option (Value × List Char)
  | 0, _ => none
  | fuel + 1, s =>
    match s with
    | '[' :: ']' :: rest => some (.arr [], rest)
    | '[' :: rest => do
      let (item, rest) ← value fuel rest
      let (items, rest) ← tail fuel rest
      return (.arr (item :: items), rest)
    | '"' :: rest => (string rest).map fun (s, rest) => (.str s, rest)
    | '-' :: rest => (natural rest).map fun (n, rest) => (.num (-n), rest)
    | s => (natural s).map fun (n, rest) => (.num n, rest)

def tail : Nat → List Char → Option (List Value × List Char)
  | 0, _ => none
  | fuel + 1, s =>
    match s with
    | ']' :: rest => some ([], rest)
    | ',' :: rest => do
      let (item, rest) ← value fuel rest
      let (items, rest) ← tail fuel rest
      return (item :: items, rest)
    | _ => none

end

def parse (s : List Char) : Option Value :=
  match value (s.length + 1) s with
  | some (v, []) => some v
  | _ => none

/-! ## The round trip -/

def Ends (rest : List Char) : Prop := ∀ c s, rest = c :: s → c.isDigit = false

theorem takeWhile_append_of_ends {p : Char → Bool} {l rest : List Char} (all : l.all p = true)
    (ends : ∀ c s, rest = c :: s → p c = false) : (l ++ rest).takeWhile p = l := by
  rw [List.takeWhile_append_of_pos (List.all_eq_true.1 all)]
  cases rest with
  | nil => exact List.append_nil l
  | cons c s => rw [List.takeWhile_cons_of_neg (by simp [ends c s rfl]), List.append_nil]

theorem natural_toDigits (n : Nat) {rest : List Char} (ends : Ends rest) :
    natural (Nat.toDigits 10 n ++ rest) = some (n, rest) := by
  have digits : (Nat.toDigits 10 n).all Char.isDigit = true :=
    List.all_eq_true.2 fun c inDigits =>
      Nat.isDigit_of_mem_toDigits (by decide) (by decide) inDigits
  rw [natural, takeWhile_append_of_ends digits ends]
  rw [Nat.ofDigitChars_ten_toDigits, if_pos rfl, List.drop_left]

theorem string_chars (s : PlainString) (rest : List Char) :
    string (s.chars ++ '"' :: rest) = some (s, rest) := by
  have scanned : (s.chars ++ '"' :: rest).takeWhile isPlain = s.chars :=
    takeWhile_append_of_ends s.plain fun c t same => by
      obtain ⟨rfl, -⟩ := List.cons.inj same
      decide
  simp only [string, scanned, List.drop_left]

theorem toDigits_cons (n : Nat) : ∃ d ds, Nat.toDigits 10 n = d :: ds ∧ d.isDigit = true := by
  cases digits : Nat.toDigits 10 n with
  | nil => exact absurd digits Nat.toDigits_ne_nil
  | cons d ds =>
    have inDigits : d ∈ Nat.toDigits 10 n := digits ▸ List.mem_cons_self
    exact ⟨d, ds, rfl, Nat.isDigit_of_mem_toDigits (by decide) (by decide) inDigits⟩

theorem ends_tailText (items : List Value) (rest : List Char) : Ends (tailText items ++ rest) := by
  cases items <;> rintro c s ⟨⟩ <;> rfl

theorem text_cons (v : Value) : ∃ c s, v.text = c :: s ∧ c ≠ ']' := by
  cases v with
  | num n =>
    rw [Value.text, intText]
    obtain ⟨d, ds, digits, isDigit⟩ := toDigits_cons n.natAbs
    split
    · exact ⟨_, _, rfl, by decide⟩
    · refine ⟨d, ds, digits, ?_⟩
      rintro rfl
      exact absurd isDigit (by decide)
  | str s => exact ⟨_, _, rfl, by decide⟩
  | arr items => cases items <;> exact ⟨_, _, rfl, by decide⟩

theorem value_natural {d : Char} {ds : List Char} (isDigit : d.isDigit = true) (fuel : Nat) :
    value (fuel + 1) (d :: ds) = (natural (d :: ds)).map fun (n, rest) => (.num n, rest) := by
  have other : d ≠ '[' ∧ d ≠ '"' ∧ d ≠ '-' := by
    refine ⟨?_, ?_, ?_⟩ <;> rintro rfl <;> exact absurd isDigit (by decide)
  rw [value]
  all_goals
    intros
    simp_all

mutual

theorem value_text : ∀ (v : Value) (fuel : Nat) (rest : List Char), v.text.length ≤ fuel →
    Ends rest → value (fuel + 1) (v.text ++ rest) = some (v, rest)
  | .num n, fuel, rest, _, ends => by
    rw [Value.text, intText]
    split
    · rename_i negative
      have same : -((n.natAbs : Nat) : Int) = n := by omega
      rw [List.cons_append, value, natural_toDigits _ ends, Option.map_some]
      simp only [same]
    · rename_i nonneg
      have back := natural_toDigits n.natAbs ends
      obtain ⟨d, ds, digits, isDigit⟩ := toDigits_cons n.natAbs
      rw [digits, List.cons_append] at back ⊢
      have same : ((n.natAbs : Nat) : Int) = n := by omega
      rw [value_natural isDigit, back, Option.map_some]
      simp only [same]
  | .str s, _, rest, _, _ => by
    rw [Value.text, List.cons_append, value, List.append_assoc, List.singleton_append, string_chars,
      Option.map_some]
  | .arr [], _, rest, _, _ => by
    rw [Value.text, List.cons_append, List.cons_append, value, List.nil_append]
  | .arr (item :: items), 0, rest, enough, _ => by simp [Value.text] at enough
  | .arr (item :: items), fuel + 1, rest, enough, ends => by
    rw [Value.text, List.length_cons, List.length_append] at enough
    have first := value_text item fuel (tailText items ++ rest) (by omega)
      (ends_tailText items rest)
    have others := tail_tailText items fuel rest (by omega)
    obtain ⟨c, s, same, other⟩ := text_cons item
    rw [Value.text, List.cons_append, List.append_assoc, same, List.cons_append, value]
    · rw [← List.cons_append, ← same, first]
      simp only [Option.bind_eq_bind, Option.bind_some, others]
      rfl
    · intro rest close
      exact other (List.cons.inj close).1

theorem tail_tailText : ∀ (items : List Value) (fuel : Nat) (rest : List Char),
    (tailText items).length ≤ fuel → tail (fuel + 1) (tailText items ++ rest) = some (items, rest)
  | [], fuel, rest, _ => rfl
  | item :: items, 0, rest, enough => by simp [tailText] at enough
  | item :: items, fuel + 1, rest, enough => by
    rw [tailText, List.length_cons, List.length_append] at enough
    have first := value_text item fuel (tailText items ++ rest) (by omega)
      (ends_tailText items rest)
    have others := tail_tailText items fuel rest (by omega)
    rw [tailText, List.cons_append, List.append_assoc, tail, first]
    simp only [Option.bind_eq_bind, Option.bind_some, others]
    rfl

end

theorem parse_text (v : Value) : parse v.text = some v := by
  have whole := value_text v v.text.length [] (Nat.le_refl _) (by rintro c s ⟨⟩)
  rw [List.append_nil] at whole
  rw [parse, whole]

end MetaFilogic.Json
