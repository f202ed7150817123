import Mathlib.Data.List.TakeWhile
import Mathlib.Algebra.Ring.Nat

/-!
# Words with quoted spaces

A line is cut into words at its spaces.  A space between quotes belongs to its word, and a quote
in front of a word does not.  A line is cut into given words exactly when it is a way of writing
them.
-/

namespace MetaFilogic.Quoted

universe u

variable {α : Type u}

def weight (ws : List (List α)) : Nat :=
  (ws.map fun word => word.length + 1).sum

@[simp] theorem weight_nil : weight ([] : List (List α)) = 0 :=
  rfl

@[simp] theorem weight_cons (word : List α) (ws : List (List α)) :
    weight (word :: ws) = word.length + 1 + weight ws :=
  rfl

@[simp] theorem weight_append (ws vs : List (List α)) :
    weight (ws ++ vs) = weight ws + weight vs := by
  simp [weight]

variable {s rest text : List α} {c : α} {quoted : Bool}

theorem not_of_dropWhile_eq_cons {p : α → Bool} (front : s.dropWhile p = c :: rest) :
    p c = false := by
  have kept := List.head_dropWhile_not p (l := s) (by simp [front])
  simpa [front] using kept

def Plain (space : α → Bool) (quote : α) (text : List α) : Prop :=
  ∃ c rest, text = c :: rest ∧ space c = false ∧ c ≠ quote

theorem Plain.append {space : α → Bool} {quote : α} (plain : Plain space quote text)
    (rest : List α) :
    Plain space quote (text ++ rest) := by
  obtain ⟨c, tail, rfl, begins⟩ := plain
  exact ⟨c, tail ++ rest, rfl, begins⟩

variable [DecidableEq α] (space : α → Bool) (quote : α)

def turn (quoted : Bool) (c : α) : Bool :=
  if c = quote then !quoted else quoted

def quotedAfter (quoted : Bool) : List α → Bool
  | [] => quoted
  | c :: rest => quotedAfter (turn quote quoted c) rest

def scan (quoted : Bool) : List α → List α
  | [] => []
  | c :: rest =>
    if space c && !quoted then [] else c :: scan (turn quote quoted c) rest

def Whole (quoted : Bool) (text : List α) : Prop :=
  scan space quote quoted text = text

instance (quoted : Bool) (text : List α) : Decidable (Whole space quote quoted text) :=
  inferInstanceAs (Decidable (scan space quote quoted text = text))

instance (text : List α) : Decidable (Plain space quote text) :=
  match text with
  | [] => isFalse fun ⟨_, _, same, _⟩ => absurd same (List.cons_ne_nil _ _).symm
  | c :: rest =>
    decidable_of_iff (space c = false ∧ c ≠ quote)
      ⟨fun begins => ⟨c, rest, rfl, begins⟩, fun ⟨_, _, same, begins⟩ =>
        (List.cons.inj same).1 ▸ begins⟩

variable {space quote}

@[simp] theorem scan_nil (quoted : Bool) : scan space quote quoted [] = [] :=
  rfl

@[simp] theorem whole_nil (quoted : Bool) : Whole space quote quoted [] :=
  rfl

theorem whole_cons :
    Whole space quote quoted (c :: rest) ↔
      ¬(space c = true ∧ quoted = false) ∧ Whole space quote (turn quote quoted c) rest := by
  unfold Whole
  rw [scan]
  by_cases stop : space c = true ∧ quoted = false
  · simp [stop]
  · have goes : (space c && !quoted) = false := by
      simpa using stop
    rw [goes, if_neg Bool.false_ne_true, List.cons.injEq]
    exact ⟨fun same => ⟨stop, same.2⟩, fun same => ⟨rfl, same.2⟩⟩

@[simp] theorem scan_eq_nil :
    scan space quote quoted s = [] ↔
      s = [] ∨ quoted = false ∧ ∃ c rest, s = c :: rest ∧ space c = true := by
  cases s with
  | nil => simp
  | cons c rest =>
    rw [scan]
    by_cases stop : space c = true ∧ quoted = false
    · simp [stop]
    · have goes : (space c && !quoted) = false := by
        simpa using stop
      rw [goes]
      simp only [Bool.false_eq_true, if_false, reduceCtorEq, false_or, false_iff]
      rintro ⟨outside, _, _, same, isSpace⟩
      exact stop ⟨(List.cons.inj same).1 ▸ isSpace, outside⟩

/-- Scanning a text returns a part of it exactly when the part has no end of a word in it, and
the word ends behind it. -/
theorem scan_append_eq :
    scan space quote quoted (text ++ rest) = text ↔
      Whole space quote quoted text ∧
        scan space quote (quotedAfter quote quoted text) rest = [] := by
  induction text generalizing quoted with
  | nil => simp [quotedAfter]
  | cons c text ih =>
    rw [whole_cons, List.cons_append, scan, quotedAfter]
    by_cases stop : space c = true ∧ quoted = false
    · simp [stop]
    · have goes : (space c && !quoted) = false := by
        simpa using stop
      rw [goes, if_neg Bool.false_ne_true, List.cons.injEq, ih]
      exact ⟨fun both => ⟨⟨stop, both.2.1⟩, both.2.2⟩, fun both => ⟨rfl, both.1.2, both.2⟩⟩

theorem scan_append_of_whole (rest : List α) (whole : Whole space quote quoted text) :
    scan space quote quoted (text ++ rest) =
      text ++ scan space quote (quotedAfter quote quoted text) rest := by
  induction text generalizing quoted with
  | nil => rfl
  | cons c text ih =>
    obtain ⟨goes, whole⟩ := whole_cons.mp whole
    have goes : (space c && !quoted) = false := by
      simpa using goes
    rw [List.cons_append, scan, goes, if_neg Bool.false_ne_true, ih whole, quotedAfter,
      List.cons_append]

variable (space quote) in
theorem scan_append_drop (quoted : Bool) (s : List α) :
    scan space quote quoted s ++ s.drop (scan space quote quoted s).length = s := by
  induction s generalizing quoted with
  | nil => rfl
  | cons c rest ih =>
    rw [scan]
    split
    · rfl
    · simpa using ih _

variable (space quote) in
theorem scan_spec (quoted : Bool) (s : List α) :
    Whole space quote quoted (scan space quote quoted s) ∧
      scan space quote (quotedAfter quote quoted (scan space quote quoted s))
        (s.drop (scan space quote quoted s).length) = [] :=
  scan_append_eq.mp (congrArg _ (scan_append_drop space quote quoted s))

theorem quotedAfter_append (quoted : Bool) (s t : List α) :
    quotedAfter quote quoted (s ++ t) = quotedAfter quote (quotedAfter quote quoted s) t := by
  induction s generalizing quoted with
  | nil => rfl
  | cons c s ih => exact ih _

theorem whole_append {t : List α} :
    Whole space quote quoted (s ++ t) ↔
      Whole space quote quoted s ∧ Whole space quote (quotedAfter quote quoted s) t := by
  induction s generalizing quoted with
  | nil => simp [quotedAfter]
  | cons c s ih =>
    rw [List.cons_append, whole_cons, whole_cons, ih, quotedAfter, and_assoc]

inductive Writes (space : α → Bool) (quote : α) : List (List α) → List α → Prop
  | nil {gap : List α} (spaces : ∀ c ∈ gap, space c = true) : Writes space quote [] gap
  /-- The word is written as it is. -/
  | plain {gap word rest : List α} {words : List (List α)}
      (spaces : ∀ c ∈ gap, space c = true) (begins : Plain space quote word)
      (whole : Whole space quote false word)
      (ends : scan space quote (quotedAfter quote false word) rest = [])
      (more : Writes space quote words rest) :
      Writes space quote (word :: words) (gap ++ (word ++ rest))
  /-- There is a quote in front of the word. -/
  | quoted {gap word rest : List α} {words : List (List α)}
      (spaces : ∀ c ∈ gap, space c = true)
      (whole : Whole space quote true word)
      (ends : scan space quote (quotedAfter quote true word) rest = [])
      (more : Writes space quote words rest) :
      Writes space quote (word :: words) (gap ++ quote :: (word ++ rest))

variable (space quote) in
def words (s : List α) : List (List α) :=
  match h : s.dropWhile space with
  | [] => []
  | c :: rest =>
    have shorter : rest.length < s.length := by
      have bound := (List.dropWhile_suffix (l := s) space).length_le
      rw [h] at bound
      exact bound
    if c = quote then
      scan space quote true rest :: words (rest.drop (scan space quote true rest).length)
    else
      (c :: scan space quote false rest) ::
        words (rest.drop (scan space quote false rest).length)
termination_by s.length
decreasing_by all_goals (simp only [List.length_drop]; omega)

theorem words_of_nil (spaces : s.dropWhile space = []) : words space quote s = [] := by
  rw [words]
  split
  · rfl
  · next c rest same => exact absurd (spaces ▸ same) (List.cons_ne_nil c rest).symm

theorem words_of_quote (begins : s.dropWhile space = quote :: rest) :
    words space quote s =
      scan space quote true rest ::
        words space quote (rest.drop (scan space quote true rest).length) := by
  rw [words]
  split
  · next same => exact absurd (same ▸ begins) (List.cons_ne_nil quote rest).symm
  · next c rest' same =>
      obtain ⟨rfl, rfl⟩ := List.cons.inj (same.symm.trans begins)
      rw [if_pos rfl]

theorem words_of_plain (begins : s.dropWhile space = c :: rest) (plain : c ≠ quote) :
    words space quote s =
      (c :: scan space quote false rest) ::
        words space quote (rest.drop (scan space quote false rest).length) := by
  rw [words]
  split
  · next same => exact absurd (same ▸ begins) (List.cons_ne_nil c rest).symm
  · next c' rest' same =>
      obtain ⟨rfl, rfl⟩ := List.cons.inj (same.symm.trans begins)
      rw [if_neg plain]

theorem scan_of_plain (isChar : space c = false) (plain : c ≠ quote) :
    scan space quote false (c :: rest) = c :: scan space quote false rest := by
  simp [scan, turn, isChar, plain]

variable (space quote) in
theorem writes_words (s : List α) : Writes space quote (words space quote s) s := by
  have parts : s.takeWhile space ++ s.dropWhile space = s := List.takeWhile_append_dropWhile
  have spaces : ∀ c ∈ s.takeWhile space, space c = true := fun c member =>
    List.mem_takeWhile_imp member
  cases front : s.dropWhile space with
  | nil =>
    rw [words_of_nil front]
    exact .nil (List.dropWhile_eq_nil_iff.mp front)
  | cons c rest =>
    have shorter : rest.length < s.length := by
      have bound := (List.dropWhile_suffix (l := s) space).length_le
      rw [front] at bound
      exact bound
    by_cases isQuote : c = quote
    · have scanned := scan_spec space quote true rest
      have more := writes_words (rest.drop (scan space quote true rest).length)
      have opened : s.dropWhile space = quote :: rest := isQuote ▸ front
      rw [words_of_quote opened]
      have line := Writes.quoted spaces scanned.1 scanned.2 more
      rwa [scan_append_drop, ← opened, parts] at line
    · have isChar : space c = false := not_of_dropWhile_eq_cons front
      have scanned := scan_spec space quote false (c :: rest)
      rw [scan_of_plain isChar isQuote, List.length_cons, List.drop_succ_cons] at scanned
      have more := writes_words (rest.drop (scan space quote false rest).length)
      rw [words_of_plain front isQuote]
      have line := Writes.plain spaces ⟨c, _, rfl, isChar, isQuote⟩ scanned.1 scanned.2 more
      rwa [List.cons_append, scan_append_drop, ← front, parts] at line
termination_by s.length
decreasing_by all_goals (simp only [List.length_drop]; omega)

theorem words_cons_space (isSpace : space c = true) (s : List α) :
    words space quote (c :: s) = words space quote s := by
  have front : (c :: s).dropWhile space = s.dropWhile space := by
    simp [isSpace]
  cases begins : s.dropWhile space with
  | nil => rw [words_of_nil begins, words_of_nil (front.trans begins)]
  | cons first rest =>
    by_cases isQuote : first = quote
    · subst isQuote
      rw [words_of_quote begins, words_of_quote (front.trans begins)]
    · rw [words_of_plain begins isQuote, words_of_plain (front.trans begins) isQuote]

theorem words_front_quote (noSpace : space quote = false) {gap : List α}
    (spaces : ∀ c ∈ gap, space c = true) (rest : List α) :
    words space quote (gap ++ quote :: rest) =
      scan space quote true rest ::
        words space quote (rest.drop (scan space quote true rest).length) := by
  refine words_of_quote ?_
  rw [List.dropWhile_append_of_pos spaces]
  simp [noSpace]

theorem words_front_plain {gap line : List α} (spaces : ∀ c ∈ gap, space c = true)
    (plain : Plain space quote line) :
    words space quote (gap ++ line) =
      scan space quote false line ::
        words space quote (line.drop (scan space quote false line).length) := by
  obtain ⟨c, rest, rfl, isChar, notQuote⟩ := plain
  have front : (gap ++ c :: rest).dropWhile space = c :: rest := by
    rw [List.dropWhile_append_of_pos spaces]
    simp [isChar]
  rw [words_of_plain front notQuote, scan_of_plain isChar notQuote, List.length_cons,
    List.drop_succ_cons]

theorem words_quote (noSpace : space quote = false) (rest : List α) :
    words space quote (quote :: rest) =
      scan space quote true rest ::
        words space quote (rest.drop (scan space quote true rest).length) :=
  words_of_quote (List.dropWhile_cons_of_neg (by simp [noSpace]))

theorem words_plain {line : List α} (plain : Plain space quote line) :
    words space quote line =
      scan space quote false line ::
        words space quote (line.drop (scan space quote false line).length) :=
  words_front_plain (fun _ member => absurd member List.not_mem_nil) plain

variable (space quote) in
def Stands (text : List α) : Prop :=
  Plain space quote text ∧ Whole space quote false text ∧ quotedAfter quote false text = false

instance (text : List α) : Decidable (Stands space quote text) :=
  inferInstanceAs (Decidable (_ ∧ _ ∧ _))

theorem Stands.words (stands : Stands space quote text) (isSpace : space c = true) (rest : List α) :
    words space quote (text ++ c :: rest) = text :: words space quote rest := by
  have scanned : scan space quote false (text ++ c :: rest) = text := by
    refine scan_append_eq.mpr ⟨stands.2.1, ?_⟩
    rw [stands.2.2]
    simp [isSpace]
  have first := words_plain (stands.1.append (c :: rest))
  rw [scanned, List.drop_left, words_cons_space isSpace] at first
  exact first

theorem words_of_whole (plain : Plain space quote text) (whole : Whole space quote false text) :
    words space quote text = [text] := by
  have first := words_plain plain
  rw [whole, List.drop_length] at first
  exact first.trans (congrArg _ (words_of_nil rfl))

theorem whole_of_words {more : List (List α)} (plain : Plain space quote text)
    (own : words space quote text = text :: more) : Whole space quote false text ∧ more = [] := by
  have first := words_plain plain
  rw [own] at first
  obtain ⟨whole, rest⟩ := List.cons.inj first
  rw [← whole, List.drop_length, words_of_nil rfl] at rest
  exact ⟨whole.symm, rest⟩

theorem stands_of_words {more : List (List α)} (plain : Plain space quote text)
    (read : words space quote (text ++ c :: rest) = text :: more) : Stands space quote text := by
  have first := words_plain (plain.append (c :: rest))
  rw [read] at first
  obtain ⟨whole, ends⟩ := scan_append_eq.mp (List.cons.inj first).1.symm
  refine ⟨plain, whole, ?_⟩
  rcases scan_eq_nil.mp ends with empty | ⟨outside, -⟩
  · exact absurd empty (List.cons_ne_nil c rest)
  · exact outside

variable (space) in
def SpaceLed (ws : List (List α)) : Prop :=
  ∃ word ∈ ws, ∃ c rest, word = c :: rest ∧ space c = true

private theorem weight_add_le (noSpace : space quote = false) {ws : List (List α)}
    (writes : Writes space quote ws s) (extra : Nat) (few : extra ≤ 1)
    (led : 0 < extra → SpaceLed space ws) :
    weight ws + extra ≤ s.length + 1 ∧
      ∀ quoted, scan space quote quoted s = [] → weight ws + extra ≤ s.length := by
  induction writes generalizing extra with
  | nil spaces =>
    have none : extra = 0 := by
      by_contra some
      obtain ⟨word, member, -⟩ := led (Nat.pos_of_ne_zero some)
      exact absurd member List.not_mem_nil
    simp [none]
  | @plain gap word rest ws spaces begins whole ends more ih =>
    have tail : 0 < extra → SpaceLed space ws := by
      intro positive
      obtain ⟨led, member, c, suffix, same, isSpace⟩ := led positive
      rcases List.mem_cons.mp member with rfl | member
      · obtain ⟨first, chars, rfl, isChar, -⟩ := begins
        rw [(List.cons.inj same).1, isSpace] at isChar
        exact absurd isChar Bool.true_eq_false.mp
      · exact ⟨led, member, c, suffix, same, isSpace⟩
    have bound := (ih extra few tail).2 _ ends
    rw [weight_cons, List.length_append, List.length_append]
    refine ⟨by omega, fun quoted stops => ?_⟩
    have gapped : 0 < gap.length := by
      by_contra empty
      obtain rfl : gap = [] := List.eq_nil_of_length_eq_zero (by omega)
      obtain ⟨first, chars, rfl, isChar, -⟩ := begins
      simp [isChar] at stops
    omega
  | @quoted gap word rest ws spaces whole ends more ih =>
    have bound := (ih 0 (Nat.zero_le 1) (fun positive => absurd positive (lt_irrefl 0))).2 _ ends
    rw [weight_cons, List.length_append, List.length_cons, List.length_append]
    refine ⟨by omega, fun quoted stops => ?_⟩
    have gapped : 0 < gap.length := by
      by_contra empty
      obtain rfl : gap = [] := List.eq_nil_of_length_eq_zero (by omega)
      simp [noSpace] at stops
    omega

theorem weight_lt_of_spaceLed (noSpace : space quote = false)
    (led : SpaceLed space (words space quote s)) : weight (words space quote s) < s.length + 1 :=
  Nat.lt_of_succ_le
    (weight_add_le noSpace (writes_words space quote s) 1 (Nat.le_refl 1) fun _ => led).1

end MetaFilogic.Quoted
