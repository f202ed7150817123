import MetaFilogic.FdtPatch.Buffers
import Mathlib.Data.List.Forall2
import Mathlib.Data.List.Induction

/-!
# The summary in its buffer

The lines are split as the text is, except that a byte 0 ends a line as well; only the lines in
front of the first byte 0 are counted for the table.
-/

namespace MetaFilogic.FdtPatch

open CBuffer Buffer
open Function (update update_self update_of_ne)

/-! ## Lines of a text -/

def plain (c : Char) : Bool := !isCrlf c && !decide (c = '\x00')

theorem plain_iff {c : Char} : plain c = true ↔ isCrlf c = false ∧ c ≠ '\x00' := by
  simp [plain]

def splitAll (line : CString) : CString → List CString
  | [] => [line.reverse]
  | '\r' :: '\n' :: rest => line.reverse :: splitAll [] rest
  | c :: rest =>
    if plain c then splitAll (c :: line) rest else line.reverse :: splitAll [] rest

/-- The lines that begin in front of the place `summaryLen`, from `ptr` on; a line that ends with a
byte 0 behind that place has no end. -/
def linesFrom (summaryLen : Nat) (line : CString) (ptr : Nat) : CString → Option (List CString)
  | [] => if ptr ≤ summaryLen then some [line.reverse] else none
  | '\r' :: '\n' :: rest =>
    if summaryLen ≤ ptr + 2 then some [line.reverse]
    else (linesFrom summaryLen [] (ptr + 2) rest).map (line.reverse :: ·)
  | c :: rest =>
    if plain c then linesFrom summaryLen (c :: line) (ptr + 1) rest
    else if c = '\x00' ∧ summaryLen < ptr then none
    else if summaryLen ≤ ptr + 1 then some [line.reverse]
    else (linesFrom summaryLen [] (ptr + 1) rest).map (line.reverse :: ·)

inductive LineEnd : CString → CString → Prop where
  | last : LineEnd [] []
  | null (rest : CString) : LineEnd ('\x00' :: rest) rest
  | crlf (rest : CString) : LineEnd ('\r' :: '\n' :: rest) rest
  | single {c : Char} {rest : CString} (ends : isCrlf c = true)
      (alone : ¬(c = '\r' ∧ rest.head? = some '\n')) : LineEnd (c :: rest) rest

theorem exists_line (text : CString) : ∃ line after rest, text = line ++ after ∧
    (∀ c ∈ line, plain c = true) ∧ LineEnd after rest := by
  induction text with
  | nil => exact ⟨[], [], [], rfl, by simp, .last⟩
  | cons c text ih =>
    by_cases inLine : plain c = true
    · obtain ⟨line, after, rest, rfl, all, lineEnd⟩ := ih
      refine ⟨c :: line, after, rest, rfl, ?_, lineEnd⟩
      rintro d (- | ⟨_, member⟩)
      · exact inLine
      · exact all d member
    · refine ⟨[], c :: text, ?_⟩
      by_cases null : c = '\x00'
      · exact ⟨text, rfl, by simp, null ▸ .null text⟩
      · have ends : isCrlf c = true := by simpa [plain, null] using inLine
        by_cases both : c = '\r' ∧ text.head? = some '\n'
        · obtain ⟨rfl, head⟩ := both
          cases text with
          | nil => simp at head
          | cons d rest =>
            obtain rfl : d = '\n' := by simpa using head
            exact ⟨rest, rfl, by simp, .crlf rest⟩
        · exact ⟨text, rfl, by simp, .single ends both⟩

theorem LineEnd.length_lt {after rest : CString} (lineEnd : LineEnd after rest)
    (some : after ≠ []) : rest.length < after.length := by
  cases lineEnd with
  | last => exact absurd rfl some
  | null => simp
  | crlf =>
    simp only [List.length_cons]
    omega
  | single => simp

section Lists

variable {line acc after rest : CString} {summaryLen ptr : Nat} {c : Char}

theorem splitAll_append (all : ∀ c ∈ line, plain c = true) :
    splitAll acc (line ++ after) = splitAll (line.reverse ++ acc) after := by
  induction line generalizing acc with
  | nil => rfl
  | cons c line ih =>
    have first := all c List.mem_cons_self
    have notCr : c ≠ '\r' := by
      rintro rfl
      exact absurd first (by decide)
    rw [List.cons_append, List.reverse_cons, List.append_assoc, splitAll.eq_3, if_pos first]
    · exact ih fun d member => all d (List.mem_cons_of_mem _ member)
    · rintro rest rfl
      exact absurd rfl notCr

theorem linesFrom_append (all : ∀ c ∈ line, plain c = true) :
    linesFrom summaryLen acc ptr (line ++ after) =
      linesFrom summaryLen (line.reverse ++ acc) (ptr + line.length) after := by
  induction line generalizing acc ptr with
  | nil => rfl
  | cons c line ih =>
    have first := all c List.mem_cons_self
    have notCr : c ≠ '\r' := by
      rintro rfl
      exact absurd first (by decide)
    rw [List.cons_append, List.reverse_cons, List.append_assoc, linesFrom.eq_3, if_pos first,
      List.length_cons, Nat.add_comm line.length, ← Nat.add_assoc]
    · exact ih fun d member => all d (List.mem_cons_of_mem _ member)
    · rintro rest rfl
      exact absurd rfl notCr

theorem splitAll_lineEnd (lineEnd : LineEnd after rest) : splitAll acc after =
    acc.reverse :: if after = [] then [] else splitAll [] rest := by
  cases lineEnd with
  | last => rfl
  | null rest => rfl
  | crlf rest => rfl
  | single ends alone =>
    rename_i c
    rw [splitAll.eq_3, if_neg (by simp [plain, ends]), if_neg (List.cons_ne_nil _ _)]
    rintro rest' rfl rfl
    exact alone ⟨rfl, rfl⟩

def endWidth (after rest : CString) : Nat := after.length - rest.length

theorem linesFrom_lineEnd (lineEnd : LineEnd after rest) (some_ : after ≠ []) :
    linesFrom summaryLen acc ptr after =
      if after.head? = some '\x00' ∧ summaryLen < ptr then none
      else if summaryLen ≤ ptr + endWidth after rest then some [acc.reverse]
      else (linesFrom summaryLen [] (ptr + endWidth after rest) rest).map (acc.reverse :: ·) := by
  cases lineEnd with
  | last => exact absurd rfl some_
  | null rest =>
    rw [linesFrom.eq_3 _ _ _ _ _ (by rintro _ ⟨⟩), if_neg (by decide), endWidth, List.length_cons,
      Nat.add_sub_cancel_left, List.head?_cons]
    simp only [true_and]
  | crlf rest =>
    have notNull : ¬(('\r' :: '\n' :: rest).head? = some '\x00' ∧ summaryLen < ptr) := by simp
    rw [if_neg notNull, linesFrom, endWidth, List.length_cons, List.length_cons, Nat.add_assoc,
      Nat.add_sub_cancel_left]
  | single ends alone =>
    rename_i c
    have notNull : c ≠ '\x00' := by
      rintro rfl
      exact absurd ends (by decide)
    have head : ¬((c :: rest).head? = some '\x00' ∧ summaryLen < ptr) := by simp [notNull]
    have apart : ¬(c = '\x00' ∧ summaryLen < ptr) := fun both => notNull both.1
    rw [if_neg head, linesFrom.eq_3, if_neg (by simp [plain, ends]), if_neg apart, endWidth,
      List.length_cons, Nat.add_sub_cancel_left]
    rintro rest' rfl rfl
    exact alone ⟨rfl, rfl⟩

end Lists

/-! ## Trimming -/

section Trim

variable {b : Buffer} {text : CString} {i : Nat} {c : Char}

theorem ltrim_eq (text : CString) : ltrim text = text.dropWhile isBlank := rfl

theorem rtrim_snoc : rtrim (text ++ [c]) = if isBlank c then rtrim text else text ++ [c] := by
  rw [rtrim, List.reverse_append, List.reverse_singleton, List.singleton_append, ltrim_eq,
    List.dropWhile_cons]
  split
  · rfl
  · rw [List.reverse_cons, List.reverse_reverse]

theorem rtrim_prefix (text : CString) : ∃ blanks, text = rtrim text ++ blanks := by
  refine ⟨(text.reverse.takeWhile isBlank).reverse, ?_⟩
  rw [rtrim, ltrim_eq, ← List.reverse_append, List.takeWhile_append_dropWhile, List.reverse_reverse]

/-- The blanks at the end of a text become bytes 0, and nothing else changes. -/
theorem rtrimLen_eq (stands : b.Stands i text) :
    ∃ b', rtrimLen b i text.length = .ok b' ∧ b'.Stands i (rtrim text) ∧ b'.last = b.last ∧
      ∀ j, j < i ∨ i + text.length ≤ j → b'.byte j = b.byte j := by
  induction text using List.reverseRecOn generalizing b with
  | nil => exact ⟨b, rfl, stands, rfl, fun _ _ => rfl⟩
  | append_singleton text c ih =>
    obtain ⟨shows_, ends, clean, inside⟩ := stands
    obtain ⟨before, here, -⟩ := shows_append.mp shows_
    rw [List.length_append, List.length_singleton, ← Nat.add_assoc] at ends inside
    rw [List.length_append, List.length_singleton, rtrimLen, load_eq (by omega), here]
    by_cases blank : isBlank c = true
    · rw [rtrim_snoc, if_pos blank]
      have smaller : Stands { b with byte := update b.byte (i + text.length) '\x00' } i
          text :=
        ⟨before.congr fun j _ high => update_of_ne (Nat.ne_of_lt high) ..,
          update_self .., fun member => clean (List.mem_append_left _ member), by
            dsimp only
            omega⟩
      obtain ⟨b', done, stands, last, same⟩ := ih smaller
      refine ⟨b', ?_, stands, last, fun j outside => ?_⟩
      · refine (if_pos blank).trans ?_
        rw [store_eq (by omega)]
        exact done
      · refine (same j (by omega)).trans (update_of_ne ?_ ..)
        omega
    · rw [rtrim_snoc, if_neg blank]
      refine ⟨b, if_neg blank, ⟨shows_, ?_, clean, ?_⟩, rfl, fun _ _ => rfl⟩
      · rw [List.length_append, List.length_singleton, ← Nat.add_assoc]
        exact ends
      · rw [List.length_append, List.length_singleton, ← Nat.add_assoc]
        exact inside

theorem ltrimAt_eq (stands : b.Stands i text) :
    ltrimAt b i = .ok (i + (text.takeWhile isBlank).length) ∧
      b.Stands (i + (text.takeWhile isBlank).length) (ltrim text) := by
  obtain ⟨shows_, ends, clean, inside⟩ := stands
  have parts : text.takeWhile isBlank ++ ltrim text = text := List.takeWhile_append_dropWhile
  have lengths := congrArg List.length parts
  rw [List.length_append] at lengths
  rw [← parts] at shows_ clean
  obtain ⟨blanks, rest⟩ := shows_append.mp shows_
  have trimmed : b.Stands (i + (text.takeWhile isBlank).length) (ltrim text) :=
    ⟨rest, by rw [Nat.add_assoc, lengths]; exact ends,
      fun member => clean (List.mem_append_right _ member), by omega⟩
  refine ⟨skip_eq blanks (fun c member => List.mem_takeWhile_imp member) ?_ (by omega) (by omega),
    trimmed⟩
  cases left : ltrim text with
  | nil =>
    rw [left, List.length_nil, Nat.add_zero] at lengths
    rw [lengths, ends]
    decide
  | cons c rest' =>
    rw [left] at rest
    rw [rest.1]
    have head := List.head?_dropWhile_not isBlank text
    rw [← ltrim_eq, left] at head
    simpa using head

end Trim

/-! ## One line -/

def EntryHolds (b : Buffer) (bound : Nat) (entry : Nat × Nat) (pair : KvPair) : Prop :=
  ∃ name value, pair = { name := name, value := some value } ∧
    b.Stands entry.1 name ∧ entry.1 + name.length < bound ∧
    b.Stands entry.2 value ∧ entry.2 + value.length < bound

section Line

variable {b b' : Buffer} {line : CString} {ptr bound bound' : Nat}

theorem EntryHolds.congr {entry : Nat × Nat} {pair : KvPair} (holds : EntryHolds b bound entry pair)
    (le : bound ≤ bound') (last : b'.last = b.last)
    (same : ∀ j < bound, b'.byte j = b.byte j) : EntryHolds b' bound' entry pair := by
  obtain ⟨name, value, rfl, first, low, second, high⟩ := holds
  exact ⟨name, value, rfl, first.congr last fun j _ le => same j (by omega), by omega,
    second.congr last fun j _ le => same j (by omega), by omega⟩

theorem EntryHolds.entryPair {entry : Nat × Nat} {pair : KvPair}
    (holds : EntryHolds b bound entry pair) : entryPair b entry = pair := by
  obtain ⟨name, value, rfl, first, -, second, -⟩ := holds
  rw [FdtPatch.entryPair, first.string_eq, second.string_eq]

theorem parseLineAt_eq (stands : b.Stands ptr line) :
    ∃ b' entry, parseLineAt b ptr (ptr + line.length) = .ok (b', entry) ∧ b'.last = b.last ∧
      (∀ j, j < ptr ∨ ptr + line.length ≤ j → b'.byte j = b.byte j) ∧
      match parseLine line with
      | none => entry = none
      | some pair => ∃ e, entry = some e ∧ EntryHolds b' (ptr + line.length + 1) e pair := by
  obtain ⟨skipped, key⟩ := ltrimAt_eq stands
  have whole : line.takeWhile isBlank ++ ltrim line = line := List.takeWhile_append_dropWhile
  have lengths := congrArg List.length whole
  rw [List.length_append] at lengths
  have parts : (ltrim line).takeWhile (· ≠ ':') ++ (ltrim line).dropWhile (· ≠ ':') = ltrim line :=
    List.takeWhile_append_dropWhile
  generalize pkey : ptr + (line.takeWhile isBlank).length = pkeyAt at skipped key
  have inside := stands.inside
  rw [parseLineAt, skipped]
  cases colon : (ltrim line).dropWhile (· ≠ ':') with
  | nil =>
    have quiet : ∀ c ∈ ltrim line, decide (c = ':') = false := by
      intro c member
      have all := List.dropWhile_eq_nil_iff.mp colon c member
      simpa using all
    have absent : strchr b pkeyAt ':' = .ok none := find_none key quiet (by omega)
    refine ⟨b, none, ?_, rfl, fun _ _ => rfl, ?_⟩
    · show (strchr b pkeyAt ':' >>= _) = _
      rw [absent]
      rfl
    · rw [parseLine]
      simp only [colon]
  | cons c value =>
    obtain rfl : c = ':' := by
      have head := List.head?_dropWhile_not (· ≠ ':') (ltrim line)
      rw [colon] at head
      simpa using head
    have read : parseLine line = some
        { name := rtrim ((ltrim line).takeWhile (· ≠ ':')), value := some (rtrim (ltrim value)) } := by
      rw [parseLine]
      simp only [colon]
    rw [read]
    generalize before : (ltrim line).takeWhile (· ≠ ':') = name at parts
    have quiet : ∀ c ∈ name, decide (c = ':') = false := by
      intro c member
      rw [← before] at member
      simpa using List.mem_takeWhile_imp member
    rw [colon] at parts
    obtain ⟨shows_, ends, clean, -⟩ := key
    rw [← parts] at shows_ ends clean lengths
    rw [List.length_append, List.length_cons] at ends lengths
    obtain ⟨showsName, here, showsValue⟩ := shows_append.mp shows_
    have found : strchr b pkeyAt ':' = .ok (some (pkeyAt + name.length)) := by
      refine find_some showsName (fun member => clean (List.mem_append_left _ member)) quiet ?_ ?_
        (by omega) (by omega)
      · rw [here]
        decide
      · rw [here]
        decide
    -- The text in front of the `:` ends there, and is trimmed.
    generalize cut : ({ b with byte := update b.byte (pkeyAt + name.length) '\x00' } :
      Buffer) = b₁
    have stored : b.store (pkeyAt + name.length) '\x00' = .ok b₁ :=
      (store_eq (by omega)).trans (congrArg _ cut)
    have byte₁ : ∀ j, j ≠ pkeyAt + name.length → b₁.byte j = b.byte j := by
      subst cut
      exact fun j other => update_of_ne other ..
    have last₁ : b₁.last = b.last := by
      subst cut
      rfl
    have standsName : b₁.Stands pkeyAt name := by
      refine ⟨showsName.congr fun j _ high => byte₁ j (by omega), ?_,
        fun member => clean (List.mem_append_left _ member), by omega⟩
      subst cut
      exact update_self ..
    obtain ⟨b₂, trimmed, name₂, last₂, byte₂⟩ := rtrimLen_eq standsName
    -- So is the text behind it.
    have standsValue : b₂.Stands (pkeyAt + name.length + 1) value := by
      have same : ∀ j, pkeyAt + name.length < j → b₂.byte j = b.byte j := fun j later =>
        (byte₂ j (by omega)).trans (byte₁ j (by omega))
      refine ⟨showsValue.congr fun j low _ => same j (by omega), ?_,
        fun member => clean (List.mem_append_right _ (List.mem_cons_of_mem _ member)), by omega⟩
      rw [same _ (by omega), Nat.add_assoc, Nat.add_assoc, Nat.add_comm 1]
      exact ends
    obtain ⟨skippedValue, value₂⟩ := ltrimAt_eq standsValue
    have wholeValue : value.takeWhile isBlank ++ ltrim value = value :=
      List.takeWhile_append_dropWhile
    have lengthsValue := congrArg List.length wholeValue
    rw [List.length_append] at lengthsValue
    obtain ⟨b₃, trimmedValue, value₃, last₃, byte₃⟩ := rtrimLen_eq value₂
    generalize valuePlace : pkeyAt + name.length + 1 + (value.takeWhile isBlank).length = valueAt
      at skippedValue value₂ trimmedValue value₃ byte₃
    obtain ⟨trailing, named⟩ := rtrim_prefix name
    have nameLength := congrArg List.length named
    rw [List.length_append] at nameLength
    obtain ⟨trailing', valued⟩ := rtrim_prefix (ltrim value)
    have valueLength := congrArg List.length valued
    rw [List.length_append] at valueLength
    refine ⟨b₃, some (pkeyAt, valueAt), ?_, by rw [last₃, last₂, last₁], fun j outside => ?_,
      _, rfl, _, _, rfl, name₂.congr last₃ fun j _ high => byte₃ j (by omega), by dsimp only; omega,
      value₃, by dsimp only; omega⟩
    · show (strchr b pkeyAt ':' >>= _) = _
      rw [found]
      show (b.store (pkeyAt + name.length) '\x00' >>= _) = _
      rw [stored]
      show (rtrimLen b₁ pkeyAt (pkeyAt + name.length - pkeyAt) >>= _) = _
      rw [Nat.add_sub_cancel_left, trimmed]
      show (ltrimAt b₂ (pkeyAt + name.length + 1) >>= _) = _
      rw [skippedValue]
      show (rtrimLen b₂ valueAt (ptr + line.length - valueAt) >>= _) = _
      rw [show ptr + line.length - valueAt = (ltrim value).length by omega, trimmedValue]
      rfl
    · exact (byte₃ j (by omega)).trans ((byte₂ j (by omega)).trans (byte₁ j (by omega)))

/-- The buffer from a place on, up to the byte 0 at its end. -/
structure Remains (b : Buffer) (ptr : Nat) (text : CString) : Prop where
  shows_ : b.Shows ptr text
  length : ptr + text.length = b.last
  ends : b.byte b.last = '\x00'

variable {after rest : CString} {summaryLen : Nat}

theorem Remains.lineEnd (remains : Remains b ptr (line ++ after)) (lineEnd : LineEnd after rest)
    (some_ : after ≠ []) : Remains b (ptr + line.length + endWidth after rest) rest := by
  obtain ⟨shows_, length, ends⟩ := remains
  obtain ⟨-, behind⟩ := shows_append.mp shows_
  rw [List.length_append, ← Nat.add_assoc] at length
  have shorter := lineEnd.length_lt some_
  refine ⟨?_, by rw [endWidth]; omega, ends⟩
  cases lineEnd with
  | last => exact absurd rfl some_
  | null rest =>
    rw [endWidth, List.length_cons, Nat.add_sub_cancel_left]
    exact behind.2
  | crlf rest =>
    rw [endWidth, List.length_cons, List.length_cons, Nat.add_assoc rest.length,
      Nat.add_sub_cancel_left]
    exact behind.2.2
  | single ends alone =>
    rw [endWidth, List.length_cons, Nat.add_sub_cancel_left]
    exact behind.2

theorem clean_of_plain (all : ∀ c ∈ line, plain c = true) : '\x00' ∉ line := fun member =>
  (plain_iff.mp (all _ member)).2 rfl

theorem quiet_of_plain (all : ∀ c ∈ line, plain c = true) : ∀ c ∈ line, isCrlf c = false :=
  fun c member => (plain_iff.mp (all c member)).1

theorem strcrlf_crlf (remains : Remains b ptr (line ++ after)) (all : ∀ c ∈ line, plain c = true)
    (lineEnd : LineEnd after rest) (some_ : after ≠ []) (notNull : after.head? ≠ some '\x00') :
    strcrlf b ptr = .ok (some (ptr + line.length)) ∧
      afterLine b (ptr + line.length) = .ok (ptr + line.length + endWidth after rest) := by
  obtain ⟨shows_, length, ends⟩ := remains
  obtain ⟨before, behind⟩ := shows_append.mp shows_
  rw [List.length_append, ← Nat.add_assoc] at length
  cases lineEnd with
  | last => exact absurd rfl some_
  | null rest => exact absurd rfl notNull
  | crlf rest =>
    rw [List.length_cons, List.length_cons] at length
    refine ⟨find_some before (clean_of_plain all) (quiet_of_plain all) ?_ ?_ (by omega)
      (by omega), ?_⟩
    · rw [behind.1]
      decide
    · rw [behind.1]
      decide
    · rw [afterLine, load_eq (by omega), behind.1]
      show (b.load (ptr + line.length + 1) >>= _) = _
      rw [load_eq (by omega), behind.2.1, endWidth, List.length_cons, List.length_cons,
        Nat.add_assoc rest.length, Nat.add_sub_cancel_left]
      rfl
  | single lineEnds alone =>
    rename_i c
    rw [List.length_cons] at length
    have first : b.byte (ptr + line.length) = c := behind.1
    refine ⟨find_some before (clean_of_plain all) (quiet_of_plain all) ?_ (first ▸ lineEnds)
      (by omega) (by omega), ?_⟩
    · rw [first]
      rintro rfl
      exact absurd lineEnds (by decide)
    · rw [afterLine, load_eq (by omega), first, endWidth, List.length_cons,
        Nat.add_sub_cancel_left]
      by_cases cr : c = '\r'
      · refine (if_pos cr).trans ?_
        rw [load_eq (by omega)]
        refine congrArg Except.ok (if_neg fun lf => alone ⟨cr, ?_⟩)
        cases rest with
        | nil =>
          have : b.byte (ptr + line.length + 1) = '\x00' := by
            rw [show ptr + line.length + 1 = b.last by simpa using length]
            exact ends
          rw [this] at lf
          exact absurd lf (by decide)
        | cons d rest => rw [List.head?_cons, ← behind.2.1, lf]
      · exact if_neg cr

theorem strcrlf_null (remains : Remains b ptr (line ++ after)) (all : ∀ c ∈ line, plain c = true)
    (null : after = [] ∨ after.head? = some '\x00') :
    strcrlf b ptr = .ok none ∧ b.Stands ptr line := by
  obtain ⟨shows_, length, ends⟩ := remains
  obtain ⟨before, behind⟩ := shows_append.mp shows_
  rw [List.length_append, ← Nat.add_assoc] at length
  have stands : b.Stands ptr line := by
    refine ⟨before, ?_, clean_of_plain all, by omega⟩
    rcases null with rfl | null
    · rw [show ptr + line.length = b.last by simpa using length]
      exact ends
    · cases after with
      | nil => simp at null
      | cons c after => exact behind.1.trans (Option.some_inj.mp null)
  exact ⟨find_none stands (quiet_of_plain all) (by have := stands.inside; omega), stands⟩

/-- A line is split off, unless it ends with a byte 0 behind `summaryLen`. -/
theorem splitLine_eq (remains : Remains b ptr (line ++ after)) (all : ∀ c ∈ line, plain c = true)
    (lineEnd : LineEnd after rest) (low : ptr ≤ summaryLen) (high : summaryLen ≤ b.last) :
    if (after = [] ∨ after.head? = some '\x00') ∧ summaryLen < ptr + line.length then
      splitLine summaryLen b ptr = .error .outside
    else
      ∃ b', splitLine summaryLen b ptr = .ok (b', ptr + line.length,
          ptr + line.length + if after = [] then 1 else endWidth after rest) ∧
        b'.Stands ptr line ∧ b'.last = b.last ∧ ∀ j, j ≠ ptr + line.length → b'.byte j = b.byte j := by
  by_cases null : after = [] ∨ after.head? = some '\x00'
  · obtain ⟨none, stands⟩ := strcrlf_null remains all null
    have found := findNull_eq (summaryLen - ptr + 1) stands (by omega)
    have run : splitLine summaryLen b ptr =
        (if line.length < summaryLen - ptr + 1 then some (ptr + line.length) else .none).elim
          (.error .outside) fun peol => .ok (b, peol, peol + 1) := by
      rw [splitLine, none]
      show (b.findNull (summaryLen - ptr + 1) ptr >>= _) = _
      rw [found]
      split <;> rfl
    rw [run]
    by_cases beyond : summaryLen < ptr + line.length
    · rw [if_pos ⟨null, beyond⟩, if_neg (by omega)]
      rfl
    · rw [if_neg fun both => beyond both.2, if_pos (by omega)]
      refine ⟨b, ?_, stands, rfl, fun _ _ => rfl⟩
      have width : (if after = [] then 1 else endWidth after rest) = 1 := by
        split
        · rfl
        · rename_i some_
          have head := null.resolve_left some_
          cases lineEnd with
          | last => exact absurd rfl some_
          | null rest => rw [endWidth, List.length_cons, Nat.add_sub_cancel_left]
          | crlf rest => simp at head
          | single ends alone =>
            obtain rfl := Option.some_inj.mp head
            exact absurd ends (by decide)
      rw [width]
      rfl
  · rw [not_or] at null
    obtain ⟨found, behind⟩ := strcrlf_crlf remains all lineEnd null.1 null.2
    have length := remains.length
    have longer : 0 < after.length := List.length_pos_of_ne_nil null.1
    rw [List.length_append] at length
    rw [if_neg fun both => both.1.elim null.1 null.2]
    refine ⟨{ b with byte := update b.byte (ptr + line.length) '\x00' }, ?_,
      ⟨?_, update_self .., clean_of_plain all, by dsimp only; omega⟩, rfl,
      fun j other => update_of_ne other ..⟩
    · rw [splitLine, found]
      show (afterLine b (ptr + line.length) >>= _) = _
      rw [behind]
      show (b.store (ptr + line.length) '\x00' >>= _) = _
      rw [store_eq (by omega), if_neg null.1]
      rfl
    · exact (shows_append.mp remains.shows_).1.congr fun j _ later =>
        update_of_ne (Nat.ne_of_lt later) ..

end Line

/-! ## The whole summary -/

section Summary

variable {b : Buffer} {text acc line after rest : CString} {ptr summaryLen allocated : Nat}

theorem splitLines_append (all : ∀ c ∈ line, plain c = true) :
    splitLines acc (line ++ after) = splitLines (line.reverse ++ acc) after := by
  induction line generalizing acc with
  | nil => rfl
  | cons c line ih =>
    have first := (plain_iff.mp (all c List.mem_cons_self)).1
    simp only [isCrlf, decide_eq_false_iff_not] at first
    rw [List.cons_append, List.reverse_cons, List.append_assoc, splitLines.eq_3, if_neg first]
    · exact ih fun d member => all d (List.mem_cons_of_mem _ member)
    · rintro rest rfl
      exact absurd rfl (not_or.mp first).1

theorem splitLines_lineEnd (lineEnd : LineEnd after rest) (some_ : after ≠ [])
    (notNull : after.head? ≠ some '\x00') :
    splitLines acc after = acc.reverse :: splitLines [] rest := by
  cases lineEnd with
  | last => exact absurd rfl some_
  | null rest => exact absurd rfl notNull
  | crlf rest => rfl
  | single ends alone =>
    rename_i c
    rw [splitLines.eq_3, if_pos (by simpa [isCrlf] using ends)]
    rintro rest' rfl rfl
    exact alone ⟨rfl, rfl⟩

def beforeNull (text : CString) : CString := text.takeWhile (· ≠ '\x00')

theorem beforeNull_append (all : ∀ c ∈ line, plain c = true) :
    beforeNull (line ++ after) = line ++ beforeNull after := by
  rw [beforeNull, List.takeWhile_append_of_pos, beforeNull]
  intro c member
  simpa using (plain_iff.mp (all c member)).2

theorem beforeNull_lineEnd (lineEnd : LineEnd after rest)
    (notNull : after.head? ≠ some '\x00') : LineEnd (beforeNull after) (beforeNull rest) := by
  cases lineEnd with
  | last => exact .last
  | null rest => exact absurd rfl notNull
  | crlf rest => exact .crlf _
  | single ends alone =>
    rename_i c
    have first : c ≠ '\x00' := by
      rintro rfl
      exact absurd ends (by decide)
    rw [beforeNull, List.takeWhile_cons_of_pos (by simpa using first)]
    refine .single ends fun both => alone ⟨both.1, ?_⟩
    obtain ⟨-, head⟩ := both
    cases rest with
    | nil => exact head
    | cons d rest =>
      simp only [List.takeWhile_cons] at head
      split at head
      · exact head
      · simp at head

theorem head_beforeNull (notNull : after.head? ≠ some '\x00') :
    (beforeNull after).head? = after.head? := by
  cases after with
  | nil => rfl
  | cons c after =>
    have first : c ≠ '\x00' := fun same => notNull (congrArg some same)
    rw [beforeNull, List.takeWhile_cons_of_pos (by simpa using first)]
    rfl

theorem countLines_eq (fuel lines : Nat) (remains : Remains b ptr text)
    (enough : text.length < fuel) :
    countLines b fuel ptr lines = .ok (lines + (splitLines [] (beforeNull text)).length - 1) := by
  induction fuel generalizing ptr text lines with
  | zero => exact absurd enough (Nat.not_lt_zero _)
  | succ fuel ih =>
    obtain ⟨line, after, rest, rfl, all, lineEnd⟩ := exists_line text
    rw [beforeNull_append all, splitLines_append all, List.append_nil]
    by_cases null : after = [] ∨ after.head? = some '\x00'
    · obtain ⟨absent, -⟩ := strcrlf_null remains all null
      have nothing : beforeNull after = [] := by
        rcases null with rfl | null
        · rfl
        · cases lineEnd with
          | last => rfl
          | null rest => rfl
          | crlf rest => simp at null
          | single ends alone =>
            obtain rfl := Option.some_inj.mp null
            exact absurd ends (by decide)
      rw [countLines, absent, nothing, splitLines, List.length_singleton, Nat.add_sub_cancel]
      rfl
    · rw [not_or] at null
      obtain ⟨found, behind⟩ := strcrlf_crlf remains all lineEnd null.1 null.2
      have head := head_beforeNull null.2
      have some_ : beforeNull after ≠ [] := by
        intro empty
        rw [empty, List.head?_nil, eq_comm, List.head?_eq_none_iff] at head
        exact null.1 head
      have shorter := lineEnd.length_lt null.1
      rw [List.length_append] at enough
      rw [splitLines_lineEnd (beforeNull_lineEnd lineEnd null.2) some_ (head ▸ null.2),
        List.length_cons, countLines, found]
      show (afterLine b (ptr + line.length) >>= _) = _
      rw [behind]
      show countLines b fuel _ (lines + 1) = _
      rw [ih (lines + 1) (remains.lineEnd lineEnd null.1) (by omega)]
      congr 1
      omega

/-! ### The table -/

/-- What the loop over the lines leaves: the pairs of these lines behind the ones there are, when
the table has the room and every line an end. -/
def Parsed (allocated : Nat) (pairs : List KvPair)
    (result : Except Fault (Buffer × List (Nat × Nat))) : Option (List CString) → Prop
  | none => ∃ fault, result = .error fault
  | some lines =>
    if (pairs ++ lines.filterMap parseLine).length ≤ allocated then
      ∃ b entries bound, result = .ok (b, entries) ∧
        List.Forall₂ (EntryHolds b bound) entries (pairs ++ lines.filterMap parseLine)
    else ∃ fault, result = .error fault

variable {pairs : List KvPair} {entries : List (Nat × Nat)}
  {result : Except Fault (Buffer × List (Nat × Nat))} {lines : Option (List CString)}

theorem Parsed.cons (parsed : Parsed allocated (pairs ++ (parseLine line).toList) result lines) :
    Parsed allocated pairs result (lines.map (line :: ·)) := by
  cases lines with
  | none => exact parsed
  | some lines =>
    have same : pairs ++ (line :: lines).filterMap parseLine =
        pairs ++ (parseLine line).toList ++ lines.filterMap parseLine := by
      rw [List.append_assoc, List.filterMap_cons]
      cases parseLine line <;> rfl
    rw [Option.map_some, Parsed, same]
    exact parsed

theorem Parsed.of_full {fault : Fault} (full : allocated < pairs.length) :
    Parsed allocated pairs (.error fault) lines := by
  cases lines with
  | none => exact ⟨fault, rfl⟩
  | some lines =>
    rw [Parsed, if_neg]
    · exact ⟨fault, rfl⟩
    · rw [List.length_append]
      omega

theorem addEntry_eq {bound : Nat} {entry : Option (Nat × Nat)}
    (holds : List.Forall₂ (EntryHolds b bound) entries pairs) (here : match parseLine line with
      | none => entry = none
      | some pair => ∃ e, entry = some e ∧ EntryHolds b bound e pair)
    (within : entries.length ≤ allocated) :
    if (pairs ++ (parseLine line).toList).length ≤ allocated then
      ∃ entries', addEntry allocated entries entry = .ok entries' ∧ entries'.length ≤ allocated ∧
        List.Forall₂ (EntryHolds b bound) entries' (pairs ++ (parseLine line).toList)
    else addEntry allocated entries entry = .error .full := by
  have lengths := holds.length_eq
  cases read : parseLine line with
  | none =>
    rw [read] at here
    rw [Option.toList_none, List.append_nil, if_pos (by omega), here]
    exact ⟨entries, rfl, within, holds⟩
  | some pair =>
    rw [read] at here
    obtain ⟨e, rfl, stands⟩ := here
    rw [Option.toList_some, List.length_append, List.length_singleton, addEntry]
    by_cases room : entries.length < allocated
    · rw [if_pos (by omega), if_pos room]
      refine ⟨_, rfl, by rwa [List.length_append, List.length_singleton], ?_⟩
      exact List.rel_append holds (.cons stands .nil)
    · rw [if_neg (by omega), if_neg room]

theorem linesFrom_step (lineEnd : LineEnd after rest) (high : summaryLen ≤ ptr + after.length) :
    linesFrom summaryLen acc ptr after =
      if (after = [] ∨ after.head? = some '\x00') ∧ summaryLen < ptr then none
      else
        (if summaryLen ≤ ptr + (if after = [] then 1 else endWidth after rest) then some []
        else linesFrom summaryLen [] (ptr + if after = [] then 1 else endWidth after rest) rest).map
          (acc.reverse :: ·) := by
  by_cases empty : after = []
  · subst empty
    rw [List.length_nil, Nat.add_zero] at high
    rw [linesFrom, if_pos rfl, if_pos (show summaryLen ≤ ptr + 1 by omega), Option.map_some]
    by_cases beyond : summaryLen < ptr
    · rw [if_neg (by omega), if_pos ⟨.inl rfl, beyond⟩]
    · rw [if_pos (by omega), if_neg fun both => beyond both.2]
  · rw [linesFrom_lineEnd lineEnd empty, if_neg empty]
    simp only [empty, false_or]
    split
    · rfl
    · split
      · rfl
      · rfl

theorem Remains.congr {b' : Buffer} (remains : Remains b ptr text) (last : b'.last = b.last)
    (same : ∀ j, ptr ≤ j → b'.byte j = b.byte j) : Remains b' ptr text := by
  obtain ⟨shows_, length, ends⟩ := remains
  refine ⟨shows_.congr fun j low _ => same j low, length.trans last.symm, ?_⟩
  rw [last, same b.last (by omega)]
  exact ends

theorem parseLines_eq (fuel : Nat) (remains : Remains b ptr text) (low : ptr ≤ summaryLen)
    (high : summaryLen ≤ b.last) (holds : List.Forall₂ (EntryHolds b ptr) entries pairs)
    (within : entries.length ≤ allocated) (enough : text.length < fuel) :
    Parsed allocated pairs (parseLines allocated summaryLen fuel b ptr entries)
      (linesFrom summaryLen [] ptr text) := by
  induction fuel generalizing b ptr text entries pairs with
  | zero => exact absurd enough (Nat.not_lt_zero _)
  | succ fuel ih =>
    obtain ⟨line, after, rest, rfl, all, lineEnd⟩ := exists_line text
    have split := splitLine_eq remains all lineEnd low high
    have length := remains.length
    rw [List.length_append] at length enough
    rw [linesFrom_append all, List.append_nil, linesFrom_step lineEnd (by omega),
      List.reverse_reverse]
    by_cases beyond : (after = [] ∨ after.head? = some '\x00') ∧ summaryLen < ptr + line.length
    · rw [if_pos beyond] at split ⊢
      refine ⟨.outside, ?_⟩
      rw [parseLines, split]
      rfl
    rw [if_neg beyond] at split ⊢
    obtain ⟨b₁, split, stands, last₁, byte₁⟩ := split
    obtain ⟨b₂, entry, parsed, last₂, byte₂, here⟩ := parseLineAt_eq stands
    have later : ∀ j, ptr + line.length + 1 ≤ j → b₂.byte j = b.byte j := fun j le =>
      (byte₂ j (by omega)).trans (byte₁ j (by omega))
    have before : ∀ j < ptr, b₂.byte j = b.byte j := fun j lt =>
      (byte₂ j (by omega)).trans (byte₁ j (by omega))
    have width : 1 ≤ if after = [] then 1 else endWidth after rest := by
      split
      · exact Nat.le_refl 1
      · rename_i some_
        have shorter := lineEnd.length_lt some_
        rw [endWidth]
        omega
    generalize next : ptr + line.length + (if after = [] then 1 else endWidth after rest) = pcrlf
      at split
    have kept : List.Forall₂ (EntryHolds b₂ (ptr + line.length + 1)) entries pairs :=
      holds.imp fun _ _ entry => entry.congr (by omega) (last₂.trans last₁) before
    have added := addEntry_eq kept here within
    have run : parseLines allocated summaryLen (fuel + 1) b ptr entries =
        (addEntry allocated entries entry >>= fun entries =>
          if summaryLen ≤ pcrlf then .ok (b₂, entries)
          else parseLines allocated summaryLen fuel b₂ pcrlf entries) := by
      rw [parseLines, split]
      show (parseLineAt b₁ ptr (ptr + line.length) >>= _) = _
      rw [parsed]
      rfl
    rw [run]
    apply Parsed.cons
    by_cases room : (pairs ++ (parseLine line).toList).length ≤ allocated
    · rw [if_pos room] at added
      obtain ⟨entries', added, within', holds'⟩ := added
      rw [added]
      by_cases done : summaryLen ≤ pcrlf
      · rw [if_pos done, Parsed, List.filterMap_nil, List.append_nil, if_pos room]
        exact ⟨b₂, entries', _, if_pos done, holds'⟩
      · have some_ : after ≠ [] := by
          rintro rfl
          rw [if_pos rfl] at next
          rw [List.length_nil] at length
          omega
        have remains' := remains.lineEnd lineEnd some_
        have shorter := lineEnd.length_lt some_
        rw [if_neg some_] at next width
        rw [next] at remains'
        rw [if_neg done]
        have result : (Except.ok entries' >>= fun entries =>
            if summaryLen ≤ pcrlf then Except.ok (b₂, entries)
            else parseLines allocated summaryLen fuel b₂ pcrlf entries) =
            parseLines allocated summaryLen fuel b₂ pcrlf entries' := if_neg done
        rw [result]
        refine ih (remains'.congr (last₂.trans last₁) fun j le => later j (by omega)) (by omega)
          (by omega) ?_ within' (by omega)
        exact holds'.imp fun _ _ entry => entry.congr (by omega) rfl fun _ _ => rfl
    · rw [if_neg room] at added
      rw [added]
      exact .of_full (by omega)

/-! ### Files of less than 4 GiB -/

theorem linesFrom_whole (whole : summaryLen = ptr + text.length) :
    ∃ lines, linesFrom summaryLen [] ptr text = some lines ∧
      lines.filterMap parseLine = (splitAll [] text).filterMap parseLine := by
  induction size : text.length using Nat.strong_induction_on generalizing text ptr with
  | _ n ih =>
    obtain ⟨line, after, rest, rfl, all, lineEnd⟩ := exists_line text
    rw [List.length_append] at whole size
    have within : ¬((after = [] ∨ after.head? = some '\x00') ∧ summaryLen < ptr + line.length) :=
      fun both => by omega
    rw [linesFrom_append all, List.append_nil, linesFrom_step lineEnd (by omega), if_neg within,
      splitAll_append all, List.append_nil, splitAll_lineEnd lineEnd, List.reverse_reverse]
    by_cases empty : after = []
    · subst empty
      rw [List.length_nil] at whole
      rw [if_pos rfl, if_pos (by omega)]
      exact ⟨[line], rfl, rfl⟩
    · have shorter := lineEnd.length_lt empty
      rw [if_neg empty, if_neg empty]
      by_cases atEnd : rest = []
      · subst atEnd
        rw [if_pos (by rw [endWidth, List.length_nil]; omega)]
        refine ⟨[line], rfl, ?_⟩
        rw [List.filterMap_cons, List.filterMap_cons, List.filterMap_nil]
        rfl
      · have longer := List.length_pos_of_ne_nil atEnd
        have next : summaryLen = ptr + line.length + endWidth after rest + rest.length := by
          rw [endWidth]
          omega
        obtain ⟨lines, split, same⟩ := ih rest.length (by omega) next rfl
        rw [if_neg (by omega), split]
        refine ⟨line :: lines, rfl, ?_⟩
        rw [List.filterMap_cons, List.filterMap_cons, same]

theorem LineEnd.rest_subset (lineEnd : LineEnd after rest) : rest ⊆ after := by
  intro c member
  cases lineEnd with
  | last => exact member
  | null => exact List.mem_cons_of_mem _ member
  | crlf => exact List.mem_cons_of_mem _ (List.mem_cons_of_mem _ member)
  | single => exact List.mem_cons_of_mem _ member

theorem splitAll_eq_splitLines (clean : '\x00' ∉ text) : splitAll [] text = splitLines [] text := by
  induction size : text.length using Nat.strong_induction_on generalizing text with
  | _ n ih =>
    obtain ⟨line, after, rest, rfl, all, lineEnd⟩ := exists_line text
    rw [splitAll_append all, splitLines_append all, splitAll_lineEnd lineEnd]
    rw [List.mem_append, not_or] at clean
    rw [List.length_append] at size
    by_cases empty : after = []
    · rw [if_pos empty, empty, splitLines]
    · have shorter := lineEnd.length_lt empty
      have notNull : after.head? ≠ some '\x00' := fun head =>
        clean.2 (List.mem_of_mem_head? head)
      rw [if_neg empty, splitLines_lineEnd lineEnd empty notNull,
        ih rest.length (by omega) (fun member => clean.2 (lineEnd.rest_subset member)) rfl]

theorem beforeNull_eq_self (clean : '\x00' ∉ text) : beforeNull text = text := by
  refine List.takeWhile_eq_self_iff.mpr fun c member => ?_
  have : c ≠ '\x00' := fun same => clean (same ▸ member)
  simpa using this

theorem toList_parseLine_length_le (line : CString) :
    (parseLine line).toList.length ≤ line.length := by
  cases line with
  | nil => exact Nat.le_refl 0
  | cons c line =>
    rw [List.length_cons]
    cases parseLine (c :: line) with
    | none => exact Nat.zero_le _
    | some pair =>
      rw [Option.toList_some, List.length_singleton]
      omega

theorem splitLines_add_pairs_le (clean : '\x00' ∉ text) :
    (splitLines [] text).length + ((splitLines [] text).filterMap parseLine).length ≤
      text.length + 1 := by
  induction size : text.length using Nat.strong_induction_on generalizing text with
  | _ n ih =>
    obtain ⟨line, after, rest, rfl, all, lineEnd⟩ := exists_line text
    have first := toList_parseLine_length_le line
    have pairs : ∀ lines : List CString, ((line :: lines).filterMap parseLine).length =
        (parseLine line).toList.length + (lines.filterMap parseLine).length := by
      intro lines
      rw [List.filterMap_cons]
      cases parseLine line with
      | none => exact (Nat.zero_add _).symm
      | some pair => exact Nat.add_comm ..
    rw [splitLines_append all, List.append_nil]
    rw [List.mem_append, not_or] at clean
    rw [List.length_append] at size
    by_cases empty : after = []
    · rw [empty, splitLines, List.reverse_reverse, pairs, List.length_singleton,
        List.filterMap_nil, List.length_nil]
      omega
    · have shorter := lineEnd.length_lt empty
      have notNull : after.head? ≠ some '\x00' := fun head =>
        clean.2 (List.mem_of_mem_head? head)
      have others := ih rest.length (by omega)
        (fun member => clean.2 (lineEnd.rest_subset member)) rfl
      rw [splitLines_lineEnd lineEnd empty notNull, List.reverse_reverse, pairs, List.length_cons]
      omega

/-- The entries of the summary find their place in its table: it has one for each line in front of
the first byte 0. -/
def EntriesFit (file : CString) : Prop :=
  if file.length < 2 ^ 32 then
    ((splitAll [] file).filterMap parseLine).length ≤
      (splitLines [] (beforeNull file)).length % 2 ^ 32
  else
    ∃ lines, linesFrom (file.length % 2 ^ 32) [] 0 file = some lines ∧
      (lines.filterMap parseLine).length ≤ (splitLines [] (beforeNull file)).length % 2 ^ 32 ∧
      ('\x00' ∉ file → lines.filterMap parseLine = parseVeritySummary file)

/-- `parse_verity_summary` ends and stays within its buffer and its table; without a byte 0 in the
file, the table has the pairs of the file. -/
def ParseSafe (file : CString) : Prop :=
  ∃ b entries, parseSummaryBuffer file = .ok (b, entries) ∧
    ('\x00' ∉ file → entries.map (entryPair b) = parseVeritySummary file)

theorem shows_readFile (file : CString) : (readFile file).Shows 0 file := by
  have shown : ∀ (text : CString) (i : Nat),
      (∀ j < text.length, (readFile file).byte (i + j) = text.getD j '\x00') →
        (readFile file).Shows i text := by
    intro text
    induction text with
    | nil => exact fun _ _ => trivial
    | cons c text ih =>
      intro i same
      refine ⟨same 0 (Nat.succ_pos _), ih (i + 1) fun j lt => ?_⟩
      rw [Nat.add_right_comm, Nat.add_assoc]
      exact same (j + 1) (Nat.succ_lt_succ lt)
  exact shown file 0 fun j _ => by rw [Nat.zero_add]; rfl

theorem remains_readFile (file : CString) : Remains (readFile file) 0 file :=
  ⟨shows_readFile file, Nat.zero_add _, by simp [readFile]⟩

theorem parseSummaryBuffer_parsed (file : CString) :
    Parsed ((splitLines [] (beforeNull file)).length % 2 ^ 32) [] (parseSummaryBuffer file)
      (linesFrom (file.length % 2 ^ 32) [] 0 file) := by
  have counted := countLines_eq (file.length + 2) 1 (remains_readFile file) (by omega)
  rw [Nat.add_sub_cancel_left] at counted
  have run : parseSummaryBuffer file =
      parseLines ((splitLines [] (beforeNull file)).length % 2 ^ 32) (file.length % 2 ^ 32)
        (file.length + 2) (readFile file) 0 [] := by
    show (countLines (readFile file) (file.length + 2) 0 1 >>= _) = _
    rw [counted]
    rfl
  rw [run]
  exact parseLines_eq _ (remains_readFile file) (Nat.zero_le _) (Nat.mod_le _ _) .nil
    (Nat.zero_le _) (by omega)

theorem parseSafe_iff_lines (file : CString) :
    ParseSafe file ↔ ∃ lines, linesFrom (file.length % 2 ^ 32) [] 0 file = some lines ∧
      (lines.filterMap parseLine).length ≤ (splitLines [] (beforeNull file)).length % 2 ^ 32 ∧
      ('\x00' ∉ file → lines.filterMap parseLine = parseVeritySummary file) := by
  have parsed := parseSummaryBuffer_parsed file
  have pairsOf : ∀ {b bound} {entries : List (Nat × Nat)} {pairs : List KvPair},
      List.Forall₂ (EntryHolds b bound) entries pairs → entries.map (entryPair b) = pairs := by
    intro b bound entries pairs holds
    induction holds with
    | nil => rfl
    | cons first _ ih => rw [List.map_cons, first.entryPair, ih]
  cases split : linesFrom (file.length % 2 ^ 32) [] 0 file with
  | none =>
    rw [split] at parsed
    obtain ⟨fault, failed⟩ := parsed
    simp [ParseSafe, failed]
  | some lines =>
    rw [split, Parsed, List.nil_append] at parsed
    by_cases fit : (lines.filterMap parseLine).length ≤
        (splitLines [] (beforeNull file)).length % 2 ^ 32
    · rw [if_pos fit] at parsed
      obtain ⟨b, entries, bound, done, holds⟩ := parsed
      have same := pairsOf holds
      constructor
      · rintro ⟨b', entries', done', right⟩
        obtain ⟨rfl, rfl⟩ := Prod.mk.inj (Except.ok.inj (done.symm.trans done'))
        exact ⟨lines, rfl, fit, fun clean => same.symm.trans (right clean)⟩
      · rintro ⟨lines', split', -, right⟩
        obtain rfl := Option.some_inj.mp split'
        exact ⟨b, entries, done, fun clean => same.trans (right clean)⟩
    · rw [if_neg fit] at parsed
      obtain ⟨fault, failed⟩ := parsed
      constructor
      · rintro ⟨b, entries, done, -⟩
        exact nomatch failed.symm.trans done
      · rintro ⟨lines', split', fit', -⟩
        obtain rfl := Option.some_inj.mp split'
        exact absurd fit' fit

theorem parseSafe_iff (file : CString) : ParseSafe file ↔ EntriesFit file := by
  rw [parseSafe_iff_lines, EntriesFit]
  split
  · rename_i small
    rw [Nat.mod_eq_of_lt small]
    obtain ⟨lines, split, same⟩ := linesFrom_whole (Nat.zero_add file.length).symm
    constructor
    · rintro ⟨lines', split', fit, -⟩
      obtain rfl := Option.some_inj.mp (split.symm.trans split')
      rwa [← same]
    · intro fit
      refine ⟨lines, split, same ▸ fit, fun clean => ?_⟩
      rw [same, splitAll_eq_splitLines clean, parseVeritySummary]
  · exact Iff.rfl

/-- A file of less than 4 GiB without a byte 0 is parsed as its text is. -/
theorem parseSafe_of_clean {file : CString} (small : file.length < 2 ^ 32)
    (clean : '\x00' ∉ file) : ParseSafe file := by
  have bound := splitLines_add_pairs_le clean
  have fewer : ((splitLines [] file).filterMap parseLine).length ≤ (splitLines [] file).length :=
    List.length_filterMap_le ..
  rw [parseSafe_iff, EntriesFit, if_pos small, splitAll_eq_splitLines clean,
    beforeNull_eq_self clean]
  by_cases wraps : (splitLines [] file).length < 2 ^ 32
  · rwa [Nat.mod_eq_of_lt wraps]
  · omega

theorem parseSafe_of_clean_entry : ParseSafe "root_hash=0a\r\n".toList :=
  parseSafe_of_clean (by decide) (by decide)

end Summary

end MetaFilogic.FdtPatch
