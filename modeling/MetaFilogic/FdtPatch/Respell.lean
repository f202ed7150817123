import MetaFilogic.FdtPatch.Merge

/-!
# How an item is written again

A word without a quote at the beginning of its value is written as it was.  Otherwise its last
character is taken for the closing quote.
-/

namespace MetaFilogic.FdtPatch

open Quoted (Whole Plain Writes Stands quotedAfter)

def Arg.wellQuoted (arg : Arg) : Bool :=
  match arg.value with
  | some ('"' :: text) => text.getLast? = some '"'
  | _ => true

theorem name_parseItem (word next : CString) :
    (parseItem (argNextOf word next)).name = (argOf word).param := by
  rw [argOf_param, parseItem]
  split
  · split
    · exact param_argNextOf word next
    · exact param_argNextOf word next
  · exact param_argNextOf word next

variable {word text : CString}

theorem parseItem_name (next : CString) (full : keylen word = word.length) :
    parseItem (argNextOf word next) = { name := word } := by
  have noValue : ¬(argNextOf word next).keylen < (argNextOf word next).len := by
    rw [len_argNextOf]
    exact Nat.not_lt_of_le full.ge
  have name : (argNextOf word next).param.take (argNextOf word next).keylen = word := by
    rw [param_argNextOf, full, List.take_length]
  rw [parseItem, if_neg noValue, name]

section Valued

variable {name value next : CString}

variable (next) in
private theorem valued (length : keylen (name ++ '=' :: value) = name.length) :
    (argNextOf (name ++ '=' :: value) next).keylen < (argNextOf (name ++ '=' :: value) next).len ∧
      (argNextOf (name ++ '=' :: value) next).param.take name.length = name ∧
      (argNextOf (name ++ '=' :: value) next).param[name.length + 1]? = (value ++ next)[0]? := by
  refine ⟨?_, ?_, ?_⟩
  · rw [len_argNextOf, keylen_argNextOf, length, List.length_append, List.length_cons]
    omega
  · simp [argNextOf]
  · rw [argNextOf, List.append_assoc, List.getElem?_append_right (Nat.le_succ _)]
    simp

theorem parseItem_plain (length : keylen (name ++ '=' :: value) = name.length)
    (plain : (value ++ next)[0]? ≠ some '"') :
    parseItem (argNextOf (name ++ '=' :: value) next) = { name := name, value := some value } := by
  obtain ⟨hasValue, named, first⟩ := valued next length
  have text : ((argNextOf (name ++ '=' :: value) next).param.drop (name.length + 1)).take
      ((name ++ '=' :: value).length - name.length - 1) = value := by
    simp [argNextOf]
  rw [parseItem, if_pos hasValue, len_argNextOf, keylen_argNextOf, length, first, if_neg plain,
    named, text]

theorem parseItem_quoted {c : Char}
    (length : keylen (name ++ '=' :: '"' :: (value ++ [c])) = name.length) :
    parseItem (argNextOf (name ++ '=' :: '"' :: (value ++ [c])) next) =
      { name := name, value := some value, quotedValue := true } := by
  obtain ⟨hasValue, named, first⟩ := valued next length
  have text : ((argNextOf (name ++ '=' :: '"' :: (value ++ [c])) next).param.drop
      (name.length + 2)).take ((name ++ '=' :: '"' :: (value ++ [c])).length - name.length - 3) =
        value := by
    simp [argNextOf]
  have enough : ¬(name ++ '=' :: '"' :: (value ++ [c])).length < name.length + 3 := by
    simp
  have isQuote : ('"' :: (value ++ [c]) ++ next)[0]? = some '"' := rfl
  rw [parseItem, if_pos hasValue, len_argNextOf, keylen_argNextOf, length, first, if_pos isQuote,
    named]
  simp only [if_neg enough, text]

theorem parseItem_loneQuote (length : keylen (name ++ ['=', '"']) = name.length) :
    parseItem (argNextOf (name ++ ['=', '"']) next) =
      { name := name, value := some next, quotedValue := true } := by
  obtain ⟨hasValue, named, first⟩ := valued next length
  have text : (argNextOf (name ++ ['=', '"']) next).param.drop (name.length + 2) = next := by
    simp [argNextOf]
  have few : (name ++ ['=', '"']).length < name.length + 3 := by
    simp
  have isQuote : (['"'] ++ next)[0]? = some '"' := rfl
  rw [parseItem, if_pos hasValue, len_argNextOf, keylen_argNextOf, length, first, if_pos isQuote,
    named]
  simp only [if_pos few, text]

end Valued

/-- What is written for a word: the same, the same with a quote at the end, or a quote and the
rest of the command line. -/
inductive Respelled (word next : CString) : CString → Prop
  | same (wellQuoted : (argOf word).wellQuoted) : Respelled word next word
  | closed {name inner : CString} {c : Char} (named : name ≠ [])
      (valued : word = name ++ '=' :: '"' :: (inner ++ [c]))
      (wellQuoted : (argOf word).wellQuoted ↔ c = '"') :
      Respelled word next (name ++ '=' :: '"' :: (inner ++ ['"']))
  | copied {name : CString} (named : name ≠ []) (valued : word = name ++ ['=', '"'])
      (lone : (argOf word).value = some ['"']) :
      Respelled word next (name ++ '=' :: '"' :: (next ++ ['"']))

theorem respelled (word : CString) {next : CString} (behind : next[0]? ≠ some '"') :
    Respelled word next (parseItem (argNextOf word next)).text := by
  rcases keylen_cases word with full | ⟨name, value, rfl, length, named⟩
  · rw [parseItem_name next full]
    refine .same ?_
    simp [Arg.wellQuoted, argOf, full]
  · have arg : argOf (name ++ '=' :: value) = ⟨name, some value⟩ := by
      simp [argOf, length]
    cases value with
    | nil =>
      rw [parseItem_plain length behind, text_unquoted]
      exact .same (by simp [arg, Arg.wellQuoted])
    | cons c value =>
      by_cases quote : c = '"'
      · subst quote
        rcases List.eq_nil_or_concat value with rfl | ⟨inner, c, rfl⟩
        · rw [parseItem_loneQuote length, text_quoted]
          exact .copied named rfl (congrArg Arg.value arg)
        · rw [List.concat_eq_append] at length arg ⊢
          rw [parseItem_quoted length, text_quoted]
          refine .closed named rfl ?_
          simp [arg, Arg.wellQuoted]
      · rw [parseItem_plain length (by simpa using quote), text_unquoted]
        refine .same ?_
        rw [arg, Arg.wellQuoted]
        split
        · next same => exact absurd (List.cons.inj (Option.some.inj same)).1 quote
        · rfl

theorem Respelled.of_wellQuoted {next : CString} (respelled : Respelled word next text)
    (wellQuoted : (argOf word).wellQuoted) : text = word := by
  cases respelled with
  | same _ => rfl
  | closed _ valued quoted => rw [valued, quoted.mp wellQuoted]
  | copied _ _ lone =>
    rw [Arg.wellQuoted, lone] at wellQuoted
    exact absurd wellQuoted Bool.false_ne_true

theorem Respelled.length_eq {next : CString} (respelled : Respelled word next text)
    (valued : (argOf word).value ≠ some ['"']) : text.length = word.length := by
  cases respelled with
  | same _ => rfl
  | closed _ valued _ =>
    rw [valued]
    simp
  | copied _ _ lone => exact absurd lone valued

/-! ### Reading what was written -/

private theorem shifted_ne {c d : Char} (differ : c ≠ d) (text : CString) {rest behind : CString} :
    text ++ c :: rest ≠ d :: (text ++ behind) := by
  induction text generalizing rest behind with
  | nil => exact fun same => differ (List.cons.inj same).1
  | cons first text ih =>
    intro same
    obtain ⟨rfl, tails⟩ := List.cons.inj same
    exact ih tails

private theorem Respelled.ne_quote {next r tail : CString} {more : List CString}
    (respelled : Respelled word next text) (quote : word = '"' :: tail) :
    words (text ++ ' ' :: r) ≠ word :: more := by
  intro read
  suffices parts : ∃ front c rest behind, text ++ ' ' :: r = '"' :: (front ++ c :: rest) ∧
      tail = front ++ behind ∧ c ≠ '"' by
    obtain ⟨front, c, rest, behind, written, rfl, differ⟩ := parts
    have first := Quoted.words_quote noSpace (front ++ c :: rest)
    rw [← written, show Quoted.words isspace '"' _ = _ from read] at first
    have whole := Quoted.scan_append_drop isspace '"' true
      (front ++ c :: rest)
    rw [← (List.cons.inj first).1, quote, List.cons_append, List.append_assoc] at whole
    exact shifted_ne differ front whole.symm
  have split : ∀ {name behind : CString}, name ≠ [] → word = name ++ '=' :: behind →
      ∃ front, name = '"' :: front ∧ tail = front ++ '=' :: behind := by
    intro name behind named valued
    cases name with
    | nil => exact absurd rfl named
    | cons c front =>
      obtain ⟨rfl, same⟩ := List.cons.inj (quote.symm.trans valued)
      exact ⟨front, rfl, same⟩
  cases respelled with
  | same _ => exact ⟨tail, ' ', r, [], by rw [quote]; rfl, (List.append_nil tail).symm, by decide⟩
  | @closed name inner _ named valued _ =>
    obtain ⟨front, rfl, rfl⟩ := split named valued
    exact ⟨front, '=', '"' :: (inner ++ '"' :: ' ' :: r), _, by simp, rfl, by decide⟩
  | @copied name named valued _ =>
    obtain ⟨front, rfl, rfl⟩ := split named valued
    exact ⟨front, '=', '"' :: (next ++ '"' :: ' ' :: r), _, by simp, rfl, by decide⟩

/-- If the word is read again, it was written as it was, or the rest of the command line is read
now. -/
theorem Respelled.read {next r : CString} {more : List CString}
    (respelled : Respelled word next text)
    (notSpace : ∀ c rest, word = c :: rest → isspace c = false)
    (empty : word = [] → Plain isspace '"' r) (read : words (text ++ ' ' :: r) = word :: more) :
    (text = word ∧ Stands isspace '"' word ∧ (argOf word).wellQuoted) ∨
      words (next ++ '"' :: ' ' :: r) = more := by
  cases same : word with
  | nil =>
    have nothing : text = [] := by
      cases respelled with
      | same _ => exact same
      | closed named valued _ => simp [same] at valued
      | copied named valued _ => simp [same] at valued
    have first := Quoted.words_plain (empty same)
    rw [nothing, same, List.nil_append,
      show words _ = _ from Quoted.words_cons_space (by decide) r] at read
    obtain ⟨c, rest, rfl, isChar, notQuote⟩ := empty same
    rw [Quoted.scan_of_plain isChar notQuote] at first
    exact absurd (List.cons.inj (read.symm.trans first)).1 (List.cons_ne_nil _ _).symm
  | cons c tail =>
    by_cases quote : c = '"'
    · exact absurd read (respelled.ne_quote (quote ▸ same))
    · have plain : ∀ {name behind : CString}, name ≠ [] → word = name ++ behind →
          Plain isspace '"' name := by
        intro name behind named parts
        cases name with
        | nil => exact absurd rfl named
        | cons first name =>
          obtain ⟨rfl, -⟩ := List.cons.inj (same.symm.trans parts)
          exact ⟨c, name, rfl, notSpace c tail same, quote⟩
      rw [← same]
      cases respelled with
      | same wellQuoted =>
        have begins := plain (same ▸ List.cons_ne_nil c tail) (List.append_nil word).symm
        exact .inl ⟨rfl, Quoted.stands_of_words begins read, wellQuoted⟩
      | @closed name inner d named valued wellQuoted =>
        have begins := (plain named valued).append ('=' :: '"' :: (inner ++ ['"']))
        have first := Quoted.words_plain (begins.append (' ' :: r))
        rw [show Quoted.words isspace '"' _ = _ from read] at first
        have whole := Quoted.scan_append_drop isspace '"' false
          ((name ++ '=' :: '"' :: (inner ++ ['"'])) ++ ' ' :: r)
        rw [← (List.cons.inj first).1] at whole
        have kept : word = name ++ '=' :: '"' :: (inner ++ ['"']) :=
          (List.append_inj whole (by
            rw [valued]
            simp)).1
        have closing : d = '"' := by
          rw [valued] at kept
          simpa using kept
        rw [← kept] at read begins
        exact .inl ⟨kept.symm, Quoted.stands_of_words begins read, wellQuoted.mpr closing⟩
      | @copied name named valued lone =>
        have begins := plain (same ▸ List.cons_ne_nil c tail) (List.append_nil word).symm
        have written : name ++ '=' :: '"' :: (next ++ ['"']) ++ ' ' :: r =
            word ++ (next ++ '"' :: ' ' :: r) := by
          rw [valued]
          simp
        have first := Quoted.words_plain (begins.append (next ++ '"' :: ' ' :: r))
        rw [← written, show Quoted.words isspace '"' _ = _ from read] at first
        obtain ⟨scanned, rest⟩ := List.cons.inj first
        rw [← scanned, written, List.drop_left] at rest
        exact .inr rest.symm

end MetaFilogic.FdtPatch
