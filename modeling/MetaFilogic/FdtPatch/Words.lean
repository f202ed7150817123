import MetaFilogic.FdtPatch.Args

/-!
# What `get_arg_next` reads

The arguments of a command line are its words, and each word says what the parameter and its value
are.
-/

namespace MetaFilogic.FdtPatch

open Quoted (Whole Plain Writes Stands quotedAfter)

abbrev scan := Quoted.scan isspace '"'

abbrev words := Quoted.words isspace '"'

structure Arg where
  param : CString
  value : Option CString
deriving DecidableEq

def ArgNext.arg (arg : ArgNext) : Arg where
  param := arg.param.take arg.keylen
  value :=
    if arg.keylen < arg.len then
      some ((arg.param.drop (arg.keylen + 1)).take (arg.len - arg.keylen - 1))
    else none

def args (bootargs : CString) : List Arg :=
  (argNexts bootargs).map ArgNext.arg

def Arg.word (arg : Arg) : CString :=
  match arg.value with
  | none => arg.param
  | some value => arg.param ++ '=' :: value

/-! ### The name in a word -/

def equalsIn : CString → Nat → Nat → Nat
  | [], _, equals => equals
  | c :: word, i, equals =>
    equalsIn word (i + 1) (if equals = 0 then if c = '=' then i else equals else equals)

def keylen (word : CString) : Nat :=
  if equalsIn word 0 0 ≠ 0 then equalsIn word 0 0 else word.length

theorem argLoop_eq (args : CString) (i equals : Nat) (inQuote : Bool) :
    argLoop args i equals inQuote =
      (i + (scan inQuote args).length, equalsIn (scan inQuote args) i equals) := by
  induction args generalizing i equals inQuote with
  | nil => rfl
  | cons c args ih =>
    rw [argLoop, scan, Quoted.scan]
    split
    · rfl
    · rw [ih, List.length_cons, equalsIn]
      exact congrArg (·, _) (by
        simp only [Quoted.turn, scan]
        omega)

theorem equalsIn_of_ne_zero (word : CString) (i : Nat) {equals : Nat} (found : equals ≠ 0) :
    equalsIn word i equals = equals := by
  induction word generalizing i with
  | nil => rfl
  | cons c word ih => rw [equalsIn, if_neg found, ih]

theorem equalsIn_zero (word : CString) (i : Nat) :
    equalsIn word i 0 = 0 ∨
      ∃ name value, word = name ++ '=' :: value ∧ equalsIn word i 0 = i + name.length := by
  induction word generalizing i with
  | nil => exact .inl rfl
  | cons c word ih =>
    rw [equalsIn, if_pos rfl]
    by_cases isEquals : c = '=' ∧ i ≠ 0
    · obtain ⟨rfl, positive⟩ := isEquals
      rw [if_pos rfl, equalsIn_of_ne_zero word _ positive]
      exact .inr ⟨[], word, rfl, rfl⟩
    · have still : (if c = '=' then i else 0) = 0 := by
        split
        · next isEqual => exact not_not.mp fun positive => isEquals ⟨isEqual, positive⟩
        · rfl
      rw [still]
      rcases ih (i + 1) with zero | ⟨name, value, rfl, found⟩
      · exact .inl zero
      · refine .inr ⟨c :: name, value, rfl, ?_⟩
        rw [found, List.length_cons]
        omega

theorem keylen_cases (word : CString) :
    keylen word = word.length ∨
      ∃ name value, word = name ++ '=' :: value ∧ keylen word = name.length ∧ name ≠ [] := by
  unfold keylen
  rcases equalsIn_zero word 0 with zero | ⟨name, value, same, found⟩
  · exact .inl (if_neg (not_not.mpr zero))
  · rw [found, Nat.zero_add]
    by_cases empty : name = []
    · rw [empty]
      exact .inl rfl
    · have positive : name.length ≠ 0 := mt List.eq_nil_of_length_eq_zero empty
      rw [if_pos positive]
      exact .inr ⟨name, value, same, rfl, empty⟩

theorem equalsIn_of_notMem (name rest : CString) (i : Nat) (clean : '=' ∉ name) :
    equalsIn (name ++ rest) i 0 = equalsIn rest (i + name.length) 0 := by
  induction name generalizing i with
  | nil => rfl
  | cons c name ih =>
    obtain ⟨notEquals, clean⟩ := not_or.mp (mt List.mem_cons.mpr clean)
    rw [List.cons_append, equalsIn, if_pos rfl, if_neg (Ne.symm notEquals), ih _ clean,
      List.length_cons]
    congr 1
    omega

theorem keylen_append {name : CString} (value : CString) (named : name ≠ [])
    (clean : '=' ∉ name) : keylen (name ++ '=' :: value) = name.length := by
  have positive : name.length ≠ 0 := mt List.eq_nil_of_length_eq_zero named
  have found : equalsIn (name ++ '=' :: value) 0 0 = name.length := by
    rw [equalsIn_of_notMem name _ 0 clean, equalsIn, if_pos rfl, if_pos rfl, Nat.zero_add,
      equalsIn_of_ne_zero value _ positive]
  rw [keylen, found, if_pos positive]

/-! ### Words and arguments -/

/-- What `get_arg_next` returns for a word and the text behind it. -/
def argNextOf (word next : CString) : ArgNext where
  param := word ++ next
  keylen := keylen word
  next := next

def argOf (word : CString) : Arg :=
  if keylen word < word.length then
    ⟨word.take (keylen word), some (word.drop (keylen word + 1))⟩
  else ⟨word, none⟩

theorem keylen_argNextOf (word next : CString) : (argNextOf word next).keylen = keylen word :=
  rfl

theorem len_argNextOf (word next : CString) : (argNextOf word next).len = word.length := by
  simp [ArgNext.len, argNextOf]

theorem keylen_le (word : CString) : keylen word ≤ word.length := by
  rcases keylen_cases word with same | ⟨name, value, rfl, same, -⟩
  · exact same.le
  · rw [same, List.length_append]
    omega

theorem param_argNextOf (word next : CString) :
    (argNextOf word next).param.take (argNextOf word next).keylen = word.take (keylen word) :=
  List.take_append_of_le_length (keylen_le word)

theorem argOf_param (word : CString) : (argOf word).param = word.take (keylen word) := by
  rw [argOf]
  split
  · rfl
  · next full => exact (List.take_of_length_le (Nat.le_of_not_lt full)).symm

theorem arg_argNextOf (word next : CString) : (argNextOf word next).arg = argOf word := by
  rw [ArgNext.arg, param_argNextOf, len_argNextOf, argOf]
  by_cases valued : keylen word < word.length
  · have value : ((word ++ next).drop (keylen word + 1)).take (word.length - keylen word - 1) =
        word.drop (keylen word + 1) := by
      rw [List.drop_append_of_le_length valued]
      exact List.take_left' (by
        rw [List.length_drop]
        omega)
    rw [if_pos valued]
    exact congrArg (Arg.mk _) ((if_pos valued).trans (congrArg some value))
  · rw [if_neg valued, List.take_of_length_le (Nat.le_of_not_lt valued)]
    exact congrArg (Arg.mk _) (if_neg valued)

theorem word_argOf (word : CString) : (argOf word).word = word := by
  rcases keylen_cases word with same | ⟨name, value, rfl, same, -⟩
  · simp [argOf, same, Arg.word]
  · simp [argOf, same, Arg.word]

theorem argOf_injective : Function.Injective argOf := fun first second same => by
  rw [← word_argOf first, same, word_argOf]

theorem argOf_append {name : CString} (value : CString) (named : name ≠ []) (clean : '=' ∉ name) :
    argOf (name ++ '=' :: value) = ⟨name, some value⟩ := by
  have length := keylen_append value named clean
  simp [argOf, length]

variable {rest s gap : CString}

theorem argAt_eq {word : CString} {inQuote : Bool} (scanned : scan inQuote (word ++ rest) = word) :
    argAt (word ++ rest) inQuote = argNextOf word rest := by
  simp only [argAt, argLoop_eq, scanned, Nat.zero_add, List.drop_left, argNextOf, keylen]

theorem noSpace : isspace '"' = false := by
  decide

theorem argNexts_none (got : getArgNext s = none) : argNexts s = [] := by
  rw [argNexts]
  split
  · rfl
  · next arg same => exact absurd (same.symm.trans got) (Option.some_ne_none arg)

theorem argNexts_some {arg : ArgNext} (got : getArgNext s = some arg) :
    argNexts s = arg :: argNexts arg.next := by
  rw [argNexts]
  split
  · next same => exact absurd (same.symm.trans got) (Option.some_ne_none arg).symm
  · next arg' same =>
      obtain rfl := Option.some.inj (same.symm.trans got)
      rfl

theorem argNexts_nil (spaces : ∀ c ∈ gap, isspace c = true) : argNexts gap = [] := by
  refine argNexts_none ?_
  rw [getArgNext, skipSpaces, List.dropWhile_eq_nil_iff.mpr spaces]

theorem argNexts_plain {word : CString} (spaces : ∀ c ∈ gap, isspace c = true)
    (begins : Plain isspace '"' word) (whole : Whole isspace '"' false word)
    (ends : scan (quotedAfter '"' false word) rest = []) :
    argNexts (gap ++ (word ++ rest)) = argNextOf word rest :: argNexts rest := by
  have scanned := argAt_eq (Quoted.scan_append_eq.mpr ⟨whole, ends⟩)
  obtain ⟨c, tail, rfl, isChar, notQuote⟩ := begins
  have front : skipSpaces (gap ++ (c :: tail ++ rest)) = c :: (tail ++ rest) := by
    rw [skipSpaces, List.dropWhile_append_of_pos spaces]
    simp [isChar]
  have got : getArgNext (gap ++ (c :: tail ++ rest)) = some (argNextOf (c :: tail) rest) := by
    rw [getArgNext, front]
    split
    · next same => exact absurd same (List.cons_ne_nil _ _)
    · next same => exact absurd (List.cons.inj same).1 notQuote
    · exact congrArg some scanned
  exact argNexts_some got

theorem argNexts_quoted {word : CString} (spaces : ∀ c ∈ gap, isspace c = true)
    (whole : Whole isspace '"' true word) (ends : scan (quotedAfter '"' true word) rest = []) :
    argNexts (gap ++ '"' :: (word ++ rest)) = argNextOf word rest :: argNexts rest := by
  have scanned := argAt_eq (Quoted.scan_append_eq.mpr ⟨whole, ends⟩)
  have front : skipSpaces (gap ++ '"' :: (word ++ rest)) = '"' :: (word ++ rest) := by
    rw [skipSpaces, List.dropWhile_append_of_pos spaces]
    simp [noSpace]
  have got : getArgNext (gap ++ '"' :: (word ++ rest)) = some (argNextOf word rest) := by
    rw [getArgNext, front]
    exact congrArg some scanned
  exact argNexts_some got

/-- These words are what `get_arg_next` returns for a command line, one after the other. -/
inductive Reads : List CString → CString → Prop
  | nil {s : CString} (nexts : argNexts s = []) : Reads [] s
  | cons {s word rest : CString} {ws : List CString} {quoted : Bool}
      (nexts : argNexts s = argNextOf word rest :: argNexts rest)
      (ends : scan (quotedAfter '"' quoted word) rest = []) (opened : word = [] → quoted = true)
      (writes : Writes isspace '"' ws rest) (more : Reads ws rest) : Reads (word :: ws) s

theorem reads_of_writes {ws : List CString} (writes : Writes isspace '"' ws s) : Reads ws s := by
  induction writes with
  | nil spaces => exact .nil (argNexts_nil spaces)
  | plain spaces begins whole ends writes ih =>
    refine .cons (argNexts_plain spaces begins whole ends) ends (fun empty => ?_) writes ih
    obtain ⟨c, tail, same, -⟩ := begins
    exact absurd (same.symm.trans empty) (List.cons_ne_nil c tail)
  | quoted spaces whole ends writes ih =>
    exact .cons (argNexts_quoted spaces whole ends) ends (fun _ => rfl) writes ih

theorem reads_words (s : CString) : Reads (words s) s :=
  reads_of_writes (Quoted.writes_words isspace '"' s)

/-- `get_arg_next` returns the words of the command line. -/
theorem args_eq (s : CString) : args s = (words s).map argOf := by
  have reads := reads_words s
  rw [args]
  generalize words s = ws at reads ⊢
  induction reads with
  | nil nexts => rw [nexts, List.map_nil, List.map_nil]
  | cons nexts _ _ _ _ ih => rw [nexts, List.map_cons, List.map_cons, ih, arg_argNextOf]

end MetaFilogic.FdtPatch
