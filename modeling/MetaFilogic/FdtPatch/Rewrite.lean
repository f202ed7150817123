import MetaFilogic.FdtPatch.Respell

/-!
# What the rewritten command line says

The rewritten command line has the arguments of the old one, and behind them the table and the
device to wait for, exactly as long as the quotes stand at the ends of the values.
-/

namespace MetaFilogic.FdtPatch

open Quoted (Whole Plain Writes Stands SpaceLed quotedAfter)

def rootParam : CString := "root".toList

def createParam : CString := "dm-mod.create".toList

def waitforParam : CString := "dm-mod.waitfor".toList

def rootWord : CString :=
  rootParam ++ '=' :: "/dev/dm-0".toList

def createWord (table : DmTable) : CString :=
  createParam ++ '=' :: '"' :: (table.dmstr ++ ['"'])

def waitforWord (table : DmTable) : CString :=
  waitforParam ++ '=' :: table.rootdev

def Arg.patched (arg : Arg) : Arg :=
  if arg.param = rootParam then { arg with value := some "/dev/dm-0".toList } else arg

def patchedArgs (table : DmTable) (bootargs : CString) : List Arg :=
  (args bootargs).map Arg.patched ++
    [⟨createParam, some ('"' :: (table.dmstr ++ ['"']))⟩, ⟨waitforParam, some table.rootdev⟩]

/-- The command line is written so that reading it again gives the same arguments. -/
structure Rereadable (bootargs : CString) (table : DmTable) : Prop where
  root : ∃ arg ∈ args bootargs, arg.param = rootParam
  create : ∀ arg ∈ args bootargs, arg.param ≠ createParam
  waitfor : ∀ arg ∈ args bootargs, arg.param ≠ waitforParam
  /-- A quote is neither in front of a name nor open behind a value, and a value that begins with
  a quote ends with one. -/
  words : ∀ word ∈ words bootargs, (argOf word).param ≠ rootParam →
    Stands isspace '"' word ∧ (argOf word).wellQuoted
  /-- The quotes of the table pair up, and no space is between two pairs. -/
  tableQuotes : Whole isspace '"' true table.dmstr ∧ quotedAfter '"' true table.dmstr = true
  /-- The device has no space outside of quotes. -/
  device : Whole isspace '"' false table.rootdev

def patchedWord (word : CString) : CString :=
  if (argOf word).param = rootParam then rootWord else word

theorem patched_argOf (word : CString) : (argOf word).patched = argOf (patchedWord word) := by
  unfold Arg.patched patchedWord
  split
  · next isRoot =>
      have root : argOf rootWord = ⟨rootParam, some "/dev/dm-0".toList⟩ :=
        argOf_append _ (by decide) (by decide)
      rw [root, ← isRoot]
  · rfl

theorem patchedArgs_eq (table : DmTable) (bootargs : CString) :
    patchedArgs table bootargs =
      ((words bootargs).map patchedWord ++ [createWord table, waitforWord table]).map argOf := by
  have create : argOf (createWord table) = ⟨createParam, some ('"' :: (table.dmstr ++ ['"']))⟩ :=
    argOf_append _ (by decide) (by decide)
  have waitfor : argOf (waitforWord table) = ⟨waitforParam, some table.rootdev⟩ :=
    argOf_append _ (by decide) (by decide)
  rw [patchedArgs, args_eq, List.map_append, List.map_map, List.map_map, List.map_cons,
    List.map_cons, create, waitfor]
  exact congrArg (· ++ _) (List.map_congr_left fun word _ => patched_argOf word)

/-! ### The words that are written -/

theorem overwritten_dmpairs (table : DmTable) (item : KvPair) :
    overwritten (dmpairs table) item =
      if item.name = rootParam then rootWord
      else if item.name = createParam then createWord table
      else if item.name = waitforParam then waitforWord table
      else item.text := by
  have pairs : dmpairs table =
      [{ name := rootParam, value := some "/dev/dm-0".toList },
        { name := createParam, value := some table.dmstr, quotedValue := true },
        { name := waitforParam, value := some table.rootdev }] := rfl
  rw [overwritten, kvpairFind, pairs, List.find?_cons]
  by_cases isRoot : rootParam = item.name
  · rw [if_pos isRoot.symm]
    simp only [isRoot, decide_true]
    rw [← isRoot]
    rfl
  · rw [if_neg (Ne.symm isRoot)]
    simp only [isRoot, decide_false, List.find?_cons]
    by_cases isCreate : createParam = item.name
    · rw [if_pos isCreate.symm]
      simp only [isCreate, decide_true]
      rw [← isCreate]
      rfl
    · rw [if_neg (Ne.symm isCreate)]
      simp only [isCreate, decide_false]
      by_cases isWaitfor : waitforParam = item.name
      · rw [if_pos isWaitfor.symm]
        simp only [isWaitfor, decide_true]
        rw [← isWaitfor]
        exact text_unquoted waitforParam table.rootdev
      · rw [if_neg (Ne.symm isWaitfor)]
        simp only [isWaitfor, decide_false, List.find?_nil]

theorem hasItem_parseBootargs (bootargs name : CString) :
    hasItem (parseBootargs bootargs) name = (args bootargs).any fun arg => arg.param = name := by
  have name_eq : ∀ arg : ArgNext, (parseItem arg).name = arg.arg.param := fun arg => by
    rw [parseItem]
    split
    · split <;> rfl
    · rfl
  simp only [hasItem, parseBootargs, args, List.any_map, Function.comp_def, name_eq]

def oldWords (table : DmTable) (bootargs : CString) : List CString :=
  (parseBootargs bootargs).map (overwritten (dmpairs table))

variable {word rest : CString} {ws news : List CString}

theorem oldWords_of_argNexts {bootargs : CString} (table : DmTable)
    (nexts : argNexts bootargs = argNextOf word rest :: argNexts rest) :
    oldWords table bootargs =
      overwritten (dmpairs table) (parseItem (argNextOf word rest)) :: oldWords table rest := by
  rw [oldWords, parseBootargs, nexts, List.map_cons, List.map_cons]
  rfl

theorem overwritten_parseItem (table : DmTable) (word next : CString) :
    overwritten (dmpairs table) (parseItem (argNextOf word next)) =
      if (argOf word).param = rootParam then rootWord
      else if (argOf word).param = createParam then createWord table
      else if (argOf word).param = waitforParam then waitforWord table
      else (parseItem (argNextOf word next)).text := by
  rw [overwritten_dmpairs, name_parseItem]

theorem behind_ne_quote {quoted : Bool} {next : CString} (ends : scan quoted next = []) :
    next[0]? ≠ some '"' := by
  rcases Quoted.scan_eq_nil.mp ends with rfl | ⟨-, c, rest, rfl, isSpace⟩
  · exact (Option.some_ne_none _).symm
  · intro same
    rw [Option.some.inj same] at isSpace
    exact absurd isSpace (by decide)

theorem intercalate_cons (some : ws ≠ []) (word : CString) :
    [' '].intercalate (word :: ws) = word ++ ' ' :: [' '].intercalate ws := by
  cases ws with
  | nil => exact absurd rfl some
  | cons next ws =>
    rw [List.intercalate_cons_cons, List.append_assoc]
    rfl

theorem rootWord_stands : Stands isspace '"' rootWord := by
  decide

theorem createWord_plain (table : DmTable) : Plain isspace '"' (createWord table) :=
  ⟨'d', _, rfl, by decide, by decide⟩

theorem waitforWord_plain (table : DmTable) : Plain isspace '"' (waitforWord table) :=
  ⟨'d', _, rfl, by decide, by decide⟩

/-! ### A rereadable command line -/

theorem createWord_stands {table : DmTable} :
    Stands isspace '"' (createWord table) ↔
      Whole isspace '"' true table.dmstr ∧ quotedAfter '"' true table.dmstr = true := by
  have opening : createWord table = (createParam ++ ['=', '"']) ++ (table.dmstr ++ ['"']) := by
    simp [createWord]
  have prefixWhole : Whole isspace '"' false (createParam ++ ['=', '"']) := by decide
  have prefixQuoted : quotedAfter '"' false (createParam ++ ['=', '"']) = true := by decide
  have closing : ∀ quoted, Whole isspace '"' quoted ['"'] ∧
      quotedAfter '"' quoted ['"'] = !quoted := by decide
  have whole : Whole isspace '"' false (createWord table) ↔
      Whole isspace '"' true table.dmstr := by
    rw [opening, Quoted.whole_append, prefixQuoted, Quoted.whole_append (s := table.dmstr)]
    exact (and_iff_right prefixWhole).trans (and_iff_left (closing _).1)
  have outside : quotedAfter '"' false (createWord table) =
      !quotedAfter '"' true table.dmstr := by
    rw [opening, Quoted.quotedAfter_append, prefixQuoted, Quoted.quotedAfter_append,
      (closing _).2]
  rw [Stands, whole, outside, Bool.not_eq_false']
  exact and_iff_right (createWord_plain table)

theorem waitforWord_whole {table : DmTable} :
    Whole isspace '"' false (waitforWord table) ↔ Whole isspace '"' false table.rootdev := by
  have opening : waitforWord table = (waitforParam ++ ['=']) ++ table.rootdev := by
    simp [waitforWord]
  have prefixWhole : Whole isspace '"' false (waitforParam ++ ['=']) := by decide
  have prefixQuoted : quotedAfter '"' false (waitforParam ++ ['=']) = false := by decide
  rw [opening, Quoted.whole_append, prefixQuoted]
  exact and_iff_right prefixWhole

theorem words_oldWords {table : DmTable} {bootargs : CString} (reads : Reads ws bootargs)
    (some : news ≠ []) (create : ∀ word ∈ ws, (argOf word).param ≠ createParam)
    (waitfor : ∀ word ∈ ws, (argOf word).param ≠ waitforParam)
    (stands : ∀ word ∈ ws, (argOf word).param ≠ rootParam →
      Stands isspace '"' word ∧ (argOf word).wellQuoted) :
    words ([' '].intercalate (oldWords table bootargs ++ news)) =
      ws.map patchedWord ++ words ([' '].intercalate news) := by
  induction reads with
  | nil nexts =>
    rw [oldWords, parseBootargs, nexts]
    rfl
  | @cons _ word rest ws _ nexts ends _ _ _ ih =>
    rw [List.forall_mem_cons] at create waitfor stands
    have read := ih create.2 waitfor.2 stands.2
    have behind := respelled word (behind_ne_quote ends)
    rw [oldWords_of_argNexts table nexts, List.cons_append, intercalate_cons (by simp [some]),
      overwritten_parseItem, List.map_cons, patchedWord, if_neg create.1, if_neg waitfor.1]
    by_cases isRoot : (argOf word).param = rootParam
    · rw [if_pos isRoot, if_pos isRoot]
      exact (rootWord_stands.words (by decide) _).trans (congrArg _ read)
    · rw [if_neg isRoot, if_neg isRoot, behind.of_wellQuoted (stands.1 isRoot).2]
      exact ((stands.1 isRoot).1.words (by decide) _).trans (congrArg _ read)

/-! ### A command line that was read again -/

/-- If a word is a quote behind `=`, what follows it is read twice, and then a word begins with a
space. -/
private theorem words_copied_ne {table : DmTable} (writes : Writes isspace '"' ws rest)
    (r : CString) (more : List CString) :
    words (rest ++ '"' :: ' ' :: r) ≠ ws.map patchedWord ++ createWord table :: more := by
  have step : ∀ {word rest line : CString} {quoted : Bool} {ws behind : List CString},
      Whole isspace '"' quoted word → scan (quotedAfter '"' quoted word) rest = [] →
      line = word ++ (rest ++ '"' :: ' ' :: r) →
      words (rest ++ '"' :: ' ' :: r) ≠ ws.map patchedWord ++ behind →
      scan quoted line :: words (line.drop (scan quoted line).length) ≠
        (word :: ws).map patchedWord ++ behind := by
    intro word rest line quoted ws behind whole ends line_eq differs read
    obtain ⟨first, read⟩ := List.cons.inj read
    rcases Quoted.scan_eq_nil.mp ends with rfl | ⟨outside, c, tail, rfl, isSpace⟩
    · -- The word ends with the line, so that the quote behind it is read as a part of it.
      have longer : scan quoted line = word ++ '"' ::
          scan (Quoted.turn '"' (quotedAfter '"' quoted word) '"') (' ' :: r) := by
        rw [line_eq, List.nil_append]
        refine (Quoted.scan_append_of_whole _ whole).trans ?_
        rw [Quoted.scan, noSpace]
        rfl
      rw [longer, patchedWord] at first
      split at first
      · have clean : '"' ∉ rootWord := by decide
        exact clean (first ▸ List.mem_append_right word List.mem_cons_self)
      · simpa using congrArg List.length first
    · have same : scan quoted line = word := by
        rw [line_eq]
        refine Quoted.scan_append_eq.mpr ⟨whole, ?_⟩
        rw [outside]
        simp [isSpace]
      rw [same, line_eq, List.drop_left] at read
      exact differs read
  induction writes with
  | nil spaces =>
    have first := Quoted.words_front_quote noSpace spaces (' ' :: r)
    intro read
    rw [show Quoted.words isspace '"' _ = _ from read, List.map_nil, List.nil_append,
      Quoted.scan] at first
    exact absurd (List.cons.inj (List.cons.inj first).1).1 (by decide)
  | @plain gap word rest ws spaces begins whole ends _ ih =>
    have line : gap ++ (word ++ rest) ++ '"' :: ' ' :: r =
        gap ++ (word ++ (rest ++ '"' :: ' ' :: r)) := by
      simp
    have first := Quoted.words_front_plain spaces (begins.append (rest ++ '"' :: ' ' :: r))
    rw [line, show words _ = _ from first]
    exact step whole ends rfl ih
  | @quoted gap word rest ws spaces whole ends _ ih =>
    have line : gap ++ '"' :: (word ++ rest) ++ '"' :: ' ' :: r =
        gap ++ '"' :: (word ++ (rest ++ '"' :: ' ' :: r)) := by
      simp
    have first := Quoted.words_front_quote noSpace spaces (word ++ (rest ++ '"' :: ' ' :: r))
    rw [line, show words _ = _ from first]
    exact step whole ends rfl ih

private theorem read_word {table : DmTable} {quoted : Bool} {more : List CString}
    (begins : Plain isspace '"' ([' '].intercalate news)) (some : news ≠ [])
    (ends : scan (quotedAfter '"' quoted word) rest = []) (opened : word = [] → quoted = true)
    (writes : Writes isspace '"' ws rest)
    (notSpace : ∀ c tail, word = c :: tail → isspace c = false)
    (create : (argOf word).param ≠ createParam)
    (waitfor : (argOf word).param = waitforParam → Stands isspace '"' (waitforWord table))
    (read : words ([' '].intercalate
        (overwritten (dmpairs table) (parseItem (argNextOf word rest)) ::
          (oldWords table rest ++ news))) =
      (word :: ws).map patchedWord ++ createWord table :: more) :
    words ([' '].intercalate (oldWords table rest ++ news)) =
        ws.map patchedWord ++ createWord table :: more ∧
      ((argOf word).param ≠ rootParam → (argOf word).param ≠ waitforParam →
        Stands isspace '"' word ∧ (argOf word).wellQuoted) := by
  rw [intercalate_cons (by simp [some]), overwritten_parseItem, List.map_cons, List.cons_append,
    patchedWord, if_neg create] at read
  by_cases isRoot : (argOf word).param = rootParam
  · rw [if_pos isRoot, if_pos isRoot,
      show words _ = _ from rootWord_stands.words (by decide) _] at read
    exact ⟨(List.cons.inj read).2, fun notRoot => absurd isRoot notRoot⟩
  rw [if_neg isRoot, if_neg isRoot] at read
  by_cases isWaitfor : (argOf word).param = waitforParam
  · rw [if_pos isWaitfor, show words _ = _ from (waitfor isWaitfor).words (by decide) _] at read
    exact ⟨(List.cons.inj read).2, fun _ notWaitfor => absurd isWaitfor notWaitfor⟩
  rw [if_neg isWaitfor] at read
  have behind := respelled word (behind_ne_quote ends)
  have empty : word = [] →
      Plain isspace '"' ([' '].intercalate (oldWords table rest ++ news)) := by
    intro nothing
    rw [nothing, quotedAfter, opened nothing] at ends
    obtain rfl : rest = [] := by
      rcases Quoted.scan_eq_nil.mp ends with none | ⟨outside, -⟩
      · exact none
      · exact absurd outside Bool.true_eq_false.mp
    rw [oldWords, parseBootargs, argNexts_nil fun _ member => absurd member List.not_mem_nil]
    exact begins
  rcases behind.read notSpace empty read with ⟨same, stands, wellQuoted⟩ | copied
  · rw [same, show words _ = _ from stands.words (by decide) _] at read
    exact ⟨(List.cons.inj read).2, fun _ _ => ⟨stands, wellQuoted⟩⟩
  · exact absurd copied (words_copied_ne writes _ more)

theorem stands_of_oldWords {table : DmTable} {bootargs : CString} (reads : Reads ws bootargs)
    {more : List CString} (begins : Plain isspace '"' ([' '].intercalate news))
    (led : ¬SpaceLed isspace ws) (create : ∀ word ∈ ws, (argOf word).param ≠ createParam)
    (waitfor : (∃ word ∈ ws, (argOf word).param = waitforParam) →
      Stands isspace '"' (waitforWord table))
    (read : words ([' '].intercalate (oldWords table bootargs ++ news)) =
      ws.map patchedWord ++ createWord table :: more) :
    words ([' '].intercalate news) = createWord table :: more ∧
      ∀ word ∈ ws, (argOf word).param ≠ rootParam → (argOf word).param ≠ waitforParam →
        Stands isspace '"' word ∧ (argOf word).wellQuoted := by
  have some : news ≠ [] := by
    rintro rfl
    obtain ⟨c, rest, same, -⟩ := begins
    exact List.cons_ne_nil c rest same.symm
  induction reads with
  | nil nexts =>
    rw [oldWords, parseBootargs, nexts] at read
    exact ⟨read, nofun⟩
  | @cons _ word rest ws _ nexts ends opened writes _ ih =>
    rw [oldWords_of_argNexts table nexts] at read
    rw [List.forall_mem_cons] at create
    have notSpace : ∀ c tail, word = c :: tail → isspace c = false := fun c tail same =>
      Bool.eq_false_iff.mpr fun isSpace =>
        led ⟨word, List.mem_cons_self, c, tail, same, isSpace⟩
    obtain ⟨readRest, first⟩ := read_word begins some ends opened writes notSpace create.1
      (fun named => waitfor ⟨word, List.mem_cons_self, named⟩) read
    obtain ⟨tail, others⟩ := ih
      (fun ⟨other, member, space⟩ => led ⟨other, List.mem_cons_of_mem word member, space⟩)
      create.2
      (fun ⟨other, member, named⟩ => waitfor ⟨other, List.mem_cons_of_mem word member, named⟩)
      readRest
    exact ⟨tail, List.forall_mem_cons.mpr ⟨first, others⟩⟩

theorem newWords_dmpairs (table : DmTable) {items : List KvPair}
    (create : hasItem items createParam = false) :
    newWords (dmpairs table) items =
      (if hasItem items rootParam then [] else [rootWord]) ++
        createWord table :: if hasItem items waitforParam then [] else [waitforWord table] := by
  have root : KvPair.text { name := rootParam, value := some "/dev/dm-0".toList } = rootWord :=
    text_unquoted rootParam _
  have waitfor : KvPair.text { name := waitforParam, value := some table.rootdev } =
      waitforWord table := text_unquoted waitforParam _
  have pairs : dmpairs table =
      [{ name := rootParam, value := some "/dev/dm-0".toList },
        { name := createParam, value := some table.dmstr, quotedValue := true },
        { name := waitforParam, value := some table.rootdev }] := rfl
  rw [newWords, pairs]
  cases hasRoot : hasItem items rootParam <;> cases hasWaitfor : hasItem items waitforParam <;>
    simp only [List.filter_cons, List.filter_nil, create, hasRoot, hasWaitfor, Bool.not_true,
      Bool.not_false, if_true, Bool.false_eq_true, if_false, List.map_cons, List.map_nil, root,
      waitfor, text_quoted, createWord, List.nil_append, List.cons_append]

/-! ### The length of the command line -/

theorem weight_intercalate (some : ws ≠ []) :
    Quoted.weight ws = ([' '].intercalate ws).length + 1 := by
  induction ws with
  | nil => exact absurd rfl some
  | cons word ws ih =>
    by_cases last : ws = []
    · simp [last]
    · rw [intercalate_cons last, Quoted.weight_cons, ih last, List.length_append,
        List.length_cons]
      omega

theorem weight_oldWords {table : DmTable} {bootargs : CString} (reads : Reads ws bootargs)
    (create : ∀ word ∈ ws, (argOf word).param ≠ createParam)
    (waitfor : ∀ word ∈ ws, (argOf word).param ≠ waitforParam)
    (lone : ∀ word ∈ ws, (argOf word).value ≠ some ['"']) :
    Quoted.weight (oldWords table bootargs) = Quoted.weight (ws.map patchedWord) := by
  induction reads with
  | nil nexts =>
    rw [oldWords, parseBootargs, nexts]
    rfl
  | @cons _ word rest ws _ nexts ends _ _ _ ih =>
    rw [List.forall_mem_cons] at create waitfor lone
    rw [oldWords_of_argNexts table nexts, List.map_cons, Quoted.weight_cons, Quoted.weight_cons,
      ih create.2 waitfor.2 lone.2, overwritten_parseItem, patchedWord, if_neg create.1,
      if_neg waitfor.1]
    by_cases isRoot : (argOf word).param = rootParam
    · rw [if_pos isRoot, if_pos isRoot]
    · rw [if_neg isRoot, if_neg isRoot,
        (respelled word (behind_ne_quote ends)).length_eq lone.1]

theorem patchedWord_of_space {c : Char} (begins : word = c :: rest) (isSpace : isspace c = true) :
    patchedWord word = word := by
  refine if_neg fun isRoot => ?_
  rw [argOf_param, begins] at isRoot
  cases length : keylen (c :: rest) with
  | zero =>
    rw [length] at isRoot
    exact absurd isRoot (by decide : ([] : CString) ≠ rootParam)
  | succ n =>
    rw [length, List.take_succ_cons] at isRoot
    rw [(List.cons.inj isRoot).1] at isSpace
    exact absurd isSpace (by decide)

/-- If a name begins with a space, a character is lost between the words, and then they do not all
keep their length. -/
theorem not_spaceLed {table : DmTable} {bootargs new : CString} (line : new =
      [' '].intercalate (oldWords table bootargs ++ [createWord table, waitforWord table]))
    (create : ∀ word ∈ words bootargs, (argOf word).param ≠ createParam)
    (waitfor : ∀ word ∈ words bootargs, (argOf word).param ≠ waitforParam)
    (lone : ∀ word ∈ words bootargs, (argOf word).value ≠ some ['"']) (read : words new =
      (words bootargs).map patchedWord ++ [createWord table, waitforWord table]) :
    ¬SpaceLed isspace (words bootargs) := by
  rintro ⟨word, member, c, rest, begins, isSpace⟩
  have led : SpaceLed isspace (words new) := by
    refine ⟨word, ?_, c, rest, begins, isSpace⟩
    rw [read]
    refine List.mem_append_left _ (List.mem_map.mpr ⟨word, member, ?_⟩)
    exact patchedWord_of_space begins isSpace
  have shorter := Quoted.weight_lt_of_spaceLed noSpace led
  have kept : Quoted.weight (oldWords table bootargs) = _ :=
    weight_oldWords (reads_words bootargs) create waitfor lone
  have some : oldWords table bootargs ++ [createWord table, waitforWord table] ≠ [] := by
    simp
  have all := weight_intercalate some
  rw [← line, Quoted.weight_append, kept, ← Quoted.weight_append, ← read] at all
  exact absurd all (Nat.ne_of_lt shorter)

/-! ### The runs that write the same arguments -/

/-- What the program is for: an accepted command line has no table, and the new one has its
arguments with the new `root`, and behind them the table and the device to wait for. -/
def Faithful (ulongMax : Nat) (veritysummary bootargs : CString) (overrideRoot : Option CString) :
    Prop :=
  ∀ table new,
    assemble ulongMax (parseVeritySummary veritysummary) (parseBootargs bootargs) overrideRoot =
      .ok table →
    main ulongMax veritysummary bootargs overrideRoot = .ok new →
    (∀ arg ∈ args bootargs, arg.param ≠ createParam) ∧ args new = patchedArgs table bootargs

/-- The places where an old word is read again can be found from the front. -/
structure Traceable (bootargs : CString) (table : DmTable) : Prop where
  /-- A device that is written over an old one is read as one word. -/
  waitfor : (∃ arg ∈ args bootargs, arg.param = waitforParam) →
    Stands isspace '"' (waitforWord table)
  /-- If a name begins with a space, all words keep their lengths. -/
  spaces : SpaceLed isspace (words bootargs) →
    (∃ arg ∈ args bootargs, arg.param = rootParam) ∧
      (∀ arg ∈ args bootargs, arg.param ≠ waitforParam) ∧
      ∀ arg ∈ args bootargs, arg.value ≠ some ['"']

section Runs

variable {ulongMax : Nat} {veritysummary bootargs : CString} {overrideRoot : Option CString}
  {table : DmTable}

theorem main_eq
    (accepted : assemble ulongMax (parseVeritySummary veritysummary) (parseBootargs bootargs)
      overrideRoot = .ok table) :
    main ulongMax veritysummary bootargs overrideRoot =
      .ok ([' '].intercalate (oldWords table bootargs ++
        newWords (dmpairs table) (parseBootargs bootargs))) := by
  have distinct : ((dmpairs table).map KvPair.name).Nodup := by
    show ["root".toList, "dm-mod.create".toList, "dm-mod.waitfor".toList].Nodup
    decide
  have fresh : ∀ pair ∈ dmpairs table, pair.deleted = false := by
    simp [dmpairs]
  rw [main, accepted]
  exact congrArg Except.ok (mergeBootargs_eq distinct fresh (parseBootargs bootargs))

theorem args_eq_patchedArgs {new : CString} :
    args new = patchedArgs table bootargs ↔
      words new = (words bootargs).map patchedWord ++ [createWord table, waitforWord table] := by
  rw [args_eq, patchedArgs_eq]
  exact List.map_inj_right argOf_injective

theorem forall_args {p : Arg → Prop} :
    (∀ arg ∈ args bootargs, p arg) ↔ ∀ word ∈ words bootargs, p (argOf word) := by
  rw [args_eq, List.forall_mem_map]

theorem exists_args {p : Arg → Prop} :
    (∃ arg ∈ args bootargs, p arg) ↔ ∃ word ∈ words bootargs, p (argOf word) := by
  simp [args_eq]

theorem hasItem_iff {name : CString} :
    hasItem (parseBootargs bootargs) name = true ↔ ∃ arg ∈ args bootargs, arg.param = name := by
  simp [hasItem_parseBootargs]

theorem hasItem_false_iff {name : CString} :
    hasItem (parseBootargs bootargs) name = false ↔ ∀ arg ∈ args bootargs, arg.param ≠ name := by
  simp [hasItem_parseBootargs]

theorem faithful_of_rereadable
    (accepted : assemble ulongMax (parseVeritySummary veritysummary) (parseBootargs bootargs)
      overrideRoot = .ok table) (rereadable : Rereadable bootargs table) :
    Faithful ulongMax veritysummary bootargs overrideRoot := by
  intro other new accepted' run
  obtain rfl : table = other := Except.ok.inj (accepted.symm.trans accepted')
  refine ⟨rereadable.create, args_eq_patchedArgs.mpr ?_⟩
  have news : newWords (dmpairs table) (parseBootargs bootargs) =
      [createWord table, waitforWord table] := by
    rw [newWords_dmpairs table (hasItem_false_iff.mpr rereadable.create),
      hasItem_iff.mpr rereadable.root, hasItem_false_iff.mpr rereadable.waitfor]
    rfl
  have tail : words ([' '].intercalate [createWord table, waitforWord table]) =
      [createWord table, waitforWord table] := by
    rw [intercalate_cons (List.cons_ne_nil _ _), List.intercalate_singleton]
    refine ((createWord_stands.mpr rereadable.tableQuotes).words (by decide) _).trans ?_
    exact congrArg _ (Quoted.words_of_whole (waitforWord_plain table)
      (waitforWord_whole.mpr rereadable.device))
  rw [← Except.ok.inj ((main_eq accepted).symm.trans run), news,
    words_oldWords (reads_words bootargs) (List.cons_ne_nil _ _) (forall_args.mp rereadable.create)
      (forall_args.mp rereadable.waitfor) rereadable.words, tail]

theorem rereadable_of_faithful
    (accepted : assemble ulongMax (parseVeritySummary veritysummary) (parseBootargs bootargs)
      overrideRoot = .ok table) (traceable : Traceable bootargs table)
    (faithful : Faithful ulongMax veritysummary bootargs overrideRoot) :
    Rereadable bootargs table := by
  obtain ⟨create, same⟩ := faithful table _ accepted (main_eq accepted)
  have read := args_eq_patchedArgs.mp same
  have news := newWords_dmpairs table (hasItem_false_iff.mpr create)
  have begins : Plain isspace '"'
      ([' '].intercalate (newWords (dmpairs table) (parseBootargs bootargs))) := by
    rw [news]
    cases hasItem (parseBootargs bootargs) rootParam
    · exact ⟨'r', _, rfl, by decide, by decide⟩
    · cases hasItem (parseBootargs bootargs) waitforParam
      · exact ⟨'d', _, rfl, by decide, by decide⟩
      · exact ⟨'d', _, rfl, by decide, by decide⟩
  have led : ¬SpaceLed isspace (words bootargs) := by
    intro led
    obtain ⟨root, waitfor, lone⟩ := traceable.spaces led
    rw [hasItem_iff.mpr root, hasItem_false_iff.mpr waitfor] at news
    rw [news] at read
    exact not_spaceLed rfl (forall_args.mp create) (forall_args.mp waitfor)
      (forall_args.mp lone) read led
  obtain ⟨tail, stands⟩ := stands_of_oldWords (reads_words bootargs) begins led
    (forall_args.mp create) (fun named => traceable.waitfor (exists_args.mpr named)) read
  cases root : hasItem (parseBootargs bootargs) rootParam with
  | false =>
    rw [news, root, if_neg Bool.false_ne_true, List.singleton_append,
      intercalate_cons (List.cons_ne_nil _ _),
      show words _ = _ from rootWord_stands.words (by decide) _] at tail
    exact absurd (List.cons.inj (List.cons.inj tail).1).1 (by decide)
  | true =>
    cases waitfor : hasItem (parseBootargs bootargs) waitforParam with
    | true =>
      rw [news, root, waitfor, if_pos rfl, if_pos rfl, List.nil_append,
        List.intercalate_singleton] at tail
      have whole := Quoted.whole_of_words (createWord_plain table) tail
      exact absurd whole.2 (List.cons_ne_nil _ _)
    | false =>
      rw [news, root, waitfor, if_pos rfl, if_neg Bool.false_ne_true, List.nil_append,
        intercalate_cons (List.cons_ne_nil _ _), List.intercalate_singleton] at tail
      have createStands := Quoted.stands_of_words (createWord_plain table) tail
      rw [show words _ = _ from createStands.words (by decide) _] at tail
      have whole := Quoted.whole_of_words (waitforWord_plain table) (List.cons.inj tail).2
      have noWaitfor := hasItem_false_iff.mp waitfor
      exact
        { root := hasItem_iff.mp root
          create := create
          waitfor := noWaitfor
          words := fun word member notRoot =>
            stands word member notRoot (forall_args.mp noWaitfor word member)
          tableQuotes := createWord_stands.mp createStands
          device := waitforWord_whole.mp whole.1 }

end Runs

/-- What `veritysetup format` printed. -/
def printedSummary : CString :=
  ("Data blocks: 4\nData block size: 4096\nHash block size: 4096\nHash algorithm: sha256\n" ++
    "Salt: 5a\nRoot hash: 0b\n").toList

/-- The table for `printedSummary`. -/
def printedTable : DmTable where
  rootdev := "/dev/mmcblk0p7".toList
  dmstr := ("dm-verity,,,ro,0 32 verity 1 /dev/mmcblk0p7 /dev/mmcblk0p7 4096 4096 4 5 sha256 " ++
    "0b 5a").toList

end MetaFilogic.FdtPatch
