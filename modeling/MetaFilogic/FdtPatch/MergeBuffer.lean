import MetaFilogic.FdtPatch.Merge
import MetaFilogic.FdtPatch.SummaryBuffer

/-!
# The new command line in its buffer

The bytes that are written are those of the merged text with its last space.  The estimate has each
value once, and room for two quotes; a new value is written as often as there are items of its name.
-/

namespace MetaFilogic.FdtPatch

open CBuffer

/-! ## Writing -/

section Writing

variable {w w' : Writer} {src src' : CString} {c : Char}

def Writer.text (w : Writer) : CString := (List.range w.p).map w.byte

theorem Writer.put_eq (room : w.p < w.size) : ∃ w', w.put c = .ok w' ∧ w'.size = w.size ∧
    w'.p = w.p + 1 ∧ w'.text = w.text ++ [c] := by
  refine ⟨_, if_pos room, rfl, rfl, ?_⟩
  rw [Writer.text, List.range_succ, List.map_append, List.map_singleton]
  dsimp only
  rw [Function.update_self]
  refine congrArg (· ++ [c]) (List.map_congr_left fun i member => ?_)
  exact Function.update_of_ne (Nat.ne_of_lt (List.mem_range.mp member)) ..

theorem strconcat_append (src src' : CString) :
    strconcat (src ++ src') = fun w => strconcat src w >>= strconcat src' := by
  funext w
  induction src generalizing w with
  | nil => rfl
  | cons c src ih =>
    rw [List.cons_append, strconcat, strconcat]
    cases w.put c with
    | error fault => rfl
    | ok w => exact ih w

theorem strconcat_eq (src : CString) (within : w.p ≤ w.size) :
    if w.p + src.length ≤ w.size then
      ∃ w', strconcat src w = .ok w' ∧ w'.size = w.size ∧ w'.p = w.p + src.length ∧
        w'.text = w.text ++ src
    else strconcat src w = .error .outside := by
  induction src generalizing w with
  | nil =>
    rw [List.length_nil, Nat.add_zero, if_pos within]
    exact ⟨w, rfl, rfl, rfl, (List.append_nil _).symm⟩
  | cons c src ih =>
    rw [List.length_cons]
    by_cases room : w.p < w.size
    · obtain ⟨w₁, done, size, place, text⟩ := Writer.put_eq (c := c) room
      have others := ih (w := w₁) (by omega)
      have run : strconcat (c :: src) w = strconcat src w₁ := by
        rw [strconcat, done]
        rfl
      rw [size, place, text, Nat.add_assoc, Nat.add_comm 1, List.append_assoc] at others
      rw [run]
      exact others
    · rw [if_neg (by omega), strconcat, Writer.put, if_neg room]
      rfl

theorem put_eq_strconcat (c : Char) (w : Writer) : w.put c = strconcat [c] w := by
  rw [strconcat]
  cases w.put c with
  | error fault => rfl
  | ok w => rfl

theorem putPair_eq (pair : KvPair) (w : Writer) :
    putPair pair.name pair.value pair.quotedValue w = strconcat (pair.text ++ [' ']) w := by
  rw [putPair, KvPair.text]
  cases pair.value with
  | none =>
    simp only [strconcat_append, put_eq_strconcat]
    rfl
  | some val =>
    cases pair.quotedValue with
    | false =>
      have parts : pair.name ++ '=' :: (val ++ []) ++ [' '] =
          pair.name ++ (['='] ++ (val ++ [' '])) := by simp
      simp only [put_eq_strconcat, Bool.false_eq_true, if_false, List.nil_append, parts,
        strconcat_append]
      rfl
    | true =>
      have parts : pair.name ++ '=' :: (['"'] ++ (val ++ ['"'])) ++ [' '] =
          pair.name ++ (['='] ++ (['"'] ++ (val ++ (['"'] ++ [' '])))) := by simp
      simp only [put_eq_strconcat, if_true, parts, strconcat_append]

theorem putExisted_eq (items newPairs : List KvPair) (w : Writer) :
    putExisted items newPairs w =
      strconcat (mergeExisted newPairs items).1 w >>=
        fun w => .ok ((mergeExisted newPairs items).2, w) := by
  induction items generalizing newPairs w with
  | nil => rfl
  | cons item items ih =>
    -- A pair is written, and the others behind it.
    have step : ∀ (pair : KvPair) (newPairs : List KvPair),
        (putPair pair.name pair.value pair.quotedValue w >>= putExisted items newPairs) =
          strconcat (pair.text ++ ' ' :: (mergeExisted newPairs items).1) w >>=
            fun w => .ok ((mergeExisted newPairs items).2, w) := by
      intro pair newPairs
      rw [List.append_cons, strconcat_append, putPair_eq, bind_assoc]
      exact congrArg _ (funext fun w => ih newPairs w)
    rw [putExisted, mergeExisted]
    cases kvpairFind newPairs item.name with
    | none => exact step item newPairs
    | some kvp =>
      exact step { item with value := kvp.value, quotedValue := kvp.quotedValue }
        (markDeleted item.name newPairs)

theorem putNew_eq (newPairs : List KvPair) : putNew newPairs = strconcat (mergeNew newPairs) := by
  induction newPairs with
  | nil => rfl
  | cons pair newPairs ih =>
    funext w
    rw [putNew, mergeNew, List.filter_cons]
    by_cases gone : pair.deleted = true
    · rw [if_pos gone, if_neg (by simp [gone]), ih, mergeNew]
    · rw [if_neg gone, if_pos (by simp [gone]), List.flatMap_cons, strconcat_append, putPair_eq, ih,
        mergeNew]

def mergedText (items newPairs : List KvPair) : CString :=
  (mergeExisted newPairs items).1 ++ mergeNew (mergeExisted newPairs items).2

theorem mergeBootargsBuffer_eq (items newPairs : List KvPair) :
    if 0 < (mergedText items newPairs).length ∧
        (mergedText items newPairs).length ≤ (estimate items newPairs + 1) % 2 ^ 32 then
      ∃ w, mergeBootargsBuffer items newPairs = .ok w ∧
        w.text = mergeBootargs items newPairs ++ ['\x00']
    else mergeBootargsBuffer items newPairs = .error .outside := by
  have run : mergeBootargsBuffer items newPairs =
      strconcat (mergedText items newPairs)
        ⟨fun _ => '\x00', (estimate items newPairs + 1) % 2 ^ 32, 0⟩ >>= Writer.finish := by
    rw [mergeBootargsBuffer, mergedText, strconcat_append]
    simp only [putExisted_eq, putNew_eq, bind_assoc]
    rfl
  rw [run]
  generalize empty : (⟨fun _ => '\x00', (estimate items newPairs + 1) % 2 ^ 32, 0⟩ : Writer) = w
  have size : w.size = (estimate items newPairs + 1) % 2 ^ 32 := by rw [← empty]
  have place : w.p = 0 := by rw [← empty]
  have nothing : w.text = [] := by rw [← empty]; rfl
  have written := strconcat_eq (w := w) (mergedText items newPairs) (by omega)
  rw [place, Nat.zero_add, size] at written
  by_cases room : (mergedText items newPairs).length ≤ (estimate items newPairs + 1) % 2 ^ 32
  · rw [if_pos room] at written
    obtain ⟨w₁, done, -, length, text⟩ := written
    rw [nothing, List.nil_append] at text
    rw [done]
    by_cases some_ : 0 < (mergedText items newPairs).length
    · rw [if_pos ⟨some_, room⟩]
      refine ⟨_, if_pos (by omega), ?_⟩
      obtain ⟨last, more⟩ : ∃ last, w₁.p = last + 1 := ⟨w₁.p - 1, by omega⟩
      have front : (List.range last).map w₁.byte = mergeBootargs items newPairs := by
        have whole : mergeBootargs items newPairs = (mergedText items newPairs).dropLast := rfl
        rw [whole, ← text, Writer.text, more, List.range_succ, List.map_append, List.map_singleton,
          List.dropLast_concat]
      rw [Writer.text]
      dsimp only
      rw [more, Nat.add_sub_cancel, List.range_succ, List.map_append, List.map_singleton,
        Function.update_self, ← front]
      refine congrArg (· ++ ['\x00']) (List.map_congr_left fun i member => ?_)
      exact Function.update_of_ne (Nat.ne_of_lt (List.mem_range.mp member)) ..
    · rw [if_neg fun both => some_ both.1]
      exact if_neg (by omega)
  · rw [if_neg room] at written
    rw [written, if_neg fun both => room both.2]
    rfl

end Writing

/-! ## What the estimate leaves -/

/-- The bytes of `=`, a value and its quotes. -/
def valueBytes (val : Option CString) (quoted : Bool) : Nat :=
  match val with
  | none => 0
  | some val => val.length + if quoted then 3 else 1

def unused (pair : KvPair) : Nat :=
  match pair.value with
  | none => 3
  | some _ => if pair.quotedValue then 0 else 2

def grown (newPairs : List KvPair) (item : KvPair) : Nat :=
  match kvpairFind newPairs item.name with
  | none => 0
  | some kvp => valueBytes kvp.value kvp.quotedValue

def spare (newPairs : List KvPair) (item : KvPair) : Nat :=
  match kvpairFind newPairs item.name with
  | none => unused item
  | some _ => (item.value.getD []).length + 3

def taken (items : List KvPair) (before : List CString) (pair : KvPair) : Bool :=
  pair.deleted || (hasItem items pair.name && !decide (pair.name ∈ before))

def spareNew (items : List KvPair) : List CString → List KvPair → Nat
  | _, [] => 0
  | before, pair :: pairs =>
    (if taken items before pair then estimatePair pair else unused pair) +
      spareNew items (pair.name :: before) pairs

/-- There is something to write, and the new values of the items need no more than the estimate
leaves elsewhere and the byte 0; an estimate beyond 32 bits is worth its remainder. -/
def MergeFits (items newPairs : List KvPair) : Prop :=
  (items ≠ [] ∨ ∃ pair ∈ newPairs, pair.deleted = false) ∧
    (items.map (grown newPairs)).sum + 2 ^ 32 * ((estimate items newPairs + 1) / 2 ^ 32) ≤
      1 + ((items.map (spare newPairs)).sum + spareNew items [] newPairs)

def MergeSafe (items newPairs : List KvPair) : Prop :=
  ∃ w, mergeBootargsBuffer items newPairs = .ok w

section Sizes

variable {items newPairs pairs : List KvPair} {before : List CString} {item pair : KvPair}

theorem length_text (pair : KvPair) :
    pair.text.length = pair.name.length + valueBytes pair.value pair.quotedValue := by
  rw [KvPair.text, valueBytes.eq_def]
  cases pair.value with
  | none => rfl
  | some val =>
    cases pair.quotedValue with
    | false => simp
    | true => simp

theorem valueBytes_add_unused (pair : KvPair) :
    valueBytes pair.value pair.quotedValue + unused pair = (pair.value.getD []).length + 3 := by
  rw [valueBytes.eq_def, unused]
  cases pair.value with
  | none => rfl
  | some val =>
    rw [Option.getD_some]
    dsimp only
    split
    · omega
    · omega

theorem length_overwritten (newPairs : List KvPair) (item : KvPair) :
    (overwritten newPairs item).length + 1 + spare newPairs item =
      estimatePair item + grown newPairs item := by
  have own := valueBytes_add_unused item
  rw [overwritten, spare, grown, estimatePair]
  cases kvpairFind newPairs item.name with
  | none =>
    dsimp only
    rw [length_text]
    omega
  | some kvp =>
    dsimp only
    rw [length_text]
    dsimp only
    omega

theorem length_existed (newPairs items : List KvPair) :
    (mergeExisted newPairs items).1.length + (items.map (spare newPairs)).sum =
      (items.map estimatePair).sum + (items.map (grown newPairs)).sum := by
  rw [mergeExisted_eq]
  dsimp only
  induction items with
  | nil => rfl
  | cons item items ih =>
    have one := length_overwritten newPairs item
    rw [List.flatMap_cons, List.length_append, List.length_append, List.length_singleton]
    simp only [List.map_cons, List.sum_cons]
    omega

def markAll (items : List KvPair) : List CString → List KvPair → List KvPair
  | _, [] => []
  | before, pair :: pairs =>
    { pair with deleted := taken items before pair } :: markAll items (pair.name :: before) pairs

theorem taken_snoc_of_mem (old : item.name ∈ before) :
    taken (items ++ [item]) before pair = taken items before pair := by
  by_cases same : item.name = pair.name
  · simp [taken, ← same, old]
  · simp [taken, hasItem, same]

theorem markAll_snoc_of_mem (old : item.name ∈ before) :
    markAll (items ++ [item]) before pairs = markAll items before pairs := by
  induction pairs generalizing before with
  | nil => rfl
  | cons pair pairs ih =>
    rw [markAll, markAll, taken_snoc_of_mem old, ih (List.mem_cons_of_mem _ old)]

theorem markDeleted_markAll (fresh : item.name ∉ before) :
    markDeleted item.name (markAll items before pairs) = markAll (items ++ [item]) before pairs := by
  induction pairs generalizing before with
  | nil => rfl
  | cons pair pairs ih =>
    rw [markAll, markAll, markDeleted]
    by_cases same : pair.name = item.name
    · have marked : taken (items ++ [item]) before pair = true := by
        simp [taken, hasItem, same, fresh]
      rw [if_pos same, marked, same, markAll_snoc_of_mem List.mem_cons_self]
    · have kept : taken (items ++ [item]) before pair = taken items before pair := by
        simp [taken, hasItem, Ne.symm same]
      rw [if_neg same, kept, ih]
      simp [fresh, Ne.symm same]

theorem foldl_markDeleted_eq (items newPairs : List KvPair) :
    items.foldl (fun pairs item => markDeleted item.name pairs) newPairs =
      markAll items [] newPairs := by
  induction items using List.reverseRecOn with
  | nil =>
    have unmarked : ∀ before, markAll [] before newPairs = newPairs := by
      induction newPairs with
      | nil => exact fun _ => rfl
      | cons pair pairs ih =>
        intro before
        rw [markAll, ih]
        simp [taken, hasItem]
    exact (unmarked []).symm
  | append_singleton items item ih =>
    rw [List.foldl_append, ih]
    exact markDeleted_markAll List.not_mem_nil

theorem length_mergeNew (items : List KvPair) (before : List CString) (pairs : List KvPair) :
    (mergeNew (markAll items before pairs)).length + spareNew items before pairs =
      (pairs.map estimatePair).sum := by
  induction pairs generalizing before with
  | nil => rfl
  | cons pair pairs ih =>
    have others := ih (pair.name :: before)
    have own := valueBytes_add_unused pair
    rw [mergeNew] at others
    rw [markAll, mergeNew, List.filter_cons, spareNew, List.map_cons, List.sum_cons]
    by_cases gone : taken items before pair = true
    · rw [if_neg (by simp [gone]), if_pos gone]
      omega
    · have written : KvPair.text { pair with deleted := taken items before pair } = pair.text := rfl
      rw [if_pos (by simp [gone]), if_neg gone, List.flatMap_cons, List.length_append,
        List.length_append, List.length_singleton, written, length_text, estimatePair]
      omega

theorem length_mergedText (items newPairs : List KvPair) :
    (mergedText items newPairs).length +
        ((items.map (spare newPairs)).sum + spareNew items [] newPairs) =
      estimate items newPairs + (items.map (grown newPairs)).sum := by
  have existed := length_existed newPairs items
  have new := length_mergeNew items [] newPairs
  rw [← foldl_markDeleted_eq] at new
  rw [mergedText, List.length_append, estimate]
  have marked : (mergeExisted newPairs items).2 =
      items.foldl (fun pairs item => markDeleted item.name pairs) newPairs := by
    rw [mergeExisted_eq]
  rw [marked]
  omega

theorem mergedText_pos (items newPairs : List KvPair) :
    0 < (mergedText items newPairs).length ↔
      items ≠ [] ∨ ∃ pair ∈ newPairs, pair.deleted = false := by
  rw [mergedText, mergeExisted_eq, List.length_pos_iff]
  cases items with
  | nil => simp [mergeNew]
  | cons item items => simp

end Sizes

/-- `merge_bootargs` stays within its buffer exactly when the new values fit. -/
theorem mergeSafe_iff (items newPairs : List KvPair) :
    MergeSafe items newPairs ↔ MergeFits items newPairs := by
  have run := mergeBootargsBuffer_eq items newPairs
  have length := length_mergedText items newPairs
  rw [MergeFits, ← mergedText_pos]
  split at run
  · rename_i fits
    obtain ⟨w, done, -⟩ := run
    exact ⟨fun _ => ⟨fits.1, by omega⟩, fun _ => ⟨w, done⟩⟩
  · rename_i misfit
    constructor
    · rintro ⟨w, done⟩
      exact nomatch run.symm.trans done
    · rintro ⟨some_, fits⟩
      exact absurd ⟨some_, by omega⟩ misfit

/-- Both functions stay within their buffers exactly under these conditions. -/
theorem buffers_safe_iff (file bootargs : CString) (newPairs : List KvPair) :
    (ParseSafe file ↔ EntriesFit file) ∧
      (MergeSafe (parseBootargs bootargs) newPairs ↔
        MergeFits (parseBootargs bootargs) newPairs) :=
  ⟨parseSafe_iff file, mergeSafe_iff _ _⟩

/-- A byte 0 between two lines hides the second from the count.  Four devices are each replaced by
a longer one. -/
theorem buffers_overrun :
    ¬ParseSafe "a:1\x00b:2".toList ∧
      ¬MergeSafe (parseBootargs "root=a root=a root=a root=a".toList)
        (dmpairs { rootdev := "a".toList, dmstr := "dm-verity,,,ro,0 8 verity 1".toList }) := by
  have items : parseBootargs "root=a root=a root=a root=a".toList =
      List.replicate 4 { name := "root".toList, value := some "a".toList } := by
    have nexts (s : CString) (arg : ArgNext) (got : getArgNext s = some arg) :
        argNexts s = arg :: argNexts arg.next := argNexts_some got
    rw [parseBootargs,
      nexts _ ⟨"root=a root=a root=a root=a".toList, 4, " root=a root=a root=a".toList⟩ (by decide),
      nexts _ ⟨"root=a root=a root=a".toList, 4, " root=a root=a".toList⟩ (by decide),
      nexts _ ⟨"root=a root=a".toList, 4, " root=a".toList⟩ (by decide),
      nexts _ ⟨"root=a".toList, 4, []⟩ (by decide), argNexts_none (by decide)]
    decide
  rw [parseSafe_iff, items, mergeSafe_iff, EntriesFit, MergeFits]
  decide +kernel

end MetaFilogic.FdtPatch
