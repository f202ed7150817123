import MetaFilogic.FdtPatch.Words

/-!
# How the command line is written

`merge_bootargs` writes the old items with their own value or a new one, and the new pairs that no
item took, with one space between each two.
-/

namespace MetaFilogic.FdtPatch

theorem text_unquoted (name value : CString) :
    KvPair.text { name := name, value := some value } = name ++ '=' :: value := by
  simp [KvPair.text]

theorem text_quoted (name value : CString) :
    KvPair.text { name := name, value := some value, quotedValue := true } =
      name ++ '=' :: '"' :: (value ++ ['"']) :=
  rfl

def overwritten (newPairs : List KvPair) (item : KvPair) : CString :=
  match kvpairFind newPairs item.name with
  | some kvp => KvPair.text { item with value := kvp.value, quotedValue := kvp.quotedValue }
  | none => item.text

theorem overwritten_markDeleted (name : CString) (newPairs : List KvPair) (item : KvPair) :
    overwritten (markDeleted name newPairs) item = overwritten newPairs item := by
  suffices found : (kvpairFind (markDeleted name newPairs) item.name).map
        (fun kvp => (kvp.value, kvp.quotedValue)) =
      (kvpairFind newPairs item.name).map fun kvp => (kvp.value, kvp.quotedValue) by
    unfold overwritten
    cases before : kvpairFind newPairs item.name with
    | none =>
      rw [before] at found
      rw [Option.map_eq_none_iff.mp found]
    | some kvp =>
      rw [before] at found
      obtain ⟨kvp', after, same⟩ := Option.map_eq_some_iff.mp found
      obtain ⟨value, quoted⟩ := Prod.mk.inj same
      simp only [after, value, quoted]
  induction newPairs with
  | nil => rfl
  | cons pair pairs ih =>
    rw [markDeleted]
    split
    · simp only [kvpairFind, List.find?_cons]
      cases decide (pair.name = item.name) <;> rfl
    · simp only [kvpairFind, List.find?_cons] at ih ⊢
      cases decide (pair.name = item.name)
      · exact ih
      · rfl

variable {newPairs : List KvPair}

theorem markDeleted_of_none {name : CString} (none : kvpairFind newPairs name = none) :
    markDeleted name newPairs = newPairs := by
  induction newPairs with
  | nil => rfl
  | cons pair pairs ih =>
    rw [kvpairFind, List.find?_cons] at none
    split at none
    · exact absurd none (Option.some_ne_none pair)
    · next other =>
        rw [markDeleted, if_neg (of_decide_eq_false other), ih none]

theorem mergeExisted_eq (newPairs items : List KvPair) :
    mergeExisted newPairs items =
      (items.flatMap fun item => overwritten newPairs item ++ [' '],
        items.foldl (fun pairs item => markDeleted item.name pairs) newPairs) := by
  induction items generalizing newPairs with
  | nil => rfl
  | cons item items ih =>
    rw [mergeExisted, List.flatMap_cons, List.foldl_cons]
    cases found : kvpairFind newPairs item.name with
    | none =>
      simp only [ih, markDeleted_of_none found]
      simp [overwritten, found]
    | some kvp =>
      simp only [ih, overwritten_markDeleted]
      simp [overwritten, found, KvPair.text]

def hasItem (items : List KvPair) (name : CString) : Bool :=
  items.any fun item => item.name = name

def KvPair.mark (items : List KvPair) (pair : KvPair) : KvPair :=
  { pair with deleted := pair.deleted || hasItem items pair.name }

theorem markDeleted_eq (distinct : (newPairs.map KvPair.name).Nodup) (item : KvPair) :
    markDeleted item.name newPairs = newPairs.map (KvPair.mark [item]) := by
  induction newPairs with
  | nil => rfl
  | cons pair pairs ih =>
    rw [List.map_cons, List.nodup_cons] at distinct
    rw [markDeleted, List.map_cons]
    by_cases same : pair.name = item.name
    · have rest : pairs.map (KvPair.mark [item]) = pairs := by
        refine (List.map_congr_left fun other member => ?_).trans (List.map_id pairs)
        have differs : item.name ≠ other.name := fun named =>
          distinct.1 (same.trans named ▸ List.mem_map_of_mem member)
        simp [KvPair.mark, hasItem, differs]
      rw [if_pos same, rest]
      simp [KvPair.mark, hasItem, same]
    · rw [if_neg same, ih distinct.2]
      simp [KvPair.mark, hasItem, Ne.symm same]

theorem foldl_markDeleted (distinct : (newPairs.map KvPair.name).Nodup) (items : List KvPair) :
    items.foldl (fun pairs item => markDeleted item.name pairs) newPairs =
      newPairs.map (KvPair.mark items) := by
  induction items generalizing newPairs with
  | nil =>
    refine ((List.map_congr_left fun pair _ => ?_).trans (List.map_id newPairs)).symm
    simp [KvPair.mark, hasItem]
  | cons item items ih =>
    have names : (newPairs.map (KvPair.mark [item])).map KvPair.name =
        newPairs.map KvPair.name := by
      rw [List.map_map]
      rfl
    rw [List.foldl_cons, markDeleted_eq distinct, ih (names ▸ distinct), List.map_map]
    refine List.map_congr_left fun pair _ => ?_
    simp [KvPair.mark, hasItem, Bool.or_assoc]

def newWords (newPairs items : List KvPair) : List CString :=
  (newPairs.filter fun pair => !hasItem items pair.name).map KvPair.text

theorem mergeNew_mark (fresh : ∀ pair ∈ newPairs, pair.deleted = false) (items : List KvPair) :
    mergeNew (newPairs.map (KvPair.mark items)) =
      (newWords newPairs items).flatMap fun word => word ++ [' '] := by
  have same : ∀ pair ∈ newPairs,
      (!(pair.mark items).deleted) = !hasItem items pair.name := fun pair member => by
    rw [KvPair.mark, fresh pair member, Bool.false_or]
  rw [mergeNew, newWords, List.flatMap_map, List.filter_map, List.flatMap_map]
  exact congrArg (List.flatMap _) (List.filter_congr same)

theorem dropLast_flatMap (ws : List CString) :
    (ws.flatMap fun word => word ++ [' ']).dropLast = [' '].intercalate ws := by
  induction ws with
  | nil => rfl
  | cons word ws ih =>
    cases ws with
    | nil => simp
    | cons next ws =>
      rw [List.intercalate_cons_cons, ← ih, List.flatMap_cons,
        List.dropLast_append_of_ne_nil (by simp)]

theorem mergeBootargs_eq (distinct : (newPairs.map KvPair.name).Nodup)
    (fresh : ∀ pair ∈ newPairs, pair.deleted = false) (items : List KvPair) :
    mergeBootargs items newPairs =
      [' '].intercalate (items.map (overwritten newPairs) ++ newWords newPairs items) := by
  rw [mergeBootargs, mergeExisted_eq]
  simp only [foldl_markDeleted distinct, mergeNew_mark fresh]
  rw [← dropLast_flatMap, List.flatMap_append, List.flatMap_map]

end MetaFilogic.FdtPatch
