import MetaFilogic.Library.QuotedWords

/-!
# Rewriting the kernel command line for dm-verity

`fdt-patch-dm-verity` takes the summary of `veritysetup` and a device tree, and puts a device-mapper
table into the `bootargs` of the tree.  Reading and writing the files and the tree is not part of
the model: it begins with the two texts and ends with the new `bootargs`.
-/

namespace MetaFilogic.FdtPatch

abbrev CString := List Char

def isspace (c : Char) : Bool :=
  c ∈ [' ', '\t', '\n', '\x0b', '\x0c', '\r']

structure KvPair where
  name : CString
  value : Option CString := none
  quotedValue : Bool := false
  deleted : Bool := false
deriving DecidableEq

def kvpairFind (pairs : List KvPair) (name : CString) : Option KvPair :=
  pairs.find? fun pair => pair.name = name

/-! ### The summary -/

def splitLines (line : CString) : CString → List CString
  | [] => [line.reverse]
  | '\r' :: '\n' :: rest => line.reverse :: splitLines [] rest
  | c :: rest =>
    if c = '\r' ∨ c = '\n' then line.reverse :: splitLines [] rest
    else splitLines (c :: line) rest

def ltrim (str : CString) : CString :=
  str.dropWhile fun c => c = ' ' ∨ c = '\t'

def rtrim (str : CString) : CString :=
  (ltrim str.reverse).reverse

/-- A line without `:` is left out. -/
def parseLine (line : CString) : Option KvPair :=
  let pkey := ltrim line
  match pkey.dropWhile (· ≠ ':') with
  | [] => none
  | _ :: value =>
    some { name := rtrim (pkey.takeWhile (· ≠ ':')), value := some (rtrim (ltrim value)) }

def parseVeritySummary (veritysummary : CString) : List KvPair :=
  (splitLines [] veritysummary).filterMap parseLine

def veritySummaryFind (summaryLines : List KvPair) (name : String) : Option CString :=
  (kvpairFind summaryLines name.toList).bind KvPair.value

/-! ### The arguments -/

def skipSpaces (str : CString) : CString :=
  str.dropWhile isspace

/-- The loop of `get_arg_next`, which ends with `i` and `equals`. -/
def argLoop : CString → Nat → Nat → Bool → Nat × Nat
  | [], i, equals, _ => (i, equals)
  | c :: args, i, equals, inQuote =>
    if isspace c && !inQuote then (i, equals)
    else
      argLoop args (i + 1) (if equals = 0 then if c = '=' then i else equals else equals)
        (if c = '"' then !inQuote else inQuote)

/-- What `get_arg_next` returns: the pointer behind the argument, and where the argument and its
name are. -/
structure ArgNext where
  param : CString
  keylen : Nat
  next : CString
deriving DecidableEq

/-- `n - p` in `parse_bootargs`. -/
def ArgNext.len (arg : ArgNext) : Nat :=
  arg.param.length - arg.next.length

/-- The argument at `args`. -/
def argAt (args : CString) (inQuote : Bool) : ArgNext :=
  let (i, equals) := argLoop args 0 0 inQuote
  { param := args, keylen := if equals ≠ 0 then equals else i, next := args.drop i }

def getArgNext (args : CString) : Option ArgNext :=
  match skipSpaces args with
  | [] => none
  | '"' :: args => some (argAt args true)
  | args => some (argAt args false)

theorem length_skipSpaces (str : CString) : (skipSpaces str).length ≤ str.length :=
  (List.dropWhile_suffix isspace).length_le

theorem le_argLoop (args : CString) (i equals : Nat) (inQuote : Bool) :
    i ≤ (argLoop args i equals inQuote).1 := by
  induction args generalizing i equals inQuote with
  | nil => exact Nat.le_refl i
  | cons c args ih =>
    rw [argLoop]
    split
    · exact Nat.le_refl i
    · exact Nat.le_of_succ_le (ih _ _ _)

/-- The second call of `get_arg_next` has less to read than the first. -/
theorem length_next {args : CString} {arg : ArgNext} (got : getArgNext args = some arg) :
    arg.next.length < args.length := by
  have skipped := length_skipSpaces args
  rw [getArgNext] at got
  split at got
  · exact absurd got (Option.some_ne_none arg).symm
  · next rest begins =>
      rw [← Option.some.inj got]
      rw [begins, List.length_cons] at skipped
      simp only [argAt, List.length_drop]
      omega
  · next str empty _ =>
      rw [← Option.some.inj got]
      cases begins : skipSpaces args with
      | nil => exact absurd begins empty
      | cons c rest =>
        have char : isspace c = false := Quoted.not_of_dropWhile_eq_cons begins
        have moved := le_argLoop rest 1 0 (if c = '"' then true else false)
        rw [begins, List.length_cons] at skipped
        simp only [argAt, argLoop, List.length_drop, List.length_cons, char, Bool.false_and,
          Bool.false_eq_true, if_false, ite_self, Bool.not_false, Nat.zero_add]
        omega

/-- The results of calling `get_arg_next` until it returns `NULL`. -/
def argNexts (args : CString) : List ArgNext :=
  match h : getArgNext args with
  | none => []
  | some arg =>
    have : arg.next.length < args.length := length_next h
    arg :: argNexts arg.next
termination_by args.length

/-- The item of `parse_bootargs` for one argument. -/
def parseItem (arg : ArgNext) : KvPair :=
  let name := arg.param.take arg.keylen
  if arg.keylen < arg.len then
    if arg.param[arg.keylen + 1]? = some '"' then
      let text := arg.param.drop (arg.keylen + 2)
      -- If the value is only one quote, `len - keylen - 3` wraps around to `SIZE_MAX`.
      let value := if arg.len < arg.keylen + 3 then text else text.take (arg.len - arg.keylen - 3)
      { name := name, value := some value, quotedValue := true }
    else
      let value := (arg.param.drop (arg.keylen + 1)).take (arg.len - arg.keylen - 1)
      { name := name, value := some value }
  else { name := name }

def parseBootargs (bootargs : CString) : List KvPair :=
  (argNexts bootargs).map parseItem

def bootargsFind (items : List KvPair) (name : String) : Option CString :=
  (kvpairFind items name.toList).bind KvPair.value

/-- How `merge_bootargs` writes an item, up to the space behind it. -/
def KvPair.text (pair : KvPair) : CString :=
  let quotes := if pair.quotedValue then ['"'] else []
  match pair.value with
  | none => pair.name
  | some val => pair.name ++ '=' :: (quotes ++ (val ++ quotes))

/-- `kvp->deleted = true` for the pair that `kvpair_find` found. -/
def markDeleted (name : CString) : List KvPair → List KvPair
  | [] => []
  | pair :: pairs =>
    if pair.name = name then { pair with deleted := true } :: pairs
    else pair :: markDeleted name pairs

def mergeExisted : List KvPair → List KvPair → CString × List KvPair
  | newPairs, [] => ([], newPairs)
  | newPairs, item :: items =>
    match kvpairFind newPairs item.name with
    | some kvp =>
      let overwritten :=
        { item with value := kvp.value, quotedValue := kvp.quotedValue : KvPair }
      let (str, newPairs) := mergeExisted (markDeleted item.name newPairs) items
      (overwritten.text ++ ' ' :: str, newPairs)
    | none =>
      let (str, newPairs) := mergeExisted newPairs items
      (item.text ++ ' ' :: str, newPairs)

def mergeNew (newPairs : List KvPair) : CString :=
  (newPairs.filter fun pair => !pair.deleted).flatMap fun pair => pair.text ++ [' ']

/-- `p[-1] = 0` takes the last space away. -/
def mergeBootargs (items newPairs : List KvPair) : CString :=
  let (existed, newPairs) := mergeExisted newPairs items
  (existed ++ mergeNew newPairs).dropLast

/-! ### The program -/

def digitValue (c : Char) : Nat :=
  if '0' ≤ c ∧ c ≤ '9' then c.toNat - '0'.toNat
  else if 'a' ≤ c ∧ c ≤ 'z' then c.toNat - 'a'.toNat + 10
  else if 'A' ≤ c ∧ c ≤ 'Z' then c.toNat - 'A'.toNat + 10
  else 36

def numberBase : CString → Nat × CString
  | '0' :: x :: digit :: rest =>
    if (x = 'x' ∨ x = 'X') ∧ digitValue digit < 16 then (16, digit :: rest)
    else (8, x :: digit :: rest)
  | '0' :: rest => (8, rest)
  | rest => (10, rest)

def strtoul (ulongMax : Nat) (str : CString) : Nat :=
  let (negative, str) :=
    match skipSpaces str with
    | '-' :: rest => (true, rest)
    | '+' :: rest => (false, rest)
    | rest => (false, rest)
  let (base, str) := numberBase str
  let digits := str.takeWhile fun c => digitValue c < base
  let value := digits.foldl (fun value c => value * base + digitValue c) 0
  if ulongMax < value then ulongMax
  else if negative then (ulongMax + 1 - value) % (ulongMax + 1)
  else value

/-- `%u` for an `uint32_t`. -/
def formatUnsigned (n : Nat) : CString :=
  Nat.toDigits 10 (n % 2 ^ 32)

/-- The device with the root file system, and the table for `dm-mod.create`. -/
structure DmTable where
  rootdev : CString
  dmstr : CString
deriving DecidableEq

/-- `main` up to the table, with `argv[4]` if there is one, or the exit code. -/
def assemble (ulongMax : Nat) (summaryLines items : List KvPair) (overrideRoot : Option CString) :
    Except Nat DmTable := do
  let rootdev ←
    match bootargsFind items "root" with
    | some rootdev => .ok rootdev
    | none =>
      match overrideRoot with
      | none => .error 6
      | some root =>
        if root = [] ∨ ' ' ∈ root ∨ '\t' ∈ root ∨ '\r' ∈ root ∨ '\n' ∈ root then .error 6
        else .ok root
  if (bootargsFind items "dm-mod.create").isSome then .error 7
  match veritySummaryFind summaryLines "Data blocks",
      veritySummaryFind summaryLines "Data block size",
      veritySummaryFind summaryLines "Hash block size",
      veritySummaryFind summaryLines "Hash algorithm",
      veritySummaryFind summaryLines "Salt", veritySummaryFind summaryLines "Root hash" with
  | some datablocks, some datablockSize, some hashblockSize, some hashAlgo, some salt,
      some rootHash =>
      let datablocksNum := strtoul ulongMax datablocks % 2 ^ 32
      if datablocksNum = ulongMax then .error 9
      else
        .ok
          { rootdev := rootdev
            dmstr :=
              "dm-verity,,,ro,0 ".toList ++ formatUnsigned (datablocksNum * 8) ++
                " verity 1 ".toList ++ rootdev ++ ' ' :: rootdev ++ ' ' :: datablockSize ++
                ' ' :: hashblockSize ++ ' ' :: formatUnsigned datablocksNum ++
                ' ' :: formatUnsigned (datablocksNum + 1) ++ ' ' :: hashAlgo ++
                ' ' :: rootHash ++ ' ' :: salt }
  | _, _, _, _, _, _ => .error 8

def dmpairs (table : DmTable) : List KvPair :=
  [{ name := "root".toList, value := some "/dev/dm-0".toList },
    { name := "dm-mod.create".toList, value := some table.dmstr, quotedValue := true },
    { name := "dm-mod.waitfor".toList, value := some table.rootdev }]

/-- `main` from the summary and the `bootargs` to the new `bootargs`. -/
def main (ulongMax : Nat) (veritysummary bootargs : CString) (overrideRoot : Option CString) :
    Except Nat CString := do
  let items := parseBootargs bootargs
  let table ← assemble ulongMax (parseVeritySummary veritysummary) items overrideRoot
  return mergeBootargs items (dmpairs table)

end MetaFilogic.FdtPatch
