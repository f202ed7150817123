import MetaFilogic.FdtPatch.Args
import MetaFilogic.Library.CBuffer

/-!
# The buffers of the tool

The summary is split in the buffer that holds the file, and its lines go into a table that is
allocated before; the new `bootargs` are written into a buffer of an estimated size.
-/

namespace MetaFilogic.FdtPatch

open CBuffer

/-! ## The summary -/

def isCrlf (c : Char) : Bool := c = '\r' ∨ c = '\n'

def isBlank (c : Char) : Bool := c = ' ' ∨ c = '\t'

def readFile (file : List Char) : Buffer := ⟨fun i => file.getD i '\x00', file.length⟩

section Loops

variable (b : Buffer)

def strcrlf (str : Nat) : Except Fault (Option Nat) := b.find isCrlf (b.last + 2) str

def ltrimAt (str : Nat) : Except Fault Nat := b.skip isBlank (b.last + 2) str

def strchr (s : Nat) (c : Char) : Except Fault (Option Nat) := b.find (· = c) (b.last + 2) s

def rtrimLen (b : Buffer) (str : Nat) : Nat → Except Fault Buffer
  | 0 => .ok b
  | len + 1 => do
    let c ← b.load (str + len)
    if isBlank c then
      let b ← b.store (str + len) '\x00'
      rtrimLen b str len
    else return b

def afterLine (pcrlf : Nat) : Except Fault Nat := do
  let first ← b.load pcrlf
  if first = '\r' then
    let second ← b.load (pcrlf + 1)
    return if second = '\n' then pcrlf + 2 else pcrlf + 1
  else return pcrlf + 1

/-- The first step of `parse_verity_summary`: the lines are counted. -/
def countLines : Nat → Nat → Nat → Except Fault Nat
  | 0, _, _ => .error .endless
  | fuel + 1, ptr, lines => do
    match ← strcrlf b ptr with
    | none => return lines
    | some pcrlf =>
      let ptr ← afterLine b pcrlf
      countLines fuel ptr (lines + 1)

/-- A line is split off: its end and what follows it.  Where there is neither an end of a line nor
a byte 0, the null pointer is followed. -/
def splitLine (summaryLen : Nat) (b : Buffer) (ptr : Nat) :
    Except Fault (Buffer × Nat × Nat) := do
  match ← strcrlf b ptr with
  | some peol =>
    let pcrlf ← afterLine b peol
    let b ← b.store peol '\x00'
    return (b, peol, pcrlf)
  | none =>
    match ← b.findNull (summaryLen - ptr + 1) ptr with
    | some peol => return (b, peol, peol + 1)
    | none => throw .outside

/-- The key and the value of a line, when it has a `:`. -/
def parseLineAt (b : Buffer) (ptr peol : Nat) : Except Fault (Buffer × Option (Nat × Nat)) := do
  let pkey ← ltrimAt b ptr
  match ← strchr b pkey ':' with
  | none => return (b, none)
  | some psep =>
    let b ← b.store psep '\x00'
    let b ← rtrimLen b pkey (psep - pkey)
    let value ← ltrimAt b (psep + 1)
    let b ← rtrimLen b value (peol - value)
    return (b, some (pkey, value))

/-- An entry of `summary_lines`, of which so many are allocated. -/
def addEntry (allocated : Nat) (entries : List (Nat × Nat)) :
    Option (Nat × Nat) → Except Fault (List (Nat × Nat))
  | none => .ok entries
  | some entry => if entries.length < allocated then .ok (entries ++ [entry]) else .error .full

/-- The second step of `parse_verity_summary`. -/
def parseLines (allocated summaryLen : Nat) :
    Nat → Buffer → Nat → List (Nat × Nat) → Except Fault (Buffer × List (Nat × Nat))
  | 0, _, _, _ => .error .endless
  | fuel + 1, b, ptr, entries => do
    let (b, peol, pcrlf) ← splitLine summaryLen b ptr
    let (b, entry) ← parseLineAt b ptr peol
    let entries ← addEntry allocated entries entry
    if summaryLen ≤ pcrlf then return (b, entries)
    else parseLines allocated summaryLen fuel b pcrlf entries

end Loops

/-- `parse_verity_summary()`, when its allocation succeeds; `lines` and `summary_len` have 32
bits. -/
def parseSummaryBuffer (file : List Char) : Except Fault (Buffer × List (Nat × Nat)) := do
  let b := readFile file
  let lines ← countLines b (b.last + 2) 0 1
  parseLines (lines % 2 ^ 32) (file.length % 2 ^ 32) (b.last + 2) b 0 []

/-- An entry of `summary_lines`. -/
def entryPair (b : Buffer) (entry : Nat × Nat) : KvPair :=
  { name := b.string entry.1, value := some (b.string entry.2) }

/-! ## The new `bootargs` -/

structure Writer where
  byte : Nat → Char
  size : Nat
  p : Nat

/-- `*p++ = c` -/
def Writer.put (c : Char) (w : Writer) : Except Fault Writer :=
  if w.p < w.size then .ok { w with byte := Function.update w.byte w.p c, p := w.p + 1 }
  else .error .outside

def strconcat : CString → Writer → Except Fault Writer
  | [], w => .ok w
  | c :: src, w => do
    let w ← w.put c
    strconcat src w

def putPair (name : CString) (val : Option CString) (quoted : Bool) (w : Writer) :
    Except Fault Writer := do
  let w ← strconcat name w
  let w ← match val with
    | none => pure w
    | some val => do
      let w ← w.put '='
      let w ← if quoted then w.put '"' else pure w
      let w ← strconcat val w
      if quoted then w.put '"' else pure w
  w.put ' '

def estimatePair (pair : KvPair) : Nat := pair.name.length + (pair.value.getD []).length + 4

def estimate (items newPairs : List KvPair) : Nat :=
  (items.map estimatePair).sum + (newPairs.map estimatePair).sum

def putExisted : List KvPair → List KvPair → Writer → Except Fault (List KvPair × Writer)
  | [], newPairs, w => .ok (newPairs, w)
  | item :: items, newPairs, w => do
    match kvpairFind newPairs item.name with
    | some kvp =>
      let w ← putPair item.name kvp.value kvp.quotedValue w
      putExisted items (markDeleted item.name newPairs) w
    | none =>
      let w ← putPair item.name item.value item.quotedValue w
      putExisted items newPairs w

def putNew : List KvPair → Writer → Except Fault Writer
  | [], w => .ok w
  | pair :: newPairs, w => do
    if pair.deleted then putNew newPairs w
    else
      let w ← putPair pair.name pair.value pair.quotedValue w
      putNew newPairs w

/-- `p[-1] = 0` -/
def Writer.finish (w : Writer) : Except Fault Writer :=
  if 0 < w.p then .ok { w with byte := Function.update w.byte (w.p - 1) '\x00' }
  else .error .outside

/-- `merge_bootargs(new_pairs, num)`, when its allocation succeeds; `len` has 32 bits. -/
def mergeBootargsBuffer (items newPairs : List KvPair) : Except Fault Writer := do
  let w : Writer := ⟨fun _ => '\x00', (estimate items newPairs + 1) % 2 ^ 32, 0⟩
  let (newPairs, w) ← putExisted items newPairs w
  let w ← putNew newPairs w
  w.finish

end MetaFilogic.FdtPatch
