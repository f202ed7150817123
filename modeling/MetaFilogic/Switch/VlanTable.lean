import MetaFilogic.Switch.Cli

/-!
# The VLAN table of the switch

The tool writes the words of an entry into two registers and then a command into a third one; an
engine executes the command and is busy meanwhile.  `vlan_dump` reads the entries back.
-/

namespace MetaFilogic.Switch

structure VlanEngine where
  vawd1 : BitVec 32
  vawd2 : BitVec 32
  entry : Nat → BitVec 32 × BitVec 32
  busy : Bool

/-- What the engine does about one command: whether it has come to the end of an earlier one by
then, and whether the reads after the command find it idle. -/
structure Wait where
  ready : Bool
  idle : Nat → Bool

structure Timespec where
  sec : Int
  nsec : Int

/-- `timespec_diff_us(start, end)`, as an `unsigned long` -/
def timespecDiffUs (start stop : Timespec) : Nat :=
  let temp : Timespec :=
    if stop.nsec - start.nsec < 0 then
      ⟨stop.sec - start.sec - 1, 1000000000 + stop.nsec - start.nsec⟩
    else ⟨stop.sec - start.sec, stop.nsec - start.nsec⟩
  ((temp.sec * 1000000 + temp.nsec / 1024) % 2 ^ 64).toNat

/-- A wait of `vlan_clear`, with the time in ns at which the command is issued and the clock as the
loop reads it; the engine becomes idle, or the clock goes on. -/
structure ClearWait extends Wait where
  issued : Nat
  start : Timespec
  clock : Nat → Timespec
  last : Nat
  ends : idle last = true ∨ 1000 < timespecDiffUs start (clock last)

namespace VlanEngine

def command (e : VlanEngine) (ready : Bool) (vtcr : BitVec 32) : VlanEngine :=
  if e.busy = true ∧ ready = false then e
  else
    let vid := (vtcr &&& 0xfff#32).toNat
    if vtcr &&& 0xf000#32 = 0x1000#32 then
      { e with entry := Function.update e.entry vid (e.vawd1, e.vawd2), busy := true }
    else if vtcr &&& 0xf000#32 = 0#32 then
      { e with vawd1 := (e.entry vid).1, vawd2 := (e.entry vid).2, busy := true }
    else { e with busy := true }

def write (ready : Bool) (e : VlanEngine) (w : Write) : VlanEngine :=
  if w.reg = REG_VAWD1_ADDR then { e with vawd1 := w.value }
  else if w.reg = REG_VAWD2_ADDR then { e with vawd2 := w.value }
  else if w.reg = REG_VTCR_ADDR then e.command ready w.value
  else e

/-- Reads of `VTCR` until one finds the engine idle, and whether none has. -/
def poll (idle : Nat → Bool) : Nat → Nat → VlanEngine → VlanEngine × Bool
  | 0, _, e => (e, true)
  | left + 1, i, e =>
    if e.busy = true ∧ idle i = false then poll idle left (i + 1) e
    else ({ e with busy := false }, false)

def vlanSet (r : Run) (wait : Wait) (e : VlanEngine) : VlanEngine × Bool :=
  match r.vlanSet with
  | none => (e, false)
  | some writes => poll wait.idle 300 0 (writes.foldl (write wait.ready) e)

end VlanEngine

/-! ## `vlan_clear` -/

/-- A command to the table and its time, or that the engine was seen idle. -/
inductive ClearEvent where
  | command (time : Nat)
  | idle

/-- The state of `vlan_clear`; the last event comes first in `trace`. -/
structure ClearState where
  engine : VlanEngine
  durationUs : Nat
  timedOut : Bool
  trace : List ClearEvent

namespace ClearState

variable (wait : ClearWait)

def waitIdle : Nat → Nat → ClearState → ClearState
  | 0, _, s => s
  | left + 1, i, s =>
    if 1000 < s.durationUs then s
    else if s.engine.busy = true ∧ wait.idle i = false then
      waitIdle left (i + 1) { s with durationUs := timespecDiffUs wait.start (wait.clock i) }
    else { s with engine := { s.engine with busy := false }, trace := .idle :: s.trace }

def clearEntry (vid : Nat) (s : ClearState) : ClearState :=
  let engine := s.engine.write wait.ready ⟨REG_VAWD1_ADDR, 0#32⟩
  let engine := engine.write wait.ready ⟨REG_VTCR_ADDR, 0x80001000#32 + BitVec.ofNat 32 vid⟩
  let s := { s with engine := engine, trace := .command wait.issued :: s.trace }
  let s := waitIdle wait (wait.last + 2) 0 s
  { s with timedOut := s.timedOut || decide (1000 < s.durationUs) }

def clearFrom (waits : Nat → ClearWait) : Nat → Nat → ClearState → ClearState
  | 0, _, s => s
  | count + 1, vid, s => clearFrom waits count (vid + 1) (clearEntry (waits vid) vid s)

end ClearState

/-- `vlan_clear`; `duration_us` is set to 0 before the loop only. -/
def VlanEngine.vlanClear (waits : Nat → ClearWait) (e : VlanEngine) : ClearState :=
  ClearState.clearFrom waits 4096 0 ⟨e, 0, false, []⟩

/-! ## `vlan_dump` -/

/-- What a line shows of an entry; the last column is there with `egtag`. -/
structure VlanRow where
  vid : Nat
  fid : Nat
  portmap : List Char
  stag : Nat
  egTag : Option (List Char)

inductive DumpLine where
  | timeout
  | entry (row : VlanRow)
  | invalid (vid fid : Nat)

def dumpRow (egTag : Bool) (vid : Nat) (value value2 : BitVec 32) : VlanRow where
  vid := vid
  fid := ((value &&& 0xe#32) >>> 1).toNat
  portmap := (List.range 8).map fun port =>
    if value &&& 0x00010000#32 <<< port ≠ 0#32 then '1' else '-'
  stag := ((value &&& 0xfff0#32) >>> 4).toNat
  egTag :=
    if egTag then
      some (if value &&& 0x3#32 <<< 28 = 0x3#32 <<< 28 then "CONSISTENT".toList
        else if value &&& 0x1#32 <<< 28 ≠ 0#32 then
          (List.range 8).map fun port =>
            Nat.digitChar ((value2 &&& 0x3#32 <<< (2 * port)) >>> (2 * port)).toNat
        else "DISABLED".toList)
    else none

namespace VlanEngine

/-- The body of the loop of `vlan_dump`. -/
def dumpVid (egTag : Bool) (wait : Wait) (vid : Nat) (e : VlanEngine) :
    VlanEngine × List DumpLine :=
  let e := e.write wait.ready ⟨REG_VTCR_ADDR, 0x80000000#32 + BitVec.ofNat 32 vid⟩
  let (e, late) := poll wait.idle 20 0 e
  let lines := if late then [.timeout] else []
  if e.vawd1 &&& 0x1#32 ≠ 0#32 then (e, lines ++ [.entry (dumpRow egTag vid e.vawd1 e.vawd2)])
  else if vid ≤ 16 then (e, lines ++ [.invalid vid ((e.vawd1 &&& 0xe#32) >>> 1).toNat])
  else (e, lines)

def dumpFrom (egTag : Bool) (waits : Nat → Wait) : Nat → Nat → VlanEngine → List DumpLine
  | 0, _, _ => []
  | count + 1, vid, e =>
    let (e, lines) := e.dumpVid egTag (waits vid) vid
    lines ++ dumpFrom egTag waits count (vid + 1) e

def vlanDump (r : Run) (waits : Nat → Wait) (e : VlanEngine) : List DumpLine :=
  e.dumpFrom (r.argv.length = 4 ∧ r.argv[3]? = some "egtag".toList) waits 4094 1

end VlanEngine

/-! ## What they are for -/

inductive Egress where
  | disabled
  | consistent
  | tags (digits : List Nat)

/-- What `vlan_set` is given for a vid. -/
structure VlanEntry where
  fid : Nat
  member : List Nat
  stag : Nat
  egress : Egress

def Egress.text : Egress → List Char
  | disabled => "DISABLED".toList
  | consistent => "CONSISTENT".toList
  | tags digits => (List.range 8).map fun port => Nat.digitChar (digits.getD port 0)

def VlanEntry.row (vid : Nat) (v : VlanEntry) : VlanRow where
  vid := vid
  fid := v.fid
  portmap := (List.range 8).map fun port => if v.member.getD port 0 = 1 then '1' else '-'
  stag := v.stag
  egTag := some v.egress.text

/-- The vid and the entry in the arguments of `vlan_set`, if they are accepted. -/
def Run.given (r : Run) : Option (Nat × VlanEntry) := do
  let fid ← r.ranged 3 0 7
  let vid ← r.ranged 4 0 0xfff
  let member ← r.portDigits 5 '1'
  let stag ← r.optional 6 (r.ranged 6 16 0xfff)
  let egCon ← r.optional 7 r.egCon
  let digits ← r.tagDigits egCon
  let egress :=
    if r.argv.length ≤ 7 then .disabled else if egCon = 0 then .tags digits else .consistent
  return (vid, ⟨fid, member, stag, egress⟩)

inductive VlanCall where
  | set (r : Run) (wait : Wait)
  | clear (waits : Nat → ClearWait)

namespace VlanCall

def run (e : VlanEngine) : VlanCall → VlanEngine × Bool
  | set r wait => e.vlanSet r wait
  | clear waits => ((e.vlanClear waits).engine, (e.vlanClear waits).timedOut)

def runAll (e : VlanEngine) : List VlanCall → VlanEngine × Bool
  | [] => (e, false)
  | call :: calls =>
    let (e, late) := call.run e
    let (e, later) := runAll e calls
    (e, late || later)

def asks (entries : Nat → Option VlanEntry) : VlanCall → Nat → Option VlanEntry
  | set r _ =>
    match r.given with
    | none => entries
    | some (vid, v) => Function.update entries vid (some v)
  | clear _ => fun _ => none

end VlanCall

def listed (lines : List DumpLine) : List VlanRow :=
  lines.filterMap fun
    | .entry row => some row
    | _ => none

def expected (entries : Nat → Option VlanEntry) : List VlanRow :=
  (List.range 4096).filterMap fun vid => (entries vid).map (VlanEntry.row vid)

/-- Between two commands the engine is seen idle, or a millisecond passes. -/
def Spaced : List ClearEvent → Prop
  | .command second :: .command first :: rest =>
    first + 1000000 ≤ second ∧ Spaced (.command first :: rest)
  | _ :: rest => Spaced rest
  | [] => True

def ClearWait.FindsIdle (wait : ClearWait) : Prop :=
  ∃ j, wait.idle j = true ∧ ∀ i < j, timespecDiffUs wait.start (wait.clock i) ≤ 1000

end MetaFilogic.Switch
