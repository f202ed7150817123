import MetaFilogic.Library.Steps
import Mathlib.Data.BitVec

/-!
# The list of switches and its lock

A netlink request looks a switch up in the list, under a lock that it gives back when it has
answered.  Switches are added to the list and removed from it under the same lock.
-/

namespace MetaFilogic.Mt753x

open Function (update update_self update_of_ne)

/-! ## Requests -/

def MT753X_CMD_REQUEST : Nat := 1

def MT753X_CMD_READ : Nat := 3

def MT753X_CMD_WRITE : Nat := 4

/-- `enum mt753x_attr` -/
inductive NlAttr where
  | mesg
  | phy
  | devad
  | reg
  | val
  | devName
  | devId
  deriving DecidableEq

structure GenlInfo where
  cmd : Nat
  attrs : NlAttr → Option (BitVec 32)

namespace GenlInfo

variable (info : GenlInfo)

def mt753xNlGetS32 (attr : NlAttr) : Int := ((info.attrs attr).map BitVec.toInt).getD (-1)

/-- What `mt753x_nl_reply_read` and `mt753x_nl_reply_write` do one after the other. -/
inductive ReplyOp where
  | prepareReply
  | access
  | putReg
  | putVal
  | putMesg
  | sendReply
  deriving DecidableEq

def mt753xNlReplyRead : List ReplyOp :=
  if info.mt753xNlGetS32 .reg < 0 then []
  else [.prepareReply, .access, .putReg, .putVal, .sendReply]

def mt753xNlReplyWrite : List ReplyOp :=
  if info.attrs .val = none then []
  else if info.mt753xNlGetS32 .reg < 0 then []
  else [.prepareReply, .access, .putReg, .putVal, .sendReply]

/-- What `mt753x_nl_get_swdevs` does with a list that is not empty. -/
def replySwdevs : List ReplyOp := [.prepareReply, .putMesg, .sendReply]

def mt753xNlCmds : List (Nat × Bool × List NlAttr) :=
  [(MT753X_CMD_REQUEST, false, []), (MT753X_CMD_READ, true, [.reg]),
    (MT753X_CMD_WRITE, true, [.reg, .val])]

def item : Option (Nat × Bool × List NlAttr) :=
  (mt753xNlCmds.find? fun item => item.1 == info.cmd).filter fun item =>
    item.2.2.all fun attr => (info.attrs attr).isSome

def process : List ReplyOp :=
  if info.cmd = MT753X_CMD_READ then info.mt753xNlReplyRead else info.mt753xNlReplyWrite

end GenlInfo

/-! ## The list -/

/-- A switch: `addr` is its `struct gsw_mt753x`. -/
structure GswDev where
  addr : Nat
  id : BitVec 32
  name : String
  node : String
  deriving DecidableEq

/-- The line of a switch in the answer to `MT753X_CMD_REQUEST`. -/
def GswDev.line (gsw : GswDev) : String :=
  "id: " ++ toString gsw.id.toInt ++ ", model: " ++ gsw.name ++ ", node: " ++ gsw.node ++ "\n"

def mt753xNlListDevs (devs : List GswDev) : Nat :=
  (devs.map fun gsw => if gsw.line.utf8ByteSize < 80 then gsw.line.utf8ByteSize else 0).sum

/-- `mt753x_get_gsw(id)` and `mt753x_get_first_gsw()`, between the lock and its release. -/
def mt753xNlParseFindGsw (info : GenlInfo) (devs : List GswDev) : Option GswDev :=
  match info.attrs .devId with
  | none => devs.head?
  | some id => if 0 ≤ id.toInt then devs.find? fun gsw => gsw.id == id else devs.head?

/-! ## Threads -/

inductive NlPhase where
  | idle
  /-- before `mutex_lock` of the lookup -/
  | lookup (info : GenlInfo)
  | find (info : GenlInfo)
  | process (gsw : GswDev) (ops : List GenlInfo.ReplyOp)
  /-- before `mt753x_lock_gsw` -/
  | list
  | listing
  | reply (ops : List GenlInfo.ReplyOp)
  /-- before the `mt753x_put_gsw` of `mt753x_nl_response` -/
  | put
  | add (gsw : GswDev)
  | adding (gsw : GswDev)
  | added
  | remove (addr : Nat)
  | removing (addr : Nat)
  | removed

/-- The list, its lock with its owner, and the threads: `acquired` and `released` count what each
has done with the lock, and `stray` records that a thread has released what it did not hold. -/
structure DevList where
  owner : Option Nat
  devs : List GswDev
  nextId : BitVec 32
  threads : Nat → NlPhase
  acquired : Nat → Nat
  released : Nat → Nat
  stray : Bool

/-- What a thread does next: it takes a request, adds or removes a switch, or goes on; `ok` says
how the call ends that it makes then. -/
inductive NlEvent where
  | request (t : Nat) (info : GenlInfo)
  | addGsw (t : Nat) (gsw : GswDev)
  | removeGsw (t : Nat) (addr : Nat)
  | go (t : Nat) (ok : Bool)

namespace DevList

variable (s : DevList)

def start : DevList := ⟨none, [], 0, fun _ => .idle, fun _ => 0, fun _ => 0, false⟩

def move (t : Nat) (phase : NlPhase) : DevList :=
  { s with threads := update s.threads t phase }

def lock (t : Nat) : Option DevList :=
  if s.owner = none then
    some { s with owner := some t, acquired := update s.acquired t (s.acquired t + 1) }
  else none

def unlock (t : Nat) : DevList :=
  { s with
    owner := none
    released := update s.released t (s.released t + 1)
    stray := s.stray || s.owner != some t }

def response (t : Nat) (info : GenlInfo) : DevList :=
  match info.item with
  | none => s
  | some (_, requireDev, _) => s.move t (if requireDev then .lookup info else .list)

def go (t : Nat) (ok : Bool) : Option DevList :=
  match s.threads t with
  | .idle => none
  | .lookup info => (s.lock t).map fun s => s.move t (.find info)
  | .find info =>
    match mt753xNlParseFindGsw info s.devs with
    | none => some ((s.unlock t).move t .idle)
    | some gsw => some (s.move t (.process gsw info.process))
  | .process _ [] => some (s.move t .put)
  | .process gsw (_ :: ops) => some (s.move t (if ok then .process gsw ops else .put))
  | .list => (s.lock t).map fun s => s.move t .listing
  | .listing =>
    some ((s.unlock t).move t
      (.reply (if mt753xNlListDevs s.devs = 0 then [] else GenlInfo.replySwdevs)))
  | .reply [] => some (s.move t .put)
  | .reply (_ :: ops) => some (s.move t (if ok then .reply ops else .put))
  | .put => some ((s.unlock t).move t .idle)
  | .add gsw => (s.lock t).map fun s => s.move t (.adding gsw)
  | .adding gsw =>
    some ({ s with
      devs := s.devs ++ [{ gsw with id := s.nextId }], nextId := s.nextId + 1 }.move t .added)
  | .added => some ((s.unlock t).move t .idle)
  | .remove addr => (s.lock t).map fun s => s.move t (.removing addr)
  | .removing addr =>
    some ({ s with devs := s.devs.filter fun gsw => gsw.addr != addr }.move t .removed)
  | .removed => some ((s.unlock t).move t .idle)

def step (s : DevList) : NlEvent → Option DevList
  | .request t info =>
    match s.threads t with
    | .idle => some (s.response t info)
    | _ => none
  | .addGsw t gsw =>
    match s.threads t with
    | .idle => some (s.move t (.add gsw))
    | _ => none
  | .removeGsw t addr =>
    match s.threads t with
    | .idle => some (s.move t (.remove addr))
    | _ => none
  | .go t ok => s.go t ok

end DevList

/-! ## The discipline -/

def NlPhase.gsw : NlPhase → Option GswDev
  | .process gsw _ => some gsw
  | _ => none

def NlPhase.holds : NlPhase → Bool
  | .find _ => true
  | .process _ _ => true
  | .put => true
  | .adding _ => true
  | .added => true
  | .removing _ => true
  | .removed => true
  | _ => false

def NlPhase.lists : NlPhase → Bool
  | .list => true
  | .listing => true
  | .reply _ => true
  | _ => false

namespace DevList

variable {s : DevList} {t : Nat}

/-- Threads release the lock when they have it and as often as they have taken it, it is free when
no thread is at work, and the switch a thread works with is in the list. -/
structure Disciplined (s : DevList) : Prop where
  stray : s.stray = false
  balanced : ∀ t, s.threads t = .idle → s.acquired t = s.released t
  free : (∀ t, s.threads t = .idle) → s.owner = none
  member : ∀ t gsw, (s.threads t).gsw = some gsw → gsw ∈ s.devs

structure Locked (s : DevList) : Prop where
  owner : ∀ t, s.owner = some t ↔ (s.threads t).holds = true
  counts : ∀ t, s.acquired t = s.released t + (s.threads t).holds.toNat
  stray : s.stray = false
  member : ∀ t gsw, (s.threads t).gsw = some gsw → gsw ∈ s.devs
  lists : ∀ t, (s.threads t).lists = false

namespace Locked

theorem disciplined (locked : Locked s) : Disciplined s := by
  refine ⟨locked.stray, fun t idle => ?_, fun idle => ?_, locked.member⟩
  · have count := locked.counts t
    rw [idle] at count
    exact count
  · rw [Option.eq_none_iff_forall_ne_some]
    intro t owner
    have holds := (locked.owner t).mp owner
    rw [idle t] at holds
    cases holds

theorem start : Locked start :=
  ⟨fun _ => ⟨nofun, nofun⟩, fun _ => rfl, rfl, nofun, fun _ => rfl⟩

variable {phase : NlPhase}

theorem gsw_holds {gsw : GswDev} (works : phase.gsw = some gsw) : phase.holds = true := by
  cases phase with
  | process _ _ => rfl
  | _ => cases works

theorem move (locked : Locked s) (same : phase.holds = (s.threads t).holds)
    (member : ∀ gsw, phase.gsw = some gsw → gsw ∈ s.devs) (lists : phase.lists = false) :
    Locked (s.move t phase) := by
  have self : (s.move t phase).threads t = phase := update_self ..
  have other : ∀ u, u ≠ t → (s.move t phase).threads u = s.threads u := fun u apart =>
    update_of_ne apart ..
  refine ⟨fun u => ?_, fun u => ?_, locked.stray, fun u gsw works => ?_, fun u => ?_⟩
  all_goals by_cases here : u = t
  · rw [here, self, same]
    exact locked.owner t
  · rw [other u here]
    exact locked.owner u
  · rw [here, self, same]
    exact locked.counts t
  · rw [other u here]
    exact locked.counts u
  · rw [here, self] at works
    exact member gsw works
  · rw [other u here] at works
    exact locked.member u gsw works
  · rw [here, self]
    exact lists
  · rw [other u here]
    exact locked.lists u

theorem lock (locked : Locked s) {s' : DevList} (outside : (s.threads t).holds = false)
    (taken : s.lock t = some s') (holds : phase.holds = true) (gsw : phase.gsw = none)
    (lists : phase.lists = false) : Locked (s'.move t phase) := by
  obtain ⟨free, rfl⟩ := Option.ite_some_none_eq_some.mp taken
  have others : ∀ u, (s.threads u).holds = false := by
    intro u
    rw [Bool.eq_false_iff]
    intro there
    rw [(locked.owner u).mpr there] at free
    cases free
  refine ⟨fun u => ?_, fun u => ?_, locked.stray, fun u g works => ?_, fun u => ?_⟩
  all_goals
    simp only [DevList.move]
    by_cases here : u = t
  · simp [here, holds]
  · rw [update_of_ne here, others u]
    simp [Ne.symm here]
  · have count := locked.counts t
    rw [outside] at count
    rw [here, update_self, update_self, holds, count]
    rfl
  · rw [update_of_ne here, update_of_ne here]
    exact locked.counts u
  · simp only [DevList.move, here, update_self, gsw] at works
    cases works
  · simp only [DevList.move, update_of_ne here] at works
    exact locked.member u g works
  · rw [here, update_self]
    exact lists
  · rw [update_of_ne here]
    exact locked.lists u

theorem unlock (locked : Locked s) (inside : (s.threads t).holds = true) :
    Locked ((s.unlock t).move t .idle) := by
  have owner := (locked.owner t).mpr inside
  have others : ∀ u, u ≠ t → (s.threads u).holds = false := by
    intro u apart
    rw [Bool.eq_false_iff]
    intro there
    have also := (locked.owner u).mpr there
    rw [owner] at also
    exact apart (Option.some_inj.mp also).symm
  refine ⟨fun u => ?_, fun u => ?_, ?_, fun u g works => ?_, fun u => ?_⟩
  · simp only [DevList.move, DevList.unlock]
    by_cases here : u = t
    · simp [here, NlPhase.holds]
    · rw [update_of_ne here, others u here]
      simp
  · simp only [DevList.move, DevList.unlock]
    have count := locked.counts u
    by_cases here : u = t
    · rw [here, inside] at count
      rw [here, update_self, update_self, count]
      rfl
    · rw [update_of_ne here, update_of_ne here]
      exact count
  · simp [DevList.move, DevList.unlock, locked.stray, owner]
  · simp only [DevList.move, DevList.unlock] at works
    by_cases here : u = t
    · rw [here, update_self] at works
      cases works
    · rw [update_of_ne here] at works
      exact locked.member u g works
  · simp only [DevList.move, DevList.unlock]
    by_cases here : u = t
    · rw [here, update_self]
      rfl
    · rw [update_of_ne here]
      exact locked.lists u

theorem change (locked : Locked s) (inside : (s.threads t).holds = true)
    (none : (s.threads t).gsw = none) (devs : List GswDev) (nextId : BitVec 32) :
    Locked { s with devs := devs, nextId := nextId } := by
  refine ⟨locked.owner, locked.counts, locked.stray, fun u gsw works => ?_, locked.lists⟩
  have also := (locked.owner u).mpr (gsw_holds works)
  rw [(locked.owner t).mpr inside] at also
  obtain rfl := Option.some_inj.mp also
  rw [none] at works
  cases works

theorem find_mem {info : GenlInfo} {devs : List GswDev} {gsw : GswDev}
    (found : mt753xNlParseFindGsw info devs = some gsw) : gsw ∈ devs := by
  rw [mt753xNlParseFindGsw] at found
  split at found
  · exact List.mem_of_mem_head? found
  · split at found
    · exact List.mem_of_find?_eq_some found
    · exact List.mem_of_mem_head? found

theorem go (locked : Locked s) {ok : Bool} {s' : DevList} (gone : s.go t ok = some s') :
    Locked s' := by
  have lists := locked.lists t
  have member := locked.member t
  rw [DevList.go] at gone
  cases phase : s.threads t with
  | idle => simp [phase] at gone
  | lookup info =>
    simp only [phase] at gone
    obtain ⟨s₁, taken, rfl⟩ := Option.map_eq_some_iff.mp gone
    exact locked.lock (by simp [phase, NlPhase.holds]) taken rfl rfl rfl
  | find info =>
    simp only [phase] at gone
    split at gone
    · obtain rfl := Option.some_inj.mp gone
      exact locked.unlock (by simp [phase, NlPhase.holds])
    · rename_i gsw found
      obtain rfl := Option.some_inj.mp gone
      refine locked.move (by simp [phase, NlPhase.holds]) (fun g works => ?_) rfl
      obtain rfl := Option.some_inj.mp works
      exact find_mem found
  | process gsw ops =>
    have here : gsw ∈ s.devs := member gsw (by rw [phase]; rfl)
    cases ops with
    | nil =>
      simp only [phase] at gone
      obtain rfl := Option.some_inj.mp gone
      exact locked.move (by simp [phase, NlPhase.holds]) nofun rfl
    | cons op ops =>
      simp only [phase] at gone
      obtain rfl := Option.some_inj.mp gone
      cases ok with
      | false => exact locked.move (by simp [phase, NlPhase.holds]) nofun rfl
      | true =>
        refine locked.move (by simp [phase, NlPhase.holds]) (fun g works => ?_) rfl
        obtain rfl := Option.some_inj.mp works
        exact here
  | list => simp [phase, NlPhase.lists] at lists
  | listing => simp [phase, NlPhase.lists] at lists
  | reply ops => simp [phase, NlPhase.lists] at lists
  | put =>
    simp only [phase] at gone
    obtain rfl := Option.some_inj.mp gone
    exact locked.unlock (by simp [phase, NlPhase.holds])
  | add gsw =>
    simp only [phase] at gone
    obtain ⟨s₁, taken, rfl⟩ := Option.map_eq_some_iff.mp gone
    exact locked.lock (by simp [phase, NlPhase.holds]) taken rfl rfl rfl
  | adding gsw =>
    simp only [phase] at gone
    obtain rfl := Option.some_inj.mp gone
    refine (locked.change (t := t) ?_ ?_ _ _).move ?_ nofun rfl
    all_goals simp [phase, NlPhase.holds, NlPhase.gsw]
  | added =>
    simp only [phase] at gone
    obtain rfl := Option.some_inj.mp gone
    exact locked.unlock (by simp [phase, NlPhase.holds])
  | remove addr =>
    simp only [phase] at gone
    obtain ⟨s₁, taken, rfl⟩ := Option.map_eq_some_iff.mp gone
    exact locked.lock (by simp [phase, NlPhase.holds]) taken rfl rfl rfl
  | removing addr =>
    simp only [phase] at gone
    obtain rfl := Option.some_inj.mp gone
    refine (locked.change (t := t) ?_ ?_ _ _).move ?_ nofun rfl
    all_goals simp [phase, NlPhase.holds, NlPhase.gsw]
  | removed =>
    simp only [phase] at gone
    obtain rfl := Option.some_inj.mp gone
    exact locked.unlock (by simp [phase, NlPhase.holds])

theorem item_mem {info : GenlInfo} {item : Nat × Bool × List NlAttr}
    (found : info.item = some item) :
    item ∈ GenlInfo.mt753xNlCmds ∧ item.1 = info.cmd := by
  obtain ⟨found, -⟩ := Option.filter_eq_some_iff.mp found
  exact ⟨List.mem_of_find?_eq_some found, by simpa using List.find?_some found⟩

theorem requireDev_of_cmd_ne {info : GenlInfo} {item : Nat × Bool × List NlAttr}
    (found : info.item = some item) (cmd : info.cmd ≠ MT753X_CMD_REQUEST) : item.2.1 = true := by
  obtain ⟨listed, named⟩ := item_mem found
  simp only [GenlInfo.mt753xNlCmds, List.mem_cons, List.not_mem_nil, or_false] at listed
  rcases listed with rfl | rfl | rfl
  · exact absurd named.symm cmd
  · rfl
  · rfl

theorem response (locked : Locked s) (idle : s.threads t = .idle) {info : GenlInfo}
    (cmd : info.cmd ≠ MT753X_CMD_REQUEST) : Locked (s.response t info) := by
  rw [DevList.response]
  split
  · exact locked
  · rename_i requireDev _ found
    have required : requireDev = true := requireDev_of_cmd_ne found cmd
    rw [required]
    exact locked.move (by simp [idle, NlPhase.holds]) nofun rfl

end Locked

/-- No request has the command `MT753X_CMD_REQUEST`. -/
def NoListing (_ : DevList) : NlEvent → Prop
  | .request _ info => info.cmd ≠ MT753X_CMD_REQUEST
  | _ => True

theorem Locked.step (locked : Locked s) {event : NlEvent} {s' : DevList}
    (allowed : NoListing s event) (stepped : s.step event = some s') : Locked s' := by
  cases event with
  | request t info =>
    rw [DevList.step] at stepped
    split at stepped
    · rename_i idle
      obtain rfl := Option.some_inj.mp stepped
      exact locked.response idle allowed
    · cases stepped
  | addGsw t gsw =>
    rw [DevList.step] at stepped
    split at stepped
    · rename_i idle
      obtain rfl := Option.some_inj.mp stepped
      exact locked.move (by simp [idle, NlPhase.holds]) nofun rfl
    · cases stepped
  | removeGsw t addr =>
    rw [DevList.step] at stepped
    split at stepped
    · rename_i idle
      obtain rfl := Option.some_inj.mp stepped
      exact locked.move (by simp [idle, NlPhase.holds]) nofun rfl
    · cases stepped
  | go t ok => exact locked.go stepped

/-- While no request lists the switches, threads keep the discipline of the lock. -/
theorem disciplined_of_noListing {s : DevList} (run : Reaches NoListing DevList.step start s) :
    Disciplined s :=
  (run.invariant (fun _ _ _ locked allowed stepped => locked.step allowed stepped)
    Locked.start).disciplined

def readRun : List NlEvent :=
  [.addGsw 0 ⟨7, 0, "MT7531", "switch"⟩, .go 0 true, .go 0 true, .go 0 true,
    .request 1 ⟨MT753X_CMD_READ, fun attr => if attr = .reg then some 0x7ffc else none⟩,
    .go 1 true, .go 1 true]

theorem readRun_disciplined : ∃ s, Reaches NoListing DevList.step start s ∧
    (s.threads 1).gsw = some ⟨7, 0, "MT7531", "switch"⟩ ∧ Disciplined s := by
  have run : ∃ s, runSteps DevList.step readRun start = some s ∧
      (s.threads 1).gsw = some ⟨7, 0, "MT7531", "switch"⟩ := ⟨_, rfl, rfl⟩
  obtain ⟨s, run, works⟩ := run
  have reaches : Reaches NoListing DevList.step start s :=
    reaches_of_runSteps (by simp [readRun, AllAllowed, NoListing, MT753X_CMD_READ,
      MT753X_CMD_REQUEST]) run
  exact ⟨s, reaches, works, disciplined_of_noListing reaches⟩

def listRun : List NlEvent :=
  [.request 0 ⟨MT753X_CMD_REQUEST, fun _ => none⟩, .go 0 true, .go 0 true, .go 0 true,
    .addGsw 1 ⟨7, 0, "MT7531", "switch"⟩, .go 1 true, .go 0 true]

theorem listRun_undisciplined :
    ¬ ∀ s, Reaches anyStep DevList.step start s → Disciplined s := by
  intro disciplined
  have run : ∃ s, runSteps DevList.step listRun start = some s ∧ s.stray = true := ⟨_, rfl, rfl⟩
  obtain ⟨s, run, stray⟩ := run
  have kept := (disciplined s (reaches_of_runSteps allAllowed_anyStep run)).stray
  rw [stray] at kept
  cases kept

end DevList

end MetaFilogic.Mt753x
