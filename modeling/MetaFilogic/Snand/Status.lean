import MetaFilogic.Snand.Layout
import MetaFilogic.Snand.Page

/-!
# Where the status of an operation comes from

An erase or a program that returns 0 should have read the write-enable latch as set and the final
status as ready and good.  Error codes are tested as if they were status bytes, so that this holds
exactly when no failed transfer passes for a good status.
-/

namespace MetaFilogic.Snand

def statusRead : List Byte := [SNAND_CMD_GET_FEATURE, SNAND_FEATURE_STATUS_ADDR]

/-- The transfers of a call, latest first, that are the write-enable, the latch read back as set,
the command, and polls of which the last shows the chip ready and no failure. -/
def Genuine (cmd : Byte) (failBit : CInt) (fresh : List (List Byte × Transfer)) : Prop :=
  ∃ final latch polls page sent enabled,
    fresh = (statusRead, .ok final) :: polls ++
      [(cmd :: page, sent), (statusRead, .ok latch), ([SNAND_CMD_WRITE_ENABLE], enabled)] ∧
    (∀ poll ∈ polls, poll.1 = statusRead) ∧
    (Transfer.ok latch).value &&& SNAND_STATUS_WEL ≠ 0 ∧
    (Transfer.ok final).value &&& SNAND_STATUS_OIP = 0 ∧
    (Transfer.ok final).value &&& failBit = 0

/-- A call that returns 0 has it from the chip; `dies` are the transfers that select the die. -/
def Truthful (cmd : Byte) (failBit : CInt) (s : State) (run : CInt × State) : Prop :=
  run.1 = 0 → ∃ fresh dies, run.2.log = fresh ++ (dies ++ s.log) ∧ Genuine cmd failBit fresh

section Wait

variable (bus : Bus)

/-- The poll with number `i` from transfer `start` on ends a wait of at most `polls` further
polls. -/
structure EndsWait (start polls i : Nat) : Prop where
  within : i ≤ polls
  ready : (bus.transfer (start + i)).value &&& SNAND_STATUS_OIP = 0
  first : ∀ j < i, (bus.transfer (start + j)).value &&& SNAND_STATUS_OIP ≠ 0

/-- An operation from transfer `start` on gets to its end at poll `i` and shows no failure there,
where every value is taken for a status, read or not. -/
structure LooksGood (start : Nat) (load failBit : CInt) (i : Nat) : Prop where
  enabled : (bus.transfer start).ret = 0
  latch : (bus.transfer (start + 1)).ret ≠ 0 ∨
    (bus.transfer (start + 1)).value &&& SNAND_STATUS_WEL ≠ 0
  loaded : load = 0
  sent : (bus.transfer (start + 2)).ret = 0
  ends : EndsWait bus (start + 3) (bus.polls (start + 3)) i
  good : (bus.transfer (start + 3 + i)).value &&& failBit = 0

/-- Wherever an operation looks good, its latch and its last poll were read. -/
def NoneForged (start : Nat) (load failBit : CInt) : Prop :=
  ∀ i, LooksGood bus start load failBit i →
    (bus.transfer (start + 1)).ret = 0 ∧ (bus.transfer (start + 3 + i)).ret = 0

/-! ## Runs -/

def afterIo (out : List Byte) (s : State) : State := (mtkSnandMacIo bus out s).2

@[simp]
theorem afterIo_clock (out : List Byte) (s : State) : (afterIo bus out s).clock = s.clock + 1 :=
  rfl

@[simp]
theorem afterIo_log (out : List Byte) (s : State) :
    (afterIo bus out s).log = (out, bus.transfer s.clock) :: s.log :=
  rfl

theorem macIo_bind {α : Type} (out : List Byte) (next : Transfer → SnandM α) (s : State) :
    (mtkSnandMacIo bus out >>= next) s = next (bus.transfer s.clock) (afterIo bus out s) :=
  rfl

theorem getFeature_bind {α : Type} (next : CInt → SnandM α) (s : State) :
    (mtkSnandGetFeature bus SNAND_FEATURE_STATUS_ADDR >>= next) s =
      next (bus.transfer s.clock).value (afterIo bus statusRead s) :=
  rfl

theorem pollOnce_run (s : State) :
    pollOnce bus s =
      (if (bus.transfer s.clock).value &&& SNAND_STATUS_OIP = 0 then
        some ((bus.transfer s.clock).value &&&
          (SNAND_STATUS_ERASE_FAIL ||| SNAND_STATUS_PROGRAM_FAIL))
      else none, afterIo bus statusRead s) := by
  rw [pollOnce, getFeature_bind, ite_apply]
  split
  · rfl
  · rfl

theorem pollFrom_run (polls : Nat) (s : State) :
    pollFrom bus polls s =
      if (bus.transfer s.clock).value &&& SNAND_STATUS_OIP = 0 then
        ((bus.transfer s.clock).value &&& (SNAND_STATUS_ERASE_FAIL ||| SNAND_STATUS_PROGRAM_FAIL),
          afterIo bus statusRead s)
      else
        match polls with
        | 0 => (errno ETIMEDOUT, afterIo bus statusRead s)
        | polls + 1 => pollFrom bus polls (afterIo bus statusRead s) := by
  cases polls with
  | zero =>
    show (let once := pollOnce bus s; (once.1.getD (errno ETIMEDOUT), once.2)) = _
    rw [pollOnce_run]
    split <;> rfl
  | succ polls =>
    rw [pollFrom]
    simp only [bind, StateT.bind, pollOnce_run]
    split <;> rfl

variable {bus}

variable {start polls : Nat}

theorem EndsWait.zero (ready : (bus.transfer start).value &&& SNAND_STATUS_OIP = 0) :
    EndsWait bus start polls 0 :=
  ⟨Nat.zero_le _, ready, fun _ below => absurd below (Nat.not_lt_zero _)⟩

theorem EndsWait.succ_iff {i : Nat} (busy : (bus.transfer start).value &&& SNAND_STATUS_OIP ≠ 0) :
    EndsWait bus start (polls + 1) (i + 1) ↔ EndsWait bus (start + 1) polls i := by
  have shift (j : Nat) : start + (j + 1) = start + 1 + j := by omega
  constructor
  · rintro ⟨within, ready, first⟩
    rw [shift] at ready
    refine ⟨by omega, ready, fun j below => ?_⟩
    have := first (j + 1) (by omega)
    rwa [shift] at this
  · rintro ⟨within, ready, first⟩
    refine ⟨by omega, by rwa [shift], fun j below => ?_⟩
    cases j with
    | zero => exact busy
    | succ j =>
      rw [shift]
      exact first j (by omega)

theorem EndsWait.unique {i j : Nat} (one : EndsWait bus start polls i)
    (other : EndsWait bus start polls j) : i = j := by
  rcases Nat.lt_trichotomy i j with below | same | above
  · exact absurd one.ready (other.first i below)
  · exact same
  · exact absurd other.ready (one.first j above)

/-- A wait ends at the first poll that looks ready, or times out. -/
theorem pollFrom_spec (polls : Nat) (s : State) :
    ∃ fresh : List (List Byte × Transfer), (pollFrom bus polls s).2.log = fresh ++ s.log ∧
      (∀ poll ∈ fresh, poll.1 = statusRead) ∧
      ((∃ i rest, EndsWait bus s.clock polls i ∧
          (pollFrom bus polls s).1 = (bus.transfer (s.clock + i)).value &&&
            (SNAND_STATUS_ERASE_FAIL ||| SNAND_STATUS_PROGRAM_FAIL) ∧
          fresh = (statusRead, bus.transfer (s.clock + i)) :: rest) ∨
        (∀ i, ¬EndsWait bus s.clock polls i) ∧
          (pollFrom bus polls s).1 = errno ETIMEDOUT) := by
  induction polls generalizing s with
  | zero =>
    rw [pollFrom_run]
    by_cases ready : (bus.transfer s.clock).value &&& SNAND_STATUS_OIP = 0
    · rw [if_pos ready]
      exact ⟨[(statusRead, bus.transfer s.clock)], rfl, by simp,
        .inl ⟨0, [], .zero ready, rfl, rfl⟩⟩
    · rw [if_neg ready]
      refine ⟨[(statusRead, bus.transfer s.clock)], rfl, by simp, .inr ⟨fun i ends => ?_, rfl⟩⟩
      have zero : i = 0 := by have := ends.within; omega
      subst zero
      exact ready ends.ready
  | succ polls ih =>
    rw [pollFrom_run]
    by_cases ready : (bus.transfer s.clock).value &&& SNAND_STATUS_OIP = 0
    · rw [if_pos ready]
      exact ⟨[(statusRead, bus.transfer s.clock)], rfl, by simp,
        .inl ⟨0, [], .zero ready, rfl, rfl⟩⟩
    · rw [if_neg ready]
      obtain ⟨fresh, log, reads, found⟩ := ih (afterIo bus statusRead s)
      refine ⟨fresh ++ [(statusRead, bus.transfer s.clock)], ?_, ?_, ?_⟩
      · show (pollFrom bus polls (afterIo bus statusRead s)).2.log = _
        rw [log, List.append_assoc]
        rfl
      · intro poll among
        rcases List.mem_append.mp among with old | new
        · exact reads poll old
        · rw [List.mem_singleton.mp new]
      · rcases found with ⟨i, rest, ends, ret, head⟩ | ⟨never, ret⟩
        · refine .inl ⟨i + 1, rest ++ [(statusRead, bus.transfer s.clock)],
            (EndsWait.succ_iff ready).mpr ends, ?_, ?_⟩
          · rw [show s.clock + (i + 1) = s.clock + 1 + i by omega]
            exact ret
          · rw [head, show s.clock + (i + 1) = s.clock + 1 + i by omega]
            rfl
        · refine .inr ⟨fun i ends => ?_, ret⟩
          cases i with
          | zero => exact ready ends.ready
          | succ i => exact never i ((EndsWait.succ_iff ready).mp ends)

/-- What `mtk_snand_poll_status` returns is not negative unless it times out. -/
theorem status_not_negative (value : CInt) :
    (value &&& (SNAND_STATUS_ERASE_FAIL ||| SNAND_STATUS_PROGRAM_FAIL)).msb = false := by
  have low : (SNAND_STATUS_ERASE_FAIL ||| SNAND_STATUS_PROGRAM_FAIL).msb = false := by decide
  rw [BitVec.msb_and, low, Bool.and_false]

theorem status_failBit {failBit : CInt} (value : CInt)
    (within : (SNAND_STATUS_ERASE_FAIL ||| SNAND_STATUS_PROGRAM_FAIL) &&& failBit = failBit) :
    value &&& (SNAND_STATUS_ERASE_FAIL ||| SNAND_STATUS_PROGRAM_FAIL) &&& failBit =
      value &&& failBit := by
  rw [BitVec.and_assoc, within]

variable (bus)

theorem writeEnable_run (s : State) :
    mtkSnandWriteEnable bus s =
      if (bus.transfer s.clock).ret ≠ 0 then
        ((bus.transfer s.clock).ret, afterIo bus [SNAND_CMD_WRITE_ENABLE] s)
      else
        (if (bus.transfer (s.clock + 1)).ret ≠ 0 ∨
            (bus.transfer (s.clock + 1)).value &&& SNAND_STATUS_WEL ≠ 0 then 0
          else errno ENOTSUPP,
          afterIo bus statusRead (afterIo bus [SNAND_CMD_WRITE_ENABLE] s)) := by
  rw [mtkSnandWriteEnable, macIo_bind, ite_apply]
  by_cases fails : (bus.transfer s.clock).ret ≠ 0
  · rw [if_pos fails, if_pos fails]
    rfl
  · rw [if_neg fails, if_neg fails, getFeature_bind, ite_apply, ite_apply, afterIo_clock,
      not_not.mp fails]
    by_cases unread : (bus.transfer (s.clock + 1)).ret ≠ 0
    · rw [if_pos (Transfer.value_msb.mpr unread), if_pos (Or.inl unread)]
      rfl
    · rw [if_neg fun negative => unread (Transfer.value_msb.mp negative)]
      by_cases set : (bus.transfer (s.clock + 1)).value &&& SNAND_STATUS_WEL ≠ 0
      · rw [if_pos set, if_pos (Or.inr set)]
        rfl
      · rw [if_neg set, if_neg (not_or.mpr ⟨unread, set⟩)]
        rfl

end Wait

/-! ## Operations -/

section Operation

variable (bus : Bus) {load : SnandM CInt} {page : Nat} {cmd : Byte} {failBit : CInt}

/-- The transfers of an operation that gets to its end at poll `i`. -/
def Logged (s : State) (cmd : Byte) (i : Nat) (log : List (List Byte × Transfer)) : Prop :=
  ∃ polls page, (∀ poll ∈ polls, poll.1 = statusRead) ∧
    log = (statusRead, bus.transfer (s.clock + 3 + i)) :: polls ++
      ((cmd :: page, bus.transfer (s.clock + 2)) :: (statusRead, bus.transfer (s.clock + 1)) ::
        ([SNAND_CMD_WRITE_ENABLE], bus.transfer s.clock) :: s.log)

theorem bind_run {α β : Type} (program : SnandM α) (next : α → SnandM β) (s : State) :
    (program >>= next) s = next (program s).1 (program s).2 :=
  rfl

theorem pure_run {α : Type} (value : α) (s : State) : (pure value : SnandM α) s = (value, s) :=
  rfl

/-- A wait returns 0 exactly when it ends at a poll that shows no failure. -/
theorem waitFor_spec (s : State)
    (within : (SNAND_STATUS_ERASE_FAIL ||| SNAND_STATUS_PROGRAM_FAIL) &&& failBit = failBit) :
    if (waitFor bus failBit s).1 = 0 then
      ∃ i, EndsWait bus s.clock (bus.polls s.clock) i ∧
        (bus.transfer (s.clock + i)).value &&& failBit = 0 ∧
        ∃ polls : List (List Byte × Transfer), (∀ poll ∈ polls, poll.1 = statusRead) ∧
          (waitFor bus failBit s).2.log =
            (statusRead, bus.transfer (s.clock + i)) :: polls ++ s.log
    else ∀ i, EndsWait bus s.clock (bus.polls s.clock) i →
      (bus.transfer (s.clock + i)).value &&& failBit ≠ 0 := by
  obtain ⟨fresh, log, reads, found⟩ := @pollFrom_spec bus (bus.polls s.clock) s
  rw [waitFor, bind_run, ite_apply, ite_apply, pure_run, pure_run, pure_run]
  change (pollFrom bus (bus.polls s.clock) s).2.log = fresh ++ s.log at log
  rcases found with ⟨i, rest, ends, ret, head⟩ | ⟨never, ret⟩
  · have positive : ¬(mtkSnandPollStatus bus s).1.msb = true := by
      rw [show (mtkSnandPollStatus bus s).1 = _ from ret, status_not_negative]
      decide
    rw [if_neg positive, show (mtkSnandPollStatus bus s).1 = _ from ret, status_failBit _ within]
    by_cases fails : (bus.transfer (s.clock + i)).value &&& failBit ≠ 0
    · have eio : errno EIO ≠ 0 := by decide
      rw [if_pos fails, if_neg eio]
      exact fun j other => other.unique ends ▸ fails
    · rw [if_neg fails, if_pos rfl]
      refine ⟨i, ends, not_not.mp fails, rest, fun poll among => reads poll ?_, ?_⟩
      · rw [head]
        exact List.mem_cons_of_mem _ among
      · rw [← head]
        exact log
  · have negative : (mtkSnandPollStatus bus s).1.msb = true := by
      rw [show (mtkSnandPollStatus bus s).1 = _ from ret]
      decide
    have etimedout : errno ETIMEDOUT ≠ 0 := by decide
    rw [if_pos negative, show (mtkSnandPollStatus bus s).1 = _ from ret, if_neg etimedout]
    exact fun i ends => absurd ends (never i)

theorem pageOp_run (s : State) :
    ∃ command, mtkSnandPageOp bus page cmd s =
      ((bus.transfer s.clock).ret, afterIo bus (cmd :: command) s) :=
  ⟨_, rfl⟩

theorem runCommand_spec (s : State) {loadRet : CInt} (quiet : ∀ s', s'.clock = s.clock + 2 →
      (load s').1 = loadRet ∧ (load s').2.clock = s'.clock ∧ (load s').2.log = s'.log)
    (within : (SNAND_STATUS_ERASE_FAIL ||| SNAND_STATUS_PROGRAM_FAIL) &&& failBit = failBit) :
    if (runCommand bus load page cmd failBit s).1 = 0 then
      ∃ i, LooksGood bus s.clock loadRet failBit i ∧
        Logged bus s cmd i (runCommand bus load page cmd failBit s).2.log
    else ∀ i, ¬LooksGood bus s.clock loadRet failBit i := by
  rw [runCommand, bind_run, writeEnable_run]
  by_cases enabled : (bus.transfer s.clock).ret ≠ 0
  · rw [if_pos enabled, ite_apply, if_pos enabled, pure_run, if_neg enabled]
    exact fun i good => enabled good.enabled
  rw [if_neg enabled]
  by_cases latch : (bus.transfer (s.clock + 1)).ret ≠ 0 ∨
      (bus.transfer (s.clock + 1)).value &&& SNAND_STATUS_WEL ≠ 0
  swap
  · have enotsupp : errno ENOTSUPP ≠ 0 := by decide
    rw [if_neg latch, ite_apply, if_pos enotsupp, pure_run, if_neg enotsupp]
    exact fun i good => latch good.latch
  rw [if_pos latch, ite_apply, if_neg (not_not.mpr (rfl : (0 : CInt) = 0)), bind_run]
  obtain ⟨loadEq, clock, log⟩ :=
    quiet (afterIo bus statusRead (afterIo bus [SNAND_CMD_WRITE_ENABLE] s)) rfl
  rw [loadEq, ite_apply]
  by_cases loaded : loadRet ≠ 0
  · rw [if_pos loaded, pure_run, if_neg loaded]
    exact fun i good => loaded good.loaded
  rw [if_neg loaded, bind_run]
  generalize (load (afterIo bus statusRead (afterIo bus [SNAND_CMD_WRITE_ENABLE] s))).2 = full
    at clock log ⊢
  change full.clock = s.clock + 2 at clock
  obtain ⟨command, sentEq⟩ := @pageOp_run bus page cmd full
  rw [sentEq, clock, ite_apply]
  by_cases sent : (bus.transfer (s.clock + 2)).ret ≠ 0
  · rw [if_pos sent, pure_run, if_neg sent]
    exact fun i good => sent good.sent
  rw [if_neg sent]
  have wait := waitFor_spec bus (afterIo bus (cmd :: command) full) within
  rw [afterIo_clock, clock, show s.clock + 2 + 1 = s.clock + 3 from rfl] at wait
  split at wait
  · rename_i zero
    obtain ⟨i, ends, good, polls, reads, waited⟩ := wait
    rw [if_pos zero]
    refine ⟨i, ⟨not_not.mp enabled, latch, not_not.mp loaded, not_not.mp sent, ends, good⟩, polls,
      command, reads, ?_⟩
    rw [waited, afterIo_log, log, afterIo_log, afterIo_log, clock, afterIo_clock]
  · rename_i nonzero
    rw [if_neg nonzero]
    exact fun i good => wait i good.ends good.good

end Operation

/-! ## Truthful operations -/

theorem append_cons_inj {α : Type} {p : α → Prop} {front front' back back' : List α} {x x' : α}
    (all : ∀ y ∈ front, p y) (all' : ∀ y ∈ front', p y) (not : ¬p x) (not' : ¬p x')
    (same : front ++ x :: back = front' ++ x' :: back') :
    front = front' ∧ x = x' ∧ back = back' := by
  induction front generalizing front' with
  | nil =>
    cases front' with
    | nil => simpa using same
    | cons y front' =>
      injection same with head
      exact absurd (head ▸ all' y List.mem_cons_self) not
  | cons y front ih =>
    cases front' with
    | nil =>
      injection same with head
      exact absurd (head ▸ all y List.mem_cons_self) not'
    | cons y' front' =>
      injection same with head tail
      obtain ⟨fronts, x, backs⟩ := ih (fun z among => all z (List.mem_cons_of_mem _ among))
        (fun z among => all' z (List.mem_cons_of_mem _ among)) tail
      exact ⟨by rw [head, fronts], x, backs⟩

section Truthful

variable (bus : Bus) (snf : MtkSnand)

theorem runCommand_truthful_iff {load : SnandM CInt} {page : Nat} {cmd : Byte} {failBit : CInt}
    {s before : State} {loadRet : CInt} {dies : List (List Byte × Transfer)}
    (quiet : ∀ s', s'.clock = s.clock + 2 →
      (load s').1 = loadRet ∧ (load s').2.clock = s'.clock ∧ (load s').2.log = s'.log)
    (within : (SNAND_STATUS_ERASE_FAIL ||| SNAND_STATUS_PROGRAM_FAIL) &&& failBit = failBit)
    (other : cmd ≠ SNAND_CMD_GET_FEATURE) (log : s.log = dies ++ before.log) :
    Truthful cmd failBit before (runCommand bus load page cmd failBit s) ↔
      NoneForged bus s.clock loadRet failBit := by
  have spec := @runCommand_spec bus load page cmd failBit s loadRet quiet within
  split at spec
  · rename_i zero
    obtain ⟨i, good, polls, page, reads, whole⟩ := spec
    constructor
    · intro truthful j good'
      obtain ⟨fresh, dies', log', final, latch, polls', page', sent, enabled, rfl, reads', _⟩ :=
        truthful zero
      rw [whole] at log'
      simp only [List.cons_append, List.append_assoc, List.cons.injEq, Prod.mk.injEq, true_and,
        List.nil_append] at log'
      obtain ⟨last, rest⟩ := log'
      have notRead (page : List Byte) (result : Transfer) :
          ¬(cmd :: page, result).1 = statusRead := fun same => other (List.cons.inj same).1
      obtain ⟨-, -, backs⟩ := append_cons_inj (p := fun entry => entry.1 = statusRead) reads reads'
        (notRead _ _) (notRead _ _) rest
      injection backs with latchEq
      rw [good'.ends.unique good.ends, last, (Prod.mk.inj latchEq).2]
      exact ⟨rfl, rfl⟩
    · intro none _
      obtain ⟨latchRead, lastRead⟩ := none i good
      obtain ⟨latch, latchEq⟩ := Transfer.ret_eq_zero_iff.mp latchRead
      obtain ⟨final, lastEq⟩ := Transfer.ret_eq_zero_iff.mp lastRead
      refine ⟨_, dies, ?_, final, latch, polls, page, bus.transfer (s.clock + 2),
        bus.transfer s.clock, rfl, reads, ?_, ?_, ?_⟩
      · rw [whole, lastEq, latchEq, log]
        simp only [List.cons_append, List.append_assoc, List.nil_append]
      · rw [← latchEq]
        exact good.latch.resolve_left (not_not.mpr latchRead)
      · rw [← lastEq]
        exact good.ends.ready
      · rw [← lastEq]
        exact good.good
  · rename_i nonzero
    exact iff_of_true (fun zero => absurd zero nonzero) fun i good => absurd good (spec i)

def dieTransfers (addr : Nat) : Nat :=
  if snf.selectDie = none ∨ 1 < u32 (addr >>> snf.dieShift) then 0 else 1

theorem selectDieAddress_spec (addr : Nat) (s : State) :
    (mtkSnandSelectDieAddress bus snf addr s).2.clock = s.clock + dieTransfers snf addr ∧
      ∃ dies, (mtkSnandSelectDieAddress bus snf addr s).2.log = dies ++ s.log := by
  unfold mtkSnandSelectDieAddress dieTransfers
  cases select : snf.selectDie with
  | none =>
    rw [if_pos rfl, if_pos (Or.inl rfl)]
    exact ⟨rfl, [], rfl⟩
  | some vendor =>
    rw [if_neg (by simp), bind_run]
    by_cases invalid : 1 < u32 (addr >>> snf.dieShift)
    · rw [if_pos (Or.inr invalid)]
      cases vendor with
      | winbond =>
        simp only [mtkSnandSelectDie, mtkSnandWinbondSelectDie, if_pos invalid]
        exact ⟨rfl, [], rfl⟩
      | micron =>
        simp only [mtkSnandSelectDie, mtkSnandMicronSelectDie, if_pos invalid]
        exact ⟨rfl, [], rfl⟩
    · rw [if_neg (by simp [invalid])]
      cases vendor with
      | winbond =>
        simp only [mtkSnandSelectDie, mtkSnandWinbondSelectDie, if_neg invalid]
        exact ⟨rfl, [_], rfl⟩
      | micron =>
        simp only [mtkSnandSelectDie, mtkSnandMicronSelectDie, if_neg invalid]
        exact ⟨rfl, [_], rfl⟩

/-- Erasing a block and programming a page are truthful exactly when no failed transfer passes for
the latch or the final status. -/
theorem operations_truthful_iff (addr : Nat) (s : State) :
    (Truthful SNAND_CMD_BLOCK_ERASE SNAND_STATUS_ERASE_FAIL s
        (mtkSnandEraseBlock bus snf addr s) ↔
      snf.size ≤ addr ∨
        NoneForged bus (s.clock + dieTransfers snf addr) 0 SNAND_STATUS_ERASE_FAIL) ∧
    ∀ (buf oob : Option Bytes) (raw format : Bool),
      Truthful SNAND_CMD_PROGRAM_EXECUTE SNAND_STATUS_PROGRAM_FAIL s
        (mtkSnandDoWritePage bus snf addr buf oob raw format s) ↔
      NoneForged bus (s.clock + dieTransfers snf addr)
        (bus.load (s.clock + dieTransfers snf addr + 2)) SNAND_STATUS_PROGRAM_FAIL := by
  obtain ⟨clock, dies, log⟩ := selectDieAddress_spec bus snf addr s
  constructor
  · rw [mtkSnandEraseBlock, ite_apply]
    by_cases outside : snf.size ≤ addr
    · have einval : errno EINVAL ≠ 0 := by decide
      rw [if_pos outside]
      exact iff_of_true (fun zero => absurd zero einval) (.inl outside)
    · rw [if_neg outside, bind_run, or_iff_right outside, ← clock]
      exact runCommand_truthful_iff bus (fun s' _ => ⟨rfl, rfl, rfl⟩) (by decide) (by decide) log
  · intro buf oob raw format
    rw [mtkSnandDoWritePage, bind_run, ← clock]
    generalize (mtkSnandSelectDieAddress bus snf addr s) = selected at log ⊢
    rw [bind_run]
    refine runCommand_truthful_iff bus (fun s' after => ?_) (by decide) (by decide) log
    refine ⟨congrArg bus.load after, ?_, ?_⟩
    · unfold mtkSnandProgramLoad
      dsimp only
      split <;> rfl
    · unfold mtkSnandProgramLoad
      dsimp only
      split <;> rfl

end Truthful

/-- A bus on which the write-enable goes through, the latch is set, the command goes through, and
every poll times out. -/
def lateBus : Bus where
  blockShift := 6
  transfer
    | 1 => .ok 2
    | 0 | 2 => .ok 0
    | _ + 3 => .error (errno ETIMEDOUT) (by decide)
  polls _ := 0
  load _ := 0
  parity _ _ _ := 0

/-- The error code of the poll has the busy bit and the failure bits clear: the erase returns 0
without a status. -/
theorem erase_untruthful :
    ¬Truthful SNAND_CMD_BLOCK_ERASE SNAND_STATUS_ERASE_FAIL idleState
      (mtkSnandEraseBlock lateBus
        ((plainChip 2048 64).snand .mt7622 (0, 0x0b, 8) (0, 0x02, 0) (16, 528) (4, 7, 14)) 0
        idleState) := by
  intro truthful
  obtain ⟨fresh, dies, log, final, latch, polls, page, sent, enabled, rfl, -⟩ := truthful rfl
  exact absurd (List.cons.inj log).1 (by simp [lateBus])

end MetaFilogic.Snand
