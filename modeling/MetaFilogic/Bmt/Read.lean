import MetaFilogic.Bmt.Core
import Mathlib.Data.List.Basic

/-!
# Reading through the mapping

`mtk_bmt_read` over any back-end and any lower driver.  `σ` is what both act on:
memory, chip, or a list of the outcomes still to come.  `attempts` is ghost and
keeps every call of the lower `_read_oob`, the last one first.
-/

namespace MetaFilogic.Bmt

/-- The members of `struct mtd_oob_ops` the loop uses; the buffers are offsets into
those of the caller. -/
structure OobOps where
  len : Nat
  ooblen : Nat
  ooboffs : Nat
  datbuf : Nat
  oobbuf : Nat

structure Outcome where
  ret : Int
  retlen : Nat
  oobretlen : Nat

def Outcome.accepted (outcome : Outcome) : Prop :=
  0 ≤ outcome.ret ∨ mtdIsBitflip outcome.ret

instance (outcome : Outcome) : Decidable outcome.accepted :=
  inferInstanceAs (Decidable (_ ∨ _))

structure ReadOps (σ : Type) where
  getMappingBlock : σ → Nat → Int
  remapBlock : (block mapped copyLen : Nat) → σ → Bool × σ
  readOob : (address : Nat) → OobOps → σ → Outcome × σ

/-- One call of `_read_oob`: the state it was made in, the logical block, the address
and the descriptor it got, and its outcome. -/
structure Attempt (σ : Type) where
  before : σ
  block : Nat
  address : Nat
  ops : OobOps
  outcome : Outcome

/-- The variables of `mtk_bmt_read`. -/
structure Progress (σ : Type) where
  address : Nat
  cur : OobOps
  retlen : Nat
  oobretlen : Nat
  retryCount : Nat
  ret : Int
  maxBitflips : Int
  attempts : List (Attempt σ)

structure ReadResult (σ : Type) where
  ret : Int
  retlen : Nat
  oobretlen : Nat
  attempts : List (Attempt σ)
  state : σ

section Code

variable {σ : Type} (d : Desc) (ops : ReadOps σ)

def mtkBmtRemapBlock (block mapped copyLen : Nat) (s : σ) : Bool × σ :=
  if (mappingBlockInRange d block).isNone then
    (false, s)
  else
    ops.remapBlock (u16 block) (u16 mapped) copyLen s

/-- Where one round of the loop goes: on, to the label `out`, or to `return -EIO`. -/
inductive Round (σ : Type) where
  | again (p : Progress σ) (s : σ)
  | out (p : Progress σ) (s : σ)
  | noBlock (p : Progress σ) (s : σ)

/-- The round after the lower read: keep the bytes and step on, or remap and retry.
`bitflip_threshold` is unsigned, so an error that is compared with it is large. -/
def afterRead (p : Progress σ) (block curBlock offset : Nat) (cur : OobOps) (outcome : Outcome)
    (s : σ) : Round σ :=
  if outcome.ret < 0 ∧ !mtdIsBitflip outcome.ret then
    let remap := mtkBmtRemapBlock d ops block curBlock d.blkSize s
    if remap.1 ∧ p.retryCount < 10 then
      .again { p with cur, retryCount := p.retryCount + 1 } remap.2
    else
      .out { p with cur } remap.2
  else
    let s :=
      if d.bitflipThreshold ≠ 0 ∧ d.bitflipThreshold ≤ (outcome.ret % 2 ^ 32).toNat then
        (mtkBmtRemapBlock d ops block curBlock d.blkSize s).2
      else s
    .again { p with
      address := p.address + (if cur.len = 0 then d.blkSize - offset else cur.len)
      cur := {
        len := if cur.len = 0 then d.blkSize - offset else cur.len
        ooblen := cur.ooblen - outcome.oobretlen
        ooboffs := 0
        datbuf := cur.datbuf + outcome.retlen
        oobbuf := cur.oobbuf + outcome.oobretlen }
      retlen := p.retlen + outcome.retlen
      oobretlen := p.oobretlen + outcome.oobretlen
      retryCount := 0 } s

def roundOps (request : OobOps) (p : Progress σ) : OobOps :=
  { p.cur with
    len := min (d.blkSize - p.address % d.blkSize) (u32 (request.len + 2 ^ 32 - u32 p.retlen)) }

def Progress.noted (p : Progress σ) (attempt : Attempt σ) : Progress σ :=
  { p with
    ret := if attempt.outcome.ret < 0 then attempt.outcome.ret else p.ret
    maxBitflips :=
      if attempt.outcome.ret < 0 then p.maxBitflips else max p.maxBitflips attempt.outcome.ret
    attempts := attempt :: p.attempts }

/-- One round of the loop of `mtk_bmt_read` for the request `request`. -/
def readRound (request : OobOps) (p : Progress σ) (s : σ) : Round σ :=
  let offset := p.address % d.blkSize
  let block := u32 (p.address >>> d.blkShift)
  let curBlock := ops.getMappingBlock s block
  if curBlock < 0 then
    .noBlock p s
  else
    let address := curBlock.toNat <<< d.blkShift + offset
    let cur := roundOps d request p
    let read := ops.readOob address cur s
    afterRead d ops (p.noted ⟨s, block, address, cur, read.1⟩) block curBlock.toNat offset cur
      read.1 read.2

def complete (request : OobOps) (retlen oobretlen : Nat) : Prop :=
  request.len ≤ retlen ∧ request.ooblen ≤ oobretlen

instance (request : OobOps) (retlen oobretlen : Nat) :
    Decidable (complete request retlen oobretlen) :=
  inferInstanceAs (Decidable (_ ∧ _))

def finish (p : Progress σ) (s : σ) : ReadResult σ :=
  ⟨if p.ret < 0 then p.ret else p.maxBitflips, p.retlen, p.oobretlen, p.attempts, s⟩

/-- The loop of `mtk_bmt_read`, at most `fuel` rounds of it. -/
def readLoop (request : OobOps) : (fuel : Nat) → Progress σ → σ → Option (ReadResult σ)
  | 0, _, _ => none
  | fuel + 1, p, s =>
    if complete request p.retlen p.oobretlen then
      some (finish p s)
    else
      match readRound d ops request p s with
      | .again p s => readLoop request fuel p s
      | .out p s => some (finish p s)
      | .noBlock p s => some { finish p s with ret := - EIO }

def startRead (address : Nat) (request : OobOps) : Progress σ where
  address := address
  cur := request
  retlen := 0
  oobretlen := 0
  retryCount := 0
  ret := 0
  maxBitflips := 0
  attempts := []

def mtkBmtRead (fuel address : Nat) (request : OobOps) (s : σ) : Option (ReadResult σ) :=
  readLoop d ops request fuel (startRead address request) s

end Code

/-! ## What a round does -/

section Rounds

variable {σ : Type} {d : Desc} {ops : ReadOps σ} {request : OobOps} {p : Progress σ} {s : σ}

structure Attempted (d : Desc) (ops : ReadOps σ) (p next : Progress σ) (attempt : Attempt σ) :
    Prop where
  attempts : next.attempts = attempt :: p.attempts
  ret : next.ret = if attempt.outcome.ret < 0 then attempt.outcome.ret else p.ret
  maxBitflips : next.maxBitflips =
    if attempt.outcome.ret < 0 then p.maxBitflips else max p.maxBitflips attempt.outcome.ret
  mapped : ops.getMappingBlock attempt.before attempt.block =
    (attempt.address / d.blkSize : Nat)

theorem mapped_block (d : Desc) {curBlock : Int} (isBlock : ¬curBlock < 0) (address : Nat) :
    curBlock = (((curBlock.toNat <<< d.blkShift + address % d.blkSize) / d.blkSize : Nat) : Int) := by
  have positive : 0 < d.blkSize := Nat.two_pow_pos _
  have inBlock : address % d.blkSize < d.blkSize := Nat.mod_lt _ positive
  have quotient : (curBlock.toNat <<< d.blkShift + address % d.blkSize) / d.blkSize =
      curBlock.toNat := by
    rw [Nat.shiftLeft_eq, ← Desc.blkSize, Nat.mul_comm, Nat.mul_add_div positive,
      Nat.div_eq_of_lt inBlock, Nat.add_zero]
  rw [quotient, Int.toNat_of_nonneg (Int.not_lt.mp isBlock)]

def roundAttempt (d : Desc) (ops : ReadOps σ) (request : OobOps) (p : Progress σ) (s : σ) :
    Attempt σ :=
  let block := u32 (p.address >>> d.blkShift)
  let address := (ops.getMappingBlock s block).toNat <<< d.blkShift + p.address % d.blkSize
  ⟨s, block, address, roundOps d request p, (ops.readOob address (roundOps d request p) s).1⟩

theorem readRound_cases (d : Desc) (ops : ReadOps σ) (request : OobOps) (p : Progress σ) (s : σ) :
    readRound d ops request p s = .noBlock p s ∨
      Attempted d ops p (p.noted (roundAttempt d ops request p s))
          (roundAttempt d ops request p s) ∧
        ∃ curBlock offset after, readRound d ops request p s =
          afterRead d ops (p.noted (roundAttempt d ops request p s))
            (roundAttempt d ops request p s).block curBlock offset (roundOps d request p)
            (roundAttempt d ops request p s).outcome after := by
  by_cases noBlock : ops.getMappingBlock s (u32 (p.address >>> d.blkShift)) < 0
  · exact .inl (if_pos noBlock)
  · exact .inr ⟨⟨rfl, rfl, rfl, mapped_block d noBlock p.address⟩, _, _, _, if_neg noBlock⟩

theorem not_accepted_iff {attempt : Attempt σ} :
    ¬attempt.outcome.accepted ↔ attempt.outcome.ret < 0 ∧ !mtdIsBitflip attempt.outcome.ret := by
  rw [Outcome.accepted, not_or, Int.not_le, Bool.not_eq_true, Bool.not_eq_true']

variable {next : Progress σ} {after : σ}

theorem Attempted.congr {later : Progress σ} {attempt : Attempt σ}
    (attempted : Attempted d ops p next attempt) (attempts : later.attempts = next.attempts)
    (ret : later.ret = next.ret) (maxBitflips : later.maxBitflips = next.maxBitflips) :
    Attempted d ops p later attempt :=
  ⟨attempts.trans attempted.attempts, ret.trans attempted.ret,
    maxBitflips.trans attempted.maxBitflips, attempted.mapped⟩

structure Stepped (p next : Progress σ) (attempt : Attempt σ) : Prop where
  accepted : attempt.outcome.accepted
  retryCount : next.retryCount = 0
  retlen : next.retlen = p.retlen + attempt.outcome.retlen
  oobretlen : next.oobretlen = p.oobretlen + attempt.outcome.oobretlen
  ooblen : next.cur.ooblen = p.cur.ooblen - attempt.outcome.oobretlen

structure Failed (p next : Progress σ) (attempt : Attempt σ) : Prop where
  failed : ¬attempt.outcome.accepted
  retlen : next.retlen = p.retlen
  oobretlen : next.oobretlen = p.oobretlen
  ooblen : next.cur.ooblen = p.cur.ooblen

theorem readRound_again (round : readRound d ops request p s = .again next after) :
    Attempted d ops p next (roundAttempt d ops request p s) ∧
      (Failed p next (roundAttempt d ops request p s) ∧ p.retryCount < 10 ∧
          next.retryCount = p.retryCount + 1 ∨
        Stepped p next (roundAttempt d ops request p s)) := by
  obtain none | ⟨attempted, curBlock, offset, middle, equal⟩ := readRound_cases d ops request p s
  · rw [none] at round
    cases round
  · rw [equal, afterRead] at round
    split at round
    · rename_i failed
      dsimp only at round
      split at round
      · rename_i retry
        cases round
        exact ⟨attempted.congr rfl rfl rfl,
          .inl ⟨⟨not_accepted_iff.mpr failed, rfl, rfl, rfl⟩, retry.2, rfl⟩⟩
      · cases round
    · rename_i read
      cases round
      have accepted : (roundAttempt d ops request p s).outcome.accepted := by
        by_contra failed
        exact read (not_accepted_iff.mp failed)
      exact ⟨attempted.congr rfl rfl rfl, .inr ⟨accepted, rfl, rfl, rfl, rfl⟩⟩

theorem readRound_out (round : readRound d ops request p s = .out next after) :
    Attempted d ops p next (roundAttempt d ops request p s) ∧
      Failed p next (roundAttempt d ops request p s) := by
  obtain none | ⟨attempted, curBlock, offset, middle, equal⟩ := readRound_cases d ops request p s
  · rw [none] at round
    cases round
  · rw [equal, afterRead] at round
    split at round
    · rename_i failed
      dsimp only at round
      split at round
      · cases round
      · cases round
        exact ⟨attempted.congr rfl rfl rfl, not_accepted_iff.mpr failed, rfl, rfl, rfl⟩
    · cases round

theorem readRound_noBlock (round : readRound d ops request p s = .noBlock next after) :
    next = p := by
  obtain none | ⟨attempted, curBlock, offset, middle, equal⟩ := readRound_cases d ops request p s
  · rw [none] at round
    cases round
    rfl
  · rw [equal, afterRead] at round
    split at round
    · dsimp only at round
      split at round <;> cases round
    · cases round

end Rounds

/-! ## The loop -/

section Loop

variable {σ : Type} {d : Desc} {ops : ReadOps σ} {request : OobOps}

def mostBitflips (attempts : List (Attempt σ)) : Int :=
  attempts.foldr (fun attempt most =>
    if attempt.outcome.ret < 0 then most else max most attempt.outcome.ret) 0

theorem mostBitflips_nonneg (attempts : List (Attempt σ)) : 0 ≤ mostBitflips attempts := by
  induction attempts with
  | nil => exact Int.le_refl 0
  | cons attempt attempts ih =>
    rw [mostBitflips, List.foldr_cons, ← mostBitflips]
    split
    · exact ih
    · exact Int.le_trans ih (Int.le_max_left ..)

def Mapped (d : Desc) (ops : ReadOps σ) (attempt : Attempt σ) : Prop :=
  ops.getMappingBlock attempt.before attempt.block = (attempt.address / d.blkSize : Nat)

/-- The variables of the loop follow from the attempts. -/
structure Tracked (d : Desc) (ops : ReadOps σ) (p : Progress σ) : Prop where
  failed : p.ret < 0 ↔ ∃ attempt ∈ p.attempts, attempt.outcome.ret < 0
  bitflips : p.maxBitflips = mostBitflips p.attempts
  mapped : ∀ attempt ∈ p.attempts, Mapped d ops attempt

theorem Tracked.start (address : Nat) : Tracked d ops (startRead address request) where
  failed := by
    refine iff_of_false (Int.lt_irrefl 0) ?_
    rintro ⟨attempt, none, -⟩
    cases none
  bitflips := rfl
  mapped _ none := nomatch none

theorem Tracked.step {p next : Progress σ} {attempt : Attempt σ} (tracked : Tracked d ops p)
    (attempted : Attempted d ops p next attempt) : Tracked d ops next where
  failed := by
    rw [attempted.ret, attempted.attempts, List.exists_mem_cons_iff, ← tracked.failed]
    split
    · rename_i negative
      exact iff_of_true negative (.inl negative)
    · rename_i read
      exact (or_iff_right read).symm
  bitflips := by
    rw [attempted.maxBitflips, attempted.attempts, tracked.bitflips]
    rfl
  mapped := by
    rw [attempted.attempts]
    exact List.forall_mem_cons.mpr ⟨attempted.mapped, tracked.mapped⟩

structure Concluded (d : Desc) (ops : ReadOps σ) (request : OobOps) (r : ReadResult σ) :
    Prop where
  short : ¬complete request r.retlen r.oobretlen → r.ret < 0
  failed : complete request r.retlen r.oobretlen →
    (r.ret < 0 ↔ ∃ attempt ∈ r.attempts, attempt.outcome.ret < 0)
  bitflips : 0 ≤ r.ret → r.ret = mostBitflips r.attempts
  mapped : ∀ attempt ∈ r.attempts, Mapped d ops attempt

theorem Tracked.finish_neg_iff {p : Progress σ} (tracked : Tracked d ops p) (s : σ) :
    (finish p s).ret < 0 ↔ p.ret < 0 := by
  rw [finish]
  dsimp only
  split
  · rfl
  · rename_i read
    refine iff_of_false ?_ read
    rw [tracked.bitflips, Int.not_lt]
    exact mostBitflips_nonneg p.attempts

theorem Tracked.finish_bitflips {p : Progress σ} (tracked : Tracked d ops p) (s : σ)
    (nonneg : 0 ≤ (finish p s).ret) : (finish p s).ret = mostBitflips p.attempts := by
  have read : ¬p.ret < 0 := fun negative =>
    absurd ((tracked.finish_neg_iff s).mpr negative) (Int.not_lt.mpr nonneg)
  rw [finish]
  exact (if_neg read).trans tracked.bitflips

theorem readLoop_concluded {fuel : Nat} {p : Progress σ} {s : σ} {r : ReadResult σ}
    (tracked : Tracked d ops p) (returns : readLoop d ops request fuel p s = some r) :
    Concluded d ops request r := by
  induction fuel generalizing p s with
  | zero => cases returns
  | succ fuel ih =>
    rw [readLoop] at returns
    split at returns
    · rename_i done
      cases returns
      exact ⟨fun short => absurd done short, fun _ => (tracked.finish_neg_iff s).trans tracked.failed,
        tracked.finish_bitflips s, tracked.mapped⟩
    · rename_i short
      split at returns
      · rename_i next after round
        exact ih (tracked.step (readRound_again round).1) returns
      · rename_i next after round
        cases returns
        obtain ⟨attempted, failed⟩ := readRound_out round
        have trackedNext := tracked.step attempted
        have negative : next.ret < 0 := by
          rw [attempted.ret, if_pos (not_accepted_iff.mp failed.failed).1]
          exact (not_accepted_iff.mp failed.failed).1
        refine ⟨fun _ => (trackedNext.finish_neg_iff after).mpr negative, fun done => ?_,
          trackedNext.finish_bitflips after, trackedNext.mapped⟩
        rw [finish, failed.retlen, failed.oobretlen] at done
        exact absurd done short
      · rename_i next after round
        cases returns
        cases readRound_noBlock round
        exact ⟨fun _ => show - EIO < 0 by decide, fun done => absurd done short,
          fun nonneg => absurd nonneg (show ¬0 ≤ - EIO by decide), tracked.mapped⟩

end Loop

/-! ## Termination -/

section Termination

variable {σ : Type} {d : Desc} {ops : ReadOps σ} {request : OobOps}

/-- A lower driver whose successful reads deliver all main bytes they are asked for, and
some of the spare bytes when they are asked for nothing else. -/
structure Delivers (ops : ReadOps σ) : Prop where
  retlen : ∀ address asked s, (ops.readOob address asked s).1.accepted →
    (ops.readOob address asked s).1.retlen = asked.len
  oobretlen : ∀ address asked s, (ops.readOob address asked s).1.accepted →
    (ops.readOob address asked s).1.oobretlen ≤ asked.ooblen
  spare : ∀ address asked s, (ops.readOob address asked s).1.accepted → asked.len = 0 →
    0 < asked.ooblen → 0 < (ops.readOob address asked s).1.oobretlen

def outstanding (request : OobOps) (p : Progress σ) : Nat :=
  request.len - p.retlen + (request.ooblen - p.oobretlen)

structure Counted (request : OobOps) (p : Progress σ) : Prop where
  retlen : p.retlen ≤ request.len
  oobretlen : p.oobretlen + p.cur.ooblen = request.ooblen
  retryCount : p.retryCount ≤ 10

theorem roundOps_len (small : request.len < 2 ^ 32) {p : Progress σ} (counted : Counted request p) :
    (roundOps d request p).len = min (d.blkSize - p.address % d.blkSize)
      (request.len - p.retlen) := by
  have retlen := counted.retlen
  have difference : u32 (request.len + 2 ^ 32 - u32 p.retlen) = request.len - p.retlen := by
    rw [u32, u32]
    omega
  rw [roundOps, difference]

theorem Stepped.outstanding_lt (delivers : Delivers ops) (small : request.len < 2 ^ 32)
    {p next : Progress σ} {s : σ} (counted : Counted request p)
    (short : ¬complete request p.retlen p.oobretlen)
    (stepped : Stepped p next (roundAttempt d ops request p s)) :
    Counted request next ∧ outstanding request next < outstanding request p := by
  have len := roundOps_len (d := d) small counted
  have inBlock : p.address % d.blkSize < d.blkSize := Nat.mod_lt _ (Nat.two_pow_pos _)
  have read : (roundAttempt d ops request p s).outcome.retlen = (roundOps d request p).len :=
    delivers.retlen _ _ _ stepped.accepted
  have spare : (roundAttempt d ops request p s).outcome.oobretlen ≤ p.cur.ooblen :=
    delivers.oobretlen _ _ _ stepped.accepted
  have some : (roundOps d request p).len = 0 → 0 < p.cur.ooblen →
      0 < (roundAttempt d ops request p s).outcome.oobretlen :=
    fun none asked => delivers.spare _ _ _ stepped.accepted none asked
  have retlen := stepped.retlen
  have oobretlen := stepped.oobretlen
  have ooblen := stepped.ooblen
  have count := stepped.retryCount
  obtain ⟨within, spares, -⟩ := counted
  rw [complete, not_and_or, Nat.not_le, Nat.not_le] at short
  generalize (roundAttempt d ops request p s).outcome.oobretlen = spareRead at *
  refine ⟨⟨by omega, by omega, by omega⟩, ?_⟩
  rw [outstanding, outstanding]
  omega

theorem readLoop_returns (delivers : Delivers ops) (small : request.len < 2 ^ 32) (fuel : Nat)
    {p : Progress σ} {s : σ} (counted : Counted request p)
    (enough : 12 * outstanding request p + 12 ≤ fuel + p.retryCount) :
    ∃ r, readLoop d ops request fuel p s = some r := by
  induction fuel generalizing p s with
  | zero =>
    have few := counted.retryCount
    omega
  | succ fuel ih =>
    rw [readLoop]
    split
    · exact ⟨_, rfl⟩
    · rename_i short
      split
      · rename_i next after round
        rcases (readRound_again round).2 with ⟨failed, few, count⟩ | stepped
        · have same : outstanding request next = outstanding request p := by
            rw [outstanding, outstanding, failed.retlen, failed.oobretlen]
          refine ih ⟨failed.retlen ▸ counted.retlen, ?_, by omega⟩ (by omega)
          rw [failed.oobretlen, failed.ooblen]
          exact counted.oobretlen
        · have count := stepped.retryCount
          have few := counted.retryCount
          obtain ⟨countedNext, less⟩ := stepped.outstanding_lt delivers small counted short
          exact ih countedNext (by omega)
      · exact ⟨_, rfl⟩
      · exact ⟨_, rfl⟩

theorem mtkBmtRead_returns (delivers : Delivers ops) (small : request.len < 2 ^ 32)
    (address : Nat) (s : σ) :
    ∃ r, mtkBmtRead d ops (12 * (request.len + request.ooblen) + 12) address request s = some r :=
  readLoop_returns delivers small _ ⟨Nat.zero_le _, Nat.zero_add _, Nat.zero_le _⟩ le_rfl

end Termination

/-! ## What is reported -/

section Report

variable {σ : Type}

def Delivered (request : OobOps) (r : ReadResult σ) : Prop :=
  complete request r.retlen r.oobretlen ∧
    ∀ attempt ∈ r.attempts, attempt.outcome.accepted → 0 ≤ attempt.outcome.ret

/-- The value returned is the largest bitflip count of what was delivered, and an
error exactly when something was not; what was delivered comes from the block that
was mapped. -/
structure Reports (d : Desc) (ops : ReadOps σ) (request : OobOps) (r : ReadResult σ) :
    Prop where
  nonneg : 0 ≤ r.ret ↔ Delivered request r
  bitflips : 0 ≤ r.ret → r.ret = mostBitflips r.attempts
  mapped : ∀ attempt ∈ r.attempts, attempt.outcome.accepted → Mapped d ops attempt

def Unretried (request : OobOps) (r : ReadResult σ) : Prop :=
  Delivered request r → ∀ attempt ∈ r.attempts, 0 ≤ attempt.outcome.ret

/-- The result is right unless a chunk was delivered after a retry: its first error
stays in `ret`. -/
theorem mtkBmtRead_reports_iff (d : Desc) (ops : ReadOps σ) (fuel address : Nat)
    (request : OobOps) (s : σ) (r : ReadResult σ)
    (returns : mtkBmtRead d ops fuel address request s = some r) :
    Reports d ops request r ↔ Unretried request r := by
  have concluded := readLoop_concluded (Tracked.start address) returns
  constructor
  · intro reports delivered attempt member
    by_contra failed
    have negative := (concluded.failed delivered.1).mpr ⟨attempt, member, Int.not_le.mp failed⟩
    exact absurd (reports.nonneg.mpr delivered) (Int.not_le.mpr negative)
  · intro unretried
    refine ⟨⟨fun nonneg => ?_, fun delivered => ?_⟩, concluded.bitflips,
      fun attempt member _ => concluded.mapped attempt member⟩
    · have done : complete request r.retlen r.oobretlen := by
        by_contra short
        exact absurd nonneg (Int.not_le.mpr (concluded.short short))
      refine ⟨done, fun attempt member _ => ?_⟩
      by_contra failed
      have negative := (concluded.failed done).mpr ⟨attempt, member, Int.not_le.mp failed⟩
      exact absurd nonneg (Int.not_le.mpr negative)
    · by_contra negative
      obtain ⟨attempt, member, failed⟩ :=
        (concluded.failed delivered.1).mp (Int.not_le.mp negative)
      exact absurd (unretried delivered attempt member) (Int.not_le.mpr failed)

end Report

/-! ## A read that succeeds at the second attempt -/

def oneBlockChip : Desc where
  totalBlks := 1
  blkShift := 9
  pgShift := 9
  bmtPoolSize := 0
  tableSize := 1
  oobOffset := 0
  bitflipThreshold := 0
  remapRange := []
  fault _ := {}
  totalBlks_pos := by decide
  totalBlks_lt := by decide
  pgShift_pos := by decide
  pgShift_le := le_rfl
  tableSize_le := by decide

/-- The lower reads return the values of a list; every remap succeeds and moves the block. -/
def scripted : ReadOps (Nat × List Int) where
  getMappingBlock s _ := s.1
  remapBlock _ _ _ s := (true, s.1 + 1, s.2)
  readOob _ asked s := (⟨s.2.headD 0, if s.2.headD 0 < 0 then 0 else asked.len, 0⟩, s.1, s.2.tail)

def onePage : OobOps := ⟨256, 0, 0, 0, 0⟩

def bitflipRead : ReadResult (Nat × List Int) :=
  (mtkBmtRead oneBlockChip scripted 3 0 onePage (0, [2])).get (by decide)

theorem mtkBmtRead_reports_bitflips :
    Reports oneBlockChip scripted onePage bitflipRead ↔ Unretried onePage bitflipRead :=
  mtkBmtRead_reports_iff oneBlockChip scripted 3 0 onePage (0, [2]) bitflipRead
    (Option.some_get _).symm

def retriedRead : ReadResult (Nat × List Int) :=
  (mtkBmtRead oneBlockChip scripted 3 0 onePage (0, [-74, 0])).get (by decide)

/-- The page cannot be read from blocks 0 to 2. -/
def badBlocks : ReadOps Nat where
  getMappingBlock s _ := s
  remapBlock _ _ _ s := (true, s + 1)
  readOob _ asked s := (if s < 3 then ⟨-74, 0, 0⟩ else ⟨1, asked.len, asked.ooblen⟩, s)

theorem mtkBmtRead_returns_badBlocks :
    ∃ r, mtkBmtRead oneBlockChip badBlocks 3084 0 onePage 0 = some r := by
  refine mtkBmtRead_returns ⟨fun _ _ s => ?_, fun _ _ s => ?_, fun _ _ s => ?_⟩ (by decide) 0 0
  all_goals
    by_cases bad : s < 3
    · simp [badBlocks, bad, Outcome.accepted, mtdIsBitflip, EUCLEAN]
    · simp [badBlocks, bad]

/-- The page is delivered and the call returns `-EBADMSG`. -/
theorem delivered_read_fails : ¬Reports oneBlockChip scripted onePage retriedRead := by
  intro reports
  have delivered : Delivered onePage retriedRead := ⟨by decide, by decide⟩
  exact absurd (reports.nonneg.mpr delivered) (by decide)

end MetaFilogic.Bmt
