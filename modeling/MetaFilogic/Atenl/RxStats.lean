import MetaFilogic.Library.Steps
import Mathlib.Algebra.Group.Pi.Basic
import Mathlib.Data.BitVec
import Mathlib.Data.Fintype.Basic
import Mathlib.Tactic.Abel

/-!
# Receive statistics

The driver counts what a band receives and starts again from zero when it is told to
receive.  `GET_RX_INFO` reports what has been counted since the last report, for which the
counters of the last report are kept for each band.  What each command acts on is the
band of the request or the current band, and the message goes to the wiphy of the
current band.
-/

namespace MetaFilogic.Atenl

abbrev MAX_BAND_NUM : Nat := 3

inductive TestmodeState where
  | off
  | idle
  | rxFrames
  deriving DecidableEq

/-- The fields of `struct atenl_rx_stat`. -/
inductive RxField where
  | total
  | okCnt
  | errCnt
  | lenMismatch
  deriving DecidableEq

instance : Fintype RxField where
  elems := {.total, .okCnt, .errCnt, .lenMismatch}
  complete field := by cases field <;> decide

abbrev RxStat (bits : Nat) := RxField → BitVec bits

structure RxCounters where
  rxPackets : BitVec 64
  rxFcsError : BitVec 64
  rxLenMismatch : BitVec 64

namespace RxCounters

def zero : RxCounters := ⟨0, 0, 0⟩

def add (c d : RxCounters) : RxCounters :=
  ⟨c.rxPackets + d.rxPackets, c.rxFcsError + d.rxFcsError, c.rxLenMismatch + d.rxLenMismatch⟩

/-- `rx_cur` of `atenl_nl_get_rx_info_cb`. -/
def rxCur (c : RxCounters) : RxStat 64
  | .total => c.rxPackets
  | .errCnt => c.rxFcsError
  | .lenMismatch => c.rxLenMismatch
  | .okCnt => c.rxPackets - c.rxFcsError - c.rxLenMismatch

end RxCounters

/-- The fields of `struct atenl_band` the statistics depend on, with what the driver has
counted.  `reported` adds up what has been reported since the last start or reset of the
band, `received` what the driver has counted since then, and `settled` is `received` as of
the last report; `based` tells that there has been a start or reset. -/
structure RxBand where
  curState : TestmodeState
  resetRxCnt : Bool
  rxStat : RxStat 64
  driver : RxCounters
  based : Bool
  received : RxStat 64
  settled : RxStat 64
  reported : RxStat 32

def RxBand.rebase (b : RxBand) : RxBand :=
  { b with based := true, received := 0, settled := 0, reported := 0 }

structure RxState where
  curBand : Fin MAX_BAND_NUM
  anb : Fin MAX_BAND_NUM → RxBand

/-- Frames that arrive, and the commands with the fields of their request.  `linked` tells
that the netlink message could be set up, `answered` that the driver sent the statistics. -/
inductive RxCmd where
  | receive (band : Fin MAX_BAND_NUM) (frames : RxCounters)
  | startRx (linked : Bool) (band : BitVec 8)
  | stopRx (linked : Bool) (band : BitVec 8)
  | setChannel (band bw priSel : BitVec 8)
  | resetCounter
  | getRxInfo (answered : Bool)

/-- `band >= MAX_BAND_NUM` of a handler. -/
def bandOf (band : BitVec 8) : Option (Fin MAX_BAND_NUM) :=
  if inside : band.toNat < MAX_BAND_NUM then some ⟨band.toNat, inside⟩ else none

namespace RxState

variable (s : RxState)

def setBand (band : Fin MAX_BAND_NUM) (b : RxBand) : RxState :=
  { s with anb := Function.update s.anb band b }

/-- `atenl_set_attr_state(an, msg, band, state)` in a message to the current band; the driver
counts from zero when the state is `MT76_TM_STATE_RX_FRAMES`. -/
def setAttrState (band : Fin MAX_BAND_NUM) (state : TestmodeState) : RxState :=
  if (s.anb band).curState = state then s
  else
    let s := s.setBand band { s.anb band with curState := state }
    if state = .rxFrames then
      s.setBand s.curBand { s.anb s.curBand with driver := .zero }
    else s

/-- `START_RX` in `atenl_nl_rx`; counting starts again for the band of the request. -/
def startRx (band : Fin MAX_BAND_NUM) : RxState :=
  let s := s.setAttrState band .rxFrames
  let s := s.setBand s.curBand { s.anb s.curBand with resetRxCnt := false, rxStat := 0 }
  s.setBand band (s.anb band).rebase

def resetCounter : RxState :=
  s.setBand s.curBand { (s.anb s.curBand).rebase with resetRxCnt := true, rxStat := 0 }

/-- `rx_diff` of `atenl_nl_get_rx_info_cb`, and the band after it. -/
def rxDiff (b : RxBand) : RxStat 64 × RxBand :=
  if b.resetRxCnt = false ∨ b.curState = .rxFrames then
    (b.driver.rxCur - b.rxStat, { b with rxStat := b.driver.rxCur })
  else (0, b)

def toU32 (stat : RxStat 64) : RxStat 32 := fun field => (stat field).setWidth 32

def getRxInfo : RxState :=
  let (diff, b) := rxDiff (s.anb s.curBand)
  s.setBand s.curBand { b with reported := b.reported + toU32 diff, settled := b.received }

/-- The test of the primary channel in `atenl_hqa_set_channel`. -/
def priSelOk (bw priSel : BitVec 8) : Bool :=
  !((bw == 12 && 15 < priSel) || (bw == 5 && 7 < priSel) || (bw == 2 && 3 < priSel) ||
    (bw == 1 && 1 < priSel))

def step : RxCmd → Option RxState
  | .receive band frames =>
    let b := s.anb band
    some (s.setBand band { b with
      driver := b.driver.add frames
      received := b.received + frames.rxCur })
  | .startRx linked band =>
    match bandOf band with
    | some band => some (if linked then s.startRx band else s)
    | none => some s
  | .stopRx linked band =>
    match bandOf band with
    | some band => some (if linked then s.setAttrState band .idle else s)
    | none => some s
  | .setChannel band bw priSel =>
    match bandOf band with
    | some band => some (if priSelOk bw priSel then { s with curBand := band } else s)
    | none => some s
  | .resetCounter => some s.resetCounter
  | .getRxInfo answered => some (if answered then s.getRxInfo else s)

def NothingCounted : Prop := toU32 (s.anb s.curBand).driver.rxCur = 0

/-- Receiving is started for the current band, and the history is cleared only when the driver
starts to count again with it or has not counted anything; a report that leaves the counters
out while the band is not receiving leaves nothing out. -/
def Orderly : RxCmd → Prop
  | .startRx linked band => linked = true → ∀ started, bandOf band = some started →
      started = s.curBand ∧ ((s.anb started).curState = .rxFrames → s.NothingCounted)
  | .resetCounter => (s.anb s.curBand).curState = .rxFrames → s.NothingCounted
  | .getRxInfo answered => answered = true → (s.anb s.curBand).based = true →
      (s.anb s.curBand).resetRxCnt = true → (s.anb s.curBand).curState ≠ .rxFrames →
      toU32 (s.anb s.curBand).received = toU32 (s.anb s.curBand).settled
  | .receive .. | .stopRx .. | .setChannel .. => True

instance : Decidable s.NothingCounted := inferInstanceAs (Decidable (_ = _))

instance (cmd : RxCmd) : Decidable (s.Orderly cmd) :=
  match cmd with
  | .startRx .. => inferInstanceAs (Decidable (_ → ∀ _, _ → _))
  | .resetCounter => inferInstanceAs (Decidable (_ → _))
  | .getRxInfo _ => inferInstanceAs (Decidable (_ → _ → _ → _ → _))
  | .receive .. | .stopRx .. | .setChannel .. => inferInstanceAs (Decidable True)

/-- The reports since the last start or reset of a band add up to what the driver has counted
on it from then to the last report. -/
def ReportedOnce : Prop :=
  ∀ band, (s.anb band).based = true → (s.anb band).reported = toU32 (s.anb band).settled

def Fresh : Prop := ∀ band, (s.anb band).based = false

/-- What is reported next is what has not been reported yet, or the next report leaves the
counters out. -/
def Kept (b : RxBand) : Prop :=
  b.reported = toU32 b.settled ∧ (b.resetRxCnt = true ∧ b.curState ≠ .rxFrames ∨
    toU32 b.driver.rxCur - toU32 b.rxStat = toU32 b.received - toU32 b.settled)

section Runs

variable {s : RxState} {b : RxBand} {band other : Fin MAX_BAND_NUM}

@[simp]
theorem toU32_zero : toU32 0 = 0 := rfl

@[simp]
theorem toU32_add (x y : RxStat 64) : toU32 (x + y) = toU32 x + toU32 y := by
  funext field
  exact BitVec.setWidth_add (x field) (y field) (by decide)

@[simp]
theorem toU32_sub (x y : RxStat 64) : toU32 (x - y) = toU32 x - toU32 y := by
  have restored : toU32 (x - y) + toU32 y = toU32 x := by
    rw [← toU32_add, sub_add_cancel]
  rw [← restored, add_sub_cancel_right]

theorem rxCur_zero : RxCounters.zero.rxCur = 0 := by
  funext field
  cases field <;> rfl

theorem rxCur_add (c d : RxCounters) : (c.add d).rxCur = c.rxCur + d.rxCur := by
  funext field
  cases field with
  | okCnt =>
    change c.rxPackets + d.rxPackets - (c.rxFcsError + d.rxFcsError) -
      (c.rxLenMismatch + d.rxLenMismatch) = c.rxPackets - c.rxFcsError - c.rxLenMismatch +
        (d.rxPackets - d.rxFcsError - d.rxLenMismatch)
    abel
  | _ => rfl

theorem setBand_self : (s.setBand band b).anb band = b := Function.update_self ..

theorem setBand_other (different : other ≠ band) : (s.setBand band b).anb other = s.anb other :=
  Function.update_of_ne different ..

theorem Kept.receive {frames : RxCounters} (kept : Kept b) :
    Kept { b with driver := b.driver.add frames, received := b.received + frames.rxCur } := by
  refine ⟨kept.1, kept.2.imp_right fun unreported => ?_⟩
  change toU32 (b.driver.add frames).rxCur - toU32 b.rxStat =
    toU32 (b.received + frames.rxCur) - toU32 b.settled
  rw [rxCur_add, toU32_add, toU32_add, add_sub_right_comm, unreported, add_sub_right_comm]

theorem Kept.idle (kept : Kept b) : Kept { b with curState := .idle } := by
  by_cases flag : b.resetRxCnt = true
  · exact ⟨kept.1, .inl ⟨flag, TestmodeState.noConfusion⟩⟩
  · exact ⟨kept.1, .inr (kept.2.resolve_left fun skipped => flag skipped.1)⟩

theorem rebase_kept (counted : b.resetRxCnt = true ∧ b.curState ≠ .rxFrames ∨
    toU32 b.driver.rxCur = 0) (history : b.rxStat = 0) : Kept b.rebase := by
  refine ⟨rfl, counted.imp_right fun none => ?_⟩
  change toU32 b.driver.rxCur - toU32 b.rxStat = toU32 0 - toU32 0
  rw [none, history, toU32_zero]

theorem rxDiff_based : (rxDiff b).2.based = b.based := by
  rw [rxDiff]
  split
  · rfl
  · rfl

theorem Kept.report (kept : Kept b) (left : b.resetRxCnt = true → b.curState ≠ .rxFrames →
    toU32 b.received = toU32 b.settled) :
    Kept { (rxDiff b).2 with
      reported := (rxDiff b).2.reported + toU32 (rxDiff b).1
      settled := (rxDiff b).2.received } := by
  rw [rxDiff]
  split
  · rename_i counted
    have unreported := kept.2.resolve_left fun skipped =>
      counted.elim (fun flag => Bool.false_ne_true (flag.symm.trans skipped.1)) skipped.2
    refine ⟨?_, .inr ?_⟩
    · change b.reported + toU32 (b.driver.rxCur - b.rxStat) = toU32 b.received
      rw [toU32_sub, unreported, kept.1, add_sub_cancel]
    · change toU32 b.driver.rxCur - toU32 b.driver.rxCur = toU32 b.received - toU32 b.received
      rw [sub_self, sub_self]
  · rename_i skipped
    push Not at skipped
    obtain ⟨flag, state⟩ := skipped
    rw [ne_eq, Bool.not_eq_false] at flag
    refine ⟨?_, .inl ⟨flag, state⟩⟩
    change b.reported + toU32 0 = toU32 b.received
    rw [toU32_zero, add_zero, kept.1, left flag state]

/-- The band of `setAttrState` gets the state; no other state or history changes. -/
theorem setAttrState_idle : s.setAttrState band .idle =
    s.setBand band { s.anb band with curState := .idle } := by
  rw [setAttrState]
  split
  · rename_i already
    rw [← already]
    simp [setBand]
  · rfl

theorem setAttrState_rxFrames : ∃ driver, s.setAttrState s.curBand .rxFrames =
    s.setBand s.curBand { s.anb s.curBand with curState := .rxFrames, driver := driver } ∧
      (((s.anb s.curBand).curState = .rxFrames → s.NothingCounted) → toU32 driver.rxCur = 0) := by
  rw [setAttrState]
  split
  · rename_i already
    refine ⟨(s.anb s.curBand).driver, ?_, fun counted => counted already⟩
    rw [← already]
    simp [setBand]
  · refine ⟨.zero, ?_, fun _ => by rw [rxCur_zero, toU32_zero]⟩
    simp [setBand]

theorem startRx_current (counted : (s.anb s.curBand).curState = .rxFrames → s.NothingCounted) :
    ∃ b : RxBand, s.startRx s.curBand = s.setBand s.curBand b.rebase ∧ b.rxStat = 0 ∧
      toU32 b.driver.rxCur = 0 := by
  obtain ⟨driver, started, none⟩ := setAttrState_rxFrames (s := s)
  let b := { s.anb s.curBand with
    curState := .rxFrames
    driver := driver
    resetRxCnt := false
    rxStat := 0 }
  refine ⟨b, ?_, rfl, none counted⟩
  rw [startRx, started]
  simp [setBand, b]

/-- Every band that has been started or reset reports what is new. -/
def Inv (s : RxState) : Prop := ∀ band, (s.anb band).based = true → Kept (s.anb band)

theorem Inv.setBand (inv : s.Inv) (kept : b.based = true → Kept b) : (s.setBand band b).Inv := by
  intro other based
  by_cases same : other = band
  · subst same
    rw [setBand_self] at based ⊢
    exact kept based
  · rw [setBand_other same] at based ⊢
    exact inv other based

theorem Inv.step {cmd : RxCmd} {s' : RxState} (inv : s.Inv) (orderly : s.Orderly cmd)
    (stepped : s.step cmd = some s') : s'.Inv := by
  cases cmd with
  | receive band frames =>
    cases stepped
    exact inv.setBand fun based => (inv band based).receive
  | startRx linked band =>
    rw [RxState.step] at stepped
    split at stepped
    · rename_i started is
      cases stepped
      split
      · rename_i link
        obtain ⟨rfl, counted⟩ := orderly link started is
        obtain ⟨b, after, history, driver⟩ := startRx_current counted
        rw [after]
        exact inv.setBand fun _ => rebase_kept (.inr driver) history
      · exact inv
    · cases stepped
      exact inv
  | stopRx linked band =>
    rw [RxState.step] at stepped
    split at stepped
    · rename_i stopped is
      cases stepped
      split
      · rw [setAttrState_idle]
        exact inv.setBand fun based => (inv stopped based).idle
      · exact inv
    · cases stepped
      exact inv
  | setChannel band bw priSel =>
    rw [RxState.step] at stepped
    split at stepped
    · cases stepped
      split
      · exact inv
      · exact inv
    · cases stepped
      exact inv
  | resetCounter =>
    cases stepped
    rw [RxState.resetCounter]
    refine inv.setBand fun _ => ?_
    let b := { s.anb s.curBand with resetRxCnt := true, rxStat := 0 }
    have counted : b.resetRxCnt = true ∧ b.curState ≠ .rxFrames ∨ toU32 b.driver.rxCur = 0 := by
      by_cases receiving : b.curState = .rxFrames
      · exact .inr (orderly receiving)
      · exact .inl ⟨rfl, receiving⟩
    exact rebase_kept counted rfl
  | getRxInfo answered =>
    cases stepped
    split
    · rename_i answer
      rw [RxState.getRxInfo]
      refine inv.setBand fun based => ?_
      have based := rxDiff_based.symm.trans based
      exact (inv s.curBand based).report (orderly answer based)
    · exact inv

end Runs

/-! ## Two reports -/

def noReports : RxState :=
  ⟨0, fun _ => ⟨.idle, false, 0, .zero, false, 0, 0, 0⟩⟩

theorem noReports_fresh : noReports.Fresh := fun _ => rfl

/-- Band 1 receives seven frames, one with a wrong FCS, and then two more. -/
def twoReports : List RxCmd :=
  [.setChannel 1 0 0, .startRx true 1, .receive 1 ⟨7, 1, 0⟩, .getRxInfo true,
    .receive 1 ⟨2, 0, 0⟩, .getRxInfo true]

end RxState

end MetaFilogic.Atenl
