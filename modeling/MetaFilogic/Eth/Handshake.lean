import MetaFilogic.Library.Steps
import Mathlib.Data.Finset.Prod

/-!
# The reset handshake with the Wi-Fi chips

`mtk_pending_work` asks the Wi-Fi chips to stop or to reset and sleeps on `wait_ser_done` until
they have answered.  One countdown, one completion and one failure flag serve all chips and all
requests.
-/

namespace MetaFilogic.Eth.Ser

/-! ## The driver -/

/-- What `eth->reset.event` asks for; no event is 0. -/
inductive FeEvent where
  | startReset
  | stopTraffic
  deriving DecidableEq

/-- What `mtk_pending_work` sends. -/
inductive FeNote where
  | request (event : FeEvent)
  | startTraffic
  | resetDone
  | resetNatDone
  deriving DecidableEq

/-- Where `mtk_pending_work` is: the step named comes next. -/
inductive Phase where
  | idle
  | sending
  | testing
  | waiting
  | judging
  | resending
  | waitingAgain
  | clearing
  | stopping
  | acking
  | finishing
  deriving DecidableEq

/-- The variables of the driver.  `looked` are the events of those who have seen `reset_lock` at 0
and have not written `eth->reset.event` yet. -/
structure Driver where
  mtkWifiNum : Int
  mtkRestCnt : Int
  waitSerDone : Nat
  waitAckDone : Nat
  mtkStopFail : Bool
  event : Option FeEvent
  resetLock : Nat
  scheduled : Bool
  looked : List FeEvent
  phase : Phase

inductive WifiNote where
  | wifiResetDone
  | feStopTrafficDone
  | feStopTrafficDoneFail
  | wifiChipOnline
  | wifiChipOffline
  | wifiL1serDone

namespace Driver

variable (d : Driver)

def mtkEthNetdeviceEvent : WifiNote → Driver
  | .wifiResetDone | .feStopTrafficDone =>
    if d.mtkRestCnt - 1 = 0 then
      { d with mtkRestCnt := d.mtkWifiNum, waitSerDone := d.waitSerDone + 1 }
    else { d with mtkRestCnt := d.mtkRestCnt - 1 }
  | .wifiChipOnline =>
    { d with mtkWifiNum := d.mtkWifiNum + 1, mtkRestCnt := d.mtkWifiNum + 1 }
  | .wifiChipOffline =>
    { d with mtkWifiNum := d.mtkWifiNum - 1, mtkRestCnt := d.mtkWifiNum - 1 }
  | .feStopTrafficDoneFail =>
    { d with
      mtkStopFail := true
      event := some .startReset
      waitSerDone := d.waitSerDone + 1
      mtkRestCnt := d.mtkWifiNum }
  | .wifiL1serDone => { d with waitAckDone := d.waitAckDone + 1 }

/-- The test of `reset_lock` in `mtk_hw_reset_monitor` and for `MTK_FE_START_RESET_INIT`. -/
def look (event : FeEvent) : Option Driver :=
  if d.resetLock = 0 then some { d with looked := event :: d.looked } else none

/-- The write of `eth->reset.event` after the test, and `schedule_work`. -/
def ask (event : FeEvent) : Option Driver :=
  if event ∈ d.looked then
    some { d with looked := d.looked.erase event, event := some event, scheduled := true }
  else none

/-- The work starts; `needed` is what `mtk_check_reset_event` finds. -/
def mtkCheckResetEvent (needed : Bool) : Option Driver :=
  if d.scheduled = true ∧ d.phase = .idle then
    some (if needed then
      { d with scheduled := false, resetLock := d.resetLock + 1, phase := .sending }
    else { d with scheduled := false })
  else none

def mtkPendingWork (v3 : Bool) : Option (Driver × Option FeNote) :=
  match d.phase with
  | .idle => none
  | .sending =>
    some ({ d with phase := .testing },
      some (.request (if d.event = some .stopTraffic then .stopTraffic else .startReset)))
  | .testing =>
    some ({ d with phase := if 0 < d.mtkWifiNum then .waiting else .stopping }, none)
  | .waiting =>
    if 0 < d.waitSerDone then
      some ({ d with waitSerDone := d.waitSerDone - 1, phase := .judging }, none)
    else none
  | .judging =>
    some ({ d with phase := if v3 && d.mtkStopFail then .resending else .stopping }, none)
  | .resending => some ({ d with phase := .waitingAgain }, some (.request .startReset))
  | .waitingAgain =>
    if 0 < d.waitSerDone then
      some ({ d with waitSerDone := d.waitSerDone - 1, phase := .clearing }, none)
    else none
  | .clearing => some ({ d with mtkStopFail := false, phase := .stopping }, none)
  | .stopping =>
    if d.event = some .stopTraffic then some ({ d with phase := .finishing }, some .startTraffic)
    else
      some ({ d with phase := if v3 && decide (0 < d.mtkWifiNum) then .acking else .finishing },
        some .resetDone)
  | .acking =>
    if 0 < d.waitAckDone then
      some ({ d with waitAckDone := d.waitAckDone - 1, phase := .finishing }, none)
    else none
  | .finishing =>
    some ({ d with event := none, resetLock := d.resetLock - 1, phase := .idle },
      some .resetNatDone)

end Driver

/-! ## The driver and the chips -/

structure Request where
  number : Nat
  event : FeEvent
  deriving DecidableEq

/-- The driver, the chips that are online, the answers each of them owes, the latest request and
the notification that closed the last run. -/
structure State where
  driver : Driver
  online : Finset Nat
  owed : Finset (Nat × Request)
  latest : Request
  closing : FeNote

/-- What happens: a chip appears, leaves, answers a request or acknowledges the end of a reset, an
event is asked for, or the work starts or takes a step. -/
inductive Label where
  | online (chip : Nat)
  | offline (chip : Nat)
  | done (chip : Nat) (request : Request)
  | fail (chip : Nat) (request : Request)
  | l1serDone
  | look (event : FeEvent)
  | ask (event : FeEvent)
  | start (needed : Bool)
  | work

namespace State

variable (s : State)

def send (driver : Driver) : Option FeNote → State
  | none | some .resetNatDone => { s with driver := driver }
  | some (.request event) =>
    { s with
      driver := driver
      latest := ⟨s.latest.number + 1, event⟩
      owed := s.owed ∪ s.online ×ˢ {⟨s.latest.number + 1, event⟩} }
  | some note => { s with driver := driver, closing := note }

def step (v3 : Bool) (s : State) : Label → Option State
  | .online chip =>
    if chip ∉ s.online then
      some { s with
        driver := s.driver.mtkEthNetdeviceEvent .wifiChipOnline
        online := insert chip s.online }
    else none
  | .offline chip =>
    if chip ∈ s.online then
      some { s with
        driver := s.driver.mtkEthNetdeviceEvent .wifiChipOffline
        online := s.online.erase chip
        owed := s.owed.filter (·.1 ≠ chip) }
    else none
  | .done chip request =>
    if (chip, request) ∈ s.owed then
      some { s with
        driver := s.driver.mtkEthNetdeviceEvent
          (if request.event = .stopTraffic then .feStopTrafficDone else .wifiResetDone)
        owed := s.owed.erase (chip, request) }
    else none
  | .fail chip request =>
    if (chip, request) ∈ s.owed ∧ request.event = .stopTraffic then
      some { s with
        driver := s.driver.mtkEthNetdeviceEvent .feStopTrafficDoneFail
        owed := s.owed.erase (chip, request) }
    else none
  | .l1serDone => some { s with driver := s.driver.mtkEthNetdeviceEvent .wifiL1serDone }
  | .look event => (s.driver.look event).map fun driver => { s with driver := driver }
  | .ask event => (s.driver.ask event).map fun driver => { s with driver := driver }
  | .start needed =>
    (s.driver.mtkCheckResetEvent needed).map fun driver => { s with driver := driver }
  | .work => (s.driver.mtkPendingWork v3).map fun done => s.send done.1 done.2

def initial : State where
  driver :=
    { mtkWifiNum := 0, mtkRestCnt := 0, waitSerDone := 0, waitAckDone := 0, mtkStopFail := false,
      event := none, resetLock := 0, scheduled := false, looked := [], phase := .idle }
  online := ∅
  owed := ∅
  latest := ⟨0, .startReset⟩
  closing := .resetDone

def Answered : Prop := ∀ chip, (chip, s.latest) ∉ s.owed

/-- The work goes on to `mtk_stop` after all answers only, no completion is left over when it is
done, it does not sleep once all have answered, and the closing notification is that of the latest
request. -/
structure Exact : Prop where
  answered : s.driver.phase ∈ [.stopping, .acking, .finishing] → s.Answered
  nothingLeft : s.driver.phase = .idle → s.driver.waitSerDone = 0
  signalled : s.driver.phase ∈ [.waiting, .waitingAgain] → s.Answered → 0 < s.driver.waitSerDone
  closed : s.driver.phase ∈ [.acking, .finishing] →
    s.closing = if s.latest.event = .stopTraffic then .startTraffic else .resetDone

end State

end MetaFilogic.Eth.Ser
