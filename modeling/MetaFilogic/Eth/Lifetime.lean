import MetaFilogic.Library.Steps
import Mathlib.Algebra.Ring.Nat
import Mathlib.Data.Finset.Card
import Mathlib.Data.Fintype.Basic

/-!
# Who keeps the DMA running

All netdevs share one set of rings, and `dma_refcnt` counts their users.  The network core
opens and closes a netdev that is up or down for it, while the reset work, a switch of a
mux and the removal of the driver call `mtk_open` and `mtk_stop` on their own.
-/

namespace MetaFilogic.Eth

/-- What `mtk_start_dma` and `phylink_of_phy_connect` do when `mtk_open` gets to them. -/
structure OpenOutcome where
  startDma : Bool
  connect : Bool

/-- What the last user of the DMA takes down.  `underflow` and `raised` record that the
count was to go below zero, and that a failed `mtk_open` has changed it. -/
structure Dma where
  dmaRefcnt : Nat
  rings : Bool
  napi : Bool
  underflow : Bool
  raised : Bool

namespace Dma

variable (d : Dma)

/-- `mtk_open` up to the count; `refcount_set` and `refcount_inc` at its end. -/
def start (outcome : OpenOutcome) : Option Dma :=
  if d.dmaRefcnt = 0 then
    if outcome.startDma then some { d with rings := true, napi := true, dmaRefcnt := 1 }
    else none
  else some { d with dmaRefcnt := d.dmaRefcnt + 1 }

/-- `mtk_open`, and whether it succeeds; `phy` tells whether it connects the PHY. -/
def openOne (phy : Bool) (outcome : OpenOutcome) : Bool × Dma :=
  match d.start outcome with
  | none => (false, { d with rings := false })
  | some d => if phy && !outcome.connect then (false, { d with raised := true }) else (true, d)

/-- `mtk_stop`.  A count of zero stays what it is in `refcount_dec_and_test`. -/
def stopOne : Dma :=
  if d.dmaRefcnt = 0 then { d with underflow := true }
  else if d.dmaRefcnt = 1 then { d with dmaRefcnt := 0, rings := false, napi := false }
  else { d with dmaRefcnt := d.dmaRefcnt - 1 }

/-- The count is a number of users, and the rings and NAPI are there when there are any. -/
structure Serves (users : Nat) : Prop where
  count : d.dmaRefcnt = users
  rings : d.rings = decide (0 < users)
  napi : d.napi = decide (0 < users)
  underflow : d.underflow = false
  raised : d.raised = false

section Users

variable {d : Dma} {users : Nat} {phy : Bool} {outcome : OpenOutcome}

theorem Serves.stopOne (serves : d.Serves users) (some : 0 < users) :
    d.stopOne.Serves (users - 1) := by
  have positive : d.dmaRefcnt ≠ 0 := by
    rw [serves.count]
    omega
  rw [Dma.stopOne, if_neg positive]
  split
  · rename_i last
    rw [serves.count] at last
    subst last
    exact ⟨rfl, rfl, rfl, serves.underflow, serves.raised⟩
  · rename_i more
    rw [serves.count] at more
    have left : decide (0 < users) = decide (0 < users - 1) := by
      rw [decide_eq_decide]
      omega
    exact ⟨by rw [serves.count], serves.rings.trans left, serves.napi.trans left,
      serves.underflow, serves.raised⟩

theorem Serves.start (serves : d.Serves users) (started : users = 0 → outcome.startDma = true) :
    ∃ d', d.start outcome = some d' ∧ d'.Serves (users + 1) := by
  rw [Dma.start]
  split
  · rename_i none
    rw [serves.count] at none
    subst none
    rw [if_pos (started rfl)]
    exact ⟨_, rfl, rfl, rfl, rfl, serves.underflow, serves.raised⟩
  · rename_i positive
    rw [serves.count] at positive
    have more : decide (0 < users) = decide (0 < users + 1) := by
      rw [decide_eq_decide]
      omega
    exact ⟨_, rfl, by rw [serves.count], serves.rings.trans more, serves.napi.trans more,
      serves.underflow, serves.raised⟩

theorem Serves.openOne (serves : d.Serves users) (started : users = 0 → outcome.startDma = true)
    (connected : phy = true → outcome.connect = true) :
    (d.openOne phy outcome).1 = true ∧ (d.openOne phy outcome).2.Serves (users + 1) := by
  obtain ⟨d', is, more⟩ := serves.start started
  have attached : (phy && !outcome.connect) = false := by
    cases phy with
    | false => rfl
    | true => rw [connected rfl]; rfl
  rw [Dma.openOne, is]
  dsimp only
  rw [attached]
  exact ⟨rfl, more⟩

theorem Serves.openOne_failed (serves : d.Serves 0) (failed : outcome.startDma = false) :
    (d.openOne phy outcome).1 = false ∧ (d.openOne phy outcome).2.Serves 0 := by
  have none : d.start outcome = none := by
    rw [Dma.start, if_pos serves.count, failed, if_neg Bool.false_ne_true]
  rw [Dma.openOne, none]
  exact ⟨rfl, serves.count, rfl, serves.napi, serves.underflow, serves.raised⟩

end Users

end Dma

/-- Where `mtk_pending_work` is: between the two places where it gives up `rtnl_lock`, or
after them. -/
inductive PendingPhase where
  | idle
  | prepared
  | restarted
  deriving DecidableEq

/-- Where `mux_poll` is on its way through `mtk_mux_switch_channel`. -/
inductive MuxPhase where
  | idle
  | chosen
  | stopped
  | locked
  | created
  deriving DecidableEq

def MuxPhase.Switching : MuxPhase → Prop
  | .idle | .chosen => False
  | .stopped | .locked | .created => True

/-- The netdevs of a driver.  `running` has those the network core has up, and `opened`
those whose last `mtk_open` succeeded and that have not been stopped since. -/
structure EthState (devs : Nat) where
  netdev : Finset (Fin devs)
  running : Finset (Fin devs)
  opened : Finset (Fin devs)
  dma : Dma
  resetting : Bool
  rstctrlEth : Bool
  pendingWork : PendingPhase
  mux : Fin devs → MuxPhase

/-- What can happen while `rtnl_lock` is not given up. -/
inductive EthEvent (devs : Nat) where
  | up (dev : Fin devs) (outcome : OpenOutcome)
  | down (dev : Fin devs)
  | schedule (rstctrlEth : Bool)
  | resetBegin
  | resetRestart (outcomes : Fin devs → OpenOutcome)
  | resetDone
  | muxPoll (dev : Fin devs)
  | muxStop (dev : Fin devs)
  | muxLock (dev : Fin devs)
  | muxCreate (dev : Fin devs) (created : Bool)
  | muxOpen (dev : Fin devs) (outcome : OpenOutcome)
  | remove

variable {devs : Nat}

namespace EthState

section Operations

variable (s : EthState devs)

/-- `mtk_open` and `mtk_stop` leave the PHY alone in a reset that does not reset the ETH. -/
def usesPhy : Bool := !s.resetting || s.rstctrlEth

def mtkOpen (dev : Fin devs) (outcome : OpenOutcome) : Bool × EthState devs :=
  let (succeeded, dma) := s.dma.openOne s.usesPhy outcome
  let opened := if succeeded then insert dev s.opened else s.opened.erase dev
  (succeeded, { s with dma := dma, opened := opened })

def mtkStop (dev : Fin devs) : EthState devs :=
  { s with dma := s.dma.stopOne, opened := s.opened.erase dev }

def devOpen (dev : Fin devs) (outcome : OpenOutcome) : EthState devs :=
  let (succeeded, s) := s.mtkOpen dev outcome
  if succeeded then { s with running := insert dev s.running } else s

def devClose (dev : Fin devs) : EthState devs :=
  if dev ∈ s.running then { s.mtkStop dev with running := s.running.erase dev } else s

/-- The netdevs `mtk_pending_work` stops and notes in `restart`. -/
def restart : Finset (Fin devs) := s.netdev ∩ s.running

/-- The first loop of `mtk_pending_work`. -/
def stopAll (restart : Finset (Fin devs)) (s : EthState devs) (all : List (Fin devs)) :
    EthState devs :=
  all.foldl (fun s dev => if dev ∈ restart then s.mtkStop dev else s) s

/-- One pass of the second loop of `mtk_pending_work`. -/
def reopen (outcomes : Fin devs → OpenOutcome) (s : EthState devs) (dev : Fin devs) :
    EthState devs :=
  match s.mtkOpen dev (outcomes dev) with
  | (true, s) => s
  | (false, s) => s.devClose dev

/-- The second loop of `mtk_pending_work`. -/
def restartAll (restart : Finset (Fin devs)) (outcomes : Fin devs → OpenOutcome)
    (s : EthState devs) (all : List (Fin devs)) : EthState devs :=
  all.foldl (fun s dev => if dev ∈ restart then s.reopen outcomes dev else s) s

/-- The two loops of `mtk_pending_work`. -/
def resetDevices (outcomes : Fin devs → OpenOutcome) : EthState devs :=
  restartAll s.restart outcomes (stopAll s.restart s (List.finRange devs)) (List.finRange devs)

def mtkRemove : EthState devs :=
  let stopped := stopAll s.netdev s (List.finRange devs)
  let closed := (List.finRange devs).foldl
    (fun s dev => if dev ∈ s.netdev then s.devClose dev else s) stopped
  { closed with netdev := ∅ }

def setMux (dev : Fin devs) (phase : MuxPhase) : EthState devs :=
  { s with mux := Function.update s.mux dev phase }

def step : EthEvent devs → Option (EthState devs)
  | .up dev outcome =>
    if dev ∈ s.netdev ∧ dev ∉ s.running then some (s.devOpen dev outcome) else none
  | .down dev => if dev ∈ s.netdev then some (s.devClose dev) else none
  | .schedule rstctrlEth => some { s with rstctrlEth := rstctrlEth }
  | .resetBegin =>
    if s.pendingWork = .idle ∧ s.resetting = false then
      some { s with pendingWork := .prepared, resetting := true }
    else none
  | .resetRestart outcomes =>
    if s.pendingWork = .prepared then
      some { s.resetDevices outcomes with pendingWork := .restarted }
    else none
  | .resetDone =>
    if s.pendingWork = .restarted then
      some { s with pendingWork := .idle, resetting := false, rstctrlEth := false }
    else none
  | .muxPoll dev =>
    if s.mux dev = .idle ∧ dev ∈ s.netdev ∧ dev ∈ s.running then some (s.setMux dev .chosen)
    else none
  | .muxStop dev =>
    if s.mux dev = .chosen then some ((s.mtkStop dev).setMux dev .stopped) else none
  | .muxLock dev =>
    if s.mux dev = .stopped ∧ s.resetting = false then
      some { s.setMux dev .locked with resetting := true }
    else none
  | .muxCreate dev created =>
    if s.mux dev = .locked then
      some { s.setMux dev (if created then .created else .idle) with resetting := false }
    else none
  | .muxOpen dev outcome =>
    if s.mux dev = .created then some ((s.mtkOpen dev outcome).2.setMux dev .idle) else none
  | .remove => some s.mtkRemove

/-- No PHY fails to connect, and only netdevs that are open are stopped: none is down for
the driver but up for the network core when it is closed or a reset begins its loops, the
first netdev a reset starts again gets the DMA up, and a driver with netdevs is not removed. -/
def Orderly : EthEvent devs → Prop
  | .up _ outcome | .muxOpen _ outcome => s.usesPhy = true → outcome.connect = true
  | .down dev => dev ∈ s.running → dev ∈ s.opened
  | .muxStop dev => dev ∈ s.opened
  | .resetRestart outcomes => s.restart ⊆ s.opened ∧
      (∀ dev ∈ s.restart, s.usesPhy = true → (outcomes dev).connect = true) ∧
      ∀ dev, (List.finRange devs).find? (· ∈ s.restart) = some dev → (outcomes dev).startDma = true
  | .remove => s.netdev = ∅
  | .schedule _ | .resetBegin | .resetDone | .muxPoll _ | .muxLock _ | .muxCreate .. => True

instance (event : EthEvent devs) : Decidable (s.Orderly event) :=
  match event with
  | .up .. | .muxOpen .. => inferInstanceAs (Decidable (_ → _))
  | .down _ => inferInstanceAs (Decidable (_ → _))
  | .muxStop _ => inferInstanceAs (Decidable (_ ∈ _))
  | .resetRestart _ => inferInstanceAs (Decidable (_ ∧ (∀ dev ∈ _, _ → _) ∧ ∀ _, _ → _))
  | .remove => inferInstanceAs (Decidable (_ = _))
  | .schedule _ | .resetBegin | .resetDone | .muxPoll _ | .muxLock _ | .muxCreate .. =>
    inferInstanceAs (Decidable True)

def Counted : Prop := s.dma.Serves s.opened.card

structure Fresh : Prop where
  running : s.running = ∅
  opened : s.opened = ∅
  dma : s.dma = ⟨0, false, false, false, false⟩
  mux : ∀ dev, s.mux dev = .idle

/-- An open netdev is up, and one that is between two channels is up but not open. -/
structure Inv : Prop where
  counted : s.Counted
  up : s.opened ⊆ s.netdev ∩ s.running
  switching : ∀ dev, (s.mux dev).Switching → dev ∈ s.netdev ∩ s.running ∧ dev ∉ s.opened

end Operations

section Runs

variable {s : EthState devs} {dev : Fin devs} {outcome : OpenOutcome}

theorem Counted.mtkStop (counted : s.Counted) (isOpen : dev ∈ s.opened) :
    (s.mtkStop dev).Counted := by
  have stopped := Dma.Serves.stopOne counted (Finset.card_pos.mpr ⟨dev, isOpen⟩)
  rw [← Finset.card_erase_of_mem isOpen] at stopped
  exact stopped

theorem mtkOpen_of_openOne {dma : Dma} {succeeded : Bool}
    (is : s.dma.openOne s.usesPhy outcome = (succeeded, dma)) :
    s.mtkOpen dev outcome = (succeeded, { s with
      dma := dma
      opened := if succeeded then insert dev s.opened else s.opened.erase dev }) := by
  rw [mtkOpen, is]

/-- `mtk_open` of a netdev that is not open when the PHY connects. -/
theorem Counted.mtkOpen (counted : s.Counted) (closed : dev ∉ s.opened)
    (started : s.opened = ∅ → outcome.startDma = true)
    (connected : s.usesPhy = true → outcome.connect = true) :
    ∃ dma, s.mtkOpen dev outcome = (true, { s with dma := dma, opened := insert dev s.opened }) ∧
      dma.Serves (insert dev s.opened).card := by
  obtain ⟨succeeded, serves⟩ := Dma.Serves.openOne counted
    (fun none => started (Finset.card_eq_zero.mp none)) connected
  rw [← Finset.card_insert_of_notMem closed] at serves
  exact ⟨_, mtkOpen_of_openOne (Prod.ext succeeded rfl), serves⟩

theorem Counted.mtkOpen_failed (counted : s.Counted) (none : s.opened = ∅)
    (failed : outcome.startDma = false) :
    ∃ dma, s.mtkOpen dev outcome = (false, { s with dma := dma, opened := ∅ }) ∧ dma.Serves 0 := by
  have counted : s.dma.Serves 0 := by
    have counted := counted
    rw [Counted, none] at counted
    exact counted
  obtain ⟨fails, serves⟩ : (s.dma.openOne s.usesPhy outcome).1 = false ∧
      (s.dma.openOne s.usesPhy outcome).2.Serves 0 := counted.openOne_failed failed
  refine ⟨_, (mtkOpen_of_openOne (Prod.ext fails rfl)).trans ?_, serves⟩
  simp [none]

theorem Counted.stopAll {restart : Finset (Fin devs)} {all : List (Fin devs)} (distinct : all.Nodup)
    (counted : s.Counted) (isOpen : ∀ dev ∈ all, dev ∈ restart → dev ∈ s.opened) :
    ∃ dma, stopAll restart s all = { s with
      dma := dma
      opened := s.opened \ (restart ∩ all.toFinset) } ∧
        dma.Serves (s.opened \ (restart ∩ all.toFinset)).card := by
  induction all generalizing s with
  | nil =>
    simp only [List.toFinset_nil, Finset.inter_empty, Finset.sdiff_empty]
    exact ⟨s.dma, rfl, counted⟩
  | cons dev all ih =>
    obtain ⟨fresh, distinct⟩ := List.nodup_cons.mp distinct
    rw [EthState.stopAll, List.foldl_cons]
    by_cases chosen : dev ∈ restart
    · have stopped := counted.mtkStop (isOpen dev List.mem_cons_self chosen)
      have others : ∀ other ∈ all, other ∈ restart → other ∈ (s.mtkStop dev).opened := by
        intro other isIn again
        refine Finset.mem_erase.mpr ⟨?_, isOpen other (List.mem_cons_of_mem _ isIn) again⟩
        rintro rfl
        exact fresh isIn
      obtain ⟨dma, is, serves⟩ := ih distinct stopped others
      have left : s.opened.erase dev \ (restart ∩ all.toFinset) =
          s.opened \ (restart ∩ (dev :: all).toFinset) := by
        ext other
        simp only [Finset.mem_sdiff, Finset.mem_erase, Finset.mem_inter, List.toFinset_cons,
          Finset.mem_insert]
        by_cases same : other = dev
        · subst same
          simp [chosen]
        · simp [same]
      rw [if_pos chosen]
      refine ⟨dma, is.trans ?_, left ▸ serves⟩
      exact congrArg (fun opened => { s with dma := dma, opened := opened }) left
    · have others : ∀ other ∈ all, other ∈ restart → other ∈ s.opened :=
        fun other isIn => isOpen other (List.mem_cons_of_mem _ isIn)
      obtain ⟨dma, is, serves⟩ := ih distinct counted others
      have left : restart ∩ (dev :: all).toFinset = restart ∩ all.toFinset := by
        rw [List.toFinset_cons, Finset.inter_insert_of_notMem chosen]
      rw [if_neg chosen, left]
      exact ⟨dma, is, serves⟩

/-- The second loop of a reset opens netdevs that are closed; only the first one may have to
start the DMA. -/
theorem Counted.restartAll {restart : Finset (Fin devs)} {outcomes : Fin devs → OpenOutcome}
    {all : List (Fin devs)} (distinct : all.Nodup) (counted : s.Counted)
    (closed : ∀ dev ∈ all, dev ∈ restart → dev ∉ s.opened)
    (connected : ∀ dev ∈ restart, s.usesPhy = true → (outcomes dev).connect = true)
    (started : s.opened = ∅ → ∀ dev, all.find? (· ∈ restart) = some dev →
      (outcomes dev).startDma = true) :
    ∃ dma, restartAll restart outcomes s all = { s with
      dma := dma
      opened := s.opened ∪ (restart ∩ all.toFinset) } ∧
        dma.Serves (s.opened ∪ (restart ∩ all.toFinset)).card := by
  induction all generalizing s with
  | nil =>
    simp only [List.toFinset_nil, Finset.inter_empty, Finset.union_empty]
    exact ⟨s.dma, rfl, counted⟩
  | cons dev all ih =>
    obtain ⟨fresh, distinct⟩ := List.nodup_cons.mp distinct
    rw [EthState.restartAll, List.foldl_cons]
    by_cases chosen : dev ∈ restart
    · have first : s.opened = ∅ → (outcomes dev).startDma = true :=
        fun none => started none dev (List.find?_cons_of_pos (by simpa using chosen))
      obtain ⟨dma, opens, serves⟩ := counted.mtkOpen (closed dev List.mem_cons_self chosen) first
        (connected dev chosen)
      have reopened : s.reopen outcomes dev =
          { s with dma := dma, opened := insert dev s.opened } := by
        rw [reopen, opens]
      have others : ∀ other ∈ all, other ∈ restart → other ∉ insert dev s.opened := by
        intro other isIn again
        have different : other ≠ dev := by
          rintro rfl
          exact fresh isIn
        exact fun now => (Finset.mem_insert.mp now).elim different
          (closed other (List.mem_cons_of_mem _ isIn) again)
      have some : insert dev s.opened ≠ ∅ := Finset.insert_ne_empty dev s.opened
      obtain ⟨dma', is, serves⟩ := ih (s := { s with dma := dma, opened := insert dev s.opened })
        distinct serves others connected fun none => absurd none some
      have all' : insert dev s.opened ∪ (restart ∩ all.toFinset) =
          s.opened ∪ (restart ∩ (dev :: all).toFinset) := by
        rw [List.toFinset_cons, Finset.inter_insert_of_mem chosen, Finset.union_insert,
          Finset.insert_union]
      rw [if_pos chosen, reopened]
      refine ⟨dma', is.trans ?_, all' ▸ serves⟩
      exact congrArg (fun opened => { s with dma := dma', opened := opened }) all'
    · have same : restart ∩ (dev :: all).toFinset = restart ∩ all.toFinset := by
        rw [List.toFinset_cons, Finset.inter_insert_of_notMem chosen]
      rw [if_neg chosen, same]
      refine ih distinct counted (fun other isIn => closed other (List.mem_cons_of_mem _ isIn))
        connected fun none other found => started none other ?_
      rw [List.find?_cons_of_neg (by simpa using chosen)]
      exact found

theorem Inv.resetDevices {outcomes : Fin devs → OpenOutcome} (inv : s.Inv)
    (orderly : s.Orderly (.resetRestart outcomes)) :
    ∃ dma, s.resetDevices outcomes = { s with dma := dma } ∧ dma.Serves s.opened.card := by
  obtain ⟨within, connected, first⟩ := orderly
  have all : s.restart = s.opened := within.antisymm inv.up
  have every : s.restart ∩ (List.finRange devs).toFinset = s.opened := by
    rw [List.toFinset_finRange, Finset.inter_univ, all]
  have distinct := List.nodup_finRange devs
  obtain ⟨dma, stopped, serves⟩ := inv.counted.stopAll distinct
    fun dev _ (chosen : dev ∈ s.restart) => within chosen
  rw [every, Finset.sdiff_self] at stopped serves
  obtain ⟨dma', restarted, serves⟩ := Counted.restartAll (s := { s with dma := dma, opened := ∅ })
    distinct serves (fun dev _ _ => Finset.notMem_empty dev) connected fun _ => first
  refine ⟨dma', ?_, ?_⟩
  · rw [EthState.resetDevices, stopped, restarted, every, Finset.empty_union]
  · rw [every, Finset.empty_union] at serves
    exact serves

theorem Inv.devOpen (inv : s.Inv) (present : dev ∈ s.netdev) (isDown : dev ∉ s.running)
    (connected : s.usesPhy = true → outcome.connect = true) : (s.devOpen dev outcome).Inv := by
  have closed : dev ∉ s.opened := fun isOpen => isDown (Finset.mem_inter.mp (inv.up isOpen)).2
  by_cases started : s.opened = ∅ → outcome.startDma = true
  · obtain ⟨dma, opens, serves⟩ := inv.counted.mtkOpen closed started connected
    rw [EthState.devOpen, opens]
    refine ⟨serves, ?_, fun other between => ?_⟩
    · intro other isOpen
      obtain rfl | before := Finset.mem_insert.mp isOpen
      · exact Finset.mem_inter.mpr ⟨present, Finset.mem_insert_self other _⟩
      · obtain ⟨there, isUp⟩ := Finset.mem_inter.mp (inv.up before)
        exact Finset.mem_inter.mpr ⟨there, Finset.mem_insert_of_mem isUp⟩
    · obtain ⟨isUp, notOpen⟩ := inv.switching other between
      obtain ⟨there, isUp⟩ := Finset.mem_inter.mp isUp
      have different : other ≠ dev := by
        rintro rfl
        exact isDown isUp
      exact ⟨Finset.mem_inter.mpr ⟨there, Finset.mem_insert_of_mem isUp⟩,
        fun now => (Finset.mem_insert.mp now).elim different notOpen⟩
  · push Not at started
    obtain ⟨none, failed⟩ := started
    obtain ⟨dma, fails, serves⟩ := inv.counted.mtkOpen_failed none (Bool.eq_false_iff.mpr failed)
    rw [EthState.devOpen, fails]
    exact ⟨serves, Finset.empty_subset _, fun other between =>
      ⟨(inv.switching other between).1, Finset.notMem_empty other⟩⟩

theorem Inv.devClose (inv : s.Inv) (isOpen : dev ∈ s.running → dev ∈ s.opened) :
    (s.devClose dev).Inv := by
  rw [EthState.devClose]
  split
  · rename_i isUp
    refine ⟨inv.counted.mtkStop (isOpen isUp), ?_, fun other between => ?_⟩
    · intro other remains
      obtain ⟨different, before⟩ := Finset.mem_erase.mp remains
      obtain ⟨there, runs⟩ := Finset.mem_inter.mp (inv.up before)
      exact Finset.mem_inter.mpr ⟨there, Finset.mem_erase.mpr ⟨different, runs⟩⟩
    · obtain ⟨both, closed⟩ := inv.switching other between
      obtain ⟨there, runs⟩ := Finset.mem_inter.mp both
      have different : other ≠ dev := by
        rintro rfl
        exact closed (isOpen isUp)
      exact ⟨Finset.mem_inter.mpr ⟨there, Finset.mem_erase.mpr ⟨different, runs⟩⟩,
        fun remains => closed (Finset.mem_of_mem_erase remains)⟩
  · exact inv

variable {phase : MuxPhase}

theorem setMux_self : (s.setMux dev phase).mux dev = phase :=
  Function.update_self ..

theorem setMux_other {other : Fin devs} (different : other ≠ dev) :
    (s.setMux dev phase).mux other = s.mux other :=
  Function.update_of_ne different ..

theorem Inv.setMux (inv : s.Inv)
    (from' : phase.Switching → dev ∈ s.netdev ∩ s.running ∧ dev ∉ s.opened) :
    (s.setMux dev phase).Inv := by
  refine ⟨inv.counted, inv.up, fun other between => ?_⟩
  by_cases same : other = dev
  · subst same
    rw [setMux_self] at between
    exact from' between
  · rw [setMux_other same] at between
    exact inv.switching other between

theorem Inv.muxStop (inv : s.Inv) (isOpen : dev ∈ s.opened) :
    ((s.mtkStop dev).setMux dev .stopped).Inv := by
  refine ⟨inv.counted.mtkStop isOpen, fun other remains =>
    inv.up (Finset.mem_of_mem_erase remains), fun other between => ?_⟩
  by_cases same : other = dev
  · subst same
    exact ⟨inv.up isOpen, Finset.notMem_erase other _⟩
  · rw [setMux_other same] at between
    obtain ⟨both, closed⟩ := inv.switching other between
    exact ⟨both, fun remains => closed (Finset.mem_of_mem_erase remains)⟩

theorem Inv.muxOpen (inv : s.Inv) (between : (s.mux dev).Switching)
    (connected : s.usesPhy = true → outcome.connect = true) :
    ((s.mtkOpen dev outcome).2.setMux dev .idle).Inv := by
  obtain ⟨both, closed⟩ := inv.switching dev between
  by_cases started : s.opened = ∅ → outcome.startDma = true
  · obtain ⟨dma, opens, serves⟩ := inv.counted.mtkOpen closed started connected
    rw [opens]
    refine ⟨serves, Finset.insert_subset both inv.up, fun other switching => ?_⟩
    by_cases same : other = dev
    · subst same
      rw [setMux_self] at switching
      exact switching.elim
    · rw [setMux_other same] at switching
      obtain ⟨up, notOpen⟩ := inv.switching other switching
      exact ⟨up, fun now => (Finset.mem_insert.mp now).elim same notOpen⟩
  · push Not at started
    obtain ⟨none, failed⟩ := started
    obtain ⟨dma, fails, serves⟩ := inv.counted.mtkOpen_failed none (Bool.eq_false_iff.mpr failed)
    rw [fails]
    have before : Inv { s with dma := dma, opened := ∅ } :=
      ⟨serves, Finset.empty_subset _, fun other switching =>
        ⟨(inv.switching other switching).1, Finset.notMem_empty other⟩⟩
    exact before.setMux fun idle => idle.elim

theorem mtkRemove_eq (none : s.netdev = ∅) : s.mtkRemove = s := by
  have stopped : stopAll s.netdev s (List.finRange devs) = s := by
    simp [EthState.stopAll, none]
  have closed : ∀ all : List (Fin devs),
      all.foldl (fun s dev => if dev ∈ s.netdev then s.devClose dev else s) s = s := by
    intro all
    induction all with
    | nil => rfl
    | cons dev all ih =>
      rw [List.foldl_cons, if_neg (none ▸ Finset.notMem_empty dev)]
      exact ih
  rw [EthState.mtkRemove, stopped]
  simp only [closed]
  rw [← none]

theorem Inv.congr {s' : EthState devs} (inv : s.Inv) (dma : s'.dma = s.dma)
    (opened : s'.opened = s.opened) (running : s'.running = s.running)
    (netdev : s'.netdev = s.netdev) (mux : s'.mux = s.mux) : s'.Inv := by
  refine ⟨?_, ?_, ?_⟩
  · rw [Counted, dma, opened]
    exact inv.counted
  · rw [opened, netdev, running]
    exact inv.up
  · rw [opened, netdev, running, mux]
    exact inv.switching

theorem Inv.step {event : EthEvent devs} {s' : EthState devs} (inv : s.Inv)
    (orderly : s.Orderly event) (stepped : s.step event = some s') : s'.Inv := by
  cases event with
  | up dev outcome =>
    obtain ⟨⟨present, isDown⟩, rfl⟩ := Option.ite_some_none_eq_some.mp stepped
    exact inv.devOpen present isDown orderly
  | down dev =>
    obtain ⟨_, rfl⟩ := Option.ite_some_none_eq_some.mp stepped
    exact inv.devClose orderly
  | schedule rstctrlEth =>
    cases stepped
    exact inv.congr rfl rfl rfl rfl rfl
  | resetBegin =>
    obtain ⟨_, rfl⟩ := Option.ite_some_none_eq_some.mp stepped
    exact inv.congr rfl rfl rfl rfl rfl
  | resetRestart outcomes =>
    obtain ⟨_, rfl⟩ := Option.ite_some_none_eq_some.mp stepped
    obtain ⟨dma, restarted, serves⟩ := inv.resetDevices orderly
    rw [restarted]
    exact ⟨serves, inv.up, inv.switching⟩
  | resetDone =>
    obtain ⟨_, rfl⟩ := Option.ite_some_none_eq_some.mp stepped
    exact inv.congr rfl rfl rfl rfl rfl
  | muxPoll dev =>
    obtain ⟨_, rfl⟩ := Option.ite_some_none_eq_some.mp stepped
    exact inv.setMux fun chosen => chosen.elim
  | muxStop dev =>
    obtain ⟨_, rfl⟩ := Option.ite_some_none_eq_some.mp stepped
    exact inv.muxStop orderly
  | muxLock dev =>
    obtain ⟨⟨stopped, _⟩, rfl⟩ := Option.ite_some_none_eq_some.mp stepped
    have locked : (s.setMux dev .locked).Inv :=
      inv.setMux fun _ => inv.switching dev (by rw [stopped]; trivial)
    exact locked.congr rfl rfl rfl rfl rfl
  | muxCreate dev created =>
    obtain ⟨locked, rfl⟩ := Option.ite_some_none_eq_some.mp stepped
    have next : (s.setMux dev (if created then .created else .idle)).Inv :=
      inv.setMux fun _ => inv.switching dev (by rw [locked]; trivial)
    exact next.congr rfl rfl rfl rfl rfl
  | muxOpen dev outcome =>
    obtain ⟨created, rfl⟩ := Option.ite_some_none_eq_some.mp stepped
    exact inv.muxOpen (by rw [created]; trivial) orderly
  | remove =>
    cases stepped
    rw [mtkRemove_eq orderly]
    exact inv

theorem Fresh.inv (fresh : s.Fresh) : s.Inv where
  counted := by
    rw [Counted, fresh.opened, fresh.dma]
    exact ⟨rfl, rfl, rfl, rfl, rfl⟩
  up := by simp [fresh.opened]
  switching dev between := by
    rw [fresh.mux dev] at between
    exact between.elim

/-- In every run whose events are orderly the count is the number of netdevs that are open, it
never goes below zero, no failed `mtk_open` changes it, and the rings and NAPI are there exactly
when it is positive. -/
theorem dma_lifetime {s₀ : EthState devs} (fresh : s₀.Fresh) (run : Reaches Orderly step s₀ s) :
    s.Counted := by
  have step : ∀ (s : EthState devs) event s', s.Inv → s.Orderly event → s.step event = some s' →
      s'.Inv := fun _ _ _ inv orderly stepped => inv.step orderly stepped
  exact (run.invariant step fresh.inv).counted

end Runs

/-! ## Two netdevs -/

def twoNetdevs : EthState 2 :=
  ⟨Finset.univ, ∅, ∅, ⟨0, false, false, false, false⟩, false, false, .idle, fun _ => .idle⟩

theorem twoNetdevs_fresh : twoNetdevs.Fresh := ⟨rfl, rfl, rfl, fun _ => rfl⟩

theorem twoMacs : NeZero 2 := ⟨by decide⟩

/-- Both netdevs come up, a reset does not touch the PHYs, a mux changes its channel, and one of
the netdevs goes down. -/
def resetAndSwitch : List (EthEvent 2) :=
  haveI := twoMacs
  [.up 0 ⟨true, true⟩, .up 1 ⟨false, true⟩, .schedule false, .resetBegin,
    .resetRestart fun _ => ⟨true, false⟩, .resetDone, .muxPoll 0, .muxStop 0, .muxLock 0,
    .muxCreate 0 true, .muxOpen 0 ⟨true, true⟩, .down 1]

theorem dma_lifetime_two : ∃ s, runSteps step resetAndSwitch twoNetdevs = some s ∧
    s.opened = {0} ∧ s.Counted := by
  have opened : (runSteps step resetAndSwitch twoNetdevs).map (·.opened) = some {0} := by
    decide +kernel
  obtain ⟨s, run, is⟩ := Option.map_eq_some_iff.mp opened
  have orderly : AllAllowed Orderly step resetAndSwitch twoNetdevs := by decide +kernel
  exact ⟨s, run, is, dma_lifetime twoNetdevs_fresh (reaches_of_runSteps orderly run)⟩

/-- A netdev whose PHY does not connect is not open but counted. -/
theorem failed_open_counted :
    ¬∀ (devs : Nat) (s₀ s : EthState devs), s₀.Fresh → Reaches anyStep step s₀ s → s.Counted := by
  intro always
  have counted : (runSteps step [.up 0 ⟨true, false⟩] twoNetdevs).map
      (fun s => (s.dma.dmaRefcnt, s.opened)) = some (1, ∅) := by
    decide +kernel
  obtain ⟨s, run, is⟩ := Option.map_eq_some_iff.mp counted
  obtain ⟨refcnt, opened⟩ := Prod.mk.inj is
  have same := (always 2 _ s twoNetdevs_fresh (reaches_of_runSteps allAllowed_anyStep run)).count
  rw [refcnt, opened] at same
  exact absurd same (by decide)

end EthState

end MetaFilogic.Eth
