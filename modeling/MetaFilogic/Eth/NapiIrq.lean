import MetaFilogic.Library.Steps
import Mathlib.Data.BitVec
import Mathlib.Data.Fintype.Basic

/-!
# Interrupts and NAPI

The interrupt of a ring is masked while its NAPI is at work: the handler schedules NAPI and masks,
the poll that finds nothing more completes NAPI and unmasks.  `mtk_open` and `mtk_stop` and the
poll controller of netconsole mask and unmask as well.  All of them run at the same time, step by
step.
-/

namespace MetaFilogic.Eth

open Function (update update_self update_of_ne update_apply)

/-! ## Rings and their interrupts -/

inductive RingId where
  | tx (i : Fin 4)
  | rx (i : Fin 8)
  deriving DecidableEq

inductive IrqReg where
  | qdma
  | pdma
  deriving DecidableEq

/-- What decides which rings there are and where their interrupts are.  `rxV2` and `v3` say what
the driver is built for. -/
structure IrqCaps where
  qdma : Bool
  rss : Bool
  hwlro : Bool
  sharedInt : Bool
  v3 : Bool
  rxV2 : Bool

namespace IrqCaps

variable (soc : IrqCaps)

/-- The rings in the order in which `mtk_open` and `mtk_stop` go through them. -/
def rings : List RingId :=
  (if soc.qdma then [.tx 0] else [.tx 0, .tx 1, .tx 2, .tx 3]) ++ [.rx 0] ++
    (if soc.rss then [.rx 1, .rx 2, .rx 3] else []) ++
    if soc.hwlro then
      if soc.rxV2 then [.rx 4, .rx 5, .rx 6, .rx 7] else [.rx 1, .rx 2, .rx 3]
    else []

/-- The register of `mtk_tx_irq_disable` and of `mtk_rx_irq_disable`. -/
def irqReg : RingId → IrqReg
  | .tx _ => if soc.qdma then .qdma else .pdma
  | .rx _ => .pdma

def doneInt : RingId → Nat
  | .tx i => if soc.qdma then 28 else if soc.v3 then 4 + i else i
  | .rx i =>
    if soc.rxV2 then if soc.rss then 24 + i else if i.val = 0 then 14 else 16 + i
    else if soc.rss then if i.val = 0 then 30 else 24 + i else 16 + i

end IrqCaps

/-- Only with the second format of RX descriptors the rings of RSS and of LRO are different ones. -/
structure IrqSoc extends IrqCaps where
  rss_hwlro : rss = true → hwlro = true → rxV2 = true

namespace IrqSoc

variable (soc : IrqSoc)

abbrev Ring : Type := { ring : RingId // ring ∈ soc.rings }

def tx0 : soc.Ring :=
  ⟨.tx 0, by
    rw [IrqCaps.rings]
    split <;> simp⟩

def rx0 : soc.Ring :=
  ⟨.rx 0, by simp [IrqCaps.rings]⟩

def handlerTests (ring : soc.Ring) : Bool :=
  !(soc.qdma && !soc.sharedInt && ring.val == .tx 0)

variable (mask : IrqReg → BitVec 32) (ring : soc.Ring)

def irqDisable : IrqReg → BitVec 32 :=
  update mask (soc.irqReg ring.val)
    (mask (soc.irqReg ring.val) &&& ~~~BitVec.twoPow 32 (soc.doneInt ring.val))

def irqEnable : IrqReg → BitVec 32 :=
  update mask (soc.irqReg ring.val)
    (mask (soc.irqReg ring.val) ||| BitVec.twoPow 32 (soc.doneInt ring.val))

def Masked : Prop := (mask (soc.irqReg ring.val)).getLsbD (soc.doneInt ring.val) = false

instance : Decidable (soc.Masked mask ring) := inferInstanceAs (Decidable (_ = _))

end IrqSoc

/-! ## Parties -/

/-- What a handler does next: `napi_schedule_prep`, masking, `__napi_schedule`. -/
inductive HandlerStage where
  | checked
  | prepared
  | masked
  deriving DecidableEq

/-- How far `mtk_poll_controller` is. -/
inductive NetpollStage where
  | txMasked
  | rxMasked
  | handled
  | txUnmasked
  deriving DecidableEq

/-- What a context runs.  A handler may have been called by `mtk_poll_controller`; a poll has
`completed` when `napi_complete` has returned true and the interrupt is still to be unmasked. -/
inductive IrqThread (Ring : Type) where
  | idle
  | handler (stage : HandlerStage) (ring : Ring) (netpoll : Bool)
  | polling (ring : Ring)
  | completed (ring : Ring)
  | netpoll (stage : NetpollStage)
  deriving DecidableEq

/-- Where `mtk_open` or `mtk_stop` is, with the rings it has still to go through: `enabling` after
`napi_enable`, `syncing` after the masking, `disabling` inside of `napi_disable`. -/
inductive IrqControl (Ring : Type) where
  | idle
  | opening (rest : List Ring)
  | enabling (ring : Ring) (rest : List Ring)
  | stopping (rest : List Ring)
  | syncing (ring : Ring) (rest : List Ring)
  | disabling (ring : Ring) (rest : List Ring)
  deriving DecidableEq

/-- The ring that `mtk_stop` masks next. -/
def IrqControl.nextMasked {Ring : Type} : IrqControl Ring → Option Ring
  | .stopping (ring :: _) => some ring
  | .idle | .opening _ | .enabling _ _ | .stopping [] | .syncing _ _ | .disabling _ _ => none

/-- The ring that `mtk_stop` has masked and whose NAPI is still to be disabled. -/
def IrqControl.beingDisabled {Ring : Type} : IrqControl Ring → Option Ring
  | .syncing ring _ | .disabling ring _ => some ring
  | .idle | .opening _ | .enabling _ _ | .stopping _ => none

/-- The registers, the NAPI bits `SCHED`, `MISSED` and `DISABLE`, which NAPI is in a poll list, and
what runs in `n` contexts.  -/
structure IrqState (soc : IrqSoc) (n : Nat) where
  mask : IrqReg → BitVec 32
  sched : soc.Ring → Bool
  missed : soc.Ring → Bool
  disable : soc.Ring → Bool
  listed : soc.Ring → Bool
  threads : Fin n → IrqThread soc.Ring
  dmaRefcnt : Nat
  control : IrqControl soc.Ring

/-- A step: the next one of a context (`status` is what it reads of the interrupt status), of a
poll (`again` when it returns its budget), or of `mtk_open` or `mtk_stop`. -/
inductive IrqEvent (soc : IrqSoc) (n : Nat) where
  | irq (t : Fin n) (ring : soc.Ring)
  | run (t : Fin n) (status : Bool)
  | poll (t : Fin n) (ring : soc.Ring)
  | busyPoll (t : Fin n) (ring : soc.Ring)
  | pollEnd (t : Fin n) (again : Bool)
  | netpoll (t : Fin n)
  | mtkOpen
  | mtkStop
  | control

namespace IrqState

variable {soc : IrqSoc} {n : Nat}

/-- After the probe: everything masked, and NAPI as `netif_napi_add` leaves it. -/
def init : IrqState soc n where
  mask _ := 0
  sched _ := true
  missed _ := false
  disable _ := false
  listed _ := false
  threads _ := .idle
  dmaRefcnt := 0
  control := .idle

variable (s : IrqState soc n)

def setThread (t : Fin n) (thread : IrqThread soc.Ring) : IrqState soc n :=
  { s with threads := update s.threads t thread }

def afterHandler (netpoll : Bool) : IrqThread soc.Ring :=
  if netpoll then .netpoll .handled else .idle

/-- A context belongs to `mtk_poll_controller`. -/
def inNetpoll : IrqThread soc.Ring → Bool
  | .handler _ _ netpoll => netpoll
  | .netpoll _ => true
  | .idle | .polling _ | .completed _ => false

/-- `napi_complete(n)`, followed by `thread` if it returns true. -/
def napiComplete (t : Fin n) (ring : soc.Ring) (thread : IrqThread soc.Ring) : IrqState soc n :=
  if s.missed ring then
    { s.setThread t .idle with
      missed := update s.missed ring false
      listed := update s.listed ring true }
  else { s.setThread t thread with sched := update s.sched ring false }

/-- The next step of a handler or of `mtk_poll_controller`, or the unmasking after a poll. -/
def runThread (t : Fin n) (status : Bool) : Option (IrqState soc n) :=
  match s.threads t with
  | .handler .checked ring netpoll =>
    -- napi_schedule_prep
    if s.disable ring then some (s.setThread t (afterHandler netpoll))
    else if s.sched ring then
      some { s.setThread t (afterHandler netpoll) with
        missed := update s.missed ring true }
    else
      some { s.setThread t (.handler .prepared ring netpoll) with
        sched := update s.sched ring true }
  | .handler .prepared ring netpoll =>
    some { s.setThread t (.handler .masked ring netpoll) with mask := soc.irqDisable s.mask ring }
  | .handler .masked ring netpoll =>
    some { s.setThread t (afterHandler netpoll) with
      listed := update s.listed ring true }
  | .completed ring => some { s.setThread t .idle with mask := soc.irqEnable s.mask ring }
  | .netpoll .txMasked =>
    some { s.setThread t (.netpoll .rxMasked) with mask := soc.irqDisable s.mask soc.rx0 }
  | .netpoll .rxMasked =>
    if status ∧ ¬soc.Masked s.mask soc.rx0 then
      some (s.setThread t (.handler .checked soc.rx0 true))
    else some (s.setThread t (.netpoll .handled))
  | .netpoll .handled =>
    some { s.setThread t (.netpoll .txUnmasked) with mask := soc.irqEnable s.mask soc.tx0 }
  | .netpoll .txUnmasked =>
    some { s.setThread t .idle with mask := soc.irqEnable s.mask soc.rx0 }
  | .idle | .polling _ => none

/-- The next step of `mtk_open` or `mtk_stop` where it goes through the rings. -/
def runControl : Option (IrqState soc n) :=
  match s.control with
  | .idle => none
  | .opening [] => some { s with dmaRefcnt := 1, control := .idle }
  | .opening (ring :: rest) =>
    some { s with sched := update s.sched ring false, control := .enabling ring rest }
  | .enabling ring rest =>
    some { s with mask := soc.irqEnable s.mask ring, control := .opening rest }
  | .stopping [] => some { s with control := .idle }
  | .stopping (ring :: rest) =>
    some { s with mask := soc.irqDisable s.mask ring, control := .syncing ring rest }
  | .syncing ring rest =>
    if s.sched ring then none
    else
      some { s with
        disable := update s.disable ring true
        control := .disabling ring rest }
  | .disabling ring rest =>
    if s.sched ring then none
    else
      some { s with
        sched := update s.sched ring true
        disable := update s.disable ring false
        control := .stopping rest }

/-- One step.  Netconsole calls `mtk_poll_controller` only for a netdev that is open, and a netdev
is not closed meanwhile. -/
def step : IrqEvent soc n → Option (IrqState soc n)
  | .irq t ring =>
    if s.threads t = .idle ∧ (soc.handlerTests ring = true → ¬soc.Masked s.mask ring) then
      some (s.setThread t (.handler .checked ring false))
    else none
  | .run t status => s.runThread t status
  | .poll t ring =>
    if s.threads t = .idle ∧ s.listed ring = true then
      some { s.setThread t (.polling ring) with listed := update s.listed ring false }
    else none
  | .busyPoll t ring =>
    if s.threads t = .idle ∧ s.sched ring = false ∧ s.disable ring = false then
      some { s.setThread t (.polling ring) with sched := update s.sched ring true }
    else none
  | .pollEnd t again =>
    match s.threads t with
    | .polling ring =>
      if again then
        -- napi_poll completes for the driver when NAPI is to be disabled
        if s.disable ring then some (s.napiComplete t ring .idle)
        else some { s.setThread t .idle with listed := update s.listed ring true }
      else some (s.napiComplete t ring (.completed ring))
    | _ => none
  | .netpoll t =>
    if s.threads t = .idle ∧ 0 < s.dmaRefcnt then
      some { s.setThread t (.netpoll .txMasked) with mask := soc.irqDisable s.mask soc.tx0 }
    else none
  | .mtkOpen =>
    if s.control = .idle then
      some (if s.dmaRefcnt = 0 then { s with control := .opening soc.rings.attach }
        else { s with dmaRefcnt := s.dmaRefcnt + 1 })
    else none
  | .mtkStop =>
    if s.control = .idle ∧ 0 < s.dmaRefcnt ∧
        (s.dmaRefcnt = 1 → ∀ t, inNetpoll (s.threads t) = false) then
      some { s with
        dmaRefcnt := s.dmaRefcnt - 1
        control := if s.dmaRefcnt = 1 then .stopping soc.rings.attach else .idle }
    else none
  | .control => s.runControl

/-- While the DMA is in use, a masked ring is scheduled or polled; when its last user is gone, all
rings are masked. -/
structure Handshake : Prop where
  running : 0 < s.dmaRefcnt → ∀ ring, soc.Masked s.mask ring →
    s.sched ring = true ∨ ∃ t, s.threads t = .polling ring ∨ s.threads t = .completed ring
  stopped : s.control = .idle → s.dmaRefcnt = 0 → ∀ ring, soc.Masked s.mask ring

def Unmasking (ring : soc.Ring) : Prop := ∃ t, s.threads t = .completed ring

instance (ring : soc.Ring) : Decidable (s.Unmasking ring) :=
  inferInstanceAs (Decidable (Exists _))

/-- The poll controller masks a ring only when it is scheduled or about to be unmasked; `mtk_stop`
masks no ring that is about to be unmasked; and no poll completes NAPI between the masking and the
end of `napi_disable`. -/
def Orderly : IrqEvent soc n → Prop
  | .netpoll _ => s.sched soc.tx0 = true ∨ s.Unmasking soc.tx0
  | .run t _ =>
    s.threads t = .netpoll .txMasked → s.sched soc.rx0 = true ∨ s.Unmasking soc.rx0
  | .control => ∀ ring ∈ s.control.nextMasked, ¬s.Unmasking ring
  | .pollEnd t again => ∀ ring ∈ s.control.beingDisabled, s.threads t = .polling ring →
    again = true ∨ s.missed ring = true
  | .irq _ _ | .poll _ _ | .busyPoll _ _ | .mtkOpen | .mtkStop => True

instance decidableOrderly : ∀ event : IrqEvent soc n, Decidable (s.Orderly event)
  | .netpoll _ => inferInstanceAs (Decidable (_ ∨ _))
  | .run _ _ => inferInstanceAs (Decidable (_ → _))
  | .control => inferInstanceAs (Decidable (∀ ring ∈ s.control.nextMasked, ¬s.Unmasking ring))
  | .pollEnd t again => inferInstanceAs (Decidable (∀ ring ∈ s.control.beingDisabled,
      s.threads t = .polling ring → again = true ∨ s.missed ring = true))
  | .irq _ _ | .poll _ _ | .busyPoll _ _ | .mtkOpen | .mtkStop => isTrue trivial

end IrqState

namespace IrqSoc

variable {soc : IrqSoc} {mask : IrqReg → BitVec 32} {ring ring' : soc.Ring}

theorem place_injective : (∀ a ∈ soc.rings, soc.doneInt a < 32) ∧
    ∀ a ∈ soc.rings, ∀ b ∈ soc.rings, soc.irqReg a = soc.irqReg b →
      soc.doneInt a = soc.doneInt b → a = b := by
  obtain ⟨⟨qdma, rss, hwlro, sharedInt, v3, rxV2⟩, apart⟩ := soc
  revert apart
  cases qdma <;> cases rss <;> cases hwlro <;> cases sharedInt <;> cases v3 <;> cases rxV2 <;>
    decide

/-- Two rings are the same, or their bits are in two registers or at two places of one. -/
theorem same_or_apart (ring ring' : soc.Ring) :
    ring' = ring ∨ ring' ≠ ring ∧ (soc.irqReg ring'.val ≠ soc.irqReg ring.val ∨
      soc.irqReg ring'.val = soc.irqReg ring.val ∧
        soc.doneInt ring'.val ≠ soc.doneInt ring.val) := by
  obtain ⟨_, injective⟩ := soc.place_injective
  by_cases same : ring' = ring
  · exact .inl same
  · refine .inr ⟨same, or_iff_not_imp_left.mpr fun register => ?_⟩
    exact ⟨not_not.mp register, fun place => same (Subtype.ext
      (injective _ ring'.property _ ring.property (not_not.mp register) place))⟩

theorem masked_irqDisable :
    soc.Masked (soc.irqDisable mask ring) ring' ↔ ring' = ring ∨ soc.Masked mask ring' := by
  have inside := soc.place_injective.1 ring'.val ring'.property
  rw [Masked, Masked, irqDisable]
  obtain rfl | ⟨other, register | ⟨register, place⟩⟩ := same_or_apart ring ring'
  · simp
  · rw [update_of_ne register]
    simp [other]
  · rw [register, update_self, BitVec.getLsbD_and, BitVec.getLsbD_not, BitVec.getLsbD_twoPow]
    simp [other, Ne.symm place, inside]

theorem masked_irqEnable :
    soc.Masked (soc.irqEnable mask ring) ring' ↔ ring' ≠ ring ∧ soc.Masked mask ring' := by
  have inside := soc.place_injective.1 ring'.val ring'.property
  rw [Masked, Masked, irqEnable]
  obtain rfl | ⟨other, register | ⟨register, place⟩⟩ := same_or_apart ring ring'
  · simp [inside]
  · rw [update_of_ne register]
    simp [other]
  · rw [register, update_self, BitVec.getLsbD_or, BitVec.getLsbD_twoPow]
    simp [other, Ne.symm place]

end IrqSoc

/-! ## What holds in every run -/

namespace IrqThread

variable {Ring : Type}

/-- The context holds the `SCHED` bit of a ring. -/
def Owns : IrqThread Ring → Ring → Prop
  | .handler .prepared ring _, r | .handler .masked ring _, r | .polling ring, r => ring = r
  | .handler .checked _ _, _ | .idle, _ | .completed _, _ | .netpoll _, _ => False

end IrqThread

namespace IrqControl

variable {Ring : Type} (dmaRefcnt : Nat)

def Off : IrqControl Ring → Ring → Prop
  | .idle, _ => dmaRefcnt = 0
  | .opening rest, r | .enabling _ rest, r => r ∈ rest
  | .stopping rest, r => r ∉ rest
  | .syncing ring rest, r | .disabling ring rest, r => r ∉ rest ∧ r ≠ ring

def On : IrqControl Ring → Ring → Prop
  | .idle, _ => 0 < dmaRefcnt
  | .opening rest, r => r ∉ rest
  | .enabling ring rest, r => r ∉ rest ∧ r ≠ ring
  | .stopping _, _ | .syncing _ _, _ | .disabling _ _, _ => False

/-- `mtk_stop` has masked a ring. -/
def Stopped : IrqControl Ring → Ring → Prop
  | .idle, _ => dmaRefcnt = 0
  | .stopping rest, r | .syncing _ rest, r | .disabling _ rest, r => r ∉ rest
  | .opening _, _ | .enabling _ _, _ => False

/-- The rings that `mtk_open` or `mtk_stop` has still to go through. -/
def pending : IrqControl Ring → List Ring
  | .idle => []
  | .opening rest | .stopping rest => rest
  | .enabling ring rest | .syncing ring rest | .disabling ring rest => ring :: rest

end IrqControl

namespace IrqState

variable {soc : IrqSoc} {n : Nat} {s s' : IrqState soc n}

/-- Who holds the `SCHED` bits: a context, a poll list, or `napi_disable`. -/
structure Owned (s : IrqState soc n) : Prop where
  thread : ∀ r t, (s.threads t).Owns r → s.sched r = true ∧ s.listed r = false ∧
    ¬s.control.Off s.dmaRefcnt r ∧ ∀ t', (s.threads t').Owns r → t' = t
  listed : ∀ r, s.listed r = true → s.sched r = true ∧ ¬s.control.Off s.dmaRefcnt r
  off : ∀ r, s.control.Off s.dmaRefcnt r → s.sched r = true
  disable : ∀ r, s.disable r = true → ∃ rest, s.control = .disabling r rest
  nodup : s.control.pending.Nodup
  refcnt : s.control ≠ .idle → s.dmaRefcnt = 0

structure MaskedOk (s : IrqState soc n) : Prop where
  netpoll : s.dmaRefcnt = 0 → ∀ t, inNetpoll (s.threads t) = false
  on : ∀ r, s.control.On s.dmaRefcnt r → soc.Masked s.mask r → s.sched r = true ∨ s.Unmasking r
  stopped : ∀ r, s.control.Stopped s.dmaRefcnt r → soc.Masked s.mask r ∧ ¬s.Unmasking r

theorem rings_nodup (soc : IrqSoc) : soc.rings.Nodup := by
  obtain ⟨⟨qdma, rss, hwlro, sharedInt, v3, rxV2⟩, apart⟩ := soc
  revert apart
  cases qdma <;> cases rss <;> cases hwlro <;> cases sharedInt <;> cases v3 <;> cases rxV2 <;>
    decide

theorem afterHandler_owns (netpoll : Bool) (r : soc.Ring) :
    ¬(afterHandler netpoll : IrqThread soc.Ring).Owns r := by
  cases netpoll <;> exact id

namespace Owned

variable (owned : Owned s) {t : Fin n} {thread : IrqThread soc.Ring} {ring : soc.Ring}
  (mask : IrqReg → BitVec 32) (missed : soc.Ring → Bool)
include owned

theorem leave (none : ∀ r, ¬thread.Owns r) : Owned { s with
    threads := update s.threads t thread
    mask := mask
    missed := missed } :=
  { owned with
    thread := by
      have := owned.thread
      grind [update_apply] }

theorem keep (has : (s.threads t).Owns ring) (only : ∀ r, thread.Owns r ↔ r = ring) :
    Owned { s with
      threads := update s.threads t thread
      mask := mask
      missed := missed } :=
  { owned with
    thread := by
      have := owned.thread
      grind [update_apply] }

theorem take (free : s.sched ring = false) (only : ∀ r, thread.Owns r ↔ r = ring) :
    Owned { s with
      threads := update s.threads t thread
      sched := update s.sched ring true
      missed := missed } :=
  { owned with
    thread := by
      have := owned.thread
      have := owned.listed
      have := owned.off
      grind [update_apply]
    listed := by
      have := owned.listed
      grind [update_apply]
    off := by
      have := owned.off
      grind [update_apply] }

theorem list (has : (s.threads t).Owns ring) (none : ∀ r, ¬thread.Owns r) : Owned { s with
    threads := update s.threads t thread
    listed := update s.listed ring true
    missed := missed } :=
  { owned with
    thread := by
      have := owned.thread
      grind [update_apply]
    listed := by
      have := owned.thread
      have := owned.listed
      grind [update_apply] }

theorem unlist (there : s.listed ring = true) (only : ∀ r, thread.Owns r ↔ r = ring) :
    Owned { s with
      threads := update s.threads t thread
      listed := update s.listed ring false } :=
  { owned with
    thread := by
      have := owned.thread
      have := owned.listed
      grind [update_apply]
    listed := by
      have := owned.listed
      grind [update_apply] }

theorem drop (has : (s.threads t).Owns ring) (none : ∀ r, ¬thread.Owns r) : Owned { s with
    threads := update s.threads t thread
    sched := update s.sched ring false } :=
  { owned with
    thread := by
      have := owned.thread
      grind [update_apply]
    listed := by
      have := owned.thread
      have := owned.listed
      grind [update_apply]
    off := by
      have := owned.thread
      have := owned.off
      grind [update_apply] }

theorem napiComplete (has : (s.threads t).Owns ring) (none : ∀ r, ¬thread.Owns r) :
    Owned (s.napiComplete t ring thread) := by
  rw [IrqState.napiComplete]
  split
  · exact owned.list _ has fun r => id
  · exact owned.drop has none

theorem runThread {status : Bool} (stepped : s.runThread t status = some s') : Owned s' := by
  rw [IrqState.runThread] at stepped
  split at stepped
  · rename_i ring netpoll here
    split_ifs at stepped with disabled busy
    · obtain rfl := Option.some_inj.mp stepped
      exact owned.leave _ _ (afterHandler_owns netpoll)
    · obtain rfl := Option.some_inj.mp stepped
      exact owned.leave _ _ (afterHandler_owns netpoll)
    · obtain rfl := Option.some_inj.mp stepped
      exact owned.take _ (Bool.eq_false_iff.mpr busy) fun r => eq_comm
  · rename_i ring netpoll here
    obtain rfl := Option.some_inj.mp stepped
    exact owned.keep _ _ (here ▸ rfl) fun r => eq_comm
  · rename_i ring netpoll here
    obtain rfl := Option.some_inj.mp stepped
    exact owned.list _ (here ▸ rfl) (afterHandler_owns netpoll)
  · obtain rfl := Option.some_inj.mp stepped
    exact owned.leave _ _ fun r => id
  · obtain rfl := Option.some_inj.mp stepped
    exact owned.leave _ _ fun r => id
  · split_ifs at stepped
    · obtain rfl := Option.some_inj.mp stepped
      exact owned.leave _ _ fun r => id
    · obtain rfl := Option.some_inj.mp stepped
      exact owned.leave _ _ fun r => id
  · obtain rfl := Option.some_inj.mp stepped
    exact owned.leave _ _ fun r => id
  · obtain rfl := Option.some_inj.mp stepped
    exact owned.leave _ _ fun r => id
  · cases stepped
  · cases stepped

theorem runControl (stepped : s.runControl = some s') : Owned s' := by
  have thread := owned.thread
  have listed := owned.listed
  have off := owned.off
  have disable := owned.disable
  have nodup := owned.nodup
  have refcnt := owned.refcnt
  rw [IrqState.runControl] at stepped
  split at stepped
  · cases stepped
  · rename_i here
    obtain rfl := Option.some_inj.mp stepped
    rw [here] at thread listed off disable nodup
    constructor <;> grind [IrqControl.Off, IrqControl.pending]
  · rename_i ring rest here
    obtain rfl := Option.some_inj.mp stepped
    rw [here] at thread listed off disable nodup
    constructor <;> grind [IrqControl.Off, IrqControl.pending, update_apply]
  · rename_i ring rest here
    obtain rfl := Option.some_inj.mp stepped
    rw [here] at thread listed off disable nodup
    constructor <;> grind [IrqControl.Off, IrqControl.pending]
  · rename_i here
    obtain rfl := Option.some_inj.mp stepped
    rw [here] at thread listed off disable nodup
    constructor <;> grind [IrqControl.Off, IrqControl.pending]
  · rename_i ring rest here
    obtain rfl := Option.some_inj.mp stepped
    rw [here] at thread listed off disable nodup
    constructor <;> grind [IrqControl.Off, IrqControl.pending]
  · rename_i ring rest here
    split_ifs at stepped with busy
    obtain rfl := Option.some_inj.mp stepped
    rw [here] at thread listed off disable nodup
    refine ⟨thread, listed, off, fun r set => ⟨rest, ?_⟩, nodup, fun _ => refcnt (by simp [here])⟩
    by_cases same : r = ring
    · rw [same]
    · obtain ⟨_, other⟩ := disable r ((update_of_ne same ..).symm.trans set)
      cases other
  · rename_i ring rest here
    split_ifs at stepped with busy
    obtain rfl := Option.some_inj.mp stepped
    rw [here] at thread listed off disable nodup
    constructor <;> grind [IrqControl.Off, IrqControl.pending, update_apply]

theorem step {event : IrqEvent soc n} (stepped : s.step event = some s') : Owned s' := by
  cases event with
  | irq t ring =>
    obtain ⟨_, rfl⟩ := Option.ite_some_none_eq_some.mp stepped
    exact owned.leave _ _ fun r => id
  | run t status => exact owned.runThread stepped
  | poll t ring =>
    obtain ⟨⟨_, there⟩, rfl⟩ := Option.ite_some_none_eq_some.mp stepped
    exact owned.unlist there fun r => eq_comm
  | busyPoll t ring =>
    obtain ⟨⟨_, free, _⟩, rfl⟩ := Option.ite_some_none_eq_some.mp stepped
    exact owned.take _ free fun r => eq_comm
  | pollEnd t again =>
    rw [IrqState.step] at stepped
    split at stepped
    · rename_i ring here
      split_ifs at stepped
      · obtain rfl := Option.some_inj.mp stepped
        exact owned.napiComplete (here ▸ rfl) fun r => id
      · obtain rfl := Option.some_inj.mp stepped
        exact owned.list _ (here ▸ rfl) fun r => id
      · obtain rfl := Option.some_inj.mp stepped
        exact owned.napiComplete (here ▸ rfl) fun r => id
    · cases stepped
  | netpoll t =>
    obtain ⟨_, rfl⟩ := Option.ite_some_none_eq_some.mp stepped
    exact owned.leave _ _ fun r => id
  | mtkOpen =>
    have thread := owned.thread
    have listed := owned.listed
    have off := owned.off
    have disable := owned.disable
    obtain ⟨idle, rfl⟩ := Option.ite_some_none_eq_some.mp stepped
    rw [idle] at thread listed off disable
    split
    · rename_i unused
      constructor <;>
        grind [IrqControl.Off, IrqControl.pending, List.nodup_attach, rings_nodup]
    · rename_i used
      constructor <;> grind [IrqControl.Off, IrqControl.pending]
  | mtkStop =>
    have thread := owned.thread
    have listed := owned.listed
    have off := owned.off
    have disable := owned.disable
    obtain ⟨⟨idle, used, _⟩, rfl⟩ := Option.ite_some_none_eq_some.mp stepped
    rw [idle] at thread listed off disable
    split
    · rename_i last
      constructor <;>
        grind [IrqControl.Off, IrqControl.pending, List.nodup_attach, rings_nodup]
    · rename_i more
      constructor <;> grind [IrqControl.Off, IrqControl.pending]
  | control => exact owned.runControl stepped

/-- Where `mtk_stop` has masked a ring, the DMA is not in use. -/
theorem refcnt_of_stopped {r : soc.Ring} (stopped : s.control.Stopped s.dmaRefcnt r) :
    s.dmaRefcnt = 0 := by
  by_cases idle : s.control = .idle
  · rw [idle] at stopped
    exact stopped
  · exact owned.refcnt idle

end Owned

theorem inNetpoll_update {threads : Fin n → IrqThread soc.Ring} {t : Fin n}
    {thread : IrqThread soc.Ring} (old : ∀ t', inNetpoll (threads t') = false)
    (new : inNetpoll thread = false) (t' : Fin n) :
    inNetpoll (update threads t thread t') = false := by
  by_cases same : t' = t
  · rw [same, update_self, new]
  · rw [update_of_ne same, old]

namespace MaskedOk

variable (ok : MaskedOk s) (owned : Owned s) {t : Fin n} {thread : IrqThread soc.Ring}
  {ring : soc.Ring}
include ok owned

theorem move {mask : IrqReg → BitVec 32} {sched missed listed : soc.Ring → Bool}
    (old : ∀ r, s.threads t ≠ .completed r) (new : ∀ r, thread ≠ .completed r)
    (net : s.dmaRefcnt = 0 → inNetpoll thread = false)
    (more : ∀ r, s.sched r = true → sched r = true)
    (masks : ∀ r, soc.Masked mask r → soc.Masked s.mask r ∨ s.sched r = true ∨ s.Unmasking r)
    (kept : s.dmaRefcnt = 0 → ∀ r, soc.Masked s.mask r → soc.Masked mask r) :
    MaskedOk { s with
      threads := update s.threads t thread
      mask := mask
      sched := sched
      missed := missed
      listed := listed } := by
  have unmasking : ∀ r, (∃ t', update s.threads t thread t' = .completed r) ↔
      s.Unmasking r := by
    intro r
    rw [Unmasking]
    constructor <;> rintro ⟨t', there⟩ <;> refine ⟨t', ?_⟩ <;> grind [update_apply]
  refine ⟨fun unused t' => ?_, fun r on masked => ?_, fun r stopped => ?_⟩
  · exact inNetpoll_update (ok.netpoll unused) (net unused) t'
  · have held := ok.on r on
    have pending := unmasking r
    obtain before | taken | there := masks r masked
    · obtain taken | there := held before
      · exact .inl (more r taken)
      · exact .inr (pending.mpr there)
    · exact .inl (more r taken)
    · exact .inr (pending.mpr there)
  · obtain ⟨masked, none⟩ := ok.stopped r stopped
    exact ⟨kept (owned.refcnt_of_stopped stopped) r masked,
      fun there => none ((unmasking r).mp there)⟩

omit owned in
theorem unmask (has : s.threads t = .completed ring) : MaskedOk { s with
    threads := update s.threads t .idle
    mask := soc.irqEnable s.mask ring } := by
  refine ⟨fun unused t' => ?_, fun r on masked => ?_, fun r stopped => ?_⟩
  · exact inNetpoll_update (ok.netpoll unused) rfl t'
  · obtain ⟨other, masked⟩ := IrqSoc.masked_irqEnable.mp masked
    obtain taken | ⟨t', there⟩ := ok.on r on masked
    · exact .inl taken
    · refine .inr ⟨t', (update_of_ne ?_ ..).trans there⟩
      rintro rfl
      rw [has] at there
      cases there
      exact other rfl
  · obtain ⟨masked, none⟩ := ok.stopped r stopped
    refine ⟨IrqSoc.masked_irqEnable.mpr ⟨?_, masked⟩, ?_⟩
    · rintro rfl
      exact none ⟨t, has⟩
    · rintro ⟨t', there⟩
      by_cases same : t' = t
      · rw [same] at there
        cases (update_self ..).symm.trans there
      · exact none ⟨t', (update_of_ne same ..).symm.trans there⟩

omit owned in
theorem complete (has : s.threads t = .polling ring)
    (running : ¬s.control.Stopped s.dmaRefcnt ring) : MaskedOk { s with
    threads := update s.threads t (.completed ring)
    sched := update s.sched ring false } := by
  refine ⟨fun unused t' => ?_, fun r on masked => ?_, fun r stopped => ?_⟩
  · exact inNetpoll_update (ok.netpoll unused) rfl t'
  · by_cases here : r = ring
    · exact .inr ⟨t, here ▸ update_self ..⟩
    · obtain taken | ⟨t', there⟩ := ok.on r on masked
      · exact .inl ((update_of_ne here ..).trans taken)
      · refine .inr ⟨t', (update_of_ne ?_ ..).trans there⟩
        rintro rfl
        rw [has] at there
        cases there
  · obtain ⟨masked, none⟩ := ok.stopped r stopped
    refine ⟨masked, ?_⟩
    rintro ⟨t', there⟩
    by_cases same : t' = t
    · rw [same] at there
      cases (update_self ..).symm.trans there
      exact running stopped
    · exact none ⟨t', (update_of_ne same ..).symm.trans there⟩

omit owned in
theorem used {stage : NetpollStage} (has : s.threads t = .netpoll stage) : s.dmaRefcnt ≠ 0 := by
  intro unused
  have none := ok.netpoll unused t
  rw [has] at none
  cases none

theorem runThread {status : Bool} (orderly : s.Orderly (.run t status))
    (stepped : s.runThread t status = some s') : MaskedOk s' := by
  have thread := owned.thread
  rw [IrqState.runThread] at stepped
  split at stepped
  · rename_i ring netpoll here
    have net : s.dmaRefcnt = 0 → netpoll = false := fun unused => by
      have none := ok.netpoll unused t
      rw [here] at none
      exact none
    have after : s.dmaRefcnt = 0 → inNetpoll (afterHandler netpoll : IrqThread soc.Ring) = false :=
      fun unused => by rw [net unused]; rfl
    have back : ∀ r, (afterHandler netpoll : IrqThread soc.Ring) ≠ .completed r := by
      cases netpoll <;> exact nofun
    split_ifs at stepped with disabled busy
    · obtain rfl := Option.some_inj.mp stepped
      exact ok.move owned (here ▸ nofun) back after (fun _ => id) (fun _ => .inl) fun _ _ => id
    · obtain rfl := Option.some_inj.mp stepped
      exact ok.move owned (here ▸ nofun) back after (fun _ => id) (fun _ => .inl) fun _ _ => id
    · obtain rfl := Option.some_inj.mp stepped
      refine ok.move owned (here ▸ nofun) nofun net (fun r taken => ?_) (fun _ => .inl)
        fun _ _ => id
      grind [update_apply]
  · rename_i ring netpoll here
    have net : s.dmaRefcnt = 0 → netpoll = false := fun unused => by
      have none := ok.netpoll unused t
      rw [here] at none
      exact none
    have taken := (thread ring t (here ▸ rfl)).1
    obtain rfl := Option.some_inj.mp stepped
    refine ok.move owned (here ▸ nofun) nofun net (fun _ => id) (fun r masked => ?_) fun _ r =>
      fun masked => IrqSoc.masked_irqDisable.mpr (.inr masked)
    obtain rfl | before := IrqSoc.masked_irqDisable.mp masked
    · exact .inr (.inl taken)
    · exact .inl before
  · rename_i ring netpoll here
    have after : s.dmaRefcnt = 0 → inNetpoll (afterHandler netpoll : IrqThread soc.Ring) = false :=
      fun unused => by
        have none := ok.netpoll unused t
        rw [here] at none
        have none : netpoll = false := none
        rw [none]
        rfl
    have back : ∀ r, (afterHandler netpoll : IrqThread soc.Ring) ≠ .completed r := by
      cases netpoll <;> exact nofun
    obtain rfl := Option.some_inj.mp stepped
    exact ok.move owned (here ▸ nofun) back after (fun _ => id) (fun _ => .inl) fun _ _ => id
  · rename_i ring here
    obtain rfl := Option.some_inj.mp stepped
    exact ok.unmask here
  · rename_i here
    have busy := orderly here
    obtain rfl := Option.some_inj.mp stepped
    refine ok.move owned (here ▸ nofun) nofun (fun unused => (ok.used here unused).elim)
      (fun _ => id) (fun r masked => ?_)
      fun _ r masked => IrqSoc.masked_irqDisable.mpr (.inr masked)
    obtain rfl | before := IrqSoc.masked_irqDisable.mp masked
    · exact .inr busy
    · exact .inl before
  · rename_i here
    split_ifs at stepped
    · obtain rfl := Option.some_inj.mp stepped
      exact ok.move owned (here ▸ nofun) nofun (fun unused => (ok.used here unused).elim)
        (fun _ => id) (fun _ => .inl)
        fun _ _ => id
    · obtain rfl := Option.some_inj.mp stepped
      exact ok.move owned (here ▸ nofun) nofun (fun unused => (ok.used here unused).elim)
        (fun _ => id) (fun _ => .inl)
        fun _ _ => id
  · rename_i here
    obtain rfl := Option.some_inj.mp stepped
    exact ok.move owned (here ▸ nofun) nofun (fun unused => (ok.used here unused).elim)
      (fun _ => id)
      (fun r masked => .inl (IrqSoc.masked_irqEnable.mp masked).2)
      fun unused => (ok.used here unused).elim
  · rename_i here
    obtain rfl := Option.some_inj.mp stepped
    exact ok.move owned (here ▸ nofun) nofun (fun unused => (ok.used here unused).elim)
      (fun _ => id)
      (fun r masked => .inl (IrqSoc.masked_irqEnable.mp masked).2)
      fun unused => (ok.used here unused).elim
  · cases stepped
  · cases stepped

theorem runControl (orderly : s.Orderly .control) (stepped : s.runControl = some s') :
    MaskedOk s' := by
  have on := ok.on
  have stopped := ok.stopped
  have netpoll := ok.netpoll
  have refcnt := owned.refcnt
  rw [Orderly] at orderly
  rw [IrqState.runControl] at stepped
  split at stepped
  · cases stepped
  · rename_i here
    obtain rfl := Option.some_inj.mp stepped
    rw [here] at on stopped
    refine ⟨nofun, fun r _ => on r List.not_mem_nil, nofun⟩
  · rename_i ring rest here
    obtain rfl := Option.some_inj.mp stepped
    rw [here] at on stopped
    refine ⟨netpoll, fun r used masked => ?_, nofun⟩
    obtain ⟨ahead, other⟩ := used
    have done : r ∉ ring :: rest := fun there =>
      (List.mem_cons.mp there).elim other ahead
    obtain taken | there := on r done masked
    · exact .inl ((update_of_ne other ..).trans taken)
    · exact .inr there
  · rename_i ring rest here
    obtain rfl := Option.some_inj.mp stepped
    rw [here] at on
    refine ⟨netpoll, fun r done masked => ?_, nofun⟩
    obtain ⟨other, masked⟩ := IrqSoc.masked_irqEnable.mp masked
    exact on r ⟨done, other⟩ masked
  · rename_i here
    obtain rfl := Option.some_inj.mp stepped
    have unused : s.dmaRefcnt = 0 := refcnt (by rw [here]; exact nofun)
    rw [here] at stopped
    refine ⟨netpoll, fun r used => ?_, fun r _ => stopped r List.not_mem_nil⟩
    have used : 0 < s.dmaRefcnt := used
    omega
  · rename_i ring rest here
    obtain rfl := Option.some_inj.mp stepped
    rw [here] at stopped orderly
    refine ⟨netpoll, nofun, fun r ahead => ?_⟩
    by_cases same : r = ring
    · rw [same]
      exact ⟨IrqSoc.masked_irqDisable.mpr (.inl rfl), orderly ring rfl⟩
    · have ahead : r ∉ rest := ahead
      have done : r ∉ ring :: rest := fun there => (List.mem_cons.mp there).elim same ahead
      obtain ⟨masked, none⟩ := stopped r done
      exact ⟨IrqSoc.masked_irqDisable.mpr (.inr masked), none⟩
  · rename_i ring rest here
    split_ifs at stepped
    obtain rfl := Option.some_inj.mp stepped
    rw [here] at stopped
    exact ⟨netpoll, nofun, stopped⟩
  · rename_i ring rest here
    split_ifs at stepped
    obtain rfl := Option.some_inj.mp stepped
    rw [here] at stopped
    exact ⟨netpoll, nofun, stopped⟩

theorem pollEnd {again : Bool} (orderly : s.Orderly (.pollEnd t again))
    (stepped : s.step (.pollEnd t again) = some s') : MaskedOk s' := by
  rw [Orderly] at orderly
  rw [IrqState.step] at stepped
  split at stepped
  · rename_i ring here
    have running : ¬s.control.Off s.dmaRefcnt ring :=
      (owned.thread ring t (here ▸ rfl)).2.2.1
    split_ifs at stepped with more disabled
    · obtain rfl := Option.some_inj.mp stepped
      obtain ⟨rest, control⟩ := owned.disable ring disabled
      rw [napiComplete]
      split
      · exact ok.move owned (here ▸ nofun) nofun (fun _ => rfl) (fun _ => id) (fun _ => .inl)
          fun _ _ => id
      · refine ⟨fun unused => inNetpoll_update (ok.netpoll unused) rfl, fun r on => ?_,
          fun r stopped => ?_⟩
        · rw [setThread, control] at on
          cases on
        · obtain ⟨masked, none⟩ := ok.stopped r stopped
          refine ⟨masked, ?_⟩
          rintro ⟨t', there⟩
          by_cases same : t' = t
          · rw [same] at there
            cases (update_self ..).symm.trans there
          · exact none ⟨t', (update_of_ne same ..).symm.trans there⟩
    · obtain rfl := Option.some_inj.mp stepped
      exact ok.move owned (here ▸ nofun) nofun (fun _ => rfl) (fun _ => id) (fun _ => .inl)
        fun _ _ => id
    · obtain rfl := Option.some_inj.mp stepped
      rw [napiComplete]
      split
      · exact ok.move owned (here ▸ nofun) nofun (fun _ => rfl) (fun _ => id) (fun _ => .inl)
          fun _ _ => id
      · rename_i unmissed
        refine ok.complete here fun stopped => ?_
        rw [here] at orderly
        cases control : s.control with
        | idle | stopping rest =>
          rw [control] at running stopped
          exact running stopped
        | opening rest | enabling other rest =>
          rw [control] at stopped
          cases stopped
        | syncing other rest | disabling other rest =>
          rw [control] at running stopped orderly
          refine running ⟨stopped, fun same => ?_⟩
          obtain again | missed := orderly ring (congrArg some same.symm) rfl
          · exact more again
          · exact unmissed missed
  · cases stepped

theorem step {event : IrqEvent soc n} (orderly : s.Orderly event)
    (stepped : s.step event = some s') : MaskedOk s' := by
  have on := ok.on
  have netpoll := ok.netpoll
  cases event with
  | irq t ring =>
    obtain ⟨⟨here, _⟩, rfl⟩ := Option.ite_some_none_eq_some.mp stepped
    exact ok.move owned (here ▸ nofun) nofun (fun _ => rfl) (fun _ => id) (fun _ => .inl)
      fun _ _ => id
  | run t status => exact ok.runThread owned orderly stepped
  | poll t ring =>
    obtain ⟨⟨here, _⟩, rfl⟩ := Option.ite_some_none_eq_some.mp stepped
    exact ok.move owned (here ▸ nofun) nofun (fun _ => rfl) (fun _ => id) (fun _ => .inl)
      fun _ _ => id
  | busyPoll t ring =>
    obtain ⟨⟨here, _⟩, rfl⟩ := Option.ite_some_none_eq_some.mp stepped
    refine ok.move owned (here ▸ nofun) nofun (fun _ => rfl) (fun r taken => ?_) (fun _ => .inl)
      fun _ _ => id
    grind [update_apply]
  | pollEnd t again => exact ok.pollEnd owned orderly stepped
  | netpoll t =>
    obtain ⟨⟨here, used⟩, rfl⟩ := Option.ite_some_none_eq_some.mp stepped
    refine ok.move owned (here ▸ nofun) nofun (fun unused => by omega) (fun _ => id)
      (fun r masked => ?_) fun _ r masked => IrqSoc.masked_irqDisable.mpr (.inr masked)
    obtain rfl | before := IrqSoc.masked_irqDisable.mp masked
    · exact .inr orderly
    · exact .inl before
  | mtkOpen =>
    obtain ⟨idle, rfl⟩ := Option.ite_some_none_eq_some.mp stepped
    rw [idle] at on
    split
    · rename_i unused
      exact ⟨netpoll, fun r none => (none (List.mem_attach ..)).elim, nofun⟩
    · rename_i used
      rw [idle]
      exact ⟨nofun, fun r _ => on r (Nat.pos_of_ne_zero used), nofun⟩
  | mtkStop =>
    obtain ⟨⟨idle, used, last⟩, rfl⟩ := Option.ite_some_none_eq_some.mp stepped
    rw [idle] at on
    split
    · rename_i only
      exact ⟨fun _ => last only, nofun, fun r none => (none (List.mem_attach ..)).elim⟩
    · rename_i more
      refine ⟨fun none => ?_, fun r _ => on r used, fun r none => ?_⟩
      · have none : s.dmaRefcnt - 1 = 0 := none
        omega
      · have none : s.dmaRefcnt - 1 = 0 := none
        omega
  | control => exact ok.runControl owned orderly stepped

end MaskedOk

/-! ## The handshake -/

theorem owned_init : Owned (init : IrqState soc n) :=
  ⟨nofun, nofun, fun _ _ => rfl, nofun, List.nodup_nil, fun none => (none rfl).elim⟩

theorem maskedOk_init : MaskedOk (init : IrqState soc n) :=
  ⟨fun _ _ => rfl, fun _ used => absurd used (Nat.lt_irrefl 0),
    fun _ _ => ⟨BitVec.getLsbD_zero, nofun⟩⟩

theorem handshake_of (ok : MaskedOk s) (owned : Owned s) : Handshake s where
  running used ring masked := by
    have idle : s.control = .idle := by
      by_contra busy
      have := owned.refcnt busy
      omega
    have on : s.control.On s.dmaRefcnt ring := by
      rw [idle]
      exact used
    obtain taken | ⟨t, there⟩ := ok.on ring on masked
    · exact .inl taken
    · exact .inr ⟨t, .inr there⟩
  stopped idle unused ring := by
    have stopped : s.control.Stopped s.dmaRefcnt ring := by
      rw [idle]
      exact unused
    exact (ok.stopped ring stopped).1

/-- In every run in which nothing completes or masks a ring at the wrong time, no ring is left
masked without its NAPI at work, and none unmasked when the last user is gone. -/
theorem napi_handshake (reaches : Reaches Orderly IrqState.step (init : IrqState soc n) s) :
    Handshake s := by
  have preserved : ∀ (before : IrqState soc n) event after, Owned before ∧ MaskedOk before →
      Orderly before event → before.step event = some after → Owned after ∧ MaskedOk after :=
    fun _ _ _ held orderly stepped =>
      ⟨held.1.step stepped, held.2.step held.1 orderly stepped⟩
  obtain ⟨owned, ok⟩ := reaches.invariant preserved ⟨owned_init, maskedOk_init⟩
  exact handshake_of ok owned

def oneEach : IrqSoc := ⟨⟨true, false, false, false, false, false⟩, nofun⟩

theorem napi_handshake_once : ∃ s : IrqState oneEach 2,
    Reaches Orderly IrqState.step init s ∧ s.control = .idle ∧ s.dmaRefcnt = 0 ∧
      Handshake s := by
  let rx := oneEach.rx0
  let events : List (IrqEvent oneEach 2) := [.mtkOpen, .control, .control, .control, .control,
    .control, .irq 0 rx, .run 0 true, .run 0 true, .run 0 true, .poll 1 rx, .pollEnd 1 false,
    .run 1 true, .mtkStop, .control, .control, .control, .control, .control, .control, .control]
  have result : (runSteps IrqState.step events init).map
      (fun s => (s.control, s.dmaRefcnt)) = some (.idle, 0) := by decide +kernel
  have meets : AllAllowed Orderly IrqState.step events init := by decide +kernel
  obtain ⟨s, run, last⟩ := Option.map_eq_some_iff.mp result
  obtain ⟨idle, unused⟩ := Prod.mk.inj last
  have reaches := reaches_of_runSteps meets run
  exact ⟨s, reaches, idle, unused, napi_handshake reaches⟩

/-- A poll is under way when `mtk_stop` masks its ring: it completes, unmasks the ring, and lets
`napi_disable` through. -/
theorem unmasked_after_stop : ¬∀ (soc : IrqSoc) (n : Nat) (s : IrqState soc n),
    Reaches anyStep IrqState.step init s → Handshake s := by
  intro handshake
  let rx := oneEach.rx0
  let events : List (IrqEvent oneEach 1) := [.mtkOpen, .control, .control, .control, .control,
    .control, .irq 0 rx, .run 0 true, .run 0 true, .run 0 true, .poll 0 rx, .mtkStop, .control,
    .control, .control, .control, .pollEnd 0 false, .run 0 true, .control, .control, .control]
  have result : (runSteps IrqState.step events init).map
      (fun s => (s.control, s.dmaRefcnt, decide (oneEach.Masked s.mask rx))) =
        some (.idle, 0, false) := by decide +kernel
  obtain ⟨s, run, last⟩ := Option.map_eq_some_iff.mp result
  obtain ⟨idle, rest⟩ := Prod.mk.inj last
  obtain ⟨unused, unmasked⟩ := Prod.mk.inj rest
  have reaches := reaches_of_runSteps allAllowed_anyStep run
  exact of_decide_eq_false unmasked ((handshake oneEach 1 s reaches).stopped idle unused rx)

/-- In every run at all, one context at most has a ring between `napi_schedule_prep` and
`napi_complete`; meanwhile the ring is in no poll list and its NAPI is not disabled. -/
theorem served_by_one (reaches : Reaches anyStep IrqState.step (init : IrqState soc n) s)
    {t : Fin n} {ring : soc.Ring} (serves : (s.threads t).Owns ring) :
    s.listed ring = false ∧ ¬s.control.Off s.dmaRefcnt ring ∧
      ∀ t', (s.threads t').Owns ring → t' = t := by
  have owned : Owned s :=
    reaches.invariant (fun _ _ _ owned _ stepped => owned.step stepped) owned_init
  exact (owned.thread ring t serves).2

theorem served_by_one_polling : ∃ s : IrqState oneEach 2,
    Reaches anyStep IrqState.step init s ∧ s.threads 1 = .polling oneEach.rx0 ∧
      ∀ t, (s.threads t).Owns oneEach.rx0 → t = 1 := by
  let rx := oneEach.rx0
  let events : List (IrqEvent oneEach 2) := [.mtkOpen, .control, .control, .control, .control,
    .control, .irq 0 rx, .run 0 true, .run 0 true, .run 0 true, .poll 1 rx]
  have result : (runSteps IrqState.step events init).map (fun s => s.threads 1) =
      some (.polling rx) := by decide +kernel
  obtain ⟨s, run, polls⟩ := Option.map_eq_some_iff.mp result
  have reaches := reaches_of_runSteps allAllowed_anyStep run
  have serves : (s.threads 1).Owns oneEach.rx0 := by
    rw [polls]
    exact rfl
  exact ⟨s, reaches, polls, (served_by_one reaches serves).2.2⟩

end IrqState

end MetaFilogic.Eth
