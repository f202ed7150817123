import MetaFilogic.Hnat.Api
import MetaFilogic.Library.Steps

/-!
# Neighbour updates

`nf_hnat_netevent_handler` queues the neighbours the kernel reports, and a delayed work
takes them off the queue in batches and deletes the bound entries whose next hop has
another address or is gone.  `hnat_neigh_update_cleanup` empties the queue and cancels the
work.  The PPE and the other parts of the driver write the tables meanwhile.
-/

namespace MetaFilogic.Hnat

open Fields
open Function (update update_self update_of_ne)

/-! ## The next hop of an entry -/

/-- The destination of the packets a PPE sends for an entry, which depends on what the PPE
does with the tunnel header and with the addresses. -/
def egressDst (entry : FoeEntry) : Option IpAddr :=
  let rmt := Bfib1.rmt.get entry == 1
  if entry.isIpv4Grp then some (.ip4 (Ipv4.newDip.get entry))
  else if entry.isType IPV4_DSLITE then
    some (if rmt then .ip4 (Ipv4.dip.get entry)
      else .ip6 fun i => (Ipv4.tunnelDipv6 i).get entry)
  else if entry.isType IPV4_MAP_E || entry.isType IPV4_MAP_T then
    some (if rmt then .ip4 (Mape.newDip.get entry)
      else .ip6 fun i => (Ipv4.tunnelDipv6 i).get entry)
  else if entry.isType IPV6_3T_ROUTE || entry.isType IPV6_5T_ROUTE then
    some (.ip6 fun i => (Ipv6.dip i).get entry)
  else if entry.isType IPV6_6RD then
    some (if rmt then .ip6 fun i => (Ipv6.dip i).get entry
      else .ip4 (Ipv6.tunnelDipv4.get entry))
  else if entry.isType IPV6_HNAPT || entry.isType IPV6_HNAT then
    some (.ip6 fun i =>
      (if Ipv6.egIpv6Dir.get entry = IPV6_SNAT then Ipv6.dip i else Ipv6.newIpv6Ip i).get entry)
  else none

def egressMember (entry : FoeEntry) : Member :=
  if entry.isIpv4Grp then ipv4Hnapt
  else if entry.isType IPV4_DSLITE then ipv4Dslite
  else if entry.isType IPV4_MAP_E || entry.isType IPV4_MAP_T then ipv4Mape
  else if entry.isType IPV6_HNAPT || entry.isType IPV6_HNAT then ipv6Hnapt
  else ipv65tRoute

def egressMac (entry : FoeEntry) : Mac :=
  (egressMember entry).dmacHi.get entry ++ (egressMember entry).dmacLo.get entry

/-- An entry sends to the neighbour of an event, but not to the address the event tells, or
although the neighbour is gone. -/
def Stale (event : NeighUpdateEvent) (entry : FoeEntry) : Prop :=
  egressDst entry = some event.dip ∧
    (event.nudState &&& NUD_FAILED ≠ 0 ∨ egressMac entry ≠ event.ha)

instance (event : NeighUpdateEvent) (entry : FoeEntry) : Decidable (Stale event entry) :=
  inferInstanceAs (Decidable (_ ∧ (_ ∨ _)))

/-- The destination of an entry is what `entry_ip_cmp` compares: it knows nothing of MAP-T,
and of no translation that leaves the destination or takes a tunnel header off. -/
structure EgressCompared (entry : FoeEntry) : Prop where
  mapt : ¬entry.isType IPV4_MAP_T
  mape : entry.isType IPV4_MAP_E → Bfib1.rmt.get entry = 1 →
    Mape.newDip.get entry = Ipv4.dip.get entry
  snat : entry.isType IPV6_HNAPT ∨ entry.isType IPV6_HNAT → Ipv6.egIpv6Dir.get entry = IPV6_SNAT →
    ∀ i, (Ipv6.dip i).get entry = (Ipv6.newIpv6Ip i).get entry

section Compare

variable {entry : FoeEntry} {event : NeighUpdateEvent}

/-- `entry_mac_cmp` tells whether a MAC address is the destination of the packets. -/
theorem entryMacCmp_dst (mac : Mac) :
    entryMacCmp entry mac ENTRY_CMP_DST = true ↔ egressMac entry = mac := by
  have member : (if entry.isIpv4Grp then ipv4Hnapt else ipv65tRoute).dmacHi =
        (egressMember entry).dmacHi ∧
      (if entry.isIpv4Grp then ipv4Hnapt else ipv65tRoute).dmacLo =
        (egressMember entry).dmacLo := by
    rw [egressMember]
    split
    · exact ⟨rfl, rfl⟩
    · split_ifs <;> exact ⟨rfl, rfl⟩
  rw [entryMacCmp, member.1, member.2, egressMac]
  simp only [ENTRY_CMP_DST, Bool.false_and, Bool.false_or, Bool.true_and, Bool.and_eq_true,
    beq_iff_eq, macHi, macLo]
  generalize (egressMember entry).dmacHi.get entry = high
  generalize (egressMember entry).dmacLo.get entry = low
  constructor
  · rintro ⟨sameHigh, sameLow⟩
    rw [← swab32_swab32 high, ← swab16_swab16 low, sameHigh, sameLow, swab32_swab32,
      swab16_swab16]
    exact @BitVec.extractLsb'_append_extractLsb' 32 16 mac
  · rintro rfl
    exact ⟨congrArg swab32 BitVec.extractLsb'_append_eq_left.symm,
      congrArg swab16 BitVec.extractLsb'_append_eq_right.symm⟩

theorem isType_of_isType {type : BitVec 5} (is : entry.isType type = true) (other : BitVec 5) :
    entry.isType other = (type == other) := by
  rw [FoeEntry.isType, eq_of_beq is]

theorem isIpv4Grp_of_isType {type : BitVec 5} (is : entry.isType type = true) :
    entry.isIpv4Grp = (type == IPV4_HNAPT || type == IPV4_HNAT) := by
  rw [FoeEntry.isIpv4Grp, isType_of_isType is, isType_of_isType is]

theorem egressCompared_iff :
    EgressCompared entry ↔
      ∀ dip, egressDst entry = some dip → entryIpCmp entry dip ENTRY_CMP_DST = true := by
  have parts : EgressCompared entry ↔ ¬entry.isType IPV4_MAP_T ∧
      (entry.isType IPV4_MAP_E → Bfib1.rmt.get entry = 1 →
        Mape.newDip.get entry = Ipv4.dip.get entry) ∧
      (entry.isType IPV6_HNAPT ∨ entry.isType IPV6_HNAT →
        Ipv6.egIpv6Dir.get entry = IPV6_SNAT →
        ∀ i, (Ipv6.dip i).get entry = (Ipv6.newIpv6Ip i).get entry) :=
    ⟨fun ⟨mapt, mape, snat⟩ => ⟨mapt, mape, snat⟩, fun ⟨mapt, mape, snat⟩ => ⟨mapt, mape, snat⟩⟩
  have types : entry.isIpv4Grp ∨ entry.isType IPV4_DSLITE ∨ entry.isType IPV4_MAP_E ∨
      entry.isType IPV4_MAP_T ∨ (entry.isType IPV6_3T_ROUTE ∨ entry.isType IPV6_5T_ROUTE) ∨
      entry.isType IPV6_6RD ∨ (entry.isType IPV6_HNAPT ∨ entry.isType IPV6_HNAT) ∨
      (egressDst entry = none ∧ ¬entry.isType IPV4_MAP_E ∧ ¬entry.isType IPV4_MAP_T ∧
        ¬(entry.isType IPV6_HNAPT ∨ entry.isType IPV6_HNAT)) := by
    unfold egressDst
    grind
  rw [parts]
  rcases types with is | is | is | is | is | is | is | ⟨none', notMape, notMapt, notNat⟩
  · rcases Bool.or_eq_true _ _ ▸ is with is | is <;>
      simp [egressDst, entryIpCmp, ipv4CmpFields, isIpv4Grp_of_isType is, isType_of_isType is,
        ENTRY_CMP_DST]
  · by_cases rmt : Bfib1.rmt.get entry = 1#1 <;>
      simp [egressDst, entryIpCmp, ipv4CmpFields, ipv6CmpFields, isIpv4Grp_of_isType is,
        isType_of_isType is, ENTRY_CMP_DST, rmt]
  · by_cases rmt : Bfib1.rmt.get entry = 1#1 <;>
      simp [egressDst, entryIpCmp, ipv4CmpFields, ipv6CmpFields, isIpv4Grp_of_isType is,
        isType_of_isType is, ENTRY_CMP_DST, rmt]
    exact eq_comm
  · by_cases rmt : Bfib1.rmt.get entry = 1#1 <;>
      simp [egressDst, entryIpCmp, ipv4CmpFields, ipv6CmpFields, isIpv4Grp_of_isType is,
        isType_of_isType is, rmt]
  · rcases is with is | is <;>
      simp [egressDst, entryIpCmp, ipv6CmpFields, isIpv4Grp_of_isType is, isType_of_isType is,
        ENTRY_CMP_DST]
  · by_cases rmt : Bfib1.rmt.get entry = 1#1 <;>
      simp [egressDst, entryIpCmp, ipv4CmpFields, ipv6CmpFields, isIpv4Grp_of_isType is,
        isType_of_isType is, ENTRY_CMP_DST, rmt]
  · have turn : (∀ i, (Ipv6.dip i).get entry = (Ipv6.newIpv6Ip i).get entry) ↔
        ∀ i, (Ipv6.newIpv6Ip i).get entry = (Ipv6.dip i).get entry :=
      forall_congr' fun _ => eq_comm
    rw [turn]
    rcases is with is | is <;> by_cases dir : Ipv6.egIpv6Dir.get entry = 0#1 <;>
      simp [egressDst, entryIpCmp, ipv6CmpFields, isIpv4Grp_of_isType is, isType_of_isType is,
        ENTRY_CMP_DST, dir]
  · rw [none']
    exact ⟨fun _ _ dst => (Option.some_ne_none _ dst.symm).elim, fun _ =>
      ⟨notMapt, fun is => absurd is notMape, fun is => absurd is notNat⟩⟩

/-- A stale entry is one that `foe_clear_entry` deletes. -/
theorem neighCmp_of_stale (compared : EgressCompared entry) (stale : Stale event entry) :
    neighCmp entry event = true := by
  obtain ⟨dst, reason⟩ := stale
  rw [neighCmp, egressCompared_iff.mp compared _ dst, Bool.true_and, Bool.or_eq_true]
  refine reason.imp bne_iff_ne.mpr fun other => ?_
  rw [Bool.not_eq_true', ← Bool.not_eq_true, entryMacCmp_dst]
  exact other

theorem isBound_entryDelete (stamp : BitVec 8) (entry : FoeEntry) :
    (entryDelete stamp entry).isBound = false := by
  simp (disch := decide) only [entryDelete, FoeEntry.isBound, Field.get_set_disjoint,
    Field.get_set]
  rfl

end Compare

/-! ## The queue and the work -/

def NEIGH_PROCESS_BUDGET : Nat := 128

/-- `NUD_CONNECTED`: permanent, without ARP, or reachable. -/
def NUD_CONNECTED : BitVec 8 := 0xc2

/-- What `nf_hnat_netevent_handler` reads of `struct neighbour`. -/
structure Neighbour where
  hasDev : Bool
  nudState : BitVec 8
  ha : Mac
  primaryKey : IpAddr

def Neighbour.event (neigh : Neighbour) : NeighUpdateEvent where
  dip := neigh.primaryKey
  ha := neigh.ha
  nudState := neigh.nudState

def pendingMax (arpThresh ndThresh : BitVec 32) : BitVec 32 :=
  if (4096#32).slt ((arpThresh + ndThresh) * 2) then (arpThresh + ndThresh) * 2 else 4096

structure QueuedEvent where
  event : NeighUpdateEvent
  number : Nat

/-- Where `hnat_neigh_update_work_handler` is: its batch, and the entry `foe_clear_entry`
looks at next or is about to delete. -/
inductive WorkPhase where
  | idle
  | started
  | scanning (localList : List QueuedEvent) (ppe index : Nat)
  | deleting (localList : List QueuedEvent) (ppe index : Nat)
  | scanned

/-- Where `hnat_neigh_update_cleanup` is after its locked section, when it has found the work
pending: before `cancel_delayed_work_sync`, or in it with the pending bit taken over. -/
inductive CleanupPhase where
  | idle
  | unlocked
  | cancelling
  deriving DecidableEq

/-- The tables, `neigh_update`, and its parties.  `timer` tells whether the work waits for its
delay, `since` counts the events accepted before the present binding of an entry, and
`processed` has the events `foe_clear_entry` is done with. -/
structure NeighState where
  h : MtkHnat
  pendingCnt : BitVec 32
  head : List QueuedEvent
  timer : Bool
  work : WorkPhase
  cleanup : CleanupPhase
  accepted : Nat
  since : Nat → Nat → Nat
  processed : List QueuedEvent

/-- A step of one of the parties.  `write` is a write of the PPE or of other code. -/
inductive NeighLabel where
  | netevent (neigh : Neighbour) (arpThresh ndThresh : BitVec 32) (kzallocOk : Bool)
  | workStart
  | takeBatch
  | visit
  | delete (stamp : BitVec 8)
  | rearm
  | cleanupLock
  | cancelGrab
  | cancelDone
  | write (ppe index : Nat) (entry : FoeEntry)

def SameHop (entry entry' : FoeEntry) : Prop :=
  entry.isBound = true ∧ entry'.isBound = true ∧ egressDst entry = egressDst entry' ∧
    egressMac entry = egressMac entry'

instance (entry entry' : FoeEntry) : Decidable (SameHop entry entry') :=
  inferInstanceAs (Decidable (_ ∧ _ ∧ _ ∧ _))

namespace NeighState

variable (s : NeighState)

def delayedWorkPending : Bool := s.timer || s.cleanup == .cancelling

def scheduleDelayedWork : NeighState := if s.delayedWorkPending then s else { s with timer := true }

def netevent (neigh : Neighbour) (arpThresh ndThresh : BitVec 32) (kzallocOk : Bool) :
    NeighState :=
  if !neigh.hasDev || neigh.nudState &&& (NUD_CONNECTED ||| NUD_FAILED) == 0 then s
  else if pendingMax arpThresh ndThresh ≤ s.pendingCnt then s
  else if !kzallocOk then s
  else scheduleDelayedWork { s with
    head := s.head ++ [⟨neigh.event, s.accepted⟩]
    pendingCnt := s.pendingCnt + 1
    accepted := s.accepted + 1 }

/-- One turn of the loops of `foe_clear_entry`; nothing when it leaves the table. -/
def visit (localList : List QueuedEvent) (ppe index : Nat) : Option NeighState :=
  if ppe ≥ s.h.ppeNum then
    some { s with
      work := .scanned
      processed := localList ++ s.processed }
  else if (s.h.foeTableCpu ppe).isNone ∨ index ≥ s.h.foeEtryNum then
    some { s with work := .scanning localList (ppe + 1) 0 }
  else
    (s.h.foeEntry ppe index).map fun entry =>
      if entry.isBound && localList.any fun queued => neighCmp entry queued.event then
        { s with work := .deleting localList ppe index }
      else { s with work := .scanning localList ppe (index + 1) }

def step : NeighLabel → Option NeighState
  | .netevent neigh arpThresh ndThresh kzallocOk =>
    some (s.netevent neigh arpThresh ndThresh kzallocOk)
  | .workStart =>
    match s.timer, s.work with
    | true, .idle => some { s with
        timer := false
        work := .started }
    | _, _ => none
  | .takeBatch =>
    match s.work with
    | .started =>
      let localList := s.head.take NEIGH_PROCESS_BUDGET
      some { s with
        head := s.head.drop NEIGH_PROCESS_BUDGET
        pendingCnt := s.pendingCnt - BitVec.ofNat 32 localList.length
        work := if localList.isEmpty then .scanned else .scanning localList 0 0 }
    | _ => none
  | .visit =>
    match s.work with
    | .scanning localList ppe index => s.visit localList ppe index
    | _ => none
  | .delete stamp =>
    match s.work with
    | .deleting localList ppe index =>
      (s.h.foeEntry ppe index).map fun entry => { s with
        h := s.h.setFoeEntry ppe index (entryDelete stamp entry)
        work := .scanning localList ppe (index + 1) }
    | _ => none
  | .rearm =>
    match s.work with
    | .scanned =>
      some { if s.head.isEmpty then s else s.scheduleDelayedWork with work := .idle }
    | _ => none
  | .cleanupLock =>
    match s.cleanup with
    | .idle => some { s with
        head := []
        pendingCnt := 0
        cleanup := if s.delayedWorkPending then .unlocked else .idle }
    | _ => none
  | .cancelGrab =>
    match s.cleanup with
    | .unlocked => some { s with
        timer := false
        cleanup := .cancelling }
    | _ => none
  | .cancelDone =>
    match s.cleanup, s.work with
    | .cancelling, .idle => some { s with cleanup := .idle }
    | _, _ => none
  | .write ppe index entry =>
    (s.h.foeEntry ppe index).map fun old => { s with
      h := s.h.setFoeEntry ppe index entry
      since :=
        if SameHop old entry then s.since
        else update s.since ppe (update (s.since ppe) index s.accepted) }

/-- The state after `hnat_neigh_update_init`, before anything is bound. -/
structure Fresh : Prop where
  unbound : ∀ ppe index entry, s.h.foeEntry ppe index = some entry → entry.isBound = false
  pendingCnt : s.pendingCnt = 0
  head : s.head = []
  timer : s.timer = false
  work : s.work = .idle
  cleanup : s.cleanup = .idle
  processed : s.processed = []

/-- No event comes during a cancellation, and entries are bound in the part of a table that
`foe_clear_entry` looks at, with a destination it compares. -/
def Orderly : NeighLabel → Prop
  | .netevent _ _ _ _ => s.cleanup = .idle
  | .write _ index entry => entry.isBound = true → index < s.h.foeEtryNum ∧ EgressCompared entry
  | _ => True

/-- An entry whose present binding is older than an event is not stale for it. -/
def Settled (queued : QueuedEvent) (ppe index : Nat) : Prop :=
  ∀ entry, s.h.foeEntry ppe index = some entry → entry.isBound = true →
    s.since ppe index ≤ queued.number → ¬Stale queued.event entry

/-- The queue is counted, a work that is to come or under way will look at it, and no entry
is stale for an event that has been processed. -/
structure Sound : Prop where
  counted : s.pendingCnt.toNat = s.head.length
  armed : s.head ≠ [] → s.timer = true ∨ s.work ≠ .idle
  processed : ∀ queued ∈ s.processed, ∀ ppe < s.h.ppeNum, ∀ index, s.Settled queued ppe index

/-! ## The queue -/

structure QueueInv : Prop where
  counted : s.pendingCnt.toNat = s.head.length
  armed : s.head ≠ [] → s.timer = true ∨ s.work ≠ .idle
  quiet : s.cleanup ≠ .idle → s.head = []

section Steps

variable {s : NeighState} {s' : NeighState} {label : NeighLabel}

theorem scheduleDelayedWork_eq (s : NeighState) :
    s.scheduleDelayedWork = { s with timer := s.timer || s.cleanup != .cancelling } := by
  rw [scheduleDelayedWork, delayedWorkPending]
  obtain ⟨h, cnt, head, timer, work, cleanup, accepted, since, processed⟩ := s
  cases timer <;> cases cleanup <;> rfl

theorem netevent_cases (s : NeighState) (neigh : Neighbour) (arpThresh ndThresh : BitVec 32)
    (kzallocOk : Bool) :
    s.netevent neigh arpThresh ndThresh kzallocOk = s ∨
      s.pendingCnt < pendingMax arpThresh ndThresh ∧
        s.netevent neigh arpThresh ndThresh kzallocOk = { s with
          head := s.head ++ [⟨neigh.event, s.accepted⟩]
          pendingCnt := s.pendingCnt + 1
          accepted := s.accepted + 1
          timer := s.timer || s.cleanup != .cancelling } := by
  rw [netevent, scheduleDelayedWork_eq]
  split
  · exact .inl rfl
  · split
    · exact .inl rfl
    · rename_i room
      split
      · exact .inl rfl
      · exact .inr ⟨BitVec.not_le.mp room, rfl⟩

theorem QueueInv.netevent (inv : s.QueueInv) (idle : s.cleanup = .idle) (neigh : Neighbour)
    (arpThresh ndThresh : BitVec 32) (kzallocOk : Bool) :
    (s.netevent neigh arpThresh ndThresh kzallocOk).QueueInv := by
  rcases netevent_cases s neigh arpThresh ndThresh kzallocOk with same | ⟨room, added⟩
  · rwa [same]
  · rw [added]
    refine ⟨?_, fun _ => .inl ?_, fun busy => absurd idle busy⟩
    · have noWrap : s.pendingCnt.toNat + 1 < 2 ^ 32 :=
        Nat.lt_of_le_of_lt (BitVec.lt_def.mp room) (pendingMax arpThresh ndThresh).isLt
      rw [BitVec.toNat_add_of_lt noWrap, inv.counted, List.length_append]
      rfl
    · rw [idle]
      exact Bool.or_true _

theorem QueueInv.takeBatch (inv : s.QueueInv) (work : WorkPhase) (busy : work ≠ .idle) :
    { s with
      head := s.head.drop NEIGH_PROCESS_BUDGET
      pendingCnt := s.pendingCnt - BitVec.ofNat 32 (s.head.take NEIGH_PROCESS_BUDGET).length
      work }.QueueInv := by
  refine ⟨?_, fun _ => .inr busy, fun cleanup => ?_⟩
  · have fits : (s.head.take NEIGH_PROCESS_BUDGET).length ≤ s.pendingCnt.toNat := by
      rw [inv.counted, List.length_take]
      exact Nat.min_le_right ..
    have taken : (BitVec.ofNat 32 (s.head.take NEIGH_PROCESS_BUDGET).length).toNat =
        (s.head.take NEIGH_PROCESS_BUDGET).length :=
      Nat.mod_eq_of_lt (Nat.lt_of_le_of_lt fits s.pendingCnt.isLt)
    rw [BitVec.toNat_sub_of_le (by rwa [BitVec.le_def, taken]), taken, inv.counted,
      List.length_take, List.length_drop]
    omega
  · rw [inv.quiet cleanup, List.drop_nil]

theorem QueueInv.busy (inv : s.QueueInv) (h : MtkHnat) (work : WorkPhase)
    (processed : List QueuedEvent) (busy : work ≠ .idle) :
    { s with
      h
      work
      processed }.QueueInv :=
  ⟨inv.counted, fun _ => .inr busy, inv.quiet⟩

theorem visit_cases {localList : List QueuedEvent} {ppe index : Nat}
    (visited : s.visit localList ppe index = some s') :
    (s.h.ppeNum ≤ ppe ∧ s' = { s with
      work := .scanned
      processed := localList ++ s.processed }) ∨
    ((s.h.foeTableCpu ppe = none ∨ s.h.foeEtryNum ≤ index) ∧
      s' = { s with work := .scanning localList (ppe + 1) 0 }) ∨
    ∃ entry, s.h.foeEntry ppe index = some entry ∧
      (s' = { s with work := .deleting localList ppe index } ∨
        (entry.isBound = true → ∀ queued ∈ localList, neighCmp entry queued.event = false) ∧
          s' = { s with work := .scanning localList ppe (index + 1) }) := by
  rw [visit] at visited
  split at visited
  · rename_i last
    exact .inl ⟨last, (Option.some_inj.mp visited).symm⟩
  · split at visited
    · rename_i next
      rw [Option.isNone_iff_eq_none] at next
      exact .inr (.inl ⟨next, (Option.some_inj.mp visited).symm⟩)
    · obtain ⟨entry, placed, rfl⟩ := Option.map_eq_some_iff.mp visited
      refine .inr (.inr ⟨entry, placed, ?_⟩)
      split
      · exact .inl rfl
      · rename_i kept
        refine .inr ⟨fun bound queued member => ?_, rfl⟩
        rw [bound, Bool.true_and, Bool.not_eq_true, List.any_eq_false] at kept
        exact Bool.eq_false_iff.mpr (kept queued member)

theorem QueueInv.rearm (inv : s.QueueInv) :
    { if s.head.isEmpty then s else s.scheduleDelayedWork with work := .idle }.QueueInv := by
  rw [scheduleDelayedWork_eq]
  split
  · rename_i empty
    exact ⟨inv.counted, fun some => absurd (List.isEmpty_iff.mp empty) some, inv.quiet⟩
  · refine ⟨inv.counted, fun some => .inl ?_, inv.quiet⟩
    have idle : s.cleanup = .idle := by_contra fun busy => some (inv.quiet busy)
    rw [idle]
    exact Bool.or_true _

theorem QueueInv.step (inv : s.QueueInv) (orderly : s.Orderly label)
    (stepped : s.step label = some s') : s'.QueueInv := by
  cases label with
  | netevent neigh arpThresh ndThresh kzallocOk =>
    obtain rfl := Option.some_inj.mp stepped
    exact inv.netevent orderly neigh arpThresh ndThresh kzallocOk
  | workStart =>
    rw [NeighState.step] at stepped
    split at stepped
    · obtain rfl := Option.some_inj.mp stepped
      exact ⟨inv.counted, fun _ => .inr nofun, inv.quiet⟩
    · cases stepped
  | takeBatch =>
    rw [NeighState.step] at stepped
    split at stepped
    · obtain rfl := Option.some_inj.mp stepped
      refine inv.takeBatch _ ?_
      split <;> exact nofun
    · cases stepped
  | visit =>
    rw [NeighState.step] at stepped
    split at stepped
    · rcases visit_cases stepped with ⟨_, rfl⟩ | ⟨_, rfl⟩ | ⟨_, _, rfl | ⟨_, rfl⟩⟩
      all_goals exact inv.busy _ _ _ nofun
    · cases stepped
  | delete stamp =>
    rw [NeighState.step] at stepped
    split at stepped
    · obtain ⟨entry, _, rfl⟩ := Option.map_eq_some_iff.mp stepped
      exact inv.busy _ _ _ nofun
    · cases stepped
  | rearm =>
    rw [NeighState.step] at stepped
    split at stepped
    · obtain rfl := Option.some_inj.mp stepped
      exact inv.rearm
    · cases stepped
  | cleanupLock =>
    rw [NeighState.step] at stepped
    split at stepped
    · obtain rfl := Option.some_inj.mp stepped
      exact ⟨rfl, fun some => absurd rfl some, fun _ => rfl⟩
    · cases stepped
  | cancelGrab =>
    rw [NeighState.step] at stepped
    split at stepped
    · rename_i unlocked
      obtain rfl := Option.some_inj.mp stepped
      have empty := inv.quiet (by rw [unlocked]; exact nofun)
      exact ⟨inv.counted, fun some => absurd empty some, fun _ => empty⟩
    · cases stepped
  | cancelDone =>
    rw [NeighState.step] at stepped
    split at stepped
    · obtain rfl := Option.some_inj.mp stepped
      exact ⟨inv.counted, inv.armed, fun busy => absurd rfl busy⟩
    · cases stepped
  | write ppe index entry =>
    obtain ⟨old, _, rfl⟩ := Option.map_eq_some_iff.mp stepped
    exact ⟨inv.counted, inv.armed, inv.quiet⟩

/-! ## The tables -/

end Steps

def batch : List QueuedEvent :=
  match s.work with
  | .scanning localList _ _ | .deleting localList _ _ => localList
  | _ => []

def Passed (ppe index : Nat) : Prop :=
  match s.work with
  | .scanning _ ppe' index' | .deleting _ ppe' index' => ppe < ppe' ∨ ppe = ppe' ∧ index < index'
  | _ => False

structure ScanInv : Prop where
  numbered : ∀ queued ∈ s.head ++ s.batch ++ s.processed, queued.number < s.accepted
  bound : ∀ ppe index entry, s.h.foeEntry ppe index = some entry → entry.isBound = true →
    index < s.h.foeEtryNum ∧ EgressCompared entry
  passed : ∀ queued ∈ s.batch, ∀ ppe index, s.Passed ppe index → s.Settled queued ppe index
  processed : ∀ queued ∈ s.processed, ∀ ppe < s.h.ppeNum, ∀ index, s.Settled queued ppe index

section Steps

variable {s : NeighState} {s' : NeighState} {label : NeighLabel}

theorem ScanInv.frame (inv : s.ScanInv) (tables : s'.h = s.h) (since : s'.since = s.since)
    (accepted : s.accepted ≤ s'.accepted)
    (head : ∀ queued ∈ s'.head, queued ∈ s.head ∨ queued.number < s'.accepted)
    (batch : ∀ queued ∈ s'.batch, queued ∈ s.head ++ s.batch)
    (passed : ∀ queued ∈ s'.batch, ∀ ppe index, s'.Passed ppe index → s.Settled queued ppe index)
    (processed : ∀ queued ∈ s'.processed, queued ∈ s.processed ∨
      queued ∈ s.batch ∧ ∀ ppe < s.h.ppeNum, ∀ index, s.Settled queued ppe index) : s'.ScanInv := by
  have settled {queued : QueuedEvent} {ppe index : Nat} (holds : s.Settled queued ppe index) :
      s'.Settled queued ppe index := by
    rw [Settled, tables, since]
    exact holds
  have known {queued : QueuedEvent} (member : queued ∈ s.head ++ s.batch ++ s.processed) :
      queued.number < s'.accepted := Nat.lt_of_lt_of_le (inv.numbered queued member) accepted
  refine ⟨fun queued member => ?_, ?_, fun queued member ppe index before =>
    settled (passed queued member ppe index before), fun queued member ppe inPpe index => ?_⟩
  · simp only [List.mem_append] at member known batch
    rcases member with (inHead | inBatch) | done
    · exact (head queued inHead).elim (fun old => known (.inl (.inl old))) id
    · exact known (.inl (batch queued inBatch))
    · exact known ((processed queued done).elim .inr fun old => .inl (.inr old.1))
  · rw [tables]
    exact inv.bound
  · rw [tables] at inPpe
    exact settled ((processed queued member).elim
      (fun old => inv.processed queued old ppe inPpe index) fun new => new.2 ppe inPpe index)

variable {ppe index : Nat}

theorem ScanInv.visit {localList : List QueuedEvent} (inv : s.ScanInv)
    (at' : s.work = .scanning localList ppe index)
    (visited : s.visit localList ppe index = some s') :
    s'.ScanInv := by
  have isBatch : s.batch = localList := by rw [batch, at']
  have isPassed (ppe' index' : Nat) :
      s.Passed ppe' index' ↔ ppe' < ppe ∨ ppe' = ppe ∧ index' < index := by rw [Passed, at']
  have before := inv.passed
  simp only [isBatch, isPassed] at before
  rcases visit_cases visited with ⟨last, rfl⟩ | ⟨next, rfl⟩ | ⟨entry, placed, rfl | ⟨kept, rfl⟩⟩
  · refine inv.frame rfl rfl (Nat.le_refl _) (fun _ => .inl) nofun nofun fun queued member => ?_
    refine (List.mem_append.mp member).elim (fun new => .inr ⟨isBatch ▸ new, ?_⟩) .inl
    exact fun ppe' inPpe index' => before queued new _ _ (.inl (Nat.lt_of_lt_of_le inPpe last))
  · refine inv.frame rfl rfl (Nat.le_refl _) (fun _ => .inl) ?_ ?_ fun _ => .inl
    · exact fun queued member => List.mem_append_right _ (isBatch ▸ member)
    · rintro queued member ppe' index' (row | ⟨_, past⟩)
      · rcases Nat.lt_succ_iff_lt_or_eq.mp row with earlier | rfl
        · exact before queued member _ _ (.inl earlier)
        · intro entry placed bound
          rcases next with noTable | past
          · rw [MtkHnat.foeEntry, noTable] at placed
            cases placed
          · have inside := (inv.bound _ _ _ placed bound).1
            exact before queued member _ _ (.inr ⟨rfl, Nat.lt_of_lt_of_le inside past⟩) entry
              placed bound
      · cases past
  · refine inv.frame rfl rfl (Nat.le_refl _) (fun _ => .inl) ?_ ?_ fun _ => .inl
    · exact fun queued member => List.mem_append_right _ (isBatch ▸ member)
    · exact fun queued member ppe' index' passed => before queued member _ _ passed
  · refine inv.frame rfl rfl (Nat.le_refl _) (fun _ => .inl) ?_ ?_ fun _ => .inl
    · exact fun queued member => List.mem_append_right _ (isBatch ▸ member)
    · rintro queued member ppe' index' (row | ⟨rfl, upTo⟩)
      · exact before queued member _ _ (.inl row)
      · rcases Nat.lt_succ_iff_lt_or_eq.mp upTo with earlier | rfl
        · exact before queued member _ _ (.inr ⟨rfl, earlier⟩)
        · intro entry' placed' bound _ stale
          rw [placed, Option.some_inj] at placed'
          subst placed'
          have found := neighCmp_of_stale (inv.bound _ _ _ placed bound).2 stale
          rw [kept bound queued member] at found
          cases found

theorem ScanInv.delete {localList : List QueuedEvent} {entry : FoeEntry} (inv : s.ScanInv)
    (at' : s.work = .deleting localList ppe index) (placed : s.h.foeEntry ppe index = some entry)
    (stamp : BitVec 8) :
    { s with
      h := s.h.setFoeEntry ppe index (entryDelete stamp entry)
      work := .scanning localList ppe (index + 1) }.ScanInv := by
  have isBatch : s.batch = localList := by rw [batch, at']
  have isPassed (ppe' index' : Nat) :
      s.Passed ppe' index' ↔ ppe' < ppe ∨ ppe' = ppe ∧ index' < index := by rw [Passed, at']
  have before := inv.passed
  simp only [isBatch, isPassed] at before
  have left {ppe' index' : Nat} {entry' : FoeEntry}
      (placed' : (s.h.setFoeEntry ppe index (entryDelete stamp entry)).foeEntry ppe' index' =
        some entry') (bound : entry'.isBound = true) :
      (ppe' ≠ ppe ∨ index' ≠ index) ∧ s.h.foeEntry ppe' index' = some entry' := by
    by_cases here : ppe' = ppe ∧ index' = index
    · obtain ⟨rfl, rfl⟩ := here
      rw [MtkHnat.foeEntry_setFoeEntry placed, Option.some_inj] at placed'
      rw [← placed', isBound_entryDelete] at bound
      cases bound
    · have other : ppe' ≠ ppe ∨ index' ≠ index := not_and_or.mp here
      exact ⟨other, by rwa [MtkHnat.foeEntry_setFoeEntry_other other] at placed'⟩
  refine ⟨?_, fun ppe' index' entry' placed' bound =>
    inv.bound _ _ _ (left placed' bound).2 bound, ?_, ?_⟩
  · have numbered := inv.numbered
    rwa [isBatch] at numbered
  · intro queued member ppe' index' passed entry' placed' bound
    obtain ⟨other, old⟩ := left placed' bound
    refine before queued member _ _ (passed.imp_right fun ⟨row, upTo⟩ => ⟨row, ?_⟩) entry' old bound
    have different := other.resolve_left (absurd row)
    omega
  · intro queued member ppe' inPpe index' entry' placed' bound
    exact inv.processed queued member ppe' inPpe index' entry' (left placed' bound).2 bound

theorem ScanInv.write {old entry : FoeEntry} (inv : s.ScanInv)
    (orderly : s.Orderly (.write ppe index entry)) (placed : s.h.foeEntry ppe index = some old) :
    { s with
      h := s.h.setFoeEntry ppe index entry
      since :=
        if SameHop old entry then s.since
        else update s.since ppe (update (s.since ppe) index s.accepted)
      }.ScanInv := by
  have settled {queued : QueuedEvent} (known : queued.number < s.accepted) {ppe' index' : Nat}
      (holds : s.Settled queued ppe' index') :
      Settled { s with
        h := s.h.setFoeEntry ppe index entry
        since :=
          if SameHop old entry then s.since
          else update s.since ppe (update (s.since ppe) index s.accepted) }
        queued ppe' index' := by
    intro entry' placed' bound older
    dsimp only at placed' older
    by_cases here : ppe' = ppe ∧ index' = index
    · obtain ⟨rfl, rfl⟩ := here
      rw [MtkHnat.foeEntry_setFoeEntry placed, Option.some_inj] at placed'
      subst placed'
      split at older
      · rename_i same
        rw [Stale, ← same.2.2.1, ← same.2.2.2]
        exact holds old placed same.1 older
      · rw [update_self, update_self] at older
        exact absurd known (Nat.not_lt.mpr older)
    · have other : ppe' ≠ ppe ∨ index' ≠ index := not_and_or.mp here
      rw [MtkHnat.foeEntry_setFoeEntry_other other] at placed'
      refine holds entry' placed' bound ?_
      split at older
      · exact older
      · by_cases row : ppe' = ppe
        · subst row
          rwa [update_self, update_of_ne (other.resolve_left (absurd rfl))]
            at older
        · rwa [update_of_ne row] at older
  have numbered := inv.numbered
  simp only [List.mem_append] at numbered
  refine ⟨inv.numbered, fun ppe' index' entry' placed' bound => ?_, ?_, ?_⟩
  · by_cases here : ppe' = ppe ∧ index' = index
    · obtain ⟨rfl, rfl⟩ := here
      dsimp only at placed'
      rw [MtkHnat.foeEntry_setFoeEntry placed, Option.some_inj] at placed'
      exact placed' ▸ orderly (placed' ▸ bound)
    · dsimp only at placed'
      rw [MtkHnat.foeEntry_setFoeEntry_other (not_and_or.mp here)] at placed'
      exact inv.bound _ _ _ placed' bound
  · exact fun queued member ppe' index' passed =>
      settled (numbered queued (.inl (.inr member))) (inv.passed queued member ppe' index' passed)
  · exact fun queued member ppe' inPpe index' =>
      settled (numbered queued (.inr member)) (inv.processed queued member ppe' inPpe index')

theorem ScanInv.noBatch (inv : s.ScanInv) (tables : s'.h = s.h) (since : s'.since = s.since)
    (accepted : s'.accepted = s.accepted) (head : ∀ queued ∈ s'.head, queued ∈ s.head)
    (batch : s'.batch = []) (processed : s'.processed = s.processed) : s'.ScanInv := by
  refine inv.frame tables since accepted.ge (fun queued member => .inl (head queued member)) ?_ ?_
    fun queued member => .inl (processed ▸ member)
  · rw [batch]
    exact nofun
  · rw [batch]
    exact nofun

theorem ScanInv.sameWork (inv : s.ScanInv) (tables : s'.h = s.h) (since : s'.since = s.since)
    (accepted : s.accepted ≤ s'.accepted)
    (head : ∀ queued ∈ s'.head, queued ∈ s.head ∨ queued.number < s'.accepted)
    (work : s'.work = s.work) (processed : s'.processed = s.processed) : s'.ScanInv := by
  have batch : s'.batch = s.batch := by rw [NeighState.batch, work, NeighState.batch]
  refine inv.frame tables since accepted head (fun queued member => ?_)
    (fun queued member ppe index passed => ?_) fun queued member => .inl (processed ▸ member)
  · exact List.mem_append_right _ (batch ▸ member)
  · rw [Passed, work] at passed
    exact inv.passed queued (batch ▸ member) ppe index passed

theorem ScanInv.step (inv : s.ScanInv) (orderly : s.Orderly label)
    (stepped : s.step label = some s') : s'.ScanInv := by
  cases label with
  | netevent neigh arpThresh ndThresh kzallocOk =>
    obtain rfl := Option.some_inj.mp stepped
    rcases netevent_cases s neigh arpThresh ndThresh kzallocOk with same | ⟨_, added⟩
    · rwa [same]
    · rw [added]
      refine inv.sameWork rfl rfl (Nat.le_succ _) (fun queued member => ?_) rfl rfl
      refine (List.mem_append.mp member).imp_right fun new => ?_
      rw [List.mem_singleton.mp new]
      exact Nat.lt_succ_self _
  | workStart =>
    rw [NeighState.step] at stepped
    split at stepped
    · obtain rfl := Option.some_inj.mp stepped
      exact inv.noBatch rfl rfl rfl (fun _ => id) rfl rfl
    · cases stepped
  | takeBatch =>
    rw [NeighState.step] at stepped
    split at stepped
    · obtain rfl := Option.some_inj.mp stepped
      split
      · exact inv.noBatch rfl rfl rfl (fun _ => List.mem_of_mem_drop) rfl rfl
      · refine inv.frame rfl rfl (Nat.le_refl _)
          (fun _ member => .inl (List.mem_of_mem_drop member))
          (fun _ member => List.mem_append_left _ (List.mem_of_mem_take member)) ?_ fun _ => .inl
        rintro queued member ppe index (row | ⟨_, past⟩)
        · cases row
        · cases past
    · cases stepped
  | visit =>
    rw [NeighState.step] at stepped
    split at stepped
    · rename_i localList ppe index at'
      exact inv.visit at' stepped
    · cases stepped
  | delete stamp =>
    rw [NeighState.step] at stepped
    split at stepped
    · rename_i localList ppe index at'
      obtain ⟨entry, placed, rfl⟩ := Option.map_eq_some_iff.mp stepped
      exact inv.delete at' placed stamp
    · cases stepped
  | rearm =>
    rw [NeighState.step, scheduleDelayedWork_eq] at stepped
    split at stepped
    · obtain rfl := Option.some_inj.mp stepped
      split <;> exact inv.noBatch rfl rfl rfl (fun _ => id) rfl rfl
    · cases stepped
  | cleanupLock =>
    rw [NeighState.step] at stepped
    split at stepped
    · obtain rfl := Option.some_inj.mp stepped
      exact inv.sameWork rfl rfl (Nat.le_refl _) nofun rfl rfl
    · cases stepped
  | cancelGrab =>
    rw [NeighState.step] at stepped
    split at stepped
    · obtain rfl := Option.some_inj.mp stepped
      exact inv.sameWork rfl rfl (Nat.le_refl _) (fun _ => .inl) rfl rfl
    · cases stepped
  | cancelDone =>
    rw [NeighState.step] at stepped
    split at stepped
    · obtain rfl := Option.some_inj.mp stepped
      exact inv.sameWork rfl rfl (Nat.le_refl _) (fun _ => .inl) rfl rfl
    · cases stepped
  | write ppe index entry =>
    obtain ⟨old, placed, rfl⟩ := Option.map_eq_some_iff.mp stepped
    exact inv.write orderly placed

end Steps

/-- In a run of orderly steps the queue is counted, a work that is to come or under way will
look at it, and no entry bound before an event is stale once the event has been processed. -/
theorem neighUpdates_sound {s s' : NeighState} (fresh : s.Fresh)
    (run : Reaches Orderly step s s') : s'.Sound := by
  have queue : s'.QueueInv := by
    refine run.invariant (fun _ _ _ inv orderly stepped => inv.step orderly stepped) ?_
    refine ⟨?_, fun some => absurd fresh.head some, fun _ => fresh.head⟩
    rw [fresh.pendingCnt, fresh.head]
    rfl
  have scan : s'.ScanInv := by
    refine run.invariant (fun _ _ _ inv orderly stepped => inv.step orderly stepped) ?_
    have idle : s.batch = [] := by rw [batch, fresh.work]
    refine ⟨?_, fun ppe index entry placed bound => ?_, ?_, ?_⟩
    · rw [fresh.head, idle, fresh.processed]
      exact nofun
    · rw [fresh.unbound ppe index entry placed] at bound
      cases bound
    · rw [idle]
      exact nofun
    · rw [fresh.processed]
      exact nofun
  exact ⟨queue.counted, queue.armed, scan.processed⟩

/-! ## Runs -/

def oneEntry : MtkHnat where
  ppeNum := 1
  foeEtryNum := 1
  etryNumCfg := 0
  foeTableCpu ppe := if ppe = 0 then some [.zero] else none
  foeFlow _ := none
  tbEtryNum _ := 0

def neighStart : NeighState where
  h := oneEntry
  pendingCnt := 0
  head := []
  timer := false
  work := .idle
  cleanup := .idle
  accepted := 0
  since _ _ := 0
  processed := []

theorem neighStart_fresh : neighStart.Fresh where
  unbound ppe index entry placed := by
    obtain ⟨table, present, cell⟩ := Option.bind_eq_some_iff.mp placed
    simp only [neighStart, oneEntry] at present
    split at present
    · rw [← Option.some_inj.mp present] at cell
      rw [List.mem_singleton.mp (List.mem_of_getElem? cell)]
      decide
    · cases present
  pendingCnt := rfl
  head := rfl
  timer := rfl
  work := rfl
  cleanup := rfl
  processed := rfl

def natEntry : FoeEntry := Ipv4.newDip.set 0xc0a80102 (Bfib1.state.set BIND FoeEntry.zero)

def snatEntry : FoeEntry :=
  (Ipv6.newIpv6Ip 3).set 2 ((Ipv6.dip 3).set 1
    (Bfib1.pktType.set IPV6_HNAPT (Bfib1.state.set BIND FoeEntry.zero)))

def movedNeighbour (primaryKey : IpAddr) : Neighbour where
  hasDev := true
  nudState := 0x02
  ha := 0x020000000001
  primaryKey

def updateLabels (entry : FoeEntry) (primaryKey : IpAddr) (visits : List NeighLabel) :
    List NeighLabel :=
  [.write 0 0 entry, .netevent (movedNeighbour primaryKey) 0 0 true, .workStart, .takeBatch,
    .visit] ++ visits ++ [.visit, .visit, .rearm]

theorem updateLabels_orderly :
    AllAllowed Orderly step (updateLabels natEntry (.ip4 0xc0a80102) [.delete 0]) neighStart := by
  have compared : EgressCompared natEntry :=
    ⟨by decide, fun is => absurd is (by decide), fun is => absurd is (by decide)⟩
  refine ⟨fun _ => ⟨Nat.one_pos, compared⟩, fun s written => ⟨?_, fun _ _ => ?_⟩⟩
  · rw [NeighState.step] at written
    obtain ⟨old, _, rfl⟩ := Option.map_eq_some_iff.mp written
    rfl
  · exact ⟨trivial, fun _ _ => ⟨trivial, fun _ _ => ⟨trivial, fun _ _ => ⟨trivial, fun _ _ =>
      ⟨trivial, fun _ _ => ⟨trivial, fun _ _ => ⟨trivial, fun _ _ => trivial⟩⟩⟩⟩⟩⟩⟩

theorem neighUpdates_sound_deleted :
    ∃ s, runSteps step (updateLabels natEntry (.ip4 0xc0a80102) [.delete 0]) neighStart = some s ∧
      s.processed.length = 1 ∧ s.Sound := by
  have processed : ((runSteps step (updateLabels natEntry (.ip4 0xc0a80102) [.delete 0])
      neighStart).map fun s => s.processed.length) = some 1 := by decide +kernel
  obtain ⟨s, run, one⟩ := Option.map_eq_some_iff.mp processed
  exact ⟨s, run, one,
    neighUpdates_sound neighStart_fresh (reaches_of_runSteps updateLabels_orderly run)⟩

def snatDst : IpAddr := .ip6 fun i => if i = 3 then 1 else 0

theorem snatEntry_stale : Stale (movedNeighbour snatDst).event snatEntry := by
  refine ⟨congrArg (fun ip => some (IpAddr.ip6 ip)) (funext fun i => ?_), .inr (by decide)⟩
  revert i
  decide

/-- The addresses of an entry with a new source are not compared with its destination. -/
theorem snat_neighbour_kept :
    ¬∀ s s' : NeighState, s.Fresh → Reaches anyStep step s s' → s'.Sound := by
  intro always
  have kept : ((runSteps step (updateLabels snatEntry snatDst []) neighStart).bind
      fun s => s.processed.head?.bind fun queued => (s.h.foeEntry 0 0).map fun entry =>
        (s.h.ppeNum, s.since 0 0, queued, entry)) =
      some (1, 0, ⟨(movedNeighbour snatDst).event, 0⟩, snatEntry) := rfl
  obtain ⟨s, run, seen⟩ := Option.bind_eq_some_iff.mp kept
  obtain ⟨queued, first, seen⟩ := Option.bind_eq_some_iff.mp seen
  obtain ⟨entry, placed, seen⟩ := Option.map_eq_some_iff.mp seen
  simp only [Prod.mk.injEq] at seen
  obtain ⟨ppes, since, rfl, rfl⟩ := seen
  have sound := always neighStart s neighStart_fresh (reaches_of_runSteps allAllowed_anyStep run)
  exact sound.processed _ (List.mem_of_mem_head? first) 0 (by omega) 0 _ placed (by decide)
    (Nat.le_of_eq since) snatEntry_stale

/-- An event that comes between the locked section of the cleanup and the cancellation is left
in the queue without a work. -/
example : ((runSteps step [.netevent (movedNeighbour (.ip4 1)) 0 0 true, .cleanupLock,
    .netevent (movedNeighbour (.ip4 1)) 0 0 true, .cancelGrab, .cancelDone] neighStart).map
      fun s => (s.head.length, s.timer, match s.work with | .idle => true | _ => false)) =
    some (1, false, true) := by
  decide +kernel

end NeighState

end MetaFilogic.Hnat
