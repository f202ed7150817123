import MetaFilogic.Hnat.WifiTx
import MetaFilogic.Library.Steps

/-!
# Pending Wi-Fi flows

`skb_to_hnat_info` keeps the entry of a Wi-Fi flow in a list of its bucket, under
`flow_entry_lock`.  `mtk_sw_nat_hook_tx` looks the flow up there by the key of the entry in
the table, takes it out, and binds the entry later under `entry_lock`.  A work deletes what
nobody has taken.  The three run on several CPUs, and the PPE and others write the table
meanwhile.
-/

namespace MetaFilogic.Hnat

open Fields

/-! ## Keys -/

/-- The words after the first that `hnat_flow_entry_match` compares, by the type of the
stored entry. -/
def matchWords (entry : FoeEntry) : Option Nat :=
  if entry.isIpv4Grp || entry.isType IPV4_DSLITE || entry.isType IPV4_MAP_T ||
      entry.isType IPV4_MAP_E then some 3
  else if entry.isType IPV6_3T_ROUTE || entry.isType IPV6_5T_ROUTE || entry.isType IPV6_6RD ||
      entry.isType IPV6_HNAPT || entry.isType IPV6_HNAT then some 9
  else none

/-- Two entries agree in the words from the second to the one after `len`. -/
def SameWords (len : Nat) (entry entry' : FoeEntry) : Prop :=
  ∀ word : Fin 32, 1 ≤ word.val → word.val ≤ len → entry word = entry' word

instance (len : Nat) (entry entry' : FoeEntry) : Decidable (SameWords len entry entry') :=
  inferInstanceAs (Decidable (∀ _, _))

def hnatFlowEntryMatch (entry data : FoeEntry) : Bool :=
  Bfib1.udp.get entry == Bfib1.udp.get data &&
    match matchWords entry with
    | none => false
    | some len => decide (SameWords len entry data)

def keyWords (entry : FoeEntry) : Nat :=
  if entry.isType L2_BRIDGE then 5 else (matchWords entry).getD 0

def SameFlow (entry entry' : FoeEntry) : Prop :=
  Bfib1.pktType.get entry = Bfib1.pktType.get entry' ∧
    Bfib1.udp.get entry = Bfib1.udp.get entry' ∧ SameWords (keyWords entry) entry entry'

instance (entry entry' : FoeEntry) : Decidable (SameFlow entry entry') :=
  inferInstanceAs (Decidable (_ ∧ _ ∧ _))

variable {entry entry' : FoeEntry} {flow : FlowEntry} {head : List FlowEntry}

theorem isType_congr (same : Bfib1.pktType.get entry = Bfib1.pktType.get entry') (type : BitVec 5) :
    entry.isType type = entry'.isType type := by
  rw [FoeEntry.isType, FoeEntry.isType, same]

theorem matchWords_congr (same : Bfib1.pktType.get entry = Bfib1.pktType.get entry') :
    matchWords entry = matchWords entry' := by
  unfold matchWords FoeEntry.isIpv4Grp FoeEntry.isType
  rw [same]

theorem keyWords_congr (same : Bfib1.pktType.get entry = Bfib1.pktType.get entry') :
    keyWords entry = keyWords entry' := by
  rw [keyWords, keyWords, isType_congr same, matchWords_congr same]

theorem SameFlow.symm (same : SameFlow entry entry') : SameFlow entry' entry := by
  obtain ⟨type, udp, words⟩ := same
  refine ⟨type.symm, udp.symm, fun word low high => (words word low ?_).symm⟩
  rwa [keyWords_congr type]

/-! ## The lists -/

/-- The test of `hnat_flow_entry_search` on one flow entry. -/
def isFlowOf (ppeIndex hash : BitVec 16) (data : FoeEntry) (flow : FlowEntry) : Bool :=
  flow.ppeIndex == ppeIndex && flow.hash == hash && hnatFlowEntryMatch flow.data data

def hnatFlowEntrySearch (data : FoeEntry) (ppeIndex hash : BitVec 16) (head : List FlowEntry) :
    Option FlowEntry :=
  head.find? (isFlowOf ppeIndex hash data)

def overwriteFlow (flow : FlowEntry) : List FlowEntry → List FlowEntry
  | [] => []
  | old :: rest =>
    if isFlowOf flow.ppeIndex flow.hash flow.data old then
      { old with
        data := flow.data
        lastUpdate := flow.lastUpdate } :: rest
    else old :: overwriteFlow flow rest

/-- The locked section of `skb_to_hnat_info` on the list of the bucket. -/
def storeFlow (kmallocOk : Bool) (flow : FlowEntry) (head : List FlowEntry) : List FlowEntry :=
  match hnatFlowEntrySearch flow.data flow.ppeIndex flow.hash head with
  | some _ => overwriteFlow flow head
  | none => if kmallocOk then flow :: head else head

/-- `hnat_flow_entry_delete` of the flow entry the search finds. -/
def deleteFlow (data : FoeEntry) (ppeIndex hash : BitVec 16) (head : List FlowEntry) :
    List FlowEntry :=
  head.eraseP (isFlowOf ppeIndex hash data)

def FlowEntry.Same (flow flow' : FlowEntry) : Prop :=
  flow.hash = flow'.hash ∧ SameFlow flow.data flow'.data

instance (flow flow' : FlowEntry) : Decidable (flow.Same flow') :=
  inferInstanceAs (Decidable (_ ∧ _))

def NoTwoSame (head : List FlowEntry) : Prop := head.Pairwise fun flow flow' => ¬flow.Same flow'

instance (head : List FlowEntry) : Decidable (NoTwoSame head) :=
  inferInstanceAs (Decidable (List.Pairwise _ _))

theorem overwriteFlow_split {old : FlowEntry}
    (found : hnatFlowEntrySearch flow.data flow.ppeIndex flow.hash head = some old) :
    ∃ before after, head = before ++ old :: after ∧
      overwriteFlow flow head = before ++ flow :: after := by
  induction head with
  | nil => cases found
  | cons first rest ih =>
    rw [hnatFlowEntrySearch, List.find?_cons] at found
    rw [overwriteFlow]
    split at found
    · rename_i is
      obtain rfl := Option.some_inj.mp found
      simp only [isFlowOf, Bool.and_eq_true, beq_iff_eq] at is
      rw [if_pos (by simpa only [isFlowOf, Bool.and_eq_true, beq_iff_eq] using is)]
      obtain ⟨⟨ppe, hash⟩, _⟩ := is
      exact ⟨[], rest, rfl, by rw [ppe, hash]; rfl⟩
    · rename_i is
      obtain ⟨before, after, split, overwritten⟩ := ih found
      rw [if_neg (by simp [is])]
      exact ⟨first :: before, after, by rw [split]; rfl, by rw [overwritten]; rfl⟩

theorem mem_storeFlow {kmallocOk : Bool} {kept : FlowEntry}
    (member : kept ∈ storeFlow kmallocOk flow head) : kept ∈ head ∨ kept = flow := by
  rw [storeFlow] at member
  split at member
  · rename_i old found
    obtain ⟨before, after, rfl, overwritten⟩ := overwriteFlow_split found
    rw [overwritten] at member
    simp only [List.mem_append, List.mem_cons] at member ⊢
    tauto
  · split at member
    · exact (List.mem_cons.mp member).symm
    · exact .inl member

def FoundIfStored (data : FoeEntry) (ppeIndex hash : BitVec 16) (head : List FlowEntry) : Prop :=
  ∀ flow ∈ head, flow.hash = hash → SameFlow flow.data data →
    hnatFlowEntrySearch data ppeIndex hash head = some flow

theorem FlowEntry.Same.symm {flow' : FlowEntry} (same : flow.Same flow') : flow'.Same flow :=
  ⟨same.1.symm, same.2.symm⟩

theorem storeFlow_noTwoSame {kmallocOk : Bool} (distinct : NoTwoSame head)
    (found : FoundIfStored flow.data flow.ppeIndex flow.hash head) :
    NoTwoSame (storeFlow kmallocOk flow head) := by
  rw [storeFlow]
  split
  · rename_i old is
    obtain ⟨before, after, rfl, overwritten⟩ := overwriteFlow_split is
    rw [overwritten]
    have other {stored : FlowEntry} (member : stored ∈ before ++ old :: after)
        (apart : ¬stored.Same old) : ¬stored.Same flow := by
      intro same
      have only := found stored member same.1 same.2
      rw [is] at only
      obtain rfl := Option.some_inj.mp only
      exact apart ⟨rfl, rfl, rfl, fun _ _ _ => rfl⟩
    obtain ⟨first, rest, cross⟩ := List.pairwise_append.mp distinct
    obtain ⟨behind, last⟩ := List.pairwise_cons.mp rest
    refine List.pairwise_append.mpr ⟨first, List.pairwise_cons.mpr ⟨?_, last⟩, ?_⟩
    · intro stored member same
      exact other (by simp [member]) (fun again => behind stored member again.symm) same.symm
    · intro stored member other' member'
      rcases List.mem_cons.mp member' with rfl | inAfter
      · exact other (by simp [member]) (cross stored member old (by simp))
      · exact cross stored member other' (by simp [inAfter])
  · rename_i missing
    split
    · refine List.pairwise_cons.mpr ⟨fun stored member same => ?_, distinct⟩
      have only := found stored member same.1.symm same.2.symm
      rw [missing] at only
      cases only
    · exact distinct

/-! ## Steps -/

/-- A call of `skb_to_hnat_info` for a Wi-Fi device, with the entry it has read. -/
structure PrepareCall where
  settings : HnatSettings
  desc : HnatDesc
  pkt : Packet
  dev : OutDev
  path : HwPath
  qos : QosChoice
  xfrm : Bool
  foe : FoeEntry

def PrepareCall.prepared (call : PrepareCall) : Prepared :=
  prepareEntry call.settings call.desc call.pkt call.dev call.path call.qos call.xfrm call.foe

/-- A flow entry that has been put into a list, when, and the packet type of the entry it was
prepared from. -/
structure Preparation where
  flow : FlowEntry
  time : Nat
  type : BitVec 5

/-- A call of `mtk_sw_nat_hook_tx` that has taken a flow, when, and the entry it has seen in
the table. -/
structure TxCall where
  settings : HnatSettings
  pkt : WifiPacket
  flow : FlowEntry
  taken : Nat
  seen : FoeEntry

/-- A flow that a call of `mtk_sw_nat_hook_tx` has bound, where, when, and the entry it has
replaced. -/
structure Binding where
  ppeIndex : Nat
  index : Nat
  flow : FlowEntry
  time : Nat
  replaced : FoeEntry

/-- The tables, the time in jiffies, the calls of `mtk_sw_nat_hook_tx` between their two
locks, and what has been prepared and bound so far. -/
structure WifiState where
  h : MtkHnat
  now : Nat
  calls : List TxCall
  prepared : List Preparation
  bindings : List Binding

namespace MtkHnat

variable (h : MtkHnat)

/-- `foe_flow[ppe_index][bucket]`. -/
def flowHead (ppeIndex bucket : Nat) : Option (List FlowEntry) :=
  (h.foeFlow ppeIndex).bind fun heads => heads[bucket]?

def setFlowHead (ppeIndex bucket : Nat) (head : List FlowEntry) : MtkHnat :=
  { h with
    foeFlow := Function.update h.foeFlow ppeIndex
      ((h.foeFlow ppeIndex).map fun heads => heads.set bucket head) }

end MtkHnat

def timeAfterEq (a b : BitVec 64) : Bool := !timeAfter b a

/-- A step of one of the parties.  `write` is a write of the PPE or of other code; a call of
`skb_to_hnat_info` has found the entry unbound at some time before its step. -/
inductive WifiLabel where
  | tick (jiffies : Nat)
  | write (ppeIndex index : Nat) (entry : FoeEntry)
  | prepare (call : PrepareCall) (kmallocOk : Bool)
  | take (settings : HnatSettings) (pkt : WifiPacket)
  | commit (call : Nat) (stamp : BitVec 8)
  | teardown

namespace WifiState

variable (hz : Nat) (s : WifiState)

def jiffies : BitVec 64 := BitVec.ofNat 64 s.now

/-- The flow entry a call of `skb_to_hnat_info` makes. -/
def newFlow (desc : HnatDesc) (data : FoeEntry) : FlowEntry where
  data := data
  lastUpdate := s.jiffies
  ppeIndex := BitVec.ofNat 16 (desc.ppe s.h.ppeNum)
  hash := desc.entry.setWidth 16

/-- The locked section of `skb_to_hnat_info` for a Wi-Fi device. -/
def prepare (call : PrepareCall) (kmallocOk : Bool) : Option WifiState :=
  let ppe := call.desc.ppe s.h.ppeNum
  let bucket := call.desc.entry.toNat / 4
  if call.dev.whnat = false ∨ call.desc.entry.toNat ≥ s.h.foeEtryNum ∨ ppe ≥ s.h.ppeNum then none
  else
    match call.prepared, s.h.flowHead ppe bucket with
    | .filled data, some head =>
      let flow := s.newFlow call.desc data
      let stored := kmallocOk || (hnatFlowEntrySearch data flow.ppeIndex flow.hash head).isSome
      some { s with
        h := s.h.setFlowHead ppe bucket (storeFlow kmallocOk flow head)
        prepared :=
          if stored then ⟨flow, s.now, Bfib1.pktType.get call.foe⟩ :: s.prepared
          else s.prepared }
    | _, _ => none

/-- `mtk_sw_nat_hook_tx` up to the end of its first locked section. -/
def take (settings : HnatSettings) (pkt : WifiPacket) : Option WifiState :=
  let ppe := pkt.desc.ppe s.h.ppeNum
  let index := pkt.desc.entry.toNat
  if !pkt.accepted s.h then some s
  else
    match s.h.foeEntry ppe index, s.h.flowHead ppe (index / 4) with
    | some hwEntry, some head =>
      let ppeIndex := BitVec.ofNat 16 ppe
      let hash := pkt.desc.entry.setWidth 16
      match hnatFlowEntrySearch hwEntry ppeIndex hash head with
      | none => some s
      | some flow =>
        let s' := { s with
          h := s.h.setFlowHead ppe (index / 4) (deleteFlow hwEntry ppeIndex hash head) }
        if Bfib1.state.get hwEntry ≠ UNBIND ∨
            timeAfterEq s.jiffies (flow.lastUpdate + BitVec.ofNat 64 (3 * hz)) = true then some s'
        else some { s' with calls := s.calls ++ [⟨settings, pkt, flow, s.now, hwEntry⟩] }
    | _, _ => none

/-- The rest of a call of `mtk_sw_nat_hook_tx`. -/
def commit (number : Nat) (stamp : BitVec 8) : Option WifiState :=
  match s.calls[number]? with
  | none => none
  | some call =>
    let s' := { s with calls := s.calls.eraseIdx number }
    let ppe := call.pkt.desc.ppe s.h.ppeNum
    let index := call.pkt.desc.entry.toNat
    match wifiFill call.settings call.pkt call.flow.data with
    | none => some s'
    | some entry =>
      match s.h.foeEntry ppe index with
      | none => none
      | some hwEntry =>
        if Bfib1.state.get hwEntry ≠ UNBIND then some s'
        else some { s' with
          h := s.h.setFoeEntry ppe index (hnatFoeEntryCommit stamp BIND entry)
          bindings := ⟨ppe, index, call.flow, s.now, hwEntry⟩ :: s.bindings }

def step : WifiLabel → Option WifiState
  | .tick jiffies => some { s with now := s.now + jiffies }
  | .write ppeIndex index entry => some { s with h := s.h.setFoeEntry ppeIndex index entry }
  | .prepare call kmallocOk => s.prepare call kmallocOk
  | .take settings pkt => s.take hz settings pkt
  | .commit call stamp => s.commit call stamp
  | .teardown =>
    (hnatFlowEntryTeardownHandler hz s.jiffies s.h.ppeNum s.h).map fun h => { s with h }

structure Fresh : Prop where
  empty : ∀ ppe bucket head, s.h.flowHead ppe bucket = some head → head = []
  calls : s.calls = []
  prepared : s.prepared = []
  bindings : s.bindings = []

/-! ## Properties -/

/-- Each list has flow entries of its PPE and bucket only, and no two for one flow. -/
structure StoreOk (h : MtkHnat) : Prop where
  placed : ∀ ppe bucket head, h.flowHead ppe bucket = some head → ∀ flow ∈ head,
    flow.ppeIndex.toNat = ppe ∧ flow.hash.toNat / 4 = bucket
  distinct : ∀ ppe bucket head, h.flowHead ppe bucket = some head → NoTwoSame head

/-- A flow that was bound had been prepared for its place less than three seconds before,
for a flow with the packet type and the key of the entry it has replaced. -/
def BindingOk (binding : Binding) : Prop :=
  binding.flow.ppeIndex.toNat = binding.ppeIndex ∧ binding.flow.hash.toNat = binding.index ∧
    ∃ preparation ∈ s.prepared, preparation.flow = binding.flow ∧
      binding.time < preparation.time + 3 * hz ∧
      preparation.type = Bfib1.pktType.get binding.replaced ∧
      Bfib1.udp.get binding.flow.data = Bfib1.udp.get binding.replaced ∧
      SameWords (keyWords binding.replaced) binding.flow.data binding.replaced

/-- What a step needs.  A flow that is stored already is the one the search finds; a flow
that is found was prepared for the packet type of the entry in the table; and until the
flow is bound, its entry is not learnt for another flow and its three seconds do not run
out, unless they have been looked at in the same jiffy. -/
def Orderly : WifiLabel → Prop
  | .prepare call _ => ∀ data head, call.prepared = .filled data →
      s.h.flowHead (call.desc.ppe s.h.ppeNum) (call.desc.entry.toNat / 4) = some head →
      FoundIfStored data (BitVec.ofNat 16 (call.desc.ppe s.h.ppeNum))
        (call.desc.entry.setWidth 16) head
  | .take _ pkt => s.now < 2 ^ 63 ∧ ∀ hwEntry head flow,
      s.h.foeEntry (pkt.desc.ppe s.h.ppeNum) pkt.desc.entry.toNat = some hwEntry →
      s.h.flowHead (pkt.desc.ppe s.h.ppeNum) (pkt.desc.entry.toNat / 4) = some head →
      hnatFlowEntrySearch hwEntry (BitVec.ofNat 16 (pkt.desc.ppe s.h.ppeNum))
        (pkt.desc.entry.setWidth 16) head = some flow →
      ∀ preparation ∈ s.prepared, preparation.flow = flow →
        preparation.type = Bfib1.pktType.get hwEntry
  | .commit number _ => ∀ call hwEntry, s.calls[number]? = some call →
      s.h.foeEntry (call.pkt.desc.ppe s.h.ppeNum) call.pkt.desc.entry.toNat = some hwEntry →
      SameFlow call.seen hwEntry ∧
        (s.now = call.taken ∨ s.now < call.flow.lastUpdate.toNat + 3 * hz)
  | _ => True

/-! ## What the steps keep -/

section Kept

variable {h h' : MtkHnat}

theorem flowHead_setFlowHead {ppe bucket ppe' bucket' : Nat} {head head' : List FlowEntry}
    (found : (h.setFlowHead ppe bucket head).flowHead ppe' bucket' = some head') :
    h.flowHead ppe' bucket' = some head' ∨ (ppe' = ppe ∧ bucket' = bucket ∧ head' = head) := by
  obtain ⟨heads, table, cell⟩ := Option.bind_eq_some_iff.mp found
  by_cases here : ppe' = ppe
  · subst here
    simp only [MtkHnat.setFlowHead, Function.update_self] at table
    obtain ⟨old, before, rfl⟩ := Option.map_eq_some_iff.mp table
    rw [List.getElem?_set] at cell
    split at cell
    · rename_i same
      split at cell
      · exact .inr ⟨rfl, same.symm, (Option.some_inj.mp cell).symm⟩
      · cases cell
    · exact .inl (Option.bind_eq_some_iff.mpr ⟨old, before, cell⟩)
  · simp only [MtkHnat.setFlowHead, Function.update_of_ne here] at table
    exact .inl (Option.bind_eq_some_iff.mpr ⟨heads, table, cell⟩)

/-- A step that only takes flow entries out of the lists. -/
def Shrinks (h h' : MtkHnat) : Prop :=
  ∀ ppe bucket head', h'.flowHead ppe bucket = some head' →
    ∃ head, h.flowHead ppe bucket = some head ∧ head'.Sublist head

theorem Shrinks.refl (h : MtkHnat) : Shrinks h h :=
  fun _ _ head' found => ⟨head', found, List.Sublist.refl _⟩

theorem shrinks_delete {ppe bucket : Nat} {head : List FlowEntry} {data : FoeEntry}
    {ppeIndex hash : BitVec 16} (here : h.flowHead ppe bucket = some head) :
    Shrinks h (h.setFlowHead ppe bucket (deleteFlow data ppeIndex hash head)) := by
  intro ppe' bucket' head' found
  rcases flowHead_setFlowHead found with other | ⟨rfl, rfl, rfl⟩
  · exact ⟨head', other, List.Sublist.refl _⟩
  · exact ⟨head, here, List.eraseP_sublist⟩

theorem shrinks_teardown {hz ppes : Nat} {jiffies : BitVec 64}
    (done : hnatFlowEntryTeardownHandler hz jiffies ppes h = some h') : Shrinks h h' := by
  intro ppe bucket head' found
  induction ppes generalizing h' head' with
  | zero =>
    obtain rfl := Option.some_inj.mp done
    exact ⟨head', found, List.Sublist.refl _⟩
  | succ ppes ih =>
    rw [hnatFlowEntryTeardownHandler] at done
    split at done
    · cases done
    · rename_i before earlier
      split at done
      · cases done
      · rename_i heads table
        split at done
        · cases done
        · rename_i rewritten heads' run
          obtain rfl := Option.some_inj.mp done
          obtain ⟨heads'', table', cell⟩ := Option.bind_eq_some_iff.mp found
          by_cases here : ppe = ppes
          · subst here
            simp only [Function.update_self, Option.some.injEq] at table'
            subst table'
            rw [walk_some run, walked, List.getElem?_mapIdx] at cell
            obtain ⟨head, old, rfl⟩ := Option.map_eq_some_iff.mp cell
            obtain ⟨head₀, before', sub⟩ := ih earlier head
              (Option.bind_eq_some_iff.mpr ⟨heads, table, old⟩)
            refine ⟨head₀, before', .trans ?_ sub⟩
            split
            · exact List.filter_sublist
            · exact List.Sublist.refl _
          · simp only [Function.update_of_ne here] at table'
            exact ih earlier head' (Option.bind_eq_some_iff.mpr ⟨heads'', table', cell⟩)

theorem teardown_ppeNum {hz ppes : Nat} {jiffies : BitVec 64}
    (done : hnatFlowEntryTeardownHandler hz jiffies ppes h = some h') : h'.ppeNum = h.ppeNum := by
  induction ppes generalizing h' with
  | zero =>
    obtain rfl := Option.some_inj.mp done
    rfl
  | succ ppes ih =>
    rw [hnatFlowEntryTeardownHandler] at done
    split at done
    · cases done
    · rename_i before earlier
      split at done
      · cases done
      · split at done
        · cases done
        · obtain rfl := Option.some_inj.mp done
          have kept : before.ppeNum = h.ppeNum := ih earlier
          exact kept

theorem StoreOk.shrink (ok : StoreOk h) (shrinks : Shrinks h h') : StoreOk h' where
  placed ppe bucket head' found flow member := by
    obtain ⟨head, before, sub⟩ := shrinks ppe bucket head' found
    exact ok.placed ppe bucket head before flow (sub.mem member)
  distinct ppe bucket head' found := by
    obtain ⟨head, before, sub⟩ := shrinks ppe bucket head' found
    exact (ok.distinct ppe bucket head before).sublist sub

end Kept

/-! ## The invariant -/

/-- A pending call has a flow of its place, taken in time, that matched the entry it saw. -/
def CallOk (hz : Nat) (s : WifiState) (call : TxCall) : Prop :=
  call.flow.ppeIndex.toNat = call.pkt.desc.ppe s.h.ppeNum ∧
    call.flow.hash.toNat = call.pkt.desc.entry.toNat ∧
    hnatFlowEntryMatch call.flow.data call.seen = true ∧
    ∃ preparation ∈ s.prepared, preparation.flow = call.flow ∧
      preparation.type = Bfib1.pktType.get call.seen ∧ call.taken < preparation.time + 3 * hz

/-- The time stamp of a preparation is its own, and its entry has the packet type it was
prepared from, or the translated one. -/
def DatedOk (s : WifiState) (preparation : Preparation) : Prop :=
  preparation.flow.lastUpdate = BitVec.ofNat 64 preparation.time ∧ preparation.time ≤ s.now ∧
    (Bfib1.pktType.get preparation.flow.data = preparation.type ∨
      (preparation.type = IPV6_5T_ROUTE ∧
        Bfib1.pktType.get preparation.flow.data = IPV6_HNAPT))

structure Inv (hz : Nat) (s : WifiState) : Prop where
  store : StoreOk s.h
  origins : ∀ ppe bucket head, s.h.flowHead ppe bucket = some head → ∀ flow ∈ head,
    ∃ preparation ∈ s.prepared, preparation.flow = flow
  dated : ∀ preparation ∈ s.prepared, DatedOk s preparation
  calls : ∀ call ∈ s.calls, CallOk hz s call
  bindings : ∀ binding ∈ s.bindings, BindingOk hz s binding

section Steps

variable {hz : Nat} {s s' : WifiState}

theorem CallOk.mono {call : TxCall} (ok : CallOk hz s call) (ppes : s'.h.ppeNum = s.h.ppeNum)
    (grows : s.prepared ⊆ s'.prepared) : CallOk hz s' call := by
  obtain ⟨ppe, index, matches', preparation, member, facts⟩ := ok
  exact ⟨ppes ▸ ppe, index, matches', preparation, grows member, facts⟩

theorem BindingOk.mono {binding : Binding} (ok : BindingOk hz s binding)
    (grows : s.prepared ⊆ s'.prepared) : BindingOk hz s' binding := by
  obtain ⟨ppe, index, preparation, member, facts⟩ := ok
  exact ⟨ppe, index, preparation, grows member, facts⟩

theorem Inv.fresh (fresh : s.Fresh) : Inv hz s where
  store :=
    { placed := fun ppe bucket head found flow member => by
        rw [fresh.empty ppe bucket head found] at member
        cases member
      distinct := fun ppe bucket head found => by
        rw [fresh.empty ppe bucket head found]
        exact List.Pairwise.nil }
  origins ppe bucket head found flow member := by
    rw [fresh.empty ppe bucket head found] at member
    cases member
  dated preparation member := by
    rw [fresh.prepared] at member
    cases member
  calls call member := by
    rw [fresh.calls] at member
    cases member
  bindings binding member := by
    rw [fresh.bindings] at member
    cases member

theorem Inv.less (inv : Inv hz s) (shrinks : Shrinks s.h s'.h) (ppes : s'.h.ppeNum = s.h.ppeNum)
    (later : s.now ≤ s'.now) (prepared : s'.prepared = s.prepared)
    (calls : ∀ call ∈ s'.calls, call ∈ s.calls ∨ CallOk hz s call)
    (bindings : ∀ binding ∈ s'.bindings, binding ∈ s.bindings ∨ BindingOk hz s binding) :
    Inv hz s' where
  store := inv.store.shrink shrinks
  origins ppe bucket head' found flow member := by
    obtain ⟨head, before, sub⟩ := shrinks ppe bucket head' found
    rw [prepared]
    exact inv.origins ppe bucket head before flow (sub.mem member)
  dated preparation member := by
    rw [prepared] at member
    obtain ⟨stamp, past, type⟩ := inv.dated preparation member
    exact ⟨stamp, past.trans later, type⟩
  calls call member := by
    have ok : CallOk hz s call := (calls call member).elim (inv.calls call) id
    exact ok.mono ppes (by rw [prepared]; exact List.Subset.refl _)
  bindings binding member := by
    have ok : BindingOk hz s binding := (bindings binding member).elim (inv.bindings binding) id
    exact ok.mono (by rw [prepared]; exact List.Subset.refl _)

theorem ppe_le (desc : HnatDesc) (ppeNum : Nat) : desc.ppe ppeNum ≤ 2 := by
  rw [HnatDesc.ppe]
  split_ifs <;> omega

theorem toNat_ppe (desc : HnatDesc) (ppeNum : Nat) :
    (BitVec.ofNat 16 (desc.ppe ppeNum)).toNat = desc.ppe ppeNum := by
  have small := ppe_le desc ppeNum
  rw [BitVec.toNat_ofNat]
  omega

theorem toNat_hash (desc : HnatDesc) : (desc.entry.setWidth 16).toNat = desc.entry.toNat := by
  have small := desc.entry.isLt
  rw [BitVec.toNat_setWidth]
  omega

theorem mem_storeFlow_stored {kmallocOk : Bool} {flow kept : FlowEntry} {head : List FlowEntry}
    (refused : (kmallocOk ||
      (hnatFlowEntrySearch flow.data flow.ppeIndex flow.hash head).isSome) = false)
    (member : kept ∈ storeFlow kmallocOk flow head) : kept ∈ head := by
  rw [Bool.or_eq_false_iff, Option.isSome_eq_false_iff, Option.isNone_iff_eq_none] at refused
  rw [storeFlow, refused.2, refused.1] at member
  exact member

theorem Inv.setFlowHead {ppe bucket : Nat} {head : List FlowEntry} {prepared : List Preparation}
    (inv : Inv hz s) (grows : s.prepared ⊆ prepared)
    (members : ∀ flow ∈ head, (∃ before, s.h.flowHead ppe bucket = some before ∧ flow ∈ before) ∨
      (flow.ppeIndex.toNat = ppe ∧ flow.hash.toNat / 4 = bucket ∧
        ∃ preparation ∈ prepared, preparation.flow = flow))
    (distinct : NoTwoSame head) (dated : ∀ preparation ∈ prepared, DatedOk s preparation) :
    Inv hz { s with h := s.h.setFlowHead ppe bucket head, prepared } where
  store :=
    { placed := fun ppe' bucket' head' found flow member => by
        rcases flowHead_setFlowHead found with other | ⟨rfl, rfl, rfl⟩
        · exact inv.store.placed ppe' bucket' head' other flow member
        · rcases members flow member with ⟨before, here, old⟩ | ⟨ppe, hash, _⟩
          · exact inv.store.placed _ _ before here flow old
          · exact ⟨ppe, hash⟩
      distinct := fun ppe' bucket' head' found => by
        rcases flowHead_setFlowHead found with other | ⟨rfl, rfl, rfl⟩
        · exact inv.store.distinct ppe' bucket' head' other
        · exact distinct }
  origins ppe' bucket' head' found flow member := by
    have older {head : List FlowEntry} (here : s.h.flowHead ppe' bucket' = some head)
        (old : flow ∈ head) : ∃ preparation ∈ prepared, preparation.flow = flow := by
      obtain ⟨preparation, known, made⟩ := inv.origins ppe' bucket' head here flow old
      exact ⟨preparation, grows known, made⟩
    rcases flowHead_setFlowHead found with other | ⟨rfl, rfl, rfl⟩
    · exact older other member
    · rcases members flow member with ⟨before, here, old⟩ | ⟨_, _, made⟩
      · exact older here old
      · exact made
  dated := dated
  calls call member := (inv.calls call member).mono rfl grows
  bindings binding member := (inv.bindings binding member).mono grows

theorem Inv.prepare {call : PrepareCall} {kmallocOk : Bool} (inv : Inv hz s)
    (orderly : Orderly hz s (.prepare call kmallocOk))
    (stepped : s.prepare call kmallocOk = some s') : Inv hz s' := by
  rw [WifiState.prepare] at stepped
  split at stepped
  · cases stepped
  · split at stepped
    · rename_i data head made here
      obtain rfl := Option.some_inj.mp stepped
      have found := orderly data head made here
      have distinct : NoTwoSame (storeFlow kmallocOk (s.newFlow call.desc data) head) :=
        storeFlow_noTwoSame (inv.store.distinct _ _ head here) found
      split
      · refine inv.setFlowHead (List.subset_cons_self ..) (fun flow member => ?_) distinct ?_
        · rcases mem_storeFlow member with old | rfl
          · exact .inl ⟨head, here, old⟩
          · exact .inr ⟨toNat_ppe .., by rw [WifiState.newFlow, toNat_hash],
              _, List.mem_cons_self, rfl⟩
        · intro preparation member
          rcases List.mem_cons.mp member with rfl | known
          · exact ⟨rfl, Nat.le_refl _, prepareEntry_type made⟩
          · exact inv.dated preparation known
      · rename_i refused
        refine inv.setFlowHead (List.Subset.refl _) (fun flow member => ?_) distinct inv.dated
        exact .inl ⟨head, here, mem_storeFlow_stored (Bool.eq_false_iff.mpr refused) member⟩
    · cases stepped

theorem prepared_recently {now time : Nat} (early : now < 2 ^ 63) (past : time ≤ now)
    (fresh : timeAfterEq (BitVec.ofNat 64 now)
      (BitVec.ofNat 64 time + BitVec.ofNat 64 (3 * hz)) ≠ true) : now < time + 3 * hz := by
  by_contra late
  have elapsed : BitVec.ofNat 64 now - (BitVec.ofNat 64 time + BitVec.ofNat 64 (3 * hz)) =
      BitVec.ofNat 64 (now - (time + 3 * hz)) := by
    rw [← BitVec.ofNat_add, BitVec.sub_eq_iff_eq_add, ← BitVec.ofNat_add]
    congr 1
    omega
  refine fresh ?_
  rw [timeAfterEq, timeAfter, elapsed, Bool.not_eq_true', show (0 : BitVec 64) = 0#64 from rfl,
    BitVec.slt_zero_eq_msb]
  refine BitVec.msb_eq_false_iff_two_mul_lt.mpr ?_
  rw [BitVec.toNat_ofNat]
  omega

theorem Inv.take {settings : HnatSettings} {pkt : WifiPacket} (inv : Inv hz s)
    (orderly : Orderly hz s (.take settings pkt))
    (stepped : s.take hz settings pkt = some s') : Inv hz s' := by
  obtain ⟨early, sameType⟩ := orderly
  rw [WifiState.take] at stepped
  split at stepped
  · obtain rfl := Option.some_inj.mp stepped
    exact inv
  · split at stepped
    · rename_i hwEntry head placed here
      dsimp only at stepped
      split at stepped
      · obtain rfl := Option.some_inj.mp stepped
        exact inv
      · rename_i flow found
        obtain ⟨h', after, shrinks, ppes⟩ : ∃ h', s.h.setFlowHead (pkt.desc.ppe s.h.ppeNum)
            (pkt.desc.entry.toNat / 4) (deleteFlow hwEntry
              (BitVec.ofNat 16 (pkt.desc.ppe s.h.ppeNum)) (pkt.desc.entry.setWidth 16) head) = h' ∧
            Shrinks s.h h' ∧ h'.ppeNum = s.h.ppeNum := ⟨_, rfl, shrinks_delete here, rfl⟩
        rw [after] at stepped
        split at stepped
        · obtain rfl := Option.some_inj.mp stepped
          exact inv.less shrinks ppes (Nat.le_refl _) rfl (fun _ => .inl) fun _ => .inl
        · rename_i usable
          obtain rfl := Option.some_inj.mp stepped
          refine inv.less shrinks ppes (Nat.le_refl _) rfl (fun call member => ?_) fun _ => .inl
          rcases List.mem_append.mp member with old | new
          · exact .inl old
          · obtain rfl := List.mem_singleton.mp new
            have is := List.find?_some found
            simp only [isFlowOf, Bool.and_eq_true, beq_iff_eq] at is
            obtain ⟨⟨ppe, hash⟩, matches'⟩ := is
            obtain ⟨preparation, known, made⟩ :=
              inv.origins _ _ head here flow (List.mem_of_find?_eq_some found)
            obtain ⟨stamp, past, _⟩ := inv.dated preparation known
            refine .inr ⟨by rw [ppe, toNat_ppe], by rw [hash, toNat_hash], matches', preparation,
              known, made, sameType hwEntry head flow placed here found preparation known made, ?_⟩
            refine prepared_recently early past fun late => usable (.inr ?_)
            rw [← made, stamp]
            exact late
    · cases stepped

theorem key_of_match {data seen : FoeEntry} {type : BitVec 5}
    (typed : Bfib1.pktType.get data = type ∨
      (type = IPV6_5T_ROUTE ∧ Bfib1.pktType.get data = IPV6_HNAPT))
    (sameType : type = Bfib1.pktType.get seen) (is : hnatFlowEntryMatch data seen = true) :
    Bfib1.udp.get data = Bfib1.udp.get seen ∧ SameWords (keyWords seen) data seen := by
  rw [hnatFlowEntryMatch, Bool.and_eq_true, beq_iff_eq] at is
  obtain ⟨udp, words⟩ := is
  split at words
  · cases words
  · rename_i len compared
    have same : SameWords len data seen := of_decide_eq_true words
    have all : keyWords seen = len := by
      subst sameType
      rcases typed with type | ⟨route, nat⟩
      · rw [matchWords_congr type] at compared
        have bridge : seen.isType L2_BRIDGE = false := by
          by_contra is
          have bridge : Bfib1.pktType.get seen = L2_BRIDGE := by
            rwa [Bool.not_eq_false, FoeEntry.isType, beq_iff_eq] at is
          unfold matchWords FoeEntry.isIpv4Grp FoeEntry.isType at compared
          rw [bridge] at compared
          cases compared
        rw [keyWords, bridge, compared]
        rfl
      · have nine : matchWords data = some 9 := by
          unfold matchWords FoeEntry.isIpv4Grp FoeEntry.isType
          rw [nat]
          rfl
        have route' : keyWords seen = 9 := by
          unfold keyWords matchWords FoeEntry.isIpv4Grp FoeEntry.isType
          rw [route]
          rfl
        rw [nine] at compared
        rw [route']
        exact Option.some_inj.mp compared
    rw [all]
    exact ⟨udp, same⟩

theorem Inv.commit {number : Nat} {stamp : BitVec 8} (inv : Inv hz s)
    (orderly : Orderly hz s (.commit number stamp))
    (stepped : s.commit number stamp = some s') : Inv hz s' := by
  rw [WifiState.commit] at stepped
  split at stepped
  · cases stepped
  · rename_i call pending
    have fewer : ∀ other ∈ s.calls.eraseIdx number, other ∈ s.calls ∨ CallOk hz s other :=
      fun other member => .inl (List.mem_of_mem_eraseIdx member)
    dsimp only at stepped
    split at stepped
    · obtain rfl := Option.some_inj.mp stepped
      exact inv.less (.refl _) rfl (Nat.le_refl _) rfl fewer fun _ => .inl
    · split at stepped
      · cases stepped
      · rename_i entry filled hwEntry placed
        split at stepped
        · obtain rfl := Option.some_inj.mp stepped
          exact inv.less (.refl _) rfl (Nat.le_refl _) rfl fewer fun _ => .inl
        · obtain rfl := Option.some_inj.mp stepped
          obtain ⟨⟨sameType, sameUdp, sameKey⟩, inTime⟩ := orderly call hwEntry pending placed
          refine inv.less (.refl _) rfl (Nat.le_refl _) rfl fewer fun binding member => ?_
          rcases List.mem_cons.mp member with rfl | old
          · obtain ⟨ppe, hash, matches', preparation, known, made, type, recent⟩ :=
              inv.calls call (List.mem_of_getElem? pending)
            obtain ⟨stampOf, past, typed⟩ := inv.dated preparation known
            rw [made] at stampOf typed
            obtain ⟨udp, words⟩ := key_of_match typed type matches'
            refine .inr ⟨ppe, hash, preparation, known, made, ?_, type.trans sameType,
              udp.trans sameUdp, fun word low high => ?_⟩
            · rcases inTime with atOnce | rest
              · rw [atOnce]
                exact recent
              · rw [stampOf, BitVec.toNat_ofNat] at rest
                have wrapped := Nat.mod_le preparation.time (2 ^ 64)
                exact Nat.lt_of_lt_of_le rest (Nat.add_le_add_right wrapped _)
            · rw [← keyWords_congr sameType] at high
              exact (words word low high).trans (sameKey word low high)
          · exact .inl old

theorem Inv.step {label : WifiLabel} (inv : Inv hz s) (orderly : Orderly hz s label)
    (stepped : s.step hz label = some s') : Inv hz s' := by
  cases label with
  | tick jiffies =>
    obtain rfl := Option.some_inj.mp stepped
    exact inv.less (.refl _) rfl (Nat.le_add_right ..) rfl (fun _ => .inl) fun _ => .inl
  | write ppeIndex index entry =>
    obtain rfl := Option.some_inj.mp stepped
    exact inv.less (.refl _) rfl (Nat.le_refl _) rfl (fun _ => .inl) fun _ => .inl
  | prepare call kmallocOk => exact inv.prepare orderly stepped
  | take settings pkt => exact inv.take orderly stepped
  | commit number stamp => exact inv.commit orderly stepped
  | teardown =>
    obtain ⟨h, done, rfl⟩ := Option.map_eq_some_iff.mp stepped
    exact inv.less (shrinks_teardown done) (teardown_ppeNum done) (Nat.le_refl _) rfl
      (fun _ => .inl) fun _ => .inl

end Steps

/-- In a run of orderly steps each list has flow entries of its place only, no two for one
flow, and what is bound was prepared for its flow less than three seconds before. -/
theorem wifiFlows_sound {hz : Nat} {s s' : WifiState} (fresh : s.Fresh)
    (run : Reaches (Orderly hz) (step hz) s s') :
    StoreOk s'.h ∧ ∀ binding ∈ s'.bindings, BindingOk hz s' binding := by
  have inv : Inv hz s' :=
    Reaches.invariant (fun _ _ _ inv orderly stepped => inv.step orderly stepped) (.fresh fresh) run
  exact ⟨inv.store, inv.bindings⟩

/-! ## Runs -/

def wifiDev : OutDev := { extDev 5 with whnat := true }

def learntTable (type : BitVec 5) : MtkHnat where
  ppeNum := 1
  foeEtryNum := 16
  etryNumCfg := 0
  foeTableCpu _ := some (List.replicate 16 (learntEntry type))
  foeFlow _ := some (List.replicate 4 [])
  tbEtryNum _ := 0

def wifiStart (type : BitVec 5) : WifiState := ⟨learntTable type, 0, [], [], []⟩

theorem wifiStart_fresh (type : BitVec 5) : (wifiStart type).Fresh where
  empty ppe bucket head found := by
    obtain ⟨heads, table, cell⟩ := Option.bind_eq_some_iff.mp found
    obtain rfl := Option.some_inj.mp table
    exact List.eq_of_mem_replicate (List.mem_of_getElem? cell)
  calls := rfl
  prepared := rfl
  bindings := rfl

def sessionPacket : Packet :=
  { tcpPacket with
    ethProto := ETH_P_PPP_SES
    protocol := ETH_P_PPP_SES }

def wifiCall (pkt : Packet) (type : BitVec 5) : PrepareCall :=
  ⟨plainSettings, ppdDesc, pkt, wifiDev, plainPath, noQos, false, learntEntry type⟩

def wifiPacket : WifiPacket where
  desc :=
    { ppdDesc with
      filled := HNAT_INFO_FILLED
      crsn := HIT_UNBIND_RATE_REACH
      magicTagProtect := HNAT_MAGIC_TAG }
  port := 8
  headroom := true
  macHeaderSet := true
  ethDest := 0x020000000001
  ethSource := 0x020000000002
  tag := none
  innerTags := []

def bindLabels : List WifiLabel :=
  [.prepare (wifiCall tcpPacket IPV4_HNAPT) true, .take plainSettings wifiPacket, .commit 0 0]

theorem bindLabels_orderly :
    AllAllowed (Orderly 100) (step 100) bindLabels (wifiStart IPV4_HNAPT) := by
  refine ⟨fun data head _ here flow member => ?_, fun s prepared => ⟨⟨?_, ?_⟩, fun s' taken =>
    ⟨?_, fun _ _ => trivial⟩⟩⟩
  · rw [(wifiStart_fresh _).empty _ _ _ here] at member
    cases member
  · have start : ((step 100 (wifiStart IPV4_HNAPT) (.prepare (wifiCall tcpPacket IPV4_HNAPT)
        true)).map now) = some 0 := by decide +kernel
    rw [prepared, Option.map_some] at start
    rw [Option.some_inj.mp start]
    decide
  · intro hwEntry head flow placed _ _ preparation known _
    have types : ((step 100 (wifiStart IPV4_HNAPT) (.prepare (wifiCall tcpPacket IPV4_HNAPT)
        true)).bind fun s =>
          (s.h.foeEntry (wifiPacket.desc.ppe s.h.ppeNum) wifiPacket.desc.entry.toNat).map
            fun hwEntry => s.prepared.all
              fun preparation => preparation.type == Bfib1.pktType.get hwEntry) = some true := by
      decide +kernel
    rw [prepared, Option.bind_some, placed] at types
    exact eq_of_beq (List.all_eq_true.mp (Option.some_inj.mp types) preparation known)
  · intro call hwEntry pending placed
    have same : (((step 100 (wifiStart IPV4_HNAPT) (.prepare (wifiCall tcpPacket IPV4_HNAPT)
        true)).bind (step 100 · (.take plainSettings wifiPacket))).bind fun s =>
          s.calls[0]?.bind fun call =>
            (s.h.foeEntry (call.pkt.desc.ppe s.h.ppeNum) call.pkt.desc.entry.toNat).map
              fun hwEntry => decide (SameFlow call.seen hwEntry ∧ s.now = call.taken)) =
        some true := by
      decide +kernel
    rw [prepared, Option.bind_some, taken, Option.bind_some, pending, Option.bind_some, placed,
      Option.map_some] at same
    obtain ⟨flow, atOnce⟩ := of_decide_eq_true (Option.some_inj.mp same)
    exact ⟨flow, .inl atOnce⟩

theorem wifiFlows_sound_bound :
    ∃ s, runSteps (step 100) bindLabels (wifiStart IPV4_HNAPT) = some s ∧ s.bindings.length = 1 ∧
      StoreOk s.h ∧ ∀ binding ∈ s.bindings, BindingOk 100 s binding := by
  have bound : ((runSteps (step 100) bindLabels (wifiStart IPV4_HNAPT)).map
      fun s => s.bindings.length) = some 1 := by decide +kernel
  obtain ⟨s, run, one⟩ := Option.map_eq_some_iff.mp bound
  exact ⟨s, run, one, wifiFlows_sound (wifiStart_fresh _) (reaches_of_runSteps bindLabels_orderly run)⟩

/-- A bridged flow that is prepared twice is stored twice, as no flow entry of its type
matches. -/
theorem bridged_flow_twice :
    ¬∀ (hz : Nat) (s s' : WifiState), s.Fresh → Reaches anyStep (step hz) s s' →
      StoreOk s'.h ∧ ∀ binding ∈ s'.bindings, BindingOk hz s' binding := by
  intro always
  have twice : ((runSteps (step 100) [.prepare (wifiCall sessionPacket L2_BRIDGE) true,
      .prepare (wifiCall sessionPacket L2_BRIDGE) true] (wifiStart L2_BRIDGE)).bind fun s =>
        (s.h.flowHead 0 1).map fun head => decide (NoTwoSame head)) = some false := by
    decide +kernel
  obtain ⟨s, run, stored⟩ := Option.bind_eq_some_iff.mp twice
  obtain ⟨head, here, same⟩ := Option.map_eq_some_iff.mp stored
  have ok := (always 100 _ s (wifiStart_fresh _) (reaches_of_runSteps allAllowed_anyStep run)).1
  exact absurd (ok.distinct 0 1 head here) (of_decide_eq_false same)

end WifiState

end MetaFilogic.Hnat
