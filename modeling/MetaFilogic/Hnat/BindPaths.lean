import MetaFilogic.Hnat.OtherBinds
import MetaFilogic.Library.Steps

/-!
# Binding on several CPUs

Five functions bind entries, each in its own way.  `skb_to_hnat_info` and
`mtk_sw_nat_hook_tx` look at the entry again under `entry_lock` before they write it;
`hnat_bind_crypto_entry` looks before it takes the lock, the tunnel path of
`skb_to_hnat_info` and `mtk_464xlat_post_process` do not look again at all, and
`hnat_static_entry_write` goes on from one entry to the next until it has seen five.
-/

namespace MetaFilogic.Hnat

open Fields

/-! ## Calls -/

/-- What a call of `skb_to_hnat_info` or `hnat_bind_crypto_entry` is made with. -/
structure BindRequest where
  settings : HnatSettings
  desc : HnatDesc
  pkt : Packet
  path : HwPath

/-- A call on its way, with the entry it has made and where it will write it.  A call of
`hnat_bind_crypto_entry` has looked at the entry the second time when it is `checked`, and
one of `hnat_static_entry_write` has come to the end of its loop when it is `found`. -/
inductive BindCall where
  | info (ppe index : Nat) (entry : FoeEntry)
  | tunnel (ppe index : Nat) (entry : FoeEntry)
  | wifi (ppe index : Nat) (entry : FoeEntry)
  | crypto (ppe index : Nat) (entry : FoeEntry) (checked : Bool)
  | xlat (ppe index : Nat) (entry : FoeEntry)
  | static (ppe requested coll : Nat) (entry : FoeEntry) (found : Bool)

/-- A write of an entry by one of the calls; `requested` is the index that was asked for. -/
structure TableWrite where
  ppe : Nat
  index : Nat
  requested : Nat

/-- The tables and the calls on their way, with the writes they have made and the number of
changes of each entry by others. -/
structure BindState where
  h : MtkHnat
  calls : List BindCall
  writes : List TableWrite
  changed : Nat → Nat → Nat

/-- A step of a CPU or the PPE.  `advance` is the next step of a call; `delete` stands for the
functions that delete entries and for the ageing of the PPE, `update` for the update API, and
`learn` for what the PPE writes to an entry that is not bound. -/
inductive BindLabel where
  | info (request : BindRequest) (dev : OutDev) (qos : QosChoice) (xfrm : Bool)
  | wifi (settings : HnatSettings) (pkt : WifiPacket) (data : FoeEntry)
  | crypto (request : BindRequest) (gmac : Option (BitVec 4)) (fillInnerInfo : Bool)
  | xlat (xlat : Xlat) (pkt : Packet) (headroom : Nat → HnatDesc) (dev : XlatDev)
      (neigh : Option Mac) (stamp : BitVec 8)
  | static (hash : Int) (args : StaticArgs)
  | advance (number : Nat) (stamp : BitVec 8) (locked : Bool)
  | delete (ppe index : Nat) (entry : FoeEntry)
  | update (ppe index : Nat) (entry : FoeEntry)
  | learn (ppe index : Nat) (entry : FoeEntry)

namespace MtkHnat

variable (h : MtkHnat)

/-- `entry_hnat_is_bound(e)` of an entry of a table; what lies behind a table is not bound. -/
def boundAt (ppe index : Nat) : Bool := (h.foeEntry ppe index).any FoeEntry.isBound

def unbindAt (ppe index : Nat) : Bool :=
  (h.foeEntry ppe index).any fun foe => Bfib1.state.get foe == UNBIND

end MtkHnat

namespace BindState

variable (s : BindState)

def start (call : BindCall) : BindState := { s with calls := s.calls ++ [call] }

def writeEntry (number ppe index requested : Nat) (entry : FoeEntry) : BindState where
  h := s.h.setFoeEntry ppe index entry
  calls := s.calls.eraseIdx number
  writes := ⟨ppe, index, requested⟩ :: s.writes
  changed := s.changed

def drop (number : Nat) : BindState := { s with calls := s.calls.eraseIdx number }

/-- `skb_to_hnat_info` up to its lock or its unlocked write, for a packet that
`mtk_hnat_nf_post_routing` passes on. -/
def startInfo (request : BindRequest) (dev : OutDev) (qos : QosChoice) (xfrm : Bool) :
    Option BindState :=
  let ppe := request.desc.ppe s.h.ppeNum
  let index := request.desc.entry.toNat
  if index ≥ s.h.foeEtryNum ∨ ppe ≥ s.h.ppeNum ∨ s.h.boundAt ppe index = true ∨
      dev.whnat = true then none
  else
    (s.h.foeEntry ppe index).map fun foe =>
      match prepareEntry request.settings request.desc request.pkt dev request.path qos xfrm
          foe with
      | .refused => s
      | .partial' entry => s.start (.tunnel ppe index entry)
      | .filled entry => s.start (.info ppe index entry)

/-- `mtk_sw_nat_hook_tx` up to its second lock, with the entry it has got from `foe_flow`. -/
def startWifi (settings : HnatSettings) (pkt : WifiPacket) (data : FoeEntry) : Option BindState :=
  if !pkt.accepted s.h then none
  else
    (wifiFill settings pkt data).map fun entry =>
      s.start (.wifi (pkt.desc.ppe s.h.ppeNum) pkt.desc.entry.toNat entry)

/-- `hnat_bind_crypto_entry` up to its second look at the entry. -/
def startCrypto (request : BindRequest) (gmac : Option (BitVec 4)) (fillInnerInfo : Bool) :
    Option BindState :=
  let ppe := request.desc.ppe s.h.ppeNum
  let index := request.desc.entry.toNat
  if !request.settings.tnlToggle ∨ !request.desc.isHashed s.h.foeEtryNum ∨ ppe ≥ s.h.ppeNum ∨
      s.h.boundAt ppe index = true then none
  else
    (s.h.foeEntry ppe index).bind fun foe =>
      (fillCryptoEntry request.settings request.pkt request.path foe request.desc gmac
        fillInnerInfo).map fun entry => s.start (.crypto ppe index entry false)

/-- `mtk_464xlat_post_process` up to its write. -/
def startXlat (xlat : Xlat) (pkt : Packet) (headroom : Nat → HnatDesc) (dev : XlatDev)
    (neigh : Option Mac) (stamp : BitVec 8) : Option BindState :=
  (xlatL2w pkt).bind fun l2w =>
    (mtk464xlatGetHash xlat pkt l2w s.h).bind fun hash =>
      let index := hash.toNat
      let ppe := headroomPpe s.h.ppeNum (headroom index)
      if index ≥ s.h.foeEtryNum ∨ (headroom index).crsn ≠ HIT_UNBIND_RATE_REACH then none
      else
        (s.h.foeEntry ppe index).bind fun foe =>
          (fillXlatEntry xlat pkt l2w dev neigh stamp foe).map fun entry =>
            s.start (.xlat ppe index entry)

/-- `hnat_static_entry_write` up to its loop. -/
def startStatic (hash : Int) (args : StaticArgs) : Option BindState :=
  (staticEntry args).bind fun entry =>
    (staticHash s.h hash entry).map fun index =>
      s.start (.static (staticPpe s.h entry) index 0 entry false)

def advanceCall (number : Nat) (stamp : BitVec 8) (locked : Bool) : BindCall → BindState
  | .info ppe index entry =>
    if locked && s.h.unbindAt ppe index then
      s.writeEntry number ppe index index (hnatFoeEntryCommit stamp BIND entry)
    else s.drop number
  | .wifi ppe index entry =>
    if s.h.unbindAt ppe index then
      s.writeEntry number ppe index index (hnatFoeEntryCommit stamp BIND entry)
    else s.drop number
  | .tunnel ppe index entry =>
    s.writeEntry number ppe index index (hnatFoeEntryCommit stamp (Bfib1.state.get entry) entry)
  | .crypto ppe index entry false =>
    if s.h.boundAt ppe index then s.drop number
    else { s with calls := s.calls.set number (.crypto ppe index entry true) }
  | .crypto ppe index entry true =>
    s.writeEntry number ppe index index (hnatFoeEntryCommit stamp BIND entry)
  | .xlat ppe index entry => s.writeEntry number ppe index index entry
  | .static ppe requested coll entry false =>
    if s.h.boundAt ppe (requested + coll) && decide (coll < 4) then
      { s with calls := s.calls.set number (.static ppe requested (coll + 1) entry false) }
    else { s with calls := s.calls.set number (.static ppe requested coll entry true) }
  | .static ppe requested coll entry true =>
    s.writeEntry number ppe (requested + coll) requested entry

def change (ppe index : Nat) (entry : FoeEntry) : BindState :=
  { s with
    h := s.h.setFoeEntry ppe index entry
    changed := Function.update s.changed ppe
      (Function.update (s.changed ppe) index (s.changed ppe index + 1)) }

def step : BindLabel → Option BindState
  | .info request dev qos xfrm => s.startInfo request dev qos xfrm
  | .wifi settings pkt data => s.startWifi settings pkt data
  | .crypto request gmac fillInnerInfo => s.startCrypto request gmac fillInnerInfo
  | .xlat xlat pkt headroom dev neigh stamp => s.startXlat xlat pkt headroom dev neigh stamp
  | .static hash args => s.startStatic hash args
  | .advance number stamp locked =>
    s.calls[number]?.map fun call => s.advanceCall number stamp locked call
  | .delete ppe index entry => if entry.isBound then none else some (s.change ppe index entry)
  | .update ppe index entry =>
    if s.h.boundAt ppe index then some (s.change ppe index entry) else none
  | .learn ppe index entry =>
    if s.h.boundAt ppe index || entry.isBound then none
    else some { s with h := s.h.setFoeEntry ppe index entry }

end BindState

/-! ## What can go wrong -/

def BindCall.Exposed (ppe index : Nat) : BindCall → Prop
  | .tunnel ppe' index' _ | .crypto ppe' index' _ true | .xlat ppe' index' _ =>
    ppe = ppe' ∧ index = index'
  | .static ppe' requested coll _ _ =>
    ppe = ppe' ∧ requested + coll ≤ index ∧ index / 4 = requested / 4
  | _ => False

namespace BindState

variable (s : BindState)

def target (locked : Bool) : BindCall → Option (Nat × Nat)
  | .info ppe index _ => if locked && s.h.unbindAt ppe index then some (ppe, index) else none
  | .wifi ppe index _ => if s.h.unbindAt ppe index then some (ppe, index) else none
  | .tunnel ppe index _ | .crypto ppe index _ true | .xlat ppe index _ => some (ppe, index)
  | .static ppe requested coll _ true => some (ppe, requested + coll)
  | .crypto _ _ _ false | .static _ _ _ _ false => none

def committed : BindLabel → Option (BindCall × Nat × Nat)
  | .advance number _ locked => s.calls[number]?.bind fun call =>
    (s.target locked call).map fun place => (call, place)
  | _ => none

/-- No call writes an entry that another call will write without looking again; the entry a
464XLAT packet is about is not bound, and there is a free entry for a static one in the rest
of the bucket. -/
def Orderly : BindLabel → Prop
  | .advance number _ locked => ∀ call ppe index, s.calls[number]? = some call →
      s.target locked call = some (ppe, index) →
      ∀ number' other, number' ≠ number → s.calls[number']? = some other →
        ¬other.Exposed ppe index
  | .xlat xlat pkt headroom _ _ _ => ∀ l2w hash, xlatL2w pkt = some l2w →
      mtk464xlatGetHash xlat pkt l2w s.h = some hash →
      s.h.boundAt (headroomPpe s.h.ppeNum (headroom hash.toNat)) hash.toNat = false
  | .static hash args => ∀ entry requested, staticEntry args = some entry →
      staticHash s.h hash entry = some requested →
      ∃ free, requested ≤ free ∧ free / 4 = requested / 4 ∧ free < s.h.foeEtryNum ∧
        s.h.boundAt (staticPpe s.h entry) free = false
  | _ => True

structure Fresh : Prop where
  calls : s.calls = []
  writes : s.writes = []

def CallOk : BindCall → Prop
  | .info _ index _ | .wifi _ index _ | .crypto _ index _ false => index < s.h.foeEtryNum
  | .tunnel ppe index _ | .crypto ppe index _ true | .xlat ppe index _ =>
    index < s.h.foeEtryNum ∧ s.h.boundAt ppe index = false
  | .static ppe requested coll _ false => ∃ free, requested + coll ≤ free ∧
      free / 4 = requested / 4 ∧ free < s.h.foeEtryNum ∧ s.h.boundAt ppe free = false
  | .static ppe requested coll _ true => (requested + coll) / 4 = requested / 4 ∧
      requested + coll < s.h.foeEtryNum ∧ s.h.boundAt ppe (requested + coll) = false

def InRange (write : TableWrite) : Prop :=
  write.index < s.h.foeEtryNum ∧ write.index / 4 = write.requested / 4

structure Inv : Prop where
  calls : ∀ call ∈ s.calls, s.CallOk call
  writes : ∀ write ∈ s.writes, s.InRange write

theorem Fresh.inv {s : BindState} (fresh : s.Fresh) : s.Inv where
  calls := by rw [fresh.calls]; nofun
  writes := by rw [fresh.writes]; nofun

section Steps

variable {s s' : BindState} {label : BindLabel} {call : BindCall} {ppe index number : Nat}

theorem CallOk.mono (ok : s.CallOk call) (size : s'.h.foeEtryNum = s.h.foeEtryNum)
    (free : ∀ ppe index, call.Exposed ppe index → s.h.boundAt ppe index = false →
      s'.h.boundAt ppe index = false) : s'.CallOk call := by
  cases call with
  | info ppe index entry => exact Nat.lt_of_lt_of_eq ok size.symm
  | wifi ppe index entry => exact Nat.lt_of_lt_of_eq ok size.symm
  | tunnel ppe index entry => exact ⟨size ▸ ok.1, free _ _ ⟨rfl, rfl⟩ ok.2⟩
  | xlat ppe index entry => exact ⟨size ▸ ok.1, free _ _ ⟨rfl, rfl⟩ ok.2⟩
  | crypto ppe index entry checked =>
    cases checked with
    | false => exact Nat.lt_of_lt_of_eq ok size.symm
    | true => exact ⟨size ▸ ok.1, free _ _ ⟨rfl, rfl⟩ ok.2⟩
  | static ppe requested coll entry found =>
    cases found with
    | false =>
      obtain ⟨place, after, bucket, inside, unbound⟩ := ok
      exact ⟨place, after, bucket, size ▸ inside, free _ _ ⟨rfl, after, bucket⟩ unbound⟩
    | true =>
      obtain ⟨bucket, inside, unbound⟩ := ok
      exact ⟨bucket, size ▸ inside, free _ _ ⟨rfl, Nat.le_refl _, bucket⟩ unbound⟩

variable {entry : FoeEntry} {ppe' index' : Nat} {stamp : BitVec 8}

theorem boundAt_setFoeEntry_other {h : MtkHnat} (other : ppe' ≠ ppe ∨ index' ≠ index) :
    (h.setFoeEntry ppe index entry).boundAt ppe' index' = h.boundAt ppe' index' := by
  rw [MtkHnat.boundAt, MtkHnat.foeEntry_setFoeEntry_other other, MtkHnat.boundAt]

theorem foeEntry_setFoeEntry_none {h : MtkHnat} (outside : h.foeEntry ppe index = none) :
    (h.setFoeEntry ppe index entry).foeEntry ppe index = none := by
  rw [MtkHnat.foeEntry, Option.bind_eq_none_iff] at outside ⊢
  simp only [MtkHnat.setFoeEntry, Function.update_self]
  rintro table present
  obtain ⟨old, found, rfl⟩ := Option.map_eq_some_iff.mp present
  have past := List.getElem?_eq_none_iff.mp (outside old found)
  rwa [List.getElem?_eq_none_iff, List.length_set]

theorem foeEntry_before {h : MtkHnat} {new : FoeEntry}
    (placed : (h.setFoeEntry ppe index entry).foeEntry ppe' index' = some new) :
    ∃ old, h.foeEntry ppe' index' = some old := by
  by_cases here : ppe' = ppe ∧ index' = index
  · obtain ⟨rfl, rfl⟩ := here
    cases before : h.foeEntry ppe' index' with
    | none =>
      rw [foeEntry_setFoeEntry_none before] at placed
      cases placed
    | some old => exact ⟨old, rfl⟩
  · rw [MtkHnat.foeEntry_setFoeEntry_other (not_and_or.mp here)] at placed
    exact ⟨new, placed⟩

theorem boundAt_setFoeEntry_unbound {h : MtkHnat} (unbound : entry.isBound = false)
    (free : h.boundAt ppe' index' = false) :
    (h.setFoeEntry ppe index entry).boundAt ppe' index' = false := by
  by_cases here : ppe' = ppe ∧ index' = index
  · obtain ⟨rfl, rfl⟩ := here
    cases placed : h.foeEntry ppe' index' with
    | none =>
      rw [MtkHnat.boundAt, foeEntry_setFoeEntry_none placed]
      rfl
    | some old =>
      rw [MtkHnat.boundAt, MtkHnat.foeEntry_setFoeEntry placed]
      exact unbound
  · rwa [boundAt_setFoeEntry_other (not_and_or.mp here)]

theorem boundAt_of_unbindAt {h : MtkHnat} (unbind : h.unbindAt ppe index = true) :
    h.boundAt ppe index = false := by
  rw [MtkHnat.unbindAt, Option.any_eq_true] at unbind
  obtain ⟨foe, placed, state⟩ := unbind
  rw [MtkHnat.boundAt, placed, Option.any_some, FoeEntry.isBound, eq_of_beq state]
  rfl

def Starts (s s' : BindState) : Prop := s' = s ∨ ∃ call, s.CallOk call ∧ s' = s.start call

theorem startInfo_starts {request : BindRequest} {dev : OutDev} {qos : QosChoice} {xfrm : Bool}
    (stepped : s.startInfo request dev qos xfrm = some s') : s.Starts s' := by
  simp only [startInfo] at stepped
  split at stepped
  · cases stepped
  · rename_i accepted
    simp only [not_or, ge_iff_le, Nat.not_le, Bool.not_eq_true] at accepted
    obtain ⟨foe, _, rfl⟩ := Option.map_eq_some_iff.mp stepped
    split
    · exact .inl rfl
    · rename_i entry _
      exact .inr ⟨.tunnel _ _ entry, ⟨accepted.1, accepted.2.2.1⟩, rfl⟩
    · rename_i entry _
      exact .inr ⟨.info _ _ entry, accepted.1, rfl⟩

theorem startWifi_starts {settings : HnatSettings} {pkt : WifiPacket} {data : FoeEntry}
    (stepped : s.startWifi settings pkt data = some s') : s.Starts s' := by
  rw [startWifi] at stepped
  split at stepped
  · cases stepped
  · rename_i accepted
    simp only [WifiPacket.accepted, HnatDesc.isHashed, Bool.not_eq_true', Bool.not_eq_false,
      Bool.and_eq_true, decide_eq_true_eq] at accepted
    obtain ⟨entry, _, rfl⟩ := Option.map_eq_some_iff.mp stepped
    exact .inr ⟨.wifi _ _ entry, accepted.1.1.1.1.1.1.1.1.2, rfl⟩

theorem startCrypto_starts {request : BindRequest} {gmac : Option (BitVec 4)} {inner : Bool}
    (stepped : s.startCrypto request gmac inner = some s') : s.Starts s' := by
  simp only [startCrypto] at stepped
  split at stepped
  · cases stepped
  · rename_i accepted
    simp only [not_or, HnatDesc.isHashed, Bool.not_eq_true', Bool.not_eq_true, Bool.not_eq_false,
      Bool.and_eq_true, decide_eq_true_eq] at accepted
    obtain ⟨foe, _, made⟩ := Option.bind_eq_some_iff.mp stepped
    obtain ⟨entry, _, rfl⟩ := Option.map_eq_some_iff.mp made
    exact .inr ⟨.crypto _ _ entry false, accepted.2.1.2, rfl⟩

theorem startXlat_call {xlat : Xlat} {pkt : Packet} {headroom : Nat → HnatDesc} {dev : XlatDev}
    {neigh : Option Mac} (stepped : s.startXlat xlat pkt headroom dev neigh stamp = some s') :
    ∃ l2w hash entry, xlatL2w pkt = some l2w ∧ mtk464xlatGetHash xlat pkt l2w s.h = some hash ∧
      hash.toNat < s.h.foeEtryNum ∧ s' = s.start
        (.xlat (headroomPpe s.h.ppeNum (headroom hash.toNat)) hash.toNat entry) := by
  rw [startXlat] at stepped
  obtain ⟨l2w, direction, stepped⟩ := Option.bind_eq_some_iff.mp stepped
  obtain ⟨hash, hashed, stepped⟩ := Option.bind_eq_some_iff.mp stepped
  dsimp only at stepped
  split at stepped
  · cases stepped
  · rename_i accepted
    simp only [not_or, ge_iff_le, Nat.not_le] at accepted
    obtain ⟨foe, _, made⟩ := Option.bind_eq_some_iff.mp stepped
    obtain ⟨entry, _, rfl⟩ := Option.map_eq_some_iff.mp made
    exact ⟨l2w, hash, entry, direction, hashed, accepted.1, rfl⟩

theorem startXlat_starts {xlat : Xlat} {pkt : Packet} {headroom : Nat → HnatDesc} {dev : XlatDev}
    {neigh : Option Mac} (orderly : s.Orderly (.xlat xlat pkt headroom dev neigh stamp))
    (stepped : s.startXlat xlat pkt headroom dev neigh stamp = some s') : s.Starts s' := by
  obtain ⟨l2w, hash, entry, direction, hashed, inside, rfl⟩ := startXlat_call stepped
  exact .inr ⟨.xlat _ _ entry, ⟨inside, orderly l2w hash direction hashed⟩, rfl⟩

theorem startStatic_call {hash : Int} {args : StaticArgs}
    (stepped : s.startStatic hash args = some s') :
    ∃ entry requested, staticEntry args = some entry ∧ staticHash s.h hash entry = some requested ∧
      s' = s.start (.static (staticPpe s.h entry) requested 0 entry false) := by
  rw [startStatic] at stepped
  obtain ⟨entry, made, stepped⟩ := Option.bind_eq_some_iff.mp stepped
  obtain ⟨requested, hashed, rfl⟩ := Option.map_eq_some_iff.mp stepped
  exact ⟨entry, requested, made, hashed, rfl⟩

theorem startStatic_starts {hash : Int} {args : StaticArgs}
    (orderly : s.Orderly (.static hash args)) (stepped : s.startStatic hash args = some s') :
    s.Starts s' := by
  obtain ⟨entry, requested, made, hashed, rfl⟩ := startStatic_call stepped
  exact .inr ⟨.static _ requested 0 entry false, orderly entry requested made hashed, rfl⟩

theorem Inv.starts (inv : s.Inv) (starts : s.Starts s') : s'.Inv := by
  rcases starts with rfl | ⟨call, ok, rfl⟩
  · exact inv
  · refine ⟨fun call' member => ?_, inv.writes⟩
    rcases List.mem_append.mp member with old | new
    · exact inv.calls call' old
    · rw [List.mem_singleton.mp new]
      exact ok

/-- What the next step of a call does: it writes its target, or it writes nothing and goes on
as it should. -/
theorem advanceCall_cases (number : Nat) (stamp : BitVec 8) (locked : Bool) (ok : s.CallOk call) :
    (∃ ppe index requested entry, s.target locked call = some (ppe, index) ∧
        s.advanceCall number stamp locked call = s.writeEntry number ppe index requested entry ∧
        s.h.boundAt ppe index = false ∧ s.InRange ⟨ppe, index, requested⟩) ∨
      s.target locked call = none ∧ (s.advanceCall number stamp locked call = s.drop number ∨
        ∃ next, s.CallOk next ∧ s.advanceCall number stamp locked call =
          { s with calls := s.calls.set number next }) := by
  cases call with
  | info ppe index entry =>
    cases now : locked && s.h.unbindAt ppe index with
    | true =>
      refine .inl ⟨ppe, index, index, hnatFoeEntryCommit stamp BIND entry, ?_, ?_, ?_, ok, rfl⟩
      · simp [target, now]
      · simp [advanceCall, now]
      · exact boundAt_of_unbindAt (Bool.and_eq_true_iff.mp now).2
    | false => exact .inr ⟨by simp [target, now], .inl (by simp [advanceCall, now])⟩
  | wifi ppe index entry =>
    cases now : s.h.unbindAt ppe index with
    | true =>
      refine .inl ⟨ppe, index, index, hnatFoeEntryCommit stamp BIND entry, ?_, ?_, ?_, ok, rfl⟩
      · simp [target, now]
      · simp [advanceCall, now]
      · exact boundAt_of_unbindAt now
    | false => exact .inr ⟨by simp [target, now], .inl (by simp [advanceCall, now])⟩
  | tunnel ppe index entry => exact .inl ⟨ppe, index, index, _, rfl, rfl, ok.2, ok.1, rfl⟩
  | xlat ppe index entry => exact .inl ⟨ppe, index, index, _, rfl, rfl, ok.2, ok.1, rfl⟩
  | crypto ppe index entry checked =>
    cases checked with
    | true => exact .inl ⟨ppe, index, index, _, rfl, rfl, ok.2, ok.1, rfl⟩
    | false =>
      cases bound : s.h.boundAt ppe index with
      | true => exact .inr ⟨rfl, .inl (by simp [advanceCall, bound])⟩
      | false =>
        exact .inr ⟨rfl, .inr ⟨.crypto ppe index entry true, ⟨ok, bound⟩,
          by simp [advanceCall, bound]⟩⟩
  | static ppe requested coll entry found =>
    cases found with
    | true =>
      obtain ⟨bucket, inside, unbound⟩ := ok
      exact .inl ⟨ppe, requested + coll, requested, entry, rfl, rfl, unbound, inside, bucket⟩
    | false =>
      obtain ⟨free, after, bucket, inside, unbound⟩ := ok
      cases bound : s.h.boundAt ppe (requested + coll) with
      | true =>
        -- the free entry lies behind this one, and so this is not the fifth
        have behind : free ≠ requested + coll := by
          rintro rfl
          rw [bound] at unbound
          cases unbound
        refine .inr ⟨rfl, .inr ⟨.static ppe requested (coll + 1) entry false,
          ⟨free, by omega, bucket, inside, unbound⟩, ?_⟩⟩
        simp [advanceCall, bound, show coll < 4 by omega]
      | false =>
        refine .inr ⟨rfl, .inr ⟨.static ppe requested coll entry true,
          ⟨by omega, by omega, bound⟩, ?_⟩⟩
        simp [advanceCall, bound]

theorem Inv.writeEntry {requested : Nat} (inv : s.Inv)
    (alone : ∀ number' other, number' ≠ number → s.calls[number']? = some other →
      ¬other.Exposed ppe index) (inRange : s.InRange ⟨ppe, index, requested⟩) :
    (s.writeEntry number ppe index requested entry).Inv where
  calls := by
    intro other member
    obtain ⟨number', apart, found⟩ := List.mem_eraseIdx_iff_getElem?.mp member
    refine (inv.calls other (List.mem_of_getElem? found)).mono rfl
      fun ppe' index' exposed free => ?_
    rw [BindState.writeEntry, boundAt_setFoeEntry_other, free]
    rw [← not_and_or]
    rintro ⟨rfl, rfl⟩
    exact alone number' other apart found exposed
  writes := by
    intro write member
    rcases List.mem_cons.mp member with rfl | old
    · exact inRange
    · exact inv.writes write old

theorem Inv.setUnbound {changed : Nat → Nat → Nat} (inv : s.Inv)
    (harmless : entry.isBound = false ∨ s.h.boundAt ppe index = true) :
    BindState.Inv { s with h := s.h.setFoeEntry ppe index entry, changed := changed } where
  calls call member := (inv.calls call member).mono rfl fun ppe' index' _ free => by
    rcases harmless with unbound | bound
    · exact boundAt_setFoeEntry_unbound unbound free
    · rw [boundAt_setFoeEntry_other, free]
      rw [← not_and_or]
      rintro ⟨rfl, rfl⟩
      rw [bound] at free
      cases free
  writes := inv.writes

theorem Inv.step (inv : s.Inv) (orderly : s.Orderly label) (stepped : s.step label = some s') :
    s'.Inv := by
  cases label with
  | info request dev qos xfrm => exact inv.starts (startInfo_starts stepped)
  | wifi settings pkt data => exact inv.starts (startWifi_starts stepped)
  | crypto request gmac inner => exact inv.starts (startCrypto_starts stepped)
  | xlat xlat pkt headroom dev neigh stamp => exact inv.starts (startXlat_starts orderly stepped)
  | static hash args => exact inv.starts (startStatic_starts orderly stepped)
  | advance number stamp locked =>
    obtain ⟨call, found, rfl⟩ := Option.map_eq_some_iff.mp stepped
    have ok := inv.calls call (List.mem_of_getElem? found)
    obtain ⟨ppe, index, requested, entry, aimed, writes, -, inRange⟩ |
      ⟨-, drops | ⟨next, nextOk, goes⟩⟩ := advanceCall_cases number stamp locked ok
    · rw [writes]
      exact inv.writeEntry (orderly call ppe index found aimed) inRange
    · rw [drops]
      exact ⟨fun call member => inv.calls call (List.mem_of_mem_eraseIdx member), inv.writes⟩
    · rw [goes]
      refine ⟨fun call member => ?_, inv.writes⟩
      rcases List.mem_or_eq_of_mem_set member with old | rfl
      · exact inv.calls call old
      · exact nextOk
  | delete ppe index entry =>
    rw [BindState.step] at stepped
    split at stepped
    · cases stepped
    · rename_i unbound
      cases stepped
      exact inv.setUnbound (.inl (Bool.eq_false_iff.mpr unbound))
  | update ppe index entry =>
    rw [BindState.step] at stepped
    split at stepped
    · rename_i bound
      cases stepped
      exact inv.setUnbound (.inr bound)
    · cases stepped
  | learn ppe index entry =>
    rw [BindState.step] at stepped
    split at stepped
    · cases stepped
    · rename_i unbound
      cases stepped
      exact inv.setUnbound (.inl (Bool.or_eq_false_iff.mp (Bool.eq_false_iff.mpr unbound)).2)

theorem advanceCall_h (s : BindState) (call : BindCall) (number : Nat) (stamp : BitVec 8)
    (locked : Bool) :
    (∃ ppe index entry, s.target locked call = some (ppe, index) ∧
        (s.advanceCall number stamp locked call).h = s.h.setFoeEntry ppe index entry) ∨
      s.target locked call = none ∧ (s.advanceCall number stamp locked call).h = s.h := by
  cases call with
  | info ppe index entry =>
    cases now : locked && s.h.unbindAt ppe index with
    | true => exact .inl ⟨ppe, index, _, by simp [target, now], by simp [advanceCall, now]; rfl⟩
    | false => exact .inr ⟨by simp [target, now], by simp [advanceCall, now, drop]⟩
  | wifi ppe index entry =>
    cases now : s.h.unbindAt ppe index with
    | true => exact .inl ⟨ppe, index, _, by simp [target, now], by simp [advanceCall, now]; rfl⟩
    | false => exact .inr ⟨by simp [target, now], by simp [advanceCall, now, drop]⟩
  | tunnel ppe index entry => exact .inl ⟨ppe, index, _, rfl, rfl⟩
  | xlat ppe index entry => exact .inl ⟨ppe, index, _, rfl, rfl⟩
  | crypto ppe index entry checked =>
    cases checked with
    | true => exact .inl ⟨ppe, index, _, rfl, rfl⟩
    | false =>
      refine .inr ⟨rfl, ?_⟩
      rw [advanceCall]
      split <;> rfl
  | static ppe requested coll entry found =>
    cases found with
    | true => exact .inl ⟨ppe, requested + coll, _, rfl, rfl⟩
    | false =>
      refine .inr ⟨rfl, ?_⟩
      rw [advanceCall]
      split <;> rfl

/-- What a step does to the table: a call writes an entry, or one entry is written by others
and not bound by that, or nothing is written. -/
theorem step_h (stepped : s.step label = some s') :
    (∃ call ppe index entry, s.committed label = some (call, ppe, index) ∧
        s'.h = s.h.setFoeEntry ppe index entry) ∨
      s.committed label = none ∧ (s'.h = s.h ∨ ∃ ppe index entry,
        (entry.isBound = true → s.h.boundAt ppe index = true) ∧
          s'.h = s.h.setFoeEntry ppe index entry) := by
  have started : s.Starts s' → s'.h = s.h := by
    rintro (rfl | ⟨call, -, rfl⟩)
    all_goals rfl
  cases label with
  | info request dev qos xfrm => exact .inr ⟨rfl, .inl (started (startInfo_starts stepped))⟩
  | wifi settings pkt data => exact .inr ⟨rfl, .inl (started (startWifi_starts stepped))⟩
  | crypto request gmac inner => exact .inr ⟨rfl, .inl (started (startCrypto_starts stepped))⟩
  | xlat xlat pkt headroom dev neigh stamp =>
    obtain ⟨l2w, hash, entry, -, -, -, rfl⟩ := startXlat_call stepped
    exact .inr ⟨rfl, .inl rfl⟩
  | static hash args =>
    obtain ⟨entry, requested, -, -, rfl⟩ := startStatic_call stepped
    exact .inr ⟨rfl, .inl rfl⟩
  | advance number stamp locked =>
    obtain ⟨call, found, rfl⟩ := Option.map_eq_some_iff.mp stepped
    obtain ⟨ppe, index, entry, aimed, written⟩ | ⟨aimed, same⟩ :=
      advanceCall_h s call number stamp locked
    · exact .inl ⟨call, ppe, index, entry, by simp [committed, found, aimed], written⟩
    · exact .inr ⟨by simp [committed, found, aimed], .inl same⟩
  | delete ppe index entry =>
    rw [BindState.step] at stepped
    split at stepped
    · cases stepped
    · rename_i unbound
      cases stepped
      exact .inr ⟨rfl, .inr ⟨ppe, index, entry, fun bound => absurd bound unbound, rfl⟩⟩
  | update ppe index entry =>
    rw [BindState.step] at stepped
    split at stepped
    · rename_i bound
      cases stepped
      exact .inr ⟨rfl, .inr ⟨ppe, index, entry, fun _ => bound, rfl⟩⟩
    · cases stepped
  | learn ppe index entry =>
    rw [BindState.step] at stepped
    split at stepped
    · cases stepped
    · rename_i unbound
      cases stepped
      have free := (Bool.or_eq_false_iff.mp (Bool.eq_false_iff.mpr unbound)).2
      exact .inr ⟨rfl, .inr ⟨ppe, index, entry,
        fun bound => absurd bound (Bool.eq_false_iff.mp free), rfl⟩⟩

theorem step_cases (inv : s.Inv) (orderly : s.Orderly label) (stepped : s.step label = some s') :
    (s'.changed = s.changed ∧ ∀ ppe index, s.h.boundAt ppe index = true →
        s'.h.foeEntry ppe index = s.h.foeEntry ppe index) ∨
      ∃ ppe index entry, s' = s.change ppe index entry := by
  have started : s.Starts s' → s'.changed = s.changed ∧ ∀ ppe index,
      s.h.boundAt ppe index = true → s'.h.foeEntry ppe index = s.h.foeEntry ppe index := by
    rintro (rfl | ⟨call, -, rfl⟩)
    all_goals exact ⟨rfl, fun _ _ _ => rfl⟩
  have elsewhere : ∀ ppe index entry, s.h.boundAt ppe index = false → ∀ ppe' index',
      s.h.boundAt ppe' index' = true →
      (s.h.setFoeEntry ppe index entry).foeEntry ppe' index' = s.h.foeEntry ppe' index' := by
    intro ppe index entry free ppe' index' bound
    rw [MtkHnat.foeEntry_setFoeEntry_other]
    rw [← not_and_or]
    rintro ⟨rfl, rfl⟩
    rw [bound] at free
    cases free
  cases label with
  | info request dev qos xfrm => exact .inl (started (startInfo_starts stepped))
  | wifi settings pkt data => exact .inl (started (startWifi_starts stepped))
  | crypto request gmac inner => exact .inl (started (startCrypto_starts stepped))
  | xlat xlat pkt headroom dev neigh stamp =>
    exact .inl (started (startXlat_starts orderly stepped))
  | static hash args => exact .inl (started (startStatic_starts orderly stepped))
  | advance number stamp locked =>
    obtain ⟨call, found, rfl⟩ := Option.map_eq_some_iff.mp stepped
    have ok := inv.calls call (List.mem_of_getElem? found)
    obtain ⟨ppe, index, requested, entry, -, writes, unbound, -⟩ | ⟨-, drops | ⟨next, -, goes⟩⟩ :=
      advanceCall_cases number stamp locked ok
    · rw [writes]
      exact .inl ⟨rfl, elsewhere ppe index entry unbound⟩
    · rw [drops]
      exact .inl ⟨rfl, fun _ _ _ => rfl⟩
    · rw [goes]
      exact .inl ⟨rfl, fun _ _ _ => rfl⟩
  | delete ppe index entry =>
    rw [BindState.step] at stepped
    split at stepped
    · cases stepped
    · exact .inr ⟨ppe, index, entry, (Option.some_inj.mp stepped).symm⟩
  | update ppe index entry =>
    rw [BindState.step] at stepped
    split at stepped
    · exact .inr ⟨ppe, index, entry, (Option.some_inj.mp stepped).symm⟩
    · cases stepped
  | learn ppe index entry =>
    rw [BindState.step] at stepped
    split at stepped
    · cases stepped
    · rename_i unbound
      cases stepped
      have free := (Bool.or_eq_false_iff.mp (Bool.eq_false_iff.mpr unbound)).1
      exact .inl ⟨rfl, elsewhere ppe index entry free⟩

def Kept (s₀ s : BindState) (ppe index : Nat) : Prop :=
  s₀.changed ppe index ≤ s.changed ppe index ∧
    (s.changed ppe index = s₀.changed ppe index →
      s.h.foeEntry ppe index = s₀.h.foeEntry ppe index)

theorem Kept.step {s₀ : BindState} (kept : s₀.Kept s ppe index)
    (bound : s₀.h.boundAt ppe index = true) (inv : s.Inv) (orderly : s.Orderly label)
    (stepped : s.step label = some s') : s₀.Kept s' ppe index := by
  obtain ⟨grown, same⟩ := kept
  obtain ⟨unchanged, alone⟩ | ⟨ppe', index', entry, rfl⟩ := step_cases inv orderly stepped
  · refine ⟨unchanged ▸ grown, fun equal => ?_⟩
    have now := same (unchanged ▸ equal)
    rw [alone ppe index (by rw [MtkHnat.boundAt, now]; exact bound), now]
  · by_cases here : ppe = ppe' ∧ index = index'
    · obtain ⟨rfl, rfl⟩ := here
      simp only [Kept, change, Function.update_self]
      exact ⟨by omega, fun equal => by omega⟩
    · have apart := not_and_or.mp here
      have unchanged : (s.change ppe' index' entry).changed ppe index = s.changed ppe index := by
        dsimp only [change]
        rcases apart with other | other
        · rw [Function.update_of_ne other]
        · by_cases table : ppe = ppe'
          · rw [table, Function.update_self, Function.update_of_ne other]
          · rw [Function.update_of_ne table]
      refine ⟨unchanged ▸ grown, fun equal => ?_⟩
      rw [change, MtkHnat.foeEntry_setFoeEntry_other apart]
      exact same (unchanged ▸ equal)

/-- In every run whose steps are orderly a bound entry keeps its contents until it is deleted
or updated, and every write is inside the table and in the bucket it was asked for. -/
theorem bound_entry_kept {s₀ : BindState} (fresh : s₀.Fresh) (run : Reaches Orderly step s₀ s)
    (later : Reaches Orderly step s s') :
    (∀ ppe index entry, s.h.foeEntry ppe index = some entry → entry.isBound = true →
        s'.changed ppe index = s.changed ppe index → s'.h.foeEntry ppe index = some entry) ∧
      ∀ write ∈ s'.writes, s'.InRange write := by
  have preserved : ∀ s label s', Inv s → Orderly s label → step s label = some s' → Inv s' :=
    fun _ _ _ inv orderly stepped => inv.step orderly stepped
  have inv : s.Inv := run.invariant preserved fresh.inv
  refine ⟨fun ppe index entry placed bound same => ?_, (later.invariant preserved inv).writes⟩
  have boundAt : s.h.boundAt ppe index = true := by rw [MtkHnat.boundAt, placed]; exact bound
  have step : ∀ t label t', t.Inv ∧ s.Kept t ppe index → Orderly t label →
      BindState.step t label = some t' → t'.Inv ∧ s.Kept t' ppe index :=
    fun _ _ _ holds orderly stepped =>
      ⟨holds.1.step orderly stepped, holds.2.step boundAt holds.1 orderly stepped⟩
  have kept := later.invariant step ⟨inv, Nat.le_refl _, fun _ => rfl⟩
  rw [kept.2.2 same, placed]

theorem advanceCall_calls_length {locked : Bool} :
    (s.advanceCall number stamp locked call).calls.length ≤ s.calls.length := by
  have erased := List.length_eraseIdx_le s.calls number
  fun_cases advanceCall s number stamp locked call
  all_goals first | exact erased | exact Nat.le_of_eq List.length_set

theorem allAllowed_advance (one : s.calls.length ≤ 1) (steps : Nat) :
    AllAllowed Orderly step (List.replicate steps (.advance 0 stamp true)) s := by
  induction steps generalizing s with
  | zero => trivial
  | succ steps ih =>
    refine ⟨fun call ppe index _ _ number' other apart found => ?_, fun s' stepped => ih ?_⟩
    · have inside := (List.getElem?_eq_some_iff.mp found).1
      omega
    · obtain ⟨call, _, rfl⟩ := Option.map_eq_some_iff.mp stepped
      exact Nat.le_trans advanceCall_calls_length one

end Steps

/-! ## Runs -/

def eightEntries (bound : Nat) : BindState where
  h :=
    { ppeNum := 1
      foeEtryNum := 8
      etryNumCfg := 0
      foeTableCpu := fun ppe => if ppe = 0 then
        some (List.replicate bound (Bfib1.state.set BIND FoeEntry.zero) ++
          List.replicate (8 - bound) FoeEntry.zero)
        else none
      foeFlow := fun _ => none
      tbEtryNum := fun _ => 0 }
  calls := []
  writes := []
  changed _ _ := 0

theorem eightEntries_fresh (bound : Nat) : (eightEntries bound).Fresh := ⟨rfl, rfl⟩

def staticFlow : StaticArgs :=
  .ipv4 0x20000000 1 2 3 4 0 1 2 3 4 0x020000000001 0x020000000002 0 0 0

def staticLabels (steps : Nat) : List BindLabel :=
  .static 0 staticFlow :: List.replicate steps (.advance 0 0 true)

theorem staticLabels_orderly (steps : Nat) :
    AllAllowed Orderly step (staticLabels steps) (eightEntries 1) := by
  refine ⟨fun entry requested _ hashed => ?_, fun s stepped => allAllowed_advance ?_ steps⟩
  · obtain rfl : 0 = requested := Option.some_inj.mp hashed
    refine ⟨1, by decide, by decide, by decide, ?_⟩
    have ppe : staticPpe (eightEntries 1).h entry = 0 := rfl
    rw [ppe]
    decide
  · rw [BindState.step, startStatic] at stepped
    obtain ⟨entry, _, stepped⟩ := Option.bind_eq_some_iff.mp stepped
    obtain ⟨requested, _, rfl⟩ := Option.map_eq_some_iff.mp stepped
    exact Nat.le_refl 1

theorem bound_entry_kept_static :
    ∃ s, runSteps step (staticLabels 3) (eightEntries 1) = some s ∧
      (s.writes.map TableWrite.index) = [1] ∧
      s.h.foeEntry 0 0 = some (Bfib1.state.set BIND FoeEntry.zero) ∧
      ∀ write ∈ s.writes, s.InRange write := by
  have written : ((runSteps step (staticLabels 3) (eightEntries 1)).map fun s =>
      (s.changed 0 0, s.writes.map TableWrite.index)) = some (0, [1]) := by decide +kernel
  obtain ⟨s, run, seen⟩ := Option.map_eq_some_iff.mp written
  simp only [Prod.mk.injEq] at seen
  obtain ⟨kept, inRange⟩ := bound_entry_kept (eightEntries_fresh 1) .refl
    (reaches_of_runSteps (staticLabels_orderly 3) run)
  exact ⟨s, run, seen.2, kept 0 0 _ rfl (by decide) seen.1, inRange⟩

/-- When the rest of a bucket is bound, a static entry is written to the next one, whatever is
bound there. -/
theorem static_entry_past_bucket :
    ¬∀ s₀ s s' : BindState, s₀.Fresh → Reaches anyStep step s₀ s → Reaches anyStep step s s' →
      (∀ ppe index entry, s.h.foeEntry ppe index = some entry → entry.isBound = true →
          s'.changed ppe index = s.changed ppe index → s'.h.foeEntry ppe index = some entry) ∧
        ∀ write ∈ s'.writes, s'.InRange write := by
  intro always
  have written : ((runSteps step (staticLabels 6) (eightEntries 5)).bind fun s =>
      (s.h.foeEntry 0 4).map fun entry => (s.changed 0 4, Ipv4.sip.get entry)) = some (0, 1) := by
    decide +kernel
  obtain ⟨s, run, seen⟩ := Option.bind_eq_some_iff.mp written
  obtain ⟨entry, placed, seen⟩ := Option.map_eq_some_iff.mp seen
  simp only [Prod.mk.injEq] at seen
  have kept := (always _ _ s (eightEntries_fresh 5) .refl
    (reaches_of_runSteps allAllowed_anyStep run)).1 0 4 _ rfl (by decide) seen.1
  rw [placed] at kept
  rw [Option.some_inj.mp kept] at seen
  exact absurd seen.2 (by decide)

end BindState

end MetaFilogic.Hnat
