import MetaFilogic.Hnat.BindPaths
import Mathlib.Algebra.Group.Prod
import Mathlib.Data.BitVec

/-!
# Per-flow accounting

The PPE counts the packets and bytes of the entry bound at an index in a counter that is
cleared when it is read.  `hnat_get_count` adds what it reads to `acct` of the index, and to
the conntrack it finds with the key of the entry and the zone in `acct`.  Each way to bind
an entry resets `acct` in its own way, or not at all, and nothing reads or clears the counter
when an entry is deleted or bound again.

The module is about a driver with `per_flow_accounting`.
-/

namespace MetaFilogic.Hnat

open Fields

/-! ## The counter -/

abbrev MibCounts := BitVec 64 × BitVec 64

/-- `PPE_MIB_SER_R0` to `PPE_MIB_SER_R3`. -/
structure MibRegs where
  r0 : BitVec 32
  r1 : BitVec 32
  r2 : BitVec 32
  r3 : BitVec 32

/-- What the PPE shows of a counter; before the third version it has 48 bits for the bytes and
40 for the packets. -/
def mibRegs (v3 : Bool) (bytes packets : Nat) : MibRegs :=
  if v3 then
    ⟨BitVec.ofNat 32 bytes, BitVec.ofNat 32 (bytes / 2 ^ 32), BitVec.ofNat 32 packets,
      BitVec.ofNat 32 (packets / 2 ^ 32)⟩
  else
    ⟨BitVec.ofNat 32 bytes, BitVec.ofNat 16 packets ++ BitVec.ofNat 16 (bytes / 2 ^ 32),
      (BitVec.ofNat 24 (packets / 2 ^ 16)).setWidth 32, 0⟩

def readMib (v3 : Bool) (regs : MibRegs) : MibCounts :=
  if v3 then
    (regs.r0.setWidth 64 + regs.r1.setWidth 64 <<< 32,
      regs.r2.setWidth 64 + regs.r3.setWidth 64 <<< 32)
  else
    (regs.r0.setWidth 64 + (regs.r1 &&& 0xffff#32).setWidth 64 <<< 32,
      ((regs.r1 &&& 0xffff0000#32) >>> 16).setWidth 64 +
        (regs.r2 &&& 0xffffff#32).setWidth 64 <<< 16)

def MibFits (v3 : Bool) (bytes packets : Nat) : Prop :=
  v3 = true ∨ bytes < 2 ^ 48 ∧ packets < 2 ^ 40

theorem append_toNat (a b : BitVec 16) : (a ++ b).toNat = a.toNat * 2 ^ 16 + b.toNat := by
  rw [BitVec.toNat_append, Nat.shiftLeft_eq, Nat.mul_comm, Nat.two_pow_add_eq_or_of_lt b.isLt]

theorem append_and_low (a b : BitVec 16) : (a ++ b) &&& 0xffff#32 = b.setWidth 32 := by
  apply BitVec.eq_of_toNat_eq
  have small := b.isLt
  rw [BitVec.toNat_and, append_toNat, show (0xffff#32).toNat = 2 ^ 16 - 1 from rfl,
    Nat.and_two_pow_sub_one_eq_mod, BitVec.toNat_setWidth]
  omega

theorem append_and_high (a b : BitVec 16) :
    ((a ++ b) &&& 0xffff0000#32) >>> 16 = a.setWidth 32 := by
  apply BitVec.eq_of_toNat_eq
  have small := a.isLt
  have small' := b.isLt
  rw [BitVec.ushiftRight_and_distrib, BitVec.toNat_and, BitVec.toNat_ushiftRight, append_toNat,
    show (0xffff0000#32 >>> 16).toNat = 2 ^ 16 - 1 from rfl, Nat.and_two_pow_sub_one_eq_mod,
    Nat.shiftRight_eq_div_pow, BitVec.toNat_setWidth]
  omega

theorem setWidth_and_mask (a : BitVec 24) : a.setWidth 32 &&& 0xffffff#32 = a.setWidth 32 := by
  apply BitVec.eq_of_toNat_eq
  have small := a.isLt
  rw [BitVec.toNat_and, show (0xffffff#32).toNat = 2 ^ 24 - 1 from rfl,
    Nat.and_two_pow_sub_one_eq_mod, BitVec.toNat_setWidth]
  omega

theorem readMib_mibRegs {v3 : Bool} {bytes packets : Nat} (fits : MibFits v3 bytes packets) :
    readMib v3 (mibRegs v3 bytes packets) = (BitVec.ofNat 64 bytes, BitVec.ofNat 64 packets) := by
  cases v3 with
  | true =>
    simp only [readMib, mibRegs, if_true, Prod.mk.injEq]
    constructor
    all_goals
      apply BitVec.eq_of_toNat_eq
      simp only [BitVec.toNat_add, BitVec.toNat_shiftLeft, BitVec.toNat_setWidth,
        BitVec.toNat_ofNat, Nat.shiftLeft_eq]
      omega
  | false =>
    obtain ⟨fewBytes, fewPackets⟩ := fits.resolve_left nofun
    simp only [readMib, mibRegs, Bool.false_eq_true, if_false, Prod.mk.injEq]
    constructor
    · rw [append_and_low]
      apply BitVec.eq_of_toNat_eq
      simp only [BitVec.toNat_add, BitVec.toNat_shiftLeft, BitVec.toNat_setWidth,
        BitVec.toNat_ofNat, Nat.shiftLeft_eq]
      omega
    · rw [append_and_high, setWidth_and_mask]
      apply BitVec.eq_of_toNat_eq
      simp only [BitVec.toNat_add, BitVec.toNat_shiftLeft, BitVec.toNat_setWidth,
        BitVec.toNat_ofNat, Nat.shiftLeft_eq]
      omega

/-! ## The conntrack of an entry -/

/-- `struct nf_conntrack_tuple` of a TCP or UDP flow, in host order. -/
structure CtTuple where
  ipv6 : Bool
  src : BitVec 128
  dst : BitVec 128
  sport : BitVec 16
  dport : BitVec 16
  protonum : BitVec 8
  deriving DecidableEq

/-- What a conntrack is found by.  The zone is the id it is compared by, which cleared memory
has zero, like the default zone. -/
structure CtKey where
  tuple : CtTuple
  zone : BitVec 16
  deriving DecidableEq

structure HnatAccounting where
  bytes : BitVec 64
  packets : BitVec 64
  zone : BitVec 16
  deriving DecidableEq

/-- `acct` of a binding: what has been counted of it, in the zone of its conntrack. -/
def HnatAccounting.Holds (acct : HnatAccounting) (counted : MibCounts)
    (flow : Option CtKey) : Prop :=
  (acct.bytes, acct.packets) = counted ∧ ∀ key, flow = some key → acct.zone = key.zone

namespace FoeEntry

variable (entry : FoeEntry)

/-- The types `hnat_nf_acct_update` reads as IPv4. -/
def hasIpv4Tuple : Bool :=
  entry.isType IPV4_HNAT || entry.isType IPV4_HNAPT || entry.isType IPV4_DSLITE ||
    entry.isType IPV4_MAP_T || entry.isType IPV4_MAP_E

/-- The types `hnat_nf_acct_update` reads as IPv6. -/
def hasIpv6Tuple : Bool :=
  entry.isType IPV6_6RD || entry.isType IPV6_HNAT || entry.isType IPV6_HNAPT ||
    entry.isType IPV6_3T_ROUTE || entry.isType IPV6_5T_ROUTE

/-- The tuple of `hnat_nf_acct_update`. -/
def ctTuple : Option CtTuple :=
  let protonum := if Bfib1.udp.get entry = 1 then IPPROTO_UDP else IPPROTO_TCP
  if entry.hasIpv4Tuple then
    some
      { ipv6 := false
        src := (Ipv4.sip.get entry).setWidth 128
        dst := (Ipv4.dip.get entry).setWidth 128
        sport := Ipv4.sport.get entry
        dport := Ipv4.dport.get entry
        protonum }
  else if entry.hasIpv6Tuple then
    some
      { ipv6 := true
        src := (Ipv6.sip 0).get entry ++ (Ipv6.sip 1).get entry ++ (Ipv6.sip 2).get entry ++
          (Ipv6.sip 3).get entry
        dst := (Ipv6.dip 0).get entry ++ (Ipv6.dip 1).get entry ++ (Ipv6.dip 2).get entry ++
          (Ipv6.dip 3).get entry
        sport := Ipv6.sport.get entry
        dport := Ipv6.dport.get entry
        protonum }
  else none

end FoeEntry

/-! ## Counting and binding -/

/-- Packets of a bound entry that the PPE has counted, with the conntrack of its flow and the
number of its binding. -/
structure Hit where
  flow : Option CtKey
  binding : Nat
  bytes : Nat
  packets : Nat

def totalBytes (hits : List Hit) : Nat := (hits.map Hit.bytes).sum

def totalPackets (hits : List Hit) : Nat := (hits.map Hit.packets).sum

def total (hits : List Hit) : MibCounts :=
  (BitVec.ofNat 64 (totalBytes hits), BitVec.ofNat 64 (totalPackets hits))

theorem add_total_nil (counts : MibCounts) : counts + total [] = counts :=
  Prod.ext (BitVec.add_zero _) (BitVec.add_zero _)

/-- The reset of `acct` after an entry is bound.  `hnat_bind_crypto_entry` clears the size of
`struct mib_entry`, which are the bytes and the packets; the two others clear it all and take
the zone of the packet's conntrack, when it has one. -/
structure PendingReset where
  ppe : Nat
  index : Nat
  whole : Bool
  ct : Option CtKey

def PendingReset.apply (reset : PendingReset) (acct : HnatAccounting) : HnatAccounting :=
  if reset.whole then ⟨0, 0, (reset.ct.map CtKey.zone).getD 0⟩
  else { acct with bytes := 0, packets := 0 }

def PendingReset.At (reset : PendingReset) (ppe index : Nat) : Prop :=
  reset.ppe = ppe ∧ reset.index = index

def BindCall.reset (ppe index : Nat) (ct : Option CtKey) : BindCall → Option PendingReset
  | .info .. | .wifi .. => some ⟨ppe, index, true, ct⟩
  | .crypto .. => some ⟨ppe, index, false, ct⟩
  | .tunnel .. | .xlat .. | .static .. => none

theorem BindCall.reset_at {call : BindCall} {ppe index : Nat} {ct : Option CtKey}
    {reset : PendingReset} (made : call.reset ppe index ct = some reset) : reset.At ppe index := by
  cases call <;> cases made <;> exact ⟨rfl, rfl⟩

/-- `f` with another value at one place. -/
def updateAt {α : Type*} (f : Nat → Nat → α) (ppe index : Nat) (value : α) : Nat → Nat → α :=
  Function.update f ppe (Function.update (f ppe) index value)

@[simp]
theorem updateAt_self {α : Type*} (f : Nat → Nat → α) (ppe index : Nat) (value : α) :
    updateAt f ppe index value ppe index = value := by
  simp [updateAt]

theorem updateAt_other {α : Type*} {f : Nat → Nat → α} {ppe index ppe' index' : Nat}
    {value : α} (other : ¬(ppe' = ppe ∧ index' = index)) :
    updateAt f ppe index value ppe' index' = f ppe' index' := by
  by_cases table : ppe' = ppe
  · obtain rfl := table
    simp [updateAt, show index' ≠ index from fun same => other ⟨rfl, same⟩]
  · simp [updateAt, table]

/-- The tables with the counters: `unread` are the packets counted since the counter was read,
`tracked` tells which conntracks there are, with accounting on, and `counters` is what they
have been credited.  The rest is for the statements: the conntrack and the number of the
latest binding, what has been counted of it, and what is owed to the conntracks. -/
structure AcctState where
  b : BindState
  unread : Nat → Nat → List Hit
  acct : Nat → Nat → HnatAccounting
  resets : List PendingReset
  tracked : CtKey → Bool
  counters : CtKey → MibCounts
  flow : Nat → Nat → Option CtKey
  binding : Nat → Nat → Nat
  counted : Nat → Nat → MibCounts
  owed : CtKey → MibCounts

/-- `table` is a step on the tables, with the conntrack of the packet when an entry is bound;
`count` a call of `hnat_get_count`, `api` for the functions of the API, which look first
whether the entry is bound. -/
inductive AcctLabel where
  | table (label : BindLabel) (ct : Option CtKey)
  | reset (number : Nat)
  | hit (ppe index bytes packets : Nat)
  | count (api : Bool) (ppe index : Nat) (busy : Bool)
  | track (key : CtKey) (present : Bool)

namespace AcctState

variable (s : AcctState)

def bind (b : BindState) (call : BindCall) (ppe index : Nat) (ct : Option CtKey) : AcctState :=
  { s with
    b
    resets := s.resets ++ (call.reset ppe index ct).toList
    flow := updateAt s.flow ppe index ct
    binding := updateAt s.binding ppe index (s.binding ppe index + 1)
    counted := updateAt s.counted ppe index 0 }

def tableStep (label : BindLabel) (ct : Option CtKey) : Option AcctState :=
  (s.b.step label).map fun b =>
    match s.b.committed label with
    | some (call, ppe, index) =>
      if b.h.boundAt ppe index then s.bind b call ppe index ct else { s with b }
    | none => { s with b }

def hnatNfAcctUpdate (entry : FoeEntry) (zone : BitVec 16) (counts : MibCounts) :
    CtKey → MibCounts :=
  match entry.ctTuple with
  | none => s.counters
  | some tuple =>
    if s.tracked ⟨tuple, zone⟩ then
      Function.update s.counters ⟨tuple, zone⟩ (s.counters ⟨tuple, zone⟩ + counts)
    else s.counters

/-- What is owed after some packets have been read: each is credited to its own flow. -/
def owing (hits : List Hit) (key : CtKey) : MibCounts :=
  if s.tracked key then s.owed key + total (hits.filter fun hit => hit.flow == some key)
  else s.owed key

/-- `hnat_get_count` with the counter of an index that has an entry. -/
def counting (v3 : Bool) (ppe index : Nat) (entry : FoeEntry) : AcctState :=
  let hits := s.unread ppe index
  let counts := readMib v3 (mibRegs v3 (totalBytes hits) (totalPackets hits))
  let acct := s.acct ppe index
  { s with
    unread := updateAt s.unread ppe index []
    acct := updateAt s.acct ppe index
      { acct with
        bytes := acct.bytes + counts.1
        packets := acct.packets + counts.2 }
    counters := s.hnatNfAcctUpdate entry acct.zone counts
    counted := updateAt s.counted ppe index (s.counted ppe index +
      total (hits.filter fun hit => hit.binding == s.binding ppe index))
    owed := s.owing hits }

/-- `hnat_get_count(h, ppe_id, index, diff)`; `busy` when the counter cannot be read. -/
def hnatGetCount (v3 : Bool) (ppe index : Nat) (busy : Bool) : Option AcctState :=
  if ppe ≥ s.b.h.ppeNum ∨ index ≥ s.b.h.foeEtryNum ∨ busy = true then some s
  else (s.b.h.foeEntry ppe index).map (s.counting v3 ppe index)

def step (v3 : Bool) : AcctLabel → Option AcctState
  | .table label ct => s.tableStep label ct
  | .reset number =>
    s.resets[number]?.map fun reset =>
      { s with
        acct := updateAt s.acct reset.ppe reset.index (reset.apply (s.acct reset.ppe reset.index))
        resets := s.resets.eraseIdx number }
  | .hit ppe index bytes packets =>
    if s.b.h.boundAt ppe index then
      some { s with unread := updateAt s.unread ppe index (s.unread ppe index ++
        [⟨s.flow ppe index, s.binding ppe index, bytes, packets⟩]) }
    else none
  | .count api ppe index busy =>
    if api && !s.b.h.boundAt ppe index then none else s.hnatGetCount v3 ppe index busy
  | .track key present => some { s with tracked := Function.update s.tracked key present }

/-! ## What can go wrong -/

/-- No reset of `acct` at an index is still to come. -/
def Settled (ppe index : Nat) : Prop := ∀ reset ∈ s.resets, ¬reset.At ppe index

/-- A binding at an index whose counter has been read out and where no reset is to come, which
leaves `acct` zero in the zone of the packet's conntrack, of an entry with the tuple of that
conntrack. -/
structure GoodBinding (call : BindCall) (ppe index : Nat) (entry : FoeEntry) (ct : Option CtKey) :
    Prop where
  drained : s.unread ppe index = []
  settled : s.Settled ppe index
  acct : ((call.reset ppe index ct).elim (s.acct ppe index)
    (PendingReset.apply · (s.acct ppe index))).Holds 0 ct
  tuple : entry.ctTuple = ct.map CtKey.tuple

/-- Bindings are good; an entry is deleted or changed so that it has another tuple only when
its counter has been read out, and it is not bound then; and a counter is read only when no
reset is to come, and before it runs over. -/
def Orderly (v3 : Bool) : AcctLabel → Prop
  | .table label ct => ∀ b, s.b.step label = some b →
      (∀ call ppe index new, s.b.committed label = some (call, ppe, index) →
        b.h.foeEntry ppe index = some new → new.isBound = true →
        s.GoodBinding call ppe index new ct) ∧
      ∀ ppe index old new, s.b.h.foeEntry ppe index = some old →
        b.h.foeEntry ppe index = some new → s.b.committed label = none ∨ new.isBound = false →
        old.ctTuple = new.ctTuple ∨ s.unread ppe index = [] ∧ new.isBound = false
  | .count _ ppe index _ => s.Settled ppe index ∧
      MibFits v3 (totalBytes (s.unread ppe index)) (totalPackets (s.unread ppe index))
  | _ => True

/-- Every packet that was read is in `acct` once, when it is of the latest binding and the
reset is done, and has been credited once to the conntrack of its flow. -/
structure Conserved : Prop where
  credited : ∀ key, s.counters key = s.owed key
  settled : ∀ ppe index, s.Settled ppe index →
    (s.acct ppe index).Holds (s.counted ppe index) (s.flow ppe index)

structure Fresh : Prop where
  unbound : ∀ ppe index, s.b.h.boundAt ppe index = false
  unread : ∀ ppe index, s.unread ppe index = []
  resets : s.resets = []
  acct : ∀ ppe index, (s.acct ppe index).Holds (s.counted ppe index) (s.flow ppe index)
  credited : s.counters = s.owed

structure Inv : Prop where
  matching : ∀ ppe index entry, s.b.h.foeEntry ppe index = some entry →
    (entry.isBound = true ∨ s.unread ppe index ≠ []) →
    entry.ctTuple = (s.flow ppe index).map CtKey.tuple
  hits : ∀ ppe index, ∀ hit ∈ s.unread ppe index,
    hit.flow = s.flow ppe index ∧ hit.binding = s.binding ppe index
  pending : ∀ reset ∈ s.resets, (reset.apply (s.acct reset.ppe reset.index)).Holds
    (s.counted reset.ppe reset.index) (s.flow reset.ppe reset.index)
  conserved : s.Conserved

section Steps

variable {s s' : AcctState} {v3 : Bool} {ppe index : Nat}

theorem Fresh.inv (fresh : s.Fresh) : s.Inv where
  matching ppe index entry placed known := by
    rcases known with bound | some
    · have free := fresh.unbound ppe index
      rw [MtkHnat.boundAt, placed, Option.any_some, bound] at free
      cases free
    · exact absurd (fresh.unread ppe index) some
  hits ppe index := by rw [fresh.unread]; simp
  pending := by rw [fresh.resets]; simp
  conserved := ⟨fun key => congrFun fresh.credited key, fun ppe index _ => fresh.acct ppe index⟩

theorem Inv.table {b : BindState} (inv : s.Inv)
    (matching : ∀ ppe index entry, b.h.foeEntry ppe index = some entry →
      (entry.isBound = true ∨ s.unread ppe index ≠ []) →
      entry.ctTuple = (s.flow ppe index).map CtKey.tuple) :
    Inv { s with b } where
  matching := matching
  hits := inv.hits
  pending := inv.pending
  conserved := ⟨inv.conserved.credited, inv.conserved.settled⟩

theorem Inv.bind {b : BindState} {call : BindCall} {ct : Option CtKey} {entry : FoeEntry}
    (inv : s.Inv) (elsewhere : ∀ ppe' index', ¬(ppe' = ppe ∧ index' = index) →
      b.h.foeEntry ppe' index' = s.b.h.foeEntry ppe' index')
    (placed : b.h.foeEntry ppe index = some entry)
    (good : s.GoodBinding call ppe index entry ct) : (s.bind b call ppe index ct).Inv where
  matching ppe' index' entry' placed' known := by
    dsimp only [AcctState.bind] at placed' known ⊢
    by_cases here : ppe' = ppe ∧ index' = index
    · obtain ⟨rfl, rfl⟩ := here
      obtain rfl := Option.some_inj.mp (placed.symm.trans placed')
      rw [updateAt_self]
      exact good.tuple
    · rw [elsewhere ppe' index' here] at placed'
      rw [updateAt_other here]
      exact inv.matching ppe' index' entry' placed' known
  hits ppe' index' := by
    dsimp only [AcctState.bind]
    by_cases here : ppe' = ppe ∧ index' = index
    · obtain ⟨rfl, rfl⟩ := here
      rw [good.drained]
      nofun
    · rw [updateAt_other here, updateAt_other here]
      exact inv.hits ppe' index'
  pending reset member := by
    dsimp only [AcctState.bind]
    rcases List.mem_append.mp member with old | new
    · have apart : ¬(reset.ppe = ppe ∧ reset.index = index) := good.settled reset old
      rw [updateAt_other apart, updateAt_other apart]
      exact inv.pending reset old
    · have made : call.reset ppe index ct = some reset := Option.mem_toList.mp new
      obtain ⟨rfl, rfl⟩ := BindCall.reset_at made
      have acct := good.acct
      rw [made, Option.elim_some] at acct
      rwa [updateAt_self, updateAt_self]
  conserved := by
    refine ⟨inv.conserved.credited, fun ppe' index' settled => ?_⟩
    have before : s.Settled ppe' index' := fun reset old =>
      settled reset (List.mem_append_left _ old)
    dsimp only [AcctState.bind]
    by_cases here : ppe' = ppe ∧ index' = index
    · obtain ⟨rfl, rfl⟩ := here
      have acct := good.acct
      cases made : call.reset ppe' index' ct with
      | none =>
        rw [made, Option.elim_none] at acct
        rwa [updateAt_self, updateAt_self]
      | some reset =>
        have member : reset ∈ (s.bind b call ppe' index' ct).resets :=
          List.mem_append_right _ (Option.mem_toList.mpr made)
        exact absurd (BindCall.reset_at made) (settled reset member)
    · rw [updateAt_other here, updateAt_other here]
      exact inv.conserved.settled ppe' index' before

theorem PendingReset.apply_apply {reset reset' : PendingReset} {acct : HnatAccounting}
    {counted : MibCounts} {flow : Option CtKey} (first : (reset.apply acct).Holds counted flow)
    (second : (reset'.apply acct).Holds counted flow) :
    (reset'.apply (reset.apply acct)).Holds counted flow := by
  cases whole : reset'.whole with
  | true => simpa [PendingReset.apply, whole] using second
  | false =>
    have zero : counted = (0, 0) := by
      simpa [PendingReset.apply, whole, eq_comm] using second.1
    refine ⟨?_, ?_⟩
    · rw [PendingReset.apply, if_neg (by rw [whole]; nofun), zero]
    · rw [PendingReset.apply, if_neg (by rw [whole]; nofun)]
      exact first.2

theorem Inv.reset {number : Nat} {reset : PendingReset} (inv : s.Inv)
    (found : s.resets[number]? = some reset) :
    Inv
      { s with
        acct := updateAt s.acct reset.ppe reset.index (reset.apply (s.acct reset.ppe reset.index))
        resets := s.resets.eraseIdx number } where
  matching := inv.matching
  hits := inv.hits
  pending other member := by
    have now := inv.pending reset (List.mem_of_getElem? found)
    have later := inv.pending other (List.mem_of_mem_eraseIdx member)
    dsimp only
    by_cases here : other.ppe = reset.ppe ∧ other.index = reset.index
    · rw [here.1, here.2] at later ⊢
      rw [updateAt_self]
      exact PendingReset.apply_apply now later
    · rwa [updateAt_other here]
  conserved := by
    refine ⟨inv.conserved.credited, fun ppe index settled => ?_⟩
    dsimp only
    by_cases here : ppe = reset.ppe ∧ index = reset.index
    · obtain ⟨rfl, rfl⟩ := here
      rw [updateAt_self]
      exact inv.pending reset (List.mem_of_getElem? found)
    · rw [updateAt_other here]
      refine inv.conserved.settled ppe index fun other member at' => ?_
      obtain ⟨number', present⟩ := List.mem_iff_getElem?.mp member
      by_cases same : number' = number
      · obtain rfl := same
        rw [found] at present
        obtain rfl := Option.some_inj.mp present
        exact here ⟨at'.1.symm, at'.2.symm⟩
      · exact settled other (List.mem_eraseIdx_iff_getElem?.mpr ⟨number', same, present⟩) at'

theorem hnatNfAcctUpdate_apply {entry : FoeEntry} {zone : BitVec 16} {counts : MibCounts}
    {key : CtKey} : s.hnatNfAcctUpdate entry zone counts key =
      if s.tracked key = true ∧ entry.ctTuple = some key.tuple ∧ zone = key.zone then
        s.counters key + counts
      else s.counters key := by
  rw [hnatNfAcctUpdate]
  cases entry.ctTuple with
  | none => simp
  | some tuple =>
    by_cases same : key = ⟨tuple, zone⟩
    · subst same
      cases known : s.tracked ⟨tuple, zone⟩ <;> simp [known]
    · have apart : ¬(tuple = key.tuple ∧ zone = key.zone) := by
        rintro ⟨rfl, rfl⟩
        exact same rfl
      rw [if_neg (fun holds => apart ⟨Option.some_inj.mp holds.2.1, holds.2.2⟩)]
      dsimp only
      split
      · rw [Function.update_of_ne same]
      · rfl

theorem credited_owed {entry : FoeEntry} {zone : BitVec 16} {hits : List Hit} {flow : Option CtKey}
    (credited : ∀ key, s.counters key = s.owed key) (own : ∀ hit ∈ hits, hit.flow = flow)
    (tuple : hits ≠ [] → entry.ctTuple = flow.map CtKey.tuple)
    (inZone : ∀ key, flow = some key → zone = key.zone) (key : CtKey) :
    s.hnatNfAcctUpdate entry zone (total hits) key = s.owing hits key := by
  rw [hnatNfAcctUpdate_apply, owing, credited]
  cases known : s.tracked key with
  | false => simp
  | true =>
    by_cases none : hits = []
    · subst none
      rw [List.filter_nil, add_total_nil, if_pos rfl, ite_self]
    · rw [tuple none]
      by_cases its : flow = some key
      · have all : (hits.filter fun hit => hit.flow == some key) = hits :=
          List.filter_eq_self.mpr fun hit member => by rw [own hit member, its, beq_self_eq_true]
        simp [all, its, inZone key its]
      · have others : (hits.filter fun hit => hit.flow == some key) = [] :=
          List.filter_eq_nil_iff.mpr fun hit member => by rwa [own hit member, beq_iff_eq]
        have apart : ¬(flow.map CtKey.tuple = some key.tuple ∧ zone = key.zone) := by
          rintro ⟨same, inside⟩
          obtain ⟨other, rfl, tuples⟩ := Option.map_eq_some_iff.mp same
          have zones := inZone other rfl
          rw [zones] at inside
          exact its (congrArg some (CtKey.mk.injEq .. ▸ ⟨tuples, inside⟩))
        rw [others, add_total_nil, if_neg fun holds => apart holds.2, if_pos rfl]

theorem Inv.count {entry : FoeEntry} (inv : s.Inv) (settled : s.Settled ppe index)
    (fits : MibFits v3 (totalBytes (s.unread ppe index)) (totalPackets (s.unread ppe index)))
    (placed : s.b.h.foeEntry ppe index = some entry) : (s.counting v3 ppe index entry).Inv where
  matching ppe' index' entry' placed' known := by
    dsimp only [counting] at placed' known ⊢
    refine inv.matching ppe' index' entry' placed' (known.imp_right fun some => ?_)
    by_cases here : ppe' = ppe ∧ index' = index
    · obtain ⟨rfl, rfl⟩ := here
      rw [updateAt_self] at some
      exact absurd rfl some
    · rwa [updateAt_other here] at some
  hits ppe' index' := by
    dsimp only [counting]
    by_cases here : ppe' = ppe ∧ index' = index
    · obtain ⟨rfl, rfl⟩ := here
      rw [updateAt_self]
      nofun
    · rw [updateAt_other here]
      exact inv.hits ppe' index'
  pending reset member := by
    dsimp only [counting]
    have apart : ¬(reset.ppe = ppe ∧ reset.index = index) := settled reset member
    rw [updateAt_other apart, updateAt_other apart]
    exact inv.pending reset member
  conserved := by
    have now := inv.conserved.settled ppe index settled
    refine ⟨fun key => ?_, fun ppe' index' settled' => ?_⟩
    · dsimp only [counting]
      rw [readMib_mibRegs fits]
      exact credited_owed inv.conserved.credited
        (fun hit member => (inv.hits ppe index hit member).1)
        (fun some => inv.matching ppe index entry placed (.inr some)) now.2 key
    · dsimp only [counting]
      by_cases here : ppe' = ppe ∧ index' = index
      · obtain ⟨rfl, rfl⟩ := here
        have all : ((s.unread ppe' index').filter fun hit =>
            hit.binding == s.binding ppe' index') = s.unread ppe' index' :=
          List.filter_eq_self.mpr fun hit member => beq_iff_eq.mpr (inv.hits _ _ hit member).2
        rw [updateAt_self, updateAt_self, all, readMib_mibRegs fits, ← now.1]
        exact ⟨rfl, now.2⟩
      · rw [updateAt_other here, updateAt_other here]
        exact inv.conserved.settled ppe' index' settled'

theorem Inv.hit {bytes packets : Nat} (inv : s.Inv) (bound : s.b.h.boundAt ppe index = true) :
    Inv { s with unread := updateAt s.unread ppe index (s.unread ppe index ++
      [⟨s.flow ppe index, s.binding ppe index, bytes, packets⟩]) } where
  matching ppe' index' entry placed known := by
    refine inv.matching ppe' index' entry placed ?_
    by_cases here : ppe' = ppe ∧ index' = index
    · obtain ⟨rfl, rfl⟩ := here
      rw [MtkHnat.boundAt, placed] at bound
      exact .inl bound
    · dsimp only at known
      rwa [updateAt_other here] at known
  hits ppe' index' hit member := by
    dsimp only at member ⊢
    by_cases here : ppe' = ppe ∧ index' = index
    · obtain ⟨rfl, rfl⟩ := here
      rw [updateAt_self] at member
      rcases List.mem_append.mp member with old | new
      · exact inv.hits ppe' index' hit old
      · rw [List.mem_singleton.mp new]
        exact ⟨rfl, rfl⟩
    · rw [updateAt_other here] at member
      exact inv.hits ppe' index' hit member
  pending := inv.pending
  conserved := ⟨inv.conserved.credited, inv.conserved.settled⟩

theorem Inv.tableStep {label : BindLabel} {ct : Option CtKey} (inv : s.Inv)
    (orderly : s.Orderly v3 (.table label ct)) (stepped : s.tableStep label ct = some s') :
    s'.Inv := by
  obtain ⟨b, taken, rfl⟩ := Option.map_eq_some_iff.mp stepped
  obtain ⟨binds, changes⟩ := orderly b taken
  have unbinding : (∀ ppe index new, b.h.foeEntry ppe index = some new →
      ∃ old, s.b.h.foeEntry ppe index = some old ∧ (new.isBound = true → old.isBound = true) ∧
        (old.ctTuple = new.ctTuple ∨ s.unread ppe index = [] ∧ new.isBound = false)) →
      Inv { s with b } := by
    refine fun same => inv.table fun ppe index new placed known => ?_
    obtain ⟨old, before, bound, tuple | ⟨drained, unbound⟩⟩ := same ppe index new placed
    · rw [← tuple]
      exact inv.matching ppe index old before (known.imp_left bound)
    · rcases known with bound | some
      · rw [bound] at unbound
        cases unbound
      · exact absurd drained some
  obtain ⟨call, ppe, index, entry, commit, written⟩ | ⟨commit, written⟩ := BindState.step_h taken
  · have elsewhere : ∀ ppe' index', ¬(ppe' = ppe ∧ index' = index) →
        b.h.foeEntry ppe' index' = s.b.h.foeEntry ppe' index' := fun ppe' index' other => by
      rw [written, MtkHnat.foeEntry_setFoeEntry_other (not_and_or.mp other)]
    simp only [commit]
    split
    · rename_i bound
      rw [MtkHnat.boundAt, Option.any_eq_true] at bound
      obtain ⟨new, placed, isBound⟩ := bound
      exact inv.bind elsewhere placed (binds call ppe index new commit placed isBound)
    · rename_i unbound
      refine unbinding fun ppe' index' new placed => ?_
      by_cases here : ppe' = ppe ∧ index' = index
      · obtain ⟨rfl, rfl⟩ := here
        have free : new.isBound = false := by
          rw [MtkHnat.boundAt, placed] at unbound
          exact Bool.eq_false_iff.mpr unbound
        obtain ⟨old, before⟩ := BindState.foeEntry_before (written ▸ placed)
        refine ⟨old, before, fun bound => ?_, changes ppe' index' old new before placed (.inr free)⟩
        rw [bound] at free
        cases free
      · exact ⟨new, elsewhere ppe' index' here ▸ placed, id, .inl rfl⟩
  · simp only [commit]
    refine unbinding fun ppe' index' new placed => ?_
    rcases written with same | ⟨ppe, index, entry, harmless, written⟩
    · exact ⟨new, same ▸ placed, id, .inl rfl⟩
    · obtain ⟨old, before⟩ := BindState.foeEntry_before (written ▸ placed)
      refine ⟨old, before, fun bound => ?_, changes ppe' index' old new before placed (.inl commit)⟩
      rw [written] at placed
      by_cases here : ppe' = ppe ∧ index' = index
      · obtain ⟨rfl, rfl⟩ := here
        rw [MtkHnat.foeEntry_setFoeEntry before] at placed
        obtain rfl := Option.some_inj.mp placed
        have known := harmless bound
        rwa [MtkHnat.boundAt, before] at known
      · rw [MtkHnat.foeEntry_setFoeEntry_other (not_and_or.mp here), before] at placed
        rwa [Option.some_inj.mp placed]

theorem Inv.step {label : AcctLabel} (inv : s.Inv) (orderly : s.Orderly v3 label)
    (stepped : s.step v3 label = some s') : s'.Inv := by
  cases label with
  | table label ct => exact inv.tableStep orderly stepped
  | reset number =>
    obtain ⟨reset, found, rfl⟩ := Option.map_eq_some_iff.mp stepped
    exact inv.reset found
  | hit ppe index bytes packets =>
    rw [AcctState.step] at stepped
    split at stepped
    · rename_i bound
      cases stepped
      exact inv.hit bound
    · cases stepped
  | count api ppe index busy =>
    rw [AcctState.step] at stepped
    split at stepped
    · cases stepped
    · rw [hnatGetCount] at stepped
      split at stepped
      · cases stepped
        exact inv
      · obtain ⟨entry, placed, rfl⟩ := Option.map_eq_some_iff.mp stepped
        exact inv.count orderly.1 orderly.2 placed
  | track key present =>
    cases stepped
    exact ⟨inv.matching, inv.hits, inv.pending, inv.conserved.credited, inv.conserved.settled⟩

/-- In every run whose steps are orderly what is read from the counters is in `acct` once and
has been credited once, to the conntrack of the flow that was bound while it was counted. -/
theorem accounting_conserved {s₀ : AcctState} (fresh : s₀.Fresh)
    (run : Reaches (Orderly · v3) (step · v3) s₀ s) : s.Conserved :=
  (run.invariant (fun _ _ _ (inv : Inv _) orderly stepped => inv.step orderly stepped)
    fresh.inv).conserved

end Steps

/-! ## Runs -/

def learntFlow (sport : BitVec 16) : FoeEntry :=
  Ipv4.dport.set 80 (Ipv4.sport.set sport (Ipv4.dip.set 0x08080808 (Ipv4.sip.set 0xc0a80102
    (learntEntry IPV4_HNAPT))))

def flowKey (sport : BitVec 16) : CtKey where
  tuple :=
    { ipv6 := false
      src := 0xc0a80102
      dst := 0x08080808
      sport
      dport := 80
      protonum := IPPROTO_TCP }
  zone := 0

def acctStart : AcctState where
  b :=
    { h :=
        { ppeNum := 1
          foeEtryNum := 1
          etryNumCfg := 0
          foeTableCpu := fun ppe => if ppe = 0 then some [learntFlow 1000] else none
          foeFlow := fun _ => none
          tbEtryNum := fun _ => 0 }
      calls := []
      writes := []
      changed := fun _ _ => 0 }
  unread _ _ := []
  acct _ _ := ⟨0, 0, 0⟩
  resets := []
  tracked _ := true
  counters _ := 0
  flow _ _ := none
  binding _ _ := 0
  counted _ _ := 0
  owed _ := 0

theorem acctStart_fresh : acctStart.Fresh where
  unbound ppe index := by
    rw [MtkHnat.boundAt, Option.any_eq_false]
    intro entry placed
    obtain ⟨table, present, cell⟩ := Option.bind_eq_some_iff.mp placed
    simp only [acctStart] at present
    split at present
    · rw [← Option.some_inj.mp present] at cell
      rw [List.mem_singleton.mp (List.mem_of_getElem? cell)]
      decide
    · cases present
  unread _ _ := rfl
  resets := rfl
  acct _ _ := ⟨rfl, nofun⟩
  credited := rfl

def bindRequest : BindRequest := ⟨plainSettings, { ppdDesc with entry := 0 }, tcpPacket, plainPath⟩

def bindFlow (sport : BitVec 16) : List AcctLabel :=
  [.table (.info bindRequest (extDev 5) noQos false) none,
    .table (.advance 0 0 true) (some (flowKey sport)), .reset 0]

def bindCall : BindCall :=
  match prepareEntry bindRequest.settings bindRequest.desc bindRequest.pkt (extDev 5)
      bindRequest.path noQos false (learntFlow 1000) with
  | .filled entry => .info 0 0 entry
  | _ => .info 0 0 FoeEntry.zero

def boundEntry : FoeEntry :=
  match bindCall with
  | .info _ _ entry => hnatFoeEntryCommit 0 BIND entry
  | _ => FoeEntry.zero

def bindStarted : AcctState := { acctStart with b := acctStart.b.start bindCall }

theorem bindStarted_step :
    acctStart.b.step (.info bindRequest (extDev 5) noQos false) = some bindStarted.b := rfl

theorem bindStarted_orderly :
    bindStarted.Orderly true (.table (.advance 0 0 true) (some (flowKey 1000))) := by
  intro b stepped
  have written : bindStarted.b.step (.advance 0 0 true) =
      some (bindStarted.b.writeEntry 0 0 0 0 boundEntry) := rfl
  obtain rfl := Option.some_inj.mp (written.symm.trans stepped)
  have placed' : (bindStarted.b.writeEntry 0 0 0 0 boundEntry).h.foeEntry 0 0 = some boundEntry :=
    rfl
  have commits : bindStarted.b.committed (.advance 0 0 true) = some (bindCall, 0, 0) := rfl
  constructor
  · intro call ppe index new commit placed _
    rw [commits] at commit
    cases commit
    rw [placed'] at placed
    cases placed
    exact
      { drained := rfl
        settled := nofun
        acct := ⟨rfl, fun key same => by cases same; rfl⟩
        tuple := by decide +kernel }
  · intro ppe index old new before placed which
    rw [commits] at which
    refine .inl (congrArg FoeEntry.ctTuple ?_)
    by_cases here : ppe = 0 ∧ index = 0
    · obtain ⟨rfl, rfl⟩ := here
      rw [placed'] at placed
      cases placed
      exact absurd (which.resolve_left nofun) (by decide +kernel)
    · rw [BindState.writeEntry, MtkHnat.foeEntry_setFoeEntry_other (not_and_or.mp here),
        before] at placed
      exact Option.some_inj.mp placed

theorem bindFlow_orderly : AllAllowed (Orderly · true) (step · true)
    (bindFlow 1000 ++ [.hit 0 0 100 2, .count false 0 0 false]) acctStart := by
  refine ⟨fun b stepped => ⟨nofun, fun ppe index old new before placed _ => .inl ?_⟩,
    fun s₁ first => ?_⟩
  · obtain rfl := Option.some_inj.mp (bindStarted_step.symm.trans stepped)
    rw [Option.some_inj.mp (before.symm.trans placed)]
  · obtain rfl : bindStarted = s₁ := Option.some_inj.mp first
    refine ⟨bindStarted_orderly, fun s₂ second => ⟨trivial, fun s₃ third => ⟨trivial,
      fun s₄ fourth => ⟨⟨?_, .inl rfl⟩, fun _ _ => trivial⟩⟩⟩⟩
    have resets : ((runSteps (step · true) [.table (.advance 0 0 true) (some (flowKey 1000)),
        .reset 0, .hit 0 0 100 2] bindStarted).map fun s => s.resets.length) = some 0 := by
      decide +kernel
    rw [(runSteps_cons second).trans ((runSteps_cons third).trans (runSteps_cons fourth)), runSteps,
      Option.map_some] at resets
    intro reset member
    rw [List.length_eq_zero_iff.mp (Option.some_inj.mp resets)] at member
    cases member

theorem accounting_conserved_bound :
    ∃ s, runSteps (step · true) (bindFlow 1000 ++ [.hit 0 0 100 2, .count false 0 0 false])
        acctStart = some s ∧ s.counters (flowKey 1000) = (100, 2) ∧ s.Conserved := by
  have credited : ((runSteps (step · true) (bindFlow 1000 ++ [.hit 0 0 100 2,
      .count false 0 0 false]) acctStart).map fun s => s.counters (flowKey 1000)) =
        some (100, 2) := by
    decide +kernel
  obtain ⟨s, run, seen⟩ := Option.map_eq_some_iff.mp credited
  exact ⟨s, run, seen, accounting_conserved acctStart_fresh
    (reaches_of_runSteps bindFlow_orderly run)⟩

/-- A flow that is bound when the packets of another have not been read out is credited with
them. -/
theorem unread_credited_to_next :
    ¬∀ (v3 : Bool) (s s' : AcctState), s.Fresh → Reaches anyStep (step · v3) s s' →
      s'.Conserved := by
  intro always
  have credited : ((runSteps (step · true) (bindFlow 1000 ++ [.hit 0 0 100 2,
      .table (.delete 0 0 (learntFlow 2000)) none] ++ bindFlow 2000 ++ [.count false 0 0 false])
      acctStart).map fun s => (s.counters (flowKey 2000), s.owed (flowKey 2000))) =
        some ((100, 2), (0, 0)) := by
    decide +kernel
  obtain ⟨s, run, seen⟩ := Option.map_eq_some_iff.mp credited
  simp only [Prod.mk.injEq] at seen
  have conserved := always true _ s acctStart_fresh (reaches_of_runSteps allAllowed_anyStep run)
  have same := conserved.credited (flowKey 2000)
  rw [seen.1, seen.2] at same
  exact absurd same (by decide)

end AcctState

end MetaFilogic.Hnat
