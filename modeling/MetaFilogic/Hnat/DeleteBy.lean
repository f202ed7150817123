import MetaFilogic.Hnat.Neigh
import MetaFilogic.Hnat.Visits

/-!
# Deleting entries by address

`entry_delete_by_mac` and `entry_delete_by_ip` go over all tables.  Both look for the addresses of
an entry at places that depend on its packet type, and some packet types are missing there.
-/

namespace MetaFilogic.Hnat

open Fields

/-! ## The addresses of an entry -/

def Member.macs (member : Member) (entry : FoeEntry) : Mac × Mac :=
  (member.smacHi.get entry ++ member.smacLo.get entry,
    member.dmacHi.get entry ++ member.dmacLo.get entry)

def Member.hasMac (member : Member) (entry : FoeEntry) (mac : Mac) : Bool :=
  (member.macs entry).1 == mac || (member.macs entry).2 == mac

def egressEther (entry : FoeEntry) : Member :=
  if entry.isType L2_BRIDGE then l2Bridge else egressMember entry

def hasEgressMac (mac : Mac) (entry : FoeEntry) : Bool := (egressEther entry).hasMac entry mac

/-- The sources of the packets that a PPE gets for an entry.  An entry of a tunnel has one in the
inner header and one in the outer. -/
def originalSrcs (entry : FoeEntry) : List IpAddr :=
  if entry.isIpv4Grp then [.ip4 (Ipv4.sip.get entry)]
  else if entry.isType IPV4_DSLITE || entry.isType IPV4_MAP_E || entry.isType IPV4_MAP_T then
    [.ip4 (Ipv4.sip.get entry), .ip6 fun i => (Ipv4.tunnelSipv6 i).get entry]
  else if entry.isType IPV6_6RD then
    [.ip6 fun i => (Ipv6.sip i).get entry, .ip4 (Ipv6.tunnelSipv4.get entry)]
  else if entry.isType IPV6_3T_ROUTE || entry.isType IPV6_5T_ROUTE ||
      entry.isType IPV6_HNAPT || entry.isType IPV6_HNAT then
    [.ip6 fun i => (Ipv6.sip i).get entry]
  else []

def egressDsts (entry : FoeEntry) : List IpAddr :=
  if entry.isIpv4Grp then [.ip4 (Ipv4.newDip.get entry)]
  else if entry.isType IPV4_DSLITE then
    [.ip4 (Ipv4.dip.get entry), .ip6 fun i => (Ipv4.tunnelDipv6 i).get entry]
  else if entry.isType IPV4_MAP_E || entry.isType IPV4_MAP_T then
    [.ip4 (Mape.newDip.get entry), .ip6 fun i => (Ipv4.tunnelDipv6 i).get entry]
  else if entry.isType IPV6_6RD then
    [.ip6 fun i => (Ipv6.dip i).get entry, .ip4 (Ipv6.tunnelDipv4.get entry)]
  else if entry.isType IPV6_3T_ROUTE || entry.isType IPV6_5T_ROUTE then
    [.ip6 fun i => (Ipv6.dip i).get entry]
  else if entry.isType IPV6_HNAPT || entry.isType IPV6_HNAT then
    [.ip6 fun i =>
      (if Ipv6.egIpv6Dir.get entry = IPV6_SNAT then Ipv6.dip i else Ipv6.newIpv6Ip i).get entry]
  else []

def hasEndIp (addr : IpAddr) (entry : FoeEntry) : Bool :=
  decide (addr ∈ originalSrcs entry ∨ addr ∈ egressDsts entry)

/-! ## What the comparisons miss -/

/-- For a bridged entry, the words where the driver looks have the address if and only if those of
the egress header have it. -/
def MacCompared (mac : Mac) (entry : FoeEntry) : Prop :=
  entry.isType L2_BRIDGE → ipv65tRoute.hasMac entry mac = l2Bridge.hasMac entry mac

/-- An entry of MAP-T does not have the address; for one of MAP-E and for one that translates IPv6
sources, the driver's destination is the address if and only if the egress destination is. -/
structure IpCompared (addr : IpAddr) (entry : FoeEntry) : Prop where
  mapt : entry.isType IPV4_MAP_T → hasEndIp addr entry = false
  mape : entry.isType IPV4_MAP_E → addr ≠ .ip4 (Ipv4.sip.get entry) →
    (addr = .ip4 (Ipv4.dip.get entry) ↔ addr = .ip4 (Mape.newDip.get entry))
  snat : entry.isType IPV6_HNAPT ∨ entry.isType IPV6_HNAT →
    Ipv6.egIpv6Dir.get entry = IPV6_SNAT → (addr ≠ .ip6 fun i => (Ipv6.sip i).get entry) →
    ((addr = .ip6 fun i => (Ipv6.newIpv6Ip i).get entry) ↔
      addr = .ip6 fun i => (Ipv6.dip i).get entry)

section Compare

variable {entry : FoeEntry} {mac : Mac} {addr : IpAddr}

theorem mac_halves_iff (high : BitVec 32) (low : BitVec 16) :
    (swab32 high == macHi mac && swab16 low == macLo mac) = (high ++ low == mac) := by
  rw [Bool.eq_iff_iff, Bool.and_eq_true, beq_iff_eq, beq_iff_eq, beq_iff_eq]
  unfold macHi macLo
  constructor
  · rintro ⟨sameHigh, sameLow⟩
    rw [← swab32_swab32 high, ← swab16_swab16 low, sameHigh, sameLow, swab32_swab32,
      swab16_swab16]
    exact @BitVec.extractLsb'_append_extractLsb' 32 16 mac
  · rintro rfl
    exact ⟨congrArg swab32 BitVec.extractLsb'_append_eq_left.symm,
      congrArg swab16 BitVec.extractLsb'_append_eq_right.symm⟩

theorem entryMacCmp_any :
    entryMacCmp entry mac ENTRY_CMP_ANY =
      (if entry.isIpv4Grp then ipv4Hnapt else ipv65tRoute).hasMac entry mac := by
  unfold entryMacCmp Member.hasMac Member.macs ENTRY_CMP_ANY
  dsimp only
  rw [Bool.true_and, Bool.true_and, mac_halves_iff, mac_halves_iff]

theorem egressMember_hasMac :
    (egressMember entry).hasMac entry mac =
      (if entry.isIpv4Grp then ipv4Hnapt else ipv65tRoute).hasMac entry mac := by
  rw [egressMember]
  split
  · rfl
  · split_ifs <;> rfl

theorem macCompared_iff :
    entryMacCmp entry mac ENTRY_CMP_ANY = hasEgressMac mac entry ↔ MacCompared mac entry := by
  rw [entryMacCmp_any, hasEgressMac, egressEther, MacCompared]
  by_cases bridged : entry.isType L2_BRIDGE = true
  · have notIp : entry.isIpv4Grp = false := isIpv4Grp_of_isType bridged
    rw [if_pos bridged, notIp, if_neg Bool.false_ne_true]
    simp only [bridged, forall_const]
  · rw [if_neg bridged, egressMember_hasMac]
    exact iff_of_true rfl fun is => absurd is bridged

def comparedIps (entry : FoeEntry) : List IpAddr :=
  ((ipv4CmpFields entry).elim [] fun fields =>
    [.ip4 (fields.1.get entry), .ip4 (fields.2.get entry)]) ++
  (ipv6CmpFields entry).elim [] fun fields =>
    [.ip6 fun i => (fields.1 i).get entry, .ip6 fun i => (fields.2 i).get entry]

theorem entryIpCmp_any : entryIpCmp entry addr ENTRY_CMP_ANY = true ↔ addr ∈ comparedIps entry := by
  unfold entryIpCmp comparedIps ENTRY_CMP_ANY
  cases addr with
  | ip4 ip =>
    cases ipv4CmpFields entry with
    | none => cases ipv6CmpFields entry <;> simp
    | some fields =>
      have turn (field : FoeField 32) : field.get entry = ip ↔ ip = field.get entry := eq_comm
      cases ipv6CmpFields entry <;> simp [turn]
  | ip6 ip =>
    cases ipv6CmpFields entry with
    | none => cases ipv4CmpFields entry <;> simp
    | some fields =>
      have turn (fields : Fin 4 → FoeField 32) :
          (∀ i, (fields i).get entry = ip i) ↔ ip = fun i => (fields i).get entry := by
        rw [eq_comm, funext_iff]
      cases ipv4CmpFields entry <;> simp [turn]

theorem hasEndIp_iff :
    hasEndIp addr entry = true ↔ addr ∈ originalSrcs entry ∨ addr ∈ egressDsts entry :=
  decide_eq_true_iff

/-- Comparing addresses finds the ends of an entry exactly under the condition. -/
theorem ipCompared_iff :
    entryIpCmp entry addr ENTRY_CMP_ANY = hasEndIp addr entry ↔ IpCompared addr entry := by
  have parts : IpCompared addr entry ↔
      (entry.isType IPV4_MAP_T → ¬(addr ∈ originalSrcs entry ∨ addr ∈ egressDsts entry)) ∧
      (entry.isType IPV4_MAP_E → addr ≠ .ip4 (Ipv4.sip.get entry) →
        (addr = .ip4 (Ipv4.dip.get entry) ↔ addr = .ip4 (Mape.newDip.get entry))) ∧
      (entry.isType IPV6_HNAPT ∨ entry.isType IPV6_HNAT →
        Ipv6.egIpv6Dir.get entry = IPV6_SNAT → (addr ≠ .ip6 fun i => (Ipv6.sip i).get entry) →
        ((addr = .ip6 fun i => (Ipv6.newIpv6Ip i).get entry) ↔
          addr = .ip6 fun i => (Ipv6.dip i).get entry)) := by
    rw [← hasEndIp_iff, Bool.not_eq_true]
    exact ⟨fun ⟨mapt, mape, snat⟩ => ⟨mapt, mape, snat⟩,
      fun ⟨mapt, mape, snat⟩ => ⟨mapt, mape, snat⟩⟩
  have types : entry.isIpv4Grp ∨ entry.isType IPV4_DSLITE ∨ entry.isType IPV4_MAP_E ∨
      entry.isType IPV4_MAP_T ∨ (entry.isType IPV6_3T_ROUTE ∨ entry.isType IPV6_5T_ROUTE) ∨
      entry.isType IPV6_6RD ∨ (entry.isType IPV6_HNAPT ∨ entry.isType IPV6_HNAT) ∨
      (originalSrcs entry = [] ∧ egressDsts entry = [] ∧ ipv4CmpFields entry = none ∧
        ipv6CmpFields entry = none ∧ ¬entry.isType IPV4_MAP_E ∧ ¬entry.isType IPV4_MAP_T ∧
        ¬(entry.isType IPV6_HNAPT ∨ entry.isType IPV6_HNAT)) := by
    unfold originalSrcs egressDsts ipv4CmpFields ipv6CmpFields FoeEntry.isIpv4Grp
    grind
  rw [parts, Bool.eq_iff_iff, entryIpCmp_any, hasEndIp_iff, comparedIps]
  clear parts
  rcases types with is | is | is | is | is | is | is |
    ⟨srcs, dsts, cmp4, cmp6, notMape, notMapt, notNat⟩
  · rcases Bool.or_eq_true _ _ ▸ is with is | is <;>
      simp [originalSrcs, egressDsts, ipv4CmpFields, ipv6CmpFields, isIpv4Grp_of_isType is,
        isType_of_isType is]
  · simp [originalSrcs, egressDsts, ipv4CmpFields, ipv6CmpFields, isIpv4Grp_of_isType is,
      isType_of_isType is]
    tauto
  · simp [originalSrcs, egressDsts, ipv4CmpFields, ipv6CmpFields, isIpv4Grp_of_isType is,
      isType_of_isType is]
    cases addr with
    | ip4 ip =>
      simp only [IpAddr.ip4.injEq, reduceCtorEq, or_false]
      tauto
    | ip6 ip => simp only [reduceCtorEq, false_or, iff_self, implies_true]
  · simp [originalSrcs, egressDsts, ipv4CmpFields, ipv6CmpFields, isIpv4Grp_of_isType is,
      isType_of_isType is]
  · rcases is with is | is <;>
      simp [originalSrcs, egressDsts, ipv4CmpFields, ipv6CmpFields, isIpv4Grp_of_isType is,
        isType_of_isType is]
  · simp [originalSrcs, egressDsts, ipv4CmpFields, ipv6CmpFields, isIpv4Grp_of_isType is,
      isType_of_isType is]
    tauto
  · rcases is with is | is <;>
      simp [originalSrcs, egressDsts, ipv4CmpFields, ipv6CmpFields, isIpv4Grp_of_isType is,
        isType_of_isType is]
    · by_cases dir : Ipv6.egIpv6Dir.get entry = 0#1 <;> simp [dir]
      grind
    · by_cases dir : Ipv6.egIpv6Dir.get entry = 0#1 <;> simp [dir]
      grind
  · rw [srcs, dsts, cmp4, cmp6]
    exact iff_of_true (by simp) ⟨fun is => absurd is notMapt, fun is => absurd is notMape,
      fun is => absurd is notNat⟩

end Compare

/-! ## Deletions -/

section Delete

variable {stamps : Nat → Nat → BitVec 8} {h : MtkHnat}

theorem deleteMatching_changes (isMatch : FoeEntry → Bool) (ppe index : Nat) (entry : FoeEntry) :
    deleteMatching stamps isMatch ppe index entry ≠ some entry := by
  unfold deleteMatching
  by_cases matched : (entry.isBound && isMatch entry) = true
  · rw [if_pos matched]
    intro same
    have unbound := isBound_entryDelete (stamps ppe index) entry
    rw [Option.some.inj same] at unbound
    rw [unbound, Bool.false_and] at matched
    exact absurd matched Bool.false_ne_true
  · rw [if_neg matched]
    exact nofun

theorem deleteMatching_eq_iff {left right : FoeEntry → Bool} (ppe index : Nat) (entry : FoeEntry) :
    deleteMatching stamps left ppe index entry = deleteMatching stamps right ppe index entry ↔
      (entry.isBound → left entry = right entry) := by
  unfold deleteMatching
  cases entry.isBound with
  | false => simp
  | true => cases left entry <;> cases right entry <;> simp

theorem deleteMatching_none_iff {isMatch : FoeEntry → Bool} (ppe index : Nat) (entry : FoeEntry) :
    none = deleteMatching stamps isMatch ppe index entry ↔
      (entry.isBound → isMatch entry = false) := by
  unfold deleteMatching
  cases entry.isBound with
  | false => simp
  | true => cases isMatch entry <;> simp

/-- A pass that deletes by one test deletes what another asks for, and counts it, exactly when it
stays inside the tables and the tests agree about the bound entries. -/
theorem deletes_exact_iff (cmp has : FoeEntry → Bool) (count : Nat) :
    walkPpes false (deleteMatching stamps cmp) count h.ppeNum h =
        some (h.treated (deleteMatching stamps has) h.ppeNum,
          h.visitAll (deleteMatching stamps has) h.ppeNum) ↔
      h.Sized count h.ppeNum ∧
      ∀ ppe < h.ppeNum, ∀ table, h.foeTableCpu ppe = some table →
        ∀ index entry, table[index]? = some entry → entry.isBound →
          if index < count then cmp entry = has entry else has entry = false := by
  rw [walkPpes_exact_iff (deleteMatching_changes cmp) (deleteMatching_changes has)]
  refine and_congr_right fun _ => forall_congr' fun ppe => forall_congr' fun _ =>
    forall_congr' fun table => forall_congr' fun _ => forall_congr' fun index =>
    forall_congr' fun entry => forall_congr' fun _ => ?_
  unfold visited
  by_cases inside : index < count
  · rw [if_pos inside, if_pos inside]
    exact deleteMatching_eq_iff ppe index entry
  · rw [if_neg inside, if_neg inside]
    exact deleteMatching_none_iff ppe index entry

end Delete

/-- Deleting by address deletes the bound entries with the address, and returns their number,
exactly when every table has as many entries as are visited, with no match behind them, and none of
the bound entries is one that the comparisons miss or mistake. -/
theorem entryDeleteBy_exact_iff (stamps : Nat → Nat → BitVec 8) (h : MtkHnat) :
    (∀ mac, entryDeleteByMac stamps mac h =
          some (h.treated (deleteMatching stamps (hasEgressMac mac)) h.ppeNum,
            h.visitAll (deleteMatching stamps (hasEgressMac mac)) h.ppeNum) ↔
        h.Sized DEF_ETRY_NUM h.ppeNum ∧
        ∀ ppe < h.ppeNum, ∀ table, h.foeTableCpu ppe = some table →
          ∀ index entry, table[index]? = some entry → entry.isBound →
            if index < DEF_ETRY_NUM then MacCompared mac entry
            else hasEgressMac mac entry = false) ∧
      ∀ addr, entryDeleteByIp stamps addr h =
          some (h.treated (deleteMatching stamps (hasEndIp addr)) h.ppeNum,
            h.visitAll (deleteMatching stamps (hasEndIp addr)) h.ppeNum) ↔
        h.Sized DEF_ETRY_NUM h.ppeNum ∧
        ∀ ppe < h.ppeNum, ∀ table, h.foeTableCpu ppe = some table →
          ∀ index entry, table[index]? = some entry → entry.isBound →
            if index < DEF_ETRY_NUM then IpCompared addr entry
            else hasEndIp addr entry = false := by
  constructor
  · intro mac
    unfold entryDeleteByMac
    rw [deletes_exact_iff]
    simp only [macCompared_iff]
  · intro addr
    unfold entryDeleteByIp
    rw [deletes_exact_iff]
    simp only [ipCompared_iff]

def bridgedEntry : FoeEntry :=
  l2Bridge.dmacLo.set 1 (Bfib1.pktType.set L2_BRIDGE (Bfib1.state.set BIND FoeEntry.zero))

def bridgedPpe : MtkHnat where
  ppeNum := 1
  foeEtryNum := DEF_ETRY_NUM
  etryNumCfg := DEF_ETRY_NUM_CFG
  foeTableCpu _ := some (List.replicate DEF_ETRY_NUM bridgedEntry)
  foeFlow _ := none
  tbEtryNum _ := DEF_ETRY_NUM_CFG

theorem bridged_not_deleted :
    ¬entryDeleteByMac (fun _ _ => 0) 1 bridgedPpe =
      some (bridgedPpe.treated (deleteMatching (fun _ _ => 0) (hasEgressMac 1)) 1,
        bridgedPpe.visitAll (deleteMatching (fun _ _ => 0) (hasEgressMac 1)) 1) := by
  intro exact
  obtain ⟨-, same⟩ := (deletes_exact_iff _ _ _).mp exact
  have first : (List.replicate DEF_ETRY_NUM bridgedEntry)[0]? = some bridgedEntry := rfl
  have agree := same 0 Nat.one_pos _ rfl 0 bridgedEntry first (by decide)
  rw [if_pos (by decide)] at agree
  exact absurd agree (by decide)

end MetaFilogic.Hnat
