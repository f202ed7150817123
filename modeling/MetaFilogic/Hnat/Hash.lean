import MetaFilogic.Hnat.Api
import Mathlib.Tactic.IntervalCases

/-!
# Tuples and hash buckets

`mtk_hnat_get_ppe_entry_by_index` gives the IPv4 addresses of an entry in network order,
and `mtk_hnat_calc_ppe_hash_index_by_tuple` hashes them as they are.  On a little-endian
host the two agree only where the byte order of the addresses does not reach the index.
The hash mixes its words by exclusive or, so what it makes of the reversed addresses
differs by a word that depends on the differences alone.
-/

namespace MetaFilogic.Hnat

open Fields

/-! ## The hash of a difference -/

def select (p a b : BitVec 32) : BitVec 32 := (p &&& a) ||| (~~~p &&& b)

theorem select_xor (p a b a' b' : BitVec 32) :
    select p a b ^^^ select p a' b' = select p (a ^^^ a') (b ^^^ b') := by
  unfold select
  ext i inside
  simp only [BitVec.getElem_xor, BitVec.getElem_or, BitVec.getElem_and, BitVec.getElem_not]
  cases p[i] <;> simp

/-- The rotation of `hnat_get_ppe_hash`. -/
def rol8 (x : BitVec 32) : BitVec 32 := (x >>> 24) ||| ((x &&& 0xffffff) <<< 8)

theorem rol8_eq (x : BitVec 32) : rol8 x = x >>> 24 ^^^ x <<< 8 := by
  unfold rol8
  refine BitVec.eq_of_getLsbD_eq fun i inside => ?_
  interval_cases i <;> simp

theorem rol8_xor (x y : BitVec 32) : rol8 x ^^^ rol8 y = rol8 (x ^^^ y) := by
  rw [rol8_eq, rol8_eq, rol8_eq, BitVec.ushiftRight_xor_distrib, BitVec.shiftLeft_xor_distrib]
  ac_rfl

/-- How far apart two hashes are whose second and third words differ by `da` and `db`. -/
def mixGap (p da db : BitVec 32) : BitVec 32 :=
  let gap := rol8 (select p da db) ^^^ (da ^^^ db)
  (gap ^^^ gap >>> 16) <<< 2

theorem mixHash_eq (p a b : BitVec 32) :
    mixHash p a b = (rol8 (select p a b) ^^^ (p ^^^ a ^^^ b) ^^^
      (rol8 (select p a b) ^^^ (p ^^^ a ^^^ b)) >>> 16) <<< 2 := rfl

theorem mixHash_xor (p a b a' b' : BitVec 32) :
    mixHash p a b ^^^ mixHash p a' b' = mixGap p (a ^^^ a') (b ^^^ b') := by
  have words : rol8 (select p a b) ^^^ (p ^^^ a ^^^ b) ^^^
      (rol8 (select p a' b') ^^^ (p ^^^ a' ^^^ b')) =
        rol8 (select p (a ^^^ a') (b ^^^ b')) ^^^ ((a ^^^ a') ^^^ (b ^^^ b')) := by
    rw [← select_xor, ← rol8_xor]
    have cancel : (p ^^^ a ^^^ b) ^^^ (p ^^^ a' ^^^ b') = (a ^^^ a') ^^^ (b ^^^ b') := by
      ext i inside
      simp only [BitVec.getElem_xor]
      cases p[i] <;> simp [Bool.xor_left_comm]
    rw [← cancel]
    ac_rfl
  rw [mixHash_eq, mixHash_eq, ← BitVec.shiftLeft_xor_distrib, mixGap, ← words]
  generalize rol8 (select p a b) ^^^ (p ^^^ a ^^^ b) = left
  generalize rol8 (select p a' b') ^^^ (p ^^^ a' ^^^ b') = right
  rw [BitVec.ushiftRight_xor_distrib]
  congr 1
  ac_rfl

/-! ## The rebuilt entry -/

variable {order : ByteOrder} {h : MtkHnat} {opt : HnatTuple} {entry : FoeEntry}

theorem tuple_ipv4 (order : ByteOrder) (opt : HnatTuple) (type : entry.isType IPV4_HNAPT = true) :
    let decoded := mtkHnatFoeToHnatTuple order entry opt
    decoded.pktType = IPV4_HNAPT.setWidth 16 ∧
      decoded.ingSipv4 = htonl order (Ipv4.sip.get entry) ∧
      decoded.ingDipv4 = htonl order (Ipv4.dip.get entry) ∧
      decoded.ingSp = Ipv4.sport.get entry ∧ decoded.ingDp = Ipv4.dport.get entry ∧
      decoded.ingDev = opt.ingDev := by
  have same : Bfib1.pktType.get entry = IPV4_HNAPT := eq_of_beq type
  simp only [mtkHnatFoeToHnatTuple, mtkHnatFoeToTupleL4, mtkHnatFoeToTupleL3,
    mtkHnatFoeToTupleL2, mtkHnatFoeToTupleInfoBlk, foeToTupleInfo2, type, same, if_true, and_self]

theorem tuple_ipv6 (order : ByteOrder) (opt : HnatTuple)
    (type : entry.isType IPV6_5T_ROUTE = true) :
    let decoded := mtkHnatFoeToHnatTuple order entry opt
    decoded.pktType = IPV6_5T_ROUTE.setWidth 16 ∧
      (decoded.ingSipv6 = fun i => (Ipv6.sip i).get entry) ∧
      (decoded.ingDipv6 = fun i => (Ipv6.dip i).get entry) ∧
      decoded.ingSp = Ipv6.sport.get entry ∧ decoded.ingDp = Ipv6.dport.get entry ∧
      decoded.ingDev = opt.ingDev := by
  have same : Bfib1.pktType.get entry = IPV6_5T_ROUTE := eq_of_beq type
  have other : entry.isType IPV4_HNAPT = false := by
    rw [FoeEntry.isType, same]
    rfl
  simp only [mtkHnatFoeToHnatTuple, mtkHnatFoeToTupleL4, mtkHnatFoeToTupleL3,
    mtkHnatFoeToTupleL2, mtkHnatFoeToTupleInfoBlk, foeToTupleInfo2, type, other, same, if_true,
    Bool.false_eq_true, if_false, and_self]

theorem isType_of_get {type : BitVec 5} (same : Bfib1.pktType.get entry = type)
    (other : BitVec 5) : entry.isType other = (type == other) := by
  rw [FoeEntry.isType, same]

theorem hashWords_ipv4 (same : Bfib1.pktType.get entry = IPV4_HNAPT) :
    hashWords entry = (u16Pair (Ipv4.sport.get entry) (Ipv4.dport.get entry),
      Ipv4.dip.get entry, Ipv4.sip.get entry) := by
  simp only [hashWords, isType_of_get same]
  rfl

theorem hashWords_ipv6 (same : Bfib1.pktType.get entry = IPV6_5T_ROUTE) :
    hashWords entry = ((Ipv6.sip 3).get entry ^^^ (Ipv6.dip 3).get entry ^^^
        u16Pair (Ipv6.sport.get entry) (Ipv6.dport.get entry),
      (Ipv6.sip 2).get entry ^^^ (Ipv6.dip 2).get entry ^^^ (Ipv6.dip 0).get entry,
      (Ipv6.sip 1).get entry ^^^ (Ipv6.dip 1).get entry ^^^ (Ipv6.sip 0).get entry) := by
  simp only [hashWords, isType_of_get same]
  rfl

theorem tupleToEntry_ipv4 (opt : HnatTuple) (type : opt.pktType = IPV4_HNAPT.setWidth 16) :
    ∃ rebuilt, tupleToEntry opt = some rebuilt ∧
      hashWords rebuilt = (u16Pair opt.ingSp opt.ingDp, opt.ingDipv4, opt.ingSipv4) := by
  refine ⟨_, if_pos type, ?_⟩
  rw [hashWords_ipv4]
  · simp (disch := decide) only [Field.get_set, Field.get_set_disjoint]
  · simp (disch := decide) only [Field.get_set, Field.get_set_disjoint]
    rw [type]
    rfl

theorem tupleToEntry_ipv6 (opt : HnatTuple) (type : opt.pktType = IPV6_5T_ROUTE.setWidth 16) :
    ∃ rebuilt, tupleToEntry opt = some rebuilt ∧
      hashWords rebuilt = (opt.ingSipv6 3 ^^^ opt.ingDipv6 3 ^^^ u16Pair opt.ingSp opt.ingDp,
        opt.ingSipv6 2 ^^^ opt.ingDipv6 2 ^^^ opt.ingDipv6 0,
        opt.ingSipv6 1 ^^^ opt.ingDipv6 1 ^^^ opt.ingSipv6 0) := by
  have notIpv4 : opt.pktType ≠ IPV4_HNAPT.setWidth 16 := by
    rw [type]
    decide
  have four : List.finRange 4 = [0, 1, 2, 3] := rfl
  refine ⟨_, (if_neg notIpv4).trans (if_pos type), ?_⟩
  rw [hashWords_ipv6]
  · simp (disch := decide) only [four, List.foldl_cons, List.foldl_nil, Field.get_set,
      Field.get_set_disjoint]
  · simp (disch := decide) only [four, List.foldl_cons, List.foldl_nil, Field.get_set,
      Field.get_set_disjoint]
    rw [type]
    rfl

/-! ## Agreement -/

/-- The index `mtk_hnat_calc_ppe_hash_index_by_tuple` gives for what
`mtk_hnat_get_ppe_entry_by_index` makes of the entry at an index. -/
def recalculated (order : ByteOrder) (devGetByName : List Char → Option MacId) (h : MtkHnat)
    (opt : HnatTuple) : Option (BitVec 16) :=
  match mtkHnatGetPpeEntryByIndex order h opt with
  | some (.success, decoded) =>
    match mtkHnatCalcPpeHashIndexByTuple devGetByName h decoded with
    | (.success, found) => some found.hashIndex
    | _ => none
  | _ => none

/-- The differences between the addresses of an IPv4 entry and the addresses with their
bytes reversed do not reach the bits of a hash index. -/
def SwabHidden (h : MtkHnat) (entry : FoeEntry) : Prop :=
  let gap (x : BitVec 32) := x ^^^ swab32 x
  (mixGap (u16Pair (Ipv4.sport.get entry) (Ipv4.dport.get entry)) (gap (Ipv4.dip.get entry))
    (gap (Ipv4.sip.get entry)) &&& (BitVec.ofNat 32 h.foeEtryNum - 1)).setWidth 16 = 0

theorem masked_eq_iff (x y mask : BitVec 32) :
    (x &&& mask).setWidth 16 = (y &&& mask).setWidth 16 ↔
      ((x ^^^ y) &&& mask).setWidth 16 = 0 := by
  have spread : ((x ^^^ y) &&& mask).setWidth 16 =
      (x &&& mask).setWidth 16 ^^^ (y &&& mask).setWidth 16 := by
    ext i inside
    simp [Bool.and_xor_distrib_right]
  rw [spread]
  exact BitVec.xor_eq_zero_iff.symm

/-- The tuple of an entry leads back to its bucket exactly when it names a device, and the
entry is an IPv6 one, the host is big-endian, or the reversal of the addresses is hidden
from the index. -/
theorem tuple_hash_iff (devGetByName : List Char → Option MacId)
    (inPpe : opt.ppeIndex.toNat < h.ppeNum) (inTable : opt.hashIndex.toNat < h.foeEtryNum)
    (placed : h.foeEntry opt.ppeIndex.toNat opt.hashIndex.toNat = some entry)
    (bound : entry.isBound = true)
    (type : entry.isType IPV4_HNAPT = true ∨ entry.isType IPV6_5T_ROUTE = true)
    (bucket : (opt.hashIndex &&& ~~~3).setWidth 32 = hnatGetPpeHash h entry) :
    recalculated order devGetByName h opt = some (opt.hashIndex &&& ~~~3) ↔
      (devGetByName opt.ingDev).isSome = true ∧
        (entry.isType IPV6_5T_ROUTE = true ∨ order = .big ∨ SwabHidden h entry) := by
  have inside : ¬(opt.ppeIndex.toNat ≥ h.ppeNum ∨ opt.hashIndex.toNat ≥ h.foeEtryNum) := by omega
  have got : mtkHnatGetPpeEntryByIndex order h opt =
      some (.success, mtkHnatFoeToHnatTuple order entry opt) := by
    rw [mtkHnatGetPpeEntryByIndex, if_neg inside, placed, Option.map_some, if_pos bound]
  have own : opt.hashIndex &&& ~~~3 = (hnatGetPpeHash h entry).setWidth 16 := by
    rw [← bucket, BitVec.setWidth_setWidth_of_le _ (by decide), BitVec.setWidth_eq]
  have passed : (mtkHnatFoeToHnatTuple order entry opt).ingDev = opt.ingDev := by
    rcases type with ipv4 | ipv6
    · exact (tuple_ipv4 order opt ipv4).2.2.2.2.2
    · exact (tuple_ipv6 order opt ipv6).2.2.2.2.2
  rw [recalculated, got, own]
  dsimp only
  cases named : devGetByName opt.ingDev with
  | none =>
    have lost : devGetByName (mtkHnatFoeToHnatTuple order entry opt).ingDev = none := by
      rw [passed, named]
    simp [mtkHnatCalcPpeHashIndexByTuple, lost]
  | some macId =>
    have found : devGetByName (mtkHnatFoeToHnatTuple order entry opt).ingDev = some macId := by
      rw [passed, named]
    rw [Option.isSome_some, and_iff_right rfl]
    rcases type with ipv4 | ipv6
    · obtain ⟨isIpv4, sip, dip, sp, dp, -⟩ := tuple_ipv4 order opt ipv4
      generalize mtkHnatFoeToHnatTuple order entry opt = decoded at *
      obtain ⟨rebuilt, build, words⟩ :=
        tupleToEntry_ipv4 { decoded with ppeIndex := ppeOfMac h macId } isIpv4
      have same : Bfib1.pktType.get entry = IPV4_HNAPT := eq_of_beq ipv4
      have notIpv6 : entry.isType IPV6_5T_ROUTE = false := by
        rw [isType_of_get same]
        rfl
      rw [mtkHnatCalcPpeHashIndexByTuple, found]
      dsimp only
      rw [build]
      dsimp only
      rw [Option.some_inj, hnatGetPpeHash, hnatGetPpeHash, words, hashWords_ipv4 same]
      dsimp only
      rw [sip, dip, sp, dp, masked_eq_iff, mixHash_xor]
      cases order with
      | big => simp [htonl, mixGap, select, rol8]
      | little =>
        simp only [notIpv6, Bool.false_eq_true, false_or, reduceCtorEq, SwabHidden, htonl,
          BitVec.xor_comm]
    · obtain ⟨isIpv6, sip, dip, sp, dp, -⟩ := tuple_ipv6 order opt ipv6
      generalize mtkHnatFoeToHnatTuple order entry opt = decoded at *
      obtain ⟨rebuilt, build, words⟩ :=
        tupleToEntry_ipv6 { decoded with ppeIndex := ppeOfMac h macId } isIpv6
      have same : Bfib1.pktType.get entry = IPV6_5T_ROUTE := eq_of_beq ipv6
      rw [mtkHnatCalcPpeHashIndexByTuple, found]
      dsimp only
      rw [build]
      dsimp only
      refine iff_of_true ?_ (.inl ipv6)
      rw [hnatGetPpeHash, hnatGetPpeHash, words, hashWords_ipv6 same]
      dsimp only
      rw [sip, dip, sp, dp]

/-! A bound UDP flow from an address to port 53 of 8.8.8.8. -/

def dnsFlow (sip : BitVec 32) : FoeEntry :=
  Bfib1.state.set BIND (Ipv4.sip.set sip (Ipv4.dip.set 0x08080808
    (Ipv4.sport.set 40000 (Ipv4.dport.set 53 FoeEntry.zero))))

def requestOf (hashIndex : BitVec 16) : HnatTuple :=
  { HnatTuple.zero with
    hashIndex
    ingDev := ['l', 'a', 'n'] }

def lanOnGmac1 (name : List Char) : Option MacId :=
  if name = ['l', 'a', 'n'] then some .gmac1 else none

/-- The address 192.168.168.192 reads the same in both byte orders. -/
theorem tuple_hash_iff_palindrome :
    recalculated .little lanOnGmac1 (onePpe fun _ => dnsFlow 0xc0a8a8c0) (requestOf 1013) =
        some 1012 ↔
      (lanOnGmac1 ['l', 'a', 'n']).isSome = true ∧
        ((dnsFlow 0xc0a8a8c0).isType IPV6_5T_ROUTE = true ∨ ByteOrder.little = .big ∨
          SwabHidden (onePpe fun _ => dnsFlow 0xc0a8a8c0) (dnsFlow 0xc0a8a8c0)) :=
  tuple_hash_iff lanOnGmac1 (by decide) (by decide) (onePpe_foeEntry (by decide)) (by decide)
    (.inl (by decide)) (by decide)

/-- The entry of the flow from 192.168.1.2 is in bucket 600, and its tuple leads to 88. -/
theorem tuple_hash_other_bucket :
    ¬∀ (order : ByteOrder) (devGetByName : List Char → Option MacId) (h : MtkHnat)
        (opt : HnatTuple) (entry : FoeEntry),
      opt.ppeIndex.toNat < h.ppeNum → opt.hashIndex.toNat < h.foeEtryNum →
      h.foeEntry opt.ppeIndex.toNat opt.hashIndex.toNat = some entry →
      entry.isBound = true →
      entry.isType IPV4_HNAPT = true ∨ entry.isType IPV6_5T_ROUTE = true →
      (opt.hashIndex &&& ~~~3).setWidth 32 = hnatGetPpeHash h entry →
      (devGetByName opt.ingDev).isSome = true →
      recalculated order devGetByName h opt = some (opt.hashIndex &&& ~~~3) := by
  intro always
  have agrees := always .little lanOnGmac1 (onePpe fun _ => dnsFlow 0xc0a80102) (requestOf 600)
    (dnsFlow 0xc0a80102) (by decide) (by decide) (onePpe_foeEntry (by decide)) (by decide)
    (.inl (by decide)) (by decide) (by decide)
  have got : recalculated .little lanOnGmac1 (onePpe fun _ => dnsFlow 0xc0a80102)
      (requestOf 600) = some 88 := by
    rw [recalculated, mtkHnatGetPpeEntryByIndex, if_neg (by decide)]
    rw [show (requestOf 600).ppeIndex.toNat = 0 from rfl, onePpe_foeEntry (by decide)]
    decide +kernel
  rw [got] at agrees
  exact absurd agrees (by decide)

end MetaFilogic.Hnat
