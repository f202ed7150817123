import MetaFilogic.Hnat.Mcast
import Mathlib.Data.Fintype.Pi
import Mathlib.Tactic.FinCases
import Mathlib.Tactic.IntervalCases

/-!
# The counted multicast table

The table `hnat_mcast_table_update` keeps is exact as long as the lookup meets the
group before a free slot, no counter overflows, and every leave has a join to take
back.  `mcast_entry_get` stops at the first free slot, so once an earlier group has
gone, the next notification for a later one starts a second entry for it.
-/

namespace MetaFilogic.Hnat

open Function (update update_self update_of_ne update_eq_self update_idem)

variable {cfg : McastConfig} {table : McastTable} {joins : Joins}

/-! ## Masks and registers -/

theorem portMask_bits (ifNum : McastPort → BitVec 8) :
    (∀ p : McastPort, (portMask ifNum).getLsbD p.val = decide (0 < ifNum p)) ∧
      (portMask ifNum = 0 ↔ ∀ p, ¬0 < ifNum p) := by
  have fold : ∀ has : McastPort → Bool,
      (∀ p : McastPort, ((List.finRange MAX_MCAST_PORT).foldl (fun mask i =>
        if has i then mask ||| (1 : BitVec 8) <<< i.val else mask) 0).getLsbD p.val = has p) ∧
      ((List.finRange MAX_MCAST_PORT).foldl (fun mask i =>
        if has i then mask ||| (1 : BitVec 8) <<< i.val else mask) 0 = 0 ↔
          ∀ p, has p = false) := by
    decide
  have result := fold fun p => decide (0 < ifNum p)
  simp only [decide_eq_true_eq, decide_eq_false_iff_not] at result
  exact result

theorem mcastHValue_bit (mcPort : BitVec 8) (mpreSel : BitVec 2) (p : McastPort) :
    (mcastHValue mcPort mpreSel).getLsbD (15 + p.val) = mcPort.getLsbD p.val := by
  unfold mcastHValue
  fin_cases p <;> simp

theorem mcastOffset_inj {i j : Nat} (iSmall : i < MAX_MCAST_ENTRY) (jSmall : j < MAX_MCAST_ENTRY)
    (different : i ≠ j) :
    mcastH i ≠ mcastH j ∧ mcastH i ≠ mcastL j ∧ mcastL i ≠ mcastH j ∧ mcastL i ≠ mcastL j := by
  unfold mcastH mcastL mcastOffset PPE_MCAST_H_0 PPE_MCAST_L_0 PPE_MCAST_H_10 PPE_MCAST_L_10
  unfold MAX_MCAST_ENTRY at iSmall jSmall
  split <;> split <;> omega

theorem mcastH_ne_mcastL (i : Nat) : mcastH i ≠ mcastL i := by
  unfold mcastH mcastL mcastOffset PPE_MCAST_H_0 PPE_MCAST_L_0 PPE_MCAST_H_10 PPE_MCAST_L_10
  split <;> omega

theorem forPpes_apply {body : Nat → Registers → Registers} {row : (Int → BitVec 32) → Int → BitVec 32}
    (own : ∀ ppeId regs, body ppeId regs = update regs ppeId (row (regs ppeId)))
    (count : Nat) (regs : Registers) (ppeId : Nat) :
    forPpes count body regs ppeId = if ppeId < count then row (regs ppeId) else regs ppeId := by
  induction count with
  | zero => rfl
  | succ count ih =>
    have step : forPpes (count + 1) body regs = body count (forPpes count body regs) := by
      simp only [forPpes, List.range_succ, List.foldl_append, List.foldl_cons, List.foldl_nil]
    rw [step, own]
    by_cases last : ppeId = count
    · subst last
      rw [update_self, ih, if_neg (lt_irrefl ppeId), if_pos (Nat.lt_succ_self ppeId)]
    · rw [update_of_ne last, ih]
      exact if_congr (by omega) rfl rfl

def slotRow (index : Nat) (high low : BitVec 32) (row : Int → BitVec 32) : Int → BitVec 32 :=
  update (update row (mcastH index) high) (mcastL index) low

theorem writel_pair (index ppeId : Nat) (high low : BitVec 32) (regs : Registers) :
    writel ppeId (mcastL index) low (writel ppeId (mcastH index) high regs) =
      update regs ppeId (slotRow index high low (regs ppeId)) := by
  unfold writel
  rw [update_self, update_idem]
  rfl

theorem slotRow_high (index : Nat) (high low : BitVec 32) (row : Int → BitVec 32) :
    slotRow index high low row (mcastH index) = high := by
  unfold slotRow
  rw [update_of_ne (mcastH_ne_mcastL index), update_self]

theorem slotRow_low (index : Nat) (high low : BitVec 32) (row : Int → BitVec 32) :
    slotRow index high low row (mcastL index) = low :=
  update_self ..

variable {index : Nat} {dmac : Mac} {vid : BitVec 16} {group : McastGroup} {port : McastPort}

theorem slotRow_other {other : Nat} (high low : BitVec 32) (row : Int → BitVec 32)
    (small : index < MAX_MCAST_ENTRY) (otherSmall : other < MAX_MCAST_ENTRY)
    (different : other ≠ index) :
    slotRow index high low row (mcastH other) = row (mcastH other) ∧
      slotRow index high low row (mcastL other) = row (mcastL other) := by
  obtain ⟨highHigh, highLow, lowHigh, lowLow⟩ := mcastOffset_inj otherSmall small different
  unfold slotRow
  exact ⟨by rw [update_of_ne highLow, update_of_ne highHigh],
    by rw [update_of_ne lowLow, update_of_ne lowHigh]⟩

/-- The two address families of `get_mac_from_mdb_entry` are the two prefixes
`set_hnat_mtbl` knows. -/
theorem dmacToHi16_group {addr : GroupAddr} (group : getMacFromMdbEntry addr = some dmac) :
    dmacToHi16 dmac = 0x0100 ∨ dmacToHi16 dmac = 0x3333 := by
  cases addr with
  | ip4 ip =>
    left
    obtain rfl := Option.some.inj group
    apply BitVec.eq_of_getLsbD_eq
    intro i inside
    interval_cases i <;> simp [dmacToHi16]
  | ip6 ip =>
    right
    obtain rfl := Option.some.inj group
    apply BitVec.eq_of_getLsbD_eq
    intro i inside
    interval_cases i <;> simp [dmacToHi16]
  | other => exact absurd group nofun

theorem setHnatMtbl_row (group : McastGroup)
    (known : dmacToHi16 group.dmac = 0x0100 ∨ dmacToHi16 group.dmac = 0x3333) (index : Nat) :
    ∃ mpreSel, ∀ ppeId regs, setHnatMtbl group index ppeId regs =
      update regs ppeId (slotRow index (mcastHValue group.mcPort mpreSel)
        (dmacToLo32 group.dmac) (regs ppeId)) := by
  rcases known with ip4 | ip6
  · refine ⟨0, fun ppeId regs => ?_⟩
    rw [← writel_pair, setHnatMtbl, if_pos ip4]
  · refine ⟨1, fun ppeId regs => ?_⟩
    have notIp4 : dmacToHi16 group.dmac ≠ 0x0100 := by
      rw [ip6]
      decide
    rw [← writel_pair, setHnatMtbl, if_neg notIp4, if_pos ip6]

theorem clrHnatMtbl_row (index ppeId : Nat) (regs : Registers) :
    clrHnatMtbl index ppeId regs =
      update regs ppeId (slotRow index 0 0 (regs ppeId)) :=
  writel_pair index ppeId 0 0 regs

/-! ## The invariant -/

def McastGroup.Is (group : McastGroup) (vid : BitVec 16) (dmac : Mac) : Prop :=
  group.valid = true ∧ group.vid = vid ∧ group.dmac = dmac

instance (group : McastGroup) (vid : BitVec 16) (dmac : Mac) : Decidable (group.Is vid dmac) :=
  inferInstanceAs (Decidable (_ ∧ _ ∧ _))

/-- A slot in use counts the members of its group, and the registers have its mask. -/
structure UsedSlot (cfg : McastConfig) (table : McastTable) (joins : Joins) (i : Nat) : Prop where
  ifNum : ∀ p, ((table.mtbl i).ifNum p).toNat = joins (table.mtbl i).vid (table.mtbl i).dmac p
  joined : joins.Joined (table.mtbl i).vid (table.mtbl i).dmac
  mask : ∀ ppeId < cfg.ppeNum, ∃ mpreSel,
    table.regs ppeId (mcastH i) = mcastHValue (portMask (table.mtbl i).ifNum) mpreSel

structure FreeSlot (cfg : McastConfig) (table : McastTable) (i : Nat) : Prop where
  ifNum : ∀ p, (table.mtbl i).ifNum p = 0
  high : ∀ ppeId < cfg.ppeNum, table.regs ppeId (mcastH i) = 0
  low : ∀ ppeId < cfg.ppeNum, table.regs ppeId (mcastL i) = 0

structure Counts (cfg : McastConfig) (table : McastTable) (joins : Joins) : Prop where
  used : ∀ i < cfg.maxEntry, (table.mtbl i).valid = true → UsedSlot cfg table joins i
  free : ∀ i < cfg.maxEntry, (table.mtbl i).valid = false → FreeSlot cfg table i
  distinct : ∀ i < cfg.maxEntry, ∀ j < cfg.maxEntry, ∀ vid dmac,
    (table.mtbl i).Is vid dmac → (table.mtbl j).Is vid dmac → i = j
  covered : ∀ vid dmac, joins.Joined vid dmac → ∃ i < cfg.maxEntry, (table.mtbl i).Is vid dmac

theorem Counts.init (cfg : McastConfig) : Counts cfg .init fun _ _ _ => 0 where
  used _ _ valid := absurd valid nofun
  free _ _ _ := ⟨fun _ => rfl, fun _ _ => rfl, fun _ _ => rfl⟩
  distinct _ _ _ _ _ _ is := absurd is.1 nofun
  covered _ _ joined := absurd joined.choose_spec (Nat.lt_irrefl 0)

/-! ## Looking a group up -/

theorem mcastEntryGet_some {mtbl : Nat → McastGroup}
    (found : mcastEntryGet cfg mtbl vid dmac = some index) :
    index < cfg.maxEntry ∧ ((mtbl index).valid = false ∨ (mtbl index).Is vid dmac) ∧
      ∀ j < index, ¬(mtbl j).Is vid dmac := by
  obtain ⟨holds, inRange, earlier⟩ := List.find?_range_eq_some.mp found
  refine ⟨List.mem_range.mp inRange, ?_, fun j before is => ?_⟩
  · cases used : (mtbl index).valid with
    | false => exact .inl rfl
    | true =>
      right
      simpa [used, McastGroup.Is] using holds
  · have skipped := earlier j before
    simp [is.1, is.2.1, is.2.2] at skipped

theorem mcastEntryGet_none {mtbl : Nat → McastGroup}
    (full : mcastEntryGet cfg mtbl vid dmac = none) :
    ∀ i < cfg.maxEntry, (mtbl i).valid = true ∧ ¬(mtbl i).Is vid dmac := by
  intro i inside
  have skipped := List.find?_eq_none.mp full i (List.mem_range.mpr inside)
  simp only [Bool.or_eq_true, Bool.not_eq_true', Bool.and_eq_true, beq_iff_eq, not_or,
    Bool.not_eq_false] at skipped
  exact ⟨skipped.1, fun is => skipped.2 is.2⟩

/-! ## Replacing an entry -/

theorem Counts.renamed (counts : Counts cfg table joins)
    (slot : (table.mtbl index).valid = false ∨ (table.mtbl index).Is vid dmac) :
    Counts cfg { table with
      mtbl := update table.mtbl index { table.mtbl index with dmac } } joins := by
  rcases slot with unused | is
  · have entry (i : Nat) : update table.mtbl index { table.mtbl index with dmac } i =
        table.mtbl i ∨ i = index ∧
          update table.mtbl index { table.mtbl index with dmac } i =
            { table.mtbl index with dmac } := by
      by_cases same : i = index
      · subst same
        exact .inr ⟨rfl, update_self ..⟩
      · exact .inl (update_of_ne same ..)
    have is_iff (i : Nat) (v : BitVec 16) (m : Mac) :
        (update table.mtbl index { table.mtbl index with dmac } i).Is v m →
          update table.mtbl index { table.mtbl index with dmac } i = table.mtbl i := by
      intro is
      rcases entry i with kept | ⟨_, changed⟩
      · exact kept
      · rw [changed] at is
        exact absurd (is.1.symm.trans unused) nofun
    refine ⟨fun i inside valid => ?_, fun i inside invalid => ?_,
      fun i iInside j jInside v m iIs jIs => ?_, fun v m joined => ?_⟩
    · have kept := is_iff i _ _ ⟨valid, rfl, rfl⟩
      have used := counts.used i inside (by rw [← kept]; exact valid)
      exact ⟨by simpa only [kept] using used.ifNum, by simpa only [kept] using used.joined,
        by simpa only [kept] using used.mask⟩
    · have free : FreeSlot cfg table i := counts.free i inside (by
        rcases entry i with kept | ⟨rfl, _⟩
        · rw [← kept]
          exact invalid
        · exact unused)
      refine ⟨fun p => ?_, free.high, free.low⟩
      show (update table.mtbl index { table.mtbl index with dmac } i).ifNum p = 0
      rcases entry i with kept | ⟨rfl, changed⟩
      · rw [kept]
        exact free.ifNum p
      · rw [changed]
        exact free.ifNum p
    · have iKept := is_iff i v m iIs
      have jKept := is_iff j v m jIs
      exact counts.distinct i iInside j jInside v m (iKept ▸ iIs) (jKept ▸ jIs)
    · obtain ⟨i, inside, is⟩ := counts.covered v m joined
      refine ⟨i, inside, ?_⟩
      show (update table.mtbl index { table.mtbl index with dmac } i).Is v m
      rcases entry i with kept | ⟨rfl, _⟩
      · rwa [kept]
      · exact absurd (is.1.symm.trans unused) nofun
  · have same : ({ table.mtbl index with dmac } : McastGroup) = table.mtbl index := by
      rw [← is.2.2]
    rw [same, update_eq_self]
    exact counts

/-- What `commitGroup` does to a slot other than its own. -/
theorem commitGroup_other (table : McastTable) {i : Nat} (known : group.valid = true →
      dmacToHi16 group.dmac = 0x0100 ∨ dmacToHi16 group.dmac = 0x3333)
    (indexInside : index < cfg.maxEntry) (inside : i < cfg.maxEntry) (different : i ≠ index) :
    (commitGroup cfg index group table).mtbl i = table.mtbl i ∧
      ∀ ppeId, (commitGroup cfg index group table).regs ppeId (mcastH i) =
          table.regs ppeId (mcastH i) ∧
        (commitGroup cfg index group table).regs ppeId (mcastL i) =
          table.regs ppeId (mcastL i) := by
  have small := inside.trans_le cfg.maxEntry_le
  have indexSmall := indexInside.trans_le cfg.maxEntry_le
  unfold commitGroup
  split
  · rename_i valid
    dsimp only
    split
    · refine ⟨update_of_ne different .., fun ppeId => ?_⟩
      dsimp only
      rw [forPpes_apply (clrHnatMtbl_row index)]
      split
      · exact slotRow_other 0 0 _ indexSmall small different
      · exact ⟨rfl, rfl⟩
    · refine ⟨update_of_ne different .., fun ppeId => ?_⟩
      obtain ⟨mpreSel, row⟩ := setHnatMtbl_row
        { group with mcPort := portMask group.ifNum } (known valid) index
      dsimp only
      rw [forPpes_apply row]
      split
      · exact slotRow_other _ _ _ indexSmall small different
      · exact ⟨rfl, rfl⟩
  · exact ⟨update_of_ne different .., fun _ => ⟨rfl, rfl⟩⟩

theorem commitGroup_self (cfg : McastConfig) (table : McastTable) (index : Nat)
    (valid : group.valid = true)
    (known : dmacToHi16 group.dmac = 0x0100 ∨ dmacToHi16 group.dmac = 0x3333) :
    let after := commitGroup cfg index group table
    (∀ p, ¬0 < group.ifNum p) ∧ after.mtbl index = .empty ∧ FreeSlot cfg after index ∨
      (∃ p, 0 < group.ifNum p) ∧
        after.mtbl index = { group with mcPort := portMask group.ifNum } ∧
        ∀ ppeId < cfg.ppeNum, ∃ mpreSel,
          after.regs ppeId (mcastH index) = mcastHValue (portMask group.ifNum) mpreSel := by
  intro after
  have masked := (portMask_bits group.ifNum).2
  by_cases nobody : portMask group.ifNum = 0
  · have run : after = { mtbl := update table.mtbl index .empty
                         regs := forPpes cfg.ppeNum (clrHnatMtbl index) table.regs } := by
      simp only [after, commitGroup, valid, if_true, nobody]
    have entry : after.mtbl index = .empty := by
      rw [run]
      exact update_self ..
    have cleared (ppeId : Nat) (inside : ppeId < cfg.ppeNum) :
        after.regs ppeId = slotRow index 0 0 (table.regs ppeId) := by
      rw [run]
      dsimp only
      rw [forPpes_apply (clrHnatMtbl_row index), if_pos inside]
    refine .inl ⟨masked.mp nobody, entry, fun p => ?_, fun ppeId inside => ?_,
      fun ppeId inside => ?_⟩
    · rw [entry]
      rfl
    · rw [cleared ppeId inside, slotRow_high]
    · rw [cleared ppeId inside, slotRow_low]
  · have run : after = { mtbl := update table.mtbl index
                          { group with mcPort := portMask group.ifNum }
                         regs := forPpes cfg.ppeNum
                          (setHnatMtbl { group with mcPort := portMask group.ifNum } index)
                          table.regs } := by
      simp only [after, commitGroup, valid, if_true, nobody, if_false]
    have some : ∃ p, 0 < group.ifNum p := by
      by_contra none
      exact nobody (masked.mpr fun p => fun positive => none ⟨p, positive⟩)
    refine .inr ⟨some, ?_, fun ppeId inside => ?_⟩
    · rw [run]
      exact update_self ..
    · obtain ⟨mpreSel, row⟩ := setHnatMtbl_row
        { group with mcPort := portMask group.ifNum } known index
      refine ⟨mpreSel, ?_⟩
      rw [run]
      dsimp only
      rw [forPpes_apply row, if_pos inside, slotRow_high]

/-- Committing the new counts of a group to a slot that was free, while no other slot
had the group, or was the group's. -/
theorem Counts.committed {after : Joins} (counts : Counts cfg table joins)
    (inside : index < cfg.maxEntry) (valid : group.valid = true)
    (known : dmacToHi16 group.dmac = 0x0100 ∨ dmacToHi16 group.dmac = 0x3333)
    (alone : ∀ i < cfg.maxEntry, (table.mtbl i).Is group.vid group.dmac → i = index)
    (slot : (table.mtbl index).valid = false ∨ (table.mtbl index).Is group.vid group.dmac)
    (others : ∀ vid dmac, ¬(vid = group.vid ∧ dmac = group.dmac) →
      after vid dmac = joins vid dmac)
    (ifNum : ∀ p, (group.ifNum p).toNat = after group.vid group.dmac p) :
    Counts cfg (commitGroup cfg index group table) after := by
  have other (i : Nat) (iInside : i < cfg.maxEntry) (different : i ≠ index) :=
    commitGroup_other table (fun _ => known) inside iInside different
  -- A used slot other than `index` has another group, whose members have not changed.
  have apart (i : Nat) (iInside : i < cfg.maxEntry) (different : i ≠ index)
      (used : (table.mtbl i).valid = true) :
      after (table.mtbl i).vid (table.mtbl i).dmac =
        joins (table.mtbl i).vid (table.mtbl i).dmac :=
    others _ _ fun same => different (alone i iInside ⟨used, same⟩)
  have ifNum_pos (p : McastPort) : 0 < group.ifNum p ↔ 0 < after group.vid group.dmac p := by
    rw [BitVec.lt_def, ifNum]
    exact Iff.rfl
  have own := commitGroup_self cfg table index valid known
  refine ⟨fun i iInside used => ?_, fun i iInside unused => ?_,
    fun i iInside j jInside vid dmac iIs jIs => ?_, fun vid dmac joined => ?_⟩
  · by_cases same : i = index
    · subst same
      rcases own with ⟨_, entry, _⟩ | ⟨⟨p, positive⟩, entry, mask⟩
      · rw [entry] at used
        exact absurd used (by decide)
      · refine ⟨?_, ?_, ?_⟩
        · rw [entry]
          exact ifNum
        · rw [entry]
          exact ⟨p, (ifNum_pos p).mp positive⟩
        · rw [entry]
          exact mask
    · obtain ⟨entry, regs⟩ := other i iInside same
      rw [entry] at used
      have before := counts.used i iInside used
      have unchanged := apart i iInside same used
      refine ⟨fun p => ?_, ?_, fun ppeId ppeInside => ?_⟩
      · rw [entry, unchanged]
        exact before.ifNum p
      · rw [entry, Joins.Joined, unchanged]
        exact before.joined
      · rw [entry, (regs ppeId).1]
        exact before.mask ppeId ppeInside
  · by_cases same : i = index
    · subst same
      rcases own with ⟨_, _, free⟩ | ⟨_, entry, _⟩
      · exact free
      · rw [entry] at unused
        exact absurd (valid.symm.trans unused) (by decide)
    · obtain ⟨entry, regs⟩ := other i iInside same
      rw [entry] at unused
      have before := counts.free i iInside unused
      refine ⟨fun p => ?_, fun ppeId ppeInside => ?_, fun ppeId ppeInside => ?_⟩
      · rw [entry]
        exact before.ifNum p
      · exact (regs ppeId).1.trans (before.high ppeId ppeInside)
      · exact (regs ppeId).2.trans (before.low ppeId ppeInside)
  · -- The slot `index` can only be the committed group's, every other one keeps its group.
    have place (k : Nat) (kInside : k < cfg.maxEntry)
        (is : ((commitGroup cfg index group table).mtbl k).Is vid dmac) :
        k = index ∧ vid = group.vid ∧ dmac = group.dmac ∨
          k ≠ index ∧ (table.mtbl k).Is vid dmac := by
      by_cases same : k = index
      · subst same
        rcases own with ⟨_, entry, _⟩ | ⟨_, entry, _⟩ <;> rw [entry] at is
        · exact absurd is.1 (by decide)
        · exact .inl ⟨rfl, is.2.1.symm, is.2.2.symm⟩
      · rw [(other k kInside same).1] at is
        exact .inr ⟨same, is⟩
    rcases place i iInside iIs with ⟨rfl, iVid, iMac⟩ | ⟨iOther, iBefore⟩ <;>
      rcases place j jInside jIs with ⟨rfl, jVid, jMac⟩ | ⟨jOther, jBefore⟩
    · rfl
    · exact absurd (alone j jInside (iVid ▸ iMac ▸ jBefore)) jOther
    · exact absurd (alone i iInside (jVid ▸ jMac ▸ iBefore)) iOther
    · exact counts.distinct i iInside j jInside vid dmac iBefore jBefore
  · by_cases same : vid = group.vid ∧ dmac = group.dmac
    · obtain ⟨rfl, rfl⟩ := same
      obtain ⟨p, positive⟩ := joined
      rcases own with ⟨nobody, _, _⟩ | ⟨_, entry, _⟩
      · exact absurd ((ifNum_pos p).mpr positive) (nobody p)
      · refine ⟨index, inside, ?_⟩
        rw [entry]
        exact ⟨valid, rfl, rfl⟩
    · rw [Joins.Joined, others vid dmac same] at joined
      obtain ⟨i, iInside, is⟩ := counts.covered vid dmac joined
      have different : i ≠ index := by
        rintro rfl
        rcases slot with unused | ⟨_, vidSame, macSame⟩
        · exact absurd (is.1.symm.trans unused) (by decide)
        · exact same ⟨is.2.1.symm.trans vidSame, is.2.2.symm.trans macSame⟩
      refine ⟨i, iInside, ?_⟩
      rw [(other i iInside different).1]
      exact is

/-! ## One notification -/

/-- What a notification needs of the table and the members it arrives at: a join or
leave of a group that has an entry meets it before any free slot; a join does not
overflow the counter; a leave of a group with members takes back a join. -/
def Orderly (cfg : McastConfig) (table : McastTable) (joins : Joins) (event : MdbEvent) : Prop :=
  ∀ vid dmac port, event.member cfg = some (vid, dmac, port) →
    (event.type ≠ .other → ∀ j < cfg.maxEntry, (table.mtbl j).Is vid dmac →
        ∀ i < j, (table.mtbl i).valid = true) ∧
      (event.type = .newMdb → joins vid dmac port < 255) ∧
      (event.type = .delMdb → joins.Joined vid dmac → 0 < joins vid dmac port)

theorem Orderly.of_member {event : MdbEvent} (about : event.member cfg = some (vid, dmac, port))
    (met : ∀ j < cfg.maxEntry, (table.mtbl j).Is vid dmac → ∀ i < j, (table.mtbl i).valid = true)
    (room : event.type = .newMdb → joins vid dmac port < 255)
    (taken : event.type = .delMdb → joins.Joined vid dmac → 0 < joins vid dmac port) :
    Orderly cfg table joins event := by
  intro v m p member
  cases about.symm.trans member
  exact ⟨fun _ => met, room, taken⟩

/-- There are at most as many groups with members as the table has slots. -/
def Fits (cfg : McastConfig) (joins : Joins) : Prop :=
  ∀ groups : List (BitVec 16 × Mac), groups.Nodup →
    (∀ group ∈ groups, joins.Joined group.1 group.2) → groups.length ≤ cfg.maxEntry

theorem Counts.not_full {after : Joins} (counts : Counts cfg table joins) (fits : Fits cfg after)
    (full : ∀ i < cfg.maxEntry, (table.mtbl i).valid = true ∧ ¬(table.mtbl i).Is vid dmac)
    (kept : ∀ v m, joins.Joined v m → after.Joined v m) : ¬after.Joined vid dmac := by
  intro joined
  let key (i : Nat) := ((table.mtbl i).vid, (table.mtbl i).dmac)
  have nodup : ((vid, dmac) :: (List.range cfg.maxEntry).map key).Nodup := by
    refine List.nodup_cons.mpr ⟨fun member => ?_, ?_⟩
    · obtain ⟨i, inRange, same⟩ := List.mem_map.mp member
      obtain ⟨used, isNot⟩ := full i (List.mem_range.mp inRange)
      exact isNot ⟨used, congrArg Prod.fst same, congrArg Prod.snd same⟩
    · refine List.Nodup.map_on (fun i iRange j jRange same => ?_) List.nodup_range
      have iInside := List.mem_range.mp iRange
      have jInside := List.mem_range.mp jRange
      exact counts.distinct i iInside j jInside _ _ ⟨(full i iInside).1, rfl, rfl⟩
        ⟨(full j jInside).1, (congrArg Prod.fst same).symm, (congrArg Prod.snd same).symm⟩
  have length := fits _ nodup fun group member => by
    rcases List.mem_cons.mp member with rfl | member
    · exact joined
    · obtain ⟨i, inRange, rfl⟩ := List.mem_map.mp member
      have inside := List.mem_range.mp inRange
      exact kept _ _ (counts.used i inside (full i inside).1).joined
  simp only [List.length_cons, List.length_map, List.length_range] at length
  omega

theorem Counts.alone (counts : Counts cfg table joins)
    (found : mcastEntryGet cfg table.mtbl vid dmac = some index)
    (met : ∀ j < cfg.maxEntry, (table.mtbl j).Is vid dmac →
      ∀ i < j, (table.mtbl i).valid = true) :
    ∀ i < cfg.maxEntry, (table.mtbl i).Is vid dmac → i = index := by
  obtain ⟨inside, slot, earlier⟩ := mcastEntryGet_some found
  intro i iInside is
  rcases Nat.lt_trichotomy i index with before | same | behind
  · exact absurd is (earlier i before)
  · exact same
  · rcases slot with unused | isIndex
    · exact absurd ((met i iInside is index behind).symm.trans unused) nofun
    · exact counts.distinct i iInside index inside _ _ is isIndex

theorem Counts.slot_ifNum (counts : Counts cfg table joins) (inside : index < cfg.maxEntry)
    (slot : (table.mtbl index).valid = false ∨ (table.mtbl index).Is vid dmac)
    (alone : ∀ i < cfg.maxEntry, (table.mtbl i).Is vid dmac → i = index) (p : McastPort) :
    ((table.mtbl index).ifNum p).toNat = joins vid dmac p := by
  rcases slot with unused | is
  · have absent : ¬joins.Joined vid dmac := fun joined => by
      obtain ⟨i, iInside, is⟩ := counts.covered _ _ joined
      obtain rfl := alone i iInside is
      exact absurd (is.1.symm.trans unused) nofun
    have none : joins vid dmac p = 0 := Nat.eq_zero_of_not_pos fun positive =>
      absent ⟨p, positive⟩
    rw [(counts.free index inside unused).ifNum p, none]
    rfl
  · rw [(counts.used index inside is.1).ifNum p, is.2.1, is.2.2]

theorem Counts.counted {type : MdbType} (counts : Counts cfg table joins)
    (inside : index < cfg.maxEntry) (known : dmacToHi16 (table.mtbl index).dmac = 0x0100 ∨
      dmacToHi16 (table.mtbl index).dmac = 0x3333) (slot : (table.mtbl index).valid = false ∨
      (table.mtbl index).Is vid (table.mtbl index).dmac)
    (alone : ∀ i < cfg.maxEntry, (table.mtbl i).Is vid (table.mtbl index).dmac → i = index)
    (room : type = .newMdb → joins vid (table.mtbl index).dmac port < 255)
    (taken : type = .delMdb → joins.Joined vid (table.mtbl index).dmac →
      0 < joins vid (table.mtbl index).dmac port)
    (result : countMember type vid port (table.mtbl index) = some group) :
    Counts cfg (commitGroup cfg index group table)
      (joins.counted type vid (table.mtbl index).dmac port) := by
  have before := counts.slot_ifNum inside slot alone
  have one : (1 : BitVec 8).toNat = 1 := rfl
  cases type with
  | newMdb =>
    obtain rfl := Option.some.inj result
    refine counts.committed inside rfl known alone slot
      (fun _ _ different => Joins.counted_other different) fun p => ?_
    have small := room rfl
    dsimp only
    by_cases same : p = port
    · subst same
      rw [Joins.counted_new, update_self, BitVec.toNat_add, one, before p]
      omega
    · rw [Joins.counted_port same, update_of_ne same, before p]
  | delMdb =>
    rcases slot with unused | is
    · -- A leave of a group without entry: there is no member to take away.
      have kept : group = table.mtbl index := by
        rw [countMember, if_neg (by simp [unused])] at result
        exact (Option.some.inj result).symm
      have none : joins vid (table.mtbl index).dmac port = 0 := by
        rw [← before port, (counts.free index inside unused).ifNum port]
        rfl
      have same : commitGroup cfg index group table = table := by
        rw [kept, commitGroup, if_neg (by simp [unused]), update_eq_self]
      rw [Joins.counted_absent none, same]
      exact counts
    · obtain rfl : { table.mtbl index with
          ifNum := update (table.mtbl index).ifNum port
            ((table.mtbl index).ifNum port - 1) } = group := by
        rw [countMember, if_pos is.1] at result
        exact Option.some.inj result
      have key : (table.mtbl index).vid = vid := is.2.1
      have joined := (counts.used index inside is.1).joined
      rw [key] at joined
      have positive := taken rfl joined
      refine counts.committed inside is.1 known (key ▸ alone) (.inr ⟨is.1, rfl, rfl⟩)
        (key ▸ fun _ _ different => Joins.counted_other different) fun p => ?_
      dsimp only
      rw [key]
      by_cases same : p = port
      · subst same
        have value := before p
        rw [Joins.counted_del, update_self, BitVec.toNat_sub, one, value]
        omega
      · rw [Joins.counted_port same, update_of_ne same, before p]
  | other => exact absurd result nofun

theorem Counts.unplaced {type : MdbType} (counts : Counts cfg table joins)
    (full : mcastEntryGet cfg table.mtbl vid dmac = none)
    (fits : Fits cfg (joins.counted type vid dmac port)) :
    joins.counted type vid dmac port = joins := by
  have occupied := mcastEntryGet_none full
  have absent : ¬joins.Joined vid dmac := fun joined => by
    obtain ⟨i, inside, is⟩ := counts.covered _ _ joined
    exact (occupied i inside).2 is
  cases type with
  | newMdb =>
    have kept (v : BitVec 16) (m : Mac) (joined : joins.Joined v m) :
        (joins.counted .newMdb vid dmac port).Joined v m := by
      have different : ¬(v = vid ∧ m = dmac) := fun same => absent (same.1 ▸ same.2 ▸ joined)
      rwa [Joins.Joined, Joins.counted_other different]
    have joined : 0 < joins.counted .newMdb vid dmac port vid dmac port := by
      rw [Joins.counted_new]
      exact Nat.succ_pos _
    exact absurd ⟨port, joined⟩ (counts.not_full fits occupied kept)
  | delMdb =>
    exact Joins.counted_absent (Nat.eq_zero_of_not_pos fun positive => absent ⟨port, positive⟩)
  | other => exact Joins.counted_unknown ..

theorem update_step {event : MdbEvent} (counts : Counts cfg table joins)
    (orderly : Orderly cfg table joins event) (fits : Fits cfg (joins.after cfg event)) :
    Counts cfg (hnatMcastTableUpdate cfg event table).2 (joins.after cfg event) := by
  unfold hnatMcastTableUpdate
  unfold Joins.after at fits ⊢
  unfold Orderly at orderly
  rcases device : event.dev with _ | dev <;>
    rcases mac : getMacFromMdbEntry event.addr with _ | dmac <;>
    simp only [MdbEvent.member, device, mac] at orderly fits ⊢
  · exact counts
  · exact counts
  · exact counts
  cases found : mcastEntryGet cfg table.mtbl event.vid dmac with
  | none =>
    cases resolved : cfg.portOf dev with
    | none =>
      simp only [Option.map_none]
      exact counts
    | some port =>
      simp only [resolved, Option.map_some] at fits ⊢
      rw [counts.unplaced found fits]
      exact counts
  | some index =>
    obtain ⟨inside, slot, _⟩ := mcastEntryGet_some found
    have named := counts.renamed slot
    cases resolved : cfg.portOf dev with
    | none =>
      simp only [Option.map_none]
      exact named
    | some port =>
      simp only [resolved, Option.map_some] at fits orderly ⊢
      obtain ⟨met, room, taken⟩ := orderly event.vid dmac port rfl
      have atIndex : update table.mtbl index { table.mtbl index with dmac } index =
          { table.mtbl index with dmac } := update_self ..
      cases counted : countMember event.type event.vid port { table.mtbl index with dmac } with
      | none =>
        have unknown : event.type = .other := by
          cases type : event.type with
          | newMdb => simp [countMember, type] at counted
          | delMdb =>
            rw [type, countMember] at counted
            split at counted <;> exact absurd counted nofun
          | other => rfl
        rw [unknown, Joins.counted_unknown]
        exact named
      | some group =>
        have alone := counts.alone found (met fun unknown => by
          rw [unknown] at counted
          exact absurd counted nofun)
        rw [← atIndex] at counted
        refine Eq.subst ?_ (named.counted inside ?_ ?_ ?_ ?_ ?_ counted) <;> dsimp only <;>
          rw [atIndex]
        · exact dmacToHi16_group mac
        · exact slot.imp id fun is => ⟨is.1, is.2.1, rfl⟩
        · intro i iInside is
          by_contra different
          rw [update_of_ne different] at is
          exact different (alone i iInside is)
        · exact room
        · exact taken

/-! ## Every run -/

def tableAfter (cfg : McastConfig) (events : List MdbEvent) : McastTable :=
  events.foldl (fun table event => (hnatMcastTableUpdate cfg event table).2) .init

theorem counts_run {events : List MdbEvent} (orderly : ∀ past event, past ++ [event] <+: events →
      Orderly cfg (tableAfter cfg past) (joinsAfter cfg past) event)
    (fits : ∀ past, past <+: events → Fits cfg (joinsAfter cfg past)) :
    Counts cfg (tableAfter cfg events) (joinsAfter cfg events) := by
  induction events using List.reverseRecOn with
  | nil => exact Counts.init cfg
  | append_singleton past event ih =>
    have before : Counts cfg (tableAfter cfg past) (joinsAfter cfg past) :=
      ih (fun earlier event part => orderly earlier event (part.trans (List.prefix_append ..)))
        fun earlier part => fits earlier (part.trans (List.prefix_append ..))
    have room := fits _ (List.prefix_refl _)
    rw [joinsAfter_append] at room ⊢
    have table : tableAfter cfg (past ++ [event]) =
        (hnatMcastTableUpdate cfg event (tableAfter cfg past)).2 := by
      simp only [tableAfter, List.foldl_append, List.foldl_cons, List.foldl_nil]
    rw [table]
    exact update_step before (orderly past event (List.prefix_refl _)) room

theorem fits_of_length {events : List MdbEvent} (few : events.length ≤ cfg.maxEntry) :
    Fits cfg (joinsAfter cfg events) := by
  intro groups nodup joined
  let group (event : MdbEvent) := (event.member cfg).map fun member => (member.1, member.2.1)
  have inside : groups ⊆ events.filterMap group := by
    intro g member
    obtain ⟨event, known, port, is⟩ := joinsAfter_joined (joined g member)
    refine List.mem_filterMap.mpr ⟨event, known, ?_⟩
    simp only [group, is, Option.map_some]
  calc
    groups.length ≤ (events.filterMap group).length := (nodup.subperm inside).length_le
    _ ≤ events.length := List.length_filterMap_le ..
    _ ≤ cfg.maxEntry := few

/-- The table has one valid entry for each group with a member and no other, the entry
counts the members, the registers of every PPE have the ports with a member, and those
of a free slot are zero. -/
structure Exact (cfg : McastConfig) (table : McastTable) (joins : Joins) : Prop where
  one : ∀ vid dmac, joins.Joined vid dmac →
    ∃! i, i < cfg.maxEntry ∧ (table.mtbl i).Is vid dmac
  joined : ∀ i < cfg.maxEntry, ∀ vid dmac, (table.mtbl i).Is vid dmac → joins.Joined vid dmac
  ifNum : ∀ i < cfg.maxEntry, ∀ vid dmac, (table.mtbl i).Is vid dmac →
    ∀ p, ((table.mtbl i).ifNum p).toNat = joins vid dmac p
  programmed : ∀ i < cfg.maxEntry, ∀ vid dmac, (table.mtbl i).Is vid dmac →
    ∀ ppeId < cfg.ppeNum, ∀ p : McastPort,
      (table.regs ppeId (mcastH i)).getLsbD (15 + p.val) = true ↔ 0 < joins vid dmac p
  clear : ∀ i < cfg.maxEntry, (table.mtbl i).valid = false →
    ∀ ppeId < cfg.ppeNum, table.regs ppeId (mcastH i) = 0 ∧ table.regs ppeId (mcastL i) = 0

theorem Counts.exact (counts : Counts cfg table joins) : Exact cfg table joins where
  one vid dmac joined := by
    obtain ⟨i, inside, is⟩ := counts.covered vid dmac joined
    exact ⟨i, ⟨inside, is⟩, fun j other => counts.distinct j other.1 i inside vid dmac other.2 is⟩
  joined i inside vid dmac is := by
    have used := (counts.used i inside is.1).joined
    rwa [is.2.1, is.2.2] at used
  ifNum i inside vid dmac is p := by
    have used := (counts.used i inside is.1).ifNum p
    rwa [is.2.1, is.2.2] at used
  programmed i inside vid dmac is ppeId ppeInside p := by
    have used := counts.used i inside is.1
    have number := used.ifNum p
    rw [is.2.1, is.2.2] at number
    obtain ⟨mpreSel, value⟩ := used.mask ppeId ppeInside
    rw [value, mcastHValue_bit, (portMask_bits _).1, decide_eq_true_eq, BitVec.lt_def, number]
    exact Iff.rfl
  clear i inside unused ppeId ppeInside :=
    ⟨(counts.free i inside unused).high ppeId ppeInside,
      (counts.free i inside unused).low ppeId ppeInside⟩

/-- In a run of orderly notifications with no more groups than slots at any time, the
table is exact after each of them. -/
theorem mcastTable_exact {events : List MdbEvent}
    (orderly : ∀ past event, past ++ [event] <+: events →
      Orderly cfg (tableAfter cfg past) (joinsAfter cfg past) event)
    (fits : ∀ past, past <+: events → Fits cfg (joinsAfter cfg past)) :
    ∀ past, past <+: events → Exact cfg (tableAfter cfg past) (joinsAfter cfg past) :=
  fun _ part => (counts_run
    (fun earlier event inPast => orderly earlier event (inPast.trans part))
    (fun earlier inPast => fits earlier (inPast.trans part))).exact

theorem mcastTable_exact_two_ports :
    Exact mcastBoard (tableAfter mcastBoard [mdb .newMdb eth0 1, mdb .newMdb eth1 1])
      (joinsAfter mcastBoard [mdb .newMdb eth0 1, mdb .newMdb eth1 1]) := by
  refine mcastTable_exact (fun past event part => ?_) (fun past part => fits_of_length ?_) _
    (List.prefix_refl _)
  · have first : Orderly mcastBoard (tableAfter mcastBoard []) (joinsAfter mcastBoard [])
        (mdb .newMdb eth0 1) :=
      .of_member rfl (by decide +kernel) (by decide +kernel) nofun
    have second : Orderly mcastBoard (tableAfter mcastBoard [mdb .newMdb eth0 1])
        (joinsAfter mcastBoard [mdb .newMdb eth0 1]) (mdb .newMdb eth1 1) :=
      .of_member rfl (by decide +kernel) (by decide +kernel) nofun
    match past, part with
    | [], part =>
      obtain ⟨rfl, _⟩ := List.cons_prefix_cons.mp part
      exact first
    | [e], part =>
      obtain ⟨rfl, later⟩ := List.cons_prefix_cons.mp part
      obtain ⟨same, _⟩ := List.cons_prefix_cons.mp later
      rw [same]
      exact second
    | _ :: _ :: _, part => simpa using part.length_le
  · exact part.length_le.trans (by decide)

/-- After the leave of the first of two groups, a second join of the other one is
counted into the free slot before its entry. -/
theorem mcastTable_entry_twice :
    ¬∀ (cfg : McastConfig) (events : List MdbEvent),
      (∀ past, past <+: events → Fits cfg (joinsAfter cfg past)) →
        Exact cfg (tableAfter cfg events) (joinsAfter cfg events) := by
  intro always
  have exact := always mcastBoard [mdb .newMdb eth0 1, mdb .newMdb eth0 2, mdb .delMdb eth0 1,
    mdb .newMdb eth1 2] fun past part => fits_of_length (part.length_le.trans (by decide))
  obtain ⟨i, _, unique⟩ := exact.one 0 0x01005e010102 (by decide +kernel)
  have zero := unique 0 (by decide +kernel)
  have one := unique 1 (by decide +kernel)
  exact absurd (zero.trans one.symm) (by decide)

end MetaFilogic.Hnat
