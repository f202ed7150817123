import MetaFilogic.Hnat.Visits

/-!
# Ageing of multicast entries

`hnat_mcast_check_timestamp` goes over the static entries and deletes those whose time stamp is too
far from the clock of the PPE.  Both are 16-bit counters, but the distance is taken between
integers.
-/

namespace MetaFilogic.Hnat

open Fields

/-! ## The driver -/

def mTimestamp : FoeField 16 := u16Lo 8

def foeTimestampMcast (reg : BitVec 32) : BitVec 16 := reg.setWidth 16

/-- The test of `hnat_mcast_check_timestamp` on the two stamps. -/
def stampsApart (foeTs eTs : BitVec 16) : Bool :=
  let foeTs := if (0x3000 : Int) < foeTs.toNat - eTs.toNat then ~~~foeTs else foeTs
  20 < ((foeTs.toNat : Int) - eTs.toNat).natAbs

/-- The loop body of `hnat_mcast_check_timestamp`: `clock` are the readings of the register, and
`stamps` those of `foe_timestamp` by `__entry_delete`. -/
def checkTimestamp (clock : Nat → Nat → BitVec 32) (stamps : Nat → Nat → BitVec 8)
    (ppe index : Nat) (entry : FoeEntry) : Option FoeEntry :=
  if Bfib1.sta.get entry = 1 ∧
      stampsApart (foeTimestampMcast (clock ppe index)) (mTimestamp.get entry) then
    some (entryDelete (stamps ppe index) entry)
  else none

def hnatMcastCheckTimestamp (clock : Nat → Nat → BitVec 32) (stamps : Nat → Nat → BitVec 8)
    (h : MtkHnat) : Option (Nat × MtkHnat) :=
  walkPpes false (checkTimestamp clock stamps) h.foeEtryNum h.ppeNum h

/-! ## Ages -/

def age (foeTs eTs : BitVec 16) : Nat := (foeTs - eTs).toNat

def deleteAged (clock : Nat → Nat → BitVec 32) (stamps : Nat → Nat → BitVec 8)
    (ppe index : Nat) (entry : FoeEntry) : Option FoeEntry :=
  if Bfib1.sta.get entry = 1 ∧
      20 < age (foeTimestampMcast (clock ppe index)) (mTimestamp.get entry) then
    some (entryDelete (stamps ppe index) entry)
  else none

/-- The clock is not before the stamp, and no further from it than the threshold or not close to
its mirror image; or the clock is before the stamp, but neither by a few ticks nor by nearly a
whole turn. -/
def AgeRight (foeTs eTs : BitVec 16) : Prop :=
  (eTs.toNat ≤ foeTs.toNat ∧
      (foeTs.toNat - eTs.toNat ≤ 0x3000 ∨
        20 < (65535 - foeTs.toNat - eTs.toNat : Int).natAbs)) ∨
    (20 < eTs.toNat - foeTs.toNat ∧ eTs.toNat - foeTs.toNat < 65516)

theorem stampsApart_iff (foeTs eTs : BitVec 16) :
    (stampsApart foeTs eTs = true ↔ 20 < age foeTs eTs) ↔ AgeRight foeTs eTs := by
  have foeLt := foeTs.isLt
  have eLt := eTs.isLt
  unfold stampsApart age AgeRight
  rw [BitVec.toNat_sub]
  dsimp only
  rw [decide_eq_true_iff]
  by_cases far : (0x3000 : Int) < foeTs.toNat - eTs.toNat
  · rw [if_pos far, BitVec.toNat_not]
    omega
  · rw [if_neg far]
    omega

variable {clock : Nat → Nat → BitVec 32} {stamps : Nat → Nat → BitVec 8} {h : MtkHnat}

/-- An entry is treated as it should exactly when its stamps can be told apart, or a deletion leaves
it as it is. -/
theorem checkTimestamp_iff (ppe index : Nat) (entry : FoeEntry) :
    (checkTimestamp clock stamps ppe index entry).getD entry =
        (deleteAged clock stamps ppe index entry).getD entry ↔
      (Bfib1.sta.get entry = 1 →
        AgeRight (foeTimestampMcast (clock ppe index)) (mTimestamp.get entry) ∨
          entryDelete (stamps ppe index) entry = entry) := by
  rw [← stampsApart_iff]
  unfold checkTimestamp deleteAged
  by_cases static : Bfib1.sta.get entry = 1
  swap
  · rw [if_neg fun both => static both.1, if_neg fun both => static both.1]
    exact iff_of_true rfl fun is => absurd is static
  by_cases apart : stampsApart (foeTimestampMcast (clock ppe index)) (mTimestamp.get entry) = true
  · rw [if_pos ⟨static, apart⟩]
    by_cases old : 20 < age (foeTimestampMcast (clock ppe index)) (mTimestamp.get entry)
    · rw [if_pos ⟨static, old⟩]
      exact iff_of_true rfl fun _ => .inl (iff_of_true apart old)
    · rw [if_neg fun both => old both.2]
      simp only [Option.getD_some, Option.getD_none, static, apart, old, forall_const, true_iff,
        false_or]
  · rw [if_neg fun both => apart both.2]
    by_cases old : 20 < age (foeTimestampMcast (clock ppe index)) (mTimestamp.get entry)
    · rw [if_pos ⟨static, old⟩]
      simp only [Option.getD_some, Option.getD_none, static, apart, old, forall_const, iff_true,
        Bool.false_eq_true, false_or]
      exact eq_comm
    · rw [if_neg fun both => old both.2]
      exact iff_of_true rfl fun _ => .inl (iff_of_false apart old)

theorem unvisited_iff (ppe index : Nat) (entry : FoeEntry) :
    entry = (deleteAged clock stamps ppe index entry).getD entry ↔
      (Bfib1.sta.get entry = 1 →
        age (foeTimestampMcast (clock ppe index)) (mTimestamp.get entry) ≤ 20 ∨
          entryDelete (stamps ppe index) entry = entry) := by
  unfold deleteAged
  by_cases static : Bfib1.sta.get entry = 1
  swap
  · rw [if_neg fun both => static both.1]
    exact iff_of_true rfl fun is => absurd is static
  by_cases old : 20 < age (foeTimestampMcast (clock ppe index)) (mTimestamp.get entry)
  · rw [if_pos ⟨static, old⟩, Option.getD_some, eq_comm]
    exact ⟨fun same _ => .inr same, fun same => (same static).resolve_left (Nat.not_le_of_lt old)⟩
  · rw [if_neg fun both => old both.2]
    exact iff_of_true rfl fun _ => .inl (Nat.le_of_not_lt old)

/-- The pass deletes the static entries older than 20 ticks and nothing else exactly when the stamps
of every static entry that it visits can be told apart, and there are no old ones behind. -/
theorem hnatMcastCheckTimestamp_exact_iff (clock : Nat → Nat → BitVec 32)
    (stamps : Nat → Nat → BitVec 8) (h : MtkHnat) :
    (∃ ret, hnatMcastCheckTimestamp clock stamps h =
        some (ret, h.visitAll (deleteAged clock stamps) h.ppeNum)) ↔
      h.Sized h.foeEtryNum h.ppeNum ∧
      ∀ ppe < h.ppeNum, ∀ table, h.foeTableCpu ppe = some table →
        ∀ index entry, table[index]? = some entry → Bfib1.sta.get entry = 1 →
          (if index < h.foeEtryNum then
            AgeRight (foeTimestampMcast (clock ppe index)) (mTimestamp.get entry)
          else age (foeTimestampMcast (clock ppe index)) (mTimestamp.get entry) ≤ 20) ∨
            entryDelete (stamps ppe index) entry = entry := by
  unfold hnatMcastCheckTimestamp
  rw [walkPpes_tables_iff]
  refine and_congr_right fun _ => forall_congr' fun ppe => forall_congr' fun _ =>
    forall_congr' fun table => forall_congr' fun _ => forall_congr' fun index =>
    forall_congr' fun entry => forall_congr' fun _ => ?_
  unfold visited
  by_cases inside : index < h.foeEtryNum
  · rw [if_pos inside, if_pos inside]
    exact checkTimestamp_iff ppe index entry
  · rw [if_neg inside, if_neg inside, Option.getD_none]
    exact unvisited_iff ppe index entry

/-- A bound static entry with a stamp taken at `tick`. -/
def staticEntryAt (tick : BitVec 16) : FoeEntry :=
  mTimestamp.set tick (Bfib1.sta.set 1 (Bfib1.state.set BIND FoeEntry.zero))

def agedPpe (entry : FoeEntry) : MtkHnat where
  ppeNum := 1
  foeEtryNum := 1
  etryNumCfg := 0
  foeTableCpu _ := some [entry]
  foeFlow _ := none
  tbEtryNum _ := 0

/-- A stamp taken 5 ticks ago, before the clock has turned over, is taken for an old one. -/
theorem mcast_young_deleted :
    ¬∃ ret, hnatMcastCheckTimestamp (fun _ _ => 2) (fun _ _ => 0) (agedPpe (staticEntryAt 65533)) =
      some (ret, (agedPpe (staticEntryAt 65533)).visitAll (deleteAged (fun _ _ => 2) fun _ _ => 0)
        1) := by
  intro exact
  obtain ⟨-, same⟩ := walkPpes_tables_iff.mp exact
  have words := congrFun (same 0 Nat.one_pos [staticEntryAt 65533] rfl 0 _ rfl) 0
  exact absurd words (by decide)

end MetaFilogic.Hnat
