import MetaFilogic.Bmt.V2

/-!
# Reading and changing the bad block table

Which entries the updates of `bbt_buf` leave alone, and what `upload_bmt` does to
the table in memory: it empties the pool entries whose blocks fail and changes
no other entry.
-/

namespace MetaFilogic.Bmt.V2

variable {d : Desc} {m : Memory} {i k block : Nat}

/-! ## Single entries -/

variable {other : Nat} {mapped : Half}

theorem store_of_ne {index : Nat} {value : Half} (different : other ≠ index) :
    (m.store index value).bbt other = m.bbt other :=
  Function.update_of_ne different _ _

theorem store_self {index : Nat} {value : Half} : (m.store index value).bbt index = value :=
  Function.update_self _ _ _

@[simp]
theorem bbTbl_setBbTbl_self : bbTbl (setBbTbl i block m) i = BitVec.ofNat 16 block :=
  store_self

theorem bbTbl_setBbTbl_of_ne (different : other ≠ i) :
    bbTbl (setBbTbl i block m) other = bbTbl m other :=
  store_of_ne (by omega)

theorem bmtBlock_setBbTbl (inside : i < d.tableSize) :
    bmtBlock d (setBbTbl i block m) k = bmtBlock d m k :=
  store_of_ne (by omega)

theorem bmtMapped_setBbTbl (inside : i < d.tableSize) :
    bmtMapped d (setBbTbl i block m) k = bmtMapped d m k :=
  store_of_ne (by omega)

@[simp]
theorem bmtBlock_setBmtBlock_self :
    bmtBlock d (setBmtBlock d k block m) k = BitVec.ofNat 16 block :=
  store_self

theorem bmtBlock_setBmtBlock_of_ne (different : other ≠ k) :
    bmtBlock d (setBmtBlock d k block m) other = bmtBlock d m other :=
  store_of_ne (by omega)

@[simp]
theorem bmtMapped_setBmtBlock : bmtMapped d (setBmtBlock d k block m) other = bmtMapped d m other :=
  store_of_ne (by omega)

theorem bbTbl_setBmtBlock (inside : i < d.tableSize) :
    bbTbl (setBmtBlock d k block m) i = bbTbl m i :=
  store_of_ne (by omega)

@[simp]
theorem bmtMapped_setBmtMapped_self : bmtMapped d (setBmtMapped d k mapped m) k = mapped :=
  store_self

theorem bmtMapped_setBmtMapped_of_ne (different : other ≠ k) :
    bmtMapped d (setBmtMapped d k mapped m) other = bmtMapped d m other :=
  store_of_ne (by omega)

@[simp]
theorem bmtBlock_setBmtMapped : bmtBlock d (setBmtMapped d k mapped m) other = bmtBlock d m other :=
  store_of_ne (by omega)

theorem bbTbl_setBmtMapped (inside : i < d.tableSize) :
    bbTbl (setBmtMapped d k mapped m) i = bbTbl m i :=
  store_of_ne (by omega)

def Memory.signed (m : Memory) : Memory :=
  (m.store 0 SIGNATURE).store 1 SIGNATURE_VERSION

@[simp]
theorem bbTbl_signed : bbTbl m.signed i = bbTbl m i :=
  (store_of_ne (by omega)).trans (store_of_ne (by omega))

@[simp]
theorem bmtBlock_signed : bmtBlock d m.signed k = bmtBlock d m k :=
  (store_of_ne (by omega)).trans (store_of_ne (by omega))

@[simp]
theorem bmtMapped_signed : bmtMapped d m.signed k = bmtMapped d m k :=
  (store_of_ne (by omega)).trans (store_of_ne (by omega))

/-! ## Uploading -/

/-- What a round of `upload_bmt` or several of them may do to the table: empty
pool entries from `lowest` to `highest`. -/
structure Emptied (d : Desc) (lowest highest : Nat) (before after : Memory) : Prop where
  bbTbl : ∀ i < d.tableSize, bbTbl after i = bbTbl before i
  bmtMapped : ∀ k, bmtMapped d after k = bmtMapped d before k
  bmtBlock : ∀ k, k < lowest ∨ highest < k → bmtBlock d after k = bmtBlock d before k
  bmtBlkIdx : after.bmtBlkIdx = before.bmtBlkIdx
  poolPba : after.poolPba = before.poolPba

namespace Emptied

variable {before middle after : Memory} {lowest highest : Nat}

theorem refl (d : Desc) (lowest highest : Nat) (m : Memory) : Emptied d lowest highest m m :=
  ⟨fun _ _ => rfl, fun _ => rfl, fun _ _ => rfl, rfl, rfl⟩

theorem trans (first : Emptied d lowest highest before middle)
    (second : Emptied d lowest highest middle after) :
    Emptied d lowest highest before after where
  bbTbl i inside := (second.bbTbl i inside).trans (first.bbTbl i inside)
  bmtMapped k := (second.bmtMapped k).trans (first.bmtMapped k)
  bmtBlock k outside := (second.bmtBlock k outside).trans (first.bmtBlock k outside)
  bmtBlkIdx := second.bmtBlkIdx.trans first.bmtBlkIdx
  poolPba := second.poolPba.trans first.poolPba

theorem widen {lower higher : Nat} (emptied : Emptied d lowest highest before after)
    (below : lower ≤ lowest) (above : highest ≤ higher) : Emptied d lower higher before after :=
  { emptied with
    bmtBlock := fun k outside => emptied.bmtBlock k (outside.imp (by omega) (by omega)) }

theorem signed (m : Memory) : Emptied d lowest highest m m.signed :=
  ⟨fun _ _ => bbTbl_signed, fun _ => bmtMapped_signed, fun _ _ => bmtBlock_signed, rfl, rfl⟩

theorem setBmtBlock (m : Memory) (n : Nat) : Emptied d n n m (setBmtBlock d n 0 m) where
  bbTbl _ inside := bbTbl_setBmtBlock inside
  bmtMapped _ := bmtMapped_setBmtBlock
  bmtBlock _ outside := bmtBlock_setBmtBlock_of_ne (by omega)
  bmtBlkIdx := rfl
  poolPba := rfl

end Emptied

theorem writeBmt_keepsMem (d : Desc) (block : Nat) : Preserves KeepsMem (writeBmt d block) :=
  fun s => KeepsMem.writeOob d _ _ _ s

/-- A round at entry `n` empties that entry or, when it succeeds, none. -/
theorem uploadTo_emptied (d : Desc) (n : Nat) (s : State Memory) :
    Ensures (uploadTo d n) s fun done after =>
      Emptied d n n s.mem after.mem ∧
        (done → bmtBlock d after.mem n = bmtBlock d s.mem n) := by
  refine .getMem_bind (((KeepsMem.bbtNandErase d _).ensures s).bind fun _ erased kept => ?_)
  replace kept : erased.mem = s.mem := kept
  refine .ite (fun _ => .modifyMem_bind (.pure ?_)) fun _ => .modifyMem_bind ?_
  · exact ⟨kept ▸ .setBmtBlock _ n, nofun⟩
  · refine ((writeBmt_keepsMem d _).ensures _).bind fun _ written keptWrite => ?_
    replace keptWrite : written.mem = s.mem.signed := keptWrite.trans (congrArg Memory.signed kept)
    have signed : Emptied d n n s.mem written.mem := keptWrite ▸ .signed _
    refine .ite (fun _ => .modifyMem_bind (.pure ?_)) fun _ => .pure ?_
    · exact ⟨signed.trans (.setBmtBlock _ n), nofun⟩
    · exact ⟨signed, fun _ => by rw [keptWrite, bmtBlock_signed]⟩

/-- What `upload_bmt` does to the table in memory: the entry it returns is not in
use and it and the entries before it are untouched. -/
structure Uploaded (d : Desc) (n : Nat) (before : Memory) (found : Nat) (after : Memory) :
    Prop where
  emptied : Emptied d 0 n before after
  le : found ≠ NO_SPACE → found ≤ n
  free : found ≠ NO_SPACE → bmtMapped d before found ≠ NORMAL_MAPPED
  kept : found ≠ NO_SPACE → ∀ k ≤ found, bmtBlock d after k = bmtBlock d before k

theorem uploadFrom_uploaded {n : Nat} (small : n < 2 ^ 16) {previous : BmtM Memory Nat}
    {s : State Memory} (rest : ∀ middle, Emptied d n n s.mem middle.mem →
      Ensures previous middle fun found after => Uploaded d n s.mem found after.mem) :
    Ensures (uploadFrom d n previous) s fun found after => Uploaded d n s.mem found after.mem := by
  refine .getMem_bind (.ite (fun _ => .pure ?_) fun unused => ?_)
  · exact ⟨.refl d 0 n s.mem, fun some => absurd rfl some, fun some => absurd rfl some,
      fun some => absurd rfl some⟩
  · refine (uploadTo_emptied d n s).bind fun done middle result => ?_
    obtain ⟨emptied, intact⟩ := result
    refine .ite (fun holds => .pure ?_) fun _ => rest middle emptied
    have returned : u16 n = n := u16_of_lt small
    refine ⟨emptied.widen (Nat.zero_le n) le_rfl, fun _ => returned.le, fun _ => ?_,
      fun _ k upTo => ?_⟩
    · rwa [returned]
    · rcases Nat.lt_or_eq_of_le (returned ▸ upTo) with below | rfl
      · exact emptied.bmtBlock k (.inl below)
      · exact intact holds

theorem uploadBmt_uploaded (d : Desc) {n : Nat} (small : n < 2 ^ 16) (s : State Memory) :
    Ensures (uploadBmt d n) s fun found after => Uploaded d n s.mem found after.mem := by
  induction n generalizing s with
  | zero =>
    refine uploadFrom_uploaded small fun middle emptied => .pure ?_
    exact ⟨emptied, fun some => absurd rfl some, fun some => absurd rfl some,
      fun some => absurd rfl some⟩
  | succ n ih =>
    refine uploadFrom_uploaded small fun middle emptied => ?_
    refine (ih (by omega) middle).mono fun found after uploaded => ?_
    refine ⟨(emptied.widen (Nat.zero_le _) le_rfl).trans
      (uploaded.emptied.widen le_rfl (Nat.le_succ n)), fun some => ?_, fun some => ?_,
      fun some k upTo => ?_⟩
    · exact (uploaded.le some).trans (Nat.le_succ n)
    · rw [← emptied.bmtMapped]
      exact uploaded.free some
    · have below : k < n + 1 := by
        have := uploaded.le some
        omega
      exact (uploaded.kept some k upTo).trans (emptied.bmtBlock k (.inl below))

end MetaFilogic.Bmt.V2
