import MetaFilogic.BmtNmbm.Creation

/-!
# Giving a spare block back

`unmap_block_nmbm` goes back to the last logical block that is not remapped and adds the distance
to its physical block.  That is the factory block exactly when no factory-bad block lies between
the two and there is such a logical block at all; the boundary of the spare blocks is then the
right one again.
-/

namespace MetaFilogic.BmtNmbm

open Bytes
open Nmbm (u32 subU32 BLOCK_ST_BAD BLOCK_ST_GOOD)

variable {σ : Type} {bmtd : Bmtd σ} {s : State σ} {factory : Nat → BitVec 32} {capacity : Nat}

/-! ## The two loops -/

/-- The last logical block up to `block` that is not remapped. -/
structure Instance.LastOriginal (ni : Instance) (block start : Nat) : Prop where
  le : start ≤ block
  original : ¬ni.Remapped start
  between : ∀ lb, start < lb → lb ≤ block → ni.Remapped lb

variable {ni : Instance} {block start : Nat}

theorem Instance.LastOriginal.unique {other : Nat} (first : ni.LastOriginal block start)
    (second : ni.LastOriginal block other) : start = other := by
  rcases Nat.lt_trichotomy start other with before | same | after
  · exact absurd (first.between other before second.le) second.original
  · exact same
  · exact absurd (second.between start after first.le) first.original

theorem unmapStart_cases (offset : Nat) (agrees : ∀ lb, lb ≤ start →
      (ni.Remapped lb ↔ ni.mappingBlocksBa ≤ (ni.blockMapping lb).toNat)) :
    (unmapStart ni start offset = none ∧ ∀ lb, lb ≤ start → ni.Remapped lb) ∨
      ∃ found, unmapStart ni start offset = some (found, offset + (start - found)) ∧
        ni.LastOriginal start found := by
  induction start generalizing offset with
  | zero =>
    rw [unmapStart]
    by_cases remapped : ni.Remapped 0
    · refine .inl ⟨if_pos ((agrees 0 le_rfl).mp remapped), fun lb low => ?_⟩
      obtain rfl := Nat.le_zero.mp low
      exact remapped
    · refine .inr ⟨0, if_neg fun above => remapped ((agrees 0 le_rfl).mpr above), le_rfl,
        remapped, fun lb above low => absurd low (Nat.not_le.mpr above)⟩
  | succ start ih =>
    rw [unmapStart]
    by_cases remapped : ni.Remapped (start + 1)
    · rw [if_pos ((agrees _ le_rfl).mp remapped)]
      -- from here back, the block itself is remapped
      have last {lb : Nat} (low : lb ≤ start + 1) (above : ¬lb ≤ start) : ni.Remapped lb := by
        obtain rfl : lb = start + 1 := by omega
        exact remapped
      rcases ih (offset + 1) fun lb low => agrees lb (by omega) with none | some
      · refine .inl ⟨none.1, fun lb low => ?_⟩
        by_cases earlier : lb ≤ start
        · exact none.2 lb earlier
        · exact last low earlier
      · obtain ⟨found, run, isLast⟩ := some
        have le := isLast.le
        refine .inr ⟨found, ?_, by omega, isLast.original, fun lb above low => ?_⟩
        · rw [run, show offset + 1 + (start - found) = offset + (start + 1 - found) by omega]
        · by_cases earlier : lb ≤ start
          · exact isLast.between lb above earlier
          · exact last low earlier
    · rw [if_neg fun above => remapped ((agrees _ le_rfl).mpr above)]
      refine .inr ⟨start + 1, by simp, le_rfl, remapped,
        fun lb above low => absurd low (Nat.not_le.mpr above)⟩

/-- The new boundary lies below every entry at or above `mapping_blocks_ba`, and not below any
bound that is below all of them. -/
theorem unmapTop_spec {blocks : Nat} {newBlock bound : Int} (start : bound ≤ newBlock)
    (entries : ∀ lb, block ≤ lb → lb < block + blocks →
      ni.mappingBlocksBa ≤ (ni.blockMapping lb).toNat → bound < (ni.blockMapping lb).toInt) :
    bound ≤ unmapTop ni blocks block newBlock ∧ unmapTop ni blocks block newBlock ≤ newBlock ∧
      ∀ lb, block ≤ lb → lb < block + blocks →
        ni.mappingBlocksBa ≤ (ni.blockMapping lb).toNat →
          unmapTop ni blocks block newBlock < (ni.blockMapping lb).toInt := by
  induction blocks generalizing block newBlock with
  | zero => exact ⟨start, le_rfl, fun lb above below => absurd below (Nat.not_lt.mpr above)⟩
  | succ blocks ih =>
    have later : ∀ lb, block + 1 ≤ lb → lb < block + 1 + blocks →
        ni.mappingBlocksBa ≤ (ni.blockMapping lb).toNat → bound < (ni.blockMapping lb).toInt :=
      fun lb above below => entries lb (by omega) (by omega)
    simp only [unmapTop]
    by_cases low : (ni.blockMapping block).toNat < ni.mappingBlocksBa
    · rw [if_pos low]
      obtain ⟨kept, less, above⟩ := ih start later
      refine ⟨kept, less, fun lb from' upTo high => ?_⟩
      by_cases is : lb = block
      · subst is
        omega
      · exact above lb (by omega) (by omega) high
    · rw [if_neg low]
      have here := entries block le_rfl (by omega) (Nat.not_lt.mp low)
      by_cases lower : (ni.blockMapping block).toInt ≤ newBlock
      · rw [if_pos lower]
        have next : bound ≤ (ni.blockMapping block).toInt - 1 := by omega
        obtain ⟨kept, less, above⟩ := ih next later
        refine ⟨kept, by omega, fun lb from' upTo high => ?_⟩
        by_cases is : lb = block
        · subst is
          omega
        · exact above lb (by omega) (by omega) high
      · rw [if_neg lower]
        obtain ⟨kept, less, above⟩ := ih start later
        refine ⟨kept, less, fun lb from' upTo high => ?_⟩
        by_cases is : lb = block
        · subst is
          omega
        · exact above lb (by omega) (by omega) high

/-! ## The block given back -/

/-- The memory once `unmap_block_nmbm` has changed mapping and boundary. -/
def Instance.giveBack (ni : Instance) (block start offset : Nat) : Instance :=
  let newBlock := ni.blockMapping start + BitVec.ofNat 32 offset
  let ni := { ni.setBlockState newBlock.toNat BLOCK_ST_GOOD with
    blockMapping := fun other => if other = block then newBlock else ni.blockMapping other
    blockMappingChanged := ni.blockMappingChanged + 1 }
  { ni with
    mappingBlocksTopBa :=
      (BitVec.ofInt 32 (unmapTop ni ni.dataBlockCount 0
        (BitVec.ofNat 32 ni.signatureBa - 1).toInt)).toNat }

theorem unmapBlockNmbm_run {block : BitVec 16} {offset : Nat}
    (inside : block.toNat < s.ni.dataBlockCount)
    (found : unmapStart s.ni block.toNat 0 = some (start, offset)) (moved : offset ≠ 0) :
    (unmapBlockNmbm bmtd block s).2 = (updateInfoTable bmtd
      { s with ni := s.ni.giveBack block.toNat start offset }).2 := by
  rw [unmapBlockNmbm, getNi_run, if_neg (Nat.not_le.mpr inside), found]
  dsimp only
  rw [if_neg moved]
  rfl

theorem toInt_of_small {entry : BitVec 32} (small : entry.toNat < 2 ^ 16) :
    entry.toInt = entry.toNat :=
  BitVec.toInt_eq_toNat_of_lt (by omega)

theorem toNat_ofInt_of_small {value : Int} (low : 0 ≤ value) (small : value < 2 ^ 16) :
    ((BitVec.ofInt 32 value).toNat : Int) = value := by
  rw [BitVec.toNat_ofInt]
  omega

theorem toInt_pred {ba : Nat} (pos : 0 < ba) (small : ba < 2 ^ 16) :
    (BitVec.ofNat 32 ba - 1).toInt = ba - 1 := by
  have pred : (BitVec.ofNat 32 ba - 1).toNat = ba - 1 := by
    rw [BitVec.toNat_sub, BitVec.toNat_ofNat, show (1 : BitVec 32).toNat = 1 from rfl]
    omega
  rw [toInt_of_small (by omega), pred]
  omega

theorem Session.restore {other : Instance} (session : Session bmtd capacity factory ni)
    (numbered : block < capacity) (inside : block < ni.dataBlockCount) (placed : Placed other)
    (mapping : ∀ lb, other.blockMapping lb =
      if lb = block then factory block else ni.blockMapping lb)
    (count : other.dataBlockCount = ni.dataBlockCount) (start : other.mgmtStartBa = ni.mgmtStartBa)
    (signature : other.signatureBa = ni.signatureBa)
    (below : other.mappingBlocksTopBa < ni.signatureBa)
    (spares : ∀ lb, lb ≠ block → ni.Remapped lb → lb < ni.dataBlockCount →
      other.mappingBlocksTopBa < (ni.blockMapping lb).toNat) :
    Session bmtd capacity factory other := by
  have blockLow := session.numbers.data block numbered
  have here : other.blockMapping block = factory block := (mapping block).trans (if_pos rfl)
  have there {lb : Nat} (distinct : lb ≠ block) : other.blockMapping lb = ni.blockMapping lb :=
    (mapping lb).trans (if_neg distinct)
  -- no other logical block has the block given back
  have fresh {lb : Nat} (distinct : lb ≠ block) (lbInside : lb < ni.dataBlockCount) :
      ni.blockMapping lb ≠ factory block := by
    intro equal
    by_cases remapped : ni.Remapped lb
    · rw [Instance.Remapped, equal] at remapped
      omega
    · obtain ⟨lbNumbered, original⟩ := session.original lb remapped lbInside
      exact distinct (session.numbers.injective lbNumbered numbered (original.symm.trans equal))
  refine
    { toPlaced := placed
      numbers := start ▸ session.numbers
      count := by rw [count, start]; exact session.count
      signature := signature ▸ below
      chip := signature ▸ session.chip
      original := fun lb fixed lbInside => ?_
      spare := fun lb remapped lbInside => ?_
      injective := fun first second firstInside secondInside equal => ?_
      beyond := fun lb beyond => ?_ }
  · rw [Instance.Remapped, start] at fixed
    by_cases is : lb = block
    · rw [is]
      exact ⟨numbered, here⟩
    · rw [there is] at fixed ⊢
      exact session.original lb fixed (count ▸ lbInside)
  · rw [Instance.Remapped, start] at remapped
    by_cases is : lb = block
    · rw [is, here] at remapped
      omega
    · rw [there is] at remapped ⊢
      rw [signature]
      exact ⟨spares lb is remapped (count ▸ lbInside),
        (session.spare lb remapped (count ▸ lbInside)).2⟩
  · rw [count] at firstInside secondInside
    by_cases firstIs : first = block
    · by_cases secondIs : second = block
      · exact firstIs.trans secondIs.symm
      · rw [firstIs, here, there secondIs] at equal
        exact absurd equal.symm (fresh secondIs secondInside)
    · by_cases secondIs : second = block
      · rw [secondIs, here, there firstIs] at equal
        exact absurd equal (fresh firstIs firstInside)
      · rw [there firstIs, there secondIs] at equal
        exact session.injective first second firstInside secondInside equal
  · rw [there (by omega)]
    exact session.beyond lb (count ▸ beyond)

/-- What `unmap_block_nmbm` computes is the factory block exactly if the factory mapping has no gap
after the last block that is not remapped; then the logical block has a factory block at all. -/
theorem Session.numbered (session : Session bmtd capacity factory ni)
    (inside : block < ni.dataBlockCount) (last : ni.LastOriginal block start)
    (right : factory block = factory start + BitVec.ofNat 32 (block - start)) :
    block < capacity := by
  have count := session.count
  have low := session.low
  have high := session.high
  have signature := session.signature
  have chip := session.small
  have blocks := session.chip
  have le := last.le
  have startLow := session.numbers.data start
    (session.original start last.original (by omega)).1
  by_contra beyond
  rw [session.numbers.none block (Nat.not_lt.mp beyond) (by omega)] at right
  have values := congrArg BitVec.toNat right
  rw [BitVec.toNat_add, BitVec.toNat_ofNat, show (-1 : BitVec 32).toNat = 2 ^ 32 - 1 from rfl]
    at values
  omega

/-- The boundary computed from a mapping whose entries at or above `mapping_blocks_ba` lie below the
signature. -/
theorem unmapTop_boundary (low : ni.mappingBlocksBa < ni.signatureBa)
    (small : ni.signatureBa < 2 ^ 16)
    (entries : ∀ lb, lb < ni.dataBlockCount → ni.mappingBlocksBa ≤ (ni.blockMapping lb).toNat →
      ni.mappingBlocksBa < (ni.blockMapping lb).toNat ∧
        (ni.blockMapping lb).toNat < ni.signatureBa) :
    ∃ boundary, (BitVec.ofInt 32 (unmapTop ni ni.dataBlockCount 0
        (BitVec.ofNat 32 ni.signatureBa - 1).toInt)).toNat = boundary ∧
      ni.mappingBlocksBa ≤ boundary ∧ boundary < ni.signatureBa ∧
      ∀ lb, lb < ni.dataBlockCount → ni.mappingBlocksBa ≤ (ni.blockMapping lb).toNat →
        boundary < (ni.blockMapping lb).toNat := by
  rw [toInt_pred (by omega) small]
  have bounded : ∀ lb, 0 ≤ lb → lb < 0 + ni.dataBlockCount →
      ni.mappingBlocksBa ≤ (ni.blockMapping lb).toNat →
        (ni.mappingBlocksBa : Int) < (ni.blockMapping lb).toInt := by
    intro lb _ lbInside entry
    have := entries lb (by omega) entry
    rw [toInt_of_small (by omega)]
    omega
  obtain ⟨kept, less, above⟩ := unmapTop_spec
    (show (ni.mappingBlocksBa : Int) ≤ ni.signatureBa - 1 by omega) bounded
  generalize unmapTop ni ni.dataBlockCount 0 ((ni.signatureBa : Int) - 1) = top
    at kept less above
  have topIs : ((BitVec.ofInt 32 top).toNat : Int) = top :=
    toNat_ofInt_of_small (by omega) (by omega)
  refine ⟨_, rfl, by omega, by omega, fun lb lbInside entry => ?_⟩
  have := entries lb lbInside entry
  have lower := above lb (Nat.zero_le _) (by omega) entry
  rw [toInt_of_small (by omega)] at lower
  omega

theorem Session.giveBack (session : Session bmtd capacity factory ni)
    (inside : block < ni.dataBlockCount) (last : ni.LastOriginal block start)
    (right : factory block = factory start + BitVec.ofNat 32 (block - start)) :
    Session bmtd capacity factory (ni.giveBack block start (block - start)) := by
  have numbered := session.numbered inside last right
  have blockLow := session.numbers.data block numbered
  have low := session.low
  have high := session.high
  have signature := session.signature
  have startIs : ni.blockMapping start = factory start :=
    (session.original start last.original (by have := last.le; omega)).2
  have entry : ni.blockMapping start + BitVec.ofNat 32 (block - start) = factory block := by
    rw [startIs, right]
  generalize middleIs : ({ ni.setBlockState (factory block).toNat BLOCK_ST_GOOD with
    blockMapping := fun other => if other = block then factory block else ni.blockMapping other
    blockMappingChanged := ni.blockMappingChanged + 1 } : Instance) = middle
  have givenBack : ni.giveBack block start (block - start) = { middle with
      mappingBlocksTopBa := (BitVec.ofInt 32 (unmapTop middle middle.dataBlockCount 0
        (BitVec.ofNat 32 middle.signatureBa - 1).toInt)).toNat } := by
    rw [Instance.giveBack, entry, ← middleIs]
  have mapping (lb : Nat) : middle.blockMapping lb =
      if lb = block then factory block else ni.blockMapping lb := by rw [← middleIs]
  have blocks : middle.mappingBlocksBa = ni.mappingBlocksBa := by rw [← middleIs]; rfl
  have count : middle.dataBlockCount = ni.dataBlockCount := by rw [← middleIs]; rfl
  have signatureIs : middle.signatureBa = ni.signatureBa := by rw [← middleIs]; rfl
  have mgmt : middle.mgmtStartBa = ni.mgmtStartBa := by rw [← middleIs]; rfl
  have main : middle.mainTableBa = ni.mainTableBa := by rw [← middleIs]; rfl
  have backup : middle.backupTableBa = ni.backupTableBa := by rw [← middleIs]; rfl
  have entries : ∀ lb, lb < middle.dataBlockCount →
      middle.mappingBlocksBa ≤ (middle.blockMapping lb).toNat →
        middle.mappingBlocksBa < (middle.blockMapping lb).toNat ∧
          (middle.blockMapping lb).toNat < middle.signatureBa := by
    intro lb lbInside entry
    rw [mapping, blocks, signatureIs] at *
    by_cases is : lb = block
    · rw [if_pos is] at entry
      omega
    · rw [if_neg is] at entry ⊢
      have := session.spare lb (low.trans entry) (count ▸ lbInside)
      omega
  obtain ⟨boundary, computed, boundaryLow, boundaryHigh, above⟩ :=
    unmapTop_boundary (by omega) (signatureIs ▸ session.small) entries
  rw [givenBack, computed]
  refine session.restore numbered inside ?_ mapping count mgmt signatureIs
    (signatureIs ▸ boundaryHigh) fun lb distinct remapped lbInside => ?_
  · exact ⟨by dsimp only; omega, boundaryLow, by dsimp only; rw [main, mgmt]; exact session.main,
      by dsimp only; rw [backup, mgmt, blocks]; exact session.backup⟩
  · have entry := (session.remapped_iff lbInside).mp remapped
    have lower := above lb (count ▸ lbInside)
    rw [mapping, if_neg distinct, blocks] at lower
    exact lower entry

/-! ## What an unmap leaves -/

/-- The mapping is as it should be after a block was given back. -/
structure Restored (factory : Nat → BitVec 32) (block : Nat) (ni : Instance) : Prop where
  injective : ∀ lb other, lb < ni.dataBlockCount → other < ni.dataBlockCount →
    ni.blockMapping lb = ni.blockMapping other → lb = other
  original : ni.blockMapping block = factory block
  below : ∀ lb, ni.Remapped lb → lb < ni.dataBlockCount →
    ni.mappingBlocksTopBa < (ni.blockMapping lb).toNat
  above : ni.mappingBlocksBa ≤ ni.mappingBlocksTopBa

/-- The logical block is outside the data area, or there is a last logical block before it that is
not remapped, possibly itself, and no block is missing from the factory mapping in between. -/
def Restorable (factory : Nat → BitVec 32) (block : Nat) (ni : Instance) : Prop :=
  ni.dataBlockCount ≤ block ∨ ∃ start, ni.LastOriginal block start ∧
    factory block = factory start + BitVec.ofNat 32 (block - start)

theorem Session.restored (session : Session bmtd capacity factory ni)
    (original : ni.blockMapping block = factory block) : Restored factory block ni :=
  ⟨session.injective, original, fun lb remapped inside => (session.spare lb remapped inside).1,
    session.high⟩

theorem Session.moved (session : Session bmtd capacity factory ni)
    (inside : block < ni.dataBlockCount) (remapped : ni.Remapped block) :
    ni.blockMapping block ≠ factory block := by
  intro original
  have spare := session.spare block remapped inside
  have chip := session.small
  have count := session.count
  have start := session.low.trans session.high
  have signature := session.signature
  have blocks := session.chip
  rw [Instance.Remapped, original] at remapped
  rw [original] at spare
  by_cases numbered : block < capacity
  · have := session.numbers.data block numbered
    omega
  · rw [session.numbers.none block (Nat.not_lt.mp numbered) (by omega),
      show (-1 : BitVec 32).toNat = 2 ^ 32 - 1 from rfl] at spare
    omega

/-- One call of `unmap_block_nmbm` in a session. -/
theorem Session.restored_iff (session : Session bmtd capacity factory s.ni)
    (block : BitVec 16) : Restored factory block.toNat (unmapBlockNmbm bmtd block s).2.ni ↔
      Restorable factory block.toNat s.ni := by
  by_cases inside : block.toNat < s.ni.dataBlockCount
  · have agrees (lb : Nat) (low : lb ≤ block.toNat) :
        s.ni.Remapped lb ↔ s.ni.mappingBlocksBa ≤ (s.ni.blockMapping lb).toNat :=
      session.remapped_iff (low.trans_lt inside)
    rcases unmapStart_cases 0 agrees with ⟨none, all⟩ | ⟨start, found, last⟩
    · -- every block up to this one is remapped: the code gives up
      have run : unmapBlockNmbm bmtd block s = ((), s) := by
        rw [unmapBlockNmbm, getNi_run, if_neg (Nat.not_le.mpr inside), none]
        rfl
      rw [run]
      refine iff_of_false (fun restored => ?_) fun restorable => ?_
      · exact session.moved inside (all _ le_rfl) restored.original
      · rcases restorable with outside | ⟨start, last, _⟩
        · exact absurd inside (Nat.not_lt.mpr outside)
        · exact last.original (all start last.le)
    · rw [Nat.zero_add] at found
      by_cases itself : block.toNat - start = 0
      · -- the block is not remapped
        have run : unmapBlockNmbm bmtd block s = ((), s) := by
          rw [unmapBlockNmbm, getNi_run, if_neg (Nat.not_le.mpr inside), found]
          dsimp only
          rw [if_pos itself]
          rfl
        obtain rfl : start = block.toNat := by have := last.le; omega
        rw [run]
        refine iff_of_true ?_ (.inr ⟨_, last, by simp⟩)
        exact session.restored (session.original _ last.original inside).2
      · have startIs : s.ni.blockMapping start = factory start :=
          (session.original start last.original (by have := last.le; omega)).2
        rw [unmapBlockNmbm_run inside found itself]
        constructor
        · intro restored
          have kept : ∀ s : State σ, (updateInfoTable bmtd s).2.ni.blockMapping =
              s.ni.blockMapping := fun s => (congrArg (·.1) (kept_updateInfoTable s) :)
          have original := restored.original
          rw [kept] at original
          refine .inr ⟨start, last, ?_⟩
          rw [← original, ← startIs]
          exact if_pos rfl
        · rintro (outside | ⟨other, otherLast, right⟩)
          · exact absurd inside (Nat.not_lt.mpr outside)
          obtain rfl := last.unique otherLast
          have given := session.giveBack inside last right
          generalize givenIs : ({ s with
            ni := s.ni.giveBack block.toNat start (block.toNat - start) } : State σ) = back
          have session : Session bmtd capacity factory back.ni := by
            rw [← givenIs]
            exact given
          obtain ⟨maintained, placed⟩ : Maintained back (updateInfoTable bmtd back).2 ∧
              Placed (updateInfoTable bmtd back).2.ni := updateInfoTable_spec session.toPlaced
          refine (session.maintained maintained placed).restored ?_
          rw [maintained.mapping, right, ← startIs, ← givenIs]
          exact if_pos rfl
  · have run : unmapBlockNmbm bmtd block s = ((), s) := by
      rw [unmapBlockNmbm, getNi_run, if_pos (Nat.not_lt.mp inside)]
      rfl
    rw [run]
    refine iff_of_true (session.restored ?_) (.inl (Nat.not_lt.mp inside))
    exact session.beyond _ (Nat.not_lt.mp inside)

/-- After a creation and any history of remaps in which every spare block was taken at
`mapping_blocks_top_ba`, an unmap leaves the mapping as it should be exactly if the block is
restorable. -/
theorem unmapBlockNmbm_restored_iff (creation : Creation bmtd) (s : State σ)
    (created : (create bmtd creation s).1 = true) (history : List Remap) (block : BitVec 16)
    (taken : (remapAll bmtd history (create bmtd creation s).2).2.TakenAtTop) :
    Restored (factoryMapping bmtd creation s) block.toNat
        (unmapBlockNmbm bmtd block (remapAll bmtd history (create bmtd creation s).2).2).2.ni ↔
      Restorable (factoryMapping bmtd creation s) block.toNat
        (remapAll bmtd history (create bmtd creation s).2).2.ni := by
  have keeps : Keeps bmtd (fillTables bmtd creation.mgmtStart s).2.ni.dataBlockCount
      (factoryMapping bmtd creation s) (create bmtd creation s).2
      (remapAll bmtd history (create bmtd creation s).2).2 := keeps_remapAll history _
  have start := create_session creation s created fun topState among =>
    taken topState (keeps.spares among)
  exact (keeps.session taken start).restored_iff block

/-- A driver for a chip of 64-byte pages and 256-byte blocks with some factory-bad blocks, on which
every operation succeeds. -/
def goodDriver (bad : Nat → Bool) : FlashDriver (Nat → List Byte) where
  readOob addr len _ := fun flash => (⟨0, len, flash addr⟩, flash)
  writeOob addr data := fun flash =>
    (0, fun other => if other = addr then data else flash other)
  erase addr len := fun flash =>
    (0, fun other => if addr ≤ other ∧ other < addr + len then fill 64 0xff else flash other)
  blockIsbad addr := fun flash => (bad (addr / 256), flash)
  blockMarkbad _ := fun flash => (0, flash)

def sixteenBlocks (bad : Nat → Bool) : Bmtd (Nat → List Byte) where
  driver := goodDriver bad
  totalBlks := 16
  blkShift := 8
  pgShift := 6
  oobsize := 4
  bitflipThreshold := 1
  eccStrength := 4
  maxRatio := 8
  maxReservedBlocks := 0
  emptyPageEccOk := false
  totalBlks_pos := by decide
  totalBlks_lt := by decide
  pgShift_le := by decide

/-- The memory after `nmbm_init_structure` on an erased chip. -/
def freshState (bmtd : Bmtd (Nat → List Byte)) : State (Nat → List Byte) where
  ni :=
    { infoTableCache := []
      infoTable := ⟨⟨0, 0, 0, 0⟩, 0, BitVec.ofNat 32 bmtd.stateTableOff,
        BitVec.ofNat 32 bmtd.mappingTableOff, 0⟩
      blockState := fun _ => 0xffffffff
      blockStateChanged := 0
      blockMapping := fun _ => 0
      blockMappingChanged := 0
      isProtected := false
      dataBlockCount := 0
      mgmtStartBa := 0
      mainTableBa := 0
      backupTableBa := 0
      mappingBlocksBa := 0
      mappingBlocksTopBa := 0
      signatureBa := 0 }
  chip _ := fill 64 0xff
  spares := []

def remapped (bad : Nat → Bool) (history : List Remap) : State (Nat → List Byte) :=
  (remapAll (sixteenBlocks bad) history
    (create (sixteenBlocks bad) .new (freshState (sixteenBlocks bad))).2).2

theorem updateInfoTable_ends_fresh :
    updateInfoTable (sixteenBlocks fun _ => false) (freshState (sixteenBlocks fun _ => false)) =
      updateInfoTableLoop (sixteenBlocks fun _ => false) 9
        (freshState (sixteenBlocks fun _ => false)) :=
  updateInfoTable_ends ⟨le_rfl, le_rfl, .inl rfl, .inl rfl⟩ rfl (by decide)

/-- After a creation and any history of remaps in which every spare block was taken at
`mapping_blocks_top_ba`, different logical blocks have different blocks: the factory's, or spare
ones between the tables and the signature. -/
theorem remapAll_session (creation : Creation bmtd) (s : State σ)
    (created : (create bmtd creation s).1 = true) (history : List Remap)
    (taken : (remapAll bmtd history (create bmtd creation s).2).2.TakenAtTop) :
    Session bmtd (fillTables bmtd creation.mgmtStart s).2.ni.dataBlockCount
      (factoryMapping bmtd creation s) (remapAll bmtd history (create bmtd creation s).2).2.ni := by
  have keeps : Keeps bmtd (fillTables bmtd creation.mgmtStart s).2.ni.dataBlockCount
      (factoryMapping bmtd creation s) (create bmtd creation s).2
      (remapAll bmtd history (create bmtd creation s).2).2 := keeps_remapAll history _
  exact keeps.session taken (create_session creation s created fun topState among =>
    taken topState (keeps.spares among))

theorem remapAll_session_once : Session (sixteenBlocks (· = 1))
    (fillTables (sixteenBlocks (· = 1)) (.new : Creation (sixteenBlocks (· = 1))).mgmtStart
      (freshState (sixteenBlocks (· = 1)))).2.ni.dataBlockCount
    (factoryMapping (sixteenBlocks (· = 1)) .new (freshState (sixteenBlocks (· = 1))))
    (remapped (· = 1) [⟨1, 2, 256⟩]).ni := by
  have created : (create (sixteenBlocks (· = 1)) .new
      (freshState (sixteenBlocks (· = 1)))).1 = true := by decide +kernel
  have spares : (remapped (· = 1) [⟨1, 2, 256⟩]).spares = [BLOCK_ST_GOOD, BLOCK_ST_GOOD] := by
    decide +kernel
  have taken : (remapped (· = 1) [⟨1, 2, 256⟩]).TakenAtTop := by
    rw [State.TakenAtTop, spares]
    simp
  unfold remapped at taken ⊢
  exact remapAll_session .new _ created _ taken

/-- Without factory-bad blocks, logical block 1 gets its block back. -/
theorem unmapBlockNmbm_restored :
    Restored (factoryMapping (sixteenBlocks fun _ => false) .new
        (freshState (sixteenBlocks fun _ => false))) (1 : BitVec 16).toNat
      (unmapBlockNmbm (sixteenBlocks fun _ => false) 1
        (remapped (fun _ => false) [⟨1, 1, 256⟩])).2.ni := by
  have created : (create (sixteenBlocks fun _ => false) .new
      (freshState (sixteenBlocks fun _ => false))).1 = true := by decide +kernel
  have spares : (remapped (fun _ => false) [⟨1, 1, 256⟩]).spares = [BLOCK_ST_GOOD] := by
    decide +kernel
  have taken : (remapped (fun _ => false) [⟨1, 1, 256⟩]).TakenAtTop := by
    rw [State.TakenAtTop, spares]
    exact fun topState among => List.mem_singleton.mp among
  have last : (remapped (fun _ => false) [⟨1, 1, 256⟩]).ni.LastOriginal (1 : BitVec 16).toNat 0 := by
    refine ⟨by decide, by decide +kernel, fun lb above low => ?_⟩
    obtain rfl : lb = 1 := by
      have : lb ≤ 1 := low
      omega
    decide +kernel
  have right : factoryMapping (sixteenBlocks fun _ => false) .new
      (freshState (sixteenBlocks fun _ => false)) (1 : BitVec 16).toNat =
      factoryMapping (sixteenBlocks fun _ => false) .new
        (freshState (sixteenBlocks fun _ => false)) 0 + BitVec.ofNat 32 1 := by decide +kernel
  unfold remapped at taken last ⊢
  exact (unmapBlockNmbm_restored_iff .new _ created _ 1 taken).mpr (.inr ⟨0, last, right⟩)

/-- With block 1 factory-bad, logical block 1 was mapped to block 2 and is given block 1. -/
theorem unmapBlockNmbm_factory_bad :
    (create (sixteenBlocks (· = 1)) .new (freshState (sixteenBlocks (· = 1)))).1 = true ∧
      factoryMapping (sixteenBlocks (· = 1)) .new (freshState (sixteenBlocks (· = 1))) 1 = 2 ∧
      (unmapBlockNmbm (sixteenBlocks (· = 1)) 1
        (remapped (· = 1) [⟨1, 2, 256⟩])).2.ni.blockMapping 1 = 1 ∧
      ¬Restored (factoryMapping (sixteenBlocks (· = 1)) .new (freshState (sixteenBlocks (· = 1)))) 1
        (unmapBlockNmbm (sixteenBlocks (· = 1)) 1 (remapped (· = 1) [⟨1, 2, 256⟩])).2.ni := by
  have factory : factoryMapping (sixteenBlocks (· = 1)) .new
      (freshState (sixteenBlocks (· = 1))) 1 = 2 := by decide +kernel
  have given : (unmapBlockNmbm (sixteenBlocks (· = 1)) 1
      (remapped (· = 1) [⟨1, 2, 256⟩])).2.ni.blockMapping 1 = 1 := by decide +kernel
  refine ⟨by decide +kernel, factory, given, fun restored => ?_⟩
  have original := restored.original
  rw [given, factory] at original
  exact absurd original (by decide)

end MetaFilogic.BmtNmbm
