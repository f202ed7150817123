import MetaFilogic.BmtNmbm.Maintain

/-!
# Factory blocks and spare blocks

While every spare block is taken at `mapping_blocks_top_ba`, a logical block is mapped either to
the block the factory mapping gives it or to a spare block above `mapping_blocks_top_ba`.
`Session` says so; it is established by the creation of the management data and kept by every
`remap_block_nmbm`.
-/

namespace MetaFilogic.BmtNmbm

open Bytes
open Nmbm (u32 subU32 BLOCK_ST_BAD BLOCK_ST_GOOD)

variable {σ α : Type} {bmtd : Bmtd σ} {s : State σ} {factory : Nat → BitVec 32}

/-! ## The factory mapping -/

/-- The logical blocks from `lb` on are mapped to ascending ones of the next `blocks` blocks from
`pb` on. -/
structure Numbers (blocks pb lb : Nat) (mapping : Nat → BitVec 32)
    (result : (Nat → BitVec 32) × Nat) : Prop where
  high : result.2 ≤ lb + blocks
  low : lb ≤ result.2
  kept : ∀ other, other < lb → result.1 other = mapping other
  within : ∀ other, lb ≤ other → other < result.2 →
    pb ≤ (result.1 other).toNat ∧ (result.1 other).toNat < pb + blocks
  ascending : ∀ first second, lb ≤ first → first < second → second < result.2 →
    (result.1 first).toNat < (result.1 second).toNat

theorem buildMappingLoop_numbers (ni : Instance) (blocks pb lb : Nat)
    (mapping : Nat → BitVec 32) (width : pb + blocks ≤ 2 ^ 32) :
    Numbers blocks pb lb mapping (buildMappingLoop ni blocks pb lb mapping) := by
  induction blocks generalizing pb lb mapping with
  | zero =>
    refine ⟨le_rfl, le_rfl, fun _ _ => rfl, fun other low high => ?_,
      fun first second low apart high => ?_⟩
    · exact absurd high (Nat.not_lt.mpr low)
    · exact absurd high (Nat.not_lt.mpr (low.trans apart.le))
  | succ blocks ih =>
    rw [buildMappingLoop]
    split
    · have rest := ih (pb + 1) lb mapping (by omega)
      refine ⟨Nat.le_succ_of_le rest.high, rest.low, rest.kept, fun other low high => ?_,
        rest.ascending⟩
      have := rest.within other low high
      omega
    · have rest := ih (pb + 1) (lb + 1)
        (fun other => if other = lb then BitVec.ofNat 32 pb else mapping other) (by omega)
      generalize buildMappingLoop ni blocks (pb + 1) (lb + 1)
        (fun other => if other = lb then BitVec.ofNat 32 pb else mapping other) = result at rest
      have low := rest.low
      have high := rest.high
      have here : (result.1 lb).toNat = pb := by
        rw [rest.kept lb (Nat.lt_succ_self lb), if_pos rfl, BitVec.toNat_ofNat,
          Nat.mod_eq_of_lt (by omega)]
      refine ⟨by omega, by omega, fun other below => ?_, fun other above below => ?_,
        fun first second above apart below => ?_⟩
      · rw [rest.kept other (by omega), if_neg (by omega)]
      · by_cases is : other = lb
        · subst is
          omega
        · have := rest.within other (by omega) below
          omega
      · by_cases is : first = lb
        · have := rest.within second (by omega) below
          subst is
          omega
        · exact rest.ascending first second (by omega) apart below

/-- The factory mapping, with `capacity` logical blocks, for a management area that starts at
`mgmtStart`. -/
structure Factory (bmtd : Bmtd σ) (mgmtStart capacity : Nat) (factory : Nat → BitVec 32) :
    Prop where
  fits : capacity ≤ mgmtStart
  data : ∀ lb, lb < capacity → (factory lb).toNat < mgmtStart
  ascending : ∀ first second, first < second → second < capacity →
    (factory first).toNat < (factory second).toNat
  none : ∀ lb, capacity ≤ lb → lb < bmtd.totalBlks → factory lb = -1

theorem Factory.injective {mgmtStart capacity : Nat}
    (numbers : Factory bmtd mgmtStart capacity factory) {lb other : Nat} (inside : lb < capacity)
    (otherInside : other < capacity) (equal : factory lb = factory other) : lb = other := by
  rcases Nat.lt_trichotomy lb other with before | same | after
  · have := numbers.ascending lb other before otherInside
    rw [equal] at this
    exact absurd this (lt_irrefl _)
  · exact same
  · have := numbers.ascending other lb after inside
    rw [equal] at this
    exact absurd this (lt_irrefl _)

/-! ## Sessions -/

def Instance.Remapped (ni : Instance) (lb : Nat) : Prop :=
  ni.mgmtStartBa ≤ (ni.blockMapping lb).toNat

instance (ni : Instance) (lb : Nat) : Decidable (ni.Remapped lb) := by
  unfold Instance.Remapped
  infer_instance

/-- The state of an attached chip on which every spare block was taken at
`mapping_blocks_top_ba`. -/
structure Session (bmtd : Bmtd σ) (capacity : Nat) (factory : Nat → BitVec 32) (ni : Instance) :
    Prop extends Placed ni where
  numbers : Factory bmtd ni.mgmtStartBa capacity factory
  count : ni.dataBlockCount ≤ ni.mgmtStartBa
  signature : ni.mappingBlocksTopBa < ni.signatureBa
  chip : ni.signatureBa < bmtd.totalBlks
  original : ∀ lb, ¬ni.Remapped lb → lb < ni.dataBlockCount →
    lb < capacity ∧ ni.blockMapping lb = factory lb
  spare : ∀ lb, ni.Remapped lb → lb < ni.dataBlockCount →
    ni.mappingBlocksTopBa < (ni.blockMapping lb).toNat ∧
      (ni.blockMapping lb).toNat < ni.signatureBa
  injective : ∀ lb other, lb < ni.dataBlockCount → other < ni.dataBlockCount →
    ni.blockMapping lb = ni.blockMapping other → lb = other
  beyond : ∀ lb, ni.dataBlockCount ≤ lb → ni.blockMapping lb = factory lb

namespace Session

variable {capacity : Nat} {ni : Instance} (session : Session bmtd capacity factory ni)

include session

/-- The blocks that are not remapped lie below `mapping_blocks_ba`, the others above. -/
theorem remapped_iff {lb : Nat} (inside : lb < ni.dataBlockCount) :
    ni.Remapped lb ↔ ni.mappingBlocksBa ≤ (ni.blockMapping lb).toNat := by
  refine ⟨fun remapped => ?_, fun above => session.low.trans above⟩
  have := (session.spare lb remapped inside).1
  have := session.high
  omega

theorem small : ni.signatureBa < 2 ^ 16 :=
  session.chip.trans bmtd.totalBlks_lt

theorem congr {other : Instance} (placed : Placed other)
    (mapping : other.blockMapping = ni.blockMapping)
    (count : other.dataBlockCount = ni.dataBlockCount) (start : other.mgmtStartBa = ni.mgmtStartBa)
    (top : other.mappingBlocksTopBa ≤ ni.mappingBlocksTopBa)
    (signature : other.signatureBa = ni.signatureBa) : Session bmtd capacity factory other where
  toPlaced := placed
  numbers := start ▸ session.numbers
  count := by
    rw [count, start]
    exact session.count
  signature := by
    have := session.signature
    omega
  chip := signature ▸ session.chip
  original lb fixed inside := by
    rw [Instance.Remapped, start, mapping] at fixed
    rw [mapping]
    exact session.original lb fixed (count ▸ inside)
  spare lb remapped inside := by
    rw [Instance.Remapped, start, mapping] at remapped
    rw [mapping, signature]
    have := session.spare lb remapped (count ▸ inside)
    omega
  injective := by
    rw [mapping, count]
    exact session.injective
  beyond := by
    rw [mapping, count]
    exact session.beyond

end Session

theorem Session.maintained {capacity : Nat} {before after : State σ}
    (session : Session bmtd capacity factory before.ni) (maintained : Maintained before after)
    (placed : Placed after.ni) : Session bmtd capacity factory after.ni :=
  session.congr placed maintained.mapping maintained.dataBlockCount maintained.mgmtStartBa
    maintained.top.le maintained.signatureBa

theorem Session.marked {capacity : Nat} {before after : State σ}
    (session : Session bmtd capacity factory before.ni) (marked : Marked before after) :
    Session bmtd capacity factory after.ni := by
  rw [marked.same]
  exact session.congr ⟨session.low, session.high, session.main, session.backup⟩
    rfl rfl rfl le_rfl rfl

/-- A spare block is taken at `mapping_blocks_top_ba`, for a logical block in use or for the next
one. -/
theorem Session.take {capacity lb count : Nat} {ni : Instance}
    (session : Session bmtd capacity factory ni) (room : ni.mappingBlocksBa < ni.mappingBlocksTopBa)
    (grows : lb < ni.dataBlockCount ∧ count = ni.dataBlockCount ∨
      lb = ni.dataBlockCount ∧ count = ni.dataBlockCount + 1 ∧ count ≤ ni.mgmtStartBa) :
    Session bmtd capacity factory { ni with
      blockMapping := fun other =>
        if other = lb then BitVec.ofNat 32 ni.mappingBlocksTopBa else ni.blockMapping other
      mappingBlocksTopBa := ni.mappingBlocksTopBa - 1
      blockMappingChanged := ni.blockMappingChanged + 1
      dataBlockCount := count } := by
  have low := session.low
  have signature := session.signature
  have small := session.small
  have start := session.count
  have top : (BitVec.ofNat 32 ni.mappingBlocksTopBa).toNat = ni.mappingBlocksTopBa := by
    rw [BitVec.toNat_ofNat, Nat.mod_eq_of_lt (by omega)]
  -- the block taken differs from all others in use
  have fresh (other : Nat) (inside : other < ni.dataBlockCount) :
      ni.blockMapping other ≠ BitVec.ofNat 32 ni.mappingBlocksTopBa := by
    intro equal
    by_cases remapped : ni.Remapped other
    · have := (session.spare other remapped inside).1
      rw [equal] at this
      omega
    · rw [Instance.Remapped, equal] at remapped
      omega
  have older {other : Nat} (inside : other < count) (distinct : other ≠ lb) :
      other < ni.dataBlockCount := by omega
  exact
    { low := low
      high := by dsimp only; omega
      main := session.main
      backup := session.backup
      numbers := session.numbers
      count := by dsimp only; omega
      signature := by dsimp only; omega
      chip := session.chip
      original := by
        intro other fixed inside
        simp only [Instance.Remapped] at fixed ⊢
        by_cases is : other = lb
        · rw [if_pos is, top] at fixed
          omega
        · rw [if_neg is] at fixed ⊢
          exact session.original other fixed (older inside is)
      spare := by
        intro other remapped inside
        simp only [Instance.Remapped] at remapped ⊢
        by_cases is : other = lb
        · rw [if_pos is, top]
          omega
        · rw [if_neg is] at remapped ⊢
          have := session.spare other remapped (older inside is)
          omega
      injective := by
        intro first second firstInside secondInside equal
        dsimp only at equal
        by_cases firstIs : first = lb
        · by_cases secondIs : second = lb
          · exact firstIs.trans secondIs.symm
          · rw [if_pos firstIs, if_neg secondIs] at equal
            exact absurd equal.symm (fresh second (older secondInside secondIs))
        · by_cases secondIs : second = lb
          · rw [if_neg firstIs, if_pos secondIs] at equal
            exact absurd equal (fresh first (older firstInside firstIs))
          · rw [if_neg firstIs, if_neg secondIs] at equal
            exact session.injective first second (older firstInside firstIs)
              (older secondInside secondIs) equal
      beyond := by
        intro other above
        dsimp only at above ⊢
        rw [if_neg (by omega)]
        exact session.beyond other (by omega) }

/-! ## Taking spare blocks -/

/-- Every spare block was taken while the block at `mapping_blocks_top_ba` was recorded as good. -/
def State.TakenAtTop (s : State σ) : Prop := ∀ topState ∈ s.spares, topState = BLOCK_ST_GOOD

/-- A step that keeps a session as long as spare blocks are taken at `mapping_blocks_top_ba`. -/
structure Keeps (bmtd : Bmtd σ) (capacity : Nat) (factory : Nat → BitVec 32)
    (before after : State σ) : Prop where
  spares : before.spares ⊆ after.spares
  session : after.TakenAtTop → Session bmtd capacity factory before.ni →
    Session bmtd capacity factory after.ni

section Steps

variable {capacity : Nat}

instance : Std.Refl (Keeps bmtd capacity factory) :=
  ⟨fun _ => ⟨List.Subset.refl _, fun _ session => session⟩⟩

instance : IsTrans (State σ) (Keeps bmtd capacity factory) :=
  ⟨fun _ _ _ first second => ⟨List.Subset.trans first.spares second.spares, fun taken session =>
    second.session taken (first.session (fun _ among => taken _ (second.spares among)) session)⟩⟩

theorem keeps_of_marked {program : NmbmM σ α} (marked : Preserves Marked program) :
    Preserves (Keeps bmtd capacity factory) program :=
  marked.mono fun _ _ marked =>
    ⟨fun _ among => marked.spares ▸ among, fun _ session => session.marked marked⟩

theorem keeps_updateInfoTable : Preserves (Keeps bmtd capacity factory) (updateInfoTable bmtd) := by
  intro s
  have kept : Kept s (updateInfoTable bmtd s).2 := kept_updateInfoTable s
  have spares : (updateInfoTable bmtd s).2.spares = s.spares := (congrArg (·.2.2.2.2.2) kept :)
  refine ⟨fun _ among => spares ▸ among, fun _ session => ?_⟩
  obtain ⟨maintained, placed⟩ : Maintained s (updateInfoTable bmtd s).2 ∧
      Placed (updateInfoTable bmtd s).2.ni := updateInfoTable_spec session.toPlaced
  exact session.maintained maintained placed

theorem blockWalk_top {ni : Instance} {top limit pb : Nat}
    (good : ni.getBlockState top = BLOCK_ST_GOOD)
    (found : blockWalk bmtd ni false top 0 limit = some pb) : pb = top := by
  simp only [blockWalk, Bool.false_eq_true, if_false, blockWalkDesc] at found
  cases blocks : top - walkLimit bmtd limit with
  | zero =>
    rw [blocks] at found
    cases found
  | succ blocks =>
    rw [‹top - walkLimit bmtd limit = _›, blockWalkDescLoop, if_pos good] at found
    exact (Option.some.inj found).symm

variable {lb : Nat}

/-- `nmbm_map_block` fails and leaves the session, or takes a spare block. -/
theorem mapBlock_cases {post : Bool → State σ → Prop}
    (failed : ∀ after, Keeps bmtd capacity factory s after →
      after.ni.dataBlockCount = s.ni.dataBlockCount → post false after)
    (taken : ∀ pb, s.ni.mappingBlocksBa ≠ s.ni.mappingBlocksTopBa →
      blockWalk bmtd s.ni false s.ni.mappingBlocksTopBa 0 s.ni.mappingBlocksBa = some pb →
      post true { s with
        ni := { s.ni with
          blockMapping := fun other =>
            if other = lb then BitVec.ofNat 32 pb else s.ni.blockMapping other
          mappingBlocksTopBa := subU32 s.ni.mappingBlocksTopBa 1
          blockMappingChanged := s.ni.blockMappingChanged + 1 }
        spares := s.ni.getBlockState s.ni.mappingBlocksTopBa :: s.spares }) :
    Ensures (mapBlock bmtd lb) s post := by
  refine ensures_getNi (.ite (fun _ => .pure (failed s (refl_of _ s) rfl)) fun room => ?_)
  cases found : blockWalk bmtd s.ni false s.ni.mappingBlocksTopBa 0 s.ni.mappingBlocksBa with
  | some pb => exact taken pb room found
  | none =>
    have kept : Kept s (updateInfoTable bmtd s).2 := kept_updateInfoTable s
    have keeps : Keeps bmtd capacity factory s (updateInfoTable bmtd s).2 :=
      keeps_updateInfoTable s
    refine failed _ ⟨keeps.spares, fun taken session => ?_⟩ (congrArg (·.2.1) kept :)
    have after := keeps.session taken session
    exact after.congr ⟨after.low, le_rfl, after.main, after.backup⟩ rfl rfl rfl after.high rfl

theorem subU32_one {top : Nat} (pos : 0 < top) (small : top < 2 ^ 32) : subU32 top 1 = top - 1 := by
  rw [subU32]
  omega

theorem keeps_mapBlock (inside : lb < s.ni.dataBlockCount) :
    Ensures (mapBlock bmtd lb) s fun _ after => Keeps bmtd capacity factory s after := by
  refine mapBlock_cases (fun after keeps _ => keeps) fun pb room found => ?_
  refine ⟨fun _ among => List.mem_cons_of_mem _ among, fun taken session => ?_⟩
  have good : s.ni.getBlockState s.ni.mappingBlocksTopBa = BLOCK_ST_GOOD :=
    taken _ List.mem_cons_self
  obtain rfl := blockWalk_top good found
  have high := session.high
  have signature := session.signature
  have small := session.small
  rw [subU32_one (by omega) (by omega)]
  exact session.take (by omega) (.inl ⟨inside, rfl⟩)

theorem keeps_remapTail {blocks : Nat} (next : s.ni.dataBlockCount = lb)
    (fits : lb + blocks ≤ s.ni.mgmtStartBa ∨ blocks = 0) :
    Ensures (remapTail bmtd lb blocks) s fun _ after => Keeps bmtd capacity factory s after := by
  induction blocks generalizing lb s with
  | zero => exact .pure (refl_of _ s)
  | succ blocks ih =>
    have fitsNext : s.ni.dataBlockCount + 1 ≤ s.ni.mgmtStartBa := by omega
    -- what a success leaves, once the block is counted
    have mapping : Ensures (mapBlock bmtd lb) s fun success after =>
        (success = false → Keeps bmtd capacity factory s after) ∧
        (success = true → Keeps bmtd capacity factory s { after with
          ni := { after.ni with dataBlockCount := after.ni.dataBlockCount + 1 } } ∧
          after.ni.dataBlockCount = lb ∧ after.ni.mgmtStartBa = s.ni.mgmtStartBa) := by
      refine mapBlock_cases (fun after keeps _ => ⟨fun _ => keeps, nofun⟩) fun pb room found =>
        ⟨nofun, fun _ => ⟨?_, next, rfl⟩⟩
      refine ⟨fun _ among => List.mem_cons_of_mem _ among, fun taken session => ?_⟩
      have good : s.ni.getBlockState s.ni.mappingBlocksTopBa = BLOCK_ST_GOOD :=
        taken _ List.mem_cons_self
      obtain rfl := blockWalk_top good found
      have high := session.high
      have signature := session.signature
      have small := session.small
      rw [subU32_one (by omega) (by omega)]
      exact session.take (by omega) (.inr ⟨next.symm, rfl, fitsNext⟩)
    refine mapping.bind fun success after mapped => ?_
    cases success with
    | false => exact .ite nofun fun _ => .pure (mapped.1 rfl)
    | true =>
      obtain ⟨keeps, count, start⟩ := mapped.2 rfl
      refine .ite (fun _ => ensures_modifyNi ?_) fun no => absurd rfl no
      refine (ih (by dsimp only; omega) (by dsimp only; omega)).mono fun _ final rest => ?_
      exact trans_of _ keeps rest

theorem keeps_remapBlockNmbm (block mappedBlock : BitVec 16) (copyLen : Int) :
    Preserves (Keeps bmtd capacity factory) (remapBlockNmbm bmtd block mappedBlock copyLen) := by
  refine .of_ensures fun s => ensures_getNi (.ite (fun _ => .pure (refl_of _ s)) fun inside => ?_)
  generalize markedIs : ({ s with
    ni := s.ni.setBlockState mappedBlock.toNat BLOCK_ST_BAD } : State σ) = marked
  have marks : Keeps bmtd capacity factory s marked := by
    subst markedIs
    exact keeps_of_marked (marked_setBlockState mappedBlock.toNat BLOCK_ST_BAD) s
  have maps : Ensures (mapBlock bmtd block.toNat) marked fun _ after =>
      Keeps bmtd capacity factory marked after := by
    subst markedIs
    exact keeps_mapBlock (Nat.not_le.mp inside)
  refine ensures_modifyNi ?_
  rw [markedIs]
  refine maps.bind fun success after mapped => ?_
  have before := trans_of (Keeps bmtd capacity factory) marks mapped
  have rest : Preserves (Keeps bmtd capacity factory) (updateInfoTable bmtd >>= fun _ => pure true) :=
    keeps_updateInfoTable.bind fun _ => .pure _
  refine .ite (fun _ => .pure before) fun _ => ensures_getNi ?_
  have finish : Preserves (Keeps bmtd capacity factory) (do
      let _ ← bbtNandErase bmtd ((after.ni.blockMapping block.toNat).toNat % 2 ^ 16)
      if 0 < copyLen then
        let _ ← bbtNandCopy bmtd ((after.ni.blockMapping block.toNat).toNat % 2 ^ 16)
          mappedBlock.toNat copyLen
      let _ ← updateInfoTable bmtd
      return true) := by
    refine (keeps_of_marked (marked_of_idle (idle_call _))).bind fun _ => ?_
    refine .ite (fun _ => ?_) fun _ => rest
    exact (keeps_of_marked (marked_of_idle (idle_bbtNandCopy _ _ _))).bind fun _ => rest
  exact (finish.ensures after).mono fun _ _ later => trans_of _ before later

theorem keeps_remapAll (history : List Remap) :
    Preserves (Keeps bmtd capacity factory) (remapAll bmtd history) := by
  induction history with
  | nil => exact .pure _
  | cons remap rest ih => exact (keeps_remapBlockNmbm _ _ _).bind fun _ => ih

end Steps

end MetaFilogic.BmtNmbm
