import MetaFilogic.Hnat.Tables

/-!
# Table sizes and loop bounds

The number of entries is one variable for all PPEs, halved by the retry loop of
`hnat_start`, while the size programmed into a PPE starts anew for each PPE and several
loops run to the number of entries before any halving.  So all of them agree exactly
when no PPE has to retry.
-/

namespace MetaFilogic.Hnat

open Function (update update_self update_of_ne)

variable {alloc : AllocOutcomes} {data : HnatData} {ppeId : Nat} {h : MtkHnat}

def FirstAttempt (alloc : AllocOutcomes) (ppeId : Nat) : Prop :=
  alloc.foeTable ppeId DEF_ETRY_NUM_CFG = true ∧ alloc.foeFlow ppeId DEF_ETRY_NUM_CFG = true

/-! ## Starting the PPEs -/

variable {after : MtkHnat} {count ppes size : Nat} {skipNull : Bool}
  {visit : Nat → Nat → FoeEntry → Option FoeEntry}

theorem allocTables_some {tries etryNumCfg : Nat}
    (run : allocTables alloc ppeId (tries + 1) h = (some etryNumCfg, after)) :
    etryNumCfg ≤ tries ∧
      (etryNumCfg = tries ↔ alloc.foeTable ppeId tries = true ∧ alloc.foeFlow ppeId tries = true) ∧
      after = { h with
        foeEtryNum := h.foeEtryNum / 2 ^ (tries - etryNumCfg)
        foeTableCpu := update h.foeTableCpu ppeId
          (some (List.replicate (h.foeEtryNum / 2 ^ (tries - etryNumCfg)) .zero))
        foeFlow := update h.foeFlow ppeId
          (some (List.replicate (h.foeEtryNum / 2 ^ (tries - etryNumCfg) / 4) [])) } := by
  induction tries generalizing h with
  | zero =>
    unfold allocTables at run
    split at run
    · split at run
      · rename_i table flow
        cases run
        exact ⟨Nat.le_refl _, iff_of_true rfl ⟨table, flow⟩, by simp⟩
      · exact absurd run (by simp [allocTables])
    · exact absurd run (by simp [allocTables])
  | succ tries ih =>
    by_cases first : alloc.foeTable ppeId (tries + 1) = true ∧ alloc.foeFlow ppeId (tries + 1) = true
    · rw [allocTables, if_pos first.1, if_pos first.2] at run
      cases run
      exact ⟨Nat.le_refl _, iff_of_true rfl first, by simp⟩
    · have again : allocTables alloc ppeId (tries + 1) { h with foeEtryNum := h.foeEtryNum / 2 } =
          (some etryNumCfg, after) := by
        rw [allocTables] at run
        split at run
        · rename_i table
          rwa [if_neg fun flow => first ⟨table, flow⟩] at run
        · exact run
      obtain ⟨bound, _, result⟩ := ih again
      have halved : h.foeEtryNum / 2 / 2 ^ (tries - etryNumCfg) =
          h.foeEtryNum / 2 ^ (tries + 1 - etryNumCfg) := by
        rw [Nat.div_div_eq_div_mul, ← Nat.pow_succ', Nat.succ_sub bound]
      dsimp only at result
      rw [halved] at result
      exact ⟨Nat.le_succ_of_le bound, iff_of_false (by omega) first, result⟩

theorem foldlM_length {α β : Type*} {step : List α → β → Option (List α)}
    (keeps : ∀ table x after, step table x = some after → after.length = table.length)
    {xs : List β} {table after : List α} (run : xs.foldlM step table = some after) :
    after.length = table.length := by
  induction xs generalizing table with
  | nil =>
    cases run
    rfl
  | cons x xs ih =>
    rw [List.foldlM_cons] at run
    cases first : step table x with
    | none =>
      rw [first] at run
      exact absurd run nofun
    | some middle =>
      rw [first] at run
      rw [ih run, keeps table x middle first]

theorem excludeBoundaryEntry_length {foeEtryNum : Nat} {table after : List FoeEntry}
    (run : excludeBoundaryEntry foeEtryNum table = some after) : after.length = table.length := by
  refine foldlM_length (fun table i after inner => ?_) run
  refine foldlM_length (fun table offset after write => ?_) inner
  obtain ⟨entry, _, rfl⟩ := Option.map_eq_some_iff.mp write
  exact List.length_set ..

structure Allocated (h : MtkHnat) (ppeId : Nat) (size : Nat) (etryNumCfg : Nat) : Prop where
  table : ∃ table, h.foeTableCpu ppeId = some table ∧ table.length = size
  flow : ∃ heads, h.foeFlow ppeId = some heads ∧ heads.length = size / 4
  programmed : h.tbEtryNum ppeId = etryNumCfg

theorem hnatStart_zero (run : hnatStart alloc data ppeId h = some (0, after)) :
    ∃ etryNumCfg ≤ DEF_ETRY_NUM_CFG,
      (etryNumCfg = DEF_ETRY_NUM_CFG ↔ FirstAttempt alloc ppeId) ∧
      after.foeEtryNum = h.foeEtryNum / 2 ^ (DEF_ETRY_NUM_CFG - etryNumCfg) ∧
      Allocated after ppeId after.foeEtryNum etryNumCfg ∧
      after.ppeNum = h.ppeNum ∧
      ∀ other, other ≠ ppeId → after.foeTableCpu other = h.foeTableCpu other ∧
        after.foeFlow other = h.foeFlow other ∧ after.tbEtryNum other = h.tbEtryNum other := by
  unfold hnatStart at run
  split at run
  · exact absurd run (by simp [EINVAL])
  · cases allocated : allocTables alloc ppeId (DEF_ETRY_NUM_CFG + 1) h with
    | mk outcome middle =>
      rw [allocated] at run
      cases outcome with
      | none => exact absurd run (by simp)
      | some etryNumCfg =>
        obtain ⟨bound, first, rfl⟩ := allocTables_some allocated
        dsimp only at run
        rw [update_self, Option.getD_some] at run
        split at run
        · exact absurd run nofun
        · rename_i table excluded
          have size : table.length = h.foeEtryNum / 2 ^ (DEF_ETRY_NUM_CFG - etryNumCfg) := by
            split at excluded
            · rw [excludeBoundaryEntry_length excluded, List.length_replicate]
            · rw [← Option.some.inj excluded, List.length_replicate]
          split at run
          · exact absurd run (by simp)
          · cases run
            refine ⟨etryNumCfg, bound, first, rfl, ⟨⟨table, update_self .., size⟩,
              ⟨_, update_self .., List.length_replicate⟩, update_self ..⟩, rfl,
              fun other different => ⟨?_, update_of_ne different ..,
                update_of_ne different ..⟩⟩
            dsimp only
            rw [update_of_ne different, update_of_ne different]

structure Started (alloc : AllocOutcomes) (count ppeNum : Nat) (h : MtkHnat) : Prop where
  ppeNum : h.ppeNum = ppeNum
  bound : h.foeEtryNum ≤ DEF_ETRY_NUM
  full : (∀ ppeId < count, FirstAttempt alloc ppeId) → h.foeEtryNum = DEF_ETRY_NUM
  allocated : ∀ ppeId < count, ∃ size ≤ DEF_ETRY_NUM, ∃ etryNumCfg,
    Allocated h ppeId size etryNumCfg ∧ (¬FirstAttempt alloc ppeId → size < DEF_ETRY_NUM) ∧
    ((∀ ppeId < count, FirstAttempt alloc ppeId) →
      size = DEF_ETRY_NUM ∧ etryNumCfg = DEF_ETRY_NUM_CFG)

theorem startPpes_started {ppeNum : Nat}
    (run : startPpes alloc data count (.probed ppeNum) = some after) :
    Started alloc count ppeNum after := by
  induction count generalizing after with
  | zero =>
    cases run
    exact ⟨rfl, Nat.le_refl _, fun _ => rfl, fun _ below => absurd below (Nat.not_lt_zero _)⟩
  | succ count ih =>
    rw [startPpes] at run
    cases earlier : startPpes alloc data count (.probed ppeNum) with
    | none =>
      rw [earlier] at run
      exact absurd run nofun
    | some before =>
      rw [earlier] at run
      have started := ih earlier
      dsimp only at run
      split at run
      · rename_i h' last
        cases run
        obtain ⟨cfg, _, first, number, own, ppes, others⟩ := hnatStart_zero last
        have bound : after.foeEtryNum ≤ before.foeEtryNum :=
          number.trans_le (Nat.div_le_self ..)
        have halved (retried : ¬FirstAttempt alloc count) :
            after.foeEtryNum ≤ before.foeEtryNum / 2 := by
          have less : cfg ≠ DEF_ETRY_NUM_CFG := fun same => retried (first.mp same)
          have power : 2 ≤ 2 ^ (DEF_ETRY_NUM_CFG - cfg) :=
            Nat.le_self_pow (by omega) 2
          rw [number]
          exact Nat.div_le_div_left power (by decide)
        have earlierFirst (all : ∀ ppeId < count + 1, FirstAttempt alloc ppeId) :
            ∀ ppeId < count, FirstAttempt alloc ppeId := fun ppeId below =>
          all ppeId (Nat.lt_succ_of_lt below)
        have lastFull (all : ∀ ppeId < count + 1, FirstAttempt alloc ppeId) :
            after.foeEtryNum = DEF_ETRY_NUM := by
          rw [number, first.mpr (all count (Nat.lt_succ_self _)), Nat.sub_self, Nat.pow_zero,
            Nat.div_one, started.full (earlierFirst all)]
        refine ⟨ppes.trans started.ppeNum, bound.trans started.bound, lastFull,
          fun ppeId below => ?_⟩
        rcases Nat.lt_or_eq_of_le (Nat.le_of_lt_succ below) with before' | rfl
        · obtain ⟨size, small, cfg', given, retried, all⟩ := started.allocated ppeId before'
          obtain ⟨table, flow, programmed⟩ := others ppeId (Nat.ne_of_lt before')
          refine ⟨size, small, cfg', ⟨?_, ?_, ?_⟩, retried, fun first => all (earlierFirst first)⟩
          · rw [table]
            exact given.table
          · rw [flow]
            exact given.flow
          · rw [programmed]
            exact given.programmed
        · refine ⟨_, bound.trans started.bound, cfg, own, fun retried => ?_, fun all =>
            ⟨lastFull all, first.mpr (all ppeId (Nat.lt_succ_self _))⟩⟩
          have half := halved retried
          have whole := started.bound
          unfold DEF_ETRY_NUM at whole ⊢
          omega
      · exact absurd run nofun

/-! ## Walking the tables -/

structure SameTables (h later : MtkHnat) : Prop where
  ppeNum : later.ppeNum = h.ppeNum
  foeEtryNum : later.foeEtryNum = h.foeEtryNum
  tbEtryNum : later.tbEtryNum = h.tbEtryNum
  foeTableCpu : ∀ ppeId, (later.foeTableCpu ppeId).map List.length =
    (h.foeTableCpu ppeId).map List.length
  foeFlow : ∀ ppeId, (later.foeFlow ppeId).map List.length = (h.foeFlow ppeId).map List.length

def MtkHnat.visitAll (h : MtkHnat) (visit : Nat → Nat → FoeEntry → Option FoeEntry) (ppes : Nat) :
    MtkHnat :=
  { h with foeTableCpu := fun ppeId =>
      if ppeId < ppes then
        (h.foeTableCpu ppeId).map fun table =>
          table.mapIdx fun index entry => (visit ppeId index entry).getD entry
      else h.foeTableCpu ppeId }

theorem walkPpes_covers
    (sized : ∀ ppeId < ppes, ∃ table, h.foeTableCpu ppeId = some table ∧ table.length = count) :
    ∃ ret, walkPpes skipNull visit count ppes h = some (ret, h.visitAll visit ppes) := by
  induction ppes with
  | zero => exact ⟨0, by simp [walkPpes, MtkHnat.visitAll]⟩
  | succ ppes ih =>
    obtain ⟨ret, run⟩ := ih fun ppeId below => sized ppeId (Nat.lt_succ_of_lt below)
    obtain ⟨table, present, rfl⟩ := sized ppes (Nat.lt_succ_self _)
    obtain ⟨cnt, pass⟩ := walk_all (visit ppes) table
    have unvisited : (h.visitAll visit ppes).foeTableCpu ppes = some table :=
      (if_neg (Nat.lt_irrefl _)).trans present
    refine ⟨ret + cnt, ?_⟩
    rw [walkPpes, run]
    dsimp only
    rw [unvisited]
    dsimp only
    rw [pass]
    dsimp only [MtkHnat.visitAll]
    congr 3
    funext ppeId
    by_cases same : ppeId = ppes
    · subst same
      rw [update_self, if_pos (Nat.lt_succ_self _), present, Option.map_some]
    · rw [update_of_ne same]
      exact if_congr (by omega) rfl rfl

theorem walkPpes_beyond {ret : Nat}
    (run : walkPpes skipNull visit count ppes h = some (ret, after)) :
    ∀ ppeId ≥ ppes, after.foeTableCpu ppeId = h.foeTableCpu ppeId := by
  induction ppes generalizing ret after with
  | zero =>
    cases run
    exact fun _ _ => rfl
  | succ ppes ih =>
    intro ppeId beyond
    rw [walkPpes] at run
    cases earlier : walkPpes skipNull visit count ppes h with
    | none =>
      rw [earlier] at run
      exact absurd run nofun
    | some result =>
      obtain ⟨ret, before⟩ := result
      have kept := ih earlier ppeId (Nat.le_of_succ_le beyond)
      rw [earlier] at run
      dsimp only at run
      split at run
      · split at run
        · cases run
          exact kept
        · exact absurd run nofun
      · split at run
        · exact absurd run nofun
        · cases run
          rw [← kept]
          exact update_of_ne (by omega) ..

theorem walkPpes_overruns
    (short : ∃ ppeId < ppes, ∃ table, h.foeTableCpu ppeId = some table ∧ table.length < count) :
    walkPpes skipNull visit count ppes h = none := by
  induction ppes with
  | zero => exact absurd short (by simp)
  | succ ppes ih =>
    obtain ⟨ppeId, below, table, present, shorter⟩ := short
    rw [walkPpes]
    cases run : walkPpes skipNull visit count ppes h with
    | none => rfl
    | some result =>
      obtain ⟨ret, after⟩ := result
      rcases Nat.lt_or_eq_of_le (Nat.le_of_lt_succ below) with before | rfl
      · rw [ih ⟨ppeId, before, table, present, shorter⟩] at run
        exact absurd run nofun
      · have untouched : after.foeTableCpu ppeId = some table := by
          rw [← present]
          exact walkPpes_beyond run ppeId (Nat.le_refl _)
        dsimp only
        rw [untouched]
        dsimp only
        rw [walk_outside shorter]

def isBoundary (index : Nat) : Prop := index % 128 ∈ boundaryEntryOffset

instance (index : Nat) : Decidable (isBoundary index) :=
  inferInstanceAs (Decidable (_ ∈ _))

/-- The eight writes of `exclude_boundary_entry` to the entries from `base` on. -/
theorem excludeBoundary_block {offsets : List Nat} {base : Nat} {table : List FoeEntry}
    (inside : ∀ offset ∈ offsets, base + offset < table.length) :
    offsets.foldlM (fun table offset =>
        (table[base + offset]?).map fun entry =>
          table.set (base + offset) (Bfib1.sta.set 1 entry)) table =
      some (table.mapIdx fun index entry =>
        if base ≤ index ∧ index - base ∈ offsets then Bfib1.sta.set 1 entry else entry) := by
  induction offsets generalizing table with
  | nil =>
    refine congrArg some (List.ext_getElem (by simp) fun index left right => ?_)
    simp
  | cons offset offsets ih =>
    have short : base + offset < table.length := inside offset List.mem_cons_self
    rw [List.foldlM_cons, List.getElem?_eq_getElem short, Option.map_some]
    change List.foldlM _ (table.set (base + offset) (Bfib1.sta.set 1 table[base + offset])) _ = _
    rw [ih fun offset member => by
      rw [List.length_set]
      exact inside offset (List.mem_cons_of_mem _ member)]
    refine congrArg some (List.ext_getElem (by simp) fun index left right => ?_)
    simp only [List.getElem_mapIdx, List.getElem_set, List.mem_cons]
    by_cases here : base + offset = index
    · subst here
      simp
    · have other : ¬(base ≤ index ∧ index - base = offset) := by omega
      simp only [here, if_false]
      refine if_congr ⟨fun found => ⟨found.1, .inr found.2⟩, fun found => ?_⟩ rfl rfl
      exact ⟨found.1, found.2.resolve_left fun same => other ⟨found.1, same⟩⟩

theorem boundaryEntryOffset_lt {offset : Nat} (member : offset ∈ boundaryEntryOffset) :
    offset < 128 := by
  revert offset
  decide

theorem isBoundary_block (block index : Nat) :
    block * 128 ≤ index ∧ index - block * 128 ∈ boundaryEntryOffset ↔
      block * 128 ≤ index ∧ index < (block + 1) * 128 ∧ isBoundary index := by
  refine and_congr_right fun above => ⟨fun member => ?_, fun ⟨below, boundary⟩ => ?_⟩
  · have small := boundaryEntryOffset_lt member
    have offset : index % 128 = index - block * 128 := by omega
    refine ⟨by omega, ?_⟩
    rwa [isBoundary, offset]
  · have offset : index % 128 = index - block * 128 := by omega
    rwa [isBoundary, offset] at boundary

theorem excludeBoundaryEntry_eq (blocks : Nat) {table : List FoeEntry}
    (size : table.length = blocks * 128) :
    excludeBoundaryEntry table.length table = some (table.mapIdx fun index entry =>
      if isBoundary index then Bfib1.sta.set 1 entry else entry) := by
  have upTo (count : Nat) (le : count ≤ blocks) :
      (List.range count).foldlM (fun table i =>
        boundaryEntryOffset.foldlM (fun table offset =>
          (table[i * 128 + offset]?).map fun entry =>
            table.set (i * 128 + offset) (Bfib1.sta.set 1 entry)) table) table =
        some (table.mapIdx fun index entry =>
          if index < count * 128 ∧ isBoundary index then Bfib1.sta.set 1 entry else entry) := by
    induction count with
    | zero =>
      refine congrArg some (List.ext_getElem (by simp) fun index left right => ?_)
      simp
    | succ count ih =>
      rw [List.range_succ, List.foldlM_append, ih (Nat.le_of_succ_le le)]
      change List.foldlM _ _ _ = _
      rw [List.foldlM_cons, excludeBoundary_block]
      · refine congrArg some (List.ext_getElem (by simp) fun index left right => ?_)
        simp only [List.getElem_mapIdx, isBoundary_block]
        rcases Nat.lt_or_ge index (count * 128) with earlier | reached
        · have before : index < (count + 1) * 128 := by omega
          simp [Nat.not_le_of_lt earlier, earlier, before]
        · simp [Nat.not_lt_of_le reached, reached]
      · intro offset member
        have small := boundaryEntryOffset_lt member
        rw [List.length_mapIdx, size]
        omega
  have bound : (table.length + 127) / 128 = blocks := by omega
  rw [excludeBoundaryEntry, bound, upTo blocks (Nat.le_refl _)]
  refine congrArg some (List.ext_getElem (by simp) fun index left right => ?_)
  have inside : index < blocks * 128 := by
    rw [← size]
    simpa using left
  simp [inside]

/-! ## Bounds of every loop -/

/-- The PPEs are programmed with the sizes of their tables, and every loop and lookup
stays inside the tables and covers them. -/
structure Covers (h : MtkHnat) : Prop where
  programmed : ∀ ppeId < h.ppeNum, ∃ table, h.foeTableCpu ppeId = some table ∧
    1024 <<< h.tbEtryNum ppeId = table.length
  byMac : ∀ stamps mac, ∃ ret, entryDeleteByMac stamps mac h = some (ret, h.visitAll
    (deleteMatching stamps fun entry => entryMacCmp entry mac ENTRY_CMP_ANY) h.ppeNum)
  byIp : ∀ stamps addr, ∃ ret, entryDeleteByIp stamps addr h = some (ret, h.visitAll
    (deleteMatching stamps fun entry => entryIpCmp entry addr ENTRY_CMP_ANY) h.ppeNum)
  byBssidWcid : ∀ stamps port bssid wcid, ∃ ret,
    entryDeleteByBssidWcid stamps port bssid wcid h = some (ret, h.visitAll
      (deleteMatching stamps (bssidWcidCmp port bssid wcid)) h.ppeNum)
  clearAll : ∀ stamps, ∃ ret, foeClearAllBindEntries stamps h = some (ret, h.visitAll
    (deleteMatching stamps fun _ => true) h.ppeNum)
  clearEthdev : ∀ stamps gmac port, ∃ ret, foeClearEthdevBindEntries stamps gmac port h =
    some (ret, h.visitAll (deleteMatching stamps (ethdevCmp gmac port)) h.ppeNum)
  clearCrypto : ∀ stamps cdrtIdx, ∃ ret, foeClearCryptoEntry stamps cdrtIdx h =
    some (ret, h.visitAll (deleteMatching stamps fun entry =>
      entry.isType IPV4_HNAPT && (ipv4Hnapt.cdrtId.get entry).setWidth 32 == cdrtIdx) h.ppeNum)
  clearEntry : ∀ stamps head, ∃ ret, foeClearEntry stamps head h = some (ret, h.visitAll
    (deleteMatching stamps fun entry => head.any (neighCmp entry)) h.ppeNum)
  boundary : ∀ ppeId < h.ppeNum, ∃ table, h.foeTableCpu ppeId = some table ∧
    excludeBoundaryEntry h.foeEtryNum table = some (table.mapIdx fun index entry =>
      if isBoundary index then Bfib1.sta.set 1 entry else entry)
  lookup : ∀ ppeId < h.ppeNum, ∃ table, h.foeTableCpu ppeId = some table ∧
    ∀ index, index ≠ 0x7fff → (hnatGetFoeEntry h ppeId index = some (ppeId, index) ↔
      index < table.length)
  teardownAll : ∀ ppeId < h.ppeNum, ∃ heads, h.foeFlow ppeId = some heads ∧
    hnatFlowEntryTeardownAll ppeId h = some { h with
      foeFlow := update h.foeFlow ppeId (some (heads.map fun _ => [])) }
  teardown : ∀ hz jiffies, hnatFlowEntryTeardownHandler hz jiffies h.ppeNum h = some { h with
    foeFlow := fun ppeId =>
      if ppeId < h.ppeNum then (h.foeFlow ppeId).map (List.map (liveEntries hz jiffies))
      else h.foeFlow ppeId }

structure FullSize (h : MtkHnat) : Prop where
  foeEtryNum : h.foeEtryNum = DEF_ETRY_NUM
  table : ∀ ppeId < h.ppeNum, ∃ table, h.foeTableCpu ppeId = some table ∧
    table.length = DEF_ETRY_NUM
  flow : ∀ ppeId < h.ppeNum, ∃ heads, h.foeFlow ppeId = some heads ∧
    heads.length = DEF_ETRY_NUM / 4
  programmed : ∀ ppeId < h.ppeNum, h.tbEtryNum ppeId = DEF_ETRY_NUM_CFG

theorem walk_replaced {α : Type*} {f : α → α} {cells : List α} (size : cells.length = count) :
    ∃ cnt, walk (fun _ cell => some (f cell)) count cells = some (cnt, cells.map f) := by
  obtain ⟨cnt, pass⟩ := walk_all (fun _ cell => some (f cell)) cells
  rw [← size]
  refine ⟨cnt, pass.trans ?_⟩
  congr 2
  exact List.ext_getElem (by simp) fun index left right => by simp

theorem FullSize.teardown (full : FullSize h) (hz : Nat) (jiffies : BitVec 64)
    (le : ppes ≤ h.ppeNum) :
    hnatFlowEntryTeardownHandler hz jiffies ppes h = some { h with
      foeFlow := fun ppeId =>
        if ppeId < ppes then (h.foeFlow ppeId).map (List.map (liveEntries hz jiffies))
        else h.foeFlow ppeId } := by
  induction ppes with
  | zero => simp [hnatFlowEntryTeardownHandler]
  | succ ppes ih =>
    obtain ⟨heads, present, size⟩ := full.flow ppes le
    obtain ⟨cnt, pass⟩ := walk_replaced (f := liveEntries hz jiffies) size
    have untouched : (if ppes < ppes then
        (h.foeFlow ppes).map (List.map (liveEntries hz jiffies)) else h.foeFlow ppes) =
          some heads := (if_neg (Nat.lt_irrefl _)).trans present
    rw [hnatFlowEntryTeardownHandler, ih (Nat.le_of_succ_le le)]
    dsimp only
    rw [untouched]
    dsimp only
    rw [pass]
    refine congrArg (fun flows => some { h with foeFlow := flows }) (funext fun ppeId => ?_)
    by_cases same : ppeId = ppes
    · subst same
      rw [update_self, if_pos (Nat.lt_succ_self _), present, Option.map_some]
    · rw [update_of_ne same]
      exact if_congr (by omega) rfl rfl

theorem FullSize.covers (full : FullSize h) : Covers h := by
  have number := full.foeEtryNum
  have all {skipNull : Bool} (visit : Nat → Nat → FoeEntry → Option FoeEntry) :
      ∃ ret, walkPpes skipNull visit DEF_ETRY_NUM h.ppeNum h =
        some (ret, h.visitAll visit h.ppeNum) := walkPpes_covers full.table
  refine ⟨fun ppeId inside => ?_, fun _ _ => all _, fun _ _ => all _, fun _ _ _ _ => all _,
    fun _ => ?_, fun _ _ _ => ?_, fun _ _ => ?_, fun _ _ => ?_, fun ppeId inside => ?_,
    fun ppeId inside => ?_, fun ppeId inside => ?_,
    fun hz jiffies => full.teardown hz jiffies (Nat.le_refl _)⟩
  · obtain ⟨table, present, size⟩ := full.table ppeId inside
    refine ⟨table, present, ?_⟩
    rw [full.programmed ppeId inside, size]
    rfl
  · rw [foeClearAllBindEntries, number]
    exact all _
  · rw [foeClearEthdevBindEntries, number]
    exact all _
  · rw [foeClearCryptoEntry, number]
    exact all _
  · rw [foeClearEntry, number]
    exact all _
  · obtain ⟨table, present, size⟩ := full.table ppeId inside
    refine ⟨table, present, ?_⟩
    rw [number, ← size]
    exact excludeBoundaryEntry_eq 64 size
  · obtain ⟨table, present, size⟩ := full.table ppeId inside
    refine ⟨table, present, fun index regular => ?_⟩
    rw [hnatGetFoeEntry, number, size]
    by_cases below : index < DEF_ETRY_NUM
    · have accepted : ¬(index = 0x7fff ∨ index ≥ DEF_ETRY_NUM ∨ ppeId ≥ h.ppeNum) := by omega
      rw [if_neg accepted]
      exact iff_of_true rfl below
    · rw [if_pos (.inr (.inl (Nat.le_of_not_lt below)))]
      exact iff_of_false nofun below
  · obtain ⟨heads, present, size⟩ := full.flow ppeId inside
    obtain ⟨cnt, pass⟩ := walk_replaced (f := fun _ : List FlowEntry => []) size
    refine ⟨heads, present, ?_⟩
    rw [hnatFlowEntryTeardownAll, present]
    dsimp only
    rw [pass]

/-- A table smaller than `hnat_start` begins with is overrun. -/
theorem entryDeleteByMac_overruns (inside : ppeId < h.ppeNum)
    (table : ∃ table, h.foeTableCpu ppeId = some table ∧ table.length = size)
    (small : size < DEF_ETRY_NUM) (stamps : Nat → Nat → BitVec 8) (mac : Mac) :
    entryDeleteByMac stamps mac h = none := by
  obtain ⟨table, present, rfl⟩ := table
  exact walkPpes_overruns ⟨ppeId, inside, table, present, small⟩

theorem SameTables.table {later : MtkHnat} (same : SameTables h later)
    (table : ∃ table, h.foeTableCpu ppeId = some table ∧ table.length = size) :
    ∃ table, later.foeTableCpu ppeId = some table ∧ table.length = size := by
  obtain ⟨table, present, rfl⟩ := table
  have lengths := same.foeTableCpu ppeId
  rw [present, Option.map_some] at lengths
  exact Option.map_eq_some_iff.mp lengths

theorem SameTables.flow {later : MtkHnat} (same : SameTables h later)
    (flow : ∃ heads, h.foeFlow ppeId = some heads ∧ heads.length = size) :
    ∃ heads, later.foeFlow ppeId = some heads ∧ heads.length = size := by
  obtain ⟨heads, present, rfl⟩ := flow
  have lengths := same.foeFlow ppeId
  rw [present, Option.map_some] at lengths
  exact Option.map_eq_some_iff.mp lengths

/-- Once all PPEs have started, every loop and lookup agrees with the tables from then on
exactly when no PPE had to retry its allocations. -/
theorem tables_covered_iff {ppeNum : Nat}
    (started : startPpes alloc data ppeNum (.probed ppeNum) = some h) :
    (∀ later, SameTables h later → Covers later) ↔
      ∀ ppeId < ppeNum, FirstAttempt alloc ppeId := by
  have all := startPpes_started started
  constructor
  · intro covers ppeId inside
    by_contra retried
    obtain ⟨size, _, cfg, allocated, small, _⟩ := all.allocated ppeId inside
    have overrun := entryDeleteByMac_overruns (all.ppeNum ▸ inside) allocated.table
      (small retried) (fun _ _ => 0) 0
    obtain ⟨ret, run⟩ := (covers h ⟨rfl, rfl, rfl, fun _ => rfl, fun _ => rfl⟩).byMac
      (fun _ _ => 0) 0
    rw [overrun] at run
    exact absurd run nofun
  · intro first later same
    have inside (ppeId : Nat) (below : ppeId < later.ppeNum) : ppeId < ppeNum := by
      rwa [same.ppeNum, all.ppeNum] at below
    refine FullSize.covers ⟨same.foeEtryNum.trans (all.full first), fun ppeId below => ?_,
      fun ppeId below => ?_, fun ppeId below => ?_⟩
    · obtain ⟨size, _, cfg, allocated, _, full⟩ := all.allocated ppeId (inside ppeId below)
      obtain ⟨rfl, _⟩ := full first
      exact same.table allocated.table
    · obtain ⟨size, _, cfg, allocated, _, full⟩ := all.allocated ppeId (inside ppeId below)
      obtain ⟨rfl, _⟩ := full first
      exact same.flow allocated.flow
    · obtain ⟨size, _, cfg, allocated, _, full⟩ := all.allocated ppeId (inside ppeId below)
      obtain ⟨_, rfl⟩ := full first
      rw [same.tbEtryNum]
      exact allocated.programmed

def retryOf (ppeId : Nat) : AllocOutcomes where
  foeTable ppe etryNumCfg := !(ppe == ppeId && etryNumCfg == DEF_ETRY_NUM_CFG)
  foeFlow _ _ := true
  foeMib _ := true
  acct _ := true

theorem tables_covered_iff_two_ppes :
    ∃ h, startPpes (retryOf 2) ⟨false, true⟩ 2 (.probed 2) = some h ∧
      ((∀ later, SameTables h later → Covers later) ↔
        ∀ ppeId < 2, FirstAttempt (retryOf 2) ppeId) := by
  have started : ∃ h, startPpes (retryOf 2) ⟨false, true⟩ 2 (.probed 2) = some h := ⟨_, rfl⟩
  obtain ⟨h, started⟩ := started
  exact ⟨h, started, tables_covered_iff started⟩

/-- When the second PPE has to retry, its table has 4096 entries, while
`entry_delete_by_mac` runs over 8192. -/
theorem tables_overrun_after_retry :
    ¬∀ (alloc : AllocOutcomes) (data : HnatData) (ppeNum : Nat) (h : MtkHnat),
      startPpes alloc data ppeNum (.probed ppeNum) = some h → Covers h := by
  intro always
  have started : ∃ h, startPpes (retryOf 1) ⟨false, true⟩ 2 (.probed 2) = some h := ⟨_, rfl⟩
  obtain ⟨h, started⟩ := started
  have all := startPpes_started started
  obtain ⟨size, _, cfg, allocated, small, _⟩ := all.allocated 1 (by decide)
  have overrun := entryDeleteByMac_overruns (all.ppeNum ▸ (by decide : 1 < 2)) allocated.table
    (small fun first => absurd first.1 (by decide)) (fun _ _ => 0) 0
  obtain ⟨ret, run⟩ := (always _ _ _ _ started).byMac (fun _ _ => 0) 0
  rw [overrun] at run
  exact absurd run nofun

end MetaFilogic.Hnat
