import MetaFilogic.Nmbm.Search
import MetaFilogic.Nmbm.Create

/-!
# Loading the tables on flash

`Loaded` is the state after `nmbm_load_info_table` has found its tables and taken
over the newer one.  If the tables are ones the driver wrote where they are found,
the boundaries chosen from them are those of a session, and so they are after the
tables have been brought up to date, unless the chip has become read-only.
-/

namespace MetaFilogic.Nmbm

open Bytes

variable {ld : LowerDevice}

/-! ## Tables found on flash -/

variable {ba : Nat} {middle after : State}

theorem laid_contiguous (sound : ld.Sound) (flash : Flash) (gap : Nat → Prop) {blocks size : Nat}
    (enough : size ≤ blocks * ld.erasesize) (tight : blocks * ld.erasesize < size + ld.erasesize) :
    Laid ld gap flash ba (ba + blocks) (ld.bytesAt flash (ld.ba2addr ba) size) := by
  induction blocks generalizing ba size with
  | zero =>
    obtain rfl : size = 0 := by omega
    exact .nil ba
  | succ blocks ih =>
    have next : (blocks + 1) * ld.erasesize = blocks * ld.erasesize + ld.erasesize :=
      Nat.succ_mul _ _
    have some : ld.bytesAt flash (ld.ba2addr ba) size ≠ [] := by
      intro empty
      have length : (ld.bytesAt flash (ld.ba2addr ba) size).length = size :=
        bytesAt_length _ _ _
      rw [empty, List.length_nil] at length
      omega
    have shift : ba + (blocks + 1) = ba + 1 + blocks := by omega
    rw [shift]
    by_cases whole : ld.erasesize ≤ size
    · refine .chunk some ?_ ?_
      · rw [Holds, bytesAt_take flash whole, bytesAt_length]
      · rw [bytesAt_drop flash whole, sound.ba2addr_eq, ← Nat.succ_mul, ← sound.ba2addr_eq]
        exact ih (by omega) (by omega)
    · have last : blocks = 0 := by
        by_contra more
        have := Nat.mul_le_mul_right ld.erasesize (Nat.one_le_iff_ne_zero.mpr more)
        omega
      subst last
      refine .chunk some ?_ ?_
      · rw [List.take_of_length_le (by rw [bytesAt_length]; omega), Holds, bytesAt_length]
      · rw [List.drop_of_length_le (by rw [bytesAt_length]; omega)]
        exact .nil _

theorem Laid.storedAt {flash : Flash} {gap : Nat → Prop} {start stop : Nat} {image : List Byte}
    (laid : Laid ld (fun _ => False) flash start stop image) (some : image ≠ []) :
    StoredAt ld gap flash start stop image := by
  cases laid with
  | nil => exact absurd rfl some
  | skip _ none => exact none.elim
  | chunk some first rest => exact ⟨some, first, rest.mono fun _ none => none.elim⟩

namespace Found

variable {flash : Flash} {capacity signatureBa : Nat} {table : LoadedTable}

theorem holds (sound : ld.Sound) (found : Found ld flash capacity signatureBa table)
    (valid : ValidTable ld table.image) :
    HoldsTable ld flash table.startBa table.endBa table.image := by
  have blocks := sound.infoTableBlocks_spec
  have laid : Laid ld (fun _ => False) flash table.startBa
      (table.startBa + ld.infoTableBlocks) (ld.bytesAt flash (ld.ba2addr table.startBa)
        ld.infoTableSize) := laid_contiguous sound flash _ blocks.1 blocks.2
  rw [← found.image, ← found.stop] at laid
  exact ⟨valid, laid.storedAt (valid.ne_nil sound)⟩

theorem lt (sound : ld.Sound) (found : Found ld flash capacity signatureBa table) :
    table.startBa < table.endBa := by
  have blocks := sound.infoTableBlocks_pos
  have stop := found.stop
  omega

/-- The spare blocks in use as the table has it lie above the limit of any table with
the same mapping. -/
theorem limit_le_top (sound : ld.Sound) {limit : Nat} {mapping : Nat → BitVec 32}
    (found : Found ld flash ld.mgmtStart signatureBa table)
    (well : WellMapped ld ld.mgmtStart limit mapping)
    (same : ∀ lb, lb < ld.blockCount → imageMapping table.image lb = mapping lb)
    (above : ld.mgmtStart ≤ table.endBa) (below : limit < signatureBa)
    (chip : signatureBa < ld.blockCount) :
    limit ≤ table.mappingBlocksTopBa ∧ table.mappingBlocksTopBa < signatureBa ∧
      ∀ lb, lb < ld.mgmtStart → table.endBa ≤ (imageMapping table.image lb).toNat →
        table.mappingBlocksTopBa < (imageMapping table.image lb).toNat := by
  have blocks := sound.blockCount_lt
  obtain ⟨minimum, top, placed, low, reached⟩ := found.mapping
  have beyond : limit < minimum := by
    rcases reached with signature | ⟨lb, inside, is, high⟩
    · omega
    · have entry := same lb (by omega)
      have isMapped : ¬isUnmapped (mapping lb) := by
        rw [isUnmapped_iff, ← entry, is]
        omega
      have apart := well.apart lb (by omega) isMapped
      rw [← entry, is] at apart
      omega
  have down : subU32 minimum 1 = minimum - 1 := by
    simp only [subU32]
    omega
  rw [top, down]
  refine ⟨by omega, by omega, fun lb inside high => ?_⟩
  have := (placed lb inside).2 high
  omega

end Found

/-! ## The capacity -/

theorem highestMapped_spec (mapping : Nat → BitVec 32) (bound : Nat) :
    (∀ lb, (highestMapped mapping bound).getD bound ≤ lb → lb < bound →
        isUnmapped (mapping lb)) ∧
      (highestMapped mapping bound).getD bound ≤ bound ∧
      (highestMapped mapping bound = none → ∀ lb, lb < bound → isUnmapped (mapping lb)) ∧
      ∀ capacity, highestMapped mapping bound = some capacity →
        0 < capacity ∧ ¬isUnmapped (mapping (capacity - 1)) := by
  induction bound with
  | zero => exact ⟨fun _ _ => by omega, le_rfl, fun _ _ => by omega, nofun⟩
  | succ bound ih =>
    unfold highestMapped
    by_cases is : 0 ≤ (mapping bound).toInt
    · simp only [is, if_true, Option.getD_some]
      refine ⟨fun _ _ => by omega, le_rfl, nofun, fun capacity found => ?_⟩
      obtain rfl := Option.some.inj found
      exact ⟨by omega, by simpa [isUnmapped] using is⟩
    · simp only [is, if_false]
      have here : isUnmapped (mapping bound) := by
        simpa [isUnmapped] using is
      obtain ⟨beyond, low, none, some⟩ := ih
      refine ⟨fun lb high below => ?_, ?_, fun missing lb below => ?_, some⟩
      · by_cases last : lb = bound
        · exact last ▸ here
        · cases found : highestMapped mapping bound with
          | none => exact none found lb (by omega)
          | some capacity =>
            rw [found] at beyond high
            exact beyond lb high (by omega)
      · cases found : highestMapped mapping bound with
        | none => exact le_rfl
        | some capacity =>
          rw [found] at low
          exact low.trans (Nat.le_succ _)
      · by_cases last : lb = bound
        · exact last ▸ here
        · exact none missing lb (by omega)

/-! ## Both tables -/

def newest (main : LoadedTable) : Option LoadedTable → LoadedTable
  | none => main
  | some backup => if main.writeCount ≥ backup.writeCount then main else backup

/-- The instance `nmbm_load_info_table` starts the search with. -/
def Instance.beforeSearch (ni : Instance) : Instance :=
  { ni with
    mainTableBa := 0
    backupTableBa := 0
    infoTable := { ni.infoTable with writeCount := 0 }
    mappingBlocksTopBa := subU32 ni.signatureBa 1
    dataBlockCount := ni.signature.mgmtStartPb.toNat }

/-- A table that a search from block `ba` on has found on the chip of `before`. -/
def FoundFrom (ld : LowerDevice) (before : State) (ba : Nat) (table : LoadedTable) : Prop :=
  ba ≤ table.startBa ∧ Found ld before.flash before.ni.signature.mgmtStartPb.toNat
    before.ni.signatureBa table

/-- The state once the tables have been found and the boundaries chosen. -/
structure Loaded (ld : LowerDevice) (ba : Nat) (before : State) (main : LoadedTable)
    (backup : Option LoadedTable) (state : State) : Prop where
  mainFound : FoundFrom ld before ba main
  backupFound : ∀ second ∈ backup, FoundFrom ld before main.endBa second
  flags : state.ni.flags = before.ni.flags
  signature : state.ni.signature = before.ni.signature
  mgmtStartBa : state.ni.mgmtStartBa = before.ni.mgmtStartBa
  signatureBa : state.ni.signatureBa = before.ni.signatureBa
  flash : state.flash = before.flash
  trace : state.trace = .tablesFound before.ni.flags.readOnly before.ni.signatureBa main backup ::
    before.trace
  mainTableBa : state.ni.mainTableBa = main.startBa
  backupTableBa : state.ni.backupTableBa = backup.elim 0 LoadedTable.startBa
  mappingBlocksBa : state.ni.mappingBlocksBa = (backup.getD main).endBa
  mappingBlocksTopBa : state.ni.mappingBlocksTopBa = (newest main backup).mappingBlocksTopBa
  infoTable : state.ni.infoTable = InfoTableHeader.parse (newest main backup).image
  mapping : ∀ lb, lb < ld.mappingTableSize / 4 →
    state.ni.blockMapping lb = imageMapping (newest main backup).image lb
  states : state.ni.blockStateChanged = 0 → ∀ unit, unit < ld.stateUnits →
    state.ni.blockState unit = imageState (newest main backup).image unit
  capacity : state.ni.dataBlockCount =
    (highestMapped state.ni.blockMapping before.ni.signature.mgmtStartPb.toNat).getD
      before.ni.signature.mgmtStartPb.toNat

/-- What memory holds of a table that was taken over, unless a block has been recorded
as bad since. -/
structure Took (ld : LowerDevice) (before : State) (table : LoadedTable) (state : State) :
    Prop where
  rest : { state.ni.outline with
      infoTableCache := [], infoTable := ⟨⟨0, 0, 0, 0⟩, 0, 0, 0, 0⟩, blockMapping := fun _ => 0 } =
    { before.ni.outline with
      infoTableCache := [], infoTable := ⟨⟨0, 0, 0, 0⟩, 0, 0, 0, 0⟩, blockMapping := fun _ => 0 }
  length : state.ni.infoTableCache.length = before.ni.infoTableCache.length
  flash : state.flash = before.flash
  trace : state.trace = before.trace
  infoTable : state.ni.infoTable = InfoTableHeader.parse table.image
  mapping : ∀ lb, lb < ld.mappingTableSize / 4 →
    state.ni.blockMapping lb = imageMapping table.image lb
  states : state.ni.blockStateChanged = 0 → ∀ unit, unit < ld.stateUnits →
    state.ni.blockState unit = imageState table.image unit

theorem Scanned.took {before : State} (scanned : Scanned before middle) (table : LoadedTable) :
    Took ld before table { middle with ni := middle.ni.takeTables ld table.image } where
  rest := (congrArg (fun ni : Instance => { ni with
    infoTableCache := [], infoTable := ⟨⟨0, 0, 0, 0⟩, 0, 0, 0, 0⟩,
    blockMapping := fun _ => 0 }) scanned.outline :)
  length := scanned.length
  flash := scanned.flash
  trace := scanned.trace
  infoTable := rfl
  mapping _ below := if_pos below
  states _ _ below := if_pos below

theorem Took.scanned {before : State} {table : LoadedTable} (took : Took ld before table middle)
    (scanned : Scanned middle after) :
    Took ld before table after where
  rest := (congrArg (fun ni : Instance => { ni with
    infoTableCache := [], infoTable := ⟨⟨0, 0, 0, 0⟩, 0, 0, 0, 0⟩,
    blockMapping := fun _ => 0 }) scanned.outline :).trans took.rest
  length := scanned.length.trans took.length
  flash := scanned.flash.trans took.flash
  trace := scanned.trace.trans took.trace
  infoTable := scanned.infoTable.trans took.infoTable
  mapping lb below := by
    rw [scanned.mapping]
    exact took.mapping lb below
  states clear unit below := by
    have counted := scanned.counted
    rw [scanned.still (by omega)]
    exact took.states (by omega) unit below

theorem Took.again {before : State} {table newer : LoadedTable} (took : Took ld before table middle)
    (later : Took ld middle newer after) :
    Took ld before newer after where
  rest := later.rest.trans took.rest
  length := later.length.trans took.length
  flash := later.flash.trans took.flash
  trace := later.trace.trans took.trace
  infoTable := later.infoTable
  mapping := later.mapping
  states := later.states

theorem took_newest {before : State} {main : LoadedTable} {backup : Option LoadedTable}
    (took : Took ld before main middle) (count : main.writeCount = imageWriteCount main.image)
    (searched : Searched ld true ba middle backup after) :
    Took ld before (newest main backup) after := by
  cases backup with
  | none => exact took.scanned searched
  | some second =>
    obtain ⟨_, found, scanned, _, rfl⟩ := searched
    have inMemory : found.ni.infoTable.writeCount = main.writeCount := by
      rw [count, scanned.infoTable, took.infoTable, imageWriteCount]
    simp only [taken, newest, inMemory]
    by_cases newer : main.writeCount < second.writeCount
    · rw [if_pos (Or.inr newer), if_neg (BitVec.not_le.mpr newer)]
      exact took.again (scanned.took second)
    · have older : ¬((!true) = true ∨ main.writeCount < second.writeCount) := by
        simpa using newer
      rw [if_neg older, if_pos (BitVec.not_lt.mp newer)]
      exact took.scanned scanned

theorem loadInfoTable_cases (sound : ld.Sound) {state : State} {limit : Nat}
    {post : Bool → State → Prop} (length : state.ni.infoTableCache.length = ld.infoTableSize)
    (missing : ∀ after, Scanned { state with ni := state.ni.beforeSearch } after → post false after)
    (found : ∀ main backup loaded, Loaded ld ba state main backup loaded →
      Ensures (do
        let _ ← generateInfoTableCache ld
        let ni ← getNi
        if ni.flags.readOnly then
          return true
        else
          let success ← repairLoadedTables ld main backup
          modifyNi fun ni =>
            { ni with
              isProtected :=
                ni.isProtected || ni.mappingBlocksBa == ni.mappingBlocksTopBa || !success }
          return true) loaded post) : Ensures (loadInfoTable ld ba limit) state post := by
  have startLength : ({ state with ni := state.ni.beforeSearch } :
    State).ni.infoTableCache.length = ld.infoTableSize := length
  unfold loadInfoTable
  refine .modifyNi_bind ((searchInfoTable_spec sound startLength).bind
    fun result first searched => ?_)
  cases result with
  | none => exact .pure (missing _ searched)
  | some main =>
    obtain ⟨low, middle, scanned, mainFound, taken⟩ := searched
    have took : Took ld { state with ni := state.ni.beforeSearch } main first := by
      rw [taken]
      exact scanned.took main
    refine .modifyNi_bind ?_
    have placed : Took ld { state with
        ni := { state.ni.beforeSearch with mainTableBa := main.startBa } } main
        { first with ni := { first.ni with mainTableBa := main.startBa } } :=
      ⟨congrArg (fun ni : Instance => { ni with mainTableBa := main.startBa }) took.rest,
        took.length, took.flash, took.trace, took.infoTable, took.mapping, took.states⟩
    refine (searchInfoTable_spec sound (placed.length.trans length)).bind
      fun backup second searchedAgain => ?_
    have both := took_newest placed mainFound.count searchedAgain
    have flagsSame : second.ni.flags = state.ni.flags := (congrArg Instance.flags both.rest :)
    have signatureSame : second.ni.signatureBa = state.ni.signatureBa :=
      (congrArg Instance.signatureBa both.rest :)
    have recordSame : second.ni.signature = state.ni.signature :=
      (congrArg Instance.signature both.rest :)
    have noBackup : second.ni.backupTableBa = 0 := (congrArg Instance.backupTableBa both.rest :)
    refine .modifyNi_bind (.getNi_bind (.note_bind (.modifyNi_bind (found main backup _ ?_))))
    refine {
      mainFound := ⟨low, mainFound⟩
      backupFound := fun other among => ?_
      flags := flagsSame
      signature := recordSame
      mgmtStartBa := (congrArg Instance.mgmtStartBa both.rest :)
      signatureBa := signatureSame
      flash := both.flash
      trace := ?_
      mainTableBa := (congrArg Instance.mainTableBa both.rest :)
      backupTableBa := ?_
      mappingBlocksBa := ?_
      mappingBlocksTopBa := ?_
      infoTable := both.infoTable
      mapping := both.mapping
      states := both.states
      capacity := ?_ }
    · obtain rfl : backup = some other := among
      obtain ⟨above, _, _, foundAgain, _⟩ := searchedAgain
      have capacity : first.ni.dataBlockCount = state.ni.signature.mgmtStartPb.toNat :=
        (congrArg Instance.dataBlockCount took.rest :)
      have signatureBa : first.ni.signatureBa = state.ni.signatureBa :=
        (congrArg Instance.signatureBa took.rest :)
      have flash : first.flash = state.flash := took.flash
      rw [FoundFrom, ← flash, ← capacity, ← signatureBa]
      exact ⟨above, foundAgain⟩
    · rw [flagsSame, signatureSame]
      exact congrArg _ both.trace
    · change backup.elim second.ni.backupTableBa _ = _
      rw [noBackup]
    · cases backup <;> rfl
    · cases backup with
      | none => rfl
      | some other =>
        simp only [newest]
        split <;> rfl
    · have capacity : second.ni.dataBlockCount = state.ni.signature.mgmtStartPb.toNat :=
        (congrArg Instance.dataBlockCount both.rest :)
      change (highestMapped second.ni.blockMapping second.ni.signature.mgmtStartPb.toNat).getD
        second.ni.dataBlockCount = _
      rw [recordSame, capacity]

/-! ## Genuine tables -/

structure Loadable (ld : LowerDevice) (state : State) : Prop where
  start : state.ni.mgmtStartBa = ld.mgmtStart
  boundary : state.ni.signature.mgmtStartPb.toNat = ld.mgmtStart
  chip : state.ni.signatureBa < ld.blockCount
  placed : state.ni.infoTable.Placed ld
  length : state.ni.infoTableCache.length = ld.infoTableSize
  trace : WellRecorded ld state.trace

def Genuine (ld : LowerDevice) (signatureBa : Nat) (table : LoadedTable) : Prop :=
  ∃ lower limit, RecordedTable ld lower limit table.image ∧ lower ≤ table.startBa ∧
    table.endBa ≤ limit ∧ limit < signatureBa

theorem LoadedTable.WrittenHere.genuine {trace : List Event} {signatureBa : Nat}
    {table : LoadedTable} (written : table.WrittenHere signatureBa trace)
    (recorded : WellRecorded ld trace) (some : table.startBa < table.endBa) :
    Genuine ld signatureBa table := by
  obtain ⟨lower, limit, among, low, high, below⟩ := written
  exact ⟨lower, limit, recorded _ among (by omega), low, high, below⟩

section Loaded

variable (sound : ld.Sound) {before state : State} {main : LoadedTable}
  {backup : Option LoadedTable}

include sound

variable {ba : Nat}

theorem Loaded.newest_found (loaded : Loaded ld ba before main backup state)
    (loadable : Loadable ld before) : ba ≤ (newest main backup).startBa ∧
      Found ld before.flash ld.mgmtStart before.ni.signatureBa (newest main backup) := by
  have first := loaded.mainFound
  have between := first.2.lt sound
  rw [← loadable.boundary]
  cases backup with
  | none => exact first
  | some second =>
    obtain ⟨above, found⟩ := loaded.backupFound second rfl
    have low := first.1
    simp only [newest]
    split
    · exact first
    · exact ⟨by omega, found⟩

theorem Loaded.grounded (loaded : Loaded ld ba before main backup state)
    (loadable : Loadable ld before)
    (genuine : Genuine ld before.ni.signatureBa (newest main backup)) :
    Grounded ld state.ni.dataBlockCount state := by
  obtain ⟨lower, limit, recorded, low, high, below⟩ := genuine
  obtain ⟨_, found⟩ := loaded.newest_found sound loadable
  have start := recorded.start
  have between := found.lt sound
  obtain ⟨topLow, topHigh, apart⟩ := found.limit_le_top sound recorded.mapping (fun _ _ => rfl)
    (by omega) below loadable.chip
  have entries (lb : Nat) (inside : lb < ld.blockCount) :
      state.ni.blockMapping lb = imageMapping (newest main backup).image lb :=
    loaded.mapping lb (by rw [sound.mappingWords_eq]; exact inside)
  obtain ⟨beyond, fits, _, _⟩ :=
    highestMapped_spec state.ni.blockMapping before.ni.signature.mgmtStartPb.toNat
  rw [← loaded.capacity, loadable.boundary] at beyond fits
  have unmappedAbove (lb : Nat) (above : ld.mgmtStart ≤ lb) (inside : lb < ld.blockCount) :
      isUnmapped (state.ni.blockMapping lb) := by
    rw [entries lb inside]
    exact recorded.mapping.beyond lb above inside
  refine ⟨loaded.mgmtStartBa.trans loadable.start, ?_, ?_, ?_, ⟨fits, fun lb above inside => ?_,
    (recorded.mapping.congr entries).injective, fun lb inside is => ?_⟩, ?_⟩
  · rw [loaded.mappingBlocksTopBa, loaded.signatureBa]
    exact topHigh
  · rw [loaded.signatureBa]
    exact loadable.chip
  · rw [loaded.infoTable]
    exact recorded.placed
  · by_cases last : lb < ld.mgmtStart
    · exact beyond lb above last
    · exact unmappedAbove lb (by omega) inside
  · -- A mapped block above the table is at least the lowest such block
    have isLogical : lb < ld.mgmtStart := by
      by_contra above
      exact is (unmappedAbove lb (by omega) inside)
    rw [loaded.mappingBlocksTopBa]
    rw [entries lb inside] at is ⊢
    refine (recorded.mapping.apart lb inside is).imp_right fun beyond => ?_
    exact apart lb isLogical (by omega)
  · rw [loaded.trace]
    exact loadable.trace.cons trivial

/-- A table with the same mapping as the one in memory ends below the spare blocks in
use. -/
theorem Loaded.endBa_le_top (loaded : Loaded ld ba before main backup state)
    (loadable : Loadable ld before) (low : ld.mgmtStart ≤ ba) {table : LoadedTable}
    (genuine : Genuine ld before.ni.signatureBa table) (same : ∀ lb, lb < ld.blockCount →
      imageMapping (newest main backup).image lb = imageMapping table.image lb) :
    table.endBa ≤ state.ni.mappingBlocksTopBa := by
  obtain ⟨lower, limit, recorded, _, high, below⟩ := genuine
  obtain ⟨above, found⟩ := loaded.newest_found sound loadable
  have between := found.lt sound
  have top := (found.limit_le_top sound recorded.mapping same (by omega) below loadable.chip).1
  rw [loaded.mappingBlocksTopBa]
  omega

theorem Loaded.mainHolds (loaded : Loaded ld ba before main backup state)
    (genuine : Genuine ld before.ni.signatureBa main) :
    HoldsTable ld state.flash state.ni.mainTableBa main.endBa main.image := by
  obtain ⟨_, _, recorded, _⟩ := genuine
  rw [loaded.flash, loaded.mainTableBa]
  exact loaded.mainFound.2.holds sound recorded.valid

theorem Loaded.backupHolds {second : LoadedTable}
    (loaded : Loaded ld ba before main (some second) state)
    (genuine : Genuine ld before.ni.signatureBa second) :
    HoldsTable ld state.flash state.ni.backupTableBa second.endBa second.image ∧
      main.endBa ≤ state.ni.backupTableBa := by
  obtain ⟨_, _, recorded, _⟩ := genuine
  obtain ⟨above, found⟩ := loaded.backupFound second rfl
  rw [loaded.flash, loaded.backupTableBa]
  exact ⟨found.holds sound recorded.valid, above⟩

theorem Loaded.genuine (loaded : Loaded ld ba before main backup state)
    (loadable : Loadable ld before) (faithful : Faithful ld state.trace) :
    Genuine ld before.ni.signatureBa main ∧
      ∀ second ∈ backup, Genuine ld before.ni.signatureBa second ∧ main.AgreesWith ld second := by
  rw [loaded.trace] at faithful
  obtain ⟨⟨mainWritten, backupWritten⟩, _⟩ := faithful
  refine ⟨mainWritten.genuine loadable.trace (loaded.mainFound.2.lt sound), fun second among => ?_⟩
  obtain ⟨written, agrees⟩ := backupWritten second among
  exact ⟨written.genuine loadable.trace ((loaded.backupFound second among).2.lt sound), agrees⟩

end Loaded

end MetaFilogic.Nmbm
