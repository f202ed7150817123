import MetaFilogic.Nmbm.States
import MetaFilogic.Library.StateProgram

/-!
# What driver code leaves alone

`Confined region` relates two states when everything between them happened
inside a set of blocks: flash contents, bad-block marks, recorded block states
and lower-device writes outside the region are untouched, and the only change to
block states is that some have become bad.  `Writes region` adds that the
bookkeeping is left alone and every bad block is counted, `Touches region` that
nothing but device access was recorded.

Every function of the chip-access layer preserves `Touches` for the block it
works on, every range function for its range.
-/

namespace MetaFilogic

namespace Ensures

open Nmbm

variable {α : Type} {post : α → State → Prop} {state : State}

theorem getNi_bind {next : Instance → NmbmM α} (holds : Ensures (next state.ni) state post) :
    Ensures (getNi >>= next) state post :=
  holds

theorem modifyNi_bind {update : Instance → Instance} {next : Unit → NmbmM α}
    (holds : Ensures (next ()) { state with ni := update state.ni } post) :
    Ensures (modifyNi update >>= next) state post :=
  holds

theorem nextFault_bind {ld : LowerDevice} {next : Fault → NmbmM α}
    (holds : Ensures (next (ld.fault state.clock)) { state with clock := state.clock + 1 } post) :
    Ensures (nextFault ld >>= next) state post :=
  holds

theorem get_bind {next : State → NmbmM α} (holds : Ensures (next state) state post) :
    Ensures (MonadState.get >>= next) state post :=
  holds

theorem note_bind {event : Event} {next : Unit → NmbmM α}
    (holds : Ensures (next ()) { state with trace := event :: state.trace } post) :
    Ensures (note event >>= next) state post :=
  holds

end Ensures

namespace Nmbm

open Bytes

def Instance.outline (ni : Instance) : Instance :=
  { ni with blockState := fun _ => 0, blockStateChanged := 0, pageCache := ⟨[], []⟩ }

def Instance.settled (ni : Instance) : Instance :=
  { ni.outline with
    blockMappingChanged := 0
    isProtected := false
    mainTableBa := 0
    backupTableBa := 0
    mappingBlocksBa := 0 }

section Frame

variable (ld : LowerDevice) (region : Nat → Prop)

/-- Two flash contents that differ inside a region only. -/
structure Flash.AgreesOutside (before after : Flash) : Prop where
  page : ∀ page, ¬region (page / ld.pagesPerBlock) → after.page page = before.page page
  bad : ∀ block, ¬region block → after.bad block = before.bad block

def Event.Within (before : State) : Event → Prop
  | .erase block after | .program block after | .markBad block after =>
    region block ∧ before.flash.AgreesOutside ld region after ∧
      before.ni.flags.readOnly = false
  | .tableWrite lower limit image =>
    (∀ block, lower ≤ block → block < limit → region block) ∧
      image = before.ni.infoTableCache
  | .tablesClean _ => True
  | _ => False

/-- Between the two states everything happened inside the region. -/
structure Confined (before after : State) : Prop where
  settled : after.ni.settled = before.ni.settled
  states : ∀ ba, after.ni.getBlockState ba = before.ni.getBlockState ba ∨
    region ba ∧ after.ni.getBlockState ba = BLOCK_ST_BAD
  flash : before.flash.AgreesOutside ld region after.flash
  trace : ∃ new, after.trace = new ++ before.trace ∧
    ∀ event ∈ new, event.Within ld region before

def Lost (before after : State) : Prop :=
  ∃ ba, region ba ∧ before.ni.getBlockState ba ≠ BLOCK_ST_BAD ∧
    after.ni.getBlockState ba = BLOCK_ST_BAD

/-- Between the two states only blocks of the region were written, and every change
of a block state has been counted. -/
structure Writes (before after : State) : Prop extends Confined ld region before after where
  outline : after.ni.outline = before.ni.outline
  counted : before.ni.blockStateChanged ≤ after.ni.blockStateChanged
  still : after.ni.blockStateChanged = before.ni.blockStateChanged →
    after.ni.blockState = before.ni.blockState
  lost : after.ni.blockStateChanged ≠ before.ni.blockStateChanged → Lost region before after

def Event.IsAccess : Event → Prop
  | .erase _ _ | .program _ _ | .markBad _ _ => True
  | _ => False

/-- Between the two states there was only device access inside the region. -/
structure Touches (before after : State) : Prop extends Writes ld region before after where
  access : ∃ new, after.trace = new ++ before.trace ∧ ∀ event ∈ new, event.IsAccess

end Frame

variable {ld : LowerDevice} {region wider : Nat → Prop}

namespace Flash.AgreesOutside

variable {before middle after : Flash}

theorem refl (flash : Flash) : flash.AgreesOutside ld region flash :=
  ⟨fun _ _ => rfl, fun _ _ => rfl⟩

theorem trans (first : before.AgreesOutside ld region middle)
    (second : middle.AgreesOutside ld region after) : before.AgreesOutside ld region after where
  page page outside := (second.page page outside).trans (first.page page outside)
  bad block outside := (second.bad block outside).trans (first.bad block outside)

theorem mono (agrees : before.AgreesOutside ld region after)
    (included : ∀ ba, region ba → wider ba) : before.AgreesOutside ld wider after where
  page page outside := agrees.page page fun inside => outside (included _ inside)
  bad block outside := agrees.bad block fun inside => outside (included _ inside)

theorem setPage (page : Nat) (content : PageData) (inside : region (page / ld.pagesPerBlock)) :
    before.AgreesOutside ld region (LowerDevice.setPage before page content) where
  page other outside := by
    have distinct : other ≠ page := fun same => outside (same ▸ inside)
    simp [LowerDevice.setPage, distinct]
  bad _ _ := rfl

theorem setBlock (block : Nat) (contents : Nat → PageData) (inside : region block) :
    before.AgreesOutside ld region (ld.setBlock before block contents) where
  page other outside := by
    have distinct : other / ld.pagesPerBlock ≠ block := fun same => outside (same ▸ inside)
    simp [LowerDevice.setBlock, distinct]
  bad _ _ := rfl

theorem setBad (block : Nat) (inside : region block) :
    before.AgreesOutside ld region (LowerDevice.setBad before block) where
  page _ _ := rfl
  bad other outside := by
    have distinct : other ≠ block := fun same => outside (same ▸ inside)
    simp [LowerDevice.setBad, distinct]

theorem afterErase (ld : LowerDevice) (fault : Fault) (flash : Flash) {block : Nat} (inside : region block) :
    flash.AgreesOutside ld region (ld.afterErase fault flash block) := by
  unfold LowerDevice.afterErase
  split
  · exact .setBlock _ _ inside
  · split
    · exact .refl _
    · exact .setBlock _ _ inside

theorem afterProgram (fault : Fault) (flash : Flash) (data oob : Option (List Byte))
    {page : Nat} (inside : region (page / ld.pagesPerBlock)) :
    flash.AgreesOutside ld region (LowerDevice.afterProgram fault flash page data oob) := by
  unfold LowerDevice.afterProgram
  dsimp only
  split <;> exact .setPage _ _ inside

theorem afterMark (ld : LowerDevice) (fault : Fault) (flash : Flash) {block : Nat} (inside : region block) :
    flash.AgreesOutside ld region (ld.afterMark fault flash block) := by
  unfold LowerDevice.afterMark
  dsimp only
  cases fault.markLeaves with
  | none =>
    split
    · exact .setBad _ inside
    · exact .refl _
  | some =>
    split
    · exact (Flash.AgreesOutside.setBlock _ _ inside).trans (.setBad _ inside)
    · exact .setBlock _ _ inside

end Flash.AgreesOutside

theorem Event.Within.mono {before : State} {event : Event} (within : event.Within ld region before)
    (included : ∀ ba, region ba → wider ba) : event.Within ld wider before := by
  cases event with
  | erase block after =>
    exact ⟨included _ within.1, within.2.1.mono included, within.2.2⟩
  | program block after =>
    exact ⟨included _ within.1, within.2.1.mono included, within.2.2⟩
  | markBad block after =>
    exact ⟨included _ within.1, within.2.1.mono included, within.2.2⟩
  | tableWrite lower limit image =>
    exact ⟨fun block low high => included _ (within.1 block low high), within.2⟩
  | tablesClean => trivial
  | signatureWrite => exact within
  | spareTaken => exact within
  | unmapped => exact within
  | signatureFound => exact within
  | tablesFound => exact within
  | attached => exact within

namespace Confined

variable {before middle after : State}

theorem refl (state : State) : Confined ld region state state :=
  ⟨rfl, fun _ => Or.inl rfl, .refl _, ⟨[], rfl, by simp⟩⟩

theorem mapping (confined : Confined ld region before after) :
    after.ni.blockMapping = before.ni.blockMapping :=
  (congrArg Instance.blockMapping confined.settled :)

theorem flags (confined : Confined ld region before after) : after.ni.flags = before.ni.flags :=
  (congrArg Instance.flags confined.settled :)

theorem cache (confined : Confined ld region before after) :
    after.ni.infoTableCache = before.ni.infoTableCache :=
  (congrArg Instance.infoTableCache confined.settled :)

theorem infoTable (confined : Confined ld region before after) :
    after.ni.infoTable = before.ni.infoTable :=
  (congrArg Instance.infoTable confined.settled :)

theorem dataBlockCount (confined : Confined ld region before after) :
    after.ni.dataBlockCount = before.ni.dataBlockCount :=
  (congrArg Instance.dataBlockCount confined.settled :)

theorem mgmtStartBa (confined : Confined ld region before after) :
    after.ni.mgmtStartBa = before.ni.mgmtStartBa :=
  (congrArg Instance.mgmtStartBa confined.settled :)

theorem mappingBlocksTopBa (confined : Confined ld region before after) :
    after.ni.mappingBlocksTopBa = before.ni.mappingBlocksTopBa :=
  (congrArg Instance.mappingBlocksTopBa confined.settled :)

theorem signatureBa (confined : Confined ld region before after) :
    after.ni.signatureBa = before.ni.signatureBa :=
  (congrArg Instance.signatureBa confined.settled :)

theorem signature (confined : Confined ld region before after) :
    after.ni.signature = before.ni.signature :=
  (congrArg Instance.signature confined.settled :)

theorem good (confined : Confined ld region before after) {ba : Nat}
    (good : after.ni.getBlockState ba = BLOCK_ST_GOOD) :
    before.ni.getBlockState ba = BLOCK_ST_GOOD := by
  rcases confined.states ba with same | ⟨_, bad⟩
  · rw [← same, good]
  · rw [bad] at good
    exact absurd good (by decide)

theorem bad (confined : Confined ld region before after) {ba : Nat}
    (bad : before.ni.getBlockState ba = BLOCK_ST_BAD) :
    after.ni.getBlockState ba = BLOCK_ST_BAD := by
  rcases confined.states ba with same | ⟨_, bad⟩
  · rw [same, bad]
  · exact bad

theorem within (first : Confined ld region before middle) {event : Event}
    (later : event.Within ld region middle) : event.Within ld region before := by
  cases event with
  | erase block flash =>
    exact ⟨later.1, first.flash.trans later.2.1, first.flags ▸ later.2.2⟩
  | program block flash =>
    exact ⟨later.1, first.flash.trans later.2.1, first.flags ▸ later.2.2⟩
  | markBad block flash =>
    exact ⟨later.1, first.flash.trans later.2.1, first.flags ▸ later.2.2⟩
  | tableWrite lower limit image => exact ⟨later.1, later.2.trans first.cache⟩
  | tablesClean => trivial
  | signatureWrite => exact later
  | spareTaken => exact later
  | unmapped => exact later
  | signatureFound => exact later
  | tablesFound => exact later
  | attached => exact later

theorem trans (first : Confined ld region before middle)
    (second : Confined ld region middle after) : Confined ld region before after where
  settled := second.settled.trans first.settled
  states ba := by
    rcases second.states ba with same | bad
    · rw [same]
      exact first.states ba
    · exact Or.inr bad
  flash := first.flash.trans second.flash
  trace := by
    obtain ⟨new, trace, inside⟩ := first.trace
    obtain ⟨newer, traceAfter, insideAfter⟩ := second.trace
    refine ⟨newer ++ new, by rw [traceAfter, trace, List.append_assoc], ?_⟩
    intro event among
    rcases List.mem_append.mp among with late | early
    · exact first.within (insideAfter event late)
    · exact inside event early

theorem mono (confined : Confined ld region before after)
    (included : ∀ ba, region ba → wider ba) : Confined ld wider before after where
  settled := confined.settled
  states ba := (confined.states ba).imp_right fun bad => ⟨included _ bad.1, bad.2⟩
  flash := confined.flash.mono included
  trace := by
    obtain ⟨new, trace, inside⟩ := confined.trace
    exact ⟨new, trace, fun event among => (inside event among).mono included⟩

/-- A change of the bookkeeping that touches neither the device nor the block
states. -/
theorem ofSettled (update : Instance → Instance)
    (settled : (update before.ni).settled = before.ni.settled)
    (states : (update before.ni).blockState = before.ni.blockState) :
    Confined ld region before { before with ni := update before.ni } :=
  ⟨settled, fun ba => Or.inl (by simp only [Instance.getBlockState, states]), .refl _,
    ⟨[], rfl, by simp⟩⟩

end Confined

namespace Writes

variable {before middle after : State}

theorem refl (state : State) : Writes ld region state state :=
  ⟨.refl state, rfl, le_rfl, fun _ => rfl, fun changed => absurd rfl changed⟩

theorem trans (first : Writes ld region before middle)
    (second : Writes ld region middle after) : Writes ld region before after where
  toConfined := first.toConfined.trans second.toConfined
  outline := second.outline.trans first.outline
  counted := first.counted.trans second.counted
  still same := by
    have low := first.counted
    have high := second.counted
    exact (second.still (by omega)).trans (first.still (by omega))
  lost changed := by
    by_cases early : middle.ni.blockStateChanged = before.ni.blockStateChanged
    · obtain ⟨ba, inside, notYet, bad⟩ := second.lost (by omega)
      exact ⟨ba, inside, fun already => notYet (first.bad already), bad⟩
    · obtain ⟨ba, inside, notYet, bad⟩ := first.lost early
      exact ⟨ba, inside, notYet, second.bad bad⟩

theorem mono (writes : Writes ld region before after)
    (included : ∀ ba, region ba → wider ba) : Writes ld wider before after where
  toConfined := writes.toConfined.mono included
  outline := writes.outline
  counted := writes.counted
  still := writes.still
  lost changed :=
    let ⟨ba, inside, lost⟩ := writes.lost changed
    ⟨ba, included ba inside, lost⟩

theorem mainTableBa (writes : Writes ld region before after) :
    after.ni.mainTableBa = before.ni.mainTableBa :=
  (congrArg Instance.mainTableBa writes.outline :)

theorem backupTableBa (writes : Writes ld region before after) :
    after.ni.backupTableBa = before.ni.backupTableBa :=
  (congrArg Instance.backupTableBa writes.outline :)

theorem mappingBlocksBa (writes : Writes ld region before after) :
    after.ni.mappingBlocksBa = before.ni.mappingBlocksBa :=
  (congrArg Instance.mappingBlocksBa writes.outline :)

theorem blockMappingChanged (writes : Writes ld region before after) :
    after.ni.blockMappingChanged = before.ni.blockMappingChanged :=
  (congrArg Instance.blockMappingChanged writes.outline :)

theorem isProtected (writes : Writes ld region before after) :
    after.ni.isProtected = before.ni.isProtected :=
  (congrArg Instance.isProtected writes.outline :)

theorem ofStates (outline : after.ni.outline = before.ni.outline)
    (counter : after.ni.blockStateChanged = before.ni.blockStateChanged)
    (states : after.ni.blockState = before.ni.blockState)
    (flash : before.flash.AgreesOutside ld region after.flash)
    (trace : ∃ new, after.trace = new ++ before.trace ∧
      ∀ event ∈ new, event.Within ld region before) :
    Writes ld region before after where
  settled := (congrArg Instance.settled outline :)
  states ba := Or.inl (by simp only [Instance.getBlockState, states])
  flash := flash
  trace := trace
  outline := outline
  counted := counter.ge
  still _ := states
  lost changed := absurd counter changed

end Writes

namespace Touches

variable {before middle after : State}

theorem refl (state : State) : Touches ld region state state :=
  ⟨.refl state, ⟨[], rfl, by simp⟩⟩

theorem trans (first : Touches ld region before middle)
    (second : Touches ld region middle after) : Touches ld region before after where
  toWrites := first.toWrites.trans second.toWrites
  access := by
    obtain ⟨new, trace, access⟩ := first.access
    obtain ⟨newer, traceAfter, accessAfter⟩ := second.access
    refine ⟨newer ++ new, by rw [traceAfter, trace, List.append_assoc], ?_⟩
    intro event among
    exact (List.mem_append.mp among).elim (accessAfter event) (access event)

theorem ofScratch (state : State) (clock : Nat) (pageCache : PageData) :
    Touches ld region state { state with clock, ni := { state.ni with pageCache } } :=
  ⟨.ofStates rfl rfl rfl (.refl _) ⟨[], rfl, by simp⟩, ⟨[], rfl, by simp⟩⟩

theorem ofWrite {state : State} {clock : Nat} {flash : Flash} {event : Event}
    (agrees : state.flash.AgreesOutside ld region flash)
    (within : event.Within ld region state) (access : event.IsAccess) :
    Touches ld region state { state with clock, flash, trace := event :: state.trace } :=
  ⟨.ofStates rfl rfl rfl agrees ⟨[event], rfl, by simpa using within⟩,
    ⟨[event], rfl, by simpa using access⟩⟩

end Touches

instance : IsPreorder State (Touches ld region) where
  refl := .refl
  trans _ _ _ := .trans

instance : IsPreorder State (Confined ld region) where
  refl := .refl
  trans _ _ _ := .trans

/-! ## Memory updates -/

theorem getNi_bind {α : Type} (next : Instance → NmbmM α) (state : State) :
    (getNi >>= next) state = next state.ni state :=
  rfl

theorem touches_getNi : Preserves (Touches ld region) getNi :=
  Touches.refl

theorem touches_pageCache (update : Instance → PageData) :
    Preserves (Touches ld region)
      (modifyNi fun ni => { ni with pageCache := update ni }) :=
  fun state => Touches.ofScratch state state.clock _

theorem touches_recordBad {ba : Nat} (inside : region ba) :
    Preserves (Touches ld region) (setBlockState ba BLOCK_ST_BAD) := by
  intro before
  have recorded : (before.ni.setBlockState ba BLOCK_ST_BAD).getBlockState ba = BLOCK_ST_BAD :=
    before.ni.getBlockState_set_same ba BLOCK_ST_BAD
  refine ⟨⟨⟨rfl, fun other => ?_, .refl _, ⟨[], rfl, by simp⟩⟩, rfl,
    before.ni.blockStateChanged_set ba _, before.ni.blockState_set ba _, fun changed => ?_⟩,
    ⟨[], rfl, by simp⟩⟩
  · by_cases same : other = ba
    · exact Or.inr ⟨same ▸ inside, same ▸ recorded⟩
    · exact Or.inl (before.ni.getBlockState_set_other ba _ same)
  · refine ⟨ba, inside, fun already => changed ?_, recorded⟩
    change (before.ni.setBlockState ba BLOCK_ST_BAD).blockStateChanged = _
    simp only [Instance.setBlockState, already]
    rfl

/-! ## Chip access -/

theorem touches_nextFault : Preserves (Touches ld region) (nextFault ld) :=
  fun state => Touches.ofScratch state _ _

theorem touches_get : Preserves (Touches ld region) (MonadState.get : NmbmM State) :=
  Touches.refl

theorem touches_lowerReadPage (addr : Nat) (mode : OobMode) :
    Preserves (Touches ld region) (lowerReadPage ld addr mode) := by
  unfold lowerReadPage
  refine touches_nextFault.bind fun fault => touches_get.bind fun s => ?_
  exact .ite (fun _ => .pure _) fun _ => .ite (fun _ => .pure _) fun _ => .pure _

theorem ofWritable {α : Type} {program : NmbmM α} {refused : α}
    (writes : ∀ state, state.ni.flags.readOnly = false →
      Touches ld region state (program state).2) :
    Preserves (Touches ld region)
      (getNi >>= fun ni => if ni.flags.readOnly then pure refused else program) := by
  intro state
  rw [getNi_bind]
  by_cases readOnly : state.ni.flags.readOnly = true
  · rw [if_pos readOnly]
    exact Touches.refl state
  · rw [if_neg readOnly]
    exact writes state (by simpa using readOnly)

section Writes

variable {addr : Nat} {state : State}

theorem touches_lowerEraseBlock (inside : region (ld.blockOf addr))
    (writable : state.ni.flags.readOnly = false) :
    Touches ld region state (lowerEraseBlock ld addr state).2 := by
  by_cases high : ld.size ≤ addr
  · simp only [lowerEraseBlock, high, if_true]
    exact Touches.ofScratch state _ _
  · simp only [lowerEraseBlock, high, if_false]
    have agrees := Flash.AgreesOutside.afterErase ld (ld.fault state.clock) state.flash inside
    exact Touches.ofWrite agrees ⟨inside, agrees, writable⟩ trivial

theorem touches_lowerMarkBadBlock (inside : region (ld.blockOf addr))
    (writable : state.ni.flags.readOnly = false) :
    Touches ld region state (lowerMarkBadBlock ld addr state).2 := by
  by_cases high : ld.size ≤ addr
  · simp only [lowerMarkBadBlock, high, if_true]
    exact Touches.ofScratch state _ _
  · simp only [lowerMarkBadBlock, high, if_false]
    have agrees := Flash.AgreesOutside.afterMark ld (ld.fault state.clock) state.flash inside
    exact Touches.ofWrite agrees ⟨inside, agrees, writable⟩ trivial

theorem touches_lowerWritePage (sound : ld.Sound) {data oob : Option (List Byte)} {mode : OobMode}
    (inside : region (ld.blockOf addr)) (writable : state.ni.flags.readOnly = false) :
    Touches ld region state (lowerWritePage ld addr data oob mode state).2 := by
  by_cases high : ld.size ≤ addr
  · simp only [lowerWritePage, high, if_true]
    exact Touches.ofScratch state _ _
  · simp only [lowerWritePage, high, if_false]
    have agrees := Flash.AgreesOutside.afterProgram (ld.fault state.clock) state.flash
      data oob (sound.pageOf_div addr ▸ inside)
    exact Touches.ofWrite agrees ⟨inside, agrees, writable⟩ trivial

end Writes

theorem touches_retry {request : NmbmM Int} (each : ∀ state, state.ni.flags.readOnly = false →
      Touches ld region state (request state).2) (tries : Nat) {state : State}
    (writable : state.ni.flags.readOnly = false) :
    Touches ld region state (retry request tries state).2 := by
  induction tries generalizing state with
  | zero => exact Touches.refl state
  | succ tries ih =>
    have first := each state writable
    refine Touches.trans first ?_
    change Touches ld region (request state).2
      ((if (request state).1 = 0 then pure true else retry request tries)
        (request state).2).2
    split
    · exact Touches.refl _
    · exact ih (first.flags ▸ writable)

/-! ## Functions that work on one block -/

theorem touches_readPhysPage (addr : Nat) (mode : OobMode) :
    Preserves (Touches ld region) (readPhysPage ld addr mode) := by
  have tries (count : Nat) (last : Int × PageData) :
      Preserves (Touches ld region) (readPhysPageTries ld addr mode count last) := by
    induction count generalizing last with
    | zero => exact .pure _
    | succ count ih =>
      unfold readPhysPageTries
      refine (touches_lowerReadPage addr mode).bind fun result => ?_
      exact .ite (fun _ => .pure _) fun _ => ih result
  exact tries _ _

theorem touches_cacheData (page : PageData) : Preserves (Touches ld region) (cacheData page) :=
  touches_pageCache _

theorem touches_cacheOob (page : PageData) : Preserves (Touches ld region) (cacheOob page) :=
  touches_pageCache _

theorem touches_checkBadPhysBlock (ba : Nat) :
    Preserves (Touches ld region) (checkBadPhysBlock ld ba) := by
  unfold checkBadPhysBlock
  refine .ite (fun _ => ?_) fun _ => ?_
  · unfold lowerIsBadBlock
    exact touches_nextFault.bind fun fault => touches_get.bind fun s => .pure _
  · refine (touches_readPhysPage _ _).bind fun result => ?_
    refine (touches_cacheOob _).bind fun _ => ?_
    exact .ite (fun _ => .pure _) fun _ => .pure _

theorem touches_checkErasedPages (addr pages : Nat) :
    Preserves (Touches ld region) (checkErasedPages ld addr pages) := by
  induction pages generalizing addr with
  | zero => exact .pure _
  | succ pages ih =>
    unfold checkErasedPages
    refine (touches_readPhysPage _ _).bind fun result => ?_
    refine (touches_cacheData _).bind fun _ => ?_
    exact .ite (fun _ => .pure _) fun _ => ih _

theorem touches_nmbnReadData (addr size : Nat) :
    Preserves (Touches ld region) (nmbnReadData ld addr size) := by
  have rounds (count off sizeremain : Nat) (ptr : List Byte) :
      Preserves (Touches ld region) (nmbnReadDataLoop ld count off sizeremain ptr) := by
    induction count generalizing off sizeremain ptr with
    | zero => exact .pure _
    | succ count ih =>
      unfold nmbnReadDataLoop
      refine .ite (fun _ => .pure _) fun _ => ?_
      refine (touches_readPhysPage _ _).bind fun result => ?_
      refine .ite (fun _ => ?_) fun _ => ?_
      · refine (touches_cacheData _).bind fun _ => ?_
        exact .ite (fun _ => .pure _) fun _ => ih _ _ _
      · exact .ite (fun _ => .pure _) fun _ => ih _ _ _
  exact rounds _ _ _ _

section Block

variable (sound : ld.Sound)

include sound

theorem touches_writePhysPage {addr : Nat} (inside : region (ld.blockOf addr))
    (data oob : Option (List Byte)) (mode : OobMode) :
    Preserves (Touches ld region) (writePhysPage ld addr data oob mode) :=
  ofWritable fun _ => touches_retry (fun _ => touches_lowerWritePage sound inside) _

theorem touches_panicWritePhysPage {addr : Nat} (inside : region (ld.blockOf addr))
    (data : Option (List Byte)) : Preserves (Touches ld region) (panicWritePhysPage ld addr data) :=
  ofWritable fun _ => touches_retry (fun _ => touches_lowerWritePage sound inside) _

variable {ba : Nat} (inside : region ba)

include inside

theorem touches_erasePhysBlock :
    Preserves (Touches ld region) (erasePhysBlock ld (ld.ba2addr ba)) := by
  have block : region (ld.blockOf (ld.ba2addr ba)) := by rwa [sound.blockOf_ba2addr]
  exact ofWritable fun _ => touches_retry (fun _ => touches_lowerEraseBlock block) _

theorem touches_overwritePages {addr pages : Nat} (low : ld.ba2addr ba ≤ addr)
    (high : addr + pages * ld.writesize ≤ ld.ba2addr ba + ld.erasesize) :
    Preserves (Touches ld region) (overwritePages ld addr pages) := by
  have positive := sound.writesize_pos
  induction pages generalizing addr with
  | zero => exact .pure _
  | succ pages ih =>
    rw [Nat.succ_mul] at high
    have block : ld.blockOf addr = ba := sound.blockOf_eq low (by omega)
    unfold overwritePages
    refine touches_getNi.bind fun ni => ?_
    refine (touches_writePhysPage sound (block ▸ inside) _ _ _).bind fun _ => ?_
    exact ih (by omega) (by omega)

theorem touches_markPhysBadBlock : Preserves (Touches ld region) (markPhysBadBlock ld ba) := by
  have block : region (ld.blockOf (ld.ba2addr ba)) := by rwa [sound.blockOf_ba2addr]
  refine ofWritable fun state writable => ?_
  by_cases callback : ld.hasMarkBadBlock = true
  · rw [if_pos callback]
    exact touches_lowerMarkBadBlock block writable
  · rw [if_neg callback]
    have pages := sound.pages_mul
    exact (touches_pageCache _).bind (fun _ =>
      (touches_overwritePages sound inside le_rfl (by omega)).bind fun _ => .pure _) state

theorem touches_eraseBlockAndCheck : Preserves (Touches ld region) (eraseBlockAndCheck ld ba) := by
  unfold eraseBlockAndCheck
  refine (touches_erasePhysBlock sound inside).bind fun success => ?_
  refine .ite (fun _ => .pure _) fun _ => ?_
  refine touches_getNi.bind fun ni => ?_
  exact .ite (fun _ => .pure _) fun _ => touches_checkErasedPages _ _

theorem touches_retireBlock : Preserves (Touches ld region) (retireBlock ld ba) :=
  (touches_markPhysBadBlock sound inside).bind fun _ => touches_recordBad inside

theorem touches_writeRepeatedData (data : List Byte) :
    Preserves (Touches ld region) (writeRepeatedData ld ba data) := by
  have positive := sound.writesize_pos
  have pages (count addr : Nat) (low : ld.ba2addr ba ≤ addr)
      (high : addr + count * ld.writesize ≤ ld.ba2addr ba + ld.erasesize) :
      Preserves (Touches ld region) (writeRepeatedPages ld data addr count) := by
    induction count generalizing addr with
    | zero => exact .pure _
    | succ count ih =>
      rw [Nat.succ_mul] at high
      have block : ld.blockOf addr = ba := sound.blockOf_eq low (by omega)
      unfold writeRepeatedPages
      refine (touches_pageCache _).bind fun _ => touches_getNi.bind fun ni => ?_
      refine (touches_writePhysPage sound (block ▸ inside) _ _ _).bind fun success => ?_
      refine .ite (fun _ => .pure _) fun _ => ?_
      refine (touches_readPhysPage _ _).bind fun result => ?_
      refine (touches_cacheData _).bind fun _ => ?_
      refine .ite (fun _ => .pure _) fun _ => .ite (fun _ => .pure _) fun _ => ?_
      exact ih _ (by omega) (by omega)
  have total := sound.pages_mul
  unfold writeRepeatedData
  exact .ite (fun _ => .pure _) fun _ => pages _ _ le_rfl (by omega)

theorem touches_nmbnWriteVerifyData {data : List Byte} (fits : data.length ≤ ld.erasesize) :
    Preserves (Touches ld region) (nmbnWriteVerifyData ld (ld.ba2addr ba) data) := by
  have rounds (count off : Nat) (ptr : List Byte) (low : ld.ba2addr ba ≤ off)
      (high : off + ptr.length ≤ ld.ba2addr ba + ld.erasesize) :
      Preserves (Touches ld region) (nmbnWriteVerifyDataLoop ld count off ptr) := by
    induction count generalizing off ptr with
    | zero => exact .pure _
    | succ count ih =>
      unfold nmbnWriteVerifyDataLoop
      refine .ite (fun _ => .pure _) fun some => ?_
      have page : ld.blockOf (off - (off &&& ld.writesizeMask)) = ba := by
        rw [sound.and_writesizeMask, sound.blockOf_page]
        exact sound.blockOf_eq low (by omega)
      refine (touches_pageCache _).bind fun _ => touches_getNi.bind fun ni => ?_
      refine (touches_writePhysPage sound (page ▸ inside) _ _ _).bind fun success => ?_
      refine .ite (fun _ => .pure _) fun _ => ?_
      refine (touches_readPhysPage _ _).bind fun result => ?_
      refine (touches_cacheData _).bind fun _ => ?_
      refine .ite (fun _ => .pure _) fun _ => .ite (fun _ => .pure _) fun _ => ?_
      refine ih _ _ (by omega) ?_
      rw [List.length_drop]
      omega
  exact rounds _ _ _ le_rfl (by omega)

end Block

/-! ## Functions that work on a range of blocks -/

/-- The blocks from `lower` up to, not including, `upper`. -/
def Between (lower upper ba : Nat) : Prop := lower ≤ ba ∧ ba < upper

theorem touches_scanBadblocksFrom {ba blocks : Nat}
    (inside : ∀ block, Between ba (ba + blocks) block → region block) :
    Preserves (Touches ld region) (scanBadblocksFrom ld ba blocks) := by
  induction blocks generalizing ba with
  | zero => exact .pure _
  | succ blocks ih =>
    unfold scanBadblocksFrom
    refine (touches_checkBadPhysBlock _).bind fun bad => ?_
    have rest : Preserves (Touches ld region) (scanBadblocksFrom ld (ba + 1) blocks) :=
      ih fun block between => inside block ⟨by have := between.1; omega,
        by have := between.2; omega⟩
    refine .ite (fun _ => ?_) fun _ => rest
    exact (touches_recordBad (inside ba ⟨le_rfl, by omega⟩)).bind fun _ => rest

section Range

variable (sound : ld.Sound)

include sound

theorem touches_eraseRange {ba limit : Nat}
    (inside : ∀ block, Between ba limit block → region block) :
    Preserves (Touches ld region) (eraseRange ld ba limit) := by
  have blocks (count from_ : Nat) (low : ba ≤ from_) (high : count ≠ 0 → from_ + count ≤ limit) :
      Preserves (Touches ld region) (eraseRangeLoop ld count from_) := by
    induction count generalizing from_ with
    | zero => exact .pure _
    | succ count ih =>
      have upTo := high (by omega)
      have within : region from_ := inside from_ ⟨low, by omega⟩
      have rest : Preserves (Touches ld region) (eraseRangeLoop ld count (from_ + 1)) :=
        ih _ (by omega) (by omega)
      unfold eraseRangeLoop
      refine touches_getNi.bind fun ni => .ite (fun _ => rest) fun _ => ?_
      refine (touches_checkBadPhysBlock _).bind fun bad => .ite (fun _ => ?_) fun _ => ?_
      · exact (touches_recordBad within).bind fun _ => rest
      · refine (touches_eraseBlockAndCheck sound within).bind fun success => ?_
        refine .ite (fun _ => rest) fun _ => ?_
        exact (touches_retireBlock sound within).bind fun _ => rest
  exact blocks _ _ le_rfl (by omega)

theorem touches_writeSignatureLoop {blocks ba : Nat} {signature : List Byte} (enough : blocks ≤ ba)
    (inside : ∀ block, Between (ba + 1 - blocks) (ba + 1) block → region block) :
    Preserves (Touches ld region) (writeSignatureLoop ld signature blocks ba) := by
  induction blocks generalizing ba with
  | zero => exact .pure _
  | succ blocks ih =>
    have within : region ba := inside ba ⟨by omega, by omega⟩
    have rest : Preserves (Touches ld region)
        (writeSignatureLoop ld signature blocks (ba - 1)) :=
      ih (by omega) fun block between => inside block ⟨by have := between.1; omega,
        by have := between.2; omega⟩
    unfold writeSignatureLoop
    refine touches_getNi.bind fun ni => .ite (fun _ => rest) fun _ => ?_
    refine (touches_checkBadPhysBlock _).bind fun bad => .ite (fun _ => ?_) fun _ => ?_
    · exact (touches_recordBad within).bind fun _ => rest
    · refine (touches_eraseBlockAndCheck sound within).bind fun erased => ?_
      refine .ite (fun _ => ?_) fun _ => ?_
      · exact (touches_retireBlock sound within).bind fun _ => rest
      · refine (touches_writeRepeatedData sound within _).bind fun written => ?_
        refine .ite (fun _ => .pure _) fun _ => ?_
        exact (touches_retireBlock sound within).bind fun _ => rest

theorem touches_writeMgmtRangeLoop {blocks ba : Nat} {ptr : List Byte} {start : Option Nat}
    (inside : ∀ block, Between ba (ba + blocks) block → region block) :
    Preserves (Touches ld region) (writeMgmtRangeLoop ld blocks ba ptr start) := by
  induction blocks generalizing ba ptr start with
  | zero => exact .pure _
  | succ blocks ih =>
    have within : region ba := inside ba ⟨le_rfl, by omega⟩
    have rest (ptr : List Byte) (start : Option Nat) : Preserves (Touches ld region)
        (writeMgmtRangeLoop ld blocks (ba + 1) ptr start) :=
      ih fun block between => inside block ⟨by have := between.1; omega,
        by have := between.2; omega⟩
    unfold writeMgmtRangeLoop
    refine .ite (fun _ => .pure _) fun some => ?_
    refine touches_getNi.bind fun ni => .ite (fun _ => rest _ _) fun _ => ?_
    refine (touches_checkBadPhysBlock _).bind fun bad => .ite (fun _ => ?_) fun _ => ?_
    · exact (touches_recordBad within).bind fun _ => rest _ _
    · refine (touches_eraseBlockAndCheck sound within).bind fun erased => ?_
      refine .ite (fun _ => ?_) fun _ => ?_
      · exact (touches_retireBlock sound within).bind fun _ => rest _ _
      · have fits : (ptr.take ld.erasesize).length ≤ ld.erasesize := by simp
        refine (touches_nmbnWriteVerifyData sound within fits).bind fun written => ?_
        refine .ite (fun _ => rest _ _) fun _ => ?_
        exact (touches_retireBlock sound within).bind fun _ => rest _ _

theorem writes_writeInfoTable {ba limit : Nat}
    (inside : ∀ block, Between ba limit block → region block) :
    Preserves (Writes ld region) (writeInfoTable ld ba limit) := by
  intro state
  have noted : Writes ld region state
      { state with trace := .tableWrite ba limit state.ni.infoTableCache :: state.trace } :=
    .ofStates rfl rfl rfl (.refl _)
      ⟨[_], rfl, by simpa [Event.Within] using fun block low high => inside block ⟨low, high⟩⟩
  refine noted.trans (touches_writeMgmtRangeLoop sound ?_ _).toWrites
  intro block between
  exact inside block ⟨between.1, by have := between.2; have := between.1; omega⟩

end Range

end Nmbm

end MetaFilogic
