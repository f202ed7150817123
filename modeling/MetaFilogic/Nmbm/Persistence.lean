import MetaFilogic.Nmbm.Integrity

/-!
# What reaches the chip

An update that reports success has written the tables in memory, and a logical
block that was remapped or given up is on flash or marked for the next update, as
long as the dirty counters tell the truth: `nmbm_mark_tables_clean` clears them
although blocks may have gone bad since the table was generated, and a block that
is given up raises none of them if it was recorded as bad or to be remapped before.
-/

namespace MetaFilogic.Nmbm

open Bytes

variable {ld : LowerDevice}

def State.imageAt (ld : LowerDevice) (state : State) (ba : Nat) : List Byte :=
  ld.bytesAt state.flash (ld.ba2addr ba) ld.infoTableSize

variable {state : State}

theorem HoldsTable.image_eq {start stop : Nat} {image : List Byte}
    (holds : HoldsTable ld state.flash start stop image) (fits : ld.infoTableSize ≤ ld.erasesize) :
    image = state.imageAt ld start := by
  have first := holds.stored.first
  have length : image.length = ld.infoTableSize := holds.valid.1
  rw [List.take_of_length_le (by omega), Holds, length] at first
  exact first.symm

theorem Stores.cases {image : List Byte} (stores : Stores ld state image)
    (fits : ld.infoTableSize ≤ ld.erasesize) :
    image = state.imageAt ld state.ni.mainTableBa ∨
      image = state.imageAt ld state.ni.backupTableBa := by
  obtain ⟨ba, stop, which, _, _, holds⟩ := stores
  rcases which with rfl | rfl
  · exact Or.inl (holds.image_eq fits)
  · exact Or.inr (holds.image_eq fits)

/-! ## Updates -/

def forgettingChip : LowerDevice :=
  faultyChip 10 [102, 103, 104, 107, 108, 109, 149, 150, 151]

inductive RemapRequest where
  | eraseBlockRange (addr size : Nat)
  | markBadBlock (addr : Nat)

def RemapRequest.program (ld : LowerDevice) : RemapRequest → NmbmM Unit
  | .eraseBlockRange addr size => do
    let _ ← Nmbm.eraseBlockRange ld addr size
  | .markBadBlock addr => do
    let _ ← Nmbm.markBadBlock ld addr

/-- A table on flash has the mapping of a logical block, or a later update will
write it. -/
def MappingKept (ld : LowerDevice) (state : State) (lb : Nat) : Prop :=
  (∃ image, Stores ld state image ∧ imageMapping image lb = state.ni.blockMapping lb) ∨
    state.ni.blockStateChanged ≠ 0 ∨ state.ni.blockMappingChanged ≠ 0

theorem RemapRequest.refused (closed : state.ni.isProtected = true ∨ state.ni.flags.readOnly = true)
    (request : RemapRequest) : (request.program ld state).2 = state := by
  cases request with
  | eraseBlockRange addr size =>
    exact congrArg Prod.snd (eraseBlockRange_refused closed addr size :)
  | markBadBlock addr => exact congrArg Prod.snd (markBadBlock_refused closed addr :)

theorem RemapRequest.session (sound : ld.Sound) (session : Session ld state.ni.dataBlockCount state)
    (request : RemapRequest) :
    Ensures (request.program ld) state fun _ after => Faithful ld after.trace →
      Session ld state.ni.dataBlockCount after := by
  cases request with
  | eraseBlockRange addr size =>
    exact (eraseBlockRange_session sound session addr size).bind fun _ _ done => .pure done
  | markBadBlock addr =>
    exact (markBadBlock_session sound session addr).bind fun _ _ done => .pure fun _ => done

def unwritableChip : LowerDevice :=
  smallChip 5 fun clock => if clock = 88 ∨ clock = 89 ∨ clock = 90 then { writeRet := - EIO } else {}

def erasedFirst (state : State) : State :=
  ((RemapRequest.eraseBlockRange 0 256).program unwritableChip state).2

end MetaFilogic.Nmbm
