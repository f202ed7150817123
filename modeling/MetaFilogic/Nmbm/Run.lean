import MetaFilogic.Nmbm.Access

/-!
# Runs of the driver on one chip

A system is the machine state together with the fact whether an instance is
attached.  A run is any sequence of attaches, detaches and requests; attaching
again without a detach is a reset between two requests.
-/

namespace MetaFilogic.Nmbm

inductive Op where
  | attach (flags : Flags) (rounds : Nat)
  | detach
  | eraseBlockRange (addr size : Nat)
  | readSinglePage (addr : Nat) (mode : OobMode)
  | readRange (addr size : Nat) (mode : OobMode)
  | writeSinglePage (addr : Nat) (data oob : Option (List Byte)) (mode : OobMode)
  | panicWriteSinglePage (addr : Nat) (data : Option (List Byte))
  | writeRange (addr : Nat) (data : List Byte) (mode : OobMode)
  | checkBadBlock (addr : Nat)
  | markBadBlock (addr : Nat)

/-- The machine and whether the last attach has succeeded and not been undone. -/
structure Sys where
  state : State
  isAttached : Bool

variable (ld : LowerDevice)

/-- One request; `none` if there is no instance to make it on, or if the signature
search of an attach has not ended. -/
def step (op : Op) (sys : Sys) : Option Sys :=
  match op with
  | .attach flags rounds =>
    match attach ld flags rounds sys.state with
    | (none, _) => none
    | (some ret, state) =>
      some ⟨if ret = 0 then { state with trace := .attached :: state.trace } else state,
        ret = 0⟩
  | .detach => if sys.isAttached then some ⟨(detach ld sys.state).2, false⟩ else none
  | .eraseBlockRange addr size => request (eraseBlockRange ld addr size)
  | .readSinglePage addr mode => request (readSinglePage ld addr mode)
  | .readRange addr size mode => request (readRange ld addr size mode)
  | .writeSinglePage addr data oob mode => request (writeSinglePage ld addr data oob mode)
  | .panicWriteSinglePage addr data => request (panicWriteSinglePage ld addr data)
  | .writeRange addr data mode => request (writeRange ld addr data mode)
  | .checkBadBlock addr => request (checkBadBlock ld addr)
  | .markBadBlock addr => request (markBadBlock ld addr)
where
  /-- Make a request on the attached instance and forget the returned value. -/
  request {α : Type} (program : NmbmM α) : Option Sys :=
    if sys.isAttached then some ⟨(program sys.state).2, true⟩ else none

def run : List Op → Sys → Option Sys
  | [], sys => some sys
  | op :: ops, sys => (step ld op sys).bind (run ops)

def initialSys (flash : Flash) : Sys :=
  ⟨⟨initStructure ld ⟨false, false, false⟩, flash, 0, []⟩, false⟩

end MetaFilogic.Nmbm
