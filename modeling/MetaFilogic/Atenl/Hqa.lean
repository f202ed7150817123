import Mathlib.Data.BitVec
import Mathlib.Tactic.NormNum

/-!
# Register, RF and EEPROM commands of a test frame

A frame is kept in a buffer of 1600 bytes, and the handlers read the request from it and
write the response into it through a header that is declared with 2048 bytes of data.  The
model notes which bytes of the buffer and of the EEPROM are read or written.
-/

namespace MetaFilogic.Atenl

def ETH_HLEN : Nat := 14
def RACFG_HLEN : Nat := 12
def RACFG_PKT_MAX_SIZE : Nat := 1600
def RACFG_DATA_MAX_SIZE : Nat := RACFG_PKT_MAX_SIZE - ETH_HLEN - RACFG_HLEN
def SHRT_MAX : Nat := 32767

/-- Where the fields of `struct atenl_cmd_hdr` are in `data->buf`. -/
def CMD_TYPE : Nat := ETH_HLEN + 4
def CMD_ID : Nat := ETH_HLEN + 6
def HDR_LEN : Nat := ETH_HLEN + 8
def HDR_DATA : Nat := ETH_HLEN + RACFG_HLEN

/-- `sizeof(hdr->data)`. -/
def HDR_DATA_SIZE : Nat := 2048

structure Errno where
  code : Nat
  positive : 0 < code
  small : code ≤ 4095

def EINVAL : Errno := ⟨22, by decide, by decide⟩

/-- What a `u16` gets of a return value. -/
def retStatus : Option Errno → BitVec 16
  | none => 0
  | some e => -BitVec.ofNat 16 e.code

inductive HqaCmd where
  | readMacBbpReg
  | readMacBbpRegQa
  | writeMacBbpReg
  | readRfReg
  | writeRfReg
  | readEepromBulk
  | writeEepromBulk
  | writeBufferDone
  | other
  deriving DecidableEq

/-- `struct atenl_ops`; `skip` is `ATENL_OPS_FLAG_SKIP`. -/
structure AtenlOps where
  cmdId : BitVec 16
  respLen : Nat
  ops : Option HqaCmd
  skip : Bool

namespace AtenlOps

def served (cmdId : BitVec 16) (respLen : Nat) (cmd : HqaCmd) : AtenlOps :=
  ⟨cmdId, respLen, some cmd, false⟩

def skipped (cmdId : BitVec 16) (respLen : Nat) : AtenlOps := ⟨cmdId, respLen, none, true⟩

def legacy (cmdId : BitVec 16) : AtenlOps := ⟨cmdId, 0, none, false⟩

end AtenlOps

def hqaOps : List AtenlOps :=
  [.served 0x1000 2 .other, .served 0x1001 2 .other, .served 0x100b 2 .other,
    .served 0x100c 2 .other, .skipped 0x100d 2, .served 0x1011 2 .other, .skipped 0x1018 2,
    .skipped 0x1101 2, .skipped 0x1102 2, .skipped 0x1104 2, .skipped 0x1105 2,
    .skipped 0x1106 2, .served 0x1107 2 .other, .served 0x1109 2 .other, .skipped 0x110c 2,
    .skipped 0x110d 6, .served 0x1200 2 .other, .served 0x1300 6 .readMacBbpRegQa,
    .served 0x1301 2 .writeMacBbpReg, .served 0x1302 0 .readMacBbpReg,
    .served 0x1303 0 .readRfReg, .served 0x1304 2 .writeRfReg, .served 0x1306 2 .writeEepromBulk,
    .served 0x1307 0 .readEepromBulk, .served 0x1308 2 .writeEepromBulk, .served 0x1309 6 .other,
    .served 0x130a 6 .other, .served 0x130d 10 .other, .served 0x130e 2 .other,
    .served 0x130f 6 .other, .served 0x1311 6 .other, .skipped 0x1312 2, .served 0x1313 10 .other,
    .served 0x1314 6 .other, .skipped 0x131a 6, .skipped 0x131f 1024, .served 0x1401 6 .other,
    .skipped 0x1500 32, .legacy 0x1502, .served 0x1505 2 .other, .served 0x1509 2 .other,
    .legacy 0x150b, .served 0x1511 2 .writeBufferDone, .served 0x1514 6 .other,
    .served 0x151b 6 .other, .served 0x151c 0 .other, .served 0x151e 10 .other,
    .served 0x1522 6 .other, .served 0x1523 6 .other, .served 0x152d 6 .other,
    .served 0x1594 2 .other]

def hqaOpsExt : List AtenlOps :=
  [.served 0x01 6 .other, .served 0x02 6 .other, .served 0x03 6 .other, .served 0x04 6 .other,
    .served 0x05 6 .other, .served 0x06 6 .other, .served 0x08 6 .other, .served 0x09 10 .other,
    .served 0x0c 6 .other, .served 0x26 6 .other, .served 0x27 6 .other]

inductive RegWrite where
  | reg (offset val : BitVec 32)
  | rf (wfSel offset val : BitVec 32)

/-- What the memory holds from `data->buf` and from `an->eeprom_data` on. -/
structure HqaMem where
  buf : Nat → BitVec 8
  eeprom : Nat → BitVec 8

/-- `frameLog` and `eepromLog` have the bytes of the buffer and of the EEPROM that have been
read or written. -/
structure HqaState extends HqaMem where
  regs : List RegWrite
  frameLog : List Nat
  eepromLog : List Nat

/-- What the accesses of a command return; the first argument counts them. -/
structure HqaDriver where
  regRead : Nat → BitVec 32 → Except Errno (BitVec 32)
  regWrite : Nat → BitVec 32 → BitVec 32 → Option Errno
  rfRead : Nat → BitVec 32 → BitVec 32 → Except Errno (BitVec 32)
  rfWrite : Nat → BitVec 32 → BitVec 32 → BitVec 32 → Option Errno

namespace HqaState

variable (s : HqaState)

/-- `ntohs` of the two bytes at `place`. -/
def get16 (place : Nat) : BitVec 16 := s.buf place ++ s.buf (place + 1)

/-- `ntohl` of the four bytes at `place`. -/
def get32 (place : Nat) : BitVec 32 :=
  s.buf place ++ s.buf (place + 1) ++ s.buf (place + 2) ++ s.buf (place + 3)

def touch (place len : Nat) : HqaState :=
  { s with frameLog := s.frameLog ++ List.range' place len }

/-- Two bytes are stored, the first one at `place`. -/
def put16 (place : Nat) (high low : BitVec 8) : HqaState :=
  { s.touch place 2 with buf := Function.update (Function.update s.buf place high) (place + 1) low }

/-- `htons(val)` is stored. -/
def putBe16 (place : Nat) (val : BitVec 16) : HqaState :=
  s.put16 place (val.extractLsb' 8 8) (val.setWidth 8)

/-- `htonl(val)` is stored. -/
def putBe32 (place : Nat) (val : BitVec 32) : HqaState :=
  (s.putBe16 place (val.extractLsb' 16 16)).putBe16 (place + 2) (val.setWidth 16)

/-- The loop of a block read, which stores what it reads at `ptr`. -/
def readBlock (ptr : Nat) (read : Nat → Except Errno (BitVec 32)) :
    Nat → Nat → HqaState → Option Errno × HqaState
  | _, 0, s => (none, s)
  | i, more + 1, s =>
    match read i with
    | .error e => (some e, s)
    | .ok res => readBlock ptr read (i + 1) more (s.putBe32 (ptr + 4 * i) res)

/-- The loop of a block write, which takes what it writes from `ptr`. -/
def writeBlock (ptr : Nat) (write : Nat → BitVec 32 → Option Errno)
    (written : Nat → BitVec 32 → RegWrite) : Nat → Nat → HqaState → Option Errno × HqaState
  | _, 0, s => (none, s)
  | i, more + 1, s =>
    let val := s.get32 (ptr + 4 * i)
    let s := s.touch (ptr + 4 * i) 4
    match write i val with
    | some e => (some e, s)
    | none =>
      writeBlock ptr write written (i + 1) more { s with regs := s.regs ++ [written i val] }

def readEeprom (eepromSize offset : Nat) : Nat → Nat → HqaState → HqaState
  | _, 0, s => s
  | i, more + 1, s =>
    let at' := offset + 2 * i
    let s :=
      if eepromSize ≤ at' then s.put16 (HDR_DATA + 2 + 2 * i) 0 0
      else
        -- val is in host order, so its low byte is the second one of the EEPROM
        { s.put16 (HDR_DATA + 2 + 2 * i) (s.eeprom (at' + 1)) (s.eeprom at') with
          eepromLog := s.eepromLog ++ [at', at' + 1] }
    readEeprom eepromSize offset (i + 1) more s

def writeEeprom (offset : Nat) : Nat → Nat → HqaState → HqaState
  | _, 0, s => s
  | i, more + 1, s =>
    let val := s.get16 (HDR_DATA + 4 + 2 * i)
    let s := s.touch (HDR_DATA + 4 + 2 * i) 2
    let at' := offset + 2 * i
    writeEeprom offset (i + 1) more { s with
      eeprom := Function.update (Function.update s.eeprom at' (val.setWidth 8)) (at' + 1)
        (val.extractLsb' 8 8)
      eepromLog := s.eepromLog ++ [at', at' + 1] }

def atenlHqaMacBbpReg (drv : HqaDriver) (cmd : HqaCmd) : Option Errno × HqaState :=
  let offset := s.get32 HDR_DATA
  let s := s.touch HDR_DATA 4
  let (ret, s) :=
    match cmd with
    | .readMacBbpReg =>
      let num := (s.get16 (HDR_DATA + 4)).toNat
      let s := s.touch (HDR_DATA + 4) 2
      if SHRT_MAX < num then (some EINVAL, s)
      else
        let s := s.putBe16 HDR_LEN (BitVec.ofNat 16 (2 + num * 4))
        readBlock (HDR_DATA + 2) (fun i => drv.regRead i (offset + BitVec.ofNat 32 (i * 4))) 0
          (min num (HDR_DATA_SIZE / 4)) s
    | .readMacBbpRegQa =>
      match drv.regRead 0 offset with
      | .error e => (some e, s)
      | .ok res => (none, s.putBe32 (HDR_DATA + 2) res)
    | _ =>
      let val := s.get32 (HDR_DATA + 4)
      let s := s.touch (HDR_DATA + 4) 4
      match drv.regWrite 0 offset val with
      | some e => (some e, s)
      | none => (none, { s with regs := s.regs ++ [RegWrite.reg offset val] })
  (ret, s.put16 HDR_DATA 0 0)

def atenlHqaRfReg (drv : HqaDriver) (cmd : HqaCmd) : Option Errno × HqaState :=
  let wfSel := s.get32 HDR_DATA
  let offset := s.get32 (HDR_DATA + 4)
  let num := (s.get32 (HDR_DATA + 8)).toNat
  let s := s.touch HDR_DATA 12
  let at' := fun i => offset + BitVec.ofNat 32 (i * 4)
  let (ret, s) :=
    match cmd with
    | .readRfReg =>
      let s := s.putBe16 HDR_LEN (BitVec.ofNat 16 (2 + num * 4))
      readBlock (HDR_DATA + 2) (fun i => drv.rfRead i wfSel (at' i)) 0
        (min num (HDR_DATA_SIZE / 4)) s
    | _ =>
      writeBlock (HDR_DATA + 12) (fun i => drv.rfWrite i wfSel (at' i))
        (fun i => RegWrite.rf wfSel (at' i)) 0 (min num (HDR_DATA_SIZE / 4)) s
  (ret, s.put16 HDR_DATA 0 0)

/-- `DIV_ROUND_UP(len, 2)`. -/
def words (len : Nat) : Nat := (len + 1) / 2

def atenlHqaEepromBulk (eepromSize : Nat) (cmd : HqaCmd) : Option Errno × HqaState :=
  match cmd with
  | .writeBufferDone => (none, s.touch HDR_DATA 4)
  | cmd =>
    let offset := (s.get16 HDR_DATA).toNat
    let len := (s.get16 (HDR_DATA + 2)).toNat
    let s := s.touch HDR_DATA 4
    if eepromSize ≤ offset ∨ RACFG_DATA_MAX_SIZE - 2 < len then (some EINVAL, s)
    else
      match cmd with
      | .readEepromBulk =>
        let s := s.putBe16 HDR_LEN (BitVec.ofNat 16 (len + 2))
        (none, readEeprom eepromSize offset 0 (words len) s)
      | _ =>
        if eepromSize - offset < words len * 2 then (some EINVAL, s)
        else (none, writeEeprom offset 0 (words len) s)

/-- The binary search of `atenl_get_ops`, for at most `fuel` passes. -/
def searchOps (group : List AtenlOps) (id : BitVec 16) : Nat → Int → Int → Option AtenlOps
  | 0, _, _ => none
  | fuel + 1, low, high =>
    if low ≤ high then
      let mid := low + (high - low) / 2
      match group[mid.toNat]? with
      | none => none
      | some ops =>
        if ops.cmdId = id then some ops
        else if id < ops.cmdId then searchOps group id fuel low (mid - 1)
        else searchOps group id fuel (mid + 1) high
    else none

def atenlGetOps : Option AtenlOps × HqaState :=
  let cmdId := s.get16 CMD_ID
  let s := s.touch CMD_ID 2
  if cmdId = 0x1600 then
    let id := (s.get32 HDR_DATA).setWidth 16
    (searchOps hqaOpsExt id hqaOpsExt.length 0 (hqaOpsExt.length - 1), s.touch HDR_DATA 4)
  else (searchOps hqaOps cmdId hqaOps.length 0 (hqaOps.length - 1), s)

/-- `ops->ops(an, data)`; `others` is what the other handlers return and leave in memory. -/
def runOps (others : HqaMem → BitVec 16 × HqaMem) (drv : HqaDriver) (eepromSize : Nat) :
    HqaCmd → BitVec 16 × HqaState
  | .readMacBbpReg => (s.atenlHqaMacBbpReg drv .readMacBbpReg).map retStatus id
  | .readMacBbpRegQa => (s.atenlHqaMacBbpReg drv .readMacBbpRegQa).map retStatus id
  | .writeMacBbpReg => (s.atenlHqaMacBbpReg drv .writeMacBbpReg).map retStatus id
  | .readRfReg => (s.atenlHqaRfReg drv .readRfReg).map retStatus id
  | .writeRfReg => (s.atenlHqaRfReg drv .writeRfReg).map retStatus id
  | .readEepromBulk => (s.atenlHqaEepromBulk eepromSize .readEepromBulk).map retStatus id
  | .writeEepromBulk => (s.atenlHqaEepromBulk eepromSize .writeEepromBulk).map retStatus id
  | .writeBufferDone => (s.atenlHqaEepromBulk eepromSize .writeBufferDone).map retStatus id
  | .other =>
    let (status, mem) := others s.toHqaMem
    (status, { s with toHqaMem := mem })

/-- The end of `atenl_hqa_handler`. -/
def finish (status : BitVec 16) : BitVec 16 × HqaState :=
  let s := (s.putBe16 HDR_DATA status).touch HDR_LEN 2
  -- RACFG_CMD_TYPE_MASK is bits 14..0, so the response bit is set
  (status, s.putBe16 CMD_TYPE (s.get16 CMD_TYPE ||| 0x8000))

def atenlHqaHandler (others : HqaMem → BitVec 16 × HqaMem) (drv : HqaDriver)
    (eepromSize : Nat) : BitVec 16 × HqaState :=
  let s := s.touch CMD_ID 2
  let (ops, s) := s.atenlGetOps
  match ops with
  | none => s.finish 0
  | some ops =>
    if ops.skip then s.finish 0
    else
      let s := s.touch HDR_LEN 2
      let (status, s) :=
        match ops.ops with
        | some cmd => s.runOps others drv eepromSize cmd
        | none => (0, s)
      let s := if ops.respLen = 0 then s else s.putBe16 HDR_LEN (BitVec.ofNat 16 ops.respLen)
      s.finish status

/-! ## What a command may do -/

def command : Option HqaCmd := s.atenlGetOps.1.bind fun ops => if ops.skip then none else ops.ops

/-- The words of a block and the bytes of a bulk have room in the frame, and a bulk in the
EEPROM: a bulk read has to begin in it, and gets zeros for what is behind it. -/
def Fits (eepromSize : Nat) : HqaCmd → Prop
  | .readMacBbpReg => 2 + 4 * (s.get16 (HDR_DATA + 4)).toNat ≤ RACFG_DATA_MAX_SIZE
  | .readRfReg => 2 + 4 * (s.get32 (HDR_DATA + 8)).toNat ≤ RACFG_DATA_MAX_SIZE
  | .writeRfReg => 12 + 4 * (s.get32 (HDR_DATA + 8)).toNat ≤ RACFG_DATA_MAX_SIZE
  | .readEepromBulk => (s.get16 HDR_DATA).toNat < eepromSize ∧
      2 + (s.get16 (HDR_DATA + 2)).toNat ≤ RACFG_DATA_MAX_SIZE
  | .writeEepromBulk =>
    (s.get16 HDR_DATA).toNat + 2 * words (s.get16 (HDR_DATA + 2)).toNat ≤ eepromSize ∧
    4 + 2 * words (s.get16 (HDR_DATA + 2)).toNat ≤ RACFG_DATA_MAX_SIZE
  | .readMacBbpRegQa | .writeMacBbpReg | .writeBufferDone | .other => True

def InFrame : Prop := ∀ place ∈ s.frameLog, place < RACFG_PKT_MAX_SIZE

def InEeprom (eepromSize : Nat) : Prop := ∀ place ∈ s.eepromLog, place < eepromSize

/-- From `s`, a command has stayed inside the buffer and the EEPROM, and one that does not fit
was answered with an error and has changed neither the EEPROM nor a register. -/
structure Contained (eepromSize : Nat) (cmd : Option HqaCmd) (after : BitVec 16 × HqaState) :
    Prop where
  frame : after.2.InFrame
  eeprom : after.2.InEeprom eepromSize
  refused : ∀ c, cmd = some c → ¬s.Fits eepromSize c →
    after.1 ≠ 0 ∧ after.2.eeprom = s.eeprom ∧ after.2.regs = s.regs

/-- A block read has at most 393 words or finds an error among the first 394, a block write has
at most 390 words or its first one fails, no bulk read takes the last byte of the EEPROM as the
first one of a word, and a bulk write of more than 1570 bytes does not fit into the EEPROM. -/
def Harmless (drv : HqaDriver) (eepromSize : Nat) : HqaCmd → Prop
  | .readMacBbpReg =>
    let num := (s.get16 (HDR_DATA + 4)).toNat
    num ≤ 393 ∨ SHRT_MAX < num ∨
      ∃ i e, i ≤ 393 ∧ drv.regRead i (s.get32 HDR_DATA + BitVec.ofNat 32 (i * 4)) = .error e
  | .readRfReg =>
    (s.get32 (HDR_DATA + 8)).toNat ≤ 393 ∨ ∃ i e, i ≤ 393 ∧
      drv.rfRead i (s.get32 HDR_DATA) (s.get32 (HDR_DATA + 4) + BitVec.ofNat 32 (i * 4)) =
        .error e
  | .writeRfReg =>
    (s.get32 (HDR_DATA + 8)).toNat ≤ 390 ∨ ∃ e,
      drv.rfWrite 0 (s.get32 HDR_DATA) (s.get32 (HDR_DATA + 4) + BitVec.ofNat 32 (0 * 4))
        (s.get32 (HDR_DATA + 12)) = some e
  | .readEepromBulk =>
    let offset := (s.get16 HDR_DATA).toNat
    let len := (s.get16 (HDR_DATA + 2)).toNat
    eepromSize ≤ offset ∨ 1572 < len ∨ ∀ i < words len, offset + 2 * i + 1 ≠ eepromSize
  | .writeEepromBulk =>
    let offset := (s.get16 HDR_DATA).toNat
    let len := (s.get16 (HDR_DATA + 2)).toNat
    len ≤ 1570 ∨ 1572 < len ∨ eepromSize < offset + 1572
  | .readMacBbpRegQa | .writeMacBbpReg | .writeBufferDone | .other => True

section Bounds

variable {s : HqaState} {place len eepromSize : Nat}

theorem retStatus_ne_zero (e : Errno) : retStatus (some e) ≠ 0 := by
  have positive := e.positive
  have small := e.small
  intro zero
  have code : BitVec.ofNat 16 e.code = 0 := neg_eq_zero.mp zero
  have code := congrArg BitVec.toNat code
  rw [BitVec.toNat_ofNat, Nat.mod_eq_of_lt (by omega)] at code
  exact positive.ne' code

theorem touch_inFrame (some : 0 < len) :
    (s.touch place len).InFrame ↔ s.InFrame ∧ place + len ≤ RACFG_PKT_MAX_SIZE := by
  constructor
  · intro inside
    refine ⟨fun other logged => inside other (List.mem_append_left _ logged), ?_⟩
    have last := inside (place + (len - 1))
      (List.mem_append_right _ (List.mem_range'_1.mpr ⟨by omega, by omega⟩))
    omega
  · rintro ⟨inside, room⟩ other logged
    rcases List.mem_append.mp logged with before | now
    · exact inside other before
    · have := List.mem_range'_1.mp now
      omega

theorem put16_inFrame {high low : BitVec 8} :
    (s.put16 place high low).InFrame ↔ s.InFrame ∧ place + 2 ≤ RACFG_PKT_MAX_SIZE :=
  touch_inFrame (by decide)

theorem putBe16_inFrame {val : BitVec 16} :
    (s.putBe16 place val).InFrame ↔ s.InFrame ∧ place + 2 ≤ RACFG_PKT_MAX_SIZE :=
  put16_inFrame

theorem putBe32_inFrame {val : BitVec 32} :
    (s.putBe32 place val).InFrame ↔ s.InFrame ∧ place + 4 ≤ RACFG_PKT_MAX_SIZE := by
  rw [putBe32, putBe16_inFrame, putBe16_inFrame]
  constructor
  · rintro ⟨⟨inside, _⟩, room⟩
    exact ⟨inside, room⟩
  · rintro ⟨inside, room⟩
    exact ⟨⟨inside, by omega⟩, room⟩

variable {ptr i more offset : Nat} {read : Nat → Except Errno (BitVec 32)} {after : HqaState}
  {cmd : HqaCmd} {drv : HqaDriver}

theorem readBlock_inFrame :
    (readBlock ptr read i more s).2.InFrame ↔ s.InFrame ∧ ∀ j, i ≤ j → j < i + more →
      (∀ k, i ≤ k → k ≤ j → ∃ res, read k = .ok res) → ptr + 4 * j + 4 ≤ RACFG_PKT_MAX_SIZE := by
  induction more generalizing i s with
  | zero => exact ⟨fun inside => ⟨inside, fun j _ _ => by omega⟩, fun inside => inside.1⟩
  | succ more ih =>
    rw [readBlock]
    split
    · rename_i e failed
      refine ⟨fun inside => ⟨inside, fun j from' _ good => ?_⟩, fun inside => inside.1⟩
      obtain ⟨res, is⟩ := good i le_rfl from'
      rw [failed] at is
      cases is
    · rename_i res is
      rw [ih, putBe32_inFrame]
      constructor
      · rintro ⟨⟨inside, here⟩, rest⟩
        refine ⟨inside, fun j from' below good => ?_⟩
        by_cases first : j = i
        · rw [first]
          exact here
        · exact rest j (by omega) (by omega) fun k above => good k (by omega)
      · rintro ⟨inside, all⟩
        refine ⟨⟨inside, all i le_rfl (by omega) fun k above upTo => ?_⟩,
          fun j above below good => ?_⟩
        · rw [le_antisymm upTo above]
          exact ⟨res, is⟩
        · refine all j (by omega) (by omega) fun k from' upTo => ?_
          by_cases first : k = i
          · rw [first]
            exact ⟨res, is⟩
          · exact good k (by omega) upTo

theorem readBlock_frame :
    (readBlock ptr read i more s).2.eeprom = s.eeprom ∧
      (readBlock ptr read i more s).2.regs = s.regs ∧
      (readBlock ptr read i more s).2.eepromLog = s.eepromLog ∧
      ∀ j e, i ≤ j → j < i + more → read j = .error e →
        ∃ e', (readBlock ptr read i more s).1 = some e' := by
  induction more generalizing i s with
  | zero => exact ⟨rfl, rfl, rfl, fun j _ _ _ => by omega⟩
  | succ more ih =>
    rw [readBlock]
    split
    · exact ⟨rfl, rfl, rfl, fun _ _ _ _ _ => ⟨_, rfl⟩⟩
    · rename_i res is
      obtain ⟨eeprom, regs, log, fails⟩ := ih (i := i + 1) (s := s.putBe32 (ptr + 4 * i) res)
      refine ⟨eeprom, regs, log, fun j e from' below failed => ?_⟩
      have later : i ≠ j := by
        rintro rfl
        rw [is] at failed
        cases failed
      exact fails j e (by omega) (by omega) failed

theorem writeBlock_inFrame {write : Nat → BitVec 32 → Option Errno}
    {written : Nat → BitVec 32 → RegWrite} (room : ptr + 4 * (i + more) ≤ RACFG_PKT_MAX_SIZE)
    (inside : s.InFrame) : (writeBlock ptr write written i more s).2.InFrame := by
  induction more generalizing i s with
  | zero => exact inside
  | succ more ih =>
    have here : (s.touch (ptr + 4 * i) 4).InFrame :=
      (touch_inFrame (by decide)).mpr ⟨inside, by omega⟩
    rw [writeBlock]
    split
    · exact here
    · exact ih (by omega) here

theorem writeBlock_frame {write : Nat → BitVec 32 → Option Errno}
    {written : Nat → BitVec 32 → RegWrite} :
    (writeBlock ptr write written i more s).2.eepromLog = s.eepromLog ∧
      s.regs <+: (writeBlock ptr write written i more s).2.regs := by
  induction more generalizing i s with
  | zero => exact ⟨rfl, List.prefix_rfl⟩
  | succ more ih =>
    rw [writeBlock]
    split
    · exact ⟨rfl, List.prefix_rfl⟩
    · rename_i val done
      let after := { s.touch (ptr + 4 * i) 4 with
        regs := s.regs ++ [written i (s.get32 (ptr + 4 * i))] }
      obtain ⟨log, regs⟩ := ih (i := i + 1) (s := after)
      exact ⟨log, (List.prefix_append s.regs _).trans regs⟩

theorem readEeprom_inFrame (room : HDR_DATA + 2 + 2 * (i + more) ≤ RACFG_PKT_MAX_SIZE)
    (inside : s.InFrame) : (readEeprom eepromSize offset i more s).InFrame := by
  induction more generalizing i s with
  | zero => exact inside
  | succ more ih =>
    rw [readEeprom]
    have here : (s.touch (HDR_DATA + 2 + 2 * i) 2).InFrame :=
      (touch_inFrame (by decide)).mpr ⟨inside, by omega⟩
    refine ih (by omega) ?_
    split
    · exact here
    · exact here

theorem log_inEeprom {at' : Nat} (log : after.eepromLog = s.eepromLog ++ [at', at' + 1]) :
    after.InEeprom eepromSize ↔ s.InEeprom eepromSize ∧ at' + 1 < eepromSize := by
  simp only [InEeprom, log, List.mem_append, List.mem_cons, List.not_mem_nil, or_false]
  constructor
  · intro inside
    exact ⟨fun other before => inside other (.inl before), inside (at' + 1) (.inr (.inr rfl))⟩
  · rintro ⟨inside, room⟩ other (before | rfl | rfl)
    · exact inside other before
    · omega
    · exact room

/-- A bulk read stays inside the EEPROM when none of its words begins at the last byte. -/
theorem readEeprom_inEeprom :
    (readEeprom eepromSize offset i more s).InEeprom eepromSize ↔ s.InEeprom eepromSize ∧
      ∀ j, i ≤ j → j < i + more → offset + 2 * j + 1 ≠ eepromSize := by
  induction more generalizing i s with
  | zero => exact ⟨fun inside => ⟨inside, fun j _ _ => by omega⟩, fun inside => inside.1⟩
  | succ more ih =>
    have rest : (∀ j, i ≤ j → j < i + (more + 1) → offset + 2 * j + 1 ≠ eepromSize) ↔
        offset + 2 * i + 1 ≠ eepromSize ∧
          ∀ j, i + 1 ≤ j → j < i + 1 + more → offset + 2 * j + 1 ≠ eepromSize := by
      constructor
      · exact fun all => ⟨all i le_rfl (by omega), fun j above below => all j (by omega) (by omega)⟩
      · rintro ⟨first, others⟩ j above below
        by_cases same : j = i
        · rw [same]
          exact first
        · exact others j (by omega) (by omega)
    rw [readEeprom, ih, rest]
    split
    · rename_i behind
      have first : offset + 2 * i + 1 ≠ eepromSize := by omega
      exact and_congr_right fun _ => ⟨fun others => ⟨first, others⟩, fun all => all.2⟩
    · rename_i before
      rw [log_inEeprom (s := s) rfl, and_assoc]
      refine and_congr_right fun _ => and_congr_left fun _ => ?_
      omega

theorem writeEeprom_inFrame :
    (writeEeprom offset i more s).InFrame ↔ s.InFrame ∧
      (more = 0 ∨ HDR_DATA + 4 + 2 * (i + more) ≤ RACFG_PKT_MAX_SIZE) := by
  induction more generalizing i s with
  | zero => exact ⟨fun inside => ⟨inside, .inl rfl⟩, fun inside => inside.1⟩
  | succ more ih =>
    have here : (s.touch (HDR_DATA + 4 + 2 * i) 2).InFrame ↔
        s.InFrame ∧ HDR_DATA + 4 + 2 * i + 2 ≤ RACFG_PKT_MAX_SIZE := touch_inFrame (by decide)
    rw [writeEeprom]
    refine ih.trans ((and_congr_left' here).trans ?_)
    rw [and_assoc]
    refine and_congr_right fun _ => ?_
    omega

theorem writeEeprom_inEeprom (room : offset + 2 * (i + more) ≤ eepromSize)
    (inside : s.InEeprom eepromSize) : (writeEeprom offset i more s).InEeprom eepromSize := by
  induction more generalizing i s with
  | zero => exact inside
  | succ more ih =>
    rw [writeEeprom]
    exact ih (by omega) ((log_inEeprom rfl).mpr ⟨inside, by omega⟩)

theorem readBlock_contained {before : HqaState} {num : Nat} (frame : before.InFrame)
    (inside : before.InEeprom eepromSize) (eeprom : before.eeprom = s.eeprom)
    (regs : before.regs = s.regs)
    (fits : s.Fits eepromSize cmd ↔ 2 + 4 * num ≤ RACFG_DATA_MAX_SIZE) :
    s.Contained eepromSize (some cmd)
        (retStatus (readBlock (HDR_DATA + 2) read 0 (min num (HDR_DATA_SIZE / 4)) before).1,
          (readBlock (HDR_DATA + 2) read 0 (min num (HDR_DATA_SIZE / 4)) before).2.put16
            HDR_DATA 0 0) ↔
      num ≤ 393 ∨ ∃ i e, i ≤ 393 ∧ read i = .error e := by
  have sizes : HDR_DATA = 26 ∧ RACFG_PKT_MAX_SIZE = 1600 ∧ RACFG_DATA_MAX_SIZE = 1574 ∧
      HDR_DATA_SIZE / 4 = 512 := by decide
  obtain ⟨data, packet, most, loop⟩ := sizes
  rw [most] at fits
  constructor
  · intro contained
    by_contra bad
    push Not at bad
    obtain ⟨many, good⟩ := bad
    have last := (readBlock_inFrame.mp (put16_inFrame.mp contained.frame).1).2 393 (by omega)
      (by omega) fun k _ upTo => ?_
    · omega
    · cases is : read k with
      | ok res => exact ⟨res, rfl⟩
      | error e => exact absurd is (good k e upTo)
  · intro harmless
    have stored :
        (readBlock (HDR_DATA + 2) read 0 (min num (HDR_DATA_SIZE / 4)) before).2.InFrame := by
      refine readBlock_inFrame.mpr ⟨frame, fun j _ below good => ?_⟩
      rcases harmless with few | ⟨i, e, upTo, failed⟩
      · omega
      · by_cases reached : i ≤ j
        · obtain ⟨res, is⟩ := good i (Nat.zero_le i) reached
          rw [failed] at is
          cases is
        · omega
    obtain ⟨sameEeprom, sameRegs, log, fails⟩ :
        (readBlock (HDR_DATA + 2) read 0 (min num (HDR_DATA_SIZE / 4)) before).2.eeprom =
          before.eeprom ∧ _ := readBlock_frame
    refine ⟨put16_inFrame.mpr ⟨stored, by omega⟩, ?_, fun c is large => ?_⟩
    · intro place logged
      rw [HqaState.put16, HqaState.touch, log] at logged
      exact inside place logged
    · cases is
      rw [fits] at large
      obtain ⟨i, e, upTo, failed⟩ := harmless.resolve_left (by omega)
      obtain ⟨e', status⟩ := fails i e (Nat.zero_le i) (by omega) failed
      dsimp only
      rw [status]
      exact ⟨retStatus_ne_zero e', sameEeprom.trans eeprom, sameRegs.trans regs⟩

theorem contained_of_fits {after : BitVec 16 × HqaState} (frame : after.2.InFrame)
    (inside : after.2.InEeprom eepromSize) (fits : s.Fits eepromSize cmd) :
    s.Contained eepromSize (some cmd) after where
  frame := frame
  eeprom := inside
  refused c is large := by
    cases is
    exact absurd fits large

theorem contained_of_refused (e : Errno) (frame : after.InFrame)
    (log : after.eepromLog = s.eepromLog) (inside : s.InEeprom eepromSize)
    (eeprom : after.eeprom = s.eeprom) (regs : after.regs = s.regs) :
    s.Contained eepromSize (some cmd) (retStatus (some e), after) where
  frame := frame
  eeprom place logged := inside place (log ▸ logged)
  refused _ _ _ := ⟨retStatus_ne_zero e, eeprom, regs⟩

theorem readMacBbpReg_contained (frame : s.InFrame) (inside : s.InEeprom eepromSize) :
    s.Contained eepromSize (some .readMacBbpReg)
        ((s.atenlHqaMacBbpReg drv .readMacBbpReg).map retStatus id) ↔
      s.Harmless drv eepromSize .readMacBbpReg := by
  have asked : (((s.touch HDR_DATA 4).touch (HDR_DATA + 4) 2)).InFrame :=
    (touch_inFrame (by decide)).mpr
      ⟨(touch_inFrame (by decide)).mpr ⟨frame, by decide⟩, by decide⟩
  rw [atenlHqaMacBbpReg, Harmless]
  dsimp only
  split
  · rename_i most
    have harmless : SHRT_MAX < (s.get16 (HDR_DATA + 4)).toNat := most
    exact iff_of_true (contained_of_refused EINVAL (put16_inFrame.mpr ⟨asked, by decide⟩) rfl
      inside rfl rfl) (.inr (.inl harmless))
  · rename_i most
    have other : ¬SHRT_MAX < (s.get16 (HDR_DATA + 4)).toNat := most
    rw [or_iff_right other]
    exact readBlock_contained (putBe16_inFrame.mpr ⟨asked, by decide⟩) inside rfl rfl Iff.rfl

theorem readRfReg_contained (frame : s.InFrame) (inside : s.InEeprom eepromSize) :
    s.Contained eepromSize (some .readRfReg)
        ((s.atenlHqaRfReg drv .readRfReg).map retStatus id) ↔
      s.Harmless drv eepromSize .readRfReg := by
  have asked : (s.touch HDR_DATA 12).InFrame :=
    (touch_inFrame (by decide)).mpr ⟨frame, by decide⟩
  exact readBlock_contained (putBe16_inFrame.mpr ⟨asked, by decide⟩) inside rfl rfl Iff.rfl

theorem writeRfReg_contained (frame : s.InFrame) (inside : s.InEeprom eepromSize) :
    s.Contained eepromSize (some .writeRfReg)
        ((s.atenlHqaRfReg drv .writeRfReg).map retStatus id) ↔
      s.Harmless drv eepromSize .writeRfReg := by
  have asked : (s.touch HDR_DATA 12).InFrame :=
    (touch_inFrame (by decide)).mpr ⟨frame, by decide⟩
  have sizes : HDR_DATA = 26 ∧ RACFG_PKT_MAX_SIZE = 1600 ∧ RACFG_DATA_MAX_SIZE = 1574 ∧
      HDR_DATA_SIZE / 4 = 512 := by decide
  obtain ⟨data, packet, most, loop⟩ := sizes
  let num := (s.get32 (HDR_DATA + 8)).toNat
  let at' := fun i => s.get32 (HDR_DATA + 4) + BitVec.ofNat 32 (i * 4)
  let write := fun i => drv.rfWrite i (s.get32 HDR_DATA) (at' i)
  let written := fun i => RegWrite.rf (s.get32 HDR_DATA) (at' i)
  have is : (s.atenlHqaRfReg drv .writeRfReg) = ((writeBlock (HDR_DATA + 12) write written 0
      (min num (HDR_DATA_SIZE / 4)) (s.touch HDR_DATA 12)).1, (writeBlock (HDR_DATA + 12) write
        written 0 (min num (HDR_DATA_SIZE / 4)) (s.touch HDR_DATA 12)).2.put16 HDR_DATA 0 0) := rfl
  have harmless : s.Harmless drv eepromSize .writeRfReg ↔
      num ≤ 390 ∨ ∃ e, write 0 (s.get32 (HDR_DATA + 12)) = some e := Iff.rfl
  rw [is, harmless]
  by_cases few : num ≤ 390
  · obtain ⟨log, _⟩ : (writeBlock (HDR_DATA + 12) write written 0 (min num (HDR_DATA_SIZE / 4))
        (s.touch HDR_DATA 12)).2.eepromLog = (s.touch HDR_DATA 12).eepromLog ∧ _ := writeBlock_frame
    have stored : (writeBlock (HDR_DATA + 12) write written 0 (min num (HDR_DATA_SIZE / 4))
        (s.touch HDR_DATA 12)).2.InFrame := writeBlock_inFrame (by omega) asked
    have fits : s.Fits eepromSize .writeRfReg := by
      have room : 12 + 4 * num ≤ RACFG_DATA_MAX_SIZE := by omega
      exact room
    refine iff_of_true (contained_of_fits (put16_inFrame.mpr ⟨stored, by omega⟩) ?_ fits)
      (.inl few)
    intro place logged
    exact inside place (log ▸ logged)
  · rw [or_iff_right few]
    obtain ⟨more, many⟩ : ∃ more, min num (HDR_DATA_SIZE / 4) = more + 1 :=
      ⟨min num (HDR_DATA_SIZE / 4) - 1, by omega⟩
    have large : ¬s.Fits eepromSize .writeRfReg := by
      intro fits
      have room : 12 + 4 * num ≤ RACFG_DATA_MAX_SIZE := fits
      omega
    rw [many, writeBlock]
    have first : write 0 ((s.touch HDR_DATA 12).get32 (HDR_DATA + 12 + 4 * 0)) =
      write 0 (s.get32 (HDR_DATA + 12)) := rfl
    split
    · rename_i e failed
      have fails := first.symm.trans failed
      have took : ((s.touch HDR_DATA 12).touch (HDR_DATA + 12 + 4 * 0) 4).InFrame :=
        (touch_inFrame (by decide)).mpr ⟨asked, by decide⟩
      exact iff_of_true (contained_of_refused e (put16_inFrame.mpr ⟨took, by decide⟩) rfl inside
        rfl rfl) ⟨e, fails⟩
    · rename_i done
      have wrote := first.symm.trans done
      refine iff_of_false (fun contained => ?_) (by rw [wrote]; rintro ⟨e, failed⟩; cases failed)
      obtain ⟨_, _, regs⟩ := contained.refused _ rfl large
      let after := { (s.touch HDR_DATA 12).touch (HDR_DATA + 12 + 4 * 0) 4 with
        regs := s.regs ++ [written 0 (s.get32 (HDR_DATA + 12))] }
      obtain ⟨_, grown⟩ :
          (writeBlock (HDR_DATA + 12) write written (0 + 1) more after).2.eepromLog =
              after.eepromLog ∧
            after.regs <+: (writeBlock (HDR_DATA + 12) write written (0 + 1) more after).2.regs :=
        writeBlock_frame
      have longer := grown.length_le
      have same : (writeBlock (HDR_DATA + 12) write written (0 + 1) more after).2.regs = s.regs :=
        regs
      rw [same] at longer
      simp [after] at longer

theorem readEepromBulk_contained (frame : s.InFrame) (inside : s.InEeprom eepromSize) :
    s.Contained eepromSize (some .readEepromBulk)
        ((s.atenlHqaEepromBulk eepromSize .readEepromBulk).map retStatus id) ↔
      s.Harmless drv eepromSize .readEepromBulk := by
  have sizes : HDR_DATA = 26 ∧ RACFG_PKT_MAX_SIZE = 1600 ∧ RACFG_DATA_MAX_SIZE = 1574 := by decide
  obtain ⟨data, packet, most⟩ := sizes
  let offset := (s.get16 HDR_DATA).toNat
  let len := (s.get16 (HDR_DATA + 2)).toNat
  have asked : (s.touch HDR_DATA 4).InFrame := (touch_inFrame (by decide)).mpr ⟨frame, by decide⟩
  have harmless : s.Harmless drv eepromSize .readEepromBulk ↔ eepromSize ≤ offset ∨ 1572 < len ∨
      ∀ i < words len, offset + 2 * i + 1 ≠ eepromSize := Iff.rfl
  rw [atenlHqaEepromBulk, harmless]
  dsimp only
  split
  · rename_i refused
    have refused : eepromSize ≤ offset ∨ RACFG_DATA_MAX_SIZE - 2 < len := refused
    exact iff_of_true (contained_of_refused EINVAL asked rfl inside rfl rfl) (by omega)
  · rename_i accepted
    have accepted : ¬(eepromSize ≤ offset ∨ RACFG_DATA_MAX_SIZE - 2 < len) := accepted
    push Not at accepted
    obtain ⟨within, room⟩ := accepted
    let before := (s.touch HDR_DATA 4).putBe16 HDR_LEN (BitVec.ofNat 16 (len + 2))
    have started : before.InFrame := putBe16_inFrame.mpr ⟨asked, by decide⟩
    have half : words len * 2 ≤ len + 1 := by
      rw [words]
      omega
    have stored : (readEeprom eepromSize offset 0 (words len) before).InFrame :=
      readEeprom_inFrame (by omega) started
    have ends : before.InEeprom eepromSize := inside
    have fits : s.Fits eepromSize .readEepromBulk :=
      ⟨within, by change 2 + len ≤ RACFG_DATA_MAX_SIZE; omega⟩
    rw [or_iff_right (by omega), or_iff_right (by omega)]
    constructor
    · intro contained i upTo
      exact (readEeprom_inEeprom.mp contained.eeprom).2 i (Nat.zero_le i)
        (by rw [Nat.zero_add]; exact upTo)
    · intro even
      exact contained_of_fits stored
        (readEeprom_inEeprom.mpr ⟨ends, fun j _ upTo =>
          even j (by rw [Nat.zero_add] at upTo; exact upTo)⟩) fits

theorem writeEepromBulk_contained (frame : s.InFrame) (inside : s.InEeprom eepromSize) :
    s.Contained eepromSize (some .writeEepromBulk)
        ((s.atenlHqaEepromBulk eepromSize .writeEepromBulk).map retStatus id) ↔
      s.Harmless drv eepromSize .writeEepromBulk := by
  have sizes : HDR_DATA = 26 ∧ RACFG_PKT_MAX_SIZE = 1600 ∧ RACFG_DATA_MAX_SIZE = 1574 := by decide
  obtain ⟨data, packet, most⟩ := sizes
  let offset := (s.get16 HDR_DATA).toNat
  let len := (s.get16 (HDR_DATA + 2)).toNat
  have asked : (s.touch HDR_DATA 4).InFrame := (touch_inFrame (by decide)).mpr ⟨frame, by decide⟩
  have harmless : s.Harmless drv eepromSize .writeEepromBulk ↔
      len ≤ 1570 ∨ 1572 < len ∨ eepromSize < offset + 1572 := Iff.rfl
  have half : words len = (len + 1) / 2 := rfl
  rw [harmless]
  unfold atenlHqaEepromBulk
  dsimp only
  split
  · rename_i refused
    have refused : eepromSize ≤ offset ∨ RACFG_DATA_MAX_SIZE - 2 < len := refused
    exact iff_of_true (contained_of_refused EINVAL asked rfl inside rfl rfl) (by omega)
  · rename_i accepted
    have accepted : ¬(eepromSize ≤ offset ∨ RACFG_DATA_MAX_SIZE - 2 < len) := accepted
    push Not at accepted
    obtain ⟨within, room⟩ := accepted
    split
    · rename_i behind
      have behind : eepromSize - offset < words len * 2 := behind
      exact iff_of_true (contained_of_refused EINVAL asked rfl inside rfl rfl) (by omega)
    · rename_i before
      have before : ¬eepromSize - offset < words len * 2 := before
      have written : (writeEeprom offset 0 (words len) (s.touch HDR_DATA 4)).InEeprom eepromSize :=
        writeEeprom_inEeprom (by omega) inside
      constructor
      · intro contained
        have room := (writeEeprom_inFrame.mp contained.frame).2
        have room : words len = 0 ∨ HDR_DATA + 4 + 2 * (0 + words len) ≤ RACFG_PKT_MAX_SIZE := room
        omega
      · intro short
        have fits : s.Fits eepromSize .writeEepromBulk := by
          change offset + 2 * words len ≤ eepromSize ∧ 4 + 2 * words len ≤ RACFG_DATA_MAX_SIZE
          omega
        have taken : (writeEeprom offset 0 (words len) (s.touch HDR_DATA 4)).InFrame :=
          writeEeprom_inFrame.mpr ⟨asked, by omega⟩
        exact contained_of_fits taken written fits

theorem runOps_contained {others : HqaMem → BitVec 16 × HqaMem} (cmd : HqaCmd) (frame : s.InFrame)
    (inside : s.InEeprom eepromSize) :
    s.Contained eepromSize (some cmd) (s.runOps others drv eepromSize cmd) ↔
      s.Harmless drv eepromSize cmd := by
  have asked : (s.touch HDR_DATA 4).InFrame := (touch_inFrame (by decide)).mpr ⟨frame, by decide⟩
  cases cmd with
  | readMacBbpReg => exact readMacBbpReg_contained frame inside
  | readRfReg => exact readRfReg_contained frame inside
  | writeRfReg => exact writeRfReg_contained frame inside
  | readEepromBulk => exact readEepromBulk_contained frame inside
  | writeEepromBulk => exact writeEepromBulk_contained frame inside
  | readMacBbpRegQa =>
    refine iff_of_true ?_ trivial
    rw [runOps, atenlHqaMacBbpReg]
    dsimp only
    split
    · exact contained_of_fits (put16_inFrame.mpr ⟨asked, by decide⟩) inside trivial
    · exact contained_of_fits (put16_inFrame.mpr
        ⟨putBe32_inFrame.mpr ⟨asked, by decide⟩, by decide⟩) inside trivial
  | writeMacBbpReg =>
    have valued : ((s.touch HDR_DATA 4).touch (HDR_DATA + 4) 4).InFrame :=
      (touch_inFrame (by decide)).mpr ⟨asked, by decide⟩
    refine iff_of_true ?_ trivial
    rw [runOps]
    unfold atenlHqaMacBbpReg
    dsimp only
    split
    · exact contained_of_fits (put16_inFrame.mpr ⟨valued, by decide⟩) inside trivial
    · exact contained_of_fits (put16_inFrame.mpr ⟨valued, by decide⟩) inside trivial
  | writeBufferDone => exact iff_of_true (contained_of_fits asked inside trivial) trivial
  | other => exact iff_of_true (contained_of_fits frame inside trivial) trivial

theorem finish_contained {cmd : Option HqaCmd} {status : BitVec 16} :
    s.Contained eepromSize cmd (after.finish status) ↔
      s.Contained eepromSize cmd (status, after) := by
  have frame : (after.finish status).2.InFrame ↔ after.InFrame := by
    rw [finish, putBe16_inFrame, touch_inFrame (by decide), putBe16_inFrame]
    constructor
    · exact fun inside => inside.1.1.1
    · exact fun inside => ⟨⟨⟨inside, by decide⟩, by decide⟩, by decide⟩
  exact ⟨fun contained => ⟨frame.mp contained.frame, contained.eeprom, contained.refused⟩,
    fun contained => ⟨frame.mpr contained.frame, contained.eeprom, contained.refused⟩⟩

theorem respLen_contained {cmd : Option HqaCmd} {status : BitVec 16} {respLen : Nat} :
    s.Contained eepromSize cmd (status, if respLen = 0 then after
      else after.putBe16 HDR_LEN (BitVec.ofNat 16 respLen)) ↔
        s.Contained eepromSize cmd (status, after) := by
  split
  · exact Iff.rfl
  · have frame {val : BitVec 16} : (after.putBe16 HDR_LEN val).InFrame ↔ after.InFrame := by
      rw [putBe16_inFrame]
      exact and_iff_left (by decide)
    exact ⟨fun contained => ⟨frame.mp contained.frame, contained.eeprom, contained.refused⟩,
      fun contained => ⟨frame.mpr contained.frame, contained.eeprom, contained.refused⟩⟩

theorem Contained.congr {before : HqaState} {cmd : Option HqaCmd} {after : BitVec 16 × HqaState}
    (mem : before.toHqaMem = s.toHqaMem) (regs : before.regs = s.regs) :
    before.Contained eepromSize cmd after ↔ s.Contained eepromSize cmd after := by
  obtain ⟨beforeMem, beforeRegs, _, _⟩ := before
  obtain ⟨sMem, sRegs, _, _⟩ := s
  obtain rfl : beforeMem = sMem := mem
  obtain rfl : beforeRegs = sRegs := regs
  exact ⟨fun contained => ⟨contained.frame, contained.eeprom, contained.refused⟩,
    fun contained => ⟨contained.frame, contained.eeprom, contained.refused⟩⟩

theorem getOps_inFrame (frame : s.InFrame) : s.atenlGetOps.2.InFrame := by
  have asked : (s.touch CMD_ID 2).InFrame := (touch_inFrame (by decide)).mpr ⟨frame, by decide⟩
  rw [atenlGetOps]
  dsimp only
  split
  · exact (touch_inFrame (by decide)).mpr ⟨asked, by decide⟩
  · exact asked

theorem getOps_same : s.atenlGetOps.2.toHqaMem = s.toHqaMem ∧ s.atenlGetOps.2.regs = s.regs ∧
    s.atenlGetOps.2.eepromLog = s.eepromLog := by
  rw [atenlGetOps]
  dsimp only
  split
  · exact ⟨rfl, rfl, rfl⟩
  · exact ⟨rfl, rfl, rfl⟩

theorem getOps_touch : (s.touch place len).atenlGetOps.1 = s.atenlGetOps.1 := by
  have same : (s.touch place len).get16 CMD_ID = s.get16 CMD_ID := rfl
  rw [atenlGetOps, atenlGetOps]
  dsimp only
  rw [same]
  split
  · rfl
  · rfl

/-- Whatever the frame, the results of the accesses and the other handlers: the handler reads and
writes nothing outside the buffer and the EEPROM, and refuses what does not fit, exactly when the
command is harmless. -/
theorem hqa_contained_iff (s : HqaState) (others : HqaMem → BitVec 16 × HqaMem)
    (drv : HqaDriver) (eepromSize : Nat) (frame : s.InFrame) (inside : s.InEeprom eepromSize) :
    s.Contained eepromSize s.command (s.atenlHqaHandler others drv eepromSize) ↔
      ∀ cmd, s.command = some cmd → s.Harmless drv eepromSize cmd := by
  have asked : (s.touch CMD_ID 2).InFrame := (touch_inFrame (by decide)).mpr ⟨frame, by decide⟩
  let found := (s.touch CMD_ID 2).atenlGetOps
  have foundFrame : found.2.InFrame := getOps_inFrame asked
  obtain ⟨mem, regs, log⟩ : found.2.toHqaMem = s.toHqaMem ∧ found.2.regs = s.regs ∧
    found.2.eepromLog = s.eepromLog := getOps_same
  have command : s.command = found.1.bind fun ops => if ops.skip then none else ops.ops := by
    rw [HqaState.command, ← getOps_touch]
  have ends : found.2.InEeprom eepromSize := fun place logged => inside place (log ▸ logged)
  have idle {status : BitVec 16} {after : HqaState} (same : after.InFrame)
      (within : after.InEeprom eepromSize) : s.Contained eepromSize none (status, after) :=
    ⟨same, within, nofun⟩
  have handler : s.atenlHqaHandler others drv eepromSize =
    match found.1 with
    | none => found.2.finish 0
    | some ops =>
      if ops.skip then found.2.finish 0
      else
        let ran := match ops.ops with
          | some cmd => (found.2.touch HDR_LEN 2).runOps others drv eepromSize cmd
          | none => (0, found.2.touch HDR_LEN 2)
        let after :=
          if ops.respLen = 0 then ran.2 else ran.2.putBe16 HDR_LEN (BitVec.ofNat 16 ops.respLen)
        after.finish ran.1 := rfl
  rw [handler, command]
  cases is : found.1 with
  | none => exact iff_of_true (finish_contained.mpr (idle foundFrame ends)) nofun
  | some ops =>
    dsimp only [Option.bind_some]
    by_cases skip : ops.skip = true
    · rw [if_pos skip, if_pos skip]
      exact iff_of_true (finish_contained.mpr (idle foundFrame ends)) nofun
    · have measured : (found.2.touch HDR_LEN 2).InFrame :=
        (touch_inFrame (by decide)).mpr ⟨foundFrame, by decide⟩
      rw [if_neg skip, if_neg skip, finish_contained, respLen_contained]
      cases ops.ops with
      | none => exact iff_of_true (idle measured ends) nofun
      | some cmd =>
        have harmless : (found.2.touch HDR_LEN 2).Harmless drv eepromSize cmd ↔
            s.Harmless drv eepromSize cmd := by
          have same : (found.2.touch HDR_LEN 2).toHqaMem = s.toHqaMem := mem
          cases cmd <;> simp only [Harmless, get16, get32, same]
        have moved {after : BitVec 16 × HqaState} :
            (found.2.touch HDR_LEN 2).Contained eepromSize (some cmd) after ↔
              s.Contained eepromSize (some cmd) after := Contained.congr mem regs
        refine moved.symm.trans ((runOps_contained cmd measured ends).trans (harmless.trans ?_))
        exact ⟨fun safe c same => by cases same; exact safe, fun all => all cmd rfl⟩

end Bounds

/-! ## Two frames -/

def frameOf (cmdId : BitVec 16) (data : List (BitVec 8)) : HqaState where
  buf place := (List.replicate CMD_ID 0 ++ [cmdId.extractLsb' 8 8, cmdId.setWidth 8, 0, 0, 0, 0] ++
    data).getD place 0
  eeprom _ := 0xff
  regs := []
  frameLog := []
  eepromLog := []

theorem frameOf_inFrame {cmdId : BitVec 16} {data : List (BitVec 8)} :
    (frameOf cmdId data).InFrame :=
  fun _ logged => (List.not_mem_nil logged).elim

theorem frameOf_inEeprom {cmdId : BitVec 16} {data : List (BitVec 8)} {eepromSize : Nat} :
    (frameOf cmdId data).InEeprom eepromSize :=
  fun _ logged => (List.not_mem_nil logged).elim

def quietDriver : HqaDriver where
  regRead _ _ := .ok 0
  regWrite _ _ _ := none
  rfRead _ _ _ := .ok 0
  rfWrite _ _ _ _ := none

theorem hqa_contained_bulk :
    (frameOf 0x1307 [0, 2, 0, 4]).Contained 16 (some .readEepromBulk)
      ((frameOf 0x1307 [0, 2, 0, 4]).atenlHqaHandler (fun mem => (0, mem)) quietDriver 16) := by
  have command : (frameOf 0x1307 [0, 2, 0, 4]).command = some .readEepromBulk := by decide +kernel
  rw [← command]
  refine (hqa_contained_iff _ _ _ 16 frameOf_inFrame frameOf_inEeprom).mpr fun cmd is => ?_
  cases command.symm.trans is
  exact .inr (.inr (by decide +kernel))

/-- A bulk read of two bytes from the last byte of an EEPROM takes the byte behind it. -/
theorem bulk_read_overruns :
    ¬∀ (s : HqaState) (others : HqaMem → BitVec 16 × HqaMem) (drv : HqaDriver) (eepromSize : Nat),
      s.InFrame → s.InEeprom eepromSize →
        s.Contained eepromSize s.command (s.atenlHqaHandler others drv eepromSize) := by
  intro always
  have inside := (always (frameOf 0x1307 [15, 255, 0, 2]) (fun mem => (0, mem)) quietDriver 4096
    frameOf_inFrame frameOf_inEeprom).eeprom
  have overrun : 4096 ∈ ((frameOf 0x1307 [15, 255, 0, 2]).atenlHqaHandler
      (fun mem => (0, mem)) quietDriver 4096).2.eepromLog := by
    decide +kernel
  exact absurd (inside 4096 overrun) (by decide)

end HqaState

end MetaFilogic.Atenl
