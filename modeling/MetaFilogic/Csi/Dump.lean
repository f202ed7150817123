import MetaFilogic.Library.Json

/-!
# Dumping channel state information

`mt76_csi_dump` asks the driver for packets, its callback stores what comes into an array, and the
records are then printed as JSON through a buffer of 6000 bytes.
-/

namespace MetaFilogic.Csi

open Json

/-! ## A netlink message -/

structure Reply where
  vendorData : Bool
  ctrlData : Bool
  ver : Bool
  ts : Option (BitVec 32)
  rssi : Option (BitVec 8)
  snr : Option (BitVec 8)
  bw : Option (BitVec 8)
  chIdx : Option (BitVec 8)
  ta : Option (List (BitVec 8))
  num : Option (BitVec 32)
  dataI : Option (List (BitVec 16))
  dataQ : Option (List (BitVec 16))
  info : Option (BitVec 32)
  mode : Option (BitVec 8)
  chainInfo : Option (BitVec 32)
  txAnt : Option (BitVec 16)
  rxAnt : Option (BitVec 16)

structure Attrs where
  ts : BitVec 32
  rssi : BitVec 8
  snr : BitVec 8
  bw : BitVec 8
  chIdx : BitVec 8
  ta : List (BitVec 8)
  dataI : List (BitVec 16)
  dataQ : List (BitVec 16)
  info : BitVec 32
  mode : BitVec 8
  chainInfo : BitVec 32

structure Unasked where
  num : BitVec 32
  txAnt : BitVec 16
  rxAnt : BitVec 16

def Reply.attrs (r : Reply) : Option Attrs := do
  guard (r.vendorData ∧ r.ctrlData ∧ r.ver)
  return ⟨← r.ts, ← r.rssi, ← r.snr, ← r.bw, ← r.chIdx, ← r.ta, ← r.dataI, ← r.dataQ, ← r.info,
    ← r.mode, ← r.chainInfo⟩

def Reply.unasked (r : Reply) : Option Unasked := return ⟨← r.num, ← r.txAnt, ← r.rxAnt⟩

/-! ## The callback -/

/-- `struct csi_data`; the lists are the cells that have been written, the others are 0. -/
structure CsiData where
  dataNum : BitVec 16
  dataI : List (BitVec 16)
  dataQ : List (BitVec 16)
  rssi : BitVec 8
  snr : BitVec 8
  ts : BitVec 32
  dataBw : BitVec 8
  priChIdx : BitVec 8
  ta : List (BitVec 8)
  extInfo : BitVec 32
  rxMode : BitVec 8
  chainInfo : BitVec 32
  txIdx : BitVec 16
  rxIdx : BitVec 16

inductive Fault where
  /-- an access outside an array or a buffer -/
  | outside
  /-- an attribute that is not there is read -/
  | null

def storeSamples (dataNum : Nat) (cells : List (BitVec 16)) :
    List (BitVec 16) → Except Fault (List (BitVec 16))
  | [] => .ok cells
  | cur :: rest =>
    if cells.length < dataNum then
      if cells.length < 512 then storeSamples dataNum (cells ++ [cur]) rest else .error .outside
    else storeSamples dataNum cells rest

/-- `mt76_csi_dump_cb`; `csi_idx` is the number of records. -/
def dumpCb (pktNum : Nat) (csi : List CsiData) (r : Reply) : Except Fault (List CsiData) :=
  match r.attrs with
  | none => .ok csi
  | some tb =>
    if pktNum ≤ csi.length then .error .outside
    else
      match r.unasked with
      | none => .error .null
      | some more => do
        let dataNum := more.num.setWidth 16
        let dataI ← storeSamples dataNum.toNat [] tb.dataI
        let dataQ ← storeSamples dataNum.toNat [] tb.dataQ
        return csi ++ [⟨dataNum, dataI, dataQ, tb.rssi, tb.snr, tb.ts, tb.bw, tb.chIdx,
          tb.ta.take 6, tb.info, tb.mode, tb.chainInfo, more.txAnt, more.rxAnt⟩]

/-! ## Printing -/

def MAX_BUF_SIZE : Nat := 6000

/-- The calls of `snprintf`, each with the whole size as its limit. -/
def printAll (buf : List Char) : List (List Char) → Except Fault (List Char)
  | [] => .ok buf
  | piece :: pieces =>
    if buf.length + piece.length + 1 ≤ MAX_BUF_SIZE then printAll (buf ++ piece) pieces
    else .error .outside

def hexText (b : BitVec 8) : List Char :=
  [Nat.digitChar (b.toNat / 16), Nat.digitChar (b.toNat % 16)]

def samplePieces (dataNum : Nat) (cells : List (BitVec 16)) : List (List Char) :=
  (List.range dataNum).flatMap fun j =>
    intText (cells.getD j 0#16).toInt :: if j ≠ dataNum - 1 then [[',']] else []

def recordPieces (last : Bool) (c : CsiData) : List (List Char) :=
  [['['],
    intText c.ts.toInt ++ [','],
    '"' :: ((List.range 6).flatMap fun i => hexText (c.ta.getD i 0#8)) ++ ['"', ','],
    intText c.rssi.toInt ++ [','],
    intText c.snr.toNat ++ [','],
    intText c.dataBw.toNat ++ [','],
    intText c.priChIdx.toNat ++ [','],
    intText c.rxMode.toNat ++ [','],
    intText c.txIdx.toNat ++ [','],
    intText c.rxIdx.toNat ++ [','],
    intText c.chainInfo.toInt ++ [','],
    intText c.extInfo.toInt ++ [','],
    ['[']] ++ samplePieces c.dataNum.toNat c.dataI ++ [[']', ','], ['[']] ++
    samplePieces c.dataNum.toNat c.dataQ ++ [[']'], [']']] ++ if last then [] else [[',']]

/-- The loop over the records; the samples of one are read up to `data_num`. -/
def printRecords : List CsiData → Except Fault (List Char)
  | [] => .ok []
  | c :: rest => do
    if 512 < c.dataNum.toNat then throw .outside
    let buf ← printAll [] (recordPieces rest.isEmpty c)
    let others ← printRecords rest
    return buf ++ others

def csiToJson (csi : List CsiData) : Except Fault (List Char) :=
  return ['['] ++ (← printRecords csi) ++ [']']

/-! ## The command -/

/-- A request: whether there is a connection for it, what comes, and what `unl_genl_request`
returns. -/
structure Request where
  connects : Bool
  replies : List Reply
  ret : Int

inductive Outcome where
  | notConnected
  | done (ret : Int) (text : List Char)

def dumpLoop (pktNum : Nat) : List Request → List CsiData → Int → Except Fault Outcome
  | [], csi, ret => return .done ret (← csiToJson csi)
  | request :: requests, csi, _ =>
    if request.connects then do
      dumpLoop pktNum requests (← request.replies.foldlM (dumpCb pktNum) csi) request.ret
    else return .notConnected

def csiDump (pktNum : Nat) (requests : Nat → Request) : Except Fault Outcome :=
  dumpLoop pktNum ((List.range (pktNum / 3)).map requests) [] 0

/-! ## What it is for -/

structure Record where
  ts : Int
  ta : List Char
  rssi : Int
  snr : Int
  bw : Int
  chIdx : Int
  txIdx : Int
  rxIdx : Int
  i : List Int
  q : List Int

def Reply.record (tb : Attrs) (more : Unasked) : Record where
  ts := tb.ts.toNat
  ta := tb.ta.flatMap hexText
  rssi := tb.rssi.toInt
  snr := tb.snr.toNat
  bw := tb.bw.toNat
  chIdx := tb.chIdx.toNat
  txIdx := more.txAnt.toNat
  rxIdx := more.rxAnt.toNat
  i := tb.dataI.map BitVec.toInt
  q := tb.dataQ.map BitVec.toInt

def received (replies : List Reply) : List Record :=
  replies.filterMap fun r => return Reply.record (← r.attrs) (← r.unasked)

def asNum : Value → Option Int
  | .num n => some n
  | _ => none

def decode : Value → Option Record
  | .arr [.num ts, .str ta, .num rssi, .num snr, .num bw, .num chIdx, .num _, .num txIdx,
      .num rxIdx, .num _, .num _, .arr i, .arr q] =>
    return ⟨ts, ta.chars, rssi, snr, bw, chIdx, txIdx, rxIdx, ← i.mapM asNum, ← q.mapM asNum⟩
  | _ => none

def allReplies (pktNum : Nat) (requests : Nat → Request) : List Reply :=
  (List.range (pktNum / 3)).flatMap fun i => (requests i).replies

/-- Nothing is accessed outside; and when the command succeeds, the text is one array that decodes
to the records. -/
def Faithful (pktNum : Nat) (requests : Nat → Request) : Prop :=
  match csiDump pktNum requests with
  | .error .outside => False
  | .error .null => True
  | .ok .notConnected => True
  | .ok (.done ret text) => ret = 0 → ∃ items, parse text = some (.arr items) ∧
      items.map decode = (received (allReplies pktNum requests)).map some

end MetaFilogic.Csi
