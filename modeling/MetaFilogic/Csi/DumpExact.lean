import MetaFilogic.Csi.Dump
import Mathlib.Data.List.GetD
import Mathlib.Data.List.TakeWhile
import Mathlib.Algebra.Ring.Nat

/-!
# When the dump is faithful

The callback trusts the number of messages and of samples, and the printer the length of its text.
Within these bounds the text is a JSON value that shows what has been stored.
-/

namespace MetaFilogic.Csi

open Json

/-! ## What is stored -/

def complete (replies : List Reply) : List (Attrs × Option Unasked) :=
  replies.filterMap fun r => r.attrs.map fun tb => (tb, r.unasked)

def Unasked.dataNum (more : Unasked) : Nat := (more.num.setWidth 16).toNat

def stored (tb : Attrs) (more : Unasked) : CsiData where
  dataNum := more.num.setWidth 16
  dataI := tb.dataI.take more.dataNum
  dataQ := tb.dataQ.take more.dataNum
  rssi := tb.rssi
  snr := tb.snr
  ts := tb.ts
  dataBw := tb.bw
  priChIdx := tb.chIdx
  ta := tb.ta.take 6
  extInfo := tb.info
  rxMode := tb.mode
  chainInfo := tb.chainInfo
  txIdx := more.txAnt
  rxIdx := more.rxAnt

def records (messages : List (Attrs × Option Unasked)) : List CsiData :=
  messages.filterMap fun m => m.2.map (stored m.1)

def SamplesFit (tb : Attrs) (more : Unasked) : Prop :=
  min more.dataNum tb.dataI.length ≤ 512 ∧ min more.dataNum tb.dataQ.length ≤ 512

/-- With so many records before, the messages fit, up to the first without an attribute that is read
without asking. -/
def Bounded (pktNum stored : Nat) (messages : List (Attrs × Option Unasked)) : Prop :=
  ∀ before tb asked after, messages = before ++ (tb, asked) :: after →
    (∀ m ∈ before, m.2.isSome) →
      stored + before.length < pktNum ∧ ∀ more, asked = some more → SamplesFit tb more

theorem bounded_cons {pktNum n : Nat} {tb : Attrs} {asked : Option Unasked}
    {rest : List (Attrs × Option Unasked)} : Bounded pktNum n ((tb, asked) :: rest) ↔
      n < pktNum ∧
        ∀ more, asked = some more → SamplesFit tb more ∧ Bounded pktNum (n + 1) rest := by
  constructor
  · intro bounded
    obtain ⟨room, fits⟩ := bounded [] tb asked rest rfl (fun _ none => (List.not_mem_nil none).elim)
    refine ⟨room, fun more same => ⟨fits more same, fun before tb' asked' after split all => ?_⟩⟩
    subst same
    have later := bounded ((tb, some more) :: before) tb' asked' after (by rw [split]; rfl)
      (List.forall_mem_cons.2 ⟨rfl, all⟩)
    rw [List.length_cons] at later
    exact ⟨by omega, later.2⟩
  · rintro ⟨room, fits⟩ before tb' asked' after split all
    cases before with
    | nil =>
      obtain ⟨same, -⟩ := List.cons.inj split
      obtain ⟨rfl, rfl⟩ := Prod.mk.inj same
      exact ⟨room, fun more same => (fits more same).1⟩
    | cons first before =>
      obtain ⟨rfl, rfl⟩ := List.cons.inj split
      obtain ⟨here, others⟩ := List.forall_mem_cons.1 all
      obtain ⟨more, same⟩ := Option.isSome_iff_exists.1 here
      obtain ⟨room', fits'⟩ := (fits more same).2 before tb' asked' after rfl others
      rw [List.length_cons]
      exact ⟨by omega, fits'⟩

theorem storeSamples_eq (dataNum : Nat) (cells samples : List (BitVec 16))
    (within : cells.length ≤ dataNum) (room : cells.length ≤ 512) :
    storeSamples dataNum cells samples =
      if min dataNum (cells.length + samples.length) ≤ 512 then
        .ok (cells ++ samples.take (dataNum - cells.length)) else .error .outside := by
  induction samples generalizing cells with
  | nil => rw [storeSamples, if_pos (by simp; omega), List.take_nil, List.append_nil]
  | cons cur rest ih =>
    rw [storeSamples]
    by_cases more : cells.length < dataNum
    · rw [if_pos more]
      by_cases fits : cells.length < 512
      · rw [if_pos fits, ih _ (by simp; omega) (by simp; omega),
          show dataNum - cells.length = dataNum - (cells ++ [cur]).length + 1 by simp; omega,
          List.take_succ_cons, List.append_assoc, List.length_append, List.length_singleton,
          List.length_cons, Nat.add_assoc, Nat.add_comm 1]
        rfl
      · rw [if_neg fits, if_neg (by rw [List.length_cons]; omega)]
    · rw [if_neg more, ih _ within room, show dataNum - cells.length = 0 by omega,
        if_pos (by omega), if_pos (by omega)]
      rfl

theorem foldlM_dumpCb (pktNum : Nat) (replies : List Reply) (csi : List CsiData) :
    match replies.foldlM (dumpCb pktNum) csi with
    | .error .outside => ¬Bounded pktNum csi.length (complete replies)
    | .error .null => Bounded pktNum csi.length (complete replies) ∧
        ¬∀ m ∈ complete replies, m.2.isSome
    | .ok out => Bounded pktNum csi.length (complete replies) ∧
        (∀ m ∈ complete replies, m.2.isSome) ∧ out = csi ++ records (complete replies) := by
  induction replies generalizing csi with
  | nil =>
    refine ⟨fun before tb asked after split => ?_, fun m none => (List.not_mem_nil none).elim,
      (List.append_nil csi).symm⟩
    cases before <;> exact nomatch split
  | cons r replies ih =>
    rw [List.foldlM_cons, dumpCb]
    cases asked : r.attrs with
    | none =>
      have same : complete (r :: replies) = complete replies := by simp [complete, asked]
      rw [same]
      exact ih csi
    | some tb =>
      have same : complete (r :: replies) = (tb, r.unasked) :: complete replies := by
        simp [complete, asked]
      rw [same]
      simp only [bounded_cons, List.forall_mem_cons]
      by_cases full : pktNum ≤ csi.length
      · rw [if_pos full]
        exact fun bounded => absurd bounded.1 (Nat.not_lt.2 full)
      · rw [if_neg full]
        have room := Nat.lt_of_not_le full
        cases read : r.unasked with
        | none => exact ⟨⟨room, fun more none => nomatch none⟩, fun all => nomatch all.1⟩
        | some more =>
          have store (samples : List (BitVec 16)) :=
            storeSamples_eq more.dataNum [] samples (Nat.zero_le _) (Nat.zero_le _)
          simp only [List.length_nil, Nat.zero_add, Nat.sub_zero, List.nil_append] at store
          dsimp only
          rw [← Unasked.dataNum, store, store]
          by_cases fitsI : min more.dataNum tb.dataI.length ≤ 512
          · by_cases fitsQ : min more.dataNum tb.dataQ.length ≤ 512
            · rw [if_pos fitsI, if_pos fitsQ]
              have rest := ih (csi ++ [stored tb more])
              rw [List.length_append, List.length_singleton] at rest
              have shown : records ((tb, some more) :: complete replies) =
                  stored tb more :: records (complete replies) := rfl
              simp only [Option.some.injEq, forall_eq', room, true_and, Option.isSome_some, shown,
                show SamplesFit tb more from ⟨fitsI, fitsQ⟩]
              rw [List.append_assoc] at rest
              exact rest
            · rw [if_pos fitsI, if_neg fitsQ]
              exact fun bounded => fitsQ (bounded.2 more rfl).1.2
          · rw [if_neg fitsI]
            exact fun bounded => fitsI (bounded.2 more rfl).1.1

/-! ## What is printed -/

theorem printAll_eq (buf piece : List Char) (pieces : List (List Char)) :
    printAll buf (piece :: pieces) =
      if buf.length + (piece :: pieces).flatten.length < 6000 then
        .ok (buf ++ (piece :: pieces).flatten) else .error .outside := by
  induction pieces generalizing buf piece with
  | nil =>
    simp only [printAll, List.flatten_cons, List.flatten_nil, List.append_nil, MAX_BUF_SIZE]
    rfl
  | cons next pieces ih =>
    rw [printAll]
    split
    · rw [ih, List.append_assoc, List.length_append, Nat.add_assoc, ← List.length_append]
      rfl
    · rename_i beyond
      refine (if_neg ?_).symm
      rw [List.flatten_cons, List.length_append]
      unfold MAX_BUF_SIZE at beyond
      omega

def printed (dataNum : Nat) (cells : List (BitVec 16)) : List Value :=
  (List.range dataNum).map fun j => .num (cells.getD j 0#16).toInt

theorem hexText_plain (b : BitVec 8) : (hexText b).all isPlain = true := by
  revert b
  decide +kernel

def CsiData.json (c : CsiData) : Value :=
  .arr [.num c.ts.toInt,
    .str ⟨(List.range 6).flatMap fun i => hexText (c.ta.getD i 0#8), by
      simp only [List.all_flatMap, hexText_plain]
      rfl⟩,
    .num c.rssi.toInt, .num c.snr.toNat, .num c.dataBw.toNat, .num c.priChIdx.toNat,
    .num c.rxMode.toNat, .num c.txIdx.toNat, .num c.rxIdx.toNat, .num c.chainInfo.toInt,
    .num c.extInfo.toInt, .arr (printed c.dataNum.toNat c.dataI),
    .arr (printed c.dataNum.toNat c.dataQ)]

theorem samplePieces_text (dataNum : Nat) (cells : List (BitVec 16)) :
    '[' :: ((samplePieces dataNum cells).flatten ++ [']']) =
      (Value.arr (printed dataNum cells)).text := by
  have from' (count start : Nat) (all : start + 1 + count = dataNum) :
      ((List.range' start (count + 1)).flatMap fun j => intText (cells.getD j 0#16).toInt ::
          if j ≠ dataNum - 1 then [[',']] else []).flatten ++ [']'] =
        intText (cells.getD start 0#16).toInt ++ tailText
          ((List.range' (start + 1) count).map fun j => .num (cells.getD j 0#16).toInt) := by
    induction count generalizing start with
    | zero =>
      have last : start = dataNum - 1 := by omega
      simp [last, tailText]
    | succ count ih =>
      have inside : start ≠ dataNum - 1 := by omega
      rw [List.range'_succ, List.flatMap_cons, List.flatten_append, List.append_assoc,
        ih (start + 1) (by omega), if_pos inside, List.range'_succ (s := start + 1), List.map_cons,
        tailText, Value.text]
      simp
  rw [samplePieces, printed]
  cases dataNum with
  | zero => rfl
  | succ count =>
    have whole := from' count 0 (by omega)
    rw [List.range_eq_range', whole, List.range'_succ, List.map_cons, Value.text, Value.text]

theorem recordPieces_text (last : Bool) (c : CsiData) :
    (recordPieces last c).flatten = c.json.text ++ if last then [] else [','] := by
  have samples (cells : List (BitVec 16)) (rest : List Char) :
      '[' :: ((samplePieces c.dataNum.toNat cells).flatten ++ ']' :: rest) =
        (Value.arr (printed c.dataNum.toNat cells)).text ++ rest := by
    rw [← samplePieces_text]
    simp
  simp only [recordPieces, CsiData.json, List.flatten_append, List.flatten_cons, List.nil_append,
    List.cons_append, List.append_assoc, samples]
  rw [Value.text]
  simp only [tailText, Value.text, List.cons_append, List.append_assoc, List.nil_append]
  cases last <;> simp

def TextFits (csi : List CsiData) : Prop :=
  ∀ before c after, csi = before ++ c :: after → c.dataNum.toNat ≤ 512 ∧
    c.json.text.length + (if after = [] then 0 else 1) < 6000

theorem textFits_cons {c : CsiData} {rest : List CsiData} : TextFits (c :: rest) ↔
    (c.dataNum.toNat ≤ 512 ∧ c.json.text.length + (if rest = [] then 0 else 1) < 6000) ∧
      TextFits rest := by
  constructor
  · intro fits
    exact ⟨fits [] c rest rfl, fun before d after split =>
      fits (c :: before) d after (by rw [split]; rfl)⟩
  · rintro ⟨here, fits⟩ before d after split
    cases before with
    | nil =>
      obtain ⟨rfl, rfl⟩ := List.cons.inj split
      exact here
    | cons first before =>
      obtain ⟨-, rfl⟩ := List.cons.inj split
      exact fits before d after rfl

theorem printRecords_spec (csi : List CsiData) :
    match printRecords csi with
    | .error fault => fault = .outside ∧ ¬TextFits csi
    | .ok text => TextFits csi ∧
        '[' :: (text ++ [']']) = (Value.arr (csi.map CsiData.json)).text := by
  induction csi with
  | nil =>
    refine ⟨fun before c after split => ?_, rfl⟩
    cases before <;> exact nomatch split
  | cons c rest ih =>
    rw [printRecords, textFits_cons]
    by_cases many : 512 < c.dataNum.toNat
    · rw [if_pos many]
      exact ⟨rfl, fun fits => absurd fits.1.1 (Nat.not_le.2 many)⟩
    · have few := Nat.not_lt.1 many
      have text := recordPieces_text rest.isEmpty c
      have line : printAll [] (recordPieces rest.isEmpty c) =
          if c.json.text.length + (if rest = [] then 0 else 1) < 6000 then
            .ok (recordPieces rest.isEmpty c).flatten else .error .outside := by
        refine (printAll_eq [] _ _).trans ?_
        change (if 0 + (recordPieces rest.isEmpty c).flatten.length < 6000 then
          Except.ok ([] ++ (recordPieces rest.isEmpty c).flatten) else _) = _
        rw [text, Nat.zero_add, List.nil_append, List.length_append]
        cases rest <;> rfl
      rw [if_neg many, line]
      by_cases short : c.json.text.length + (if rest = [] then 0 else 1) < 6000
      · rw [if_pos short]
        cases others : printRecords rest with
        | error fault =>
          rw [others] at ih
          exact ⟨ih.1, fun fits => ih.2 fits.2⟩
        | ok more =>
          rw [others] at ih
          refine ⟨⟨⟨few, short⟩, ih.1⟩, ?_⟩
          have shown := ih.2
          rw [text, List.map_cons, Value.text]
          cases rest with
          | nil =>
            obtain rfl : more = [] := by
              have := congrArg List.length shown
              simpa [Value.text] using this
            simp [tailText]
          | cons d rest =>
            rw [List.map_cons, Value.text] at shown
            have inner := (List.cons.inj shown).2
            simp [tailText, ← inner]
      · rw [if_neg short]
        exact ⟨rfl, fun fits => short fits.1.2⟩

theorem csiToJson_spec (csi : List CsiData) :
    match csiToJson csi with
    | .error fault => fault = .outside ∧ ¬TextFits csi
    | .ok text => TextFits csi ∧ parse text = some (.arr (csi.map CsiData.json)) := by
  have spec := printRecords_spec csi
  rw [csiToJson]
  cases shown : printRecords csi with
  | error fault =>
    rw [shown] at spec
    exact spec
  | ok text =>
    rw [shown] at spec
    exact ⟨spec.1, (congrArg parse spec.2).trans (parse_text _)⟩

/-! ## What it says -/

def Exact (tb : Attrs) (more : Unasked) : Prop :=
  tb.ts.toNat < 2 ^ 31 ∧ tb.ta.length = 6 ∧ tb.dataI.length = more.dataNum ∧
    tb.dataQ.length = more.dataNum

theorem mapM_asNum (numbers : List Int) : (numbers.map Value.num).mapM asNum = some numbers := by
  induction numbers with
  | nil => rfl
  | cons n numbers ih =>
    rw [List.map_cons, List.mapM_cons, ih]
    rfl

theorem samples_exact_iff (dataNum : Nat) (samples : List (BitVec 16)) :
    ((List.range dataNum).map fun j => ((samples.take dataNum).getD j 0#16).toInt) =
      samples.map BitVec.toInt ↔ samples.length = dataNum := by
  constructor
  · intro same
    simpa using (congrArg List.length same).symm
  · rintro rfl
    refine List.ext_getElem (by simp) fun j _ inside => ?_
    have within : j < samples.length := by simpa using inside
    simp [within]

theorem ta_exact_iff (ta : List (BitVec 8)) :
    ((List.range 6).flatMap fun i => hexText ((ta.take 6).getD i 0#8)) = ta.flatMap hexText ↔
      ta.length = 6 := by
  constructor
  · intro same
    have lengths := congrArg List.length same
    simp only [List.length_flatMap, hexText, List.length_cons, List.length_nil, List.map_const',
      List.sum_replicate_nat, List.length_range] at lengths
    omega
  · intro six
    match ta, six with
    | [a, b, c, d, e, f], _ => rfl

/-- An element of the array says what has come exactly when nothing has been cut off. -/
theorem decode_stored_iff (tb : Attrs) (more : Unasked) :
    decode (stored tb more).json = some (Reply.record tb more) ↔ Exact tb more := by
  have read (cells : List (BitVec 16)) : (printed more.dataNum cells).mapM asNum =
      some ((List.range more.dataNum).map fun j => (cells.getD j 0#16).toInt) := by
    rw [← mapM_asNum, List.map_map]
    rfl
  have stamp : tb.ts.toInt = tb.ts.toNat ↔ tb.ts.toNat < 2 ^ 31 := by
    rw [BitVec.toInt_eq_toNat_cond]
    split <;> omega
  have same : decode (stored tb more).json = do
      let i ← (printed more.dataNum (tb.dataI.take more.dataNum)).mapM asNum
      let q ← (printed more.dataNum (tb.dataQ.take more.dataNum)).mapM asNum
      return ⟨tb.ts.toInt, (List.range 6).flatMap fun i => hexText ((tb.ta.take 6).getD i 0#8),
        tb.rssi.toInt, tb.snr.toNat, tb.bw.toNat, tb.chIdx.toNat, more.txAnt.toNat,
        more.rxAnt.toNat, i, q⟩ := rfl
  rw [same, read, read]
  simp only [Option.bind_eq_bind, Option.bind_some, Option.pure_def, Option.some.injEq,
    Reply.record, Record.mk.injEq, samples_exact_iff, ta_exact_iff, stamp, true_and, Exact]

theorem decode_records_iff {replies : List Reply} (all : ∀ m ∈ complete replies, m.2.isSome) :
    ((records (complete replies)).map CsiData.json).map decode =
        (received replies).map some ↔
      ∀ tb more, (tb, some more) ∈ complete replies → Exact tb more := by
  induction replies with
  | nil => simp [complete, records, received]
  | cons r replies ih =>
    cases asked : r.attrs with
    | none =>
      have same : complete (r :: replies) = complete replies := by simp [complete, asked]
      have others : received (r :: replies) = received replies := by simp [received, asked]
      rw [same] at all ⊢
      rw [others]
      exact ih all
    | some tb =>
      have same : complete (r :: replies) = (tb, r.unasked) :: complete replies := by
        simp [complete, asked]
      rw [same] at all ⊢
      obtain ⟨here, rest⟩ := List.forall_mem_cons.1 all
      obtain ⟨more, read⟩ := Option.isSome_iff_exists.1 here
      dsimp only at read
      have shown : records ((tb, r.unasked) :: complete replies) =
          stored tb more :: records (complete replies) := by simp [records, read]
      have others : received (r :: replies) = Reply.record tb more :: received replies := by
        simp [received, asked, read]
      rw [shown, others, List.map_cons, List.map_cons, List.map_cons, List.cons_eq_cons,
        decode_stored_iff, ih rest, read]
      constructor
      · rintro ⟨first, later⟩ tb' more' inList
        rcases List.mem_cons.1 inList with this | behind
        · obtain ⟨rfl, read'⟩ := Prod.mk.inj this
          obtain rfl := Option.some_inj.1 read'
          exact first
        · exact later tb' more' behind
      · exact fun each => ⟨each tb more List.mem_cons_self,
          fun tb' more' behind => each tb' more' (List.mem_cons_of_mem _ behind)⟩

/-! ## The command -/

theorem dumpLoop_eq (pktNum : Nat) (requests : List Request) (csi : List CsiData) (ret : Int) :
    dumpLoop pktNum requests csi ret = do
      let csi ← ((requests.takeWhile (·.connects)).flatMap (·.replies)).foldlM (dumpCb pktNum) csi
      if requests.all (·.connects) then
        return .done (requests.foldl (fun _ r => r.ret) ret) (← csiToJson csi)
      else return .notConnected := by
  induction requests generalizing csi ret with
  | nil => rfl
  | cons request requests ih =>
    rw [dumpLoop]
    by_cases connects : request.connects = true
    · simp only [connects, if_true, List.takeWhile_cons, List.flatMap_cons, List.foldlM_append,
        List.all_cons, Bool.true_and, List.foldl_cons, ih, bind_assoc]
    · simp only [connects, List.takeWhile_cons]
      simp [connects]

def requestsOf (pktNum : Nat) (requests : Nat → Request) : List Request :=
  (List.range (pktNum / 3)).map requests

def messages (pktNum : Nat) (requests : Nat → Request) : List (Attrs × Option Unasked) :=
  complete (((requestsOf pktNum requests).takeWhile (·.connects)).flatMap (·.replies))

def emptyReply : Reply where
  vendorData := true
  ctrlData := true
  ver := true
  ts := some 0#32
  rssi := some 0#8
  snr := some 0#8
  bw := some 0#8
  chIdx := some 0#8
  ta := some (List.replicate 6 0#8)
  num := some 0#32
  dataI := some []
  dataQ := some []
  info := some 0#32
  mode := some 0#8
  chainInfo := some 0#32
  txAnt := some 0#16
  rxAnt := some 0#16

end MetaFilogic.Csi
