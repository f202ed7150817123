import MetaFilogic.Atenl.RxStats
import MetaFilogic.Library.BeWords

/-!
# The reply with the receive statistics

`GET_RX_INFO` is answered by four records, each with a header that tells its length.  The record of
the antenna paths is as long as there are paths, but always filled in for four.
-/

namespace MetaFilogic.Atenl

open BeWords

/-! ## The driver -/

/-- The bytes of `hdr->data`. -/
abbrev HqaData := Nat → BitVec 8

/-- What the driver sends of the last frame received; each element of a nested attribute with its
bytes. -/
structure LastRx where
  freqOffset : BitVec 32
  snr : BitVec 8
  rcpi : List (List (BitVec 8))
  ibRssi : List (List (BitVec 8))
  wbRssi : List (List (BitVec 8))

/-- The loops of `atenl_nl_get_rx_info_cb` over a nested attribute, from the element `i` of the
array on. -/
def collect : List (List (BitVec 8)) → Nat → (Nat → BitVec 8) → Nat → BitVec 8
  | [value] :: rest, i, array =>
    if 4 ≤ i then array else collect rest (i + 1) (Function.update array i value)
  | _, _, array => array

def toRssi (rcpi : BitVec 8) : BitVec 32 := BitVec.ofInt 32 (Int.tdiv (rcpi.toNat - 220) 2)

def rxPutHdr (pos : Nat) (type val size : BitVec 32) (data : HqaData) : HqaData :=
  put (put (put data pos type) (pos + 8) val) (pos + 12) size

/-- The last loop of `atenl_nl_get_rx_info_cb` for the path `i`. -/
def putPath (rxPath : Nat) (rcpi ibRssi wbRssi : Nat → BitVec 8) (data : HqaData) (i : Nat) :
    HqaData :=
  let path := rxPath + 24 * i
  let data := put data path ((rcpi i).setWidth 32)
  let data := put data (path + 4) (toRssi (rcpi i))
  let data := put data (path + 8) ((ibRssi i).signExtend 32)
  put data (path + 12) ((wbRssi i).signExtend 32)

def popcount (x : BitVec 8) : Nat := x.cpop.toNat

def atenlNlGetRxInfoCb (curBand : Fin MAX_BAND_NUM) (path : BitVec 8) (anb : RxBand)
    (lastRx : LastRx) (data : HqaData) : HqaData × BitVec 16 × RxBand :=
  let pathNum := popcount path
  let buf := 2
  let data := put data buf 4
  let buf := buf + 4
  let data := rxPutHdr buf 0 (1#32 <<< curBand.val) 56 data
  let rxBand := buf + 16
  let buf := rxBand + 56
  let data := rxPutHdr buf 1 (path.setWidth 32) (BitVec.ofNat 32 (pathNum * 24)) data
  let rxPath := buf + 16
  let buf := rxPath + pathNum * 24
  let data := rxPutHdr buf 2 0xffff (16 * 12) data
  let rxUser := buf + 16
  let buf := rxUser + 16 * 12
  let data := rxPutHdr buf 3 1 28 data
  let buf := buf + 16 + 28
  let len := BitVec.ofNat 16 buf
  let (diff, anb) := RxState.rxDiff anb
  let data := put data (rxBand + 4) ((diff .total).setWidth 32)
  let data := put data rxBand ((diff .errCnt).setWidth 32)
  let data := put data (rxBand + 12) ((diff .okCnt).setWidth 32)
  let data := put data (rxBand + 8) ((diff .lenMismatch).setWidth 32)
  let data := put data (rxUser + 8) ((diff .errCnt).setWidth 32)
  let data := put data rxUser lastRx.freqOffset
  let data := put data (rxUser + 4) (lastRx.snr.setWidth 32)
  let rcpi := collect lastRx.rcpi 0 fun _ => 0
  let ibRssi := collect lastRx.ibRssi 0 fun _ => 0
  let wbRssi := collect lastRx.wbRssi 0 fun _ => 0
  let data := (List.range 4).foldl (putPath rxPath rcpi ibRssi wbRssi) data
  (data, len, anb)

/-! ## What the reply should say -/

structure RxRecord where
  type : BitVec 32
  val : BitVec 32
  len : BitVec 32
  start : Nat
  deriving DecidableEq

/-- The next `count` records from `pos` on, and where they end. -/
def decode (data : HqaData) : (count pos : Nat) → List RxRecord × Nat
  | 0, pos => ([], pos)
  | count + 1, pos =>
    let record := ⟨get data pos, get data (pos + 8), get data (pos + 12), pos + 16⟩
    let rest := decode data count (pos + 16 + (get data (pos + 12)).toNat)
    (record :: rest.1, rest.2)

def delivered (attrs : List (List (BitVec 8))) (i : Nat) : BitVec 8 :=
  ((attrs.takeWhile fun value => value.length = 1).getD i []).headD 0

structure PathAt (data : HqaData) (pos : Nat) (lastRx : LastRx) (i : Nat) : Prop where
  rcpi : get data pos = (delivered lastRx.rcpi i).setWidth 32
  rssi : get data (pos + 4) = toRssi (delivered lastRx.rcpi i)
  ibRssi : get data (pos + 8) = (delivered lastRx.ibRssi i).signExtend 32
  wbRssi : get data (pos + 12) = (delivered lastRx.wbRssi i).signExtend 32

/-- The words that belong to the reply for `n` paths, by their place. -/
def replyWords (n : Nat) : List Nat :=
  [2, 6, 14, 18, 22, 26, 30, 34, 78, 86, 90] ++
    ((List.range n).flatMap fun i => [94 + 24 * i, 98 + 24 * i, 102 + 24 * i, 106 + 24 * i]) ++
    [94 + 24 * n, 102 + 24 * n, 106 + 24 * n, 110 + 24 * n, 114 + 24 * n, 118 + 24 * n,
      302 + 24 * n, 310 + 24 * n, 314 + 24 * n]

/-- The reply has the four records, with the statistics in them, and leaves the rest of the request
as it is. -/
structure RightReply (curBand : Fin MAX_BAND_NUM) (path : BitVec 8) (diff : RxStat 64)
    (lastRx : LastRx) (request reply : HqaData) (len : BitVec 16) : Prop where
  number : get reply 2 = 4
  records : decode reply 4 6 =
    ([⟨0, 1#32 <<< curBand.val, 56, 22⟩,
      ⟨1, path.setWidth 32, BitVec.ofNat 32 (popcount path * 24), 94⟩,
      ⟨2, 0xffff, 192, 110 + 24 * popcount path⟩, ⟨3, 1, 28, 318 + 24 * popcount path⟩],
      346 + 24 * popcount path)
  length : len.toNat = 346 + 24 * popcount path
  errCnt : get reply 22 = (diff .errCnt).setWidth 32
  total : get reply 26 = (diff .total).setWidth 32
  lenMismatch : get reply 30 = (diff .lenMismatch).setWidth 32
  okCnt : get reply 34 = (diff .okCnt).setWidth 32
  paths : ∀ i < popcount path, PathAt reply (94 + 24 * i) lastRx i
  freqOffset : get reply (110 + 24 * popcount path) = lastRx.freqOffset
  snr : get reply (114 + 24 * popcount path) = lastRx.snr.setWidth 32
  fcsErr : get reply (118 + 24 * popcount path) = (diff .errCnt).setWidth 32
  rest : ∀ i, (∀ word ∈ replyWords (popcount path), i < word ∨ word + 4 ≤ i) →
    reply i = request i

/-! ## The words written -/

def replyWrites (curBand : Fin MAX_BAND_NUM) (path : BitVec 8) (diff : RxStat 64)
    (lastRx : LastRx) : List (Nat × BitVec 32) :=
  let n := popcount path
  [(2, 4), (6, 0), (14, 1#32 <<< curBand.val), (18, 56), (78, 1), (86, path.setWidth 32),
    (90, BitVec.ofNat 32 (n * 24)), (94 + n * 24, 2), (94 + n * 24 + 8, 0xffff),
    (94 + n * 24 + 12, 192), (94 + n * 24 + 16 + 192, 3), (94 + n * 24 + 16 + 192 + 8, 1),
    (94 + n * 24 + 16 + 192 + 12, 28), (26, (diff .total).setWidth 32),
    (22, (diff .errCnt).setWidth 32), (34, (diff .okCnt).setWidth 32),
    (30, (diff .lenMismatch).setWidth 32), (94 + n * 24 + 16 + 8, (diff .errCnt).setWidth 32),
    (94 + n * 24 + 16, lastRx.freqOffset), (94 + n * 24 + 16 + 4, lastRx.snr.setWidth 32)]

def pathWrites (rcpi ibRssi wbRssi : Nat → BitVec 8) (i : Nat) : List (Nat × BitVec 32) :=
  [(94 + 24 * i, (rcpi i).setWidth 32), (94 + 24 * i + 4, toRssi (rcpi i)),
    (94 + 24 * i + 8, (ibRssi i).signExtend 32), (94 + 24 * i + 12, (wbRssi i).signExtend 32)]

def allWrites (curBand : Fin MAX_BAND_NUM) (path : BitVec 8) (diff : RxStat 64)
    (lastRx : LastRx) : List (Nat × BitVec 32) :=
  replyWrites curBand path diff lastRx ++
    (List.range 4).flatMap (pathWrites (collect lastRx.rcpi 0 fun _ => 0)
      (collect lastRx.ibRssi 0 fun _ => 0) (collect lastRx.wbRssi 0 fun _ => 0))

theorem reply_eq (curBand : Fin MAX_BAND_NUM) (path : BitVec 8) (anb : RxBand) (lastRx : LastRx)
    (data : HqaData) :
    (atenlNlGetRxInfoCb curBand path anb lastRx data).1 =
      putAll data (allWrites curBand path (RxState.rxDiff anb).1 lastRx) :=
  rfl

def writePlaces (n : Nat) : List Nat :=
  [2, 6, 14, 18, 78, 86, 90, 94 + n * 24, 94 + n * 24 + 8, 94 + n * 24 + 12,
    94 + n * 24 + 16 + 192, 94 + n * 24 + 16 + 192 + 8, 94 + n * 24 + 16 + 192 + 12, 26, 22, 34, 30,
    94 + n * 24 + 16 + 8, 94 + n * 24 + 16, 94 + n * 24 + 16 + 4] ++
    (List.range 4).flatMap fun i => [94 + 24 * i, 94 + 24 * i + 4, 94 + 24 * i + 8, 94 + 24 * i + 12]

theorem allWrites_places (curBand : Fin MAX_BAND_NUM) (path : BitVec 8) (diff : RxStat 64)
    (lastRx : LastRx) :
    (allWrites curBand path diff lastRx).map Prod.fst = writePlaces (popcount path) :=
  rfl

theorem writePlaces_apart : ∀ n ≤ 8, 4 ≤ n → (writePlaces n).Pairwise Apart := by
  decide

theorem writePlaces_subset : ∀ n ≤ 8, 4 ≤ n → ∀ place ∈ writePlaces n, place ∈ replyWords n := by
  decide

theorem writePlaces_paths : ∀ n ≤ 8, ∀ i < n, 4 ≤ i → ∀ place ∈ writePlaces n,
    ∀ k < 4, Apart place (94 + 24 * i + 4 * k) := by
  decide

theorem popcount_le (x : BitVec 8) : popcount x ≤ 8 :=
  BitVec.toNat_cpop_le x

theorem delivered_cons (value : BitVec 8) (rest : List (List (BitVec 8))) (i : Nat) :
    delivered ([value] :: rest) (i + 1) = delivered rest i :=
  rfl

theorem collect_eq {attrs : List (List (BitVec 8))} {k i : Nat} {array : Nat → BitVec 8}
    (clear : ∀ j ≥ k, array j = 0) (below : i < 4) :
    collect attrs k array i = if i < k then array i else delivered attrs (i - k) := by
  induction attrs generalizing k array with
  | nil =>
    rw [collect]
    · by_cases before : i < k
      · rw [if_pos before]
      · rw [if_neg before]
        exact clear i (Nat.le_of_not_lt before)
    · exact nofun
  | cons value rest ih =>
    by_cases single : ∃ v, value = [v]
    · obtain ⟨v, rfl⟩ := single
      rw [collect]
      by_cases full : 4 ≤ k
      · rw [if_pos full, if_pos (by omega)]
      · have clear' : ∀ j ≥ k + 1, Function.update array k v j = 0 := fun j above => by
          rw [Function.update_of_ne (by omega)]
          exact clear j (by omega)
        rw [if_neg full, ih clear']
        rcases Nat.lt_trichotomy i k with before | rfl | after
        · rw [if_pos (by omega), if_pos before, Function.update_of_ne (by omega)]
        · rw [if_pos (Nat.lt_succ_self _), if_neg (Nat.lt_irrefl _), Function.update_self,
            Nat.sub_self]
          rfl
        · obtain ⟨d, rfl⟩ := Nat.exists_eq_add_of_lt after
          rw [if_neg (by omega), if_neg (by omega), show k + d + 1 - k = d + 1 by omega,
            delivered_cons, show k + d + 1 - (k + 1) = d by omega]
    · have odd : ¬value.length = 1 := fun one => single (List.length_eq_one_iff.mp one)
      have none : delivered (value :: rest) (i - k) = 0 := by
        unfold delivered
        rw [List.takeWhile_cons, if_neg (by simpa using odd)]
        rfl
      rw [collect]
      · by_cases before : i < k
        · rw [if_pos before]
        · rw [if_neg before, none]
          exact clear i (Nat.le_of_not_lt before)
      · rintro v rest' same
        exact single ⟨v, (List.cons.inj same).1⟩

section Right

variable {curBand : Fin MAX_BAND_NUM} {path : BitVec 8} {diff : RxStat 64} {lastRx : LastRx}
  {request : HqaData}

theorem get_reply (enough : 4 ≤ popcount path) {place : Nat} {value : BitVec 32}
    (member : (place, value) ∈ allWrites curBand path diff lastRx) :
    get (putAll request (allWrites curBand path diff lastRx)) place = value := by
  refine get_putAll_mem ?_ member
  rw [allWrites_places]
  exact writePlaces_apart _ (popcount_le path) enough

variable {i : Nat}

theorem pathAt_reply (enough : 4 ≤ popcount path) (below : i < 4) :
    PathAt (putAll request (allWrites curBand path diff lastRx)) (94 + 24 * i) lastRx i := by
  have collected (attrs : List (List (BitVec 8))) :
      collect attrs 0 (fun _ => 0) i = delivered attrs i := by
    rw [collect_eq (fun _ _ => rfl) below, if_neg (Nat.not_lt_zero i), Nat.sub_zero]
  have member {write : Nat × BitVec 32} (among : write ∈ pathWrites
      (collect lastRx.rcpi 0 fun _ => 0) (collect lastRx.ibRssi 0 fun _ => 0)
      (collect lastRx.wbRssi 0 fun _ => 0) i) : write ∈ allWrites curBand path diff lastRx :=
    List.mem_append_right _ (List.mem_flatMap.mpr ⟨i, List.mem_range.mpr below, among⟩)
  constructor
  · rw [get_reply enough (member (.head _)), collected]
  · rw [get_reply enough (member (.tail _ (.head _))), collected]
  · rw [get_reply enough (member (.tail _ (.tail _ (.head _)))), collected]
  · rw [get_reply enough (member (.tail _ (.tail _ (.tail _ (.head _))))), collected]

theorem get_reply_path (above : 4 ≤ i) (below : i < popcount path) {k : Nat} (word : k < 4) :
    get (putAll request (allWrites curBand path diff lastRx)) (94 + 24 * i + 4 * k) =
      get request (94 + 24 * i + 4 * k) := by
  refine get_putAll_apart fun write among => ?_
  refine writePlaces_paths _ (popcount_le path) i below above write.1 ?_ k word
  rw [← allWrites_places curBand path diff lastRx]
  exact List.mem_map_of_mem among

theorem pathAt_reply_iff (above : 4 ≤ i) (below : i < popcount path) :
    PathAt (putAll request (allWrites curBand path diff lastRx)) (94 + 24 * i) lastRx i ↔
      PathAt request (94 + 24 * i) lastRx i := by
  have words (k : Nat) (word : k < 4) :=
    @get_reply_path curBand path diff lastRx request i above below k word
  constructor
  · rintro ⟨rcpi, rssi, ib, wb⟩
    exact ⟨(words 0 (by decide)).symm.trans rcpi, (words 1 (by decide)).symm.trans rssi,
      (words 2 (by decide)).symm.trans ib, (words 3 (by decide)).symm.trans wb⟩
  · rintro ⟨rcpi, rssi, ib, wb⟩
    exact ⟨(words 0 (by decide)).trans rcpi, (words 1 (by decide)).trans rssi,
      (words 2 (by decide)).trans ib, (words 3 (by decide)).trans wb⟩

theorem records_reply (enough : 4 ≤ popcount path) :
    decode (putAll request (allWrites curBand path diff lastRx)) 4 6 =
      ([⟨0, 1#32 <<< curBand.val, 56, 22⟩,
        ⟨1, path.setWidth 32, BitVec.ofNat 32 (popcount path * 24), 94⟩,
        ⟨2, 0xffff, 192, 110 + 24 * popcount path⟩, ⟨3, 1, 28, 318 + 24 * popcount path⟩],
        346 + 24 * popcount path) := by
  have few := popcount_le path
  have written {write : Nat × BitVec 32}
      (among : write ∈ replyWrites curBand path diff lastRx) :
      get (putAll request (allWrites curBand path diff lastRx)) write.1 = write.2 :=
    get_reply enough (List.mem_append_left _ among)
  generalize putAll request (allWrites curBand path diff lastRx) = reply at written
  have len1 : (BitVec.ofNat 32 (popcount path * 24)).toNat = popcount path * 24 := by
    rw [BitVec.toNat_ofNat]
    omega
  have users : 94 + popcount path * 24 + 16 = 110 + 24 * popcount path := by omega
  have comm : 110 + 24 * popcount path + 192 + 16 = 318 + 24 * popcount path := by omega
  have stop : 318 + 24 * popcount path + 28 = 346 + 24 * popcount path := by omega
  simp only [replyWrites, List.mem_cons, forall_eq_or_imp, List.not_mem_nil, false_imp_iff,
    implies_true, and_true] at written
  obtain ⟨-, type0, val0, len0, type1, val1, len1', type2, val2, len2, type3, val3, len3, -⟩ :=
    written
  simp only [decode, type0, val0, len0, BitVec.reduceToNat, Nat.reduceAdd, type1, val1, len1', len1,
    type2, val2, len2, type3, val3, len3]
  rw [users, comm, stop]

theorem third_val {reply : HqaData} {n : Nat} (few : n ≤ 8) {first second : BitVec 32}
    {third fourth : RxRecord} {stop : Nat} (records : decode reply 4 6 =
      ([⟨0, first, 56, 22⟩, ⟨1, second, BitVec.ofNat 32 (n * 24), 94⟩, third, fourth], stop)) :
    get reply (94 + 24 * n + 8) = third.val := by
  have len1 : (BitVec.ofNat 32 (n * 24)).toNat = 24 * n := by
    rw [BitVec.toNat_ofNat]
    omega
  simp only [decode, Prod.mk.injEq, List.cons.injEq, RxRecord.mk.injEq, and_true] at records
  obtain ⟨⟨⟨-, -, len0⟩, ⟨-, -, len1', -⟩, rfl, -⟩, -⟩ := records
  dsimp only
  rw [len0] at len1' ⊢
  simp only [BitVec.reduceToNat, Nat.reduceAdd] at len1' ⊢
  rw [len1', len1]

theorem range_four {n : Nat} (few : n < 4) :
    List.range 4 = List.range n ++ n :: (List.range (3 - n)).map fun j => n + 1 + j := by
  match n, few with
  | 0, _ => rfl
  | 1, _ => rfl
  | 2, _ => rfl
  | 3, _ => rfl

/-- With fewer than four paths, an entry is filled in that is not there: it lies over the header of
the next record. -/
theorem third_val_few (few : popcount path < 4) :
    get (putAll request (allWrites curBand path diff lastRx)) (94 + 24 * popcount path + 8) =
      (collect lastRx.ibRssi 0 (fun _ => 0) (popcount path)).signExtend 32 := by
  unfold allWrites
  generalize collect lastRx.rcpi 0 (fun _ => 0) = rcpi
  generalize collect lastRx.ibRssi 0 (fun _ => 0) = ibRssi
  generalize collect lastRx.wbRssi 0 (fun _ => 0) = wbRssi
  have split : replyWrites curBand path diff lastRx ++
        (List.range 4).flatMap (pathWrites rcpi ibRssi wbRssi) =
      (replyWrites curBand path diff lastRx ++
        (List.range (popcount path)).flatMap (pathWrites rcpi ibRssi wbRssi) ++
          (pathWrites rcpi ibRssi wbRssi (popcount path)).take 2) ++
      (94 + 24 * popcount path + 8, (ibRssi (popcount path)).signExtend 32) ::
        ((pathWrites rcpi ibRssi wbRssi (popcount path)).drop 3 ++
          ((List.range (3 - popcount path)).map fun j => popcount path + 1 + j).flatMap
            (pathWrites rcpi ibRssi wbRssi)) := by
    rw [range_four few, List.flatMap_append, List.flatMap_cons]
    simp [pathWrites]
  rw [split]
  refine get_putAll_last fun write among => ?_
  unfold Apart
  rcases List.mem_append.mp among with last | later
  · rw [List.mem_singleton.mp last]
    dsimp only
    omega
  · obtain ⟨i, member, ofPath⟩ := List.mem_flatMap.mp later
    obtain ⟨j, -, rfl⟩ := List.mem_map.mp member
    have place : 94 + 24 * (popcount path + 1 + j) ≤ write.1 := by
      simp only [pathWrites, List.mem_cons, List.not_mem_nil, or_false] at ofPath
      rcases ofPath with rfl | rfl | rfl | rfl
      · exact Nat.le_refl _
      · exact Nat.le_add_right _ _
      · exact Nat.le_add_right _ _
      · exact Nat.le_add_right _ _
    omega

theorem signExtend_ne (x : BitVec 8) : x.signExtend 32 ≠ 0xffff := by
  revert x
  decide

/-- The reply is right exactly when there are four paths, or more whose entries have their values
in the request already. -/
theorem rightReply_iff (curBand : Fin MAX_BAND_NUM) (path : BitVec 8) (anb : RxBand)
    (lastRx : LastRx) (request : HqaData) :
    RightReply curBand path (RxState.rxDiff anb).1 lastRx request
        (atenlNlGetRxInfoCb curBand path anb lastRx request).1
        (atenlNlGetRxInfoCb curBand path anb lastRx request).2.1 ↔
      4 ≤ popcount path ∧
        ∀ i, 4 ≤ i → i < popcount path → PathAt request (94 + 24 * i) lastRx i := by
  rw [reply_eq]
  generalize (RxState.rxDiff anb).1 = diff
  constructor
  · intro right
    have enough : 4 ≤ popcount path := by
      refine Nat.le_of_not_lt fun few => ?_
      have announced := third_val (popcount_le path) right.records
      rw [third_val_few few] at announced
      exact signExtend_ne _ announced
    exact ⟨enough, fun i above below =>
      (pathAt_reply_iff above below).mp (right.paths i below)⟩
  · rintro ⟨enough, others⟩
    have few := popcount_le path
    have words {place : Nat} {value : BitVec 32}
        (among : (place, value) ∈ replyWrites curBand path diff lastRx) :
        get (putAll request (allWrites curBand path diff lastRx)) place = value :=
      get_reply enough (List.mem_append_left _ among)
    have users : 94 + popcount path * 24 + 16 = 110 + 24 * popcount path := by omega
    refine ⟨words (by simp [replyWrites]), records_reply enough, ?_, words (by simp [replyWrites]),
      words (by simp [replyWrites]), words (by simp [replyWrites]), words (by simp [replyWrites]),
      fun i below => ?_, words ?_, words ?_, words ?_, fun i outside => ?_⟩
    · rw [show (atenlNlGetRxInfoCb curBand path anb lastRx request).2.1 =
        BitVec.ofNat 16 (94 + popcount path * 24 + 16 + 192 + 16 + 28) from rfl, BitVec.toNat_ofNat]
      omega
    · by_cases first : i < 4
      · exact pathAt_reply enough first
      · exact (pathAt_reply_iff (Nat.le_of_not_lt first) below).mpr
          (others i (Nat.le_of_not_lt first) below)
    · simp [replyWrites, ← users]
    · rw [show 114 + 24 * popcount path = 94 + popcount path * 24 + 16 + 4 by omega]
      simp [replyWrites]
    · rw [show 118 + 24 * popcount path = 94 + popcount path * 24 + 16 + 8 by omega]
      simp [replyWrites]
    · refine putAll_outside fun write among => outside write.1 ?_
      refine writePlaces_subset _ few enough write.1 ?_
      rw [← allWrites_places curBand path diff lastRx]
      exact List.mem_map_of_mem among

end Right

def quietBand : RxBand where
  curState := .rxFrames
  resetRxCnt := false
  rxStat := 0
  driver := .zero
  based := false
  received := 0
  settled := 0
  reported := 0

def threePathRx : LastRx where
  freqOffset := 0
  snr := 30
  rcpi := [[200], [198], [196]]
  ibRssi := [[246], [245], [244]]
  wbRssi := [[246], [245], [244]]

/-- With three paths, the header of the user record is lost. -/
theorem threePaths_wrong :
    ¬RightReply 0 0b111 (RxState.rxDiff quietBand).1 threePathRx (fun _ => 0)
      (atenlNlGetRxInfoCb 0 0b111 quietBand threePathRx fun _ => 0).1
      (atenlNlGetRxInfoCb 0 0b111 quietBand threePathRx fun _ => 0).2.1 := by
  intro right
  have announced := third_val (popcount_le 0b111) right.records
  rw [reply_eq, third_val_few (by decide)] at announced
  exact signExtend_ne _ announced

end MetaFilogic.Atenl
