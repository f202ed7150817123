import MetaFilogic.Library.Steps
import MetaFilogic.Library.WordParts
import Mathlib.Data.List.FinRange
import Mathlib.Data.Fin.VecNotation
import Mathlib.Tactic.FinCases

/-!
# The RSS configuration

The hash key and the indirection table are kept in memory, set through ethtool and through the
file `rss_ctrl`, and written to the registers when they are set and at each start of the DMA.
-/

namespace MetaFilogic.Eth.Rss

open WordParts

/-! ## Configuration and registers -/

def MTK_RSS_HASH_KEYSIZE : Nat := 40
def MTK_RSS_MAX_INDIRECTION_TABLE : Nat := 128
def MTK_MAX_RX_RING_NUM : Nat := 8
def MTK_RX_NAPI_NUM : Int := 8
def MTK_RSS_EN : BitVec 32 := 1#32
def MTK_RSS_CFG_REQ : BitVec 32 := 1#32 <<< 2
def MTK_RSS_IPV6_STATIC_HASH : BitVec 32 := 0x7#32 <<< 8
def MTK_RSS_IPV4_STATIC_HASH : BitVec 32 := 0x7#32 <<< 12

abbrev Key := Fin 40 → BitVec 8

/-- The key as `memcpy` puts it into the words of `hash_key`. -/
def keyWords (key : Key) (i : Fin 10) : BitVec 32 :=
  key ⟨4 * i + 3, by omega⟩ ++ key ⟨4 * i + 2, by omega⟩ ++ key ⟨4 * i + 1, by omega⟩ ++
    key ⟨4 * i, by omega⟩

/-- The bytes that `memcpy` takes from the words. -/
def keyBytes (words : Fin 10 → BitVec 32) : Key := fun j =>
  (words ⟨j / 4, by omega⟩).extractLsb' (8 * (j % 4)) 8

structure Params where
  rssNum : BitVec 32
  hashKey : Fin 10 → BitVec 32
  indirectionTable : Fin 128 → BitVec 8

structure Regs where
  gloCfg : BitVec 32
  hashKey : Fin 10 → BitVec 32
  indrTable : Fin 8 → BitVec 32

structure State where
  params : Params
  regs : Regs
  running : Bool

/-- A SoC with `MTK_RSS`. -/
inductive Soc where
  | mt7986
  | mt7981
  | mt7988
  | mt7987

namespace Soc

/-- `rss_num` of `struct mtk_soc_data` -/
def rssNum (_ : Soc) : BitVec 32 := 4#32

/-- `MTK_HWLRO` is among the `caps`, and so `NETIF_F_LRO` among the `hw_features`. -/
def hwlro : Soc → Bool
  | mt7986 | mt7981 => false
  | mt7988 | mt7987 => true

/-- What `mtk_get_rxnfc` answers to `ETHTOOL_GRXRINGS`. -/
def mtkGetRxnfc (soc : Soc) : Nat :=
  if soc.hwlro then MTK_MAX_RX_RING_NUM else soc.rssNum.toNat

end Soc

/-! ## Operations -/

def mtkRssIndrTable (table : Fin 128 → BitVec 8) (index : Fin 8) : BitVec 32 :=
  (List.finRange 16).foldl
    (fun val (i : Fin 16) =>
      val ||| (table ⟨16 * index + i, by omega⟩).setWidth 32 <<< (2 * (i % 16 : Nat))) 0#32

/-- The key that `mtk_rss_init` has. -/
def defaultKey : Key :=
  ![0xfa, 0x01, 0xac, 0xbe, 0x3b, 0xb7, 0x42, 0x6a,
    0x0c, 0xf2, 0x30, 0x80, 0xa3, 0x2d, 0xcb, 0x77,
    0xb4, 0x30, 0x7b, 0xae, 0xcb, 0x2b, 0xca, 0xd0,
    0xb0, 0x8f, 0xa3, 0x43, 0x3d, 0x25, 0x67, 0x41,
    0xc2, 0x0e, 0x5b, 0x25, 0xda, 0x56, 0x5a, 0x6d]

/-- The table that spreads the entries over `num` rings. -/
def spread (num : BitVec 32) (i : Fin 128) : BitVec 8 := (BitVec.ofNat 32 i % num).setWidth 8

def initParams (soc : Soc) (params : Params) : Params :=
  let params :=
    if params.rssNum = 0#32 then
      { params with rssNum := soc.rssNum, indirectionTable := spread soc.rssNum }
    else params
  { params with hashKey := keyWords defaultKey }

def mtkRssInit (soc : Soc) (s : State) : State :=
  let params := initParams soc s.params
  let val := s.regs.gloCfg ||| MTK_RSS_IPV4_STATIC_HASH ||| MTK_RSS_IPV6_STATIC_HASH
  let val := val ||| MTK_RSS_CFG_REQ
  let val := val ||| MTK_RSS_EN
  let val := val &&& ~~~MTK_RSS_CFG_REQ
  { s with
    params := params
    regs :=
      { gloCfg := val
        hashKey := params.hashKey
        indrTable := mtkRssIndrTable params.indirectionTable } }

def mtkRssUninit (s : State) : State :=
  let val := s.regs.gloCfg ||| MTK_RSS_CFG_REQ
  let val := val &&& ~~~MTK_RSS_EN
  let val := val &&& ~~~MTK_RSS_CFG_REQ
  { s with regs := { s.regs with gloCfg := val } }

inductive HashFunc where
  | noChange
  | top
  | other

def rssMax (indir : Fin 128 → BitVec 32) : BitVec 32 :=
  (List.finRange 128).foldl (fun most i => if most < indir i then indir i else most) 0#32

def setKey (key : Key) (s : State) : State :=
  { s with
    params := { s.params with hashKey := keyWords key }
    regs := { s.regs with hashKey := keyWords key } }

def setTable (num : BitVec 32) (table : Fin 128 → BitVec 8) (s : State) : State :=
  { s with
    params := { s.params with rssNum := num, indirectionTable := table }
    regs := { s.regs with indrTable := mtkRssIndrTable table } }

/-- `mtk_set_rxfh(dev, indir, key, hfunc)`; a hash function it does not have is `-EOPNOTSUPP`. -/
def mtkSetRxfh (indir : Option (Fin 128 → BitVec 32)) (key : Option Key) (hfunc : HashFunc)
    (s : State) : State :=
  match hfunc with
  | .other => s
  | .noChange | .top =>
    let s := key.elim s (setKey · s)
    indir.elim s fun indir => setTable (rssMax indir + 1#32) (fun i => (indir i).setWidth 8) s

structure Rxfh where
  indir : Fin 128 → BitVec 32
  key : Key

def mtkGetRxfh (s : State) : Rxfh where
  indir := fun i => (s.params.indirectionTable i).setWidth 32
  key := keyBytes s.params.hashKey

/-- The write of `num` to `rss_ctrl` is accepted by `mtk_rss_set_indr_tbl`, which takes an `int`. -/
def rssCtrlAccepts (num : BitVec 64) : Bool :=
  let num := (num.setWidth 32).toInt
  ¬(num ≤ 0 ∨ MTK_RX_NAPI_NUM < num)

def rssCtrlWrite (num : BitVec 64) (s : State) : State :=
  if rssCtrlAccepts num then setTable (num.setWidth 32) (spread (num.setWidth 32)) s else s

inductive Op where
  | setRxfh (indir : Option (Fin 128 → BitVec 32)) (key : Option Key) (hfunc : HashFunc)
  | rssCtrl (num : BitVec 64)
  /-- The last interface that uses the DMA is stopped. -/
  | stop
  /-- The DMA is started, unless it runs; `ready` says that its rings are allocated. -/
  | start (ready : Bool)
  /-- The DMA is stopped and the chip is reset, which leaves the registers as they happen to be. -/
  | reset (regs : Regs)

def State.step (soc : Soc) (s : State) : Op → State
  | .setRxfh indir key hfunc => mtkSetRxfh indir key hfunc s
  | .rssCtrl num => rssCtrlWrite num s
  | .stop => if s.running then { mtkRssUninit s with running := false } else s
  | .start ready =>
    if s.running then s else if ready then { mtkRssInit soc s with running := true } else s
  | .reset regs => { s with running := false, regs := regs }

def probed (regs : Regs) : State := ⟨⟨0#32, fun _ => 0#32, fun _ => 0#8⟩, regs, false⟩

/-! ## What is asked for -/

structure Asked where
  key : Option Key
  table : Option (Fin 128 → Nat)

def Asked.after (asked : Asked) : Op → Asked
  | .setRxfh _ _ .other => asked
  | .setRxfh indir key _ =>
    ⟨key.or asked.key, (indir.map fun indir i => (indir i).toNat).or asked.table⟩
  | .rssCtrl num =>
    if rssCtrlAccepts num then { asked with table := some fun i => i % (num.setWidth 32).toNat }
    else asked
  | .stop | .start _ | .reset _ => asked

structure Tracked where
  asked : Asked
  state : State

def Tracked.step (soc : Soc) (t : Tracked) (op : Op) : Option Tracked :=
  some ⟨t.asked.after op, t.state.step soc op⟩

def Regs.field (regs : Regs) (i : Fin 128) : BitVec 2 :=
  (regs.indrTable ⟨i / 16, by omega⟩).extractLsb' (2 * (i % 16)) 2

/-- What was asked for is what `mtk_get_rxfh` returns, and the registers hold it while the DMA
runs. -/
structure Kept (t : Tracked) : Prop where
  key : ∀ key ∈ t.asked.key, (mtkGetRxfh t.state).key = key
  table : ∀ table ∈ t.asked.table, ∀ i, ((mtkGetRxfh t.state).indir i).toNat = table i
  keyRegs : t.state.running → ∀ i, t.state.regs.hashKey i = keyWords (mtkGetRxfh t.state).key i
  fields : t.state.running →
    ∀ i, (t.state.regs.field i).toNat = ((mtkGetRxfh t.state).indir i).toNat

/-- Entries of a table set through ethtool are below the number of rings. -/
def Valid (soc : Soc) (_ : Tracked) : Op → Prop
  | .setRxfh (some indir) _ _ => ∀ i, (indir i).toNat < soc.mtkGetRxnfc
  | _ => True

def Fits (table : Fin 128 → BitVec 8) : Prop := ∀ i, (table i).toNat < 4

/-- A step writes only tables that fit to the registers of a running DMA, and the DMA is started
only when no other key than the default one was set. -/
def Meets (t : Tracked) : Op → Prop
  | .setRxfh _ _ .other => True
  | .setRxfh (some indir) _ _ => t.state.running → ∀ i, (indir i).toNat < 4
  | .rssCtrl num =>
    t.state.running → rssCtrlAccepts num → (num.setWidth 32).toNat ≤ 4
  | .start true =>
    t.state.running ∨ (∀ key ∈ t.asked.key, key = defaultKey) ∧
      (t.state.params.rssNum ≠ 0#32 → Fits t.state.params.indirectionTable)
  | _ => True

instance (soc : Soc) (t : Tracked) : (op : Op) → Decidable (Valid soc t op)
  | .setRxfh (some indir) _ _ =>
    inferInstanceAs (Decidable (∀ i, (indir i).toNat < soc.mtkGetRxnfc))
  | .setRxfh none _ _ | .rssCtrl _ | .stop | .start _ | .reset _ => isTrue trivial

instance (table : Fin 128 → BitVec 8) : Decidable (Fits table) :=
  inferInstanceAs (Decidable (∀ i, (table i).toNat < 4))

instance (t : Tracked) : (op : Op) → Decidable (Meets t op)
  | .setRxfh (some indir) _ .noChange | .setRxfh (some indir) _ .top =>
    inferInstanceAs (Decidable (t.state.running → ∀ i, (indir i).toNat < 4))
  | .rssCtrl num =>
    inferInstanceAs
      (Decidable (t.state.running → rssCtrlAccepts num → (num.setWidth 32).toNat ≤ 4))
  | .start true =>
    have : Decidable (∀ key ∈ t.asked.key, key = defaultKey) := Option.decidableForallMem _
    inferInstanceAs (Decidable (t.state.running ∨ (∀ key ∈ t.asked.key, key = defaultKey) ∧
      (t.state.params.rssNum ≠ 0#32 → Fits t.state.params.indirectionTable)))
  | .setRxfh _ _ .other | .setRxfh none _ .noChange | .setRxfh none _ .top | .stop
  | .start false | .reset _ => isTrue (by simp only [Meets])

/-! ## Keys -/

theorem extract_append_byte (a b c d : BitVec 8) (r : Fin 4) :
    (a ++ b ++ c ++ d).extractLsb' (8 * r) 8 = ![d, c, b, a] r := by
  refine BitVec.eq_of_getLsbD_eq fun i inside => ?_
  fin_cases r <;> simp [inside] <;> grind

theorem keyBytes_keyWords (key : Key) : keyBytes (keyWords key) = key := by
  have bytes : ∀ (q : Fin 10) (r : Fin 4), keyBytes (keyWords key) ⟨4 * q + r, by omega⟩ =
      key ⟨4 * q + r, by omega⟩ := fun q r => by
    have word : (4 * q + r : Nat) / 4 = q := by omega
    have byte : (4 * q + r : Nat) % 4 = r := by omega
    simp only [keyBytes, word, byte, keyWords, extract_append_byte]
    fin_cases r <;> rfl
  funext j
  have place : (⟨4 * (j / 4) + j % 4, by omega⟩ : Fin 40) = j := Fin.ext (Nat.div_add_mod _ _)
  have byte := bytes ⟨j / 4, by omega⟩ ⟨j % 4, Nat.mod_lt _ (by decide)⟩
  simpa only [place] using byte

/-! ## Tables -/

section Table

variable {table : Fin 128 → BitVec 8}

theorem shifted_eq_place {x : BitVec 8} (small : x.toNat < 4) (shift : Nat) :
    x.setWidth 32 <<< shift = place 32 shift (x.setWidth 2) := by
  have same : x.setWidth 32 = (x.setWidth 2).setWidth 32 := by
    refine BitVec.eq_of_toNat_eq ?_
    simp only [BitVec.toNat_setWidth]
    omega
  rw [same, place]

theorem field_mtkRssIndrTable (fits : Fits table) (index : Fin 8) (j : Fin 16) :
    (mtkRssIndrTable table index).extractLsb' (2 * j) 2 =
      (table ⟨16 * index + j, by omega⟩).setWidth 2 := by
  have parts : ∀ i : Fin 16,
      (table ⟨16 * index + i, by omega⟩).setWidth 32 <<< (2 * (i % 16 : Nat)) =
      place 32 (2 * i) ((table ⟨16 * index + i, by omega⟩).setWidth 2) := fun i => by
    rw [Nat.mod_eq_of_lt i.isLt]
    exact shifted_eq_place (fits _) _
  simp only [mtkRssIndrTable, parts]
  rw [extract_foldl_or, BitVec.extractLsb'_zero,
    foldl_or_single (List.nodup_finRange 16) (List.mem_finRange j) fun i _ other =>
      extract_place_apart _ (by omega)]
  exact extract_place _ (by omega)

theorem fields_iff (table : Fin 128 → BitVec 8) (gloCfg : BitVec 32) (key : Fin 10 → BitVec 32) :
    (∀ i, ((Regs.mk gloCfg key (mtkRssIndrTable table)).field i).toNat = (table i).toNat) ↔
      Fits table := by
  constructor
  · intro shown i
    rw [← shown i]
    exact BitVec.isLt _
  · intro fits i
    have entry : (⟨16 * (i / 16) + i % 16, by omega⟩ : Fin 128) = i :=
      Fin.ext (Nat.div_add_mod _ _)
    have field := field_mtkRssIndrTable fits ⟨i / 16, by omega⟩ ⟨i % 16, Nat.mod_lt _ (by decide)⟩
    simp only [entry] at field
    rw [Regs.field, field, BitVec.toNat_setWidth, Nat.mod_eq_of_lt (fits i)]

end Table

/-! ## Steps -/

section Step

variable {soc : Soc} {t t' : Tracked} {asked : Asked} {s : State} {key : Key} {num : BitVec 32}
  {table : Fin 128 → BitVec 8} {want : Fin 128 → Nat}

theorem getRxfh_indir_toNat (s : State) (i : Fin 128) :
    ((mtkGetRxfh s).indir i).toNat = (s.params.indirectionTable i).toNat := by
  rw [mtkGetRxfh, BitVec.toNat_setWidth]
  omega

theorem kept_setKey (kept : Kept ⟨asked, s⟩) : Kept ⟨⟨some key, asked.table⟩, setKey key s⟩ where
  key := fun key' set => by
    obtain rfl := Option.some_inj.1 set
    exact keyBytes_keyWords key
  table := kept.table
  keyRegs := fun _ i => by
    rw [show (mtkGetRxfh (setKey key s)).key = key from keyBytes_keyWords key]
    rfl
  fields := kept.fields

theorem kept_setTable_iff (num : BitVec 32) (kept : Kept ⟨asked, s⟩)
    (same : ∀ i, (table i).toNat = want i) :
    Kept ⟨⟨asked.key, some want⟩, setTable num table s⟩ ↔ (s.running → Fits table) := by
  constructor
  · intro held running
    exact (fields_iff _ s.regs.gloCfg s.regs.hashKey).1 fun i =>
      (held.fields running i).trans (getRxfh_indir_toNat _ i)
  · intro fits
    refine ⟨kept.key, fun table' set i => ?_, kept.keyRegs, fun running i => ?_⟩
    · obtain rfl := Option.some_inj.1 set
      exact (getRxfh_indir_toNat _ i).trans (same i)
    · exact ((fields_iff _ s.regs.gloCfg s.regs.hashKey).2 (fits running) i).trans
        (getRxfh_indir_toNat (setTable num table s) i).symm

theorem spread_toNat (num : BitVec 32) (i : Fin 128) : (spread num i).toNat = i % num.toNat := by
  have below : (i : Nat) % num.toNat ≤ i := Nat.mod_le _ _
  rw [spread, BitVec.toNat_setWidth, BitVec.toNat_umod, BitVec.toNat_ofNat,
    Nat.mod_eq_of_lt (show (i : Nat) < 2 ^ 32 by omega), Nat.mod_eq_of_lt (by omega)]

theorem fits_spread_iff (num : BitVec 32) (positive : 0 < num.toNat) :
    Fits (spread num) ↔ num.toNat ≤ 4 := by
  constructor
  · intro fits
    by_contra large
    have entry := fits 4
    rw [spread_toNat] at entry
    have same : ((4 : Fin 128) : Nat) % num.toNat = 4 := Nat.mod_eq_of_lt (by omega)
    omega
  · intro small i
    rw [spread_toNat]
    exact (Nat.mod_lt _ positive).trans_le small

theorem accepted_toNat {num : BitVec 64} (accepted : rssCtrlAccepts num) :
    0 < (num.setWidth 32).toNat := by
  rw [rssCtrlAccepts] at accepted
  simp only [decide_eq_true_eq, not_or, Int.not_le] at accepted
  have positive := accepted.1
  rw [BitVec.toInt_eq_toNat_cond] at positive
  split at positive <;> omega

theorem rssMax_lt {indir : Fin 128 → BitVec 32} {bound : BitVec 32} (positive : 0#32 < bound)
    (below : ∀ i, indir i < bound) : rssMax indir < bound := by
  rw [rssMax]
  refine List.foldlRecOn (motive := (· < bound)) _ _ positive fun most held i _ => ?_
  split
  · exact below i
  · exact held

theorem kept_start_iff (kept : Kept ⟨asked, s⟩)
    (recorded : asked.table.isSome → s.params.rssNum ≠ 0#32) :
    Kept ⟨asked, { mtkRssInit soc s with running := true }⟩ ↔
      (∀ key ∈ asked.key, key = defaultKey) ∧
        (s.params.rssNum ≠ 0#32 → Fits s.params.indirectionTable) := by
  have key : (mtkGetRxfh { mtkRssInit soc s with running := true }).key = defaultKey :=
    keyBytes_keyWords defaultKey
  have fitting : Fits (initParams soc s.params).indirectionTable ↔
      (s.params.rssNum ≠ 0#32 → Fits s.params.indirectionTable) := by
    by_cases fresh : s.params.rssNum = 0#32
    · rw [initParams, if_pos fresh]
      exact ⟨fun _ known => absurd fresh known,
        fun _ => (fits_spread_iff 4#32 (by decide)).2 (by decide)⟩
    · rw [initParams, if_neg fresh]
      exact ⟨fun fits _ => fits, fun fits => fits fresh⟩
  have shows := fields_iff (initParams soc s.params).indirectionTable
    (mtkRssInit soc s).regs.gloCfg (keyWords defaultKey)
  constructor
  · intro held
    refine ⟨fun asKey set => (held.key asKey set).symm.trans key, fitting.1 (shows.1 fun i => ?_)⟩
    exact (held.fields rfl i).trans (getRxfh_indir_toNat _ i)
  · rintro ⟨default, fits⟩
    refine ⟨fun asKey set => key.trans (default asKey set).symm, fun table set i => ?_,
      fun _ i => ?_, fun _ i => ?_⟩
    · have known := recorded (Option.isSome_of_mem set)
      rw [getRxfh_indir_toNat, ← kept.table table set i, getRxfh_indir_toNat]
      show ((initParams soc s.params).indirectionTable i).toNat = _
      rw [initParams, if_neg known]
    · rw [key]
      rfl
    · exact (shows.2 (fitting.2 fits) i).trans
        (getRxfh_indir_toNat { mtkRssInit soc s with running := true } i).symm

def Recorded (t : Tracked) : Prop := t.asked.table.isSome → t.state.params.rssNum ≠ 0#32

theorem mtkGetRxnfc_le (soc : Soc) : soc.mtkGetRxnfc ≤ 8 := by
  cases soc <;> decide

theorem rssMax_succ_ne_zero {indir : Fin 128 → BitVec 32}
    (valid : ∀ i, (indir i).toNat < soc.mtkGetRxnfc) : rssMax indir + 1#32 ≠ 0#32 := by
  have small : rssMax indir < 8#32 := rssMax_lt (by decide) fun i =>
    BitVec.lt_def.2 ((valid i).trans_le (mtkGetRxnfc_le soc))
  intro zero
  have value := congrArg BitVec.toNat zero
  rw [BitVec.lt_def] at small
  simp only [BitVec.toNat_add, BitVec.toNat_ofNat] at value small
  omega

theorem recorded_step {op : Op} (recorded : Recorded t) (valid : Valid soc t op)
    (stepped : t.step soc op = some t') : Recorded t' := by
  obtain rfl := Option.some_inj.1 stepped
  cases op with
  | setRxfh indir key hfunc =>
    cases hfunc with
    | other => exact recorded
    | noChange | top =>
      cases indir with
      | none => cases key <;> exact recorded
      | some indir => exact fun _ => rssMax_succ_ne_zero valid
  | rssCtrl num =>
    by_cases accepted : rssCtrlAccepts num
    · intro _
      have positive := accepted_toNat accepted
      simp only [State.step, rssCtrlWrite, if_pos accepted, setTable]
      intro zero
      simp [zero] at positive
    · simpa only [Recorded, Asked.after, State.step, rssCtrlWrite, if_neg accepted] using recorded
  | stop =>
    simp only [Recorded, Asked.after, State.step]
    split <;> exact recorded
  | start ready =>
    simp only [Recorded, Asked.after, State.step]
    split
    · exact recorded
    · split
      · intro asked
        rw [show (mtkRssInit soc t.state).params = initParams soc t.state.params from rfl, initParams,
          if_neg (recorded asked)]
        exact recorded asked
      · exact recorded
  | reset regs => exact recorded

theorem kept_step_iff {op : Op} (recorded : Recorded t) (kept : Kept t) (valid : Valid soc t op)
    (stepped : t.step soc op = some t') : Kept t' ↔ Meets t op := by
  obtain rfl := Option.some_inj.1 stepped
  cases op with
  | setRxfh indir key hfunc =>
    cases hfunc with
    | other => exact iff_of_true kept trivial
    | noChange | top =>
      cases indir with
      | none =>
        cases key with
        | none => exact iff_of_true kept trivial
        | some key => exact iff_of_true (kept_setKey kept) trivial
      | some indir =>
        have narrow : ∀ i, ((indir i).setWidth 8).toNat = (indir i).toNat := fun i => by
          have small := (valid i).trans_le (mtkGetRxnfc_le soc)
          rw [BitVec.toNat_setWidth]
          omega
        have fits : Fits (fun i => (indir i).setWidth 8) ↔ ∀ i, (indir i).toNat < 4 :=
          forall_congr' fun i => by rw [narrow i]
        cases key with
        | none => exact (kept_setTable_iff _ kept narrow).trans (imp_congr_right fun _ => fits)
        | some key =>
          exact (kept_setTable_iff _ (kept_setKey kept) narrow).trans (imp_congr_right fun _ => fits)
  | rssCtrl num =>
    by_cases accepted : rssCtrlAccepts num
    · have held := kept_setTable_iff (num.setWidth 32) kept (spread_toNat (num.setWidth 32))
      simp only [Asked.after, State.step, rssCtrlWrite, Meets, accepted,
        true_implies]
      exact held.trans (imp_congr_right fun _ => fits_spread_iff _ (accepted_toNat accepted))
    · simp only [Asked.after, State.step, rssCtrlWrite, if_neg accepted]
      exact iff_of_true kept fun _ yes => absurd yes accepted
  | stop =>
    refine iff_of_true ?_ trivial
    simp only [Asked.after, State.step]
    split
    · exact ⟨kept.key, kept.table, nofun, nofun⟩
    · exact kept
  | start ready =>
    by_cases running : t.state.running
    · simp only [Asked.after, State.step, if_pos running]
      cases ready with
      | false => exact iff_of_true kept trivial
      | true => exact iff_of_true kept (.inl running)
    · simp only [Asked.after, State.step, if_neg running]
      cases ready with
      | false => exact iff_of_true kept trivial
      | true =>
        refine (kept_start_iff kept recorded).trans ?_
        rw [Meets]
        exact ⟨.inr, fun meets => meets.resolve_left running⟩
  | reset regs => exact iff_of_true ⟨kept.key, kept.table, nofun, nofun⟩ trivial

end Step

/-! ## Runs -/

/-- The configuration is kept throughout a run exactly when each step finds and writes what the
registers can hold and no start replaces a key. -/
theorem configuration_kept_iff (soc : Soc) (regs : Regs) {ops : List Op}
    (valid : AllAllowed (Valid soc) (Tracked.step soc) ops ⟨⟨none, none⟩, probed regs⟩) :
    Throughout Kept (Tracked.step soc) ops ⟨⟨none, none⟩, probed regs⟩ ↔
      AllAllowed Meets (Tracked.step soc) ops ⟨⟨none, none⟩, probed regs⟩ :=
  throughout_iff Recorded (fun _ _ _ => ⟨_, rfl⟩)
    (fun _ _ _ recorded valid stepped => recorded_step recorded valid stepped)
    (fun _ _ _ recorded kept valid stepped => kept_step_iff recorded kept valid stepped) nofun
    ⟨nofun, nofun, nofun, nofun⟩ valid

def clearRegs : Regs := ⟨0#32, fun _ => 0#32, fun _ => 0#32⟩

/-- A table over three rings and a key are set while the DMA runs, then two rings are asked for. -/
def setWhileRunning : List Op :=
  [.start true, .setRxfh (some fun i => BitVec.ofNat 32 (i % 3)) (some fun _ => 0x5a#8) .top,
    .rssCtrl 2#64, .stop]

theorem configuration_kept_while_running :
    Throughout Kept (Tracked.step .mt7988) setWhileRunning ⟨⟨none, none⟩, probed clearRegs⟩ :=
  (configuration_kept_iff .mt7988 clearRegs (by decide +kernel)).2 (by decide +kernel)

theorem key_lost_at_restart : ¬∀ soc regs ops,
    AllAllowed (Valid soc) (Tracked.step soc) ops ⟨⟨none, none⟩, probed regs⟩ →
      Throughout Kept (Tracked.step soc) ops ⟨⟨none, none⟩, probed regs⟩ := by
  intro all
  have throughout := all .mt7986 clearRegs
    [.start true, .setRxfh none (some fun _ => 0#8) .top, .stop, .start true] (by decide +kernel)
  have last := (((throughout.2 _ rfl).2 _ rfl).2 _ rfl).2 _ rfl
  have first := congrFun (last.head.key _ rfl) 0
  exact absurd first (by decide +kernel)

end MetaFilogic.Eth.Rss
