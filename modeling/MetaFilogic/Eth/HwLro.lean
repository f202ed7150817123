import MetaFilogic.Hnat.Foe
import MetaFilogic.Library.Steps
import Mathlib.Data.Fintype.Basic

/-!
# Destination addresses of the LRO hardware

A MAC has two locations for rules, and all MACs share one table of destination addresses
in the hardware, which is searched by value.  A zero stands for a free entry there and for
a location without a rule.
-/

namespace MetaFilogic.Eth

open Function (update update_self update_of_ne update_eq_self)

inductive RxnfcErr where
  | EINVAL
  | EEXIST
  | EBUSY
  | ENOENT
  deriving DecidableEq

def MTK_MAX_LRO_IP_CNT : Nat := 2

def TCP_V4_FLOW : BitVec 32 := 1

def htonl (x : BitVec 32) : BitVec 32 := Hnat.swab32 x

/-- What `struct mtk_mac` has about LRO; `lro` is `NETIF_F_LRO` of the features. -/
structure LroMac where
  hwlroIp : Fin MTK_MAX_LRO_IP_CNT → BitVec 32
  hwlroIpCnt : Nat
  lro : Bool

structure HwLro (macs dips : Nat) where
  mac : Fin macs → LroMac
  dip : Fin dips → BitVec 32

inductive LroRequest (macs : Nat) where
  | ins (mac : Fin macs) (flowType ip4dst location : BitVec 32)
  | del (mac : Fin macs) (location : BitVec 32)
  | lro (mac : Fin macs) (on : Bool)

variable {macs dips : Nat}

/-! ## The table -/

section Table

variable (dip : Fin dips → BitVec 32) (ip4dst : BitVec 32)

def findDip : Option (Fin dips) := (List.finRange dips).find? fun i => dip i == ip4dst

def mtkHwlroAddIpaddrIdx : Except RxnfcErr (Fin dips) :=
  if (findDip dip ip4dst).isSome then .error .EEXIST
  else
    match findDip dip 0 with
    | some i => .ok i
    | none => .error .EBUSY

def mtkHwlroGetIpaddrIdx : Except RxnfcErr (Fin dips) :=
  match findDip dip ip4dst with
  | some i => .ok i
  | none => .error .ENOENT

end Table

def mtkHwlroGetIpCnt (hwlroIp : Fin MTK_MAX_LRO_IP_CNT → BitVec 32) : Nat :=
  (List.finRange MTK_MAX_LRO_IP_CNT).countP fun i => hwlroIp i != 0

/-- `rule_locs` of `mtk_hwlro_get_fdir_all(dev, cmd, rule_locs)`. -/
def mtkHwlroGetFdirAll (mac : LroMac) : List (Fin MTK_MAX_LRO_IP_CNT) :=
  (List.finRange MTK_MAX_LRO_IP_CNT).filter fun i => mac.hwlroIp i != 0

namespace HwLro

variable (s : HwLro macs dips)

def mtkHwlroValIpaddr (idx : Fin dips) (ip : BitVec 32) : HwLro macs dips :=
  { s with dip := update s.dip idx ip }

def mtkHwlroInvalIpaddr (idx : Fin dips) : HwLro macs dips :=
  { s with dip := update s.dip idx 0 }

def setRule (mac : Fin macs) (location : Fin MTK_MAX_LRO_IP_CNT) (ip : BitVec 32) :
    HwLro macs dips :=
  let hwlroIp := update (s.mac mac).hwlroIp location ip
  let rules := { s.mac mac with hwlroIp := hwlroIp, hwlroIpCnt := mtkHwlroGetIpCnt hwlroIp }
  { s with mac := update s.mac mac rules }

def mtkHwlroAddIpaddr (mac : Fin macs) (flowType ip4dst location : BitVec 32) :
    Except RxnfcErr Unit × HwLro macs dips :=
  if inside : flowType = TCP_V4_FLOW ∧ ip4dst ≠ 0 ∧ location.toNat < MTK_MAX_LRO_IP_CNT then
    match mtkHwlroAddIpaddrIdx s.dip (htonl ip4dst) with
    | .error e => (.error e, s)
    | .ok idx =>
      (.ok (), (s.setRule mac ⟨location.toNat, inside.2.2⟩ (htonl ip4dst)).mtkHwlroValIpaddr idx
        (htonl ip4dst))
  else (.error .EINVAL, s)

def mtkHwlroDelIpaddr (mac : Fin macs) (location : BitVec 32) :
    Except RxnfcErr Unit × HwLro macs dips :=
  if inside : location.toNat < MTK_MAX_LRO_IP_CNT then
    let place : Fin MTK_MAX_LRO_IP_CNT := ⟨location.toNat, inside⟩
    match mtkHwlroGetIpaddrIdx s.dip ((s.mac mac).hwlroIp place) with
    | .error e => (.error e, s)
    | .ok idx => (.ok (), (s.setRule mac place 0).mtkHwlroInvalIpaddr idx)
  else (.error .EINVAL, s)

/-- One pass of the loop in `mtk_hwlro_netdev_enable`. -/
def enableRule (mac : Fin macs) (s : HwLro macs dips) (i : Fin MTK_MAX_LRO_IP_CNT) :
    HwLro macs dips :=
  let ip := (s.mac mac).hwlroIp i
  if ip = 0 then s
  else
    match mtkHwlroGetIpaddrIdx s.dip ip with
    | .error _ => s
    | .ok idx => s.mtkHwlroValIpaddr idx ip

def mtkHwlroNetdevEnable (mac : Fin macs) : HwLro macs dips :=
  (List.finRange MTK_MAX_LRO_IP_CNT).foldl (enableRule mac) s

/-- One pass of the loop in `mtk_hwlro_netdev_disable`. -/
def disableRule (mac : Fin macs) (s : HwLro macs dips) (i : Fin MTK_MAX_LRO_IP_CNT) :
    HwLro macs dips :=
  let ip := (s.mac mac).hwlroIp i
  if ip = 0 then s
  else
    match mtkHwlroGetIpaddrIdx s.dip ip with
    | .error _ => s
    | .ok idx =>
      let rules := { s.mac mac with hwlroIp := update (s.mac mac).hwlroIp i 0 }
      mtkHwlroInvalIpaddr { s with mac := update s.mac mac rules } idx

def mtkHwlroNetdevDisable (mac : Fin macs) : HwLro macs dips :=
  let s := (List.finRange MTK_MAX_LRO_IP_CNT).foldl (disableRule mac) s
  { s with mac := update s.mac mac { s.mac mac with hwlroIpCnt := 0 } }

def mtkFixFeatures (mac : Fin macs) (on : Bool) : Bool :=
  on || mtkHwlroGetIpCnt (s.mac mac).hwlroIp != 0

/-- `mtk_set_features(dev, features)` after `mtk_fix_features`, as far as LRO goes. -/
def mtkSetFeatures (mac : Fin macs) (on : Bool) : HwLro macs dips :=
  let on := s.mtkFixFeatures mac on
  let s :=
    if on = (s.mac mac).lro then s
    else if on then s.mtkHwlroNetdevEnable mac
    else s.mtkHwlroNetdevDisable mac
  { s with mac := update s.mac mac { s.mac mac with lro := on } }

/-- `mtk_set_rxnfc(dev, cmd)` of a device with LRO, or a change of the feature. -/
def serve : LroRequest macs → Except RxnfcErr Unit × HwLro macs dips
  | .ins mac flowType ip4dst location => s.mtkHwlroAddIpaddr mac flowType ip4dst location
  | .del mac location => s.mtkHwlroDelIpaddr mac location
  | .lro mac on => (.ok (), s.mtkSetFeatures mac on)

def step (request : LroRequest macs) : Option (HwLro macs dips) := some (s.serve request).2

/-! ## What can go wrong -/

/-- No rule is put over another one, and when there is a free entry no rule is deleted where
there is none. -/
def Orderly : LroRequest macs → Prop
  | .ins mac flowType ip4dst location => ∀ inside : location.toNat < MTK_MAX_LRO_IP_CNT,
      flowType = TCP_V4_FLOW → ip4dst ≠ 0 → (∀ i, s.dip i ≠ htonl ip4dst) → (∃ i, s.dip i = 0) →
      (s.mac mac).hwlroIp ⟨location.toNat, inside⟩ = 0
  | .del mac location => ∀ inside : location.toNat < MTK_MAX_LRO_IP_CNT,
      (∃ i, s.dip i = 0) → (s.mac mac).hwlroIp ⟨location.toNat, inside⟩ ≠ 0
  | .lro .. => True

instance (request : LroRequest macs) : Decidable (s.Orderly request) :=
  match request with
  | .ins .. => inferInstanceAs (Decidable (∀ _, _ → _ → _ → _ → _))
  | .del .. => inferInstanceAs (Decidable (∀ _, _ → _))
  | .lro .. => inferInstanceAs (Decidable True)

/-- The hardware has the rules of all MACs, each of them once. -/
structure Consistent : Prop where
  dips : ∀ ip, ip ≠ 0 → ((∃ i, s.dip i = ip) ↔ ∃ mac l, (s.mac mac).hwlroIp l = ip)
  once : ∀ i j, s.dip i = s.dip j → s.dip i ≠ 0 → i = j
  rules : ∀ mac l mac' l', (s.mac mac).hwlroIp l = (s.mac mac').hwlroIp l' →
    (s.mac mac).hwlroIp l ≠ 0 → mac = mac' ∧ l = l'
  count : ∀ mac, (s.mac mac).hwlroIpCnt = (mtkHwlroGetFdirAll (s.mac mac)).length
  listed : ∀ mac l, l ∈ mtkHwlroGetFdirAll (s.mac mac) ↔ (s.mac mac).hwlroIp l ≠ 0

/-- Deleting a rule where there is none fails, and a request that fails changes nothing. -/
structure Answered (request : LroRequest macs) : Prop where
  empty : ∀ mac location, request = .del mac location →
    (∀ inside : location.toNat < MTK_MAX_LRO_IP_CNT,
      (s.mac mac).hwlroIp ⟨location.toNat, inside⟩ = 0) → ∃ e, (s.serve request).1 = .error e
  failed : ∀ e, (s.serve request).1 = .error e → (s.serve request).2 = s

structure Fresh : Prop where
  dip : ∀ i, s.dip i = 0
  rule : ∀ mac l, (s.mac mac).hwlroIp l = 0
  count : ∀ mac, (s.mac mac).hwlroIpCnt = 0

section Requests

variable {s : HwLro macs dips} {mac : Fin macs} {ip : BitVec 32} {idx : Fin dips}
  {place : Fin MTK_MAX_LRO_IP_CNT} {request : LroRequest macs}

theorem findDip_some {dip : Fin dips → BitVec 32} (found : findDip dip ip = some idx) :
    dip idx = ip := by
  have here := List.find?_some found
  exact eq_of_beq here

theorem findDip_none {dip : Fin dips → BitVec 32} : findDip dip ip = none ↔ ∀ i, dip i ≠ ip := by
  simp [findDip, List.find?_eq_none]

theorem addIpaddrIdx_ok {dip : Fin dips → BitVec 32}
    (found : mtkHwlroAddIpaddrIdx dip ip = .ok idx) : (∀ i, dip i ≠ ip) ∧ dip idx = 0 := by
  rw [mtkHwlroAddIpaddrIdx] at found
  split at found
  · cases found
  · rename_i absent
    refine ⟨findDip_none.mp (Option.not_isSome_iff_eq_none.mp absent), ?_⟩
    cases free : findDip dip 0 with
    | none =>
      rw [free] at found
      cases found
    | some i =>
      rw [free] at found
      cases found
      exact findDip_some free

theorem getIpaddrIdx_ok {dip : Fin dips → BitVec 32}
    (found : mtkHwlroGetIpaddrIdx dip ip = .ok idx) : dip idx = ip := by
  cases known : findDip dip ip with
  | none =>
    rw [mtkHwlroGetIpaddrIdx, known] at found
    cases found
  | some i =>
    rw [mtkHwlroGetIpaddrIdx, known] at found
    cases found
    exact findDip_some known

theorem getIpaddrIdx_error {dip : Fin dips → BitVec 32} (absent : ∀ i, dip i ≠ ip) :
    mtkHwlroGetIpaddrIdx dip ip = .error .ENOENT := by
  rw [mtkHwlroGetIpaddrIdx, findDip_none.mpr absent]

theorem getIpCnt_eq_length (mac : LroMac) :
    mtkHwlroGetIpCnt mac.hwlroIp = (mtkHwlroGetFdirAll mac).length :=
  List.countP_eq_length_filter ..

theorem mem_getFdirAll {mac : LroMac} : place ∈ mtkHwlroGetFdirAll mac ↔ mac.hwlroIp place ≠ 0 := by
  simp [mtkHwlroGetFdirAll]

theorem getIpCnt_eq_zero {hwlroIp : Fin MTK_MAX_LRO_IP_CNT → BitVec 32} :
    mtkHwlroGetIpCnt hwlroIp = 0 ↔ ∀ l, hwlroIp l = 0 := by
  simp [mtkHwlroGetIpCnt, List.countP_eq_zero]

theorem Fresh.consistent (fresh : s.Fresh) : s.Consistent where
  dips ip nonzero := by
    constructor
    · rintro ⟨i, rfl⟩
      exact absurd (fresh.dip i) nonzero
    · rintro ⟨mac, l, rfl⟩
      exact absurd (fresh.rule mac l) nonzero
  once i _ _ nonzero := absurd (fresh.dip i) nonzero
  rules mac l _ _ _ nonzero := absurd (fresh.rule mac l) nonzero
  count mac := by
    rw [← getIpCnt_eq_length, fresh.count]
    exact (getIpCnt_eq_zero.mpr (fresh.rule mac)).symm
  listed _ _ := mem_getFdirAll

theorem setRule_dip : (s.setRule mac place ip).dip = s.dip := rfl

theorem setRule_rule (mac' : Fin macs) (l : Fin MTK_MAX_LRO_IP_CNT) :
    ((s.setRule mac place ip).mac mac').hwlroIp l =
      if mac' = mac ∧ l = place then ip else (s.mac mac').hwlroIp l := by
  by_cases here : mac' = mac
  · subst here
    by_cases same : l = place
    · subst same
      simp [setRule]
    · simp [setRule, same]
  · simp [setRule, here]

theorem setRule_count (consistent : s.Consistent) (mac' : Fin macs) :
    ((s.setRule mac place ip).mac mac').hwlroIpCnt =
      (mtkHwlroGetFdirAll ((s.setRule mac place ip).mac mac')).length := by
  by_cases here : mac' = mac
  · subst here
    rw [← getIpCnt_eq_length]
    simp [setRule]
  · simp only [setRule, update_of_ne here]
    exact consistent.count mac'

/-- A rule and its entry may be replaced together, by nothing or by an address that is new. -/
theorem Consistent.set (consistent : s.Consistent) (fresh : ip = 0 ∨ ∀ i, s.dip i ≠ ip)
    (same : s.dip idx = (s.mac mac).hwlroIp place) :
    ((s.setRule mac place ip).mtkHwlroValIpaddr idx ip).Consistent where
  dips ip' nonzero := by
    simp only [mtkHwlroValIpaddr, setRule_rule]
    by_cases new : ip' = ip
    · subst new
      exact iff_of_true ⟨idx, update_self ..⟩ ⟨mac, place, if_pos ⟨rfl, rfl⟩⟩
    · constructor
      · rintro ⟨i, found⟩
        by_cases here : i = idx
        · subst here
          rw [setRule_dip, update_self] at found
          exact absurd found.symm new
        · rw [setRule_dip, update_of_ne here] at found
          obtain ⟨mac', l, rule⟩ := (consistent.dips ip' nonzero).mp ⟨i, found⟩
          refine ⟨mac', l, ?_⟩
          rw [if_neg, rule]
          rintro ⟨rfl, rfl⟩
          exact here (consistent.once i idx (found.trans (rule.symm.trans same.symm))
            (found ▸ nonzero))
      · rintro ⟨mac', l, found⟩
        split at found
        · exact absurd found.symm new
        · rename_i elsewhere
          obtain ⟨i, entry⟩ := (consistent.dips ip' nonzero).mpr ⟨mac', l, found⟩
          refine ⟨i, ?_⟩
          rw [setRule_dip, update_of_ne, entry]
          rintro rfl
          exact elsewhere (consistent.rules mac' l mac place
            (found.trans (entry.symm.trans same)) (found ▸ nonzero))
  once i j equal nonzero := by
    simp only [mtkHwlroValIpaddr, setRule_dip] at equal nonzero
    have new : ∀ k, k ≠ idx → s.dip k = ip → ip ≠ 0 → False := fun k _ found known =>
      fresh.elim known fun absent => absent k found
    by_cases first : i = idx <;> by_cases second : j = idx
    · rw [first, second]
    · rw [first, update_self, update_of_ne second] at equal
      rw [first, update_self] at nonzero
      exact (new j second equal.symm nonzero).elim
    · rw [second, update_self, update_of_ne first] at equal
      rw [update_of_ne first, equal] at nonzero
      exact (new i first equal nonzero).elim
    · rw [update_of_ne first, update_of_ne second] at equal
      rw [update_of_ne first] at nonzero
      exact consistent.once i j equal nonzero
  rules mac₁ l₁ mac₂ l₂ equal nonzero := by
    simp only [mtkHwlroValIpaddr, setRule_rule] at equal nonzero
    have new : ∀ mac' l, (s.mac mac').hwlroIp l = ip → ip ≠ 0 → False := fun mac' l found known =>
      fresh.elim known fun absent =>
        have ⟨i, entry⟩ := (consistent.dips ip known).mpr ⟨mac', l, found⟩
        absent i entry
    by_cases first : mac₁ = mac ∧ l₁ = place <;> by_cases second : mac₂ = mac ∧ l₂ = place
    · exact ⟨first.1.trans second.1.symm, first.2.trans second.2.symm⟩
    · rw [if_pos first, if_neg second] at equal
      rw [if_pos first] at nonzero
      exact (new mac₂ l₂ equal.symm nonzero).elim
    · rw [if_neg first, if_pos second] at equal
      rw [if_neg first, equal] at nonzero
      exact (new mac₁ l₁ equal nonzero).elim
    · rw [if_neg first, if_neg second] at equal
      rw [if_neg first] at nonzero
      exact consistent.rules mac₁ l₁ mac₂ l₂ equal nonzero
  count := setRule_count consistent
  listed _ _ := mem_getFdirAll

variable {location : BitVec 32}

theorem Consistent.add {flowType ip4dst : BitVec 32} (consistent : s.Consistent)
    (orderly : s.Orderly (.ins mac flowType ip4dst location)) :
    (s.mtkHwlroAddIpaddr mac flowType ip4dst location).2.Consistent := by
  rw [mtkHwlroAddIpaddr]
  split
  · rename_i inside
    split
    · exact consistent
    · rename_i idx found
      obtain ⟨fresh, free⟩ := addIpaddrIdx_ok found
      have unused := orderly inside.2.2 inside.1 inside.2.1 fresh ⟨idx, free⟩
      exact consistent.set (.inr fresh) (free.trans unused.symm)
  · exact consistent

theorem Consistent.del (consistent : s.Consistent) :
    (s.mtkHwlroDelIpaddr mac location).2.Consistent := by
  rw [mtkHwlroDelIpaddr]
  split
  · dsimp only
    split
    · exact consistent
    · rename_i found
      exact consistent.set (.inl rfl) (getIpaddrIdx_ok found)
  · exact consistent

theorem enableRule_eq (l : Fin MTK_MAX_LRO_IP_CNT) : enableRule mac s l = s := by
  rw [enableRule]
  split
  · rfl
  · split
    · rfl
    · rename_i idx found
      rw [mtkHwlroValIpaddr, ← getIpaddrIdx_ok found, update_eq_self]

theorem netdevEnable_eq : s.mtkHwlroNetdevEnable mac = s :=
  List.foldl_fixed' enableRule_eq _

/-- The loop of `mtk_hwlro_netdev_disable` finds no rule, as `mtk_fix_features` keeps the
feature on while there is one. -/
theorem netdevDisable_eq (none : ∀ l, (s.mac mac).hwlroIp l = 0) :
    s.mtkHwlroNetdevDisable mac =
      { s with mac := update s.mac mac { s.mac mac with hwlroIpCnt := 0 } } := by
  have pass : ∀ l, disableRule mac s l = s := fun l => by rw [disableRule, if_pos (none l)]
  rw [mtkHwlroNetdevDisable, List.foldl_fixed' pass]

theorem Consistent.congr {s' : HwLro macs dips} (consistent : s.Consistent)
    (dip : s'.dip = s.dip) (rule : ∀ mac, (s'.mac mac).hwlroIp = (s.mac mac).hwlroIp)
    (count : ∀ mac, (s'.mac mac).hwlroIpCnt = (s.mac mac).hwlroIpCnt) : s'.Consistent where
  dips ip nonzero := by simpa only [dip, rule] using consistent.dips ip nonzero
  once i j := by simpa only [dip] using consistent.once i j
  rules mac l mac' l' := by simpa only [rule] using consistent.rules mac l mac' l'
  count mac := by
    rw [count, consistent.count, ← getIpCnt_eq_length, ← getIpCnt_eq_length, rule]
  listed _ _ := mem_getFdirAll

theorem Consistent.setMac {rules : LroMac} (consistent : s.Consistent)
    (ips : rules.hwlroIp = (s.mac mac).hwlroIp)
    (count : rules.hwlroIpCnt = (s.mac mac).hwlroIpCnt) :
    Consistent { s with mac := update s.mac mac rules } := by
  refine consistent.congr rfl (fun mac' => ?_) fun mac' => ?_
  all_goals
    by_cases here : mac' = mac
    · subst here
      simp [ips, count]
    · simp [here]

theorem Consistent.setFeatures {on : Bool} (consistent : s.Consistent) :
    (s.mtkSetFeatures mac on).Consistent := by
  have disabled : s.mtkFixFeatures mac on = false → (s.mtkHwlroNetdevDisable mac).Consistent := by
    intro off
    have none : mtkHwlroGetIpCnt (s.mac mac).hwlroIp = 0 := by
      rw [mtkFixFeatures, Bool.or_eq_false_iff, bne_eq_false_iff_eq] at off
      exact off.2
    rw [netdevDisable_eq (getIpCnt_eq_zero.mp none)]
    refine consistent.setMac rfl ?_
    rw [consistent.count, ← getIpCnt_eq_length, none]
  have changed : (if s.mtkFixFeatures mac on = (s.mac mac).lro then s
      else if s.mtkFixFeatures mac on then s.mtkHwlroNetdevEnable mac
      else s.mtkHwlroNetdevDisable mac).Consistent := by
    split
    · exact consistent
    · split
      · rw [netdevEnable_eq]
        exact consistent
      · rename_i off
        exact disabled (Bool.eq_false_iff.mpr off)
  exact changed.setMac rfl rfl

theorem Consistent.step (consistent : s.Consistent) (orderly : s.Orderly request)
    {s' : HwLro macs dips} (stepped : s.step request = some s') : s'.Consistent := by
  cases stepped
  cases request with
  | ins mac flowType ip4dst location => exact consistent.add orderly
  | del mac location => exact consistent.del
  | lro mac on => exact consistent.setFeatures

theorem add_failed {flowType ip4dst : BitVec 32} {e : RxnfcErr}
    (failed : (s.mtkHwlroAddIpaddr mac flowType ip4dst location).1 = .error e) :
    (s.mtkHwlroAddIpaddr mac flowType ip4dst location).2 = s := by
  rw [mtkHwlroAddIpaddr] at failed ⊢
  split at failed
  · rename_i inside
    rw [dif_pos inside]
    split at failed
    · rfl
    · cases failed
  · rename_i outside
    rw [dif_neg outside]

theorem del_failed {e : RxnfcErr} (failed : (s.mtkHwlroDelIpaddr mac location).1 = .error e) :
    (s.mtkHwlroDelIpaddr mac location).2 = s := by
  rw [mtkHwlroDelIpaddr] at failed ⊢
  split at failed
  · rename_i inside
    rw [dif_pos inside]
    dsimp only at failed ⊢
    split at failed
    · rfl
    · cases failed
  · rename_i outside
    rw [dif_neg outside]

theorem del_empty (orderly : s.Orderly (.del mac location))
    (empty : ∀ inside : location.toNat < MTK_MAX_LRO_IP_CNT,
      (s.mac mac).hwlroIp ⟨location.toNat, inside⟩ = 0) :
    ∃ e, (s.mtkHwlroDelIpaddr mac location).1 = .error e := by
  rw [mtkHwlroDelIpaddr]
  split
  · rename_i inside
    have full : ∀ i, s.dip i ≠ 0 := fun i free => orderly inside ⟨i, free⟩ (empty inside)
    dsimp only
    rw [empty inside, getIpaddrIdx_error full]
    exact ⟨_, rfl⟩
  · exact ⟨_, rfl⟩

theorem Orderly.answered (orderly : s.Orderly request) : s.Answered request where
  empty mac location is empty := by
    subst is
    exact del_empty orderly empty
  failed e failed := by
    cases request with
    | ins mac flowType ip4dst location => exact add_failed failed
    | del mac location => exact del_failed failed
    | lro mac on => cases failed

/-- In every run whose requests are orderly the hardware has the rules of all MACs, and each
request is answered as it should be. -/
theorem hwlro_table {s₀ : HwLro macs dips} (fresh : s₀.Fresh) (run : Reaches Orderly step s₀ s) :
    s.Consistent ∧ ∀ request, s.Orderly request → s.Answered request :=
  ⟨run.invariant (fun _ _ _ (consistent : Consistent _) orderly stepped =>
    consistent.step orderly stepped) fresh.consistent, fun _ orderly => orderly.answered⟩

end Requests

/-! ## Two rules -/

def noRules : HwLro 2 4 := ⟨fun _ => ⟨fun _ => 0, 0, true⟩, fun _ => 0⟩

theorem noRules_fresh : noRules.Fresh := ⟨fun _ => rfl, fun _ _ => rfl, fun _ => rfl⟩

def twoRules : List (LroRequest 2) := [.ins 0 TCP_V4_FLOW 1 0, .ins 1 TCP_V4_FLOW 2 1, .del 0 0]

theorem twoRules_orderly : AllAllowed Orderly step twoRules noRules := by
  refine ⟨by decide, fun s₁ first => ?_⟩
  cases first
  refine ⟨by decide +kernel, fun s₂ second => ?_⟩
  cases second
  exact ⟨by decide +kernel, fun _ _ => trivial⟩

theorem hwlro_table_two :
    ∃ s, runSteps step twoRules noRules = some s ∧
      (List.finRange 4).map s.dip = [0, htonl 2, 0, 0] ∧ s.Consistent := by
  have table : ((runSteps step twoRules noRules).map fun s => (List.finRange 4).map s.dip) =
      some [0, htonl 2, 0, 0] := by
    decide +kernel
  obtain ⟨s, run, dips⟩ := Option.map_eq_some_iff.mp table
  exact ⟨s, run, dips, (hwlro_table noRules_fresh (reaches_of_runSteps twoRules_orderly run)).1⟩

/-- A rule that is put over another one leaves the entry of the other in the hardware. -/
theorem replaced_rule_kept :
    ¬∀ (macs dips : Nat) (s₀ s : HwLro macs dips), s₀.Fresh → Reaches anyStep step s₀ s →
      s.Consistent ∧ ∀ request, s.Answered request := by
  intro always
  have kept : ((runSteps step [.ins 0 TCP_V4_FLOW 1 0, .ins 0 TCP_V4_FLOW 2 0] noRules).map
      fun s => (s.dip 0, (List.finRange 2).map fun mac =>
        (List.finRange MTK_MAX_LRO_IP_CNT).map (s.mac mac).hwlroIp)) =
        some (htonl 1, [[htonl 2, 0], [0, 0]]) := by
    decide +kernel
  obtain ⟨s, run, seen⟩ := Option.map_eq_some_iff.mp kept
  obtain ⟨dip, rules⟩ := Prod.mk.inj seen
  have consistent := (always 2 4 _ s noRules_fresh (reaches_of_runSteps allAllowed_anyStep run)).1
  obtain ⟨mac, l, rule⟩ := (consistent.dips (htonl 1) (by decide)).mp ⟨0, dip⟩
  have absent : ∀ mac ∈ (List.finRange 2).map (fun mac =>
      (List.finRange MTK_MAX_LRO_IP_CNT).map (s.mac mac).hwlroIp), htonl 1 ∉ mac := by
    rw [rules]
    decide
  exact absent _ (List.mem_map_of_mem (List.mem_finRange mac))
    (rule ▸ List.mem_map_of_mem (List.mem_finRange l))

end HwLro

end MetaFilogic.Eth
