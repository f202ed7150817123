import MetaFilogic.Hnat.Mcast
import Mathlib.Data.List.Nodup
import Mathlib.Tactic.FinCases
import Mathlib.Tactic.IntervalCases

/-!
# The multicast list of ports

The list `hnat_mcast_list_update` keeps is a map from groups to sets of ports: a join
adds a port to the set, a leave removes it.  That set is the set of ports with a member
as long as no leave arrives while another member stays on the same port, and then
`hnat_is_mcast_uni` tells whether one GDMA port has all members of a group.
-/

namespace MetaFilogic.Hnat

variable {cfg : McastConfig} {mlist : List McastListEntry} {joins : Joins}

/-! ## The list as a map -/

def McastListEntry.key (entry : McastListEntry) : Mac × BitVec 16 := (entry.dmac, entry.vid)

def portsOf (mlist : List McastListEntry) (vid : BitVec 16) (dmac : Mac) : BitVec 8 :=
  (hnatMcastListFind mlist dmac vid).elim 0 McastListEntry.mcPort

/-- A group has at most one entry, and an entry at least one port. -/
structure Keyed (mlist : List McastListEntry) : Prop where
  nodup : (mlist.map McastListEntry.key).Nodup
  ports : ∀ entry ∈ mlist, entry.mcPort ≠ 0

theorem matches_eq (dmac : Mac) (vid : BitVec 16) :
    (fun entry : McastListEntry => entry.dmac == dmac && entry.vid == vid) =
      fun entry => decide (entry.key = (dmac, vid)) := by
  funext entry
  rw [Bool.eq_iff_iff, Bool.and_eq_true, beq_iff_eq, beq_iff_eq, decide_eq_true_eq,
    McastListEntry.key, Prod.mk.injEq]

theorem hnatMcastListFind_eq (mlist : List McastListEntry) (dmac : Mac) (vid : BitVec 16) :
    hnatMcastListFind mlist dmac vid =
      mlist.find? fun entry => decide (entry.key = (dmac, vid)) := by
  rw [hnatMcastListFind, matches_eq]

theorem hnatMcastListFind_cons (entry : McastListEntry) (rest : List McastListEntry) (dmac : Mac)
    (vid : BitVec 16) : hnatMcastListFind (entry :: rest) dmac vid =
      if entry.key = (dmac, vid) then some entry else hnatMcastListFind rest dmac vid := by
  rw [hnatMcastListFind_eq, hnatMcastListFind_eq, List.find?_cons]
  by_cases same : entry.key = (dmac, vid)
  · rw [decide_eq_true same, if_pos same]
  · rw [decide_eq_false same, if_neg same]

variable {dmac : Mac} {vid : BitVec 16} {entry : McastListEntry} {kmallocOk : Bool}
  {event : MdbEvent} {port : McastPort}

theorem hnatMcastListFind_some (found : hnatMcastListFind mlist dmac vid = some entry) :
    entry ∈ mlist ∧ entry.key = (dmac, vid) := by
  rw [hnatMcastListFind_eq] at found
  have same := List.find?_some found
  exact ⟨List.mem_of_find?_eq_some found, of_decide_eq_true same⟩

theorem hnatMcastListFind_none :
    hnatMcastListFind mlist dmac vid = none ↔
      (dmac, vid) ∉ mlist.map McastListEntry.key := by
  rw [hnatMcastListFind_eq, List.find?_eq_none, List.mem_map]
  constructor
  · rintro missing ⟨entry, member, same⟩
    exact missing entry member (decide_eq_true same)
  · intro missing entry member found
    exact missing ⟨entry, member, of_decide_eq_true found⟩

/-! ## The three changes of the list -/

theorem portsOf_append (absent : hnatMcastListFind mlist entry.dmac entry.vid = none)
    (vid : BitVec 16) (dmac : Mac) :
    portsOf (mlist ++ [entry]) vid dmac =
      if vid = entry.vid ∧ dmac = entry.dmac then entry.mcPort else portsOf mlist vid dmac := by
  unfold portsOf
  rw [hnatMcastListFind_eq, List.find?_append, ← hnatMcastListFind_eq, ← hnatMcastListFind_eq,
    hnatMcastListFind_cons]
  by_cases same : vid = entry.vid ∧ dmac = entry.dmac
  · obtain ⟨rfl, rfl⟩ := same
    rw [absent, Option.none_or, if_pos (show entry.key = (entry.dmac, entry.vid) from rfl),
      if_pos ⟨rfl, rfl⟩, Option.elim_some]
  · have key : entry.key ≠ (dmac, vid) := fun found =>
      same ⟨(congrArg Prod.snd found).symm, (congrArg Prod.fst found).symm⟩
    have nothing : hnatMcastListFind [] dmac vid = none := rfl
    rw [if_neg key, if_neg same, nothing, Option.or_none]

theorem Keyed.append (keyed : Keyed mlist)
    (absent : hnatMcastListFind mlist entry.dmac entry.vid = none) (ports : entry.mcPort ≠ 0) :
    Keyed (mlist ++ [entry]) where
  nodup := by
    rw [List.map_append, List.map_cons, List.map_nil, ← List.concat_eq_append]
    exact keyed.nodup.concat (hnatMcastListFind_none.mp absent)
  ports other member := by
    rcases List.mem_append.mp member with old | new
    · exact keyed.ports other old
    · rw [List.mem_singleton.mp new]
      exact ports

theorem setMcPort_keys (mlist : List McastListEntry) (dmac : Mac) (vid : BitVec 16)
    (mcPort : BitVec 8) :
    (setMcPort mlist dmac vid mcPort).map McastListEntry.key = mlist.map McastListEntry.key := by
  induction mlist with
  | nil => rfl
  | cons entry rest ih =>
    unfold setMcPort
    split
    · rfl
    · rw [List.map_cons, ih, List.map_cons]

theorem setMcPort_cons (entry : McastListEntry) (rest : List McastListEntry) (dmac : Mac)
    (vid : BitVec 16) (mcPort : BitVec 8) : setMcPort (entry :: rest) dmac vid mcPort =
      if entry.key = (dmac, vid) then { entry with mcPort } :: rest
      else entry :: setMcPort rest dmac vid mcPort := by
  have decided : (entry.dmac == dmac && entry.vid == vid) = decide (entry.key = (dmac, vid)) :=
    congrFun (matches_eq dmac vid) entry
  rw [setMcPort, decided]
  exact if_congr decide_eq_true_iff rfl rfl

theorem portsOf_setMcPort {mcPort : BitVec 8} (present : hnatMcastListFind mlist dmac vid ≠ none)
    (v : BitVec 16) (m : Mac) :
    portsOf (setMcPort mlist dmac vid mcPort) v m =
      if v = vid ∧ m = dmac then mcPort else portsOf mlist v m := by
  induction mlist with
  | nil => exact absurd rfl present
  | cons entry rest ih =>
    rw [setMcPort_cons]
    unfold portsOf
    by_cases here : entry.key = (dmac, vid)
    · rw [if_pos here, hnatMcastListFind_cons, hnatMcastListFind_cons]
      have renamed : ({ entry with mcPort } : McastListEntry).key = (dmac, vid) := here
      rw [renamed, here]
      by_cases same : v = vid ∧ m = dmac
      · obtain ⟨rfl, rfl⟩ := same
        rw [if_pos rfl, if_pos ⟨rfl, rfl⟩, Option.elim_some]
      · have other : (dmac, vid) ≠ (m, v) := fun same' =>
          same ⟨(congrArg Prod.snd same').symm, (congrArg Prod.fst same').symm⟩
        rw [if_neg other, if_neg other, if_neg same]
    · rw [hnatMcastListFind_cons, if_neg here] at present
      rw [if_neg here, hnatMcastListFind_cons,
        hnatMcastListFind_cons]
      by_cases at_entry : entry.key = (m, v)
      · have other : ¬(v = vid ∧ m = dmac) := by
          rintro ⟨rfl, rfl⟩
          exact here at_entry
        rw [if_pos at_entry, if_pos at_entry, if_neg other]
      · rw [if_neg at_entry, if_neg at_entry]
        exact ih present

theorem Keyed.setMcPort {mcPort : BitVec 8} (keyed : Keyed mlist) (ports : mcPort ≠ 0) :
    Keyed (setMcPort mlist dmac vid mcPort) where
  nodup := by
    rw [setMcPort_keys]
    exact keyed.nodup
  ports := by
    have all := keyed.ports
    clear keyed
    induction mlist with
    | nil => exact all
    | cons entry rest ih =>
      unfold Hnat.setMcPort
      split
      · exact List.forall_mem_cons.mpr ⟨ports, (List.forall_mem_cons.mp all).2⟩
      · exact List.forall_mem_cons.mpr
          ⟨(List.forall_mem_cons.mp all).1, ih (List.forall_mem_cons.mp all).2⟩

theorem listDel_cons (entry : McastListEntry) (rest : List McastListEntry) (dmac : Mac)
    (vid : BitVec 16) : listDel (entry :: rest) dmac vid =
      if entry.key = (dmac, vid) then rest else entry :: listDel rest dmac vid := by
  unfold listDel
  rw [matches_eq, List.eraseP_cons, cond_eq_ite]
  exact if_congr decide_eq_true_iff rfl rfl

theorem portsOf_listDel (keyed : Keyed mlist) (v : BitVec 16) (m : Mac) :
    portsOf (listDel mlist dmac vid) v m =
      if v = vid ∧ m = dmac then 0 else portsOf mlist v m := by
  have nodup := keyed.nodup
  clear keyed
  unfold portsOf
  induction mlist with
  | nil => exact (ite_self _).symm
  | cons entry rest ih =>
    obtain ⟨missing, nodupRest⟩ := List.nodup_cons.mp nodup
    rw [listDel_cons]
    by_cases here : entry.key = (dmac, vid)
    · rw [if_pos here, hnatMcastListFind_cons, here]
      rw [here] at missing
      by_cases same : v = vid ∧ m = dmac
      · obtain ⟨rfl, rfl⟩ := same
        rw [hnatMcastListFind_none.mpr missing, if_pos ⟨rfl, rfl⟩, Option.elim_none]
      · have other : (dmac, vid) ≠ (m, v) := fun same' =>
          same ⟨(congrArg Prod.snd same').symm, (congrArg Prod.fst same').symm⟩
        rw [if_neg other, if_neg same]
    · rw [if_neg here, hnatMcastListFind_cons, hnatMcastListFind_cons]
      by_cases at_entry : entry.key = (m, v)
      · have other : ¬(v = vid ∧ m = dmac) := by
          rintro ⟨rfl, rfl⟩
          exact here at_entry
        rw [if_pos at_entry, if_pos at_entry, if_neg other]
      · rw [if_neg at_entry, if_neg at_entry]
        exact ih nodupRest

theorem Keyed.listDel (keyed : Keyed mlist) :
    Keyed (listDel mlist dmac vid) where
  nodup := keyed.nodup.sublist (List.eraseP_sublist.map McastListEntry.key)
  ports entry member := keyed.ports entry (List.mem_of_mem_eraseP member)

/-! ## One notification -/

def changePorts (type : MdbType) (port : McastPort) (ports : BitVec 8) : BitVec 8 :=
  match type with
  | .newMdb => ports ||| portBit port
  | .delMdb => ports &&& ~~~portBit port
  | .other => ports

theorem portBit_getLsbD (port : McastPort) {i : Nat} (inside : i < 8) :
    (portBit port).getLsbD i = decide (i = port.val) := by
  have all : ∀ port : McastPort, ∀ i < 8, (portBit port).getLsbD i = decide (i = port.val) := by
    decide
  exact all port i inside

theorem portBit_ne_zero (port : McastPort) : portBit port ≠ 0 := by
  fin_cases port <;> decide

theorem portsOf_found (found : hnatMcastListFind mlist dmac vid = some entry) :
    portsOf mlist vid dmac = entry.mcPort := by
  rw [portsOf, found, Option.elim_some]

theorem portsOf_missing (missing : hnatMcastListFind mlist dmac vid = none) :
    portsOf mlist vid dmac = 0 := by
  rw [portsOf, missing, Option.elim_none]

theorem portsOf_same (vid : BitVec 16) (dmac : Mac) (v : BitVec 16) (m : Mac) :
    portsOf mlist v m =
      if v = vid ∧ m = dmac then portsOf mlist vid dmac else portsOf mlist v m := by
  split
  · rename_i same
    rw [same.1, same.2]
  · rfl

/-- A notification whose allocation succeeds changes the set of its own group. -/
theorem hnatMcastListUpdate_ports (keyed : Keyed mlist)
    (about : event.member cfg = some (vid, dmac, port))
    (allocated : event.type = .newMdb → hnatMcastListFind mlist dmac vid = none →
      kmallocOk = true) :
    Keyed (hnatMcastListUpdate cfg kmallocOk event mlist).2 ∧
      ∀ v m, portsOf (hnatMcastListUpdate cfg kmallocOk event mlist).2 v m =
        if v = vid ∧ m = dmac then changePorts event.type port (portsOf mlist vid dmac)
        else portsOf mlist v m := by
  unfold MdbEvent.member at about
  unfold hnatMcastListUpdate
  rcases device : event.dev with _ | dev <;>
    rcases known : getMacFromMdbEntry event.addr with _ | mac <;>
    simp only [device, known] at about ⊢
  · exact absurd about nofun
  · exact absurd about nofun
  · exact absurd about nofun
  cases resolved : cfg.portOf dev with
  | none =>
    rw [resolved] at about
    exact absurd about nofun
  | some port₀ =>
    rw [resolved] at about
    obtain ⟨rfl, rfl, rfl⟩ : event.vid = vid ∧ mac = dmac ∧ port₀ = port := by
      cases about
      exact ⟨rfl, rfl, rfl⟩
    dsimp only
    cases type : event.type <;> cases found : hnatMcastListFind mlist mac event.vid <;>
      dsimp only [changePorts]
    case newMdb.none =>
      have first : (0 : BitVec 8) ||| portBit port₀ = portBit port₀ := BitVec.zero_or
      rw [if_pos (allocated type found), portsOf_missing found, first]
      exact ⟨keyed.append found (portBit_ne_zero port₀), portsOf_append found⟩
    case newMdb.some entry =>
      have present : hnatMcastListFind mlist mac event.vid ≠ none := by
        rw [found]
        exact nofun
      have ports := keyed.ports entry (hnatMcastListFind_some found).1
      rw [portsOf_found found]
      exact ⟨keyed.setMcPort fun none => ports (BitVec.or_eq_zero_iff.mp none).1,
        portsOf_setMcPort present⟩
    case delMdb.none =>
      have nothing : (0 : BitVec 8) &&& ~~~portBit port₀ = 0 := BitVec.zero_and
      rw [portsOf_missing found, nothing, ← portsOf_missing found]
      exact ⟨keyed, portsOf_same _ _⟩
    case delMdb.some entry =>
      have present : hnatMcastListFind mlist mac event.vid ≠ none := by
        rw [found]
        exact nofun
      rw [portsOf_found found]
      split
      · rename_i nobody
        rw [nobody]
        exact ⟨keyed.listDel, portsOf_listDel keyed⟩
      · rename_i somebody
        exact ⟨keyed.setMcPort somebody, portsOf_setMcPort present⟩
    all_goals exact ⟨keyed, portsOf_same _ _⟩

theorem hnatMcastListUpdate_unresolved (about : event.member cfg = none) :
    (hnatMcastListUpdate cfg kmallocOk event mlist).2 = mlist := by
  unfold MdbEvent.member at about
  unfold hnatMcastListUpdate
  rcases device : event.dev with _ | dev <;>
    rcases known : getMacFromMdbEntry event.addr with _ | mac <;>
    simp only [device, known] at about ⊢
  rw [Option.map_eq_none_iff] at about
  rw [about]

/-! ## Sets of ports and members -/

structure Tracks (mlist : List McastListEntry) (joins : Joins) : Prop where
  keyed : Keyed mlist
  bits : ∀ vid dmac, ∀ i < 8, (portsOf mlist vid dmac).getLsbD i = true ↔
    ∃ p : McastPort, p.val = i ∧ 0 < joins vid dmac p

theorem Tracks.init : Tracks [] fun _ _ _ => 0 where
  keyed := ⟨List.nodup_nil, fun _ member => absurd member List.not_mem_nil⟩
  bits vid dmac i _ := by
    have empty : portsOf [] vid dmac = 0 := rfl
    rw [empty]
    exact iff_of_false (by simp) fun ⟨_, _, positive⟩ => absurd positive (Nat.lt_irrefl 0)

/-- What a notification needs: a leave takes the last member of its port, and an entry
for a new group can be allocated. -/
def Settled (cfg : McastConfig) (mlist : List McastListEntry) (joins : Joins) (kmallocOk : Bool)
    (event : MdbEvent) : Prop :=
  ∀ vid dmac port, event.member cfg = some (vid, dmac, port) →
    (event.type = .delMdb → joins vid dmac port ≤ 1) ∧
      (event.type = .newMdb → hnatMcastListFind mlist dmac vid = none → kmallocOk = true)

theorem changePorts_bits {type : MdbType} (tracks : Tracks mlist joins)
    (last : type = .delMdb → joins vid dmac port ≤ 1) {i : Nat} (inside : i < 8) :
    (changePorts type port (portsOf mlist vid dmac)).getLsbD i = true ↔
      ∃ p : McastPort, p.val = i ∧ 0 < joins.counted type vid dmac port vid dmac p := by
  have before := tracks.bits vid dmac i inside
  have other (different : i ≠ port.val) :
      (∃ p : McastPort, p.val = i ∧ 0 < joins.counted type vid dmac port vid dmac p) ↔
        ∃ p : McastPort, p.val = i ∧ 0 < joins vid dmac p := by
    refine exists_congr fun p => and_congr_right fun at_i => ?_
    rw [Joins.counted_port]
    rintro rfl
    exact different at_i.symm
  cases type with
  | newMdb =>
    rw [changePorts, BitVec.getLsbD_or, portBit_getLsbD port inside]
    by_cases same : i = port.val
    · refine iff_of_true (by rw [decide_eq_true same, Bool.or_true]) ⟨port, same.symm, ?_⟩
      rw [Joins.counted_new]
      exact Nat.succ_pos _
    · rw [decide_eq_false same, Bool.or_false, before, other same]
  | delMdb =>
    rw [changePorts, BitVec.getLsbD_and, BitVec.getLsbD_not, portBit_getLsbD port inside]
    by_cases same : i = port.val
    · refine iff_of_false (by simp [same]) ?_
      rintro ⟨p, at_i, positive⟩
      obtain rfl : p = port := Fin.ext (at_i.trans same)
      rw [Joins.counted_del] at positive
      have single := last rfl
      omega
    · rw [decide_eq_false same, other same, decide_eq_true inside, Bool.not_false, Bool.and_true,
        Bool.and_true, before]
  | other => rw [changePorts, before, Joins.counted_unknown]

theorem Tracks.step (tracks : Tracks mlist joins)
    (settled : Settled cfg mlist joins kmallocOk event) :
    Tracks (hnatMcastListUpdate cfg kmallocOk event mlist).2 (joins.after cfg event) := by
  unfold Joins.after
  cases about : event.member cfg with
  | none =>
    rw [hnatMcastListUpdate_unresolved about]
    exact tracks
  | some member =>
    obtain ⟨vid, dmac, port⟩ := member
    obtain ⟨last, allocated⟩ := settled vid dmac port about
    obtain ⟨keyed, ports⟩ := hnatMcastListUpdate_ports tracks.keyed about allocated
    refine ⟨keyed, fun v m i inside => ?_⟩
    rw [ports]
    dsimp only
    split
    · rename_i same
      obtain ⟨rfl, rfl⟩ := same
      exact changePorts_bits tracks last inside
    · rename_i different
      rw [Joins.counted_other different]
      exact tracks.bits v m i inside

/-! ## Every run -/

def listAfter (cfg : McastConfig) (events : List (MdbEvent × Bool)) : List McastListEntry :=
  events.foldl (fun mlist event => (hnatMcastListUpdate cfg event.2 event.1 mlist).2) []

theorem tracks_run {events : List (MdbEvent × Bool)}
    (settled : ∀ past event kmallocOk, past ++ [(event, kmallocOk)] <+: events →
      Settled cfg (listAfter cfg past) (joinsAfter cfg (past.map Prod.fst)) kmallocOk event) :
    Tracks (listAfter cfg events) (joinsAfter cfg (events.map Prod.fst)) := by
  induction events using List.reverseRecOn with
  | nil => exact Tracks.init
  | append_singleton past event ih =>
    obtain ⟨event, kmallocOk⟩ := event
    have before := ih fun earlier event kmallocOk part =>
      settled earlier event kmallocOk (part.trans (List.prefix_append ..))
    have step := before.step (settled past event kmallocOk (List.prefix_refl _))
    rw [List.map_append, List.map_cons, List.map_nil, joinsAfter_append]
    have list : listAfter cfg (past ++ [(event, kmallocOk)]) =
        (hnatMcastListUpdate cfg kmallocOk event (listAfter cfg past)).2 := by
      simp only [listAfter, List.foldl_append, List.foldl_cons, List.foldl_nil]
    rw [list]
    exact step

def isGdma (port : McastPort) : Prop :=
  port = MCAST_TO_GDMA1 ∨ port = MCAST_TO_GDMA2 ∨ port = MCAST_TO_GDMA3

def OneGdma (joins : Joins) (vid : BitVec 16) (dmac : Mac) : Prop :=
  ∃ gdma, isGdma gdma ∧ ∀ p, 0 < joins vid dmac p ↔ p = gdma

theorem isMcastPortGdm_iff (mcPort : BitVec 8) :
    isMcastPortGdm mcPort = true ↔ ∃ gdma, isGdma gdma ∧ mcPort = portBit gdma := by
  simp only [isMcastPortGdm, isGdma, Bool.or_eq_true, beq_iff_eq, or_and_right, exists_or,
    exists_eq_left, or_assoc]

theorem Tracks.isMcastUni (tracks : Tracks mlist joins) (skb : McastSkb) :
    hnatIsMcastUni mlist skb = true ↔ OneGdma joins skb.vid skb.hDest := by
  have ports : hnatIsMcastUni mlist skb = isMcastPortGdm (portsOf mlist skb.vid skb.hDest) := by
    unfold hnatIsMcastUni portsOf
    cases hnatMcastListFind mlist skb.hDest skb.vid <;> rfl
  rw [ports, isMcastPortGdm_iff]
  refine exists_congr fun gdma => and_congr_right fun _ => ?_
  have bits := tracks.bits skb.vid skb.hDest
  constructor
  · intro single p
    have at_p := bits p (p.isLt.trans (by decide))
    rw [single, portBit_getLsbD gdma (p.isLt.trans (by decide)), decide_eq_true_iff] at at_p
    constructor
    · exact fun positive => Fin.ext (at_p.mpr ⟨p, rfl, positive⟩)
    · rintro rfl
      obtain ⟨q, at_q, positive⟩ := at_p.mp rfl
      rwa [Fin.ext at_q] at positive
  · intro single
    refine BitVec.eq_of_getLsbD_eq fun i inside => ?_
    rw [Bool.eq_iff_iff, bits i inside, portBit_getLsbD gdma inside, decide_eq_true_iff]
    constructor
    · rintro ⟨p, rfl, positive⟩
      rw [(single p).mp positive]
    · rintro rfl
      exact ⟨gdma, rfl, (single gdma).mpr rfl⟩

/-- In a run where each leave takes the last member of its port and no allocation
fails, a packet counts as unicast exactly when one GDMA port has all members of its
group. -/
theorem hnatIsMcastUni_iff {events : List (MdbEvent × Bool)}
    (settled : ∀ past event kmallocOk, past ++ [(event, kmallocOk)] <+: events →
      Settled cfg (listAfter cfg past) (joinsAfter cfg (past.map Prod.fst)) kmallocOk event) :
    ∀ past, past <+: events → ∀ skb, hnatIsMcastUni (listAfter cfg past) skb = true ↔
      OneGdma (joinsAfter cfg (past.map Prod.fst)) skb.vid skb.hDest :=
  fun _ part => (tracks_run fun earlier event kmallocOk inPast =>
    settled earlier event kmallocOk (inPast.trans part)).isMcastUni

theorem Settled.of_member (about : event.member cfg = some (vid, dmac, port))
    (last : event.type = .delMdb → joins vid dmac port ≤ 1)
    (allocated : event.type = .newMdb → hnatMcastListFind mlist dmac vid = none →
      kmallocOk = true) : Settled cfg mlist joins kmallocOk event := by
  intro v m p member
  cases about.symm.trans member
  exact ⟨last, allocated⟩

def groupSkb : McastSkb := ⟨false, 0, 0x01005e010101⟩

theorem hnatIsMcastUni_iff_last_leave :
    hnatIsMcastUni (listAfter mcastBoard [(mdb .newMdb eth0 1, true), (mdb .delMdb eth0 1, true)])
        groupSkb = true ↔
      OneGdma (joinsAfter mcastBoard [mdb .newMdb eth0 1, mdb .delMdb eth0 1]) groupSkb.vid
        groupSkb.hDest := by
  refine hnatIsMcastUni_iff (fun past event kmallocOk part => ?_) _ (List.prefix_refl _) groupSkb
  have join : Settled mcastBoard (listAfter mcastBoard []) (joinsAfter mcastBoard []) true
      (mdb .newMdb eth0 1) := .of_member rfl nofun fun _ _ => rfl
  have leave : Settled mcastBoard (listAfter mcastBoard [(mdb .newMdb eth0 1, true)])
      (joinsAfter mcastBoard [mdb .newMdb eth0 1]) true (mdb .delMdb eth0 1) :=
    .of_member rfl (by decide +kernel) fun _ _ => rfl
  match past, part with
  | [], part =>
    obtain ⟨same, _⟩ := List.cons_prefix_cons.mp part
    cases same
    exact join
  | [e], part =>
    obtain ⟨rfl, later⟩ := List.cons_prefix_cons.mp part
    obtain ⟨same, _⟩ := List.cons_prefix_cons.mp later
    cases same
    exact leave
  | _ :: _ :: _, part => simpa using part.length_le

/-- With two members behind GDMA1 and one behind GDMA2, the leave of one of the two
makes the group unicast to GDMA2. -/
theorem hnatIsMcastUni_member_missed :
    ¬∀ (cfg : McastConfig) (events : List (MdbEvent × Bool)), (∀ event ∈ events, event.2 = true) →
      ∀ skb, hnatIsMcastUni (listAfter cfg events) skb = true ↔
        OneGdma (joinsAfter cfg (events.map Prod.fst)) skb.vid skb.hDest := by
  intro always
  obtain ⟨gdma, _, single⟩ := (always mcastBoard [(mdb .newMdb eth0 1, true),
    (mdb .newMdb eth0 1, true), (mdb .newMdb eth1 1, true), (mdb .delMdb eth0 1, true)]
    (by simp) groupSkb).mp (by decide +kernel)
  have first := (single MCAST_TO_GDMA1).mp (by decide +kernel)
  have second := (single MCAST_TO_GDMA2).mp (by decide +kernel)
  exact absurd (first.trans second.symm) (by decide)

end MetaFilogic.Hnat
