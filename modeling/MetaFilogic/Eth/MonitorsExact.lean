import MetaFilogic.Eth.Monitors
import MetaFilogic.Library.Steps

/-!
# When a hang monitor asks for a reset

What a monitor should do is told by the history of its samples: it asks for a reset when a ring or
a MAC has hung at this sample and at the four before.  The monitors do so as long as their counters
have room, count every sample, and compare queues of the lower half of a word.
-/

namespace MetaFilogic.Eth.Monitors

open Streak

/-! ## Histories -/

/-- What was seen of a ring when it was last looked at, and at which samples it has hung; the last
comes first. -/
structure Past (Seen : Type) where
  last : Seen
  held : List Bool

def Past.look {Seen : Type} (past : Past Seen) (held : Bool) (seen : Seen) : Past Seen :=
  ⟨seen, held :: past.held⟩

def Past.skip {Seen : Type} (past : Past Seen) : Past Seen := ⟨past.last, false :: past.held⟩

/-- A monitor: its memory, what its samples tell, and whether something has hung at the last five
samples.  `Sound` is what it needs of a sample to count right. -/
structure Monitor where
  Memory : Type
  Sample : Type
  History : Type
  memory : Memory
  history : History
  monitor : Memory → Sample → Memory × Option FeEvent
  record : History → Sample → History
  Hung : History → Prop
  Sound : Memory → History → Sample → Prop

structure Watched (w : Monitor) where
  memory : w.Memory
  history : w.History
  returned : Option FeEvent

namespace Watched

variable {w : Monitor}

def start (w : Monitor) : Watched w := ⟨w.memory, w.history, none⟩

def step (s : Watched w) (x : w.Sample) : Option (Watched w) :=
  some ⟨(w.monitor s.memory x).1, w.record s.history x, (w.monitor s.memory x).2⟩

def Sound (s : Watched w) (x : w.Sample) : Prop := w.Sound s.memory s.history x

/-- The monitor asks for a reset exactly when something has hung at the last five samples. -/
def Exact (s : Watched w) : Prop := s.returned.isSome = true ↔ w.Hung s.history

theorem exact_of_relation (related : w.Memory → w.History → Prop)
    (first : related w.memory w.history) (none : ¬w.Hung w.history)
    (next : ∀ m h x, related m h → w.Sound m h x →
      related (w.monitor m x).1 (w.record h x) ∧
        ((w.monitor m x).2.isSome = true ↔ w.Hung (w.record h x)))
    {s : Watched w} (run : Reaches Sound step (start w) s) : s.Exact := by
  let kept (s : Watched w) : Prop := related s.memory s.history ∧ s.Exact
  suffices both : kept s from both.2
  have begin : kept (start w) := ⟨first, iff_of_false Bool.false_ne_true none⟩
  refine run.invariant (fun s x s' both sound stepped => ?_) begin
  obtain rfl := Option.some_inj.mp stepped
  exact next s.memory s.history x both.1 sound

end Watched

/-! ## Monitors of one counter -/

def watcher {Seen Sample : Type} (present : Bool) (hangs : Seen → Sample → Bool)
    (seen : Sample → Seen) (zero : Seen) : Monitor where
  Memory := Seen × BitVec 8
  Sample := Sample
  History := Past Seen
  memory := (zero, 0)
  history := ⟨zero, []⟩
  monitor m x := if present then watch hangs seen m x else (m, none)
  record h x := if present then h.look (hangs h.last x) (seen x) else h
  Hung h := HeldFor 5 h.held
  Sound m h x := hangs h.last x = true → m.2 ≠ 255

theorem ask_iff {hangs : Bool} {count : BitVec 8} {looks : List Bool}
    (counts : Counts (bump hangs count) (hangs :: looks)) :
    (hangs && decide (5 ≤ bump hangs count)) = true ↔ HeldFor 5 (hangs :: looks) := by
  rw [Bool.and_eq_true, decide_eq_true_eq, counts.le_iff]
  exact ⟨fun both => both.2, fun held => ⟨(heldFor_succ.mp held).1, held⟩⟩

theorem not_heldFor_nil : ¬HeldFor 5 [] := fun held => nomatch held 0 (by decide)

theorem isSome_ite {α : Type} {test : Bool} {a : α} :
    (if test then some a else none).isSome = true ↔ test = true := by
  cases test <;> simp

theorem watcher_exact {Seen Sample : Type} (present : Bool) {hangs : Seen → Sample → Bool}
    {seen : Sample → Seen} {zero : Seen} {s : Watched (watcher present hangs seen zero)}
    (run : Reaches Watched.Sound Watched.step (Watched.start _) s) : s.Exact := by
  let related (m : Seen × BitVec 8) (h : Past Seen) : Prop :=
    m.1 = h.last ∧ Counts m.2 h.held ∧ (present = false → h.held = [])
  refine Watched.exact_of_relation related ⟨rfl, Counts.nil, fun _ => rfl⟩ not_heldFor_nil ?_ run
  rintro ⟨pre, count⟩ ⟨last, held⟩ x ⟨same, counts, absent⟩ sound
  obtain rfl : pre = last := same
  cases present with
  | false =>
    refine ⟨⟨rfl, counts, fun _ => absent rfl⟩, nofun, fun hung => ?_⟩
    have none : held = [] := absent rfl
    rw [none] at hung
    exact absurd hung not_heldFor_nil
  | true =>
    have counts' := counts.bump sound
    exact ⟨⟨rfl, counts', nofun⟩, isSome_ite.trans (ask_iff counts')⟩

/-! ## Output queues -/

def opqCount (port : Nat) (reg : BitVec 32) : BitVec 12 :=
  reg.extractLsb' (if port % 2 = 1 then 16 else 0) 12

def opqStuck (port : Nat) (last : BitVec 12) (reg : BitVec 32) : Bool :=
  opqCount port reg != 0 && opqCount port reg == last

def recordPort (netsysV1 : Bool) (port : Nat) (h : Past (BitVec 12)) (reg : BitVec 32) :
    Past (BitVec 12) :=
  if netsysV1 then h else h.look (opqStuck port h.last reg) (opqCount port reg)

/-- What `mtk_check_pse_oq_sta` needs: the queue of an odd port is never stuck, and the counter has
room. -/
def PortSound (port : Nat) (m : PortMem) (h : Past (BitVec 12)) (reg : BitVec 32) : Prop :=
  opqStuck port h.last reg = true → port % 2 = 0 ∧ m.errOpq ≠ 255

/-- What a port remembers: the count, or nothing when it is an odd port's. -/
structure PortRelated (port : Nat) (m : PortMem) (h : Past (BitVec 12)) : Prop where
  preOpq : m.preOpq = if port % 2 = 1 then 0 else h.last.setWidth 16
  errOpq : Counts m.errOpq h.held

theorem masked_even (reg : BitVec 32) :
    (reg &&& 0x00000fff).setWidth 16 = (reg.extractLsb' 0 12).setWidth 16 := by
  have mask : ∀ i < 16, (0x00000fff : BitVec 32).getLsbD i = decide (i < 12) := by decide
  refine BitVec.eq_of_getLsbD_eq fun i inside => ?_
  rw [BitVec.getLsbD_setWidth, BitVec.getLsbD_setWidth, BitVec.getLsbD_and, mask i inside,
    BitVec.getLsbD_extractLsb', Nat.zero_add, Bool.and_comm (reg.getLsbD i)]

/-- `cur_opq` has 16 bits, and the queue of an odd port lies above them. -/
theorem masked_odd (reg : BitVec 32) : (reg &&& 0x0fff0000).setWidth 16 = (0 : BitVec 16) := by
  have mask : ∀ i < 16, (0x0fff0000 : BitVec 32).getLsbD i = false := by decide
  refine BitVec.eq_of_getLsbD_eq fun i inside => ?_
  rw [BitVec.getLsbD_setWidth, BitVec.getLsbD_and, mask i inside, Bool.and_false, Bool.and_false]
  exact BitVec.getLsbD_zero.symm

theorem widen_beq {a b : BitVec 12} : (a.setWidth 16 == b.setWidth 16) = (a == b) := by
  have inj : a.setWidth 16 = b.setWidth 16 ↔ a = b := by
    refine ⟨fun same => ?_, fun same => same ▸ rfl⟩
    have back := congrArg (BitVec.setWidth 12) same
    rwa [BitVec.setWidth_setWidth_of_le _ (by decide), BitVec.setWidth_setWidth_of_le _ (by decide),
      BitVec.setWidth_eq, BitVec.setWidth_eq] at back
  rw [Bool.eq_iff_iff, beq_iff_eq, beq_iff_eq, inj]

theorem PortRelated.check {netsysV1 : Bool} {port : Nat} {m : PortMem} {h : Past (BitVec 12)}
    {reg : BitVec 32} (related : PortRelated port m h) (sound : PortSound port m h reg) :
    PortRelated port (mtkCheckPseOqSta netsysV1 port reg m) (recordPort netsysV1 port h reg) := by
  rw [mtkCheckPseOqSta, recordPort]
  cases netsysV1 with
  | true => exact related
  | false =>
    by_cases odd : port % 2 = 1
    · have free : opqStuck port h.last reg = false := by
        rw [Bool.eq_false_iff]
        intro stuck
        have even := (sound stuck).1
        omega
      simp only [Bool.false_eq_true, if_false, if_pos odd, free, masked_odd]
      exact ⟨(if_pos odd).symm, rfl⟩
    · have same : (reg &&& 0x00000fff).setWidth 16 = (opqCount port reg).setWidth 16 := by
        rw [opqCount, if_neg odd]
        exact masked_even reg
      have pre := related.preOpq
      rw [if_neg odd] at pre
      have stuck : ((opqCount port reg).setWidth 16 != 0 &&
          (opqCount port reg).setWidth 16 == m.preOpq) = opqStuck port h.last reg := by
        have zero := widen_beq (a := opqCount port reg) (b := 0)
        rw [pre, widen_beq, opqStuck, bne, bne, ← zero]
        rfl
      simp only [Bool.false_eq_true, if_false, if_neg odd, same, stuck]
      exact ⟨(if_neg odd).symm, related.errOpq.bump fun held => (sound held).2⟩

theorem PortRelated.start (port : Nat) : PortRelated port ⟨0, 0⟩ ⟨0, []⟩ := by
  refine ⟨?_, Counts.nil⟩
  split <;> rfl

structure PortRun where
  memory : PortMem
  history : Past (BitVec 12)

namespace PortRun

variable {netsysV1 : Bool} {port : Nat}

def start : PortRun := ⟨⟨0, 0⟩, ⟨0, []⟩⟩

def step (netsysV1 : Bool) (port : Nat) (s : PortRun) (reg : BitVec 32) : Option PortRun :=
  some ⟨mtkCheckPseOqSta netsysV1 port reg s.memory, recordPort netsysV1 port s.history reg⟩

def Sound (port : Nat) (s : PortRun) (reg : BitVec 32) : Prop :=
  PortSound port s.memory s.history reg

/-- `err_opq` is for how many samples in a row the queue has been stuck, up to what it can hold. -/
def Exact (s : PortRun) : Prop := s.memory.errOpq.toNat = min (streak s.history.held) 255

theorem exact_of_sound {s : PortRun} (run : Reaches (Sound port) (step netsysV1 port) start s) :
    s.Exact := by
  have begin : PortRelated port start.memory start.history := PortRelated.start port
  have next : ∀ (s : PortRun) reg (s' : PortRun), PortRelated port s.memory s.history →
      Sound port s reg → step netsysV1 port s reg = some s' →
        PortRelated port s'.memory s'.history := by
    intro s reg s' related sound stepped
    obtain rfl := Option.some_inj.mp stepped
    exact related.check sound
  have counts : s.memory.errOpq.toNat = streak s.history.held :=
    (run.invariant next begin).errOpq
  rw [Exact, ← counts]
  omega

end PortRun

/-! ## Monitors of several rings -/

def bank {M X H : Type} (n : Nat) (event : FeEvent) (ring : Nat → M → X → M × Bool) (zero : M)
    (past : H) (record : Nat → H → X → H) (Hung : H → Prop) (Sound : Nat → M → H → X → Prop) :
    Monitor where
  Memory := Nat → M
  Sample := Nat → X
  History := Nat → H
  memory _ := zero
  history _ := past
  monitor m x :=
    (fun i => if i < n then (ring i (m i) (x i)).1 else m i,
      if (List.range n).any fun i => (ring i (m i) (x i)).2 then some event else none)
  record h x i := if i < n then record i (h i) (x i) else h i
  Hung h := ∃ i < n, Hung (h i)
  Sound m h x := ∀ i < n, Sound i (m i) (h i) (x i)

theorem any_range_iff {n : Nat} {test : Nat → Bool} {Holds : Nat → Prop}
    (same : ∀ i < n, test i = true ↔ Holds i) :
    (List.range n).any test = true ↔ ∃ i < n, Holds i := by
  rw [List.any_eq_true]
  constructor
  · rintro ⟨i, inside, holds⟩
    exact ⟨i, List.mem_range.mp inside, (same i (List.mem_range.mp inside)).mp holds⟩
  · rintro ⟨i, inside, holds⟩
    exact ⟨i, List.mem_range.mpr inside, (same i inside).mpr holds⟩

theorem bank_exact {M X H : Type} (n : Nat) (event : FeEvent) (ring : Nat → M → X → M × Bool)
    (zero : M) (past : H) (record : Nat → H → X → H) (Hung : H → Prop)
    (Sound : Nat → M → H → X → Prop) (Related : Nat → M → H → Prop)
    (first : ∀ i, Related i zero past) (none : ¬Hung past)
    (next : ∀ i m h x, Related i m h → Sound i m h x →
      Related i (ring i m x).1 (record i h x) ∧ ((ring i m x).2 = true ↔ Hung (record i h x)))
    {s : Watched (bank n event ring zero past record Hung Sound)}
    (run : Reaches Watched.Sound Watched.step (Watched.start _) s) : s.Exact := by
  let related (m : Nat → M) (h : Nat → H) : Prop := ∀ i < n, Related i (m i) (h i)
  refine Watched.exact_of_relation related (fun i _ => first i) ?_ ?_ run
  · rintro ⟨i, -, hung⟩
    exact none hung
  · intro m h x kept sound
    have each := fun i inside => next i (m i) (h i) (x i) (kept i inside) (sound i inside)
    refine ⟨fun i inside => ?_, isSome_ite.trans (any_range_iff fun i inside => ?_)⟩
    · simp only [bank, if_pos inside]
      exact (each i inside).1
    · simp only [bank, if_pos inside]
      exact (each i inside).2

/-! ## WDMA -/

structure WdmaTxPast where
  ports : Nat → Past (BitVec 12)
  rings : Nat → Past (BitVec 32)

def recordPorts (netsysV1 : Bool) (h : WdmaTxPast) (x : WdmaTxSample) (port : Nat) :
    Past (BitVec 12) :=
  if port ∈ wdmaTxPorts then recordPort netsysV1 port (h.ports port) (x.oqSta port)
  else h.ports port

def outputStuck (netsysV1 : Bool) (h : WdmaTxPast) (x : WdmaTxSample) : Bool :=
  wdmaTxPorts.any fun port => decide (3 ≤ streak (recordPorts netsysV1 h x port).held)

def recordWdmaTx (netsysV1 : Bool) (h : WdmaTxPast) (x : WdmaTxSample) : WdmaTxPast where
  ports := recordPorts netsysV1 h x
  rings i :=
    if i < MTK_WDMA_CNT then
      (h.rings i).look (wdmaTxHangs (h.rings i).last (outputStuck netsysV1 h x) x i) (x.dtx i)
    else h.rings i

/-- What `mtk_monitor_wdma_tx` remembers. -/
structure WdmaTxRelated (m : WdmaTx) (h : WdmaTxPast) : Prop where
  ports : ∀ port ∈ wdmaTxPorts, PortRelated port (m.ports port) (h.ports port)
  preDtx : ∀ i < MTK_WDMA_CNT, m.preDtx i = (h.rings i).last
  hangCount : ∀ i < MTK_WDMA_CNT, Counts (m.hangCount i) (h.rings i).held

/-- What `mtk_monitor_wdma_tx` needs of a sample. -/
structure WdmaTxSound (netsysV1 : Bool) (m : WdmaTx) (h : WdmaTxPast) (x : WdmaTxSample) : Prop where
  ports : ∀ port ∈ wdmaTxPorts, PortSound port (m.ports port) (h.ports port) (x.oqSta port)
  rings : ∀ i < MTK_WDMA_CNT,
    wdmaTxHangs (h.rings i).last (outputStuck netsysV1 h x) x i = true → m.hangCount i ≠ 255

theorem WdmaTxRelated.monitor {netsysV1 : Bool} {m : WdmaTx} {h : WdmaTxPast} {x : WdmaTxSample}
    (related : WdmaTxRelated m h) (sound : WdmaTxSound netsysV1 m h x) :
    WdmaTxRelated (mtkMonitorWdmaTx netsysV1 m x).1 (recordWdmaTx netsysV1 h x) ∧
      ((mtkMonitorWdmaTx netsysV1 m x).2.isSome = true ↔
        ∃ i < MTK_WDMA_CNT, HeldFor 5 ((recordWdmaTx netsysV1 h x).rings i).held) := by
  have checked : ∀ port ∈ wdmaTxPorts,
      PortRelated port (mtkCheckPseOqSta netsysV1 port (x.oqSta port) (m.ports port))
        (recordPorts netsysV1 h x port) := by
    intro port member
    rw [recordPorts, if_pos member]
    exact (related.ports port member).check (sound.ports port member)
  have stuck : (wdmaTxPorts.any fun port => decide (3 ≤ (if port ∈ wdmaTxPorts then
      mtkCheckPseOqSta netsysV1 port (x.oqSta port) (m.ports port) else m.ports port).errOpq)) =
        outputStuck netsysV1 h x := by
    rw [outputStuck, Bool.eq_iff_iff, List.any_eq_true, List.any_eq_true]
    refine exists_congr fun port => and_congr_right fun member => ?_
    rw [if_pos member, decide_eq_true_eq, decide_eq_true_eq, BitVec.le_def,
      (checked port member).errOpq]
    rfl
  have counts : ∀ i < MTK_WDMA_CNT, Counts
      (bump (wdmaTxHangs (m.preDtx i) (outputStuck netsysV1 h x) x i) (m.hangCount i))
      (wdmaTxHangs (m.preDtx i) (outputStuck netsysV1 h x) x i :: (h.rings i).held) := by
    intro i inside
    refine (related.hangCount i inside).bump ?_
    rw [related.preDtx i inside]
    exact sound.rings i inside
  refine ⟨⟨fun port member => ?_, fun i inside => ?_, fun i inside => ?_⟩,
    isSome_ite.trans (any_range_iff fun i inside => ?_)⟩
  · simp only [mtkMonitorWdmaTx, if_pos member]
    exact checked port member
  · simp only [mtkMonitorWdmaTx, recordWdmaTx, if_pos inside]
    rfl
  · simp only [mtkMonitorWdmaTx, recordWdmaTx, if_pos inside, stuck]
    rw [← related.preDtx i inside]
    exact counts i inside
  · simp only [recordWdmaTx, if_pos inside, stuck]
    rw [← related.preDtx i inside]
    exact ask_iff (counts i inside)

def wdmaTxMonitor (netsysV1 : Bool) : Monitor where
  Memory := WdmaTx
  Sample := WdmaTxSample
  History := WdmaTxPast
  memory := ⟨fun _ => ⟨0, 0⟩, fun _ => 0, fun _ => 0⟩
  history := ⟨fun _ => ⟨0, []⟩, fun _ => ⟨0, []⟩⟩
  monitor := mtkMonitorWdmaTx netsysV1
  record := recordWdmaTx netsysV1
  Hung h := ∃ i < MTK_WDMA_CNT, HeldFor 5 (h.rings i).held
  Sound := WdmaTxSound netsysV1

theorem wdmaTx_exact {netsysV1 : Bool} {s : Watched (wdmaTxMonitor netsysV1)}
    (run : Reaches Watched.Sound Watched.step (Watched.start _) s) : s.Exact := by
  refine Watched.exact_of_relation WdmaTxRelated
    ⟨fun port _ => PortRelated.start port, fun _ _ => rfl, fun _ _ => Counts.nil⟩
    (fun hung => ?_) (fun _ _ _ related sound => related.monitor sound) run
  obtain ⟨i, -, held⟩ := hung
  exact not_heldFor_nil held

/-- A ring of `mtk_monitor_wdma_rx`: it hangs in either of two ways. -/
def recordWdmaRx (h : Past WdmaRxSeen) (x : WdmaRxSample) : Past WdmaRxSeen :=
  if x.examined then h.look (x.connsysBusy h.last || x.netsysBusy h.last) x.seen else h.skip

/-- What a ring needs of a sample: it is left out only when nothing has been counted, and it does
not hang in one way while the other is counted. -/
structure WdmaRxSound (m : WdmaRx) (h : Past WdmaRxSeen) (x : WdmaRxSample) : Prop where
  examined : x.examined = false → m.connsys = 0 ∧ m.netsys = 0
  connsys : x.examined = true → x.connsysBusy h.last = true → m.netsys = 0 ∧ m.connsys ≠ 255
  netsys : x.examined = true → x.netsysBusy h.last = true → m.connsys = 0 ∧ m.netsys ≠ 255

structure WdmaRxRelated (m : WdmaRx) (h : Past WdmaRxSeen) : Prop where
  pre : m.pre = h.last
  counts : m.netsys = 0 ∧ Counts m.connsys h.held ∨ m.connsys = 0 ∧ Counts m.netsys h.held

variable {m : WdmaRx} {h : Past WdmaRxSeen} {i : Nat}

theorem WdmaRxRelated.connsys_counts (related : WdmaRxRelated m h) (none : m.netsys = 0) :
    Counts m.connsys h.held := by
  rcases related.counts with ⟨-, counts⟩ | ⟨zero, counts⟩
  · exact counts
  · rw [zero, ← none]
    exact counts

theorem WdmaRxRelated.netsys_counts (related : WdmaRxRelated m h) (none : m.connsys = 0) :
    Counts m.netsys h.held := by
  rcases related.counts with ⟨zero, counts⟩ | ⟨-, counts⟩
  · rw [zero, ← none]
    exact counts
  · exact counts

theorem not_heldFor_false {looks : List Bool} : ¬HeldFor 5 (false :: looks) :=
  fun held => Bool.false_ne_true (heldFor_succ.mp held).1

theorem WdmaRxRelated.ring {x : WdmaRxSample} (related : WdmaRxRelated m h)
    (sound : WdmaRxSound m h x) :
    WdmaRxRelated (wdmaRxRing m x).1 (recordWdmaRx h x) ∧
      ((wdmaRxRing m x).2 = true ↔ HeldFor 5 (recordWdmaRx h x).held) := by
  rw [wdmaRxRing, recordWdmaRx, related.pre]
  cases examined : x.examined with
  | false =>
    obtain ⟨connsys, netsys⟩ := sound.examined examined
    exact ⟨⟨related.pre, .inl ⟨netsys, Counts.skip connsys⟩⟩,
      iff_of_false Bool.false_ne_true not_heldFor_false⟩
  | true =>
    rw [if_pos rfl, if_pos rfl]
    cases connsysBusy : x.connsysBusy h.last with
    | true =>
      obtain ⟨none, room⟩ := sound.connsys examined connsysBusy
      have counts : Counts (bump true m.connsys) (true :: h.held) :=
        (related.connsys_counts none).bump fun _ => room
      rw [if_pos rfl, Bool.true_or]
      refine ⟨⟨rfl, .inl ⟨none, counts⟩⟩, ?_⟩
      rw [decide_eq_true_eq, none, or_iff_left (by decide)]
      exact counts.le_iff
    | false =>
      rw [if_neg Bool.false_ne_true, Bool.false_or]
      cases netsysBusy : x.netsysBusy h.last with
      | true =>
        obtain ⟨none, room⟩ := sound.netsys examined netsysBusy
        have counts : Counts (bump true m.netsys) (true :: h.held) :=
          (related.netsys_counts none).bump fun _ => room
        rw [if_pos rfl]
        refine ⟨⟨rfl, .inr ⟨none, counts⟩⟩, ?_⟩
        rw [decide_eq_true_eq, none, or_iff_right (by decide)]
        exact counts.le_iff
      | false =>
        exact ⟨⟨rfl, .inl ⟨rfl, Counts.skip rfl⟩⟩,
          iff_of_false Bool.false_ne_true not_heldFor_false⟩

def wdmaRxMonitor : Monitor :=
  { bank MTK_WDMA_CNT .startReset (fun _ => wdmaRxRing) ⟨⟨0, 0, 0, 0⟩, 0, 0⟩ ⟨⟨0, 0, 0, 0⟩, []⟩
      (fun _ => recordWdmaRx) (fun h => HeldFor 5 h.held) (fun _ => WdmaRxSound) with
    monitor := mtkMonitorWdmaRx }

theorem wdmaRx_exact {s : Watched wdmaRxMonitor}
    (run : Reaches Watched.Sound Watched.step (Watched.start _) s) : s.Exact :=
  bank_exact MTK_WDMA_CNT .startReset (fun _ => wdmaRxRing) _ _ (fun _ => recordWdmaRx)
    (fun h => HeldFor 5 h.held) (fun _ => WdmaRxSound) (fun _ => WdmaRxRelated)
    (fun _ => ⟨rfl, .inl ⟨rfl, Counts.nil⟩⟩) not_heldFor_nil
    (fun _ _ _ _ related sound => related.ring sound) run

/-! ## GDM -/

/-- A MAC of `mtk_monitor_gdm_rx`: its GMAC and its GDM hang apart from each other. -/
structure GdmRxPast where
  rxCnt : BitVec 32
  fsm : BitVec 32
  ipq : BitVec 32
  gdm : List Bool
  gmac : List Bool

def recordGdmRx (i : Nat) (h : GdmRxPast) (x : GdmRxSample) : GdmRxPast :=
  if x.running then
    if !x.xgdm then
      { h with rxCnt := x.rxCnt, gdm := false :: h.gdm, gmac := x.gmacHangs h.rxCnt :: h.gmac }
    else if i ≠ MTK_GMAC1_ID then
      ⟨x.rxCnt, x.fsm, x.ipq i, x.gdmHangs i h.rxCnt h.fsm h.ipq :: h.gdm, false :: h.gmac⟩
    else { h with rxCnt := x.rxCnt, gdm := false :: h.gdm, gmac := false :: h.gmac }
  else { h with gdm := false :: h.gdm, gmac := false :: h.gmac }

def GdmRxSample.looksGmac (x : GdmRxSample) : Bool := x.running && !x.xgdm

def GdmRxSample.looksGdm (x : GdmRxSample) (i : Nat) : Bool :=
  x.running && x.xgdm && decide (i ≠ MTK_GMAC1_ID)

/-- What a MAC needs of a sample: a counter is left out only when it is zero, it has room, and the
GDM of GMAC3, whose queue lies in the upper half of its word, does not hang. -/
structure GdmRxSound (i : Nat) (m : GdmRx) (h : GdmRxPast) (x : GdmRxSample) : Prop where
  gmac : if x.looksGmac then x.gmacHangs h.rxCnt = true → m.gmac ≠ 255 else m.gmac = 0
  gdm : if x.looksGdm i then
      x.gdmHangs i h.rxCnt h.fsm h.ipq = true → i = 1 ∧ m.gdm ≠ 255
    else m.gdm = 0

structure GdmRxRelated (i : Nat) (m : GdmRx) (h : GdmRxPast) : Prop where
  rxCnt : m.preRxCnt = h.rxCnt
  fsm : m.preFsm = h.fsm
  ipq : m.preIpq = h.ipq.setWidth 16
  small : i = 1 → h.ipq &&& 0xfff = h.ipq
  gdm : Counts m.gdm h.gdm
  gmac : Counts m.gmac h.gmac

theorem widen_low {ipq : BitVec 32} (small : ipq &&& 0xfff = ipq) :
    (ipq.setWidth 16).setWidth 32 = ipq := by
  have mask : ∀ i < 32, (0xfff : BitVec 32).getLsbD i = true → i < 16 := by decide
  refine BitVec.eq_of_getLsbD_eq fun i inside => ?_
  rw [BitVec.getLsbD_setWidth, BitVec.getLsbD_setWidth, decide_eq_true inside, Bool.true_and]
  by_cases low : i < 16
  · rw [decide_eq_true low, Bool.true_and]
  · have none : (0xfff : BitVec 32).getLsbD i = false := by
      rw [Bool.eq_false_iff]
      exact fun bit => low (mask i inside bit)
    rw [decide_eq_false low, Bool.false_and, ← small, BitVec.getLsbD_and, none, Bool.and_false]

/-- `pre_ipq_gdm` has 16 bits, and a queue in the upper half of its word lies above them. -/
theorem high_eq_widen {reg : BitVec 32} {pre : BitVec 16}
    (same : reg &&& 0x0fff0000 = pre.setWidth 32) : reg &&& 0x0fff0000 = 0#32 := by
  have mask : ∀ i < 16, (0x0fff0000 : BitVec 32).getLsbD i = false := by decide
  refine BitVec.eq_of_getLsbD_eq fun i inside => ?_
  rw [BitVec.getLsbD_zero]
  by_cases low : i < 16
  · rw [BitVec.getLsbD_and, mask i low, Bool.and_false]
  · rw [same, BitVec.getLsbD_setWidth, BitVec.getLsbD_of_ge _ _ (Nat.le_of_not_lt low),
      Bool.and_false]

/-- The queue of GMAC2 is compared in full, and that of GMAC3 is never found unchanged. -/
theorem gdmHangs_widen {x : GdmRxSample} {rxCnt fsm ipq : BitVec 32}
    (small : i = 1 → ipq &&& 0xfff = ipq) (sound : x.gdmHangs i rxCnt fsm ipq = true → i = 1) :
    x.gdmHangs i rxCnt fsm ((ipq.setWidth 16).setWidth 32) = x.gdmHangs i rxCnt fsm ipq := by
  by_cases gmac2 : i = 1
  · rw [widen_low (small gmac2)]
  · have none : x.gdmHangs i rxCnt fsm ipq = false := by
      rw [Bool.eq_false_iff]
      exact fun hangs => gmac2 (sound hangs)
    rw [none, Bool.eq_false_iff]
    intro hangs
    simp only [GdmRxSample.gdmHangs, GdmRxSample.ipq, gdmQueueMask, if_neg gmac2,
      Bool.and_eq_true, beq_iff_eq, bne_iff_ne] at hangs
    exact hangs.1.2.2 (high_eq_widen hangs.1.2.1)

theorem GdmRxRelated.mac {m : GdmRx} {h : GdmRxPast} {x : GdmRxSample}
    (related : GdmRxRelated i m h) (sound : GdmRxSound i m h x) :
    GdmRxRelated i (gdmRxMac i m x).1 (recordGdmRx i h x) ∧
      ((gdmRxMac i m x).2 = true ↔
        HeldFor 5 (recordGdmRx i h x).gmac ∨ HeldFor 5 (recordGdmRx i h x).gdm) := by
  obtain ⟨gmac, gdm⟩ := sound
  have quiet : ¬(HeldFor 5 (false :: h.gmac) ∨ HeldFor 5 (false :: h.gdm)) :=
    not_or.mpr ⟨not_heldFor_false, not_heldFor_false⟩
  rw [gdmRxMac, recordGdmRx]
  cases running : x.running with
  | false =>
    simp only [GdmRxSample.looksGmac, GdmRxSample.looksGdm, running, Bool.false_and,
      Bool.false_eq_true, if_false] at gmac gdm
    exact ⟨⟨related.rxCnt, related.fsm, related.ipq, related.small, Counts.skip gdm,
      Counts.skip gmac⟩, iff_of_false Bool.false_ne_true quiet⟩
  | true =>
    cases xgdm : x.xgdm with
    | false =>
      simp only [GdmRxSample.looksGmac, GdmRxSample.looksGdm, running, xgdm, Bool.true_and,
        Bool.not_false, if_true, Bool.false_and, Bool.false_eq_true, if_false] at gmac gdm
      rw [related.rxCnt]
      have counts := related.gmac.bump gmac
      refine ⟨⟨rfl, related.fsm, related.ipq, related.small, Counts.skip gdm, counts⟩, ?_⟩
      exact (ask_iff counts).trans (or_iff_left not_heldFor_false).symm
    | true =>
      simp only [GdmRxSample.looksGmac, running, xgdm, Bool.true_and, Bool.not_true,
        Bool.false_eq_true, if_false] at gmac
      by_cases outer : i ≠ MTK_GMAC1_ID
      · simp only [GdmRxSample.looksGdm, running, xgdm, Bool.true_and, decide_eq_true outer,
          if_true] at gdm
        simp only [if_true, Bool.not_true, Bool.false_eq_true, if_false, if_pos outer]
        rw [related.rxCnt, related.fsm, related.ipq,
          gdmHangs_widen related.small fun hangs => (gdm hangs).1]
        have counts := related.gdm.bump fun hangs => (gdm hangs).2
        refine ⟨⟨rfl, rfl, rfl, fun gmac2 => ?_, counts, Counts.skip gmac⟩, ?_⟩
        · rw [GdmRxSample.ipq, gdmQueueMask, if_pos gmac2, BitVec.and_assoc, BitVec.and_self]
        · exact (ask_iff counts).trans (or_iff_right not_heldFor_false).symm
      · simp only [GdmRxSample.looksGdm, running, xgdm, Bool.true_and, decide_eq_false outer,
          Bool.false_eq_true, if_false] at gdm
        simp only [if_true, Bool.not_true, Bool.false_eq_true, if_false, if_neg outer]
        exact ⟨⟨rfl, related.fsm, related.ipq, related.small, Counts.skip gdm,
          Counts.skip gmac⟩, iff_of_false not_false quiet⟩

def gdmRxMonitor : Monitor :=
  { bank MTK_MAX_DEVS .stopTraffic gdmRxMac ⟨0, 0, 0, 0, 0⟩ ⟨0, 0, 0, [], []⟩ recordGdmRx
      (fun h => HeldFor 5 h.gmac ∨ HeldFor 5 h.gdm) GdmRxSound with
    monitor := mtkMonitorGdmRx }

theorem gdmRx_exact {s : Watched gdmRxMonitor}
    (run : Reaches Watched.Sound Watched.step (Watched.start _) s) : s.Exact :=
  bank_exact MTK_MAX_DEVS .stopTraffic gdmRxMac _ _ recordGdmRx
    (fun h => HeldFor 5 h.gmac ∨ HeldFor 5 h.gdm) GdmRxSound GdmRxRelated
    (fun _ => ⟨rfl, rfl, rfl, fun _ => rfl, Counts.nil, Counts.nil⟩)
    (not_or.mpr ⟨not_heldFor_nil, not_heldFor_nil⟩)
    (fun _ _ _ _ related sound => related.mac sound) run

/-- A MAC of `mtk_monitor_gdm_tx`. -/
structure GdmTxPast where
  last : GdmTxSeen
  gdm : List Bool
  gmac : List Bool

def recordGdmTx (i : Nat) (h : GdmTxPast) (x : GdmTxSample) : GdmTxPast :=
  if x.running then
    ⟨x.seen i, x.gdmHangs i h.last :: h.gdm, (!x.xgdm && x.gmacHangs i h.last) :: h.gmac⟩
  else ⟨h.last, false :: h.gdm, false :: h.gmac⟩

/-- What a MAC needs of a sample: a counter is left out only when it is zero, and it has room. -/
structure GdmTxSound (i : Nat) (m : GdmTx) (h : GdmTxPast) (x : GdmTxSample) : Prop where
  gmac : if x.running && !x.xgdm then x.gmacHangs i h.last = true → m.gmac ≠ 255 else m.gmac = 0
  gdm : if x.running then x.gdmHangs i h.last = true → m.gdm ≠ 255 else m.gdm = 0

structure GdmTxRelated (m : GdmTx) (h : GdmTxPast) : Prop where
  pre : m.pre = h.last
  gdm : Counts m.gdm h.gdm
  gmac : Counts m.gmac h.gmac

theorem GdmTxRelated.mac {m : GdmTx} {h : GdmTxPast} {x : GdmTxSample} (related : GdmTxRelated m h)
    (sound : GdmTxSound i m h x) :
    GdmTxRelated (gdmTxMac i m x).1 (recordGdmTx i h x) ∧
      ((gdmTxMac i m x).2 = true ↔
        HeldFor 5 (recordGdmTx i h x).gmac ∨ HeldFor 5 (recordGdmTx i h x).gdm) := by
  obtain ⟨gmac, gdm⟩ := sound
  rw [gdmTxMac, recordGdmTx, related.pre]
  cases running : x.running with
  | false =>
    simp only [running, Bool.false_and, Bool.false_eq_true, if_false] at gmac gdm
    exact ⟨⟨related.pre, Counts.skip gdm, Counts.skip gmac⟩,
      iff_of_false Bool.false_ne_true (not_or.mpr ⟨not_heldFor_false, not_heldFor_false⟩)⟩
  | true =>
    simp only [running, if_true] at gdm
    have gdmCounts := related.gdm.bump gdm
    cases xgdm : x.xgdm with
    | false =>
      simp only [running, xgdm, Bool.true_and, Bool.not_false, if_true] at gmac
      have gmacCounts := related.gmac.bump gmac
      refine ⟨⟨rfl, gdmCounts, gmacCounts⟩, ?_⟩
      simp only [if_true, Bool.not_false, Bool.true_and, Bool.false_eq_true, if_false]
      rw [Bool.or_eq_true, ask_iff gmacCounts, ask_iff gdmCounts]
    | true =>
      simp only [running, xgdm, Bool.true_and, Bool.not_true, Bool.false_eq_true, if_false] at gmac
      refine ⟨⟨rfl, gdmCounts, Counts.skip gmac⟩, ?_⟩
      simp only [if_true, Bool.not_true, Bool.false_and, Bool.false_or]
      rw [ask_iff gdmCounts, or_iff_right not_heldFor_false]

def gdmTxMonitor : Monitor :=
  { bank MTK_MAX_DEVS .stopTraffic gdmTxMac ⟨⟨0, 0, 0, 0⟩, false, 0, 0⟩ ⟨⟨0, 0, 0, 0⟩, [], []⟩
      recordGdmTx (fun h => HeldFor 5 h.gmac ∨ HeldFor 5 h.gdm) GdmTxSound with
    monitor := mtkMonitorGdmTx }

theorem gdmTx_exact {s : Watched gdmTxMonitor}
    (run : Reaches Watched.Sound Watched.step (Watched.start _) s) : s.Exact :=
  bank_exact MTK_MAX_DEVS .stopTraffic gdmTxMac _ _ recordGdmTx
    (fun h => HeldFor 5 h.gmac ∨ HeldFor 5 h.gdm) GdmTxSound (fun _ => GdmTxRelated)
    (fun _ => ⟨rfl, Counts.nil, Counts.nil⟩) (not_or.mpr ⟨not_heldFor_nil, not_heldFor_nil⟩)
    (fun _ _ _ _ related sound => related.mac sound) run

/-! ## All monitors -/

/-- What the monitors ask of the SoC: its version, and 1 or the number of its RSS rings. -/
structure Soc where
  netsysV1 : Bool
  netsysV3 : Bool
  rings : Nat

def mtkResetMonitorFunc (soc : Soc) : List Monitor :=
  [wdmaTxMonitor soc.netsysV1,
    wdmaRxMonitor,
    { watcher true (admaRxHangs soc.rings) (fun x => ⟨x.drx, x.fsm, x.opq.setWidth 16⟩)
        ⟨fun _ => 0, 0, 0⟩ with
      monitor := mtkMonitorAdmaRx soc.rings },
    { watcher soc.netsysV3 tdmaTxHangs TdmaTxSample.seen ⟨0, 0⟩ with
      monitor := mtkMonitorTdmaTx soc.netsysV3 },
    { watcher soc.netsysV3 tdmaRxHangs TdmaRxSample.seen ⟨0, 0, 0⟩ with
      monitor := mtkMonitorTdmaRx soc.netsysV3 },
    gdmTxMonitor,
    gdmRxMonitor,
    { watcher true qdmaTxHangs (fun _ => ()) () with monitor := mtkMonitorQdmaTx },
    { watcher true qdmaRxHangs (fun x => ⟨x.fqHead, x.fqTail⟩) ⟨0, 0⟩ with
      monitor := mtkMonitorQdmaRx }]

/-- Over sound samples, `err_opq` counts the samples for which a queue has been stuck, and each
monitor asks for a reset exactly when something has hung at the last five samples. -/
theorem monitors_exact (netsysV1 : Bool) (port : Nat) (soc : Soc) :
    (∀ s, Reaches (PortRun.Sound port) (PortRun.step netsysV1 port) .start s → s.Exact) ∧
    (∀ w ∈ mtkResetMonitorFunc soc, ∀ s : Watched w,
      Reaches Watched.Sound Watched.step (.start w) s → s.Exact) := by
  refine ⟨fun _ run => PortRun.exact_of_sound run, fun w listed s run => ?_⟩
  simp only [mtkResetMonitorFunc, List.mem_cons, List.not_mem_nil, or_false] at listed
  rcases listed with rfl | rfl | rfl | rfl | rfl | rfl | rfl | rfl | rfl
  · exact wdmaTx_exact run
  · exact wdmaRx_exact run
  · exact watcher_exact true run
  · exact watcher_exact soc.netsysV3 run
  · exact watcher_exact soc.netsysV3 run
  · exact gdmTx_exact run
  · exact gdmRx_exact run
  · exact watcher_exact true run
  · exact watcher_exact true run

def rssSoc : Soc := ⟨false, true, 4⟩

def qdmaTxMonitor : Monitor :=
  { watcher true qdmaTxHangs (fun _ => ()) () with monitor := mtkMonitorQdmaTx }

def stuckQdma : QdmaTxSample := ⟨false, 0x100, 0⟩

theorem stuckQdma_sound : AllAllowed Watched.Sound Watched.step (List.replicate 5 stuckQdma)
    (Watched.start qdmaTxMonitor) := by
  refine ⟨fun _ => by decide, fun s₁ first => ⟨?_, fun s₂ second => ⟨?_, fun s₃ third => ⟨?_,
    fun s₄ fourth => ⟨?_, fun _ _ => trivial⟩⟩⟩⟩⟩
  all_goals
    obtain rfl := Option.some_inj.mp first
    try obtain rfl := Option.some_inj.mp second
    try obtain rfl := Option.some_inj.mp third
    try obtain rfl := Option.some_inj.mp fourth
    exact fun _ => by decide

/-- A queue of GDM2 that is stuck at one sample, and a QDMA that is stuck at five. -/
theorem monitors_exact_stuck :
    (∃ s, runSteps (PortRun.step false PSE_GDM2_PORT) [5, 5] .start = some s ∧
      s.memory.errOpq = 1 ∧ s.Exact) ∧
    (∃ s, runSteps Watched.step (List.replicate 5 stuckQdma) (Watched.start qdmaTxMonitor) =
      some s ∧ s.returned = some .stopTraffic ∧ s.Exact) := by
  have port : ∃ s, runSteps (PortRun.step false PSE_GDM2_PORT) [5, 5] .start = some s ∧
      s.memory.errOpq = 1 := ⟨_, rfl, by decide⟩
  have qdma : ∃ s, runSteps Watched.step (List.replicate 5 stuckQdma)
      (Watched.start qdmaTxMonitor) = some s ∧ s.returned = some .stopTraffic := ⟨_, rfl, rfl⟩
  obtain ⟨s, run, count⟩ := port
  obtain ⟨t, run', returned⟩ := qdma
  have listed : qdmaTxMonitor ∈ mtkResetMonitorFunc rssSoc := by
    simp [mtkResetMonitorFunc, qdmaTxMonitor]
  obtain ⟨ports, monitors⟩ := monitors_exact false PSE_GDM2_PORT rssSoc
  refine ⟨⟨s, run, count, ports s (reaches_of_runSteps ?_ run)⟩,
    t, run', returned, monitors qdmaTxMonitor listed t
      (reaches_of_runSteps stuckQdma_sound run')⟩
  refine ⟨fun stuck => absurd stuck (by decide), fun s' first => ⟨fun _ => ?_, fun _ _ => trivial⟩⟩
  obtain rfl := Option.some_inj.mp first
  decide

/-- The queue of GDM1, an odd port, is stuck and is not counted. -/
theorem odd_port_uncounted :
    ¬ ((∀ netsysV1 port s, Reaches anyStep (PortRun.step netsysV1 port) .start s → s.Exact) ∧
      (∀ soc, ∀ w ∈ mtkResetMonitorFunc soc, ∀ s : Watched w,
        Reaches anyStep Watched.step (.start w) s → s.Exact)) := by
  rintro ⟨ports, -⟩
  have run : ∃ s, runSteps (PortRun.step false PSE_GDM1_PORT) [0x50000, 0x50000] .start = some s ∧
      s.memory.errOpq = 0 ∧ streak s.history.held = 1 := ⟨_, rfl, by decide, by decide⟩
  obtain ⟨s, run, count, stuck⟩ := run
  have counted := ports false PSE_GDM1_PORT s (reaches_of_runSteps allAllowed_anyStep run)
  rw [PortRun.Exact, count, stuck] at counted
  exact absurd counted (by decide)

end MetaFilogic.Eth.Monitors
