import MetaFilogic.Eth.Handshake

/-!
# Runs of the reset handshake

The countdown is right as long as it is not reset while some chips have answered a request and
others have not, and a failure is the last answer.
-/

namespace MetaFilogic.Eth.Ser

namespace State

/-! ## The condition -/

/-- The last chip may leave: the work does not wait for an answer of a chip that is gone. -/
def LastMayLeave (s : State) : Prop :=
  match s.driver.phase with
  | .testing => s.owed ≠ ∅
  | .waiting | .judging => s.owed = ∅ ∧ s.driver.mtkStopFail = false
  | .resending => False
  | .waitingAgain => s.owed = ∅
  | _ => True

/-- The event word may change: it keeps its meaning, or the work does not use it. -/
def MayAsk (s : State) (event : FeEvent) : Prop :=
  s.driver.phase ∈ [.idle, .sending, .acking, .finishing] ∨
    (event = .stopTraffic ↔ s.driver.event = some .stopTraffic)

/-- Chips appear when no answer is owed and the work is not about to wait for the first of them;
they leave when no answer is owed or all others owe theirs, and the last one not while the work
waits for it; a failure is the last answer, on NETSYS V3; and the event word does not change its
meaning between the request and the closing notification. -/
def Orderly (v3 : Bool) (s : State) : Label → Prop
  | .online _ => s.owed = ∅ ∧ (s.driver.phase = .testing → 0 < s.driver.mtkWifiNum)
  | .offline chip =>
    (s.owed = ∅ ∨ ∀ other ∈ s.online, other ≠ chip → (other, s.latest) ∈ s.owed) ∧
      (s.driver.mtkWifiNum = 1 → s.LastMayLeave)
  | .fail chip request => v3 = true ∧ ∀ owing ∈ s.owed, owing = (chip, request)
  | .ask event => s.MayAsk event
  | _ => True

instance (s : State) : Decidable s.LastMayLeave := by
  unfold LastMayLeave
  split <;> infer_instance

instance (s : State) (event : FeEvent) : Decidable (s.MayAsk event) :=
  inferInstanceAs (Decidable (_ ∨ _))

instance (v3 : Bool) (s : State) : (label : Label) → Decidable (Orderly v3 s label)
  | .online _ => inferInstanceAs (Decidable (_ ∧ _))
  | .offline _ => inferInstanceAs (Decidable (_ ∧ _))
  | .fail _ _ => inferInstanceAs (Decidable (_ ∧ _))
  | .ask event => inferInstanceAs (Decidable (MayAsk s event))
  | .done _ _ | .l1serDone | .look _ | .start _ | .work => isTrue trivial

/-! ## The invariant -/

def Matches (s : State) : Prop :=
  s.driver.event = some .stopTraffic ↔ s.latest.event = .stopTraffic

def Closed (s : State) : Prop :=
  s.closing = if s.latest.event = .stopTraffic then .startTraffic else .resetDone

def First (v3 : Bool) (s : State) : Prop :=
  (s.driver.mtkStopFail = false ∧ s.Matches) ∨
    (s.driver.mtkStopFail = true ∧ v3 = true ∧ s.owed = ∅ ∧ 0 < s.driver.mtkWifiNum ∧
      s.driver.event ≠ some .stopTraffic)

def Settled (s : State) : Prop := s.owed = ∅ ∧ s.driver.waitSerDone = 0

def Place (v3 : Bool) (s : State) : Prop :=
  match s.driver.phase with
  | .idle | .sending => s.Settled ∧ s.driver.mtkStopFail = false
  | .testing =>
    s.First v3 ∧
      s.driver.waitSerDone = if s.owed = ∅ ∧ 0 < s.driver.mtkWifiNum then 1 else 0
  | .waiting => s.First v3 ∧ s.driver.waitSerDone = if s.owed = ∅ then 1 else 0
  | .judging => s.First v3 ∧ s.Settled
  | .resending =>
    s.Settled ∧ s.driver.mtkStopFail = true ∧ 0 < s.driver.mtkWifiNum ∧
      s.driver.event ≠ some .stopTraffic
  | .waitingAgain =>
    (s.driver.waitSerDone = if s.owed = ∅ then 1 else 0) ∧
      s.driver.event ≠ some .stopTraffic ∧ s.latest.event = .startReset
  | .clearing =>
    s.Settled ∧ s.driver.event ≠ some .stopTraffic ∧ s.latest.event = .startReset
  | .stopping => s.Settled ∧ s.driver.mtkStopFail = false ∧ s.Matches
  | .acking | .finishing => s.Settled ∧ s.driver.mtkStopFail = false ∧ s.Closed

/-- Only the latest request is outstanding, and the countdown is the number of answers to it that
are still owed, or that of all chips. -/
structure Inv (v3 : Bool) (s : State) : Prop where
  wifi : s.driver.mtkWifiNum = s.online.card
  asked : ∀ owing ∈ s.owed, owing.1 ∈ s.online ∧ owing.2 = s.latest
  rest : s.driver.mtkRestCnt = if s.owed = ∅ then s.driver.mtkWifiNum else s.owed.card
  place : s.Place v3

theorem inv_initial (v3 : Bool) : initial.Inv v3 where
  wifi := rfl
  asked := nofun
  rest := rfl
  place := ⟨⟨rfl, rfl⟩, rfl⟩

variable {v3 : Bool} {s s' : State}

theorem Inv.exact (inv : s.Inv v3) : s.Exact where
  answered := by
    intro past chip owing
    have place := inv.place
    have settled : s.owed = ∅ := by
      simp only [List.mem_cons, List.not_mem_nil, or_false] at past
      rcases past with past | past | past <;> rw [Place, past] at place <;> exact place.1.1
    rw [settled] at owing
    exact Finset.notMem_empty _ owing
  nothingLeft := by
    intro idle
    have place := inv.place
    rw [Place, idle] at place
    exact place.1.2
  signalled := by
    intro waits answered
    have settled : s.owed = ∅ := by
      refine Finset.eq_empty_of_forall_notMem fun owing member => ?_
      have latest := (inv.asked owing member).2
      exact answered owing.1 (latest ▸ member)
    have place := inv.place
    simp only [List.mem_cons, List.not_mem_nil, or_false] at waits
    rcases waits with waits | waits <;> rw [Place, waits] at place
    · rw [place.2, if_pos settled]
      exact Nat.one_pos
    · rw [place.1, if_pos settled]
      exact Nat.one_pos
  closed := by
    intro past
    have place := inv.place
    simp only [List.mem_cons, List.not_mem_nil, or_false] at past
    rcases past with past | past <;> rw [Place, past] at place <;> exact place.2.2

/-! ## The chips -/

theorem Place.owing (place : s.Place v3) (owing : s.owed ≠ ∅) :
    s.driver.phase ∈ [.testing, .waiting, .waitingAgain] ∧ s.driver.waitSerDone = 0 := by
  rw [Place] at place
  split at place <;> simp_all [Settled]

section

variable {wifi rest : Int} {online : Finset Nat} {owed : Finset (Nat × Request)}

def recount (s : State) (wifi rest : Int) (online : Finset Nat) (owed : Finset (Nat × Request)) :
    State :=
  { s with
    driver := { s.driver with mtkWifiNum := wifi, mtkRestCnt := rest }
    online := online
    owed := owed }

theorem First.recount (first : s.First v3) (empty : owed = ∅ ↔ s.owed = ∅)
    (grows : 0 < s.driver.mtkWifiNum → 0 < wifi) : (s.recount wifi rest online owed).First v3 :=
  first.imp id fun ⟨fail, three, settled, online, event⟩ =>
    ⟨fail, three, empty.mpr settled, grows online, event⟩

theorem Settled.recount (settled : s.Settled) (empty : owed = ∅ ↔ s.owed = ∅) :
    (s.recount wifi rest online owed).Settled :=
  ⟨empty.mpr settled.1, settled.2⟩

/-- What holds at a place depends on whether answers are owed and chips are online, not on how
many. -/
theorem Place.recount (place : s.Place v3) (empty : owed = ∅ ↔ s.owed = ∅)
    (grows : 0 < s.driver.mtkWifiNum → 0 < wifi)
    (tested : s.driver.phase = .testing → s.owed = ∅ → 0 < wifi → 0 < s.driver.mtkWifiNum) :
    (s.recount wifi rest online owed).Place v3 := by
  rw [Place] at place ⊢
  rw [show (s.recount wifi rest online owed).driver.phase = s.driver.phase from rfl]
  cases here : s.driver.phase <;> rw [here] at place
  case idle | sending => exact ⟨place.1.recount empty, place.2⟩
  case testing =>
    refine ⟨place.1.recount empty grows, place.2.trans (if_congr ?_ rfl rfl)⟩
    exact ⟨fun ⟨settled, online⟩ => ⟨empty.mpr settled, grows online⟩, fun ⟨settled, online⟩ =>
      ⟨empty.mp settled, tested here (empty.mp settled) online⟩⟩
  case waiting => exact ⟨place.1.recount empty grows, place.2.trans (if_congr empty.symm rfl rfl)⟩
  case judging => exact ⟨place.1.recount empty grows, place.2.recount empty⟩
  case resending => exact ⟨place.1.recount empty, place.2.1, grows place.2.2.1, place.2.2.2⟩
  case waitingAgain => exact ⟨place.1.trans (if_congr empty.symm rfl rfl), place.2⟩
  case clearing => exact ⟨place.1.recount empty, place.2⟩
  case stopping => exact ⟨place.1.recount empty, place.2⟩
  case acking | finishing => exact ⟨place.1.recount empty, place.2⟩

end

variable {chip : Nat} {request : Request} {driver : Driver}

theorem Inv.online (inv : s.Inv v3) (fresh : chip ∉ s.online) (settled : s.owed = ∅)
    (tested : s.driver.phase = .testing → 0 < s.driver.mtkWifiNum) :
    (s.recount (s.driver.mtkWifiNum + 1) (s.driver.mtkWifiNum + 1) (insert chip s.online)
      s.owed).Inv v3 where
  wifi := by
    change s.driver.mtkWifiNum + 1 = ((insert chip s.online).card : Int)
    rw [inv.wifi, Finset.card_insert_of_notMem fresh, Int.natCast_add, Int.natCast_one]
  asked := by
    intro owing member
    have noOwing : owing ∉ s.owed := settled ▸ Finset.notMem_empty owing
    exact absurd member noOwing
  rest := (if_pos settled).symm
  place := by
    have some : 0 < s.driver.mtkWifiNum + 1 := by
      rw [inv.wifi]
      omega
    exact inv.place.recount Iff.rfl (fun _ => some) fun here _ _ => tested here

theorem card_others (asked : ∀ owing ∈ s.owed, owing.1 ∈ s.online ∧ owing.2 = s.latest)
    (others : ∀ other ∈ s.online, other ≠ chip → (other, s.latest) ∈ s.owed) :
    s.owed.filter (·.1 ≠ chip) = s.online.erase chip ×ˢ {s.latest} := by
  ext ⟨other, request⟩
  rw [Finset.mem_filter, Finset.mem_product, Finset.mem_erase, Finset.mem_singleton]
  constructor
  · rintro ⟨owing, different⟩
    obtain ⟨online, latest⟩ := asked _ owing
    exact ⟨⟨different, online⟩, latest⟩
  · rintro ⟨⟨different, online⟩, rfl⟩
    exact ⟨others other online different, different⟩

theorem Place.lastLeaves (place : s.Place v3) (may : s.LastMayLeave) {online : Finset Nat} :
    (s.recount 0 0 online ∅).Place v3 := by
  rw [Place] at place ⊢
  rw [LastMayLeave] at may
  rw [show (s.recount 0 0 online ∅).driver.phase = s.driver.phase from rfl]
  cases here : s.driver.phase <;> rw [here] at place may
  case idle | sending => exact ⟨⟨rfl, place.1.2⟩, place.2⟩
  case testing =>
    obtain ⟨first | ⟨_, _, settled, _⟩, count⟩ := place
    · exact ⟨.inl first, count.trans (if_neg fun none => may none.1)⟩
    · exact absurd settled may
  case waiting =>
    obtain ⟨first | ⟨failed, _⟩, count⟩ := place
    · exact ⟨.inl first, count.trans (if_pos may.1)⟩
    · exact absurd (may.2.symm.trans failed) Bool.false_ne_true
  case judging =>
    obtain ⟨first | ⟨failed, _⟩, settled⟩ := place
    · exact ⟨.inl first, rfl, settled.2⟩
    · exact absurd (may.2.symm.trans failed) Bool.false_ne_true
  case resending => exact may.elim
  case waitingAgain => exact ⟨place.1.trans (if_pos may), place.2⟩
  case clearing => exact ⟨⟨rfl, place.1.2⟩, place.2⟩
  case stopping => exact ⟨⟨rfl, place.1.2⟩, place.2⟩
  case acking | finishing => exact ⟨⟨rfl, place.1.2⟩, place.2⟩

theorem Inv.offline (inv : s.Inv v3) (member : chip ∈ s.online)
    (others : s.owed = ∅ ∨ ∀ other ∈ s.online, other ≠ chip → (other, s.latest) ∈ s.owed)
    (last : s.driver.mtkWifiNum = 1 → s.LastMayLeave) :
    (s.recount (s.driver.mtkWifiNum - 1) (s.driver.mtkWifiNum - 1) (s.online.erase chip)
      (s.owed.filter (·.1 ≠ chip))).Inv v3 := by
  have wifi : s.driver.mtkWifiNum - 1 = ((s.online.erase chip).card : Int) := by
    have some := Finset.card_pos.mpr ⟨chip, member⟩
    rw [inv.wifi, Finset.card_erase_of_mem member]
    omega
  -- when some answers are owed, the other chips owe theirs
  have left : s.owed.filter (·.1 ≠ chip) = ∅ ∧ (s.owed = ∅ ∨ s.driver.mtkWifiNum = 1) ∨
      s.owed ≠ ∅ ∧ s.driver.mtkWifiNum ≠ 1 ∧ s.owed.filter (·.1 ≠ chip) ≠ ∅ ∧
        (s.owed.filter (·.1 ≠ chip)).card = (s.online.erase chip).card := by
    rcases others with settled | others
    · rw [settled, Finset.filter_empty]
      exact .inl ⟨rfl, .inl rfl⟩
    · rw [card_others inv.asked others, Finset.card_product, Finset.card_singleton, Nat.mul_one]
      rcases (s.online.erase chip).eq_empty_or_nonempty with alone | ⟨other, online⟩
      · rw [alone, Finset.empty_product]
        rw [alone, Finset.card_empty] at wifi
        exact .inl ⟨rfl, .inr (by omega)⟩
      · have owing := others other (Finset.mem_of_mem_erase online) (Finset.ne_of_mem_erase online)
        have some := Finset.card_pos.mpr ⟨other, online⟩
        refine .inr ⟨Finset.ne_empty_of_mem owing, by omega, Finset.Nonempty.ne_empty ?_, rfl⟩
        exact ⟨(other, s.latest), Finset.mem_product.mpr ⟨online, Finset.mem_singleton_self _⟩⟩
  refine ⟨wifi, fun owing kept => ?_, ?_, ?_⟩
  · obtain ⟨owed, different⟩ := Finset.mem_filter.mp kept
    obtain ⟨online, latest⟩ := inv.asked owing owed
    exact ⟨Finset.mem_erase.mpr ⟨different, online⟩, latest⟩
  · change s.driver.mtkWifiNum - 1 = if s.owed.filter (·.1 ≠ chip) = ∅ then
      s.driver.mtkWifiNum - 1 else ((s.owed.filter (·.1 ≠ chip)).card : Int)
    rcases left with ⟨none, _⟩ | ⟨_, _, owing, count⟩
    · rw [if_pos none]
    · rw [if_neg owing, count, wifi]
  · rcases left with ⟨none, settled | alone⟩ | ⟨owing, more, still, _⟩
    · by_cases alone : s.driver.mtkWifiNum = 1
      · rw [none, alone]
        exact inv.place.lastLeaves (last alone)
      · refine inv.place.recount (by rw [none, settled]) (fun online => ?_) fun _ _ online => ?_
          <;> omega
    · rw [none, alone]
      exact inv.place.lastLeaves (last alone)
    · refine inv.place.recount (iff_of_false still owing) (fun online => ?_) fun _ _ online => ?_
        <;> omega

/-! ## Answers -/

def signal (s : State) (rest : Int) (fail : Bool) (event : Option FeEvent) : State :=
  { s with
    driver := { s.driver with
      mtkRestCnt := rest
      waitSerDone := s.driver.waitSerDone + 1
      mtkStopFail := fail
      event := event }
    owed := ∅ }

theorem Place.lastDone (place : s.Place v3) (owing : s.owed ≠ ∅) (online : 0 < s.driver.mtkWifiNum)
    {rest : Int} : (s.signal rest s.driver.mtkStopFail s.driver.event).Place v3 := by
  obtain ⟨counts, none⟩ := place.owing owing
  rw [Place] at place ⊢
  rw [show (s.signal rest s.driver.mtkStopFail s.driver.event).driver.phase = s.driver.phase
    from rfl]
  have one : s.driver.waitSerDone + 1 = 1 := by rw [none]
  simp only [List.mem_cons, List.not_mem_nil, or_false] at counts
  rcases counts with here | here | here <;> rw [here] at place ⊢
  · obtain ⟨first | ⟨_, _, settled, _⟩, _⟩ := place
    · exact ⟨.inl first, one.trans (if_pos ⟨rfl, online⟩).symm⟩
    · exact absurd settled owing
  · obtain ⟨first | ⟨_, _, settled, _⟩, _⟩ := place
    · exact ⟨.inl first, one.trans (if_pos rfl).symm⟩
    · exact absurd settled owing
  · exact ⟨one.trans (if_pos rfl).symm, place.2⟩

theorem Place.lastFail (place : s.Place true) (owing : s.owed ≠ ∅)
    (online : 0 < s.driver.mtkWifiNum) (stop : s.latest.event = .stopTraffic) {rest : Int} :
    (s.signal rest true (some .startReset)).Place true := by
  obtain ⟨counts, none⟩ := place.owing owing
  rw [Place] at place ⊢
  rw [show (s.signal rest true (some .startReset)).driver.phase = s.driver.phase from rfl]
  have one : s.driver.waitSerDone + 1 = 1 := by rw [none]
  have first : (s.signal rest true (some .startReset)).First true :=
    .inr ⟨rfl, rfl, rfl, online, nofun⟩
  simp only [List.mem_cons, List.not_mem_nil, or_false] at counts
  rcases counts with here | here | here <;> rw [here] at place ⊢
  · exact ⟨first, one.trans (if_pos ⟨rfl, online⟩).symm⟩
  · exact ⟨first, one.trans (if_pos rfl).symm⟩
  · rw [place.2.2] at stop
    nomatch stop

theorem Inv.online_of_owed (inv : s.Inv v3) (owing : (chip, request) ∈ s.owed) :
    0 < s.driver.mtkWifiNum := by
  have some := Finset.card_pos.mpr ⟨chip, (inv.asked _ owing).1⟩
  rw [inv.wifi]
  omega

theorem Inv.done {event : WifiNote} (inv : s.Inv v3) (owing : (chip, request) ∈ s.owed)
    (note : event = .wifiResetDone ∨ event = .feStopTrafficDone) :
    State.Inv v3 { s with
      driver := s.driver.mtkEthNetdeviceEvent event
      owed := s.owed.erase (chip, request) } := by
  have owed : s.owed ≠ ∅ := Finset.ne_empty_of_mem owing
  have count := Finset.card_erase_of_mem owing
  have some := Finset.card_pos.mpr ⟨_, owing⟩
  have rest := inv.rest
  rw [if_neg owed] at rest
  have driver : s.driver.mtkEthNetdeviceEvent event = if s.driver.mtkRestCnt - 1 = 0 then
      { s.driver with
        mtkRestCnt := s.driver.mtkWifiNum, waitSerDone := s.driver.waitSerDone + 1 }
      else { s.driver with mtkRestCnt := s.driver.mtkRestCnt - 1 } := by
    rcases note with rfl | rfl <;> rfl
  by_cases last : s.owed.erase (chip, request) = ∅
  · rw [last, Finset.card_empty] at count
    rw [driver, last, if_pos (by omega)]
    exact ⟨inv.wifi, nofun, rfl, inv.place.lastDone owed (inv.online_of_owed owing)⟩
  · have more := Finset.card_pos.mpr (Finset.nonempty_iff_ne_empty.mpr last)
    rw [driver, if_neg (by omega)]
    refine ⟨inv.wifi, fun other member => inv.asked other (Finset.mem_of_mem_erase member), ?_,
      inv.place.recount (iff_of_false last owed) id fun _ _ => id⟩
    change s.driver.mtkRestCnt - 1 = if s.owed.erase (chip, request) = ∅ then
      s.driver.mtkWifiNum else ((s.owed.erase (chip, request)).card : Int)
    rw [if_neg last, count]
    omega

theorem Inv.fail (inv : s.Inv true) (owing : (chip, request) ∈ s.owed)
    (stop : request.event = .stopTraffic) (alone : ∀ other ∈ s.owed, other = (chip, request)) :
    State.Inv true { s with
      driver := s.driver.mtkEthNetdeviceEvent .feStopTrafficDoneFail
      owed := s.owed.erase (chip, request) } := by
  have last : s.owed.erase (chip, request) = ∅ := by
    refine Finset.eq_empty_of_forall_notMem fun other member => ?_
    exact Finset.ne_of_mem_erase member (alone other (Finset.mem_of_mem_erase member))
  have latest : s.latest.event = .stopTraffic := (inv.asked _ owing).2 ▸ stop
  rw [last]
  exact ⟨inv.wifi, nofun, rfl,
    inv.place.lastFail (Finset.ne_empty_of_mem owing) (inv.online_of_owed owing) latest⟩

/-! ## The event word and the work -/

section

variable {event : FeEvent} {looked : List FeEvent} {scheduled : Bool}

def write (s : State) (event : FeEvent) (looked : List FeEvent) : State :=
  { s with driver := { s.driver with looked := looked, event := some event, scheduled := true } }

theorem First.write (first : s.First v3)
    (same : event = .stopTraffic ↔ s.driver.event = some .stopTraffic) :
    (s.write event looked).First v3 := by
  have kept : some event = some FeEvent.stopTraffic ↔ s.driver.event = some .stopTraffic :=
    Option.some_inj.trans same
  rcases first with ⟨fail, closing⟩ | ⟨fail, three, settled, online, other⟩
  · exact .inl ⟨fail, kept.trans closing⟩
  · exact .inr ⟨fail, three, settled, online, fun stop => other (kept.mp stop)⟩

theorem Place.write (place : s.Place v3) (may : s.MayAsk event) :
    (s.write event looked).Place v3 := by
  rw [Place] at place ⊢
  rw [MayAsk] at may
  rw [show (s.write event looked).driver.phase = s.driver.phase from rfl]
  cases here : s.driver.phase <;> rw [here] at place may
  case idle | sending | acking | finishing => exact place
  all_goals
    have same := may.resolve_left (by simp)
    have kept : some event = some FeEvent.stopTraffic ↔ s.driver.event = some .stopTraffic :=
      Option.some_inj.trans same
  case testing | waiting | judging => exact ⟨place.1.write same, place.2⟩
  case resending =>
    exact ⟨place.1, place.2.1, place.2.2.1, fun stop => place.2.2.2 (kept.mp stop)⟩
  case waitingAgain | clearing =>
    exact ⟨place.1, fun stop => place.2.1 (kept.mp stop), place.2.2⟩
  case stopping => exact ⟨place.1, place.2.1, kept.trans place.2.2⟩

end

theorem Inv.send (inv : s.Inv v3) (settled : s.owed = ∅) {event : FeEvent}
    (wifi : driver.mtkWifiNum = s.driver.mtkWifiNum)
    (rest : driver.mtkRestCnt = s.driver.mtkRestCnt)
    (place : (s.send driver (some (.request event))).Place v3) :
    (s.send driver (some (.request event))).Inv v3 := by
  have owed : (s.send driver (some (.request event))).owed =
      s.online ×ˢ {⟨s.latest.number + 1, event⟩} := by
    rw [State.send, settled, Finset.empty_union]
  refine ⟨wifi.trans inv.wifi, fun owing member => ?_, ?_, place⟩
  · rw [owed, Finset.mem_product, Finset.mem_singleton] at member
    exact member
  · have all := inv.rest
    rw [if_pos settled, inv.wifi] at all
    rw [owed, Finset.card_product, Finset.card_singleton, Nat.mul_one]
    change driver.mtkRestCnt = if _ then driver.mtkWifiNum else _
    rw [rest, wifi, all, inv.wifi, ite_self]

theorem send_owed_ne (inv : s.Inv v3) (online : 0 < s.driver.mtkWifiNum) {event : FeEvent} :
    (s.send driver (some (.request event))).owed ≠ ∅ := by
  rw [inv.wifi] at online
  obtain ⟨chip, member⟩ := Finset.card_pos.mp (Int.natCast_pos.mp online)
  have asked : (chip, ⟨s.latest.number + 1, event⟩) ∈
      s.online ×ˢ {(⟨s.latest.number + 1, event⟩ : Request)} :=
    Finset.mem_product.mpr ⟨member, Finset.mem_singleton_self _⟩
  exact Finset.ne_empty_of_mem (Finset.mem_union_right _ asked)

theorem Inv.workSending (inv : s.Inv v3) (here : s.driver.phase = .sending) :
    (s.send { s.driver with phase := .testing }
      (some (.request (if s.driver.event = some .stopTraffic then .stopTraffic
        else .startReset)))).Inv v3 := by
  have place := inv.place
  rw [Place, here] at place
  refine inv.send place.1.1 rfl rfl ⟨.inl ⟨place.2, ?_⟩, place.1.2.trans (if_neg ?_).symm⟩
  · change s.driver.event = some .stopTraffic ↔
      (if s.driver.event = some .stopTraffic then FeEvent.stopTraffic else .startReset) =
        .stopTraffic
    split
    next stop => exact iff_of_true stop rfl
    next other => exact iff_of_false other nofun
  · exact fun none => send_owed_ne inv none.2 none.1

theorem Inv.workResending (inv : s.Inv v3) (here : s.driver.phase = .resending) :
    (s.send { s.driver with phase := .waitingAgain } (some (.request .startReset))).Inv v3 := by
  have place := inv.place
  rw [Place, here] at place
  refine inv.send place.1.1 rfl rfl ⟨place.1.2.trans (if_neg ?_).symm, place.2.2.2, rfl⟩
  exact send_owed_ne inv place.2.2.1

theorem Inv.workTesting (inv : s.Inv v3) (here : s.driver.phase = .testing) :
    (s.send { s.driver with
      phase := if 0 < s.driver.mtkWifiNum then .waiting else .stopping } none).Inv v3 := by
  refine ⟨inv.wifi, inv.asked, inv.rest, ?_⟩
  have place := inv.place
  rw [Place, here] at place
  by_cases online : 0 < s.driver.mtkWifiNum
  · rw [if_pos online]
    exact ⟨place.1, place.2.trans (if_congr (and_iff_left online) rfl rfl)⟩
  · rw [if_neg online]
    have settled : s.owed = ∅ :=
      Finset.eq_empty_of_forall_notMem fun _ owing => online (inv.online_of_owed owing)
    obtain ⟨⟨fail, closing⟩ | ⟨_, _, _, some, _⟩, count⟩ := place
    · exact ⟨⟨settled, count.trans (if_neg fun none => online none.2)⟩, fail, closing⟩
    · exact absurd some online

theorem settled_of_signalled {done : Nat} {owed : Prop} [Decidable owed]
    (count : done = if owed then 1 else 0) (signalled : 0 < done) : owed ∧ done - 1 = 0 := by
  by_cases none : owed
  · rw [count, if_pos none]
    exact ⟨none, rfl⟩
  · rw [count, if_neg none] at signalled
    exact absurd signalled (Nat.lt_irrefl 0)

theorem Inv.workJudging (inv : s.Inv v3) (here : s.driver.phase = .judging) :
    (s.send { s.driver with
      phase := if v3 && s.driver.mtkStopFail then .resending else .stopping } none).Inv v3 := by
  refine ⟨inv.wifi, inv.asked, inv.rest, ?_⟩
  have place := inv.place
  rw [Place, here] at place
  obtain ⟨⟨fail, closing⟩ | ⟨fail, three, _, some, event⟩, settled⟩ := place
  · rw [fail, Bool.and_false]
    exact ⟨settled, fail, closing⟩
  · rw [fail, three]
    exact ⟨settled, fail, some, event⟩

theorem Inv.workStopping (inv : s.Inv v3) (here : s.driver.phase = .stopping) {phase : Phase}
    (next : phase = .acking ∨ phase = .finishing) {note : FeNote}
    (sent : note = if s.driver.event = some .stopTraffic then .startTraffic else .resetDone) :
    (s.send { s.driver with phase := phase } (some note)).Inv v3 := by
  have place := inv.place
  rw [Place, here] at place
  have sends : s.send { s.driver with phase := phase } (some note) =
      { s with driver := { s.driver with phase := phase }, closing := note } := by
    rw [sent]
    split <;> rfl
  have closed : note = if s.latest.event = .stopTraffic then .startTraffic else .resetDone :=
    sent.trans (if_congr place.2.2 rfl rfl)
  rw [sends]
  refine ⟨inv.wifi, inv.asked, inv.rest, ?_⟩
  rcases next with rfl | rfl <;> exact ⟨place.1, place.2.1, closed⟩

theorem Inv.work (inv : s.Inv v3) {note : Option FeNote}
    (worked : s.driver.mtkPendingWork v3 = some (driver, note)) : (s.send driver note).Inv v3 := by
  have place := inv.place
  rw [Driver.mtkPendingWork] at worked
  cases here : s.driver.phase <;> rw [here] at worked <;> dsimp only at worked
  case idle => nomatch worked
  case sending =>
    obtain ⟨rfl, rfl⟩ := Prod.mk.inj (Option.some_inj.mp worked)
    exact inv.workSending here
  case testing =>
    obtain ⟨rfl, rfl⟩ := Prod.mk.inj (Option.some_inj.mp worked)
    exact inv.workTesting here
  case waiting =>
    obtain ⟨signalled, done⟩ := Option.ite_none_right_eq_some.mp worked
    obtain ⟨rfl, rfl⟩ := Prod.mk.inj (Option.some_inj.mp done)
    rw [Place, here] at place
    exact ⟨inv.wifi, inv.asked, inv.rest, place.1, settled_of_signalled place.2 signalled⟩
  case judging =>
    obtain ⟨rfl, rfl⟩ := Prod.mk.inj (Option.some_inj.mp worked)
    exact inv.workJudging here
  case resending =>
    obtain ⟨rfl, rfl⟩ := Prod.mk.inj (Option.some_inj.mp worked)
    exact inv.workResending here
  case waitingAgain =>
    obtain ⟨signalled, done⟩ := Option.ite_none_right_eq_some.mp worked
    obtain ⟨rfl, rfl⟩ := Prod.mk.inj (Option.some_inj.mp done)
    rw [Place, here] at place
    exact ⟨inv.wifi, inv.asked, inv.rest, settled_of_signalled place.1 signalled, place.2⟩
  case clearing =>
    obtain ⟨rfl, rfl⟩ := Prod.mk.inj (Option.some_inj.mp worked)
    rw [Place, here] at place
    have reset : s.latest.event ≠ .stopTraffic := by
      rw [place.2.2]
      nofun
    exact ⟨inv.wifi, inv.asked, inv.rest, place.1, rfl, iff_of_false place.2.1 reset⟩
  case stopping =>
    split at worked
    next stop =>
      obtain ⟨rfl, rfl⟩ := Prod.mk.inj (Option.some_inj.mp worked)
      exact inv.workStopping here (.inr rfl) (if_pos stop).symm
    next other =>
      obtain ⟨rfl, rfl⟩ := Prod.mk.inj (Option.some_inj.mp worked)
      refine inv.workStopping here ?_ (if_neg other).symm
      exact ite_eq_or_eq _ _ _
  case acking =>
    obtain ⟨_, done⟩ := Option.ite_none_right_eq_some.mp worked
    obtain ⟨rfl, rfl⟩ := Prod.mk.inj (Option.some_inj.mp done)
    rw [Place, here] at place
    exact ⟨inv.wifi, inv.asked, inv.rest, place⟩
  case finishing =>
    obtain ⟨rfl, rfl⟩ := Prod.mk.inj (Option.some_inj.mp worked)
    rw [Place, here] at place
    exact ⟨inv.wifi, inv.asked, inv.rest, place.1, place.2.1⟩

/-! ## Runs -/

theorem inv_step {label : Label} (inv : s.Inv v3) (orderly : Orderly v3 s label)
    (stepped : s.step v3 label = some s') : s'.Inv v3 := by
  cases label with
  | online chip =>
    obtain ⟨fresh, done⟩ := Option.ite_none_right_eq_some.mp stepped
    obtain rfl := Option.some_inj.mp done
    exact inv.online fresh orderly.1 orderly.2
  | offline chip =>
    obtain ⟨member, done⟩ := Option.ite_none_right_eq_some.mp stepped
    obtain rfl := Option.some_inj.mp done
    exact inv.offline member orderly.1 orderly.2
  | done chip request =>
    obtain ⟨owing, done⟩ := Option.ite_none_right_eq_some.mp stepped
    obtain rfl := Option.some_inj.mp done
    exact inv.done owing (ite_eq_or_eq _ _ _).symm
  | fail chip request =>
    obtain ⟨⟨owing, stop⟩, done⟩ := Option.ite_none_right_eq_some.mp stepped
    obtain rfl := Option.some_inj.mp done
    obtain ⟨rfl, alone⟩ := orderly
    exact inv.fail owing stop alone
  | l1serDone =>
    obtain rfl := Option.some_inj.mp stepped
    exact ⟨inv.wifi, inv.asked, inv.rest, inv.place⟩
  | look event =>
    obtain ⟨driver, looks, rfl⟩ := Option.map_eq_some_iff.mp stepped
    obtain ⟨_, done⟩ := Option.ite_none_right_eq_some.mp looks
    obtain rfl := Option.some_inj.mp done
    exact ⟨inv.wifi, inv.asked, inv.rest, inv.place⟩
  | ask event =>
    obtain ⟨driver, asks, rfl⟩ := Option.map_eq_some_iff.mp stepped
    obtain ⟨_, done⟩ := Option.ite_none_right_eq_some.mp asks
    obtain rfl := Option.some_inj.mp done
    exact ⟨inv.wifi, inv.asked, inv.rest, inv.place.write orderly⟩
  | start needed =>
    obtain ⟨driver, starts, rfl⟩ := Option.map_eq_some_iff.mp stepped
    obtain ⟨⟨_, idle⟩, done⟩ := Option.ite_none_right_eq_some.mp starts
    obtain rfl := Option.some_inj.mp done
    have place := inv.place
    rw [Place, idle] at place
    cases needed with
    | true => exact ⟨inv.wifi, inv.asked, inv.rest, place⟩
    | false => exact ⟨inv.wifi, inv.asked, inv.rest, inv.place⟩
  | work =>
    obtain ⟨done, worked, rfl⟩ := Option.map_eq_some_iff.mp stepped
    exact inv.work worked

theorem exact_of_orderly (run : Reaches (Orderly v3) (step v3) initial s) : s.Exact :=
  (run.invariant (fun _ _ _ inv orderly stepped => inv_step inv orderly stepped)
    (inv_initial v3)).exact

def failedRun : List Label :=
  [.online 0, .online 1, .look .stopTraffic, .ask .stopTraffic, .start true, .work,
    .done 0 ⟨1, .stopTraffic⟩, .work, .fail 1 ⟨1, .stopTraffic⟩, .work, .work, .work,
    .done 1 ⟨2, .startReset⟩, .done 0 ⟨2, .startReset⟩, .work, .work, .work, .l1serDone, .work,
    .work]

theorem failedRun_exact : ∃ s, Reaches (Orderly true) (step true) initial s ∧ s.Exact := by
  obtain ⟨s, run⟩ : ∃ s, runSteps (step true) failedRun initial = some s :=
    Option.isSome_iff_exists.mp (by decide)
  have meets : AllAllowed (Orderly true) (step true) failedRun initial := by decide
  have reaches := reaches_of_runSteps meets run
  exact ⟨s, reaches, exact_of_orderly reaches⟩

def lateRun : List Label :=
  [.online 0, .online 1, .look .stopTraffic, .ask .stopTraffic, .start true, .work, .work,
    .fail 0 ⟨1, .stopTraffic⟩, .work, .work, .work, .done 1 ⟨1, .stopTraffic⟩,
    .done 0 ⟨2, .startReset⟩, .work, .work]

/-- The work goes on to `mtk_stop` although the second chip has not answered the reset. -/
theorem lateRun_early : ∃ s, Reaches anyStep (step true) initial s ∧ ¬ s.Exact := by
  obtain ⟨s, run, stopping, owing⟩ : ∃ s, runSteps (step true) lateRun initial = some s ∧
      s.driver.phase = .stopping ∧ (1, s.latest) ∈ s.owed := by
    refine ⟨_, rfl, rfl, ?_⟩
    decide
  refine ⟨s, reaches_of_runSteps allAllowed_anyStep run, fun exact => ?_⟩
  exact exact.answered (by simp [stopping]) 1 owing

end State

end MetaFilogic.Eth.Ser
