import MetaFilogic.Eth.PtpTx
import Mathlib.Logic.Basic

/-!
# Runs of the transmit timestamp slot

Each packet is served as long as the slot is empty when the next one comes.
-/

namespace MetaFilogic.Eth.Ptp

namespace Mac

/-! ## The condition -/

/-- The slot is empty when a packet is passed on or the clock is shut down; `ptp_tx_class` is not
cleared for another packet after it has been written; and a register that is read with the sequence
id of a packet holds the timestamp of that packet. -/
def Apart (m : Mac) : Label → Prop
  | .process skb => skb.Taken →
    m.ptpTxSkb = none ∧ m.deinit ∈ [.idle, .clearClass, .clearStart]
  | .poll _ =>
    match m.poll with
    | .writeClass _ => m.work ≠ .clearClass ∧ m.deinit ≠ .clearClass
    | _ => True
  | .work _ =>
    match m.work with
    | .reading skb reg seqid words => words.length ∈ [0, 5] →
      (m.regs reg).sid = seqid.setWidth 32 → (m.regs reg).owner = some skb.id
    | _ => True
  | .deinit => m.ptpTxSkb = none
  | _ => True

instance (m : Mac) : (label : Label) → Decidable (m.Apart label)
  | .process _ => inferInstanceAs (Decidable (_ → _))
  | .poll _ => by
    unfold Apart
    dsimp only
    split <;> infer_instance
  | .work _ => by
    unfold Apart
    dsimp only
    split <;> infer_instance
  | .deinit => inferInstanceAs (Decidable (_ = _))
  | .latch _ _ _ _ | .deinitStep => isTrue trivial

/-! ## What has been done for the packets -/

variable {m m' : Mac} {timeout : BitVec 64}

def Reported (outputs : List Output) (skb : Packet) : Prop :=
  (∃ time, .stamped skb (skb.seqidAt skb.ptpClass) time ∈ outputs) ∨
    .timedOut skb ∈ outputs ∨ .unrecognized skb ∈ outputs

def Latched (latched : List Stamp) (skb : Packet) (time : Timespec) : Prop :=
  ∃ stamp ∈ latched, stamp.owner = some skb.id ∧
    stamp.sid = (skb.seqidAt skb.ptpClass).setWidth 32 ∧ stamp.time = time

structure Books (latched : List Stamp) (outputs : List Output) (held : Option Packet) : Prop where
  took : ∀ skb, outputs.count (.took skb) ≤ 1
  released : ∀ skb, outputs.count (.released skb) =
    if .took skb ∈ outputs ∧ held ≠ some skb then 1 else 0
  reported : ∀ skb, .took skb ∈ outputs → held = some skb ∨ Reported outputs skb
  held : ∀ skb, held = some skb → .took skb ∈ outputs
  unrecognized : ∀ skb, .unrecognized skb ∈ outputs → ¬ skb.IsEvent
  own : ∀ skb seqid time, .stamped skb seqid time ∈ outputs → Latched latched skb time

theorem mem_older {output last : Output} {outputs : List Output} (member : output ∈ last :: outputs)
    (other : output ≠ last) : output ∈ outputs :=
  List.mem_of_ne_of_mem other member

theorem Reported.cons {outputs : List Output} {skb : Packet} (reported : Reported outputs skb)
    (output : Output) : Reported (output :: outputs) skb :=
  reported.imp (fun ⟨time, given⟩ => ⟨time, List.mem_cons_of_mem _ given⟩)
    (Or.imp (List.mem_cons_of_mem _) (List.mem_cons_of_mem _))

namespace Books

variable {latched : List Stamp} {outputs : List Output} {held : Option Packet} {skb : Packet}

theorem nil : Books [] [] none where
  took _ := Nat.zero_le _
  released _ := (if_neg fun both => nomatch both.1).symm
  reported := nofun
  held := nofun
  unrecognized := nofun
  own := nofun

theorem latch (books : Books latched outputs held) (stamp : Stamp) :
    Books (stamp :: latched) outputs held :=
  { books with
    own := fun skb seqid time given =>
      (books.own skb seqid time given).imp fun _ found => found.imp_left (List.mem_cons_of_mem _) }

theorem take (books : Books latched outputs none) (fresh : .took skb ∉ outputs) :
    Books latched (.took skb :: outputs) (some skb) where
  took other := by
    rw [List.count_cons]
    split
    next same =>
      obtain rfl := Output.took.inj (eq_of_beq same)
      exact Nat.le_of_eq (congrArg (· + 1) (List.count_eq_zero.mpr fresh))
    next => exact books.took other
  released other := by
    have different : Output.took skb ≠ .released other := nofun
    rw [List.count_cons_of_ne different, books.released other]
    refine if_congr ?_ rfl rfl
    constructor
    · rintro ⟨before, _⟩
      refine ⟨List.mem_cons_of_mem _ before, fun same => fresh ?_⟩
      exact Option.some_inj.mp same ▸ before
    · rintro ⟨now, different⟩
      rcases List.mem_cons.mp now with same | before
      · exact absurd (congrArg some (Output.took.inj same).symm) different
      · exact ⟨before, nofun⟩
  reported other taken := by
    rcases List.mem_cons.mp taken with same | before
    · exact .inl (congrArg some (Output.took.inj same).symm)
    · exact .inr (((books.reported other before).resolve_left nofun).cons _)
  held other same := Option.some_inj.mp same ▸ List.mem_cons_self
  unrecognized other warned := books.unrecognized other (mem_older warned nofun)
  own other seqid time given := books.own other seqid time (mem_older given nofun)

theorem release (books : Books latched outputs (some skb)) (reported : Reported outputs skb) :
    Books latched (.released skb :: outputs) none where
  took other := by
    have different : Output.released skb ≠ .took other := nofun
    rw [List.count_cons_of_ne different]
    exact books.took other
  released other := by
    have taken := books.held skb rfl
    have before := books.released other
    rw [List.count_cons]
    by_cases same : other = skb
    · subst same
      rw [if_neg fun both => both.2 rfl] at before
      rw [before, if_pos (beq_self_eq_true _),
        if_pos ⟨List.mem_cons_of_mem _ taken, fun h => nomatch h⟩]
    · have different : ¬ ((Output.released skb == Output.released other) = true) := by
        intro equal
        exact same (Output.released.inj (eq_of_beq equal)).symm
      rw [before, if_neg different, Nat.add_zero]
      refine if_congr ⟨fun both => ⟨List.mem_cons_of_mem _ both.1, fun h => nomatch h⟩,
        fun both => ⟨mem_older both.1 nofun, fun h => ?_⟩⟩ rfl rfl
      exact same (Option.some_inj.mp h).symm
  reported other taken := by
    have before := mem_older taken nofun
    rcases books.reported other before with same | done
    · exact .inr (Option.some_inj.mp same ▸ reported.cons _)
    · exact .inr (done.cons _)
  held := nofun
  unrecognized other warned := books.unrecognized other (mem_older warned nofun)
  own other seqid time given := books.own other seqid time (mem_older given nofun)

theorem note (books : Books latched outputs held) {output : Output}
    (notTook : ∀ skb, output ≠ .took skb) (notReleased : ∀ skb, output ≠ .released skb)
    (unrecognized : ∀ skb, output = .unrecognized skb → ¬ skb.IsEvent)
    (own : ∀ skb seqid time, output = .stamped skb seqid time → Latched latched skb time) :
    Books latched (output :: outputs) held where
  took other := by
    rw [List.count_cons_of_ne (notTook other)]
    exact books.took other
  released other := by
    rw [List.count_cons_of_ne (notReleased other), books.released other]
    refine if_congr (and_congr_left' ?_) rfl rfl
    exact ⟨List.mem_cons_of_mem _, fun member => mem_older member (notTook other).symm⟩
  reported other taken :=
    (books.reported other (mem_older taken (notTook other).symm)).imp_right
      fun done => done.cons _
  held other same := List.mem_cons_of_mem _ (books.held other same)
  unrecognized other warned := by
    rcases List.mem_cons.mp warned with now | before
    · exact unrecognized other now.symm
    · exact books.unrecognized other before
  own other seqid time given := by
    rcases List.mem_cons.mp given with now | before
    · exact own other seqid time now.symm
    · exact books.own other seqid time before

end Books

/-! ## The registers -/

def Agrees (stamp : Stamp) (words : List (BitVec 32)) : Prop :=
  words = (List.range words.length).map stamp.word

def Matches (skb : Packet) (word : Option (BitVec 32)) : Prop :=
  word = some ((skb.seqidAt skb.ptpClass).setWidth 32)

/-- The words that have been read so far, if the first has the sequence id of the packet: those of
the packet's stamp, if this is what is in the register now or if the last word has the sequence id
too. -/
structure Reads (latched : List Stamp) (now : Stamp) (skb : Packet) (words : List (BitVec 32)) :
    Prop where
  length : words.length ≤ 6
  found : Matches skb words[0]? → ∃ stamp ∈ latched, stamp.owner = some skb.id
  short : words.length < 6 → Matches skb words[0]? → now.owner = some skb.id → Agrees now words
  all : words.length = 6 → Matches skb words[0]? → Matches skb words[5]? →
    ∃ stamp ∈ latched, stamp.owner = some skb.id ∧ Agrees stamp words

variable {stamp now : Stamp} {words : List (BitVec 32)}

theorem Agrees.append (agrees : Agrees stamp words) :
    Agrees stamp (words ++ [stamp.word words.length]) := by
  rw [Agrees, List.length_append, List.length_singleton, List.range_succ, List.map_append,
    ← show words = (List.range words.length).map stamp.word from agrees, List.map_singleton]

theorem Reads.nil (latched : List Stamp) (now : Stamp) (skb : Packet) :
    Reads latched now skb [] where
  length := Nat.zero_le _
  found := nofun
  short _ _ _ := rfl
  all := nofun

theorem Reads.latch {latched : List Stamp} {later : Stamp} {skb : Packet}
    (reads : Reads latched now skb words) (later_eq : later = now ∨ later = stamp)
    (fresh : ∀ other ∈ latched, other.owner ≠ stamp.owner) :
    Reads (stamp :: latched) later skb words where
  length := reads.length
  found first := (reads.found first).imp fun _ found =>
    found.imp_left (List.mem_cons_of_mem _)
  short short first own := by
    rcases later_eq with rfl | rfl
    · exact reads.short short first own
    · obtain ⟨other, member, same⟩ := reads.found first
      exact absurd (same.trans own.symm) (fresh other member)
  all full first last := (reads.all full first last).imp fun _ found =>
    found.imp_left (List.mem_cons_of_mem _)

theorem Reads.read {latched : List Stamp} {skb : Packet} (reads : Reads latched now skb words)
    (short : words.length < 6) (known : ∀ id, now.owner = some id → now ∈ latched)
    (own : words.length ∈ [0, 5] → now.sid = (skb.seqidAt skb.ptpClass).setWidth 32 →
      now.owner = some skb.id) : Reads latched now skb (words ++ [now.word words.length]) := by
  have length : (words ++ [now.word words.length]).length = words.length + 1 :=
    List.length_append
  have agrees : Matches skb (words ++ [now.word words.length])[0]? → now.owner = some skb.id →
      Agrees now (words ++ [now.word words.length]) := by
    intro first owner
    cases words with
    | nil => rfl
    | cons word rest => exact (reads.short short first owner).append
  refine ⟨length ▸ short, fun first => ?_, fun _ first owner => agrees first owner,
    fun full first last => ?_⟩
  · cases words with
    | nil =>
      have owner := own List.mem_cons_self (Option.some_inj.mp first)
      exact ⟨now, known _ owner, owner⟩
    | cons word rest => exact reads.found first
  · have five : words.length = 5 := by omega
    have last' : now.sid = (skb.seqidAt skb.ptpClass).setWidth 32 := by
      rw [Matches, five, List.getElem?_append_right (Nat.le_of_eq five), five] at last
      exact Option.some_inj.mp last
    have owner := own (by simp [five]) last'
    exact ⟨now, known _ owner, owner, agrees first owner⟩

/-- What `mtk_ptp_hwtstamp_get_t1` and `mtk_ptp_hwtstamp_get_t3` give was latched for the packet. -/
theorem Reads.get {latched : List Stamp} {skb : Packet} {time : Timespec}
    (reads : Reads latched now skb words)
    (got : mtkPtpHwtstampGet (skb.seqidAt skb.ptpClass) words = some time) :
    Latched latched skb time := by
  rw [mtkPtpHwtstampGet.eq_def] at got
  split at got
  next sid0 dw0 dw1 dw2 dw3 sid1 =>
    obtain ⟨valid, gives⟩ := Option.ite_none_left_eq_some.mp got
    obtain ⟨first, last⟩ := not_or.mp valid
    have first := Decidable.not_not.mp first
    have last := Decidable.not_not.mp last
    obtain ⟨stamp, member, owner, agrees⟩ := reads.all rfl (congrArg some first.symm)
      (congrArg some (last.symm.trans first.symm))
    have words : [sid0, dw0, dw1, dw2, dw3, sid1] =
      [stamp.sid, stamp.dw 0, stamp.dw 1, stamp.dw 2, stamp.dw 3, stamp.sid] := agrees
    refine ⟨stamp, member, owner, ?_, ?_⟩
    · rw [first]
      exact (List.cons.inj words).1.symm
    · simp only [List.cons.injEq] at words
      obtain ⟨_, _, rfl, rfl, rfl, _⟩ := words
      exact Option.some_inj.mp gives
  next => nomatch got

/-! ## The packet in the slot -/

def Handles (m : Mac) (skb : Packet) : WorkPhase → Prop
  | .readClass handled => handled = skb
  | .reading handled reg seqid words =>
    handled = skb ∧ skb.tsRegAt skb.ptpClass = some reg ∧ seqid = skb.seqidAt skb.ptpClass ∧
      Reads m.latched (m.regs reg) skb words
  | .stamping handled seqid time =>
    handled = skb ∧ seqid = skb.seqidAt skb.ptpClass ∧ Latched m.latched skb time
  | .freeing handled => handled = skb ∧ Reported m.outputs skb
  | _ => False

inductive Stage (m : Mac) : Option Packet → Prop
  | free (empty : m.ptpTxSkb = none) (poll : m.poll = .idle) (pending : m.pending = false)
    (work : m.work ∈ [.idle, .clearClass, .clearStart]) : Stage m none
  | stored {skb : Packet} (slot : m.ptpTxSkb = some skb) (poll : m.poll = .writeClass skb)
    (pending : m.pending = false) (work : m.work ∈ [.idle, .clearClass, .clearStart])
    (deinit : m.deinit ∈ [.idle, .clearClass, .clearStart]) : Stage m (some skb)
  | classed {skb : Packet} (slot : m.ptpTxSkb = some skb) (ptpClass : m.ptpTxClass = skb.ptpClass)
    (poll : m.poll = .writeStart ∨ m.poll = .schedule) (pending : m.pending = false)
    (work : m.work ∈ [.idle, .clearStart]) (deinit : m.deinit ∈ [.idle, .clearStart]) :
    Stage m (some skb)
  | queued {skb : Packet} (slot : m.ptpTxSkb = some skb) (ptpClass : m.ptpTxClass = skb.ptpClass)
    (poll : m.poll = .idle) (pending : m.pending = true) (work : m.work ∈ [.idle, .clearStart])
    (deinit : m.deinit ∈ [.idle, .clearStart]) : Stage m (some skb)
  | handled {skb : Packet} (slot : m.ptpTxSkb = some skb) (ptpClass : m.ptpTxClass = skb.ptpClass)
    (poll : m.poll = .idle) (pending : m.pending = false) (work : m.Handles skb m.work)
    (deinit : m.deinit ∈ [.idle, .clearStart]) : Stage m (some skb)
  | released {skb : Packet} (slot : m.ptpTxSkb = some skb) (poll : m.poll = .idle)
    (pending : m.pending = false) (work : m.work = .clearSkb)
    (deinit : m.deinit ∈ [.idle, .clearStart]) : Stage m none

structure Inv (m : Mac) : Prop where
  at_stage : ∃ held, m.Stage held ∧ Books m.latched m.outputs held
  regs : ∀ reg id, (m.regs reg).owner = some id → m.regs reg ∈ m.latched

theorem inv_initial (regs : TsReg → Stamp) : (initial regs).Inv where
  at_stage := ⟨none, .free rfl rfl rfl List.mem_cons_self, .nil⟩
  regs := nofun

theorem Inv.serves (inv : m.Inv) : m.Serves := by
  obtain ⟨held, stage, books⟩ := inv.at_stage
  have quiet : m.Quiet → held = none := by
    intro quiet
    cases stage with
    | free => rfl
    | stored _ poll => exact nomatch quiet.poll.symm.trans poll
    | classed _ _ poll =>
      rw [quiet.poll] at poll
      exact poll.elim nofun nofun
    | queued _ _ _ pending => exact nomatch quiet.pending.symm.trans pending
    | handled _ _ _ _ work =>
      rw [quiet.work] at work
      exact work.elim
    | released _ _ _ work => exact nomatch quiet.work.symm.trans work
  have one : ∀ skb, .took skb ∈ m.outputs → m.outputs.count (.took skb) = 1 := fun skb taken =>
    Nat.le_antisymm (books.took skb) (List.count_pos_iff.mpr taken)
  refine ⟨fun skb => ?_, fun still skb => ?_, fun still skb taken event => ?_,
    fun skb seqid time given => books.own skb seqid time given⟩
  · rw [books.released]
    split
    next both => exact Nat.le_of_eq (one skb both.1).symm
    next => exact Nat.zero_le _
  · rw [books.released, quiet still]
    by_cases taken : .took skb ∈ m.outputs
    · rw [one skb taken, if_pos ⟨taken, nofun⟩]
    · rw [List.count_eq_zero.mpr taken, if_neg fun both => taken both.1]
  · have reported := (books.reported skb taken).resolve_left (by
      rw [quiet still]
      nofun)
    rcases reported with given | timedOut | warned
    · exact .inl given
    · exact .inr timedOut
    · exact absurd event (books.unrecognized skb warned)

/-! ## Steps -/

theorem Inv.latch (inv : m.Inv) {reg : TsReg}
    (fresh : ∀ other ∈ m.latched, other.owner ≠ stamp.owner) :
    Mac.Inv { m with
      regs := fun other => if other = reg then stamp else m.regs other
      latched := stamp :: m.latched } := by
  obtain ⟨held, stage, books⟩ := inv.at_stage
  refine ⟨⟨held, ?_, books.latch stamp⟩, fun other id own => ?_⟩
  · cases stage with
    | free empty poll pending work => exact .free empty poll pending work
    | stored slot poll pending work deinit => exact .stored slot poll pending work deinit
    | classed slot ptpClass poll pending work deinit =>
      exact .classed slot ptpClass poll pending work deinit
    | queued slot ptpClass poll pending work deinit =>
      exact .queued slot ptpClass poll pending work deinit
    | released slot poll pending work deinit => exact .released slot poll pending work deinit
    | @handled skb slot ptpClass poll pending work deinit =>
      refine .handled slot ptpClass poll pending ?_ deinit
      change Handles _ skb m.work
      cases phase : m.work <;> rw [phase] at work
      case readClass => exact work
      case reading handled other seqid words =>
        refine work.imp_right (And.imp_right (And.imp_right fun reads => reads.latch ?_ fresh))
        by_cases same : other = reg
        · exact .inr (if_pos same)
        · exact .inl (if_neg same)
      case stamping =>
        refine work.imp_right (And.imp_right fun found => ?_)
        exact found.imp fun _ rest => rest.imp_left (List.mem_cons_of_mem _)
      case freeing => exact work
      all_goals exact work.elim
  · change (if other = reg then stamp else m.regs other).owner = some id at own
    change (if other = reg then stamp else m.regs other) ∈ stamp :: m.latched
    split at own
    next same =>
      rw [if_pos same]
      exact List.mem_cons_self
    next different =>
      rw [if_neg different]
      exact List.mem_cons_of_mem _ (inv.regs other id own)

theorem took_notMem {skb : Packet} (fresh : skb.id ∉ m.takenIds) : .took skb ∉ m.outputs :=
  fun taken => fresh (List.mem_filterMap.mpr ⟨_, taken, rfl⟩)

theorem Inv.process {skb : Packet} (inv : m.Inv) (fresh : skb.id ∉ m.takenIds)
    (apart : skb.Taken → m.ptpTxSkb = none ∧ m.deinit ∈ [.idle, .clearClass, .clearStart]) :
    (m.mtkPtpHwtstampProcessTx skb).Inv := by
  rw [mtkPtpHwtstampProcessTx]
  split
  next taken =>
    obtain ⟨empty, deinit⟩ := apart taken
    obtain ⟨held, stage, books⟩ := inv.at_stage
    refine ⟨⟨some skb, ?_⟩, inv.regs⟩
    cases stage with
    | free _ _ pending work =>
      exact ⟨.stored rfl rfl pending work deinit, books.take (took_notMem fresh)⟩
    | stored slot | classed slot | queued slot | handled slot | released slot =>
      exact nomatch empty.symm.trans slot
  next => exact inv

theorem Inv.pollStep {jiffies : BitVec 64} (inv : m.Inv) (apart : m.Apart (.poll jiffies))
    (stepped : m.pollStep jiffies = some m') : m'.Inv := by
  obtain ⟨held, stage, books⟩ := inv.at_stage
  rw [Mac.pollStep] at stepped
  rw [Apart] at apart
  cases stage with
  | free _ poll | queued _ _ poll | handled _ _ poll | released _ poll =>
    rw [poll] at stepped
    nomatch stepped
  | stored slot poll pending work deinit =>
    rw [poll] at stepped apart
    obtain rfl := Option.some_inj.mp stepped
    refine ⟨⟨_, .classed slot rfl (.inl rfl) pending ?_ ?_, books⟩, inv.regs⟩
    · simp only [List.mem_cons, List.not_mem_nil, or_false] at work ⊢
      exact work.imp_right fun later => later.resolve_left apart.1
    · simp only [List.mem_cons, List.not_mem_nil, or_false] at deinit ⊢
      exact deinit.imp_right fun later => later.resolve_left apart.2
  | classed slot ptpClass poll pending work deinit =>
    rcases poll with poll | poll <;> rw [poll] at stepped <;>
      obtain rfl := Option.some_inj.mp stepped
    · exact ⟨⟨_, .classed slot ptpClass (.inr rfl) pending work deinit, books⟩, inv.regs⟩
    · have queues : m.scheduleWork = true := by
        rw [scheduleWork, pending, Bool.false_or]
        exact decide_eq_true fun cancelling => by simp [cancelling] at deinit
      exact ⟨⟨_, .queued slot ptpClass rfl queues work deinit, books⟩, inv.regs⟩

theorem Inv.shutDown (inv : m.Inv) (empty : m.ptpTxSkb = none) :
    Mac.Inv { m with deinit := .cancelling, pending := false } := by
  obtain ⟨held, stage, books⟩ := inv.at_stage
  cases stage with
  | free _ poll _ work => exact ⟨⟨_, .free empty poll rfl work, books⟩, inv.regs⟩
  | stored slot | classed slot | queued slot | handled slot | released slot =>
    exact nomatch empty.symm.trans slot

theorem Stage.free_of_deinit {held : Option Packet} (stage : m.Stage held)
    (busy : m.deinit ∉ [.idle, .clearClass, .clearStart]) :
    held = none ∧ m.ptpTxSkb = none ∧ m.poll = .idle ∧ m.pending = false ∧
      m.work ∈ [.idle, .clearClass, .clearStart] := by
  have within : m.deinit ∉ [.idle, .clearStart] := fun member =>
    busy (List.Sublist.subset (.cons_cons _ (.cons _ (.refl _))) member)
  cases stage with
  | free empty poll pending work => exact ⟨rfl, empty, poll, pending, work⟩
  | stored _ _ _ _ deinit => exact absurd deinit busy
  | classed _ _ _ _ _ deinit => exact absurd deinit within
  | queued _ _ _ _ _ deinit => exact absurd deinit within
  | handled _ _ _ _ _ deinit => exact absurd deinit within
  | released _ _ _ _ deinit => exact absurd deinit within

theorem Inv.deinitStep (inv : m.Inv) (stepped : m.deinitStep = some m') : m'.Inv := by
  obtain ⟨held, stage, books⟩ := inv.at_stage
  rw [Mac.deinitStep] at stepped
  cases here : m.deinit <;> rw [here] at stepped <;> dsimp only at stepped
  case idle => nomatch stepped
  case cancelling =>
    obtain ⟨rfl, empty, poll, pending, work⟩ := stage.free_of_deinit (by simp [here])
    split at stepped
    next =>
      obtain rfl := Option.some_inj.mp stepped
      exact ⟨⟨_, .free empty poll pending work, books⟩, inv.regs⟩
    next => nomatch stepped
  case freeing =>
    obtain ⟨rfl, empty, poll, pending, work⟩ := stage.free_of_deinit (by simp [here])
    rw [empty] at stepped
    obtain rfl := Option.some_inj.mp stepped
    exact ⟨⟨_, .free rfl poll pending work, books⟩, inv.regs⟩
  case clearSkb =>
    obtain ⟨rfl, empty, poll, pending, work⟩ := stage.free_of_deinit (by simp [here])
    obtain rfl := Option.some_inj.mp stepped
    exact ⟨⟨_, .free rfl poll pending work, books⟩, inv.regs⟩
  case clearClass =>
    obtain rfl := Option.some_inj.mp stepped
    have before : m.deinit ∉ [.idle, .clearStart] := by simp [here]
    refine ⟨⟨held, ?_, books⟩, inv.regs⟩
    cases stage with
    | free empty poll pending work => exact .free empty poll pending work
    | stored slot poll pending work => exact .stored slot poll pending work (by simp)
    | classed _ _ _ _ _ deinit => exact absurd deinit before
    | queued _ _ _ _ _ deinit => exact absurd deinit before
    | handled _ _ _ _ _ deinit => exact absurd deinit before
    | released _ _ _ _ deinit => exact absurd deinit before
  case clearStart =>
    obtain rfl := Option.some_inj.mp stepped
    refine ⟨⟨held, ?_, books⟩, inv.regs⟩
    cases stage with
    | free empty poll pending work => exact .free empty poll pending work
    | stored slot poll pending work => exact .stored slot poll pending work List.mem_cons_self
    | classed slot ptpClass poll pending work =>
      exact .classed slot ptpClass poll pending work List.mem_cons_self
    | queued slot ptpClass poll pending work =>
      exact .queued slot ptpClass poll pending work List.mem_cons_self
    | handled slot ptpClass poll pending work =>
      exact .handled slot ptpClass poll pending work List.mem_cons_self
    | released slot poll pending work =>
      exact .released slot poll pending work List.mem_cons_self

/-! ## The work -/

section

variable {held : Option Packet} {skb : Packet}

theorem Stage.handles (stage : m.Stage held)
    (busy : m.work ∉ [.idle, .clearSkb, .clearClass, .clearStart]) :
    ∃ skb, held = some skb ∧ m.ptpTxSkb = some skb ∧ m.ptpTxClass = skb.ptpClass ∧
      m.poll = .idle ∧ m.pending = false ∧ m.Handles skb m.work ∧
      m.deinit ∈ [.idle, .clearStart] := by
  simp only [List.mem_cons, List.not_mem_nil, or_false, not_or] at busy
  cases stage with
  | free _ _ _ work | stored _ _ _ work =>
    simp only [List.mem_cons, List.not_mem_nil, or_false] at work
    exact absurd work (not_or.mpr ⟨busy.1, not_or.mpr busy.2.2⟩)
  | classed _ _ _ _ work | queued _ _ _ _ work =>
    simp only [List.mem_cons, List.not_mem_nil, or_false] at work
    exact absurd work (not_or.mpr ⟨busy.1, busy.2.2.2⟩)
  | released _ _ _ work => exact absurd work busy.2.1
  | handled slot ptpClass poll pending work deinit =>
    exact ⟨_, rfl, slot, ptpClass, poll, pending, work, deinit⟩

end

theorem Inv.workStep {jiffies : BitVec 64} (inv : m.Inv) (apart : m.Apart (.work jiffies))
    (stepped : m.workStep timeout jiffies = some m') : m'.Inv := by
  obtain ⟨held, stage, books⟩ := inv.at_stage
  rw [Mac.workStep] at stepped
  rw [Apart] at apart
  cases here : m.work <;> rw [here] at stepped apart <;> dsimp only at stepped
  case idle =>
    obtain ⟨queued, done⟩ := Option.ite_none_right_eq_some.mp stepped
    obtain rfl := Option.some_inj.mp done
    cases stage with
    | free _ _ pending | stored _ _ pending | classed _ _ _ pending | handled _ _ _ pending
    | released _ _ pending => exact nomatch pending.symm.trans queued
    | queued slot ptpClass poll _ _ deinit =>
      rw [slot]
      exact ⟨⟨_, .handled rfl ptpClass poll rfl rfl deinit, books⟩, inv.regs⟩
  case readClass skb =>
    obtain ⟨_, rfl, slot, ptpClass, poll, pending, work, deinit⟩ :=
      stage.handles (by simp [here])
    rw [here] at work
    obtain rfl : skb = _ := work
    obtain rfl := Option.some_inj.mp stepped
    rw [ptpClass]
    cases found : skb.tsRegAt skb.ptpClass with
    | some reg =>
      exact ⟨⟨_, .handled slot rfl poll pending ⟨rfl, found, rfl, .nil _ _ _⟩ deinit, books⟩,
        inv.regs⟩
    | none =>
      have warned : Reported (.unrecognized skb :: m.outputs) skb :=
        .inr (.inr List.mem_cons_self)
      refine ⟨⟨_, .handled slot rfl poll pending ⟨rfl, warned⟩ deinit, ?_⟩, inv.regs⟩
      refine books.note nofun nofun (fun other same event => ?_) nofun
      obtain rfl := Output.unrecognized.inj same
      rw [Packet.IsEvent, found] at event
      nomatch event
  case reading skb reg seqid words =>
    obtain ⟨_, rfl, slot, ptpClass, poll, pending, work, deinit⟩ :=
      stage.handles (by simp [here])
    rw [here] at work
    obtain ⟨rfl, found, rfl, reads⟩ := work
    split at stepped
    next short =>
      obtain rfl := Option.some_inj.mp stepped
      have more := reads.read short (inv.regs reg) apart
      exact ⟨⟨_, .handled slot ptpClass poll pending ⟨rfl, found, rfl, more⟩ deinit, books⟩,
        inv.regs⟩
    next =>
      obtain rfl := Option.some_inj.mp stepped
      cases got : mtkPtpHwtstampGet (skb.seqidAt skb.ptpClass) words with
      | some time =>
        exact ⟨⟨_, .handled slot ptpClass poll pending ⟨rfl, rfl, reads.get got⟩ deinit, books⟩,
          inv.regs⟩
      | none =>
        dsimp only
        split
        next =>
          have warned : Reported (.timedOut skb :: m.outputs) skb := .inr (.inl List.mem_cons_self)
          exact ⟨⟨_, .handled slot ptpClass poll pending ⟨rfl, warned⟩ deinit,
            books.note nofun nofun nofun nofun⟩, inv.regs⟩
        next =>
          have queues : m.scheduleWork = true := by
            rw [scheduleWork, pending, Bool.false_or]
            exact decide_eq_true fun cancelling => by simp [cancelling] at deinit
          exact ⟨⟨_, .queued slot ptpClass poll queues List.mem_cons_self deinit, books⟩,
            inv.regs⟩
  case stamping skb seqid time =>
    obtain ⟨_, rfl, slot, ptpClass, poll, pending, work, deinit⟩ :=
      stage.handles (by simp [here])
    rw [here] at work
    obtain ⟨rfl, rfl, latched⟩ := work
    obtain rfl := Option.some_inj.mp stepped
    have given : Reported (.stamped skb (skb.seqidAt skb.ptpClass) time :: m.outputs) skb :=
      .inl ⟨time, List.mem_cons_self⟩
    refine ⟨⟨_, .handled slot ptpClass poll pending ⟨rfl, given⟩ deinit, ?_⟩, inv.regs⟩
    refine books.note nofun nofun nofun fun other seqid time' same => ?_
    obtain ⟨rfl, rfl, rfl⟩ := Output.stamped.inj same
    exact latched
  case freeing skb =>
    obtain ⟨_, rfl, slot, ptpClass, poll, pending, work, deinit⟩ :=
      stage.handles (by simp [here])
    rw [here] at work
    obtain ⟨rfl, reported⟩ := work
    obtain rfl := Option.some_inj.mp stepped
    exact ⟨⟨_, .released slot poll pending rfl deinit, books.release reported⟩, inv.regs⟩
  case clearSkb =>
    obtain rfl := Option.some_inj.mp stepped
    cases stage with
    | released slot poll pending _ deinit =>
      exact ⟨⟨_, .free rfl poll pending (by simp), books⟩, inv.regs⟩
    | handled _ _ _ _ work =>
      rw [here] at work
      exact work.elim
    | free _ _ _ work | stored _ _ _ work | classed _ _ _ _ work | queued _ _ _ _ work =>
      simp [here] at work
  case clearClass =>
    obtain rfl := Option.some_inj.mp stepped
    cases stage with
    | free empty poll pending =>
      exact ⟨⟨_, .free empty poll pending (by simp), books⟩, inv.regs⟩
    | stored slot poll pending _ deinit =>
      exact ⟨⟨_, .stored slot poll pending (by simp) deinit, books⟩, inv.regs⟩
    | handled _ _ _ _ work =>
      rw [here] at work
      exact work.elim
    | classed _ _ _ _ work | queued _ _ _ _ work | released _ _ _ work => simp [here] at work
  case clearStart =>
    obtain rfl := Option.some_inj.mp stepped
    refine ⟨⟨held, ?_, books⟩, inv.regs⟩
    cases stage with
    | free empty poll pending => exact .free empty poll pending List.mem_cons_self
    | stored slot poll pending _ deinit =>
      exact .stored slot poll pending List.mem_cons_self deinit
    | classed slot ptpClass poll pending _ deinit =>
      exact .classed slot ptpClass poll pending List.mem_cons_self deinit
    | queued slot ptpClass poll pending _ deinit =>
      exact .queued slot ptpClass poll pending List.mem_cons_self deinit
    | handled _ _ _ _ work =>
      rw [here] at work
      exact work.elim
    | released _ _ _ work => simp [here] at work

/-! ## Runs -/

theorem inv_step {label : Label} (inv : m.Inv) (apart : m.Apart label)
    (stepped : m.step timeout label = some m') : m'.Inv := by
  cases label with
  | latch reg id sid dw =>
    obtain ⟨fresh, done⟩ := Option.ite_none_right_eq_some.mp stepped
    obtain rfl := Option.some_inj.mp done
    exact inv.latch fresh
  | process skb =>
    rw [step] at stepped
    split at stepped
    next =>
      obtain ⟨fresh, done⟩ := Option.ite_none_left_eq_some.mp stepped
      obtain rfl := Option.some_inj.mp done
      exact inv.process fresh apart
    next => nomatch stepped
  | poll jiffies => exact inv.pollStep apart stepped
  | work jiffies => exact inv.workStep apart stepped
  | deinit =>
    rw [step] at stepped
    split at stepped
    next =>
      obtain rfl := Option.some_inj.mp stepped
      exact inv.shutDown apart
    next => nomatch stepped
  | deinitStep => exact inv.deinitStep stepped

/-- In every run that keeps packets apart each of them is served. -/
theorem serves_of_apart {regs : TsReg → Stamp}
    (run : Reaches Apart (step timeout) (initial regs) m) : m.Serves :=
  (run.invariant (fun _ _ _ inv apart stepped => inv_step inv apart stepped)
    (inv_initial regs)).serves

def sync (id : Nat) (seqid : BitVec 8) : Packet where
  id := id
  ptpClass := 0x42
  data := List.replicate 45 0 ++ [seqid]

def passes (skb : Packet) : List Label := [.process skb, .poll 0, .poll 0, .poll 0]

def stampedRun : List Label :=
  .latch .t1 7 5 (fun _ => 0) :: passes (sync 7 5) ++ List.replicate 14 (.work 0)

theorem stampedRun_serves :
    ∃ m, Reaches Apart (step 125) (initial fun _ => ⟨none, 0, fun _ => 0⟩) m ∧ m.Serves := by
  obtain ⟨m, run⟩ : ∃ m, runSteps (step 125) stampedRun
      (initial fun _ => ⟨none, 0, fun _ => 0⟩) = some m := Option.isSome_iff_exists.mp (by decide)
  have meets : AllAllowed Apart (step 125) stampedRun (initial fun _ => ⟨none, 0, fun _ => 0⟩) := by
    decide
  have reaches := reaches_of_runSteps meets run
  exact ⟨m, reaches, serves_of_apart reaches⟩

def overwrittenRun : List Label :=
  .latch .t1 6 4 (fun _ => 0) :: passes (sync 6 4) ++ .latch .t1 7 5 (fun _ => 0) ::
    passes (sync 7 5) ++ List.replicate 14 (.work 0)

theorem overwrittenRun_leaks :
    ∃ m, Reaches anyStep (step 125) (initial fun _ => ⟨none, 0, fun _ => 0⟩) m ∧ ¬ m.Serves := by
  obtain ⟨m, run, pending, work, poll, deinit, taken, kept⟩ :
      ∃ m, runSteps (step 125) overwrittenRun (initial fun _ => ⟨none, 0, fun _ => 0⟩) = some m ∧
        m.pending = false ∧ m.work = .idle ∧ m.poll = .idle ∧ m.deinit = .idle ∧
        m.outputs.count (.took (sync 6 4)) = 1 ∧
        m.outputs.count (.released (sync 6 4)) = 0 := by
    refine ⟨_, rfl, rfl, rfl, rfl, rfl, ?_, ?_⟩ <;> decide
  refine ⟨m, reaches_of_runSteps allAllowed_anyStep run, fun serves => ?_⟩
  have balanced := serves.released ⟨pending, work, poll, deinit⟩ (sync 6 4)
  rw [kept, taken] at balanced
  nomatch balanced

end Mac

end MetaFilogic.Eth.Ptp
