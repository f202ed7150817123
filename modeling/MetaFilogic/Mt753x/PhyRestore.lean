import MetaFilogic.Mt753x.PhyCodes

/-!
# What the calibration leaves behind

The analog part of PHY 0 is enabled before anything is waited for, and disabled at the end of each
function only.
-/

namespace MetaFilogic.Mt753x

/-! ## The registers of the sweeps -/

/-- What is written between the beginning and the end of a function: the enable register stays
enabled. -/
def CalWrites (phyaddr port dev addr : Nat) (data : BitVec 32) : Prop :=
  port = PHY0 ∧ (dev = 0x1e ∧ addr ∈ [0x17c, 0xe0] ∨ dev = 0x1f ∧ addr = 0x115) ∨
    port = phyaddr ∧ dev = 0x1e ∧ (addr = 0xdb ∧ data.setWidth 16 ≠ 0#16 ∨
      addr ∈ [0xdc, 0xdd, 0x17d, 0x17e, 0x17f, 0x180, 0x181, 0x182, 0x183, 0x184, 0x174, 0x175,
        0x172, 0x173, 0x12, 0x16, 0x17, 0x18, 0x19, 0x20, 0x21, 0x22])

def Within {α : Type} (writes : Nat → Nat → Nat → BitVec 32 → Prop) (program : Program α) : Prop :=
  ∀ inv : (Nat → Nat → Nat → BitVec 16) → Prop,
    (∀ (s : Phys) port dev addr data, writes port dev addr data → inv s.reg →
      inv (s.write port dev addr data).reg) →
    Keeps (fun s => inv s.reg) program

namespace Within

variable {α β : Type} {writes : Nat → Nat → Nat → BitVec 32 → Prop} {program : Program α}

theorem pure (value : α) : Within writes (Pure.pure value : Program α) :=
  fun _ _ => Keeps.pure value

theorem throw (reason : Stop) : Within writes (MonadExcept.throw reason : Program α) :=
  fun _ _ => Keeps.throw reason

theorem bind {next : α → Program β} (first : Within writes program)
    (second : ∀ value, Within writes (next value)) : Within writes (program >>= next) :=
  fun inv stable => Keeps.bind (first inv stable) fun value => second value inv stable

theorem ite {condition : Prop} [Decidable condition] {no : Program α} (yes : Within writes program)
    (other : Within writes no) : Within writes (if condition then program else no) :=
  fun inv stable => Keeps.ite (yes inv stable) (other inv stable)

theorem forM {body : α → Program Unit} (each : ∀ item, Within writes (body item))
    (items : List α) : Within writes (items.forM body) :=
  fun inv stable => Keeps.forM (fun item => each item inv stable) items

theorem write {port dev addr : Nat} {data : BitVec 32} (allowed : writes port dev addr data) :
    Within writes (tcPhyWriteDevReg port dev addr data) :=
  fun _ stable s holds => stable s _ _ _ _ allowed holds

theorem writeCode {port dev addr : Nat} {mask kept data : BitVec 32}
    (allowed : writes port dev addr data) :
    Within writes (writeCode port dev addr mask kept data) :=
  fun _ stable s holds => stable s _ _ _ _ allowed holds

theorem read {port dev addr : Nat} : Within writes (tcPhyReadDevReg port dev addr) :=
  fun _ _ _ holds => holds

theorem tableAt {tbl : List (BitVec 8)} {i : Int} : Within writes (tableAt tbl i) :=
  fun _ _ _ holds => holds

theorem setGeCalFlag : Within writes setGeCalFlag := fun _ _ _ holds => holds

theorem calWait (allowed : ∀ data, writes PHY0 0x1e 0x17c data) : Within writes calWait := by
  rw [Mt753x.calWait, allGeAnaCalWait]
  refine bind (bind (write (allowed _)) fun _ => ?_) fun status => ite ?_ (throw _)
  · refine bind (fun _ _ _ holds => holds) fun answer => ite ?_ ?_
    · exact bind (write (allowed _)) fun _ => pure _
    · exact bind (write (allowed _)) fun _ => bind (write (allowed _)) fun _ =>
        bind (write (allowed _)) fun _ => pure _
  · exact fun _ _ _ holds => holds

variable {w : Nat} {put : BitVec w → Program Unit} {polarity : Bool → BitVec w}

theorem sweep (allowed : ∀ data, writes PHY0 0x1e 0x17c data)
    (puts : ∀ code, Within writes (put code)) (code : BitVec w) :
    Within writes (sweep put polarity code) := by
  have loop : ∀ step init fuel code, Within writes (sweepLoop put step init fuel code) := by
    intro step init fuel
    induction fuel with
    | zero => exact fun code => throw _
    | succ fuel ih =>
      intro code
      rw [sweepLoop]
      exact bind (puts _) fun _ => bind (calWait allowed) fun compOut =>
        ite (pure _) (ite (pure _) (ih _))
  exact bind (calWait allowed) fun init => loop _ _ _ _

theorem mono {more : Nat → Nat → Nat → BitVec 32 → Prop} (within : Within writes program)
    (wider : ∀ {port dev addr data}, writes port dev addr data → more port dev addr data) :
    Within more program :=
  fun inv stable => within inv fun s port dev addr data allowed =>
    stable s port dev addr data (wider allowed)

end Within

section Sweeps

variable {phyaddr : Nat} {pair : Pair} {addr : Nat} {data : BitVec 32}

theorem calWrites_wait (data : BitVec 32) : CalWrites phyaddr PHY0 0x1e 0x17c data :=
  .inl ⟨rfl, .inl ⟨rfl, by decide⟩⟩

theorem calWrites_zcal : CalWrites phyaddr PHY0 0x1e 0xe0 data :=
  .inl ⟨rfl, .inl ⟨rfl, by decide⟩⟩

theorem calWrites_port (listed : addr ∈ [0xdc, 0xdd, 0x17d, 0x17e, 0x17f, 0x180, 0x181, 0x182,
    0x183, 0x184, 0x174, 0x175, 0x172, 0x173, 0x12, 0x16, 0x17, 0x18, 0x19, 0x20, 0x21, 0x22]) :
    CalWrites phyaddr phyaddr 0x1e addr data := .inr ⟨rfl, rfl, .inr listed⟩

theorem geCalR50Pair_within : Within (CalWrites phyaddr) (geCalR50Pair phyaddr pair) := by
  have enabled : CalWrites phyaddr phyaddr 0x1e 0xdb pair.zcalen.1 :=
    .inr ⟨rfl, rfl, .inl ⟨rfl, by cases pair <;> decide⟩⟩
  have reg : ∀ data, CalWrites phyaddr phyaddr 0x1e pair.r50.1 data := fun _ =>
    calWrites_port (by cases pair <;> decide)
  rw [geCalR50Pair]
  refine .bind .read fun _ => .bind (.writeCode calWrites_zcal) fun _ =>
    .bind (.write enabled) fun _ => .bind (.write (calWrites_port (by decide))) fun _ =>
    .bind (.sweep calWrites_wait (fun _ => .writeCode calWrites_zcal) _) fun result => ?_
  obtain ⟨status, found⟩ := result
  cases status
  · exact .bind (.pure _) fun _ => .bind .read fun _ => .writeCode (reg _)
  · exact .bind .tableAt fun _ => .bind .read fun _ => .writeCode (reg _)
  · exact .bind .tableAt fun _ => .bind .read fun _ => .writeCode (reg _)

theorem enablePair_within (dacIn : BitVec 32) :
    Within (CalWrites phyaddr) (enablePair phyaddr pair dacIn) :=
  .bind (.write (calWrites_port (by decide))) fun _ =>
    .bind (.write (calWrites_port (by cases pair <;> decide))) fun _ =>
    .write (calWrites_port (by cases pair <;> decide))

theorem geCalTxOffsetPair_within : Within (CalWrites phyaddr) (geCalTxOffsetPair phyaddr pair) := by
  have reg : ∀ data, CalWrites phyaddr phyaddr 0x1e pair.txOffset.1 data := fun _ =>
    calWrites_port (by cases pair <;> decide)
  rw [geCalTxOffsetPair]
  refine .bind .tableAt fun _ => .bind (enablePair_within _) fun _ => .bind .read fun _ =>
    .bind (.writeCode (reg _)) fun _ =>
    .bind (.sweep calWrites_wait (fun _ => .bind .tableAt fun _ => .writeCode (reg _)) _)
      fun result => ?_
  obtain ⟨status, found⟩ := result
  cases status
  · exact .writeCode (reg _)
  · exact .bind .tableAt fun _ => .pure _
  · exact .bind .tableAt fun _ => .pure _

theorem geCalTxAmpPair_within : Within (CalWrites phyaddr) (geCalTxAmpPair phyaddr pair) := by
  have reg : ∀ data, CalWrites phyaddr phyaddr 0x1e pair.txAmp.1 data := fun _ =>
    calWrites_port (by cases pair <;> decide)
  have reg100 : ∀ data, CalWrites phyaddr phyaddr 0x1e pair.txAmp.2.1 data := fun _ =>
    calWrites_port (by cases pair <;> decide)
  have put : ∀ temp, Within (CalWrites phyaddr)
      (putTxAmp phyaddr pair.txAmp.1 pair.txAmp.2.1 pair.txAmp.2.2 temp) := fun temp =>
    .bind (.writeCode (reg _)) fun _ => .writeCode (reg100 _)
  have lower : Within (CalWrites phyaddr) (lowerAmp phyaddr pair) := by
    rw [lowerAmp]
    refine .bind .read fun _ => ?_
    cases pair
    all_goals
      exact .bind (.writeCode (reg _)) fun _ => .bind .read fun _ => .writeCode (reg100 _)
  rw [geCalTxAmpPair]
  refine .bind (enablePair_within _) fun _ => .bind .read fun _ => .bind (put _) fun _ =>
    .bind (.sweep calWrites_wait put _) fun result => ?_
  obtain ⟨status, found⟩ := result
  cases status
  · exact .writeCode (reg _)
  · exact .pure _
  · show Within _ (finishAmp phyaddr pair found)
    rw [finishAmp]
    refine .bind (.writeCode (reg100 _)) fun _ => .bind (.writeCode (reg _)) fun _ => ?_
    cases txAmpMore phyaddr pair
    all_goals
      cases txAmpMore100 phyaddr pair
    · exact lower
    · exact .bind (.writeCode (reg100 _)) fun _ => lower
    · exact .bind (.writeCode (reg _)) fun _ => lower
    · exact .bind (.writeCode (reg _)) fun _ => .bind (.writeCode (reg100 _)) fun _ => lower

end Sweeps

/-! ## The functions -/

def forcedRegs : List Nat :=
  [0x3e, 0x17d, 0x17e, 0x17f, 0x180, 0x181, 0x182, 0x183, 0x184]

def calenRegs : List Nat := [0xdb, 0xdc, 0xdd] ++ forcedRegs

/-- What the calibrations of a port do not write in front of that of the amplitude: `1f_300`, and,
for another port, what forces the inputs of PHY 0. -/
def Untouched (phyaddr port dev addr : Nat) : Prop :=
  dev = 0x1f ∧ addr = 0x300 ∨ phyaddr ≠ PHY0 ∧ port = PHY0 ∧ dev = 0x1e ∧ addr ∈ forcedRegs

def Enabled (s : Phys) : Prop := s.reg PHY0 0x1e 0xdb ≠ 0#16

section Functions

variable {phyaddr port dev addr : Nat} {data : BitVec 32} {α : Type} {program : Program α}

theorem quiet_of_calWrites (written : CalWrites phyaddr port dev addr data) :
    ¬Untouched phyaddr port dev addr := by
  rintro (⟨rfl, rfl⟩ | ⟨other, rfl, rfl, forced⟩)
  · rcases written with ⟨-, ⟨same, -⟩ | ⟨-, same⟩⟩ | ⟨-, same, -⟩
    all_goals exact absurd same (by decide)
  · rcases written with ⟨-, ⟨-, listed⟩ | ⟨same, -⟩⟩ | ⟨same, -⟩
    · revert listed forced
      simp only [forcedRegs, List.mem_cons, List.not_mem_nil, or_false]
      omega
    · exact absurd same (by decide)
    · exact other same.symm

theorem quiet_of_notMem (free : addr ∉ forcedRegs) : ¬Untouched phyaddr port 0x1e addr := by
  rintro (⟨same, -⟩ | ⟨-, -, -, forced⟩)
  · exact absurd same (by decide)
  · exact free forced

theorem quiet_port : ¬Untouched phyaddr phyaddr 0x1e addr := by
  rintro (⟨same, -⟩ | ⟨other, same, -⟩)
  · exact absurd same (by decide)
  · exact other same

theorem keeps_enabled (within : Within (CalWrites phyaddr) program) : Keeps Enabled program := by
  refine within (fun reg => reg PHY0 0x1e 0xdb ≠ 0#16) fun s port dev addr data written holds => ?_
  rw [reg_write]
  split
  · rename_i same
    obtain ⟨rfl, rfl, rfl⟩ := same
    rcases written with ⟨-, ⟨-, listed⟩ | ⟨same, -⟩⟩ | ⟨-, -, ⟨-, some_⟩ | listed⟩
    · exact absurd listed (by decide)
    · exact absurd same (by decide)
    · exact some_
    · exact absurd listed (by decide)
  · exact holds

theorem keeps_reg {writes : Nat → Nat → Nat → BitVec 32 → Prop} (within : Within writes program)
    (apart : ∀ data, ¬writes port dev addr data) (v : BitVec 16) :
    Keeps (fun s => s.reg port dev addr = v) program := by
  refine within (fun reg => reg port dev addr = v) fun s port' dev' addr' data written holds => ?_
  rw [reg_write, if_neg]
  · exact holds
  · rintro ⟨rfl, rfl, rfl⟩
    exact apart _ written

theorem geCalRext_quiet :
    Within (fun port dev addr _ => ¬Untouched phyaddr port dev addr) (geCalRext 0) := by
  have db : ∀ port, ¬Untouched phyaddr port 0x1e 0xdb := fun _ => quiet_of_notMem (by decide)
  have dc : ∀ port, ¬Untouched phyaddr port 0x1e 0xdc := fun _ => quiet_of_notMem (by decide)
  have zcal : ¬Untouched phyaddr PHY0 0x1e 0xe0 := quiet_of_notMem (by decide)
  have upper : ¬Untouched phyaddr PHY0 0x1f 0x115 := by
    rintro (⟨-, same⟩ | ⟨-, -, same, -⟩)
    · exact absurd same (by decide)
    · exact absurd same (by decide)
  have suffix : Within (fun port dev addr _ => ¬Untouched phyaddr port dev addr) (do
      tcPhyWriteDevReg PHY0 0x1e 0xdb 0
      tcPhyWriteDevReg 0 0x1e 0xdb 0
      tcPhyWriteDevReg PHY0 0x1e 0xdc 0
      tcPhyWriteDevReg 0 0x1e 0xdc 0 : Program Unit) :=
    .bind (.write (db _)) fun _ => .bind (.write (db _)) fun _ => .bind (.write (dc _)) fun _ =>
      .write (dc _)
  rw [geCalRext]
  refine .bind (.write (db _)) fun _ => .bind (.write (dc _)) fun _ => .bind .read fun _ =>
    .bind (.writeCode zcal) fun _ =>
    .bind (.sweep (fun _ => quiet_of_notMem (by decide)) (fun _ => .writeCode zcal) _)
      fun result => ?_
  obtain ⟨status, found⟩ := result
  cases status
  · exact .bind (.writeCode zcal) fun _ => suffix
  · exact suffix
  · exact .bind (.writeCode zcal) fun _ => .bind (.writeCode upper) fun _ =>
      .bind .setGeCalFlag fun _ => suffix

theorem geCalR50_quiet :
    Within (fun port dev addr _ => ¬Untouched phyaddr port dev addr) (geCalR50 phyaddr) := by
  have db : ∀ port, ¬Untouched phyaddr port 0x1e 0xdb := fun _ => quiet_of_notMem (by decide)
  have dc : ∀ port, ¬Untouched phyaddr port 0x1e 0xdc := fun _ => quiet_of_notMem (by decide)
  have pairs : ∀ pair, Within (fun port dev addr _ => ¬Untouched phyaddr port dev addr)
      (geCalR50Pair phyaddr pair) := fun _ => geCalR50Pair_within.mono quiet_of_calWrites
  exact .bind (.write (db _)) fun _ => .bind (.write (dc _)) fun _ => .bind (.forM pairs _)
    fun _ => .bind (.write (db _)) fun _ => .bind (.write (db _)) fun _ =>
    .bind (.write (dc _)) fun _ => .write (dc _)

theorem disableTxCal_quiet :
    Within (fun port dev addr _ => ¬Untouched phyaddr port dev addr) (disableTxCal phyaddr) := by
  have db : ∀ port, ¬Untouched phyaddr port 0x1e 0xdb := fun _ => quiet_of_notMem (by decide)
  have dc : ∀ port, ¬Untouched phyaddr port 0x1e 0xdc := fun _ => quiet_of_notMem (by decide)
  exact .bind (.forM (fun _ => .write quiet_port) _) fun _ => .bind (.write (db _)) fun _ =>
    .bind (.write (dc _)) fun _ => .bind (.write (db _)) fun _ => .bind (.write (dc _)) fun _ =>
    .bind (.write quiet_port) fun _ => .write quiet_port

theorem clearCalen_quiet :
    Within (fun port dev addr _ => ¬Untouched phyaddr port dev addr) clearCalen :=
  .forM (fun _ => .write (quiet_of_notMem (by decide))) _

theorem geCalTxOffset_quiet :
    Within (fun port dev addr _ => ¬Untouched phyaddr port dev addr) (geCalTxOffset phyaddr) := by
  have pairs : ∀ pair, Within (fun port dev addr _ => ¬Untouched phyaddr port dev addr)
      (geCalTxOffsetPair phyaddr pair) := fun _ => geCalTxOffsetPair_within.mono quiet_of_calWrites
  exact .bind (.write (quiet_of_notMem (by decide))) fun _ =>
    .bind (.write (quiet_of_notMem (by decide))) fun _ => .bind (.write quiet_port) fun _ =>
    .bind (.write quiet_port) fun _ => .bind clearCalen_quiet fun _ => .bind (.forM pairs _)
    fun _ => disableTxCal_quiet

/-! ### Early returns -/

variable (phyaddr)

/-- Where a function returns early, it leaves the analog part of PHY 0 enabled. -/
theorem geCalRext_stop (s : Phys) :
    Leads (geCalRext phyaddr) s (fun _ _ => True) fun _ t => Enabled t := by
  have body : Within (CalWrites phyaddr) (sweep
      (fun code : BitVec 8 => writeCode PHY0 0x1e 0xe0 0x3f 0 (code.setWidth 32)) downWhenSet
      zeroDb) := .sweep calWrites_wait (fun _ => .writeCode calWrites_zcal) _
  rw [geCalRext]
  simp only [leads_write_bind, leads_read_bind, leads_writeCode_bind]
  refine Leads.bind ((keeps_enabled body _ ?_).mono (fun _ _ _ => trivial) fun _ _ holds => holds)
    fun result t _ => ?_
  · rw [Enabled, reg_use, reg_write_other (by decide), reg_write_other (by decide), reg_write_self]
    decide
  · obtain ⟨status, found⟩ := result
    cases status <;> trivial

theorem geCalR50_stop (s : Phys) :
    Leads (geCalR50 phyaddr) s (fun _ _ => True) fun _ t => Enabled t := by
  have body : Within (CalWrites phyaddr) (Pair.all.forM (geCalR50Pair phyaddr)) :=
    .forM (fun _ => geCalR50Pair_within) _
  rw [geCalR50]
  simp only [leads_write_bind]
  refine Leads.bind ((keeps_enabled body _ ?_).mono (fun _ _ _ => trivial) fun _ _ holds => holds)
    fun _ t _ => trivial
  rw [Enabled, reg_write_other (by decide), reg_write_self]
  decide

theorem clearCalen_enabled : Keeps Enabled clearCalen := by
  have writes : Within (fun _ _ addr _ => addr = 0xdd) clearCalen := .forM (fun _ => .write rfl) _
  refine writes (fun reg => reg PHY0 0x1e 0xdb ≠ 0#16) fun s port dev addr data written holds => ?_
  rw [reg_write, if_neg (by omega)]
  exact holds

theorem geCalTxOffset_stop (s : Phys) :
    Leads (geCalTxOffset phyaddr) s (fun _ _ => True) fun _ t => Enabled t := by
  have body : Within (CalWrites phyaddr) (Pair.all.forM (geCalTxOffsetPair phyaddr)) :=
    .forM (fun _ => geCalTxOffsetPair_within) _
  rw [geCalTxOffset]
  simp only [leads_write_bind]
  refine Leads.bind (clearCalen_enabled _ ?_) fun _ t₁ enabled => ?_
  · rw [Enabled, reg_write_other (by decide), reg_write_other (by decide),
      reg_write_other (by decide), reg_write_self]
    decide
  · refine Leads.bind (keeps_enabled body _ enabled) fun _ t₂ _ => ?_
    exact ((disableTxCal_leads phyaddr t₂).mono (fun _ _ _ => trivial) fun _ _ never => never.elim)

theorem forM_clear_leads (addrs : List Nat) (s : Phys) :
    Leads (addrs.forM fun addr => tcPhyWriteDevReg phyaddr 0x1e addr 0x0000) s
      (fun _ t => ∀ addr, t.reg phyaddr 0x1e addr =
        if addr ∈ addrs then 0#16 else s.reg phyaddr 0x1e addr)
      fun _ _ => False := by
  induction addrs generalizing s with
  | nil => exact fun addr => (if_neg List.not_mem_nil).symm
  | cons first addrs ih =>
    refine (ih (s.write phyaddr 0x1e first 0x0000)).mono (fun _ t cleared addr => ?_)
      fun _ _ never => never
    rw [cleared addr]
    by_cases same : addr = first
    · rw [same, reg_write_self, if_pos List.mem_cons_self]
      split <;> rfl
    · simp only [List.mem_cons, same, false_or, reg_write_other same]

theorem disableTxCal_regs (s : Phys) :
    Leads (disableTxCal phyaddr) s
      (fun _ t => (∀ addr ∈ calenRegs, t.reg phyaddr 0x1e addr = 0#16) ∧
        t.reg PHY0 0x1e 0xdb = 0#16 ∧ t.reg PHY0 0x1e 0xdc = 0#16)
      fun _ _ => False := by
  rw [disableTxCal]
  refine Leads.bind ((forM_clear_leads phyaddr _ s).mono (fun _ _ holds => holds)
    fun _ _ never => never) fun _ t cleared => ?_
  simp only [leads_write_bind, leads_write]
  refine ⟨?_, ?_, ?_⟩
  · simp [calenRegs, forcedRegs, reg_write, cleared]
  · simp [reg_write]
  · simp [reg_write]

theorem clearCalen_regs (s : Phys) :
    Leads clearCalen s (fun _ t => t.reg PHY0 0x1e 0xdd = 0#16) fun _ _ => False :=
  show (((((s.write 0 0x1e 0xdd 0).write 1 0x1e 0xdd 0).write 2 0x1e 0xdd 0).write 3 0x1e 0xdd
    0).write 4 0x1e 0xdd 0).reg PHY0 0x1e 0xdd = 0#16 by simp [reg_write, PHY0]

def Same (phyaddr : Nat) (s t : Phys) : Prop :=
  ∀ port dev addr, Untouched phyaddr port dev addr → t.reg port dev addr = s.reg port dev addr

theorem keeps_same {phyaddr : Nat} {program : Program α}
    (within : Within (fun port dev addr _ => ¬Untouched phyaddr port dev addr) program)
    (s : Phys) : Keeps (Same phyaddr s) program := by
  refine within (fun reg => ∀ port dev addr, Untouched phyaddr port dev addr →
    reg port dev addr = s.reg port dev addr) fun t port dev addr data written holds => ?_
  intro port' dev' addr' untouched
  rw [reg_write, if_neg]
  · exact holds _ _ _ untouched
  · rintro ⟨rfl, rfl, rfl⟩
    exact written untouched

theorem keeps_clear {port dev addr : Nat} {program : Program α}
    (within : Within (fun _ _ _ data => data.setWidth 16 = 0#16) program) :
    Keeps (fun s => s.reg port dev addr = 0#16) program := by
  refine within (fun reg => reg port dev addr = 0#16) fun s port' dev' addr' data zero holds => ?_
  rw [reg_write]
  split
  · exact zero
  · exact holds

theorem disableTxCal_clear :
    Within (fun _ _ _ data => data.setWidth 16 = 0#16) (disableTxCal phyaddr) :=
  .bind (.forM (fun _ => .write rfl) _) fun _ => .bind (.write rfl) fun _ => .bind (.write rfl)
    fun _ => .bind (.write rfl) fun _ => .bind (.write rfl) fun _ => .bind (.write rfl)
    fun _ => .write rfl

theorem geCalTxAmp_regs (s : Phys) :
    Leads (geCalTxAmp phyaddr) s
      (fun _ t => t.reg phyaddr 0x1f 0x300 = s.reg phyaddr 0x1f 0x300 ∧
        (∀ addr ∈ calenRegs, t.reg phyaddr 0x1e addr = 0#16) ∧
        (∀ addr ∈ [0xdb, 0xdc, 0xdd], t.reg PHY0 0x1e addr = 0#16) ∧
        (phyaddr ≠ PHY0 →
          ∀ addr ∈ forcedRegs, t.reg PHY0 0x1e addr = s.reg PHY0 0x1e addr))
      fun _ t => Enabled t := by
  have body : Within (CalWrites phyaddr) (Pair.all.forM (geCalTxAmpPair phyaddr)) :=
    .forM (fun _ => geCalTxAmpPair_within) _
  rw [geCalTxAmp]
  simp only [leads_write_bind, leads_read_bind]
  have before : ((((((s.write PHY0 0x1e 0xdb 0x1100).write PHY0 0x1e 0xdc 0x0001).write PHY0 0x1e
      0xe1 0x0010).write phyaddr 0x1e 0x3e 0xf808).write phyaddr 0x1e 0x11 0xff00).write phyaddr
      0x1e 0xc9 0xffff).reg phyaddr 0x1f 0x300 = s.reg phyaddr 0x1f 0x300 := by
    simp only [reg_write_other (show 0x300 ≠ 0xc9 by decide),
      reg_write_other (show 0x300 ≠ 0x11 by decide), reg_write_other (show 0x300 ≠ 0x3e by decide),
      reg_write_other (show 0x300 ≠ 0xe1 by decide), reg_write_other (show 0x300 ≠ 0xdc by decide),
      reg_write_other (show 0x300 ≠ 0xdb by decide)]
  rw [before]
  generalize ready : Phys.write phyaddr 0x1f 0x300 0x4 _ = s₁
  have enabled₁ : Enabled s₁ := by
    rw [← ready, Enabled, reg_write_other (by decide), reg_write_other (by decide),
      reg_write_other (by decide), reg_write_other (by decide), reg_write_other (by decide),
      reg_write_other (by decide), reg_write_self]
    decide
  have same₁ : phyaddr ≠ PHY0 → ∀ addr ∈ forcedRegs,
      s₁.reg PHY0 0x1e addr = s.reg PHY0 0x1e addr := by
    intro other addr forced
    have apart : ∀ addr ∈ forcedRegs, addr ≠ 0x300 ∧ addr ≠ 0xc9 ∧ addr ≠ 0x11 ∧ addr ≠ 0xe1 ∧
        addr ≠ 0xdc ∧ addr ≠ 0xdb := by decide
    obtain ⟨ne300, neC9, ne11, neE1, neDc, neDb⟩ := apart addr forced
    rw [← ready, reg_write_other ne300, reg_write_other neC9, reg_write_other ne11, reg_write,
      if_neg fun same => other same.1.symm, reg_write_other neE1, reg_write_other neDc,
      reg_write_other neDb]
  clear before ready
  -- The enable registers of all ports are cleared.
  have cleared : Keeps (Same phyaddr s₁) clearCalen := keeps_same clearCalen_quiet s₁
  refine Leads.bind ((((clearCalen_enabled _ enabled₁).both (clearCalen_regs s₁)).both
    (cleared s₁ fun _ _ _ _ => rfl)).mono (fun _ _ holds => holds)
    fun _ _ holds => holds.1.1) fun _ t₁ holds => ?_
  obtain ⟨⟨enabled, dd⟩, same⟩ := holds
  -- The pairs do not write that of PHY 0, unless it is theirs.
  have dds : Leads (Pair.all.forM (geCalTxAmpPair phyaddr)) t₁
      (fun _ t => phyaddr ≠ PHY0 → t.reg PHY0 0x1e 0xdd = 0#16) fun _ _ => True := by
    by_cases own : phyaddr = PHY0
    · exact (keeps_enabled body t₁ enabled).mono (fun _ _ _ other => absurd own other)
        fun _ _ _ => trivial
    · refine (keeps_reg body (fun data written => ?_) 0#16 t₁ dd).mono (fun _ _ holds _ => holds)
        fun _ _ _ => trivial
      rcases written with ⟨-, ⟨-, listed⟩ | ⟨same, -⟩⟩ | ⟨same, -⟩
      · exact absurd listed (by decide)
      · exact absurd same (by decide)
      · exact own same.symm
  refine Leads.bind ((((keeps_enabled body t₁ enabled).both dds).both
    (keeps_same (body.mono quiet_of_calWrites) s₁ t₁ same)).mono (fun _ _ holds => holds)
    fun _ _ holds => holds.1.1) fun _ t₂ holds => ?_
  obtain ⟨⟨_, dd₂⟩, same₂⟩ := holds
  have dds' : Leads (disableTxCal phyaddr) t₂
      (fun _ t => phyaddr ≠ PHY0 → t.reg PHY0 0x1e 0xdd = 0#16) fun _ _ => True := by
    by_cases own : phyaddr = PHY0
    · exact (disableTxCal_leads phyaddr t₂).mono (fun _ _ _ other => absurd own other)
        fun _ _ _ => trivial
    · exact (keeps_clear (disableTxCal_clear phyaddr) t₂ (dd₂ own)).mono
        (fun _ _ holds _ => holds) fun _ _ _ => trivial
  refine Leads.bind ((((disableTxCal_regs phyaddr t₂).both dds').both
    (keeps_same (disableTxCal_quiet) s₁ t₂ same₂)).mono (fun _ _ holds => holds)
    fun _ _ never => never.1.1.elim) fun _ t₃ holds => ?_
  obtain ⟨⟨⟨clear, db, dc⟩, dd₃⟩, same₃⟩ := holds
  simp only [leads_write_bind, leads_write]
  have last : ∀ port addr, addr ∈ calenRegs → ∀ c9 c145 c11 c300 : BitVec 32,
      ((((t₃.write phyaddr 0x1e 0xc9 c9).write phyaddr 0x1e 0x145 c145).write phyaddr 0x1e 0x11
        c11).write phyaddr 0x1f 0x300 c300).reg port 0x1e addr = t₃.reg port 0x1e addr := by
    intro port addr listed c9 c145 c11 c300
    have apart : ∀ addr ∈ calenRegs, addr ≠ 0x300 ∧ addr ≠ 0x11 ∧ addr ≠ 0x145 ∧ addr ≠ 0xc9 := by
      decide
    obtain ⟨ne300, ne11, ne145, neC9⟩ := apart addr listed
    rw [reg_write_other ne300, reg_write_other ne11, reg_write_other ne145, reg_write_other neC9]
  have dd₃ : t₃.reg PHY0 0x1e 0xdd = 0#16 := by
    by_cases own : phyaddr = PHY0
    · exact own ▸ clear 0xdd (by decide)
    · exact dd₃ own
  refine ⟨?_, fun addr listed => (last _ addr listed ..).trans (clear addr listed), ?_, ?_⟩
  · rw [reg_write_self, BitVec.setWidth_setWidth_of_le _ (by decide), BitVec.setWidth_eq]
  · intro addr listed
    have calen : addr ∈ calenRegs := List.mem_append_left _ listed
    rw [last _ addr calen]
    simp only [List.mem_cons, List.not_mem_nil, or_false] at listed
    rcases listed with rfl | rfl | rfl
    · exact db
    · exact dc
    · exact dd₃
  · intro other addr forced
    rw [last _ addr (List.mem_append_right _ forced), same₃ _ _ _ (.inr ⟨other, rfl, rfl, forced⟩)]
    exact same₁ other addr forced

/-! ### The whole calibration -/

def calibrationEnd (geCalFlag : Bool) (waits : Nat → Wait) : Option (Nat → Wait) := do
  let waits ←
    if geCalFlag then some waits
    else (sweepFrom downWhenSet (zeroDb : BitVec 8) waits).map fun ends => ends.2.2
  let waits ← pairsEnd downWhenSet (zeroDb : BitVec 8) Pair.all waits
  let waits ← pairsEnd upWhenSet (31 : BitVec 8) Pair.all waits
  pairsEnd downWhenSet (zeroDb : BitVec 32) Pair.all waits

/-- What the calibrations of a port leave behind where none of them returns early. -/
structure Calibrated (phyaddr : Nat) (s t : Phys) : Prop where
  r1f300 : t.reg phyaddr 0x1f 0x300 = s.reg phyaddr 0x1f 0x300
  clear : ∀ addr ∈ calenRegs, t.reg phyaddr 0x1e addr = 0#16
  clear0 : ∀ addr ∈ [0xdb, 0xdc, 0xdd], t.reg PHY0 0x1e addr = 0#16
  forced : phyaddr ≠ PHY0 → ∀ addr ∈ forcedRegs, t.reg PHY0 0x1e addr = s.reg PHY0 0x1e addr

theorem Calibrated.of_same {s s₁ t : Phys} (same : Same phyaddr s s₁)
    (calibrated : Calibrated phyaddr s₁ t) : Calibrated phyaddr s t :=
  ⟨calibrated.r1f300.trans (same _ _ _ (.inl ⟨rfl, rfl⟩)), calibrated.clear, calibrated.clear0,
    fun other addr forced => (calibrated.forced other addr forced).trans
      (same _ _ _ (.inr ⟨other, rfl, rfl, forced⟩))⟩

theorem afterRext_leads (s : Phys) :
    Leads (do geCalR50 phyaddr; geCalTxOffset phyaddr; geCalTxAmp phyaddr) s
      (fun _ t => (calibrationEnd true s.waits).isSome ∧ Calibrated phyaddr s t)
      (fun _ t => calibrationEnd true s.waits = none ∧ Enabled t) := by
  have quiet : Keeps (Same phyaddr s) (geCalR50 phyaddr) := keeps_same geCalR50_quiet s
  have quiet' : Keeps (Same phyaddr s) (geCalTxOffset phyaddr) := keeps_same geCalTxOffset_quiet s
  simp only [calibrationEnd, if_true, Option.bind_eq_bind, Option.bind_some]
  refine Leads.bind ((((geCalR50_leads phyaddr s).both (geCalR50_stop phyaddr s)).both
    (quiet s fun _ _ _ _ => rfl)).mono (fun _ _ holds => holds) ?_)
    fun _ t₁ ⟨⟨⟨ends₁, _⟩, _⟩, same₁⟩ => ?_
  · rintro reason t ⟨⟨⟨-, ends, -⟩, enabled⟩, -⟩
    rw [ends]
    exact ⟨rfl, enabled⟩
  rw [ends₁, Option.bind_some]
  refine Leads.bind ((((geCalTxOffset_leads phyaddr t₁).both (geCalTxOffset_stop phyaddr t₁)).both
    (quiet' t₁ same₁)).mono (fun _ _ holds => holds) ?_)
    fun _ t₂ ⟨⟨⟨ends₂, _⟩, _⟩, same₂⟩ => ?_
  · rintro reason t ⟨⟨⟨-, ends, -⟩, enabled⟩, -⟩
    rw [ends]
    exact ⟨rfl, enabled⟩
  rw [ends₂, Option.bind_some]
  refine ((geCalTxAmp_leads phyaddr t₂).both (geCalTxAmp_regs phyaddr t₂)).mono ?_ ?_
  · rintro _ t ⟨⟨ends, -⟩, r1f300, clear, clear0, forced⟩
    rw [ends]
    exact ⟨rfl, .of_same phyaddr same₂ ⟨r1f300, clear, clear0, forced⟩⟩
  · rintro reason t ⟨⟨-, ends, -⟩, enabled⟩
    exact ⟨ends, enabled⟩

theorem calibrate_leads (s : Phys) :
    Leads (calibrate phyaddr) s
      (fun _ t => (calibrationEnd s.geCalFlag s.waits).isSome ∧ Calibrated phyaddr s t)
      (fun _ t => calibrationEnd s.geCalFlag s.waits = none ∧ Enabled t) := by
  have quiet : Keeps (Same phyaddr s) (geCalRext 0) := keeps_same geCalRext_quiet s
  show Leads (if !s.geCalFlag then _ else _) s _ _
  cases flag : s.geCalFlag with
  | true => exact afterRext_leads phyaddr s
  | false =>
    refine Leads.bind ((((geCalRext_leads 0 s).both (geCalRext_stop 0 s)).both
      (quiet s fun _ _ _ _ => rfl)).mono (fun _ _ holds => holds) ?_)
      fun _ t₁ ⟨⟨⟨⟨_, _, ends₁⟩, _⟩, _⟩, same₁⟩ => ?_
    · rintro reason t ⟨⟨⟨-, ends, -⟩, enabled⟩, -⟩
      refine ⟨?_, enabled⟩
      simp only [calibrationEnd, Bool.false_eq_true, if_false, ends]
      rfl
    · have left : calibrationEnd false s.waits = calibrationEnd true t₁.waits := by
        simp only [calibrationEnd, Bool.false_eq_true, if_false, if_true, ends₁]
        rfl
      rw [left]
      refine (afterRext_leads phyaddr t₁.flagged).mono ?_ ?_
      · exact fun _ t ⟨ends, calibrated⟩ =>
          ⟨ends, @Calibrated.of_same phyaddr s t₁.flagged t same₁ calibrated⟩
      · exact fun _ t holds => holds

theorem forM_other_leads (entries : List (Nat × BitVec 32)) (s : Phys) :
    Leads (entries.forM fun entry => tcPhyWriteDevReg phyaddr 0x1e entry.1 entry.2) s
      (fun _ t => ∀ port dev addr, (∀ entry ∈ entries, addr ≠ entry.1) →
        t.reg port dev addr = s.reg port dev addr)
      fun _ _ => False := by
  induction entries generalizing s with
  | nil => exact fun _ _ _ _ => rfl
  | cons entry entries ih =>
    refine (ih (s.write phyaddr 0x1e entry.1 entry.2)).mono (fun _ t same => ?_)
      fun _ _ never => never
    intro port dev addr other
    rw [same port dev addr fun e listed => other e (List.mem_cons_of_mem _ listed),
      reg_write_other (other entry List.mem_cons_self)]

theorem restore_leads (o1 o2 o3 o4 : BitVec 32) (s : Phys) :
    Leads (restore phyaddr o1 o2 o3 o4) s
      (fun _ t => t.reg phyaddr 0x1e RG_185 = o1.setWidth 16 ∧
        t.reg phyaddr 0x1f 0x100 = o2.setWidth 16 ∧ t.reg phyaddr 0x1e 0x11 = o3.setWidth 16 ∧
        t.reg PHY0 0x1e 0xe1 = o4.setWidth 16 ∧
        ∀ port dev addr, addr ∈ 0x300 :: calenRegs → t.reg port dev addr = s.reg port dev addr)
      fun _ _ => False := by
  rw [restore]
  refine Leads.bind ((forM_other_leads phyaddr _ s).mono (fun _ _ holds => holds)
    fun _ _ never => never) fun _ t same => ?_
  simp only [leads_write_bind, leads_read_bind, leads_write]
  refine ⟨?_, ?_, ?_, reg_write_self, ?_⟩
  · rw [RG_185, reg_write_other (by decide), reg_write_other (by decide),
      reg_write_other (by decide), reg_write_self]
  · rw [reg_write_other (by decide), reg_write_other (by decide), reg_write_self]
  · rw [reg_write_other (by decide), reg_write_self]
  · intro port dev addr listed
    have apart : ∀ addr ∈ 0x300 :: calenRegs, addr ≠ 0xe1 ∧ addr ≠ 0x11 ∧ addr ≠ 0x100 ∧
        addr ≠ RG_185 ∧ addr ≠ 0x3a9 ∧ addr ≠ 0x3aa := by decide
    obtain ⟨neE1, ne11, ne100, ne185, ne3a9, ne3aa⟩ := apart addr listed
    rw [reg_write_other neE1, reg_write_other ne11, reg_write_other ne100, reg_write_other ne185,
      reg_write_other ne3a9, reg_write_other ne3aa]
    refine same port dev addr ?_
    revert addr
    decide

/-- The port is as before its calibration, and nothing that calibrates is enabled. -/
structure NoTestMode (phyaddr : Nat) (s t : Phys) : Prop where
  r1e185 : t.reg phyaddr 0x1e RG_185 = s.reg phyaddr 0x1e RG_185
  r1f100 : t.reg phyaddr 0x1f 0x100 = s.reg phyaddr 0x1f 0x100
  r1e11 : t.reg phyaddr 0x1e 0x11 = s.reg phyaddr 0x1e 0x11
  r1f300 : t.reg phyaddr 0x1f 0x300 = s.reg phyaddr 0x1f 0x300
  r1eE1 : t.reg PHY0 0x1e 0xe1 = s.reg PHY0 0x1e 0xe1
  clear : ∀ addr ∈ calenRegs, t.reg phyaddr 0x1e addr = 0#16
  clear0 : ∀ addr ∈ calenRegs, t.reg PHY0 0x1e addr = 0#16

/-- So it is when `phy_calibration` returns, with 0 or with -1. -/
def LeavesNoTestMode (phyaddr : Nat) (s : Phys) : Prop :=
  Leads (phyCalibration phyaddr) s (fun _ t => NoTestMode phyaddr s t)
    fun _ t => NoTestMode phyaddr s t

/-- No wait that is made is a time-out, and the inputs of PHY 0 are not forced before, unless it is
the port itself. -/
def CalibrationQuiet (phyaddr : Nat) (s : Phys) : Prop :=
  (calibrationEnd s.geCalFlag s.waits).isSome ∧
    (phyaddr ≠ PHY0 → ∀ addr ∈ forcedRegs, s.reg PHY0 0x1e addr = 0#16)

theorem phyCalibration_leads (s : Phys) :
    Leads (phyCalibration phyaddr) s
      (fun _ t => (calibrationEnd s.geCalFlag s.waits).isSome ∧
        (NoTestMode phyaddr s t ↔
          (phyaddr ≠ PHY0 → ∀ addr ∈ forcedRegs, s.reg PHY0 0x1e addr = 0#16)))
      (fun _ t => calibrationEnd s.geCalFlag s.waits = none ∧ ¬NoTestMode phyaddr s t) := by
  have round : ∀ x : BitVec 16, (x.setWidth 32).setWidth 16 = x := fun x => by
    rw [BitVec.setWidth_setWidth_of_le _ (by decide), BitVec.setWidth_eq]
  have begins : Leads (switchPhyWrite phyaddr 0 0x140) s
      (fun _ t => t.reg = s.reg ∧ t.waits = s.waits ∧ t.geCalFlag = s.geCalFlag)
      fun _ _ => False := ⟨rfl, rfl, rfl⟩
  rw [phyCalibration]
  refine Leads.bind (begins.mono (fun _ _ holds => holds) fun _ _ never => never.elim)
    fun _ s₀ holds => ?_
  obtain ⟨reg₀, waits₀, flag₀⟩ := holds
  simp only [leads_write_bind, leads_read_bind]
  rw [reg_write_other (show 0x11 ≠ 0x100 by decide), reg_write_other (show 0x11 ≠ RG_185 by decide),
    reg_write_other (show 0x11 ≠ 0x145 by decide), reg_write_other (show 0xe1 ≠ 0x11 by decide),
    reg_write_other (show 0xe1 ≠ 0x100 by decide), reg_write_other (show 0xe1 ≠ RG_185 by decide),
    reg_write_other (show 0xe1 ≠ 0x145 by decide), reg_write_other (show 0x100 ≠ RG_185 by decide),
    reg_write_other (show 0x100 ≠ 0x145 by decide), reg_write_other (show RG_185 ≠ 0x145 by decide),
    reg₀]
  generalize ready : Phys.write PHY0 0x1e 0xe1 0x10 _ = s₁
  have kept : ∀ port dev addr, addr ∈ 0x300 :: forcedRegs →
      s₁.reg port dev addr = s.reg port dev addr := by
    intro port dev addr listed
    have apart : ∀ addr ∈ 0x300 :: forcedRegs, addr ≠ 0xe1 ∧ addr ≠ 0x11 ∧ addr ≠ 0x100 ∧
        addr ≠ RG_185 ∧ addr ≠ 0x145 := by decide
    obtain ⟨neE1, ne11, ne100, ne185, ne145⟩ := apart addr listed
    rw [← ready, reg_write_other neE1, reg_write_other ne11, reg_write_other ne100,
      reg_write_other ne185, reg_write_other ne145, reg₀]
  have waits₁ : s₁.waits = s.waits := by
    rw [← ready]
    exact waits₀
  have flag₁ : s₁.geCalFlag = s.geCalFlag := by
    rw [← ready]
    exact flag₀
  have run := calibrate_leads phyaddr s₁
  rw [waits₁, flag₁] at run
  refine Leads.bind (run.mono (fun _ _ holds => holds) ?_) fun _ t₁ holds => ?_
  · rintro reason t ⟨ends, enabled⟩
    exact ⟨ends, fun clear => enabled (clear.clear0 0xdb (by decide))⟩
  obtain ⟨ends, calibrated⟩ := holds
  refine (restore_leads phyaddr _ _ _ _ t₁).mono ?_ fun _ _ never => never.elim
  rintro _ t ⟨r1e185, r1f100, r1e11, r1eE1, same⟩
  rw [round] at r1e185 r1f100 r1e11 r1eE1
  have calen : ∀ port addr, addr ∈ calenRegs → t.reg port 0x1e addr = t₁.reg port 0x1e addr :=
    fun port addr listed => same _ _ _ (List.mem_cons_of_mem _ listed)
  refine ⟨ends, fun clear other addr forced => ?_, fun zero => ?_⟩
  · have listed : addr ∈ calenRegs := List.mem_append_right _ forced
    rw [← kept _ _ _ (List.mem_cons_of_mem _ forced), ← calibrated.forced other addr forced,
      ← calen _ _ listed]
    exact clear.clear0 addr listed
  · refine ⟨r1e185, r1f100, r1e11, ?_, r1eE1, fun addr listed => ?_, fun addr listed => ?_⟩
    · rw [same _ _ _ List.mem_cons_self, calibrated.r1f300, kept _ _ _ List.mem_cons_self]
    · rw [calen _ _ listed]
      exact calibrated.clear addr listed
    · rw [calen _ _ listed]
      by_cases own : phyaddr = PHY0
      · exact own ▸ calibrated.clear addr listed
      · rcases List.mem_append.mp listed with first | forced
        · exact calibrated.clear0 addr first
        · rw [calibrated.forced own addr forced, kept _ _ _ (List.mem_cons_of_mem _ forced)]
          exact zero own addr forced

/-- No test mode is left behind exactly where no wait times out. -/
theorem leavesNoTestMode_iff (s : Phys) :
    LeavesNoTestMode phyaddr s ↔ CalibrationQuiet phyaddr s := by
  have run := phyCalibration_leads phyaddr s
  rw [LeavesNoTestMode, CalibrationQuiet, Leads]
  rw [Leads] at run
  cases ends : phyCalibration phyaddr s with
  | ok _ t =>
    rw [ends] at run
    exact run.2.trans (and_iff_right run.1).symm
  | error reason t =>
    rw [ends] at run
    refine ⟨fun clear => absurd clear run.2, fun quiet => ?_⟩
    rw [run.1] at quiet
    exact absurd quiet.1 Bool.false_ne_true

theorem not_leaves_of_timeOut {s : Phys} (timeOut : calibrationEnd s.geCalFlag s.waits = none) :
    ¬LeavesNoTestMode phyaddr s := by
  have run := phyCalibration_leads phyaddr s
  rw [LeavesNoTestMode, Leads]
  rw [Leads, timeOut] at run
  cases ends : phyCalibration phyaddr s with
  | ok _ t =>
    rw [ends] at run
    exact absurd run.1 Bool.false_ne_true
  | error reason t =>
    rw [ends] at run
    exact run.2

end Functions

def neverDone : Nat → Wait := fun _ => ⟨fun _ => false, fun _ => false, false⟩

theorem calibration_left_enabled : ¬LeavesNoTestMode 1 (clearPhys neverDone) := by
  have polled : ∀ cnt i, polls (fun _ => false) cnt i = false := by
    intro cnt
    induction cnt with
    | zero => exact fun _ => rfl
    | succ cnt ih => exact fun i => ih (i + 1)
  refine not_leaves_of_timeOut 1 ?_
  have timeOut : (neverDone 0).done = false := by
    rw [Wait.done, neverDone, polled]
    rfl
  show calibrationEnd false neverDone = none
  rw [calibrationEnd, sweepFrom, timeOut]
  rfl

end MetaFilogic.Mt753x
