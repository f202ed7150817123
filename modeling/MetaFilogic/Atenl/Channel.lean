import MetaFilogic.Atenl.RxStats

/-!
# Channel selection

`SET_CHANNEL` names a block of 20 MHz channels by its centre and its bandwidth, and one of them by
its number.  The driver looks for the centre in the columns of a table, takes the entry before the
first one with a larger centre when it does not find it, and goes on by the number.
-/

namespace MetaFilogic.Atenl

/-! ## The driver -/

/-- `struct atenl_channel`, less `ch_40`. -/
structure Channel where
  ch : Nat
  freq : Nat
  ch80 : Nat
  ch160 : Nat
  ch320₁ : Nat
  ch320₂ : Nat

def atenlChannels5ghz : List Channel :=
  [⟨8, 5040, 0, 0, 0, 0⟩, ⟨12, 5060, 0, 0, 0, 0⟩, ⟨16, 5080, 0, 0, 0, 0⟩,
    ⟨36, 5180, 42, 50, 0, 0⟩, ⟨40, 5200, 42, 50, 0, 0⟩, ⟨44, 5220, 42, 50, 0, 0⟩,
    ⟨48, 5240, 42, 50, 0, 0⟩, ⟨52, 5260, 58, 50, 0, 0⟩, ⟨56, 5280, 58, 50, 0, 0⟩,
    ⟨60, 5300, 58, 50, 0, 0⟩, ⟨64, 5320, 58, 50, 0, 0⟩, ⟨68, 5340, 0, 0, 0, 0⟩,
    ⟨80, 5400, 0, 0, 0, 0⟩, ⟨84, 5420, 0, 0, 0, 0⟩, ⟨88, 5440, 0, 0, 0, 0⟩,
    ⟨92, 5460, 0, 0, 0, 0⟩, ⟨96, 5480, 0, 0, 0, 0⟩, ⟨100, 5500, 106, 114, 0, 0⟩,
    ⟨104, 5520, 106, 114, 0, 0⟩, ⟨108, 5540, 106, 114, 0, 0⟩, ⟨112, 5560, 106, 114, 0, 0⟩,
    ⟨116, 5580, 122, 114, 0, 0⟩, ⟨120, 5600, 122, 114, 0, 0⟩, ⟨124, 5620, 122, 114, 0, 0⟩,
    ⟨128, 5640, 122, 114, 0, 0⟩, ⟨132, 5660, 138, 0, 0, 0⟩, ⟨136, 5680, 138, 0, 0, 0⟩,
    ⟨140, 5700, 138, 0, 0, 0⟩, ⟨144, 5720, 138, 0, 0, 0⟩, ⟨149, 5745, 155, 0, 0, 0⟩,
    ⟨153, 5765, 155, 0, 0, 0⟩, ⟨157, 5785, 155, 0, 0, 0⟩, ⟨161, 5805, 155, 0, 0, 0⟩,
    ⟨165, 5825, 0, 0, 0, 0⟩, ⟨169, 5845, 0, 0, 0, 0⟩, ⟨173, 5865, 0, 0, 0, 0⟩,
    ⟨184, 4920, 0, 0, 0, 0⟩, ⟨188, 4940, 0, 0, 0, 0⟩, ⟨192, 4960, 0, 0, 0, 0⟩,
    ⟨196, 4980, 0, 0, 0, 0⟩]

def atenlChannels6ghz : List Channel :=
  [⟨1, 5955, 7, 15, 31, 0⟩, ⟨5, 5975, 7, 15, 31, 0⟩, ⟨9, 5995, 7, 15, 31, 0⟩,
    ⟨13, 6015, 7, 15, 31, 0⟩, ⟨17, 6035, 23, 15, 31, 0⟩, ⟨21, 6055, 23, 15, 31, 0⟩,
    ⟨25, 6075, 23, 15, 31, 0⟩, ⟨29, 6095, 23, 15, 31, 0⟩, ⟨33, 6115, 39, 47, 31, 63⟩,
    ⟨37, 6135, 39, 47, 31, 63⟩, ⟨41, 6155, 39, 47, 31, 63⟩, ⟨45, 6175, 39, 47, 31, 63⟩,
    ⟨49, 6195, 55, 47, 31, 63⟩, ⟨53, 6215, 55, 47, 31, 63⟩, ⟨57, 6235, 55, 47, 31, 63⟩,
    ⟨61, 6255, 55, 47, 31, 63⟩, ⟨65, 6275, 71, 79, 95, 63⟩, ⟨69, 6295, 71, 79, 95, 63⟩,
    ⟨73, 6315, 71, 79, 95, 63⟩, ⟨77, 6335, 71, 79, 95, 63⟩, ⟨81, 6355, 87, 79, 95, 63⟩,
    ⟨85, 6375, 87, 79, 95, 63⟩, ⟨89, 6395, 87, 79, 95, 63⟩, ⟨93, 6415, 87, 79, 95, 63⟩,
    ⟨97, 6435, 103, 111, 95, 127⟩, ⟨101, 6455, 103, 111, 95, 127⟩,
    ⟨105, 6475, 103, 111, 95, 127⟩, ⟨109, 6495, 103, 111, 95, 127⟩,
    ⟨113, 6515, 119, 111, 95, 127⟩, ⟨117, 6535, 119, 111, 95, 127⟩,
    ⟨121, 6555, 119, 111, 95, 127⟩, ⟨125, 6575, 119, 111, 95, 127⟩,
    ⟨129, 6595, 135, 143, 159, 127⟩, ⟨133, 6615, 135, 143, 159, 127⟩,
    ⟨137, 6635, 135, 143, 159, 127⟩, ⟨141, 6655, 135, 143, 159, 127⟩,
    ⟨145, 6675, 151, 143, 159, 127⟩, ⟨149, 6695, 151, 143, 159, 127⟩,
    ⟨153, 6715, 151, 143, 159, 127⟩, ⟨157, 6735, 151, 143, 159, 127⟩,
    ⟨161, 6755, 167, 175, 159, 191⟩, ⟨165, 6775, 167, 175, 159, 191⟩,
    ⟨169, 6795, 167, 175, 159, 191⟩, ⟨173, 6815, 167, 175, 159, 191⟩,
    ⟨177, 6835, 183, 175, 159, 191⟩, ⟨181, 6855, 183, 175, 159, 191⟩,
    ⟨185, 6875, 183, 175, 159, 191⟩, ⟨189, 6895, 183, 175, 159, 191⟩,
    ⟨193, 6915, 199, 207, 0, 191⟩, ⟨197, 6935, 199, 207, 0, 191⟩, ⟨201, 6955, 199, 207, 0, 191⟩,
    ⟨205, 6975, 199, 207, 0, 191⟩, ⟨209, 6995, 215, 207, 0, 191⟩, ⟨213, 7015, 215, 207, 0, 191⟩,
    ⟨217, 7035, 215, 207, 0, 191⟩, ⟨221, 7055, 215, 207, 0, 191⟩, ⟨225, 7075, 0, 0, 0, 0⟩,
    ⟨229, 7095, 0, 0, 0, 0⟩, ⟨233, 7115, 0, 0, 0, 0⟩]

def CH_BAND_2GHZ : BitVec 8 := 0
def CH_BAND_5GHZ : BitVec 8 := 1
def CH_BAND_6GHZ : BitVec 8 := 2

def TEST_CBW_20MHZ : BitVec 8 := 0
def TEST_CBW_40MHZ : BitVec 8 := 1
def TEST_CBW_80MHZ : BitVec 8 := 2
def TEST_CBW_160MHZ : BitVec 8 := 5
def TEST_CBW_320MHZ : BitVec 8 := 12
def TEST_CBW_MAX : BitVec 8 := TEST_CBW_320MHZ

structure SetChannelReq where
  band : BitVec 32
  ch1 : BitVec 32
  ch2 : BitVec 32
  bw : BitVec 32
  priSel : BitVec 32
  chBand : BitVec 32

def atenlGetFreqByChannel (chBand : BitVec 8) (ch : BitVec 16) : BitVec 16 :=
  if chBand = CH_BAND_6GHZ then 5950 + ch * 5
  else if chBand = CH_BAND_5GHZ then
    if 184 ≤ ch then 4920 + (ch - 184) * 5 else 5000 + ch * 5
  else 2407 + ch * 5

def atenlGetBwString (bw : BitVec 8) : String :=
  if bw = TEST_CBW_320MHZ then "320"
  else if bw = TEST_CBW_160MHZ then "160"
  else if bw = TEST_CBW_80MHZ then "80"
  else if bw = TEST_CBW_40MHZ then "40"
  else "20"

structure IwCommand where
  ctrlCh : BitVec 16
  freq : BitVec 16
  bw : String
  freqCenter1 : Option (BitVec 16)
  deriving DecidableEq

def atenlSetChannel (bw chBand : BitVec 8) (ch centerCh1 : BitVec 16) : Option IwCommand :=
  if TEST_CBW_MAX < bw then none
  else some {
    ctrlCh := ch
    freq := atenlGetFreqByChannel chBand ch
    bw := atenlGetBwString bw
    freqCenter1 := if bw = TEST_CBW_20MHZ then none
      else some (atenlGetFreqByChannel chBand centerCh1) }

/-- A search of the list from the entry number `i` on, with the index of the entry chosen: what
`stops` says of an entry is whether the search ends at it, and then with it or with the one
before. -/
def searchFrom (stops : Channel → Option Bool) : List Channel → Nat → Option Int
  | [], _ => none
  | entry :: rest, i =>
    match stops entry with
    | some true => some i
    | some false => some (i - 1)
    | none => searchFrom stops rest (i + 1)

def stops320 (ch1 : Nat) (entry : Channel) : Option Bool :=
  if ch1 = entry.ch320₁ then some true
  else if ch1 = entry.ch320₂ then some true
  else none

def stopsColumn (column : Channel → Nat) (ch1 : Nat) (entry : Channel) : Option Bool :=
  if ch1 = column entry then some true
  else if ch1 < column entry then some false
  else none

def searchChannel (chList : List Channel) (bw : BitVec 8) (ch1 : Nat) : Option Int :=
  if bw = TEST_CBW_320MHZ then searchFrom (stops320 ch1) chList 0
  else if bw = TEST_CBW_160MHZ then searchFrom (stopsColumn Channel.ch160 ch1) chList 0
  else if bw = TEST_CBW_80MHZ then searchFrom (stopsColumn Channel.ch80 ch1) chList 0
  else searchFrom (stopsColumn Channel.ch ch1) chList 0

/-- What comes of a request: an error, a read outside of the table, or a call of
`atenl_set_channel`. -/
inductive ChannelOutcome where
  | einval
  | outside
  | set (command : Option IwCommand)
  deriving DecidableEq

def entryAt (chList : List Channel) : Int → Option Channel
  | .ofNat i => chList[i]?
  | .negSucc _ => none

def chanFor (chList : List Channel) (bw : BitVec 8) (priSel ch1 : Nat) :
    Option (Option Channel) :=
  match searchChannel chList bw ch1 with
  | none => none
  | some chan =>
    let chan := if bw = TEST_CBW_20MHZ then chan else chan + priSel
    if (chList.length : Int) - 1 < chan ∧ bw ≠ TEST_CBW_20MHZ then none
    else some (entryAt chList chan)

def atenlHqaSetChannel (req : SetChannelReq) : ChannelOutcome :=
  let band : BitVec 8 := req.band.setWidth 8
  let ch1 : BitVec 16 := req.ch1.setWidth 16
  let bw : BitVec 8 := req.bw.setWidth 8
  let priSel : BitVec 8 := req.priSel.setWidth 8
  let chBand : BitVec 8 := req.chBand.setWidth 8
  if 3 ≤ band then .einval
  else if !RxState.priSelOk bw priSel then .einval
  else if chBand = CH_BAND_2GHZ then
    let ctrlCh := if bw = TEST_CBW_40MHZ then if priSel = 1 then ch1 + 2 else ch1 - 2 else ch1
    .set (atenlSetChannel bw CH_BAND_2GHZ ctrlCh ch1)
  else
    let chList := if chBand = CH_BAND_6GHZ then atenlChannels6ghz else atenlChannels5ghz
    match chanFor chList bw priSel.toNat ch1.toNat with
    | none => .einval
    | some none => .outside
    | some (some chan) => .set (atenlSetChannel bw chBand (BitVec.ofNat 16 chan.ch) ch1)

theorem freq_eq :
    (∀ entry ∈ atenlChannels5ghz,
      (atenlGetFreqByChannel CH_BAND_5GHZ (BitVec.ofNat 16 entry.ch)).toNat = entry.freq) ∧
    ∀ entry ∈ atenlChannels6ghz,
      (atenlGetFreqByChannel CH_BAND_6GHZ (BitVec.ofNat 16 entry.ch)).toNat = entry.freq := by
  decide

/-! ## What a request asks for -/

def widthOf (bw : BitVec 32) : Option Nat :=
  if bw = 0 then some 1
  else if bw = 1 then some 2
  else if bw = 2 then some 4
  else if bw = 5 then some 8
  else if bw = 12 then some 16
  else none

def tableOf (chBand : BitVec 32) : Option (List Channel) :=
  if chBand = 1 then some atenlChannels5ghz
  else if chBand = 2 then some atenlChannels6ghz
  else none

/-- The channel number `sel`, counted from the lowest, of the block of `w` channels around `c`. -/
def wantedChannel (w c sel : Nat) : Int :=
  if w = 1 then c else (c : Int) - 2 * (w - 1) + 4 * sel

def IwCommand.Programs (cmd : IwCommand) (chBand : BitVec 32) : Prop :=
  (chBand = 0 ∧ cmd.freq.toNat = 2407 + 5 * cmd.ctrlCh.toNat) ∨
    ∃ chList, tableOf chBand = some chList ∧
      ∃ entry ∈ chList, cmd.ctrlCh.toNat = entry.ch ∧ cmd.freq.toNat = entry.freq

def IwCommand.InBlock (cmd : IwCommand) (req : SetChannelReq) : Prop :=
  cmd.Programs req.chBand ∧ ∃ w, widthOf req.bw = some w ∧ (w ≠ 1 → req.priSel.toNat < w) ∧
    (cmd.ctrlCh.toNat : Int) = wantedChannel w req.ch1.toNat req.priSel.toNat

def SetChannelReq.Selects (req : SetChannelReq) : ChannelOutcome → Prop
  | .einval => True
  | .set (some cmd) => cmd.InBlock req
  | .set none | .outside => False

/-! ## The requests answered so -/

/-- The request is refused for its block, with the fields as the driver cuts them off. -/
def RefusedIn (chList : List Channel) (bw : BitVec 8) (c sel : Nat) : Prop :=
  if bw = TEST_CBW_320MHZ then ∀ entry ∈ chList, c ≠ entry.ch320₁ ∧ c ≠ entry.ch320₂
  else if bw = TEST_CBW_160MHZ then ∀ entry ∈ chList, entry.ch160 < c
  else if bw = TEST_CBW_80MHZ then ∀ entry ∈ chList, entry.ch80 < c
  else (∀ entry ∈ chList, entry.ch < c) ∨
    (bw ≠ TEST_CBW_20MHZ ∧ chList.length < chList.countP (·.ch ≤ c) + sel)

def SetChannelReq.Refused (req : SetChannelReq) : Prop :=
  let bw : BitVec 8 := req.bw.setWidth 8
  let priSel : BitVec 8 := req.priSel.setWidth 8
  let chBand : BitVec 8 := req.chBand.setWidth 8
  3 ≤ (req.band.setWidth 8 : BitVec 8) ∨ RxState.priSelOk bw priSel = false ∨
    (chBand ≠ CH_BAND_2GHZ ∧
      RefusedIn (if chBand = CH_BAND_6GHZ then atenlChannels6ghz else atenlChannels5ghz)
        bw (req.ch1.setWidth 16 : BitVec 16).toNat priSel.toNat)

def IsCentre (column : Channel → Nat) (chList : List Channel) (c : Nat) : Prop :=
  c ≠ 0 ∧ ∃ entry ∈ chList, column entry = c

/-- The lowest channel of the block of `w` channels around `c` is the entry right before a block
of the table. -/
def StartsBefore (column : Channel → Nat) (chList : List Channel) (w c : Nat) : Prop :=
  ∃ pair ∈ chList.zip chList.tail,
    pair.1.ch + 2 * (w - 1) = c ∧ column pair.2 ≠ 0 ∧ column pair.1 ≠ column pair.2

/-- The blocks of 80 or 160 MHz found: those of the table, those one channel below a block of the
table when not the lowest channel is asked for, and those that start right before one when it
is. -/
def RightByColumn (column : Channel → Nat) (chList : List Channel) (w c sel : Nat) : Prop :=
  IsCentre column chList c ∨ (sel ≠ 0 ∧ IsCentre column chList (c + 4)) ∨
    (sel = 0 ∧ StartsBefore column chList w c)

def RightIn (chList : List Channel) (w c sel : Nat) : Prop :=
  if w = 1 then ∃ entry ∈ chList, entry.ch = c
  else if w = 2 then ∃ entry ∈ chList, entry.ch + 2 = c + 4 * sel
  else if w = 4 then RightByColumn Channel.ch80 chList w c sel
  else if w = 8 then RightByColumn Channel.ch160 chList w c sel
  else c ≠ 0 ∧ ∃ entry ∈ chList, c = entry.ch320₁ ∨ c = entry.ch320₂

def SetChannelReq.Right (req : SetChannelReq) : Prop :=
  let c := req.ch1.toNat
  let sel := req.priSel.toNat
  ∃ w, widthOf req.bw = some w ∧ (w ≠ 1 → sel < w) ∧
    ((req.chBand = 0 ∧ w ≤ 2 ∧ 0 ≤ wantedChannel w c sel ∧
        2407 + 5 * wantedChannel w c sel < 65536) ∨
      ∃ chList, tableOf req.chBand = some chList ∧ RightIn chList w c sel)

end MetaFilogic.Atenl
