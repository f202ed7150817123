import Mathlib.Data.Fintype.Basic
import Mathlib.Data.List.Basic
import Mathlib.Data.List.Induction
import Mathlib.Logic.Function.Basic

/-!
# Multicast groups of the PPE

The two tables `hnat_mcast.c` keeps from the bridge's MDB notifications: the
counted table `mtbl` behind the multicast registers of the PPE, and the list
`mlist` of ports that tells whether a group can be accelerated as unicast.
-/

namespace MetaFilogic.Hnat

open Function (update)

/-! ## Constants -/

def ENODEV : Int := 19
def EINVAL : Int := 22
def ENOMEM : Int := 12

def MAX_MCAST_ENTRY : Nat := 64
abbrev MAX_MCAST_PORT : Nat := 5

def PPE_MCAST_L_0 : Int := 0x88
def PPE_MCAST_H_0 : Int := 0x8c
def PPE_MCAST_L_10 : Int := -0x200
def PPE_MCAST_H_10 : Int := -0x200 + 0x4

/-- `enum ppe_mcast_port`, the index into `if_num`. -/
abbrev McastPort := Fin MAX_MCAST_PORT

def MCAST_TO_GDMA3 : McastPort := 0
def MCAST_TO_PDMA : McastPort := 1
def MCAST_TO_GDMA1 : McastPort := 2
def MCAST_TO_GDMA2 : McastPort := 3
def MCAST_TO_QDMA : McastPort := 4

/-! ## Events -/

abbrev Mac := BitVec 48

/-- The address in a `br_mdb_entry`, by `addr.proto`. -/
inductive GroupAddr where
  | ip4 (ip : BitVec 32)
  | ip6 (ip : BitVec 128)
  | other

inductive MacId where
  | gmac1
  | gmac2
  | gmac3
  | other
  deriving DecidableEq

/-- What is asked of a `net_device`: its name, and the MAC of the device that
`ndo_flow_offload_check` puts in its place. -/
structure NetDevice where
  name : List Char
  macId : MacId

inductive MdbType where
  | newMdb
  | delMdb
  | other
  deriving DecidableEq

/-- One notification: its type and the parts of its `br_mdb_entry`.  `dev` is what
`dev_get_by_index_rcu` finds for the interface index. -/
structure MdbEvent where
  type : MdbType
  dev : Option NetDevice
  vid : BitVec 16
  addr : GroupAddr

/-- The configuration the two updates depend on: the interface names of
`struct mtk_hnat`, the number of PPEs and `max_entry`. -/
structure McastConfig where
  lan : List Char
  lan2 : List Char
  wan : List Char
  ppeNum : Nat
  maxEntry : Nat
  maxEntry_le : maxEntry ≤ MAX_MCAST_ENTRY

namespace McastConfig

variable (cfg : McastConfig)

/-- `!strncmp(name, word, strlen(word))`. -/
def named (dev : NetDevice) (word : List Char) : Bool :=
  word.isPrefixOf dev.name

def isBond (dev : NetDevice) : Bool := named dev ['b', 'o', 'n', 'd']

def isEthGrp (dev : NetDevice) : Bool :=
  (named dev cfg.lan || isBond dev) || (named dev cfg.lan2 || isBond dev) || named dev cfg.wan

def isDsaLan (dev : NetDevice) : Bool := named dev ['l', 'a', 'n']

/-- The PPE port of a bridge port, `none` for a MAC without one. -/
def portOf (dev : NetDevice) : Option McastPort :=
  if cfg.isEthGrp dev && !isDsaLan dev then
    match dev.macId with
    | .gmac1 => some MCAST_TO_GDMA1
    | .gmac2 => some MCAST_TO_GDMA2
    | .gmac3 => some MCAST_TO_GDMA3
    | .other => none
  else
    some MCAST_TO_PDMA

end McastConfig

def getMacFromMdbEntry : GroupAddr → Option Mac
  | .ip4 ip => some (0x01005e000000 ||| (ip &&& 0x7fffff).setWidth 48)
  | .ip6 ip => some (0x333300000000 ||| (ip.setWidth 32).setWidth 48)
  | .other => none

/-! ## The counted table -/

structure McastGroup where
  vid : BitVec 16
  dmac : Mac
  ifNum : McastPort → BitVec 8
  mcPort : BitVec 8
  valid : Bool

/-- A group after `memset(group, 0, …)`. -/
def McastGroup.empty : McastGroup := ⟨0, 0, fun _ => 0, 0, false⟩

/-- The registers of the PPEs, by PPE and offset from `ppe_base`. -/
abbrev Registers := Nat → Int → BitVec 32

/-- `mtbl` and the registers it is programmed into. -/
structure McastTable where
  mtbl : Nat → McastGroup
  regs : Registers

/-- The table after `hnat_mcast_enable` on a PPE out of reset. -/
def McastTable.init : McastTable := ⟨fun _ => .empty, fun _ _ => 0⟩

def mcastOffset (low : Int) (high : Int) (index : Nat) : Int :=
  if index < 0x10 then low + index * 8 else high + (index - 0x10) * 8

def mcastH (index : Nat) : Int := mcastOffset PPE_MCAST_H_0 PPE_MCAST_H_10 index

def mcastL (index : Nat) : Int := mcastOffset PPE_MCAST_L_0 PPE_MCAST_L_10 index

def writel (ppeId : Nat) (offset : Int) (value : BitVec 32) (regs : Registers) : Registers :=
  update regs ppeId (update (regs ppeId) offset value)

def dmacToHi16 (dmac : Mac) : BitVec 16 := dmac.extractLsb' 32 16

def dmacToLo32 (dmac : Mac) : BitVec 32 := dmac.extractLsb' 0 32

/-- `mcast_h.u.value` with `mc_px_en` and `mc_mpre_sel` filled in. -/
def mcastHValue (mcPort : BitVec 8) (mpreSel : BitVec 2) : BitVec 32 :=
  (mcPort &&& 0x1f).setWidth 32 <<< 15 ||| mpreSel.setWidth 32 <<< 20

def setHnatMtbl (group : McastGroup) (index ppeId : Nat) (regs : Registers) : Registers :=
  let write (mpreSel : BitVec 2) :=
    writel ppeId (mcastL index) (dmacToLo32 group.dmac)
      (writel ppeId (mcastH index) (mcastHValue group.mcPort mpreSel) regs)
  if dmacToHi16 group.dmac = 0x0100 then write 0
  else if dmacToHi16 group.dmac = 0x3333 then write 1
  else regs

def clrHnatMtbl (index ppeId : Nat) (regs : Registers) : Registers :=
  writel ppeId (mcastL index) 0 (writel ppeId (mcastH index) 0 regs)

def forPpes (count : Nat) (body : Nat → Registers → Registers) (regs : Registers) : Registers :=
  (List.range count).foldl (fun regs ppeId => body ppeId regs) regs

def mcastEntryGet (cfg : McastConfig) (mtbl : Nat → McastGroup) (vid : BitVec 16) (dmac : Mac) :
    Option Nat :=
  (List.range cfg.maxEntry).find? fun i =>
    !(mtbl i).valid || ((mtbl i).vid == vid && (mtbl i).dmac == dmac)

def portMask (ifNum : McastPort → BitVec 8) : BitVec 8 :=
  (List.finRange MAX_MCAST_PORT).foldl (fun mask i =>
    if 0 < ifNum i then mask ||| (1 : BitVec 8) <<< i.val else mask) 0

/-- The end of `hnat_mcast_table_update`: the mask of a valid group is recomputed and
programmed, and a group without members cleared. -/
def commitGroup (cfg : McastConfig) (index : Nat) (group : McastGroup) (table : McastTable) :
    McastTable :=
  if group.valid then
    let group := { group with mcPort := portMask group.ifNum }
    if group.mcPort = 0 then
      { mtbl := update table.mtbl index .empty
        regs := forPpes cfg.ppeNum (clrHnatMtbl index) table.regs }
    else
      { mtbl := update table.mtbl index group
        regs := forPpes cfg.ppeNum (setHnatMtbl group index) table.regs }
  else
    { table with mtbl := update table.mtbl index group }

/-- The counting of `hnat_mcast_table_update` for one port. -/
def countMember (type : MdbType) (vid : BitVec 16) (port : McastPort) (group : McastGroup) :
    Option McastGroup :=
  match type with
  | .newMdb => some { group with
      ifNum := update group.ifNum port (group.ifNum port + 1)
      vid
      valid := true }
  | .delMdb =>
    if group.valid then
      some { group with ifNum := update group.ifNum port (group.ifNum port - 1) }
    else
      some group
  | .other => none

def hnatMcastTableUpdate (cfg : McastConfig) (event : MdbEvent) (table : McastTable) :
    Int × McastTable :=
  match event.dev, getMacFromMdbEntry event.addr with
  | none, _ => (-ENODEV, table)
  | some _, none => (-EINVAL, table)
  | some dev, some dmac =>
    match mcastEntryGet cfg table.mtbl event.vid dmac with
    | none => (-1, table)
    | some index =>
      let group := { table.mtbl index with dmac }
      let named := { table with mtbl := update table.mtbl index group }
      match cfg.portOf dev with
      | none => (-1, named)
      | some port =>
        match countMember event.type event.vid port group with
        | none => (-1, named)
        | some group => (0, commitGroup cfg index group named)

/-! ## The list of ports -/

/-- `struct ppe_mcast_list`. -/
structure McastListEntry where
  vid : BitVec 16
  dmac : Mac
  mcPort : BitVec 8

def hnatMcastListFind (mlist : List McastListEntry) (dmac : Mac) (vid : BitVec 16) :
    Option McastListEntry :=
  mlist.find? fun entry => entry.dmac == dmac && entry.vid == vid

/-- `pmcast_list->mc_port = …` on the entry that was found. -/
def setMcPort (mlist : List McastListEntry) (dmac : Mac) (vid : BitVec 16) (mcPort : BitVec 8) :
    List McastListEntry :=
  match mlist with
  | [] => []
  | entry :: rest =>
    if entry.dmac == dmac && entry.vid == vid then { entry with mcPort } :: rest
    else entry :: setMcPort rest dmac vid mcPort

def listDel (mlist : List McastListEntry) (dmac : Mac) (vid : BitVec 16) : List McastListEntry :=
  mlist.eraseP fun entry => entry.dmac == dmac && entry.vid == vid

/-- `1 << port`. -/
def portBit (port : McastPort) : BitVec 8 := (1 : BitVec 8) <<< port.val

/-- `hnat_mcast_list_update(type, entry)`; `kmallocOk` tells whether the allocation of
a new entry succeeds. -/
def hnatMcastListUpdate (cfg : McastConfig) (kmallocOk : Bool) (event : MdbEvent)
    (mlist : List McastListEntry) : Int × List McastListEntry :=
  match event.dev, getMacFromMdbEntry event.addr with
  | none, _ => (-ENODEV, mlist)
  | some _, none => (-EINVAL, mlist)
  | some dev, some dmac =>
    match cfg.portOf dev with
    | none => (-1, mlist)
    | some port =>
      match event.type, hnatMcastListFind mlist dmac event.vid with
      | .newMdb, none =>
        if kmallocOk then (0, mlist ++ [⟨event.vid, dmac, portBit port⟩]) else (-ENOMEM, mlist)
      | .newMdb, some found =>
        (0, setMcPort mlist dmac event.vid (found.mcPort ||| portBit port))
      | .delMdb, none => (0, mlist)
      | .delMdb, some found =>
        let mcPort := found.mcPort &&& ~~~(portBit port)
        if mcPort = 0 then (0, listDel mlist dmac event.vid)
        else (0, setMcPort mlist dmac event.vid mcPort)
      | .other, _ => (-1, mlist)

def isMcastPortGdm (mcPort : BitVec 8) : Bool :=
  mcPort == portBit MCAST_TO_GDMA1 || mcPort == portBit MCAST_TO_GDMA2 ||
    mcPort == portBit MCAST_TO_GDMA3

/-- What `hnat_is_mcast_uni` looks at in a packet: its VLAN tag and destination. -/
structure McastSkb where
  vlanTagged : Bool
  vlanTci : BitVec 16
  hDest : Mac

def McastSkb.vid (skb : McastSkb) : BitVec 16 :=
  if skb.vlanTagged then skb.vlanTci &&& 0x0fff else 0

def hnatIsMcastUni (mlist : List McastListEntry) (skb : McastSkb) : Bool :=
  (hnatMcastListFind mlist skb.hDest skb.vid).any fun entry => isMcastPortGdm entry.mcPort

/-! ## Outstanding members -/

abbrev Joins := BitVec 16 → Mac → McastPort → Nat

def MdbEvent.member (cfg : McastConfig) (event : MdbEvent) :
    Option (BitVec 16 × Mac × McastPort) :=
  match event.dev, getMacFromMdbEntry event.addr with
  | some dev, some dmac => (cfg.portOf dev).map fun port => (event.vid, dmac, port)
  | _, _ => none

def Joins.counted (joins : Joins) (type : MdbType) (vid : BitVec 16) (dmac : Mac)
    (port : McastPort) : Joins := fun v m p =>
  if v = vid ∧ m = dmac ∧ p = port then
    match type with
    | .newMdb => joins v m p + 1
    | .delMdb => joins v m p - 1
    | .other => joins v m p
  else
    joins v m p

def Joins.after (cfg : McastConfig) (joins : Joins) (event : MdbEvent) : Joins :=
  match event.member cfg with
  | none => joins
  | some (vid, dmac, port) => joins.counted event.type vid dmac port

variable {joins : Joins} {dmac : Mac} {port : McastPort}

theorem Joins.counted_other {type : MdbType} {vid v : BitVec 16} {m : Mac}
    (different : ¬(v = vid ∧ m = dmac)) : joins.counted type vid dmac port v m = joins v m := by
  funext p
  exact if_neg fun same => different ⟨same.1, same.2.1⟩

theorem Joins.counted_port {type : MdbType} {vid : BitVec 16} {p : McastPort}
    (different : p ≠ port) :
    joins.counted type vid dmac port vid dmac p = joins vid dmac p :=
  if_neg fun same => different same.2.2

theorem Joins.counted_new (joins : Joins) (vid : BitVec 16) (dmac : Mac) (port : McastPort) :
    joins.counted .newMdb vid dmac port vid dmac port = joins vid dmac port + 1 :=
  if_pos ⟨rfl, rfl, rfl⟩

theorem Joins.counted_del (joins : Joins) (vid : BitVec 16) (dmac : Mac) (port : McastPort) :
    joins.counted .delMdb vid dmac port vid dmac port = joins vid dmac port - 1 :=
  if_pos ⟨rfl, rfl, rfl⟩

theorem Joins.counted_unknown (joins : Joins) (vid : BitVec 16) (dmac : Mac) (port : McastPort) :
    joins.counted .other vid dmac port = joins := by
  funext v m p
  exact ite_self _

theorem Joins.counted_absent {vid : BitVec 16} (absent : joins vid dmac port = 0) :
    joins.counted .delMdb vid dmac port = joins := by
  funext v m p
  unfold Joins.counted
  split
  · rename_i same
    obtain ⟨rfl, rfl, rfl⟩ := same
    rw [absent]
  · rfl

def Joins.Joined (joins : Joins) (vid : BitVec 16) (dmac : Mac) : Prop :=
  ∃ port, 0 < joins vid dmac port

instance (joins : Joins) (vid : BitVec 16) (dmac : Mac) : Decidable (joins.Joined vid dmac) :=
  inferInstanceAs (Decidable (∃ _, _))

def joinsAfter (cfg : McastConfig) (events : List MdbEvent) : Joins :=
  events.foldl (Joins.after cfg) fun _ _ _ => 0

theorem joinsAfter_append (cfg : McastConfig) (past : List MdbEvent) (event : MdbEvent) :
    joinsAfter cfg (past ++ [event]) = (joinsAfter cfg past).after cfg event := by
  simp only [joinsAfter, List.foldl_append, List.foldl_cons, List.foldl_nil]

theorem joinsAfter_joined {cfg : McastConfig} {events : List MdbEvent} {vid : BitVec 16}
    (joined : (joinsAfter cfg events).Joined vid dmac) :
    ∃ event ∈ events, ∃ port, event.member cfg = some (vid, dmac, port) := by
  induction events using List.reverseRecOn with
  | nil => exact absurd joined.choose_spec (Nat.lt_irrefl 0)
  | append_singleton past event ih =>
    rw [joinsAfter_append, Joins.after] at joined
    by_cases about : ∃ port, event.member cfg = some (vid, dmac, port)
    · exact ⟨event, by simp, about⟩
    · have before : (joinsAfter cfg past).Joined vid dmac := by
        split at joined
        · exact joined
        · rename_i v m port member
          have different : ¬(vid = v ∧ dmac = m) := by
            rintro ⟨rfl, rfl⟩
            exact about ⟨port, member⟩
          rwa [Joins.Joined, Joins.counted_other different] at joined
      obtain ⟨event, known, is⟩ := ih before
      exact ⟨event, List.mem_append_left _ known, is⟩

/-! ## A board -/

def mcastBoard : McastConfig where
  lan := ['e', 't', 'h', '0']
  lan2 := ['e', 't', 'h', '2']
  wan := ['e', 't', 'h', '1']
  ppeNum := 2
  maxEntry := MAX_MCAST_ENTRY
  maxEntry_le := Nat.le_refl _

def eth0 : NetDevice := ⟨['e', 't', 'h', '0'], .gmac1⟩

def eth1 : NetDevice := ⟨['e', 't', 'h', '1'], .gmac2⟩

/-- A notification for the IPv4 group 239.1.1.`host`. -/
def mdb (type : MdbType) (dev : NetDevice) (host : BitVec 32) : MdbEvent :=
  ⟨type, some dev, 0, .ip4 (0xef010100 ||| host)⟩

end MetaFilogic.Hnat
