import ChatServices.Lib.Run
import ChatServices.ChanServ.Command

/-! A registered channel on the network: who is on it with which status, its modes and bans, and
what services do when the network reports a member or a change of modes. -/
namespace ChatServices.ChanServ.Channels
open ChatServices.Lib ChatServices.Lib.Mask ChatServices.Text
open ChatServices.Cidr (atoi)

def cstatusOp : Flags := 0x1#32
def cstatusVoice : Flags := 0x2#32
def cstatusOwner : Flags := 0x4#32
def cstatusProtect : Flags := 0x8#32
def cstatusHalfop : Flags := 0x10#32
def cstatusImmune : Flags := 0x20#32

def cmodeInvite : Flags := 0x1#32
def cmodeKey : Flags := 0x2#32
def cmodeLimit : Flags := 0x4#32

def mcNoop : Flags := 0x2#32
def mcSecure : Flags := 0x8#32
def mcRestricted : Flags := 0x20#32
def mcGuard : Flags := 0x200#32
def mcRecreated : Flags := 0x10000000#32
def mcMlockCheck : Flags := 0x40000000#32
def mcInhabit : Flags := 0x80000000#32

def muNoop : Flags := 0x4#32

def caUsedupdate : Flags :=
  caVoice ||| caOp ||| caAutoop ||| caSet ||| caRemove ||| caRecover ||| caFlags ||| caHalfop |||
    caAutohalfop ||| caFounder ||| caUseprotect ||| caUseowner

def ufIrcop : BitVec 64 := 0x10#64
def ufImmune : BitVec 64 := 0x100#64
def ufService : BitVec 64 := 0x8000#64

/-- `struct ircd_`, and the tables of a protocol module. -/
structure Ircd where
  usesOwner : Bool
  usesProtect : Bool
  usesHalfops : Bool
  ownerMode : Flags
  protectMode : Flags
  halfopsMode : Flags
  ownerMchar : CString
  protectMchar : CString
  halfopsMchar : CString
  permMode : Flags
  oimmuneMode : Flags
  banLikeModes : List Char
  exceptMchar : Option Char
  invexMchar : Option Char
  modeList : List (Char × Flags)
  ignoreModeList : List Char
  statusModeList : List (Char × Flags)
  prefixModeList : List (Char × Flags)
  owner_bit : ownerMode = cstatusOwner ∨ ownerMode = 0#32
  protect_bit : protectMode = cstatusProtect ∨ protectMode = 0#32
  halfops_bit : halfopsMode = cstatusHalfop ∨ halfopsMode = 0#32
  status_nodup : (statusModeList.map Prod.fst).Nodup

theorem mode_none (f : Flags) : 0#32 = f ∨ 0#32 = 0#32 := .inr rfl

theorem mode_own (f : Flags) : f = f ∨ f = 0#32 := .inl rfl

/-- The `uid` of a user, which stands for its address. -/
abbrev Uid := CString

structure NetUser extends User where
  /-- `is_internal_client` -/
  internal : Bool
  flags : BitVec 64

structure Net where
  ircd : Ircd
  cfg : ChanConfig
  world : World
  db : ChanDb
  mc : MyChanRef
  mychan : MyChan
  registered : db.chans.find mc = some mychan
  mlockOn : Flags
  mlockOff : Flags
  mlockLimit : Nat
  mlockKey : Option CString
  user : Uid → NetUser
  /-- `chansvs.me->me` -/
  chanserv : Uid
  chanserv_internal : (user chanserv).internal = true
  immuneLevel : BitVec 64
  changets : Bool
  leaveChans : Bool
  /-- `chan->flags & CHAN_LOG` -/
  chanLog : Bool
  /-- `next_matching_ban` stops at a ban with this mask -/
  banMatches : CString → User → Bool

structure Moment where
  currtime : Nat
  bursting : Bool
  /-- `user_find` -/
  userFind : CString → Option Uid
  /-- `SF_EOB` on the server of a user -/
  eob : Uid → Bool
  /-- `ignore_mode_list[i].check` -/
  extCheck : Nat → CString → Bool

structure Chanuser where
  user : Uid
  modes : Flags
  deriving DecidableEq

structure Chanban where
  mask : CString
  type : Char

structure Channel where
  ts : Nat
  modes : Flags
  limit : Nat
  key : Option CString
  extmodes : Nat → Option CString
  bans : List Chanban
  members : List Chanuser

/-- The channel, with `mc->flags` and `mc->used`. -/
structure ChanState where
  chan : Channel
  flags : Flags
  used : Nat

section model
variable (net : Net) (now : Moment)

/-- `chanacs_user_flags (mc, u)` -/
def Net.access (u : Uid) : Flags := chanacsUserFlags net.cfg net.world net.db net.mc (net.user u).toUser

def Net.botAssigned : Bool := (metadataFind net.mychan.metadata "private:botserv:bot-assigned".toList).isSome

/-! ### Members -/

def ChanState.find (st : ChanState) (u : Uid) : Option Chanuser :=
  st.chan.members.find? fun cu => cu.user = u

def ChanState.setModes (st : ChanState) (u : Uid) (f : Flags → Flags) : ChanState :=
  { st with chan := { st.chan with
      members := st.chan.members.map fun cu => if cu.user = u then { cu with modes := f cu.modes } else cu } }

def ChanState.enter (st : ChanState) (cu : Chanuser) : ChanState :=
  { st with chan := { st.chan with members := st.chan.members ++ [cu] } }

/-- `chan->nummembers - chan->numsvcmembers`, and `chan->numsvcmembers`. -/
def nonservices (st : ChanState) : Nat :=
  st.chan.members.countP fun cu => !(net.user cu.user).internal

def services (st : ChanState) : Nat :=
  st.chan.members.countP fun cu => (net.user cu.user).internal

/-- `join`, of ChanServ: `cs_join` has nothing to do for an internal client. -/
def join (st : ChanState) : ChanState :=
  match st.find net.chanserv with
  | some _ => st
  | none => st.enter ⟨net.chanserv, cstatusOp⟩

/-- `channel_delete` leaves a channel that the next member makes anew. -/
def chanuserErase (u : Uid) (st : ChanState) : ChanState :=
  let members := st.chan.members.filter fun cu => cu.user ≠ u
  if members = [] ∧ test st.chan.modes net.ircd.permMode = false then
    { st with chan := ⟨st.chan.ts, 0#32, 0, none, fun _ => none, [], []⟩ }
  else { st with chan := { st.chan with members := members } }

def csUsed (u : Uid) (st : ChanState) : ChanState :=
  if now.currtime - st.used ≥ 3600 ∧ test (net.access u) caUsedupdate then
    { st with used := now.currtime }
  else st

def csPart (u : Uid) (st : ChanState) : ChanState :=
  if net.botAssigned then st
  else
    let st := csUsed net now u st
    if !net.leaveChans || nonservices net st > 1 || (net.user u).internal || test st.flags mcInhabit then
      st
    else
      match st.find net.chanserv with
      | none => st
      -- `cs_part` is called for ChanServ in turn
      | some _ => chanuserErase net net.chanserv (csUsed net now net.chanserv st)

def chanuserDelete (u : Uid) (st : ChanState) : ChanState :=
  match st.find u with
  | none => st
  | some _ => chanuserErase net u (csPart net now u st)

/-- `try_kick` does not kick an operator on a channel that protects them, nor an immune user. -/
def immune (modes : Flags) (cu : Chanuser) : Bool :=
  ((test modes net.ircd.oimmuneMode || test cu.modes cstatusImmune) &&
      test (net.user cu.user).flags ufIrcop) ||
    test (net.user cu.user).flags net.immuneLevel

def tryKick (u : Uid) (st : ChanState) : ChanState :=
  match st.find u with
  | none => st
  | some cu => if immune net st.chan.modes cu then st else chanuserDelete net now u st

/-! ### Bans and mode locks -/

def chanbanFind (st : ChanState) (mask : CString) (type : Char) : Bool :=
  st.chan.bans.any fun b => b.type = type && irccaseEq net.cfg.casemapping b.mask mask

def chanbanAdd (mask : CString) (type : Char) (st : ChanState) : ChanState :=
  if mask.head? = none ∨ mask.head? = some ':' ∨ ' ' ∈ mask ∨ chanbanFind net st mask type then st
  else { st with chan := { st.chan with bans := st.chan.bans ++ [⟨mask, type⟩] } }

def chanbanDelete (mask : CString) (type : Char) (st : ChanState) : ChanState :=
  { st with chan := { st.chan with
      bans := st.chan.bans.eraseP fun b => b.type = type && irccaseEq net.cfg.casemapping b.mask mask } }

def ban (u : Uid) (st : ChanState) : ChanState :=
  chanbanAdd net ("*!*@".toList ++ (net.user u).vhost) 'b' st

def removeBanlike (type : Option Char) (u : Uid) (st : ChanState) : ChanState :=
  { st with chan := { st.chan with
      bans := st.chan.bans.filter fun b => !(some b.type = type && net.banMatches b.mask (net.user u).toUser) } }

/-- The modes that `check_modes` leaves: all of the lock but the key and the limit. -/
def lockedModes (modes : Flags) : Flags :=
  let modes := modes ||| (~~~modes &&& net.mlockOn &&& ~~~(cmodeKey ||| cmodeLimit))
  modes &&& ~~~(modes &&& net.mlockOff &&& ~~~(cmodeKey ||| cmodeLimit))

def lockedLimit (limit : Nat) : Nat :=
  let limit := if net.mlockLimit ≠ 0 then net.mlockLimit else limit
  if test net.mlockOff cmodeLimit then 0 else limit

def lockedKey (key : Option CString) : Option CString :=
  let key := if net.mlockKey.isSome then net.mlockKey else key
  if test net.mlockOff cmodeKey then none else key

/-- One word of the metadata `private:mlockext`: a letter of `ignore_mode_list`, and the value that
is locked, if one is. -/
def lockExtmode (extmodes : Nat → Option CString) : CString → Nat → Option CString
  | [] => extmodes
  | c :: value => fun i =>
    if net.ircd.ignoreModeList[i]? ≠ some c then extmodes i
    else if value = [] then none
    else
      let value := truncate 512 value
      if extmodes i ≠ some value ∧ now.extCheck i value then some value else extmodes i

def lockedExtmodes (extmodes : Nat → Option CString) : Nat → Option CString :=
  match metadataFind net.mychan.metadata "private:mlockext".toList with
  | none => extmodes
  | some ext => (ext.splitOn ' ').foldl (lockExtmode net now) extmodes

def checkModes (st : ChanState) : ChanState :=
  { st with
    flags := st.flags &&& ~~~mcMlockCheck
    chan := { st.chan with
      modes := lockedModes net st.chan.modes
      limit := lockedLimit net st.chan.limit
      key := lockedKey net st.chan.key
      extmodes := lockedExtmodes net now st.chan.extmodes } }

/-! ### `cs_join` -/

inductive Reject where
  | restricted
  | akick
  | inviteOnly
  deriving DecidableEq

def csReject (u : Uid) (st : ChanState) : Option Reject :=
  let flags := net.access u
  if test st.flags mcRestricted && !test flags caAllprivs &&
      !net.world.hasPriv (.irc (net.user u).toUser) "chan:joinstaffonly".toList then some .restricted
  else if test flags caAkick && !test flags caExempt then some .akick
  else if test net.mlockOn cmodeInvite && !test flags caInvite &&
      (!now.bursting || test st.flags mcRecreated) && (!now.eob u || nonservices net st = 1) &&
      (net.ircd.invexMchar.isNone ||
        !st.chan.bans.any fun b =>
          some b.type = net.ircd.invexMchar && net.banMatches b.mask (net.user u).toUser) then
    some .inviteOnly
  else none

def stay (st : ChanState) : ChanState :=
  if nonservices net st = 1 then
    let st := { st with flags := st.flags ||| mcInhabit }
    if services net st = 0 then join net st else st
  else st

/-- `chanacs_find_host_by_user (mc, u, CA_AKICK)` -/
def akickHost (u : Uid) : Option CString :=
  ((chanacsOf net.db.acl net.mc).find? fun e =>
    appliesToHost net.world (net.user u).toUser e.1 && e.2.level &&& caAkick = caAkick).bind fun e =>
      match e.1 with
      | .host mask => some mask
      | .entity _ => none

def csPrepare (u : Uid) (st : ChanState) : Reject → ChanState
  | .restricted =>
    let st := stay net st
    if test net.mlockOn cmodeInvite || test st.chan.modes cmodeInvite then
      let st := if test st.chan.modes cmodeInvite then st else checkModes net now st
      removeBanlike net net.ircd.invexMchar u st
    else removeBanlike net net.ircd.exceptMchar u (ban net u st)
  | .akick =>
    let st := stay net st
    let st := match akickHost net u with
      | some mask => if chanbanFind net st mask 'b' then st else chanbanAdd net mask 'b' st
      | none => ban net u st
    removeBanlike net net.ircd.exceptMchar u st
  | .inviteOnly =>
    let st := stay net st
    if test st.chan.modes cmodeInvite then st else checkModes net now st

def joinOwner (flags : Flags) (noop secure : Bool) (modes : Flags) : Flags :=
  if !net.ircd.usesOwner then modes
  else if test flags caUseowner then
    if test flags caAutoop && !(noop || test modes net.ircd.ownerMode) then modes ||| net.ircd.ownerMode
    else modes
  else if secure && test modes net.ircd.ownerMode then modes &&& ~~~net.ircd.ownerMode
  else modes

def joinProtect (flags : Flags) (noop secure : Bool) (modes : Flags) : Flags :=
  if !net.ircd.usesProtect then modes
  else if test flags caUseprotect then
    if test flags caAutoop && !(noop || test modes net.ircd.protectMode ||
        (net.ircd.usesOwner && test modes net.ircd.ownerMode)) then modes ||| net.ircd.protectMode
    else modes
  else if secure && test modes net.ircd.protectMode then modes &&& ~~~net.ircd.protectMode
  else modes

def joinOp (flags : Flags) (noop secure service : Bool) (modes : Flags) : Flags :=
  if test flags caAutoop then
    if !(noop || test modes cstatusOp) then modes ||| cstatusOp else modes
  else if secure && test modes cstatusOp && !test flags caOp && !service then modes &&& ~~~cstatusOp
  else modes

def joinHalfop (flags : Flags) (noop secure : Bool) (modes : Flags) : Flags :=
  if !net.ircd.usesHalfops then modes
  else if test flags caAutohalfop then
    if !(noop || test modes (cstatusOp ||| net.ircd.halfopsMode)) then modes ||| net.ircd.halfopsMode
    else modes
  else if secure && test modes net.ircd.halfopsMode && !test flags caHalfop then
    modes &&& ~~~net.ircd.halfopsMode
  else modes

def joinVoice (flags : Flags) (noop : Bool) (modes : Flags) : Flags :=
  if test flags caAutovoice && !(noop || test modes (cstatusOp ||| net.ircd.halfopsMode ||| cstatusVoice)) then
    modes ||| cstatusVoice
  else modes

def joinStatus (flags : Flags) (noop secure service : Bool) (modes : Flags) : Flags :=
  joinVoice net flags noop <| joinHalfop net flags noop secure <| joinOp flags noop secure service <|
    joinProtect net flags noop secure <| joinOwner net flags noop secure modes

def leaveInhabited (st : ChanState) : ChanState :=
  if test st.flags mcInhabit && nonservices net st ≥ 2 then
    let st := { st with flags := st.flags &&& ~~~mcInhabit }
    if test st.flags mcGuard || net.chanLog then st else chanuserDelete net now net.chanserv st
  else st

/-- `u->myuser->flags & MU_NOOP` -/
def noopAccount (u : Uid) : Bool :=
  ((net.user u).toUser.myuser net.db.accounts).any fun mu =>
    ((net.db.accounts.get mu).map fun o => test o.flags muNoop).getD false

def guardJoin (st : ChanState) : ChanState :=
  if st.chan.members.length = 1 && test st.flags mcGuard && !net.botAssigned then join net st else st

def csWelcome (noop secure : Bool) (u : Uid) (st : ChanState) : ChanState :=
  let flags := net.access u
  let st := leaveInhabited net now st
  let st := st.setModes u (joinStatus net flags noop secure (test (net.user u).flags ufService))
  if test flags caUsedupdate then { st with used := now.currtime } else st

def csJoin (u : Uid) (st : ChanState) : ChanState :=
  if (net.user u).internal then st
  else
    let noop := test st.flags mcNoop || noopAccount net u
    let secure := test st.flags mcSecure ||
      (!net.changets && st.chan.members.length = 1 && st.chan.ts > now.currtime - 300)
    match csReject net now u (guardJoin net st) with
    | some why => tryKick net now u (csPrepare net now u (guardJoin net st) why)
    | none => csWelcome net now noop secure u (guardJoin net st)

/-! ### `chanuser_add` -/

def readPrefixes (ircd : Ircd) : CString → Flags × CString
  | [] => (0#32, [])
  | c :: nick =>
    match ircd.prefixModeList.find? fun m => m.1 = c with
    | some m => (m.2 ||| (readPrefixes ircd nick).1, (readPrefixes ircd nick).2)
    | none => (0#32, c :: nick)

def chanuserAdd (nick : CString) (st : ChanState) : ChanState :=
  let (flags, nick) := readPrefixes net.ircd nick
  match now.userFind nick with
  | none => st
  | some u =>
    match st.find u with
    | some _ => st.setModes u (· ||| flags)
    | none => csJoin net now u (st.enter ⟨u, flags⟩)

/-! ### `channel_mode` -/

inductive ModeChange where
  | simple (add : Bool) (value : Flags)
  | ext (i : Nat) (value : Option CString)
  | limit (value : Option CString)
  | key (value : Option CString)
  | banlike (add : Bool) (type : Char) (mask : CString)
  | status (add : Bool) (mode : Char) (value : Flags) (nick : CString)
  deriving DecidableEq

def withParam (change : CString → ModeChange) :
    List CString → List ModeChange × List CString
  | [] => ([], [])
  | p :: params => ([change p], params)

def parseMode (ircd : Ircd) (add : Bool) (c : Char) (params : List CString) :
    List ModeChange × List CString :=
  match ircd.modeList.find? fun m => m.1 = c with
  | some m => ([.simple add m.2], params)
  | none =>
    match ircd.ignoreModeList.idxOf? c with
    | some i => if add then withParam (fun p => .ext i (some p)) params else ([.ext i none], params)
    | none =>
      if c = 'l' then
        if add then withParam (fun p => .limit (some p)) params else ([.limit none], params)
      else if c = 'k' then
        -- a removal eats a parameter as well
        if add then withParam (fun p => .key (some p)) params else ([.key none], params.tail)
      else if c ∈ ircd.banLikeModes then withParam (.banlike add c) params
      else
        match ircd.statusModeList.find? fun m => m.1 = c with
        | some m => withParam (.status add c m.2) params
        | none => ([], params)

def parseModes (ircd : Ircd) : Bool → CString → List CString → List ModeChange
  | _, [], _ => []
  | add, c :: pos, params =>
    if c = '+' then parseModes ircd true pos params
    else if c = '-' then parseModes ircd false pos params
    else (parseMode ircd add c params).1 ++ parseModes ircd add pos (parseMode ircd add c params).2

theorem atoi_natArg {n : Nat} (h : n < 2 ^ 63) :
    BitVec.ofInt 32 (atoi (natArg n)) = BitVec.ofNat 32 n := by
  have hread : Cidr.strtol (natArg n ++ []) = min (n : Int) (2 ^ 63 - 1) := strtol_natArg n (by simp)
  have hmin : min (n : Int) (2 ^ 63 - 1) = n := by omega
  rw [List.append_nil, hmin] at hread
  rw [atoi, BitVec.ofInt_toInt, hread, BitVec.ofInt_natCast]

def newLimit (value : CString) : Nat := max 1 (atoi value % 2 ^ 32).toNat

/-- `cs_bounce_mode_change` takes a status that was given back, on a channel with `MC_SECURE`. -/
def bounces (u : Uid) (mode : Char) : Bool :=
  let flags := net.access u
  (net.ircd.usesOwner && net.ircd.ownerMchar[1]? = some mode && !test flags caUseowner) ||
  (net.ircd.usesProtect && net.ircd.protectMchar[1]? = some mode && !test flags caUseprotect) ||
  (mode = 'o' && !test flags (caOp ||| caAutoop) && !test (net.user u).flags ufService) ||
  (net.ircd.usesHalfops && net.ircd.halfopsMchar[1]? = some mode && !test flags (caHalfop ||| caAutohalfop))

def csBounceModeChange (secure : Bool) (u : Uid) (mode : Char) (value modes : Flags) : Flags :=
  if secure && bounces net u mode then modes &&& ~~~value else modes

def statusChange (add : Bool) (mode : Char) (value : Flags) (u : Uid) (st : ChanState) : ChanState :=
  if add then
    st.setModes u fun modes =>
      if (net.user u).internal then modes ||| value
      else csBounceModeChange net (test st.flags mcSecure) u mode value (modes ||| value)
  -- a service that loses its status is given it back by `reop_service`
  else if (net.user u).internal ∧ value = cstatusOp then st
  else st.setModes u fun modes => modes &&& ~~~value

def applyChange (st : ChanState) : ModeChange → ChanState × Bool
  | .simple true value => ({ st with chan := { st.chan with modes := st.chan.modes ||| value } },
      !test st.chan.modes value)
  | .simple false value => ({ st with chan := { st.chan with modes := st.chan.modes &&& ~~~value } },
      test st.chan.modes value)
  | .ext i value => ({ st with chan := { st.chan with
      extmodes := fun j => if j = i then value else st.chan.extmodes j } }, st.chan.extmodes i ≠ value)
  | .limit (some value) => ({ st with chan := { st.chan with
      modes := st.chan.modes ||| cmodeLimit, limit := newLimit value } }, st.chan.limit ≠ newLimit value)
  | .limit none => ({ st with chan := { st.chan with
      modes := st.chan.modes &&& ~~~cmodeLimit, limit := 0 } }, st.chan.limit ≠ 0)
  | .key (some value) => ({ st with chan := { st.chan with
      modes := st.chan.modes ||| cmodeKey, key := some value } }, st.chan.key ≠ some value)
  | .key none => ({ st with chan := { st.chan with
      modes := st.chan.modes &&& ~~~cmodeKey, key := none } }, st.chan.key.isSome)
  | .banlike true type mask => (chanbanAdd net mask type st, false)
  | .banlike false type mask => (chanbanDelete net mask type st, false)
  | .status add mode value nick =>
    match now.userFind nick with
    | none => (st, false)
    | some u =>
      match st.find u with
      | none => (st, false)
      | some _ => (statusChange net add mode value u st, false)

def applyChanges : ChanState × Bool → List ModeChange → ChanState × Bool
  | acc, [] => acc
  | acc, change :: changes =>
    applyChanges ((applyChange net now acc.1 change).1, acc.2 || (applyChange net now acc.1 change).2) changes

/-- `channel_mode`, for a change that comes from the network. -/
def channelMode (pos : CString) (params : List CString) (st : ChanState) : ChanState :=
  if pos.head? = none ∨ pos.head? = some '0' then st
  else
    let (st, simpleModesChanged) := applyChanges net now (st, false) (parseModes net.ircd false pos params)
    if simpleModesChanged || test st.flags mcMlockCheck then checkModes net now st else st

end model

end ChatServices.ChanServ.Channels
