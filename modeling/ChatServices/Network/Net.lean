import ChatServices.Network.Directory

/-! The accounts and who is logged in to them, `libathemecore/account.c` and
`libathemecore/services.c`. -/
namespace ChatServices.Network
open ChatServices.Lib ChatServices.Text

abbrev AccountId := Nat

/-- What the login handlers read of a `myuser_t`; `noburstlogin` and `pendinglogin` are the flags
`MU_NOBURSTLOGIN` and `MU_PENDINGLOGIN`. -/
structure Account where
  name : CString
  registered : Int
  noburstlogin : Bool
  pendinglogin : Bool
  deriving DecidableEq

structure Logins where
  accounts : Registry AccountId Account
  accountlist : Registry CString AccountId
  nicklist : Registry CString AccountId
  next : AccountId
  myuser : ClientId → Option AccountId
  logins : AccountId → List ClientId

namespace Logins
variable (irccasecanon : CString → CString)

def empty : Logins := ⟨.empty, .empty, .empty, 0, fun _ => none, fun _ => []⟩

def myuserFind (l : Logins) (name : CString) : Option AccountId :=
  l.accountlist.find (irccasecanon name)

/-- The owner of the nick that `mynick_find` finds. -/
def nickOwner (l : Logins) (nick : CString) : Option AccountId :=
  l.nicklist.find (irccasecanon nick)

/-- The `user_t` of a new user is not logged in. -/
def enter (l : Logins) (u : ClientId) : Logins :=
  { l with myuser := fun v => if v = u then none else l.myuser v }

/-- `myuser_add`: the account that has the name already, if there is one. -/
def myuserAdd (l : Logins) (name : CString) (now : Int) : Logins × AccountId :=
  match l.myuserFind irccasecanon name with
  | some a => (l, a)
  | none =>
    ({ l with
      accounts := l.accounts.insertNew l.next ⟨name, now, false, false⟩
      accountlist := l.accountlist.insertNew (irccasecanon name) l.next
      next := l.next + 1
      logins := fun a => if a = l.next then [] else l.logins a }, l.next)

def setRegistered (l : Logins) (a : AccountId) (ts : Int) : Logins :=
  { l with accounts := l.accounts.modify a fun x => { x with registered := ts } }

/-- `u->myuser = mu`, and a node for `u` at the end of `mu->logins`. -/
def link (l : Logins) (u : ClientId) (a : AccountId) : Logins :=
  { l with
    myuser := fun v => if v = u then some a else l.myuser v
    logins := fun b => if b = a then l.logins b ++ [u] else l.logins b }

/-- The first node of `u` leaves the list of its account, and `u->myuser = NULL`. -/
def unlink (l : Logins) (u : ClientId) : Logins :=
  match l.myuser u with
  | none => l
  | some a =>
    { l with
      myuser := fun v => if v = u then none else l.myuser v
      logins := fun b => if b = a then (l.logins b).erase u else l.logins b }

/-- `MU_NOBURSTLOGIN` goes from the account of a user that splits. -/
def allowBurst (l : Logins) (u : ClientId) : Logins :=
  match l.myuser u with
  | none => l
  | some a => { l with accounts := l.accounts.modify a fun x => { x with noburstlogin := false } }

end Logins
end ChatServices.Network

/-! The servers with their counters, and the flags of the users, `libathemecore/servers.c` and
`libathemecore/users.c`. -/
namespace ChatServices.Network
open ChatServices.Lib ChatServices.Text

abbrev Flags := BitVec 64

def UF_INVIS : Flags := 0x4
def UF_IRCOP : Flags := 0x10
def UF_SOPER_PASS : Flags := 0x400
def UF_DOENFORCE : Flags := 0x800
def UF_ENFORCER : Flags := 0x1000
def UF_DEAF : Flags := 0x4000
def UF_SERVICE : Flags := 0x8000

def isSet (flag f : Flags) : Bool := f &&& flag ≠ 0

/-- A `server_t`. The counters are unsigned in the code. -/
structure Server where
  name : CString
  uplink : Option ServerId
  children : List ServerId
  userlist : List ClientId
  users : Int
  opers : Int
  invis : Int
  deriving DecidableEq

/-- `underflow` says whether a counter has ever gone below zero, which the code does not keep. -/
structure Census where
  servers : Registry ServerId Server
  next : ServerId
  flags : ClientId → Flags
  underflow : Bool

namespace Census

def newServer (name : CString) (uplink : Option ServerId) : Server :=
  ⟨name, uplink, [], [], 0, 0, 0⟩

/-- `me_me_init`: nobody but `me.me`. -/
def start (name : CString) : Census :=
  ⟨Registry.empty.insertNew me (newServer name none), me + 1, fun _ => 0, false⟩

def tally (c : Census) (s : ServerId) (users opers invis : Int) : Census :=
  { c with
    servers := c.servers.modify s fun x =>
      { x with users := x.users + users, opers := x.opers + opers, invis := x.invis + invis }
    underflow := c.underflow || (c.servers.find s).any fun x =>
      x.users + users < 0 || x.opers + opers < 0 || x.invis + invis < 0 }

def setFlags (c : Census) (u : ClientId) (f : Flags) : Census :=
  { c with flags := fun v => if v = u then f else c.flags v }

/-- What `user_add` does on the server of the new user, whose `user_t` is all zero. -/
def enter (c : Census) (s : ServerId) (u : ClientId) : Census :=
  let c := (c.setFlags u 0).tally s 1 0 0
  { c with servers := c.servers.modify s fun x => { x with userlist := x.userlist ++ [u] } }

def bit (b : Bool) : Int := if b then 1 else 0

/-- What `user_delete` does on the server of the user. -/
def leave (c : Census) (s : ServerId) (u : ClientId) : Census :=
  let c := c.tally s (-1) (-bit (isSet UF_IRCOP (c.flags u))) (-bit (isSet UF_INVIS (c.flags u)))
  { c with servers := c.servers.modify s fun x => { x with userlist := x.userlist.erase u } }

/-- One letter of a mode string against `user_mode_list`. -/
def modeLetter (userModeList : List (Char × Flags)) (add : Bool) (f : Flags) (c : Char) : Flags :=
  userModeList.foldl
    (fun f e => if c = e.1 then (if add then f ||| e.2 else f &&& ~~~e.2) else f) f

/-- The loop of `user_mode` over the mode string. -/
def modeFlags (userModeList : List (Char × Flags)) : Bool → Flags → CString → Flags
  | _, f, [] => f
  | add, f, c :: modes =>
    if c = '+' then modeFlags userModeList true f modes
    else if c = '-' then modeFlags userModeList false f modes
    else modeFlags userModeList add (modeLetter userModeList add f c) modes

/-- `user_mode`; the counters go up where a flag has come, down where it has gone. -/
def userMode (userModeList : List (Char × Flags)) (c : Census) (s : ServerId) (u : ClientId)
    (modes : CString) : Census :=
  let old := c.flags u
  let new := modeFlags userModeList true old (cstr modes)
  (c.setFlags u new).tally s 0 (bit (isSet UF_IRCOP new) - bit (isSet UF_IRCOP old))
    (bit (isSet UF_INVIS new) - bit (isSet UF_INVIS old))

def addServer (c : Census) (name : CString) (uplink : ServerId) : Census :=
  { c with
    servers := (c.servers.insertNew c.next (newServer name (some uplink))).modify uplink fun x =>
      { x with children := x.children ++ [c.next] }
    next := c.next + 1 }

/-- The end of `server_delete_serv`: the server leaves its uplink and the table. -/
def dropServer (c : Census) (s : ServerId) : Census :=
  match (c.servers.find s).bind Server.uplink with
  | some uplink =>
    { c with servers := (c.servers.modify uplink fun x =>
        { x with children := x.children.erase s }).erase s }
  | none => { c with servers := c.servers.erase s }

end Census
end ChatServices.Network

/-! The channels and their members, `libathemecore/channels.c`. A `chanuser_t` stands in the list
of its channel and in the list of its user. -/
namespace ChatServices.Network
open ChatServices.Lib ChatServices.Text

abbrev ChanId := Nat
abbrev MemberId := Nat
abbrev Modes := BitVec 32

def CSTATUS_OP : Modes := 0x1

structure Channel where
  name : CString
  modes : Modes
  members : List MemberId
  nummembers : Int
  numsvcmembers : Int
  deriving DecidableEq

structure Chanuser where
  chan : ChanId
  user : ClientId
  modes : Modes
  deriving DecidableEq

structure Rooms where
  chans : Registry ChanId Channel
  chanlist : Registry CString ChanId
  nextChan : ChanId
  chanusers : Registry MemberId Chanuser
  nextMember : MemberId
  /-- The list `channels` of each user. -/
  channels : ClientId → List MemberId

namespace Rooms

def empty : Rooms := ⟨.empty, .empty, 0, .empty, 0, fun _ => []⟩

/-- `VALID_GLOBAL_CHANNEL_PFX` -/
def validGlobalChannelPfx (name : CString) : Bool :=
  match name with
  | [] => false
  | c :: _ => c = '#' || c = '+' || c = '!'

def members (r : Rooms) (c : ChanId) : List MemberId := ((r.chans.find c).map Channel.members).getD []

/-- The search of `chanuser_find` in the list of the user. -/
def findInChannels (r : Rooms) (c : ChanId) (u : ClientId) : Option MemberId :=
  (r.channels u).find? fun m => (r.chanusers.find m).any fun x => x.chan = c

/-- The search of `chanuser_find` in the list of the channel. -/
def findInMembers (r : Rooms) (c : ChanId) (u : ClientId) : Option MemberId :=
  (r.members c).find? fun m => (r.chanusers.find m).any fun x => x.user = u

def chanuserFind (r : Rooms) (c : ChanId) (u : ClientId) : Option MemberId :=
  if (r.channels u).length < (r.members c).length then r.findInChannels c u
  else r.findInMembers c u

/-- The `user_t` of a new user has an empty list. -/
def enter (r : Rooms) (u : ClientId) : Rooms :=
  { r with channels := fun v => if v = u then [] else r.channels v }

def setModes (r : Rooms) (c : ChanId) (modes : Modes) : Rooms :=
  { r with chans := r.chans.modify c fun x => { x with modes := modes } }

def addStatus (r : Rooms) (m : MemberId) (modes : Modes) : Rooms :=
  { r with chanusers := r.chanusers.modify m fun x => { x with modes := x.modes ||| modes } }

/-- A `chanuser_t` leaves its two lists and is freed. -/
def unlink (r : Rooms) (m : MemberId) : Rooms :=
  match r.chanusers.find m with
  | none => r
  | some cu =>
    { r with
      chans := r.chans.modify cu.chan fun x => { x with members := x.members.erase m }
      chanusers := r.chanusers.erase m
      channels := fun v => if v = cu.user then (r.channels v).erase m else r.channels v }

def channelFind (irccasecanon : CString → CString) (r : Rooms) (name : CString) : Option ChanId :=
  r.chanlist.find (irccasecanon name)

/-- `channel_add`: nothing where the name has no prefix of a channel. -/
def channelAdd (irccasecanon : CString → CString) (r : Rooms) (name : CString) :
    Option (Rooms × ChanId) :=
  if validGlobalChannelPfx name then
    match r.channelFind irccasecanon name with
    | some c => some (r, c)
    | none => some ({ r with
        chans := r.chans.insertNew r.nextChan ⟨name, 0, [], 0, 0⟩
        chanlist := r.chanlist.insertNew (irccasecanon name) r.nextChan
        nextChan := r.nextChan + 1 }, r.nextChan)
  else none

def channelDelete (irccasecanon : CString → CString) (r : Rooms) (c : ChanId) : Rooms :=
  match r.chans.find c with
  | none => r
  | some x =>
    let r := x.members.foldl unlink r
    { r with
      chans := r.chans.erase c
      chanlist := r.chanlist.erase (irccasecanon x.name) }

def svc (internal : Bool) : Int := if internal then 1 else 0

/-- The end of `chanuser_add`, for a user that is not in the channel. -/
def chanuserInsert (r : Rooms) (c : ChanId) (u : ClientId) (modes : Modes) (internal : Bool) :
    Rooms :=
  { r with
    chans := r.chans.modify c fun x =>
      { x with
        members := x.members ++ [r.nextMember]
        nummembers := x.nummembers + 1
        numsvcmembers := x.numsvcmembers + svc internal }
    chanusers := r.chanusers.insertNew r.nextMember ⟨c, u, modes⟩
    nextMember := r.nextMember + 1
    channels := fun v => if v = u then r.channels v ++ [r.nextMember] else r.channels v }

/-- `chanuser_delete` behind the hooks. Empty channels die. -/
def chanuserRemove (irccasecanon : CString → CString) (permMode : Modes) (r : Rooms) (c : ChanId)
    (m : MemberId) (internal : Bool) : Rooms :=
  let r := r.unlink m
  let r := { r with chans := r.chans.modify c fun x =>
    { x with
      nummembers := x.nummembers - 1
      numsvcmembers := x.numsvcmembers - svc internal } }
  if (r.chans.find c).any fun x => x.nummembers = 0 && x.modes &&& permMode = 0 then
    r.channelDelete irccasecanon c
  else r

end Rooms
end ChatServices.Network

/-! The network as services see it, and what `libathemecore/users.c`, `channels.c`, `servers.c`,
`services.c`, `servtree.c` and `account.c` do to it. The hooks at the end of a function are left
to whatever comes next. -/
namespace ChatServices.Network
open ChatServices.Lib ChatServices.Text

/-- What the protocol module and the configuration say. `uidGet i` is what `uid_get` returns when
it is called for the `i`th time. -/
structure Ircd where
  irccasecanon : CString → CString
  usesUid : Bool
  uidGet : Nat → Option CString
  permMode : Modes
  prefixModeList : List (Char × Modes)
  userModeList : List (Char × Flags)
  /-- `ircd_on_logout` kills the user and returns true, as on P10. -/
  killsOnLogout : Bool
  meName : CString

structure Net where
  dir : Directory
  census : Census
  logins : Logins
  rooms : Rooms
  uidsGiven : Nat
  authserviceLoaded : Bool
  backendLoaded : Bool

namespace Net
variable (ircd : Ircd) (leaving : Net → MemberId → List ClientId)

def start : Net := ⟨.empty, .start ircd.meName, .empty, .empty, 0, false, false⟩

def userFindNamed (n : Net) (nick : CString) : Option ClientId :=
  n.dir.userFindNamed ircd.irccasecanon nick

def userFind (n : Net) (nick : CString) : Option ClientId :=
  n.dir.userFind ircd.irccasecanon ircd.usesUid nick

def setFlags (n : Net) (u : ClientId) (f : Flags) : Net :=
  { n with census := n.census.setFlags u f }

/-- `ircd->uses_uid ? uid_get() : NULL` -/
def nextUid (n : Net) : Option CString := if ircd.usesUid then ircd.uidGet n.uidsGiven else none

def drawUid (n : Net) : Net :=
  if ircd.usesUid then { n with uidsGiven := n.uidsGiven + 1 } else n

/-! ### Channels -/

/-- `part` from inside a hook on `channel_part`. The services that leave are internal clients, for
which the hooks do nothing. -/
def partService (c : ChanId) (n : Net) (w : ClientId) : Net :=
  if n.dir.isInternalClient w then
    match n.rooms.chanuserFind c w with
    | none => n
    | some m =>
      { n with rooms := n.rooms.chanuserRemove ircd.irccasecanon ircd.permMode c m true }
  else n

/-- `chanuser_delete`. The hooks on `channel_part` come first, and let the services in `leaving`
part when somebody else leaves. -/
def chanuserDelete (n : Net) (c : ChanId) (u : ClientId) : Net :=
  match n.rooms.chanuserFind c u with
  | none => n
  | some m =>
    let internal := n.dir.isInternalClient u
    let n := if internal then n else (leaving n m).foldl (partService ircd c) n
    { n with rooms := n.rooms.chanuserRemove ircd.irccasecanon ircd.permMode c m internal }

/-- The loop of `chanuser_add` over the prefixes of a nick. -/
def stripPrefixes (prefixModeList : List (Char × Modes)) : Modes → CString → Modes × CString
  | flags, [] => (flags, [])
  | flags, c :: nick =>
    match prefixModeList.find? (fun e => c = e.1) with
    | some e => stripPrefixes prefixModeList (flags ||| e.2) nick
    | none => (flags, c :: nick)

/-- `chanuser_add` up to the hooks on `channel_join`, and the member it returns. -/
def chanuserAdd (n : Net) (c : ChanId) (nick : CString) : Net × Option MemberId :=
  match n.rooms.chans.find c with
  | none => (n, none)
  | some chan =>
    if Rooms.validGlobalChannelPfx chan.name then
      let (flags, nick) := stripPrefixes ircd.prefixModeList 0 nick
      match n.userFind ircd nick with
      | none => (n, none)
      | some u =>
        match n.rooms.chanuserFind c u with
        | some m => ({ n with rooms := n.rooms.addStatus m flags }, some m)
        | none =>
          ({ n with rooms := n.rooms.chanuserInsert c u flags (n.dir.isInternalClient u) },
            some n.rooms.nextMember)
    else (n, none)

def clientName (x : User) : CString := x.uid.getD x.nick

/-- `join`; `modes` are those `check_modes` leaves to a new channel. Where no channel or no member
comes back the code reads through a null pointer. -/
def join (n : Net) (chan nick : CString) (modes : Modes) : Option Net :=
  match n.userFindNamed ircd nick with
  | none => some n
  | some u =>
    let old := n.rooms.channelFind ircd.irccasecanon chan
    if old.any fun c => (n.rooms.chanuserFind c u).isSome then some n
    else
      match n.rooms.channelAdd ircd.irccasecanon chan with
      | none => none
      | some (rooms, c) =>
        let rooms := if old.isNone then rooms.setModes c modes else rooms
        match chanuserAdd ircd { n with rooms := rooms } c
            (((n.dir.users.find u).map clientName).getD []) with
        | (_, none) => none
        | (n, some m) => some { n with rooms := n.rooms.addStatus m CSTATUS_OP }

def part (n : Net) (chan nick : CString) : Net :=
  match n.rooms.channelFind ircd.irccasecanon chan, n.userFindNamed ircd nick with
  | some c, some u => chanuserDelete ircd leaving n c u
  | _, _ => n

def channelDelete (n : Net) (c : ChanId) : Net :=
  { n with rooms := n.rooms.channelDelete ircd.irccasecanon c }

/-! ### Users -/

/-- What `user_add` does for a user it takes, up to the hooks. -/
def userInsert (n : Net) (x : User) : Net :=
  { n with
    dir := n.dir.insert ircd.irccasecanon x
    census := n.census.enter x.server n.dir.next
    logins := n.logins.enter n.dir.next
    rooms := n.rooms.enter n.dir.next }

/-- `introduce_enforcer`; `user_add` refuses a local nick that exists already. -/
def introduceEnforcer (n : Net) (nick : CString) : Net :=
  let uid := n.nextUid ircd
  let n := n.drawUid ircd
  match n.userFindNamed ircd nick with
  | some _ => n
  | none =>
    let u := n.dir.next
    let n := n.userInsert ircd
      ⟨nick, ['e', 'n', 'f', 'o', 'r', 'c', 'e', 'r'], ircd.meName, uid, me, 1⟩
    n.setFlags u (n.census.flags u ||| (UF_INVIS ||| UF_ENFORCER))

/-- One round of the loop of `user_delete` over the channels of the user. -/
def leaveChannel (u : ClientId) (n : Net) (m : MemberId) : Net :=
  match n.rooms.chanusers.find m with
  | none => n
  | some cu => chanuserDelete ircd leaving n cu.chan u

def leaveChannels (n : Net) (u : ClientId) : Net :=
  (n.rooms.channels u).foldl (leaveChannel ircd leaving u) n

/-- `user_delete` of the user `x` at `u`, up to the enforcer. -/
def userGone (n : Net) (u : ClientId) (x : User) : Net :=
  let n := leaveChannels ircd leaving { n with census := n.census.leave x.server u } u
  { n with
    dir := n.dir.remove ircd.irccasecanon u x
    logins := n.logins.unlink u }

def userDelete (n : Net) (u : ClientId) : Net :=
  match n.dir.users.find u with
  | none => n
  | some x =>
    if isSet UF_DOENFORCE (n.census.flags u) then
      introduceEnforcer ircd
        (userGone ircd leaving (n.setFlags u (n.census.flags u &&& ~~~UF_DOENFORCE)) u x)
        (truncate NICKLEN x.nick)
    else userGone ircd leaving n u x

/-- `user_add`. On a collision with an internal client the new user is refused, whatever its UID,
its timestamp and its user and host: all four branches return `NULL`. On any other collision the
user that has the nick is deleted, and the new one refused. -/
def userAdd (n : Net) (x : User) (now : Int) : Net × Option ClientId :=
  match n.userFindNamed ircd x.nick with
  | some u2 =>
    if x.server = me then (n, none)
    else if n.dir.isInternalClient u2 then (n, none)
    else (userDelete ircd leaving n u2, none)
  | none =>
    (n.userInsert ircd { x with ts := if x.ts = 0 then now else x.ts }, some n.dir.next)

/-- `user_changenick`, with whether the user has been killed. All three branches of a collision
with an internal client delete the user and leave the client. -/
def userChangenick (n : Net) (u : ClientId) (nick : CString) (ts : Int) : Net × Bool :=
  match n.dir.users.find u with
  | none => (n, false)
  | some x =>
    let u2 := n.userFindNamed ircd nick
    let doenforcer := isSet UF_DOENFORCE (n.census.flags u) && u2 != some u
    let n := if doenforcer then n.setFlags u (n.census.flags u &&& ~~~UF_DOENFORCE) else n
    match u2.filter (· ≠ u) with
    | some u2 =>
      if x.server = me then (n, false)
      else if n.dir.isInternalClient u2 then (userDelete ircd leaving n u, true)
      else (userDelete ircd leaving (userDelete ircd leaving n u) u2, true)
    | none =>
      let n := { n with dir := n.dir.rename ircd.irccasecanon u x nick ts }
      (if doenforcer then introduceEnforcer ircd n (truncate NICKLEN x.nick) else n, false)

def userChangeuid (n : Net) (u : ClientId) (uid : Option CString) : Net :=
  match n.dir.users.find u with
  | none => n
  | some x => { n with dir := n.dir.changeUid u x uid }

def userMode (n : Net) (u : ClientId) (modes : CString) : Net :=
  match n.dir.users.find u with
  | none => n
  | some x => { n with census := n.census.userMode ircd.userModeList x.server u modes }

def killUser (n : Net) (u : ClientId) : Net :=
  if isSet UF_ENFORCER (n.census.flags u) then userDelete ircd leaving n u
  else if n.dir.isInternalClient u then n
  else userDelete ircd leaving n u

end Net
end ChatServices.Network
