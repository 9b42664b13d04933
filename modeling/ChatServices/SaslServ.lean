import ChatServices.SaslMech
import ChatServices.Lib.Run

/-! The SASL service: collecting the pieces of a message, stepping the mechanism,
the login decision, the introduction of the user and the stale-session timer. -/
namespace ChatServices.Sasl
open ChatServices.Lib ChatServices.Lib.Mask ChatServices.Text

abbrev Uid := CString

structure ServConfig extends Config where
  mechanisms : List Mechanism
  useSaslPuid : Bool
  serviceNick : CString

inductive Mode where
  | H | S | C | D
  | other (c : Char)
  deriving DecidableEq

structure SaslMessage where
  uid : Uid
  mode : Mode
  parv0 : CString
  parv : List CString
  deriving DecidableEq

/-- What the service sends and does, in order. `packet`, `accepted`, `myuserLogin`
and `destroyed` record the calls that the properties are about. -/
inductive Obs where
  | sts (uid : Uid) (mode : Char) (data : CString)
  | svslogin (uid : Uid) (cloak : CString) (mu : MyUserRef)
  | notice (nick : CString) (fmt : String) (args : List CString)
  | commandFail (fault : Fault) (fmt : String)
  | badPassword (mu : MyUserRef) (description : CString)
  | packet (uid : Uid) (buf : CString)
  | accepted (uid : Uid) (mu : MyUserRef)
  | myuserLogin (uid : Uid) (mu : MyUserRef) (description : CString)
  | loggedIn (u : User) (mu : MyUserRef) (account : MyUser)
  | destroyed (uid : Uid)
  deriving DecidableEq

structure State where
  sessions : Registry Uid Session
  accounts : Accounts

def mechlistBufLen : Nat := 400

/-- `mechlist_build_string`: names joined by commas while they fit. -/
def mechlistFrom (l : Nat) : List Mechanism → CString
  | [] => []
  | m :: ms =>
    if l + m.name.length > mechlistBufLen then []
    else m.name ++ ',' :: mechlistFrom (l + m.name.length + 1) ms

def mechlistString (cfg : ServConfig) : CString := (mechlistFrom 0 cfg.mechanisms).dropLast

def findMechanism (cfg : ServConfig) (name : CString) : Option Mechanism :=
  cfg.mechanisms.find? (fun m => m.name = name)

def pieceLen : Nat := 400

/-- The loop of `sasl_write`: `last` is the length of the piece sent before, and a
piece goes out as a C string. A last piece of full length, or no piece at all, is
followed by an empty one, which is written `+`. -/
def writeFrom : Nat → Nat → CString → List CString
  | _, last, [] => if last = pieceLen then [['+']] else []
  | 0, _, _ => []
  | fuel + 1, _, data =>
    let nbytes := if data.length > pieceLen then pieceLen else data.length
    cstr (data.take nbytes) :: writeFrom fuel nbytes (data.drop nbytes)

def saslWrite (data : CString) : List CString := writeFrom data.length pieceLen data

def mayImpersonate (w : World) (db : Accounts) (source target : MyUserRef) : Bool :=
  let classname := ((db.get target).bind MyUser.soper).getD "user".toList
  let name := ((db.get target).map MyUser.name).getD []
  source = target || w.hasPrivMyuser source "impersonate:any".toList ||
    w.hasPrivMyuser source (truncate 512 ("impersonate:class:".toList ++ classname)) ||
    w.hasPrivMyuser source (truncate 512 ("impersonate:entity:".toList ++ name)) ||
    w.saslMayImpersonate source target

def loginTarget (cfg : ServConfig) (db : Accounts) (p : Session) (source : MyUserRef) :
    Option MyUserRef × Session :=
  match p.authzid with
  | some (c :: cs) => (myuserFindByNick cfg.toConfig db (c :: cs), p)
  | _ => (some source, { p with authzid := p.username })

def hasMuFlag (db : Accounts) (mu : MyUserRef) (f : Flags) : Bool :=
  ((db.get mu).map (fun m => test m.flags f)).getD false

def isFrozen (db : Accounts) (mu : MyUserRef) : Bool :=
  ((db.get mu).map MyUser.frozen).getD false

def loginsOf (db : Accounts) (mu : MyUserRef) : List User :=
  ((db.get mu).map MyUser.logins).getD []

def strictRefused (cfg : ServConfig) (db : Accounts) (source target : MyUserRef) : List User :=
  match db.get target with
  | none => []
  | some mu =>
    if test mu.flags muStrictaccess then
      (loginsOf db source).filter (fun u => !myuserAccessVerify cfg.toConfig u mu)
    else []

def strictNotice : String :=
  "You may not log in from this connection as STRICTACCESS has been enabled on this account."

/-- `target_mu->flags` for IRCds whose users have permanent ids. -/
def markPendingLogin (mu : MyUser) : MyUser :=
  { mu with flags := (mu.flags &&& ~~~muNoburstlogin) ||| muPendinglogin }

structure LoginResult where
  mu : Option MyUserRef
  session : Session
  accounts : Accounts
  obs : List Obs

def loginUser (cfg : ServConfig) (w : World) (db : Accounts) (p : Session) : LoginResult :=
  match p.username.bind (myuserFindByNick cfg.toConfig db) with
  | none => ⟨none, p, db, []⟩
  | some source =>
    if !w.userCanLogin source then ⟨none, p, db, []⟩
    else
      match loginTarget cfg db p source with
      | (none, p) => ⟨none, p, db, []⟩
      | (some target, p) =>
        if strictRefused cfg db source target ≠ [] then
          ⟨none, p, db, (strictRefused cfg db source target).map
            (fun u => .notice u.nick strictNotice [])⟩
        else if isFrozen db source then ⟨none, p, db, []⟩
        else if target ≠ source && !mayImpersonate w db source target then ⟨none, p, db, []⟩
        else if target ≠ source && !w.userCanLogin target then ⟨none, p, db, []⟩
        else if target ≠ source && isFrozen db target then ⟨none, p, db, []⟩
        else if (loginsOf db target).length ≥ cfg.maxlogins then ⟨none, p, db, []⟩
        else
          ⟨some target, { p with needLog := true },
            if cfg.useSaslPuid then db.modify target markPendingLogin else db, []⟩

structure PacketResult where
  session : Option Session
  accounts : Accounts
  obs : List Obs

def failSession (uid : Uid) (db : Accounts) (obs : List Obs) : PacketResult :=
  ⟨none, db, obs ++ [.sts uid 'D' ['F'], .destroyed uid]⟩

/-- `bad_password` against the account the failed exchange was for. -/
def failedAuth (cfg : ServConfig) (db : Accounts) (p : Session) : List Obs :=
  match p.username.bind (myuserFindByNick cfg.toConfig db) with
  | none => []
  | some mu =>
    [.badPassword mu (truncate 300 ("SASL ".toList ++ (p.mech.map (·.mechanism.name)).getD []))]

def usercloak (db : Accounts) (mu : MyUserRef) : CString :=
  ((db.get mu).bind (·.metadataFind "private:usercloak".toList)).getD ['*']

def acceptObs (db : Accounts) (uid : Uid) (mu : MyUserRef) : List Obs :=
  (if hasMuFlag db mu muWaitauth then [] else [.svslogin uid (usercloak db mu) mu]) ++
    [.sts uid 'D' ['S']]

/-- The second half of `sasl_packet`: what the mechanism's answer leads to. -/
def packetOutcome (cfg : ServConfig) (w : World) (db : Accounts) (uid : Uid) (r : MechResult) :
    PacketResult :=
  let p := { r.session with markedForDeletion := false }
  match r.rc with
  | .done =>
    let l := loginUser cfg w db p
    match l.mu with
    | some mu => ⟨some l.session, l.accounts, l.obs ++ .accepted uid mu :: acceptObs l.accounts uid mu⟩
    | none => failSession uid l.accounts l.obs
  | .more =>
    if r.out ≠ [] then
      let enc := (Base64.encode r.out bufsize).getD (cstr w.memoryAfter)
      ⟨some p, db, (saslWrite enc).map (.sts uid 'C' ·)⟩
    else ⟨some p, db, [.sts uid 'C' ['+']]⟩
  | .fail => failSession uid db (failedAuth cfg db p)

/-- What `sasl_packet` hands to a mechanism that is already chosen. -/
def stepMessage (cfg : ServConfig) (w : World) (db : Accounts) (p : Session) (m : MechState)
    (buf : CString) : MechResult :=
  if buf = ['+'] then mechStep cfg.toConfig { w with memoryAfter := nul :: w.memoryAfter } db p m []
  else
    match Base64.decode buf bufsize with
    | some (c :: cs) => mechStep cfg.toConfig w db p m (c :: cs)
    | _ => failed p

def saslPacket (cfg : ServConfig) (w : World) (db : Accounts) (uid : Uid) (p : Session)
    (buf : CString) : PacketResult :=
  match p.mech with
  | none =>
    if buf.length > 60 then failSession uid db []
    else
      match findMechanism cfg (cstr buf) with
      | none => failSession uid db [.sts uid 'M' (mechlistString cfg)]
      | some m => packetOutcome cfg w db uid (mechStart m p)
  | some m => packetOutcome cfg w db uid (stepMessage cfg w db p m buf)

def maxBuffer : Nat := 8192

/-- The `C` branch of `sasl_input`: collect the piece, and process what has been
collected unless the piece has the full length. -/
def saslData (cfg : ServConfig) (w : World) (db : Accounts) (uid : Uid) (p : Session)
    (data : CString) : PacketResult :=
  if p.buf ≠ none ∧ (p.buf.getD []).length + data.length + 1 > maxBuffer then
    failSession uid db []
  else
    let collected := p.buf.getD [] ++ data
    if data.length < pieceLen then
      let r := saslPacket cfg w db uid { p with buf := none } collected
      { r with obs := .packet uid collected :: r.obs }
    else ⟨some { p with buf := some collected }, db, []⟩

def makeSession (uid : Uid) (s : State) : State :=
  { s with sessions := s.sessions.insertNew uid .fresh }

def putSession (uid : Uid) (r : PacketResult) (s : State) : State × List Obs :=
  match r.session with
  | some p => (⟨s.sessions.set uid p, r.accounts⟩, r.obs)
  | none => (⟨s.sessions.erase uid, r.accounts⟩, r.obs)

/-- The `H` branch: the client's host, address and whether it came over TLS. -/
def hostInfo (p : Session) (msg : SaslMessage) : Session :=
  { p with
    host := some (cstr msg.parv0)
    ip := msg.parv.head?
    tls := p.tls || match msg.parv with
      | _ :: secure :: _ => decide (secure ≠ ['P'])
      | _ => false }

/-- The `S` branch before it falls through: EXTERNAL brings the fingerprint. -/
def startInfo (p : Session) (msg : SaslMessage) : Session :=
  match msg.parv with
  | certfp :: _ =>
    if cstr msg.parv0 = "EXTERNAL".toList then { p with certfp := some certfp, tls := true } else p
  | [] => p

def inputSession (cfg : ServConfig) (w : World) (db : Accounts) (p : Session)
    (msg : SaslMessage) : PacketResult :=
  match msg.mode with
  | .H => ⟨some (hostInfo p msg), db, []⟩
  | .S => saslData cfg w db msg.uid (startInfo p msg) (cstr msg.parv0)
  | .C => saslData cfg w db msg.uid p (cstr msg.parv0)
  | .D => ⟨none, db, [.destroyed msg.uid]⟩
  | .other _ => ⟨some p, db, []⟩

/-- `make_session`, and the session it returns. -/
def sessionOf (s : State) (uid : Uid) : Session := (s.sessions.find uid).getD .fresh

def saslInput (cfg : ServConfig) (w : World) (s : State) (msg : SaslMessage) : State × List Obs :=
  putSession msg.uid (inputSession cfg w s.accounts (sessionOf s msg.uid) msg)
    (makeSession msg.uid s)

/-- `myuser_login`: a user who is logged in already stays where it is. -/
def myuserLogin (w : World) (db : Accounts) (u : User) (mu : MyUserRef) (description : CString) :
    Accounts × List Obs :=
  match u.myuser db, db.get mu with
  | none, some account =>
    (db.modify mu (addLogin u w.currtime),
      [.myuserLogin u.uid mu description, .loggedIn u mu account])
  | _, _ => (db, [.myuserLogin u.uid mu description])

def loginDescription (p : Session) : CString :=
  match p.certfp, p.mech with
  | some certfp, some .external => truncate 300 ("SASL EXTERNAL (".toList ++ certfp ++ [')'])
  | _, m => truncate 300 ("SASL ".toList ++ (m.map (·.mechanism.name)).getD [])

def saslNewuser (cfg : ServConfig) (w : World) (s : State) (u : User) : State × List Obs :=
  match s.sessions.find u.uid with
  | none => (s, [])
  | some p =>
    match p.authzid.bind (myuserFindByNick cfg.toConfig s.accounts) with
    | none =>
      (⟨s.sessions.erase u.uid, s.accounts⟩,
        [.notice u.nick "Account %s dropped, login cancelled" [p.authzid.getD "??".toList],
         .destroyed u.uid])
    | some mu =>
      let r := myuserLogin w s.accounts u mu (loginDescription p)
      (⟨s.sessions.erase u.uid, r.1⟩,
        r.2 ++ [.destroyed u.uid,
          .notice u.nick "You are now logged in to: %s" [((r.1.get mu).map MyUser.name).getD []]])

def ageSession (p : Session) : Option Session :=
  if p.markedForDeletion then none else some { p with markedForDeletion := true }

def deleteStale (s : State) : State × List Obs :=
  (⟨s.sessions.update (fun _ p => ageSession p), s.accounts⟩,
    (s.sessions.entries.filter (·.2.markedForDeletion)).map (fun e => .destroyed e.1))

inductive Event where
  | message (w : World) (msg : SaslMessage)
  | sweep
  | newuser (w : World) (u : User)

def step (cfg : ServConfig) (s : State) : Event → State × List Obs
  | .message w msg => saslInput cfg w s msg
  | .sweep => deleteStale s
  | .newuser w u => saslNewuser cfg w s u

def State.initial (db : Accounts) : State := ⟨.empty, db⟩

/- A world that verifies nothing and a service with every mechanism, for examples. -/
def World.refusing : World where
  verifyPassword _ _ := false
  authcookieFind _ _ := false
  mycertfpFind _ := none
  userCanLogin _ := true
  hasPrivMyuser _ _ := false
  saslMayImpersonate _ _ := false
  randPseudoBytes := List.replicate 32 'c'
  octToPoint raw := some raw
  ecdsaVerify _ _ _ := .invalid
  memoryAfter := []
  currtime := 0

def sampleConfig : ServConfig where
  casemapping := .rfc1459
  noNickOwnership := false
  useMyuserAccess := true
  maxlogins := 5
  matchMask mask name := mask = name
  matchCidr _ _ := false
  mechanisms := [.plain, .authcookie, .external, .ecdsa]
  useSaslPuid := false
  serviceNick := "SaslServ".toList

/- Two accounts, the first with a public key, and a user on the network. -/
def sampleAccounts : Accounts where
  users := ⟨[(0, ⟨"mallory".toList, "AAAAAAAAB".toList, 0#32, [], 0, none, [],
      [("pubkey".toList, "AAAA".toList)]⟩),
    (1, ⟨"admin".toList, "AAAAAAAAC".toList, 0#32, [], 0, none, [], []⟩)], by decide⟩
  nicks := []

def sampleUser : User where
  uid := "1AAAAAAAA".toList
  nick := "nick".toList
  user := "user".toList
  host := "host.example".toList
  vhost := "host.example".toList
  chost := "host.example".toList
  ip := "192.0.2.1".toList

end ChatServices.Sasl
