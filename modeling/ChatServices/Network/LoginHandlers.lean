import ChatServices.Network.Servers

/-! Users that log in and out, and accounts that come, go and change their names,
`libathemecore/services.c` and `libathemecore/account.c`. -/
namespace ChatServices.Network
open ChatServices.Lib ChatServices.Text

namespace Logins
variable (irccasecanon : CString → CString)

/-- `u->myuser = NULL`, and the node of `u` leaves the list of the account `a`. -/
def logOut (l : Logins) (u : ClientId) (a : AccountId) : Logins :=
  { l with
    myuser := fun v => if v = u then none else l.myuser v
    logins := fun b => if b = a then (l.logins b).erase u else l.logins b }

def setFlags (l : Logins) (a : AccountId) (noburstlogin pendinglogin : Bool) : Logins :=
  { l with accounts := l.accounts.modify a fun x =>
      { x with noburstlogin := noburstlogin, pendinglogin := pendinglogin } }

/-- `mynick_add`; a nick has one owner. -/
def mynickAdd (l : Logins) (nick : CString) (a : AccountId) : Logins :=
  { l with nicklist := l.nicklist.insertNew (irccasecanon nick) a }

def mynickDelete (l : Logins) (nick : CString) : Logins :=
  { l with nicklist := l.nicklist.erase (irccasecanon nick) }

/-- The end of `myuser_delete`: the nicks of the account go, and its memory with the list. -/
def free (l : Logins) (a : AccountId) (x : Account) : Logins :=
  { l with
    accounts := l.accounts.erase a
    accountlist := l.accountlist.erase (irccasecanon x.name)
    nicklist := l.nicklist.update fun _ owner => if owner = a then none else some owner
    logins := fun b => if b = a then [] else l.logins b }

/-- The tables in `myuser_rename`. -/
def rename (l : Logins) (a : AccountId) (x : Account) (name : CString) : Logins :=
  { l with
    accounts := l.accounts.modify a fun y => { y with name := name }
    accountlist := (l.accountlist.erase (irccasecanon x.name)).insertNew (irccasecanon name) a }

def registeredAt (l : Logins) (a : AccountId) : Option Int :=
  (l.accounts.find a).map Account.registered

end Logins

namespace Net
variable (ircd : Ircd) (leaving : Net → MemberId → List ClientId)

def withLogins (n : Net) (l : Logins) : Net := { n with logins := l }

/-- `ircd_on_logout`, and what it returns. On P10 there is no logout, and the user is killed. -/
def ircdOnLogout (n : Net) (u : ClientId) : Net × Bool :=
  if ircd.killsOnLogout then (killUser ircd leaving n u, true) else (n, false)

def loginTarget (n : Net) (x : User) (login : Option CString) : Option AccountId × CString :=
  match login with
  | some login => (n.logins.myuserFind ircd.irccasecanon login, login)
  | none =>
    match n.logins.nickOwner ircd.irccasecanon x.nick with
    | some a => (some a, ((n.logins.accounts.find a).map Account.name).getD [])
    | none => (none, x.nick)

def createLogin (n : Net) (login : CString) (ts now : Int) : Net × AccountId :=
  let (l, a) := n.logins.myuserAdd ircd.irccasecanon login now
  (n.withLogins (if ts ≠ 0 then l.setRegistered a ts else l), a)

/-- `u->myuser = mu`, with its node and without `UF_SOPER_PASS`. -/
def identify (n : Net) (u : ClientId) (a : AccountId) : Net :=
  (n.withLogins (n.logins.link u a)).setFlags u (n.census.flags u &&& ~~~UF_SOPER_PASS)

/-- `handle_burstlogin` once there is an account. -/
def burstIdentify (n : Net) (u : ClientId) (a : AccountId) (ts : Int) : Net :=
  if (n.logins.myuser u).isSome then n
  else if ts ≠ 0 ∧ some ts ≠ n.logins.registeredAt a then
    if n.authserviceLoaded then (ircdOnLogout ircd leaving n u).1 else n
  else if ((n.logins.accounts.find a).any Account.noburstlogin && n.authserviceLoaded) = true then
    (ircdOnLogout ircd leaving n u).1
  else
    let n := identify n u a
    if ((n.logins.accounts.find a).any Account.pendinglogin && n.authserviceLoaded) = true then
      n.withLogins { n.logins with
        accounts := n.logins.accounts.modify a fun y => { y with pendinglogin := false } }
    else n

def handleBurstlogin (n : Net) (u : ClientId) (login : Option CString) (ts now : Int) : Net :=
  match n.dir.users.find u with
  | none => n
  | some x =>
    match loginTarget ircd n x login with
    | (none, login) =>
      if n.authserviceLoaded || n.backendLoaded then
        if n.authserviceLoaded then (ircdOnLogout ircd leaving n u).1 else n
      else
        let (n, a) := createLogin ircd n login ts now
        burstIdentify ircd leaving n u a ts
    | (some a, _) => burstIdentify ircd leaving n u a ts

def handleSetlogin (n : Net) (u : ClientId) (login : Option CString) (ts now : Int) : Net :=
  match n.dir.users.find u with
  | none => n
  | some x =>
    let (mu, login) := loginTarget ircd n x login
    if n.authserviceLoaded then n
    else
      let n := n.withLogins (n.logins.unlink u)
      match mu with
      | none =>
        if n.backendLoaded then n
        else
          let (n, a) := createLogin ircd n login ts now
          identify n u a
      | some a =>
        if ts ≠ 0 ∧ some ts ≠ n.logins.registeredAt a then
          if n.backendLoaded then n
          else identify (n.withLogins (n.logins.setRegistered a ts)) u a
        else identify n u a

def handleClearlogin (n : Net) (u : ClientId) : Net :=
  if n.authserviceLoaded then n else n.withLogins (n.logins.unlink u)

/-- `myuser_login`; it returns at once for a user that is logged in. -/
def myuserLogin (n : Net) (u : ClientId) (a : AccountId) : Net :=
  match n.dir.users.find u, n.logins.accounts.find a, n.logins.myuser u with
  | some _, some _, none => identify n u a
  | _, _, _ => n

/-- One round of the loop of `myuser_delete` over the logins of the account. -/
def logOutUser (a : AccountId) (n : Net) (u : ClientId) : Net :=
  if n.authserviceLoaded then
    match ircdOnLogout ircd leaving n u with
    | (n, true) => n
    | (n, false) => n.withLogins (n.logins.logOut u a)
  else n.withLogins (n.logins.logOut u a)

def myuserDelete (n : Net) (a : AccountId) : Net :=
  match n.logins.accounts.find a with
  | none => n
  | some x =>
    let n := (n.logins.logins a).foldl (logOutUser ircd leaving a) n
    n.withLogins (n.logins.free ircd.irccasecanon a x)

/-- `myuser_rename`. What `ircd_on_logout` returns is not looked at. -/
def myuserRename (n : Net) (a : AccountId) (name : CString) : Net :=
  match n.logins.accounts.find a with
  | none => n
  | some x =>
    if name.length < NICKLEN then
      let n := if n.authserviceLoaded then
          (n.logins.logins a).foldl (fun n u => (ircdOnLogout ircd leaving n u).1) n
        else n
      n.withLogins (n.logins.rename ircd.irccasecanon a x name)
    else n

end Net
end ChatServices.Network
