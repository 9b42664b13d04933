import ChatServices.Lib.Owned
import ChatServices.ChanServ.ChanacsLoops

/-! Everything that points to an account: the name and id indexes, logins, registered nicks,
certificate fingerprints, auth cookies, services operators and access entries. -/
namespace ChatServices.ChanServ.Tables
open ChatServices.Lib ChatServices.Lib.Walk ChatServices.Text ChatServices.ChanServ.Heap

/-- The addresses of a `mynick_t`, a `mycertfp_t`, an `authcookie_t` and a `soper_t`. -/
abbrev NickRef := Nat
abbrev CertfpRef := Nat
abbrev CookieRef := Nat
abbrev SoperRef := Nat

structure MyCertfp where
  mu : MyUserRef
  certfp : CString

structure Authcookie where
  ticket : CString
  myuser : MyUserRef
  expire : Nat

structure Soper where
  myuser : Option MyUserRef
  name : Option CString
  /-- `SOPER_CONF` -/
  conf : Bool

/-- What `ircd_on_logout` answers. On P10 and Asuka it calls `kill_user` and answers `true`, but
`kill_user` refuses a client of services that is no enforcer. -/
structure LogoutConfig where
  authserviceLoaded : Bool
  ircdOnLogout : User → Bool
  refused : User → Bool

/-- The user is taken to be killed. -/
def LogoutConfig.kills (lc : LogoutConfig) (u : User) : Bool :=
  lc.authserviceLoaded && lc.ircdOnLogout u

/-- The user is taken to be killed, and is still there. -/
def LogoutConfig.spares (lc : LogoutConfig) (u : User) : Bool := lc.kills u && lc.refused u

structure ServDb where
  users : Registry MyUserRef MyUser
  groups : Registry GroupRef MyGroup
  chans : Registry MyChanRef MyChan
  heap : ChanacsHeap
  accountlist : Registry CString MyUserRef
  /-- `entities` and `entities_by_id` -/
  entities : Registry CString Entity
  entitiesById : Registry CString Entity
  lastEntityUid : CString
  /-- `u->myuser` of every user on the network, by its uid -/
  online : Registry CString (Option MyUserRef)
  /-- `nicklist`, and `mu->nicks` -/
  nicks : Owned NickRef MyUserRef CString MyNick
  /-- `certfplist`, and `mu->cert_fingerprints` -/
  certfps : Owned CertfpRef MyUserRef CString MyCertfp
  authcookies : Registry CookieRef Authcookie
  soperlist : Registry SoperRef Soper
  /-- `mu->soper` -/
  soper : MyUserRef → Option SoperRef

def ServDb.empty : ServDb where
  users := .empty
  groups := .empty
  chans := .empty
  heap := .empty
  accountlist := .empty
  entities := .empty
  entitiesById := .empty
  lastEntityUid := List.replicate 9 'A'
  online := .empty
  nicks := .empty
  certfps := .empty
  authcookies := .empty
  soperlist := .empty
  soper := fun _ => none

def ServDb.heapDb (s : ServDb) : HeapDb :=
  ⟨⟨s.users, s.nicks.objs.entries.map Prod.snd⟩, s.groups, s.chans, s.heap⟩

def ServDb.withHeap (s : ServDb) (h : HeapDb) : ServDb :=
  { s with chans := h.chans, heap := h.heap }

/-! ### Names and ids -/

def nextUid : Nat → CString → CString
  | _, [] => []
  | 0, c :: cs => (if c = 'Z' then 'A' else Char.ofNat (c.toNat + 1)) :: cs
  | n + 1, c :: cs =>
    if c = 'Z' then '0' :: cs
    else if c ≠ '9' then Char.ofNat (c.toNat + 1) :: cs
    else 'A' :: nextUid n cs

def myentityAllocUid (last : CString) : CString := (nextUid 5 last.reverse).reverse

/-- `myentity_put` for an entity that has its id. -/
def myentityPut (cfg : ChanConfig) (mt : Entity) (name id : CString) (s : ServDb) : ServDb :=
  { s with
    entities := s.entities.insertNew (irccasecanon cfg.casemapping name) mt
    entitiesById := s.entitiesById.insertNew id mt }

def myentityDel (cfg : ChanConfig) (name id : CString) (s : ServDb) : ServDb :=
  { s with
    entities := s.entities.erase (irccasecanon cfg.casemapping name)
    entitiesById := s.entitiesById.erase id }

def newId (s : ServDb) (id : Option CString) : CString × CString :=
  match id.filter fun i => (s.entitiesById.find i).isNone && truncate idLen i ≠ [] with
  | some i => (truncate idLen i, s.lastEntityUid)
  | none => (myentityAllocUid s.lastEntityUid, myentityAllocUid s.lastEntityUid)

def myuserFind (cfg : ChanConfig) (s : ServDb) (name : CString) : Option MyUserRef :=
  (s.entities.find (irccasecanon cfg.casemapping name)).bind asUser

/-! ### Services operators -/

def soperFind (s : ServDb) (mu : MyUserRef) : Option SoperRef :=
  (s.soperlist.entries.find? fun e => e.2.myuser = some mu).map Prod.fst

def soperFindNamed (cfg : ChanConfig) (s : ServDb) (name : CString) : Option SoperRef :=
  (s.soperlist.entries.find? fun e => e.2.name.any (irccaseEq cfg.casemapping · name)).map Prod.fst

/-- `soper_delete` also clears `mu->soper`; an account that is gone is freed memory. -/
def soperDelete (s : ServDb) (r : SoperRef) : Option ServDb :=
  (s.soperlist.find r).bind fun sp =>
    let s := { s with soperlist := s.soperlist.erase r }
    match sp.myuser with
    | none => some s
    | some mu =>
      (s.users.find mu).map fun _ => { s with soper := fun m => if m = mu then none else s.soper m }

def soperInsert (r : SoperRef) (mu : Option MyUserRef) (name : CString) (conf : Bool) (s : ServDb) :
    ServDb :=
  match mu with
  | some mu => { s with
      soperlist := s.soperlist.insertNew r ⟨some mu, none, conf⟩
      soper := fun m => if m = mu then some r else s.soper m }
  | none => { s with soperlist := s.soperlist.insertNew r ⟨none, some name, conf⟩ }

def soperAdd (cfg : ChanConfig) (r : SoperRef) (name : CString) (conf : Bool) (s : ServDb) :
    Option ServDb :=
  let mu := myuserFind cfg s name
  match (match mu with | some mu => soperFind s mu | none => soperFindNamed cfg s name) with
  | none => some (soperInsert r mu name conf s)
  | some old =>
    (s.soperlist.find old).bind fun sp =>
      -- an operator of the configuration file replaces one of the database
      if conf && !sp.conf then (soperDelete s old).map (soperInsert r mu name conf) else some s

/-! ### Accounts -/

/-- `myuser_add_id`, with what the flags and the old names give the account. -/
def myuserAddId (cfg : ChanConfig) (mu : MyUserRef) (id : Option CString) (name : CString)
    (flags : Flags) (accessList : List CString) (metadata : Metadata) (s : ServDb) : ServDb :=
  if (myuserFind cfg s name).isSome then s
  else
    let ids := newId s id
    let sp := soperFindNamed cfg s name
    let s := myentityPut cfg (.user mu) name ids.1 { s with
      users := s.users.insertNew mu ⟨name, ids.1, flags, [], 0, none, accessList, metadata⟩
      lastEntityUid := ids.2 }
    { s with
      accountlist := s.accountlist.insertNew (irccasecanon cfg.casemapping name) mu
      soper := fun m => if m = mu then sp else s.soper m
      soperlist := match sp with
        | some r => s.soperlist.modify r fun sp => { sp with myuser := some mu }
        | none => s.soperlist }

/-- `u->myuser = mu`, with a node for the user on the list of the account. -/
def login (u : User) (now : Nat) (mu : MyUserRef) (s : ServDb) : ServDb :=
  { s with
    online := s.online.set u.uid (some mu)
    users := s.users.modify mu (addLogin u now) }

def dropLogin (uid : CString) (o : MyUser) : MyUser :=
  { o with logins := o.logins.filter fun u => u.uid ≠ uid }

/-- `u->myuser = NULL`, and the node goes. -/
def logout (uid : CString) (s : ServDb) : Option ServDb :=
  (s.online.find uid).map fun m => { s with
    online := s.online.set uid none
    users := match m with
      | some mu => s.users.modify mu (dropLogin uid)
      | none => s.users }

/-- `user_delete`: a login to an account that is gone is freed memory. -/
def userDelete (uid : CString) (now : Nat) (s : ServDb) : Option ServDb :=
  (s.online.find uid).bind fun m =>
    let s := { s with online := s.online.erase uid }
    match m with
    | none => some s
    | some mu => (s.users.find mu).map fun _ => { s with
        users := s.users.modify mu fun o => { dropLogin uid o with lastlogin := now } }

def loginsOf (mu : MyUserRef) (s : ServDb) : List User :=
  ((s.users.find mu).map MyUser.logins).getD []

/-- `ircd_on_logout` where it calls `kill_user`. -/
def killUser (lc : LogoutConfig) (now : Nat) (s : ServDb) (u : User) : Option ServDb :=
  if lc.refused u then some s else userDelete u.uid now s

def logoutUser (lc : LogoutConfig) (now : Nat) (s : ServDb) (u : User) : Option ServDb :=
  if lc.kills u then killUser lc now s u else logout u.uid s

def logoutAll (lc : LogoutConfig) (now : Nat) (mu : MyUserRef) (s : ServDb) : Option ServDb :=
  walkSafe (loginsOf mu) (logoutUser lc now) (loginsOf mu s).length (loginsOf mu s).head? s

/-- `myuser_rename` only kills the users that the protocol kills on a logout. -/
def logoutKilled (lc : LogoutConfig) (now : Nat) (s : ServDb) (u : User) : Option ServDb :=
  if lc.kills u then killUser lc now s u else some s

/-- The users that stay logged in to an account that goes. -/
def lingering (lc : LogoutConfig) (mu : MyUserRef) (s : ServDb) : List User :=
  (loginsOf mu s).filter lc.spares

def myuserRename (cfg : ChanConfig) (lc : LogoutConfig) (now : Nat) (mu : MyUserRef) (name : CString)
    (s : ServDb) : Option ServDb :=
  (walkSafe (loginsOf mu) (logoutKilled lc now) (loginsOf mu s).length (loginsOf mu s).head? s).bind fun s =>
    (s.users.find mu).map fun o =>
      let s := myentityDel cfg o.name o.id { s with
        accountlist := s.accountlist.erase (irccasecanon cfg.casemapping o.name)
        users := s.users.modify mu fun o => { o with name := name } }
      let s := myentityPut cfg (.user mu) name o.id s
      { s with accountlist := s.accountlist.insertNew (irccasecanon cfg.casemapping name) mu }

/-! ### Nicks, fingerprints and cookies -/

def nickKey (cfg : ChanConfig) (mn : MyNick) : CString := irccasecanon cfg.casemapping mn.nick

def certfpKey (mcfp : MyCertfp) : CString := strcasecanon mcfp.certfp

def mynickAdd (cfg : ChanConfig) (r : NickRef) (mu : MyUserRef) (name : CString) (s : ServDb) :
    ServDb :=
  if (s.nicks.index.find (irccasecanon cfg.casemapping name)).isSome then s
  else { s with nicks := s.nicks.add MyNick.owner (nickKey cfg) r ⟨truncate nickLen name, mu⟩ }

def mynickDelete (cfg : ChanConfig) (s : ServDb) (r : NickRef) : Option ServDb :=
  (s.nicks.delete MyNick.owner (nickKey cfg) r).map fun nicks => { s with nicks := nicks }

def mycertfpAdd (r : CertfpRef) (mu : MyUserRef) (certfp : CString) (s : ServDb) : ServDb :=
  { s with certfps := s.certfps.add MyCertfp.mu certfpKey r ⟨mu, certfp⟩ }

def mycertfpDelete (s : ServDb) (r : CertfpRef) : Option ServDb :=
  (s.certfps.delete MyCertfp.mu certfpKey r).map fun certfps => { s with certfps := certfps }

def authcookieCreate (r : CookieRef) (mu : MyUserRef) (ticket : CString) (now : Nat) (s : ServDb) :
    ServDb :=
  { s with authcookies := s.authcookies.insertNew r ⟨ticket, mu, now + 3600⟩ }

def authcookieDestroy (r : CookieRef) (s : ServDb) : ServDb :=
  { s with authcookies := s.authcookies.erase r }

def authcookieDestroyAll (mu : MyUserRef) (s : ServDb) : ServDb :=
  { s with authcookies := s.authcookies.update fun _ ac => if ac.myuser = mu then none else some ac }

/-! ### The deletion of an account -/

def groupsLeave (mu : MyUserRef) (s : ServDb) : ServDb :=
  { s with groups := s.groups.update fun _ g => some (g.leave (.user mu)) }

def dropEntries (cfg : ChanConfig) (w : World) (mu : MyUserRef) (s : ServDb) : Option ServDb :=
  (foreachSafe (HeapDb.entityChanacs (.user mu)) (Heap.dropEntry cfg w) s.heapDb).map s.withHeap

def soperDrop (mu : MyUserRef) (s : ServDb) : Option ServDb :=
  if (soperFind s mu).isSome then
    match s.soper mu with
    | none => some s
    | some r => soperDelete s r
  else some s

def myuserFree (cfg : ChanConfig) (mu : MyUserRef) (s : ServDb) : Option ServDb :=
  (s.users.find mu).map fun o => myentityDel cfg o.name o.id { s with
    accountlist := s.accountlist.erase (irccasecanon cfg.casemapping o.name)
    users := s.users.erase mu }

def myuserDelete (cfg : ChanConfig) (lc : LogoutConfig) (w : World) (mu : MyUserRef) (s : ServDb) :
    Option ServDb :=
  (logoutAll lc w.currtime mu (groupsLeave mu s)).bind fun s =>
    (dropEntries cfg w mu s).bind fun s =>
      (soperDrop mu s).bind fun s =>
        let s := authcookieDestroyAll mu s
        (s.certfps.deleteAll MyCertfp.mu certfpKey mu).bind fun certfps =>
          let s := { s with certfps := certfps }
          (s.nicks.deleteAll MyNick.owner (nickKey cfg) mu).bind fun nicks =>
            myuserFree cfg mu { s with nicks := nicks }

end ChatServices.ChanServ.Tables
