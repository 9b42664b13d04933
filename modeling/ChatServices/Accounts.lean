import ChatServices.Lib.Mask
import ChatServices.Lib.Registry
import ChatServices.Text

/-! Services accounts, registered nicks and the users logged in to them: the name
lookups, the account access list and what a login changes. -/
namespace ChatServices
open ChatServices.Lib ChatServices.Text

abbrev Flags := BitVec 32

def muNeverop : Flags := 0x2#32
def muWaitauth : Flags := 0x8#32
def muNoburstlogin : Flags := 0x400#32
def muRegnolimit : Flags := 0x10000#32
def muPendinglogin : Flags := 0x40000#32
def muStrictaccess : Flags := 0x80000#32
def muNotifyacl : Flags := 0x100000#32
def muNopassword : Flags := 0x1000000#32

/-- The address of a `myuser_t`. -/
abbrev MyUserRef := Nat

structure User where
  uid : CString
  nick : CString
  user : CString
  host : CString
  vhost : CString
  chost : CString
  ip : CString
  deriving DecidableEq

structure MyUser where
  name : CString
  id : CString
  flags : Flags
  logins : List User
  lastlogin : Nat
  soper : Option CString
  accessList : List CString
  metadata : List (CString × CString)
  deriving DecidableEq

structure MyNick where
  nick : CString
  owner : MyUserRef
  deriving DecidableEq

structure Accounts where
  users : Registry MyUserRef MyUser
  nicks : List MyNick

structure Config where
  casemapping : CaseMapping
  noNickOwnership : Bool
  useMyuserAccess : Bool
  maxlogins : Nat
  /-- `!match (mask, name)` -/
  matchMask : CString → CString → Bool
  /-- `!match_cidr (mask, name)` -/
  matchCidr : CString → CString → Bool

def userLen : Nat := 12
def hostLen : Nat := 64

/-- `metadata_find` on an account; the keys fold by `strcasecanon`. -/
def MyUser.metadataFind (mu : MyUser) (name : CString) : Option CString :=
  (mu.metadata.find? (fun md => strcaseEq md.1 name)).map Prod.snd

def MyUser.frozen (mu : MyUser) : Bool :=
  (mu.metadataFind "private:freeze:freezer".toList).isSome

namespace Accounts

def get (db : Accounts) (ref : MyUserRef) : Option MyUser := db.users.find ref

def modify (ref : MyUserRef) (f : MyUser → MyUser) (db : Accounts) : Accounts :=
  { db with users := db.users.modify ref f }

end Accounts

def myuserFind (cfg : Config) (db : Accounts) (name : CString) : Option MyUserRef :=
  (db.users.entries.find? (fun e => irccaseEq cfg.casemapping e.2.name name)).map Prod.fst

def mynickFind (cfg : Config) (db : Accounts) (name : CString) : Option MyNick :=
  db.nicks.find? (fun mn => irccaseEq cfg.casemapping mn.nick name)

def myuserFindByNick (cfg : Config) (db : Accounts) (name : CString) : Option MyUserRef :=
  match myuserFind cfg db name with
  | some mu => some mu
  | none => if cfg.noNickOwnership then none else (mynickFind cfg db name).map MyNick.owner

/-- The four `user@host` texts a mask is compared with. -/
def User.userhosts (u : User) : List CString :=
  [u.vhost, u.host, u.ip, u.chost].map fun h => truncate (userLen + hostLen) (u.user ++ '@' :: h)

def accessEntryMatches (cfg : Config) (u : User) (entry : CString) : Bool :=
  u.userhosts.any (cfg.matchMask entry) ||
    cfg.matchCidr entry (truncate (userLen + hostLen) (u.user ++ '@' :: u.ip))

def myuserAccessVerify (cfg : Config) (u : User) (mu : MyUser) : Bool :=
  if !cfg.useMyuserAccess then false
  else if mu.frozen then false
  else mu.accessList.any (accessEntryMatches cfg u)

/-- `u->myuser`, read off the login lists. -/
def User.myuser (db : Accounts) (u : User) : Option MyUserRef :=
  (db.users.entries.find? (fun e => e.2.logins.any (·.uid = u.uid))).map Prod.fst

def addLogin (u : User) (now : Nat) (mu : MyUser) : MyUser :=
  { mu with logins := mu.logins ++ [u], lastlogin := now }

def Accounts.logout (uid : CString) (db : Accounts) : Accounts :=
  { db with users := db.users.update (fun _ mu =>
      some { mu with logins := mu.logins.filter (fun u => u.uid ≠ uid) }) }

/-! ### Lookups by name only read names -/

def Accounts.names (db : Accounts) : List (MyUserRef × CString) × List MyNick :=
  (db.users.entries.map (fun e => (e.1, e.2.name)), db.nicks)

theorem myuserFind_eq_names (cfg : Config) (db : Accounts) (name : CString) :
    myuserFind cfg db name =
      (db.names.1.find? (fun e => irccaseEq cfg.casemapping e.2 name)).map Prod.fst := by
  simp only [myuserFind, Accounts.names, List.find?_map, Option.map_map]
  rfl

theorem myuserFindByNick_congr (cfg : Config) {db db' : Accounts} (h : db'.names = db.names)
    (name : CString) : myuserFindByNick cfg db' name = myuserFindByNick cfg db name := by
  have hn : db'.nicks = db.nicks := congrArg Prod.snd h
  simp only [myuserFindByNick, myuserFind_eq_names, mynickFind, h, hn]

theorem names_modify (ref : MyUserRef) (f : MyUser → MyUser) (hf : ∀ mu, (f mu).name = mu.name)
    (db : Accounts) : (db.modify ref f).names = db.names := by
  obtain ⟨⟨xs, hxs⟩, nicks⟩ := db
  simp only [Accounts.names, Accounts.modify, Registry.modify, Registry.update,
    Registry.updateEntries, Prod.mk.injEq, and_true]
  clear hxs
  induction xs with
  | nil => rfl
  | cons e xs ih => by_cases he : e.1 = ref <;> simp [he, hf, ih]

theorem myuserAccessVerify_iff (cfg : Config) (u : User) (mu : MyUser) :
    myuserAccessVerify cfg u mu = true ↔
      cfg.useMyuserAccess = true ∧ mu.frozen = false ∧
        ∃ entry ∈ mu.accessList, accessEntryMatches cfg u entry = true := by
  simp only [myuserAccessVerify]
  cases cfg.useMyuserAccess <;> cases mu.frozen <;> simp

end ChatServices
