import ChatServices.Lib.Interned
import ChatServices.Lib.Owned
import ChatServices.Lib.Run
import ChatServices.Match

/-! Accounts with their addresses and nicks: REGISTER, SET EMAIL, VERIFY EMAILCHG, GROUP, UNGROUP,
FUNGROUP and the deletion of an account. -/
namespace ChatServices.NickServ.Registration
open ChatServices.Text ChatServices.Match ChatServices.Lib

def NICKLEN : Nat := 32
def PASSLEN : Nat := 289
def EMAILLEN : Nat := 120

/-- An account; its addresses are shared texts, and `private:verify:emailchg:key` comes with
`:newemail`. -/
structure Account where
  name : CString
  email : Nat
  emailCanonical : Nat
  emailchg : Option (CString × CString)
  restricted : Bool
  deriving DecidableEq

structure Nick where
  nick : CString
  owner : Nat
  deriving DecidableEq

/-- Accounts by address, their two name indexes, the nicks with `nicklist` and the list of each
account, and the shared texts. -/
structure State where
  accounts : Registry Nat Account
  entities : Registry CString Nat
  accountlist : Registry CString Nat
  nicks : Owned Nat Nat CString Nick
  strings : Interned CString

def State.empty : State := ⟨.empty, .empty, .empty, .empty, ⟨.empty⟩⟩

structure Config where
  casemapping : CaseMapping
  noNickOwnership : Bool
  maxnicks : Nat
  maxusers : Nat
  emailexempts : List CString
  canonicalizers : List (CString → CString)
  authEmail : Bool
  authModuleLoaded : Bool
  /-- `nickserv/set_accountname` is loaded -/
  setAccountname : Bool
  alloc : Allocator

inductive Obs where
  | gave (mu : Nat) (email : CString)
  | registered (mu : Nat)
  | aborted
  | freedRead
  deriving DecidableEq

/-! ### Addresses -/

/-- What the loop of `validemail` counts, and the character behind the last dot. -/
structure EmailScan where
  chars : Nat
  atcnt : Nat
  dotcnt : Nat
  afterDot : Option Char

def isEmailChar (c : Char) : Bool := isAlpha c || isDigit c || c ∈ ['%', '+', '-', '=', '^', '_']

def scanEmail (prev : Option Char) (e : EmailScan) : CString → Option EmailScan
  | [] => some e
  | c :: cs =>
    if c = '.' then
      if prev = none ∨ prev = some '.' ∨ prev = some '@' ∨ cs = [] ∨ cs.head? = some '@' then none
      else scanEmail (some c) { e with dotcnt := e.dotcnt + 1, afterDot := cs.head? } cs
    else if c = '@' then scanEmail (some c) { e with atcnt := e.atcnt + 1, dotcnt := 0 } cs
    else if isEmailChar c then scanEmail (some c) { e with chars := e.chars + 1 } cs
    else none

def validemail (email : CString) : Bool :=
  email.length < EMAILLEN &&
    (scanEmail none ⟨0, 0, 0, none⟩ email).any fun e =>
      e.atcnt = 1 && e.dotcnt ≠ 0 && !e.afterDot.any isDigit && 4 ≤ e.chars

section addresses
variable (cfg : Config) (s : State)

/-- The text that `canonicalize_email` looks up. -/
def canonicalForm (email : CString) : CString :=
  cfg.canonicalizers.foldl (fun buf func => func buf) (truncate (EMAILLEN + 1) email)

def canonicalizeEmail (email : CString) (strings : Interned CString) : Nat × Interned CString :=
  strings.get cfg.alloc (canonicalForm cfg email)

def exempt (email : CString) : Bool :=
  cfg.emailexempts.any fun mask => matchMask cfg.casemapping mask email

/-- The loop of `email_within_limits`, which compares the places of the texts. -/
def withinLimits (canonical : Nat) (tcnt : Nat) : List Account → Bool
  | [] => true
  | mu :: mus =>
    let tcnt := if mu.emailCanonical = canonical then tcnt + 1 else tcnt
    if tcnt ≥ cfg.maxusers then false else withinLimits canonical tcnt mus

/-- `MYENTITY_FOREACH_T` for accounts. -/
def listed : List Account := s.entities.entries.filterMap fun e => s.accounts.find e.2

def emailWithinLimits (email : CString) : Bool × State :=
  if cfg.maxusers = 0 then (true, s)
  else if exempt cfg email then (true, s)
  else
    let c := canonicalizeEmail cfg email s.strings
    (withinLimits cfg c.1 0 (listed s), { s with strings := c.2.unref c.1 })

def emailText (mu : Account) : CString := (s.strings.text mu.email).getD []

def setEmailchg (a : Nat) (emailchg : Option (CString × CString)) : State :=
  { s with accounts := s.accounts.modify a fun mu => { mu with emailchg := emailchg } }

def myuserSetEmail (a : Nat) (newemail : CString) : State × List Obs :=
  match s.accounts.find a with
  | none => (s, [.freedRead])
  | some mu =>
    let strings := (s.strings.unref mu.email).unref mu.emailCanonical
    let email := strings.get cfg.alloc newemail
    let canonical := canonicalizeEmail cfg newemail email.2
    ({ s with
        accounts := s.accounts.modify a fun mu =>
          { mu with email := email.1, emailCanonical := canonical.1 }
        strings := canonical.2 }, [.gave a newemail])

end addresses

/-! ### Accounts and nicks -/

section tables
variable (cfg : Config) (s : State)

def nameKey (name : CString) : CString := irccasecanon cfg.casemapping name

def nickKey (mn : Nick) : CString := nameKey cfg mn.nick

def myuserFind (name : CString) : Option Nat := s.entities.find (nameKey cfg name)

def mynickFind (name : CString) : Option Nat := s.nicks.index.find (nameKey cfg name)

def freshAccount : Nat := (cfg.alloc (s.accounts.entries.map Prod.fst)).1

def freshNick : Nat := (cfg.alloc (s.nicks.objs.entries.map Prod.fst)).1

theorem freshAccount_free : s.accounts.find (freshAccount cfg s) = none :=
  (Registry.find_eq_none_iff _ _).mpr (cfg.alloc (s.accounts.entries.map Prod.fst)).2

theorem freshNick_free : s.nicks.objs.find (freshNick cfg s) = none :=
  (Registry.find_eq_none_iff _ _).mpr (cfg.alloc (s.nicks.objs.entries.map Prod.fst)).2

/-- `myuser_add`: an account that has the name already is given back. -/
def myuserAdd (name email : CString) : Nat × State × List Obs :=
  match myuserFind cfg s name with
  | some a => (a, s, [])
  | none =>
    let a := freshAccount cfg s
    let e := s.strings.get cfg.alloc email
    let canonical := canonicalizeEmail cfg email e.2
    (a, { s with
        accounts := s.accounts.insertNew a ⟨name, e.1, canonical.1, none, false⟩
        entities := s.entities.insertNew (nameKey cfg name) a
        accountlist := s.accountlist.insertNew (nameKey cfg name) a
        strings := canonical.2 }, [.gave a email])

/-- `mynick_add`: a nick that is in the index already is given back. -/
def mynickAdd (a : Nat) (name : CString) : State :=
  match mynickFind cfg s name with
  | some _ => s
  | none =>
    { s with
      nicks := s.nicks.add Nick.owner (nickKey cfg) (freshNick cfg s) ⟨truncate NICKLEN name, a⟩ }

def mynickDelete (n : Nat) : Option State :=
  (s.nicks.delete Nick.owner (nickKey cfg) n).map fun nicks => { s with nicks := nicks }

/-- `myuser_delete`, as far as nicks, indexes and addresses go. -/
def myuserDelete (a : Nat) : Option State :=
  (s.accounts.find a).bind fun mu =>
    (s.nicks.deleteAll Nick.owner (nickKey cfg) a).map fun nicks =>
      { accounts := s.accounts.erase a
        entities := s.entities.erase (nameKey cfg mu.name)
        accountlist := s.accountlist.erase (nameKey cfg mu.name)
        nicks := nicks
        strings := (s.strings.unref mu.email).unref mu.emailCanonical }

def myuserRename (a : Nat) (name : CString) : State :=
  match s.accounts.find a with
  | none => s
  | some mu =>
    if name.length < NICKLEN then
      { s with
        accounts := s.accounts.modify a fun mu => { mu with name := name }
        entities := (s.entities.erase (nameKey cfg mu.name)).insertNew (nameKey cfg name) a
        accountlist := (s.accountlist.erase (nameKey cfg mu.name)).insertNew (nameKey cfg name) a }
    else s

def orFreed (s : State) : Option State → State × List Obs
  | some s' => (s', [])
  | none => (s, [.freedRead])

end tables

/-! ### Commands -/

section commands
variable (cfg : Config)

/-- REGISTER: the nick of the source if it is on IRC, the arguments, and what is not modelled:
whether somebody has the name on IRC, the throttling, the hooks, the password check of the
authentication module and the mail. -/
structure Register where
  loggedIn : Bool
  su : Option CString
  parv : List CString
  online : Bool
  throttled : Bool
  refused : Bool
  verified : Bool
  sent : Bool

def Register.args (r : Register) : Option (CString × CString × CString) :=
  let named := cfg.noNickOwnership || r.su.isNone
  let args := if named then (r.parv[0]?, r.parv[1]?, r.parv[2]?)
    else (r.su, r.parv[0]?, r.parv[1]?)
  match args with
  | (some account, some pass, some email) => some (account, pass, email)
  | _ => none

def isAccountName (account : CString) : Bool :=
  !account.any (fun c => c ∈ [' ', '\n', '\r', ',']) &&
    !account.head?.any (fun c => c ∈ ['=', '#', '@', '+', '%', '!'])

def registrable (s : State) (r : Register) (account pass : CString) : Bool :=
  pass.length < PASSLEN &&
    (cfg.noNickOwnership || r.su.isSome || !r.online) &&
    (cfg.noNickOwnership || !account.head?.any isDigit) &&
    (!(cfg.noNickOwnership || r.su.isNone) || isAccountName account) &&
    account.length < NICKLEN &&
    !r.su.any (strcaseEq pass) && !strcaseEq pass account &&
    (if cfg.noNickOwnership then (myuserFind cfg s account).isNone
      else (mynickFind cfg s account).isNone) &&
    !r.throttled && !r.refused

def enter (s : State) (r : Register) (account email : CString) : State × List Obs :=
  let added := myuserAdd cfg s account email
  let name := ((added.2.1.accounts.find added.1).map Account.name).getD []
  let s := if cfg.noNickOwnership then added.2.1 else mynickAdd cfg added.2.1 added.1 name
  if (cfg.authModuleLoaded && !r.verified) || (cfg.authEmail && !r.sent) then
    let undone := orFreed s (myuserDelete cfg s added.1)
    (undone.1, added.2.2 ++ undone.2 ++ [.aborted])
  else (s, added.2.2 ++ [.registered added.1])

def nsCmdRegister (s : State) (r : Register) : State × List Obs :=
  if r.loggedIn then (s, [])
  else
    match r.args cfg with
    | none => (s, [])
    | some (account, pass, email) =>
      if registrable cfg s r account pass && validemail email then
        let limits := emailWithinLimits cfg s email
        if limits.1 then enter cfg limits.2 r account email else (limits.2, [])
      else (s, [])

/-- `SET EMAIL`; `key` is the one that is mailed. -/
def nsCmdSetEmail (s : State) (a : Nat) (email : Option CString) (key : CString) (sent : Bool) :
    State × List Obs :=
  match s.accounts.find a, email with
  | some mu, some email =>
    if strcaseEq (emailText s mu) email then (setEmailchg s a none, [])
    else if !validemail email then (s, [])
    else
      let limits := emailWithinLimits cfg s email
      if !limits.1 then (limits.2, [])
      else if cfg.authEmail then
        (setEmailchg limits.2 a (if sent then some (key, email) else none), [])
      else myuserSetEmail cfg limits.2 a email
  | _, _ => (s, [])

/-- `VERIFY EMAILCHG <nick> <key>` by the account `a`. -/
def nsCmdVerifyEmailchg (s : State) (a : Nat) (nick key : CString) : State × List Obs :=
  if myuserFind cfg s nick ≠ some a then (s, [])
  else
    match (s.accounts.find a).bind Account.emailchg with
    | none => (s, [])
    | some (k, newemail) =>
      if strcaseEq key k then
        let limits := emailWithinLimits cfg s newemail
        if limits.1 then
          let r := myuserSetEmail cfg limits.2 a newemail
          (setEmailchg r.1 a none, r.2)
        else (limits.2, [])
      else (s, [])

def groupable (s : State) (a : Nat) (nick : CString) (noLimit refused : Bool) : Bool :=
  (s.accounts.find a).any (fun mu => !mu.restricted) && !cfg.noNickOwnership &&
    (decide ((s.nicks.lists a).length < cfg.maxnicks) || noLimit) &&
    (mynickFind cfg s nick).isNone && !nick.head?.any isDigit && !refused

/-- `GROUP` by an account from the nick `su`. -/
def nsCmdGroup (s : State) (a : Nat) (su : Option CString) (noLimit refused : Bool) : State :=
  match su with
  | some nick => if groupable cfg s a nick noLimit refused then mynickAdd cfg s a nick else s
  | none => s

def nsCmdUngroup (s : State) (a : Nat) (su parv0 : Option CString) : State × List Obs :=
  let target := parv0.getD (su.getD ['?'])
  match s.accounts.find a, mynickFind cfg s target with
  | some mu, some n =>
    match s.nicks.objs.find n with
    | none => (s, [.freedRead])
    | some mn =>
      if mn.owner ≠ a then (s, [])
      else if irccaseEq cfg.casemapping mn.nick mu.name then (s, [])
      else orFreed s (mynickDelete cfg s n)
  | _, _ => (s, [])

/-- `FUNGROUP <nick> [newaccountname]`; `conf` tells that the account's operclass is configured. -/
def nsCmdFungroup (s : State) (parv0 parv1 : Option CString) (conf : Bool) : State × List Obs :=
  match parv0.bind (mynickFind cfg s) with
  | none => (s, [])
  | some n =>
    match s.nicks.objs.find n with
    | none => (s, [.freedRead])
    | some mn =>
      match s.accounts.find mn.owner with
      | none => (s, [.freedRead])
      | some mu =>
        if irccaseEq cfg.casemapping mn.nick mu.name then
          if (s.nicks.lists mn.owner).length ≤ 1 ∨ cfg.setAccountname = false then (s, [])
          else if conf then (s, [])
          else
            match parv1.bind (mynickFind cfg s) with
            | none => (s, [])
            | some n2 =>
              if n2 = n then (s, [])
              else
                match s.nicks.objs.find n2 with
                | none => (s, [.freedRead])
                | some mn2 =>
                  if mn2.owner ≠ mn.owner then (s, [])
                  else
                    let s := myuserRename cfg s mn.owner mn2.nick
                    orFreed s (mynickDelete cfg s n)
        else if parv1.isSome then (s, [])
        else orFreed s (mynickDelete cfg s n)

def deleteAccount (s : State) (a : Nat) : State × List Obs :=
  if (s.accounts.find a).isSome then orFreed s (myuserDelete cfg s a) else (s, [])

end commands

/-! ### A small network -/

def Config.small : Config where
  casemapping := .rfc1459
  noNickOwnership := false
  maxnicks := 5
  maxusers := 1
  emailexempts := []
  canonicalizers := [strcasecanon]
  authEmail := false
  authModuleLoaded := false
  setAccountname := true
  alloc := Allocator.above

def registration (nick mail : String) : Register :=
  ⟨false, some nick.toList, ["secret1".toList, mail.toList], true, false, false, true, true⟩

end ChatServices.NickServ.Registration
