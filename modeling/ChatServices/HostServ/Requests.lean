import ChatServices.Lib.FirstMatch
import ChatServices.Lib.Registry
import ChatServices.Lib.Run
import ChatServices.Match
import Mathlib.Tactic.SplitIfs

/-! HostServ: virtual hosts of accounts and nicks, and the requests that wait for them. -/
namespace ChatServices.HostServ
open ChatServices.Text ChatServices.Match ChatServices.Lib ChatServices.Lib.Run
open ChatServices.Lib.FirstMatch

/-- What an account keeps of its hosts: `private:usercloak`, the same for each nick by its
folded name, and `private:usercloak-timestamp`. -/
structure Account where
  name : CString
  registered : Int
  restricted : Bool
  usercloak : Option CString
  nickcloaks : List (CString × CString)
  timestamp : Option Int
  deriving DecidableEq

structure Nick where
  nick : CString
  owner : Nat
  deriving DecidableEq

structure HsReq where
  nick : CString
  vhost : CString
  vhostTs : Int
  creator : CString
  deriving DecidableEq

structure State where
  accounts : Registry Nat Account
  nicks : List Nick
  reqlist : List HsReq
  ratelimitCount : Nat

/-- The configuration, what the protocol module takes for a host, and the accounts that `=nick`
and `?uid` stand for. -/
structure Config where
  casemapping : CaseMapping
  noNickOwnership : Bool
  requestPerNick : Bool
  requestTime : Nat
  limitFirstReq : Bool
  ratelimitUses : Nat
  ratelimitPeriod : Nat
  isValidHost : CString → Bool
  findNamed : CString → Option Nat
  findUid : CString → Option Nat

/-- A `sourceinfo_t`, with its privileges: one of the two that override the waiting time, and
the flood privilege. -/
structure Source where
  smu : Nat
  nick : Option CString
  name : CString
  override : Bool
  flood : Bool
  deriving DecidableEq

section lookups
variable (cfg : Config) (s : State)

def myuserFind (name : CString) : Option Nat :=
  (s.accounts.entries.find? (fun e => irccaseEq cfg.casemapping e.2.name name)).map Prod.fst

def mynickFind (name : CString) : Option Nick :=
  s.nicks.find? (fun mn => irccaseEq cfg.casemapping mn.nick name)

def myuserFindExt (name : CString) : Option Nat :=
  if name.head? = some '=' then cfg.findNamed name.tail
  else if name.head? = some '?' then cfg.findUid name.tail
  else if cfg.noNickOwnership then myuserFind cfg s name
  else (mynickFind cfg s name).map Nick.owner

def nickcloak (mu : Account) (nick : CString) : Option CString :=
  (mu.nickcloaks.find? (fun md => md.1 = strcasecanon nick)).map Prod.snd

def nicksOf (a : Nat) : List Nick := s.nicks.filter (fun mn => mn.owner = a)

end lookups

section assignment
variable (cfg : Config)

def hasCtrlChars (text : CString) : Bool := text.any (fun c => 0 < c.toNat && c.toNat < 32)

/-- `strrchr (host, '/')` is followed by a digit. -/
def looksLikeCidr (host : CString) : Bool :=
  '/' ∈ host && ((host.reverse.takeWhile (· ≠ '/')).reverse.head?.any isDigit)

def checkVhostValidity (host : CString) : Bool :=
  !(host.any (fun c => c ∈ ['@', '!', '?', '*', ' ', '\'', '"']) || host.head? = some ':' ||
      host = [] || hasCtrlChars host) &&
    host.length < 64 && !looksLikeCidr host && cfg.isValidHost host

/-- `allow_vhost_change`: no answer where it reads an account that is not there. -/
def allowVhostChange (s : State) (si : Source) (target : Option Nat) (now : Int) : Option Bool :=
  let wait : Int := (cfg.requestTime * 86400 % 2 ^ 32 : Nat)
  if si.override then some true
  else
    match (target.bind fun a => s.accounts.find a).bind Account.timestamp with
    | none =>
      if !cfg.limitFirstReq then some true
      else (target.bind fun a => s.accounts.find a).map fun mu => ¬ now - mu.registered < wait
    | some vhosttime => some (¬ vhosttime + wait > now)

def hsSethostAll (s : State) (a : Nat) (host : CString) (now : Int) : State :=
  { s with
    accounts := s.accounts.modify a fun mu =>
      { mu with
        nickcloaks := mu.nickcloaks.filter fun md =>
          md.1 ∉ (nicksOf s a).map fun mn => strcasecanon mn.nick
        usercloak := some host
        timestamp := some now } }

inductive Obs where
  | missingAccountRead
  deriving DecidableEq

def hsCmdVhost (s : State) (si : Source) (target host : CString) (now : Int) :
    State × List Obs :=
  match myuserFindExt cfg s target with
  | none => (s, [])
  | some a =>
    match allowVhostChange cfg s si (some a) now with
    | none => (s, [.missingAccountRead])
    | some false => (s, [])
    | some true =>
      if checkVhostValidity cfg host then (hsSethostAll s a host now, []) else (s, [])

def hsSethost (s : State) (a : Nat) (nick host : CString) : State :=
  { s with
    accounts := s.accounts.modify a fun mu =>
      { mu with
        nickcloaks := mu.nickcloaks.filter (fun md => md.1 ≠ strcasecanon nick) ++
          [(strcasecanon nick, host)] } }

/-- `VHOSTNICK <nick> <host>`; the name of the last nick that fits is the key. -/
def hsCmdVhostnick (s : State) (si : Source) (target host : CString) (now : Int) :
    State × List Obs :=
  match myuserFindExt cfg s target with
  | none => (s, [])
  | some a =>
    match allowVhostChange cfg s si (some a) now with
    | none => (s, [.missingAccountRead])
    | some false => (s, [])
    | some true =>
      match ((nicksOf s a).filter (fun mn => irccaseEq cfg.casemapping mn.nick target)).getLast? with
      | none => (s, [])
      | some mn =>
        if checkVhostValidity cfg host then (hsSethost s a mn.nick host, []) else (s, [])

end assignment

section commands
variable (cfg : Config)

def assigned (s : State) (host : CString) : Bool :=
  s.accounts.entries.any fun e =>
    e.2.usercloak.any (matchMask cfg.casemapping host) ||
      (nicksOf s e.1).any fun mn => (nickcloak e.2 mn.nick).any (matchMask cfg.casemapping host)

def requestTarget (s : State) (si : Source) : Option (CString × Option CString) :=
  if cfg.requestPerNick then
    let target := si.nick.getD ['?']
    match mynickFind cfg s target with
    | none => none
    | some mn =>
      if mn.owner ≠ si.smu then none
      else some (target, (s.accounts.find si.smu).bind fun mu => nickcloak mu target)
  else (s.accounts.find si.smu).map fun mu => (mu.name, mu.usercloak)

def countRequest (s : State) : State :=
  { s with
    ratelimitCount := if cfg.ratelimitUses ≠ 0 ∧ cfg.ratelimitPeriod ≠ 0 then s.ratelimitCount + 1
      else s.ratelimitCount }

def fileRequest (s : State) (si : Source) (target host : CString) (now : Int) : State :=
  let throttled := decide (s.ratelimitCount > cfg.ratelimitUses) && !si.flood
  match s.reqlist.find? (fun l => irccaseEq cfg.casemapping l.nick target) with
  | some l =>
    if host = l.vhost then s
    else if throttled then s
    else
      countRequest cfg { s with
        reqlist := updateFirst (fun l => irccaseEq cfg.casemapping l.nick target)
          (fun l => { l with vhost := host, vhostTs := now }) s.reqlist }
  | none =>
    if throttled then s
    else countRequest cfg { s with reqlist := s.reqlist ++ [⟨target, host, now, si.name⟩] }

/-- `REQUEST <host>`; `approved` is the answer of the `host_request` hook. -/
def hsCmdRequest (s : State) (si : Source) (host : Option CString) (now : Int) (approved : Bool) :
    State :=
  match host with
  | none => s
  | some host =>
    if (s.accounts.find si.smu).any Account.restricted then s
    else if allowVhostChange cfg s si (some si.smu) now ≠ some true then s
    else
      match requestTarget cfg s si with
      | none => s
      | some (target, active) =>
        if active = some host then s
        else if !checkVhostValidity cfg host then s
        else if assigned cfg s host then s
        else if approved then s
        else fileRequest cfg s si target host now

/-- The nick and the host that a REQUEST comes to the request list with, where nothing refuses it
before. -/
def reachesList (s : State) (si : Source) (host : Option CString) (now : Int) (approved : Bool) :
    Option (CString × CString) :=
  match host with
  | none => none
  | some host =>
    if (s.accounts.find si.smu).any Account.restricted then none
    else if allowVhostChange cfg s si (some si.smu) now ≠ some true then none
    else
      match requestTarget cfg s si with
      | none => none
      | some (target, active) =>
        if active = some host then none
        else if !checkVhostValidity cfg host then none
        else if assigned cfg s host then none
        else if approved then none
        else some (target, host)

variable {cfg} in
theorem hsCmdRequest_eq {s : State} {si : Source} {host : Option CString} {now : Int}
    {approved : Bool} :
    hsCmdRequest cfg s si host now approved =
      match reachesList cfg s si host now approved with
      | none => s
      | some p => fileRequest cfg s si p.1 p.2 now := by
  cases host with
  | none => rfl
  | some host =>
    rw [hsCmdRequest, reachesList]
    cases requestTarget cfg s si with
    | none => split_ifs <;> rfl
    | some p =>
      dsimp only
      split_ifs <;> rfl

def grant (s : State) (si : Source) (l : HsReq) (now : Int) : State × List Obs :=
  let s := { s with reqlist := s.reqlist.erase l }
  if cfg.requestPerNick then hsCmdVhostnick cfg s si l.nick l.vhost now
  else hsCmdVhost cfg s si l.nick l.vhost now

def activateLoop (si : Source) (nick : CString) (online : Bool) (now : Int) :
    List HsReq → State → State × List Obs
  | [], s => (s, [])
  | l :: ls, s =>
    if irccaseEq cfg.casemapping l.nick nick then
      if online then
        match allowVhostChange cfg s si (myuserFind cfg s nick) now with
        | none => (s, [.missingAccountRead])
        | some false => (s, [])
        | some true => grant cfg s si l now
      else grant cfg s si l now
    else if irccaseEq cfg.casemapping ['*'] nick then
      let r := grant cfg s si l now
      if r.1.reqlist = [] then r
      else ((activateLoop si nick online now ls r.1).1,
        r.2 ++ (activateLoop si nick online now ls r.1).2)
    else activateLoop si nick online now ls s

inductive Event where
  | request (si : Source) (host : Option CString) (now : Int) (approved : Bool)
  /-- `online`: `user_find_named (nick)` finds somebody -/
  | activate (si : Source) (nick : Option CString) (online : Bool) (now : Int)
  deriving DecidableEq

def step (s : State) : Event → State × List Obs
  | .request si host now approved => (hsCmdRequest cfg s si host now approved, [])
  | .activate _ none _ _ => (s, [])
  | .activate si (some nick) online now => activateLoop cfg si nick online now s.reqlist s

end commands
end ChatServices.HostServ
