import ChatServices.Lib.Mask
import ChatServices.Lib.Mutual
import ChatServices.Lib.Registry
import ChatServices.Lib.Run
import ChatServices.Text

/-! Services operators, `libathemecore/privs.c`: operator records, the accounts they belong to and
the operator classes they are given. A record of an account that does not exist yet has its name. -/
namespace ChatServices.Privs
open ChatServices.Lib ChatServices.Lib.Mask ChatServices.Text

abbrev Flags := BitVec 32
abbrev OperclassRef := Nat
abbrev SoperRef := Nat
abbrev AccountRef := Nat

def operclassBuiltin : Flags := 0x2#32
def soperConf : Flags := 0x1#32

structure Operclass where
  name : CString
  privs : CString
  flags : Flags
  deriving DecidableEq

structure Soper where
  name : Option CString
  classname : CString
  myuser : Option AccountRef
  operclass : Option OperclassRef
  flags : Flags
  password : Option CString
  deriving DecidableEq

structure Account where
  name : CString
  soper : Option SoperRef
  deriving DecidableEq

/-- `operclasslist`, `soperlist` and the accounts, with an address that is not in use. -/
structure PrivsState where
  operclasses : Registry OperclassRef Operclass
  sopers : Registry SoperRef Soper
  accounts : Registry AccountRef Account
  next : Nat

namespace PrivsState
variable (cm : CaseMapping)

def myuserFind (p : PrivsState) (name : CString) : Option AccountRef :=
  p.accounts.firstWhere fun a => irccaseEq cm a.name name

def operclassFind (p : PrivsState) (name : CString) : Option OperclassRef :=
  p.operclasses.firstWhere fun oc => strcaseEq oc.name name

def soperFind (p : PrivsState) (mu : AccountRef) : Option SoperRef :=
  p.sopers.firstWhere fun s => s.myuser = some mu

def soperFindNamed (p : PrivsState) (name : CString) : Option SoperRef :=
  p.sopers.firstWhere fun s => s.name.any fun n => irccaseEq cm n name

def soperOf (p : PrivsState) (mu : AccountRef) : Option SoperRef :=
  (p.accounts.find mu).bind Account.soper

def accountOf (p : PrivsState) (s : SoperRef) : Option AccountRef :=
  (p.sopers.find s).bind Soper.myuser

def setSoper (mu : Option AccountRef) (s : Option SoperRef) (p : PrivsState) : PrivsState :=
  match mu with
  | none => p
  | some mu => { p with accounts := p.accounts.modify mu fun a => { a with soper := s } }

def operclassAdd (name privs : CString) (flags : Flags) (p : PrivsState) : PrivsState :=
  match p.operclassFind name with
  | some oc => { p with operclasses := p.operclasses.modify oc fun o =>
      { o with privs := privs, flags := flags ||| (o.flags &&& operclassBuiltin) } }
  | none =>
    { p with
      operclasses := p.operclasses.insertNew p.next ⟨name, privs, flags⟩
      sopers := p.sopers.update fun _ s => some <|
        if s.operclass = none ∧ strcaseEq name s.classname = true then
          { s with operclass := some p.next } else s
      next := p.next + 1 }

def operclassDelete (oc : OperclassRef) (p : PrivsState) : PrivsState :=
  match p.operclasses.find oc with
  | none => p
  | some o =>
    if test o.flags operclassBuiltin then p
    else { p with
      operclasses := p.operclasses.erase oc
      sopers := p.sopers.update fun _ s => some <|
        if s.operclass = some oc then { s with operclass := none } else s }

def soperDelete (s : SoperRef) (p : PrivsState) : PrivsState :=
  match p.sopers.find s with
  | none => p
  | some r => { p with sopers := p.sopers.erase s }.setSoper r.myuser none

/-- The end of `soper_add`: a new record for the account, or for the name without one. -/
def soperInsert (name classname : CString) (flags : Flags) (password : Option CString)
    (mu : Option AccountRef) (p : PrivsState) : PrivsState :=
  { p with
    sopers := p.sopers.insertNew p.next
      ⟨if mu.isSome then none else some name, classname, mu, p.operclassFind classname, flags,
        password⟩
    next := p.next + 1 }.setSoper mu (some p.next)

def soperAdd (name classname : CString) (flags : Flags) (password : Option CString)
    (p : PrivsState) : PrivsState :=
  let mu := p.myuserFind cm name
  let soper := match mu with
    | some mu => p.soperFind mu
    | none => p.soperFindNamed cm name
  match soper with
  | none => p.soperInsert name classname flags password mu
  | some s =>
    match p.sopers.find s with
    | none => p
    | some r =>
      if test flags soperConf && !test r.flags soperConf then
        (p.soperDelete s).soperInsert name classname flags password mu
      else p

/-- `myuser_add_id`: a record that has the name of the new account is given the account. -/
def myuserAdd (name : CString) (p : PrivsState) : PrivsState :=
  match p.myuserFind cm name with
  | some _ => p
  | none =>
    let mu := p.next
    let added := { p with accounts := p.accounts.insertNew mu ⟨name, none⟩, next := p.next + 1 }
    match p.soperFindNamed cm name with
    | none => added
    | some s => { added with
        sopers := added.sopers.modify s fun r => { r with myuser := some mu } }.setSoper mu (some s)

def myuserDelete (mu : AccountRef) (p : PrivsState) : PrivsState :=
  match p.accounts.find mu with
  | none => p
  | some a =>
    let p := match p.soperFind mu, a.soper with
      | some _, some s => p.soperDelete s
      | _, _ => p
    { p with accounts := p.accounts.erase mu }

def myuserRename (mu : AccountRef) (name : CString) (p : PrivsState) : PrivsState :=
  { p with accounts := p.accounts.modify mu fun a => { a with name := name } }

def isConfSoper (p : PrivsState) (mu : AccountRef) : Bool :=
  ((p.soperOf mu).bind p.sopers.find).any fun r => test r.flags soperConf

def initial : PrivsState :=
  operclassAdd "ircop".toList [] operclassBuiltin <|
    operclassAdd "authenticated".toList "special:authenticated".toList operclassBuiltin <|
      operclassAdd "user".toList [] operclassBuiltin ⟨.empty, .empty, .empty, 0⟩

end PrivsState

inductive PrivsEvent where
  | operclassAdd (name privs : CString) (flags : Flags)
  | operclassDelete (oc : OperclassRef)
  | soperAdd (name classname : CString) (flags : Flags) (password : Option CString)
  | soperDelete (s : SoperRef)
  | myuserAdd (name : CString)
  | myuserDelete (mu : AccountRef)
  | myuserRename (mu : AccountRef) (name : CString)

open PrivsState in
def privsStep (cm : CaseMapping) (p : PrivsState) : PrivsEvent → PrivsState × List Unit
  | .operclassAdd name privs flags => (p.operclassAdd name privs flags, [])
  | .operclassDelete oc => (p.operclassDelete oc, [])
  | .soperAdd name classname flags password => (p.soperAdd cm name classname flags password, [])
  | .soperDelete s => (p.soperDelete s, [])
  | .myuserAdd name => (p.myuserAdd cm name, [])
  | .myuserDelete mu => (p.myuserDelete mu, [])
  | .myuserRename mu name => (p.myuserRename mu name, [])

/-- A record and its account point at each other, an account has one record at most and a record
one account, and a record has the class of its class name. -/
structure Linked (p : PrivsState) : Prop where
  links : ∀ s mu, p.accountOf s = some mu ↔ p.soperOf mu = some s
  one : ∀ s mu mu', p.soperOf mu = some s → p.soperOf mu' = some s → mu' = mu
  classes : ∀ s r, p.sopers.find s = some r → r.operclass = p.operclassFind r.classname

def Renames (cm : CaseMapping) (p : PrivsState) : PrivsEvent → Prop
  | .myuserRename mu name => p.isConfSoper mu = false ∧ ∀ mu' ∈ p.myuserFind cm name, mu' = mu
  | _ => True

def Callers (cm : CaseMapping) (p : PrivsState) (e : PrivsEvent) : Prop :=
  Renames cm p e ∧
    match e with
    | .soperAdd name _ flags _ => test flags soperConf = true ∨ (p.myuserFind cm name).isSome
    | _ => True

instance (cm : CaseMapping) (p : PrivsState) : ∀ e, Decidable (Renames cm p e)
  | .myuserRename mu name =>
    have : Decidable (∀ mu' ∈ p.myuserFind cm name, mu' = mu) :=
      decidable_of_iff ((p.myuserFind cm name).all (· = mu) = true) (by simp [Option.all_eq_true])
    inferInstanceAs (Decidable (_ ∧ _))
  | .operclassAdd .. | .operclassDelete _ | .soperAdd .. | .soperDelete _ | .myuserAdd _
  | .myuserDelete _ => inferInstanceAs (Decidable True)

instance (cm : CaseMapping) (p : PrivsState) : ∀ e, Decidable (Callers cm p e)
  | .soperAdd name classname flags password =>
    inferInstanceAs (Decidable (Renames cm p (.soperAdd name classname flags password) ∧ (_ ∨ _)))
  | .operclassAdd .. | .operclassDelete _ | .soperDelete _ | .myuserAdd _ | .myuserDelete _
  | .myuserRename .. => inferInstanceAs (Decidable (_ ∧ True))

end ChatServices.Privs
