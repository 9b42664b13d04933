import ChatServices.GroupServ.Groups
import ChatServices.HostServ.Requests
import ChatServices.Storage.Opensex

/-! Offered hosts, `modules/hostserv/offer.c`: offers to everybody or to a group, the hosts that
groups give with their templates, and the ways a group goes. -/
namespace ChatServices.HostServ.Offers
open ChatServices.Text ChatServices.Lib ChatServices.Lib.Mask ChatServices.Storage
open ChatServices.ChanServ (TemplateItem templateItems natArg)
open ChatServices.GroupServ (Flags GroupAcs Entity gsFlagsParser gaVhost gaBan gaFounder)

abbrev GroupName := { name : CString // name.head? = some '!' ∧ IsWord name }

abbrev Word := { w : CString // IsWord w }

/-- A group, with its templates and its `private:templatevhost-` metadata. -/
structure Group where
  name : GroupName
  templates : Option CString
  metadata : List (CString × CString)
  deriving DecidableEq

structure HsOffered where
  vhost : CString
  vhostTs : Nat
  creator : CString
  group : Option Nat
  deriving DecidableEq

structure OfferState where
  hosts : State
  groups : Registry Nat Group
  acs : List GroupAcs
  offered : List HsOffered

/-- The network-wide templates, and what `snprintf` makes of a text that is its own format. -/
structure OfferConfig extends Config where
  globalTemplates : List (CString × Flags)
  printed : CString → CString

inductive Obs where
  | deletedGroup (mg : Nat)
  | missingTemplateVhost
  | taken (mu : Nat) (host : CString)
  | loadFailed
  deriving DecidableEq

/-! ### Texts -/

/-- `replace`, where the result fits. -/
def replaceFrom (old new : CString) : Nat → CString → CString
  | 0, s => s
  | _ + 1, [] => []
  | fuel + 1, c :: s =>
    if old.isPrefixOf (c :: s) then new ++ replaceFrom old new fuel ((c :: s).drop old.length)
    else c :: replaceFrom old new fuel s

def accountToken : CString := "$account".toList

def replaceAccount (s name : CString) : CString := replaceFrom accountToken name (s.length + 1) s

def hasAccountToken (s : CString) : Bool := s.tails.any (accountToken.isPrefixOf ·)

/-! ### The hosts of templates -/

section templates
variable (cfg : OfferConfig) (mg : Group)

def templateFlags (item : TemplateItem) : Flags := gsFlagsParser (truncate 40 item.value) false 0#32

def getGroupTemplateName (level : Flags) : Option CString :=
  match (templateItems (mg.templates.getD [])).find? (fun item => templateFlags item = level) with
  | some item => some (truncate 400 item.name)
  | none => (cfg.globalTemplates.reverse.find? (fun t => t.2 = level)).map Prod.fst

def getGroupTemplateVhost (name : CString) : Option CString :=
  let key := truncate 128 ("private:templatevhost-".toList ++ name)
  ((mg.metadata.find? (fun md => strcaseEq md.1 key)).map
    fun md => truncate 128 (cfg.printed md.2)).bind
      fun value => if '|' ∈ value then some (value.takeWhile (· ≠ '|')) else none

def getGroupTemplateVhostByFlags (level : Flags) : Option CString :=
  (getGroupTemplateName cfg mg level).bind (getGroupTemplateVhost cfg mg)

end templates

/-! ### Members -/

section members
variable (cfg : OfferConfig) (s : OfferState)

def myuserIsInGroup (mu mg : Nat) : Bool :=
  s.acs.any fun ga => ga.mg = mg && ga.mt = .user mu && test ga.flags gaVhost

def memberships (mu : Nat) : List GroupAcs := s.acs.filter fun ga => ga.mt = .user mu

def vhostOf (ga : GroupAcs) : Option CString :=
  (s.groups.find ga.mg).bind fun mg => getGroupTemplateVhostByFlags cfg mg ga.flags

def readGroup (mg : Nat) : List Obs :=
  if (s.groups.find mg).isSome then [] else [.deletedGroup mg]

def openTo (mu : Nat) (l : HsOffered) : Bool := l.group.all (myuserIsInGroup s mu)

def walkOffers (mu : Nat) (p : HsOffered → Bool) : List HsOffered → Option HsOffered × List Obs
  | [] => (none, [])
  | l :: ls =>
    let read := l.group.toList.flatMap (readGroup s)
    if openTo s mu l && p l then (some l, read)
    else ((walkOffers mu p ls).1, read ++ (walkOffers mu p ls).2)

/-- The walk of TAKE over the memberships; `irccasecmp` takes a missing text for another one. -/
def takeTemplate (host : CString) : List GroupAcs → Option GroupAcs × List Obs
  | [] => (none, [])
  | ga :: acs =>
    if test ga.flags gaBan then takeTemplate host acs
    else if (vhostOf cfg s ga).any (irccaseEq cfg.casemapping · host) then
      (some ga, readGroup s ga.mg)
    else ((takeTemplate host acs).1, readGroup s ga.mg ++ (takeTemplate host acs).2)

/-- The walk of a rename, which hands what it finds to `strstr`. -/
def renameTemplate (p : CString → Bool) : List GroupAcs → Option CString × List Obs
  | [] => (none, [])
  | ga :: acs =>
    if test ga.flags gaBan then renameTemplate p acs
    else
      match vhostOf cfg s ga with
      | none => (none, readGroup s ga.mg ++ [.missingTemplateVhost])
      | some vhost =>
        if p vhost then (some vhost, readGroup s ga.mg)
        else ((renameTemplate p acs).1, readGroup s ga.mg ++ (renameTemplate p acs).2)

end members

/-! ### Commands -/

section commands
variable (cfg : OfferConfig)

def accountName (s : OfferState) (mu : Nat) : CString :=
  ((s.hosts.accounts.find mu).map Account.name).getD []

def groupFind (groups : Registry Nat Group) (name : CString) : Option Nat :=
  groups.firstWhere fun mg => irccaseEq cfg.casemapping mg.name.1 name

def hsOfferFind (s : OfferState) (host : CString) (mt : Option Nat) : Option HsOffered :=
  s.offered.find? fun l =>
    irccaseEq cfg.casemapping l.vhost host && (l.group = mt || mt = none)

def addOffer (s : OfferState) (mu : Nat) (host : CString) (mt : Option Nat) (now : Nat) :
    OfferState :=
  if (hsOfferFind cfg s host mt).isSome then s
  else { s with offered := s.offered ++ [⟨host, now, accountName s mu, mt⟩] }

def hsCmdOffer (s : OfferState) (smu : Option Nat) (parv0 : Option Word) (parv1 : Option CString)
    (now : Nat) : OfferState :=
  match parv0 with
  | none => s
  | some group =>
    if group.1.head? = some '!' then
      match parv1, smu, groupFind cfg s.groups group.1 with
      | some host, some mu, some mg => addOffer cfg s mu host (some mg) now
      | _, _, _ => s
    else
      match smu with
      | some mu => addOffer cfg s mu group.1 none now
      | none => s

/-- `UNOFFER <vhost>` takes offers off as long as it finds one. -/
def hsCmdUnoffer (s : OfferState) (host : Option CString) : OfferState :=
  match host with
  | none => s
  | some host =>
    { s with offered := s.offered.filter fun l => !irccaseEq cfg.casemapping l.vhost host }

def giveHost (s : OfferState) (mu : Nat) (host : CString) (now : Int) : OfferState × List Obs :=
  let vhost := replaceAccount host (accountName s mu)
  if checkVhostValidity cfg.toConfig vhost then
    ({ s with hosts := hsSethostAll s.hosts mu vhost now }, [.taken mu host])
  else (s, [])

def hsCmdTake (s : OfferState) (si : Source) (host : Option CString) (now : Int) :
    OfferState × List Obs :=
  match host with
  | none => (s, [])
  | some host =>
    if (s.hosts.accounts.find si.smu).any Account.restricted then (s, [])
    else if allowVhostChange cfg.toConfig s.hosts si (some si.smu) now ≠ some true then (s, [])
    else
      let offers := walkOffers s si.smu (fun l => irccaseEq cfg.casemapping l.vhost host) s.offered
      match offers.1 with
      | some _ =>
        let r := giveHost cfg s si.smu host now
        (r.1, offers.2 ++ r.2)
      | none =>
        let found := takeTemplate cfg s host (memberships s si.smu)
        match found.1 with
        | some _ =>
          let r := giveHost cfg s si.smu host now
          (r.1, offers.2 ++ found.2 ++ r.2)
        | none => (s, offers.2 ++ found.2)

/-- The 128 bytes of `vhoststring` are taken to hold the name too. -/
def shows (name cloak vhost : CString) : Bool :=
  hasAccountToken vhost && replaceAccount (truncate 128 vhost) name = cloak

/-- `update_vhost_on_account_name_change` -/
def updateVhostOnAccountNameChange (s : OfferState) (mu : Nat) (newname : CString) (now : Int) :
    OfferState × List Obs :=
  match (s.hosts.accounts.find mu).bind Account.usercloak with
  | none => (s, [])
  | some cloak =>
    let give (vhost : CString) : OfferState :=
      { s with
        hosts := hsSethostAll s.hosts mu (replaceAccount (truncate 128 vhost) newname) now }
    let name := accountName s mu
    let offers := walkOffers s mu (fun l => shows name cloak l.vhost) s.offered
    match offers.1 with
    | some l => (give l.vhost, offers.2)
    | none =>
      let found := renameTemplate cfg s (shows name cloak) (memberships s mu)
      match found.1 with
      | some vhost => (give vhost, offers.2 ++ found.2)
      | none => (s, offers.2 ++ found.2)

def setAccountname (s : OfferState) (mu : Nat) (newname : CString) (now : Int) :
    OfferState × List Obs :=
  let r := updateVhostOnAccountNameChange cfg s mu newname now
  ({ r.1 with
      hosts := { r.1.hosts with
        accounts := r.1.hosts.accounts.modify mu fun a => { a with name := newname } } }, r.2)

end commands

/-! ### Groups go -/

def mygroupCountFounder (s : OfferState) (mg : Nat) : Nat :=
  s.acs.countP fun ga => ga.mg = mg && test ga.flags gaFounder

def mygroupDelete (gone : Nat → Bool) (s : OfferState) : OfferState :=
  { s with
    groups := s.groups.update fun mg group => if gone mg then none else some group
    acs := s.acs.filter fun ga => !gone ga.mg }

def groupDrop (s : OfferState) (mg : Nat) : OfferState :=
  if (s.groups.find mg).isSome then
    mygroupDelete (· = mg) { s with offered := s.offered.filter fun l => l.group ≠ some mg }
  else s

/-- `mygroup_expire` calls no hook. -/
def mygroupExpire (s : OfferState) : OfferState :=
  mygroupDelete (fun mg => mygroupCountFounder s mg = 0) s

/-! ### The database -/

section database
variable (cfg : OfferConfig)

def hoRow (s : OfferState) (l : HsOffered) : CString :=
  writeRow "HO"
    ((l.group.toList.map fun mg => ((s.groups.find mg).map fun group => group.name.1).getD []) ++
      [l.vhost, natArg l.vhostTs, l.creator]) []

def writeHsofferdb (s : OfferState) : List CString × List Obs :=
  (s.offered.map (hoRow s), s.offered.flatMap fun l => l.group.toList.flatMap (readGroup s))

def dbHHo (groups : Registry Nat Group) : Reader HsOffered := do
  let buf ← dbSreadWord
  let p ← if buf.head? = some '!' then do
      let vhost ← dbSreadWord
      pure (groupFind cfg groups buf, vhost)
    else pure (none, buf)
  let vhostTs ← dbSreadTime
  let creator ← dbSreadWord
  pure ⟨p.2, vhostTs, creator, p.1⟩

def readOffer (groups : Registry Nat Group) (offered : List HsOffered) (row : CString) :
    Option (List HsOffered) :=
  parseRow (fun _ => do
    let l ← dbHHo cfg groups
    pure (offered ++ [l])) offered row

/-- The database is written, and services start from it; `back` are the groups that come back, in the
order of the file, and their entries come back with them one group after the other. -/
def reload (s : OfferState) (back : List Nat) : OfferState × List Obs :=
  let written := writeHsofferdb s
  let s' := mygroupDelete (fun mg => mg ∉ back) s
  match written.1.foldlM (readOffer cfg s'.groups) [] with
  | some offered =>
    ({ s' with acs := back.flatMap fun mg => s'.acs.filter (·.mg = mg), offered := offered }, written.2)
  | none => (s, written.2 ++ [.loadFailed])

end database

section step
variable (cfg : OfferConfig)

inductive Event where
  | offer (smu : Option Nat) (parv0 : Option Word) (parv1 : Option CString) (now : Nat)
  | unoffer (host : Option CString)
  | take (si : Source) (host : Option CString) (now : Int)
  | drop (mg : Nat)
  | expire
  | rename (mu : Nat) (newname : CString) (now : Int)
  | reload (back : List Nat)

def step (s : OfferState) : Event → OfferState × List Obs
  | .offer smu parv0 parv1 now => (hsCmdOffer cfg s smu parv0 parv1 now, [])
  | .unoffer host => (hsCmdUnoffer cfg s host, [])
  | .take si host now => hsCmdTake cfg s si host now
  | .drop mg => (groupDrop s mg, [])
  | .expire => (mygroupExpire s, [])
  | .rename mu newname now => setAccountname cfg s mu newname now
  | .reload back => reload cfg s back

end step
end ChatServices.HostServ.Offers
