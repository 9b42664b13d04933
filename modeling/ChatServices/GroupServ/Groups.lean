import ChatServices.ChanServ.Command
import ChatServices.Lib.Sweep
import ChatServices.Lib.PathSearch

/-! Groups and their access lists, `modules/groupserv/main/groupserv.c`. An access entry lies in the
list of its group and in the membership list of its member, which may itself be a group. -/
namespace ChatServices.GroupServ
open ChatServices.Lib ChatServices.Lib.Mask ChatServices.Text
open ChatServices.ChanServ (getitem)

abbrev Flags := BitVec 32
abbrev GroupRef := Nat
abbrev AccountRef := Nat
abbrev AcsRef := Nat
abbrev ExtRef := Nat

def gaFounder : Flags := 0x1#32
def gaFlags : Flags := 0x2#32
def gaChanacs : Flags := 0x4#32
def gaMemos : Flags := 0x8#32
def gaSet : Flags := 0x10#32
def gaVhost : Flags := 0x20#32
def gaBan : Flags := 0x40#32
def gaInvite : Flags := 0x80#32
def gaAclview : Flags := 0x100#32
def gaAll : Flags :=
  gaFlags ||| gaChanacs ||| gaMemos ||| gaSet ||| gaVhost ||| gaInvite ||| gaAclview
def gaAllAll : Flags := gaAll ||| gaBan

def gaTable : List (Char × Flags) :=
  [('F', gaFounder), ('f', gaFlags), ('s', gaSet), ('c', gaChanacs), ('m', gaMemos), ('v', gaVhost),
    ('i', gaInvite), ('b', gaBan), ('A', gaAclview)]

def mgAcsnolimit : Flags := 0x2#32
def mgOpen : Flags := 0x4#32
def mgPubacl : Flags := 0x10#32

def muWaitauth : Flags := 0x8#32
def muNeverop : Flags := 0x2#32
def muNevergroup : Flags := 0x20000#32

/-- An account, a group, or the virtual entity that `myentity_find_ext` makes of a name such as
`$channel:#chan`. -/
inductive Entity where
  | user (mu : AccountRef)
  | group (mg : GroupRef)
  | ext (e : ExtRef)
  deriving DecidableEq

def Entity.group? : Entity → Option GroupRef
  | .group mg => some mg
  | _ => none

def Entity.isUser : Entity → Bool
  | .user _ => true
  | _ => false

structure GroupAcs where
  mg : GroupRef
  mt : Entity
  flags : Flags
  deriving DecidableEq

structure Group where
  name : CString
  flags : Flags
  acs : NodeList AcsRef
  templates : Option CString
  joinflags : Option CString
  closed : Bool
  deriving DecidableEq

structure Account where
  name : CString
  flags : Flags
  nicks : List CString
  groupinvite : Option CString
  restricted : Bool
  /-- how many users are logged in -/
  logins : Nat
  deriving DecidableEq

structure GroupConfig where
  casemapping : CaseMapping
  maxgroups : Nat
  maxgroupacs : Nat
  enableOpenGroups : Bool
  noLeveledFlags : Bool
  joinFlags : CString
  /-- the network-wide templates, in the order of `global_group_template_dict` -/
  globalTemplates : List (CString × Flags)

structure Source where
  smu : Option AccountRef
  hasPriv : CString → Bool

structure Groups where
  groups : Registry GroupRef Group
  accounts : Registry AccountRef Account
  /-- the virtual entities with their names; `groupacs_add` takes no reference to its member -/
  exts : Registry ExtRef CString
  heap : AcsRef → GroupAcs
  freed : List AcsRef
  membership : Entity → NodeList AcsRef
  next : Nat
  misuse : Bool

/-! ### Flag strings -/

/-- The letters of `gs_flags_parser`. -/
def gaLetter (c : Char) : Option Flags := (gaTable.find? (fun e => e.1 = c)).map Prod.snd

def parserStep (allowMinus : Bool) (st : Bool × Flags) (c : Char) : Bool × Flags :=
  if c = '+' then (false, st.2)
  else if c = '-' then (if allowMinus then true else st.1, st.2)
  else if c = '*' then (st.1, if st.1 then 0#32 else gaAll)
  else
    match gaLetter c with
    | some flag => (st.1, if st.1 then st.2 &&& ~~~flag else st.2 ||| flag)
    | none => st

def gsFlagsParser (flagstring : CString) (allowMinus : Bool) (flags : Flags) : Flags :=
  (flagstring.foldl (parserStep allowMinus) (false, if '=' ∈ flagstring then 0#32 else flags)).2

def getGroupTemplateFlags (group : Group) (name : CString) : Flags :=
  match group.templates.bind (getitem · name) with
  | some d => gsFlagsParser d true 0#32
  | none => 0#32

namespace Groups
variable (s : Groups)

/-! ### Lookups -/

def acs (mg : GroupRef) : List AcsRef := ((s.groups.find mg).map fun group => group.acs.items).getD []

def mygroupFind (cfg : GroupConfig) (name : CString) : Option (GroupRef × Group) :=
  s.groups.entries.find? fun e => irccaseEq cfg.casemapping e.2.name name

def live : Entity → Bool
  | .user mu => (s.accounts.find mu).isSome
  | .group mg => (s.groups.find mg).isSome
  | .ext e => (s.exts.find e).isSome

/-- The access lists as the graph that `groupacs_find` goes through: an entry of a group leads to
that group, and an entry of `mt` with one of the flags is what it looks for. -/
def lookup (mt : Entity) (flags : Flags) (allowRecurse : Bool) : SearchGraph GroupRef AcsRef where
  edges := s.acs
  next a := if allowRecurse then (s.heap a).mt.group? else none
  goal mg a := (s.heap a).mt = mt && (s.heap a).mg = mg &&
    (flags = 0#32 || test (s.heap a).flags flags)

/-- `groupacs_find` from some marks on, with fuel for the depth of the recursion. -/
def groupacsFindFrom (mt : Entity) (flags : Flags) (allowRecurse : Bool) (fuel : Nat)
    (visited : GroupRef → Bool) (mg : GroupRef) : Option ((GroupRef → Bool) × Option AcsRef) :=
  (s.lookup mt flags allowRecurse).search fuel visited mg

def groupacsFind (mg : GroupRef) (mt : Entity) (flags : Flags) (allowRecurse : Bool) :
    Option AcsRef :=
  (s.groupacsFindFrom mt flags allowRecurse (s.groups.entries.length + 1) (fun _ => false) mg).bind
    Prod.snd

def groupacsSourceinfoHasFlag (mg : GroupRef) (si : Source) (flag : Flags) : Bool :=
  match si.smu with
  | none => false
  | some mu => (s.groupacsFind mg (.user mu) flag true).isSome

def groupacsSourceinfoFlags (mg : GroupRef) (si : Source) : Flags :=
  match si.smu with
  | none => 0#32
  | some mu =>
    match s.groupacsFind mg (.user mu) 0#32 true with
    | none => 0#32
    | some a => (s.heap a).flags

def mygroupCountFlag (mg : GroupRef) (flag : Flags) : Nat :=
  if flag = 0#32 then (s.acs mg).length
  else (s.acs mg).countP fun a => test (s.heap a).flags flag

def myentityCountGroupFlag (mt : Entity) (flagset : Flags) : Nat :=
  (s.membership mt).items.countP fun a => (s.heap a).mt = mt && test (s.heap a).flags flagset

/-! ### Access entries -/

def read (as : List AcsRef) (s : Groups) : Groups :=
  { s with misuse := s.misuse || as.any (· ∈ s.freed) }

def look (s : Groups) : Groups := s.read (s.groups.entries.flatMap fun e => e.2.acs.items)

def updateGroup (mg : GroupRef) (f : Group → Group) (s : Groups) : Groups :=
  { s with groups := s.groups.modify mg f }

def updateAcs (mg : GroupRef) (f : NodeList AcsRef → NodeList AcsRef) (s : Groups) : Groups :=
  s.updateGroup mg fun group => { group with acs := f group.acs }

def updateMembership (mt : Entity) (f : NodeList AcsRef → NodeList AcsRef) (s : Groups) : Groups :=
  { s with membership := Function.update s.membership mt (f (s.membership mt)) }

def setFlags (a : AcsRef) (flags : Flags) (s : Groups) : Groups :=
  { s with heap := Function.update s.heap a { s.heap a with flags := flags } }

/-- `object_unref` of an entry. -/
def free (a : AcsRef) (s : Groups) : Groups := { s with freed := a :: s.freed }

def groupacsAdd (mg : GroupRef) (mt : Entity) (flags : Flags) (s : Groups) : Groups :=
  let a := s.next
  ({ s with heap := Function.update s.heap a ⟨mg, mt, flags⟩, next := a + 1 }.updateAcs mg
    (·.add a)).updateMembership mt (·.add a)

def unlink (mg : GroupRef) (mt : Entity) (a : AcsRef) (s : Groups) : Groups :=
  ((s.updateAcs mg (·.remove a)).updateMembership mt (·.remove a)).free a

def groupacsDelete (mg : GroupRef) (mt : Entity) (s : Groups) : Groups :=
  match s.groupacsFind mg mt 0#32 false with
  | none => s
  | some a => s.unlink mg mt a

def groupacsModifySimple (a : AcsRef) (addflags removeflags : Flags) (s : Groups) : Groups :=
  let level := (s.heap a).flags
  let add := addflags &&& gaAllAll
  let rem := removeflags &&& gaAllAll
  if MaskUpdate.touched level add rem = 0#32 then s
  else if MaskUpdate.Permits gaAllAll level add rem then
    s.setFlags a (MaskUpdate.result level add rem)
  else s

def groupacsClose (a : AcsRef) (s : Groups) : Groups :=
  if (s.heap a).flags = 0#32 then s.free a else s

def mygroupAdd (name : CString) (s : Groups) : Groups :=
  { s with groups := s.groups.insertNew s.next ⟨name, 0#32, .empty, none, none, false⟩
           next := s.next + 1 }

def mygroupDelete (mg : GroupRef) (s : Groups) : Groups :=
  let s := (s.acs mg).foldl (fun s a => (s.read [a]).unlink mg (s.heap a).mt a) s
  { s with groups := s.groups.erase mg }

/-- `myuser_delete`, as far as groups have to do with it. -/
def myuserDelete (mu : AccountRef) (s : Groups) : Groups :=
  let s := (s.membership (.user mu)).items.foldl
    (fun s a => (s.read [a]).groupacsDelete (s.heap a).mg (s.heap a).mt) s
  { s with membership := Function.update s.membership (.user mu) .empty
           accounts := s.accounts.erase mu }

end Groups
end ChatServices.GroupServ
