import ChatServices.Lib.MaskUpdate
import ChatServices.ChanServ.FlagTable

/-! Channels, entities and access lists: the lookups, opening and closing an entry,
and `chanacs_modify` with its variants. -/
namespace ChatServices.ChanServ
open ChatServices.Lib ChatServices.Lib.Mask ChatServices.Lib.MaskUpdate ChatServices.Text

/-- The addresses of a `mygroup_t` and of a `mychan_t`. -/
abbrev GroupRef := Nat
abbrev MyChanRef := Nat

abbrev Metadata := List (CString × CString)

/-- A `myentity_t`; an exttarget is known by its name. -/
inductive Entity where
  | user (mu : MyUserRef)
  | group (mg : GroupRef)
  | ext (name : CString)
  deriving DecidableEq

structure GroupAcs where
  mt : Entity
  flags : Flags
  deriving DecidableEq

structure MyGroup where
  name : CString
  id : CString
  flags : Flags
  acs : List GroupAcs
  deriving DecidableEq

/-- Registration only takes names that start with `#`, so `chanacs_add` never refuses. -/
structure MyChan where
  name : CString
  name_hash : name.head? = some '#'
  flags : Flags
  metadata : Metadata
  /-- `mc->chan != NULL` -/
  chan : Bool
  deriving DecidableEq

/-- What an access entry is for: `ca->entity`, or `ca->host` where that is NULL. -/
inductive Target where
  | entity (mt : Entity)
  | host (mask : CString)
  deriving DecidableEq

structure Chanacs where
  level : Flags
  tmodified : Nat
  setterUid : CString
  metadata : Metadata
  deriving DecidableEq

/-- All access entries, in the order of their creation. The entries of one channel, and
those of one entity, are the sublists with that key. -/
abbrev AccessList := Registry (MyChanRef × Target) Chanacs

structure ChanDb where
  accounts : Accounts
  groups : Registry GroupRef MyGroup
  chans : Registry MyChanRef MyChan
  acl : AccessList

structure ChanConfig extends Config where
  flagConfig : FlagConfig
  usesRcommand : Bool
  disp : CString
  noLeveledFlags : Bool
  useLimitflags : Bool
  permitSelfAutoop : Bool
  hideXop : Bool
  maxfounders : Nat
  maxchans : Nat
  maxchanacs : Nat
  minNonWildcardCharsHostAcl : Nat
  flagsReqAcct : Flags
  founderFlags : Option CString
  akickTime : Nat
  globalTemplates : List (CString × Flags)

abbrev ChanConfig.caAll (cfg : ChanConfig) : Flags := cfg.flagConfig.caAll

inductive Source where
  | irc (u : User)
  | other (smu : Option MyUserRef)
  deriving DecidableEq

structure World where
  currtime : Nat
  hasPriv : Source → CString → Bool
  hasPrivMyuser : MyUserRef → CString → Bool
  /-- the canonical name of the exttarget a name denotes -/
  exttargetFind : CString → Option CString
  extMatchUser : CString → User → Bool
  /-- `next_matching_host_chanacs` stops at an entry for this mask -/
  hostMatches : CString → User → Bool
  userFindNamed : CString → Option User
  prettyMask : CString → Option CString
  collapse : CString → CString

def idLen : Nat := 10
def nickLen : Nat := 32
def gaChanacs : Flags := 0x4#32
def mgRegnolimit : Flags := 0x1#32
def mcHold : Flags := 0x1#32
def mcLimitflags : Flags := 0x4#32
def mcPubacl : Flags := 0x2000#32

/-! ### Metadata and names -/

def metadataFind (md : Metadata) (name : CString) : Option CString :=
  (md.find? (fun e => strcaseEq e.1 name)).map Prod.snd

def metadataDelete (md : Metadata) (name : CString) : Metadata :=
  md.filter (fun e => !strcaseEq e.1 name)

def metadataAdd (md : Metadata) (name value : CString) : Metadata :=
  metadataDelete md name ++ [(name, value)]

theorem metadataFind_add (md : Metadata) (name value : CString) :
    metadataFind (metadataAdd md name value) name = some value := by
  have hdel : (metadataDelete md name).find? (fun e => strcaseEq e.1 name) = none := by
    rw [List.find?_eq_none]
    intro e he
    simpa [metadataDelete] using (List.mem_filter.mp he).2
  rw [metadataFind, metadataAdd, List.find?_append, hdel]
  simp [strcaseEq]

theorem metadataFind_add_other {md : Metadata} {name value name' : CString}
    (h : strcaseEq name name' = false) :
    metadataFind (metadataAdd md name value) name' = metadataFind (metadataDelete md name) name' := by
  rw [metadataFind, metadataAdd, List.find?_append, metadataFind]
  simp [h]

theorem metadataFind_add_ne {md : Metadata} {name value name' : CString}
    (h : strcaseEq name name' = false) :
    metadataFind (metadataAdd md name value) name' = metadataFind md name' := by
  have hdelete : ∀ e : CString × CString, strcaseEq e.1 name' = true → strcaseEq e.1 name = false := by
    intro e he
    rw [strcaseEq, decide_eq_true_eq] at he
    rw [strcaseEq, decide_eq_false_iff_not] at h ⊢
    exact fun hname => h (hname.symm.trans he)
  rw [metadataFind_add_other h, metadataFind, metadataDelete, metadataFind, List.find?_filter]
  congr 2
  funext e
  cases he : strcaseEq e.1 name' with
  | false => simp
  | true => simp [hdelete e he]

def MyChan.closed (mc : MyChan) : Bool :=
  (metadataFind mc.metadata "private:close:closer".toList).isSome

def MyChan.templates (mc : MyChan) : Option CString :=
  metadataFind mc.metadata "private:templates".toList

/-- The account of the source: `si->smu`. -/
def Source.smu (db : ChanDb) : Source → Option MyUserRef
  | .irc u => u.myuser db.accounts
  | .other smu => smu

def Source.entity (db : ChanDb) (si : Source) : Option Entity := (si.smu db).map Entity.user

def Entity.isuser : Entity → Bool
  | .user _ => true
  | _ => false

def Entity.name (db : ChanDb) : Entity → CString
  | .user mu => ((db.accounts.get mu).map MyUser.name).getD []
  | .group mg => ((db.groups.find mg).map MyGroup.name).getD []
  | .ext name => name

def Entity.id (db : ChanDb) : Entity → CString
  | .user mu => ((db.accounts.get mu).map MyUser.id).getD []
  | .group mg => ((db.groups.find mg).map MyGroup.id).getD []
  | .ext _ => []

def Target.name (db : ChanDb) : Target → CString
  | .entity mt => mt.name db
  | .host mask => mask

def setterUid (db : ChanDb) (setter : Option Entity) : CString :=
  truncate idLen ((setter.map (Entity.id db)).getD [])

def mychanFind (cfg : ChanConfig) (db : ChanDb) (name : CString) : Option (MyChanRef × MyChan) :=
  db.chans.entries.find? (fun e => irccaseEq cfg.casemapping e.2.name name)

def mygroupFind (cfg : ChanConfig) (db : ChanDb) (name : CString) : Option GroupRef :=
  (db.groups.entries.find? (fun e => irccaseEq cfg.casemapping e.2.name name)).map Prod.fst

def myentityFind (cfg : ChanConfig) (w : World) (db : ChanDb) (name : CString) : Option Entity :=
  match myuserFind cfg.toConfig db.accounts name with
  | some mu => some (.user mu)
  | none =>
    match mygroupFind cfg db name with
    | some mg => some (.group mg)
    | none => (w.exttargetFind name).map Entity.ext

def myuserFindUid (db : ChanDb) (uid : CString) : Option MyUserRef :=
  (db.accounts.users.entries.find? (fun e => e.2.id = uid)).map Prod.fst

def myentityFindUid (db : ChanDb) (uid : CString) : Option Entity :=
  match myuserFindUid db uid with
  | some mu => some (.user mu)
  | none => ((db.groups.entries.find? (fun e => e.2.id = uid)).map Prod.fst).map Entity.group

def myuserFindExt (cfg : ChanConfig) (w : World) (db : ChanDb) : CString → Option MyUserRef
  | '=' :: name => (w.userFindNamed name).bind (User.myuser db.accounts)
  | '?' :: uid => myuserFindUid db uid
  | name =>
    if cfg.noNickOwnership then myuserFind cfg.toConfig db.accounts name
    else (mynickFind cfg.toConfig db.accounts name).map MyNick.owner

def myentityFindExt (cfg : ChanConfig) (w : World) (db : ChanDb) (name : CString) :
    Option Entity :=
  match myuserFindExt cfg w db name with
  | some mu => some (.user mu)
  | none => myentityFind cfg w db name

/-! ### Entity validation -/

/-- `groupacs_find` with recursion into member groups; `visited` are the groups on the
way down, which are not entered again. -/
def groupacsFind (groups : Registry GroupRef MyGroup) :
    Nat → List GroupRef → GroupRef → Entity → Flags → Bool
  | 0, _, _, _, _ => false
  | fuel + 1, visited, mg, mt, flags =>
    (((groups.find mg).map MyGroup.acs).getD []).any fun ga =>
      match ga.mt with
      | .group mg' =>
        if mg' ∈ mg :: visited then ga.mt = mt && test ga.flags flags
        else groupacsFind groups fuel (mg :: visited) mg' mt flags
      | _ => ga.mt = mt && test ga.flags flags

/-- `match_entity` of the entry's validator. -/
def matchEntity (db : ChanDb) (entry mt : Entity) : Bool :=
  match entry with
  | .group mg =>
    mt.isuser && groupacsFind db.groups (db.groups.entries.length + 1) [] mg mt gaChanacs
  | _ => entry = mt

/-- `match_user` of the entry's validator; only exttargets have one. -/
def matchUser (w : World) (entry : Entity) (u : User) : Bool :=
  match entry with
  | .ext name => w.extMatchUser name u
  | _ => false

/-- `can_register_channel` of the validator. -/
def canRegisterAlways (w : World) (db : ChanDb) : Entity → Bool
  | .user mu =>
    ((db.accounts.get mu).map (fun m => test m.flags muRegnolimit)).getD false ||
      w.hasPrivMyuser mu "user:regnolimit".toList
  | .group mg => ((db.groups.find mg).map (fun g => test g.flags mgRegnolimit)).getD false
  | .ext _ => false

def countChannelsWithFlagset (acl : AccessList) (mt : Entity) (flagset : Flags) : Nat :=
  acl.entries.countP (fun e => e.1.2 = .entity mt && test e.2.level flagset)

def myentityCanRegisterChannel (cfg : ChanConfig) (w : World) (db : ChanDb) (mt : Entity) : Bool :=
  canRegisterAlways w db mt || countChannelsWithFlagset db.acl mt caFounder < cfg.maxchans

def myentityAllowFoundership (db : ChanDb) : Entity → Bool
  | .user mu =>
    ((db.accounts.get mu).map
      (fun m => (m.metadataFind "private:restrict:setter".toList).isNone)).getD true
  | .group _ => true
  | .ext _ => false

/-! ### One channel's access list -/

def chanacsOf (acl : AccessList) (mc : MyChanRef) : List (Target × Chanacs) :=
  (acl.entries.filter (fun e => e.1.1 = mc)).map (fun e => (e.1.2, e.2))

def chanacsFindLiteral (acl : AccessList) (mc : MyChanRef) (mt : Entity) (level : Flags) :
    Option Chanacs :=
  (acl.find (mc, .entity mt)).filter (fun ca => Sub level ca.level)

def findHostEntry (acl : AccessList) (mc : MyChanRef) (p : CString → Bool) (level : Flags) :
    Option (CString × Chanacs) :=
  (chanacsOf acl mc).findSome? fun e =>
    match e.1 with
    | .entity _ => none
    | .host mask => if p mask ∧ Sub level e.2.level then some (mask, e.2) else none

def chanacsFindHostLiteral (acl : AccessList) (mc : MyChanRef) (host : CString) (level : Flags) :
    Option (CString × Chanacs) :=
  findHostEntry acl mc (strcaseEq · host) level

def chanacsFindHost (cfg : ChanConfig) (acl : AccessList) (mc : MyChanRef) (host : CString)
    (level : Flags) : Option (CString × Chanacs) :=
  findHostEntry acl mc (cfg.matchMask · host) level

def mychanNumFounders (acl : AccessList) (mc : MyChanRef) : Nat :=
  (chanacsOf acl mc).countP fun e =>
    match e.1 with
    | .entity _ => test e.2.level caFounder
    | .host _ => false

def chanacsIsTableFull (cfg : ChanConfig) (acl : AccessList) (mc : MyChanRef) : Bool :=
  cfg.maxchanacs > 0 && (chanacsOf acl mc).length > cfg.maxchanacs

/-- The key of the entry that `chanacs_open` finds or creates. -/
def openKey (acl : AccessList) (mc : MyChanRef) : Target → MyChanRef × Target
  | .entity mt => (mc, .entity mt)
  | .host mask => (mc, .host (((chanacsFindHostLiteral acl mc mask 0#32).map Prod.fst).getD mask))

def newEntry (w : World) (db : ChanDb) (setter : Option Entity) : Chanacs :=
  ⟨0#32, w.currtime, setterUid db setter, []⟩

def chanacsClose (k : MyChanRef × Target) (acl : AccessList) : AccessList :=
  match acl.find k with
  | some ca => if ca.level = 0#32 then acl.erase k else acl
  | none => acl

/-- How a command leaves an entry it has opened: by returning with the entry still on
the list, or through `chanacs_close` once the entry is as given. -/
inductive EntryEnd (α : Type) where
  | leave (r : α)
  | close (ca : Chanacs) (r : α)

/-- `chanacs_open` with `create`, the part of a command that works on the entry, and the
`chanacs_close` it ends with, if it does. -/
def withEntry {α : Type} (acl : AccessList) (k : MyChanRef × Target) (fresh : Chanacs)
    (body : AccessList → Chanacs → EntryEnd α) : AccessList × α :=
  let opened := acl.insertNew k fresh
  match body opened ((opened.find k).getD fresh) with
  | .leave r => (opened, r)
  | .close ca r => (chanacsClose k (opened.set k ca), r)

/-! ### Changing an entry -/

structure Modified where
  ok : Bool
  ca : Chanacs
  /-- the flags really added and removed, also of a change that was refused -/
  change : Change

def chanacsModify (w : World) (db : ChanDb) (ca : Chanacs) (c : Change) (restrictflags : Flags)
    (setter : Option Entity) : Modified :=
  let done : Change := ⟨added ca.level c.add, removed ca.level c.add c.rem⟩
  if done.add ||| done.rem = 0#32 then ⟨true, ca, done⟩
  else if test (~~~restrictflags) done.add then ⟨false, ca, done⟩
  else if test (~~~restrictflags) done.rem then ⟨false, ca, done⟩
  else if test (~~~restrictflags) ca.level then ⟨false, ca, done⟩
  else
    ⟨true, { ca with
      level := (ca.level ||| done.add) &&& ~~~done.rem
      tmodified := w.currtime
      setterUid := setterUid db setter }, done⟩

def chanacsModifySimple (cfg : ChanConfig) (w : World) (db : ChanDb) (ca : Chanacs) (c : Change)
    (setter : Option Entity) : Chanacs :=
  (chanacsModify w db ca (c.mask cfg.caAll) cfg.caAll setter).ca

/-- `chanacs_change`, without its answer: an entry that is missing is created with the
added flags, and one that loses its last flag is dropped. -/
def chanacsChange (cfg : ChanConfig) (w : World) (db : ChanDb) (mc : MyChanRef) (t : Target)
    (c : Change) (restrictflags : Flags) (setter : Option Entity) : AccessList :=
  let k := openKey db.acl mc t
  match db.acl.find k with
  | none =>
    if c.add = 0#32 then db.acl
    else if test (~~~restrictflags) c.add then db.acl
    else db.acl.insertNew k { newEntry w db setter with level := c.add &&& cfg.caAll }
  | some ca =>
    let m := chanacsModify w db ca c restrictflags setter
    if m.ok ∧ m.change.add ||| m.change.rem ≠ 0#32 then chanacsClose k (db.acl.set k m.ca)
    else db.acl

def chanacsChangeSimple (cfg : ChanConfig) (w : World) (db : ChanDb) (mc : MyChanRef) (t : Target)
    (c : Change) (setter : Option Entity) : AccessList :=
  chanacsChange cfg w db mc t (c.mask cfg.caAll) cfg.caAll setter

def addAutoFlags (flags : Flags) : Flags :=
  let flags := if test flags caOp then flags ||| caAutoop else flags
  let flags := if test flags caHalfop then flags ||| caAutohalfop else flags
  if test flags caVoice then flags ||| caAutovoice else flags

def dropLeveled (theirflags flags : Flags) : Flags :=
  let flags := if test theirflags caFlags && !test flags caSet then flags &&& ~~~caFlags else flags
  let flags := if test flags caRecover then flags &&& ~~~caRecover else flags
  if test flags caSet && test theirflags caSet then flags &&& ~~~caSet else flags

def dropLimited (theirflags flags : Flags) : Flags :=
  if !test theirflags (caHighprivs &&& ~~~caFlags) then flags &&& caAkick
  else if theirflags &&& caHighprivs ≠ caHighprivs then flags &&& ~~~caHighprivs
  else flags

def allowFlags (cfg : ChanConfig) (mc : MyChan) (theirflags : Flags) : Flags :=
  let flags := theirflags &&& ~~~caAkick
  let flags := if test flags caRemove then flags ||| caAkick else flags
  let flags := addAutoFlags flags
  let flags := if cfg.noLeveledFlags then flags else dropLeveled theirflags flags
  if cfg.useLimitflags && test mc.flags mcLimitflags then dropLimited theirflags flags else flags

def validhostmask (host : CString) : Bool :=
  !host.contains ' ' && host.count '!' = 1 && host.count '@' = 1 &&
    host.idxOf '!' < host.idxOf '@' && host.length ≤ nickLen + userLen + hostLen + 1 &&
    !(host.head?.any fun c => c ∈ [',', '-', '#', '@', '!', ':'])

def checkNotEnoughNonWildcardChars (mask : CString) (minNonWildcardChars : Nat) : Bool :=
  minNonWildcardChars > mask.countP (fun c => c ∉ ['*', '?', '.', '!', '@'])

/-! ### What the flag functions add -/

theorem has_ite_or {c : Bool} {a m : Flags} {i : Nat} (h : Has (if c then a ||| m else a) i) :
    Has a i ∨ (c = true ∧ Has m i) := by
  split_ifs at h with hc
  · exact ((has_or a m i).mp h).imp id (And.intro hc)
  · exact .inl h

theorem has_ite_and {c : Prop} [Decidable c] {a m : Flags} {i : Nat}
    (h : Has (if c then a &&& m else a) i) : Has a i := by
  split_ifs at h
  · exact ((has_and a m i).mp h).1
  · exact h

theorem has_addAutoFlags {flags : Flags} {i : Nat} (h : Has (addAutoFlags flags) i) :
    Has flags i ∨ i = 3 ∨ i = 11 ∨ i = 1 := by
  rcases has_ite_or h with h | h
  · rcases has_ite_or h with h | h
    · rcases has_ite_or h with h | h
      · exact .inl h
      · exact .inr (.inl ((has_caAutoop i).mp h.2))
    · exact .inr (.inr (.inl ((has_caAutohalfop i).mp h.2)))
  · exact .inr (.inr (.inr ((has_caAutovoice i).mp h.2)))

theorem has_dropLeveled {theirflags flags : Flags} {i : Nat}
    (h : Has (dropLeveled theirflags flags) i) : Has flags i :=
  has_ite_and (has_ite_and (has_ite_and h))

theorem has_dropLimited {theirflags flags : Flags} {i : Nat}
    (h : Has (dropLimited theirflags flags) i) : Has flags i := by
  rw [dropLimited] at h
  split_ifs at h
  · exact ((has_and _ _ i).mp h).1
  · exact ((has_and _ _ i).mp h).1
  · exact h

theorem has_allowFlags {cfg : ChanConfig} {mc : MyChan} {f : Flags} {i : Nat}
    (h : Has (allowFlags cfg mc f) i) : Has f i ∨ i = 31 ∨ i = 3 ∨ i = 11 ∨ i = 1 := by
  simp only [allowFlags] at h
  generalize hflags : addAutoFlags _ = flags at h
  have h1 : Has flags i := by
    split_ifs at h
    · exact has_dropLimited h
    · exact has_dropLeveled (has_dropLimited h)
    · exact h
    · exact has_dropLeveled h
  rw [← hflags] at h1
  rcases has_addAutoFlags h1 with h2 | h2
  · rcases has_ite_or h2 with h3 | h3
    · exact .inl ((has_and _ _ i).mp h3).1
    · exact .inr (.inl ((has_caAkick i).mp h3.2))
  · exact .inr (.inr h2)

theorem allowFlags_not_founder {cfg : ChanConfig} {mc : MyChan} {f : Flags} (hf : ¬ Has f 13) :
    ¬ Has (allowFlags cfg mc f) 13 := by
  intro h
  rcases has_allowFlags h with h | h | h | h | h
  · exact hf h
  all_goals omega

/- A quiet network, a channel and two accounts with the first one logged in, for
examples. -/
def sampleConfig : ChanConfig where
  casemapping := .rfc1459
  noNickOwnership := false
  useMyuserAccess := true
  maxlogins := 5
  matchMask mask name := mask = name
  matchCidr _ _ := false
  flagConfig := ⟨true, true, true, true⟩
  usesRcommand := false
  disp := "ChanServ".toList
  noLeveledFlags := false
  useLimitflags := false
  permitSelfAutoop := true
  hideXop := false
  maxfounders := 4
  maxchans := 5
  maxchanacs := 0
  minNonWildcardCharsHostAcl := 0
  flagsReqAcct := 0#32
  founderFlags := none
  akickTime := 0
  globalTemplates := [("SOP".toList, caOp ||| caSet), ("VOP".toList, caVoice)]

def sampleWorld : World where
  currtime := 100
  hasPriv _ _ := false
  hasPrivMyuser _ _ := false
  exttargetFind _ := none
  extMatchUser _ _ := false
  hostMatches _ _ := false
  userFindNamed _ := none
  prettyMask _ := none
  collapse mask := mask

def sampleUser : User where
  uid := "1AAAAAAAA".toList
  nick := "alice".toList
  user := "user".toList
  host := "host.example".toList
  vhost := "host.example".toList
  chost := "host.example".toList
  ip := "192.0.2.1".toList

def sampleAccount (name id : String) (flags : Flags) (logins : List User) : MyUser :=
  ⟨name.toList, id.toList, flags, logins, 0, none, [], []⟩

def sampleChan (name : String) (h : name.toList.head? = some '#') (metadata : Metadata) : MyChan :=
  ⟨name.toList, h, 0#32, metadata, true⟩

theorem head_chan : "#chan".toList.head? = some '#' := by decide

theorem head_other : "#other".toList.head? = some '#' := by decide

theorem nodup_chan : ([((0 : MyChanRef), sampleChan "#chan" head_chan [])].map Prod.fst).Nodup := by
  decide

theorem nodup_chan_other : ([((0 : MyChanRef), sampleChan "#chan" head_chan []),
    (1, sampleChan "#other" head_other [])].map Prod.fst).Nodup := by decide

def sampleEntry (level : Flags) : Chanacs := ⟨level, 0, [], []⟩

/- `flags` are those of the account that is logged in. -/
def sampleAccounts (flags : Flags) (nicks : List MyNick) : Accounts where
  users := ⟨[(0, sampleAccount "alice" "AAAAAAAAA" flags [sampleUser]),
    (1, sampleAccount "bob" "AAAAAAAAB" 0#32 [])], by simp⟩
  nicks := ⟨"alice".toList, 0⟩ :: ⟨"bob".toList, 1⟩ :: nicks

end ChatServices.ChanServ
