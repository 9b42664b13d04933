import ChatServices.ChanServ.Command

/-! The deletion of an account: its access entries, and for every channel that would lose
its last founder a successor, or the end of the channel. -/
namespace ChatServices.ChanServ
open ChatServices.Lib ChatServices.Lib.Mask ChatServices.Text

def recentlySeen : Nat := 7 * 86400

structure Candidate where
  hiMt : Option Entity
  hiLevel : Flags
  recentOk : Bool
  hiRecentOk : Bool

def seenLately (w : World) (db : ChanDb) (mt : Entity) (before : Bool) : Bool :=
  match mt with
  | .user mu =>
    ((db.accounts.get mu).map fun m =>
      m.logins.length > 0 || w.currtime - m.lastlogin < recentlySeen).getD before
  | _ => before

/-- One entry in the loop of `mychan_pick_candidate`. -/
def considerEntry (cfg : ChanConfig) (w : World) (db : ChanDb) (minlevel : Flags) (c : Candidate)
    (e : Target × Chanacs) : Candidate :=
  match e.1 with
  | .host _ => c
  | .entity mt =>
    if test e.2.level caAkick then c
    else if test e.2.level caFounder then c
    else if !Sub minlevel e.2.level then c
    else
      let recentOk := seenLately w db mt c.recentOk
      let level := addAutoFlags e.2.level
      if c.hiMt.isSome && (test c.hiLevel (~~~level) ||
          (c.hiLevel = level && (!recentOk || c.hiRecentOk))) then { c with recentOk := recentOk }
      else if myentityCanRegisterChannel cfg w db mt then ⟨some mt, level, recentOk, recentOk⟩
      else { c with recentOk := recentOk }

def asUser : Entity → Option MyUserRef
  | .user mu => some mu
  | _ => none

def mychanPickCandidate (cfg : ChanConfig) (w : World) (db : ChanDb) (mc : MyChanRef)
    (minlevel : Flags) : Option MyUserRef :=
  ((chanacsOf db.acl mc).foldl (considerEntry cfg w db minlevel)
    ⟨none, 0#32, false, false⟩).hiMt.bind asUser

def successorLevels (cfg : ChanConfig) : List Flags :=
  cfg.flagConfig.successorFlag.toList ++ [caRecover, caFlags] ++
    (if test cfg.caAll caUseowner then [caUseowner ||| caAutoop] else []) ++ [caOp, 0#32]

def mychanPickSuccessor (cfg : ChanConfig) (w : World) (db : ChanDb) (mc : MyChanRef) :
    Option MyUserRef :=
  (successorLevels cfg).findSome? (mychanPickCandidate cfg w db mc)

def customFounderCheck (cfg : ChanConfig) : Flags :=
  match cfg.founderFlags with
  | some flags =>
    if flags.contains 'F' then flagsToBitmask cfg.flagConfig flags 0#32
    else caAllprivs &&& cfg.caAll
  | none => caAllprivs &&& cfg.caAll

def changeSimple (cfg : ChanConfig) (w : World) (mc : MyChanRef) (mu : MyUserRef) (c : Change)
    (db : ChanDb) : ChanDb :=
  { db with acl := chanacsChangeSimple cfg w db mc (.entity (.user mu)) c none }

def succeed (cfg : ChanConfig) (w : World) (mc : MyChanRef) (successor : MyUserRef)
    (db : ChanDb) : ChanDb :=
  let db := changeSimple cfg w mc successor ⟨caFounder ||| caFlags, 0#32⟩ db
  let db := changeSimple cfg w mc successor ⟨customFounderCheck cfg, 0#32⟩ db
  match cfg.flagConfig.successorFlag with
  | some flag => changeSimple cfg w mc successor ⟨0#32, flag⟩ db
  | none => db

def mychanDelete (mc : MyChanRef) (db : ChanDb) : ChanDb :=
  { db with
    chans := db.chans.erase mc
    acl := db.acl.update fun k ca => if k.1 = mc then none else some ca }

def eraseEntry (k : MyChanRef × Target) (db : ChanDb) : ChanDb :=
  { db with acl := db.acl.erase k }

def dropEntry (cfg : ChanConfig) (w : World) (mu : MyUserRef) (db : ChanDb) (mc : MyChanRef) :
    ChanDb :=
  let k := (mc, Target.entity (.user mu))
  if test (levelAt db.acl k) caFounder && mychanNumFounders db.acl mc = 1 then
    match mychanPickSuccessor cfg w db mc with
    | some successor => eraseEntry k (succeed cfg w mc successor db)
    | none => mychanDelete mc db
  else eraseEntry k db

def channelsOf (acl : AccessList) (mt : Entity) : List MyChanRef :=
  (acl.entries.filter (fun e => e.1.2 = .entity mt)).map (fun e => e.1.1)

def MyGroup.leave (mt : Entity) (g : MyGroup) : MyGroup :=
  { g with acs := g.acs.filter (fun ga => ga.mt ≠ mt) }

def leaveGroups (mu : MyUserRef) (db : ChanDb) : ChanDb :=
  { db with groups := db.groups.update (fun _ g => some (g.leave (.user mu))) }

/-- `myuser_delete`: group memberships, access entries, nicks, and the account itself. -/
def myuserDelete (cfg : ChanConfig) (w : World) (db : ChanDb) (mu : MyUserRef) : ChanDb :=
  let db := (channelsOf db.acl (.user mu)).foldl (dropEntry cfg w mu) (leaveGroups mu db)
  { db with accounts := ⟨db.accounts.users.erase mu,
      db.accounts.nicks.filter (fun mn => mn.owner ≠ mu)⟩ }

end ChatServices.ChanServ
