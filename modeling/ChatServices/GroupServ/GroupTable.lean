import ChatServices.Entities
import ChatServices.GroupServ.Groups
import ChatServices.Storage.ChannelTable

/-! Groups in the database, `modules/groupserv/main/database.c`: their rows, and the handlers that
take the rows in again. The member of an access entry is looked up when the row of the entry is
read. -/
namespace ChatServices.GroupServ
open ChatServices.Lib ChatServices.Lib.Mask ChatServices.Text ChatServices.Storage
open ChatServices.ChanServ (Metadata metadataAdd natArg)

def mgRegnolimit : Flags := 0x1#32
def mgPublic : Flags := 0x8#32

def mgTable : GFlags :=
  [('r', mgRegnolimit), ('a', mgAcsnolimit), ('o', mgOpen), ('p', mgPublic), ('P', mgPubacl)]

def gaAllOld : Flags := gaFlags ||| gaChanacs ||| gaMemos ||| gaSet ||| gaVhost ||| gaInvite

/-- `ga->mt`: an entity that is there before the groups are, or the group with this name. -/
inductive StoredMember where
  | account (mt : Ent)
  | group (name : CString)
  deriving DecidableEq

structure StoredGroup where
  id : CString
  name : CString
  regtime : Nat
  flags : Flags
  acs : List (StoredMember × Flags)
  metadata : Metadata
  deriving DecidableEq

def StoredMember.name : StoredMember → CString
  | .account mt => mt.name
  | .group name => name

/-! ### Saving -/

def gdbvVersion : Nat := 4

def grpRow (mg : StoredGroup) : CString :=
  writeRow "GRP" [mg.id, mg.name, natArg mg.regtime, gflagsTostr mgTable mg.flags] []

def gaclRow (mg : StoredGroup) (ga : StoredMember × Flags) : CString :=
  writeRow "GACL" [mg.name, ga.1.name, gflagsTostr gaTable ga.2] []

def mdgRow (mg : StoredGroup) (md : CString × CString) : CString :=
  writeRow "MDG" [mg.name, md.1] md.2

def groupRows (mg : StoredGroup) : List CString :=
  grpRow mg :: mg.acs.map (gaclRow mg) ++ mg.metadata.map (mdgRow mg)

/-- `write_groupdb`, of the groups in the order of the dictionary. -/
def writeGroupdb (groups : List StoredGroup) : List CString :=
  [writeRow "GDBV" [natArg gdbvVersion] [], writeRow "GFA" [gflagsTostr gaTable gaAll] []] ++
    groups.flatMap groupRows

/-! ### Loading -/

structure GroupLoader where
  loadingGdbv : BitVec 32
  theirGaAll : Flags
  /-- the groups of the dictionary, by the folded name -/
  groups : Registry CString StoredGroup
  ids : List CString
  lastUid : CString

def GroupLoader.start (lastUid : CString) : GroupLoader := ⟨-1, 0#32, .empty, [], lastUid⟩

section load
variable (cm : CaseMapping) (ents : EntityTable)

def groupKey (name : CString) : CString := irccasecanon cm name

/-- `mygroup_find`; a name that an account has is not the name of a group. -/
def GroupLoader.mygroupFind (st : GroupLoader) (name : CString) : Option StoredGroup :=
  if (ents.find name).isSome then none else st.groups.find (groupKey cm name)

def GroupLoader.myentityFind (st : GroupLoader) (name : CString) : Option StoredMember :=
  match ents.find name with
  | some mt => some (.account mt)
  | none => (st.groups.find (groupKey cm name)).map fun mg => .group mg.name

def GroupLoader.uidTaken (st : GroupLoader) (uid : CString) : Bool :=
  (ents.findUid uid).isSome || decide (uid ∈ st.ids)

/-- `mygroup_add_id`, with what the handler sets in the group; a group whose name an account has is
not found again. -/
def GroupLoader.mygroupAddId (st : GroupLoader) (uid : Option CString) (name : CString)
    (regtime : Nat) (flags : Flags) : GroupLoader :=
  let wanted := match uid with
    | some uid => if st.uidTaken ents uid then [] else truncate Entities.IDLEN uid
    | none => []
  let next := Entities.myentityAllocUid st.lastUid
  let (id, lastUid) := if wanted = [] then (truncate Entities.IDLEN next, next)
    else (wanted, st.lastUid)
  let mg : StoredGroup := ⟨id, name, regtime, flags, [], []⟩
  { st with
    groups := if (ents.find name).isSome then st.groups
      else st.groups.insertNew (groupKey cm name) mg
    ids := id :: st.ids
    lastUid := lastUid }

def GroupLoader.modify (st : GroupLoader) (name : CString) (f : StoredGroup → StoredGroup) :
    GroupLoader :=
  { st with groups := st.groups.modify (groupKey cm name) f }

def dbHGdbv (st : GroupLoader) : Reader GroupLoader := do
  let version ← dbSreadUint
  pure { st with loadingGdbv := version, theirGaAll := gaAllOld }

def dbHGfa (st : GroupLoader) : Reader GroupLoader := do
  let flags ← dbSreadWord
  pure { st with theirGaAll := (gflagsFromstr gaTable flags).1 }

def dbHGrp (st : GroupLoader) : Reader GroupLoader := do
  let uid ← if 4#32 ≤ st.loadingGdbv then (do
      let uid ← dbSreadWord
      pure (some uid))
    else pure none
  let name ← dbSreadWord
  if (st.mygroupFind cm ents name).isSome then pure st
  else if uid.any (st.uidTaken ents) then pure st
  else
    let regtime ← dbSreadTime
    let flags ← if 3#32 ≤ st.loadingGdbv then (do
        let flagset ← dbSreadWord
        pure (gflagsFromstr mgTable flagset).1)
      else pure 0#32
    pure (st.mygroupAddId cm ents uid name regtime flags)

def dbHGacl (st : GroupLoader) : Reader GroupLoader := do
  let name ← dbSreadWord
  let entity ← dbSreadWord
  match st.mygroupFind cm ents name, st.myentityFind cm ents entity with
  | none, _ => pure st
  | some _, none => pure st
  | some _, some mt =>
    let flags ← if 2#32 ≤ st.loadingGdbv then (do
        let flagset ← dbSreadWord
        let flags := (gflagsFromstr gaTable flagset).1
        -- the flag was added in a later version
        if !test st.theirGaAll gaAclview && flags &&& gaAllOld = st.theirGaAll then
          pure (flags ||| gaAclview)
        else pure flags)
      else pure gaAll
    pure (st.modify cm name fun mg => { mg with acs := mg.acs ++ [(mt, flags)] })

def dbHMdg (st : GroupLoader) : Reader GroupLoader := do
  let name ← dbSreadWord
  let prop ← dbSreadWord
  let value ← dbSreadStr
  match st.mygroupFind cm ents name with
  | none => pure st
  | some _ =>
    pure (st.modify cm name fun mg => { mg with metadata := metadataAdd mg.metadata prop value })

/-- `db_process`, of the rows of groups. -/
def groupProcess (st : GroupLoader) (type : CString) : Reader GroupLoader :=
  if type = "GDBV".toList then dbHGdbv st
  else if type = "GFA".toList then dbHGfa st
  else if type = "GRP".toList then dbHGrp cm ents st
  else if type = "GACL".toList then dbHGacl cm ents st
  else if type = "MDG".toList then dbHMdg cm ents st
  else failure

def loadGroupRow (st : GroupLoader) (row : CString) : Option GroupLoader :=
  parseRow (groupProcess cm ents st) st row

def loadGroupRows (st : GroupLoader) (rows : List CString) : Option GroupLoader :=
  rows.foldlM (loadGroupRow cm ents) st

def loadGroupFile (lastUid : CString) (file : CString) : Option GroupLoader :=
  loadGroupRows cm ents (.start lastUid) (Rows.readRows '\n' [] file)

end load
end ChatServices.GroupServ
