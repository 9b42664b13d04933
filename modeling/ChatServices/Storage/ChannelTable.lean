import ChatServices.Storage.FlagText
import ChatServices.Storage.Opensex

/-! The part of `corestorage` that is about registered channels: their rows, and the handlers that
take the rows in again. -/
namespace ChatServices.Storage
open ChatServices.Lib ChatServices.Lib.Mask ChatServices.Text ChatServices.ChanServ

/-- A `myentity_t` as the database knows it. -/
structure Ent where
  name : CString
  id : CString
  deriving DecidableEq

/-- `myentity_find` and `myentity_find_uid` -/
structure EntityTable where
  find : CString → Option Ent
  findUid : CString → Option Ent

/-- `ca->entity`, or `ca->host` where that is NULL. -/
inductive StoredTarget where
  | entity (mt : Ent)
  | host (mask : CString)
  deriving DecidableEq

structure StoredChan where
  name : CString
  registered : Nat
  used : Nat
  flags : Flags
  mlockOn : BitVec 32
  mlockOff : BitVec 32
  mlockLimit : BitVec 32
  mlockKey : Option CString
  metadata : Metadata
  chanacs : List (StoredTarget × Chanacs)
  deriving DecidableEq

def StoredTarget.name : StoredTarget → CString
  | .entity mt => mt.name
  | .host mask => mask

/-! ### Saving -/

def setterName (ents : EntityTable) (uid : CString) : CString :=
  if uid = [] then ['*'] else ((ents.findUid uid).map Ent.name).getD ['*']

def mcRow (mc : StoredChan) : CString :=
  writeRow "MC" [mc.name, natArg mc.registered, natArg mc.used, gflagsTostr mcFlags mc.flags,
    natArg mc.mlockOn.toNat, natArg mc.mlockOff.toNat, natArg mc.mlockLimit.toNat,
    mc.mlockKey.getD []] []

def caRow (fc : FlagConfig) (ents : EntityTable) (mc : StoredChan) (e : StoredTarget × Chanacs) :
    CString :=
  writeRow "CA" [mc.name, e.1.name, bitmaskToFlags fc e.2.level, natArg e.2.tmodified,
    setterName ents e.2.setterUid] []

def mdaRow (mc : StoredChan) (t : StoredTarget) (md : CString × CString) : CString :=
  writeRow "MDA" [mc.name, t.name, md.1] md.2

def mdcRow (mc : StoredChan) (md : CString × CString) : CString :=
  writeRow "MDC" [mc.name, md.1] md.2

def entryRows (fc : FlagConfig) (ents : EntityTable) (mc : StoredChan)
    (e : StoredTarget × Chanacs) : List CString :=
  caRow fc ents mc e :: e.2.metadata.map (mdaRow mc e.1)

def chanRows (fc : FlagConfig) (ents : EntityTable) (mc : StoredChan) : List CString :=
  mcRow mc :: mc.chanacs.flatMap (entryRows fc ents mc) ++ mc.metadata.map (mdcRow mc)

def headRows (fc : FlagConfig) : List CString :=
  [writeRow "DBV" [natArg 12] [], writeRow "CF" [bitmaskToFlags fc fc.caAll] []]

/-- `corestorage_db_save`, without the rows that other handlers take in. -/
def saveChans (fc : FlagConfig) (ents : EntityTable) (chans : List StoredChan) : List CString :=
  headRows fc ++ chans.flatMap (chanRows fc ents)

/-! ### Loading -/

structure ChanLoader where
  dbv : BitVec 32
  theirCaAll : Flags
  /-- `mclist`, by the folded name -/
  mclist : Registry CString StoredChan

def ChanLoader.empty : ChanLoader := ⟨0#32, 0#32, .empty⟩

/-- `strip`: the text before the first line end or `\1`. -/
def strip (line : CString) : CString :=
  ((line.takeWhile (· ≠ '\n')).takeWhile (· ≠ '\r')).takeWhile (· ≠ '\x01')

def loadedKey (key : CString) : Option CString :=
  let buf := strip (truncate 4096 key)
  if buf ≠ [] ∧ buf.head? ≠ some ':' ∧ ',' ∉ buf then some buf else none

section load
variable (cfg : ChanConfig) (ents : EntityTable) (now : Nat)

def mychanKey (name : CString) : CString := irccasecanon cfg.casemapping name

/-- `mychan_add`, which leaves a channel of that name as it is. -/
def mychanAdd (name : CString) (st : ChanLoader) : ChanLoader :=
  let mc : StoredChan := ⟨name, now, 0, 0#32, 0#32, 0#32, 0#32, none, [], []⟩
  { st with mclist := st.mclist.insertNew (mychanKey cfg name) mc }

def ChanLoader.modify (name : CString) (f : StoredChan → StoredChan) (st : ChanLoader) :
    ChanLoader :=
  { st with mclist := st.mclist.modify (mychanKey cfg name) f }

def ChanLoader.mychanFind (st : ChanLoader) (name : CString) : Option StoredChan :=
  st.mclist.find (mychanKey cfg name)

def corestorageHDbv (st : ChanLoader) : Reader ChanLoader := do
  let dbv ← dbSreadInt
  pure { st with dbv := dbv }

def corestorageHCf (st : ChanLoader) : Reader ChanLoader := do
  let flags ← dbSreadWord
  pure { st with theirCaAll := flagsToBitmask cfg.flagConfig flags 0#32 }

def corestorageHMc (st : ChanLoader) : Reader ChanLoader := do
  let name ← dbSreadWord
  let name := truncate 4096 name
  let st := mychanAdd cfg now name st
  let registered ← dbSreadTime
  let used ← dbSreadTime
  let flags ← if 8#32 ≤ st.dbv then (do
      let sflags ← dbSreadWord
      pure (gflagsFromstr mcFlags sflags).1)
    else dbSreadUint
  let mlockOn ← dbSreadUint
  let mlockOff ← dbSreadUint
  let mlockLimit ← dbSreadUint
  let key ← dbReadWord
  pure (st.modify cfg name fun mc => { mc with
    registered := registered
    used := used
    flags := flags
    mlockOn := mlockOn
    mlockOff := mlockOff
    mlockLimit := mlockLimit
    mlockKey := (key.bind loadedKey).or mc.mlockKey })

/-- `convert_templates`: an `e` goes before every `r` of a flag string, which is what stands from
a `=` to the next blank. -/
def convertTemplates : Bool → CString → CString
  | _, [] => []
  | inFlags, c :: s =>
    let inFlags := if inFlags then c ≠ ' ' else c = '='
    if inFlags ∧ c = 'r' then 'e' :: c :: convertTemplates inFlags s
    else c :: convertTemplates inFlags s

def hostIs (host : CString) : StoredTarget → Bool
  | .host mask => strcaseEq mask host
  | .entity _ => false

/-- Which entry `chanacs_find_by_mask` finds on a list: the first one that this is true of. -/
def maskNames (list : List (StoredTarget × Chanacs)) (mask : CString) (t : StoredTarget) : Bool :=
  match ents.find mask with
  | some mt =>
    if list.any (fun e => e.1 = .entity mt) then t = .entity mt else hostIs mask t
  | none => hostIs mask t

def addMetadata (name value : CString) (e : StoredTarget × Chanacs) : StoredTarget × Chanacs :=
  (e.1, { e.2 with metadata := metadataAdd e.2.metadata name value })

def modifyFirst (p : StoredTarget → Bool) (f : StoredTarget × Chanacs → StoredTarget × Chanacs) :
    List (StoredTarget × Chanacs) → List (StoredTarget × Chanacs)
  | [] => []
  | e :: list => if p e.1 then f e :: list else e :: modifyFirst p f list

/-- `metadata_add` on the entry that a mask names; without one there is a message in the log. -/
def entryMetadata (chan mask name value : CString) (st : ChanLoader) : ChanLoader :=
  st.modify cfg chan fun mc => { mc with
    chanacs := modifyFirst (maskNames ents mc.chanacs mask) (addMetadata name value) mc.chanacs }

def chanMetadata (chan name value : CString) (st : ChanLoader) : ChanLoader :=
  st.modify cfg chan fun mc => { mc with metadata := metadataAdd mc.metadata name value }

/-- `strrchr (name, ':')`: what is before the last colon and what is behind it. -/
def splitLastColon (name : CString) : Option (CString × CString) :=
  if ':' ∈ name then
    some (((name.reverse.dropWhile (· ≠ ':')).drop 1).reverse, (name.reverse.takeWhile (· ≠ ':')).reverse)
  else none

/-- `corestorage_h_md` on a row MDC, or an MDA of before version 12. -/
def corestorageHMd (type : String) (st : ChanLoader) : Reader ChanLoader := do
  let name ← dbSreadWord
  let prop ← dbSreadWord
  let value ← dbSreadStr
  if type = "MDC" then
    if !test st.theirCaAll caExempt && prop = "private:templates".toList then
      pure (chanMetadata cfg name prop (convertTemplates false value) st)
    else pure (chanMetadata cfg name prop value st)
  else
    match splitLastColon name with
    | some (chan, mask) => pure (entryMetadata cfg ents chan mask prop value st)
    | none => pure st

def corestorageHMda (st : ChanLoader) : Reader ChanLoader :=
  if st.dbv < 12#32 then corestorageHMd cfg ents "MDA" st
  else do
    let name ← dbSreadWord
    let mask ← dbSreadWord
    let prop ← dbSreadWord
    let value ← dbSreadStr
    pure (entryMetadata cfg ents name mask prop value st)

/-- `chanacs_add` and `chanacs_add_host`, which refuse a channel of another kind. -/
def chanacsAdd (t : StoredTarget) (level : Flags) (ts : Nat) (setter : Option Ent)
    (mc : StoredChan) : StoredChan :=
  if mc.name.head? = some '#' then
    { mc with chanacs := mc.chanacs ++
      [(t, ⟨level &&& cfg.caAll, ts, truncate idLen ((setter.map Ent.id).getD []), []⟩)] }
  else mc

/-- The target of a row CA; `none` is the exit of the process. -/
def loadedTarget (target : CString) : Option StoredTarget :=
  match ents.find target with
  | some mt => some (.entity mt)
  | none => if validhostmask target then some (.host target) else none

def corestorageHCa (st : ChanLoader) : Reader ChanLoader := do
  let chan ← dbSreadWord
  let target ← dbSreadWord
  let sflags ← dbSreadWord
  let flags := flagsToBitmask cfg.flagConfig sflags 0#32
  let flags :=
    if !test st.theirCaAll caExempt && test flags caRemove then flags ||| caExempt else flags
  let tmod ← dbSreadTime
  let setter ← if 9#32 ≤ st.dbv then (do
      let name ← dbSreadWord
      pure (ents.find name))
    else pure none
  if (st.mychanFind cfg chan).isNone then failure
  else
    match loadedTarget ents target with
    | none => failure
    | some t => pure (st.modify cfg chan (chanacsAdd cfg t flags tmod setter))

/-- `db_process`; a row of a kind that nothing handles ends the process. -/
def dbProcess (st : ChanLoader) (type : CString) : Reader ChanLoader :=
  if type = "DBV".toList then corestorageHDbv st
  else if type = "CF".toList then corestorageHCf cfg st
  else if type = "MC".toList then corestorageHMc cfg now st
  else if type = "CA".toList then corestorageHCa cfg ents st
  else if type = "MDA".toList then corestorageHMda cfg ents st
  else if type = "MDC".toList then corestorageHMd cfg ents "MDC" st
  else failure

/-- One row of `opensex_db_parse`, which passes over empty lines and comments. -/
def loadRow (st : ChanLoader) (row : CString) : Option ChanLoader :=
  let (type, token) := Rows.readWord ' ' row
  if type = [] ∨ type.head?.any (· ∈ ['#', '\n', '\t', ' ', '\r']) then some st
  else ((dbProcess cfg ents now st type).run token).map Prod.fst

def loadRows (st : ChanLoader) (rows : List CString) : Option ChanLoader :=
  rows.foldlM (loadRow cfg ents now) st

def loadFile (file : CString) : Option ChanLoader :=
  loadRows cfg ents now .empty (Rows.readRows '\n' [] file)

end load
end ChatServices.Storage
