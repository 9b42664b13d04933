import ChatServices.ChanServ.Command

/-! `ACCESS <#channel> ADD|SET|DEL`: one entry put to the flags of a role, or removed. -/
namespace ChatServices.ChanServ
open ChatServices.Lib ChatServices.Lib.Mask ChatServices.Text

/-- An ACCESS command that may go on to an entry; `role` is empty in DEL. -/
structure AccessRequest where
  mc : MyChanRef
  chan : MyChan
  channel : CString
  target : CString
  role : CString

/-- The restriction mask of ACCESS ADD and SET for the entry of `mt`, or `none` where a
source on the AKICK list names itself. -/
def accessRestrict (cfg : ChanConfig) (chan : MyChan) (f : Flags) (source mt : Option Entity) :
    Option Flags :=
  if test f caFounder then some cfg.caAll
  else if test f caAkick && source = mt then none
  else if mt ≠ source then some (allowFlags cfg chan f)
  else some (f ||| allowFlags cfg chan f)

def accessDelRestrict (cfg : ChanConfig) (chan : MyChan) (f : Flags) (source mt : Option Entity) :
    Option Flags :=
  if test f caFounder then some cfg.caAll
  else if test f caAkick && source = mt then none
  else if source ≠ mt then some (allowFlags cfg chan f)
  else some f

/-! ### ACCESS DEL -/

def accessDelPlan (cfg : ChanConfig) (w : World) (db : ChanDb) (si : Source) (channel : CString)
    (parv : List CString) : Except (List Reply) AccessRequest :=
  match mychanFind cfg db channel with
  | none => .error [.fail .nosuchTarget notRegisteredChannel [channel]]
  | some (mc, chan) =>
    match parv with
    | [] => .error [.fail .needmoreparams insufficientParams ["ACCESS DEL".toList],
        .fail .needmoreparams "Syntax: ACCESS <#channel> DEL <account|hostmask>" []]
    | target :: _ =>
      if !chanacsSourceHasFlag cfg w db mc si caFlags &&
          si.entity db ≠ myentityFindExt cfg w db target then
        .error [.fail .noprivs notAuthorizedOperation []]
      else .ok ⟨mc, chan, channel, target, []⟩

def accessDelBody (cfg : ChanConfig) (w : World) (si : Source) (req : AccessRequest)
    (mt : Option Entity) (name : CString) (db : ChanDb) (ca : Chanacs) : EntryEnd EntryResult :=
  if ca.level = 0#32 then
    .close ca (.stopped (.success "No ACL entry for \x02%s\x02 in \x02%s\x02 was found."
      [name, req.channel]))
  else if test ca.level caFounder && mychanNumFounders db.acl req.mc = 1 then
    .leave (.stopped (.fail .noprivs lastFounder []))
  else
    match accessDelRestrict cfg req.chan (chanacsSourceFlags cfg w db req.mc si) (si.entity db) mt with
    | none => .leave (.stopped (.fail .noprivs notAuthorizedOperation []))
    | some restrictflags =>
      let m := chanacsModify w db ca ⟨0#32, ca.level⟩ restrictflags (si.entity db)
      if m.ok then .close m.ca (.changed ca.level m)
      else .leave (.stopped (.fail .noprivs
        "You may not remove \x02%s\x02 from the \x02%s\x02 role."
        [name, orNull (getTemplateName cfg req.chan ca.level)]))

def accessDelFinish (cfg : ChanConfig) (db : ChanDb) (si : Source) (req : AccessRequest)
    (mt : Option Entity) (name : CString) (oldlevel : Flags) : Option (List Reply) :=
  if mt.any (fun mt => mt.isuser && notifyCrashes cfg db si mt) then none
  else some [.success
    "\x02%s\x02 was removed from the access list of \x02%s\x02 (had role: \x02%s\x02)."
    [name, req.channel, orNull (getTemplateName cfg req.chan oldlevel)]]

def accessDelApply (cfg : ChanConfig) (w : World) (db : ChanDb) (si : Source)
    (req : AccessRequest) : Outcome :=
  let mt := myentityFindExt cfg w db req.target
  if validhostmask req.target then
    editEntry w db si req.mc (.host req.target) (accessDelBody cfg w si req mt req.target)
      (fun oldlevel _ => accessDelFinish cfg db si req mt req.target oldlevel)
  else
    match mt with
    | none => .done db [.fail .nosuchTarget notRegistered [req.target]]
    | some e =>
      editEntry w db si req.mc (.entity e) (accessDelBody cfg w si req (some e) (e.name db))
        (fun oldlevel _ => accessDelFinish cfg db si req (some e) (e.name db) oldlevel)

def csCmdAccessDel (cfg : ChanConfig) (w : World) (db : ChanDb) (si : Source) (channel : CString)
    (parv : List CString) : Outcome :=
  match accessDelPlan cfg w db si channel parv with
  | .error replies => .done db replies
  | .ok req => accessDelApply cfg w db si req

/-! ### ACCESS ADD and SET -/

def accessPlan (cfg : ChanConfig) (w : World) (db : ChanDb) (si : Source) (cmd syntaxLine : String)
    (channel : CString) (parv : List CString) : Except (List Reply) AccessRequest :=
  match mychanFind cfg db channel with
  | none => .error [.fail .nosuchTarget notRegisteredChannel [channel]]
  | some (mc, chan) =>
    match parv with
    | target :: role :: _ =>
      if !chanacsSourceHasFlag cfg w db mc si caFlags then
        .error [.fail .noprivs notAuthorizedOperation []]
      else if validhostmask target && cfg.minNonWildcardCharsHostAcl > 0 &&
          checkNotEnoughNonWildcardChars target cfg.minNonWildcardCharsHostAcl &&
          !w.hasPriv si "operserv:akill-anymask".toList then
        .error [.fail .badparams tooFewNonWildcards
          [target, natArg cfg.minNonWildcardCharsHostAcl]]
      else .ok ⟨mc, chan, channel, target, role⟩
    | _ => .error [.fail .needmoreparams insufficientParams [cmd.toList],
        .fail .needmoreparams syntaxLine []]

/-- Open the entry that the target of ADD or SET names and go on with `body`, which is
given the entity, if any, and the name it goes by from there on. -/
def accessApply (cfg : ChanConfig) (w : World) (db : ChanDb) (si : Source) (req : AccessRequest)
    (body : Option Entity → CString → ChanDb → Chanacs → EntryEnd EntryResult)
    (finish : Option Entity → CString → Flags → Modified → Option (List Reply)) : Outcome :=
  if validhostmask req.target then
    editEntry w db si req.mc (.host req.target) (body none req.target) (finish none req.target)
  else
    match myentityFindExt cfg w db req.target with
    | none => .done db [.fail .nosuchTarget notRegistered [req.target]]
    | some e =>
      editEntry w db si req.mc (.entity e) (body (some e) (e.name db)) (finish (some e) (e.name db))

def roleNotAllowed (name role : CString) : Reply :=
  .fail .noprivs "You may not add \x02%s\x02 to the \x02%s\x02 role." [name, role]

def roleChange (cfg : ChanConfig) (level newflags : Flags) : Change :=
  ⟨newflags &&& ~~~level, cfg.caAll &&& ~~~newflags⟩

/-- The end of ADD and SET, which differ in `refusal`, their checks on a new founder: the
restriction mask, those checks, and the change. -/
def accessRoleBody (refusal : ChanDb → MyChanRef → Option Entity → Option Reply)
    (cfg : ChanConfig) (w : World) (si : Source) (req : AccessRequest) (mt : Option Entity)
    (name : CString) (db : ChanDb) (ca : Chanacs) : EntryEnd EntryResult :=
  let newflags := getTemplateFlags cfg (some req.chan) req.role
  match accessRestrict cfg req.chan (chanacsSourceFlags cfg w db req.mc si) (si.entity db) mt with
  | none => .leave (.stopped (.fail .noprivs notAuthorizedOperation []))
  | some restrictflags =>
    match if !test ca.level caFounder && test newflags caFounder then
        refusal db req.mc mt else none with
    | some reply => .close ca (.stopped reply)
    | none =>
      let m := chanacsModify w db ca (roleChange cfg ca.level newflags) restrictflags
        (si.entity db)
      if m.ok then .close m.ca (.changed ca.level m)
      else .leave (.stopped (roleNotAllowed name req.role))

def accessAddBody (cfg : ChanConfig) (w : World) (si : Source) (req : AccessRequest)
    (mt : Option Entity) (name : CString) (db : ChanDb) (ca : Chanacs) : EntryEnd EntryResult :=
  let newflags := getTemplateFlags cfg (some req.chan) req.role
  if ca.level = 0#32 && chanacsIsTableFull cfg db.acl req.mc then
    .close ca (.stopped (.fail .toomany listFull [req.chan.name]))
  else if validhostmask name && test newflags cfg.flagsReqAcct then
    .leave (.stopped (.fail .badparams flagsRequireAccount
      [bitmaskToFlags cfg.flagConfig cfg.flagsReqAcct]))
  else if ca.level ≠ 0#32 then
    .close ca (.stopped (.fail .toomany
      "\x02%s\x02 already has the \x02%s\x02 role in \x02%s\x02."
      [name, (getTemplateName cfg req.chan ca.level).getD "<Custom>".toList, req.chan.name]))
  else if newflags = 0#32 then
    .close ca (.stopped (.fail .toomany "Role \x02%s\x02 does not exist." [req.role]))
  else
    accessRoleBody (founderRefusal cfg w) cfg w si req mt name db ca

def accessFinish (cfg : ChanConfig) (db : ChanDb) (si : Source) (req : AccessRequest)
    (mt : Option Entity) (name : CString) (m : Modified) (reply : Reply) : Option (List Reply) :=
  if bitmaskToFlags2 cfg.flagConfig m.change.add m.change.rem = [] then
    some [.fail .nochange unchangedAccess [req.channel, name]]
  else if mt.any (fun mt => mt.isuser && notifyCrashes cfg db si mt) then none
  else some [reply]

def accessAddFinish (cfg : ChanConfig) (db : ChanDb) (si : Source) (req : AccessRequest)
    (mt : Option Entity) (name : CString) (_oldlevel : Flags) (m : Modified) :
    Option (List Reply) :=
  accessFinish cfg db si req mt name m (.success
    "\x02%s\x02 was added to the access list of \x02%s\x02 with the \x02%s\x02 role."
    [name, req.channel, orNull (getTemplateName cfg req.chan
      (getTemplateFlags cfg (some req.chan) req.role))])

def csCmdAccessAdd (cfg : ChanConfig) (w : World) (db : ChanDb) (si : Source) (channel : CString)
    (parv : List CString) : Outcome :=
  match accessPlan cfg w db si "ACCESS ADD"
      "Syntax: ACCESS <#channel> ADD <account|hostmask> <role>" channel parv with
  | .error replies => .done db replies
  | .ok req =>
    accessApply cfg w db si req (accessAddBody cfg w si req) (accessAddFinish cfg db si req)

def setFounderRefusal (cfg : ChanConfig) (w : World) (db : ChanDb) (mc : MyChanRef)
    (mt : Option Entity) : Option Reply :=
  if mychanNumFounders db.acl mc ≥ cfg.maxfounders then
    some (.fail .noprivs "Only %d founder%s allowed per channel."
      [natArg cfg.maxfounders, if cfg.maxfounders = 1 then [] else ['s']])
  else
    match mt with
    | none => some (.fail .badparams founderOnHostmask [])
    | some mt =>
      -- no look at `myentity_allow_foundership` here
      if !myentityCanRegisterChannel cfg w db mt then
        some (.fail .toomany tooManyChannels [mt.name db])
      else none

def accessSetBody (cfg : ChanConfig) (w : World) (si : Source) (req : AccessRequest)
    (mt : Option Entity) (name : CString) (db : ChanDb) (ca : Chanacs) : EntryEnd EntryResult :=
  let newflags := getTemplateFlags cfg (some req.chan) req.role
  if ca.level = 0#32 && chanacsIsTableFull cfg db.acl req.mc then
    .close ca (.stopped (.fail .toomany "Channel \x02%s\x02 access list is full." [req.chan.name]))
  else if validhostmask name && test newflags cfg.flagsReqAcct then
    .leave (.stopped (.fail .badparams flagsRequireAccount
      [bitmaskToFlags cfg.flagConfig cfg.flagsReqAcct]))
  else if newflags = 0#32 then
    .close ca (.stopped (.fail .toomany "Role \x02%s\x02 does not exist." [req.role]))
  else if test ca.level caFounder && (!test newflags caFounder &&
      mychanNumFounders db.acl req.mc = 1) then
    .leave (.stopped (.fail .noprivs lastFounder []))
  else
    accessRoleBody (setFounderRefusal cfg w) cfg w si req mt name db ca

def accessSetFinish (cfg : ChanConfig) (db : ChanDb) (si : Source) (req : AccessRequest)
    (mt : Option Entity) (name : CString) (oldlevel : Flags) (m : Modified) :
    Option (List Reply) :=
  let newflags := getTemplateFlags cfg (some req.chan) req.role
  let templates := getTemplateNames cfg req.chan oldlevel newflags
  accessFinish cfg db si req mt name m
    (if oldlevel = 0#32 then
      .success "\x02%s\x02 now has the \x02%s\x02 role on: \x02%s\x02"
        [name, orNull templates.2, req.channel]
    else
      .success
        "\x02%s\x02 has been moved from the \x02%s\x02 role to the \x02%s\x02 role on: \x02%s\x02"
        [name, templates.1.getD "<Custom>".toList, orNull templates.2, req.channel])

def csCmdAccessSet (cfg : ChanConfig) (w : World) (db : ChanDb) (si : Source) (channel : CString)
    (parv : List CString) : Outcome :=
  match accessPlan cfg w db si "ACCESS SET"
      "Syntax: ACCESS <#channel> SET <account|hostmask> <role>" channel parv with
  | .error replies => .done db replies
  | .ok req =>
    accessApply cfg w db si req (accessSetBody cfg w si req) (accessSetFinish cfg db si req)

end ChatServices.ChanServ
