import ChatServices.ChanServ.Notices
import ChatServices.Lib.Turns

/-! `TEMPLATE` and `ROLE`: editing the flag templates of a channel, and bringing the
entries that have the old flags of a template to its new ones. -/
namespace ChatServices.ChanServ
open ChatServices.Lib ChatServices.Lib.Mask ChatServices.Lib.MaskUpdate ChatServices.Text

/-- The loop over the entries with the level `oldflags`, each put to `newflags`. -/
def updateMatching (cfg : ChanConfig) (w : World) (db : ChanDb) (si : Source) (mc : MyChanRef)
    (oldflags newflags : Flags) : AccessList :=
  db.acl.update fun k ca =>
    if k.1 = mc ∧ ca.level = oldflags then
      let ca := chanacsModifySimple cfg w db ca ⟨newflags, ~~~newflags⟩ (si.entity db)
      if ca.level = 0#32 then none else some ca
    else some ca

/-- One entry of the list as a turn of the loop leaves it. An entry at 0 is closed, but a notice takes
no heed of it anyway. -/
def turnDone (cfg : ChanConfig) (w : World) (db : ChanDb) (si : Source) (oldflags newflags : Flags)
    (e : Target × Chanacs) : Target × Chanacs :=
  if e.2.level = oldflags then
    (e.1, chanacsModifySimple cfg w db e.2 ⟨newflags, ~~~newflags⟩ (si.entity db))
  else e

/-- The notices of a turn, for the account that is found by `ca->entity->name`. -/
def turnCrashes (cfg : ChanConfig) (db : ChanDb) (si : Source) (chan : MyChan) (newflags : Flags)
    (flagstr : CString) (rows : List (Target × Flags)) : Target → Bool
  | .host _ => true
  | .entity mt =>
    match si.smu db, myuserFind cfg.toConfig db.accounts (mt.name db) with
    | some smu, some tmu => aclNoticesCrash cfg db chan rows smu tmu flagstr newflags
    | _, _ => true

/-- An access list as the notices read it. -/
def aclRows (l : List (Target × Chanacs)) : List (Target × Flags) := l.map fun e => (e.1, e.2.level)

/-- The loop tells of every entry it changes, with the entries so far at their new levels. -/
def updateCrashes (cfg : ChanConfig) (w : World) (db : ChanDb) (si : Source) (mc : MyChanRef)
    (chan : MyChan) (oldflags newflags : Flags) (flagstr : CString) : Bool :=
  let put := turnDone cfg w db si oldflags newflags
  anyTurn put (fun done e rest => e.2.level = oldflags &&
    turnCrashes cfg db si chan newflags flagstr (aclRows (done ++ put e :: rest)) e.1)
    [] (chanacsOf db.acl mc)

def countMatching (db : ChanDb) (mc : MyChanRef) (oldflags : Flags) : Nat :=
  (chanacsOf db.acl mc).countP (fun e => e.2.level = oldflags)

def entries (n : Nat) : List CString := [natArg n, if n = 1 then ['y'] else "ies".toList]

def putChan (mc : MyChanRef) (chan : MyChan) (db : ChanDb) : ChanDb :=
  { db with chans := db.chans.set mc chan }

/-! ### ROLE -/

/-- A ROLE command that may go on; `restrictflags` bounds what the source may set. -/
structure RoleRequest where
  mc : MyChanRef
  chan : MyChan
  role : CString
  changes : List CString
  restrictflags : Flags

def templateRestrict (cfg : ChanConfig) (chan : MyChan) (f : Flags) : Flags :=
  if test f caFounder then cfg.caAll else allowFlags cfg chan f

def rolePlan (cfg : ChanConfig) (w : World) (db : ChanDb) (si : Source) (cmd syntaxLine : String)
    (channel : CString) (parv : List CString) : Except (List Reply) RoleRequest :=
  match mychanFind cfg db channel with
  | none => .error [.fail .nosuchTarget notRegisteredChannel [channel]]
  | some (mc, chan) =>
    match parv with
    | [] => .error [.fail .needmoreparams insufficientParams [cmd.toList],
        .fail .needmoreparams syntaxLine []]
    | role :: changes =>
      if !chanacsSourceHasFlag cfg w db mc si caFlags then
        .error [.fail .noprivs notAuthorizedOperation []]
      else
        .ok ⟨mc, chan, role, changes,
          templateRestrict cfg chan (chanacsSourceFlags cfg w db mc si)⟩

def xflagApplyBatch (fc : FlagConfig) (flags : Flags) (changes : List CString) : Flags :=
  changes.foldl (xflagApply fc) flags

def roleText (cfg : ChanConfig) (chan : MyChan) (role : CString) (flags : Flags) : CString :=
  let flagstr := bitmaskToFlags2 cfg.flagConfig flags 0#32
  match (templateItems (chan.templates.getD [])).find? (fun i => strcaseEq role i.name) with
  | some item =>
    rewriteTemplate (chan.templates.getD []) item role (if flags = 0#32 then none else some flagstr)
  | none => appendTemplate chan.templates role flagstr

/-- `update_role_entry`; `said` is what the command has answered before. -/
def updateRoleEntry (cfg : ChanConfig) (w : World) (db : ChanDb) (si : Source)
    (req : RoleRequest) (flags : Flags) (said : Reply) : Outcome :=
  let oldflags := getTemplateFlags cfg (some req.chan) req.role
  let newstr := roleText cfg req.chan req.role flags
  if oldflags = 0#32 && hasCtrlChars req.role then
    .done db [said, .fail .badparams "Invalid template name \x02%s\x02." [req.role]]
  else if newstr.length ≥ 300 then
    .done db [said, .fail .toomany "Sorry, too many templates on \x02%s\x02." [req.chan.name]]
  else
    let chan := setTemplates newstr req.chan
    let db := putChan req.mc chan db
    -- an entry with the old flags keeps them if the change is about foundership
    if flags = 0#32 ∨ test (oldflags ^^^ flags) caFounder then .done db [said]
    else if updateCrashes cfg w db si req.mc chan oldflags flags
        (bitmaskToFlags2 cfg.flagConfig flags 0#32) then .crash
    else
      let changes := countMatching db req.mc oldflags
      .done { db with acl := updateMatching cfg w db si req.mc oldflags flags }
        (said :: if changes > 0 then
          [.success "%d access entr%s updated accordingly for %s on: %s"
            (entries changes ++ [req.role, req.chan.name])]
        else [])

def roleSetFlags (cfg : ChanConfig) (w : World) (db : ChanDb) (si : Source) (req : RoleRequest)
    (oldflags newflags : Flags) : Outcome :=
  let newflags := if test newflags caFounder then newflags ||| caFlags else newflags
  if newflags = 0#32 then
    .done db [if oldflags = 0#32 then
      .fail .badparams "No valid flags given, use /%s%s HELP ROLE ADD for a list"
        [rcommandPrefix cfg, cfg.disp]
    else
      .fail .nosuchTarget "You cannot remove all flags from the role \x02%s\x02." [req.role]]
  else
    match (buildTemplateList cfg req.chan).find? (fun t => t.level = newflags) with
    | some t => .done db [.fail .alreadyexists
        "The role \x02%s\x02 already has flags \x02%s\x02."
        [t.name, xflagTostr cfg.flagConfig newflags]]
    | none =>
      updateRoleEntry cfg w db si req newflags
        (.success "Flags for role \x02%s\x02 were changed to: \x02%s\x02."
          [req.role, xflagTostr cfg.flagConfig newflags])

def roleSyntax : String := "Syntax: ROLE <#channel> ADD|SET <role> [flags]"

def csCmdRoleAdd (cfg : ChanConfig) (w : World) (db : ChanDb) (si : Source) (channel : CString)
    (parv : List CString) : Outcome :=
  match rolePlan cfg w db si "ROLE ADD|SET" roleSyntax channel parv with
  | .error replies => .done db replies
  | .ok req =>
    let oldflags := getTemplateFlags cfg (some req.chan) req.role
    if oldflags ≠ 0#32 then
      .done db [.fail .badparams "Role \x02%s\x02 already exists." [req.role]]
    else
      let newflags := xflagApplyBatch cfg.flagConfig oldflags req.changes
      if test newflags (~~~req.restrictflags) then
        .done db [.fail .badparams
          "You do not have appropriate permissions to add flags: \x02%s\x02"
          [xflagTostr cfg.flagConfig (newflags &&& ~~~req.restrictflags)]]
      else roleSetFlags cfg w db si req oldflags newflags

def csCmdRoleSet (cfg : ChanConfig) (w : World) (db : ChanDb) (si : Source) (channel : CString)
    (parv : List CString) : Outcome :=
  match rolePlan cfg w db si "ROLE ADD|SET" roleSyntax channel parv with
  | .error replies => .done db replies
  | .ok req =>
    let oldflags := getTemplateFlags cfg (some req.chan) req.role
    if oldflags = 0#32 then
      .done db [.fail .nosuchTarget "Role \x02%s\x02 does not exist." [req.role]]
    else
      let newflags := xflagApplyBatch cfg.flagConfig oldflags req.changes
      if test (oldflags ||| newflags) (~~~req.restrictflags) then
        .done db [.fail .badparams
          "You do not have appropriate permissions to set flags: \x02%s\x02"
          [xflagTostr cfg.flagConfig ((oldflags ||| newflags) &&& ~~~req.restrictflags)]]
      else if test (oldflags ^^^ newflags) caFounder then
        .done db [.fail .unimplemented
          "Adding or removing founder status from a role is not implemented." []]
      else roleSetFlags cfg w db si req oldflags newflags

def csCmdRoleDel (cfg : ChanConfig) (w : World) (db : ChanDb) (si : Source) (channel : CString)
    (parv : List CString) : Outcome :=
  match rolePlan cfg w db si "ROLE DEL" "Syntax: ROLE <#channel> DEL <role>" channel parv with
  | .error replies => .done db replies
  | .ok req =>
    let oldflags := getTemplateFlags cfg (some req.chan) req.role
    if oldflags = 0#32 then
      .done db [.fail .toomany "Role \x02%s\x02 does not exist." [req.role]]
    else if test oldflags (~~~req.restrictflags) then
      .done db [.fail .badparams
        "You do not have appropriate permissions to set flags: \x02%s\x02"
        [xflagTostr cfg.flagConfig (oldflags &&& ~~~req.restrictflags)]]
    else
      updateRoleEntry cfg w db si req 0#32
        (.success "Role \x02%s\x02 has been deleted." [req.role])

/-! ### TEMPLATE -/

structure TemplateEdit where
  oldflags : Flags
  newflags : Flags
  change : Change
  denied : Bool
  newstr : CString
  /-- a built-in template is defined anew for the channel -/
  redefining : Bool

def templateDenied (restrictflags oldflags : Flags) (c : Change) : Bool :=
  test (~~~restrictflags) c.add || test (~~~restrictflags) c.rem || test (~~~restrictflags) oldflags

def isXop (name : CString) : Bool :=
  ["SOP", "AOP", "HOP", "VOP"].any (fun x => strcaseEq name x.toList)

def templateEdit (cfg : ChanConfig) (chan : MyChan) (target : CString) (c : Change)
    (restrictflags : Flags) : TemplateEdit :=
  let fc := cfg.flagConfig
  let text := chan.templates.getD []
  match (templateItems text).find? (fun i => strcaseEq target i.name) with
  | some item =>
    let oldflags := item.flags fc
    let done : Change := ⟨added oldflags c.add, removed oldflags c.add c.rem⟩
    if done.add ||| done.rem = 0#32 then ⟨oldflags, 0#32, done, false, truncate 400 text, false⟩
    else if templateDenied restrictflags oldflags done then
      ⟨oldflags, 0#32, done, true, truncate 400 text, false⟩
    else
      let newflags := (oldflags ||| done.add) &&& ~~~done.rem
      ⟨oldflags, newflags, done, false,
        rewriteTemplate text item target
          (if newflags = 0#32 then none else some (bitmaskToFlags fc newflags)), false⟩
  | none =>
    let xop := !cfg.hideXop && isXop target
    let oldflags := if xop then getTemplateFlags cfg none target else 0#32
    let addflags := added oldflags c.add
    let removeflags := removed oldflags c.add c.rem
    let newflags := (oldflags ||| addflags) &&& ~~~removeflags
    let done : Change := ⟨addflags, if newflags = 0#32 then 0#32 else removeflags⟩
    let denied := done.add ||| done.rem ≠ 0#32 && templateDenied restrictflags oldflags done
    ⟨oldflags, newflags, done, denied,
      appendTemplate chan.templates target (bitmaskToFlags fc newflags),
      xop && done.add ||| done.rem ≠ 0#32⟩

structure TemplateRequest where
  mc : MyChanRef
  chan : MyChan
  target : CString
  restrictflags : Flags
  /-- the `!` in front of the flags -/
  changechanacs : Bool
  change : Change

/-- `CA_FOUNDER` comes with `CA_FLAGS` and goes with it. -/
def templateFounderRule (c : Change) : Change :=
  if test c.add caFounder then ⟨c.add ||| caFlags, c.rem &&& ~~~caFlags⟩
  else if test c.rem caFlags then ⟨c.add &&& ~~~caFounder, c.rem ||| caFounder⟩
  else c

/-- A leading `!` before a flag string asks for the entries to follow the template. -/
def splitChangechanacs : CString → Bool × CString
  | '!' :: flagstr => if isFlagString flagstr then (true, flagstr) else (false, '!' :: flagstr)
  | flagstr => (false, flagstr)

def templateChange (cfg : ChanConfig) (chan : MyChan) (flagstr : CString) : Except Reply Change :=
  if isFlagString flagstr then
    let c := flagsMakeBitmasks cfg.flagConfig flagstr
    if c.add = 0#32 ∧ c.rem = 0#32 then
      .error (.fail .badparams "No valid flags given, use /%s%s HELP FLAGS for a list"
        [rcommandPrefix cfg, cfg.disp])
    else .ok (templateFounderRule c)
  else
    let addflags := getTemplateFlags cfg (some chan) flagstr
    if addflags = 0#32 then
      .error (.fail .nosuchKey "Invalid template name given, use /%s%s TEMPLATE %s for a list"
        [rcommandPrefix cfg, cfg.disp, chan.name])
    else .ok (templateFounderRule ⟨addflags, cfg.caAll &&& ~~~addflags⟩)

def templateList (cfg : ChanConfig) (w : World) (db : ChanDb) (si : Source) (mc : MyChanRef)
    (chan : MyChan) : List Reply :=
  if !test chan.flags mcPubacl && !chanacsSourceHasFlag cfg w db mc si caAclview &&
      !w.hasPriv si "chan:auspex".toList then
    [.fail .noprivs notAuthorizedOperation []]
  else if chan.closed && !w.hasPriv si "chan:auspex".toList then
    [.fail .noprivs "\x02%s\x02 is closed." [chan.name]]
  else
    match chan.templates with
    | none => [.success "No templates set on channel \x02%s\x02." [chan.name]]
    | some text =>
      (templateItems text).map (fun i => .success "%-20.*s %.*s" [i.name, i.value.drop 1]) ++
        [.success "End of \x02%s\x02 TEMPLATE listing." [chan.name]]

def listGenericFlags (cfg : ChanConfig) : List Reply :=
  let shown := cfg.globalTemplates.filter fun t =>
    !(t.2 &&& cfg.caAll = getGlobalTemplateFlags cfg "VOP".toList && strcaseEq t.1 "HOP".toList)
  shown.map (fun t => .success "%-20s %s" [t.1, bitmaskToFlags cfg.flagConfig (t.2 &&& cfg.caAll)]) ++
    [.success "End of network wide template list." []]

def templatePlan (cfg : ChanConfig) (w : World) (db : ChanDb) (si : Source)
    (parv : List CString) : Except (List Reply) TemplateRequest :=
  match parv with
  | [] => .error (listGenericFlags cfg)
  | channel :: params =>
    match mychanFind cfg db channel with
    | none => .error [.fail .nosuchTarget notRegisteredChannel [channel]]
    | some (mc, chan) =>
      match params with
      | [] => .error (templateList cfg w db si mc chan)
      | target :: params =>
        let f := chanacsSourceFlags cfg w db mc si
        if (si.smu db).isNone then .error [.fail .noprivs "You are not logged in." []]
        else if !test f caFounder && !test f caFlags then
          .error [.fail .noprivs notAuthorizedCommand []]
        else if chan.closed then .error [.fail .noprivs "\x02%s\x02 is closed." [chan.name]]
        else
          match params with
          | [] => .error [.fail .needmoreparams "Usage: TEMPLATE %s [target flags]" [chan.name]]
          | flagstr :: _ =>
            if isFlagString target then
              .error [.fail .badparams "Invalid template name \x02%s\x02." [target]]
            else
              match templateChange cfg chan (splitChangechanacs flagstr).2 with
              | .error r => .error [r]
              | .ok c =>
                .ok ⟨mc, chan, target, templateRestrict cfg chan f,
                  (splitChangechanacs flagstr).1, c⟩

def templateRefusal (cfg : ChanConfig) (req : TemplateRequest) (e : TemplateEdit) : Option Reply :=
  if e.oldflags = 0#32 && hasCtrlChars req.target then
    some (.fail .badparams "Invalid template name \x02%s\x02." [req.target])
  else if e.change.add ||| e.change.rem = 0#32 then
    if e.oldflags ≠ 0#32 then
      some (.fail .nochange "Template \x02%s\x02 on \x02%s\x02 unchanged."
        [req.target, req.chan.name])
    else
      some (.fail .nosuchKey "No such template \x02%s\x02 on \x02%s\x02."
        [req.target, req.chan.name])
  else if e.denied then
    some (.fail .noprivs
      "You are not allowed to set \x02%s\x02 on template \x02%s\x02 in \x02%s\x02."
      [bitmaskToFlags2 cfg.flagConfig e.change.add e.change.rem, req.target, req.chan.name])
  else if e.newstr.length ≥ 300 then
    some (.fail .toomany "Sorry, too many templates on \x02%s\x02." [req.chan.name])
  else
    ((templateItems (req.chan.templates.getD [])).find? fun i =>
      flagsToBitmask cfg.flagConfig (truncate 40 (i.value.drop 1)) 0#32 = e.newflags).map
        fun i => .fail .alreadyexists
          "The template \x02%.*s\x02 already has flags \x02%.*s\x02." [i.name, i.value.drop 1]

def templateReply (cfg : ChanConfig) (req : TemplateRequest) (e : TemplateEdit) : Reply :=
  if e.oldflags = 0#32 then
    .success "Added template \x02%s\x02 with flags \x02%s\x02 in: \x02%s\x02"
      [req.target, bitmaskToFlags cfg.flagConfig e.newflags, req.chan.name]
  else if e.newflags = 0#32 then
    .success "Removed template \x02%s\x02 from: \x02%s\x02" [req.target, req.chan.name]
  else
    .success "Changed template \x02%s\x02 to \x02%s\x02 in: \x02%s\x02"
      [req.target, bitmaskToFlags cfg.flagConfig e.newflags, req.chan.name]

/-- `description`, which the management gets to hear. -/
def templateEvent (cfg : ChanConfig) (req : TemplateRequest) (e : TemplateEdit) : CString :=
  truncate 300 <|
    if e.oldflags = 0#32 then
      "Added flag template ".toList ++ bold req.target ++ " (flags: ".toList ++
        bitmaskToFlags cfg.flagConfig e.newflags ++ [')']
    else if e.newflags = 0#32 then "Removed flag template: ".toList ++ bold req.target
    else
      "Set flag template ".toList ++ bold req.target ++ " to: ".toList ++
        bitmaskToFlags cfg.flagConfig e.newflags

def templateApply (cfg : ChanConfig) (w : World) (db : ChanDb) (si : Source)
    (req : TemplateRequest) : Outcome :=
  let e := templateEdit cfg req.chan req.target req.change req.restrictflags
  let said := if e.redefining then
    [.success "Redefining built-in template \x02%s\x02." [req.target]] else []
  match templateRefusal cfg req e with
  | some reply => .done db (said ++ [reply])
  | none =>
    let chan := setTemplates e.newstr req.chan
    let db := putChan req.mc chan db
    let said := said ++ [templateReply cfg req e]
    if miscNoticesCrash db chan (aclRows (chanacsOf db.acl req.mc)) (si.smu db)
        (templateEvent cfg req e) then .crash
    else if !req.changechanacs then .done db said
    else
      let matching := countMatching db req.mc e.oldflags
      if test (e.change.add ||| e.change.rem) caFounder then
        .done db (said ++ [.success "%d access entr%s updated accordingly." (entries 0)] ++
          if matching > 0 then
            [.success ("Not updating %d access entr%s involving founder status. " ++
              "Please do it manually.") (entries matching)]
          else [])
      else if updateCrashes cfg w db si req.mc chan e.oldflags e.newflags
          (bitmaskToFlags2 cfg.flagConfig e.change.add e.change.rem) then .crash
      else
        .done { db with acl := updateMatching cfg w db si req.mc e.oldflags e.newflags }
          (said ++ [.success "%d access entr%s updated accordingly." (entries matching)])

def csCmdTemplate (cfg : ChanConfig) (w : World) (db : ChanDb) (si : Source)
    (parv : List CString) : Outcome :=
  match templatePlan cfg w db si parv with
  | .error replies => .done db replies
  | .ok req => templateApply cfg w db si req

end ChatServices.ChanServ
