import ChatServices.ChanServ.Command

/-! `FLAGS <channel> [target] [flags]`: who may change what, what the flag string asks
for, and the change of the one entry that the target names. -/
namespace ChatServices.ChanServ
open ChatServices.Lib ChatServices.Lib.Mask ChatServices.Text

/-- `check_self_match`: the target is spelled like a nick of the account. -/
def checkSelfMatch (cfg : ChanConfig) (db : ChanDb) (target : CString) (mu : Option MyUserRef) :
    Bool :=
  mu.any fun mu =>
    db.accounts.nicks.any (fun mn => mn.owner = mu && irccaseEq cfg.casemapping target mn.nick)

structure FlagsRequest where
  mc : MyChanRef
  chan : MyChan
  channel : CString
  target : CString
  flagstr : CString
  restrictflags : Flags
  selfautomode : Bool
  change : Change

def notAkicked (f : Flags) : Bool :=
  !(test f caAkick && !test f caExempt && !test f caRemove)

def maySelfAutomode (cfg : ChanConfig) (f : Flags) : Bool :=
  notAkicked f &&
    (test f caOp || (cfg.flagConfig.usesHalfops && test f caHalfop) || test f caVoice)

/-- The restriction mask of a source with the flags `f`, and whether the self-automode
shortcut was taken; `self` is the answer of `check_self_match`. -/
def flagsRestrict (cfg : ChanConfig) (chan : MyChan) (f : Flags) (self : Bool)
    (flagstr : CString) : Option (Flags × Bool) :=
  if test f caFounder then some (cfg.caAll, false)
  else if !test f caFlags && (cfg.permitSelfAutoop && self && maySelfAutomode cfg f) then
    some (f, true)
  else if !test f caFlags && (test f caAkick || !self || flagstr ≠ "-*".toList) then none
  else if !self then some (allowFlags cfg chan f, false)
  else some (f ||| allowFlags cfg chan f, false)

def flagsChange (cfg : ChanConfig) (chan : MyChan) (target flagstr : CString) :
    Except Reply Change :=
  if isFlagString flagstr then
    let c := flagsMakeBitmasks cfg.flagConfig flagstr
    if c.add = 0#32 ∧ c.rem = 0#32 then
      .error (.fail .badparams "No valid flags given, use /%s%s HELP FLAGS for a list"
        [rcommandPrefix cfg, cfg.disp])
    else .ok c
  else
    let addflags := getTemplateFlags cfg (some chan) flagstr
    if addflags = 0#32 then
      if isFlagString target then
        .error (.fail .badparams "Usage: FLAGS %s [target] [flags]" [chan.name])
      else
        .error (.fail .badparams "Invalid template name given, use /%s%s TEMPLATE %s for a list"
          [rcommandPrefix cfg, cfg.disp, chan.name])
    else .ok ⟨addflags, cfg.caAll &&& ~~~addflags⟩

/-- `do_list`, without the column widths and the dates. -/
def flagsList (cfg : ChanConfig) (w : World) (db : ChanDb) (si : Source) (mc : MyChanRef)
    (chan : MyChan) (flags : Flags) : List Reply :=
  if !test chan.flags mcPubacl && !chanacsSourceHasFlag cfg w db mc si caAclview &&
      !w.hasPriv si "chan:auspex".toList then
    [.fail .noprivs notAuthorizedOperation []]
  else
    .success "FLAGS list for: \x02%s\x02" [chan.name] ::
      ((chanacsOf db.acl mc).filter (fun e => flags = 0#32 || test e.2.level flags)).map
        (fun e => .success "%s %s (%s) (%s)" [e.1.name db, bitmaskToFlags cfg.flagConfig e.2.level,
          (getTemplateName cfg chan e.2.level).getD "<Custom>".toList, chan.name])

def flagsQuery (cfg : ChanConfig) (w : World) (db : ChanDb) (si : Source) (mc : MyChanRef)
    (chan : MyChan) (channel target : CString) : Reply :=
  let answer (ca : Option Chanacs) (name : CString) : Reply :=
    match ca with
    | some ca => .success "Flags for \x02%s\x02 in \x02%s\x02 are \x02%s\x02."
        [name, channel, bitmaskToFlags2 cfg.flagConfig ca.level 0#32]
    | none => .success "No flags for \x02%s\x02 in \x02%s\x02." [name, channel]
  if !test chan.flags mcPubacl && !chanacsSourceHasFlag cfg w db mc si caAclview then
    .fail .noprivs notAuthorizedCommand []
  else if validhostmask target then
    answer ((chanacsFindHostLiteral db.acl mc target 0#32).map Prod.snd) target
  else
    match myentityFindExt cfg w db target with
    | none => .fail .nosuchTarget notRegistered [target]
    | some mt => answer (chanacsFindLiteral db.acl mc mt 0#32) (mt.name db)

def flagsPlan (cfg : ChanConfig) (w : World) (db : ChanDb) (si : Source) (parv : List CString) :
    Except (List Reply) FlagsRequest :=
  match parv with
  | [] => .error [.fail .needmoreparams insufficientParams ["FLAGS".toList],
      .fail .needmoreparams "Syntax: FLAGS <channel> [target] [flags]" []]
  | channel :: params =>
    match mychanFind cfg db channel with
    | none => .error [.fail .nosuchTarget notRegisteredChannel [channel]]
    | some (mc, chan) =>
      if chan.closed && (params ≠ [] || !w.hasPriv si "chan:auspex".toList) then
        .error [.fail .noprivs "\x02%s\x02 is closed." [channel]]
      else
        match params with
        | [] => .error (flagsList cfg w db si mc chan 0#32)
        | [target] =>
          if target.head? = some '+' then
            .error (flagsList cfg w db si mc chan (flagsToBitmask cfg.flagConfig target 0#32))
          else if (si.smu db).isNone then .error [.fail .noprivs "You are not logged in." []]
          else .error [flagsQuery cfg w db si mc chan channel target]
        | target :: flagstr :: _ =>
          if (si.smu db).isNone then .error [.fail .noprivs "You are not logged in." []]
          else
            match flagsRestrict cfg chan (chanacsSourceFlags cfg w db mc si)
                (checkSelfMatch cfg db target (si.smu db)) flagstr with
            | none => .error [.fail .noprivs notAuthorizedCommand []]
            | some (restrictflags, selfautomode) =>
              match flagsChange cfg chan target flagstr with
              | .error r => .error [r]
              | .ok c =>
                .ok ⟨mc, chan, channel, target, flagstr, restrictflags, selfautomode, c⟩

def autoRestrict (level : Flags) (c : Change) (restrictflags : Flags) : Flags :=
  let touched := c.add ||| c.rem
  let r := if test level caOp && test touched caAutoop then restrictflags ||| caAutoop
    else restrictflags
  let r := if test level caHalfop && test touched caAutohalfop then r ||| caAutohalfop else r
  if test level caVoice && test touched caAutovoice then r ||| caAutovoice else r

def FlagsRequest.entityRestrict (req : FlagsRequest) (level : Flags) (c : Change) : Flags :=
  if req.selfautomode then autoRestrict level c req.restrictflags else req.restrictflags

/-- A new founder gets `CA_FLAGS` as well. -/
def founderGetsFlags (c : Change) : Change :=
  if test c.add caFounder then ⟨c.add ||| caFlags, c.rem &&& ~~~caFlags⟩ else c

/-- NEVEROP: the account takes no new entry but a sole `CA_AKICK`. -/
def neveropRefuses (db : ChanDb) (mt : Entity) (level addflags : Flags) : Bool :=
  match mt with
  | .user mu =>
    ((db.accounts.get mu).map (fun m => test m.flags muNeverop)).getD false &&
      (addflags ≠ caAkick && addflags ≠ 0#32 && (level = 0#32 || level = caAkick))
  | _ => false

def flagsNotAllowed (cfg : ChanConfig) (chan : MyChan) (name : CString) (c : Change) : Reply :=
  .fail .noprivs "You are not allowed to set \x02%s\x02 on \x02%s\x02 in \x02%s\x02."
    [bitmaskToFlags2 cfg.flagConfig c.add c.rem, name, chan.name]

def flagsEntityBody (cfg : ChanConfig) (w : World) (si : Source) (req : FlagsRequest) (mt : Entity)
    (db : ChanDb) (ca : Chanacs) : EntryEnd EntryResult :=
  let c := req.change
  if test ca.level caFounder && (test c.rem caFlags && !test c.rem caFounder) then
    .leave (.stopped (.fail .noprivs "You may not remove a founder's +f access." []))
  else if test ca.level caFounder &&
      (test c.rem caFounder && mychanNumFounders db.acl req.mc = 1) then
    .leave (.stopped (.fail .noprivs lastFounder []))
  else
    match if !test ca.level caFounder && test c.add caFounder then
        founderRefusal cfg w db req.mc (some mt) else none with
    | some reply => .close ca (.stopped reply)
    | none =>
      let c := founderGetsFlags c
      if neveropRefuses db mt ca.level c.add then
        .close ca (.stopped (.fail .noprivs
          "\x02%s\x02 does not wish to be added to channel access lists (NEVEROP set)."
          [mt.name db]))
      else if ca.level = 0#32 && chanacsIsTableFull cfg db.acl req.mc then
        .close ca (.stopped (.fail .toomany listFull [req.chan.name]))
      else
        let m := chanacsModify w db ca c (req.entityRestrict ca.level c) (si.entity db)
        if m.ok then .close m.ca (.changed ca.level m)
        else .close ca (.stopped (flagsNotAllowed cfg req.chan (mt.name db) m.change))

def flagsHostRefusal (cfg : ChanConfig) (w : World) (si : Source) (req : FlagsRequest) :
    Option Reply :=
  if cfg.minNonWildcardCharsHostAcl > 0 &&
      checkNotEnoughNonWildcardChars req.target cfg.minNonWildcardCharsHostAcl &&
      (req.target.contains '*' || req.target.contains '?') &&
      !w.hasPriv si "operserv:akill-anymask".toList then
    some (.fail .badparams tooFewNonWildcards [req.target, natArg cfg.minNonWildcardCharsHostAcl])
  else if test req.change.add caFounder then some (.fail .badparams founderOnHostmask [])
  else if test req.change.add cfg.flagsReqAcct then
    some (.fail .badparams flagsRequireAccount [bitmaskToFlags cfg.flagConfig cfg.flagsReqAcct])
  else none

def flagsHostBody (cfg : ChanConfig) (w : World) (si : Source) (req : FlagsRequest)
    (db : ChanDb) (ca : Chanacs) : EntryEnd EntryResult :=
  if ca.level = 0#32 && chanacsIsTableFull cfg db.acl req.mc then
    .close ca (.stopped (.fail .toomany listFull [req.chan.name]))
  else
    let m := chanacsModify w db ca req.change req.restrictflags (si.entity db)
    if m.ok then .close m.ca (.changed ca.level m)
    else .close ca (.stopped (flagsNotAllowed cfg req.chan req.target m.change))

def flagsReply (cfg : ChanConfig) (req : FlagsRequest) (name : CString) (oldlevel : Flags)
    (m : Modified) : Reply :=
  let newlevel := m.ca.level
  let templates :=
    if oldlevel = 0#32 ∧ newlevel = 0#32 then (none, none)
    else if oldlevel = 0#32 then (none, getTemplateName cfg req.chan newlevel)
    else if newlevel = 0#32 then (getTemplateName cfg req.chan oldlevel, none)
    else getTemplateNames cfg req.chan oldlevel newlevel
  if m.change.add ||| m.change.rem = 0#32 then
    .fail .nochange unchangedAccess [req.channel, name]
  else
    .success ("Flags \x02%s\x02 (Old template: \x02%s\x02 New template: \x02%s\x02) " ++
        "were set on \x02%s\x02 in \x02%s\x02.")
      [bitmaskToFlags2 cfg.flagConfig m.change.add m.change.rem,
        templates.1.getD "<No template>".toList, templates.2.getD "<No template>".toList, name,
        req.channel]

def flagsApply (cfg : ChanConfig) (w : World) (db : ChanDb) (si : Source) (req : FlagsRequest) :
    Outcome :=
  if validhostmask req.target then
    match flagsHostRefusal cfg w si req with
    | some reply => .done db [reply]
    | none =>
      editEntry w db si req.mc (.host req.target) (flagsHostBody cfg w si req)
        (fun oldlevel m => some [flagsReply cfg req req.target oldlevel m])
  else
    match myentityFindExt cfg w db req.target with
    | none => .done db [.fail .nosuchTarget notRegistered [req.target]]
    | some mt =>
      editEntry w db si req.mc (.entity mt) (flagsEntityBody cfg w si req mt) fun oldlevel m =>
        if mt.isuser && m.change.add ||| m.change.rem ≠ 0#32 && notifyCrashes cfg db si mt then none
        else some [flagsReply cfg req (mt.name db) oldlevel m]

def csCmdFlags (cfg : ChanConfig) (w : World) (db : ChanDb) (si : Source) (parv : List CString) :
    Outcome :=
  match flagsPlan cfg w db si parv with
  | .error replies => .done db replies
  | .ok req => flagsApply cfg w db si req

end ChatServices.ChanServ
