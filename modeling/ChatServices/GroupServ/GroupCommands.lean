import ChatServices.ChanServ.Channels
import ChatServices.ChanServ.Notices
import ChatServices.GroupServ.GroupTemplates

/-! The commands of GroupServ that work on access lists: `FLAGS`, `FFLAGS`, `TEMPLATE`, `JOIN`,
`INVITE`, `SET`, `REGISTER`, `DROP`, `FDROP`, and the hourly expiry. What `myentity_find_ext` makes of
a name depends on who is online and comes with the command. -/
namespace ChatServices.GroupServ
open ChatServices.Lib ChatServices.Lib.Mask ChatServices.Text
open ChatServices.ChanServ (Reply insufficientParams isFlagString bold noticeCrashes Plain templateItems)
open ChatServices.Cidr (atoi)

/-- How a command ends. `crash` is a NULL pointer followed, or a text with a conversion in it used as
a format. -/
inductive Outcome where
  | crash
  | done (s : Groups) (replies : List Reply)

def notAuthorized : Reply :=
  .fail .noprivs "You are not authorized to perform this operation." []

def notAuthorizedCommand : Reply :=
  .fail .noprivs "You are not authorized to execute this command." []

def notLoggedIn : Reply := .fail .noprivs "You are not logged in." []

def noSuchGroup (name : CString) : Reply :=
  .fail .nosuchTarget "The group \x02%s\x02 does not exist." [name]

def notRegisteredAccount (name : CString) : Reply :=
  .fail .nosuchTarget "\x02%s\x02 is not a registered account." [name]

def syntaxReplies (command syntaxLine : String) : List Reply :=
  [.fail .needmoreparams insufficientParams [command.toList],
    .fail .needmoreparams syntaxLine []]

def auspex : CString := "group:auspex".toList

def entityName (s : Groups) : Entity → CString
  | .user mu => ((s.accounts.find mu).map Account.name).getD []
  | .group mg => ((s.groups.find mg).map Group.name).getD []
  | .ext e => (s.exts.find e).getD []

def accountHas (s : Groups) (mt : Entity) (flag : Flags) : Bool :=
  match mt with
  | .user mu => (s.accounts.find mu).any fun a => test a.flags flag
  | _ => false

/-! ### FLAGS and FFLAGS -/

/-- A request to bring the flags of one entry, if there is one, from `oldflags` to `flags`. -/
structure FlagsRequest where
  mg : GroupRef
  group : Group
  mt : Entity
  ga : Option AcsRef
  oldflags : Flags
  flags : Flags

def askedFlags (group : Group) (changes : CString) (oldflags : Flags) : Option Flags :=
  if '+' ∈ changes ∨ '-' ∈ changes ∨ '=' ∈ changes then some (gsFlagsParser changes true oldflags)
  else
    let flags := getGroupTemplateFlags group changes
    if flags = 0#32 then none else some flags

def requestFor (s : Groups) (mg : GroupRef) (group : Group) (mt : Entity) (changes : CString) :
    Except Reply FlagsRequest :=
  let ga := s.groupacsFind mg mt 0#32 false
  let oldflags := (ga.map fun a => (s.heap a).flags).getD 0#32
  match askedFlags group changes oldflags with
  | none => .error (.fail .badparams "Invalid template name on the group: %s" [group.name])
  | some flags => .ok ⟨mg, group, mt, ga, oldflags, flags⟩

/-- An account without `GA_FLAGS` that spells one of its own nicks, to leave the group. -/
def selfMatch (s : Groups) (si : Source) (mg : GroupRef) (who changes : CString) : Bool :=
  strcaseEq changes "-*".toList && !s.groupacsSourceinfoHasFlag mg si gaFlags &&
    (si.smu.bind s.accounts.find).any fun a => a.nicks.any (strcaseEq who)

def flagsPlan (cfg : GroupConfig) (s : Groups) (si : Source) (parv : List CString)
    (target : Option Entity) : Except (List Reply) FlagsRequest :=
  match parv with
  | [] => .error (syntaxReplies "FLAGS" "Syntax: FLAGS <!group> [user] [changes]")
  | name :: params =>
    if si.smu.isNone && params ≠ [] then .error [notLoggedIn]
    else
      match s.mygroupFind cfg name with
      | none => .error [noSuchGroup name]
      | some (mg, group) =>
        if !s.groupacsSourceinfoHasFlag mg si gaAclview && test group.flags mgPubacl then .error []
        else
          match params with
          | [] =>
            if !s.groupacsSourceinfoHasFlag mg si gaAclview && !si.hasPriv auspex then
              .error [notAuthorized]
            else .error []
          | [who] =>
            if !s.groupacsSourceinfoHasFlag mg si gaAclview then .error [notAuthorized]
            else
              match target with
              | none => .error [notRegisteredAccount who]
              | some _ => .error (syntaxReplies "FLAGS" "Syntax: FLAGS <!group> <user> <changes>")
          | who :: changes :: _ =>
            let self := selfMatch s si mg who changes
            if !s.groupacsSourceinfoHasFlag mg si gaFlags && (si.hasPriv auspex || !self) then
              .error [notAuthorized]
            else
              match target with
              | none => .error [notRegisteredAccount who]
              | some mt =>
                if accountHas s mt muNevergroup && (s.groupacsFind mg mt 0#32 true).isNone then
                  .error [.fail .noprivs "\x02%s\x02 does not wish to have flags in any groups." [who]]
                else if self && (si.smu.map Entity.user = some mt) &&
                    (s.groupacsFind mg mt 0#32 false).any (fun a => test (s.heap a).flags gaBan) then
                  .error [notAuthorized]
                else
                  match requestFor s mg group mt changes with
                  | .error r => .error [r]
                  | .ok req =>
                    if !test req.oldflags gaChanacs && test req.flags gaChanacs &&
                        accountHas s mt muNeverop then
                      .error [.fail .noprivs ("\x02%s\x02 does not wish to be added to channel " ++
                        "access lists (NEVEROP set).") [entityName s mt]]
                    else .ok req

/-- The last founder stays, and only a founder takes `GA_FOUNDER` from another. -/
def founderGuard (s : Groups) (si : Source) (req : FlagsRequest) (flags : Flags) : Option Reply :=
  if !test flags gaFounder && (s.groupacsFind req.mg req.mt gaFounder false).isSome then
    if s.mygroupCountFlag req.mg gaFounder = 1 then
      some (.fail .noprivs "You may not remove the last founder." [])
    else if !s.groupacsSourceinfoHasFlag req.mg si gaFounder then
      some (.fail .noprivs "You may not remove a founder's +F access." [])
    else none
  else none

/-- The change is a `-*` of the source on its own entry. -/
def ownRemoval (si : Source) (req : FlagsRequest) (changes : CString) : Bool :=
  changes = "-*".toList && req.ga.isSome && si.smu.map Entity.user = some req.mt

def flagsLadder (cfg : GroupConfig) (s : Groups) (si : Source) (changes : CString)
    (req : FlagsRequest) : Except Reply Flags :=
  let source := s.groupacsSourceinfoFlags req.mg si
  let old := req.oldflags
  -- `goto no_founder`
  if test req.flags gaFounder && !test old gaFounder && !test source gaFounder then
    .ok (req.flags &&& ~~~gaFounder)
  else if test old gaFounder && !test req.flags gaFounder && !test source gaFounder then
    .error notAuthorized
  else
    let flags := if test req.flags gaFounder && !test old gaFounder then req.flags ||| gaFlags
      else req.flags
    if !cfg.noLeveledFlags && !ownRemoval si req changes &&
        ((test old gaFlags || test flags gaFlags) && !(test source gaSet || test source gaFounder) ||
          (test old gaSet || test flags gaSet) && !test source gaFounder) then
      .error notAuthorized
    else
      match founderGuard s si req flags with
      | some r => .error r
      | none => .ok flags

def assignFlags (cfg : GroupConfig) (s : Groups) (req : FlagsRequest) (flags : Flags) : Outcome :=
  let unchanged : Reply := .fail .nochange "Group \x02%s\x02 access for \x02%s\x02 unchanged."
    [req.group.name, entityName s req.mt]
  let told (s : Groups) : Groups := if req.mt.isUser then s.read (s.acs req.mg) else s
  match req.ga with
  | some a =>
    if flags ≠ 0#32 then
      if (s.heap a).flags = flags then .done s [unchanged] else .done (told (s.setFlags a flags)) []
    else
      let s := s.groupacsDelete req.mg req.mt
      .done (if req.mt.isUser then (s.read [a]).read (s.acs req.mg) else s) []
  | none =>
    if flags = 0#32 then .done s [unchanged]
    else if (s.acs req.mg).length > cfg.maxgroupacs && !test req.group.flags mgAcsnolimit then
      .done s [.fail .toomany "Group %s access list is full." [req.group.name]]
    else .done (told (s.groupacsAdd req.mg req.mt flags)) []

def gsCmdFlags (cfg : GroupConfig) (s : Groups) (si : Source) (parv : List CString)
    (target : Option Entity) : Outcome :=
  let target := target.filter s.live
  let s := s.look
  match flagsPlan cfg s si parv target with
  | .error replies => .done s replies
  | .ok req =>
    match flagsLadder cfg s si (parv.getD 2 []) req with
    | .error r => .done s [r]
    | .ok flags => assignFlags cfg s req flags

def gsCmdFflags (cfg : GroupConfig) (s : Groups) (si : Source) (parv : List CString)
    (target : Option Entity) : Outcome :=
  let target := target.filter s.live
  let s := s.look
  match parv with
  | name :: who :: changes :: _ =>
    match s.mygroupFind cfg name with
    | none => .done s [noSuchGroup name]
    | some (mg, group) =>
      if si.smu.isNone then .done s [notLoggedIn]
      else
        match target with
        | none => .done s [notRegisteredAccount who]
        | some mt =>
          match requestFor s mg group mt changes with
          | .error r => .done s [r]
          | .ok req =>
            match founderGuard s si req req.flags with
            | some r => .done s [r]
            | none => assignFlags cfg s req req.flags
  | _ => .done s (syntaxReplies "FFLAGS" "Syntax: FFLAGS <!group> [user] [changes]")

/-! ### TEMPLATE -/

structure TemplateRequest where
  mg : GroupRef
  group : Group
  target : CString
  restrictflags : Flags
  /-- the `!` in front of the flags -/
  changegroupacs : Bool
  change : Change

/-- TEMPLATE up to the change: `none` for a crash. A group that is not there is reported, but the
command goes on without it. -/
def templatePlan (cfg : GroupConfig) (s : Groups) (si : Source) (parv : List CString) :
    Option (Except (List Reply) TemplateRequest) :=
  match parv with
  | [] => some (.error [.fail .nosuchTarget "You must specify a group name." []])
  | name :: params =>
    match s.mygroupFind cfg name, params with
    | none, [] => none
    | none, _ :: _ =>
      some (.error [.fail .nosuchTarget "Group \x02%s\x02 is not registered." [name],
        if si.smu.isNone then notLoggedIn else notAuthorizedCommand])
    | some (mg, group), [] =>
      some <| .error <|
        if !test group.flags mgPubacl && !s.groupacsSourceinfoHasFlag mg si gaAclview &&
            !si.hasPriv auspex then [notAuthorized]
        else if group.closed && !si.hasPriv auspex then
          [.fail .noprivs "\x02%s\x02 is closed." [name]]
        else []
    | some (mg, group), target :: params =>
      let source := s.groupacsSourceinfoFlags mg si
      if si.smu.isNone then some (.error [notLoggedIn])
      else if !test source gaFounder && !test source gaFlags then
        some (.error [notAuthorizedCommand])
      else if group.closed then some (.error [.fail .noprivs "\x02%s\x02 is closed." [name]])
      else
        match params with
        | [] => some (.error [.fail .needmoreparams "Usage: TEMPLATE %s [target flags]" [name]])
        | flagstr :: _ =>
          if isFlagString target then
            some (.error [.fail .badparams "Invalid template name \x02%s\x02." [target]])
          else
            match templateChange group (splitChangegroupacs flagstr).2 with
            | .error r => some (.error [r])
            | .ok c => some (.ok ⟨mg, group, target,
                if test source gaFounder then gaAllAll else allowGflags cfg source,
                (splitChangegroupacs flagstr).1, c⟩)

/-! The notices of `modules/groupserv/main/main.c`, whose texts `myuser_notice` is given as formats. -/

def getGroupTemplateName (cfg : GroupConfig) (group : Group) (level : Flags) : Option CString :=
  match (templateItems (group.templates.getD [])).find? (fun i => itemFlags i = level) with
  | some item => some (truncate 400 item.name)
  | none => (cfg.globalTemplates.reverse.find? (fun t => t.2 = level)).map Prod.fst

def notifyacl (s : Groups) (mu : AccountRef) : Bool :=
  (s.accounts.find mu).any fun a => test a.flags muNotifyacl

/-- The members whose accounts a notice to the management goes to, by the flags of their entries. -/
def isTold (s : Groups) (smu tmu : Option AccountRef) (mt : Entity) (flags : Flags) : Bool :=
  match mt with
  | .user mu =>
    tmu ≠ some mu && (test flags gaFounder || test flags gaSet) && smu ≠ some mu && notifyacl s mu
  | _ => false

/-- An account with a user logged in that is told of changes to its own flags. -/
def isNotified (s : Groups) (tmu : AccountRef) : Bool :=
  (s.accounts.find tmu).any fun a => test a.flags muNotifyacl && a.logins > 0

section texts
variable (cfg : GroupConfig) (group : Group) (source target flagstr : CString) (flags : Flags)

def templateSuffix : CString :=
  match getGroupTemplateName cfg group flags with
  | some name => " (TEMPLATE: ".toList ++ bold name ++ [')']
  | none => []

/-- The text of `notify_group_acl_change`. -/
def groupAclText : CString :=
  truncate 256 <|
    bold source ++ " has set ".toList ++ bold flagstr ++
      if flags = 0#32 then
        " and removed ".toList ++ bold target ++ " from: ".toList ++ bold group.name
      else
        " on ".toList ++ bold target ++ " in ".toList ++ bold group.name ++
          " who now has the flags: ".toList ++ bold (bitmaskToGflags flags) ++
          templateSuffix cfg group flags

/-- The text of `notify_target_acl_change`. -/
def targetAclText : CString :=
  truncate 256 <|
    bold source ++ " has set ".toList ++ bold flagstr ++
      if flags = 0#32 then " and removed you from: ".toList ++ bold group.name
      else
        " on you in ".toList ++ bold group.name ++ " where you now have the flags: ".toList ++
          bold (bitmaskToGflags flags) ++ templateSuffix cfg group flags

def eventText (desc : CString) : CString :=
  truncate 256 ("Group Event on ".toList ++ bold group.name ++ " - ".toList ++ desc)

end texts

/-- `description`, which `notify_group_misc_change` tells the management. -/
def templateEvent (target : CString) (e : TemplateEdit) : CString :=
  truncate 300 <|
    if e.oldflags = 0#32 then
      "Added template ".toList ++ bold target ++ " (new flags: ".toList ++
        bitmaskToGflags e.newflags ++ [')']
    else if e.newflags = 0#32 then "Removed template ".toList ++ bold target
    else
      "Changed template ".toList ++ bold target ++ " (new flags: ".toList ++
        bitmaskToGflags e.newflags ++ [')']

def eventCrashes (s : Groups) (si : Source) (mg : GroupRef) (group : Group) (desc : CString) : Bool :=
  (s.acs mg).any (fun a => isTold s si.smu none (s.heap a).mt (s.heap a).flags) &&
    noticeCrashes (eventText group desc)

/-- The notices of one turn of the loop, for the account that is found by `ga->mt->name`. -/
def turnCrashes (cfg : GroupConfig) (si : Source) (mg : GroupRef) (group : Group) (e : TemplateEdit)
    (s : Groups) (a : AcsRef) : Bool :=
  match si.smu, (s.heap a).mt with
  | some smu, .user tmu =>
    let source := entityName s (.user smu)
    let flagstr := bitmaskToGflags2 e.change
    !s.live (.user tmu) ||
      isNotified s tmu && noticeCrashes (targetAclText cfg group source flagstr e.newflags) ||
      (s.acs mg).any (fun b => isTold s (some smu) (some tmu) (s.heap b).mt (s.heap b).flags) &&
        noticeCrashes
          (groupAclText cfg group source (entityName s (.user tmu)) flagstr e.newflags)
  | _, _ => true

/-- The loop over the entries with the flags `oldflags`, which calls `crashes` for each that it
changes. An entry left without flags is closed. -/
def updateEntries (crashes : Groups → AcsRef → Bool) (mg : GroupRef) (e : TemplateEdit) :
    List AcsRef → Groups → Option Groups
  | [], s => some s
  | a :: as, s =>
    let s := s.read [a]
    if (s.heap a).flags ≠ e.oldflags then updateEntries crashes mg e as s
    else if test (e.change.add ||| e.change.rem) gaFounder then updateEntries crashes mg e as s
    else
      let s := s.groupacsModifySimple a e.newflags (~~~e.newflags)
      if crashes s a then none
      else updateEntries crashes mg e as ((s.read (s.acs mg)).groupacsClose a)

def setTemplates (newstr : CString) (group : Group) : Group :=
  { group with templates := if newstr = [] then none else some newstr }

def gsCmdTemplate (cfg : GroupConfig) (s : Groups) (si : Source) (parv : List CString) : Outcome :=
  let s := s.look
  match templatePlan cfg s si parv with
  | none => .crash
  | some (.error replies) => .done s replies
  | some (.ok req) =>
    let e := templateEdit req.group req.target req.change req.restrictflags
    match templateRefusal req.group req.target e with
    | some r => .done s [r]
    | none =>
      let group := setTemplates e.newstr req.group
      let s := s.updateGroup req.mg (setTemplates e.newstr)
      if eventCrashes s si req.mg group (templateEvent req.target e) then .crash
      else if !req.changegroupacs then .done s []
      else
        match updateEntries (turnCrashes cfg si req.mg group e) req.mg e (s.acs req.mg) s with
        | none => .crash
        | some s => .done s []

/-! ### Joining -/

def numberToString (num : Flags) : CString := (toString num.toInt).toList

def joinFlags (cfg : GroupConfig) (group : Group) : Flags :=
  match group.joinflags with
  | some value => BitVec.ofInt 32 (atoi value)
  | none => gsFlagsParser cfg.joinFlags false 0#32

def gsCmdJoin (cfg : GroupConfig) (s : Groups) (si : Source) (parv : List CString) : Outcome :=
  let s := s.look
  match parv with
  | [] => .done s (syntaxReplies "JOIN" "Syntax: JOIN <!groupname>")
  | name :: _ =>
    match s.mygroupFind cfg name, si.smu with
    | none, _ =>
      .done s [.fail .alreadyexists "Group \x02%s\x02 does not exist." [name]]
    | some _, none => .done s []
    | some (mg, group), some mu =>
      let invited := (((s.accounts.find mu).bind Account.groupinvite).any (strcaseEq · group.name))
      if !test group.flags mgOpen && !invited then
        .done s [.fail .noprivs "Group \x02%s\x02 is not open to anyone joining." [group.name]]
      else if s.groupacsSourceinfoHasFlag mg si gaBan then .done s [notAuthorizedCommand]
      else if s.groupacsSourceinfoHasFlag mg si 0#32 then
        .done s [.fail .nochange "You are already a member of group: \x02%s\x02." [group.name]]
      else if (s.acs mg).length > cfg.maxgroupacs && !test group.flags mgAcsnolimit && !invited then
        .done s [.fail .toomany "Group %s access list is full." [group.name]]
      else
        let s := s.groupacsAdd mg (.user mu) (joinFlags cfg group)
        let s := if invited then
          { s with accounts := s.accounts.modify mu fun a => { a with groupinvite := none } } else s
        .done (s.read (s.acs mg)) []

def gsCmdInvite (cfg : GroupConfig) (s : Groups) (si : Source) (parv : List CString)
    (target : Option AccountRef) : Outcome :=
  let s := s.look
  match parv with
  | name :: who :: _ =>
    match s.mygroupFind cfg name with
    | none => .done s [noSuchGroup name]
    | some (mg, group) =>
      if !s.groupacsSourceinfoHasFlag mg si gaInvite then .done s [notAuthorized]
      else
        match target.bind fun mu => (s.accounts.find mu).map fun a => (mu, a) with
        | none => .done s [notRegisteredAccount who]
        | some (mu, a) =>
          if (s.groupacsFind mg (.user mu) 0#32 false).isSome then
            .done s [.fail .badparams "\x02%s\x02 is already a member of: \x02%s\x02"
              [a.name, group.name]]
          else if a.groupinvite.isSome then
            .done s [.fail .badparams ("\x02%s\x02 may not be invited to a group and already has " ++
              "another invitation pending.") [a.name]]
          else if test a.flags muNevergroup then
            .done s [.fail .noprivs "\x02%s\x02 does not wish to belong to any groups." [a.name]]
          else
            .done { s with accounts := s.accounts.modify mu fun a =>
              { a with groupinvite := some group.name } } []
  | _ => .done s (syntaxReplies "INVITE" "Syntax: INVITE <!group> <user>")

def isOn (value : CString) : Bool :=
  ["ON", "1", "TRUE"].any fun x => strcaseEq value x.toList

def isOff (value : CString) : Bool :=
  ["OFF", "0", "FALSE"].any fun x => strcaseEq value x.toList

def gsCmdSetOpen (cfg : GroupConfig) (s : Groups) (si : Source) (parv : List CString) : Outcome :=
  let s := s.look
  match parv with
  | name :: value :: _ =>
    match s.mygroupFind cfg name with
    | none => .done s [noSuchGroup name]
    | some (mg, group) =>
      if !s.groupacsSourceinfoHasFlag mg si gaFounder then .done s [notAuthorizedCommand]
      else if isOn value then
        if !cfg.enableOpenGroups then
          .done s [.fail .nochange "Setting groups as open has been administratively disabled." []]
        else if test group.flags mgOpen then
          .done s [.fail .nochange "\x02%s\x02 is already open to anyone joining." [group.name]]
        else .done (s.updateGroup mg fun g => { g with flags := g.flags ||| mgOpen }) []
      else if isOff value then
        if !test group.flags mgOpen then
          .done s [.fail .nochange "\x02%s\x02 is already not open to anyone joining." [group.name]]
        else .done (s.updateGroup mg fun g => { g with flags := g.flags &&& ~~~mgOpen }) []
      else
        .done s [.fail .badparams "Invalid parameters for \x02%s\x02." ["OPEN".toList],
          .fail .badparams "Syntax: OPEN <!group> <ON|OFF>" []]
  | _ => .done s (syntaxReplies "OPEN" "Syntax: OPEN <!group> <ON|OFF>")

def gsCmdSetJoinflags (cfg : GroupConfig) (s : Groups) (si : Source) (parv : List CString) :
    Outcome :=
  let s := s.look
  let name := parv.getD 0 []
  match s.mygroupFind cfg name with
  | none => .done s [.fail .nosuchTarget "Group \x02%s\x02 does not exist." [name]]
  | some (mg, group) =>
    if !s.groupacsSourceinfoHasFlag mg si gaSet then .done s [notAuthorizedCommand]
    else
      match parv[1]? with
      | none => clear s mg group name
      | some joinflags =>
        if strcaseEq "OFF".toList joinflags || strcaseEq "NONE".toList joinflags then
          clear s mg group name
        else if joinflags.head? = some '-' then
          .done s [.fail .badparams "You can't set join flags to be removed." []]
        else
          let flags := gsFlagsParser joinflags false 0#32
          .done (s.updateGroup mg fun g => { g with joinflags := some (numberToString flags) }) []
where
  clear (s : Groups) (mg : GroupRef) (group : Group) (name : CString) : Outcome :=
    if group.joinflags.isSome then
      .done (s.updateGroup mg fun g => { g with joinflags := none }) []
    else .done s [.fail .nochange "Join flags for \x02%s\x02 were not set." [name]]

/-! ### Registering and dropping -/

def nicklen : Nat := 32

def gsCmdRegister (cfg : GroupConfig) (s : Groups) (si : Source) (parv : List CString) : Outcome :=
  let name := parv.getD 0 []
  match si.smu.bind fun mu => (s.accounts.find mu).map fun a => (mu, a) with
  | none => .done s []
  | some (mu, a) =>
    if name.head? ≠ some '!' then
      .done s [.fail .needmoreparams insufficientParams ["REGISTER".toList],
        .fail .needmoreparams "To register a group: REGISTER <!groupname>" []]
    else if test a.flags muWaitauth then
      .done s [.fail .notverified
        "You need to verify your email address before you may register groups." []]
    else if (s.mygroupFind cfg name).isSome then
      .done s [.fail .alreadyexists "The group \x02%s\x02 already exists." [name]]
    else if name.length ≥ nicklen then
      .done s [.fail .badparams "The group name \x02%s\x02 is invalid." [name]]
    else
      let s := s.read (s.membership (.user mu)).items
      if s.myentityCountGroupFlag (.user mu) gaFounder > cfg.maxgroups &&
          !si.hasPriv "user:regnolimit".toList then
        .done s [.fail .toomany "You have too many groups registered." []]
      else if a.restricted then
        .done s [.fail .noprivs
          "You have been restricted from registering groups by network staff." []]
      else
        let mg := s.next
        .done ((s.mygroupAdd name).groupacsAdd mg (.user mu) (gaAll ||| gaFounder)) []

/-- `confirmed` says that the key of the challenge is right, or was not asked for. -/
def gsCmdDrop (cfg : GroupConfig) (s : Groups) (si : Source) (parv : List CString)
    (confirmed : Bool) : Outcome :=
  let s := s.look
  match parv with
  | [] => .done s (syntaxReplies "DROP" "Syntax: DROP <!group>")
  | name :: key =>
    if name.head? ≠ some '!' then
      .done s [.fail .badparams "Invalid parameters for \x02%s\x02." ["DROP".toList],
        .fail .badparams "Syntax: DROP <!group>" []]
    else
      match s.mygroupFind cfg name with
      | none => .done s [.fail .nosuchTarget "Group \x02%s\x02 does not exist." [name]]
      | some (mg, _) =>
        if !s.groupacsSourceinfoHasFlag mg si gaFounder then .done s [notAuthorizedCommand]
        else if !confirmed then
          .done s (if key = [] then [] else [.fail .badparams "Invalid key for %s." ["DROP".toList]])
        else .done (s.mygroupDelete mg) []

def gsCmdFdrop (cfg : GroupConfig) (s : Groups) (parv : List CString) : Outcome :=
  match parv with
  | [] => .done s (syntaxReplies "DROP" "Syntax: DROP <!group>")
  | name :: _ =>
    if name.head? ≠ some '!' then
      .done s [.fail .badparams "Invalid parameters for \x02%s\x02." ["DROP".toList],
        .fail .badparams "Syntax: DROP <!group>" []]
    else
      match s.mygroupFind cfg name with
      | none => .done s [.fail .nosuchTarget "Group \x02%s\x02 does not exist." [name]]
      | some (mg, _) => .done (s.mygroupDelete mg) []

def expireGroup (s : Groups) (mg : GroupRef) : Groups :=
  let s := s.read (s.acs mg)
  if s.mygroupCountFlag mg gaFounder = 0 then s.mygroupDelete mg else s

def mygroupExpire (s : Groups) : Groups := (s.groups.entries.map Prod.fst).foldl expireGroup s

/-! ### Events -/

inductive GroupEvent where
  | flags (si : Source) (parv : List CString) (target : Option Entity)
  | fflags (si : Source) (parv : List CString) (target : Option Entity)
  | template (si : Source) (parv : List CString)
  | join (si : Source) (parv : List CString)
  | invite (si : Source) (parv : List CString) (target : Option AccountRef)
  | setOpen (si : Source) (parv : List CString)
  | setJoinflags (si : Source) (parv : List CString)
  | register (si : Source) (parv : List CString)
  | drop (si : Source) (parv : List CString) (confirmed : Bool)
  | fdrop (parv : List CString)
  | expire
  | accountAdd (a : Account)
  | accountDelete (mu : AccountRef)
  /-- a name is looked up that no virtual entity has yet -/
  | extAdd (name : CString)
  /-- the last channel access entry of a virtual entity is gone, and with it the last reference -/
  | extFree (e : ExtRef)

def groupExec (cfg : GroupConfig) (s : Groups) : GroupEvent → Outcome
  | .flags si parv target => gsCmdFlags cfg s si parv target
  | .fflags si parv target => gsCmdFflags cfg s si parv target
  | .template si parv => gsCmdTemplate cfg s si parv
  | .join si parv => gsCmdJoin cfg s si parv
  | .invite si parv target => gsCmdInvite cfg s si parv target
  | .setOpen si parv => gsCmdSetOpen cfg s si parv
  | .setJoinflags si parv => gsCmdSetJoinflags cfg s si parv
  | .register si parv => gsCmdRegister cfg s si parv
  | .drop si parv confirmed => gsCmdDrop cfg s si parv confirmed
  | .fdrop parv => gsCmdFdrop cfg s parv
  | .expire => .done (mygroupExpire s) []
  | .accountAdd a =>
    .done { s with accounts := s.accounts.insertNew s.next a, next := s.next + 1 } []
  | .accountDelete mu => .done (s.myuserDelete mu) []
  | .extAdd name => .done { s with exts := s.exts.insertNew s.next name, next := s.next + 1 } []
  | .extFree e => .done { s with exts := s.exts.erase e } []

def groupStep (cfg : GroupConfig) (s : Groups) (e : GroupEvent) : Groups × List Reply :=
  match groupExec cfg s e with
  | .crash => (s, [])
  | .done s' replies => (s', replies)

end ChatServices.GroupServ
