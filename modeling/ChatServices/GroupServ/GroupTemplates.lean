import ChatServices.GroupServ.Groups

/-! The flag templates of a group and the commands' masks, `modules/groupserv/main/groupserv.c` and
the first half of `modules/groupserv/template.c`. -/
namespace ChatServices.GroupServ
open ChatServices.Lib ChatServices.Lib.Mask ChatServices.Text
open ChatServices.ChanServ (Reply TemplateItem templateItems rewriteTemplate appendTemplate
  hasCtrlChars isFlagString)

structure Change where
  add : Flags
  rem : Flags
  deriving DecidableEq

/-- `xgflag_lookup`, which is given the rest of the string and not a letter of it. -/
def xgflagLookup (name : CString) : Flags :=
  ((gaTable.find? (fun e => e.1 ∈ name)).map Prod.snd).getD 0#32

/-- The loop of `gflags_make_bitmasks`; `del` is the direction. -/
def gflagsFrom (del : Bool) (c : Change) : CString → Change
  | [] => ⟨c.add &&& gaAllAll, c.rem &&& gaAllAll⟩
  | x :: string =>
    if x = '+' then gflagsFrom false c string
    else if x = '-' then gflagsFrom true c string
    else if x = '=' then gflagsFrom false ⟨0#32, 0xffffffff#32⟩ string
    else if x = '*' then
      gflagsFrom del
        (if del then ⟨0#32, 0xffffffff#32⟩
        else ⟨(c.add ||| gaAllAll) &&& ~~~gaBan, c.rem ||| gaBan⟩) string
    else
      let flag := xgflagLookup (x :: string)
      if flag = 0#32 then gflagsFrom del c string
      else if del then
        gflagsFrom del ⟨c.add &&& ~~~flag &&& gaAllAll, (c.rem ||| flag) &&& gaAllAll⟩ string
      else gflagsFrom del ⟨(c.add ||| flag) &&& gaAllAll, c.rem &&& ~~~flag &&& gaAllAll⟩ string

def gflagsMakeBitmasks (string : CString) : Change := gflagsFrom false ⟨0#32, 0#32⟩ string

def allowGflags (cfg : GroupConfig) (theirflags : Flags) : Flags :=
  let flags := theirflags &&& ~~~gaBan
  if cfg.noLeveledFlags then flags
  else
    let flags := if test theirflags gaFlags && !test flags gaSet then flags &&& ~~~gaFlags else flags
    if test flags gaSet && test theirflags gaSet then flags &&& ~~~gaSet else flags

def gflagLetters (flags : Flags) : CString :=
  (gaTable.filter (fun e => test e.2 flags)).map Prod.fst

def bitmaskToGflags (flags : Flags) : CString := '+' :: gflagLetters flags

def bitmaskToGflags2 (c : Change) : CString :=
  (if c.rem ≠ 0#32 then '-' :: gflagLetters c.rem else []) ++
    (if c.add ≠ 0#32 then '+' :: gflagLetters c.add else [])

/-- `GA_FOUNDER` comes with `GA_FLAGS` and goes with it. -/
def templateFounderRule (c : Change) : Change :=
  if test c.add gaFounder then ⟨c.add ||| gaFlags, c.rem &&& ~~~gaFlags⟩
  else if test c.rem gaFlags then ⟨c.add &&& ~~~gaFounder, c.rem ||| gaFounder⟩
  else c

/-- A leading `!` before a flag string asks for the entries to follow the template. -/
def splitChangegroupacs : CString → Bool × CString
  | '!' :: flagstr => if isFlagString flagstr then (true, flagstr) else (false, '!' :: flagstr)
  | flagstr => (false, flagstr)

def templateChange (group : Group) (flagstr : CString) : Except Reply Change :=
  if isFlagString flagstr then
    let c := gflagsMakeBitmasks flagstr
    if c.add = 0#32 ∧ c.rem = 0#32 then .error (.fail .badparams "No valid flags given." [])
    else if test c.add gaBan then
      .error (.fail .badparams "You may not add +b to group templates." [])
    else .ok (templateFounderRule c)
  else
    let addflags := getGroupTemplateFlags group flagstr
    if addflags = 0#32 then .error (.fail .nosuchKey "Invalid template name given." [])
    else .ok (templateFounderRule ⟨addflags, gaAllAll &&& ~~~addflags⟩)

structure TemplateEdit where
  oldflags : Flags
  newflags : Flags
  change : Change
  denied : Bool
  newstr : CString

def templateDenied (restrictflags oldflags : Flags) (c : Change) : Bool :=
  test (~~~restrictflags) c.add || test (~~~restrictflags) c.rem || test (~~~restrictflags) oldflags

/-- The flags of an item, read through the buffer `ss` of 40 bytes. -/
def itemFlags (item : TemplateItem) : Flags := gsFlagsParser (truncate 40 item.value) false 0#32

def templateEdit (group : Group) (target : CString) (c : Change) (restrictflags : Flags) :
    TemplateEdit :=
  let text := group.templates.getD []
  match (templateItems text).find? (fun i => strcaseEq target i.name) with
  | some item =>
    let oldflags := itemFlags item &&& gaAllAll
    let done : Change := ⟨MaskUpdate.added oldflags c.add, MaskUpdate.removed oldflags c.add c.rem⟩
    if done.add ||| done.rem = 0#32 then ⟨oldflags, 0#32, done, false, truncate 400 text⟩
    else if templateDenied restrictflags oldflags done then
      ⟨oldflags, 0#32, done, true, truncate 400 text⟩
    else
      let newflags := (oldflags ||| done.add) &&& ~~~done.rem
      ⟨oldflags, newflags, done, false,
        rewriteTemplate text item target
          (if newflags = 0#32 then none else some (bitmaskToGflags newflags))⟩
  | none =>
    let done : Change := ⟨c.add, 0#32⟩
    if done.add ||| done.rem = 0#32 then ⟨0#32, done.add, done, false, truncate 400 text⟩
    else if templateDenied restrictflags 0#32 done then
      ⟨0#32, done.add, done, true, truncate 400 text⟩
    else
      ⟨0#32, done.add, done, false, appendTemplate group.templates target (bitmaskToGflags done.add)⟩

def templateRefusal (group : Group) (target : CString) (e : TemplateEdit) : Option Reply :=
  if e.oldflags = 0#32 && hasCtrlChars target then
    some (.fail .badparams "Invalid template name \x02%s\x02." [target])
  else if e.change.add ||| e.change.rem = 0#32 then
    if e.oldflags ≠ 0#32 then
      some (.fail .nochange "Template \x02%s\x02 on \x02%s\x02 unchanged." [target, group.name])
    else
      some (.fail .nosuchKey "No such template \x02%s\x02 on \x02%s\x02." [target, group.name])
  else if e.denied then
    some (.fail .noprivs
      "You are not allowed to set \x02%s\x02 on template \x02%s\x02 in \x02%s\x02."
      [bitmaskToGflags2 e.change, target, group.name])
  else if e.newstr.length ≥ 300 then
    some (.fail .toomany "Sorry, too many templates on \x02%s\x02." [group.name])
  else
    ((templateItems (group.templates.getD [])).find? fun i =>
      gsFlagsParser (truncate 40 (i.value.drop 1)) false 0#32 = e.newflags).map
        fun i => .fail .alreadyexists
          "The template \x02%.*s\x02 already has flags \x02%.*s\x02." [i.name, i.value.drop 1]

end ChatServices.GroupServ
