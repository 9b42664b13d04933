import ChatServices.ChanServ.Command

/-! `AKICK <#channel> ADD|DEL`: a new entry with `CA_AKICK` alone, and the flag taken off
an entry again. -/
namespace ChatServices.ChanServ
open ChatServices.Lib ChatServices.Lib.Mask ChatServices.Text

/-- `strtok (s, " ")`, and what a later call goes on with. -/
def strtok (s : CString) : Option (CString × CString) :=
  let s := s.dropWhile (· = ' ')
  if s = [] then none else some (s.takeWhile (· ≠ ' '), (s.dropWhile (· ≠ ' ')).drop 1)

def decimal (s : CString) : Nat := s.foldl (fun n c => 10 * n + (c.toNat - '0'.toNat)) 0

/-- `parse_age`: minutes, or another unit after the number. -/
def parseAge (s : CString) : Nat :=
  let duration := decimal (s.takeWhile Char.isDigit) * 60
  match s.dropWhile Char.isDigit with
  | [] => duration
  | c :: _ =>
    if c = 'y' ∨ c = 'Y' then duration * 525949
    else if c = 'h' ∨ c = 'H' then duration * 60
    else if c = 'd' ∨ c = 'D' then duration * 1440
    else if c = 'w' ∨ c = 'W' then duration * 10080
    else 0

def akickAddSyntax : String :=
  "Syntax: AKICK <#channel> ADD <nick|hostmask> [!P|!T <minutes>] [reason]"

def akickTimes (cfg : ChanConfig) (text : Option CString) : Except (List Reply) (Nat × CString) :=
  match text.bind strtok with
  | none => .ok (cfg.akickTime, [])
  | some (token, rest) =>
    if strcaseEq token "!P".toList then .ok (0, truncate 1024 rest)
    else if strcaseEq token "!T".toList then
      match strtok rest with
      | none => .error [.fail .needmoreparams insufficientParams ["AKICK ADD".toList],
          .fail .needmoreparams akickAddSyntax []]
      | some (s, reason) =>
        if parseAge s = 0 then
          .error [.fail .badparams "Invalid duration given." [], .fail .badparams akickAddSyntax []]
        else .ok (parseAge s, truncate 1024 reason)
    else .ok (cfg.akickTime, truncate 1024 (if rest = [] then token else token ++ ' ' :: rest))

def mayAkick (cfg : ChanConfig) (w : World) (db : ChanDb) (mc : MyChanRef) (si : Source) : Bool :=
  Sub (caFlags ||| caRemove) (chanacsSourceFlags cfg w db mc si)

structure AkickRequest where
  mc : MyChanRef
  chan : MyChan
  target : CString
  duration : Nat
  reason : CString

def akickAddPlan (cfg : ChanConfig) (w : World) (db : ChanDb) (si : Source) (channel : CString)
    (parv : List CString) : Except (List Reply) AkickRequest :=
  match parv with
  | [] => .error [.fail .needmoreparams insufficientParams ["AKICK".toList],
      .fail .needmoreparams
        "Syntax: AKICK <#channel> ADD <nickname|hostmask> [!P|!T <minutes>] [reason]" []]
  | target :: parv =>
    match mychanFind cfg db channel with
    | none => .error [.fail .nosuchTarget notRegisteredChannel [channel]]
    | some (mc, chan) =>
      if chan.closed then .error [.fail .noprivs "\x02%s\x02 is closed." [channel]]
      else
        match akickTimes cfg parv.head? with
        | .error replies => .error replies
        | .ok (duration, reason) =>
          if !mayAkick cfg w db mc si then .error [.fail .noprivs notAuthorizedOperation []]
          else .ok ⟨mc, chan, target, duration, reason⟩

def akickExists (cfg : ChanConfig) (chan : MyChan) (name : CString) (ca : Chanacs) : Reply :=
  if test ca.level caAkick then
    .fail .nochange "\x02%s\x02 is already on the AKICK list for \x02%s\x02" [name, chan.name]
  else
    .fail .alreadyexists "\x02%s\x02 already has flags \x02%s\x02 on \x02%s\x02"
      [name, bitmaskToFlags cfg.flagConfig ca.level, chan.name]

def akickExpires : Target → String
  | .host _ => "AKICK on \x02%s\x02 was successfully added for \x02%s\x02 and will expire in: %s"
  | .entity _ => "AKICK on \x02%s\x02 was successfully added for \x02%s\x02 and will expire in %s."

def akickAddBody (cfg : ChanConfig) (w : World) (si : Source) (req : AkickRequest) (t : Target)
    (db : ChanDb) (ca : Chanacs) : EntryEnd Reply :=
  if chanacsIsTableFull cfg db.acl req.mc then
    .close ca (.fail .toomany listFull [req.chan.name])
  else
    let ca := chanacsModifySimple cfg w db ca ⟨caAkick, 0#32⟩ (si.entity db)
    let md := if req.reason = [] then ca.metadata
      else metadataAdd ca.metadata "reason".toList req.reason
    let expireson := ca.tmodified + req.duration
    .close
      { ca with metadata :=
          if req.duration > 0 then metadataAdd md "expires".toList (natArg expireson) else md }
      (if req.duration > 0 then
        .success (akickExpires t) [t.name db, req.chan.name, natArg req.duration]
      else
        .success "AKICK on \x02%s\x02 was successfully added to the AKICK list for \x02%s\x02."
          [t.name db, req.chan.name])

def akickAddTo (cfg : ChanConfig) (w : World) (db : ChanDb) (si : Source) (req : AkickRequest)
    (t : Target) : Outcome :=
  let r := withEntry db.acl (openKey db.acl req.mc t) (newEntry w db (si.entity db))
    (fun acl ca => akickAddBody cfg w si req t { db with acl := acl } ca)
  .done { db with acl := r.1 } [r.2]

def csCmdAkickAdd (cfg : ChanConfig) (w : World) (db : ChanDb) (si : Source) (channel : CString)
    (parv : List CString) : Outcome :=
  match akickAddPlan cfg w db si channel parv with
  | .error replies => .done db replies
  | .ok req =>
    match myentityFindExt cfg w db req.target with
    | some mt =>
      match chanacsFindLiteral db.acl req.mc mt 0#32 with
      | some ca => .done db [akickExists cfg req.chan (mt.name db) ca]
      | none => akickAddTo cfg w db si req (.entity mt)
    | none =>
      let uname := (w.prettyMask req.target).getD req.target
      if !validhostmask uname then
        .done db [.fail .badparams "\x02%s\x02 is neither a nickname nor a hostmask." [uname]]
      else
        let uname := w.collapse uname
        match chanacsFindHostLiteral db.acl req.mc uname 0#32 with
        | some (_, ca) => .done db [akickExists cfg req.chan uname ca]
        | none =>
          match chanacsFindHost cfg db.acl req.mc uname caAkick with
          | some (mask, _) => .done db [.fail .nochange
              "The more general mask \x02%s\x02 is already on the AKICK list for \x02%s\x02"
              [mask, req.chan.name]]
          | none => akickAddTo cfg w db si req (.host uname)

def akickDelPlan (cfg : ChanConfig) (w : World) (db : ChanDb) (si : Source) (channel : CString)
    (parv : List CString) : Except (List Reply) (MyChanRef × MyChan × CString) :=
  match parv with
  | [] => .error [.fail .needmoreparams insufficientParams ["AKICK".toList],
      .fail .needmoreparams "Syntax: AKICK <#channel> DEL <nickname|hostmask>" []]
  | uname :: _ =>
    match mychanFind cfg db channel with
    | none => .error [.fail .nosuchTarget notRegisteredChannel [channel]]
    | some (mc, chan) =>
      if chan.closed then .error [.fail .noprivs "\x02%s\x02 is closed." [channel]]
      else if !mayAkick cfg w db mc si then .error [.fail .noprivs notAuthorizedOperation []]
      else .ok (mc, chan, uname)

/-- Take `CA_AKICK` off an entry that has it. -/
def akickDelFrom (cfg : ChanConfig) (w : World) (db : ChanDb) (si : Source) (mc : MyChanRef)
    (chan : MyChan) (t : Target) (ca : Chanacs) (name : CString) : Outcome :=
  let ca := chanacsModifySimple cfg w db ca ⟨0#32, caAkick⟩ (si.entity db)
  .done { db with acl := chanacsClose (mc, t) (db.acl.set (mc, t) ca) }
    [.success "\x02%s\x02 has been removed from the AKICK list for \x02%s\x02." [name, chan.name]]

def csCmdAkickDel (cfg : ChanConfig) (w : World) (db : ChanDb) (si : Source) (channel : CString)
    (parv : List CString) : Outcome :=
  match akickDelPlan cfg w db si channel parv with
  | .error replies => .done db replies
  | .ok (mc, chan, uname) =>
    match myentityFindExt cfg w db uname with
    | some mt =>
      match chanacsFindLiteral db.acl mc mt caAkick with
      | none => .done db [.fail .nosuchKey
          "\x02%s\x02 is not on the AKICK list for \x02%s\x02." [mt.name db, chan.name]]
      | some ca => akickDelFrom cfg w db si mc chan (.entity mt) ca (mt.name db)
    | none =>
      match chanacsFindHostLiteral db.acl mc uname caAkick with
      | some (mask, ca) => akickDelFrom cfg w db si mc chan (.host mask) ca uname
      | none =>
        match chanacsFindHost cfg db.acl mc uname caAkick with
        | some (mask, _) => .done db [.fail .nosuchKey
            "\x02%s\x02 is not on the AKICK list for \x02%s\x02, however \x02%s\x02 is."
            [uname, chan.name, mask]]
        | none => .done db [.fail .nosuchKey
            "\x02%s\x02 is not on the AKICK list for \x02%s\x02." [uname, chan.name]]

end ChatServices.ChanServ
