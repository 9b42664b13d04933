import ChatServices.Lib.Alarm
import ChatServices.Lib.Run
import ChatServices.ChanServ.CmdAkick
import ChatServices.ChanServ.CmdClone

/-! The expiry of temporary AKICKs: the list of timeouts beside the access lists, the timer
for the first of them, and the list that is made when the module starts. -/
namespace ChatServices.ChanServ
open ChatServices.Lib ChatServices.Lib.Mask ChatServices.Lib.MaskUpdate ChatServices.Lib.Deadline
open ChatServices.Text

/-- `entity` is NULL for a hostmask, and `host` names the entry either way. -/
structure AkickTimeout where
  expiration : Nat
  entity : Option Entity
  chan : MyChanRef
  host : CString
  deriving DecidableEq

/-- The access lists with `akickdel_list` and `akickdel_next`, the time that the timer is set
for, or 0. -/
structure AkickState where
  db : ChanDb
  timeouts : List AkickTimeout
  next : Nat

/-- A world whose masks are collapsed as `collapse` does it. -/
structure NetWorld extends World where
  collapse_eq : collapse = Text.collapse

def akickHostLen : Nat := nickLen + userLen + hostLen + 4

def atol (s : CString) : Nat := decimal (s.takeWhile Char.isDigit)

def newTimeout (db : ChanDb) (mc : MyChanRef) (t : Target) (expireson : Nat) : AkickTimeout :=
  match t with
  | .entity mt => ⟨expireson, some mt, mc, truncate akickHostLen (mt.name db)⟩
  | .host mask => ⟨expireson, none, mc, truncate akickHostLen mask⟩

def akickAddTimeout (timeouts : List AkickTimeout) (timeout : AkickTimeout) : List AkickTimeout :=
  Deadline.insert AkickTimeout.expiration timeout timeouts

/-! ### ADD and DEL -/

def akickAddTarget (cfg : ChanConfig) (w : World) (db : ChanDb) (si : Source) (channel : CString)
    (parv : List CString) : Option (AkickRequest × Target) :=
  match akickAddPlan cfg w db si channel parv with
  | .error _ => none
  | .ok req =>
    match myentityFindExt cfg w db req.target with
    | some mt =>
      match chanacsFindLiteral db.acl req.mc mt 0#32 with
      | some _ => none
      | none => some (req, .entity mt)
    | none =>
      let uname := (w.prettyMask req.target).getD req.target
      if !validhostmask uname then none
      else
        let uname := w.collapse uname
        match chanacsFindHostLiteral db.acl req.mc uname 0#32,
          chanacsFindHost cfg db.acl req.mc uname caAkick with
        | none, none => some (req, .host uname)
        | _, _ => none

/-- The entry as `akick_add` puts it on the list. -/
def akickEntry (cfg : ChanConfig) (w : World) (db : ChanDb) (si : Source) (req : AkickRequest) :
    Chanacs :=
  let ca := chanacsModifySimple cfg w db (newEntry w db (si.entity db)) ⟨caAkick, 0#32⟩
    (si.entity db)
  let md := if req.reason = [] then ca.metadata
    else metadataAdd ca.metadata "reason".toList req.reason
  { ca with metadata := if req.duration > 0 then
      metadataAdd md "expires".toList (natArg (ca.tmodified + req.duration)) else md }

/-- The end of `cs_cmd_akick_add`: a temporary AKICK gets a timeout, and the timer is set for it
where that is earlier. -/
def akickAdd (cfg : ChanConfig) (w : World) (s : AkickState) (si : Source) (channel : CString)
    (parv : List CString) : AkickState :=
  match akickAddTarget cfg w s.db si channel parv with
  | none => s
  | some (req, t) =>
    let k := (req.mc, t)
    if chanacsIsTableFull cfg (s.db.acl.insertNew k (newEntry w s.db (si.entity s.db))) req.mc then s
    else
      let ca := akickEntry cfg w s.db si req
      let db := { s.db with acl := s.db.acl.insertNew k ca }
      if req.duration > 0 then
        let timeout := newTimeout db req.mc t (ca.tmodified + req.duration)
        ⟨db, akickAddTimeout s.timeouts timeout, rearm s.next timeout.expiration⟩
      else ⟨db, s.timeouts, s.next⟩

def akickDelTarget (cfg : ChanConfig) (w : World) (db : ChanDb) (si : Source) (channel : CString)
    (parv : List CString) : Option (MyChanRef × Target × Chanacs × CString) :=
  match akickDelPlan cfg w db si channel parv with
  | .error _ => none
  | .ok (mc, _, uname) =>
    match myentityFindExt cfg w db uname with
    | some mt => (chanacsFindLiteral db.acl mc mt caAkick).map fun ca => (mc, .entity mt, ca, uname)
    | none => (chanacsFindHostLiteral db.acl mc uname caAkick).map fun e =>
        (mc, .host e.1, e.2, uname)

/-- `chanacs_modify_simple (ca, 0, CA_AKICK)` and `chanacs_close`. -/
def akickOff (cfg : ChanConfig) (w : World) (setter : Option Entity) (k : MyChanRef × Target)
    (ca : Chanacs) (db : ChanDb) : ChanDb :=
  let ca := chanacsModifySimple cfg w db ca ⟨0#32, caAkick⟩ setter
  { db with acl := chanacsClose k (db.acl.set k ca) }

/-- The timeouts that AKICK DEL throws away: an entity's by the entity, a hostmask's by a match
of the stored mask with the name as given. -/
def delDrops (cfg : ChanConfig) (mc : MyChanRef) (t : Target) (uname : CString)
    (timeout : AkickTimeout) : Bool :=
  match t with
  | .entity mt => timeout.entity = some mt && timeout.chan = mc
  | .host _ => cfg.matchMask timeout.host uname && timeout.chan = mc

def akickDel (cfg : ChanConfig) (w : World) (s : AkickState) (si : Source) (channel : CString)
    (parv : List CString) : AkickState :=
  match akickDelTarget cfg w s.db si channel parv with
  | none => s
  | some (mc, t, ca, uname) =>
    { s with
      db := akickOff cfg w (si.entity s.db) (mc, t) ca s.db
      timeouts := s.timeouts.filter (fun timeout => !delDrops cfg mc t uname timeout) }

/-! ### The timer -/

def timeoutEntry (acl : AccessList) (timeout : AkickTimeout) : Option (Target × Chanacs) :=
  match timeout.entity with
  | none => (chanacsFindHostLiteral acl timeout.chan timeout.host caAkick).map fun e =>
      (.host e.1, e.2)
  | some mt => (chanacsFindLiteral acl timeout.chan mt caAkick).map fun ca => (.entity mt, ca)

def akickExpire (cfg : ChanConfig) (w : World) (db : ChanDb) (timeout : AkickTimeout) : ChanDb :=
  match timeoutEntry db.acl timeout with
  | some (t, ca) => akickOff cfg w none (timeout.chan, t) ca db
  | none => db

/-- The loop of `akick_timeout_check`. A timeout of a channel that is gone leads it into freed
memory. -/
def akickCheckFrom (cfg : ChanConfig) (w : World) : ChanDb → List AkickTimeout → Option AkickState
  | db, [] => some ⟨db, [], 0⟩
  | db, timeout :: timeouts =>
    if timeout.expiration > w.currtime then
      some ⟨db, timeout :: timeouts, timeout.expiration⟩
    else if (db.chans.find timeout.chan).isNone then none
    else akickCheckFrom cfg w (akickExpire cfg w db timeout) timeouts

def akickTimeoutCheck (cfg : ChanConfig) (w : World) (s : AkickState) : Option AkickState :=
  akickCheckFrom cfg w s.db s.timeouts

def akickTick (cfg : ChanConfig) (w : World) (s : AkickState) : Option AkickState :=
  if s.next = 0 ∨ w.currtime < s.next then some s else akickTimeoutCheck cfg w s

/-! ### The start of the module -/

def Chanacs.expires (ca : Chanacs) : Option Nat :=
  if test ca.level caAkick then (metadataFind ca.metadata "expires".toList).map atol else none

/-- One entry in the loop of `akickdel_list_create`. -/
def listCreateEntry (cfg : ChanConfig) (w : World) (mc : MyChanRef) (s : AkickState)
    (e : Target × Chanacs) : AkickState :=
  match e.2.expires with
  | none => s
  | some expireson =>
    if w.currtime > expireson then { s with db := akickOff cfg w none (mc, e.1) e.2 s.db }
    else { s with timeouts := akickAddTimeout s.timeouts (newTimeout s.db mc e.1 expireson) }

/-- `akickdel_list_create`, over the access list of every registered channel. -/
def akickdelListCreate (cfg : ChanConfig) (w : World) (db : ChanDb) : AkickState :=
  db.chans.entries.foldl
    (fun s e => (chanacsOf s.db.acl e.1).foldl (listCreateEntry cfg w e.1) s) ⟨db, [], 0⟩

/-! ### Runs -/

inductive AkickObs (ε : Type) where
  | crashed
  | moved (before : AkickState) (event : ε) (after : AkickState)

def akickStep {ε : Type} (exec : AkickState → ε → Option AkickState) (s : Option AkickState)
    (e : ε) : Option AkickState × List (AkickObs ε) :=
  match s with
  | none => (none, [])
  | some s =>
    match exec s e with
    | none => (none, [.crashed])
    | some s' => (some s', [.moved s e s'])

/-! ### The same commands on the access list -/

section commands
variable {cfg : ChanConfig} {w : World} {s : AkickState} {si : Source} {channel : CString}
  {parv : List CString}

theorem caAkick_known : Sub caAkick cfg.caAll := by
  refine (sub_iff _ _).mpr fun i hi => (caAll_basic cfg.flagConfig).1.has ?_
  rw [(has_caAkick i).mp hi]
  decide

theorem akickEntry_level (db : ChanDb) (req : AkickRequest) :
    (akickEntry cfg w db si req).level = caAkick := by
  have hmask : caAkick &&& cfg.caAll = caAkick := by
    apply ext
    intro i
    rw [has_and]
    exact and_iff_left_of_imp caAkick_known.has
  have hok : (chanacsModify w db (newEntry w db (si.entity db))
      (Change.mask ⟨caAkick, 0#32⟩ cfg.caAll) cfg.caAll (si.entity db)).ok = true :=
    chanacsModify_ok_iff.mpr (.inr (permits_of_sub (zero_sub _) (and_sub_right _ _)))
  have hlevel : (akickEntry cfg w db si req).level = (chanacsModifySimple cfg w db
      (newEntry w db (si.entity db)) ⟨caAkick, 0#32⟩ (si.entity db)).level := rfl
  rw [hlevel, chanacsModifySimple, chanacsModify_level hok]
  show result 0#32 (caAkick &&& cfg.caAll) _ = caAkick
  rw [hmask, result_zero_level]

theorem find_of_literal_none {acl : AccessList} {mc : MyChanRef} {mask : CString}
    (h : chanacsFindHostLiteral acl mc mask 0#32 = none) :
    acl.find (mc, .host mask) = none ∧ openKey acl mc (.host mask) = (mc, .host mask) := by
  have hopen : openKey acl mc (.host mask) = (mc, .host mask) := by
    rw [openKey, h]
    rfl
  refine ⟨Option.not_isSome_iff_eq_none.mp fun hsome => ?_, hopen⟩
  obtain ⟨ca, hca⟩ := Option.isSome_iff_exists.mp hsome
  have hmiss := List.findSome?_eq_none_iff.mp h (.host mask, ca) ((mem_chanacsOf acl mc _ _).mpr hca)
  simp only [ite_eq_right_iff, reduceCtorEq, imp_false, not_and] at hmiss
  exact hmiss (sameSubject_refl (.host mask)) (zero_sub _)

theorem find_of_entity_none {acl : AccessList} {mc : MyChanRef} {mt : Entity}
    (h : chanacsFindLiteral acl mc mt 0#32 = none) : acl.find (mc, .entity mt) = none := by
  rw [chanacsFindLiteral, Option.filter_eq_none_iff] at h
  cases hf : acl.find (mc, .entity mt) with
  | none => rfl
  | some ca => exact absurd (decide_eq_true (zero_sub _)) (h ca hf)

theorem akickAddTarget_new {req : AkickRequest} {t : Target} {db : ChanDb}
    (h : akickAddTarget cfg w db si channel parv = some (req, t)) :
    db.acl.find (req.mc, t) = none ∧ openKey db.acl req.mc t = (req.mc, t) := by
  rw [akickAddTarget] at h
  split at h
  · cases h
  split at h
  · split at h
    · cases h
    · rename_i hnone
      cases h
      exact ⟨find_of_entity_none hnone, rfl⟩
  · dsimp only at h
    split_ifs at h
    split at h
    · rename_i hnone _
      cases h
      exact find_of_literal_none hnone
    · cases h

def akickAddedDb (cfg : ChanConfig) (w : World) (db : ChanDb) (si : Source) (req : AkickRequest)
    (t : Target) : ChanDb :=
  let opened := db.acl.insertNew (req.mc, t) (newEntry w db (si.entity db))
  if chanacsIsTableFull cfg opened req.mc then db
  else { db with acl := db.acl.insertNew (req.mc, t) (akickEntry cfg w db si req) }

theorem akickAddTo_eq {req : AkickRequest} {t : Target} {db : ChanDb}
    (hfind : db.acl.find (req.mc, t) = none) (hopen : openKey db.acl req.mc t = (req.mc, t)) :
    ∃ reply, akickAddTo cfg w db si req t = .done (akickAddedDb cfg w db si req t) [reply] := by
  have hnew : openedEntry db.acl (req.mc, t) (newEntry w db (si.entity db)) =
      newEntry w db (si.entity db) := by
    rw [openedEntry, hfind]
    rfl
  by_cases hfull : chanacsIsTableFull cfg
      (db.acl.insertNew (req.mc, t) (newEntry w db (si.entity db))) req.mc = true
  · have hbody : akickAddBody cfg w si req t
        { db with acl := db.acl.insertNew (req.mc, t) (newEntry w db (si.entity db)) }
        (openedEntry db.acl (req.mc, t) (newEntry w db (si.entity db))) =
        .close (newEntry w db (si.entity db)) (.fail .toomany listFull [req.chan.name]) := by
      rw [hnew, akickAddBody]
      exact if_pos hfull
    have hclose : chanacsClose (req.mc, t) ((db.acl.insertNew (req.mc, t)
        (newEntry w db (si.entity db))).set (req.mc, t) (newEntry w db (si.entity db))) = db.acl := by
      have hself : (db.acl.insertNew (req.mc, t) (newEntry w db (si.entity db))).find (req.mc, t) =
          some (newEntry w db (si.entity db)) := by
        rw [find_insertNew_self, hnew]
      rw [Registry.set_of_find hself, chanacsClose, hself]
      exact Registry.erase_insertNew hfind
    refine ⟨.fail .toomany listFull [req.chan.name], ?_⟩
    rw [akickAddTo, hopen, withEntry_close hbody, hclose, akickAddedDb, if_pos hfull]
  · have hbody : ∃ reply, akickAddBody cfg w si req t
        { db with acl := db.acl.insertNew (req.mc, t) (newEntry w db (si.entity db)) }
        (openedEntry db.acl (req.mc, t) (newEntry w db (si.entity db))) =
        .close (akickEntry cfg w db si req) reply := by
      rw [hnew, akickAddBody]
      exact ⟨_, if_neg hfull⟩
    obtain ⟨reply, hbody⟩ := hbody
    have hclose : chanacsClose (req.mc, t) ((db.acl.insertNew (req.mc, t)
        (newEntry w db (si.entity db))).set (req.mc, t) (akickEntry cfg w db si req)) =
        db.acl.insertNew (req.mc, t) (akickEntry cfg w db si req) := by
      have hself : (db.acl.insertNew (req.mc, t) (akickEntry cfg w db si req)).find (req.mc, t) =
          some (akickEntry cfg w db si req) := by
        rw [find_insertNew_self, openedEntry, hfind]
        rfl
      rw [Registry.set_insertNew hfind, chanacsClose, hself]
      dsimp only
      rw [akickEntry_level, if_neg (by decide)]
    refine ⟨reply, ?_⟩
    rw [akickAddTo, hopen, withEntry_close hbody, hclose, akickAddedDb, if_neg hfull]

theorem csCmdAkickAdd_eq : ∃ replies, csCmdAkickAdd cfg w s.db si channel parv =
    .done (akickAdd cfg w s si channel parv).db replies := by
  have hto : ∀ {req : AkickRequest} {t : Target},
      akickAddTarget cfg w s.db si channel parv = some (req, t) → ∃ replies,
        akickAddTo cfg w s.db si req t = .done (akickAdd cfg w s si channel parv).db replies := by
    intro req t h
    obtain ⟨hfind, hopen⟩ := akickAddTarget_new h
    obtain ⟨reply, heq⟩ := @akickAddTo_eq cfg w si req t s.db hfind hopen
    refine ⟨[reply], heq.trans ?_⟩
    rw [akickAdd, h, akickAddedDb]
    dsimp only
    split_ifs <;> rfl
  have hnone : ∀ replies, akickAddTarget cfg w s.db si channel parv = none →
      ∃ replies', Outcome.done s.db replies =
        .done (akickAdd cfg w s si channel parv).db replies' := by
    intro replies h
    exact ⟨replies, by rw [akickAdd, h]⟩
  rw [csCmdAkickAdd]
  unfold akickAddTarget at hto hnone
  cases hplan : akickAddPlan cfg w s.db si channel parv with
  | error replies => exact hnone replies (by rw [hplan])
  | ok req =>
    simp only [hplan] at hto hnone ⊢
    cases hmt : myentityFindExt cfg w s.db req.target with
    | some mt =>
      simp only [hmt] at hto hnone ⊢
      cases hf : chanacsFindLiteral s.db.acl req.mc mt 0#32 with
      | some ca => exact hnone _ (by rw [hf])
      | none => exact hto (by rw [hf])
    | none =>
      simp only [hmt] at hto hnone ⊢
      by_cases hv : (!validhostmask ((w.prettyMask req.target).getD req.target)) = true
      · rw [if_pos hv]
        exact hnone _ (if_pos hv)
      · simp only [if_neg hv] at hto hnone ⊢
        cases hf : chanacsFindHostLiteral s.db.acl req.mc
          (w.collapse ((w.prettyMask req.target).getD req.target)) 0#32 with
        | some found => exact hnone _ (by rw [hf])
        | none =>
          simp only [hf] at hto hnone ⊢
          cases hg : chanacsFindHost cfg s.db.acl req.mc
            (w.collapse ((w.prettyMask req.target).getD req.target)) caAkick with
          | some found => exact hnone _ (by rw [hg])
          | none => exact hto (by rw [hg])

theorem csCmdAkickDel_eq : ∃ replies, csCmdAkickDel cfg w s.db si channel parv =
    .done (akickDel cfg w s si channel parv).db replies := by
  rw [csCmdAkickDel, akickDel, akickDelTarget]
  cases hplan : akickDelPlan cfg w s.db si channel parv with
  | error replies => exact ⟨_, rfl⟩
  | ok found =>
    obtain ⟨mc, chan, uname⟩ := found
    dsimp only
    cases hmt : myentityFindExt cfg w s.db uname with
    | some mt =>
      dsimp only
      cases hf : chanacsFindLiteral s.db.acl mc mt caAkick with
      | none => exact ⟨_, rfl⟩
      | some ca => exact ⟨_, rfl⟩
    | none =>
      dsimp only
      cases hf : chanacsFindHostLiteral s.db.acl mc uname caAkick with
      | some e => exact ⟨_, rfl⟩
      | none =>
        dsimp only
        cases hg : chanacsFindHost cfg s.db.acl mc uname caAkick with
        | none => exact ⟨_, rfl⟩
        | some e => exact ⟨_, rfl⟩

/-- ADD and DEL, as the runs of the timer have them, do to the database what the commands do. -/
theorem akick_commands_agree (cfg : ChanConfig) (w : World) (s : AkickState) (si : Source)
    (channel : CString) (parv : List CString) :
    (∃ replies, csCmdAkickAdd cfg w s.db si channel parv =
        .done (akickAdd cfg w s si channel parv).db replies) ∧
      ∃ replies, csCmdAkickDel cfg w s.db si channel parv =
        .done (akickDel cfg w s si channel parv).db replies :=
  ⟨csCmdAkickAdd_eq, csCmdAkickDel_eq⟩

end commands

end ChatServices.ChanServ
