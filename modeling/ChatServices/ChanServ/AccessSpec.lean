import ChatServices.ChanServ.Rights

/-! What ACCESS ADD, SET and DEL can do to the rights: one update of the entry that the
target names, with the mask for the source and the checks on founders behind it. -/
namespace ChatServices.ChanServ
open ChatServices.Lib ChatServices.Lib.Mask ChatServices.Lib.MaskUpdate ChatServices.Lib.Rights
open ChatServices.Text

def Target.mt : Target → Option Entity
  | .entity mt => some mt
  | .host _ => none

def AccessRequest.newflags (cfg : ChanConfig) (req : AccessRequest) : Flags :=
  getTemplateFlags cfg (some req.chan) req.role

/-- The checks of ADD and SET on the list and the target: a new entry has room, and a
hostmask gets no flags that need an account. -/
structure RoleFits (cfg : ChanConfig) (w : World) (db : ChanDb) (si : Source)
    (req : AccessRequest) (t : Target) : Prop where
  room : (levelAt db.acl (openKey db.acl req.mc t) = 0#32 &&
    chanacsIsTableFull cfg (bodyDb w db si req.mc t).acl req.mc) = false
  hostFlags : (validhostmask (t.name db) && test (req.newflags cfg) cfg.flagsReqAcct) = false

structure RoleStep (refusal : ChanDb → MyChanRef → Option Entity → Option Reply)
    (cfg : ChanConfig) (w : World) (db : ChanDb) (si : Source) (req : AccessRequest) (t : Target)
    (c : Change) (restrict : Flags) : Prop where
  asked : c = roleChange cfg (levelAt db.acl (openKey db.acl req.mc t)) (req.newflags cfg)
  mask : accessRestrict cfg req.chan (chanacsSourceFlags cfg w db req.mc si) (si.entity db) t.mt =
    some restrict
  lastFounder : Has (levelAt db.acl (openKey db.acl req.mc t)) 13 → ¬ Has (req.newflags cfg) 13 →
    mychanNumFounders db.acl req.mc ≠ 1
  newFounder : ¬ Has (levelAt db.acl (openKey db.acl req.mc t)) 13 → Has (req.newflags cfg) 13 →
    refusal (bodyDb w db si req.mc t) req.mc t.mt = none
  fits : RoleFits cfg w db si req t

/-- An update of the rights by DEL; `mt` is the entity that the target names. -/
structure DelStep (cfg : ChanConfig) (w : World) (db : ChanDb) (si : Source) (req : AccessRequest)
    (mt : Option Entity) (t : Target) (c : Change) (restrict : Flags) : Prop where
  asked : c = ⟨0#32, levelAt db.acl (openKey db.acl req.mc t)⟩
  mask : accessDelRestrict cfg req.chan (chanacsSourceFlags cfg w db req.mc si) (si.entity db) mt =
    some restrict
  lastFounder : Has (levelAt db.acl (openKey db.acl req.mc t)) 13 →
    mychanNumFounders db.acl req.mc ≠ 1

section bodies
variable {cfg : ChanConfig} {w : World} {db : ChanDb} {si : Source} {req : AccessRequest}

theorem founderCheck_newFounder {refusal : ChanDb → MyChanRef → Option Entity → Option Reply}
    {level newflags : Flags} {t : Target}
    (h : (if !test level caFounder && test newflags caFounder then
      refusal (bodyDb w db si req.mc t) req.mc t.mt else none) = none) :
    ¬ Has level 13 → Has newflags 13 → refusal (bodyDb w db si req.mc t) req.mc t.mt = none := by
  intro hl hn
  rwa [(test_caFounder _).mpr hn, (test_caFounder_eq_false _).mpr hl, Bool.not_false,
    Bool.true_and, if_pos rfl] at h

theorem accessRoleBody_end (refusal : ChanDb → MyChanRef → Option Entity → Option Reply)
    (t : Target) (name : CString)
    (hlast : Has (levelAt db.acl (openKey db.acl req.mc t)) 13 → ¬ Has (req.newflags cfg) 13 →
      mychanNumFounders db.acl req.mc ≠ 1) (hfits : RoleFits cfg w db si req t) :
    BodyEnd w (bodyDb w db si req.mc t) si (bodyEntry w db si req.mc t)
      (RoleStep refusal cfg w db si req t)
      (accessRoleBody refusal cfg w si req t.mt name (bodyDb w db si req.mc t)
        (bodyEntry w db si req.mc t)) := by
  have hlevel : (bodyEntry w db si req.mc t).level = levelAt db.acl (openKey db.acl req.mc t) :=
    bodyEntry_level
  have hf : chanacsSourceFlags cfg w (bodyDb w db si req.mc t) req.mc si =
      chanacsSourceFlags cfg w db req.mc si := chanacsSourceFlags_open rfl req.mc si
  unfold accessRoleBody
  dsimp only
  split
  · exact .leave _
  rename_i restrict hmask
  split
  · exact .stay _
  rename_i hfounder
  split
  · rename_i hok
    rw [hf] at hmask
    rw [hlevel] at hfounder
    exact .change _ _ ⟨congrArg (roleChange cfg · _) hlevel, hmask, hlast,
      founderCheck_newFounder hfounder, hfits⟩ hok
  · exact .leave _

theorem roleFits_of_checks {t : Target}
    (hroom : ¬ ((bodyEntry w db si req.mc t).level = 0#32 &&
      chanacsIsTableFull cfg (bodyDb w db si req.mc t).acl req.mc) = true)
    (hhost : ¬ (validhostmask (t.name db) &&
      test (getTemplateFlags cfg (some req.chan) req.role) cfg.flagsReqAcct) = true) :
    RoleFits cfg w db si req t := by
  rw [bodyEntry_level, Bool.not_eq_true] at hroom
  rw [Bool.not_eq_true] at hhost
  exact ⟨hroom, hhost⟩

theorem accessAddBody_end (t : Target) :
    BodyEnd w (bodyDb w db si req.mc t) si (bodyEntry w db si req.mc t)
      (RoleStep (founderRefusal cfg w) cfg w db si req t)
      (accessAddBody cfg w si req t.mt (t.name db) (bodyDb w db si req.mc t)
        (bodyEntry w db si req.mc t)) := by
  unfold accessAddBody
  dsimp only
  split
  · exact .stay _
  rename_i hroom
  split
  · exact .leave _
  rename_i hhost
  split
  · exact .stay _
  rename_i hnew
  split
  · exact .stay _
  have hzero : levelAt db.acl (openKey db.acl req.mc t) = 0#32 := by
    rw [← bodyEntry_level]
    exact not_not.mp hnew
  refine accessRoleBody_end _ t _ (fun h13 => ?_) (roleFits_of_checks hroom hhost)
  rw [hzero] at h13
  exact absurd h13 (has_zero 13)

theorem accessSetBody_end (t : Target) :
    BodyEnd w (bodyDb w db si req.mc t) si (bodyEntry w db si req.mc t)
      (RoleStep (setFounderRefusal cfg w) cfg w db si req t)
      (accessSetBody cfg w si req t.mt (t.name db) (bodyDb w db si req.mc t)
        (bodyEntry w db si req.mc t)) := by
  have hnum : mychanNumFounders (bodyDb w db si req.mc t).acl req.mc =
      mychanNumFounders db.acl req.mc := mychanNumFounders_open rfl req.mc
  unfold accessSetBody
  dsimp only
  split
  · exact .stay _
  rename_i hroom
  split
  · exact .leave _
  rename_i hhost
  split
  · exact .stay _
  split
  · exact .leave _
  rename_i hlast
  refine accessRoleBody_end _ t _ (fun h13 hnot hone => hlast ?_)
    (roleFits_of_checks hroom hhost)
  rw [AccessRequest.newflags] at hnot
  rw [bodyEntry_level, hnum, (test_caFounder _).mpr h13, (test_caFounder_eq_false _).mpr hnot,
    hone]
  rfl

theorem accessDelBody_end (mt : Option Entity) (t : Target) (name : CString) :
    BodyEnd w (bodyDb w db si req.mc t) si (bodyEntry w db si req.mc t)
      (DelStep cfg w db si req mt t)
      (accessDelBody cfg w si req mt name (bodyDb w db si req.mc t)
        (bodyEntry w db si req.mc t)) := by
  have hlevel : (bodyEntry w db si req.mc t).level = levelAt db.acl (openKey db.acl req.mc t) :=
    bodyEntry_level
  have hf : chanacsSourceFlags cfg w (bodyDb w db si req.mc t) req.mc si =
      chanacsSourceFlags cfg w db req.mc si := chanacsSourceFlags_open rfl req.mc si
  have hnum : mychanNumFounders (bodyDb w db si req.mc t).acl req.mc =
      mychanNumFounders db.acl req.mc := mychanNumFounders_open rfl req.mc
  unfold accessDelBody
  split
  · exact .stay _
  split
  · exact .leave _
  rename_i hlast
  split
  · exact .leave _
  rename_i restrict hmask
  dsimp only
  split
  · rename_i hok
    rw [hf] at hmask
    refine .change _ _ ⟨congrArg (Change.mk 0#32) hlevel, hmask, ?_⟩ hok
    intro h13 hone
    rw [hlevel, hnum, (test_caFounder _).mpr h13, hone] at hlast
    exact hlast rfl
  · exact .leave _

theorem accessApply_rights {P : Target → Change → Flags → Prop}
    {body : Option Entity → CString → ChanDb → Chanacs → EntryEnd EntryResult}
    {finish : Option Entity → CString → Flags → Modified → Option (List Reply)}
    (hbody : ∀ t, BodyEnd w (bodyDb w db si req.mc t) si (bodyEntry w db si req.mc t) (P t)
      (body t.mt (t.name db) (bodyDb w db si req.mc t) (bodyEntry w db si req.mc t)))
    {db' : ChanDb} {replies : List Reply}
    (h : accessApply cfg w db si req body finish = .done db' replies) :
    db' = { db with acl := db'.acl } ∧
      (levelAt db'.acl = levelAt db.acl ∨
        ∃ t c restrict, commandTarget cfg w db req.target = some t ∧ P t c restrict ∧
          finish t.mt (t.name db) (levelAt db.acl (openKey db.acl req.mc t))
            (bodyModify w db si req.mc t c restrict) = some replies ∧
          Update (levelAt db.acl) (levelAt db'.acl) (openKey db.acl req.mc t) c.add c.rem
            restrict) := by
  unfold accessApply at h
  by_cases hv : validhostmask req.target = true
  · rw [if_pos hv] at h
    obtain ⟨hdb, hstep⟩ := editEntry_rights (hbody (.host req.target)) h
    refine ⟨hdb, hstep.imp id ?_⟩
    rintro ⟨c, restrict, hP, hu⟩
    exact ⟨_, c, restrict, by rw [commandTarget, if_pos hv], hP.1, hP.2, hu⟩
  · rw [if_neg hv] at h
    cases hm : myentityFindExt cfg w db req.target with
    | none =>
      rw [hm] at h
      cases h
      exact ⟨rfl, .inl rfl⟩
    | some e =>
      rw [hm] at h
      obtain ⟨hdb, hstep⟩ := editEntry_rights (hbody (.entity e)) h
      refine ⟨hdb, hstep.imp id ?_⟩
      rintro ⟨c, restrict, hP, hu⟩
      exact ⟨.entity e, c, restrict, by rw [commandTarget, if_neg hv, hm]; rfl, hP.1, hP.2, hu⟩

theorem accessDelApply_rights {db' : ChanDb} {replies : List Reply}
    (h : accessDelApply cfg w db si req = .done db' replies) :
    db' = { db with acl := db'.acl } ∧
      (levelAt db'.acl = levelAt db.acl ∨
        ∃ t c restrict, commandTarget cfg w db req.target = some t ∧
          DelStep cfg w db si req (myentityFindExt cfg w db req.target) t c restrict ∧
          (myentityFindExt cfg w db req.target).any
            (fun mt => mt.isuser && notifyCrashes cfg db si mt) = false ∧
          Update (levelAt db.acl) (levelAt db'.acl) (openKey db.acl req.mc t) c.add c.rem
            restrict) := by
  have htold : ∀ {mt name oldlevel}, accessDelFinish cfg db si req mt name oldlevel = some replies →
      mt.any (fun mt => mt.isuser && notifyCrashes cfg db si mt) = false := by
    intro mt name oldlevel hfin
    rw [accessDelFinish] at hfin
    split_ifs at hfin with hcrash
    exact Bool.not_eq_true _ ▸ hcrash
  unfold accessDelApply at h
  by_cases hv : validhostmask req.target = true
  · simp only [if_pos hv] at h
    obtain ⟨hdb, hstep⟩ := editEntry_rights (accessDelBody_end _ (.host req.target) req.target) h
    refine ⟨hdb, hstep.imp id ?_⟩
    rintro ⟨c, restrict, ⟨hP, hfin⟩, hu⟩
    exact ⟨_, c, restrict, by rw [commandTarget, if_pos hv], hP, htold hfin, hu⟩
  · simp only [if_neg hv] at h
    cases hm : myentityFindExt cfg w db req.target with
    | none =>
      rw [hm] at h
      cases h
      exact ⟨rfl, .inl rfl⟩
    | some e =>
      simp only [hm] at h
      obtain ⟨hdb, hstep⟩ := editEntry_rights (accessDelBody_end _ (.entity e) (e.name db)) h
      refine ⟨hdb, hstep.imp id ?_⟩
      rintro ⟨c, restrict, ⟨hP, hfin⟩, hu⟩
      exact ⟨.entity e, c, restrict, by rw [commandTarget, if_neg hv, hm]; rfl, hP, htold hfin, hu⟩

theorem accessDelBody_permitted {t : Target} {mt : Option Entity} {restrict : Flags}
    (name : CString) (hne : levelAt db.acl (openKey db.acl req.mc t) ≠ 0#32)
    (h13 : ¬ Has (levelAt db.acl (openKey db.acl req.mc t)) 13)
    (hmask : accessDelRestrict cfg req.chan (chanacsSourceFlags cfg w db req.mc si)
      (si.entity db) mt = some restrict)
    (hperm : Permits restrict (levelAt db.acl (openKey db.acl req.mc t)) 0#32
      (levelAt db.acl (openKey db.acl req.mc t))) :
    accessDelBody cfg w si req mt name (bodyDb w db si req.mc t) (bodyEntry w db si req.mc t) =
      .close (bodyModify w db si req.mc t
          ⟨0#32, levelAt db.acl (openKey db.acl req.mc t)⟩ restrict).ca
        (.changed (bodyEntry w db si req.mc t).level (bodyModify w db si req.mc t
          ⟨0#32, levelAt db.acl (openKey db.acl req.mc t)⟩ restrict)) := by
  have hlevel : (bodyEntry w db si req.mc t).level = levelAt db.acl (openKey db.acl req.mc t) :=
    bodyEntry_level
  have hf : chanacsSourceFlags cfg w (bodyDb w db si req.mc t) req.mc si =
      chanacsSourceFlags cfg w db req.mc si := chanacsSourceFlags_open rfl req.mc si
  have hmask' : accessDelRestrict cfg req.chan (chanacsSourceFlags cfg w db req.mc si)
      (si.entity (bodyDb w db si req.mc t)) mt = some restrict := hmask
  have hok : (bodyModify w db si req.mc t
      ⟨0#32, levelAt db.acl (openKey db.acl req.mc t)⟩ restrict).ok = true := bodyModify_ok hperm
  unfold accessDelBody
  rw [hlevel, if_neg hne, (test_caFounder_eq_false _).mpr h13, Bool.false_and,
    if_neg Bool.false_ne_true, hf, hmask']
  exact if_pos hok

end bodies

/-! ### The checks on a new founder -/

section founder
variable {cfg : ChanConfig} {w : World} {db : ChanDb} {mc : MyChanRef} {mt : Option Entity}

theorem founderRefusal_none (h : founderRefusal cfg w db mc mt = none) :
    mychanNumFounders db.acl mc < cfg.maxfounders ∧
      ∃ e, mt = some e ∧ myentityCanRegisterChannel cfg w db e = true ∧
        myentityAllowFoundership db e = true := by
  unfold founderRefusal at h
  split_ifs at h with hmax
  cases mt with
  | none => cases h
  | some e =>
    simp only at h
    split_ifs at h with hreg hallow
    rw [Bool.not_eq_true', Bool.not_eq_false] at hreg hallow
    exact ⟨by omega, e, rfl, hreg, hallow⟩

theorem setFounderRefusal_none (h : setFounderRefusal cfg w db mc mt = none) :
    mychanNumFounders db.acl mc < cfg.maxfounders ∧
      ∃ e, mt = some e ∧ myentityCanRegisterChannel cfg w db e = true := by
  unfold setFounderRefusal at h
  split_ifs at h with hmax
  cases mt with
  | none => cases h
  | some e =>
    simp only at h
    split_ifs at h with hreg
    rw [Bool.not_eq_true', Bool.not_eq_false] at hreg
    exact ⟨by omega, e, rfl, hreg⟩

end founder

/-! ### Plans -/

section plan
variable {cfg : ChanConfig} {w : World} {db : ChanDb} {si : Source} {channel : CString}
  {parv : List CString} {req : AccessRequest}

theorem accessPlan_ok {cmd syntaxLine : String}
    (h : accessPlan cfg w db si cmd syntaxLine channel parv = .ok req) :
    mychanFind cfg db channel = some (req.mc, req.chan) := by
  unfold accessPlan at h
  cases hc : mychanFind cfg db channel with
  | none => rw [hc] at h; cases h
  | some found =>
    rw [hc] at h
    match parv, h with
    | [], h => cases h
    | [_], h => cases h
    | target :: role :: rest, h =>
      dsimp only at h
      split_ifs at h
      cases h
      rfl

theorem accessDelPlan_ok (h : accessDelPlan cfg w db si channel parv = .ok req) :
    mychanFind cfg db channel = some (req.mc, req.chan) ∧ parv.head? = some req.target := by
  unfold accessDelPlan at h
  cases hc : mychanFind cfg db channel with
  | none => rw [hc] at h; cases h
  | some found =>
    rw [hc] at h
    cases parv with
    | nil => cases h
    | cons target rest =>
      dsimp only at h
      split_ifs at h
      cases h
      exact ⟨rfl, rfl⟩

theorem accessDelPlan_self {mc : MyChanRef} {chan : MyChan} {target : CString}
    (hchan : mychanFind cfg db channel = some (mc, chan)) (hhead : parv.head? = some target)
    (hself : si.entity db = myentityFindExt cfg w db target) :
    accessDelPlan cfg w db si channel parv = .ok ⟨mc, chan, channel, target, []⟩ := by
  cases parv with
  | nil => cases hhead
  | cons target' rest =>
    cases hhead
    simp only [accessDelPlan, hchan]
    rw [if_neg (by simp [hself])]

end plan

end ChatServices.ChanServ
