import ChatServices.ChanServ.AccessSpec
import ChatServices.ChanServ.TemplateSpec

/-! ACCESS as transactions on a list without entries of level 0. A handler that returns
without closing the entry it opened leaves a new one on the list; a later ROLE ADD or
TEMPLATE finds it there. -/
namespace ChatServices.ChanServ
open ChatServices.Lib ChatServices.Lib.Mask ChatServices.Lib.MaskUpdate ChatServices.Lib.Rights
open ChatServices.Text

def NoEmpty (acl : AccessList) (mc : MyChanRef) : Prop :=
  ∀ e ∈ chanacsOf acl mc, e.2.level ≠ 0#32

theorem noEmpty_iff (acl : AccessList) (mc : MyChanRef) :
    NoEmpty acl mc ↔ ∀ t ca, acl.find (mc, t) = some ca → ca.level ≠ 0#32 := by
  constructor
  · intro h t ca hf
    exact h (t, ca) ((mem_chanacsOf acl mc t ca).mpr hf)
  · rintro h ⟨t, ca⟩ he
    exact h t ca ((mem_chanacsOf acl mc t ca).mp he)

structure Atomic (mc : MyChanRef) (acl acl' : AccessList) (replies : List Reply) : Prop where
  fail : (∃ r ∈ replies, r.isFail = true) → acl' = acl
  noEmpty : NoEmpty acl' mc

theorem atomic_refl {mc : MyChanRef} {acl : AccessList} (h : NoEmpty acl mc)
    (replies : List Reply) : Atomic mc acl acl replies :=
  ⟨fun _ => rfl, h⟩

section edit
variable {w : World} {db : ChanDb} {si : Source} {mc : MyChanRef} {t : Target}

theorem NoEmpty.at_key {acl : AccessList} (h : NoEmpty acl mc) {ca : Chanacs}
    (hf : acl.find (openKey acl mc t) = some ca) : ca.level ≠ 0#32 := by
  refine (noEmpty_iff acl mc).mp h (openKey acl mc t).2 ca ?_
  rw [← hf]
  exact congrArg (Registry.find · acl) (Prod.ext (openKey_fst acl mc t).symm rfl)

theorem closedDb_bodyEntry (h : NoEmpty db.acl mc) :
    (closedDb w db si mc t (bodyEntry w db si mc t)).acl = db.acl := by
  show chanacsClose _ ((db.acl.insertNew _ _).set _ _) = _
  have hself : (db.acl.insertNew (openKey db.acl mc t) (newEntry w db (si.entity db))).find
      (openKey db.acl mc t) = some (bodyEntry w db si mc t) := find_insertNew_self
  rw [Registry.set_of_find hself, chanacsClose, hself, bodyEntry]
  cases hf : db.acl.find (openKey db.acl mc t) with
  | none =>
    rw [openedEntry, hf]
    exact (if_pos rfl).trans (Registry.erase_insertNew hf)
  | some ca =>
    rw [openedEntry, hf]
    exact (if_neg (h.at_key hf)).trans (Registry.insertNew_of_find hf)

theorem closedDb_noEmpty (h : NoEmpty db.acl mc) (ca : Chanacs) :
    NoEmpty (closedDb w db si mc t ca).acl mc := by
  rw [noEmpty_iff] at h ⊢
  intro t' ca' hf
  replace hf : (chanacsClose (openKey db.acl mc t) ((bodyDb w db si mc t).acl.set
      (openKey db.acl mc t) ca)).find (mc, t') = some ca' := hf
  rw [find_chanacsClose] at hf
  split_ifs at hf with hclose
  by_cases hk : (mc, t') = openKey db.acl mc t
  · intro h0
    refine hclose ⟨hk, ?_⟩
    rw [← hk]
    rw [← hk] at hf
    rw [levelAt_of_find hf, h0]
  · rw [Registry.find_set, if_neg hk] at hf
    replace hf : (db.acl.insertNew (openKey db.acl mc t) _).find (mc, t') = some ca' := hf
    rw [Registry.find_insertNew, if_neg (Ne.symm hk), Option.or_none] at hf
    exact h t' ca' hf

theorem not_noEmpty_bodyDb (hnew : db.acl.find (openKey db.acl mc t) = none) :
    ¬ NoEmpty (bodyDb w db si mc t).acl mc := by
  intro h
  have hfind : (bodyDb w db si mc t).acl.find (openKey db.acl mc t) =
      some (newEntry w db (si.entity db)) := by
    show (db.acl.insertNew _ _).find _ = _
    rw [find_insertNew_self, openedEntry, hnew]
    rfl
  have hkey : openKey db.acl mc t = (mc, (openKey db.acl mc t).2) :=
    Prod.ext (openKey_fst db.acl mc t) rfl
  rw [hkey] at hfind
  exact (noEmpty_iff _ mc).mp h _ _ hfind rfl

theorem editEntry_atomic_iff {body : ChanDb → Chanacs → EntryEnd EntryResult}
    {finish : Flags → Modified → Option (List Reply)} {P : Change → Flags → Prop}
    (h : NoEmpty db.acl mc)
    (hbody : BodyEnd w (bodyDb w db si mc t) si (bodyEntry w db si mc t) P
      (body (bodyDb w db si mc t) (bodyEntry w db si mc t)))
    (hfinish : ∀ old m replies, finish old m = some replies → (∃ r ∈ replies, r.isFail = true) →
      m.change.add ||| m.change.rem = 0#32) :
    (∀ db' replies, editEntry w db si mc t body finish = .done db' replies →
        Atomic mc db.acl db'.acl replies) ↔
      ¬ (db.acl.find (openKey db.acl mc t) = none ∧
        ∃ reply, body (bodyDb w db si mc t) (bodyEntry w db si mc t) =
          .leave (.stopped reply)) := by
  constructor
  · rintro hall ⟨hnew, reply, hb⟩
    have hdone : editEntry w db si mc t body finish = .done (bodyDb w db si mc t) [reply] := by
      unfold editEntry
      rw [withEntry_leave hb]
      rfl
    exact not_noEmpty_bodyDb hnew (hall _ _ hdone).noEmpty
  · intro hnot db' replies hdone
    obtain ⟨reply, hb, rfl, -⟩ | ⟨old, m, hb⟩ | ⟨ca, r, hb, rfl, hr⟩ := editEntry_cases hdone
    · cases hf : db.acl.find (openKey db.acl mc t) with
      | none => exact absurd ⟨hf, reply, hb⟩ hnot
      | some ca =>
        have hacl : (bodyDb w db si mc t).acl = db.acl := Registry.insertNew_of_find hf
        rw [hacl]
        exact atomic_refl h replies
    · rw [hb] at hbody
      cases hbody
    · rw [hb] at hbody
      refine ⟨fun hfail => ?_, closedDb_noEmpty h ca⟩
      cases hbody with
      | stay reply => exact closedDb_bodyEntry h
      | change c restrict hP hok =>
        obtain ⟨reply, hr, -⟩ | ⟨old, m, hr, hfin⟩ := hr
        · cases hr
        · cases hr
          rw [chanacsModify_unchanged (hfinish _ _ _ hfin hfail)]
          exact closedDb_bodyEntry h

end edit

/-! ### ADD and SET -/

section role
variable {cfg : ChanConfig} {w : World} {db : ChanDb} {si : Source} {req : AccessRequest}
  {refusal : ChanDb → MyChanRef → Option Entity → Option Reply}

/-- What ADD and SET refuse without closing the entry: a hostmask is to get flags that need
an account, the source may not act on itself, or the role has flags it may not give. -/
structure LeavesOpen (refusal : ChanDb → MyChanRef → Option Entity → Option Reply)
    (cfg : ChanConfig) (w : World) (db : ChanDb) (si : Source) (req : AccessRequest)
    (t : Target) : Prop where
  room : chanacsIsTableFull cfg (bodyDb w db si req.mc t).acl req.mc = false
  refused : (validhostmask (t.name db) && test (req.newflags cfg) cfg.flagsReqAcct) = true ∨
    req.newflags cfg ≠ 0#32 ∧
      (accessRestrict cfg req.chan (chanacsSourceFlags cfg w db req.mc si) (si.entity db) t.mt =
          none ∨
        ∃ restrict, accessRestrict cfg req.chan (chanacsSourceFlags cfg w db req.mc si)
            (si.entity db) t.mt = some restrict ∧
          ¬ Sub (req.newflags cfg) restrict ∧
          (Has (req.newflags cfg) 13 → refusal (bodyDb w db si req.mc t) req.mc t.mt = none))

structure Leaks (refusal : ChanDb → MyChanRef → Option Entity → Option Reply) (cfg : ChanConfig)
    (w : World) (db : ChanDb) (si : Source) (req : AccessRequest) (t : Target) : Prop where
  target : commandTarget cfg w db req.target = some t
  new : db.acl.find (openKey db.acl req.mc t) = none
  leaves : LeavesOpen refusal cfg w db si req t

theorem role_of_fresh {ca : Chanacs} {newflags restrict : Flags} {setter : Option Entity}
    (h0 : ca.level = 0#32) (hne : newflags ≠ 0#32) :
    (chanacsModify w db ca (roleChange cfg ca.level newflags) restrict setter).ok = true ↔
      Sub newflags restrict := by
  have hadd : ∀ i, Has (roleChange cfg ca.level newflags).add i ↔ Has newflags i := by
    intro i
    rw [roleChange, h0, has_and, has_not]
    exact ⟨And.left, fun h => ⟨h, h.lt, has_zero i⟩⟩
  rw [chanacsModify_ok_iff]
  constructor
  · rintro (hsame | hperm)
    · refine absurd ((eq_zero_iff newflags).mpr fun i hi => ?_) hne
      have hres := (has_result ca.level (roleChange cfg ca.level newflags).add
        (roleChange cfg ca.level newflags).rem i).mpr
          (.inr ⟨h0 ▸ has_zero i, (hadd i).mpr hi⟩)
      rw [hsame, h0] at hres
      exact has_zero i hres
    · rw [sub_iff]
      intro i hi
      exact hperm.1.has ((has_added _ _ i).mpr ⟨(hadd i).mpr hi, h0 ▸ has_zero i⟩)
  · intro hsub
    refine .inr ⟨(sub_iff _ _).mpr fun i hi => ?_, (sub_iff _ _).mpr fun i hi => ?_, ?_⟩
    · exact hsub.has ((hadd i).mp ((has_added _ _ i).mp hi).1)
    · rw [h0] at hi
      exact absurd ((has_removed _ _ _ i).mp hi).2 (has_zero i)
    · rw [h0]
      exact zero_sub _

theorem bodyEntry_level_new {mc : MyChanRef} {t : Target}
    (hnew : db.acl.find (openKey db.acl mc t) = none) :
    (bodyEntry w db si mc t).level = 0#32 := by
  rw [bodyEntry_level, levelAt, hnew]
  rfl

theorem accessRoleBody_leaves_iff {t : Target} {name : CString}
    (hnew : db.acl.find (openKey db.acl req.mc t) = none) (hne : req.newflags cfg ≠ 0#32) :
    (∃ reply, accessRoleBody refusal cfg w si req t.mt name (bodyDb w db si req.mc t)
        (bodyEntry w db si req.mc t) = .leave (.stopped reply)) ↔
      accessRestrict cfg req.chan (chanacsSourceFlags cfg w db req.mc si) (si.entity db) t.mt =
          none ∨
        ∃ restrict, accessRestrict cfg req.chan (chanacsSourceFlags cfg w db req.mc si)
            (si.entity db) t.mt = some restrict ∧
          ¬ Sub (req.newflags cfg) restrict ∧
          (Has (req.newflags cfg) 13 → refusal (bodyDb w db si req.mc t) req.mc t.mt = none) := by
  have h0 : (bodyEntry w db si req.mc t).level = 0#32 := bodyEntry_level_new hnew
  have hf : chanacsSourceFlags cfg w (bodyDb w db si req.mc t) req.mc si =
      chanacsSourceFlags cfg w db req.mc si := chanacsSourceFlags_open rfl req.mc si
  have hsrc : si.entity (bodyDb w db si req.mc t) = si.entity db := rfl
  have hcheck : (if !test (bodyEntry w db si req.mc t).level caFounder &&
        test (req.newflags cfg) caFounder then
      refusal (bodyDb w db si req.mc t) req.mc t.mt else none) = none ↔
      (Has (req.newflags cfg) 13 → refusal (bodyDb w db si req.mc t) req.mc t.mt = none) := by
    rw [h0, test_zero_left, Bool.not_false, Bool.true_and, ← test_caFounder]
    split_ifs with h13 <;> simp [h13]
  rw [AccessRequest.newflags] at hcheck
  unfold accessRoleBody
  rw [hf, hsrc]
  cases hmask : accessRestrict cfg req.chan (chanacsSourceFlags cfg w db req.mc si)
      (si.entity db) t.mt with
  | none => exact iff_of_true ⟨_, rfl⟩ (.inl rfl)
  | some restrict =>
    dsimp only
    cases hrefusal : (if !test (bodyEntry w db si req.mc t).level caFounder &&
        test (getTemplateFlags cfg (some req.chan) req.role) caFounder then
      refusal (bodyDb w db si req.mc t) req.mc t.mt else none) with
    | some reply =>
      refine iff_of_false ?_ ?_
      · rintro ⟨_, h⟩
        cases h
      rintro (h | ⟨r, -, -, h⟩)
      · cases h
      · rw [hcheck.mpr h] at hrefusal
        cases hrefusal
    | none =>
      have hok : (chanacsModify w (bodyDb w db si req.mc t) (bodyEntry w db si req.mc t)
          (roleChange cfg (bodyEntry w db si req.mc t).level (getTemplateFlags cfg (some req.chan)
            req.role)) restrict (si.entity db)).ok = true ↔ Sub (req.newflags cfg) restrict :=
        role_of_fresh h0 hne
      dsimp only
      split_ifs with hmod
      · refine iff_of_false ?_ ?_
        · rintro ⟨_, h⟩
          cases h
        rintro (h | ⟨r, hr, hsub, -⟩)
        · cases h
        · cases hr
          exact hsub (hok.mp hmod)
      · exact iff_of_true ⟨_, rfl⟩ (.inr ⟨restrict, rfl, fun h => hmod (hok.mpr h),
          hcheck.mp hrefusal⟩)

theorem fresh_leaves_iff {t : Target} {body : EntryEnd EntryResult} {full masked missing : Reply}
    (hnew : db.acl.find (openKey db.acl req.mc t) = none)
    (hbody : body =
      if chanacsIsTableFull cfg (bodyDb w db si req.mc t).acl req.mc = true then
        .close (bodyEntry w db si req.mc t) (.stopped full)
      else if (validhostmask (t.name db) && test (req.newflags cfg) cfg.flagsReqAcct) = true then
        .leave (.stopped masked)
      else if req.newflags cfg = 0#32 then .close (bodyEntry w db si req.mc t) (.stopped missing)
      else accessRoleBody refusal cfg w si req t.mt (t.name db) (bodyDb w db si req.mc t)
        (bodyEntry w db si req.mc t)) :
    (∃ reply, body = .leave (.stopped reply)) ↔ LeavesOpen refusal cfg w db si req t := by
  rw [hbody]
  by_cases hfull : chanacsIsTableFull cfg (bodyDb w db si req.mc t).acl req.mc = true
  · rw [if_pos hfull]
    refine iff_of_false ?_ fun h => Bool.noConfusion (h.room.symm.trans hfull)
    rintro ⟨_, hclose⟩
    cases hclose
  rw [if_neg hfull]
  rw [Bool.not_eq_true] at hfull
  by_cases hhost : (validhostmask (t.name db) && test (req.newflags cfg) cfg.flagsReqAcct) = true
  · rw [if_pos hhost]
    exact iff_of_true ⟨_, rfl⟩ ⟨hfull, .inl hhost⟩
  rw [if_neg hhost]
  by_cases hzero : req.newflags cfg = 0#32
  · rw [if_pos hzero]
    refine iff_of_false ?_ fun h => h.refused.elim hhost fun hrole => hrole.1 hzero
    rintro ⟨_, hclose⟩
    cases hclose
  · rw [if_neg hzero, accessRoleBody_leaves_iff hnew hzero]
    constructor
    · exact fun h => ⟨hfull, .inr ⟨hzero, h⟩⟩
    · exact fun h => (h.refused.resolve_left hhost).2

theorem accessAddBody_leaves_iff {t : Target}
    (hnew : db.acl.find (openKey db.acl req.mc t) = none) :
    (∃ reply, accessAddBody cfg w si req t.mt (t.name db) (bodyDb w db si req.mc t)
        (bodyEntry w db si req.mc t) = .leave (.stopped reply)) ↔
      LeavesOpen (founderRefusal cfg w) cfg w db si req t := by
  have h0 : (bodyEntry w db si req.mc t).level = 0#32 := bodyEntry_level_new hnew
  apply fresh_leaves_iff hnew
  simp only [accessAddBody, h0, decide_true, Bool.true_and, ne_eq, not_true_eq_false, if_false]
  rfl

theorem accessSetBody_leaves_iff {t : Target}
    (hnew : db.acl.find (openKey db.acl req.mc t) = none) :
    (∃ reply, accessSetBody cfg w si req t.mt (t.name db) (bodyDb w db si req.mc t)
        (bodyEntry w db si req.mc t) = .leave (.stopped reply)) ↔
      LeavesOpen (setFounderRefusal cfg w) cfg w db si req t := by
  have h0 : (bodyEntry w db si req.mc t).level = 0#32 := bodyEntry_level_new hnew
  have hlast : test (0#32 : Flags) caFounder = false := test_zero_left _
  apply fresh_leaves_iff hnew
  simp only [accessSetBody, h0, hlast, decide_true, Bool.true_and, Bool.false_and,
    Bool.false_eq_true, if_false]
  rfl

theorem accessFinish_fail {mt : Option Entity} {name : CString} {m : Modified} {reply : Reply}
    {replies : List Reply} (hreply : reply.isFail = false)
    (h : accessFinish cfg db si req mt name m reply = some replies)
    (hfail : ∃ r ∈ replies, r.isFail = true) : m.change.add ||| m.change.rem = 0#32 := by
  rw [accessFinish] at h
  split_ifs at h with hempty
  · exact (bitmaskToFlags2_eq_nil _ _ _).mp hempty
  · cases h
    obtain ⟨r, hr, hf⟩ := hfail
    rw [List.mem_singleton.mp hr, hreply] at hf
    cases hf

theorem accessApply_atomic_iff {P : Target → Change → Flags → Prop}
    {body : Option Entity → CString → ChanDb → Chanacs → EntryEnd EntryResult}
    {finish : Option Entity → CString → Flags → Modified → Option (List Reply)}
    (h : NoEmpty db.acl req.mc)
    (hbody : ∀ t, BodyEnd w (bodyDb w db si req.mc t) si (bodyEntry w db si req.mc t) (P t)
      (body t.mt (t.name db) (bodyDb w db si req.mc t) (bodyEntry w db si req.mc t)))
    (hfinish : ∀ mt name old m replies, finish mt name old m = some replies →
      (∃ r ∈ replies, r.isFail = true) → m.change.add ||| m.change.rem = 0#32)
    (hleaves : ∀ t, db.acl.find (openKey db.acl req.mc t) = none →
      ((∃ reply, body t.mt (t.name db) (bodyDb w db si req.mc t) (bodyEntry w db si req.mc t) =
        .leave (.stopped reply)) ↔ LeavesOpen refusal cfg w db si req t)) :
    (∀ db' replies, accessApply cfg w db si req body finish = .done db' replies →
        Atomic req.mc db.acl db'.acl replies) ↔
      ¬ ∃ t, Leaks refusal cfg w db si req t := by
  have hedit : ∀ t, (∀ db' replies, editEntry w db si req.mc t (body t.mt (t.name db))
        (finish t.mt (t.name db)) = .done db' replies → Atomic req.mc db.acl db'.acl replies) ↔
      ¬ (db.acl.find (openKey db.acl req.mc t) = none ∧
        LeavesOpen refusal cfg w db si req t) := by
    intro t
    rw [editEntry_atomic_iff h (hbody t) (hfinish t.mt (t.name db))]
    exact not_congr (and_congr_right (hleaves t))
  unfold accessApply
  by_cases hv : validhostmask req.target = true
  · have ht : commandTarget cfg w db req.target = some (.host req.target) := by
      rw [commandTarget, if_pos hv]
    rw [if_pos hv]
    refine (hedit (.host req.target)).trans (not_congr ⟨fun hl => ?_, ?_⟩)
    · exact ⟨_, ht, hl.1, hl.2⟩
    · rintro ⟨t, hl⟩
      cases ht.symm.trans hl.target
      exact ⟨hl.new, hl.leaves⟩
  · rw [if_neg hv]
    cases hm : myentityFindExt cfg w db req.target with
    | none =>
      refine iff_of_true (fun db' replies hdone => ?_) ?_
      · cases hdone
        exact atomic_refl h _
      · rintro ⟨t, hl⟩
        have htarget := hl.target
        rw [commandTarget, if_neg hv, hm] at htarget
        cases htarget
    | some e =>
      have ht : commandTarget cfg w db req.target = some (.entity e) := by
        rw [commandTarget, if_neg hv, hm]
        rfl
      refine (hedit (.entity e)).trans (not_congr ⟨fun hl => ?_, ?_⟩)
      · exact ⟨_, ht, hl.1, hl.2⟩
      · rintro ⟨t, hl⟩
        cases ht.symm.trans hl.target
        exact ⟨hl.new, hl.leaves⟩

/-! ### DEL -/

theorem accessDelBody_new {t : Target} {mt : Option Entity} {name : CString}
    (hnew : db.acl.find (openKey db.acl req.mc t) = none) (reply : Reply) :
    accessDelBody cfg w si req mt name (bodyDb w db si req.mc t) (bodyEntry w db si req.mc t) ≠
      .leave (.stopped reply) := by
  unfold accessDelBody
  rw [if_pos (bodyEntry_level_new hnew)]
  exact fun h => nomatch h

theorem accessDelFinish_fail {mt : Option Entity} {name : CString} {old : Flags}
    {replies : List Reply} (h : accessDelFinish cfg db si req mt name old = some replies)
    (hfail : ∃ r ∈ replies, r.isFail = true) : False := by
  rw [accessDelFinish] at h
  split_ifs at h
  cases h
  obtain ⟨r, hr, hf⟩ := hfail
  rw [List.mem_singleton.mp hr] at hf
  cases hf

theorem accessDelApply_atomic {db' : ChanDb} {replies : List Reply} (h : NoEmpty db.acl req.mc)
    (hdone : accessDelApply cfg w db si req = .done db' replies) :
    Atomic req.mc db.acl db'.acl replies := by
  have hedit : ∀ mt t name db' replies, editEntry w db si req.mc t
      (accessDelBody cfg w si req mt name)
      (fun oldlevel _ => accessDelFinish cfg db si req mt name oldlevel) = .done db' replies →
      Atomic req.mc db.acl db'.acl replies := by
    intro mt t name
    rw [editEntry_atomic_iff h (accessDelBody_end mt t name)
      fun _ _ _ hfin hfail => (accessDelFinish_fail hfin hfail).elim]
    rintro ⟨hnew, reply, hb⟩
    exact accessDelBody_new hnew reply hb
  unfold accessDelApply at hdone
  by_cases hv : validhostmask req.target = true
  · simp only [if_pos hv] at hdone
    exact hedit _ _ _ _ _ hdone
  · simp only [if_neg hv] at hdone
    cases hm : myentityFindExt cfg w db req.target with
    | none =>
      rw [hm] at hdone
      cases hdone
      exact atomic_refl h _
    | some e =>
      simp only [hm] at hdone
      exact hedit _ _ _ _ _ hdone

end role
/-! ### The commands -/

inductive AccessCommand where
  | add (parv : List CString)
  | set (parv : List CString)
  | del (parv : List CString)

def AccessCommand.exec (cfg : ChanConfig) (w : World) (db : ChanDb) (si : Source)
    (channel : CString) : AccessCommand → Outcome
  | .add parv => csCmdAccessAdd cfg w db si channel parv
  | .set parv => csCmdAccessSet cfg w db si channel parv
  | .del parv => csCmdAccessDel cfg w db si channel parv

/-- Atomic, and nothing is left for a new role to update: neither ROLE ADD nor TEMPLATE
with a template that had no flags, whoever sends it, touches the list. -/
structure AtomicAccess (cfg : ChanConfig) (channel : CString) (mc : MyChanRef) (db db' : ChanDb)
    (replies : List Reply) : Prop where
  atomic : Atomic mc db.acl db'.acl replies
  roleAdd : ∀ w si parv db'' replies',
    csCmdRoleAdd cfg w db' si channel parv = .done db'' replies' → db''.acl = db'.acl
  template : ∀ w si parv db'' replies',
    templateOldflags cfg w db' si (channel :: parv) = 0#32 →
    csCmdTemplate cfg w db' si (channel :: parv) = .done db'' replies' → db''.acl = db'.acl

theorem atomicAccess_iff {cfg : ChanConfig} {channel : CString} {mc : MyChanRef} {chan : MyChan}
    {db db' : ChanDb} {replies : List Reply}
    (hchan : mychanFind cfg db' channel = some (mc, chan)) :
    AtomicAccess cfg channel mc db db' replies ↔ Atomic mc db.acl db'.acl replies := by
  constructor
  · exact AtomicAccess.atomic
  · intro h
    refine ⟨h, fun w si parv db'' replies' hdone => ?_,
      fun w si parv db'' replies' hold hdone => ?_⟩
    · obtain rfl | ⟨mc', chan', hfind, hstep⟩ := csCmdRoleAdd_bulk hdone
      · rfl
      · rw [hchan] at hfind
        cases hfind
        exact hstep.unchanged h.noEmpty
    · obtain rfl | ⟨mc', chan', hfind, hstep⟩ := csCmdTemplate_bulk hdone
      · rfl
      · rw [hchan] at hfind
        cases hfind
        rw [hold] at hstep
        exact hstep.unchanged h.noEmpty

def LeavesEmpty (cfg : ChanConfig) (w : World) (db : ChanDb) (si : Source) (channel : CString) :
    AccessCommand → Prop
  | .add parv => ∃ req t, accessPlan cfg w db si "ACCESS ADD"
      "Syntax: ACCESS <#channel> ADD <account|hostmask> <role>" channel parv = .ok req ∧
      Leaks (founderRefusal cfg w) cfg w db si req t
  | .set parv => ∃ req t, accessPlan cfg w db si "ACCESS SET"
      "Syntax: ACCESS <#channel> SET <account|hostmask> <role>" channel parv = .ok req ∧
      Leaks (setFounderRefusal cfg w) cfg w db si req t
  | .del _ => False

section commands
variable {cfg : ChanConfig} {w : World} {db : ChanDb} {si : Source} {channel : CString}
  {mc : MyChanRef} {chan : MyChan}

theorem atomicAccess_of_acl {out : Outcome}
    (hchan : mychanFind cfg db channel = some (mc, chan))
    (hdb : ∀ db' replies, out = .done db' replies → db' = { db with acl := db'.acl }) :
    (∀ db' replies, out = .done db' replies → AtomicAccess cfg channel mc db db' replies) ↔
      ∀ db' replies, out = .done db' replies → Atomic mc db.acl db'.acl replies := by
  refine forall_congr' fun db' => forall_congr' fun replies => imp_congr_right fun hdone => ?_
  have hfound : mychanFind cfg db' channel = some (mc, chan) := by
    rw [hdb db' replies hdone]
    exact hchan
  exact atomicAccess_iff hfound

theorem planned_atomic_iff {refusal : ChanDb → MyChanRef → Option Entity → Option Reply}
    {plan : Except (List Reply) AccessRequest}
    {body : AccessRequest → Option Entity → CString → ChanDb → Chanacs → EntryEnd EntryResult}
    {finish : AccessRequest → Option Entity → CString → Flags → Modified → Option (List Reply)}
    (hchan : mychanFind cfg db channel = some (mc, chan)) (h : NoEmpty db.acl mc)
    (hplan : ∀ req, plan = .ok req → mychanFind cfg db channel = some (req.mc, req.chan))
    (hbody : ∀ req t, BodyEnd w (bodyDb w db si req.mc t) si (bodyEntry w db si req.mc t)
      (RoleStep refusal cfg w db si req t)
      (body req t.mt (t.name db) (bodyDb w db si req.mc t) (bodyEntry w db si req.mc t)))
    (hfinish : ∀ req mt name old m replies, finish req mt name old m = some replies →
      (∃ r ∈ replies, r.isFail = true) → m.change.add ||| m.change.rem = 0#32)
    (hleaves : ∀ req t, db.acl.find (openKey db.acl req.mc t) = none →
      ((∃ reply, body req t.mt (t.name db) (bodyDb w db si req.mc t)
        (bodyEntry w db si req.mc t) = .leave (.stopped reply)) ↔
        LeavesOpen refusal cfg w db si req t)) :
    (∀ db' replies, (match plan with
        | .error replies => Outcome.done db replies
        | .ok req => accessApply cfg w db si req (body req) (finish req)) =
          Outcome.done db' replies →
        AtomicAccess cfg channel mc db db' replies) ↔
      ¬ ∃ req t, plan = .ok req ∧ Leaks refusal cfg w db si req t := by
  cases plan with
  | error replies =>
    refine iff_of_true (fun db' replies' hdone => ?_) ?_
    · cases hdone
      exact (atomicAccess_iff hchan).mpr (atomic_refl h _)
    · rintro ⟨req, t, hplan, -⟩
      cases hplan
  | ok req =>
    have hfound := hplan req rfl
    rw [hchan] at hfound
    cases hfound
    dsimp only
    rw [atomicAccess_of_acl hchan fun db' replies hdone =>
      (accessApply_rights (hbody req) hdone).1]
    rw [accessApply_atomic_iff h (hbody req) (hfinish req) (hleaves req)]
    refine not_congr ⟨fun ⟨t, hl⟩ => ⟨req, t, rfl, hl⟩, ?_⟩
    rintro ⟨req', t, hreq, hl⟩
    cases hreq
    exact ⟨t, hl⟩

end commands

/-- From a channel without empty entries an ACCESS command is atomic and leaves no empty
entry exactly if it is no ADD or SET on a new target that it refuses by a hostmask's flags,
for the source itself, or for a role that the source may not give. -/
theorem access_atomic_iff (cfg : ChanConfig) (w : World) (db : ChanDb) (si : Source)
    (channel : CString) (mc : MyChanRef) (chan : MyChan) (cmd : AccessCommand)
    (hchan : mychanFind cfg db channel = some (mc, chan)) (h : NoEmpty db.acl mc) :
    (∀ db' replies, cmd.exec cfg w db si channel = .done db' replies →
        AtomicAccess cfg channel mc db db' replies) ↔
      ¬ LeavesEmpty cfg w db si channel cmd := by
  cases cmd with
  | add parv =>
    refine planned_atomic_iff hchan h (fun req hplan => accessPlan_ok hplan)
      (fun req t => accessAddBody_end t)
      (fun req mt name old m replies hfin hfail => ?_)
      (fun req t hnew => accessAddBody_leaves_iff hnew)
    exact accessFinish_fail rfl hfin hfail
  | set parv =>
    refine planned_atomic_iff hchan h (fun req hplan => accessPlan_ok hplan)
      (fun req t => accessSetBody_end t)
      (fun req mt name old m replies hfin hfail => ?_)
      (fun req t hnew => accessSetBody_leaves_iff hnew)
    refine accessFinish_fail ?_ hfin hfail
    split_ifs <;> rfl
  | del parv =>
    refine iff_of_true (fun db' replies hdone => ?_) id
    simp only [AccessCommand.exec, csCmdAccessDel] at hdone
    split at hdone
    · cases hdone
      exact (atomicAccess_iff hchan).mpr (atomic_refl h _)
    · rename_i req hplan
      have hfound := (accessDelPlan_ok hplan).1
      have hdb := (accessDelApply_rights hdone).1
      rw [hchan] at hfound
      cases hfound
      have hfound' : mychanFind cfg db' channel = some (req.mc, req.chan) := by
        rw [hdb]
        exact hchan
      exact (atomicAccess_iff hfound').mpr (accessDelApply_atomic h hdone)

/- A source with `+vf`, which may give nobody the role SOP. -/
def helperDb : ChanDb where
  accounts := sampleAccounts 0#32 []
  groups := .empty
  chans := ⟨[(0, sampleChan "#chan" head_chan [])], nodup_chan⟩
  acl := ⟨[((0, .entity (.user 0)), sampleEntry (caVoice ||| caFlags))], by decide⟩

theorem helperDb_noEmpty : NoEmpty helperDb.acl 0 := by
  unfold NoEmpty
  decide

theorem access_atomic_witness :
    (∀ db' replies, (AccessCommand.add ["bob".toList, "VOP".toList]).exec sampleConfig sampleWorld
        helperDb (.irc sampleUser) "#chan".toList = .done db' replies →
      AtomicAccess sampleConfig "#chan".toList 0 helperDb db' replies) ↔
      ¬ LeavesEmpty sampleConfig sampleWorld helperDb (.irc sampleUser) "#chan".toList
        (.add ["bob".toList, "VOP".toList]) :=
  access_atomic_iff sampleConfig sampleWorld helperDb (.irc sampleUser) "#chan".toList 0
    (sampleChan "#chan" (by decide) []) _ (by decide) helperDb_noEmpty

/-- ACCESS ADD of bob to a role that the source may not give fails and leaves an entry of
level 0 for bob; a later ROLE ADD finds it and gives it the flags of the new role. -/
theorem refused_add_leaves_entry :
    NoEmpty helperDb.acl 0 ∧
      ∃ db' reply, (AccessCommand.add ["bob".toList, "SOP".toList]).exec sampleConfig sampleWorld
          helperDb (.irc sampleUser) "#chan".toList = .done db' [reply] ∧
        reply.isFail = true ∧
        ((db'.acl.find (0, .entity (.user 1))).map Chanacs.level) = some 0#32 ∧
        (∃ db'' replies, csCmdRoleAdd sampleConfig sampleWorld db' (.irc sampleUser)
            "#chan".toList ["helper".toList, "+autovoice".toList] = .done db'' replies ∧
          levelAt db''.acl (0, .entity (.user 1)) = caAutovoice) ∧
        ¬ AtomicAccess sampleConfig "#chan".toList 0 helperDb db' [reply] := by
  refine ⟨helperDb_noEmpty, _, _, rfl, rfl, by decide, ⟨_, _, rfl, by decide⟩, ?_⟩
  intro h
  have hnone := h.atomic.noEmpty
  revert hnone
  unfold NoEmpty
  decide

end ChatServices.ChanServ
