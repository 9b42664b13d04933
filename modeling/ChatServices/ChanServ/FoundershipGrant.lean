import ChatServices.ChanServ.AccessSpec
import ChatServices.ChanServ.CmdClone
import ChatServices.ChanServ.CommandRun
import ChatServices.ChanServ.FlagsSpec

/-! Who is made a founder. FLAGS and ACCESS ADD make every check on a new founder; ACCESS
SET leaves out `myentity_allow_foundership`, and CLONE makes no check at all. -/
namespace ChatServices.ChanServ
open ChatServices.Lib ChatServices.Lib.Mask ChatServices.Lib.MaskUpdate ChatServices.Lib.Rights
open ChatServices.Lib.Run ChatServices.Text

inductive GrantCommand where
  | flags (parv : List CString)
  | accessAdd (channel : CString) (parv : List CString)
  | accessSet (channel : CString) (parv : List CString)
  | clone (parv : List CString)

def GrantCommand.exec (cfg : ChanConfig) (w : World) (db : ChanDb) (si : Source) :
    GrantCommand → Outcome
  | .flags parv => csCmdFlags cfg w db si parv
  | .accessAdd channel parv => csCmdAccessAdd cfg w db si channel parv
  | .accessSet channel parv => csCmdAccessSet cfg w db si channel parv
  | .clone parv => csCmdClone cfg w db si parv

structure MayFound (cfg : ChanConfig) (w : World) (db : ChanDb) (mt : Entity) : Prop where
  register : myentityCanRegisterChannel cfg w db mt = true
  allow : myentityAllowFoundership db mt = true

/-- Every entry that came to have `CA_FOUNDER` was allowed to. -/
def FoundersAllowed (cfg : ChanConfig) (tr : Transition) : Prop :=
  ∀ k, ¬ Has (levelAt tr.before.acl k) 13 → Has (levelAt tr.after.acl k) 13 →
    (∃ mt, k.2 = .entity mt ∧ MayFound cfg tr.w tr.before mt) ∧
      mychanNumFounders tr.after.acl k.1 ≤ cfg.maxfounders

/-- ACCESS SET makes `mt` a founder: the checks that it does make are passed. -/
structure SetGrants (cfg : ChanConfig) (w : World) (db : ChanDb) (si : Source)
    (channel : CString) (parv : List CString) (req : AccessRequest) (mt : Entity)
    (restrict : Flags) : Prop where
  plan : accessPlan cfg w db si "ACCESS SET"
    "Syntax: ACCESS <#channel> SET <account|hostmask> <role>" channel parv = .ok req
  target : commandTarget cfg w db req.target = some (.entity mt)
  fits : RoleFits cfg w db si req (.entity mt)
  notFounder : ¬ Has (levelAt db.acl (req.mc, .entity mt)) 13
  role : Has (req.newflags cfg) 13
  mask : accessRestrict cfg req.chan (chanacsSourceFlags cfg w db req.mc si) (si.entity db)
    (some mt) = some restrict
  permits : Permits restrict (levelAt db.acl (req.mc, .entity mt))
    (roleChange cfg (levelAt db.acl (req.mc, .entity mt)) (req.newflags cfg)).add
    (roleChange cfg (levelAt db.acl (req.mc, .entity mt)) (req.newflags cfg)).rem
  fewFounders : mychanNumFounders db.acl req.mc < cfg.maxfounders
  register : myentityCanRegisterChannel cfg w db mt = true
  told : (mt.isuser && notifyCrashes cfg db si mt) = false

def CloneFits (cfg : ChanConfig) (w : World) (db : ChanDb) (mc mc2 : MyChanRef) : Prop :=
  ∀ t, Has (levelAt db.acl (mc, t)) 13 →
    (∀ t', SameSubject t' t → ¬ Has (levelAt db.acl (mc2, t')) 13) →
    (∃ mt, t = .entity mt ∧ MayFound cfg w db mt) ∧
      (founders db.acl mc2 ∪ founders db.acl mc).card ≤ cfg.maxfounders

def MayGrant (cfg : ChanConfig) (w : World) (db : ChanDb) (si : Source) : GrantCommand → Prop
  | .flags _ => True
  | .accessAdd _ _ => True
  | .accessSet channel parv => ∀ req mt restrict,
      SetGrants cfg w db si channel parv req mt restrict → myentityAllowFoundership db mt = true
  | .clone parv => ∀ req, clonePlan cfg w db si parv = .ok req →
      CloneFits cfg w db req.mc req.mc2

section update
variable {cfg : ChanConfig} {w : World} {db db' : ChanDb} {si : Source} {mc : MyChanRef}
  {t : Target} {add rem restrict : Flags}

theorem foundersAllowed_of_levels (h : levelAt db'.acl = levelAt db.acl) :
    FoundersAllowed cfg ⟨w, db, db'⟩ := by
  intro k hnot hi
  rw [h] at hi
  exact absurd hi hnot

theorem founders_update {mt : Entity}
    (h : Update (levelAt db.acl) (levelAt db'.acl) (mc, .entity mt) add rem restrict) :
    mychanNumFounders db'.acl mc ≤ mychanNumFounders db.acl mc + 1 := by
  rw [mychanNumFounders_eq_card, mychanNumFounders_eq_card]
  have hsub : founders db'.acl mc ⊆ insert mt (founders db.acl mc) := by
    intro e he
    rw [Finset.mem_insert]
    by_cases hold : e ∈ founders db.acl mc
    · exact .inr hold
    · rw [mem_founders] at he hold
      have hk := (h.gained hold he).1
      exact .inl (by simpa using hk)
  exact (Finset.card_le_card hsub).trans (Finset.card_insert_le _ _)

theorem foundersAllowed_of_update
    (h : Update (levelAt db.acl) (levelAt db'.acl) (openKey db.acl mc t) add rem restrict)
    (hnew : ¬ Has (levelAt db.acl (openKey db.acl mc t)) 13 → Has add 13 →
      ∃ mt, t = .entity mt ∧ MayFound cfg w db mt ∧
        mychanNumFounders db.acl mc < cfg.maxfounders) :
    FoundersAllowed cfg ⟨w, db, db'⟩ := by
  intro k hnot hi
  obtain ⟨rfl, hadd⟩ := h.gained hnot hi
  obtain ⟨mt, rfl, hmay, hfew⟩ := hnew hnot hadd
  have hnum : mychanNumFounders db'.acl mc ≤ mychanNumFounders db.acl mc + 1 :=
    founders_update h
  refine ⟨⟨mt, rfl, hmay⟩, ?_⟩
  show mychanNumFounders db'.acl mc ≤ cfg.maxfounders
  omega

theorem mayFound_of_refusal
    (h : founderRefusal cfg w (bodyDb w db si mc t) mc t.mt = none) :
    ∃ mt, t = .entity mt ∧ MayFound cfg w db mt ∧
      mychanNumFounders db.acl mc < cfg.maxfounders := by
  obtain ⟨hfew, mt, hmt, hreg, hallow⟩ := founderRefusal_none h
  rw [bodyDb, mychanNumFounders_open rfl] at hfew
  rw [bodyDb, myentityCanRegisterChannel_open rfl] at hreg
  cases t with
  | host mask => cases hmt
  | entity e =>
    cases hmt
    exact ⟨mt, rfl, ⟨hreg, hallow⟩, hfew⟩

theorem roleChange_add {level newflags : Flags} (h : Has (roleChange cfg level newflags).add 13) :
    Has newflags 13 :=
  ((has_and _ _ 13).mp h).1

end update

section commands
variable {cfg : ChanConfig} {w : World} {db db' : ChanDb} {si : Source} {channel : CString}
  {parv : List CString} {replies : List Reply}

theorem csCmdFlags_founders (h : csCmdFlags cfg w db si parv = .done db' replies) :
    FoundersAllowed cfg ⟨w, db, db'⟩ := by
  rw [csCmdFlags] at h
  cases hplan : flagsPlan cfg w db si parv with
  | error r =>
    rw [hplan] at h
    cases h
    exact foundersAllowed_of_levels rfl
  | ok req =>
    rw [hplan] at h
    obtain ⟨-, hsame | ⟨t, c, restrict, -, hstep, -, hu⟩⟩ := flagsApply_rights h
    · exact foundersAllowed_of_levels hsame
    · refine foundersAllowed_of_update hu fun hnot hadd => ?_
      have hasked : Has req.change.add 13 := by
        rw [hstep.asked] at hadd
        cases t with
        | host mask => exact hadd
        | entity mt => exact (has_founderGetsFlags_add _ 13 (by omega)).mp hadd
      obtain ⟨mt, rfl, hrefusal⟩ := hstep.newFounder hnot hasked
      exact mayFound_of_refusal hrefusal

theorem csCmdAccessAdd_founders (h : csCmdAccessAdd cfg w db si channel parv = .done db' replies) :
    FoundersAllowed cfg ⟨w, db, db'⟩ := by
  simp only [csCmdAccessAdd] at h
  split at h
  · cases h
    exact foundersAllowed_of_levels rfl
  · obtain ⟨-, hsame | ⟨t, c, restrict, -, hstep, -, hu⟩⟩ :=
      accessApply_rights accessAddBody_end h
    · exact foundersAllowed_of_levels hsame
    · refine foundersAllowed_of_update hu fun hnot hadd => ?_
      rw [hstep.asked] at hadd
      exact mayFound_of_refusal (hstep.newFounder hnot (roleChange_add hadd))

/-! ### ACCESS SET -/

theorem accessFinish_told {req : AccessRequest} {mt : Option Entity} {name : CString}
    {m : Modified} {reply : Reply}
    (h : accessFinish cfg db si req mt name m reply = some replies)
    (hchanged : m.change.add ||| m.change.rem ≠ 0#32) :
    mt.any (fun mt => mt.isuser && notifyCrashes cfg db si mt) = false := by
  rw [accessFinish, if_neg (by rwa [bitmaskToFlags2_eq_nil])] at h
  split_ifs at h with hcrash
  exact Bool.not_eq_true _ ▸ hcrash

theorem accessSetApply_founders {req : AccessRequest}
    (hplan : accessPlan cfg w db si "ACCESS SET"
      "Syntax: ACCESS <#channel> SET <account|hostmask> <role>" channel parv = .ok req)
    (hmay : ∀ mt restrict, SetGrants cfg w db si channel parv req mt restrict →
      myentityAllowFoundership db mt = true)
    (h : accessApply cfg w db si req (accessSetBody cfg w si req) (accessSetFinish cfg db si req) =
      .done db' replies) : FoundersAllowed cfg ⟨w, db, db'⟩ := by
  obtain ⟨-, hsame | ⟨t, c, restrict, ht, hstep, hfin, hu⟩⟩ := accessApply_rights accessSetBody_end h
  · exact foundersAllowed_of_levels hsame
  · intro k hk hk'
    refine foundersAllowed_of_update hu (fun hnot hadd => ?_) k hk hk'
    have hasked := hstep.asked
    rw [hasked] at hadd
    have hrole : Has (req.newflags cfg) 13 := roleChange_add hadd
    obtain ⟨hfew, mt, hmt, hreg⟩ := setFounderRefusal_none (hstep.newFounder hnot hrole)
    rw [bodyDb, mychanNumFounders_open rfl] at hfew
    rw [bodyDb, myentityCanRegisterChannel_open rfl] at hreg
    cases t with
    | host mask => cases hmt
    | entity e =>
      cases hmt
      have hpermits := hu.permits
      rw [hasked] at hpermits
      have hchanged : (bodyModify w db si req.mc (.entity mt) c restrict).change.add |||
          (bodyModify w db si req.mc (.entity mt) c restrict).change.rem ≠ 0#32 := by
        intro h0
        have hlevel := chanacsModify_unchanged_iff.mp h0
        rw [bodyEntry_level, ← hu.self, ← (hu.gained hk hk').1] at hlevel
        exact hk (hlevel ▸ hk')
      have htold := accessFinish_told hfin hchanged
      exact ⟨mt, rfl, ⟨hreg, hmay mt restrict ⟨hplan, ht, hstep.fits, hnot, hrole, hstep.mask,
        hpermits, hfew, hreg, htold⟩⟩, hfew⟩

/-- The change of a SET that makes `mt` a founder. -/
def grantModified (cfg : ChanConfig) (w : World) (db : ChanDb) (si : Source) (req : AccessRequest)
    (mt : Entity) (restrict : Flags) : Modified :=
  bodyModify w db si req.mc (.entity mt)
    (roleChange cfg (levelAt db.acl (req.mc, .entity mt)) (req.newflags cfg)) restrict

theorem accessSetBody_grants {req : AccessRequest} {mt : Entity} {restrict : Flags}
    (hg : SetGrants cfg w db si channel parv req mt restrict) :
    accessSetBody cfg w si req (some mt) (mt.name db) (bodyDb w db si req.mc (.entity mt))
        (bodyEntry w db si req.mc (.entity mt)) =
      .close (grantModified cfg w db si req mt restrict).ca
        (.changed (bodyEntry w db si req.mc (.entity mt)).level
          (grantModified cfg w db si req mt restrict)) := by
  have hlevel : (bodyEntry w db si req.mc (.entity mt)).level =
      levelAt db.acl (req.mc, .entity mt) := bodyEntry_level
  have hf : chanacsSourceFlags cfg w (bodyDb w db si req.mc (.entity mt)) req.mc si =
      chanacsSourceFlags cfg w db req.mc si := chanacsSourceFlags_open rfl req.mc si
  have hmask : accessRestrict cfg req.chan (chanacsSourceFlags cfg w db req.mc si)
      (si.entity (bodyDb w db si req.mc (.entity mt))) (some mt) = some restrict := hg.mask
  have hnum : mychanNumFounders (bodyDb w db si req.mc (.entity mt)).acl req.mc =
      mychanNumFounders db.acl req.mc := mychanNumFounders_open rfl req.mc
  have hreg : myentityCanRegisterChannel cfg w (bodyDb w db si req.mc (.entity mt)) mt = true :=
    (myentityCanRegisterChannel_open rfl mt).trans hg.register
  have hfew := hg.fewFounders
  have hrefusal : setFounderRefusal cfg w (bodyDb w db si req.mc (.entity mt)) req.mc (some mt) =
      none := by
    rw [setFounderRefusal, hnum, if_neg (by omega)]
    simp [hreg]
  have hl13 : test (levelAt db.acl (req.mc, .entity mt)) caFounder = false :=
    (test_caFounder_eq_false _).mpr hg.notFounder
  have hn13 : test (getTemplateFlags cfg (some req.chan) req.role) caFounder = true :=
    (test_caFounder _).mpr hg.role
  have hne : getTemplateFlags cfg (some req.chan) req.role ≠ 0#32 := by
    intro h0
    rw [h0] at hn13
    exact absurd hn13 (by decide)
  have hok : (grantModified cfg w db si req mt restrict).ok = true := bodyModify_ok hg.permits
  have hroom := hg.fits.room
  have hhost := hg.fits.hostFlags
  rw [AccessRequest.newflags] at hhost
  unfold accessSetBody accessRoleBody
  dsimp only
  rw [hlevel, if_neg (Bool.not_eq_true _ ▸ hroom), if_neg (Bool.not_eq_true _ ▸ hhost), if_neg hne,
    hl13, hn13, hf, hmask, hrefusal]
  exact if_pos hok

theorem accessSetApply_grants {req : AccessRequest} {mt : Entity} {restrict : Flags}
    (hg : SetGrants cfg w db si channel parv req mt restrict) :
    ∃ db' replies, accessApply cfg w db si req (accessSetBody cfg w si req)
        (accessSetFinish cfg db si req) = .done db' replies ∧
      Has (levelAt db'.acl (req.mc, .entity mt)) 13 := by
  have hgained : Has (result (levelAt db.acl (req.mc, .entity mt))
      (roleChange cfg (levelAt db.acl (req.mc, .entity mt)) (req.newflags cfg)).add
      (roleChange cfg (levelAt db.acl (req.mc, .entity mt)) (req.newflags cfg)).rem) 13 := by
    refine (has_result _ _ _ 13).mpr (.inr ⟨hg.notFounder, ?_⟩)
    rw [roleChange, has_and, has_not]
    exact ⟨hg.role, by omega, hg.notFounder⟩
  have hchanged : (grantModified cfg w db si req mt restrict).change.add |||
      (grantModified cfg w db si req mt restrict).change.rem ≠ 0#32 := by
    intro h0
    have hsame := chanacsModify_unchanged_iff.mp h0
    rw [bodyEntry_level] at hsame
    exact hg.notFounder (hsame ▸ hgained)
  obtain ⟨replies, hfin⟩ : ∃ replies, accessSetFinish cfg db si req (some mt) (mt.name db)
      (bodyEntry w db si req.mc (.entity mt)).level (grantModified cfg w db si req mt restrict) =
        some replies := by
    rw [accessSetFinish, accessFinish, if_neg (by rwa [bitmaskToFlags2_eq_nil])]
    exact ⟨_, if_neg (by simp [hg.told])⟩
  obtain ⟨db', hdone, hu⟩ := editEntry_update _ (accessSetBody_grants hg) hg.permits hfin
  obtain ⟨hhost, hmt⟩ := commandTarget_entity hg.target
  refine ⟨db', replies, ?_, ?_⟩
  · rw [accessApply, if_neg hhost, hmt]
    exact hdone
  · have hself := hu.self
    rw [openKey] at hself
    rw [hself]
    exact hgained

theorem csCmdAccessSet_founders_iff :
    (∀ db' replies, csCmdAccessSet cfg w db si channel parv = .done db' replies →
        FoundersAllowed cfg ⟨w, db, db'⟩) ↔
      MayGrant cfg w db si (.accessSet channel parv) := by
  cases hplan : accessPlan cfg w db si "ACCESS SET"
      "Syntax: ACCESS <#channel> SET <account|hostmask> <role>" channel parv with
  | error r =>
    refine iff_of_true (fun db' replies h => ?_) fun req mt restrict hg => ?_
    · simp only [csCmdAccessSet, hplan] at h
      cases h
      exact foundersAllowed_of_levels rfl
    · have hreq := hg.plan
      rw [hplan] at hreq
      cases hreq
  | ok req =>
    simp only [csCmdAccessSet, hplan]
    constructor
    · intro h req' mt restrict hg
      have hreq := hg.plan
      rw [hplan] at hreq
      cases hreq
      obtain ⟨db', replies, hdone, hnew⟩ := accessSetApply_grants hg
      obtain ⟨⟨e, he, hmay⟩, -⟩ := h db' replies hdone _ hg.notFounder hnew
      cases he
      exact hmay.allow
    · exact fun hmay db' replies h => accessSetApply_founders hplan (hmay req) h

/-! ### CLONE -/

theorem founders_cloneAcl {mc mc2 : MyChanRef} : founders (cloneAcl cfg w db mc mc2).acl mc2 =
    founders db.acl mc2 ∪ founders db.acl mc := by
  ext mt
  rw [Finset.mem_union, mem_founders, mem_founders, mem_founders]
  constructor
  · intro h
    by_cases hold : Has (levelAt db.acl (mc2, .entity mt)) 13
    · exact .inl hold
    · obtain ⟨-, t, hs, ht, -⟩ := cloneAcl_newFounder h hold
      cases t with
      | host mask => cases hs
      | entity e =>
        cases hs
        exact .inr ht
  · intro h
    cases h with
    | inl h => exact cloneAcl_keeps h
    | inr h =>
      obtain ⟨t, hs, ht⟩ := cloneAcl_founder h
      cases t with
      | host mask => cases hs
      | entity e =>
        cases hs
        exact ht

theorem cloneAcl_founders_iff {mc mc2 : MyChanRef} (hdb : db'.acl = (cloneAcl cfg w db mc mc2).acl) :
    FoundersAllowed cfg ⟨w, db, db'⟩ ↔ CloneFits cfg w db mc mc2 := by
  have hcard : mychanNumFounders db'.acl mc2 = (founders db.acl mc2 ∪ founders db.acl mc).card := by
    rw [mychanNumFounders_eq_card, hdb, founders_cloneAcl]
  constructor
  · intro h t ht hnew
    obtain ⟨t', hs, ht'⟩ := @cloneAcl_founder cfg w db mc mc2 t ht
    rw [← hdb] at ht'
    obtain ⟨⟨mt, hmt, hmay⟩, hnum⟩ := h (mc2, t') (hnew t' hs) ht'
    refine ⟨⟨mt, ?_, hmay⟩, hcard ▸ hnum⟩
    cases hmt
    cases t with
    | host mask => cases hs
    | entity e => rw [show mt = e from hs]
  · intro h k hnot hi
    have hi' : Has (levelAt (cloneAcl cfg w db mc mc2).acl k) 13 := hdb ▸ hi
    obtain ⟨hk, t, hs, ht, hnew⟩ := cloneAcl_newFounder hi' hnot
    obtain ⟨⟨mt, rfl, hmay⟩, hnum⟩ := h t ht hnew
    refine ⟨⟨mt, ?_, hmay⟩, ?_⟩
    · cases hk' : k.2 with
      | host mask => rw [hk'] at hs; cases hs
      | entity e =>
        rw [hk'] at hs
        rw [show e = mt from hs]
    · rw [hk]
      exact hcard ▸ hnum

theorem csCmdClone_founders_iff :
    (∀ db' replies, csCmdClone cfg w db si parv = .done db' replies →
        FoundersAllowed cfg ⟨w, db, db'⟩) ↔ MayGrant cfg w db si (.clone parv) := by
  cases hplan : clonePlan cfg w db si parv with
  | error r =>
    refine iff_of_true (fun db' replies h => ?_) fun req hreq => ?_
    · simp only [csCmdClone, hplan] at h
      cases h
      exact foundersAllowed_of_levels rfl
    · rw [hplan] at hreq
      cases hreq
  | ok req =>
    simp only [csCmdClone, hplan]
    constructor
    · intro h req' hreq
      rw [hplan] at hreq
      cases hreq
      have hallowed := h _ _ rfl
      exact (cloneAcl_founders_iff rfl).mp hallowed
    · intro hfits db' replies h
      cases h
      exact (cloneAcl_founders_iff rfl).mpr (hfits req hplan)

/-! ### Runs -/

theorem exec_founders_iff (cmd : GrantCommand) :
    (∀ db' replies, cmd.exec cfg w db si = .done db' replies → FoundersAllowed cfg ⟨w, db, db'⟩) ↔
      MayGrant cfg w db si cmd := by
  cases cmd with
  | flags parv => exact iff_of_true (fun _ _ h => csCmdFlags_founders h) trivial
  | accessAdd channel parv => exact iff_of_true (fun _ _ h => csCmdAccessAdd_founders h) trivial
  | accessSet channel parv => exact csCmdAccessSet_founders_iff
  | clone parv => exact csCmdClone_founders_iff

end commands

def IssueMayGrant (cfg : ChanConfig) (s : Option ChanDb) (e : Issued GrantCommand) : Prop :=
  ∀ db, s = some db → MayGrant cfg e.w db e.si e.cmd

theorem foundership_granted_iff (cfg : ChanConfig) (db : ChanDb) (es : List (Issued GrantCommand)) :
    (∀ tr ∈ (run (issue (GrantCommand.exec cfg)) (some db) es).2, FoundersAllowed cfg tr) ↔
      Guarded (issue (GrantCommand.exec cfg)) (IssueMayGrant cfg) (some db) es := by
  refine run_emits_iff (fun s e => ?_) (some db) es
  rw [forall_mem_issue]
  exact forall_congr' fun db => imp_congr_right fun _ => exec_founders_iff e.cmd

/- Alice founds #chan, which has the role boss, and #old together with bob, whom an
operator has restricted. -/
def restrictedDb : ChanDb where
  accounts :=
    { sampleAccounts 0#32 [] with
      users := ⟨[(0, sampleAccount "alice" "AAAAAAAAA" 0#32 [sampleUser]),
        (1, { sampleAccount "bob" "AAAAAAAAB" 0#32 [] with
          metadata := [("private:restrict:setter".toList, "oper".toList)] })], by simp⟩ }
  groups := .empty
  chans := ⟨[(0, sampleChan "#chan" head_chan [("private:templates".toList, "boss=+fF".toList)]),
    (1, sampleChan "#old" (by decide) [])], by decide⟩
  acl := ⟨[((0, .entity (.user 0)), sampleEntry (caFounder ||| caFlags)),
    ((1, .entity (.user 0)), sampleEntry (caFounder ||| caAclview)),
    ((1, .entity (.user 1)), sampleEntry (caFounder ||| caAclview))], by decide⟩

theorem not_foundersAllowed {cfg : ChanConfig} {tr : Transition} {mc : MyChanRef} {mt : Entity}
    (hnot : ¬ Has (levelAt tr.before.acl (mc, .entity mt)) 13)
    (hi : Has (levelAt tr.after.acl (mc, .entity mt)) 13)
    (hallow : myentityAllowFoundership tr.before mt = false) : ¬ FoundersAllowed cfg tr := by
  intro h
  obtain ⟨⟨e, he, hmay⟩, -⟩ := h _ hnot hi
  cases he
  exact Bool.noConfusion (hallow.symm.trans hmay.allow)

/-- Alice makes bob a founder of #chan by ACCESS SET to the role boss, and likewise by CLONE
of #old. -/
theorem restricted_account_founds :
    (∃ tr ∈ (run (issue (GrantCommand.exec sampleConfig)) (some restrictedDb)
        [⟨sampleWorld, .irc sampleUser,
          .accessSet "#chan".toList ["bob".toList, "boss".toList]⟩]).2,
      ¬ FoundersAllowed sampleConfig tr) ∧
    ∃ tr ∈ (run (issue (GrantCommand.exec sampleConfig)) (some restrictedDb)
        [⟨sampleWorld, .irc sampleUser, .clone ["#old".toList, "#chan".toList]⟩]).2,
      ¬ FoundersAllowed sampleConfig tr := by
  constructor
  · refine ⟨_, List.mem_cons_self .., ?_⟩
    exact @not_foundersAllowed _ _ 0 (.user 1) (by decide) (by decide) (by decide)
  · refine ⟨_, List.mem_cons_self .., ?_⟩
    exact @not_foundersAllowed _ _ 0 (.user 1) (by decide) (by decide) (by decide)

end ChatServices.ChanServ
