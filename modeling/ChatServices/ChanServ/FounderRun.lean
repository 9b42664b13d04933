import ChatServices.ChanServ.AccessSpec
import ChatServices.ChanServ.CmdClone
import ChatServices.ChanServ.CmdAkick
import ChatServices.ChanServ.CommandRun
import ChatServices.ChanServ.FlagsSpec
import ChatServices.ChanServ.Succession
import ChatServices.ChanServ.TemplateSpec

/-! No channel loses its last founder. FLAGS, SET and DEL ask for a second founder before
they take one, ROLE, TEMPLATE and AKICK leave the flag alone, CLONE keeps the founders of
its target, and the deletion of an account finds a successor or drops the channel. -/
namespace ChatServices.ChanServ
open ChatServices.Lib ChatServices.Lib.Mask ChatServices.Lib.MaskUpdate ChatServices.Lib.Rights
open ChatServices.Lib.Run ChatServices.Text

inductive FounderCommand where
  | flags (parv : List CString)
  | accessAdd (channel : CString) (parv : List CString)
  | accessSet (channel : CString) (parv : List CString)
  | accessDel (channel : CString) (parv : List CString)
  | roleAdd (channel : CString) (parv : List CString)
  | roleSet (channel : CString) (parv : List CString)
  | roleDel (channel : CString) (parv : List CString)
  | template (parv : List CString)
  | akickAdd (channel : CString) (parv : List CString)
  | akickDel (channel : CString) (parv : List CString)
  | clone (parv : List CString)
  | accountDelete (mu : MyUserRef)

def FounderCommand.exec (cfg : ChanConfig) (w : World) (db : ChanDb) (si : Source) :
    FounderCommand → Outcome
  | .flags parv => csCmdFlags cfg w db si parv
  | .accessAdd channel parv => csCmdAccessAdd cfg w db si channel parv
  | .accessSet channel parv => csCmdAccessSet cfg w db si channel parv
  | .accessDel channel parv => csCmdAccessDel cfg w db si channel parv
  | .roleAdd channel parv => csCmdRoleAdd cfg w db si channel parv
  | .roleSet channel parv => csCmdRoleSet cfg w db si channel parv
  | .roleDel channel parv => csCmdRoleDel cfg w db si channel parv
  | .template parv => csCmdTemplate cfg w db si parv
  | .akickAdd channel parv => csCmdAkickAdd cfg w db si channel parv
  | .akickDel channel parv => csCmdAkickDel cfg w db si channel parv
  | .clone parv => csCmdClone cfg w db si parv
  | .accountDelete mu => .done (myuserDelete cfg w db mu) []

/-- What `chanacs_add` makes of every level: no flags but those of `ca_all`. -/
def LevelsKnown (cfg : ChanConfig) (acl : AccessList) : Prop :=
  ∀ k, Sub (levelAt acl k) cfg.caAll

structure FoundersKept (cfg : ChanConfig) (mc : MyChanRef) (db : ChanDb) : Prop where
  known : LevelsKnown cfg db.acl
  founder : db.chans.find mc = none ∨ (founders db.acl mc).Nonempty

section steps
variable {cfg : ChanConfig} {w : World} {db db' : ChanDb} {si : Source} {mc mc₁ : MyChanRef}
  {channel : CString} {parv : List CString} {replies : List Reply}

theorem founders_nonempty_iff {acl : AccessList} : (founders acl mc).Nonempty ↔
    ∃ mt, Has (levelAt acl (mc, .entity mt)) 13 := by
  simp only [Finset.Nonempty, mem_founders]

theorem FoundersKept.of_keeps (h : FoundersKept cfg mc db) (hknown : LevelsKnown cfg db'.acl)
    (hchans : db.chans.find mc = none → db'.chans.find mc = none)
    (hkeep : ∀ k, Has (levelAt db.acl k) 13 → Has (levelAt db'.acl k) 13) :
    FoundersKept cfg mc db' := by
  refine ⟨hknown, h.founder.imp hchans ?_⟩
  rw [founders_nonempty_iff, founders_nonempty_iff]
  exact fun ⟨mt, hmt⟩ => ⟨mt, hkeep _ hmt⟩

theorem FoundersKept.of_levels (h : FoundersKept cfg mc db) (hdb : db' = { db with acl := db'.acl })
    (hsame : levelAt db'.acl = levelAt db.acl) : FoundersKept cfg mc db' := by
  refine h.of_keeps (fun k => ?_) (fun hnone => ?_) fun k hk => ?_
  · rw [hsame]
    exact h.known k
  · rw [hdb]
    exact hnone
  · rwa [hsame]

/-! ### Commands on one entry -/

theorem known_update {k : MyChanRef × Target} {add rem restrict : Flags}
    (h : LevelsKnown cfg db.acl) (hadd : Sub add cfg.caAll)
    (hu : Update (levelAt db.acl) (levelAt db'.acl) k add rem restrict) :
    LevelsKnown cfg db'.acl := by
  intro k'
  refine (sub_iff _ _).mpr fun i hi => ?_
  by_cases hold : Has (levelAt db.acl k') i
  · exact (h k').has hold
  · exact hadd.has (hu.gained hold hi).2

theorem FoundersKept.of_update {t : Target} {add rem restrict : Flags}
    (h : FoundersKept cfg mc db) (hdb : db' = { db with acl := db'.acl })
    (hu : Update (levelAt db.acl) (levelAt db'.acl) (openKey db.acl mc₁ t) add rem restrict)
    (hadd : Sub add cfg.caAll)
    (hlast : ∀ mt, t = .entity mt → Has (levelAt db.acl (mc₁, .entity mt)) 13 → Has rem 13 →
      mychanNumFounders db.acl mc₁ ≠ 1) : FoundersKept cfg mc db' := by
  refine ⟨known_update h.known hadd hu, h.founder.imp (fun hnone => ?_) fun hne => ?_⟩
  · rw [hdb]
    exact hnone
  obtain ⟨mt, hmt⟩ := founders_nonempty_iff.mp hne
  by_cases hkeep : Has (levelAt db'.acl (mc, .entity mt)) 13
  · exact founders_nonempty_iff.mpr ⟨mt, hkeep⟩
  obtain ⟨hk, hrem⟩ := hu.lost hmt hkeep
  cases t with
  | host mask => cases hk
  | entity e =>
    cases hk
    -- the founder that goes is not alone, and only its own entry changes
    have hcard : (founders db.acl mc).card ≠ 1 := by
      rw [← mychanNumFounders_eq_card]
      exact hlast mt rfl hmt hrem
    have hpos : 0 < (founders db.acl mc).card := Finset.card_pos.mpr hne
    have hmany : 1 < (founders db.acl mc).card := by omega
    obtain ⟨mt', hmem, hother⟩ := Finset.exists_mem_ne hmany mt
    have hmt' : Has (levelAt db.acl (mc, .entity mt')) 13 := (mem_founders _ _ _).mp hmem
    refine founders_nonempty_iff.mpr ⟨mt', ?_⟩
    rw [hu.other (by simpa [openKey] using hother)]
    exact hmt'

theorem csCmdFlags_keeps (h : FoundersKept cfg mc db)
    (hdone : csCmdFlags cfg w db si parv = .done db' replies) : FoundersKept cfg mc db' := by
  rw [csCmdFlags] at hdone
  cases hplan : flagsPlan cfg w db si parv with
  | error r =>
    rw [hplan] at hdone
    cases hdone
    exact h
  | ok req =>
    rw [hplan] at hdone
    obtain ⟨hdb, hsame | ⟨t, c, restrict, -, hstep, -, hu⟩⟩ := flagsApply_rights hdone
    · exact h.of_levels hdb hsame
    · have hadd : Sub req.change.add cfg.caAll := flagsChange_sub (flagsPlan_ok hplan).change
      rw [hstep.asked] at hu
      refine h.of_update hdb hu (flagsAsked_sub hadd t) fun mt ht h13 hrem => ?_
      subst ht
      exact hstep.lastFounder mt rfl h13 (has_founderGetsFlags_rem hrem)

theorem roleChange_sub {level newflags : Flags} (h : Sub newflags cfg.caAll) :
    Sub (roleChange cfg level newflags).add cfg.caAll :=
  (sub_iff _ _).mpr fun _ hi => h.has ((has_and _ _ _).mp hi).1

theorem accessApply_keeps {refusal : ChanDb → MyChanRef → Option Entity → Option Reply}
    {req : AccessRequest} {body : Option Entity → CString → ChanDb → Chanacs → EntryEnd EntryResult}
    {finish : Option Entity → CString → Flags → Modified → Option (List Reply)}
    (hbody : ∀ t, BodyEnd w (bodyDb w db si req.mc t) si (bodyEntry w db si req.mc t)
      (RoleStep refusal cfg w db si req t)
      (body t.mt (t.name db) (bodyDb w db si req.mc t) (bodyEntry w db si req.mc t)))
    (h : FoundersKept cfg mc db)
    (hdone : accessApply cfg w db si req body finish = .done db' replies) :
    FoundersKept cfg mc db' := by
  obtain ⟨hdb, hsame | ⟨t, c, restrict, -, hstep, -, hu⟩⟩ := accessApply_rights hbody hdone
  · exact h.of_levels hdb hsame
  · rw [hstep.asked] at hu
    refine h.of_update hdb hu (roleChange_sub (getTemplateFlags_sub _ _ _)) fun mt ht h13 hrem => ?_
    subst ht
    refine hstep.lastFounder h13 fun hnew => ?_
    rw [roleChange, has_and, has_not] at hrem
    exact hrem.2.2 hnew

theorem csCmdAccessAdd_keeps (h : FoundersKept cfg mc db)
    (hdone : csCmdAccessAdd cfg w db si channel parv = .done db' replies) :
    FoundersKept cfg mc db' := by
  simp only [csCmdAccessAdd] at hdone
  split at hdone
  · cases hdone
    exact h
  · exact accessApply_keeps accessAddBody_end h hdone

theorem csCmdAccessSet_keeps (h : FoundersKept cfg mc db)
    (hdone : csCmdAccessSet cfg w db si channel parv = .done db' replies) :
    FoundersKept cfg mc db' := by
  simp only [csCmdAccessSet] at hdone
  split at hdone
  · cases hdone
    exact h
  · exact accessApply_keeps accessSetBody_end h hdone

theorem csCmdAccessDel_keeps (h : FoundersKept cfg mc db)
    (hdone : csCmdAccessDel cfg w db si channel parv = .done db' replies) :
    FoundersKept cfg mc db' := by
  simp only [csCmdAccessDel] at hdone
  split at hdone
  · cases hdone
    exact h
  · obtain ⟨hdb, hsame | ⟨t, c, restrict, -, hstep, -, hu⟩⟩ := accessDelApply_rights hdone
    · exact h.of_levels hdb hsame
    · rw [hstep.asked] at hu
      refine h.of_update hdb hu (zero_sub _) fun mt ht h13 _ => ?_
      subst ht
      exact hstep.lastFounder h13

/-! ### ROLE and TEMPLATE -/

theorem BulkStep.known {restrict oldflags : Flags} (h : LevelsKnown cfg db.acl)
    (hstep : BulkStep cfg w db si mc₁ restrict oldflags db') : LevelsKnown cfg db'.acl := by
  intro k
  obtain hsame | ⟨db₁, newflags, hacl, hnew, -, -⟩ := hstep.acl
  · rw [hsame]
    exact h k
  · rw [hnew]
    obtain hold | ⟨-, hold, hres⟩ := @levelAt_updateMatching cfg w db₁ si mc₁ oldflags newflags k
    · rw [hold, hacl]
      exact h k
    · rw [hres]
      refine (sub_iff _ _).mpr fun i hi => ?_
      obtain ⟨hl, -⟩ | ⟨-, hn⟩ := (has_result _ _ _ i).mp hi
      · rw [← hold, hacl] at hl
        exact (h k).has hl
      · exact ((has_and _ _ i).mp hn).2

theorem BulkStep.keeps {restrict oldflags : Flags} (h : FoundersKept cfg mc db)
    (hstep : BulkStep cfg w db si mc₁ restrict oldflags db') : FoundersKept cfg mc db' := by
  refine h.of_keeps (hstep.known h.known) (fun hnone => ?_) fun k hk => ?_
  · have hsome := hstep.chans mc
    rw [hnone] at hsome
    simpa using hsome
  · by_contra hnot
    exact (hstep.differs (differs_of_lost hk hnot)).2.1 rfl

theorem onChannel_keeps {P : MyChanRef → MyChan → Prop} (h : FoundersKept cfg mc db)
    (hstep : OnChannel cfg db channel db' P)
    (hP : ∀ mc₁ chan, P mc₁ chan → FoundersKept cfg mc db') : FoundersKept cfg mc db' := by
  obtain rfl | ⟨mc₁, chan, -, hp⟩ := hstep
  · exact h
  · exact hP mc₁ chan hp

theorem csCmdRoleAdd_keeps (h : FoundersKept cfg mc db)
    (hdone : csCmdRoleAdd cfg w db si channel parv = .done db' replies) : FoundersKept cfg mc db' :=
  onChannel_keeps h (csCmdRoleAdd_bulk hdone) fun _ _ hstep => hstep.keeps h

theorem csCmdRoleSet_keeps (h : FoundersKept cfg mc db)
    (hdone : csCmdRoleSet cfg w db si channel parv = .done db' replies) : FoundersKept cfg mc db' :=
  onChannel_keeps h (csCmdRoleSet_bulk hdone) fun _ _ ⟨_, hstep⟩ => hstep.keeps h

theorem csCmdRoleDel_keeps (h : FoundersKept cfg mc db)
    (hdone : csCmdRoleDel cfg w db si channel parv = .done db' replies) : FoundersKept cfg mc db' :=
  onChannel_keeps h (csCmdRoleDel_bulk hdone) fun _ _ ⟨_, hstep⟩ => hstep.keeps h

theorem csCmdTemplate_keeps (h : FoundersKept cfg mc db)
    (hdone : csCmdTemplate cfg w db si parv = .done db' replies) : FoundersKept cfg mc db' := by
  cases parv with
  | nil =>
    cases hdone
    exact h
  | cons channel parv =>
    exact onChannel_keeps h (csCmdTemplate_bulk hdone) fun _ _ hstep => hstep.keeps h

/-! ### AKICK -/

theorem chanacsModifySimple_known {ca : Chanacs} {c : Change} {setter : Option Entity}
    (h : Sub ca.level cfg.caAll) :
    Sub (chanacsModifySimple cfg w db ca c setter).level cfg.caAll := by
  obtain hold | hnew := @chanacsModifySimple_level cfg w db ca c setter
  · rwa [hold]
  · rw [hnew]
    refine (sub_iff _ _).mpr fun i hi => ?_
    obtain ⟨hl, -⟩ | ⟨-, ha⟩ := (has_result _ _ _ i).mp hi
    · exact h.has hl
    · exact (c.mask_sub cfg.caAll).1.has ha

theorem chanacsModifySimple_keeps {ca : Chanacs} {c : Change} {setter : Option Entity} {i : Nat}
    (hrem : ¬ Has c.rem i) (h : Has ca.level i) :
    Has (chanacsModifySimple cfg w db ca c setter).level i := by
  obtain hold | hnew := @chanacsModifySimple_level cfg w db ca c setter
  · rwa [hold]
  · rw [hnew, has_result]
    exact .inl ⟨h, fun hr => hrem ((has_and _ _ i).mp hr).1⟩

theorem FoundersKept.of_level (h : FoundersKept cfg mc db) (hdb : db' = { db with acl := db'.acl })
    {k : MyChanRef × Target} {level : Flags}
    (hlevel : ∀ k', levelAt db'.acl k' = if k' = k then level else levelAt db.acl k')
    (hknown : Sub level cfg.caAll) (hkeep : Has (levelAt db.acl k) 13 → Has level 13) :
    FoundersKept cfg mc db' := by
  refine h.of_keeps (fun k' => ?_) (fun hnone => ?_) fun k' hk' => ?_
  · rw [hlevel]
    split_ifs
    · exact hknown
    · exact h.known k'
  · rw [hdb]
    exact hnone
  · rw [hlevel]
    split_ifs with hk
    · exact hkeep (hk ▸ hk')
    · exact hk'

theorem akickAddTo_keeps {req : AkickRequest} {t : Target} (h : FoundersKept cfg mc db)
    (hdone : akickAddTo cfg w db si req t = .done db' replies) : FoundersKept cfg mc db' := by
  have hlevel : (openedEntry db.acl (openKey db.acl req.mc t) (newEntry w db (si.entity db))).level =
      levelAt db.acl (openKey db.acl req.mc t) := openedEntry_level rfl
  obtain ⟨ca, reply, hend, hkeep, hknown⟩ : ∃ ca reply,
      akickAddBody cfg w si req t
        (openDb db (openKey db.acl req.mc t) (newEntry w db (si.entity db)))
        (openedEntry db.acl (openKey db.acl req.mc t) (newEntry w db (si.entity db))) =
          .close ca reply ∧
      (Has (levelAt db.acl (openKey db.acl req.mc t)) 13 → Has ca.level 13) ∧
      Sub ca.level cfg.caAll := by
    unfold akickAddBody
    split
    · exact ⟨_, _, rfl, fun h13 => hlevel ▸ h13, hlevel ▸ h.known _⟩
    · refine ⟨_, _, rfl, fun h13 => ?_, ?_⟩
      · exact chanacsModifySimple_keeps (by decide) (hlevel ▸ h13)
      · exact chanacsModifySimple_known (hlevel ▸ h.known _)
  rw [akickAddTo, withEntry_close hend] at hdone
  cases hdone
  exact h.of_level rfl (levelAt_closed rfl ca) hknown hkeep

theorem csCmdAkickAdd_keeps (h : FoundersKept cfg mc db)
    (hdone : csCmdAkickAdd cfg w db si channel parv = .done db' replies) :
    FoundersKept cfg mc db' := by
  unfold csCmdAkickAdd at hdone
  split at hdone
  · cases hdone
    exact h
  split at hdone
  · split at hdone
    · cases hdone
      exact h
    · exact akickAddTo_keeps h hdone
  · dsimp only at hdone
    split at hdone
    · cases hdone
      exact h
    split at hdone
    · cases hdone
      exact h
    split at hdone
    · cases hdone
      exact h
    · exact akickAddTo_keeps h hdone

theorem akickDelFrom_keeps {chan : MyChan} {t : Target} {ca : Chanacs} {name : CString}
    (hca : db.acl.find (mc₁, t) = some ca) (h : FoundersKept cfg mc db)
    (hdone : akickDelFrom cfg w db si mc₁ chan t ca name = .done db' replies) :
    FoundersKept cfg mc db' := by
  have hrem : ¬ Has (Change.mk 0#32 caAkick).rem 13 := by decide
  have hlevel : ∀ k', levelAt (chanacsClose (mc₁, t) (db.acl.set (mc₁, t)
      (chanacsModifySimple cfg w db ca ⟨0#32, caAkick⟩ (si.entity db)))) k' =
      if k' = (mc₁, t) then
        (chanacsModifySimple cfg w db ca ⟨0#32, caAkick⟩ (si.entity db)).level
      else levelAt db.acl k' := by
    intro k'
    rw [levelAt_chanacsClose, levelAt_set hca, Function.update_apply]
  rw [akickDelFrom] at hdone
  cases hdone
  refine h.of_level rfl hlevel (chanacsModifySimple_known ?_) fun h13 =>
    chanacsModifySimple_keeps hrem ?_
  · rw [← levelAt_of_find hca]
    exact h.known _
  · rwa [levelAt_of_find hca] at h13

theorem csCmdAkickDel_keeps (h : FoundersKept cfg mc db)
    (hdone : csCmdAkickDel cfg w db si channel parv = .done db' replies) :
    FoundersKept cfg mc db' := by
  unfold csCmdAkickDel at hdone
  split at hdone
  · cases hdone
    exact h
  split at hdone
  · split at hdone
    · cases hdone
      exact h
    · rename_i ca hfind
      exact akickDelFrom_keeps (Option.filter_eq_some_iff.mp hfind).1 h hdone
  · split at hdone
    · rename_i mask ca hfind
      exact akickDelFrom_keeps (find_of_findHostEntry hfind) h hdone
    · split at hdone <;> · cases hdone; exact h

/-! ### CLONE -/

theorem cloneEntries_known {mc₂ : MyChanRef} (es : List (Target × Chanacs)) (db : ChanDb)
    (h : LevelsKnown cfg db.acl) :
    LevelsKnown cfg (es.foldl (cloneEntry cfg w mc₂) db).acl := by
  induction es generalizing db with
  | nil => exact h
  | cons e es ih => exact ih _ fun k => changeSimple_known (h k)

theorem csCmdClone_keeps (h : FoundersKept cfg mc db)
    (hdone : csCmdClone cfg w db si parv = .done db' replies) : FoundersKept cfg mc db' := by
  unfold csCmdClone at hdone
  split at hdone
  · cases hdone
    exact h
  · rename_i req hplan
    cases hdone
    refine h.of_keeps (cloneEntries_known _ _ fun k => ?_) (fun hnone => ?_) fun k hk => ?_
    · rw [levelAt_cloneClear]
      split_ifs
      · exact zero_sub _
      · exact h.known k
    · have hchans : (cloneAcl cfg w db req.mc req.mc2).chans = db.chans := by rw [cloneAcl_eq]
      simp [hchans, hnone]
    · exact cloneAcl_keeps hk

/-! ### The deletion of an account -/

theorem considerEntry_spec {minlevel : Flags} (es : List (Target × Chanacs)) (c : Candidate)
    {mt : Entity} (h : (es.foldl (considerEntry cfg w db minlevel) c).hiMt = some mt) :
    c.hiMt = some mt ∨ ∃ ca, (Target.entity mt, ca) ∈ es ∧ ¬ Has ca.level 13 := by
  induction es generalizing c with
  | nil => exact .inl h
  | cons e es ih =>
    obtain hstep | ⟨ca, hmem, hl⟩ := ih _ h
    · rw [considerEntry] at hstep
      cases he : e.1 with
      | host mask =>
        rw [he] at hstep
        exact .inl hstep
      | entity e' =>
        rw [he] at hstep
        dsimp only at hstep
        split_ifs at hstep with h1 h2 h3 h4 h5
        · exact .inl hstep
        · exact .inl hstep
        · exact .inl hstep
        · exact .inl hstep
        · cases hstep
          rw [test_caFounder] at h2
          exact .inr ⟨e.2, by rw [← he]; exact List.mem_cons_self .., h2⟩
        · exact .inl hstep
    · exact .inr ⟨ca, List.mem_cons_of_mem e hmem, hl⟩

theorem mychanPickSuccessor_entry {successor : MyUserRef}
    (h : mychanPickSuccessor cfg w db mc = some successor) :
    ∃ ca, db.acl.find (mc, .entity (.user successor)) = some ca ∧ ¬ Has ca.level 13 := by
  obtain ⟨minlevel, -, hpick⟩ := List.exists_of_findSome?_eq_some h
  obtain ⟨mt, hmt, huser⟩ := Option.bind_eq_some_iff.mp hpick
  have hmt' : mt = .user successor := by
    cases mt <;> simp_all [asUser]
  subst hmt'
  obtain hnone | ⟨ca, hmem, hl⟩ := considerEntry_spec _ _ hmt
  · cases hnone
  · exact ⟨ca, (mem_chanacsOf db.acl mc _ _).mp hmem, hl⟩

theorem mychanPickSuccessor_spec {successor : MyUserRef}
    (h : mychanPickSuccessor cfg w db mc = some successor) :
    ¬ Has (levelAt db.acl (mc, .entity (.user successor))) 13 := by
  obtain ⟨ca, hca, hl⟩ := mychanPickSuccessor_entry h
  rwa [levelAt_of_find hca]

theorem successorFlag_not_founder (fc : FlagConfig) {flag : Flags}
    (h : fc.successorFlag = some flag) : ¬ Has flag 13 := by
  rw [FlagConfig.successorFlag] at h
  split_ifs at h
  cases h
  decide

theorem changeSimple_founders {mu : MyUserRef} {c : Change} (hrem : ¬ Has c.rem 13)
    (h : LevelsKnown cfg db.acl) :
    LevelsKnown cfg (changeSimple cfg w mc mu c db).acl ∧
      ∀ k, Has (levelAt db.acl k) 13 → Has (levelAt (changeSimple cfg w mc mu c db).acl k) 13 :=
  ⟨fun k => changeSimple_known (h k), fun _ hk => changeSimple_keeps hrem hk⟩

theorem succeed_founders {successor : MyUserRef} (h : LevelsKnown cfg db.acl) :
    LevelsKnown cfg (succeed cfg w mc successor db).acl ∧
      Has (levelAt (succeed cfg w mc successor db).acl (mc, .entity (.user successor))) 13 ∧
      ∀ k, Has (levelAt db.acl k) 13 → Has (levelAt (succeed cfg w mc successor db).acl k) 13 := by
  have hzero : ¬ Has (0#32 : Flags) 13 := has_zero 13
  have hgives : Has (levelAt (changeSimple cfg w mc successor ⟨caFounder ||| caFlags, 0#32⟩ db).acl
      (mc, .entity (.user successor))) 13 :=
    changeSimple_gives rfl (h _) (by decide) (caAll_founder cfg.flagConfig)
  obtain ⟨hknown₁, hkeep₁⟩ := @changeSimple_founders cfg w db mc successor
    ⟨caFounder ||| caFlags, 0#32⟩ hzero h
  obtain ⟨hknown₂, hkeep₂⟩ := @changeSimple_founders cfg w _ mc successor
    ⟨customFounderCheck cfg, 0#32⟩ hzero hknown₁
  unfold succeed
  cases hflag : cfg.flagConfig.successorFlag with
  | none => exact ⟨hknown₂, hkeep₂ _ hgives, fun k hk => hkeep₂ k (hkeep₁ k hk)⟩
  | some flag =>
    obtain ⟨hknown₃, hkeep₃⟩ := @changeSimple_founders cfg w _ mc successor ⟨0#32, flag⟩
      (successorFlag_not_founder _ hflag) hknown₂
    exact ⟨hknown₃, hkeep₃ _ (hkeep₂ _ hgives), fun k hk => hkeep₃ k (hkeep₂ k (hkeep₁ k hk))⟩

theorem succeed_chans {successor : MyUserRef} :
    (succeed cfg w mc successor db).chans = db.chans := by
  unfold succeed
  cases cfg.flagConfig.successorFlag <;> rfl

theorem levelAt_erase (acl : AccessList) (k k' : MyChanRef × Target) :
    levelAt (acl.erase k) k' = if k' = k then 0#32 else levelAt acl k' := by
  rw [levelAt, Registry.find_erase]
  split_ifs <;> rfl

theorem FoundersKept.eraseEntry {mu : MyUserRef} (h : FoundersKept cfg mc db)
    (hother : Has (levelAt db.acl (mc₁, .entity (.user mu))) 13 →
      ∃ mt, mt ≠ .user mu ∧ Has (levelAt db.acl (mc₁, .entity mt)) 13) :
    FoundersKept cfg mc (eraseEntry (mc₁, .entity (.user mu)) db) := by
  refine ⟨fun k => ?_, h.founder.imp id fun hne => ?_⟩
  · show Sub (levelAt (db.acl.erase _) k) cfg.caAll
    rw [levelAt_erase]
    split_ifs
    · exact zero_sub _
    · exact h.known k
  · obtain ⟨mt, hmt⟩ := founders_nonempty_iff.mp hne
    have hstays : ∀ mt', (mc, Target.entity mt') ≠ (mc₁, .entity (.user mu)) →
        Has (levelAt db.acl (mc, .entity mt')) 13 →
        Has (levelAt (ChanServ.eraseEntry (mc₁, .entity (.user mu)) db).acl (mc, .entity mt')) 13 := by
      intro mt' hk hi
      show Has (levelAt (db.acl.erase _) _) 13
      rwa [levelAt_erase, if_neg hk]
    by_cases hk : (mc, Target.entity mt) = (mc₁, .entity (.user mu))
    · cases hk
      obtain ⟨mt', hne', hmt'⟩ := hother hmt
      exact founders_nonempty_iff.mpr ⟨mt', hstays mt' (by simpa using hne') hmt'⟩
    · exact founders_nonempty_iff.mpr ⟨mt, hstays mt hk hmt⟩

theorem mychanDelete_keeps (h : FoundersKept cfg mc db) :
    FoundersKept cfg mc (mychanDelete mc₁ db) := by
  have hlevel : ∀ k, levelAt (mychanDelete mc₁ db).acl k =
      if k.1 = mc₁ then 0#32 else levelAt db.acl k := by
    intro k
    rw [levelAt, mychanDelete, Registry.find_update]
    cases hf : db.acl.find k with
    | none => simp [levelAt, hf]
    | some ca =>
      rw [levelAt_of_find hf, Option.bind_some]
      split_ifs <;> rfl
  refine ⟨fun k => ?_, ?_⟩
  · rw [hlevel]
    split_ifs
    · exact zero_sub _
    · exact h.known k
  · by_cases hmc : mc = mc₁
    · subst hmc
      exact .inl (by rw [mychanDelete, Registry.find_erase, if_pos rfl])
    · refine h.founder.imp (fun hnone => ?_) fun hne => ?_
      · rw [mychanDelete, Registry.find_erase, if_neg hmc]
        exact hnone
      · obtain ⟨mt, hmt⟩ := founders_nonempty_iff.mp hne
        refine founders_nonempty_iff.mpr ⟨mt, ?_⟩
        rwa [hlevel, if_neg hmc]

theorem dropEntry_keeps {mu : MyUserRef} (h : FoundersKept cfg mc db) :
    FoundersKept cfg mc (dropEntry cfg w mu db mc₁) := by
  unfold dropEntry
  dsimp only
  split
  · rename_i hsole
    rw [Bool.and_eq_true, test_caFounder] at hsole
    split
    · rename_i successor hpick
      obtain ⟨hknown, hnew, hkeep⟩ := @succeed_founders cfg w db mc₁ successor h.known
      have hstep : FoundersKept cfg mc (succeed cfg w mc₁ successor db) :=
        h.of_keeps hknown (fun hnone => by rw [succeed_chans, hnone]) hkeep
      refine hstep.eraseEntry fun _ => ⟨.user successor, fun heq => ?_, hnew⟩
      cases heq
      exact mychanPickSuccessor_spec hpick hsole.1
    · exact mychanDelete_keeps h
  · rename_i hmany
    refine h.eraseEntry fun hmu => ?_
    have hcard : (founders db.acl mc₁).card ≠ 1 := by
      intro hone
      rw [← mychanNumFounders_eq_card] at hone
      exact hmany (by rw [(test_caFounder _).mpr hmu, hone]; rfl)
    have hmem : Entity.user mu ∈ founders db.acl mc₁ := (mem_founders _ _ _).mpr hmu
    have hpos : 0 < (founders db.acl mc₁).card := Finset.card_pos.mpr ⟨_, hmem⟩
    have hmore : 1 < (founders db.acl mc₁).card := by omega
    obtain ⟨mt, hmt, hne⟩ := Finset.exists_mem_ne hmore (.user mu)
    exact ⟨mt, hne, (mem_founders _ _ _).mp hmt⟩

theorem myuserDelete_keeps {mu : MyUserRef} (h : FoundersKept cfg mc db) :
    FoundersKept cfg mc (myuserDelete cfg w db mu) := by
  have hloop : ∀ (l : List MyChanRef) (db : ChanDb), FoundersKept cfg mc db →
      FoundersKept cfg mc (l.foldl (dropEntry cfg w mu) db) := by
    intro l
    induction l with
    | nil => exact fun db h => h
    | cons mc₁ l ih => exact fun db h => ih _ (dropEntry_keeps h)
  have hend := hloop (channelsOf db.acl (.user mu)) (leaveGroups mu db) ⟨h.known, h.founder⟩
  exact ⟨hend.known, hend.founder⟩

theorem exec_keeps {cmd : FounderCommand} (h : FoundersKept cfg mc db)
    (hdone : cmd.exec cfg w db si = .done db' replies) : FoundersKept cfg mc db' := by
  cases cmd with
  | flags parv => exact csCmdFlags_keeps h hdone
  | accessAdd channel parv => exact csCmdAccessAdd_keeps h hdone
  | accessSet channel parv => exact csCmdAccessSet_keeps h hdone
  | accessDel channel parv => exact csCmdAccessDel_keeps h hdone
  | roleAdd channel parv => exact csCmdRoleAdd_keeps h hdone
  | roleSet channel parv => exact csCmdRoleSet_keeps h hdone
  | roleDel channel parv => exact csCmdRoleDel_keeps h hdone
  | template parv => exact csCmdTemplate_keeps h hdone
  | akickAdd channel parv => exact csCmdAkickAdd_keeps h hdone
  | akickDel channel parv => exact csCmdAkickDel_keeps h hdone
  | clone parv => exact csCmdClone_keeps h hdone
  | accountDelete mu =>
    cases hdone
    exact myuserDelete_keeps h

end steps

/-- A channel with a founder has one after any run of commands and account deletions, or it
is gone. -/
theorem founders_preserved (cfg : ChanConfig) (db db' : ChanDb) (mc : MyChanRef)
    (es : List (Issued FounderCommand)) (hknown : LevelsKnown cfg db.acl)
    (h : (founders db.acl mc).Nonempty)
    (hrun : (run (issue (FounderCommand.exec cfg)) (some db) es).1 = some db') :
    db'.chans.find mc = none ∨ (founders db'.acl mc).Nonempty := by
  have hstep : ∀ (e : Issued FounderCommand) db db' replies, FoundersKept cfg mc db →
      FounderCommand.exec cfg e.w db e.si e.cmd = .done db' replies → FoundersKept cfg mc db' :=
    fun e db db' replies h hdone => exec_keeps h hdone
  have hend : FoundersKept cfg mc db' := run_issue_invariant hstep ⟨hknown, .inr h⟩ hrun
  exact hend.founder

/- Alice founds #chan, where bob is an operator. -/
def successionDb : ChanDb where
  accounts := sampleAccounts 0#32 []
  groups := .empty
  chans := ⟨[(0, sampleChan "#chan" head_chan [])], nodup_chan⟩
  acl := ⟨[((0, .entity (.user 0)), sampleEntry (caFounder ||| caFlags)),
    ((0, .entity (.user 1)), sampleEntry caOp)], by decide⟩

theorem successionDb_known : LevelsKnown sampleConfig successionDb.acl := by
  intro k
  rw [levelAt]
  cases hf : successionDb.acl.find k with
  | none => exact zero_sub _
  | some ca =>
    have hentries : ∀ e ∈ successionDb.acl.entries, e.2.level &&& ~~~sampleConfig.caAll = 0#32 := by
      decide
    exact hentries (k, ca) ((Registry.find_eq_some_iff _ _ _).mp hf)

/- Alice tries to give up foundership, and then her account is deleted. -/
def successionRun : List (Issued FounderCommand) :=
  [⟨sampleWorld, .irc sampleUser, .flags ["#chan".toList, "alice".toList, "-*".toList]⟩,
    ⟨sampleWorld, .irc sampleUser, .accountDelete 0⟩]

theorem founders_preserved_witness :
    ∃ db', (run (issue (FounderCommand.exec sampleConfig)) (some successionDb) successionRun).1 =
        some db' ∧
      (db'.chans.find 0 = none ∨ (founders db'.acl 0).Nonempty) :=
  ⟨_, rfl, founders_preserved sampleConfig successionDb _ 0 successionRun successionDb_known
    (by decide) rfl⟩

end ChatServices.ChanServ
