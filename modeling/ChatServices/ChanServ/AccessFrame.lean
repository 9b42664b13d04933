import ChatServices.ChanServ.FounderRun

/-! What commands leave as it was: access lists stay well formed, and an entry that keeps a
flag keeps its metadata. -/
namespace ChatServices.ChanServ
open ChatServices.Lib ChatServices.Lib.Mask ChatServices.Lib.MaskUpdate ChatServices.Text

/-- Entries are on registered channels, one for each subject, with masks that `validhostmask`
passed and flags of `ca_all`. -/
structure AclOk (cfg : ChanConfig) (db : ChanDb) : Prop where
  chans : ∀ k, (db.acl.find k).isSome → (db.chans.find k.1).isSome
  single : ∀ mc t t', (db.acl.find (mc, t)).isSome → (db.acl.find (mc, t')).isSome →
    SameSubject t t' → t = t'
  length : ∀ mc mask, (db.acl.find (mc, .host mask)).isSome →
    mask.length ≤ nickLen + userLen + hostLen + 1
  known : LevelsKnown cfg db.acl

section acl
variable {cfg : ChanConfig} {db db' : ChanDb} {k : MyChanRef × Target} {ca : Chanacs}
  {mc : MyChanRef} {t : Target}

theorem AclOk.level (h : AclOk cfg db) (hf : db.acl.find k = some ca) : Sub ca.level cfg.caAll :=
  levelAt_of_find hf ▸ h.known k

theorem AclOk.shrink (h : AclOk cfg db)
    (hchans : ∀ k, (db'.acl.find k).isSome → (db'.chans.find k.1).isSome)
    (hsome : ∀ k, (db'.acl.find k).isSome → (db.acl.find k).isSome)
    (hknown : LevelsKnown cfg db'.acl) : AclOk cfg db' where
  chans := hchans
  single mc t t' ht ht' hs := h.single mc t t' (hsome _ ht) (hsome _ ht') hs
  length mc mask hm := h.length mc mask (hsome _ hm)
  known := hknown

theorem AclOk.grow (h : AclOk cfg db)
    (hchans : ∀ mc, (db.chans.find mc).isSome → (db'.chans.find mc).isSome)
    (hchan : (db.chans.find mc).isSome)
    (hlen : ∀ mask, t = .host mask → mask.length ≤ nickLen + userLen + hostLen + 1)
    (hsome : ∀ k, (db'.acl.find k).isSome → (db.acl.find k).isSome ∨ k = openKey db.acl mc t)
    (hknown : LevelsKnown cfg db'.acl) : AclOk cfg db' := by
  have hopen : ∀ k t', k = openKey db.acl mc t → (db.acl.find (mc, t')).isSome →
      SameSubject t' k.2 → (db.acl.find k).isSome := by
    intro k t' hk hsome' hs
    rw [hk]
    have hkey : SameSubject (openKey db.acl mc t).2 t := sameSubject_openKey db.acl t
    exact openKey_found hsome' (SameSubject.of_common hkey (hk ▸ hs).symm)
  have hfst : ∀ {mc' t'}, (mc', t') = openKey db.acl mc t → mc' = mc := fun heq =>
    (congrArg Prod.fst heq).trans (openKey_fst ..)
  refine ⟨fun k hk => ?_, fun mc' t₁ t₂ h₁ h₂ hs => ?_, fun mc' mask hm => ?_, hknown⟩
  · obtain hold | rfl := hsome k hk
    · exact hchans _ (h.chans k hold)
    · rw [openKey_fst]
      exact hchans _ hchan
  · obtain hold₁ | heq₁ := hsome _ h₁
    · obtain hold₂ | heq₂ := hsome _ h₂
      · exact h.single mc' t₁ t₂ hold₁ hold₂ hs
      · cases hfst heq₂
        exact h.single _ t₁ t₂ hold₁ (hopen _ t₁ heq₂ hold₁ hs) hs
    · cases hfst heq₁
      obtain hold₂ | heq₂ := hsome _ h₂
      · exact h.single _ t₁ t₂ (hopen _ t₂ heq₁ hold₂ hs.symm) hold₂ hs
      · exact (Prod.mk.inj (heq₁.trans heq₂.symm)).2
  · obtain hold | heq := hsome _ hm
    · exact h.length mc' mask hold
    · cases t with
      | entity mt => cases heq
      | host mask' =>
        cases hf : chanacsFindHostLiteral db.acl mc mask' 0#32 with
        | none =>
          rw [openKey, hf] at heq
          obtain rfl : mask = mask' := by simpa using (Prod.mk.inj heq).2
          exact hlen mask rfl
        | some found =>
          obtain ⟨mask₁, ca₁⟩ := found
          rw [openKey, hf] at heq
          obtain rfl : mask = mask₁ := by simpa using (Prod.mk.inj heq).2
          exact h.length mc mask (by rw [find_of_findHostEntry hf]; rfl)

end acl

/-! ### Entries that keep a flag -/

def Keeps (i : Nat) (acl acl' : AccessList) (k : MyChanRef × Target) : Prop :=
  ∀ ca, acl.find k = some ca → Has ca.level i →
    ∃ ca', acl'.find k = some ca' ∧ Has ca'.level i ∧ ca'.metadata = ca.metadata

section keeps
variable {cfg : ChanConfig} {w : World} {db db' : ChanDb} {acl acl' acl'' : AccessList} {i : Nat}
  {k k₀ : MyChanRef × Target} {ca ca' : Chanacs} {c : Change} {restrict : Flags}
  {setter : Option Entity} {mc : MyChanRef} {t : Target}

theorem keeps_of_eq (h : acl'.find k = acl.find k) : Keeps i acl acl' k :=
  fun ca hf hi => ⟨ca, h.trans hf, hi, rfl⟩

theorem Keeps.trans (h : Keeps i acl acl' k) (h' : Keeps i acl' acl'' k) : Keeps i acl acl'' k := by
  intro ca hf hi
  obtain ⟨ca₁, hf₁, hi₁, hm₁⟩ := h ca hf hi
  obtain ⟨ca₂, hf₂, hi₂, hm₂⟩ := h' ca₁ hf₁ hi₁
  exact ⟨ca₂, hf₂, hi₂, hm₂.trans hm₁⟩

theorem keeps_insertNew : Keeps i acl (acl.insertNew k₀ ca') k := by
  intro ca hf hi
  exact ⟨ca, by rw [Registry.find_insertNew, hf, Option.some_or], hi, rfl⟩

theorem keeps_close (hf₀ : acl.find k₀ = some ca) (hmd : ca'.metadata = ca.metadata)
    (hlevel : k = k₀ → Has ca.level i → Has ca'.level i) :
    Keeps i acl (chanacsClose k₀ (acl.set k₀ ca')) k := by
  intro ca₁ hf hi
  by_cases hk : k = k₀
  · subst hk
    rw [hf] at hf₀
    cases hf₀
    have hself : (acl.set k ca').find k = some ca' := by
      rw [Registry.find_set, if_pos rfl, hf]
      rfl
    have hne : ¬ (k = k ∧ levelAt (acl.set k ca') k = 0#32) := by
      rw [levelAt_of_find hself]
      rintro ⟨-, h0⟩
      have hnot := has_zero (w := 32) i
      exact hnot (h0 ▸ hlevel rfl hi)
    exact ⟨ca', by rw [find_chanacsClose, if_neg hne, hself], hlevel rfl hi, hmd⟩
  · refine ⟨ca₁, ?_, hi, rfl⟩
    rw [find_chanacsClose, if_neg fun hc => hk hc.1, Registry.find_set, if_neg hk, hf]

theorem chanacsModify_metadata :
    (chanacsModify w db ca c restrict setter).ca.metadata = ca.metadata := by
  simp only [chanacsModify]
  split_ifs <;> rfl

theorem keeps_chanacsChangeSimple (hrem : ¬ Has c.rem i) :
    Keeps i db.acl (chanacsChangeSimple cfg w db mc t c setter) k := by
  unfold chanacsChangeSimple chanacsChange
  dsimp only
  split
  · split_ifs
    · exact keeps_of_eq rfl
    · exact keeps_of_eq rfl
    · exact keeps_insertNew
  · rename_i ca hf
    split_ifs with hok
    · refine keeps_close hf chanacsModify_metadata fun _ hi => ?_
      rw [chanacsModify_level hok.1, has_result]
      exact .inl ⟨hi, fun hr => hrem ((has_and _ _ i).mp hr).1⟩
    · exact keeps_of_eq rfl

theorem keeps_editEntry {si : Source} {body : ChanDb → Chanacs → EntryEnd EntryResult}
    {finish : Flags → Modified → Option (List Reply)} {replies : List Reply}
    {P : Change → Flags → Prop}
    (hbody : BodyEnd w (bodyDb w db si mc t) si (bodyEntry w db si mc t) P
      (body (bodyDb w db si mc t) (bodyEntry w db si mc t)))
    (h : editEntry w db si mc t body finish = .done db' replies)
    (hrem : k = openKey db.acl mc t → ∀ c restrict, P c restrict →
      Permits restrict (levelAt db.acl k) c.add c.rem → ¬ Has c.rem i) :
    Keeps i db.acl db'.acl k := by
  have hopened : (bodyDb w db si mc t).acl.find (openKey db.acl mc t) =
      some (bodyEntry w db si mc t) := find_insertNew_self
  have hclosed : ∀ ca, ca.metadata = (bodyEntry w db si mc t).metadata →
      (k = openKey db.acl mc t → Has (bodyEntry w db si mc t).level i → Has ca.level i) →
      Keeps i db.acl (closedDb w db si mc t ca).acl k :=
    fun ca hmd hlevel => keeps_insertNew.trans (keeps_close hopened hmd hlevel)
  obtain ⟨reply, hb, rfl, -⟩ | ⟨old, m, hb⟩ | ⟨ca, r, hb, rfl, hr⟩ := editEntry_cases h
  · exact keeps_insertNew
  · rw [hb] at hbody
    cases hbody
  · rw [hb] at hbody
    cases hbody with
    | stay reply => exact hclosed _ rfl fun _ hi => hi
    | change c restrict hP hok =>
      refine hclosed _ chanacsModify_metadata fun hk hi => ?_
      rw [chanacsModify_level hok]
      obtain hsame | hperm := chanacsModify_ok_iff.mp hok
      · rwa [hsame]
      · rw [has_result]
        rw [bodyEntry_level, ← hk] at hperm
        exact .inl ⟨hi, hrem hk c restrict hP hperm⟩

theorem editEntry_isSome {si : Source} {body : ChanDb → Chanacs → EntryEnd EntryResult}
    {finish : Flags → Modified → Option (List Reply)} {replies : List Reply}
    {P : Change → Flags → Prop}
    (hbody : BodyEnd w (bodyDb w db si mc t) si (bodyEntry w db si mc t) P
      (body (bodyDb w db si mc t) (bodyEntry w db si mc t)))
    (h : editEntry w db si mc t body finish = .done db' replies)
    (hk : (db'.acl.find k).isSome) : (db.acl.find k).isSome ∨ k = openKey db.acl mc t := by
  by_cases heq : k = openKey db.acl mc t
  · exact .inr heq
  have hopened : (bodyDb w db si mc t).acl.find k = db.acl.find k := by
    rw [bodyDb, openDb, Registry.find_insertNew, if_neg (Ne.symm heq), Option.or_none]
  left
  obtain ⟨reply, hb, rfl, -⟩ | ⟨old, m, hb⟩ | ⟨ca, r, hb, rfl, hr⟩ := editEntry_cases h
  · rwa [hopened] at hk
  · rw [hb] at hbody
    cases hbody
  · rw [closedDb] at hk
    dsimp only at hk
    rwa [find_chanacsClose, if_neg fun hc => heq hc.1, Registry.find_set, if_neg heq, hopened] at hk

end keeps

structure Frame (i : Nat) (db db' : ChanDb) (k : MyChanRef × Target) : Prop where
  chan : (db.chans.find k.1).isSome → (db'.chans.find k.1).isSome
  entry : Keeps i db.acl db'.acl k

theorem Frame.trans {i : Nat} {db db' db'' : ChanDb} {k : MyChanRef × Target} (h : Frame i db db' k)
    (h' : Frame i db' db'' k) : Frame i db db'' k :=
  ⟨h'.chan ∘ h.chan, h.entry.trans h'.entry⟩

/-! ### FLAGS -/

theorem mychanFind_registered {cfg : ChanConfig} {db : ChanDb} {name : CString} {mc : MyChanRef}
    {chan : MyChan} (h : mychanFind cfg db name = some (mc, chan)) : (db.chans.find mc).isSome := by
  rw [(Registry.find_eq_some_iff _ _ _).mpr (List.mem_of_find?_eq_some h)]
  rfl

structure FlagsTakes (cfg : ChanConfig) (w : World) (db : ChanDb) (si : Source) (req : FlagsRequest)
    (i : Nat) (k : MyChanRef × Target) (t : Target) : Prop where
  target : commandTarget cfg w db req.target = some t
  key : k = openKey db.acl req.mc t
  takes : Has (flagsAsked req.change t).rem i
  step : FlagsStep cfg w db si req t (flagsAsked req.change t) (flagsMask req (levelAt db.acl k) t)
  permits : Permits (flagsMask req (levelAt db.acl k) t) (levelAt db.acl k)
    (flagsAsked req.change t).add (flagsAsked req.change t).rem

section flags
variable {cfg : ChanConfig} {w : World} {db db' : ChanDb} {si : Source} {req : FlagsRequest}
  {parv : List CString} {replies : List Reply}

theorem flagsEdit_frame {t : Target} {body : ChanDb → Chanacs → EntryEnd EntryResult}
    {finish : Flags → Modified → Option (List Reply)} (h : AclOk cfg db)
    (ht : commandTarget cfg w db req.target = some t) (hchan : (db.chans.find req.mc).isSome)
    (hknown : LevelsKnown cfg db'.acl)
    (hbody : BodyEnd w (bodyDb w db si req.mc t) si (bodyEntry w db si req.mc t)
      (FlagsStep cfg w db si req t) (body (bodyDb w db si req.mc t) (bodyEntry w db si req.mc t)))
    (hdone : editEntry w db si req.mc t body finish = .done db' replies) :
    AclOk cfg db' ∧ ∀ i k, (∀ t, ¬ FlagsTakes cfg w db si req i k t) → Frame i db db' k := by
  have hdb := (editEntry_rights hbody hdone).1
  have hchans : db'.chans = db.chans := by rw [hdb]
  refine ⟨h.grow (fun mc hmc => hchans ▸ hmc) hchan (fun mask hmask => ?_)
    (fun k hk => editEntry_isSome hbody hdone hk) hknown, fun i k hnot => ⟨fun hk => hchans ▸ hk, ?_⟩⟩
  · subst hmask
    obtain ⟨hvalid, rfl⟩ := commandTarget_host ht
    simp only [validhostmask, Bool.and_eq_true, decide_eq_true_eq] at hvalid
    omega
  · refine keeps_editEntry hbody hdone fun hk c restrict hstep hperm hi => hnot t ?_
    have hmask := hstep.mask
    have hasked := hstep.asked
    rw [← hk] at hmask
    subst hmask hasked
    exact ⟨ht, hk, hi, hstep, hperm⟩

theorem csCmdFlags_frame (h : AclOk cfg db) (hdone : csCmdFlags cfg w db si parv = .done db' replies) :
    AclOk cfg db' ∧ db' = { db with acl := db'.acl } ∧
      ∀ i k, (∀ req t, flagsPlan cfg w db si parv = .ok req → ¬ FlagsTakes cfg w db si req i k t) →
        Frame i db db' k := by
  have hsame : AclOk cfg db ∧ db = { db with acl := db.acl } ∧
      ∀ i k, (∀ req t, flagsPlan cfg w db si parv = .ok req → ¬ FlagsTakes cfg w db si req i k t) →
        Frame i db db k :=
    ⟨h, rfl, fun i k _ => ⟨id, keeps_of_eq rfl⟩⟩
  rw [csCmdFlags] at hdone
  cases hplan : flagsPlan cfg w db si parv with
  | error r =>
    rw [hplan] at hdone
    cases hdone
    rwa [hplan] at hsame
  | ok req =>
    rw [hplan] at hdone
    dsimp only at hdone
    have hchan := mychanFind_registered (flagsPlan_ok hplan).chan
    obtain ⟨hdb, hrights⟩ := flagsApply_rights hdone
    have hknown : LevelsKnown cfg db'.acl := by
      obtain hlevels | ⟨t, c, restrict, -, hstep, -, hu⟩ := hrights
      · intro k
        rw [hlevels]
        exact h.known k
      · rw [hstep.asked] at hu
        exact known_update h.known (flagsAsked_sub (flagsChange_sub (flagsPlan_ok hplan).change) t) hu
    have hend : ∀ {t body finish}, commandTarget cfg w db req.target = some t →
        BodyEnd w (bodyDb w db si req.mc t) si (bodyEntry w db si req.mc t)
          (FlagsStep cfg w db si req t) (body (bodyDb w db si req.mc t) (bodyEntry w db si req.mc t)) →
        editEntry w db si req.mc t body finish = .done db' replies →
        AclOk cfg db' ∧ db' = { db with acl := db'.acl } ∧
          ∀ i k, (∀ req' t, Except.ok req = (.ok req' : Except (List Reply) FlagsRequest) →
            ¬ FlagsTakes cfg w db si req' i k t) → Frame i db db' k := by
      intro t body finish ht hbody hedit
      obtain ⟨hacl, hframe⟩ := flagsEdit_frame h ht hchan hknown hbody hedit
      exact ⟨hacl, hdb, fun i k hnot => hframe i k fun t => hnot req t rfl⟩
    unfold flagsApply at hdone
    by_cases hv : validhostmask req.target = true
    · have ht : commandTarget cfg w db req.target = some (.host req.target) := by
        rw [commandTarget, if_pos hv]
      rw [if_pos hv] at hdone
      cases hh : flagsHostRefusal cfg w si req with
      | some reply =>
        rw [hh] at hdone
        cases hdone
        rwa [hplan] at hsame
      | none =>
        rw [hh] at hdone
        exact hend ht (flagsHostBody_end req.target hh) hdone
    · rw [if_neg hv] at hdone
      cases hm : myentityFindExt cfg w db req.target with
      | none =>
        rw [hm] at hdone
        cases hdone
        rwa [hplan] at hsame
      | some mt =>
        have ht : commandTarget cfg w db req.target = some (.entity mt) := by
          rw [commandTarget, if_neg hv, hm]
          rfl
        rw [hm] at hdone
        exact hend ht (flagsEntityBody_end mt) hdone

end flags

/-! ### `chanacs_change_simple` and CLONE -/

section change
variable {cfg : ChanConfig} {w : World} {db : ChanDb} {mc mc₂ : MyChanRef} {t : Target} {c : Change}
  {setter : Option Entity} {i : Nat}

theorem AclOk.changeSimple (h : AclOk cfg db) (hchan : (db.chans.find mc).isSome)
    (hlen : ∀ mask, t = .host mask → mask.length ≤ nickLen + userLen + hostLen + 1) :
    AclOk cfg { db with acl := chanacsChangeSimple cfg w db mc t c setter } :=
  h.grow (fun _ => id) hchan hlen (fun _ hk => find_chanacsChangeSimple hk)
    fun k => changeSimple_known (h.known k)

theorem frame_changeSimple {k : MyChanRef × Target} (hrem : ¬ Has c.rem i) :
    Frame i db { db with acl := chanacsChangeSimple cfg w db mc t c setter } k :=
  ⟨id, keeps_chanacsChangeSimple hrem⟩

theorem cloneEntries_frame (es : List (Target × Chanacs)) (db : ChanDb) (h : AclOk cfg db)
    (hchan : (db.chans.find mc₂).isSome)
    (hlen : ∀ e ∈ es, ∀ mask, e.1 = .host mask → mask.length ≤ nickLen + userLen + hostLen + 1) :
    AclOk cfg (es.foldl (cloneEntry cfg w mc₂) db) ∧
      ∀ i k, Frame i db (es.foldl (cloneEntry cfg w mc₂) db) k := by
  induction es generalizing db with
  | nil => exact ⟨h, fun i k => ⟨id, keeps_of_eq rfl⟩⟩
  | cons e es ih =>
    have hstep : AclOk cfg (cloneEntry cfg w mc₂ db e) :=
      h.changeSimple hchan (hlen e (List.mem_cons_self ..))
    obtain ⟨hok, hframe⟩ := ih (cloneEntry cfg w mc₂ db e) hstep hchan
      fun e' he' => hlen e' (List.mem_cons_of_mem e he')
    exact ⟨hok, fun i k => (frame_changeSimple (has_zero i)).trans (hframe i k)⟩

theorem find_cloneClear {acl : AccessList} {k : MyChanRef × Target} :
    (cloneClear mc₂ acl).find k =
      if k.1 = mc₂ ∧ ¬ Has (levelAt acl k) 13 then none else acl.find k := by
  rw [cloneClear, Registry.find_update]
  cases hf : acl.find k with
  | none => simp
  | some ca =>
    rw [levelAt_of_find hf, Option.bind_some]
    simp only [Bool.not_eq_true', test_caFounder_eq_false]

theorem clonePlan_chan {si : Source} {parv : List CString} {req : CloneRequest}
    (h : clonePlan cfg w db si parv = .ok req) : (db.chans.find req.mc2).isSome := by
  unfold clonePlan at h
  split at h
  · split at h
    · cases h
    · cases h
    · rename_i mc chan mc₂ chan₂ _ hfind
      split_ifs at h
      cases h
      exact mychanFind_registered hfind
  · cases h

theorem csCmdClone_frame {si : Source} {parv : List CString} (h : AclOk cfg db) :
    ∃ db' replies, csCmdClone cfg w db si parv = .done db' replies ∧ AclOk cfg db' ∧
      db' = { db with acl := db'.acl, chans := db'.chans } ∧
      ∀ i k, (∀ req, clonePlan cfg w db si parv = .ok req → k.1 = req.mc2 →
        Has (levelAt db.acl k) 13) → Frame i db db' k := by
  rw [csCmdClone]
  cases hplan : clonePlan cfg w db si parv with
  | error replies => exact ⟨db, replies, rfl, h, rfl, fun i k _ => ⟨id, keeps_of_eq rfl⟩⟩
  | ok req =>
    have hsome : ∀ mc', (db.chans.find mc').isSome →
        ((db.chans.set req.mc2 (cloneChan req.chan req.chan2)).find mc').isSome := by
      intro mc' hmc
      rw [Registry.find_set]
      split_ifs
      · rwa [Option.isSome_map]
      · exact hmc
    have hchan : (db.chans.find req.mc2).isSome := clonePlan_chan hplan
    have hclear : AclOk cfg { db with acl := cloneClear req.mc2 db.acl } := by
      refine h.shrink (fun k hk => h.chans k ?_) (fun k hk => ?_) fun k => ?_
      · rw [find_cloneClear] at hk
        split_ifs at hk
        · cases hk
        · exact hk
      · rw [find_cloneClear] at hk
        split_ifs at hk
        · cases hk
        · exact hk
      · rw [levelAt_cloneClear]
        split_ifs
        · exact zero_sub _
        · exact h.known k
    obtain ⟨hok, hframe⟩ := cloneEntries_frame (w := w) (chanacsOf db.acl req.mc) _ hclear hchan
      fun e he mask hmask => h.length req.mc mask
        (by rw [← hmask, (mem_chanacsOf ..).mp he]; rfl)
    have hacl : cloneAcl cfg w db req.mc req.mc2 =
        { db with acl := (cloneAcl cfg w db req.mc req.mc2).acl } := cloneAcl_eq
    have hchans : (cloneAcl cfg w db req.mc req.mc2).chans = db.chans := by rw [hacl]
    refine ⟨_, _, rfl, ?_, ?_, fun i k hkeep => ⟨fun hk => ?_, ?_⟩⟩
    · refine hok.shrink (fun k hk => ?_) (fun k hk => hk) hok.known
      have hold : ((cloneAcl cfg w db req.mc req.mc2).chans.find k.1).isSome := hok.chans k hk
      dsimp only
      rw [hchans] at hold ⊢
      exact hsome k.1 hold
    · dsimp only
      rw [hacl]
    · dsimp only
      rw [hchans]
      exact hsome k.1 hk
    · have hkept : (cloneClear req.mc2 db.acl).find k = db.acl.find k := by
        rw [find_cloneClear, if_neg fun hc => hc.2 (hkeep req rfl hc.1)]
      exact (keeps_of_eq hkept).trans (hframe i k).entry

end change

/-! ### The deletion of an account -/

/-- The loop of `myuser_delete` meets the channel when its only founder is the account and no
successor is there. -/
def DropsChannel (cfg : ChanConfig) (w : World) (mu : MyUserRef) (mc : MyChanRef) :
    ChanDb → List MyChanRef → Prop
  | _, [] => False
  | db, mc₁ :: l =>
    mc = mc₁ ∧ (test (levelAt db.acl (mc, .entity (.user mu))) caFounder &&
        mychanNumFounders db.acl mc = 1) = true ∧ mychanPickSuccessor cfg w db mc = none ∨
      DropsChannel cfg w mu mc (dropEntry cfg w mu db mc₁) l

section delete
variable {cfg : ChanConfig} {w : World} {db : ChanDb} {mc : MyChanRef} {mu : MyUserRef} {i : Nat}
  {k : MyChanRef × Target}

theorem find_mychanDelete : (mychanDelete mc db).acl.find k =
    if k.1 = mc then none else db.acl.find k := by
  rw [mychanDelete, Registry.find_update]
  cases db.acl.find k with
  | none => simp
  | some ca => rfl

theorem AclOk.mychanDelete (h : AclOk cfg db) : AclOk cfg (mychanDelete mc db) := by
  have hsome : ∀ k, ((ChanServ.mychanDelete mc db).acl.find k).isSome →
      k.1 ≠ mc ∧ (db.acl.find k).isSome := by
    intro k hk
    rw [find_mychanDelete] at hk
    split_ifs at hk with hmc
    · cases hk
    · exact ⟨hmc, hk⟩
  refine h.shrink (fun k hk => ?_) (fun k hk => (hsome k hk).2) fun k => ?_
  · have hold := h.chans k (hsome k hk).2
    rwa [ChanServ.mychanDelete, Registry.find_erase, if_neg (hsome k hk).1]
  · rw [levelAt, find_mychanDelete]
    split_ifs
    · exact zero_sub _
    · exact h.known k

theorem frame_mychanDelete (hmc : k.1 ≠ mc) : Frame i db (mychanDelete mc db) k := by
  refine ⟨fun hk => ?_, keeps_of_eq ?_⟩
  · rwa [mychanDelete, Registry.find_erase, if_neg hmc]
  · rw [find_mychanDelete, if_neg hmc]

theorem AclOk.eraseEntry (h : AclOk cfg db) : AclOk cfg (eraseEntry k db) := by
  have hsome : ∀ k', ((ChanServ.eraseEntry k db).acl.find k').isSome → (db.acl.find k').isSome := by
    intro k' hk
    rw [ChanServ.eraseEntry, Registry.find_erase] at hk
    split_ifs at hk
    · cases hk
    · exact hk
  refine h.shrink (fun k' hk => h.chans k' (hsome k' hk)) hsome fun k' => ?_
  rw [ChanServ.eraseEntry, levelAt_erase]
  split_ifs
  · exact zero_sub _
  · exact h.known k'

theorem frame_eraseEntry {k' : MyChanRef × Target} (hk : k' ≠ k) :
    Frame i db (eraseEntry k db) k' := by
  refine ⟨id, keeps_of_eq ?_⟩
  rw [eraseEntry, Registry.find_erase, if_neg hk]

theorem succeed_frame {successor : MyUserRef} (h : AclOk cfg db)
    (hchan : (db.chans.find mc).isSome)
    (hflag : ∀ flag, cfg.flagConfig.successorFlag = some flag → ¬ Has flag i) :
    AclOk cfg (succeed cfg w mc successor db) ∧ Frame i db (succeed cfg w mc successor db) k := by
  have hmask : ∀ mask, Target.entity (.user successor) = .host mask →
      mask.length ≤ nickLen + userLen + hostLen + 1 := nofun
  have hadds : ∀ db₁ : ChanDb, ∀ add, AclOk cfg db₁ → (db₁.chans.find mc).isSome →
      AclOk cfg (changeSimple cfg w mc successor ⟨add, 0#32⟩ db₁) ∧
        Frame i db₁ (changeSimple cfg w mc successor ⟨add, 0#32⟩ db₁) k :=
    fun db₁ add h hchan => ⟨h.changeSimple hchan hmask, frame_changeSimple (has_zero i)⟩
  obtain ⟨hok₁, hframe₁⟩ := hadds db (caFounder ||| caFlags) h hchan
  obtain ⟨hok₂, hframe₂⟩ := hadds _ (customFounderCheck cfg) hok₁ hchan
  unfold succeed
  cases hf : cfg.flagConfig.successorFlag with
  | none => exact ⟨hok₂, hframe₁.trans hframe₂⟩
  | some flag =>
    exact ⟨hok₂.changeSimple hchan hmask,
      (hframe₁.trans hframe₂).trans (frame_changeSimple (hflag flag hf))⟩

theorem succeed_entities {successor : MyUserRef} :
    (succeed cfg w mc successor db).accounts = db.accounts ∧
      (succeed cfg w mc successor db).groups = db.groups := by
  unfold succeed
  cases cfg.flagConfig.successorFlag <;> exact ⟨rfl, rfl⟩

theorem dropEntry_frame {mc₁ : MyChanRef} (h : AclOk cfg db)
    (hflag : ∀ flag, cfg.flagConfig.successorFlag = some flag → ¬ Has flag i) :
    AclOk cfg (dropEntry cfg w mu db mc₁) ∧
      (dropEntry cfg w mu db mc₁).accounts = db.accounts ∧
      (dropEntry cfg w mu db mc₁).groups = db.groups ∧
      (k.2 ≠ .entity (.user mu) → ¬ DropsChannel cfg w mu k.1 db [mc₁] →
        Frame i db (dropEntry cfg w mu db mc₁) k) := by
  have hkey : k.2 ≠ .entity (.user mu) → k ≠ (mc₁, .entity (.user mu)) :=
    fun hne heq => hne (congrArg Prod.snd heq)
  unfold dropEntry
  dsimp only
  split
  · rename_i hsole
    split
    · rename_i successor hpick
      have hentry : (db.acl.find (mc₁, .entity (.user mu))).isSome := by
        rw [Bool.and_eq_true, levelAt] at hsole
        by_contra hnone
        rw [Option.not_isSome_iff_eq_none.mp hnone] at hsole
        exact absurd hsole.1 (by decide)
      obtain ⟨hok, hframe⟩ := @succeed_frame cfg w db mc₁ i k successor h (h.chans _ hentry) hflag
      obtain ⟨haccounts, hgroups⟩ := @succeed_entities cfg w db mc₁ successor
      exact ⟨hok.eraseEntry, haccounts, hgroups,
        fun hne _ => hframe.trans (frame_eraseEntry (hkey hne))⟩
    · rename_i hpick
      refine ⟨h.mychanDelete, rfl, rfl, fun _ hnot => frame_mychanDelete fun hmc => hnot ?_⟩
      rw [DropsChannel, hmc]
      exact .inl ⟨rfl, hsole, hpick⟩
  · exact ⟨h.eraseEntry, rfl, rfl, fun hne _ => frame_eraseEntry (hkey hne)⟩

theorem dropEntries_frame (l : List MyChanRef) (db : ChanDb) (h : AclOk cfg db)
    (hflag : ∀ flag, cfg.flagConfig.successorFlag = some flag → ¬ Has flag i) :
    AclOk cfg (l.foldl (dropEntry cfg w mu) db) ∧
      (l.foldl (dropEntry cfg w mu) db).accounts = db.accounts ∧
      (l.foldl (dropEntry cfg w mu) db).groups = db.groups ∧
      (k.2 ≠ .entity (.user mu) → ¬ DropsChannel cfg w mu k.1 db l →
        Frame i db (l.foldl (dropEntry cfg w mu) db) k) := by
  induction l generalizing db with
  | nil => exact ⟨h, rfl, rfl, fun _ _ => ⟨id, keeps_of_eq rfl⟩⟩
  | cons mc₁ l ih =>
    obtain ⟨hok₁, haccounts₁, hgroups₁, hframe₁⟩ := @dropEntry_frame cfg w db mu i k mc₁ h hflag
    obtain ⟨hok, haccounts, hgroups, hframe⟩ := ih (dropEntry cfg w mu db mc₁) hok₁
    refine ⟨hok, haccounts.trans haccounts₁, hgroups.trans hgroups₁, fun hne hnot => ?_⟩
    rw [DropsChannel, not_or] at hnot
    have hfirst : ¬ DropsChannel cfg w mu k.1 db [mc₁] := by
      rw [DropsChannel, DropsChannel, or_false]
      exact hnot.1
    exact (hframe₁ hne hfirst).trans (hframe hne hnot.2)

theorem myuserDelete_frame (h : AclOk cfg db)
    (hflag : ∀ flag, cfg.flagConfig.successorFlag = some flag → ¬ Has flag i) :
    AclOk cfg (myuserDelete cfg w db mu) ∧
      (myuserDelete cfg w db mu).accounts = ⟨db.accounts.users.erase mu,
        db.accounts.nicks.filter (fun mn => mn.owner ≠ mu)⟩ ∧
      (myuserDelete cfg w db mu).groups = (leaveGroups mu db).groups ∧
      (k.2 ≠ .entity (.user mu) →
        ¬ DropsChannel cfg w mu k.1 (leaveGroups mu db) (channelsOf db.acl (.user mu)) →
        Frame i db (myuserDelete cfg w db mu) k) := by
  have hleave : AclOk cfg (leaveGroups mu db) := ⟨h.chans, h.single, h.length, h.known⟩
  obtain ⟨hok, haccounts, hgroups, hframe⟩ := @dropEntries_frame cfg w mu i k
    (channelsOf db.acl (.user mu)) (leaveGroups mu db) hleave hflag
  refine ⟨⟨hok.chans, hok.single, hok.length, hok.known⟩, ?_, hgroups, fun hne hnot => ?_⟩
  · rw [myuserDelete]
    dsimp only
    rw [haccounts]
    rfl
  obtain ⟨hchan, hentry⟩ := hframe hne hnot
  exact ⟨hchan, hentry⟩

end delete

end ChatServices.ChanServ
