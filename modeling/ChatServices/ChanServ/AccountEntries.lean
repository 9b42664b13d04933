import ChatServices.ChanServ.AccessFrame
import ChatServices.ChanServ.AccountSteps

/-! What the operations on access lists add to them: entries for entities that are there already
or that were asked for, with flags of `ca_all`. -/
namespace ChatServices.ChanServ.Tables
open ChatServices.Lib ChatServices.Lib.Mask ChatServices.Lib.MaskUpdate ChatServices.Lib.Walk
open ChatServices.Text ChatServices.ChanServ.Heap

/-- New entries are for entities with an entry on some channel before, or with `p`. -/
structure AclGrows (cfg : ChanConfig) (acl acl' : AccessList) (p : Entity → Prop) : Prop where
  known : LevelsKnown cfg acl → LevelsKnown cfg acl'
  entity : ∀ mc mt, (acl'.find (mc, .entity mt)).isSome →
    (∃ mc', (acl.find (mc', .entity mt)).isSome) ∨ p mt

section grows
variable {cfg : ChanConfig} {w : World} {acl acl' acl'' : AccessList} {p : Entity → Prop}
  {k : MyChanRef × Target} {ca ca' : Chanacs} {db : ChanDb} {mc : MyChanRef} {t : Target} {c : Change}
  {restrict : Flags} {setter : Option Entity}

theorem AclGrows.refl : AclGrows cfg acl acl p := ⟨id, fun mc _ h => .inl ⟨mc, h⟩⟩

theorem AclGrows.trans (h : AclGrows cfg acl acl' p) (h' : AclGrows cfg acl' acl'' p) :
    AclGrows cfg acl acl'' p := by
  refine ⟨fun hk => h'.known (h.known hk), fun mc mt hsome => ?_⟩
  obtain ⟨mc', hmid⟩ | hp := h'.entity mc mt hsome
  · exact h.entity mc' mt hmid
  · exact .inr hp

theorem AclGrows.of_find (hlevel : ∀ k ca, acl'.find k = some ca → LevelsKnown cfg acl →
      Sub ca.level cfg.caAll)
    (hentity : ∀ mc mt, (acl'.find (mc, .entity mt)).isSome →
      (∃ mc', (acl.find (mc', .entity mt)).isSome) ∨ p mt) : AclGrows cfg acl acl' p := by
  refine ⟨fun hk k => ?_, hentity⟩
  rw [levelAt]
  cases hf : acl'.find k with
  | none => exact zero_sub _
  | some ca => exact hlevel k ca hf hk

theorem AclGrows.shrink (h : ∀ k ca, acl'.find k = some ca → acl.find k = some ca) :
    AclGrows cfg acl acl' p := by
  refine AclGrows.of_find (fun k ca hf hk => ?_) fun mc mt hsome => ?_
  · have hlevel := hk k
    rwa [levelAt_of_find (h k ca hf)] at hlevel
  · obtain ⟨ca, hca⟩ := Option.isSome_iff_exists.mp hsome
    exact .inl ⟨mc, by rw [h _ ca hca]; rfl⟩

theorem grows_insertNew (hlevel : Sub ca.level cfg.caAll) (hp : ∀ mt, k.2 = .entity mt → p mt) :
    AclGrows cfg acl (acl.insertNew k ca) p := by
  have hfind : ∀ k' ca', (acl.insertNew k ca).find k' = some ca' →
      acl.find k' = some ca' ∨ k = k' ∧ ca' = ca := by
    intro k' ca' hf
    rw [Registry.find_insertNew] at hf
    cases hold : acl.find k' with
    | some ca'' =>
      rw [hold, Option.some_or] at hf
      exact .inl hf
    | none =>
      rw [hold, Option.none_or] at hf
      split_ifs at hf with heq
      exact .inr ⟨heq, (Option.some.inj hf).symm⟩
  refine AclGrows.of_find (fun k' ca' hf hk => ?_) fun mc mt hsome => ?_
  · obtain hold | ⟨-, rfl⟩ := hfind k' ca' hf
    · have hl := hk k'
      rwa [levelAt_of_find hold] at hl
    · exact hlevel
  · obtain ⟨ca', hca'⟩ := Option.isSome_iff_exists.mp hsome
    obtain hold | ⟨rfl, -⟩ := hfind _ ca' hca'
    · exact .inl ⟨mc, by rw [hold]; rfl⟩
    · exact .inr (hp mt rfl)

theorem grows_set (hlevel : LevelsKnown cfg acl → Sub ca.level cfg.caAll) :
    AclGrows cfg acl (acl.set k ca) p := by
  refine AclGrows.of_find (fun k' ca' hf hk => ?_) fun mc mt hsome => ?_
  · rw [Registry.find_set] at hf
    split_ifs at hf
    · obtain ⟨ca'', -, rfl⟩ := Option.map_eq_some_iff.mp hf
      exact hlevel hk
    · have hl := hk k'
      rwa [levelAt_of_find hf] at hl
  · rw [Registry.find_set] at hsome
    refine .inl ⟨mc, ?_⟩
    split_ifs at hsome
    · rwa [Option.isSome_map] at hsome
    · exact hsome

theorem grows_close : AclGrows cfg acl (ChanServ.chanacsClose k acl) p := by
  refine AclGrows.shrink fun k' ca' hf => ?_
  rw [ChanServ.chanacsClose] at hf
  split at hf
  · split_ifs at hf
    · rw [Registry.find_erase] at hf
      split_ifs at hf
      exact hf
    · exact hf
  · exact hf

theorem chanacsModify_known (hadd : Sub c.add cfg.caAll) (hlevel : Sub ca.level cfg.caAll) :
    Sub (ChanServ.chanacsModify w db ca c restrict setter).ca.level cfg.caAll := by
  cases hok : (ChanServ.chanacsModify w db ca c restrict setter).ok with
  | true =>
    rw [chanacsModify_level hok]
    exact result_sub hlevel hadd
  | false => rwa [chanacsModify_refused hok]

theorem grows_chanacsChange (hadd : Sub c.add cfg.caAll) (hp : ∀ mt, t = .entity mt → p mt) :
    AclGrows cfg db.acl (ChanServ.chanacsChange cfg w db mc t c restrict setter) p := by
  have hkey : ∀ mt, (openKey db.acl mc t).2 = .entity mt → p mt := by
    intro mt hmt
    cases t with
    | entity mt' => exact hp mt (by simpa [openKey] using hmt)
    | host mask => cases hmt
  rw [ChanServ.chanacsChange]
  split
  · split_ifs
    · exact .refl
    · exact .refl
    · refine grows_insertNew ?_ hkey
      exact (sub_iff _ _).mpr fun i hi => ((has_and _ _ i).mp hi).2
  · rename_i ca hca
    dsimp only
    split_ifs
    · refine (grows_set fun hk => ?_).trans grows_close
      have hl := hk (openKey db.acl mc t)
      rw [levelAt_of_find hca] at hl
      exact chanacsModify_known hadd hl
    · exact .refl

theorem grows_changeSimple (hp : ∀ mt, t = .entity mt → p mt) :
    AclGrows cfg db.acl (ChanServ.chanacsChangeSimple cfg w db mc t c setter) p :=
  grows_chanacsChange (c.mask_sub cfg.caAll).1 hp

theorem grows_cloneEntries {mc2 : MyChanRef} (es : List (Target × Chanacs)) (db : ChanDb)
    (hp : ∀ e ∈ es, ∀ mt, e.1 = .entity mt → p mt) :
    AclGrows cfg db.acl (es.foldl (cloneEntry cfg w mc2) db).acl p := by
  induction es generalizing db with
  | nil => exact .refl
  | cons e es ih =>
    have hfirst : AclGrows cfg db.acl (cloneEntry cfg w mc2 db e).acl p :=
      grows_changeSimple (hp e (List.mem_cons_self ..))
    exact hfirst.trans (ih _ fun e' he' => hp e' (List.mem_cons_of_mem e he'))

theorem grows_csCmdClone {si : Source} {parv : List CString} {db' : ChanDb} {replies : List Reply}
    (hdone : ChanServ.csCmdClone cfg w db si parv = .done db' replies) :
    AclGrows cfg db.acl db'.acl (fun _ => False) := by
  rw [ChanServ.csCmdClone] at hdone
  split at hdone
  · cases hdone
    exact .refl
  · rename_i req hplan
    cases hdone
    have hclear : AclGrows cfg db.acl (cloneClear req.mc2 db.acl)
        (fun mt => (db.acl.find (req.mc, .entity mt)).isSome) := by
      refine AclGrows.shrink fun k ca hf => ?_
      rw [cloneClear, Registry.find_update] at hf
      obtain ⟨ca', hca', heq⟩ := Option.bind_eq_some_iff.mp hf
      split_ifs at heq
      rw [hca', Option.some.inj heq]
    have hcopies := @grows_cloneEntries cfg w (fun mt => (db.acl.find (req.mc, .entity mt)).isSome)
      req.mc2 (chanacsOf db.acl req.mc) { db with acl := cloneClear req.mc2 db.acl } fun e he mt hmt => by
        rw [← hmt, (mem_chanacsOf db.acl req.mc e.1 e.2).mp he]
        rfl
    have hall := hclear.trans hcopies
    refine ⟨hall.known, fun mc mt hsome => .inl ?_⟩
    obtain hold | hsource := hall.entity mc mt hsome
    · exact hold
    · exact ⟨req.mc, hsource⟩

theorem grows_mychanDelete : AclGrows cfg db.acl (ChanServ.mychanDelete mc db).acl p := by
  refine AclGrows.shrink fun k ca hf => ?_
  rw [find_mychanDelete] at hf
  split_ifs at hf
  exact hf

theorem grows_eraseEntry : AclGrows cfg db.acl (eraseEntry k db).acl p := by
  refine AclGrows.shrink fun k' ca hf => ?_
  rw [eraseEntry, Registry.find_erase] at hf
  split_ifs at hf
  exact hf

end grows

/-! ### The channels of an account that goes -/

def SoleFounder (acl : AccessList) (mc : MyChanRef) (mu : MyUserRef) : Prop :=
  (test (levelAt acl (mc, .entity (.user mu))) caFounder && mychanNumFounders acl mc = 1) = true

def chosenSuccessor (cfg : ChanConfig) (w : World) (mu : MyUserRef) (mc : MyChanRef) :
    ChanDb → List MyChanRef → Option MyUserRef
  | _, [] => none
  | db, mc₁ :: l =>
    if mc = mc₁ then mychanPickSuccessor cfg w db mc
    else chosenSuccessor cfg w mu mc (ChanServ.dropEntry cfg w mu db mc₁) l

section drop
variable {cfg : ChanConfig} {w : World} {db db' : ChanDb} {mc mc₁ : MyChanRef}
  {mu successor : MyUserRef} {k : MyChanRef × Target}

theorem find_changeSimple_other {t : Target} {c : Change} {setter : Option Entity}
    (hk : k ≠ openKey db.acl mc t) :
    (ChanServ.chanacsChangeSimple cfg w db mc t c setter).find k = db.acl.find k := by
  rw [ChanServ.chanacsChangeSimple, ChanServ.chanacsChange]
  split
  · split_ifs
    · rfl
    · rfl
    · rw [Registry.find_insertNew, if_neg (Ne.symm hk), Option.or_none]
  · dsimp only
    split_ifs
    · rw [find_chanacsClose, if_neg fun hc => hk hc.1, Registry.find_set, if_neg hk]
    · rfl

theorem find_succeed (hk : k ≠ (mc, .entity (.user successor))) :
    (ChanServ.succeed cfg w mc successor db).acl.find k = db.acl.find k := by
  have hstep : ∀ (db : ChanDb) c, (changeSimple cfg w mc successor c db).acl.find k = db.acl.find k :=
    fun db c => find_changeSimple_other hk
  rw [ChanServ.succeed]
  cases cfg.flagConfig.successorFlag with
  | none => exact (hstep _ _).trans (hstep _ _)
  | some flag => exact (hstep _ _).trans ((hstep _ _).trans (hstep _ _))

theorem dropEntry_other (hmc : mc ≠ mc₁) :
    (∀ t, (ChanServ.dropEntry cfg w mu db mc₁).acl.find (mc, t) = db.acl.find (mc, t)) ∧
      (ChanServ.dropEntry cfg w mu db mc₁).chans.find mc = db.chans.find mc := by
  have herase : ∀ db₁ : ChanDb, ∀ t, (eraseEntry (mc₁, .entity (.user mu)) db₁).acl.find (mc, t) =
      db₁.acl.find (mc, t) := by
    intro db₁ t
    rw [eraseEntry, Registry.find_erase, if_neg fun heq => hmc (congrArg Prod.fst heq)]
  rw [ChanServ.dropEntry]
  split_ifs
  · split
    · refine ⟨fun t => ?_, ?_⟩
      · rw [herase, find_succeed fun heq => hmc (congrArg Prod.fst heq)]
      · show (ChanServ.succeed cfg w mc₁ _ db).chans.find mc = _
        rw [succeed_chans]
    · refine ⟨fun t => ?_, ?_⟩
      · rw [find_mychanDelete, if_neg hmc]
      · rw [ChanServ.mychanDelete, Registry.find_erase, if_neg hmc]
  · exact ⟨herase db, rfl⟩

theorem soleFounder_congr (h : ∀ t, db'.acl.find (mc, t) = db.acl.find (mc, t)) :
    SoleFounder db'.acl mc mu ↔ SoleFounder db.acl mc mu := by
  have hlevel : ∀ t, levelAt db'.acl (mc, t) = levelAt db.acl (mc, t) := by
    intro t
    rw [levelAt, h, levelAt]
  have hfounders : founders db'.acl mc = founders db.acl mc := by
    ext mt
    rw [mem_founders, mem_founders, hlevel]
  rw [SoleFounder, hlevel, mychanNumFounders_eq_card, hfounders, ← mychanNumFounders_eq_card,
    SoleFounder]

theorem dropEntry_kept (hnot : ¬ SoleFounder db.acl mc mu) (hk : k.2 ≠ .entity (.user mu)) :
    (ChanServ.dropEntry cfg w mu db mc).acl.find k = db.acl.find k := by
  rw [SoleFounder] at hnot
  rw [ChanServ.dropEntry, if_neg hnot, eraseEntry, Registry.find_erase,
    if_neg fun heq => hk (congrArg Prod.snd heq)]

theorem dropEntry_known (h : LevelsKnown cfg db.acl) :
    LevelsKnown cfg (ChanServ.dropEntry cfg w mu db mc).acl := by
  have herase : ∀ db₁ : ChanDb, ∀ k, LevelsKnown cfg db₁.acl → LevelsKnown cfg (eraseEntry k db₁).acl :=
    fun db₁ k hk => (@grows_eraseEntry cfg (fun _ => False) k db₁).known hk
  rw [ChanServ.dropEntry]
  split_ifs
  · split
    · exact herase _ _ (succeed_founders h).1
    · exact (@grows_mychanDelete cfg (fun _ => False) db mc).known h
  · exact herase _ _ h

theorem dropEntry_sole (h : LevelsKnown cfg db.acl) (hsole : SoleFounder db.acl mc mu) :
    match mychanPickSuccessor cfg w db mc with
    | some successor =>
      Has (levelAt (ChanServ.dropEntry cfg w mu db mc).acl (mc, .entity (.user successor))) 13
    | none => (ChanServ.dropEntry cfg w mu db mc).chans.find mc = none ∧
        ∀ t, (ChanServ.dropEntry cfg w mu db mc).acl.find (mc, t) = none := by
  have hdrop : ChanServ.dropEntry cfg w mu db mc = match mychanPickSuccessor cfg w db mc with
      | some successor =>
        eraseEntry (mc, .entity (.user mu)) (ChanServ.succeed cfg w mc successor db)
      | none => ChanServ.mychanDelete mc db := by
    rw [ChanServ.dropEntry]
    exact if_pos hsole
  cases hpick : mychanPickSuccessor cfg w db mc with
  | some successor =>
    rw [hpick] at hdrop
    have hne : (mc, Target.entity (.user successor)) ≠ (mc, .entity (.user mu)) := by
      intro heq
      rw [SoleFounder, Bool.and_eq_true, test_caFounder, ← heq] at hsole
      exact mychanPickSuccessor_spec hpick hsole.1
    have hlevel := (@succeed_founders cfg w db mc successor h).2.1
    rw [levelAt] at hlevel
    dsimp only at hdrop ⊢
    rw [hdrop, levelAt, eraseEntry, Registry.find_erase, if_neg hne]
    exact hlevel
  | none =>
    rw [hpick] at hdrop
    dsimp only at hdrop ⊢
    rw [hdrop]
    refine ⟨?_, fun t => ?_⟩
    · rw [ChanServ.mychanDelete, Registry.find_erase, if_pos rfl]
    · rw [find_mychanDelete, if_pos rfl]

theorem dropEntry_find (hsome : ((ChanServ.dropEntry cfg w mu db mc).acl.find k).isSome) :
    (db.acl.find k).isSome := by
  have herase : ∀ db₁ : ChanDb, ∀ k', ((eraseEntry k' db₁).acl.find k).isSome →
      (db₁.acl.find k).isSome := by
    intro db₁ k' hk
    rw [eraseEntry, Registry.find_erase] at hk
    split_ifs at hk
    · cases hk
    · exact hk
  rw [ChanServ.dropEntry] at hsome
  split_ifs at hsome
  · split at hsome
    · rename_i successor hpick
      replace hsome := herase _ _ hsome
      by_cases hk : k = (mc, .entity (.user successor))
      · obtain ⟨ca, hca, -⟩ := mychanPickSuccessor_entry hpick
        rw [hk, hca]
        rfl
      · rwa [find_succeed hk] at hsome
    · rw [find_mychanDelete] at hsome
      split_ifs at hsome
      · cases hsome
      · exact hsome
  · exact herase _ _ hsome

theorem dropEntries_other (l : List MyChanRef) (db : ChanDb) (hmc : mc ∉ l) :
    (∀ t, (l.foldl (ChanServ.dropEntry cfg w mu) db).acl.find (mc, t) = db.acl.find (mc, t)) ∧
      (l.foldl (ChanServ.dropEntry cfg w mu) db).chans.find mc = db.chans.find mc := by
  induction l generalizing db with
  | nil => exact ⟨fun _ => rfl, rfl⟩
  | cons mc₁ l ih =>
    rw [List.mem_cons, not_or] at hmc
    obtain ⟨hfind, hchan⟩ := @dropEntry_other cfg w db mc mc₁ mu hmc.1
    obtain ⟨hfind', hchan'⟩ := ih (ChanServ.dropEntry cfg w mu db mc₁) hmc.2
    exact ⟨fun t => (hfind' t).trans (hfind t), hchan'.trans hchan⟩

theorem dropEntries_sole (l : List MyChanRef) (db : ChanDb) (hnodup : l.Nodup) (hmem : mc ∈ l)
    (h : LevelsKnown cfg db.acl) (hsole : SoleFounder db.acl mc mu) :
    match chosenSuccessor cfg w mu mc db l with
    | some successor =>
      Has (levelAt (l.foldl (ChanServ.dropEntry cfg w mu) db).acl (mc, .entity (.user successor))) 13
    | none => (l.foldl (ChanServ.dropEntry cfg w mu) db).chans.find mc = none ∧
        ∀ t, (l.foldl (ChanServ.dropEntry cfg w mu) db).acl.find (mc, t) = none := by
  induction l generalizing db with
  | nil => cases hmem
  | cons mc₁ l ih =>
    obtain ⟨hnot, hnodup'⟩ := List.nodup_cons.mp hnodup
    rw [chosenSuccessor, List.foldl_cons]
    split_ifs with hmc
    · subst hmc
      have hdrop := @dropEntry_sole cfg w db mc mu h hsole
      obtain ⟨hfind, hchan⟩ := @dropEntries_other cfg w mc mu l (ChanServ.dropEntry cfg w mu db mc)
        hnot
      cases hpick : mychanPickSuccessor cfg w db mc with
      | some successor =>
        rw [hpick] at hdrop
        dsimp only at hdrop ⊢
        rw [levelAt] at hdrop
        rw [levelAt, hfind]
        exact hdrop
      | none =>
        rw [hpick] at hdrop
        exact ⟨hchan.trans hdrop.1, fun t => (hfind t).trans (hdrop.2 t)⟩
    · obtain hmem' | hmem' := List.mem_cons.mp hmem
      · exact absurd hmem' hmc
      · have hother := @dropEntry_other cfg w db mc mc₁ mu hmc
        exact ih _ hnodup' hmem' (dropEntry_known h) ((soleFounder_congr hother.1).mpr hsole)

theorem dropEntries_kept (l : List MyChanRef) (db : ChanDb) (hnodup : l.Nodup)
    (hnot : ¬ SoleFounder db.acl k.1 mu) (hk : k.2 ≠ .entity (.user mu)) :
    (l.foldl (ChanServ.dropEntry cfg w mu) db).acl.find k = db.acl.find k := by
  induction l generalizing db with
  | nil => rfl
  | cons mc₁ l ih =>
    obtain ⟨hnotmem, hnodup'⟩ := List.nodup_cons.mp hnodup
    rw [List.foldl_cons]
    by_cases hmc : k.1 = mc₁
    · subst hmc
      have hrest := (@dropEntries_other cfg w k.1 mu l (ChanServ.dropEntry cfg w mu db k.1)
        hnotmem).1 k.2
      exact hrest.trans (dropEntry_kept hnot hk)
    · have hother := @dropEntry_other cfg w db k.1 mc₁ mu hmc
      rw [ih _ hnodup' (by rwa [soleFounder_congr hother.1])]
      exact hother.1 k.2

theorem grows_dropEntries (l : List MyChanRef) (db : ChanDb) (h : LevelsKnown cfg db.acl) :
    AclGrows cfg db.acl (l.foldl (ChanServ.dropEntry cfg w mu) db).acl (fun _ => False) := by
  induction l generalizing db with
  | nil => exact .refl
  | cons mc₁ l ih =>
    have hfirst : AclGrows cfg db.acl (ChanServ.dropEntry cfg w mu db mc₁).acl (fun _ => False) :=
      ⟨fun _ => dropEntry_known h, fun mc mt hsome => .inl ⟨mc, dropEntry_find hsome⟩⟩
    exact hfirst.trans (ih _ (dropEntry_known h))

end drop

end ChatServices.ChanServ.Tables
