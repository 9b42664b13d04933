import Mathlib.Data.Finset.Card
import ChatServices.Lib.MaskUpdate
import ChatServices.ChanServ.CmdFlags
import ChatServices.ChanServ.CmdAccess

/-! The access list as a map from targets to rights. Opening an entry changes no query,
and a command that works on one entry is one restricted update of the map, or none. -/
namespace ChatServices.ChanServ
open ChatServices.Lib ChatServices.Lib.Mask ChatServices.Lib.MaskUpdate ChatServices.Lib.Rights
open ChatServices.Text

/-! ### The list of a channel -/

theorem mem_chanacsOf (acl : AccessList) (mc : MyChanRef) (t : Target) (ca : Chanacs) :
    (t, ca) ∈ chanacsOf acl mc ↔ acl.find (mc, t) = some ca := by
  rw [Registry.find_eq_some_iff]
  simp only [chanacsOf, List.mem_map, List.mem_filter, decide_eq_true_eq, Prod.mk.injEq]
  constructor
  · rintro ⟨⟨⟨mc', t'⟩, ca'⟩, ⟨hm, rfl⟩, rfl, rfl⟩
    exact hm
  · exact fun h => ⟨_, ⟨h, rfl⟩, rfl, rfl⟩

theorem find_of_findHostEntry {acl : AccessList} {mc : MyChanRef} {p : CString → Bool}
    {level : Flags} {mask : CString} {ca : Chanacs}
    (h : findHostEntry acl mc p level = some (mask, ca)) : acl.find (mc, .host mask) = some ca := by
  obtain ⟨⟨t, ca'⟩, hmem, he⟩ := List.exists_of_findSome?_eq_some h
  cases t with
  | entity mt => cases he
  | host mask' =>
    simp only [Option.ite_none_right_eq_some, Option.some.injEq, Prod.mk.injEq] at he
    obtain ⟨-, rfl, rfl⟩ := he
    exact (mem_chanacsOf acl mc _ _).mp hmem

theorem chanacsOf_nodup (acl : AccessList) (mc : MyChanRef) :
    ((chanacsOf acl mc).map Prod.fst).Nodup := by
  have hsub : ((acl.entries.filter (fun e => e.1.1 = mc)).map Prod.fst).Nodup :=
    acl.nodup.sublist (List.filter_sublist.map _)
  rw [chanacsOf, List.map_map]
  rw [List.nodup_map_iff_inj_on (List.Nodup.of_map _ hsub)]
  intro x hx y hy hxy
  have hx1 := (List.mem_filter.mp hx).2
  have hy1 := (List.mem_filter.mp hy).2
  simp only [decide_eq_true_eq] at hx1 hy1
  have hkey : x.1 = y.1 := Prod.ext (hx1.trans hy1.symm) hxy
  exact List.inj_on_of_nodup_map hsub hx hy hkey

theorem chanacsOf_insertNew (acl : AccessList) (k : MyChanRef × Target) (fresh : Chanacs)
    (mc : MyChanRef) :
    chanacsOf (acl.insertNew k fresh) mc = chanacsOf acl mc ∨
      chanacsOf (acl.insertNew k fresh) mc = chanacsOf acl mc ++ [(k.2, fresh)] := by
  unfold Registry.insertNew
  split
  · exact .inl rfl
  · by_cases hk : k.1 = mc
    · exact .inr (by simp [chanacsOf, hk])
    · exact .inl (by simp [chanacsOf, hk])

/-! ### An opened entry without flags -/

section opened
variable {cfg : ChanConfig} {w : World} {db : ChanDb} {k : MyChanRef × Target} {fresh : Chanacs}

def openDb (db : ChanDb) (k : MyChanRef × Target) (fresh : Chanacs) : ChanDb :=
  { db with acl := db.acl.insertNew k fresh }

theorem collectLevels_append (p : Target → Bool) (result : Flags) (es : List (Target × Chanacs))
    (t : Target) {ca : Chanacs} (h : ca.level = 0#32) :
    collectLevels p result (es ++ [(t, ca)]) = collectLevels p result es := by
  apply ext
  intro i
  rw [has_collectLevels, has_collectLevels]
  simp [or_and_right, exists_or, h]

theorem collectLevels_open (h : fresh.level = 0#32) (p : Target → Bool) (mc : MyChanRef) :
    collectLevels p 0#32 (chanacsOf (openDb db k fresh).acl mc) =
      collectLevels p 0#32 (chanacsOf db.acl mc) := by
  rcases chanacsOf_insertNew db.acl k fresh mc with he | he
  · rw [openDb, he]
  · rw [openDb, he, collectLevels_append p _ _ _ h]

theorem chanacsSourceFlags_open (h : fresh.level = 0#32) (mc : MyChanRef) (si : Source) :
    chanacsSourceFlags cfg w (openDb db k fresh) mc si = chanacsSourceFlags cfg w db mc si := by
  have he : ∀ mt, chanacsEntityFlags (openDb db k fresh) mc mt = chanacsEntityFlags db mc mt :=
    fun mt => collectLevels_open h (appliesToEntity db mt) mc
  have ha : ∀ mu, accountFlags (openDb db k fresh) mc mu = accountFlags db mc mu := by
    intro mu
    cases mu with
    | none => rfl
    | some mu => exact he (.user mu)
  cases si with
  | irc u =>
    have hu : chanacsEntityFlagsByUser w (openDb db k fresh) mc u =
        chanacsEntityFlagsByUser w db mc u := collectLevels_open h _ mc
    have hh : chanacsHostFlagsByUser w (openDb db k fresh) mc u =
        chanacsHostFlagsByUser w db mc u := collectLevels_open h _ mc
    simp only [chanacsSourceFlags, chanacsUserFlags, ha, hu, hh]
    rfl
  | other smu => exact ha smu

theorem mychanNumFounders_open (h : fresh.level = 0#32) (mc : MyChanRef) :
    mychanNumFounders (openDb db k fresh).acl mc = mychanNumFounders db.acl mc := by
  rcases chanacsOf_insertNew db.acl k fresh mc with he | he
  · rw [mychanNumFounders, openDb, he, mychanNumFounders]
  · rw [mychanNumFounders, openDb, he, mychanNumFounders]
    cases hk : k.2 <;> simp [h]

theorem myentityCanRegisterChannel_open (h : fresh.level = 0#32) (mt : Entity) :
    myentityCanRegisterChannel cfg w (openDb db k fresh) mt =
      myentityCanRegisterChannel cfg w db mt := by
  have hc : countChannelsWithFlagset (openDb db k fresh).acl mt caFounder =
      countChannelsWithFlagset db.acl mt caFounder := by
    simp only [countChannelsWithFlagset, openDb, Registry.insertNew]
    split
    · rfl
    · simp [h]
  simp only [myentityCanRegisterChannel, hc]
  rfl

end opened

/-! ### Commands on one entry -/

def commandTarget (cfg : ChanConfig) (w : World) (db : ChanDb) (target : CString) : Option Target :=
  if validhostmask target then some (.host target)
  else (myentityFindExt cfg w db target).map Target.entity

section target
variable {cfg : ChanConfig} {w : World} {db : ChanDb} {target mask : CString} {mt : Entity}

theorem commandTarget_host (h : commandTarget cfg w db target = some (.host mask)) :
    validhostmask target = true ∧ mask = target := by
  rw [commandTarget] at h
  split_ifs at h with hv
  · cases h
    exact ⟨hv, rfl⟩
  · cases hm : myentityFindExt cfg w db target <;> rw [hm] at h <;> cases h

theorem commandTarget_entity (h : commandTarget cfg w db target = some (.entity mt)) :
    ¬ validhostmask target = true ∧ myentityFindExt cfg w db target = some mt := by
  rw [commandTarget] at h
  split_ifs at h with hv
  · cases h
  · rw [Option.map_eq_some_iff] at h
    obtain ⟨e, he, heq⟩ := h
    cases heq
    exact ⟨hv, he⟩

end target

theorem openKey_fst (acl : AccessList) (mc : MyChanRef) (t : Target) :
    (openKey acl mc t).1 = mc := by
  cases t <;> rfl

/-- How the body of a command may end: it leaves the entry as it is, or it puts it
through `chanacs_modify` with a change and a bound that `P` describes. -/
inductive BodyEnd (w : World) (db : ChanDb) (si : Source) (ca : Chanacs)
    (P : Change → Flags → Prop) : EntryEnd EntryResult → Prop
  | leave (reply : Reply) : BodyEnd w db si ca P (.leave (.stopped reply))
  | stay (reply : Reply) : BodyEnd w db si ca P (.close ca (.stopped reply))
  | change (c : Change) (restrict : Flags) (hP : P c restrict)
      (hok : (chanacsModify w db ca c restrict (si.entity db)).ok = true) :
      BodyEnd w db si ca P (.close (chanacsModify w db ca c restrict (si.entity db)).ca
        (.changed ca.level (chanacsModify w db ca c restrict (si.entity db))))

def RightsStep (P : Change → Flags → Prop) (k : MyChanRef × Target) (acl acl' : AccessList) : Prop :=
  levelAt acl' = levelAt acl ∨
    ∃ c restrict, P c restrict ∧ Update (levelAt acl) (levelAt acl') k c.add c.rem restrict

section edit
variable {w : World} {db db' : ChanDb} {si : Source} {mc : MyChanRef} {t : Target}
  {body : ChanDb → Chanacs → EntryEnd EntryResult}
  {finish : Flags → Modified → Option (List Reply)} {replies : List Reply}

def bodyDb (w : World) (db : ChanDb) (si : Source) (mc : MyChanRef) (t : Target) : ChanDb :=
  openDb db (openKey db.acl mc t) (newEntry w db (si.entity db))

def bodyEntry (w : World) (db : ChanDb) (si : Source) (mc : MyChanRef) (t : Target) : Chanacs :=
  openedEntry db.acl (openKey db.acl mc t) (newEntry w db (si.entity db))

theorem bodyEntry_level : (bodyEntry w db si mc t).level = levelAt db.acl (openKey db.acl mc t) :=
  openedEntry_level rfl

/-- The state once the opened entry is closed as `ca`. -/
def closedDb (w : World) (db : ChanDb) (si : Source) (mc : MyChanRef) (t : Target)
    (ca : Chanacs) : ChanDb :=
  let k := openKey db.acl mc t
  { db with acl := chanacsClose k ((bodyDb w db si mc t).acl.set k ca) }

theorem editEntry_cases (h : editEntry w db si mc t body finish = .done db' replies) :
    (∃ reply, body (bodyDb w db si mc t) (bodyEntry w db si mc t) = .leave (.stopped reply) ∧
      db' = bodyDb w db si mc t ∧ replies = [reply]) ∨
    (∃ old m, body (bodyDb w db si mc t) (bodyEntry w db si mc t) = .leave (.changed old m)) ∨
    ∃ ca r, body (bodyDb w db si mc t) (bodyEntry w db si mc t) = .close ca r ∧
      db' = closedDb w db si mc t ca ∧
      ((∃ reply, r = .stopped reply ∧ replies = [reply]) ∨
        ∃ old m, r = .changed old m ∧ finish old m = some replies) := by
  unfold editEntry at h
  cases hb : body (bodyDb w db si mc t) (bodyEntry w db si mc t) with
  | leave r =>
    rw [withEntry_leave hb] at h
    cases r with
    | stopped reply => cases h; exact .inl ⟨reply, rfl, rfl, rfl⟩
    | changed old m => exact .inr (.inl ⟨old, m, rfl⟩)
  | close ca r =>
    rw [withEntry_close hb] at h
    refine .inr (.inr ⟨ca, r, rfl, ?_⟩)
    cases r with
    | stopped reply => cases h; exact ⟨rfl, .inl ⟨reply, rfl, rfl⟩⟩
    | changed old m =>
      simp only at h
      cases hf : finish old m with
      | none => rw [hf] at h; cases h
      | some replies' => rw [hf] at h; cases h; exact ⟨rfl, .inr ⟨old, m, rfl, hf⟩⟩

def bodyModify (w : World) (db : ChanDb) (si : Source) (mc : MyChanRef) (t : Target)
    (c : Change) (restrict : Flags) : Modified :=
  chanacsModify w (bodyDb w db si mc t) (bodyEntry w db si mc t) c restrict (si.entity db)

theorem bodyModify_ok {c : Change} {restrict : Flags}
    (h : Permits restrict (levelAt db.acl (openKey db.acl mc t)) c.add c.rem) :
    (bodyModify w db si mc t c restrict).ok = true := by
  rw [bodyModify, chanacsModify_ok_iff, bodyEntry_level]
  exact .inr h

theorem editEntry_rights {P : Change → Flags → Prop}
    (hbody : BodyEnd w (bodyDb w db si mc t) si (bodyEntry w db si mc t) P
      (body (bodyDb w db si mc t) (bodyEntry w db si mc t)))
    (h : editEntry w db si mc t body finish = .done db' replies) :
    db' = { db with acl := db'.acl } ∧
      RightsStep (fun c restrict => P c restrict ∧ finish (levelAt db.acl (openKey db.acl mc t))
        (bodyModify w db si mc t c restrict) = some replies)
        (openKey db.acl mc t) db.acl db'.acl := by
  have hfresh : (newEntry w db (si.entity db)).level = 0#32 := rfl
  have hclosed : ∀ ca k', levelAt (closedDb w db si mc t ca).acl k' =
      if k' = openKey db.acl mc t then ca.level else levelAt db.acl k' :=
    fun ca k' => levelAt_closed hfresh ca k'
  rcases editEntry_cases h with ⟨reply, hb, rfl, -⟩ | ⟨old, m, hb⟩ | ⟨ca, r, hb, rfl, hr⟩
  · exact ⟨rfl, .inl (funext (levelAt_insertNew hfresh))⟩
  · rw [hb] at hbody
    cases hbody
  · refine ⟨rfl, ?_⟩
    rw [hb] at hbody
    have hlevel : (bodyEntry w db si mc t).level = levelAt db.acl (openKey db.acl mc t) :=
      bodyEntry_level
    cases hbody with
    | stay reply =>
      refine .inl (funext fun k' => (hclosed _ k').trans ?_)
      by_cases hk : k' = openKey db.acl mc t
      · rw [if_pos hk, hk, hlevel]
      · rw [if_neg hk]
    | change c restrict hP hok =>
      have hres := chanacsModify_level hok
      rw [hlevel] at hres
      rcases chanacsModify_ok_iff.mp hok with hsame | hperm
      · rw [hlevel] at hsame
        refine .inl (funext fun k' => (hclosed _ k').trans ?_)
        by_cases hk : k' = openKey db.acl mc t
        · rw [if_pos hk, hk, hres, hsame]
        · rw [if_neg hk]
      · rw [hlevel] at hperm
        have hfin : finish (levelAt db.acl (openKey db.acl mc t))
            (bodyModify w db si mc t c restrict) = some replies := by
          rcases hr with ⟨reply, hr, -⟩ | ⟨old, m, hr, hf⟩
          · cases hr
          · cases hr
            rw [← hlevel]
            exact hf
        refine .inr ⟨c, restrict, ⟨hP, hfin⟩, hperm, funext fun k' => (hclosed _ k').trans ?_⟩
        by_cases hk : k' = openKey db.acl mc t
        · subst hk
          rw [if_pos rfl, hres, Function.update_self]
        · rw [if_neg hk, Function.update_of_ne hk]

theorem editEntry_update {c : Change} {restrict : Flags}
    (finish : Flags → Modified → Option (List Reply))
    (hb : body (bodyDb w db si mc t) (bodyEntry w db si mc t) =
      .close (bodyModify w db si mc t c restrict).ca
        (.changed (bodyEntry w db si mc t).level (bodyModify w db si mc t c restrict)))
    (hperm : Permits restrict (levelAt db.acl (openKey db.acl mc t)) c.add c.rem)
    (hfin : finish (bodyEntry w db si mc t).level (bodyModify w db si mc t c restrict) =
      some replies) :
    ∃ db', editEntry w db si mc t body finish = .done db' replies ∧
      Update (levelAt db.acl) (levelAt db'.acl) (openKey db.acl mc t) c.add c.rem restrict := by
  refine ⟨closedDb w db si mc t (bodyModify w db si mc t c restrict).ca, ?_, hperm, ?_⟩
  · unfold editEntry
    rw [withEntry_close hb]
    simp only [hfin]
    rfl
  · have hok : (bodyModify w db si mc t c restrict).ok = true := bodyModify_ok hperm
    have hres := chanacsModify_level hok
    rw [bodyEntry_level] at hres
    funext k'
    refine (levelAt_closed rfl _ k').trans ?_
    by_cases hk : k' = openKey db.acl mc t
    · subst hk
      rw [if_pos rfl, Function.update_self]
      exact hres
    · rw [if_neg hk, Function.update_of_ne hk]

end edit

/-! ### Founders -/

/-- The entities with `CA_FOUNDER` on a channel. -/
def founders (acl : AccessList) (mc : MyChanRef) : Finset Entity :=
  ((chanacsOf acl mc).filterMap fun e =>
    match e.1 with
    | .entity mt => if test e.2.level caFounder then some mt else none
    | .host _ => none).toFinset

theorem mem_founders (acl : AccessList) (mc : MyChanRef) (mt : Entity) :
    mt ∈ founders acl mc ↔ Has (levelAt acl (mc, .entity mt)) 13 := by
  simp only [founders, List.mem_toFinset, List.mem_filterMap]
  constructor
  · rintro ⟨⟨t, ca⟩, hm, he⟩
    cases t with
    | host mask => cases he
    | entity e =>
      simp only [Option.ite_none_right_eq_some, Option.some.injEq] at he
      obtain ⟨ht, rfl⟩ := he
      rw [levelAt_of_find ((mem_chanacsOf acl mc _ _).mp hm)]
      exact (test_caFounder _).mp ht
  · intro h
    cases hf : acl.find (mc, .entity mt) with
    | none => simp [levelAt, hf] at h
    | some ca =>
      rw [levelAt_of_find hf] at h
      exact ⟨(.entity mt, ca), (mem_chanacsOf acl mc _ _).mpr hf, by
        simp [(test_caFounder _).mpr h]⟩

theorem mychanNumFounders_eq_card (acl : AccessList) (mc : MyChanRef) :
    mychanNumFounders acl mc = (founders acl mc).card := by
  rw [founders, List.toFinset_card_of_nodup]
  · rw [mychanNumFounders]
    generalize chanacsOf acl mc = l
    induction l with
    | nil => rfl
    | cons e l ih =>
      obtain ⟨t, ca⟩ := e
      cases t with
      | host mask => simpa using ih
      | entity mt => by_cases ht : test ca.level caFounder = true <;> simp [ht, ih]
  · have hn := chanacsOf_nodup acl mc
    generalize chanacsOf acl mc = l at hn
    induction l with
    | nil => exact List.nodup_nil
    | cons e l ih =>
      obtain ⟨t, ca⟩ := e
      rw [List.map_cons, List.nodup_cons] at hn
      have hl := ih hn.2
      cases t with
      | host mask => simpa using hl
      | entity mt =>
        by_cases ht : test ca.level caFounder = true
        · have hnot : ∀ x ∈ l, x.1 ≠ Target.entity mt := fun x hx he =>
            hn.1 (List.mem_map.mpr ⟨x, hx, he⟩)
          rw [List.filterMap_cons]
          simp only [ht, if_true, List.nodup_cons]
          refine ⟨?_, hl⟩
          intro hmem
          obtain ⟨⟨t', ca'⟩, hx, he⟩ := List.mem_filterMap.mp hmem
          cases t' with
          | host mask => cases he
          | entity e =>
            simp only [Option.ite_none_right_eq_some, Option.some.injEq] at he
            exact hnot _ hx (congrArg Target.entity he.2)
        · simpa [ht] using hl

end ChatServices.ChanServ
