import ChatServices.ChanServ.Command
import ChatServices.ChanServ.Rights

/-! `CLONE <#source> <#target>`: the access list, the metadata and the flags of one
channel copied over another. -/
namespace ChatServices.ChanServ
open ChatServices.Lib ChatServices.Lib.Mask ChatServices.Text

/-- The first loop: every entry of the target goes, unless it has `CA_FOUNDER`. -/
def cloneClear (mc2 : MyChanRef) (acl : AccessList) : AccessList :=
  acl.update fun k ca => if k.1 = mc2 ∧ !test ca.level caFounder then none else some ca

def cloneEntry (cfg : ChanConfig) (w : World) (mc2 : MyChanRef) (db : ChanDb)
    (e : Target × Chanacs) : ChanDb :=
  let setter := if e.2.setterUid = [] then none else myentityFindUid db e.2.setterUid
  { db with acl := chanacsChangeSimple cfg w db mc2 e.1 ⟨e.2.level, 0#32⟩ setter }

def cloneMetadata (md2 : Metadata) : Metadata → Metadata
  | [] => md2
  | (name, value) :: md =>
    if "private:topic:".toList.isPrefixOf name then cloneMetadata md2 md
    else if strcaseEq name "private:antiflood:enforce-method".toList &&
        strcaseEq value "AKILL".toList then
      cloneMetadata (metadataAdd md2 name "QUIET".toList) md
    else cloneMetadata (metadataAdd md2 name value) md

def cloneChan (chan chan2 : MyChan) : MyChan :=
  { chan2 with
    metadata := cloneMetadata chan2.metadata chan.metadata
    flags := chan.flags &&& ~~~mcHold }

structure CloneRequest where
  mc : MyChanRef
  chan : MyChan
  mc2 : MyChanRef
  chan2 : MyChan

def clonePlan (cfg : ChanConfig) (w : World) (db : ChanDb) (si : Source) (parv : List CString) :
    Except (List Reply) CloneRequest :=
  match parv with
  | source :: target :: _ =>
    match mychanFind cfg db source, mychanFind cfg db target with
    | none, _ => .error [.fail .nosuchTarget notRegistered [source]]
    | some _, none => .error [.fail .nosuchTarget notRegistered [target]]
    | some (mc, chan), some (mc2, chan2) =>
      if mc = mc2 then .error [.fail .nochange "Cannot clone a channel to itself." []]
      else if chan.closed then .error [.fail .noprivs "\x02%s\x02 is closed." [source]]
      else if chan2.closed then .error [.fail .noprivs "\x02%s\x02 is closed." [target]]
      else if !chan.chan then
        .error [.fail .nosuchTarget "\x02%s\x02 does not exist." [source]]
      else if !chan2.chan then
        .error [.fail .nosuchTarget "\x02%s\x02 does not exist." [target]]
      else if !test chan.flags mcPubacl && !chanacsSourceHasFlag cfg w db mc si caAclview then
        .error [.fail .noprivs notAuthorizedOperation []]
      else if !chanacsSourceHasFlag cfg w db mc2 si caFounder then
        .error [.fail .noprivs notAuthorizedOperation []]
      else .ok ⟨mc, chan, mc2, chan2⟩
  | _ => .error [.fail .needmoreparams insufficientParams ["CLONE".toList],
      .fail .needmoreparams "Syntax: CLONE <#source> <#target>" []]

def cloneAcl (cfg : ChanConfig) (w : World) (db : ChanDb) (mc mc2 : MyChanRef) : ChanDb :=
  (chanacsOf db.acl mc).foldl (cloneEntry cfg w mc2) { db with acl := cloneClear mc2 db.acl }

def csCmdClone (cfg : ChanConfig) (w : World) (db : ChanDb) (si : Source) (parv : List CString) :
    Outcome :=
  match clonePlan cfg w db si parv with
  | .error replies => .done db replies
  | .ok req =>
    let db := cloneAcl cfg w db req.mc req.mc2
    .done { db with chans := db.chans.set req.mc2 (cloneChan req.chan req.chan2) }
      [.success "Cloned \x02%s\x02 to: \x02%s\x02" (parv.take 2)]

end ChatServices.ChanServ

/-! What `chanacs_change_simple` does to the rights, and CLONE by way of it: entries of the
target with `CA_FOUNDER` stay, and every flag that the target gains is a flag of the same
subject in the source. -/
namespace ChatServices.ChanServ
open ChatServices.Lib ChatServices.Lib.Mask ChatServices.Lib.MaskUpdate ChatServices.Lib.Rights
open ChatServices.Text

section change
variable {cfg : ChanConfig} {w : World} {db : ChanDb} {mc : MyChanRef} {t : Target}
  {setter : Option Entity} {c : Change}

/-- The rights once the entry that `t` opens has taken a change. -/
def changedLevels (cfg : ChanConfig) (db : ChanDb) (mc : MyChanRef) (t : Target) (c : Change) :
    MyChanRef × Target → Flags :=
  Function.update (levelAt db.acl) (openKey db.acl mc t)
    (result (levelAt db.acl (openKey db.acl mc t)) (c.mask cfg.caAll).add (c.mask cfg.caAll).rem)

theorem levelAt_insertNew_none {acl : AccessList} {k : MyChanRef × Target} {ca : Chanacs}
    (h : acl.find k = none) :
    levelAt (acl.insertNew k ca) = Function.update (levelAt acl) k ca.level := by
  funext k'
  rw [levelAt, Registry.find_insertNew]
  by_cases hk : k = k'
  · subst hk
    rw [h, Function.update_self, if_pos rfl]
    rfl
  · rw [if_neg hk, Option.or_none, Function.update_of_ne (Ne.symm hk), levelAt]

theorem levelAt_set {acl : AccessList} {k : MyChanRef × Target} {ca ca' : Chanacs}
    (h : acl.find k = some ca) :
    levelAt (acl.set k ca') = Function.update (levelAt acl) k ca'.level := by
  funext k'
  rw [levelAt, Registry.find_set]
  by_cases hk : k' = k
  · subst hk
    rw [if_pos rfl, h, Function.update_self]
    rfl
  · rw [if_neg hk, Function.update_of_ne hk, levelAt]

theorem changedLevels_eq_self
    (h : result (levelAt db.acl (openKey db.acl mc t)) (c.mask cfg.caAll).add
      (c.mask cfg.caAll).rem = levelAt db.acl (openKey db.acl mc t)) :
    changedLevels cfg db mc t c = levelAt db.acl := by
  rw [changedLevels, h, Function.update_eq_self]

theorem levelAt_chanacsChangeSimple :
    levelAt (chanacsChangeSimple cfg w db mc t c setter) = changedLevels cfg db mc t c ∨
      levelAt (chanacsChangeSimple cfg w db mc t c setter) = levelAt db.acl ∧
        ¬ Sub (levelAt db.acl (openKey db.acl mc t)) cfg.caAll := by
  have hadd : Sub (c.mask cfg.caAll).add cfg.caAll := (c.mask_sub cfg.caAll).1
  unfold chanacsChangeSimple chanacsChange
  dsimp only
  cases hf : db.acl.find (openKey db.acl mc t) with
  | none =>
    have hlevel : levelAt db.acl (openKey db.acl mc t) = 0#32 := by
      rw [levelAt, hf]
      rfl
    dsimp only
    split_ifs with h0 hbad
    · refine .inl (changedLevels_eq_self ?_).symm
      rw [hlevel, result_zero_level, h0]
    · rw [(test_not_eq_false_iff _ _).mpr hadd] at hbad
      cases hbad
    · refine .inl ?_
      have hmask : (c.mask cfg.caAll).add &&& cfg.caAll = (c.mask cfg.caAll).add := by
        rw [Change.mask, BitVec.and_assoc, BitVec.and_self]
      rw [levelAt_insertNew_none hf, changedLevels, hlevel, hmask, result_zero_level]
  | some ca =>
    have hlevel : levelAt db.acl (openKey db.acl mc t) = ca.level := levelAt_of_find hf
    dsimp only
    split_ifs with hm
    · refine .inl ?_
      have hnew := chanacsModify_level hm.1
      have hclose : levelAt (chanacsClose (openKey db.acl mc t) (db.acl.set (openKey db.acl mc t)
          (chanacsModify w db ca (c.mask cfg.caAll) cfg.caAll setter).ca)) =
          levelAt (db.acl.set (openKey db.acl mc t)
            (chanacsModify w db ca (c.mask cfg.caAll) cfg.caAll setter).ca) :=
        funext fun k' => levelAt_chanacsClose _ _ _
      rw [hclose, levelAt_set hf, changedLevels, hlevel, hnew]
    · by_cases hknown : Sub ca.level cfg.caAll
      · refine .inl (changedLevels_eq_self ?_).symm
        have hok : (chanacsModify w db ca (c.mask cfg.caAll) cfg.caAll setter).ok = true :=
          chanacsModify_ok_iff.mpr (.inr (permits_of_sub hknown hadd))
        rw [hlevel]
        refine (@chanacsModify_unchanged_iff w db ca _ cfg.caAll setter).mp ?_
        exact not_not.mp fun hne => hm ⟨hok, hne⟩
      · exact .inr ⟨rfl, hlevel.symm ▸ hknown⟩

theorem changeSimple_adds (hrem : c.rem = 0#32) (k : MyChanRef × Target) (i : Nat) :
    (Has (levelAt db.acl k) i → Has (levelAt (chanacsChangeSimple cfg w db mc t c setter) k) i) ∧
      (Has (levelAt (chanacsChangeSimple cfg w db mc t c setter) k) i →
        Has (levelAt db.acl k) i ∨ k = openKey db.acl mc t ∧ Has c.add i) := by
  obtain hnew | ⟨hsame, -⟩ := @levelAt_chanacsChangeSimple cfg w db mc t setter c
  · rw [hnew, changedLevels]
    by_cases hk : k = openKey db.acl mc t
    · subst hk
      rw [Function.update_self, has_result, Change.mask, hrem]
      simp only [has_and, has_zero, false_and, not_false_eq_true, and_true]
      constructor
      · exact .inl
      · rintro (h | ⟨-, h, -⟩)
        · exact .inl h
        · exact .inr ⟨trivial, h⟩
    · rw [Function.update_of_ne hk]
      exact ⟨id, .inl⟩
  · rw [hsame]
    exact ⟨id, .inl⟩

theorem changeSimple_keeps {k : MyChanRef × Target} {i : Nat} (hrem : ¬ Has c.rem i)
    (h : Has (levelAt db.acl k) i) : Has (levelAt (chanacsChangeSimple cfg w db mc t c setter) k) i := by
  obtain hnew | ⟨hsame, -⟩ := @levelAt_chanacsChangeSimple cfg w db mc t setter c
  · rw [hnew, changedLevels]
    by_cases hk : k = openKey db.acl mc t
    · subst hk
      rw [Function.update_self, has_result]
      exact .inl ⟨h, fun hr => hrem ((has_and _ _ i).mp hr).1⟩
    · rwa [Function.update_of_ne hk]
  · rwa [hsame]

theorem changeSimple_known {k : MyChanRef × Target} (h : Sub (levelAt db.acl k) cfg.caAll) :
    Sub (levelAt (chanacsChangeSimple cfg w db mc t c setter) k) cfg.caAll := by
  obtain hnew | ⟨hsame, -⟩ := @levelAt_chanacsChangeSimple cfg w db mc t setter c
  · rw [hnew, changedLevels]
    by_cases hk : k = openKey db.acl mc t
    · subst hk
      rw [Function.update_self]
      refine (sub_iff _ _).mpr fun i hi => ?_
      obtain ⟨hl, -⟩ | ⟨-, ha⟩ := (has_result _ _ _ i).mp hi
      · exact h.has hl
      · exact (c.mask_sub cfg.caAll).1.has ha
    · rwa [Function.update_of_ne hk]
  · rwa [hsame]

theorem changeSimple_gives (hrem : c.rem = 0#32) {i : Nat}
    (hknown : Sub (levelAt db.acl (openKey db.acl mc t)) cfg.caAll) (hadd : Has c.add i)
    (hall : Has cfg.caAll i) :
    Has (levelAt (chanacsChangeSimple cfg w db mc t c setter) (openKey db.acl mc t)) i := by
  obtain hnew | ⟨-, hunknown⟩ := @levelAt_chanacsChangeSimple cfg w db mc t setter c
  · rw [hnew, changedLevels, Function.update_self, has_result, Change.mask, hrem]
    simp [hadd, hall, Classical.em]
  · exact absurd hknown hunknown

theorem find_chanacsChangeSimple {k : MyChanRef × Target}
    (h : ((chanacsChangeSimple cfg w db mc t c setter).find k).isSome) :
    (db.acl.find k).isSome ∨ k = openKey db.acl mc t := by
  by_cases hk : k = openKey db.acl mc t
  · exact .inr hk
  left
  unfold chanacsChangeSimple chanacsChange at h
  dsimp only at h
  cases hf : db.acl.find (openKey db.acl mc t) with
  | none =>
    rw [hf] at h
    dsimp only at h
    split_ifs at h
    · exact h
    · exact h
    · rwa [Registry.find_insertNew, if_neg (Ne.symm hk), Option.or_none] at h
  | some ca =>
    rw [hf] at h
    dsimp only at h
    split_ifs at h
    · rw [find_chanacsClose, if_neg fun hc => hk hc.1, Registry.find_set, if_neg hk] at h
      exact h
    · exact h

end change

/-! ### CLONE -/

section clone
variable {cfg : ChanConfig} {w : World} {db : ChanDb} {mc mc2 : MyChanRef}

theorem levelAt_cloneClear (acl : AccessList) (k : MyChanRef × Target) :
    levelAt (cloneClear mc2 acl) k =
      if k.1 = mc2 ∧ ¬ Has (levelAt acl k) 13 then 0#32 else levelAt acl k := by
  rw [levelAt, cloneClear, Registry.find_update]
  cases hf : acl.find k with
  | none => simp [levelAt, hf]
  | some ca =>
    rw [levelAt_of_find hf, Option.bind_some]
    simp only [Bool.not_eq_true', test_caFounder_eq_false]
    split_ifs <;> rfl

def SameSubject : Target → Target → Prop
  | .entity e, .entity e' => e = e'
  | .host mask, .host mask' => strcaseEq mask mask' = true
  | _, _ => False

instance : ∀ t t' : Target, Decidable (SameSubject t t')
  | .entity e, .entity e' => inferInstanceAs (Decidable (e = e'))
  | .host mask, .host mask' => inferInstanceAs (Decidable (strcaseEq mask mask' = true))
  | .entity _, .host _ => inferInstanceAs (Decidable False)
  | .host _, .entity _ => inferInstanceAs (Decidable False)

theorem sameSubject_refl (t : Target) : SameSubject t t := by
  cases t with
  | entity mt => rfl
  | host mask => exact decide_eq_true rfl

theorem SameSubject.symm {t t' : Target} (h : SameSubject t t') : SameSubject t' t := by
  cases t <;> cases t' <;> simp_all [SameSubject, strcaseEq]

theorem SameSubject.of_common {t t' t'' : Target} (h : SameSubject t t'') (h' : SameSubject t t') :
    SameSubject t' t'' := by
  cases t <;> cases t' <;> cases t'' <;> simp_all [SameSubject, strcaseEq]

theorem sameSubject_openKey (acl : AccessList) (t : Target) :
    SameSubject (openKey acl mc t).2 t := by
  cases t with
  | entity mt => rfl
  | host mask =>
    cases hf : chanacsFindHostLiteral acl mc mask 0#32 with
    | none =>
      simp only [openKey, hf]
      exact sameSubject_refl (.host mask)
    | some found =>
      simp only [openKey, hf]
      obtain ⟨e, -, he⟩ := List.exists_of_findSome?_eq_some hf
      cases ht : e.1 with
      | entity mt => rw [ht] at he; cases he
      | host mask' =>
        rw [ht] at he
        simp only [Option.ite_none_right_eq_some, Option.some.injEq] at he
        obtain ⟨⟨hcase, -⟩, rfl⟩ := he
        exact hcase

theorem openKey_found {acl : AccessList} {t t' : Target} (h : (acl.find (mc, t')).isSome)
    (hs : SameSubject t' t) : (acl.find (openKey acl mc t)).isSome := by
  obtain ⟨ca, hca⟩ := Option.isSome_iff_exists.mp h
  cases t with
  | entity mt =>
    cases t' with
    | host mask => cases hs
    | entity e =>
      cases hs
      exact h
  | host mask =>
    cases t' with
    | entity e => cases hs
    | host mask' =>
      cases hf : chanacsFindHostLiteral acl mc mask 0#32 with
      | none =>
        have hnot := List.findSome?_eq_none_iff.mp hf (.host mask', ca)
          ((mem_chanacsOf acl mc _ _).mpr hca)
        simp only [ite_eq_right_iff, reduceCtorEq, imp_false, not_and] at hnot
        exact absurd ((sub_iff _ _).mpr fun i hi => absurd hi (has_zero i)) (hnot hs)
      | some found =>
        simp only [openKey, hf]
        obtain ⟨⟨t₁, ca₁⟩, he, hfound⟩ := List.exists_of_findSome?_eq_some hf
        cases t₁ with
        | entity e => cases hfound
        | host mask₁ =>
          simp only [Option.ite_none_right_eq_some, Option.some.injEq] at hfound
          obtain ⟨-, rfl⟩ := hfound
          simp [(mem_chanacsOf acl mc _ _).mp he]

theorem cloneEntries_adds (es : List (Target × Chanacs)) (db : ChanDb) (k : MyChanRef × Target)
    (i : Nat) :
    (Has (levelAt db.acl k) i → Has (levelAt (es.foldl (cloneEntry cfg w mc2) db).acl k) i) ∧
      (Has (levelAt (es.foldl (cloneEntry cfg w mc2) db).acl k) i → Has (levelAt db.acl k) i ∨
        k.1 = mc2 ∧ ∃ e ∈ es, SameSubject k.2 e.1 ∧ Has e.2.level i) := by
  induction es generalizing db with
  | nil => exact ⟨id, .inl⟩
  | cons e es ih =>
    rw [List.foldl_cons]
    obtain ⟨hkeep, hfrom⟩ := ih (cloneEntry cfg w mc2 db e)
    have hstep : (Has (levelAt db.acl k) i → Has (levelAt (cloneEntry cfg w mc2 db e).acl k) i) ∧
        (Has (levelAt (cloneEntry cfg w mc2 db e).acl k) i → Has (levelAt db.acl k) i ∨
          k = openKey db.acl mc2 e.1 ∧ Has e.2.level i) := changeSimple_adds rfl k i
    refine ⟨fun h => hkeep (hstep.1 h), fun h => ?_⟩
    obtain h | ⟨hk, e', he', hs, hl⟩ := hfrom h
    · obtain h | ⟨hk, hl⟩ := hstep.2 h
      · exact .inl h
      · subst hk
        exact .inr ⟨openKey_fst db.acl mc2 e.1, e, List.mem_cons_self ..,
          sameSubject_openKey db.acl e.1, hl⟩
    · exact .inr ⟨hk, e', List.mem_cons_of_mem e he', hs, hl⟩

theorem cloneEntries_gives {i : Nat} (hall : Has cfg.caAll i) (es : List (Target × Chanacs))
    (db : ChanDb)
    (hdb : ∀ k, k.1 = mc2 → Sub (levelAt db.acl k) cfg.caAll ∨ Has (levelAt db.acl k) i)
    {e : Target × Chanacs} (he : e ∈ es) (hi : Has e.2.level i) :
    ∃ t, SameSubject t e.1 ∧ Has (levelAt (es.foldl (cloneEntry cfg w mc2) db).acl (mc2, t)) i := by
  induction es generalizing db with
  | nil => cases he
  | cons e' es ih =>
    rw [List.foldl_cons]
    obtain rfl | he := List.mem_cons.mp he
    · have hs : SameSubject (openKey db.acl mc2 e.1).2 e.1 := sameSubject_openKey db.acl e.1
      refine ⟨_, hs, (cloneEntries_adds es _ _ i).1 ?_⟩
      have hk : (mc2, (openKey db.acl mc2 e.1).2) = openKey db.acl mc2 e.1 :=
        Prod.ext (openKey_fst db.acl mc2 e.1).symm rfl
      rw [hk]
      obtain hknown | hold := hdb _ (openKey_fst db.acl mc2 e.1)
      · exact changeSimple_gives rfl hknown hi hall
      · exact (changeSimple_adds rfl _ i).1 hold
    · refine ih (cloneEntry cfg w mc2 db e') (fun k hk => ?_) he
      obtain hknown | hold := hdb k hk
      · exact .inl (changeSimple_known hknown)
      · exact .inr ((changeSimple_adds rfl _ i).1 hold)

theorem cloneEntries_spelling {i : Nat} {acl : AccessList} (es : List (Target × Chanacs))
    (db : ChanDb)
    (hkeep : ∀ t, Has (levelAt acl (mc2, t)) i → Has (levelAt db.acl (mc2, t)) i)
    (hdb : ∀ t t', (db.acl.find (mc2, t)).isSome → SameSubject t t' →
      Has (levelAt acl (mc2, t')) i → Has (levelAt acl (mc2, t)) i) {t t' : Target}
    (h : ((es.foldl (cloneEntry cfg w mc2) db).acl.find (mc2, t)).isSome)
    (hs : SameSubject t t') (hi : Has (levelAt acl (mc2, t')) i) : Has (levelAt acl (mc2, t)) i := by
  induction es generalizing db with
  | nil => exact hdb t t' h hs hi
  | cons e es ih =>
    refine ih (cloneEntry cfg w mc2 db e) (fun t ht => (changeSimple_adds rfl _ i).1 (hkeep t ht))
      (fun t t' hfind hs hi => ?_) h
    obtain hold | hk := find_chanacsChangeSimple hfind
    · exact hdb t t' hold hs hi
    · have hte : SameSubject t e.1 := by
        have hte : SameSubject (openKey db.acl mc2 e.1).2 e.1 := sameSubject_openKey db.acl e.1
        rwa [← hk] at hte
      have hfound : (db.acl.find (mc2, t')).isSome := by
        rw [Option.isSome_iff_ne_none]
        intro hnone
        have hl := hkeep t' hi
        rw [levelAt, hnone] at hl
        exact absurd hl (has_zero i)
      have hopen := openKey_found hfound (hte.of_common hs)
      rw [← hk] at hopen
      exact hdb t t' hopen hs hi

theorem cloneEntries_eq (es : List (Target × Chanacs)) (db : ChanDb) :
    es.foldl (cloneEntry cfg w mc2) db =
      { db with acl := (es.foldl (cloneEntry cfg w mc2) db).acl } := by
  induction es generalizing db with
  | nil => rfl
  | cons e es ih =>
    rw [List.foldl_cons, ih]
    rfl

theorem cloneAcl_eq :
    cloneAcl cfg w db mc mc2 = { db with acl := (cloneAcl cfg w db mc mc2).acl } := by
  rw [cloneAcl, cloneEntries_eq]

theorem has_cloneClear {k : MyChanRef × Target} (h : Has (levelAt db.acl k) 13) :
    Has (levelAt (cloneClear mc2 db.acl) k) 13 := by
  rw [levelAt_cloneClear, if_neg fun hc => hc.2 h]
  exact h

theorem cloneAcl_keeps {k : MyChanRef × Target} (h : Has (levelAt db.acl k) 13) :
    Has (levelAt (cloneAcl cfg w db mc mc2).acl k) 13 :=
  (cloneEntries_adds _ { db with acl := cloneClear mc2 db.acl } k 13).1 (has_cloneClear h)

theorem cloneAcl_gains {k : MyChanRef × Target} {i : Nat}
    (h : Has (levelAt (cloneAcl cfg w db mc mc2).acl k) i) (hnot : ¬ Has (levelAt db.acl k) i) :
    k.1 = mc2 ∧ ∃ t, SameSubject k.2 t ∧ Has (levelAt db.acl (mc, t)) i := by
  obtain h | ⟨hk, e, he, hs, hl⟩ := (cloneEntries_adds _ _ k i).2 h
  · replace h : Has (levelAt (cloneClear mc2 db.acl) k) i := h
    rw [levelAt_cloneClear] at h
    split_ifs at h
    · exact absurd h (has_zero i)
    · exact absurd h hnot
  · refine ⟨hk, e.1, hs, ?_⟩
    rwa [levelAt_of_find ((mem_chanacsOf db.acl mc e.1 e.2).mp he)]

theorem cloneAcl_newFounder {k : MyChanRef × Target}
    (h : Has (levelAt (cloneAcl cfg w db mc mc2).acl k) 13) (hnot : ¬ Has (levelAt db.acl k) 13) :
    k.1 = mc2 ∧ ∃ t, SameSubject k.2 t ∧ Has (levelAt db.acl (mc, t)) 13 ∧
      ∀ t', SameSubject t' t → ¬ Has (levelAt db.acl (mc2, t')) 13 := by
  obtain ⟨rfl, t, hs, hl⟩ := cloneAcl_gains h hnot
  refine ⟨rfl, t, hs, hl, fun t' hs' hl' => hnot ?_⟩
  have hsome : ((cloneAcl cfg w db mc k.1).acl.find (k.1, k.2)).isSome := by
    rw [Option.isSome_iff_ne_none]
    intro hnone
    rw [levelAt, hnone] at h
    exact absurd h (has_zero 13)
  have hswap : SameSubject k.2 t' := hs'.symm.of_common hs.symm
  refine cloneEntries_spelling _ { db with acl := cloneClear k.1 db.acl }
    (fun t ht => has_cloneClear ht) (fun t t' hfind _ _ => ?_) hsome hswap hl'
  have hclear : ((cloneClear k.1 db.acl).find (k.1, t)).isSome := hfind
  rw [cloneClear, Registry.find_update] at hclear
  cases hf : db.acl.find (k.1, t) with
  | none => simp [hf] at hclear
  | some ca =>
    rw [levelAt_of_find hf]
    by_contra hn
    simp [hf, (test_caFounder_eq_false _).mpr hn] at hclear

theorem cloneAcl_founder {t : Target} (h : Has (levelAt db.acl (mc, t)) 13) :
    ∃ t', SameSubject t' t ∧ Has (levelAt (cloneAcl cfg w db mc mc2).acl (mc2, t')) 13 := by
  cases hf : db.acl.find (mc, t) with
  | none =>
    rw [levelAt, hf] at h
    exact absurd h (has_zero 13)
  | some ca =>
    rw [levelAt_of_find hf] at h
    refine cloneEntries_gives (caAll_founder cfg.flagConfig) _ _ (fun k hk => ?_)
      ((mem_chanacsOf db.acl mc t ca).mpr hf) h
    show Sub (levelAt (cloneClear mc2 db.acl) k) cfg.caAll ∨ Has (levelAt (cloneClear mc2 db.acl) k) 13
    rw [levelAt_cloneClear]
    split_ifs with hc
    · exact .inl ((sub_iff _ _).mpr fun i hi => absurd hi (has_zero i))
    · exact .inr (not_not.mp fun hn => hc ⟨hk, hn⟩)

end clone
end ChatServices.ChanServ
