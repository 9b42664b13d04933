import ChatServices.ChanServ.AccessAtomic
import ChatServices.ChanServ.CmdClone

/-! `chanacs_change` with its answer and the masks it writes back, and the same change made
by opening, modifying and closing an entry. -/
namespace ChatServices.ChanServ
open ChatServices.Lib ChatServices.Lib.Mask ChatServices.Lib.MaskUpdate ChatServices.Text

/-- What a change returns, leaves of the lists and writes to `*addflags` and `*removeflags`. -/
structure ChangeAnswer where
  ok : Bool
  acl : AccessList
  change : Change

section model
variable (cfg : ChanConfig) (w : World) (db : ChanDb) (mc : MyChanRef)

/-- The branches of `chanacs_change` without an entry: `chanacs_add` and `chanacs_add_host`. -/
def changeMissing (k : MyChanRef × Target) (c : Change) (restrictflags : Flags)
    (setter : Option Entity) : ChangeAnswer :=
  let done : Change := ⟨c.add, 0#32⟩
  if done.add ||| done.rem = 0#32 then ⟨true, db.acl, done⟩
  else if test (~~~restrictflags) done.add then ⟨false, db.acl, done⟩
  else ⟨true, db.acl.insertNew k { newEntry w db setter with level := done.add &&& cfg.caAll }, done⟩

/-- The branches of `chanacs_change` with an entry. -/
def changeFound (k : MyChanRef × Target) (ca : Chanacs) (c : Change) (restrictflags : Flags)
    (setter : Option Entity) : ChangeAnswer :=
  let done : Change := ⟨added ca.level c.add, removed ca.level c.add c.rem⟩
  if done.add ||| done.rem = 0#32 then ⟨true, db.acl, done⟩
  else if test (~~~restrictflags) done.add then ⟨false, db.acl, done⟩
  else if test (~~~restrictflags) done.rem then ⟨false, db.acl, done⟩
  else if test (~~~restrictflags) ca.level then ⟨false, db.acl, done⟩
  else
    let level := (ca.level ||| done.add) &&& ~~~done.rem
    let acl := db.acl.set k { ca with
      level := level
      tmodified := w.currtime
      setterUid := setterUid db setter }
    ⟨true, if level = 0#32 then acl.erase k else acl, done⟩

def chanacsChangeAnswer (t : Target) (c : Change) (restrictflags : Flags)
    (setter : Option Entity) : ChangeAnswer :=
  match t with
  | .entity mt =>
    match chanacsFindLiteral db.acl mc mt 0#32 with
    | none => changeMissing cfg w db (mc, .entity mt) c restrictflags setter
    | some ca => changeFound w db (mc, .entity mt) ca c restrictflags setter
  | .host mask =>
    match chanacsFindHostLiteral db.acl mc mask 0#32 with
    | none => changeMissing cfg w db (mc, .host mask) c restrictflags setter
    | some (host, ca) => changeFound w db (mc, .host host) ca c restrictflags setter

/-- `chanacs_open` with `create`: the lists, and the key of the entry it returns. -/
def chanacsOpen (t : Target) (setter : Option Entity) : AccessList × (MyChanRef × Target) :=
  match t with
  | .entity mt =>
    match chanacsFindLiteral db.acl mc mt 0#32 with
    | some _ => (db.acl, (mc, .entity mt))
    | none => (db.acl.insertNew (mc, .entity mt) (newEntry w db setter), (mc, .entity mt))
  | .host mask =>
    match chanacsFindHostLiteral db.acl mc mask 0#32 with
    | some (host, _) => (db.acl, (mc, .host host))
    | none => (db.acl.insertNew (mc, .host mask) (newEntry w db setter), (mc, .host mask))

/-- `chanacs_open`, `chanacs_modify` and `chanacs_close` one after the other; there is no
answer if the entry that was opened is not there. -/
def openModifyClose (t : Target) (c : Change) (restrictflags : Flags) (setter : Option Entity) :
    Option ChangeAnswer :=
  let opened := chanacsOpen w db mc t setter
  (opened.1.find opened.2).map fun ca =>
    let m := chanacsModify w db ca c restrictflags setter
    ⟨m.ok, chanacsClose opened.2 (opened.1.set opened.2 m.ca), m.change⟩

end model

def targetEntry (acl : AccessList) (mc : MyChanRef) : Target → Option Chanacs
  | .entity mt => chanacsFindLiteral acl mc mt 0#32
  | .host mask => (chanacsFindHostLiteral acl mc mask 0#32).map Prod.snd

def targetLevel (acl : AccessList) (mc : MyChanRef) (t : Target) : Flags :=
  ((targetEntry acl mc t).map Chanacs.level).getD 0#32

def OneEach (acl : AccessList) (mc : MyChanRef) : Prop :=
  ∀ t t', (acl.find (mc, t)).isSome → (acl.find (mc, t')).isSome → SameSubject t t' → t = t'

/-! ### The key of the target -/

section key
variable {acl : AccessList} {mc : MyChanRef} {t t' : Target} {ca : Chanacs}

theorem chanacsFindLiteral_zero (mt : Entity) :
    chanacsFindLiteral acl mc mt 0#32 = acl.find (mc, .entity mt) := by
  rw [chanacsFindLiteral]
  cases acl.find (mc, .entity mt) with
  | none => rfl
  | some ca => simp

theorem find_of_noHost {mask : CString} (h : chanacsFindHostLiteral acl mc mask 0#32 = none) :
    acl.find (mc, .host mask) = none := by
  by_contra hne
  have hsome : (acl.find (mc, .host mask)).isSome := Option.isSome_iff_ne_none.mpr hne
  have hopen : (acl.find (openKey acl mc (.host mask))).isSome :=
    openKey_found hsome (sameSubject_refl _)
  have hfound := List.findSome?_eq_none_iff.mp h
  obtain ⟨ca, hca⟩ := Option.isSome_iff_exists.mp hsome
  have hnot := hfound (.host mask, ca) ((mem_chanacsOf acl mc _ _).mpr hca)
  simp [strcaseEq] at hnot

theorem targetEntry_eq : targetEntry acl mc t = acl.find (openKey acl mc t) := by
  cases t with
  | entity mt => exact chanacsFindLiteral_zero mt
  | host mask =>
    rw [targetEntry, openKey]
    cases hf : chanacsFindHostLiteral acl mc mask 0#32 with
    | none => exact (find_of_noHost hf).symm
    | some found => exact (find_of_findHostEntry hf).symm

theorem targetLevel_eq : targetLevel acl mc t = levelAt acl (openKey acl mc t) := by
  rw [targetLevel, targetEntry_eq, levelAt]

theorem oneEach_iff : OneEach acl mc ↔ ∀ e ∈ chanacsOf acl mc, ∀ e' ∈ chanacsOf acl mc,
    SameSubject e.1 e'.1 → e.1 = e'.1 := by
  constructor
  · intro h e he e' he' hs
    refine h e.1 e'.1 ?_ ?_ hs
    · rw [(mem_chanacsOf acl mc e.1 e.2).mp he]
      rfl
    · rw [(mem_chanacsOf acl mc e'.1 e'.2).mp he']
      rfl
  · intro h t t' ht ht' hs
    obtain ⟨ca, hca⟩ := Option.isSome_iff_exists.mp ht
    obtain ⟨ca', hca'⟩ := Option.isSome_iff_exists.mp ht'
    exact h (t, ca) ((mem_chanacsOf acl mc t ca).mpr hca) (t', ca')
      ((mem_chanacsOf acl mc t' ca').mpr hca') hs

theorem OneEach.openKey_eq (h : OneEach acl mc) (hf : (acl.find (mc, t')).isSome)
    (hs : SameSubject t' t) : openKey acl mc t = (mc, t') := by
  have hopen : (acl.find (openKey acl mc t)).isSome := openKey_found hf hs
  have hsubject : SameSubject (openKey acl mc t).2 t := sameSubject_openKey acl t
  have hkey : (mc, (openKey acl mc t).2) = openKey acl mc t := Prod.ext (openKey_fst acl mc t).symm rfl
  have hboth : SameSubject (openKey acl mc t).2 t' := hs.symm.of_common hsubject.symm
  have heq : (openKey acl mc t).2 = t' := h _ _ (hkey ▸ hopen) hf hboth
  rw [← heq, hkey]

end key

/-! ### The answer in one formula -/

section answer
variable {cfg : ChanConfig} {w : World} {db : ChanDb} {mc : MyChanRef} {t : Target} {c : Change}
  {restrict : Flags} {setter : Option Entity}

theorem chanacsOpen_eq : chanacsOpen w db mc t setter =
    (db.acl.insertNew (openKey db.acl mc t) (newEntry w db setter), openKey db.acl mc t) := by
  cases t with
  | entity mt =>
    rw [chanacsOpen, openKey, chanacsFindLiteral_zero]
    cases hf : db.acl.find (mc, .entity mt) with
    | none => rfl
    | some ca => rw [Registry.insertNew_of_find hf]
  | host mask =>
    rw [chanacsOpen, openKey]
    cases hf : chanacsFindHostLiteral db.acl mc mask 0#32 with
    | none => rfl
    | some found =>
      have hfind : db.acl.find (mc, .host found.1) = some found.2 := find_of_findHostEntry hf
      exact congrArg (·, (mc, Target.host found.1)) (Registry.insertNew_of_find hfind).symm

theorem chanacsChangeAnswer_eq : chanacsChangeAnswer cfg w db mc t c restrict setter =
    match db.acl.find (openKey db.acl mc t) with
    | none => changeMissing cfg w db (openKey db.acl mc t) c restrict setter
    | some ca => changeFound w db (openKey db.acl mc t) ca c restrict setter := by
  cases t with
  | entity mt =>
    rw [chanacsChangeAnswer, openKey, chanacsFindLiteral_zero]
  | host mask =>
    rw [chanacsChangeAnswer, openKey]
    cases hf : chanacsFindHostLiteral db.acl mc mask 0#32 with
    | none =>
      rw [Option.map_none, Option.getD_none, find_of_noHost hf]
    | some found =>
      have hfind : db.acl.find (mc, .host found.1) = some found.2 := find_of_findHostEntry hf
      rw [Option.map_some, Option.getD_some, hfind]

def modifiedAnswer (w : World) (db : ChanDb) (mc : MyChanRef) (t : Target) (c : Change)
    (restrict : Flags) (setter : Option Entity) : ChangeAnswer :=
  let k := openKey db.acl mc t
  let fresh := newEntry w db setter
  let m := chanacsModify w db (openedEntry db.acl k fresh) c restrict setter
  ⟨m.ok, chanacsClose k ((db.acl.insertNew k fresh).set k m.ca), m.change⟩

theorem openModifyClose_eq : openModifyClose w db mc t c restrict setter =
    some (modifiedAnswer w db mc t c restrict setter) := by
  rw [openModifyClose, chanacsOpen_eq]
  dsimp only
  rw [find_insertNew_self]
  rfl

theorem chanacsClose_set {acl : AccessList} {ca : Chanacs} {k : MyChanRef × Target}
    (hf : acl.find k = some ca) (ca' : Chanacs) : chanacsClose k (acl.set k ca') =
      if ca'.level = 0#32 then (acl.set k ca').erase k else acl.set k ca' := by
  rw [chanacsClose, Registry.find_set, if_pos rfl, hf]
  rfl

theorem changeFound_eq {ca : Chanacs} {k : MyChanRef × Target} (hf : db.acl.find k = some ca)
    (hne : ca.level ≠ 0#32) : changeFound w db k ca c restrict setter =
      let m := chanacsModify w db ca c restrict setter
      ⟨m.ok, chanacsClose k (db.acl.set k m.ca), m.change⟩ := by
  have hback : chanacsClose k (db.acl.set k ca) = db.acl := by
    rw [Registry.set_of_find hf, chanacsClose, hf]
    exact if_neg hne
  simp only [changeFound, chanacsModify]
  generalize added ca.level c.add = add
  generalize removed ca.level c.add c.rem = rem
  by_cases h1 : add ||| rem = 0#32
  · simp only [if_pos h1, hback]
  by_cases h2 : test (~~~restrict) add = true
  · simp only [if_neg h1, if_pos h2, hback]
  by_cases h3 : test (~~~restrict) rem = true
  · simp only [if_neg h1, if_neg h2, if_pos h3, hback]
  by_cases h4 : test (~~~restrict) ca.level = true
  · simp only [if_neg h1, if_neg h2, if_neg h3, if_pos h4, hback]
  · simp only [if_neg h1, if_neg h2, if_neg h3, if_neg h4, chanacsClose_set hf]

theorem changeMissing_eq {k : MyChanRef × Target} (hf : db.acl.find k = none)
    (hadd : Sub c.add cfg.caAll) : changeMissing cfg w db k c restrict setter =
      let fresh := newEntry w db setter
      let m := chanacsModify w db fresh c restrict setter
      ⟨m.ok, chanacsClose k ((db.acl.insertNew k fresh).set k m.ca), m.change⟩ := by
  have hset : ∀ ca : Chanacs, (db.acl.insertNew k (newEntry w db setter)).set k ca =
      db.acl.insertNew k ca := fun ca => Registry.set_insertNew hf
  have hclose : ∀ ca : Chanacs, chanacsClose k (db.acl.insertNew k ca) =
      if ca.level = 0#32 then db.acl else db.acl.insertNew k ca := by
    intro ca
    rw [chanacsClose, Registry.find_insertNew, hf, if_pos rfl, Registry.erase_insertNew hf]
    rfl
  have hall : c.add &&& cfg.caAll = c.add := by
    apply ext
    intro i
    rw [has_and]
    exact ⟨And.left, fun hi => ⟨hi, hadd.has hi⟩⟩
  have hadded : added (0#32) c.add = c.add := by
    apply ext
    intro i
    simp [has_added]
  have hremoved : removed (0#32) c.add c.rem = 0#32 := by
    rw [eq_zero_iff]
    intro i
    simp [has_removed]
  have hlevel : (newEntry w db setter).level = 0#32 := rfl
  simp only [changeMissing, chanacsModify, hset, hclose, hall, hlevel, hadded, hremoved]
  generalize c.add = add
  have hor : add ||| 0#32 = add := BitVec.or_zero
  have hfull : (0#32 ||| add) &&& ~~~(0#32) = add := by
    apply ext
    intro i
    simp only [has_and, has_or, has_not, has_zero, false_or, not_false_eq_true, and_true]
    exact ⟨And.left, fun hi => ⟨hi, hi.lt⟩⟩
  rw [hor, hfull]
  by_cases h1 : add = 0#32
  · simp only [if_pos h1, if_pos hlevel]
  by_cases h2 : test (~~~restrict) add = true
  · simp only [if_neg h1, if_pos h2, if_pos hlevel]
  · simp only [if_neg h1, if_neg h2, test_zero_right, Bool.false_eq_true, if_false]
    rfl

theorem chanacsChangeAnswer_modified (hne : NoEmpty db.acl mc) (hadd : Sub c.add cfg.caAll) :
    chanacsChangeAnswer cfg w db mc t c restrict setter =
      modifiedAnswer w db mc t c restrict setter := by
  rw [chanacsChangeAnswer_eq, modifiedAnswer]
  cases hf : db.acl.find (openKey db.acl mc t) with
  | none =>
    rw [openedEntry, hf]
    exact changeMissing_eq hf hadd
  | some ca =>
    rw [openedEntry, hf, Registry.insertNew_of_find hf]
    exact changeFound_eq hf (hne.at_key hf)

/-! ### What a change does -/

theorem modifiedAnswer_refused (hne : NoEmpty db.acl mc)
    (h : (modifiedAnswer w db mc t c restrict setter).ok = false) :
    (modifiedAnswer w db mc t c restrict setter).acl = db.acl := by
  have hca := chanacsModify_refused h
  show chanacsClose _ (Registry.set _ (chanacsModify ..).ca _) = _
  rw [hca, Registry.set_of_find find_insertNew_self, chanacsClose, find_insertNew_self]
  cases hf : db.acl.find (openKey db.acl mc t) with
  | none =>
    rw [openedEntry, hf]
    exact (if_pos rfl).trans (Registry.erase_insertNew hf)
  | some ca =>
    rw [openedEntry, hf]
    exact (if_neg (hne.at_key hf)).trans (Registry.insertNew_of_find hf)

theorem levelAt_modifiedAnswer (h : (modifiedAnswer w db mc t c restrict setter).ok = true)
    (k : MyChanRef × Target) : levelAt (modifiedAnswer w db mc t c restrict setter).acl k =
      if k = openKey db.acl mc t then result (targetLevel db.acl mc t) c.add c.rem
      else levelAt db.acl k := by
  have hold : (openedEntry db.acl (openKey db.acl mc t) (newEntry w db setter)).level =
      targetLevel db.acl mc t := by
    rw [openedEntry_level rfl, targetLevel_eq]
  show levelAt (chanacsClose _ (Registry.set _ (chanacsModify ..).ca _)) k = _
  rw [levelAt_closed rfl, chanacsModify_level h, hold]

theorem filter_modifiedAnswer : (modifiedAnswer w db mc t c restrict setter).acl.entries.filter
      (fun e => ¬ (e.1.1 = mc ∧ SameSubject e.1.2 t)) =
    db.acl.entries.filter (fun e => ¬ (e.1.1 = mc ∧ SameSubject e.1.2 t)) := by
  have hkey : (openKey db.acl mc t).1 = mc ∧ SameSubject (openKey db.acl mc t).2 t :=
    ⟨openKey_fst .., sameSubject_openKey ..⟩
  have hother : ∀ k, ¬ (k.1 = mc ∧ SameSubject k.2 t) → k ≠ openKey db.acl mc t :=
    fun k hk he => hk (he ▸ hkey)
  show (chanacsClose _ (Registry.set _ _ _)).entries.filter _ = _
  rw [chanacsClose]
  have hset : ∀ (acl : AccessList) (ca : Chanacs), (acl.set (openKey db.acl mc t) ca).entries.filter
      (fun e => ¬ (e.1.1 = mc ∧ SameSubject e.1.2 t)) =
        acl.entries.filter (fun e => ¬ (e.1.1 = mc ∧ SameSubject e.1.2 t)) :=
    fun acl ca => Registry.filter_entries_update fun k a hk => if_neg (hother k hk)
  have herase : ∀ acl : AccessList, (acl.erase (openKey db.acl mc t)).entries.filter
      (fun e => ¬ (e.1.1 = mc ∧ SameSubject e.1.2 t)) =
        acl.entries.filter (fun e => ¬ (e.1.1 = mc ∧ SameSubject e.1.2 t)) :=
    fun acl => Registry.filter_entries_update fun k a hk => if_neg (hother k hk)
  have hinsert : ∀ ca : Chanacs, (db.acl.insertNew (openKey db.acl mc t) ca).entries.filter
      (fun e => ¬ (e.1.1 = mc ∧ SameSubject e.1.2 t)) =
        db.acl.entries.filter (fun e => ¬ (e.1.1 = mc ∧ SameSubject e.1.2 t)) := by
    intro ca
    cases hf : db.acl.find (openKey db.acl mc t) with
    | some ca' => rw [Registry.insertNew_of_find hf]
    | none =>
      rw [Registry.entries_insertNew hf, List.filter_append]
      simp [hkey]
  split
  · split_ifs
    · rw [herase, hset, hinsert]
    · rw [hset, hinsert]
  · rw [hset, hinsert]

theorem isSome_modifiedAnswer {t' : Target}
    (h : ((modifiedAnswer w db mc t c restrict setter).acl.find (mc, t')).isSome) :
    (db.acl.find (mc, t')).isSome ∨ (mc, t') = openKey db.acl mc t := by
  by_cases hk : (mc, t') = openKey db.acl mc t
  · exact .inr hk
  · replace h : ((chanacsClose (openKey db.acl mc t) (Registry.set _ _ _)).find
      (mc, t')).isSome := h
    rw [find_chanacsClose, if_neg fun hc => hk hc.1, Registry.find_set, if_neg hk,
      Registry.find_insertNew, if_neg (Ne.symm hk), Option.or_none] at h
    exact .inl h

end answer

/-- What a change should do: nothing if it is refused, and else to its target what the masks
say, within the bound, and to no other entry anything. -/
structure ExactChange (acl : AccessList) (mc : MyChanRef) (t : Target) (c : Change)
    (restrict : Flags) (r : ChangeAnswer) : Prop where
  refused : r.ok = false → r.acl = acl
  level : r.ok = true → targetLevel r.acl mc t =
    (targetLevel acl mc t ||| c.add) &&&
      ~~~(c.rem &&& ~~~(c.add &&& ~~~targetLevel acl mc t))
  allowed : r.ok = true → ∀ i,
    ¬ (Has (targetLevel r.acl mc t) i ↔ Has (targetLevel acl mc t) i) → Has restrict i
  masks : r.ok = true → r.change =
    ⟨targetLevel r.acl mc t &&& ~~~targetLevel acl mc t,
      targetLevel acl mc t &&& ~~~targetLevel r.acl mc t⟩
  deleted : r.ok = true → targetLevel r.acl mc t = 0#32 → targetEntry r.acl mc t = none
  others : r.acl.entries.filter (fun e => ¬ (e.1.1 = mc ∧ SameSubject e.1.2 t)) =
    acl.entries.filter (fun e => ¬ (e.1.1 = mc ∧ SameSubject e.1.2 t))

section exact
variable {cfg : ChanConfig} {w : World} {db : ChanDb} {mc : MyChanRef} {t : Target} {c : Change}
  {restrict : Flags} {setter : Option Entity}

theorem targetEntry_modifiedAnswer (hone : OneEach db.acl mc) :
    targetEntry (modifiedAnswer w db mc t c restrict setter).acl mc t =
      (modifiedAnswer w db mc t c restrict setter).acl.find (openKey db.acl mc t) := by
  rw [targetEntry_eq]
  generalize hacl : (modifiedAnswer w db mc t c restrict setter).acl = acl
  have hkey : ∀ acl : AccessList, (mc, (openKey acl mc t).2) = openKey acl mc t :=
    fun acl => Prod.ext (openKey_fst ..).symm rfl
  cases hf : acl.find (openKey acl mc t) with
  | some ca =>
    have hsome : ((modifiedAnswer w db mc t c restrict setter).acl.find
        (mc, (openKey acl mc t).2)).isSome := by rw [hacl, hkey, hf]; rfl
    have hsame : openKey acl mc t = openKey db.acl mc t := by
      obtain hold | hnew := isSome_modifiedAnswer hsome
      · rw [hone.openKey_eq hold (sameSubject_openKey acl t), hkey]
      · rw [← hnew, hkey]
    rw [← hsame, hf]
  | none =>
    have hnone : ¬ (acl.find (openKey db.acl mc t)).isSome := by
      intro hsome
      rw [← hkey db.acl] at hsome
      have hfound := openKey_found hsome (sameSubject_openKey db.acl t)
      rw [hf] at hfound
      cases hfound
    exact (Option.not_isSome_iff_eq_none.mp hnone).symm

theorem targetLevel_modifiedAnswer (hone : OneEach db.acl mc)
    (h : (modifiedAnswer w db mc t c restrict setter).ok = true) :
    targetLevel (modifiedAnswer w db mc t c restrict setter).acl mc t =
      result (targetLevel db.acl mc t) c.add c.rem := by
  have hat := levelAt_modifiedAnswer h (openKey db.acl mc t)
  rw [if_pos rfl] at hat
  rw [targetLevel, targetEntry_modifiedAnswer hone]
  exact hat

theorem modifiedAnswer_exact (hone : OneEach db.acl mc) (hne : NoEmpty db.acl mc) :
    ExactChange db.acl mc t c restrict (modifiedAnswer w db mc t c restrict setter) := by
  have hold : (openedEntry db.acl (openKey db.acl mc t) (newEntry w db setter)).level =
      targetLevel db.acl mc t := by
    rw [openedEntry_level rfl, targetLevel_eq]
  have hnew := fun h => @targetLevel_modifiedAnswer w db mc t c restrict setter hone h
  refine ⟨modifiedAnswer_refused hne, fun h => ?_, fun h i hi => ?_, fun h => ?_, fun h h0 => ?_,
    filter_modifiedAnswer⟩
  · rw [hnew h, result_eq_masks]
  · rw [hnew h] at hi
    obtain hsame | hpermits := chanacsModify_ok_iff.mp h
    · rw [hold] at hsame
      rw [hsame] at hi
      exact absurd Iff.rfl hi
    · rw [hold] at hpermits
      exact hpermits.differs_mem hi
  · have hchange : (modifiedAnswer w db mc t c restrict setter).change =
        ⟨added (targetLevel db.acl mc t) c.add, removed (targetLevel db.acl mc t) c.add c.rem⟩ := by
      rw [← hold]
      exact chanacsModify_change
    rw [hchange, hnew h, result_and_not, and_not_result]
  · rw [targetEntry_modifiedAnswer hone]
    have hlevel : levelAt (modifiedAnswer w db mc t c restrict setter).acl
        (openKey db.acl mc t) = 0#32 := by
      rw [levelAt, ← targetEntry_modifiedAnswer hone]
      exact h0
    rw [modifiedAnswer, levelAt_chanacsClose] at hlevel
    rw [modifiedAnswer, find_chanacsClose, if_pos ⟨rfl, hlevel⟩]

/-- `chanacs_change` does what its masks say or nothing, and the same as opening, modifying
and closing the entry. -/
theorem chanacs_change_exact (cfg : ChanConfig) (w : World) (db : ChanDb) (mc : MyChanRef)
    (t : Target) (c : Change) (restrict : Flags) (setter : Option Entity)
    (hone : OneEach db.acl mc) (hne : NoEmpty db.acl mc) (hadd : Sub c.add cfg.caAll) :
    ExactChange db.acl mc t c restrict (chanacsChangeAnswer cfg w db mc t c restrict setter) ∧
      openModifyClose w db mc t c restrict setter =
        some (chanacsChangeAnswer cfg w db mc t c restrict setter) := by
  rw [chanacsChangeAnswer_modified hne hadd, openModifyClose_eq]
  exact ⟨modifiedAnswer_exact hone hne, rfl⟩

/- One channel, on which the account has `level` and a hostmask is an AKICK. -/
def twoEntries (level : Flags) : ChanDb where
  accounts := sampleAccounts 0#32 []
  groups := .empty
  chans := ⟨[(0, sampleChan "#chan" head_chan [])], nodup_chan⟩
  acl := ⟨[((0, .entity (.user 0)), sampleEntry level),
    ((0, .host "*!*@Host.example".toList), sampleEntry caAkick)], by simp⟩

/-- The account's one flag is taken away, and the entry with it. -/
theorem chanacs_change_exact_deletion :
    ExactChange (twoEntries caOp).acl 0 (.entity (.user 0)) ⟨0#32, caOp⟩ sampleConfig.caAll
        (chanacsChangeAnswer sampleConfig sampleWorld (twoEntries caOp) 0 (.entity (.user 0))
          ⟨0#32, caOp⟩ sampleConfig.caAll none) ∧
      openModifyClose sampleWorld (twoEntries caOp) 0 (.entity (.user 0)) ⟨0#32, caOp⟩
          sampleConfig.caAll none =
        some (chanacsChangeAnswer sampleConfig sampleWorld (twoEntries caOp) 0 (.entity (.user 0))
          ⟨0#32, caOp⟩ sampleConfig.caAll none) := by
  have hone : OneEach (twoEntries caOp).acl 0 := by
    rw [oneEach_iff]
    decide
  have hne : NoEmpty (twoEntries caOp).acl 0 := by
    unfold NoEmpty
    decide
  exact chanacs_change_exact sampleConfig sampleWorld (twoEntries caOp) 0 (.entity (.user 0))
    ⟨0#32, caOp⟩ sampleConfig.caAll none hone hne (by decide)

end exact

end ChatServices.ChanServ
