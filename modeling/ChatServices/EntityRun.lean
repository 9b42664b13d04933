import ChatServices.Entities
import ChatServices.Lib.Run

/-! Ids over whole runs with saves and restarts. A restart takes the database back to the last
save, and with it the ids handed out since; `given` are those that the present history knows. -/
namespace ChatServices.Entities
open ChatServices.Lib ChatServices.Lib.Run ChatServices.Text

variable {irccasecanon : CString → CString}

theorem UidValid.truncate {uid : CString} (h : UidValid uid) : truncate IDLEN uid = uid :=
  List.take_of_length_le (le_of_eq h.length)

theorem UidValid.ne_nil {uid : CString} (h : UidValid uid) : uid ≠ [] := by
  intro hnil
  have hlen := h.length
  simp [hnil, IDLEN] at hlen

structure Handed (lastUid : CString) (given : List CString) : Prop where
  last : UidValid lastUid
  valid : ∀ i ∈ given, UidValid i
  rank : ∀ i ∈ given, uidRank i ≤ uidRank lastUid
  nodup : given.Nodup

theorem handed_initial : Handed initialUid [] := ⟨valid_initialUid, by simp, by simp, by simp⟩

theorem Handed.next {lastUid : CString} {given : List CString} (h : Handed lastUid given)
    (hleft : ¬Exhausted lastUid) :
    myentityAllocUid lastUid ∉ given
      ∧ Handed (myentityAllocUid lastUid) (given ++ [myentityAllocUid lastUid]) := by
  obtain ⟨hvalid, hrank⟩ := myentityAllocUid_next h.last hleft
  have hfresh : myentityAllocUid lastUid ∉ given := by
    intro hmem
    have hle := h.rank _ hmem
    omega
  refine ⟨hfresh, hvalid, ?_, ?_, ?_⟩
  · intro i hi
    cases List.mem_append.mp hi with
    | inl hi => exact h.valid i hi
    | inr hi => exact List.mem_singleton.mp hi ▸ hvalid
  · intro i hi
    cases List.mem_append.mp hi with
    | inl hi =>
      have hle := h.rank i hi
      omega
    | inr hi => rw [List.mem_singleton.mp hi]
  · rw [List.nodup_append]
    refine ⟨h.nodup, List.nodup_singleton _, ?_⟩
    intro i hi j hj hij
    rw [List.mem_singleton.mp hj] at hij
    exact hfresh (hij ▸ hi)

structure Indexed (canon : CString → CString) (t : Tables) (given : List CString) (clock : Nat) :
    Prop where
  named : ∀ k e, t.entities.find k = some e →
    k = canon e.name ∧ t.entitiesById.find e.id = some e
  byId : ∀ i e, t.entitiesById.find i = some e →
    e.id = i ∧ t.entities.find (canon e.name) = some e ∧ i ∈ given ∧ e.born ≤ clock

/-- What a saved database holds, read at the time `clock`. -/
structure Saved (canon : CString → CString) (db : Database) (clock : Nat) : Prop where
  handed : Handed db.luid db.given
  names : (db.rows.map fun r => canon r.name).Nodup
  ids : (db.rows.map Entity.id).Nodup
  rows : ∀ r ∈ db.rows, r.id ∈ db.given ∧ r.born ≤ clock

structure Good (canon : CString → CString) (w : World) : Prop where
  handed : Handed w.tables.lastUid w.given
  indexed : Indexed canon w.tables w.given w.clock
  saved : ∀ db ∈ w.db, Saved canon db w.clock

theorem indexed_init {given : List CString} {clock : Nat} :
    Indexed irccasecanon .init given clock := by
  refine ⟨fun k e hk => ?_, fun i e hi => ?_⟩
  · simp [Tables.init] at hk
  · simp [Tables.init] at hi

theorem good_start : Good irccasecanon .start :=
  ⟨handed_initial, indexed_init, by simp [World.start]⟩

theorem Indexed.later {t : Tables} {given : List CString} {clock : Nat}
    (h : Indexed irccasecanon t given clock) : Indexed irccasecanon t given (clock + 1) := by
  refine ⟨h.named, fun i e hi => ?_⟩
  obtain ⟨hid, hname, hgiven, hborn⟩ := h.byId i e hi
  exact ⟨hid, hname, hgiven, by omega⟩

theorem Saved.later {db : Database} {clock : Nat} (h : Saved irccasecanon db clock) :
    Saved irccasecanon db (clock + 1) := by
  refine ⟨h.handed, h.names, h.ids, fun r hr => ?_⟩
  obtain ⟨hid, hborn⟩ := h.rows r hr
  exact ⟨hid, by omega⟩

theorem Good.later {w : World} (h : Good irccasecanon w) :
    Good irccasecanon { w with clock := w.clock + 1 } :=
  ⟨h.handed, h.indexed.later, fun db hdb => (h.saved db hdb).later⟩

section insert

theorem Indexed.insert {t : Tables} {given : List CString} {clock : Nat} {mt : Entity}
    (h : Indexed irccasecanon t given clock)
    (hname : t.entities.find (irccasecanon mt.name) = none)
    (hid : t.entitiesById.find mt.id = none) (uid : CString) {given' : List CString}
    (hgiven : ∀ i ∈ given, i ∈ given') (hmem : mt.id ∈ given') (hborn : mt.born ≤ clock) :
    Indexed irccasecanon ⟨t.entities.insertNew (irccasecanon mt.name) mt,
      t.entitiesById.insertNew mt.id mt, uid⟩ given' clock := by
  refine ⟨fun k e hk => ?_, fun i e hi => ?_⟩
  · rw [Registry.find_insertNew, Option.or_eq_some_iff] at hk
    rw [Registry.find_insertNew]
    obtain hk | ⟨-, hk⟩ := hk
    · obtain ⟨hkey, hfind⟩ := h.named k e hk
      rw [hfind]
      exact ⟨hkey, rfl⟩
    · split_ifs at hk with hkey
      cases hk
      rw [hid]
      simp [hkey]
  · rw [Registry.find_insertNew, Option.or_eq_some_iff] at hi
    rw [Registry.find_insertNew]
    obtain hi | ⟨-, hi⟩ := hi
    · obtain ⟨heq, hfind, hg, hb⟩ := h.byId i e hi
      rw [hfind]
      exact ⟨heq, rfl, hgiven i hg, hb⟩
    · split_ifs at hi with hkey
      cases hi
      subst hkey
      simp [hname, hmem, hborn]

theorem Indexed.erase {t : Tables} {given : List CString} {clock : Nat} {mt : Entity}
    (h : Indexed irccasecanon t given clock) (hmt : t.entitiesById.find mt.id = some mt) :
    Indexed irccasecanon (myentityDel irccasecanon t mt) given clock := by
  have hmtname := (h.byId mt.id mt hmt).2.1
  refine ⟨fun k e hk => ?_, fun i e hi => ?_⟩
  · simp only [myentityDel, Registry.find_erase] at hk ⊢
    split_ifs at hk with hkey
    obtain ⟨hke, hfind⟩ := h.named k e hk
    have hne : e.id ≠ mt.id := by
      intro heq
      rw [heq, hmt] at hfind
      cases hfind
      exact hkey hke
    rw [if_neg hne]
    exact ⟨hke, hfind⟩
  · simp only [myentityDel, Registry.find_erase] at hi ⊢
    split_ifs at hi with hkey
    obtain ⟨hid, hfind, hg, hb⟩ := h.byId i e hi
    have hne : irccasecanon e.name ≠ irccasecanon mt.name := by
      intro heq
      rw [heq, hmtname] at hfind
      cases hfind
      exact hkey hid.symm
    rw [if_neg hne]
    exact ⟨hid, hfind, hg, hb⟩

end insert

theorem addId_none {t : Tables} (name : CString) (born : Nat) :
    addId irccasecanon t none name born = (t, [])
      ∨ t.entities.find (irccasecanon name) = none
        ∧ addId irccasecanon t none name born
          = (⟨t.entities.insertNew (irccasecanon name)
                ⟨name, truncate IDLEN (myentityAllocUid t.lastUid), born⟩,
              t.entitiesById.insertNew (truncate IDLEN (myentityAllocUid t.lastUid))
                ⟨name, truncate IDLEN (myentityAllocUid t.lastUid), born⟩,
              myentityAllocUid t.lastUid⟩, [truncate IDLEN (myentityAllocUid t.lastUid)]) := by
  rw [addId]
  split_ifs with hname
  · exact .inl rfl
  · right
    rw [Bool.not_eq_true, Option.isSome_eq_false_iff, Option.isNone_iff_eq_none] at hname
    exact ⟨hname, by simp [myentityPut, wantedId]⟩

section load

theorem find_none_of_entries {κ α : Type} [DecidableEq κ] {r : Registry κ α} {k : κ}
    (h : ∀ e ∈ r.entries, e.1 ≠ k) : r.find k = none := by
  rw [Registry.find_eq_none_iff]
  intro hmem
  obtain ⟨e, he, hk⟩ := List.mem_map.mp hmem
  exact h e he hk

theorem loadRows_fresh {rows : List Entity} (t : Tables) (hvalid : ∀ r ∈ rows, UidValid r.id)
    (hnames : (rows.map fun r => irccasecanon r.name).Nodup) (hids : (rows.map Entity.id).Nodup)
    (hname : ∀ r ∈ rows, ∀ e ∈ t.entities.entries, e.1 ≠ irccasecanon r.name)
    (hid : ∀ r ∈ rows, ∀ e ∈ t.entitiesById.entries, e.1 ≠ r.id) :
    (loadRows irccasecanon t rows).2 = []
      ∧ (loadRows irccasecanon t rows).1.lastUid = t.lastUid
      ∧ (loadRows irccasecanon t rows).1.entities.entries
        = t.entities.entries ++ rows.map (fun r => (irccasecanon r.name, r))
      ∧ (loadRows irccasecanon t rows).1.entitiesById.entries
        = t.entitiesById.entries ++ rows.map (fun r => (r.id, r)) := by
  induction rows generalizing t with
  | nil => simp [loadRows]
  | cons r rows ih =>
    rw [List.map_cons, List.nodup_cons] at hnames hids
    have hr := hvalid r List.mem_cons_self
    have hnew := find_none_of_entries (hname r List.mem_cons_self)
    have hfree := find_none_of_entries (hid r List.mem_cons_self)
    have hadd : addId irccasecanon t (some r.id) r.name r.born
        = ({ t with
            entities := t.entities.insertNew (irccasecanon r.name) r
            entitiesById := t.entitiesById.insertNew r.id r }, []) := by
      simp [addId, hnew, wantedId, hfree, hr.truncate, myentityPut, hr.ne_nil]
    have hentities := Registry.entries_insertNew (a := r) hnew
    have hbyId := Registry.entries_insertNew (a := r) hfree
    obtain ⟨hnone, hlast, hall, hallIds⟩ := ih { t with
        entities := t.entities.insertNew (irccasecanon r.name) r
        entitiesById := t.entitiesById.insertNew r.id r }
      (fun s hs => hvalid s (List.mem_cons_of_mem r hs)) hnames.2 hids.2
      (fun s hs e he => by
        rw [hentities] at he
        cases List.mem_append.mp he with
        | inl he => exact hname s (List.mem_cons_of_mem r hs) e he
        | inr he =>
          rw [List.mem_singleton.mp he]
          exact fun heq => hnames.1 (List.mem_map.mpr ⟨s, hs, heq.symm⟩))
      (fun s hs e he => by
        rw [hbyId] at he
        cases List.mem_append.mp he with
        | inl he => exact hid s (List.mem_cons_of_mem r hs) e he
        | inr he =>
          rw [List.mem_singleton.mp he]
          exact fun heq => hids.1 (List.mem_map.mpr ⟨s, hs, heq.symm⟩))
    simp only [loadRows, hadd, hnone, List.nil_append, List.map_cons]
    refine ⟨trivial, hlast, ?_, ?_⟩
    · rw [hall, hentities, List.append_assoc]
      rfl
    · rw [hallIds, hbyId, List.append_assoc]
      rfl

theorem loadRows_saved {db : Database} {clock : Nat} (h : Saved irccasecanon db clock)
    (t : Tables) (ht : t = { Tables.init with lastUid := myentitySetLastUid db.luid }) :
    (loadRows irccasecanon t db.rows).2 = []
      ∧ (loadRows irccasecanon t db.rows).1.lastUid = db.luid
      ∧ (∀ k e, (loadRows irccasecanon t db.rows).1.entities.find k = some e ↔
        e ∈ db.rows ∧ k = irccasecanon e.name)
      ∧ ∀ i e, (loadRows irccasecanon t db.rows).1.entitiesById.find i = some e ↔
        e ∈ db.rows ∧ i = e.id := by
  have hvalid : ∀ r ∈ db.rows, UidValid r.id := fun r hr => h.handed.valid _ (h.rows r hr).1
  have hempty : t.entities.entries = [] ∧ t.entitiesById.entries = [] := by
    rw [ht]
    exact ⟨rfl, rfl⟩
  obtain ⟨hnone, hlast, hall, hallIds⟩ := loadRows_fresh t hvalid h.names h.ids
    (by simp [hempty.1]) (by simp [hempty.2])
  have hluid : t.lastUid = db.luid := by
    rw [ht]
    exact h.handed.last.truncate
  refine ⟨hnone, hlast.trans hluid, fun k e => ?_, fun i e => ?_⟩
  · rw [Registry.find_eq_some_iff, hall, hempty.1]
    simp [and_comm, eq_comm]
  · rw [Registry.find_eq_some_iff, hallIds, hempty.2]
    simp [and_comm, eq_comm]

theorem good_dbLoad {w : World} (h : Good irccasecanon w) :
    Good irccasecanon (dbLoad irccasecanon w).1 ∧ (dbLoad irccasecanon w).2 = [] := by
  rw [dbLoad.eq_def]
  cases hdb : w.db with
  | none => exact ⟨⟨handed_initial, indexed_init, by simp [World.start]⟩, rfl⟩
  | some db =>
    have hsaved := h.saved db hdb
    obtain ⟨hnone, hlast, hname, hid⟩ := loadRows_saved hsaved _ rfl
    simp only [hnone, List.append_nil, and_true]
    refine ⟨?_, ⟨fun k e hk => ?_, fun i e hi => ?_⟩, fun db' hdb' => ?_⟩
    · rw [hlast]
      exact hsaved.handed
    · obtain ⟨he, hkey⟩ := (hname k e).mp hk
      exact ⟨hkey, (hid e.id e).mpr ⟨he, rfl⟩⟩
    · obtain ⟨he, hi⟩ := (hid i e).mp hi
      obtain ⟨hgiven, hborn⟩ := hsaved.rows e he
      exact ⟨hi.symm, (hname _ e).mpr ⟨he, rfl⟩, hi ▸ hgiven, hborn⟩
    · cases hdb'
      exact hsaved

theorem saved_dbSave {w : World} (h : Good irccasecanon w) :
    Saved irccasecanon (dbSave w) w.clock := by
  have hkeys : ∀ e ∈ w.tables.entities.entries, e.1 = irccasecanon e.2.name
      ∧ w.tables.entitiesById.find e.2.id = some e.2 := fun e he =>
    h.indexed.named e.1 e.2 ((Registry.find_eq_some_iff _ _ _).mpr he)
  have hnames : (w.tables.entities.entries.map Prod.snd).map (fun r => irccasecanon r.name)
      = w.tables.entities.entries.map Prod.fst := by
    rw [List.map_map]
    exact List.map_congr_left fun e he => (hkeys e he).1.symm
  refine ⟨h.handed, hnames ▸ w.tables.entities.nodup, ?_, fun r hr => ?_⟩
  · rw [dbSave, List.map_map]
    apply List.Nodup.map_on _ w.tables.entities.nodup.of_map
    intro a ha b hb hab
    have hfa := (hkeys a ha).2
    have hfb := (hkeys b hb).2
    simp only [Function.comp_apply] at hab
    rw [hab, hfb] at hfa
    have hsame : b.2 = a.2 := Option.some.inj hfa
    exact Prod.ext (by rw [(hkeys a ha).1, (hkeys b hb).1, hsame]) hsame.symm
  · obtain ⟨e, he, hr⟩ := List.mem_map.mp hr
    obtain ⟨-, -, hgiven, hborn⟩ := h.indexed.byId _ _ (hkeys e he).2
    exact hr ▸ ⟨hgiven, hborn⟩

end load

section steps

def Room (w : World) : Event → Prop
  | .create _ => ¬Exhausted w.tables.lastUid
  | _ => True

instance (w : World) : ∀ e, Decidable (Room w e)
  | .create _ => inferInstanceAs (Decidable (¬_))
  | .delete _ | .setBy _ | .save | .reload => inferInstanceAs (Decidable True)

def NoStar (canon : CString → CString) (_ : World) : Event → Prop
  | .create name => canon name ≠ canon ['*']
  | _ => True

def Current (w : World) : Event → Prop
  | .reload =>
    match w.db with
    | none => w.tables.lastUid = initialUid
    | some db => db.luid = w.tables.lastUid
  | _ => True

instance (w : World) : ∀ e, Decidable (Current w e)
  | .create _ | .delete _ | .setBy _ | .save => inferInstanceAs (Decidable True)
  | .reload =>
    match h : w.db with
    | none => decidable_of_iff (w.tables.lastUid = initialUid) (by simp [Current, h])
    | some db => decidable_of_iff (db.luid = w.tables.lastUid) (by simp [Current, h])

theorem good_step {w : World} (e : Event) (h : Good irccasecanon w) (hroom : Room w e) :
    Good irccasecanon (step irccasecanon w e).1
      ∧ ∀ i ∈ (step irccasecanon w e).2, i ∉ w.given
        ∧ uidRank w.tables.lastUid < uidRank i
        ∧ i = (step irccasecanon w e).1.tables.lastUid := by
  have hlater := h.later
  cases e with
  | create name =>
    obtain ⟨hfresh, hnext⟩ := h.handed.next hroom
    have htrunc := hnext.last.truncate
    have hrank := (myentityAllocUid_next h.handed.last hroom).2
    rw [step.eq_def]
    cases @addId_none irccasecanon w.tables name (w.clock + 1) with
    | inl hadd =>
      simp only [hadd, List.append_nil]
      exact ⟨hlater, by simp⟩
    | inr hadd =>
      obtain ⟨hname, hadd⟩ := hadd
      rw [htrunc] at hadd
      simp only [hadd, List.forall_mem_singleton]
      refine ⟨⟨hnext, ?_, hlater.saved⟩, hfresh, by omega, trivial⟩
      have hfree : w.tables.entitiesById.find (myentityAllocUid w.tables.lastUid) = none := by
        cases hfind : w.tables.entitiesById.find (myentityAllocUid w.tables.lastUid) with
        | none => rfl
        | some mt => exact absurd (h.indexed.byId _ _ hfind).2.2.1 hfresh
      exact @Indexed.insert irccasecanon w.tables w.given (w.clock + 1)
        ⟨name, myentityAllocUid w.tables.lastUid, w.clock + 1⟩ h.indexed.later hname hfree _ _
        (fun i hi => List.mem_append_left _ hi)
        (List.mem_append_right _ (List.mem_singleton_self _)) (Nat.le_refl _)
  | delete id =>
    rw [step.eq_def]
    cases hfind : w.tables.entitiesById.find id with
    | none => exact ⟨by simpa [hfind] using hlater, by simp [hfind]⟩
    | some mt =>
      have hid := (h.indexed.byId id mt hfind).1
      simp only [hfind]
      exact ⟨⟨hlater.handed, hlater.indexed.erase (hid ▸ hfind), hlater.saved⟩, by simp⟩
  | setBy id =>
    rw [step.eq_def]
    cases hfind : w.tables.entitiesById.find id with
    | none => exact ⟨by simpa [hfind] using hlater, by simp [hfind]⟩
    | some mt =>
      simp only [hfind]
      exact ⟨⟨hlater.handed, hlater.indexed, hlater.saved⟩, by simp⟩
  | save =>
    rw [step.eq_def]
    refine ⟨⟨hlater.handed, hlater.indexed, fun db hdb => ?_⟩, by simp⟩
    cases hdb
    exact saved_dbSave hlater
  | reload =>
    obtain ⟨hgood, hnone⟩ := good_dbLoad hlater
    rw [step.eq_def]
    exact ⟨hgood, by simp [hnone]⟩

structure SettersOk (canon : CString → CString) (w : World) : Prop where
  star : ∀ k e, w.tables.entities.find k = some e → k ≠ canon ['*']
  live : ∀ s ∈ w.setters, s.uid = [] ∨
    s.uid ∈ w.given ∧ ∀ e, w.tables.entitiesById.find s.uid = some e → e.born < s.since
  savedStar : ∀ db ∈ w.db, ∀ r ∈ db.rows, canon r.name ≠ canon ['*']
  saved : ∀ db ∈ w.db, ∀ s ∈ db.setters,
    s.1 = ['*'] ∨ ∃ r ∈ db.rows, r.name = s.1 ∧ r.born < s.2

theorem settersOk_start : SettersOk irccasecanon .start :=
  ⟨by simp [World.start, Tables.init], by simp [World.start], by simp [World.start],
    by simp [World.start]⟩

theorem setterWord_saved {w : World} (hgood : Good irccasecanon w)
    (h : SettersOk irccasecanon w) {s : Setter} (hs : s ∈ w.setters) :
    setterWord w.tables s.uid = ['*']
      ∨ ∃ r ∈ (dbSave w).rows, r.name = setterWord w.tables s.uid ∧ r.born < s.since := by
  rw [setterWord]
  split_ifs with hnil
  · exact .inl rfl
  · cases hfind : w.tables.entitiesById.find s.uid with
    | none => exact .inl rfl
    | some e =>
      right
      have hborn := ((h.live s hs).resolve_left hnil).2 e hfind
      have hname := (hgood.indexed.byId _ _ hfind).2.1
      have hentry := (Registry.find_eq_some_iff _ _ _).mp hname
      exact ⟨e, List.mem_map.mpr ⟨_, hentry, rfl⟩, rfl, hborn⟩

theorem settersOk_dbLoad {w : World} (hgood : Good irccasecanon w)
    (h : SettersOk irccasecanon w) : SettersOk irccasecanon (dbLoad irccasecanon w).1 := by
  rw [dbLoad.eq_def]
  cases hdb : w.db with
  | none =>
    exact ⟨by simp [World.start, Tables.init], by simp [World.start], by simp [World.start],
      by simp [World.start]⟩
  | some db =>
    have hsaved := hgood.saved db hdb
    obtain ⟨hnone, hlast, hname, hid⟩ := loadRows_saved hsaved _ rfl
    simp only [hnone, List.append_nil]
    refine ⟨fun k e hk => ?_, fun s hs => ?_, fun db' hdb' => ?_, fun db' hdb' => ?_⟩
    · obtain ⟨he, hkey⟩ := (hname k e).mp hk
      rw [hkey]
      exact h.savedStar db hdb e he
    · obtain ⟨word, hword, hs⟩ := List.mem_map.mp hs
      rw [loadSetter] at hs
      cases h.saved db hdb word hword with
      | inl hstar =>
        left
        cases hfind : (loadRows irccasecanon { Tables.init with
            lastUid := myentitySetLastUid db.luid } db.rows).1.entities.find
            (irccasecanon word.1) with
        | none => rw [← hs, hfind]; rfl
        | some e =>
          obtain ⟨he, hkey⟩ := (hname _ e).mp hfind
          rw [hstar] at hkey
          exact absurd hkey.symm (h.savedStar db hdb e he)
      | inr hrow =>
        right
        obtain ⟨r, hr, hrname, hborn⟩ := hrow
        have hfind := (hname (irccasecanon word.1) r).mpr ⟨hr, by rw [hrname]⟩
        rw [← hs, hfind]
        refine ⟨(hsaved.rows r hr).1, fun e he => ?_⟩
        have hself := (hid r.id r).mpr ⟨hr, rfl⟩
        rw [Option.map_some, Option.getD_some, hself] at he
        cases he
        exact hborn
    · cases hdb'
      exact h.savedStar db hdb
    · cases hdb'
      exact h.saved db hdb

theorem settersOk_step {w : World} (e : Event) (hgood : Good irccasecanon w)
    (h : SettersOk irccasecanon w) (hroom : Room w e) (hstar : NoStar irccasecanon w e) :
    SettersOk irccasecanon (step irccasecanon w e).1 := by
  cases e with
  | create name =>
    obtain ⟨hfresh, hnext⟩ := hgood.handed.next hroom
    have htrunc := hnext.last.truncate
    rw [step.eq_def]
    cases @addId_none irccasecanon w.tables name (w.clock + 1) with
    | inl hadd =>
      simp only [hadd, List.append_nil]
      exact ⟨h.star, h.live, h.savedStar, h.saved⟩
    | inr hadd =>
      obtain ⟨hname, hadd⟩ := hadd
      rw [htrunc] at hadd
      simp only [hadd]
      refine ⟨fun k e hk => ?_, fun s hs => ?_, h.savedStar, h.saved⟩
      · rw [Registry.find_insertNew, Option.or_eq_some_iff] at hk
        obtain hk | ⟨-, hk⟩ := hk
        · exact h.star k e hk
        · split_ifs at hk with hkey
          rw [← hkey]
          exact hstar
      · cases h.live s hs with
        | inl hnil => exact .inl hnil
        | inr hlive =>
          right
          refine ⟨List.mem_append_left _ hlive.1, fun e he => ?_⟩
          rw [Registry.find_insertNew, Option.or_eq_some_iff] at he
          obtain he | ⟨-, he⟩ := he
          · exact hlive.2 e he
          · split_ifs at he with hkey
            exact absurd hlive.1 (hkey ▸ hfresh)
  | delete id =>
    rw [step.eq_def]
    cases hfind : w.tables.entitiesById.find id with
    | none =>
      simp only [hfind]
      exact ⟨h.star, h.live, h.savedStar, h.saved⟩
    | some mt =>
      simp only [hfind]
      refine ⟨fun k e hk => ?_, fun s hs => ?_, h.savedStar, h.saved⟩
      · rw [myentityDel, Registry.find_erase] at hk
        split_ifs at hk with hkey
        exact h.star k e hk
      · cases h.live s hs with
        | inl hnil => exact .inl hnil
        | inr hlive =>
          right
          refine ⟨hlive.1, fun e he => ?_⟩
          rw [myentityDel, Registry.find_erase] at he
          split_ifs at he with hkey
          exact hlive.2 e he
  | setBy id =>
    rw [step.eq_def]
    cases hfind : w.tables.entitiesById.find id with
    | none =>
      simp only [hfind]
      exact ⟨h.star, h.live, h.savedStar, h.saved⟩
    | some mt =>
      obtain ⟨hid, -, hgiven, hborn⟩ := hgood.indexed.byId id mt hfind
      have htrunc := (hgood.handed.valid id hgiven).truncate
      simp only [hfind, hid, htrunc]
      refine ⟨h.star, fun s hs => ?_, h.savedStar, h.saved⟩
      cases List.mem_append.mp hs with
      | inl hs => exact h.live s hs
      | inr hs =>
        right
        rw [List.mem_singleton.mp hs]
        refine ⟨hgiven, fun e he => ?_⟩
        rw [hfind] at he
        cases he
        exact Nat.lt_succ_of_le hborn
  | save =>
    rw [step.eq_def]
    refine ⟨h.star, h.live, fun db hdb => ?_, fun db hdb => ?_⟩
    · cases hdb
      intro r hr
      obtain ⟨e, he, hr⟩ := List.mem_map.mp hr
      have hfind := (Registry.find_eq_some_iff _ _ _).mpr he
      have hkey := (hgood.indexed.named _ _ hfind).1
      rw [← hr, ← hkey]
      exact h.star _ _ hfind
    · cases hdb
      intro s hs
      obtain ⟨u, hu, hs⟩ := List.mem_map.mp hs
      rw [← hs]
      exact setterWord_saved hgood h hu
  | reload =>
    rw [step.eq_def]
    exact settersOk_dbLoad hgood.later ⟨h.star, h.live, h.savedStar, h.saved⟩

end steps

section runs

theorem good_run {w : World} (h : Good irccasecanon w) {es : List Event}
    (hroom : Guarded (step irccasecanon) Room w es) :
    Good irccasecanon (run (step irccasecanon) w es).1 := by
  induction es generalizing w with
  | nil => exact h
  | cons e es ih => exact ih (good_step e h hroom.1).1 hroom.2

theorem settersOk_run {w : World} (hgood : Good irccasecanon w) (h : SettersOk irccasecanon w)
    {es : List Event} (hroom : Guarded (step irccasecanon) Room w es)
    (hstar : Guarded (step irccasecanon) (NoStar irccasecanon) w es) :
    SettersOk irccasecanon (run (step irccasecanon) w es).1 := by
  induction es generalizing w with
  | nil => exact h
  | cons e es ih =>
    exact ih (good_step e hgood hroom.1).1 (settersOk_step e hgood h hroom.1 hstar.1) hroom.2
      hstar.2

theorem lastUid_current {w : World} (h : Good irccasecanon w) (hcurrent : Current w .reload) :
    (step irccasecanon w .reload).1.tables.lastUid = w.tables.lastUid := by
  rw [step.eq_def]
  simp only [dbLoad.eq_def]
  rw [Current.eq_def] at hcurrent
  cases hdb : w.db with
  | none =>
    simp only [hdb] at hcurrent
    exact hcurrent.symm
  | some db =>
    simp only [hdb] at hcurrent
    obtain ⟨-, hlast, -⟩ := loadRows_saved (h.saved db hdb) _ rfl
    exact hlast.trans hcurrent

theorem rank_step {w : World} (e : Event) (h : Good irccasecanon w) (hroom : Room w e)
    (hcurrent : Current w e) :
    uidRank w.tables.lastUid ≤ uidRank (step irccasecanon w e).1.tables.lastUid := by
  have hnew := (good_step e h hroom).2
  cases e with
  | create name =>
    rw [step.eq_def] at hnew ⊢
    cases @addId_none irccasecanon w.tables name (w.clock + 1) with
    | inl hadd => simp only [hadd, le_refl]
    | inr hadd =>
      simp only [hadd.2, List.forall_mem_singleton] at hnew ⊢
      have hlt := hnew.2.1
      rw [hnew.2.2] at hlt
      exact Nat.le_of_lt hlt
  | delete id =>
    rw [step.eq_def]
    cases hfind : w.tables.entitiesById.find id <;> simp [hfind, myentityDel]
  | setBy id =>
    rw [step.eq_def]
    cases hfind : w.tables.entitiesById.find id <;> simp [hfind]
  | save => exact Nat.le_refl _
  | reload => rw [lastUid_current h hcurrent]

theorem step_emits_one (w : World) (e : Event) (h : Good irccasecanon w) (hroom : Room w e) :
    (step irccasecanon w e).2 = [] ∨
      (step irccasecanon w e).2 = [(step irccasecanon w e).1.tables.lastUid] := by
  cases e with
  | create name =>
    have htrunc := (h.handed.next hroom).2.last.truncate
    rw [step.eq_def]
    cases @addId_none irccasecanon w.tables name (w.clock + 1) with
    | inl hadd => exact .inl (by simp only [hadd])
    | inr hadd => exact .inr (by simp only [hadd.2, htrunc])
  | delete id =>
    rw [step.eq_def]
    cases hfind : w.tables.entitiesById.find id <;> exact .inl (by simp [hfind])
  | setBy id =>
    rw [step.eq_def]
    cases hfind : w.tables.entitiesById.find id <;> exact .inl (by simp [hfind])
  | save => exact .inl rfl
  | reload => exact .inl (good_dbLoad h.later).2

theorem emitted_run {w : World} (h : Good irccasecanon w) {given : List CString}
    (hgiven : given.Nodup ∧ ∀ i ∈ given, uidRank i ≤ uidRank w.tables.lastUid) {es : List Event}
    (hroom : Guarded (step irccasecanon) Room w es)
    (hcurrent : Guarded (step irccasecanon) Current w es) :
    (given ++ (run (step irccasecanon) w es).2).Nodup := by
  induction es generalizing w given with
  | nil => simpa using hgiven.1
  | cons e es ih =>
    obtain ⟨hgood, hnew⟩ := good_step e h hroom.1
    have hrank := rank_step e h hroom.1 hcurrent.1
    rw [run_cons, ← List.append_assoc]
    refine ih hgood ⟨?_, fun i hi => ?_⟩ hroom.2 hcurrent.2
    · rw [List.nodup_append]
      refine ⟨hgiven.1, ?_, fun i hi j hj hij => ?_⟩
      · cases step_emits_one w e h hroom.1 with
        | inl hnone => simp [hnone]
        | inr hone => simp [hone]
      · have hle := hgiven.2 i hi
        have hlt := (hnew j hj).2.1
        rw [hij] at hle
        omega
    · cases List.mem_append.mp hi with
      | inl hi =>
        have hle := hgiven.2 i hi
        omega
      | inr hi => rw [(hnew i hi).2.2]

/-- Ids over a run: in the present history each is handed out once, no two entities share one and
no setter names a later entity; and none is handed out twice in the whole run where restarts do
not go back behind a handed out id. -/
theorem entity_uids_run (irccasecanon : CString → CString) (es : List Event)
    (hroom : Guarded (step irccasecanon) Room .start es) :
    (run (step irccasecanon) .start es).1.given.Nodup
      ∧ (∀ i e, (run (step irccasecanon) .start es).1.tables.entitiesById.find i = some e →
        i ∈ (run (step irccasecanon) .start es).1.given)
      ∧ (∀ k k' e e', (run (step irccasecanon) .start es).1.tables.entities.find k = some e →
        (run (step irccasecanon) .start es).1.tables.entities.find k' = some e' →
        e.id = e'.id → k = k')
      ∧ (Guarded (step irccasecanon) (NoStar irccasecanon) .start es →
        ∀ s ∈ (run (step irccasecanon) .start es).1.setters, ∀ e,
          (run (step irccasecanon) .start es).1.tables.entitiesById.find s.uid = some e →
          e.born < s.since)
      ∧ (Guarded (step irccasecanon) Current .start es →
        (run (step irccasecanon) .start es).2.Nodup) := by
  have hgood := good_run good_start hroom
  refine ⟨hgood.handed.nodup, fun i e hi => (hgood.indexed.byId i e hi).2.2.1, ?_, ?_, ?_⟩
  · intro k k' e e' hk hk' hid
    obtain ⟨hkey, hfind⟩ := hgood.indexed.named k e hk
    obtain ⟨hkey', hfind'⟩ := hgood.indexed.named k' e' hk'
    rw [hid, hfind'] at hfind
    cases hfind
    rw [hkey, hkey']
  · intro hstar s hs e he
    have hok := settersOk_run good_start settersOk_start hroom hstar
    cases hok.live s hs with
    | inl hnil =>
      have hgiven := (hgood.indexed.byId _ _ he).2.2.1
      exact absurd hnil (hgood.handed.valid _ hgiven).ne_nil
    | inr hlive => exact hlive.2 e he
  · intro hcurrent
    have hemitted := emitted_run good_start ⟨List.nodup_nil, by simp⟩ hroom hcurrent
    simpa using hemitted

theorem entity_uids_restart :
    (run (step id) .start [.create ['a'], .save, .reload, .create ['b']]).2.Nodup :=
  (entity_uids_run id [.create ['a'], .save, .reload, .create ['b']] (by decide)).2.2.2.2
    (by decide)

/-- An account created after the last save, lost in a crash, gives its id to the next one. -/
theorem entity_uids_crash :
    Guarded (step id) Room .start [.save, .create ['a'], .reload, .create ['b']]
      ∧ ¬(run (step id) .start [.save, .create ['a'], .reload, .create ['b']]).2.Nodup := by
  decide

end runs

end ChatServices.Entities
