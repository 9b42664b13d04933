import ChatServices.Lib.Odometer
import ChatServices.Lib.Registry
import ChatServices.Text

/-! The table of entities (accounts and groups) and the ids it hands out,
`libathemecore/entity.c`, with what the database keeps of them. -/
namespace ChatServices.Entities
open ChatServices.Lib ChatServices.Text

def IDLEN : Nat := 10

/-- `init_entities`. All ten bytes are set; an id is a copy of the first nine. -/
def initialUid : CString := List.replicate (IDLEN - 1) 'A'

def myentitySetLastUid (lastId : CString) : CString := truncate IDLEN lastId

def succ (c : Char) : Char := Char.ofNat (c.toNat + 1)

/-- The loop of `myentity_alloc_uid` over the places it still has to look at, and the place 3
behind it. -/
def allocUidFrom (uid : CString) : List Nat → CString
  | [] => if uid.getD 3 nul = 'Z' then uid.set 3 'A' else uid.set 3 (succ (uid.getD 3 nul))
  | i :: is =>
    if uid.getD i nul = 'Z' then uid.set i '0'
    else if uid.getD i nul ≠ '9' then uid.set i (succ (uid.getD i nul))
    else allocUidFrom (uid.set i 'A') is

def myentityAllocUid (lastUid : CString) : CString := allocUidFrom lastUid [8, 7, 6, 5, 4]

/-- A `myentity_t`; `born` is the time of its creation, which the code does not keep. -/
structure Entity where
  name : CString
  id : CString
  born : Nat
  deriving DecidableEq

/-- `entities`, `entities_by_id` and `last_entity_uid` -/
structure Tables where
  entities : Registry CString Entity
  entitiesById : Registry CString Entity
  lastUid : CString

def Tables.init : Tables := ⟨Registry.empty, Registry.empty, initialUid⟩

variable (irccasecanon : CString → CString)

/-- `myentity_put`, and the id it has allocated. -/
def myentityPut (t : Tables) (mt : Entity) : Tables × List CString :=
  let uid := myentityAllocUid t.lastUid
  if mt.id = [] then
    let mt := { mt with id := truncate IDLEN uid }
    (⟨t.entities.insertNew (irccasecanon mt.name) mt, t.entitiesById.insertNew mt.id mt, uid⟩,
      [mt.id])
  else
    ({ t with
      entities := t.entities.insertNew (irccasecanon mt.name) mt
      entitiesById := t.entitiesById.insertNew mt.id mt }, [])

def myentityDel (t : Tables) (mt : Entity) : Tables :=
  { t with
    entities := t.entities.erase (irccasecanon mt.name)
    entitiesById := t.entitiesById.erase mt.id }

/-- The id under which `myuser_add_id` and `mygroup_add_id` put an entity: the wanted one, unless
it is in use. -/
def wantedId (t : Tables) : Option CString → CString
  | none => []
  | some id => if (t.entitiesById.find id).isNone then truncate IDLEN id else []

/-- `myuser_add_id` and `mygroup_add_id`: nothing for a name that is there already. -/
def addId (t : Tables) (id : Option CString) (name : CString) (born : Nat) :
    Tables × List CString :=
  if (t.entities.find (irccasecanon name)).isSome then (t, [])
  else myentityPut irccasecanon t ⟨name, wantedId t id, born⟩

/-! ### The database -/

/-- The `setter_uid` of an access entry, and the time at which the entry was set. -/
structure Setter where
  uid : CString
  since : Nat
  deriving DecidableEq

/-- The rows of a saved database: `LUID`, one row for each entity, and of each access entry the
name of its setter. `given` are the ids handed out up to then, which the file does not hold. -/
structure Database where
  luid : CString
  rows : List Entity
  setters : List (CString × Nat)
  given : List CString
  deriving DecidableEq

structure World where
  tables : Tables
  setters : List Setter
  clock : Nat
  db : Option Database
  given : List CString

def World.start : World := ⟨.init, [], 0, none, []⟩

/-- The word that stands for the setter in a `CA` row. -/
def setterWord (t : Tables) (uid : CString) : CString :=
  if uid = [] then ['*'] else ((t.entitiesById.find uid).map Entity.name).getD ['*']

def dbSave (w : World) : Database :=
  ⟨w.tables.lastUid, w.tables.entities.entries.map Prod.snd,
    w.setters.map fun s => (setterWord w.tables s.uid, s.since), w.given⟩

def loadRows (t : Tables) : List Entity → Tables × List CString
  | [] => (t, [])
  | row :: rows =>
    let (t, new) := addId irccasecanon t (some row.id) row.name row.born
    let (t, more) := loadRows t rows
    (t, new ++ more)

/-- `corestorage_h_ca` looks the setter up by its name. -/
def loadSetter (t : Tables) (s : CString × Nat) : Setter :=
  ⟨((t.entities.find (irccasecanon s.1)).map Entity.id).getD [], s.2⟩

def dbLoad (w : World) : World × List CString :=
  match w.db with
  | none => ({ World.start with clock := w.clock }, [])
  | some db =>
    let (t, new) := loadRows irccasecanon
      { Tables.init with lastUid := myentitySetLastUid db.luid } db.rows
    (⟨t, db.setters.map (loadSetter irccasecanon t), w.clock, some db, db.given ++ new⟩, new)

inductive Event where
  | create (name : CString)
  | delete (id : CString)
  /-- An access entry is set by the entity with this id. -/
  | setBy (id : CString)
  | save
  | reload
  deriving DecidableEq

def step (w : World) (e : Event) : World × List CString :=
  let w := { w with clock := w.clock + 1 }
  match e with
  | .create name =>
    let (t, new) := addId irccasecanon w.tables none name w.clock
    ({ w with tables := t, given := w.given ++ new }, new)
  | .delete id =>
    match w.tables.entitiesById.find id with
    | none => (w, [])
    | some mt => ({ w with tables := myentityDel irccasecanon w.tables mt }, [])
  | .setBy id =>
    match w.tables.entitiesById.find id with
    | none => (w, [])
    | some mt => ({ w with setters := w.setters ++ [⟨truncate IDLEN mt.id, w.clock⟩] }, [])
  | .save => ({ w with db := some (dbSave w) }, [])
  | .reload => dbLoad irccasecanon w

end ChatServices.Entities

/-! The ids in the order in which they are handed out: letters before digits in the last five
places, letters alone in the place before. -/
namespace ChatServices.Entities
open ChatServices.Lib ChatServices.Lib.Odometer ChatServices.Text

def letters : List Char := "ABCDEFGHIJKLMNOPQRSTUVWXYZ".toList

def symbols : List Char := letters ++ "0123456789".toList

/-- What one place does: `none` where it goes back to `A` and the place before it moves. -/
def nextSymbol (c : Char) : Option Char :=
  if c = 'Z' then some '0' else if c ≠ '9' then some (succ c) else none

def symbolRank (c : Char) : Nat := if c ∈ letters then c.toNat - 65 else c.toNat - 22

theorem dial_symbols : Dial nextSymbol 'A' symbolRank 36 (· ∈ symbols) := by
  have hadvance : symbols.all (fun d => (nextSymbol d).all fun d' =>
      decide (d' ∈ symbols) && decide (symbolRank d' = symbolRank d + 1)) = true := by decide
  have hwrap : symbols.all (fun d => (nextSymbol d).isSome || decide (symbolRank d + 1 = 36)) = true :=
    by decide
  refine ⟨by decide, fun d d' hd hnext => ?_, fun d hd hnone => ?_⟩
  · simpa [hnext] using List.all_eq_true.mp hadvance d hd
  · simpa [hnone] using List.all_eq_true.mp hwrap d hd

theorem nextSymbol_eq_none {c : Char} (h : nextSymbol c = none) : c = '9' := by
  rw [nextSymbol] at h
  split_ifs at h with hz hnine
  exact not_not.mp hnine

theorem nextSymbol_letter {c d : Char} (hc : c ∈ letters) (hz : c ≠ 'Z')
    (h : nextSymbol c = some d) : d ∈ letters := by
  have hall : letters.all (fun c => decide (c = 'Z') ||
      (nextSymbol c).all fun d => decide (d ∈ letters)) = true := by decide
  simpa [hz, h] using List.all_eq_true.mp hall c hc

structure UidValid (uid : CString) : Prop where
  length : uid.length = IDLEN - 1
  letter : ∀ c ∈ (uid.drop 3).head?, c ∈ letters
  symbol : ∀ c ∈ uid.drop 3, c ∈ symbols

instance (uid : CString) : Decidable (UidValid uid) :=
  decidable_of_iff (uid.length = IDLEN - 1 ∧ (uid.drop 3).head?.all (fun c => decide (c ∈ letters)) = true
      ∧ (uid.drop 3).all (fun c => decide (c ∈ symbols)) = true)
    ⟨fun h => ⟨h.1, by simpa [Option.all_eq_true] using h.2.1, by simpa using h.2.2⟩,
      fun h => ⟨h.1, by simpa [Option.all_eq_true] using h.2, by simpa using h.3⟩⟩

theorem valid_initialUid : UidValid initialUid := by decide

def Exhausted (uid : CString) : Prop := uid.drop 3 = "Z99999".toList

instance (uid : CString) : Decidable (Exhausted uid) := inferInstanceAs (Decidable (_ = _))

def uidRank (uid : CString) : Nat := value symbolRank 36 (uid.drop 3).reverse

theorem UidValid.cons {uid : CString} (h : UidValid uid) :
    ∃ x y z a b c d e f, uid = [x, y, z, a, b, c, d, e, f] ∧ a ∈ letters
      ∧ ∀ s ∈ [a, b, c, d, e, f], s ∈ symbols := by
  have hlen := h.length
  have hletter := h.letter
  have hsymbol := h.symbol
  simp only [IDLEN] at hlen
  match uid, hlen, hletter, hsymbol with
  | [x, y, z, a, b, c, d, e, f], _, hletter, hsymbol =>
    exact ⟨x, y, z, a, b, c, d, e, f, rfl, hletter a rfl, hsymbol⟩

theorem myentityAllocUid_tick {x y z a b c d e f : Char} (ha : a ∈ letters)
    (hleft : ¬Exhausted [x, y, z, a, b, c, d, e, f]) :
    myentityAllocUid [x, y, z, a, b, c, d, e, f]
        = [x, y, z] ++ (tick nextSymbol 'A' [f, e, d, c, b, a]).1.reverse
      ∧ (tick nextSymbol 'A' [f, e, d, c, b, a]).2 = false := by
  have ha9 : a ≠ '9' := by
    rintro rfl
    exact absurd ha (by decide)
  have hzero : ('0' : Char) ≠ 'Z' := by decide
  by_cases hf : f = '9'
  · by_cases he : e = '9'
    · by_cases hd : d = '9'
      · by_cases hc : c = '9'
        · by_cases hb : b = '9'
          · have haz : a ≠ 'Z' := by
              rintro rfl
              exact hleft (by rw [hb, hc, hd, he, hf]; rfl)
            simp [myentityAllocUid, allocUidFrom, tick, nextSymbol, hb, hc, hd, he, hf, haz, ha9]
          · by_cases hbz : b = 'Z'
            · simp [myentityAllocUid, allocUidFrom, tick, nextSymbol, hbz, hc, hd, he, hf]
            · simp [myentityAllocUid, allocUidFrom, tick, nextSymbol, hb, hbz, hc, hd, he, hf]
        · by_cases hcz : c = 'Z'
          · simp [myentityAllocUid, allocUidFrom, tick, nextSymbol, hcz, hd, he, hf]
          · simp [myentityAllocUid, allocUidFrom, tick, nextSymbol, hc, hcz, hd, he, hf]
      · by_cases hdz : d = 'Z'
        · simp [myentityAllocUid, allocUidFrom, tick, nextSymbol, hdz, he, hf]
        · simp [myentityAllocUid, allocUidFrom, tick, nextSymbol, hd, hdz, he, hf]
    · by_cases hez : e = 'Z'
      · simp [myentityAllocUid, allocUidFrom, tick, nextSymbol, hez, hf]
      · simp [myentityAllocUid, allocUidFrom, tick, nextSymbol, he, hez, hf]
  · by_cases hfz : f = 'Z'
    · simp [myentityAllocUid, allocUidFrom, tick, nextSymbol, hfz]
    · simp [myentityAllocUid, allocUidFrom, tick, nextSymbol, hf, hfz]

theorem myentityAllocUid_next {uid : CString} (h : UidValid uid) (hleft : ¬Exhausted uid) :
    UidValid (myentityAllocUid uid) ∧ uidRank (myentityAllocUid uid) = uidRank uid + 1 := by
  obtain ⟨x, y, z, a, b, c, d, e, f, rfl, ha, hsymbols⟩ := h.cons
  obtain ⟨halloc, hcarry⟩ := myentityAllocUid_tick ha hleft
  have hmem : ∀ s ∈ [f, e, d, c, b, a], s ∈ symbols := fun s hs =>
    hsymbols s (List.mem_reverse.mp hs)
  obtain ⟨hticked, hlength⟩ := tick_symbols dial_symbols hmem
  have hvalue := value_tick dial_symbols hmem
  rw [hcarry] at hvalue
  have hrank : uidRank (myentityAllocUid [x, y, z, a, b, c, d, e, f])
      = uidRank [x, y, z, a, b, c, d, e, f] + 1 := by
    rw [halloc, uidRank, uidRank]
    simpa using hvalue
  refine ⟨⟨?_, ?_, ?_⟩, hrank⟩
  · rw [halloc, List.length_append, List.length_reverse, hlength]
    rfl
  · intro s hs
    have hsplit : tick nextSymbol 'A' [f, e, d, c, b, a] = _ :=
      tick_append [f, e, d, c, b] [a]
    rw [halloc, hsplit] at hs
    rw [hsplit] at hcarry
    cases hmoved : (tick nextSymbol 'A' [f, e, d, c, b]).2 with
    | false =>
      simp only [hmoved, Bool.false_eq_true, if_false] at hs
      have hsa : a = s := by simpa using hs
      rw [← hsa]
      exact ha
    | true =>
      have hnines := next_of_carry hmoved
      have haz : a ≠ 'Z' := by
        rintro rfl
        apply hleft
        have hnine : ∀ t ∈ [f, e, d, c, b], t = '9' := fun t ht => nextSymbol_eq_none (hnines t ht)
        simp only [List.forall_mem_cons] at hnine
        obtain ⟨hf, he, hd, hc, hb, -⟩ := hnine
        rw [hb, hc, hd, he, hf]
        rfl
      simp only [hmoved, if_true] at hs hcarry
      cases hnext : nextSymbol a with
      | none => simp [tick, hnext] at hcarry
      | some a' =>
        have hsa : a' = s := by simpa [tick, hnext] using hs
        rw [← hsa]
        exact nextSymbol_letter ha haz hnext
  · intro s hs
    rw [halloc] at hs
    exact hticked s (by simpa using hs)

end ChatServices.Entities
