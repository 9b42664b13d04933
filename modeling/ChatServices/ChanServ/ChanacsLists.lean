import ChatServices.ChanServ.CmdClone
import ChatServices.ChanServ.Succession
import ChatServices.Lib.Walk

/-! Access entries as they lie in memory: every `chanacs_t` is linked into the list of its
channel, and into that of its entity if it has one. -/
namespace ChatServices.ChanServ.Heap
open ChatServices.Lib ChatServices.Lib.Mask ChatServices.Lib.Walk ChatServices.Text

/-- The address of a `chanacs_t`. -/
abbrev ChanacsRef := Nat

structure ChanacsObj where
  mychan : MyChanRef
  target : Target
  entry : Chanacs

/-- `chanacs_heap`, the lists `mc->chanacs` and `entity->chanacs`, and `cnt.chanacs`; `next` is
an address that no entry has had. -/
structure ChanacsHeap where
  objs : Registry ChanacsRef ChanacsObj
  chanacs : MyChanRef → List ChanacsRef
  entityChanacs : Entity → List ChanacsRef
  count : Nat
  next : ChanacsRef

structure HeapDb where
  accounts : Accounts
  groups : Registry GroupRef MyGroup
  chans : Registry MyChanRef MyChan
  heap : ChanacsHeap

def ChanacsHeap.empty : ChanacsHeap := ⟨.empty, fun _ => [], fun _ => [], 0, 0⟩

def ChanacsObj.key (o : ChanacsObj) : MyChanRef × Target := (o.mychan, o.target)

def ChanacsHeap.accessList (h : ChanacsHeap) : AccessList :=
  h.objs.entries.foldl (fun acl e => acl.insertNew e.2.key e.2.entry) .empty

def HeapDb.db (s : HeapDb) : ChanDb := ⟨s.accounts, s.groups, s.chans, s.heap.accessList⟩

/-! ### Linking and unlinking -/

def ChanacsHeap.add (mc : MyChanRef) (t : Target) (entry : Chanacs) (h : ChanacsHeap) :
    ChanacsHeap where
  objs := h.objs.insertNew h.next ⟨mc, t, entry⟩
  chanacs mc' := if mc' = mc then h.chanacs mc' ++ [h.next] else h.chanacs mc'
  entityChanacs mt := if t = .entity mt then h.entityChanacs mt ++ [h.next] else h.entityChanacs mt
  count := h.count + 1
  next := h.next + 1

/-- `chanacs_add`, and `chanacs_add_host` for a hostmask. -/
def chanacsAdd (cfg : ChanConfig) (s : HeapDb) (mc : MyChanRef) (t : Target) (level : Flags)
    (ts : Nat) (setter : Option Entity) : HeapDb :=
  { s with heap := s.heap.add mc t ⟨level &&& cfg.caAll, ts, setterUid s.db setter, []⟩ }

/-- `chanacs_delete`; an address without an entry is freed memory. -/
def chanacsDelete (s : HeapDb) (r : ChanacsRef) : Option HeapDb :=
  (s.heap.objs.find r).map fun o => { s with
    heap.objs := s.heap.objs.erase r
    heap.chanacs := fun mc =>
      if mc = o.mychan then (s.heap.chanacs mc).erase r else s.heap.chanacs mc
    heap.entityChanacs := fun mt =>
      if o.target = .entity mt then (s.heap.entityChanacs mt).erase r else s.heap.entityChanacs mt
    heap.count := s.heap.count - 1 }

def ChanacsHeap.write (r : ChanacsRef) (entry : Chanacs) (h : ChanacsHeap) : ChanacsHeap :=
  { h with objs := h.objs.modify r fun o => { o with entry := entry } }

/-! ### Finding and changing -/

/-- `chanacs_find_literal` and `chanacs_find_host_literal` without a level. -/
def findLiteral (h : ChanacsHeap) (mc : MyChanRef) (t : Target) : Option ChanacsRef :=
  (h.chanacs mc).find? fun r =>
    ((h.objs.find r).map fun o => decide (SameSubject o.target t)).getD false

/-- `chanacs_open` with `create`. -/
def chanacsOpen (w : World) (s : HeapDb) (mc : MyChanRef) (t : Target) (setter : Option Entity) :
    HeapDb × ChanacsRef :=
  match findLiteral s.heap mc t with
  | some r => (s, r)
  | none => ({ s with heap := s.heap.add mc t (newEntry w s.db setter) }, s.heap.next)

def chanacsModify (w : World) (s : HeapDb) (r : ChanacsRef) (c : Change) (restrictflags : Flags)
    (setter : Option Entity) : Option HeapDb :=
  (s.heap.objs.find r).map fun o =>
    let m := ChanServ.chanacsModify w s.db o.entry c restrictflags setter
    { s with heap := s.heap.write r m.ca }

def chanacsClose (s : HeapDb) (r : ChanacsRef) : Option HeapDb :=
  (s.heap.objs.find r).bind fun o => if o.entry.level = 0#32 then chanacsDelete s r else some s

def chanacsChange (cfg : ChanConfig) (w : World) (s : HeapDb) (mc : MyChanRef) (t : Target)
    (c : Change) (restrictflags : Flags) (setter : Option Entity) : Option HeapDb :=
  match findLiteral s.heap mc t with
  | none =>
    if c.add = 0#32 then some s
    else if test (~~~restrictflags) c.add then some s
    else some (chanacsAdd cfg s mc t c.add w.currtime setter)
  | some r =>
    (s.heap.objs.find r).bind fun o =>
      let m := ChanServ.chanacsModify w s.db o.entry c restrictflags setter
      if m.ok ∧ m.change.add ||| m.change.rem ≠ 0#32 then
        chanacsClose { s with heap := s.heap.write r m.ca } r
      else some s

def chanacsChangeSimple (cfg : ChanConfig) (w : World) (s : HeapDb) (mc : MyChanRef) (t : Target)
    (c : Change) (setter : Option Entity) : Option HeapDb :=
  chanacsChange cfg w s mc t (c.mask cfg.caAll) cfg.caAll setter

/-! ### CLONE -/

def HeapDb.chanacs (mc : MyChanRef) (s : HeapDb) : List ChanacsRef := s.heap.chanacs mc

def HeapDb.entityChanacs (mt : Entity) (s : HeapDb) : List ChanacsRef := s.heap.entityChanacs mt

/-- `MOWGLI_ITER_FOREACH_SAFE` over one of the lists. -/
def foreachSafe (list : HeapDb → List ChanacsRef) (body : HeapDb → ChanacsRef → Option HeapDb)
    (s : HeapDb) : Option HeapDb :=
  walkSafe list body (list s).length (list s).head? s

/-- `MOWGLI_ITER_FOREACH` over one of the lists. -/
def foreach (list : HeapDb → List ChanacsRef) (body : HeapDb → ChanacsRef → Option HeapDb)
    (s : HeapDb) : Option HeapDb :=
  walkOn list body (list s).length (list s).head? s

def cloneDrop (s : HeapDb) (r : ChanacsRef) : Option HeapDb :=
  (s.heap.objs.find r).bind fun o =>
    if test o.entry.level caFounder then some s else chanacsDelete s r

def cloneCopy (cfg : ChanConfig) (w : World) (mc2 : MyChanRef) (s : HeapDb) (r : ChanacsRef) :
    Option HeapDb :=
  (s.heap.objs.find r).bind fun o =>
    let setter := if o.entry.setterUid = [] then none else myentityFindUid s.db o.entry.setterUid
    chanacsChangeSimple cfg w s mc2 o.target ⟨o.entry.level, 0#32⟩ setter

def csCmdClone (cfg : ChanConfig) (w : World) (s : HeapDb) (si : Source) (parv : List CString) :
    Option HeapDb :=
  match clonePlan cfg w s.db si parv with
  | .error _ => some s
  | .ok req =>
    (foreachSafe (HeapDb.chanacs req.mc2) cloneDrop s).bind fun s =>
      (foreach (HeapDb.chanacs req.mc) (cloneCopy cfg w req.mc2) s).map fun s =>
        { s with chans := s.chans.set req.mc2 (cloneChan req.chan req.chan2) }

/-! ### The deletion of channels and accounts -/

def mychanDelete (mc : MyChanRef) (s : HeapDb) : Option HeapDb :=
  (foreachSafe (HeapDb.chanacs mc) chanacsDelete s).map fun s =>
    { s with chans := s.chans.erase mc }

def succeed (cfg : ChanConfig) (w : World) (mc : MyChanRef) (successor : MyUserRef) (s : HeapDb) :
    Option HeapDb :=
  let change (c : Change) (s : HeapDb) : Option HeapDb :=
    chanacsChangeSimple cfg w s mc (.entity (.user successor)) c none
  (change ⟨caFounder ||| caFlags, 0#32⟩ s).bind fun s =>
    (change ⟨customFounderCheck cfg, 0#32⟩ s).bind fun s =>
      match cfg.flagConfig.successorFlag with
      | some flag => change ⟨0#32, flag⟩ s
      | none => some s

def dropEntry (cfg : ChanConfig) (w : World) (s : HeapDb) (r : ChanacsRef) : Option HeapDb :=
  (s.heap.objs.find r).bind fun o =>
    if test o.entry.level caFounder && mychanNumFounders s.db.acl o.mychan = 1 then
      match mychanPickSuccessor cfg w s.db o.mychan with
      | some successor => (succeed cfg w o.mychan successor s).bind fun s => chanacsDelete s r
      | none => mychanDelete o.mychan s
    else chanacsDelete s r

/-- `myuser_delete`: group memberships, access entries, nicks, and the account itself. -/
def myuserDelete (cfg : ChanConfig) (w : World) (mu : MyUserRef) (s : HeapDb) : Option HeapDb :=
  let s := { s with groups := s.groups.update (fun _ g => some (g.leave (.user mu))) }
  (foreachSafe (HeapDb.entityChanacs (.user mu)) (dropEntry cfg w) s).map fun s =>
    { s with accounts := ⟨s.accounts.users.erase mu,
        s.accounts.nicks.filter (fun mn => mn.owner ≠ mu)⟩ }

end ChatServices.ChanServ.Heap

/-! The lists of access entries stay sound: every entry is in the lists it belongs to, once, and
a subject has one entry on a channel at most, as long as nothing is added beside it. -/
namespace ChatServices.ChanServ.Heap
open ChatServices.Lib ChatServices.Lib.Mask ChatServices.Lib.Walk ChatServices.Text

structure ListsOk (h : ChanacsHeap) : Prop where
  chanacs : ∀ mc, h.chanacs mc = h.objs.keysWhere (fun o => o.mychan = mc)
  entityChanacs : ∀ mt, h.entityChanacs mt = h.objs.keysWhere (fun o => o.target = .entity mt)
  count : h.count = h.objs.entries.length
  fresh : ∀ r, (h.objs.find r).isSome → r < h.next
  single : ∀ r r' o o', h.objs.find r = some o → h.objs.find r' = some o' →
    o.mychan = o'.mychan → SameSubject o.target o'.target → r = r'

section lists
variable {h : ChanacsHeap} {r : ChanacsRef} {o : ChanacsObj} {mc : MyChanRef} {t : Target}
  {entry : Chanacs}

theorem ListsOk.next_free (hok : ListsOk h) : h.objs.find h.next = none := by
  by_contra hne
  exact absurd (hok.fresh h.next (Option.isSome_iff_ne_none.mpr hne)) (Nat.lt_irrefl _)

theorem ListsOk.mem_chanacs (hok : ListsOk h) :
    r ∈ h.chanacs mc ↔ ∃ o, h.objs.find r = some o ∧ o.mychan = mc := by
  rw [hok.chanacs, Registry.mem_keysWhere]
  simp

theorem ListsOk.mem_entityChanacs {mt : Entity} (hok : ListsOk h) :
    r ∈ h.entityChanacs mt ↔ ∃ o, h.objs.find r = some o ∧ o.target = .entity mt := by
  rw [hok.entityChanacs, Registry.mem_keysWhere]
  simp

theorem ListsOk.nodup_chanacs (hok : ListsOk h) : (h.chanacs mc).Nodup := by
  rw [hok.chanacs]
  exact Registry.nodup_keysWhere

theorem ListsOk.nodup_entityChanacs {mt : Entity} (hok : ListsOk h) :
    (h.entityChanacs mt).Nodup := by
  rw [hok.entityChanacs]
  exact Registry.nodup_keysWhere

theorem empty_ok : ListsOk ChanacsHeap.empty :=
  ⟨fun _ => rfl, fun _ => rfl, rfl, nofun, nofun⟩

theorem ListsOk.add (hok : ListsOk h)
    (hnew : ∀ r o, h.objs.find r = some o → o.mychan = mc → ¬ SameSubject o.target t) :
    ListsOk (h.add mc t entry) := by
  have hfree := hok.next_free
  have hfind : ∀ r, (h.add mc t entry).objs.find r =
      if h.next = r then some ⟨mc, t, entry⟩ else h.objs.find r := by
    intro r
    rw [ChanacsHeap.add, Registry.find_insertNew]
    by_cases hr : h.next = r
    · rw [if_pos hr, if_pos hr, ← hr, hfree, Option.none_or]
    · rw [if_neg hr, if_neg hr, Option.or_none]
  refine ⟨fun mc' => ?_, fun mt => ?_, ?_, fun r hr => ?_, fun r r' o o' hf hf' hmc hs => ?_⟩
  · rw [ChanacsHeap.add]
    dsimp only
    rw [Registry.keysWhere_insertNew hfree, ← hok.chanacs]
    by_cases hmc : mc' = mc
    · simp [hmc]
    · simp [hmc, Ne.symm hmc]
  · rw [ChanacsHeap.add]
    dsimp only
    rw [Registry.keysWhere_insertNew hfree, ← hok.entityChanacs]
    by_cases ht : t = .entity mt <;> simp [ht]
  · rw [ChanacsHeap.add]
    dsimp only
    rw [Registry.length_insertNew hfree, hok.count]
  · rw [hfind] at hr
    show r < h.next + 1
    split_ifs at hr with heq
    · exact heq ▸ Nat.lt_succ_self _
    · exact Nat.lt_succ_of_lt (hok.fresh r hr)
  · rw [hfind] at hf hf'
    split_ifs at hf with hr <;> split_ifs at hf' with hr'
    · exact hr.symm.trans hr'
    · cases hf
      exact absurd hs.symm (hnew r' o' hf' hmc.symm)
    · cases hf'
      exact absurd hs (hnew r o hf hmc)
    · exact hok.single r r' o o' hf hf' hmc hs

theorem ListsOk.write (hok : ListsOk h) : ListsOk (h.write r entry) := by
  have hkeys : ∀ p : ChanacsObj → Bool, (∀ o, p { o with entry := entry } = p o) →
      (h.write r entry).objs.keysWhere p = h.objs.keysWhere p :=
    fun p hp => Registry.keysWhere_modify fun o _ => hp o
  have hfind : ∀ r' o', (h.write r entry).objs.find r' = some o' →
      ∃ o, h.objs.find r' = some o ∧ o.mychan = o'.mychan ∧ o.target = o'.target := by
    intro r' o' hf
    rw [ChanacsHeap.write, Registry.find_modify] at hf
    split_ifs at hf
    · obtain ⟨o, ho, rfl⟩ := Option.map_eq_some_iff.mp hf
      exact ⟨o, ho, rfl, rfl⟩
    · exact ⟨o', hf, rfl, rfl⟩
  refine ⟨fun mc => ?_, fun mt => ?_, ?_, fun r' hr => ?_, fun r₁ r₂ o₁ o₂ hf₁ hf₂ hmc hs => ?_⟩
  · exact (hok.chanacs mc).trans (hkeys _ fun _ => rfl).symm
  · exact (hok.entityChanacs mt).trans (hkeys _ fun _ => rfl).symm
  · rw [ChanacsHeap.write, Registry.entries_modify, List.length_map]
    exact hok.count
  · obtain ⟨o', ho'⟩ := Option.isSome_iff_exists.mp hr
    obtain ⟨o, ho, -, -⟩ := hfind r' o' ho'
    exact hok.fresh r' (by rw [ho]; rfl)
  · obtain ⟨o₁', ho₁, hmc₁, ht₁⟩ := hfind r₁ o₁ hf₁
    obtain ⟨o₂', ho₂, hmc₂, ht₂⟩ := hfind r₂ o₂ hf₂
    exact hok.single r₁ r₂ o₁' o₂' ho₁ ho₂ (hmc₁.trans (hmc.trans hmc₂.symm)) (ht₁ ▸ ht₂ ▸ hs)

end lists

section delete
variable {s s' : HeapDb} {r : ChanacsRef} {o : ChanacsObj}

structure Deleted (s s' : HeapDb) (r : ChanacsRef) : Prop where
  lists : ListsOk s'.heap
  objs : s'.heap.objs = s.heap.objs.erase r
  chanacs : ∀ mc, s'.heap.chanacs mc = (s.heap.chanacs mc).erase r
  entityChanacs : ∀ mt, s'.heap.entityChanacs mt = (s.heap.entityChanacs mt).erase r
  others : s' = { s with heap := s'.heap }

theorem chanacsDelete_ok (hok : ListsOk s.heap) (hf : s.heap.objs.find r = some o) :
    ∃ s', chanacsDelete s r = some s' ∧ Deleted s s' r := by
  have hchanacs : ∀ mc, (if mc = o.mychan then (s.heap.chanacs mc).erase r
      else s.heap.chanacs mc) = (s.heap.chanacs mc).erase r := by
    intro mc
    split_ifs with hmc
    · rfl
    · refine (List.erase_of_not_mem fun hmem => hmc ?_).symm
      obtain ⟨o', hf', rfl⟩ := hok.mem_chanacs.mp hmem
      rw [hf] at hf'
      cases hf'
      rfl
  have hentity : ∀ mt, (if o.target = .entity mt then (s.heap.entityChanacs mt).erase r
      else s.heap.entityChanacs mt) = (s.heap.entityChanacs mt).erase r := by
    intro mt
    split_ifs with ht
    · rfl
    · refine (List.erase_of_not_mem fun hmem => ht ?_).symm
      obtain ⟨o', hf', ht'⟩ := hok.mem_entityChanacs.mp hmem
      rw [hf] at hf'
      cases hf'
      exact ht'
  have hlen := Registry.length_erase hf
  have hsome : ∀ r' o', (s.heap.objs.erase r).find r' = some o' →
      s.heap.objs.find r' = some o' := by
    intro r' o' hf'
    rw [Registry.find_erase] at hf'
    split_ifs at hf'
    exact hf'
  refine ⟨_, by rw [chanacsDelete, hf]; rfl, ⟨fun mc => ?_, fun mt => ?_, ?_, fun r' hr => ?_,
    fun r₁ r₂ o₁ o₂ hf₁ hf₂ => hok.single r₁ r₂ o₁ o₂ (hsome _ _ hf₁) (hsome _ _ hf₂)⟩,
    rfl, hchanacs, hentity, rfl⟩
  · rw [Registry.keysWhere_erase, ← hok.chanacs]
    exact hchanacs mc
  · rw [Registry.keysWhere_erase, ← hok.entityChanacs]
    exact hentity mt
  · dsimp only
    rw [hok.count]
    omega
  · obtain ⟨o', ho'⟩ := Option.isSome_iff_exists.mp hr
    exact hok.fresh r' (by rw [hsome r' o' ho']; rfl)

end delete

/-! ### The access list that the heap stands for -/

section view
variable {h : ChanacsHeap} {r : ChanacsRef} {o : ChanacsObj} {mc : MyChanRef} {t : Target}
  {entry : Chanacs}

theorem insertAll_entries {κ α : Type*} [DecidableEq κ] (xs : List (κ × α)) (acl : Registry κ α)
    (hnodup : ((acl.entries ++ xs).map Prod.fst).Nodup) :
    (xs.foldl (fun acl e => acl.insertNew e.1 e.2) acl).entries = acl.entries ++ xs := by
  induction xs generalizing acl with
  | nil => simp
  | cons x xs ih =>
    have hnew : x.1 ∉ acl.entries.map Prod.fst := by
      rw [List.map_append, List.nodup_append] at hnodup
      exact fun hmem => hnodup.2.2 _ hmem _ (List.mem_cons_self ..) rfl
    have hentries : (acl.insertNew x.1 x.2).entries = acl.entries ++ [x] := by
      rw [Registry.insertNew, dif_neg hnew]
    rw [List.foldl_cons, ih, hentries, List.append_assoc]
    · rfl
    · rw [hentries, List.append_assoc]
      exact hnodup

theorem ListsOk.entries (hok : ListsOk h) :
    h.accessList.entries = h.objs.entries.map fun e => (e.2.key, e.2.entry) := by
  have hkeys : (h.objs.entries.map fun e => e.2.key).Nodup := by
    refine (List.nodup_map_iff_inj_on (List.Nodup.of_map _ h.objs.nodup)).mpr ?_
    intro x hx y hy hxy
    have hx' := (Registry.find_eq_some_iff x.1 x.2 h.objs).mpr hx
    have hy' := (Registry.find_eq_some_iff y.1 y.2 h.objs).mpr hy
    obtain ⟨hmc, ht⟩ := Prod.mk.inj hxy
    have href := hok.single x.1 y.1 x.2 y.2 hx' hy' hmc (ht ▸ sameSubject_refl x.2.target)
    rw [href, hy'] at hx'
    exact Prod.ext href (Option.some.inj hx').symm
  have hfold : h.accessList = (h.objs.entries.map fun e => (e.2.key, e.2.entry)).foldl
      (fun acl e => acl.insertNew e.1 e.2) .empty := by
    rw [List.foldl_map]
    rfl
  rw [hfold, insertAll_entries]
  · rfl
  · have hempty : (Registry.empty : AccessList).entries = [] := rfl
    rw [hempty, List.nil_append, List.map_map]
    exact hkeys

theorem ListsOk.find_accessList (hok : ListsOk h) {k : MyChanRef × Target} {ca : Chanacs} :
    h.accessList.find k = some ca ↔ ∃ r o, h.objs.find r = some o ∧ o.key = k ∧ o.entry = ca := by
  rw [Registry.find_eq_some_iff, hok.entries, List.mem_map]
  constructor
  · rintro ⟨e, he, heq⟩
    obtain ⟨hk, hca⟩ := Prod.mk.inj heq
    exact ⟨e.1, e.2, (Registry.find_eq_some_iff ..).mpr he, hk, hca⟩
  · rintro ⟨r, o, hf, rfl, rfl⟩
    exact ⟨(r, o), (Registry.find_eq_some_iff ..).mp hf, rfl⟩

theorem ListsOk.accessList_of_find (hok : ListsOk h) (hf : h.objs.find r = some o) :
    h.accessList.find o.key = some o.entry :=
  hok.find_accessList.mpr ⟨r, o, hf, rfl, rfl⟩

theorem accessList_add (hok : ListsOk h) :
    (h.add mc t entry).accessList = h.accessList.insertNew (mc, t) entry := by
  have hfree := (Registry.find_eq_none_iff ..).mp hok.next_free
  rw [ChanacsHeap.accessList, ChanacsHeap.add, Registry.insertNew]
  dsimp only
  rw [dif_neg hfree, List.foldl_append]
  rfl

theorem ListsOk.key_inj (hok : ListsOk h) {e e' : ChanacsRef × ChanacsObj}
    (he : e ∈ h.objs.entries) (he' : e' ∈ h.objs.entries) (hk : e.2.key = e'.2.key) : e.1 = e'.1 := by
  obtain ⟨hmc, ht⟩ := Prod.mk.inj hk
  exact hok.single _ _ _ _ ((Registry.find_eq_some_iff ..).mpr he)
    ((Registry.find_eq_some_iff ..).mpr he') hmc (ht ▸ sameSubject_refl _)

theorem accessList_write (hok : ListsOk h) (hf : h.objs.find r = some o) :
    (h.write r entry).accessList = h.accessList.set o.key entry := by
  have hmem := (Registry.find_eq_some_iff ..).mp hf
  apply Registry.ext
  have hset : (h.accessList.set o.key entry) = h.accessList.modify o.key fun _ => entry := rfl
  rw [hok.write.entries, hset, Registry.entries_modify, hok.entries, ChanacsHeap.write,
    Registry.entries_modify, List.map_map, List.map_map]
  refine List.map_congr_left fun e he => ?_
  by_cases hr : e.1 = r
  · have heq : e = (r, o) := by
      have hf' := (Registry.find_eq_some_iff ..).mpr he
      rw [hr, hf] at hf'
      exact Prod.ext hr (Option.some.inj hf').symm
    subst heq
    simp [ChanacsObj.key]
  · have hne : e.2.key ≠ o.key := fun hk => hr (hok.key_inj he hmem hk)
    simp [hr, hne]

theorem accessList_deleted {s s' : HeapDb} (hok : ListsOk s.heap)
    (hf : s.heap.objs.find r = some o) (hd : Deleted s s' r) :
    s'.heap.accessList = s.heap.accessList.erase o.key := by
  have hmem := (Registry.find_eq_some_iff ..).mp hf
  apply Registry.ext
  rw [hd.lists.entries, hd.objs, Registry.entries_erase, Registry.entries_erase, hok.entries,
    List.filter_map]
  congr 1
  refine List.filter_congr fun e he => ?_
  have hiff : e.1 = r ↔ e.2.key = o.key := by
    constructor
    · intro hr
      have hf' := (Registry.find_eq_some_iff ..).mpr he
      rw [hr, hf] at hf'
      rw [Option.some.inj hf']
    · exact fun hk => hok.key_inj he hmem hk
  simp [hiff]

theorem findLiteral_some (hok : ListsOk h) (hfind : findLiteral h mc t = some r) :
    ∃ o, h.objs.find r = some o ∧ o.mychan = mc ∧ SameSubject o.target t := by
  obtain ⟨o, hf, hmc⟩ := hok.mem_chanacs.mp (List.mem_of_find?_eq_some hfind)
  have hs := List.find?_some hfind
  rw [hf, Option.map_some, Option.getD_some, decide_eq_true_eq] at hs
  exact ⟨o, hf, hmc, hs⟩

theorem findLiteral_none (hok : ListsOk h) (hfind : findLiteral h mc t = none)
    (hf : h.objs.find r = some o) (hmc : o.mychan = mc) : ¬ SameSubject o.target t := by
  have hnot := List.find?_eq_none.mp hfind r (hok.mem_chanacs.mpr ⟨o, hf, hmc⟩)
  rw [hf, Option.map_some, Option.getD_some, decide_eq_true_eq] at hnot
  exact hnot

theorem openKey_of_some (hok : ListsOk h) (hf : h.objs.find r = some o) (hmc : o.mychan = mc)
    (hs : SameSubject o.target t) : openKey h.accessList mc t = o.key := by
  subst hmc
  have hentry : (h.accessList.find (o.mychan, o.target)).isSome := by
    have hfind := hok.accessList_of_find hf
    rw [ChanacsObj.key] at hfind
    rw [hfind]
    rfl
  obtain ⟨ca, hca⟩ := Option.isSome_iff_exists.mp (openKey_found hentry hs)
  obtain ⟨r', o', hf', hk', -⟩ := hok.find_accessList.mp hca
  have hmc' : o'.mychan = o.mychan := (congrArg Prod.fst hk').trans (openKey_fst ..)
  have hkey : SameSubject (openKey h.accessList o.mychan t).2 t := sameSubject_openKey h.accessList t
  have hkey' : SameSubject o'.target t := by
    rw [← hk'] at hkey
    exact hkey
  have href := hok.single r' r o' o hf' hf hmc' (SameSubject.of_common hs.symm hkey'.symm)
  rw [href, hf] at hf'
  rw [← hk', Option.some.inj hf']

theorem openKey_of_none (hok : ListsOk h) (hfind : findLiteral h mc t = none) :
    h.accessList.find (mc, t) = none ∧ openKey h.accessList mc t = (mc, t) := by
  have hnone : ∀ t', SameSubject t' t → h.accessList.find (mc, t') = none := by
    intro t' hs
    by_contra hsome
    obtain ⟨ca, hca⟩ := Option.ne_none_iff_exists'.mp hsome
    obtain ⟨r, o, hf, hk, -⟩ := hok.find_accessList.mp hca
    obtain ⟨hmc, ht⟩ := Prod.mk.inj hk
    exact findLiteral_none hok hfind hf hmc (ht ▸ hs)
  refine ⟨hnone t (sameSubject_refl t), ?_⟩
  cases t with
  | entity mt => rfl
  | host mask =>
    cases hhost : chanacsFindHostLiteral h.accessList mc mask 0#32 with
    | none =>
      rw [openKey, hhost]
      rfl
    | some found =>
      have hkey : SameSubject (openKey h.accessList mc (.host mask)).2 (.host mask) :=
        sameSubject_openKey h.accessList (.host mask)
      rw [openKey, hhost] at hkey
      have hentry : h.accessList.find (mc, .host found.1) = some found.2 :=
        find_of_findHostEntry hhost
      have hgone := hnone _ hkey
      simp only [Option.map_some, Option.getD_some] at hgone
      rw [hgone] at hentry
      cases hentry

end view

/-! ### One subject's entry -/

structure Touched (s s' : HeapDb) (mc : MyChanRef) (t : Target) : Prop where
  lists : ListsOk s'.heap
  others : s' = { s with heap := s'.heap }
  keeps : ∀ r o, s.heap.objs.find r = some o → ¬ (o.mychan = mc ∧ SameSubject o.target t) →
    s'.heap.objs.find r = some o
  chanacs : ∀ mc', mc' ≠ mc → s'.heap.chanacs mc' = s.heap.chanacs mc'
  entityChanacs : ∀ mt, t ≠ .entity mt → s'.heap.entityChanacs mt = s.heap.entityChanacs mt

section touched
variable {cfg : ChanConfig} {w : World} {s s' s'' : HeapDb} {mc : MyChanRef} {t : Target}
  {r : ChanacsRef} {o : ChanacsObj} {entry : Chanacs}

theorem Touched.refl (hok : ListsOk s.heap) : Touched s s mc t :=
  ⟨hok, rfl, fun _ _ h _ => h, fun _ _ => rfl, fun _ _ => rfl⟩

theorem Touched.trans (h : Touched s s' mc t) (h' : Touched s' s'' mc t) : Touched s s'' mc t := by
  refine ⟨h'.lists, ?_, fun r o hf hnot => h'.keeps r o (h.keeps r o hf hnot) hnot,
    fun mc' hmc => (h'.chanacs mc' hmc).trans (h.chanacs mc' hmc),
    fun mt hmt => (h'.entityChanacs mt hmt).trans (h.entityChanacs mt hmt)⟩
  have hothers := h'.others
  rw [h.others] at hothers
  exact hothers

theorem Touched.of_subject {t' : Target} (h : Touched s s' mc t) (hs : SameSubject t t') :
    Touched s s' mc t' := by
  refine ⟨h.lists, h.others, fun r o hf hnot => h.keeps r o hf fun hboth => hnot ?_, h.chanacs,
    fun mt hmt => h.entityChanacs mt fun heq => hmt ?_⟩
  · exact ⟨hboth.1, SameSubject.of_common hs hboth.2.symm⟩
  · subst heq
    cases t' with
    | host mask => cases hs
    | entity mt' =>
      cases hs
      rfl

theorem touched_add (hok : ListsOk s.heap)
    (hnew : ∀ r o, s.heap.objs.find r = some o → o.mychan = mc → ¬ SameSubject o.target t) :
    Touched s { s with heap := s.heap.add mc t entry } mc t := by
  refine ⟨hok.add hnew, rfl, fun r o hf _ => ?_, fun mc' hmc => ?_, fun mt hmt => ?_⟩
  · show (s.heap.objs.insertNew _ _).find r = some o
    rw [Registry.find_insertNew, hf, Option.some_or]
  · exact if_neg hmc
  · exact if_neg hmt

theorem touched_write (hok : ListsOk s.heap) (hf : s.heap.objs.find r = some o)
    (hmc : o.mychan = mc) (hs : SameSubject o.target t) :
    Touched s { s with heap := s.heap.write r entry } mc t := by
  refine ⟨hok.write, rfl, fun r' o' hf' hnot => ?_, fun _ _ => rfl, fun _ _ => rfl⟩
  have hne : r' ≠ r := by
    intro heq
    rw [heq, hf] at hf'
    exact hnot (Option.some.inj hf' ▸ ⟨hmc, hs⟩)
  show (s.heap.objs.modify _ _).find r' = some o'
  rw [Registry.find_modify, if_neg hne, hf']

theorem Deleted.touched (hd : Deleted s s' r) (hok : ListsOk s.heap)
    (hf : s.heap.objs.find r = some o) (hmc : o.mychan = mc) (hs : SameSubject o.target t) :
    Touched s s' mc t := by
  refine ⟨hd.lists, hd.others, fun r' o' hf' hnot => ?_, fun mc' hmc' => ?_, fun mt hmt => ?_⟩
  · have hne : r' ≠ r := by
      intro heq
      rw [heq, hf] at hf'
      exact hnot (Option.some.inj hf' ▸ ⟨hmc, hs⟩)
    rw [hd.objs, Registry.find_erase, if_neg hne, hf']
  · rw [hd.chanacs, List.erase_of_not_mem]
    intro hmem
    obtain ⟨o', hf', hmc''⟩ := hok.mem_chanacs.mp hmem
    rw [hf] at hf'
    cases hf'
    exact hmc' (hmc''.symm.trans hmc)
  · rw [hd.entityChanacs, List.erase_of_not_mem]
    intro hmem
    obtain ⟨o', hf', ht⟩ := hok.mem_entityChanacs.mp hmem
    rw [hf] at hf'
    cases hf'
    cases t with
    | host mask =>
      rw [ht] at hs
      exact hs
    | entity mt' =>
      rw [ht] at hs
      obtain rfl : mt = mt' := hs
      exact hmt rfl

theorem chanacsClose_ok (hok : ListsOk s.heap) (hf : s.heap.objs.find r = some o) :
    ∃ s', chanacsClose s r = some s' ∧ Touched s s' o.mychan o.target ∧
      s'.heap.accessList = ChanServ.chanacsClose o.key s.heap.accessList := by
  have hentry := hok.accessList_of_find hf
  rw [chanacsClose, hf, Option.bind_some, ChanServ.chanacsClose, hentry]
  dsimp only
  split_ifs with h0
  · obtain ⟨s', hrun, hd⟩ := chanacsDelete_ok hok hf
    exact ⟨s', hrun, hd.touched hok hf rfl (sameSubject_refl _), accessList_deleted hok hf hd⟩
  · exact ⟨s, rfl, Touched.refl hok, rfl⟩

theorem chanacsChange_ok {c : Change} {restrict : Flags} {setter : Option Entity}
    (hok : ListsOk s.heap) :
    ∃ s', chanacsChange cfg w s mc t c restrict setter = some s' ∧ Touched s s' mc t ∧
      s'.heap.accessList = ChanServ.chanacsChange cfg w s.db mc t c restrict setter := by
  have hacl : s.db.acl = s.heap.accessList := rfl
  rw [chanacsChange, ChanServ.chanacsChange]
  cases hfind : findLiteral s.heap mc t with
  | none =>
    obtain ⟨hnone, hopen⟩ := openKey_of_none hok hfind
    have hnew : ∀ r o, s.heap.objs.find r = some o → o.mychan = mc → ¬ SameSubject o.target t :=
      fun r o hf hmc => findLiteral_none hok hfind hf hmc
    dsimp only
    rw [hacl, hopen, hnone]
    dsimp only
    split_ifs
    · exact ⟨s, rfl, Touched.refl hok, rfl⟩
    · exact ⟨s, rfl, Touched.refl hok, rfl⟩
    · exact ⟨_, rfl, touched_add hok hnew, accessList_add hok⟩
  | some r =>
    obtain ⟨o, hf, hmc, hs⟩ := findLiteral_some hok hfind
    have hopen := openKey_of_some hok hf hmc hs
    have hentry := hok.accessList_of_find hf
    dsimp only
    rw [hacl, hopen, hentry, hf, Option.bind_some]
    dsimp only
    split_ifs with hm
    · let entry := (ChanServ.chanacsModify w s.db o.entry c restrict setter).ca
      have hwrite := @touched_write s mc t r o entry hok hf hmc hs
      have hf' : (s.heap.write r entry).objs.find r = some { o with entry := entry } := by
        rw [ChanacsHeap.write, Registry.find_modify, if_pos rfl, hf]
        rfl
      obtain ⟨s', hrun, htouched, hclose⟩ :=
        @chanacsClose_ok { s with heap := s.heap.write r entry } r _ hwrite.lists hf'
      have htouched' := htouched.of_subject hs
      rw [hmc] at htouched'
      refine ⟨s', hrun, hwrite.trans htouched', ?_⟩
      rw [hclose]
      exact congrArg _ (accessList_write hok hf)
    · exact ⟨s, rfl, Touched.refl hok, rfl⟩

end touched

/-! ### Loops that drop entries of a channel -/

section drop
variable {s : HeapDb} {mc : MyChanRef}

theorem foreachSafe_drop {p : ChanacsObj → Bool} {body : HeapDb → ChanacsRef → Option HeapDb}
    (hbody : ∀ s r o, s.heap.objs.find r = some o →
      body s r = if p o then chanacsDelete s r else some s) (hok : ListsOk s.heap) :
    ∃ s', foreachSafe (HeapDb.chanacs mc) body s = some s' ∧ ListsOk s'.heap ∧
      s' = { s with heap := s'.heap } ∧ s'.heap.objs.entries =
        s.heap.objs.entries.filter (fun e => ¬ (e.2.mychan = mc ∧ p e.2 = true)) := by
  let I (rest : List ChanacsRef) (s' : HeapDb) : Prop :=
    ListsOk s'.heap ∧ s' = { s with heap := s'.heap } ∧
      (∃ before, s'.heap.chanacs mc = before ++ rest) ∧ s'.heap.objs.entries =
        s.heap.objs.entries.filter (fun e => e.1 ∈ rest ∨ ¬ (e.2.mychan = mc ∧ p e.2 = true))
  have hstart : I (s.heap.chanacs mc) s := by
    refine ⟨hok, rfl, ⟨[], rfl⟩, (List.filter_eq_self.mpr fun e he => ?_).symm⟩
    rw [decide_eq_true_eq]
    by_cases hmc : e.2.mychan = mc
    · exact .inl (hok.mem_chanacs.mpr ⟨e.2, (Registry.find_eq_some_iff ..).mpr he, hmc⟩)
    · exact .inr fun hboth => hmc hboth.1
  have hlist : ∀ rest s', I rest s' →
      (s'.chanacs mc).Nodup ∧ ∃ before, s'.chanacs mc = before ++ rest :=
    fun rest s' h => ⟨h.1.nodup_chanacs, h.2.2.1⟩
  have hstep : ∀ n rest s', I (n :: rest) s' → ∃ s'', body s' n = some s'' ∧ I rest s'' := by
    rintro n rest s' ⟨hok', hothers, ⟨before, hbefore⟩, hentries⟩
    have hnodup : (before ++ n :: rest).Nodup := hbefore ▸ hok'.nodup_chanacs
    obtain ⟨-, hrest, hapart⟩ := List.nodup_append.mp hnodup
    have hmem : n ∈ s'.heap.chanacs mc := by
      rw [hbefore]
      exact List.mem_append_right _ (List.mem_cons_self ..)
    obtain ⟨o, hf, hmc⟩ := hok'.mem_chanacs.mp hmem
    have hinit : ∀ e ∈ s.heap.objs.entries, e.1 = n → e.2 = o := by
      intro e he hn
      have hfind : s.heap.objs.find n = some o := by
        have hin := (Registry.find_eq_some_iff ..).mp hf
        rw [hentries] at hin
        exact (Registry.find_eq_some_iff ..).mpr (List.mem_filter.mp hin).1
      have hfind' := (Registry.find_eq_some_iff ..).mpr he
      rw [hn, hfind] at hfind'
      exact (Option.some.inj hfind').symm
    rw [hbody s' n o hf]
    split_ifs with hp
    · obtain ⟨s'', hrun, hd⟩ := chanacsDelete_ok hok' hf
      refine ⟨s'', hrun, hd.lists, ?_, ⟨before, ?_⟩, ?_⟩
      · have hothers' := hd.others
        rw [hothers] at hothers'
        exact hothers'
      · have hnot : n ∉ before := fun hin => hapart n hin n (List.mem_cons_self ..) rfl
        rw [hd.chanacs, hbefore, List.erase_append_right _ hnot, List.erase_cons_head]
      · rw [hd.objs, Registry.entries_erase, hentries, List.filter_filter]
        refine List.filter_congr fun e he => ?_
        have hn := hinit e he
        have hnot : e.1 ∈ rest → e.1 ≠ n := fun hin heq =>
          (List.nodup_cons.mp hrest).1 (heq ▸ hin)
        rw [← Bool.decide_and, decide_eq_decide, List.mem_cons]
        constructor
        · rintro ⟨hne, (hself | hin) | hkeep⟩
          · exact absurd hself hne
          · exact .inl hin
          · exact .inr hkeep
        · rintro (hin | hkeep)
          · exact ⟨hnot hin, .inl (.inr hin)⟩
          · refine ⟨fun heq => hkeep ?_, .inr hkeep⟩
            rw [hn heq]
            exact ⟨hmc, hp⟩
    · refine ⟨s', rfl, hok', hothers, ⟨before ++ [n], by simp [hbefore]⟩, ?_⟩
      rw [hentries]
      refine List.filter_congr fun e he => ?_
      have hn := hinit e he
      rw [decide_eq_decide, List.mem_cons]
      constructor
      · rintro ((hself | hin) | hkeep)
        · refine .inr fun hboth => hp ?_
          rw [← hn hself]
          exact hboth.2
        · exact .inl hin
        · exact .inr hkeep
      · rintro (hin | hkeep)
        · exact .inl (.inr hin)
        · exact .inr hkeep
  obtain ⟨s', hrun, hok', hothers, -, hentries⟩ := walkSafe_run hlist hstep hstart (le_refl _)
  refine ⟨s', hrun, hok', hothers, ?_⟩
  rw [hentries]
  exact List.filter_congr fun e _ => by simp

theorem accessList_dropped {s' : HeapDb} {q : MyChanRef × Target → Chanacs → Prop}
    [∀ k ca, Decidable (q k ca)] {p : ChanacsObj → Prop} [DecidablePred p] (hok : ListsOk s.heap)
    (hok' : ListsOk s'.heap) (hpq : ∀ o, p o ↔ q o.key o.entry)
    (hentries : s'.heap.objs.entries = s.heap.objs.entries.filter (fun e => ¬ p e.2)) :
    s'.heap.accessList = s.heap.accessList.update fun k ca => if q k ca then none else some ca := by
  apply Registry.ext
  rw [Registry.entries_update_filter, hok'.entries, hok.entries, hentries, List.filter_map]
  congr 1
  exact List.filter_congr fun e _ => by simp [hpq]

theorem mychanDelete_ok (hok : ListsOk s.heap) :
    ∃ s', mychanDelete mc s = some s' ∧ ListsOk s'.heap ∧ s'.db = ChanServ.mychanDelete mc s.db ∧
      s'.heap.objs.entries = s.heap.objs.entries.filter (fun e => ¬ e.2.mychan = mc) := by
  have hbody : ∀ (s : HeapDb) r o, s.heap.objs.find r = some o →
      chanacsDelete s r = if true then chanacsDelete s r else some s := fun _ _ _ _ => rfl
  obtain ⟨s', hrun, hok', hothers, hentries⟩ :=
    @foreachSafe_drop s mc (fun _ => true) chanacsDelete hbody hok
  simp only [and_true] at hentries
  have hacl := accessList_dropped (q := fun k _ => k.1 = mc) (p := fun o => o.mychan = mc) hok hok'
    (fun _ => Iff.rfl) hentries
  refine ⟨{ s' with chans := s'.chans.erase mc }, by rw [mychanDelete, hrun]; rfl, hok', ?_, hentries⟩
  rw [HeapDb.db, ChanServ.mychanDelete]
  dsimp only
  rw [hacl, hothers]
  rfl

end drop

end ChatServices.ChanServ.Heap
