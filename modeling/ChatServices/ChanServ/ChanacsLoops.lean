import ChatServices.ChanServ.ChanacsLists
import ChatServices.ChanServ.FounderRun
import ChatServices.Lib.Run

/-! The loops of `CLONE` and of the deletion of an account, each over a list that its body
changes. They touch no freed entry and do to the access list what the loops over it do. -/
namespace ChatServices.ChanServ.Heap
open ChatServices.Lib ChatServices.Lib.Mask ChatServices.Lib.Run ChatServices.Lib.Walk ChatServices.Text

section clone
variable {cfg : ChanConfig} {w : World} {s : HeapDb} {mc mc2 : MyChanRef}

def ChanacsHeap.read (h : ChanacsHeap) (r : ChanacsRef) : Option (Target × Chanacs) :=
  (h.objs.find r).map fun o => (o.target, o.entry)

theorem chanacsOf_accessList {h : ChanacsHeap} (hok : ListsOk h) :
    chanacsOf h.accessList mc = (h.chanacs mc).filterMap h.read := by
  rw [chanacsOf, hok.entries, hok.chanacs, Registry.keysWhere, List.filter_map, List.map_map,
    List.filterMap_map]
  rw [← List.filterMap_eq_map]
  refine List.filterMap_congr fun e he => ?_
  have hf := (Registry.find_eq_some_iff ..).mpr (List.mem_of_mem_filter he)
  simp [ChanacsHeap.read, ChanacsObj.key, hf]

theorem cloneDrop_ok (hok : ListsOk s.heap) :
    ∃ s', foreachSafe (HeapDb.chanacs mc2) cloneDrop s = some s' ∧ ListsOk s'.heap ∧
      s' = { s with heap := s'.heap } ∧ s'.heap.accessList = cloneClear mc2 s.heap.accessList := by
  have hbody : ∀ (s : HeapDb) r o, s.heap.objs.find r = some o →
      cloneDrop s r = if !test o.entry.level caFounder then chanacsDelete s r else some s := by
    intro s r o hf
    rw [cloneDrop, hf, Option.bind_some]
    cases test o.entry.level caFounder <;> rfl
  obtain ⟨s', hrun, hok', hothers, hentries⟩ :=
    @foreachSafe_drop s mc2 (fun o => !test o.entry.level caFounder) cloneDrop hbody hok
  refine ⟨s', hrun, hok', hothers, ?_⟩
  exact accessList_dropped hok hok' (fun _ => Iff.rfl) hentries

theorem cloneCopy_ok {r : ChanacsRef} {o : ChanacsObj} (hok : ListsOk s.heap)
    (hf : s.heap.objs.find r = some o) :
    ∃ s', cloneCopy cfg w mc2 s r = some s' ∧ Touched s s' mc2 o.target ∧
      s'.db = cloneEntry cfg w mc2 s.db (o.target, o.entry) := by
  rw [cloneCopy, hf, Option.bind_some, cloneEntry]
  obtain ⟨s', hrun, htouched, hacl⟩ := chanacsChange_ok hok
  refine ⟨s', hrun, htouched, ?_⟩
  rw [HeapDb.db, hacl, htouched.others]
  rfl

theorem cloneCopies_ok (hok : ListsOk s.heap) (hmc : mc ≠ mc2) :
    ∃ s', foreach (HeapDb.chanacs mc) (cloneCopy cfg w mc2) s = some s' ∧ ListsOk s'.heap ∧
      s'.db = (chanacsOf s.db.acl mc).foldl (cloneEntry cfg w mc2) s.db := by
  let I (rest : List ChanacsRef) (s' : HeapDb) : Prop :=
    ListsOk s'.heap ∧ s'.heap.chanacs mc = s.heap.chanacs mc ∧
      (∃ before, s.heap.chanacs mc = before ++ rest) ∧
      (∀ r o, s.heap.objs.find r = some o → o.mychan = mc → s'.heap.objs.find r = some o) ∧
      (rest.filterMap s.heap.read).foldl (cloneEntry cfg w mc2) s'.db =
        (chanacsOf s.db.acl mc).foldl (cloneEntry cfg w mc2) s.db
  have hstart : I (s.heap.chanacs mc) s := by
    refine ⟨hok, rfl, ⟨[], rfl⟩, fun r o hf _ => hf, ?_⟩
    have hacl : s.db.acl = s.heap.accessList := rfl
    rw [hacl, chanacsOf_accessList hok]
  have hstep : ∀ n rest s', I (n :: rest) s' → ∃ s'', cloneCopy cfg w mc2 s' n = some s'' ∧
      I rest s'' ∧ (s''.chanacs mc).Nodup ∧ ∃ before, s''.chanacs mc = before ++ n :: rest := by
    intro n rest s' hI
    obtain ⟨hok', hlist, ⟨before, hbefore⟩, hkeeps, hfold⟩ := hI
    have hmem : n ∈ s.heap.chanacs mc := by
      rw [hbefore]
      exact List.mem_append_right _ (List.mem_cons_self ..)
    obtain ⟨o, hf, homc⟩ := hok.mem_chanacs.mp hmem
    obtain ⟨s'', hrun, htouched, hdb⟩ := @cloneCopy_ok cfg w s' mc2 n o hok' (hkeeps n o hf homc)
    have hlist' : s''.heap.chanacs mc = s.heap.chanacs mc :=
      (htouched.chanacs mc hmc).trans hlist
    have hread : s.heap.read n = some (o.target, o.entry) := by
      rw [ChanacsHeap.read, hf]
      rfl
    refine ⟨s'', hrun, ⟨htouched.lists, hlist', ⟨before ++ [n], by simp [hbefore]⟩, ?_, ?_⟩,
      htouched.lists.nodup_chanacs, before, hlist'.trans hbefore⟩
    · intro r o' hf' homc'
      refine htouched.keeps r o' (hkeeps r o' hf' homc') fun hboth => hmc ?_
      rw [← homc', hboth.1]
    · rw [List.filterMap_cons_some hread, List.foldl_cons] at hfold
      rw [hdb, hfold]
  obtain ⟨s', hrun, hok', -, -, -, hfold⟩ := walkOn_run hstep hstart (le_refl _)
  exact ⟨s', hrun, hok', hfold⟩

theorem chanacsOf_cloneClear {acl : AccessList} (hmc : mc ≠ mc2) :
    chanacsOf (cloneClear mc2 acl) mc = chanacsOf acl mc := by
  rw [chanacsOf, cloneClear, Registry.entries_update_filter, List.filter_filter, chanacsOf]
  congr 1
  refine List.filter_congr fun e _ => ?_
  by_cases he : e.1.1 = mc
  · have hne : e.1.1 ≠ mc2 := fun h => hmc (he ▸ h)
    simp [he, hmc]
  · simp [he]

theorem clonePlan_ne {db : ChanDb} {si : Source} {parv : List CString} {req : CloneRequest}
    (hplan : clonePlan cfg w db si parv = .ok req) : req.mc ≠ req.mc2 := by
  simp only [clonePlan] at hplan
  split at hplan
  · split at hplan
    · cases hplan
    · cases hplan
    · split_ifs at hplan with hne
      cases hplan
      exact hne
  · cases hplan

theorem csCmdClone_ok {si : Source} {parv : List CString} (hok : ListsOk s.heap) :
    ∃ s', csCmdClone cfg w s si parv = some s' ∧ ListsOk s'.heap ∧
      ∃ replies, ChanServ.csCmdClone cfg w s.db si parv = .done s'.db replies := by
  simp only [csCmdClone, ChanServ.csCmdClone]
  cases hplan : clonePlan cfg w s.db si parv with
  | error _ => exact ⟨s, rfl, hok, _, rfl⟩
  | ok req =>
    obtain ⟨s₁, hrun₁, hok₁, hothers₁, hacl₁⟩ := @cloneDrop_ok s req.mc2 hok
    obtain ⟨s₂, hrun₂, hok₂, hdb₂⟩ :=
      @cloneCopies_ok cfg w s₁ req.mc req.mc2 hok₁ (clonePlan_ne hplan)
    have hdb₁ : s₁.db = { s.db with acl := cloneClear req.mc2 s.db.acl } := by
      rw [HeapDb.db, hacl₁, hothers₁]
      rfl
    have hacl : cloneAcl cfg w s.db req.mc req.mc2 = s₂.db := by
      rw [hdb₂, hdb₁, cloneAcl, chanacsOf_cloneClear (clonePlan_ne hplan)]
    dsimp only
    rw [hrun₁, Option.bind_some, hrun₂, hacl]
    exact ⟨_, rfl, hok₂, _, rfl⟩

end clone

section deletion
variable {cfg : ChanConfig} {w : World} {s : HeapDb} {mc : MyChanRef} {mu successor : MyUserRef}

theorem changeSimple_ok {c : Change} (hok : ListsOk s.heap) :
    ∃ s', chanacsChangeSimple cfg w s mc (.entity (.user mu)) c none = some s' ∧
      Touched s s' mc (.entity (.user mu)) ∧ s'.db = changeSimple cfg w mc mu c s.db := by
  obtain ⟨s', hrun, htouched, hacl⟩ := chanacsChange_ok hok
  refine ⟨s', hrun, htouched, ?_⟩
  rw [HeapDb.db, hacl, htouched.others]
  rfl

theorem succeed_ok (hok : ListsOk s.heap) :
    ∃ s', succeed cfg w mc successor s = some s' ∧
      Touched s s' mc (.entity (.user successor)) ∧
      s'.db = ChanServ.succeed cfg w mc successor s.db := by
  obtain ⟨s₁, hrun₁, ht₁, hdb₁⟩ :=
    @changeSimple_ok cfg w s mc successor ⟨caFounder ||| caFlags, 0#32⟩ hok
  obtain ⟨s₂, hrun₂, ht₂, hdb₂⟩ :=
    @changeSimple_ok cfg w s₁ mc successor ⟨customFounderCheck cfg, 0#32⟩ ht₁.lists
  simp only [succeed, ChanServ.succeed]
  rw [hrun₁, Option.bind_some, hrun₂, Option.bind_some, ← hdb₁, ← hdb₂]
  cases cfg.flagConfig.successorFlag with
  | none => exact ⟨s₂, rfl, ht₁.trans ht₂, rfl⟩
  | some flag =>
    obtain ⟨s₃, hrun₃, ht₃, hdb₃⟩ := @changeSimple_ok cfg w s₂ mc successor ⟨0#32, flag⟩ ht₂.lists
    exact ⟨s₃, hrun₃, (ht₁.trans ht₂).trans ht₃, hdb₃⟩

def ChanacsHeap.channel (h : ChanacsHeap) (r : ChanacsRef) : Option MyChanRef :=
  (h.objs.find r).map ChanacsObj.mychan

structure Dropping (s : HeapDb) (mu : MyUserRef) (rest : List ChanacsRef) (s' : HeapDb) : Prop where
  lists : ListsOk s'.heap
  list : s'.heap.entityChanacs (.user mu) = rest
  channel : ∀ r ∈ rest, s'.heap.channel r = s.heap.channel r

theorem Deleted.db {s' : HeapDb} {r : ChanacsRef} {o : ChanacsObj} (hd : Deleted s s' r)
    (hok : ListsOk s.heap) (hf : s.heap.objs.find r = some o) : s'.db = eraseEntry o.key s.db := by
  rw [HeapDb.db, accessList_deleted hok hf hd, hd.others]
  rfl

theorem dropEntry_ok {r : ChanacsRef} {rest : List ChanacsRef} {o : ChanacsObj}
    (hok : ListsOk s.heap) (hlist : s.heap.entityChanacs (.user mu) = r :: rest)
    (hf : s.heap.objs.find r = some o) :
    ∃ s', dropEntry cfg w s r = some s' ∧ Dropping s mu rest s' ∧
      s'.db = ChanServ.dropEntry cfg w mu s.db o.mychan := by
  have hnodup : (r :: rest).Nodup := hlist ▸ hok.nodup_entityChanacs
  have hmem : ∀ r' ∈ r :: rest, ∃ o', s.heap.objs.find r' = some o' ∧
      o'.target = .entity (.user mu) := fun r' hr' => hok.mem_entityChanacs.mp (hlist ▸ hr')
  have htarget : o.target = .entity (.user mu) := by
    obtain ⟨o', hf', ht⟩ := hmem r (List.mem_cons_self ..)
    rw [hf] at hf'
    exact Option.some.inj hf' ▸ ht
  have hsame : ∀ s' : HeapDb, (∀ r' ∈ rest, ∀ o', s.heap.objs.find r' = some o' →
      s'.heap.objs.find r' = some o') → ∀ r' ∈ rest, s'.heap.channel r' = s.heap.channel r' := by
    intro s' hkeep r' hr'
    obtain ⟨o', hf', -⟩ := hmem r' (List.mem_cons_of_mem _ hr')
    rw [ChanacsHeap.channel, hkeep r' hr' o' hf', ChanacsHeap.channel, hf']
  have hkey : o.key = (o.mychan, .entity (.user mu)) := by rw [ChanacsObj.key, htarget]
  have hlevel : levelAt s.db.acl (o.mychan, .entity (.user mu)) = o.entry.level := by
    rw [← hkey]
    exact levelAt_of_find (hok.accessList_of_find hf)
  -- the entry itself goes, from a state that still has it at the head of the list
  have hgone : ∀ s₁ : HeapDb, ListsOk s₁.heap → s₁.heap.entityChanacs (.user mu) = r :: rest →
      (∀ r' ∈ r :: rest, ∀ o', s.heap.objs.find r' = some o' → s₁.heap.objs.find r' = some o') →
      ∃ s', chanacsDelete s₁ r = some s' ∧ Dropping s mu rest s' ∧
        s'.db = eraseEntry (o.mychan, .entity (.user mu)) s₁.db := by
    intro s₁ hok₁ hlist₁ hkeep
    have hf₁ := hkeep r (List.mem_cons_self ..) o hf
    obtain ⟨s', hrun, hd⟩ := chanacsDelete_ok hok₁ hf₁
    refine ⟨s', hrun, ⟨hd.lists, ?_, hsame s' fun r' hr' o' hf' => ?_⟩, hkey ▸ hd.db hok₁ hf₁⟩
    · rw [hd.entityChanacs, hlist₁, List.erase_cons_head]
    · have hne : r' ≠ r := fun heq => (List.nodup_cons.mp hnodup).1 (heq ▸ hr')
      rw [hd.objs, Registry.find_erase, if_neg hne]
      exact hkeep r' (List.mem_cons_of_mem _ hr') o' hf'
  rw [dropEntry, hf, Option.bind_some, ChanServ.dropEntry, hlevel]
  split_ifs with hsole
  · cases hpick : mychanPickSuccessor cfg w s.db o.mychan with
    | some successor =>
      -- the successor is no founder yet, so it is another account
      have hne : successor ≠ mu := by
        intro heq
        have hnot := mychanPickSuccessor_spec hpick
        rw [heq, hlevel] at hnot
        rw [Bool.and_eq_true, test_caFounder] at hsole
        exact hnot hsole.1
      obtain ⟨s₁, hrun₁, ht, hdb₁⟩ := @succeed_ok cfg w s o.mychan successor hok
      have hlist₁ : s₁.heap.entityChanacs (.user mu) = r :: rest := by
        rw [ht.entityChanacs _ fun heq => hne (by cases heq; rfl), hlist]
      obtain ⟨s', hrun, hdrop, hdb⟩ := hgone s₁ ht.lists hlist₁ fun r' hr' o' hf' => by
        refine ht.keeps r' o' hf' fun hboth => hne ?_
        obtain ⟨o'', hf'', ht''⟩ := hmem r' hr'
        rw [hf'] at hf''
        obtain rfl := Option.some.inj hf''
        have hs := hboth.2
        rw [ht''] at hs
        cases hs
        rfl
      dsimp only
      rw [hrun₁, Option.bind_some]
      exact ⟨s', hrun, hdrop, by rw [hdb, hdb₁]⟩
    | none =>
      obtain ⟨s', hrun, hok', hdb, hentries⟩ := @mychanDelete_ok s o.mychan hok
      have hstay : ∀ r' o', s.heap.objs.find r' = some o' → o'.mychan ≠ o.mychan →
          s'.heap.objs.find r' = some o' := by
        intro r' o' hf' hmc
        rw [Registry.find_eq_some_iff, hentries, List.mem_filter]
        exact ⟨(Registry.find_eq_some_iff ..).mp hf', by simpa using hmc⟩
      have hother : ∀ r' ∈ rest, ∀ o', s.heap.objs.find r' = some o' → o'.mychan ≠ o.mychan := by
        intro r' hr' o' hf' hmc
        obtain ⟨o'', hf'', ht''⟩ := hmem r' (List.mem_cons_of_mem _ hr')
        rw [hf'] at hf''
        obtain rfl := Option.some.inj hf''
        have heq := hok.single r' r o' o hf' hf hmc (ht''.trans htarget.symm ▸ sameSubject_refl _)
        exact (List.nodup_cons.mp hnodup).1 (heq ▸ hr')
      refine ⟨s', hrun, ⟨hok', ?_, hsame s' fun r' hr' o' hf' =>
        hstay r' o' hf' (hother r' hr' o' hf')⟩, hdb⟩
      rw [hok'.entityChanacs, Registry.keysWhere_filter hentries, ← hok.entityChanacs, hlist,
        List.filter_cons_of_neg (by simp [hf]), List.filter_eq_self]
      intro r' hr'
      obtain ⟨o', hf', -⟩ := hmem r' (List.mem_cons_of_mem _ hr')
      simpa [hf'] using hother r' hr' o' hf'
  · exact hgone s hok hlist fun _ _ _ h => h

theorem channelsOf_accessList {h : ChanacsHeap} {mt : Entity} (hok : ListsOk h) :
    channelsOf h.accessList mt = (h.entityChanacs mt).filterMap h.channel := by
  rw [channelsOf, hok.entries, hok.entityChanacs, Registry.keysWhere, List.filter_map, List.map_map,
    List.filterMap_map]
  rw [← List.filterMap_eq_map]
  refine List.filterMap_congr fun e he => ?_
  have hf := (Registry.find_eq_some_iff ..).mpr (List.mem_of_mem_filter he)
  simp [ChanacsHeap.channel, ChanacsObj.key, hf]

theorem dropEntries_ok (hok : ListsOk s.heap) :
    ∃ s', foreachSafe (HeapDb.entityChanacs (.user mu)) (dropEntry cfg w) s = some s' ∧
      ListsOk s'.heap ∧ s'.heap.entityChanacs (.user mu) = [] ∧
      s'.db = (channelsOf s.db.acl (.user mu)).foldl (ChanServ.dropEntry cfg w mu) s.db := by
  let I (rest : List ChanacsRef) (s' : HeapDb) : Prop :=
    Dropping s mu rest s' ∧
      (rest.filterMap s.heap.channel).foldl (ChanServ.dropEntry cfg w mu) s'.db =
        (channelsOf s.db.acl (.user mu)).foldl (ChanServ.dropEntry cfg w mu) s.db
  have hstart : I (s.heap.entityChanacs (.user mu)) s := by
    refine ⟨⟨hok, rfl, fun _ _ => rfl⟩, ?_⟩
    have hacl : s.db.acl = s.heap.accessList := rfl
    rw [hacl, channelsOf_accessList hok]
  have hlist : ∀ rest s', I rest s' → (s'.entityChanacs (.user mu)).Nodup ∧
      ∃ before, s'.entityChanacs (.user mu) = before ++ rest :=
    fun rest s' h => ⟨h.1.lists.nodup_entityChanacs, [], h.1.list⟩
  have hstep : ∀ n rest s', I (n :: rest) s' → ∃ s'', dropEntry cfg w s' n = some s'' ∧ I rest s'' := by
    intro n rest s' hI
    obtain ⟨hdrop, hfold⟩ := hI
    have hmem : n ∈ s'.heap.entityChanacs (.user mu) := hdrop.list ▸ List.mem_cons_self ..
    obtain ⟨o, hf, -⟩ := hdrop.lists.mem_entityChanacs.mp hmem
    have hchannel : s.heap.channel n = some o.mychan := by
      rw [← hdrop.channel n (List.mem_cons_self ..), ChanacsHeap.channel, hf]
      rfl
    obtain ⟨s'', hrun, hdrop', hdb⟩ := @dropEntry_ok cfg w s' mu n rest o hdrop.lists hdrop.list hf
    refine ⟨s'', hrun, ⟨hdrop'.lists, hdrop'.list, fun r hr => ?_⟩, ?_⟩
    · exact (hdrop'.channel r hr).trans (hdrop.channel r (List.mem_cons_of_mem _ hr))
    · rw [List.filterMap_cons_some hchannel, List.foldl_cons] at hfold
      rw [hdb, hfold]
  obtain ⟨s', hrun, hdrop, hfold⟩ := walkSafe_run hlist hstep hstart (le_refl _)
  exact ⟨s', hrun, hdrop.lists, hdrop.list, hfold⟩

theorem myuserDelete_ok (hok : ListsOk s.heap) :
    ∃ s', myuserDelete cfg w mu s = some s' ∧ ListsOk s'.heap ∧
      s'.heap.entityChanacs (.user mu) = [] ∧ s'.db = ChanServ.myuserDelete cfg w s.db mu := by
  obtain ⟨s', hrun, hok', hlist, hdb⟩ := @dropEntries_ok cfg w
    { s with groups := s.groups.update (fun _ g => some (g.leave (.user mu))) } mu hok
  rw [myuserDelete, hrun]
  refine ⟨_, rfl, hok', hlist, ?_⟩
  rw [ChanServ.myuserDelete]
  have hdb' : s'.db = (channelsOf s.db.acl (.user mu)).foldl (ChanServ.dropEntry cfg w mu)
    (leaveGroups mu s.db) := hdb
  rw [← hdb']
  rfl

end deletion

/-! Runs of everything that creates, changes or frees access entries. Nothing but the search
before a constructor keeps a subject to one entry on a channel. -/

structure ListsSound (h : ChanacsHeap) : Prop where
  /-- an entry is in the list of its channel once, and in that of no other -/
  channel : ∀ r o, h.objs.find r = some o → ∀ mc, (h.chanacs mc).count r = if mc = o.mychan then 1 else 0
  /-- an entry is in the list of its entity once, if it has one, and in that of no other -/
  entity : ∀ r o, h.objs.find r = some o →
    ∀ mt, (h.entityChanacs mt).count r = if o.target = .entity mt then 1 else 0
  live : ∀ r, (∃ mc, r ∈ h.chanacs mc) ∨ (∃ mt, r ∈ h.entityChanacs mt) → (h.objs.find r).isSome
  single : ∀ r r' o o', h.objs.find r = some o → h.objs.find r' = some o' →
    o.mychan = o'.mychan → SameSubject o.target o'.target → r = r'
  count : h.count = h.objs.entries.length

theorem ListsOk.sound {h : ChanacsHeap} (hok : ListsOk h) : ListsSound h := by
  refine ⟨fun r o hf mc => ?_, fun r o hf mt => ?_, fun r hr => ?_, hok.single, hok.count⟩
  · have hmem : r ∈ h.chanacs mc ↔ mc = o.mychan := by
      rw [hok.mem_chanacs, hf]
      simp [eq_comm]
    rw [List.Nodup.count hok.nodup_chanacs, if_congr hmem rfl rfl]
  · have hmem : r ∈ h.entityChanacs mt ↔ o.target = .entity mt := by
      rw [hok.mem_entityChanacs, hf]
      simp
    rw [List.Nodup.count hok.nodup_entityChanacs, if_congr hmem rfl rfl]
  · obtain ⟨mc, hmem⟩ | ⟨mt, hmem⟩ := hr
    · obtain ⟨o, hf, -⟩ := hok.mem_chanacs.mp hmem
      rw [hf]
      rfl
    · obtain ⟨o, hf, -⟩ := hok.mem_entityChanacs.mp hmem
      rw [hf]
      rfl

inductive AccessEvent where
  | add (mc : MyChanRef) (t : Target) (level : Flags) (ts : Nat) (setter : Option Entity)
  | open (w : World) (mc : MyChanRef) (t : Target) (setter : Option Entity)
  | modify (w : World) (r : ChanacsRef) (c : Change) (restrictflags : Flags) (setter : Option Entity)
  | close (r : ChanacsRef)
  | change (w : World) (mc : MyChanRef) (t : Target) (c : Change) (restrictflags : Flags)
      (setter : Option Entity)
  | clone (w : World) (si : Source) (parv : List CString)
  | drop (mc : MyChanRef)
  | accountDelete (w : World) (mu : MyUserRef)
  /-- accounts, groups and channels change otherwise -/
  | others (accounts : Accounts) (groups : Registry GroupRef MyGroup) (chans : Registry MyChanRef MyChan)

def AccessEvent.exec (cfg : ChanConfig) (s : HeapDb) : AccessEvent → Option HeapDb
  | .add mc t level ts setter => some (chanacsAdd cfg s mc t level ts setter)
  | .open w mc t setter => some (chanacsOpen w s mc t setter).1
  | .modify w r c restrictflags setter => chanacsModify w s r c restrictflags setter
  | .close r => chanacsClose s r
  | .change w mc t c restrictflags setter => chanacsChange cfg w s mc t c restrictflags setter
  | .clone w si parv => csCmdClone cfg w s si parv
  | .drop mc => mychanDelete mc s
  | .accountDelete w mu => myuserDelete cfg w mu s
  | .others accounts groups chans => some ⟨accounts, groups, chans, s.heap⟩

/-- How the events come about: an entry is only made after a search that found none, and only an
entry that was found is changed or closed. -/
def AccessEvent.Searched (s : HeapDb) : AccessEvent → Prop
  | .add mc t _ _ _ => findLiteral s.heap mc t = none
  | .modify _ r _ _ _ => (s.heap.objs.find r).isSome
  | .close r => (s.heap.objs.find r).isSome
  | _ => True

instance (s : HeapDb) : ∀ e : AccessEvent, Decidable (e.Searched s)
  | .add mc t _ _ _ => inferInstanceAs (Decidable (findLiteral s.heap mc t = none))
  | .modify _ r _ _ _ => inferInstanceAs (Decidable ((s.heap.objs.find r).isSome = true))
  | .close r => inferInstanceAs (Decidable ((s.heap.objs.find r).isSome = true))
  | .open .. => inferInstanceAs (Decidable True)
  | .change .. => inferInstanceAs (Decidable True)
  | .clone .. => inferInstanceAs (Decidable True)
  | .drop _ => inferInstanceAs (Decidable True)
  | .accountDelete .. => inferInstanceAs (Decidable True)
  | .others .. => inferInstanceAs (Decidable True)

/-- The state after each event is what is observed; `none` is a touch of freed memory. -/
def heapStep (cfg : ChanConfig) (s : Option HeapDb) (e : AccessEvent) :
    Option HeapDb × List (Option HeapDb) :=
  let s' := s.bind fun s => e.exec cfg s
  (s', [s'])

section runs
variable {cfg : ChanConfig} {s : HeapDb}

theorem exec_ok (hok : ListsOk s.heap) (e : AccessEvent) (he : e.Searched s) :
    ∃ s', e.exec cfg s = some s' ∧ ListsOk s'.heap := by
  cases e with
  | add mc t level ts setter =>
    exact ⟨_, rfl, hok.add fun r o hf hmc => findLiteral_none hok he hf hmc⟩
  | «open» w mc t setter =>
    refine ⟨_, rfl, ?_⟩
    rw [chanacsOpen]
    cases hfind : findLiteral s.heap mc t with
    | some r => exact hok
    | none => exact hok.add fun r o hf hmc => findLiteral_none hok hfind hf hmc
  | modify w r c restrictflags setter =>
    obtain ⟨o, hf⟩ := Option.isSome_iff_exists.mp he
    have hrun : (chanacsModify w s r c restrictflags setter) = some { s with
        heap := s.heap.write r (ChanServ.chanacsModify w s.db o.entry c restrictflags setter).ca } := by
      rw [chanacsModify, hf]
      rfl
    exact ⟨_, hrun, hok.write⟩
  | close r =>
    obtain ⟨o, hf⟩ := Option.isSome_iff_exists.mp he
    obtain ⟨s', hrun, htouched, -⟩ := chanacsClose_ok hok hf
    exact ⟨s', hrun, htouched.lists⟩
  | change w mc t c restrictflags setter =>
    obtain ⟨s', hrun, htouched, -⟩ := chanacsChange_ok hok
    exact ⟨s', hrun, htouched.lists⟩
  | clone w si parv =>
    obtain ⟨s', hrun, hok', -⟩ := csCmdClone_ok hok
    exact ⟨s', hrun, hok'⟩
  | drop mc =>
    obtain ⟨s', hrun, hok', -⟩ := mychanDelete_ok hok
    exact ⟨s', hrun, hok'⟩
  | accountDelete w mu =>
    obtain ⟨s', hrun, hok', -⟩ := myuserDelete_ok hok
    exact ⟨s', hrun, hok'⟩
  | others accounts groups chans => exact ⟨_, rfl, hok⟩

/-- As long as every constructor is called after a search, no event touches a freed entry, and
the lists are sound after each. -/
theorem access_lists_sound (cfg : ChanConfig) (accounts : Accounts)
    (groups : Registry GroupRef MyGroup) (chans : Registry MyChanRef MyChan) (es : List AccessEvent)
    (h : Guarded (heapStep cfg) (fun s e => ∀ s' ∈ s, e.Searched s')
      (some ⟨accounts, groups, chans, .empty⟩) es) :
    ∀ o ∈ (run (heapStep cfg) (some ⟨accounts, groups, chans, .empty⟩) es).2,
      ∃ s, o = some s ∧ ListsSound s.heap := by
  have hstep : ∀ (s : Option HeapDb) (e : AccessEvent), (∃ s', s = some s' ∧ ListsOk s'.heap) →
      (∀ s' ∈ s, e.Searched s') →
      (∃ s', (heapStep cfg s e).1 = some s' ∧ ListsOk s'.heap) ∧
        ∀ o ∈ (heapStep cfg s e).2, ∃ s', o = some s' ∧ ListsSound s'.heap := by
    intro s e hs he
    obtain ⟨s₁, rfl, hok⟩ := hs
    obtain ⟨s', hrun, hok'⟩ := @exec_ok cfg s₁ hok e (he s₁ rfl)
    have hnext : (heapStep cfg (some s₁) e) = (some s', [some s']) := by
      rw [heapStep, Option.bind_some, hrun]
    rw [hnext]
    refine ⟨⟨s', rfl, hok'⟩, fun o ho => ⟨s', ?_, hok'.sound⟩⟩
    exact List.mem_singleton.mp ho
  exact run_guarded_emits hstep ⟨_, rfl, empty_ok⟩ h

end runs

/- Two channels, an entry for an account and one for a hostmask; then a copy, and the deletion of
the account and of the second channel. -/
def heapChans : Registry MyChanRef MyChan :=
  ⟨[(0, sampleChan "#chan" head_chan []), (1, sampleChan "#other" head_other [])], nodup_chan_other⟩

def heapStart : HeapDb := ⟨sampleAccounts 0#32 [], .empty, heapChans, .empty⟩

def heapRun : List AccessEvent :=
  [.add 0 (.entity (.user 0)) (caFounder ||| caAclview) 100 none,
    .add 1 (.entity (.user 0)) caFounder 100 none,
    .open sampleWorld 0 (.host "*!*@host.example".toList) none,
    .modify sampleWorld 2 ⟨caVoice, 0#32⟩ sampleConfig.caAll none,
    .close 2,
    .change sampleWorld 0 (.entity (.user 1)) ⟨caOp, 0#32⟩ sampleConfig.caAll none,
    .clone sampleWorld (.irc sampleUser) ["#chan".toList, "#other".toList],
    .accountDelete sampleWorld 0,
    .drop 1]

theorem access_lists_sound_witness :
    (run (heapStep sampleConfig) (some heapStart) heapRun).2 ≠ [] ∧
      ∀ o ∈ (run (heapStep sampleConfig) (some heapStart) heapRun).2,
        ∃ s, o = some s ∧ ListsSound s.heap := by
  refine ⟨nofun, ?_⟩
  refine access_lists_sound sampleConfig heapStart.accounts heapStart.groups heapChans heapRun ?_
  decide

/-- The constructors themselves look for nothing: called twice they make two entries. -/
theorem add_does_not_search :
    ¬ ∀ o ∈ (run (heapStep sampleConfig) (some heapStart)
      [.add 0 (.entity (.user 0)) caOp 100 none, .add 0 (.entity (.user 0)) caVoice 200 none]).2,
      ∃ s, o = some s ∧ ListsSound s.heap := by
  intro h
  obtain ⟨s, hs, hsound⟩ := h _ (.tail _ (.head _))
  obtain rfl := Option.some.inj hs
  exact absurd (hsound.single 0 1 _ _ rfl rfl rfl rfl) (by decide)

end ChatServices.ChanServ.Heap
