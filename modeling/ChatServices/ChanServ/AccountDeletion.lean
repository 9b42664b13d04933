import ChatServices.ChanServ.AccountEntries

/-! The deletion of an account, from any state that the rest of the program can reach: nothing
points to the account afterwards, and its channels have the chosen successor or are gone. -/
namespace ChatServices.ChanServ.Tables
open ChatServices.Lib ChatServices.Lib.Mask ChatServices.Lib.Run ChatServices.Lib.Walk
open ChatServices.Text ChatServices.ChanServ.Heap

/-! ### Access entries -/

section entries
variable {cfg : ChanConfig} {w : World} {s : ServDb} {h : HeapDb} {mu : MyUserRef}

theorem TablesOk.with_heap (hok : TablesOk cfg s) (hentries : EntriesOk cfg (s.withHeap h)) :
    TablesOk cfg (s.withHeap h) :=
  ⟨⟨hok.names.accountlist, hok.names.entities, hok.names.entitiesById⟩,
    ⟨hok.logins.online, hok.logins.listed, hok.logins.nodup⟩, hok.sopers.mono (fun _ => id) rfl rfl,
    hok.records.mono (fun _ => id) rfl rfl rfl, hentries⟩

theorem TablesOk.grows {p : Entity → Prop} (hok : TablesOk cfg s) (hlists : ListsOk h.heap)
    (hgrows : AclGrows cfg s.heap.accessList h.heap.accessList p)
    (hlive : ∀ mu, p (.user mu) → Live s.users mu) : TablesOk cfg (s.withHeap h) := by
  refine hok.with_heap ⟨hlists, hgrows.known hok.entries.known, fun mc mu hsome => ?_⟩
  obtain ⟨mc', hold⟩ | hp := hgrows.entity mc (.user mu) hsome
  · exact hok.entries.entity mc' mu hold
  · exact hlive mu hp

/-- What the callers see to: entries are for accounts that exist, flags are those of `ca_all`.
Accounts are deleted by an event of their own. -/
def AccessPromised (cfg : ChanConfig) (s : ServDb) : AccessEvent → Prop
  | .add _ t _ _ _ => ∀ mu, t = .entity (.user mu) → Live s.users mu
  | .open _ _ t _ => ∀ mu, t = .entity (.user mu) → Live s.users mu
  | .modify _ _ c _ _ => Sub c.add cfg.caAll
  | .change _ _ t c _ _ => (∀ mu, t = .entity (.user mu) → Live s.users mu) ∧ Sub c.add cfg.caAll
  | .accountDelete .. => False
  | .others .. => False
  | _ => True

instance (users : Registry MyUserRef MyUser) (mu : MyUserRef) : Decidable (Live users mu) :=
  inferInstanceAs (Decidable ((users.find mu).isSome = true))

instance (users : Registry MyUserRef MyUser) :
    ∀ t : Target, Decidable (∀ mu, t = .entity (.user mu) → Live users mu)
  | .entity (.user mu) => decidable_of_iff (Live users mu) ⟨fun h _ heq => by cases heq; exact h,
      fun h => h mu rfl⟩
  | .entity (.group _) => isTrue nofun
  | .entity (.ext _) => isTrue nofun
  | .host _ => isTrue nofun

instance (cfg : ChanConfig) (s : ServDb) : ∀ e : AccessEvent, Decidable (AccessPromised cfg s e)
  | .add _ t _ _ _ => inferInstanceAs (Decidable (∀ mu, t = .entity (.user mu) → Live s.users mu))
  | .open _ _ t _ => inferInstanceAs (Decidable (∀ mu, t = .entity (.user mu) → Live s.users mu))
  | .modify _ _ c _ _ => inferInstanceAs (Decidable (Sub c.add cfg.caAll))
  | .change _ _ t c _ _ => inferInstanceAs
      (Decidable ((∀ mu, t = .entity (.user mu) → Live s.users mu) ∧ Sub c.add cfg.caAll))
  | .accountDelete .. => inferInstanceAs (Decidable False)
  | .others .. => inferInstanceAs (Decidable False)
  | .close _ => inferInstanceAs (Decidable True)
  | .clone .. => inferInstanceAs (Decidable True)
  | .drop _ => inferInstanceAs (Decidable True)

theorem access_ok (hok : TablesOk cfg s) (e : AccessEvent) (hsearched : e.Searched s.heapDb)
    (hpromised : AccessPromised cfg s e) :
    ∃ h, e.exec cfg s.heapDb = some h ∧ TablesOk cfg (s.withHeap h) := by
  have hlists : ListsOk s.heap := hok.entries.lists
  obtain ⟨h, hrun, hlists'⟩ := @exec_ok cfg s.heapDb hlists e hsearched
  refine ⟨h, hrun, ?_⟩
  have hnever : ∀ mu : MyUserRef, False → Live s.users mu := fun _ => False.elim
  cases e with
  | add mc t level ts setter =>
    obtain rfl := Option.some.inj hrun
    refine hok.grows hlists' (p := fun mt => t = .entity mt) ?_ fun mu hp => hpromised mu hp
    have hgrows := @grows_insertNew cfg s.heap.accessList (fun mt => t = .entity mt) (mc, t)
      ⟨level &&& cfg.caAll, ts, setterUid s.heapDb.db setter, []⟩
      ((sub_iff _ _).mpr fun i hi => ((has_and _ _ i).mp hi).2) fun mt => id
    rwa [← accessList_add hlists] at hgrows
  | «open» w mc t setter =>
    obtain rfl := Option.some.inj hrun
    refine hok.grows hlists' (p := fun mt => t = .entity mt) ?_ fun mu hp => hpromised mu hp
    rw [Heap.chanacsOpen]
    split
    · exact .refl
    · have hgrows := @grows_insertNew cfg s.heap.accessList (fun mt => t = .entity mt) (mc, t)
        (newEntry w s.heapDb.db setter) (zero_sub _) fun mt => id
      rwa [← accessList_add hlists] at hgrows
  | modify w r c restrictflags setter =>
    obtain ⟨o, hf⟩ := Option.isSome_iff_exists.mp hsearched
    replace hf : s.heap.objs.find r = some o := hf
    have hfind : s.heapDb.heap.objs.find r = some o := hf
    rw [AccessEvent.exec, Heap.chanacsModify, hfind] at hrun
    obtain rfl := Option.some.inj hrun
    refine hok.grows hlists' (p := fun _ => False) ?_ hnever
    have hgrows : AclGrows cfg s.heap.accessList (s.heap.accessList.set o.key
        (ChanServ.chanacsModify w s.heapDb.db o.entry c restrictflags setter).ca) (fun _ => False) := by
      refine grows_set fun hk => chanacsModify_known hpromised ?_
      have hlevel := hk o.key
      rwa [levelAt_of_find (hlists.accessList_of_find hf)] at hlevel
    rwa [← accessList_write hlists hf] at hgrows
  | close r =>
    obtain ⟨o, hf⟩ := Option.isSome_iff_exists.mp hsearched
    obtain ⟨h', hrun', -, hacl⟩ := @chanacsClose_ok s.heapDb r o hlists hf
    rw [AccessEvent.exec, hrun'] at hrun
    obtain rfl := Option.some.inj hrun
    refine hok.grows hlists' (p := fun _ => False) ?_ hnever
    rw [hacl]
    exact grows_close
  | change w mc t c restrictflags setter =>
    obtain ⟨h', hrun', -, hacl⟩ := @chanacsChange_ok cfg w s.heapDb mc t c restrictflags setter hlists
    rw [AccessEvent.exec, hrun'] at hrun
    obtain rfl := Option.some.inj hrun
    refine hok.grows hlists' (p := fun mt => t = .entity mt) ?_ fun mu hp => hpromised.1 mu hp
    rw [hacl]
    have hgrows : AclGrows cfg s.heapDb.db.acl
        (ChanServ.chanacsChange cfg w s.heapDb.db mc t c restrictflags setter)
        (fun mt => t = .entity mt) := grows_chanacsChange hpromised.2 fun _ => id
    exact hgrows
  | clone w si parv =>
    obtain ⟨h', hrun', -, replies, hdb⟩ := @csCmdClone_ok cfg w s.heapDb si parv hlists
    rw [AccessEvent.exec, hrun'] at hrun
    obtain rfl := Option.some.inj hrun
    exact hok.grows hlists' (grows_csCmdClone hdb) hnever
  | drop mc =>
    obtain ⟨h', hrun', -, hdb, -⟩ := @mychanDelete_ok s.heapDb mc hlists
    rw [AccessEvent.exec, hrun'] at hrun
    obtain rfl := Option.some.inj hrun
    have hgrows : AclGrows cfg s.heapDb.db.acl h'.db.acl (fun _ => False) := by
      rw [hdb]
      exact grows_mychanDelete
    exact hok.grows hlists' hgrows hnever
  | accountDelete w mu => exact hpromised.elim
  | others accounts groups chans => exact hpromised.elim

theorem dropEntries_tables (hok : TablesOk cfg s) :
    ∃ h : HeapDb, dropEntries cfg w mu s = some (s.withHeap h) ∧ TablesOk cfg (s.withHeap h) ∧
      h.heap.entityChanacs (.user mu) = [] ∧ h.db = (channelsOf s.heap.accessList (.user mu)).foldl
        (ChanServ.dropEntry cfg w mu) s.heapDb.db := by
  obtain ⟨h, hrun, hlists, hnil, hdb⟩ := @dropEntries_ok cfg w s.heapDb mu hok.entries.lists
  refine ⟨h, by rw [dropEntries, hrun]; rfl, ?_, hnil, hdb⟩
  have hgrows : AclGrows cfg s.heapDb.db.acl h.db.acl (fun _ => False) := by
    rw [hdb]
    exact grows_dropEntries _ _ hok.entries.known
  exact hok.grows hlists hgrows fun _ => False.elim

end entries

/-! ### The deletion of an account -/

structure NoPointers (mu : MyUserRef) (s : ServDb) : Prop where
  online : ∀ uid, s.online.find uid ≠ some (some mu)
  entityChanacs : s.heap.entityChanacs (.user mu) = []
  chanacs : ∀ r o, s.heap.objs.find r = some o → o.target ≠ .entity (.user mu)
  soperlist : ∀ r sp, s.soperlist.find r = some sp → sp.myuser ≠ some mu
  authcookies : ∀ r ac, s.authcookies.find r = some ac → ac.myuser ≠ mu
  certfps : ∀ r mcfp, s.certfps.objs.find r = some mcfp → mcfp.mu ≠ mu
  nicks : ∀ r mn, s.nicks.objs.find r = some mn → mn.owner ≠ mu

structure Unreferenced (mu : MyUserRef) (s : ServDb) : Prop extends NoPointers mu s where
  accountlist : ∀ k, s.accountlist.find k ≠ some mu
  entities : ∀ k, s.entities.find k ≠ some (.user mu)
  entitiesById : ∀ k, s.entitiesById.find k ≠ some (.user mu)
  groups : ∀ mg g, s.groups.find mg = some g → ∀ ga ∈ g.acs, ga.mt ≠ .user mu
  lists : ListsSound s.heap
  nicklist : ∀ k r, s.nicks.index.find k = some r → (s.nicks.objs.find r).isSome
  certfplist : ∀ k r, s.certfps.index.find k = some r → (s.certfps.objs.find r).isSome

/-- What becomes of the access lists. The successor is the one that is chosen when the loop comes
to the channel, from the state `db` in which the loop starts. -/
structure ChannelsKept (cfg : ChanConfig) (w : World) (mu : MyUserRef) (db : ChanDb) (s s' : ServDb) :
    Prop where
  sole : ∀ mc, SoleFounder s.heap.accessList mc mu →
    match chosenSuccessor cfg w mu mc db (channelsOf s.heap.accessList (.user mu)) with
    | some successor => Has (levelAt s'.heap.accessList (mc, .entity (.user successor))) 13
    | none => s'.chans.find mc = none ∧ s'.heap.chanacs mc = [] ∧
        ∀ r o, s'.heap.objs.find r = some o → o.mychan ≠ mc
  others : ∀ mc t, ¬ SoleFounder s.heap.accessList mc mu → t ≠ .entity (.user mu) →
    s'.heap.accessList.find (mc, t) = s.heap.accessList.find (mc, t)

theorem mem_channelsOf {acl : AccessList} {mt : Entity} {mc : MyChanRef} :
    mc ∈ channelsOf acl mt ↔ (acl.find (mc, .entity mt)).isSome := by
  rw [Option.isSome_iff_exists]
  simp only [Registry.find_eq_some_iff, channelsOf, List.mem_map, List.mem_filter,
    decide_eq_true_eq, Prod.exists]
  constructor
  · intro h
    obtain ⟨mc', t, ca, ⟨hmem, ht⟩, rfl⟩ := h
    obtain rfl : t = .entity mt := ht
    exact ⟨ca, hmem⟩
  · intro h
    obtain ⟨ca, hmem⟩ := h
    exact ⟨mc, .entity mt, ca, ⟨hmem, rfl⟩, rfl⟩

theorem nodup_channelsOf (acl : AccessList) (mt : Entity) : (channelsOf acl mt).Nodup := by
  have hkeys : ((acl.entries.filter (fun e => e.1.2 = .entity mt)).map Prod.fst).Nodup :=
    acl.nodup.sublist (List.filter_sublist.map _)
  rw [channelsOf]
  refine (List.nodup_map_iff_inj_on (List.Nodup.of_map _ hkeys)).mpr fun x hx y hy hxy => ?_
  have hsnd : x.1.2 = y.1.2 := by
    have hx' := (List.mem_filter.mp hx).2
    have hy' := (List.mem_filter.mp hy).2
    rw [decide_eq_true_eq] at hx' hy'
    rw [hx', hy']
  exact List.inj_on_of_nodup_map hkeys hx hy (Prod.ext hxy hsnd)

section deletion
variable {cfg : ChanConfig} {lc : LogoutConfig} {w : World} {s s' : ServDb} {mu : MyUserRef}

theorem groupsLeave_ok (h : TablesOk cfg s) : TablesOk cfg (groupsLeave mu s) :=
  ⟨⟨h.names.accountlist, h.names.entities, h.names.entitiesById⟩,
    ⟨h.logins.online, h.logins.listed, h.logins.nodup⟩, h.sopers.mono (fun _ => id) rfl rfl,
    h.records.mono (fun _ => id) rfl rfl rfl, h.entries.mono (fun _ => id) rfl⟩

theorem groupsLeave_left {mg : GroupRef} {g : MyGroup}
    (hf : (groupsLeave mu s).groups.find mg = some g) : ∀ ga ∈ g.acs, ga.mt ≠ .user mu := by
  rw [groupsLeave, Registry.find_update] at hf
  obtain ⟨g', -, heq⟩ := Option.bind_eq_some_iff.mp hf
  obtain rfl := Option.some.inj heq
  intro ga hga
  simpa using (List.mem_filter.mp hga).2

theorem myuserFree_ok (h : TablesOk cfg s) (hmu : Live s.users mu) (hgone : NoPointers mu s) :
    ∃ s', myuserFree cfg mu s = some s' ∧ TablesOk cfg s' ∧ NoPointers mu s' ∧
      (∀ k, s'.accountlist.find k ≠ some mu) ∧ (∀ k, s'.entities.find k ≠ some (.user mu)) ∧
      (∀ k, s'.entitiesById.find k ≠ some (.user mu)) ∧
      s'.heapDb = { s.heapDb with accounts := s'.heapDb.accounts } := by
  obtain ⟨o, ho⟩ := Option.isSome_iff_exists.mp hmu
  obtain ⟨haccount, hentity, hid⟩ := h.names.forget ho
  have hold : ∀ {α : Type} {t : Registry CString α} {k k' : CString} {a : α},
      (t.erase k).find k' = some a → t.find k' = some a := by
    intro α t k k' a hk
    rw [Registry.find_erase] at hk
    split_ifs at hk
    exact hk
  have hfind : ∀ m, m ≠ mu → (s.users.erase mu).find m = s.users.find m := by
    intro m hm
    rw [Registry.find_erase, if_neg hm]
  have hlive : ∀ m, m ≠ mu → Live s.users m → Live (s.users.erase mu) m := by
    intro m hm hl
    rwa [Live, hfind m hm]
  have hlogins : ∀ m, m ≠ mu → loginsOf m { s with users := s.users.erase mu } = loginsOf m s := by
    intro m hm
    rw [loginsOf, hfind m hm, loginsOf]
  have hnone : loginsOf mu { s with users := s.users.erase mu } = [] := by
    rw [loginsOf, Registry.find_erase, if_pos rfl]
    rfl
  rw [myuserFree, ho]
  refine ⟨_, rfl, ⟨⟨fun k m hk => ?_, fun k m hk => ?_, fun k m hk => ?_⟩,
    ⟨fun uid m hm => ?_, fun m u hu => ?_, fun m => ?_⟩, fun r sp m hf hm => ?_,
    ⟨h.records.nicks, fun r mn hf => ?_, h.records.certfps, fun r mcfp hf => ?_, fun r ac hf => ?_⟩,
    ⟨h.entries.lists, h.entries.known, fun mc m hk => ?_⟩⟩, ⟨hgone.online, hgone.entityChanacs,
    hgone.chanacs, hgone.soperlist, hgone.authcookies, hgone.certfps, hgone.nicks⟩, haccount, hentity,
    hid, rfl⟩
  · obtain ⟨o', ho', hname⟩ := h.names.accountlist k m (hold hk)
    exact ⟨o', (hfind m fun heq => haccount k (heq ▸ hk)).trans ho', hname⟩
  · obtain ⟨o', ho', hname⟩ := h.names.entities k m (hold hk)
    exact ⟨o', (hfind m fun heq => hentity k (heq ▸ hk)).trans ho', hname⟩
  · obtain ⟨o', ho', hname⟩ := h.names.entitiesById k m (hold hk)
    exact ⟨o', (hfind m fun heq => hid k (heq ▸ hk)).trans ho', hname⟩
  · obtain ⟨u, hu, huid⟩ := h.logins.online uid m hm
    exact ⟨u, (hlogins m fun heq => hgone.online uid (heq ▸ hm)).symm ▸ hu, huid⟩
  · have hm : m ≠ mu := by
      intro heq
      subst heq
      have hu' : u ∈ loginsOf m { s with users := s.users.erase m } := hu
      rw [hnone] at hu'
      cases hu'
    exact h.logins.listed m u ((hlogins m hm) ▸ hu)
  · by_cases hm : m = mu
    · subst hm
      show ((loginsOf m { s with users := s.users.erase m }).map User.uid).Nodup
      rw [hnone]
      exact List.nodup_nil
    · show ((loginsOf m { s with users := s.users.erase mu }).map User.uid).Nodup
      rw [hlogins m hm]
      exact h.logins.nodup m
  · obtain ⟨hl, hback⟩ := h.sopers r sp m hf hm
    exact ⟨hlive m (fun heq => hgone.soperlist r sp hf (heq ▸ hm)) hl, hback⟩
  · exact hlive _ (hgone.nicks r mn hf) (h.records.nickOwner r mn hf)
  · exact hlive _ (hgone.certfps r mcfp hf) (h.records.certfpMu r mcfp hf)
  · exact hlive _ (hgone.authcookies r ac hf) (h.records.authcookies r ac hf)
  · refine hlive m (fun heq => ?_) (h.entries.entity mc m hk)
    obtain ⟨ca, hca⟩ := Option.isSome_iff_exists.mp hk
    obtain ⟨r, o', ho', hkey, -⟩ := h.entries.lists.find_accessList.mp hca
    exact hgone.chanacs r o' ho' (heq ▸ (congrArg Prod.snd hkey))

/-- The cookies, fingerprints and nicks of an account go all together. -/
theorem records_dropped (h : TablesOk cfg s) (mu : MyUserRef) :
    ∃ certfps nicks, s.certfps.deleteAll MyCertfp.mu certfpKey mu = some certfps ∧
      s.nicks.deleteAll MyNick.owner (nickKey cfg) mu = some nicks ∧
      TablesOk cfg { authcookieDestroyAll mu s with certfps := certfps, nicks := nicks } ∧
      (∀ r ac, (authcookieDestroyAll mu s).authcookies.find r = some ac → ac.myuser ≠ mu) ∧
      (∀ r mcfp, certfps.objs.find r = some mcfp → mcfp.mu ≠ mu) ∧
      ∀ r mn, nicks.objs.find r = some mn → mn.owner ≠ mu := by
  obtain ⟨certfps, hruncerts, hokcerts, hcerts⟩ := @Owned.Ok.deleteAll _ _ _ _ _ _ _ _ _ _ mu
    h.records.certfps
  obtain ⟨nicks, hrunnicks, hoknicks, hnicks⟩ := @Owned.Ok.deleteAll _ _ _ _ _ _ _ _ _ _ mu
    h.records.nicks
  have hcookies : ∀ r ac, (authcookieDestroyAll mu s).authcookies.find r = some ac →
      s.authcookies.find r = some ac ∧ ac.myuser ≠ mu := by
    intro r ac hf
    replace hf : (s.authcookies.update fun _ ac => if ac.myuser = mu then none else some ac).find r =
      some ac := hf
    rw [Registry.find_update] at hf
    obtain ⟨ac', hac', heq⟩ := Option.bind_eq_some_iff.mp hf
    split_ifs at heq with hne
    obtain rfl := Option.some.inj heq
    exact ⟨hac', hne⟩
  refine ⟨certfps, nicks, hruncerts, hrunnicks, ?_, fun r ac hf => (hcookies r ac hf).2,
    fun r mcfp hf => ((hcerts r mcfp).mp hf).2, fun r mn hf => ((hnicks r mn).mp hf).2⟩
  exact h.with_records
    ⟨hoknicks, fun r mn hf => h.records.nickOwner r mn ((hnicks r mn).mp hf).1, hokcerts,
      fun r mcfp hf => h.records.certfpMu r mcfp ((hcerts r mcfp).mp hf).1,
      fun r ac hf => h.records.authcookies r ac (hcookies r ac hf).1⟩

theorem sole_mem_channelsOf {acl : AccessList} {mc : MyChanRef} (h : SoleFounder acl mc mu) :
    mc ∈ channelsOf acl (.user mu) := by
  rw [mem_channelsOf]
  by_contra hnone
  rw [SoleFounder, levelAt, Option.not_isSome_iff_eq_none.mp hnone] at h
  rw [Bool.and_eq_true] at h
  exact absurd h.1 (by decide)

theorem no_chanacs_of_acl {d : HeapDb} {mc : MyChanRef} (h : ListsOk d.heap)
    (hfind : ∀ t, d.db.acl.find (mc, t) = none) :
    d.heap.chanacs mc = [] ∧ ∀ r o, d.heap.objs.find r = some o → o.mychan ≠ mc := by
  have hno : ∀ r o, d.heap.objs.find r = some o → o.mychan ≠ mc := by
    intro r o hf hmc
    have hentry : d.db.acl.find (mc, o.target) = some o.entry := by
      have hkey := h.accessList_of_find hf
      rw [ChanacsObj.key, hmc] at hkey
      exact hkey
    rw [hfind o.target] at hentry
    cases hentry
  refine ⟨List.eq_nil_iff_forall_not_mem.mpr fun r hr => ?_, hno⟩
  obtain ⟨o, hf, hmc⟩ := h.mem_chanacs.mp hr
  exact hno r o hf hmc

theorem myuserDelete_ok (h : TablesOk cfg s) (hmu : Live s.users mu)
    (hdone : lingering lc mu s = []) :
    ∃ s₁ s', logoutAll lc w.currtime mu (groupsLeave mu s) = some s₁ ∧
      myuserDelete cfg lc w mu s = some s' ∧ TablesOk cfg s' ∧ Unreferenced mu s' ∧
      ChannelsKept cfg w mu s₁.heapDb.db s s' := by
  obtain ⟨s₁, hrun₁, hlog, hlogins⟩ := @logoutAll_ok cfg (groupsLeave mu s) mu w.currtime lc
    (groupsLeave_ok h)
  have hnil : loginsOf mu s₁ = [] := hlogins.trans hdone
  obtain ⟨d, hrun₂, hok₂, hentries, hdb⟩ := @dropEntries_tables cfg w s₁ mu hlog.ok
  obtain ⟨s₃, hrun₃, hsoper, hnone⟩ := @soperDrop_ok cfg (s₁.withHeap d) mu hok₂
  obtain ⟨certfps, nicks, hrun₅, hrun₆, hok₆, hcookies, hcerts, hnicks⟩ := records_dropped hsoper.ok mu
  -- what the steps have changed
  have hs₁ := hlog.others
  have hs₃ := hsoper.others
  have husers : s₃.users = s₁.users := by
    rw [hs₃]
    rfl
  have honline : s₃.online = s₁.online := by
    rw [hs₃]
    rfl
  have hheap : s₃.heap = d.heap := by
    rw [hs₃]
    rfl
  have hchans : s₃.chans = d.chans := by
    rw [hs₃]
    rfl
  have hgroups : s₃.groups = (groupsLeave mu s).groups := by
    rw [hs₃, hs₁]
    rfl
  have hheap₁ : s₁.heap = s.heap := by
    rw [hs₁]
    rfl
  let s₆ : ServDb := { authcookieDestroyAll mu s₃ with certfps := certfps, nicks := nicks }
  have hlive : Live s₆.users mu := by
    show Live s₃.users mu
    rw [husers, hlog.live]
    exact hmu
  have hgone : NoPointers mu s₆ := by
    refine ⟨fun uid hm => ?_, ?_, fun r o hf ht => ?_, hnone, hcookies, hcerts, hnicks⟩
    · replace hm : s₃.online.find uid = some (some mu) := hm
      rw [honline] at hm
      obtain ⟨u, hu, -⟩ := hlog.ok.logins.online uid mu hm
      rw [hnil] at hu
      cases hu
    · show s₃.heap.entityChanacs (.user mu) = []
      rw [hheap, hentries]
    · replace hf : s₃.heap.objs.find r = some o := hf
      rw [hheap] at hf
      have hmem : r ∈ d.heap.entityChanacs (.user mu) :=
        hok₂.entries.lists.mem_entityChanacs.mpr ⟨o, hf, ht⟩
      rw [hentries] at hmem
      cases hmem
  have hacl : s.heap.accessList = s₁.heapDb.db.acl := by
    show s.heap.accessList = s₁.heap.accessList
    rw [hheap₁]
  rw [hheap₁] at hdb
  obtain ⟨s', hrun₇, hok', hgone', haccount, hentity, hid, hheap'⟩ := myuserFree_ok hok₆ hlive hgone
  have hheap₇ : s'.heap = d.heap := by
    have h₇ : s'.heap = s₃.heap := congrArg HeapDb.heap hheap'
    rw [h₇, hheap]
  have hchans₇ : s'.chans = d.chans := by
    have h₇ : s'.chans = s₃.chans := congrArg HeapDb.chans hheap'
    rw [h₇, hchans]
  have hgroups₇ : s'.groups = (groupsLeave mu s).groups := by
    have h₇ : s'.groups = s₃.groups := congrArg HeapDb.groups hheap'
    rw [h₇, hgroups]
  refine ⟨s₁, s', hrun₁, ?_, hok', ⟨hgone', haccount, hentity, hid, fun mg g hf => ?_,
    hok'.entries.lists.sound, fun k r hk => ?_, fun k r hk => ?_⟩, ⟨fun mc hsole => ?_,
    fun mc t hnot ht => ?_⟩⟩
  · rw [myuserDelete, hrun₁, Option.bind_some, hrun₂, Option.bind_some, hrun₃, Option.bind_some]
    show (s₃.certfps.deleteAll MyCertfp.mu certfpKey mu).bind _ = some s'
    rw [hrun₅, Option.bind_some]
    show (s₃.nicks.deleteAll MyNick.owner (nickKey cfg) mu).bind _ = some s'
    rw [hrun₆, Option.bind_some]
    exact hrun₇
  · rw [hgroups₇] at hf
    exact groupsLeave_left hf
  · obtain ⟨mn, hmn, -⟩ := hok'.records.nicks.index k r hk
    rw [hmn]
    rfl
  · obtain ⟨mcfp, hmcfp, -⟩ := hok'.records.certfps.index k r hk
    rw [hmcfp]
    rfl
  · have hdrop := @dropEntries_sole cfg w mc mu (channelsOf s.heap.accessList (.user mu)) s₁.heapDb.db
      (nodup_channelsOf _ _) (sole_mem_channelsOf hsole) hlog.ok.entries.known (hacl ▸ hsole)
    rw [← hdb] at hdrop
    cases hpick : chosenSuccessor cfg w mu mc s₁.heapDb.db (channelsOf s.heap.accessList (.user mu)) with
    | some successor =>
      rw [hpick] at hdrop
      dsimp only at hdrop ⊢
      rw [hheap₇]
      exact hdrop
    | none =>
      rw [hpick] at hdrop
      obtain ⟨hchan, hfind⟩ := hdrop
      dsimp only
      rw [hchans₇, hheap₇]
      exact ⟨hchan, no_chanacs_of_acl hok₂.entries.lists hfind⟩
  · have hkept := @dropEntries_kept cfg w mu (mc, t) (channelsOf s.heap.accessList (.user mu))
      s₁.heapDb.db (nodup_channelsOf _ _) (hacl ▸ hnot) ht
    rw [← hdb] at hkept
    rw [hheap₇, hacl]
    exact hkept

theorem soperDrop_online (h : soperDrop mu s = some s') : s'.online = s.online := by
  rw [soperDrop] at h
  split_ifs at h
  · split at h
    · obtain rfl := Option.some.inj h
      rfl
    · rw [soperDelete] at h
      obtain ⟨sp, -, h⟩ := Option.bind_eq_some_iff.mp h
      dsimp only at h
      split at h
      · obtain rfl := Option.some.inj h
        rfl
      · obtain ⟨o, -, rfl⟩ := Option.map_eq_some_iff.mp h
        rfl
  · obtain rfl := Option.some.inj h
    rfl

/-- Only the first loop of the deletion has to do with the users. -/
theorem myuserDelete_online {s₁ : ServDb}
    (hlog : logoutAll lc w.currtime mu (groupsLeave mu s) = some s₁)
    (h : myuserDelete cfg lc w mu s = some s') : s'.online = s₁.online := by
  rw [myuserDelete, hlog, Option.bind_some] at h
  obtain ⟨s₂, hdrop, h⟩ := Option.bind_eq_some_iff.mp h
  obtain ⟨s₃, hsoper, h⟩ := Option.bind_eq_some_iff.mp h
  obtain ⟨certfps, -, h⟩ := Option.bind_eq_some_iff.mp h
  obtain ⟨nicks, -, h⟩ := Option.bind_eq_some_iff.mp h
  obtain ⟨o, -, rfl⟩ := Option.map_eq_some_iff.mp h
  obtain ⟨d, -, rfl⟩ := Option.map_eq_some_iff.mp hdrop
  have honline := soperDrop_online hsoper
  exact honline

/-- Nothing points to the account once it is deleted, and its channels are seen to. -/
def Unwinds (cfg : ChanConfig) (lc : LogoutConfig) (w : World) (mu : MyUserRef) (s : ServDb) : Prop :=
  ∃ s₁ s', logoutAll lc w.currtime mu (groupsLeave mu s) = some s₁ ∧
    myuserDelete cfg lc w mu s = some s' ∧ Unreferenced mu s' ∧
    ChannelsKept cfg w mu s₁.heapDb.db s s'

theorem unwinds_iff (h : TablesOk cfg s) (hmu : Live s.users mu) :
    Unwinds cfg lc w mu s ↔ lingering lc mu s = [] := by
  constructor
  · rintro ⟨s₁, s', hrun, hdelete, hgone, -⟩
    obtain ⟨s₂, hrun₂, hlog, hlogins⟩ := @logoutAll_ok cfg (groupsLeave mu s) mu w.currtime lc
      (groupsLeave_ok h)
    rw [hrun] at hrun₂
    obtain rfl := Option.some.inj hrun₂
    refine List.eq_nil_iff_forall_not_mem.mpr fun u hu => ?_
    have hlisted : u ∈ loginsOf mu s₁ := by
      rw [hlogins]
      exact hu
    refine hgone.online u.uid ?_
    rw [myuserDelete_online hrun hdelete]
    exact hlog.ok.logins.listed mu u hlisted
  · intro hdone
    obtain ⟨s₁, s', hrun, hdelete, -, hgone, hkept⟩ := @myuserDelete_ok cfg lc w s mu h hmu hdone
    exact ⟨s₁, s', hrun, hdelete, hgone, hkept⟩

end deletion

end ChatServices.ChanServ.Tables
