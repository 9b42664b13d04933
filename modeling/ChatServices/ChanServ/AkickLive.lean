import ChatServices.ChanServ.AkickArmed

/-! Timeouts stand for temporary AKICKs that are there, as long as only the AKICK commands take
them off: FLAGS, CLONE, the drop of a channel and the deletion of an account leave the
timeouts of what they remove. -/
namespace ChatServices.ChanServ
open ChatServices.Lib ChatServices.Lib.Mask ChatServices.Lib.MaskUpdate ChatServices.Lib.Deadline
open ChatServices.Lib.Run ChatServices.Text

/-! ### Entities -/

def Entity.Live (db : ChanDb) : Entity → Prop
  | .user mu => (db.accounts.get mu).isSome
  | .group mg => (db.groups.find mg).isSome
  | .ext _ => True

def NicksOwned (db : ChanDb) : Prop :=
  ∀ mn ∈ db.accounts.nicks, (db.accounts.get mn.owner).isSome

section entities
variable {cfg : ChanConfig} {w : World} {db db' : ChanDb} {name : CString} {mt : Entity}
  {mu : MyUserRef}

theorem get_of_find {p : MyUserRef × MyUser → Bool}
    (h : (db.accounts.users.entries.find? p).map Prod.fst = some mu) :
    (db.accounts.get mu).isSome := by
  obtain ⟨⟨ref, m⟩, hfind, rfl⟩ := Option.map_eq_some_iff.mp h
  rw [Accounts.get, (Registry.find_eq_some_iff _ _ _).mpr (List.mem_of_find?_eq_some hfind)]
  rfl

theorem myuserFindExt_live (howned : NicksOwned db) (h : myuserFindExt cfg w db name = some mu) :
    (db.accounts.get mu).isSome := by
  unfold myuserFindExt at h
  split at h
  · obtain ⟨u, -, hu⟩ := Option.bind_eq_some_iff.mp h
    exact get_of_find hu
  · exact get_of_find h
  · split_ifs at h
    · exact get_of_find h
    · obtain ⟨mn, hmn, rfl⟩ := Option.map_eq_some_iff.mp h
      exact howned mn (List.mem_of_find?_eq_some hmn)

theorem myentityFindExt_live (howned : NicksOwned db)
    (h : myentityFindExt cfg w db name = some mt) : mt.Live db := by
  rw [myentityFindExt] at h
  split at h
  · rename_i mu hmu
    cases h
    exact myuserFindExt_live howned hmu
  · rw [myentityFind] at h
    split at h
    · rename_i mu hmu
      cases h
      exact get_of_find hmu
    · split at h
      · rename_i mg hmg
        cases h
        obtain ⟨⟨ref, g⟩, hfind, rfl⟩ := Option.map_eq_some_iff.mp hmg
        rw [Entity.Live, (Registry.find_eq_some_iff _ _ _).mpr (List.mem_of_find?_eq_some hfind)]
        rfl
      · obtain ⟨ext, -, rfl⟩ := Option.map_eq_some_iff.mp h
        trivial

theorem notifyCrashes_live {si : Source} (hsmu : (si.smu db).isSome) (hlive : mt.Live db)
    (huser : mt.isuser = true) : notifyCrashes cfg db si mt = false := by
  cases mt with
  | group mg => cases huser
  | ext name => cases huser
  | user mu =>
    obtain ⟨m, hm⟩ := Option.isSome_iff_exists.mp hlive
    have hmem : (mu, m) ∈ db.accounts.users.entries := (Registry.find_eq_some_iff _ _ _).mp hm
    have hname : (Entity.user mu).name db = m.name := by
      rw [Entity.name, hm]
      rfl
    rw [notifyCrashes, hname, Bool.or_eq_false_iff]
    refine ⟨by simpa [Option.isSome_iff_ne_none] using hsmu, ?_⟩
    rw [myuserFind, Option.isNone_eq_false_iff, Option.isSome_map, List.find?_isSome]
    exact ⟨_, hmem, irccaseEq_self _ _⟩

theorem editEntry_done {si : Source} {mc : MyChanRef} {t : Target}
    {body : ChanDb → Chanacs → EntryEnd EntryResult}
    {finish : Flags → Modified → Option (List Reply)} (h : ∀ old m, (finish old m).isSome) :
    ∃ db' replies, editEntry w db si mc t body finish = .done db' replies := by
  unfold editEntry
  dsimp only
  split
  · exact ⟨_, _, rfl⟩
  · rename_i old m _
    obtain ⟨replies, hreplies⟩ := Option.isSome_iff_exists.mp (h old m)
    rw [hreplies]
    exact ⟨_, _, rfl⟩

theorem csCmdFlags_done {si : Source} {parv : List CString} (howned : NicksOwned db) :
    ∃ db' replies, csCmdFlags cfg w db si parv = .done db' replies := by
  rw [csCmdFlags]
  cases hplan : flagsPlan cfg w db si parv with
  | error replies => exact ⟨_, _, rfl⟩
  | ok req =>
    dsimp only
    unfold flagsApply
    split_ifs
    · split
      · exact ⟨_, _, rfl⟩
      · exact editEntry_done fun _ _ => rfl
    · split
      · exact ⟨_, _, rfl⟩
      · rename_i mt hmt
        refine editEntry_done fun old m => ?_
        have hlive := myentityFindExt_live howned hmt
        rw [if_neg]
        · rfl
        · rw [Bool.and_eq_true, Bool.and_eq_true]
          rintro ⟨⟨huser, -⟩, hcrash⟩
          rw [notifyCrashes_live (flagsPlan_ok hplan).smu hlive huser] at hcrash
          cases hcrash

end entities

/-! ### The invariant -/

structure Stands (db : ChanDb) (timeout : AkickTimeout) (k : MyChanRef × Target) : Prop where
  names : timeout.names k
  chan : (db.chans.find k.1).isSome
  entity : ∀ mt, timeout.entity = some mt → mt.Live db
  entry : ∃ ca, db.acl.find k = some ca ∧ ca.expires = some timeout.expiration

structure AkickLive (cfg : ChanConfig) (s : AkickState) : Prop where
  acl : AclOk cfg s.db
  owned : NicksOwned s.db
  stands : ∀ timeout ∈ s.timeouts, ∃ k, Stands s.db timeout k
  apart : s.timeouts.Pairwise fun a b => ∀ k, a.names k → ¬ b.names k

section steps
variable {cfg : ChanConfig} {w : World} {s : AkickState} {db db' : ChanDb} {timeout : AkickTimeout}
  {k : MyChanRef × Target}

theorem Stands.frame (h : Stands db timeout k) (hframe : Frame 31 db db' k)
    (hlive : ∀ mt, timeout.entity = some mt → mt.Live db → mt.Live db') :
    Stands db' timeout k := by
  obtain ⟨ca, hf, hexp⟩ := h.entry
  obtain ⟨ca', hf', h31, hmd⟩ := hframe.entry ca hf (has_of_expires hexp)
  refine ⟨h.names, hframe.chan h.chan, fun mt hmt => hlive mt hmt (h.entity mt hmt), ca', hf', ?_⟩
  rw [Chanacs.expires, if_pos ((test_caAkick _).mpr (has_of_expires hexp))] at hexp
  rw [Chanacs.expires, if_pos ((test_caAkick _).mpr h31), hmd]
  exact hexp

theorem AkickLive.of_frame (h : AkickLive cfg s) (hacl : AclOk cfg db') (howned : NicksOwned db')
    (hframe : ∀ timeout ∈ s.timeouts, ∀ k, timeout.names k → Frame 31 s.db db' k)
    (hlive : ∀ timeout ∈ s.timeouts, ∀ mt, timeout.entity = some mt → mt.Live s.db → mt.Live db') :
    AkickLive cfg { s with db := db' } := by
  refine ⟨hacl, howned, fun timeout hmem => ?_, h.apart⟩
  obtain ⟨k, hk⟩ := h.stands timeout hmem
  exact ⟨k, hk.frame (hframe timeout hmem k hk.names) (hlive timeout hmem)⟩

theorem live_of_entities (haccounts : db'.accounts = db.accounts) (hgroups : db'.groups = db.groups)
    {mt : Entity} (h : mt.Live db) : mt.Live db' := by
  cases mt with
  | user mu => rwa [Entity.Live, haccounts]
  | group mg => rwa [Entity.Live, hgroups]
  | ext name => trivial

theorem AkickLive.insert (h : AkickLive cfg s) (hk : Stands s.db timeout k)
    (hnone : ∀ other ∈ s.timeouts, ¬ other.names k) (next : Nat) :
    AkickLive cfg ⟨s.db, akickAddTimeout s.timeouts timeout, next⟩ := by
  refine ⟨h.acl, h.owned, fun other hmem => ?_, ?_⟩
  · obtain rfl | hmem := mem_insert.mp hmem
    · exact ⟨k, hk⟩
    · exact h.stands other hmem
  · have hsymm : ∀ {a b : AkickTimeout}, (∀ k, a.names k → ¬ b.names k) →
        ∀ k, b.names k → ¬ a.names k := fun hab k hb ha => hab k ha hb
    refine ((insert_perm _ _).pairwise_iff hsymm).mpr (List.pairwise_cons.mpr ⟨?_, h.apart⟩)
    intro other hmem k' hnew hnames
    exact hnone other hmem (names_inj hnew hk.names ▸ hnames)

/-! ### AKICK -/

theorem akickAddTarget_live {w : World} {si : Source} {channel : CString} {parv : List CString}
    {req : AkickRequest} {mt : Entity} (howned : NicksOwned db)
    (h : akickAddTarget cfg w db si channel parv = some (req, .entity mt)) : mt.Live db := by
  rw [akickAddTarget] at h
  split at h
  · cases h
  split at h
  · rename_i hmt
    split at h
    · cases h
    · cases h
      exact myentityFindExt_live howned hmt
  · dsimp only at h
    split_ifs at h
    split at h
    · cases h
    · cases h

theorem akickAdd_live {w : NetWorld} {si : Source} {channel : CString} {parv : List CString}
    (h : AkickLive cfg s) : AkickLive cfg (akickAdd cfg w.toWorld s si channel parv) := by
  rw [akickAdd]
  cases htarget : akickAddTarget cfg w.toWorld s.db si channel parv with
  | none => exact h
  | some found =>
    obtain ⟨req, t⟩ := found
    obtain ⟨hchan, hlen⟩ := akickAddTarget_fits htarget
    have hfind := (akickAddTarget_new htarget).1
    let db := { s.db with acl := s.db.acl.insertNew (req.mc, t) (akickEntry cfg w.toWorld s.db si req) }
    have hold : AkickLive cfg { s with db := db } := h.of_frame (akickAdd_acl h.acl htarget) h.owned
      (fun _ _ _ _ => ⟨id, keeps_insertNew⟩) fun _ _ _ _ hlive => hlive
    dsimp only
    split_ifs with hfull hd
    · exact h
    · -- no timeout stands for a target that had no entry
      have hnone : ∀ other ∈ s.timeouts, ¬ other.names (req.mc, t) := by
        intro other hmem hnames
        obtain ⟨k, hk⟩ := h.stands other hmem
        obtain ⟨ca, hca, -⟩ := hk.entry
        rw [names_inj hk.names hnames, hfind] at hca
        cases hca
      have hself : db.acl.find (req.mc, t) = some (akickEntry cfg w.toWorld s.db si req) := by
        rw [Registry.find_insertNew, hfind, Option.none_or, if_pos rfl]
      refine hold.insert ⟨newTimeout_names hlen, hchan, fun mt hmt => ?_, _, hself, ?_⟩ hnone _
      · cases t with
        | host mask => cases hmt
        | entity e =>
          have hlive : e.Live s.db := akickAddTarget_live h.owned htarget
          obtain rfl : e = mt := Option.some.inj hmt
          exact hlive
      · rw [akickEntry_expires, if_pos hd, newTimeout_expiration]
    · exact hold

theorem akickDel_live {w : World} {si : Source} {channel : CString} {parv : List CString}
    (h : AkickLive cfg s)
    (hown : ∀ found ∈ akickDelTarget cfg w s.db si channel parv, ∀ timeout ∈ s.timeouts,
      (delDrops cfg found.1 found.2.1 found.2.2.2 timeout = true ↔
        timeout.names (found.1, found.2.1))) :
    AkickLive cfg (akickDel cfg w s si channel parv) := by
  rw [akickDel]
  cases htarget : akickDelTarget cfg w s.db si channel parv with
  | none => exact h
  | some found =>
    obtain ⟨mc, t, ca, uname⟩ := found
    obtain ⟨hf, -⟩ := akickDelTarget_found htarget
    refine ⟨h.acl.off (h.acl.level hf), h.owned, fun timeout hmem => ?_,
      h.apart.sublist List.filter_sublist⟩
    obtain ⟨hmem, hkeep⟩ := List.mem_filter.mp hmem
    obtain ⟨k, hk⟩ := h.stands timeout hmem
    have hne : k ≠ (mc, t) := by
      intro heq
      have hdrop := (hown _ htarget timeout hmem).mpr (heq ▸ hk.names)
      rw [hdrop] at hkeep
      cases hkeep
    exact ⟨k, hk.frame ⟨id, keeps_of_eq (find_akickOff_other hne)⟩ fun _ _ hlive => hlive⟩

/-! ### The timer -/

theorem Stands.akickExpire_eq (hk : Stands db timeout k) (h : AclOk cfg db) :
    ∃ ca, db.acl.find k = some ca ∧ ca.expires = some timeout.expiration ∧
      akickExpire cfg w db timeout = akickOff cfg w none k ca db := by
  obtain ⟨ca, hca, hexp⟩ := hk.entry
  have hentry := timeoutEntry_names h hk.names hca (has_of_expires hexp)
  have hkey : (timeout.chan, k.2) = k := Prod.ext hk.names.1 rfl
  refine ⟨ca, hca, hexp, ?_⟩
  rw [akickExpire, hentry]
  dsimp only
  rw [hkey]

theorem akickCheckFrom_live {timeouts : List AkickTimeout} (hacl : AclOk cfg db)
    (howned : NicksOwned db) (hstands : ∀ timeout ∈ timeouts, ∃ k, Stands db timeout k)
    (hapart : timeouts.Pairwise fun a b => ∀ k, a.names k → ¬ b.names k) :
    ∃ s', akickCheckFrom cfg w db timeouts = some s' ∧ AkickLive cfg s' ∧
      ∀ k, Has (levelAt db.acl k) 31 → Has (levelAt s'.db.acl k) 31 ∨
        ∃ ca e, db.acl.find k = some ca ∧ ca.expires = some e ∧ e ≤ w.currtime := by
  induction timeouts generalizing db with
  | nil => exact ⟨_, rfl, ⟨hacl, howned, hstands, hapart⟩, fun k hk => .inl hk⟩
  | cons timeout timeouts ih =>
    obtain ⟨k₀, hk₀⟩ := hstands timeout (List.mem_cons_self ..)
    obtain ⟨ca₀, hca₀, hexp₀, hexpire⟩ := hk₀.akickExpire_eq (w := w) hacl
    obtain ⟨hfirst, hrest⟩ := List.pairwise_cons.mp hapart
    have hchan : (db.chans.find timeout.chan).isSome := hk₀.names.1 ▸ hk₀.chan
    rw [akickCheckFrom]
    by_cases hlate : timeout.expiration > w.currtime
    · rw [if_pos hlate]
      exact ⟨_, rfl, ⟨hacl, howned, hstands, hapart⟩, fun k hk => .inl hk⟩
    rw [if_neg hlate, if_neg (by simp [Option.isSome_iff_ne_none.mp hchan]), hexpire]
    have hother : ∀ {k}, k ≠ k₀ → (akickOff cfg w none k₀ ca₀ db).acl.find k = db.acl.find k :=
      fun hk => find_akickOff_other hk
    have hlater : ∀ other ∈ timeouts, ∃ k, Stands (akickOff cfg w none k₀ ca₀ db) other k := by
      intro other hmem
      obtain ⟨k, hk⟩ := hstands other (List.mem_cons_of_mem _ hmem)
      have hne : k ≠ k₀ := by
        intro heq
        exact hfirst other hmem k₀ hk₀.names (heq ▸ hk.names)
      exact ⟨k, hk.frame ⟨id, keeps_of_eq (hother hne)⟩ fun _ _ hl => hl⟩
    obtain ⟨s', hrun, hlive, hkeeps⟩ := ih (hacl.off (hacl.level hca₀)) howned hlater hrest
    refine ⟨s', hrun, hlive, fun k hk => ?_⟩
    by_cases heq : k = k₀
    · exact .inr ⟨ca₀, timeout.expiration, heq ▸ hca₀, hexp₀, by omega⟩
    · have hlevel : levelAt (akickOff cfg w none k₀ ca₀ db).acl k = levelAt db.acl k := by
        rw [levelAt, hother heq, levelAt]
      have hkept := hkeeps k (hlevel ▸ hk)
      rwa [hother heq] at hkept

theorem akickTick_live (h : AkickLive cfg s) :
    ∃ s', akickTick cfg w s = some s' ∧ AkickLive cfg s' ∧
      ∀ k, Has (levelAt s.db.acl k) 31 → Has (levelAt s'.db.acl k) 31 ∨
        ∃ ca e, s.db.acl.find k = some ca ∧ ca.expires = some e ∧ e ≤ w.currtime := by
  rw [akickTick]
  split_ifs
  · exact ⟨s, rfl, h, fun k hk => .inl hk⟩
  · exact akickCheckFrom_live h.acl h.owned h.stands h.apart

/-! ### The start of the module -/

/-- What one step of `akickdel_list_create` does for an entry without a timeout. -/
structure Listed (cfg : ChanConfig) (mc : MyChanRef) (es : List (Target × Chanacs))
    (s s' : AkickState) : Prop where
  live : AkickLive cfg s'
  accounts : s'.db.accounts = s.db.accounts
  groups : s'.db.groups = s.db.groups
  chans : s'.db.chans = s.db.chans
  other : ∀ k, (∀ e ∈ es, k ≠ (mc, e.1)) → s'.db.acl.find k = s.db.acl.find k
  timeouts : ∀ timeout ∈ s'.timeouts, timeout ∈ s.timeouts ∨ ∃ e ∈ es, timeout.names (mc, e.1)

theorem listCreateEntry_listed {mc : MyChanRef} {e : Target × Chanacs} (h : AkickLive cfg s)
    (hlive : ∀ mt, e.1 = .entity mt → mt.Live s.db) (hf : s.db.acl.find (mc, e.1) = some e.2)
    (hnone : ∀ timeout ∈ s.timeouts, ¬ timeout.names (mc, e.1)) :
    Listed cfg mc [e] s (listCreateEntry cfg w mc s e) := by
  rw [listCreateEntry]
  cases he : e.2.expires with
  | none => exact ⟨h, rfl, rfl, rfl, fun _ _ => rfl, fun _ => .inl⟩
  | some x =>
    dsimp only
    split_ifs with hlate
    · have hother : ∀ {k}, k ≠ (mc, e.1) → (akickOff cfg w none (mc, e.1) e.2 s.db).acl.find k =
          s.db.acl.find k := fun hk => find_akickOff_other hk
      refine ⟨⟨h.acl.off (h.acl.level hf), h.owned, fun timeout hmem => ?_, h.apart⟩, rfl, rfl, rfl,
        fun k hk => hother (hk e (List.mem_singleton_self e)), fun _ => .inl⟩
      obtain ⟨k, hk⟩ := h.stands timeout hmem
      have hne : k ≠ (mc, e.1) := fun heq => hnone timeout hmem (heq ▸ hk.names)
      exact ⟨k, hk.frame ⟨id, keeps_of_eq (hother hne)⟩ fun _ _ hl => hl⟩
    · have hlen : ∀ mask, e.1 = .host mask → mask.length ≤ nickLen + userLen + hostLen + 1 :=
        fun mask hmask => h.acl.length mc mask (by rw [← hmask, hf]; rfl)
      have hnames : (newTimeout s.db mc e.1 x).names (mc, e.1) := newTimeout_names hlen
      have hstands : Stands s.db (newTimeout s.db mc e.1 x) (mc, e.1) := by
        refine ⟨hnames, h.acl.chans _ (by rw [hf]; rfl), fun mt hmt => hlive mt ?_, e.2, hf, ?_⟩
        · cases ht : e.1 with
          | host mask =>
            rw [ht] at hmt
            cases hmt
          | entity mt' =>
            rw [ht] at hmt
            obtain rfl : mt' = mt := Option.some.inj hmt
            rfl
        · rw [newTimeout_expiration, he]
      refine ⟨h.insert hstands hnone s.next, rfl, rfl, rfl, fun _ _ => rfl, fun timeout hmem => ?_⟩
      obtain rfl | hmem := mem_insert.mp hmem
      · exact .inr ⟨e, List.mem_singleton_self e, hnames⟩
      · exact .inl hmem

theorem listCreate_listed {mc : MyChanRef} (es : List (Target × Chanacs)) (s : AkickState)
    (h : AkickLive cfg s) (hnodup : (es.map Prod.fst).Nodup)
    (hlive : ∀ e ∈ es, ∀ mt, e.1 = .entity mt → mt.Live s.db)
    (hf : ∀ e ∈ es, s.db.acl.find (mc, e.1) = some e.2)
    (hnone : ∀ e ∈ es, ∀ timeout ∈ s.timeouts, ¬ timeout.names (mc, e.1)) :
    Listed cfg mc es s (es.foldl (listCreateEntry cfg w mc) s) := by
  induction es generalizing s with
  | nil => exact ⟨h, rfl, rfl, rfl, fun _ _ => rfl, fun _ => .inl⟩
  | cons e es ih =>
    have hself : e ∈ e :: es := List.mem_cons_self ..
    obtain ⟨hnot, hrest⟩ := List.nodup_cons.mp hnodup
    have hne : ∀ e' ∈ es, e'.1 ≠ e.1 := fun e' he' heq =>
      hnot (List.mem_map.mpr ⟨e', he', heq⟩)
    have h₁ := listCreateEntry_listed (w := w) h (hlive e hself) (hf e hself) (hnone e hself)
    have h₂ := ih (listCreateEntry cfg w mc s e) h₁.live hrest
      (fun e' he' mt hmt => live_of_entities h₁.accounts h₁.groups
        (hlive e' (List.mem_cons_of_mem e he') mt hmt))
      (fun e' he' => ?_) (fun e' he' timeout hmem hnames => ?_)
    · refine ⟨h₂.live, h₂.accounts.trans h₁.accounts, h₂.groups.trans h₁.groups,
        h₂.chans.trans h₁.chans, fun k hk => ?_, fun timeout hmem => ?_⟩
      · rw [List.foldl_cons, h₂.other k fun e' he' => hk e' (List.mem_cons_of_mem e he')]
        exact h₁.other k fun e' he' => List.mem_singleton.mp he' ▸ hk e hself
      · obtain hmem | ⟨e', he', hnames⟩ := h₂.timeouts timeout hmem
        · obtain hmem | ⟨e', he', hnames⟩ := h₁.timeouts timeout hmem
          · exact .inl hmem
          · exact .inr ⟨e, hself, List.mem_singleton.mp he' ▸ hnames⟩
        · exact .inr ⟨e', List.mem_cons_of_mem e he', hnames⟩
    · rw [h₁.other]
      · exact hf e' (List.mem_cons_of_mem e he')
      · intro e'' he'' heq
        rw [List.mem_singleton.mp he''] at heq
        exact hne e' he' (congrArg Prod.snd heq)
    · obtain hmem | ⟨e'', he'', hnames'⟩ := h₁.timeouts timeout hmem
      · exact hnone e' (List.mem_cons_of_mem e he') timeout hmem hnames
      · rw [List.mem_singleton.mp he''] at hnames'
        exact hne e' he' (congrArg Prod.snd (names_inj hnames hnames'))

end steps

structure LoadedEntities (cfg : ChanConfig) extends LoadedDb cfg where
  owned : NicksOwned db
  entities : ∀ mc mt, (db.acl.find (mc, .entity mt)).isSome → mt.Live db

theorem akickdelListCreate_live {cfg : ChanConfig} {w : World} (saved : LoadedEntities cfg) :
    AkickLive cfg (akickdelListCreate cfg w saved.db) := by
  -- the channels that are still to come have the entries that were loaded, and no timeouts
  have hloop : ∀ (l : List (MyChanRef × MyChan)) (s : AkickState), (l.map Prod.fst).Nodup →
      AkickLive cfg s → s.db.accounts = saved.db.accounts → s.db.groups = saved.db.groups →
      (∀ k, k.1 ∈ l.map Prod.fst → s.db.acl.find k = saved.db.acl.find k ∧
        ∀ timeout ∈ s.timeouts, ¬ timeout.names k) →
      AkickLive cfg (l.foldl (fun s c => (chanacsOf s.db.acl c.1).foldl
        (listCreateEntry cfg w c.1) s) s) := by
    intro l
    induction l with
    | nil => exact fun s _ h _ _ _ => h
    | cons c l ih =>
      intro s hnodup h haccounts hgroups hnext
      obtain ⟨hnot, hrest⟩ := List.nodup_cons.mp hnodup
      have hself : c.1 ∈ (c :: l).map Prod.fst := List.mem_cons_self ..
      have hfound : ∀ e ∈ chanacsOf s.db.acl c.1, s.db.acl.find (c.1, e.1) = some e.2 :=
        fun e he => (mem_chanacsOf ..).mp he
      have hlisted : Listed cfg c.1 (chanacsOf s.db.acl c.1) s
          ((chanacsOf s.db.acl c.1).foldl (listCreateEntry cfg w c.1) s) := by
        refine listCreate_listed _ s h (chanacsOf_nodup ..) (fun e he mt hmt => ?_) hfound
          fun e _ => (hnext (c.1, e.1) hself).2
        have hloaded := (hnext (c.1, e.1) hself).1
        rw [hfound e he, hmt] at hloaded
        exact live_of_entities haccounts hgroups (saved.entities c.1 mt (by rw [← hloaded]; rfl))
      refine ih _ hrest hlisted.live (hlisted.accounts.trans haccounts)
        (hlisted.groups.trans hgroups) fun k hk => ?_
      have hne : k.1 ≠ c.1 := fun heq => hnot (heq ▸ hk)
      obtain ⟨hsame, hnone⟩ := hnext k (List.mem_cons_of_mem _ hk)
      refine ⟨?_, fun timeout hmem hnames => ?_⟩
      · rw [hlisted.other k fun e _ heq => hne (congrArg Prod.fst heq), hsame]
      · obtain hmem | ⟨e, -, hnames'⟩ := hlisted.timeouts timeout hmem
        · exact hnone timeout hmem hnames
        · exact hne (congrArg Prod.fst (names_inj hnames hnames'))
  exact hloop _ ⟨saved.db, [], 0⟩ saved.db.chans.nodup ⟨saved.acl, saved.owned, by simp, .nil⟩ rfl rfl
    fun k _ => ⟨rfl, by simp⟩

/-! ### Runs -/

inductive LiveEvent where
  | add (w : NetWorld) (si : Source) (channel : CString) (parv : List CString)
  | del (w : NetWorld) (si : Source) (channel : CString) (parv : List CString)
  | flags (w : NetWorld) (si : Source) (parv : List CString)
  | clone (w : NetWorld) (si : Source) (parv : List CString)
  | drop (mc : MyChanRef)
  | accountDelete (w : NetWorld) (mu : MyUserRef)
  | tick (w : NetWorld)

def AkickState.done (s : AkickState) : Outcome → Option AkickState
  | .crash => none
  | .done db _ => some { s with db := db }

def LiveEvent.exec (cfg : ChanConfig) (s : AkickState) : LiveEvent → Option AkickState
  | .add w si channel parv => some (akickAdd cfg w.toWorld s si channel parv)
  | .del w si channel parv => some (akickDel cfg w.toWorld s si channel parv)
  | .flags w si parv => s.done (csCmdFlags cfg w.toWorld s.db si parv)
  | .clone w si parv => s.done (csCmdClone cfg w.toWorld s.db si parv)
  | .drop mc => some { s with db := mychanDelete mc s.db }
  | .accountDelete w mu => some { s with db := myuserDelete cfg w.toWorld s.db mu }
  | .tick w => akickTick cfg w.toWorld s

def LiveEvent.SparesTimeouts (cfg : ChanConfig) (s : AkickState) : LiveEvent → Prop
  | .add .. => True
  | .del w si channel parv => ∀ found ∈ akickDelTarget cfg w.toWorld s.db si channel parv,
      ∀ timeout ∈ s.timeouts, (delDrops cfg found.1 found.2.1 found.2.2.2 timeout = true ↔
        timeout.names (found.1, found.2.1))
  | .flags w si parv => ∀ timeout ∈ s.timeouts, ∀ k, timeout.names k → ∀ req t,
      flagsPlan cfg w.toWorld s.db si parv = .ok req →
        ¬ FlagsTakes cfg w.toWorld s.db si req 31 k t
  | .clone w si parv => ∀ timeout ∈ s.timeouts, ∀ k, timeout.names k → ∀ req,
      clonePlan cfg w.toWorld s.db si parv = .ok req → k.1 = req.mc2 →
        Has (levelAt s.db.acl k) 13
  | .drop mc => ∀ timeout ∈ s.timeouts, timeout.chan ≠ mc
  | .accountDelete w mu => ∀ timeout ∈ s.timeouts, timeout.entity ≠ some (.user mu) ∧
      ¬ DropsChannel cfg w.toWorld mu timeout.chan (leaveGroups mu s.db)
        (channelsOf s.db.acl (.user mu))
  | .tick _ => True

def LiveEvent.EndsItsOwn (cfg : ChanConfig) (s s' : AkickState) : LiveEvent → Prop
  | .del w si channel parv => ∀ timeout ∈ s.timeouts, timeout ∉ s'.timeouts →
      ∃ found ∈ akickDelTarget cfg w.toWorld s.db si channel parv,
        timeout.names (found.1, found.2.1)
  | .tick w => ∀ k, Has (levelAt s.db.acl k) 31 → Has (levelAt s'.db.acl k) 31 ∨
      ∃ ca e, s.db.acl.find k = some ca ∧ ca.expires = some e ∧ e ≤ w.currtime
  | _ => True

def TimeoutsLive (cfg : ChanConfig) : AkickObs LiveEvent → Prop
  | .crashed => False
  | .moved s e s' => (∀ timeout ∈ s'.timeouts, ∃ k, Stands s'.db timeout k) ∧ e.EndsItsOwn cfg s s'

section runs
variable {cfg : ChanConfig} {s : AkickState}

theorem flags_live {w : World} {si : Source} {parv : List CString} (h : AkickLive cfg s)
    (hspares : ∀ timeout ∈ s.timeouts, ∀ k, timeout.names k → ∀ req t,
      flagsPlan cfg w s.db si parv = .ok req → ¬ FlagsTakes cfg w s.db si req 31 k t) :
    ∃ s', s.done (csCmdFlags cfg w s.db si parv) = some s' ∧ AkickLive cfg s' := by
  obtain ⟨db', replies, hdone⟩ := @csCmdFlags_done cfg w s.db si parv h.owned
  obtain ⟨hacl, hdb, hframe⟩ := csCmdFlags_frame h.acl hdone
  refine ⟨{ s with db := db' }, by rw [hdone]; rfl, h.of_frame hacl ?_ ?_ ?_⟩
  · rw [hdb]
    exact h.owned
  · exact fun timeout hmem k hk => hframe 31 k (hspares timeout hmem k hk)
  · intro _ _ mt _ hlive
    rw [hdb]
    exact hlive

theorem clone_live {w : World} {si : Source} {parv : List CString} (h : AkickLive cfg s)
    (hspares : ∀ timeout ∈ s.timeouts, ∀ k, timeout.names k → ∀ req,
      clonePlan cfg w s.db si parv = .ok req → k.1 = req.mc2 → Has (levelAt s.db.acl k) 13) :
    ∃ s', s.done (csCmdClone cfg w s.db si parv) = some s' ∧ AkickLive cfg s' := by
  obtain ⟨db', replies, hdone, hacl, hdb, hframe⟩ := @csCmdClone_frame cfg w s.db si parv h.acl
  refine ⟨{ s with db := db' }, by rw [hdone]; rfl, h.of_frame hacl ?_ ?_ ?_⟩
  · rw [hdb]
    exact h.owned
  · exact fun timeout hmem k hk => hframe 31 k (hspares timeout hmem k hk)
  · intro _ _ mt _ hlive
    rw [hdb]
    exact hlive

theorem drop_live {mc : MyChanRef} (h : AkickLive cfg s)
    (hspares : ∀ timeout ∈ s.timeouts, timeout.chan ≠ mc) :
    AkickLive cfg { s with db := mychanDelete mc s.db } :=
  h.of_frame h.acl.mychanDelete h.owned
    (fun timeout hmem _ hk => frame_mychanDelete (hk.1 ▸ hspares timeout hmem))
    fun _ _ _ _ hlive => hlive

theorem successorFlag_not_akick (fc : FlagConfig) {flag : Flags}
    (h : fc.successorFlag = some flag) : ¬ Has flag 31 := by
  rw [FlagConfig.successorFlag] at h
  split_ifs at h
  cases h
  decide

theorem accountDelete_live {w : World} {mu : MyUserRef} (h : AkickLive cfg s)
    (hspares : ∀ timeout ∈ s.timeouts, timeout.entity ≠ some (.user mu) ∧
      ¬ DropsChannel cfg w mu timeout.chan (leaveGroups mu s.db)
        (channelsOf s.db.acl (.user mu))) :
    AkickLive cfg { s with db := myuserDelete cfg w s.db mu } := by
  have hframe : ∀ k, _ := fun k => @myuserDelete_frame cfg w s.db mu 31 k h.acl
    fun _ hflag => successorFlag_not_akick _ hflag
  obtain ⟨hacl, haccounts, hgroups, -⟩ := hframe (0, .host [])
  have hget : ∀ mu', mu' ≠ mu → (s.db.accounts.get mu').isSome →
      ((myuserDelete cfg w s.db mu).accounts.get mu').isSome := by
    intro mu' hne hlive
    rw [haccounts, Accounts.get, Registry.find_erase, if_neg hne]
    exact hlive
  refine h.of_frame hacl (fun mn hmn => ?_) (fun timeout hmem k hk => ?_)
    fun timeout hmem mt hmt hlive => ?_
  · rw [haccounts, List.mem_filter, decide_eq_true_eq] at hmn
    exact hget _ hmn.2 (h.owned mn hmn.1)
  · obtain ⟨hother, hstays⟩ := hspares timeout hmem
    refine (hframe k).2.2.2 (fun hmu => hother ?_) (hk.1 ▸ hstays)
    obtain ⟨mc, t⟩ := k
    cases hmu
    exact hk.2
  · cases mt with
    | user mu' =>
      exact hget mu' (fun heq => (hspares timeout hmem).1 (heq ▸ hmt)) hlive
    | group mg =>
      rw [Entity.Live, hgroups, leaveGroups, Registry.find_update]
      obtain ⟨g, hg⟩ := Option.isSome_iff_exists.mp hlive
      rw [hg]
      rfl
    | ext name => trivial

theorem akickDel_endsItsOwn {w : NetWorld} {si : Source} {channel : CString} {parv : List CString}
    (hown : ∀ found ∈ akickDelTarget cfg w.toWorld s.db si channel parv, ∀ timeout ∈ s.timeouts,
      (delDrops cfg found.1 found.2.1 found.2.2.2 timeout = true ↔
        timeout.names (found.1, found.2.1))) :
    (LiveEvent.del w si channel parv).EndsItsOwn cfg s
      (akickDel cfg w.toWorld s si channel parv) := by
  intro timeout hmem hgone
  rw [akickDel] at hgone
  cases htarget : akickDelTarget cfg w.toWorld s.db si channel parv with
  | none =>
    rw [htarget] at hgone
    exact absurd hmem hgone
  | some found =>
    refine ⟨found, rfl, (hown found htarget timeout hmem).mp ?_⟩
    rw [htarget] at hgone
    by_contra hkeep
    exact hgone (List.mem_filter.mpr ⟨hmem, by simpa using hkeep⟩)

theorem exec_live (h : AkickLive cfg s) (e : LiveEvent) (hspares : e.SparesTimeouts cfg s) :
    ∃ s', e.exec cfg s = some s' ∧ AkickLive cfg s' ∧ e.EndsItsOwn cfg s s' := by
  cases e with
  | add w si channel parv => exact ⟨_, rfl, akickAdd_live h, trivial⟩
  | del w si channel parv =>
    exact ⟨_, rfl, akickDel_live h hspares, akickDel_endsItsOwn hspares⟩
  | flags w si parv =>
    obtain ⟨s', hrun, hlive⟩ := flags_live h hspares
    exact ⟨s', hrun, hlive, trivial⟩
  | clone w si parv =>
    obtain ⟨s', hrun, hlive⟩ := clone_live h hspares
    exact ⟨s', hrun, hlive, trivial⟩
  | drop mc => exact ⟨_, rfl, drop_live h hspares, trivial⟩
  | accountDelete w mu => exact ⟨_, rfl, accountDelete_live h hspares, trivial⟩
  | tick w => exact akickTick_live h

/-- In a run of steps that spare the timeouts of others, every timeout stands for a temporary
AKICK that is there, and only those end by the check. -/
theorem timeouts_stand_for_akicks (cfg : ChanConfig) (w : NetWorld) (saved : LoadedEntities cfg)
    (es : List LiveEvent)
    (h : Guarded (akickStep (LiveEvent.exec cfg)) (fun s e => ∀ s' ∈ s, e.SparesTimeouts cfg s')
      (some (akickdelListCreate cfg w.toWorld saved.db)) es) :
    ∀ o ∈ (run (akickStep (LiveEvent.exec cfg))
      (some (akickdelListCreate cfg w.toWorld saved.db)) es).2, TimeoutsLive cfg o := by
  have hstep : ∀ (s : Option AkickState) (e : LiveEvent), (∀ s' ∈ s, AkickLive cfg s') →
      (∀ s' ∈ s, e.SparesTimeouts cfg s') →
      (∀ s' ∈ (akickStep (LiveEvent.exec cfg) s e).1, AkickLive cfg s') ∧
        ∀ o ∈ (akickStep (LiveEvent.exec cfg) s e).2, TimeoutsLive cfg o := by
    intro s e hs hspares
    cases s with
    | none => simp [akickStep]
    | some s =>
      obtain ⟨s', hrun, hlive, hends⟩ := exec_live (hs s rfl) e (hspares s rfl)
      simp only [akickStep, hrun, Option.mem_def, Option.some.injEq, List.mem_singleton,
        forall_eq', forall_eq]
      exact ⟨hlive, hlive.stands, hends⟩
  have hstart : ∀ s' ∈ some (akickdelListCreate cfg w.toWorld saved.db), AkickLive cfg s' := by
    intro s' hs'
    cases hs'
    exact akickdelListCreate_live saved
  exact run_guarded_emits hstep hstart h

end runs

theorem akickDb_entities : NicksOwned akickDb ∧
    ∀ mc mt, (akickDb.acl.find (mc, .entity mt)).isSome → mt.Live akickDb := by
  refine ⟨by unfold NicksOwned; decide, fun mc mt hk => ?_⟩
  obtain ⟨ca, hca⟩ := Option.isSome_iff_exists.mp hk
  have hmem := (Registry.find_eq_some_iff _ _ _).mp hca
  simp only [akickDb, List.mem_cons, List.not_mem_nil, or_false, Prod.mk.injEq,
    Target.entity.injEq] at hmem
  obtain ⟨⟨-, rfl⟩, -⟩ | ⟨⟨-, rfl⟩, -⟩ := hmem
  · exact rfl
  · exact rfl

def akickLoaded : LoadedEntities sampleConfig where
  toLoadedDb := akickSaved
  owned := akickDb_entities.1
  entities := akickDb_entities.2

def spamMask : CString := "*!*@spam.example".toList

/- A host is banned for a while, and the ban is taken off before its end. -/
def liveRun : List LiveEvent :=
  [.add (akickWorld 300) (.irc sampleUser) "#chan".toList [spamMask, "!T 5 spam".toList],
    .drop 1,
    .tick (akickWorld 400),
    .del (akickWorld 420) (.irc sampleUser) "#chan".toList [spamMask]]

theorem timeouts_stand_for_akicks_witness :
    (run (akickStep (LiveEvent.exec sampleConfig))
        (some (akickdelListCreate sampleConfig (akickWorld 150).toWorld akickDb)) liveRun).2 ≠ [] ∧
      ∀ o ∈ (run (akickStep (LiveEvent.exec sampleConfig))
        (some (akickdelListCreate sampleConfig (akickWorld 150).toWorld akickDb)) liveRun).2,
        TimeoutsLive sampleConfig o := by
  refine ⟨nofun, ?_⟩
  refine timeouts_stand_for_akicks sampleConfig (akickWorld 150) akickLoaded liveRun
    ⟨fun _ _ => trivial, ?_, fun _ _ => trivial, ?_, trivial⟩
  all_goals
    unfold LiveEvent.SparesTimeouts
    decide

/- Here the ban is taken off by FLAGS, and then set for good. -/
def spamStart : AkickState :=
  akickdelListCreate sampleConfig (akickWorld 250).toWorld akickDb

def spamRun : List LiveEvent :=
  [.add (akickWorld 300) (.irc sampleUser) "#chan".toList [spamMask, "!T 5 spam".toList],
    .flags (akickWorld 310) (.irc sampleUser) ["#chan".toList, spamMask, "-b".toList],
    .add (akickWorld 320) (.irc sampleUser) "#chan".toList [spamMask, "!P spam".toList],
    .tick (akickWorld 700)]

def spamState (n : Nat) : AkickState :=
  ((run (akickStep (LiveEvent.exec sampleConfig)) (some spamStart) (spamRun.take n)).1).getD spamStart

/-- FLAGS leaves the timeout of the AKICK that it takes off, and the check ends a permanent one
by it. -/
theorem flags_leaves_timeout :
    (spamState 2).timeouts.map AkickTimeout.expiration = [600] ∧
      (spamState 2).db.acl.find (0, .host spamMask) = none ∧
      ((spamState 3).db.acl.find (0, .host spamMask)).map (fun ca => (ca.level, ca.expires)) =
        some (caAkick, none) ∧
      (spamState 4).db.acl.find (0, .host spamMask) = none ∧
      ¬ ∀ o ∈ (run (akickStep (LiveEvent.exec sampleConfig)) (some spamStart) spamRun).2,
        TimeoutsLive sampleConfig o := by
  refine ⟨by decide, by decide, by decide, by decide, fun h => ?_⟩
  have hlast : AkickObs.moved (spamState 3) (.tick (akickWorld 700)) (spamState 4) ∈
      (run (akickStep (LiveEvent.exec sampleConfig)) (some spamStart) spamRun).2 :=
    .tail _ (.tail _ (.tail _ (.head _)))
  obtain ⟨-, hends⟩ := h _ hlast
  obtain hstays | ⟨ca, e, hca, hexp, -⟩ := hends (0, .host spamMask) (by decide)
  · exact absurd hstays (by decide)
  · have hnone : ((spamState 3).db.acl.find (0, .host spamMask)).bind Chanacs.expires = none := by
      decide
    rw [hca, Option.bind_some, hexp] at hnone
    cases hnone

end ChatServices.ChanServ
