import ChatServices.ChanServ.AccountTables

/-! Every pointer to an account is to one that exists, and the account knows of those that it has
to take back. -/
namespace ChatServices.ChanServ.Tables
open ChatServices.Lib ChatServices.Lib.Mask ChatServices.Lib.Walk ChatServices.Text
open ChatServices.ChanServ.Heap

def Live (users : Registry MyUserRef MyUser) (mu : MyUserRef) : Prop := (users.find mu).isSome

structure NamesOk (cfg : ChanConfig) (s : ServDb) : Prop where
  accountlist : ∀ k mu, s.accountlist.find k = some mu →
    ∃ o, s.users.find mu = some o ∧ irccasecanon cfg.casemapping o.name = k
  entities : ∀ k mu, s.entities.find k = some (.user mu) →
    ∃ o, s.users.find mu = some o ∧ irccasecanon cfg.casemapping o.name = k
  entitiesById : ∀ k mu, s.entitiesById.find k = some (.user mu) →
    ∃ o, s.users.find mu = some o ∧ o.id = k

structure LoginsOk (s : ServDb) : Prop where
  online : ∀ uid mu, s.online.find uid = some (some mu) → ∃ u ∈ loginsOf mu s, u.uid = uid
  listed : ∀ mu, ∀ u ∈ loginsOf mu s, s.online.find u.uid = some (some mu)
  nodup : ∀ mu, ((loginsOf mu s).map User.uid).Nodup

def SopersOk (s : ServDb) : Prop :=
  ∀ r sp mu, s.soperlist.find r = some sp → sp.myuser = some mu →
    Live s.users mu ∧ s.soper mu = some r

structure RecordsOk (cfg : ChanConfig) (s : ServDb) : Prop where
  nicks : s.nicks.Ok MyNick.owner (nickKey cfg)
  nickOwner : ∀ r mn, s.nicks.objs.find r = some mn → Live s.users mn.owner
  certfps : s.certfps.Ok MyCertfp.mu certfpKey
  certfpMu : ∀ r mcfp, s.certfps.objs.find r = some mcfp → Live s.users mcfp.mu
  authcookies : ∀ r ac, s.authcookies.find r = some ac → Live s.users ac.myuser

structure EntriesOk (cfg : ChanConfig) (s : ServDb) : Prop where
  lists : ListsOk s.heap
  known : LevelsKnown cfg s.heap.accessList
  entity : ∀ mc mu, (s.heap.accessList.find (mc, .entity (.user mu))).isSome → Live s.users mu

structure TablesOk (cfg : ChanConfig) (s : ServDb) : Prop where
  names : NamesOk cfg s
  logins : LoginsOk s
  sopers : SopersOk s
  records : RecordsOk cfg s
  entries : EntriesOk cfg s

theorem TablesOk.empty (cfg : ChanConfig) : TablesOk cfg .empty where
  names := ⟨nofun, nofun, nofun⟩
  logins := ⟨nofun, nofun, fun _ => List.nodup_nil⟩
  sopers := nofun
  records := ⟨Owned.empty_ok, nofun, Owned.empty_ok, nofun, nofun⟩
  entries := ⟨empty_ok, fun _ => zero_sub _, nofun⟩

/-! ### Accounts that change -/

section users
variable {cfg : ChanConfig} {s s' : ServDb} {mu m : MyUserRef} {f : MyUser → MyUser} {uid : CString}

theorem live_modify : Live (s.users.modify mu f) m ↔ Live s.users m := by
  rw [Live, Registry.find_modify, Live]
  split_ifs <;> simp

theorem SopersOk.mono (h : SopersOk s) (hlive : ∀ mu, Live s.users mu → Live s'.users mu)
    (hlist : s'.soperlist = s.soperlist) (hsoper : s'.soper = s.soper) : SopersOk s' := by
  intro r sp mu hf hmu
  obtain ⟨hold, hback⟩ := h r sp mu (hlist ▸ hf) hmu
  exact ⟨hlive mu hold, hsoper ▸ hback⟩

theorem RecordsOk.mono (h : RecordsOk cfg s) (hlive : ∀ mu, Live s.users mu → Live s'.users mu)
    (hnicks : s'.nicks = s.nicks) (hcertfps : s'.certfps = s.certfps)
    (hcookies : s'.authcookies = s.authcookies) : RecordsOk cfg s' where
  nicks := hnicks ▸ h.nicks
  nickOwner r mn hf := hlive _ (h.nickOwner r mn (hnicks ▸ hf))
  certfps := hcertfps ▸ h.certfps
  certfpMu r mcfp hf := hlive _ (h.certfpMu r mcfp (hcertfps ▸ hf))
  authcookies r ac hf := hlive _ (h.authcookies r ac (hcookies ▸ hf))

theorem EntriesOk.mono (h : EntriesOk cfg s) (hlive : ∀ mu, Live s.users mu → Live s'.users mu)
    (hheap : s'.heap = s.heap) : EntriesOk cfg s' where
  lists := hheap ▸ h.lists
  known := hheap ▸ h.known
  entity mc mu hk := hlive _ (h.entity mc mu (hheap ▸ hk))

theorem NamesOk.modify (h : NamesOk cfg s) (hf : ∀ o, (f o).name = o.name ∧ (f o).id = o.id) :
    NamesOk cfg { s with users := s.users.modify mu f } := by
  have hfind : ∀ m o, s.users.find m = some o → ∃ o', (s.users.modify mu f).find m = some o' ∧
      o'.name = o.name ∧ o'.id = o.id := by
    intro m o ho
    rw [Registry.find_modify]
    split_ifs
    · exact ⟨f o, by rw [ho]; rfl, hf o⟩
    · exact ⟨o, ho, rfl, rfl⟩
  refine ⟨fun k m hk => ?_, fun k m hk => ?_, fun k m hk => ?_⟩
  · obtain ⟨o, ho, hname⟩ := h.accountlist k m hk
    obtain ⟨o', ho', heq, -⟩ := hfind m o ho
    exact ⟨o', ho', heq ▸ hname⟩
  · obtain ⟨o, ho, hname⟩ := h.entities k m hk
    obtain ⟨o', ho', heq, -⟩ := hfind m o ho
    exact ⟨o', ho', heq ▸ hname⟩
  · obtain ⟨o, ho, hid⟩ := h.entitiesById k m hk
    obtain ⟨o', ho', -, heq⟩ := hfind m o ho
    exact ⟨o', ho', heq ▸ hid⟩

theorem loginsOf_modify : loginsOf m { s with users := s.users.modify mu f } =
    if m = mu then ((s.users.find mu).map fun o => (f o).logins).getD [] else loginsOf m s := by
  rw [loginsOf, Registry.find_modify]
  split_ifs with hm
  · subst hm
    rw [Option.map_map]
    rfl
  · rfl

theorem LoginsOk.unlisted (h : LoginsOk s) (hnot : s.online.find uid ≠ some (some m)) :
    (loginsOf m s).filter (fun u => u.uid ≠ uid) = loginsOf m s := by
  refine List.filter_eq_self.mpr fun u hu => decide_eq_true fun heq => hnot ?_
  rw [← heq, h.listed m u hu]

theorem LoginsOk.unlink (h : LoginsOk s) {x : Option (Option MyUserRef)}
    (honline : ∀ uid', s'.online.find uid' = if uid' = uid then x else s.online.find uid')
    (hx : ∀ m, x ≠ some (some m))
    (hlists : ∀ m, loginsOf m s' = (loginsOf m s).filter (fun u => u.uid ≠ uid)) : LoginsOk s' := by
  refine ⟨fun uid' m hm => ?_, fun m u hu => ?_, fun m => ?_⟩
  · rw [honline] at hm
    split_ifs at hm with heq
    · exact absurd hm (hx m)
    · obtain ⟨u, hu, huid⟩ := h.online uid' m hm
      refine ⟨u, ?_, huid⟩
      rw [hlists, List.mem_filter]
      exact ⟨hu, decide_eq_true (huid ▸ heq)⟩
  · rw [hlists, List.mem_filter, decide_eq_true_eq] at hu
    rw [honline, if_neg hu.2]
    exact h.listed m u hu.1
  · rw [hlists]
    exact (h.nodup m).sublist (List.filter_sublist.map _)

end users

/-! ### Logins -/

structure Logouts (cfg : ChanConfig) (s s' : ServDb) : Prop where
  ok : TablesOk cfg s'
  others : s' = { s with online := s'.online, users := s'.users }
  live : ∀ m, Live s'.users m ↔ Live s.users m

structure LoggedOut (cfg : ChanConfig) (s s' : ServDb) (uid : CString) : Prop
    extends Logouts cfg s s' where
  lists : ∀ m, loginsOf m s' = (loginsOf m s).filter (fun u => u.uid ≠ uid)

section logins
variable {cfg : ChanConfig} {s s' : ServDb} {mu m : MyUserRef} {f : MyUser → MyUser} {uid : CString}
  {online : Registry CString (Option MyUserRef)} {x : Option (Option MyUserRef)} {now : Nat}
  {lc : LogoutConfig}

theorem unlink_account (h : TablesOk cfg s) (hmu : s.online.find uid = some (some mu))
    (hf : ∀ o, (f o).name = o.name ∧ (f o).id = o.id)
    (hlogins : ∀ o, (f o).logins = o.logins.filter (fun u => u.uid ≠ uid))
    (honline : ∀ uid', online.find uid' = if uid' = uid then x else s.online.find uid')
    (hx : ∀ m, x ≠ some (some m)) :
    LoggedOut cfg s { s with online := online, users := s.users.modify mu f } uid := by
  have hlive : ∀ m, Live (s.users.modify mu f) m ↔ Live s.users m := fun m => live_modify
  have hlists : ∀ m, loginsOf m { s with online := online, users := s.users.modify mu f } =
      (loginsOf m s).filter (fun u => u.uid ≠ uid) := by
    intro m
    have hmod := @loginsOf_modify s mu m f
    show loginsOf m { s with users := s.users.modify mu f } = _
    rw [hmod]
    split_ifs with hm
    · subst hm
      rw [loginsOf]
      cases s.users.find m with
      | none => rfl
      | some o => exact hlogins o
    · refine (h.logins.unlisted fun hsome => hm ?_).symm
      rw [hmu] at hsome
      exact (Option.some.inj (Option.some.inj hsome)).symm
  have hnames : NamesOk cfg { s with users := s.users.modify mu f } := h.names.modify hf
  refine ⟨⟨⟨⟨hnames.accountlist, hnames.entities, hnames.entitiesById⟩,
    h.logins.unlink honline hx hlists, ?_, ?_, ?_⟩, rfl, hlive⟩, hlists⟩
  · exact h.sopers.mono (fun m => (hlive m).mpr) rfl rfl
  · exact h.records.mono (fun m => (hlive m).mpr) rfl rfl rfl
  · exact h.entries.mono (fun m => (hlive m).mpr) rfl

theorem unlink_none (h : TablesOk cfg s) (hnone : s.online.find uid = some none)
    (honline : ∀ uid', online.find uid' = if uid' = uid then x else s.online.find uid')
    (hx : ∀ m, x ≠ some (some m)) : LoggedOut cfg s { s with online := online } uid := by
  have hlists : ∀ m, loginsOf m { s with online := online } =
      (loginsOf m s).filter (fun u => u.uid ≠ uid) :=
    fun m => (h.logins.unlisted (by rw [hnone]; nofun)).symm
  have htables : TablesOk cfg { s with online := online } :=
    ⟨⟨h.names.accountlist, h.names.entities, h.names.entitiesById⟩,
      h.logins.unlink honline hx hlists, h.sopers.mono (fun _ => id) rfl rfl,
      h.records.mono (fun _ => id) rfl rfl rfl, h.entries.mono (fun _ => id) rfl⟩
  exact ⟨⟨htables, rfl, fun _ => Iff.rfl⟩, hlists⟩

theorem logout_ok (h : TablesOk cfg s) (hon : (s.online.find uid).isSome) :
    ∃ s', logout uid s = some s' ∧ LoggedOut cfg s s' uid := by
  obtain ⟨x, hx⟩ := Option.isSome_iff_exists.mp hon
  have hset : ∀ uid', (s.online.set uid none).find uid' =
      if uid' = uid then some none else s.online.find uid' := by
    intro uid'
    rw [Registry.find_set]
    split_ifs with heq
    · rw [heq, hx]
      rfl
    · rfl
  rw [logout, hx]
  cases x with
  | none => exact ⟨_, rfl, unlink_none h hx hset fun _ heq => by cases heq⟩
  | some mu =>
    exact ⟨_, rfl, unlink_account h hx (fun _ => ⟨rfl, rfl⟩) (fun _ => rfl) hset
      fun _ heq => by cases heq⟩

theorem userDelete_ok (h : TablesOk cfg s) (hon : (s.online.find uid).isSome) :
    ∃ s', userDelete uid now s = some s' ∧ LoggedOut cfg s s' uid := by
  obtain ⟨x, hx⟩ := Option.isSome_iff_exists.mp hon
  have herase : ∀ uid', (s.online.erase uid).find uid' =
      if uid' = uid then none else s.online.find uid' := fun _ => Registry.find_erase ..
  rw [userDelete, hx, Option.bind_some]
  cases x with
  | none => exact ⟨_, rfl, unlink_none h hx herase nofun⟩
  | some mu =>
    obtain ⟨u, hu, -⟩ := h.logins.online uid mu hx
    have hsome : ∃ o, s.users.find mu = some o := by
      cases hf : s.users.find mu with
      | none =>
        rw [loginsOf, hf] at hu
        cases hu
      | some o => exact ⟨o, rfl⟩
    obtain ⟨o, ho⟩ := hsome
    dsimp only
    rw [ho]
    exact ⟨_, rfl, unlink_account h hx (fun _ => ⟨rfl, rfl⟩) (fun _ => rfl) herase nofun⟩

theorem Logouts.trans {s'' : ServDb} (h : Logouts cfg s s') (h' : Logouts cfg s' s'') :
    Logouts cfg s s'' := by
  refine ⟨h'.ok, ?_, fun m => (h'.live m).trans (h.live m)⟩
  have hothers := h'.others
  rw [h.others] at hothers
  exact hothers

theorem filter_uid_cons {u : User} {rest : List User} (h : ((u :: rest).map User.uid).Nodup) :
    (u :: rest).filter (fun v => v.uid ≠ u.uid) = rest := by
  rw [List.map_cons, List.nodup_cons] at h
  rw [List.filter_cons_of_neg (by simp), List.filter_eq_self]
  intro v hv
  refine decide_eq_true fun heq => h.1 ?_
  exact heq ▸ List.mem_map_of_mem hv

theorem filter_uid_append {before rest : List User} {u : User}
    (h : ((before ++ u :: rest).map User.uid).Nodup) :
    (before ++ u :: rest).filter (fun v => v.uid ≠ u.uid) = before ++ rest := by
  rw [List.map_append, List.nodup_append] at h
  have hbefore : before.filter (fun v => v.uid ≠ u.uid) = before := by
    rw [List.filter_eq_self]
    intro v hv
    exact decide_eq_true (h.2.2 _ (List.mem_map_of_mem hv) _ List.mem_cons_self)
  rw [List.filter_append, filter_uid_cons h.2.1, hbefore]

theorem logoutAll_ok (h : TablesOk cfg s) :
    ∃ s', logoutAll lc now mu s = some s' ∧ Logouts cfg s s' ∧ loginsOf mu s' = lingering lc mu s := by
  let I (rest : List User) (s' : ServDb) : Prop := Logouts cfg s s' ∧
    ∃ before, loginsOf mu s = before ++ rest ∧ loginsOf mu s' = before.filter lc.spares ++ rest
  have hstart : I (loginsOf mu s) s := ⟨⟨h, rfl, fun _ => Iff.rfl⟩, [], rfl, rfl⟩
  have hlist : ∀ rest s', I rest s' →
      (loginsOf mu s').Nodup ∧ ∃ before, loginsOf mu s' = before ++ rest := by
    rintro rest s' ⟨hlog, before, -, hrest⟩
    exact ⟨List.Nodup.of_map _ (hlog.ok.logins.nodup mu), _, hrest⟩
  have hstep : ∀ u rest s', I (u :: rest) s' →
      ∃ s'', logoutUser lc now s' u = some s'' ∧ I rest s'' := by
    rintro u rest s' ⟨hlog, before, hbefore, hrest⟩
    have hmem : u ∈ loginsOf mu s' := by
      rw [hrest]
      exact List.mem_append_right _ List.mem_cons_self
    have hon : (s'.online.find u.uid).isSome := by
      rw [hlog.ok.logins.listed mu u hmem]
      rfl
    have hnext : ∀ s'', lc.spares u = false → LoggedOut cfg s' s'' u.uid → I rest s'' := by
      intro s'' hspares hout
      have hnodup := hlog.ok.logins.nodup mu
      rw [hrest] at hnodup
      refine ⟨hlog.trans hout.toLogouts, before ++ [u], by simp [hbefore], ?_⟩
      rw [hout.lists, hrest, filter_uid_append hnodup]
      simp [hspares]
    rw [logoutUser, killUser]
    by_cases hkills : lc.kills u = true
    · rw [if_pos hkills]
      by_cases hrefused : lc.refused u = true
      · have hspares : lc.spares u = true := by rw [LogoutConfig.spares, hkills, hrefused]; rfl
        rw [if_pos hrefused]
        exact ⟨s', rfl, hlog, before ++ [u], by simp [hbefore], by simp [hrest, hspares]⟩
      · have hspares : lc.spares u = false := by simp [LogoutConfig.spares, hrefused]
        rw [if_neg hrefused]
        obtain ⟨s'', hrun, hout⟩ := @userDelete_ok cfg s' u.uid now hlog.ok hon
        exact ⟨s'', hrun, hnext s'' hspares hout⟩
    · have hspares : lc.spares u = false := by simp [LogoutConfig.spares, hkills]
      rw [if_neg hkills]
      obtain ⟨s'', hrun, hout⟩ := logout_ok hlog.ok hon
      exact ⟨s'', hrun, hnext s'' hspares hout⟩
  obtain ⟨s', hrun, hlog, before, hbefore, hrest⟩ := walkSafe_run hlist hstep hstart (Nat.le_refl _)
  rw [List.append_nil] at hbefore hrest
  exact ⟨s', hrun, hlog, by rw [hrest, lingering, hbefore]⟩

theorem logoutKilled_ok (h : TablesOk cfg s) :
    ∃ s', walkSafe (loginsOf mu) (logoutKilled lc now) (loginsOf mu s).length (loginsOf mu s).head? s =
      some s' ∧ Logouts cfg s s' := by
  let I (rest : List User) (s' : ServDb) : Prop :=
    Logouts cfg s s' ∧ ∃ before, loginsOf mu s' = before ++ rest
  have hstart : I (loginsOf mu s) s := ⟨⟨h, rfl, fun _ => Iff.rfl⟩, [], rfl⟩
  have hlist : ∀ rest s', I rest s' →
      (loginsOf mu s').Nodup ∧ ∃ before, loginsOf mu s' = before ++ rest :=
    fun rest s' hI => ⟨List.Nodup.of_map _ (hI.1.ok.logins.nodup mu), hI.2⟩
  have hstep : ∀ u rest s', I (u :: rest) s' →
      ∃ s'', logoutKilled lc now s' u = some s'' ∧ I rest s'' := by
    rintro u rest s' ⟨hlog, before, hbefore⟩
    have hstays : I rest s' := ⟨hlog, before ++ [u], by simp [hbefore]⟩
    have hmem : u ∈ loginsOf mu s' := by
      rw [hbefore]
      exact List.mem_append_right _ List.mem_cons_self
    have hon : (s'.online.find u.uid).isSome := by
      rw [hlog.ok.logins.listed mu u hmem]
      rfl
    rw [logoutKilled, killUser]
    split_ifs
    · exact ⟨s', rfl, hstays⟩
    · obtain ⟨s'', hrun, hout⟩ := @userDelete_ok cfg s' u.uid now hlog.ok hon
      have hnodup := hlog.ok.logins.nodup mu
      rw [hbefore] at hnodup
      refine ⟨s'', hrun, hlog.trans hout.toLogouts, before, ?_⟩
      rw [hout.lists, hbefore, filter_uid_append hnodup]
    · exact ⟨s', rfl, hstays⟩
  obtain ⟨s', hrun, hlog, -⟩ := walkSafe_run hlist hstep hstart (Nat.le_refl _)
  exact ⟨s', hrun, hlog⟩

theorem login_ok {u : User} (h : TablesOk cfg s) (hon : s.online.find u.uid = some none)
    (hmu : Live s.users mu) : TablesOk cfg (login u now mu s) := by
  obtain ⟨o, ho⟩ := Option.isSome_iff_exists.mp hmu
  have honline : ∀ uid, (s.online.set u.uid (some mu)).find uid =
      if uid = u.uid then some (some mu) else s.online.find uid := by
    intro uid
    rw [Registry.find_set]
    split_ifs with heq
    · rw [heq, hon]
      rfl
    · rfl
  have hlists : ∀ m, loginsOf m (login u now mu s) =
      if m = mu then loginsOf m s ++ [u] else loginsOf m s := by
    intro m
    have hmod := @loginsOf_modify s mu m (addLogin u now)
    show loginsOf m { s with users := s.users.modify mu (addLogin u now) } = _
    rw [hmod]
    split_ifs with hm
    · subst hm
      rw [loginsOf, ho]
      rfl
    · rfl
  have hapart : ∀ m, ∀ v ∈ loginsOf m s, v.uid ≠ u.uid := by
    intro m v hv heq
    have hlisted := h.logins.listed m v hv
    rw [heq, hon] at hlisted
    cases hlisted
  have hlive : ∀ m, Live s.users m → Live (login u now mu s).users m := fun m => live_modify.mpr
  have hnames : NamesOk cfg { s with users := s.users.modify mu (addLogin u now) } :=
    h.names.modify fun _ => ⟨rfl, rfl⟩
  refine ⟨⟨hnames.accountlist, hnames.entities, hnames.entitiesById⟩,
    ⟨fun uid m hm => ?_, fun m v hv => ?_, fun m => ?_⟩, h.sopers.mono hlive rfl rfl,
    h.records.mono hlive rfl rfl rfl, h.entries.mono hlive rfl⟩
  · rw [hlists]
    replace hm : (s.online.set u.uid (some mu)).find uid = some (some m) := hm
    rw [honline] at hm
    split_ifs at hm with heq
    · cases hm
      rw [if_pos rfl]
      exact ⟨u, List.mem_append_right _ (List.mem_singleton_self u), heq.symm⟩
    · obtain ⟨v, hv, huid⟩ := h.logins.online uid m hm
      refine ⟨v, ?_, huid⟩
      split_ifs
      · exact List.mem_append_left _ hv
      · exact hv
  · show (s.online.set u.uid (some mu)).find v.uid = some (some m)
    rw [hlists] at hv
    rw [honline]
    have hold : v ∈ loginsOf m s → (if v.uid = u.uid then some (some mu) else s.online.find v.uid) =
        some (some m) := by
      intro hin
      rw [if_neg (hapart m v hin)]
      exact h.logins.listed m v hin
    split_ifs at hv with hm
    · obtain hin | hin := List.mem_append.mp hv
      · exact hold hin
      · rw [List.mem_singleton.mp hin, if_pos rfl, hm]
    · exact hold hv
  · rw [hlists]
    split_ifs
    · rw [List.map_append, List.nodup_append]
      refine ⟨h.logins.nodup m, List.nodup_singleton _, fun a ha b hb => ?_⟩
      obtain ⟨v, hv, rfl⟩ := List.mem_map.mp ha
      rw [List.mem_singleton.mp hb]
      exact hapart m v hv
    · exact h.logins.nodup m

end logins

end ChatServices.ChanServ.Tables
