import ChatServices.ChanServ.AccountsOk

/-! The operations on accounts, entities, services operators, nicks, fingerprints, cookies and
access entries keep every pointer to an account sound. -/
namespace ChatServices.ChanServ.Tables
open ChatServices.Lib ChatServices.Lib.Mask ChatServices.Lib.Walk ChatServices.Text
open ChatServices.ChanServ.Heap

/-! ### Services operators -/

section sopers
variable {cfg : ChanConfig} {s s' : ServDb} {mu : MyUserRef} {r : SoperRef} {name : CString} {conf : Bool}

theorem soperFind_some (h : soperFind s mu = some r) :
    ∃ sp, s.soperlist.find r = some sp ∧ sp.myuser = some mu := by
  obtain ⟨e, he, rfl⟩ := Option.map_eq_some_iff.mp h
  have hmem := (Registry.find_eq_some_iff ..).mpr (List.mem_of_find?_eq_some he)
  exact ⟨e.2, hmem, by simpa using List.find?_some he⟩

theorem soperFind_none (h : soperFind s mu = none) {sp : Soper} (hf : s.soperlist.find r = some sp) :
    sp.myuser ≠ some mu := by
  rw [soperFind, Option.map_eq_none_iff, List.find?_eq_none] at h
  simpa using h _ ((Registry.find_eq_some_iff ..).mp hf)

structure SoperChange (cfg : ChanConfig) (s s' : ServDb) : Prop where
  ok : TablesOk cfg s'
  others : s' = { s with soperlist := s'.soperlist, soper := s'.soper }

theorem SoperChange.trans {s'' : ServDb} (h : SoperChange cfg s s') (h' : SoperChange cfg s' s'') :
    SoperChange cfg s s'' := by
  refine ⟨h'.ok, ?_⟩
  have hothers := h'.others
  rw [h.others] at hothers
  exact hothers

theorem TablesOk.sopers_change (h : TablesOk cfg s) (hsopers : SopersOk s')
    (hothers : s' = { s with soperlist := s'.soperlist, soper := s'.soper }) : SoperChange cfg s s' := by
  refine ⟨⟨?_, ?_, hsopers, ?_, ?_⟩, hothers⟩
  · rw [hothers]
    exact ⟨h.names.accountlist, h.names.entities, h.names.entitiesById⟩
  · rw [hothers]
    exact ⟨h.logins.online, h.logins.listed, h.logins.nodup⟩
  · rw [hothers]
    exact h.records.mono (fun _ => id) rfl rfl rfl
  · rw [hothers]
    exact h.entries.mono (fun _ => id) rfl

theorem soperDelete_ok {sp : Soper} (h : TablesOk cfg s) (hf : s.soperlist.find r = some sp) :
    ∃ s', soperDelete s r = some s' ∧ SoperChange cfg s s' ∧ s'.soperlist = s.soperlist.erase r := by
  have hkept : ∀ r' sp', (s.soperlist.erase r).find r' = some sp' →
      r' ≠ r ∧ s.soperlist.find r' = some sp' := by
    intro r' sp' hf'
    rw [Registry.find_erase] at hf'
    split_ifs at hf' with hr
    exact ⟨hr, hf'⟩
  rw [soperDelete, hf, Option.bind_some]
  cases hmu : sp.myuser with
  | none =>
    refine ⟨_, rfl, h.sopers_change (fun r' sp' m hf' hm => ?_) rfl, rfl⟩
    exact h.sopers r' sp' m (hkept r' sp' hf').2 hm
  | some mu =>
    obtain ⟨hlive, hback⟩ := h.sopers r sp mu hf hmu
    obtain ⟨o, ho⟩ := Option.isSome_iff_exists.mp hlive
    dsimp only
    rw [ho]
    refine ⟨_, rfl, h.sopers_change (fun r' sp' m hf' hm => ?_) rfl, rfl⟩
    obtain ⟨hr, hold⟩ := hkept r' sp' hf'
    obtain ⟨hlive', hback'⟩ := h.sopers r' sp' m hold hm
    -- the account that loses its pointer had it to the operator that goes
    have hne : m ≠ mu := by
      intro heq
      rw [heq, hback] at hback'
      exact hr (Option.some.inj hback').symm
    exact ⟨hlive', by rw [← hback']; exact if_neg hne⟩

theorem soperInsert_ok {mu : Option MyUserRef} (h : TablesOk cfg s) (hnew : s.soperlist.find r = none)
    (hmu : ∀ m ∈ mu, Live s.users m ∧ soperFind s m = none) :
    SoperChange cfg s (soperInsert r mu name conf s) := by
  have hfind : ∀ (sp : Soper) r' sp', (s.soperlist.insertNew r sp).find r' = some sp' →
      r' = r ∧ sp' = sp ∨ s.soperlist.find r' = some sp' := by
    intro sp r' sp' hf
    rw [Registry.find_insertNew] at hf
    by_cases hr : r = r'
    · rw [← hr, hnew, Option.none_or, if_pos rfl] at hf
      exact .inl ⟨hr.symm, (Option.some.inj hf).symm⟩
    · rw [if_neg hr, Option.or_none] at hf
      exact .inr hf
  cases mu with
  | none =>
    refine h.sopers_change (fun r' sp' m hf hm => ?_) rfl
    obtain ⟨-, rfl⟩ | hold := hfind _ r' sp' hf
    · cases hm
    · exact h.sopers r' sp' m hold hm
  | some mu =>
    obtain ⟨hlive, hnone⟩ := hmu mu rfl
    refine h.sopers_change (fun r' sp' m hf hm => ?_) rfl
    obtain ⟨rfl, rfl⟩ | hold := hfind _ r' sp' hf
    · cases hm
      exact ⟨hlive, if_pos rfl⟩
    · obtain ⟨hlive', hback⟩ := h.sopers r' sp' m hold hm
      have hne : m ≠ mu := fun heq => soperFind_none hnone hold (heq ▸ hm)
      exact ⟨hlive', by rw [← hback]; exact if_neg hne⟩

theorem myuserFind_live (h : TablesOk cfg s) (hmu : myuserFind cfg s name = some mu) :
    Live s.users mu := by
  obtain ⟨mt, hmt, huser⟩ := Option.bind_eq_some_iff.mp hmu
  have heq : mt = .user mu := by cases mt <;> simp_all [asUser]
  obtain ⟨o, ho, -⟩ := h.names.entities _ mu (heq ▸ hmt)
  rw [Live, ho]
  rfl

theorem soperAdd_ok (h : TablesOk cfg s) (hnew : s.soperlist.find r = none) :
    ∃ s', soperAdd cfg r name conf s = some s' ∧ SoperChange cfg s s' := by
  have hlive : ∀ m ∈ myuserFind cfg s name, Live s.users m := fun m hm => myuserFind_live h hm
  rw [soperAdd]
  generalize myuserFind cfg s name = mu at hlive
  split
  · rename_i hold
    refine ⟨_, rfl, soperInsert_ok h hnew fun m hm => ⟨hlive m hm, ?_⟩⟩
    cases hm
    exact hold
  · rename_i old hold
    have hsome : ∃ sp, s.soperlist.find old = some sp := by
      cases mu with
      | some m =>
        obtain ⟨sp, hsp, -⟩ := soperFind_some hold
        exact ⟨sp, hsp⟩
      | none =>
        obtain ⟨e, he, rfl⟩ := Option.map_eq_some_iff.mp hold
        exact ⟨e.2, (Registry.find_eq_some_iff ..).mpr (List.mem_of_find?_eq_some he)⟩
    obtain ⟨sp, hsp⟩ := hsome
    rw [hsp, Option.bind_some]
    split_ifs
    · obtain ⟨s₁, hrun, hchange, hlist⟩ := soperDelete_ok h hsp
      have husers : s₁.users = s.users := by rw [hchange.others]
      have hnew₁ : s₁.soperlist.find r = none := by
        rw [hlist, Registry.find_erase, hnew]
        split_ifs <;> rfl
      have hins : SoperChange cfg s₁ (soperInsert r mu name conf s₁) := by
        refine soperInsert_ok hchange.ok hnew₁ fun m hm => ⟨husers ▸ hlive m hm, ?_⟩
        -- the account had no operator but the one that went
        by_contra hne
        obtain ⟨r', hr'⟩ := Option.ne_none_iff_exists'.mp hne
        obtain ⟨sp', hsp', hmu'⟩ := soperFind_some hr'
        rw [hlist, Registry.find_erase] at hsp'
        split_ifs at hsp' with hr
        cases hm
        obtain ⟨sp₀, hsp₀, hmu₀⟩ := soperFind_some hold
        have hback₀ := (h.sopers old sp₀ m hsp₀ hmu₀).2
        rw [(h.sopers r' sp' m hsp' hmu').2] at hback₀
        exact hr (Option.some.inj hback₀)
      exact ⟨_, by rw [hrun]; rfl, hchange.trans hins⟩
    · exact ⟨s, rfl, h, rfl⟩

theorem soperDrop_ok (h : TablesOk cfg s) :
    ∃ s', soperDrop mu s = some s' ∧ SoperChange cfg s s' ∧
      ∀ r sp, s'.soperlist.find r = some sp → sp.myuser ≠ some mu := by
  rw [soperDrop]
  split_ifs with hsome
  · obtain ⟨r, hr⟩ := Option.isSome_iff_exists.mp hsome
    obtain ⟨sp, hsp, hmu⟩ := soperFind_some hr
    have hback := (h.sopers r sp mu hsp hmu).2
    obtain ⟨s', hrun, hchange, hlist⟩ := soperDelete_ok h hsp
    rw [hback]
    refine ⟨s', hrun, hchange, fun r' sp' hf hmu' => ?_⟩
    rw [hlist, Registry.find_erase] at hf
    split_ifs at hf with hne
    have hback' := (h.sopers r' sp' mu hf hmu').2
    rw [hback] at hback'
    exact hne (Option.some.inj hback').symm
  · refine ⟨s, rfl, ⟨h, rfl⟩, fun r sp hf => ?_⟩
    exact soperFind_none (Option.not_isSome_iff_eq_none.mp hsome) hf

end sopers

/-! ### Accounts and their names -/

section accounts
variable {cfg : ChanConfig} {s s' : ServDb} {mu : MyUserRef} {name : CString}

theorem NamesOk.other (h : NamesOk cfg s) {mt : Entity} {id : CString} (hmt : asUser mt = none) :
    NamesOk cfg (myentityPut cfg mt name id s) := by
  have hold : ∀ {t : Registry CString Entity} {k k' : CString} {m : MyUserRef},
      (t.insertNew k mt).find k' = some (.user m) → t.find k' = some (.user m) := by
    intro t k k' m hk
    rw [Registry.find_insertNew] at hk
    cases hf : t.find k' with
    | some mt' => rwa [hf, Option.some_or] at hk
    | none =>
      rw [hf, Option.none_or] at hk
      split_ifs at hk
      obtain rfl := Option.some.inj hk
      cases hmt
  exact ⟨h.accountlist, fun k m hk => h.entities k m (hold hk),
    fun k m hk => h.entitiesById k m (hold hk)⟩

theorem NamesOk.del (h : NamesOk cfg s) {id : CString} : NamesOk cfg (myentityDel cfg name id s) := by
  have hold : ∀ {t : Registry CString Entity} {k k' : CString} {mt : Entity},
      (t.erase k).find k' = some mt → t.find k' = some mt := by
    intro t k k' mt hk
    rw [Registry.find_erase] at hk
    split_ifs at hk
    exact hk
  exact ⟨h.accountlist, fun k m hk => h.entities k m (hold hk),
    fun k m hk => h.entitiesById k m (hold hk)⟩

theorem NamesOk.enter (h : NamesOk cfg s) {o : MyUser} (ho : s.users.find mu = some o) :
    NamesOk cfg { myentityPut cfg (.user mu) o.name o.id s with
      accountlist := s.accountlist.insertNew (irccasecanon cfg.casemapping o.name) mu } := by
  have hnew : ∀ {α : Type} {t : Registry CString α} {k k' : CString} {a a' : α},
      (t.insertNew k a).find k' = some a' → t.find k' = some a' ∨ k = k' ∧ a' = a := by
    intro α t k k' a a' hk
    rw [Registry.find_insertNew] at hk
    cases hf : t.find k' with
    | some b =>
      rw [hf, Option.some_or] at hk
      exact .inl hk
    | none =>
      rw [hf, Option.none_or] at hk
      split_ifs at hk with heq
      exact .inr ⟨heq, (Option.some.inj hk).symm⟩
  refine ⟨fun k m hk => ?_, fun k m hk => ?_, fun k m hk => ?_⟩
  · obtain hold | ⟨rfl, rfl⟩ := hnew hk
    · exact h.accountlist k m hold
    · exact ⟨o, ho, rfl⟩
  · obtain hold | ⟨rfl, heq⟩ := hnew hk
    · exact h.entities k m hold
    · cases heq
      exact ⟨o, ho, rfl⟩
  · obtain hold | ⟨rfl, heq⟩ := hnew hk
    · exact h.entitiesById k m hold
    · cases heq
      exact ⟨o, ho, rfl⟩

theorem NamesOk.grow (h : NamesOk cfg s) (hkeep : ∀ m o, s.users.find m = some o → s'.users.find m = some o)
    (haccountlist : s'.accountlist = s.accountlist) (hentities : s'.entities = s.entities)
    (hbyid : s'.entitiesById = s.entitiesById) : NamesOk cfg s' := by
  refine ⟨fun k m hk => ?_, fun k m hk => ?_, fun k m hk => ?_⟩
  · obtain ⟨o, ho, hname⟩ := h.accountlist k m (haccountlist ▸ hk)
    exact ⟨o, hkeep m o ho, hname⟩
  · obtain ⟨o, ho, hname⟩ := h.entities k m (hentities ▸ hk)
    exact ⟨o, hkeep m o ho, hname⟩
  · obtain ⟨o, ho, hid⟩ := h.entitiesById k m (hbyid ▸ hk)
    exact ⟨o, hkeep m o ho, hid⟩

theorem NamesOk.forget (h : NamesOk cfg s) {o : MyUser} (ho : s.users.find mu = some o) :
    (∀ k, (s.accountlist.erase (irccasecanon cfg.casemapping o.name)).find k ≠ some mu) ∧
      (∀ k, (s.entities.erase (irccasecanon cfg.casemapping o.name)).find k ≠ some (.user mu)) ∧
      ∀ k, (s.entitiesById.erase o.id).find k ≠ some (.user mu) := by
  refine ⟨fun k hk => ?_, fun k hk => ?_, fun k hk => ?_⟩
  · rw [Registry.find_erase] at hk
    split_ifs at hk with hne
    obtain ⟨o', ho', hname⟩ := h.accountlist k mu hk
    rw [ho] at ho'
    exact hne (Option.some.inj ho' ▸ hname).symm
  · rw [Registry.find_erase] at hk
    split_ifs at hk with hne
    obtain ⟨o', ho', hname⟩ := h.entities k mu hk
    rw [ho] at ho'
    exact hne (Option.some.inj ho' ▸ hname).symm
  · rw [Registry.find_erase] at hk
    split_ifs at hk with hne
    obtain ⟨o', ho', hid⟩ := h.entitiesById k mu hk
    rw [ho] at ho'
    exact hne (Option.some.inj ho' ▸ hid).symm

theorem myuserAddId_ok {id : Option CString} {flags : Flags} {accessList : List CString}
    {metadata : Metadata} (h : TablesOk cfg s) (hnew : s.users.find mu = none) :
    TablesOk cfg (myuserAddId cfg mu id name flags accessList metadata s) := by
  rw [myuserAddId]
  split_ifs
  · exact h
  · generalize newId s id = ids
    let o : MyUser := ⟨name, ids.1, flags, [], 0, none, accessList, metadata⟩
    have hself : (s.users.insertNew mu o).find mu = some o := by
      rw [Registry.find_insertNew, hnew, if_pos rfl, Option.none_or]
    have hkeep : ∀ m o', s.users.find m = some o' → (s.users.insertNew mu o).find m = some o' := by
      intro m o' hf
      rw [Registry.find_insertNew, hf, Option.some_or]
    have hmine : Live (s.users.insertNew mu o) mu := by
      rw [Live, hself]
      rfl
    have hlive : ∀ m, Live s.users m → Live (s.users.insertNew mu o) m := by
      intro m hm
      obtain ⟨o', ho'⟩ := Option.isSome_iff_exists.mp hm
      rw [Live, hkeep m o' ho']
      rfl
    have hne : ∀ m, Live s.users m → m ≠ mu := by
      intro m hm heq
      rw [Live, heq, hnew] at hm
      cases hm
    have hlogins : ∀ m, loginsOf m { s with users := s.users.insertNew mu o } = loginsOf m s := by
      intro m
      rw [loginsOf, Registry.find_insertNew, loginsOf]
      by_cases hm : mu = m
      · rw [← hm, hnew, if_pos rfl]
        rfl
      · rw [if_neg hm, Option.or_none]
    have hgrown : NamesOk cfg { s with users := s.users.insertNew mu o } :=
      h.names.grow hkeep rfl rfl rfl
    have hnames := hgrown.enter hself
    refine ⟨⟨hnames.accountlist, hnames.entities, hnames.entitiesById⟩,
      ⟨fun uid m hm => ?_, fun m u hu => ?_, fun m => ?_⟩, ?_, h.records.mono hlive rfl rfl rfl,
      h.entries.mono hlive rfl⟩
    · obtain ⟨u, hu, huid⟩ := h.logins.online uid m hm
      exact ⟨u, (hlogins m).symm ▸ hu, huid⟩
    · exact h.logins.listed m u ((hlogins m) ▸ hu)
    · have hold := h.logins.nodup m
      rwa [← hlogins m] at hold
    · intro r sp m hf hm
      have hback : ∀ sp', s.soperlist.find r = some sp' → sp'.myuser = some m →
          Live (s.users.insertNew mu o) m ∧
            (if m = mu then soperFindNamed cfg s name else s.soper m) = some r := by
        intro sp' hf' hm'
        obtain ⟨hold, hback⟩ := h.sopers r sp' m hf' hm'
        exact ⟨hlive m hold, by rw [if_neg (hne m hold), hback]⟩
      cases hnamed : soperFindNamed cfg s name with
      | none =>
        rw [hnamed] at hback
        refine hback sp ?_ hm
        rwa [hnamed] at hf
      | some r₀ =>
        rw [hnamed] at hback
        have hmod : (s.soperlist.modify r₀ fun sp => { sp with myuser := some mu }).find r =
            some sp := by
          rwa [hnamed] at hf
        rw [Registry.find_modify] at hmod
        split_ifs at hmod with hr
        · obtain ⟨sp', -, rfl⟩ := Option.map_eq_some_iff.mp hmod
          cases hm
          refine ⟨hmine, ?_⟩
          show (if mu = mu then some r₀ else s.soper mu) = some r
          rw [if_pos rfl, hr]
        · exact hback sp hmod hm

theorem LoginsOk.modify {f : MyUser → MyUser} (h : LoginsOk s) (hf : ∀ o, (f o).logins = o.logins) :
    LoginsOk { s with users := s.users.modify mu f } := by
  have hlists : ∀ m, loginsOf m { s with users := s.users.modify mu f } = loginsOf m s := by
    intro m
    rw [loginsOf_modify]
    split_ifs with hm
    · rw [hm, loginsOf]
      congr 2
      exact funext hf
    · rfl
  refine ⟨fun uid m hm => ?_, fun m u hu => ?_, fun m => ?_⟩
  · obtain ⟨u, hu, huid⟩ := h.online uid m hm
    exact ⟨u, (hlists m).symm ▸ hu, huid⟩
  · exact h.listed m u ((hlists m) ▸ hu)
  · have hold := h.nodup m
    rwa [← hlists m] at hold

theorem NamesOk.renamed (h : NamesOk cfg s) {o : MyUser} (ho : s.users.find mu = some o) :
    NamesOk cfg (myentityDel cfg o.name o.id { s with
      accountlist := s.accountlist.erase (irccasecanon cfg.casemapping o.name)
      users := s.users.modify mu fun o => { o with name := name } }) := by
  obtain ⟨haccount, hentity, hid⟩ := h.forget ho
  have hfind : ∀ m o', m ≠ mu → s.users.find m = some o' →
      (s.users.modify mu fun o => { o with name := name }).find m = some o' := by
    intro m o' hm ho'
    rw [Registry.find_modify, if_neg hm, ho']
  have hold : ∀ {α : Type} {t : Registry CString α} {k k' : CString} {a : α},
      (t.erase k).find k' = some a → t.find k' = some a := by
    intro α t k k' a hk
    rw [Registry.find_erase] at hk
    split_ifs at hk
    exact hk
  refine ⟨fun k m hk => ?_, fun k m hk => ?_, fun k m hk => ?_⟩
  · obtain ⟨o', ho', hname⟩ := h.accountlist k m (hold hk)
    exact ⟨o', hfind m o' (fun heq => haccount k (heq ▸ hk)) ho', hname⟩
  · obtain ⟨o', ho', hname⟩ := h.entities k m (hold hk)
    exact ⟨o', hfind m o' (fun heq => hentity k (heq ▸ hk)) ho', hname⟩
  · obtain ⟨o', ho', hname⟩ := h.entitiesById k m (hold hk)
    exact ⟨o', hfind m o' (fun heq => hid k (heq ▸ hk)) ho', hname⟩

theorem myuserRename_ok {lc : LogoutConfig} {now : Nat} (h : TablesOk cfg s) (hmu : Live s.users mu) :
    ∃ s', myuserRename cfg lc now mu name s = some s' ∧ TablesOk cfg s' := by
  obtain ⟨s₁, hrun, hlog⟩ := @logoutKilled_ok cfg s mu now lc h
  obtain ⟨o, ho⟩ := Option.isSome_iff_exists.mp ((hlog.live mu).mpr hmu)
  have hok := hlog.ok
  have hself : (s₁.users.modify mu fun o => { o with name := name }).find mu =
      some { o with name := name } := by
    rw [Registry.find_modify, if_pos rfl, ho]
    rfl
  have hnames := (@NamesOk.renamed cfg s₁ mu name hok.names o ho).enter hself
  have hlogins : LoginsOk { s₁ with users := s₁.users.modify mu fun o => { o with name := name } } :=
    hok.logins.modify fun _ => rfl
  have hlive : ∀ m, Live s₁.users m → Live (s₁.users.modify mu fun o => { o with name := name }) m :=
    fun m => live_modify.mpr
  rw [myuserRename, hrun, Option.bind_some, ho]
  exact ⟨_, rfl, ⟨hnames.accountlist, hnames.entities, hnames.entitiesById⟩,
    ⟨hlogins.online, hlogins.listed, hlogins.nodup⟩, hok.sopers.mono hlive rfl rfl,
    hok.records.mono hlive rfl rfl rfl, hok.entries.mono hlive rfl⟩

def accountSet (mu : MyUserRef) (flags : Flags) (accessList : List CString) (metadata : Metadata)
    (s : ServDb) : ServDb :=
  { s with users := s.users.modify mu fun o =>
      { o with flags := flags, accessList := accessList, metadata := metadata } }

theorem accountSet_ok {flags : Flags} {accessList : List CString} {metadata : Metadata}
    (h : TablesOk cfg s) : TablesOk cfg (accountSet mu flags accessList metadata s) := by
  have hnames : NamesOk cfg (accountSet mu flags accessList metadata s) :=
    h.names.modify fun _ => ⟨rfl, rfl⟩
  have hlogins : LoginsOk (accountSet mu flags accessList metadata s) :=
    h.logins.modify fun _ => rfl
  have hlive : ∀ m, Live s.users m → Live (accountSet mu flags accessList metadata s).users m :=
    fun m => live_modify.mpr
  exact ⟨hnames, hlogins, h.sopers.mono hlive rfl rfl, h.records.mono hlive rfl rfl rfl,
    h.entries.mono hlive rfl⟩

end accounts

/-! ### Nicks, fingerprints and cookies -/

section records
variable {cfg : ChanConfig} {s : ServDb} {mu : MyUserRef} {r : NickRef} {name : CString}

theorem TablesOk.with_records (h : TablesOk cfg s) {nicks : Owned NickRef MyUserRef CString MyNick}
    {certfps : Owned CertfpRef MyUserRef CString MyCertfp} {authcookies : Registry CookieRef Authcookie}
    (hrecords : RecordsOk cfg
      { s with nicks := nicks, certfps := certfps, authcookies := authcookies }) :
    TablesOk cfg { s with nicks := nicks, certfps := certfps, authcookies := authcookies } :=
  ⟨⟨h.names.accountlist, h.names.entities, h.names.entitiesById⟩,
    ⟨h.logins.online, h.logins.listed, h.logins.nodup⟩, h.sopers.mono (fun _ => id) rfl rfl,
    hrecords, h.entries.mono (fun _ => id) rfl⟩

theorem find_add {α : Type} {t : Registry Nat α} {a a' : α} {r' : Nat}
    (h : (t.insertNew r a).find r' = some a') : t.find r' = some a' ∨ a' = a := by
  rw [Registry.find_insertNew] at h
  cases hf : t.find r' with
  | some b =>
    rw [hf, Option.some_or] at h
    exact .inl h
  | none =>
    rw [hf, Option.none_or] at h
    split_ifs at h
    exact .inr (Option.some.inj h).symm

theorem find_of_erase {α : Type} {t : Registry Nat α} {a : α} {r' : Nat}
    (h : (t.erase r).find r' = some a) : t.find r' = some a := by
  rw [Registry.find_erase] at h
  split_ifs at h
  exact h

theorem mynickAdd_ok (h : TablesOk cfg s) (hnew : s.nicks.objs.find r = none)
    (hmu : Live s.users mu) : TablesOk cfg (mynickAdd cfg r mu name s) := by
  rw [mynickAdd]
  split_ifs
  · exact h
  · refine h.with_records ⟨h.records.nicks.add hnew, fun r' mn hf => ?_, h.records.certfps,
      h.records.certfpMu, h.records.authcookies⟩
    obtain hold | rfl := find_add hf
    · exact h.records.nickOwner r' mn hold
    · exact hmu

theorem mynickDelete_ok (h : TablesOk cfg s) (hr : (s.nicks.objs.find r).isSome) :
    ∃ s', mynickDelete cfg s r = some s' ∧ TablesOk cfg s' := by
  obtain ⟨mn, hmn⟩ := Option.isSome_iff_exists.mp hr
  obtain ⟨nicks, hrun, hok, hobjs, -⟩ := h.records.nicks.delete hmn
  have hrecords : RecordsOk cfg { s with nicks := nicks } :=
    ⟨hok, fun r' mn' hf => h.records.nickOwner r' mn' (find_of_erase (hobjs ▸ hf)),
      h.records.certfps, h.records.certfpMu, h.records.authcookies⟩
  exact ⟨_, by rw [mynickDelete, hrun]; rfl, h.with_records hrecords⟩

theorem mycertfpAdd_ok {certfp : CString} (h : TablesOk cfg s)
    (hnew : s.certfps.objs.find r = none) (hmu : Live s.users mu) :
    TablesOk cfg (mycertfpAdd r mu certfp s) := by
  refine h.with_records ⟨h.records.nicks, h.records.nickOwner, h.records.certfps.add hnew,
    fun r' mcfp hf => ?_, h.records.authcookies⟩
  obtain hold | rfl := find_add hf
  · exact h.records.certfpMu r' mcfp hold
  · exact hmu

theorem mycertfpDelete_ok (h : TablesOk cfg s) (hr : (s.certfps.objs.find r).isSome) :
    ∃ s', mycertfpDelete s r = some s' ∧ TablesOk cfg s' := by
  obtain ⟨mcfp, hmcfp⟩ := Option.isSome_iff_exists.mp hr
  obtain ⟨certfps, hrun, hok, hobjs, -⟩ := h.records.certfps.delete hmcfp
  have hrecords : RecordsOk cfg { s with certfps := certfps } :=
    ⟨h.records.nicks, h.records.nickOwner, hok,
      fun r' mcfp' hf => h.records.certfpMu r' mcfp' (find_of_erase (hobjs ▸ hf)),
      h.records.authcookies⟩
  exact ⟨_, by rw [mycertfpDelete, hrun]; rfl, h.with_records hrecords⟩

theorem authcookieCreate_ok {ticket : CString} {now : Nat} (h : TablesOk cfg s)
    (hmu : Live s.users mu) : TablesOk cfg (authcookieCreate r mu ticket now s) := by
  refine h.with_records ⟨h.records.nicks, h.records.nickOwner, h.records.certfps,
    h.records.certfpMu, fun r' ac hf => ?_⟩
  obtain hold | rfl := find_add hf
  · exact h.records.authcookies r' ac hold
  · exact hmu

theorem authcookieDestroy_ok (h : TablesOk cfg s) : TablesOk cfg (authcookieDestroy r s) :=
  h.with_records ⟨h.records.nicks, h.records.nickOwner, h.records.certfps, h.records.certfpMu,
    fun r' ac hf => h.records.authcookies r' ac (find_of_erase hf)⟩

end records

end ChatServices.ChanServ.Tables
