import ChatServices.NickServ.Registration

/-! Who owns a nick: the indexes, the lists of the accounts and the names of the accounts agree,
whatever the order of the commands, as long as no nick is grouped that is too long. -/
namespace ChatServices.NickServ.Registration
open ChatServices.Text ChatServices.Lib ChatServices.Lib.Run

/-! ### The tables -/

section tables
variable (cfg : Config)

def Names (accounts : Registry Nat Account) (t : Registry CString Nat) : Prop :=
  ∀ k a, t.find k = some a ↔ ∃ mu, accounts.find a = some mu ∧ nameKey cfg mu.name = k

structure NicksOk (s : State) : Prop where
  nicks : Owned.Ok Nick.owner (nickKey cfg) s.nicks
  indexed : Owned.Indexed (nickKey cfg) s.nicks
  short : ∀ n mn, s.nicks.objs.find n = some mn → mn.nick.length < NICKLEN
  owner : ∀ n mn, s.nicks.objs.find n = some mn → (s.accounts.find mn.owner).isSome
  named : ∀ a mu, s.accounts.find a = some mu → ∃ n mn, s.nicks.objs.find n = some mn ∧
    mn.owner = a ∧ nickKey cfg mn = nameKey cfg mu.name
  entities : Names cfg s.accounts s.entities
  accountlist : Names cfg s.accounts s.accountlist

end tables

structure SameTables (s s' : State) : Prop where
  accounts : s'.accounts = s.accounts
  entities : s'.entities = s.entities
  accountlist : s'.accountlist = s.accountlist
  nicks : s'.nicks = s.nicks

section names
variable {cfg : Config} {accounts : Registry Nat Account} {t : Registry CString Nat} {a : Nat}
  {mu : Account} {name : CString}

variable (mu) in
theorem Names.insertNew (h : Names cfg accounts t) (hfree : accounts.find a = none)
    (hname : t.find (nameKey cfg mu.name) = none) :
    Names cfg (accounts.insertNew a mu) (t.insertNew (nameKey cfg mu.name) a) := by
  intro k b
  rw [Registry.find_insertNew, Registry.find_insertNew]
  by_cases hba : b = a
  · subst hba
    have hno : t.find k ≠ some b := by
      intro hk
      obtain ⟨mu', hmu', -⟩ := (h k b).mp hk
      rw [hfree] at hmu'
      cases hmu'
    rw [hfree, if_pos rfl, Option.none_or]
    by_cases hk : nameKey cfg mu.name = k
    · rw [← hk, hname, if_pos rfl, Option.none_or]
      simp
    · rw [if_neg hk, Option.or_none]
      constructor
      · exact fun hfind => absurd hfind hno
      · rintro ⟨mu', hmu', hkey⟩
        obtain rfl := Option.some.inj hmu'
        exact absurd hkey hk
  · rw [if_neg (Ne.symm hba), Option.or_none, ← h k b]
    cases hk : t.find k with
    | some b' => rw [Option.some_or]
    | none =>
      rw [Option.none_or]
      split_ifs <;> simp [Ne.symm hba]

theorem Names.erase (h : Names cfg accounts t) (hmu : accounts.find a = some mu) :
    Names cfg (accounts.erase a) (t.erase (nameKey cfg mu.name)) := by
  have hself : t.find (nameKey cfg mu.name) = some a := (h _ _).mpr ⟨mu, hmu, rfl⟩
  intro k b
  rw [Registry.find_erase, Registry.find_erase]
  by_cases hk : k = nameKey cfg mu.name
  · rw [if_pos hk]
    refine ⟨nofun, ?_⟩
    rintro ⟨mu', hmu', hkey⟩
    split_ifs at hmu' with hba
    have hfind : t.find k = some b := (h k b).mpr ⟨mu', hmu', hkey⟩
    rw [hk, hself] at hfind
    exact absurd (Option.some.inj hfind).symm hba
  · rw [if_neg hk, h k b]
    by_cases hba : b = a
    · rw [if_pos hba, hba, hmu]
      refine ⟨?_, nofun⟩
      rintro ⟨mu', hmu', hkey⟩
      obtain rfl := Option.some.inj hmu'
      exact absurd hkey.symm hk
    · rw [if_neg hba]

theorem Names.rename (h : Names cfg accounts t) (hmu : accounts.find a = some mu)
    (hname : ∀ b, t.find (nameKey cfg name) = some b → b = a) :
    Names cfg (accounts.modify a fun mu => { mu with name := name })
      ((t.erase (nameKey cfg mu.name)).insertNew (nameKey cfg name) a) := by
  have herased := h.erase hmu
  have hfree : (t.erase (nameKey cfg mu.name)).find (nameKey cfg name) = none := by
    cases hfind : (t.erase (nameKey cfg mu.name)).find (nameKey cfg name) with
    | none => rfl
    | some b =>
      obtain ⟨mu', hmu', -⟩ := (herased _ _).mp hfind
      rw [Registry.find_erase] at hfind hmu'
      split_ifs at hfind hmu' with hkey hba
      exact absurd (hname b hfind) hba
  have hgone : (accounts.erase a).find a = none := by rw [Registry.find_erase, if_pos rfl]
  have hnew := Names.insertNew { mu with name := name } herased hgone hfree
  intro k b
  rw [hnew k b, Registry.find_insertNew, Registry.find_erase, Registry.find_modify]
  by_cases hba : b = a
  · simp [hba, hmu]
  · simp [hba, Ne.symm hba]

end names

/-! ### What one change keeps -/

section changes
variable {cfg : Config} {s s' : State} {a n : Nat} {mu : Account} {mn : Nick} {name : CString}

theorem SameTables.ok (hs : SameTables s s') (h : NicksOk cfg s) : NicksOk cfg s' := by
  obtain ⟨haccounts, hentities, haccountlist, hnicks⟩ := hs
  constructor
  · rw [hnicks]
    exact h.nicks
  · rw [hnicks]
    exact h.indexed
  · rw [hnicks]
    exact h.short
  · rw [hnicks, haccounts]
    exact h.owner
  · rw [hnicks, haccounts]
    exact h.named
  · rw [haccounts, hentities]
    exact h.entities
  · rw [haccounts, haccountlist]
    exact h.accountlist

theorem NicksOk.nick_of_name (h : NicksOk cfg s) (hfind : myuserFind cfg s name = some a) :
    ∃ n mn, mynickFind cfg s name = some n ∧ s.nicks.objs.find n = some mn ∧ mn.owner = a := by
  obtain ⟨mu, hmu, hkey⟩ := (h.entities _ _).mp hfind
  obtain ⟨n, mn, hmn, hown, hnick⟩ := h.named a mu hmu
  have hindex := h.indexed n mn hmn
  rw [hnick, hkey] at hindex
  exact ⟨n, mn, hindex, hmn, hown⟩

theorem truncate_length_lt : (truncate NICKLEN name).length < NICKLEN := by
  rw [truncate, List.length_take, NICKLEN]
  omega

theorem truncate_of_short (h : name.length < NICKLEN) : truncate NICKLEN name = name := by
  apply List.take_of_length_le
  omega

theorem NicksOk.add (h : NicksOk cfg s) {s₁ : State} (hnicks : s₁.nicks = s.nicks)
    (hentities : Names cfg s₁.accounts s₁.entities)
    (haccountlist : Names cfg s₁.accounts s₁.accountlist)
    (hlive : ∀ b, (s.accounts.find b).isSome → (s₁.accounts.find b).isSome)
    (hold : ∀ b mu, s₁.accounts.find b = some mu → s.accounts.find b = some mu ∨
      b = a ∧ nameKey cfg mu.name = nameKey cfg (truncate NICKLEN name))
    (ha : (s₁.accounts.find a).isSome)
    (hname : mynickFind cfg s (truncate NICKLEN name) = none) :
    NicksOk cfg { s₁ with
      nicks := s₁.nicks.add Nick.owner (nickKey cfg) (freshNick cfg s₁)
        ⟨truncate NICKLEN name, a⟩ } := by
  have hfresh : s.nicks.objs.find (freshNick cfg s₁) = none := hnicks ▸ freshNick_free cfg _
  rw [hnicks]
  have hobjs : ∀ n mn, (s.nicks.add Nick.owner (nickKey cfg) (freshNick cfg s₁)
      ⟨truncate NICKLEN name, a⟩).objs.find n = some mn →
        s.nicks.objs.find n = some mn ∨ mn = ⟨truncate NICKLEN name, a⟩ := by
    intro n mn hmn
    rw [Owned.add, Registry.find_insertNew] at hmn
    cases hn : s.nicks.objs.find n with
    | some mn' =>
      rw [hn, Option.some_or] at hmn
      exact .inl hmn
    | none =>
      rw [hn, Option.none_or] at hmn
      split_ifs at hmn
      exact .inr (Option.some.inj hmn).symm
  refine ⟨h.nicks.add hfresh, h.indexed.add hname, ?_, ?_, ?_, hentities, haccountlist⟩
  · intro n mn hmn
    obtain hmn | rfl := hobjs n mn hmn
    · exact h.short n mn hmn
    · exact truncate_length_lt
  · intro n mn hmn
    obtain hmn | rfl := hobjs n mn hmn
    · exact hlive _ (h.owner n mn hmn)
    · exact ha
  · intro b mu hmu
    dsimp only
    rw [Owned.add]
    obtain hmu | ⟨rfl, hkey⟩ := hold b mu hmu
    · obtain ⟨n, mn, hmn, hown, hkey⟩ := h.named b mu hmu
      exact ⟨n, mn, by rw [Registry.find_insertNew, hmn, Option.some_or], hown, hkey⟩
    · refine ⟨freshNick cfg s₁, ⟨truncate NICKLEN name, b⟩, ?_, rfl, hkey.symm⟩
      rw [Registry.find_insertNew, hfresh, if_pos rfl, Option.none_or]

theorem mynickAdd_ok (h : NicksOk cfg s) (ha : (s.accounts.find a).isSome)
    (hname : mynickFind cfg s (truncate NICKLEN name) = none) :
    NicksOk cfg (mynickAdd cfg s a name) := by
  rw [mynickAdd]
  cases mynickFind cfg s name with
  | some n => exact h
  | none =>
    exact h.add rfl h.entities h.accountlist (fun _ hb => hb) (fun _ _ hmu => .inl hmu) ha hname

theorem mynickDelete_ok (h : NicksOk cfg s) (hmn : s.nicks.objs.find n = some mn)
    (hname : ∀ mu, s.accounts.find mn.owner = some mu → nickKey cfg mn ≠ nameKey cfg mu.name) :
    ∃ s', mynickDelete cfg s n = some s' ∧ NicksOk cfg s' := by
  obtain ⟨nicks, hdel, hok, hobjs, -⟩ := h.nicks.delete hmn
  have hfind : ∀ n' mn', nicks.objs.find n' = some mn' → s.nicks.objs.find n' = some mn' := by
    intro n' mn' hmn'
    rw [hobjs, Registry.find_erase] at hmn'
    split_ifs at hmn'
    exact hmn'
  refine ⟨{ s with nicks := nicks }, by rw [mynickDelete, hdel, Option.map_some], ?_⟩
  refine ⟨hok, h.indexed.delete hmn hdel, ?_, ?_, ?_, h.entities, h.accountlist⟩
  · exact fun n' mn' hmn' => h.short n' mn' (hfind n' mn' hmn')
  · exact fun n' mn' hmn' => h.owner n' mn' (hfind n' mn' hmn')
  · intro b mu hmu
    obtain ⟨n', mn', hmn', hown, hkey⟩ := h.named b mu hmu
    have hne : n' ≠ n := by
      intro heq
      rw [heq, hmn] at hmn'
      obtain rfl := Option.some.inj hmn'
      exact hname mu (hown ▸ hmu) hkey
    refine ⟨n', mn', ?_, hown, hkey⟩
    dsimp only
    rw [hobjs, Registry.find_erase, if_neg hne, hmn']

theorem myuserRename_ok (h : NicksOk cfg s) (hmu : s.accounts.find mn.owner = some mu)
    (hmn : s.nicks.objs.find n = some mn) :
    NicksOk cfg (myuserRename cfg s mn.owner mn.nick) ∧
      (myuserRename cfg s mn.owner mn.nick).nicks = s.nicks ∧
      (myuserRename cfg s mn.owner mn.nick).accounts =
        s.accounts.modify mn.owner fun mu => { mu with name := mn.nick } := by
  have hfree : ∀ t, Names cfg s.accounts t →
      ∀ b, t.find (nameKey cfg mn.nick) = some b → b = mn.owner := by
    intro t ht b hb
    obtain ⟨mu', hmu', hkey⟩ := (ht _ _).mp hb
    obtain ⟨n', mn', hmn', hown, hnick⟩ := h.named b mu' hmu'
    have hsame : n' = n := h.indexed.inj hmn' hmn (hnick.trans hkey)
    rw [hsame, hmn] at hmn'
    obtain rfl := Option.some.inj hmn'
    exact hown.symm
  rw [myuserRename, hmu]
  dsimp only
  rw [if_pos (h.short n mn hmn)]
  refine ⟨⟨h.nicks, h.indexed, h.short, ?_, ?_, ?_, ?_⟩, rfl, rfl⟩
  · intro n' mn' hmn'
    have hlive := h.owner n' mn' hmn'
    dsimp only
    rw [Registry.find_modify]
    split_ifs
    · rw [Option.isSome_map]
      exact hlive
    · exact hlive
  · intro b mu' hmu'
    dsimp only at hmu'
    rw [Registry.find_modify] at hmu'
    split_ifs at hmu' with hb
    · rw [hb, hmu] at hmu'
      obtain rfl := Option.some.inj hmu'
      exact ⟨n, mn, hmn, hb.symm, rfl⟩
    · exact h.named b mu' hmu'
  · exact h.entities.rename hmu (hfree _ h.entities)
  · exact h.accountlist.rename hmu (hfree _ h.accountlist)

theorem myuserDelete_nicksOk (h : NicksOk cfg s) (hmu : s.accounts.find a = some mu) :
    ∃ s', myuserDelete cfg s a = some s' ∧ NicksOk cfg s' := by
  obtain ⟨nicks, hdel, hok, hindexed, hobjs⟩ :=
    h.nicks.deleteAll_keeps (o := a) (P := Owned.Indexed (nickKey cfg))
      (fun t r mn t' _ ht hf hdel => ht.delete hf hdel) h.indexed
  refine ⟨_, by rw [myuserDelete, hmu, Option.bind_some, hdel, Option.map_some], ?_⟩
  refine ⟨hok, hindexed, ?_, ?_, ?_, h.entities.erase hmu, h.accountlist.erase hmu⟩
  · exact fun n mn hmn => h.short n mn ((hobjs n mn).mp hmn).1
  · intro n mn hmn
    obtain ⟨hold, hown⟩ := (hobjs n mn).mp hmn
    dsimp only
    rw [Registry.find_erase, if_neg hown]
    exact h.owner n mn hold
  · intro b mu' hmu'
    dsimp only at hmu'
    rw [Registry.find_erase] at hmu'
    split_ifs at hmu' with hb
    obtain ⟨n, mn, hmn, hown, hkey⟩ := h.named b mu' hmu'
    exact ⟨n, mn, (hobjs n mn).mpr ⟨hmn, hown ▸ hb⟩, hown, hkey⟩

end changes

/-! ### Commands -/

/-- The account `a` is made, under a name that no account and no nick had. -/
structure Entered (cfg : Config) (s s₁ : State) (a : Nat) (mu : Account) : Prop where
  fresh : s.accounts.find a = none
  name : myuserFind cfg s mu.name = none
  nick : mynickFind cfg s mu.name = none
  short : mu.name.length < NICKLEN
  accounts : s₁.accounts = s.accounts.insertNew a mu
  entities : s₁.entities = s.entities.insertNew (nameKey cfg mu.name) a
  accountlist : s₁.accountlist = s.accountlist.insertNew (nameKey cfg mu.name) a
  nicks : s₁.nicks = s.nicks

section entered
variable {cfg : Config} {s s₁ : State} {a : Nat} {mu : Account} {account email : CString}

theorem Entered.found (he : Entered cfg s s₁ a mu) : s₁.accounts.find a = some mu := by
  rw [he.accounts, Registry.find_insertNew, he.fresh, if_pos rfl, Option.none_or]

theorem Entered.mynickAdd (he : Entered cfg s s₁ a mu) : mynickAdd cfg s₁ a mu.name =
    { s₁ with nicks := s₁.nicks.add Nick.owner (nickKey cfg) (freshNick cfg s₁) ⟨mu.name, a⟩ } := by
  have hnone : mynickFind cfg s₁ mu.name = none := by
    rw [mynickFind, he.nicks]
    exact he.nick
  rw [Registration.mynickAdd, hnone, truncate_of_short he.short]

theorem Entered.accountlist_none (he : Entered cfg s s₁ a mu) (h : NicksOk cfg s) :
    s.accountlist.find (nameKey cfg mu.name) = none := by
  cases hlist : s.accountlist.find (nameKey cfg mu.name) with
  | none => rfl
  | some b =>
    have hindex : myuserFind cfg s mu.name = some b :=
      (h.entities _ b).mpr ((h.accountlist _ b).mp hlist)
    rw [he.name] at hindex
    cases hindex

theorem Entered.nicksOk (he : Entered cfg s s₁ a mu) (h : NicksOk cfg s) :
    NicksOk cfg (Registration.mynickAdd cfg s₁ a mu.name) := by
  have hshort := truncate_of_short he.short
  have hentities : Names cfg s₁.accounts s₁.entities := by
    rw [he.accounts, he.entities]
    exact h.entities.insertNew mu he.fresh he.name
  have haccountlist : Names cfg s₁.accounts s₁.accountlist := by
    rw [he.accounts, he.accountlist]
    exact h.accountlist.insertNew mu he.fresh (he.accountlist_none h)
  have hlive : ∀ b, (s.accounts.find b).isSome → (s₁.accounts.find b).isSome := by
    intro b hb
    rw [he.accounts, Registry.find_insertNew, Option.isSome_or, hb, Bool.true_or]
  have hold : ∀ b mu', s₁.accounts.find b = some mu' → s.accounts.find b = some mu' ∨
      b = a ∧ nameKey cfg mu'.name = nameKey cfg (truncate NICKLEN mu.name) := by
    intro b mu' hmu'
    by_cases hba : b = a
    · rw [hba, he.found] at hmu'
      obtain rfl := Option.some.inj hmu'
      exact .inr ⟨hba, by rw [hshort]⟩
    · rw [he.accounts, Registry.find_insertNew, if_neg (Ne.symm hba), Option.or_none] at hmu'
      exact .inl hmu'
  have ha : (s₁.accounts.find a).isSome := by
    rw [he.found]
    rfl
  have hadd := h.add he.nicks hentities haccountlist hlive hold ha (hshort.symm ▸ he.nick)
  rw [hshort] at hadd
  rw [he.mynickAdd]
  exact hadd

theorem Entered.undo (he : Entered cfg s s₁ a mu) (h : NicksOk cfg s) :
    ∃ s', myuserDelete cfg (Registration.mynickAdd cfg s₁ a mu.name) a = some s' ∧
      SameTables s s' := by
  have hlist : s.nicks.lists a = [] := by
    rw [List.eq_nil_iff_forall_not_mem]
    intro n hn
    obtain ⟨mn, hmn, hown⟩ := h.nicks.mem_lists.mp hn
    have hlive := h.owner n mn hmn
    rw [hown, he.fresh] at hlive
    cases hlive
  have hfresh : s.nicks.objs.find (freshNick cfg s₁) = none := he.nicks ▸ freshNick_free cfg _
  have hdel : (s₁.nicks.add Nick.owner (nickKey cfg) (freshNick cfg s₁) ⟨mu.name, a⟩).deleteAll
      Nick.owner (nickKey cfg) a = some s.nicks := by
    rw [he.nicks]
    exact Owned.deleteAll_add Nick.owner (nickKey cfg) (a := ⟨mu.name, a⟩) hlist hfresh he.nick
  rw [he.mynickAdd, myuserDelete]
  dsimp only
  rw [he.found, Option.bind_some, hdel, Option.map_some]
  refine ⟨_, rfl, ?_, ?_, ?_, rfl⟩
  · dsimp only
    rw [he.accounts, Registry.erase_insertNew he.fresh]
  · dsimp only
    rw [he.entities, Registry.erase_insertNew he.name]
  · dsimp only
    rw [he.accountlist, Registry.erase_insertNew (he.accountlist_none h)]

variable (email) in
theorem myuserAdd_entered (hname : myuserFind cfg s account = none)
    (hnick : mynickFind cfg s account = none) (hlen : account.length < NICKLEN) :
    ∃ mu s₁, mu.name = account ∧ Entered cfg s s₁ (freshAccount cfg s) mu ∧
      myuserAdd cfg s account email =
        (freshAccount cfg s, s₁, [.gave (freshAccount cfg s) email]) := by
  rw [myuserAdd, hname]
  refine ⟨⟨account, (s.strings.get cfg.alloc email).1, (canonicalizeEmail cfg email
    (s.strings.get cfg.alloc email).2).1, none, false⟩, _, rfl, ?_, rfl⟩
  exact ⟨freshAccount_free cfg s, hname, hnick, hlen, rfl, rfl, rfl, rfl⟩

end entered

/-! ### Commands -/

section commands
variable {cfg : Config} {s s' : State} {a : Nat} {account email : CString}

variable (email) in
theorem enter_ok (r : Register) (h : NicksOk cfg s) (hown : cfg.noNickOwnership = false)
    (hnick : mynickFind cfg s account = none) (hlen : account.length < NICKLEN) :
    NicksOk cfg (enter cfg s r account email).1 ∧
      (.aborted ∈ (enter cfg s r account email).2 →
        SameTables s (enter cfg s r account email).1) := by
  have hname : myuserFind cfg s account = none := by
    cases hfind : myuserFind cfg s account with
    | none => rfl
    | some b =>
      obtain ⟨n, mn, hn, -, -⟩ := h.nick_of_name hfind
      rw [hnick] at hn
      cases hn
  obtain ⟨mu, s₁, rfl, he, hadd⟩ := myuserAdd_entered email hname hnick hlen
  obtain ⟨s₃, hdel, hsame⟩ := he.undo h
  have hentered : ((s₁.accounts.find (freshAccount cfg s)).map Account.name).getD [] = mu.name := by
    rw [he.found]
    rfl
  rw [enter, hadd]
  dsimp only
  rw [hentered, hown, if_neg Bool.false_ne_true, hdel]
  split
  · exact ⟨hsame.ok h, fun _ => hsame⟩
  · exact ⟨he.nicksOk h, fun habort => by simp at habort⟩

variable (cfg s email) in
theorem emailWithinLimits_same : SameTables s (emailWithinLimits cfg s email).2 := by
  rw [emailWithinLimits]
  split
  · exact ⟨rfl, rfl, rfl, rfl⟩
  · split <;> exact ⟨rfl, rfl, rfl, rfl⟩

theorem SameTables.mynickFind (hs : SameTables s s') {name : CString} :
    mynickFind cfg s' name = mynickFind cfg s name := by
  rw [Registration.mynickFind, hs.nicks, Registration.mynickFind]

theorem SameTables.trans {s'' : State} (hs : SameTables s s') (hs' : SameTables s' s'') :
    SameTables s s'' :=
  ⟨hs'.accounts.trans hs.accounts, hs'.entities.trans hs.entities,
    hs'.accountlist.trans hs.accountlist, hs'.nicks.trans hs.nicks⟩

theorem nsCmdRegister_ok {r : Register} (h : NicksOk cfg s) (hown : cfg.noNickOwnership = false) :
    NicksOk cfg (nsCmdRegister cfg s r).1 ∧
      (.aborted ∈ (nsCmdRegister cfg s r).2 → SameTables s (nsCmdRegister cfg s r).1) := by
  have hquiet : ∀ s', NicksOk cfg s' →
      NicksOk cfg (s', ([] : List Obs)).1 ∧ (.aborted ∈ ([] : List Obs) → SameTables s s') :=
    fun s' hs' => ⟨hs', fun habort => by cases habort⟩
  rw [nsCmdRegister]
  split
  · exact hquiet s h
  · split
    · exact hquiet s h
    · next account pass email hargs =>
      split
      · next hcheck =>
        have hsame := emailWithinLimits_same cfg s email
        rw [Bool.and_eq_true] at hcheck
        obtain ⟨hreg, -⟩ := hcheck
        rw [registrable, hown] at hreg
        simp only [Bool.and_eq_true, Bool.false_eq_true, if_false, decide_eq_true_eq] at hreg
        have hlen : account.length < NICKLEN := by tauto
        have hnick : mynickFind cfg s account = none := by
          rw [← Option.isNone_iff_eq_none]
          tauto
        dsimp only
        split
        · obtain ⟨hok, habort⟩ := enter_ok email r (hsame.ok h) hown
            (hsame.mynickFind.trans hnick) hlen
          exact ⟨hok, fun hmem => hsame.trans (habort hmem)⟩
        · exact hquiet _ (hsame.ok h)
      · exact hquiet s h

theorem orFreed_ok {o : Option State} (h : ∃ s', o = some s' ∧ NicksOk cfg s') :
    NicksOk cfg (orFreed s o).1 := by
  obtain ⟨s', rfl, hs'⟩ := h
  exact hs'

theorem nsCmdUngroup_ok {su parv0 : Option CString} (h : NicksOk cfg s) :
    NicksOk cfg (nsCmdUngroup cfg s a su parv0).1 := by
  rw [nsCmdUngroup.eq_def]
  dsimp only
  split
  · next mu n hmu hn =>
    cases hmn : s.nicks.objs.find n with
    | none => exact h
    | some mn =>
      dsimp only
      split
      · exact h
      · next hown =>
        split
        · exact h
        · next hname =>
          apply orFreed_ok
          apply mynickDelete_ok h hmn
          intro mu' hmu'
          rw [not_ne_iff.mp hown, hmu] at hmu'
          obtain rfl := Option.some.inj hmu'
          simpa [irccaseEq, nickKey, nameKey] using hname
  · exact h

theorem nsCmdFungroup_ok {parv0 parv1 : Option CString} {conf : Bool} (h : NicksOk cfg s) :
    NicksOk cfg (nsCmdFungroup cfg s parv0 parv1 conf).1 := by
  rw [nsCmdFungroup]
  split
  · exact h
  · next n hn =>
    cases hmn : s.nicks.objs.find n with
    | none => exact h
    | some mn =>
      dsimp only
      cases hmu : s.accounts.find mn.owner with
      | none => exact h
      | some mu =>
        dsimp only
        split
        · split
          · exact h
          · split
            · exact h
            · split
              · exact h
              · next n2 hn2 =>
                split
                · exact h
                · next hne =>
                  cases hmn2 : s.nicks.objs.find n2 with
                  | none => exact h
                  | some mn2 =>
                    dsimp only
                    split
                    · exact h
                    · next hown =>
                      -- the account has the name of the other nick before this one goes
                      have hown2 : mn2.owner = mn.owner := not_ne_iff.mp hown
                      obtain ⟨hok, hnicks, haccounts⟩ := myuserRename_ok h (hown2 ▸ hmu) hmn2
                      rw [hown2] at hok hnicks haccounts
                      apply orFreed_ok
                      apply mynickDelete_ok hok (hnicks ▸ hmn)
                      intro mu' hmu'
                      rw [haccounts, Registry.find_modify, if_pos rfl, hmu] at hmu'
                      obtain rfl := Option.some.inj hmu'
                      exact fun hkey => hne (h.indexed.inj hmn hmn2 hkey).symm
        · next hname =>
          split
          · exact h
          · apply orFreed_ok
            apply mynickDelete_ok h hmn
            intro mu' hmu'
            rw [hmu] at hmu'
            obtain rfl := Option.some.inj hmu'
            simpa [irccaseEq, nickKey, nameKey] using hname

theorem deleteAccount_ok (h : NicksOk cfg s) : NicksOk cfg (deleteAccount cfg s a).1 := by
  rw [deleteAccount]
  split
  · next hlive =>
    obtain ⟨mu, hmu⟩ := Option.isSome_iff_exists.mp hlive
    exact orFreed_ok (myuserDelete_nicksOk h hmu)
  · exact h

end commands

/-! ### Runs -/

inductive NickEvent where
  | register (r : Register)
  | group (a : Nat) (su : Option CString) (noLimit refused : Bool)
  | ungroup (a : Nat) (su parv0 : Option CString)
  | fungroup (parv0 parv1 : Option CString) (conf : Bool)
  | delete (a : Nat)

def nickStep (cfg : Config) (s : State) : NickEvent → State × List Obs
  | .register r => nsCmdRegister cfg s r
  | .group a su noLimit refused => (nsCmdGroup cfg s a su noLimit refused, [])
  | .ungroup a su parv0 => nsCmdUngroup cfg s a su parv0
  | .fungroup parv0 parv1 conf => nsCmdFungroup cfg s parv0 parv1 conf
  | .delete a => deleteAccount cfg s a

def KeptNickFree (cfg : Config) (s : State) : NickEvent → Prop
  | .group a su noLimit refused => ∀ nick ∈ su, groupable cfg s a nick noLimit refused = true →
    mynickFind cfg s (truncate NICKLEN nick) = none
  | _ => True

instance (cfg : Config) (s : State) : ∀ e, Decidable (KeptNickFree cfg s e)
  | .group a su noLimit refused =>
    inferInstanceAs (Decidable (∀ nick ∈ su, groupable cfg s a nick noLimit refused = true →
      mynickFind cfg s (truncate NICKLEN nick) = none))
  | .register _ => inferInstanceAs (Decidable True)
  | .ungroup .. => inferInstanceAs (Decidable True)
  | .fungroup .. => inferInstanceAs (Decidable True)
  | .delete _ => inferInstanceAs (Decidable True)

structure NicksOwned (cfg : Config) (s : State) : Prop where
  indexed : ∀ n mn, s.nicks.objs.find n = some mn → mynickFind cfg s mn.nick = some n
  listed : ∀ n mn, s.nicks.objs.find n = some mn → (s.accounts.find mn.owner).isSome ∧
    ∀ a, (s.nicks.lists a).count n = if a = mn.owner then 1 else 0
  named : ∀ a mu, s.accounts.find a = some mu → ∃ n mn, mynickFind cfg s mu.name = some n ∧
    s.nicks.objs.find n = some mn ∧ mn.owner = a

section runs
variable {cfg : Config} {s : State}

theorem NicksOk.owned (h : NicksOk cfg s) : NicksOwned cfg s := by
  refine ⟨h.indexed, fun n mn hmn => ⟨h.owner n mn hmn, fun a => ?_⟩, ?_⟩
  · rw [h.nicks.nodup_lists.count]
    apply if_congr _ rfl rfl
    rw [h.nicks.mem_lists, hmn]
    simp [eq_comm]
  · intro a mu hmu
    exact h.nick_of_name ((h.entities _ _).mpr ⟨mu, hmu, rfl⟩)

theorem nsCmdGroup_ok {a : Nat} {su : Option CString} {noLimit refused : Bool}
    (h : NicksOk cfg s) (hkept : KeptNickFree cfg s (.group a su noLimit refused)) :
    NicksOk cfg (nsCmdGroup cfg s a su noLimit refused) := by
  cases su with
  | none => exact h
  | some nick =>
    rw [nsCmdGroup]
    split
    · next hcheck =>
      have ha : (s.accounts.find a).isSome := by
        rw [groupable] at hcheck
        cases hmu : s.accounts.find a with
        | none => simp [hmu] at hcheck
        | some mu => rfl
      exact mynickAdd_ok h ha (hkept nick rfl hcheck)
    · exact h

theorem nickStep_ok {e : NickEvent} (hown : cfg.noNickOwnership = false) (h : NicksOk cfg s)
    (hkept : KeptNickFree cfg s e) : NicksOk cfg (nickStep cfg s e).1 := by
  cases e with
  | register r => exact (nsCmdRegister_ok h hown).1
  | group a su noLimit refused => exact nsCmdGroup_ok h hkept
  | ungroup a su parv0 => exact nsCmdUngroup_ok h
  | fungroup parv0 parv1 conf => exact nsCmdFungroup_ok h
  | delete a => exact deleteAccount_ok h

end runs

/-- As long as GROUP finds the letters it keeps of a nick free, every nick is indexed and listed
with its owner, and an aborted REGISTER leaves nothing behind. -/
theorem nicks_stay_owned {cfg : Config} {s : State} {es : List NickEvent}
    (hown : cfg.noNickOwnership = false) (h : NicksOk cfg s)
    (hkept : Guarded (nickStep cfg) (KeptNickFree cfg) s es) :
    NicksOwned cfg (run (nickStep cfg) s es).1 ∧
      ∀ r, .aborted ∈ (nickStep cfg (run (nickStep cfg) s es).1 (.register r)).2 →
        SameTables (run (nickStep cfg) s es).1
          (nickStep cfg (run (nickStep cfg) s es).1 (.register r)).1 := by
  have hok : NicksOk cfg (run (nickStep cfg) s es).1 :=
    run_state_invariant (I := NicksOk cfg) (fun _ _ hs hg => nickStep_ok hown hs hg) h hkept
  exact ⟨hok.owned, fun r => (nsCmdRegister_ok hok hown).2⟩

theorem empty_nicksOk {cfg : Config} : NicksOk cfg .empty :=
  ⟨Owned.empty_ok, nofun, nofun, nofun, nofun, fun _ _ => ⟨nofun, nofun⟩,
    fun _ _ => ⟨nofun, nofun⟩⟩

theorem nicks_stay_owned_renamed :
    NicksOwned .small (run (nickStep .small) .empty
      [.register (registration "alice" "al@example.org"), .group 1 (some "al".toList) false false,
        .fungroup (some "alice".toList) (some "al".toList) false]).1 :=
  (nicks_stay_owned (by rfl) empty_nicksOk (by decide +kernel)).1

/-- Bob groups a nick of 32 letters, and the first 31 are Alice's. -/
theorem long_nick_not_indexed :
    ¬ NicksOwned .small (run (nickStep .small) .empty
      [.register (registration "abcdefghijklmnopqrstuvwxyzabcde" "al@example.org"),
        .register (registration "bob" "bob@example.org"),
        .group 2 (some "abcdefghijklmnopqrstuvwxyzabcdef".toList) false false]).1 := by
  intro h
  have hfound := h.indexed 3 ⟨"abcdefghijklmnopqrstuvwxyzabcde".toList, 2⟩ (by decide +kernel)
  exact absurd hfound (by decide +kernel)

end ChatServices.NickServ.Registration
