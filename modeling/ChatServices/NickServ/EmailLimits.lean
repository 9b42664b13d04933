import ChatServices.NickServ.Registration

/-! How many accounts an address may have: the canonical form that every account keeps, and the
limit wherever an address is given. -/
namespace ChatServices.NickServ.Registration
open ChatServices.Text ChatServices.Lib ChatServices.Lib.Run

/-! ### Holders of addresses -/

def holders (accounts : Registry Nat Account) : List Nat :=
  accounts.entries.flatMap fun e => [e.2.email, e.2.emailCanonical]

section holders
variable {accounts : Registry Nat Account} {a : Nat} {mu : Account} {f : Account → Account}

theorem mem_holders (h : accounts.find a = some mu) :
    mu.email ∈ holders accounts ∧ mu.emailCanonical ∈ holders accounts := by
  have hmem := (Registry.find_eq_some_iff _ _ _).mp h
  constructor
  · exact List.mem_flatMap.mpr ⟨_, hmem, List.mem_cons_self⟩
  · exact List.mem_flatMap.mpr ⟨_, hmem, List.mem_cons_of_mem _ List.mem_cons_self⟩

theorem holders_erase (h : accounts.find a = some mu) :
    (holders accounts).Perm (mu.email :: mu.emailCanonical :: holders (accounts.erase a)) :=
  (Registry.perm_erase h).flatMap_right _

end holders

/-! ### What the accounts keep -/

section emails
variable (cfg : Config)

def sharing (strings : Interned CString) (accounts : Registry Nat Account) (form : CString) : Nat :=
  accounts.entries.countP fun e => (strings.text e.2.email).map (canonicalForm cfg) = some form

def Canonical (strings : Interned CString) (mu : Account) : Prop :=
  strings.text mu.emailCanonical = (strings.text mu.email).map (canonicalForm cfg)

structure EmailsOk (s : State) : Prop where
  held : s.strings.Held (holders s.accounts)
  canonical : ∀ a mu, s.accounts.find a = some mu → Canonical cfg s.strings mu
  indexed : ∀ a mu, s.accounts.find a = some mu → s.entities.find (nameKey cfg mu.name) = some a
  entities : ∀ k a, s.entities.find k = some a →
    ∃ mu, s.accounts.find a = some mu ∧ nameKey cfg mu.name = k

structure SameEmails (s s' : State) : Prop where
  accounts : s'.accounts = s.accounts
  entities : s'.entities = s.entities
  held : s'.strings.Held (holders s.accounts)
  texts : ∀ p ∈ holders s.accounts, s'.strings.text p = s.strings.text p

end emails

section rules
variable {cfg : Config} {s s' : State} {a : Nat} {mu : Account} {email form : CString}

theorem Canonical.of_texts {strings strings' : Interned CString} (h : Canonical cfg strings mu)
    (hemail : strings'.text mu.email = strings.text mu.email)
    (hform : strings'.text mu.emailCanonical = strings.text mu.emailCanonical) :
    Canonical cfg strings' mu := by
  rw [Canonical, hemail, hform]
  exact h

theorem SameEmails.ok (hs : SameEmails s s') (h : EmailsOk cfg s) : EmailsOk cfg s' := by
  constructor
  · rw [hs.accounts]
    exact hs.held
  · intro a mu hmu
    rw [hs.accounts] at hmu
    obtain ⟨hemail, hform⟩ := mem_holders hmu
    exact (h.canonical a mu hmu).of_texts (hs.texts _ hemail) (hs.texts _ hform)
  · rw [hs.accounts, hs.entities]
    exact h.indexed
  · rw [hs.accounts, hs.entities]
    exact h.entities

variable (cfg form) in
theorem sharing_congr {strings strings' : Interned CString} {accounts : Registry Nat Account}
    (htexts : ∀ p ∈ holders accounts, strings'.text p = strings.text p) :
    sharing cfg strings' accounts form = sharing cfg strings accounts form := by
  apply List.countP_congr
  intro e he
  have hmu : accounts.find e.1 = some e.2 := (Registry.find_eq_some_iff _ _ _).mpr he
  rw [htexts _ (mem_holders hmu).1]

theorem SameEmails.sharing (hs : SameEmails s s') :
    sharing cfg s'.strings s'.accounts form = sharing cfg s.strings s.accounts form := by
  rw [hs.accounts]
  exact sharing_congr cfg form hs.texts

theorem listed_perm (h : EmailsOk cfg s) :
    (listed s).Perm (s.accounts.entries.map Prod.snd) := by
  have hkeys : (s.entities.entries.map Prod.snd).Perm (s.accounts.entries.map Prod.fst) := by
    have hnodup : (s.entities.entries.map Prod.snd).Nodup := by
      apply List.Nodup.map_on _ Registry.nodup_entries
      intro e he e' he' heq
      have hfind := (Registry.find_eq_some_iff _ _ _).mpr he
      have hfind' := (Registry.find_eq_some_iff _ _ _).mpr he'
      obtain ⟨mu, hmu, hkey⟩ := h.entities e.1 e.2 hfind
      obtain ⟨mu', hmu', hkey'⟩ := h.entities e'.1 e'.2 hfind'
      rw [heq, hmu'] at hmu
      obtain rfl := Option.some.inj hmu
      exact Prod.ext (hkey.symm.trans hkey') heq
    refine (List.perm_ext_iff_of_nodup hnodup s.accounts.nodup).mpr fun a => ?_
    constructor
    · intro ha
      obtain ⟨e, he, rfl⟩ := List.mem_map.mp ha
      obtain ⟨mu, hmu, -⟩ := h.entities e.1 e.2 ((Registry.find_eq_some_iff _ _ _).mpr he)
      exact List.mem_map.mpr ⟨_, (Registry.find_eq_some_iff _ _ _).mp hmu, rfl⟩
    · intro ha
      obtain ⟨e, he, rfl⟩ := List.mem_map.mp ha
      have hindex := h.indexed e.1 e.2 ((Registry.find_eq_some_iff _ _ _).mpr he)
      exact List.mem_map.mpr ⟨_, (Registry.find_eq_some_iff _ _ _).mp hindex, rfl⟩
  have hall : (s.accounts.entries.map Prod.fst).filterMap s.accounts.find =
      s.accounts.entries.map Prod.snd := by
    rw [List.filterMap_map, ← List.filterMap_eq_map]
    apply List.filterMap_congr
    intro e he
    exact (Registry.find_eq_some_iff _ _ _).mpr he
  rw [← hall, listed]
  have hperm := hkeys.filterMap s.accounts.find
  rw [List.filterMap_map] at hperm
  exact hperm

theorem withinLimits_iff {canonical tcnt : Nat} {mus : List Account} (h : tcnt < cfg.maxusers) :
    withinLimits cfg canonical tcnt mus = true ↔
      tcnt + mus.countP (fun mu => mu.emailCanonical = canonical) < cfg.maxusers := by
  induction mus generalizing tcnt with
  | nil => simpa [withinLimits] using h
  | cons mu mus ih =>
    rw [withinLimits, List.countP_cons]
    by_cases hmu : mu.emailCanonical = canonical
    · rw [if_pos hmu, if_pos (decide_eq_true hmu)]
      by_cases hfull : tcnt + 1 ≥ cfg.maxusers
      · rw [if_pos hfull]
        simp only [Bool.false_eq_true, false_iff]
        omega
      · rw [if_neg hfull, ih (by omega)]
        omega
    · have hmore : ¬ tcnt ≥ cfg.maxusers := by omega
      have hno : ¬ decide (mu.emailCanonical = canonical) = true := by simpa using hmu
      rw [if_neg hmu, if_neg hmore, if_neg hno, ih h]
      omega

variable (email) in
theorem emailWithinLimits_spec (h : EmailsOk cfg s) (hmax : 0 < cfg.maxusers) :
    SameEmails s (emailWithinLimits cfg s email).2 ∧
      ((emailWithinLimits cfg s email).1 = true → exempt cfg email = false →
        sharing cfg s.strings s.accounts (canonicalForm cfg email) < cfg.maxusers) := by
  have hsame : SameEmails s s := ⟨rfl, rfl, h.held, fun _ _ => rfl⟩
  rw [emailWithinLimits, if_neg (by omega)]
  by_cases hexempt : exempt cfg email = true
  · rw [if_pos hexempt]
    exact ⟨hsame, fun _ hno => by simp [hexempt] at hno⟩
  · rw [if_neg hexempt]
    obtain ⟨hheld, htext, hold⟩ := h.held.get cfg.alloc (canonicalForm cfg email)
    obtain ⟨hback, hkept⟩ := hheld.unref
    refine ⟨⟨rfl, rfl, hback, fun p hp => (hkept p hp).trans (hold p hp)⟩, ?_⟩
    intro hwithin _
    have hcount := (withinLimits_iff hmax).mp hwithin
    rw [(listed_perm h).countP_eq, List.countP_map, Nat.zero_add] at hcount
    apply Nat.lt_of_le_of_lt _ hcount
    apply Nat.le_of_eq
    apply List.countP_congr
    intro e he
    have hmu : s.accounts.find e.1 = some e.2 := (Registry.find_eq_some_iff _ _ _).mpr he
    have hmem := (mem_holders hmu).2
    have hplace := hheld.eq_iff (q := (canonicalizeEmail cfg email s.strings).1)
      (List.mem_cons_of_mem _ hmem)
    have hform : s.strings.text e.2.emailCanonical = _ := h.canonical e.1 e.2 hmu
    rw [canonicalizeEmail, htext, hold _ hmem, hform] at hplace
    simp only [decide_eq_true_eq, Function.comp]
    exact hplace.symm

variable (cfg form) in
theorem sharing_erase_le (h : s.accounts.find a = some mu) :
    sharing cfg s.strings (s.accounts.erase a) form ≤ sharing cfg s.strings s.accounts form := by
  rw [Registration.sharing, Registration.sharing, (Registry.perm_erase h).countP_eq,
    List.countP_cons]
  omega

theorem strings_replaced (hheld : s.strings.Held (holders s.accounts))
    (hmu : s.accounts.find a = some mu) {r : Interned CString}
    (hr : r = (s.strings.unref mu.email).unref mu.emailCanonical) :
    r.Held (holders (s.accounts.erase a)) ∧
      ∀ p ∈ holders (s.accounts.erase a), r.text p = s.strings.text p := by
  subst hr
  obtain ⟨hfirst, htexts⟩ := (hheld.perm (holders_erase hmu)).unref
  obtain ⟨hsecond, htexts'⟩ := hfirst.unref
  exact ⟨hsecond, fun p hp => (htexts' p hp).trans (htexts p (List.mem_cons_of_mem _ hp))⟩

theorem strings_got {strings : Interned CString} {hs : List Nat} (hheld : strings.Held hs)
    (email : CString) {e c : Nat × Interned CString} (he : e = strings.get cfg.alloc email)
    (hc : c = canonicalizeEmail cfg email e.2) :
    c.2.Held (e.1 :: c.1 :: hs) ∧ c.2.text e.1 = some email ∧
      c.2.text c.1 = some (canonicalForm cfg email) ∧
      ∀ p ∈ hs, c.2.text p = strings.text p := by
  subst he
  subst hc
  obtain ⟨hfirst, htext, hold⟩ := hheld.get cfg.alloc email
  obtain ⟨hsecond, htext', hold'⟩ := hfirst.get cfg.alloc (canonicalForm cfg email)
  refine ⟨hsecond.perm (List.Perm.swap _ _ _), ?_, htext', ?_⟩
  · exact (hold' _ List.mem_cons_self).trans htext
  · exact fun p hp => (hold' p (List.mem_cons_of_mem _ hp)).trans (hold p hp)

/-- The account `a` has this address now, and the others have what they had. -/
structure Given (cfg : Config) (s s' : State) (a : Nat) (email : CString) (mu : Account) :
    Prop where
  found : s'.accounts.find a = some mu
  others : s'.accounts.erase a = s.accounts.erase a
  held : s'.strings.Held (mu.email :: mu.emailCanonical :: holders (s.accounts.erase a))
  text : s'.strings.text mu.email = some email
  form : s'.strings.text mu.emailCanonical = some (canonicalForm cfg email)
  texts : ∀ p ∈ holders (s.accounts.erase a), s'.strings.text p = s.strings.text p

theorem Given.held_all (hg : Given cfg s s' a email mu) :
    s'.strings.Held (holders s'.accounts) := by
  have hperm := holders_erase hg.found
  rw [hg.others] at hperm
  exact hg.held.perm hperm.symm

theorem Given.canonical (hg : Given cfg s s' a email mu)
    (h : ∀ b mu', s.accounts.find b = some mu' → Canonical cfg s.strings mu') {b : Nat}
    {mu' : Account} (hb : s'.accounts.find b = some mu') : Canonical cfg s'.strings mu' := by
  by_cases hba : b = a
  · subst hba
    rw [hg.found] at hb
    obtain rfl := Option.some.inj hb
    rw [Canonical, hg.text, hg.form]
    rfl
  · have hrest : (s.accounts.erase a).find b = some mu' := by
      rw [← hg.others, Registry.find_erase, if_neg hba, hb]
    obtain ⟨hemail, hform⟩ := mem_holders hrest
    rw [Registry.find_erase, if_neg hba] at hrest
    exact (h b mu' hrest).of_texts (hg.texts _ hemail) (hg.texts _ hform)

theorem Given.sharing_le (hg : Given cfg s s' a email mu)
    (hrest : sharing cfg s.strings (s.accounts.erase a) form ≤
      sharing cfg s.strings s.accounts form) :
    sharing cfg s'.strings s'.accounts form ≤ sharing cfg s.strings s.accounts form + 1 := by
  have hold := sharing_congr cfg form hg.texts
  have hnew : sharing cfg s'.strings s'.accounts form ≤
      sharing cfg s'.strings (s.accounts.erase a) form + 1 := by
    rw [Registration.sharing, (Registry.perm_erase hg.found).countP_eq, List.countP_cons,
      hg.others, Registration.sharing]
    split <;> omega
  omega

theorem Given.other (hg : Given cfg s s' a email mu) {b : Nat} (hb : b ≠ a) :
    s'.accounts.find b = s.accounts.find b := by
  have hfind := congrArg (Registry.find b) hg.others
  rw [Registry.find_erase, Registry.find_erase, if_neg hb, if_neg hb] at hfind
  exact hfind

variable (email) in
theorem myuserSetEmail_spec (h : EmailsOk cfg s) {mu : Account}
    (hmu : s.accounts.find a = some mu) :
    (myuserSetEmail cfg s a email).2 = [.gave a email] ∧
      (myuserSetEmail cfg s a email).1.entities = s.entities ∧
      ∃ mu', mu'.name = mu.name ∧ Given cfg s (myuserSetEmail cfg s a email).1 a email mu' := by
  obtain ⟨hrest, hkept⟩ := strings_replaced h.held hmu rfl
  obtain ⟨e, he⟩ : ∃ e, e = ((s.strings.unref mu.email).unref mu.emailCanonical).get cfg.alloc email :=
    ⟨_, rfl⟩
  obtain ⟨c, hc⟩ : ∃ c, c = canonicalizeEmail cfg email e.2 := ⟨_, rfl⟩
  obtain ⟨hheld, htext, hform, hold⟩ := strings_got hrest email he hc
  rw [myuserSetEmail, hmu]
  dsimp only
  rw [← he, ← hc]
  refine ⟨rfl, rfl, { mu with email := e.1, emailCanonical := c.1 }, rfl, ?_⟩
  constructor
  · rw [Registry.find_modify, if_pos rfl, hmu]
    rfl
  · exact Registry.erase_modify
  · exact hheld
  · exact htext
  · exact hform
  · exact fun p hp => (hold p hp).trans (hkept p hp)

variable (email form) in
theorem myuserSetEmail_ok (h : EmailsOk cfg s) {mu : Account}
    (hmu : s.accounts.find a = some mu) :
    EmailsOk cfg (myuserSetEmail cfg s a email).1 ∧
      sharing cfg (myuserSetEmail cfg s a email).1.strings
        (myuserSetEmail cfg s a email).1.accounts form ≤
          sharing cfg s.strings s.accounts form + 1 := by
  obtain ⟨-, hindex, mu', hname, hg⟩ := myuserSetEmail_spec email h hmu
  refine ⟨⟨hg.held_all, fun b mu'' hb => hg.canonical h.canonical hb, ?_, ?_⟩,
    hg.sharing_le (sharing_erase_le cfg form hmu)⟩
  · intro b mu'' hb
    rw [hindex]
    by_cases hba : b = a
    · subst hba
      rw [hg.found] at hb
      obtain rfl := Option.some.inj hb
      rw [hname]
      exact h.indexed b mu hmu
    · rw [hg.other hba] at hb
      exact h.indexed b mu'' hb
  · intro k b hk
    rw [hindex] at hk
    obtain ⟨mu'', hb, hkey⟩ := h.entities k b hk
    by_cases hba : b = a
    · subst hba
      rw [hmu] at hb
      obtain rfl := Option.some.inj hb
      exact ⟨mu', hg.found, hname ▸ hkey⟩
    · exact ⟨mu'', by rw [hg.other hba, hb], hkey⟩

theorem myuserAdd_found {name : CString} (hfind : myuserFind cfg s name = some a) :
    myuserAdd cfg s name email = (a, s, []) := by
  rw [myuserAdd, hfind]

variable (email) in
theorem myuserAdd_new {name : CString} (h : EmailsOk cfg s)
    (hfind : myuserFind cfg s name = none) :
    (myuserAdd cfg s name email).1 = freshAccount cfg s ∧
      (myuserAdd cfg s name email).2.2 = [.gave (freshAccount cfg s) email] ∧
      (myuserAdd cfg s name email).2.1.entities =
        s.entities.insertNew (nameKey cfg name) (freshAccount cfg s) ∧
      ∃ mu, mu.name = name ∧
        Given cfg s (myuserAdd cfg s name email).2.1 (freshAccount cfg s) email mu := by
  have hfree := freshAccount_free cfg s
  have hsame := Registry.erase_of_find hfree
  obtain ⟨e, he⟩ : ∃ e, e = s.strings.get cfg.alloc email := ⟨_, rfl⟩
  obtain ⟨c, hc⟩ : ∃ c, c = canonicalizeEmail cfg email e.2 := ⟨_, rfl⟩
  obtain ⟨hheld, htext, hform, hold⟩ := strings_got h.held email he hc
  rw [myuserAdd, hfind]
  dsimp only
  rw [← he, ← hc]
  refine ⟨rfl, rfl, rfl, ⟨name, e.1, c.1, none, false⟩, rfl, ?_⟩
  constructor
  · rw [Registry.find_insertNew, hfree, if_pos rfl, Option.none_or]
  · rw [Registry.erase_insertNew hfree, hsame]
  · rw [hsame]
    exact hheld
  · exact htext
  · exact hform
  · rw [hsame]
    exact hold

variable (email form) in
theorem myuserAdd_ok {name : CString} (h : EmailsOk cfg s)
    (hfind : myuserFind cfg s name = none) :
    EmailsOk cfg (myuserAdd cfg s name email).2.1 ∧
      sharing cfg (myuserAdd cfg s name email).2.1.strings
        (myuserAdd cfg s name email).2.1.accounts form ≤
          sharing cfg s.strings s.accounts form + 1 := by
  obtain ⟨-, -, hindex, mu, hname, hg⟩ := myuserAdd_new email h hfind
  have hfree := freshAccount_free cfg s
  have hrest : sharing cfg s.strings (s.accounts.erase (freshAccount cfg s)) form ≤
      sharing cfg s.strings s.accounts form := by
    rw [Registry.erase_of_find hfree]
  refine ⟨⟨hg.held_all, fun b mu' hb => hg.canonical h.canonical hb, ?_, ?_⟩, hg.sharing_le hrest⟩
  · intro b mu' hb
    rw [hindex, Registry.find_insertNew]
    by_cases hba : b = freshAccount cfg s
    · rw [hba, hg.found] at hb
      obtain rfl := Option.some.inj hb
      have hnone : s.entities.find (nameKey cfg mu.name) = none := hname ▸ hfind
      rw [hnone, if_pos (congrArg (nameKey cfg) hname.symm), hba, Option.none_or]
    · rw [hg.other hba] at hb
      rw [h.indexed b mu' hb, Option.some_or]
  · intro k b hk
    rw [hindex, Registry.find_insertNew] at hk
    cases hold : s.entities.find k with
    | some b' =>
      rw [hold, Option.some_or] at hk
      obtain rfl := Option.some.inj hk
      obtain ⟨mu', hb, hkey⟩ := h.entities k b' hold
      have hne : b' ≠ freshAccount cfg s := by
        intro heq
        rw [heq, hfree] at hb
        cases hb
      exact ⟨mu', by rw [hg.other hne, hb], hkey⟩
    | none =>
      rw [hold, Option.none_or] at hk
      split_ifs at hk with hkey
      obtain rfl := Option.some.inj hk
      exact ⟨mu, hg.found, hname ▸ hkey⟩

theorem mynickAdd_same (h : EmailsOk cfg s) {name : CString} :
    SameEmails s (mynickAdd cfg s a name) := by
  rw [mynickAdd]
  cases mynickFind cfg s name <;> exact ⟨rfl, rfl, h.held, fun _ _ => rfl⟩

variable (form) in
theorem myuserDelete_ok (h : EmailsOk cfg s) (hdel : myuserDelete cfg s a = some s') :
    EmailsOk cfg s' ∧ sharing cfg s'.strings s'.accounts form ≤
      sharing cfg s.strings s.accounts form := by
  obtain ⟨mu, hmu, hnicks⟩ := Option.bind_eq_some_iff.mp hdel
  obtain ⟨nicks, -, rfl⟩ := Option.map_eq_some_iff.mp hnicks
  obtain ⟨hrest, hkept⟩ := strings_replaced h.held hmu rfl
  refine ⟨⟨hrest, ?_, ?_, ?_⟩, ?_⟩
  · intro b mu' hb
    obtain ⟨hemail, hform⟩ := mem_holders hb
    rw [Registry.find_erase] at hb
    split_ifs at hb
    exact (h.canonical b mu' hb).of_texts (hkept _ hemail) (hkept _ hform)
  · intro b mu' hb
    rw [Registry.find_erase] at hb
    split_ifs at hb with hba
    have hindex := h.indexed b mu' hb
    have hne : nameKey cfg mu'.name ≠ nameKey cfg mu.name := by
      intro hkey
      rw [hkey, h.indexed a mu hmu] at hindex
      exact hba (Option.some.inj hindex).symm
    rw [Registry.find_erase, if_neg hne, hindex]
  · intro k b hk
    rw [Registry.find_erase] at hk
    split_ifs at hk with hkey
    obtain ⟨mu', hb, hkey'⟩ := h.entities k b hk
    have hne : b ≠ a := by
      intro hba
      rw [hba, hmu] at hb
      obtain rfl := Option.some.inj hb
      exact hkey hkey'.symm
    exact ⟨mu', by rw [Registry.find_erase, if_neg hne, hb], hkey'⟩
  · have hsame := sharing_congr cfg form hkept
    have hless := sharing_erase_le cfg form hmu
    dsimp only
    omega

variable (form) in
theorem setEmailchg_ok {emailchg : Option (CString × CString)} (h : EmailsOk cfg s) :
    EmailsOk cfg (setEmailchg s a emailchg) ∧
      sharing cfg (setEmailchg s a emailchg).strings (setEmailchg s a emailchg).accounts form =
        sharing cfg s.strings s.accounts form := by
  have hfind : ∀ b mu', (setEmailchg s a emailchg).accounts.find b = some mu' →
      ∃ mu, s.accounts.find b = some mu ∧ mu'.name = mu.name ∧ mu'.email = mu.email ∧
        mu'.emailCanonical = mu.emailCanonical := by
    intro b mu' hb
    rw [setEmailchg, Registry.find_modify] at hb
    split_ifs at hb with hba
    · obtain ⟨mu, hmu, rfl⟩ := Option.map_eq_some_iff.mp hb
      exact ⟨mu, hmu, rfl, rfl, rfl⟩
    · exact ⟨mu', hb, rfl, rfl, rfl⟩
  refine ⟨⟨?_, ?_, ?_, ?_⟩, ?_⟩
  · have hsame : holders (setEmailchg s a emailchg).accounts = holders s.accounts := by
      rw [holders, setEmailchg, Registry.entries_modify, List.flatMap_map, holders]
      congr 1
      funext e
      by_cases he : e.1 = a <;> simp [he]
    rw [hsame]
    exact h.held
  · intro b mu' hb
    obtain ⟨mu, hmu, -, hemail, hform⟩ := hfind b mu' hb
    have hold := h.canonical b mu hmu
    rw [Canonical, ← hemail, ← hform] at hold
    exact hold
  · intro b mu' hb
    obtain ⟨mu, hmu, hname, -⟩ := hfind b mu' hb
    rw [hname]
    exact h.indexed b mu hmu
  · intro k b hk
    obtain ⟨mu, hmu, hkey⟩ := h.entities k b hk
    by_cases hba : b = a
    · exact ⟨{ mu with emailchg := emailchg }, by simp [setEmailchg, hba ▸ hmu, hba], hkey⟩
    · exact ⟨mu, by simp [setEmailchg, hba, hmu], hkey⟩
  · rw [Registration.sharing, setEmailchg, Registry.entries_modify, List.countP_map,
      Registration.sharing]
    apply List.countP_congr
    intro e _
    by_cases he : e.1 = a <;> simp [he]

end rules

/-! ### Runs -/

inductive EmailEvent where
  | register (r : Register)
  | setEmail (a : Nat) (email : Option CString) (key : CString) (sent : Bool)
  | verify (a : Nat) (nick key : CString)
  | delete (a : Nat)

def emailStep (cfg : Config) (s : State) : EmailEvent → State × List Obs
  | .register r => nsCmdRegister cfg s r
  | .setEmail a email key sent => nsCmdSetEmail cfg s a email key sent
  | .verify a nick key => nsCmdVerifyEmailchg cfg s a nick key
  | .delete a => deleteAccount cfg s a

structure WithinLimit (cfg : Config) (r : State × List Obs) : Prop where
  ok : EmailsOk cfg r.1
  given : ∀ a email, Obs.gave a email ∈ r.2 → exempt cfg email = false →
    sharing cfg r.1.strings r.1.accounts (canonicalForm cfg email) ≤ cfg.maxusers

section steps
variable {cfg : Config} {s s' : State} {a : Nat} {email : CString}

theorem WithinLimit.silent (h : EmailsOk cfg s) : WithinLimit cfg (s, []) :=
  ⟨h, fun _ _ hgave => absurd hgave List.not_mem_nil⟩

theorem WithinLimit.orFreed {o : Option State} (h : EmailsOk cfg s)
    (ho : ∀ s', o = some s' → EmailsOk cfg s') : WithinLimit cfg (orFreed s o) := by
  cases o with
  | none => exact ⟨h, fun _ _ hgave => by simp [Registration.orFreed] at hgave⟩
  | some s' => exact .silent (ho s' rfl)

theorem deleteAccount_within (h : EmailsOk cfg s) : WithinLimit cfg (deleteAccount cfg s a) := by
  rw [deleteAccount]
  split
  · exact .orFreed h fun s' hs' => (myuserDelete_ok [] h hs').1
  · exact .silent h

theorem myuserSetEmail_within (h : EmailsOk cfg s) (hmu : (s.accounts.find a).isSome)
    (hroom : exempt cfg email = false →
      sharing cfg s.strings s.accounts (canonicalForm cfg email) < cfg.maxusers) :
    WithinLimit cfg (myuserSetEmail cfg s a email) := by
  obtain ⟨mu, hmu⟩ := Option.isSome_iff_exists.mp hmu
  obtain ⟨hok, hmore⟩ := myuserSetEmail_ok email (canonicalForm cfg email) h hmu
  refine ⟨hok, fun b email' hgave hexempt => ?_⟩
  rw [(myuserSetEmail_spec email h hmu).1, List.mem_singleton] at hgave
  cases hgave
  have hless := hroom hexempt
  omega

theorem enter_within {r : Register} {account : CString} (h : EmailsOk cfg s)
    (hroom : exempt cfg email = false →
      sharing cfg s.strings s.accounts (canonicalForm cfg email) < cfg.maxusers) :
    WithinLimit cfg (enter cfg s r account email) := by
  have hadded : EmailsOk cfg (myuserAdd cfg s account email).2.1 ∧
      ∀ b email', Obs.gave b email' ∈ (myuserAdd cfg s account email).2.2 →
        exempt cfg email' = false →
          sharing cfg (myuserAdd cfg s account email).2.1.strings
            (myuserAdd cfg s account email).2.1.accounts (canonicalForm cfg email') ≤
              cfg.maxusers := by
    cases hfind : myuserFind cfg s account with
    | some b =>
      rw [myuserAdd_found hfind]
      exact ⟨h, fun _ _ hgave => absurd hgave List.not_mem_nil⟩
    | none =>
      obtain ⟨hok, hmore⟩ := myuserAdd_ok email (canonicalForm cfg email) h hfind
      refine ⟨hok, fun b email' hgave hexempt => ?_⟩
      rw [(myuserAdd_new email h hfind).2.1, List.mem_singleton] at hgave
      cases hgave
      have hless := hroom hexempt
      omega
  rw [enter]
  obtain ⟨hok, hgiven⟩ := hadded
  generalize myuserAdd cfg s account email = added at hok hgiven ⊢
  obtain ⟨b, s₁, obs⟩ := added
  dsimp only at hok hgiven ⊢
  generalize ((s₁.accounts.find b).map Account.name).getD [] = name
  have hsame : SameEmails s₁ (if cfg.noNickOwnership then s₁ else mynickAdd cfg s₁ b name) := by
    split
    · exact ⟨rfl, rfl, hok.held, fun _ _ => rfl⟩
    · exact mynickAdd_same hok
  generalize (if cfg.noNickOwnership then s₁ else mynickAdd cfg s₁ b name) = s₂ at hsame ⊢
  split
  · cases hdel : myuserDelete cfg s₂ b with
    | none =>
      refine ⟨hsame.ok hok, fun c email' hgave hexempt => ?_⟩
      have hmem : Obs.gave c email' ∈ obs := by simpa [orFreed] using hgave
      have hle := hgiven c email' hmem hexempt
      rw [← hsame.sharing] at hle
      exact hle
    | some s₃ =>
      refine ⟨(myuserDelete_ok [] (hsame.ok hok) hdel).1, fun c email' hgave hexempt => ?_⟩
      have hmem : Obs.gave c email' ∈ obs := by simpa [orFreed] using hgave
      have hle := hgiven c email' hmem hexempt
      rw [← hsame.sharing] at hle
      exact ((myuserDelete_ok _ (hsame.ok hok) hdel).2).trans hle
  · refine ⟨hsame.ok hok, fun c email' hgave hexempt => ?_⟩
    have hmem : Obs.gave c email' ∈ obs := by simpa using hgave
    have hle := hgiven c email' hmem hexempt
    rw [← hsame.sharing] at hle
    exact hle

theorem nsCmdRegister_within {r : Register} (h : EmailsOk cfg s) (hmax : 0 < cfg.maxusers) :
    WithinLimit cfg (nsCmdRegister cfg s r) := by
  rw [nsCmdRegister]
  split
  · exact .silent h
  · split
    · exact .silent h
    · next account pass email hargs =>
      obtain ⟨hsame, hroom⟩ := emailWithinLimits_spec email h hmax
      split
      · dsimp only
        split
        · next hlimits =>
          refine enter_within (hsame.ok h) fun hexempt => ?_
          rw [hsame.sharing]
          exact hroom hlimits hexempt
        · exact .silent (hsame.ok h)
      · exact .silent h

theorem nsCmdSetEmail_within {email : Option CString} {key : CString} {sent : Bool}
    (h : EmailsOk cfg s) (hmax : 0 < cfg.maxusers) :
    WithinLimit cfg (nsCmdSetEmail cfg s a email key sent) := by
  rw [nsCmdSetEmail.eq_def]
  split
  · next mu email hmu =>
    obtain ⟨hsame, hroom⟩ := emailWithinLimits_spec email h hmax
    split
    · exact .silent (setEmailchg_ok [] h).1
    · split
      · exact .silent h
      · dsimp only
        split
        · exact .silent (hsame.ok h)
        · next hlimits =>
          split
          · exact .silent (setEmailchg_ok [] (hsame.ok h)).1
          · refine myuserSetEmail_within (hsame.ok h) ?_ fun hexempt => ?_
            · rw [hsame.accounts, hmu]
              rfl
            · rw [hsame.sharing]
              exact hroom (by simpa using hlimits) hexempt
  · exact .silent h

theorem nsCmdVerifyEmailchg_within {nick key : CString} (h : EmailsOk cfg s)
    (hmax : 0 < cfg.maxusers) : WithinLimit cfg (nsCmdVerifyEmailchg cfg s a nick key) := by
  rw [nsCmdVerifyEmailchg]
  split
  · exact .silent h
  · split
    · exact .silent h
    · next k newemail hpending =>
      obtain ⟨hsame, hroom⟩ := emailWithinLimits_spec newemail h hmax
      split
      · dsimp only
        split
        · next hlimits =>
          have hset : WithinLimit cfg
              (myuserSetEmail cfg (emailWithinLimits cfg s newemail).2 a newemail) := by
            refine myuserSetEmail_within (hsame.ok h) ?_ fun hexempt => ?_
            · obtain ⟨mu, hmu, -⟩ := Option.bind_eq_some_iff.mp hpending
              rw [hsame.accounts, hmu]
              rfl
            · rw [hsame.sharing]
              exact hroom hlimits hexempt
          refine ⟨(setEmailchg_ok [] hset.ok).1, fun b email' hgave hexempt => ?_⟩
          dsimp only
          rw [(setEmailchg_ok _ hset.ok).2]
          exact hset.given b email' hgave hexempt
        · exact .silent (hsame.ok h)
      · exact .silent h

theorem emailStep_within {e : EmailEvent} (h : EmailsOk cfg s) (hmax : 0 < cfg.maxusers) :
    WithinLimit cfg (emailStep cfg s e) := by
  cases e with
  | register r => exact nsCmdRegister_within h hmax
  | setEmail a email key sent => exact nsCmdSetEmail_within h hmax
  | verify a nick key => exact nsCmdVerifyEmailchg_within h hmax
  | delete a => exact deleteAccount_within h

end steps

theorem empty_emailsOk {cfg : Config} : EmailsOk cfg .empty :=
  ⟨Interned.empty_held, nofun, nofun, nofun⟩

/-- Every account keeps the canonical form of its address, and where an address is given that is
not exempt, no more accounts than the limit have one with its canonical form. -/
theorem email_limit_kept {cfg : Config} {s : State} (hmax : 0 < cfg.maxusers)
    (h : EmailsOk cfg s) (es : List EmailEvent) :
    (∀ a mu, (run (emailStep cfg) s es).1.accounts.find a = some mu →
      ∃ email, (run (emailStep cfg) s es).1.strings.text mu.email = some email ∧
        (run (emailStep cfg) s es).1.strings.text mu.emailCanonical =
          some (canonicalForm cfg email)) ∧
      ∀ e a email, .gave a email ∈ (emailStep cfg (run (emailStep cfg) s es).1 e).2 →
        exempt cfg email = false →
          sharing cfg (emailStep cfg (run (emailStep cfg) s es).1 e).1.strings
            (emailStep cfg (run (emailStep cfg) s es).1 e).1.accounts
              (canonicalForm cfg email) ≤ cfg.maxusers := by
  have hok : EmailsOk cfg (run (emailStep cfg) s es).1 :=
    run_keeps (I := EmailsOk cfg) (fun s e hs => (emailStep_within hs hmax).ok) h es
  constructor
  · intro a mu hmu
    obtain ⟨email, hemail⟩ := hok.held.exists_text (mem_holders hmu).1
    refine ⟨email, hemail, ?_⟩
    have hcanonical : (run (emailStep cfg) s es).1.strings.text mu.emailCanonical = _ :=
      hok.canonical a mu hmu
    rw [hcanonical, hemail]
    rfl
  · exact fun e a email hgave hexempt => (emailStep_within hok hmax).given a email hgave hexempt

theorem email_limit_kept_second :
    .gave 2 "bob@example.org".toList ∈ (emailStep .small
      (run (emailStep .small) .empty [.register (registration "alice" "al@example.org")]).1
        (.register (registration "bob" "bob@example.org"))).2 ∧
      sharing .small (emailStep .small
        (run (emailStep .small) .empty [.register (registration "alice" "al@example.org")]).1
          (.register (registration "bob" "bob@example.org"))).1.strings
        (emailStep .small
          (run (emailStep .small) .empty [.register (registration "alice" "al@example.org")]).1
            (.register (registration "bob" "bob@example.org"))).1.accounts
        (canonicalForm .small "bob@example.org".toList) ≤ 1 :=
  have hgave : .gave 2 "bob@example.org".toList ∈ (emailStep .small
      (run (emailStep .small) .empty [.register (registration "alice" "al@example.org")]).1
        (.register (registration "bob" "bob@example.org"))).2 := by decide +kernel
  ⟨hgave, (email_limit_kept (by decide) empty_emailsOk _).2 _ 2 _ hgave (by decide)⟩

end ChatServices.NickServ.Registration
