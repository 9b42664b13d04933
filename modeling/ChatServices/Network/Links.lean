import ChatServices.Network.LoginHandlers

/-! The links between users and accounts, and the indexes of the accounts. -/
namespace ChatServices.Network
open ChatServices.Lib ChatServices.Text

namespace Logins

structure LinksOk (d : Directory) (l : Logins) : Prop where
  linked : ∀ u a, l.myuser u = some a ↔ u ∈ l.logins a
  nodup : ∀ a, (l.logins a).Nodup
  userLive : ∀ u a, u ∈ l.logins a → (d.users.find u).isSome = true
  accountLive : ∀ u a, u ∈ l.logins a → (l.accounts.find a).isSome = true

structure AccountsOk (irccasecanon : CString → CString) (l : Logins) : Prop where
  named : ∀ k a, l.accountlist.find k = some a →
    ∃ x, l.accounts.find a = some x ∧ irccasecanon x.name = k
  owned : ∀ k a, l.nicklist.find k = some a → (l.accounts.find a).isSome = true
  fresh : ∀ a, (l.accounts.find a).isSome = true → a < l.next

variable {irccasecanon : CString → CString} {d d' : Directory} {l : Logins} {u : ClientId}
  {a : AccountId}

/-! ### Users -/

section users

theorem linksOk_empty : LinksOk .empty empty := by
  refine ⟨?_, ?_, ?_, ?_⟩
  · intro u a
    simp [empty]
  · exact fun _ => List.nodup_nil
  · intro u a hu
    cases hu
  · intro u a hu
    cases hu

theorem LinksOk.of_users (h : LinksOk d l)
    (hlive : ∀ u, (d.users.find u).isSome = true → (d'.users.find u).isSome = true) :
    LinksOk d' l :=
  ⟨h.linked, h.nodup, fun u a hu => hlive u (h.userLive u a hu), h.accountLive⟩

theorem LinksOk.next_notMem (h : LinksOk d l) (hnext : d.users.find d.next = none) (a : AccountId) :
    d.next ∉ l.logins a := by
  intro hu
  have hlive := h.userLive _ a hu
  rw [hnext] at hlive
  cases hlive

theorem LinksOk.enter (h : LinksOk d l) (hnext : d.users.find d.next = none) (x : User) :
    LinksOk (d.insert irccasecanon x) (l.enter d.next) := by
  refine ⟨fun u a => ?_, h.nodup, fun u a hu => ?_, h.accountLive⟩
  · show (if u = d.next then none else l.myuser u) = some a ↔ u ∈ l.logins a
    by_cases hu : u = d.next
    · rw [if_pos hu, hu]
      simpa using h.next_notMem hnext a
    · rw [if_neg hu]
      exact h.linked u a
  · show ((d.users.insertNew d.next x).find u).isSome = true
    obtain ⟨y, hy⟩ := Option.isSome_iff_exists.mp (h.userLive u a hu)
    rw [Registry.find_insertNew, hy]
    rfl

theorem LinksOk.logOut (h : LinksOk d l) (hu : l.myuser u = some a) : LinksOk d (l.logOut u a) := by
  have hmem : ∀ v b, v ∈ (l.logOut u a).logins b → v ∈ l.logins b := by
    intro v b hv
    have hv' : v ∈ if b = a then (l.logins b).erase u else l.logins b := hv
    split_ifs at hv'
    · exact List.mem_of_mem_erase hv'
    · exact hv'
  refine ⟨fun v b => ?_, fun b => ?_, fun v b hv => h.userLive v b (hmem v b hv),
    fun v b hv => h.accountLive v b (hmem v b hv)⟩
  · show (if v = u then none else l.myuser v) = some b ↔
      v ∈ if b = a then (l.logins b).erase u else l.logins b
    by_cases hv : v = u
    · subst hv
      rw [if_pos rfl]
      constructor
      · intro hb
        cases hb
      · intro hb
        split_ifs at hb with hba
        · subst hba
          exact absurd hb (h.nodup b).not_mem_erase
        · -- the user would be on two lists
          have hother := (h.linked v b).mpr hb
          rw [hu] at hother
          exact absurd (Option.some.inj hother).symm hba
    · rw [if_neg hv, h.linked v b]
      split_ifs
      · exact (List.mem_erase_of_ne hv).symm
      · exact Iff.rfl
  · show (if b = a then (l.logins b).erase u else l.logins b).Nodup
    split_ifs
    · exact (h.nodup b).erase u
    · exact h.nodup b

theorem unlink_eq_logOut (hu : l.myuser u = some a) : l.unlink u = l.logOut u a := by
  simp only [unlink, hu, Logins.logOut]

theorem LinksOk.unlink (h : LinksOk d l) (u : ClientId) : LinksOk d (l.unlink u) := by
  cases hu : l.myuser u with
  | none =>
    simp only [Logins.unlink, hu]
    exact h
  | some a =>
    rw [unlink_eq_logOut hu]
    exact h.logOut hu

@[simp] theorem unlink_myuser (l : Logins) (u v : ClientId) :
    (l.unlink u).myuser v = if v = u then none else l.myuser v := by
  cases hu : l.myuser u with
  | none =>
    simp only [Logins.unlink, hu]
    split_ifs with hv
    · rw [hv, hu]
    · rfl
  | some a =>
    rw [unlink_eq_logOut hu]
    rfl

@[simp] theorem unlink_accounts (l : Logins) (u : ClientId) : (l.unlink u).accounts = l.accounts := by
  simp only [Logins.unlink]
  split <;> rfl

theorem AccountsOk.unlink (h : AccountsOk irccasecanon l) (u : ClientId) :
    AccountsOk irccasecanon (l.unlink u) := by
  cases hu : l.myuser u with
  | none =>
    simp only [Logins.unlink, hu]
    exact h
  | some a =>
    rw [unlink_eq_logOut hu]
    exact ⟨h.named, h.owned, h.fresh⟩

theorem LinksOk.remove (h : LinksOk d l) (x : User) :
    LinksOk (d.remove irccasecanon u x) (l.unlink u) := by
  have hok := h.unlink u
  refine ⟨hok.linked, hok.nodup, fun v a hv => ?_, hok.accountLive⟩
  have hne : v ≠ u := by
    intro he
    have hgone := (hok.linked v a).mpr hv
    rw [unlink_myuser, if_pos he] at hgone
    cases hgone
  rw [Directory.remove, Registry.find_erase, if_neg hne]
  exact hok.userLive v a hv

theorem LinksOk.link (h : LinksOk d l) (hfree : l.myuser u = none)
    (huser : (d.users.find u).isSome = true) (haccount : (l.accounts.find a).isSome = true) :
    LinksOk d (l.link u a) := by
  have hnew : ∀ b, u ∉ l.logins b := by
    intro b hb
    rw [← h.linked, hfree] at hb
    cases hb
  have hmem : ∀ v b, v ∈ (l.link u a).logins b → v ∈ l.logins b ∨ v = u ∧ b = a := by
    intro v b hv
    have hv' : v ∈ if b = a then l.logins b ++ [u] else l.logins b := hv
    split_ifs at hv' with hb
    · rw [List.mem_append, List.mem_singleton] at hv'
      exact hv'.imp_right fun he => ⟨he, hb⟩
    · exact .inl hv'
  refine ⟨fun v b => ?_, fun b => ?_, fun v b hv => ?_, fun v b hv => ?_⟩
  · show (if v = u then some a else l.myuser v) = some b ↔
      v ∈ if b = a then l.logins b ++ [u] else l.logins b
    by_cases hv : v = u
    · subst hv
      rw [if_pos rfl, Option.some.injEq, eq_comm]
      split_ifs with hb
      · simp [hb]
      · simp [hb, hnew b]
    · rw [if_neg hv, h.linked v b]
      split_ifs <;> simp [hv]
  · show (if b = a then l.logins b ++ [u] else l.logins b).Nodup
    split_ifs
    · rw [List.nodup_append]
      refine ⟨h.nodup b, List.nodup_singleton u, fun v hv w hw he => ?_⟩
      rw [List.mem_singleton] at hw
      exact hnew b (hw ▸ he ▸ hv)
    · exact h.nodup b
  · obtain hold | ⟨rfl, -⟩ := hmem v b hv
    · exact h.userLive v b hold
    · exact huser
  · obtain hold | ⟨-, rfl⟩ := hmem v b hv
    · exact h.accountLive v b hold
    · exact haccount

end users

/-! ### Accounts -/

section accounts
variable {x : Account}

theorem accountsOk_empty : AccountsOk irccasecanon empty := by
  refine ⟨?_, ?_, ?_⟩
  · intro k a hk
    cases hk
  · intro k a hk
    cases hk
  · intro a ha
    cases ha

theorem AccountsOk.myuserFind_live (h : AccountsOk irccasecanon l) {name : CString}
    (ha : l.myuserFind irccasecanon name = some a) : (l.accounts.find a).isSome = true := by
  obtain ⟨x, hx, -⟩ := h.named _ a ha
  rw [hx]
  rfl

theorem AccountsOk.next_free (h : AccountsOk irccasecanon l) : l.accounts.find l.next = none := by
  cases hx : l.accounts.find l.next with
  | none => rfl
  | some x => exact absurd (h.fresh l.next (by rw [hx]; rfl)) (Nat.lt_irrefl _)

theorem LinksOk.of_accounts (h : LinksOk d l) (f : Account → Account) (b : AccountId) :
    LinksOk d { l with accounts := l.accounts.modify b f } := by
  refine ⟨h.linked, h.nodup, h.userLive, fun u a hu => ?_⟩
  show ((l.accounts.modify b f).find a).isSome = true
  obtain ⟨y, hy⟩ := Option.isSome_iff_exists.mp (h.accountLive u a hu)
  rw [Registry.find_modify, hy]
  split_ifs <;> rfl

theorem isSome_modify_account {f : Account → Account} {b : AccountId} :
    ((l.accounts.modify b f).find a).isSome = (l.accounts.find a).isSome := by
  rw [Registry.find_modify]
  split_ifs <;> simp

theorem AccountsOk.modify (h : AccountsOk irccasecanon l) {f : Account → Account} (b : AccountId)
    (hf : ∀ x, (f x).name = x.name) :
    AccountsOk irccasecanon { l with accounts := l.accounts.modify b f } := by
  refine ⟨fun k a hk => ?_, fun k a hk => ?_, fun a ha => ?_⟩
  · obtain ⟨x, hx, hname⟩ := h.named k a hk
    show ∃ y, (l.accounts.modify b f).find a = some y ∧ _
    rw [Registry.find_modify, hx]
    split_ifs
    · exact ⟨f x, rfl, by rw [hf, hname]⟩
    · exact ⟨x, rfl, hname⟩
  · show ((l.accounts.modify b f).find a).isSome = true
    rw [isSome_modify_account]
    exact h.owned k a hk
  · have ha' : ((l.accounts.modify b f).find a).isSome = true := ha
    rw [isSome_modify_account] at ha'
    exact h.fresh a ha'

theorem myuserAdd_ok (hl : LinksOk d l) (ha : AccountsOk irccasecanon l) (name : CString) (now : Int) :
    LinksOk d (l.myuserAdd irccasecanon name now).1 ∧
      AccountsOk irccasecanon (l.myuserAdd irccasecanon name now).1 ∧
      (l.myuserAdd irccasecanon name now).1.myuser = l.myuser ∧
      ((l.myuserAdd irccasecanon name now).1.accounts.find
        (l.myuserAdd irccasecanon name now).2).isSome = true := by
  simp only [myuserAdd]
  cases hf : l.myuserFind irccasecanon name with
  | some a => exact ⟨hl, ha, rfl, ha.myuserFind_live hf⟩
  | none =>
    have hfree := ha.next_free
    have hold : ∀ b, (l.accounts.find b).isSome = true →
        (l.accounts.insertNew l.next ⟨name, now, false, false⟩).find b = l.accounts.find b := by
      intro b hb
      obtain ⟨y, hy⟩ := Option.isSome_iff_exists.mp hb
      rw [Registry.find_insertNew, hy, Option.some_or]
    have hnew : (l.accounts.insertNew l.next ⟨name, now, false, false⟩).find l.next =
        some ⟨name, now, false, false⟩ := by
      rw [Registry.find_insertNew, hfree, if_pos rfl, Option.none_or]
    have hempty : ∀ b, (if b = l.next then [] else l.logins b) = l.logins b := by
      intro b
      split_ifs with hb
      · symm
        apply List.eq_nil_iff_forall_not_mem.mpr
        intro v hv
        have hlive := hl.accountLive v b hv
        rw [hb, hfree] at hlive
        cases hlive
      · rfl
    refine ⟨⟨fun u b => ?_, fun b => ?_, fun u b hu => ?_, fun u b hu => ?_⟩,
      ⟨fun k b hk => ?_, fun k b hk => ?_, fun b hb => ?_⟩, rfl, ?_⟩
    · show l.myuser u = some b ↔ u ∈ if b = l.next then [] else l.logins b
      rw [hempty]
      exact hl.linked u b
    · show (if b = l.next then [] else l.logins b).Nodup
      rw [hempty]
      exact hl.nodup b
    · have hu' : u ∈ if b = l.next then [] else l.logins b := hu
      rw [hempty] at hu'
      exact hl.userLive u b hu'
    · have hu' : u ∈ if b = l.next then [] else l.logins b := hu
      rw [hempty] at hu'
      have hlive := hl.accountLive u b hu'
      show ((l.accounts.insertNew l.next _).find b).isSome = true
      rw [hold b hlive]
      exact hlive
    · have hk' : (l.accountlist.insertNew (irccasecanon name) l.next).find k = some b := hk
      rw [Registry.find_insertNew, Option.or_eq_some_iff] at hk'
      obtain hk' | ⟨-, hk'⟩ := hk'
      · obtain ⟨x, hx, hname⟩ := ha.named k b hk'
        exact ⟨x, by rw [hold b (by rw [hx]; rfl), hx], hname⟩
      · split_ifs at hk' with hname
        cases hk'
        exact ⟨_, hnew, hname⟩
    · have hlive := ha.owned k b hk
      show ((l.accounts.insertNew l.next _).find b).isSome = true
      rw [hold b hlive]
      exact hlive
    · have hb' : ((l.accounts.insertNew l.next ⟨name, now, false, false⟩).find b).isSome = true := hb
      show b < l.next + 1
      rw [Registry.find_insertNew] at hb'
      cases hx : l.accounts.find b with
      | some x => exact Nat.lt_succ_of_lt (ha.fresh b (by rw [hx]; rfl))
      | none =>
        rw [hx, Option.none_or] at hb'
        split_ifs at hb' with he
        · rw [← he]
          exact Nat.lt_succ_self _
        · cases hb'
    · rw [hnew]
      rfl

theorem AccountsOk.mynickAdd (h : AccountsOk irccasecanon l) (nick : CString)
    (ha : (l.accounts.find a).isSome = true) :
    AccountsOk irccasecanon (l.mynickAdd irccasecanon nick a) := by
  refine ⟨h.named, fun k b hk => ?_, h.fresh⟩
  have hk' : (l.nicklist.insertNew (irccasecanon nick) a).find k = some b := hk
  rw [Registry.find_insertNew, Option.or_eq_some_iff] at hk'
  obtain hk' | ⟨-, hk'⟩ := hk'
  · exact h.owned k b hk'
  · split_ifs at hk'
    cases hk'
    exact ha

theorem AccountsOk.mynickDelete (h : AccountsOk irccasecanon l) (nick : CString) :
    AccountsOk irccasecanon (l.mynickDelete irccasecanon nick) := by
  refine ⟨h.named, fun k b hk => ?_, h.fresh⟩
  have hk' : (l.nicklist.erase (irccasecanon nick)).find k = some b := hk
  rw [Registry.find_erase] at hk'
  split_ifs at hk'
  exact h.owned k b hk'

theorem AccountsOk.rename (h : AccountsOk irccasecanon l) (hx : l.accounts.find a = some x)
    (name : CString) : AccountsOk irccasecanon (l.rename irccasecanon a x name) := by
  refine ⟨fun k b hk => ?_, fun k b hk => ?_, fun b hb => ?_⟩
  · have hk' : ((l.accountlist.erase (irccasecanon x.name)).insertNew (irccasecanon name) a).find k =
        some b := hk
    show ∃ y, (l.accounts.modify a _).find b = some y ∧ _
    rw [Registry.find_insertNew, Registry.find_erase, Option.or_eq_some_iff] at hk'
    rw [Registry.find_modify]
    obtain hk' | ⟨-, hk'⟩ := hk'
    · split_ifs at hk' with hkx
      obtain ⟨y, hy, hname⟩ := h.named k b hk'
      have hba : b ≠ a := by
        intro he
        rw [he, hx] at hy
        cases hy
        exact hkx hname.symm
      exact ⟨y, by rw [if_neg hba, hy], hname⟩
    · split_ifs at hk' with hkn
      cases hk'
      exact ⟨{ x with name := name }, by rw [if_pos rfl, hx]; rfl, hkn⟩
  · show ((l.accounts.modify a _).find b).isSome = true
    rw [isSome_modify_account]
    exact h.owned k b hk
  · have hb' : ((l.accounts.modify a fun y => { y with name := name }).find b).isSome = true := hb
    rw [isSome_modify_account] at hb'
    exact h.fresh b hb'

theorem AccountsOk.free (h : AccountsOk irccasecanon l) (hx : l.accounts.find a = some x) :
    AccountsOk irccasecanon (l.free irccasecanon a x) := by
  refine ⟨fun k b hk => ?_, fun k b hk => ?_, fun b hb => ?_⟩
  · have hk' : (l.accountlist.erase (irccasecanon x.name)).find k = some b := hk
    show ∃ y, (l.accounts.erase a).find b = some y ∧ _
    rw [Registry.find_erase] at hk' ⊢
    split_ifs at hk' with hkx
    obtain ⟨y, hy, hname⟩ := h.named k b hk'
    have hba : b ≠ a := by
      intro he
      rw [he, hx] at hy
      cases hy
      exact hkx hname.symm
    exact ⟨y, by rw [if_neg hba, hy], hname⟩
  · have hk' : (l.nicklist.update fun _ owner => if owner = a then none else some owner).find k =
        some b := hk
    rw [Registry.find_update, Option.bind_eq_some_iff] at hk'
    obtain ⟨c, hc, hb⟩ := hk'
    split_ifs at hb with hca
    cases hb
    show ((l.accounts.erase a).find b).isSome = true
    rw [Registry.find_erase, if_neg hca]
    exact h.owned k b hc
  · have hb' : ((l.accounts.erase a).find b).isSome = true := hb
    rw [Registry.find_erase] at hb'
    split_ifs at hb'
    · cases hb'
    · exact h.fresh b hb'

theorem LinksOk.free_iff (h : LinksOk d l) :
    (∀ u b, (l.free irccasecanon a x).myuser u = some b ↔
      u ∈ (l.free irccasecanon a x).logins b) ↔ l.logins a = [] := by
  constructor
  · intro hall
    apply List.eq_nil_iff_forall_not_mem.mpr
    intro u hu
    have hlist := (hall u a).mp ((h.linked u a).mpr hu)
    have hnone : u ∈ if a = a then [] else l.logins a := hlist
    rw [if_pos rfl] at hnone
    cases hnone
  · intro hnil u b
    show l.myuser u = some b ↔ u ∈ if b = a then [] else l.logins b
    split_ifs with hb
    · rw [h.linked, hb, hnil]
    · exact h.linked u b

theorem LinksOk.free (h : LinksOk d l) (hnil : l.logins a = []) :
    LinksOk d (l.free irccasecanon a x) := by
  have hmem : ∀ u b, u ∈ (l.free irccasecanon a x).logins b → b ≠ a ∧ u ∈ l.logins b := by
    intro u b hu
    have hu' : u ∈ if b = a then [] else l.logins b := hu
    split_ifs at hu' with hb
    · cases hu'
    · exact ⟨hb, hu'⟩
  refine ⟨h.free_iff.mpr hnil, fun b => ?_, fun u b hu => ?_, fun u b hu => ?_⟩
  · show (if b = a then [] else l.logins b).Nodup
    split_ifs
    · exact List.nodup_nil
    · exact h.nodup b
  · exact h.userLive u b (hmem u b hu).2
  · obtain ⟨hb, hold⟩ := hmem u b hu
    show ((l.accounts.erase a).find b).isSome = true
    rw [Registry.find_erase, if_neg hb]
    exact h.accountLive u b hold

end accounts
end Logins
end ChatServices.Network
