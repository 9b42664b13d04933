import Mathlib.Data.List.Induction
import ChatServices.Privs

/-! The links between operator records, accounts and classes over every run. A record keeps its
name once it has an account; no account can have the name instead as long as only the
configuration file makes records by name and its operators are not renamed. -/
namespace ChatServices.Privs
open ChatServices.Lib ChatServices.Lib.Mask ChatServices.Text

structure ClassesOk (p : PrivsState) : Prop where
  given : ∀ s r, p.sopers.find s = some r → r.operclass = p.operclassFind r.classname
  single : ∀ i j oi oj, p.operclasses.find i = some oi → p.operclasses.find j = some oj →
    strcasecanon oi.name = strcasecanon oj.name → i = j

/-- Records and accounts point at each other; a name of a record is one of the configuration file,
and of the account that the record has. -/
structure LinksOk (cm : CaseMapping) (p : PrivsState) : Prop where
  pairs : Mutual p.soperOf p.accountOf
  single : ∀ i j ai aj, p.accounts.find i = some ai → p.accounts.find j = some aj →
    irccasecanon cm ai.name = irccasecanon cm aj.name → i = j
  named : ∀ s r n, p.sopers.find s = some r → r.name = some n → test r.flags soperConf = true ∧
    ∀ mu a, r.myuser = some mu → p.accounts.find mu = some a →
      irccasecanon cm n = irccasecanon cm a.name

/-- The addresses from `next` on are not in use. -/
def Fresh (p : PrivsState) : Prop := ∀ k, p.next ≤ k →
  p.operclasses.find k = none ∧ p.sopers.find k = none ∧ p.accounts.find k = none

structure Ok (cm : CaseMapping) (p : PrivsState) : Prop where
  classes : ClassesOk p
  links : LinksOk cm p
  fresh : Fresh p

section classes
variable {p p' : PrivsState} {name : CString}

theorem ClassesOk.one (h : ClassesOk p) (name : CString) : ∀ i j oi oj,
    p.operclasses.find i = some oi → p.operclasses.find j = some oj →
    strcaseEq oi.name name = true → strcaseEq oj.name name = true → i = j := by
  intro i j oi oj hi hj hni hnj
  simp only [strcaseEq, decide_eq_true_eq] at hni hnj
  exact h.single i j oi oj hi hj (hni.trans hnj.symm)

theorem ClassesOk.of_sopers (h : ClassesOk p) (hops : p'.operclasses = p.operclasses)
    (hs : ∀ s r', p'.sopers.find s = some r' →
      (∃ s₀ r, p.sopers.find s₀ = some r ∧ r.classname = r'.classname ∧
        r.operclass = r'.operclass) ∨ r'.operclass = p.operclassFind r'.classname) :
    ClassesOk p' := by
  have hfind : p'.operclassFind = p.operclassFind := by
    funext n
    rw [PrivsState.operclassFind, hops]
    rfl
  refine ⟨fun s r' hr' => ?_, fun i j oi oj hi hj => ?_⟩
  · rw [hfind]
    obtain ⟨s₀, r, hr, hname, hclass⟩ | hnew := hs s r' hr'
    · rw [← hclass, ← hname]
      exact h.given s₀ r hr
    · exact hnew
  · rw [hops] at hi hj
    exact h.single i j oi oj hi hj

theorem ClassesOk.operclassAdd (h : ClassesOk p) (hfresh : p.operclasses.find p.next = none)
    (name privs : CString) (flags : Flags) : ClassesOk (p.operclassAdd name privs flags) := by
  rw [PrivsState.operclassAdd]
  cases hfound : p.operclassFind name with
  | some oc =>
    -- an update in place, under the same name
    have hfind : ∀ n, (p.operclasses.modify oc fun o =>
        { o with privs := privs, flags := flags ||| (o.flags &&& operclassBuiltin) }).firstWhere
          (fun o => strcaseEq o.name n) = p.operclassFind n :=
      fun n => Registry.firstWhere_modify fun _ _ => rfl
    refine ⟨fun s r hr => (h.given s r hr).trans (hfind r.classname).symm,
      fun i j oi oj hi hj heq => ?_⟩
    simp only [Registry.find_modify] at hi hj
    have hold : ∀ k o', (if k = oc then (p.operclasses.find k).map fun o =>
        { o with privs := privs, flags := flags ||| (o.flags &&& operclassBuiltin) }
        else p.operclasses.find k) = some o' →
          ∃ o, p.operclasses.find k = some o ∧ o.name = o'.name := by
      intro k o' hk
      split_ifs at hk
      · obtain ⟨o, ho, rfl⟩ := Option.map_eq_some_iff.mp hk
        exact ⟨o, ho, rfl⟩
      · exact ⟨o', hk, rfl⟩
    obtain ⟨o₁, h₁, hname₁⟩ := hold i oi hi
    obtain ⟨o₂, h₂, hname₂⟩ := hold j oj hj
    exact h.single i j o₁ o₂ h₁ h₂ (by rw [hname₁, hname₂, heq])
  | none =>
    have hnone := Registry.firstWhere_none_iff.mp hfound
    have hfind : ∀ n, (p.operclasses.insertNew p.next ⟨name, privs, flags⟩).firstWhere
        (fun o => strcaseEq o.name n) =
          (p.operclassFind n).or (if strcaseEq name n = true then some p.next else none) :=
      fun n => Registry.firstWhere_insertNew hfresh
    refine ⟨fun s r' hr' => ?_, fun i j oi oj hi hj heq => ?_⟩
    · simp only [Registry.find_update] at hr'
      obtain ⟨r, hr, hr'⟩ := Option.bind_eq_some_iff.mp hr'
      have hold := h.given s r hr
      refine Eq.trans ?_ (hfind r'.classname).symm
      by_cases hbind : r.operclass = none ∧ strcaseEq name r.classname = true
      · rw [if_pos hbind] at hr'
        cases hr'
        dsimp only
        rw [← hold, hbind.1, if_pos hbind.2, Option.none_or]
      · rw [if_neg hbind] at hr'
        obtain rfl := Option.some.inj hr'
        rw [← hold]
        cases hclass : r.operclass with
        | some i => rfl
        | none => rw [if_neg fun heq => hbind ⟨hclass, heq⟩, Option.none_or]
    · rw [Registry.find_insertNew] at hi hj
      have hnew : ∀ k o, p.operclasses.find k = some o →
          strcasecanon o.name ≠ strcasecanon name := by
        intro k o hk heq
        have hno := hnone k o hk
        simp [strcaseEq, heq] at hno
      have hcase : ∀ k o, ((p.operclasses.find k).or
          (if p.next = k then some ⟨name, privs, flags⟩ else none)) = some o →
          p.operclasses.find k = some o ∨ k = p.next ∧ o.name = name := by
        intro k o hk
        cases hold : p.operclasses.find k with
        | some o' =>
          rw [hold] at hk
          exact .inl hk
        | none =>
          rw [hold, Option.none_or] at hk
          split_ifs at hk with hkey
          cases hk
          exact .inr ⟨hkey.symm, rfl⟩
      obtain hi | ⟨rfl, hni⟩ := hcase i oi hi <;> obtain hj | ⟨rfl, hnj⟩ := hcase j oj hj
      · exact h.single i j oi oj hi hj heq
      · exact absurd (heq.trans (by rw [hnj])) (hnew i oi hi)
      · exact absurd (heq.symm.trans (by rw [hni])) (hnew j oj hj)
      · rfl

theorem ClassesOk.operclassDelete (h : ClassesOk p) (oc : OperclassRef) :
    ClassesOk (p.operclassDelete oc) := by
  rw [PrivsState.operclassDelete]
  cases hoc : p.operclasses.find oc with
  | none => exact h
  | some o =>
    dsimp only
    split_ifs
    · exact h
    · have hfind : ∀ n, (p.operclasses.erase oc).firstWhere (fun o => strcaseEq o.name n) =
          if p.operclassFind n = some oc then none else p.operclassFind n :=
        fun n => Registry.firstWhere_erase (h.one n)
      refine ⟨fun s r' hr' => ?_, fun i j oi oj hi hj => ?_⟩
      · simp only [Registry.find_update] at hr'
        obtain ⟨r, hr, hr'⟩ := Option.bind_eq_some_iff.mp hr'
        have hold := h.given s r hr
        refine Eq.trans ?_ (hfind r'.classname).symm
        by_cases hclass : r.operclass = some oc
        · rw [if_pos hclass] at hr'
          cases hr'
          dsimp only
          rw [← hold, if_pos hclass]
        · rw [if_neg hclass] at hr'
          cases hr'
          rw [← hold, if_neg hclass]
      · rw [Registry.find_erase] at hi hj
        split_ifs at hi hj
        exact h.single i j oi oj hi hj

end classes

section links
variable {cm : CaseMapping} {p p' : PrivsState} {s : SoperRef} {mu : AccountRef}

def Soper.link (r : Soper) : Option CString × Option AccountRef × Flags :=
  (r.name, r.myuser, r.flags)

theorem LinksOk.of_link (h : LinksOk cm p) (hacc : p'.accounts = p.accounts)
    (hs : ∀ s, (p'.sopers.find s).map Soper.link = (p.sopers.find s).map Soper.link) :
    LinksOk cm p' := by
  have hold : ∀ s r', p'.sopers.find s = some r' →
      ∃ r, p.sopers.find s = some r ∧ r.link = r'.link := by
    intro s r' hr'
    have heq := hs s
    rw [hr'] at heq
    obtain ⟨r, hr, hlink⟩ := Option.map_eq_some_iff.mp heq.symm
    exact ⟨r, hr, hlink⟩
  have haccount : p'.accountOf = p.accountOf := by
    funext s
    have hmap : ∀ q : PrivsState,
        q.accountOf s = ((q.sopers.find s).map Soper.link).bind (fun l => l.2.1) := by
      intro q
      rw [PrivsState.accountOf, Option.bind_map]
      rfl
    rw [hmap, hmap, hs]
  have hsoper : p'.soperOf = p.soperOf := by
    funext mu
    rw [PrivsState.soperOf, hacc]
    rfl
  refine ⟨?_, ?_, fun s r' n hr' hn => ?_⟩
  · rw [haccount, hsoper]
    exact h.pairs
  · rw [hacc]
    exact h.single
  · obtain ⟨r, hr, hlink⟩ := hold s r' hr'
    simp only [Soper.link, Prod.mk.injEq] at hlink
    obtain ⟨hname, hmyuser, hflags⟩ := hlink
    rw [hacc, ← hflags, ← hmyuser]
    exact h.named s r n hr (hname.trans hn)

theorem accountOf_setSoper (m : Option AccountRef) (t : Option SoperRef) :
    (p.setSoper m t).accountOf = p.accountOf := by
  cases m <;> rfl

theorem soperOf_setSoper {t : Option SoperRef} {sopers : Registry SoperRef Soper} {n : Nat}
    (hlive : t = none ∨ (p.accounts.find mu).isSome) :
    ({ p with sopers := sopers, next := n }.setSoper (some mu) t).soperOf =
      Function.update p.soperOf mu t := by
  funext mu'
  rw [Function.update_apply, PrivsState.soperOf, PrivsState.setSoper]
  dsimp only
  rw [Registry.find_modify]
  split_ifs with hmu
  · subst hmu
    cases hfind : p.accounts.find mu' with
    | none =>
      rw [hfind] at hlive
      exact (hlive.resolve_right nofun).symm
    | some a => rfl
  · rw [PrivsState.soperOf]

theorem find_setSoper {m : Option AccountRef} {t : Option SoperRef} {a : Account}
    (h : (p.setSoper m t).accounts.find mu = some a) :
    ∃ a₀, p.accounts.find mu = some a₀ ∧ a₀.name = a.name := by
  cases m with
  | none => exact ⟨a, h, rfl⟩
  | some m =>
    rw [PrivsState.setSoper] at h
    dsimp only at h
    rw [Registry.find_modify] at h
    split_ifs at h
    · obtain ⟨a₀, ha₀, rfl⟩ := Option.map_eq_some_iff.mp h
      exact ⟨a₀, ha₀, rfl⟩
    · exact ⟨a, h, rfl⟩

theorem LinksOk.single_setSoper (h : LinksOk cm p) (hacc : p'.accounts = p.accounts)
    (m : Option AccountRef) (t : Option SoperRef) :
    ∀ i j ai aj, (p'.setSoper m t).accounts.find i = some ai →
      (p'.setSoper m t).accounts.find j = some aj →
      irccasecanon cm ai.name = irccasecanon cm aj.name → i = j := by
  intro i j ai aj hi hj heq
  obtain ⟨ai₀, hi₀, hni⟩ := find_setSoper hi
  obtain ⟨aj₀, hj₀, hnj⟩ := find_setSoper hj
  rw [hacc] at hi₀ hj₀
  exact h.single i j ai₀ aj₀ hi₀ hj₀ (by rw [hni, hnj, heq])

theorem accountOf_eq {r : Soper} (hr : p.sopers.find s = some r) : p.accountOf s = r.myuser := by
  rw [PrivsState.accountOf, hr, Option.bind_some]

theorem soperOf_some {t : SoperRef} (h : p.soperOf mu = some t) :
    ∃ a, p.accounts.find mu = some a ∧ a.soper = some t :=
  Option.bind_eq_some_iff.mp h

theorem LinksOk.soperFind_none (h : LinksOk cm p) :
    p.soperFind mu = none ↔ p.soperOf mu = none := by
  rw [PrivsState.soperFind, Registry.firstWhere_none_iff]
  constructor
  · intro hnone
    cases hof : p.soperOf mu with
    | none => rfl
    | some t =>
      have hback := (h.pairs mu t).mp hof
      obtain ⟨r, hr, hmyuser⟩ := Option.bind_eq_some_iff.mp hback
      have hno := hnone t r hr
      simp [hmyuser] at hno
  · intro hof t r hr
    apply decide_eq_false
    intro hmyuser
    have hback := (h.pairs mu t).mpr ((accountOf_eq hr).trans hmyuser)
    rw [hof] at hback
    cases hback

theorem accountOf_erase : ({ p with sopers := p.sopers.erase s } : PrivsState).accountOf =
    Function.update p.accountOf s none := by
  funext t
  rw [Function.update_apply, PrivsState.accountOf]
  dsimp only
  rw [Registry.find_erase]
  split_ifs <;> rfl

theorem LinksOk.soperDelete (h : LinksOk cm p) (s : SoperRef) : LinksOk cm (p.soperDelete s) := by
  rw [PrivsState.soperDelete]
  cases hr : p.sopers.find s with
  | none => exact h
  | some r =>
    dsimp only
    have hof := accountOf_eq hr
    refine ⟨?_, h.single_setSoper (by rfl) r.myuser none, fun t r' n hr' hn => ?_⟩
    · rw [accountOf_setSoper, accountOf_erase]
      cases hmyuser : r.myuser with
      | none =>
        have hsame := Function.update_eq_self s p.accountOf
        rw [hof, hmyuser] at hsame
        rw [hsame]
        exact h.pairs
      | some m =>
        rw [soperOf_setSoper (.inl rfl)]
        exact h.pairs.unlink ((h.pairs m s).mpr (hof.trans hmyuser))
    · have hold : p.sopers.find t = some r' := by
        have herased : (p.sopers.erase s).find t = some r' := by
          cases hm : r.myuser <;> simpa [PrivsState.setSoper, hm] using hr'
        rw [Registry.find_erase] at herased
        split_ifs at herased
        exact herased
      obtain ⟨hconf, hnames⟩ := h.named t r' n hold hn
      refine ⟨hconf, fun m a hm ha => ?_⟩
      obtain ⟨a₀, ha₀, hname⟩ := find_setSoper ha
      rw [← hname]
      exact hnames m a₀ hm ha₀

theorem soperDelete_next (s : SoperRef) : (p.soperDelete s).next = p.next := by
  rw [PrivsState.soperDelete]
  cases p.sopers.find s with
  | none => rfl
  | some r => cases hm : r.myuser <;> simp [PrivsState.setSoper, hm]

theorem soperDelete_fresh (hfresh : ∀ k, p.next ≤ k → p.sopers.find k = none) (s : SoperRef) :
    (p.soperDelete s).sopers.find (p.soperDelete s).next = none := by
  have hnone := hfresh p.next (le_refl _)
  rw [soperDelete_next, PrivsState.soperDelete]
  cases p.sopers.find s with
  | none => exact hnone
  | some r => cases hm : r.myuser <;> simp [PrivsState.setSoper, hm, hnone]

theorem LinksOk.soperInsert (h : LinksOk cm p) (hfresh : p.sopers.find p.next = none)
    {name classname : CString} {flags : Flags} {password : Option CString} {m : Option AccountRef}
    (hm : ∀ mu ∈ m, (p.accounts.find mu).isSome ∧ p.soperOf mu = none)
    (hconf : m = none → test flags soperConf = true) :
    LinksOk cm (p.soperInsert name classname flags password m) := by
  rw [PrivsState.soperInsert]
  generalize hrec : (⟨if m.isSome then none else some name, classname, m,
    p.operclassFind classname, flags, password⟩ : Soper) = rec
  have hmyuser : rec.myuser = m := by rw [← hrec]
  have haccount : ∀ q : PrivsState, q.sopers = p.sopers.insertNew p.next rec →
      q.accountOf = Function.update p.accountOf p.next m := by
    intro q hq
    funext t
    rw [PrivsState.accountOf, hq, Registry.find_insertNew, Function.update_apply]
    by_cases ht : t = p.next
    · rw [ht, hfresh, if_pos rfl, if_pos rfl, ← hmyuser]
      rfl
    · rw [if_neg (Ne.symm ht), if_neg ht, Option.or_none]
      rfl
  have hnone : p.accountOf p.next = none := by rw [PrivsState.accountOf, hfresh]; rfl
  refine ⟨?_, h.single_setSoper (by rfl) m _, fun t r n hr hn => ?_⟩
  · rw [accountOf_setSoper, haccount _ rfl]
    cases m with
    | none =>
      have hsame := Function.update_eq_self p.next p.accountOf
      rw [hnone] at hsame
      rw [hsame]
      exact h.pairs
    | some mu =>
      obtain ⟨hlive, hunbound⟩ := hm mu rfl
      rw [soperOf_setSoper (.inr hlive)]
      exact h.pairs.link hunbound hnone
  · have hinserted : (p.sopers.insertNew p.next rec).find t = some r := by
      cases m <;> exact hr
    rw [Registry.find_insertNew] at hinserted
    cases hold : p.sopers.find t with
    | some r₀ =>
      rw [hold, Option.some_or] at hinserted
      obtain rfl := Option.some.inj hinserted
      obtain ⟨hflags, hnames⟩ := h.named t r₀ n hold hn
      refine ⟨hflags, fun mu a hmu ha => ?_⟩
      obtain ⟨a₀, ha₀, hname⟩ := find_setSoper ha
      rw [← hname]
      exact hnames mu a₀ hmu ha₀
    | none =>
      rw [hold, Option.none_or] at hinserted
      split_ifs at hinserted
      obtain rfl := Option.some.inj hinserted
      cases m with
      | some mu =>
        rw [← hrec] at hn
        cases hn
      | none =>
        refine ⟨?_, fun mu a hmu => ?_⟩
        · rw [← hrec]
          exact hconf rfl
        · rw [hmyuser] at hmu
          cases hmu

theorem LinksOk.erase (h : LinksOk cm p) (hmu : p.soperOf mu = none) :
    LinksOk cm { p with accounts := p.accounts.erase mu } := by
  have hold : ∀ m a, (p.accounts.erase mu).find m = some a → p.accounts.find m = some a := by
    intro m a ha
    rw [Registry.find_erase] at ha
    split_ifs at ha
    exact ha
  have hsoper : ({ p with accounts := p.accounts.erase mu } : PrivsState).soperOf = p.soperOf := by
    funext m
    rw [PrivsState.soperOf]
    dsimp only
    rw [Registry.find_erase]
    split_ifs with hm
    · rw [hm, hmu]
      rfl
    · rfl
  refine ⟨?_, fun i j ai aj hi hj => ?_, fun s r n hr hn => ?_⟩
  · rw [hsoper]
    exact h.pairs
  · exact h.single i j ai aj (hold i ai hi) (hold j aj hj)
  · obtain ⟨hconf, hnames⟩ := h.named s r n hr hn
    exact ⟨hconf, fun m a hm ha => hnames m a hm (hold m a ha)⟩

theorem LinksOk.myuserDelete (h : LinksOk cm p) (mu : AccountRef) :
    LinksOk cm (p.myuserDelete mu) := by
  rw [PrivsState.myuserDelete]
  cases ha : p.accounts.find mu with
  | none => exact h
  | some a =>
    have hof : p.soperOf mu = a.soper := by rw [PrivsState.soperOf, ha, Option.bind_some]
    dsimp only
    cases hfound : p.soperFind mu with
    | none => exact h.erase (h.soperFind_none.mp hfound)
    | some t =>
      cases hs : a.soper with
      | none => exact h.erase (hof.trans hs)
      | some s =>
        have hback := (h.pairs mu s).mp (hof.trans hs)
        obtain ⟨r, hr, hmyuser⟩ := Option.bind_eq_some_iff.mp hback
        apply (h.soperDelete s).erase
        rw [PrivsState.soperDelete, hr]
        dsimp only
        rw [hmyuser, soperOf_setSoper (.inl rfl), Function.update_self]

theorem LinksOk.soperAdd (h : LinksOk cm p) (hfresh : ∀ k, p.next ≤ k → p.sopers.find k = none)
    {name : CString} {flags : Flags}
    (hcaller : test flags soperConf = true ∨ (p.myuserFind cm name).isSome)
    (classname : CString) (password : Option CString) :
    LinksOk cm (p.soperAdd cm name classname flags password) := by
  have hlive : ∀ mu ∈ p.myuserFind cm name, (p.accounts.find mu).isSome := by
    intro mu hmu
    obtain ⟨a, ha, -⟩ := Registry.firstWhere_some hmu
    rw [ha]
    rfl
  have hconf : p.myuserFind cm name = none → test flags soperConf = true := by
    intro hnone
    apply hcaller.resolve_right
    rw [hnone]
    nofun
  rw [PrivsState.soperAdd]
  cases hmu : p.myuserFind cm name with
  | none =>
    dsimp only
    cases p.soperFindNamed cm name with
    | none => exact h.soperInsert (hfresh _ (le_refl _)) nofun fun _ => hconf hmu
    | some s =>
      dsimp only
      cases hr : p.sopers.find s with
      | none => exact h
      | some r =>
        dsimp only
        split_ifs
        · exact (h.soperDelete s).soperInsert (soperDelete_fresh hfresh s) nofun
            fun _ => hconf hmu
        · exact h
  | some mu =>
    dsimp only
    cases hfound : p.soperFind mu with
    | none =>
      refine h.soperInsert (hfresh _ (le_refl _)) (fun mu' hmu' => ?_) nofun
      obtain rfl := Option.some.inj hmu'
      exact ⟨hlive mu hmu, h.soperFind_none.mp hfound⟩
    | some s =>
      dsimp only
      cases hr : p.sopers.find s with
      | none => exact h
      | some r =>
        dsimp only
        split_ifs
        · have hnew := soperDelete_fresh hfresh s
          refine (h.soperDelete s).soperInsert hnew (fun mu' hmu' => ?_) nofun
          obtain rfl := Option.some.inj hmu'
          obtain ⟨r', hr', hmyuser⟩ := Registry.firstWhere_some hfound
          rw [hr] at hr'
          obtain rfl := Option.some.inj hr'
          simp only [decide_eq_true_eq] at hmyuser
          rw [PrivsState.soperDelete, hr]
          dsimp only
          rw [hmyuser]
          refine ⟨?_, ?_⟩
          · simp [PrivsState.setSoper, hlive mu hmu]
          · rw [soperOf_setSoper (.inl rfl), Function.update_self]
        · exact h

theorem soperOf_fresh (hfresh : p.accounts.find mu = none) : p.soperOf mu = none := by
  rw [PrivsState.soperOf, hfresh, Option.bind_none]

theorem LinksOk.insertAccount (h : LinksOk cm p) (hfresh : p.accounts.find p.next = none)
    {name : CString} (hname : p.myuserFind cm name = none) :
    LinksOk cm
      { p with accounts := p.accounts.insertNew p.next ⟨name, none⟩, next := p.next + 1 } := by
  have hother : ∀ m a, p.accounts.find m = some a →
      irccasecanon cm a.name ≠ irccasecanon cm name := by
    intro m a ha heq
    have hno := Registry.firstWhere_none_iff.mp hname m a ha
    simp [irccaseEq, heq] at hno
  have hcase : ∀ m a, (p.accounts.insertNew p.next ⟨name, none⟩).find m = some a →
      p.accounts.find m = some a ∨ m = p.next ∧ a.name = name := by
    intro m a hm
    rw [Registry.find_insertNew] at hm
    cases hold : p.accounts.find m with
    | some a₀ =>
      rw [hold, Option.some_or] at hm
      exact .inl hm
    | none =>
      rw [hold, Option.none_or] at hm
      split_ifs at hm with hnew
      obtain rfl := Option.some.inj hm
      exact .inr ⟨hnew.symm, rfl⟩
  have hsoper : ({ p with accounts := p.accounts.insertNew p.next ⟨name, none⟩
                          next := p.next + 1 } : PrivsState).soperOf = p.soperOf := by
    funext m
    rw [PrivsState.soperOf, PrivsState.soperOf]
    dsimp only
    rw [Registry.find_insertNew]
    by_cases hm : p.next = m
    · rw [← hm, hfresh, if_pos rfl]
      rfl
    · rw [if_neg hm, Option.or_none]
  refine ⟨?_, fun i j ai aj hi hj heq => ?_, fun s r n hr hn => ?_⟩
  · rw [hsoper]
    exact h.pairs
  · obtain hi | ⟨rfl, hni⟩ := hcase i ai hi <;> obtain hj | ⟨rfl, hnj⟩ := hcase j aj hj
    · exact h.single i j ai aj hi hj heq
    · exact absurd (heq.trans (by rw [hnj])) (hother i ai hi)
    · exact absurd (heq.symm.trans (by rw [hni])) (hother j aj hj)
    · rfl
  · obtain ⟨hconf, hnames⟩ := h.named s r n hr hn
    refine ⟨hconf, fun m a hm ha => ?_⟩
    obtain hold | ⟨rfl, -⟩ := hcase m a ha
    · exact hnames m a hm hold
    · have hback := (h.pairs p.next s).mpr ((accountOf_eq hr).trans hm)
      rw [soperOf_fresh hfresh] at hback
      cases hback

theorem LinksOk.bind (h : LinksOk cm p) {a : Account} (ha : p.accounts.find mu = some a)
    (hmu : p.soperOf mu = none) {r : Soper} (hr : p.sopers.find s = some r) (hs : r.myuser = none)
    (hname : ∀ n ∈ r.name, irccasecanon cm n = irccasecanon cm a.name) :
    LinksOk cm ({ p with
      sopers := p.sopers.modify s fun r =>
        { r with myuser := some mu } }.setSoper mu (some s)) := by
  have haccount : ({ p with
      sopers := p.sopers.modify s fun r => { r with myuser := some mu } } : PrivsState).accountOf =
        Function.update p.accountOf s (some mu) := by
    funext t
    rw [Function.update_apply, PrivsState.accountOf]
    dsimp only
    rw [Registry.find_modify]
    split_ifs with ht
    · rw [ht, hr]
      rfl
    · rfl
  refine ⟨?_, h.single_setSoper (by rfl) _ _, fun t r' n hr' hn => ?_⟩
  · rw [accountOf_setSoper, haccount, soperOf_setSoper (.inr (by rw [ha]; rfl))]
    exact h.pairs.link hmu ((accountOf_eq hr).trans hs)
  · rw [PrivsState.setSoper] at hr'
    dsimp only at hr'
    rw [Registry.find_modify] at hr'
    split_ifs at hr' with ht
    · obtain ⟨r₀, hr₀, rfl⟩ := Option.map_eq_some_iff.mp hr'
      rw [ht, hr] at hr₀
      obtain rfl := Option.some.inj hr₀
      refine ⟨(h.named s r n hr hn).1, fun m b hm hb => ?_⟩
      obtain rfl := Option.some.inj hm
      obtain ⟨b₀, hb₀, hsame⟩ := find_setSoper hb
      rw [ha] at hb₀
      obtain rfl := Option.some.inj hb₀
      rw [← hsame]
      exact hname n hn
    · obtain ⟨hconf, hnames⟩ := h.named t r' n hr' hn
      refine ⟨hconf, fun m b hm hb => ?_⟩
      obtain ⟨b₀, hb₀, hsame⟩ := find_setSoper hb
      rw [← hsame]
      exact hnames m b₀ hm hb₀

theorem LinksOk.myuserAdd (h : LinksOk cm p) (hfresh : p.accounts.find p.next = none)
    (name : CString) : LinksOk cm (p.myuserAdd cm name) := by
  rw [PrivsState.myuserAdd]
  cases hmu : p.myuserFind cm name with
  | some mu => exact h
  | none =>
    dsimp only
    have hadded := h.insertAccount hfresh hmu
    have hnew : (p.accounts.insertNew p.next ⟨name, none⟩).find p.next = some ⟨name, none⟩ := by
      rw [Registry.find_insertNew, hfresh, if_pos rfl, Option.none_or]
    cases hs : p.soperFindNamed cm name with
    | none => exact hadded
    | some s =>
      dsimp only
      obtain ⟨r, hr, hnamed⟩ := Registry.firstWhere_some hs
      cases hn : r.name with
      | none => simp [hn] at hnamed
      | some n =>
        have hcanon : irccasecanon cm n = irccasecanon cm name := by
          simpa [hn, irccaseEq] using hnamed
        have hunbound : r.myuser = none := by
          cases hof : r.myuser with
          | none => rfl
          | some m =>
            obtain ⟨a, ha, -⟩ := soperOf_some ((h.pairs m s).mpr ((accountOf_eq hr).trans hof))
            have hown := (h.named s r n hr hn).2 m a hof ha
            have hno := Registry.firstWhere_none_iff.mp hmu m a ha
            simp [irccaseEq, ← hown, hcanon] at hno
        refine hadded.bind hnew ?_ hr hunbound fun n' hn' => ?_
        · rw [PrivsState.soperOf, hnew, Option.bind_some]
        · rw [hn] at hn'
          obtain rfl := Option.some.inj hn'
          exact hcanon

theorem LinksOk.myuserRename (h : LinksOk cm p) {name : CString} (hconf : p.isConfSoper mu = false)
    (hfree : ∀ mu' ∈ p.myuserFind cm name, mu' = mu) : LinksOk cm (p.myuserRename mu name) := by
  have hcase : ∀ m a', (p.myuserRename mu name).accounts.find m = some a' →
      ∃ a, p.accounts.find m = some a ∧ a'.soper = a.soper ∧
        a'.name = if m = mu then name else a.name := by
    intro m a' ha'
    rw [PrivsState.myuserRename] at ha'
    dsimp only at ha'
    rw [Registry.find_modify] at ha'
    split_ifs at ha' with hm
    · obtain ⟨a, ha, rfl⟩ := Option.map_eq_some_iff.mp ha'
      exact ⟨a, ha, rfl, (if_pos hm).symm⟩
    · exact ⟨a', ha', rfl, (if_neg hm).symm⟩
  have hsoper : (p.myuserRename mu name).soperOf = p.soperOf := by
    funext m
    rw [PrivsState.soperOf, PrivsState.soperOf, PrivsState.myuserRename]
    dsimp only
    rw [Registry.find_modify]
    split_ifs
    · rw [Option.bind_map]
      rfl
    · rfl
  have htaken : ∀ m a, p.accounts.find m = some a → irccasecanon cm a.name = irccasecanon cm name →
      m = mu := by
    intro m a ha heq
    cases hfound : p.myuserFind cm name with
    | none =>
      have hno := Registry.firstWhere_none_iff.mp hfound m a ha
      simp [irccaseEq, heq] at hno
    | some mu' =>
      obtain ⟨a', ha', heq'⟩ := Registry.firstWhere_some hfound
      simp only [irccaseEq, decide_eq_true_eq] at heq'
      rw [h.single m mu' a a' ha ha' (heq.trans heq'.symm)]
      exact hfree mu' hfound
  refine ⟨?_, fun i j ai aj hi hj heq => ?_, fun s r n hr hn => ?_⟩
  · rw [hsoper]
    exact h.pairs
  · obtain ⟨a, ha, -, hna⟩ := hcase i ai hi
    obtain ⟨b, hb, -, hnb⟩ := hcase j aj hj
    rw [hna, hnb] at heq
    split_ifs at heq with hi' hj' hj'
    · rw [hi', hj']
    · rw [hi', htaken j b hb heq.symm]
    · rw [hj', htaken i a ha heq]
    · exact h.single i j a b ha hb heq
  · obtain ⟨hflags, hnames⟩ := h.named s r n hr hn
    refine ⟨hflags, fun m a' hm ha' => ?_⟩
    obtain ⟨a, ha, -, hna⟩ := hcase m a' ha'
    split_ifs at hna with hmu
    · subst hmu
      have hback := (h.pairs m s).mpr ((accountOf_eq hr).trans hm)
      have hr' : p.sopers.find s = some r := hr
      simp [PrivsState.isConfSoper, hback, hr', hflags] at hconf
    · rw [hna]
      exact hnames m a hm ha

end links

section operations
variable {cm : CaseMapping} {p p' : PrivsState}

@[simp] theorem setSoper_operclasses (m : Option AccountRef) (t : Option SoperRef) :
    (p.setSoper m t).operclasses = p.operclasses := by
  cases m <;> rfl

@[simp] theorem setSoper_sopers (m : Option AccountRef) (t : Option SoperRef) :
    (p.setSoper m t).sopers = p.sopers := by
  cases m <;> rfl

@[simp] theorem setSoper_next (m : Option AccountRef) (t : Option SoperRef) :
    (p.setSoper m t).next = p.next := by
  cases m <;> rfl

theorem ClassesOk.of_eq (h : ClassesOk p) (hops : p'.operclasses = p.operclasses)
    (hs : ∀ s r', p'.sopers.find s = some r' → ∃ r, p.sopers.find s = some r ∧
      r.classname = r'.classname ∧ r.operclass = r'.operclass) : ClassesOk p' :=
  h.of_sopers hops fun s r' hr' => .inl ⟨s, hs s r' hr'⟩

theorem ClassesOk.soperDelete (h : ClassesOk p) (s : SoperRef) : ClassesOk (p.soperDelete s) := by
  rw [PrivsState.soperDelete]
  cases p.sopers.find s with
  | none => exact h
  | some r =>
    refine h.of_eq (setSoper_operclasses _ _) fun t r' hr' => ⟨r', ?_, rfl, rfl⟩
    rw [setSoper_sopers, Registry.find_erase] at hr'
    split_ifs at hr'
    exact hr'

theorem ClassesOk.soperInsert (h : ClassesOk p) (name classname : CString) (flags : Flags)
    (password : Option CString) (m : Option AccountRef) :
    ClassesOk (p.soperInsert name classname flags password m) := by
  refine h.of_sopers (setSoper_operclasses _ _) fun t r' hr' => ?_
  rw [PrivsState.soperInsert, setSoper_sopers, Registry.find_insertNew] at hr'
  cases hold : p.sopers.find t with
  | some r =>
    rw [hold, Option.some_or] at hr'
    obtain rfl := Option.some.inj hr'
    exact .inl ⟨t, r, hold, rfl, rfl⟩
  | none =>
    rw [hold, Option.none_or] at hr'
    by_cases ht : p.next = t
    · rw [if_pos ht] at hr'
      obtain rfl := Option.some.inj hr'
      exact .inr rfl
    · rw [if_neg ht] at hr'
      cases hr'

theorem ClassesOk.soperAdd (h : ClassesOk p) (name classname : CString) (flags : Flags)
    (password : Option CString) : ClassesOk (p.soperAdd cm name classname flags password) := by
  rw [PrivsState.soperAdd]
  split
  · exact h.soperInsert _ _ _ _ _
  · split
    · exact h
    · split_ifs
      · exact (h.soperDelete _).soperInsert _ _ _ _ _
      · exact h

theorem ClassesOk.myuserAdd (h : ClassesOk p) (name : CString) :
    ClassesOk (p.myuserAdd cm name) := by
  rw [PrivsState.myuserAdd]
  cases p.myuserFind cm name with
  | some mu => exact h
  | none =>
    dsimp only
    cases p.soperFindNamed cm name with
    | none => exact h.of_eq rfl fun s r hr => ⟨r, hr, rfl, rfl⟩
    | some s =>
      refine h.of_eq (setSoper_operclasses _ _) fun t r' hr' => ?_
      rw [setSoper_sopers, Registry.find_modify] at hr'
      split_ifs at hr'
      · obtain ⟨r, hr, rfl⟩ := Option.map_eq_some_iff.mp hr'
        exact ⟨r, hr, rfl, rfl⟩
      · exact ⟨r', hr', rfl, rfl⟩

theorem ClassesOk.myuserDelete (h : ClassesOk p) (mu : AccountRef) :
    ClassesOk (p.myuserDelete mu) := by
  have herase : ∀ q, ClassesOk q → ClassesOk { q with accounts := q.accounts.erase mu } :=
    fun q hq => hq.of_eq rfl fun s r hr => ⟨r, hr, rfl, rfl⟩
  rw [PrivsState.myuserDelete]
  cases p.accounts.find mu with
  | none => exact h
  | some a =>
    dsimp only
    split
    · exact herase _ (h.soperDelete _)
    · exact herase _ h

theorem Fresh.setSoper (h : Fresh p) (m : Option AccountRef) (t : Option SoperRef) :
    Fresh (p.setSoper m t) := by
  intro k hk
  rw [setSoper_next] at hk
  obtain ⟨hop, hs, hacc⟩ := h k hk
  cases m with
  | none => exact h k hk
  | some m => simp [PrivsState.setSoper, hop, hs, hacc]

theorem Fresh.operclassAdd (h : Fresh p) (name privs : CString) (flags : Flags) :
    Fresh (p.operclassAdd name privs flags) := by
  rw [PrivsState.operclassAdd]
  split <;> intro k hk
  · obtain ⟨hop, hs, hacc⟩ := h k hk
    simp [hop, hs, hacc]
  · obtain ⟨hop, hs, hacc⟩ := h k (by dsimp only at hk; omega)
    have hne : ¬p.next = k := by dsimp only at hk; omega
    simp [Registry.find_insertNew, Registry.find_update, hop, hs, hacc, hne]

theorem Fresh.operclassDelete (h : Fresh p) (oc : OperclassRef) : Fresh (p.operclassDelete oc) := by
  rw [PrivsState.operclassDelete]
  split
  · exact h
  · split_ifs
    · exact h
    · intro k hk
      obtain ⟨hop, hs, hacc⟩ := h k hk
      simp [Registry.find_update, hop, hs, hacc]

theorem Fresh.soperDelete (h : Fresh p) (s : SoperRef) : Fresh (p.soperDelete s) := by
  rw [PrivsState.soperDelete]
  split
  · exact h
  · apply Fresh.setSoper
    intro k hk
    obtain ⟨hop, hs, hacc⟩ := h k hk
    simp [hop, hs, hacc]

theorem Fresh.soperInsert (h : Fresh p) (name classname : CString) (flags : Flags)
    (password : Option CString) (m : Option AccountRef) :
    Fresh (p.soperInsert name classname flags password m) := by
  apply Fresh.setSoper
  intro k hk
  obtain ⟨hop, hs, hacc⟩ := h k (by dsimp only at hk; omega)
  have hne : ¬p.next = k := by dsimp only at hk; omega
  simp [Registry.find_insertNew, hop, hs, hacc, hne]

theorem Fresh.soperAdd (h : Fresh p) (name classname : CString) (flags : Flags)
    (password : Option CString) : Fresh (p.soperAdd cm name classname flags password) := by
  rw [PrivsState.soperAdd]
  split
  · exact h.soperInsert _ _ _ _ _
  · split
    · exact h
    · split_ifs
      · exact (h.soperDelete _).soperInsert _ _ _ _ _
      · exact h

theorem Fresh.myuserAdd (h : Fresh p) (name : CString) : Fresh (p.myuserAdd cm name) := by
  rw [PrivsState.myuserAdd]
  split
  · exact h
  · have hadded : Fresh
        { p with accounts := p.accounts.insertNew p.next ⟨name, none⟩, next := p.next + 1 } := by
      intro k hk
      obtain ⟨hop, hs, hacc⟩ := h k (by dsimp only at hk; omega)
      have hne : ¬p.next = k := by dsimp only at hk; omega
      simp [Registry.find_insertNew, hop, hs, hacc, hne]
    dsimp only
    split
    · exact hadded
    · apply Fresh.setSoper
      intro k hk
      obtain ⟨hop, hs, hacc⟩ := hadded k hk
      dsimp only at hop hs hacc
      simp [hop, hs, hacc]

theorem Fresh.myuserDelete (h : Fresh p) (mu : AccountRef) : Fresh (p.myuserDelete mu) := by
  have herase : ∀ q, Fresh q → Fresh { q with accounts := q.accounts.erase mu } := by
    intro q hq k hk
    obtain ⟨hop, hs, hacc⟩ := hq k hk
    simp [hop, hs, hacc]
  rw [PrivsState.myuserDelete]
  split
  · exact h
  · dsimp only
    split
    · exact herase _ (h.soperDelete _)
    · exact herase _ h

theorem Fresh.myuserRename (h : Fresh p) (mu : AccountRef) (name : CString) :
    Fresh (p.myuserRename mu name) := by
  intro k hk
  obtain ⟨hop, hs, hacc⟩ := h k hk
  simp [PrivsState.myuserRename, hop, hs, hacc]

theorem LinksOk.operclassAdd (h : LinksOk cm p) (name privs : CString) (flags : Flags) :
    LinksOk cm (p.operclassAdd name privs flags) := by
  rw [PrivsState.operclassAdd]
  split
  · exact h.of_link rfl fun s => rfl
  · refine h.of_link rfl fun s => ?_
    simp only [Registry.find_update]
    cases p.sopers.find s with
    | none => rfl
    | some r =>
      simp only [Option.bind_some, Option.map_some]
      split_ifs <;> rfl

theorem LinksOk.operclassDelete (h : LinksOk cm p) (oc : OperclassRef) :
    LinksOk cm (p.operclassDelete oc) := by
  rw [PrivsState.operclassDelete]
  split
  · exact h
  · split_ifs
    · exact h
    · refine h.of_link rfl fun s => ?_
      simp only [Registry.find_update]
      cases p.sopers.find s with
      | none => rfl
      | some r =>
        simp only [Option.bind_some, Option.map_some]
        split_ifs <;> rfl

theorem Ok.step (h : Ok cm p) (e : PrivsEvent) (he : Callers cm p e) :
    Ok cm (privsStep cm p e).1 := by
  obtain ⟨hclasses, hlinks, hfresh⟩ := h
  obtain ⟨hop, -, hacc⟩ := hfresh p.next (le_refl _)
  obtain ⟨hrename, hadd⟩ := he
  cases e with
  | operclassAdd name privs flags =>
    exact ⟨hclasses.operclassAdd hop _ _ _, hlinks.operclassAdd _ _ _, hfresh.operclassAdd _ _ _⟩
  | operclassDelete oc =>
    exact ⟨hclasses.operclassDelete oc, hlinks.operclassDelete oc, hfresh.operclassDelete oc⟩
  | soperAdd name classname flags password =>
    have hsopers := hlinks.soperAdd (fun k hk => (hfresh k hk).2.1) hadd classname password
    exact ⟨hclasses.soperAdd _ _ _ _, hsopers, hfresh.soperAdd _ _ _ _⟩
  | soperDelete s => exact ⟨hclasses.soperDelete s, hlinks.soperDelete s, hfresh.soperDelete s⟩
  | myuserAdd name =>
    exact ⟨hclasses.myuserAdd name, hlinks.myuserAdd hacc name, hfresh.myuserAdd name⟩
  | myuserDelete mu =>
    exact ⟨hclasses.myuserDelete mu, hlinks.myuserDelete mu, hfresh.myuserDelete mu⟩
  | myuserRename mu name =>
    have hsame : ClassesOk (p.myuserRename mu name) :=
      hclasses.of_eq rfl fun s r hr => ⟨r, hr, rfl, rfl⟩
    exact ⟨hsame, hlinks.myuserRename hrename.1 hrename.2, hfresh.myuserRename mu name⟩

end operations

theorem ok_initial (cm : CaseMapping) : Ok cm .initial := by
  have hempty : ClassesOk ⟨.empty, .empty, .empty, 0⟩ := ⟨nofun, nofun⟩
  have hlinks : LinksOk cm ⟨.empty, .empty, .empty, 0⟩ := ⟨Mutual.none_none, nofun, nofun⟩
  have hfresh : Fresh ⟨.empty, .empty, .empty, 0⟩ := fun k hk => ⟨rfl, rfl, rfl⟩
  have hok : Ok cm ⟨.empty, .empty, .empty, 0⟩ := ⟨hempty, hlinks, hfresh⟩
  have hadd : ∀ p name privs flags, Ok cm p → Ok cm (p.operclassAdd name privs flags) :=
    fun p name privs flags h => h.step (.operclassAdd name privs flags) ⟨trivial, trivial⟩
  exact hadd _ _ _ _ (hadd _ _ _ _ (hadd _ _ _ _ hok))

theorem Ok.linked {cm : CaseMapping} {p : PrivsState} (h : Ok cm p) : Linked p :=
  ⟨fun s mu => (h.links.pairs mu s).symm, fun _ _ _ => h.links.pairs.unique, h.classes.given⟩

/-- In every run in which only operators of the configuration file have no account and renames are
to free names, records, accounts and classes are linked as they should be. -/
theorem operators_linked (cm : CaseMapping) (es : List PrivsEvent)
    (h : Run.Guarded (privsStep cm) (Callers cm) .initial es) :
    Linked (Run.run (privsStep cm) .initial es).1 := by
  have hok : Ok cm (Run.run (privsStep cm) .initial es).1 :=
    Run.run_state_invariant (I := Ok cm) (fun _ e hp he => hp.step e he) (ok_initial cm) h
  exact hok.linked

/-- An operator of the configuration file gets an account, and another account the name. -/
theorem operators_linked_conf :
    let es := [.soperAdd "bob".toList "sra".toList soperConf none, .myuserAdd "Bob".toList,
      .myuserAdd "alice".toList, .soperAdd "alice".toList "sra".toList 0 none,
      .operclassAdd "sra".toList [] 0, .myuserDelete 4, .myuserRename 5 "bob".toList]
    Linked (Run.run (privsStep .rfc1459) .initial es).1 :=
  operators_linked .rfc1459 _ (by decide +kernel)

/-- An operator that is added for a name, not from the configuration file: the account with the
name is renamed and the name registered again. -/
theorem operator_of_two_accounts :
    ¬∀ (cm : CaseMapping) (es : List PrivsEvent),
      Run.Guarded (privsStep cm) (Renames cm) .initial es →
        Linked (Run.run (privsStep cm) .initial es).1 := by
  intro h
  have hlinked := h .rfc1459
    [.soperAdd "bob".toList "ircop".toList 0 none, .myuserAdd "bob".toList,
      .myuserRename 4 "alice".toList, .myuserAdd "bob".toList] (by decide +kernel)
  have hboth := hlinked.one 3 4 5 (by decide +kernel) (by decide +kernel)
  cases hboth

end ChatServices.Privs
