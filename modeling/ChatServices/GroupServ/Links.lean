import ChatServices.GroupServ.FounderOrigin
import ChatServices.Lib.Run

/-! The two lists of an access entry. What the operations on entries keep, as long as nobody frees an
entry that is still listed. -/
namespace ChatServices.GroupServ
open ChatServices.Lib ChatServices.Lib.Mask ChatServices.Text

structure LinksOk (s : Groups) : Prop where
  own : ∀ mg, s.OwnEntries mg
  /-- a membership list has the entries of its member, and those are in the lists of their groups -/
  listed : ∀ mt a, a ∈ (s.membership mt).items ↔ (s.heap a).mt = mt ∧ a ∈ s.acs (s.heap a).mg
  single : ∀ mg, ∀ a ∈ s.acs mg, ∀ b ∈ s.acs mg, (s.heap a).mt = (s.heap b).mt → a = b
  live : ∀ mg, ∀ a ∈ s.acs mg, s.live (s.heap a).mt = true
  unfreed : ∀ mg, ∀ a ∈ s.acs mg, a ∉ s.freed
  freed_lt : ∀ a ∈ s.freed, a < s.next
  groups_lt : ∀ mg, (s.groups.find mg).isSome → mg < s.next
  accounts_lt : ∀ mu, (s.accounts.find mu).isSome → mu < s.next
  unread : s.misuse = false

structure Links (s s' : Groups) : Prop where
  ok : LinksOk s'
  freed : ∀ a ∈ s.freed, a ∈ s'.freed
  kept : ∀ mg, ∀ a ∈ s.acs mg, a ∈ s'.acs mg ∨ a ∈ s'.freed

def Unjoined (s : Groups) (mg : GroupRef) : Prop :=
  ∀ mg', ∀ a ∈ s.acs mg', (s.heap a).mt = .group mg → mg' = mg

section operations
variable {s s' s'' : Groups} {mg mg' : GroupRef} {mt : Entity} {a : AcsRef} {flags : Flags}

theorem Links.refl (h : LinksOk s) : Links s s := ⟨h, fun _ => id, fun _ _ => .inl⟩

theorem Links.trans (h : Links s s') (h' : Links s' s'') : Links s s'' := by
  refine ⟨h'.ok, fun a ha => h'.freed a (h.freed a ha), fun mg a ha => ?_⟩
  obtain hmid | hmid := h.kept mg a ha
  · exact h'.kept mg a hmid
  · exact .inr (h'.freed a hmid)

theorem LinksOk.of_eq (h : LinksOk s) (hacs : s'.acs = s.acs) (hheap : s'.heap = s.heap)
    (hmembership : s'.membership = s.membership) (hfreed : s'.freed = s.freed)
    (hnext : s.next ≤ s'.next) (hmisuse : s'.misuse = s.misuse)
    (hgroups : ∀ mg, (s.groups.find mg).isSome → (s'.groups.find mg).isSome)
    (hgroups' : ∀ mg, (s'.groups.find mg).isSome → (s.groups.find mg).isSome ∨ mg < s'.next)
    (haccounts : ∀ mu, (s.accounts.find mu).isSome → (s'.accounts.find mu).isSome)
    (haccounts' : ∀ mu, (s'.accounts.find mu).isSome → (s.accounts.find mu).isSome ∨ mu < s'.next)
    (hexts : ∀ e, (s.exts.find e).isSome → (s'.exts.find e).isSome) : Links s s' := by
  refine ⟨⟨fun mg => ?_, ?_, ?_, fun mg a ha => ?_, ?_, fun a ha => ?_, fun mg hmg => ?_,
    fun mu hmu => ?_, hmisuse.trans h.unread⟩, ?_, ?_⟩
  · rw [Groups.OwnEntries, hacs, hheap]
    exact fun a ha => ⟨(h.own mg a ha).1, Nat.lt_of_lt_of_le (h.own mg a ha).2 hnext⟩
  · rw [hmembership, hacs, hheap]
    exact h.listed
  · rw [hacs, hheap]
    exact h.single
  · rw [hacs] at ha
    have hlive := h.live mg a ha
    rw [hheap]
    cases hmt : (s.heap a).mt with
    | user mu =>
      rw [hmt] at hlive
      exact haccounts mu hlive
    | group mg' =>
      rw [hmt] at hlive
      exact hgroups mg' hlive
    | ext e =>
      rw [hmt] at hlive
      exact hexts e hlive
  · rw [hacs, hfreed]
    exact h.unfreed
  · rw [hfreed] at ha
    exact Nat.lt_of_lt_of_le (h.freed_lt a ha) hnext
  · obtain hold | hlt := hgroups' mg hmg
    · exact Nat.lt_of_lt_of_le (h.groups_lt mg hold) hnext
    · exact hlt
  · obtain hold | hlt := haccounts' mu hmu
    · exact Nat.lt_of_lt_of_le (h.accounts_lt mu hold) hnext
    · exact hlt
  · rw [hfreed]
    exact fun _ => id
  · rw [hacs]
    exact fun _ _ => .inl

theorem LinksOk.read (h : LinksOk s) {as : List AcsRef} (has : ∀ a ∈ as, a ∉ s.freed) :
    Links s (s.read as) := by
  refine h.of_eq rfl rfl rfl rfl (Nat.le_refl _) ?_ (fun _ => id) (fun _ => .inl) (fun _ => id)
    (fun _ => .inl) fun _ => id
  have hany : as.any (· ∈ s.freed) = false := by
    rw [List.any_eq_false]
    intro a ha
    simpa using has a ha
  rw [Groups.read]
  dsimp only
  rw [hany, Bool.or_false]

theorem LinksOk.readAcs (h : LinksOk s) (mg : GroupRef) : Links s (s.read (s.acs mg)) :=
  h.read (h.unfreed mg)

theorem LinksOk.look (h : LinksOk s) : Links s s.look := by
  refine h.read fun a ha => ?_
  obtain ⟨e, he, hmem⟩ := List.mem_flatMap.mp ha
  have hfind : s.groups.find e.1 = some e.2 := (Registry.find_eq_some_iff _ _ _).mpr he
  exact h.unfreed e.1 a (Groups.mem_acs_iff.mpr ⟨e.2, hfind, hmem⟩)

theorem isSome_updateGroup {f : Group → Group} :
    ((s.updateGroup mg f).groups.find mg').isSome = (s.groups.find mg').isSome := by
  rw [Groups.updateGroup]
  dsimp only
  rw [Registry.find_modify]
  split_ifs
  · rw [Option.isSome_map]
  · rfl

theorem LinksOk.updateGroup (h : LinksOk s) (mg : GroupRef) {f : Group → Group}
    (hf : ∀ g, (f g).acs = g.acs) : Links s (s.updateGroup mg f) := by
  refine h.of_eq (Groups.acs_updateGroup hf) rfl rfl rfl (Nat.le_refl _) rfl (fun mg' hmg' => ?_)
    (fun mg' hmg' => .inl ?_) (fun _ => id) (fun _ => .inl) fun _ => id
  · rw [isSome_updateGroup]
    exact hmg'
  · rw [isSome_updateGroup] at hmg'
    exact hmg'

theorem LinksOk.modifyAccount (h : LinksOk s) (mu : AccountRef) (f : Account → Account) :
    Links s { s with accounts := s.accounts.modify mu f } := by
  have hsome : ∀ mu', ((s.accounts.modify mu f).find mu').isSome = (s.accounts.find mu').isSome := by
    intro mu'
    rw [Registry.find_modify]
    split_ifs
    · rw [Option.isSome_map]
    · rfl
  refine h.of_eq rfl rfl rfl rfl (Nat.le_refl _) rfl (fun _ => id) (fun _ => .inl)
    (fun mu' hmu' => ?_) (fun mu' hmu' => .inl ?_) fun _ => id
  · rw [hsome]
    exact hmu'
  · rw [hsome] at hmu'
    exact hmu'

theorem LinksOk.setFlags (h : LinksOk s) (a : AcsRef) (flags : Flags) :
    Links s (s.setFlags a flags) := by
  have hmt : ∀ b, ((s.setFlags a flags).heap b).mt = (s.heap b).mt := fun _ =>
    Groups.heap_setFlags_mt.1
  have hmg : ∀ b, ((s.setFlags a flags).heap b).mg = (s.heap b).mg := fun _ =>
    Groups.heap_setFlags_mt.2
  refine ⟨⟨fun mg => (h.own mg).setFlags, fun mt b => ?_, fun mg b hb c hc heq => ?_,
    fun mg b hb => ?_, h.unfreed, h.freed_lt, h.groups_lt, h.accounts_lt, h.unread⟩,
    fun _ => id, fun _ _ => .inl⟩
  · rw [hmt, hmg]
    exact h.listed mt b
  · rw [hmt, hmt] at heq
    exact h.single mg b hb c hc heq
  · rw [hmt]
    exact h.live mg b hb

theorem LinksOk.groupacsModifySimple (h : LinksOk s) (a : AcsRef) (add rem : Flags) :
    Links s (s.groupacsModifySimple a add rem) := by
  rw [Groups.groupacsModifySimple]
  split_ifs
  · exact .refl h
  · exact h.setFlags a _
  · exact .refl h

theorem LinksOk.groupacsAdd (h : LinksOk s) (hgroup : (s.groups.find mg).isSome)
    (hmember : s.live mt = true) (hnew : ∀ a ∈ s.acs mg, (s.heap a).mt ≠ mt) (flags : Flags) :
    Links s (s.groupacsAdd mg mt flags) := by
  have hself : (s.groupacsAdd mg mt flags).heap s.next = ⟨mg, mt, flags⟩ := Groups.heap_add_self
  have hold : ∀ mg' b, b ∈ s.acs mg' → (s.groupacsAdd mg mt flags).heap b = s.heap b :=
    fun mg' b hb => (h.own mg').heap_add hb
  have hgroups : ∀ mg', ((s.groupacsAdd mg mt flags).groups.find mg').isSome =
      (s.groups.find mg').isSome := fun mg' => isSome_updateGroup
  have hlive : ∀ e, (s.groupacsAdd mg mt flags).live e = s.live e := by
    intro e
    cases e with
    | group mg' => exact hgroups mg'
    | _ => rfl
  have hnext : (s.groupacsAdd mg mt flags).next = s.next + 1 := rfl
  refine ⟨⟨fun mg' => (h.own mg').groupacsAdd, fun mt' b => ?_, fun mg' b hb c hc heq => ?_,
    fun mg' b hb => ?_, fun mg' b hb hfreed => ?_, fun b hb => Nat.lt_succ_of_lt (h.freed_lt b hb),
    fun mg' hmg' => ?_, fun mu hmu => Nat.lt_succ_of_lt (h.accounts_lt mu hmu), h.unread⟩,
    fun _ => id, fun mg' b hb => .inl (Groups.mem_acs_groupacsAdd.mpr (.inl hb))⟩
  · have hmembership : (s.groupacsAdd mg mt flags).membership mt' =
        if mt' = mt then (s.membership mt).add s.next else s.membership mt' :=
      Function.update_apply _ _ _ _
    rw [hmembership, Groups.mem_acs_groupacsAdd]
    by_cases hb : b = s.next
    · have hunlisted : s.next ∉ (s.membership mt').items := fun hmem =>
        Nat.lt_irrefl _ (h.own _ _ ((h.listed mt' s.next).mp hmem).2).2
      subst hb
      rw [hself]
      split_ifs with hmt
      · simp [hmt, hgroup]
      · simp [hunlisted, Ne.symm hmt]
    · have hheap : (s.groupacsAdd mg mt flags).heap b = s.heap b := by
        rw [Groups.heap_groupacsAdd, Function.update_of_ne hb]
      rw [hheap]
      have hlisted := h.listed mt' b
      split_ifs with hmt
      · rw [NodeList.mem_add, ← hmt, hlisted]
        simp [hb]
      · rw [hlisted]
        simp [hb]
  · obtain hb | ⟨hmg', -, rfl⟩ := Groups.mem_acs_groupacsAdd.mp hb <;>
      obtain hc | ⟨hmg'', -, rfl⟩ := Groups.mem_acs_groupacsAdd.mp hc
    · rw [hold mg' b hb, hold mg' c hc] at heq
      exact h.single mg' b hb c hc heq
    · rw [hold mg' b hb, hself] at heq
      exact absurd heq (hnew b (hmg'' ▸ hb))
    · rw [hold mg' c hc, hself] at heq
      exact absurd heq.symm (hnew c (hmg' ▸ hc))
    · rfl
  · rw [hlive]
    obtain hb | ⟨-, -, rfl⟩ := Groups.mem_acs_groupacsAdd.mp hb
    · rw [hold mg' b hb]
      exact h.live mg' b hb
    · rw [hself]
      exact hmember
  · obtain hb | ⟨-, -, rfl⟩ := Groups.mem_acs_groupacsAdd.mp hb
    · exact h.unfreed mg' b hb hfreed
    · exact Nat.lt_irrefl _ (h.freed_lt _ hfreed)
  · rw [hgroups] at hmg'
    exact Nat.lt_succ_of_lt (h.groups_lt mg' hmg')

theorem LinksOk.unlink (h : LinksOk s) (ha : a ∈ s.acs mg) :
    Links s (s.unlink mg (s.heap a).mt a) := by
  have hmg : (s.heap a).mg = mg := (h.own mg a ha).1
  have hgroups : ∀ mg', ((s.unlink mg (s.heap a).mt a).groups.find mg').isSome =
      (s.groups.find mg').isSome := fun mg' => isSome_updateGroup
  have hlive : ∀ e, (s.unlink mg (s.heap a).mt a).live e = s.live e := by
    intro e
    cases e with
    | group mg' => exact hgroups mg'
    | _ => rfl
  -- whatever is still in a list is another entry
  have hother : ∀ mg' b, b ∈ (s.unlink mg (s.heap a).mt a).acs mg' → b ∈ s.acs mg' ∧ b ≠ a := by
    intro mg' b hb
    obtain ⟨hmem, hnot⟩ := Groups.mem_acs_unlink.mp hb
    refine ⟨hmem, fun heq => hnot ⟨?_, heq⟩⟩
    rw [heq] at hmem
    exact (h.own mg' a hmem).1.symm.trans hmg
  refine ⟨⟨fun mg' => (h.own mg').unlink, fun mt' b => ?_,
    fun mg' b hb c hc => h.single mg' b (hother mg' b hb).1 c (hother mg' c hc).1,
    fun mg' b hb => ?_, fun mg' b hb hfreed => ?_, fun b hb => ?_, fun mg' hmg' => ?_,
    h.accounts_lt, h.unread⟩, fun b hb => List.mem_cons_of_mem a hb, fun mg' b hb => ?_⟩
  · have hmembership : (s.unlink mg (s.heap a).mt a).membership mt' =
        if mt' = (s.heap a).mt then (s.membership (s.heap a).mt).remove a else s.membership mt' :=
      Function.update_apply _ _ _ _
    have hheap : (s.unlink mg (s.heap a).mt a).heap = s.heap := rfl
    rw [hmembership, hheap, Groups.mem_acs_unlink]
    have hlisted := h.listed mt' b
    split_ifs with hmt
    · rw [NodeList.mem_remove, ← hmt, hlisted]
      constructor
      · exact fun ⟨hne, hb⟩ => ⟨hb.1, hb.2, fun hgone => hne hgone.2⟩
      · refine fun ⟨hb, hmem, hnot⟩ => ⟨fun heq => hnot ⟨?_, heq⟩, hb, hmem⟩
        rw [heq, hmg]
    · rw [hlisted]
      constructor
      · refine fun hb => ⟨hb.1, hb.2, fun hgone => hmt ?_⟩
        rw [← hb.1, hgone.2]
      · exact fun hb => ⟨hb.1, hb.2.1⟩
  · rw [hlive]
    exact h.live mg' b (hother mg' b hb).1
  · obtain ⟨hmem, hne⟩ := hother mg' b hb
    obtain rfl | hfreed := List.mem_cons.mp hfreed
    · exact hne rfl
    · exact h.unfreed mg' b hmem hfreed
  · obtain rfl | hfreed := List.mem_cons.mp hb
    · exact (h.own mg b ha).2
    · exact h.freed_lt b hfreed
  · rw [hgroups] at hmg'
    exact h.groups_lt mg' hmg'
  · by_cases hgone : mg' = mg ∧ b = a
    · rw [hgone.2]
      exact .inr List.mem_cons_self
    · exact .inl (Groups.mem_acs_unlink.mpr ⟨hb, hgone⟩)

theorem LinksOk.groupacsFind (h : LinksOk s) (ha : a ∈ s.acs mg) :
    s.groupacsFind mg (s.heap a).mt 0#32 false = some a := by
  rw [Groups.groupacsFind_entry]
  cases hfound : (s.acs mg).find? fun b => (s.heap b).mt = (s.heap a).mt && (s.heap b).mg = mg with
  | none =>
    have hno := List.find?_eq_none.mp hfound a ha
    simp [(h.own mg a ha).1] at hno
  | some b =>
    have hgoal := List.find?_some hfound
    simp only [Bool.and_eq_true, decide_eq_true_eq] at hgoal
    rw [h.single mg b (List.mem_of_find?_eq_some hfound) a ha hgoal.1]

theorem LinksOk.groupacsDelete (h : LinksOk s) (ha : a ∈ s.acs mg) :
    s.groupacsDelete mg (s.heap a).mt = s.unlink mg (s.heap a).mt a :=
  Groups.groupacsDelete_of_find (h.groupacsFind ha)

/-! ### New groups and accounts -/

theorem LinksOk.groups_next (h : LinksOk s) : s.groups.find s.next = none := by
  cases hfind : s.groups.find s.next with
  | none => rfl
  | some g => exact absurd (h.groups_lt s.next (by rw [hfind]; rfl)) (Nat.lt_irrefl _)

theorem LinksOk.find_mygroupAdd (h : LinksOk s) {name : CString} :
    ((s.mygroupAdd name).groups.find s.next).isSome = true := by
  rw [Groups.mygroupAdd]
  dsimp only
  rw [Registry.find_insertNew, h.groups_next, if_pos rfl]
  rfl

theorem LinksOk.acs_mygroupAdd (h : LinksOk s) {name : CString} :
    (s.mygroupAdd name).acs s.next = [] := by
  rw [Groups.acs, Groups.mygroupAdd]
  dsimp only
  rw [Registry.find_insertNew, h.groups_next, if_pos rfl]
  rfl

theorem LinksOk.mygroupAdd (h : LinksOk s) (name : CString) : Links s (s.mygroupAdd name) := by
  have hfind : ∀ mg, mg ≠ s.next → (s.mygroupAdd name).groups.find mg = s.groups.find mg := by
    intro mg hmg
    rw [Groups.mygroupAdd]
    dsimp only
    rw [Registry.find_insertNew, if_neg (Ne.symm hmg), Option.or_none]
  refine h.of_eq ?_ rfl rfl rfl (Nat.le_succ _) rfl (fun mg hmg => ?_) (fun mg hmg => ?_)
    (fun _ => id) (fun _ => .inl) fun _ => id
  · funext mg
    by_cases hmg : mg = s.next
    · rw [hmg, h.acs_mygroupAdd, Groups.acs, h.groups_next]
      rfl
    · rw [Groups.acs, Groups.acs, hfind mg hmg]
  · rw [hfind mg (Nat.ne_of_lt (h.groups_lt mg hmg))]
    exact hmg
  · by_cases heq : mg = s.next
    · right
      rw [heq]
      exact Nat.lt_succ_self _
    · left
      rw [hfind mg heq] at hmg
      exact hmg

theorem LinksOk.accountAdd (h : LinksOk s) (a : Account) :
    Links s { s with accounts := s.accounts.insertNew s.next a, next := s.next + 1 } := by
  refine h.of_eq rfl rfl rfl rfl (Nat.le_succ _) rfl (fun _ => id) (fun _ => .inl)
    (fun mu hmu => ?_) (fun mu hmu => ?_) fun _ => id
  · dsimp only
    rw [Registry.find_insertNew, Option.isSome_or, hmu]
    rfl
  · by_cases heq : mu = s.next
    · right
      rw [heq]
      exact Nat.lt_succ_self _
    · left
      dsimp only at hmu
      rw [Registry.find_insertNew, if_neg (Ne.symm heq), Option.or_none] at hmu
      exact hmu

theorem LinksOk.extAdd (h : LinksOk s) (name : CString) :
    Links s { s with exts := s.exts.insertNew s.next name, next := s.next + 1 } := by
  refine h.of_eq rfl rfl rfl rfl (Nat.le_succ _) rfl (fun _ => id) (fun _ => .inl) (fun _ => id)
    (fun _ => .inl) fun e he => ?_
  dsimp only
  rw [Registry.find_insertNew, Option.isSome_or, he]
  rfl

/-! ### Dropping groups, accounts and virtual entities -/

theorem LinksOk.extFree (h : LinksOk s) {e : ExtRef}
    (hunused : ∀ mg, ∀ a ∈ s.acs mg, (s.heap a).mt ≠ .ext e) :
    Links s { s with exts := s.exts.erase e } := by
  refine ⟨⟨h.own, h.listed, h.single, fun mg a ha => ?_, h.unfreed, h.freed_lt, h.groups_lt,
    h.accounts_lt, h.unread⟩, fun _ => id, fun _ _ => .inl⟩
  have hlive := h.live mg a ha
  dsimp only
  cases hmt : (s.heap a).mt with
  | ext e' =>
    rw [hmt] at hlive
    have hne : e' ≠ e := fun heq => hunused mg a ha (heq ▸ hmt)
    have hfind : ((s.exts.erase e).find e').isSome = true := by
      rw [Registry.find_erase, if_neg hne]
      exact hlive
    exact hfind
  | _ =>
    rw [hmt] at hlive
    exact hlive

theorem acs_mygroupDelete (s : Groups) (mg : GroupRef) :
    (∀ mg', (s.mygroupDelete mg).acs mg' = if mg' = mg then [] else s.acs mg') ∧
      (s.mygroupDelete mg).heap = s.heap := by
  have hheap : ∀ (as : List AcsRef) (t : Groups),
      (as.foldl (fun s a => (s.read [a]).unlink mg (s.heap a).mt a) t).heap = t.heap := by
    intro as
    induction as with
    | nil => exact fun _ => rfl
    | cons a as ih => exact fun t => ih _
  refine ⟨fun mg' => ?_, hheap _ _⟩
  split_ifs with hmg
  · rw [hmg, Groups.acs, Groups.mygroupDelete]
    dsimp only
    rw [Registry.find_erase, if_pos rfl]
    rfl
  · rw [Groups.acs, (mygroupDelete_other hmg).1, Groups.acs]

theorem LinksOk.unlinkAll {as : List AcsRef} (h : LinksOk s) (hnodup : as.Nodup)
    (has : ∀ a ∈ as, a ∈ s.acs mg) :
    let s' := as.foldl (fun s a => (s.read [a]).unlink mg (s.heap a).mt a) s
    Links s s' ∧ (∀ mg' b, b ∈ s'.acs mg' ↔ b ∈ s.acs mg' ∧ ¬(mg' = mg ∧ b ∈ as)) ∧
      s'.heap = s.heap ∧ s'.accounts = s.accounts := by
  induction as generalizing s with
  | nil => exact ⟨.refl h, by simp, rfl, rfl⟩
  | cons a as ih =>
    obtain ⟨hnot, hnodup⟩ := List.nodup_cons.mp hnodup
    have ha := has a List.mem_cons_self
    have hread : Links s (s.read [a]) := h.read fun b hb => by
      rw [List.mem_singleton.mp hb]
      exact h.unfreed mg a ha
    have hunlink : Links (s.read [a]) ((s.read [a]).unlink mg (s.heap a).mt a) :=
      hread.ok.unlink ha
    have hmem : ∀ mg' b, b ∈ ((s.read [a]).unlink mg (s.heap a).mt a).acs mg' ↔
        b ∈ s.acs mg' ∧ ¬(mg' = mg ∧ b = a) := fun mg' b => Groups.mem_acs_unlink
    obtain ⟨hlinks, hacs, hheap, haccounts⟩ := ih hunlink.ok hnodup fun b hb =>
      (hmem mg b).mpr ⟨has b (List.mem_cons_of_mem a hb), fun heq => hnot (heq.2 ▸ hb)⟩
    refine ⟨(hread.trans hunlink).trans hlinks, fun mg' b => ?_, hheap, haccounts⟩
    rw [List.foldl_cons, hacs, hmem, List.mem_cons]
    tauto

theorem LinksOk.mygroupDelete (h : LinksOk s) (hunjoined : Unjoined s mg) :
    Links s (s.mygroupDelete mg) := by
  obtain ⟨hlinks, hacs, hheap, -⟩ := h.unlinkAll (acs_nodup s mg) fun _ => id
  rw [Groups.mygroupDelete]
  refine hlinks.trans ?_
  revert hlinks hacs hheap
  generalize (s.acs mg).foldl (fun s a => (s.read [a]).unlink mg (s.heap a).mt a) s = t
  intro hlinks hacs hheap
  have hempty : t.acs mg = [] := by
    rw [List.eq_nil_iff_forall_not_mem]
    exact fun b hb => ((hacs mg b).mp hb).2 ⟨rfl, ((hacs mg b).mp hb).1⟩
  have hsame : ({ t with groups := t.groups.erase mg } : Groups).acs = t.acs := by
    funext mg'
    by_cases hmg : mg' = mg
    · rw [hmg, hempty, Groups.acs]
      dsimp only
      rw [Registry.find_erase, if_pos rfl]
      rfl
    · rw [Groups.acs, Groups.acs]
      dsimp only
      rw [Registry.find_erase, if_neg hmg]
  have ht := hlinks.ok
  refine ⟨⟨fun mg' => ?_, fun mt b => ?_, ?_, fun mg' b hb => ?_, ?_, ht.freed_lt,
    fun mg' hmg' => ht.groups_lt mg' ?_, ht.accounts_lt, ht.unread⟩, fun _ => id, ?_⟩
  · rw [Groups.OwnEntries, hsame]
    exact ht.own mg'
  · rw [hsame]
    exact ht.listed mt b
  · rw [hsame]
    exact ht.single
  · rw [hsame] at hb
    have hlive := ht.live mg' b hb
    cases hmt : (t.heap b).mt with
    | group mg'' =>
      rw [hmt] at hlive
      have hne : mg'' ≠ mg := by
        rintro rfl
        rw [hheap] at hmt
        have hself := hunjoined mg' b ((hacs mg' b).mp hb).1 hmt
        rw [hself, hempty] at hb
        cases hb
      have hfind : ((t.groups.erase mg).find mg'').isSome = true := by
        rw [Registry.find_erase, if_neg hne]
        exact hlive
      exact hfind
    | _ =>
      rw [hmt] at hlive
      exact hlive
  · rw [hsame]
    exact ht.unfreed
  · rw [Registry.find_erase] at hmg'
    split_ifs at hmg' with hmg
    · cases hmg'
    · exact hmg'
  · rw [hsame]
    exact fun _ _ => .inl

theorem LinksOk.myuserDelete (h : LinksOk s) (mu : AccountRef) : Links s (s.myuserDelete mu) := by
  have hloop : ∀ (as : List AcsRef) (t : Groups), LinksOk t → as.Nodup →
      (∀ a ∈ as, a ∈ (t.membership (.user mu)).items) →
      let t' := as.foldl (fun s a => (s.read [a]).groupacsDelete (s.heap a).mg (s.heap a).mt) t
      Links t t' ∧ ∀ b, b ∈ (t'.membership (.user mu)).items ↔
        b ∈ (t.membership (.user mu)).items ∧ b ∉ as := by
    intro as
    induction as with
    | nil => exact fun t ht _ _ => ⟨.refl ht, by simp⟩
    | cons a as ih =>
      intro t ht hnodup has
      obtain ⟨hnot, hnodup⟩ := List.nodup_cons.mp hnodup
      obtain ⟨hmt, ha⟩ := (ht.listed _ a).mp (has a List.mem_cons_self)
      have hread : Links t (t.read [a]) := ht.read fun b hb => by
        rw [List.mem_singleton.mp hb]
        exact ht.unfreed _ a ha
      have hdelete : (t.read [a]).groupacsDelete (t.heap a).mg (t.heap a).mt =
          (t.read [a]).unlink (t.heap a).mg (t.heap a).mt a := hread.ok.groupacsDelete ha
      have hunlink : Links (t.read [a]) ((t.read [a]).unlink (t.heap a).mg (t.heap a).mt a) :=
        hread.ok.unlink ha
      have hmem : ∀ b, b ∈ (((t.read [a]).unlink (t.heap a).mg (t.heap a).mt a).membership
          (.user mu)).items ↔ b ∈ (t.membership (.user mu)).items ∧ b ≠ a := by
        intro b
        have hmembership : ((t.read [a]).unlink (t.heap a).mg (t.heap a).mt a).membership
            (.user mu) = (t.membership (.user mu)).remove a := by
          rw [← hmt]
          exact Function.update_self _ _ _
        rw [hmembership, NodeList.mem_remove, and_comm]
      obtain ⟨hlinks, hrest⟩ := ih _ hunlink.ok hnodup fun b hb =>
        (hmem b).mpr ⟨has b (List.mem_cons_of_mem a hb), fun heq => hnot (heq ▸ hb)⟩
      rw [List.foldl_cons, hdelete]
      refine ⟨(hread.trans hunlink).trans hlinks, fun b => ?_⟩
      rw [hrest, hmem, List.mem_cons]
      tauto
  obtain ⟨hlinks, hgone⟩ := hloop _ s h (s.membership (.user mu)).nodup fun _ => id
  rw [Groups.myuserDelete]
  refine hlinks.trans ?_
  revert hlinks hgone
  generalize (s.membership (.user mu)).items.foldl
    (fun s a => (s.read [a]).groupacsDelete (s.heap a).mg (s.heap a).mt) s = t
  intro hlinks hgone
  have ht := hlinks.ok
  have hnone : ∀ b, b ∉ (t.membership (.user mu)).items := fun b hb =>
    ((hgone b).mp hb).2 ((hgone b).mp hb).1
  refine ⟨⟨ht.own, fun mt b => ?_, ht.single, fun mg' b hb => ?_, ht.unfreed, ht.freed_lt,
    ht.groups_lt, fun mu' hmu' => ht.accounts_lt mu' ?_, ht.unread⟩, fun _ => id, fun _ _ => .inl⟩
  · dsimp only
    rw [Function.update_apply]
    split_ifs with hmt
    · subst hmt
      constructor
      · exact fun hb => absurd hb List.not_mem_nil
      · exact fun hb => absurd ((ht.listed _ b).mpr hb) (hnone b)
    · exact ht.listed mt b
  · have hlive := ht.live mg' b hb
    cases hmt : (t.heap b).mt with
    | user mu' =>
      rw [hmt] at hlive
      have hne : mu' ≠ mu := by
        rintro rfl
        refine hnone b ((ht.listed _ b).mpr ⟨hmt, ?_⟩)
        rw [(ht.own mg' b hb).1]
        exact hb
      have hfind : ((t.accounts.erase mu).find mu').isSome = true := by
        rw [Registry.find_erase, if_neg hne]
        exact hlive
      exact hfind
    | _ =>
      rw [hmt] at hlive
      exact hlive
  · rw [Registry.find_erase] at hmu'
    split_ifs at hmu' with hmu
    · cases hmu'
    · exact hmu'

end operations
end ChatServices.GroupServ
