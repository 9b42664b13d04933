import ChatServices.GroupServ.GroupCommands

/-! What lookups find, and what the operations on access entries change. -/
namespace ChatServices.GroupServ
open ChatServices.Lib ChatServices.Lib.Mask ChatServices.Text
namespace Groups
variable {s : Groups} {mg mg' : GroupRef} {mt mt' : Entity} {a b : AcsRef} {flags : Flags}

/-! ### Lookups -/

theorem groupacsFind_literal : s.groupacsFind mg mt flags false =
    (s.acs mg).find? fun a => (s.heap a).mt = mt && (s.heap a).mg = mg &&
      (flags = 0#32 || test (s.heap a).flags flags) :=
  SearchGraph.search_flat (fun _ => rfl) _ _

theorem groupacsFind_entry : s.groupacsFind mg mt 0#32 false =
    (s.acs mg).find? fun a => (s.heap a).mt = mt && (s.heap a).mg = mg := by
  rw [groupacsFind_literal]
  simp

theorem mem_of_groupacsFind (h : s.groupacsFind mg mt flags false = some a) :
    a ∈ s.acs mg ∧ (s.heap a).mt = mt ∧ (s.heap a).mg = mg := by
  rw [groupacsFind_literal] at h
  have hgoal := List.find?_some h
  simp only [Bool.and_eq_true, decide_eq_true_eq] at hgoal
  exact ⟨List.mem_of_find?_eq_some h, hgoal.1.1, hgoal.1.2⟩

/-! ### Reading -/

@[simp] theorem read_groups (as : List AcsRef) : (s.read as).groups = s.groups := rfl
@[simp] theorem read_accounts (as : List AcsRef) : (s.read as).accounts = s.accounts := rfl
@[simp] theorem read_heap (as : List AcsRef) : (s.read as).heap = s.heap := rfl
@[simp] theorem read_freed (as : List AcsRef) : (s.read as).freed = s.freed := rfl
@[simp] theorem read_membership (as : List AcsRef) : (s.read as).membership = s.membership := rfl
@[simp] theorem read_next (as : List AcsRef) : (s.read as).next = s.next := rfl
@[simp] theorem read_acs (as : List AcsRef) : (s.read as).acs = s.acs := rfl

/-! ### Changing lists -/

theorem acs_updateAcs (f : NodeList AcsRef → NodeList AcsRef) : (s.updateAcs mg f).acs mg' =
    if mg' = mg then ((s.groups.find mg).map fun g => (f g.acs).items).getD [] else s.acs mg' := by
  rw [acs, updateAcs, updateGroup]
  dsimp only
  rw [Registry.find_modify]
  split_ifs with h
  · rw [h, Option.map_map]
    rfl
  · rfl

theorem acs_updateGroup {f : Group → Group} (hf : ∀ g, (f g).acs = g.acs) :
    (s.updateGroup mg f).acs = s.acs := by
  funext mg'
  rw [acs, acs, updateGroup]
  dsimp only
  rw [Registry.find_modify]
  split_ifs
  · cases s.groups.find mg' with
    | none => rfl
    | some g => simp [hf g]
  · rfl

theorem mem_acs_iff : a ∈ s.acs mg ↔ ∃ g, s.groups.find mg = some g ∧ a ∈ g.acs.items := by
  rw [acs]
  cases s.groups.find mg with
  | none => simp
  | some g => simp

theorem mem_acs_groupacsAdd : a ∈ (s.groupacsAdd mg mt flags).acs mg' ↔
    a ∈ s.acs mg' ∨ (mg' = mg ∧ (s.groups.find mg).isSome ∧ a = s.next) := by
  have hacs : (s.groupacsAdd mg mt flags).acs mg' = (s.updateAcs mg (·.add s.next)).acs mg' := rfl
  rw [hacs, acs_updateAcs]
  split_ifs with h
  · subst h
    rw [acs]
    cases s.groups.find mg' with
    | none => simp
    | some g => simp
  · simp [h]

theorem mem_acs_unlink :
    b ∈ (s.unlink mg mt a).acs mg' ↔ b ∈ s.acs mg' ∧ ¬(mg' = mg ∧ b = a) := by
  have hacs : (s.unlink mg mt a).acs mg' = (s.updateAcs mg (·.remove a)).acs mg' := rfl
  rw [hacs, acs_updateAcs]
  split_ifs with h
  · subst h
    rw [acs]
    cases s.groups.find mg' with
    | none => simp
    | some g => simp [and_comm]
  · simp [h]

theorem heap_groupacsAdd : (s.groupacsAdd mg mt flags).heap =
    Function.update s.heap s.next ⟨mg, mt, flags⟩ := rfl

theorem heap_setFlags : (s.setFlags a flags).heap b =
    if b = a then { s.heap a with flags := flags } else s.heap b := by
  rw [setFlags]
  dsimp only
  rw [Function.update_apply]

@[simp] theorem acs_setFlags : (s.setFlags a flags).acs = s.acs := rfl

theorem heap_setFlags_mt : ((s.setFlags a flags).heap b).mt = (s.heap b).mt ∧
    ((s.setFlags a flags).heap b).mg = (s.heap b).mg := by
  rw [heap_setFlags]
  split_ifs with h
  · rw [h]
    exact ⟨rfl, rfl⟩
  · exact ⟨rfl, rfl⟩

theorem groupacsFind_groupacsAdd (hnone : s.groupacsFind mg mt 0#32 false = none)
    (hlive : (s.groups.find mg).isSome) :
    (s.groupacsAdd mg mt flags).groupacsFind mg mt 0#32 false = some s.next := by
  rw [groupacsFind_entry]
  have hmem : s.next ∈ (s.groupacsAdd mg mt flags).acs mg :=
    mem_acs_groupacsAdd.mpr (.inr ⟨rfl, hlive, rfl⟩)
  cases hfound : ((s.groupacsAdd mg mt flags).acs mg).find? fun a =>
      ((s.groupacsAdd mg mt flags).heap a).mt = mt &&
        ((s.groupacsAdd mg mt flags).heap a).mg = mg with
  | none =>
    have hno := List.find?_eq_none.mp hfound s.next hmem
    simp [heap_groupacsAdd] at hno
  | some a =>
    have hgoal := List.find?_some hfound
    rw [heap_groupacsAdd, Function.update_apply] at hgoal
    split_ifs at hgoal with ha
    · rw [ha]
    · -- it would have been found before
      have hold := mem_acs_groupacsAdd.mp (List.mem_of_find?_eq_some hfound)
      rw [groupacsFind_entry] at hnone
      have hno := List.find?_eq_none.mp hnone a (hold.resolve_right fun h => ha h.2.2)
      exact absurd hgoal hno

theorem groupacsDelete_of_find (h : s.groupacsFind mg mt 0#32 false = some a) :
    s.groupacsDelete mg mt = s.unlink mg mt a := by
  rw [groupacsDelete, h]

/-! ### Entries and their groups -/

def OwnEntries (s : Groups) (mg : GroupRef) : Prop := ∀ a ∈ s.acs mg, (s.heap a).mg = mg ∧ a < s.next

theorem OwnEntries.setFlags (h : s.OwnEntries mg) : (s.setFlags a flags).OwnEntries mg := by
  intro b hb
  rw [heap_setFlags_mt.2]
  exact h b hb

theorem OwnEntries.heap_add (h : s.OwnEntries mg) (hb : b ∈ s.acs mg) :
    (s.groupacsAdd mg' mt flags).heap b = s.heap b := by
  rw [heap_groupacsAdd, Function.update_of_ne (Nat.ne_of_lt (h b hb).2)]

theorem heap_add_self : (s.groupacsAdd mg mt flags).heap s.next = ⟨mg, mt, flags⟩ := by
  rw [heap_groupacsAdd, Function.update_self]

theorem OwnEntries.groupacsAdd (h : s.OwnEntries mg) :
    (s.groupacsAdd mg' mt flags).OwnEntries mg := by
  intro b hb
  have hnext : (s.groupacsAdd mg' mt flags).next = s.next + 1 := rfl
  obtain hb | ⟨rfl, -, rfl⟩ := mem_acs_groupacsAdd.mp hb
  · rw [h.heap_add hb, hnext]
    exact ⟨(h b hb).1, Nat.lt_succ_of_lt (h b hb).2⟩
  · rw [heap_add_self, hnext]
    exact ⟨rfl, Nat.lt_succ_self _⟩

theorem OwnEntries.unlink (h : s.OwnEntries mg) : (s.unlink mg' mt a).OwnEntries mg :=
  fun b hb => h b (mem_acs_unlink.mp hb).1

end Groups
end ChatServices.GroupServ

/-! Permission queries over nested groups. `groupacs_find` looks for the flags at the innermost entry
and returns the outermost one; `groupacs_sourceinfo_flags` takes the first entry that leads to the
account, whatever flags there are on the way. -/
namespace ChatServices.GroupServ
open ChatServices.Lib ChatServices.Lib.Mask ChatServices.Text
namespace Groups
variable (s : Groups) (mg : GroupRef) (mu : AccountRef) (flags : Flags)

/-- An entry of a group through which an account is a member of it, with one of the flags at the
account's own entry: that entry itself, or one of a subgroup from where, without coming back to the
group, a group with such an entry is reached. -/
def Through (a : AcsRef) : Prop :=
  (s.lookup (.user mu) flags true).Leads (· = mg) mg a

def FirstThrough (a : AcsRef) : Prop :=
  s.Through mg mu flags a ∧
    ∃ before after, s.acs mg = before ++ a :: after ∧ ∀ b ∈ before, ¬s.Through mg mu flags b

variable {s mg mu flags}

theorem acs_of_not_mem (h : mg ∉ (s.groups.entries.map Prod.fst).toFinset) : s.acs mg = [] := by
  rw [List.mem_toFinset, ← Registry.find_eq_none_iff] at h
  rw [acs, h]
  rfl

theorem lookup_goal (v : GroupRef) (a : AcsRef) (_ : a ∈ (s.lookup (.user mu) flags true).edges v)
    (h : (s.lookup (.user mu) flags true).goal v a = true) :
    (s.lookup (.user mu) flags true).next a = none := by
  simp only [lookup, Bool.and_eq_true, decide_eq_true_eq] at h
  simp only [lookup, h.1.1, if_true]
  rfl

open Classical in
theorem groupacsFindFrom_user {fuel : Nat} {visited : GroupRef → Bool} (hmg : visited mg = false)
    (hfuel : s.groups.entries.length < fuel) :
    s.groupacsFindFrom (.user mu) flags true fuel visited mg =
      some (visited, (s.acs mg).find? fun a => decide ((s.lookup (.user mu) flags true).Leads
        (fun u => SearchGraph.Marked visited u ∨ u = mg) mg a)) := by
  refine SearchGraph.search_eq lookup_goal (fun v hv => acs_of_not_mem hv) ?_ hmg
  have hcard := Finset.card_filter_le (s.groups.entries.map Prod.fst).toFinset
    (fun u => visited u = false)
  have hlength := List.toFinset_card_le (s.groups.entries.map Prod.fst)
  rw [List.length_map] at hlength
  omega

open Classical in
theorem groupacsFind_user : s.groupacsFind mg (.user mu) flags true =
    (s.acs mg).find? fun a => decide (s.Through mg mu flags a) := by
  rw [groupacsFind, groupacsFindFrom_user rfl (Nat.lt_succ_self _), Option.bind_some]
  have havoid : (fun u => SearchGraph.Marked (fun _ : GroupRef => false) u ∨ u = mg) = (· = mg) := by
    funext u
    simp [SearchGraph.Marked]
  rw [havoid]
  rfl

theorem groupacsFind_user_iff {a : AcsRef} :
    s.groupacsFind mg (.user mu) flags true = some a ↔ s.FirstThrough mg mu flags a := by
  rw [groupacsFind_user, List.find?_eq_some_iff_append]
  simp [FirstThrough]

theorem groupacsFind_user_isSome :
    (s.groupacsFind mg (.user mu) flags true).isSome = true ↔
      ∃ a ∈ s.acs mg, s.Through mg mu flags a := by
  rw [groupacsFind_user, List.find?_isSome]
  simp

theorem no_entry_of_groupacsFind_user {a : AcsRef}
    (h : s.groupacsFind mg (.user mu) 0#32 true = none) (ha : a ∈ s.acs mg)
    (hmg : (s.heap a).mg = mg) : (s.heap a).mt ≠ .user mu := by
  intro hmt
  have hsome : (s.groupacsFind mg (.user mu) 0#32 true).isSome = true :=
    groupacsFind_user_isSome.mpr ⟨a, ha, .inl (by simp [lookup, hmt, hmg])⟩
  rw [h] at hsome
  cases hsome

end Groups

/-- `mygroup_chanacs_match_entity`, for an entry of the group in the access list of a channel. -/
def mygroupChanacsMatchEntity (s : Groups) (mg : GroupRef) (mt : Entity) : Bool :=
  mt.isUser && (s.groupacsFind mg mt gaChanacs true).isSome

structure QueriesAgree (s : Groups) (mg : GroupRef) (si : Source) (mu : AccountRef) (flag : Flags) :
    Prop where
  ends : ∀ visited : GroupRef → Bool, visited mg = false → ∃ n, ∀ fuel ≥ n, ∃ found,
    s.groupacsFindFrom (.user mu) flag true fuel visited mg = some (visited, found)
  found : ∀ a, s.groupacsFind mg (.user mu) flag true = some a →
    a ∈ s.acs mg ∧ (flag ≠ 0#32 → test (s.heap a).flags flag = true)
  same : s.groupacsSourceinfoHasFlag mg si flag = true ↔
    test (s.groupacsSourceinfoFlags mg si) flag = true
  /-- a permission in the group is one of an entry of the group -/
  bounded : flag ≠ 0#32 → s.groupacsSourceinfoHasFlag mg si flag = true →
    ∃ a ∈ s.acs mg, s.Through mg mu flag a ∧ test (s.heap a).flags flag = true
  /-- and so is access to the channels of the group -/
  channels : flag = gaChanacs → mygroupChanacsMatchEntity s mg (.user mu) = true →
    ∃ a ∈ s.acs mg, s.Through mg mu flag a ∧ test (s.heap a).flags flag = true

/-- The first entry through which the account is a member has one of the flags exactly if it is a
member with one of the flags, and so has the first entry through which it is that. -/
def FirstEntriesCarry (s : Groups) (mg : GroupRef) (mu : AccountRef) (flag : Flags) : Prop :=
  ((∃ a ∈ s.acs mg, s.Through mg mu flag a) ↔
    ∃ a, s.FirstThrough mg mu 0#32 a ∧ test (s.heap a).flags flag = true) ∧
  (flag ≠ 0#32 → ∀ a, s.FirstThrough mg mu flag a → test (s.heap a).flags flag = true)

section queries
variable {s : Groups} {mg : GroupRef} {si : Source} {mu : AccountRef} {flag : Flags}

theorem hasFlag_iff (hsi : si.smu = some mu) :
    s.groupacsSourceinfoHasFlag mg si flag = true ↔ ∃ a ∈ s.acs mg, s.Through mg mu flag a := by
  rw [Groups.groupacsSourceinfoHasFlag, hsi]
  exact Groups.groupacsFind_user_isSome

theorem test_flags_iff (hsi : si.smu = some mu) :
    test (s.groupacsSourceinfoFlags mg si) flag = true ↔
      ∃ a, s.FirstThrough mg mu 0#32 a ∧ test (s.heap a).flags flag = true := by
  rw [Groups.groupacsSourceinfoFlags, hsi]
  dsimp only
  simp only [← Groups.groupacsFind_user_iff]
  cases s.groupacsFind mg (.user mu) 0#32 true with
  | none => simp
  | some a => simp

/-- The queries about a group agree exactly if its first entries carry what is found through them. -/
theorem queries_agree_iff (s : Groups) (mg : GroupRef) (mu : AccountRef) (hasPriv : CString → Bool)
    (flag : Flags) :
    QueriesAgree s mg ⟨some mu, hasPriv⟩ mu flag ↔ FirstEntriesCarry s mg mu flag := by
  constructor
  · intro h
    refine ⟨?_, fun hflag a ha => ?_⟩
    · have hsame := h.same
      rw [hasFlag_iff rfl, test_flags_iff rfl] at hsame
      exact hsame
    · exact (h.found a (Groups.groupacsFind_user_iff.mpr ha)).2 hflag
  · rintro ⟨hsame, hfirst⟩
    have hbounded : flag ≠ 0#32 → (s.groupacsFind mg (.user mu) flag true).isSome = true →
        ∃ a ∈ s.acs mg, s.Through mg mu flag a ∧ test (s.heap a).flags flag = true := by
      intro hflag hsome
      obtain ⟨a, ha⟩ := Option.isSome_iff_exists.mp hsome
      have hthrough := Groups.groupacsFind_user_iff.mp ha
      refine ⟨a, ?_, hthrough.1, hfirst hflag a hthrough⟩
      rw [Groups.groupacsFind_user] at ha
      exact List.mem_of_find?_eq_some ha
    refine ⟨?_, fun a ha => ?_, ?_, hbounded, fun hflag hmatch => ?_⟩
    · intro visited hmg
      refine ⟨s.groups.entries.length + 1, fun fuel hfuel => ?_⟩
      exact ⟨_, Groups.groupacsFindFrom_user hmg hfuel⟩
    · have hmem : a ∈ s.acs mg := by
        rw [Groups.groupacsFind_user] at ha
        exact List.mem_of_find?_eq_some ha
      exact ⟨hmem, fun hflag => hfirst hflag a (Groups.groupacsFind_user_iff.mp ha)⟩
    · rw [hasFlag_iff rfl, test_flags_iff rfl]
      exact hsame
    · subst hflag
      exact hbounded (by decide) hmatch

end queries

/-- A group with a subgroup that has nothing in it but `GA_MEMOS`, and bob, who has `GA_SET` in the
subgroup. -/
def nestedGroups : Groups where
  groups := (Registry.empty.insertNew 0 ⟨"!parent".toList, 0#32, NodeList.empty.add 2, none, none,
    false⟩).insertNew 1 ⟨"!child".toList, 0#32, NodeList.empty.add 3, none, none, false⟩
  accounts := Registry.empty.insertNew 4 ⟨"bob".toList, 0#32, [], none, false, 0⟩
  exts := .empty
  heap a := if a = 2 then ⟨0, .group 1, gaMemos⟩ else ⟨1, .user 4, gaSet⟩
  freed := []
  membership _ := .empty
  next := 5
  misuse := false

/-- Bob passes the test for `GA_SET` in the parent group, where the subgroup does not have it. -/
theorem subgroup_exceeds :
    ¬∀ (s : Groups) (mg : GroupRef) (mu : AccountRef) (hasPriv : CString → Bool) (flag : Flags),
      QueriesAgree s mg ⟨some mu, hasPriv⟩ mu flag := by
  intro h
  have hsame := (h nestedGroups 0 4 (fun _ => false) gaSet).same
  revert hsame
  decide +kernel

end ChatServices.GroupServ
