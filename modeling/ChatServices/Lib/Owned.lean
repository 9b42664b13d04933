import ChatServices.Lib.Registry
import ChatServices.Lib.Walk

/-! Records that each belong to an owner: one table of the records, a list of each owner's, and an
index by key. The index keeps what it has when a key is added twice. -/
namespace ChatServices.Lib
open ChatServices.Lib.Walk
variable {ρ ο κ α : Type*} [DecidableEq ρ] [DecidableEq ο] [DecidableEq κ]

structure Owned (ρ ο κ α : Type*) where
  objs : Registry ρ α
  lists : ο → List ρ
  index : Registry κ ρ

namespace Owned

def empty : Owned ρ ο κ α := ⟨.empty, fun _ => [], .empty⟩

section operations
variable (owner : α → ο) (key : α → κ)

def add (r : ρ) (a : α) (t : Owned ρ ο κ α) : Owned ρ ο κ α where
  objs := t.objs.insertNew r a
  lists o := if o = owner a then t.lists o ++ [r] else t.lists o
  index := t.index.insertNew (key a) r

def delete (t : Owned ρ ο κ α) (r : ρ) : Option (Owned ρ ο κ α) :=
  (t.objs.find r).map fun a =>
    ⟨t.objs.erase r, fun o => if o = owner a then (t.lists o).erase r else t.lists o,
      t.index.erase (key a)⟩

def deleteAll (o : ο) (t : Owned ρ ο κ α) : Option (Owned ρ ο κ α) :=
  walkSafe (fun t => t.lists o) (delete owner key) (t.lists o).length (t.lists o).head? t

end operations

structure Ok (owner : α → ο) (key : α → κ) (t : Owned ρ ο κ α) : Prop where
  lists : ∀ o, t.lists o = t.objs.keysWhere (fun a => owner a = o)
  index : ∀ k r, t.index.find k = some r → ∃ a, t.objs.find r = some a ∧ key a = k

section rules
variable {owner : α → ο} {key : α → κ} {t : Owned ρ ο κ α} {r : ρ} {a : α} {o : ο}

theorem empty_ok : Ok owner key (empty : Owned ρ ο κ α) := ⟨fun _ => rfl, nofun⟩

theorem Ok.mem_lists (h : Ok owner key t) :
    r ∈ t.lists o ↔ ∃ a, t.objs.find r = some a ∧ owner a = o := by
  rw [h.lists, Registry.mem_keysWhere]
  simp

theorem Ok.nodup_lists (h : Ok owner key t) : (t.lists o).Nodup := by
  rw [h.lists]
  exact Registry.nodup_keysWhere

theorem Ok.add (h : Ok owner key t) (hnew : t.objs.find r = none) :
    Ok owner key (t.add owner key r a) := by
  refine ⟨fun o => ?_, fun k r' hk => ?_⟩
  · show (if o = owner a then t.lists o ++ [r] else t.lists o) = _
    rw [Owned.add, Registry.keysWhere_insertNew hnew, ← h.lists]
    by_cases ho : o = owner a
    · simp [ho]
    · simp [ho, Ne.symm ho]
  · rw [Owned.add, Registry.find_insertNew] at hk
    rw [Owned.add, Registry.find_insertNew]
    cases hold : t.index.find k with
    | some r'' =>
      rw [hold, Option.some_or] at hk
      obtain rfl := Option.some.inj hk
      obtain ⟨a', ha', hkey⟩ := h.index k r'' hold
      exact ⟨a', by rw [ha', Option.some_or], hkey⟩
    | none =>
      rw [hold, Option.none_or] at hk
      split_ifs at hk with hkey
      obtain rfl := Option.some.inj hk
      exact ⟨a, by rw [hnew, if_pos rfl, Option.none_or], hkey⟩

theorem Ok.delete (h : Ok owner key t) (hf : t.objs.find r = some a) :
    ∃ t', t.delete owner key r = some t' ∧ Ok owner key t' ∧ t'.objs = t.objs.erase r ∧
      ∀ o, t'.lists o = (t.lists o).erase r := by
  have hlists : ∀ o, (if o = owner a then (t.lists o).erase r else t.lists o) =
      (t.lists o).erase r := by
    intro o
    split_ifs with ho
    · rfl
    · refine (List.erase_of_not_mem fun hmem => ho ?_).symm
      obtain ⟨a', hf', hown⟩ := h.mem_lists.mp hmem
      rw [hf] at hf'
      rw [← hown, Option.some.inj hf']
  refine ⟨_, by rw [Owned.delete, hf]; rfl, ⟨fun o => ?_, fun k r' hk => ?_⟩, rfl, hlists⟩
  · rw [Registry.keysWhere_erase, ← h.lists]
    exact hlists o
  · rw [Registry.find_erase] at hk
    split_ifs at hk with hkey
    obtain ⟨a', ha', hkey'⟩ := h.index k r' hk
    have hne : r' ≠ r := by
      intro heq
      rw [heq, hf] at ha'
      rw [← Option.some.inj ha'] at hkey'
      exact hkey hkey'.symm
    exact ⟨a', by rw [Registry.find_erase, if_neg hne, ha'], hkey'⟩

theorem Ok.deleteAll_keeps {P : Owned ρ ο κ α → Prop}
    (hkeep : ∀ t r a t', Ok owner key t → P t → t.objs.find r = some a →
      t.delete owner key r = some t' → P t') (h : Ok owner key t) (hP : P t) :
    ∃ t', t.deleteAll owner key o = some t' ∧ Ok owner key t' ∧ P t' ∧
      ∀ r a, t'.objs.find r = some a ↔ t.objs.find r = some a ∧ owner a ≠ o := by
  let I (rest : List ρ) (t' : Owned ρ ο κ α) : Prop :=
    Ok owner key t' ∧ P t' ∧ t'.lists o = rest ∧
      ∀ r a, t'.objs.find r = some a ↔ t.objs.find r = some a ∧ (owner a = o → r ∈ rest)
  have hstart : I (t.lists o) t := by
    refine ⟨h, hP, rfl, fun r a => ⟨fun hf => ⟨hf, fun ho => ?_⟩, And.left⟩⟩
    exact h.mem_lists.mpr ⟨a, hf, ho⟩
  have hlist : ∀ rest t', I rest t' →
      (t'.lists o).Nodup ∧ ∃ before, t'.lists o = before ++ rest :=
    fun rest t' hI => ⟨hI.1.nodup_lists, [], hI.2.2.1⟩
  have hstep : ∀ n rest t', I (n :: rest) t' →
      ∃ t'', t'.delete owner key n = some t'' ∧ I rest t'' := by
    intro n rest t' hI
    obtain ⟨hok, hPt, hrest, hobjs⟩ := hI
    have hmem : n ∈ t'.lists o := hrest ▸ List.mem_cons_self ..
    obtain ⟨a, hf, hown⟩ := hok.mem_lists.mp hmem
    obtain ⟨t'', hrun, hok', hobjs', hlists'⟩ := hok.delete hf
    have hnot : n ∉ rest := by
      have hnodup : (n :: rest).Nodup := hrest ▸ hok.nodup_lists
      exact (List.nodup_cons.mp hnodup).1
    refine ⟨t'', hrun, hok', hkeep t' n a t'' hok hPt hf hrun, ?_, fun r b => ?_⟩
    · rw [hlists', hrest, List.erase_cons_head]
    · rw [hobjs', Registry.find_erase]
      by_cases hr : r = n
      · subst hr
        rw [if_pos rfl]
        refine ⟨nofun, fun hb => ?_⟩
        have hba : b = a := by
          have hfind := ((hobjs r a).mp hf).1
          rw [hb.1] at hfind
          exact Option.some.inj hfind
        exact absurd (hb.2 (hba ▸ hown)) hnot
      · rw [if_neg hr, hobjs, List.mem_cons]
        simp [hr]
  obtain ⟨t', hrun, hok, hPt, -, hobjs⟩ := walkSafe_run hlist hstep hstart (Nat.le_refl _)
  refine ⟨t', hrun, hok, hPt, fun r a => ?_⟩
  rw [hobjs]
  simp

theorem Ok.deleteAll (h : Ok owner key t) :
    ∃ t', t.deleteAll owner key o = some t' ∧ Ok owner key t' ∧
      ∀ r a, t'.objs.find r = some a ↔ t.objs.find r = some a ∧ owner a ≠ o := by
  obtain ⟨t', hrun, hok, -, hobjs⟩ :=
    h.deleteAll_keeps (o := o) (P := fun _ => True) (fun _ _ _ _ _ _ _ _ => trivial) trivial
  exact ⟨t', hrun, hok, hobjs⟩

variable (owner key) in
theorem deleteAll_add (hlist : t.lists (owner a) = []) (hnew : t.objs.find r = none)
    (hkey : t.index.find (key a) = none) :
    (t.add owner key r a).deleteAll owner key (owner a) = some t := by
  have hobj : (t.add owner key r a).objs.find r = some a := by
    rw [Owned.add, Registry.find_insertNew, hnew, if_pos rfl, Option.none_or]
  have hone : (t.add owner key r a).lists (owner a) = [r] := by
    simp [Owned.add, hlist]
  have hdelete : (t.add owner key r a).delete owner key r = some t := by
    rw [Owned.delete, hobj, Option.map_some]
    congr 1
    rw [Owned.add, Registry.erase_insertNew hnew, Registry.erase_insertNew hkey]
    congr 1
    funext o
    by_cases ho : o = owner a
    · simp [ho, hlist]
    · simp [ho]
  rw [Owned.deleteAll, hone, List.length_singleton, List.head?_cons, walkSafe, fromNode, hone]
  simp [hdelete, walkSafe]

def Indexed (key : α → κ) (t : Owned ρ ο κ α) : Prop :=
  ∀ r a, t.objs.find r = some a → t.index.find (key a) = some r

omit [DecidableEq ο] in
theorem Indexed.inj (h : Indexed key t) {r' : ρ} {a' : α} (hr : t.objs.find r = some a)
    (hr' : t.objs.find r' = some a') (hkey : key a = key a') : r = r' := by
  have hfind := h r a hr
  rw [hkey, h r' a' hr'] at hfind
  exact (Option.some.inj hfind).symm

theorem Indexed.add (h : Indexed key t) (hkey : t.index.find (key a) = none) :
    Indexed key (t.add owner key r a) := by
  intro r' a' hr'
  rw [Owned.add, Registry.find_insertNew] at hr'
  rw [Owned.add, Registry.find_insertNew]
  cases hold : t.objs.find r' with
  | some b =>
    rw [hold, Option.some_or] at hr'
    obtain rfl := Option.some.inj hr'
    rw [h r' b hold, Option.some_or]
  | none =>
    rw [hold, Option.none_or] at hr'
    split_ifs at hr' with hrr
    obtain rfl := Option.some.inj hr'
    rw [hkey, if_pos rfl, hrr, Option.none_or]

theorem Indexed.delete (h : Indexed key t) {t' : Owned ρ ο κ α} (hf : t.objs.find r = some a)
    (hdel : t.delete owner key r = some t') : Indexed key t' := by
  rw [Owned.delete, hf, Option.map_some] at hdel
  obtain rfl := Option.some.inj hdel
  intro r' a' hr'
  rw [Registry.find_erase] at hr'
  split_ifs at hr' with hrr
  have hne : key a' ≠ key a := fun hkey => hrr (h.inj hr' hf hkey)
  rw [Registry.find_erase, if_neg hne, h r' a' hr']

end rules
end Owned
end ChatServices.Lib
