import Mathlib.Data.List.Nodup

/-! A table of records with one record at most for each key, kept in the order of
insertion. Every change other than an insertion is one `update`. -/
namespace ChatServices.Lib
variable {κ α : Type*}

structure Registry (κ α : Type*) where
  entries : List (κ × α)
  nodup : (entries.map Prod.fst).Nodup

namespace Registry

def empty : Registry κ α := ⟨[], List.nodup_nil⟩

instance : Inhabited (Registry κ α) := ⟨empty⟩

/-- Rewrite every record in place; `none` removes it. -/
def updateEntries (f : κ → α → Option α) (xs : List (κ × α)) : List (κ × α) :=
  xs.filterMap (fun e => (f e.1 e.2).map (Prod.mk e.1))

theorem updateEntries_keys_sublist (f : κ → α → Option α) (xs : List (κ × α)) :
    ((updateEntries f xs).map Prod.fst).Sublist (xs.map Prod.fst) := by
  induction xs with
  | nil => simp [updateEntries]
  | cons e xs ih =>
    cases h : f e.1 e.2 with
    | none => simpa [updateEntries, h] using ih.cons e.1
    | some a => simpa [updateEntries, h] using ih

def update (f : κ → α → Option α) (r : Registry κ α) : Registry κ α :=
  ⟨updateEntries f r.entries, r.nodup.sublist (updateEntries_keys_sublist f r.entries)⟩

theorem ext {r r' : Registry κ α} (h : r.entries = r'.entries) : r = r' := by
  cases r
  cases r'
  cases h
  rfl

theorem updateEntries_eq_self {f : κ → α → Option α} {xs : List (κ × α)}
    (h : ∀ e ∈ xs, f e.1 e.2 = some e.2) : updateEntries f xs = xs := by
  induction xs with
  | nil => rfl
  | cons e xs ih =>
    have htail : updateEntries f xs = xs := ih fun x hx => h x (List.mem_cons_of_mem e hx)
    rw [updateEntries] at htail
    simp [updateEntries, h e (List.mem_cons_self ..), htail]

theorem update_eq_self {f : κ → α → Option α} {r : Registry κ α}
    (h : ∀ e ∈ r.entries, f e.1 e.2 = some e.2) : r.update f = r := by
  obtain ⟨xs, hxs⟩ := r
  simp only [update, updateEntries_eq_self h]

variable [DecidableEq κ]

def find (k : κ) (r : Registry κ α) : Option α :=
  (r.entries.find? (fun e => e.1 = k)).map Prod.snd

def insertNew (k : κ) (a : α) (r : Registry κ α) : Registry κ α :=
  if h : k ∈ r.entries.map Prod.fst then r
  else ⟨r.entries ++ [(k, a)], by
    rw [List.map_append, List.nodup_append]
    refine ⟨r.nodup, by simp, ?_⟩
    intro x hx y hy hxy
    simp only [List.map_cons, List.map_nil, List.mem_singleton] at hy
    exact h (hy ▸ hxy ▸ hx)⟩

def set (k : κ) (a : α) (r : Registry κ α) : Registry κ α :=
  r.update (fun k' a' => if k' = k then some a else some a')

def modify (k : κ) (f : α → α) (r : Registry κ α) : Registry κ α :=
  r.update (fun k' a' => if k' = k then some (f a') else some a')

def erase (k : κ) (r : Registry κ α) : Registry κ α :=
  r.update (fun k' a' => if k' = k then none else some a')

@[simp] theorem find_empty (k : κ) : (empty : Registry κ α).find k = none := rfl

theorem find_eq_some_iff (k : κ) (a : α) (r : Registry κ α) :
    r.find k = some a ↔ (k, a) ∈ r.entries := by
  obtain ⟨xs, hxs⟩ := r
  simp only [find]
  induction xs with
  | nil => simp
  | cons e xs ih =>
    obtain ⟨k', a'⟩ := e
    simp only [List.map_cons, List.nodup_cons] at hxs
    by_cases hk : k' = k
    · subst hk
      have hnot : (k', a) ∉ xs := fun h => hxs.1 (List.mem_map.mpr ⟨_, h, rfl⟩)
      simp [hnot, eq_comm]
    · have hne : (k, a) ≠ (k', a') := fun h => hk (congrArg Prod.fst h).symm
      simp [hk, hne, ih hxs.2]

theorem find_eq_none_iff (k : κ) (r : Registry κ α) :
    r.find k = none ↔ k ∉ r.entries.map Prod.fst := by
  simp only [find, Option.map_eq_none_iff, List.find?_eq_none, decide_eq_true_eq, List.mem_map,
    not_exists, not_and]

theorem find_update (f : κ → α → Option α) (k : κ) (r : Registry κ α) :
    (r.update f).find k = (r.find k).bind (f k) := by
  apply Option.ext
  intro a
  rw [find_eq_some_iff, Option.bind_eq_some_iff]
  simp only [update, updateEntries, List.mem_filterMap, Option.map_eq_some_iff, Prod.mk.injEq]
  constructor
  · rintro ⟨⟨k', a'⟩, hm, b, hb, rfl, rfl⟩
    exact ⟨a', (find_eq_some_iff _ _ r).mpr hm, hb⟩
  · rintro ⟨a', hm, hb⟩
    exact ⟨(k, a'), (find_eq_some_iff _ _ r).mp hm, a, hb, rfl, rfl⟩

theorem find_insertNew (k k' : κ) (a : α) (r : Registry κ α) :
    (r.insertNew k a).find k' = (r.find k').or (if k = k' then some a else none) := by
  unfold insertNew
  split
  · rename_i h
    by_cases hk : k = k'
    · have hs : r.find k' ≠ none := fun hn => (find_eq_none_iff k' r).mp hn (hk ▸ h)
      obtain ⟨b, hb⟩ := Option.ne_none_iff_exists'.mp hs
      simp [hb]
    · simp [hk]
  · simp only [find, List.find?_append, List.find?_singleton, Option.map_or]
    by_cases hk : k = k' <;> simp [hk]

@[simp] theorem find_set (k k' : κ) (a : α) (r : Registry κ α) :
    (r.set k a).find k' = if k' = k then (r.find k').map (fun _ => a) else r.find k' := by
  rw [set, find_update]
  by_cases hk : k' = k <;> cases r.find k' <;> simp [hk]

@[simp] theorem find_modify (k k' : κ) (f : α → α) (r : Registry κ α) :
    (r.modify k f).find k' = if k' = k then (r.find k').map f else r.find k' := by
  rw [modify, find_update]
  by_cases hk : k' = k <;> cases r.find k' <;> simp [hk]

@[simp] theorem find_erase (k k' : κ) (r : Registry κ α) :
    (r.erase k).find k' = if k' = k then none else r.find k' := by
  rw [erase, find_update]
  by_cases hk : k' = k <;> cases r.find k' <;> simp [hk]

theorem insertNew_of_find {k : κ} {a b : α} {r : Registry κ α} (h : r.find k = some b) :
    r.insertNew k a = r := by
  rw [find_eq_some_iff] at h
  exact dif_pos (List.mem_map.mpr ⟨_, h, rfl⟩)

theorem erase_of_find {k : κ} {r : Registry κ α} (h : r.find k = none) : r.erase k = r := by
  rw [find_eq_none_iff] at h
  apply update_eq_self
  intro e he
  refine if_neg fun (hk : e.1 = k) => h ?_
  exact hk ▸ List.mem_map.mpr ⟨e, he, rfl⟩

theorem set_of_find {k : κ} {a : α} {r : Registry κ α} (h : r.find k = some a) : r.set k a = r := by
  apply update_eq_self
  intro e he
  by_cases hk : e.1 = k
  · have hfind : r.find e.1 = some e.2 := (find_eq_some_iff _ _ r).mpr he
    rw [if_pos hk, ← hfind, hk, h]
  · rw [if_neg hk]

theorem set_insertNew {k : κ} {a b : α} {r : Registry κ α} (h : r.find k = none) :
    (r.insertNew k a).set k b = r.insertNew k b := by
  rw [find_eq_none_iff] at h
  have hrest : updateEntries (fun k' a' => if k' = k then some b else some a') r.entries =
      r.entries := by
    apply updateEntries_eq_self
    intro e he
    refine if_neg fun (hk : e.1 = k) => h ?_
    exact hk ▸ List.mem_map.mpr ⟨e, he, rfl⟩
  obtain ⟨xs, hxs⟩ := r
  rw [insertNew, insertNew, dif_neg h, dif_neg h, set, update]
  simp only [updateEntries, List.filterMap_append, mk.injEq]
  simp only [updateEntries] at hrest
  rw [hrest]
  simp

theorem entries_insertNew {k : κ} {a : α} {r : Registry κ α} (h : r.find k = none) :
    (r.insertNew k a).entries = r.entries ++ [(k, a)] := by
  rw [find_eq_none_iff] at h
  rw [insertNew, dif_neg h]

theorem erase_insertNew {k : κ} {a : α} {r : Registry κ α} (h : r.find k = none) :
    (r.insertNew k a).erase k = r := by
  rw [find_eq_none_iff] at h
  have hrest : updateEntries (fun k' a' => if k' = k then none else some a') r.entries =
      r.entries := by
    apply updateEntries_eq_self
    intro e he
    refine if_neg fun (hk : e.1 = k) => h ?_
    exact hk ▸ List.mem_map.mpr ⟨e, he, rfl⟩
  obtain ⟨xs, hxs⟩ := r
  rw [insertNew, dif_neg h, erase, update]
  congr 1
  rw [updateEntries] at hrest
  simp only [updateEntries, List.filterMap_append, hrest]
  simp

theorem exists_split {k : κ} {a : α} {r : Registry κ α} (h : r.find k = some a) :
    ∃ pre post, r.entries = pre ++ (k, a) :: post ∧ (∀ e ∈ pre, e.1 ≠ k) ∧
      (∀ b, (r.set k b).entries = pre ++ (k, b) :: post) ∧ (r.erase k).entries = pre ++ post := by
  rw [find_eq_some_iff] at h
  obtain ⟨pre, post, hentries⟩ := List.append_of_mem h
  have hnodup := r.nodup
  rw [hentries, List.map_append, List.map_cons, List.nodup_append, List.nodup_cons] at hnodup
  obtain ⟨-, ⟨hpost, -⟩, hapart⟩ := hnodup
  have hpre : ∀ e ∈ pre, e.1 ≠ k := fun e he =>
    hapart e.1 (List.mem_map_of_mem he) k (List.mem_cons_self ..)
  have hpost' : ∀ e ∈ post, e.1 ≠ k := by
    intro e he hk
    exact hpost (List.mem_map.mpr ⟨e, he, hk⟩)
  have hrest : ∀ (o : Option α) (xs : List (κ × α)), (∀ e ∈ xs, e.1 ≠ k) →
      updateEntries (fun k' a' => if k' = k then o else some a') xs = xs := by
    intro o xs hxs
    exact updateEntries_eq_self fun e he => if_neg (hxs e he)
  have hupdate : ∀ o : Option α,
      (r.update fun k' a' => if k' = k then o else some a').entries =
        pre ++ (o.map fun b => (k, b)).toList ++ post := by
    intro o
    have hp := hrest o pre hpre
    have hq := hrest o post hpost'
    have hdef : (r.update fun k' a' => if k' = k then o else some a').entries =
        updateEntries (fun k' a' => if k' = k then o else some a') r.entries := rfl
    rw [hdef, hentries]
    simp only [updateEntries] at hp hq ⊢
    rw [List.filterMap_append, List.filterMap_cons, hp]
    cases o with
    | none => simp [hq]
    | some b => simp [hq]
  refine ⟨pre, post, hentries, hpre, fun b => ?_, ?_⟩
  · rw [set, hupdate (some b)]
    simp
  · rw [erase, hupdate none]
    simp

/-! ### Index lists -/

section index
variable (p : α → Bool)

def keysWhere (r : Registry κ α) : List κ := (r.entries.filter (fun e => p e.2)).map Prod.fst

variable {p} {r : Registry κ α} {k k' : κ} {a b : α}

omit [DecidableEq κ] in
theorem nodup_keysWhere : (r.keysWhere p).Nodup :=
  r.nodup.sublist (List.filter_sublist.map _)

theorem mem_keysWhere : k ∈ r.keysWhere p ↔ ∃ a, r.find k = some a ∧ p a = true := by
  simp only [keysWhere, List.mem_map, List.mem_filter, Prod.exists, exists_and_right,
    exists_eq_right, find_eq_some_iff]

theorem keysWhere_insertNew (h : r.find k = none) :
    (r.insertNew k a).keysWhere p = r.keysWhere p ++ if p a then [k] else [] := by
  rw [find_eq_none_iff] at h
  rw [keysWhere, insertNew, dif_neg h, List.filter_append, List.map_append, keysWhere]
  by_cases hp : p a = true <;> simp [hp]

omit [DecidableEq κ] in
theorem entries_update_filter {q : κ → α → Prop} [∀ k a, Decidable (q k a)] :
    (r.update fun k a => if q k a then none else some a).entries =
      r.entries.filter (fun e => ¬ q e.1 e.2) := by
  simp only [update, updateEntries]
  induction r.entries with
  | nil => rfl
  | cons e xs ih => by_cases hq : q e.1 e.2 <;> simpa [hq] using ih

omit [DecidableEq κ] in
theorem filter_entries_update {f : κ → α → Option α} {q : κ → Prop} [DecidablePred q]
    (h : ∀ k a, q k → f k a = some a) :
    (r.update f).entries.filter (fun e => q e.1) = r.entries.filter (fun e => q e.1) := by
  simp only [update, updateEntries]
  induction r.entries with
  | nil => rfl
  | cons e xs ih =>
    by_cases hq : q e.1
    · simp [hq, h e.1 e.2 hq, ih]
    · cases hf : f e.1 e.2 with
      | none => simp [hq, hf, ih]
      | some b => simp [hq, hf, ih]

theorem entries_erase : (r.erase k).entries = r.entries.filter (fun e => e.1 ≠ k) :=
  entries_update_filter

theorem keysWhere_erase : (r.erase k).keysWhere p = (r.keysWhere p).erase k := by
  rw [List.Nodup.erase_eq_filter nodup_keysWhere, keysWhere, entries_erase, keysWhere,
    List.filter_map, List.filter_filter, List.filter_filter]
  congr 1
  refine List.filter_congr fun e _ => ?_
  simp [Bool.and_comm, bne, beq_eq_decide]

theorem keysWhere_filter {r' : Registry κ α} {q : κ × α → Bool}
    (h : r'.entries = r.entries.filter q) :
    r'.keysWhere p = (r.keysWhere p).filter (fun k => (r.find k).any fun a => q (k, a)) := by
  rw [keysWhere, h, List.filter_filter, keysWhere, List.filter_map, List.filter_filter]
  congr 1
  refine List.filter_congr fun e he => ?_
  have hf : r.find e.1 = some e.2 := (find_eq_some_iff _ _ r).mpr he
  simp [hf, Bool.and_comm]

theorem entries_modify {f : α → α} :
    (r.modify k f).entries = r.entries.map (fun e => if e.1 = k then (e.1, f e.2) else e) := by
  simp only [modify, update, updateEntries]
  induction r.entries with
  | nil => rfl
  | cons e xs ih => by_cases hk : e.1 = k <;> simpa [hk] using ih

theorem keysWhere_modify {f : α → α} (h : ∀ a, r.find k = some a → p (f a) = p a) :
    (r.modify k f).keysWhere p = r.keysWhere p := by
  rw [keysWhere, entries_modify, List.filter_map, List.map_map, keysWhere]
  have hkeys : (Prod.fst ∘ fun e : κ × α => if e.1 = k then (e.1, f e.2) else e) = Prod.fst := by
    funext e
    by_cases hk : e.1 = k <;> simp [hk]
  rw [hkeys]
  congr 1
  refine List.filter_congr fun e he => ?_
  by_cases hk : e.1 = k
  · have hf := (find_eq_some_iff _ _ r).mpr he
    simp [hk, h e.2 (hk ▸ hf)]
  · simp [hk]

omit [DecidableEq κ] in
theorem nodup_entries : r.entries.Nodup := r.nodup.of_map

theorem perm_erase (h : r.find k = some a) : r.entries.Perm ((k, a) :: (r.erase k).entries) := by
  have hnot : (k, a) ∉ (r.erase k).entries := by
    rw [entries_erase, List.mem_filter]
    simp
  have hcons : ((k, a) :: (r.erase k).entries).Nodup :=
    List.nodup_cons.mpr ⟨hnot, nodup_entries⟩
  refine (List.perm_ext_iff_of_nodup nodup_entries hcons).mpr fun e => ?_
  rw [List.mem_cons, entries_erase, List.mem_filter, decide_eq_true_eq]
  constructor
  · intro he
    by_cases hk : e.1 = k
    · have hfound : r.find k = some e.2 := (find_eq_some_iff _ _ r).mpr (hk ▸ he)
      rw [h] at hfound
      exact .inl (Prod.ext hk (Option.some.inj hfound).symm)
    · exact .inr ⟨he, hk⟩
  · rintro (rfl | ⟨he, -⟩)
    · exact (find_eq_some_iff _ _ r).mp h
    · exact he

theorem erase_modify {f : α → α} : (r.modify k f).erase k = r.erase k := by
  apply ext
  rw [entries_erase, entries_erase, entries_modify, List.filter_map]
  have hsame : ∀ e ∈ r.entries.filter ((fun e => decide (e.1 ≠ k)) ∘
      fun e => if e.1 = k then (e.1, f e.2) else e), (if e.1 = k then (e.1, f e.2) else e) = e := by
    intro e he
    have hne := (List.mem_filter.mp he).2
    by_cases hk : e.1 = k
    · simp [hk] at hne
    · rw [if_neg hk]
  rw [List.map_congr_left hsame, List.map_id']
  refine List.filter_congr fun e _ => ?_
  by_cases hk : e.1 = k <;> simp [hk]

theorem length_insertNew (h : r.find k = none) :
    (r.insertNew k a).entries.length = r.entries.length + 1 := by
  rw [find_eq_none_iff] at h
  simp [insertNew, dif_neg h]

theorem length_modify {f : α → α} : (r.modify k f).entries.length = r.entries.length := by
  rw [entries_modify, List.length_map]

theorem length_erase (h : r.find k = some a) :
    (r.erase k).entries.length + 1 = r.entries.length := by
  have hmem : k ∈ r.entries.map Prod.fst :=
    List.mem_map.mpr ⟨_, (find_eq_some_iff _ _ r).mp h, rfl⟩
  have hkeys : (r.erase k).entries.map Prod.fst = (r.entries.map Prod.fst).erase k := by
    rw [List.Nodup.erase_eq_filter r.nodup, entries_erase, List.filter_map]
    congr 1
    exact List.filter_congr fun e _ => by simp [bne, beq_eq_decide]
  have hlen := congrArg List.length hkeys
  rw [List.length_map, List.length_erase_of_mem hmem, List.length_map] at hlen
  have hpos : 0 < r.entries.length := by
    rw [← List.length_map Prod.fst]
    exact List.length_pos_of_mem hmem
  omega

theorem modify_insertNew {f : α → α} (h : r.find k = none) :
    (r.insertNew k a).modify k f = r.insertNew k (f a) := by
  have hrest : r.entries.map (fun e => if e.1 = k then (e.1, f e.2) else e) = r.entries := by
    rw [find_eq_none_iff] at h
    have hid : ∀ e ∈ r.entries, (if e.1 = k then (e.1, f e.2) else e) = e := fun e he =>
      if_neg fun hk : e.1 = k => h (hk ▸ List.mem_map_of_mem he)
    rw [List.map_congr_left hid, List.map_id']
  apply ext
  rw [entries_modify, entries_insertNew h, entries_insertNew h, List.map_append, hrest]
  simp

end index

section search
variable {p : α → Bool} {r : Registry κ α} {k : κ} {a : α}

def firstWhere (p : α → Bool) (r : Registry κ α) : Option κ :=
  (r.entries.find? (fun e => p e.2)).map Prod.fst

theorem firstWhere_some (h : r.firstWhere p = some k) : ∃ a, r.find k = some a ∧ p a = true := by
  obtain ⟨⟨k', a⟩, hfound, rfl⟩ := Option.map_eq_some_iff.mp h
  have hp := List.find?_some hfound
  exact ⟨a, (find_eq_some_iff k' a r).mpr (List.mem_of_find?_eq_some hfound), hp⟩

theorem firstWhere_none_iff : r.firstWhere p = none ↔ ∀ k a, r.find k = some a → p a = false := by
  simp only [firstWhere, Option.map_eq_none_iff, List.find?_eq_none, Prod.forall,
    find_eq_some_iff, Bool.not_eq_true]

theorem firstWhere_iff
    (h : ∀ k k' a a', r.find k = some a → r.find k' = some a' → p a = true → p a' = true → k = k') :
    r.firstWhere p = some k ↔ ∃ a, r.find k = some a ∧ p a = true := by
  refine ⟨firstWhere_some, fun ⟨a, ha, hp⟩ => ?_⟩
  cases hfirst : r.firstWhere p with
  | none =>
    rw [firstWhere_none_iff.mp hfirst k a ha] at hp
    cases hp
  | some k' =>
    obtain ⟨a', ha', hp'⟩ := firstWhere_some hfirst
    rw [h k' k a' a ha' ha hp' hp]

theorem firstWhere_insertNew (h : r.find k = none) :
    (r.insertNew k a).firstWhere p = (r.firstWhere p).or (if p a then some k else none) := by
  rw [firstWhere, entries_insertNew h, List.find?_append, firstWhere]
  cases hp : p a <;> cases r.entries.find? (fun e => p e.2) <;> simp [hp]

theorem firstWhere_update {f : κ → α → Option α}
    (h : ∀ k a, r.find k = some a → ∃ a', f k a = some a' ∧ p a' = p a) :
    (r.update f).firstWhere p = r.firstWhere p := by
  obtain ⟨xs, hxs⟩ := r
  have hall : ∀ e ∈ xs, ∃ a', f e.1 e.2 = some a' ∧ p a' = p e.2 := fun e he =>
    h e.1 e.2 ((find_eq_some_iff e.1 e.2 ⟨xs, hxs⟩).mpr he)
  rw [firstWhere, firstWhere]
  simp only [update, updateEntries]
  clear h hxs
  induction xs with
  | nil => rfl
  | cons e xs ih =>
    obtain ⟨a', hf, hp⟩ := hall e List.mem_cons_self
    have htail := ih fun e' he' => hall e' (List.mem_cons_of_mem e he')
    rw [List.filterMap_cons, hf]
    dsimp only [Option.map_some]
    rw [List.find?_cons, List.find?_cons]
    dsimp only
    rw [hp]
    cases p e.2
    · exact htail
    · rfl

theorem firstWhere_modify {f : α → α} (h : ∀ a, r.find k = some a → p (f a) = p a) :
    (r.modify k f).firstWhere p = r.firstWhere p := by
  refine firstWhere_update fun k' a ha => ?_
  split_ifs with hk
  · exact ⟨f a, rfl, h a (hk ▸ ha)⟩
  · exact ⟨a, rfl, rfl⟩

theorem firstWhere_erase
    (h : ∀ k k' a a', r.find k = some a → r.find k' = some a' → p a = true → p a' = true → k = k') :
    (r.erase k).firstWhere p = if r.firstWhere p = some k then none else r.firstWhere p := by
  have herased : ∀ i i' a a', (r.erase k).find i = some a → (r.erase k).find i' = some a' →
      p a = true → p a' = true → i = i' := by
    intro i i' a a' ha ha'
    rw [find_erase] at ha ha'
    split_ifs at ha ha'
    exact h i i' a a' ha ha'
  apply Option.ext
  intro i
  rw [firstWhere_iff herased]
  simp only [find_erase]
  by_cases hi : i = k
  · subst hi
    simp
  · simp only [if_neg hi, ← firstWhere_iff h]
    split_ifs with hk
    · rw [hk]
      simp [Ne.symm hi]
    · exact Iff.rfl

end search

/-! ### Lists by the key of their items -/

theorem filter_flatMap_entries {r : Registry κ (List α)} {key : α → κ}
    (h : ∀ k l, r.find k = some l → ∀ a ∈ l, key a = k) (k : κ) :
    (r.entries.flatMap Prod.snd).filter (fun a => key a = k) = (r.find k).getD [] := by
  have hall : ∀ es : List (κ × List α), (es.map Prod.fst).Nodup →
      (∀ e ∈ es, ∀ a ∈ e.2, key a = e.1) → (es.flatMap Prod.snd).filter (fun a => key a = k) =
        ((es.find? fun e => e.1 = k).map Prod.snd).getD [] := by
    intro es hnodup hes
    induction es with
    | nil => rfl
    | cons e es ih =>
      obtain ⟨he, hrest⟩ := List.nodup_cons.mp hnodup
      have htail := ih hrest fun e' he' => hes e' (List.mem_cons_of_mem e he')
      rw [List.flatMap_cons, List.filter_append, htail]
      by_cases hkey : e.1 = k
      · have hnone : es.find? (fun e => e.1 = k) = none := by
          rw [List.find?_eq_none]
          intro e' he' heq
          apply he
          rw [hkey, ← of_decide_eq_true heq]
          exact List.mem_map_of_mem he'
        have hself : e.2.filter (fun a => key a = k) = e.2 := by
          apply List.filter_eq_self.mpr
          intro a ha
          rw [decide_eq_true_eq, hes e List.mem_cons_self a ha, hkey]
        rw [hself, hnone, List.find?_cons_of_pos (by simpa using hkey)]
        simp
      · have hnil : e.2.filter (fun a => key a = k) = [] := by
          apply List.filter_eq_nil_iff.mpr
          intro a ha
          rw [decide_eq_true_eq, hes e List.mem_cons_self a ha]
          exact hkey
        rw [hnil, List.nil_append, List.find?_cons_of_neg (by simpa using hkey)]
  exact hall r.entries r.nodup fun e he => h e.1 e.2 ((find_eq_some_iff _ _ _).mpr he)

/-! ### Indexes by an optional key -/

section keyed
variable {ρ : Type*} [DecidableEq ρ] {key : ρ → Option κ} {t : Registry κ ρ} {x : ρ}

def IndexBy (key : ρ → Option κ) (t : Registry κ ρ) : Prop :=
  ∀ k x, t.find k = some x ↔ key x = some k

omit [DecidableEq ρ] in
def insertKey (o : Option κ) (x : ρ) (t : Registry κ ρ) : Registry κ ρ :=
  match o with
  | some k => t.insertNew k x
  | none => t

omit [DecidableEq ρ] in
def eraseKey (o : Option κ) (t : Registry κ ρ) : Registry κ ρ :=
  match o with
  | some k => t.erase k
  | none => t

omit [DecidableEq ρ] in
theorem indexBy_empty : IndexBy (fun _ : ρ => none) (empty : Registry κ ρ) := by
  intro k x
  simp

theorem IndexBy.insertKey (h : IndexBy key t) (hx : key x = none) {o : Option κ}
    (ho : ∀ k, o = some k → t.find k = none) :
    IndexBy (fun y => if y = x then o else key y) (t.insertKey o x) := by
  intro k y
  have hnot : t.find k ≠ some x := by
    intro hk
    rw [h k x, hx] at hk
    cases hk
  cases o with
  | none =>
    show t.find k = some y ↔ _
    by_cases hy : y = x
    · simp [hy, hnot]
    · simp [hy, h k y]
  | some k' =>
    show (t.insertNew k' x).find k = some y ↔ _
    rw [find_insertNew]
    by_cases hk : k' = k
    · subst hk
      rw [ho k' rfl, if_pos rfl, Option.none_or]
      by_cases hy : y = x
      · simp [hy]
      · have hno : key y ≠ some k' := by
          rw [Ne, ← h k' y, ho k' rfl]
          simp
        simp [hy, hno, Ne.symm hy]
    · rw [if_neg hk, Option.or_none]
      by_cases hy : y = x
      · simp [hy, hnot, hk]
      · simp [hy, h k y]

theorem IndexBy.eraseKey (h : IndexBy key t) (x : ρ) :
    IndexBy (fun y => if y = x then none else key y) (t.eraseKey (key x)) := by
  intro k y
  cases hx : key x with
  | none =>
    show t.find k = some y ↔ _
    rw [h k y]
    by_cases hy : y = x
    · simp [hy, hx]
    · simp [hy]
  | some k' =>
    show (t.erase k').find k = some y ↔ _
    rw [find_erase]
    by_cases hk : k = k'
    · subst hk
      rw [if_pos rfl]
      by_cases hy : y = x
      · simp [hy]
      · have hfind := (h k x).mpr hx
        have hno : key y ≠ some k := by
          rw [Ne, ← h k y, hfind, Option.some.injEq]
          exact Ne.symm hy
        simp [hy, hno]
    · rw [if_neg hk, h k y]
      by_cases hy : y = x
      · simp [hy, hx, Ne.symm hk]
      · simp [hy]

end keyed

end Registry
end ChatServices.Lib
