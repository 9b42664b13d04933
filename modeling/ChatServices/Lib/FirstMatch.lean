import Mathlib.Data.List.Basic

/-! What a list says last about a matter, and folds of writes that are settled by it. -/
namespace ChatServices.Lib.Latest
variable {α β σ : Type*} {f : α → Option β} {l : List α}

def latest (f : α → Option β) (l : List α) : Option β := (l.filterMap f).getLast?

theorem latest_cons (a : α) (l : List α) : latest f (a :: l) = (latest f l).or (f a) := by
  rw [latest, latest, List.filterMap_cons]
  cases f a with
  | none => simp
  | some b => simp [List.getLast?_cons, Option.or_some]

theorem latest_map {γ : Type*} (g : β → γ) (f : α → Option β) (l : List α) :
    latest (fun a => (f a).map g) l = (latest f l).map g := by
  induction l with
  | nil => rfl
  | cons a l ih =>
    rw [latest_cons, latest_cons, ih]
    cases latest f l with
    | none => rfl
    | some b => rfl

theorem latest_congr {f' : α → Option β} (h : ∀ a ∈ l, f a = f' a) : latest f l = latest f' l := by
  have hlist : l.filterMap f = l.filterMap f' := List.filterMap_congr h
  rw [latest, latest, hlist]

theorem latest_mem {b : β} (h : latest f l = some b) : ∃ a ∈ l, f a = some b := by
  have hmem := List.mem_of_getLast? h
  rwa [List.mem_filterMap] at hmem

theorem read_foldl (read : σ → β) {write : σ → α → σ} (l : List α) (s : σ)
    (h : ∀ s, ∀ a ∈ l, read (write s a) = (f a).getD (read s)) :
    read (l.foldl write s) = (latest f l).getD (read s) := by
  induction l generalizing s with
  | nil => rfl
  | cons a l ih =>
    have hrest := ih (write s a) fun s b hb => h s b (List.mem_cons_of_mem a hb)
    have hhead := h s a List.mem_cons_self
    rw [List.foldl_cons, hrest, hhead, latest_cons]
    cases latest f l with
    | none => rfl
    | some b => rfl

end ChatServices.Lib.Latest

/-! The first element of a list that passes a test: a change made to it, and the first one among
the elements that are still good. -/
namespace ChatServices.Lib.FirstMatch
variable {α β : Type*} {p : α → Bool} {f : α → α} {xs : List α} {a : α}

def updateFirst (p : α → Bool) (f : α → α) : List α → List α
  | [] => []
  | x :: xs => if p x then f x :: xs else x :: updateFirst p f xs

theorem updateFirst_split (h : xs.find? p = some a) :
    ∃ l r, xs = l ++ a :: r ∧ updateFirst p f xs = l ++ f a :: r ∧ p a = true ∧
      ∀ x ∈ l, p x = false := by
  induction xs with
  | nil => cases h
  | cons x xs ih =>
    by_cases hx : p x = true
    · have ha : x = a := by simpa [List.find?_cons, hx] using h
      subst ha
      exact ⟨[], xs, rfl, by simp [updateFirst, hx], hx, by simp⟩
    · have htail : xs.find? p = some a := by simpa [List.find?_cons, hx] using h
      obtain ⟨l, r, hxs, hup, ha, hl⟩ := ih htail
      have hfalse : p x = false := by simpa using hx
      refine ⟨x :: l, r, by simp [hxs], by simp [updateFirst, hx, hup], ha, ?_⟩
      intro y hy
      cases hy with
      | head => exact hfalse
      | tail _ hmem => exact hl y hmem

theorem mem_updateFirst (h : xs.find? p = some a) {x : α} (hx : x ∈ updateFirst p f xs) :
    x ∈ xs ∨ x = f a := by
  obtain ⟨l, r, hxs, hup, -, -⟩ := updateFirst_split (f := f) h
  rw [hup, List.mem_append, List.mem_cons] at hx
  rw [hxs, List.mem_append, List.mem_cons]
  tauto

theorem map_updateFirst (g : α → β) (hg : ∀ x, g (f x) = g x) :
    (updateFirst p f xs).map g = xs.map g := by
  induction xs with
  | nil => rfl
  | cons x xs ih =>
    rw [updateFirst]
    split
    · simp [hg]
    · simp [ih]

theorem find_filter_of {good : α → Bool} (h : xs.find? p = some a) (ha : good a = true) :
    (xs.filter good).find? p = some a := by
  induction xs with
  | nil => cases h
  | cons x xs ih =>
    cases hx : p x with
    | true =>
      have hax : x = a := by simpa [List.find?_cons, hx] using h
      subst hax
      simp [ha, hx]
    | false =>
      have htail : xs.find? p = some a := by simpa [List.find?_cons, hx] using h
      have hrest := ih htail
      cases hgood : good x with
      | true => simpa [hgood, List.find?_cons, hx] using hrest
      | false => simpa [hgood] using hrest

theorem find_filter_none {good : α → Bool} (h : xs.find? p = none) :
    (xs.filter good).find? p = none := by
  rw [List.find?_eq_none] at h ⊢
  exact fun x hx => h x (List.mem_of_mem_filter hx)

end ChatServices.Lib.FirstMatch
