import Mathlib.Data.List.Infix

/-! Patterns of single items and stars: the words a pattern matches, what a search with one
saved point has left to find, and when every word of one pattern is a word of another. -/
namespace ChatServices.Lib.Glob
variable {τ α : Type*}

inductive Item (τ : Type*) where
  | one (t : τ)
  | many
  deriving DecidableEq, Repr

section language
variable (sat : τ → α → Bool)

def Matches : List (Item τ) → List α → Prop
  | [], x => x = []
  | .one t :: q, x => ∃ a y, x = a :: y ∧ sat t a = true ∧ Matches q y
  | .many :: q, x => ∃ y, y <:+ x ∧ Matches q y

variable {sat} {q r : List (Item τ)} {x y : List α}

@[simp] theorem matches_nil : Matches sat [] x ↔ x = [] := Iff.rfl

theorem matches_one {t : τ} {a : α} :
    Matches sat (.one t :: q) (a :: x) ↔ sat t a = true ∧ Matches sat q x := by
  simp [Matches]

theorem not_matches_one_nil {t : τ} : ¬ Matches sat (.one t :: q) [] := by
  simp [Matches]

theorem matches_many_many : Matches sat (.many :: .many :: q) x ↔ Matches sat (.many :: q) x := by
  constructor
  · rintro ⟨y, hyx, z, hzy, hz⟩
    exact ⟨z, hzy.trans hyx, hz⟩
  · rintro ⟨y, hyx, hy⟩
    exact ⟨x, List.suffix_refl x, y, hyx, hy⟩

theorem Matches.many_suffix (h : Matches sat (.many :: q) y) (hyx : y <:+ x) :
    Matches sat (.many :: q) x := by
  obtain ⟨z, hzy, hz⟩ := h
  exact ⟨z, hzy.trans hyx, hz⟩

theorem matches_star (x : List α) : Matches sat [.many] x := ⟨[], List.nil_suffix, rfl⟩

theorem matches_congr {sat' : τ → α → Bool}
    (h : ∀ t, .one t ∈ q → ∀ a ∈ x, sat t a = sat' t a) :
    Matches sat q x ↔ Matches sat' q x := by
  induction q generalizing x with
  | nil => rfl
  | cons i q ih =>
    have hq : ∀ y, y <:+ x → (Matches sat q y ↔ Matches sat' q y) := fun y hyx =>
      ih fun t ht a ha => h t (List.mem_cons_of_mem i ht) a (hyx.subset ha)
    cases i with
    | many => exact exists_congr fun y => and_congr_right fun hyx => hq y hyx
    | one t =>
      cases x with
      | nil => simp [Matches]
      | cons a x =>
        rw [matches_one, matches_one, hq x (List.suffix_cons a x),
          h t List.mem_cons_self a List.mem_cons_self]

theorem matches_append_congr (p : List (Item τ)) (h : ∀ y, Matches sat q y ↔ Matches sat r y) :
    Matches sat (p ++ q) x ↔ Matches sat (p ++ r) x := by
  induction p generalizing x with
  | nil => exact h x
  | cons i p ih =>
    cases i with
    | many => exact exists_congr fun y => and_congr_right fun _ => ih
    | one t =>
      cases x with
      | nil => simp [Matches]
      | cons a x => rw [List.cons_append, List.cons_append, matches_one, matches_one, ih]

theorem matches_many_free_many {t : τ} (ht : ∀ a, sat t a = true) :
    Matches sat (.many :: .one t :: .many :: q) x ↔ Matches sat (.many :: .one t :: q) x := by
  constructor
  · rintro ⟨y, hyx, a, w, rfl, -, z, hzw, hz⟩
    obtain ⟨v, rfl⟩ := hzw
    obtain ⟨u, b, hub⟩ : ∃ u b, a :: v = u ++ [b] :=
      ⟨_, _, (List.dropLast_concat_getLast (List.cons_ne_nil a v)).symm⟩
    refine ⟨b :: z, List.IsSuffix.trans ⟨u, ?_⟩ hyx, b, z, rfl, ht b, hz⟩
    rw [← List.cons_append, hub]
    simp
  · rintro ⟨y, hyx, a, w, rfl, ha, hw⟩
    exact ⟨a :: w, hyx, a, w, rfl, ha, w, List.suffix_refl w, hw⟩

theorem matches_many_frees_many (ts : List τ) (hts : ∀ t ∈ ts, ∀ a, sat t a = true) :
    Matches sat (.many :: (ts.map .one ++ .many :: q)) x ↔
      Matches sat (.many :: (ts.map .one ++ q)) x := by
  induction ts generalizing x with
  | nil => exact matches_many_many
  | cons t ts ih =>
    have ht := hts t List.mem_cons_self
    have hrest : ∀ y, Matches sat (.many :: (ts.map .one ++ .many :: q)) y ↔
        Matches sat (.many :: (ts.map .one ++ q)) y := fun y =>
      ih fun t' ht' => hts t' (List.mem_cons_of_mem t ht')
    calc Matches sat (.many :: .one t :: (ts.map .one ++ .many :: q)) x
        ↔ Matches sat (.many :: .one t :: .many :: (ts.map .one ++ .many :: q)) x :=
          (matches_many_free_many ht).symm
      _ ↔ Matches sat (.many :: .one t :: .many :: (ts.map .one ++ q)) x :=
          matches_append_congr [.many, .one t] hrest
      _ ↔ Matches sat (.many :: .one t :: (ts.map .one ++ q)) x := matches_many_free_many ht

theorem matches_ones_append (ts : List τ) (h : Matches sat (ts.map .one ++ q) x) :
    ∃ z, z <:+ x ∧ z.length + ts.length = x.length ∧ Matches sat q z := by
  induction ts generalizing x with
  | nil => exact ⟨x, List.suffix_refl x, rfl, h⟩
  | cons t ts ih =>
    obtain ⟨a, y, rfl, -, hy⟩ := h
    obtain ⟨z, hzy, hlen, hz⟩ := ih hy
    refine ⟨z, hzy.trans (List.suffix_cons a y), ?_, hz⟩
    simp only [List.length_cons]
    omega

/-! A word of one pattern none of whose ends is a word of the other. -/

def Apart (sat : τ → α → Bool) (q r : List (Item τ)) : Prop :=
  ∃ x, Matches sat q x ∧ ∀ y, y <:+ x → ¬ Matches sat r y

theorem Apart.not_same (h : Apart sat q r) : ¬ ∀ x, Matches sat r x ↔ Matches sat q x := by
  obtain ⟨x, hx, hnot⟩ := h
  exact fun hsame => hnot x (List.suffix_refl x) ((hsame x).mpr hx)

theorem Apart.congr_left {q' : List (Item τ)} (h : Apart sat q r)
    (hq : ∀ x, Matches sat q' x ↔ Matches sat q x) : Apart sat q' r := by
  obtain ⟨x, hx, hnot⟩ := h
  exact ⟨x, (hq x).mpr hx, hnot⟩

theorem Apart.many (h : Apart sat q r) : Apart sat (.many :: q) (.many :: r) := by
  obtain ⟨x, hx, hnot⟩ := h
  refine ⟨x, ⟨x, List.suffix_refl x, hx⟩, ?_⟩
  rintro y hyx ⟨z, hzy, hz⟩
  exact hnot z (hzy.trans hyx) hz

theorem Apart.one {t : τ} {a : α} (ha : sat t a = true) (h : Apart sat q r) :
    Apart sat (.one t :: q) (.one t :: r) := by
  obtain ⟨x, hx, hnot⟩ := h
  refine ⟨a :: x, matches_one.mpr ⟨ha, hx⟩, ?_⟩
  rintro y hyx ⟨b, z, rfl, -, hz⟩
  refine hnot z ?_ hz
  have hle := hyx.length_le
  simp only [List.length_cons] at hle
  exact List.suffix_of_suffix_length_le ((List.suffix_cons b z).trans hyx) (List.suffix_cons a x)
    (by omega)

theorem Apart.ones (hsat : ∀ t, ∃ a, sat t a = true) (ts : List τ) (h : Apart sat q r) :
    Apart sat (ts.map .one ++ q) (ts.map .one ++ r) := by
  induction ts with
  | nil => exact h
  | cons t ts ih =>
    obtain ⟨a, ha⟩ := hsat t
    exact ih.one ha

end language

/-! ### A search that keeps one saved point -/

section search
variable (sat : τ → α → Bool)

def Reachable (q : List (Item τ)) (x : List α) (saved : Option (List (Item τ) × List α)) : Prop :=
  Matches sat q x ∨ ∃ p ∈ saved, ∃ y, y <:+ p.2.tail ∧ Matches sat p.1 y

def Aligned (q : List (Item τ)) (x : List α) (saved : Option (List (Item τ) × List α)) : Prop :=
  ∀ p ∈ saved, ∃ ts : List τ, p.1 = ts.map .one ++ q ∧ x <:+ p.2 ∧
    x.length + ts.length = p.2.length

variable {sat} {q q' : List (Item τ)} {x x' : List α} {saved : Option (List (Item τ) × List α)}

theorem aligned_self : Aligned q x (some (q, x)) := by
  intro p hp
  obtain rfl := Option.some.inj hp
  exact ⟨[], rfl, List.suffix_refl x, rfl⟩

theorem Aligned.advance {t : τ} {a : α} (h : Aligned (.one t :: q) (a :: x) saved) :
    Aligned q x saved := by
  intro p hp
  obtain ⟨ts, hq, hx, hlen⟩ := h p hp
  refine ⟨ts ++ [t], by simp [hq], (List.suffix_cons a x).trans hx, ?_⟩
  simp only [List.length_cons, List.length_append, List.length_nil] at hlen ⊢
  omega

theorem reachable_advance {t : τ} {a : α} (ha : sat t a = true) :
    Reachable sat (.one t :: q) (a :: x) saved ↔ Reachable sat q x saved := by
  simp [Reachable, matches_one, ha]

theorem reachable_retry (hfail : ¬ Matches sat q x) :
    Reachable sat q x (some (q', x')) ↔ Reachable sat q' x'.tail (some (q', x'.tail)) := by
  have hstart : (∃ y, y <:+ x'.tail ∧ Matches sat q' y) ↔
      Matches sat q' x'.tail ∨ ∃ y, y <:+ x'.tail.tail ∧ Matches sat q' y := by
    constructor
    · rintro ⟨y, hsuf, hy⟩
      cases htail : x'.tail with
      | nil =>
        rw [htail, List.suffix_nil] at hsuf
        exact Or.inl (hsuf ▸ hy)
      | cons a z =>
        rw [htail, List.suffix_cons_iff] at hsuf
        obtain rfl | hsuf := hsuf
        · exact Or.inl hy
        · exact Or.inr ⟨y, hsuf, hy⟩
    · rintro (hy | ⟨y, hsuf, hy⟩)
      · exact ⟨_, List.suffix_refl _, hy⟩
      · exact ⟨y, hsuf.trans (List.tail_suffix _), hy⟩
  simp only [Reachable, Option.mem_def, Option.some.injEq, exists_eq_left', hfail, false_or]
  exact hstart

theorem reachable_failed (hfail : ¬ Matches sat q x) : ¬ Reachable sat q x none := by
  simp [Reachable, hfail]

theorem reachable_saved : Reachable sat q x (some (q, x)) ↔ Matches sat (.many :: q) x := by
  constructor
  · rintro (h | ⟨p, hp, y, hsuf, hy⟩)
    · exact ⟨x, List.suffix_refl x, h⟩
    · obtain rfl := Option.some.inj hp
      exact ⟨y, hsuf.trans (List.tail_suffix x), hy⟩
  · rintro ⟨y, hsuf, hy⟩
    cases x with
    | nil => exact Or.inl (List.suffix_nil.mp hsuf ▸ hy)
    | cons a z =>
      obtain rfl | hsuf := List.suffix_cons_iff.mp hsuf
      · exact Or.inl hy
      · exact Or.inr ⟨_, rfl, y, hsuf, hy⟩

theorem reachable_star (halign : Aligned (.many :: q) x saved) :
    Reachable sat (.many :: q) x saved ↔ Reachable sat q x (some (q, x)) := by
  rw [reachable_saved, Reachable]
  constructor
  · rintro (h | ⟨p, hp, y, hsuf, hy⟩)
    · exact h
    · -- a later start leaves less of the word for the star than there is here
      obtain ⟨ts, hq, hx, hlen⟩ := halign p hp
      rw [hq] at hy
      obtain ⟨z, hzy, hzlen, hz⟩ := matches_ones_append ts hy
      have hzp : z <:+ p.2 := hzy.trans (hsuf.trans (List.tail_suffix _))
      have hle := (hsuf.trans (List.tail_suffix _)).length_le
      exact hz.many_suffix (List.suffix_of_suffix_length_le hzp hx (by omega))
  · exact Or.inl

theorem not_reachable_nil {t : τ} (halign : Aligned (.one t :: q) ([] : List α) saved) :
    ¬ Reachable sat (.one t :: q) [] saved := by
  rintro (h | ⟨p, hp, y, hsuf, hy⟩)
  · exact not_matches_one_nil h
  · obtain ⟨ts, hq, -, hlen⟩ := halign p hp
    rw [hq] at hy
    obtain ⟨z, -, hzlen, hz⟩ := matches_ones_append ts hy
    obtain ⟨a, w, rfl, -, -⟩ := hz
    have hle := hsuf.length_le
    simp only [List.length_tail, List.length_nil, List.length_cons] at hle hlen hzlen
    omega

theorem Aligned.tail_ne_nil {a : α} (h : Aligned ([] : List (Item τ)) (a :: x) (some (q', x')))
    (hq' : q' ≠ []) : ∃ b z, x'.tail = b :: z := by
  obtain ⟨ts, hq, -, hlen⟩ := h _ rfl
  rw [List.append_nil] at hq
  have hpos : 0 < ts.length := by
    rw [List.length_pos_iff]
    rintro rfl
    exact hq' hq
  cases htail : x'.tail with
  | cons b z => exact ⟨b, z, rfl⟩
  | nil =>
    have hlen' := congrArg List.length htail
    simp only [List.length_tail, List.length_nil, List.length_cons] at hlen hlen'
    omega

end search

/-! ### Inclusion -/

section inclusion
variable (le : τ → τ → Bool)

/-- Every item of the second pattern stands under an item of the first that takes in all it
matches; stars stand under stars only. -/
def covers : List (Item τ) → List (Item τ) → Bool
  | [], p => p.isEmpty
  | .many :: q, p => p.tails.any fun s => covers q s
  | .one t :: q, .one t' :: p => le t' t && covers q p
  | .one _ :: _, _ => false

variable {le} {sat : τ → α → Bool}

theorem Matches.drop_suffix {p s : List (Item τ)} {x : List α} (hs : s <:+ p)
    (h : Matches sat p x) : ∃ y, y <:+ x ∧ Matches sat s y := by
  induction p generalizing x with
  | nil =>
    rw [List.suffix_nil.mp hs]
    exact ⟨x, List.suffix_refl x, h⟩
  | cons i p ih =>
    obtain rfl | hsuf := List.suffix_cons_iff.mp hs
    · exact ⟨x, List.suffix_refl x, h⟩
    · cases i with
      | one t =>
        obtain ⟨a, y, rfl, -, hy⟩ := h
        obtain ⟨z, hzy, hz⟩ := ih hsuf hy
        exact ⟨z, hzy.trans (List.suffix_cons a y), hz⟩
      | many =>
        obtain ⟨y, hyx, hy⟩ := h
        obtain ⟨z, hzy, hz⟩ := ih hsuf hy
        exact ⟨z, hzy.trans hyx, hz⟩

theorem matches_of_covers (hle : ∀ t t' a, le t' t = true → sat t' a = true → sat t a = true)
    {q p : List (Item τ)} {x : List α} (h : covers le q p = true) (hx : Matches sat p x) :
    Matches sat q x := by
  induction q generalizing p x with
  | nil =>
    rw [covers, List.isEmpty_iff] at h
    exact h ▸ hx
  | cons i q ih =>
    cases i with
    | many =>
      rw [covers, List.any_eq_true] at h
      obtain ⟨s, hs, hcov⟩ := h
      obtain ⟨y, hyx, hy⟩ := hx.drop_suffix ((List.mem_tails _ _).mp hs)
      exact ⟨y, hyx, ih hcov hy⟩
    | one t =>
      cases p with
      | nil => simp [covers] at h
      | cons j p =>
        cases j with
        | many => simp [covers] at h
        | one t' =>
          rw [covers, Bool.and_eq_true] at h
          obtain ⟨a, y, rfl, ha, hy⟩ := hx
          exact ⟨a, y, rfl, hle t t' a h.1 ha, ih h.2 hy⟩

end inclusion
end ChatServices.Lib.Glob
