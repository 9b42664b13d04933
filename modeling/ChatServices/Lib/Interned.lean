import ChatServices.Lib.Registry

/-! Shared texts: one place for each text, with the number of its holders. A text that somebody
holds stays where it is, and two holders of one text hold one place. -/
namespace ChatServices.Lib
variable {τ : Type*} [DecidableEq τ]

structure Interned (τ : Type*) where
  places : Registry Nat (τ × Nat)

abbrev Allocator := (used : List Nat) → { p : Nat // p ∉ used }

def Allocator.above : Allocator := fun used =>
  ⟨used.max?.getD 0 + 1, fun h => by
    have hle : used.max?.getD 0 + 1 ≤ used.max?.getD 0 := List.le_max?_getD_of_mem h
    omega⟩

namespace Interned

section operations
variable (t : Interned τ)

omit [DecidableEq τ] in
def text (p : Nat) : Option τ := (t.places.find p).map Prod.fst

omit [DecidableEq τ] in
def holders (p : Nat) : Nat := ((t.places.find p).map Prod.snd).getD 0

def get (alloc : Allocator) (x : τ) : Nat × Interned τ :=
  match t.places.firstWhere fun e => e.1 = x with
  | some p => (p, ⟨t.places.modify p fun e => (e.1, e.2 + 1)⟩)
  | none =>
    let p := (alloc (t.places.entries.map Prod.fst)).1
    (p, ⟨t.places.insertNew p (x, 1)⟩)

omit [DecidableEq τ] in
def unref (p : Nat) : Interned τ :=
  ⟨t.places.update fun q e =>
    if q = p then (if e.2 - 1 = 0 then none else some (e.1, e.2 - 1)) else some e⟩

end operations

structure Held (t : Interned τ) (hs : List Nat) : Prop where
  inj : ∀ p q x, t.text p = some x → t.text q = some x → p = q
  counted : ∀ p, hs.count p ≤ t.holders p

section rules
variable {t : Interned τ} {hs hs' : List Nat} {p q : Nat}

omit [DecidableEq τ] in
theorem empty_held : Held (⟨.empty⟩ : Interned τ) [] :=
  ⟨fun _ _ _ h => by simp [text] at h, fun _ => Nat.zero_le _⟩

omit [DecidableEq τ] in
theorem Held.perm (h : Held t hs) (hperm : hs.Perm hs') : Held t hs' :=
  ⟨h.inj, fun p => hperm.count_eq p ▸ h.counted p⟩

omit [DecidableEq τ] in
theorem Held.exists_text (h : Held t hs) (hp : p ∈ hs) : ∃ x, t.text p = some x := by
  have hpos : 0 < t.holders p := Nat.lt_of_lt_of_le (List.count_pos_iff.mpr hp) (h.counted p)
  rw [holders] at hpos
  rw [text]
  cases hfind : t.places.find p with
  | none => simp [hfind] at hpos
  | some e => exact ⟨e.1, rfl⟩

omit [DecidableEq τ] in
theorem Held.eq_iff (h : Held t hs) (hp : p ∈ hs) : p = q ↔ t.text p = t.text q := by
  constructor
  · rintro rfl
    rfl
  · intro heq
    obtain ⟨x, hx⟩ := h.exists_text hp
    exact h.inj p q x hx (heq ▸ hx)

theorem Held.get (h : Held t hs) (alloc : Allocator) (x : τ) :
    Held (t.get alloc x).2 ((t.get alloc x).1 :: hs) ∧
      (t.get alloc x).2.text (t.get alloc x).1 = some x ∧
      ∀ p ∈ hs, (t.get alloc x).2.text p = t.text p := by
  cases hfirst : t.places.firstWhere fun e => decide (e.1 = x) with
  | some p =>
    obtain ⟨e, he, hx⟩ := Registry.firstWhere_some hfirst
    have hget : t.get alloc x = (p, ⟨t.places.modify p fun e => (e.1, e.2 + 1)⟩) := by
      rw [Interned.get, hfirst]
    have htext : ∀ q, (t.get alloc x).2.text q = t.text q := by
      intro q
      rw [hget]
      by_cases hq : q = p <;> simp [text, hq, he]
    refine ⟨⟨?_, ?_⟩, ?_, fun q _ => htext q⟩
    · intro a b y ha hb
      rw [htext] at ha hb
      exact h.inj a b y ha hb
    · intro q
      have hold := h.counted q
      rw [hget]
      rw [holders] at hold ⊢
      by_cases hq : q = p
      · subst hq
        rw [he] at hold
        simp only [List.count_cons_self, Registry.find_modify, if_pos, he, Option.map_some,
          Option.getD_some] at hold ⊢
        omega
      · rw [List.count_cons_of_ne (Ne.symm hq), Registry.find_modify, if_neg hq]
        exact hold
    · rw [htext, hget, text, he, Option.map_some, of_decide_eq_true hx]
  | none =>
    obtain ⟨p, hp⟩ : ∃ p, p = (alloc (t.places.entries.map Prod.fst)).1 := ⟨_, rfl⟩
    have hget : t.get alloc x = (p, ⟨t.places.insertNew p (x, 1)⟩) := by
      rw [Interned.get, hfirst, hp]
    have hfree : t.places.find p = none :=
      (Registry.find_eq_none_iff _ _).mpr (hp ▸ (alloc (t.places.entries.map Prod.fst)).2)
    have hnew : ∀ q, q ≠ p → (t.get alloc x).2.places.find q = t.places.find q := by
      intro q hq
      rw [hget, Registry.find_insertNew, if_neg (Ne.symm hq), Option.or_none]
    have hself : (t.get alloc x).2.places.find p = some (x, 1) := by
      rw [hget, Registry.find_insertNew, hfree, if_pos rfl, Option.none_or]
    have hother : ∀ q, t.text q ≠ some x := by
      intro q hq
      obtain ⟨e, he, hx⟩ := Option.map_eq_some_iff.mp hq
      have hno := Registry.firstWhere_none_iff.mp hfirst q e he
      simp [hx] at hno
    have hpnot : p ∉ hs := by
      intro hmem
      obtain ⟨y, hy⟩ := h.exists_text hmem
      rw [text, hfree] at hy
      cases hy
    have hfirst1 : (t.get alloc x).1 = p := by rw [hget]
    refine ⟨⟨?_, ?_⟩, ?_, ?_⟩
    · intro a b y ha hb
      rw [text] at ha hb
      by_cases hap : a = p
      · by_cases hbp : b = p
        · rw [hap, hbp]
        · rw [hap, hself] at ha
          rw [hnew b hbp] at hb
          have hyx : x = y := by simpa using ha
          exact absurd (hyx ▸ hb) (hother b)
      · by_cases hbp : b = p
        · rw [hbp, hself] at hb
          rw [hnew a hap] at ha
          have hyx : x = y := by simpa using hb
          exact absurd (hyx ▸ ha) (hother a)
        · rw [hnew a hap] at ha
          rw [hnew b hbp] at hb
          exact h.inj a b y ha hb
    · intro q
      rw [hfirst1, holders]
      by_cases hq : q = p
      · rw [hq, hself, List.count_cons_self, List.count_eq_zero_of_not_mem hpnot]
        exact Nat.le_refl 1
      · rw [List.count_cons_of_ne (Ne.symm hq), hnew q hq]
        exact h.counted q
    · rw [hfirst1, text, hself]
      rfl
    · intro q hmem
      have hq : q ≠ p := fun heq => hpnot (heq ▸ hmem)
      rw [text, text, hnew q hq]

omit [DecidableEq τ] in
theorem Held.unref (h : Held t (p :: hs)) :
    Held (t.unref p) hs ∧ ∀ q ∈ hs, (t.unref p).text q = t.text q := by
  have hother : ∀ q, q ≠ p → (t.unref p).places.find q = t.places.find q := by
    intro q hq
    rw [Interned.unref, Registry.find_update]
    cases t.places.find q <;> simp [hq]
  have hself : (t.unref p).places.find p = (t.places.find p).bind fun e =>
      if e.2 - 1 = 0 then none else some (e.1, e.2 - 1) := by
    rw [Interned.unref, Registry.find_update]
    cases t.places.find p <;> simp
  have hcount := h.counted p
  rw [List.count_cons_self] at hcount
  have htext : ∀ q x, (t.unref p).text q = some x → t.text q = some x := by
    intro q x hx
    by_cases hq : q = p
    · subst hq
      rw [text, hself] at hx
      cases hfind : t.places.find q with
      | none => simp [hfind] at hx
      | some e =>
        rw [hfind, Option.bind_some] at hx
        rw [text, hfind]
        split at hx
        · cases hx
        · exact hx
    · rw [text, hother q hq] at hx
      exact hx
  have hleft : hs.count p ≤ (t.unref p).holders p := by
    rw [holders] at hcount ⊢
    rw [hself]
    cases hfind : t.places.find p with
    | none => simp [hfind] at hcount
    | some e =>
      rw [hfind] at hcount
      simp only [Option.map_some, Option.getD_some, Option.bind_some] at hcount ⊢
      split
      · simp only [Option.map_none, Option.getD_none]
        omega
      · simp only [Option.map_some, Option.getD_some]
        omega
  refine ⟨⟨fun a b x ha hb => h.inj a b x (htext a x ha) (htext b x hb), ?_⟩, ?_⟩
  · intro q
    by_cases hq : q = p
    · rw [hq]
      exact hleft
    · have hold := h.counted q
      rw [List.count_cons_of_ne (Ne.symm hq)] at hold
      rw [holders, hother q hq]
      exact hold
  · intro q hmem
    by_cases hq : q = p
    · subst hq
      have hpos : 0 < (t.unref q).holders q := Nat.lt_of_lt_of_le (List.count_pos_iff.mpr hmem) hleft
      cases hfind : (t.unref q).places.find q with
      | none => simp [holders, hfind] at hpos
      | some e =>
        have hx : (t.unref q).text q = some e.1 := by rw [text, hfind]; rfl
        rw [hx, htext q e.1 hx]
    · rw [text, text, hother q hq]

end rules
end Interned
end ChatServices.Lib
