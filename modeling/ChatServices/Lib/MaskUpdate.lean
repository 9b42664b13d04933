import ChatServices.Lib.Mask
import Mathlib.Logic.Function.Basic

/-! Restricted updates of a bit mask: bits to add, bits to remove, and a bound that
the change and the mask itself have to stay within. -/
namespace ChatServices.Lib.MaskUpdate
open ChatServices.Lib.Mask
variable {w : Nat}

def added (level add : BitVec w) : BitVec w := add &&& ~~~level

def removed (level add rem : BitVec w) : BitVec w := rem &&& (level &&& ~~~added level add)

def result (level add rem : BitVec w) : BitVec w :=
  (level ||| added level add) &&& ~~~removed level add rem

def Permits (restrict level add rem : BitVec w) : Prop :=
  Sub (added level add) restrict ∧ Sub (removed level add rem) restrict ∧ Sub level restrict

instance (restrict level add rem : BitVec w) : Decidable (Permits restrict level add rem) :=
  inferInstanceAs (Decidable (_ ∧ _ ∧ _))

theorem has_added (level add : BitVec w) (i : Nat) :
    Has (added level add) i ↔ Has add i ∧ ¬ Has level i := by
  simp only [added, has_and, has_not, and_congr_right_iff]
  exact fun h => ⟨And.right, fun hn => ⟨h.lt, hn⟩⟩

theorem has_removed (level add rem : BitVec w) (i : Nat) :
    Has (removed level add rem) i ↔ Has rem i ∧ Has level i := by
  simp only [removed, has_and, has_not, has_added]
  constructor
  · exact fun h => ⟨h.1, h.2.1⟩
  · exact fun h => ⟨h.1, h.2, h.2.lt, fun ha => ha.2 h.2⟩

theorem has_result (level add rem : BitVec w) (i : Nat) :
    Has (result level add rem) i ↔ (Has level i ∧ ¬ Has rem i) ∨ (¬ Has level i ∧ Has add i) := by
  simp only [result, has_and, has_or, has_not, has_added, has_removed]
  constructor
  · rintro ⟨hl | ha, -, hr⟩
    · exact .inl ⟨hl, fun h => hr ⟨h, hl⟩⟩
    · exact .inr ⟨ha.2, ha.1⟩
  · rintro (⟨hl, hr⟩ | ⟨hl, ha⟩)
    · exact ⟨.inl hl, hl.lt, fun h => hr h.1⟩
    · exact ⟨.inr ⟨ha, hl⟩, ha.lt, fun h => hl h.2⟩

theorem result_and_not (level add rem : BitVec w) :
    result level add rem &&& ~~~level = added level add := by
  apply ext
  intro i
  rw [has_and, has_result, has_not, has_added]
  constructor
  · rintro ⟨hl | ha, -, hn⟩
    · exact absurd hl.1 hn
    · exact ⟨ha.2, hn⟩
  · exact fun h => ⟨.inr ⟨h.2, h.1⟩, h.1.lt, h.2⟩

theorem and_not_result (level add rem : BitVec w) :
    level &&& ~~~result level add rem = removed level add rem := by
  apply ext
  intro i
  rw [has_and, has_not, has_result, has_removed]
  constructor
  · rintro ⟨hl, -, hn⟩
    exact ⟨by_contra fun hr => hn (.inl ⟨hl, hr⟩), hl⟩
  · rintro ⟨hr, hl⟩
    refine ⟨hl, hl.lt, ?_⟩
    rintro (h | h)
    · exact h.2 hr
    · exact h.1 hl

theorem result_eq_masks (level add rem : BitVec w) :
    result level add rem =
    (level ||| add) &&& ~~~(rem &&& ~~~(add &&& ~~~level)) := by
  apply ext
  intro i
  simp only [has_result, has_and, has_or, has_not]
  by_cases hl : Has level i
  · have := hl.lt
    simp [hl, this]
  · constructor
    · intro h
      have ha : Has add i := by simpa [hl] using h
      have := ha.lt
      simp [hl, ha, this]
    · intro h
      simp only [hl, false_or] at h
      exact .inr ⟨hl, h.1⟩

theorem result_differs (level add rem : BitVec w) (i : Nat) :
    ¬ (Has (result level add rem) i ↔ Has level i) ↔
      Has (added level add) i ∨ Has (removed level add rem) i := by
  rw [has_result, has_added, has_removed]
  by_cases hl : Has level i <;> simp [hl]

def touched (level add rem : BitVec w) : BitVec w := added level add ||| removed level add rem

theorem has_touched (level add rem : BitVec w) (i : Nat) :
    Has (touched level add rem) i ↔ Has (added level add) i ∨ Has (removed level add rem) i :=
  has_or _ _ i

theorem result_eq_self_iff (level add rem : BitVec w) :
    result level add rem = level ↔ added level add ||| removed level add rem = 0#w := by
  rw [eq_zero_iff]
  constructor
  · intro h i hi
    exact (result_differs level add rem i).mpr ((has_or _ _ i).mp hi) (by rw [h])
  · intro h
    apply ext
    intro i
    by_contra hne
    exact h i ((has_or _ _ i).mpr ((result_differs level add rem i).mp hne))

theorem result_sub {level add rem m : BitVec w} (hl : Sub level m) (ha : Sub add m) :
    Sub (result level add rem) m := by
  rw [sub_iff]
  intro i hi
  rcases (has_result level add rem i).mp hi with h | h
  · exact hl.has h.1
  · exact ha.has h.2

theorem Permits.result_sub {restrict level add rem : BitVec w}
    (h : Permits restrict level add rem) : Sub (result level add rem) restrict := by
  rw [sub_iff]
  intro i hi
  rcases (has_result level add rem i).mp hi with hl | ha
  · exact h.2.2.has hl.1
  · exact h.1.has ((has_added level add i).mpr ⟨ha.2, ha.1⟩)

theorem permits_of_sub {restrict level add rem : BitVec w} (hl : Sub level restrict)
    (ha : Sub add restrict) : Permits restrict level add rem := by
  refine ⟨(sub_iff _ _).mpr fun i hi => ?_, (sub_iff _ _).mpr fun i hi => ?_, hl⟩
  · exact ha.has ((has_added _ _ i).mp hi).1
  · exact hl.has ((has_removed _ _ _ i).mp hi).2

@[simp] theorem result_zero_level (add rem : BitVec w) : result 0#w add rem = add := by
  apply ext
  intro i
  simp [has_result]

theorem result_replace {level new m : BitVec w} (hl : Sub level m) (hn : Sub new m) :
    result level (new &&& m) (~~~new &&& m) = new := by
  apply ext
  intro i
  rw [has_result, has_and, has_and, has_not]
  constructor
  · rintro (⟨h, hkept⟩ | ⟨-, h⟩)
    · by_contra hno
      exact hkept ⟨⟨h.lt, hno⟩, hl.has h⟩
    · exact h.1
  · intro h
    by_cases hlevel : Has level i
    · exact .inl ⟨hlevel, fun hr => hr.1.2 h⟩
    · exact .inr ⟨hlevel, h, hn.has h⟩

theorem Permits.differs_mem {restrict level add rem : BitVec w}
    (h : Permits restrict level add rem) {i : Nat}
    (hd : ¬ (Has (result level add rem) i ↔ Has level i)) : Has restrict i := by
  rcases (result_differs level add rem i).mp hd with ha | hr
  · exact h.1.has ha
  · exact h.2.1.has hr

end ChatServices.Lib.MaskUpdate

/-! Rights of subjects as one bit mask each, changed by restricted updates of single
subjects; a change is confined when every bit that differs was allowed to. -/
namespace ChatServices.Lib.Rights
open ChatServices.Lib.Mask ChatServices.Lib.MaskUpdate
variable {κ : Type*} {w : Nat}

def Differs (r r' : κ → BitVec w) (k : κ) (i : Nat) : Prop := ¬ (Has (r' k) i ↔ Has (r k) i)

def Confined (bound : κ → Nat → Prop) (r r' : κ → BitVec w) : Prop :=
  ∀ k i, Differs r r' k i → bound k i

theorem differs_self (r : κ → BitVec w) (k : κ) (i : Nat) : ¬ Differs r r k i :=
  not_not_intro Iff.rfl

theorem differs_of_gained {r r' : κ → BitVec w} {k : κ} {i : Nat} (h' : Has (r' k) i)
    (h : ¬ Has (r k) i) : Differs r r' k i :=
  fun hi => h (hi.mp h')

theorem differs_of_lost {r r' : κ → BitVec w} {k : κ} {i : Nat} (h : Has (r k) i)
    (h' : ¬ Has (r' k) i) : Differs r r' k i :=
  fun hi => h' (hi.mpr h)

theorem eq_of_not_differs {r r' : κ → BitVec w} {k : κ} (h : ∀ i, ¬ Differs r r' k i) :
    r' k = r k :=
  ext fun i => not_not.mp (h i)

variable [DecidableEq κ]

/-- One subject's mask updated, as far as `restrict` permits it. -/
structure Update (r r' : κ → BitVec w) (k : κ) (add rem restrict : BitVec w) : Prop where
  permits : Permits restrict (r k) add rem
  eq : r' = Function.update r k (result (r k) add rem)

section update
variable {r r' : κ → BitVec w} {k : κ} {add rem restrict : BitVec w}

theorem Update.self (h : Update r r' k add rem restrict) : r' k = result (r k) add rem := by
  rw [h.eq, Function.update_self]

theorem Update.other (h : Update r r' k add rem restrict) {k' : κ} (hk : k' ≠ k) :
    r' k' = r k' := by
  rw [h.eq, Function.update_of_ne hk]

theorem Update.differs_iff (h : Update r r' k add rem restrict) (k' : κ) (i : Nat) :
    Differs r r' k' i ↔
      k' = k ∧ (Has (added (r k) add) i ∨ Has (removed (r k) add rem) i) := by
  by_cases hk : k' = k
  · subst hk
    rw [Differs, h.self, result_differs]
    simp only [true_and]
  · rw [Differs, h.other hk]
    simp [hk]

theorem Update.differs_touched (h : Update r r' k add rem restrict) (k' : κ) (i : Nat) :
    Differs r r' k' i ↔ k' = k ∧ Has (touched (r k) add rem) i := by
  rw [h.differs_iff, has_touched]

theorem Update.confined_iff (h : Update r r' k add rem restrict) {bound : κ → Nat → Prop} :
    Confined bound r r' ↔ ∀ i, Has (touched (r k) add rem) i → bound k i := by
  constructor
  · exact fun hc i hi => hc k i ((h.differs_touched k i).mpr ⟨rfl, hi⟩)
  · intro hb k' i hd
    obtain ⟨rfl, hi⟩ := (h.differs_touched k' i).mp hd
    exact hb i hi

theorem Update.gained (h : Update r r' k add rem restrict) {k' : κ} {i : Nat}
    (hi : ¬ Has (r k') i) (hi' : Has (r' k') i) : k' = k ∧ Has add i := by
  by_cases hk : k' = k
  · subst hk
    rw [h.self, has_result] at hi'
    exact ⟨rfl, (hi'.resolve_left fun hl => hi hl.1).2⟩
  · rw [h.other hk] at hi'
    exact absurd hi' hi

theorem Update.lost (h : Update r r' k add rem restrict) {k' : κ} {i : Nat}
    (hi : Has (r k') i) (hi' : ¬ Has (r' k') i) : k' = k ∧ Has rem i := by
  by_cases hk : k' = k
  · subst hk
    rw [h.self, has_result] at hi'
    exact ⟨rfl, by_contra fun hr => hi' (.inl ⟨hi, hr⟩)⟩
  · rw [h.other hk] at hi'
    exact absurd hi hi'

theorem Update.mem_restrict (h : Update r r' k add rem restrict) {k' : κ} {i : Nat}
    (hd : Differs r r' k' i) : Has restrict i := by
  rcases (h.differs_iff k' i).mp hd with ⟨-, ha | hr⟩
  · exact h.permits.1.has ha
  · exact h.permits.2.1.has hr

theorem Update.confined (h : Update r r' k add rem restrict) {bound : κ → Nat → Prop}
    (hb : ∀ i, Has restrict i → bound k i) : Confined bound r r' := by
  intro k' i hd
  obtain ⟨rfl, -⟩ := (h.differs_iff k' i).mp hd
  exact hb i (h.mem_restrict hd)

end update
end ChatServices.Lib.Rights
