import Mathlib.Data.BitVec

/-! Bit masks of a fixed width read as sets of bit positions: membership, inclusion
and the nonzero test, so that mask arithmetic becomes propositional logic. -/
namespace ChatServices.Lib.Mask
variable {w : Nat}

def Has (m : BitVec w) (i : Nat) : Prop := m.getLsbD i = true

instance (m : BitVec w) (i : Nat) : Decidable (Has m i) := inferInstanceAs (Decidable (_ = true))

/-- Every bit of `a` is a bit of `b`. -/
def Sub (a b : BitVec w) : Prop := a &&& ~~~b = 0#w

instance (a b : BitVec w) : Decidable (Sub a b) := inferInstanceAs (Decidable (_ = _))

def test (f m : BitVec w) : Bool := f &&& m != 0#w

theorem Has.lt {m : BitVec w} {i : Nat} (h : Has m i) : i < w := by
  by_contra hi
  rw [Has, BitVec.getLsbD_of_ge m i (by omega)] at h
  exact Bool.noConfusion h

@[simp] theorem has_zero (i : Nat) : ¬ Has (0#w) i := by
  simp [Has]

@[simp] theorem has_and (a b : BitVec w) (i : Nat) : Has (a &&& b) i ↔ Has a i ∧ Has b i := by
  simp [Has]

@[simp] theorem has_or (a b : BitVec w) (i : Nat) : Has (a ||| b) i ↔ Has a i ∨ Has b i := by
  simp [Has]

@[simp] theorem has_not (a : BitVec w) (i : Nat) : Has (~~~a) i ↔ i < w ∧ ¬ Has a i := by
  simp [Has]

@[simp] theorem has_xor (a b : BitVec w) (i : Nat) : Has (a ^^^ b) i ↔ ¬ (Has a i ↔ Has b i) := by
  simp only [Has, BitVec.getLsbD_xor]
  cases a.getLsbD i <;> cases b.getLsbD i <;> simp

theorem has_twoPow (k i : Nat) : Has (BitVec.twoPow w k) i ↔ i < w ∧ k = i := by
  simp only [Has, BitVec.getLsbD_twoPow, Bool.and_eq_true, decide_eq_true_eq]
  omega

theorem ext {a b : BitVec w} (h : ∀ i, Has a i ↔ Has b i) : a = b := by
  apply BitVec.eq_of_getLsbD_eq
  intro i hi
  have := h i
  simp only [Has] at this
  exact Bool.eq_iff_iff.mpr this

theorem eq_zero_iff (a : BitVec w) : a = 0#w ↔ ∀ i, ¬ Has a i := by
  constructor
  · rintro rfl i
    simp
  · intro h
    exact ext fun i => by simp [h i]

theorem sub_iff (a b : BitVec w) : Sub a b ↔ ∀ i, Has a i → Has b i := by
  rw [Sub, eq_zero_iff]
  constructor
  · intro h i ha
    by_contra hb
    exact h i (by simp [ha, hb, ha.lt])
  · intro h i hi
    simp only [has_and, has_not] at hi
    exact hi.2.2 (h i hi.1)

theorem Sub.has {a b : BitVec w} (h : Sub a b) {i : Nat} (ha : Has a i) : Has b i :=
  (sub_iff a b).mp h i ha

theorem Sub.trans {a b c : BitVec w} (h : Sub a b) (h' : Sub b c) : Sub a c :=
  (sub_iff a c).mpr fun _ hi => h'.has (h.has hi)

theorem Sub.antisymm {a b : BitVec w} (h : Sub a b) (h' : Sub b a) : a = b :=
  ext fun _ => ⟨h.has, h'.has⟩

@[simp] theorem Sub.refl (a : BitVec w) : Sub a a := (sub_iff a a).mpr fun _ => id

@[simp] theorem zero_sub (a : BitVec w) : Sub (0#w) a := (sub_iff _ a).mpr fun i h => by simp at h

theorem and_sub_left (a b : BitVec w) : Sub (a &&& b) a :=
  (sub_iff _ _).mpr fun _ h => ((has_and a b _).mp h).1

theorem and_sub_right (a b : BitVec w) : Sub (a &&& b) b :=
  (sub_iff _ _).mpr fun _ h => ((has_and a b _).mp h).2

theorem sub_or_left (a b : BitVec w) : Sub a (a ||| b) :=
  (sub_iff _ _).mpr fun _ h => (has_or a b _).mpr (.inl h)

theorem Sub.or {a b c : BitVec w} (h : Sub a c) (h' : Sub b c) : Sub (a ||| b) c :=
  (sub_iff _ _).mpr fun i hi => ((has_or a b i).mp hi).elim h.has h'.has

theorem test_iff (f m : BitVec w) : test f m = true ↔ ∃ i, Has f i ∧ Has m i := by
  rw [test, bne_iff_ne, ne_eq, eq_zero_iff]
  simp only [has_and, not_forall, not_not]

theorem test_eq_false_iff (f m : BitVec w) : test f m = false ↔ ∀ i, Has f i → ¬ Has m i := by
  rw [← Bool.not_eq_true, test_iff]
  simp only [not_exists, not_and]

theorem test_eq_false_iff_and (f m : BitVec w) : test f m = false ↔ f &&& m = 0#w := by
  simp [test]

theorem test_not_eq_false_iff (a b : BitVec w) : test (~~~b) a = false ↔ Sub a b := by
  rw [test_eq_false_iff_and, BitVec.and_comm, Sub]

@[simp] theorem test_zero_left (m : BitVec w) : test (0#w) m = false := by
  simp [test]

@[simp] theorem test_zero_right (f : BitVec w) : test f (0#w) = false := by
  simp [test]

theorem test_comm (f m : BitVec w) : test f m = test m f := by
  rw [test, test, BitVec.and_comm]

theorem test_bit {m : BitVec w} {k : Nat} (hm : ∀ i, Has m i ↔ i = k) (f : BitVec w) :
    test f m = true ↔ Has f k := by
  rw [test_iff]
  constructor
  · rintro ⟨i, hf, hi⟩
    exact (hm i).mp hi ▸ hf
  · intro hf
    exact ⟨k, hf, (hm k).mpr rfl⟩

theorem test_mono {f g m : BitVec w} (h : Sub f g) (ht : test f m = true) : test g m = true := by
  obtain ⟨i, hf, hm⟩ := (test_iff f m).mp ht
  exact (test_iff g m).mpr ⟨i, h.has hf, hm⟩

theorem test_or (f g m : BitVec w) : test (f ||| g) m = (test f m || test g m) := by
  rw [Bool.eq_iff_iff, Bool.or_eq_true, test_iff, test_iff, test_iff]
  constructor
  · rintro ⟨i, hi, hm⟩
    obtain hf | hg := (has_or f g i).mp hi
    · exact .inl ⟨i, hf, hm⟩
    · exact .inr ⟨i, hg, hm⟩
  · rintro (⟨i, hf, hm⟩ | ⟨i, hg, hm⟩)
    · exact ⟨i, (has_or f g i).mpr (.inl hf), hm⟩
    · exact ⟨i, (has_or f g i).mpr (.inr hg), hm⟩

theorem test_or_disjoint {b m : BitVec w} (h : test b m = false) (f : BitVec w) :
    test (f ||| b) m = test f m := by
  rw [test_or, h, Bool.or_false]

theorem test_andNot_disjoint {b m : BitVec w} (h : test b m = false) (f : BitVec w) :
    test (f &&& ~~~b) m = test f m := by
  rw [Bool.eq_iff_iff, test_iff, test_iff]
  constructor
  · rintro ⟨i, hi, hm⟩
    exact ⟨i, ((has_and f _ i).mp hi).1, hm⟩
  · rintro ⟨i, hi, hm⟩
    have hb : ¬ Has b i := fun hb => (test_eq_false_iff b m).mp h i hb hm
    exact ⟨i, (has_and f _ i).mpr ⟨hi, (has_not b i).mpr ⟨hi.lt, hb⟩⟩, hm⟩

theorem test_andNot_self (f m : BitVec w) : test (f &&& ~~~m) m = false := by
  rw [test_eq_false_iff]
  intro i hi
  exact ((has_not m i).mp ((has_and f _ i).mp hi).2).2

end ChatServices.Lib.Mask
