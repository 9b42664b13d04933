import ChatServices.Lib.Mask

/-! Masks written as letters: a table gives each letter a mask, a mask is written with the letters
whose masks it meets, and read back as the union of what its letters stand for. -/
namespace ChatServices.Lib.Letters
open ChatServices.Lib.Mask
variable {w : Nat} {χ : Type*} (rows : List (χ × BitVec w))

def encode (m : BitVec w) : List χ := (rows.filter fun r => test m r.2).map Prod.fst

def union : BitVec w := rows.foldr (fun r m => r.2 ||| m) 0#w

structure OneToOne : Prop where
  letters : (rows.map Prod.fst).Nodup
  single : ∀ r ∈ rows, ∃ k, ∀ i, Has r.2 i ↔ i = k

variable {rows} [DecidableEq χ]

def value (rows : List (χ × BitVec w)) (c : χ) : Option (BitVec w) :=
  (rows.find? fun r => r.1 = c).map Prod.snd

def decode (rows : List (χ × BitVec w)) (cs : List χ) : BitVec w :=
  cs.foldl (fun m c => m ||| (value rows c).getD 0#w) 0#w

theorem has_foldl_value (cs : List χ) (m : BitVec w) (i : Nat) :
    Has (cs.foldl (fun m c => m ||| (value rows c).getD 0#w) m) i ↔
      Has m i ∨ ∃ c ∈ cs, ∃ v, value rows c = some v ∧ Has v i := by
  induction cs generalizing m with
  | nil => simp
  | cons c cs ih =>
    have hc : Has ((value rows c).getD 0#w) i ↔ ∃ v, value rows c = some v ∧ Has v i := by
      cases value rows c <;> simp
    rw [List.foldl_cons, ih, has_or, hc, or_assoc]
    simp only [List.mem_cons, exists_eq_or_imp]

omit [DecidableEq χ] in
theorem mem_encode {m : BitVec w} {c : χ} :
    c ∈ encode rows m ↔ ∃ r ∈ rows, test m r.2 = true ∧ r.1 = c := by
  simp only [encode, List.mem_map, List.mem_filter, and_assoc]

theorem has_decode_encode {m : BitVec w} {i : Nat} : Has (decode rows (encode rows m)) i ↔
    ∃ r ∈ rows, test m r.2 = true ∧ ∃ v, value rows r.1 = some v ∧ Has v i := by
  rw [decode, has_foldl_value]
  simp only [has_zero, false_or, mem_encode]
  constructor
  · rintro ⟨c, ⟨r, hr, htest, rfl⟩, hv⟩
    exact ⟨r, hr, htest, hv⟩
  · rintro ⟨r, hr, htest, hv⟩
    exact ⟨r.1, ⟨r, hr, htest, rfl⟩, hv⟩

omit [DecidableEq χ] in
theorem has_union {i : Nat} : Has (union rows) i ↔ ∃ r ∈ rows, Has r.2 i := by
  induction rows with
  | nil => simp [union]
  | cons r rows ih =>
    rw [union, List.foldr_cons, has_or, ← union, ih]
    simp only [List.mem_cons, exists_eq_or_imp]

omit [DecidableEq χ] in
theorem test_single {m v : BitVec w} {k i : Nat} (hv : ∀ i, Has v i ↔ i = k) (hi : Has v i) :
    test m v = true ↔ Has m i := by
  rw [(hv i).mp hi]
  exact test_bit hv m

theorem value_of_mem (h : OneToOne rows) {r : χ × BitVec w} (hr : r ∈ rows) :
    value rows r.1 = some r.2 := by
  have hfind : rows.find? (fun r' => r'.1 = r.1) = some r := by
    cases hf : rows.find? (fun r' => r'.1 = r.1) with
    | none =>
      have hnone := List.find?_eq_none.mp hf r hr
      simp at hnone
    | some r' =>
      have hmem : r' ∈ rows := List.mem_of_find?_eq_some hf
      have hfst : r'.1 = r.1 := by simpa using List.find?_some hf
      exact congrArg some (List.inj_on_of_nodup_map h.letters hmem hr hfst)
  rw [value, hfind]
  rfl

theorem decode_encode (h : OneToOne rows) (m : BitVec w) :
    decode rows (encode rows m) = m &&& union rows := by
  apply Mask.ext
  intro i
  rw [has_decode_encode, has_and, has_union]
  constructor
  · rintro ⟨r, hr, htest, v, hv, hi⟩
    rw [value_of_mem h hr] at hv
    cases hv
    obtain ⟨k, hk⟩ := h.single r hr
    exact ⟨(test_single hk hi).mp htest, r, hr, hi⟩
  · rintro ⟨hm, r, hr, hi⟩
    obtain ⟨k, hk⟩ := h.single r hr
    exact ⟨r, hr, (test_single hk hi).mpr hm, r.2, value_of_mem h hr, hi⟩

end ChatServices.Lib.Letters
