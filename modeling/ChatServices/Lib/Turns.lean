import Mathlib.Data.List.Basic

/-! Loops over a list in which a turn sees what the turns before it have made of their items, its own
item, and the items that are still to come. -/
namespace ChatServices.Lib
universe u
variable {α : Type u}

/-- Some turn goes wrong; the first list is what the loop has behind it. -/
def anyTurn (put : α → α) (bad : List α → α → List α → Bool) : List α → List α → Bool
  | _, [] => false
  | done, a :: rest => bad done a rest || anyTurn put bad (done ++ [put a]) rest

theorem anyTurn_iff {put : α → α} {bad : List α → α → List α → Bool} {done l : List α} :
    anyTurn put bad done l = true ↔
      ∃ pre a post, l = pre ++ a :: post ∧ bad (done ++ pre.map put) a post = true := by
  induction l generalizing done with
  | nil => simp [anyTurn]
  | cons x xs ih =>
    rw [anyTurn, Bool.or_eq_true, ih]
    constructor
    · rintro (h | ⟨pre, a, post, rfl, h⟩)
      · exact ⟨[], x, xs, rfl, by simpa using h⟩
      · exact ⟨x :: pre, a, post, rfl, by simpa using h⟩
    · rintro ⟨pre, a, post, hl, h⟩
      cases pre with
      | nil =>
        cases hl
        exact .inl (by simpa using h)
      | cons y pre =>
        cases hl
        exact .inr ⟨pre, a, post, rfl, by simpa using h⟩

end ChatServices.Lib
