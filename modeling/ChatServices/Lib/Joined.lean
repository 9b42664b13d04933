import Mathlib.Algebra.GroupWithZero.Nat
import Mathlib.Data.List.Basic

/-! Words joined by a separator, and buffers that keep a front of what is written to them. -/
namespace ChatServices.Lib.Joined
variable {α : Type*}

theorem length_intercalate (x : α) {words : List (List α)} (h : words ≠ []) :
    ([x].intercalate words).length + 1 = (words.map fun w => w.length + 1).sum := by
  induction words with
  | nil => exact absurd rfl h
  | cons w words ih =>
    cases words with
    | nil => simp
    | cons w' words =>
      have hrest := ih (by simp)
      rw [List.intercalate_cons_cons, List.map_cons, List.sum_cons, ← hrest]
      simp only [List.length_append, List.length_cons, List.length_nil]
      omega

theorem not_mem_splitOn [BEq α] [LawfulBEq α] {x : α} {text word : List α}
    (h : word ∈ text.splitOn x) : x ∉ word := by
  induction text generalizing word with
  | nil =>
    rw [List.splitOn_nil, List.mem_singleton] at h
    simp [h]
  | cons y text ih =>
    rw [List.splitOn_cons_eq_if_modifyHead] at h
    by_cases hy : (y == x) = true
    · rw [if_pos hy] at h
      cases List.mem_cons.mp h with
      | inl hnil => simp [hnil]
      | inr hmem => exact ih hmem
    · rw [if_neg hy] at h
      cases hsplit : text.splitOn x with
      | nil => exact absurd hsplit (List.splitOn_ne_nil x text)
      | cons w ws =>
        rw [hsplit] at h ih
        cases List.mem_cons.mp h with
        | inl hhead =>
          have hne : x ≠ y := fun heq => hy (by simp [heq])
          rw [hhead, List.mem_cons, not_or]
          exact ⟨hne, ih List.mem_cons_self⟩
        | inr hmem => exact ih (List.mem_cons_of_mem w hmem)

def fields [BEq α] (x : α) (text : List α) : List (List α) := (text.splitOn x).filter fun w => !w.isEmpty

section fields
variable [BEq α] {x : α}

@[simp] theorem fields_nil : fields x [] = [] := by simp [fields]

variable [LawfulBEq α]

theorem fields_sep (text : List α) : fields x (x :: text) = fields x text := by
  rw [fields, List.splitOn_cons_eq_if_modifyHead, if_pos (BEq.rfl), List.filter_cons]
  simp [fields]

theorem fields_word {w rest : List α} (hw : w ≠ []) (hx : x ∉ w) (hrest : ∀ y ∈ rest.head?, y = x) :
    fields x (w ++ rest) = w :: fields x rest := by
  cases rest with
  | nil =>
    rw [List.append_nil, fields, List.splitOn_eq_singleton hx]
    simp [hw]
  | cons y rest =>
    have hy : y = x := hrest y rfl
    rw [hy, fields_sep, fields, List.splitOn_append_cons_self_of_not_mem hx, List.filter_cons]
    simp [hw, fields]

theorem mem_fields {text w : List α} (h : w ∈ fields x text) : w ≠ [] ∧ x ∉ w := by
  rw [fields, List.mem_filter] at h
  refine ⟨?_, not_mem_splitOn h.1⟩
  have hkeep := h.2
  simpa using hkeep

end fields

end ChatServices.Lib.Joined
