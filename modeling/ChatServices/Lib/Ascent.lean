import Mathlib.Order.Defs.Unbundled
import Mathlib.Tactic.SplitIfs

/-! Scans for a best element under a strict order that need not be total: the element in hand is
given up for the next one above it. What is kept is above none that it has been compared with,
but which one it is depends on the order of the list. -/
namespace ChatServices.Lib.Ascent
variable {α : Type*} (lt : α → α → Prop)

inductive Ascends : α → List α → α → Prop
  | stop {b : α} {xs : List α} (h : ∀ y ∈ xs, ¬ lt b y) : Ascends b xs b
  | step {b x z : α} {pre post : List α} (hpre : ∀ y ∈ pre, ¬ lt b y) (hx : lt b x)
      (h : Ascends x post z) : Ascends b (pre ++ x :: post) z

def Reaches (xs : List α) (z : α) : Prop := ∃ x rest, xs = x :: rest ∧ Ascends lt x rest z

def climb [DecidableRel lt] : Option α → α → Option α
  | none, x => some x
  | some b, x => if lt b x then some x else some b

variable {lt} {b x z : α} {xs : List α}

theorem Ascends.skip (hx : ¬ lt b x) (h : Ascends lt b xs z) : Ascends lt b (x :: xs) z := by
  cases h with
  | stop h =>
    apply Ascends.stop
    intro y hy
    cases hy with
    | head => exact hx
    | tail _ hy => exact h y hy
  | @step _ x' _ pre post hpre hx' h =>
    have hpre' : ∀ y ∈ x :: pre, ¬ lt b y := by
      intro y hy
      cases hy with
      | head => exact hx
      | tail _ hy => exact hpre y hy
    exact Ascends.step hpre' hx' h

theorem Ascends.mem (h : Ascends lt b xs z) : z ∈ b :: xs := by
  induction h with
  | stop h => simp
  | step hpre hx h ih =>
    rw [List.mem_cons, List.mem_append]
    exact .inr (.inr ih)

theorem Ascends.maximal [IsStrictOrder α lt] (h : Ascends lt b xs z) :
    (z = b ∨ lt b z) ∧ ∀ y ∈ xs, ¬ lt z y := by
  induction h with
  | stop h => exact ⟨.inl rfl, h⟩
  | @step b x z pre post hpre hx h ih =>
    obtain ⟨habove, hmax⟩ := ih
    have hbz : lt b z := by
      cases habove with
      | inl he => rwa [he]
      | inr hxz => exact trans_of lt hx hxz
    refine ⟨.inr hbz, fun y hy hzy => ?_⟩
    rw [List.mem_append, List.mem_cons] at hy
    obtain hy | rfl | hy := hy
    · exact hpre y hy (trans_of lt hbz hzy)
    · cases habove with
      | inl he =>
        rw [he] at hzy
        exact irrefl_of lt y hzy
      | inr hxz => exact irrefl_of lt y (trans_of lt hxz hzy)
    · exact hmax y hy hzy

theorem Reaches.mem (h : Reaches lt xs z) : z ∈ xs := by
  obtain ⟨x, rest, rfl, h⟩ := h
  exact h.mem

theorem Reaches.maximal [IsStrictOrder α lt] (h : Reaches lt xs z) : ∀ y ∈ xs, ¬ lt z y := by
  obtain ⟨x, rest, rfl, h⟩ := h
  obtain ⟨habove, hmax⟩ := h.maximal
  intro y hy hzy
  cases hy with
  | head =>
    cases habove with
    | inl he =>
      rw [he] at hzy
      exact irrefl_of lt x hzy
    | inr hxz => exact irrefl_of lt x (trans_of lt hxz hzy)
  | tail _ hy => exact hmax y hy hzy

section scan
variable [DecidableRel lt]

theorem foldl_climb_stay (h : ∀ y ∈ xs, ¬ lt b y) : xs.foldl (climb lt) (some b) = some b := by
  induction xs with
  | nil => rfl
  | cons x xs ih =>
    have hx := h x (List.mem_cons_self ..)
    rw [List.foldl_cons, climb, if_neg hx]
    exact ih fun y hy => h y (List.mem_cons_of_mem x hy)

theorem foldl_climb_iff : xs.foldl (climb lt) (some b) = some z ↔ Ascends lt b xs z := by
  constructor
  · intro h
    induction xs generalizing b with
    | nil =>
      cases h
      exact .stop nofun
    | cons x xs ih =>
      rw [List.foldl_cons, climb] at h
      split_ifs at h with hx
      · have hfirst : Ascends lt b ([] ++ x :: xs) z := .step (by simp) hx (ih h)
        exact hfirst
      · exact (ih h).skip hx
  · intro h
    induction h with
    | stop h => exact foldl_climb_stay h
    | step hpre hx h ih =>
      rw [List.foldl_append, foldl_climb_stay hpre, List.foldl_cons, climb, if_pos hx]
      exact ih

theorem scan_iff : xs.foldl (climb lt) none = some z ↔ Reaches lt xs z := by
  cases xs with
  | nil =>
    refine iff_of_false nofun ?_
    rintro ⟨x, rest, hnil, -⟩
    cases hnil
  | cons x xs =>
    rw [List.foldl_cons, climb, foldl_climb_iff]
    constructor
    · intro h
      exact ⟨x, xs, rfl, h⟩
    · rintro ⟨x', rest, hcons, h⟩
      cases hcons
      exact h

end scan

end ChatServices.Lib.Ascent
