import Mathlib.Data.List.Basic
import Mathlib.Data.List.TakeWhile

/-! A list of pairs kept as text: every pair is a name, a mark and a value, with one
separator between pairs. Names hold no mark and do not begin with a separator, and values hold
no separator, so that the text says where each pair ends. -/
namespace ChatServices.Lib.PairText
variable {α : Type*} (mark sep : α)

abbrev Pair (α : Type*) := List α × List α

def Pair.text (p : Pair α) : List α := p.1 ++ mark :: p.2

def tail (ps : List (Pair α)) : List α := ps.flatMap fun p => sep :: Pair.text mark p

def front (ps : List (Pair α)) : List α := ps.flatMap fun p => Pair.text mark p ++ [sep]

def join : List (Pair α) → List α
  | [] => []
  | p :: ps => Pair.text mark p ++ tail mark sep ps

structure Wf (p : Pair α) : Prop where
  name : mark ∉ p.1
  start : p.1.head? ≠ some sep
  value : sep ∉ p.2

variable {mark sep} {p q : Pair α} {ps qs : List (Pair α)}

theorem tail_cons : tail mark sep (p :: ps) = sep :: join mark sep (p :: ps) := by
  simp [tail, join]

theorem tail_append : tail mark sep (ps ++ qs) = tail mark sep ps ++ tail mark sep qs := by
  simp [tail]

theorem join_split (ps : List (Pair α)) (p : Pair α) (qs : List (Pair α)) :
    join mark sep (ps ++ p :: qs) = front mark sep ps ++ Pair.text mark p ++ tail mark sep qs := by
  induction ps with
  | nil => simp [join, front]
  | cons q ps ih =>
    have hnext : tail mark sep (ps ++ p :: qs) = sep :: join mark sep (ps ++ p :: qs) := by
      cases ps with
      | nil => exact tail_cons
      | cons r ps => exact tail_cons
    rw [List.cons_append, join, hnext, ih]
    simp [front]

theorem front_eq (h : ps ≠ []) : front mark sep ps = join mark sep ps ++ [sep] := by
  induction ps with
  | nil => exact absurd rfl h
  | cons p ps ih =>
    cases ps with
    | nil => simp [front, join, tail]
    | cons q ps =>
      have hrest := ih (List.cons_ne_nil q ps)
      rw [join, tail_cons]
      simp only [front, List.flatMap_cons] at hrest ⊢
      rw [hrest]
      simp

theorem join_append (h : ps ≠ []) :
    join mark sep (ps ++ qs) = join mark sep ps ++ tail mark sep qs := by
  cases ps with
  | nil => exact absurd rfl h
  | cons p ps => rw [List.cons_append, join, tail_append, join, List.append_assoc]

theorem join_ne_nil : join mark sep (p :: ps) ≠ [] := by
  simp [join, Pair.text]

theorem name_length_le (h : p ∈ ps) : p.1.length ≤ (join mark sep ps).length := by
  obtain ⟨pre, post, rfl⟩ := List.append_of_mem h
  rw [join_split, Pair.text]
  simp only [List.length_append, List.length_cons]
  omega

section read
variable {p' : α → Bool} {body rest : List α}

theorem takeWhile_until (hbody : ∀ c ∈ body, p' c = true)
    (hrest : ∀ c, rest.head? = some c → p' c = false) : (body ++ rest).takeWhile p' = body := by
  rw [List.takeWhile_append_of_pos hbody]
  cases rest with
  | nil => simp
  | cons c rest => simp [hrest c rfl]

theorem dropWhile_until (hbody : ∀ c ∈ body, p' c = true)
    (hrest : ∀ c, rest.head? = some c → p' c = false) : (body ++ rest).dropWhile p' = rest := by
  rw [List.dropWhile_append_of_pos hbody]
  cases rest with
  | nil => rfl
  | cons c rest => simp [hrest c rfl]

variable [DecidableEq α]

theorem ne_of_notMem {c d : α} {xs : List α} (h : d ∉ xs) (hc : c ∈ xs) :
    decide (c ≠ d) = true := by
  rw [decide_eq_true_eq]
  exact fun he => h (he ▸ hc)

theorem not_ne_of_head? {c d : α} {xs : List α} (h : (d :: xs).head? = some c) :
    decide (c ≠ d) = false := by
  simp only [List.head?_cons, Option.some.injEq] at h
  simp [h]

variable (rest) in
theorem takeWhile_name (h : Wf mark sep p) :
    (Pair.text mark p ++ rest).takeWhile (· ≠ mark) = p.1 := by
  rw [Pair.text, List.append_assoc]
  exact takeWhile_until (fun c hc => ne_of_notMem h.name hc) fun c hc => not_ne_of_head? hc

variable (rest) in
theorem dropWhile_name (h : Wf mark sep p) :
    (Pair.text mark p ++ rest).dropWhile (· ≠ mark) = mark :: p.2 ++ rest := by
  rw [Pair.text, List.append_assoc]
  exact dropWhile_until (fun c hc => ne_of_notMem h.name hc) fun c hc => not_ne_of_head? hc

omit [DecidableEq α] in
theorem sep_notMem_value (hms : mark ≠ sep) (h : Wf mark sep p) : sep ∉ mark :: p.2 := by
  rw [List.mem_cons, not_or]
  exact ⟨Ne.symm hms, h.value⟩

theorem head?_tail {c : α} (h : (tail mark sep ps).head? = some c) :
    decide (c ≠ sep) = false := by
  cases ps with
  | nil => cases h
  | cons q qs =>
    rw [tail_cons] at h
    exact not_ne_of_head? h

theorem takeWhile_value (hms : mark ≠ sep) (h : Wf mark sep p) :
    (mark :: p.2 ++ tail mark sep ps).takeWhile (· ≠ sep) = mark :: p.2 :=
  takeWhile_until (fun _ hc => ne_of_notMem (sep_notMem_value hms h) hc) fun _ hc => head?_tail hc

theorem takeWhile_value_take (hms : mark ≠ sep) (h : Wf mark sep p) {n : Nat}
    (hn : (mark :: p.2).length ≤ n) :
    ((mark :: p.2 ++ tail mark sep ps).take n).takeWhile (· ≠ sep) = mark :: p.2 := by
  rw [List.take_append, List.take_of_length_le hn]
  refine takeWhile_until (fun _ hc => ne_of_notMem (sep_notMem_value hms h) hc) fun c hc => ?_
  rw [List.head?_take] at hc
  exact head?_tail (Option.ite_none_left_eq_some.mp hc).2

theorem dropWhile_value (hms : mark ≠ sep) (h : Wf mark sep p) :
    (mark :: p.2 ++ tail mark sep ps).dropWhile (· ≠ sep) = tail mark sep ps :=
  dropWhile_until (fun _ hc => ne_of_notMem (sep_notMem_value hms h) hc) fun _ hc => head?_tail hc

variable (rest) in
theorem dropWhile_sep (hms : mark ≠ sep) (h : Wf mark sep p) :
    (Pair.text mark p ++ rest).dropWhile (· = sep) = Pair.text mark p ++ rest := by
  rw [Pair.text]
  have hstart := h.start
  cases hn : p.1 with
  | nil => simp [hms]
  | cons c name =>
    rw [hn, List.head?_cons] at hstart
    simp only [List.cons_append]
    rw [List.dropWhile_cons_of_neg]
    simpa using hstart

theorem dropWhile_tail (hms : mark ≠ sep) (h : ∀ p ∈ ps, Wf mark sep p) :
    (tail mark sep ps).dropWhile (· = sep) = join mark sep ps := by
  cases ps with
  | nil => rfl
  | cons p ps =>
    rw [tail_cons, List.dropWhile_cons_of_pos (by simp)]
    exact dropWhile_sep _ hms (h p (List.mem_cons_self ..))

end read

end ChatServices.Lib.PairText
