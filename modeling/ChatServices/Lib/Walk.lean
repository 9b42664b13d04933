import Mathlib.Data.List.Nodup
import Mathlib.Data.List.Lattice

/-! Loops over a linked list whose body changes the list. The next node is read before the body
runs or after it, and a node that is off the list by then is freed memory. -/
namespace ChatServices.Lib.Walk
variable {σ ρ : Type*} [DecidableEq ρ] (list : σ → List ρ) (body : σ → ρ → Option σ)

def fromNode (s : σ) (n : ρ) : List ρ := (list s).dropWhile (· ≠ n)

def walkSafe : Nat → Option ρ → σ → Option σ
  | _, none, s => some s
  | 0, some _, _ => none
  | fuel + 1, some n, s =>
    match fromNode list s n with
    | [] => none
    | _ :: rest => (body s n).bind (walkSafe fuel rest.head?)

def walkOn : Nat → Option ρ → σ → Option σ
  | _, none, s => some s
  | 0, some _, _ => none
  | fuel + 1, some n, s => (body s n).bind fun s' =>
    match fromNode list s' n with
    | [] => none
    | _ :: rest => walkOn fuel rest.head? s'

variable {list body}

theorem fromNode_of_append {s : σ} {n : ρ} {before rest : List ρ}
    (h : list s = before ++ n :: rest) (hnodup : (list s).Nodup) :
    fromNode list s n = n :: rest := by
  have hnot : ∀ x ∈ before, x ≠ n := by
    intro x hx heq
    rw [h, List.nodup_append] at hnodup
    exact hnodup.2.2 x hx n (List.mem_cons_self ..) heq
  rw [fromNode, h, List.dropWhile_append_of_pos (by simpa using hnot)]
  simp

/-- The loop visits every node once, if the body takes no later node off the list. `I` says what
holds when the nodes from one on are still to come. -/
theorem walkSafe_run {I : List ρ → σ → Prop}
    (hlist : ∀ rest s, I rest s → (list s).Nodup ∧ ∃ before, list s = before ++ rest)
    (hbody : ∀ n rest s, I (n :: rest) s → ∃ s', body s n = some s' ∧ I rest s')
    {rest : List ρ} {s : σ} (h : I rest s) {fuel : Nat} (hfuel : rest.length ≤ fuel) :
    ∃ s', walkSafe list body fuel rest.head? s = some s' ∧ I [] s' := by
  induction rest generalizing s fuel with
  | nil =>
    cases fuel with
    | zero => exact ⟨s, rfl, h⟩
    | succ fuel => exact ⟨s, rfl, h⟩
  | cons n rest ih =>
    cases fuel with
    | zero => simp at hfuel
    | succ fuel =>
      obtain ⟨hnodup, before, hs⟩ := hlist _ s h
      obtain ⟨s', hstep, hI⟩ := hbody n rest s h
      rw [List.head?_cons, walkSafe, fromNode_of_append hs hnodup]
      dsimp only
      rw [hstep, Option.bind_some]
      exact ih hI (by simpa using hfuel)

theorem walkOn_run {I : List ρ → σ → Prop}
    (hlist : ∀ n rest s, I (n :: rest) s → ∃ s', body s n = some s' ∧ I rest s' ∧
      (list s').Nodup ∧ ∃ before, list s' = before ++ n :: rest)
    {rest : List ρ} {s : σ} (h : I rest s) {fuel : Nat} (hfuel : rest.length ≤ fuel) :
    ∃ s', walkOn list body fuel rest.head? s = some s' ∧ I [] s' := by
  induction rest generalizing s fuel with
  | nil =>
    cases fuel with
    | zero => exact ⟨s, rfl, h⟩
    | succ fuel => exact ⟨s, rfl, h⟩
  | cons n rest ih =>
    cases fuel with
    | zero => simp at hfuel
    | succ fuel =>
      obtain ⟨s', hstep, hI, hnodup, before, hs⟩ := hlist n rest s h
      rw [List.head?_cons, walkOn, hstep, Option.bind_some, fromNode_of_append hs hnodup]
      exact ih hI (by simpa using hfuel)

end ChatServices.Lib.Walk
