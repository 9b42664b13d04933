import Mathlib.Tactic.Common

/-! Loops that take a step at a time until one answers: how many steps they need, and that a
measure bounds the number. -/
namespace ChatServices.Lib.Halting
variable {σ ο : Type*} (step : σ → ο ⊕ σ)

/-- The loop with a limit on its steps; `none` where the limit comes first. -/
def run : Nat → σ → Option ο
  | 0, _ => none
  | limit + 1, s =>
    match step s with
    | .inl answer => some answer
    | .inr s' => run limit s'

/-- The loop answers `answer` with its `n`th step. -/
def Takes (n : Nat) (s : σ) (answer : ο) : Prop :=
  ∀ limit, run step limit s = if n ≤ limit then some answer else none

variable {step} {s s' : σ} {answer : ο} {n : Nat}

theorem Takes.stop (h : step s = .inl answer) : Takes step 1 s answer := by
  intro limit
  cases limit with
  | zero => rfl
  | succ limit => simp [run, h]

theorem Takes.next (h : step s = .inr s') (hs' : Takes step n s' answer) :
    Takes step (n + 1) s answer := by
  intro limit
  cases limit with
  | zero => rfl
  | succ limit => simp [run, h, hs' limit]

theorem Takes.run_eq_some_iff (h : Takes step n s answer) {limit : Nat} {answer' : ο} :
    run step limit s = some answer' ↔ n ≤ limit ∧ answer = answer' := by
  rw [h limit]
  by_cases hn : n ≤ limit
  · simp [hn]
  · simp [hn]

theorem run_keeps (Inv : σ → Prop) (Post : ο → Prop)
    (hstep : ∀ s s', Inv s → step s = .inr s' → Inv s')
    (hstop : ∀ s answer, Inv s → step s = .inl answer → Post answer) {limit : Nat} (hs : Inv s)
    (h : run step limit s = some answer) : Post answer := by
  induction limit generalizing s with
  | zero => cases h
  | succ limit ih =>
    rw [run] at h
    cases hit : step s with
    | inl last =>
      rw [hit] at h
      obtain rfl := Option.some.inj h
      exact hstop s last hs hit
    | inr s' =>
      rw [hit] at h
      exact ih (hstep s s' hs hit) h

theorem exists_takes {Inv : σ → Prop} (size : σ → Nat)
    (hstep : ∀ s s', Inv s → step s = .inr s' → Inv s' ∧ size s' < size s) (hs : Inv s) :
    ∃ n answer, n ≤ size s + 1 ∧ Takes step n s answer := by
  induction hk : size s using Nat.strongRecOn generalizing s with
  | ind k ih =>
    cases hit : step s with
    | inl answer => exact ⟨1, answer, by omega, Takes.stop hit⟩
    | inr s' =>
      have hnext := hstep s s' hs hit
      have hlt : size s' < k := by omega
      obtain ⟨n, answer, hn, htakes⟩ := ih (size s') hlt hnext.1 rfl
      exact ⟨n + 1, answer, by omega, htakes.next hit⟩

end ChatServices.Lib.Halting
