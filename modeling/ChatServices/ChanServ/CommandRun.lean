import ChatServices.Lib.Run
import ChatServices.ChanServ.Rights

/-! Runs of commands, each from a source of its own and in a world of its own; a crash
ends the run. -/
namespace ChatServices.ChanServ
open ChatServices.Lib ChatServices.Lib.Run ChatServices.Text

structure Issued (α : Type) where
  w : World
  si : Source
  cmd : α

structure Transition where
  w : World
  before : ChanDb
  after : ChanDb

section run
variable {α : Type} (exec : World → ChanDb → Source → α → Outcome)

def issue (s : Option ChanDb) (e : Issued α) : Option ChanDb × List Transition :=
  match s with
  | none => (none, [])
  | some db =>
    match exec e.w db e.si e.cmd with
    | .crash => (none, [])
    | .done db' _ => (some db', [⟨e.w, db, db'⟩])

variable {exec}

theorem forall_mem_issue {s : Option ChanDb} {e : Issued α} {Q : Transition → Prop} :
    (∀ tr ∈ (issue exec s e).2, Q tr) ↔ ∀ db, s = some db →
      ∀ db' replies, exec e.w db e.si e.cmd = .done db' replies → Q ⟨e.w, db, db'⟩ := by
  cases s with
  | none => simp [issue]
  | some db =>
    cases hout : exec e.w db e.si e.cmd with
    | crash => simp [issue, hout]
    | done db' replies => simp [issue, hout]

theorem run_issue_invariant {I : ChanDb → Prop}
    (hstep : ∀ (e : Issued α) db db' replies, I db →
      exec e.w db e.si e.cmd = .done db' replies → I db')
    {db db' : ChanDb} (h : I db) {es : List (Issued α)}
    (hrun : (run (issue exec) (some db) es).1 = some db') : I db' := by
  have hinv : ∀ (s : Option ChanDb) (t : List Transition) (e : Issued α),
      (∀ db, s = some db → I db) → ∀ db, (issue exec s e).1 = some db → I db := by
    intro s t e hs db₁ hdb₁
    cases s with
    | none => cases hdb₁
    | some db₀ =>
      simp only [issue] at hdb₁
      cases hout : exec e.w db₀ e.si e.cmd with
      | crash => rw [hout] at hdb₁; cases hdb₁
      | done db₂ replies =>
        rw [hout] at hdb₁
        cases hdb₁
        exact hstep e db₀ db₁ replies (hs db₀ rfl) hout
  have hinit : ∀ db₁, some db = some db₁ → I db₁ := by
    intro db₁ hdb₁
    cases hdb₁
    exact h
  have hend : ∀ db₁, (run (issue exec) (some db) es).1 = some db₁ → I db₁ :=
    run_invariant (I := fun s _ => ∀ db, s = some db → I db) hinv (t := []) hinit es
  exact hend db' hrun

end run
end ChatServices.ChanServ
