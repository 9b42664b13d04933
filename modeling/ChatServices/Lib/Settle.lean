import Mathlib.Data.List.Basic

/-! A pass that visits a list of keys and settles what it is on: which keys are settled after it,
when it changes nothing, and which visits it can leave out. -/
namespace ChatServices.Lib.Settle
variable {σ κ : Type*} {Inv : σ → Prop} {Settled : σ → κ → Prop} {visit visit' : σ → κ → σ}

structure Settles (Inv : σ → Prop) (Settled : σ → κ → Prop) (visit : σ → κ → σ) : Prop where
  inv : ∀ s k, Inv s → Inv (visit s k)
  here : ∀ s k, Inv s → Settled (visit s k) k
  kept : ∀ s k k', Settled s k' → Settled (visit s k) k'

theorem pass_inv (hinv : ∀ s k, Inv s → Inv (visit s k)) (ks : List κ) {s : σ} (h : Inv s) :
    Inv (ks.foldl visit s) := by
  induction ks generalizing s with
  | nil => exact h
  | cons k ks ih => exact ih (hinv s k h)

theorem pass_kept (hkept : ∀ s k k', Settled s k' → Settled (visit s k) k') (ks : List κ) {s : σ}
    {k' : κ} (h : Settled s k') : Settled (ks.foldl visit s) k' := by
  induction ks generalizing s with
  | nil => exact h
  | cons k ks ih => exact ih (hkept s k k' h)

theorem pass_settled (hv : Settles Inv Settled visit) (ks : List κ) {s : σ} (h : Inv s) :
    ∀ k ∈ ks, Settled (ks.foldl visit s) k := by
  induction ks generalizing s with
  | nil => exact fun k hk => absurd hk List.not_mem_nil
  | cons k ks ih =>
    intro k' hk'
    have hs : Inv (visit s k) := hv.inv s k h
    cases hk' with
    | head => exact pass_kept hv.kept ks (hv.here s k h)
    | tail _ hmem => exact ih hs k' hmem

theorem pass_fixed (hfixed : ∀ s k, Settled s k → visit s k = s) (ks : List κ) {s : σ}
    (h : ∀ k ∈ ks, Settled s k) : ks.foldl visit s = s := by
  induction ks with
  | nil => rfl
  | cons k ks ih =>
    have hk : visit s k = s := hfixed s k (h k List.mem_cons_self)
    rw [List.foldl_cons, hk]
    exact ih fun k' hk' => h k' (List.mem_cons_of_mem _ hk')

theorem pass_skips (hkept : ∀ s k k', Settled s k' → Settled (visit s k) k')
    (hfixed : ∀ s k, Settled s k → visit s k = s) {Passed : κ → Prop}
    (hpassed : ∀ s k, Passed k → visit' s k = s) (hother : ∀ s k, ¬ Passed k → visit' s k = visit s k)
    (ks : List κ) {s : σ} (h : ∀ k ∈ ks, Passed k → Settled s k) :
    ks.foldl visit' s = ks.foldl visit s := by
  induction ks generalizing s with
  | nil => rfl
  | cons k ks ih =>
    have hsame : visit' s k = visit s k := by
      by_cases hk : Passed k
      · rw [hpassed s k hk, hfixed s k (h k List.mem_cons_self hk)]
      · exact hother s k hk
    rw [List.foldl_cons, List.foldl_cons, hsame]
    exact ih fun k' hk' hp => hkept s k k' (h k' (List.mem_cons_of_mem _ hk') hp)

end ChatServices.Lib.Settle
