import Mathlib.Logic.Function.Basic

/-! Two kinds of records that point at each other, at most one of each kind at the other end. -/
namespace ChatServices.Lib
variable {α β : Type*}

def Mutual (left : α → Option β) (right : β → Option α) : Prop :=
  ∀ a b, left a = some b ↔ right b = some a

namespace Mutual
variable {left : α → Option β} {right : β → Option α} {a : α} {b : β}

theorem none_none : Mutual (fun _ : α => (none : Option β)) fun _ => none :=
  fun _ _ => ⟨nofun, nofun⟩

theorem unique (h : Mutual left right) {a' : α} (ha : left a = some b) (ha' : left a' = some b) :
    a' = a := by
  have hb := (h a b).mp ha
  have hb' := (h a' b).mp ha'
  rw [hb] at hb'
  exact (Option.some.inj hb').symm

variable [DecidableEq α] [DecidableEq β]

theorem link (h : Mutual left right) (ha : left a = none) (hb : right b = none) :
    Mutual (Function.update left a (some b)) (Function.update right b (some a)) := by
  intro a' b'
  rw [Function.update_apply, Function.update_apply]
  by_cases hal : a' = a <;> by_cases hbr : b' = b
  · simp [hal, hbr]
  · have hnone : ¬ right b' = some a := fun hr => by
      rw [(h a b').mpr hr] at ha
      cases ha
    simp [hal, hbr, hnone, Ne.symm hbr]
  · have hnone : ¬ left a' = some b := fun hl => by
      rw [(h a' b).mp hl] at hb
      cases hb
    simp [hal, hbr, hnone, Ne.symm hal]
  · rw [if_neg hal, if_neg hbr]
    exact h a' b'

theorem unlink (h : Mutual left right) (hab : left a = some b) :
    Mutual (Function.update left a none) (Function.update right b none) := by
  have hba := (h a b).mp hab
  intro a' b'
  rw [Function.update_apply, Function.update_apply]
  by_cases hal : a' = a <;> by_cases hbr : b' = b
  · simp [hal, hbr]
  · have hnone : ¬ right b' = some a := fun hr => by
      rw [(h a b').mpr hr] at hab
      exact hbr (Option.some.inj hab)
    simp [hal, hbr, hnone]
  · have hnone : ¬ left a' = some b := fun hl => by
      rw [(h a' b).mp hl] at hba
      exact hal (Option.some.inj hba)
    simp [hal, hbr, hnone]
  · rw [if_neg hal, if_neg hbr]
    exact h a' b'

end Mutual
end ChatServices.Lib
