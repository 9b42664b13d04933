import ChatServices.Network.UserIndex

/-! The small changes that every change of the users is made of. -/
namespace ChatServices.Network
open ChatServices.Lib ChatServices.Text

namespace Net
variable (ircd : Ircd) (leaving : Net → MemberId → List ClientId)

inductive Changes (n : Net) : Net → Prop where
  | refl : Changes n n
  | flags {m : Net} (u : ClientId) (f : Flags) : Changes n m → Changes n (m.setFlags u f)
  | drawUid {m : Net} : Changes n m → Changes n (m.drawUid ircd)
  | insert {m : Net} {x : User} : Changes n m → m.userFindNamed ircd x.nick = none →
      Changes n (m.userInsert ircd x)
  | gone {m : Net} {u : ClientId} {x : User} : Changes n m → m.dir.users.find u = some x →
      Changes n (userGone ircd leaving m u x)
  | rename {m : Net} {u : ClientId} {x : User} {nick : CString} (ts : Int) : Changes n m →
      m.dir.users.find u = some x → (∀ v, m.userFindNamed ircd nick = some v → v = u) →
      Changes n { m with dir := m.dir.rename ircd.irccasecanon u x nick ts }

section rules
variable {ircd leaving} {n m : Net} {u : ClientId} {x : User}

theorem Changes.unmarked (h : Changes ircd leaving n m) (u : ClientId) :
    Changes ircd leaving n (m.unmarked u) := by
  rw [Net.unmarked]
  split_ifs
  · exact h.flags u _
  · exact h

theorem Changes.introduceEnforcer (h : Changes ircd leaving n m) (nick : CString) :
    Changes ircd leaving n (introduceEnforcer ircd m nick) := by
  cases hf : m.userFindNamed ircd nick with
  | some v =>
    rw [introduceEnforcer_taken ircd hf]
    exact h.drawUid
  | none =>
    rw [introduceEnforcer_free ircd hf]
    apply Changes.flags
    apply h.drawUid.insert
    rw [drawUid_userFindNamed]
    exact hf

theorem Changes.userDelete (h : Changes ircd leaving n m) (u : ClientId) :
    Changes ircd leaving n (userDelete ircd leaving m u) := by
  cases hx : m.dir.users.find u with
  | none =>
    simp only [Net.userDelete, hx]
    exact h
  | some x =>
    cases hm : m.marked u with
    | false =>
      rw [userDelete_unmarked hx hm]
      exact h.gone hx
    | true =>
      rw [userDelete_marked hx hm]
      apply Changes.introduceEnforcer
      exact (h.flags u _).gone hx

theorem Changes.userAdd (h : Changes ircd leaving n m) (x : User) (now : Int) :
    Changes ircd leaving n (userAdd ircd leaving m x now).1 := by
  simp only [Net.userAdd]
  cases hf : m.userFindNamed ircd x.nick with
  | none =>
    apply h.insert
    exact hf
  | some u2 =>
    simp only
    split_ifs
    · exact h
    · exact h
    · exact h.userDelete u2

theorem Changes.userChangenick (h : Changes ircd leaving n m) (u : ClientId) (nick : CString)
    (ts : Int) : Changes ircd leaving n (userChangenick ircd leaving m u nick ts).1 := by
  cases hx : m.dir.users.find u with
  | none =>
    simp only [Net.userChangenick, hx]
    exact h
  | some x =>
    by_cases hown : m.userFindNamed ircd nick = some u
    · have hnone : (some u).filter (fun v => decide (v ≠ u)) = none := by simp
      simp only [Net.userChangenick, hx, hown, hnone, bne_self_eq_false, Bool.and_false,
        Bool.false_eq_true, if_false]
      apply h.rename ts hx
      intro v hv
      rw [hown] at hv
      exact (Option.some.inj hv).symm
    · rw [userChangenick_eq hx nick ts hown]
      have hun := h.unmarked u
      have hux : (m.unmarked u).dir.users.find u = some x := by rw [unmarked_dir, hx]
      cases hf : m.userFindNamed ircd nick with
      | none =>
        have hfree : ∀ v, (m.unmarked u).userFindNamed ircd nick = some v → v = u := by
          intro v hv
          rw [userFindNamed, unmarked_dir] at hv
          rw [userFindNamed, hv] at hf
          cases hf
        have hren := hun.rename ts hux hfree
        rw [unmarked_dir] at hren
        simp only
        split_ifs
        · exact hren.introduceEnforcer (truncate NICKLEN x.nick)
        · exact hren
      | some u2 =>
        simp only
        split_ifs
        · exact hun
        · exact hun.gone hux
        · exact (hun.gone hux).userDelete u2

end rules

theorem userDelete_changes (n : Net) (u : ClientId) :
    Changes ircd leaving n (userDelete ircd leaving n u) := Changes.refl.userDelete u

theorem userAdd_changes (n : Net) (x : User) (now : Int) :
    Changes ircd leaving n (userAdd ircd leaving n x now).1 := Changes.refl.userAdd x now

theorem userChangenick_changes (n : Net) (u : ClientId) (nick : CString) (ts : Int) :
    Changes ircd leaving n (userChangenick ircd leaving n u nick ts).1 :=
  Changes.refl.userChangenick u nick ts

theorem killUser_changes (n : Net) (u : ClientId) :
    Changes ircd leaving n (killUser ircd leaving n u) := by
  rw [Net.killUser]
  split_ifs
  · exact userDelete_changes ircd leaving n u
  · exact .refl
  · exact userDelete_changes ircd leaving n u

end Net
end ChatServices.Network
