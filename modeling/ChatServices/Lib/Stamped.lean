import Mathlib.Order.Lattice

/-! States with a timestamp, of which the oldest wins. A message with an older timestamp resets the
state before it applies, one with the same timestamp applies, and one with a newer timestamp only
adds what does not depend on it. Under the laws below the order of two messages does not matter. -/
namespace ChatServices.Lib.Stamped
variable {τ σ μ : Type*} [LinearOrder τ]

structure Merge (σ μ : Type*) where
  reset : σ → σ
  apply : μ → σ → σ
  add : μ → σ → σ

def receive (M : Merge σ μ) (s : τ × σ) (m : τ × μ) : τ × σ :=
  if m.1 < s.1 then (m.1, M.apply m.2 (M.reset s.2))
  else if s.1 < m.1 then (s.1, M.add m.2 s.2)
  else (s.1, M.apply m.2 s.2)

/-- What `b` adds is the same before and after `a`, and a reset leaves of `b` no more than that. -/
structure Independent (M : Merge σ μ) (a b : μ) : Prop where
  reset_apply : ∀ x, M.apply a (M.reset (M.apply b x)) = M.add b (M.apply a (M.reset x))
  reset_add : ∀ x, M.apply a (M.reset (M.add b x)) = M.add b (M.apply a (M.reset x))
  apply_add : ∀ x, M.apply a (M.add b x) = M.add b (M.apply a x)
  add_add : ∀ x, M.add a (M.add b x) = M.add b (M.add a x)

variable (M : Merge σ μ)

theorem receive_older {s : τ × σ} {m : τ × μ} (h : m.1 < s.1) :
    receive M s m = (m.1, M.apply m.2 (M.reset s.2)) := if_pos h

theorem receive_newer {s : τ × σ} {m : τ × μ} (h : s.1 < m.1) :
    receive M s m = (s.1, M.add m.2 s.2) := by
  rw [receive, if_neg h.not_gt, if_pos h]

theorem receive_same {s : τ × σ} {m : τ × μ} (h : m.1 = s.1) :
    receive M s m = (s.1, M.apply m.2 s.2) := by
  rw [receive, if_neg h.not_lt, if_neg h.not_gt]

theorem receive_ts (s : τ × σ) (m : τ × μ) : (receive M s m).1 = min s.1 m.1 := by
  obtain h | h | h := lt_trichotomy m.1 s.1
  · rw [receive_older M h, min_eq_right h.le]
  · rw [receive_same M h, h, min_self]
  · rw [receive_newer M h, min_eq_left h.le]

variable {M}

theorem receive_comm_of_lt (hidem : ∀ x, M.reset (M.reset x) = M.reset x) {a b : τ × μ}
    (h : Independent M a.2 b.2) (hlt : a.1 < b.1) (s : τ × σ) :
    receive M (receive M s a) b = receive M (receive M s b) a := by
  -- after the older one the other is newer than the state
  have hlate : (receive M s a).1 < b.1 := by
    rw [receive_ts]
    exact (min_le_right _ _).trans_lt hlt
  rw [receive_newer M hlate]
  obtain has | has | has := lt_trichotomy a.1 s.1
  · have hright : a.1 < (receive M s b).1 := by
      rw [receive_ts]
      exact lt_min has hlt
    have hvalue : M.apply a.2 (M.reset (receive M s b).2) = M.add b.2 (M.apply a.2 (M.reset s.2)) := by
      obtain hbs | hbs | hbs := lt_trichotomy b.1 s.1
      · rw [receive_older M hbs, h.reset_apply, hidem]
      · rw [receive_same M hbs, h.reset_apply]
      · rw [receive_newer M hbs, h.reset_add]
    rw [receive_older M hright, hvalue, receive_older M has]
  · have hsb : s.1 < b.1 := has ▸ hlt
    have hsame : a.1 = (s.1, M.add b.2 s.2).1 := has
    rw [receive_newer M hsb, receive_same M has, receive_same M hsame, h.apply_add]
  · have hsb : s.1 < b.1 := has.trans hlt
    have hnewer : (s.1, M.add b.2 s.2).1 < a.1 := has
    rw [receive_newer M hsb, receive_newer M has, receive_newer M hnewer, h.add_add]

theorem receive_comm (hidem : ∀ x, M.reset (M.reset x) = M.reset x) {a b : τ × μ}
    (h : Independent M a.2 b.2) (h' : Independent M b.2 a.2) (hne : a.1 ≠ b.1) (s : τ × σ) :
    receive M (receive M s a) b = receive M (receive M s b) a := by
  obtain hlt | hlt := lt_or_gt_of_ne hne
  · exact receive_comm_of_lt hidem h hlt s
  · exact (receive_comm_of_lt hidem h' hlt s).symm

end ChatServices.Lib.Stamped
