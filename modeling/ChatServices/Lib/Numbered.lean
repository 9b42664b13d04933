import Mathlib.Data.List.Nodup
import Mathlib.Data.Fintype.Card

/-! Lists whose items carry a number: fresh numbers from a counter, the search for a number,
and the search for the first item that some test accepts. -/
namespace ChatServices.Lib.Numbered
variable {α : Type*} {num : α → Nat} {xs : List α}

def Distinct (num : α → Nat) (xs : List α) : Prop := (xs.map num).Nodup

theorem Distinct.sublist {ys : List α} (h : Distinct num xs) (hs : ys.Sublist xs) : Distinct num ys :=
  List.Nodup.sublist (hs.map num) h

theorem Distinct.append_fresh {c : Nat} {a : α} (h : Distinct num xs) (hle : ∀ x ∈ xs, num x ≤ c)
    (ha : c < num a) : Distinct num (xs ++ [a]) := by
  rw [Distinct, List.map_append, List.nodup_append]
  refine ⟨h, List.nodup_singleton _, fun n hn m hm => ?_⟩
  obtain ⟨x, hx, rfl⟩ := List.mem_map.mp hn
  have hle := hle x hx
  have hm : m = num a := by simpa using hm
  omega

theorem Distinct.of_comp {f : Nat → Nat} (h : Distinct (fun x => f (num x)) xs) : Distinct num xs := by
  have hmap : xs.map (fun x => f (num x)) = (xs.map num).map f := by simp
  rw [Distinct, hmap] at h
  exact List.Nodup.of_map f h

theorem Distinct.length_lt {N : Nat} (h : Distinct num xs) (hpos : ∀ x ∈ xs, 0 < num x)
    (hlt : ∀ x ∈ xs, num x < N) (hN : 0 < N) : xs.length < N := by
  have hsub : xs.map num ⊆ List.range' 1 (N - 1) := by
    intro n hn
    obtain ⟨x, hx, rfl⟩ := List.mem_map.mp hn
    have h1 := hpos x hx
    have h2 := hlt x hx
    rw [List.mem_range'_1]
    omega
  have hle := (List.subperm_of_subset h hsub).length_le
  rw [List.length_map, List.length_range'] at hle
  omega

/-- Where each item is not hit by those before it, dropping the first item that hits `x`, for
an item that hits itself, drops `x`. -/
theorem eraseP_eq_filter {hits : α → α → Bool} {x : α}
    (hpair : xs.Pairwise fun a b => hits a b = false) (hself : hits x x = true)
    (hinj : Distinct num xs) (hx : x ∈ xs) :
    xs.eraseP (fun y => hits y x) = xs.filter (fun y => num y ≠ num x) := by
  induction xs with
  | nil => simp at hx
  | cons a as ih =>
    obtain ⟨ha, has⟩ := List.pairwise_cons.mp hpair
    have hnodup : num a ∉ as.map num ∧ Distinct num as := List.nodup_cons.mp hinj
    obtain rfl | hx := List.mem_cons.mp hx
    · have hkeep : ∀ y ∈ as, num y ≠ num x := fun y hy heq =>
        hnodup.1 (List.mem_map.mpr ⟨y, hy, heq⟩)
      have hfilter : as.filter (fun y => decide (num y ≠ num x)) = as :=
        List.filter_eq_self.mpr fun y hy => decide_eq_true (hkeep y hy)
      rw [List.eraseP_cons, hself, cond_true, List.filter_cons_of_neg (by simp), hfilter]
    · have hne : num a ≠ num x := fun heq => hnodup.1 (List.mem_map.mpr ⟨x, hx, heq.symm⟩)
      rw [List.eraseP_cons, ha x hx, cond_false, List.filter_cons_of_pos (by simpa using hne),
        ih has hnodup.2 hx]

theorem Distinct.eraseP_num {x : α} (h : Distinct num xs) (hx : x ∈ xs) :
    xs.eraseP (fun y => num y = num x) = xs.filter (fun y => num y ≠ num x) := by
  have hpair : xs.Pairwise fun a b => decide (num a = num b) = false := by
    rw [Distinct, List.Nodup, List.pairwise_map] at h
    exact h.imp fun hne => decide_eq_false hne
  exact @eraseP_eq_filter α num xs (fun a b => decide (num a = num b)) x hpair (by simp) h hx

end ChatServices.Lib.Numbered
