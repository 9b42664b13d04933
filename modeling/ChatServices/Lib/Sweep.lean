import ChatServices.Lib.Walk
import Mathlib.Data.List.Count
import Mathlib.Data.List.Nodup

/-! Linked lists whose links lie in the nodes themselves, so that a node is in a list once at
most. -/
namespace ChatServices.Lib
variable {α : Type*} [DecidableEq α]

structure NodeList (α : Type*) where
  items : List α
  nodup : items.Nodup
  deriving DecidableEq

namespace NodeList

omit [DecidableEq α] in
@[ext] theorem ext {l l' : NodeList α} (h : l.items = l'.items) : l = l' := by
  cases l
  cases l'
  congr

def empty : NodeList α := ⟨[], List.nodup_nil⟩

def add (a : α) (l : NodeList α) : NodeList α :=
  if h : a ∈ l.items then l
  else ⟨l.items ++ [a], List.nodup_append.mpr ⟨l.nodup, List.nodup_singleton a, by
    rintro x hx y hy rfl
    exact h (List.mem_singleton.mp hy ▸ hx)⟩⟩

def remove (a : α) (l : NodeList α) : NodeList α := ⟨l.items.erase a, l.nodup.erase a⟩

variable {a b : α} {l : NodeList α}

theorem items_add (h : a ∉ l.items) : (l.add a).items = l.items ++ [a] := by
  rw [add, dif_neg h]

@[simp] theorem mem_add : b ∈ (l.add a).items ↔ b ∈ l.items ∨ b = a := by
  by_cases h : a ∈ l.items
  · rw [add, dif_pos h]
    constructor
    · exact .inl
    · rintro (hb | rfl)
      · exact hb
      · exact h
  · rw [items_add h]
    simp

theorem items_remove : (l.remove a).items = l.items.erase a := rfl

@[simp] theorem mem_remove : b ∈ (l.remove a).items ↔ b ≠ a ∧ b ∈ l.items := by
  rw [items_remove, l.nodup.mem_erase_iff]

end NodeList
end ChatServices.Lib

/-! A loop over a linked list that takes off, at each node that is due, the node that a search
finds for it. The loop takes off exactly the nodes that are due if and only if each search finds
the node it is made for: a node that is taken off at another's turn has no turn of its own. -/
namespace ChatServices.Lib.Sweep
open ChatServices.Lib.Walk
variable {ρ : Type*} [DecidableEq ρ] (due : ρ → Bool) (victim : List ρ → ρ → Option ρ)

def sweepBody (s : NodeList ρ) (n : ρ) : Option (NodeList ρ) :=
  some (if due n then
    match victim s.items n with
    | some y => s.remove y
    | none => s
  else s)

/-- `none` where the loop goes on to a node that has been taken off. -/
def sweep (s : NodeList ρ) : Option (NodeList ρ) :=
  walkSafe NodeList.items (sweepBody due victim) s.items.length s.items.head? s

def kept (s : NodeList ρ) : NodeList ρ := ⟨s.items.filter (fun n => !due n), s.nodup.filter _⟩

omit [DecidableEq ρ] in
theorem items_kept (s : NodeList ρ) : (kept due s).items = s.items.filter (fun n => !due n) := rfl

def Finds (s : NodeList ρ) : Prop :=
  ∀ before n rest, s.items = before ++ n :: rest → due n = true →
    victim (before.filter (fun n => !due n) ++ n :: rest) n = some n

variable {due victim} {s s' t : NodeList ρ} {n : ρ} {before rest : List ρ} {fuel : Nat}

theorem sweepBody_idle (h : due n = false) : sweepBody due victim s n = some s := by
  rw [sweepBody, h]
  rfl

theorem sweepBody_due (h : due n = true) :
    sweepBody due victim s n = some (match victim s.items n with
      | some y => s.remove y
      | none => s) := by
  rw [sweepBody, h]
  rfl

/-! ### Turns and nodes that are due -/

omit [DecidableEq ρ] in
theorem dropWhile_mono {p : ρ → Bool} {l l' : List ρ} (h : l'.Sublist l) :
    (l'.dropWhile p).Sublist (l.dropWhile p) := by
  induction h with
  | slnil => exact List.Sublist.refl _
  | @cons l₁ l₂ a h ih =>
    rw [List.dropWhile_cons]
    split
    · exact ih
    · exact ((List.dropWhile_sublist p).trans h).cons a
  | @cons_cons l₁ l₂ a h ih =>
    rw [List.dropWhile_cons, List.dropWhile_cons]
    split
    · exact ih
    · exact h.cons_cons a

def upcoming (s : NodeList ρ) : Option ρ → List ρ
  | none => []
  | some n => fromNode NodeList.items s n

theorem upcoming_sublist (hs : s.items = before ++ n :: rest) (ht : t.items.Sublist s.items) :
    (upcoming t rest.head?).Sublist rest := by
  cases rest with
  | nil => exact List.Sublist.refl _
  | cons m rest =>
    have hsplit : s.items = (before ++ [n]) ++ m :: rest := by
      rw [hs]
      simp
    have hfrom : fromNode NodeList.items s m = m :: rest := fromNode_of_append hsplit s.nodup
    rw [List.head?_cons, upcoming, ← hfrom]
    exact dropWhile_mono ht

theorem sweepBody_count (h : sweepBody due victim s n = some t) :
    t.items.Sublist s.items ∧
      s.items.countP due ≤ t.items.countP due + if due n then 1 else 0 := by
  cases hdue : due n with
  | false =>
    rw [sweepBody_idle hdue] at h
    cases h
    exact ⟨List.Sublist.refl _, Nat.le_add_right ..⟩
  | true =>
    rw [sweepBody_due hdue] at h
    cases hv : victim s.items n with
    | none =>
      rw [hv] at h
      cases h
      exact ⟨List.Sublist.refl _, Nat.le_add_right ..⟩
    | some y =>
      rw [hv] at h
      cases h
      rw [NodeList.items_remove, if_pos rfl]
      refine ⟨List.erase_sublist, ?_⟩
      by_cases hy : y ∈ s.items
      · have hcount := (List.perm_cons_erase hy).countP_eq due
        rw [List.countP_cons] at hcount
        split_ifs at hcount <;> omega
      · rw [List.erase_of_not_mem hy]
        exact Nat.le_add_right ..

theorem walk_count {p : Option ρ}
    (h : walkSafe NodeList.items (sweepBody due victim) fuel p s = some s') :
    s.items.countP due ≤ s'.items.countP due + (upcoming s p).countP due := by
  induction fuel generalizing p s with
  | zero =>
    cases p with
    | none =>
      cases h
      exact Nat.le_add_right ..
    | some n => cases h
  | succ fuel ih =>
    cases p with
    | none =>
      cases h
      exact Nat.le_add_right ..
    | some n =>
      rw [walkSafe] at h
      split at h
      · cases h
      · rename_i n' rest hfrom
        obtain ⟨t, hbody, hrun⟩ := Option.bind_eq_some_iff.mp h
        obtain ⟨hsub, hcount⟩ := sweepBody_count hbody
        have hsplit : s.items = s.items.takeWhile (· ≠ n) ++ n' :: rest := by
          rw [← hfrom, fromNode, List.takeWhile_append_dropWhile]
        have hnext := (upcoming_sublist hsplit hsub).countP_le (p := due)
        have hrest := ih hrun
        have hn : n' = n := by
          have hhead := List.head?_dropWhile_not (fun x => decide (x ≠ n)) s.items
          rw [fromNode] at hfrom
          rw [hfrom] at hhead
          simpa using hhead
        rw [upcoming, hfrom, List.countP_cons, hn]
        omega

/-! ### Exactness -/

omit [DecidableEq ρ] in
theorem kept_count : (kept due s).items.countP due = 0 := by
  rw [List.countP_eq_zero, kept]
  intro n hn
  simpa using (List.mem_filter.mp hn).2

theorem mem_of_other (hdue : due n = true) (hn : n ∈ t.items) (hne : victim t.items n ≠ some n)
    (h : sweepBody due victim t n = some s') : n ∈ s'.items := by
  rw [sweepBody_due hdue, Option.some.injEq] at h
  subst h
  cases hv : victim t.items n with
  | none => exact hn
  | some y =>
    have hy : n ≠ y := by
      intro he
      rw [he] at hne hv
      exact hne hv
    exact NodeList.mem_remove.mpr ⟨hy, hn⟩

theorem victim_of_exact (ht : t.items = before ++ n :: rest) (hdue : due n = true)
    (h : (sweepBody due victim t n).bind (walkSafe NodeList.items (sweepBody due victim) fuel
      rest.head?) = some (kept due s)) : victim t.items n = some n := by
  obtain ⟨t', hbody, hrun⟩ := Option.bind_eq_some_iff.mp h
  have hcount := walk_count hrun
  rw [kept_count, Nat.zero_add] at hcount
  by_contra hne
  have hn : n ∈ t.items := by
    rw [ht]
    simp
  have hmem : n ∈ t'.items := mem_of_other hdue hn hne hbody
  have hnext : (upcoming t' rest.head?).Sublist rest :=
    upcoming_sublist ht (sweepBody_count hbody).1
  have hnot : n ∉ upcoming t' rest.head? := by
    intro hin
    have hnodup := t.nodup
    rw [ht, List.nodup_append, List.nodup_cons] at hnodup
    exact hnodup.2.1.1 (hnext.subset hin)
  have hwithin : (upcoming t' rest.head?).Sublist (t'.items.erase n) := by
    have hsub : (upcoming t' rest.head?).Sublist t'.items := by
      cases rest.head? with
      | none => exact List.nil_sublist _
      | some m => exact List.dropWhile_sublist _
    have herase := hsub.erase n
    rwa [List.erase_of_not_mem hnot] at herase
  have hle := hwithin.countP_le (p := due)
  have hall := (List.perm_cons_erase hmem).countP_eq due
  rw [List.countP_cons, hdue, if_pos rfl] at hall
  omega

theorem sweepBody_kept (ht : t.items = before.filter (fun n => !due n) ++ n :: rest)
    (hturn : due n = true → victim t.items n = some n) :
    ∃ t', sweepBody due victim t n = some t' ∧
      t'.items = (before ++ [n]).filter (fun n => !due n) ++ rest := by
  cases hdue : due n with
  | false =>
    refine ⟨t, sweepBody_idle hdue, ?_⟩
    rw [ht]
    simp [hdue]
  | true =>
    refine ⟨t.remove n, by rw [sweepBody_due hdue, hturn hdue], ?_⟩
    have hnot : n ∉ before.filter (fun n => !due n) := by
      intro hin
      have hkept := (List.mem_filter.mp hin).2
      rw [hdue] at hkept
      cases hkept
    rw [NodeList.items_remove, ht, List.erase_append_right _ hnot]
    simp [hdue]

theorem sweep_of_finds (h : Finds due victim s) : sweep due victim s = some (kept due s) := by
  have hlist : ∀ rest (t : NodeList ρ),
      (∃ before, s.items = before ++ rest ∧ t.items = before.filter (fun n => !due n) ++ rest) →
        t.items.Nodup ∧ ∃ before, t.items = before ++ rest := by
    rintro rest t ⟨before, -, ht⟩
    exact ⟨t.nodup, _, ht⟩
  have hbody : ∀ n rest (t : NodeList ρ),
      (∃ before, s.items = before ++ n :: rest ∧
        t.items = before.filter (fun n => !due n) ++ n :: rest) →
        ∃ t', sweepBody due victim t n = some t' ∧
          ∃ before, s.items = before ++ rest ∧
            t'.items = before.filter (fun n => !due n) ++ rest := by
    rintro n rest t ⟨before, hs, ht⟩
    have hturn : due n = true → victim t.items n = some n := by
      intro hdue
      rw [ht]
      exact h before n rest hs hdue
    obtain ⟨t', hstep, ht'⟩ := sweepBody_kept ht hturn
    refine ⟨t', hstep, before ++ [n], ?_, ht'⟩
    rw [hs]
    simp
  have hstart : ∃ before, s.items = before ++ s.items ∧
      s.items = before.filter (fun n => !due n) ++ s.items := ⟨[], rfl, rfl⟩
  obtain ⟨t, hrun, before, hs, ht⟩ := walkSafe_run hlist hbody hstart (Nat.le_refl _)
  have hkept : t = kept due s := by
    apply NodeList.ext
    rw [ht, items_kept, hs]
    simp
  rw [sweep, hrun, hkept]

theorem finds_of_exact (hs : s.items = before ++ rest)
    (ht : t.items = before.filter (fun n => !due n) ++ rest)
    (h : walkSafe NodeList.items (sweepBody due victim) fuel rest.head? t = some (kept due s)) :
    ∀ before' n rest', rest = before' ++ n :: rest' → due n = true →
      victim ((before ++ before').filter (fun n => !due n) ++ n :: rest') n = some n := by
  induction rest generalizing before fuel t with
  | nil =>
    intro before' n rest' hsplit
    simp at hsplit
  | cons m rest ih =>
    cases fuel with
    | zero => cases h
    | succ fuel =>
      have hfrom : fromNode NodeList.items t m = m :: rest := fromNode_of_append ht t.nodup
      rw [List.head?_cons, walkSafe, hfrom] at h
      dsimp only at h
      have hs' : s.items = (before ++ [m]) ++ rest := by
        rw [hs]
        simp
      intro before' n rest' hsplit hdue
      have hturn : due m = true → victim t.items m = some m := fun hm => victim_of_exact ht hm h
      obtain ⟨t', hstep, ht'⟩ := sweepBody_kept ht hturn
      rw [hstep, Option.bind_some] at h
      cases before' with
      | nil =>
        cases hsplit
        rw [List.append_nil, ← ht]
        exact hturn hdue
      | cons m' before' =>
        cases hsplit
        have hrest := ih hs' ht' h before' n rest' rfl hdue
        simpa using hrest

theorem sweep_iff : sweep due victim s = some (kept due s) ↔ Finds due victim s := by
  constructor
  · intro h before n rest hs
    have hnone : s.items = [] ++ s.items := rfl
    exact finds_of_exact hnone hnone h before n rest hs
  · exact sweep_of_finds

/-! ### Searches -/

omit [DecidableEq ρ] in
theorem finds_iff_of_search {hits : ρ → ρ → Bool} :
    Finds due (fun nodes n => nodes.find? (fun y => hits y n)) s ↔
      ∀ before n rest, s.items = before ++ n :: rest → due n = true →
        hits n n = true ∧ ∀ y ∈ before, due y = false → hits y n = false := by
  have hsearch : ∀ (before : List ρ) n rest, due n = true →
      ((before.filter (fun n => !due n) ++ n :: rest).find? (fun y => hits y n) = some n ↔
        hits n n = true ∧ ∀ y ∈ before, due y = false → hits y n = false) := by
    intro before n rest hdue
    have hnot : n ∉ before.filter (fun n => !due n) := by
      intro hin
      have hkept := (List.mem_filter.mp hin).2
      rw [hdue] at hkept
      cases hkept
    rw [List.find?_append]
    cases hfirst : (before.filter (fun n => !due n)).find? (fun y => hits y n) with
    | some y =>
      have hy := List.mem_of_find?_eq_some hfirst
      have hhit := List.find?_some hfirst
      obtain ⟨hbefore, hidle⟩ := List.mem_filter.mp hy
      refine iff_of_false (fun he => ?_) (fun h => ?_)
      · cases he
        exact hnot hy
      · have hmiss := h.2 y hbefore (by simpa using hidle)
        rw [hhit] at hmiss
        cases hmiss
    | none =>
      have hnone : ∀ y ∈ before, due y = false → hits y n = false := by
        intro y hy hidle
        have hmiss := List.find?_eq_none.mp hfirst y (List.mem_filter.mpr ⟨hy, by simp [hidle]⟩)
        simpa using hmiss
      rw [Option.none_or]
      constructor
      · intro h
        have hself := List.find?_some h
        exact ⟨hself, hnone⟩
      · intro h
        exact List.find?_cons_of_pos h.1
  constructor
  · intro h before n rest hs hdue
    exact (hsearch before n rest hdue).mp (h before n rest hs hdue)
  · intro h before n rest hs hdue
    exact (hsearch before n rest hdue).mpr (h before n rest hs hdue)

end ChatServices.Lib.Sweep
