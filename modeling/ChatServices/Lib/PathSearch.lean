import Mathlib.Data.Finset.Card
import Mathlib.Logic.Function.Basic
import Mathlib.Logic.Relation

/-! Depth-first search that marks the nodes of the path it is on and takes the marks off again on
the way out. It finds a goal exactly where one can be reached, whatever cycles the graph has. -/
namespace ChatServices.Lib
variable {ν ε : Type*}

structure SearchGraph (ν ε : Type*) where
  edges : ν → List ε
  next : ε → Option ν
  goal : ν → ε → Bool

namespace SearchGraph

section search
variable [DecidableEq ν] (g : SearchGraph ν ε)

/-- The loop over the edges of a node, with the search from a node further on as `below`. -/
def scan (below : (ν → Bool) → ν → Option ((ν → Bool) × Option ε)) (v : ν) (marks : ν → Bool) :
    List ε → Option ((ν → Bool) × Option ε)
  | [] => some (marks, none)
  | e :: es =>
    match (g.next e).filter (fun w => !marks w) with
    | some w => (below marks w).bind fun r =>
      if r.2.isSome then some (r.1, some e) else scan below v r.1 es
    | none => if g.goal v e then some (marks, some e) else scan below v marks es

/-- The marks afterwards and the edge found, or `none` when the fuel has run out. -/
def search : Nat → (ν → Bool) → ν → Option ((ν → Bool) × Option ε)
  | 0, _, _ => none
  | fuel + 1, marks, v =>
    (scan g (search fuel) v (Function.update marks v true) (g.edges v)).map fun r =>
      (Function.update r.1 v false, r.2)

end search

section flat
variable [DecidableEq ν] {g : SearchGraph ν ε} {v : ν}

omit [DecidableEq ν] in
theorem scan_flat {below : (ν → Bool) → ν → Option ((ν → Bool) × Option ε)} {marks : ν → Bool}
    {es : List ε} (h : ∀ e, g.next e = none) :
    g.scan below v marks es = some (marks, es.find? (g.goal v)) := by
  induction es with
  | nil => rfl
  | cons e es ih =>
    rw [scan, h e, List.find?_cons]
    dsimp only [Option.filter_none]
    cases g.goal v e
    · exact ih
    · rfl

theorem search_flat (h : ∀ e, g.next e = none) (fuel : Nat) (marks : ν → Bool) :
    (g.search (fuel + 1) marks v).bind Prod.snd = (g.edges v).find? (g.goal v) := by
  rw [search, scan_flat h]
  rfl

end flat

section paths
variable (g : SearchGraph ν ε) (avoid : ν → Prop)

def Edge (v w : ν) : Prop := ∃ e ∈ g.edges v, g.next e = some w

def Path : ν → ν → Prop := Relation.ReflTransGen fun v w => g.Edge v w ∧ ¬avoid w

def Finds (v : ν) : Prop := ∃ w, g.Path avoid v w ∧ ∃ e ∈ g.edges w, g.goal w e = true

/-- An edge of `v` that is a goal, or from which a goal is reached without coming back to `v`. -/
def Leads (v : ν) (e : ε) : Prop :=
  g.goal v e = true ∨ ∃ w, g.next e = some w ∧ ¬avoid w ∧ g.Finds avoid w

variable {g avoid}

theorem Path.mono {avoid' : ν → Prop} {v w : ν} (h : g.Path avoid v w)
    (hsub : ∀ w, avoid' w → avoid w) : g.Path avoid' v w := by
  induction h with
  | refl => exact Relation.ReflTransGen.refl
  | @tail b c _ hbc ih => exact ih.tail ⟨hbc.1, fun ha => hbc.2 (hsub c ha)⟩

theorem Path.simple {v w : ν} (h : g.Path avoid v w) : g.Path (fun u => avoid u ∨ u = v) v w := by
  induction h with
  | refl => exact Relation.ReflTransGen.refl
  | @tail b c _ hbc ih =>
    by_cases hc : c = v
    · rw [hc]
      exact Relation.ReflTransGen.refl
    · exact ih.tail ⟨hbc.1, fun ha => ha.elim hbc.2 hc⟩

theorem finds_iff (v : ν) :
    g.Finds avoid v ↔ ∃ e ∈ g.edges v, g.Leads (fun u => avoid u ∨ u = v) v e := by
  constructor
  · rintro ⟨w, hpath, e, he, hgoal⟩
    obtain rfl | ⟨u, ⟨⟨e', he', hnext⟩, hu⟩, hrest⟩ := hpath.simple.cases_head
    · exact ⟨e, he, .inl hgoal⟩
    · exact ⟨e', he', .inr ⟨u, hnext, hu, w, hrest, e, he, hgoal⟩⟩
  · rintro ⟨e, he, hgoal | ⟨u, hnext, hu, w, hpath, e', he', hgoal⟩⟩
    · exact ⟨v, Relation.ReflTransGen.refl, e, he, hgoal⟩
    · have hstep : g.Edge v u ∧ ¬avoid u := ⟨⟨e, he, hnext⟩, fun ha => hu (.inl ha)⟩
      have hrest : g.Path avoid u w := hpath.mono fun _ => .inl
      exact ⟨w, Relation.ReflTransGen.head hstep hrest, e', he', hgoal⟩

end paths

section correctness
variable [DecidableEq ν] {g : SearchGraph ν ε}

abbrev Marked (marks : ν → Bool) (v : ν) : Prop := marks v = true

theorem marked_update (marks : ν → Bool) (v : ν) :
    Marked (Function.update marks v true) = fun u => Marked marks u ∨ u = v := by
  funext u
  rw [Marked, Function.update_apply]
  by_cases hu : u = v <;> simp [hu, Marked]

omit [DecidableEq ν] in
open Classical in
theorem scan_eq {below : (ν → Bool) → ν → Option ((ν → Bool) × Option ε)} {v : ν}
    {marks : ν → Bool} {es : List ε}
    (hgoal : ∀ e ∈ es, g.goal v e = true → g.next e = none)
    (hbelow : ∀ e ∈ es, ∀ w, g.next e = some w → marks w = false →
      ∃ r, below marks w = some (marks, r) ∧ (r.isSome = true ↔ g.Finds (Marked marks) w)) :
    g.scan below v marks es =
      some (marks, es.find? fun e => decide (g.Leads (Marked marks) v e)) := by
  induction es with
  | nil => rfl
  | cons e es ih =>
    have htail := ih (fun e' he' => hgoal e' (List.mem_cons_of_mem e he'))
      (fun e' he' => hbelow e' (List.mem_cons_of_mem e he'))
    rw [scan, List.find?_cons, htail]
    cases hnext : (g.next e).filter (fun w => !marks w) with
    | none =>
      dsimp only
      have hleads : g.Leads (Marked marks) v e ↔ g.goal v e = true := by
        refine ⟨fun h => h.resolve_right ?_, .inl⟩
        rintro ⟨w, hw, hfree, -⟩
        rw [hw] at hnext
        simp [Option.filter, hfree] at hnext
      by_cases hg : g.goal v e = true
      · rw [if_pos hg, decide_eq_true (hleads.mpr hg)]
      · rw [if_neg hg, decide_eq_false fun h => hg (hleads.mp h)]
    | some w =>
      obtain ⟨hw, hfree⟩ := Option.filter_eq_some_iff.mp hnext
      have hfree' : marks w = false := by simpa using hfree
      obtain ⟨r, hr, hfinds⟩ := hbelow e List.mem_cons_self w hw hfree'
      dsimp only
      rw [hr, Option.bind_some]
      have hleads : g.Leads (Marked marks) v e ↔ r.isSome = true := by
        rw [hfinds]
        constructor
        · rintro (hg | ⟨w', hw', -, hf⟩)
          · rw [hgoal e List.mem_cons_self hg] at hw
            cases hw
          · rw [hw] at hw'
            exact Option.some.inj hw' ▸ hf
        · intro hf
          exact .inr ⟨w, hw, by simp [Marked, hfree'], hf⟩
      cases r with
      | some e' => simp [hleads.mpr rfl]
      | none =>
        have hnot : ¬g.Leads (Marked marks) v e := fun h => by
          cases hleads.mp h
        simp [hnot, htail]

open Classical in
/-- With more fuel than there are nodes without a mark, the search comes to an end with the marks
as they were, and finds the first edge that leads to a goal. -/
theorem search_eq (hgoal : ∀ v, ∀ e ∈ g.edges v, g.goal v e = true → g.next e = none)
    {nodes : Finset ν} (hnodes : ∀ v, v ∉ nodes → g.edges v = []) {fuel : Nat}
    {marks : ν → Bool} {v : ν} (hfuel : (nodes.filter fun u => marks u = false).card < fuel)
    (hv : marks v = false) :
    g.search fuel marks v = some (marks, (g.edges v).find? fun e =>
      decide (g.Leads (fun u => Marked marks u ∨ u = v) v e)) := by
  induction fuel generalizing marks v with
  | zero => omega
  | succ fuel ih =>
    have hback : Function.update (Function.update marks v true) v false = marks := by
      rw [Function.update_idem, ← hv, Function.update_eq_self]
    rw [search, scan_eq (hgoal v), Option.map_some, hback, marked_update]
    intro e he w hnext hw
    have hmem : v ∈ nodes := by
      by_contra hout
      rw [hnodes v hout] at he
      cases he
    -- one node less is free of a mark
    have hless : (nodes.filter fun u => Function.update marks v true u = false).card < fuel := by
      have hlt : (nodes.filter fun u => Function.update marks v true u = false).card <
          (nodes.filter fun u => marks u = false).card := by
        apply Finset.card_lt_card
        rw [Finset.ssubset_iff_of_subset]
        · exact ⟨v, by simp [hmem, hv], by simp⟩
        · intro u hu
          rw [Finset.mem_filter, Function.update_apply] at hu
          split_ifs at hu with huv
          · cases hu.2
          · exact Finset.mem_filter.mpr hu
      omega
    refine ⟨_, ih hless hw, ?_⟩
    rw [finds_iff, List.find?_isSome]
    simp only [decide_eq_true_eq]

end correctness
end SearchGraph
end ChatServices.Lib
