import Mathlib.Data.List.Basic
import Mathlib.Logic.Function.Basic

/-! The memory behind a pointer: which cells have been written, and texts that are laid down in it from
its beginning. -/
namespace ChatServices.Lib
variable {α : Type*}

/-- A cell that has not been written is `none`. -/
abbrev Cells (α : Type*) := Nat → Option α

namespace Cells

def blank : Cells α := fun _ => none

def put (mem : Cells α) (i : Nat) (a : α) : Cells α := Function.update mem i (some a)

def puts (mem : Cells α) (i : Nat) : List α → Cells α
  | [] => mem
  | a :: as => puts (mem.put i a) (i + 1) as

/-- The text stands at the beginning, and nothing has been written from `reach` on. -/
structure Holds (mem : Cells α) (text : List α) (reach : Nat) : Prop where
  front : ∀ i < text.length, mem i = text[i]?
  beyond : ∀ i ≥ reach, mem i = none

structure Reads (stop : α) (mem : Cells α) (text : List α) : Prop where
  front : ∀ i < text.length, mem i = text[i]?
  stopped : mem text.length = some stop

variable {mem : Cells α} {text rest : List α} {reach : Nat} {a stop : α}

@[simp] theorem put_self (mem : Cells α) (i : Nat) (a : α) : mem.put i a i = some a :=
  Function.update_self _ _ _

theorem put_other {i j : Nat} (h : j ≠ i) : mem.put i a j = mem j := Function.update_of_ne h _ _

theorem put_put (mem : Cells α) (i : Nat) (a b : α) : (mem.put i a).put i b = mem.put i b :=
  Function.update_idem _ _ _

theorem puts_append (mem : Cells α) (i : Nat) (as bs : List α) :
    mem.puts i (as ++ bs) = (mem.puts i as).puts (i + as.length) bs := by
  induction as generalizing mem i with
  | nil => rfl
  | cons a as ih =>
    rw [List.cons_append, puts, puts, ih, List.length_cons, Nat.add_assoc, Nat.add_comm 1]

theorem holds_blank : Holds (blank : Cells α) [] 0 := by
  refine ⟨fun i hi => ?_, fun i _ => rfl⟩
  simp at hi

theorem Holds.widen (h : Holds mem text reach) {reach' : Nat} (hle : reach ≤ reach') :
    Holds mem text reach' := ⟨h.front, fun i hi => h.beyond i (Nat.le_trans hle hi)⟩

theorem Holds.prefix_holds (h : Holds mem (text ++ rest) reach) : Holds mem text reach := by
  refine ⟨fun i hi => ?_, h.beyond⟩
  rw [h.front i (by rw [List.length_append]; omega), List.getElem?_append_left hi]

theorem Holds.mark (h : Holds mem text reach) (a : α) :
    Holds (mem.put text.length a) text (max reach (text.length + 1)) := by
  refine ⟨fun i hi => ?_, fun i hi => ?_⟩
  · rw [put_other (by omega)]
    exact h.front i hi
  · rw [put_other (by omega)]
    exact h.beyond i (by omega)

theorem Holds.put (h : Holds mem text reach) (a : α) :
    Holds (mem.put text.length a) (text ++ [a]) (max reach (text.length + 1)) := by
  refine ⟨fun i hi => ?_, (h.mark a).beyond⟩
  rw [List.length_append, List.length_singleton] at hi
  by_cases hlast : i = text.length
  · rw [hlast, put_self, List.getElem?_append_right (Nat.le_refl _), Nat.sub_self]
    rfl
  · rw [(h.mark a).front i (by omega), List.getElem?_append_left (by omega)]

theorem Holds.puts (h : Holds mem text reach) (as : List α) :
    Holds (mem.puts text.length as) (text ++ as) (max reach (text ++ as).length) := by
  induction as generalizing mem text reach with
  | nil =>
    rw [List.append_nil]
    exact h.widen (Nat.le_max_left _ _)
  | cons a as ih =>
    have hnext := ih (h.put a)
    rw [List.length_append, List.length_singleton, List.append_assoc, List.singleton_append] at hnext
    rw [Cells.puts]
    refine hnext.widen ?_
    rw [List.length_append, List.length_cons]
    omega

theorem Holds.reads (h : Holds mem text reach) (stop : α) :
    Reads stop (mem.put text.length stop) text := ⟨(h.mark stop).front, put_self _ _ _⟩

theorem Holds.reads_front (h : Holds mem (text ++ [stop]) reach) : Reads stop mem text := by
  refine ⟨h.prefix_holds.front, ?_⟩
  rw [h.front _ (by rw [List.length_append, List.length_singleton]; omega),
    List.getElem?_append_right (Nat.le_refl _), Nat.sub_self]
  rfl

theorem Reads.written (h : Reads stop mem text) {i : Nat} (hi : i ≤ text.length) : mem i ≠ none := by
  obtain hlt | rfl := Nat.lt_or_eq_of_le hi
  · rw [h.front i hlt, ne_eq, List.getElem?_eq_none_iff]
    omega
  · rw [h.stopped]
    exact Option.some_ne_none _

theorem Reads.unique {text' : List α} (h : Reads stop mem text) (h' : Reads stop mem text')
    (hfree : stop ∉ text) (hfree' : stop ∉ text') : text = text' := by
  have hlen : ∀ {s t : List α}, Reads stop mem s → Reads stop mem t → stop ∉ t →
      t.length ≤ s.length := by
    intro s t hs ht hfree
    by_contra hlt
    have hat := ht.front s.length (by omega)
    rw [hs.stopped] at hat
    exact hfree (List.mem_of_getElem? hat.symm)
  have hsame : text.length = text'.length := Nat.le_antisymm (hlen h' h hfree) (hlen h h' hfree')
  apply List.ext_getElem?
  intro i
  by_cases hi : i < text.length
  · rw [← h.front i hi, h'.front i (by omega)]
  · rw [List.getElem?_eq_none (by omega), List.getElem?_eq_none (by omega)]

end Cells
end ChatServices.Lib
