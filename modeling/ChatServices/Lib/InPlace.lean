import ChatServices.Lib.Halting
import Mathlib.Data.List.Basic

/-! Loops that rewrite a buffer in place. What is written stands in front of what is read, with a
gap of bytes that have been read and not yet overwritten in between. -/
namespace ChatServices.Lib.InPlace
open ChatServices.Lib.Halting
variable {α ο : Type*}

structure Cursor (α : Type*) where
  mem : List α
  read : Nat
  write : Nat

def placed (written gap rest : List α) : Cursor α :=
  ⟨written ++ gap ++ rest, written.length + gap.length, written.length⟩

theorem set_placed (written gap : List α) {chunk : List α} (hchunk : chunk ≠ []) (tail : List α)
    (a : α) : ∃ gap', gap'.length + 1 = gap.length + chunk.length ∧
      (written ++ gap ++ (chunk ++ tail)).set written.length a = written ++ [a] ++ gap' ++ tail := by
  cases gap with
  | cons g gap =>
    refine ⟨gap ++ chunk, by simp; omega, ?_⟩
    simp
  | nil =>
    cases chunk with
    | nil => exact absurd rfl hchunk
    | cons b chunk =>
      refine ⟨chunk, by simp, ?_⟩
      simp

variable (step : Cursor α → ο ⊕ Cursor α)

/-- In front of `tail` the loop reads `chunk` and writes `out`, wherever it is in the buffer. -/
def Rewrites (chunk out tail : List α) : Prop :=
  ∀ written gap, ∃ gap', out.length + gap'.length = gap.length + chunk.length ∧
    ∀ n answer, Takes step n (placed (written ++ out) gap' tail) answer →
      ∃ m, m ≤ n + chunk.length ∧ Takes step m (placed written gap (chunk ++ tail)) answer

variable {step} {chunk chunk' out out' tail : List α}

theorem Rewrites.nil (tail : List α) : Rewrites step [] [] tail := by
  intro written gap
  refine ⟨gap, by simp, fun n answer h => ⟨n, by simp, ?_⟩⟩
  simpa using h

theorem Rewrites.append (h : Rewrites step chunk out (chunk' ++ tail))
    (h' : Rewrites step chunk' out' tail) : Rewrites step (chunk ++ chunk') (out ++ out') tail := by
  intro written gap
  obtain ⟨gap₁, hlen₁, hfirst⟩ := h written gap
  obtain ⟨gap₂, hlen₂, hsecond⟩ := h' (written ++ out) gap₁
  refine ⟨gap₂, by simp only [List.length_append]; omega, fun n answer htakes => ?_⟩
  rw [← List.append_assoc] at htakes
  obtain ⟨m₂, hm₂, htakes₂⟩ := hsecond n answer htakes
  obtain ⟨m₁, hm₁, htakes₁⟩ := hfirst m₂ answer htakes₂
  refine ⟨m₁, by simp only [List.length_append]; omega, ?_⟩
  rwa [List.append_assoc]

theorem Rewrites.once {a : α} (hchunk : chunk ≠ [])
    (h : ∀ front write, write ≤ front.length →
      step ⟨front ++ (chunk ++ tail), front.length, write⟩ =
        .inr ⟨(front ++ (chunk ++ tail)).set write a, front.length + chunk.length, write + 1⟩) :
    Rewrites step chunk [a] tail := by
  intro written gap
  obtain ⟨gap', hlen, hset⟩ := set_placed written gap hchunk tail a
  refine ⟨gap', by simp only [List.length_cons, List.length_nil]; omega, fun n answer htakes => ?_⟩
  have hstep := h (written ++ gap) written.length (by simp)
  rw [hset, List.length_append] at hstep
  have hwrite : written.length + 1 = (written ++ [a]).length := by simp
  have hread : written.length + gap.length + chunk.length =
      (written ++ [a]).length + gap'.length := by
    rw [← hwrite]
    omega
  rw [hread, hwrite] at hstep
  have hpos := List.length_pos_iff.mpr hchunk
  exact ⟨n + 1, by omega, Takes.next hstep htakes⟩

theorem Rewrites.flatMap {β : Type*} {f g : β → List α} {xs : List β}
    (h : ∀ x ∈ xs, ∀ tail, Rewrites step (f x) (g x) tail) (tail : List α) :
    Rewrites step (xs.flatMap f) (xs.flatMap g) tail := by
  induction xs with
  | nil => exact .nil tail
  | cons x xs ih =>
    rw [List.flatMap_cons, List.flatMap_cons]
    have hhead := h x List.mem_cons_self (xs.flatMap f ++ tail)
    exact hhead.append (ih fun y hy => h y (List.mem_cons_of_mem x hy))

end ChatServices.Lib.InPlace

/-! Text that is written over other text, also behind the end of what is known. -/
namespace ChatServices.Lib.Overwrite
variable {α : Type*}

/-- `w` stands at `i`, with `fill` where nothing was known in front of it. -/
def overwrite (fill : α) (mem : List α) (i : Nat) (w : List α) : List α :=
  mem.take i ++ List.replicate (i - mem.length) fill ++ w ++ mem.drop (i + w.length)

variable {fill : α} {mem w : List α} {i m : Nat}

theorem overwrite_within (h : i ≤ mem.length) :
    overwrite fill mem i w = mem.take i ++ (w ++ mem.drop (i + w.length)) := by
  have hnone : i - mem.length = 0 := by omega
  rw [overwrite, hnone, List.replicate_zero, List.append_nil, List.append_assoc]

theorem overwrite_same {front old rest : List α} (h : w.length = old.length) :
    overwrite fill (front ++ (old ++ rest)) front.length w = front ++ (w ++ rest) := by
  have hdrop : (front ++ (old ++ rest)).drop (front.length + old.length) = rest := by
    rw [← List.append_assoc, ← List.length_append, List.drop_left]
  rw [overwrite_within (by simp), List.take_left, h, hdrop]

theorem overwrite_moved (fill : α) (mem w chunk : List α) (hi : i ≤ mem.length) : ∃ behind,
    overwrite fill (overwrite fill mem (i + w.length) chunk) i w =
      mem.take i ++ (w ++ (chunk ++ behind)) := by
  have hlen : (mem.take (i + w.length) ++ List.replicate (i + w.length - mem.length) fill).length =
      i + w.length := by
    rw [List.length_append, List.length_take, List.length_replicate]
    omega
  have hfront : (mem.take (i + w.length) ++
      List.replicate (i + w.length - mem.length) fill).take i = mem.take i := by
    rw [List.take_append_of_le_length (by rw [List.length_take]; omega), List.take_take]
    congr 1
    omega
  refine ⟨mem.drop (i + w.length + chunk.length), ?_⟩
  have hwithin : i ≤ (overwrite fill mem (i + w.length) chunk).length := by
    rw [overwrite, List.append_assoc, List.length_append, hlen]
    omega
  rw [overwrite_within hwithin, overwrite, List.append_assoc _ chunk]
  rw [List.take_append_of_le_length (by omega), hfront, List.drop_append_of_le_length (by omega),
    List.drop_of_length_le (by omega), List.nil_append]

end ChatServices.Lib.Overwrite
