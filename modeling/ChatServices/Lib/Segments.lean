import Mathlib.Algebra.Group.Nat.Defs
import Mathlib.Data.List.Basic
import Mathlib.Tactic.SplitIfs

/-! A byte queue kept in a list of blocks of one size. Data goes in at the end of the last
block and comes out at the first; the offsets of a block say which of its cells are in use. -/
namespace ChatServices.Lib.Segments
variable {α : Type*} {σ : Type*}

structure Segment (α : Type*) where
  firstused : Nat
  firstfree : Nat
  buf : List α
  deriving DecidableEq

namespace Segment

def pending (c : Segment α) : List α := (c.buf.drop c.firstused).take (c.firstfree - c.firstused)

def avail (c : Segment α) : Nat := c.firstfree - c.firstused

/-- Overwrite the cells from offset `off` on. -/
def store (cells : List α) (off : Nat) (xs : List α) : List α :=
  cells.take off ++ xs ++ cells.drop (off + xs.length)

def push (c : Segment α) (xs : List α) : Segment α :=
  ⟨c.firstused, c.firstfree + xs.length, store c.buf c.firstfree xs⟩

def skip (c : Segment α) (n : Nat) : Segment α := { c with firstused := c.firstused + n }

def rewind (c : Segment α) : Segment α := { c with firstused := 0, firstfree := 0 }

structure Fits (size : Nat) (c : Segment α) : Prop where
  used : c.firstused ≤ c.firstfree
  free : c.firstfree ≤ size
  cells : c.buf.length = size

variable {size : Nat} {c : Segment α} {xs : List α}

theorem length_store (cells : List α) (off : Nat) (xs : List α)
    (h : off + xs.length ≤ cells.length) : (store cells off xs).length = cells.length := by
  simp only [store, List.length_append, List.length_take, List.length_drop]
  omega

theorem length_pending (h : Fits size c) : c.pending.length = c.avail := by
  have hused := h.used
  have hfree := h.free
  have hcells := h.cells
  simp only [pending, avail, List.length_take, List.length_drop]
  omega

theorem pending_eq_nil (h : Fits size c) : c.pending = [] ↔ c.firstused = c.firstfree := by
  have hused := h.used
  have hlen := length_pending h
  rw [← List.length_eq_zero_iff, hlen, avail]
  omega

theorem pending_push (h : Fits size c) (hroom : c.firstfree + xs.length ≤ size) :
    (c.push xs).pending = c.pending ++ xs := by
  have hused := h.used
  have hcells := h.cells
  have hbefore : (c.buf.take c.firstfree).length = c.firstfree := by
    rw [List.length_take]
    omega
  have hdrop : (store c.buf c.firstfree xs).drop c.firstused
      = (c.buf.take c.firstfree).drop c.firstused ++ xs
        ++ c.buf.drop (c.firstfree + xs.length) := by
    rw [store, List.append_assoc, List.drop_append_of_le_length (by omega), List.append_assoc]
  have hfront : ((c.buf.take c.firstfree).drop c.firstused ++ xs).length
      = c.firstfree + xs.length - c.firstused := by
    rw [List.length_append, List.length_drop, hbefore]
    omega
  have hpending : (c.buf.take c.firstfree).drop c.firstused = c.pending := by
    rw [pending, List.drop_take]
  calc
    (c.push xs).pending
        = ((store c.buf c.firstfree xs).drop c.firstused).take
            (c.firstfree + xs.length - c.firstused) := rfl
    _ = (c.buf.take c.firstfree).drop c.firstused ++ xs := by
      rw [hdrop, ← hfront, List.take_left]
    _ = c.pending ++ xs := by rw [hpending]

theorem Fits.push (h : Fits size c) (hroom : c.firstfree + xs.length ≤ size) :
    Fits size (c.push xs) := by
  have hused := h.used
  refine ⟨?_, hroom, ?_⟩
  · simp only [Segment.push]
    omega
  · have hcells := h.cells
    rw [Segment.push, length_store _ _ _ (by omega), hcells]

theorem pending_skip (n : Nat) : (c.skip n).pending = c.pending.drop n := by
  rw [skip, pending, pending, List.drop_take, List.drop_drop, Nat.sub_sub]

theorem Fits.skip (h : Fits size c) {n : Nat} (hn : n ≤ c.avail) : Fits size (c.skip n) := by
  have hused := h.used
  rw [avail] at hn
  refine ⟨?_, h.free, h.cells⟩
  simp only [Segment.skip]
  omega

theorem pending_rewind : c.rewind.pending = [] := by simp [rewind, pending]

theorem Fits.rewind (h : Fits size c) : Fits size c.rewind :=
  ⟨Nat.le_refl _, Nat.zero_le _, h.cells⟩

end Segment

open Segment

def content (q : List (Segment α)) : List α := q.flatMap pending

structure Tidy (size : Nat) (q : List (Segment α)) : Prop where
  fits : ∀ c ∈ q, Fits size c
  busy : ∀ c ∈ q.dropLast, c.firstused < c.firstfree
  rewound : ∀ c ∈ q, c.firstused = c.firstfree → c.firstfree = 0

variable {size : Nat} {c : Segment α} {q : List (Segment α)}

@[simp] theorem content_nil : content ([] : List (Segment α)) = [] := rfl

@[simp] theorem content_cons (c : Segment α) (q : List (Segment α)) :
    content (c :: q) = c.pending ++ content q := rfl

@[simp] theorem content_append (p q : List (Segment α)) :
    content (p ++ q) = content p ++ content q := List.flatMap_append

theorem tidy_nil : Tidy size ([] : List (Segment α)) := ⟨by simp, by simp, by simp⟩

theorem tidy_singleton (h : Fits size c) (hrewound : c.firstused = c.firstfree → c.firstfree = 0) :
    Tidy size [c] := by
  refine ⟨fun d hd => ?_, by simp, fun d hd => ?_⟩
  · rw [List.mem_singleton.mp hd]
    exact h
  · rw [List.mem_singleton.mp hd]
    exact hrewound

theorem Tidy.head (h : Tidy size (c :: q)) : Fits size c := h.fits c List.mem_cons_self

theorem Tidy.tail (h : Tidy size (c :: q)) : Tidy size q := by
  refine ⟨fun d hd => h.fits d (List.mem_cons_of_mem c hd), fun d hd => h.busy d ?_,
    fun d hd => h.rewound d (List.mem_cons_of_mem c hd)⟩
  cases q with
  | nil => simp at hd
  | cons e q => exact List.mem_cons_of_mem c hd

theorem Tidy.head_busy (h : Tidy size (c :: q)) (hq : q ≠ []) : c.firstused < c.firstfree := by
  apply h.busy
  rw [List.dropLast_cons_of_ne_nil hq]
  exact List.mem_cons_self

theorem tidy_cons (hc : Fits size c) (hbusy : c.firstused < c.firstfree) (h : Tidy size q) :
    Tidy size (c :: q) := by
  refine ⟨?_, ?_, ?_⟩
  · intro d hd
    cases List.mem_cons.mp hd with
    | inl heq => rw [heq]; exact hc
    | inr hd => exact h.fits d hd
  · intro d hd
    by_cases hq : q = []
    · simp [hq] at hd
    · rw [List.dropLast_cons_of_ne_nil hq] at hd
      cases List.mem_cons.mp hd with
      | inl heq => rw [heq]; exact hbusy
      | inr hd => exact h.busy d hd
  · intro d hd hidle
    cases List.mem_cons.mp hd with
    | inl heq =>
      rw [heq] at hidle
      omega
    | inr hd => exact h.rewound d hd hidle

theorem Tidy.content_of_idle (h : Tidy size (c :: q)) (hidle : c.firstused = c.firstfree) :
    content (c :: q) = [] := by
  by_cases hq : q = []
  · simp [hq, (pending_eq_nil h.head).mpr hidle]
  · have hbusy := h.head_busy hq
    omega

section drain

structure Drained (α σ : Type*) where
  rest : List (Segment α)
  out : List α
  state : σ
  cut : Bool

/-- Take data out block by block. At each busy block `grab` says how much of it goes, or that
the loop is left; a block that is used up is freed, except that the last one is kept. -/
def drain (stop : σ → Bool) (grab : σ → List α → σ × Option Nat) :
    σ → List (Segment α) → Drained α σ
  | s, [] => ⟨[], [], s, false⟩
  | s, c :: rest =>
    if c.firstused = c.firstfree ∨ stop s then ⟨c :: rest, [], s, false⟩
    else
      match grab s c.pending with
      | (s, none) => ⟨c :: rest, [], s, true⟩
      | (s, some n) =>
        if (c.skip n).firstused = (c.skip n).firstfree then
          if rest ≠ [] then
            let r := drain stop grab s rest
            ⟨r.rest, c.pending.take n ++ r.out, r.state, r.cut⟩
          else ⟨[(c.skip n).rewind], c.pending.take n, s, false⟩
        else ⟨c.skip n :: rest, c.pending.take n, s, true⟩

/-- `grab` never asks for more than there is. -/
def Modest (grab : σ → List α → σ × Option Nat) : Prop :=
  ∀ s xs n, (grab s xs).2 = some n → n ≤ xs.length

variable {stop : σ → Bool} {grab : σ → List α → σ × Option Nat}

theorem drain_spec (hgrab : Modest grab) (s : σ) (h : Tidy size q) :
    (drain stop grab s q).out ++ content (drain stop grab s q).rest = content q
      ∧ Tidy size (drain stop grab s q).rest := by
  induction q generalizing s with
  | nil => exact ⟨rfl, tidy_nil⟩
  | cons c rest ih =>
    simp only [drain]
    split
    · exact ⟨rfl, h⟩
    · have hmodest := hgrab s c.pending
      cases hg : grab s c.pending with
      | mk s' amount =>
        rw [hg] at hmodest
        cases amount with
        | none => exact ⟨rfl, h⟩
        | some n =>
          have hn := hmodest n rfl
          have hskip := h.head.skip (length_pending h.head ▸ hn)
          dsimp only
          split_ifs with hdone hrest
          · have hnil : (c.skip n).pending = [] := (pending_eq_nil hskip).mpr hdone
            rw [pending_skip] at hnil
            have hall : c.pending.take n = c.pending := by
              have hsplit := List.take_append_drop n c.pending
              rwa [hnil, List.append_nil] at hsplit
            obtain ⟨hout, htidy⟩ := ih s' h.tail
            refine ⟨?_, htidy⟩
            rw [List.append_assoc, hout, hall, content_cons]
          · have hnil : (c.skip n).pending = [] := (pending_eq_nil hskip).mpr hdone
            rw [pending_skip] at hnil
            refine ⟨?_, tidy_singleton hskip.rewind (fun _ => rfl)⟩
            have hlast : rest = [] := not_ne_iff.mp hrest
            have hsplit := List.take_append_drop n c.pending
            rw [hnil, List.append_nil] at hsplit
            simp [hlast, pending_rewind, hsplit]
          · have hused := hskip.used
            refine ⟨?_, tidy_cons hskip (by omega) h.tail⟩
            rw [content_cons, pending_skip, ← List.append_assoc, List.take_append_drop,
              content_cons]

theorem drain_whole {s s' : σ} {p : Segment α} {rest : List (Segment α)} (h : Fits size p)
    (hbusy : p.firstused < p.firstfree) (hrest : rest ≠ []) (hstop : stop s = false)
    (hg : grab s p.pending = (s', some p.pending.length)) :
    (drain stop grab s (p :: rest)).out = p.pending ++ (drain stop grab s' rest).out := by
  have hskip : (p.skip p.pending.length).firstused = (p.skip p.pending.length).firstfree := by
    rw [length_pending h]
    simp only [skip, avail]
    omega
  rw [drain, if_neg (by simp [hstop]; omega), hg]
  simp only [hskip, if_true, if_pos hrest, List.take_length]

theorem drain_budget {P : σ → Prop} {budget : σ → Nat}
    (hstop : ∀ s, P s → (stop s = true ↔ budget s = 0))
    (hgrab : ∀ s xs, P s → (grab s xs).2 = some (min xs.length (budget s))
      ∧ P (grab s xs).1 ∧ budget (grab s xs).1 = budget s - min xs.length (budget s))
    {s : σ} (hs : P s) (h : Tidy size q) :
    (drain stop grab s q).out = (content q).take (budget s) := by
  induction q generalizing s with
  | nil => simp [drain]
  | cons c rest ih =>
    by_cases hidle : c.firstused = c.firstfree
    · have hnil := h.content_of_idle hidle
      simp [drain, hidle, hnil]
    · by_cases hzero : stop s = true
      · have hbudget := (hstop s hs).mp hzero
        simp [drain, hzero, hbudget]
      · have hbudget : budget s ≠ 0 := fun hb => hzero ((hstop s hs).mpr hb)
        have hlen := length_pending h.head
        obtain ⟨hn, hs', hbudget'⟩ := hgrab s c.pending hs
        cases hg : grab s c.pending with
        | mk s' amount =>
          rw [hg] at hn hs' hbudget'
          dsimp only at hn hs' hbudget'
          subst hn
          have hskip := h.head.skip (hlen ▸ Nat.min_le_left c.pending.length (budget s))
          by_cases hfew : c.pending.length ≤ budget s
          · have hmin : min c.pending.length (budget s) = c.pending.length :=
              Nat.min_eq_left hfew
            have hused := h.head.used
            have hdone : (c.skip c.pending.length).firstused
                = (c.skip c.pending.length).firstfree := by
              simp only [skip, hlen, avail]
              omega
            by_cases hrest : rest = []
            · simp [drain, hidle, hzero, hg, hmin, hdone, hrest, List.take_of_length_le hfew]
            · rw [hmin] at hbudget' hg
              have hbusy := h.head_busy hrest
              rw [drain_whole h.head hbusy hrest (by simpa using hzero) hg, ih hs' h.tail,
                hbudget', content_cons, List.take_append, List.take_of_length_le hfew]
          · have hmin : min c.pending.length (budget s) = budget s := Nat.min_eq_right (by omega)
            have hmore : (c.skip (budget s)).firstused ≠ (c.skip (budget s)).firstfree := by
              simp only [skip]
              simp only [avail] at hlen
              omega
            simp only [drain, hidle, hzero, hg, hmin, hmore]
            simp [List.take_append_of_le_length (by omega : budget s ≤ c.pending.length)]

end drain

section fill

def cut (size : Nat) (blank : α) (xs : List α) : List (Segment α) :=
  if _h : xs = [] ∨ size = 0 then []
  else
    (Segment.mk 0 0 (List.replicate size blank)).push (xs.take size)
      :: cut size blank (xs.drop size)
termination_by xs.length
decreasing_by
  have hpos : 0 < xs.length := List.length_pos_iff.mpr (fun he => _h (.inl he))
  rw [List.length_drop]
  omega

theorem cut_nil (blank : α) : cut size blank [] = [] := by
  rw [cut]
  simp

theorem cut_of_ne (blank : α) {xs : List α} (h : xs ≠ []) (hsize : size ≠ 0) :
    cut size blank xs = (Segment.mk 0 0 (List.replicate size blank)).push (xs.take size)
      :: cut size blank (xs.drop size) := by
  rw [cut, dif_neg (by simp [h, hsize])]

theorem fits_blank (blank : α) : Fits size (Segment.mk 0 0 (List.replicate size blank)) :=
  ⟨Nat.le_refl _, Nat.zero_le _, List.length_replicate⟩

theorem cut_spec (hsize : 0 < size) (blank : α) (xs : List α) :
    content (cut size blank xs) = xs ∧ Tidy size (cut size blank xs)
      ∧ ∀ c ∈ cut size blank xs, c.firstused < c.firstfree := by
  induction hn : xs.length using Nat.strongRecOn generalizing xs with
  | ind n ih =>
    rw [cut]
    split
    · rename_i hnil
      have hxs : xs = [] := by
        cases hnil with
        | inl h => exact h
        | inr h => omega
      exact ⟨hxs.symm, tidy_nil, by simp⟩
    · rename_i hne
      have hpos : 0 < xs.length := List.length_pos_iff.mpr (fun he => hne (.inl he))
      have hlen : (xs.take size).length = min size xs.length := List.length_take
      obtain ⟨hcontent, htidy, hbusy⟩ :=
        ih (xs.drop size).length (by rw [List.length_drop]; omega) (xs.drop size) rfl
      have hroom : (Segment.mk 0 0 (List.replicate size blank)).firstfree
          + (xs.take size).length ≤ size := by
        rw [hlen, Nat.zero_add]
        exact Nat.min_le_left _ _
      have hhead : ∀ c, c = (Segment.mk 0 0 (List.replicate size blank)).push (xs.take size) →
          c.firstused < c.firstfree := by
        intro c hc
        simp only [hc, push, hlen]
        omega
      refine ⟨?_, tidy_cons ((fits_blank blank).push hroom) (hhead _ rfl) htidy, ?_⟩
      · rw [content_cons, hcontent, pending_push (fits_blank blank) hroom]
        simp [pending, List.take_append_drop]
      · intro c hc
        cases List.mem_cons.mp hc with
        | inl heq => exact hhead c heq
        | inr hc => exact hbusy c hc

theorem tidy_append {p : List (Segment α)} (h : Tidy size q) (hp : Tidy size p)
    (hbusy : p ≠ [] → ∀ c ∈ q, c.firstused < c.firstfree) : Tidy size (q ++ p) := by
  by_cases hnil : p = []
  · rw [hnil, List.append_nil]
    exact h
  · refine ⟨?_, ?_, ?_⟩
    · intro d hd
      cases List.mem_append.mp hd with
      | inl hd => exact h.fits d hd
      | inr hd => exact hp.fits d hd
    · intro d hd
      rw [List.dropLast_append_of_ne_nil hnil] at hd
      cases List.mem_append.mp hd with
      | inl hd => exact hbusy hnil d hd
      | inr hd => exact hp.busy d hd
    · intro d hd
      cases List.mem_append.mp hd with
      | inl hd => exact h.rewound d hd
      | inr hd => exact hp.rewound d hd

theorem fill_spec {d : Segment α} {n : Nat} {blank : α} {xs : List α} (hsize : 0 < size)
    (h : Tidy size (q ++ [d])) (hn : n = min (size - d.firstfree) xs.length) :
    content (q ++ [d.push (xs.take n)] ++ cut size blank (xs.drop n)) = content (q ++ [d]) ++ xs
      ∧ Tidy size (q ++ [d.push (xs.take n)] ++ cut size blank (xs.drop n)) := by
  have hd := h.fits d (by simp)
  have hfree := hd.free
  have hused := hd.used
  have hrewound := h.rewound d (by simp)
  have hlen : (xs.take n).length = n := by
    rw [List.length_take]
    omega
  have hroom : d.firstfree + (xs.take n).length ≤ size := by omega
  obtain ⟨hcontent, htidy, hbusy⟩ := cut_spec hsize blank (xs.drop n)
  have hfront : ∀ c ∈ q, c.firstused < c.firstfree := by
    intro c hc
    apply h.busy
    rw [List.dropLast_concat]
    exact hc
  have hq : Tidy size q := ⟨fun c hc => h.fits c (List.mem_append_left _ hc),
    fun c hc => hfront c (List.dropLast_subset q hc),
    fun c hc => h.rewound c (List.mem_append_left _ hc)⟩
  have hlast : Tidy size [d.push (xs.take n)] := by
    apply tidy_singleton (hd.push hroom)
    simp only [push, hlen]
    omega
  refine ⟨?_, tidy_append (tidy_append hq hlast fun _ => hfront) htidy ?_⟩
  · rw [content_append, content_append, content_cons, content_nil, hcontent,
      pending_push hd hroom, content_append, content_cons, content_nil]
    simp [List.append_assoc, List.take_append_drop]
  · intro hmore c hc
    have hrest : xs.drop n ≠ [] := by
      intro hnil
      rw [hnil, cut_nil] at hmore
      exact hmore rfl
    rw [ne_eq, List.drop_eq_nil_iff] at hrest
    cases List.mem_append.mp hc with
    | inl hc => exact hfront c hc
    | inr hc =>
      rw [List.mem_singleton.mp hc]
      simp only [push, hlen]
      omega

end fill

end ChatServices.Lib.Segments
