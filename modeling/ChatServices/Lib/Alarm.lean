import Mathlib.Data.List.DropRight
import Mathlib.Data.List.Pairwise

/-! A queue in the order of its deadlines, and one timer that is set for the first of them;
0 stands for no timer. -/
namespace ChatServices.Lib.Deadline
variable {α : Type*} (due : α → Nat)

def insert (a : α) (xs : List α) : List α :=
  xs.rdropWhile (fun x => due a < due x) ++ a :: xs.rtakeWhile (fun x => due a < due x)

def rearm (next deadline : Nat) : Nat := if next = 0 ∨ next > deadline then deadline else next

structure Armed (next : Nat) (xs : List α) : Prop where
  sorted : xs.Pairwise fun a b => due a ≤ due b
  head : ∀ a ∈ xs.head?, next ≠ 0 ∧ next ≤ due a

variable {due} {next : Nat} {xs : List α}

theorem insert_perm (a : α) (xs : List α) : (insert due a xs).Perm (a :: xs) := by
  have hsplit := @List.rdropWhile_append_rtakeWhile _ (fun x => decide (due a < due x)) xs
  nth_rewrite 2 [← hsplit]
  exact List.perm_middle

theorem mem_insert {a b : α} : b ∈ insert due a xs ↔ b = a ∨ b ∈ xs := by
  rw [(insert_perm a xs).mem_iff, List.mem_cons]

theorem armed_nil : Armed due next ([] : List α) := ⟨List.Pairwise.nil, by simp⟩

theorem Armed.le (h : Armed due next xs) {a : α} (ha : a ∈ xs) : next ≠ 0 ∧ next ≤ due a := by
  cases xs with
  | nil => simp at ha
  | cons x xs =>
    obtain ⟨hset, hle⟩ := h.head x rfl
    refine ⟨hset, ?_⟩
    obtain rfl | ha := List.mem_cons.mp ha
    · exact hle
    · exact le_trans hle ((List.pairwise_cons.mp h.sorted).1 a ha)

theorem Armed.of_le (hsorted : xs.Pairwise fun a b => due a ≤ due b)
    (h : ∀ a ∈ xs, next ≠ 0 ∧ next ≤ due a) : Armed due next xs :=
  ⟨hsorted, fun a ha => h a (List.mem_of_mem_head? ha)⟩

theorem Armed.sublist {ys : List α} (h : Armed due next xs) (hs : ys.Sublist xs) :
    Armed due next ys :=
  .of_le (h.sorted.sublist hs) fun _ ha => h.le (hs.subset ha)

theorem sorted_insert {a : α} (h : xs.Pairwise fun a b => due a ≤ due b) :
    (insert due a xs).Pairwise fun a b => due a ≤ due b := by
  have hsplit := @List.rdropWhile_append_rtakeWhile _ (fun x => decide (due a < due x)) xs
  have hlate : ∀ x ∈ xs.rtakeWhile (fun x => due a < due x), due a < due x := fun x hx => by
    simpa using List.mem_rtakeWhile_imp hx
  have hearly : ∀ x ∈ xs.rdropWhile (fun x => due a < due x), due x ≤ due a := by
    intro x hx
    have hne := List.ne_nil_of_mem hx
    have hlast := List.rdropWhile_last_not _ xs hne
    simp only [decide_eq_true_eq, not_lt] at hlast
    -- the last item that is kept bounds those before it
    have hkept : (xs.rdropWhile (fun x => due a < due x)).Pairwise fun a b => due a ≤ due b :=
      h.sublist (List.rdropWhile_prefix _ _).sublist
    have hdecomp := List.dropLast_append_getLast hne
    rw [← hdecomp, List.pairwise_append] at hkept
    rw [← hdecomp] at hx
    obtain hx | hx := List.mem_append.mp hx
    · exact le_trans (hkept.2.2 x hx _ (List.mem_singleton_self _)) hlast
    · rw [List.mem_singleton.mp hx]
      exact hlast
  rw [← hsplit, List.pairwise_append] at h
  rw [insert, List.pairwise_append, List.pairwise_cons]
  refine ⟨h.1, ⟨fun x hx => le_of_lt (hlate x hx), h.2.1⟩, fun x hx y hy => ?_⟩
  obtain rfl | hy := List.mem_cons.mp hy
  · exact hearly x hx
  · exact h.2.2 x hx y hy

theorem Armed.insert {a : α} (h : Armed due next xs) (ha : due a ≠ 0) :
    Armed due (rearm next (due a)) (insert due a xs) := by
  refine .of_le (sorted_insert h.sorted) fun b hb => ?_
  rw [rearm]
  obtain rfl | hb := mem_insert.mp hb
  · split_ifs <;> omega
  · have hle := h.le hb
    split_ifs <;> omega

end ChatServices.Lib.Deadline

/-! A queue in the order of its deadlines that is served by timers of an event loop. The queue
keeps the time of its next timer, 0 for none, and the address of that timer; what is pending in
the loop is beside it. -/
namespace ChatServices.Lib
open ChatServices.Lib.Deadline
variable {α : Type*}

structure Timers where
  pending : List (Nat × Nat)
  fresh : Nat
  deriving DecidableEq

def Timers.add (deadline : Nat) (ts : Timers) : Timers :=
  ⟨ts.pending ++ [(ts.fresh, deadline)], ts.fresh + 1⟩

def Timers.destroy (timer : Nat) (ts : Timers) : Timers :=
  { ts with pending := ts.pending.filter (fun e => e.1 ≠ timer) }

structure Alarm (α : Type*) where
  queue : List α
  next : Nat
  timer : Nat
  timers : Timers
  deriving DecidableEq

namespace Alarm

def initial : Alarm α := ⟨[], 0, 0, ⟨[], 0⟩⟩

def arm (deadline : Nat) (s : Alarm α) : Alarm α :=
  ⟨s.queue, deadline, s.timers.fresh, s.timers.add deadline⟩

def disarm (s : Alarm α) : Alarm α :=
  if s.next ≠ 0 then { s with timers := s.timers.destroy s.timer } else s

def rearm (deadline : Nat) (s : Alarm α) : Alarm α :=
  if s.next = 0 ∨ s.next > deadline then arm deadline s.disarm else s

section operations
variable (due : α → Nat)

def enqueue (a : α) (s : Alarm α) : Alarm α :=
  rearm (due a) { s with queue := insert due a s.queue }

def discard (p : α → Bool) (s : Alarm α) : Alarm α :=
  { s with queue := s.queue.filter (fun a => !p a) }

/-- The loop over the queue when a timer has gone off: what is due is taken out and given, and
at the first item that is not due the loop ends with a timer for it. -/
def expireFrom (now : Nat) : List α → Alarm α → List α × Alarm α
  | [], s => ([], { s with queue := [] })
  | a :: rest, s =>
    if due a > now then ([], arm (due a) { s with queue := a :: rest })
    else (a :: (expireFrom now rest s).1, (expireFrom now rest s).2)

def expire (now : Nat) (s : Alarm α) : List α × Alarm α :=
  expireFrom due now s.queue { s with next := 0 }

def fire (timer now : Nat) (s : Alarm α) : List α × Alarm α :=
  if timer ∈ s.timers.pending.map Prod.fst then
    expire due now { s with timers := s.timers.destroy timer }
  else ([], s)

end operations

def OneTimer (s : Alarm α) : Prop :=
  s.timers.pending = if s.next = 0 then [] else [(s.timer, s.next)]

instance (s : Alarm α) : Decidable s.OneTimer := inferInstanceAs (Decidable (_ = _))

structure Served (due : α → Nat) (s : Alarm α) : Prop where
  armed : Armed due s.next s.queue
  timer : s.OneTimer

section rules
variable {due : α → Nat} {s : Alarm α} {deadline now : Nat}

theorem served_initial : Served due (initial : Alarm α) := ⟨armed_nil, rfl⟩

theorem OneTimer.pending (h : s.OneTimer) (hnext : s.next ≠ 0) :
    s.timers.pending = [(s.timer, s.next)] := by
  rw [h, if_neg hnext]

theorem oneTimer_arm (hnone : s.timers.pending = []) (hd : deadline ≠ 0) :
    (arm deadline s).OneTimer := by
  have hpending : (arm deadline s).timers.pending = [(s.timers.fresh, deadline)] := by
    rw [arm, Timers.add, hnone]
    rfl
  rw [OneTimer, hpending]
  exact (if_neg hd).symm

theorem OneTimer.disarm (h : s.OneTimer) : s.disarm.timers.pending = [] := by
  by_cases hnext : s.next = 0
  · rw [Alarm.disarm, if_neg (not_not.mpr hnext), h, if_pos hnext]
  · rw [Alarm.disarm, if_pos hnext, Timers.destroy, h.pending hnext]
    simp

theorem OneTimer.rearm (h : s.OneTimer) (hd : deadline ≠ 0) : (rearm deadline s).OneTimer := by
  rw [Alarm.rearm]
  split_ifs with hearlier
  · exact oneTimer_arm h.disarm hd
  · exact h

@[simp] theorem queue_disarm : s.disarm.queue = s.queue := by
  rw [disarm]
  split_ifs <;> rfl

@[simp] theorem queue_rearm : (rearm deadline s).queue = s.queue := by
  rw [rearm]
  split_ifs
  · exact queue_disarm
  · rfl

theorem next_rearm : (rearm deadline s).next = Deadline.rearm s.next deadline := by
  rw [rearm, Deadline.rearm]
  split_ifs <;> rfl

theorem Served.enqueue (h : Served due s) {a : α} (ha : due a ≠ 0) :
    Served due (enqueue due a s) := by
  have htimer : OneTimer { s with queue := Deadline.insert due a s.queue } := h.timer
  refine ⟨?_, htimer.rearm ha⟩
  rw [Alarm.enqueue, next_rearm, queue_rearm]
  exact h.armed.insert ha

theorem Served.discard (h : Served due s) (p : α → Bool) : Served due (discard p s) :=
  ⟨h.armed.sublist List.filter_sublist, h.timer⟩

theorem expireFrom_split {xs : List α} (hsorted : xs.Pairwise fun a b => due a ≤ due b) :
    (expireFrom due now xs s).1 = xs.filter (fun a => decide (due a ≤ now)) ∧
      (expireFrom due now xs s).2.queue = xs.filter (fun a => decide (now < due a)) := by
  induction xs with
  | nil => exact ⟨rfl, rfl⟩
  | cons a rest ih =>
    obtain ⟨hle, hrest⟩ := List.pairwise_cons.mp hsorted
    rw [expireFrom]
    by_cases hlate : due a > now
    · have hall : ∀ b ∈ a :: rest, now < due b := by
        intro b hb
        obtain rfl | hb := List.mem_cons.mp hb
        · exact hlate
        · exact lt_of_lt_of_le hlate (hle b hb)
      rw [if_pos hlate]
      constructor
      · refine (List.filter_eq_nil_iff.mpr fun b hb => ?_).symm
        simpa using hall b hb
      · refine (List.filter_eq_self.mpr fun b hb => ?_).symm
        simpa using hall b hb
    · obtain ⟨hgiven, hkept⟩ := ih hrest
      rw [if_neg hlate]
      constructor
      · rw [List.filter_cons_of_pos (by simpa using hlate), ← hgiven]
      · rw [List.filter_cons_of_neg (by simpa using hlate), ← hkept]

theorem expireFrom_served {xs : List α} (hsorted : xs.Pairwise fun a b => due a ≤ due b)
    (hnone : s.timers.pending = []) (hnext : s.next = 0) :
    Served due (expireFrom due now xs s).2 := by
  induction xs with
  | nil =>
    refine ⟨armed_nil, ?_⟩
    rw [OneTimer, expireFrom, if_pos hnext]
    exact hnone
  | cons a rest ih =>
    obtain ⟨hle, hrest⟩ := List.pairwise_cons.mp hsorted
    rw [expireFrom]
    by_cases hlate : due a > now
    · have hd : due a ≠ 0 := by omega
      have hkept : OneTimer (arm (due a) { s with queue := a :: rest }) := oneTimer_arm hnone hd
      rw [if_pos hlate]
      refine ⟨⟨hsorted, fun b hb => ?_⟩, hkept⟩
      cases hb
      exact ⟨hd, le_refl _⟩
    · rw [if_neg hlate]
      exact ih hrest

theorem OneTimer.destroy (h : s.OneTimer) {timer : Nat}
    (hmem : timer ∈ s.timers.pending.map Prod.fst) : (s.timers.destroy timer).pending = [] := by
  have hnext : s.next ≠ 0 := by
    intro hzero
    rw [h, if_pos hzero] at hmem
    cases hmem
  rw [h.pending hnext] at hmem
  have htimer : timer = s.timer := by simpa using hmem
  rw [Timers.destroy, h.pending hnext, htimer]
  simp

theorem Served.fire (h : Served due s) (timer : Nat) : Served due (fire due timer now s).2 := by
  rw [Alarm.fire]
  split_ifs with hmem
  · have hnone := h.timer.destroy hmem
    exact expireFrom_served h.armed.sorted hnone rfl
  · exact h

variable (now) in
theorem Served.fire_split (h : Served due s) {timer : Nat}
    (hmem : timer ∈ s.timers.pending.map Prod.fst) :
    (Alarm.fire due timer now s).1 = s.queue.filter (fun a => decide (due a ≤ now)) ∧
      (Alarm.fire due timer now s).2.queue = s.queue.filter (fun a => decide (now < due a)) := by
  rw [Alarm.fire, if_pos hmem]
  exact expireFrom_split h.armed.sorted

end rules
end Alarm
end ChatServices.Lib
