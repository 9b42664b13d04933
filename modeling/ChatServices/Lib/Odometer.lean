import Mathlib.Algebra.Group.Nat.Defs
import Mathlib.Data.List.Basic

/-! A counter written in symbols, least significant place first. A place that is past its last
symbol goes back to the first one and carries. -/
namespace ChatServices.Lib.Odometer
variable {α : Type*}

def tick (next : α → Option α) (first : α) : List α → List α × Bool
  | [] => ([], true)
  | d :: ds =>
    match next d with
    | some d' => (d' :: ds, false)
    | none => (first :: (tick next first ds).1, (tick next first ds).2)

def value (rank : α → Nat) (base : Nat) : List α → Nat
  | [] => 0
  | d :: ds => rank d + base * value rank base ds

theorem value_lt {rank : α → Nat} {base : Nat} {ds : List α} (h : ∀ d ∈ ds, rank d < base) :
    value rank base ds < base ^ ds.length := by
  induction ds with
  | nil => simp [value]
  | cons d ds ih =>
    rw [List.forall_mem_cons] at h
    have htail := ih h.2
    have hmul : base * (value rank base ds + 1) ≤ base * base ^ ds.length :=
      Nat.mul_le_mul_left base htail
    rw [Nat.mul_add, Nat.mul_one] at hmul
    rw [value, List.length_cons, Nat.pow_succ, Nat.mul_comm (base ^ ds.length)]
    omega

/-- The symbols in `S` follow one another in the order of their ranks. -/
structure Dial (next : α → Option α) (first : α) (rank : α → Nat) (base : Nat) (S : α → Prop) :
    Prop where
  start : S first ∧ rank first = 0
  advance : ∀ d d', S d → next d = some d' → S d' ∧ rank d' = rank d + 1
  wrap : ∀ d, S d → next d = none → rank d + 1 = base

variable {next : α → Option α} {first : α} {rank : α → Nat} {base : Nat} {S : α → Prop}

theorem tick_append (ds es : List α) :
    tick next first (ds ++ es) =
      if (tick next first ds).2 then
        ((tick next first ds).1 ++ (tick next first es).1, (tick next first es).2)
      else ((tick next first ds).1 ++ es, false) := by
  induction ds with
  | nil => simp [tick]
  | cons d ds ih =>
    rw [List.cons_append, tick, tick]
    cases next d with
    | some d' => simp
    | none =>
      rw [ih]
      split_ifs <;> simp

theorem next_of_carry {ds : List α} (h : (tick next first ds).2 = true) :
    ∀ d ∈ ds, next d = none := by
  induction ds with
  | nil => simp
  | cons d ds ih =>
    cases hnext : next d with
    | some d' => simp [tick, hnext] at h
    | none =>
      simp only [tick, hnext] at h
      rw [List.forall_mem_cons]
      exact ⟨hnext, ih h⟩

theorem tick_symbols (h : Dial next first rank base S) {ds : List α} (hds : ∀ d ∈ ds, S d) :
    (∀ d ∈ (tick next first ds).1, S d) ∧ (tick next first ds).1.length = ds.length := by
  induction ds with
  | nil => simp [tick]
  | cons d ds ih =>
    have hd := hds d List.mem_cons_self
    have htail : ∀ d ∈ ds, S d := fun e he => hds e (List.mem_cons_of_mem d he)
    obtain ⟨hsymbols, hlength⟩ := ih htail
    cases hnext : next d with
    | some d' =>
      simp only [tick, hnext, List.length_cons, List.forall_mem_cons, and_true]
      exact ⟨(h.advance d d' hd hnext).1, htail⟩
    | none =>
      simp only [tick, hnext, List.length_cons, List.forall_mem_cons, hlength, and_true]
      exact ⟨h.start.1, hsymbols⟩

theorem value_tick (h : Dial next first rank base S) {ds : List α} (hds : ∀ d ∈ ds, S d) :
    value rank base (tick next first ds).1
        + (if (tick next first ds).2 then base ^ ds.length else 0)
      = value rank base ds + 1 := by
  induction ds with
  | nil => simp [tick, value]
  | cons d ds ih =>
    have hd := hds d List.mem_cons_self
    have hvalue := ih fun e he => hds e (List.mem_cons_of_mem d he)
    cases hnext : next d with
    | some d' =>
      have hrank := (h.advance d d' hd hnext).2
      simp only [tick, hnext, value, hrank, Bool.false_eq_true, if_false]
      omega
    | none =>
      have hlast := h.wrap d hd hnext
      have hpow : base ^ (d :: ds).length = base * base ^ ds.length := by
        rw [List.length_cons, Nat.pow_succ, Nat.mul_comm]
      simp only [tick, hnext, value, h.start.2, hpow, Nat.zero_add]
      calc
        base * value rank base (tick next first ds).1
            + (if (tick next first ds).2 then base * base ^ ds.length else 0)
            = base * (value rank base (tick next first ds).1
              + (if (tick next first ds).2 then base ^ ds.length else 0)) := by
          rw [Nat.mul_add]
          split_ifs <;> simp
        _ = base * (value rank base ds + 1) := by rw [hvalue]
        _ = rank d + base * value rank base ds + 1 := by
          rw [Nat.mul_add, Nat.mul_one]
          omega

end ChatServices.Lib.Odometer
