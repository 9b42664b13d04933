import Mathlib.Tactic.Common
import Mathlib.Data.Nat.Bitwise

/-! Bit strings held in bytes, the highest bit of each first: when two of them agree in their
first bits, and what is left of one when the other bits are cleared. -/
namespace ChatServices.Lib.Bits
variable {x y n : Nat} {a b : List Nat}

def ofByte (x : Nat) : List Bool := (List.range 8).map fun i => x.testBit (7 - i)

def ofBytes (a : List Nat) : List Bool := a.flatMap ofByte

/-- The first `n` bits agree. -/
def SamePrefix (n : Nat) (a b : List Nat) : Prop := (ofBytes a).take n = (ofBytes b).take n

def IsByte (x : Nat) : Prop := x < 256

@[simp] theorem length_ofByte (x : Nat) : (ofByte x).length = 8 := by simp [ofByte]

theorem ofBytes_cons (x : Nat) (a : List Nat) : ofBytes (x :: a) = ofByte x ++ ofBytes a := rfl

theorem testBit_high (hx : IsByte x) {i : Nat} (hi : 8 ≤ i) : x.testBit i = false := by
  apply Nat.testBit_lt_two_pow
  calc x < 2 ^ 8 := hx
    _ ≤ 2 ^ i := Nat.pow_le_pow_right (by decide) hi

theorem take_ofByte (hx : IsByte x) (hy : IsByte y) (hn : n ≤ 8) :
    (ofByte x).take n = (ofByte y).take n ↔ x >>> (8 - n) = y >>> (8 - n) := by
  have htake : ∀ z : Nat, (ofByte z).take n = (List.range n).map fun i => z.testBit (7 - i) := by
    intro z
    rw [ofByte, ← List.map_take, List.take_range, Nat.min_eq_left hn]
  rw [htake, htake]
  simp only [List.map_inj_left, List.mem_range]
  constructor
  · intro h
    apply Nat.eq_of_testBit_eq
    intro j
    rw [Nat.testBit_shiftRight, Nat.testBit_shiftRight]
    by_cases hj : 8 - n + j < 8
    · have hbit := h (n - 1 - j) (by omega)
      have hindex : 7 - (n - 1 - j) = 8 - n + j := by omega
      rwa [hindex] at hbit
    · rw [testBit_high hx (by omega), testBit_high hy (by omega)]
  · intro h i hi
    have hbit := congrArg (fun z => z.testBit (n - 1 - i)) h
    have hindex : 8 - n + (n - 1 - i) = 7 - i := by omega
    simpa only [Nat.testBit_shiftRight, hindex] using hbit

theorem ofByte_inj (hx : IsByte x) (hy : IsByte y) : ofByte x = ofByte y ↔ x = y := by
  have h := take_ofByte hx hy (le_refl 8)
  rwa [List.take_of_length_le (by simp), List.take_of_length_le (by simp)] at h

theorem samePrefix_cons (hx : IsByte x) (hy : IsByte y) :
    SamePrefix (n + 8) (x :: a) (y :: b) ↔ x = y ∧ SamePrefix n a b := by
  have htake : ∀ z c, (ofBytes (z :: c)).take (n + 8) = ofByte z ++ (ofBytes c).take n := by
    intro z c
    rw [ofBytes_cons, List.take_append, List.take_of_length_le (by simp)]
    simp
  rw [SamePrefix, htake, htake]
  constructor
  · intro h
    obtain ⟨hbyte, hrest⟩ := List.append_inj h (by simp)
    exact ⟨(ofByte_inj hx hy).mp hbyte, hrest⟩
  · rintro ⟨rfl, hrest⟩
    exact congrArg (ofByte x ++ ·) hrest

theorem samePrefix_short (hx : IsByte x) (hy : IsByte y) (hn : n ≤ 8) :
    SamePrefix n (x :: a) (y :: b) ↔ x >>> (8 - n) = y >>> (8 - n) := by
  have htake : ∀ z c, (ofBytes (z :: c)).take n = (ofByte z).take n := by
    intro z c
    rw [ofBytes_cons, List.take_append_of_le_length (by simpa using hn)]
  rw [SamePrefix, htake, htake, take_ofByte hx hy hn]

theorem samePrefix_iff (ha : ∀ x ∈ a, IsByte x) (hb : ∀ x ∈ b, IsByte x)
    (hlen : a.length = b.length) (hn : n ≤ 8 * a.length) :
    SamePrefix n a b ↔ a.take (n / 8) = b.take (n / 8) ∧
      (n % 8 = 0 ∨ a.getD (n / 8) 0 >>> (8 - n % 8) = b.getD (n / 8) 0 >>> (8 - n % 8)) := by
  induction a generalizing b n with
  | nil =>
    obtain rfl : n = 0 := by simpa using hn
    obtain rfl : b = [] := List.length_eq_zero_iff.mp hlen.symm
    simp [SamePrefix]
  | cons x a ih =>
    cases b with
    | nil => simp at hlen
    | cons y b =>
      have hx := ha x List.mem_cons_self
      have hy := hb y List.mem_cons_self
      by_cases hshort : n < 8
      · have hdiv : n / 8 = 0 := by omega
        have hmod : n % 8 = n := by omega
        rw [hdiv, hmod]
        by_cases hzero : n = 0
        · subst hzero
          simp [SamePrefix]
        · simpa [hzero] using samePrefix_short hx hy (by omega)
      · obtain ⟨k, rfl⟩ : ∃ k, n = k + 8 := ⟨n - 8, by omega⟩
        have hdiv : (k + 8) / 8 = k / 8 + 1 := by omega
        have hmod : (k + 8) % 8 = k % 8 := by omega
        simp only [List.length_cons] at hlen hn
        rw [samePrefix_cons hx hy, ih (fun z hz => ha z (List.mem_cons_of_mem x hz))
          (fun z hz => hb z (List.mem_cons_of_mem y hz)) (by omega) (by omega), hdiv, hmod]
        simp [and_assoc]

/-- The bits after the first `n` cleared. -/
def clear : Nat → List Nat → List Nat
  | _, [] => []
  | n, x :: a => if 8 ≤ n then x :: clear (n - 8) a else x >>> (8 - n) <<< (8 - n) :: clear 0 a

theorem isByte_cleared (hx : IsByte x) (k : Nat) : IsByte (x >>> k <<< k) := by
  have hle : x >>> k <<< k ≤ x := by
    rw [Nat.shiftRight_eq_div_pow, Nat.shiftLeft_eq]
    exact Nat.div_mul_le_self x (2 ^ k)
  exact hle.trans_lt hx

theorem samePrefix_clear (n : Nat) (ha : ∀ x ∈ a, IsByte x) : SamePrefix n a (clear n a) := by
  induction a generalizing n with
  | nil => rfl
  | cons y a ih =>
    have hy := ha y List.mem_cons_self
    rw [clear]
    split
    · rename_i hn
      obtain ⟨k, rfl⟩ : ∃ k, n = k + 8 := ⟨n - 8, by omega⟩
      rw [Nat.add_sub_cancel, samePrefix_cons hy hy]
      exact ⟨rfl, ih k fun z hz => ha z (List.mem_cons_of_mem y hz)⟩
    · rw [samePrefix_short hy (isByte_cleared hy _) (by omega)]
      simp

theorem SamePrefix.symm (h : SamePrefix n a b) : SamePrefix n b a := Eq.symm h

end ChatServices.Lib.Bits
