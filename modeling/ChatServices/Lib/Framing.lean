import Mathlib.Data.List.Basic

/-! Records sent in pieces of a fixed length, a shorter piece marking the end of a
record: the receiver, the correct sender, and what the receiver makes of any
sequence of full pieces. -/
namespace ChatServices.Lib.Framing
variable {α : Type*}

/-- The records a receiver completes, starting with `buf` already collected. -/
def receive (n : Nat) : List α → List (List α) → List (List α)
  | _, [] => []
  | buf, p :: ps => if p.length < n then (buf ++ p) :: receive n [] ps else receive n (buf ++ p) ps

/-- A sender that marks the end of a record by a closing piece where the last piece
of the data does not. The closing piece is what it puts on the wire for no data. -/
def send (n : Nat) (closing : List α) : Nat → List α → List (List α)
  | _, [] => [closing]
  | 0, _ => []
  | fuel + 1, data =>
    if data.length < n then [data] else data.take n :: send n closing fuel (data.drop n)

theorem receive_cons_full {n : Nat} {buf p : List α} {ps : List (List α)} (h : n ≤ p.length) :
    receive n buf (p :: ps) = receive n (buf ++ p) ps := by
  simp only [receive, if_neg (Nat.not_lt.mpr h)]

theorem receive_cons_short {n : Nat} {buf p : List α} {ps : List (List α)} (h : p.length < n) :
    receive n buf (p :: ps) = (buf ++ p) :: receive n [] ps := by
  simp only [receive, if_pos h]

theorem send_nil (n fuel : Nat) (closing : List α) : send n closing fuel [] = [closing] := by
  cases fuel <;> rfl

theorem send_short {n fuel : Nat} {closing data : List α} (hne : data ≠ []) (h : data.length < n) :
    send n closing (fuel + 1) data = [data] := by
  cases data with
  | nil => exact absurd rfl hne
  | cons a as => simp only [send, if_pos h]

theorem send_full {n fuel : Nat} {closing data : List α} (hn : 0 < n) (h : n ≤ data.length) :
    send n closing (fuel + 1) data = data.take n :: send n closing fuel (data.drop n) := by
  cases data with
  | nil => simp at h; omega
  | cons a as => simp only [send, if_neg (Nat.not_lt.mpr h)]

/-- What the receiver makes of one record: the data, and the closing piece behind it
where the length is a multiple of the piece length. The sender is right exactly
with an empty closing piece. -/
theorem receive_send {n : Nat} {closing : List α} (hn : closing.length < n) (buf data : List α)
    (fuel : Nat) (hf : data.length ≤ fuel) :
    receive n buf (send n closing fuel data) =
      [buf ++ data ++ if data.length % n = 0 then closing else []] := by
  induction fuel generalizing buf data with
  | zero =>
    have hd : data = [] := List.length_eq_zero_iff.mp (by omega)
    simp [hd, send, receive, hn]
  | succ fuel ih =>
    by_cases hd : data = []
    · simp [hd, send_nil, receive, hn]
    have hpos : 0 < data.length := List.length_pos_iff.mpr hd
    by_cases h : data.length < n
    · have hmod : data.length % n ≠ 0 := by
        rw [Nat.mod_eq_of_lt h]
        omega
      simp [send_short hd h, receive, h, hmod]
    · have htake : n ≤ (data.take n).length := by simp; omega
      have hdrop : (data.drop n).length ≤ fuel := by simp; omega
      have hmod : (data.length - n) % n = data.length % n := (Nat.mod_eq_sub_mod (by omega)).symm
      rw [send_full (by omega) (by omega), receive_cons_full htake, ih _ _ hdrop, List.length_drop,
        hmod, List.append_assoc buf, List.take_append_drop]

theorem flatten_send {n : Nat} {closing : List α} (hn : 0 < n) (data : List α) (fuel : Nat)
    (hf : data.length ≤ fuel) :
    (send n closing fuel data).flatten = data ++ if data.length % n = 0 then closing else [] := by
  induction fuel generalizing data with
  | zero =>
    have hd : data = [] := List.length_eq_zero_iff.mp (by omega)
    simp [hd, send]
  | succ fuel ih =>
    by_cases hd : data = []
    · simp [hd, send_nil]
    have hpos : 0 < data.length := List.length_pos_iff.mpr hd
    by_cases h : data.length < n
    · have hmod : data.length % n ≠ 0 := by
        rw [Nat.mod_eq_of_lt h]
        omega
      simp [send_short hd h, hmod]
    · have hdrop : (data.drop n).length ≤ fuel := by simp; omega
      have hmod : (data.length - n) % n = data.length % n := (Nat.mod_eq_sub_mod (by omega)).symm
      rw [send_full hn (by omega), List.flatten_cons, ih _ hdrop, List.length_drop, hmod,
        ← List.append_assoc, List.take_append_drop]

theorem mem_receive {n : Nat} {buf : List α} {ps : List (List α)} {r : List α} {a : α}
    (hr : r ∈ receive n buf ps) (ha : a ∈ r) : a ∈ buf ∨ ∃ p ∈ ps, a ∈ p := by
  induction ps generalizing buf with
  | nil => simp [receive] at hr
  | cons p ps ih =>
    by_cases h : p.length < n
    · rw [receive_cons_short h, List.mem_cons] at hr
      cases hr with
      | inl hr =>
        subst hr
        cases List.mem_append.mp ha with
        | inl ha => exact .inl ha
        | inr ha => exact .inr ⟨p, by simp, ha⟩
      | inr hr =>
        cases ih hr with
        | inl h => simp at h
        | inr h =>
          obtain ⟨q, hq, ha⟩ := h
          exact .inr ⟨q, by simp [hq], ha⟩
    · rw [receive_cons_full (Nat.not_lt.mp h)] at hr
      cases ih hr with
      | inl h =>
        cases List.mem_append.mp h with
        | inl ha => exact .inl ha
        | inr ha => exact .inr ⟨p, by simp, ha⟩
      | inr h =>
        obtain ⟨q, hq, ha⟩ := h
        exact .inr ⟨q, by simp [hq], ha⟩

end ChatServices.Lib.Framing
