import ChatServices.Cidr
import ChatServices.Entities
import Mathlib.Data.List.GetD
import Mathlib.Data.Nat.ModEq

/-! UIDs of clients, `protocol/base36uid.c`: the id of the server and a number behind it that goes up
by one with each call. -/
namespace ChatServices.Protocol.Base36Uid
open ChatServices.Lib ChatServices.Lib.Odometer ChatServices.Text ChatServices.Entities

def ub64Alphabet : CString :=
  "ABCDEFGHIJKLMNOPQRSTUVWXYZabcdefghijklmnopqrstuvwxyz0123456789[]".toList

def uinttobase64 (v : Nat) : Nat → CString
  | 0 => []
  | count + 1 => uinttobase64 (v / 64) count ++ [ub64Alphabet.getD (v % 64) nul]

/-- `numeric` of the configuration: three characters, except on P10, where it is a number. -/
structure Numeric where
  usesP10 : Bool
  text : CString
  noNul : nul ∉ text
  sid : usesP10 = false → text.length = 3

/-- `me.numeric`, `new_uid` and `uindex` -/
structure Uids where
  numeric : CString
  newUid : CString
  uindex : Nat

/-- Whether `i` is below `upto` is asked before each place. -/
def fillA (uid : CString) (i upto : Nat) : CString :=
  (List.range' i (upto - i)).foldl (fun uid i => uid.set i 'A') uid

def base36UidInit (me : Numeric) : Uids :=
  let numeric := if me.usesP10 then uinttobase64 ((Cidr.atoi me.text) % 2 ^ 64).toNat 2 else me.text
  let uindex := if me.usesP10 then 5 else 9
  let newUid := numeric ++ List.replicate (10 - numeric.length) nul
  let newUid := (List.range numeric.length).foldl
    (fun uid i => if uid.getD i nul = nul then uid.set i 'A' else uid) newUid
  ⟨numeric, fillA newUid numeric.length uindex, uindex⟩

def moveUp (uid : CString) (i : Nat) : CString × Bool :=
  if uid.getD i nul = 'Z' then (uid.set i '0', false)
  else if uid.getD i nul = '9' then (uid.set i 'A', true)
  else (uid.set i (succ (uid.getD i nul)), false)

def moveLead (sid : Nat) (uid : CString) : CString :=
  if uid.getD sid nul = 'Z' then fillA uid sid 9 else uid.set sid (succ (uid.getD sid nul))

/-- `add_one_to_uid`; `sid` is the length of the id of the server. -/
def addOneToUid (sid : Nat) : Nat → CString → CString
  | 0, uid => if 0 ≠ sid then (moveUp uid 0).1 else moveLead sid uid
  | i + 1, uid =>
    if i + 1 ≠ sid then
      if (moveUp uid (i + 1)).2 then addOneToUid sid i (moveUp uid (i + 1)).1
      else (moveUp uid (i + 1)).1
    else moveLead sid uid

def base36UidGet (s : Uids) : CString × Uids :=
  let s := { s with newUid := addOneToUid s.numeric.length (s.uindex - 1) s.newUid }
  (cstr s.newUid, s)

def called (me : Numeric) : Nat → Uids
  | 0 => base36UidInit me
  | n + 1 => (base36UidGet (called me n)).2

def uid (me : Numeric) (n : Nat) : CString := (base36UidGet (called me n)).1

/-! ### One call -/

section places
variable {front tail : CString} {c d : Char}

theorem getD_place : (front ++ c :: tail).getD front.length d = c := by simp

theorem set_place : (front ++ c :: tail).set front.length d = front ++ d :: tail := by simp

theorem fillA_places (front mid tail : CString) :
    fillA (front ++ (mid ++ tail)) front.length (front.length + mid.length) =
      front ++ (List.replicate mid.length 'A' ++ tail) := by
  rw [fillA, Nat.add_sub_cancel_left]
  induction mid generalizing front with
  | nil => rfl
  | cons c mid ih =>
    have hnext := ih (front ++ ['A'])
    rw [List.length_append, List.length_singleton] at hnext
    rw [List.length_cons, List.range'_succ, List.foldl_cons, List.cons_append, set_place]
    simpa [List.replicate_succ] using hnext

theorem moveUp_place : moveUp (front ++ c :: tail) front.length =
    (front ++ (nextSymbol c).getD 'A' :: tail, (nextSymbol c).isNone) := by
  rw [moveUp, nextSymbol, getD_place]
  by_cases hz : c = 'Z'
  · simp [hz]
  · by_cases hnine : c = '9'
    · simp [hnine]
    · simp [hz, hnine]

theorem addOneToUid_tick (sid : CString) (a : Char) (t tail : CString) :
    addOneToUid sid.length (sid.length + t.length) (sid ++ a :: (t ++ tail)) =
      let r := tick nextSymbol 'A' t.reverse
      let uid := sid ++ a :: (r.1.reverse ++ tail)
      if r.2 then moveLead sid.length uid else uid := by
  induction t using List.reverseRecOn generalizing tail with
  | nil =>
    have hlead : addOneToUid sid.length sid.length (sid ++ a :: tail) =
        moveLead sid.length (sid ++ a :: tail) := by
      cases hlen : sid.length with
      | zero => simp [addOneToUid]
      | succ n => simp [addOneToUid]
    simpa [tick] using hlead
  | append_singleton t c ih =>
    have hplace : sid.length + (t ++ [c]).length = sid.length + t.length + 1 := by simp; omega
    have hother : sid.length + t.length + 1 ≠ sid.length := by omega
    have hfront : sid ++ a :: (t ++ [c] ++ tail) = (sid ++ a :: t) ++ c :: tail := by simp
    have hlen : sid.length + t.length + 1 = (sid ++ a :: t).length := by simp; omega
    rw [hplace, addOneToUid, if_pos hother, hfront, hlen, moveUp_place, List.reverse_append,
      List.reverse_singleton, List.singleton_append, tick]
    cases hnext : nextSymbol c with
    | some d => simp
    | none =>
      have hback : sid ++ a :: t ++ 'A' :: tail = sid ++ a :: (t ++ 'A' :: tail) := by simp
      simp only [Option.getD_none, Option.isNone_none, if_true, hback, ih]
      simp

end places

/-! ### The number behind the id of the server -/

/-- The letter `a` and the symbols `t`, as the number of an id. -/
def number (a : Char) (t : CString) : Nat :=
  value symbolRank 36 t.reverse + 36 ^ t.length * symbolRank a

section numbers
variable {sid t : CString} {a : Char}

theorem letters_rank (h : a ∈ letters) : symbolRank a < 26 := by
  have hall : letters.all (fun a => decide (symbolRank a < 26)) = true := by decide
  simpa using List.all_eq_true.mp hall a h

theorem letters_succ (h : a ∈ letters) (hz : a ≠ 'Z') :
    succ a ∈ letters ∧ symbolRank (succ a) = symbolRank a + 1 := by
  have hall : letters.all (fun a => decide (a = 'Z') ||
      decide (succ a ∈ letters) && decide (symbolRank (succ a) = symbolRank a + 1)) = true := by decide
  simpa [hz] using List.all_eq_true.mp hall a h

theorem symbols_rank (h : a ∈ symbols) : symbolRank a < 36 := by
  have hall : symbols.all (fun a => decide (symbolRank a < 36)) = true := by decide
  simpa using List.all_eq_true.mp hall a h

theorem letters_symbols (h : a ∈ letters) : a ∈ symbols := List.mem_append_left _ h

theorem symbols_nul (h : a ∈ symbols) : a ≠ nul := by
  have hall : symbols.all (fun a => decide (a ≠ nul)) = true := by decide
  simpa using List.all_eq_true.mp hall a h

theorem value_symbols (h : ∀ c ∈ t, c ∈ symbols) :
    value symbolRank 36 t.reverse < 36 ^ t.length := by
  have hlt : ∀ c ∈ t.reverse, symbolRank c < 36 := fun c hc =>
    symbols_rank (h c (List.mem_reverse.mp hc))
  simpa using value_lt hlt

theorem number_lt (ha : a ∈ letters) (ht : ∀ c ∈ t, c ∈ symbols) :
    number a t < 26 * 36 ^ t.length := by
  have hvalue := value_symbols ht
  have hrank : 36 ^ t.length * symbolRank a ≤ 36 ^ t.length * 25 :=
    Nat.mul_le_mul_left _ (Nat.le_of_lt_succ (letters_rank ha))
  rw [number]
  omega

theorem number_first (k : Nat) : number 'A' (List.replicate k 'A') = 0 := by
  have hzero : ∀ k, value symbolRank 36 (List.replicate k 'A') = 0 := by
    intro k
    induction k with
    | zero => rfl
    | succ k ih =>
      rw [List.replicate_succ, value, ih]
      rfl
  have hrank : symbolRank 'A' = 0 := rfl
  rw [number, List.reverse_replicate, hzero, hrank, Nat.mul_zero]

/-- What `add_one_to_uid` leaves: the next number, or the first one with an `A` in each of the `w`
places behind it. -/
theorem addOneToUid_next (ha : a ∈ letters) (ht : ∀ c ∈ t, c ∈ symbols) {x : CString}
    (hlen : sid.length + 1 + t.length + x.length = 9) :
    (number a t + 1 < 26 * 36 ^ t.length ∧ ∃ a' ∈ letters, ∃ t', (∀ c ∈ t', c ∈ symbols) ∧
      t'.length = t.length ∧ number a' t' = number a t + 1 ∧
      addOneToUid sid.length (sid.length + t.length) (sid ++ a :: (t ++ (x ++ [nul]))) =
        sid ++ a' :: (t' ++ (x ++ [nul]))) ∨
    number a t + 1 = 26 * 36 ^ t.length ∧
      addOneToUid sid.length (sid.length + t.length) (sid ++ a :: (t ++ (x ++ [nul]))) =
        sid ++ 'A' :: (List.replicate t.length 'A' ++ (List.replicate x.length 'A' ++ [nul])) := by
  have hdial : ∀ c ∈ t.reverse, c ∈ symbols := fun c hc => ht c (List.mem_reverse.mp hc)
  obtain ⟨hsymbols, hlength⟩ := tick_symbols dial_symbols hdial
  have hvalue := value_tick dial_symbols hdial
  rw [List.length_reverse] at hlength hvalue
  have hsymbols' : ∀ c ∈ (tick nextSymbol 'A' t.reverse).1.reverse, c ∈ symbols := fun c hc =>
    hsymbols c (List.mem_reverse.mp hc)
  have hlength' : (tick nextSymbol 'A' t.reverse).1.reverse.length = t.length := by
    rw [List.length_reverse, hlength]
  rw [addOneToUid_tick]
  cases hcarry : (tick nextSymbol 'A' t.reverse).2 with
  | false =>
    left
    rw [hcarry] at hvalue
    have hnumber : number a (tick nextSymbol 'A' t.reverse).1.reverse = number a t + 1 := by
      rw [number, number, List.reverse_reverse, hlength']
      simp only [Bool.false_eq_true, if_false] at hvalue
      omega
    have hlt := number_lt ha hsymbols'
    rw [hnumber, hlength'] at hlt
    exact ⟨hlt, a, ha, _, hsymbols', hlength', hnumber, by simp [hcarry]⟩
  | true =>
    rw [hcarry] at hvalue
    simp only [if_true] at hvalue
    simp only [hcarry, if_true]
    by_cases hz : a = 'Z'
    · right
      have hnumber := number_lt ha ht
      have hrank : symbolRank a = 25 := by
        rw [hz]
        rfl
      have hlast : number a t + 1 = 26 * 36 ^ t.length := by
        rw [number, hrank] at hnumber ⊢
        omega
      refine ⟨hlast, ?_⟩
      have hnine : (9 : Nat) =
          sid.length + (a :: ((tick nextSymbol 'A' t.reverse).1.reverse ++ x)).length := by
        rw [List.length_cons, List.length_append, hlength']
        omega
      rw [moveLead, getD_place, if_pos hz]
      have hplaces := fillA_places sid (a :: ((tick nextSymbol 'A' t.reverse).1.reverse ++ x)) [nul]
      rw [← hnine] at hplaces
      rw [← List.append_assoc, ← List.cons_append, hplaces, List.length_cons, List.length_append,
        hlength', List.replicate_succ, List.replicate_add]
      simp only [List.cons_append, List.append_assoc]
    · left
      obtain ⟨hmem, hrank⟩ := letters_succ ha hz
      have hnumber : number (succ a) (tick nextSymbol 'A' t.reverse).1.reverse = number a t + 1 := by
        rw [number, number, List.reverse_reverse, hlength', hrank, Nat.mul_add]
        omega
      have hlt := number_lt hmem hsymbols'
      rw [hnumber, hlength'] at hlt
      refine ⟨hlt, succ a, hmem, _, hsymbols', hlength', hnumber, ?_⟩
      rw [moveLead, getD_place, if_neg hz, set_place]

end numbers

/-! ### All calls -/

def Numeric.places (me : Numeric) : Nat := if me.usesP10 then 2 else 5

def Numeric.spare (me : Numeric) : Nat := if me.usesP10 then 4 else 0

def Numeric.period (me : Numeric) : Nat := 26 * 36 ^ me.places

def Numeric.sidText (me : Numeric) : CString := (base36UidInit me).numeric

section calls
variable (me : Numeric)

theorem uinttobase64_clean (v count : Nat) :
    (uinttobase64 v count).length = count ∧ nul ∉ uinttobase64 v count := by
  induction count generalizing v with
  | zero => exact ⟨rfl, nofun⟩
  | succ count ih =>
    obtain ⟨hlen, hnul⟩ := ih (v / 64)
    have hlt : v % 64 < ub64Alphabet.length := Nat.mod_lt v (by decide)
    have hclean : nul ∉ ub64Alphabet := by decide
    have hdigit : nul ≠ ub64Alphabet.getD (v % 64) nul := by
      intro h
      rw [List.getD_eq_getElem _ _ hlt] at h
      exact hclean (h ▸ List.getElem_mem hlt)
    rw [uinttobase64, List.length_append, hlen, List.mem_append, List.mem_singleton]
    exact ⟨rfl, fun h => h.elim hnul hdigit⟩

theorem sidText_clean : nul ∉ me.sidText ∧ me.sidText.length + 1 + me.places + me.spare = 9 := by
  rw [Numeric.sidText, base36UidInit, Numeric.places, Numeric.spare]
  cases hp10 : me.usesP10 with
  | true =>
    obtain ⟨hlen, hnul⟩ := uinttobase64_clean (Cidr.atoi me.text % 2 ^ 64).toNat 2
    exact ⟨hnul, by simp only [if_true, hlen]⟩
  | false => exact ⟨me.noNul, by simp only [Bool.false_eq_true, if_false, me.sid hp10]⟩

theorem kept_sid {sid rest : CString} (h : nul ∉ sid) {is : List Nat} (hlt : ∀ i ∈ is, i < sid.length) :
    is.foldl (fun uid i => if uid.getD i nul = nul then uid.set i 'A' else uid) (sid ++ rest) =
      sid ++ rest := by
  induction is with
  | nil => rfl
  | cons i is ih =>
    rw [List.forall_mem_cons] at hlt
    have hsome : (sid ++ rest).getD i nul ≠ nul := by
      intro hnul
      rw [List.getD_append _ _ _ _ hlt.1, List.getD_eq_getElem _ _ hlt.1] at hnul
      exact h (hnul ▸ List.getElem_mem hlt.1)
    rw [List.foldl_cons, if_neg hsome, ih hlt.2]

theorem called_places (n : Nat) : ∃ a ∈ letters, ∃ t, (∀ c ∈ t, c ∈ symbols) ∧
    t.length = me.places ∧ number a t = n % me.period ∧
    called me n = ⟨me.sidText, me.sidText ++ a :: (t ++ (List.replicate me.spare
      (if n < me.period then nul else 'A') ++ [nul])), me.sidText.length + 1 + me.places⟩ := by
  obtain ⟨hnul, hlen⟩ := sidText_clean me
  have hperiod : 0 < me.period := Nat.mul_pos (by decide) (Nat.pow_pos (by decide))
  have hstart : ∀ c ∈ List.replicate me.places 'A', c ∈ symbols := by
    intro c hc
    rw [List.eq_of_mem_replicate hc]
    decide
  induction n with
  | zero =>
    refine ⟨'A', by decide, List.replicate me.places 'A', hstart, List.length_replicate, ?_, ?_⟩
    · rw [number_first, Nat.zero_mod]
    · have hindex : (if me.usesP10 then 5 else 9) = me.sidText.length + 1 + me.places := by
        rw [Numeric.spare] at hlen
        cases hp10 : me.usesP10 <;> simp only [hp10, if_true, Bool.false_eq_true, if_false] at hlen ⊢ <;>
          omega
      have hbytes : List.replicate (10 - me.sidText.length) nul =
          List.replicate (me.places + 1) nul ++ List.replicate (me.spare + 1) nul := by
        rw [List.replicate_append_replicate]
        congr 1
        omega
      have hfilled : fillA (me.sidText ++ (List.replicate (me.places + 1) nul ++
          List.replicate (me.spare + 1) nul)) me.sidText.length
            (me.sidText.length + 1 + me.places) =
          me.sidText ++ 'A' :: (List.replicate me.places 'A' ++
            (List.replicate me.spare nul ++ [nul])) := by
        have hplaces := fillA_places me.sidText (List.replicate (me.places + 1) nul)
          (List.replicate (me.spare + 1) nul)
        have hupto : me.sidText.length + 1 + me.places = me.sidText.length + (me.places + 1) := by omega
        rw [List.length_replicate, ← hupto] at hplaces
        rw [hplaces, List.replicate_succ, List.replicate_succ', List.cons_append]
      have hinit : base36UidInit me = ⟨me.sidText, fillA ((List.range me.sidText.length).foldl
          (fun uid i => if uid.getD i nul = nul then uid.set i 'A' else uid)
          (me.sidText ++ List.replicate (10 - me.sidText.length) nul)) me.sidText.length
            (if me.usesP10 then 5 else 9), if me.usesP10 then 5 else 9⟩ := rfl
      have hkept : ∀ i ∈ List.range me.sidText.length, i < me.sidText.length := fun i hi =>
        List.mem_range.mp hi
      rw [called, hinit, kept_sid hnul hkept, hbytes, hindex, hfilled, if_pos hperiod]
  | succ n ih =>
    obtain ⟨a, ha, t, ht, hplaces, hnumber, hstate⟩ := ih
    have hroom : me.sidText.length + 1 + t.length +
        (List.replicate me.spare (if n < me.period then nul else 'A')).length = 9 := by
      rw [hplaces, List.length_replicate]
      exact hlen
    have hget : (called me (n + 1)) = ⟨me.sidText, addOneToUid me.sidText.length
        (me.sidText.length + t.length) (me.sidText ++ a :: (t ++ (List.replicate me.spare
          (if n < me.period then nul else 'A') ++ [nul]))), me.sidText.length + 1 + me.places⟩ := by
      have hlast : me.sidText.length + 1 + me.places - 1 = me.sidText.length + t.length := by omega
      rw [called, hstate, base36UidGet]
      dsimp only
      rw [hlast]
    have hpow : 26 * 36 ^ t.length = me.period := by rw [hplaces, Numeric.period]
    have hmod := Nat.mod_add_div n me.period
    rw [hget]
    cases addOneToUid_next ha ht hroom with
    | inl hnext =>
      obtain ⟨hlt, a', ha', t', ht', hplaces', hnumber', hadd⟩ := hnext
      rw [hpow, hnumber] at hlt
      have hnext : (n + 1) % me.period = n % me.period + 1 := by
        rw [← Nat.mod_add_mod, Nat.mod_eq_of_lt hlt]
      have hsame : n + 1 < me.period ↔ n < me.period := by
        constructor
        · omega
        · intro hn
          rw [Nat.mod_eq_of_lt hn] at hlt
          exact hlt
      refine ⟨a', ha', t', ht', hplaces'.trans hplaces, ?_, ?_⟩
      · rw [hnumber', hnumber, hnext]
      · rw [hadd]
        simp only [hsame]
    | inr hwrap =>
      obtain ⟨hlast, hadd⟩ := hwrap
      rw [hpow, hnumber] at hlast
      have hzero : (n + 1) % me.period = 0 := by
        rw [← Nat.mod_add_mod, hlast, Nat.mod_self]
      have hpast : ¬n + 1 < me.period := by
        intro hn
        rw [Nat.mod_eq_of_lt hn] at hzero
        omega
      refine ⟨'A', by decide, List.replicate me.places 'A', hstart, List.length_replicate, ?_, ?_⟩
      · rw [number_first, hzero]
      · rw [hadd, hplaces, List.length_replicate, if_neg hpast]

def IsUid (sid uid : CString) (length : Nat) : Prop :=
  ∃ suffix, uid = sid ++ suffix ∧ suffix.length = length ∧ (∀ c ∈ suffix.head?, c ∈ letters) ∧
    ∀ c ∈ suffix, c ∈ symbols

theorem uid_eq (n : Nat) : ∃ a ∈ letters, ∃ t, (∀ c ∈ t, c ∈ symbols) ∧
    t.length = me.places ∧ number a t = (n + 1) % me.period ∧
    uid me n = me.sidText ++ a :: (t ++
      if n + 1 < me.period then [] else List.replicate me.spare 'A') := by
  obtain ⟨a, ha, t, ht, hplaces, hnumber, hstate⟩ := called_places me (n + 1)
  refine ⟨a, ha, t, ht, hplaces, hnumber, ?_⟩
  have hcall : uid me n = cstr (called me (n + 1)).newUid := rfl
  obtain ⟨hsid, -⟩ := sidText_clean me
  have hclean : nul ∉ me.sidText ++ a :: t := by
    rw [List.mem_append, List.mem_cons, not_or, not_or]
    exact ⟨hsid, (symbols_nul (letters_symbols ha)).symm, fun h => symbols_nul (ht nul h) rfl⟩
  have hassoc : ∀ x, me.sidText ++ a :: (t ++ x) = (me.sidText ++ a :: t) ++ x := by simp
  rw [hcall, hstate]
  dsimp only
  rw [hassoc, hassoc, cstr_append hclean]
  congr 1
  by_cases hn : n + 1 < me.period
  · rw [if_pos hn, if_pos hn, ← List.replicate_succ', List.replicate_succ]
    rfl
  · have hspare : nul ∉ List.replicate me.spare 'A' := fun h =>
      absurd (List.eq_of_mem_replicate h) (by decide)
    rw [if_neg hn, if_neg hn, cstr_split hspare]

theorem spare_eq_zero : me.spare = 0 ↔ me.usesP10 = false := by
  rw [Numeric.spare]
  cases me.usesP10 <;> simp

end calls

/-- A UID is right on every protocol but P10 as long as there are numbers, and calls with the same
UID are a whole number of rounds apart. -/
theorem base36_uids_exact (me : Numeric) (n : Nat) :
    (IsUid me.sidText (uid me n) (me.places + 1) ↔
      me.usesP10 = false ∨ n + 1 < 26 * 36 ^ me.places) ∧
    ∀ m, uid me m = uid me n → m % (26 * 36 ^ me.places) = n % (26 * 36 ^ me.places) := by
  have hpow : 26 * 36 ^ me.places = me.period := rfl
  obtain ⟨a, ha, t, ht, hplaces, hnumber, huid⟩ := uid_eq me n
  rw [hpow, huid]
  constructor
  · constructor
    · rintro ⟨suffix, heq, hlen, _⟩
      have hsuffix := List.append_cancel_left heq
      rw [← hsuffix, List.length_cons, List.length_append, hplaces] at hlen
      by_cases hn : n + 1 < me.period
      · exact .inr hn
      · rw [if_neg hn, List.length_replicate] at hlen
        exact .inl ((spare_eq_zero me).mp (by omega))
    · intro h
      have hnone : (if n + 1 < me.period then [] else List.replicate me.spare 'A') = [] := by
        cases h with
        | inl hp10 =>
          rw [(spare_eq_zero me).mpr hp10, List.replicate_zero, ite_self]
        | inr hn => rw [if_pos hn]
      rw [hnone, List.append_nil]
      refine ⟨a :: t, rfl, by rw [List.length_cons, hplaces], ?_, ?_⟩
      · intro c hc
        obtain rfl := Option.some.inj hc
        exact ha
      · exact List.forall_mem_cons.mpr ⟨letters_symbols ha, ht⟩
  · intro m hsame
    obtain ⟨a', ha', t', ht', hplaces', hnumber', huid'⟩ := uid_eq me m
    rw [huid'] at hsame
    obtain ⟨rfl, htail⟩ := List.cons.inj (List.append_cancel_left hsame)
    obtain ⟨rfl, -⟩ := List.append_inj htail (hplaces'.trans hplaces.symm)
    have hround : (m + 1) % me.period = (n + 1) % me.period := hnumber'.symm.trans hnumber
    exact Nat.ModEq.add_right_cancel' 1 hround

def p10One : Numeric := ⟨true, ['1'], by decide, nofun⟩

/-- With the numeric 1 of P10, call number 33696 starts again, and its UID has nine bytes. -/
theorem p10_uid_overlong : p10One.sidText = "AB".toList ∧ (uid p10One 33695).length = 9 ∧
    ¬IsUid p10One.sidText (uid p10One 33695) 3 := by
  have hsid : p10One.sidText = "AB".toList := by decide
  obtain ⟨a, -, t, -, hplaces, -, huid⟩ := uid_eq p10One 33695
  have hpast : ¬33695 + 1 < p10One.period := by decide
  have htwo : t.length = 2 := hplaces
  have hfour : (List.replicate p10One.spare 'A').length = 4 := rfl
  rw [if_neg hpast] at huid
  refine ⟨hsid, ?_, ?_⟩
  · rw [huid, hsid, List.length_append, List.length_cons, List.length_append, htwo, hfour]
    rfl
  · rintro ⟨suffix, heq, hlen, _⟩
    rw [huid] at heq
    rw [← List.append_cancel_left heq, List.length_cons, List.length_append, htwo, hfour] at hlen
    exact absurd hlen (by decide)

end ChatServices.Protocol.Base36Uid
