import ChatServices.Lib.Rows
import ChatServices.ChanServ.AkickArmed

/-! The flat file of the database: rows of cells, the numbers in them, and the reader that ends the
process where a cell is missing or no number. -/
namespace ChatServices.Storage
open ChatServices.Lib ChatServices.Lib.Rows ChatServices.Text ChatServices.ChanServ

/-! ### Numbers -/

def isSpace (c : Char) : Bool := c ∈ [' ', '\t', '\n', '\x0b', '\x0c', '\r']

def digitValue (c : Char) : Option Nat :=
  if '0' ≤ c ∧ c ≤ '9' then some (c.toNat - 48)
  else if 'a' ≤ c ∧ c ≤ 'z' then some (c.toNat - 87)
  else if 'A' ≤ c ∧ c ≤ 'Z' then some (c.toNat - 55)
  else none

def isDigitOf (base : Nat) (c : Char) : Bool := (digitValue c).any (· < base)

def numberBase (s : CString) : Nat × CString :=
  match s with
  | '0' :: x :: d :: t =>
    if (x = 'x' ∨ x = 'X') ∧ isDigitOf 16 d = true then (16, d :: t) else (8, s)
  | '0' :: _ => (8, s)
  | _ => (10, s)

def numberSign : CString → Bool × CString
  | '-' :: s => (true, s)
  | '+' :: s => (false, s)
  | s => (false, s)

/-- Sign, magnitude and what stands behind the number, or `none` where there are no digits. -/
def scanNumber (s : CString) : Option (Bool × Nat × CString) :=
  let (neg, s) := numberSign (s.dropWhile isSpace)
  let (base, s) := numberBase s
  let digits := s.takeWhile (isDigitOf base)
  if digits = [] then none
  else some (neg, digits.foldl (fun n c => base * n + (digitValue c).getD 0) 0,
    s.dropWhile (isDigitOf base))

def strtoul (s : CString) : Nat × CString :=
  match scanNumber s with
  | none => (0, s)
  | some (neg, n, rest) =>
    if n ≥ 2 ^ 64 then (2 ^ 64 - 1, rest) else (if neg then (2 ^ 64 - n) % 2 ^ 64 else n, rest)

def strtol (s : CString) : Int × CString :=
  match scanNumber s with
  | none => (0, s)
  | some (neg, n, rest) =>
    (if neg then max (-(n : Int)) (-(2 ^ 63)) else min (n : Int) (2 ^ 63 - 1), rest)

/-! ### Rows -/

def writeRow (type : String) (words : List CString) (rest : CString) : CString :=
  writeCells ' ' (type.toList :: words) rest

/-- `rs->token`: what is left of the row, NULL behind a word that no blank ends. -/
abbrev Token := Option CString

/-- Reading from one row; `none` is the exit of the process. -/
abbrev Reader := StateT Token Option

def dbReadWord : Reader (Option CString)
  | none => some (none, none)
  | some row => some (some (readWord ' ' row).1, (readWord ' ' row).2)

def dbSreadWord : Reader CString := fun token => token.map (readWord ' ')

def dbSreadStr : Reader CString := fun token => token.map fun row => (row, token)

def dbSreadTime : Reader Nat := do
  let s ← dbSreadWord
  if s ≠ [] ∧ (strtoul s).2 = [] then pure (strtoul s).1 else failure

def dbSreadUint : Reader (BitVec 32) := do
  let s ← dbSreadWord
  if s ≠ [] ∧ (strtoul s).2 = [] then pure (BitVec.ofNat 32 (strtoul s).1) else failure

def dbSreadInt : Reader (BitVec 32) := do
  let s ← dbSreadWord
  if s ≠ [] ∧ (strtol s).2 = [] then pure (BitVec.ofInt 32 (strtol s).1) else failure

/-- One row of `opensex_db_parse`, which passes over empty lines and comments. -/
def parseRow {β : Type} (process : CString → Reader β) (st : β) (row : CString) : Option β :=
  let (type, token) := Rows.readWord ' ' row
  if type = [] ∨ type.head?.any (· ∈ ['#', '\n', '\t', ' ', '\r']) then some st
  else ((process type).run token).map Prod.fst

def IsWord (s : CString) : Prop := ' ' ∉ s ∧ '\n' ∉ s

def IsLine (s : CString) : Prop := '\n' ∉ s

instance (s : CString) : Decidable (IsWord s) := inferInstanceAs (Decidable (_ ∧ _))

instance (s : CString) : Decidable (IsLine s) := inferInstanceAs (Decidable (_ ∉ _))

theorem IsWord.line {s : CString} (h : IsWord s) : IsLine s := h.2

theorem line_writeRow {type : String} {words : List CString} {rest : CString}
    (htype : '\n' ∉ type.toList) (hwords : ∀ w ∈ words, IsWord w) (hrest : IsLine rest) :
    '\n' ∉ writeRow type words rest := by
  apply notMem_writeCells (by decide)
  · intro w hw
    obtain rfl | hw := List.mem_cons.mp hw
    · exact htype
    · exact (hwords w hw).2
  · exact hrest

/-! ### Numbers come back -/

theorem digit_bounds {c : Char} (h : c.isDigit = true) : '0' ≤ c ∧ c ≤ '9' := by
  simp only [Char.isDigit, Bool.and_eq_true, decide_eq_true_eq] at h
  exact h

theorem digitValue_digit {c : Char} (h : c.isDigit = true) :
    digitValue c = some (c.toNat - 48) := by
  rw [digitValue, if_pos (digit_bounds h)]

theorem isDigitOf_ten {c : Char} (h : c.isDigit = true) : isDigitOf 10 c = true := by
  have hle : c.toNat ≤ '9'.toNat := (digit_bounds h).2
  have hnine : '9'.toNat = 57 := rfl
  rw [isDigitOf, digitValue_digit h, Option.any_some, decide_eq_true_eq]
  omega

theorem natArg_zero_head {n : Nat} {s : CString} (h : natArg n = '0' :: s) : n = 0 ∧ s = [] := by
  induction n using Nat.strongRecOn generalizing s with
  | ind n ih =>
    rw [natArg_eq, Nat.toDigits_eq_if (by omega)] at h
    split_ifs at h with hlt
    · simp only [List.cons.injEq, Nat.digitChar_eq_zero] at h
      exact ⟨h.1, h.2.symm⟩
    · cases hdiv : Nat.toDigits 10 (n / 10) with
      | nil => exact absurd hdiv Nat.toDigits_ne_nil
      | cons c t =>
        rw [hdiv, List.cons_append, List.cons.injEq] at h
        have hzero := ih (n / 10) (by omega) (natArg_eq _ ▸ h.1 ▸ hdiv)
        omega

theorem numberBase_natArg (n : Nat) : n = 0 ∨ numberBase (natArg n) = (10, natArg n) := by
  cases hs : natArg n with
  | nil => exact .inr rfl
  | cons c s =>
    by_cases hc : c = '0'
    · exact .inl (natArg_zero_head (hc ▸ hs)).1
    · right
      rw [numberBase]
      all_goals
        intros
        simp_all

theorem natArg_start {n : Nat} {c : Char} {s : CString} (h : natArg n = c :: s) :
    isSpace c = false ∧ c ≠ '-' ∧ c ≠ '+' := by
  have hc : c.isDigit = true := isDigit_of_mem_natArg (h ▸ List.mem_cons_self)
  refine ⟨?_, ?_, ?_⟩
  · rw [isSpace, decide_eq_false_iff_not]
    simp only [List.mem_cons, List.not_mem_nil, or_false, not_or]
    refine ⟨?_, ?_, ?_, ?_, ?_, ?_⟩
    all_goals
      rintro rfl
      exact absurd hc (by decide)
  · rintro rfl
    exact absurd hc (by decide)
  · rintro rfl
    exact absurd hc (by decide)

theorem foldl_natArg (n : Nat) :
    (natArg n).foldl (fun n c => 10 * n + (digitValue c).getD 0) 0 = n := by
  have hstep : ∀ (s : CString) (m : Nat), (∀ c ∈ s, c.isDigit = true) →
      s.foldl (fun n c => 10 * n + (digitValue c).getD 0) m =
        s.foldl (fun n c => 10 * n + (c.toNat - '0'.toNat)) m := by
    intro s
    induction s with
    | nil => exact fun _ _ => rfl
    | cons c s ih =>
      intro m hs
      rw [List.foldl_cons, List.foldl_cons, digitValue_digit (hs c List.mem_cons_self)]
      exact ih _ fun d hd => hs d (List.mem_cons_of_mem c hd)
  rw [hstep _ 0 fun c hc => isDigit_of_mem_natArg hc]
  exact foldl_digits_natArg n

theorem takeWhile_natArg (n : Nat) : (natArg n).takeWhile (isDigitOf 10) = natArg n :=
  List.takeWhile_eq_self_iff.mpr fun _ hc => isDigitOf_ten (isDigit_of_mem_natArg hc)

theorem dropWhile_natArg (n : Nat) : (natArg n).dropWhile (isDigitOf 10) = [] :=
  List.dropWhile_eq_nil_iff.mpr fun _ hc => isDigitOf_ten (isDigit_of_mem_natArg hc)

theorem scanNumber_natArg (n : Nat) : scanNumber (natArg n) = some (false, n, []) := by
  have hdrop : (natArg n).dropWhile isSpace = natArg n := by
    cases hs : natArg n with
    | nil => rfl
    | cons c s => rw [List.dropWhile_cons_of_neg (by simp [(natArg_start hs).1])]
  have hsign : numberSign (natArg n) = (false, natArg n) := by
    cases hs : natArg n with
    | nil => rfl
    | cons c s =>
      obtain ⟨-, hminus, hplus⟩ := natArg_start hs
      rw [numberSign]
      all_goals
        intros
        simp_all
  rcases numberBase_natArg n with rfl | hbase
  · decide
  · simp only [scanNumber, hdrop, hsign, hbase, takeWhile_natArg, dropWhile_natArg, foldl_natArg,
      if_neg (natArg_ne_nil n)]

theorem scanNumber_minus {n : Nat} (h : n ≠ 0) :
    scanNumber ('-' :: natArg n) = some (true, n, []) := by
  have hdrop : ('-' :: natArg n).dropWhile isSpace = '-' :: natArg n :=
    List.dropWhile_cons_of_neg (by decide)
  have hbase := (numberBase_natArg n).resolve_left h
  simp only [scanNumber, hdrop, numberSign, hbase, takeWhile_natArg, dropWhile_natArg,
    foldl_natArg, if_neg (natArg_ne_nil n)]

theorem strtoul_natArg {n : Nat} (h : n < 2 ^ 64) : strtoul (natArg n) = (n, []) := by
  rw [strtoul, scanNumber_natArg]
  simp only [if_neg (Nat.not_le.mpr h)]
  rfl

theorem strtol_natArg {n : Nat} (h : n < 2 ^ 63) : strtol (natArg n) = ((n : Int), []) := by
  unfold strtol
  rw [scanNumber_natArg]
  simp only [Bool.false_eq_true, if_false, Prod.mk.injEq, and_true]
  omega

theorem natArg_isWord (n : Nat) : IsWord (natArg n) := by
  constructor
  · exact fun h => absurd (isDigit_of_mem_natArg h) (by decide)
  · exact fun h => absurd (isDigit_of_mem_natArg h) (by decide)

/-! ### Cells come back -/

section cells
variable {β : Type} {w : CString} {ws : List CString} {rest : CString}

theorem sreadWord_bind (h : IsWord w) (f : CString → Reader β) :
    (dbSreadWord >>= f) (some (writeCells ' ' (w :: ws) rest)) =
      f w (some (writeCells ' ' ws rest)) := by
  have hread : dbSreadWord (some (writeCells ' ' (w :: ws) rest)) =
      some (w, some (writeCells ' ' ws rest)) := congrArg some (readWord_append h.1 _)
  simp only [bind, StateT.bind, hread, Option.bind_some]

theorem readWord_bind (h : IsWord w) (f : Option CString → Reader β) :
    (dbReadWord >>= f) (some (writeCells ' ' (w :: ws) rest)) =
      f (some w) (some (writeCells ' ' ws rest)) := by
  have hread : dbReadWord (some (writeCells ' ' (w :: ws) rest)) =
      some (some w, some (writeCells ' ' ws rest)) := by
    have hword := readWord_append h.1 (writeCells ' ' ws rest)
    rw [writeCells_cons, dbReadWord, hword]
  simp only [bind, StateT.bind, hread, Option.bind_some]

theorem sreadTime_bind {t : Nat} (h : t < 2 ^ 64) (f : Nat → Reader β) :
    (dbSreadTime >>= f) (some (writeCells ' ' (natArg t :: ws) rest)) =
      f t (some (writeCells ' ' ws rest)) := by
  have hne := natArg_ne_nil t
  rw [dbSreadTime, bind_assoc, sreadWord_bind (natArg_isWord t), strtoul_natArg h,
    if_pos ⟨hne, rfl⟩, pure_bind]

theorem sreadUint_bind (n : BitVec 32) (f : BitVec 32 → Reader β) :
    (dbSreadUint >>= f) (some (writeCells ' ' (natArg n.toNat :: ws) rest)) =
      f n (some (writeCells ' ' ws rest)) := by
  have hne := natArg_ne_nil n.toNat
  have hlt : n.toNat < 2 ^ 64 := lt_trans n.isLt (by decide)
  rw [dbSreadUint, bind_assoc, sreadWord_bind (natArg_isWord n.toNat), strtoul_natArg hlt,
    if_pos ⟨hne, rfl⟩, pure_bind, BitVec.ofNat_toNat, BitVec.setWidth_eq]

theorem sreadInt_bind (n : BitVec 32) (f : BitVec 32 → Reader β) :
    (dbSreadInt >>= f) (some (writeCells ' ' (natArg n.toNat :: ws) rest)) =
      f n (some (writeCells ' ' ws rest)) := by
  have hne := natArg_ne_nil n.toNat
  have hlt : n.toNat < 2 ^ 63 := lt_trans n.isLt (by decide)
  have hint : BitVec.ofInt 32 (n.toNat : Int) = n := by
    rw [BitVec.ofInt_natCast, BitVec.ofNat_toNat, BitVec.setWidth_eq]
  rw [dbSreadInt, bind_assoc, sreadWord_bind (natArg_isWord n.toNat), strtol_natArg hlt,
    if_pos ⟨hne, rfl⟩, pure_bind, hint]

theorem parseRow_writeRow {process : CString → Reader β} {st : β} {type : String}
    (hword : ' ' ∉ type.toList)
    (hstart : ∃ c s, type.toList = c :: s ∧ c ∉ ['#', '\n', '\t', ' ', '\r'])
    (words : List CString) (rest : CString) :
    parseRow process st (writeRow type words rest) =
      ((process type.toList).run (some (writeCells ' ' words rest))).map Prod.fst := by
  have hread : Rows.readWord ' ' (writeRow type words rest) =
      (type.toList, some (writeCells ' ' words rest)) := readWord_append hword _
  obtain ⟨c, s, hcs, hc⟩ := hstart
  have hskip : ¬ (type.toList = [] ∨ type.toList.head?.any (· ∈ ['#', '\n', '\t', ' ', '\r'])) := by
    rw [hcs]
    simpa using hc
  rw [parseRow, hread]
  exact if_neg hskip

theorem sreadStr_bind (f : CString → Reader β) :
    (dbSreadStr >>= f) (some rest) = f rest (some rest) := rfl

end cells
end ChatServices.Storage
