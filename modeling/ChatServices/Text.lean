import Mathlib.Algebra.Group.Nat.Defs
import Mathlib.Data.List.TakeWhile

/-! C strings and byte buffers as lists of characters (one `Char` a byte), the
terminator conventions of the string calls, and the two case foldings. -/
namespace ChatServices

abbrev CString := List Char

instance : LawfulBEq CString := inferInstance

namespace Text

def nul : Char := '\x00'

def cstr (s : CString) : CString := s.takeWhile (· ≠ nul)

/-- `memchr (s, 0, len)` as a split: the bytes before the NUL and those after it. -/
def splitNul : CString → Option (CString × CString)
  | [] => none
  | c :: cs => if c = nul then some ([], cs) else (splitNul cs).map fun p => (c :: p.1, p.2)

/-- `snprintf` into a buffer of `size` bytes. -/
def truncate (size : Nat) (s : CString) : CString := s.take (size - 1)

/-- What `printf` makes of a format without arguments; nothing where it asks for one. -/
def formatText : CString → Option CString
  | '%' :: '%' :: s => (formatText s).map ('%' :: ·)
  | '%' :: _ => none
  | [] => some []
  | c :: s => (formatText s).map (c :: ·)

inductive CaseMapping where
  | rfc1459 | ascii
  deriving DecidableEq, Repr

/-- `toupper` in the C locale. -/
def toupper (c : Char) : Char :=
  if 'a' ≤ c ∧ c ≤ 'z' then Char.ofNat (c.toNat - 32) else c

/-- `ToUpperTab`: the letters and the four characters that follow `z`. -/
def toUpperTab (c : Char) : Char :=
  if 'a' ≤ c ∧ c ≤ '~' then Char.ofNat (c.toNat - 32) else c

def toUpper (cm : CaseMapping) (c : Char) : Char :=
  match cm with
  | .ascii => toupper c
  | .rfc1459 => toUpperTab c

def irccasecanon (cm : CaseMapping) (s : CString) : CString := s.map (toUpper cm)

/-- `irccasecmp (a, b) == 0`. -/
def irccaseEq (cm : CaseMapping) (a b : CString) : Bool := irccasecanon cm a = irccasecanon cm b

def strcasecanon (s : CString) : CString := s.map toupper

/-- `strcasecmp (a, b) == 0`. -/
def strcaseEq (a b : CString) : Bool := strcasecanon a = strcasecanon b

/-- What `collapse` leaves behind a star: no further stars, nor those among the question
marks that follow. -/
def afterStar : CString → CString
  | [] => []
  | c :: s =>
    if c = '*' then s.dropWhile (· = '*')
    else if c = '?' then
      c :: (s.takeWhile (fun c => c = '*' ∨ c = '?')).filter (· = '?') ++
        s.dropWhile (fun c => c = '*' ∨ c = '?')
    else c :: s

def collapseFrom : Nat → CString → CString
  | 0, s => s
  | _ + 1, [] => []
  | fuel + 1, c :: s =>
    if c = '\\' then
      match s with
      | [] => [c]
      | c' :: s => c :: c' :: collapseFrom fuel s
    else if c = '*' then c :: collapseFrom fuel (afterStar s)
    else c :: collapseFrom fuel s

/-- `collapse`, in place from left to right. -/
def collapse (pattern : CString) : CString := collapseFrom pattern.length pattern

theorem length_afterStar_le (s : CString) : (afterStar s).length ≤ s.length := by
  cases s with
  | nil => exact le_refl _
  | cons c s =>
    rw [afterStar]
    split_ifs
    · have hle := (List.dropWhile_suffix (p := fun c => decide (c = '*')) (l := s)).length_le
      rw [List.length_cons]
      omega
    · have hfilter := List.length_filter_le (fun c => decide (c = '?'))
        (s.takeWhile (fun c => c = '*' ∨ c = '?'))
      have hsplit := congrArg List.length
        (List.takeWhile_append_dropWhile (p := fun c => decide (c = '*' ∨ c = '?')) (l := s))
      simp only [List.length_append, List.length_cons, List.cons_append] at hsplit ⊢
      omega
    · exact le_refl _

theorem length_collapse_le (pattern : CString) : (collapse pattern).length ≤ pattern.length := by
  suffices h : ∀ fuel s, (collapseFrom fuel s).length ≤ s.length from h _ _
  intro fuel
  induction fuel with
  | zero => exact fun s => le_refl _
  | succ fuel ih =>
    intro s
    cases s with
    | nil => exact le_refl _
    | cons c s =>
      rw [collapseFrom.eq_def]
      dsimp only
      split_ifs
      · cases s with
        | nil => exact le_refl _
        | cons c' s =>
          have hle := ih s
          simp only [List.length_cons]
          omega
      · have hle := ih (afterStar s)
        have hstar := length_afterStar_le s
        simp only [List.length_cons]
        omega
      · have hle := ih s
        simp only [List.length_cons]
        omega

theorem nul_notMem_cstr (s : CString) : nul ∉ cstr s := by
  intro h
  simpa using List.mem_takeWhile_imp h

theorem cstr_eq_self_iff (s : CString) : cstr s = s ↔ nul ∉ s := by
  constructor
  · intro h hn
    rw [← h] at hn
    exact nul_notMem_cstr s hn
  · intro h
    refine List.takeWhile_eq_self_iff.mpr fun c hc => ?_
    simpa using fun he : c = nul => h (he ▸ hc)

theorem cstr_cons {c : Char} (h : c ≠ nul) (s : CString) : cstr (c :: s) = c :: cstr s := by
  simp [cstr, h]

theorem cstr_append {w : CString} (h : nul ∉ w) (s : CString) : cstr (w ++ s) = w ++ cstr s := by
  induction w with
  | nil => rfl
  | cons c w ih =>
    rw [List.mem_cons, not_or] at h
    rw [List.cons_append, cstr_cons (Ne.symm h.1), ih h.2, List.cons_append]

theorem cstr_split {field rest : CString} (h : nul ∉ field) : cstr (field ++ nul :: rest) = field := by
  have hend : cstr (nul :: rest) = [] := rfl
  rw [cstr_append h, hend, List.append_nil]

theorem length_cstr_le (s : CString) : (cstr s).length ≤ s.length :=
  (List.takeWhile_sublist _).length_le

theorem irccaseEq_iff (cm : CaseMapping) (a b : CString) :
    irccaseEq cm a b = true ↔ irccasecanon cm a = irccasecanon cm b := by
  simp [irccaseEq]

@[simp] theorem irccaseEq_self (cm : CaseMapping) (a : CString) : irccaseEq cm a a = true := by
  simp [irccaseEq]

theorem toUpper_toupper (cm : CaseMapping) (c : Char) : toUpper cm (toupper c) = toUpper cm c := by
  rw [toupper]
  split_ifs with h
  · have hsmall : c.toNat < 128 := by
      have hle : c.toNat ≤ 'z'.toNat := h.2
      have hz : 'z'.toNat = 122 := rfl
      omega
    have hall : ∀ n < 128, 'a' ≤ Char.ofNat n ∧ Char.ofNat n ≤ 'z' →
        toUpper cm (Char.ofNat (n - 32)) = toUpper cm (Char.ofNat n) := by
      cases cm <;> decide +kernel
    have hc := hall c.toNat hsmall
    rw [Char.ofNat_toNat] at hc
    exact hc h
  · rfl

theorem irccasecanon_congr {cm : CaseMapping} {a b : CString} (h : strcasecanon a = strcasecanon b) :
    irccasecanon cm a = irccasecanon cm b := by
  have hmap : ∀ s : CString, irccasecanon cm (strcasecanon s) = irccasecanon cm s := by
    intro s
    rw [irccasecanon, strcasecanon, List.map_map]
    exact List.map_congr_left fun c _ => toUpper_toupper cm c
  rw [← hmap, h, hmap]

end Text

/-- `cmd_faultcode_t`. -/
inductive Fault where
  | needmoreparams | badparams | nosuchSource | nosuchTarget | authfail | noprivs | nosuchKey
  | alreadyexists | toomany | emailfail | notverified | nochange | alreadyAuthed | unimplemented
  | badauthcookie
  deriving DecidableEq, Repr

end ChatServices
