import ChatServices.Lib.Glob
import ChatServices.Text

/-! `match`: the loop over a mask and a name, with the point it goes back to and the limit on
its iterations, and the language of a mask. -/
namespace ChatServices.Match
open ChatServices.Text ChatServices.Lib.Glob

/-- `ToLowerTab`: the letters and the four characters that follow `Z`. -/
def toLowerTab (c : Char) : Char :=
  if 'A' ≤ c ∧ c ≤ '^' then Char.ofNat (c.toNat + 32) else c

def tolower (c : Char) : Char :=
  if 'A' ≤ c ∧ c ≤ 'Z' then Char.ofNat (c.toNat + 32) else c

def toLower (cm : CaseMapping) (c : Char) : Char :=
  match cm with
  | .ascii => tolower c
  | .rfc1459 => toLowerTab c

/-- `IsAlpha`, `IsDigit` and `IsNon`, as `charattrs` has them. -/
def isAlpha (c : Char) : Bool := ('A' ≤ c ∧ c ≤ 'Z') ∨ ('a' ≤ c ∧ c ≤ 'z')
def isDigit (c : Char) : Bool := '0' ≤ c ∧ c ≤ '9'
def isNon (c : Char) : Bool := !(isAlpha c || isDigit c)

def MAX_ITERATIONS : Nat := 512

def escapable (c : Char) : Bool := c = '*' || c = '?' || c = '&' || c = '#' || c = '%'

/-- The pointers of the loop: `m`, `n`, and `ma` with `na` once `wild` is set. -/
structure Cursor where
  m : CString
  n : CString
  wild : Option (CString × CString)

def endsOpen (mask : CString) : Bool :=
  match mask.reverse.dropWhile (fun c => c = '?' || c = '&' || c = '#') with
  | '*' :: c :: _ => c ≠ '\\'
  | _ => false

section loop
variable (cm : CaseMapping)

def escaped (m : CString) : Bool := m.head? = some '\\' && m.tail.head?.any escapable

def charDiffers (q : Bool) (m n : Char) : Bool :=
  toLower cm m ≠ toLower cm n &&
    ((m ≠ '?' && !(m = '&' && isAlpha n) && !(m = '#' && isDigit n) && !(m = '%' && isNon n)) || q)

def goBack : Option (CString × CString) → Bool ⊕ Cursor
  | none => .inl false
  | some (ma, na) => .inr ⟨ma, na.tail, some (ma, na.tail)⟩

def compareChars (s : Cursor) : Bool ⊕ Cursor :=
  let m := if escaped s.m then s.m.tail else s.m
  if charDiffers cm (escaped s.m) (m.headD nul) (s.n.headD nul) then goBack s.wild
  else .inr ⟨m.tail, s.n.tail, s.wild⟩

def passStars (s : Cursor) : Cursor :=
  if s.m.head? = some '*' then
    ⟨s.m.dropWhile (· = '*'), s.n, some (s.m.dropWhile (· = '*'), s.n)⟩
  else s

def iteration (mask : CString) (s : Cursor) : Bool ⊕ Cursor :=
  let s := passStars s
  if s.m = [] then
    if s.n = [] then .inl true
    else if endsOpen mask then .inl true
    else
      match goBack s.wild with
      | .inl answer => .inl answer
      | .inr s => compareChars cm s
  else if s.n = [] then .inl false
  else compareChars cm s

def matchLoop (mask : CString) : Nat → Cursor → Option Bool
  | 0, _ => none
  | calls + 1, s =>
    match iteration cm mask s with
    | .inl answer => some answer
    | .inr s => matchLoop mask calls s

def matchWithin (limit : Nat) (mask name : CString) : Option Bool :=
  if mask = ['*'] then some true else matchLoop cm mask limit ⟨mask, name, none⟩

def matchAnswer (mask name : CString) : Option Bool :=
  if mask = ['*'] then some true
  else matchLoop cm mask (MAX_ITERATIONS + 1) ⟨mask, name, none⟩

def matchMask (mask name : CString) : Bool := (matchAnswer cm mask name).getD false

end loop

/-! ### The language of a mask -/

inductive Tok where
  | lit (c : Char)
  | any
  | alpha
  | digit
  | non
  deriving DecidableEq, Repr

def Tok.text : Tok → Char
  | .lit c => c
  | .any => '?'
  | .alpha => '&'
  | .digit => '#'
  | .non => '%'

def Tok.takes (t : Tok) (c : Char) : Bool :=
  match t with
  | .lit _ => false
  | .any => true
  | .alpha => isAlpha c
  | .digit => isDigit c
  | .non => isNon c

def sat (cm : CaseMapping) (t : Tok) (c : Char) : Bool :=
  toLower cm t.text = toLower cm c || t.takes c

def itemOf (c : Char) : Item Tok :=
  if c = '*' then .many
  else if c = '?' then .one .any
  else if c = '&' then .one .alpha
  else if c = '#' then .one .digit
  else if c = '%' then .one .non
  else .one (.lit c)

def itemsFrom : Bool → CString → List (Item Tok)
  | _, [] => []
  | true, c :: m => .one (.lit c) :: itemsFrom false m
  | false, c :: m =>
    if escaped (c :: m) then itemsFrom true m else itemOf c :: itemsFrom false m

def ending (mask : CString) : List (Item Tok) := if endsOpen mask then [.many] else []

def items (mask : CString) : List (Item Tok) := itemsFrom false mask ++ ending mask

/-! ### The loop decides the language -/

section loop
variable {cm : CaseMapping} {mask : CString}

theorem itemsFrom_star (m : CString) : itemsFrom false ('*' :: m) = .many :: itemsFrom false m := by
  simp [itemsFrom, escaped, itemOf]

theorem matches_dropStars (m : CString) (e : List (Item Tok)) (x : CString) :
    Matches (sat cm) (.many :: (itemsFrom false (m.dropWhile (· = '*')) ++ e)) x ↔
      Matches (sat cm) (.many :: (itemsFrom false m ++ e)) x := by
  induction m with
  | nil => rfl
  | cons c m ih =>
    by_cases hc : c = '*'
    · subst hc
      rw [itemsFrom_star, List.cons_append, matches_many_many, ← ih]
      simp
    · simp [hc]

def itemsAt (mask m : CString) : List (Item Tok) := itemsFrom false m ++ ending mask

def savedAt (mask : CString) (wild : Option (CString × CString)) :
    Option (List (Item Tok) × CString) :=
  wild.map fun p => (itemsAt mask p.1, p.2)

def Cursor.reachable (cm : CaseMapping) (mask : CString) (s : Cursor) : Prop :=
  Reachable (sat cm) (itemsAt mask s.m) s.n (savedAt mask s.wild)

def Placed (mask m : CString) : Prop :=
  ∃ pre, mask = pre ++ m ∧ (pre.getLast? = some '\\' → m.head?.any escapable = false)

structure Cursor.Ok (mask : CString) (s : Cursor) : Prop where
  aligned : Aligned (itemsAt mask s.m) s.n (savedAt mask s.wild)
  placed : Placed mask s.m
  star : ∀ p ∈ s.wild, p.1.head? ≠ some '*' ∧ Placed mask p.1 ∧ (p.1 = [] → endsOpen mask = true)

theorem charDiffers_lit (m n : Char) :
    charDiffers cm true m n = !sat cm (.lit m) n := by
  by_cases heq : toLower cm m = toLower cm n
  · simp [charDiffers, sat, Tok.text, heq]
  · simp [charDiffers, sat, Tok.text, Tok.takes, heq]

theorem charDiffers_item {m n : Char} {t : Tok} (h : itemOf m = .one t) :
    charDiffers cm false m n = !sat cm t n := by
  by_cases heq : toLower cm m = toLower cm n
  · have htext : t.text = m := by
      rw [itemOf] at h
      split_ifs at h
      all_goals cases h
      all_goals simp_all [Tok.text]
    simp [charDiffers, sat, htext, heq]
  · rw [itemOf] at h
    split_ifs at h
    all_goals cases h
    all_goals simp_all [charDiffers, sat, Tok.text, Tok.takes]

theorem itemsFrom_compare (cm : CaseMapping) {c : Char} {m : CString} (hstar : c ≠ '*') :
    ∃ t, itemsFrom false (c :: m) =
        .one t :: itemsFrom false (if escaped (c :: m) then m else c :: m).tail ∧
      ∀ a, charDiffers cm (escaped (c :: m))
        ((if escaped (c :: m) then m else c :: m).headD nul) a = !sat cm t a := by
  cases hesc : escaped (c :: m) with
  | true =>
    cases m with
    | nil => simp [escaped] at hesc
    | cons d m =>
      refine ⟨.lit d, ?_, fun a => ?_⟩
      · rw [itemsFrom, if_pos hesc, itemsFrom]
        rfl
      · exact charDiffers_lit d a
  | false =>
    have hitem : ∃ t, itemOf c = .one t := by
      rw [itemOf, if_neg hstar]
      split_ifs
      all_goals exact ⟨_, rfl⟩
    obtain ⟨t, ht⟩ := hitem
    refine ⟨t, ?_, fun a => ?_⟩
    · rw [itemsFrom, hesc, ht]
      rfl
    · exact charDiffers_item ht

def Sound (cm : CaseMapping) (mask : CString) (s : Cursor) : Bool ⊕ Cursor → Prop
  | .inl answer => answer = true ↔ s.reachable cm mask
  | .inr s' => s'.Ok mask ∧ (s.reachable cm mask ↔ s'.reachable cm mask)

theorem goBack_sound {s : Cursor} (hok : s.Ok mask)
    (hfail : ¬ Matches (sat cm) (itemsAt mask s.m) s.n) : Sound cm mask s (goBack s.wild) := by
  cases hwild : s.wild with
  | none =>
    have hnot : ¬ s.reachable cm mask := by
      rw [Cursor.reachable, hwild]
      exact reachable_failed hfail
    simp [goBack, Sound, hnot]
  | some p =>
    have hstar := hok.star p (by simp [hwild])
    refine ⟨⟨aligned_self, hstar.2.1, ?_⟩, ?_⟩
    · intro p' hp'
      obtain rfl := Option.some.inj hp'
      exact hstar
    · rw [Cursor.reachable, hwild]
      exact reachable_retry hfail

theorem Placed.advance {c : Char} {m : CString} (h : Placed mask (c :: m)) :
    Placed mask (if escaped (c :: m) then m else c :: m).tail := by
  obtain ⟨pre, hmask, -⟩ := h
  cases hesc : escaped (c :: m) with
  | true =>
    cases m with
    | nil => simp [escaped] at hesc
    | cons d m =>
      refine ⟨pre ++ [c, d], by simp [hmask], fun hlast => ?_⟩
      have hd : d = '\\' := by simpa using hlast
      simp [escaped, hd, escapable] at hesc
  | false =>
    refine ⟨pre ++ [c], by simp [hmask], fun hlast => ?_⟩
    have hc : c = '\\' := by simpa using hlast
    simpa [escaped, hc] using hesc

theorem compareChars_sound {s : Cursor} {c a : Char} {m n : CString} (hok : s.Ok mask)
    (hm : s.m = c :: m) (hn : s.n = a :: n) (hstar : c ≠ '*') :
    Sound cm mask s (compareChars cm s) := by
  obtain ⟨t, hitems, hdiff⟩ := itemsFrom_compare cm hstar (m := m)
  have hat : itemsAt mask s.m = .one t :: itemsAt mask
      (if escaped (c :: m) then m else c :: m).tail := by
    rw [itemsAt, hm, hitems]
    rfl
  simp only [compareChars, hm, hn, List.tail_cons, List.headD_cons, hdiff a]
  cases hsat : sat cm t a with
  | false =>
    refine goBack_sound hok fun hmatch => ?_
    rw [hat, hn, matches_one, hsat] at hmatch
    cases hmatch.1
  | true =>
    refine ⟨⟨?_, ?_, hok.star⟩, ?_⟩
    · have halign := hok.aligned
      rw [hat, hn] at halign
      exact halign.advance
    · exact (hm ▸ hok.placed).advance
    · rw [Cursor.reachable, hat, hn]
      exact reachable_advance hsat

theorem head_dropStars (m : CString) : (m.dropWhile (· = '*')).head? ≠ some '*' := by
  induction m with
  | nil => simp
  | cons c m ih =>
    by_cases hc : c = '*'
    · simpa [hc] using ih
    · simp [hc]

theorem eq_stars_append (m : CString) :
    ∃ k, m = List.replicate k '*' ++ m.dropWhile (· = '*') := by
  induction m with
  | nil => exact ⟨0, rfl⟩
  | cons c m ih =>
    by_cases hc : c = '*'
    · obtain ⟨k, hk⟩ := ih
      refine ⟨k + 1, ?_⟩
      rw [List.replicate_succ, List.cons_append]
      simp [hc, ← hk]
    · exact ⟨0, by simp [hc]⟩

theorem endsOpen_stars {pre : CString} {k : Nat} (hmask : mask = pre ++ List.replicate (k + 1) '*')
    (hpre : pre.getLast? ≠ some '\\') (hne : mask ≠ ['*']) : endsOpen mask = true := by
  have hrev : mask.reverse = '*' :: (List.replicate k '*' ++ pre.reverse) := by
    rw [hmask, List.replicate_succ']
    simp
  rw [endsOpen, hrev]
  cases k with
  | succ k => simp [List.replicate_succ]
  | zero =>
    cases hp : pre.reverse with
    | nil =>
      rw [List.reverse_eq_nil_iff] at hp
      simp [hp] at hmask
      exact absurd hmask hne
    | cons c r =>
      have hlast : pre.getLast? = some c := by
        rw [List.getLast?_eq_head?_reverse, hp]
        rfl
      have hc : c ≠ '\\' := by
        rintro rfl
        exact hpre hlast
      simp [hc]

theorem passStars_sound (cm : CaseMapping) {s : Cursor} (hok : s.Ok mask) (hne : mask ≠ ['*']) :
    (passStars s).Ok mask ∧ (passStars s).m.head? ≠ some '*' ∧
      (s.reachable cm mask ↔ (passStars s).reachable cm mask) := by
  rw [passStars]
  split
  · rename_i hstar
    obtain ⟨m, hm⟩ : ∃ m, s.m = '*' :: m := by
      cases hs : s.m with
      | nil => simp [hs] at hstar
      | cons c m =>
        rw [hs] at hstar
        exact ⟨m, by simpa using hstar⟩
    obtain ⟨pre, hmask, hpre⟩ := hok.placed
    obtain ⟨k, hk⟩ := eq_stars_append m
    have hdrop : s.m.dropWhile (· = '*') = m.dropWhile (· = '*') := by simp [hm]
    have hsplit : mask = pre ++ List.replicate (k + 1) '*' ++ m.dropWhile (· = '*') := by
      rw [hmask, hm, List.replicate_succ]
      nth_rewrite 1 [hk]
      simp
    have hplaced : Placed mask (m.dropWhile (· = '*')) := by
      refine ⟨pre ++ List.replicate (k + 1) '*', hsplit, fun hlast => ?_⟩
      rw [List.replicate_succ'] at hlast
      simp [← List.append_assoc] at hlast
    have hopen : m.dropWhile (· = '*') = [] → endsOpen mask = true := by
      intro hnil
      rw [hnil, List.append_nil] at hsplit
      refine endsOpen_stars hsplit (fun hlast => ?_) hne
      have hescapable := hpre hlast
      rw [hm] at hescapable
      simp [escapable] at hescapable
    rw [hdrop]
    refine ⟨⟨aligned_self, hplaced, ?_⟩, head_dropStars _, ?_⟩
    · intro p hp
      obtain rfl := Option.some.inj hp
      exact ⟨head_dropStars _, hplaced, hopen⟩
    · have hitems : itemsAt mask s.m = .many :: itemsAt mask m := by
        rw [itemsAt, hm, itemsFrom_star]
        rfl
      have halign := hok.aligned
      rw [hitems] at halign
      rw [Cursor.reachable, hitems, Cursor.reachable]
      have hhere : ∀ q : List (Item Tok), Reachable (sat cm) q s.n (some (q, s.n)) ↔
          Matches (sat cm) (.many :: q) s.n := fun q => reachable_saved
      rw [reachable_star halign, hhere]
      exact (hhere _).trans (matches_dropStars m _ _) |>.symm
  · rename_i hstar
    exact ⟨hok, hstar, Iff.rfl⟩

theorem Sound.of_reachable {s t : Cursor} {r : Bool ⊕ Cursor} (h : Sound cm mask t r)
    (hst : s.reachable cm mask ↔ t.reachable cm mask) : Sound cm mask s r := by
  cases r with
  | inl answer => exact h.trans hst.symm
  | inr s' => exact ⟨h.1, hst.trans h.2⟩

theorem Cursor.Ok.again {s : Cursor} {a : Char} {n ma na : CString} (hok : s.Ok mask)
    (hm : s.m = []) (hn : s.n = a :: n) (hopen : endsOpen mask = false)
    (hwild : s.wild = some (ma, na)) :
    (∃ c m, ma = c :: m ∧ c ≠ '*') ∧ ∃ b z, na.tail = b :: z := by
  have hempty : itemsAt mask s.m = [] := by simp [itemsAt, hm, itemsFrom, ending, hopen]
  obtain ⟨hnostar, -, hends⟩ := hok.star _ hwild
  have hma : ma ≠ [] := by
    intro hnil
    rw [hends hnil] at hopen
    cases hopen
  obtain ⟨c, m, rfl⟩ := List.exists_cons_of_ne_nil hma
  have hc : c ≠ '*' := by simpa using hnostar
  have hitems : itemsAt mask (c :: m) ≠ [] := by
    obtain ⟨u, hu, -⟩ := itemsFrom_compare .ascii hc (m := m)
    simp [itemsAt, hu]
  have halign := hok.aligned
  rw [hempty, hn, hwild] at halign
  exact ⟨⟨c, m, rfl, hc⟩, halign.tail_ne_nil hitems⟩

theorem iteration_sound (cm : CaseMapping) {s : Cursor} (hok : s.Ok mask) (hne : mask ≠ ['*']) :
    Sound cm mask s (iteration cm mask s) := by
  obtain ⟨hpass, hhead, hreach⟩ := passStars_sound cm hok hne
  refine Sound.of_reachable ?_ hreach
  rw [iteration]
  generalize passStars s = t at hpass hhead
  cases hm : t.m with
  | nil =>
    rw [if_pos rfl]
    have hitems : itemsAt mask t.m = ending mask := by
      rw [itemsAt, hm, itemsFrom]
      rfl
    cases hn : t.n with
    | nil =>
      have hhere : t.reachable cm mask := by
        rw [Cursor.reachable, hitems, hn]
        refine Or.inl ?_
        rw [ending]
        split
        · exact matches_star _
        · rfl
      simp [Sound, hhere]
    | cons a n =>
      rw [if_neg (List.cons_ne_nil a n)]
      cases hopen : endsOpen mask with
      | true =>
        have hhere : t.reachable cm mask := by
          rw [Cursor.reachable, hitems, ending, if_pos hopen]
          exact Or.inl (matches_star _)
        simp [Sound, hhere]
      | false =>
        have hempty : itemsAt mask t.m = [] := by simp [hitems, ending, hopen]
        have hfail : ¬ Matches (sat cm) (itemsAt mask t.m) t.n := by
          rw [hempty, hn]
          simp
        have hback := goBack_sound hpass hfail
        cases hwild : t.wild with
        | none =>
          rw [hwild] at hback
          exact hback
        | some p =>
          obtain ⟨ma, na⟩ := p
          rw [hwild] at hback
          obtain ⟨hok', hreach'⟩ := hback
          obtain ⟨⟨c, m, rfl, hc⟩, b, z, hna⟩ := hpass.again hm hn hopen hwild
          refine Sound.of_reachable ?_ hreach'
          exact compareChars_sound hok' rfl hna hc
  | cons c m =>
    rw [if_neg (List.cons_ne_nil c m)]
    have hc : c ≠ '*' := by
      rw [hm] at hhead
      simpa using hhead
    cases hn : t.n with
    | nil =>
      rw [if_pos rfl]
      obtain ⟨u, hu, -⟩ := itemsFrom_compare cm hc (m := m)
      have hat : itemsAt mask t.m = .one u :: itemsAt mask
          (if escaped (c :: m) then m else c :: m).tail := by
        rw [itemsAt, hm, hu]
        rfl
      have halign := hpass.aligned
      rw [hat, hn] at halign
      have hnot : ¬ t.reachable cm mask := by
        rw [Cursor.reachable, hat, hn]
        exact not_reachable_nil halign
      simp [Sound, hnot]
    | cons a n =>
      rw [if_neg (List.cons_ne_nil a n)]
      exact compareChars_sound hpass hm hn hc

theorem matchLoop_sound (hne : mask ≠ ['*']) (calls : Nat) {s : Cursor} (hok : s.Ok mask)
    {answer : Bool} (h : matchLoop cm mask calls s = some answer) :
    answer = true ↔ s.reachable cm mask := by
  induction calls generalizing s with
  | zero => cases h
  | succ calls ih =>
    have hsound := iteration_sound cm hok hne
    rw [matchLoop] at h
    cases hit : iteration cm mask s with
    | inl answer' =>
      rw [hit] at h hsound
      obtain rfl := Option.some.inj h
      exact hsound
    | inr s' =>
      rw [hit] at h hsound
      exact (ih hsound.1 h).trans hsound.2.symm

theorem start_ok (mask name : CString) : Cursor.Ok mask ⟨mask, name, none⟩ :=
  ⟨by simp [savedAt, Aligned], ⟨[], rfl, by simp⟩, by simp⟩

theorem matchWithin_iff {limit : Nat} {name : CString} {answer : Bool}
    (h : matchWithin cm limit mask name = some answer) :
    answer = true ↔ Matches (sat cm) (items mask) name := by
  rw [matchWithin] at h
  split at h
  · rename_i hstar
    obtain rfl := Option.some.inj h
    subst hstar
    exact iff_of_true rfl (matches_star name)
  · rename_i hne
    have hsound := matchLoop_sound hne _ (start_ok mask name) h
    have hitems : items mask = itemsAt mask mask := rfl
    rw [hitems]
    simpa [Cursor.reachable, savedAt, Reachable] using hsound

theorem matchAnswer_iff {name : CString} {answer : Bool}
    (h : matchAnswer cm mask name = some answer) :
    answer = true ↔ Matches (sat cm) (items mask) name :=
  matchWithin_iff h

theorem matches_of_matchMask {name : CString} (h : matchMask cm mask name = true) :
    Matches (sat cm) (items mask) name := by
  rw [matchMask] at h
  cases hans : matchAnswer cm mask name with
  | none =>
    rw [hans] at h
    cases h
  | some answer =>
    rw [hans] at h
    exact (matchAnswer_iff hans).mp h

end loop

/-! ### Items that take in others -/

section inclusion

theorem char_le_iff (a b : Char) : a ≤ b ↔ a.toNat ≤ b.toNat := Iff.rfl

theorem toNat_ofNat_add {c : Char} (h : c.toNat ≤ 94) :
    (Char.ofNat (c.toNat + 32)).toNat = c.toNat + 32 := by
  have hvalid : (c.toNat + 32).isValidChar := by
    left
    omega
  rw [Char.ofNat, dif_pos hvalid]
  rfl

theorem isAlpha_fold (c : Char) {hi : Char} (hle : hi.toNat ≤ 94) (hz : 'Z' ≤ hi) :
    isAlpha (if 'A' ≤ c ∧ c ≤ hi then Char.ofNat (c.toNat + 32) else c) = isAlpha c := by
  split
  · rename_i hc
    simp only [char_le_iff, Char.reduceToNat] at hc hz
    have hn : (Char.ofNat (c.toNat + 32)).toNat = c.toNat + 32 := toNat_ofNat_add (by omega)
    simp only [isAlpha, char_le_iff, hn, Char.reduceToNat, decide_eq_decide]
    omega
  · rfl

theorem isDigit_fold (c : Char) {hi : Char} (hle : hi.toNat ≤ 94) :
    isDigit (if 'A' ≤ c ∧ c ≤ hi then Char.ofNat (c.toNat + 32) else c) = isDigit c := by
  split
  · rename_i hc
    simp only [char_le_iff, Char.reduceToNat] at hc
    have hn : (Char.ofNat (c.toNat + 32)).toNat = c.toNat + 32 := toNat_ofNat_add (by omega)
    simp only [isDigit, char_le_iff, hn, Char.reduceToNat, decide_eq_decide]
    omega
  · rfl

theorem isAlpha_toLower (cm : CaseMapping) (c : Char) : isAlpha (toLower cm c) = isAlpha c := by
  cases cm with
  | rfc1459 => exact isAlpha_fold c (by decide) (by decide)
  | ascii => exact isAlpha_fold c (by decide) (by decide)

theorem isDigit_toLower (cm : CaseMapping) (c : Char) : isDigit (toLower cm c) = isDigit c := by
  cases cm with
  | rfc1459 => exact isDigit_fold c (by decide)
  | ascii => exact isDigit_fold c (by decide)

theorem takes_congr {cm : CaseMapping} {c d : Char} (h : toLower cm c = toLower cm d) (t : Tok) :
    t.takes c = t.takes d := by
  have halpha : isAlpha c = isAlpha d := by rw [← isAlpha_toLower cm, h, isAlpha_toLower]
  have hdigit : isDigit c = isDigit d := by rw [← isDigit_toLower cm, h, isDigit_toLower]
  cases t <;> simp [Tok.takes, isNon, halpha, hdigit]

def tokLe (cm : CaseMapping) : Tok → Tok → Bool
  | _, .any => true
  | .lit c, t => sat cm t c
  | .alpha, .alpha => true
  | .digit, .digit => true
  | .non, .non => true
  | _, _ => false

theorem sat_of_tokLe (cm : CaseMapping) (t t' : Tok) (a : Char) (h : tokLe cm t' t = true)
    (ha : sat cm t' a = true) : sat cm t a = true := by
  have hlit : ∀ c, t' = .lit c → sat cm t c = true → sat cm t a = true := by
    rintro c rfl hc
    have hca : toLower cm c = toLower cm a := by
      simp only [sat, Tok.text, Tok.takes, Bool.or_false] at ha
      exact of_decide_eq_true ha
    simpa [sat, ← takes_congr hca t, ← hca] using hc
  cases t' with
  | lit c =>
    refine hlit c rfl ?_
    cases t with
    | any => simp [sat, Tok.takes]
    | _ => exact h
  | _ =>
    cases t with
    | any => simp [sat, Tok.takes]
    | _ => first | exact ha | cases h

theorem matches_of_covers_items {cm : CaseMapping} {mask mask' name : CString}
    (h : covers (tokLe cm) (items mask) (items mask') = true)
    (hname : Matches (sat cm) (items mask') name) : Matches (sat cm) (items mask) name :=
  matches_of_covers (sat_of_tokLe cm) h hname

end inclusion
end ChatServices.Match
