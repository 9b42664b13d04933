import ChatServices.Lib.Halting
import ChatServices.Match

/-! The language of a mask as `match` documents it, and the masks, names and numbers of
iterations for which `match` decides it. -/
namespace ChatServices.Match
open ChatServices.Text ChatServices.Lib.Glob

def means (cm : CaseMapping) : Tok → Char → Bool
  | .lit c, a => toLower cm c = toLower cm a
  | .any, _ => true
  | .alpha, a => isAlpha a
  | .digit, a => isDigit a
  | .non, a => isNon a

def Language (cm : CaseMapping) (mask name : CString) : Prop :=
  Matches (means cm) (itemsFrom false mask) name

/-- The run of `?`, `&` and `#` that the scan back from the end of the mask passes over. -/
def openRun (mask : CString) : CString :=
  mask.reverse.takeWhile (fun c => c = '?' || c = '&' || c = '#')

/-- `&` and `#` are not compared with themselves, and the scan back passes over neither. -/
structure Settled (mask name : CString) : Prop where
  ending : endsOpen mask = true → ∀ c ∈ openRun mask, c = '?'
  alpha : .one .alpha ∈ itemsFrom false mask → '&' ∉ name
  digit : .one .digit ∈ itemsFrom false mask → '#' ∉ name

/-! ### The items of a mask -/

section items
variable {cm : CaseMapping} {mask name : CString}

theorem fold_eq_of_lt {c d hi : Char} (hhi : hi.toNat ≤ 94) (hd : d.toNat < 97)
    (h : (if 'A' ≤ c ∧ c ≤ hi then Char.ofNat (c.toNat + 32) else c) = d) : c = d := by
  split at h
  · rename_i hc
    simp only [char_le_iff, Char.reduceToNat] at hc
    have hn : (Char.ofNat (c.toNat + 32)).toNat = c.toNat + 32 := toNat_ofNat_add (by omega)
    rw [h] at hn
    omega
  · exact h

theorem eq_of_toLower_eq {c d : Char} (hd : d.toNat < 97) (h : toLower cm c = d) : c = d := by
  cases cm with
  | ascii => exact fold_eq_of_lt (by decide) hd h
  | rfc1459 => exact fold_eq_of_lt (by decide) hd h

theorem toLower_text {t : Tok} (ht : ∀ c, t ≠ .lit c) : toLower cm t.text = t.text := by
  cases t with
  | lit c => exact absurd rfl (ht c)
  | _ => cases cm <;> rfl

theorem text_lt {t : Tok} (ht : ∀ c, t ≠ .lit c) : t.text.toNat < 97 := by
  cases t with
  | lit c => exact absurd rfl (ht c)
  | _ => decide

theorem sat_eq_means {t : Tok} {a : Char} (halpha : t = .alpha → a ≠ '&')
    (hdigit : t = .digit → a ≠ '#') : sat cm t a = means cm t a := by
  by_cases hlit : ∃ c, t = .lit c
  · obtain ⟨c, rfl⟩ := hlit
    exact Bool.or_false _
  · have hlit : ∀ c, t ≠ .lit c := fun c hc => hlit ⟨c, hc⟩
    have hmeans : means cm t a = t.takes a := by
      cases t with
      | lit c => exact absurd rfl (hlit c)
      | _ => rfl
    by_cases heq : toLower cm t.text = toLower cm a
    · have ha : a = t.text := eq_of_toLower_eq (text_lt hlit) (heq ▸ toLower_text hlit)
      have htakes : t.takes a = true := by
        cases t with
        | lit c => exact absurd rfl (hlit c)
        | any => rfl
        | alpha => exact absurd ha (halpha rfl)
        | digit => exact absurd ha (hdigit rfl)
        | non => rw [ha]; rfl
      simp [sat, hmeans, htakes]
    · simp [sat, hmeans, heq]

theorem itemsFrom_append {pre : CString} (m : CString) {b : Bool} (hb : b = true → pre ≠ [])
    (hpre : pre.getLast? ≠ some '\\') :
    itemsFrom b (pre ++ m) = itemsFrom b pre ++ itemsFrom false m := by
  induction pre generalizing b with
  | nil =>
    cases b with
    | true => exact absurd rfl (hb rfl)
    | false => rfl
  | cons c pre ih =>
    have hlast : pre ≠ [] → pre.getLast? ≠ some '\\' := by
      intro hne
      rwa [List.getLast?_cons_of_ne_nil hne] at hpre
    have hrest : itemsFrom false (pre ++ m) = itemsFrom false pre ++ itemsFrom false m := by
      by_cases hne : pre = []
      · rw [hne]
        rfl
      · exact ih (fun h => nomatch h) (hlast hne)
    cases b with
    | true => simp [itemsFrom, hrest]
    | false =>
      cases pre with
      | nil =>
        have hc : c ≠ '\\' := by simpa using hpre
        simp [itemsFrom, escaped, hc]
      | cons d pre =>
        have hesc : escaped (c :: (d :: pre ++ m)) = escaped (c :: d :: pre) := rfl
        rw [List.cons_append, itemsFrom, itemsFrom, hesc]
        split
        · exact ih (fun _ => List.cons_ne_nil d pre) (hlast (List.cons_ne_nil d pre))
        · rw [hrest, List.cons_append]

theorem itemsFrom_marks (k : Nat) :
    itemsFrom false (List.replicate k '?') = (List.replicate k Tok.any).map .one := by
  induction k with
  | zero => rfl
  | succ k ih => simpa [List.replicate_succ, itemsFrom, escaped, itemOf] using ih

theorem endsOpen_split (h : endsOpen mask = true) :
    ∃ pre, pre.getLast? ≠ some '\\' ∧ mask = pre ++ '*' :: (openRun mask).reverse := by
  have hsplit : mask.reverse = openRun mask ++
      mask.reverse.dropWhile (fun c => c = '?' || c = '&' || c = '#') :=
    List.takeWhile_append_dropWhile.symm
  rw [endsOpen] at h
  split at h
  · rename_i c r hrun
    rw [hrun] at hsplit
    refine ⟨r.reverse ++ [c], ?_, ?_⟩
    · simpa using h
    · simpa using congrArg List.reverse hsplit
  · cases h

theorem matches_ending (h : endsOpen mask = true → ∀ c ∈ openRun mask, c = '?') :
    Matches (means cm) (items mask) name ↔ Language cm mask name := by
  rw [items, ending]
  split
  · rename_i hopen
    obtain ⟨pre, hpre, hmask⟩ := endsOpen_split hopen
    have hrun : (openRun mask).reverse = List.replicate (openRun mask).length '?' := by
      rw [List.eq_replicate_iff]
      exact ⟨List.length_reverse, by simpa using h hopen⟩
    have hitems : itemsFrom false mask = itemsFrom false pre ++ .many ::
        (List.replicate (openRun mask).length Tok.any).map .one := by
      have hfalse : false = true → pre ≠ [] := by
        intro h
        cases h
      calc itemsFrom false mask
          = itemsFrom false (pre ++ '*' :: (openRun mask).reverse) := congrArg _ hmask
        _ = itemsFrom false pre ++ itemsFrom false ('*' :: (openRun mask).reverse) :=
            itemsFrom_append _ hfalse hpre
        _ = _ := by rw [itemsFrom_star, hrun, itemsFrom_marks]
    have hfree : ∀ y, Matches (means cm) (.many ::
          ((List.replicate (openRun mask).length Tok.any).map .one ++ [.many])) y ↔
        Matches (means cm) (.many ::
          ((List.replicate (openRun mask).length Tok.any).map .one ++ [])) y := fun y =>
      matches_many_frees_many _ fun t ht a => by rw [List.eq_of_mem_replicate ht]; rfl
    rw [Language, hitems]
    simpa using matches_append_congr (itemsFrom false pre) hfree
  · rw [List.append_nil]
    rfl

theorem matches_sat_iff (h : Settled mask name) :
    Matches (sat cm) (items mask) name ↔ Language cm mask name := by
  rw [← matches_ending h.ending]
  refine matches_congr fun t ht a ha => ?_
  have hmem : .one t ∈ itemsFrom false mask := by
    simp only [items, ending, List.mem_append] at ht
    split at ht
    · simpa using ht
    · simpa using ht
  exact sat_eq_means (fun htok haeq => h.alpha (htok ▸ hmem) (haeq ▸ ha))
    (fun htok haeq => h.digit (htok ▸ hmem) (haeq ▸ ha))

end items

/-! ### The number of iterations -/

section iterations
variable {cm : CaseMapping} {mask name : CString}

theorem matchLoop_eq (cm : CaseMapping) (mask : CString) (limit : Nat) (s : Cursor) :
    matchLoop cm mask limit s = Lib.Halting.run (iteration cm mask) limit s := by
  induction limit generalizing s with
  | zero => rfl
  | succ limit ih =>
    rw [matchLoop, Lib.Halting.run]
    cases iteration cm mask s with
    | inl answer => rfl
    | inr s' => exact ih s'

def leftBehind (name : CString) : Option (CString × CString) → Nat
  | none => name.length
  | some p => p.2.length

def size (mask name : CString) (s : Cursor) : Nat :=
  (mask.length + 1) * leftBehind name s.wild + s.m.length

structure Bounded (mask name : CString) (s : Cursor) : Prop where
  ok : s.Ok mask
  within : s.n.length ≤ leftBehind name s.wild

theorem Placed.length_le {m : CString} (h : Placed mask m) : m.length ≤ mask.length := by
  obtain ⟨pre, hmask, -⟩ := h
  rw [hmask, List.length_append]
  omega

theorem passStars_size {s : Cursor} (h : Bounded mask name s) :
    (passStars s).n.length ≤ leftBehind name (passStars s).wild ∧
      size mask name (passStars s) ≤ size mask name s := by
  rw [passStars]
  split
  · have hdrop : (s.m.dropWhile (· = '*')).length ≤ s.m.length :=
      (List.dropWhile_suffix _).length_le
    have hmul := Nat.mul_le_mul_left (mask.length + 1) h.within
    refine ⟨le_refl _, ?_⟩
    change (mask.length + 1) * s.n.length + (s.m.dropWhile (· = '*')).length ≤
      (mask.length + 1) * leftBehind name s.wild + s.m.length
    omega
  · exact ⟨h.within, le_refl _⟩

theorem retry_ok {s : Cursor} {ma na : CString} (hok : s.Ok mask) (hwild : s.wild = some (ma, na)) :
    Cursor.Ok mask ⟨ma, na.tail, some (ma, na.tail)⟩ := by
  have hstar := hok.star _ hwild
  refine ⟨aligned_self, hstar.2.1, fun p hp => ?_⟩
  obtain rfl := Option.some.inj hp
  exact hstar

theorem goBack_size {s s' : Cursor} (h : Bounded mask name s) (hn : s.n ≠ [])
    (hback : goBack s.wild = .inr s') :
    s'.n.length ≤ leftBehind name s'.wild ∧ size mask name s' < size mask name s := by
  cases hwild : s.wild with
  | none =>
    rw [hwild] at hback
    cases hback
  | some p =>
    obtain ⟨ma, na⟩ := p
    rw [hwild] at hback
    obtain rfl := Sum.inr.inj hback
    have hma : ma.length ≤ mask.length := (h.ok.star _ hwild).2.1.length_le
    have hwithin : s.n.length ≤ na.length := by simpa [hwild, leftBehind] using h.within
    have hpos := List.length_pos_of_ne_nil hn
    obtain ⟨k, hk⟩ : ∃ k, na.length = k + 1 := ⟨na.length - 1, by omega⟩
    refine ⟨le_refl _, ?_⟩
    simp only [size, hwild, leftBehind, List.length_tail, hk, Nat.add_sub_cancel, Nat.mul_succ]
    omega

theorem compareChars_size {s s' : Cursor} (h : Bounded mask name s) (hm : s.m ≠ [])
    (hn : s.n ≠ []) (hnext : compareChars cm s = .inr s') :
    s'.n.length ≤ leftBehind name s'.wild ∧ size mask name s' < size mask name s := by
  have hmpos := List.length_pos_of_ne_nil hm
  rw [compareChars] at hnext
  by_cases hdiffers : charDiffers cm (escaped s.m)
      ((if escaped s.m = true then s.m.tail else s.m).headD nul) (s.n.headD nul) = true
  · rw [if_pos hdiffers] at hnext
    exact goBack_size h hn hnext
  · rw [if_neg hdiffers] at hnext
    obtain rfl := Sum.inr.inj hnext
    have htail : (if escaped s.m = true then s.m.tail else s.m).length ≤ s.m.length := by
      split
      · simp
      · exact le_refl _
    have hwithin := h.within
    simp only [size, List.length_tail]
    omega

theorem iteration_size {s s' : Cursor} (hne : mask ≠ ['*']) (h : Bounded mask name s)
    (hnext : iteration cm mask s = .inr s') :
    Bounded mask name s' ∧ size mask name s' < size mask name s := by
  have hok' : s'.Ok mask := by
    have hsound := iteration_sound cm h.ok hne
    rw [hnext] at hsound
    exact hsound.1
  suffices hsize : s'.n.length ≤ leftBehind name s'.wild ∧ size mask name s' < size mask name s from
    ⟨⟨hok', hsize.1⟩, hsize.2⟩
  have hpass := passStars_size h
  have hbounded : Bounded mask name (passStars s) := ⟨(passStars_sound cm h.ok hne).1, hpass.1⟩
  rw [iteration] at hnext
  generalize passStars s = t at hnext hpass hbounded
  by_cases hm : t.m = []
  · rw [if_pos hm] at hnext
    by_cases hn : t.n = []
    · rw [if_pos hn] at hnext
      cases hnext
    · rw [if_neg hn] at hnext
      obtain ⟨a, n, ha⟩ := List.exists_cons_of_ne_nil hn
      cases hopen : endsOpen mask with
      | true =>
        rw [hopen, if_pos rfl] at hnext
        cases hnext
      | false =>
        rw [hopen, if_neg Bool.false_ne_true] at hnext
        cases hwild : t.wild with
        | none =>
          rw [hwild] at hnext
          cases hnext
        | some p =>
          obtain ⟨ma, na⟩ := p
          rw [hwild] at hnext
          have hback : goBack t.wild = .inr ⟨ma, na.tail, some (ma, na.tail)⟩ := by
            rw [hwild]
            rfl
          have hretry := goBack_size hbounded hn hback
          have hok := retry_ok hbounded.ok hwild
          obtain ⟨⟨c, m, rfl, -⟩, b, z, hna⟩ := hbounded.ok.again hm ha hopen hwild
          have hcompare := compareChars_size ⟨hok, hretry.1⟩ (List.cons_ne_nil c m)
            (by simp [hna]) hnext
          exact ⟨hcompare.1, by omega⟩
  · rw [if_neg hm] at hnext
    by_cases hn : t.n = []
    · rw [if_pos hn] at hnext
      cases hnext
    · rw [if_neg hn] at hnext
      have hcompare := compareChars_size hbounded hm hn hnext
      exact ⟨hcompare.1, by omega⟩

theorem exists_iterations (cm : CaseMapping) (mask name : CString) :
    ∃ n answer, n ≤ (mask.length + 1) * (name.length + 1) ∧
      ∀ limit answer', matchWithin cm limit mask name = some answer' ↔
        n ≤ limit ∧ answer = answer' := by
  by_cases hstar : mask = ['*']
  · refine ⟨0, true, Nat.zero_le _, fun limit answer' => ?_⟩
    simp [matchWithin, hstar]
  · have hstart : Bounded mask name ⟨mask, name, none⟩ := ⟨start_ok mask name, le_refl _⟩
    obtain ⟨n, answer, hn, htakes⟩ := Lib.Halting.exists_takes (size mask name)
      (fun s s' => iteration_size hstar) hstart
    have hsize : size mask name ⟨mask, name, none⟩ + 1 = (mask.length + 1) * (name.length + 1) := by
      simp only [size, leftBehind, Nat.mul_succ]
      omega
    refine ⟨n, answer, hsize ▸ hn, fun limit answer' => ?_⟩
    rw [matchWithin, if_neg hstar, matchLoop_eq]
    exact htakes.run_eq_some_iff

end iterations

/-- `match` decides the language with a limit that is at least the iterations its search needs,
and finds no match under a lower one. -/
theorem match_language (cm : CaseMapping) {mask name : CString} (h : Settled mask name) :
    ∃ n, n ≤ (mask.length + 1) * (name.length + 1) ∧
      (∀ limit answer, matchWithin cm limit mask name = some answer ↔
        n ≤ limit ∧ (answer = true ↔ Language cm mask name)) ∧
      (matchMask cm mask name = true ↔ Language cm mask name ∧ n ≤ MAX_ITERATIONS + 1) := by
  obtain ⟨n, answer, hn, hruns⟩ := exists_iterations cm mask name
  have hanswer : answer = true ↔ Language cm mask name :=
    (matchWithin_iff ((hruns n answer).mpr ⟨le_refl n, rfl⟩)).trans (matches_sat_iff h)
  have hsame : ∀ answer' : Bool, answer = answer' ↔ (answer' = true ↔ Language cm mask name) := by
    intro answer'
    rw [← hanswer, Bool.eq_iff_iff]
    exact ⟨Iff.symm, Iff.symm⟩
  have hmatch : matchMask cm mask name = true ↔
      matchWithin cm (MAX_ITERATIONS + 1) mask name = some true := by
    rw [matchMask, show matchAnswer cm mask name =
      matchWithin cm (MAX_ITERATIONS + 1) mask name from rfl]
    cases matchWithin cm (MAX_ITERATIONS + 1) mask name with
    | none => simp
    | some answer' => simp
  refine ⟨n, hn, fun limit answer' => (hruns limit answer').trans (and_congr_right' (hsame answer')),
    ?_⟩
  rw [hmatch, hruns, hsame true]
  simp [and_comm]

/-- Two stars around a letter, a class at the end and a quoted star. -/
theorem match_language_stars : ∃ n, n ≤ 12 * 11 ∧
    (∀ limit answer, matchWithin .rfc1459 limit "*a*\\**!#%".toList "xAb*aa!7-".toList = some answer ↔
      n ≤ limit ∧ (answer = true ↔ Language .rfc1459 "*a*\\**!#%".toList "xAb*aa!7-".toList)) ∧
    (matchMask .rfc1459 "*a*\\**!#%".toList "xAb*aa!7-".toList = true ↔
      Language .rfc1459 "*a*\\**!#%".toList "xAb*aa!7-".toList ∧ n ≤ MAX_ITERATIONS + 1) := by
  have hsettled : Settled "*a*\\**!#%".toList "xAb*aa!7-".toList :=
    ⟨by decide, by decide, by decide⟩
  obtain ⟨n, hn, hrest⟩ := match_language .rfc1459 hsettled
  exact ⟨n, hn.trans (by decide), hrest⟩

/-- A name of the mask that the limit keeps from matching. -/
theorem match_gives_up :
    Language .rfc1459 "*a".toList (List.replicate 600 'b' ++ ['a']) ∧
      matchMask .rfc1459 "*a".toList (List.replicate 600 'b' ++ ['a']) = false := by
  refine ⟨⟨['a'], List.suffix_append _ _, 'a', [], rfl, by decide, rfl⟩, ?_⟩
  decide +kernel
end ChatServices.Match
