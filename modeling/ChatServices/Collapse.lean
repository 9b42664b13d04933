import ChatServices.MatchLanguage
import Mathlib.Data.List.DropRight

/-! `collapse`: the rewriting of stars in a mask, the masks it may be used on, and what it does
to the language of the others. -/
namespace ChatServices.Match
open ChatServices.Text ChatServices.Lib.Glob

def starOrMark (c : Char) : Bool := c = '*' || c = '?'

def copiedDown : CString → CString
  | '*' :: m => m.dropWhile (· = '*')
  | '?' :: m => '?' :: ((m.takeWhile starOrMark).filter (· = '?') ++ m.dropWhile starOrMark)
  | m => m

def collapseLoop : Nat → CString → CString
  | _, [] => []
  | 0, c :: m => c :: m
  | n + 1, c :: m =>
    if c = '\\' then
      match m with
      | [] => [c]
      | d :: m => c :: d :: collapseLoop n m
    else if c = '*' then c :: collapseLoop n (copiedDown m)
    else c :: collapseLoop n m

def collapse (pattern : CString) : CString := collapseLoop pattern.length pattern

/-- What may follow a star: after one that a backslash stands before, which `match` takes for a
quoted one, no run that holds a star; after the others, no stars, marks and a star. -/
def starOk (slash : Bool) (m : CString) : Bool :=
  if slash then '*' ∉ m.takeWhile starOrMark
  else m.head? ≠ some '*' || '*' ∉ (m.dropWhile (· = '*')).takeWhile starOrMark

/-- The stars that `collapse` stops at. One flag says that the run after such a star goes on, the
other that the second backslash of a pair stands directly before. -/
def starsOk : Bool → Bool → CString → Bool
  | _, _, [] => true
  | inRun, slash, c :: m =>
    if inRun && starOrMark c then starsOk true false m
    else if c = '\\' then
      match m with
      | [] => true
      | d :: m => starsOk false (d = '\\') m
    else if c = '*' then starOk slash m && starsOk true false m
    else starsOk false false m

def collapsible (mask : CString) : Bool := starsOk false false mask

/-! ### The loop, step by step -/

section steps
variable {m : CString} {c d : Char} {n n' : Nat} {slash : Bool}

theorem copiedDown_length (m : CString) : (copiedDown m).length ≤ m.length := by
  unfold copiedDown
  split
  · rename_i m
    have h := (List.dropWhile_suffix (l := m) (· = '*')).length_le
    simp only [List.length_cons]
    omega
  · rename_i m
    have hsplit := congrArg List.length
      (List.takeWhile_append_dropWhile (p := starOrMark) (l := m))
    have hfilter := List.length_filter_le (· = '?') (m.takeWhile starOrMark)
    simp only [List.length_append, List.length_cons] at hsplit ⊢
    omega
  · exact le_refl _

theorem dropRun_length (m : CString) : (m.dropWhile starOrMark).length ≤ m.length :=
  (List.dropWhile_suffix _).length_le

theorem mask_cases {motive : CString → Prop} (nil : motive []) (lone : motive ['\\'])
    (pair : ∀ d m, motive m → motive ('\\' :: d :: m))
    (star : ∀ m, (∀ m', m'.length ≤ m.length → motive m') → motive ('*' :: m))
    (char : ∀ c m, c ≠ '\\' → c ≠ '*' → motive m → motive (c :: m)) (mask : CString) :
    motive mask := by
  induction hk : mask.length using Nat.strongRecOn generalizing mask with
  | ind k ih =>
    cases mask with
    | nil => exact nil
    | cons c m =>
      rw [List.length_cons] at hk
      by_cases hslash : c = '\\'
      · subst hslash
        cases m with
        | nil => exact lone
        | cons d m =>
          rw [List.length_cons] at hk
          exact pair d m (ih m.length (by omega) m rfl)
      · by_cases hstar : c = '*'
        · subst hstar
          exact star m fun m' hm' => ih m'.length (by omega) m' rfl
        · exact char c m hslash hstar (ih m.length (by omega) m rfl)

theorem collapseLoop_pair : collapseLoop (n + 1) ('\\' :: d :: m) = '\\' :: d :: collapseLoop n m :=
  rfl

theorem collapseLoop_star :
    collapseLoop (n + 1) ('*' :: m) = '*' :: collapseLoop n (copiedDown m) := by
  rw [collapseLoop.eq_def]
  rfl

theorem collapseLoop_char (hslash : c ≠ '\\') (hstar : c ≠ '*') :
    collapseLoop (n + 1) (c :: m) = c :: collapseLoop n m := by
  rw [collapseLoop.eq_def]
  simp only [if_neg hslash, if_neg hstar]

theorem collapseLoop_eq (h : m.length ≤ n) : collapseLoop n m = collapse m := by
  have hstable : ∀ n', m.length ≤ n' → collapseLoop n m = collapseLoop n' m := by
    induction m using mask_cases generalizing n with
    | nil =>
      intro n' hn'
      cases n <;> cases n' <;> rfl
    | lone =>
      intro n' hn'
      obtain ⟨n, rfl⟩ : ∃ l, n = l + 1 := ⟨n - 1, by simp at h; omega⟩
      obtain ⟨n', rfl⟩ : ∃ l, n' = l + 1 := ⟨n' - 1, by simp at hn'; omega⟩
      rfl
    | pair d m ih =>
      intro n' hn'
      simp only [List.length_cons] at h hn'
      obtain ⟨n, rfl⟩ : ∃ l, n = l + 1 := ⟨n - 1, by omega⟩
      obtain ⟨n', rfl⟩ : ∃ l, n' = l + 1 := ⟨n' - 1, by omega⟩
      rw [collapseLoop_pair, collapseLoop_pair, ih (by omega) n' (by omega)]
    | star m ih =>
      intro n' hn'
      simp only [List.length_cons] at h hn'
      have hcopied := copiedDown_length m
      obtain ⟨n, rfl⟩ : ∃ l, n = l + 1 := ⟨n - 1, by omega⟩
      obtain ⟨n', rfl⟩ : ∃ l, n' = l + 1 := ⟨n' - 1, by omega⟩
      rw [collapseLoop_star, collapseLoop_star, ih _ hcopied (by omega) n' (by omega)]
    | char c m hslash hstar ih =>
      intro n' hn'
      simp only [List.length_cons] at h hn'
      obtain ⟨n, rfl⟩ : ∃ l, n = l + 1 := ⟨n - 1, by omega⟩
      obtain ⟨n', rfl⟩ : ∃ l, n' = l + 1 := ⟨n' - 1, by omega⟩
      rw [collapseLoop_char hslash hstar, collapseLoop_char hslash hstar, ih (by omega) n' (by omega)]
  exact hstable _ (le_refl _)

theorem collapse_pair (d : Char) (m : CString) :
    collapse ('\\' :: d :: m) = '\\' :: d :: collapse m := by
  rw [collapse, List.length_cons, collapseLoop_pair, collapseLoop_eq (by simp)]

theorem collapse_star (m : CString) : collapse ('*' :: m) = '*' :: collapse (copiedDown m) := by
  rw [collapse, List.length_cons, collapseLoop_star, collapseLoop_eq (copiedDown_length m)]

theorem collapse_char (hslash : c ≠ '\\') (hstar : c ≠ '*') :
    collapse (c :: m) = c :: collapse m := by
  rw [collapse, List.length_cons, collapseLoop_char hslash hstar]
  rfl

theorem collapse_length (mask : CString) : (collapse mask).length ≤ mask.length := by
  induction mask using mask_cases with
  | nil => exact le_refl _
  | lone => exact le_refl _
  | pair d m ih =>
    rw [collapse_pair]
    simpa using ih
  | star m ih =>
    have hcopied := copiedDown_length m
    have hle := ih _ hcopied
    rw [collapse_star, List.length_cons, List.length_cons]
    omega
  | char c m hslash hstar ih =>
    rw [collapse_char hslash hstar]
    simpa using ih

theorem starsOk_char (hslash : c ≠ '\\') (hstar : c ≠ '*') :
    starsOk false slash (c :: m) = starsOk false false m := by
  rw [starsOk.eq_def]
  simp only [Bool.false_and, if_neg Bool.false_ne_true, if_neg hslash, if_neg hstar]

theorem starsOk_run (m : CString) :
    starsOk true false m = starsOk false false (m.dropWhile starOrMark) := by
  induction m with
  | nil => rfl
  | cons c m ih =>
    cases hc : starOrMark c with
    | true =>
      rw [List.dropWhile_cons_of_pos hc, ← ih, starsOk.eq_def]
      simp only [hc, Bool.and_self, if_true]
    | false =>
      rw [List.dropWhile_cons_of_neg (by simp [hc]), starsOk.eq_def,
        starsOk.eq_def false false (c :: m)]
      simp only [hc, Bool.and_false]

theorem starsOk_star : starsOk false slash ('*' :: m) =
    (starOk slash m && starsOk false false (m.dropWhile starOrMark)) := by
  rw [← starsOk_run, starsOk.eq_def]
  rfl

end steps

/-! ### The run after a star -/

section run
variable {m rest : CString} {slash : Bool}

def marks (m : CString) : Nat := (m.takeWhile starOrMark).count '?'

theorem eq_marks {run : CString} (hrun : ∀ c ∈ run, starOrMark c = true) (hstar : '*' ∉ run) :
    run = List.replicate (run.count '?') '?' := by
  have hmarks : ∀ c ∈ run, c = '?' := by
    intro c hc
    have h := hrun c hc
    simp only [starOrMark, Bool.or_eq_true, decide_eq_true_eq] at h
    obtain rfl | h := h
    · exact absurd hc hstar
    · exact h
  have hrep := List.eq_replicate_of_mem hmarks
  rw [hrep]
  simp

theorem mem_takeRun {c : Char} (h : c ∈ m.takeWhile starOrMark) : starOrMark c = true :=
  List.mem_takeWhile_imp h

theorem starOk_of_slash (h : starOk slash m = true) : starOk false m = true := by
  cases slash with
  | false => exact h
  | true =>
    simp only [starOk, if_true, decide_eq_true_eq] at h
    simp only [starOk, Bool.false_eq_true, if_false, Bool.or_eq_true, decide_eq_true_eq]
    left
    intro hhead
    cases m with
    | nil => cases hhead
    | cons c m =>
      obtain rfl : c = '*' := by simpa using hhead
      simp [starOrMark] at h

theorem dropRun_head (m : CString) : ∀ c ∈ (m.dropWhile starOrMark).head?, starOrMark c = false := by
  induction m with
  | nil => simp
  | cons c m ih =>
    cases hc : starOrMark c with
    | true => rwa [List.dropWhile_cons_of_pos hc]
    | false => simp [hc]

theorem takeRun_marks (k : Nat) (hrest : ∀ c ∈ rest.head?, starOrMark c = false) :
    (List.replicate k '?' ++ rest).takeWhile starOrMark = List.replicate k '?' ∧
      (List.replicate k '?' ++ rest).dropWhile starOrMark = rest := by
  induction k with
  | zero =>
    cases rest with
    | nil => simp
    | cons c rest =>
      have hc : starOrMark c = false := hrest c rfl
      simp [hc]
  | succ k ih =>
    have hmark : starOrMark '?' = true := rfl
    simp [List.replicate_succ, hmark, ih]

theorem copiedDown_eq (h : starOk false m = true) :
    copiedDown m = List.replicate (marks m) '?' ++ m.dropWhile starOrMark := by
  simp only [starOk, Bool.false_eq_true, if_false, Bool.or_eq_true, decide_eq_true_eq] at h
  unfold copiedDown
  split
  · rename_i m
    obtain h | h := h
    · exact absurd rfl h
    · obtain ⟨k, hk⟩ := eq_stars_append m
      have hdrop : ('*' :: m).dropWhile (· = '*') = m.dropWhile (· = '*') := by simp
      rw [hdrop] at h
      have hstars : ∀ l : CString, (List.replicate k '*' ++ l).takeWhile starOrMark =
            List.replicate k '*' ++ l.takeWhile starOrMark ∧
          (List.replicate k '*' ++ l).dropWhile starOrMark = l.dropWhile starOrMark := by
        intro l
        have hall : ∀ c ∈ List.replicate k '*', starOrMark c = true := by
          intro c hc
          rw [List.eq_of_mem_replicate hc]
          rfl
        exact ⟨List.takeWhile_append_of_pos hall, List.dropWhile_append_of_pos hall⟩
      generalize m.dropWhile (· = '*') = l at h hk
      subst hk
      have hstar : starOrMark '*' = true := rfl
      have hmarks : marks ('*' :: (List.replicate k '*' ++ l)) =
          (l.takeWhile starOrMark).count '?' := by
        rw [marks, List.takeWhile_cons_of_pos hstar, (hstars l).1]
        simp [List.count_replicate]
      rw [hmarks, List.dropWhile_cons_of_pos hstar, (hstars l).2,
        ← eq_marks (fun c => mem_takeRun) h, List.takeWhile_append_dropWhile]
  · rename_i m
    have hmark : starOrMark '?' = true := rfl
    have hmarks : marks ('?' :: m) = (m.takeWhile starOrMark).count '?' + 1 := by
      rw [marks, List.takeWhile_cons_of_pos hmark]
      simp
    rw [hmarks, List.dropWhile_cons_of_pos hmark, List.replicate_succ, List.cons_append,
      ← List.filter_beq]
    simp only [beq_eq_decide]
  · rename_i hstar hmark
    cases m with
    | nil => rfl
    | cons c m =>
      have hc : starOrMark c = false := by
        simp only [starOrMark, Bool.or_eq_false_iff, decide_eq_false_iff_not]
        exact ⟨fun hc => hstar m (hc ▸ rfl), fun hc => hmark m (hc ▸ rfl)⟩
      simp [marks, hc]

theorem collapse_marks (k : Nat) (m : CString) :
    collapse (List.replicate k '?' ++ m) = List.replicate k '?' ++ collapse m := by
  induction k with
  | zero => rfl
  | succ k ih =>
    rw [List.replicate_succ, List.cons_append, collapse_char (by decide) (by decide), ih,
      List.cons_append]

theorem collapse_head (m : CString) : (collapse m).head? = m.head? := by
  cases m using mask_cases with
  | nil => rfl
  | lone => rfl
  | pair d m _ => rw [collapse_pair]; rfl
  | star m _ => rw [collapse_star]; rfl
  | char c m hslash hstar _ => rw [collapse_char hslash hstar]; rfl

theorem collapse_star_ok (h : starOk slash m = true) :
    collapse ('*' :: m) = '*' :: (List.replicate (marks m) '?' ++ collapse (m.dropWhile starOrMark)) := by
  rw [collapse_star, copiedDown_eq (starOk_of_slash h), collapse_marks]

theorem collapse_star_twice (h : starOk slash m = true) :
    collapse (collapse ('*' :: m)) =
      '*' :: (List.replicate (marks m) '?' ++ collapse (collapse (m.dropWhile starOrMark))) := by
  have hhead : ∀ c ∈ (collapse (m.dropWhile starOrMark)).head?, starOrMark c = false := by
    rw [collapse_head]
    exact dropRun_head m
  have hrun := takeRun_marks (marks m) hhead
  have hok : starOk true (List.replicate (marks m) '?' ++ collapse (m.dropWhile starOrMark)) = true := by
    simp [starOk, hrun.1]
  have hmarks : marks (List.replicate (marks m) '?' ++ collapse (m.dropWhile starOrMark)) = marks m := by
    rw [marks, hrun.1]
    simp
  rw [collapse_star_ok h, collapse_star_ok hok, hrun.2, hmarks]

end run

/-! ### The items that are left after a backslash that `collapse` has passed over -/

section items
variable {cm : CaseMapping} {m rest : CString} {slash : Bool} {q : List (Item Tok)}

def itemsAfter (slash : Bool) (m : CString) : List (Item Tok) :=
  itemsFrom false (if slash then '\\' :: m else m)

theorem itemOf_ones {c : Char} (hstar : c ≠ '*') : ∃ t, itemOf c = .one t := by
  rw [itemOf, if_neg hstar]
  split_ifs
  all_goals exact ⟨_, rfl⟩

theorem itemsAfter_char (slash : Bool) {c : Char} (hslash : c ≠ '\\') (hstar : c ≠ '*') :
    ∃ ts : List Tok, ∀ m, itemsAfter slash (c :: m) = ts.map .one ++ itemsFrom false m := by
  obtain ⟨t, ht⟩ := itemOf_ones hstar
  have hplain : ∀ m, itemsFrom false (c :: m) = .one t :: itemsFrom false m := by
    intro m
    simp [itemsFrom, escaped, hslash, ht]
  cases slash with
  | false => exact ⟨[t], hplain⟩
  | true =>
    cases hesc : escapable c with
    | true => exact ⟨[.lit c], fun m => by simp [itemsAfter, itemsFrom, escaped, hesc]⟩
    | false =>
      refine ⟨[.lit '\\', t], fun m => ?_⟩
      have hnot : escaped ('\\' :: c :: m) = false := by simp [escaped, hesc]
      have hlit : itemOf '\\' = .one (.lit '\\') := rfl
      simp [itemsAfter, itemsFrom, hnot, hlit, ← hplain m]

theorem itemsAfter_pair (slash : Bool) (d : Char) :
    ∃ ts : List Tok, ∀ m, itemsAfter slash ('\\' :: d :: m) =
      ts.map .one ++ itemsAfter (d = '\\') m := by
  have hpair : ∃ ts : List Tok, ∀ m, itemsFrom false ('\\' :: d :: m) =
      ts.map .one ++ itemsAfter (d = '\\') m := by
    by_cases hd : d = '\\'
    · refine ⟨[.lit '\\'], fun m => ?_⟩
      subst hd
      rfl
    · by_cases hstar : d = '*'
      · refine ⟨[.lit '*'], fun m => ?_⟩
        subst hstar
        rfl
      · obtain ⟨ts, hts⟩ := itemsAfter_char true hd hstar
        exact ⟨ts, fun m => by simpa [itemsAfter, hd] using hts m⟩
  obtain ⟨ts, hts⟩ := hpair
  cases slash with
  | false => exact ⟨ts, hts⟩
  | true => exact ⟨.lit '\\' :: ts, fun m => congrArg (Item.one (Tok.lit '\\') :: ·) (hts m)⟩

theorem itemsAfter_star (m : CString) :
    itemsAfter false ('*' :: m) = .many :: itemsFrom false m ∧
      itemsAfter true ('*' :: m) = .one (.lit '*') :: itemsFrom false m :=
  ⟨itemsFrom_star m, rfl⟩

theorem itemsFrom_marks_append (k : Nat) (m : CString) :
    itemsFrom false (List.replicate k '?' ++ m) =
      (List.replicate k Tok.any).map .one ++ itemsFrom false m := by
  induction k with
  | zero => rfl
  | succ k ih =>
    have hmark : itemsFrom false ('?' :: (List.replicate k '?' ++ m)) =
        .one .any :: itemsFrom false (List.replicate k '?' ++ m) := by
      simp [itemsFrom, escaped, itemOf]
    rw [List.replicate_succ, List.cons_append, hmark, ih]
    rfl

theorem itemsFrom_run {run : CString} (hrun : ∀ c ∈ run, starOrMark c = true) (m : CString) :
    itemsFrom false (run ++ m) = run.map itemOf ++ itemsFrom false m := by
  induction run with
  | nil => rfl
  | cons c run ih =>
    have hc : c ≠ '\\' := by
      rintro rfl
      exact absurd (hrun _ List.mem_cons_self) (by decide)
    have hplain : itemsFrom false (c :: (run ++ m)) = itemOf c :: itemsFrom false (run ++ m) := by
      simp [itemsFrom, escaped, hc]
    rw [List.cons_append, hplain, ih fun d hd => hrun d (List.mem_cons_of_mem c hd)]
    rfl

theorem itemsFrom_split (m : CString) : itemsFrom false m =
    (m.takeWhile starOrMark).map itemOf ++ itemsFrom false (m.dropWhile starOrMark) := by
  rw [← itemsFrom_run fun c => mem_takeRun, List.takeWhile_append_dropWhile]

theorem matches_run {run : CString} (hrun : ∀ c ∈ run, starOrMark c = true) (x : CString) :
    Matches (means cm) (.many :: (run.map itemOf ++ q)) x ↔
      Matches (means cm) (.many :: ((List.replicate (run.count '?') Tok.any).map Item.one ++ q)) x := by
  induction run generalizing x with
  | nil => rfl
  | cons c run ih =>
    have ih := ih fun d hd => hrun d (List.mem_cons_of_mem c hd)
    have hc := hrun c List.mem_cons_self
    simp only [starOrMark, Bool.or_eq_true, decide_eq_true_eq] at hc
    obtain rfl | rfl := hc
    · have hcount : ('*' :: run).count '?' = run.count '?' := by simp
      rw [hcount, ← ih]
      exact matches_many_many
    · have hcount : ('?' :: run).count '?' = run.count '?' + 1 := by simp
      have hany : ∀ a, means cm .any a = true := fun a => rfl
      rw [hcount, List.replicate_succ]
      calc Matches (means cm) (.many :: .one .any :: (run.map itemOf ++ q)) x
          ↔ Matches (means cm) (.many :: .one .any :: .many :: (run.map itemOf ++ q)) x :=
            (matches_many_free_many hany).symm
        _ ↔ Matches (means cm) (.many :: .one .any :: .many ::
              ((List.replicate (run.count '?') Tok.any).map Item.one ++ q)) x :=
            matches_append_congr [.many, .one Tok.any] ih
        _ ↔ Matches (means cm) (.many :: .one .any ::
              ((List.replicate (run.count '?') Tok.any).map Item.one ++ q)) x :=
            matches_many_free_many hany

theorem itemsFrom_quoted (h : starOk true m = true) : itemsFrom false m =
    (List.replicate (marks m) Tok.any).map .one ++ itemsFrom false (m.dropWhile starOrMark) := by
  simp only [starOk, if_true, decide_eq_true_eq] at h
  rw [← itemsFrom_marks_append, marks, ← eq_marks (fun c => mem_takeRun) h,
    List.takeWhile_append_dropWhile]

theorem matches_collapse (hok : starsOk false slash m = true) (x : CString) :
    Matches (means cm) (itemsAfter slash (collapse m)) x ↔
      Matches (means cm) (itemsAfter slash m) x := by
  induction m using mask_cases generalizing slash x with
  | nil => rfl
  | lone => rfl
  | pair d m ih =>
    obtain ⟨ts, hts⟩ := itemsAfter_pair slash d
    rw [collapse_pair, hts, hts]
    exact matches_append_congr _ (ih hok)
  | char c m hslash hstar ih =>
    obtain ⟨ts, hts⟩ := itemsAfter_char slash hslash hstar
    rw [starsOk_char hslash hstar] at hok
    rw [collapse_char hslash hstar, hts, hts]
    exact matches_append_congr _ (ih hok)
  | star m ih =>
    rw [starsOk_star, Bool.and_eq_true] at hok
    have hrest := ih (m.dropWhile starOrMark) (dropRun_length m) hok.2
    rw [collapse_star_ok hok.1]
    cases slash with
    | false =>
      rw [(itemsAfter_star _).1, (itemsAfter_star _).1, itemsFrom_marks_append, itemsFrom_split m,
        matches_run fun c => mem_takeRun]
      exact matches_append_congr (.many :: (List.replicate (marks m) Tok.any).map .one) hrest
    | true =>
      rw [(itemsAfter_star _).2, (itemsAfter_star _).2, itemsFrom_marks_append,
        itemsFrom_quoted hok.1]
      exact matches_append_congr (.one (.lit '*') :: (List.replicate (marks m) Tok.any).map .one)
        hrest

theorem collapse_twice (hok : starsOk false slash m = true) :
    collapse (collapse m) = collapse m := by
  induction m using mask_cases generalizing slash with
  | nil => rfl
  | lone => rfl
  | pair d m ih => rw [collapse_pair, collapse_pair, ih hok]
  | char c m hslash hstar ih =>
    rw [starsOk_char hslash hstar] at hok
    rw [collapse_char hslash hstar, collapse_char hslash hstar, ih hok]
  | star m ih =>
    rw [starsOk_star, Bool.and_eq_true] at hok
    rw [collapse_star_twice hok.1, collapse_star_ok hok.1, ih _ (dropRun_length m) hok.2]

end items

/-! ### Words that tell a mask from what it collapses to -/

section words
variable {cm : CaseMapping} {m rest : CString} {slash : Bool} {q : List (Item Tok)}

def sampleOf : Tok → Char
  | .lit c => c
  | .any => 'a'
  | .alpha => 'a'
  | .digit => '0'
  | .non => '!'

theorem means_sampleOf (cm : CaseMapping) (t : Tok) : means cm t (sampleOf t) = true := by
  cases t with
  | lit c => simp [means, sampleOf]
  | _ => rfl

def sample : List (Item Tok) → CString
  | [] => []
  | .many :: q => sample q
  | .one t :: q => sampleOf t :: sample q

theorem matches_sample (cm : CaseMapping) (q : List (Item Tok)) :
    Matches (means cm) q (sample q) := by
  induction q with
  | nil => rfl
  | cons i q ih =>
    cases i with
    | many => exact ⟨sample q, List.suffix_refl _, ih⟩
    | one t => exact matches_one.mpr ⟨means_sampleOf cm t, ih⟩

def quotedStars (q : List (Item Tok)) : Nat := q.count (.one (.lit '*'))

theorem sample_stars (q : List (Item Tok)) : (sample q).count '*' = quotedStars q := by
  induction q with
  | nil => rfl
  | cons i q ih =>
    rw [quotedStars] at ih ⊢
    cases i with
    | many => simpa [sample] using ih
    | one t =>
      cases t with
      | lit c =>
        by_cases hc : c = '*'
        · simpa [sample, sampleOf, hc] using ih
        · simpa [sample, sampleOf, hc] using ih
      | _ => simpa [sample, sampleOf] using ih

theorem eq_star_of_means {a : Char} (h : means cm (.lit '*') a = true) : a = '*' := by
  have hstar : toLower cm '*' = '*' := by cases cm <;> rfl
  rw [means, decide_eq_true_eq, hstar] at h
  exact eq_of_toLower_eq (by decide) h.symm

theorem quotedStars_le {x : CString} (h : Matches (means cm) q x) : quotedStars q ≤ x.count '*' := by
  induction q generalizing x with
  | nil => simp [quotedStars]
  | cons i q ih =>
    cases i with
    | many =>
      obtain ⟨y, hyx, hy⟩ := h
      have hcount := hyx.sublist.count_le '*'
      have hle := ih hy
      simp only [quotedStars] at hle ⊢
      simp only [List.count_cons, beq_iff_eq, reduceCtorEq, if_false]
      omega
    | one t =>
      obtain ⟨a, y, rfl, ha, hy⟩ := h
      have hle := ih hy
      simp only [quotedStars] at hle ⊢
      by_cases ht : t = .lit '*'
      · subst ht
        rw [eq_star_of_means ha]
        simpa using hle
      · have hne : Item.one t ≠ .one (.lit '*') := fun h => ht (Item.one.inj h)
        have hmono : y.count '*' ≤ (a :: y).count '*' := List.count_le_count_cons
        rw [List.count_cons_of_ne hne]
        omega

theorem exists_filler {t : Tok} (ht : t ≠ .any) : ∃ f, f ≠ '*' ∧ means cm t f = false := by
  cases t with
  | any => exact absurd rfl ht
  | alpha => exact ⟨'0', by decide, rfl⟩
  | digit => exact ⟨'a', by decide, rfl⟩
  | non => exact ⟨'a', by decide, rfl⟩
  | lit c =>
    have ha : toLower cm 'a' = 'a' := by cases cm <;> rfl
    have hb : toLower cm 'b' = 'b' := by cases cm <;> rfl
    by_cases hc : toLower cm c = 'a'
    · exact ⟨'b', by decide, by simp [means, hc, hb]⟩
    · exact ⟨'a', by decide, by simp [means, hc, ha]⟩

theorem exists_blocked (cm : CaseMapping) (hrest : ∀ c ∈ rest.head?, starOrMark c = false) :
    ∃ f, f ≠ '*' ∧ ∀ z, ¬ Matches (means cm) (itemsFrom false rest) (f :: z) := by
  cases rest with
  | nil => exact ⟨'a', by decide, fun z h => nomatch h⟩
  | cons c r =>
    have hc : starOrMark c = false := hrest c rfl
    simp only [starOrMark, Bool.or_eq_false_iff, decide_eq_false_iff_not] at hc
    have hfirst : ∃ t q, t ≠ .any ∧ itemsFrom false (c :: r) = .one t :: q := by
      cases hesc : escaped (c :: r) with
      | true =>
        cases r with
        | nil => simp [escaped] at hesc
        | cons d r => exact ⟨.lit d, itemsFrom false r, by simp, by simp [itemsFrom, hesc]⟩
      | false =>
        have hitem : ∃ t, t ≠ .any ∧ itemOf c = .one t := by
          rw [itemOf, if_neg hc.1, if_neg hc.2]
          split_ifs
          all_goals exact ⟨_, by simp, rfl⟩
        obtain ⟨t, ht, hitem⟩ := hitem
        exact ⟨t, itemsFrom false r, ht, by simp [itemsFrom, hesc, hitem]⟩
    obtain ⟨t, q, ht, hq⟩ := hfirst
    obtain ⟨f, hf, hmeans⟩ := exists_filler ht
    refine ⟨f, hf, fun z h => ?_⟩
    rw [hq, matches_one, hmeans] at h
    cases h.1

theorem matches_run_exact {run u : CString} (hrun : ∀ c ∈ run, starOrMark c = true) (v : CString)
    (hv : v.length = run.count '?') (hu : Matches (means cm) q u) :
    Matches (means cm) (run.map itemOf ++ q) (v ++ u) := by
  induction run generalizing v with
  | nil =>
    rw [List.length_eq_zero_iff.mp hv]
    exact hu
  | cons c run ih =>
    have ih := ih fun d hd => hrun d (List.mem_cons_of_mem c hd)
    have hc := hrun c List.mem_cons_self
    simp only [starOrMark, Bool.or_eq_true, decide_eq_true_eq] at hc
    obtain rfl | rfl := hc
    · exact ⟨v ++ u, List.suffix_refl _, ih v (by simpa using hv)⟩
    · cases v with
      | nil => simp at hv
      | cons a v =>
        have hv' : v.length = run.count '?' := by simpa using hv
        exact ⟨a, v ++ u, rfl, rfl, ih v hv'⟩

theorem matches_run_filled {run u : CString} (hrun : ∀ c ∈ run, starOrMark c = true)
    (hstar : '*' ∈ run) (v : CString) (hv : run.count '?' ≤ v.length)
    (hu : Matches (means cm) q u) : Matches (means cm) (run.map itemOf ++ q) (v ++ u) := by
  induction run generalizing v with
  | nil => cases hstar
  | cons c run ih =>
    have hrun' : ∀ d ∈ run, starOrMark d = true := fun d hd => hrun d (List.mem_cons_of_mem c hd)
    have hc := hrun c List.mem_cons_self
    simp only [starOrMark, Bool.or_eq_true, decide_eq_true_eq] at hc
    obtain rfl | rfl := hc
    · have hcount : ('*' :: run).count '?' = run.count '?' := by simp
      rw [hcount] at hv
      obtain ⟨w, hw⟩ := List.drop_suffix (v.length - run.count '?') v
      refine ⟨v.drop (v.length - run.count '?') ++ u, ⟨w, by rw [← List.append_assoc, hw]⟩,
        matches_run_exact hrun' _ ?_ hu⟩
      simp only [List.length_drop]
      omega
    · have hcount : ('?' :: run).count '?' = run.count '?' + 1 := by simp
      rw [hcount] at hv
      cases v with
      | nil => simp at hv
      | cons a v =>
        have hv' : run.count '?' ≤ v.length := by simpa using hv
        exact ⟨a, v ++ u, rfl, rfl, ih hrun' (by simpa using hstar) v hv'⟩

theorem copiedDown_rest (m : CString) :
    (copiedDown m).dropWhile starOrMark = m.dropWhile starOrMark := by
  unfold copiedDown
  split
  · rename_i m
    obtain ⟨k, hk⟩ := eq_stars_append ('*' :: m)
    have hall : ∀ c ∈ List.replicate k '*', starOrMark c = true := by
      intro c hc
      rw [List.eq_of_mem_replicate hc]
      rfl
    have hdrop : ('*' :: m).dropWhile (· = '*') = m.dropWhile (· = '*') := by simp
    rw [hdrop] at hk
    rw [hk, List.dropWhile_append_of_pos hall]
  · rename_i m
    have hmark : starOrMark '?' = true := rfl
    have hall : ∀ c ∈ (m.takeWhile starOrMark).filter (· = '?'), starOrMark c = true := by
      intro c hc
      have h := (List.mem_filter.mp hc).2
      rw [decide_eq_true_eq] at h
      exact h ▸ hmark
    rw [List.dropWhile_cons_of_pos hmark, List.dropWhile_cons_of_pos hmark,
      List.dropWhile_append_of_pos hall, List.dropWhile_idempotent]
  · rfl

theorem quotedStars_run (m : CString) :
    quotedStars (itemsFrom false m) = quotedStars (itemsFrom false (m.dropWhile starOrMark)) := by
  have hrun : quotedStars ((m.takeWhile starOrMark).map itemOf) = 0 := by
    rw [quotedStars, List.count_eq_zero]
    intro hmem
    obtain ⟨c, hc, hitem⟩ := List.mem_map.mp hmem
    have hc := mem_takeRun hc
    simp only [starOrMark, Bool.or_eq_true, decide_eq_true_eq] at hc
    obtain rfl | rfl := hc
    · cases hitem
    · cases hitem
  rw [itemsFrom_split m]
  simp only [quotedStars, List.count_append] at hrun ⊢
  omega

theorem quotedStars_collapse (slash : Bool) (m : CString) :
    quotedStars (itemsAfter slash (collapse m)) = quotedStars (itemsAfter slash m) := by
  have happend : ∀ {q r : List (Item Tok)} (p : List (Item Tok)),
      quotedStars q = quotedStars r → quotedStars (p ++ q) = quotedStars (p ++ r) := by
    intro q r p h
    simp only [quotedStars, List.count_append] at h ⊢
    omega
  induction m using mask_cases generalizing slash with
  | nil => rfl
  | lone => rfl
  | pair d m ih =>
    obtain ⟨ts, hts⟩ := itemsAfter_pair slash d
    rw [collapse_pair, hts, hts]
    exact happend _ (ih _)
  | char c m hslash hstar ih =>
    obtain ⟨ts, hts⟩ := itemsAfter_char slash hslash hstar
    rw [collapse_char hslash hstar, hts, hts]
    exact happend _ (ih false)
  | star m ih =>
    have hcopied : quotedStars (itemsFrom false (collapse (copiedDown m))) =
        quotedStars (itemsFrom false m) := by
      calc quotedStars (itemsFrom false (collapse (copiedDown m)))
          = quotedStars (itemsFrom false (copiedDown m)) := ih _ (copiedDown_length m) false
        _ = quotedStars (itemsFrom false (m.dropWhile starOrMark)) := by
          rw [quotedStars_run, copiedDown_rest]
        _ = quotedStars (itemsFrom false m) := (quotedStars_run m).symm
    rw [collapse_star]
    cases slash with
    | false =>
      rw [(itemsAfter_star _).1, (itemsAfter_star _).1]
      exact happend [.many] hcopied
    | true =>
      rw [(itemsAfter_star _).2, (itemsAfter_star _).2]
      exact happend [.one (.lit '*')] hcopied

theorem matches_marks {k : Nat} {f : Char} {u : CString}
    (h : Matches (means cm) ((List.replicate k Tok.any).map .one ++ q) (List.replicate k f ++ u)) :
    Matches (means cm) q u := by
  induction k with
  | zero => exact h
  | succ k ih =>
    rw [List.replicate_succ, List.replicate_succ] at h
    exact ih (matches_one.mp h).2

/-- A star that `match` quotes and a star in the run after it: the run takes any word that is long
enough before `collapse` and none but its marks after. -/
theorem apart_quoted (cm : CaseMapping) (hbad : starOk true m = false)
    (hok : starOk false m = true) :
    Apart (means cm) (itemsAfter true ('*' :: m)) (itemsAfter true (collapse ('*' :: m))) := by
  have hmem : '*' ∈ m.takeWhile starOrMark := by simpa [starOk] using hbad
  have hhead : ∀ c ∈ (collapse (m.dropWhile starOrMark)).head?, starOrMark c = false := by
    rw [collapse_head]
    exact dropRun_head m
  obtain ⟨f, hf, hblocked⟩ := exists_blocked cm hhead
  have hrest : quotedStars (itemsFrom false (collapse (m.dropWhile starOrMark))) =
      quotedStars (itemsFrom false (m.dropWhile starOrMark)) :=
    quotedStars_collapse false (m.dropWhile starOrMark)
  rw [collapse_star_ok hok, (itemsAfter_star _).2, (itemsAfter_star _).2, itemsFrom_marks_append,
    itemsFrom_split m]
  have hword : Matches (means cm) _
      (List.replicate (marks m + 1) f ++ sample (itemsFrom false (m.dropWhile starOrMark))) :=
    matches_run_filled (fun c => mem_takeRun) hmem (List.replicate (marks m + 1) f)
      (by simp [marks]) (matches_sample cm _)
  refine ⟨_, matches_one.mpr ⟨means_sampleOf cm _, hword⟩, ?_⟩
  rintro y hyx ⟨a, z, rfl, ha, hz⟩
  obtain rfl := eq_star_of_means ha
  have hcount := quotedStars_le hz
  obtain heq | hsuf := List.suffix_cons_iff.mp hyx
  · -- the whole word: the item after the marks meets the filler
    obtain rfl := (List.cons.inj heq).2
    rw [List.replicate_succ', List.append_assoc] at hz
    exact hblocked _ (matches_marks hz)
  · -- a later star: there are not enough of them
    have hle := hsuf.sublist.count_le '*'
    have hfiller : (List.replicate (marks m + 1) f).count '*' = 0 := by
      rw [List.count_replicate]
      simp [hf]
    have hmarks : quotedStars ((List.replicate (marks m) Tok.any).map Item.one) = 0 := by
      simp [quotedStars, List.count_replicate]
    simp only [quotedStars, List.count_append, List.count_cons_self] at hcount hle hrest hmarks
    rw [hfiller, sample_stars, quotedStars] at hle
    omega

theorem star_mem_collapse {l : CString} (h : '*' ∈ l.takeWhile starOrMark) :
    '*' ∈ (collapse l).takeWhile starOrMark := by
  induction l with
  | nil => cases h
  | cons c l ih =>
    by_cases hc : starOrMark c = true
    · have hcases := hc
      simp only [starOrMark, Bool.or_eq_true, decide_eq_true_eq] at hcases
      obtain rfl | rfl := hcases
      · rw [collapse_star, List.takeWhile_cons_of_pos hc]
        exact List.mem_cons_self
      · rw [List.takeWhile_cons_of_pos hc, List.mem_cons] at h
        rw [collapse_char (by decide) (by decide), List.takeWhile_cons_of_pos hc]
        exact List.mem_cons_of_mem _ (ih (h.resolve_left (by decide)))
    · rw [List.takeWhile_cons_of_neg hc] at h
      cases h

theorem copiedDown_shorter {l : CString} (h : '*' ∈ l.takeWhile starOrMark) :
    (copiedDown ('?' :: l)).length < ('?' :: l).length := by
  have hsplit := congrArg List.length (List.takeWhile_append_dropWhile (p := starOrMark) (l := l))
  have hfilter : ((l.takeWhile starOrMark).filter (· = '?')).length <
      (l.takeWhile starOrMark).length := by
    rw [List.length_filter_lt_length_iff_exists]
    exact ⟨'*', h, by decide⟩
  simp only [copiedDown, List.length_append, List.length_cons] at hsplit ⊢
  omega

theorem collapse_again_ne (hbad : starOk false m = false) :
    collapse (collapse ('*' :: m)) ≠ collapse ('*' :: m) := by
  simp only [starOk, Bool.false_eq_true, if_false, Bool.or_eq_false_iff, decide_eq_false_iff_not,
    not_not] at hbad
  cases m with
  | nil => cases hbad.1
  | cons c m =>
    obtain rfl : c = '*' := by simpa using hbad.1
    have hdrop : ('*' :: m).dropWhile (· = '*') = m.dropWhile (· = '*') := by simp
    have hhead := head_dropStars m
    have hmem := hbad.2
    rw [hdrop] at hmem
    have hcollapse : collapse ('*' :: '*' :: m) = '*' :: collapse (m.dropWhile (· = '*')) :=
      collapse_star _
    rw [hcollapse]
    generalize m.dropWhile (· = '*') = l at hhead hmem
    -- what is left begins with a mark, and its run holds a star
    cases l with
    | nil => cases hmem
    | cons d l =>
      have hd : d = '?' := by
        have hrun : starOrMark d = true := by
          by_contra hrun
          rw [List.takeWhile_cons_of_neg hrun] at hmem
          cases hmem
        simp only [starOrMark, Bool.or_eq_true, decide_eq_true_eq] at hrun
        obtain rfl | hd := hrun
        · exact absurd rfl hhead
        · exact hd
      subst hd
      have hmark : starOrMark '?' = true := rfl
      rw [List.takeWhile_cons_of_pos hmark, List.mem_cons] at hmem
      have hstar : '*' ∈ l.takeWhile starOrMark := hmem.resolve_left (by decide)
      have hnext : collapse ('?' :: l) = '?' :: collapse l := collapse_char (by decide) (by decide)
      rw [hnext, collapse_star]
      intro heq
      have hlen := congrArg List.length heq
      have hshort := copiedDown_shorter (star_mem_collapse hstar)
      have hle := collapse_length (copiedDown ('?' :: collapse l))
      simp only [List.length_cons] at hlen hshort
      omega

theorem apart_collapse (cm : CaseMapping) (hbad : starsOk false slash m = false) :
    Apart (means cm) (itemsAfter slash m) (itemsAfter slash (collapse m)) ∨
      collapse (collapse m) ≠ collapse m := by
  have hsat : ∀ t : Tok, ∃ a, means cm t a = true := fun t => ⟨sampleOf t, means_sampleOf cm t⟩
  induction m using mask_cases generalizing slash with
  | nil => cases hbad
  | lone => cases hbad
  | pair d m ih =>
    obtain ⟨ts, hts⟩ := itemsAfter_pair slash d
    rw [collapse_pair, collapse_pair, hts, hts]
    refine (ih hbad).imp (Apart.ones hsat ts) fun hne heq => hne ?_
    exact (List.cons.inj (List.cons.inj heq).2).2
  | char c m hslash hstar ih =>
    obtain ⟨ts, hts⟩ := itemsAfter_char slash hslash hstar
    rw [starsOk_char hslash hstar] at hbad
    rw [collapse_char hslash hstar, collapse_char hslash hstar, hts, hts]
    refine (ih hbad).imp (Apart.ones hsat ts) fun hne heq => hne ?_
    exact (List.cons.inj heq).2
  | star m ih =>
    rw [starsOk_star] at hbad
    cases hok : starOk slash m with
    | false =>
      cases hplain : starOk false m with
      | false => exact Or.inr (collapse_again_ne hplain)
      | true =>
        cases slash with
        | false => exact absurd (hok.symm.trans hplain) (by decide)
        | true => exact Or.inl (apart_quoted cm hok hplain)
    | true =>
      rw [hok, Bool.true_and] at hbad
      rw [collapse_star_twice hok, collapse_star_ok hok]
      refine (ih _ (dropRun_length m) hbad).imp (fun hapart => ?_) fun hne heq => hne ?_
      · have hmarks := hapart.ones hsat (List.replicate (marks m) Tok.any)
        cases slash with
        | false =>
          rw [(itemsAfter_star _).1, (itemsAfter_star _).1, itemsFrom_marks_append,
            itemsFrom_split m]
          exact hmarks.many.congr_left (matches_run fun c => mem_takeRun)
        | true =>
          rw [(itemsAfter_star _).2, (itemsAfter_star _).2, itemsFrom_marks_append,
            itemsFrom_quoted hok]
          exact hmarks.one (means_sampleOf cm (.lit '*'))
      · exact List.append_cancel_left (List.cons.inj heq).2
end words

/-- `collapse` keeps the names of a mask and has nothing left to do on what it answers, exactly
where the stars of the mask are in order. -/
theorem collapse_exact (cm : CaseMapping) (mask : CString) :
    ((∀ name, Language cm (collapse mask) name ↔ Language cm mask name) ∧
      (collapse mask).length ≤ mask.length ∧ collapse (collapse mask) = collapse mask) ↔
    collapsible mask = true := by
  constructor
  · rintro ⟨hsame, -, htwice⟩
    by_contra hbad
    rw [Bool.not_eq_true] at hbad
    obtain hapart | hne := apart_collapse cm hbad
    · exact hapart.not_same hsame
    · exact hne htwice
  · intro hok
    exact ⟨matches_collapse hok, collapse_length mask, collapse_twice hok⟩

/-- A second pass changes the first mask; the second one has names that it loses. -/
theorem collapse_falls_short :
    collapse (collapse "**?*".toList) ≠ collapse "**?*".toList ∧
      Language .rfc1459 "\\\\**".toList "\\*x".toList ∧
      ¬ Language .rfc1459 (collapse "\\\\**".toList) "\\*x".toList := by
  refine ⟨by decide, ?_, ?_⟩
  · exact ⟨'\\', ['*', 'x'], rfl, rfl, '*', ['x'], rfl, rfl, [], List.nil_suffix, rfl⟩
  · rintro ⟨a, y, hy, -, b, z, hz, -, hnil⟩
    obtain rfl := (List.cons.inj hy).2
    obtain rfl := (List.cons.inj hz).2
    cases hnil

end ChatServices.Match
