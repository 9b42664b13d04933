import ChatServices.GroupServ.GroupTemplates
import ChatServices.Storage.FlagText

/-! The two parsers of group flag strings: `gs_flags_parser` goes letter by letter, the masks of
`gflags_make_bitmasks` come from a search of the rest of the string. -/
namespace ChatServices.GroupServ
open ChatServices.Lib ChatServices.Lib.Mask ChatServices.Text
open ChatServices.Storage (oneToOne_of_twoPow)

def lastUse (letter : Char) : Bool → CString → Option (Bool × CString)
  | _, [] => none
  | del, x :: s =>
    match lastUse letter (if x = '+' then false else if x = '-' then true else del) s with
    | some use => some use
    | none => if x = letter then some (del, s) else none

/-- The letters before a letter in `ga_flags`. -/
def lettersBefore (letter : Char) : List Char := (gaTable.map Prod.fst).takeWhile (· ≠ letter)

/-- The search finds another letter than this one, which `rest` follows, or finds `F`, which the
masks cannot hold. -/
def overlooked (letter : Char) (rest : CString) : Bool :=
  letter = 'F' || (lettersBefore letter).any (· ∈ rest)

def OverlookedHeld (s : CString) (flags : Flags) : Prop :=
  ∀ e ∈ gaTable, ∀ use ∈ lastUse e.1 false s, overlooked e.1 use.2 = true →
    (test flags e.2 = true ↔ use.1 = false)

instance (s : CString) (flags : Flags) : Decidable (OverlookedHeld s flags) :=
  inferInstanceAs (Decidable (∀ e ∈ gaTable, ∀ use ∈ lastUse e.1 false s, _ → (_ ↔ _)))

/-! ### One letter -/

section letter
variable {e e' : Char × Flags} {i : Nat} {s : CString} {del : Bool} {c : Change}

theorem lastUse_none_iff {letter : Char} : lastUse letter del s = none ↔ letter ∉ s := by
  induction s generalizing del with
  | nil => simp [lastUse]
  | cons x s ih =>
    rw [lastUse]
    cases huse : lastUse letter (if x = '+' then false else if x = '-' then true else del) s with
    | some use =>
      have hmem : letter ∈ s := by
        by_contra hnot
        rw [ih.mpr hnot] at huse
        cases huse
      simp [hmem]
    | none =>
      have hnot := ih.mp huse
      by_cases hx : x = letter
      · simp [hx]
      · simp [hx, hnot, Ne.symm hx]

theorem lastUse_suffix {letter : Char} {use : Bool × CString} (h : lastUse letter del s = some use) :
    use.2 <:+ s := by
  induction s generalizing del with
  | nil => cases h
  | cons x s ih =>
    rw [lastUse] at h
    split at h
    · rename_i use' huse
      obtain rfl := Option.some.inj h
      exact (ih huse).trans (List.suffix_cons x s)
    · split at h
      · obtain rfl := Option.some.inj h
        exact List.suffix_cons x s
      · cases h

theorem gaTable_signs (he : e ∈ gaTable) : e.1 ≠ '+' ∧ e.1 ≠ '-' ∧ e.1 ≠ '*' := by
  revert e
  decide

theorem gaTable_letter_inj (he : e ∈ gaTable) (he' : e' ∈ gaTable) (h : e.1 = e'.1) : e = e' := by
  have hall : ∀ e ∈ gaTable, ∀ e' ∈ gaTable, e.1 = e'.1 → e = e' := by decide
  exact hall e he e' he' h

theorem gaTable_apart (he : e ∈ gaTable) (he' : e' ∈ gaTable) (hi : Has e.2 i) (hi' : Has e'.2 i) :
    e = e' := by
  have hall : ∀ e ∈ gaTable, ∀ e' ∈ gaTable, e ≠ e' → e.2 &&& e'.2 = 0#32 := by decide
  by_contra hne
  exact (eq_zero_iff _).mp (hall e he e' he' hne) i ((has_and _ _ _).mpr ⟨hi, hi'⟩)

theorem gaTable_ne_zero (he : e ∈ gaTable) : e.2 ≠ 0#32 := by
  revert e
  decide

theorem gaTable_masked (he : e ∈ gaTable) (hi : Has e.2 i) : Has gaAllAll i ↔ e.1 ≠ 'F' := by
  have hall : ∀ e ∈ gaTable, if e.1 = 'F' then e.2 &&& gaAllAll = 0#32 else Sub e.2 gaAllAll := by
    decide
  have h := hall e he
  split at h
  · rename_i hF
    have hnot : ¬ Has gaAllAll i := fun hall =>
      (eq_zero_iff _).mp h i ((has_and _ _ _).mpr ⟨hi, hall⟩)
    simp [hF, hnot]
  · rename_i hF
    simp [hF, h.has hi]

/-! ### The parser -/

theorem has_parserStep (he : e ∈ gaTable) (hi : Has e.2 i) (dir : Bool) (flags : Flags) {x : Char}
    (hx : x ≠ '*') : Has (parserStep true (dir, flags) x).2 i ↔
      if x = e.1 then dir = false else Has flags i := by
  have hsigns := gaTable_signs he
  rw [parserStep]
  by_cases hplus : x = '+'
  · subst hplus
    simp [hsigns.1.symm]
  · by_cases hminus : x = '-'
    · subst hminus
      simp [hsigns.2.1.symm]
    · rw [if_neg hplus, if_neg hminus, if_neg hx]
      cases hletter : gaLetter x with
      | none =>
        have hne : x ≠ e.1 := by
          rintro rfl
          simp only [gaLetter, Option.map_eq_none_iff, List.find?_eq_none, decide_eq_true_eq] at hletter
          exact hletter e he rfl
        simp [hne]
      | some flag =>
        have hentry : ∃ e' ∈ gaTable, e'.1 = x ∧ e'.2 = flag := by
          simp only [gaLetter, Option.map_eq_some_iff] at hletter
          obtain ⟨e', hfind, hflag⟩ := hletter
          exact ⟨e', List.mem_of_find?_eq_some hfind, by simpa using List.find?_some hfind, hflag⟩
        obtain ⟨e', he', rfl, rfl⟩ := hentry
        have hlt := hi.lt
        by_cases heq : e'.1 = e.1
        · obtain rfl := gaTable_letter_inj he' he heq
          cases dir <;> simp [hi]
        · have hnot : ¬ Has e'.2 i := fun hi' => heq (congrArg Prod.fst (gaTable_apart he' he hi' hi))
          cases dir <;> simp [heq, hnot, hlt]

theorem parserStep_dir (dir : Bool) (flags : Flags) (x : Char) : (parserStep true (dir, flags) x).1 =
    if x = '+' then false else if x = '-' then true else dir := by
  rw [parserStep]
  by_cases hplus : x = '+'
  · simp [hplus]
  · by_cases hminus : x = '-'
    · simp [hminus]
    · by_cases hstar : x = '*'
      · simp [hstar]
      · rw [if_neg hplus, if_neg hminus, if_neg hstar, if_neg hplus, if_neg hminus]
        cases gaLetter x <;> rfl

theorem has_parsed (he : e ∈ gaTable) (hi : Has e.2 i) (hs : '*' ∉ s) (dir : Bool) (flags : Flags) :
    Has (s.foldl (parserStep true) (dir, flags)).2 i ↔
      match lastUse e.1 dir s with
      | some use => use.1 = false
      | none => Has flags i := by
  induction s generalizing dir flags with
  | nil => rfl
  | cons x s ih =>
    simp only [List.mem_cons, not_or] at hs
    have hstep := has_parserStep he hi dir flags (Ne.symm hs.1)
    have hdir := parserStep_dir dir flags x
    rw [List.foldl_cons, lastUse, ← hdir]
    generalize parserStep true (dir, flags) x = st at hstep
    rw [ih hs.2]
    cases lastUse e.1 st.1 s with
    | some use => rfl
    | none =>
      dsimp only
      rw [hstep]
      by_cases hx : x = e.1
      · simp [hx]
      · simp [hx]

/-! ### The search -/

theorem find_before {rows : List (Char × Flags)} {name : CString}
    (h : rows.find? (fun e => e.1 ∈ name) = some e') :
    ∀ letter ∈ (rows.map Prod.fst).takeWhile (· ≠ e'.1), letter ∉ name := by
  induction rows with
  | nil => cases h
  | cons r rows ih =>
    by_cases hr : r.1 ∈ name
    · rw [List.find?_cons_of_pos (by simpa using hr)] at h
      obtain rfl := Option.some.inj h
      simp
    · rw [List.find?_cons_of_neg (by simpa using hr)] at h
      intro letter hletter
      rw [List.map_cons] at hletter
      by_cases hne : r.1 = e'.1
      · simp [hne] at hletter
      · rw [List.takeWhile_cons_of_pos (by simpa using hne)] at hletter
        obtain rfl | hletter := List.mem_cons.mp hletter
        · exact hr
        · exact ih h letter hletter

theorem find_first {rows : List (Char × Flags)} {name : CString}
    (h : rows.find? (fun e => e.1 ∈ name) = some e') (he : e ∈ rows) (hname : e.1 ∈ name)
    (hne : e.1 ≠ e'.1) : e'.1 ∈ (rows.map Prod.fst).takeWhile (· ≠ e.1) := by
  induction rows with
  | nil => cases h
  | cons r rows ih =>
    by_cases hr : r.1 ∈ name
    · rw [List.find?_cons_of_pos (by simpa using hr)] at h
      obtain rfl := Option.some.inj h
      rw [List.map_cons, List.takeWhile_cons_of_pos (by simpa using hne.symm)]
      exact List.mem_cons_self
    · rw [List.find?_cons_of_neg (by simpa using hr)] at h
      have hrow : r.1 ≠ e.1 := fun heq => hr (heq ▸ hname)
      have hmem : e ∈ rows := by
        obtain rfl | hmem := List.mem_cons.mp he
        · exact absurd rfl hrow
        · exact hmem
      rw [List.map_cons, List.takeWhile_cons_of_pos (by simpa using hrow)]
      exact List.mem_cons_of_mem _ (ih h hmem)

def acting (letter : Char) (del : Bool) (s : CString) : Option Bool :=
  (lastUse letter del s).bind fun use => if overlooked letter use.2 then none else some use.1

theorem acting_none {letter : Char} (h : letter ∉ s) : acting letter del s = none := by
  rw [acting, lastUse_none_iff.mpr h]
  rfl

theorem acting_sign {letter x : Char} {del' : Bool} (hx : x ≠ letter)
    (hdel : (if x = '+' then false else if x = '-' then true else del) = del') :
    acting letter del (x :: s) = acting letter del' s := by
  rw [acting, acting, lastUse, hdel, if_neg hx]
  cases lastUse letter del' s <;> rfl

theorem acting_found {x : Char} (hplus : x ≠ '+') (hminus : x ≠ '-') (hF : e'.1 ≠ 'F')
    (hname : e'.1 ∈ x :: s) (hbefore : ∀ letter ∈ lettersBefore e'.1, letter ∉ x :: s) :
    acting e'.1 del (x :: s) = some ((acting e'.1 del s).getD del) := by
  have hclear : ∀ rest, rest <:+ s → overlooked e'.1 rest = false := by
    intro rest hrest
    simp only [overlooked, hF, decide_false, Bool.false_or, List.any_eq_false, decide_eq_true_eq]
    intro letter hletter hmem
    exact hbefore letter hletter (List.mem_cons_of_mem x (hrest.subset hmem))
  rw [acting, acting, lastUse, if_neg hplus, if_neg hminus]
  cases huse : lastUse e'.1 del s with
  | some use => simp [hclear _ (lastUse_suffix huse)]
  | none =>
    have hx : x = e'.1 := ((List.mem_cons.mp hname).resolve_right (lastUse_none_iff.mp huse)).symm
    simp [hx, hclear s (List.suffix_refl s)]

theorem acting_other {x : Char} (hplus : x ≠ '+') (hminus : x ≠ '-')
    (hne : e'.1 ≠ e.1) (hname : e'.1 ∈ x :: s)
    (hfirst : e.1 ∈ x :: s → e'.1 ∈ lettersBefore e.1) :
    acting e.1 del (x :: s) = acting e.1 del s := by
  rw [acting, acting, lastUse, if_neg hplus, if_neg hminus]
  cases huse : lastUse e.1 del s with
  | some use => rfl
  | none =>
    by_cases hx : x = e.1
    · have hlater : e'.1 ∈ s := (List.mem_cons.mp hname).resolve_left fun h => hne (h.trans hx)
      have hover : overlooked e.1 s = true := by
        rw [overlooked, Bool.or_eq_true, List.any_eq_true]
        exact Or.inr ⟨e'.1, hfirst (by simp [hx]), by simpa using hlater⟩
      simp [hx, hover]
    · simp [hx]

theorem acting_F : acting 'F' del s = none := by
  rw [acting]
  cases lastUse 'F' del s <;> rfl

/-! ### The masks -/

def marked (del : Bool) (flag : Flags) (c : Change) : Change :=
  if del then ⟨c.add &&& ~~~flag &&& gaAllAll, (c.rem ||| flag) &&& gaAllAll⟩
  else ⟨(c.add ||| flag) &&& gaAllAll, c.rem &&& ~~~flag &&& gaAllAll⟩

theorem gflagsFrom_letter {x : Char} (hplus : x ≠ '+') (hminus : x ≠ '-') (hequal : x ≠ '=')
    (hstar : x ≠ '*') : gflagsFrom del c (x :: s) =
      gflagsFrom del (if xgflagLookup (x :: s) = 0#32 then c
        else marked del (xgflagLookup (x :: s)) c) s := by
  rw [gflagsFrom, if_neg hplus, if_neg hminus, if_neg hequal, if_neg hstar, marked]
  dsimp only
  split
  · rfl
  · cases del <;> rfl

theorem has_marked (he : e ∈ gaTable) (hi : Has e.2 i) (he' : e' ∈ gaTable) (del : Bool)
    (c : Change) :
    (Has (marked del e'.2 c).add i ↔
      (if e' = e then del = false else Has c.add i) ∧ Has gaAllAll i) ∧
    (Has (marked del e'.2 c).rem i ↔
      (if e' = e then del = true else Has c.rem i) ∧ Has gaAllAll i) := by
  have hlt := hi.lt
  by_cases heq : e' = e
  · subst heq
    cases del <;> simp [marked, hi]
  · have hnot : ¬ Has e'.2 i := fun hi' => heq (gaTable_apart he' he hi' hi)
    cases del <;> simp [marked, heq, hnot, hlt]

theorem has_masks (he : e ∈ gaTable) (hi : Has e.2 i) (hs : '=' ∉ s ∧ '*' ∉ s) (del : Bool)
    (c : Change) :
    (Has (gflagsFrom del c s).add i ↔
      match acting e.1 del s with
      | some sign => sign = false
      | none => Has c.add i ∧ Has gaAllAll i) ∧
    (Has (gflagsFrom del c s).rem i ↔
      match acting e.1 del s with
      | some sign => sign = true
      | none => Has c.rem i ∧ Has gaAllAll i) := by
  induction s generalizing del c with
  | nil => simp [gflagsFrom, acting, lastUse]
  | cons x s ih =>
    simp only [List.mem_cons, not_or] at hs
    have ih := ih ⟨hs.1.2, hs.2.2⟩
    have hsigns := gaTable_signs he
    by_cases hplus : x = '+'
    · subst hplus
      rw [gflagsFrom, if_pos rfl, acting_sign hsigns.1.symm rfl]
      exact ih false c
    · by_cases hminus : x = '-'
      · subst hminus
        rw [gflagsFrom, if_neg hplus, if_pos rfl, acting_sign hsigns.2.1.symm rfl]
        exact ih true c
      · rw [gflagsFrom_letter hplus hminus (Ne.symm hs.1.1) (Ne.symm hs.2.1)]
        cases hfind : gaTable.find? (fun e => e.1 ∈ x :: s) with
        | none =>
          have hzero : xgflagLookup (x :: s) = 0#32 := by
            rw [xgflagLookup, hfind]
            rfl
          have hnot : e.1 ∉ x :: s := by
            intro hmem
            exact List.find?_eq_none.mp hfind e he (by simpa using hmem)
          rw [if_pos hzero, acting_none hnot, ← acting_none (List.not_mem_of_not_mem_cons hnot)]
          exact ih del c
        | some e' =>
          have he' := List.mem_of_find?_eq_some hfind
          have hname : e'.1 ∈ x :: s := by simpa using List.find?_some hfind
          have hflag : xgflagLookup (x :: s) = e'.2 := by
            rw [xgflagLookup, hfind]
            rfl
          rw [hflag, if_neg (gaTable_ne_zero he')]
          obtain ⟨hadd, hrem⟩ := ih del (marked del e'.2 c)
          obtain ⟨hmadd, hmrem⟩ := has_marked he hi he' del c
          rw [hadd, hrem, hmadd, hmrem]
          by_cases heq : e' = e
          · subst heq
            have hmasked := gaTable_masked he hi
            by_cases hF : e'.1 = 'F'
            · -- what the search finds is not among the flags the masks keep
              have hall : ¬ Has gaAllAll i := fun hall => hmasked.mp hall hF
              simp only [hF, acting_F, hall, and_false, and_self]
            · rw [acting_found hplus hminus hF hname (find_before hfind)]
              have hall := hmasked.mpr hF
              cases acting e'.1 del s with
              | some sign => exact ⟨Iff.rfl, Iff.rfl⟩
              | none => simp [hall]
          · have hne : e'.1 ≠ e.1 := fun h => heq (gaTable_letter_inj he' he h)
            rw [acting_other hplus hminus hne hname fun hmem => find_first hfind he hmem hne.symm]
            cases acting e.1 del s with
            | some sign => exact ⟨Iff.rfl, Iff.rfl⟩
            | none => simp [heq]

end letter

/-! ### Where they agree -/

section agreement
variable {s : CString} {flags : Flags} {i : Nat} {e : Char × Flags}

theorem gflagsFrom_sub (del : Bool) (c : Change) (string : CString) :
    Sub (gflagsFrom del c string).add gaAllAll := by
  induction string generalizing del c with
  | nil => exact and_sub_right _ _
  | cons x string ih =>
    rw [gflagsFrom]
    dsimp only
    split_ifs <;> apply ih

theorem gflagsFrom_rem_sub (del : Bool) (c : Change) (string : CString) :
    Sub (gflagsFrom del c string).rem gaAllAll := by
  induction string generalizing del c with
  | nil => exact and_sub_right _ _
  | cons x string ih =>
    rw [gflagsFrom]
    dsimp only
    split_ifs <;> apply ih

theorem gaAllAll_owner (h : Has gaAllAll i) : ∃ e ∈ gaTable, Has e.2 i := by
  have hsub : Sub gaAllAll (Letters.union gaTable) := by decide
  exact Letters.has_union.mp (hsub.has h)

theorem gaTable_test (he : e ∈ gaTable) (hi : Has e.2 i) : test flags e.2 = true ↔ Has flags i := by
  have hone : Letters.OneToOne gaTable := oneToOne_of_twoPow (by decide) (by decide)
  obtain ⟨k, hk⟩ := hone.single e he
  rw [test_bit hk, (hk i).mp hi]

theorem has_parsed_other (hi : ∀ e ∈ gaTable, ¬ Has e.2 i) (hs : '*' ∉ s) (st : Bool × Flags) :
    Has (s.foldl (parserStep true) st).2 i ↔ Has st.2 i := by
  induction s generalizing st with
  | nil => rfl
  | cons x s ih =>
    simp only [List.mem_cons, not_or] at hs
    rw [List.foldl_cons, ih hs.2, parserStep]
    by_cases hplus : x = '+'
    · simp [hplus]
    · by_cases hminus : x = '-'
      · simp [hminus]
      · rw [if_neg hplus, if_neg hminus, if_neg (Ne.symm hs.1)]
        cases hletter : gaLetter x with
        | none => rfl
        | some flag =>
          obtain ⟨e, hfind, rfl⟩ := Option.map_eq_some_iff.mp hletter
          have hnot := hi e (List.mem_of_find?_eq_some hfind)
          cases st.1 with
          | true =>
            simp only [if_true, has_and, has_not, hnot, not_false_eq_true, and_true,
              and_iff_left_iff_imp]
            exact Has.lt
          | false => simp [hnot]

theorem masks_disjoint (hs : '=' ∉ s ∧ '*' ∉ s) :
    (gflagsMakeBitmasks s).add &&& (gflagsMakeBitmasks s).rem = 0#32 := by
  rw [eq_zero_iff]
  intro i hboth
  rw [has_and] at hboth
  obtain ⟨e, he, hi⟩ := gaAllAll_owner ((gflagsFrom_sub _ _ _).has hboth.1)
  have hmasks := has_masks he hi hs false ⟨0#32, 0#32⟩
  have hadd := hmasks.1.mp hboth.1
  have hrem := hmasks.2.mp hboth.2
  cases hact : acting e.1 false s with
  | none => simp [hact] at hadd
  | some sign =>
    rw [hact] at hadd hrem
    simp only at hadd hrem
    exact absurd (hadd.symm.trans hrem) (by decide)

theorem letter_agrees_iff (he : e ∈ gaTable) (hi : Has e.2 i) (hs : '=' ∉ s ∧ '*' ∉ s) :
    (Has ((flags ||| (gflagsMakeBitmasks s).add) &&& ~~~(gflagsMakeBitmasks s).rem) i ↔
      Has (gsFlagsParser s true flags) i) ↔
    ∀ use ∈ lastUse e.1 false s, overlooked e.1 use.2 = true → (Has flags i ↔ use.1 = false) := by
  have hlt := hi.lt
  have hparser : Has (gsFlagsParser s true flags) i ↔
      match lastUse e.1 false s with
      | some use => use.1 = false
      | none => Has flags i := by
    rw [gsFlagsParser, if_neg hs.1]
    exact has_parsed he hi hs.2 false flags
  have hmasks := has_masks he hi hs false ⟨0#32, 0#32⟩
  have happlied : Has ((flags ||| (gflagsMakeBitmasks s).add) &&& ~~~(gflagsMakeBitmasks s).rem) i ↔
      match acting e.1 false s with
      | some sign => sign = false
      | none => Has flags i := by
    simp only [gflagsMakeBitmasks, has_and, has_or, has_not, hlt, true_and, hmasks.1, hmasks.2]
    cases acting e.1 false s with
    | none => simp
    | some sign => cases sign <;> simp
  rw [happlied, hparser, acting]
  cases lastUse e.1 false s with
  | none => simp
  | some use =>
    cases hover : overlooked e.1 use.2 <;> simp [hover]

end agreement

/-- The masks of `gflags_make_bitmasks` are disjoint and come to what `gs_flags_parser` makes of the
string, exactly where the letters that the search overlooks ask for what is there already. -/
theorem group_parsers_agree {s : CString} (hs : '=' ∉ s ∧ '*' ∉ s) (flags : Flags) :
    ((gflagsMakeBitmasks s).add &&& (gflagsMakeBitmasks s).rem = 0#32 ∧
      (flags ||| (gflagsMakeBitmasks s).add) &&& ~~~(gflagsMakeBitmasks s).rem =
        gsFlagsParser s true flags) ↔
    OverlookedHeld s flags := by
  constructor
  · rintro ⟨-, heq⟩ e he use huse hover
    have hone : Letters.OneToOne gaTable := oneToOne_of_twoPow (by decide) (by decide)
    obtain ⟨k, hk⟩ := hone.single e he
    have hi : Has e.2 k := (hk k).mpr rfl
    rw [gaTable_test he hi]
    exact (letter_agrees_iff he hi hs).mp (by rw [heq]) use huse hover
  · intro hheld
    refine ⟨masks_disjoint hs, Mask.ext fun i => ?_⟩
    by_cases howner : ∃ e ∈ gaTable, Has e.2 i
    · obtain ⟨e, he, hi⟩ := howner
      rw [letter_agrees_iff he hi hs]
      intro use huse hover
      rw [← gaTable_test he hi]
      exact hheld e he use huse hover
    · have hnone : ∀ e ∈ gaTable, ¬ Has e.2 i := fun e he hi => howner ⟨e, he, hi⟩
      have hadd : ¬ Has (gflagsMakeBitmasks s).add i := fun h =>
        howner (gaAllAll_owner ((gflagsFrom_sub _ _ _).has h))
      have hrem : ¬ Has (gflagsMakeBitmasks s).rem i := fun h =>
        howner (gaAllAll_owner ((gflagsFrom_rem_sub _ _ _).has h))
      rw [gsFlagsParser, if_neg hs.1, has_parsed_other hnone hs.2]
      simp only [has_and, has_or, has_not, hadd, hrem, or_false, not_false_eq_true, and_true,
        and_iff_left_iff_imp]
      exact Has.lt

/-- Both signs, repetitions, and the last letters in the order of the table. -/
theorem group_parsers_agree_ordered :
    (gflagsMakeBitmasks "-s+f-f+s-cxv+A".toList).add &&&
        (gflagsMakeBitmasks "-s+f-f+s-cxv+A".toList).rem = 0#32 ∧
      (gaFounder ||| gaChanacs ||| (gflagsMakeBitmasks "-s+f-f+s-cxv+A".toList).add) &&&
          ~~~(gflagsMakeBitmasks "-s+f-f+s-cxv+A".toList).rem =
        gsFlagsParser "-s+f-f+s-cxv+A".toList true (gaFounder ||| gaChanacs) :=
  (group_parsers_agree (by decide) (gaFounder ||| gaChanacs)).mpr (by decide)

/-- `s` is lost to the search, which finds the `f` behind it. -/
theorem group_parsers_differ :
    (0#32 ||| (gflagsMakeBitmasks "+sf".toList).add) &&& ~~~(gflagsMakeBitmasks "+sf".toList).rem ≠
      gsFlagsParser "+sf".toList true 0#32 := by
  decide
end ChatServices.GroupServ
