import ChatServices.HostServ.Offers
import ChatServices.Lib.InPlace
import ChatServices.Xmlrpc.Strings
import Mathlib.Tactic.Ring

/-! `replace` of `libathemecore/function.c`, which puts one text for another in the buffer itself.
The room is counted once, in front of the loop. -/
namespace ChatServices.Replace
open ChatServices.Lib.Halting ChatServices.Lib.Overwrite ChatServices.Text
open ChatServices.HostServ.Offers (replaceFrom)
open ChatServices.Xmlrpc (Memory stringAt stringAt_front)

/-- A length that is kept in an `int`. -/
def intLength (n : Nat) : Int := (BitVec.ofNat 32 n).toInt

structure Loop where
  mem : Memory
  ptr : Nat
  left : Int
  writes : List (Nat × Nat)

/-- One turn; what is in front of the loop are the arguments and `avail`. -/
def replaceStep (old new : CString) (avail : Int) (s : Loop) :
    (Memory × List (Nat × Nat)) ⊕ Loop :=
  let oldlen := intLength old.length
  let newlen := intLength new.length
  let diff := newlen - oldlen
  if s.left ≥ oldlen then
    if !old.isPrefixOf (stringAt s.mem s.ptr) then
      .inr { s with left := s.left - 1, ptr := s.ptr + 1 }
    else if diff > avail then .inl (s.mem, s.writes)
    else
      let dst := (s.ptr + oldlen + diff).toNat
      let n := (s.left + 1 - oldlen).toNat
      let moved := (s.mem.drop (s.ptr + oldlen).toNat).take n
      let mem := if diff ≠ 0 then overwrite nul s.mem dst moved else s.mem
      let writes := if diff ≠ 0 then s.writes ++ [(dst, n)] else s.writes
      .inr
        { mem := overwrite nul mem s.ptr (new.take newlen.toNat)
          ptr := (s.ptr + newlen).toNat
          left := s.left - oldlen
          writes := writes ++ [(s.ptr, newlen.toNat)] }
  else .inl (s.mem, s.writes)

structure Buffer where
  text : CString
  behind : Memory
  size : Nat
  clean : nul ∉ text
  holds : text.length < size
  isInt : size < 2 ^ 31

/-- An argument whose length is an `int`. -/
structure Arg where
  text : CString
  clean : nul ∉ text
  isInt : text.length < 2 ^ 31

/-- `replace`: the memory from `s` on, and what was written of it. -/
def replace (s : Buffer) (old new : CString) : Option (Memory × List (Nat × Nat)) :=
  let left := intLength s.text.length
  run (replaceStep old new (s.size - (left + 1))) (s.text.length + 1)
    ⟨s.text ++ nul :: s.behind, 0, left, []⟩

/-! ### The text with every occurrence replaced -/

section spec
variable {old new s : CString} {fuel : Nat} {c : Char}

/-- As often as `old` is in the text, from left to right. -/
def occurrences (old : CString) : Nat → CString → Nat
  | 0, _ => 0
  | _ + 1, [] => 0
  | fuel + 1, c :: s =>
    if old.isPrefixOf (c :: s) then occurrences old fuel ((c :: s).drop old.length) + 1
    else occurrences old fuel s

theorem replaceFrom_none (new : CString) (fuel : Nat) (h : s.length < old.length) :
    replaceFrom old new fuel s = s ∧ occurrences old fuel s = 0 := by
  induction fuel generalizing s with
  | zero => exact ⟨rfl, rfl⟩
  | succ fuel ih =>
    cases s with
    | nil => exact ⟨rfl, rfl⟩
    | cons c s =>
      have hno : ¬old.isPrefixOf (c :: s) = true := by
        intro hold
        have hle := (List.isPrefixOf_iff_prefix.mp hold).length_le
        omega
      rw [List.length_cons] at h
      obtain ⟨hsame, hzero⟩ := ih (Nat.lt_of_succ_lt h)
      rw [replaceFrom, if_neg hno, occurrences, if_neg hno, hsame]
      exact ⟨rfl, hzero⟩

theorem length_replaceFrom (old new : CString) (fuel : Nat) (s : CString) :
    ((replaceFrom old new fuel s).length : Int) =
    s.length + occurrences old fuel s * ((new.length : Int) - old.length) := by
  induction fuel generalizing s with
  | zero => simp [replaceFrom, occurrences]
  | succ fuel ih =>
    cases s with
    | nil => simp [replaceFrom, occurrences]
    | cons c s =>
      rw [replaceFrom, occurrences]
      by_cases hold : old.isPrefixOf (c :: s) = true
      · have hle := (List.isPrefixOf_iff_prefix.mp hold).length_le
        rw [if_pos hold, if_pos hold, List.length_append, Nat.cast_add, ih, List.length_drop]
        push_cast [hle]
        ring
      · rw [if_neg hold, if_neg hold, List.length_cons, Nat.cast_add, ih, List.length_cons]
        push_cast
        ring

theorem le_length_replaceFrom (h : old.length ≤ new.length) :
    s.length ≤ (replaceFrom old new fuel s).length := by
  have hlen := length_replaceFrom old new fuel s
  have hgrowth : 0 ≤ (occurrences old fuel s : Int) * ((new.length : Int) - old.length) :=
    Int.mul_nonneg (Int.natCast_nonneg _) (by omega)
  omega

theorem replaceFrom_eq_self (h : occurrences old fuel s = 0) : replaceFrom old new fuel s = s := by
  induction fuel generalizing s with
  | zero => rfl
  | succ fuel ih =>
    cases s with
    | nil => rfl
    | cons c s =>
      rw [occurrences] at h
      by_cases hold : old.isPrefixOf (c :: s) = true
      · rw [if_pos hold] at h
        exact absurd h (Nat.succ_ne_zero _)
      · rw [if_neg hold] at h
        rw [replaceFrom, if_neg hold, ih h]

theorem replaceFrom_clean (hs : nul ∉ s) (hnew : nul ∉ new) : nul ∉ replaceFrom old new fuel s := by
  induction fuel generalizing s with
  | zero => exact hs
  | succ fuel ih =>
    cases s with
    | nil => exact hs
    | cons c s =>
      rw [replaceFrom]
      by_cases hold : old.isPrefixOf (c :: s) = true
      · have hrest : nul ∉ (c :: s).drop old.length := fun h => hs (List.mem_of_mem_drop h)
        have hdrop := ih hrest
        rw [if_pos hold, List.mem_append]
        exact fun h => h.elim hnew hdrop
      · rw [List.mem_cons, not_or] at hs
        rw [if_neg hold, List.mem_cons, not_or]
        exact ⟨hs.1, ih hs.2⟩

end spec

/-! ### The loop -/

theorem intLength_eq {n : Nat} (h : n < 2 ^ 31) : intLength n = n := by
  have hsmall : (BitVec.ofNat 32 n).toNat = n := by
    rw [BitVec.toNat_ofNat]
    omega
  rw [intLength, BitVec.toInt_eq_toNat_of_lt (by omega), hsmall]

section loop
variable {old new : Arg} {avail : Int} {rest : CString} (text : CString) (behind : Memory)
  (writes : List (Nat × Nat))

def placed (text rest : CString) (behind : Memory) (writes : List (Nat × Nat)) : Loop :=
  ⟨text ++ (rest ++ nul :: behind), text.length, rest.length, writes⟩

theorem stringAt_placed (h : nul ∉ rest) :
    stringAt (placed text rest behind writes).mem text.length = rest := by
  rw [placed, stringAt_front, cstr_split h]

theorem placed_left (h : old.text.length ≤ rest.length) :
    (placed text rest behind writes).left ≥ intLength old.text.length := by
  rw [intLength_eq old.isInt, placed]
  dsimp only
  omega

theorem step_short (h : rest.length < old.text.length) :
    replaceStep old.text new.text avail (placed text rest behind writes) =
      .inl (text ++ (rest ++ nul :: behind), writes) := by
  have hleft : ¬(placed text rest behind writes).left ≥ intLength old.text.length := by
    rw [intLength_eq old.isInt, placed]
    dsimp only
    omega
  rw [replaceStep]
  dsimp only
  rw [if_neg hleft]
  rfl

theorem step_skip {c : Char} (hclean : nul ∉ c :: rest) (hlen : old.text.length ≤ (c :: rest).length)
    (hno : ¬old.text.isPrefixOf (c :: rest) = true) :
    replaceStep old.text new.text avail (placed text (c :: rest) behind writes) =
      .inr (placed (text ++ [c]) rest behind writes) := by
  have hskip : (!old.text.isPrefixOf (stringAt (placed text (c :: rest) behind writes).mem
      (placed text (c :: rest) behind writes).ptr)) = true := by
    have hstring : stringAt (placed text (c :: rest) behind writes).mem
      (placed text (c :: rest) behind writes).ptr = c :: rest := stringAt_placed text behind writes hclean
    rw [hstring, Bool.not_eq_true', Bool.eq_false_iff]
    exact hno
  rw [replaceStep]
  dsimp only
  rw [if_pos (placed_left text behind writes hlen), if_pos hskip]
  simp [placed]

theorem step_full (hclean : nul ∉ rest) (hold : old.text.isPrefixOf rest = true)
    (hroom : (new.text.length : Int) - old.text.length > avail) :
    replaceStep old.text new.text avail (placed text rest behind writes) =
      .inl (text ++ (rest ++ nul :: behind), writes) := by
  have hlen := (List.isPrefixOf_iff_prefix.mp hold).length_le
  have hstring : stringAt (placed text rest behind writes).mem
      (placed text rest behind writes).ptr = rest := stringAt_placed text behind writes hclean
  rw [replaceStep]
  dsimp only
  rw [if_pos (placed_left text behind writes hlen), hstring, hold, intLength_eq old.isInt,
    intLength_eq new.isInt, if_pos hroom]
  simp [placed]

theorem step_put (hclean : nul ∉ old.text ++ rest)
    (hroom : ¬(new.text.length : Int) - old.text.length > avail) : ∃ behind' put,
    replaceStep old.text new.text avail (placed text (old.text ++ rest) behind writes) =
      .inr (placed (text ++ new.text) rest behind' (writes ++ put)) ∧
    (∀ w ∈ put, w.1 + w.2 ≤ text.length + new.text.length + rest.length + 1) ∧
    (old.text.length < new.text.length →
      ∃ w ∈ put, w.1 + w.2 = text.length + new.text.length + rest.length + 1) := by
  have hlen : old.text.length ≤ (old.text ++ rest).length := by simp
  have hstring : stringAt (placed text (old.text ++ rest) behind writes).mem
      (placed text (old.text ++ rest) behind writes).ptr = old.text ++ rest :=
    stringAt_placed text behind writes hclean
  have hprefix : old.text.isPrefixOf (old.text ++ rest) = true :=
    List.isPrefixOf_iff_prefix.mpr (List.prefix_append _ _)
  have hmem : (placed text (old.text ++ rest) behind writes).mem =
      text ++ (old.text ++ (rest ++ nul :: behind)) := by simp [placed]
  have hptr : (placed text (old.text ++ rest) behind writes).ptr = text.length := rfl
  have hcount : (placed text (old.text ++ rest) behind writes).left =
      (old.text.length + rest.length : Nat) := by simp [placed]
  have hnew : new.text.take new.text.length = new.text := List.take_length
  have hnext : ((text.length : Int) + new.text.length).toNat = (text ++ new.text).length := by
    rw [List.length_append]
    omega
  have hrest : ((old.text.length + rest.length : Nat) : Int) - old.text.length = rest.length := by
    omega
  have hwrites : (placed text (old.text ++ rest) behind writes).writes = writes := rfl
  have hplaced : ∀ behind' writes', placed (text ++ new.text) rest behind' writes' =
      ⟨text ++ (new.text ++ (rest ++ nul :: behind')), (text ++ new.text).length, rest.length,
        writes'⟩ := by
    intro behind' writes'
    rw [placed, List.append_assoc]
  rw [replaceStep]
  dsimp only
  rw [if_pos (placed_left text behind writes hlen), hstring, hprefix, intLength_eq old.isInt,
    intLength_eq new.isInt, if_neg hroom, if_neg (by decide), hmem, hptr, hcount, hwrites,
    Int.toNat_natCast, hnew, hnext, hrest]
  by_cases hsame : new.text.length = old.text.length
  · have hzero : ¬(new.text.length : Int) - old.text.length ≠ 0 := by omega
    refine ⟨behind, [(text.length, new.text.length)], ?_, ?_, fun hlt => absurd hsame (by omega)⟩
    · rw [if_neg hzero, if_neg hzero, overwrite_same hsame, hplaced]
    · intro w hw
      rw [List.mem_singleton.mp hw]
      dsimp only
      omega
  · have hmoves : (new.text.length : Int) - old.text.length ≠ 0 := by omega
    have hdst : ((text.length : Int) + old.text.length +
        (new.text.length - old.text.length)).toNat = text.length + new.text.length := by omega
    have hsrc : ((text.length : Int) + old.text.length).toNat = (text ++ old.text).length := by
      rw [List.length_append]
      omega
    have hn : (((old.text.length + rest.length : Nat) : Int) + 1 - old.text.length).toNat =
        (rest ++ [nul]).length := by
      rw [List.length_append, List.length_singleton]
      omega
    have hchunk : ((text ++ (old.text ++ (rest ++ nul :: behind))).drop
        (text ++ old.text).length).take (rest ++ [nul]).length = rest ++ [nul] := by
      have hfront : text ++ (old.text ++ (rest ++ nul :: behind)) =
          (text ++ old.text) ++ ((rest ++ [nul]) ++ behind) := by simp
      rw [hfront, List.drop_left, List.take_left]
    obtain ⟨behind', hmoved⟩ := overwrite_moved nul
      (text ++ (old.text ++ (rest ++ nul :: behind))) new.text (rest ++ [nul])
      (by simp : text.length ≤ (text ++ (old.text ++ (rest ++ nul :: behind))).length)
    rw [List.take_left] at hmoved
    refine ⟨behind', [(text.length + new.text.length, rest.length + 1),
      (text.length, new.text.length)], ?_, ?_, ?_⟩
    · rw [if_pos hmoves, if_pos hmoves, hdst, hsrc, hn, hchunk, hmoved, hplaced]
      simp only [List.append_assoc, List.cons_append, List.nil_append, List.length_append,
        List.length_singleton]
    · simp only [List.forall_mem_cons, List.not_mem_nil, false_implies, implies_true, and_true]
      omega
    · intro _
      exact ⟨_, List.mem_cons_self, by dsimp only; omega⟩

theorem replace_run (hold : old.text ≠ [])
    (hroom : ¬(new.text.length : Int) - old.text.length > avail) (fuel : Nat)
    (hfuel : rest.length ≤ fuel) (hclean : nul ∉ rest) : ∃ n ≤ rest.length + 1, ∃ behind' put,
    Takes (replaceStep old.text new.text avail) n (placed text rest behind writes)
      (text ++ (replaceFrom old.text new.text fuel rest ++ nul :: behind'), writes ++ put) ∧
    (∀ w ∈ put, w.1 + w.2 ≤ text.length + rest.length + 1 ∨
      w.1 + w.2 ≤ text.length + (replaceFrom old.text new.text fuel rest).length + 1) ∧
    (old.text.length < new.text.length → occurrences old.text fuel rest ≠ 0 →
      ∃ w ∈ put, w.1 + w.2 = text.length + (replaceFrom old.text new.text fuel rest).length + 1) := by
  have hpos := List.length_pos_iff.mpr hold
  induction fuel generalizing text rest behind writes with
  | zero =>
    have hnil : rest = [] := List.length_eq_zero_iff.mp (Nat.le_zero.mp hfuel)
    refine ⟨1, by omega, behind, [], ?_, nofun, fun _ h => absurd rfl h⟩
    rw [List.append_nil]
    exact Takes.stop (step_short text behind writes (by rw [hnil]; exact hpos))
  | succ fuel ih =>
    by_cases hshort : rest.length < old.text.length
    · obtain ⟨hsame, hzero⟩ := replaceFrom_none new.text (fuel + 1) hshort
      refine ⟨1, by omega, behind, [], ?_, nofun, fun _ h => absurd hzero h⟩
      rw [List.append_nil, hsame]
      exact Takes.stop (step_short text behind writes hshort)
    cases rest with
    | nil => exact absurd hpos hshort
    | cons c rest =>
      rw [replaceFrom, occurrences]
      by_cases hhere : old.text.isPrefixOf (c :: rest) = true
      · obtain ⟨s, hs⟩ := List.isPrefixOf_iff_prefix.mp hhere
        rw [if_pos hhere, if_pos hhere, ← hs, List.drop_left]
        rw [← hs] at hclean hfuel
        have hclean' : nul ∉ s := fun h => hclean (List.mem_append_right _ h)
        have hfuel' : s.length ≤ fuel := by
          rw [List.length_append] at hfuel
          omega
        obtain ⟨behind₁, put, hstep, hwithin, hlast⟩ := step_put text behind writes hclean hroom
        obtain ⟨n, hn, behind', put', htakes, hwithin', hlast'⟩ :=
          ih (text ++ new.text) behind₁ (writes ++ put) hfuel' hclean'
        rw [List.append_assoc, List.append_assoc] at htakes
        rw [List.length_append] at hwithin' hlast'
        refine ⟨n + 1, by rw [List.length_append]; omega, behind', put ++ put', ?_, ?_, ?_⟩
        · rw [List.append_assoc]
          exact Takes.next hstep htakes
        · intro w hw
          have hle : new.text.length ≤ old.text.length ∨
              s.length ≤ (replaceFrom old.text new.text fuel s).length := by
            by_cases h : new.text.length ≤ old.text.length
            · exact .inl h
            · exact .inr (le_length_replaceFrom (by omega))
          rw [List.length_append, List.length_append]
          cases List.mem_append.mp hw with
          | inl hw =>
            have hw' := hwithin w hw
            omega
          | inr hw =>
            have hw' := hwithin' w hw
            omega
        · intro hlt _
          by_cases hmore : occurrences old.text fuel s = 0
          · -- Nothing is replaced behind this occurrence, and its bytes are the last.
            have hlen := length_replaceFrom old.text new.text fuel s
            rw [hmore] at hlen
            obtain ⟨w, hw, hend⟩ := hlast hlt
            refine ⟨w, List.mem_append_left _ hw, ?_⟩
            rw [List.length_append]
            omega
          · obtain ⟨w, hw, hend⟩ := hlast' hlt hmore
            refine ⟨w, List.mem_append_right _ hw, ?_⟩
            rw [List.length_append]
            omega
      · have hclean' : nul ∉ rest := fun h => hclean (List.mem_cons_of_mem c h)
        have hstep : replaceStep old.text new.text avail (placed text (c :: rest) behind writes) =
            .inr (placed (text ++ [c]) rest behind writes) :=
          step_skip text behind writes hclean (Nat.not_lt.mp hshort) hhere
        obtain ⟨n, hn, behind', put, htakes, hwithin, hlast⟩ :=
          ih (text ++ [c]) behind writes (Nat.le_of_succ_le_succ hfuel) hclean'
        rw [if_neg hhere, if_neg hhere]
        rw [List.append_assoc] at htakes
        rw [List.length_append, List.length_singleton] at hwithin hlast
        refine ⟨n + 1, by rw [List.length_cons]; omega, behind', put, Takes.next hstep htakes, ?_, ?_⟩
        · intro w hw
          have hw' := hwithin w hw
          rw [List.length_cons, List.length_cons]
          omega
        · intro hlt hsome
          obtain ⟨w, hw, hend⟩ := hlast hlt hsome
          exact ⟨w, hw, by rw [List.length_cons]; omega⟩

theorem replace_full (hold : old.text ≠ [])
    (hroom : (new.text.length : Int) - old.text.length > avail) (hclean : nul ∉ rest) :
    ∃ n ≤ rest.length + 1, Takes (replaceStep old.text new.text avail) n
      (placed text rest behind writes) (text ++ (rest ++ nul :: behind), writes) := by
  have hpos := List.length_pos_iff.mpr hold
  induction rest generalizing text with
  | nil => exact ⟨1, by omega, Takes.stop (step_short text behind writes hpos)⟩
  | cons c rest ih =>
    by_cases hshort : (c :: rest).length < old.text.length
    · exact ⟨1, by omega, Takes.stop (step_short text behind writes hshort)⟩
    by_cases hhere : old.text.isPrefixOf (c :: rest) = true
    · exact ⟨1, by omega, Takes.stop (step_full text behind writes hclean hhere hroom)⟩
    · have hclean' : nul ∉ rest := fun h => hclean (List.mem_cons_of_mem c h)
      have hstep : replaceStep old.text new.text avail (placed text (c :: rest) behind writes) =
          .inr (placed (text ++ [c]) rest behind writes) :=
        step_skip text behind writes hclean (Nat.not_lt.mp hshort) hhere
      obtain ⟨n, hn, htakes⟩ := ih (text ++ [c]) hclean'
      rw [List.append_assoc] at htakes
      exact ⟨n + 1, by rw [List.length_cons]; omega, Takes.next hstep htakes⟩

end loop

/-- What `replace` is for: it writes in the buffer only, and replaces every occurrence where the
result fits. -/
structure Right (s : Buffer) (old new : CString) (r : Memory × List (Nat × Nat)) : Prop where
  within : ∀ w ∈ r.2, w.1 + w.2 ≤ s.size
  all : (replaceFrom old new (s.text.length + 1) s.text).length < s.size →
    stringAt r.1 0 = replaceFrom old new (s.text.length + 1) s.text

/-- It does so if all occurrences fit, or not even one more. -/
theorem replace_right_iff (s : Buffer) (old new : Arg) (hold : old.text ≠ []) :
    (∃ r, replace s old.text new.text = some r ∧ Right s old.text new.text r) ↔
      s.text.length + occurrences old.text (s.text.length + 1) s.text *
        ((new.text.length : Int) - old.text.length) < s.size ∨
      (s.size : Int) ≤ s.text.length + (new.text.length - old.text.length) := by
  have hsize := s.isInt
  have hholds := s.holds
  have hleft : intLength s.text.length = s.text.length := intLength_eq (by omega)
  have hlen := length_replaceFrom old.text new.text (s.text.length + 1) s.text
  have hcall : replace s old.text new.text = run (replaceStep old.text new.text
      (s.size - (s.text.length + 1))) (s.text.length + 1) (placed [] s.text s.behind []) := by
    rw [replace, hleft]
    rfl
  rw [hcall]
  by_cases hroom : (new.text.length : Int) - old.text.length > s.size - (s.text.length + 1)
  · have hfull : (s.size : Int) ≤ s.text.length + (new.text.length - old.text.length) := by omega
    refine iff_of_true ?_ (.inr hfull)
    obtain ⟨n, hn, htakes⟩ := replace_full [] s.behind [] hold hroom s.clean
    refine ⟨_, htakes.run_eq_some_iff.mpr ⟨hn, rfl⟩, nofun, fun hfits => ?_⟩
    have hnone : occurrences old.text (s.text.length + 1) s.text = 0 := by
      by_contra hsome
      have hmany : 1 * ((new.text.length : Int) - old.text.length) ≤
          occurrences old.text (s.text.length + 1) s.text *
            ((new.text.length : Int) - old.text.length) :=
        Int.mul_le_mul_of_nonneg_right (by omega) (by omega)
      omega
    have hback : stringAt (s.text ++ nul :: s.behind) 0 = s.text := cstr_split s.clean
    rw [replaceFrom_eq_self hnone]
    exact hback
  · obtain ⟨n, hn, behind', put, htakes, hwithin, hlast⟩ :=
      replace_run [] s.behind [] hold hroom (s.text.length + 1) (by omega) s.clean
    have hrun := htakes.run_eq_some_iff.mpr ⟨hn, rfl⟩
    rw [hrun]
    constructor
    · rintro ⟨r, hr, hright⟩
      obtain rfl := Option.some.inj hr
      by_contra hcond
      rw [not_or, Int.not_lt] at hcond
      obtain ⟨hlong, -⟩ := hcond
      have hgrows : old.text.length < new.text.length := by
        by_contra hnot
        have hshrinks : (occurrences old.text (s.text.length + 1) s.text : Int) *
            ((new.text.length : Int) - old.text.length) ≤ 0 :=
          Int.mul_nonpos_of_nonneg_of_nonpos (Int.natCast_nonneg _) (by omega)
        omega
      have hsome : occurrences old.text (s.text.length + 1) s.text ≠ 0 := by
        intro hzero
        rw [hzero] at hlong
        omega
      obtain ⟨w, hw, hend⟩ := hlast hgrows hsome
      have hinside := hright.within w hw
      rw [List.length_nil] at hend
      omega
    · intro hcond
      have hfits : (replaceFrom old.text new.text (s.text.length + 1) s.text).length < s.size := by
        omega
      refine ⟨_, rfl, ?_, fun _ => ?_⟩
      · intro w hw
        have hw' := hwithin w hw
        rw [List.length_nil] at hw'
        omega
      · exact cstr_split (replaceFrom_clean s.clean new.clean)

def tenBytes : Buffer := ⟨"ab.ab.a".toList, [], 10, by decide, by decide, by decide⟩

theorem replace_right_shrinks : ∃ r, replace tenBytes "ab".toList "c".toList = some r ∧
    Right tenBytes "ab".toList "c".toList r :=
  (replace_right_iff tenBytes ⟨"ab".toList, by decide, by decide⟩ ⟨"c".toList, by decide, by decide⟩
    (by decide)).mpr (.inl (by decide))

/-- There is room for two more bytes, and each occurrence takes two more. -/
theorem replace_overruns : replace tenBytes "ab".toList "abcd".toList =
      some ("abcd.abcd.a".toList ++ [nul], [(4, 6), (0, 4), (9, 3), (5, 4)]) ∧
    ¬∃ r, replace tenBytes "ab".toList "abcd".toList = some r ∧
      Right tenBytes "ab".toList "abcd".toList r := by
  have hrun : replace tenBytes "ab".toList "abcd".toList =
      some ("abcd.abcd.a".toList ++ [nul], [(4, 6), (0, 4), (9, 3), (5, 4)]) := by decide +kernel
  refine ⟨hrun, fun ⟨r, hr, hright⟩ => ?_⟩
  obtain rfl := Option.some.inj (hrun.symm.trans hr)
  have hinside := hright.within (9, 3) (by decide)
  exact absurd hinside (by decide)

end ChatServices.Replace
