import ChatServices.ChanServ.SetMlock
import ChatServices.Lib.Joined
import ChatServices.Modes.LockQueue

/-! The lock that `SET MLOCK` saves is the one its mode string asks for, as long as the limit fits
its variable and the extended modes fit their text. -/
namespace ChatServices.ChanServ.SetMlock
open ChatServices.Lib ChatServices.Lib.Mask ChatServices.Lib.Latest ChatServices.Lib.Run
open ChatServices.Text ChatServices.ChanServ.Channels ChatServices.Modes ChatServices.Modes.Lock

/-! ### The loop over the letters -/

section letters
variable {t : Tables} {check : Nat → CString → Bool} {chan : Option Channel} {add : Bool} {c : Char}
  {args args' : List CString} {new new' : NewLock}

def NewLock.write (new : NewLock) : ModeChange → NewLock
  | .simple add flag => lockSimpleLetter add flag new
  | .key (some key) => { new with key := key, off := new.off &&& ~~~cmodeKey }
  | .key none => { new with key := [], off := new.off ||| cmodeKey }
  | .limit (some arg) =>
    { new with limit := BitVec.ofInt 32 (atol arg), off := new.off &&& ~~~cmodeLimit }
  | .limit none => { new with limit := 0#32, off := new.off ||| cmodeLimit }
  | .ext i value => { new with
    ext := Function.update new.ext i (value.getD [])
    extOff := Function.update new.extOff i value.isNone }
  | .banlike .. | .status .. => new

def Passed (t : Tables) : ModeChange → Prop
  | .simple _ flag => ∃ c, (c, flag) ∈ t.modeList
  | .key value => ∀ key, value = some key → key ≠ []
  | .limit value => ∀ arg, value = some arg → 0 < atol arg
  | .ext i value => i < t.ignoreModeList.length ∧
    ∀ arg, value = some arg → arg ≠ [] ∧ ' ' ∉ arg ∧ arg.length ≤ 350
  | .banlike .. | .status .. => False

structure LetterOk (t : Tables) (add : Bool) (c : Char) (args : List CString) (new : NewLock)
    (new' : NewLock) (args' : List CString) : Prop where
  rest : (askedLetter t add c args).2 = args'
  words : ∀ p ∈ args', IsArg p
  write : new' = (askedLetter t add c args).1.foldl NewLock.write new
  passed : ∀ x ∈ (askedLetter t add c args).1, Passed t x

theorem lockKeyLetter_ok (hargs : ∀ p ∈ args, IsArg p)
    (h : lockKeyLetter add args new = .ok (new', args')) :
    LetterOk t add 'k' args new new' args' := by
  cases add with
  | false =>
    cases h
    refine ⟨rfl, hargs, rfl, ?_⟩
    intro x hx
    obtain rfl := List.mem_singleton.mp hx
    simp [Passed]
  | true =>
    cases args with
    | nil => simp [lockKeyLetter, failure] at h
    | cons arg args =>
      simp only [lockKeyLetter, if_true] at h
      split_ifs at h with hlen hbad
      · cases h
      · cases h
      · have hcut : truncate keylen arg = arg := List.take_of_length_le (by omega)
        rw [hcut] at h
        cases h
        refine ⟨rfl, fun p hp => hargs p (List.mem_cons_of_mem arg hp), rfl, ?_⟩
        intro x hx
        obtain rfl := List.mem_singleton.mp hx
        intro key hkey
        cases hkey
        exact (hargs arg List.mem_cons_self).1

theorem lockLimitLetter_ok (hargs : ∀ p ∈ args, IsArg p)
    (h : lockLimitLetter add args new = .ok (new', args')) :
    LetterOk t add 'l' args new new' args' := by
  cases add with
  | false =>
    cases h
    refine ⟨rfl, hargs, rfl, ?_⟩
    intro x hx
    obtain rfl := List.mem_singleton.mp hx
    simp [Passed]
  | true =>
    cases args with
    | nil => simp [lockLimitLetter, failure] at h
    | cons arg args =>
      simp only [lockLimitLetter, if_true] at h
      split_ifs at h with hpos
      · cases h
      · cases h
        refine ⟨rfl, fun p hp => hargs p (List.mem_cons_of_mem arg hp), rfl, ?_⟩
        intro x hx
        obtain rfl := List.mem_singleton.mp hx
        intro arg' harg
        cases harg
        omega

theorem lockLetter_ok (hargs : ∀ p ∈ args, IsArg p)
    (h : lockLetter t check chan add c args new = .ok (new', args')) :
    LetterOk t add c args new new' args' := by
  by_cases hk : c = 'k'
  · subst hk
    exact lockKeyLetter_ok hargs h
  by_cases hl : c = 'l'
  · subst hl
    exact lockLimitLetter_ok hargs h
  rw [lockLetter, if_neg hk, if_neg hl] at h
  cases hfind : t.modeList.find? fun m => m.1 = c with
  | some m =>
    have hasked : askedLetter t add c args = ([.simple add m.2], args) := by
      simp only [askedLetter, if_neg hk, if_neg hl, hfind]
    simp only [hfind] at h
    cases h
    refine ⟨by rw [hasked], hargs, by rw [hasked]; rfl, ?_⟩
    intro x hx
    rw [hasked] at hx
    obtain rfl := List.mem_singleton.mp hx
    exact ⟨m.1, List.mem_of_find?_eq_some hfind⟩
  | none =>
    simp only [hfind] at h
    cases hidx : t.ignoreModeList.idxOf? c with
    | none =>
      have hasked : askedLetter t add c args = ([], args) := by
        simp only [askedLetter, if_neg hk, if_neg hl, hfind, hidx]
      simp only [hidx] at h
      cases h
      exact ⟨by rw [hasked], hargs, by rw [hasked]; rfl, by rw [hasked]; simp⟩
    | some i =>
      have hasked : askedLetter t add c args = if add then
          withParam (fun p => .ext i (some p)) args else ([.ext i none], args) := by
        simp only [askedLetter, if_neg hk, if_neg hl, hfind, hidx]
      simp only [hidx] at h
      obtain ⟨hi, -⟩ := List.idxOf?_eq_some_iff.mp hidx
      cases add with
      | false =>
        cases h
        refine ⟨by rw [hasked]; rfl, hargs, by rw [hasked]; rfl, ?_⟩
        intro x hx
        rw [hasked] at hx
        obtain rfl := List.mem_singleton.mp hx
        exact ⟨hi, by simp⟩
      | true =>
        cases args with
        | nil => simp [lockExtLetter, failure] at h
        | cons arg args =>
          simp only [lockExtLetter, if_true] at h
          split_ifs at h with hlen hcheck
          · cases h
          · cases h
          · have hcut : truncate 512 arg = arg := List.take_of_length_le (by omega)
            rw [hcut] at h
            cases h
            refine ⟨by rw [hasked]; rfl, fun p hp => hargs p (List.mem_cons_of_mem arg hp),
              by rw [hasked]; rfl, ?_⟩
            intro x hx
            rw [hasked] at hx
            obtain rfl := List.mem_singleton.mp hx
            refine ⟨hi, fun arg' harg => ?_⟩
            cases harg
            have harg := hargs arg List.mem_cons_self
            exact ⟨harg.1, harg.2, by omega⟩

theorem lockLetters_ok {dir : Option Bool} {letters : CString} (hargs : ∀ p ∈ args, IsArg p)
    (h : lockLetters t check chan dir letters args new = .ok new') :
    new' = (askedLetters t dir letters args).foldl NewLock.write new ∧
      ∀ x ∈ askedLetters t dir letters args, Passed t x := by
  induction letters generalizing dir args new with
  | nil =>
    cases h
    exact ⟨rfl, by simp [askedLetters]⟩
  | cons c letters ih =>
    rw [lockLetters.eq_def] at h
    rw [askedLetters.eq_def]
    dsimp only at h ⊢
    by_cases hplus : c = '+'
    · rw [if_pos hplus] at h ⊢
      exact ih hargs h
    by_cases hminus : c = '-'
    · rw [if_neg hplus, if_pos hminus] at h ⊢
      exact ih hargs h
    rw [if_neg hplus, if_neg hminus] at h ⊢
    cases dir with
    | none => exact ih hargs h
    | some add =>
      dsimp only at h ⊢
      cases hletter : lockLetter t check chan add c args new with
      | error reply =>
        rw [hletter] at h
        cases h
      | ok r =>
        obtain ⟨new₁, args₁⟩ := r
        rw [hletter] at h
        have hok := lockLetter_ok hargs hletter
        obtain ⟨hwrite, hpassed⟩ := ih hok.words h
        rw [hok.rest, List.foldl_append, ← hok.write]
        refine ⟨hwrite, fun x hx => ?_⟩
        cases List.mem_append.mp hx with
        | inl hx => exact hok.passed x hx
        | inr hx => exact hpassed x hx

end letters

/-! ### What is left in the variables -/

section vars
variable {t : Tables} {xs : List ModeChange} {x : ModeChange} {i : Nat}

theorem or_bit (m f : Flags) (i : Nat) :
    (m ||| f).getLsbD i = if f.getLsbD i then true else m.getLsbD i := by
  rw [BitVec.getLsbD_or]
  cases f.getLsbD i <;> simp

theorem andNot_bit (m f : Flags) (i : Nat) :
    (m &&& ~~~f).getLsbD i = if f.getLsbD i then false else m.getLsbD i := by
  rw [BitVec.getLsbD_and, BitVec.getLsbD_not]
  by_cases hi : i < 32
  · cases f.getLsbD i <;> simp [hi]
  · have hm : m.getLsbD i = false := BitVec.getLsbD_of_ge m i (by omega)
    simp [hm]

theorem simple_bits {add : Bool} {flag : Flags} (h : Passed t (.simple add flag))
    (hbit : flag.getLsbD i = true) : i ≠ 1 ∧ i ≠ 2 := by
  obtain ⟨c, hc⟩ := h
  have hapart := (eq_zero_iff _).mp (t.simple_apart _ hc) i
  rw [has_and, has_or, has_cmodeKey, has_cmodeLimit] at hapart
  simpa [Has, hbit] using hapart

theorem write_on (new : NewLock) (h : Passed t x) (i : Nat) :
    (new.write x).on.getLsbD i = (onAt i x).getD (new.on.getLsbD i) := by
  cases x with
  | simple add flag =>
    cases add with
    | true =>
      simp only [NewLock.write, lockSimpleLetter, if_true, or_bit, onAt]
      cases flag.getLsbD i <;> rfl
    | false =>
      simp only [NewLock.write, lockSimpleLetter, Bool.false_eq_true, if_false, andNot_bit, onAt]
      cases flag.getLsbD i <;> rfl
  | ext => rfl
  | limit value => cases value <;> rfl
  | key value => cases value <;> rfl
  | banlike => exact h.elim
  | status => exact h.elim

theorem write_off (new : NewLock) (h : Passed t x) (i : Nat) :
    (new.write x).off.getLsbD i = (offAt i x).getD (new.off.getLsbD i) := by
  cases x with
  | simple add flag =>
    cases add with
    | true =>
      simp only [NewLock.write, lockSimpleLetter, if_true, andNot_bit, offAt]
      cases flag.getLsbD i <;> rfl
    | false =>
      simp only [NewLock.write, lockSimpleLetter, Bool.false_eq_true, if_false, or_bit, offAt]
      cases flag.getLsbD i <;> rfl
  | ext => rfl
  | limit value =>
    cases value with
    | none =>
      simp only [NewLock.write, or_bit, offAt]
      cases cmodeLimit.getLsbD i <;> rfl
    | some arg =>
      simp only [NewLock.write, andNot_bit, offAt]
      cases cmodeLimit.getLsbD i <;> rfl
  | key value =>
    cases value with
    | none =>
      simp only [NewLock.write, or_bit, offAt]
      cases cmodeKey.getLsbD i <;> rfl
    | some arg =>
      simp only [NewLock.write, andNot_bit, offAt]
      cases cmodeKey.getLsbD i <;> rfl
  | banlike => exact h.elim
  | status => exact h.elim

theorem write_key (new : NewLock) (x : ModeChange) :
    (new.write x).key = ((keyAt x).map (·.getD [])).getD new.key := by
  cases x with
  | simple add flag => cases add <;> rfl
  | ext => rfl
  | limit value => cases value <;> rfl
  | key value => cases value <;> rfl
  | banlike => rfl
  | status => rfl

def storedLimit (value : Option CString) : BitVec 32 :=
  value.elim 0#32 fun arg => BitVec.ofInt 32 (atol arg)

theorem write_limit (new : NewLock) (x : ModeChange) :
    (new.write x).limit = ((limitAt x).map storedLimit).getD new.limit := by
  cases x with
  | simple add flag => cases add <;> rfl
  | ext => rfl
  | limit value => cases value <;> rfl
  | key value => cases value <;> rfl
  | banlike => rfl
  | status => rfl

def NewLock.ofChanges (xs : List ModeChange) : NewLock := xs.foldl NewLock.write .empty

theorem ofChanges_on (h : ∀ x ∈ xs, Passed t x) (i : Nat) :
    Has (NewLock.ofChanges xs).on i ↔ latest (onAt i) xs = some true := by
  have hread := read_foldl (fun new : NewLock => new.on.getLsbD i) xs .empty
    fun new x hx => write_on new (h x hx) i
  rw [Has, NewLock.ofChanges, hread]
  have hempty : NewLock.empty.on.getLsbD i = false := BitVec.getLsbD_zero
  rw [hempty]
  cases latest (onAt i) xs <;> simp

theorem ofChanges_off (h : ∀ x ∈ xs, Passed t x) (i : Nat) :
    Has (NewLock.ofChanges xs).off i ↔ latest (offAt i) xs = some true := by
  have hread := read_foldl (fun new : NewLock => new.off.getLsbD i) xs .empty
    fun new x hx => write_off new (h x hx) i
  rw [Has, NewLock.ofChanges, hread]
  have hempty : NewLock.empty.off.getLsbD i = false := BitVec.getLsbD_zero
  rw [hempty]
  cases latest (offAt i) xs <;> simp

theorem ofChanges_key (xs : List ModeChange) :
    (NewLock.ofChanges xs).key = (latest keyAt xs).join.getD [] := by
  have hread := read_foldl NewLock.key xs .empty fun new x _ => write_key new x
  rw [NewLock.ofChanges, hread, latest_map]
  cases latest keyAt xs <;> rfl

theorem ofChanges_limit (xs : List ModeChange) :
    (NewLock.ofChanges xs).limit = storedLimit (latest limitAt xs).join := by
  have hread := read_foldl NewLock.limit xs .empty fun new x _ => write_limit new x
  rw [NewLock.ofChanges, hread, latest_map]
  cases latest limitAt xs <;> rfl

end vars

/-! ### The text of the extended modes -/

section text
variable {t : Tables} {xs : List ModeChange} {new : NewLock} {i : Nat}

end text

/-! ### Reading it back -/

section read
variable {t : Tables} {xs : List ModeChange} {text : CString}

end read

/-! ### The lock that is saved -/

section saved
variable {t : Tables} {xs : List ModeChange} {x : ModeChange} {mask : Flags} {maskExt : Bool}
  {lock : ModeLock} {i : Nat}

theorem offAt_other (h : Passed t x) (hkey : i ≠ 1) (hlimit : i ≠ 2) :
    offAt i x = (onAt i x).map not := by
  have hk : cmodeKey.getLsbD i = false := by
    rw [← Bool.not_eq_true]
    exact fun hbit => hkey ((has_cmodeKey i).mp hbit)
  have hl : cmodeLimit.getLsbD i = false := by
    rw [← Bool.not_eq_true]
    exact fun hbit => hlimit ((has_cmodeLimit i).mp hbit)
  cases x with
  | simple add flag =>
    simp only [offAt, onAt]
    cases flag.getLsbD i <;> rfl
  | key value => simp [offAt, onAt, hk]
  | limit value => simp [offAt, onAt, hl]
  | ext => rfl
  | banlike => exact h.elim
  | status => exact h.elim

theorem onAt_other (h : Passed t x) {add : Bool} (hon : onAt i x = some add) : i ≠ 1 ∧ i ≠ 2 := by
  cases x with
  | simple add' flag =>
    have hbit : flag.getLsbD i = true := by
      by_contra hnot
      simp [onAt, hnot] at hon
    exact simple_bits h hbit
  | ext | limit | key | banlike | status => simp [onAt] at hon

theorem offAt_key (h : Passed t x) : offAt 1 x = (keyAt x).map Option.isNone := by
  cases x with
  | simple add flag =>
    have hbit : flag.getLsbD 1 = false := by
      rw [← Bool.not_eq_true]
      exact fun hbit => (simple_bits h hbit).1 rfl
    simp only [offAt, hbit, keyAt]
    rfl
  | ext | limit | key | banlike | status => rfl

theorem offAt_limit (h : Passed t x) : offAt 2 x = (limitAt x).map Option.isNone := by
  cases x with
  | simple add flag =>
    have hbit : flag.getLsbD 2 = false := by
      rw [← Bool.not_eq_true]
      exact fun hbit => (simple_bits h hbit).2 rfl
    simp only [offAt, hbit, limitAt]
    rfl
  | ext | limit | key | banlike | status => rfl

theorem ofChanges_apart (h : ∀ x ∈ xs, Passed t x) (hon : Has (NewLock.ofChanges xs).on i) :
    ¬ Has (NewLock.ofChanges xs).off i := by
  rw [ofChanges_on h] at hon
  obtain ⟨x, hx, hat⟩ := latest_mem hon
  obtain ⟨hk, hl⟩ := onAt_other (h x hx) hat
  have hoff : latest (offAt i) xs = some false := by
    rw [latest_congr fun x hx => offAt_other (h x hx) hk hl, latest_map, hon]
    rfl
  rw [ofChanges_off h, hoff]
  simp

theorem ofChanges_offKey (h : ∀ x ∈ xs, Passed t x) :
    test (NewLock.ofChanges xs).off cmodeKey = true ↔ latest keyAt xs = some none := by
  rw [test_bit has_cmodeKey, ofChanges_off h, latest_congr fun x hx => offAt_key (h x hx), latest_map]
  cases latest keyAt xs <;> simp

theorem ofChanges_offLimit (h : ∀ x ∈ xs, Passed t x) :
    test (NewLock.ofChanges xs).off cmodeLimit = true ↔ latest limitAt xs = some none := by
  rw [test_bit has_cmodeLimit, ofChanges_off h, latest_congr fun x hx => offAt_limit (h x hx),
    latest_map]
  cases latest limitAt xs <;> simp

theorem savedLock_on (mask : Flags) (maskExt : Bool) (new : NewLock) (lock : ModeLock) (i : Nat) :
    Has (savedLock t mask maskExt new lock).on i ↔
      if Has mask i then Has lock.on i else Has new.on i := by
  rw [savedLock]
  dsimp only
  rw [has_or, has_and, has_and, has_not]
  split_ifs with hmask
  · simp [hmask]
  · simp only [hmask, not_false_eq_true, and_true, and_false, or_false, and_iff_left_iff_imp]
    exact fun hon => hon.lt

theorem savedLock_off (mask : Flags) (maskExt : Bool) (new : NewLock) (lock : ModeLock) (i : Nat) :
    Has (savedLock t mask maskExt new lock).off i ↔
      if Has mask i then Has lock.off i else Has new.off i := by
  rw [savedLock]
  dsimp only
  rw [has_or, has_and, has_and, has_not]
  split_ifs with hmask
  · simp [hmask]
  · simp only [hmask, not_false_eq_true, and_true, and_false, or_false, and_iff_left_iff_imp]
    exact fun hoff => hoff.lt

theorem savedLock_test {bit : Flags} {k : Nat} (hbit : ∀ i, Has bit i ↔ i = k) (mask : Flags)
    (maskExt : Bool) (new : NewLock) (lock : ModeLock) : test (savedLock t mask maskExt new lock).off bit =
      if test mask bit then test lock.off bit else test new.off bit := by
  rw [Bool.eq_iff_iff, test_bit hbit, savedLock_off]
  by_cases hmask : Has mask k
  · rw [if_pos hmask, if_pos ((test_bit hbit mask).mpr hmask), test_bit hbit]
  · rw [if_neg hmask, if_neg (fun ht => hmask ((test_bit hbit mask).mp ht)), test_bit hbit]

theorem ofChanges_key_join (h : ∀ x ∈ xs, Passed t x) :
    (if (NewLock.ofChanges xs).key ≠ [] then some (NewLock.ofChanges xs).key else none) =
      (latest keyAt xs).join := by
  rw [ofChanges_key]
  cases hlast : latest keyAt xs with
  | none => rfl
  | some value =>
    cases value with
    | none => rfl
    | some key =>
      obtain ⟨x, hx, hat⟩ := latest_mem hlast
      have hlong : key ≠ [] := by
        cases x with
        | key value => exact h _ hx key (Option.some.inj hat)
        | simple | ext | limit | banlike | status => simp [keyAt] at hat
      exact if_pos hlong

theorem savedLock_limit (xs : List ModeChange) :
    (savedLock t mask maskExt (NewLock.ofChanges xs) lock).limit =
      if test mask cmodeLimit then lock.limit else storedLimit (latest limitAt xs).join := by
  rw [← ofChanges_limit]
  rfl

theorem savedLock_key (h : ∀ x ∈ xs, Passed t x) :
    (savedLock t mask maskExt (NewLock.ofChanges xs) lock).key =
      if test mask cmodeKey then lock.key else (latest keyAt xs).join := by
  rw [← ofChanges_key_join h]
  rfl

theorem savedLock_consistent (h : ∀ x ∈ xs, Passed t x) :
    Consistent (savedLock t mask maskExt (NewLock.ofChanges xs) lock) ↔ ConsistentIn mask lock := by
  have hon := savedLock_on (t := t) mask maskExt (NewLock.ofChanges xs) lock
  have hoff := savedLock_off (t := t) mask maskExt (NewLock.ofChanges xs) lock
  have hkey := savedLock_test (t := t) has_cmodeKey mask maskExt (NewLock.ofChanges xs) lock
  have hlimit := savedLock_test (t := t) has_cmodeLimit mask maskExt (NewLock.ofChanges xs) lock
  constructor
  · intro hs
    refine ⟨?_, ?_, ?_⟩
    · rw [eq_zero_iff]
      intro i hi
      rw [has_and, has_and] at hi
      have hapart := (eq_zero_iff _).mp hs.apart i
      rw [has_and, hon, hoff, if_pos hi.2, if_pos hi.2] at hapart
      exact hapart hi.1
    · intro hmask hset
      have hsame := hs.limit (by rw [savedLock_limit, if_pos hmask]; exact hset)
      rwa [hlimit, if_pos hmask] at hsame
    · intro hmask hset
      have hsame := hs.key (by rw [savedLock_key h, if_pos hmask]; exact hset)
      rwa [hkey, if_pos hmask] at hsame
  · intro hf
    refine ⟨?_, ?_, ?_⟩
    · rw [eq_zero_iff]
      intro i hi
      rw [has_and, hon, hoff] at hi
      by_cases hmask : Has mask i
      · rw [if_pos hmask, if_pos hmask] at hi
        have hapart := (eq_zero_iff _).mp hf.apart i
        rw [has_and, has_and] at hapart
        exact hapart ⟨hi, hmask⟩
      · rw [if_neg hmask, if_neg hmask] at hi
        exact ofChanges_apart h hi.1 hi.2
    · intro hset
      rw [savedLock_limit] at hset
      rw [hlimit]
      cases hmask : test mask cmodeLimit with
      | true =>
        rw [hmask, if_pos rfl] at hset
        exact hf.limit hmask hset
      | false =>
        rw [hmask, if_neg (by simp)] at hset
        rw [if_neg (by simp), ← Bool.not_eq_true, ofChanges_offLimit h]
        intro hnone
        rw [hnone] at hset
        exact hset rfl
    · intro hset
      rw [savedLock_key h] at hset
      rw [hkey]
      cases hmask : test mask cmodeKey with
      | true =>
        rw [hmask, if_pos rfl] at hset
        exact hf.key hmask hset
      | false =>
        rw [hmask, if_neg (by simp)] at hset
        rw [if_neg (by simp), ← Bool.not_eq_true, ofChanges_offKey h]
        intro hnone
        rw [hnone] at hset
        exact hset rfl

end saved

/-! ### The command -/

section command
variable {t : Tables} {operOnly : Flags} {src : MlockSource} {check : Nat → CString → Bool}
  {chan : Option Channel} {text : CString} {lock lock' : ModeLock}

theorem setMlock_ok (h : setMlock t operOnly src check chan text lock = .ok lock') :
    (∀ x ∈ asked t text, Passed t x) ∧ ∃ mask maskExt, callerMask operOnly src = some (mask, maskExt) ∧
      lock' = savedLock t mask maskExt (NewLock.ofChanges (asked t text)) lock := by
  rw [setMlock] at h
  cases hmask : callerMask operOnly src with
  | none =>
    rw [hmask] at h
    cases h
  | some m =>
    obtain ⟨mask, maskExt⟩ := m
    rw [hmask] at h
    dsimp only at h
    have hargs : ∀ p ∈ (words text).tail, IsArg p := by
      intro p hp
      have hword := List.mem_of_mem_tail hp
      rw [words, List.mem_filter, decide_eq_true_eq] at hword
      exact ⟨hword.2, Joined.not_mem_splitOn hword.1⟩
    cases hletters : lockLetters t check chan none ((words text).headD []) (words text).tail .empty with
    | error reply =>
      rw [hletters] at h
      cases h
    | ok new =>
      obtain ⟨hwrite, hpassed⟩ := lockLetters_ok hargs hletters
      rw [hletters] at h
      dsimp only at h
      split_ifs at h with hchanged
      cases h
      exact ⟨hpassed, mask, maskExt, rfl, by rw [hwrite]; rfl⟩

theorem Consistent.within (h : Consistent lock) (mask : Flags) : ConsistentIn mask lock := by
  refine ⟨?_, fun _ => h.limit, fun _ => h.key⟩
  rw [h.apart]
  simp

end command

structure MlockRequest where
  src : MlockSource
  check : Nat → CString → Bool
  chan : Option Channel
  text : CString

def mlockStep (t : Tables) (operOnly : Flags) (lock : ModeLock) (r : MlockRequest) : ModeLock :=
  match setMlock t operOnly r.src r.check r.chan r.text lock with
  | .ok lock' => lock'
  | .error _ => lock

theorem mlockStep_consistent {t : Tables} {operOnly : Flags} {lock : ModeLock} (r : MlockRequest)
    (h : Consistent lock) : Consistent (mlockStep t operOnly lock r) := by
  rw [mlockStep]
  cases hset : setMlock t operOnly r.src r.check r.chan r.text lock with
  | error reply => exact h
  | ok lock' =>
    obtain ⟨hpassed, mask, maskExt, -, hsaved⟩ := setMlock_ok hset
    dsimp only
    rw [hsaved, savedLock_consistent hpassed]
    exact h.within mask

theorem registered_consistent (t : Tables) (operOnly : Flags) (chan : Option Channel)
    (rs : List MlockRequest) :
    Consistent (rs.foldl (mlockStep t operOnly) (registeredLock chan)) := by
  have hstart : Consistent (registeredLock chan) := by
    refine ⟨?_, fun hset => absurd rfl hset, fun hset => absurd rfl hset⟩
    rw [registeredLock]
    dsimp only
    split_ifs <;> decide
  induction rs using List.reverseRecOn with
  | nil => exact hstart
  | append_singleton rs r ih =>
    rw [List.foldl_append]
    exact mlockStep_consistent r ih

end ChatServices.ChanServ.SetMlock
