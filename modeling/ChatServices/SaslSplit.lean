import ChatServices.SaslMech
import ChatServices.Lib.Scan

/-! How PLAIN and AUTHCOOKIE take a message apart: what they read of it, what they write to their
buffers of 256 bytes, and the three fields. PLAIN searches within the length of the message, AUTHCOOKIE
calls string functions that stop at a NUL only. -/
namespace ChatServices.Sasl
open ChatServices.Lib ChatServices.Text

inductive Access where
  | read (start count : Nat)
  | write (start count : Nat)
  deriving DecidableEq

def fieldSize : Nat := 256

def Access.InBounds (len : Nat) : Access → Prop
  | .read start count => start + count ≤ len
  | .write start count => start + count ≤ fieldSize

def sizeSub (len n : Nat) : Nat := (len + 2 ^ 64 - n) % 2 ^ 64

def failIf (c : Prop) [Decidable c] : Scan Access Unit := if c then Scan.fail else pure ()

/-! ### The C functions, at an offset in memory -/

def memchr (memory : CString) (off len : Nat) : Scan Access (Option Nat) :=
  match splitNul ((memory.drop off).take len) with
  | some (before, _) => ⟨[.read off (before.length + 1)], some (some before.length)⟩
  | none => ⟨[.read off len], some none⟩

def memcpy (memory : CString) (off n : Nat) : Scan Access CString :=
  ⟨[.read off n, .write 0 n], some ((memory.drop off).take n)⟩

def putByte (n : Nat) : Scan Access Unit := ⟨[.write n 1], some ()⟩

def strlen (memory : CString) (off : Nat) : Scan Access Nat :=
  ⟨[.read off ((cstr (memory.drop off)).length + 1)], some (cstr (memory.drop off)).length⟩

def strcpy (memory : CString) (off : Nat) : Scan Access CString :=
  let s := cstr (memory.drop off)
  ⟨[.read off (s.length + 1), .write 0 (s.length + 1)], some s⟩

def strlcpy (memory : CString) (off size : Nat) (stale : CString) : Scan Access CString :=
  let s := cstr (memory.drop off)
  let n := min s.length (size - 1)
  if size = 0 then ⟨[.read off (s.length + 1)], some (cstr stale)⟩
  else ⟨[.read off (s.length + 1), .read off n, .write 0 (n + 1)], some (s.take n)⟩

/-! ### PLAIN -/

abbrev Fields := CString × CString × CString

def copyField (message : CString) (off len : Nat) : Scan Access (CString × Nat × Nat) := do
  match ← memchr message off len with
  | none => Scan.fail
  | some n =>
    failIf (n > 255)
    let len := sizeSub len (n + 1)
    failIf (len = 0)
    let field ← memcpy message off (n + 1)
    return (cstr field, off + (n + 1), len)

def copyPassword (message : CString) (off len : Nat) : Scan Access CString := do
  let n := (← memchr message off len).getD len
  failIf (n > 255)
  let pass ← memcpy message off n
  putByte n
  return cstr pass

/-- PLAIN `mech_step` up to "Done dissecting, now check". -/
def plainScan (message : CString) : Scan Access Fields := do
  let (authz, off, len) ← copyField message 0 message.length
  let (authc, off, len) ← copyField message off len
  let pass ← copyPassword message off len
  return (authz, authc, pass)

/-! ### AUTHCOOKIE -/

def copyString (memory : CString) (off len : Nat) : Scan Access (CString × Nat × Nat) := do
  let n ← strlen memory off
  failIf (n > 255)
  let len := sizeSub len (n + 1)
  failIf (len = 0)
  let field ← strcpy memory off
  return (field, off + (n + 1), len)

def copyCookie (memory : CString) (off len : Nat) (stale : CString) : Scan Access CString := do
  let n ← strlen memory off
  failIf (n > 255)
  strlcpy memory off ((len + 1) % 2 ^ 64) stale

/-- AUTHCOOKIE `mech_step` up to "Done dissecting, now check". -/
def authcookieScan (message after stale : CString) : Scan Access Fields := do
  let memory := message ++ after
  let (authz, off, len) ← copyString memory 0 message.length
  let (authc, off, len) ← copyString memory off len
  let cookie ← copyCookie memory off len stale
  return (authz, authc, cookie)

/-! ### What they are to do -/

/-- The message is authzid NUL authcid NUL secret; the secret ends at its first NUL, and is `rest` with
what follows that. -/
structure IsSplit (message : CString) (f : Fields) (rest : CString) : Prop where
  text : message = f.1 ++ nul :: (f.2.1 ++ nul :: rest)
  authz : nul ∉ f.1 ∧ f.1.length ≤ 255
  authc : nul ∉ f.2.1 ∧ f.2.1.length ≤ 255
  secret : f.2.2 = cstr rest ∧ f.2.2.length ≤ 255

structure SplitsExactly (message : CString) (x : Scan Access Fields) : Prop where
  inBounds : x.Within (Access.InBounds message.length)
  fields : ∀ f, x.result = some f ↔ ∃ rest, IsSplit message f rest

structure SplitsSecret (message : CString) (x : Scan Access Fields) : Prop where
  inBounds : x.Within (Access.InBounds message.length)
  fields : ∀ f, x.result = some f ↔ ∃ rest, IsSplit message f rest ∧ rest ≠ []

/-- Each string that AUTHCOOKIE measures, `k` at most, ends in the message. -/
def Ended : Nat → CString → Prop
  | 0, _ => True
  | k + 1, s =>
    match splitNul s with
    | none => False
    | some (field, rest) => field.length ≤ 255 → rest ≠ [] → Ended k rest

/-- A decoded message, with its length in a `size_t`. -/
structure Decoded where
  bytes : CString
  size : bytes.length < 2 ^ 64

def firstField (s : CString) : Option (CString × CString) :=
  (splitNul s).bind fun p => if p.1.length ≤ 255 ∧ p.2 ≠ [] then some p else none

def fieldsOf (message : CString) : Option Fields :=
  (firstField message).bind fun p => (firstField p.2).bind fun q =>
    if (cstr q.2).length ≤ 255 then some (p.1, q.1, cstr q.2) else none

section split
variable {message memory field rest s : CString} {off len : Nat}

theorem splitNul_eq_some_iff : splitNul s = some (field, rest) ↔
    s = field ++ nul :: rest ∧ nul ∉ field := by
  induction s generalizing field with
  | nil => simp [splitNul]
  | cons c s ih =>
    rw [splitNul]
    by_cases hc : c = nul
    · rw [if_pos hc]
      cases field with
      | nil => simp [hc, eq_comm]
      | cons d field =>
        simp only [Option.some.injEq, Prod.mk.injEq, reduceCtorEq, false_and, List.cons_append,
          List.cons.injEq, List.mem_cons, not_or, false_iff, not_and, not_not]
        rintro ⟨rfl, -⟩ hd
        exact absurd hc.symm hd
    · rw [if_neg hc]
      cases field with
      | nil => simp [hc]
      | cons d field =>
        have hmap : (Option.map (fun p : CString × CString => (c :: p.1, p.2)) (splitNul s) =
            some (d :: field, rest)) ↔ c = d ∧ splitNul s = some (field, rest) := by
          cases splitNul s with
          | none => simp
          | some p =>
            obtain ⟨a, b⟩ := p
            simp only [Option.map_some, Option.some.injEq, Prod.mk.injEq, List.cons.injEq]
            tauto
        rw [hmap, ih]
        simp only [List.cons_append, List.cons.injEq, List.mem_cons, not_or]
        constructor
        · rintro ⟨rfl, hs, hfield⟩
          exact ⟨⟨rfl, hs⟩, fun h => hc h.symm, hfield⟩
        · rintro ⟨⟨rfl, hs⟩, -, hfield⟩
          exact ⟨rfl, hs, hfield⟩

theorem splitNul_eq_none_iff : splitNul s = none ↔ nul ∉ s := by
  induction s with
  | nil => simp [splitNul]
  | cons c s ih =>
    rw [splitNul]
    by_cases hc : c = nul
    · simp [hc]
    · rw [if_neg hc, Option.map_eq_none_iff, ih, List.mem_cons, not_or]
      exact ⟨fun h => ⟨fun h' => hc h'.symm, h⟩, And.right⟩

theorem sizeSub_eq {n : Nat} (h : n ≤ len) (hlen : len < 2 ^ 64) : sizeSub len n = len - n := by
  rw [sizeSub]
  omega

theorem failIf_false {c : Prop} [Decidable c] {α : Type} (h : ¬c) (x : Unit → Scan Access α) :
    (failIf c >>= x) = x () := by
  rw [failIf, if_neg h]
  rfl

theorem failIf_true {c : Prop} [Decidable c] {α : Type} (h : c) (x : Unit → Scan Access α) :
    (failIf c >>= x) = Scan.fail := by
  rw [failIf, if_pos h]
  rfl

/-! ### PLAIN -/

theorem copyField_some (hdrop : message.drop off = field ++ nul :: rest) (hfield : nul ∉ field)
    (hlen : len = field.length + 1 + rest.length) (hsize : len < 2 ^ 64) :
    copyField message off len = if field.length ≤ 255 ∧ rest ≠ [] then
      ⟨[.read off (field.length + 1), .read off (field.length + 1), .write 0 (field.length + 1)],
        some (field, off + (field.length + 1), rest.length)⟩
      else ⟨[.read off (field.length + 1)], none⟩ := by
  have htake : (message.drop off).take len = field ++ nul :: rest := by
    rw [hdrop, List.take_of_length_le]
    simp only [List.length_append, List.length_cons]
    omega
  have hmemchr : memchr message off len =
      ⟨[.read off (field.length + 1)], some (some field.length)⟩ := by
    rw [memchr, htake, splitNul_eq_some_iff.mpr ⟨rfl, hfield⟩]
  have hsub : sizeSub len (field.length + 1) = rest.length := by
    rw [sizeSub_eq (by omega) hsize]
    omega
  have hcopy : cstr ((message.drop off).take (field.length + 1)) = field := by
    rw [hdrop, List.take_append, List.take_of_length_le (by omega), Nat.add_sub_cancel_left]
    exact cstr_split hfield
  rw [copyField, hmemchr, Scan.mk_bind]
  dsimp only
  rw [hsub]
  by_cases hlong : field.length > 255
  · rw [failIf_true hlong, if_neg (by omega)]
    rfl
  · rw [failIf_false hlong]
    by_cases hempty : rest.length = 0
    · rw [failIf_true hempty, if_neg (by simp [List.eq_nil_of_length_eq_zero hempty])]
      rfl
    · have hrest : rest ≠ [] := by
        rintro rfl
        exact hempty rfl
      rw [failIf_false hempty, if_pos ⟨by omega, hrest⟩, memcpy, Scan.mk_bind, hcopy]
      rfl

theorem copyField_none (hdrop : nul ∉ (message.drop off).take len) :
    copyField message off len = ⟨[.read off len], none⟩ := by
  rw [copyField, memchr, splitNul_eq_none_iff.mpr hdrop]
  rfl

theorem memchr_rest (hlen : (message.drop off).length = len) : ∃ count r,
    memchr message off len = ⟨[.read off count], some r⟩ ∧ count ≤ len ∧
      r.getD len = (cstr (message.drop off)).length := by
  have htake : (message.drop off).take len = message.drop off := List.take_of_length_le (by omega)
  rw [memchr, htake]
  cases hsplit : splitNul (message.drop off) with
  | none =>
    have hnot := splitNul_eq_none_iff.mp hsplit
    refine ⟨len, none, rfl, Nat.le_refl _, ?_⟩
    rw [(cstr_eq_self_iff _).mpr hnot, hlen]
    rfl
  | some p =>
    obtain ⟨field, rest⟩ := p
    obtain ⟨hdrop, hfield⟩ := splitNul_eq_some_iff.mp hsplit
    refine ⟨field.length + 1, some field.length, rfl, ?_, ?_⟩
    · rw [← hlen, hdrop, List.length_append, List.length_cons]
      omega
    · rw [hdrop, cstr_split hfield]
      rfl

theorem cstr_take_self (s : CString) : cstr (s.take (cstr s).length) = cstr s := by
  have hfront : s.take (cstr s).length = cstr s :=
    List.prefix_iff_eq_take.mp (List.takeWhile_prefix _) |>.symm
  rw [hfront]
  exact (cstr_eq_self_iff _).mpr (nul_notMem_cstr s)

theorem copyPassword_spec (hlen : (message.drop off).length = len) :
    (copyPassword message off len).Within (Access.InBounds (off + len)) ∧
      (copyPassword message off len).result =
        if (cstr (message.drop off)).length ≤ 255 then some (cstr (message.drop off)) else none := by
  obtain ⟨count, r, hmemchr, hcount, hend⟩ := memchr_rest hlen
  have hle := length_cstr_le (message.drop off)
  rw [copyPassword, hmemchr, Scan.mk_bind]
  dsimp only
  rw [hend]
  by_cases hlong : (cstr (message.drop off)).length > 255
  · rw [failIf_true hlong, if_neg (by omega)]
    refine ⟨?_, rfl⟩
    simp only [Scan.Within, Scan.fail, List.append_nil, List.mem_singleton, forall_eq,
      Access.InBounds]
    omega
  · rw [failIf_false hlong, if_pos (by omega), memcpy, Scan.mk_bind, putByte, Scan.mk_bind,
      cstr_take_self]
    refine ⟨?_, rfl⟩
    simp only [Scan.Within, Scan.pure_accesses, List.append_nil, List.cons_append, List.nil_append,
      List.forall_mem_cons, List.not_mem_nil, false_imp_iff, implies_true, and_true,
      Access.InBounds, fieldSize]
    omega

theorem copyField_spec (hlen : (message.drop off).length = len) (hsize : len < 2 ^ 64) :
    (copyField message off len).Within (Access.InBounds (off + len)) ∧
      (copyField message off len).result = (firstField (message.drop off)).map fun p =>
        (p.1, off + (p.1.length + 1), p.2.length) := by
  rw [firstField]
  cases hsplit : splitNul (message.drop off) with
  | none =>
    have hnot := splitNul_eq_none_iff.mp hsplit
    rw [copyField_none fun hin => hnot (List.mem_of_mem_take hin)]
    refine ⟨?_, rfl⟩
    simp [Scan.Within, Access.InBounds]
  | some p =>
    obtain ⟨field, rest⟩ := p
    obtain ⟨hdrop, hfield⟩ := splitNul_eq_some_iff.mp hsplit
    have hsum : len = field.length + 1 + rest.length := by
      rw [← hlen, hdrop, List.length_append, List.length_cons]
      omega
    rw [copyField_some hdrop hfield hsum hsize, Option.bind_some]
    split
    · rename_i hgood
      refine ⟨?_, rfl⟩
      simp only [Scan.Within, List.forall_mem_cons, List.not_mem_nil, false_imp_iff, implies_true,
        and_true, Access.InBounds, fieldSize]
      omega
    · refine ⟨?_, rfl⟩
      simp only [Scan.Within, List.mem_singleton, forall_eq, Access.InBounds]
      omega

theorem firstField_eq_some_iff : firstField s = some (field, rest) ↔
    s = field ++ nul :: rest ∧ nul ∉ field ∧ field.length ≤ 255 ∧ rest ≠ [] := by
  rw [firstField, Option.bind_eq_some_iff]
  constructor
  · rintro ⟨p, hsplit, hp⟩
    split at hp
    · rename_i hgood
      obtain rfl := Option.some.inj hp
      obtain ⟨hs, hfield⟩ := splitNul_eq_some_iff.mp hsplit
      exact ⟨hs, hfield, hgood⟩
    · cases hp
  · rintro ⟨hs, hfield, hgood⟩
    exact ⟨(field, rest), splitNul_eq_some_iff.mpr ⟨hs, hfield⟩, if_pos hgood⟩

theorem fieldsOf_eq_some_iff {f : Fields} :
    fieldsOf message = some f ↔ ∃ rest, IsSplit message f rest ∧ rest ≠ [] := by
  obtain ⟨authz, authc, secret⟩ := f
  rw [fieldsOf, Option.bind_eq_some_iff]
  constructor
  · rintro ⟨⟨authz', behind⟩, hfirst, h⟩
    obtain ⟨⟨authc', rest⟩, hsecond, h⟩ := Option.bind_eq_some_iff.mp h
    obtain ⟨rfl, hauthz, hlen, -⟩ := firstField_eq_some_iff.mp hfirst
    obtain ⟨hbehind, hauthc, hlen', hrest⟩ := firstField_eq_some_iff.mp hsecond
    dsimp only at hbehind h
    split at h
    · rename_i hsecret
      simp only [Option.some.injEq, Prod.mk.injEq] at h
      obtain ⟨rfl, rfl, rfl⟩ := h
      exact ⟨rest, ⟨by rw [hbehind], ⟨hauthz, hlen⟩, ⟨hauthc, hlen'⟩, rfl, hsecret⟩, hrest⟩
    · cases h
  · rintro ⟨rest, ⟨htext, ⟨hauthz, hlen⟩, ⟨hauthc, hlen'⟩, hsecret, hlen''⟩, hrest⟩
    have hfirst := firstField_eq_some_iff.mpr ⟨htext, hauthz, hlen, by simp⟩
    have hsecond : firstField (authc ++ nul :: rest) = some (authc, rest) :=
      firstField_eq_some_iff.mpr ⟨rfl, hauthc, hlen', hrest⟩
    dsimp only at hsecret hlen''
    refine ⟨_, hfirst, Option.bind_eq_some_iff.mpr ⟨_, hsecond, ?_⟩⟩
    rw [← hsecret, if_pos hlen'']

theorem drop_of_split (hdrop : memory.drop off = field ++ nul :: rest) :
    memory.drop (off + (field.length + 1)) = rest := by
  rw [← List.drop_drop, hdrop, List.drop_append]
  simp

theorem splitNul_place {after : CString} (hdrop : memory.drop off = s ++ after)
    (h : splitNul s = some (field, rest)) :
    cstr (memory.drop off) = field ∧ s.length = field.length + 1 + rest.length ∧
      memory.drop (off + (field.length + 1)) = rest ++ after := by
  obtain ⟨hs, hfield⟩ := splitNul_eq_some_iff.mp h
  rw [hs, List.append_assoc, List.cons_append] at hdrop
  refine ⟨?_, ?_, drop_of_split hdrop⟩
  · rw [hdrop]
    exact cstr_split hfield
  · rw [hs, List.length_append, List.length_cons]
    omega

theorem firstField_place {after : CString} (hdrop : memory.drop off = s ++ after)
    (h : firstField s = some (field, rest)) :
    s.length = field.length + 1 + rest.length ∧ memory.drop (off + (field.length + 1)) = rest ++ after := by
  obtain ⟨hs, hfield, -⟩ := firstField_eq_some_iff.mp h
  exact (splitNul_place hdrop (splitNul_eq_some_iff.mpr ⟨hs, hfield⟩)).2

theorem plainScan_spec (hsize : message.length < 2 ^ 64) :
    (plainScan message).Within (Access.InBounds message.length) ∧
      (plainScan message).result = fieldsOf message := by
  have hwhole : (message.drop 0).length = message.length := rfl
  have hfirst := copyField_spec hwhole hsize
  rw [Nat.zero_add, List.drop_zero] at hfirst
  rw [plainScan, fieldsOf, Scan.within_bind, Scan.bind_result, hfirst.2]
  cases hauthz : firstField message with
  | none => exact ⟨⟨hfirst.1, by simp⟩, rfl⟩
  | some p =>
    obtain ⟨authz, behind⟩ := p
    have hdrop : message.drop 0 = message ++ [] := (List.append_nil message).symm
    obtain ⟨hlen, hbehind⟩ := firstField_place hdrop hauthz
    rw [List.append_nil] at hbehind
    have hsecond := copyField_spec (congrArg List.length hbehind) (by omega)
    have hend : 0 + (authz.length + 1) + behind.length = message.length := by omega
    rw [hbehind, hend] at hsecond
    simp only [Option.map_some, Option.some.injEq, forall_eq', Option.bind_some]
    rw [Scan.within_bind, Scan.bind_result, hsecond.2]
    cases hauthc : firstField behind with
    | none => exact ⟨⟨hfirst.1, hsecond.1, by simp⟩, rfl⟩
    | some q =>
      obtain ⟨authc, rest⟩ := q
      obtain ⟨hlen', hrest⟩ := firstField_place (hbehind.trans (List.append_nil behind).symm) hauthc
      rw [List.append_nil] at hrest
      have hpass := copyPassword_spec (congrArg List.length hrest)
      have hend' : 0 + (authz.length + 1) + (authc.length + 1) + rest.length = message.length := by
        omega
      rw [hrest, hend'] at hpass
      simp only [Option.map_some, Option.some.injEq, forall_eq', Option.bind_some]
      rw [Scan.within_bind, Scan.bind_result, hpass.2]
      refine ⟨⟨hfirst.1, hsecond.1, hpass.1, fun pass _ => by simp [Scan.Within]⟩, ?_⟩
      split <;> rfl

/-! ### AUTHCOOKIE -/

section authcookie
variable {after stale : CString} {k : Nat}

theorem ended_succ_iff : Ended (k + 1) s ↔ nul ∈ s ∧
    ∀ field rest, firstField s = some (field, rest) → Ended k rest := by
  rw [Ended, firstField]
  cases hsplit : splitNul s with
  | none => simp [splitNul_eq_none_iff.mp hsplit]
  | some p =>
    obtain ⟨field, rest⟩ := p
    have hmem : nul ∈ s := by
      rw [(splitNul_eq_some_iff.mp hsplit).1]
      simp
    by_cases hgood : field.length ≤ 255 ∧ rest ≠ []
    · simp [hmem, hgood]
    · simp only [hmem, hgood, Option.bind_some, if_false, reduceCtorEq, false_imp_iff, implies_true,
        and_true, iff_true]
      exact fun hle hne => absurd ⟨hle, hne⟩ hgood

theorem copyString_spec (hdrop : memory.drop off = s ++ after) (hnul : nul ∈ s)
    (hsize : s.length < 2 ^ 64) :
    (copyString memory off s.length).Within (Access.InBounds (off + s.length)) ∧
      (copyString memory off s.length).result = (firstField s).map fun p =>
        (p.1, off + (p.1.length + 1), p.2.length) := by
  cases hsplit : splitNul s with
  | none => exact absurd hnul (splitNul_eq_none_iff.mp hsplit)
  | some p =>
    obtain ⟨field, rest⟩ := p
    obtain ⟨hcstr, hsum, -⟩ := splitNul_place hdrop hsplit
    have hsub : sizeSub s.length (field.length + 1) = rest.length := by
      rw [sizeSub_eq (by omega) hsize]
      omega
    rw [firstField, hsplit, Option.bind_some]
    dsimp only
    rw [copyString, strlen, hcstr, Scan.mk_bind, hsub]
    by_cases hlong : field.length > 255
    · rw [failIf_true hlong, if_neg (by omega)]
      refine ⟨?_, rfl⟩
      simp only [Scan.Within, Scan.fail, List.append_nil, List.mem_singleton, forall_eq,
        Access.InBounds]
      omega
    · rw [failIf_false hlong]
      by_cases hempty : rest.length = 0
      · rw [failIf_true hempty, if_neg (by simp [List.eq_nil_of_length_eq_zero hempty])]
        refine ⟨?_, rfl⟩
        simp only [Scan.Within, Scan.fail, List.append_nil, List.mem_singleton, forall_eq,
          Access.InBounds]
        omega
      · have hrest : rest ≠ [] := by
          rintro rfl
          exact hempty rfl
        rw [failIf_false hempty, if_pos ⟨by omega, hrest⟩, strcpy, hcstr, Scan.mk_bind]
        refine ⟨?_, rfl⟩
        simp only [Scan.Within, Scan.pure_accesses, List.append_nil, List.cons_append,
          List.nil_append, List.forall_mem_cons, List.not_mem_nil, false_imp_iff, implies_true,
          and_true, Access.InBounds, fieldSize]
        omega

theorem strlen_beyond (hdrop : memory.drop off = s ++ after) (hnul : nul ∉ s) {α : Type}
    (f : Nat → Scan Access α) : ¬(strlen memory off >>= f).Within (Access.InBounds (off + s.length)) := by
  intro h
  have hread := h (.read off ((cstr (memory.drop off)).length + 1)) List.mem_cons_self
  have hlong : s.length ≤ (cstr (memory.drop off)).length := by
    have hself : cstr s = s := (cstr_eq_self_iff s).mpr hnul
    have hall : ∀ c ∈ s, decide (c ≠ nul) = true := by
      intro c hc
      have hne : c ≠ nul := fun heq => hnul (heq ▸ hc)
      simpa using hne
    rw [hdrop, cstr, List.takeWhile_append_of_pos hall, List.length_append]
    omega
  rw [Access.InBounds] at hread
  omega

theorem copyCookie_spec (stale : CString) (hdrop : memory.drop off = s ++ after) (hnul : nul ∈ s)
    (hsize : s.length + 1 < 2 ^ 64) :
    (copyCookie memory off s.length stale).Within (Access.InBounds (off + s.length)) ∧
      (copyCookie memory off s.length stale).result =
        if (cstr s).length ≤ 255 then some (cstr s) else none := by
  cases hsplit : splitNul s with
  | none => exact absurd hnul (splitNul_eq_none_iff.mp hsplit)
  | some p =>
    obtain ⟨field, rest⟩ := p
    obtain ⟨hs, hfield⟩ := splitNul_eq_some_iff.mp hsplit
    obtain ⟨hcstr, hsum, -⟩ := splitNul_place hdrop hsplit
    have hself : cstr s = field := by
      rw [hs]
      exact cstr_split hfield
    rw [copyCookie, strlen, hcstr, hself, Scan.mk_bind]
    by_cases hlong : field.length > 255
    · rw [failIf_true hlong, if_neg (by omega)]
      refine ⟨?_, rfl⟩
      simp only [Scan.Within, Scan.fail, List.append_nil, List.mem_singleton, forall_eq,
        Access.InBounds]
      omega
    · have hmod : (s.length + 1) % 2 ^ 64 = s.length + 1 := Nat.mod_eq_of_lt hsize
      have hmin : min field.length (s.length + 1 - 1) = field.length := by omega
      rw [failIf_false hlong, if_pos (by omega), hmod, strlcpy, hcstr, if_neg (by omega), hmin,
        List.take_length]
      refine ⟨?_, rfl⟩
      simp only [Scan.Within, List.cons_append, List.nil_append, List.forall_mem_cons,
        List.not_mem_nil, false_imp_iff, implies_true, and_true, Access.InBounds, fieldSize]
      omega

theorem authcookieScan_spec (hsize : message.length < 2 ^ 64) (hend : Ended 3 message) :
    (authcookieScan message after stale).Within (Access.InBounds message.length) ∧
      (authcookieScan message after stale).result = fieldsOf message := by
  obtain ⟨hnul, hend⟩ := ended_succ_iff.mp hend
  have hdrop : (message ++ after).drop 0 = message ++ after := rfl
  have hfirst := copyString_spec hdrop hnul hsize
  rw [Nat.zero_add] at hfirst
  rw [authcookieScan, fieldsOf]
  dsimp only
  rw [Scan.within_bind, Scan.bind_result, hfirst.2]
  cases hauthz : firstField message with
  | none => exact ⟨⟨hfirst.1, by simp⟩, rfl⟩
  | some p =>
    obtain ⟨authz, behind⟩ := p
    obtain ⟨hnul', hend⟩ := ended_succ_iff.mp (hend authz behind hauthz)
    obtain ⟨hlen, hbehind⟩ := firstField_place hdrop hauthz
    have hsecond := copyString_spec hbehind hnul' (by omega)
    have hsum : 0 + (authz.length + 1) + behind.length = message.length := by omega
    rw [hsum] at hsecond
    simp only [Option.map_some, Option.some.injEq, forall_eq', Option.bind_some]
    rw [Scan.within_bind, Scan.bind_result, hsecond.2]
    cases hauthc : firstField behind with
    | none => exact ⟨⟨hfirst.1, hsecond.1, by simp⟩, rfl⟩
    | some q =>
      obtain ⟨authc, rest⟩ := q
      have hnul'' := (ended_succ_iff.mp (hend authc rest hauthc)).1
      obtain ⟨hlen', hrest⟩ := firstField_place hbehind hauthc
      have hcookie := copyCookie_spec stale hrest hnul'' (by omega)
      have hsum' : 0 + (authz.length + 1) + (authc.length + 1) + rest.length = message.length := by
        omega
      rw [hsum'] at hcookie
      simp only [Option.map_some, Option.some.injEq, forall_eq', Option.bind_some]
      rw [Scan.within_bind, Scan.bind_result, hcookie.2]
      refine ⟨⟨hfirst.1, hsecond.1, hcookie.1, fun cookie _ => by simp [Scan.Within]⟩, ?_⟩
      split <;> rfl

theorem ended_of_within (hsize : message.length < 2 ^ 64)
    (h : (authcookieScan message after stale).Within (Access.InBounds message.length)) :
    Ended 3 message := by
  rw [authcookieScan] at h
  dsimp only at h
  obtain ⟨hfirst, h⟩ := Scan.within_bind.mp h
  have hnul : nul ∈ message := by
    by_contra hnot
    have hdrop : (message ++ after).drop 0 = message ++ after := rfl
    have hbeyond := strlen_beyond (α := CString × Nat × Nat) hdrop hnot
    rw [Nat.zero_add] at hbeyond
    exact hbeyond _ hfirst
  refine ended_succ_iff.mpr ⟨hnul, fun authz behind hauthz => ?_⟩
  have hdrop : (message ++ after).drop 0 = message ++ after := rfl
  have hresult := (copyString_spec hdrop hnul hsize).2
  rw [hauthz] at hresult
  obtain ⟨hlen, hbehind⟩ := firstField_place hdrop hauthz
  have hsum : 0 + (authz.length + 1) + behind.length = message.length := by omega
  obtain ⟨hsecond, h⟩ := Scan.within_bind.mp (h _ hresult)
  have hnul' : nul ∈ behind := by
    by_contra hnot
    have hbeyond := strlen_beyond (α := CString × Nat × Nat) hbehind hnot
    rw [hsum] at hbeyond
    exact hbeyond _ hsecond
  refine ended_succ_iff.mpr ⟨hnul', fun authc rest hauthc => ?_⟩
  have hresult' := (copyString_spec hbehind hnul' (by omega)).2
  rw [hauthc] at hresult'
  obtain ⟨hlen', hrest⟩ := firstField_place hbehind hauthc
  have hsum' : 0 + (authz.length + 1) + (authc.length + 1) + rest.length = message.length := by
    omega
  obtain ⟨hthird, -⟩ := Scan.within_bind.mp (h _ hresult')
  have hnul'' : nul ∈ rest := by
    by_contra hnot
    have hbeyond := strlen_beyond (α := CString) hrest hnot
    rw [hsum'] at hbeyond
    exact hbeyond _ hthird
  exact ended_succ_iff.mpr ⟨hnul'', fun _ _ _ => trivial⟩

end authcookie

/-- PLAIN takes every message apart in bounds, and gets to the check with exactly the fields of one that
has a secret; so does AUTHCOOKIE with messages whose strings end in them. -/
theorem splitting_exact (m : Decoded) (after stale : CString) :
    SplitsSecret m.bytes (plainScan m.bytes) ∧
      (Ended 3 m.bytes → SplitsSecret m.bytes (authcookieScan m.bytes after stale)) := by
  obtain ⟨hplain, hresult⟩ := plainScan_spec m.size
  refine ⟨⟨hplain, fun f => ?_⟩, fun hend => ?_⟩
  · rw [hresult]
    exact fieldsOf_eq_some_iff
  · obtain ⟨hcookie, hresult⟩ := authcookieScan_spec m.size hend
    refine ⟨hcookie, fun f => ?_⟩
    rw [hresult]
    exact fieldsOf_eq_some_iff

end split

def cookieMessage : Decoded := ⟨nul :: "bob".toList ++ nul :: "cookie".toList ++ [nul], by decide⟩

theorem splitting_exact_bob :
    SplitsSecret cookieMessage.bytes (authcookieScan cookieMessage.bytes [] []) := by
  refine (splitting_exact cookieMessage [] []).2 ?_
  simp [Ended, splitNul, cookieMessage, nul]

/-- An empty secret is refused although it has all three fields, and a cookie that does not end in a NUL
is read beyond the message. -/
theorem splitting_differs :
    (¬∀ m : Decoded, SplitsExactly m.bytes (plainScan m.bytes)) ∧
      ¬∀ (m : Decoded) (after stale : CString),
        SplitsExactly m.bytes (authcookieScan m.bytes after stale) := by
  constructor
  · intro h
    have hfields := (h ⟨['a', nul, 'b', nul], by decide⟩).fields (['a'], ['b'], [])
    have hresult := hfields.mpr ⟨[], rfl, by decide, by decide, by decide⟩
    revert hresult
    decide
  · intro h
    have hsize : ['a', nul, 'b', nul, 'c'].length < 2 ^ 64 := by decide
    have hended := ended_of_within hsize (h ⟨_, hsize⟩ [] []).inBounds
    revert hended
    simp [Ended, splitNul, nul]

end ChatServices.Sasl
