import ChatServices.Lib.InPlace
import ChatServices.Storage.Opensex
import Mathlib.Data.Nat.Digits.Lemmas

/-! Numbers written in the digits of base 36 and of the Natural Area Code, and read with `strtoul`.
The letters of the Natural Area Code leave out the vowels, those of `strtoul` do not. -/
namespace ChatServices.NumberCodecs
open ChatServices.Lib ChatServices.Text
open ChatServices.Storage (isSpace digitValue isDigitOf numberSign)

def base36 : CString := "0123456789ABCDEFGHIJKLMNOPQRSTUVWXYZ".toList

def naturalareacode : CString := "0123456789BCDFGHJKLMNPQRSTVWXZ".toList

/-- A `static char buffer[size]`, which holds whatever the call before left. -/
abbrev Buffer (size : Nat) := { buffer : CString // buffer.length = size }

def digitLoop (alphabet : CString) (base : Nat) : Nat → Nat → CString → Option (CString × Nat)
  | 0, _, _ => none
  | offset + 1, value, buffer =>
    let buffer := buffer.set offset (alphabet.getD (value % base) nul)
    if value / base = 0 then some (buffer, offset)
    else digitLoop alphabet base offset (value / base) buffer

/-- `strncpy (buffer, &buffer[offset], n)`, byte by byte from the front, from the place `i` on. The
flag says that the end of the text has been copied. -/
def strncpyLoop (offset : Nat) : Bool → Nat → Nat → CString → CString
  | _, _, 0, buffer => buffer
  | ended, i, n + 1, buffer =>
    let c := if ended then nul else buffer.getD (offset + i) nul
    strncpyLoop offset (ended || c = nul) (i + 1) n (buffer.set i c)

def encode (alphabet : CString) (base : Nat) {size : Nat} (buffer : Buffer size) (value : Nat) :
    Option CString :=
  let offset := size - 1
  match digitLoop alphabet base offset value (buffer.val.set offset nul) with
  | none => none
  | some (buffer, offset) => some (strncpyLoop offset false 0 size buffer)

/-- `strtoul (text, NULL, base)` for a base without a prefix. -/
def strtoul (base : Nat) (text : CString) : Nat :=
  let (neg, s) := numberSign (text.dropWhile isSpace)
  let n := (s.takeWhile (isDigitOf base)).foldl (fun n c => base * n + (digitValue c).getD 0) 0
  if n ≥ 2 ^ 64 then 2 ^ 64 - 1 else if neg then (2 ^ 64 - n) % 2 ^ 64 else n

def base36Encode (buffer : Buffer 14) (value : Nat) : Option CString :=
  encode base36 36 buffer value

def base36Decode (text : CString) : Nat := strtoul 36 text

def naturalareacodeEncode (buffer : Buffer 15) (value : Nat) : Option CString :=
  encode naturalareacode 30 buffer value

def naturalareacodeDecode (text : CString) : Nat := strtoul 30 text

/-! ### What an encoder writes -/

def digitsOf (base v : Nat) : List Nat := if v = 0 then [0] else (Nat.digits base v).reverse

section encoder
variable {alphabet : CString} {base v : Nat}

theorem digitsOf_small (h : v < base) : digitsOf base v = [v] := by
  rw [digitsOf]
  split_ifs with hv
  · rw [hv]
  · rw [Nat.digits_of_lt base v hv h]
    rfl

theorem digitsOf_step (hbase : 1 < base) (h : base ≤ v) :
    digitsOf base v = digitsOf base (v / base) ++ [v % base] := by
  have hv : v ≠ 0 := by omega
  have hdiv : v / base ≠ 0 := Nat.div_ne_zero_iff.mpr ⟨by omega, h⟩
  rw [digitsOf, digitsOf, if_neg hv, if_neg hdiv, Nat.digits_def' hbase (by omega),
    List.reverse_cons]

theorem digitsOf_lt (hbase : 1 < base) : ∀ d ∈ digitsOf base v, d < base := by
  intro d hd
  rw [digitsOf] at hd
  split_ifs at hd
  · rw [List.mem_singleton.mp hd]
    omega
  · exact Nat.digits_lt_base hbase (List.mem_reverse.mp hd)

theorem digitsOf_length (hbase : 1 < base) {k : Nat} (hk : 0 < k) (h : v < base ^ k) :
    (digitsOf base v).length ≤ k := by
  rw [digitsOf]
  split_ifs
  · exact hk
  · rw [List.length_reverse]
    exact (Nat.digits_length_le_iff hbase v).mpr h

theorem digitsOf_ne_nil : digitsOf base v ≠ [] := by
  rw [digitsOf]
  split_ifs with hv
  · exact List.cons_ne_nil _ _
  · rw [Ne, List.reverse_eq_nil_iff]
    exact Nat.digits_ne_nil_iff_ne_zero.mpr hv

def numeral (alphabet : CString) (base v : Nat) : CString :=
  (digitsOf base v).map fun d => alphabet.getD d nul

theorem digitLoop_eq (hbase : 1 < base) (offset v : Nat) (buffer : CString)
    (hroom : (digitsOf base v).length ≤ offset) (hlength : offset ≤ buffer.length) :
    ∃ front, digitLoop alphabet base offset v buffer =
      some (front ++ numeral alphabet base v ++ buffer.drop offset, front.length) ∧
        front.length + (digitsOf base v).length = offset := by
  induction offset generalizing v buffer with
  | zero =>
    have hne : 0 < (digitsOf base v).length := List.length_pos_iff.mpr digitsOf_ne_nil
    omega
  | succ offset ih =>
    have hlt : offset < buffer.length := hlength
    have hset : ∀ a : Char, buffer.set offset a =
        buffer.take offset ++ a :: buffer.drop (offset + 1) := by
      intro a
      rw [List.set_eq_take_append_cons_drop, if_pos hlt]
    have hfront : (buffer.take offset).length = offset := List.length_take_of_le (Nat.le_of_lt hlt)
    rw [digitLoop]
    by_cases hsmall : v < base
    · rw [if_pos (Nat.div_eq_of_lt hsmall), Nat.mod_eq_of_lt hsmall, hset, numeral,
        digitsOf_small hsmall]
      refine ⟨buffer.take offset, ?_, by rw [hfront]; rfl⟩
      rw [hfront, List.append_assoc]
      rfl
    · have hge : base ≤ v := Nat.le_of_not_lt hsmall
      have hdiv : v / base ≠ 0 := Nat.div_ne_zero_iff.mpr ⟨by omega, hge⟩
      have hdigits := digitsOf_step hbase hge
      rw [hdigits, List.length_append, List.length_singleton] at hroom ⊢
      obtain ⟨front, hloop, hlen⟩ := ih (v / base)
        (buffer.set offset (alphabet.getD (v % base) nul)) (by omega)
        (by rw [List.length_set]; exact Nat.le_of_lt hlt)
      have hdrop : (buffer.set offset (alphabet.getD (v % base) nul)).drop offset =
          alphabet.getD (v % base) nul :: buffer.drop (offset + 1) := by
        rw [hset]
        exact List.drop_left' hfront
      rw [if_neg hdiv, hloop, hdrop, numeral, numeral, hdigits, List.map_append]
      refine ⟨front, ?_, by omega⟩
      simp

theorem strncpyLoop_ended (offset : Nat) (written rest : CString) :
    strncpyLoop offset true written.length rest.length (written ++ rest) =
      written ++ List.replicate rest.length nul := by
  induction rest generalizing written with
  | nil => rfl
  | cons x rest ih =>
    have hset : (written ++ x :: rest).set written.length nul = (written ++ [nul]) ++ rest := by
      simp
    have hnext := ih (written ++ [nul])
    rw [List.length_append, List.length_singleton] at hnext
    rw [List.length_cons, strncpyLoop]
    rw [if_pos rfl, Bool.true_or, hset, hnext, List.replicate_succ, List.append_assoc]
    rfl

theorem strncpyLoop_eq (written gap text : CString) (htext : nul ∉ text) :
    strncpyLoop gap.length false written.length (gap.length + (text.length + 1))
      (written ++ gap ++ (text ++ [nul])) =
        written ++ text ++ List.replicate (gap.length + 1) nul := by
  have hread : ∀ (written gap : CString) (c : Char) (tail : CString),
      (written ++ gap ++ c :: tail).getD (gap.length + written.length) nul = c := by
    intro written gap c tail
    have hat : gap.length + written.length = (written ++ gap).length := by simp [Nat.add_comm]
    rw [hat, List.getD_eq_getElem?_getD, List.getElem?_append_right (Nat.le_refl _), Nat.sub_self]
    rfl
  induction text generalizing written gap with
  | nil =>
    obtain ⟨gap', hgap, hset⟩ := InPlace.set_placed written gap (List.cons_ne_nil nul []) [] nul
    have hfill := strncpyLoop_ended gap.length (written ++ [nul]) gap'
    rw [List.length_append, List.length_singleton] at hfill
    have hsame : gap'.length = gap.length := by simpa using hgap
    rw [List.append_nil, List.append_nil] at hset
    rw [hsame] at hfill
    rw [List.length_nil, List.nil_append, Nat.zero_add, strncpyLoop, if_neg Bool.false_ne_true,
      hread, hset, decide_eq_true rfl, Bool.or_true, hfill]
    simp [List.replicate_succ]
  | cons c text ih =>
    rw [List.mem_cons, not_or] at htext
    obtain ⟨gap', hgap, hset⟩ := InPlace.set_placed written gap (List.cons_ne_nil c [])
      (text ++ [nul]) c
    have hsame : gap'.length = gap.length := by simpa using hgap
    have hmove := ih (written ++ [c]) gap' htext.2
    rw [hsame, List.length_append, List.length_singleton] at hmove
    have hne : decide (c = nul) = false := decide_eq_false (Ne.symm htext.1)
    rw [List.length_cons, List.cons_append, ← Nat.add_assoc, strncpyLoop,
      if_neg Bool.false_ne_true, hread, hne, Bool.or_false]
    have hset' : (written ++ gap ++ c :: (text ++ [nul])).set written.length c =
        written ++ [c] ++ gap' ++ (text ++ [nul]) := hset
    rw [hset', hmove]
    simp

theorem encode_text {size : Nat} (hbase : 1 < base) (hclean : ∀ d < base, alphabet.getD d nul ≠ nul)
    (hsize : 0 < size) (h : v < base ^ (size + 1 - 1)) (buffer : Buffer (size + 1)) :
    ∃ out, encode alphabet base buffer v = some out ∧ cstr out = numeral alphabet base v := by
  have hlength : (buffer.val.set size nul).length = size + 1 := by
    rw [List.length_set, buffer.property]
  have hdrop : (buffer.val.set size nul).drop size = [nul] := by
    have hlt : size < buffer.val.length := by rw [buffer.property]; exact Nat.lt_succ_self _
    rw [List.set_eq_take_append_cons_drop, if_pos hlt,
      List.drop_left' (List.length_take_of_le (Nat.le_of_lt hlt)),
      List.drop_eq_nil_of_le (Nat.le_of_eq buffer.property)]
  obtain ⟨front, hloop, hfront⟩ :
      ∃ front, digitLoop alphabet base size v (buffer.val.set size nul) = some _ ∧ _ :=
    digitLoop_eq hbase size v (buffer.val.set size nul) (digitsOf_length hbase hsize h)
      (by rw [hlength]; exact Nat.le_succ _)
  have htext : nul ∉ numeral alphabet base v := by
    intro hmem
    obtain ⟨d, hd, hnul⟩ := List.mem_map.mp hmem
    exact hclean d (digitsOf_lt hbase d hd) hnul
  have hmove := strncpyLoop_eq [] front (numeral alphabet base v) htext
  have htotal : front.length + ((numeral alphabet base v).length + 1) = size + 1 := by
    rw [numeral, List.length_map]
    omega
  rw [htotal, List.nil_append, List.nil_append, List.length_nil] at hmove
  refine ⟨numeral alphabet base v ++ List.replicate (front.length + 1) nul, ?_, ?_⟩
  · rw [encode]
    simp only [Nat.add_sub_cancel]
    rw [hloop, hdrop, List.append_assoc]
    exact congrArg some hmove
  · rw [List.replicate_succ, cstr_split htext]

end encoder

/-! ### What `strtoul` reads -/

section reader
variable {alphabet : CString} {base v : Nat}

theorem foldl_ofDigits (base : Nat) (ds : List Nat) :
    ds.foldl (fun n d => base * n + d) 0 = Nat.ofDigits base ds.reverse := by
  rw [Nat.ofDigits_eq_foldr, List.foldr_reverse]
  simp only [Nat.cast_id, Nat.add_comm]

theorem ofDigits_digitsOf (base v : Nat) : Nat.ofDigits base (digitsOf base v).reverse = v := by
  rw [digitsOf]
  split_ifs with hv
  · rw [hv]
    rfl
  · rw [List.reverse_reverse, Nat.ofDigits_digits]

def PlainLetters (alphabet : CString) (base : Nat) : Prop :=
  ∀ d < base, isSpace (alphabet.getD d nul) = false ∧ alphabet.getD d nul ≠ '-' ∧
    alphabet.getD d nul ≠ '+' ∧ alphabet.getD d nul ≠ nul

instance : Decidable (PlainLetters alphabet base) := inferInstanceAs (Decidable (∀ d < base, _))

def readAs (alphabet : CString) (d : Nat) : Nat := (digitValue (alphabet.getD d nul)).getD 0

def isRead (alphabet : CString) (base d : Nat) : Bool := isDigitOf base (alphabet.getD d nul)

theorem strtoul_numeral (hbase : 1 < base) (hplain : PlainLetters alphabet base) :
    strtoul base (numeral alphabet base v) = min (2 ^ 64 - 1) (Nat.ofDigits base
      (((digitsOf base v).takeWhile (isRead alphabet base)).map (readAs alphabet)).reverse) := by
  have hread : ((numeral alphabet base v).takeWhile (isDigitOf base)).foldl
      (fun n c => base * n + (digitValue c).getD 0) 0 = Nat.ofDigits base
        (((digitsOf base v).takeWhile (isRead alphabet base)).map (readAs alphabet)).reverse := by
    rw [numeral, List.takeWhile_map, List.foldl_map, ← foldl_ofDigits, List.foldl_map]
    rfl
  cases hdigits : digitsOf base v with
  | nil => exact absurd hdigits digitsOf_ne_nil
  | cons d ds =>
    have hd : d < base := digitsOf_lt hbase d (by rw [hdigits]; exact List.mem_cons_self)
    obtain ⟨hspace, hminus, hplus, -⟩ := hplain d hd
    have htext : numeral alphabet base v =
        alphabet.getD d nul :: ds.map fun d => alphabet.getD d nul := by rw [numeral, hdigits]; rfl
    have hkeep : (numeral alphabet base v).dropWhile isSpace = numeral alphabet base v := by
      rw [htext, List.dropWhile_cons_of_neg (by rw [hspace]; exact Bool.false_ne_true)]
    have hsign : numberSign (numeral alphabet base v) = (false, numeral alphabet base v) := by
      rw [htext]
      unfold numberSign
      split
      · rename_i heq
        exact absurd (List.cons.inj heq).1 hminus
      · rename_i heq
        exact absurd (List.cons.inj heq).1 hplus
      · rfl
    rw [strtoul, hkeep, hsign]
    dsimp only
    rw [hread, ← hdigits, if_neg Bool.false_ne_true]
    split_ifs <;> omega

theorem strtoul_faithful (hbase : 1 < base) (hplain : PlainLetters alphabet base)
    (hds : ∀ d ∈ digitsOf base v, isRead alphabet base d = true ∧ readAs alphabet d = d)
    (hv : v < 2 ^ 64) : strtoul base (numeral alphabet base v) = v := by
  have htake : (digitsOf base v).takeWhile (isRead alphabet base) = digitsOf base v :=
    List.takeWhile_eq_self_iff.mpr fun d hd => (hds d hd).1
  have hmap : (digitsOf base v).map (readAs alphabet) = digitsOf base v := by
    rw [List.map_congr_left fun d hd => (hds d hd).2, List.map_id']
  rw [strtoul_numeral hbase hplain, htake, hmap, ofDigits_digitsOf]
  omega

theorem numeral_injective {w : Nat} (hbase : 1 < base)
    (hletters : ∀ d < base, alphabet.idxOf (alphabet.getD d nul) = d)
    (h : numeral alphabet base v = numeral alphabet base w) : v = w := by
  have hback : ∀ v, (numeral alphabet base v).map alphabet.idxOf = digitsOf base v := by
    intro v
    have hindex : ∀ d ∈ digitsOf base v,
        (alphabet.idxOf ∘ fun d => alphabet.getD d nul) d = d := fun d hd =>
      hletters d (digitsOf_lt hbase d hd)
    rw [numeral, List.map_map, List.map_congr_left hindex, List.map_id']
  rw [← ofDigits_digitsOf base v, ← hback v, h, hback w, ofDigits_digitsOf]

end reader

/-! ### The two codecs -/

section codecs
variable {v : Nat}

theorem base36_plain : PlainLetters base36 36 := by decide +kernel

theorem naturalareacode_plain : PlainLetters naturalareacode 30 := by decide +kernel

theorem base36_read : ∀ d < 36, isRead base36 36 d = true ∧ readAs base36 d = d := by decide +kernel

theorem naturalareacode_read : ∀ d < 30,
    (d < 10 → isRead naturalareacode 30 d = true ∧ readAs naturalareacode d = d) ∧
    (10 ≤ d → isRead naturalareacode 30 d = true →
      d < readAs naturalareacode d ∧ readAs naturalareacode d < 30) := by decide +kernel

theorem ofDigits_lt_of_readAs {base : Nat} {f : Nat → Nat} {ds : List Nat} (hbase : 0 < base)
    (hle : ∀ d ∈ ds, d ≤ f d) (hlt : ∃ d ∈ ds, d < f d) :
    Nat.ofDigits base ds < Nat.ofDigits base (ds.map f) := by
  induction ds with
  | nil =>
    obtain ⟨d, hd, -⟩ := hlt
    cases hd
  | cons d ds ih =>
    rw [List.forall_mem_cons] at hle
    have htail : Nat.ofDigits base ds ≤ Nat.ofDigits base (ds.map f) := by
      by_cases hmore : ∃ e ∈ ds, e < f e
      · exact Nat.le_of_lt (ih hle.2 hmore)
      · have hsame : ds.map f = ds := by
          have heach : ∀ e ∈ ds, f e = e := fun e he => by
            have hup := hle.2 e he
            have hnot : ¬e < f e := fun hup => hmore ⟨e, he, hup⟩
            omega
          rw [List.map_congr_left heach, List.map_id']
        rw [hsame]
    rw [List.map_cons, Nat.ofDigits_cons, Nat.ofDigits_cons]
    have hmul := Nat.mul_le_mul_left base htail
    obtain ⟨e, he, hup⟩ := hlt
    obtain rfl | he := List.mem_cons.mp he
    · omega
    · have hstrict := Nat.mul_lt_mul_of_pos_left (ih hle.2 ⟨e, he, hup⟩) hbase
      have hhead := hle.1
      omega

theorem ofDigits_short {base : Nat} (hbase : 1 < base) {pre : List Nat} (hpre : ∀ d ∈ pre, d < base)
    (hlen : pre.length < (digitsOf base v).length) (hv : v ≠ 0) : Nat.ofDigits base pre < v := by
  have hsmall := Nat.ofDigits_lt_base_pow_length hbase hpre
  have hlarge := Nat.base_pow_length_digits_le base v hbase hv
  rw [digitsOf, if_neg hv, List.length_reverse] at hlen
  obtain ⟨k, hk⟩ : ∃ k, (Nat.digits base v).length = k + 1 := ⟨_, (Nat.succ_pred (by omega)).symm⟩
  rw [hk, Nat.pow_succ, Nat.mul_comm] at hlarge
  have hpow : base ^ k ≤ v := Nat.le_of_mul_le_mul_left hlarge (by omega)
  have hmono : base ^ pre.length ≤ base ^ k := Nat.pow_le_pow_right (by omega) (by omega)
  omega

theorem small_digits_iff : (∀ d ∈ digitsOf 30 v, d < 10) ↔ ∀ d ∈ Nat.digits 30 v, d < 10 := by
  rw [digitsOf]
  split_ifs with hv
  · rw [hv]
    simp
  · simp only [List.mem_reverse]

theorem read_largest : (digitsOf 30 (2 ^ 64 - 1)).all (isRead naturalareacode 30) = true := by
  decide +kernel

/-- A number comes back from the Natural Area Code if it is written without letters; the largest one
comes back because `strtoul` stops there. -/
theorem naturalareacode_iff (hv : v < 2 ^ 64) :
    naturalareacodeDecode (numeral naturalareacode 30 v) = v ↔
      v = 2 ^ 64 - 1 ∨ ∀ d ∈ Nat.digits 30 v, d < 10 := by
  have hdigit : ∀ d ∈ digitsOf 30 v, d < 30 := digitsOf_lt (by omega)
  rw [← small_digits_iff, naturalareacodeDecode,
    strtoul_numeral (by omega) naturalareacode_plain]
  by_cases hall : ∀ d ∈ digitsOf 30 v, isRead naturalareacode 30 d = true
  · rw [List.takeWhile_eq_self_iff.mpr hall, ← List.map_reverse]
    by_cases hten : ∀ d ∈ digitsOf 30 v, d < 10
    · have hmap : (digitsOf 30 v).reverse.map (readAs naturalareacode) = (digitsOf 30 v).reverse := by
        have heach : ∀ d ∈ (digitsOf 30 v).reverse, readAs naturalareacode d = d := by
          intro d hd
          have hmem := List.mem_reverse.mp hd
          exact ((naturalareacode_read d (hdigit d hmem)).1 (hten d hmem)).2
        rw [List.map_congr_left heach, List.map_id']
      rw [hmap, ofDigits_digitsOf]
      constructor
      · exact fun _ => .inr hten
      · exact fun _ => Nat.min_eq_right (by omega)
    · have hmore : v < Nat.ofDigits 30 ((digitsOf 30 v).reverse.map (readAs naturalareacode)) := by
        have hup : ∀ d ∈ digitsOf 30 v, 10 ≤ d → d < readAs naturalareacode d := fun d hd hge =>
          ((naturalareacode_read d (hdigit d hd)).2 hge (hall d hd)).1
        have hv := ofDigits_digitsOf 30 v
        nth_rewrite 1 [← hv]
        refine ofDigits_lt_of_readAs (by omega) (fun d hd => ?_) ?_
        · have hmem := List.mem_reverse.mp hd
          by_cases hd10 : d < 10
          · exact Nat.le_of_eq ((naturalareacode_read d (hdigit d hmem)).1 hd10).2.symm
          · exact Nat.le_of_lt (hup d hmem (by omega))
        · simp only [not_forall] at hten
          obtain ⟨d, hmem, hd10⟩ := hten
          exact ⟨d, List.mem_reverse.mpr hmem, hup d hmem (by omega)⟩
      constructor
      · intro hsame
        left
        omega
      · rintro (hlargest | hsmall)
        · omega
        · exact absurd hsmall hten
  · -- the first letter that is not read ends the number
    have hshort : ((digitsOf 30 v).takeWhile (isRead naturalareacode 30)).length <
        (digitsOf 30 v).length := by
      have hfront : (digitsOf 30 v).takeWhile (isRead naturalareacode 30) <+: digitsOf 30 v :=
        List.takeWhile_prefix _
      refine Nat.lt_of_le_of_ne hfront.length_le fun hlen => hall ?_
      exact List.takeWhile_eq_self_iff.mp (hfront.eq_of_length hlen)
    have hv0 : v ≠ 0 := by
      rintro rfl
      exact hall (by decide +kernel)
    have hless : Nat.ofDigits 30 (((digitsOf 30 v).takeWhile (isRead naturalareacode 30)).map
        (readAs naturalareacode)).reverse < v := by
      refine ofDigits_short (by omega) (fun e he => ?_) ?_ hv0
      · obtain ⟨d, hd, rfl⟩ := List.mem_map.mp (List.mem_reverse.mp he)
        have hmem := (List.takeWhile_prefix _).subset hd
        obtain ⟨hsmall, hlarge⟩ := naturalareacode_read d (hdigit d hmem)
        by_cases hd10 : d < 10
        · rw [(hsmall hd10).2]
          omega
        · exact (hlarge (by omega) (List.mem_takeWhile_imp hd)).2
      · rwa [List.length_reverse, List.length_map]
    constructor
    · intro hsame
      omega
    · rintro (rfl | hten)
      · exact absurd (List.all_eq_true.mp read_largest) hall
      · refine absurd (fun d hd => ?_) hall
        exact ((naturalareacode_read d (hdigit d hd)).1 (hten d hd)).1

end codecs

structure CodecsRight (v : UInt64) : Prop where
  base36 : ∀ buffer, ∃ out, base36Encode buffer v.toNat = some out ∧ base36Decode (cstr out) = v.toNat
  natural : ∀ buffer, ∃ out, naturalareacodeEncode buffer v.toNat = some out ∧
    naturalareacodeDecode (cstr out) = v.toNat
  base36_distinct : ∀ w ≠ v, ∀ buffer buffer', ∀ out ∈ base36Encode buffer v.toNat,
    ∀ out' ∈ base36Encode buffer' w.toNat, cstr out ≠ cstr out'
  natural_distinct : ∀ w ≠ v, ∀ buffer buffer', ∀ out ∈ naturalareacodeEncode buffer v.toNat,
    ∀ out' ∈ naturalareacodeEncode buffer' w.toNat, cstr out ≠ cstr out'

theorem base36Encode_text (v : UInt64) (buffer : Buffer 14) :
    ∃ out, base36Encode buffer v.toNat = some out ∧ cstr out = numeral base36 36 v.toNat := by
  have hsize : 2 ^ 64 ≤ 36 ^ 13 := by norm_num
  exact encode_text (by omega) (fun d hd => (base36_plain d hd).2.2.2) (Nat.zero_lt_succ 12)
    (Nat.lt_of_lt_of_le v.toNat_lt hsize) buffer

theorem naturalareacodeEncode_text (v : UInt64) (buffer : Buffer 15) :
    ∃ out, naturalareacodeEncode buffer v.toNat = some out ∧
      cstr out = numeral naturalareacode 30 v.toNat := by
  have hsize : 2 ^ 64 ≤ 30 ^ 14 := by norm_num
  exact encode_text (by omega) (fun d hd => (naturalareacode_plain d hd).2.2.2) (Nat.zero_lt_succ 13)
    (Nat.lt_of_lt_of_le v.toNat_lt hsize) buffer

/-- All is right with the numbers that the Natural Area Code writes without letters, and with the
largest one. -/
theorem codecs_right_iff (v : UInt64) :
    CodecsRight v ↔ v.toNat = 2 ^ 64 - 1 ∨ ∀ d ∈ Nat.digits 30 v.toNat, d < 10 := by
  rw [← naturalareacode_iff v.toNat_lt]
  constructor
  · intro h
    obtain ⟨out, hout, hdecode⟩ := h.natural ⟨List.replicate 15 nul, by simp⟩
    obtain ⟨out', hout', htext⟩ := naturalareacodeEncode_text v ⟨List.replicate 15 nul, by simp⟩
    rw [hout] at hout'
    obtain rfl := Option.some.inj hout'
    rwa [htext] at hdecode
  · intro hnatural
    refine ⟨fun buffer => ?_, fun buffer => ?_, ?_, ?_⟩
    · obtain ⟨out, hout, htext⟩ := base36Encode_text v buffer
      refine ⟨out, hout, ?_⟩
      rw [htext]
      exact strtoul_faithful (by omega) base36_plain
        (fun d hd => base36_read d (digitsOf_lt (by omega) d hd)) v.toNat_lt
    · obtain ⟨out, hout, htext⟩ := naturalareacodeEncode_text v buffer
      exact ⟨out, hout, by rw [htext, hnatural]⟩
    · intro w hw buffer buffer' out hout out' hout' hsame
      obtain ⟨a, ha, hatext⟩ := base36Encode_text v buffer
      obtain ⟨b, hb, hbtext⟩ := base36Encode_text w buffer'
      obtain rfl := Option.some.inj (ha.symm.trans hout)
      obtain rfl := Option.some.inj (hb.symm.trans hout')
      rw [hatext, hbtext] at hsame
      have hletters : ∀ d < 36, base36.idxOf (base36.getD d nul) = d := by decide +kernel
      exact hw (UInt64.toNat_inj.mp (numeral_injective (by omega) hletters hsame).symm)
    · intro w hw buffer buffer' out hout out' hout' hsame
      obtain ⟨a, ha, hatext⟩ := naturalareacodeEncode_text v buffer
      obtain ⟨b, hb, hbtext⟩ := naturalareacodeEncode_text w buffer'
      obtain rfl := Option.some.inj (ha.symm.trans hout)
      obtain rfl := Option.some.inj (hb.symm.trans hout')
      rw [hatext, hbtext] at hsame
      have hletters : ∀ d < 30, naturalareacode.idxOf (naturalareacode.getD d nul) = d := by
        decide +kernel
      exact hw (UInt64.toNat_inj.mp (numeral_injective (by omega) hletters hsame).symm)

/-- Ten is written `B`, and `B` is read as eleven. -/
theorem ten_is_eleven : ¬∀ v : UInt64, CodecsRight v := by
  intro h
  obtain ⟨out, hout, hdecode⟩ := (h 10).natural ⟨List.replicate 15 nul, by simp⟩
  have hcode : naturalareacodeEncode ⟨List.replicate 15 nul, by simp⟩ (10 : UInt64).toNat =
      some ('B' :: List.replicate 14 nul) := by decide +kernel
  rw [hcode] at hout
  obtain rfl := Option.some.inj hout
  revert hdecode
  decide +kernel

end ChatServices.NumberCodecs
