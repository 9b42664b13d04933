import ChatServices.ChanServ.Command
import ChatServices.Lib.Cells
import ChatServices.OperServ.Clones
import ChatServices.Protocol.Base36Uid

/-! Addresses in the base64 of ircu, `libathemecore/ubase64.c`: numbers of six digits, and groups of
three with a mark for a run of zero groups. -/
namespace ChatServices.Protocol.P10Address
open ChatServices.Lib ChatServices.Text ChatServices.Cidr
open ChatServices.ChanServ (natArg natArg_eq isDigit_of_mem_natArg)
open ChatServices.Match (tolower)
open ChatServices.OperServ (HOSTIPLEN)
open ChatServices.Protocol.Base36Uid (ub64Alphabet uinttobase64)

/-- `none` where the table has `__`. -/
def ub64Lookuptab : List (Option Nat) :=
  List.replicate 48 none ++ (List.range' 52 10).map some ++ List.replicate 7 none ++
    (List.range 26).map some ++ [some 62, none, some 63, none, none, none] ++
    (List.range' 26 26).map some ++ List.replicate 133 none

/-- The loop of `base64touint`. The NUL behind the text is no digit. -/
def base64Loop : Nat → CString → Nat → Nat
  | count + 1, c :: buf, v =>
    match ub64Lookuptab.getD (c.toNat % 256) none with
    | some bits => base64Loop count buf ((v <<< 6) % 2 ^ 32 ||| bits)
    | none => v
  | _, _, v => v

def base64touint (buf : CString) : Nat := base64Loop 6 buf 0

/-- The bytes of an `s_addr` that `ntohl` has made, in memory. -/
def networkBytes (v : Nat) : List Nat := [v / 2 ^ 24 % 256, v / 2 ^ 16 % 256, v / 2 ^ 8 % 256, v % 256]

def dotted (addr : List Nat) : CString := ['.'].intercalate (addr.map natArg)

/-- `inet_ntop (AF_INET, ..)`, which fails where the text and its NUL do not fit. -/
def inetNtop (addr : List Nat) (size : Nat) : Option CString :=
  if (dotted addr).length < size then some (dotted addr) else none

def hextet (v : Nat) : CString := Nat.toDigits 16 (v % 2 ^ 16)

/-- The loop over the groups, from the place that the text is read at; `j` is the place that it is
written to. -/
def groupLoop (b64 : CString) (ipstring : Cells Char) (j : Nat) : Cells Char × Nat :=
  match b64 with
  | [] => (ipstring, j)
  | c :: b64 =>
    if c = '_' then
      if j ≥ HOSTIPLEN - 2 then (ipstring, j)
      else
        let out := (if j = 0 then ['0'] else []) ++ (if b64 = [] then [':'] else []) ++ [':']
        groupLoop b64 (ipstring.puts j out) (j + out.length)
    else if j ≥ HOSTIPLEN - 5 then (ipstring, j)
    else
      -- `sprintf` writes a NUL behind the digits
      let out := (if j ≠ 0 then [':'] else []) ++ hextet (base64touint (c :: b64.take 2))
      groupLoop (b64.drop 2) (ipstring.puts j (out ++ [nul])) (j + out.length)
termination_by b64.length

/-- `decode_p10_ip`: what it writes. -/
def decodeP10Ip (b64 : CString) : Cells Char :=
  let ipstring := Cells.blank.put 0 nul
  if b64.length = 6 then
    match inetNtop (networkBytes (base64touint b64)) HOSTIPLEN with
    | some text => ipstring.puts 0 (text ++ [nul])
    | none => ipstring.put 0 nul
  else if b64.length = 24 ∨ (b64.length < 24 ∧ '_' ∈ b64) then
    let (ipstring, j) := groupLoop b64 ipstring 0
    ipstring.put j nul
  else ipstring

structure In6Addr where
  groups : List (BitVec 16)
  eight : groups.length = 8

def bytesOf (groups : List (BitVec 16)) : List Nat :=
  groups.flatMap fun g => [g.toNat / 256, g.toNat % 256]

def encoded (groups : List (BitVec 16)) : CString := groups.flatMap fun g => uinttobase64 g.toNat 3

inductive Encoding (groups : List (BitVec 16)) : CString → Prop
  | full : Encoding groups (encoded groups)
  | marked (front back : List (BitVec 16)) (run : Nat) :
      groups = front ++ List.replicate run 0#16 ++ back →
      (encoded front ++ '_' :: encoded back).length < 24 →
      Encoding groups (encoded front ++ '_' :: encoded back)

structure Says (mem : Cells Char) (text : CString) : Prop where
  reads : mem.Reads nul text
  ended : nul ∉ text

/-! ### Numbers of six and of three digits -/

section base64
variable {v : Nat}

theorem ub64Lookuptab_alphabet : ∀ d < 64,
    ub64Lookuptab.getD ((ub64Alphabet.getD d nul).toNat % 256) none = some d := by decide +kernel

theorem length_uinttobase64 (v count : Nat) : (uinttobase64 v count).length = count := by
  induction count generalizing v with
  | zero => rfl
  | succ count ih => rw [uinttobase64, List.length_append, ih, List.length_singleton]

theorem base64Loop_uinttobase64 (count more : Nat) (rest : CString) (h : v < 64 ^ count) (hv : v < 2 ^ 32) :
    base64Loop (count + more) (uinttobase64 v count ++ rest) 0 = base64Loop more rest v := by
  induction count generalizing v more rest with
  | zero =>
    have hzero : v = 0 := by rw [Nat.pow_zero] at h; omega
    rw [hzero, uinttobase64, Nat.zero_add]
    rfl
  | succ count ih =>
    have hfront : v / 64 < 64 ^ count := Nat.div_lt_of_lt_mul (by rw [Nat.pow_succ] at h; omega)
    have hrest := ih (more + 1) (ub64Alphabet.getD (v % 64) nul :: rest) hfront (by omega)
    have hdigit := ub64Lookuptab_alphabet (v % 64) (Nat.mod_lt v (by decide))
    have hsum : (v / 64) <<< 6 % 2 ^ 32 ||| v % 64 = v := by
      have hshift : (v / 64) <<< 6 = v / 64 * 64 := Nat.shiftLeft_eq _ _
      have hor := Nat.shiftLeft_add_eq_or_of_lt (i := 6) (Nat.mod_lt v (by decide)) (v / 64)
      rw [Nat.mod_eq_of_lt (by omega), ← hor, hshift]
      omega
    rw [uinttobase64, List.append_assoc, List.singleton_append, Nat.add_right_comm, Nat.add_assoc,
      hrest, base64Loop, hdigit]
    dsimp only
    rw [hsum]

theorem base64touint_six (hv : v < 2 ^ 32) : base64touint (uinttobase64 v 6) = v := by
  have hread := base64Loop_uinttobase64 6 0 [] (v := v) (by omega) hv
  rwa [List.append_nil] at hread

theorem base64touint_three (hv : v < 2 ^ 16) : base64touint (uinttobase64 v 3) = v := by
  have hread := base64Loop_uinttobase64 3 3 [] (v := v) (by omega) (by omega)
  rwa [List.append_nil] at hread

end base64

/-! ### What the loop writes -/

/-- What has been written: the text up to the place `j`, and perhaps a NUL behind it. -/
structure Built (mem : Cells Char) (j : Nat) (text : CString) : Prop where
  place : j = text.length
  room : text.length < HOSTIPLEN
  holds : mem.Holds text HOSTIPLEN

def markText (j : Nat) (b64 : CString) : CString :=
  (if j = 0 then ['0'] else []) ++ (if b64 = [] then [':'] else []) ++ [':']

def groupText (j : Nat) (v : Nat) : CString := (if j ≠ 0 then [':'] else []) ++ hextet v

section loop
variable {mem : Cells Char} {j : Nat} {text b64 : CString} {c : Char}

theorem length_hextet (v : Nat) : (hextet v).length ≤ 4 :=
  (Nat.length_toDigits_le_iff (by decide) (by decide)).mpr (Nat.mod_lt v (by decide))

theorem mem_toDigits {v : Nat} (h : c ∈ Nat.toDigits 16 v) : ∃ d < 16, c = d.digitChar := by
  induction v using Nat.strong_induction_on with
  | _ v ih =>
    rw [Nat.toDigits_eq_if (by decide)] at h
    by_cases hsmall : v < 16
    · rw [if_pos hsmall] at h
      exact ⟨v, hsmall, List.mem_singleton.mp h⟩
    · rw [if_neg hsmall] at h
      obtain hfront | hlast := List.mem_append.mp h
      · exact ih (v / 16) (by omega) hfront
      · exact ⟨v % 16, Nat.mod_lt v (by decide), List.mem_singleton.mp hlast⟩

theorem notMem_hextet (hplain : ∀ d < 16, c ≠ d.digitChar) (v : Nat) : c ∉ hextet v := by
  intro hmem
  obtain ⟨d, hd, heq⟩ := mem_toDigits hmem
  exact hplain d hd heq

theorem length_markText (b64 : CString) (h : j < HOSTIPLEN - 2) :
    j + (markText j b64).length < HOSTIPLEN := by
  rw [HOSTIPLEN] at h ⊢
  have hcolon : (if b64 = [] then [':'] else []).length ≤ 1 := by split_ifs <;> decide
  rw [markText, List.length_append, List.length_append, List.length_singleton]
  by_cases hj : j = 0
  · rw [if_pos hj, List.length_singleton]
    omega
  · rw [if_neg hj, List.length_nil]
    omega

theorem length_groupText (v : Nat) (h : j < HOSTIPLEN - 5) :
    j + (groupText j v).length < HOSTIPLEN := by
  have hdigits := length_hextet v
  have hcolon : (if j ≠ 0 then [':'] else []).length ≤ 1 := by split_ifs <;> decide
  rw [HOSTIPLEN] at h ⊢
  rw [groupText, List.length_append]
  omega

theorem Built.puts (h : Built mem j text) (as : CString) (hroom : j + as.length < HOSTIPLEN) :
    Built (mem.puts j as) (j + as.length) (text ++ as) := by
  obtain ⟨rfl, -, hholds⟩ := h
  rw [← List.length_append] at hroom ⊢
  have hmore := hholds.puts as
  rw [Nat.max_eq_left (Nat.le_of_lt hroom)] at hmore
  exact ⟨rfl, hroom, hmore⟩

theorem Built.puts_nul (h : Built mem j text) (as : CString) (hroom : j + as.length < HOSTIPLEN) :
    Built (mem.puts j (as ++ [nul])) (j + as.length) (text ++ as) := by
  obtain ⟨rfl, -, hholds⟩ := h
  rw [← List.length_append] at hroom ⊢
  have hmore := hholds.puts (as ++ [nul])
  rw [← List.append_assoc] at hmore
  refine ⟨rfl, hroom, hmore.prefix_holds.widen (Nat.max_le.mpr ⟨Nat.le_refl _, ?_⟩)⟩
  rw [List.length_append, List.length_singleton]
  exact hroom

theorem groupLoop_mark (b64 : CString) (mem : Cells Char) (hroom : j < HOSTIPLEN - 2) :
    groupLoop ('_' :: b64) mem j =
      groupLoop b64 (mem.puts j (markText j b64)) (j + (markText j b64).length) := by
  rw [groupLoop, if_pos rfl, if_neg (Nat.not_le.mpr hroom)]
  rfl

theorem groupLoop_group (b64 : CString) (mem : Cells Char) (hc : c ≠ '_') (hroom : j < HOSTIPLEN - 5) :
    groupLoop (c :: b64) mem j =
      groupLoop (b64.drop 2) (mem.puts j (groupText j (base64touint (c :: b64.take 2)) ++ [nul]))
        (j + (groupText j (base64touint (c :: b64.take 2))).length) := by
  rw [groupLoop, if_neg hc, if_neg (Nat.not_le.mpr hroom)]
  rfl

theorem groupLoop_built (b64 : CString) (h : Built mem j text) :
    ∃ text', Built (groupLoop b64 mem j).1 (groupLoop b64 mem j).2 text' := by
  induction hlen : b64.length using Nat.strong_induction_on generalizing b64 mem j text with
  | _ n ih =>
    cases b64 with
    | nil =>
      rw [groupLoop]
      exact ⟨text, h⟩
    | cons c b64 =>
      rw [List.length_cons] at hlen
      by_cases hc : c = '_'
      · rw [hc]
        by_cases hroom : j < HOSTIPLEN - 2
        · rw [groupLoop_mark b64 mem hroom]
          exact ih b64.length (by omega) b64 (h.puts _ (length_markText b64 hroom)) rfl
        · rw [groupLoop, if_pos rfl, if_pos (Nat.le_of_not_lt hroom)]
          exact ⟨text, h⟩
      · by_cases hroom : j < HOSTIPLEN - 5
        · rw [groupLoop_group b64 mem hc hroom]
          refine ih (b64.drop 2).length ?_ _ (h.puts_nul _ (length_groupText _ hroom)) rfl
          rw [List.length_drop]
          omega
        · rw [groupLoop, if_neg hc, if_pos (Nat.le_of_not_lt hroom)]
          exact ⟨text, h⟩

theorem Built.start : Built (Cells.blank.put 0 nul) 0 [] :=
  ⟨rfl, by decide, (Cells.holds_blank.mark nul).widen (by decide)⟩

theorem Built.ended (h : Built mem j text) :
    (mem.put j nul).Reads nul text ∧ ∀ i ≥ HOSTIPLEN, mem.put j nul i = none := by
  obtain ⟨rfl, hroom, hholds⟩ := h
  refine ⟨hholds.reads nul, fun i hi => (hholds.mark nul).beyond i ?_⟩
  exact Nat.max_le.mpr ⟨hi, Nat.le_trans hroom hi⟩

end loop

/-! ### What it writes for an encoding -/

def colons (groups : List (BitVec 16)) : CString := groups.flatMap fun g => ':' :: hextet g.toNat

def colonText : List (BitVec 16) → CString
  | [] => []
  | g :: groups => hextet g.toNat ++ colons groups

section encodings
variable {mem : Cells Char} {j : Nat} {text rest : CString} {groups front back : List (BitVec 16)}

theorem length_encoded (groups : List (BitVec 16)) : (encoded groups).length = 3 * groups.length := by
  induction groups with
  | nil => rfl
  | cons g groups ih =>
    rw [encoded] at ih ⊢
    rw [List.flatMap_cons, List.length_append, length_uinttobase64, ih, List.length_cons]
    omega

theorem length_colons (groups : List (BitVec 16)) : (colons groups).length ≤ 5 * groups.length := by
  induction groups with
  | nil => exact Nat.le_refl 0
  | cons g groups ih =>
    have hdigits := length_hextet g.toNat
    rw [colons] at ih ⊢
    rw [List.flatMap_cons, List.length_append, List.length_cons, List.length_cons]
    omega

theorem alphabet_ne_mark : ∀ d < 64, ub64Alphabet.getD d nul ≠ '_' := by decide +kernel

theorem groupLoop_encoded (g : BitVec 16) (rest : CString) (mem : Cells Char) (hroom : j < HOSTIPLEN - 5) :
    groupLoop (uinttobase64 g.toNat 3 ++ rest) mem j =
      groupLoop rest (mem.puts j (groupText j g.toNat ++ [nul])) (j + (groupText j g.toNat).length) := by
  have hfirst := alphabet_ne_mark (g.toNat / 64 / 64 % 64) (Nat.mod_lt _ (by decide))
  have hturn := groupLoop_group (ub64Alphabet.getD (g.toNat / 64 % 64) nul ::
    ub64Alphabet.getD (g.toNat % 64) nul :: rest) mem hfirst hroom
  have hvalue := base64touint_three g.isLt
  have hdigits : uinttobase64 g.toNat 3 = [ub64Alphabet.getD (g.toNat / 64 / 64 % 64) nul,
    ub64Alphabet.getD (g.toNat / 64 % 64) nul, ub64Alphabet.getD (g.toNat % 64) nul] := rfl
  rw [hdigits] at hvalue ⊢
  rw [List.take_succ_cons, List.take_succ_cons, List.take_zero, hvalue] at hturn
  exact hturn

theorem Built.behind (h : Built mem j text) (hpos : 0 < j) (groups : List (BitVec 16)) (rest : CString)
    (hroom : j + 5 * groups.length < HOSTIPLEN) :
    ∃ mem' j', groupLoop (encoded groups ++ rest) mem j = groupLoop rest mem' j' ∧
      Built mem' j' (text ++ colons groups) := by
  induction groups generalizing mem j text with
  | nil =>
    refine ⟨mem, j, rfl, ?_⟩
    rwa [colons, List.flatMap_nil, List.append_nil]
  | cons g groups ih =>
    rw [List.length_cons] at hroom
    have hdigits := length_hextet g.toNat
    have hcolon : groupText j g.toNat = ':' :: hextet g.toNat := by
      rw [groupText, if_pos (by omega)]
      rfl
    have hlength : (groupText j g.toNat).length = (hextet g.toNat).length + 1 := by rw [hcolon]; rfl
    have hturn := groupLoop_encoded g (encoded groups ++ rest) mem (j := j) (by omega)
    have hnext := h.puts_nul (groupText j g.toNat) (by omega)
    obtain ⟨mem', j', hloop, hbuilt⟩ := ih hnext (by omega) (by omega)
    rw [List.append_assoc, hcolon] at hbuilt
    refine ⟨mem', j', ?_, hbuilt⟩
    rw [← hloop, ← hturn, encoded, encoded, List.flatMap_cons, List.append_assoc]

theorem Built.first (h : Built mem 0 []) (groups : List (BitVec 16)) (rest : CString)
    (hroom : 5 * groups.length < HOSTIPLEN) :
    ∃ mem' j', groupLoop (encoded groups ++ rest) mem 0 = groupLoop rest mem' j' ∧
      Built mem' j' (colonText groups) := by
  cases groups with
  | nil => exact ⟨mem, 0, rfl, h⟩
  | cons g groups =>
    rw [List.length_cons] at hroom
    have hdigits := length_hextet g.toNat
    have hplain : groupText 0 g.toNat = hextet g.toNat := rfl
    have hturn := groupLoop_encoded g (encoded groups ++ rest) mem (j := 0) (by decide)
    have hpos : 0 < (hextet g.toNat).length := List.length_pos_iff.mpr Nat.toDigits_ne_nil
    have hnext := h.puts_nul (hextet g.toNat) (by rw [Nat.zero_add]; omega)
    rw [Nat.zero_add] at hnext
    obtain ⟨mem', j', hloop, hbuilt⟩ := hnext.behind hpos groups rest (by omega)
    refine ⟨mem', j', ?_, hbuilt⟩
    rw [← hloop, encoded, List.flatMap_cons, List.append_assoc]
    rwa [hplain, Nat.zero_add] at hturn

theorem length_colonText (groups : List (BitVec 16)) : (colonText groups).length ≤ 5 * groups.length := by
  cases groups with
  | nil => exact Nat.le_refl 0
  | cons g groups =>
    have hdigits := length_hextet g.toNat
    have hrest := length_colons groups
    rw [colonText, List.length_append, List.length_cons]
    omega

theorem nul_notMem_colons (groups : List (BitVec 16)) : nul ∉ colons groups := by
  intro hmem
  obtain ⟨g, -, hg⟩ := List.mem_flatMap.mp hmem
  obtain hcolon | hdigit := List.mem_cons.mp hg
  · revert hcolon
    decide
  · exact notMem_hextet (by decide) g.toNat hdigit

theorem nul_notMem_colonText (groups : List (BitVec 16)) : nul ∉ colonText groups := by
  cases groups with
  | nil => exact List.not_mem_nil
  | cons g groups =>
    rw [colonText, List.mem_append, not_or]
    exact ⟨notMem_hextet (by decide) g.toNat, nul_notMem_colons groups⟩

theorem decode_full (h : groups.length = 8) :
    Says (decodeP10Ip (encoded groups)) (colonText groups) := by
  have hlength := length_encoded groups
  obtain ⟨mem, j, hloop, hbuilt⟩ := Built.start.first groups [] (by rw [h]; decide)
  rw [List.append_nil, groupLoop] at hloop
  rw [decodeP10Ip, if_neg (by omega), if_pos (.inl (by omega)), hloop]
  exact ⟨hbuilt.ended.1, nul_notMem_colonText groups⟩

def markedText (front back : List (BitVec 16)) : CString :=
  colonText (if front = [] then [0#16] else front) ++
    ':' :: if back = [] then [':'] else colons back

theorem markedText_eq (hplace : j = (colonText front).length) :
    markedText front back = colonText front ++ markText j (encoded back) ++ colons back := by
  have hback : encoded back = [] ↔ back = [] := by
    rw [← List.length_eq_zero_iff, length_encoded, ← List.length_eq_zero_iff]
    omega
  have hzero : colonText [0#16] = ['0'] := by decide
  have htail : (':' :: if back = [] then [':'] else colons back) =
      (if encoded back = [] then [':'] else []) ++ [':'] ++ colons back := by
    by_cases hnil : back = []
    · rw [if_pos hnil, if_pos (hback.mpr hnil), hnil]
      rfl
    · rw [if_neg hnil, if_neg (mt hback.mp hnil)]
      rfl
  cases front with
  | nil =>
    have hj : j = 0 := hplace
    rw [markedText, if_pos rfl, hzero, htail, markText, if_pos hj]
    simp [colonText]
  | cons g front =>
    have hpos : 0 < (hextet g.toNat).length := List.length_pos_iff.mpr Nat.toDigits_ne_nil
    rw [colonText, List.length_append] at hplace
    have hj : j ≠ 0 := by omega
    rw [markedText, if_neg (List.cons_ne_nil _ _), htail, markText, if_neg hj]
    simp

theorem nul_notMem_markedText (front back : List (BitVec 16)) : nul ∉ markedText front back := by
  rw [markedText, List.mem_append, not_or]
  refine ⟨nul_notMem_colonText _, ?_⟩
  split_ifs
  · decide
  · rw [List.mem_cons, not_or]
    exact ⟨by decide, nul_notMem_colons back⟩

theorem decode_marked (h : (encoded front ++ '_' :: encoded back).length < 24) :
    Says (decodeP10Ip (encoded front ++ '_' :: encoded back)) (markedText front back) := by
  have hlength : (encoded front ++ '_' :: encoded back).length = 3 * (front.length + back.length) + 1 := by
    rw [List.length_append, List.length_cons, length_encoded, length_encoded]
    omega
  have hmark : '_' ∈ encoded front ++ '_' :: encoded back := by simp
  obtain ⟨mem, j, hloop, hbuilt⟩ := Built.start.first front ('_' :: encoded back)
    (by rw [HOSTIPLEN]; omega)
  have hfront := length_colonText front
  have hplace := hbuilt.place
  have hturn := groupLoop_mark (encoded back) mem (j := j) (by rw [HOSTIPLEN]; omega)
  have hmarkText : (markText j (encoded back)).length ≤ 3 := by
    rw [markText]
    split_ifs <;> decide
  have hnext := hbuilt.puts (markText j (encoded back)) (by rw [HOSTIPLEN]; omega)
  have hpos : 0 < j + (markText j (encoded back)).length := by
    rw [markText, List.length_append, List.length_singleton]
    omega
  obtain ⟨mem', j', hloop', hbuilt'⟩ := hnext.behind hpos back [] (by rw [HOSTIPLEN]; omega)
  rw [List.append_nil, groupLoop] at hloop'
  rw [decodeP10Ip, if_neg (by omega), if_pos (.inr ⟨h, hmark⟩), hloop, hturn, hloop']
  refine ⟨?_, nul_notMem_markedText front back⟩
  rw [markedText_eq hplace]
  exact hbuilt'.ended.1

end encodings

/-! ### What `inet_pton` reads -/

section parser
variable {tmp : List Nat} {colonp : Option Nat} {rest curtok : CString} {groups : List (BitVec 16)}

theorem xdigitVal_digitChar : ∀ d < 16, xdigitVal (tolower d.digitChar) = some d := by decide

theorem scan_digit (d val : Nat) (saw : Bool) (hd : d < 16) (hval : val * 16 + d < 2 ^ 16) :
    inetPton6From (d.digitChar :: rest) ⟨tmp, colonp, saw, val, curtok⟩ =
      inetPton6From rest ⟨tmp, colonp, true, val * 16 + d, curtok⟩ := by
  rw [inetPton6From, xdigitVal_digitChar d hd]
  dsimp only
  rw [if_neg (by omega)]

theorem scan_digits (v : Nat) (hv : v < 2 ^ 16) (rest : CString) :
    inetPton6From (Nat.toDigits 16 v ++ rest) ⟨tmp, colonp, false, 0, curtok⟩ =
      inetPton6From rest ⟨tmp, colonp, true, v, curtok⟩ := by
  induction v using Nat.strong_induction_on generalizing rest with
  | _ v ih =>
    rw [Nat.toDigits_eq_if (by decide)]
    by_cases hsmall : v < 16
    · rw [if_pos hsmall, List.singleton_append, scan_digit v 0 false hsmall (by omega), Nat.zero_mul,
        Nat.zero_add]
    · have hlast : v % 16 < 16 := Nat.mod_lt v (by decide)
      have hsum : v / 16 * 16 + v % 16 = v := Nat.div_add_mod' v 16
      rw [if_neg hsmall, List.append_assoc, List.singleton_append, ih (v / 16) (by omega) (by omega),
        scan_digit _ _ true hlast (by omega), hsum]

theorem scan_hextet (g : BitVec 16) (rest : CString) :
    inetPton6From (hextet g.toNat ++ rest) ⟨tmp, colonp, false, 0, curtok⟩ =
      inetPton6From rest ⟨tmp, colonp, true, g.toNat, curtok⟩ := by
  rw [hextet, Nat.mod_eq_of_lt g.isLt]
  exact scan_digits g.toNat g.isLt rest

theorem pushVal_group (g : BitVec 16) (hroom : tmp.length + 2 ≤ 16) :
    Pton6.pushVal ⟨tmp, colonp, true, g.toNat, curtok⟩ =
      some ⟨tmp ++ bytesOf [g], colonp, false, 0, curtok⟩ := by
  have hhigh : g.toNat / 256 % 256 = g.toNat / 256 := Nat.mod_eq_of_lt (by omega)
  rw [Pton6.pushVal, if_neg (by dsimp only; omega)]
  dsimp only
  rw [hhigh]
  rfl

theorem scan_colon (g : BitVec 16) (hrest : rest ≠ []) (hroom : tmp.length + 2 ≤ 16) :
    inetPton6From (':' :: rest) ⟨tmp, colonp, true, g.toNat, curtok⟩ =
      inetPton6From rest ⟨tmp ++ bytesOf [g], colonp, false, 0, rest⟩ := by
  have hcolon : xdigitVal (tolower ':') = none := by decide
  have hlower : tolower ':' = ':' := by decide
  rw [inetPton6From, hcolon]
  dsimp only
  rw [if_pos hlower, Bool.not_true, if_neg Bool.false_ne_true, if_neg hrest, pushVal_group g hroom]

theorem length_bytesOf (groups : List (BitVec 16)) : (bytesOf groups).length = 2 * groups.length := by
  rw [bytesOf, List.length_flatMap]
  simp [Nat.mul_comm]

theorem scan_next (g g' : BitVec 16) (groups : List (BitVec 16)) (rest : CString)
    (hroom : tmp.length + 2 ≤ 16) :
    inetPton6From (colons (g' :: groups) ++ rest) ⟨tmp, colonp, true, g.toNat, curtok⟩ =
      inetPton6From (colons groups ++ rest)
        ⟨tmp ++ bytesOf [g], colonp, true, g'.toNat, hextet g'.toNat ++ (colons groups ++ rest)⟩ := by
  have hne : hextet g'.toNat ++ (colons groups ++ rest) ≠ [] := by
    rw [ne_eq, List.append_eq_nil_iff]
    exact fun hnil => absurd hnil.1 Nat.toDigits_ne_nil
  have hsplit : colons (g' :: groups) ++ rest = ':' :: (hextet g'.toNat ++ (colons groups ++ rest)) := by
    rw [colons, colons, List.flatMap_cons, List.cons_append, List.cons_append, List.append_assoc]
  rw [hsplit, scan_colon g hne hroom, scan_hextet]

theorem bytesOf_cons (g : BitVec 16) (groups : List (BitVec 16)) :
    bytesOf (g :: groups) = bytesOf [g] ++ bytesOf groups := rfl

theorem scan_colons (g : BitVec 16) (groups : List (BitVec 16)) (hrest : rest ≠ [])
    (hroom : tmp.length + 2 * (groups.length + 1) ≤ 16) :
    inetPton6From (colons groups ++ ':' :: rest) ⟨tmp, colonp, true, g.toNat, curtok⟩ =
      inetPton6From rest ⟨tmp ++ bytesOf (g :: groups), colonp, false, 0, rest⟩ := by
  induction groups generalizing tmp g curtok with
  | nil =>
    rw [List.length_nil] at hroom
    exact scan_colon g hrest (by omega)
  | cons g' groups ih =>
    rw [List.length_cons] at hroom
    have hmore : (tmp ++ bytesOf [g]).length = tmp.length + 2 := by
      rw [List.length_append, length_bytesOf]
      rfl
    rw [scan_next g g' groups _ (by omega), ih g' (by omega), List.append_assoc, ← bytesOf_cons]

/-- What `inet_pton` returns when the text ends behind these bytes. -/
def closed (tmp : List Nat) (colonp : Option Nat) : Option (List Nat) :=
  Pton6.finish ⟨tmp, colonp, false, 0, []⟩

theorem scan_end (g : BitVec 16) (groups : List (BitVec 16))
    (hroom : tmp.length + 2 * (groups.length + 1) ≤ 16) :
    inetPton6From (colons groups) ⟨tmp, colonp, true, g.toNat, curtok⟩ =
      closed (tmp ++ bytesOf (g :: groups)) colonp := by
  induction groups generalizing tmp g curtok with
  | nil =>
    rw [List.length_nil] at hroom
    rw [colons, List.flatMap_nil, inetPton6From, Pton6.finish, if_pos rfl, pushVal_group g (by omega)]
    rfl
  | cons g' groups ih =>
    rw [List.length_cons] at hroom
    have hmore : (tmp ++ bytesOf [g]).length = tmp.length + 2 := by
      rw [List.length_append, length_bytesOf]
      rfl
    rw [← List.append_nil (colons (g' :: groups)), scan_next g g' groups [] (by omega), List.append_nil,
      ih g' (by omega), List.append_assoc, ← bytesOf_cons]

theorem inetPton6_plain (g : BitVec 16) (rest : CString) :
    inetPton6 (hextet g.toNat ++ rest) =
      inetPton6From rest ⟨[], none, true, g.toNat, hextet g.toNat ++ rest⟩ := by
  have hcolon : ':' ∉ hextet g.toNat := notMem_hextet (by decide) g.toNat
  rw [← scan_hextet g rest]
  cases hdigits : hextet g.toNat with
  | nil => exact absurd hdigits Nat.toDigits_ne_nil
  | cons c cs =>
    rw [hdigits, List.mem_cons, not_or] at hcolon
    rw [List.cons_append]
    unfold inetPton6
    split
    · rename_i heq
      exact absurd (List.cons.inj heq).1.symm hcolon.1
    · rename_i heq
      exact absurd (List.cons.inj heq).1.symm hcolon.1
    · rfl

theorem scan_double (hempty : colonp = none) (val : Nat) :
    inetPton6From (':' :: rest) ⟨tmp, colonp, false, val, curtok⟩ =
      inetPton6From rest ⟨tmp, some tmp.length, false, val, rest⟩ := by
  have hcolon : xdigitVal (tolower ':') = none := by decide
  have hlower : tolower ':' = ':' := by decide
  rw [inetPton6From, hcolon, hempty]
  dsimp only
  rw [if_pos hlower]
  rfl

theorem closed_double (front back : List (BitVec 16)) :
    closed (bytesOf front ++ bytesOf back) (some (bytesOf front).length) =
      if front.length + back.length = 8 then none
      else some (bytesOf front ++ List.replicate (16 - 2 * (front.length + back.length)) 0 ++
        bytesOf back) := by
  have hlength : (bytesOf front ++ bytesOf back).length = 2 * (front.length + back.length) := by
    rw [List.length_append, length_bytesOf, length_bytesOf]
    omega
  rw [closed, Pton6.finish, if_neg Bool.false_ne_true]
  dsimp only
  rw [hlength, List.take_left, List.drop_left]
  by_cases height : front.length + back.length = 8
  · rw [if_pos (by omega), if_pos height]
  · rw [if_neg (by omega), if_neg height]

theorem parse_full (h : groups.length = 8) : inetPton6 (colonText groups) = some (bytesOf groups) := by
  cases groups with
  | nil => cases h
  | cons g groups =>
    rw [List.length_cons] at h
    have hlength := length_bytesOf (g :: groups)
    rw [List.length_cons] at hlength
    rw [colonText, inetPton6_plain, scan_end g groups (by rw [List.length_nil]; omega), List.nil_append,
      closed, Pton6.finish, if_neg Bool.false_ne_true]
    dsimp only
    rw [if_neg (by omega)]

theorem parse_marked (front back : List (BitVec 16)) (hne : front ≠ [])
    (hroom : front.length + back.length ≤ 8) :
    inetPton6 (colonText front ++ ':' :: if back = [] then [':'] else colons back) =
      closed (bytesOf front ++ bytesOf back) (some (bytesOf front).length) := by
  cases front with
  | nil => exact absurd rfl hne
  | cons g front =>
    rw [List.length_cons] at hroom
    rw [colonText, List.append_assoc, inetPton6_plain]
    cases back with
    | nil =>
      rw [if_pos rfl, scan_colons g front (List.cons_ne_nil _ _) (by rw [List.length_nil]; omega),
        scan_double rfl, inetPton6From, List.nil_append]
      exact congrArg (closed · _) (List.append_nil _).symm
    | cons g' back =>
      rw [List.length_cons] at hroom
      have hsplit : colons (g' :: back) = ':' :: (hextet g'.toNat ++ colons back) := by
        rw [colons, List.flatMap_cons]
        rfl
      have hlength := length_bytesOf (g :: front)
      rw [List.length_cons] at hlength
      rw [if_neg (List.cons_ne_nil _ _), hsplit,
        scan_colons g front (List.cons_ne_nil _ _) (by rw [List.length_nil]; omega),
        scan_double rfl, List.nil_append, scan_hextet, scan_end g' back (by omega)]

end parser

/-! ### Encodings and addresses -/

/-- The string that is written is an address for `inet_pton`, and it is this one. -/
def DecodesTo (b64 : CString) (address : In6Addr) : Prop :=
  ∃ text, Says (decodeP10Ip b64) text ∧ inetPton6 text = some (bytesOf address.groups)

theorem decodesTo_iff {b64 text : CString} (address : In6Addr) (h : Says (decodeP10Ip b64) text) :
    DecodesTo b64 address ↔ inetPton6 text = some (bytesOf address.groups) := by
  constructor
  · rintro ⟨text', h', hparse⟩
    rwa [h.reads.unique h'.reads h.ended h'.ended]
  · exact fun hparse => ⟨text, h, hparse⟩

theorem bytesOf_zeros (n : Nat) : bytesOf (List.replicate n 0#16) = List.replicate (2 * n) 0 := by
  induction n with
  | zero => rfl
  | succ n ih =>
    rw [List.replicate_succ, bytesOf_cons, ih, Nat.mul_succ, List.replicate_succ, List.replicate_succ]
    rfl

theorem bytesOf_append (front back : List (BitVec 16)) :
    bytesOf (front ++ back) = bytesOf front ++ bytesOf back := List.flatMap_append

theorem parse_markedText (front back : List (BitVec 16)) (run : Nat)
    (height : front.length + run + back.length = 8) (hrun : 0 < run) :
    inetPton6 (markedText front back) =
        some (bytesOf (front ++ List.replicate run 0#16 ++ back)) ↔
      ¬(front = [] ∧ run = 1) := by
  have hbytes : bytesOf (front ++ List.replicate run 0#16 ++ back) =
      bytesOf front ++ List.replicate (2 * run) 0 ++ bytesOf back := by
    rw [bytesOf_append, bytesOf_append, bytesOf_zeros]
  rw [markedText, hbytes]
  by_cases hnil : front = []
  · subst hnil
    rw [List.length_nil] at height
    rw [if_pos rfl]
    have hparse := parse_marked [0#16] back (List.cons_ne_nil _ _)
      (by rw [List.length_singleton]; omega)
    rw [hparse, closed_double, List.length_singleton]
    by_cases hone : run = 1
    · rw [if_pos (by omega)]
      simp [hone]
    · have hzeros : bytesOf [0#16] ++ List.replicate (16 - 2 * (1 + back.length)) 0 =
          bytesOf [] ++ List.replicate (2 * run) 0 := by
        have htwo : 2 * run = 16 - 2 * (1 + back.length) + 1 + 1 := by omega
        rw [htwo, List.replicate_succ, List.replicate_succ]
        rfl
      rw [if_neg (by omega), hzeros]
      simp [hone]
  · have hpos := List.length_pos_iff.mpr hnil
    have hzeros : 16 - 2 * (front.length + back.length) = 2 * run := by omega
    rw [if_neg hnil, parse_marked front back hnil (by omega), closed_double, if_neg (by omega), hzeros]
    simp [hnil]

def LoneLeadingMark (b64 : CString) : Prop := b64.head? = some '_' ∧ b64.length = 22

theorem decodesTo_encoding {address : In6Addr} {b64 : CString} (h : Encoding address.groups b64) :
    DecodesTo b64 address ↔ ¬LoneLeadingMark b64 := by
  have height := address.eight
  cases h with
  | full =>
    have hlength := length_encoded address.groups
    rw [decodesTo_iff address (decode_full height), parse_full height]
    refine iff_of_true rfl fun hlone => ?_
    have hshort := hlone.2
    omega
  | marked front back run hgroups hshort =>
    have hlength : (encoded front ++ '_' :: encoded back).length =
        3 * (front.length + back.length) + 1 := by
      rw [List.length_append, List.length_cons, length_encoded, length_encoded]
      omega
    rw [hgroups, List.length_append, List.length_append, List.length_replicate] at height
    have hparse := parse_markedText front back run height (by omega)
    rw [← hgroups] at hparse
    rw [decodesTo_iff address (decode_marked hshort), hparse, LoneLeadingMark, hlength, not_iff_not]
    cases front with
    | nil =>
      rw [List.length_nil] at height ⊢
      constructor
      · rintro ⟨-, hone⟩
        exact ⟨rfl, by omega⟩
      · rintro ⟨-, hlength'⟩
        exact ⟨rfl, by omega⟩
    | cons g front =>
      have hfirst := alphabet_ne_mark (g.toNat / 64 / 64 % 64) (Nat.mod_lt _ (by decide))
      refine iff_of_false (fun hnil => absurd hnil.1 (List.cons_ne_nil _ _)) fun hlone => ?_
      exact hfirst (Option.some.inj hlone.1)

/-! ### IPv4 -/

theorem length_byte {n : Nat} (h : n < 256) : (natArg n).length ≤ 3 := by
  rw [natArg_eq]
  exact (Nat.length_toDigits_le_iff (by decide) (by decide)).mpr (by omega)

theorem nul_notMem_natArg (n : Nat) : nul ∉ natArg n := by
  intro hmem
  have hdigit := isDigit_of_mem_natArg hmem
  revert hdigit
  decide

theorem dotted_networkBytes (v : Nat) :
    (dotted (networkBytes v)).length < HOSTIPLEN ∧ nul ∉ dotted (networkBytes v) := by
  have hbyte : ∀ n, (natArg (n % 256)).length ≤ 3 := fun n => length_byte (Nat.mod_lt n (by decide))
  have htext : dotted (networkBytes v) = natArg (v / 2 ^ 24 % 256) ++ '.' :: (natArg (v / 2 ^ 16 % 256) ++
      '.' :: (natArg (v / 2 ^ 8 % 256) ++ '.' :: natArg (v % 256))) := by
    simp [dotted, networkBytes]
  have hfirst := hbyte (v / 2 ^ 24)
  have hsecond := hbyte (v / 2 ^ 16)
  have hthird := hbyte (v / 2 ^ 8)
  have hfourth := hbyte v
  rw [htext]
  constructor
  · simp only [List.length_append, List.length_cons, HOSTIPLEN]
    omega
  · simp only [List.mem_append, List.mem_cons, nul_notMem_natArg, false_or, or_false]
    decide

theorem decode_six (v : BitVec 32) :
    Says (decodeP10Ip (uinttobase64 v.toNat 6)) (dotted (networkBytes v.toNat)) := by
  obtain ⟨hroom, hnul⟩ := dotted_networkBytes v.toNat
  have hholds := Built.start.holds.puts (dotted (networkBytes v.toNat) ++ [nul])
  rw [decodeP10Ip, if_pos (length_uinttobase64 _ _), base64touint_six v.isLt, inetNtop, if_pos hroom]
  exact ⟨hholds.reads_front, hnul⟩

theorem decode_within (b64 : CString) : ∀ i ≥ HOSTIPLEN, decodeP10Ip b64 i = none := by
  intro i hi
  rw [decodeP10Ip]
  split_ifs
  · rw [inetNtop]
    split_ifs with hroom
    · refine (Built.start.holds.puts (_ ++ [nul])).beyond i (Nat.max_le.mpr ⟨hi, ?_⟩)
      rw [List.nil_append, List.length_append, List.length_singleton]
      exact Nat.le_trans hroom hi
    · exact Built.start.ended.2 i hi
  · obtain ⟨text, hbuilt⟩ := groupLoop_built b64 Built.start
    exact hbuilt.ended.2 i hi
  · exact Built.start.holds.beyond i hi

theorem decodeP10Ip_faithful_iff (v : BitVec 32) (address : In6Addr) {b64 : CString}
    (h : Encoding address.groups b64) (input : CString) :
    ((base64touint (uinttobase64 v.toNat 6) = v.toNat ∧
        Says (decodeP10Ip (uinttobase64 v.toNat 6)) (dotted (networkBytes v.toNat))) ∧
      DecodesTo b64 address ∧ ∀ i ≥ HOSTIPLEN, decodeP10Ip input i = none) ↔ ¬LoneLeadingMark b64 := by
  have hfour : base64touint (uinttobase64 v.toNat 6) = v.toNat ∧
      Says (decodeP10Ip (uinttobase64 v.toNat 6)) (dotted (networkBytes v.toNat)) :=
    ⟨base64touint_six v.isLt, decode_six v⟩
  rw [← decodesTo_encoding h]
  constructor
  · exact fun hall => hall.2.1
  · exact fun hsix => ⟨hfour, hsix, decode_within input⟩

def linkLocal : In6Addr := ⟨[0xfe80#16, 0#16, 0#16, 0#16, 0#16, 0#16, 0#16, 1#16], rfl⟩

theorem linkLocal_decodes : DecodesTo "P6A_AAB".toList linkLocal := by
  have hlone : ¬LoneLeadingMark "P6A_AAB".toList := fun hlone => absurd hlone.2 (by decide)
  have henc : Encoding linkLocal.groups "P6A_AAB".toList :=
    .marked [0xfe80#16] [1#16] 6 rfl (by decide)
  exact ((decodeP10Ip_faithful_iff 0#32 linkLocal henc []).mpr hlone).2.1

def counting : In6Addr := ⟨[0#16, 1#16, 2#16, 3#16, 4#16, 5#16, 6#16, 7#16], rfl⟩

theorem counting_not_decoded :
    ¬∀ b64, Encoding counting.groups b64 → DecodesTo b64 counting := by
  intro h
  have hshort : (encoded [] ++ '_' :: encoded counting.groups.tail).length < 24 := by decide
  have hdecodes := h _ (.marked [] counting.groups.tail 1 rfl hshort)
  rw [decodesTo_iff counting (decode_marked hshort)] at hdecodes
  have hnone : inetPton6 (markedText [] counting.groups.tail) = none := by decide +kernel
  rw [hnone] at hdecodes
  cases hdecodes

end ChatServices.Protocol.P10Address
