import ChatServices.Modes.LockQueue
import ChatServices.Modes.Sjoin

/-! `channel_modes` prints the modes of a channel as a mode string and its parameters, and
`channel_mode` reads them back. -/
namespace ChatServices.Modes
open ChatServices.Lib.Mask ChatServices.Text ChatServices.ChanServ ChatServices.ChanServ.Channels
  ChatServices.Storage

section model
variable (t : Tables)

/-- `%d` of an `unsigned int`. -/
def signedText (n : Nat) : CString := if n < 2 ^ 31 then natArg n else '-' :: natArg (2 ^ 32 - n)

/-- One more letter in `p`, and its parameter in what is left of `q`. -/
def printMode (doparams : Bool) (c : Char) (param : CString) (pq : CString × CString) :
    CString × CString :=
  (pq.1 ++ [c], if doparams then pq.2 ++ (' ' :: param).take (511 - pq.2.length) else pq.2)

def channelModes (doparams : Bool) (ch : Channel) : CString :=
  let pq := ('+' :: flagsToString t ch.modes, [])
  let pq := if ch.limit ≠ 0 then printMode doparams 'l' (signedText ch.limit) pq else pq
  let pq := match ch.key with
    | some key => printMode doparams 'k' key pq
    | none => pq
  let pq := (List.range t.ignoreModeList.length).foldl (fun pq i =>
    match ch.extmodes i with
    | some value => printMode doparams (extLetter t i) value pq
    | none => pq) pq
  pq.1 ++ pq.2.take (511 - pq.1.length)

def RoundTrips (ch : Channel) : Prop :=
  ∀ v, channelMode t.toIrcd v (clearSimpleModes ch) ((channelModes t true ch).splitOn ' ') = ch

end model

/-! ### The letters and their parameters -/

section print
variable (t : Tables)

def limitItem (ch : Channel) : List (Char × CString) :=
  if ch.limit ≠ 0 then [('l', signedText ch.limit)] else []

def keyItem (ch : Channel) : List (Char × CString) := ch.key.toList.map fun key => ('k', key)

def extItem (ch : Channel) (i : Nat) : List (Char × CString) :=
  (ch.extmodes i).toList.map fun value => (extLetter t i, value)

def printItems (ch : Channel) : List (Char × CString) :=
  limitItem ch ++ keyItem ch ++ (List.range t.ignoreModeList.length).flatMap (extItem t ch)

def printLetters (ch : Channel) : CString :=
  '+' :: flagsToString t ch.modes ++ (printItems t ch).map Prod.fst

def printParams (ch : Channel) : List CString := (printItems t ch).map Prod.snd

structure Printable (ch : Channel) : Prop where
  key : ∀ key, ch.key = some key → ' ' ∉ key
  exts : ∀ i value, ch.extmodes i = some value → ' ' ∉ value
  fits : (printLetters t ch).length + (args (printParams t ch)).length < 512

variable {t} {ch : Channel}

theorem printMode_fold (items : List (Char × CString)) (pq : CString × CString)
    (h : pq.2.length + (args (items.map Prod.snd)).length ≤ 511) :
    items.foldl (fun pq item => printMode true item.1 item.2 pq) pq =
      (pq.1 ++ items.map Prod.fst, pq.2 ++ args (items.map Prod.snd)) := by
  induction items generalizing pq with
  | nil => simp [args]
  | cons item items ih =>
    rw [List.map_cons, args_cons, List.length_cons, List.length_append] at h
    have htake : (' ' :: item.2).take (511 - pq.2.length) = ' ' :: item.2 := by
      apply List.take_of_length_le
      rw [List.length_cons]
      omega
    have hone : printMode true item.1 item.2 pq = (pq.1 ++ [item.1], pq.2 ++ ' ' :: item.2) := by
      rw [printMode, if_pos rfl, htake]
    have hrest := ih (printMode true item.1 item.2 pq) (by
      rw [hone, List.length_append, List.length_cons]
      omega)
    rw [List.foldl_cons, hrest, hone, List.map_cons, List.map_cons, args_cons]
    simp

theorem channelModes_fold (ch : Channel) : channelModes t true ch =
    let pq := (printItems t ch).foldl (fun pq item => printMode true item.1 item.2 pq)
      ('+' :: flagsToString t ch.modes, [])
    pq.1 ++ pq.2.take (511 - pq.1.length) := by
  have hlimit : ∀ pq : CString × CString,
      (if ch.limit ≠ 0 then printMode true 'l' (signedText ch.limit) pq else pq) =
        (limitItem ch).foldl (fun pq item => printMode true item.1 item.2 pq) pq := by
    intro pq
    rw [limitItem]
    split_ifs <;> rfl
  have hkey : ∀ pq : CString × CString, (match ch.key with
      | some key => printMode true 'k' key pq
      | none => pq) = (keyItem ch).foldl (fun pq item => printMode true item.1 item.2 pq) pq := by
    intro pq
    rw [keyItem]
    cases ch.key <;> rfl
  have hexts : ∀ (l : List Nat) (pq : CString × CString), l.foldl (fun pq i =>
      match ch.extmodes i with
      | some value => printMode true (extLetter t i) value pq
      | none => pq) pq =
        (l.flatMap (extItem t ch)).foldl (fun pq item => printMode true item.1 item.2 pq) pq := by
    intro l
    induction l with
    | nil => exact fun _ => rfl
    | cons i l ih =>
      intro pq
      rw [List.foldl_cons, List.flatMap_cons, List.foldl_append, ← ih, extItem]
      cases ch.extmodes i <;> rfl
  rw [channelModes, printItems, List.foldl_append, List.foldl_append, ← hlimit, ← hkey, ← hexts]

theorem channelModes_eq (h : Printable t ch) :
    channelModes t true ch = printLetters t ch ++ args (printParams t ch) := by
  have hfits := h.fits
  have hprint := printMode_fold (printItems t ch) ('+' :: flagsToString t ch.modes, [])
    (by rw [printParams] at hfits; simp only [List.length_nil]; omega)
  rw [channelModes_fold, hprint]
  have htake : (args (printParams t ch)).take (511 - (printLetters t ch).length) =
      args (printParams t ch) := List.take_of_length_le (by omega)
  simp only [List.nil_append]
  exact congrArg (printLetters t ch ++ ·) htake

/-! ### Reading the letters -/

variable (t) in
def ReadAs (item : Char × CString) (x : ModeChange) : Prop :=
  ¬ IsMark item.1 ∧ ∀ params, parseMode t.toIrcd true item.1 (item.2 :: params) = ([x], params)

theorem Wrote.readAs {b : Buf} {xs : List ModeChange} {ps : List CString} {n : Nat}
    (h : Wrote t b xs ps n) (hdir : b.dir = some true) {items : List (Char × CString)}
    {ys : List ModeChange} (hitems : List.Forall₂ (ReadAs t) items ys) :
    Wrote t { b with text := b.text ++ items.map Prod.fst } (xs ++ ys) (ps ++ items.map Prod.snd)
      (n + items.length) := by
  induction hitems generalizing b xs ps n with
  | nil => simpa using h
  | @cons item x items ys hitem _ ih =>
    have hparse : ∀ params, parseMode t.toIrcd true item.1 ([item.2] ++ params) = ([x], params) := hitem.2
    have hone := h.letter hdir hitem.1 hparse
    have hrest := ih hone hdir
    simp only [Buf.letter, List.append_assoc, List.singleton_append] at hrest
    exact hrest.mono (by rw [List.length_cons]; omega)

theorem readAs_limit (n : Nat) :
    ReadAs t ('l', signedText n) (.limit (some (signedText n))) := by
  refine ⟨?_, fun params => (t.parseMode_limit params).2 _⟩
  rintro (h | h | h)
  all_goals simp at h

theorem readAs_key (key : CString) : ReadAs t ('k', key) (.key (some key)) := by
  obtain ⟨hsimple, hext, -, hmark⟩ := t.letters_apart.2.2.2.2 'k' (.inl rfl)
  have hidx : t.ignoreModeList.idxOf? 'k' = none := List.idxOf?_eq_none_iff.mpr hext
  refine ⟨hmark, fun params => ?_⟩
  simp only [parseMode, t.find_simple_none hsimple, hidx]
  rfl

theorem readAs_ext {i : Nat} (hi : i < t.ignoreModeList.length) (value : CString) :
    ReadAs t (extLetter t i, value) (.ext i (some value)) := by
  have hletter : extLetter t i = t.ignoreModeList[i] := by
    rw [extLetter, List.getElem?_eq_getElem hi, Option.getD_some]
  refine ⟨?_, fun params => ?_⟩
  · rw [hletter]
    exact (t.letters_apart.2.1 _ (List.getElem_mem hi)).2
  · rw [hletter]
    exact (t.parseMode_ext hi params).2 value

def limitPrinted (ch : Channel) : List ModeChange :=
  if ch.limit ≠ 0 then [.limit (some (signedText ch.limit))] else []

def keyPrinted (ch : Channel) : List ModeChange := ch.key.toList.map fun key => .key (some key)

def extPrinted (ch : Channel) (i : Nat) : List ModeChange :=
  (ch.extmodes i).toList.map fun value => .ext i (some value)

variable (t) in
def printChanges (ch : Channel) : List ModeChange :=
  limitPrinted ch ++ keyPrinted ch ++ (List.range t.ignoreModeList.length).flatMap (extPrinted ch)

variable (t) in
theorem printItems_read (ch : Channel) :
    List.Forall₂ (ReadAs t) (printItems t ch) (printChanges t ch) := by
  have hlimit : List.Forall₂ (ReadAs t) (limitItem ch) (limitPrinted ch) := by
    rw [limitItem, limitPrinted]
    split_ifs
    · exact .cons (readAs_limit ch.limit) .nil
    · exact .nil
  have hkey : List.Forall₂ (ReadAs t) (keyItem ch) (keyPrinted ch) := by
    rw [keyItem, keyPrinted]
    cases ch.key with
    | none => exact .nil
    | some key => exact .cons (readAs_key key) .nil
  have hexts : ∀ l : List Nat, (∀ i ∈ l, i < t.ignoreModeList.length) →
      List.Forall₂ (ReadAs t) (l.flatMap (extItem t ch)) (l.flatMap (extPrinted ch)) := by
    intro l
    induction l with
    | nil => exact fun _ => .nil
    | cons i l ih =>
      intro hl
      have hi := hl i List.mem_cons_self
      have hrest := ih fun j hj => hl j (List.mem_cons_of_mem i hj)
      rw [List.flatMap_cons, List.flatMap_cons, extItem, extPrinted]
      cases ch.extmodes i with
      | none => exact hrest
      | some value => exact .cons (readAs_ext hi value) hrest
  exact List.rel_append (List.rel_append hlimit hkey) (hexts _ fun i => List.mem_range.mp)

theorem printParams_clean (h : Printable t ch) : ∀ p ∈ printParams t ch, ' ' ∉ p := by
  have hdigits : ∀ n, ' ' ∉ natArg n := by
    intro n hmem
    exact absurd (isDigit_of_mem_natArg hmem) (by decide)
  intro p hp
  simp only [printParams, printItems, List.map_append, List.mem_append] at hp
  obtain (hp | hp) | hp := hp
  · rw [limitItem] at hp
    split_ifs at hp
    · rw [List.map_singleton, List.mem_singleton] at hp
      rw [hp, signedText]
      split_ifs
      · exact hdigits _
      · simpa using hdigits _
    · cases hp
  · rw [keyItem, List.map_map, List.mem_map] at hp
    obtain ⟨key, hkey, rfl⟩ := hp
    exact h.key key (Option.mem_toList.mp hkey)
  · obtain ⟨item, hitem, rfl⟩ := List.mem_map.mp hp
    obtain ⟨i, -, hitem⟩ := List.mem_flatMap.mp hitem
    obtain ⟨value, hvalue, rfl⟩ := List.mem_map.mp hitem
    exact h.exts i value (Option.mem_toList.mp hvalue)

theorem channelMode_print (h : Printable t ch) (v : View) (ch' : Channel) :
    channelMode t.toIrcd v ch' ((channelModes t true ch).splitOn ' ') =
      changes v ch' (t.simples true ch.modes ++ printChanges t ch) := by
  have hplus : Wrote t ⟨['+'], some true⟩ [] [] 1 := (Wrote.empty (t := t)).turn true
  have hsimple := hplus.simples rfl (t.modeList.filter fun m => test ch.modes m.2)
    fun m hm => (List.mem_filter.mp hm).1
  have hall := hsimple.readAs rfl (printItems_read t ch)
  have hread := hall.reads [] []
  have hsplit := splitOn_args hall.clean (printParams_clean h)
  rw [List.append_nil, List.append_nil, parseModes.eq_1, List.append_nil] at hread
  have htext : '+' :: (t.modeList.filter fun m => test ch.modes m.2).map Prod.fst ++
      (printItems t ch).map Prod.fst = printLetters t ch := rfl
  simp only [List.singleton_append, List.nil_append] at hsplit hread
  rw [htext] at hsplit hread
  have hpos : ¬ ((printLetters t ch).head? = none ∨ (printLetters t ch).head? = some '0') := by
    simp [printLetters]
  rw [channelModes_eq h, hsplit, channelMode]
  simp only [if_neg hpos]
  rw [printParams, hread]
  rfl

/-! ### What was printed and what is read -/

theorem atoi_neg_natArg {n : Nat} (h : n < 2 ^ 63) :
    BitVec.ofInt 32 (Cidr.atoi ('-' :: natArg n)) = BitVec.ofInt 32 (-n) := by
  have hmax : max (-(n : Int)) (-2 ^ 63) = -n := by omega
  rw [Cidr.atoi, BitVec.ofInt_toInt, strtol_neg_natArg, hmax]

theorem newLimit_signedText {n : Nat} (hpos : n ≠ 0) (hlt : n < 2 ^ 32) :
    newLimit (signedText n) = n := by
  rw [newLimit, signedText]
  split_ifs
  · have hread := congrArg BitVec.toNat (atoi_natArg (n := n) (by omega))
    rw [BitVec.toNat_ofInt, BitVec.toNat_ofNat] at hread
    omega
  · have hread := congrArg BitVec.toNat (atoi_neg_natArg (n := 2 ^ 32 - n) (by omega))
    rw [BitVec.toNat_ofInt, BitVec.toNat_ofInt] at hread
    omega

variable (t) in
def printedModes (ch : Channel) : Flags :=
  ch.modes &&& t.known ||| (if ch.limit ≠ 0 then cmodeLimit else 0#32) |||
    (if ch.key.isSome then cmodeKey else 0#32)

/-- What a channel of this protocol module is like: no bits that it has no letter for, no extended
modes beyond its list, and a limit that is an `unsigned int`. -/
structure Sound (t : Tables) (ch : Channel) : Prop where
  modes : Sub ch.modes (t.known ||| cmodeLimit ||| cmodeKey)
  limit : ch.limit < 2 ^ 32
  exts : ∀ i, t.ignoreModeList.length ≤ i → ch.extmodes i = none

theorem changes_extPrinted (v : View) (l : List Nat) (ch' : Channel) :
    changes v ch' (l.flatMap (extPrinted ch)) = { ch' with
      extmodes := fun i => if i ∈ l then (ch.extmodes i).or (ch'.extmodes i) else ch'.extmodes i } := by
  induction l generalizing ch' with
  | nil => simp
  | cons i l ih =>
    have hext : ∀ j, (if j ∈ l then (ch.extmodes j).or ((changes v ch' (extPrinted ch i)).extmodes j)
        else (changes v ch' (extPrinted ch i)).extmodes j) =
        if j ∈ i :: l then (ch.extmodes j).or (ch'.extmodes j) else ch'.extmodes j := by
      intro j
      rw [extPrinted]
      by_cases hj : j = i
      · subst hj
        cases ch.extmodes j with
        | none => simp
        | some value => simp [changes_cons, change]
      · cases ch.extmodes i with
        | none => simp [hj]
        | some value => simp [changes_cons, change, hj]
    rw [List.flatMap_cons, changes_append, ih]
    simp only [hext]
    rw [extPrinted]
    cases ch.extmodes i <;> rfl

theorem changes_limitPrinted (hlt : ch.limit < 2 ^ 32) (v : View) (ch' : Channel) :
    changes v ch' (limitPrinted ch) = { ch' with
      modes := ch'.modes ||| (if ch.limit ≠ 0 then cmodeLimit else 0#32)
      limit := if ch.limit ≠ 0 then ch.limit else ch'.limit } := by
  rw [limitPrinted]
  split_ifs with hne
  · rw [changes_cons, changes_nil, change, newLimit_signedText hne hlt]
  · rw [changes_nil, BitVec.or_zero]

theorem changes_keyPrinted (v : View) (ch' : Channel) :
    changes v ch' (keyPrinted ch) = { ch' with
      modes := ch'.modes ||| (if ch.key.isSome then cmodeKey else 0#32)
      key := ch.key.or ch'.key } := by
  rw [keyPrinted]
  cases ch.key with
  | none => simp
  | some key => rfl

theorem channelMode_printed (h : Printable t ch) (hs : Sound t ch) (v : View) :
    channelMode t.toIrcd v (clearSimpleModes ch) ((channelModes t true ch).splitOn ' ') =
      { ch with modes := printedModes t ch } := by
  have hext : (fun i => if i ∈ List.range t.ignoreModeList.length then ch.extmodes i else none) =
      ch.extmodes := by
    funext i
    split_ifs with hi
    · rfl
    · rw [List.mem_range, not_lt] at hi
      exact (hs.exts i hi).symm
  have hlimit : (if ch.limit ≠ 0 then ch.limit else 0) = ch.limit := by
    split_ifs <;> omega
  rw [channelMode_print h, printChanges, changes_append, changes_append, changes_append,
    t.changes_simples, changes_extPrinted, changes_keyPrinted, changes_limitPrinted hs.limit]
  simp only [setModes, if_true, clearSimpleModes, hlimit, Option.or_none, BitVec.zero_or, hext,
    printedModes]

structure BitsMatch (ch : Channel) : Prop where
  limit : test ch.modes cmodeLimit = true ↔ ch.limit ≠ 0
  key : test ch.modes cmodeKey = true ↔ ch.key.isSome

theorem has_printedModes (i : Nat) : Has (printedModes t ch) i ↔
    (Has ch.modes i ∧ Has t.known i) ∨ (ch.limit ≠ 0 ∧ i = 2) ∨ (ch.key.isSome ∧ i = 1) := by
  have hite : ∀ (p : Prop) [Decidable p] (f : Flags), Has (if p then f else 0#32) i ↔ p ∧ Has f i := by
    intro p _ f
    split_ifs with hp <;> simp [hp]
  rw [printedModes, has_or, has_or, has_and, hite, hite, Lock.has_cmodeLimit, Lock.has_cmodeKey,
    or_assoc]

theorem printedModes_eq_iff (hs : Sound t ch) : printedModes t ch = ch.modes ↔ BitsMatch ch := by
  obtain ⟨hkey, hlimit⟩ := known_apart (t := t)
  have hone : ¬ Has t.known 1 := by
    intro hk
    have hno := (eq_zero_iff _).mp hkey 1
    rw [has_and, Lock.has_cmodeKey] at hno
    exact hno ⟨hk, rfl⟩
  have htwo : ¬ Has t.known 2 := by
    intro hk
    have hno := (eq_zero_iff _).mp hlimit 2
    rw [has_and, Lock.has_cmodeLimit] at hno
    exact hno ⟨hk, rfl⟩
  have hbit1 : Has (printedModes t ch) 1 ↔ ch.key.isSome := by simp [has_printedModes, hone]
  have hbit2 : Has (printedModes t ch) 2 ↔ ch.limit ≠ 0 := by simp [has_printedModes, htwo]
  constructor
  · intro heq
    rw [heq, ← test_bit Lock.has_cmodeKey] at hbit1
    rw [heq, ← test_bit Lock.has_cmodeLimit] at hbit2
    exact ⟨hbit2, hbit1⟩
  · intro hmatch
    apply Lib.Mask.ext
    intro i
    by_cases hi1 : i = 1
    · rw [hi1, hbit1, ← hmatch.key, test_bit Lock.has_cmodeKey]
    · by_cases hi2 : i = 2
      · rw [hi2, hbit2, ← hmatch.limit, test_bit Lock.has_cmodeLimit]
      · rw [has_printedModes]
        constructor
        · rintro (hm | hl | hk)
          · exact hm.1
          · exact absurd hl.2 hi2
          · exact absurd hk.2 hi1
        · intro hm
          have hall := hs.modes.has hm
          rw [has_or, has_or, Lock.has_cmodeLimit, Lock.has_cmodeKey] at hall
          exact .inl ⟨hm, (hall.resolve_right hi1).resolve_right hi2⟩

theorem roundTrips_iff (h : Printable t ch) (hs : Sound t ch) : RoundTrips t ch ↔ BitsMatch ch := by
  rw [← printedModes_eq_iff hs]
  constructor
  · intro hall
    have hone := hall ⟨.rfc1459, fun _ => none, fun _ => false⟩
    rw [channelMode_printed h hs] at hone
    exact congrArg Channel.modes hone
  · intro hmodes v
    rw [channelMode_printed h hs, hmodes]

end print

end ChatServices.Modes
