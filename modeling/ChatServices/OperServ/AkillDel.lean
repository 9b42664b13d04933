import ChatServices.BanNumbers
import ChatServices.CidrExact
import ChatServices.CommandTree
import ChatServices.Lib.Halting

/-! `AKILL DEL`, by numbers and ranges of them. -/
namespace ChatServices.OperServ.AkillDel
open ChatServices.Text ChatServices.Match ChatServices.Lib.Numbered
open ChatServices.CommandTree (strtok)
open ChatServices.Cidr (atoi strtol digitsVal strtol_leading digit_not_space digit_not_sign)

/-- `char t[16]`; nothing is known of a byte that was not written. -/
abbrev Scratch := List (Option Char)

def scratchSize : Nat := 16

def unwritten : Scratch := List.replicate scratchSize none

inductive Reply where
  | needMoreParams
  | removed (mask : CString × CString)
  | noSuchNumber (number : Nat)
  | noSuchMask (user host : Option CString)
  deriving DecidableEq

structure Del where
  bans : Bans
  scratch : Scratch
  replies : List Reply
  deriving DecidableEq

/-- The loop that copies a text to the front of `t`, and `t[++i] = '\0'` behind it; nothing where this
writes beyond the end. -/
def copyIn (t : Scratch) (text : CString) : Option Scratch :=
  if text.length + 1 < scratchSize then
    some ((text.map some ++ t.drop text.length).set (text.length + 1) (some nul))
  else none

/-- `unsigned int number = atoi (s)` -/
def readNumber (s : CString) : Nat := (BitVec.ofInt 32 (atoi s)).toNat

/-- What `atoi` has read when it stops: it has seen a byte that is no part of the number. -/
def atoiStops (s : CString) : Bool :=
  let s := s.dropWhile fun c => c = ' ' || ('\t' ≤ c && c ≤ '\x0d')
  let s := if s.head? = some '-' ∨ s.head? = some '+' then s.tail else s
  s.dropWhile isDigit ≠ []

/-- `atoi (t)`; nothing where it gets to a byte that was not written. -/
def scratchNumber (t : Scratch) : Option Nat :=
  let s := (t.takeWhile Option.isSome).filterMap id
  if atoiStops s then some (readNumber s) else none

def delNumber (d : Del) (number : Nat) : Del × Bool :=
  match klineFindNum d.bans number with
  | none => ({ d with replies := d.replies ++ [.noSuchNumber number] }, false)
  | some k =>
    ({ d with bans := akillDelNum d.bans number, replies := d.replies ++ [.removed k.mask] }, true)

/-- One turn of `for (i = start; i <= end; i++)`, with an `unsigned int`. -/
def rangeStep (stop : Nat) (s : Del × Nat) : Del ⊕ (Del × Nat) :=
  if s.2 ≤ stop then .inr ((delNumber s.1 s.2).1, (s.2 + 1) % 2 ^ 32) else .inl s.1

def delItem (d : Del) (s : CString) : Option (Del × Bool) :=
  if ':' ∈ s then do
    let t ← copyIn d.scratch (s.takeWhile (· ≠ ':'))
    let start ← scratchNumber t
    let t ← copyIn t (s.dropWhile (· ≠ ':')).tail
    let stop ← scratchNumber t
    let d ← Lib.Halting.run (rangeStep stop) (2 ^ 32 + 1) ({ d with scratch := t }, start)
    return (d, true)
  else some (delNumber d (readNumber s))

/-- The loop over the items, with what `strtok` keeps. -/
def delItems : Nat → Del → CString → CString → Option Del
  | 0, _, _, _ => none
  | n + 1, d, s, save =>
    match delItem d s with
    | none => none
    | some (d, false) => some d
    | some (d, true) =>
      match strtok none [','] save with
      | (none, _) => some d
      | (some s, save) => delItems n d s save

/-- `os_cmd_akill_del`; `t` is what the buffer holds, and there is no answer where the command does
not end, writes outside the buffer or reads what nobody wrote. -/
def osCmdAkillDel (cfg : BanConfig) (bans : Bans) (target : Option CString) (t : Scratch) :
    Option (Bans × List Reply) :=
  match target with
  | none => some (bans, [.needMoreParams])
  | some target =>
    if ',' ∈ target then
      match strtok (some target) [','] [] with
      | (none, _) => none
      | (some s, save) => (delItems target.length ⟨bans, t, []⟩ s save).map fun d => (d.bans, d.replies)
    else if '@' ∉ target then
      (delItem ⟨bans, t, []⟩ target).map fun r => (r.1.bans, r.1.replies)
    else
      let (user, save) := strtok (some target) ['@'] []
      let (host, _) := strtok none [] save
      match user, host with
      | some userbuf, some hostbuf =>
        if (klineFind cfg bans (userbuf, hostbuf)).isSome then
          some (klineDelete bans (klineHits cfg (userbuf, hostbuf)), [.removed (userbuf, hostbuf)])
        else some (bans, [.noSuchMask user host])
      | _, _ => some (bans, [.noSuchMask user host])

/-! ### Targets -/

structure Number where
  text : CString
  nonempty : text ≠ []
  digits : ∀ c ∈ text, isDigit c = true

def Number.value (n : Number) : Nat := digitsVal n.text

inductive Item where
  | single (n : Number)
  | range (first last : Number)

def Item.text : Item → CString
  | .single n => n.text
  | .range first last => first.text ++ ':' :: last.text

def targetText (items : List Item) : CString := [','].intercalate (items.map Item.text)

def expected : List Item → List Kline → List Kline
  | [], ks => ks
  | .single n :: items, ks =>
    if ks.any (fun k => k.number = n.value) then
      expected items (ks.filter fun k => k.number ≠ n.value)
    else ks
  | .range first last :: items, ks =>
    expected items (ks.filter fun k => ¬ (first.value ≤ k.number ∧ k.number ≤ last.value))

/-- As far as the items are numbers of K-lines that are there, no range follows, and no number beyond
the type: unless neither it nor what is read of it is the number of a K-line. -/
def Plain : List Item → List Kline → Prop
  | [], _ => True
  | .range _ _ :: _, _ => False
  | .single n :: items, ks =>
    if n.value < 2 ^ 32 then
      ks.any (fun k => k.number = n.value) = true → Plain items (ks.filter fun k => k.number ≠ n.value)
    else ∀ k ∈ ks, k.number ≠ n.value ∧ k.number ≠ readNumber n.text

instance : ∀ items ks, Decidable (Plain items ks)
  | [], _ => inferInstanceAs (Decidable True)
  | .range _ _ :: _, _ => inferInstanceAs (Decidable False)
  | .single n :: items, ks =>
    have := instDecidablePlain items (ks.filter fun k => k.number ≠ n.value)
    inferInstanceAs (Decidable (if n.value < 2 ^ 32 then
      ks.any (fun k => k.number = n.value) = true → Plain items (ks.filter fun k => k.number ≠ n.value)
      else ∀ k ∈ ks, k.number ≠ n.value ∧ k.number ≠ readNumber n.text))

section texts

theorem isDigit_comma : isDigit ',' = false := by decide

theorem isDigit_colon : isDigit ':' = false := by decide

theorem isDigit_at : isDigit '@' = false := by decide

theorem Number.notMem (n : Number) {c : Char} (hc : isDigit c = false) : c ∉ n.text := by
  intro h
  rw [n.digits c h] at hc
  cases hc

theorem Item.notMem (i : Item) {c : Char} (hc : isDigit c = false) (hcolon : c ≠ ':') : c ∉ i.text := by
  cases i with
  | single n => exact n.notMem hc
  | range first last =>
    rw [Item.text, List.mem_append, List.mem_cons]
    rintro (h | h | h)
    · exact first.notMem hc h
    · exact hcolon h
    · exact last.notMem hc h

theorem Item.ne_nil (i : Item) : i.text ≠ [] := by
  cases i with
  | single n => exact n.nonempty
  | range first last => simp [Item.text]

theorem targetText_cons (i j : Item) (items : List Item) :
    targetText (i :: j :: items) = i.text ++ ',' :: targetText (j :: items) := by
  simp [targetText, List.intercalate_cons_cons]

theorem targetText_one (i : Item) : targetText [i] = i.text := by simp [targetText]

theorem length_targetText (items : List Item) : items.length ≤ (targetText items).length := by
  induction items with
  | nil => exact Nat.zero_le _
  | cons i items ih =>
    have hi := List.length_pos_of_ne_nil i.ne_nil
    cases items with
    | nil =>
      rw [targetText_one]
      exact hi
    | cons j items =>
      simp only [targetText_cons, List.length_append, List.length_cons] at ih ⊢
      omega

theorem strtok_targetText {s : Option CString} {save : CString} (i : Item) (items : List Item)
    (h : s.getD save = targetText (i :: items)) :
    strtok s [','] save = (some i.text, targetText items) := by
  have hcomma : ∀ c ∈ i.text, c ≠ ',' := fun c hc heq =>
    i.notMem isDigit_comma (by decide) (heq ▸ hc)
  have hall : ∀ c ∈ i.text, decide (c ∉ [',']) = true := by
    intro c hc
    simpa using hcomma c hc
  have hstart : ∀ rest, (i.text ++ rest).dropWhile (· ∈ [',']) = i.text ++ rest := by
    intro rest
    obtain ⟨c, w, hw⟩ := List.exists_cons_of_ne_nil i.ne_nil
    have hc := hcomma c (by rw [hw]; exact List.mem_cons_self)
    rw [hw, List.cons_append, List.dropWhile_cons_of_neg (by simpa using hc)]
  have hne : ∀ rest, i.text ++ rest ≠ [] := fun rest => List.append_ne_nil_of_left_ne_nil i.ne_nil rest
  rw [strtok, h]
  cases items with
  | nil =>
    rw [targetText_one, ← List.append_nil i.text, hstart, if_neg (hne [])]
    rw [List.takeWhile_append_of_pos hall, List.dropWhile_append_of_pos hall]
    rfl
  | cons j items =>
    rw [targetText_cons, hstart, if_neg (hne _), List.takeWhile_append_of_pos hall,
      List.dropWhile_append_of_pos hall]
    simp

theorem strtok_end : strtok none [','] [] = (none, []) := rfl

end texts

/-! ### Numbers as they are read -/

section numbers
variable (n : Number)

theorem readNumber_eq : readNumber n.text = min n.value (2 ^ 63 - 1) % 2 ^ 32 := by
  obtain ⟨c, w, hw⟩ := List.exists_cons_of_ne_nil n.nonempty
  have hread : strtol n.text = min (n.value : Int) (2 ^ 63 - 1) := by
    have hlead : strtol (c :: w ++ []) = min (digitsVal (c :: w) : Int) (2 ^ 63 - 1) :=
      strtol_leading (fun d hd => n.digits d (hw ▸ hd)) nofun
    rwa [List.append_nil, ← hw] at hlead
  rw [readNumber, atoi, BitVec.ofInt_toInt, hread, BitVec.toNat_ofInt]
  omega

theorem readNumber_lt (s : CString) : readNumber s < 2 ^ 32 := BitVec.isLt _

theorem readNumber_small (h : n.value < 2 ^ 32) : readNumber n.text = n.value := by
  rw [readNumber_eq]
  omega

theorem copyIn_unread {t : Scratch} (h : copyIn unwritten n.text = some t) : scratchNumber t = none := by
  rw [copyIn] at h
  split_ifs at h with hroom
  have hsize : scratchSize = 16 := rfl
  have hdrop : unwritten.drop n.text.length = none :: List.replicate (15 - n.text.length) none := by
    rw [unwritten, List.drop_replicate, hsize, ← List.replicate_succ]
    congr 1
    omega
  have hknown : (t.takeWhile Option.isSome).filterMap id = n.text := by
    have hset : (n.text.map some ++ none :: List.replicate (15 - n.text.length) none).set
        (n.text.length + 1) (some nul) =
          n.text.map some ++ none :: (List.replicate (15 - n.text.length) none).set 0 (some nul) := by
      rw [List.set_append_right _ _ (by simp), List.length_map, Nat.add_sub_cancel_left,
        List.set_cons_succ]
    have hall : ∀ b ∈ n.text.map some, Option.isSome b = true := by simp
    rw [hdrop, hset] at h
    rw [← Option.some.inj h, List.takeWhile_append_of_pos hall, List.takeWhile_cons_of_neg (by simp),
      List.append_nil]
    simp
  have hstops : atoiStops n.text = false := by
    obtain ⟨c, w, hw⟩ := List.exists_cons_of_ne_nil n.nonempty
    have hc : isDigit c = true := n.digits c (by rw [hw]; exact List.mem_cons_self)
    obtain ⟨hminus, hplus⟩ := digit_not_sign hc
    have hblank : n.text.dropWhile (fun c => c = ' ' || ('\t' ≤ c && c ≤ '\x0d')) = n.text := by
      rw [hw, List.dropWhile_cons_of_neg (by rw [digit_not_space hc]; exact Bool.false_ne_true)]
    have hsign : ¬ (n.text.head? = some '-' ∨ n.text.head? = some '+') := by
      rw [hw, List.head?_cons, Option.some_inj, Option.some_inj, not_or]
      exact ⟨hminus, hplus⟩
    have hnumber : n.text.dropWhile isDigit = [] := List.dropWhile_eq_nil_iff.mpr n.digits
    rw [atoiStops, hblank, if_neg hsign, hnumber]
    rfl
  rw [scratchNumber, hknown, hstops, if_neg Bool.false_ne_true]

end numbers

/-! ### Items -/

section items
variable {d : Del} {n : Number}

theorem delItem_range (first last : Number) (h : d.scratch = unwritten) :
    delItem d (Item.range first last).text = none := by
  have hcolon : ':' ∈ (Item.range first last).text := by simp [Item.text]
  have htake : (Item.range first last).text.takeWhile (· ≠ ':') = first.text := by
    have hall : ∀ c ∈ first.text, decide (c ≠ ':') = true := by
      intro c hc
      simpa using fun heq : c = ':' => first.notMem isDigit_colon (heq ▸ hc)
    rw [Item.text, List.takeWhile_append_of_pos hall, List.takeWhile_cons_of_neg (by simp),
      List.append_nil]
  rw [delItem, if_pos hcolon, htake, h]
  cases hcopy : copyIn unwritten first.text with
  | none => rfl
  | some t =>
    have hunread := copyIn_unread first hcopy
    simp [hunread]

theorem delItem_single : delItem d n.text = some (delNumber d (readNumber n.text)) := by
  rw [delItem, if_neg (n.notMem isDigit_colon)]

theorem delNumber_none {number : Nat} (h : ∀ k ∈ d.bans.klines, k.number ≠ number) :
    delNumber d number = ({ d with replies := d.replies ++ [.noSuchNumber number] }, false) := by
  have hfind : klineFindNum d.bans number = none := by
    rw [klineFindNum, List.find?_eq_none]
    intro k hk
    simpa using h k hk
  rw [delNumber, hfind]

theorem delNumber_some {number : Nat} (hd : Distinct Ban.number d.bans.klines)
    (h : ∃ k ∈ d.bans.klines, k.number = number) : ∃ replies, delNumber d number =
      ({ d with bans := { d.bans with klines := d.bans.klines.filter fun k => k.number ≠ number },
                replies := replies }, true) := by
  obtain ⟨k, hk, hnumber⟩ := h
  cases hfind : klineFindNum d.bans number with
  | none =>
    rw [klineFindNum, List.find?_eq_none] at hfind
    exact absurd hnumber (by simpa using hfind k hk)
  | some k' =>
    have hk' : k'.number = number := by
      have hfound := List.find?_some hfind
      simpa using hfound
    have herase := hd.eraseP_num (List.mem_of_find?_eq_some hfind)
    rw [hk'] at herase
    refine ⟨d.replies ++ [.removed k'.mask], ?_⟩
    rw [delNumber, hfind]
    simp only [akillDelNum, hfind, klineDelete, herase]

theorem expected_sublist (items : List Item) (ks : List Kline) : (expected items ks).Sublist ks := by
  induction items generalizing ks with
  | nil => exact List.Sublist.refl ks
  | cons i items ih =>
    cases i with
    | single n =>
      rw [expected]
      split_ifs
      · exact (ih _).trans List.filter_sublist
      · exact List.Sublist.refl ks
    | range first last =>
      rw [expected]
      exact (ih _).trans List.filter_sublist

theorem delItems_next {fuel : Nat} {s : CString} {d' : Del} (h : delItem d s = some (d', true))
    (items : List Item) : delItems (fuel + 1) d s (targetText items) =
      match items with
      | [] => some d'
      | i :: items => delItems fuel d' i.text (targetText items) := by
  cases items with
  | nil =>
    have hend : strtok none [','] (targetText []) = (none, []) := strtok_end
    rw [delItems, h]
    dsimp only
    rw [hend]
  | cons i items =>
    have hnext : strtok none [','] (targetText (i :: items)) = (some i.text, targetText items) :=
      strtok_targetText i items rfl
    rw [delItems, h]
    dsimp only
    rw [hnext]

/-- What goes on from `d` to `d'`: K-lines are taken away, and none with a number beyond the type. -/
structure Takes (d d' : Del) : Prop where
  scratch : d'.scratch = d.scratch
  fewer : d'.bans.klines.Sublist d.bans.klines
  beyond : ∀ k ∈ d.bans.klines, 2 ^ 32 ≤ k.number → k ∈ d'.bans.klines

theorem delNumber_takes {number : Nat} (hd : Distinct Ban.number d.bans.klines) (hn : number < 2 ^ 32) :
    Takes d (delNumber d number).1 := by
  by_cases h : ∃ k ∈ d.bans.klines, k.number = number
  · obtain ⟨replies, hdel⟩ := delNumber_some hd h
    rw [hdel]
    refine ⟨rfl, List.filter_sublist, ?_⟩
    intro k hk hbig
    have hne : k.number ≠ number := by omega
    exact List.mem_filter.mpr ⟨hk, decide_eq_true hne⟩
  · have hnone : ∀ k ∈ d.bans.klines, k.number ≠ number := fun k hk hnumber => h ⟨k, hk, hnumber⟩
    rw [delNumber_none hnone]
    exact ⟨rfl, List.Sublist.refl _, fun k hk _ => hk⟩

theorem Takes.trans {d₁ d₂ d₃ : Del} (h : Takes d₁ d₂) (h' : Takes d₂ d₃) : Takes d₁ d₃ :=
  ⟨h'.scratch.trans h.scratch, h'.fewer.trans h.fewer,
    fun k hk hbig => h'.beyond k (h.beyond k hk hbig) hbig⟩

theorem delItems_takes {fuel : Nat} (i : Item) (items : List Item) {d' : Del}
    (ht : d.scratch = unwritten) (hd : Distinct Ban.number d.bans.klines)
    (h : delItems fuel d i.text (targetText items) = some d') : Takes d d' := by
  induction fuel generalizing d i items with
  | zero => cases h
  | succ fuel ih =>
    cases i with
    | range first last =>
      rw [delItems, delItem_range first last ht] at h
      cases h
    | single n =>
      have hitem : delItem d (Item.single n).text = some (delNumber d (readNumber n.text)) :=
        delItem_single
      have hfirst := delNumber_takes hd (readNumber_lt n.text)
      cases hdel : delNumber d (readNumber n.text) with
      | mk d₁ there =>
        rw [hdel] at hitem hfirst
        cases there with
        | false =>
          rw [delItems, hitem] at h
          cases h
          exact hfirst
        | true =>
          rw [delItems_next hitem] at h
          cases items with
          | nil =>
            cases h
            exact hfirst
          | cons j items =>
            exact hfirst.trans (ih j items (hfirst.scratch.trans ht) (hd.sublist hfirst.fewer) h)

theorem any_number {ks : List Kline} {number : Nat} :
    ks.any (fun k => k.number = number) = true ↔ ∃ k ∈ ks, k.number = number := by
  simp

theorem expected_absent (items : List Item) {ks : List Kline} (h : ∀ k ∈ ks, k.number ≠ n.value) :
    expected (.single n :: items) ks = ks := by
  rw [expected, if_neg]
  rw [any_number]
  rintro ⟨k, hk, hnumber⟩
  exact h k hk hnumber

theorem delItems_fewer {fuel : Nat} {s : CString} {d₁ d' : Del} (items : List Item)
    (hitem : delItem d s = some (d₁, true)) (ht : d₁.scratch = unwritten)
    (hd : Distinct Ban.number d₁.bans.klines)
    (h : delItems (fuel + 1) d s (targetText items) = some d') :
    d'.bans.klines.Sublist d₁.bans.klines := by
  rw [delItems_next hitem] at h
  cases items with
  | nil =>
    cases h
    exact List.Sublist.refl _
  | cons j items => exact (delItems_takes j items ht hd h).fewer

theorem delItems_beyond {fuel : Nat} (items : List Item) (hbig : 2 ^ 32 ≤ n.value)
    (ht : d.scratch = unwritten) (hd : Distinct Ban.number d.bans.klines) :
    (∃ d', delItems (fuel + 1) d n.text (targetText items) = some d' ∧
      d'.bans = { d.bans with klines := expected (.single n :: items) d.bans.klines }) ↔
        ∀ k ∈ d.bans.klines, k.number ≠ n.value ∧ k.number ≠ readNumber n.text := by
  have hitem : delItem d n.text = some (delNumber d (readNumber n.text)) := delItem_single
  constructor
  · rintro ⟨d', hrun, hbans⟩
    have hklines : d'.bans.klines = expected (.single n :: items) d.bans.klines := by rw [hbans]
    have htakes := delItems_takes (.single n) items ht hd hrun
    have hvalue : ∀ k ∈ d.bans.klines, k.number ≠ n.value := by
      intro k hk hnumber
      have hstays := htakes.beyond k hk (by omega)
      rw [hklines, expected, if_pos (any_number.mpr ⟨k, hk, hnumber⟩)] at hstays
      have hkept := (List.mem_filter.mp ((expected_sublist items _).subset hstays)).2
      exact absurd hnumber (by simpa using hkept)
    intro k hk
    refine ⟨hvalue k hk, fun hnumber => ?_⟩
    obtain ⟨replies, hdel⟩ := delNumber_some hd ⟨k, hk, hnumber⟩
    rw [hdel] at hitem
    have hfewer := delItems_fewer items hitem ht (hd.sublist List.filter_sublist) hrun
    rw [hklines, expected_absent items hvalue] at hfewer
    have hkept := (List.mem_filter.mp (hfewer.subset hk)).2
    exact absurd hnumber (by simpa using hkept)
  · intro hnone
    rw [delNumber_none fun k hk => (hnone k hk).2] at hitem
    have hall := expected_absent items fun k hk => (hnone k hk).1
    refine ⟨_, by rw [delItems, hitem], ?_⟩
    rw [hall]

theorem delItems_iff (i : Item) (items : List Item) {fuel : Nat} (hfuel : items.length < fuel)
    (ht : d.scratch = unwritten) (hd : Distinct Ban.number d.bans.klines) :
    (∃ d', delItems fuel d i.text (targetText items) = some d' ∧
      d'.bans = { d.bans with klines := expected (i :: items) d.bans.klines }) ↔
        Plain (i :: items) d.bans.klines := by
  induction fuel generalizing d i items with
  | zero => omega
  | succ fuel ih =>
    cases i with
    | range first last =>
      rw [delItems, delItem_range first last ht]
      simp [Plain]
    | single n =>
      rw [Plain]
      by_cases hsmall : n.value < 2 ^ 32
      · have hitem : delItem d (Item.single n).text = some (delNumber d (readNumber n.text)) :=
          delItem_single
        rw [readNumber_small n hsmall] at hitem
        rw [if_pos hsmall, expected]
        by_cases hthere : ∃ k ∈ d.bans.klines, k.number = n.value
        · obtain ⟨replies, hdel⟩ := delNumber_some hd hthere
          rw [hdel] at hitem
          rw [delItems_next hitem, if_pos (any_number.mpr hthere), any_number]
          cases items with
          | nil => exact ⟨fun _ _ => trivial, fun _ => ⟨_, rfl, rfl⟩⟩
          | cons j items =>
            rw [List.length_cons] at hfuel
            have hless : Distinct Ban.number (d.bans.klines.filter fun k => k.number ≠ n.value) :=
              hd.sublist List.filter_sublist
            have hrest := ih (d := ⟨{ d.bans with
              klines := d.bans.klines.filter fun k => k.number ≠ n.value }, d.scratch, replies⟩)
              j items (by omega) ht hless
            constructor
            · exact fun h _ => hrest.mp h
            · exact fun h => hrest.mpr (h hthere)
        · have hnone : ∀ k ∈ d.bans.klines, k.number ≠ n.value := fun k hk hnumber =>
            hthere ⟨k, hk, hnumber⟩
          rw [delNumber_none hnone] at hitem
          rw [delItems, hitem, if_neg (mt any_number.mp hthere)]
          exact ⟨fun _ h => absurd (any_number.mp h) hthere, fun _ => ⟨_, rfl, rfl⟩⟩
      · rw [if_neg hsmall]
        exact delItems_beyond items (by omega) ht hd

end items

theorem delItems_last {d : Del} {s : CString} (fuel : Nat) :
    delItems (fuel + 1) d s (targetText []) = (delItem d s).map Prod.fst := by
  have hend : strtok none [','] (targetText []) = (none, []) := strtok_end
  rw [delItems]
  cases delItem d s with
  | none => rfl
  | some r =>
    obtain ⟨d', there⟩ := r
    cases there with
    | false => rfl
    | true =>
      dsimp only
      rw [hend]
      rfl

theorem answer_iff {o : Option Del} {bans : Bans} :
    (∃ replies, o.map (fun d => (d.bans, d.replies)) = some (bans, replies)) ↔
      ∃ d', o = some d' ∧ d'.bans = bans := by
  cases o <;> simp

theorem osCmdAkillDel_items (cfg : BanConfig) (bans : Bans) (i : Item) (items : List Item) (t : Scratch) :
    osCmdAkillDel cfg bans (some (targetText (i :: items))) t =
      (delItems (targetText (i :: items)).length ⟨bans, t, []⟩ i.text (targetText items)).map
        fun d => (d.bans, d.replies) := by
  cases items with
  | nil =>
    have hat : '@' ∉ i.text := i.notMem isDigit_at (by decide)
    have hcomma : ',' ∉ i.text := i.notMem isDigit_comma (by decide)
    obtain ⟨fuel, hfuel⟩ := Nat.exists_eq_succ_of_ne_zero (List.length_pos_of_ne_nil i.ne_nil).ne'
    rw [targetText_one, hfuel, delItems_last, Option.map_map, osCmdAkillDel]
    dsimp only
    rw [if_neg hcomma, if_pos hat]
    rfl
  | cons j items =>
    have hcomma : ',' ∈ targetText (i :: j :: items) := by simp [targetText_cons]
    have hfirst : strtok (some (targetText (i :: j :: items))) [','] [] =
        (some i.text, targetText (j :: items)) := strtok_targetText i (j :: items) rfl
    rw [osCmdAkillDel]
    dsimp only
    rw [if_pos hcomma, hfirst]

/-- With numbers that are unique, `AKILL DEL` takes away exactly what its target names if and only if
no range is reached, and no number beyond the type that names a K-line or is read as one. -/
theorem akill_del_exact_iff (cfg : BanConfig) (bans : Bans) (hd : Distinct Ban.number bans.klines)
    (i : Item) (items : List Item) :
    (∃ replies, osCmdAkillDel cfg bans (some (targetText (i :: items))) unwritten =
      some ({ bans with klines := expected (i :: items) bans.klines }, replies)) ↔
        Plain (i :: items) bans.klines := by
  have hfuel : items.length < (targetText (i :: items)).length := length_targetText (i :: items)
  rw [osCmdAkillDel_items, answer_iff]
  exact delItems_iff (d := ⟨bans, unwritten, []⟩) i items hfuel rfl hd

/-! ### Three K-lines -/

def threeKlines : Bans :=
  { noBans with klines := [15, 20, 150].map fun n => newBan 1000 (['*'], "10.0.0.1".toList) 0 n }

def plainConfig : BanConfig := ⟨.rfc1459, fun _ _ => false, fun _ _ => false, false⟩

theorem threeKlines_distinct : Distinct Ban.number threeKlines.klines := by
  rw [Distinct]
  decide

theorem akill_del_exact_two :
    ∃ replies, osCmdAkillDel plainConfig threeKlines (some "20,15".toList) unwritten =
      some ({ threeKlines with klines := [newBan 1000 (['*'], "10.0.0.1".toList) 0 150] }, replies) :=
  (akill_del_exact_iff plainConfig threeKlines threeKlines_distinct
    (.single ⟨"20".toList, by decide, List.all_eq_true.mp (by decide)⟩)
    [.single ⟨"15".toList, by decide, List.all_eq_true.mp (by decide)⟩]).mpr
    (by decide +kernel)

/-- A range reads a byte that nobody wrote. If a 0 happens to stand there, 10:20 is read as 100 to
200. -/
theorem range_reads_too_far :
    osCmdAkillDel plainConfig threeKlines (some "10:20".toList) unwritten = none ∧
      (osCmdAkillDel plainConfig threeKlines (some "10:20".toList) (List.replicate 16 (some '0'))).map
        (fun r => r.1.klines.map Ban.number) = some [15, 20] :=
  ⟨by decide +kernel, by decide +kernel⟩

end ChatServices.OperServ.AkillDel
