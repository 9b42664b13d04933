import ChatServices.Text
import Mathlib.Tactic.SplitIfs

/-! The nick that an enforced user is moved to, `guest_nickname` of `modules/nickserv/enforce.c`: the
prefix of the configuration or what is kept of the old nick, and a random number behind it. -/
namespace ChatServices.NickServ.GuestNick
open ChatServices.Text

def NICKLEN : Nat := 32

def naturalareacode : CString := "0123456789BCDFGHJKLMNPQRSTVWXZ".toList

/-- The loop of `naturalareacode_encode`, with `room` bytes left in front of the digits. -/
def encodeFrom : Nat → Nat → CString → CString
  | 0, _, digits => digits
  | room + 1, value, digits =>
    let digits := naturalareacode.getD (value % 30) nul :: digits
    if value / 30 = 0 then digits else encodeFrom room (value / 30) digits

/-- `naturalareacode_encode`; the buffer has room for 14 digits, and any `unsigned long` fits. -/
def naturalareacodeEncode (value : Nat) : CString := encodeFrom 14 value []

/-- `snprintf (buf, size, format)` -/
def snprintf (size : Nat) (format : CString) : Option CString :=
  (formatText format).map (truncate size)

/-- `nicksvs.use_dynamic_enforce`, `nicksvs.maxnicklength` and `nicksvs.enforce_prefix` -/
structure Config where
  useDynamicEnforce : Bool
  maxnicklength : Nat
  enforcePrefix : CString

/-- The nick of a user: not empty, and with no `%`, which is no character of a nick. -/
structure Nick where
  text : CString
  nonempty : text ≠ []
  plain : '%' ∉ text

section guest
variable (cfg : Config)

/-- `oldnick`, as much of the nick as is kept. -/
def oldnick (nick : CString) : Option CString :=
  if nick.length + 5 > cfg.maxnicklength + 1 then
    snprintf ((cfg.maxnicklength + 2 ^ 32 - 4) % 2 ^ 32) nick
  else snprintf NICKLEN nick

/-- `gnick` for a random value, with `kept` in front. -/
def gnick (kept : CString) (value : Nat) : CString :=
  truncate NICKLEN (kept ++ naturalareacodeEncode (value % 24300000))

/-- The loop from the try `tries` on, of which `left` are left: the last nick stays if all are
taken. -/
def tryFrom (make : Nat → CString) (taken : CString → Bool) : Nat → Nat → CString → CString
  | 0, _, last => last
  | left + 1, tries, _ =>
    if taken (make tries) then tryFrom make taken left (tries + 1) (make tries) else make tries

/-- `guest_nickname`: the nick that `fnc_sts` sends. `taken` is what `user_find_named` finds, and
`arc4random` the value of each try. -/
def guestNickname (nick : Nick) (taken : CString → Bool) (arc4random : Nat → Nat) :
    Option CString :=
  (if cfg.useDynamicEnforce then oldnick cfg nick.text else some cfg.enforcePrefix).map fun kept =>
    tryFrom (fun tries => gnick kept (arc4random tries)) taken 30 0 []

end guest

/-! ### The number -/

section digits
variable {room m value : Nat}

theorem digit_mem (value : Nat) : naturalareacode.getD (value % 30) nul ∈ naturalareacode := by
  have hlt : value % 30 < naturalareacode.length := Nat.mod_lt value (by decide)
  rw [List.getD_eq_getElem?_getD, List.getElem?_eq_getElem hlt]
  exact List.getElem_mem hlt

theorem encodeFrom_digits (room value : Nat) (digits : CString) : ∃ number,
    encodeFrom room value digits = number ++ digits ∧ ∀ c ∈ number, c ∈ naturalareacode := by
  induction room generalizing value digits with
  | zero => exact ⟨[], rfl, nofun⟩
  | succ room ih =>
    rw [encodeFrom]
    by_cases hlast : value / 30 = 0
    · rw [if_pos hlast]
      exact ⟨[_], rfl, by simpa using digit_mem value⟩
    · rw [if_neg hlast]
      obtain ⟨number, heq, hdigits⟩ :=
        ih (value / 30) (naturalareacode.getD (value % 30) nul :: digits)
      refine ⟨number ++ [naturalareacode.getD (value % 30) nul], ?_, ?_⟩
      · rw [heq, List.append_assoc]
        rfl
      · intro c hc
        rw [List.mem_append, List.mem_singleton] at hc
        cases hc with
        | inl hc => exact hdigits c hc
        | inr hc =>
          rw [hc]
          exact digit_mem value

theorem length_encodeFrom_le (digits : CString) (hroom : m < room) (hvalue : value < 30 ^ (m + 1)) :
    (encodeFrom room value digits).length ≤ digits.length + (m + 1) := by
  induction room generalizing m value digits with
  | zero => omega
  | succ room ih =>
    rw [encodeFrom]
    by_cases hlast : value / 30 = 0
    · rw [if_pos hlast, List.length_cons]
      omega
    · rw [if_neg hlast]
      cases m with
      | zero => omega
      | succ m =>
        have hless : value / 30 < 30 ^ (m + 1) := by
          rw [Nat.pow_succ] at hvalue
          exact Nat.div_lt_of_lt_mul (by omega)
        have hlen := ih (naturalareacode.getD (value % 30) nul :: digits)
          (Nat.lt_of_succ_lt_succ hroom) hless
        rw [List.length_cons] at hlen
        omega

theorem le_length_encodeFrom (digits : CString) (hroom : m < room) (hvalue : m = 0 ∨ 30 ^ m ≤ value) :
    digits.length + (m + 1) ≤ (encodeFrom room value digits).length := by
  induction room generalizing m value digits with
  | zero => omega
  | succ room ih =>
    rw [encodeFrom]
    obtain ⟨number, heq, -⟩ :=
      encodeFrom_digits room (value / 30) (naturalareacode.getD (value % 30) nul :: digits)
    by_cases hlast : value / 30 = 0
    · have hzero : m = 0 := by
        cases hvalue with
        | inl hzero => exact hzero
        | inr hvalue =>
          by_contra hm
          have hpow : 30 ^ 1 ≤ 30 ^ m := Nat.pow_le_pow_right (by decide) (Nat.pos_of_ne_zero hm)
          omega
      rw [if_pos hlast, List.length_cons]
      omega
    · rw [if_neg hlast]
      cases m with
      | zero =>
        rw [heq, List.length_append, List.length_cons]
        omega
      | succ m =>
        have hmore : 30 ^ m ≤ value / 30 := by
          have hpow : 30 ^ (m + 1) ≤ value := hvalue.resolve_left (Nat.succ_ne_zero m)
          rw [Nat.pow_succ] at hpow
          exact (Nat.le_div_iff_mul_le (by decide)).mpr hpow
        have hlen := ih (naturalareacode.getD (value % 30) nul :: digits)
          (Nat.lt_of_succ_lt_succ hroom) (.inr hmore)
        rw [List.length_cons] at hlen
        omega

end digits

theorem number_length (value : Nat) :
    naturalareacodeEncode (value % 24300000) ≠ [] ∧
      (naturalareacodeEncode (value % 24300000)).length ≤ 5 := by
  have hlt : value % 24300000 < 30 ^ (4 + 1) := Nat.mod_lt value (by decide)
  have hle := length_encodeFrom_le [] (by decide : 4 < 14) hlt
  have hge := le_length_encodeFrom [] (by decide : 0 < 14)
    (.inl rfl : 0 = 0 ∨ 30 ^ 0 ≤ value % 24300000)
  refine ⟨?_, hle⟩
  rw [← List.length_pos_iff]
  exact Nat.lt_of_lt_of_le (by decide) hge

theorem number_digits (value : Nat) : ∀ c ∈ naturalareacodeEncode value, c ∈ naturalareacode := by
  obtain ⟨number, heq, hdigits⟩ := encodeFrom_digits 14 value []
  rw [naturalareacodeEncode, heq, List.append_nil]
  exact hdigits

/-! ### The nick -/

structure Fits (cfg : Config) (nick sent : CString) : Prop where
  short : sent.length ≤ cfg.maxnicklength
  parts : ∃ kept number, sent = kept ++ number ∧ kept ≠ [] ∧ kept <+: nick ∧ number ≠ [] ∧
    number.length ≤ 5 ∧ ∀ c ∈ number, c ∈ naturalareacode

section nick
variable {cfg : Config} {nick : Nick} {kept : CString}

theorem formatText_plain {s : CString} (h : '%' ∉ s) : formatText s = some s := by
  induction s with
  | nil => rfl
  | cons c s ih =>
    rw [List.mem_cons, not_or] at h
    rw [formatText.eq_def]
    split
    · next heq => exact absurd (List.cons.inj heq).1.symm h.1
    · next heq => exact absurd (List.cons.inj heq).1.symm h.1
    · next heq => cases heq
    · next heq =>
      obtain ⟨rfl, rfl⟩ := List.cons.inj heq
      rw [ih h.2]
      rfl

theorem tryFrom_make (make : Nat → CString) (taken : CString → Bool) (left tries : Nat)
    (last : CString) : ∃ t, tryFrom make taken (left + 1) tries last = make t := by
  induction left generalizing tries last with
  | zero =>
    refine ⟨tries, ?_⟩
    rw [tryFrom, tryFrom, ite_self]
  | succ left ih =>
    rw [tryFrom]
    split_ifs
    · exact ih (tries + 1) (make tries)
    · exact ⟨tries, rfl⟩

theorem oldnick_eq (hmin : 5 < cfg.maxnicklength) (hmax : cfg.maxnicklength < NICKLEN)
    (hnick : nick.text.length ≤ cfg.maxnicklength) : oldnick cfg nick.text = some
      (if nick.text.length + 4 > cfg.maxnicklength then nick.text.take (cfg.maxnicklength - 5)
        else nick.text) := by
  rw [NICKLEN] at hmax
  have hsize : (cfg.maxnicklength + 2 ^ 32 - 4) % 2 ^ 32 - 1 = cfg.maxnicklength - 5 := by omega
  have hcut : nick.text.length + 5 > cfg.maxnicklength + 1 ↔
      nick.text.length + 4 > cfg.maxnicklength := by omega
  rw [oldnick, snprintf, snprintf, formatText_plain nick.plain]
  simp only [hcut]
  split_ifs
  · rw [Option.map_some, truncate, hsize]
  · have hall : nick.text.take (NICKLEN - 1) = nick.text := by
      rw [NICKLEN]
      exact List.take_of_length_le (by omega)
    rw [Option.map_some, truncate, hall]

end nick

/-- The nick that is sent fits whatever is drawn, unless the old one leaves four bytes for a number
of five. -/
theorem guestNickname_fits_iff (cfg : Config) (nick : Nick) (hdynamic : cfg.useDynamicEnforce = true)
    (hmin : 5 < cfg.maxnicklength) (hmax : cfg.maxnicklength < NICKLEN)
    (hnick : nick.text.length ≤ cfg.maxnicklength) :
    (∀ taken arc4random, ∃ sent, guestNickname cfg nick taken arc4random = some sent ∧
      Fits cfg nick.text sent) ↔
      nick.text.length + 4 ≠ cfg.maxnicklength ∨ cfg.maxnicklength + 1 = NICKLEN := by
  have hold := oldnick_eq hmin hmax hnick
  have hsent : ∀ taken arc4random, ∃ t, guestNickname cfg nick taken arc4random = some (gnick
      (if nick.text.length + 4 > cfg.maxnicklength then nick.text.take (cfg.maxnicklength - 5)
        else nick.text) (arc4random t)) := by
    intro taken arc4random
    rw [guestNickname, if_pos hdynamic, hold]
    obtain ⟨t, ht⟩ := tryFrom_make (fun tries => gnick _ (arc4random tries)) taken 29 0 []
    exact ⟨t, congrArg some ht⟩
  have hpos := List.length_pos_iff.mpr nick.nonempty
  rw [NICKLEN] at hmax ⊢
  constructor
  · intro h
    by_contra hcond
    rw [not_or, not_not] at hcond
    obtain ⟨hfour, hshort⟩ := hcond
    obtain ⟨sent, heq, hfits⟩ := h (fun _ => false) fun _ => 30 ^ 4
    obtain ⟨t, ht⟩ := hsent (fun _ => false) fun _ => 30 ^ 4
    have hfive : (naturalareacodeEncode (30 ^ 4 % 24300000)).length = 5 := by decide
    rw [heq, if_neg (by omega), gnick, truncate] at ht
    have hlen := hfits.short
    rw [Option.some.inj ht, List.length_take, List.length_append, hfive, NICKLEN] at hlen
    omega
  · intro hcond taken arc4random
    obtain ⟨t, ht⟩ := hsent taken arc4random
    refine ⟨_, ht, ?_⟩
    obtain ⟨hnumber, hfive⟩ := number_length (arc4random t)
    have hdigits := number_digits (arc4random t % 24300000)
    rw [gnick]
    generalize naturalareacodeEncode (arc4random t % 24300000) = number at hnumber hfive hdigits
    by_cases hcut : nick.text.length + 4 > cfg.maxnicklength
    · have hkept : (nick.text.take (cfg.maxnicklength - 5)).length = cfg.maxnicklength - 5 := by
        rw [List.length_take]
        omega
      have hall : truncate NICKLEN (nick.text.take (cfg.maxnicklength - 5) ++ number) =
          nick.text.take (cfg.maxnicklength - 5) ++ number := by
        rw [truncate, NICKLEN]
        exact List.take_of_length_le (by rw [List.length_append]; omega)
      rw [if_pos hcut, hall]
      refine ⟨?_, _, number, rfl, ?_, List.take_prefix _ _, hnumber, hfive, hdigits⟩
      · rw [List.length_append]
        omega
      · rw [← List.length_pos_iff]
        omega
    · have hcount := List.length_pos_iff.mpr hnumber
      have hall : truncate NICKLEN (nick.text ++ number) =
          nick.text ++ number.take (31 - nick.text.length) := by
        have hkept : nick.text.take 31 = nick.text := List.take_of_length_le (by omega)
        rw [truncate, NICKLEN, List.take_append, hkept]
      rw [if_neg hcut, hall]
      have htake : (number.take (31 - nick.text.length)).length =
          min (31 - nick.text.length) number.length := List.length_take
      refine ⟨?_, nick.text, _, rfl, nick.nonempty, List.prefix_rfl, ?_, ?_, ?_⟩
      · rw [List.length_append]
        omega
      · rw [← List.length_pos_iff]
        omega
      · omega
      · exact fun c hc => hdigits c (List.mem_of_mem_take hc)

/-- Nine characters is the least that `maxnicklength` can be set to. -/
def nineLong : Config := ⟨true, 9, "User".toList⟩

def bob : Nick := ⟨"bob".toList, by decide, by decide⟩

theorem guestNickname_fits_bob : ∃ sent,
    guestNickname nineLong bob (fun _ => false) (fun _ => 810000) = some sent ∧
      Fits nineLong bob.text sent :=
  (guestNickname_fits_iff nineLong bob rfl (by decide) (by decide) (by decide)).mpr
    (.inl (by decide)) (fun _ => false) fun _ => 810000

def alice : Nick := ⟨"alice".toList, by decide, by decide⟩

/-- Alice leaves four bytes. -/
theorem guest_nickname_overlong :
    guestNickname nineLong alice (fun _ => false) (fun _ => 810000) = some "alice10000".toList ∧
    ¬Fits nineLong alice.text "alice10000".toList := by
  refine ⟨by decide, fun h => ?_⟩
  have hlen : ("alice10000".toList).length ≤ 9 := h.short
  exact absurd hlen (by decide)

end ChatServices.NickServ.GuestNick
