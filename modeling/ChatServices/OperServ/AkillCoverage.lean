import ChatServices.Bans
import ChatServices.Cidr

/-! AKILL ADD drops the entries that the new mask makes redundant: whom the list finds before
and after. -/
namespace ChatServices.OperServ.AkillCoverage
open ChatServices.Text ChatServices.Match ChatServices.Cidr ChatServices.Lib.Glob

/-- What `kline_find_user` reads of a user; `ip` may be absent. -/
structure NetUser where
  user : CString
  host : CString
  ip : Option CString
  deriving DecidableEq

/-- Redundant entries are removed, and the masks are compared by `match` and `match_ips`. -/
def akillConfig (cm : CaseMapping) : BanConfig := ⟨cm, matchMask cm, matchIps, false⟩

section find
variable (cm : CaseMapping)

def hostHits (host : CString) (u : NetUser) : Bool :=
  matchMask cm host u.host || u.ip.any (matchMask cm host) || u.ip.any (matchIps host)

def maskHits (mask : CString × CString) (u : NetUser) : Bool :=
  matchMask cm mask.1 u.user && hostHits cm mask.2 u

def klineFindUser (s : Bans) (now : Nat) (u : NetUser) : Option Kline :=
  s.klines.find? (fun k => !k.expired now && maskHits cm k.mask u)

/-- The names that the one mask stands for are among those of the other. -/
def Included (m m' : CString) : Prop :=
  ∀ name, Matches (sat cm) (items m) name → Matches (sat cm) (items m') name

/-- `match` finds the text with the entry's mask, and gets to an answer for the new one. -/
def TextTaken (m m' text : CString) : Prop := matchMask cm m text = true ∧ (matchAnswer cm m' text).isSome

instance (m m' text : CString) : Decidable (TextTaken cm m m' text) :=
  inferInstanceAs (Decidable (_ ∧ _))

/-- The new mask takes in the entry's: in the user part, and in the host part too where it is a name
or an address as text that the entry goes by; or the new host finds the address itself. -/
structure Subsumes (mask : CString × CString) (u : NetUser) (k : Kline) : Prop where
  userMask : Included cm k.mask.1 mask.1
  user : TextTaken cm k.mask.1 mask.1 u.user
  host : Included cm k.mask.2 mask.2 ∧ (TextTaken cm k.mask.2 mask.2 u.host ∨
      ∃ ip ∈ u.ip, TextTaken cm k.mask.2 mask.2 ip) ∨
    u.ip.any (matchMask cm mask.2) = true ∨ u.ip.any (matchIps mask.2) = true

section command
variable (s : Bans) (now : Nat) (mask : CString × CString) (duration t : Nat) (u : NetUser)

/-- The entries that find the user at the time `t`. -/
def finders : List Kline := s.klines.filter (fun k => !k.expired t && maskHits cm k.mask u)

/-- The user is found at the time `t`, and only by entries that the command takes away. -/
def OnlyRemoved : Prop :=
  klineFind (akillConfig cm) s mask = none ∧ finders cm s t u ≠ [] ∧
    ∀ k ∈ finders cm s t u, redundant (akillConfig cm) now mask duration k = true

/-- Somebody who is found at the time `t` is found after the command too. -/
def KeepsFound : Prop :=
  (klineFindUser cm s t u).isSome →
    (klineFindUser cm (osCmdAkillAdd (akillConfig cm) s now mask duration) t u).isSome

end command
end find

section coverage
variable {cm : CaseMapping} {s : Bans} {now duration t : Nat} {mask : CString × CString} {u : NetUser}
  {k : Kline}

theorem Included.of_covers {m m' : CString} (h : covers (tokLe cm) (items m') (items m) = true) :
    Included cm m m' :=
  fun _ => matches_of_covers_items h

theorem TextTaken.matches {m m' text : CString} (h : TextTaken cm m m' text) (hsub : Included cm m m') :
    matchMask cm m' text = true := by
  obtain ⟨answer, hanswer⟩ := Option.isSome_iff_exists.mp h.2
  have hword : Matches (sat cm) (items m') text := hsub text (matches_of_matchMask h.1)
  have htrue : answer = true := (matchAnswer_iff hanswer).mpr hword
  rw [matchMask, hanswer, htrue]
  rfl

theorem Subsumes.hits (h : Subsumes cm mask u k) : maskHits cm mask u = true := by
  rw [maskHits, h.user.matches h.userMask, Bool.true_and, hostHits]
  obtain ⟨hsub, htext | ⟨ip, hip, htext⟩⟩ | haddress | hrange := h.host
  · rw [htext.matches hsub, Bool.true_or, Bool.true_or]
  · have hany : u.ip.any (matchMask cm mask.2) = true := by
      rw [Option.any_eq_true]
      exact ⟨ip, hip, htext.matches hsub⟩
    rw [hany, Bool.or_true, Bool.true_or]
  · rw [haddress, Bool.or_true, Bool.true_or]
  · rw [hrange, Bool.or_true]

theorem redundant_outlived {cfg : BanConfig} (h : redundant cfg now mask duration k = true)
    (hlive : k.expired t = false) (number : Nat) :
    (newBan now mask duration number).expired t = false := by
  simp only [redundant, Bool.and_eq_true, Bool.not_eq_true', Bool.and_eq_false_iff,
    decide_eq_false_iff_not] at h
  simp only [Ban.expired, Bool.and_eq_false_iff, decide_eq_false_iff_not] at hlive ⊢
  simp only [newBan]
  omega

theorem klineFindUser_isSome : (klineFindUser cm s t u).isSome ↔ finders cm s t u ≠ [] := by
  rw [klineFindUser, List.find?_isSome, finders, Ne, List.filter_eq_nil_iff]
  simp

theorem mem_finders : k ∈ finders cm s t u ↔
    k ∈ s.klines ∧ k.expired t = false ∧ maskHits cm k.mask u = true := by
  simp [finders]

/-- Whom the list finds once the command has gone through. -/
theorem akillAdd_finds (hfree : klineFind (akillConfig cm) s mask = none) :
    (klineFindUser cm (osCmdAkillAdd (akillConfig cm) s now mask duration) t u).isSome ↔
      (∃ k ∈ finders cm s t u, redundant (akillConfig cm) now mask duration k = false) ∨
      (newBan now mask duration ((s.klineId + 1) % 2 ^ 64)).expired t = false ∧
        maskHits cm mask u = true := by
  rw [osCmdAkillAdd, hfree, klineFindUser, List.find?_isSome]
  simp only [Option.isSome_none, Bool.false_eq_true, if_false, klineAdd, klineAddWithId, akillConfig,
    List.mem_append, List.mem_filter, List.mem_singleton, mem_finders, Bool.and_eq_true,
    Bool.not_eq_true', or_and_right, exists_or, exists_eq_left]
  refine or_congr_left (exists_congr fun k => ?_)
  tauto

theorem keepsFound_iff : KeepsFound cm s now mask duration t u ↔
    (OnlyRemoved cm s now mask duration t u → maskHits cm mask u = true) := by
  rw [KeepsFound, klineFindUser_isSome]
  by_cases hfree : klineFind (akillConfig cm) s mask = none
  · rw [akillAdd_finds hfree]
    constructor
    · rintro h ⟨-, hfound, hall⟩
      obtain ⟨k, hk, hstays⟩ | ⟨-, hhits⟩ := h hfound
      · rw [hall k hk] at hstays
        cases hstays
      · exact hhits
    · intro h hfound
      by_cases hall : ∀ k ∈ finders cm s t u, redundant (akillConfig cm) now mask duration k = true
      · obtain ⟨k, hk⟩ := List.exists_mem_of_ne_nil _ hfound
        have hlive := (mem_finders.mp hk).2.1
        exact .inr ⟨redundant_outlived (hall k hk) hlive _, h ⟨hfree, hfound, hall⟩⟩
      · simp only [not_forall, Bool.not_eq_true] at hall
        obtain ⟨k, hk, hstays⟩ := hall
        exact .inl ⟨k, hk, hstays⟩
  · have hsame : osCmdAkillAdd (akillConfig cm) s now mask duration = s := by
      rw [osCmdAkillAdd, if_pos (Option.isSome_iff_ne_none.mpr hfree)]
    rw [hsame, klineFindUser_isSome]
    exact ⟨fun _ honly => absurd honly.1 hfree, fun _ => id⟩

/-- AKILL ADD keeps whom the list finds exactly where the new mask finds everybody whom only entries
that go find; so where one of these entries is taken in by the new mask. -/
theorem akill_add_keeps_coverage (cm : CaseMapping) (s : Bans) (now : Nat)
    (mask : CString × CString) (duration : Nat) (u : NetUser) (t : Nat) :
    (KeepsFound cm s now mask duration t u ↔
      (OnlyRemoved cm s now mask duration t u → maskHits cm mask u = true)) ∧
    ((OnlyRemoved cm s now mask duration t u → ∃ k ∈ finders cm s t u, Subsumes cm mask u k) →
      KeepsFound cm s now mask duration t u) := by
  refine ⟨keepsFound_iff, fun h => keepsFound_iff.mpr fun honly => ?_⟩
  obtain ⟨k, -, hsub⟩ := h honly
  exact hsub.hits

def badGuy : NetUser := ⟨"BadGuy".toList, "x.lamerz.net".toList, some "10.0.0.1".toList⟩

/-- `BadGuy@*.lamerz.net` and `*@kiddiez.lamerz.net`. -/
def lamerz : Bans :=
  { noBans with
    klines := [newBan 0 ("BadGuy".toList, "*.lamerz.net".toList) 0 1,
      newBan 0 ("*".toList, "kiddiez.lamerz.net".toList) 3600 2] }

theorem akill_add_keeps_coverage_lamerz :
    KeepsFound .rfc1459 lamerz 10 ("*".toList, "*.lamerz.net".toList) 0 20 badGuy := by
  apply (akill_add_keeps_coverage .rfc1459 lamerz 10 ("*".toList, "*.lamerz.net".toList) 0 badGuy 20).2
  refine fun _ => ⟨newBan 0 ("BadGuy".toList, "*.lamerz.net".toList) 0 1, ?_, ?_, ?_, .inl ⟨?_, .inl ?_⟩⟩
  · rw [mem_finders]
    decide +kernel
  · exact .of_covers (by decide +kernel)
  · decide +kernel
  · exact .of_covers (by decide +kernel)
  · decide +kernel

/-- `?` matches the text `*`, so `*@a.b` goes for `?@*.b`, and bob at a.b is found no more. -/
theorem akill_add_drops_wider :
    let s : Bans := { noBans with klines := [newBan 0 (['*'], "a.b".toList) 0 1] }
    let u : NetUser := ⟨"bob".toList, "a.b".toList, none⟩
    let s' := osCmdAkillAdd (akillConfig .rfc1459) s 10 (['?'], "*.b".toList) 0
    s'.klineId ≠ s.klineId ∧ (klineFindUser .rfc1459 s 20 u).isSome ∧
      (klineFindUser .rfc1459 s' 20 u).isNone := by
  decide +kernel

end coverage
end ChatServices.OperServ.AkillCoverage
