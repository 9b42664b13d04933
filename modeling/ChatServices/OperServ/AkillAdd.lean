import ChatServices.Bans
import ChatServices.Cidr
import ChatServices.ChanServ.CmdAkick
import ChatServices.Collapse
import ChatServices.CommandTree

/-! `AKILL ADD`: what it makes of its parameters, and which masks it takes for too wide. -/
namespace ChatServices.OperServ.AkillAdd
open ChatServices.Text hiding collapse
open ChatServices.Match
open ChatServices.ChanServ (Reply insufficientParams parseAge natArg)
open ChatServices.CommandTree (strtok)
open ChatServices.Cidr (BUFSIZE atoi)

structure AkillConfig extends BanConfig where
  klineTime : Nat
  /-- a configuration item between 0 and `INT_MAX` -/
  klineNonWildcardChars : Nat
  intMax : klineNonWildcardChars < 2 ^ 31
  /-- `me.vhost` -/
  vhost : Option CString

/-- What `user_find_named` finds. -/
structure NamedUser where
  host : CString
  internalClient : Bool
  isSource : Bool

inductive AddResult where
  | refused (replies : List Reply)
  | ignored
  | added (s : Bans) (mask : CString × CString) (duration : Nat) (reason : CString)

def addSyntax : String := "Syntax: AKILL ADD <nick|hostmask> [!P|!T <minutes>] <reason>"

def needMoreParams (syntaxLine : String) : List Reply :=
  [.fail .needmoreparams insufficientParams ["AKILL ADD".toList],
    .fail .needmoreparams syntaxLine []]

/-- `check_not_enough_non_wildcard_chars` for a mask without a nick. -/
def checkNotEnoughNonWildcardChars (mask : CString) (minNonWildcardChars : Int) : Bool :=
  minNonWildcardChars > mask.countP (· ∉ ['*', '?', '.', '@'])

def reasonOf (treason : Option CString) : CString :=
  truncate BUFSIZE (treason.getD "No reason given".toList)

/-- The duration and the reason; `save` is what `strtok` keeps. -/
def akillTimes (cfg : AkillConfig) (arg : Option CString) (save : CString) :
    Except (List Reply) (Nat × CString) :=
  match strtok arg [' '] save with
  | (none, _) => .error (needMoreParams addSyntax)
  | (some token, save) =>
    if strcaseEq token "!P".toList then .ok (0, reasonOf (strtok none [] save).1)
    else if strcaseEq token "!T".toList then
      match strtok none [' '] save with
      | (none, _) => .error (needMoreParams addSyntax)
      | (some s, save) =>
        if parseAge s = 0 then
          .error [.fail .badparams "Invalid duration given." [], .fail .badparams addSyntax []]
        else .ok (parseAge s, reasonOf (strtok none [] save).1)
    else
      match (strtok none [] save).1 with
      | none => .ok (cfg.klineTime, truncate BUFSIZE token)
      | some treason =>
        .ok (cfg.klineTime, truncate BUFSIZE (truncate BUFSIZE (truncate BUFSIZE token ++ [' ']) ++
          treason))

def tooWide (cfg : AkillConfig) (kuser khost : CString) : Reply :=
  .fail .badparams
    "Invalid user@host: \x02%s@%s\x02. At least %u non-wildcard characters are required."
    [kuser, khost, natArg cfg.klineNonWildcardChars]

/-- The mask of a target with an `@`. `strtok` ends the text behind the user, and `collapse` rewrites
it where it is, so that `target` itself is the user from then on. -/
def hostmask (cfg : AkillConfig) (anymask : Bool) (target save : CString) :
    Except (List Reply) (CString × CString) :=
  let (user, save) := strtok (some target) ['@'] save
  match user.map collapse, (strtok none [] save).1.map collapse with
  | some kuser, some khost =>
    let target := target.takeWhile (· = '@') ++ kuser
    if '@' ∈ khost then
      .error [.fail .badparams "Too many '%c' in user@host." [['@']],
        .fail .badparams "Syntax: AKILL ADD <user>@<host> [options] <reason>" []]
    else if cfg.klineNonWildcardChars > 0 &&
        checkNotEnoughNonWildcardChars target (BitVec.ofNat 32 cfg.klineNonWildcardChars).toInt &&
        ('*' ∈ kuser || '?' ∈ kuser) && !anymask then
      .error [tooWide cfg kuser khost]
    else .ok (kuser, khost)
  | _, _ => .error (needMoreParams "Syntax: AKILL ADD <user>@<host> [options] <reason>")

def unsafeHost (cfg : AkillConfig) (khost : CString) : Bool :=
  let hits (address : CString) := cfg.matchMask khost address || cfg.matchIps khost address
  hits "127.0.0.1".toList || cfg.vhost.any hits ||
    (Cidr.splitSlash khost).any fun p => p.2.head?.any isDigit && atoi p.2 < 4

/-- `anymask` is the privilege, `users` are those on IRC. -/
def osCmdAkillAdd (cfg : AkillConfig) (anymask : Bool) (users : CString → Option NamedUser) (s : Bans)
    (now : Nat) (target arg : Option CString) (save : CString) : AddResult :=
  match target with
  | none => .refused (needMoreParams addSyntax)
  | some target =>
    match akillTimes cfg arg save with
    | .error replies => .refused replies
    | .ok (duration, reason) =>
      if '!' ∈ target then
        .refused [.fail .badparams "Invalid character '%c' in user@host." [['!']]]
      else if '@' ∉ target then
        match users target with
        | none => .refused [.fail .nosuchTarget "\x02%s\x02 is not on IRC." [target]]
        | some u => if u.internalClient || u.isSource then .ignored
          else finish cfg s now ("*".toList, u.host) duration reason
      else
        match hostmask cfg anymask target save with
        | .error replies => .refused replies
        | .ok mask => finish cfg s now mask duration reason
where
  finish (cfg : AkillConfig) (s : Bans) (now : Nat) (mask : CString × CString) (duration : Nat)
      (reason : CString) : AddResult :=
    if mask.1 = "*".toList && unsafeHost cfg mask.2 then
      .refused [.fail .badparams "Invalid user@host: \x02%s@%s\x02. This mask is unsafe."
        [mask.1, mask.2]]
    else if (klineFind cfg.toBanConfig s mask).isSome then
      .refused [.fail .nochange "AKILL \x02%s@%s\x02 is already matched in the database."
        [mask.1, mask.2]]
    else .added (ChatServices.osCmdAkillAdd cfg.toBanConfig s now mask duration) mask duration reason


/-! ### What `collapse` leaves of a mask -/

section collapse
variable {p : Char → Bool} {c : Char} {m : CString}

theorem countP_copiedDown (hstar : p '*' = false) (m : CString) :
    (copiedDown m).countP p = m.countP p := by
  have hdrop : ∀ m : CString, (m.dropWhile (· = '*')).countP p = m.countP p := by
    intro m
    induction m with
    | nil => rfl
    | cons c m ih =>
      by_cases hc : c = '*'
      · subst hc
        rw [List.dropWhile_cons_of_pos (by simp), ih, List.countP_cons, hstar]
        rfl
      · rw [List.dropWhile_cons_of_neg (by simp [hc])]
  have hrun : ∀ run : CString, (∀ c ∈ run, starOrMark c = true) →
      (run.filter (· = '?')).countP p = run.countP p := by
    intro run hrun
    rw [List.countP_filter]
    apply List.countP_congr
    intro c hc
    have hkind := hrun c hc
    simp only [starOrMark, Bool.or_eq_true, decide_eq_true_eq] at hkind
    obtain rfl | rfl := hkind
    · simp [hstar]
    · simp
  unfold copiedDown
  split
  · rename_i m
    rw [hdrop, List.countP_cons, hstar]
    rfl
  · rename_i m
    have hsplit := congrArg (List.countP p)
      (List.takeWhile_append_dropWhile (p := starOrMark) (l := m))
    have hmarks := hrun (m.takeWhile starOrMark) fun c hc => mem_takeRun hc
    rw [List.countP_append] at hsplit
    rw [List.countP_cons, List.countP_cons, List.countP_append, hmarks, hsplit]
  · rfl

theorem countP_collapse (hstar : p '*' = false) (m : CString) :
    (collapse m).countP p = m.countP p := by
  induction m using mask_cases with
  | nil => rfl
  | lone => rfl
  | pair d m ih => rw [collapse_pair, List.countP_cons, List.countP_cons, List.countP_cons,
      List.countP_cons, ih]
  | star m ih =>
    rw [collapse_star, List.countP_cons, List.countP_cons, ih _ (copiedDown_length m),
      countP_copiedDown hstar]
  | char c m hslash hstar ih =>
    rw [collapse_char hslash hstar, List.countP_cons, List.countP_cons, ih]

theorem mem_collapse (hc : c ≠ '*') : c ∈ collapse m ↔ c ∈ m := by
  have hcount := countP_collapse (p := (· = c)) (by simpa using hc.symm) m
  have hmem : ∀ m : CString, c ∈ m ↔ 0 < m.countP (· = c) := by
    intro m
    simp [List.countP_pos_iff]
  rw [hmem, hmem, hcount]

theorem star_mem_collapse : '*' ∈ collapse m ↔ '*' ∈ m := by
  induction m using mask_cases with
  | nil => rfl
  | lone => rfl
  | pair d m ih => rw [collapse_pair, List.mem_cons, List.mem_cons, List.mem_cons, List.mem_cons, ih]
  | star m ih => rw [collapse_star]; simp
  | char c m hslash hstar ih => rw [collapse_char hslash hstar, List.mem_cons, List.mem_cons, ih]

end collapse

/-! ### The width of a mask -/

/-- The target `user@host`, with one `@` between two parts that are not empty, and no `!`. -/
structure UserHost (user host : CString) : Prop where
  user_ne : user ≠ []
  host_ne : host ≠ []
  ats : '@' ∉ user ∧ '@' ∉ host
  bangs : '!' ∉ user ∧ '!' ∉ host

def width (mask : CString) : Nat := mask.countP (· ∉ ['*', '?', '.', '@'])

def wildcard (user : CString) : Bool := '*' ∈ user || '?' ∈ user

def TooWideReply (cfg : AkillConfig) (r : AddResult) : Prop :=
  ∃ kuser khost, r = .refused [tooWide cfg kuser khost]

section width
variable {cfg : AkillConfig} {anymask : Bool} {users : CString → Option NamedUser} {s : Bans}
  {now : Nat} {user host save : CString} {arg : Option CString}

theorem width_collapse (m : CString) : width (collapse m) = width m := countP_collapse (by decide) m

theorem wildcard_collapse (m : CString) : wildcard (collapse m) = wildcard m := by
  rw [Bool.eq_iff_iff, wildcard, wildcard]
  simp only [Bool.or_eq_true, decide_eq_true_eq]
  rw [star_mem_collapse, mem_collapse (by decide)]

theorem checkNotEnough_iff (cfg : AkillConfig) (mask : CString) : checkNotEnoughNonWildcardChars mask
    (BitVec.ofNat 32 cfg.klineNonWildcardChars).toInt = true ↔
      width mask < cfg.klineNonWildcardChars := by
  have hmax := cfg.intMax
  have hint : (BitVec.ofNat 32 cfg.klineNonWildcardChars).toInt = cfg.klineNonWildcardChars := by
    rw [BitVec.toInt_ofNat']
    exact Int.bmod_eq_of_le (by omega) (by omega)
  rw [checkNotEnoughNonWildcardChars, hint, decide_eq_true_eq, width]
  omega

theorem strtok_user (h : UserHost user host) :
    strtok (some (user ++ '@' :: host)) ['@'] save = (some user, host) := by
  have hnot : ∀ c ∈ user, decide (c ∉ ['@']) = true := by
    intro c hc
    have hne : c ≠ '@' := fun heq => h.ats.1 (heq ▸ hc)
    simpa using hne
  cases user with
  | nil => exact absurd rfl h.user_ne
  | cons c rest =>
    have hhead : (decide (c ∈ ['@'])) = false := by
      have hc := hnot c List.mem_cons_self
      simpa using hc
    have hkeep : ((c :: rest) ++ '@' :: host).dropWhile (fun c => decide (c ∈ ['@'])) =
        (c :: rest) ++ '@' :: host := List.dropWhile_cons_of_neg (by rw [hhead]; decide)
    rw [strtok, Option.getD_some]
    rw [hkeep, if_neg (by simp), List.takeWhile_append_of_pos hnot,
      List.dropWhile_append_of_pos hnot]
    simp

theorem strtok_host (h : UserHost user host) : strtok none [] host = (some host, []) := by
  have hkeep : host.dropWhile (fun c => decide (c ∈ ([] : List Char))) = host := by
    rw [List.dropWhile_eq_self_iff]
    simp
  have htake : host.takeWhile (fun c => decide (c ∉ ([] : List Char))) = host := by
    rw [List.takeWhile_eq_self_iff]
    simp
  have hdrop : host.dropWhile (fun c => decide (c ∉ ([] : List Char))) = [] := by
    rw [List.dropWhile_eq_nil_iff]
    simp
  rw [strtok, Option.getD_none]
  rw [hkeep, if_neg h.host_ne, htake, hdrop]
  rfl

theorem hostmask_userHost (h : UserHost user host) (hpos : 0 < cfg.klineNonWildcardChars) :
    hostmask cfg false (user ++ '@' :: host) save =
      if wildcard user = true ∧ width user < cfg.klineNonWildcardChars then
        .error [tooWide cfg (collapse user) (collapse host)]
      else .ok (collapse user, collapse host) := by
  have hlead : (user ++ '@' :: host).takeWhile (· = '@') = [] := by
    cases user with
    | nil => exact absurd rfl h.user_ne
    | cons c rest =>
      have hc : c ≠ '@' := fun heq => h.ats.1 (heq ▸ List.mem_cons_self)
      rw [List.cons_append, List.takeWhile_cons_of_neg (by simpa using hc)]
  have hat : '@' ∉ collapse host := by
    rw [mem_collapse (by decide)]
    exact h.ats.2
  have hwild := wildcard_collapse user
  have hwidth := checkNotEnough_iff cfg (collapse user)
  rw [width_collapse] at hwidth
  rw [wildcard] at hwild
  rw [hostmask, strtok_user h]
  dsimp only
  rw [strtok_host h]
  simp only [Option.map_some]
  rw [hlead, List.nil_append, if_neg hat, hwild]
  simp only [gt_iff_lt, decide_eq_true hpos, Bool.true_and, Bool.not_false, Bool.and_true,
    Bool.and_eq_true, hwidth]
  simp only [and_comm]

theorem not_tooWide_finish {mask : CString × CString} {duration : Nat} {reason : CString} :
    ¬TooWideReply cfg (osCmdAkillAdd.finish cfg s now mask duration reason) := by
  rintro ⟨kuser, khost, hreply⟩
  rw [osCmdAkillAdd.finish] at hreply
  split at hreply
  · have hfmt := (AddResult.refused.inj hreply)
    simp [tooWide] at hfmt
  split at hreply
  · have hfmt := (AddResult.refused.inj hreply)
    simp [tooWide] at hfmt
  · cases hreply

theorem akillTimes_error {replies : List Reply} (h : akillTimes cfg arg save = .error replies) :
    replies.length = 2 := by
  rw [akillTimes] at h
  split at h
  · cases h
    rfl
  split at h
  · cases h
  split at h
  · split at h
    · cases h
      rfl
    · split at h
      · cases h
        rfl
      · cases h
  · split at h
    · cases h
    · cases h

theorem tooWideReply_iff (h : UserHost user host) (hpos : 0 < cfg.klineNonWildcardChars) :
    TooWideReply cfg (osCmdAkillAdd cfg false users s now (some (user ++ '@' :: host)) arg save) ↔
      (akillTimes cfg arg save).isOk = true ∧ wildcard user = true ∧
        width user < cfg.klineNonWildcardChars := by
  have hbang : '!' ∉ user ++ '@' :: host := by simp [h.bangs]
  have hat : '@' ∈ user ++ '@' :: host := by simp
  rw [osCmdAkillAdd]
  cases htimes : akillTimes cfg arg save with
  | error replies =>
    constructor
    · rintro ⟨kuser, khost, hreply⟩
      have hone := congrArg List.length (AddResult.refused.inj hreply)
      rw [akillTimes_error htimes] at hone
      cases hone
    · exact fun hok => absurd hok.1 Bool.false_ne_true
  | ok times =>
    obtain ⟨duration, reason⟩ := times
    dsimp only
    rw [if_neg hbang, if_neg (not_not.mpr hat), hostmask_userHost h hpos]
    by_cases hwide : wildcard user = true ∧ width user < cfg.klineNonWildcardChars
    · rw [if_pos hwide]
      exact ⟨fun _ => ⟨rfl, hwide⟩, fun _ => ⟨_, _, rfl⟩⟩
    · rw [if_neg hwide]
      constructor
      · exact fun hreply => absurd hreply not_tooWide_finish
      · exact fun hok => absurd hok.2 hwide

end width

/-- Whether AKILL ADD tells a source without the privilege that the mask is too wide, where it should:
the time and the reason are in order, there is a wildcard in the user, and in all of the mask there are
too few characters that count. -/
def WidthRuleKept (cfg : AkillConfig) (users : CString → Option NamedUser) (s : Bans) (now : Nat)
    (user host : CString) (arg : Option CString) (save : CString) : Prop :=
  TooWideReply cfg (osCmdAkillAdd cfg false users s now (some (user ++ '@' :: host)) arg save) ↔
    (akillTimes cfg arg save).isOk = true ∧ wildcard user = true ∧
      width (user ++ '@' :: host) < cfg.klineNonWildcardChars

/-- The rule is kept unless the user alone is too wide where the mask is not. -/
theorem akill_width_iff (cfg : AkillConfig) (users : CString → Option NamedUser) (s : Bans)
    (now : Nat) (user host : CString) (arg : Option CString) (save : CString)
    (h : UserHost user host) (hpos : 0 < cfg.klineNonWildcardChars) :
    WidthRuleKept cfg users s now user host arg save ↔
      ((akillTimes cfg arg save).isOk = true → wildcard user = true →
        width user < cfg.klineNonWildcardChars →
          width (user ++ '@' :: host) < cfg.klineNonWildcardChars) := by
  have hle : width user ≤ width (user ++ '@' :: host) := by
    rw [width, width, List.countP_append]
    exact Nat.le_add_right _ _
  rw [WidthRuleKept, tooWideReply_iff h hpos]
  constructor
  · intro hsame htimes hwild huser
    exact (hsame.mp ⟨htimes, hwild, huser⟩).2.2
  · intro hwhole
    constructor
    · exact fun ⟨htimes, hwild, huser⟩ => ⟨htimes, hwild, hwhole htimes hwild huser⟩
    · exact fun ⟨htimes, hwild, hmask⟩ => ⟨htimes, hwild, Nat.lt_of_le_of_lt hle hmask⟩

theorem four_lt_intMax : 4 < 2 ^ 31 := by decide

def quietConfig : AkillConfig where
  casemapping := .rfc1459
  matchMask _ _ := false
  matchIps _ _ := false
  klineDoNotRemoveMoreSpecific := false
  klineTime := 604800
  klineNonWildcardChars := 4
  intMax := four_lt_intMax
  vhost := none

/-- `*@a.b` is refused, as it should be. -/
theorem akill_width_short :
    WidthRuleKept quietConfig (fun _ => none) noBans 0 "*".toList "a.b".toList
      (some "!P spam".toList) [] :=
  (akill_width_iff quietConfig (fun _ => none) noBans 0 "*".toList "a.b".toList
    (some "!P spam".toList) [] ⟨by decide, by decide, by decide, by decide⟩ (by decide)).mpr
    fun _ _ _ => by decide

/-- `*bot@bad.example.net` is refused for three characters that count, and has sixteen. -/
theorem akill_width_user_only :
    ¬∀ (cfg : AkillConfig) (users : CString → Option NamedUser) (s : Bans) (now : Nat)
      (user host : CString) (arg : Option CString) (save : CString), UserHost user host →
      0 < cfg.klineNonWildcardChars → (akillTimes cfg arg save).isOk = true →
      (TooWideReply cfg (osCmdAkillAdd cfg false users s now (some (user ++ '@' :: host)) arg save) ↔
        wildcard user = true ∧ width (user ++ '@' :: host) < cfg.klineNonWildcardChars) := by
  intro h
  have hrule := h quietConfig (fun _ => none) noBans 0 "*bot".toList "bad.example.net".toList
    (some "!P spam".toList) [] ⟨by decide, by decide, by decide, by decide⟩ (by decide)
    (by decide +kernel)
  have hrefused : TooWideReply quietConfig (osCmdAkillAdd quietConfig false (fun _ => none) noBans 0
      (some ("*bot".toList ++ '@' :: "bad.example.net".toList)) (some "!P spam".toList) []) :=
    ⟨"*bot".toList, "bad.example.net".toList, rfl⟩
  exact absurd (hrule.mp hrefused).2 (by decide)

end ChatServices.OperServ.AkillAdd
