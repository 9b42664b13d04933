import ChatServices.CidrExact
import ChatServices.Lib.FirstMatch
import ChatServices.OperServ.Clones
import ChatServices.Storage.Opensex

/-! The exemptions of the clone check: the commands and rows that make the list, and the limits
that a new user is held to. An exemption that has expired stays on the list until something takes
it off. -/
namespace ChatServices.OperServ
open ChatServices.Lib ChatServices.Lib.Run ChatServices.Lib.FirstMatch ChatServices.Text
open ChatServices.Network ChatServices.Storage ChatServices.Cidr ChatServices.Match

/-- `cexcept_t`; `allowed` and `warn` are of type `int`. -/
structure Cexcept where
  ip : CString
  allowed : BitVec 32
  warn : BitVec 32
  reason : CString
  expires : Int
  deriving DecidableEq

def Cexcept.limits (c : Cexcept) : BitVec 32 × BitVec 32 := (c.allowed, c.warn)

def Cexcept.expired (now : Int) (c : Cexcept) : Bool := c.expires ≠ 0 ∧ now > c.expires

/-- `clone_exempts`, `clones_allowed`, `clones_warn` and `clones_dbversion`. -/
structure Exempts where
  exempts : List Cexcept
  clonesAllowed : BitVec 32
  clonesWarn : BitVec 32
  dbversion : BitVec 32

structure CloneConfig where
  defaultCloneAllowed : BitVec 32
  defaultCloneWarn : BitVec 32
  cloneTime : BitVec 32

def Exempts.initial : Exempts := ⟨[], 0#32, 0#32, 1#32⟩

section commands
variable (cfg : CloneConfig) (now : Int)

def cloneDuration (expiry : CString) : Int :=
  let duration := Cidr.strtol expiry * 60
  match expiry.dropWhile isDigit with
  | [] => duration
  | c :: _ =>
    if c = 'h' ∨ c = 'H' then duration * 60
    else if c = 'd' ∨ c = 'D' then duration * 1440
    else if c = 'w' ∨ c = 'W' then duration * 10080
    else 0

/-- `rreason` for a text in two parts. -/
def joinedReason (first : CString) (reason : Option CString) : CString :=
  match reason with
  | none => truncate BUFSIZE first
  | some reason =>
    truncate BUFSIZE (truncate BUFSIZE (truncate BUFSIZE first ++ [' ']) ++ reason)

/-- The duration and the reason. What stands behind `!T` is the reason as it was typed, with
`gap` blanks too many in front of it. -/
def addexemptTimes (expiry : CString) (gap : Nat) (reason : Option CString) :
    Option (Int × CString) :=
  if strcaseEq expiry "!P".toList then reason.map fun reason => (0, truncate BUFSIZE reason)
  else if strcaseEq expiry "!T".toList then
    match reason with
    | none => none
    | some reason =>
      let duration := cloneDuration (List.replicate gap ' ' ++ reason.takeWhile (· ≠ ' '))
      if duration = 0 then none
      else
        match reason.dropWhile (· ≠ ' ') with
        | [] => none
        | _ :: reason => some (duration, truncate BUFSIZE reason)
  else some (cfg.cloneTime.toNat, joinedReason expiry reason)

def updateLast (ip : CString) (f : Cexcept → Cexcept) : List Cexcept → List Cexcept
  | [] => []
  | c :: cs => if c.ip = ip ∧ cs.all (·.ip ≠ ip) then f c :: cs else c :: updateLast ip f cs

def osCmdClonesAddexempt (ip clonesstr expiry : Option CString) (gap : Nat) (reason : Option CString)
    (s : Exempts) : Exempts :=
  match ip, clonesstr, expiry with
  | some ip, some clonesstr, some expiry =>
    if !validIpOrMask ip then s
    else
      match addexemptTimes cfg expiry gap reason with
      | none => s
      | some (duration, rreason) =>
        let clones := BitVec.ofInt 32 (Cidr.atoi clonesstr)
        let expires := if duration ≠ 0 then now + duration else 0
        if s.exempts.any (·.ip = ip) then
          { s with exempts := updateLast ip (fun c =>
              ⟨c.ip, clones, clones, if rreason ≠ [] then rreason else c.reason, expires⟩) s.exempts }
        else if rreason = [] then s
        else { s with exempts := s.exempts ++ [⟨ip, clones, clones, rreason, expires⟩] }
  | _, _, _ => s

def exemptWalk (ip : CString) (act : Cexcept → List Cexcept) : List Cexcept → List Cexcept
  | [] => []
  | c :: cs =>
    if c.expired now then exemptWalk ip act cs
    else if c.ip = ip then act c ++ cs
    else c :: exemptWalk ip act cs

def osCmdClonesDelexempt (arg : Option CString) (s : Exempts) : Exempts :=
  match arg with
  | none => s
  | some arg => { s with exempts := exemptWalk now arg (fun _ => []) s.exempts }

/-- What `SETEXEMPT` makes of an entry; a refusal leaves it as it is. -/
def setEntry (subcmd clonesstr : CString) (reason : Option CString) (c : Cexcept) : Cexcept :=
  let clones := BitVec.ofInt 32 (Cidr.atoi clonesstr)
  if strcaseEq subcmd "ALLOWED".toList then
    if clones.toInt < c.warn.toInt then c else { c with allowed := clones }
  else if strcaseEq subcmd "WARN".toList then
    if clones = 0#32 then { c with warn := 0#32 }
    else if clones.toInt > c.allowed.toInt then c
    else { c with warn := clones }
  else if strcaseEq subcmd "DURATION".toList then
    if clonesstr = ['0'] then { c with expires := 0 }
    else if cloneDuration clonesstr = 0 then c
    else { c with expires := now + cloneDuration clonesstr }
  else if strcaseEq subcmd "REASON".toList then { c with reason := joinedReason clonesstr reason }
  else c

def osCmdClonesSetexempt (ip subcmd clonesstr reason : Option CString) (s : Exempts) : Exempts :=
  match ip, subcmd, clonesstr with
  | some ip, some subcmd, some clonesstr =>
    let clones := BitVec.ofInt 32 (Cidr.atoi clonesstr)
    if strcaseEq ip "DEFAULT".toList then
      if strcaseEq subcmd "ALLOWED".toList then { s with clonesAllowed := clones }
      else if strcaseEq subcmd "WARN".toList then { s with clonesWarn := clones }
      else s
    else
      let act (c : Cexcept) := [setEntry now subcmd clonesstr reason c]
      { s with exempts := exemptWalk now ip act s.exempts }
  | _, _, _ => s

/-- `LISTEXEMPT` and `write_exemptdb` take off all that has expired. -/
def exemptPurge (s : Exempts) : Exempts :=
  { s with exempts := s.exempts.filter fun c => !c.expired now }

def dbhEx (dbversion : BitVec 32) : Reader Cexcept := do
  let ip ← dbSreadWord
  let allowed ← dbSreadUint
  let warn ← if dbversion = 3#32 then dbSreadUint
    else if dbversion = 2#32 then do
      let warn ← dbSreadUint
      let _ ← dbSreadUint
      pure warn
    else pure allowed
  let expires ← dbSreadTime
  let reason ← dbSreadStr
  pure ⟨ip, allowed, warn, reason, (BitVec.ofNat 64 expires).toInt⟩

end commands

inductive ExemptEvent where
  | configReady
  | addexempt (ip clonesstr expiry : Option CString) (gap : Nat) (reason : Option CString)
  | delexempt (arg : Option CString)
  | setexempt (ip subcmd clonesstr reason : Option CString)
  | purge
  | dbVersion (row : Token)
  | dbEx (row : Token)

def exemptStep (cfg : CloneConfig) (s : Exempts) : Int × ExemptEvent → Exempts × List Unit
  | (_, .configReady) =>
    ({ s with clonesAllowed := cfg.defaultCloneAllowed, clonesWarn := cfg.defaultCloneWarn }, [])
  | (now, .addexempt ip clonesstr expiry gap reason) =>
    (osCmdClonesAddexempt cfg now ip clonesstr expiry gap reason s, [])
  | (now, .delexempt arg) => (osCmdClonesDelexempt now arg s, [])
  | (now, .setexempt ip subcmd clonesstr reason) =>
    (osCmdClonesSetexempt now ip subcmd clonesstr reason s, [])
  | (now, .purge) => (exemptPurge now s, [])
  | (_, .dbVersion row) =>
    match dbSreadUint.run row with
    | none => (s, [])
    | some (version, _) => ({ s with dbversion := version }, [])
  | (_, .dbEx row) =>
    match (dbhEx s.dbversion).run row with
    | none => (s, [])
    | some (c, _) => ({ s with exempts := s.exempts ++ [c] }, [])

/-! ### The limits of a new user -/

def findExempt (exempts : List Cexcept) (ip : CString) : Option Cexcept :=
  (exempts.find? fun c => c.ip = ip).or (exempts.find? fun c => matchIps c.ip ip)

def Exempts.world (s : Exempts) (w : CloneWorld) : CloneWorld :=
  { w with
    clonesAllowed := s.clonesAllowed
    clonesWarn := s.clonesWarn
    findExempt := fun ip => (findExempt s.exempts ip).map Cexcept.limits }

def startLimits (w : CloneWorld) (ip : CString) : BitVec 32 × BitVec 32 :=
  (w.findExempt ip).getD (w.clonesAllowed, w.clonesWarn)

/-! The limits of a new user follow the exemptions that have not expired, unless one that has
expired is found in front of them; and a limit that is raised stays below twice its value, unless
it is one that the type of the counter cannot double. -/

/-! ### What the limits should be -/

section spec
variable (now : Int) (s : Exempts) (ip : CString)

def Exempts.live : List Cexcept := s.exempts.filter fun c => !c.expired now

def Follows (limits : BitVec 32 × BitVec 32) : Prop :=
  (∃ c ∈ s.live now, c.ip = ip ∧ limits = c.limits) ∨
    (∀ c ∈ s.live now, c.ip ≠ ip) ∧
      limits = (((s.live now).find? fun c => matchIps c.ip ip).map Cexcept.limits).getD
        (s.clonesAllowed, s.clonesWarn)

def Applies (c : Cexcept) : Prop :=
  ∃ l r, s.exempts = l ++ c :: r ∧ (c.ip = ip ∧ (∀ d ∈ l, d.ip ≠ ip) ∨
    (∀ d ∈ s.exempts, d.ip ≠ ip) ∧ matchIps c.ip ip = true ∧ ∀ d ∈ l, matchIps d.ip ip = false)

def Unshadowed : Prop :=
  ∀ c, Applies s ip c → c.expired now = true → Follows now s ip c.limits

end spec

def Between (base final : BitVec 32) : Prop :=
  base.toNat ≤ final.toNat ∧ final.toNat ≤ 2 * base.toNat ∧ (base = 0#32 → final = 0#32)

/-- A limit that can be raised by each of `m` clients, and doubled. -/
def Roomy (m : Nat) (base : BitVec 32) : Prop :=
  base = 0#32 ∨ base.toNat < 2 ^ 31 ∧ base.toNat + m < 2 ^ 32

/-! ### The exemption that is found -/

section found
variable {now : Int} {s : Exempts} {ip : CString} {c : Cexcept} {w : CloneWorld}

theorem findExempt_eq_some_iff : findExempt s.exempts ip = some c ↔ Applies s ip c := by
  rw [findExempt]
  constructor
  · intro h
    cases hexact : s.exempts.find? fun c => c.ip = ip with
    | some d =>
      rw [hexact] at h
      obtain rfl := Option.some.inj h
      obtain ⟨hd, l, r, hsplit, hl⟩ := List.find?_eq_some_iff_append.mp hexact
      exact ⟨l, r, hsplit, .inl ⟨of_decide_eq_true hd, fun d hd => by simpa using hl d hd⟩⟩
    | none =>
      rw [hexact, Option.none_or] at h
      obtain ⟨hc, l, r, hsplit, hl⟩ := List.find?_eq_some_iff_append.mp h
      have hother : ∀ d ∈ s.exempts, d.ip ≠ ip := by simpa using hexact
      exact ⟨l, r, hsplit, .inr ⟨hother, hc, fun d hd => by simpa using hl d hd⟩⟩
  · rintro ⟨l, r, hsplit, h⟩
    cases h with
    | inl h =>
      have hexact : (s.exempts.find? fun c => c.ip = ip) = some c := by
        rw [List.find?_eq_some_iff_append]
        exact ⟨decide_eq_true h.1, l, r, hsplit, fun d hd => by simpa using h.2 d hd⟩
      rw [hexact]
      rfl
    | inr h =>
      have hexact : (s.exempts.find? fun c => c.ip = ip) = none := by
        rw [List.find?_eq_none]
        intro d hd
        simpa using h.1 d hd
      rw [hexact, Option.none_or, List.find?_eq_some_iff_append]
      exact ⟨h.2.1, l, r, hsplit, fun d hd => by simpa using h.2.2 d hd⟩

theorem findExempt_none (h : findExempt s.exempts ip = none) :
    Follows now s ip (s.clonesAllowed, s.clonesWarn) := by
  rw [findExempt, Option.or_eq_none_iff] at h
  have hother : ∀ d ∈ s.exempts, d.ip ≠ ip := by simpa using h.1
  right
  refine ⟨fun d hd => hother d (List.mem_of_mem_filter hd), ?_⟩
  rw [Exempts.live, find_filter_none h.2]
  rfl

theorem findExempt_live (h : findExempt s.exempts ip = some c) (hlive : c.expired now = false) :
    Follows now s ip c.limits := by
  have hgood : (!c.expired now) = true := by rw [hlive]; rfl
  obtain ⟨l, r, hsplit, hc⟩ := findExempt_eq_some_iff.mp h
  have hmem : c ∈ s.live now := by
    rw [Exempts.live, List.mem_filter]
    exact ⟨by rw [hsplit]; simp, hgood⟩
  cases hc with
  | inl hc => exact .inl ⟨c, hmem, hc.1, rfl⟩
  | inr hc =>
    have hfind : (s.exempts.find? fun c => matchIps c.ip ip) = some c := by
      rw [List.find?_eq_some_iff_append]
      exact ⟨hc.2.1, l, r, hsplit, fun d hd => by simpa using hc.2.2 d hd⟩
    right
    refine ⟨fun d hd => hc.1 d (List.mem_of_mem_filter hd), ?_⟩
    rw [Exempts.live, find_filter_of hfind hgood]
    rfl

theorem startLimits_follows_iff :
    Follows now s ip (startLimits (s.world w) ip) ↔ Unshadowed now s ip := by
  have hstart : startLimits (s.world w) ip =
      ((findExempt s.exempts ip).map Cexcept.limits).getD (s.clonesAllowed, s.clonesWarn) := rfl
  rw [hstart]
  constructor
  · intro h c hc _
    rw [findExempt_eq_some_iff.mpr hc] at h
    exact h
  · intro h
    cases hfind : findExempt s.exempts ip with
    | none => exact findExempt_none hfind
    | some c =>
      cases hexpired : c.expired now with
      | false => exact findExempt_live hfind hexpired
      | true => exact h c (findExempt_eq_some_iff.mp hfind) hexpired

end found

/-! ### The limits that are raised -/

section raised
variable {w : CloneWorld} {clients : List ClientId}

theorem raised_toNat (w : CloneWorld) (clients : List ClientId) (limit : BitVec 32) :
    (clients.foldl (fun n u => if w.loggedIn u ∧ n ≠ 0#32 then n + 1 else n) limit).toNat =
      if limit ≠ 0#32 ∧ limit.toNat + clients.countP w.loggedIn < 2 ^ 32 then
        limit.toNat + clients.countP w.loggedIn
      else 0 := by
  induction clients generalizing limit with
  | nil =>
    have hlt := limit.isLt
    by_cases hzero : limit = 0#32
    · simp [hzero]
    · simp [hzero]
      omega
  | cons u clients ih =>
    rw [List.foldl_cons, ih, List.countP_cons]
    have hlt := limit.isLt
    by_cases hzero : limit = 0#32
    · simp [hzero]
    have hpos : limit.toNat ≠ 0 := fun h => hzero (BitVec.eq_of_toNat_eq h)
    cases hin : w.loggedIn u with
    | false => simp
    | true =>
      have hsum : (limit + 1).toNat = (limit.toNat + 1) % 2 ^ 32 := BitVec.toNat_add limit 1
      by_cases hfits : limit.toNat + 1 < 2 ^ 32
      · rw [Nat.mod_eq_of_lt hfits] at hsum
        have hnext : limit + 1 ≠ 0#32 := by
          intro h
          rw [h] at hsum
          exact absurd hsum (by simp)
        simp only [hzero, hnext, ne_eq, not_false_eq_true, and_self, if_true, hsum, true_and]
        split_ifs <;> omega
      · have hnext : limit + 1 = 0#32 := by
          apply BitVec.eq_of_toNat_eq
          rw [hsum]
          have hend : limit.toNat + 1 = 2 ^ 32 := by omega
          rw [hend]
          rfl
        simp only [hzero, hnext, ne_eq, not_false_eq_true, and_self, if_true, not_true_eq_false,
          false_and, if_false, true_and]
        rw [if_neg (by omega)]

theorem increased_between_iff (hinc : w.cloneIncrease = true) (base : BitVec 32) :
    Between base (CloneState.increased w clients base) ↔
      Roomy (clients.countP w.loggedIn) base := by
  have hraised := raised_toNat w clients base
  have hlt := base.isLt
  have hdouble : (base * 2).toNat = base.toNat * 2 % 2 ^ 32 := BitVec.toNat_mul base 2
  rw [CloneState.increased, if_pos hinc]
  generalize clients.foldl (fun n u => if w.loggedIn u ∧ n ≠ 0#32 then n + 1 else n) base = raised
    at hraised
  have hfinal : (if raised > base * 2 then base * 2 else raised).toNat =
      if raised.toNat > base.toNat * 2 % 2 ^ 32 then base.toNat * 2 % 2 ^ 32 else raised.toNat := by
    have hless : raised > base * 2 ↔ raised.toNat > base.toNat * 2 % 2 ^ 32 := by
      rw [← hdouble]
      exact BitVec.lt_def
    by_cases hmore : raised > base * 2
    · rw [if_pos hmore, if_pos (hless.mp hmore), hdouble]
    · rw [if_neg hmore, if_neg (fun h => hmore (hless.mpr h))]
  rw [Between, Roomy, ← BitVec.toNat_inj, ← BitVec.toNat_inj, hfinal]
  by_cases hzero : base = 0#32
  · subst hzero
    simp at hraised
    simp [hraised]
  have hpos : base.toNat ≠ 0 := fun h => hzero (BitVec.eq_of_toNat_eq h)
  have hzeronat : (0#32).toNat = 0 := rfl
  rw [hzeronat]
  simp only [hzero, ne_eq, not_false_eq_true, true_and] at hraised
  by_cases hsmall : base.toNat < 2 ^ 31
  · have hmod : base.toNat * 2 % 2 ^ 32 = base.toNat * 2 := Nat.mod_eq_of_lt (by omega)
    rw [hmod, hraised]
    split_ifs <;> omega
  · have hmod : base.toNat * 2 % 2 ^ 32 = base.toNat * 2 - 2 ^ 32 := by
      rw [Nat.mod_eq_sub_mod (by omega)]
      exact Nat.mod_eq_of_lt (by omega)
    rw [hmod, hraised]
    split_ifs <;> omega

end raised

/-! ### New users on the lists of a run -/

/-- The limits that a new user on an address with these clients is held to, at the start and, where
identified clients increase them, in the end. -/
structure LimitsRight (now : Int) (s : Exempts) (w : CloneWorld) (ip : CString)
    (clients : List ClientId) : Prop where
  start : Follows now s ip (startLimits (s.world w) ip)
  allowed : w.cloneIncrease = true → Between (startLimits (s.world w) ip).1
    (CloneState.increased (s.world w) clients (startLimits (s.world w) ip).1)
  warn : w.cloneIncrease = true → Between (startLimits (s.world w) ip).2
    (CloneState.increased (s.world w) clients (startLimits (s.world w) ip).2)

/-- On whatever list the commands and the database have made, the limits are right just where no
expired exemption stands in front and the limits have room. -/
theorem clone_limits_iff (cfg : CloneConfig) (es : List (Int × ExemptEvent)) (now : Int)
    (w : CloneWorld) (ip : CString) (clients : List ClientId) :
    LimitsRight now (run (exemptStep cfg) .initial es).1 w ip clients ↔
      Unshadowed now (run (exemptStep cfg) .initial es).1 ip ∧
      (w.cloneIncrease = true →
        Roomy (clients.countP w.loggedIn)
          (startLimits ((run (exemptStep cfg) .initial es).1.world w) ip).1 ∧
        Roomy (clients.countP w.loggedIn)
          (startLimits ((run (exemptStep cfg) .initial es).1.world w) ip).2) := by
  generalize (run (exemptStep cfg) .initial es).1 = s
  have hraised : w.cloneIncrease = true → ∀ base,
      Between base (CloneState.increased (s.world w) clients base) ↔
        Roomy (clients.countP w.loggedIn) base := fun hinc => increased_between_iff hinc
  constructor
  · intro h
    refine ⟨startLimits_follows_iff.mp h.start, fun hinc => ⟨?_, ?_⟩⟩
    · exact (hraised hinc _).mp (h.allowed hinc)
    · exact (hraised hinc _).mp (h.warn hinc)
  · rintro ⟨hunshadowed, hroomy⟩
    refine ⟨startLimits_follows_iff.mpr hunshadowed, fun hinc => ?_, fun hinc => ?_⟩
    · exact (hraised hinc _).mpr (hroomy hinc).1
    · exact (hraised hinc _).mpr (hroomy hinc).2

def labEvents : List (Int × ExemptEvent) :=
  [(0, .configReady), (1000, .addexempt (some "10.0.0.1".toList) (some "10".toList)
    (some "!T".toList) 0 (some "1 dns lab".toList))]

def labExempts : Exempts := (run (exemptStep ⟨5#32, 5#32, 0#32⟩) .initial labEvents).1

def quietWorld : CloneWorld where
  clonesAllowed := 0#32
  clonesWarn := 0#32
  findExempt := fun _ => none
  cloneIncrease := false
  klineEnabled := false
  graceCount := 0#32
  now := 1061
  loggedIn := fun _ => false
  isAutoklineExempt := fun _ => false
  meName := "services.int".toList
  uidGet := none

/-- An exemption of a minute still counts a second after it has expired. -/
theorem clone_limits_shadowed :
    labExempts.exempts = [⟨"10.0.0.1".toList, 10#32, 10#32, "dns lab".toList, 1060⟩] ∧
    startLimits (labExempts.world quietWorld) "10.0.0.1".toList = (10#32, 10#32) ∧
    ¬ LimitsRight 1061 labExempts quietWorld "10.0.0.1".toList [0] := by
  have hstart : startLimits (labExempts.world quietWorld) "10.0.0.1".toList = (10#32, 10#32) := by
    decide +kernel
  refine ⟨by decide +kernel, hstart, fun h => ?_⟩
  have hlive : labExempts.live 1061 = [] := by decide +kernel
  have hdefault : (labExempts.clonesAllowed, labExempts.clonesWarn) = (5#32, 5#32) := by decide +kernel
  have hfollows := h.start
  rw [hstart, Follows, hlive, hdefault] at hfollows
  cases hfollows with
  | inl hsame =>
    obtain ⟨c, hc, -⟩ := hsame
    cases hc
  | inr hnone => exact absurd hnone.2 (by decide)

end ChatServices.OperServ
