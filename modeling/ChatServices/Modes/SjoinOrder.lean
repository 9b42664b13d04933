import ChatServices.Modes.Sjoin

/-! The merge of a channel by timestamp: what an SJOIN does to modes and statuses, and that two of
them come to the same in either order. -/
namespace ChatServices.Modes
open ChatServices.Lib.Mask ChatServices.Lib.Stamped ChatServices.Text ChatServices.ChanServ
  ChatServices.ChanServ.Channels

structure Settings where
  modes : Flags
  limit : Nat
  key : Option CString
  extmodes : Nat → Option CString

def Settings.none : Settings := ⟨0#32, 0, Option.none, fun _ => Option.none⟩

def settings (ch : Channel) : Settings := ⟨ch.modes, ch.limit, ch.key, ch.extmodes⟩

structure Standing where
  settings : Settings
  status : Uid → Option Flags

def standing (ch : Channel) : Standing := ⟨settings ch, statusOf ch⟩

/-! ### The parts of `m_sjoin` -/

section parts
variable (env : Ts6)

def lowered (m : Sjoin) (ch : Channel) : Channel :=
  { clearSimpleModes ch with
    ts := m.ts
    bans := if m.sid then [] else ch.bans
    members := ch.members.map fun cu => { cu with modes := tsLowered env cu.user cu.modes } }

def welcome (m : Sjoin) (ch : Channel) : Channel :=
  (sjtoken m.users).foldl (chanuserAdd env) (channelMode env.ircd env.view ch m.modes)

/-- The users alone, as far as `m_sjoin` strips their prefixes. -/
def letIn (m : Sjoin) (ch : Channel) : Channel :=
  ((sjtoken m.users).map fun p => p.dropWhile isStripped).foldl (chanuserAdd env) ch

def sjoined (m : Sjoin) (ch : Channel) : Channel :=
  if m.ts < ch.ts then welcome env m (lowered env m ch)
  else if ch.ts < m.ts then letIn env m ch
  else welcome env m ch

def finish (ch : Channel) : Option Channel :=
  if ch.members = [] ∧ test ch.modes env.ircd.permMode = false then none else some ch

theorem mSjoin_eq {ch : Channel} {m : Sjoin} (hts : ch.ts ≠ 0) (hts' : m.ts ≠ 0) :
    mSjoin env (some ch) m = finish env (sjoined env m ch) := by
  have hzero : ¬ (m.ts = 0 ∨ ch.ts = 0) := by
    rintro (h | h)
    · exact hts' h
    · exact hts h
  rw [mSjoin, Option.getD_some, if_neg hzero, sjoined]
  by_cases hlt : m.ts < ch.ts
  · rw [if_pos hlt, if_pos hlt]
    cases hsid : m.sid with
    | true =>
      simp only [lowered, hsid, if_true, finish, welcome]
      rfl
    | false =>
      simp only [lowered, hsid, Bool.false_eq_true, if_false, if_true, finish, welcome]
      rfl
  · rw [if_neg hlt, if_neg hlt]
    by_cases hgt : ch.ts < m.ts
    · simp only [hgt, decide_true, Bool.not_true, Bool.false_eq_true, if_false, if_true, letIn,
        List.foldl_map]
      rfl
    · simp only [hgt, decide_false, Bool.not_false, if_true, if_false]
      rfl

end parts

/-! ### What they do to the modes -/

section modes
variable {env : Ts6} {ch ch' : Channel} {m : Sjoin}

theorem settings_change (v : View) (h : settings ch = settings ch') (x : ModeChange) :
    settings (change v ch x) = settings (change v ch' x) := by
  simp only [settings, Settings.mk.injEq] at h
  obtain ⟨hmodes, hlimit, hkey, hext⟩ := h
  have hban : ∀ ch : Channel, ∀ type mask, settings (banAdd v ch type mask) = settings ch := by
    intro ch type mask
    rw [banAdd]
    split_ifs <;> rfl
  have hstatus : ∀ ch : Channel, ∀ add mode value nick,
      settings (change v ch (.status add mode value nick)) = settings ch := by
    intro ch add mode value nick
    rw [change]
    split
    · rfl
    · split_ifs <;> rfl
  cases x with
  | simple add value => cases add <;> simp only [change, settings, hmodes, hlimit, hkey, hext]
  | ext i value => simp only [change, settings, hmodes, hlimit, hkey, hext]
  | limit value => cases value <;> simp only [change, settings, hmodes, hkey, hext]
  | key value => cases value <;> simp only [change, settings, hmodes, hlimit, hext]
  | banlike add type mask =>
    cases add
    · simp only [change, banDelete, settings, hmodes, hlimit, hkey, hext]
    · rw [change, change, hban, hban]
      simp only [settings, hmodes, hlimit, hkey, hext]
  | status add mode value nick =>
    rw [hstatus, hstatus]
    simp only [settings, hmodes, hlimit, hkey, hext]

theorem settings_channelMode (ircd : Ircd) (v : View) (h : settings ch = settings ch')
    (parv : List CString) : settings (channelMode ircd v ch parv) = settings (channelMode ircd v ch' parv) := by
  have hall : ∀ (xs : List ModeChange) (ch ch' : Channel), settings ch = settings ch' →
      settings (changes v ch xs) = settings (changes v ch' xs) := by
    intro xs
    induction xs with
    | nil => exact fun _ _ h => h
    | cons x xs ih => exact fun ch ch' h => ih _ _ (settings_change v h x)
  cases parv with
  | nil => exact h
  | cons pos params =>
    rw [channelMode, channelMode]
    split_ifs
    · exact h
    · exact hall _ ch ch' h

def applied (env : Ts6) (m : Sjoin) (s : Settings) : Settings :=
  settings (channelMode env.ircd env.view ⟨0, s.modes, s.limit, s.key, s.extmodes, [], []⟩ m.modes)

theorem settings_channelMode_eq : settings (channelMode env.ircd env.view ch m.modes) =
    applied env m (settings ch) := by
  have hsame : settings ch = settings ⟨0, ch.modes, ch.limit, ch.key, ch.extmodes, [], []⟩ := rfl
  exact settings_channelMode env.ircd env.view hsame m.modes

variable (env ch) in
theorem chanuserAdd_frame (nick : CString) : (chanuserAdd env ch nick).ts = ch.ts ∧
    settings (chanuserAdd env ch nick) = settings ch ∧ (ch.members ≠ [] → (chanuserAdd env ch nick).members ≠ []) := by
  rw [chanuserAdd]
  dsimp only
  split
  · exact ⟨rfl, rfl, id⟩
  · split_ifs
    · refine ⟨rfl, rfl, fun h => ?_⟩
      rw [setStatus]
      exact fun hnil => h (List.map_eq_nil_iff.mp hnil)
    · exact ⟨rfl, rfl, fun _ => List.append_ne_nil_of_right_ne_nil _ (List.cons_ne_nil _ _)⟩

variable (env ch) in
theorem addUsers_frame (userv : List CString) : (userv.foldl (chanuserAdd env) ch).ts = ch.ts ∧
    settings (userv.foldl (chanuserAdd env) ch) = settings ch ∧
    (ch.members ≠ [] → (userv.foldl (chanuserAdd env) ch).members ≠ []) := by
  induction userv generalizing ch with
  | nil => exact ⟨rfl, rfl, id⟩
  | cons p userv ih =>
    obtain ⟨hts, hsettings, hmembers⟩ := chanuserAdd_frame env ch p
    obtain ⟨hts', hsettings', hmembers'⟩ := ih (chanuserAdd env ch p)
    exact ⟨hts'.trans hts, hsettings'.trans hsettings, fun h => hmembers' (hmembers h)⟩

variable (ch) in
theorem channelMode_frame (ircd : Ircd) (v : View) (parv : List CString) :
    (channelMode ircd v ch parv).ts = ch.ts ∧
    (ch.members ≠ [] → (channelMode ircd v ch parv).members ≠ []) := by
  have hset : ∀ (ch : Channel) u f, (setStatus ch u f).ts = ch.ts ∧
      (ch.members ≠ [] → (setStatus ch u f).members ≠ []) := by
    intro ch u f
    refine ⟨rfl, fun h => ?_⟩
    rw [setStatus]
    exact fun hnil => h (List.map_eq_nil_iff.mp hnil)
  have hone : ∀ (ch : Channel) x, (change v ch x).ts = ch.ts ∧ (ch.members ≠ [] → (change v ch x).members ≠ []) := by
    intro ch x
    cases x with
    | simple add value => cases add <;> exact ⟨rfl, id⟩
    | ext i value => exact ⟨rfl, id⟩
    | limit value => cases value <;> exact ⟨rfl, id⟩
    | key value => cases value <;> exact ⟨rfl, id⟩
    | banlike add type mask =>
      cases add
      · exact ⟨rfl, id⟩
      · rw [change, banAdd]
        split_ifs <;> exact ⟨rfl, id⟩
    | status add mode value nick =>
      rw [change]
      split
      · exact ⟨rfl, id⟩
      · split_ifs
        · exact hset ch _ _
        · exact ⟨rfl, id⟩
        · exact hset ch _ _
  have hall : ∀ (xs : List ModeChange) (ch : Channel), (changes v ch xs).ts = ch.ts ∧
      (ch.members ≠ [] → (changes v ch xs).members ≠ []) := by
    intro xs
    induction xs with
    | nil => exact fun _ => ⟨rfl, id⟩
    | cons x xs ih =>
      intro ch
      obtain ⟨hts, hmembers⟩ := hone ch x
      obtain ⟨hts', hmembers'⟩ := ih (change v ch x)
      exact ⟨hts'.trans hts, fun h => hmembers' (hmembers h)⟩
  cases parv with
  | nil => exact ⟨rfl, id⟩
  | cons pos params =>
    rw [channelMode]
    split_ifs
    · exact ⟨rfl, id⟩
    · exact hall _ ch

end modes

/-! ### What they do to the statuses -/

section statuses
variable (env : Ts6)

def naming (userv : List CString) (u : Uid) : List CString :=
  userv.filter fun p => env.view.userFind (readPrefixes env.ircd p).2 = some u

def names (m : Sjoin) (u : Uid) : Bool := naming env (sjtoken m.users) u ≠ []

def prefixFlags (userv : List CString) : Flags :=
  userv.foldr (fun p flags => (readPrefixes env.ircd p).1 ||| flags) 0#32

def given (m : Sjoin) (u : Uid) : Flags := prefixFlags env (naming env (sjtoken m.users) u)

def Stripped (p : CString) : Prop := p.dropWhile isStripped = (readPrefixes env.ircd p).2

instance (p : CString) : Decidable (Stripped env p) := inferInstanceAs (Decidable (_ = _))

def isStatus : ModeChange → Bool
  | .status .. => true
  | .simple .. | .ext .. | .limit _ | .key _ | .banlike .. => false

def NoStatus (m : Sjoin) : Prop :=
  ∀ x ∈ parseModes env.ircd false (m.modes.headD []) m.modes.tail, isStatus x = false

instance (m : Sjoin) : Decidable (NoStatus env m) := inferInstanceAs (Decidable (∀ _ ∈ _, _ = _))

variable {env} {ch : Channel} {m : Sjoin}

theorem statusOf_addUsers (userv : List CString) (u : Uid) :
    statusOf (userv.foldl (chanuserAdd env) ch) u =
      if naming env userv u ≠ [] then some ((statusOf ch u).getD 0#32 ||| prefixFlags env (naming env userv u))
      else statusOf ch u := by
  induction userv generalizing ch with
  | nil => rfl
  | cons p userv ih =>
    rw [List.foldl_cons, ih, status_chanuserAdd]
    by_cases hp : env.view.userFind (readPrefixes env.ircd p).2 = some u
    · have hnaming : naming env (p :: userv) u = p :: naming env userv u :=
        List.filter_cons_of_pos (by simpa using hp)
      have hne : naming env (p :: userv) u ≠ [] := by
        rw [hnaming]
        exact List.cons_ne_nil _ _
      rw [if_pos hp, if_pos hne, hnaming]
      split_ifs with hrest
      · rw [Option.getD_some, BitVec.or_assoc]
        rfl
      · rw [not_not.mp hrest]
        simp [prefixFlags]
    · have hnaming : naming env (p :: userv) u = naming env userv u :=
        List.filter_cons_of_neg (by simpa using hp)
      rw [if_neg hp, hnaming]

theorem statusOf_changes (v : View) (xs : List ModeChange)
    (hxs : ∀ x ∈ xs, isStatus x = false) (u : Uid) :
    statusOf (changes v ch xs) u = statusOf ch u := by
  induction xs generalizing ch with
  | nil => rfl
  | cons x xs ih =>
    have hrest : statusOf (changes v (change v ch x) xs) u = statusOf (change v ch x) u :=
      ih fun y hy => hxs y (List.mem_cons_of_mem x hy)
    have hx := hxs x List.mem_cons_self
    have hone : (change v ch x).members = ch.members := by
      cases x with
      | simple add value => cases add <;> rfl
      | ext i value => rfl
      | limit value => cases value <;> rfl
      | key value => cases value <;> rfl
      | banlike add type mask =>
        cases add
        · rfl
        · rw [change, banAdd]
          split_ifs <;> rfl
      | status add mode value nick => exact Bool.noConfusion hx
    show statusOf (changes v (change v ch x) xs) u = _
    rw [hrest, statusOf, hone, statusOf]

theorem statusOf_channelMode (h : NoStatus env m) (u : Uid) :
    statusOf (channelMode env.ircd env.view ch m.modes) u = statusOf ch u := by
  rw [NoStatus] at h
  cases hmodes : m.modes with
  | nil => rfl
  | cons pos params =>
    rw [hmodes] at h
    rw [channelMode]
    split_ifs
    · rfl
    · exact statusOf_changes env.view _ h u

theorem statusOf_lowered (u : Uid) :
    statusOf (lowered env m ch) u = (statusOf ch u).map (tsLowered env u) := by
  have hfind := find_map_modes ch.members (fun cu => tsLowered env cu.user cu.modes) u
  rw [statusOf, lowered, hfind, statusOf, Option.map_map, Option.map_map]
  cases hcu : ch.members.find? fun cu => cu.user = u with
  | none => rfl
  | some cu =>
    have huser := user_of_find hcu
    simp only [Option.map_some, Function.comp_apply, huser]

end statuses

/-! ### The merge -/

section merge
variable (env : Ts6)

def merge : Merge Standing Sjoin where
  reset s := ⟨.none, fun u => (s.status u).map (tsLowered env u)⟩
  apply m s := ⟨applied env m s.settings, fun u =>
    if names env m u then some ((s.status u).getD 0#32 ||| given env m u) else s.status u⟩
  add m s := ⟨s.settings, fun u =>
    if names env m u then some ((s.status u).getD 0#32) else s.status u⟩

variable {env} {ch : Channel} {m : Sjoin}

theorem standing_lowered : standing (lowered env m ch) = (merge env).reset (standing ch) := by
  have hstatus : statusOf (lowered env m ch) = fun u => (statusOf ch u).map (tsLowered env u) :=
    funext fun u => statusOf_lowered u
  rw [standing, hstatus]
  rfl

theorem names_eq (m : Sjoin) (u : Uid) : names env m u = true ↔ naming env (sjtoken m.users) u ≠ [] := by
  rw [names, decide_eq_true_eq]

theorem standing_welcome (h : NoStatus env m) :
    standing (welcome env m ch) = (merge env).apply m (standing ch) := by
  have hstatus : statusOf (welcome env m ch) = fun u =>
      if names env m u then some ((statusOf ch u).getD 0#32 ||| given env m u) else statusOf ch u := by
    funext u
    rw [welcome, statusOf_addUsers, statusOf_channelMode h]
    simp only [names_eq, given]
  have hsettings : settings (welcome env m ch) = applied env m (settings ch) := by
    rw [welcome, (addUsers_frame env _ _).2.1, settings_channelMode_eq]
  rw [standing, hstatus, hsettings]
  rfl

theorem readPrefixes_rest (ircd : Ircd) (p : CString) :
    readPrefixes ircd (readPrefixes ircd p).2 = (0#32, (readPrefixes ircd p).2) := by
  induction p with
  | nil => rfl
  | cons c p ih =>
    rw [readPrefixes]
    cases hc : ircd.prefixModeList.find? fun m => m.1 = c with
    | some m => exact ih
    | none =>
      show readPrefixes ircd (c :: p) = (0#32, c :: p)
      rw [readPrefixes, hc]

theorem naming_stripped (userv : List CString) (h : ∀ p ∈ userv, Stripped env p) (u : Uid) :
    (naming env (userv.map fun p => p.dropWhile isStripped) u = [] ↔ naming env userv u = []) ∧
    prefixFlags env (naming env (userv.map fun p => p.dropWhile isStripped) u) = 0#32 := by
  induction userv with
  | nil => exact ⟨Iff.rfl, rfl⟩
  | cons p userv ih =>
    obtain ⟨hiff, hzero⟩ := ih fun q hq => h q (List.mem_cons_of_mem p hq)
    have hp : p.dropWhile isStripped = (readPrefixes env.ircd p).2 := h p List.mem_cons_self
    have hrest := readPrefixes_rest env.ircd p
    rw [List.map_cons, hp]
    by_cases hu : env.view.userFind (readPrefixes env.ircd p).2 = some u
    · have hleft : naming env ((readPrefixes env.ircd p).2 :: userv.map fun p => p.dropWhile isStripped) u =
          (readPrefixes env.ircd p).2 :: naming env (userv.map fun p => p.dropWhile isStripped) u :=
        List.filter_cons_of_pos (by simpa [hrest] using hu)
      have hright : naming env (p :: userv) u = p :: naming env userv u :=
        List.filter_cons_of_pos (by simpa using hu)
      have hflags : (readPrefixes env.ircd (readPrefixes env.ircd p).2).1 ||| 0#32 = 0#32 := by
        rw [hrest, BitVec.or_zero]
      rw [hleft, hright]
      refine ⟨by simp, ?_⟩
      rw [prefixFlags, List.foldr_cons]
      exact (congrArg _ hzero).trans hflags
    · have hleft : naming env ((readPrefixes env.ircd p).2 :: userv.map fun p => p.dropWhile isStripped) u =
          naming env (userv.map fun p => p.dropWhile isStripped) u :=
        List.filter_cons_of_neg (by simpa [hrest] using hu)
      have hright : naming env (p :: userv) u = naming env userv u :=
        List.filter_cons_of_neg (by simpa using hu)
      rw [hleft, hright]
      exact ⟨hiff, hzero⟩

theorem standing_letIn (h : ∀ p ∈ sjtoken m.users, Stripped env p) :
    standing (letIn env m ch) = (merge env).add m (standing ch) := by
  have hstatus : statusOf (letIn env m ch) = fun u =>
      if names env m u then some ((statusOf ch u).getD 0#32) else statusOf ch u := by
    funext u
    obtain ⟨hiff, hzero⟩ := naming_stripped (sjtoken m.users) h u
    rw [letIn, statusOf_addUsers, hzero, BitVec.or_zero]
    simp only [names_eq, ne_eq, hiff]
  have hsettings : settings (letIn env m ch) = settings ch := (addUsers_frame env _ _).2.1
  rw [standing, hstatus, hsettings]
  rfl

theorem finish_of_members {c : Channel} (h : c.members ≠ []) : finish env c = some c :=
  if_neg fun hc => h hc.1

theorem eq_of_finish {c c' : Channel} (h : finish env c = some c') : c' = c := by
  rw [finish] at h
  split_ifs at h
  exact (Option.some.inj h).symm

variable (env m) in
theorem welcome_frame (c : Channel) :
    (welcome env m c).ts = c.ts ∧ (c.members ≠ [] → (welcome env m c).members ≠ []) := by
  obtain ⟨hts, hmembers⟩ := channelMode_frame c env.ircd env.view m.modes
  obtain ⟨hts', -, hmembers'⟩ := addUsers_frame env (channelMode env.ircd env.view c m.modes) (sjtoken m.users)
  exact ⟨hts'.trans hts, fun h => hmembers' (hmembers h)⟩

theorem letIn_ts : (letIn env m ch).ts = ch.ts := (addUsers_frame env ch _).1

theorem sjoined_ts : (sjoined env m ch).ts = min ch.ts m.ts := by
  rw [sjoined]
  split_ifs with hlt hgt
  · rw [(welcome_frame env m _).1]
    exact (min_eq_right hlt.le).symm
  · rw [letIn_ts, min_eq_left hgt.le]
  · rw [(welcome_frame env m _).1, min_eq_left (not_lt.mp hlt)]

theorem sjoined_members (h : ch.members ≠ []) : (sjoined env m ch).members ≠ [] := by
  rw [sjoined]
  split_ifs
  · exact (welcome_frame env m _).2 fun hnil => h (List.map_eq_nil_iff.mp hnil)
  · exact (addUsers_frame env ch _).2.2 h
  · exact (welcome_frame env m ch).2 h

theorem sjoined_merge (hstripped : ∀ p ∈ sjtoken m.users, Stripped env p) (hstatus : NoStatus env m) :
    ((sjoined env m ch).ts, standing (sjoined env m ch)) =
      receive (merge env) (ch.ts, standing ch) (m.ts, m) := by
  rw [sjoined_ts, sjoined]
  obtain h | h | h := lt_trichotomy m.ts ch.ts
  · rw [receive_older (merge env) h, if_pos h, standing_welcome hstatus, standing_lowered,
      min_eq_right h.le]
  · rw [receive_same (merge env) h, if_neg h.not_lt, if_neg h.not_gt, standing_welcome hstatus, h, min_self]
  · rw [receive_newer (merge env) h, if_neg h.not_gt, if_pos h, standing_letIn hstripped, min_eq_left h.le]

/-! ### The order of two messages -/

variable (env) in
/-- What another server sends: it names no services, sets statuses by prefix only, and has the
prefixes that `m_sjoin` strips. -/
structure Proper (m : Sjoin) : Prop where
  tokens : ∀ p ∈ sjtoken m.users, Stripped env p
  remote : ∀ p ∈ sjtoken m.users, ∀ u ∈ env.view.userFind (readPrefixes env.ircd p).2,
    env.view.internal u = false
  noStatus : NoStatus env m

theorem Proper.not_internal (h : Proper env m) {u : Uid} (hu : names env m u = true) :
    env.view.internal u = false := by
  rw [names_eq] at hu
  obtain ⟨p, hp⟩ := List.exists_mem_of_ne_nil _ hu
  rw [naming, List.mem_filter, decide_eq_true_eq] at hp
  exact h.remote p hp.1 u hp.2

theorem tsLowered_remote {u : Uid} (h : env.view.internal u = false) (f : Flags) :
    tsLowered env u f = 0#32 := by
  rw [tsLowered, h]
  rfl

theorem tsLowered_op {u : Uid} (h : env.view.internal u = true) (f : Flags) :
    test (tsLowered env u f) cstatusOp = true := by
  have hop : ∀ g : Flags, test (g ||| cstatusOp) cstatusOp = true := by
    intro g
    rw [test_or]
    exact Bool.or_eq_true_iff.mpr (.inr (by decide))
  rw [tsLowered, if_pos h]
  exact hop _

theorem tsLowered_idem (u : Uid) (f : Flags) : tsLowered env u (tsLowered env u f) = tsLowered env u f := by
  cases hu : env.view.internal u with
  | false => rw [tsLowered_remote hu, tsLowered_remote hu]
  | true =>
    have hsame : ∀ g s : Flags, f ||| g ||| s ||| g ||| s = f ||| g ||| s := by
      intro g s
      rw [BitVec.or_assoc, BitVec.or_assoc, BitVec.or_assoc, ← BitVec.or_assoc s, BitVec.or_comm s g,
        BitVec.or_assoc, BitVec.or_self, ← BitVec.or_assoc g, BitVec.or_self, ← BitVec.or_assoc]
    have hop : f ||| cstatusOp ||| cstatusOp = f ||| cstatusOp := by
      rw [BitVec.or_assoc, BitVec.or_self]
    simp only [tsLowered, hu, if_true]
    split_ifs
    · exact hsame _ _
    · exact hsame _ _
    · exact hop

theorem reset_reset (x : Standing) : (merge env).reset ((merge env).reset x) = (merge env).reset x := by
  have hstatus : (fun u => ((x.status u).map (tsLowered env u)).map (tsLowered env u)) =
      fun u => (x.status u).map (tsLowered env u) := by
    funext u
    rw [Option.map_map]
    congr 1
    funext f
    exact tsLowered_idem u f
  exact congrArg (Standing.mk .none) hstatus

theorem getD_reset {u : Uid} (h : env.view.internal u = false) (f : Option Flags) :
    (f.map (tsLowered env u)).getD 0#32 = 0#32 := by
  cases f with
  | none => rfl
  | some f => exact tsLowered_remote h f

theorem reset_applied {b : Sjoin} (hb : Proper env b) (x : Standing) :
    (merge env).reset ((merge env).apply b x) = (merge env).reset ((merge env).add b x) := by
  refine congrArg (Standing.mk .none) (funext fun u => ?_)
  cases hnb : names env b u with
  | false => simp [merge, hnb]
  | true => simp [merge, hnb, tsLowered_remote (hb.not_internal hnb)]

theorem independent {a b : Sjoin} (hb : Proper env b) : Independent (merge env) a b := by
  have hstanding : ∀ {s : Settings} {f g : Uid → Option Flags}, (∀ u, f u = g u) →
      (⟨s, f⟩ : Standing) = ⟨s, g⟩ := fun h => congrArg (Standing.mk _) (funext h)
  have hadd : ∀ x, (merge env).apply a ((merge env).reset ((merge env).add b x)) =
      (merge env).add b ((merge env).apply a ((merge env).reset x)) := by
    intro x
    apply hstanding
    intro u
    cases hnb : names env b u with
    | false => simp [merge, hnb]
    | true =>
      have hu := hb.not_internal hnb
      have hzero := getD_reset hu (x.status u)
      cases hna : names env a u <;> simp [merge, hnb, hna, hzero, tsLowered_remote hu]
  refine ⟨?_, hadd, ?_, ?_⟩
  · intro x
    rw [reset_applied hb x, hadd]
  · intro x
    apply hstanding
    intro u
    cases hnb : names env b u <;> cases hna : names env a u <;> simp [merge, hnb, hna]
  · intro x
    apply hstanding
    intro u
    cases hnb : names env b u <;> cases hna : names env a u <;> simp [merge, hnb, hna]

/-- Each message leaves the older of the two timestamps. With an older one it finds a channel without
modes, where no other user has a status and services are opped; with a newer one it changes no mode and
no status, and adds its users without any. Two messages of other servers come to the same in either
order. -/
theorem sjoin_merged (env : Ts6) (ch : Channel) (hts : ch.ts ≠ 0) :
    (∀ m : Sjoin, m.ts ≠ 0 →
      (ch.members ≠ [] → (mSjoin env (some ch) m).isSome = true) ∧
      ∀ c, mSjoin env (some ch) m = some c →
        c.ts = min ch.ts m.ts ∧
        (m.ts < ch.ts → ∃ c₀, settings c₀ = .none ∧
          (∀ u, env.view.internal u = false → statusOf c₀ u = (statusOf ch u).map fun _ => 0#32) ∧
          (∀ u, env.view.internal u = true → ∀ f ∈ statusOf ch u,
            ∃ f' ∈ statusOf c₀ u, test f' cstatusOp = true) ∧
          c = welcome env m c₀) ∧
        (ch.ts < m.ts → (∀ p ∈ sjtoken m.users, Stripped env p) →
          settings c = settings ch ∧ ∀ u, statusOf c u =
            if names env m u then some ((statusOf ch u).getD 0#32) else statusOf ch u)) ∧
    (ch.members ≠ [] → ∀ m m' : Sjoin, Proper env m → Proper env m' → m.ts ≠ 0 → m'.ts ≠ 0 →
      m.ts ≠ m'.ts → ∃ c c', mSjoin env (mSjoin env (some ch) m) m' = some c ∧
        mSjoin env (mSjoin env (some ch) m') m = some c' ∧
        c.ts = c'.ts ∧ settings c = settings c' ∧ ∀ u, statusOf c u = statusOf c' u) := by
  constructor
  · intro m hm
    rw [mSjoin_eq env hts hm]
    refine ⟨?_, ?_⟩
    · intro hmembers
      rw [finish_of_members (sjoined_members hmembers)]
      rfl
    · intro c hc
      obtain rfl := eq_of_finish hc
      refine ⟨sjoined_ts, ?_, ?_⟩
      · intro hlt
        refine ⟨lowered env m ch, rfl, ?_, ?_, if_pos hlt⟩
        · intro u hu
          rw [statusOf_lowered]
          congr 1
          funext f
          exact tsLowered_remote hu f
        · intro u hu f hf
          rw [statusOf_lowered, hf]
          exact ⟨_, rfl, tsLowered_op hu f⟩
      · intro hgt hstripped
        have hstand : standing (letIn env m ch) = (merge env).add m (standing ch) := standing_letIn hstripped
        rw [sjoined, if_neg hgt.not_gt, if_pos hgt]
        exact ⟨congrArg Standing.settings hstand, fun u => congrFun (congrArg Standing.status hstand) u⟩
  · intro hmembers m m' hm hm' hts₁ hts₂ hne
    -- one message after the other, as the merge has it
    have htwo : ∀ a b : Sjoin, Proper env a → Proper env b → a.ts ≠ 0 → b.ts ≠ 0 →
        ∃ c, mSjoin env (mSjoin env (some ch) a) b = some c ∧ (c.ts, standing c) =
          receive (merge env) (receive (merge env) (ch.ts, standing ch) (a.ts, a)) (b.ts, b) := by
      intro a b ha hb htsa htsb
      have hfirst : (sjoined env a ch).members ≠ [] := sjoined_members hmembers
      have hmin : (sjoined env a ch).ts ≠ 0 := by
        rw [sjoined_ts]
        omega
      refine ⟨sjoined env b (sjoined env a ch), ?_, ?_⟩
      · rw [mSjoin_eq env hts htsa, finish_of_members hfirst, mSjoin_eq env hmin htsb,
          finish_of_members (sjoined_members hfirst)]
      · rw [sjoined_merge hb.tokens hb.noStatus, sjoined_merge ha.tokens ha.noStatus]
    obtain ⟨c, hc, hmerge⟩ := htwo m m' hm hm' hts₁ hts₂
    obtain ⟨c', hc', hmerge'⟩ := htwo m' m hm' hm hts₂ hts₁
    have hsame : (c.ts, standing c) = (c'.ts, standing c') := by
      rw [hmerge, hmerge']
      exact receive_comm reset_reset (independent hm') (independent hm) hne _
    obtain ⟨hts, hstand⟩ := Prod.mk.inj hsame
    exact ⟨c, c', hc, hc', hts, congrArg Standing.settings hstand,
      fun u => congrFun (congrArg Standing.status hstand) u⟩

end merge

/-! ChatIRCd, with ChanServ and two users of another server. -/

def chatircd : Ircd where
  usesOwner := true
  usesProtect := true
  usesHalfops := true
  ownerMode := cstatusOwner
  protectMode := cstatusProtect
  halfopsMode := cstatusHalfop
  ownerMchar := "+y".toList
  protectMchar := "+a".toList
  halfopsMchar := "+h".toList
  permMode := 0x20000#32
  oimmuneMode := 0#32
  banLikeModes := ['b', 'e', 'I', 'q']
  exceptMchar := some 'e'
  invexMchar := some 'I'
  modeList := [('i', cmodeInvite), ('m', 0x8#32), ('n', 0x10#32), ('p', 0x40#32), ('s', 0x80#32),
    ('t', 0x100#32), ('r', 0x2000#32), ('z', 0x4000#32), ('g', 0x8000#32), ('L', 0x10000#32),
    ('P', 0x20000#32), ('F', 0x40000#32), ('Q', 0x80000#32), ('T', 0x4000000#32), ('N', 0x200000#32),
    ('S', 0x400000#32), ('O', 0x800000#32), ('A', 0x1000000#32), ('c', 0x1000#32), ('C', 0x100000#32)]
  ignoreModeList := ['f', 'j']
  statusModeList := [('y', cstatusOwner), ('a', cstatusProtect), ('o', cstatusOp), ('h', cstatusHalfop),
    ('v', cstatusVoice)]
  prefixModeList := [('~', cstatusOwner), ('&', cstatusProtect), ('@', cstatusOp), ('%', cstatusHalfop),
    ('+', cstatusVoice)]
  owner_bit := mode_own cstatusOwner
  protect_bit := mode_own cstatusProtect
  halfops_bit := mode_own cstatusHalfop
  status_nodup := by decide

def sjoinEnv : Ts6 :=
  ⟨chatircd, ⟨.rfc1459, fun s => if s = [] then none else some s, fun u => u = "ACAAA".toList⟩, false, false⟩

def sjoinChannel (members : List Chanuser) : Channel :=
  ⟨500, 0x110#32, 0, some "key".toList, fun _ => none, [], members⟩

theorem sjoin_merged_chatircd : ∃ c c',
    mSjoin sjoinEnv (mSjoin sjoinEnv (some (sjoinChannel [⟨"ACAAA".toList, cstatusOp⟩]))
      ⟨400, true, ["+ml".toList, "5".toList], "@+1ABAAAAAB 1ABAAAAAC".toList⟩)
      ⟨450, true, ["+s".toList], "%1ACAAAAAB".toList⟩ = some c ∧
    mSjoin sjoinEnv (mSjoin sjoinEnv (some (sjoinChannel [⟨"ACAAA".toList, cstatusOp⟩]))
      ⟨450, true, ["+s".toList], "%1ACAAAAAB".toList⟩)
      ⟨400, true, ["+ml".toList, "5".toList], "@+1ABAAAAAB 1ABAAAAAC".toList⟩ = some c' ∧
    c.ts = c'.ts ∧ settings c = settings c' ∧ ∀ u, statusOf c u = statusOf c' u :=
  (sjoin_merged sjoinEnv (sjoinChannel [⟨"ACAAA".toList, cstatusOp⟩]) (by decide)).2 (by decide) _ _
    ⟨by decide, by decide, by decide⟩ ⟨by decide, by decide, by decide⟩ (by decide) (by decide) (by decide)

def statusAfter (c : Option Channel) (u : String) : Option Flags := c.bind fun c => statusOf c u.toList

/-- ChanServ is opped where the timestamp goes down; an owner prefix is not stripped where it is newer.
The order of two messages matters where one sets a status in its mode string, and where one names
ChanServ. A permanent channel that loses its modes and has no members is gone. -/
theorem sjoin_not_merged :
    statusAfter (mSjoin sjoinEnv (some (sjoinChannel [⟨"ACAAA".toList, cstatusOp⟩]))
      ⟨400, true, ["+nt".toList], "1ABAAAAAB".toList⟩) "ACAAA" = some cstatusOp ∧
    statusAfter (mSjoin sjoinEnv (some (sjoinChannel [⟨"1ABAAAAAB".toList, cstatusOp⟩]))
      ⟨600, true, ["+nt".toList], "~1ACAAAAAB".toList⟩) "1ACAAAAAB" = some cstatusOwner ∧
    (statusAfter (mSjoin sjoinEnv (mSjoin sjoinEnv (some (sjoinChannel [⟨"1ABAAAAAB".toList, cstatusOp⟩]))
        ⟨400, true, ["+o".toList, "1ACAAAAAB".toList], "1ABAAAAAC".toList⟩)
        ⟨450, true, ["+n".toList], "1ACAAAAAB".toList⟩) "1ACAAAAAB" = some 0#32 ∧
      statusAfter (mSjoin sjoinEnv (mSjoin sjoinEnv (some (sjoinChannel [⟨"1ABAAAAAB".toList, cstatusOp⟩]))
        ⟨450, true, ["+n".toList], "1ACAAAAAB".toList⟩)
        ⟨400, true, ["+o".toList, "1ACAAAAAB".toList], "1ABAAAAAC".toList⟩) "1ACAAAAAB" = some cstatusOp) ∧
    (statusAfter (mSjoin sjoinEnv (mSjoin sjoinEnv (some (sjoinChannel [⟨"1ABAAAAAB".toList, cstatusOp⟩]))
        ⟨400, true, ["+n".toList], "1ABAAAAAC".toList⟩)
        ⟨600, true, ["+n".toList], "ACAAA".toList⟩) "ACAAA" = some 0#32 ∧
      statusAfter (mSjoin sjoinEnv (mSjoin sjoinEnv (some (sjoinChannel [⟨"1ABAAAAAB".toList, cstatusOp⟩]))
        ⟨600, true, ["+n".toList], "ACAAA".toList⟩)
        ⟨400, true, ["+n".toList], "1ABAAAAAC".toList⟩) "ACAAA" = some cstatusOp) ∧
    (mSjoin sjoinEnv (some ⟨500, 0x20000#32, 0, none, fun _ => none, [], []⟩)
      ⟨400, true, ["+n".toList], []⟩).isNone = true := by
  decide +kernel

end ChatServices.Modes
