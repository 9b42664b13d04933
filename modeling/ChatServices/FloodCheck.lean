import ChatServices.Lib.Run
import Mathlib.Tactic.SplitIfs

/-! `floodcheck` and `command_add_flood` of `libathemecore/ptasks.c`: who sends too much is ignored
twice, and banned after that. -/
namespace ChatServices.FloodCheck
open ChatServices.Lib.Run ChatServices.Lib.Trace

def FLOOD_MSGS_FACTOR : BitVec 32 := 256

/-- `flood_msgs` and `flood_time`, with flood protection on. -/
structure Config where
  floodMsgs : BitVec 32
  floodTime : BitVec 32
  on : floodMsgs ≠ 0
  positive : floodTime ≠ 0

structure User where
  offenses : Nat
  msgs : BitVec 32
  lastmsg : Int
  deriving DecidableEq

inductive Target where
  | server
  | service
  | other
  deriving DecidableEq

inductive Effect where
  | notice (text : String)
  | kline (seconds : Nat) (reason : String)
  deriving DecidableEq

def servicesIgnore : Effect :=
  .notice "You are on services ignore. You may not use any service."
def triggered : Effect := .notice "You have triggered services flood protection."
def firstOffense : Effect :=
  .notice "This is your first offense. You will be ignored for 30 seconds."
def lastWarning : Effect :=
  .notice "This is your last warning. You will be ignored for 30 seconds."
def tenMinuteBan : Effect := .kline 600 "ten minute ban - flooding services"

structure Outcome where
  user : User
  ignored : Bool
  effects : List Effect
  deriving DecidableEq

section floodcheck
variable (cfg : Config) (now : Int) (u : User)

def expire : Option User :=
  if u.offenses > 10 then
    if now - u.lastmsg > 30 then some ⟨u.offenses - 10, 0, now⟩ else none
  else some u

def reduction : BitVec 32 :=
  BitVec.ofInt 32 ((now - u.lastmsg) * (cfg.floodMsgs * FLOOD_MSGS_FACTOR / cfg.floodTime).toNat)

def count : User :=
  let msgs :=
    if u.lastmsg ≠ 0 ∧ now > u.lastmsg then
      if u.msgs > reduction cfg now u then u.msgs - reduction cfg now u else 0
    else u.msgs
  ⟨u.offenses, msgs + FLOOD_MSGS_FACTOR, now⟩

def punish : Outcome :=
  if u.offenses = 0 then ⟨⟨11, 0, now⟩, true, [triggered, firstOffense]⟩
  else if u.offenses = 1 then ⟨⟨12, 0, now⟩, true, [triggered, lastWarning]⟩
  else if u.offenses = 2 then ⟨u, true, [tenMinuteBan]⟩
  else ⟨u, false, []⟩

/-- `floodcheck`; `flood` is PRIV_FLOOD, `svsignored` a services ignore that PRIV_ADMIN does not lift,
and `lastIgnoreNotice` the static variable, which is given back. -/
def floodcheck (t : Target) (svsignored flood : Bool) (lastIgnoreNotice : Int) : Outcome × Int :=
  if t = .other then (⟨u, false, []⟩, lastIgnoreNotice)
  else if svsignored then
    if u.msgs = 0 ∧ lastIgnoreNotice ≠ now then (⟨{ u with msgs := 1 }, true, [servicesIgnore]⟩, now)
    else (⟨u, true, []⟩, lastIgnoreNotice)
  else if cfg.floodMsgs = 0 then (⟨u, false, []⟩, lastIgnoreNotice)
  else
    match expire now u with
    | none => (⟨u, true, []⟩, lastIgnoreNotice)
    | some u =>
      let u := count cfg now u
      if u.msgs > cfg.floodMsgs * FLOOD_MSGS_FACTOR then
        if flood then (⟨{ u with msgs := 0 }, false, []⟩, lastIgnoreNotice)
        else (punish now u, lastIgnoreNotice)
      else (⟨u, false, []⟩, lastIgnoreNotice)

end floodcheck

def commandAddFlood (u : User) (amount : BitVec 32) : User := { u with msgs := u.msgs + amount }

/-! ### Runs -/

structure Watch where
  user : User
  lastIgnoreNotice : Int
  clock : Int

/-- A message some seconds later, to a service by its name or not, from the user with or without
PRIV_FLOOD; or a command that costs more than its message. -/
inductive Event where
  | message (elapsed : Nat) (named flood : Bool)
  | addFlood (elapsed : Nat) (amount : BitVec 32)

structure Seen where
  now : Int
  ignored : Bool
  effects : List Effect
  before : User
  after : User
  deriving DecidableEq

def turn (cfg : Config) (w : Watch) : Event → Watch × List Seen
  | .message elapsed named flood =>
    let now := w.clock + elapsed
    let t := if named then .service else .server
    let r := floodcheck cfg now w.user t false flood w.lastIgnoreNotice
    (⟨r.1.user, r.2, now⟩, [⟨now, r.1.ignored, r.1.effects, w.user, r.1.user⟩])
  | .addFlood elapsed amount =>
    (⟨commandAddFlood w.user amount, w.lastIgnoreNotice, w.clock + elapsed⟩, [])

def Watch.start (clock lastIgnoreNotice : Int) : Watch := ⟨⟨0, 0, 0⟩, lastIgnoreNotice, clock⟩

def Seen.startsIgnore (o : Seen) : Bool := firstOffense ∈ o.effects || lastWarning ∈ o.effects

def starts (seen : List Seen) : List Int := (seen.filter Seen.startsIgnore).map Seen.now

structure Fair (before : List Seen) (o : Seen) : Prop where
  /-- Whom a K-line is added for was ignored twice, and each time the 30 seconds are over. -/
  banned : ∀ seconds reason, Effect.kline seconds reason ∈ o.effects →
    ∃ first second, [first, second].Sublist before ∧ first.startsIgnore ∧ second.startsIgnore ∧
      first.now + 30 < second.now ∧ second.now + 30 < o.now
  /-- While a period lasts, messages are ignored and nothing changes. -/
  lasting : ∀ p ∈ before, p.startsIgnore → o.now ≤ p.now + 30 →
    o.ignored = true ∧ o.effects = [] ∧ o.after = o.before

inductive Stage (clock : Int) (u : User) : List Int → Prop where
  | clean (h : u.offenses = 0) : Stage clock u []
  | first {t : Int} (h : u.offenses = 11) (hstart : u.lastmsg = t) (hpast : t ≤ clock) :
    Stage clock u [t]
  | warned {t : Int} (h : u.offenses = 1) (hover : t + 30 < clock) : Stage clock u [t]
  | second {t t' : Int} (h : u.offenses = 12) (hover : t + 30 < t') (hstart : u.lastmsg = t')
    (hpast : t' ≤ clock) : Stage clock u [t, t']
  | last {t t' : Int} (h : u.offenses = 2) (hover : t + 30 < t') (hover' : t' + 30 < clock) :
    Stage clock u [t, t']

def level (u : User) : Nat := if u.offenses > 10 then u.offenses - 10 else u.offenses

inductive Answers (now : Int) (u : User) (flood : Bool) : Outcome → Prop where
  | ignoring (h : u.offenses > 10) (hlasts : now - u.lastmsg ≤ 30) : Answers now u flood ⟨u, true, []⟩
  | passes {v : User} (hover : u.offenses > 10 → now - u.lastmsg > 30) (h : v.offenses = level u) :
    Answers now u flood ⟨v, false, []⟩
  | first {v : User} (hover : u.offenses > 10 → now - u.lastmsg > 30) (h : level u = 0)
    (hv : v = ⟨11, 0, now⟩) (hflood : flood = false) : Answers now u flood ⟨v, true, [triggered, firstOffense]⟩
  | second {v : User} (hover : u.offenses > 10 → now - u.lastmsg > 30) (h : level u = 1)
    (hv : v = ⟨12, 0, now⟩) (hflood : flood = false) : Answers now u flood ⟨v, true, [triggered, lastWarning]⟩
  | bans {v : User} (hover : u.offenses > 10 → now - u.lastmsg > 30) (h : level u = 2)
    (hv : v.offenses = 2) (hflood : flood = false) : Answers now u flood ⟨v, true, [tenMinuteBan]⟩

section floodcheck
variable {cfg : Config} {now : Int} {u : User} {flood : Bool}

theorem expire_none (h : expire now u = none) : u.offenses > 10 ∧ now - u.lastmsg ≤ 30 := by
  rw [expire] at h
  split_ifs at h with hhigh hover
  exact ⟨hhigh, by omega⟩

theorem expire_some {v : User} (h : expire now u = some v) :
    v.offenses = level u ∧ (u.offenses > 10 → now - u.lastmsg > 30) := by
  rw [expire] at h
  rw [level]
  split_ifs at h with hhigh hover
  · cases h
    rw [if_pos hhigh]
    exact ⟨rfl, fun _ => hover⟩
  · cases h
    rw [if_neg hhigh]
    exact ⟨rfl, fun hhigh' => absurd hhigh' hhigh⟩

theorem floodcheck_answers (t : Target) (ht : t ≠ .other) (lastIgnoreNotice : Int) :
    Answers now u flood (floodcheck cfg now u t false flood lastIgnoreNotice).1 := by
  rw [floodcheck, if_neg ht, if_neg Bool.false_ne_true, if_neg cfg.on]
  cases hexpire : expire now u with
  | none =>
    obtain ⟨hhigh, hlasts⟩ := expire_none hexpire
    exact .ignoring hhigh hlasts
  | some v =>
    obtain ⟨hlevel, hover⟩ := expire_some hexpire
    have hcount : (count cfg now v).offenses = level u := hlevel
    dsimp only
    split_ifs with hfull hflood
    · exact .passes hover hcount
    · have hnoflood : flood = false := by simpa using hflood
      dsimp only
      rw [punish, hcount]
      split_ifs with hzero hone htwo
      · exact .first hover hzero rfl hnoflood
      · exact .second hover hone rfl hnoflood
      · exact .bans hover htwo (by rw [hcount, htwo]) hnoflood
      · exact .passes hover hcount
    · exact .passes hover hcount

end floodcheck

/-! ### What every run keeps -/

section runs
variable {clock : Int} {u : User} {ts : List Int} {seen : List Seen}

theorem Stage.later (h : Stage clock u ts) {v : User} {clock' : Int} (hclock : clock ≤ clock')
    (hoffenses : v.offenses = u.offenses) (hlastmsg : v.lastmsg = u.lastmsg) : Stage clock' v ts := by
  cases h with
  | clean h => exact .clean (hoffenses.trans h)
  | first h hstart hpast =>
    exact .first (hoffenses.trans h) (hlastmsg.trans hstart) (Int.le_trans hpast hclock)
  | warned h hover => exact .warned (hoffenses.trans h) (Int.lt_of_lt_of_le hover hclock)
  | second h hover hstart hpast =>
    exact .second (hoffenses.trans h) hover (hlastmsg.trans hstart) (Int.le_trans hpast hclock)
  | last h hover hover' => exact .last (hoffenses.trans h) hover (Int.lt_of_lt_of_le hover' hclock)

theorem starts_append (seen more : List Seen) : starts (seen ++ more) = starts seen ++ starts more := by
  rw [starts, List.filter_append, List.map_append]
  rfl

theorem Stage.level_cases (h : Stage clock u ts) {now : Int} (hnow : clock ≤ now)
    (hover : u.offenses > 10 → now - u.lastmsg > 30) :
    (level u = 0 ∧ ts = []) ∨ (level u = 1 ∧ ∃ t, ts = [t] ∧ t + 30 < now) ∨
      (level u = 2 ∧ ∃ t t', ts = [t, t'] ∧ t + 30 < t' ∧ t' + 30 < now) := by
  rw [level]
  cases h with
  | clean h =>
    left
    exact ⟨by rw [h]; rfl, rfl⟩
  | @first t h hstart hpast =>
    right; left
    have hlate := hover (by omega)
    exact ⟨by rw [h]; rfl, t, rfl, by omega⟩
  | @warned t h hend =>
    right; left
    exact ⟨by rw [h]; rfl, t, rfl, by omega⟩
  | @second t t' h hend hstart hpast =>
    right; right
    have hlate := hover (by omega)
    exact ⟨by rw [h]; rfl, t, t', rfl, hend, by omega⟩
  | @last t t' h hend hend' =>
    right; right
    exact ⟨by rw [h]; rfl, t, t', rfl, hend, by omega⟩

theorem Stage.over (h : Stage clock u ts) {now : Int} (hnow : clock ≤ now)
    (hover : u.offenses > 10 → now - u.lastmsg > 30) : ∀ t ∈ ts, t + 30 < now := by
  obtain ⟨-, hts⟩ | ⟨-, t, hts, hend⟩ | ⟨-, t, t', hts, hend, hend'⟩ := h.level_cases hnow hover
  · rw [hts]
    nofun
  · intro s hs
    rw [hts, List.mem_singleton] at hs
    omega
  · intro s hs
    rw [hts, List.mem_cons, List.mem_singleton] at hs
    omega

theorem mem_starts {p : Seen} (hp : p ∈ seen) (hstart : p.startsIgnore = true) : p.now ∈ starts seen :=
  List.mem_map_of_mem (List.mem_filter.mpr ⟨hp, hstart⟩)

theorem starts_two {t t' : Int} (h : starts seen = [t, t']) :
    ∃ first second, [first, second].Sublist seen ∧ first.startsIgnore = true ∧
      second.startsIgnore = true ∧ first.now = t ∧ second.now = t' := by
  rw [starts, List.map_eq_cons_iff] at h
  obtain ⟨first, rest, hfilter, hfirst, hrest⟩ := h
  rw [List.map_eq_singleton_iff] at hrest
  obtain ⟨second, rfl, hsecond⟩ := hrest
  have hsub : [first, second].Sublist seen := hfilter ▸ List.filter_sublist
  have hmem : ∀ o ∈ [first, second], o.startsIgnore = true := by
    intro o ho
    rw [← hfilter] at ho
    exact (List.mem_filter.mp ho).2
  exact ⟨first, second, hsub, hmem first (by simp), hmem second (by simp), hfirst, hsecond⟩

structure Kept (w : Watch) (seen : List Seen) : Prop where
  stage : Stage w.clock w.user (starts seen)
  fair : Always Fair seen

theorem kept_message {w : Watch} (h : Kept w seen) {now last : Int} {flood : Bool} (hnow : w.clock ≤ now)
    {r : Outcome} (hr : Answers now w.user flood r) :
    Kept ⟨r.user, last, now⟩ (seen ++ [⟨now, r.ignored, r.effects, w.user, r.user⟩]) := by
  -- a message that no period covers
  have hlasting : (w.user.offenses > 10 → now - w.user.lastmsg > 30) →
      ∀ p ∈ seen, p.startsIgnore = true → ¬ now ≤ p.now + 30 := by
    intro hover p hp hstart hlate
    have hend := h.stage.over hnow hover _ (mem_starts hp hstart)
    omega
  have hfair : ∀ o, Fair seen o → Always Fair (seen ++ [o]) := by
    intro o ho
    rw [always_append, always_cons, after_apply, List.append_nil]
    exact ⟨h.fair, ho, always_nil⟩
  cases hr with
  | ignoring hhigh hlasts =>
    refine ⟨?_, hfair _ ⟨nofun, fun _ _ _ _ => ⟨rfl, rfl, rfl⟩⟩⟩
    rw [starts_append]
    have hnone : starts [⟨now, true, [], w.user, w.user⟩] = [] := rfl
    rw [hnone, List.append_nil]
    exact h.stage.later hnow rfl rfl
  | @passes v hover hv =>
    refine ⟨?_, hfair _ ⟨nofun, fun p hp hs hl => absurd hl (hlasting hover p hp hs)⟩⟩
    rw [starts_append]
    have hnone : starts [⟨now, false, [], w.user, v⟩] = [] := rfl
    rw [hnone, List.append_nil]
    obtain ⟨hlevel, hts⟩ | ⟨hlevel, t, hts, hend⟩ | ⟨hlevel, t, t', hts, hend, hend'⟩ :=
      h.stage.level_cases hnow hover
    · rw [hts]
      exact .clean (hv.trans hlevel)
    · rw [hts]
      exact .warned (hv.trans hlevel) hend
    · rw [hts]
      exact .last (hv.trans hlevel) hend hend'
  | @first v hover hlevel hv hflood =>
    refine ⟨?_, hfair _ ⟨by simp [triggered, firstOffense],
      fun p hp hs hl => absurd hl (hlasting hover p hp hs)⟩⟩
    have hone : starts [⟨now, true, [triggered, firstOffense], w.user, v⟩] = [now] := by
      simp [starts, Seen.startsIgnore]
    obtain ⟨-, hts⟩ | ⟨hlevel', -⟩ | ⟨hlevel', -⟩ := h.stage.level_cases hnow hover
    · rw [starts_append, hone, hts, hv]
      exact .first rfl rfl (Int.le_refl now)
    · omega
    · omega
  | @second v hover hlevel hv hflood =>
    refine ⟨?_, hfair _ ⟨by simp [triggered, lastWarning],
      fun p hp hs hl => absurd hl (hlasting hover p hp hs)⟩⟩
    have hone : starts [⟨now, true, [triggered, lastWarning], w.user, v⟩] = [now] := by
      simp [starts, Seen.startsIgnore]
    obtain ⟨hlevel', -⟩ | ⟨-, t, hts, hend⟩ | ⟨hlevel', -⟩ := h.stage.level_cases hnow hover
    · omega
    · rw [starts_append, hone, hts, hv]
      exact .second rfl hend rfl (Int.le_refl now)
    · omega
  | @bans v hover hlevel hv hflood =>
    obtain ⟨hlevel', -⟩ | ⟨hlevel', -⟩ | ⟨-, t, t', hts, hend, hend'⟩ := h.stage.level_cases hnow hover
    · omega
    · omega
    · refine ⟨?_, hfair _ ⟨?_, fun p hp hs hl => absurd hl (hlasting hover p hp hs)⟩⟩
      · have hnone : starts [⟨now, true, [tenMinuteBan], w.user, v⟩] = [] := by
          simp [starts, Seen.startsIgnore, tenMinuteBan, firstOffense, lastWarning]
        rw [starts_append, hnone, List.append_nil, hts]
        exact .last hv hend hend'
      · intro _ _ _
        obtain ⟨first, second, hsub, hfirst, hsecond, ht, ht'⟩ := starts_two hts
        exact ⟨first, second, hsub, hfirst, hsecond, by omega, by rw [ht']; exact hend'⟩

theorem here (named : Bool) : (if named then Target.service else Target.server) ≠ .other := by
  cases named <;> decide

theorem turn_keeps {cfg : Config} (w : Watch) (seen : List Seen) (e : Event) (h : Kept w seen) :
    Kept (turn cfg w e).1 (seen ++ (turn cfg w e).2) := by
  cases e with
  | addFlood elapsed amount =>
    rw [turn, List.append_nil]
    exact ⟨h.stage.later (by dsimp only; omega) rfl rfl, h.fair⟩
  | message elapsed named flood =>
    exact kept_message h (by omega) (floodcheck_answers _ (here named) _)

theorem Answers.spared {now : Int} {r : Outcome} (h : Answers now u true r) (hclean : u.offenses = 0) :
    r.user.offenses = 0 ∧ r.ignored = false ∧ r.effects = [] := by
  cases h with
  | ignoring hhigh hlasts => omega
  | passes hover hv =>
    have hlevel : level u = 0 := by
      rw [level, hclean]
      rfl
    exact ⟨hv.trans hlevel, rfl, rfl⟩
  | first hover hlevel hv hflood => cases hflood
  | second hover hlevel hv hflood => cases hflood
  | bans hover hlevel hv hflood => cases hflood

def Privileged : Event → Prop
  | .message _ _ flood => flood = true
  | .addFlood _ _ => True

theorem turn_spares {cfg : Config} (w : Watch) (e : Event) (hclean : w.user.offenses = 0)
    (he : Privileged e) : (turn cfg w e).1.user.offenses = 0 ∧
      ∀ o ∈ (turn cfg w e).2, o.ignored = false ∧ o.effects = [] := by
  cases e with
  | addFlood elapsed amount => exact ⟨hclean, nofun⟩
  | message elapsed named flood =>
    have hflood : flood = true := he
    rw [hflood]
    obtain ⟨hoffenses, hignored, heffects⟩ :=
      (floodcheck_answers _ (here named) w.lastIgnoreNotice).spared hclean
    refine ⟨hoffenses, ?_⟩
    intro o ho
    rw [List.mem_singleton.mp ho]
    exact ⟨hignored, heffects⟩

theorem guarded_of_forall {cfg : Config} {es : List Event} (h : ∀ e ∈ es, Privileged e) (w : Watch) :
    Guarded (turn cfg) (fun _ => Privileged) w es := by
  induction es generalizing w with
  | nil => trivial
  | cons e es ih =>
    exact ⟨h e List.mem_cons_self, ih (fun f hf => h f (List.mem_cons_of_mem e hf)) _⟩

end runs

/-- In every run of messages of a new user: a K-line comes only after two ignore periods that lasted
more than 30 seconds each; while one lasts messages are ignored and nothing changes; and who holds
PRIV_FLOOD all the time is answered every time. -/
theorem floodcheck_fair (cfg : Config) (clock lastIgnoreNotice : Int) (es : List Event) :
    Always Fair (run (turn cfg) (.start clock lastIgnoreNotice) es).2 ∧
      ((∀ e ∈ es, Privileged e) →
        ∀ o ∈ (run (turn cfg) (.start clock lastIgnoreNotice) es).2, o.ignored = false ∧ o.effects = []) := by
  constructor
  · have hstart : Kept (.start clock lastIgnoreNotice) [] := ⟨.clean rfl, always_nil⟩
    have hrun : Kept (run (turn cfg) (.start clock lastIgnoreNotice) es).1
        ([] ++ (run (turn cfg) (.start clock lastIgnoreNotice) es).2) :=
      run_invariant turn_keeps hstart es
    exact hrun.fair
  · intro hall
    have hspares : ∀ w e, w.user.offenses = 0 → Privileged e → (turn cfg w e).1.user.offenses = 0 ∧
        ∀ o ∈ (turn cfg w e).2, o.ignored = false ∧ o.effects = [] := turn_spares
    exact run_guarded_emits hspares rfl (guarded_of_forall hall _)

def oneInTen : Config := ⟨1, 10, by decide, by decide⟩

def sends (elapsed : Nat) : Event := .message elapsed true false

theorem floodcheck_fair_ban :
    (run (turn oneInTen) (.start 1000 0) [sends 1, sends 0, sends 31, sends 0, sends 31, sends 0]).2.map
        Seen.effects =
      [[], [triggered, firstOffense], [], [triggered, lastWarning], [], [tenMinuteBan]] ∧
    Always Fair
      (run (turn oneInTen) (.start 1000 0) [sends 1, sends 0, sends 31, sends 0, sends 31, sends 0]).2 ∧
    ∀ o ∈ (run (turn oneInTen) (.start 1000 0) [.message 1 true true, .message 0 true true]).2,
      o.ignored = false ∧ o.effects = [] :=
  ⟨by decide +kernel, (floodcheck_fair oneInTen 1000 0 _).1,
    (floodcheck_fair oneInTen 1000 0 [.message 1 true true, .message 0 true true]).2
      (by simp [Privileged])⟩

end ChatServices.FloodCheck
