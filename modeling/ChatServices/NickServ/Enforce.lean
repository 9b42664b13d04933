import ChatServices.Accounts
import ChatServices.Cidr
import ChatServices.Lib.Alarm
import ChatServices.Lib.Run

/-! Nick protection, `modules/nickserv/enforce.c`: the users of a protected nick who have to
identify in time, in the order of their deadlines, and the timer for the first of them. -/
namespace ChatServices.NickServ
open ChatServices.Lib ChatServices.Lib.Mask ChatServices.Text
open ChatServices.Cidr (atoi)

def muHold : Flags := 0x1#32
def nickLen : Nat := 32

structure EnforceTimeout where
  nick : CString
  host : CString
  timelimit : Nat
  deriving DecidableEq

/-- `enforce_list`, `enforce_next` and `enforce_timeout_check_timer`, with the timers of the
event loop. -/
abbrev EnforceState := Alarm EnforceTimeout

structure NetUser extends User where
  internal : Bool
  deriving DecidableEq

def enforcetimeKey : CString := "private:enforcetime".toList
def doenforceKey : CString := "private:doenforce".toList

/-- What the code finds when something happens to the timeouts. A grace period is one that
`SET ENFORCETIME` has accepted. -/
structure EnforceWorld where
  cfg : Config
  db : Accounts
  users : List NetUser
  lastseen : CString → Nat
  enforceDelay : Nat
  enforceExpiry : Nat
  isValidNick : CString → Bool
  verifyPassword : MyUser → CString → Bool
  /-- `qline_find_match (target) && !has_priv (si, PRIV_MASS_AKILL)` -/
  reserved : CString → Bool
  currtime : Nat
  clock : 0 < currtime
  graces : ∀ ref mu value, db.get ref = some mu → mu.metadataFind enforcetimeKey = some value →
    0 < atoi value

structure NickSource where
  su : Option NetUser
  smu : Option MyUserRef

variable (w : EnforceWorld)

def userFindNamed (nick : CString) : Option NetUser :=
  w.users.find? (fun u => irccaseEq w.cfg.casemapping u.nick nick)

/-! ### New timeouts -/

def unused (mu : MyUser) (mn : MyNick) : Bool :=
  w.enforceExpiry > 0 && !test mu.flags muHold &&
    decide (((w.currtime : Int) - w.lastseen mn.nick) % 2 ^ 32 > w.enforceExpiry)

def timelimit (mu : MyUser) : Nat :=
  match mu.metadataFind enforcetimeKey with
  | none => w.currtime + w.enforceDelay
  | some value => (w.currtime + atoi value).toNat

/-- The timeout of `check_enforce`, unless the nick is not protected from the user. -/
def newTimeout (u : NetUser) (mn : MyNick) : Option EnforceTimeout :=
  match w.db.get mn.owner with
  | none => none
  | some mu =>
    if u.internal then none
    else if (mu.metadataFind doenforceKey).isNone then none
    else if unused w mu mn then none
    else some ⟨truncate nickLen mn.nick, truncate hostLen u.host, timelimit w mu⟩

def checkEnforce (u : NetUser) (mn : MyNick) (s : EnforceState) : EnforceState :=
  match newTimeout w u mn with
  | none => s
  | some timeout => s.enqueue EnforceTimeout.timelimit timeout

/-! ### RELEASE and REGAIN -/

/-- `verify_password`, which a NULL password never passes. -/
def passwordOk (mu : MyUser) (password : Option CString) : Bool :=
  password.any (w.verifyPassword mu)

def sameUser (u v : Option NetUser) : Bool := u.map (·.uid) = v.map (·.uid)

def authorized (si : NickSource) (mn : MyNick) (mu : MyUser) (password : Option CString) : Bool :=
  !(passwordOk w mu password && mu.frozen) && !(password.isSome && test mu.flags muNopassword) &&
    (decide (si.smu = some mn.owner) || passwordOk w mu password)

def enforceTarget (si : NickSource) (target : Option CString) : Option CString :=
  target.or ((si.smu.bind w.db.get).map MyUser.name)

def releaseNick (si : NickSource) (target password : Option CString) : Option MyNick :=
  if w.cfg.noNickOwnership then none
  else
    match enforceTarget w si target with
    | none => none
    | some target =>
      match mynickFind w.cfg w.db target with
      | none => none
      | some mn =>
        match w.db.get mn.owner with
        | none => none
        | some mu =>
          let u := userFindNamed w target
          if u.isSome && sameUser u si.su then none
          else if !authorized w si mn mu password || !w.isValidNick target then none
          else some mn

def regainNick (si : NickSource) (target password : Option CString) : Option MyNick :=
  if w.cfg.noNickOwnership then none
  else
    match enforceTarget w si target with
    | none => none
    | some target =>
      match mynickFind w.cfg w.db target with
      | none => none
      | some mn =>
        match w.db.get mn.owner with
        | none => none
        | some mu =>
          if sameUser (userFindNamed w target) si.su then none
          else if !authorized w si mn mu password || w.reserved target then none
          else some mn

def waitsFor (mn : MyNick) (su : NetUser) (timeout : EnforceTimeout) : Bool :=
  irccaseEq w.cfg.casemapping mn.nick timeout.nick &&
    (su.host == timeout.host || su.vhost == timeout.host)

/-- The loop of `ns_cmd_release` and `ns_cmd_regain` over `enforce_list`. -/
def takeOff (mn : Option MyNick) (su : Option NetUser) (s : EnforceState) : EnforceState :=
  match mn, su with
  | some mn, some su => s.discard (waitsFor w mn su)
  | _, _ => s

def nsCmdRelease (si : NickSource) (target password : Option CString) (s : EnforceState) :
    EnforceState :=
  takeOff w (releaseNick w si target password) si.su s

def nsCmdRegain (si : NickSource) (target password : Option CString) (s : EnforceState) :
    EnforceState :=
  takeOff w (regainNick w si target password) si.su s

/-! ### The timer -/

def victim (timeout : EnforceTimeout) : Option NetUser :=
  match userFindNamed w timeout.nick, mynickFind w.cfg w.db timeout.nick with
  | some u, some mn =>
    match w.db.get mn.owner with
    | none => none
    | some mu =>
      if !(u.host == timeout.host || u.vhost == timeout.host) then none
      else if u.internal then none
      else if u.toUser.myuser w.db = some mn.owner then none
      else if myuserAccessVerify w.cfg u.toUser mu then none
      else if (mu.metadataFind doenforceKey).isNone then none
      else some u
  | _, _ => none

structure Processed where
  timeout : EnforceTimeout
  victim : Option NetUser
  deriving DecidableEq

/-- `enforce_timeout_check`, called by the loop for this timer. -/
def enforceTimeoutCheck (timer : Nat) (s : EnforceState) : EnforceState × List Processed :=
  let r := s.fire EnforceTimeout.timelimit timer w.currtime
  (r.2, r.1.map fun timeout => ⟨timeout, victim w timeout⟩)

inductive EnforceEvent where
  | check (w : EnforceWorld) (u : NetUser) (mn : MyNick)
  | release (w : EnforceWorld) (si : NickSource) (target password : Option CString)
  | regain (w : EnforceWorld) (si : NickSource) (target password : Option CString)
  | timeout (w : EnforceWorld) (timer : Nat)

def enforceStep (s : EnforceState) : EnforceEvent → EnforceState × List Processed
  | .check w u mn => (checkEnforce w u mn s, [])
  | .release w si target password => (nsCmdRelease w si target password s, [])
  | .regain w si target password => (nsCmdRegain w si target password s, [])
  | .timeout w timer => enforceTimeoutCheck w timer s

/-! ### Every run -/

section runs
variable {w : EnforceWorld} {s : EnforceState}

theorem timelimit_ne_zero {ref : MyUserRef} {mu : MyUser} (hmu : w.db.get ref = some mu) :
    timelimit w mu ≠ 0 := by
  have hclock := w.clock
  rw [timelimit]
  split
  · omega
  · next value hvalue =>
    have hgrace := w.graces ref mu value hmu hvalue
    omega

theorem newTimeout_due {u : NetUser} {mn : MyNick} {timeout : EnforceTimeout}
    (h : newTimeout w u mn = some timeout) : timeout.timelimit ≠ 0 := by
  rw [newTimeout] at h
  split at h
  · cases h
  · next mu hmu =>
    split_ifs at h
    cases h
    exact timelimit_ne_zero hmu

abbrev EnforceOk (s : EnforceState) : Prop := s.Served EnforceTimeout.timelimit

theorem EnforceOk.check (h : EnforceOk s) (u : NetUser) (mn : MyNick) :
    EnforceOk (checkEnforce w u mn s) := by
  rw [checkEnforce]
  cases hnew : newTimeout w u mn with
  | none => exact h
  | some timeout => exact h.enqueue (newTimeout_due hnew)

theorem EnforceOk.takeOff (h : EnforceOk s) (mn : Option MyNick) (su : Option NetUser) :
    EnforceOk (takeOff w mn su s) := by
  cases mn with
  | none => exact h
  | some mn => cases su with
    | none => exact h
    | some su => exact h.discard _

theorem EnforceOk.step (h : EnforceOk s) (e : EnforceEvent) : EnforceOk (enforceStep s e).1 := by
  cases e with
  | check w u mn => exact h.check u mn
  | release w si target password => exact h.takeOff _ _
  | regain w si target password => exact h.takeOff _ _
  | timeout w timer => exact h.fire timer

theorem enforceOk_run (es : List EnforceEvent) : EnforceOk (Run.run enforceStep .initial es).1 := by
  induction es using List.reverseRecOn with
  | nil => exact Alarm.served_initial
  | append_singleton es e ih =>
    rw [Run.run_append]
    exact ih.step e

end runs

/-- After every run the timeouts are in order, the one timer that is pending is set for the first
of them or before, and a timer that goes off deals with exactly those that are due. -/
theorem deadlines_kept (es : List EnforceEvent) :
    let s := (Run.run enforceStep .initial es).1
    s.queue.Pairwise (fun a b => a.timelimit ≤ b.timelimit) ∧
      (∀ first ∈ s.queue.head?, s.next ≠ 0 ∧ s.next ≤ first.timelimit ∧
        s.timers.pending = [(s.timer, s.next)]) ∧
      ∀ (w : EnforceWorld) (timer : Nat), timer ∈ s.timers.pending.map Prod.fst →
        (enforceTimeoutCheck w timer s).2.map Processed.timeout =
            s.queue.filter (fun timeout => decide (timeout.timelimit ≤ w.currtime)) ∧
          (enforceTimeoutCheck w timer s).1.queue =
            s.queue.filter (fun timeout => decide (w.currtime < timeout.timelimit)) := by
  intro s
  have hok : EnforceOk s := enforceOk_run es
  refine ⟨hok.armed.sorted, fun first hfirst => ?_, fun w timer htimer => ?_⟩
  · obtain ⟨hnext, hle⟩ := hok.armed.head first hfirst
    exact ⟨hnext, hle, hok.timer.pending hnext⟩
  · obtain ⟨hgiven, hkept⟩ := hok.fire_split w.currtime htimer
    refine ⟨?_, hkept⟩
    rw [← hgiven, enforceTimeoutCheck, List.map_map]
    exact List.map_id _

/- Of two protected nicks the second one, which has a grace period of its own, is due first. -/
def protectedNicks : Accounts where
  users := ⟨[(0, ⟨"anna".toList, "AAAAAAAAA".toList, 0#32, [], 0, none, [],
      [(doenforceKey, ['1'])]⟩),
    (1, ⟨"bert".toList, "AAAAAAAAB".toList, 0#32, [], 0, none, [],
      [(doenforceKey, ['1']), (enforcetimeKey, ['5'])]⟩)], by decide⟩
  nicks := [⟨"anna".toList, 0⟩, ⟨"bert".toList, 1⟩]

def protectedAt (currtime : Nat) (clock : 0 < currtime) : EnforceWorld where
  cfg := ⟨.rfc1459, false, true, 5, fun mask name => mask = name, fun _ _ => false⟩
  db := protectedNicks
  users := []
  lastseen _ := 0
  enforceDelay := 30
  enforceExpiry := 0
  isValidNick _ := true
  verifyPassword _ _ := false
  reserved _ := false
  currtime := currtime
  clock := clock
  graces := by
    intro ref mu value hmu hvalue
    have hmem := (Registry.find_eq_some_iff _ _ _).mp hmu
    simp only [protectedNicks, List.mem_cons, Prod.mk.injEq, List.not_mem_nil, or_false] at hmem
    obtain ⟨-, rfl⟩ | ⟨-, rfl⟩ := hmem
    · cases (show none = some value from hvalue)
    · obtain rfl : ['5'] = value := Option.some.inj hvalue
      decide

def stranger (nick uid : String) : NetUser :=
  ⟨⟨uid.toList, nick.toList, "user".toList, "host.example".toList, "host.example".toList,
    "host.example".toList, "192.0.2.1".toList⟩, false⟩

theorem deadlines_kept_two :
    let s := (Run.run enforceStep .initial
      [.check (protectedAt 1000 (by decide)) (stranger "anna" "1AAAAAAAA") ⟨"anna".toList, 0⟩,
        .check (protectedAt 1000 (by decide)) (stranger "bert" "1AAAAAAAB") ⟨"bert".toList, 1⟩]).1
    (enforceTimeoutCheck (protectedAt 1010 (by decide)) s.timer s).2.map Processed.timeout =
        [⟨"bert".toList, "host.example".toList, 1005⟩] ∧
      (enforceTimeoutCheck (protectedAt 1010 (by decide)) s.timer s).1.queue =
        [⟨"anna".toList, "host.example".toList, 1030⟩] := by
  intro s
  obtain ⟨hdue, hkept⟩ := (deadlines_kept
    [.check (protectedAt 1000 (by decide)) (stranger "anna" "1AAAAAAAA") ⟨"anna".toList, 0⟩,
      .check (protectedAt 1000 (by decide)) (stranger "bert" "1AAAAAAAB") ⟨"bert".toList, 1⟩]).2.2
    (protectedAt 1010 (by decide)) s.timer (by decide +kernel)
  exact ⟨hdue.trans (by decide +kernel), hkept.trans (by decide +kernel)⟩

end ChatServices.NickServ
