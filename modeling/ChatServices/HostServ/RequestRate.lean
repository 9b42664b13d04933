import ChatServices.HostServ.Requests

/-! The limit on REQUEST over time: `ratelimit_count` only ever grows. -/
namespace ChatServices.HostServ
open ChatServices.Text ChatServices.Match ChatServices.Lib ChatServices.Lib.Run ChatServices.Lib.Trace

inductive Reply where
  | already
  | tooBusy
  | filed
  deriving DecidableEq

section replies
variable (cfg : Config) (s : State) (si : Source)

def throttled : Bool := decide (s.ratelimitCount > cfg.ratelimitUses) && !si.flood

def fileReply (target host : CString) : Reply :=
  match s.reqlist.find? (fun l => irccaseEq cfg.casemapping l.nick target) with
  | some l => if host = l.vhost then .already else if throttled cfg s si then .tooBusy else .filed
  | none => if throttled cfg s si then .tooBusy else .filed

def requestReply (host : Option CString) (now : Int) (approved : Bool) : Option Reply :=
  (reachesList cfg s si host now approved).map fun p => fileReply cfg s si p.1 p.2

/-- The request comes to the list, and not with the host that waits there already. -/
def reachesCounter (host : Option CString) (now : Int) (approved : Bool) : Bool :=
  (reachesList cfg s si host now approved).any fun p =>
    (s.reqlist.find? fun l => irccaseEq cfg.casemapping l.nick p.1).all fun l => p.2 ≠ l.vhost

variable {cfg s si} {target : CString} {now : Int}

variable (cfg s si target now) in
theorem fileReply_cases (host : CString) :
    (fileReply cfg s si target host = .already ∧ fileRequest cfg s si target host now = s) ∨
      (fileReply cfg s si target host = .tooBusy ∧ throttled cfg s si = true ∧
        fileRequest cfg s si target host now = s) ∨
      (fileReply cfg s si target host = .filed ∧ throttled cfg s si = false ∧
        (fileRequest cfg s si target host now).ratelimitCount = (countRequest cfg s).ratelimitCount) := by
  rw [fileReply, fileRequest, throttled]
  cases hbusy : decide (s.ratelimitCount > cfg.ratelimitUses) && !si.flood with
  | true =>
    cases s.reqlist.find? (fun l => irccaseEq cfg.casemapping l.nick target) with
    | none => exact .inr (.inl ⟨rfl, rfl, rfl⟩)
    | some l =>
      dsimp only
      by_cases hsame : host = l.vhost
      · rw [if_pos hsame, if_pos hsame]
        exact .inl ⟨rfl, rfl⟩
      · rw [if_neg hsame, if_neg hsame]
        exact .inr (.inl ⟨rfl, rfl, rfl⟩)
  | false =>
    cases s.reqlist.find? (fun l => irccaseEq cfg.casemapping l.nick target) with
    | none => exact .inr (.inr ⟨rfl, rfl, rfl⟩)
    | some l =>
      dsimp only
      by_cases hsame : host = l.vhost
      · rw [if_pos hsame, if_pos hsame]
        exact .inl ⟨rfl, rfl⟩
      · rw [if_neg hsame, if_neg hsame]
        exact .inr (.inr ⟨rfl, rfl, rfl⟩)

theorem fileRequest_unfiled {host : CString} (h : fileReply cfg s si target host ≠ .filed) :
    fileRequest cfg s si target host now = s := by
  obtain ⟨-, hsame⟩ | ⟨-, -, hsame⟩ | ⟨hfiled, -⟩ := fileReply_cases cfg s si target now host
  · exact hsame
  · exact hsame
  · exact absurd hfiled h

variable (now) in
theorem fileRequest_filed {host : CString} (h : fileReply cfg s si target host = .filed) :
    throttled cfg s si = false ∧
      (fileRequest cfg s si target host now).ratelimitCount = (countRequest cfg s).ratelimitCount := by
  obtain ⟨hreply, -⟩ | ⟨hreply, -⟩ | ⟨-, hfiled⟩ := fileReply_cases cfg s si target now host
  · rw [h] at hreply
    cases hreply
  · rw [h] at hreply
    cases hreply
  · exact hfiled

theorem tooBusy_throttled {host : CString} (h : fileReply cfg s si target host = .tooBusy) :
    throttled cfg s si = true := by
  obtain ⟨hreply, -⟩ | ⟨-, hbusy, -⟩ | ⟨hreply, -⟩ := fileReply_cases cfg s si target 0 host
  · rw [h] at hreply
    cases hreply
  · exact hbusy
  · rw [h] at hreply
    cases hreply

theorem tooBusy_reachesCounter {host : Option CString} {approved : Bool}
    (h : requestReply cfg s si host now approved = some .tooBusy) :
    reachesCounter cfg s si host now approved = true := by
  rw [requestReply, Option.map_eq_some_iff] at h
  obtain ⟨p, hreach, hreply⟩ := h
  rw [reachesCounter, hreach, Option.any_some]
  rw [fileReply] at hreply
  cases hfind : s.reqlist.find? (fun l => irccaseEq cfg.casemapping l.nick p.1) with
  | none => rfl
  | some l =>
    rw [hfind] at hreply
    dsimp only at hreply
    rw [Option.all_some, decide_eq_true_eq]
    intro hsame
    rw [if_pos hsame] at hreply
    cases hreply

theorem requestReply_tooBusy {host : Option CString} {approved : Bool}
    (h : requestReply cfg s si host now approved = some .tooBusy) : throttled cfg s si = true := by
  rw [requestReply, Option.map_eq_some_iff] at h
  obtain ⟨p, -, hp⟩ := h
  exact tooBusy_throttled hp

theorem hsCmdRequest_unfiled {host : Option CString} {approved : Bool}
    (h : requestReply cfg s si host now approved ≠ some .filed) :
    hsCmdRequest cfg s si host now approved = s := by
  rw [hsCmdRequest_eq]
  cases hreach : reachesList cfg s si host now approved with
  | none => rfl
  | some p =>
    apply fileRequest_unfiled
    intro hfiled
    apply h
    rw [requestReply, hreach, Option.map_some, hfiled]

theorem hsCmdRequest_filed {host : Option CString} {approved : Bool}
    (h : requestReply cfg s si host now approved = some .filed) :
    (hsCmdRequest cfg s si host now approved).ratelimitCount =
      (countRequest cfg s).ratelimitCount := by
  rw [requestReply, Option.map_eq_some_iff] at h
  obtain ⟨p, hreach, hp⟩ := h
  rw [hsCmdRequest_eq, hreach]
  exact (fileRequest_filed now hp).2

end replies

/-! ### Runs -/

structure Watch where
  state : State
  clock : Int
  accepted : List Int

inductive Turn where
  | request (elapsed : Nat) (si : Source) (host : Option CString) (approved : Bool)
  | other (elapsed : Nat) (s : State)

inductive Seen where
  | accepted (now : Int)
  | tooBusy (now : Int)
  deriving DecidableEq

/-- `ratelimit_count` is an `unsigned int`. -/
def wrapCount (s : State) : State := { s with ratelimitCount := s.ratelimitCount % 2 ^ 32 }

def turn (cfg : Config) (w : Watch) : Turn → Watch × List Seen
  | .request elapsed si host approved =>
    let now := w.clock + elapsed
    let s := wrapCount (hsCmdRequest cfg w.state si host now approved)
    match requestReply cfg w.state si host now approved with
    | some .filed => (⟨s, now, now :: w.accepted⟩, [.accepted now])
    | some .tooBusy => (⟨s, now, w.accepted⟩, [.tooBusy now])
    | _ => (⟨s, now, w.accepted⟩, [])
  | .other elapsed s =>
    (⟨{ s with ratelimitCount := w.state.ratelimitCount }, w.clock + elapsed, w.accepted⟩, [])

def Watch.start (s : State) (clock : Int) : Watch := ⟨{ s with ratelimitCount := 0 }, clock, []⟩

def acceptedAt : Seen → Option Int
  | .accepted now => some now
  | .tooBusy _ => none

def within (cfg : Config) (now : Int) (accepted : List Int) : Nat :=
  accepted.countP fun t => now - t ≤ cfg.ratelimitPeriod

def Forgets (cfg : Config) (before : List Seen) : Seen → Prop
  | .accepted _ => True
  | .tooBusy now => cfg.ratelimitUses < within cfg now (before.filterMap acceptedAt)

/-- For a request that reaches the counter: the source has the flood privilege, or the accepted
request that is one more than the permitted ones back, if there is one, lies in the period that
ends now. -/
def NotStale (cfg : Config) (w : Watch) : Turn → Prop
  | .request elapsed si host approved =>
    reachesCounter cfg w.state si host (w.clock + elapsed) approved = true → si.flood = true ∨
      ∀ t ∈ w.accepted[cfg.ratelimitUses]?, w.clock + elapsed - t ≤ cfg.ratelimitPeriod
  | .other _ _ => True

instance (cfg : Config) (w : Watch) : ∀ e, Decidable (NotStale cfg w e)
  | .request _ _ _ _ => inferInstanceAs (Decidable (_ = true → _ ∨ _))
  | .other _ _ => inferInstanceAs (Decidable True)

structure Kept (w : Watch) (seen : List Seen) : Prop where
  times : seen.filterMap acceptedAt = w.accepted.reverse
  sorted : w.accepted.Pairwise (· ≥ ·)
  past : ∀ t ∈ w.accepted, t ≤ w.clock
  counted : w.state.ratelimitCount ≤ w.accepted.length

theorem lt_within {cfg : Config} {now t : Int} {ts : List Int} {n : Nat}
    (hsorted : ts.Pairwise (· ≥ ·)) (ht : ts[n]? = some t) (hrecent : now - t ≤ cfg.ratelimitPeriod) :
    n < within cfg now ts := by
  induction ts generalizing n with
  | nil => simp at ht
  | cons x ts ih =>
    rw [List.pairwise_cons] at hsorted
    have hx : now - x ≤ cfg.ratelimitPeriod := by
      cases n with
      | zero =>
        rw [List.getElem?_cons_zero, Option.some_inj] at ht
        omega
      | succ n =>
        rw [List.getElem?_cons_succ] at ht
        have hge := hsorted.1 t (List.mem_of_getElem? ht)
        omega
    have hone : within cfg now (x :: ts) = within cfg now ts + 1 :=
      List.countP_cons_of_pos (decide_eq_true hx)
    rw [hone]
    cases n with
    | zero => omega
    | succ n =>
      have hless := ih hsorted.2 (by rwa [List.getElem?_cons_succ] at ht)
      omega

theorem within_reverse (cfg : Config) (now : Int) (ts : List Int) :
    within cfg now ts.reverse = within cfg now ts := List.countP_reverse

section turns
variable {cfg : Config} {w : Watch} {seen : List Seen}

theorem Kept.idle (h : Kept w seen) {s : State} {elapsed : Nat} {more : List Seen}
    (hcount : s.ratelimitCount ≤ w.accepted.length) (hmore : more.filterMap acceptedAt = []) :
    Kept ⟨s, w.clock + elapsed, w.accepted⟩ (seen ++ more) := by
  refine ⟨?_, h.sorted, ?_, hcount⟩
  · rw [List.filterMap_append, h.times, hmore, List.append_nil]
  · intro t ht
    have hpast := h.past t ht
    dsimp only
    omega

theorem Kept.file (h : Kept w seen) {s : State} {elapsed : Nat}
    (hcount : s.ratelimitCount ≤ w.accepted.length + 1) :
    Kept ⟨s, w.clock + elapsed, (w.clock + elapsed) :: w.accepted⟩
      (seen ++ [.accepted (w.clock + elapsed)]) := by
  have hpast : ∀ t ∈ w.accepted, t ≤ w.clock + elapsed := by
    intro t ht
    have hold := h.past t ht
    omega
  refine ⟨?_, ?_, ?_, hcount⟩
  · rw [List.filterMap_append, h.times, List.reverse_cons]
    rfl
  · exact List.pairwise_cons.mpr ⟨hpast, h.sorted⟩
  · intro t ht
    rw [List.mem_cons] at ht
    obtain rfl | ht := ht
    · exact Int.le_refl _
    · exact hpast t ht

theorem wrapCount_le (s : State) : (wrapCount s).ratelimitCount ≤ s.ratelimitCount :=
  Nat.mod_le _ _

theorem countRequest_le (s : State) :
    (countRequest cfg s).ratelimitCount ≤ s.ratelimitCount + 1 := by
  rw [countRequest]
  dsimp only
  split_ifs <;> omega

theorem Kept.full (h : Kept w seen) {si : Source} {now : Int}
    (hbusy : throttled cfg w.state si = true)
    (hrecent : si.flood = true ∨
      ∀ t ∈ w.accepted[cfg.ratelimitUses]?, now - t ≤ cfg.ratelimitPeriod) :
    cfg.ratelimitUses < within cfg now w.accepted := by
  rw [throttled, Bool.and_eq_true, decide_eq_true_eq, Bool.not_eq_true'] at hbusy
  obtain ⟨hover, hflood⟩ := hbusy
  have hlen : cfg.ratelimitUses < w.accepted.length := by
    have hcounted := h.counted
    omega
  have hlast := List.getElem?_eq_getElem hlen
  obtain hprivileged | hrecent := hrecent
  · rw [hflood] at hprivileged
    cases hprivileged
  · exact lt_within h.sorted hlast (hrecent _ hlast)

theorem turn_keeps (h : Kept w seen) (e : Turn) (hstale : NotStale cfg w e) :
    Kept (turn cfg w e).1 (seen ++ (turn cfg w e).2) ∧
      Always (after seen (Forgets cfg)) (turn cfg w e).2 := by
  cases e with
  | other elapsed s => exact ⟨h.idle h.counted rfl, always_nil⟩
  | request elapsed si host approved =>
    have hcounted := h.counted
    have hkept := (wrapCount_le w.state).trans hcounted
    have hunfiled : requestReply cfg w.state si host (w.clock + elapsed) approved ≠ some .filed →
        hsCmdRequest cfg w.state si host (w.clock + elapsed) approved = w.state :=
      hsCmdRequest_unfiled
    rw [turn]
    cases hreply : requestReply cfg w.state si host (w.clock + elapsed) approved with
    | none =>
      rw [hreply] at hunfiled
      rw [hunfiled nofun]
      exact ⟨h.idle hkept rfl, always_nil⟩
    | some r =>
      rw [hreply] at hunfiled
      cases r with
      | already =>
        rw [hunfiled nofun]
        exact ⟨h.idle hkept rfl, always_nil⟩
      | tooBusy =>
        rw [hunfiled nofun]
        refine ⟨h.idle hkept rfl, ?_⟩
        have hfull := h.full (requestReply_tooBusy hreply) (hstale (tooBusy_reachesCounter hreply))
        rw [always_cons, after_apply, List.append_nil]
        refine ⟨?_, always_nil⟩
        rw [Forgets, h.times, within_reverse]
        exact hfull
      | filed =>
        have hcount : (wrapCount (hsCmdRequest cfg w.state si host (w.clock + elapsed)
            approved)).ratelimitCount ≤ w.accepted.length + 1 := by
          have hone : (countRequest cfg w.state).ratelimitCount ≤ w.state.ratelimitCount + 1 :=
            countRequest_le w.state
          apply (wrapCount_le _).trans
          rw [hsCmdRequest_filed hreply]
          omega
        refine ⟨h.file hcount, ?_⟩
        rw [always_cons]
        exact ⟨trivial, always_nil⟩

end turns

/-- In runs whose requests all meet the condition, who is refused as too busy finds more than the
permitted requests accepted in the period that ends now. -/
theorem request_limit_forgets (cfg : Config) (s : State) (clock : Int) (es : List Turn)
    (h : Guarded (turn cfg) (NotStale cfg) (.start s clock) es) :
    Always (Forgets cfg) (run (turn cfg) (.start s clock) es).2 := by
  have hstart : Kept (.start s clock) [] := ⟨rfl, List.Pairwise.nil, nofun, le_refl 0⟩
  have hstep : ∀ w seen e, Kept w seen → NotStale cfg w e →
      Kept (turn cfg w e).1 (seen ++ (turn cfg w e).2) ∧
        Always (after seen (Forgets cfg)) (turn cfg w e).2 := fun _ _ e hw hG => turn_keeps hw e hG
  have hrun := run_guarded_always hstep hstart h
  rw [after_nil] at hrun
  exact hrun.2

/-! ### One use in a minute -/

def oneAccount : State where
  accounts := ⟨[(1, ⟨"anna".toList, 0, false, none, [], none⟩)], by decide⟩
  nicks := []
  reqlist := []
  ratelimitCount := 0

def onceAMinute : Config where
  casemapping := .rfc1459
  noNickOwnership := true
  requestPerNick := false
  requestTime := 60
  limitFirstReq := false
  ratelimitUses := 1
  ratelimitPeriod := 60
  isValidHost := fun _ => true
  findNamed := fun _ => none
  findUid := fun _ => none

def askFor (elapsed : Nat) (host : String) : Turn :=
  .request elapsed ⟨1, none, "anna".toList, false, false⟩ (some host.toList) false

theorem request_limit_forgets_minute :
    (run (turn onceAMinute) (.start oneAccount 0)
      [askFor 5 "a.example", askFor 5 "b.example", askFor 5 "c.example"]).2 =
        [.accepted 5, .accepted 10, .tooBusy 15] ∧
    Always (Forgets onceAMinute) (run (turn onceAMinute) (.start oneAccount 0)
      [askFor 5 "a.example", askFor 5 "b.example", askFor 5 "c.example"]).2 :=
  ⟨by decide +kernel, request_limit_forgets _ _ _ _ (by decide +kernel)⟩

/-- Two requests are accepted within a minute; a day later the next one is refused, and nothing was
accepted in the minute before it. -/
theorem day_old_requests_refuse : ¬ Always (Forgets onceAMinute)
    (run (turn onceAMinute) (.start oneAccount 0)
      [askFor 5 "a.example", askFor 5 "b.example", askFor 86400 "c.example"]).2 := by
  have hrun : (run (turn onceAMinute) (.start oneAccount 0)
      [askFor 5 "a.example", askFor 5 "b.example", askFor 86400 "c.example"]).2 =
        [.accepted 5, .accepted 10] ++ .tooBusy 86410 :: [] := by decide +kernel
  intro h
  rw [hrun] at h
  have hlast : 1 < within onceAMinute 86410 [5, 10] := h [.accepted 5, .accepted 10] _ [] rfl
  exact absurd hlast (by decide)

end ChatServices.HostServ
