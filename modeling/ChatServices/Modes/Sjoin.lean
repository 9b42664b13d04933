import ChatServices.Modes.Tables
import ChatServices.Lib.Stamped

/-! SJOIN of `modules/protocol/ts6-generic.c`, without its hooks: a server burst or a join with the
timestamp that the sender has for the channel. -/
namespace ChatServices.Modes
open ChatServices.Lib.Mask ChatServices.Text ChatServices.ChanServ ChatServices.ChanServ.Channels

/-- What `m_sjoin` goes by: the protocol module, the users, and the configuration of ChanServ. -/
structure Ts6 where
  ircd : Ircd
  view : View
  /-- `chansvs.use_owner` -/
  useOwner : Bool
  /-- `chansvs.use_admin` -/
  useAdmin : Bool

/-- The parameters of the line; `ts` is what `atol` makes of the first. -/
structure Sjoin where
  ts : Nat
  sid : Bool
  modes : List CString
  users : CString

/-- What `sjtoken` cuts off the message while it may cut `n` times more. -/
def sjtokenFrom : Nat → CString → List CString
  | 0, message => [message]
  | n + 1, message =>
    let rest := (message.dropWhile fun c => c ≠ ' ').dropWhile fun c => c = ' '
    if rest.head? = none ∨ rest.head? = some '\r' then [message.takeWhile fun c => c ≠ ' ']
    else (message.takeWhile fun c => c ≠ ' ') :: sjtokenFrom n rest

def sjtoken (message : CString) : List CString := sjtokenFrom 255 (message.dropWhile fun c => c = ' ')

def statusOf (ch : Channel) (u : Uid) : Option Flags :=
  (ch.members.find? fun cu => cu.user = u).map Chanuser.modes

def clearSimpleModes (ch : Channel) : Channel :=
  { ch with modes := 0#32, limit := 0, key := none, extmodes := fun _ => none }

section model
variable (env : Ts6)

def chanuserAdd (ch : Channel) (nick : CString) : Channel :=
  let (flags, nick) := readPrefixes env.ircd nick
  match env.view.userFind nick with
  | none => ch
  | some u =>
    if (ch.members.find? fun cu => cu.user = u).isSome then setStatus ch u (· ||| flags)
    else { ch with members := ch.members ++ [⟨u, flags⟩] }

def tsLowered (u : Uid) (modes : Flags) : Flags :=
  if env.view.internal u then
    (if env.ircd.usesOwner && env.useOwner then modes ||| cstatusOwner
      else if env.ircd.usesProtect && env.useAdmin then modes ||| cstatusProtect
      else modes) ||| cstatusOp
  else 0#32

/-- The prefixes that `m_sjoin` strips itself. -/
def isStripped (c : Char) : Bool := c = '@' || c = '%' || c = '+'

def mSjoin (c : Option Channel) (m : Sjoin) : Option Channel :=
  let c := c.getD ⟨m.ts, 0#32, 0, none, fun _ => none, [], []⟩
  let (c, keepNewModes) :=
    if m.ts = 0 ∨ c.ts = 0 then ({ c with ts := 0 }, true)
    else if m.ts < c.ts then
      let c := clearSimpleModes c
      let c := if m.sid then { c with bans := [] } else c
      let lower : Chanuser → Chanuser := fun cu => { cu with modes := tsLowered env cu.user cu.modes }
      ({ c with ts := m.ts, members := c.members.map lower }, true)
    else (c, !(m.ts > c.ts))
  let c := if keepNewModes then channelMode env.ircd env.view c m.modes else c
  let userv := sjtoken m.users
  let c := if keepNewModes then userv.foldl (chanuserAdd env) c
    else userv.foldl (fun c p => chanuserAdd env c (p.dropWhile isStripped)) c
  if c.members = [] ∧ test c.modes env.ircd.permMode = false then none else some c

end model

/-! ### Statuses -/

section status
variable {ch : Channel}

theorem find_map_modes (members : List Chanuser) (f : Chanuser → Flags) (u : Uid) :
    ((members.map fun cu => { cu with modes := f cu }).find? fun cu => cu.user = u) =
      (members.find? fun cu => cu.user = u).map fun cu => { cu with modes := f cu } := by
  induction members with
  | nil => rfl
  | cons cu members ih =>
    rw [List.map_cons]
    by_cases h : cu.user = u
    · rw [List.find?_cons_of_pos (by simpa using h), List.find?_cons_of_pos (by simpa using h)]
      rfl
    · rw [List.find?_cons_of_neg (by simpa using h), List.find?_cons_of_neg (by simpa using h), ih]

theorem user_of_find {members : List Chanuser} {u : Uid} {cu : Chanuser}
    (h : (members.find? fun cu => cu.user = u) = some cu) : cu.user = u := by
  simpa using List.find?_some h

theorem status_setStatus (u x : Uid) (f : Flags → Flags) :
    statusOf (setStatus ch u f) x = if u = x then (statusOf ch x).map f else statusOf ch x := by
  have hmap : (setStatus ch u f).members = ch.members.map fun cu =>
      { cu with modes := if cu.user = u then f cu.modes else cu.modes } := by
    apply List.map_congr_left
    intro cu _
    split_ifs <;> rfl
  rw [statusOf, hmap, find_map_modes, statusOf, Option.map_map, Option.map_map]
  cases hfind : ch.members.find? fun cu => cu.user = x with
  | none => simp
  | some cu =>
    have hcu := user_of_find hfind
    simp only [Option.map_some, Function.comp_apply, hcu, eq_comm (a := x)]
    split_ifs <;> rfl

theorem status_append (u x : Uid) (flags : Flags) (h : statusOf ch u = none) :
    statusOf { ch with members := ch.members ++ [⟨u, flags⟩] } x =
      if u = x then some flags else statusOf ch x := by
  rw [statusOf, List.find?_append]
  by_cases hx : u = x
  · have hnone : (ch.members.find? fun cu => cu.user = x) = none := by
      rw [statusOf, Option.map_eq_none_iff] at h
      rw [← hx, h]
    simp [hnone, hx]
  · rw [statusOf]
    cases hfind : ch.members.find? fun cu => cu.user = x with
    | none => simp [hx]
    | some cu => simp [hx]

theorem status_chanuserAdd (env : Ts6) (nick : CString) (x : Uid) :
    statusOf (chanuserAdd env ch nick) x =
      if env.view.userFind (readPrefixes env.ircd nick).2 = some x then
        some ((statusOf ch x).getD 0#32 ||| (readPrefixes env.ircd nick).1)
      else statusOf ch x := by
  rw [chanuserAdd]
  dsimp only
  cases hu : env.view.userFind (readPrefixes env.ircd nick).2 with
  | none => rw [if_neg (Option.some_ne_none x).symm]
  | some u =>
    simp only [Option.some.injEq]
    split_ifs with hfind hx hx
    · rw [status_setStatus, if_pos hx, ← hx]
      rw [Option.isSome_iff_exists] at hfind
      obtain ⟨cu, hcu⟩ := hfind
      rw [statusOf, hcu]
      rfl
    · rw [status_setStatus, if_neg hx]
    · have hnone : statusOf ch u = none := by
        rw [statusOf, Option.map_eq_none_iff]
        simpa using hfind
      rw [status_append u x _ hnone, if_pos hx, ← hx, hnone]
      simp
    · have hnone : statusOf ch u = none := by
        rw [statusOf, Option.map_eq_none_iff]
        simpa using hfind
      rw [status_append u x _ hnone, if_neg hx]

end status

end ChatServices.Modes
