import Mathlib.Data.List.Induction
import ChatServices.Lib.Buckets
import ChatServices.Lib.Run
import ChatServices.Network.Directory

/-! The clone check, `modules/operserv/clones.c`: the host entries of the addresses that users
connect from, with the clients of each, kept by the hooks on introductions and deletions. -/
namespace ChatServices.OperServ
open ChatServices.Lib ChatServices.Text ChatServices.Network

def HOSTIPLEN : Nat := 54

structure IpText where
  text : CString
  fits : text.length < HOSTIPLEN
  deriving DecidableEq

/-- `firstkill` and `gracekills` of a host entry. -/
structure Grace where
  firstkill : Int
  gracekills : BitVec 32
  deriving DecidableEq

abbrev HostEntry := Bucket CString ClientId Grace

/-- The users, the addresses and marks of each, and `hostlist`. -/
structure CloneState where
  dir : Directory
  ip : ClientId → Option IpText
  /-- `UF_DOENFORCE` -/
  doenforce : ClientId → Bool
  hosts : Buckets CString ClientId Grace

structure CloneWorld where
  clonesAllowed : BitVec 32
  clonesWarn : BitVec 32
  /-- `find_exempt`, the `allowed` and `warn` of the entry -/
  findExempt : CString → Option (BitVec 32 × BitVec 32)
  cloneIncrease : Bool
  klineEnabled : Bool
  graceCount : BitVec 32
  now : Int
  loggedIn : ClientId → Bool
  isAutoklineExempt : ClientId → Bool
  meName : CString
  uidGet : Option CString

def CLONES_GRACE_TIMEPERIOD : Int := 180

namespace CloneState

def initial : CloneState := ⟨.empty, fun _ => none, fun _ => false, .empty⟩

variable (irccasecanon : CString → CString) (w : CloneWorld)

/-- `clone_increase` raises a limit that is set, up to twice its value. -/
def increased (clients : List ClientId) (limit : BitVec 32) : BitVec 32 :=
  if w.cloneIncrease then
    let raised := clients.foldl (fun n u => if w.loggedIn u ∧ n ≠ 0#32 then n + 1 else n) limit
    if raised > limit * 2 then limit * 2 else raised
  else limit

inductive Verdict where
  | nothing
  | kill (grace : Grace)
  | kline
  | warn

def verdict (u : ClientId) (ip : CString) (he : HostEntry) : Verdict :=
  let limits := (w.findExempt ip).getD (w.clonesAllowed, w.clonesWarn)
  let allowed := increased w he.members limits.1
  let warn := increased w he.members limits.2
  let i := he.members.length
  let stale := decide (he.data.firstkill < w.now - CLONES_GRACE_TIMEPERIOD)
  if i > allowed.toNat ∧ allowed ≠ 0#32 then
    if w.isAutoklineExempt u then .nothing
    else if !w.klineEnabled || decide (he.data.gracekills < w.graceCount) ||
        (decide (w.graceCount > 0#32) && stale) then
      .kill (if stale then ⟨w.now, 1#32⟩ else { he.data with gracekills := he.data.gracekills + 1 })
    else .kline
  else if i ≥ warn.toNat ∧ warn ≠ 0#32 then .warn
  else .nothing

def tracked (s : CloneState) (u : ClientId) : Option CString :=
  match s.dir.users.find u with
  | none => none
  | some x => if x.server = me then none else (s.ip u).map IpText.text

def clonesUserquit (u : ClientId) (s : CloneState) : CloneState :=
  match s.tracked u with
  | none => s
  | some ip => { s with hosts := s.hosts.quit ip u }

/-- `introduce_enforcer`, a client of services without an address. -/
def introduceEnforcer (nick : CString) (s : CloneState) : CloneState :=
  match s.dir.userFindNamed irccasecanon nick with
  | some _ => s
  | none => { s with
      dir := s.dir.insert irccasecanon ⟨nick, "enforcer".toList, w.meName, w.uidGet, me, 1⟩
      ip := Function.update s.ip s.dir.next none }

def userDelete (u : ClientId) (s : CloneState) : CloneState :=
  match s.dir.users.find u with
  | none => s
  | some x =>
    let gone := clonesUserquit u { s with doenforce := Function.update s.doenforce u false }
    let s' := { gone with dir := gone.dir.remove irccasecanon u x }
    if s.doenforce u then introduceEnforcer irccasecanon w (truncate NICKLEN x.nick) s' else s'

/-- `clones_newuser`, and whether the user is still there. -/
def clonesNewuser (u : ClientId) (s : CloneState) : CloneState × Bool :=
  match s.tracked u with
  | none => (s, true)
  | some ip =>
    let r := s.hosts.obtain ip (truncate HOSTIPLEN ip) ⟨0, 0#32⟩
    let s := { s with hosts := r.1.join u r.2 }
    match s.hosts.heap.find r.2 with
    | none => ({ s with hosts := { s.hosts with fault := true } }, true)
    | some he =>
      match verdict w u ip he with
      | .kill grace => (userDelete irccasecanon w u { s with hosts := s.hosts.setData grace r.2 }, false)
      | _ => (s, true)

/-- `0` and the two addresses that stand for none. -/
def realIp (ip : Option IpText) : Option IpText :=
  ip.filter fun ip => ip.text ∉ ["0".toList, "0.0.0.0".toList, "255.255.255.255".toList]

/-- `user_add`, where other functions on the hook may kill the user before or after the check. -/
def userAdd (x : Network.User) (ip : Option IpText) (killedBefore killedAfter : Bool) (s : CloneState) :
    CloneState :=
  match s.dir.userFindNamed irccasecanon x.nick with
  | some u2 =>
    if x.server = me ∨ s.dir.isInternalClient u2 then s else userDelete irccasecanon w u2 s
  | none =>
    let u := s.dir.next
    let s := { s with
      dir := s.dir.insert irccasecanon x
      ip := Function.update s.ip u (realIp ip) }
    if killedBefore then userDelete irccasecanon w u s
    else
      let r := clonesNewuser irccasecanon w u s
      if r.2 && killedAfter then userDelete irccasecanon w u r.1 else r.1

end CloneState

inductive CloneEvent where
  | add (w : CloneWorld) (x : Network.User) (ip : Option IpText) (killedBefore killedAfter : Bool)
  | delete (w : CloneWorld) (u : ClientId)
  | doenforce (u : ClientId)

def cloneStep (irccasecanon : CString → CString) (s : CloneState) :
    CloneEvent → CloneState × List Unit
  | .add w x ip before after => (s.userAdd irccasecanon w x ip before after, [])
  | .delete w u => (s.userDelete irccasecanon w u, [])
  | .doenforce u => ({ s with doenforce := Function.update s.doenforce u true }, [])

/-! ### The index of every run -/

structure Indexed (irccasecanon : CString → CString) (s : CloneState) : Prop where
  nicks : s.dir.NicksOk irccasecanon
  hosts : s.hosts.Holds s.tracked

section deletions
open CloneState
variable {irccasecanon : CString → CString} {w : CloneWorld} {s : CloneState} {u : ClientId}
  {x : Network.User}

theorem tracked_missing (hx : s.dir.users.find u = none) : s.tracked u = none := by
  rw [tracked, hx]

theorem tracked_insert (ip : Option IpText) :
    ∀ v ≠ s.dir.next, ({ s with
      dir := s.dir.insert irccasecanon x
      ip := Function.update s.ip s.dir.next ip } : CloneState).tracked v = s.tracked v := by
  intro v hv
  have hfind : (s.dir.insert irccasecanon x).users.find v = s.dir.users.find v := by
    rw [Directory.insert, Registry.find_insertNew, if_neg (Ne.symm hv), Option.or_none]
  simp only [tracked, hfind, Function.update_of_ne hv]

theorem tracked_remove (x : Network.User) :
    ({ s with dir := s.dir.remove irccasecanon u x } : CloneState).tracked =
      Function.update s.tracked u none := by
  funext v
  rw [Function.update_apply]
  have hfind : (s.dir.remove irccasecanon u x).users.find v =
      if v = u then none else s.dir.users.find v := by
    rw [Directory.remove, Registry.find_erase]
  simp only [tracked, hfind]
  split_ifs <;> rfl

theorem Indexed.enforcer (h : Indexed irccasecanon s) (nick : CString) :
    Indexed irccasecanon (introduceEnforcer irccasecanon w nick s) := by
  rw [introduceEnforcer]
  cases hnick : s.dir.userFindNamed irccasecanon nick with
  | some v => exact h
  | none =>
    refine ⟨h.nicks.insert hnick, ?_⟩
    have htracked : ∀ v, ({ s with
        dir := s.dir.insert irccasecanon ⟨nick, "enforcer".toList, w.meName, w.uidGet, me, 1⟩
        ip := Function.update s.ip s.dir.next none } : CloneState).tracked v = s.tracked v := by
      intro v
      by_cases hv : v = s.dir.next
      · rw [hv, tracked_missing h.nicks.next_free, tracked]
        simp only [Directory.insert, Registry.find_insertNew, h.nicks.next_free,
          Option.none_or]
        rfl
      · exact tracked_insert none v hv
    rw [funext htracked]
    exact h.hosts

theorem indexed_userDelete (hnicks : s.dir.NicksOk irccasecanon) {place : ClientId → Option CString}
    (hosts : s.hosts.Holds place) (hu : place u = none ∨ place u = s.tracked u)
    (hother : ∀ v ≠ u, place v = s.tracked v) (hx : s.dir.users.find u = some x) :
    Indexed irccasecanon (userDelete irccasecanon w u s) := by
  have hplace : Function.update place u none = Function.update s.tracked u none := by
    funext v
    rw [Function.update_apply, Function.update_apply]
    split_ifs with hv
    · rfl
    · exact hother v hv
  have hquit : (clonesUserquit u { s with doenforce := Function.update s.doenforce u false }).hosts.Holds
      (Function.update s.tracked u none) := by
    rw [← hplace, clonesUserquit]
    cases htracked : tracked { s with doenforce := Function.update s.doenforce u false } u with
    | none =>
      have hnone : place u = none := hu.elim id fun heq => heq.trans htracked
      dsimp only
      rwa [Buckets.update_of_none hnone]
    | some ip => exact hosts.quit (hu.imp_right fun heq => heq.trans htracked)
  have hdir : (clonesUserquit u { s with doenforce := Function.update s.doenforce u false }).dir = s.dir ∧
      (clonesUserquit u { s with doenforce := Function.update s.doenforce u false }).ip = s.ip := by
    rw [clonesUserquit]
    split <;> exact ⟨rfl, rfl⟩
  rw [userDelete, hx]
  dsimp only
  generalize hgone : clonesUserquit u { s with doenforce := Function.update s.doenforce u false } = gone at *
  have hindexed : Indexed irccasecanon { gone with dir := gone.dir.remove irccasecanon u x } := by
    refine ⟨?_, ?_⟩
    · dsimp only
      rw [hdir.1]
      exact hnicks.remove hx
    · rw [tracked_remove]
      have htracked : gone.tracked = s.tracked := by
        funext v
        simp only [tracked, hdir.1, hdir.2]
      rw [htracked]
      exact hquit
  split_ifs
  · exact Indexed.enforcer hindexed (truncate NICKLEN x.nick)
  · exact hindexed

theorem Indexed.userDelete (h : Indexed irccasecanon s) (u : ClientId) :
    Indexed irccasecanon (userDelete irccasecanon w u s) := by
  cases hx : s.dir.users.find u with
  | none =>
    rw [CloneState.userDelete, hx]
    exact h
  | some x => exact indexed_userDelete h.nicks h.hosts (.inr rfl) (fun _ _ => rfl) hx

theorem tracked_fits {ip : CString} (h : s.tracked u = some ip) : truncate HOSTIPLEN ip = ip := by
  rw [tracked] at h
  split at h
  · cases h
  split_ifs at h
  obtain ⟨iptext, -, rfl⟩ := Option.map_eq_some_iff.mp h
  have hfits := iptext.fits
  exact List.take_of_length_le (by omega)

theorem indexed_clonesNewuser (hnicks : s.dir.NicksOk irccasecanon)
    (hosts : s.hosts.Holds (Function.update s.tracked u none)) :
    Indexed irccasecanon (clonesNewuser irccasecanon w u s).1 := by
  rw [clonesNewuser]
  cases htracked : s.tracked u with
  | none => exact ⟨hnicks, Buckets.update_of_none htracked ▸ hosts⟩
  | some ip =>
    have hput := hosts.put (k := ip) (Function.update_self ..) (⟨0, 0#32⟩ : Grace)
    have hplace : Function.update (Function.update s.tracked u none) u (some ip) = s.tracked := by
      rw [Function.update_idem, ← htracked, Function.update_eq_self]
    obtain ⟨he, hfind⟩ := hosts.find_put (k := ip) (u := u) (⟨0, 0#32⟩ : Grace)
    rw [hplace] at hput
    rw [Buckets.put] at hput hfind
    dsimp only
    rw [tracked_fits htracked, hfind]
    dsimp only
    have hdelete : ∀ t : Buckets CString ClientId Grace, t.Holds s.tracked →
        Indexed irccasecanon (userDelete irccasecanon w u { s with hosts := t }) := by
      intro t ht
      have hs : Indexed irccasecanon { s with hosts := t } := ⟨hnicks, ht⟩
      exact hs.userDelete u
    cases verdict w u ip he with
    | kill grace => exact hdelete _ (hput.setData hfind grace)
    | nothing => exact ⟨hnicks, hput⟩
    | kline => exact ⟨hnicks, hput⟩
    | warn => exact ⟨hnicks, hput⟩

theorem Indexed.userAdd (h : Indexed irccasecanon s) (x : Network.User) (ip : Option IpText)
    (killedBefore killedAfter : Bool) :
    Indexed irccasecanon (s.userAdd irccasecanon w x ip killedBefore killedAfter) := by
  rw [CloneState.userAdd]
  cases hnick : s.dir.userFindNamed irccasecanon x.nick with
  | some u2 =>
    dsimp only
    split_ifs
    · exact h
    · exact h.userDelete u2
  | none =>
    dsimp only
    generalize hs' : ({ s with
      dir := s.dir.insert irccasecanon x
      ip := Function.update s.ip s.dir.next (realIp ip) } : CloneState) = s'
    have hother : ∀ v ≠ s.dir.next, s.tracked v = s'.tracked v := by
      intro v hv
      rw [← hs']
      exact (tracked_insert (realIp ip) v hv).symm
    have hnicks : s'.dir.NicksOk irccasecanon := hs' ▸ h.nicks.insert hnick
    have hosts : s'.hosts.Holds s.tracked := hs' ▸ h.hosts
    have hnew : s.tracked s.dir.next = none := tracked_missing h.nicks.next_free
    have hplace : Function.update s'.tracked s.dir.next none = s.tracked := by
      funext v
      rw [Function.update_apply]
      split_ifs with hv
      · rw [hv, hnew]
      · exact (hother v hv).symm
    have hx : s'.dir.users.find s.dir.next = some x := by
      rw [← hs']
      dsimp only
      rw [Directory.insert, Registry.find_insertNew, h.nicks.next_free, if_pos rfl, Option.none_or]
    have hchecked : Indexed irccasecanon (clonesNewuser irccasecanon w s.dir.next s').1 :=
      indexed_clonesNewuser hnicks (hplace ▸ hosts)
    split_ifs
    · exact indexed_userDelete hnicks hosts (.inl hnew) hother hx
    · exact hchecked.userDelete _
    · exact hchecked

end deletions

variable {irccasecanon : CString → CString}

theorem indexed_initial : Indexed irccasecanon .initial :=
  ⟨Directory.empty_nicksOk, Buckets.holds_empty⟩

theorem Indexed.step {s : CloneState} (h : Indexed irccasecanon s) (e : CloneEvent) :
    Indexed irccasecanon (cloneStep irccasecanon s e).1 := by
  cases e with
  | add w x ip killedBefore killedAfter => exact h.userAdd x ip killedBefore killedAfter
  | delete w u => exact h.userDelete u
  | doenforce u => exact ⟨h.nicks, h.hosts⟩

theorem indexed_run (es : List CloneEvent) :
    Indexed irccasecanon (Run.run (cloneStep irccasecanon) .initial es).1 := by
  induction es using List.reverseRecOn with
  | nil => exact indexed_initial
  | append_singleton es e ih =>
    rw [Run.run_append]
    exact ih.step e

/-- After every run there is a host entry for an address if and only if a user the check is about
has the address, its clients are these users, each once, and no freed entry has been used. -/
theorem clone_index_kept (es : List CloneEvent) :
    let s := (Run.run (cloneStep irccasecanon) .initial es).1
    s.hosts.fault = false ∧ ∀ ip : CString,
      ((∃ a, s.hosts.index.find ip = some a) ↔ ∃ u, s.tracked u = some ip) ∧
      ∀ a, s.hosts.index.find ip = some a → ∃ he, s.hosts.heap.find a = some he ∧ he.key = ip ∧
        he.members.Nodup ∧ ∀ u, u ∈ he.members ↔ s.tracked u = some ip := by
  intro s
  have h : Indexed irccasecanon s := indexed_run es
  refine ⟨h.hosts.sound, fun ip => ⟨⟨?_, ?_⟩, fun a ha => ?_⟩⟩
  · rintro ⟨a, ha⟩
    obtain ⟨he, hfind, rfl⟩ := h.hosts.bucket ha
    obtain ⟨u, hu⟩ := List.exists_mem_of_ne_nil _ (h.hosts.nonempty a he hfind)
    exact ⟨u, (h.hosts.mem a he hfind u).mp hu⟩
  · rintro ⟨u, hu⟩
    exact Option.isSome_iff_exists.mp (h.hosts.present u ip hu)
  · obtain ⟨he, hfind, rfl⟩ := h.hosts.bucket ha
    exact ⟨he, hfind, rfl, h.hosts.nodup a he hfind, h.hosts.mem a he hfind⟩

/- Two clients are allowed from an address. A third one is killed, and the first one quits. -/
def twoAllowed : CloneWorld where
  clonesAllowed := 2#32
  clonesWarn := 0#32
  findExempt _ := none
  cloneIncrease := false
  klineEnabled := false
  graceCount := 0#32
  now := 1000
  loggedIn _ := false
  isAutoklineExempt _ := false
  meName := "services.example".toList
  uidGet := none

def loopback : IpText := ⟨"127.0.0.1".toList, by decide⟩

def connects (nick : String) : CloneEvent :=
  .add twoAllowed ⟨nick.toList, "user".toList, "host.example".toList, none, 1, 900⟩ (some loopback)
    false false

theorem clone_index_kept_three :
    let s := (Run.run (cloneStep id) .initial
      [connects "anna", connects "bert", connects "carl", .delete twoAllowed 0]).1
    s.tracked 2 = none ∧ ∃ a he, s.hosts.index.find loopback.text = some a ∧
      s.hosts.heap.find a = some he ∧ ∀ u, u ∈ he.members ↔ s.tracked u = some loopback.text := by
  intro s
  refine ⟨by decide +kernel, ?_⟩
  have hkept := (@clone_index_kept id
    [connects "anna", connects "bert", connects "carl", .delete twoAllowed 0]).2 loopback.text
  obtain ⟨a, ha⟩ := hkept.1.mpr ⟨1, by decide +kernel⟩
  obtain ⟨he, hfind, -, -, hmem⟩ := hkept.2 a ha
  exact ⟨a, he, ha, hfind, hmem⟩

end ChatServices.OperServ
