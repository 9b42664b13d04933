import ChatServices.Network.UserCounts

/-! Runs of users and servers, with the exact steps that leave the counters right. -/
namespace ChatServices.Network
open ChatServices.Lib ChatServices.Lib.Run ChatServices.Text

namespace Net
variable (ircd : Ircd) (leaving : Net → MemberId → List ClientId)

/-- What happens to users and servers. `mark` is what `nickserv/enforce` does to a user before it
changes its nick, `denyOper` what `operserv/noop` does to a new oper. -/
inductive ServerEvent where
  | add (x : User) (now : Int)
  | mode (u : ClientId) (modes : CString)
  | changeNick (u : ClientId) (nick : CString) (ts : Int)
  | enforcer (nick : CString)
  | service (nick user host : CString) (deaf : Bool) (now : Int)
  | delete (u : ClientId)
  | mark (u : ClientId)
  | denyOper (u : ClientId)
  | addServer (name : CString) (uplink : ServerId)
  | deleteServer (s : ServerId)

def serverStep (n : Net) (e : ServerEvent) : Net × List Unit :=
  (match e with
    | .add x now =>
      if (n.census.servers.find x.server).isSome then (userAdd ircd leaving n x now).1 else n
    | .mode u modes => n.userMode ircd u modes
    | .changeNick u nick ts => (userChangenick ircd leaving n u nick ts).1
    | .enforcer nick => introduceEnforcer ircd n nick
    | .service nick user host deaf now =>
      (introduceService ircd leaving n nick user host deaf now).getD n
    | .delete u => userDelete ircd leaving n u
    | .mark u =>
      if (n.dir.users.find u).isSome then n.setFlags u (n.census.flags u ||| UF_DOENFORCE) else n
    | .denyOper u =>
      if (n.dir.users.find u).isSome then n.setFlags u (n.census.flags u &&& ~~~UF_IRCOP) else n
    | .addServer name uplink =>
      if (n.census.servers.find uplink).isSome then n.serverAdd name uplink else n
    | .deleteServer s => serverDelete ircd leaving n s, [])

/-! ### Where no flag changes behind the counters -/

/-- Nobody but the users in `gone` has the nick of an enforcer. -/
def enforcerNickFree (n : Net) (gone : List ClientId) (nick : CString) : Bool :=
  (n.userFindNamed ircd (truncate NICKLEN nick)).all fun v => decide (v ∈ gone)

def introduces (n : Net) (u : ClientId) : Bool :=
  n.marked u && (n.dir.users.find u).any fun x => enforcerNickFree ircd n [u] x.nick

def allAlong {ι : Type*} (p : Net → ι → Bool) (f : Net → ι → Net) : Net → List ι → Bool
  | _, [] => true
  | n, i :: is => p n i && allAlong p f (f n i) is

/-- No deletion of a user in `server_delete_serv` introduces an enforcer. -/
def quietServer : Nat → Net → ServerId → Bool
  | 0, _, _ => true
  | depth + 1, n, s =>
    if s = me then true
    else
      match n.census.servers.find s with
      | none => true
      | some x =>
        allAlong (fun n u => !introduces ircd n u) (splitUser ircd leaving) n x.userlist &&
          allAlong (quietServer depth) (serverDeleteServ ircd leaving depth)
            (x.userlist.foldl (splitUser ircd leaving) n)
            ((x.userlist.foldl (splitUser ircd leaving) n).childrenOf s)

/-- The nick of a service cannot be freed: it is an internal client's that is not killed, or that
of a marked user whose enforcer takes it. -/
def nickBlocked (n : Net) (nick : CString) : Bool :=
  match n.userFindNamed ircd nick with
  | none => false
  | some u =>
    !isSet UF_ENFORCER (n.census.flags u) && n.dir.isInternalClient u ||
      n.marked u && (n.dir.users.find u).any fun x =>
        ircd.irccasecanon (truncate NICKLEN x.nick) = ircd.irccasecanon nick

def quiet (n : Net) : ServerEvent → Bool
  | .add x _ =>
    (n.userFindNamed ircd x.nick).all fun u2 =>
      x.server = me || n.dir.isInternalClient u2 || !introduces ircd n u2
  | .changeNick u nick _ =>
    (n.dir.users.find u).all fun x =>
      match n.userFindNamed ircd nick with
      | some u2 =>
        u2 = u || x.server = me || n.dir.isInternalClient u2 || !n.marked u2 ||
          (n.dir.users.find u2).all fun x2 => !enforcerNickFree ircd n [u, u2] x2.nick
      | none =>
        !n.marked u || !enforcerNickFree ircd n [u] x.nick ||
          ircd.irccasecanon nick = ircd.irccasecanon (truncate NICKLEN x.nick)
  | .enforcer nick => (n.userFindNamed ircd nick).isSome
  | .service nick _ _ _ _ => nickBlocked ircd n nick
  | .delete u => !introduces ircd n u
  | .denyOper u => (n.dir.users.find u).isNone || !isSet UF_IRCOP (n.census.flags u)
  | .deleteServer s => quietServer ircd leaving n.census.next n s
  | .mode _ _ => true
  | .mark _ => true
  | .addServer _ _ => true

structure CountsOk (n : Net) : Prop where
  nicks : n.dir.NicksOk ircd.irccasecanon
  placed : Placed n.dir n.census
  counted : Counted n.dir n.census

section rules
variable {ircd leaving} {n : Net} {u : ClientId} {x : User}

theorem countsOk_start : CountsOk ircd (start ircd) := by
  refine ⟨Directory.empty_nicksOk, placed_start ircd.meName, ⟨?_, ?_, ?_, rfl⟩⟩
  · intro s y hy
    obtain ⟨-, rfl⟩ := find_start hy
    rfl
  · intro s y hy
    obtain ⟨-, rfl⟩ := find_start hy
    rfl
  · intro s y hy
    obtain ⟨-, rfl⟩ := find_start hy
    rfl

theorem isSet_and_not {flag : Flags} (f g : Flags) (h : ~~~g &&& flag = flag) :
    isSet flag (f &&& ~~~g) = isSet flag f := by
  rw [isSet, isSet, BitVec.and_assoc, h]

theorem isSet_or {flag : Flags} (f g : Flags) (h : g &&& flag = 0) :
    isSet flag (f ||| g) = isSet flag f := by
  rw [isSet, isSet, BitVec.and_comm, BitVec.and_or_distrib_left, BitVec.and_comm flag g, h]
  show decide (flag &&& f ||| 0#64 ≠ 0) = _
  rw [BitVec.or_zero, BitVec.and_comm]

theorem CountsOk.unmark (h : CountsOk ircd n) :
    CountsOk ircd (n.setFlags u (n.census.flags u &&& ~~~UF_DOENFORCE)) := by
  refine ⟨h.nicks, ⟨h.placed.homes, h.placed.lists, h.placed.own, h.placed.fresh,
    h.placed.upwards⟩, h.counted.setFlags ?_ ?_⟩
  · exact isSet_and_not _ _ (by decide)
  · exact isSet_and_not _ _ (by decide)

theorem CountsOk.mark (h : CountsOk ircd n) :
    CountsOk ircd (n.setFlags u (n.census.flags u ||| UF_DOENFORCE)) := by
  refine ⟨h.nicks, ⟨h.placed.homes, h.placed.lists, h.placed.own, h.placed.fresh,
    h.placed.upwards⟩, h.counted.setFlags ?_ ?_⟩
  · exact isSet_or _ _ (by decide)
  · exact isSet_or _ _ (by decide)

theorem CountsOk.drawUid (h : CountsOk ircd n) : CountsOk ircd (n.drawUid ircd) := by
  rw [Net.drawUid]
  split_ifs
  · exact ⟨h.nicks, h.placed, h.counted⟩
  · exact h

theorem CountsOk.userInsert (h : CountsOk ircd n) (hfree : n.userFindNamed ircd x.nick = none)
    (hserver : (n.census.servers.find x.server).isSome = true) :
    CountsOk ircd (n.userInsert ircd x) :=
  ⟨h.nicks.insert hfree, h.placed.enter h.nicks.next_free hserver,
    h.counted.enter h.nicks.next_free⟩

theorem CountsOk.userGone (h : CountsOk ircd n) (hx : n.dir.users.find u = some x) :
    CountsOk ircd (userGone ircd leaving n u x) := by
  refine ⟨?_, ?_, ?_⟩
  · rw [userGone_dir]
    exact h.nicks.remove hx
  · rw [userGone_dir, userGone_census]
    exact h.placed.leave hx
  · rw [userGone_dir, userGone_census]
    exact h.counted.leave hx

theorem CountsOk.enforcer (h : CountsOk ircd n) {nick : CString}
    (htaken : (n.userFindNamed ircd nick).isSome = true) :
    CountsOk ircd (introduceEnforcer ircd n nick) := by
  obtain ⟨v, hv⟩ := Option.isSome_iff_exists.mp htaken
  rw [introduceEnforcer_taken ircd hv]
  exact h.drawUid

theorem introduceEnforcer_taken_dir {nick : CString}
    (htaken : (n.userFindNamed ircd nick).isSome = true) :
    (introduceEnforcer ircd n nick).dir = n.dir := by
  obtain ⟨v, hv⟩ := Option.isSome_iff_exists.mp htaken
  rw [introduceEnforcer_taken ircd hv, drawUid_dir]

theorem not_enforcerNickFree {gone : List ClientId} {nick : CString}
    (h : enforcerNickFree ircd n gone nick = false) :
    ∃ v, n.userFindNamed ircd (truncate NICKLEN nick) = some v ∧ v ∉ gone := by
  rw [enforcerNickFree] at h
  cases hv : n.userFindNamed ircd (truncate NICKLEN nick) with
  | none => simp [hv] at h
  | some v =>
    refine ⟨v, rfl, ?_⟩
    simpa [hv] using h

theorem userFindNamed_remove {d : Directory} (h : d.NicksOk ircd.irccasecanon)
    (hx : d.users.find u = some x) {v : ClientId} {nick : CString} (hv : v ≠ u)
    (hf : d.userFindNamed ircd.irccasecanon nick = some v) :
    (d.remove ircd.irccasecanon u x).userFindNamed ircd.irccasecanon nick = some v := by
  obtain ⟨y, hy, hnick⟩ := h.holder hf
  apply ((h.remove hx).named _ v).mpr
  refine ⟨y, ?_, hnick⟩
  rw [Directory.remove, Registry.find_erase, if_neg hv, hy]

theorem CountsOk.userDelete (h : CountsOk ircd n) (hx : n.dir.users.find u = some x)
    (hquiet : introduces ircd n u = false) :
    CountsOk ircd (userDelete ircd leaving n u) ∧
      (userDelete ircd leaving n u).dir = n.dir.remove ircd.irccasecanon u x := by
  cases hm : n.marked u with
  | false =>
    rw [userDelete_unmarked hx hm]
    exact ⟨h.userGone hx, userGone_dir ..⟩
  | true =>
    rw [userDelete_marked hx hm]
    have hfree : enforcerNickFree ircd n [u] x.nick = false := by
      simpa [introduces, hm, hx] using hquiet
    obtain ⟨v, hv, hvu⟩ := not_enforcerNickFree hfree
    have hgone : CountsOk ircd (Net.userGone ircd leaving
        (n.setFlags u (n.census.flags u &&& ~~~UF_DOENFORCE)) u x) := h.unmark.userGone hx
    have htaken : ((Net.userGone ircd leaving
        (n.setFlags u (n.census.flags u &&& ~~~UF_DOENFORCE)) u x).userFindNamed ircd
          (truncate NICKLEN x.nick)).isSome = true := by
      rw [userFindNamed, userGone_dir, setFlags_dir,
        userFindNamed_remove h.nicks hx (fun he => hvu (he ▸ List.mem_singleton_self _)) hv]
      rfl
    refine ⟨hgone.enforcer htaken, ?_⟩
    rw [introduceEnforcer_taken_dir htaken, userGone_dir]
    rfl

theorem CountsOk.userDelete' (h : CountsOk ircd n) (hquiet : introduces ircd n u = false) :
    CountsOk ircd (Net.userDelete ircd leaving n u) := by
  cases hx : n.dir.users.find u with
  | none =>
    simp only [Net.userDelete, hx]
    exact h
  | some x => exact (h.userDelete hx hquiet).1

theorem CountsOk.userAdd (h : CountsOk ircd n) {now : Int}
    (hserver : (n.census.servers.find x.server).isSome = true)
    (hquiet : quiet ircd leaving n (.add x now) = true) :
    CountsOk ircd (Net.userAdd ircd leaving n x now).1 := by
  rw [quiet] at hquiet
  simp only [Net.userAdd]
  cases hf : n.userFindNamed ircd x.nick with
  | none => exact @CountsOk.userInsert ircd n { x with ts := if x.ts = 0 then now else x.ts } h hf hserver
  | some u2 =>
    simp only
    split_ifs with hme hint
    · exact h
    · exact h
    · apply h.userDelete'
      simpa [hf, hme, hint] using hquiet

theorem CountsOk.unmarked (h : CountsOk ircd n) : CountsOk ircd (n.unmarked u) := by
  rw [Net.unmarked]
  split_ifs
  · exact h.unmark
  · exact h

theorem CountsOk.rename (h : CountsOk ircd n) (hx : n.dir.users.find u = some x) {nick : CString}
    (hfree : ∀ v, n.userFindNamed ircd nick = some v → v = u) (ts : Int) :
    CountsOk ircd { n with dir := n.dir.rename ircd.irccasecanon u x nick ts } :=
  ⟨h.nicks.rename hx hfree ts, h.placed.rename hx nick ts,
    h.counted.of_usersOn fun _ => usersOn_rename hx nick ts⟩

theorem userFindNamed_rename {d : Directory} (h : d.NicksOk ircd.irccasecanon)
    (hx : d.users.find u = some x) {nick : CString} {ts : Int}
    (hfree : ∀ v, d.userFindNamed ircd.irccasecanon nick = some v → v = u) {v : ClientId}
    {other : CString} (hv : v ≠ u) (hf : d.userFindNamed ircd.irccasecanon other = some v) :
    (d.rename ircd.irccasecanon u x nick ts).userFindNamed ircd.irccasecanon other = some v := by
  obtain ⟨y, hy, hnick⟩ := h.holder hf
  apply ((h.rename hx hfree ts).named _ v).mpr
  refine ⟨y, ?_, hnick⟩
  rw [Directory.rename, Registry.find_set, if_neg hv, hy]

theorem CountsOk.userChangenick (h : CountsOk ircd n) {nick : CString} {ts : Int}
    (hquiet : quiet ircd leaving n (.changeNick u nick ts) = true) :
    CountsOk ircd (Net.userChangenick ircd leaving n u nick ts).1 := by
  cases hx : n.dir.users.find u with
  | none =>
    simp only [Net.userChangenick, hx]
    exact h
  | some x =>
    rw [quiet, hx, Option.all_some] at hquiet
    by_cases hown : n.userFindNamed ircd nick = some u
    · have hnone : (some u).filter (fun v => decide (v ≠ u)) = none := by simp
      simp only [Net.userChangenick, hx, hown, hnone, bne_self_eq_false, Bool.and_false,
        Bool.false_eq_true, if_false]
      apply h.rename hx
      intro v hv
      rw [hown] at hv
      exact (Option.some.inj hv).symm
    · rw [userChangenick_eq hx nick ts hown]
      cases hf : n.userFindNamed ircd nick with
      | none =>
        rw [hf] at hquiet
        have hfree : ∀ v, n.userFindNamed ircd nick = some v → v = u := by
          intro v hv
          rw [hf] at hv
          cases hv
        have hren : CountsOk ircd
            { n.unmarked u with dir := n.dir.rename ircd.irccasecanon u x nick ts } := by
          have hun : CountsOk ircd (n.unmarked u) := h.unmarked
          have hux : (n.unmarked u).dir.users.find u = some x := by rw [unmarked_dir, hx]
          have hufree : ∀ v, (n.unmarked u).userFindNamed ircd nick = some v → v = u := by
            intro v hv
            rw [userFindNamed, unmarked_dir] at hv
            exact hfree v hv
          have hr := hun.rename hux hufree ts
          rw [unmarked_dir] at hr
          exact hr
        simp only
        split_ifs with hm
        · apply hren.enforcer
          rw [userFindNamed]
          by_cases hsame : ircd.irccasecanon nick = ircd.irccasecanon (truncate NICKLEN x.nick)
          · rw [Directory.userFindNamed, ← hsame, ((h.nicks.rename hx hfree ts).named _ u).mpr]
            · rfl
            · exact ⟨{ x with nick := nick, ts := ts }, by
                rw [Directory.rename, Registry.find_set, if_pos rfl, hx]
                rfl, rfl⟩
          · have htaken : enforcerNickFree ircd n [u] x.nick = false := by
              simpa [hm, hsame] using hquiet
            obtain ⟨v, hv, hvu⟩ := not_enforcerNickFree htaken
            rw [userFindNamed_rename h.nicks hx hfree
              (fun he => hvu (he ▸ List.mem_singleton_self _)) hv]
            rfl
        · exact hren
      | some u2 =>
        rw [hf] at hquiet
        have hu2 : u2 ≠ u := fun he => hown (he ▸ hf)
        have hux : (n.unmarked u).dir.users.find u = some x := by rw [unmarked_dir, hx]
        have hgone : CountsOk ircd (Net.userGone ircd leaving (n.unmarked u) u x) :=
          h.unmarked.userGone hux
        simp only
        split_ifs with hme hint
        · exact h.unmarked
        · exact hgone
        · apply hgone.userDelete'
          simp only [hu2, hme, hint, decide_false, Bool.false_or] at hquiet
          rw [introduces, marked_userGone, marked_unmarked_ne hu2]
          cases hm : n.marked u2 with
          | false => rfl
          | true =>
            rw [hm, Bool.not_true, Bool.false_or] at hquiet
            obtain ⟨x2, hx2, -⟩ := h.nicks.holder hf
            rw [hx2, Option.all_some, Bool.not_eq_true'] at hquiet
            obtain ⟨v, hv, hvg⟩ := not_enforcerNickFree hquiet
            have hvu : v ≠ u := fun he => hvg (he ▸ List.mem_cons_self ..)
            have hvu2 : v ≠ u2 := fun he => hvg (he ▸ List.mem_cons_of_mem _ (List.mem_singleton_self _))
            have hx2' : (n.dir.remove ircd.irccasecanon u x).users.find u2 = some x2 := by
              rw [Directory.remove, Registry.find_erase, if_neg hu2, hx2]
            have hstay := userFindNamed_remove h.nicks hx hvu hv
            rw [userGone_dir, unmarked_dir, hx2', Bool.true_and, Option.any_some, enforcerNickFree,
              userFindNamed, userGone_dir, unmarked_dir, hstay]
            simpa using hvu2

/-! ### Servers -/

def Fewer (n n' : Net) : Prop :=
  ∀ u x, n'.dir.users.find u = some x → n.dir.users.find u = some x

theorem Fewer.empty {n' : Net} {s : ServerId} (h : Fewer n n') (hs : usersOn n.dir s = []) :
    usersOn n'.dir s = [] := by
  apply List.eq_nil_iff_forall_not_mem.mpr
  intro u hu
  obtain ⟨x, hx, hserver⟩ := mem_usersOn.mp hu
  have hmem := mem_usersOn.mpr ⟨x, h u x hx, hserver⟩
  rw [hs] at hmem
  cases hmem

variable (leaving) in
theorem CountsOk.splitUser (h : CountsOk ircd n) (hx : n.dir.users.find u = some x)
    (hquiet : introduces ircd n u = false) :
    CountsOk ircd (Net.splitUser ircd leaving n u) ∧
      (Net.splitUser ircd leaving n u).dir = n.dir.remove ircd.irccasecanon u x := by
  have hallow : CountsOk ircd { n with logins := n.logins.allowBurst u } :=
    ⟨h.nicks, h.placed, h.counted⟩
  exact hallow.userDelete hx hquiet

theorem CountsOk.splitUsers (h : CountsOk ircd n) (s : ServerId)
    (hquiet : allAlong (fun n u => !introduces ircd n u) (Net.splitUser ircd leaving) n
      (usersOn n.dir s) = true) :
    CountsOk ircd ((usersOn n.dir s).foldl (Net.splitUser ircd leaving) n) ∧
      Fewer n ((usersOn n.dir s).foldl (Net.splitUser ircd leaving) n) ∧
      usersOn ((usersOn n.dir s).foldl (Net.splitUser ircd leaving) n).dir s = [] := by
  generalize hus : usersOn n.dir s = us at hquiet ⊢
  induction us generalizing n with
  | nil => exact ⟨h, fun _ _ => id, hus⟩
  | cons u us ih =>
    rw [allAlong, Bool.and_eq_true] at hquiet
    have hmem : u ∈ usersOn n.dir s := hus ▸ List.mem_cons_self ..
    obtain ⟨x, hx, -⟩ := mem_usersOn.mp hmem
    obtain ⟨hok, hdir⟩ := h.splitUser leaving hx (by simpa using hquiet.1)
    have hrest : usersOn (Net.splitUser ircd leaving n u).dir s = us := by
      rw [hdir, usersOn_remove, hus, List.erase_cons_head]
    obtain ⟨hok', hfewer, hempty⟩ := ih hok hrest hquiet.2
    refine ⟨hok', fun v y hy => ?_, hempty⟩
    have hmid := hfewer v y hy
    rw [hdir, Directory.remove, Registry.find_erase] at hmid
    split_ifs at hmid
    exact hmid

theorem CountsOk.serverDeleteServ {depth : Nat} (h : CountsOk ircd n) (s : ServerId)
    (hquiet : quietServer ircd leaving depth n s = true) :
    CountsOk ircd (Net.serverDeleteServ ircd leaving depth n s) ∧
      Fewer n (Net.serverDeleteServ ircd leaving depth n s) := by
  induction depth generalizing n s with
  | zero => exact ⟨h, fun _ _ => id⟩
  | succ depth ih =>
    rw [Net.serverDeleteServ]
    rw [quietServer] at hquiet
    split_ifs with hs
    · exact ⟨h, fun _ _ => id⟩
    · rw [if_neg hs] at hquiet
      cases hf : n.census.servers.find s with
      | none => exact ⟨h, fun _ _ => id⟩
      | some x =>
        simp only [hf, Bool.and_eq_true] at hquiet
        obtain ⟨husers, hchildren⟩ := hquiet
        rw [h.placed.lists s x hf] at husers hchildren
        obtain ⟨hok, hfewer, hempty⟩ := h.splitUsers s husers
        have hloop : ∀ (ts : List ServerId) (m : Net), CountsOk ircd m →
            allAlong (quietServer ircd leaving depth) (Net.serverDeleteServ ircd leaving depth) m ts =
              true →
            CountsOk ircd (ts.foldl (Net.serverDeleteServ ircd leaving depth) m) ∧
              Fewer m (ts.foldl (Net.serverDeleteServ ircd leaving depth) m) := by
          intro ts
          induction ts with
          | nil => exact fun m hm _ => ⟨hm, fun _ _ => id⟩
          | cons t ts iht =>
            intro m hm hq
            rw [allAlong, Bool.and_eq_true] at hq
            obtain ⟨hone, hsub⟩ := ih hm t hq.1
            obtain ⟨hall, hsub'⟩ := iht _ hone hq.2
            exact ⟨hall, fun v y hy => hsub v y (hsub' v y hy)⟩
        obtain ⟨hok', hfewer'⟩ := hloop _ _ hok hchildren
        simp only [h.placed.lists s x hf]
        refine ⟨⟨hok'.nicks, ?_, ?_⟩, fun v y hy => hfewer v y (hfewer' v y hy)⟩
        · exact hok'.placed.dropServer hs (hfewer'.empty hempty)
        · exact hok'.counted.dropServer

/-! ### Services -/

theorem introduceEnforcer_holds {nick nick' : CString}
    (hnick : ircd.irccasecanon nick = ircd.irccasecanon nick') :
    ((introduceEnforcer ircd n nick).userFindNamed ircd nick').isSome = true := by
  rw [userFindNamed, Directory.userFindNamed, ← hnick]
  cases hf : n.userFindNamed ircd nick with
  | some v =>
    rw [introduceEnforcer_taken ircd hf, drawUid_dir]
    rw [userFindNamed, Directory.userFindNamed] at hf
    rw [hf]
    rfl
  | none =>
    rw [introduceEnforcer_free ircd hf, setFlags_dir, userInsert_dir, Directory.insert,
      Registry.find_insertNew]
    simp [enforcer]

theorem introduced_none {r : Net × Option ClientId} {deaf : Bool} (h : r.2 = none) :
    (match r with
      | (_, none) => (none : Option Net)
      | (n, some u) =>
        let f := n.census.flags u ||| (UF_IRCOP ||| UF_INVIS ||| UF_SERVICE)
        some (n.setFlags u (if deaf then f ||| UF_DEAF else f))) = none := by
  obtain ⟨n, u⟩ := r
  cases h
  rfl

theorem introduceService_blocked (h : CountsOk ircd n) {nick user host : CString} {deaf : Bool}
    {now : Int} (hblocked : nickBlocked ircd n nick = true) :
    introduceService ircd leaving n nick user host deaf now = none := by
  rw [nickBlocked] at hblocked
  have htaken : ∀ m : Net, (m.userFindNamed ircd nick).isSome = true →
      (Net.userAdd ircd leaving (m.drawUid ircd) ⟨nick, user, host, m.nextUid ircd, me, now⟩ now).2 =
        none := by
    intro m hm
    obtain ⟨v, hv⟩ := Option.isSome_iff_exists.mp hm
    rw [← drawUid_userFindNamed] at hv
    simp only [Net.userAdd, hv, if_true]
  cases hf : n.userFindNamed ircd nick with
  | none => simp [hf] at hblocked
  | some u =>
    simp only [hf] at hblocked
    simp only [introduceService, hf]
    apply introduced_none
    apply htaken
    rw [Bool.or_eq_true] at hblocked
    by_cases hkept : (!isSet UF_ENFORCER (n.census.flags u) && n.dir.isInternalClient u) = true
    · rw [Bool.and_eq_true, Bool.not_eq_true'] at hkept
      rw [killUser, hkept.1, if_neg (by simp), if_pos hkept.2, hf]
      rfl
    · have hmark := hblocked.resolve_left hkept
      rw [Bool.and_eq_true] at hmark
      obtain ⟨hm, hnick⟩ := hmark
      obtain ⟨x, hx, hxnick⟩ := h.nicks.holder hf
      rw [hx, Option.any_some, decide_eq_true_eq] at hnick
      have hkill : killUser ircd leaving n u = Net.userDelete ircd leaving n u := by
        rw [killUser]
        split_ifs with h1 h2
        · rfl
        · simp [h1, h2] at hkept
        · rfl
      rw [hkill, userDelete_marked hx hm]
      exact introduceEnforcer_holds hnick

/-! ### Runs -/

theorem serverStep_counts (h : CountsOk ircd n) {e : ServerEvent}
    (hquiet : quiet ircd leaving n e = true) : CountsOk ircd (serverStep ircd leaving n e).1 := by
  cases e with
  | add x now =>
    simp only [serverStep]
    split_ifs with hserver
    · exact h.userAdd hserver hquiet
    · exact h
  | mode u modes =>
    simp only [serverStep, Net.userMode]
    cases hx : n.dir.users.find u with
    | none => exact h
    | some x => exact ⟨h.nicks, h.placed.userMode _ _, h.counted.userMode hx _ _⟩
  | changeNick u nick ts => exact h.userChangenick hquiet
  | enforcer nick => exact h.enforcer hquiet
  | service nick user host deaf now =>
    simp only [serverStep, introduceService_blocked h hquiet, Option.getD_none]
    exact h
  | delete u => exact h.userDelete' (by simpa [quiet] using hquiet)
  | mark u =>
    simp only [serverStep]
    split_ifs
    · exact h.mark
    · exact h
  | denyOper u =>
    simp only [serverStep]
    split_ifs with hlive
    · have hoper : isSet UF_IRCOP (n.census.flags u) = false := by
        cases hx : n.dir.users.find u with
        | none => simp [hx] at hlive
        | some x => simpa [quiet, hx] using hquiet
      refine ⟨h.nicks, ⟨h.placed.homes, h.placed.lists, h.placed.own, h.placed.fresh,
        h.placed.upwards⟩, h.counted.setFlags ?_ ?_⟩
      · rw [hoper, isSet, BitVec.and_assoc]
        simp [UF_IRCOP]
      · exact isSet_and_not _ _ (by decide)
    · exact h
  | addServer name uplink =>
    simp only [serverStep]
    split_ifs with hup
    · exact ⟨h.nicks, h.placed.addServer hup name, h.counted.addServer h.placed name⟩
    · exact h
  | deleteServer s => exact (h.serverDeleteServ s hquiet).1

/-- As long as no enforcer and no service is introduced, and no oper loses the flag but by a
mode, the counters of every server are the numbers of the users on it, and none has ever been
below zero. -/
theorem user_counters_run (es : List ServerEvent)
    (hrun : Guarded (serverStep ircd leaving) (fun n e => quiet ircd leaving n e = true)
      (start ircd) es) :
    let n := (run (serverStep ircd leaving) (start ircd) es).1
    Counted n.dir n.census := by
  have hok : CountsOk ircd (run (serverStep ircd leaving) (start ircd) es).1 := by
    apply run_state_invariant _ countsOk_start hrun
    exact fun n e h hquiet => serverStep_counts h hquiet
  exact hok.counted

end rules

def remoteUser : User := ⟨['a'], ['u'], ['h'], some ['1'], 1, 100⟩

theorem user_counters_of_opered :
    let n := (run (serverStep plainIrcd fun _ _ => []) (start plainIrcd)
      [.addServer ['t'] me, .add remoteUser 0, .mode 0 ['+', 'o', 'i'], .deleteServer 1]).1
    Counted n.dir n.census :=
  user_counters_run [.addServer ['t'] me, .add remoteUser 0, .mode 0 ['+', 'o', 'i'],
    .deleteServer 1] (by decide +kernel)

/-- The deletion of an enforcer takes the counter of the invisible users below zero. -/
theorem enforcer_underflow :
    let n := (run (serverStep plainIrcd fun _ _ => []) (start plainIrcd) [.enforcer ['a']]).1
    (usersOn n.dir me).map n.census.flags = [UF_INVIS ||| UF_ENFORCER] ∧
    (n.census.servers.find me).map Server.invis = some 0 ∧
    let n' := (serverStep plainIrcd (fun _ _ => []) n (.delete 0)).1
    (n'.census.servers.find me).map Server.invis = some (-1) ∧ n'.census.underflow = true := by
  decide +kernel

end Net
end ChatServices.Network
