import ChatServices.Network.Membership

/-! The memberships over whole runs: users come, go, change and collide, they join, part and are
kicked, channels appear and are deleted. -/
namespace ChatServices.Network
open ChatServices.Lib ChatServices.Lib.Run ChatServices.Text ChatServices.Network.Rooms

namespace Net
variable (ircd : Ircd) (leaving : Net → MemberId → List ClientId)

/-- A hook that kicks a user who joins is a `remove` right after the `join`. -/
inductive RoomEvent where
  | addUser (x : User) (now : Int)
  | changeNick (u : ClientId) (nick : CString) (ts : Int)
  | changeUid (u : ClientId) (uid : Option CString)
  | deleteUser (u : ClientId)
  | setFlags (u : ClientId) (f : Flags)
  | addChannel (name : CString)
  | setModes (c : ChanId) (modes : Modes)
  | add (c : ChanId) (nick : CString)
  | remove (c : ChanId) (u : ClientId)
  | join (chan nick : CString) (modes : Modes)
  | part (chan nick : CString)
  | deleteChannel (c : ChanId)

def channelAdd (n : Net) (name : CString) : Net :=
  match n.rooms.channelAdd ircd.irccasecanon name with
  | none => n
  | some (rooms, _) => { n with rooms := rooms }

/-- Where `join` reads through a null pointer there is no next state. -/
def roomStep (n : Net) (e : RoomEvent) : Net × List Unit :=
  (match e with
    | .addUser x now => (userAdd ircd leaving n x now).1
    | .changeNick u nick ts => (userChangenick ircd leaving n u nick ts).1
    | .changeUid u uid => userChangeuid n u uid
    | .deleteUser u => userDelete ircd leaving n u
    | .setFlags u f => n.setFlags u f
    | .addChannel name => channelAdd ircd n name
    | .setModes c modes => { n with rooms := n.rooms.setModes c modes }
    | .add c nick => (chanuserAdd ircd n c nick).1
    | .remove c u => chanuserDelete ircd leaving n c u
    | .join chan nick modes => (Net.join ircd n chan nick modes).getD n
    | .part chan nick => Net.part ircd leaving n chan nick
    | .deleteChannel c => n.channelDelete ircd c, [])

section rules
variable {ircd leaving} {n : Net} {u : ClientId} {c : ChanId} {x : User} {r r' : Rooms}

/-! ### Whoever comes into a channel -/

theorem MembersOk.userFind_live (h : MembersOk ircd n) {nick : CString}
    (hu : n.userFind ircd nick = some u) : (n.dir.users.find u).isSome = true := by
  have hnamed : n.dir.userFindNamed ircd.irccasecanon nick = some u →
      (n.dir.users.find u).isSome = true := by
    intro hf
    obtain ⟨x, hx, -⟩ := h.nicks.holder hf
    rw [hx]
    rfl
  rw [Net.userFind, Directory.userFind] at hu
  split_ifs at hu
  · obtain huid | ⟨-, hu⟩ := Option.or_eq_some_iff.mp hu
    · obtain ⟨x, hx, -⟩ := h.uids nick u huid
      rw [hx]
      rfl
    · exact hnamed hu
  · exact hnamed hu

theorem MembersOk.chanuserAdd (h : MembersOk ircd n) (c : ChanId) (nick : CString) :
    MembersOk ircd (chanuserAdd ircd n c nick).1 ∧
      Grows n.rooms (chanuserAdd ircd n c nick).1.rooms := by
  rw [Net.chanuserAdd]
  cases hchan : n.rooms.chans.find c with
  | none => exact ⟨h, .of_chans rfl⟩
  | some chan =>
    simp only
    split_ifs
    · generalize stripPrefixes ircd.prefixModeList 0 nick = s
      obtain ⟨flags, nick⟩ := s
      simp only
      cases hu : n.userFind ircd nick with
      | none => exact ⟨h, .of_chans rfl⟩
      | some u =>
        simp only
        cases hf : n.rooms.chanuserFind c u with
        | some m => exact ⟨⟨h.nicks, h.uids, h.rooms.addStatus m flags⟩, .of_chans rfl⟩
        | none =>
          refine ⟨⟨h.nicks, h.uids, ?_⟩, .chanuserInsert flags _⟩
          apply h.rooms.chanuserInsert
          · rw [hchan]
            rfl
          · exact h.userFind_live hu
          · exact h.rooms.lists.chanuserFind_none hf
    · exact ⟨h, .of_chans rfl⟩

theorem MembersOk.setModes (h : MembersOk ircd n) (c : ChanId) (modes : Modes) :
    MembersOk ircd { n with rooms := n.rooms.setModes c modes } ∧
      Grows n.rooms (n.rooms.setModes c modes) := by
  refine ⟨⟨h.nicks, h.uids, ?_⟩, ?_⟩
  · exact h.rooms.modifyChan c (fun _ => rfl) (fun _ => rfl) (fun _ => rfl)
  · exact Grows.modifyChan c fun _ => id

theorem MembersOk.channelAdd (h : MembersOk ircd n) {name : CString}
    (hadd : n.rooms.channelAdd ircd.irccasecanon name = some (r', c)) :
    MembersOk ircd { n with rooms := r' } ∧ Grows n.rooms r' := by
  obtain ⟨hok, -, hold⟩ := h.rooms.channelAdd hadd
  exact ⟨⟨h.nicks, h.uids, hok⟩, fun t x hx hne => ⟨x, hold t x hx, hne⟩⟩

theorem MembersOk.join (h : MembersOk ircd n) {chan nick : CString} {modes : Modes} {n' : Net}
    (hjoin : Net.join ircd n chan nick modes = some n') :
    MembersOk ircd n' ∧ Grows n.rooms n'.rooms := by
  simp only [Net.join] at hjoin
  cases hu : n.userFindNamed ircd nick with
  | none =>
    rw [hu] at hjoin
    cases hjoin
    exact ⟨h, .of_chans rfl⟩
  | some u =>
    simp only [hu] at hjoin
    by_cases hany : (n.rooms.channelFind ircd.irccasecanon chan).any
        fun c => (n.rooms.chanuserFind c u).isSome
    · rw [if_pos hany] at hjoin
      cases hjoin
      exact ⟨h, .of_chans rfl⟩
    · rw [if_neg hany] at hjoin
      cases hadd : n.rooms.channelAdd ircd.irccasecanon chan with
      | none =>
        rw [hadd] at hjoin
        cases hjoin
      | some rc =>
        obtain ⟨r, c⟩ := rc
        obtain ⟨hok, hgrows⟩ := h.channelAdd hadd
        simp only [hadd] at hjoin
        -- the channel, with its modes if it is new
        have hmodes : ∀ old : Option ChanId,
            MembersOk ircd { n with rooms := if old.isNone then r.setModes c modes else r } ∧
              Grows n.rooms (if old.isNone then r.setModes c modes else r) := by
          intro old
          split_ifs
          · obtain ⟨hok', hgrows'⟩ := hok.setModes c modes
            exact ⟨hok', hgrows.trans hgrows'⟩
          · exact ⟨hok, hgrows⟩
        obtain ⟨hok', hgrows'⟩ := hmodes (n.rooms.channelFind ircd.irccasecanon chan)
        split at hjoin
        · cases hjoin
        · rename_i n1 m hpair
          obtain ⟨hadded, hgrows''⟩ := hok'.chanuserAdd c
            (((n.dir.users.find u).map clientName).getD [])
          rw [hpair] at hadded hgrows''
          cases hjoin
          refine ⟨⟨hadded.nicks, hadded.uids, hadded.rooms.addStatus m CSTATUS_OP⟩, ?_⟩
          exact (hgrows'.trans hgrows'').trans (.of_chans rfl)

/-! ### Runs -/

theorem MembersOk.changeUid (h : MembersOk ircd n) (u : ClientId) (uid : Option CString) :
    MembersOk ircd (userChangeuid n u uid) := by
  rw [Net.userChangeuid]
  cases hx : n.dir.users.find u with
  | none => exact h
  | some x =>
    exact ⟨h.nicks.changeUid hx uid, h.uids.changeUid hx uid,
      h.rooms.setUser (y := { x with uid := uid }) hx rfl rfl⟩

theorem userChangeuid_rooms (u : ClientId) (uid : Option CString) :
    (userChangeuid n u uid).rooms = n.rooms := by
  rw [Net.userChangeuid]
  cases n.dir.users.find u with
  | none => rfl
  | some x => rfl

variable (leaving) in
theorem MembersOk.part (h : MembersOk ircd n) (chan nick : CString) :
    MembersOk ircd (part ircd leaving n chan nick) ∧
      Dies ircd.permMode n.rooms (part ircd leaving n chan nick).rooms := by
  rw [Net.part]
  cases n.rooms.channelFind ircd.irccasecanon chan with
  | none => exact ⟨h, .of_chans rfl⟩
  | some c =>
    cases n.userFindNamed ircd nick with
    | none => exact ⟨h, .of_chans rfl⟩
    | some u =>
      obtain ⟨hok, hdies, -⟩ := h.chanuserDelete leaving c u
      exact ⟨hok, hdies⟩

theorem roomStep_ok (h : MembersOk ircd n) (e : RoomEvent) :
    MembersOk ircd (roomStep ircd leaving n e).1 ∧
      EmptiedDie ircd.permMode n.rooms (roomStep ircd leaving n e).1.rooms := by
  cases e with
  | addUser x now =>
    obtain ⟨hok, hdies⟩ := h.changes (userAdd_changes ircd leaving n x now)
    exact ⟨hok, hdies.emptiedDie⟩
  | changeNick u nick ts =>
    obtain ⟨hok, hdies⟩ := h.changes (userChangenick_changes ircd leaving n u nick ts)
    exact ⟨hok, hdies.emptiedDie⟩
  | changeUid u uid =>
    have hsame : (userChangeuid n u uid).rooms.chans = n.rooms.chans := by
      rw [userChangeuid_rooms]
    exact ⟨h.changeUid u uid, (Grows.of_chans hsame).emptiedDie _⟩
  | deleteUser u =>
    obtain ⟨hok, hdies⟩ := h.changes (userDelete_changes ircd leaving n u)
    exact ⟨hok, hdies.emptiedDie⟩
  | setFlags u f => exact ⟨⟨h.nicks, h.uids, h.rooms⟩, (Grows.of_chans rfl).emptiedDie _⟩
  | addChannel name =>
    simp only [roomStep, Net.channelAdd]
    cases hadd : n.rooms.channelAdd ircd.irccasecanon name with
    | none => exact ⟨h, (Grows.of_chans rfl).emptiedDie _⟩
    | some rc =>
      obtain ⟨r, c⟩ := rc
      obtain ⟨hok, hgrows⟩ := h.channelAdd hadd
      exact ⟨hok, hgrows.emptiedDie _⟩
  | setModes c modes =>
    obtain ⟨hok, hgrows⟩ := h.setModes c modes
    exact ⟨hok, hgrows.emptiedDie _⟩
  | add c nick =>
    obtain ⟨hok, hgrows⟩ := h.chanuserAdd c nick
    exact ⟨hok, hgrows.emptiedDie _⟩
  | remove c u =>
    obtain ⟨hok, hdies, -⟩ := h.chanuserDelete leaving c u
    exact ⟨hok, hdies.emptiedDie⟩
  | join chan nick modes =>
    simp only [roomStep]
    cases hjoin : Net.join ircd n chan nick modes with
    | none => exact ⟨h, (Grows.of_chans rfl).emptiedDie _⟩
    | some n' =>
      obtain ⟨hok, hgrows⟩ := h.join hjoin
      exact ⟨hok, hgrows.emptiedDie _⟩
  | part chan nick =>
    obtain ⟨hok, hdies⟩ := h.part leaving chan nick
    exact ⟨hok, hdies.emptiedDie⟩
  | deleteChannel c =>
    exact ⟨⟨h.nicks, h.uids, h.rooms.channelDelete c⟩,
      (Dies.channelDelete h.rooms c).emptiedDie⟩

structure Memberships (d : Directory) (r : Rooms) : Prop where
  both : ∀ m c u, r.IsMember m c u → (r.members c).count m = 1 ∧ (r.channels u).count m = 1
  members : ∀ m c, m ∈ r.members c → ∃ u, r.IsMember m c u
  channels : ∀ m u, m ∈ r.channels u → ∃ c, r.IsMember m c u
  live : ∀ m c u, r.IsMember m c u →
    (r.chans.find c).isSome = true ∧ (d.users.find u).isSome = true
  once : ∀ m m' c u, r.IsMember m c u → r.IsMember m' c u → m = m'
  nummembers : ∀ c x, r.chans.find c = some x → x.nummembers = x.members.length
  numsvcmembers : ∀ c x, r.chans.find c = some x →
    x.numsvcmembers = x.members.countP (r.internalMember d)
  found : ∀ m c u, r.chanuserFind c u = some m ↔ r.IsMember m c u
  inChannels : ∀ m c u, r.findInChannels c u = some m ↔ r.IsMember m c u
  inMembers : ∀ m c u, r.findInMembers c u = some m ↔ r.IsMember m c u

theorem memberships_of_ok {d : Directory} (h : Rooms.Ok d r) : Memberships d r where
  both m c u hm := by
    obtain ⟨cu, hcu, hc, hu⟩ := hm
    have hmembers : m ∈ r.members c := h.lists.mem_members.mpr ⟨cu, hcu, hc⟩
    have hchannels : m ∈ r.channels u := h.lists.mem_channels.mpr ⟨cu, hcu, hu⟩
    have hnodup : (r.members c).Nodup := by
      rw [h.lists.members_eq]
      exact Registry.nodup_keysWhere
    have hnodup' : (r.channels u).Nodup := by
      rw [h.lists.channels]
      exact Registry.nodup_keysWhere
    exact ⟨List.count_eq_one_of_mem hnodup hmembers, List.count_eq_one_of_mem hnodup' hchannels⟩
  members m c hm := by
    obtain ⟨cu, hcu, hc⟩ := h.lists.mem_members.mp hm
    exact ⟨cu.user, cu, hcu, hc, rfl⟩
  channels m u hm := by
    obtain ⟨cu, hcu, hu⟩ := h.lists.mem_channels.mp hm
    exact ⟨cu.chan, cu, hcu, rfl, hu⟩
  live m c u hm := by
    obtain ⟨cu, hcu, rfl, rfl⟩ := hm
    exact ⟨h.lists.chanLive m cu hcu, h.lists.userLive m cu hcu⟩
  once m m' c u hm hm' := h.lists.isMember_unique hm hm'
  nummembers c x hx := (h.counters c x hx).1
  numsvcmembers c x hx := (h.counters c x hx).2
  found m c u := h.lists.chanuserFind_iff
  inChannels m c u := h.lists.findInChannels_iff
  inMembers m c u := h.lists.findInMembers_iff

end rules

/-- The memberships in every run, whatever comes next. -/
theorem membership_run (es : List RoomEvent) :
    let n := (run (roomStep ircd leaving) (start ircd) es).1
    Memberships n.dir n.rooms ∧
      ∀ e, EmptiedDie ircd.permMode n.rooms (roomStep ircd leaving n e).1.rooms := by
  intro n
  have hok : MembersOk ircd n := by
    apply @run_invariant _ _ _ (roomStep ircd leaving) (fun n _ => MembersOk ircd n)
      (fun s _ e h => (roomStep_ok h e).1) (start ircd) [] membersOk_start es
  exact ⟨memberships_of_ok hok.rooms, fun e => (roomStep_ok hok e).2⟩

end Net
end ChatServices.Network
