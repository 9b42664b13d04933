import ChatServices.Network.Net

/-! What the functions of the network do to each part of it. Only the channels change while a user
leaves them. -/
namespace ChatServices.Network
open ChatServices.Lib ChatServices.Text
namespace Net
variable (ircd : Ircd) (leaving : Net → MemberId → List ClientId)

theorem partService_frame (c : ChanId) (n : Net) (w : ClientId) :
    ∃ r, partService ircd c n w = { n with rooms := r } := by
  rw [partService]
  split_ifs
  · cases n.rooms.chanuserFind c w with
    | none => exact ⟨n.rooms, rfl⟩
    | some m => exact ⟨_, rfl⟩
  · exact ⟨n.rooms, rfl⟩

theorem foldl_partService_frame (c : ChanId) (ws : List ClientId) (n : Net) :
    ∃ r, ws.foldl (partService ircd c) n = { n with rooms := r } := by
  induction ws generalizing n with
  | nil => exact ⟨n.rooms, rfl⟩
  | cons w ws ih =>
    obtain ⟨r, hr⟩ := partService_frame ircd c n w
    rw [List.foldl_cons, hr]
    exact ih _

theorem chanuserDelete_frame (n : Net) (c : ChanId) (u : ClientId) :
    ∃ r, chanuserDelete ircd leaving n c u = { n with rooms := r } := by
  rw [chanuserDelete]
  cases n.rooms.chanuserFind c u with
  | none => exact ⟨n.rooms, rfl⟩
  | some m =>
    by_cases hint : n.dir.isInternalClient u = true
    · simp only [hint, if_true]
      exact ⟨_, rfl⟩
    · obtain ⟨r, hr⟩ := foldl_partService_frame ircd c (leaving n m) n
      simp only [hint, hr]
      exact ⟨_, rfl⟩

theorem leaveChannel_frame (u : ClientId) (n : Net) (m : MemberId) :
    ∃ r, leaveChannel ircd leaving u n m = { n with rooms := r } := by
  rw [leaveChannel]
  cases n.rooms.chanusers.find m with
  | none => exact ⟨n.rooms, rfl⟩
  | some cu => exact chanuserDelete_frame ircd leaving n cu.chan u

theorem foldl_leaveChannel_frame (u : ClientId) (ms : List MemberId) (n : Net) :
    ∃ r, ms.foldl (leaveChannel ircd leaving u) n = { n with rooms := r } := by
  induction ms generalizing n with
  | nil => exact ⟨n.rooms, rfl⟩
  | cons m ms ih =>
    obtain ⟨r, hr⟩ := leaveChannel_frame ircd leaving u n m
    rw [List.foldl_cons, hr]
    exact ih _

theorem userGone_frame (n : Net) (u : ClientId) (x : User) :
    ∃ r, userGone ircd leaving n u x =
      { n with
        dir := n.dir.remove ircd.irccasecanon u x
        census := n.census.leave x.server u
        logins := n.logins.unlink u
        rooms := r } := by
  obtain ⟨r, hr⟩ := foldl_leaveChannel_frame ircd leaving u (n.rooms.channels u)
    { n with census := n.census.leave x.server u }
  rw [userGone, leaveChannels, hr]
  exact ⟨r, rfl⟩

@[simp] theorem userGone_dir (n : Net) (u : ClientId) (x : User) :
    (userGone ircd leaving n u x).dir = n.dir.remove ircd.irccasecanon u x := by
  obtain ⟨r, hr⟩ := userGone_frame ircd leaving n u x
  rw [hr]

@[simp] theorem userGone_census (n : Net) (u : ClientId) (x : User) :
    (userGone ircd leaving n u x).census = n.census.leave x.server u := by
  obtain ⟨r, hr⟩ := userGone_frame ircd leaving n u x
  rw [hr]

@[simp] theorem userGone_logins (n : Net) (u : ClientId) (x : User) :
    (userGone ircd leaving n u x).logins = n.logins.unlink u := by
  obtain ⟨r, hr⟩ := userGone_frame ircd leaving n u x
  rw [hr]

@[simp] theorem userGone_nextUid (n : Net) (u : ClientId) (x : User) :
    (userGone ircd leaving n u x).nextUid ircd = n.nextUid ircd := by
  obtain ⟨r, hr⟩ := userGone_frame ircd leaving n u x
  rw [hr]
  rfl

@[simp] theorem setFlags_dir (n : Net) (u : ClientId) (f : Flags) : (n.setFlags u f).dir = n.dir := rfl

@[simp] theorem userInsert_dir (n : Net) (x : User) :
    (n.userInsert ircd x).dir = n.dir.insert ircd.irccasecanon x := rfl

@[simp] theorem drawUid_dir (n : Net) : (n.drawUid ircd).dir = n.dir := by
  rw [drawUid]
  split_ifs <;> rfl

/-- The `user_t` of an enforcer. -/
def enforcer (n : Net) (nick : CString) : User :=
  ⟨nick, ['e', 'n', 'f', 'o', 'r', 'c', 'e', 'r'], ircd.meName, n.nextUid ircd, me, 1⟩

@[simp] theorem userInsert_flags (n : Net) (x : User) (v : ClientId) :
    (n.userInsert ircd x).census.flags v = if v = n.dir.next then 0 else n.census.flags v := rfl

@[simp] theorem drawUid_userFindNamed (n : Net) (nick : CString) :
    (n.drawUid ircd).userFindNamed ircd nick = n.userFindNamed ircd nick := by
  rw [userFindNamed, drawUid_dir, userFindNamed]

theorem introduceEnforcer_taken {n : Net} {nick : CString} {u : ClientId}
    (h : n.userFindNamed ircd nick = some u) : introduceEnforcer ircd n nick = n.drawUid ircd := by
  rw [← drawUid_userFindNamed] at h
  simp only [introduceEnforcer, h]

theorem introduceEnforcer_free {n : Net} {nick : CString} (h : n.userFindNamed ircd nick = none) :
    introduceEnforcer ircd n nick =
      ((n.drawUid ircd).userInsert ircd (enforcer ircd n nick)).setFlags n.dir.next
        (0 ||| (UF_INVIS ||| UF_ENFORCER)) := by
  rw [← drawUid_userFindNamed] at h
  simp only [introduceEnforcer, h, drawUid_dir, userInsert_flags, if_true]
  rfl

end Net
end ChatServices.Network
