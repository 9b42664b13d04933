import ChatServices.Network.RoomsChange
import ChatServices.Network.Changes

/-! The memberships when somebody leaves a channel or the network, comes or changes. -/
namespace ChatServices.Network
open ChatServices.Lib ChatServices.Text ChatServices.Network.Rooms

namespace Net
variable (ircd : Ircd) (leaving : Net → MemberId → List ClientId)

structure MembersOk (n : Net) : Prop where
  nicks : n.dir.NicksOk ircd.irccasecanon
  uids : n.dir.UidsSound
  rooms : Rooms.Ok n.dir n.rooms

def FewerMembers (r r' : Rooms) : Prop :=
  ∀ m cu, r'.chanusers.find m = some cu → r.chanusers.find m = some cu

/-- Everybody but `u` and the services stays in the channels. -/
def OthersStay (d : Directory) (u : ClientId) (r r' : Rooms) : Prop :=
  ∀ m cu, r.chanusers.find m = some cu → d.isInternalClient cu.user = false → cu.user ≠ u →
    r'.chanusers.find m = some cu

section rules
variable {ircd leaving} {n : Net} {u : ClientId} {c : ChanId} {x : User}

theorem membersOk_start : MembersOk ircd (start ircd) :=
  ⟨Directory.empty_nicksOk, Directory.empty_uidsSound, ok_empty⟩

theorem MembersOk.partService (h : MembersOk ircd n) (w : ClientId) :
    MembersOk ircd (partService ircd c n w) ∧
      Dies ircd.permMode n.rooms (partService ircd c n w).rooms ∧
      FewerMembers n.rooms (partService ircd c n w).rooms ∧
      ∀ m cu, n.rooms.chanusers.find m = some cu → n.dir.isInternalClient cu.user = false →
        (partService ircd c n w).rooms.chanusers.find m = some cu := by
  rw [Net.partService]
  split_ifs with hint
  · cases hf : n.rooms.chanuserFind c w with
    | none => exact ⟨h, .of_chans rfl, fun _ _ => id, fun _ _ hcu _ => hcu⟩
    | some m =>
      obtain ⟨cu, hcu, rfl, rfl⟩ := h.rooms.lists.chanuserFind_iff.mp hf
      obtain ⟨hok, herase, hdies⟩ := h.rooms.chanuserRemove ircd.irccasecanon ircd.permMode hcu
      rw [hint] at hok herase hdies
      refine ⟨⟨h.nicks, h.uids, hok⟩, hdies, fun m' cu' hcu' => ?_, fun m' cu' hcu' hext => ?_⟩
      · exact (find_erase_member (herase ▸ hcu')).2
      · show Registry.find m' (Rooms.chanuserRemove _ _ _ _ _ _).chanusers = _
        have hne : m' ≠ m := by
          intro he
          rw [he, hcu] at hcu'
          cases hcu'
          rw [hint] at hext
          cases hext
        rw [herase, Registry.find_erase, if_neg hne, hcu']
  · exact ⟨h, .of_chans rfl, fun _ _ => id, fun _ _ hcu _ => hcu⟩

theorem partService_dir (c : ChanId) (n : Net) (w : ClientId) :
    (partService ircd c n w).dir = n.dir := by
  obtain ⟨r, hr⟩ := partService_frame ircd c n w
  rw [hr]

theorem MembersOk.partServices (h : MembersOk ircd n) (ws : List ClientId) :
    MembersOk ircd (ws.foldl (Net.partService ircd c) n) ∧
      Dies ircd.permMode n.rooms (ws.foldl (Net.partService ircd c) n).rooms ∧
      FewerMembers n.rooms (ws.foldl (Net.partService ircd c) n).rooms ∧
      ∀ m cu, n.rooms.chanusers.find m = some cu → n.dir.isInternalClient cu.user = false →
        (ws.foldl (Net.partService ircd c) n).rooms.chanusers.find m = some cu := by
  induction ws generalizing n with
  | nil => exact ⟨h, .of_chans rfl, fun _ _ => id, fun _ _ hcu _ => hcu⟩
  | cons w ws ih =>
    obtain ⟨hok, hdies, hfewer, hkeep⟩ := h.partService (c := c) w
    obtain ⟨hok', hdies', hfewer', hkeep'⟩ := ih hok
    rw [List.foldl_cons]
    refine ⟨hok', hdies.trans hdies', fun m cu hcu => hfewer m cu (hfewer' m cu hcu), ?_⟩
    intro m cu hcu hext
    apply hkeep' m cu (hkeep m cu hcu hext)
    rw [partService_dir]
    exact hext

variable (leaving) in
theorem MembersOk.chanuserDelete (h : MembersOk ircd n) (c : ChanId) (u : ClientId) :
    MembersOk ircd (chanuserDelete ircd leaving n c u) ∧
      Dies ircd.permMode n.rooms (chanuserDelete ircd leaving n c u).rooms ∧
      FewerMembers n.rooms (chanuserDelete ircd leaving n c u).rooms ∧
      OthersStay n.dir u n.rooms (chanuserDelete ircd leaving n c u).rooms ∧
      ∀ m, ¬(chanuserDelete ircd leaving n c u).rooms.IsMember m c u := by
  cases hf : n.rooms.chanuserFind c u with
  | none =>
    simp only [Net.chanuserDelete, hf]
    exact ⟨h, .of_chans rfl, fun _ _ => id, fun _ _ hcu _ _ => hcu,
      h.rooms.lists.chanuserFind_none hf⟩
  | some m =>
    obtain ⟨cu, hcu, rfl, rfl⟩ := h.rooms.lists.chanuserFind_iff.mp hf
    -- the state behind the hooks, which still has the member
    have hhooks : ∃ n1 : Net, ∃ internal, MembersOk ircd n1 ∧ n1.dir = n.dir ∧
        n.dir.isInternalClient cu.user = internal ∧
        Dies ircd.permMode n.rooms n1.rooms ∧ FewerMembers n.rooms n1.rooms ∧
        OthersStay n.dir cu.user n.rooms n1.rooms ∧
        n1.rooms.chanusers.find m = some cu ∧
        Net.chanuserDelete ircd leaving n cu.chan cu.user =
          { n1 with
            rooms := n1.rooms.chanuserRemove ircd.irccasecanon ircd.permMode cu.chan m internal } := by
      cases hint : n.dir.isInternalClient cu.user with
      | true =>
        refine ⟨n, true, h, rfl, rfl, .of_chans rfl, fun _ _ => id, fun _ _ hcu _ _ => hcu, hcu,
          ?_⟩
        simp only [Net.chanuserDelete, hf, hint, if_true]
      | false =>
        obtain ⟨hok, hdies, hfewer, hkeep⟩ := h.partServices (c := cu.chan) (leaving n m)
        obtain ⟨r, hr⟩ := foldl_partService_frame ircd cu.chan (leaving n m) n
        refine ⟨_, false, hok, ?_, rfl, hdies, hfewer,
          fun m' cu' hcu' hext _ => hkeep m' cu' hcu' hext, hkeep m cu hcu hint, ?_⟩
        · rw [hr]
        · simp only [Net.chanuserDelete, hf, hint, Bool.false_eq_true, if_false]
    obtain ⟨n1, internal, hok1, hdir, hinternal, hdies1, hfewer1, hstay1, hcu1, heq⟩ := hhooks
    obtain ⟨hok, herase, hdies⟩ := hok1.rooms.chanuserRemove ircd.irccasecanon ircd.permMode hcu1
    rw [hdir, hinternal] at hok herase hdies
    rw [heq]
    refine ⟨⟨hok1.nicks, hok1.uids, by rw [hdir]; exact hok⟩, hdies1.trans hdies,
      fun m' cu' hcu' => ?_, fun m' cu' hcu' hext hne => ?_, fun m' hm' => ?_⟩
    · exact hfewer1 m' cu' (find_erase_member (herase ▸ hcu')).2
    · have hold := hstay1 m' cu' hcu' hext hne
      have hm : m' ≠ m := by
        intro he
        rw [he, hcu1] at hold
        exact hne (congrArg Chanuser.user (Option.some.inj hold)).symm
      show Registry.find m' (Rooms.chanuserRemove _ _ _ _ _ _).chanusers = _
      rw [herase, Registry.find_erase, if_neg hm, hold]
    · obtain ⟨cu', hcu', hc, hu⟩ := hm'
      obtain ⟨hne, hold⟩ := find_erase_member (herase ▸ hcu')
      exact hne (hok1.rooms.lists.unique m' m cu' cu hold hcu1 hc hu)

variable (leaving) in
theorem MembersOk.leaveChannels (h : MembersOk ircd n) (u : ClientId) :
    MembersOk ircd (leaveChannels ircd leaving n u) ∧
      Dies ircd.permMode n.rooms (leaveChannels ircd leaving n u).rooms ∧
      OthersStay n.dir u n.rooms (leaveChannels ircd leaving n u).rooms ∧
      (leaveChannels ircd leaving n u).rooms.channels u = [] := by
  have hloop : ∀ (ms : List MemberId) (k : Net), MembersOk ircd k →
      (∀ m ∈ k.rooms.channels u, m ∈ ms) →
      (∀ m ∈ ms, ∀ cu, k.rooms.chanusers.find m = some cu → cu.user = u) →
      MembersOk ircd (ms.foldl (leaveChannel ircd leaving u) k) ∧
        Dies ircd.permMode k.rooms (ms.foldl (leaveChannel ircd leaving u) k).rooms ∧
        OthersStay k.dir u k.rooms (ms.foldl (leaveChannel ircd leaving u) k).rooms ∧
        (ms.foldl (leaveChannel ircd leaving u) k).rooms.channels u = [] := by
    intro ms
    induction ms with
    | nil =>
      intro k hk hall _
      refine ⟨hk, .of_chans rfl, fun _ _ hcu _ _ => hcu, List.eq_nil_iff_forall_not_mem.mpr fun m hm => ?_⟩
      cases hall m hm
    | cons m ms ih =>
      intro k hk hall huser
      rw [List.foldl_cons]
      cases hcu : k.rooms.chanusers.find m with
      | none =>
        have hsame : leaveChannel ircd leaving u k m = k := by
          simp only [leaveChannel, hcu]
        rw [hsame]
        apply ih k hk
        · intro m' hm'
          refine (List.mem_cons.mp (hall m' hm')).resolve_left fun he => ?_
          obtain ⟨cu, hcu', -⟩ := hk.rooms.lists.mem_channels.mp hm'
          rw [he, hcu] at hcu'
          cases hcu'
        · exact fun m' hm' => huser m' (List.mem_cons_of_mem m hm')
      | some cu =>
        have hu : cu.user = u := huser m (List.mem_cons_self ..) cu hcu
        have hone : leaveChannel ircd leaving u k m =
            Net.chanuserDelete ircd leaving k cu.chan u := by
          simp only [leaveChannel, hcu]
        obtain ⟨hok, hdies, hfewer, hstay, hgone⟩ := hk.chanuserDelete leaving cu.chan u
        have hdir : (Net.chanuserDelete ircd leaving k cu.chan u).dir = k.dir := by
          obtain ⟨r, hr⟩ := chanuserDelete_frame ircd leaving k cu.chan u
          rw [hr]
        rw [hone]
        obtain ⟨hok', hdies', hstay', hempty⟩ := ih _ hok
          (fun m' hm' => by
            obtain ⟨cu', hcu', hu'⟩ := hok.rooms.lists.mem_channels.mp hm'
            have hold := hk.rooms.lists.mem_channels.mpr ⟨cu', hfewer m' cu' hcu', hu'⟩
            refine (List.mem_cons.mp (hall m' hold)).resolve_left fun he => ?_
            have hsame := hfewer m' cu' hcu'
            rw [he, hcu] at hsame
            cases hsame
            exact hgone m' ⟨cu, hcu', rfl, hu'⟩)
          (fun m' hm' cu' hcu' => huser m' (List.mem_cons_of_mem m hm') cu' (hfewer m' cu' hcu'))
        rw [hdir] at hstay'
        exact ⟨hok', hdies.trans hdies', fun m' cu' hcu' hext hne =>
          hstay' m' cu' (hstay m' cu' hcu' hext hne) hext hne, hempty⟩
  apply hloop _ n h
  · exact fun _ => id
  · intro m hm cu hcu
    obtain ⟨cu', hcu', hu⟩ := h.rooms.lists.mem_channels.mp hm
    rw [hcu] at hcu'
    cases hcu'
    exact hu

variable (leaving) in
theorem MembersOk.userGone (h : MembersOk ircd n) (hx : n.dir.users.find u = some x) :
    MembersOk ircd (userGone ircd leaving n u x) ∧
      Dies ircd.permMode n.rooms (userGone ircd leaving n u x).rooms ∧
      OthersStay n.dir u n.rooms (userGone ircd leaving n u x).rooms := by
  have hcounted : MembersOk ircd { n with census := n.census.leave x.server u } :=
    ⟨h.nicks, h.uids, h.rooms⟩
  obtain ⟨hok, hdies, hstay, hempty⟩ := hcounted.leaveChannels leaving u
  have hrooms : (Net.userGone ircd leaving n u x).rooms =
      (Net.leaveChannels ircd leaving { n with census := n.census.leave x.server u } u).rooms := rfl
  have hdir : (Net.leaveChannels ircd leaving { n with census := n.census.leave x.server u } u).dir =
      n.dir := by
    obtain ⟨r, hr⟩ := foldl_leaveChannel_frame ircd leaving u (n.rooms.channels u)
      { n with census := n.census.leave x.server u }
    rw [Net.leaveChannels, hr]
  refine ⟨⟨?_, ?_, ?_⟩, by rw [hrooms]; exact hdies, by rw [hrooms]; exact hstay⟩
  · rw [userGone_dir]
    exact h.nicks.remove hx
  · rw [userGone_dir]
    exact h.uids.remove hx
  · rw [userGone_dir, hrooms]
    have hrok := hok.rooms
    rw [hdir] at hrok
    exact hrok.remove hempty x

theorem MembersOk.userInsert (h : MembersOk ircd n)
    (hfree : n.userFindNamed ircd x.nick = none) : MembersOk ircd (n.userInsert ircd x) :=
  ⟨h.nicks.insert hfree, h.uids.insert h.nicks.next_free, h.rooms.insert h.nicks.next_free x⟩

theorem MembersOk.drawUid (h : MembersOk ircd n) : MembersOk ircd (n.drawUid ircd) := by
  rw [Net.drawUid]
  split_ifs
  · exact ⟨h.nicks, h.uids, h.rooms⟩
  · exact h

theorem drawUid_rooms (n : Net) : (n.drawUid ircd).rooms = n.rooms := by
  rw [Net.drawUid]
  split_ifs <;> rfl

theorem MembersOk.rename (h : MembersOk ircd n) (hx : n.dir.users.find u = some x)
    {nick : CString} (hfree : ∀ v, n.userFindNamed ircd nick = some v → v = u) (ts : Int) :
    MembersOk ircd { n with dir := n.dir.rename ircd.irccasecanon u x nick ts } :=
  ⟨h.nicks.rename hx hfree ts, h.uids.rename hx nick ts,
    h.rooms.setUser (y := { x with nick := nick, ts := ts }) hx rfl rfl⟩

theorem MembersOk.changes (h : MembersOk ircd n) {n' : Net} (hc : Changes ircd leaving n n') :
    MembersOk ircd n' ∧ Dies ircd.permMode n.rooms n'.rooms := by
  induction hc with
  | refl => exact ⟨h, .of_chans rfl⟩
  | flags u f _ ih => exact ⟨⟨ih.1.nicks, ih.1.uids, ih.1.rooms⟩, ih.2⟩
  | drawUid _ ih =>
    refine ⟨ih.1.drawUid, ?_⟩
    rw [drawUid_rooms]
    exact ih.2
  | insert _ hfree ih => exact ⟨ih.1.userInsert hfree, ih.2.trans (.of_chans rfl)⟩
  | gone _ hx ih =>
    obtain ⟨hok, hdies, -⟩ := ih.1.userGone leaving hx
    exact ⟨hok, ih.2.trans hdies⟩
  | rename ts _ hx hfree ih => exact ⟨ih.1.rename hx hfree ts, ih.2⟩

variable (leaving) in
theorem MembersOk.userDelete_stay (h : MembersOk ircd n) (u : ClientId) :
    OthersStay n.dir u n.rooms (userDelete ircd leaving n u).rooms := by
  cases hx : n.dir.users.find u with
  | none =>
    simp only [Net.userDelete, hx]
    exact fun _ _ hcu _ _ => hcu
  | some x =>
    cases hm : n.marked u with
    | false =>
      rw [userDelete_unmarked hx hm]
      exact (h.userGone leaving hx).2.2
    | true =>
      rw [userDelete_marked hx hm]
      have hflags : MembersOk ircd (n.setFlags u (n.census.flags u &&& ~~~UF_DOENFORCE)) :=
        ⟨h.nicks, h.uids, h.rooms⟩
      have hstay := (hflags.userGone leaving hx).2.2
      generalize Net.userGone ircd leaving (n.setFlags u _) u x = k at hstay
      have hrooms : (introduceEnforcer ircd k (truncate NICKLEN x.nick)).rooms.chanusers =
          k.rooms.chanusers := by
        cases hf : k.userFindNamed ircd (truncate NICKLEN x.nick) with
        | some v => rw [introduceEnforcer_taken ircd hf, drawUid_rooms]
        | none =>
          rw [introduceEnforcer_free ircd hf]
          show (k.drawUid ircd).rooms.chanusers = _
          rw [drawUid_rooms]
      intro m cu hcu hext hne
      rw [hrooms]
      exact hstay m cu hcu hext hne

end rules
end Net
end ChatServices.Network
