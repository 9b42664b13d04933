import ChatServices.Network.Counters
import ChatServices.Network.Net

/-! Channels and users agree on who is a member of what, one lemma for each operation. Both lists
are read off the table of the memberships. -/
namespace ChatServices.Network
open ChatServices.Lib ChatServices.Text

namespace Rooms

def internalMember (d : Directory) (r : Rooms) (m : MemberId) : Bool :=
  (r.chanusers.find m).any fun cu => d.isInternalClient cu.user

structure ListsOk (d : Directory) (r : Rooms) : Prop where
  members : ∀ c x, r.chans.find c = some x →
    x.members = r.chanusers.keysWhere fun cu => cu.chan = c
  channels : ∀ u, r.channels u = r.chanusers.keysWhere fun cu => cu.user = u
  unique : ∀ m m' cu cu', r.chanusers.find m = some cu → r.chanusers.find m' = some cu' →
    cu.chan = cu'.chan → cu.user = cu'.user → m = m'
  chanLive : ∀ m cu, r.chanusers.find m = some cu → (r.chans.find cu.chan).isSome = true
  userLive : ∀ m cu, r.chanusers.find m = some cu → (d.users.find cu.user).isSome = true
  freshMember : ∀ m cu, r.chanusers.find m = some cu → m < r.nextMember
  freshChan : ∀ c x, r.chans.find c = some x → c < r.nextChan

def CountersOk (d : Directory) (r : Rooms) (c : ChanId) : Prop :=
  ∀ x, r.chans.find c = some x →
    x.nummembers = x.members.length ∧ x.numsvcmembers = x.members.countP (r.internalMember d)

structure Ok (d : Directory) (r : Rooms) : Prop where
  lists : ListsOk d r
  counters : ∀ c, CountersOk d r c

section lookup
variable {d : Directory} {r : Rooms} {c : ChanId} {u : ClientId} {m : MemberId} {cu : Chanuser}

theorem find?_eq_some_of_unique {α : Type*} {l : List α} {p : α → Bool} {a : α}
    (h : ∀ x ∈ l, p x = true → x = a) (ha : a ∈ l) (hp : p a = true) : l.find? p = some a := by
  cases hf : l.find? p with
  | none => exact absurd hp (List.find?_eq_none.mp hf a ha)
  | some x =>
    have hx := h x (List.mem_of_find?_eq_some hf) (List.find?_some hf)
    rw [hx]

theorem ListsOk.mem_channels (h : ListsOk d r) :
    m ∈ r.channels u ↔ ∃ cu, r.chanusers.find m = some cu ∧ cu.user = u := by
  rw [h.channels, Registry.mem_keysWhere]
  simp

theorem ListsOk.members_eq (h : ListsOk d r) (c : ChanId) :
    r.members c = r.chanusers.keysWhere fun cu => cu.chan = c := by
  rw [Rooms.members]
  cases hx : r.chans.find c with
  | some x => exact h.members c x hx
  | none =>
    symm
    apply List.eq_nil_iff_forall_not_mem.mpr
    intro m hm
    obtain ⟨cu, hcu, hc⟩ := Registry.mem_keysWhere.mp hm
    have hlive := h.chanLive m cu hcu
    rw [of_decide_eq_true hc, hx] at hlive
    cases hlive

theorem ListsOk.mem_members (h : ListsOk d r) :
    m ∈ r.members c ↔ ∃ cu, r.chanusers.find m = some cu ∧ cu.chan = c := by
  rw [h.members_eq, Registry.mem_keysWhere]
  simp

/-- The member `m` is the user `u` in the channel `c`. -/
def IsMember (r : Rooms) (m : MemberId) (c : ChanId) (u : ClientId) : Prop :=
  ∃ cu, r.chanusers.find m = some cu ∧ cu.chan = c ∧ cu.user = u

theorem ListsOk.isMember_unique (h : ListsOk d r) {m' : MemberId} (hm : r.IsMember m c u)
    (hm' : r.IsMember m' c u) : m = m' := by
  obtain ⟨cu, hcu, hc, hu⟩ := hm
  obtain ⟨cu', hcu', hc', hu'⟩ := hm'
  exact h.unique m m' cu cu' hcu hcu' (hc.trans hc'.symm) (hu.trans hu'.symm)

theorem ListsOk.findInChannels_iff (h : ListsOk d r) :
    r.findInChannels c u = some m ↔ r.IsMember m c u := by
  let test (m' : MemberId) : Bool := (r.chanusers.find m').any fun x => x.chan = c
  have htest : ∀ m', m' ∈ r.channels u → test m' = true → r.IsMember m' c u := by
    intro m' hm' hp
    obtain ⟨cu, hcu, hu⟩ := h.mem_channels.mp hm'
    refine ⟨cu, hcu, ?_, hu⟩
    simpa [test, hcu] using hp
  constructor
  · intro hf
    have hp := List.find?_some (p := test) hf
    exact htest m (List.mem_of_find?_eq_some hf) hp
  · intro hm
    apply find?_eq_some_of_unique
    · exact fun m' hm' hp => h.isMember_unique (htest m' hm' hp) hm
    · obtain ⟨cu, hcu, -, hu⟩ := hm
      exact h.mem_channels.mpr ⟨cu, hcu, hu⟩
    · obtain ⟨cu, hcu, hc, -⟩ := hm
      simp [hcu, hc]

theorem ListsOk.findInMembers_iff (h : ListsOk d r) :
    r.findInMembers c u = some m ↔ r.IsMember m c u := by
  let test (m' : MemberId) : Bool := (r.chanusers.find m').any fun x => x.user = u
  have htest : ∀ m', m' ∈ r.members c → test m' = true → r.IsMember m' c u := by
    intro m' hm' hp
    obtain ⟨cu, hcu, hc⟩ := h.mem_members.mp hm'
    refine ⟨cu, hcu, hc, ?_⟩
    simpa [test, hcu] using hp
  constructor
  · intro hf
    have hp := List.find?_some (p := test) hf
    exact htest m (List.mem_of_find?_eq_some hf) hp
  · intro hm
    apply find?_eq_some_of_unique
    · exact fun m' hm' hp => h.isMember_unique (htest m' hm' hp) hm
    · obtain ⟨cu, hcu, hc, -⟩ := hm
      exact h.mem_members.mpr ⟨cu, hcu, hc⟩
    · obtain ⟨cu, hcu, -, hu⟩ := hm
      simp [hcu, hu]

theorem ListsOk.chanuserFind_iff (h : ListsOk d r) :
    r.chanuserFind c u = some m ↔ r.IsMember m c u := by
  rw [chanuserFind]
  split_ifs
  · exact h.findInChannels_iff
  · exact h.findInMembers_iff

theorem ListsOk.chanuserFind_none (h : ListsOk d r) (hf : r.chanuserFind c u = none) (m : MemberId) :
    ¬r.IsMember m c u := by
  intro hm
  rw [← h.chanuserFind_iff, hf] at hm
  cases hm

end lookup

section operations
variable {d d' : Directory} {r : Rooms} {c : ChanId} {u : ClientId} {m : MemberId} {cu : Chanuser}
  {irccasecanon : CString → CString} {permMode : Modes}

theorem ok_empty : Ok d empty := by
  refine ⟨⟨?_, ?_, ?_, ?_, ?_, ?_, ?_⟩, ?_⟩
  · intro c x hx
    simp [empty] at hx
  · exact fun u => rfl
  · intro m m' cu cu' hcu
    simp [empty] at hcu
  · intro m cu hcu
    simp [empty] at hcu
  · intro m cu hcu
    simp [empty] at hcu
  · intro m cu hcu
    simp [empty] at hcu
  · intro c x hx
    simp [empty] at hx
  · intro c x hx
    simp [empty] at hx

theorem Ok.of_users (h : Ok d r)
    (hlive : ∀ m cu, r.chanusers.find m = some cu → (d'.users.find cu.user).isSome = true)
    (hinternal : ∀ m cu, r.chanusers.find m = some cu →
      d'.isInternalClient cu.user = d.isInternalClient cu.user) : Ok d' r := by
  refine ⟨⟨h.lists.members, h.lists.channels, h.lists.unique, h.lists.chanLive, hlive,
    h.lists.freshMember, h.lists.freshChan⟩, fun c x hx => ?_⟩
  obtain ⟨hnum, hsvc⟩ := h.counters c x hx
  refine ⟨hnum, hsvc.trans ?_⟩
  congr 1
  apply List.countP_congr
  intro m _
  rw [internalMember, internalMember]
  cases hcu : r.chanusers.find m with
  | none => rfl
  | some cu => simp [hinternal m cu hcu]

theorem isInternalClient_of_find {x y : User} (hx : d.users.find u = some x)
    (hy : d'.users.find u = some y) (hserver : y.server = x.server) :
    d'.isInternalClient u = d.isInternalClient u := by
  simp [Directory.isInternalClient, hx, hy, hserver]

theorem Ok.insert (h : Ok d r) (hnext : d.users.find d.next = none) (x : User) :
    Ok (d.insert irccasecanon x) (r.enter d.next) := by
  have hold : ∀ m cu, r.chanusers.find m = some cu → ∃ y, d.users.find cu.user = some y ∧
      (d.insert irccasecanon x).users.find cu.user = some y := by
    intro m cu hcu
    obtain ⟨y, hy⟩ := Option.isSome_iff_exists.mp (h.lists.userLive m cu hcu)
    exact ⟨y, hy, by rw [Directory.insert, Registry.find_insertNew, hy, Option.some_or]⟩
  have hsame : r.enter d.next = r := by
    have hlist : (fun v => if v = d.next then [] else r.channels v) = r.channels := by
      funext v
      split_ifs with hv
      · symm
        apply List.eq_nil_iff_forall_not_mem.mpr
        intro m hm
        obtain ⟨cu, hcu, hu⟩ := h.lists.mem_channels.mp hm
        have hlive := h.lists.userLive m cu hcu
        rw [hu, hv, hnext] at hlive
        cases hlive
      · rfl
    rw [enter, hlist]
  rw [hsame]
  apply h.of_users
  · intro m cu hcu
    obtain ⟨y, -, hy⟩ := hold m cu hcu
    rw [hy]
    rfl
  · intro m cu hcu
    obtain ⟨y, hy, hy'⟩ := hold m cu hcu
    exact isInternalClient_of_find hy hy' rfl

theorem Ok.remove (h : Ok d r) (hnone : r.channels u = []) (x : User) :
    Ok (d.remove irccasecanon u x) r := by
  have hne : ∀ m cu, r.chanusers.find m = some cu → cu.user ≠ u := by
    intro m cu hcu hu
    have hmem := h.lists.mem_channels.mpr ⟨cu, hcu, hu⟩
    rw [hnone] at hmem
    cases hmem
  have hold : ∀ m cu, r.chanusers.find m = some cu →
      (d.remove irccasecanon u x).users.find cu.user = d.users.find cu.user := by
    intro m cu hcu
    rw [Directory.remove, Registry.find_erase, if_neg (hne m cu hcu)]
  apply h.of_users
  · intro m cu hcu
    rw [hold m cu hcu]
    exact h.lists.userLive m cu hcu
  · intro m cu hcu
    rw [Directory.isInternalClient, hold m cu hcu, Directory.isInternalClient]

theorem Ok.setUser (h : Ok d r) {x y : User} (hx : d.users.find u = some x)
    (hserver : y.server = x.server) (husers : d'.users = d.users.set u y) : Ok d' r := by
  have hfind : ∀ v z, d.users.find v = some z → ∃ w, d'.users.find v = some w ∧
      w.server = z.server := by
    intro v z hz
    rw [husers, Registry.find_set]
    split_ifs with hv
    · subst hv
      rw [hx] at hz
      cases hz
      exact ⟨y, by rw [hx]; rfl, hserver⟩
    · exact ⟨z, hz, rfl⟩
  apply h.of_users
  · intro m cu hcu
    obtain ⟨z, hz⟩ := Option.isSome_iff_exists.mp (h.lists.userLive m cu hcu)
    obtain ⟨w, hw, -⟩ := hfind _ z hz
    rw [hw]
    rfl
  · intro m cu hcu
    obtain ⟨z, hz⟩ := Option.isSome_iff_exists.mp (h.lists.userLive m cu hcu)
    obtain ⟨w, hw, hs⟩ := hfind _ z hz
    exact isInternalClient_of_find hz hw hs

theorem Ok.modifyChan (h : Ok d r) (c : ChanId) {f : Channel → Channel}
    (hmembers : ∀ x, (f x).members = x.members) (hnum : ∀ x, (f x).nummembers = x.nummembers)
    (hsvc : ∀ x, (f x).numsvcmembers = x.numsvcmembers) :
    Ok d { r with chans := r.chans.modify c f } := by
  have hfind : ∀ t y, (r.chans.modify c f).find t = some y → ∃ x, r.chans.find t = some x ∧
      y.members = x.members ∧ y.nummembers = x.nummembers ∧ y.numsvcmembers = x.numsvcmembers := by
    intro t y hy
    rw [Registry.find_modify] at hy
    split_ifs at hy
    · rw [Option.map_eq_some_iff] at hy
      obtain ⟨x, hx, rfl⟩ := hy
      exact ⟨x, hx, hmembers x, hnum x, hsvc x⟩
    · exact ⟨y, hy, rfl, rfl, rfl⟩
  refine ⟨⟨fun t y hy => ?_, h.lists.channels, h.lists.unique, fun m cu hcu => ?_,
    h.lists.userLive, h.lists.freshMember, fun t y hy => ?_⟩, fun t y hy => ?_⟩
  · obtain ⟨x, hx, hm, -⟩ := hfind t y hy
    rw [hm]
    exact h.lists.members t x hx
  · have hlive := h.lists.chanLive m cu hcu
    show ((r.chans.modify c f).find cu.chan).isSome = true
    rw [Registry.find_modify]
    split_ifs
    · rw [Option.isSome_map]
      exact hlive
    · exact hlive
  · obtain ⟨x, hx, -⟩ := hfind t y hy
    exact h.lists.freshChan t x hx
  · obtain ⟨x, hx, hm, hn, hs⟩ := hfind t y hy
    rw [hm, hn, hs]
    exact h.counters t x hx

theorem Ok.addStatus (h : Ok d r) (m : MemberId) (modes : Modes) : Ok d (r.addStatus m modes) := by
  have hfind : ∀ m' cu', (r.addStatus m modes).chanusers.find m' = some cu' →
      ∃ cu, r.chanusers.find m' = some cu ∧ cu'.chan = cu.chan ∧ cu'.user = cu.user := by
    intro m' cu' hcu'
    rw [Rooms.addStatus, Registry.find_modify] at hcu'
    split_ifs at hcu'
    · rw [Option.map_eq_some_iff] at hcu'
      obtain ⟨cu, hcu, rfl⟩ := hcu'
      exact ⟨cu, hcu, rfl, rfl⟩
    · exact ⟨cu', hcu', rfl, rfl⟩
  have hkeys : ∀ p : Chanuser → Bool, (∀ x, p { x with modes := x.modes ||| modes } = p x) →
      (r.addStatus m modes).chanusers.keysWhere p = r.chanusers.keysWhere p :=
    fun p hp => Registry.keysWhere_modify fun x _ => hp x
  refine ⟨⟨fun c x hx => ?_, fun u => ?_, ?_, ?_, ?_, ?_, h.lists.freshChan⟩, fun c x hx => ?_⟩
  · rw [hkeys _ fun _ => rfl]
    exact h.lists.members c x hx
  · rw [hkeys _ fun _ => rfl]
    exact h.lists.channels u
  · intro m1 m2 cu1 cu2 h1 h2 hc hu
    obtain ⟨x1, hx1, hc1, hu1⟩ := hfind m1 cu1 h1
    obtain ⟨x2, hx2, hc2, hu2⟩ := hfind m2 cu2 h2
    exact h.lists.unique m1 m2 x1 x2 hx1 hx2 (by rw [← hc1, ← hc2, hc]) (by rw [← hu1, ← hu2, hu])
  · intro m' cu' hcu'
    obtain ⟨x, hx, hc, -⟩ := hfind m' cu' hcu'
    rw [hc]
    exact h.lists.chanLive m' x hx
  · intro m' cu' hcu'
    obtain ⟨x, hx, -, hu⟩ := hfind m' cu' hcu'
    rw [hu]
    exact h.lists.userLive m' x hx
  · intro m' cu' hcu'
    obtain ⟨x, hx, -⟩ := hfind m' cu' hcu'
    exact h.lists.freshMember m' x hx
  · obtain ⟨hnum, hsvc⟩ := h.counters c x hx
    refine ⟨hnum, hsvc.trans ?_⟩
    congr 2
    funext m'
    rw [internalMember, internalMember, Rooms.addStatus, Registry.find_modify]
    split_ifs
    · cases r.chanusers.find m' <;> rfl
    · rfl

end operations
end Rooms
end ChatServices.Network
