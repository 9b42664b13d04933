import ChatServices.Network.RoomsOk

/-! Members that come and go, and channels that are added and deleted. -/
namespace ChatServices.Network
open ChatServices.Lib ChatServices.Text

namespace Rooms
variable {d : Directory} {r r' : Rooms} {c : ChanId} {u : ClientId} {m : MemberId} {cu : Chanuser}
  {irccasecanon : CString → CString} {permMode : Modes} {internal : Bool}

theorem ListsOk.nextMember_free (h : ListsOk d r) : r.chanusers.find r.nextMember = none := by
  cases hcu : r.chanusers.find r.nextMember with
  | none => rfl
  | some cu => exact absurd (h.freshMember _ cu hcu) (Nat.lt_irrefl _)

theorem find_modify_chan {f : Channel → Channel} {t : ChanId} {y : Channel}
    (hy : (r.chans.modify c f).find t = some y) :
    ∃ x, r.chans.find t = some x ∧ y = if t = c then f x else x := by
  rw [Registry.find_modify] at hy
  split_ifs at hy with ht
  · rw [Option.map_eq_some_iff] at hy
    obtain ⟨x, hx, rfl⟩ := hy
    exact ⟨x, hx, by rw [if_pos ht]⟩
  · exact ⟨y, hy, by rw [if_neg ht]⟩

theorem isSome_modify_chan {f : Channel → Channel} {t : ChanId} :
    ((r.chans.modify c f).find t).isSome = (r.chans.find t).isSome := by
  rw [Registry.find_modify]
  split_ifs <;> simp

/-! ### A new member -/

theorem Ok.chanuserInsert (h : Ok d r) (hchan : (r.chans.find c).isSome = true)
    (huser : (d.users.find u).isSome = true) (hnew : ∀ m, ¬r.IsMember m c u) (modes : Modes) :
    Ok d (r.chanuserInsert c u modes (d.isInternalClient u)) := by
  have hfree := h.lists.nextMember_free
  have hfind : ∀ m cu, (r.chanuserInsert c u modes (d.isInternalClient u)).chanusers.find m = some cu →
      r.chanusers.find m = some cu ∨ m = r.nextMember ∧ cu = ⟨c, u, modes⟩ := by
    intro m cu hcu
    rw [Rooms.chanuserInsert, Registry.find_insertNew, Option.or_eq_some_iff] at hcu
    obtain hcu | ⟨-, hcu⟩ := hcu
    · exact .inl hcu
    · split_ifs at hcu with hm
      cases hcu
      exact .inr ⟨hm.symm, rfl⟩
  have hkeys : ∀ p : Chanuser → Bool,
      (r.chanuserInsert c u modes (d.isInternalClient u)).chanusers.keysWhere p =
        r.chanusers.keysWhere p ++ if p ⟨c, u, modes⟩ then [r.nextMember] else [] :=
    fun p => Registry.keysWhere_insertNew hfree
  have hsvc : ∀ m, m ≠ r.nextMember → internalMember d
      (r.chanuserInsert c u modes (d.isInternalClient u)) m = internalMember d r m := by
    intro m hm
    rw [internalMember, Rooms.chanuserInsert, Registry.find_insertNew, if_neg (Ne.symm hm),
      Option.or_none, internalMember]
  have hsvcNew : internalMember d (r.chanuserInsert c u modes (d.isInternalClient u)) r.nextMember =
      d.isInternalClient u := by
    rw [internalMember, Rooms.chanuserInsert, Registry.find_insertNew, hfree, if_pos rfl]
    rfl
  refine ⟨⟨?_, ?_, ?_, ?_, ?_, ?_, ?_⟩, ?_⟩
  · intro t y hy
    obtain ⟨x, hx, rfl⟩ := find_modify_chan hy
    rw [hkeys]
    by_cases ht : t = c
    · rw [if_pos ht, if_pos (by simp [ht]), ← h.lists.members t x hx]
    · rw [if_neg ht, if_neg (by simpa using Ne.symm ht), List.append_nil, h.lists.members t x hx]
  · intro v
    rw [hkeys]
    show (if v = u then r.channels v ++ [r.nextMember] else r.channels v) = _
    by_cases hv : v = u
    · rw [if_pos hv, if_pos (by simp [hv]), ← h.lists.channels v]
    · rw [if_neg hv, if_neg (by simpa using Ne.symm hv), List.append_nil, h.lists.channels v]
  · intro m1 m2 cu1 cu2 h1 h2 hc hu
    obtain h1 | ⟨rfl, rfl⟩ := hfind m1 cu1 h1
    · obtain h2 | ⟨rfl, rfl⟩ := hfind m2 cu2 h2
      · exact h.lists.unique m1 m2 cu1 cu2 h1 h2 hc hu
      · exact absurd ⟨cu1, h1, hc, hu⟩ (hnew m1)
    · obtain h2 | ⟨rfl, rfl⟩ := hfind m2 cu2 h2
      · exact absurd ⟨cu2, h2, hc.symm, hu.symm⟩ (hnew m2)
      · rfl
  · intro m' cu' hcu'
    show ((r.chans.modify c _).find cu'.chan).isSome = true
    rw [isSome_modify_chan]
    obtain hcu' | ⟨-, rfl⟩ := hfind m' cu' hcu'
    · exact h.lists.chanLive m' cu' hcu'
    · exact hchan
  · intro m' cu' hcu'
    obtain hcu' | ⟨-, rfl⟩ := hfind m' cu' hcu'
    · exact h.lists.userLive m' cu' hcu'
    · exact huser
  · intro m' cu' hcu'
    show m' < r.nextMember + 1
    obtain hcu' | ⟨rfl, -⟩ := hfind m' cu' hcu'
    · exact Nat.lt_succ_of_lt (h.lists.freshMember m' cu' hcu')
    · exact Nat.lt_succ_self _
  · intro t y hy
    obtain ⟨x, hx, -⟩ := find_modify_chan hy
    exact h.lists.freshChan t x hx
  · intro t y hy
    obtain ⟨x, hx, rfl⟩ := find_modify_chan hy
    obtain ⟨hnum, hcount⟩ := h.counters t x hx
    have hmem : ∀ m ∈ x.members, internalMember d
        (r.chanuserInsert c u modes (d.isInternalClient u)) m = internalMember d r m := by
      intro m hm
      apply hsvc
      intro he
      rw [h.lists.members t x hx, he] at hm
      obtain ⟨cu, hcu, -⟩ := Registry.mem_keysWhere.mp hm
      rw [hfree] at hcu
      cases hcu
    have hkeep : x.members.countP (internalMember d
        (r.chanuserInsert c u modes (d.isInternalClient u))) = x.members.countP (internalMember d r) :=
      List.countP_congr fun m hm => by rw [hmem m hm]
    split_ifs
    · refine ⟨?_, ?_⟩
      · rw [List.length_append, hnum]
        simp
      · rw [List.countP_append, hkeep, hcount, List.countP_singleton, hsvcNew]
        cases d.isInternalClient u <;> simp [svc]
    · exact ⟨hnum, by rw [hkeep, hcount]⟩

/-! ### A new channel -/

theorem ListsOk.nextChan_free (h : ListsOk d r) : r.chans.find r.nextChan = none := by
  cases hx : r.chans.find r.nextChan with
  | none => rfl
  | some x => exact absurd (h.freshChan _ x hx) (Nat.lt_irrefl _)

theorem Ok.channelAdd (h : Ok d r) {name : CString}
    (hadd : r.channelAdd irccasecanon name = some (r', c)) :
    Ok d r' ∧ r'.chanusers = r.chanusers ∧
      ∀ t x, r.chans.find t = some x → r'.chans.find t = some x := by
  rw [Rooms.channelAdd] at hadd
  split_ifs at hadd
  cases hf : r.channelFind irccasecanon name with
  | some c' =>
    rw [hf] at hadd
    cases hadd
    exact ⟨h, rfl, fun _ _ hx => hx⟩
  | none =>
    rw [hf] at hadd
    cases hadd
    have hfree := h.lists.nextChan_free
    have hempty := h.lists.members_eq r.nextChan
    rw [Rooms.members, hfree, Option.map_none, Option.getD_none] at hempty
    have hfind : ∀ t y, (r.chans.insertNew r.nextChan ⟨name, 0, [], 0, 0⟩).find t = some y →
        r.chans.find t = some y ∨ t = r.nextChan ∧ y = ⟨name, 0, [], 0, 0⟩ := by
      intro t y hy
      rw [Registry.find_insertNew, Option.or_eq_some_iff] at hy
      obtain hy | ⟨-, hy⟩ := hy
      · exact .inl hy
      · split_ifs at hy with ht
        cases hy
        exact .inr ⟨ht.symm, rfl⟩
    have hkeep : ∀ t x, r.chans.find t = some x →
        (r.chans.insertNew r.nextChan ⟨name, 0, [], 0, 0⟩).find t = some x := by
      intro t x hx
      rw [Registry.find_insertNew, hx, Option.some_or]
    refine ⟨⟨⟨fun t y hy => ?_, h.lists.channels, h.lists.unique, fun m cu hcu => ?_,
      h.lists.userLive, h.lists.freshMember, fun t y hy => ?_⟩, fun t y hy => ?_⟩, rfl, hkeep⟩
    · obtain hy | ⟨rfl, rfl⟩ := hfind t y hy
      · exact h.lists.members t y hy
      · exact hempty
    · obtain ⟨x, hx⟩ := Option.isSome_iff_exists.mp (h.lists.chanLive m cu hcu)
      exact Option.isSome_iff_exists.mpr ⟨x, hkeep _ x hx⟩
    · show t < r.nextChan + 1
      obtain hy | ⟨rfl, -⟩ := hfind t y hy
      · exact Nat.lt_succ_of_lt (h.lists.freshChan t y hy)
      · exact Nat.lt_succ_self _
    · obtain hy | ⟨-, rfl⟩ := hfind t y hy
      · exact h.counters t y hy
      · exact ⟨rfl, rfl⟩

/-! ### A member less -/

theorem unlink_eq (hcu : r.chanusers.find m = some cu) : r.unlink m =
    { r with
      chans := r.chans.modify cu.chan fun x => { x with members := x.members.erase m }
      chanusers := r.chanusers.erase m
      channels := fun v => if v = cu.user then (r.channels v).erase m else r.channels v } := by
  simp only [unlink, hcu]

theorem find_erase_member {m' : MemberId} {cu' : Chanuser}
    (hcu' : (r.chanusers.erase m).find m' = some cu') :
    m' ≠ m ∧ r.chanusers.find m' = some cu' := by
  rw [Registry.find_erase] at hcu'
  split_ifs at hcu' with hm
  exact ⟨hm, hcu'⟩

theorem keysWhere_erase_other {p : Chanuser → Bool} (hcu : r.chanusers.find m = some cu)
    (hp : p cu = false) : (r.chanusers.erase m).keysWhere p = r.chanusers.keysWhere p := by
  rw [Registry.keysWhere_erase]
  apply List.erase_of_not_mem
  intro hm
  obtain ⟨cu', hcu', hp'⟩ := Registry.mem_keysWhere.mp hm
  rw [hcu] at hcu'
  cases hcu'
  rw [hp] at hp'
  cases hp'

theorem ListsOk.unlink (h : ListsOk d r) (hcu : r.chanusers.find m = some cu) :
    ListsOk d (r.unlink m) := by
  rw [unlink_eq hcu]
  refine ⟨?_, ?_, ?_, ?_, ?_, ?_, ?_⟩
  · intro t y hy
    obtain ⟨x, hx, rfl⟩ := find_modify_chan hy
    by_cases ht : t = cu.chan
    · rw [if_pos ht, Registry.keysWhere_erase, ← h.members t x hx]
    · rw [if_neg ht, keysWhere_erase_other hcu (by simpa using Ne.symm ht), h.members t x hx]
  · intro v
    show (if v = cu.user then (r.channels v).erase m else r.channels v) = _
    by_cases hv : v = cu.user
    · rw [if_pos hv, Registry.keysWhere_erase, ← h.channels v]
    · rw [if_neg hv, keysWhere_erase_other hcu (by simpa using Ne.symm hv), h.channels v]
  · intro m1 m2 cu1 cu2 h1 h2 hc hu
    exact h.unique m1 m2 cu1 cu2 (find_erase_member h1).2 (find_erase_member h2).2 hc hu
  · intro m' cu' hcu'
    show ((r.chans.modify cu.chan _).find cu'.chan).isSome = true
    rw [isSome_modify_chan]
    exact h.chanLive m' cu' (find_erase_member hcu').2
  · exact fun m' cu' hcu' => h.userLive m' cu' (find_erase_member hcu').2
  · exact fun m' cu' hcu' => h.freshMember m' cu' (find_erase_member hcu').2
  · intro t y hy
    obtain ⟨x, hx, -⟩ := find_modify_chan hy
    exact h.freshChan t x hx

theorem find_unlink_other (hcu : r.chanusers.find m = some cu) {t : ChanId} (ht : t ≠ cu.chan) :
    (r.unlink m).chans.find t = r.chans.find t := by
  rw [unlink_eq hcu]
  show (r.chans.modify cu.chan _).find t = _
  rw [Registry.find_modify, if_neg ht]

theorem internalMember_unlink (hcu : r.chanusers.find m = some cu) {m' : MemberId} (hm : m' ≠ m) :
    internalMember d (r.unlink m) m' = internalMember d r m' := by
  rw [unlink_eq hcu, internalMember, Registry.find_erase, if_neg hm, internalMember]

theorem CountersOk.unlink (hl : ListsOk d r) (hcu : r.chanusers.find m = some cu) {t : ChanId}
    (ht : t ≠ cu.chan) (h : CountersOk d r t) : CountersOk d (r.unlink m) t := by
  intro x hx
  rw [find_unlink_other hcu ht] at hx
  obtain ⟨hnum, hsvc⟩ := h x hx
  refine ⟨hnum, hsvc.trans ?_⟩
  congr 1
  apply List.countP_congr
  intro m' hm'
  have hne : m' ≠ m := by
    intro he
    rw [hl.members t x hx, he] at hm'
    obtain ⟨cu', hcu', hc⟩ := Registry.mem_keysWhere.mp hm'
    rw [hcu] at hcu'
    cases hcu'
    exact ht (of_decide_eq_true hc).symm
  rw [internalMember_unlink hcu hne]

/-! ### The end of a channel -/

theorem ListsOk.unlinkAll (h : ListsOk d r) (c : ChanId)
    (hcounters : ∀ t, t ≠ c → CountersOk d r t) :
    ListsOk d ((r.members c).foldl Rooms.unlink r) ∧
      ((r.members c).foldl Rooms.unlink r).members c = [] ∧
      (∀ t, t ≠ c → CountersOk d ((r.members c).foldl Rooms.unlink r) t) ∧
      (∀ t, t ≠ c → ((r.members c).foldl Rooms.unlink r).chans.find t = r.chans.find t) := by
  generalize hms : r.members c = ms
  induction ms generalizing r with
  | nil => exact ⟨h, hms, hcounters, fun _ _ => rfl⟩
  | cons m ms ih =>
    have hmem : m ∈ r.members c := hms ▸ List.mem_cons_self ..
    obtain ⟨cu, hcu, hc⟩ := h.mem_members.mp hmem
    have hrest : (r.unlink m).members c = ms := by
      rw [(h.unlink hcu).members_eq, unlink_eq hcu, Registry.keysWhere_erase, ← h.members_eq, hms,
        List.erase_cons_head]
    obtain ⟨hlists, hempty, hcount, hsame⟩ := ih (h.unlink hcu)
      (fun t ht => (hcounters t ht).unlink h hcu (hc ▸ ht)) hrest
    refine ⟨hlists, hempty, hcount, fun t ht => ?_⟩
    rw [List.foldl_cons, hsame t ht, find_unlink_other hcu (hc ▸ ht)]

theorem channelDelete_eq {x : Channel} (hx : r.chans.find c = some x) :
    r.channelDelete irccasecanon c =
      { (r.members c).foldl Rooms.unlink r with
        chans := ((r.members c).foldl Rooms.unlink r).chans.erase c
        chanlist := ((r.members c).foldl Rooms.unlink r).chanlist.erase (irccasecanon x.name) } := by
  simp only [channelDelete, hx, Rooms.members, Option.map_some, Option.getD_some]

theorem Ok.channelDelete (h : Ok d r) (c : ChanId) : Ok d (r.channelDelete irccasecanon c) := by
  cases hx : r.chans.find c with
  | none =>
    simp only [Rooms.channelDelete, hx]
    exact h
  | some x =>
    obtain ⟨hlists, hempty, hcount, hsame⟩ := h.lists.unlinkAll c fun t _ => h.counters t
    rw [channelDelete_eq hx]
    generalize (r.members c).foldl Rooms.unlink r = s at hlists hempty hcount hsame
    have hother : ∀ m cu, s.chanusers.find m = some cu → cu.chan ≠ c := by
      intro m cu hcu hc
      have hmem := hlists.mem_members.mpr ⟨cu, hcu, hc⟩
      rw [hempty] at hmem
      cases hmem
    have hfind : ∀ t y, (s.chans.erase c).find t = some y → t ≠ c ∧ s.chans.find t = some y := by
      intro t y hy
      rw [Registry.find_erase] at hy
      split_ifs at hy with ht
      exact ⟨ht, hy⟩
    refine ⟨⟨fun t y hy => ?_, hlists.channels, hlists.unique, fun m cu hcu => ?_,
      hlists.userLive, hlists.freshMember, fun t y hy => ?_⟩, fun t y hy => ?_⟩
    · exact hlists.members t y (hfind t y hy).2
    · show ((s.chans.erase c).find cu.chan).isSome = true
      rw [Registry.find_erase, if_neg (hother m cu hcu)]
      exact hlists.chanLive m cu hcu
    · exact hlists.freshChan t y (hfind t y hy).2
    · obtain ⟨ht, hy⟩ := hfind t y hy
      exact hcount t ht y hy

/-! ### Emptied channels die -/

def Dies (permMode : Modes) (r r' : Rooms) : Prop :=
  ∀ c x', r'.chans.find c = some x' → ∃ x, r.chans.find c = some x ∧ x'.modes = x.modes ∧
    (x'.members = [] → x.members ≠ [] → x'.modes &&& permMode ≠ 0)

theorem Dies.of_chans (h : r'.chans = r.chans) : Dies permMode r r' := by
  intro c x hx
  rw [h] at hx
  exact ⟨x, hx, rfl, fun he hne => absurd he hne⟩

theorem Dies.trans {r'' : Rooms} (h : Dies permMode r r') (h' : Dies permMode r' r'') :
    Dies permMode r r'' := by
  intro c x'' hx''
  obtain ⟨x', hx', hmodes', hdies'⟩ := h' c x'' hx''
  obtain ⟨x, hx, hmodes, hdies⟩ := h c x' hx'
  refine ⟨x, hx, hmodes'.trans hmodes, fun hempty hne => ?_⟩
  by_cases hmid : x'.members = []
  · rw [hmodes']
    exact hdies hmid hne
  · exact hdies' hempty hmid

theorem Dies.channelDelete (h : Ok d r) (c : ChanId) :
    Dies permMode r (r.channelDelete irccasecanon c) := by
  cases hx : r.chans.find c with
  | none =>
    simp only [Rooms.channelDelete, hx]
    exact .of_chans rfl
  | some x =>
    obtain ⟨-, -, -, hsame⟩ := h.lists.unlinkAll c fun t _ => h.counters t
    rw [channelDelete_eq hx]
    intro t y hy
    simp only [Registry.find_erase] at hy
    split_ifs at hy with ht
    rw [hsame t ht] at hy
    exact ⟨y, hy, rfl, fun he hne => absurd he hne⟩

/-- `chanuser_delete` behind the hooks, before it looks whether the channel is empty. -/
def dropMember (r : Rooms) (c : ChanId) (m : MemberId) (internal : Bool) : Rooms :=
  { r.unlink m with chans := (r.unlink m).chans.modify c fun x =>
    { x with
      nummembers := x.nummembers - 1
      numsvcmembers := x.numsvcmembers - svc internal } }

theorem find_dropMember (hcu : r.chanusers.find m = some cu) {t : ChanId} {y : Channel}
    (hy : (r.dropMember cu.chan m internal).chans.find t = some y) :
    ∃ x, r.chans.find t = some x ∧ y.modes = x.modes ∧
      y.members = (if t = cu.chan then x.members.erase m else x.members) ∧
      y.nummembers = (if t = cu.chan then x.nummembers - 1 else x.nummembers) ∧
      y.numsvcmembers = (if t = cu.chan then x.numsvcmembers - svc internal else x.numsvcmembers) := by
  obtain ⟨z, hz, rfl⟩ := find_modify_chan (r := r.unlink m) hy
  rw [unlink_eq hcu] at hz
  obtain ⟨x, hx, rfl⟩ := find_modify_chan hz
  refine ⟨x, hx, ?_⟩
  split_ifs
  · exact ⟨rfl, rfl, rfl, rfl⟩
  · exact ⟨rfl, rfl, rfl, rfl⟩

theorem Ok.dropMember (h : Ok d r) (hcu : r.chanusers.find m = some cu) :
    Ok d (r.dropMember cu.chan m (d.isInternalClient cu.user)) := by
  have hl := h.lists.unlink hcu
  have hchanusers : (r.dropMember cu.chan m (d.isInternalClient cu.user)).chanusers =
      (r.unlink m).chanusers := rfl
  refine ⟨⟨fun t y hy => ?_, hl.channels, hl.unique, fun m' cu' hcu' => ?_, hl.userLive,
    hl.freshMember, fun t y hy => ?_⟩, fun t y hy => ?_⟩
  · obtain ⟨z, hz, rfl⟩ := find_modify_chan (r := r.unlink m) hy
    rw [hchanusers, ← hl.members t z hz]
    split_ifs <;> rfl
  · show (((r.unlink m).chans.modify cu.chan _).find cu'.chan).isSome = true
    rw [isSome_modify_chan]
    exact hl.chanLive m' cu' hcu'
  · obtain ⟨z, hz, -⟩ := find_modify_chan (r := r.unlink m) hy
    exact hl.freshChan t z hz
  · by_cases ht : t = cu.chan
    · subst ht
      obtain ⟨x, hx, -, hmembers, hnum, hsvc⟩ := find_dropMember hcu hy
      rw [if_pos rfl] at hmembers hnum hsvc
      obtain ⟨hlen, hcount⟩ := h.counters _ x hx
      have hmem : m ∈ x.members := by
        rw [h.lists.members _ x hx, Registry.mem_keysWhere]
        exact ⟨cu, hcu, by simp⟩
      have hnodup : x.members.Nodup := by
        rw [h.lists.members _ x hx]
        exact Registry.nodup_keysWhere
      have hint : internalMember d r m = d.isInternalClient cu.user := by
        rw [internalMember, hcu]
        rfl
      have hkeep : (x.members.erase m).countP (internalMember d (r.unlink m)) =
          (x.members.erase m).countP (internalMember d r) := by
        apply List.countP_congr
        intro m' hm'
        rw [internalMember_unlink hcu ((List.Nodup.mem_erase_iff hnodup).mp hm').1]
      refine ⟨?_, ?_⟩
      · rw [hnum, hmembers, hlen, length_erase_int hmem]
      · have hbits : svc (d.isInternalClient cu.user) = Census.bit (internalMember d r m) := by
          rw [hint]
          rfl
        rw [hsvc, hmembers, hcount, hbits]
        show _ = (((x.members.erase m).countP (internalMember d (r.unlink m)) : Nat) : Int)
        rw [hkeep, countP_erase_int hmem]
    · have hold := (h.counters t).unlink h.lists hcu ht
      obtain ⟨z, hz, rfl⟩ := find_modify_chan (r := r.unlink m) hy
      rw [if_neg ht]
      exact hold z hz

variable (irccasecanon permMode) in
theorem Ok.chanuserRemove (h : Ok d r) (hcu : r.chanusers.find m = some cu) :
    Ok d (r.chanuserRemove irccasecanon permMode cu.chan m (d.isInternalClient cu.user)) ∧
      (r.chanuserRemove irccasecanon permMode cu.chan m (d.isInternalClient cu.user)).chanusers =
        r.chanusers.erase m ∧
      Dies permMode r
        (r.chanuserRemove irccasecanon permMode cu.chan m (d.isInternalClient cu.user)) := by
  have hdrop := h.dropMember hcu
  have hchanusers : (r.dropMember cu.chan m (d.isInternalClient cu.user)).chanusers =
      r.chanusers.erase m := by
    show (r.unlink m).chanusers = _
    rw [unlink_eq hcu]
  have heq : r.chanuserRemove irccasecanon permMode cu.chan m (d.isInternalClient cu.user) =
      if ((r.dropMember cu.chan m (d.isInternalClient cu.user)).chans.find cu.chan).any fun x =>
          x.nummembers = 0 && x.modes &&& permMode = 0 then
        (r.dropMember cu.chan m (d.isInternalClient cu.user)).channelDelete irccasecanon cu.chan
      else r.dropMember cu.chan m (d.isInternalClient cu.user) := rfl
  rw [heq]
  split_ifs with hdead
  · -- the channel is empty: deleting it touches no membership
    have hempty : (r.dropMember cu.chan m (d.isInternalClient cu.user)).members cu.chan = [] := by
      cases hy : (r.dropMember cu.chan m (d.isInternalClient cu.user)).chans.find cu.chan with
      | none => simp [Rooms.members, hy]
      | some y =>
        rw [hy] at hdead
        have hzero : y.nummembers = 0 := by
          simp only [Option.any_some, Bool.and_eq_true, decide_eq_true_eq] at hdead
          exact hdead.1
        have hlen := (hdrop.counters _ y hy).1
        rw [Rooms.members, hy, Option.map_some, Option.getD_some]
        apply List.eq_nil_of_length_eq_zero
        omega
    refine ⟨hdrop.channelDelete cu.chan, ?_, ?_⟩
    · cases hy : (r.dropMember cu.chan m (d.isInternalClient cu.user)).chans.find cu.chan with
      | none =>
        simp only [Rooms.channelDelete, hy]
        exact hchanusers
      | some y =>
        rw [channelDelete_eq hy, hempty]
        exact hchanusers
    · intro t y hy
      by_cases ht : t = cu.chan
      · subst ht
        cases hz : (r.dropMember cu.chan m (d.isInternalClient cu.user)).chans.find cu.chan with
        | none =>
          simp only [Rooms.channelDelete, hz] at hy
          cases hy
        | some z =>
          rw [channelDelete_eq hz] at hy
          simp [Registry.find_erase] at hy
      · have hdel : Dies permMode (r.dropMember cu.chan m (d.isInternalClient cu.user))
            (Rooms.channelDelete irccasecanon _ cu.chan) := Dies.channelDelete hdrop cu.chan
        obtain ⟨z, hz, hmodes, hdies⟩ := hdel t y hy
        obtain ⟨x, hx, hmodes', hmembers, -, -⟩ := find_dropMember hcu hz
        rw [if_neg ht] at hmembers
        exact ⟨x, hx, hmodes.trans hmodes', fun he hne => hdies he (hmembers ▸ hne)⟩
  · refine ⟨hdrop, hchanusers, fun t y hy => ?_⟩
    obtain ⟨x, hx, hmodes, hmembers, -, -⟩ := find_dropMember hcu hy
    refine ⟨x, hx, hmodes, fun he hne => ?_⟩
    by_cases ht : t = cu.chan
    · subst ht
      have hnum := (hdrop.counters _ y hy).1
      rw [he] at hnum
      intro hperm
      apply hdead
      rw [hy, Option.any_some]
      simp [hnum, hperm]
    · rw [if_neg ht] at hmembers
      exact absurd (hmembers ▸ he) hne

/-! ### What the next state may do with a channel that has members -/

def Grows (r r' : Rooms) : Prop :=
  ∀ c x, r.chans.find c = some x → x.members ≠ [] →
    ∃ x', r'.chans.find c = some x' ∧ x'.members ≠ []

def EmptiedDie (permMode : Modes) (r r' : Rooms) : Prop :=
  ∀ c x x', r.chans.find c = some x → x.members ≠ [] → r'.chans.find c = some x' →
    x'.members = [] → x'.modes &&& permMode ≠ 0

theorem Grows.of_chans (h : r'.chans = r.chans) : Grows r r' := by
  intro c x hx hne
  exact ⟨x, by rw [h, hx], hne⟩

theorem Grows.trans {r'' : Rooms} (h : Grows r r') (h' : Grows r' r'') : Grows r r'' := by
  intro c x hx hne
  obtain ⟨x', hx', hne'⟩ := h c x hx hne
  exact h' c x' hx' hne'

theorem Grows.modifyChan (c : ChanId) {f : Channel → Channel}
    (hmembers : ∀ x, x.members ≠ [] → (f x).members ≠ []) :
    Grows r { r with chans := r.chans.modify c f } := by
  intro t x hx hne
  show ∃ x', (r.chans.modify c f).find t = some x' ∧ _
  rw [Registry.find_modify]
  split_ifs with ht
  · exact ⟨f x, by rw [hx, Option.map_some], hmembers x hne⟩
  · exact ⟨x, hx, hne⟩

theorem Grows.chanuserInsert (modes : Modes) (internal : Bool) :
    Grows r (r.chanuserInsert c u modes internal) := by
  have h : Grows r { r with chans := r.chans.modify c fun x =>
      { x with
        members := x.members ++ [r.nextMember]
        nummembers := x.nummembers + 1
        numsvcmembers := x.numsvcmembers + svc internal } } := by
    apply Grows.modifyChan
    intro x _
    simp
  exact h

theorem Grows.emptiedDie (h : Grows r r') (permMode : Modes) : EmptiedDie permMode r r' := by
  intro c x x' hx hne hx' hempty
  obtain ⟨y, hy, hney⟩ := h c x hx hne
  rw [hx'] at hy
  cases hy
  exact absurd hempty hney

theorem Dies.emptiedDie {permMode : Modes} (h : Dies permMode r r') : EmptiedDie permMode r r' := by
  intro c x x' hx hne hx' hempty
  obtain ⟨y, hy, -, hdies⟩ := h c x' hx'
  rw [hx] at hy
  cases hy
  exact hdies hempty hne

end Rooms
end ChatServices.Network
