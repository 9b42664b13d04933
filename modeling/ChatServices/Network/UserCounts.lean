import ChatServices.Network.Counters
import ChatServices.Network.Servers

/-! The counters of the servers over whole runs. They are right as long as no flag is set or
cleared behind their back: by an enforcer, a service, or the loss of an oper's flag. -/
namespace ChatServices.Network
open ChatServices.Lib ChatServices.Lib.Run ChatServices.Text

structure Placed (d : Directory) (c : Census) : Prop where
  homes : ∀ u x, d.users.find u = some x → (c.servers.find x.server).isSome = true
  lists : ∀ s x, c.servers.find s = some x → x.userlist = usersOn d s
  own : (c.servers.find me).isSome = true
  fresh : ∀ s x, c.servers.find s = some x → s < c.next
  upwards : Upwards c

section placed
variable {d : Directory} {c c' : Census} {s : ServerId} {u : ClientId} {x : User}
  {irccasecanon : CString → CString}

theorem isSome_modify {r : Registry ServerId Server} {f : Server → Server} {t : ServerId} :
    ((r.modify s f).find t).isSome = (r.find t).isSome := by
  rw [Registry.find_modify]
  split_ifs <;> simp

theorem find_enter {t : ServerId} {y : Server} (hy : (c.enter s u).servers.find t = some y) :
    ∃ z, c.servers.find t = some z ∧ y.userlist = z.userlist ++ if t = s then [u] else [] := by
  simp only [Census.enter, Registry.find_modify, find_tally] at hy
  split_ifs at hy with ht
  · simp only [Option.map_map, Option.map_eq_some_iff, Function.comp_apply] at hy
    obtain ⟨z, hz, rfl⟩ := hy
    exact ⟨z, hz, by rw [if_pos ht]⟩
  · exact ⟨y, hy, by rw [if_neg ht, List.append_nil]⟩

theorem find_leave {t : ServerId} {y : Server} (hy : (c.leave s u).servers.find t = some y) :
    ∃ z, c.servers.find t = some z ∧
      y.userlist = if t = s then z.userlist.erase u else z.userlist := by
  simp only [Census.leave, Registry.find_modify, find_tally] at hy
  split_ifs at hy with ht
  · simp only [Option.map_map, Option.map_eq_some_iff, Function.comp_apply] at hy
    obtain ⟨z, hz, rfl⟩ := hy
    exact ⟨z, hz, by rw [if_pos ht]⟩
  · exact ⟨y, hy, by rw [if_neg ht]⟩

theorem isSome_enter {t : ServerId} :
    ((c.enter s u).servers.find t).isSome = (c.servers.find t).isSome := by
  simp only [Census.enter, Census.tally, isSome_modify, Census.setFlags]

theorem isSome_leave {t : ServerId} :
    ((c.leave s u).servers.find t).isSome = (c.servers.find t).isSome := by
  simp only [Census.leave, Census.tally, isSome_modify]

theorem find_start {name : CString} {t : ServerId} {y : Server}
    (hy : (Census.start name).servers.find t = some y) :
    t = me ∧ y = Census.newServer name none := by
  rw [Census.start, Registry.find_insertNew, Registry.find_empty, Option.none_or] at hy
  split_ifs at hy with ht
  exact ⟨ht.symm, (Option.some.inj hy).symm⟩

theorem placed_start (name : CString) : Placed Directory.empty (Census.start name) := by
  refine ⟨?_, ?_, rfl, ?_, ?_⟩
  · intro u x hx
    simp [Directory.empty] at hx
  · intro t y hy
    obtain ⟨-, rfl⟩ := find_start hy
    rfl
  · intro t y hy
    obtain ⟨rfl, -⟩ := find_start hy
    exact Nat.zero_lt_one
  · intro t y v hy hv
    obtain ⟨-, rfl⟩ := find_start hy
    cases hv

theorem Placed.enter (h : Placed d c) (hnext : d.users.find d.next = none)
    (hserver : (c.servers.find x.server).isSome = true) :
    Placed (d.insert irccasecanon x) (c.enter x.server d.next) := by
  refine ⟨fun u y hy => ?_, fun t y hy => ?_, ?_, fun t y hy => ?_, ?_⟩
  · rw [isSome_enter]
    rw [Directory.insert, Registry.find_insertNew, Option.or_eq_some_iff] at hy
    obtain hy | ⟨-, hy⟩ := hy
    · exact h.homes u y hy
    · split_ifs at hy
      cases hy
      exact hserver
  · obtain ⟨z, hz, hlist⟩ := find_enter hy
    rw [hlist, h.lists t z hz, usersOn_insert hnext]
    simp only [eq_comm]
  · rw [isSome_enter]
    exact h.own
  · obtain ⟨z, hz, -⟩ := find_enter hy
    exact h.fresh t z hz
  · exact Census.upwards_enter h.upwards

theorem Placed.leave (h : Placed d c) (hx : d.users.find u = some x) :
    Placed (d.remove irccasecanon u x) (c.leave x.server u) := by
  refine ⟨fun v y hy => ?_, fun t y hy => ?_, ?_, fun t y hy => ?_, ?_⟩
  · rw [isSome_leave]
    rw [Directory.remove, Registry.find_erase] at hy
    split_ifs at hy
    exact h.homes v y hy
  · obtain ⟨z, hz, hlist⟩ := find_leave hy
    rw [hlist, h.lists t z hz, usersOn_remove]
    split_ifs with ht
    · rfl
    · symm
      apply List.erase_of_not_mem
      intro hu
      obtain ⟨y', hy', hserver⟩ := mem_usersOn.mp hu
      rw [hx] at hy'
      cases hy'
      exact ht hserver.symm
  · rw [isSome_leave]
    exact h.own
  · obtain ⟨z, hz, -⟩ := find_leave hy
    exact h.fresh t z hz
  · exact Census.upwards_leave h.upwards

theorem Placed.of_same {d' : Directory} (h : Placed d c)
    (hhomes : ∀ u y, d'.users.find u = some y → ∃ x, d.users.find u = some x ∧ y.server = x.server)
    (husers : ∀ s, usersOn d' s = usersOn d s) : Placed d' c := by
  refine ⟨fun u y hy => ?_, fun s x hx => ?_, h.own, h.fresh, h.upwards⟩
  · obtain ⟨x, hx, hserver⟩ := hhomes u y hy
    rw [hserver]
    exact h.homes u x hx
  · rw [husers, h.lists s x hx]

theorem Placed.rename (h : Placed d c) (hx : d.users.find u = some x) (nick : CString) (ts : Int) :
    Placed (d.rename irccasecanon u x nick ts) c := by
  apply h.of_same
  · intro v y hy
    rw [Directory.rename, Registry.find_set] at hy
    split_ifs at hy with hv
    · subst hv
      rw [hx] at hy
      cases hy
      exact ⟨x, hx, rfl⟩
    · exact ⟨y, hy, rfl⟩
  · exact fun s => usersOn_rename hx nick ts

theorem Placed.userMode (h : Placed d c) (userModeList : List (Char × Flags)) (modes : CString) :
    Placed d (c.userMode userModeList s u modes) := by
  have hfind : ∀ t y, (c.userMode userModeList s u modes).servers.find t = some y →
      ∃ z, c.servers.find t = some z ∧ y.userlist = z.userlist := by
    intro t y hy
    simp only [Census.userMode, find_tally] at hy
    split_ifs at hy
    · simp only [Option.map_eq_some_iff] at hy
      obtain ⟨z, hz, rfl⟩ := hy
      exact ⟨z, hz, rfl⟩
    · exact ⟨y, hy, rfl⟩
  have hsome : ∀ t, ((c.userMode userModeList s u modes).servers.find t).isSome =
      (c.servers.find t).isSome := fun t => isSome_modify
  refine ⟨fun u y hy => ?_, fun t y hy => ?_, ?_, fun t y hy => ?_, ?_⟩
  · rw [hsome]
    exact h.homes u y hy
  · obtain ⟨z, hz, hlist⟩ := hfind t y hy
    rw [hlist, h.lists t z hz]
  · rw [hsome]
    exact h.own
  · obtain ⟨z, hz, -⟩ := hfind t y hy
    exact h.fresh t z hz
  · exact Census.upwards_tally h.upwards

theorem find_addServer {name : CString} {t : ServerId} {y : Server}
    (hy : (c.addServer name s).servers.find t = some y) :
    (∃ z, c.servers.find t = some z ∧ y.userlist = z.userlist ∧ y.users = z.users ∧
      y.opers = z.opers ∧ y.invis = z.invis) ∨
    t = c.next ∧ y.userlist = [] ∧ y.users = 0 ∧ y.opers = 0 ∧ y.invis = 0 := by
  have hold : ∀ x, (c.servers.find t).or (if c.next = t then some (Census.newServer name (some s))
      else none) = some x → c.servers.find t = some x ∨
        t = c.next ∧ x = Census.newServer name (some s) := by
    intro x hx
    rw [Option.or_eq_some_iff] at hx
    obtain hx | ⟨-, hx⟩ := hx
    · exact .inl hx
    · split_ifs at hx with ht
      cases hx
      exact .inr ⟨ht.symm, rfl⟩
  simp only [Census.addServer, Registry.find_modify, Registry.find_insertNew] at hy
  by_cases ht : t = s
  · rw [if_pos ht, Option.map_eq_some_iff] at hy
    obtain ⟨x, hx, rfl⟩ := hy
    obtain hx | ⟨hn, rfl⟩ := hold x hx
    · exact .inl ⟨x, hx, rfl, rfl, rfl, rfl⟩
    · exact .inr ⟨hn, rfl, rfl, rfl, rfl⟩
  · rw [if_neg ht] at hy
    obtain hx | ⟨hn, rfl⟩ := hold y hy
    · exact .inl ⟨y, hx, rfl, rfl, rfl, rfl⟩
    · exact .inr ⟨hn, rfl, rfl, rfl, rfl⟩

theorem Placed.next_empty (h : Placed d c) : usersOn d c.next = [] := by
  apply List.eq_nil_iff_forall_not_mem.mpr
  intro u hu
  obtain ⟨x, hx, hserver⟩ := mem_usersOn.mp hu
  have hsome := h.homes u x hx
  rw [hserver, Option.isSome_iff_exists] at hsome
  obtain ⟨y, hy⟩ := hsome
  exact absurd (h.fresh _ y hy) (Nat.lt_irrefl _)

theorem Placed.addServer (h : Placed d c) (hs : (c.servers.find s).isSome = true)
    (name : CString) : Placed d (c.addServer name s) := by
  have hsome : ∀ t, (c.servers.find t).isSome = true →
      ((c.addServer name s).servers.find t).isSome = true := by
    intro t ht
    show (((c.servers.insertNew c.next (Census.newServer name (some s))).modify s _).find t).isSome = _
    rw [Registry.find_modify, Registry.find_insertNew]
    obtain ⟨y, hy⟩ := Option.isSome_iff_exists.mp ht
    rw [hy]
    split_ifs <;> simp
  refine ⟨fun u y hy => hsome _ (h.homes u y hy), fun t y hy => ?_, hsome me h.own,
    fun t y hy => ?_, ?_⟩
  · obtain ⟨z, hz, hlist, -⟩ | ⟨ht, hlist, -⟩ := find_addServer hy
    · rw [hlist, h.lists t z hz]
    · rw [hlist, ht, h.next_empty]
  · show t < c.next + 1
    obtain ⟨z, hz, -⟩ | ⟨ht, -⟩ := find_addServer hy
    · exact Nat.lt_succ_of_lt (h.fresh t z hz)
    · exact ht ▸ Nat.lt_succ_self _
  · obtain ⟨y, hy⟩ := Option.isSome_iff_exists.mp hs
    exact Census.upwards_addServer h.upwards (h.fresh s y hy)

theorem Counted.addServer (h : Counted d c) (hp : Placed d c) (name : CString) :
    Counted d (c.addServer name s) := by
  have hnone : ∀ flag, flagged d c flag c.next = 0 := fun flag => by
    rw [flagged, hp.next_empty, List.countP_nil]
  refine ⟨fun t y hy => ?_, fun t y hy => ?_, fun t y hy => ?_, h.noUnderflow⟩
  · obtain ⟨z, hz, -, hu, -⟩ | ⟨ht, -, hu, -⟩ := find_addServer hy
    · rw [hu, h.users t z hz]
    · rw [hu, ht, hp.next_empty]
      rfl
  · obtain ⟨z, hz, -, -, ho, -⟩ | ⟨ht, -, -, ho, -⟩ := find_addServer hy
    · rw [ho, h.opers t z hz]
      rfl
    · have hzero := hnone UF_IRCOP
      rw [ho, ht]
      show (0 : Int) = flagged d c UF_IRCOP c.next
      rw [hzero]
      rfl
  · obtain ⟨z, hz, -, -, -, hi⟩ | ⟨ht, -, -, -, hi⟩ := find_addServer hy
    · rw [hi, h.invis t z hz]
      rfl
    · have hzero := hnone UF_INVIS
      rw [hi, ht]
      show (0 : Int) = flagged d c UF_INVIS c.next
      rw [hzero]
      rfl

theorem find_dropServer {t : ServerId} {y : Server}
    (hy : (c.dropServer s).servers.find t = some y) :
    t ≠ s ∧ ∃ z, c.servers.find t = some z ∧ y.userlist = z.userlist ∧ y.users = z.users ∧
      y.opers = z.opers ∧ y.invis = z.invis := by
  rw [Census.dropServer] at hy
  cases hup : (c.servers.find s).bind Server.uplink with
  | none =>
    simp only [hup, Registry.find_erase] at hy
    split_ifs at hy with ht
    exact ⟨ht, y, hy, rfl, rfl, rfl, rfl⟩
  | some up =>
    simp only [hup, Registry.find_erase, Registry.find_modify] at hy
    split_ifs at hy with ht htu
    · rw [Option.map_eq_some_iff] at hy
      obtain ⟨z, hz, rfl⟩ := hy
      exact ⟨ht, z, hz, rfl, rfl, rfl, rfl⟩
    · exact ⟨ht, y, hy, rfl, rfl, rfl, rfl⟩

theorem isSome_dropServer {t : ServerId} (ht : t ≠ s) :
    ((c.dropServer s).servers.find t).isSome = (c.servers.find t).isSome := by
  rw [Census.dropServer]
  cases (c.servers.find s).bind Server.uplink with
  | none => rw [Registry.find_erase, if_neg ht]
  | some up => rw [Registry.find_erase, if_neg ht, isSome_modify]

theorem Placed.dropServer (h : Placed d c) (hs : s ≠ me) (hempty : usersOn d s = []) :
    Placed d (c.dropServer s) := by
  refine ⟨fun u y hy => ?_, fun t y hy => ?_, ?_, fun t y hy => ?_, ?_⟩
  · have hne : y.server ≠ s := by
      intro he
      have hmem := mem_usersOn.mpr ⟨y, hy, he⟩
      rw [hempty] at hmem
      cases hmem
    rw [isSome_dropServer hne]
    exact h.homes u y hy
  · obtain ⟨-, z, hz, hlist, -⟩ := find_dropServer hy
    rw [hlist, h.lists t z hz]
  · rw [isSome_dropServer hs.symm]
    exact h.own
  · obtain ⟨-, z, hz, -⟩ := find_dropServer hy
    rw [Census.dropServer_next]
    exact h.fresh t z hz
  · exact Census.upwards_dropServer h.upwards

theorem Counted.dropServer (h : Counted d c) : Counted d (c.dropServer s) := by
  have hflags : (c.dropServer s).flags = c.flags := by
    rw [Census.dropServer]
    cases (c.servers.find s).bind Server.uplink with
    | none => rfl
    | some up => rfl
  have hunder : (c.dropServer s).underflow = c.underflow := by
    rw [Census.dropServer]
    cases (c.servers.find s).bind Server.uplink with
    | none => rfl
    | some up => rfl
  refine ⟨fun t y hy => ?_, fun t y hy => ?_, fun t y hy => ?_, hunder.trans h.noUnderflow⟩
  · obtain ⟨-, z, hz, -, hu, -⟩ := find_dropServer hy
    rw [hu, h.users t z hz]
  · obtain ⟨-, z, hz, -, -, ho, -⟩ := find_dropServer hy
    rw [ho, h.opers t z hz, flagged, flagged, hflags]
  · obtain ⟨-, z, hz, -, -, -, hi⟩ := find_dropServer hy
    rw [hi, h.invis t z hz, flagged, flagged, hflags]

end placed
end ChatServices.Network
