import ChatServices.Network.Net

/-! The counters of the servers against the users that are on them, one lemma for each change of
the users, of their flags and of the servers. -/
namespace ChatServices.Network
open ChatServices.Lib ChatServices.Text ChatServices.Network.Census

def usersOn (d : Directory) (s : ServerId) : List ClientId :=
  d.users.keysWhere fun x => x.server = s

def flagged (d : Directory) (c : Census) (flag : Flags) (s : ServerId) : Nat :=
  (usersOn d s).countP fun u => isSet flag (c.flags u)

structure Counted (d : Directory) (c : Census) : Prop where
  users : ∀ s x, c.servers.find s = some x → x.users = (usersOn d s).length
  opers : ∀ s x, c.servers.find s = some x → x.opers = flagged d c UF_IRCOP s
  invis : ∀ s x, c.servers.find s = some x → x.invis = flagged d c UF_INVIS s
  noUnderflow : c.underflow = false

section counting
variable {α : Type*} [DecidableEq α] {l : List α} {a : α} {p q : α → Bool}

theorem countP_erase_int (h : a ∈ l) : ((l.erase a).countP p : Int) = l.countP p - bit (p a) := by
  induction l with
  | nil => cases h
  | cons b l ih =>
    by_cases hb : b = a
    · subst hb
      rw [List.erase_cons_head, List.countP_cons]
      cases p b <;> simp [bit]
    · have ha : a ∈ l := (List.mem_cons.mp h).resolve_left (Ne.symm hb)
      rw [List.erase_cons_tail (by simpa using hb), List.countP_cons, List.countP_cons]
      have hrest := ih ha
      push_cast
      omega

theorem length_erase_int (h : a ∈ l) : ((l.erase a).length : Int) = l.length - 1 := by
  have hpos := List.length_pos_of_mem h
  rw [List.length_erase_of_mem h]
  omega

theorem countP_change (hn : l.Nodup) (h : a ∈ l) (hq : ∀ b, b ≠ a → q b = p b) :
    (l.countP q : Int) = l.countP p + (bit (q a) - bit (p a)) := by
  have hrest : (l.erase a).countP q = (l.erase a).countP p := by
    apply List.countP_congr
    intro b hb
    rw [hq b ((List.Nodup.mem_erase_iff hn).mp hb).1]
  have hp := countP_erase_int (p := p) h
  have hq' := countP_erase_int (p := q) h
  rw [hrest] at hq'
  omega

theorem bit_le_countP (h : a ∈ l) : bit (p a) ≤ l.countP p := by
  have hp := countP_erase_int (p := p) h
  omega

end counting

section census
variable {d : Directory} {c : Census} {s : ServerId} {u : ClientId} {x : User}
  {irccasecanon : CString → CString}

theorem nodup_usersOn : (usersOn d s).Nodup := Registry.nodup_keysWhere

theorem mem_usersOn : u ∈ usersOn d s ↔ ∃ x, d.users.find u = some x ∧ x.server = s := by
  simp [usersOn, Registry.mem_keysWhere]

theorem usersOn_insert (hnext : d.users.find d.next = none) :
    usersOn (d.insert irccasecanon x) s = usersOn d s ++ if x.server = s then [d.next] else [] := by
  rw [usersOn, Directory.insert, Registry.keysWhere_insertNew hnext, usersOn]
  simp

theorem usersOn_remove : usersOn (d.remove irccasecanon u x) s = (usersOn d s).erase u :=
  Registry.keysWhere_erase

theorem usersOn_set {y : User} (hx : d.users.find u = some x) (hy : y.server = x.server) :
    (d.users.set u y).keysWhere (fun x => x.server = s) = usersOn d s := by
  show (d.users.modify u fun _ => y).keysWhere _ = _
  rw [Registry.keysWhere_modify, usersOn]
  intro a ha
  rw [hx] at ha
  cases ha
  rw [hy]

theorem usersOn_rename (hx : d.users.find u = some x) (nick : CString) (ts : Int) :
    usersOn (d.rename irccasecanon u x nick ts) s = usersOn d s :=
  @usersOn_set d s u x { x with nick := nick, ts := ts } hx rfl

theorem next_notMem (hnext : d.users.find d.next = none) : d.next ∉ usersOn d s := by
  intro hmem
  obtain ⟨x, hx, -⟩ := mem_usersOn.mp hmem
  rw [hnext] at hx
  cases hx

theorem find_tally {t : ServerId} {a b e : Int} :
    (c.tally s a b e).servers.find t =
      if t = s then (c.servers.find t).map fun x =>
        { x with users := x.users + a, opers := x.opers + b, invis := x.invis + e }
      else c.servers.find t := by
  rw [tally, Registry.find_modify]

theorem tally_underflow {a b e : Int} (h : c.underflow = false)
    (hpos : ∀ x, c.servers.find s = some x → 0 ≤ x.users + a ∧ 0 ≤ x.opers + b ∧ 0 ≤ x.invis + e) :
    (c.tally s a b e).underflow = false := by
  rw [tally]
  simp only [h, Bool.false_or]
  cases hx : c.servers.find s with
  | none => rfl
  | some x =>
    obtain ⟨hu, ho, hi⟩ := hpos x hx
    simp only [Option.any_some]
    simp
    omega

theorem Counted.change {d' : Directory} {c' : Census} {a b e : Int} (h : Counted d c)
    (hserver : ∀ t x', c'.servers.find t = some x' → ∃ x, c.servers.find t = some x ∧
      x'.users = x.users + (if t = s then a else 0) ∧ x'.opers = x.opers + (if t = s then b else 0) ∧
      x'.invis = x.invis + (if t = s then e else 0))
    (hunder : c'.underflow = false)
    (husers : ∀ t, ((usersOn d' t).length : Int) = (usersOn d t).length + if t = s then a else 0)
    (hopers : ∀ t, (flagged d' c' UF_IRCOP t : Int) =
      flagged d c UF_IRCOP t + if t = s then b else 0)
    (hinvis : ∀ t, (flagged d' c' UF_INVIS t : Int) =
      flagged d c UF_INVIS t + if t = s then e else 0) : Counted d' c' := by
  refine ⟨fun t x' hx' => ?_, fun t x' hx' => ?_, fun t x' hx' => ?_, hunder⟩
  · obtain ⟨x, hx, hu, -, -⟩ := hserver t x' hx'
    rw [hu, h.users t x hx, husers t]
  · obtain ⟨x, hx, -, ho, -⟩ := hserver t x' hx'
    rw [ho, h.opers t x hx, hopers t]
  · obtain ⟨x, hx, -, -, hi⟩ := hserver t x' hx'
    rw [hi, h.invis t x hx, hinvis t]

theorem flagged_enter (hnext : d.users.find d.next = none) {flag : Flags} {t : ServerId} :
    flagged (d.insert irccasecanon x) (c.enter s d.next) flag t = flagged d c flag t := by
  have hold : ∀ u ∈ usersOn d t, (c.enter s d.next).flags u = c.flags u := by
    intro u hu
    have hne : u ≠ d.next := fun he => next_notMem hnext (he ▸ hu)
    simp [enter, tally, setFlags, hne]
  have hnew : (c.enter s d.next).flags d.next = 0 := by simp [enter, tally, setFlags]
  rw [flagged, usersOn_insert hnext, List.countP_append, flagged]
  have hkeep : (usersOn d t).countP (fun u => isSet flag ((c.enter s d.next).flags u)) =
      (usersOn d t).countP (fun u => isSet flag (c.flags u)) :=
    List.countP_congr fun u hu => by rw [hold u hu]
  rw [hkeep]
  split_ifs
  · simp [hnew, isSet]
  · simp

theorem Counted.enter (h : Counted d c) (hnext : d.users.find d.next = none) :
    Counted (d.insert irccasecanon x) (c.enter x.server d.next) := by
  apply @Counted.change d c x.server _ _ 1 0 0 h
  · intro t x' hx'
    simp only [Census.enter, Registry.find_modify, find_tally] at hx'
    split_ifs at hx' with ht
    · simp only [Option.map_map, Option.map_eq_some_iff, Function.comp_apply] at hx'
      obtain ⟨y, hy, rfl⟩ := hx'
      exact ⟨y, hy, by simp [ht], by simp, by simp⟩
    · exact ⟨x', hx', by simp [ht], by simp, by simp⟩
  · apply tally_underflow h.noUnderflow
    intro y hy
    change c.servers.find x.server = some y at hy
    have hu := h.users _ y hy
    have ho := h.opers _ y hy
    have hi := h.invis _ y hy
    omega
  · intro t
    rw [usersOn_insert hnext]
    split_ifs with h1 h2 h2
    · simp
    · exact absurd h1.symm h2
    · exact absurd h2.symm h1
    · simp
  · intro t
    simp [flagged_enter hnext]
  · intro t
    simp [flagged_enter hnext]

theorem Counted.leave (h : Counted d c) (hx : d.users.find u = some x) :
    Counted (d.remove irccasecanon u x) (c.leave x.server u) := by
  have hmem : u ∈ usersOn d x.server := mem_usersOn.mpr ⟨x, hx, rfl⟩
  have hnot : ∀ t, t ≠ x.server → (usersOn d t).erase u = usersOn d t := by
    intro t ht
    apply List.erase_of_not_mem
    intro hu
    obtain ⟨y, hy, hserver⟩ := mem_usersOn.mp hu
    rw [hx] at hy
    cases hy
    exact ht hserver.symm
  have hflag : ∀ flag t, (flagged (d.remove irccasecanon u x) (c.leave x.server u) flag t : Int) =
      flagged d c flag t + if t = x.server then -bit (isSet flag (c.flags u)) else 0 := by
    intro flag t
    show (((usersOn (d.remove irccasecanon u x) t).countP
      fun u => isSet flag (c.flags u) : Nat) : Int) = _
    rw [usersOn_remove, flagged]
    split_ifs with ht
    · subst ht
      rw [countP_erase_int hmem]
      rfl
    · rw [hnot t ht, Int.add_zero]
  apply @Counted.change d c x.server _ _ (-1) (-bit (isSet UF_IRCOP (c.flags u)))
    (-bit (isSet UF_INVIS (c.flags u))) h
  · intro t x' hx'
    simp only [Census.leave, Registry.find_modify, find_tally] at hx'
    split_ifs at hx' with ht
    · simp only [Option.map_map, Option.map_eq_some_iff, Function.comp_apply] at hx'
      obtain ⟨y, hy, rfl⟩ := hx'
      exact ⟨y, hy, by simp [ht], by simp [ht], by simp [ht]⟩
    · exact ⟨x', hx', by simp [ht], by simp [ht], by simp [ht]⟩
  · apply tally_underflow h.noUnderflow
    intro y hy
    have hu := h.users _ y hy
    have ho := h.opers _ y hy
    have hi := h.invis _ y hy
    have hpos := List.length_pos_of_mem hmem
    have hob := bit_le_countP (p := fun u => isSet UF_IRCOP (c.flags u)) hmem
    have hib := bit_le_countP (p := fun u => isSet UF_INVIS (c.flags u)) hmem
    rw [flagged] at ho hi
    omega
  · intro t
    rw [usersOn_remove]
    split_ifs with ht
    · subst ht
      rw [length_erase_int hmem]
      omega
    · rw [hnot t ht, Int.add_zero]
  · exact hflag UF_IRCOP
  · exact hflag UF_INVIS

theorem Counted.of_usersOn {d' : Directory} (h : Counted d c)
    (heq : ∀ s, usersOn d' s = usersOn d s) : Counted d' c := by
  refine ⟨fun s x hx => ?_, fun s x hx => ?_, fun s x hx => ?_, h.noUnderflow⟩
  · rw [heq, h.users s x hx]
  · rw [flagged, heq, h.opers s x hx, flagged]
  · rw [flagged, heq, h.invis s x hx, flagged]

theorem Counted.setFlags (h : Counted d c) {f : Flags}
    (hoper : isSet UF_IRCOP f = isSet UF_IRCOP (c.flags u))
    (hinvis : isSet UF_INVIS f = isSet UF_INVIS (c.flags u)) : Counted d (c.setFlags u f) := by
  have hflag : ∀ flag s, isSet flag f = isSet flag (c.flags u) →
      flagged d (c.setFlags u f) flag s = flagged d c flag s := by
    intro flag s heq
    apply List.countP_congr
    intro v _
    by_cases hv : v = u
    · simp [Census.setFlags, hv, heq]
    · simp [Census.setFlags, hv]
  refine ⟨h.users, fun s x hx => ?_, fun s x hx => ?_, h.noUnderflow⟩
  · rw [hflag _ _ hoper, h.opers s x hx]
  · rw [hflag _ _ hinvis, h.invis s x hx]

theorem Counted.userMode (h : Counted d c) (hx : d.users.find u = some x)
    (userModeList : List (Char × Flags)) (modes : CString) :
    Counted d (c.userMode userModeList x.server u modes) := by
  have hmem : u ∈ usersOn d x.server := mem_usersOn.mpr ⟨x, hx, rfl⟩
  have hflag : ∀ f flag t, (flagged d (c.setFlags u f) flag t : Int) = flagged d c flag t +
      if t = x.server then bit (isSet flag f) - bit (isSet flag (c.flags u)) else 0 := by
    intro f flag t
    rw [flagged, flagged]
    split_ifs with ht
    · subst ht
      rw [countP_change (p := fun u => isSet flag (c.flags u)) nodup_usersOn hmem]
      · simp [Census.setFlags]
      · intro v hv
        simp [Census.setFlags, hv]
    · rw [Int.add_zero]
      congr 1
      apply List.countP_congr
      intro v hv
      have hne : v ≠ u := by
        intro he
        obtain ⟨y, hy, hserver⟩ := mem_usersOn.mp hv
        rw [he, hx] at hy
        cases hy
        exact ht hserver.symm
      simp [Census.setFlags, hne]
  let new := modeFlags userModeList true (c.flags u) (cstr modes)
  rw [Census.userMode]
  apply @Counted.change d c x.server _ _ 0 (bit (isSet UF_IRCOP new) - bit (isSet UF_IRCOP (c.flags u)))
    (bit (isSet UF_INVIS new) - bit (isSet UF_INVIS (c.flags u))) h
  · intro t x' hx'
    simp only [find_tally] at hx'
    split_ifs at hx' with ht
    · simp only [Option.map_eq_some_iff] at hx'
      obtain ⟨y, hy, rfl⟩ := hx'
      exact ⟨y, hy, by simp, by simp [ht, new], by simp [ht, new]⟩
    · exact ⟨x', hx', by simp, by simp [ht], by simp [ht]⟩
  · apply tally_underflow h.noUnderflow
    intro y hy
    change c.servers.find x.server = some y at hy
    have hu := h.users _ y hy
    have ho := h.opers _ y hy
    have hi := h.invis _ y hy
    have hof := hflag (modeFlags userModeList true (c.flags u) (cstr modes)) UF_IRCOP x.server
    have hif := hflag (modeFlags userModeList true (c.flags u) (cstr modes)) UF_INVIS x.server
    rw [if_pos rfl] at hof hif
    omega
  · simp
  · exact hflag _ UF_IRCOP
  · exact hflag _ UF_INVIS

end census
end ChatServices.Network
