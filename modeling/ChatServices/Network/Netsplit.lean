import Mathlib.Data.List.Perm.Subperm
import ChatServices.Network.ServerTree

/-! What a netsplit removes: the server, all that is behind it and the users there, and nothing
else. The loops walk lists that their own bodies change. -/
namespace ChatServices.Network
open ChatServices.Lib ChatServices.Lib.Walk ChatServices.Text

/-- The user `x` at `u` is untouched. Only the services leave channels because others do. -/
structure UserKept (n n' : Net) (u : ClientId) (x : User) : Prop where
  user : n'.dir.users.find u = some x
  flags : n'.census.flags u = n.census.flags u
  myuser : n'.logins.myuser u = n.logins.myuser u
  members : x.server ≠ me → ∀ m cu, n.rooms.chanusers.find m = some cu → cu.user = u →
    n'.rooms.chanusers.find m = some cu

theorem UserKept.refl {n : Net} {u : ClientId} {x : User} (hx : n.dir.users.find u = some x) :
    UserKept n n u x := ⟨hx, rfl, rfl, fun _ _ _ hcu _ => hcu⟩

theorem UserKept.trans {n n' n'' : Net} {u : ClientId} {x : User} (h : UserKept n n' u x)
    (h' : UserKept n' n'' u x) : UserKept n n'' u x :=
  ⟨h'.user, h'.flags.trans h.flags, h'.myuser.trans h.myuser,
    fun hme m cu hcu hu => h'.members hme m cu (h.members hme m cu hcu hu) hu⟩

namespace ServerNet

/-! ### What a part of a split leaves -/

/-- Servers and users go, except that an enforcer may come; `E` are the servers whose users go
before they do. -/
structure Shrinks (ircd : Ircd) (E : ServerId → Prop) (f f' : ServerNet) : Prop where
  ok : TreeOk ircd f'
  servers : ∀ t x', f'.server t = some x' → ∃ x, f.server t = some x ∧ x'.name = x.name ∧
    x'.uplink = x.uplink ∧ x'.children.Sublist x.children ∧
      (f'.idents t).sid = (f.idents t).sid ∧ (f'.idents t).masked = (f.idents t).masked
  users : ∀ u x, f.net.dir.users.find u = some x → ¬E x.server →
    (f'.server x.server).isSome = true → UserKept f.net f'.net u x
  origin : ∀ u x, f'.net.dir.users.find u = some x →
    f.net.dir.users.find u = some x ∨ f.net.dir.next ≤ u ∧ x.server = me
  uids : ∀ k u, f.net.dir.uidlist.find k = some u → (f'.net.dir.users.find u).isSome = true →
    f'.net.dir.uidlist.find k = some u
  nextUser : f.net.dir.next ≤ f'.net.dir.next
  nextServer : f'.net.census.next = f.net.census.next

section rules
variable {ircd : Ircd} {leaving : Net → MemberId → List ClientId} {proto : JupeProtocol}
  {f f' f'' : ServerNet} {s t v : ServerId} {u : ClientId} {E E' : ServerId → Prop}

theorem Shrinks.refl (h : TreeOk ircd f) : Shrinks ircd E f f :=
  ⟨h, fun _ x' hx' => ⟨x', hx', rfl, rfl, List.Sublist.refl _, rfl, rfl⟩,
    fun _ _ hx _ _ => .refl hx, fun _ _ hx => .inl hx, fun _ _ hk _ => hk, Nat.le_refl _, rfl⟩

theorem Shrinks.live (h : Shrinks ircd E f f') (ht : (f'.server t).isSome = true) :
    (f.server t).isSome = true := by
  obtain ⟨x', hx'⟩ := Option.isSome_iff_exists.mp ht
  obtain ⟨x, hx, -⟩ := h.servers t x' hx'
  rw [hx]
  rfl

theorem Shrinks.trans (hok : TreeOk ircd f) (h : Shrinks ircd E f f')
    (h' : Shrinks ircd E f' f'') : Shrinks ircd E f f'' := by
  refine ⟨h'.ok, ?_, ?_, ?_, ?_, h.nextUser.trans h'.nextUser, h'.nextServer.trans h.nextServer⟩
  · intro t x'' hx''
    obtain ⟨x', hx', hname', huplink', hchildren', hsid', hmasked'⟩ := h'.servers t x'' hx''
    obtain ⟨x, hx, hname, huplink, hchildren, hsid, hmasked⟩ := h.servers t x' hx'
    exact ⟨x, hx, hname'.trans hname, huplink'.trans huplink, hchildren'.trans hchildren,
      hsid'.trans hsid, hmasked'.trans hmasked⟩
  · intro u x hx hE hlive
    have hfirst := h.users u x hx hE (h'.live hlive)
    exact hfirst.trans (h'.users u x hfirst.user hE hlive)
  · intro u x hx
    obtain hx | ⟨hnext, hme⟩ := h'.origin u x hx
    · exact h.origin u x hx
    · exact .inr ⟨h.nextUser.trans hnext, hme⟩
  · intro k u hk hlive
    refine h'.uids k u (h.uids k u hk ?_) hlive
    obtain ⟨y, hy, -⟩ := hok.members.uids k u hk
    obtain ⟨x, hx⟩ := Option.isSome_iff_exists.mp hlive
    obtain hx | ⟨hnext, -⟩ := h'.origin u x hx
    · rw [hx]
      rfl
    · have hlt := Nat.lt_of_lt_of_le (hok.members.nicks.fresh u y hy) h.nextUser
      exact absurd hnext (Nat.not_le.mpr hlt)

theorem Shrinks.mono (h : Shrinks ircd E f f')
    (hE : ∀ t, E t → E' t ∨ f'.server t = none) : Shrinks ircd E' f f' := by
  refine ⟨h.ok, h.servers, fun u x hx hE' hlive => ?_, h.origin, h.uids, h.nextUser, h.nextServer⟩
  refine h.users u x hx (fun hx' => ?_) hlive
  obtain hmem | hnone := hE x.server hx'
  · exact hE' hmem
  · rw [hnone] at hlive
    cases hlive

/-! ### Users -/

theorem allowBurst_myuser (l : Logins) (u w : ClientId) :
    (l.allowBurst u).myuser w = l.myuser w := by
  rw [Logins.allowBurst]
  split <;> rfl

variable (ircd leaving) in
theorem userDelete_parts {n : Net} {x : User} (hx : n.dir.users.find u = some x) :
    ∃ g, ((Net.userDelete ircd leaving n u).dir = n.dir.remove ircd.irccasecanon u x ∧
        (Net.userDelete ircd leaving n u).census = (n.census.setFlags u g).leave x.server u) ∨
      ∃ e g' , e.server = me ∧
        (n.dir.remove ircd.irccasecanon u x).userFindNamed ircd.irccasecanon e.nick = none ∧
        (Net.userDelete ircd leaving n u).dir =
          (n.dir.remove ircd.irccasecanon u x).insert ircd.irccasecanon e ∧
        (Net.userDelete ircd leaving n u).census =
          (((n.census.setFlags u g).leave x.server u).enter me n.dir.next).setFlags n.dir.next
            g' := by
  have hkeep : n.census.setFlags u (n.census.flags u) = n.census := by
    rw [Census.setFlags]
    congr 1
    funext v
    split_ifs with hv
    · rw [hv]
    · rfl
  cases hm : n.marked u with
  | false =>
    refine ⟨n.census.flags u, .inl ?_⟩
    rw [Net.userDelete_unmarked hx hm, Net.userGone_dir, Net.userGone_census, hkeep]
    exact ⟨rfl, rfl⟩
  | true =>
    refine ⟨n.census.flags u &&& ~~~UF_DOENFORCE, ?_⟩
    rw [Net.userDelete_marked hx hm]
    generalize hgone : Net.userGone ircd leaving
      (n.setFlags u (n.census.flags u &&& ~~~UF_DOENFORCE)) u x = m
    have hdir : m.dir = n.dir.remove ircd.irccasecanon u x := by
      rw [← hgone, Net.userGone_dir, Net.setFlags_dir]
    have hcensus : m.census =
        (n.census.setFlags u (n.census.flags u &&& ~~~UF_DOENFORCE)).leave x.server u := by
      rw [← hgone, Net.userGone_census]
      rfl
    have hdraw : (m.drawUid ircd).census = m.census := by
      rw [Net.drawUid]
      split_ifs <;> rfl
    cases hfind : m.userFindNamed ircd (truncate NICKLEN x.nick) with
    | some w =>
      rw [Net.introduceEnforcer_taken ircd hfind, Net.drawUid_dir, hdraw]
      exact .inl ⟨hdir, hcensus⟩
    | none =>
      rw [Net.introduceEnforcer_free ircd hfind]
      refine .inr ⟨Net.enforcer ircd m (truncate NICKLEN x.nick), 0 ||| (UF_INVIS ||| UF_ENFORCER),
        rfl, ?_, ?_, ?_⟩
      · rw [← hdir]
        exact hfind
      · rw [Net.setFlags_dir, Net.userInsert_dir, Net.drawUid_dir, hdir]
      · have hnext : m.dir.next = n.dir.next := by rw [hdir]; rfl
        show ((m.drawUid ircd).census.enter me (m.drawUid ircd).dir.next).setFlags m.dir.next _ = _
        rw [hdraw, Net.drawUid_dir, hnext, hcensus]

theorem TreeOk.without (h : TreeOk ircd f) {n : Net} {x : User}
    (hx : f.net.dir.users.find u = some x) (hok : TreeOk ircd { f with net := n })
    (hsame : SameServers f.net.census n.census) (hnext : n.census.next = f.net.census.next)
    (hkept : ∀ w y, w ≠ u → f.net.dir.users.find w = some y → UserKept f.net n w y)
    (horigin : ∀ w y, n.dir.users.find w = some y →
      w ≠ u ∧ f.net.dir.users.find w = some y ∨ f.net.dir.next ≤ w ∧ y.server = me)
    (huids : ∀ k w, f.net.dir.uidlist.find k = some w → w ≠ u →
      n.dir.uidlist.find k = some w) (hmore : f.net.dir.next ≤ n.dir.next) :
    Shrinks ircd (fun t => t = x.server) f { f with net := n } := by
  refine ⟨hok, ?_, ?_, ?_, ?_, hmore, hnext⟩
  · intro t y' hy'
    obtain ⟨y, hy, hname, huplink, hchildren⟩ := hsame.symm.find hy'
    exact ⟨y, hy, hname.symm, huplink.symm, by rw [hchildren], rfl, rfl⟩
  · intro w y hy hother _
    refine hkept w y (fun heq => hother ?_) hy
    rw [heq, hx] at hy
    rw [Option.some.inj hy]
  · intro w y hy
    obtain ⟨-, hold⟩ | hnew := horigin w y hy
    · exact .inl hold
    · exact .inr hnew
  · intro k w hk hlive
    refine huids k w hk fun heq => ?_
    obtain ⟨y, hy⟩ := Option.isSome_iff_exists.mp hlive
    obtain ⟨hne, -⟩ | ⟨hle, -⟩ := horigin w y hy
    · exact hne heq
    · exact absurd hle (Nat.not_le.mpr (heq ▸ h.members.nicks.fresh u x hx))

variable (leaving) in
theorem TreeOk.splitUser (h : TreeOk ircd f) {x : User} (hx : f.net.dir.users.find u = some x)
    (hs : x.server ≠ me) :
    Shrinks ircd (fun t => t = x.server) f (splitUser ircd leaving f u) ∧
      SameServers f.net.census (splitUser ircd leaving f u).net.census ∧
      usersOn (splitUser ircd leaving f u).net.dir x.server =
        (usersOn f.net.dir x.server).erase u := by
  have hallow : Net.MembersOk ircd { f.net with logins := f.net.logins.allowBurst u } :=
    ⟨h.members.nicks, h.members.uids, h.members.rooms⟩
  have hmembers : (Net.splitUser ircd leaving f.net u).MembersOk ircd :=
    (hallow.changes (Net.userDelete_changes ircd leaving _ u)).1
  have hlogins : (Net.splitUser ircd leaving f.net u).LoginsOk ircd := h.logins.splitUser u
  have hkept : ∀ w y, w ≠ u → f.net.dir.users.find w = some y →
      UserKept f.net (Net.splitUser ircd leaving f.net u) w y := by
    intro w y hw hy
    have hsame := (Net.userDelete_others leaving
      (n := { f.net with logins := f.net.logins.allowBurst u }) h.members.nicks hx).2 w y hy hw
    refine ⟨hsame.user.trans hy, hsame.flags, hsame.myuser.trans (allowBurst_myuser _ u w),
      fun hme m cu hcu hu => ?_⟩
    apply hallow.userDelete_stay leaving u m cu hcu
    · rw [hu, Directory.isInternalClient]
      simp [hy, hme]
    · rw [hu]
      exact hw
  obtain ⟨g, hparts⟩ := userDelete_parts ircd leaving
    (n := { f.net with logins := f.net.logins.allowBurst u }) hx
  rw [ServerNet.splitUser]
  rw [← Net.splitUser] at hparts
  generalize Net.splitUser ircd leaving f.net u = n at hmembers hlogins hkept hparts
  have hgone : SameServers f.net.census ((f.net.census.setFlags u g).leave x.server u) :=
    sameServers_setFlags.trans sameServers_leave
  have hplaced : Placed (f.net.dir.remove ircd.irccasecanon u x)
      ((f.net.census.setFlags u g).leave x.server u) :=
    Placed.leave ⟨h.placed.homes, h.placed.lists, h.placed.own, h.placed.fresh, h.placed.upwards⟩ hx
  have hremote := h.remote.remove ircd.irccasecanon hx hs
  have hfind : ∀ w, (f.net.dir.remove ircd.irccasecanon u x).users.find w =
      if w = u then none else f.net.dir.users.find w := fun w => Registry.find_erase _ _ _
  have hfree : (f.net.dir.remove ircd.irccasecanon u x).users.find f.net.dir.next = none := by
    rw [hfind, h.members.nicks.next_free]
    split_ifs <;> rfl
  obtain ⟨hdir, hcensus⟩ | ⟨e, g', heme, hnick, hdir, hcensus⟩ := hparts
  · have hsame : SameServers f.net.census n.census := hcensus ▸ hgone
    refine ⟨h.without hx (h.of_net hmembers hlogins (hdir ▸ hremote) (hdir ▸ hcensus ▸ hplaced)
      hsame) hsame (by rw [hcensus]; rfl) hkept ?_ ?_ (by rw [hdir]; exact Nat.le_refl _), hsame,
      ?_⟩
    · intro w y hy
      rw [hdir, hfind] at hy
      split_ifs at hy with hw
      exact .inl ⟨hw, hy⟩
    · intro k w hk hw
      rw [hdir]
      exact uid_kept ircd.irccasecanon h.remote hx hs hk hw
    · rw [hdir, usersOn_remove]
  · have hsame : SameServers f.net.census n.census := by
      rw [hcensus]
      exact (hgone.trans sameServers_enter).trans sameServers_setFlags
    have hentered : Placed n.dir n.census := by
      have hown : (((f.net.census.setFlags u g).leave x.server u).servers.find e.server).isSome =
          true := by
        rw [heme]
        exact hplaced.own
      have hadded : Placed (Directory.insert ircd.irccasecanon _ e) _ :=
        hplaced.enter hfree hown
      rw [hdir, hcensus]
      rw [heme] at hadded
      exact ⟨hadded.homes, hadded.lists, hadded.own, hadded.fresh, hadded.upwards⟩
    refine ⟨h.without hx (h.of_net hmembers hlogins (hdir ▸ hremote.insert (.inl heme)) hentered
      hsame) hsame (by rw [hcensus]; rfl) hkept ?_ ?_ (by rw [hdir]; exact Nat.le_succ _), hsame,
      ?_⟩
    · intro w y hy
      rw [hdir, Directory.insert, Registry.find_insertNew, hfind] at hy
      by_cases hw : w = u
      · have hlt : u < f.net.dir.next := h.members.nicks.fresh u x hx
        have hne : f.net.dir.next ≠ w := by
          rw [hw]
          exact Nat.ne_of_gt hlt
        rw [if_pos hw, Option.none_or] at hy
        split_ifs at hy with hnext
        exact absurd hnext hne
      · rw [if_neg hw] at hy
        cases hold : f.net.dir.users.find w with
        | some y' =>
          rw [hold, Option.some_or] at hy
          exact .inl ⟨hw, hy⟩
        | none =>
          rw [hold, Option.none_or] at hy
          split_ifs at hy with hnext
          obtain rfl := Option.some.inj hy
          exact .inr ⟨Nat.le_of_eq hnext, heme⟩
    · intro k w hk hw
      have hold := uid_kept ircd.irccasecanon h.remote hx hs hk hw
      rw [hdir, Directory.insert]
      cases huid : e.uid with
      | none => exact hold
      | some k' =>
        show (Registry.insertNew k' _ _).find k = some w
        rw [Registry.find_insertNew, hold, Option.some_or]
    · have hne : e.server ≠ x.server := heme ▸ hs.symm
      rw [hdir, usersOn_insert hfree, if_neg hne, List.append_nil, usersOn_remove]

theorem TreeOk.userlist (h : TreeOk ircd f) (hs : (f.server s).isSome = true) :
    userlist s f = usersOn f.net.dir s := by
  obtain ⟨x, hx⟩ := Option.isSome_iff_exists.mp hs
  rw [ServerNet.userlist, hx]
  exact h.placed.lists s x hx

variable (leaving) in
theorem TreeOk.splitUsers (h : TreeOk ircd f) (hlive : (f.server s).isSome = true) (hs : s ≠ me) :
    ∃ f', walkSafe (ServerNet.userlist s) (fun f u => some (ServerNet.splitUser ircd leaving f u))
        (ServerNet.userlist s f).length (ServerNet.userlist s f).head? f = some f' ∧
      Shrinks ircd (fun t => t = s) f f' ∧ SameServers f.net.census f'.net.census ∧
      usersOn f'.net.dir s = [] := by
  let I (rest : List ClientId) (g : ServerNet) : Prop :=
    Shrinks ircd (fun t => t = s) f g ∧ SameServers f.net.census g.net.census ∧
      usersOn g.net.dir s = rest
  have hfound : ∀ g : ServerNet, SameServers f.net.census g.net.census →
      (g.server s).isSome = true := by
    intro g hsame
    obtain ⟨x, hx⟩ := Option.isSome_iff_exists.mp hlive
    obtain ⟨x', hx', -⟩ := hsame.find hx
    rw [server, hx']
    rfl
  have hlist : ∀ rest g, I rest g →
      (ServerNet.userlist s g).Nodup ∧ ∃ before, ServerNet.userlist s g = before ++ rest := by
    intro rest g hI
    rw [hI.1.ok.userlist (hfound g hI.2.1), hI.2.2]
    exact ⟨hI.2.2 ▸ nodup_usersOn, [], rfl⟩
  have hbody : ∀ u rest g, I (u :: rest) g →
      ∃ g', some (ServerNet.splitUser ircd leaving g u) = some g' ∧ I rest g' := by
    intro u rest g hI
    obtain ⟨hshrinks, hsame, husers⟩ := hI
    have hmem : u ∈ usersOn g.net.dir s := husers ▸ List.mem_cons_self
    obtain ⟨x, hx, rfl⟩ := mem_usersOn.mp hmem
    obtain ⟨hstep, hsame', herase⟩ := hshrinks.ok.splitUser leaving hx hs
    refine ⟨_, rfl, hshrinks.trans h hstep, hsame.trans hsame', ?_⟩
    rw [herase, husers, List.erase_cons_head]
  have hstart : I (ServerNet.userlist s f) f :=
    ⟨.refl h, .refl, (h.userlist hlive).symm⟩
  exact walkSafe_run hlist hbody hstart (Nat.le_refl _)

/-! ### Servers -/

theorem Behind.trans (h : Behind f s t) (h' : Behind f t v) : Behind f s v := by
  induction h' with
  | self => exact h
  | through _ hx hup ih => exact ih.through hx hup

theorem Shrinks.behind (h : Shrinks ircd E f f') (hb : Behind f' s t) : Behind f s t := by
  induction hb with
  | self => exact .self
  | through _ hx hup ih =>
    obtain ⟨x, hx, -, huplink, -⟩ := h.servers _ _ hx
    exact ih.through hx (huplink.symm.trans hup)

theorem TreeOk.uplink_lt (h : TreeOk ircd f) {x : Server} (hx : f.server t = some x)
    (hup : x.uplink = some s) : s < t := by
  have hme : t ≠ me := by
    intro heq
    rw [h.tree.root x (heq ▸ hx)] at hup
    cases hup
  obtain ⟨up, hup', hlive⟩ := h.tree.uplink t x hx hme
  rw [hup] at hup'
  obtain rfl := Option.some.inj hup'
  obtain ⟨y, hy⟩ := Option.isSome_iff_exists.mp hlive
  have hmem : t ∈ y.children := (h.tree.children s y t hy).mpr ⟨x, hx, hup⟩
  exact (h.placed.upwards s y t hy hmem).1

theorem TreeOk.le_behind (h : TreeOk ircd f) (hb : Behind f s t) : s ≤ t := by
  induction hb with
  | self => exact Nat.le_refl _
  | through _ hx hup ih => exact ih.trans (Nat.le_of_lt (h.uplink_lt hx hup))

theorem eq_filter_of_sublist {α : Type*} {l l' : List α} {p : α → Bool} (h : l'.Sublist l)
    (hnodup : l.Nodup) (hp : ∀ a ∈ l, a ∈ l' ↔ p a = true) : l' = l.filter p := by
  induction h with
  | slnil => rfl
  | @cons l₁ l₂ a h ih =>
    obtain ⟨ha, hrest⟩ := List.nodup_cons.mp hnodup
    have hpa : ¬p a = true := fun htrue =>
      ha (h.subset ((hp a List.mem_cons_self).mpr htrue))
    rw [List.filter_cons_of_neg hpa]
    exact ih hrest fun b hb => hp b (List.mem_cons_of_mem a hb)
  | @cons_cons l₁ l₂ a h ih =>
    obtain ⟨ha, hrest⟩ := List.nodup_cons.mp hnodup
    have hpa : p a = true := (hp a List.mem_cons_self).mp List.mem_cons_self
    rw [List.filter_cons_of_pos hpa]
    congr 1
    apply ih hrest
    intro b hb
    have hne : b ≠ a := fun heq => ha (heq ▸ hb)
    rw [← hp b (List.mem_cons_of_mem a hb), List.mem_cons, or_iff_right hne]

theorem Shrinks.children_eq (h : TreeOk ircd f) (hshrinks : Shrinks ircd E f f') {x x' : Server}
    (hx : f.server t = some x) (hx' : f'.server t = some x') :
    x'.children = x.children.filter fun v => (f'.server v).isSome := by
  obtain ⟨x₀, hx₀, -, -, hsub, -⟩ := hshrinks.servers t x' hx'
  rw [hx] at hx₀
  obtain rfl := Option.some.inj hx₀
  apply eq_filter_of_sublist hsub (h.tree.nodup t x hx)
  intro v hv
  obtain ⟨z, hz, hup⟩ := (h.tree.children t x v hx).mp hv
  rw [hshrinks.ok.tree.children t x' v hx']
  constructor
  · rintro ⟨z', hz', -⟩
    rw [server, hz']
    rfl
  · intro hlive
    obtain ⟨z', hz'⟩ := Option.isSome_iff_exists.mp hlive
    obtain ⟨z₀, hz₀, -, hup₀, -⟩ := hshrinks.servers v z' hz'
    rw [server, hz] at hz₀
    obtain rfl := Option.some.inj hz₀
    exact ⟨z', hz', hup₀.trans hup⟩

variable (proto) in
theorem Shrinks.removeServer (h : TreeOk ircd f) {x x₀ : Server} (hx : f.server s = some x)
    (hs : s ≠ me) (hchildren : x.children = []) (husers : usersOn f.net.dir s = [])
    (hname : x₀.name = x.name) :
    Shrinks ircd (fun _ => False) f (removeServer ircd proto f s x₀) ∧
      (removeServer ircd proto f s x₀).server s = none ∧
      ∀ t, t ≠ s → (f.server t).isSome = true →
        ((removeServer ircd proto f s x₀).server t).isSome = true := by
  have hok := h.removeServer proto hx hs hchildren husers hname
  obtain ⟨up, hup, -⟩ := h.tree.uplink s x hx hs
  obtain ⟨idents, hremoved, hidents⟩ := removeServer_frame ircd proto f s x₀
  rw [hremoved] at hok ⊢
  refine ⟨⟨hok, ?_, fun _ _ hy _ _ => ⟨hy, congrFun (Census.dropServer_flags _ s) _, rfl,
    fun _ _ _ hcu _ => hcu⟩, fun _ _ hy => .inl hy, fun _ _ hk _ => hk,
    Nat.le_refl _, Census.dropServer_next _ s⟩, ?_, ?_⟩
  · intro t y' hy'
    obtain ⟨-, y, hy, rfl⟩ := find_dropped_old hx hup hy'
    refine ⟨y, hy, rfl, rfl, ?_, hidents t⟩
    dsimp only
    split_ifs
    · exact List.erase_sublist
    · exact List.Sublist.refl _
  · rw [server, find_dropped hx hup, if_pos rfl]
  · intro t ht hlive
    obtain ⟨y, hy⟩ := Option.isSome_iff_exists.mp hlive
    rw [server, find_dropped_kept hx hup hy ht]
    rfl

theorem TreeOk.server_lt (h : TreeOk ircd f) {x : Server} (hx : f.server s = some x) :
    s < f.net.census.next := h.placed.fresh s x hx

theorem TreeOk.child_gone (h : TreeOk ircd f) {y : Server} {c : ServerId} {rest : List ServerId}
    (hy : f.server s = some y) (hchildren : y.children = c :: rest)
    (hshrinks : Shrinks ircd E f f') (hgone : f'.server c = none)
    (hbehind : ∀ t, (f.server t).isSome = true → f'.server t = none → Behind f c t) :
    ∃ y', f'.server s = some y' ∧ y'.children = rest := by
  have hnodup : (c :: rest).Nodup := hchildren ▸ h.tree.nodup s y hy
  obtain ⟨xc, hxc, hupc⟩ := (h.tree.children s y c hy).mp (hchildren ▸ List.mem_cons_self)
  have hlt : s < c := h.uplink_lt hxc hupc
  have hnot : ¬Behind f c s := fun hb => absurd (h.le_behind hb) (Nat.not_le.mpr hlt)
  cases hy' : f'.server s with
  | none => exact absurd (hbehind s (by rw [hy]; rfl) hy') hnot
  | some y' =>
    refine ⟨y', rfl, ?_⟩
    rw [hshrinks.children_eq h hy hy', hchildren, List.filter_cons, hgone]
    apply List.filter_eq_self.mpr
    intro v hv
    obtain ⟨z, hz, hup⟩ := (h.tree.children s y v hy).mp (hchildren ▸ List.mem_cons_of_mem c hv)
    cases hz' : f'.server v with
    | some z' => rfl
    | none =>
      -- another child of `s` is not behind this one
      have hb := hbehind v (by rw [server, hz]; rfl) hz'
      cases hb with
      | self => exact absurd hv (List.nodup_cons.mp hnodup).1
      | through hb hz₀ hup₀ =>
        rw [server, hz] at hz₀
        obtain rfl := Option.some.inj hz₀
        rw [hup] at hup₀
        obtain rfl := Option.some.inj hup₀
        exact absurd hb hnot

variable (leaving proto) in
/-- What `server_delete_serv` takes away, by induction on the depth: the loops never read what
their bodies have freed. -/
theorem TreeOk.serverDeleteServ {depth : Nat} (h : TreeOk ircd f) {x : Server}
    (hx : f.server s = some x) (hs : s ≠ me) (hdepth : f.net.census.next ≤ s + depth) :
    ∃ f', serverDeleteServ ircd leaving proto depth f s = some f' ∧
      Shrinks ircd (fun _ => False) f f' ∧ f'.server s = none ∧
      ∀ t, (f.server t).isSome = true → f'.server t = none → Behind f s t := by
  induction depth generalizing f s x with
  | zero => exact absurd (h.server_lt hx) (Nat.not_lt.mpr hdepth)
  | succ depth ih =>
    obtain ⟨f₁, hwalk₁, hshrinks₁, hsame₁, husers₁⟩ :=
      h.splitUsers leaving (by rw [hx]; rfl) hs
    obtain ⟨x₁, hx₁, hname₁, -, hchildren₁⟩ := hsame₁.find hx
    let I (rest : List ServerId) (g : ServerNet) : Prop :=
      Shrinks ircd (fun _ => False) f₁ g ∧
        (∃ y, g.server s = some y ∧ y.children = rest) ∧
        ∀ t, (f₁.server t).isSome = true → g.server t = none → Behind f₁ s t
    have hstart : I (children s f₁) f₁ := by
      refine ⟨.refl hshrinks₁.ok, ⟨x₁, hx₁, ?_⟩, fun t hlive hnone => ?_⟩
      · rw [children, server, hx₁]
        rfl
      · rw [hnone] at hlive
        cases hlive
    have hlist : ∀ rest g, I rest g →
        (children s g).Nodup ∧ ∃ before, children s g = before ++ rest := by
      intro rest g hI
      obtain ⟨hshrinks, ⟨y, hy, rfl⟩, -⟩ := hI
      have heq : children s g = y.children := by
        rw [children, hy]
        rfl
      rw [heq]
      exact ⟨hshrinks.ok.tree.nodup s y hy, [], rfl⟩
    have hbody : ∀ c rest g, I (c :: rest) g →
        ∃ g', ServerNet.serverDeleteServ ircd leaving proto depth g c = some g' ∧ I rest g' := by
      intro c rest g hI
      obtain ⟨hshrinks, ⟨y, hy, hchildren⟩, hbehind⟩ := hI
      obtain ⟨z, hz, hup⟩ :=
        (hshrinks.ok.tree.children s y c hy).mp (hchildren ▸ List.mem_cons_self)
      have hlt : s < c := hshrinks.ok.uplink_lt hz hup
      have hnext : g.net.census.next = f.net.census.next :=
        hshrinks.nextServer.trans hshrinks₁.nextServer
      have hcme : c ≠ me := by
        intro heq
        rw [heq] at hlt
        exact Nat.not_lt_zero s hlt
      have hcdepth : g.net.census.next ≤ c + depth := by
        rw [hnext]
        refine hdepth.trans ?_
        rw [Nat.add_succ, ← Nat.succ_add]
        exact Nat.add_le_add_right hlt depth
      obtain ⟨g', hrun, hstep, hgone, hbehind'⟩ := ih hshrinks.ok hz hcme hcdepth
      refine ⟨g', hrun, hshrinks.trans hshrinks₁.ok hstep,
        hshrinks.ok.child_gone hy hchildren hstep hgone hbehind', ?_⟩
      intro t hlive hnone
      cases hgt : g.server t with
      | none => exact hbehind t hlive hgt
      | some w =>
        have hbc : Behind g s c := Behind.self.through hz hup
        exact hshrinks.behind (hbc.trans (hbehind' t (by rw [hgt]; rfl) hnone))
    obtain ⟨f₂, hwalk₂, hshrinks₂, ⟨x₂, hx₂, hchildren₂⟩, hbehind₂⟩ :=
      walkSafe_run hlist hbody hstart (Nat.le_refl _)
    have husers₂ : usersOn f₂.net.dir s = [] := by
      rw [List.eq_nil_iff_forall_not_mem]
      intro u hu
      obtain ⟨w, hw, hserver⟩ := mem_usersOn.mp hu
      obtain hold | ⟨-, hme⟩ := hshrinks₂.origin u w hw
      · have hmem := mem_usersOn.mpr ⟨w, hold, hserver⟩
        rw [husers₁] at hmem
        cases hmem
      · exact hs (hserver.symm.trans hme)
    have hname₂ : x.name = x₂.name := by
      obtain ⟨x₁', hx₁', hname, -⟩ := hshrinks₂.servers s x₂ hx₂
      rw [server, hx₁] at hx₁'
      obtain rfl := Option.some.inj hx₁'
      exact (hname.trans hname₁).symm
    obtain ⟨hshrinks₃, hgone₃, hkept₃⟩ :=
      Shrinks.removeServer proto hshrinks₂.ok hx₂ hs hchildren₂ husers₂ hname₂
    refine ⟨ServerNet.removeServer ircd proto f₂ s x, ?_, ?_, hgone₃, ?_⟩
    · rw [ServerNet.serverDeleteServ, if_neg hs, hx]
      dsimp only
      rw [hwalk₁, Option.bind_some, hwalk₂, Option.bind_some]
    · have hweak : ∀ {g g' : ServerNet}, Shrinks ircd (fun _ => False) g g' →
          Shrinks ircd (fun t => t = s) g g' := fun hw => hw.mono fun _ hfalse => hfalse.elim
      have hall := (hshrinks₁.trans h (hweak hshrinks₂)).trans h (hweak hshrinks₃)
      exact hall.mono fun t ht => .inr (ht ▸ hgone₃)
    · intro t hlive hnone
      by_cases hts : t = s
      · rw [hts]
        exact .self
      · obtain ⟨z, hz⟩ := Option.isSome_iff_exists.mp hlive
        obtain ⟨z₁, hz₁, -⟩ := hsame₁.find hz
        have hlive₁ : (f₁.server t).isSome = true := by
          rw [server, hz₁]
          rfl
        cases hz₂ : f₂.server t with
        | none => exact hshrinks₁.behind (hbehind₂ t hlive₁ hz₂)
        | some z₂ =>
          have hlive₃ := hkept₃ t hts (by rw [hz₂]; rfl)
          rw [hnone] at hlive₃
          cases hlive₃

/-! ### What a netsplit leaves -/

structure Absent (n : Net) (u : ClientId) : Prop where
  user : n.dir.users.find u = none
  userlist : ∀ k, n.dir.userlist.find k ≠ some u
  uidlist : ∀ k, n.dir.uidlist.find k ≠ some u
  server : ∀ t x, n.census.servers.find t = some x → u ∉ x.userlist
  channels : ∀ m cu, n.rooms.chanusers.find m = some cu → cu.user ≠ u
  logins : ∀ a, u ∉ n.logins.logins a

/-- The server `s` has split off with all that was behind it. The users that are new are enforcers
of nicks that have become free. -/
structure SplitOff (ircd : Ircd) (f f' : ServerNet) (s : ServerId) : Prop where
  serversGone : ∀ t, Behind f s t → f'.server t = none
  serversKept : ∀ t x, f.server t = some x → ¬Behind f s t →
    ∃ x', f'.server t = some x' ∧ x'.name = x.name ∧ x'.uplink = x.uplink ∧
      x'.children = x.children.filter fun v => (f'.server v).isSome
  noServers : ∀ t, f.server t = none → f'.server t = none
  servlist : ∀ k t, f'.servlist.find k = some t ↔ f.servlist.find k = some t ∧ ¬Behind f s t
  sidlist : ∀ k t, f'.sidlist.find k = some t ↔ f.sidlist.find k = some t ∧ ¬Behind f s t
  usersGone : ∀ u x, f.net.dir.users.find u = some x → Behind f s x.server → Absent f'.net u
  usersKept : ∀ u x, f.net.dir.users.find u = some x → ¬Behind f s x.server →
    UserKept f.net f'.net u x ∧ f'.net.userFindNamed ircd x.nick = some u ∧
      (∀ k, f.net.dir.uidlist.find k = some u → f'.net.dir.uidlist.find k = some u) ∧
      ∃ y, f'.server x.server = some y ∧ u ∈ y.userlist
  usersNew : ∀ u x, f'.net.dir.users.find u = some x → f.net.dir.users.find u = none →
    x.server = me
  count : f'.cntServer = f'.net.census.servers.entries.length
  linkedOnce : ∀ t x, f'.server t = some x → t ≠ me →
    ∃ up y, x.uplink = some up ∧ f'.server up = some y ∧ y.children.count t = 1

theorem TreeOk.absent (h : TreeOk ircd f) (hu : f.net.dir.users.find u = none) :
    Absent f.net u := by
  refine ⟨hu, fun k hk => ?_, fun k hk => ?_, fun t x hx hmem => ?_, fun m cu hcu heq => ?_,
    fun a ha => ?_⟩
  · obtain ⟨x, hx, -⟩ := (h.members.nicks.named k u).mp hk
    rw [hu] at hx
    cases hx
  · obtain ⟨x, hx, -⟩ := h.members.uids k u hk
    rw [hu] at hx
    cases hx
  · rw [h.placed.lists t x hx] at hmem
    obtain ⟨y, hy, -⟩ := mem_usersOn.mp hmem
    rw [hu] at hy
    cases hy
  · have hlive := h.members.rooms.lists.userLive m cu hcu
    rw [heq, hu] at hlive
    cases hlive
  · have hlive := h.logins.links.userLive u a ha
    rw [hu] at hlive
    cases hlive

theorem Shrinks.gone (h : TreeOk ircd f) (hshrinks : Shrinks ircd E f f')
    (hgone : f'.server s = none) (hb : Behind f s t) : f'.server t = none := by
  induction hb with
  | self => exact hgone
  | @through t v x hb hx hup ih =>
    cases hy : f'.server v with
    | none => rfl
    | some y =>
      obtain ⟨x₀, hx₀, -, hup₀, -⟩ := hshrinks.servers v y hy
      rw [hx] at hx₀
      obtain rfl := Option.some.inj hx₀
      have hvme : v ≠ me := by
        intro heq
        rw [h.tree.root x (heq ▸ hx)] at hup
        cases hup
      obtain ⟨up, hup', hlive⟩ := hshrinks.ok.tree.uplink v y hy hvme
      rw [hup₀, hup] at hup'
      rw [← Option.some.inj hup', ← server, ih] at hlive
      cases hlive

theorem index_split {key key' : ServerId → Option CString} {index index' : Registry CString ServerId}
    (hi : Registry.IndexBy key index) (hi' : Registry.IndexBy key' index')
    (hnone : ∀ t, f.server t = none → key t = none)
    (hnone' : ∀ t, f'.server t = none → key' t = none)
    (hsame : ∀ t, (f'.server t).isSome = true → key' t = key t)
    (hgone : ∀ t, f'.server t = none ↔ f.server t = none ∨ Behind f s t) (k : CString)
    (t : ServerId) : index'.find k = some t ↔ index.find k = some t ∧ ¬Behind f s t := by
  rw [hi k t, hi' k t]
  cases hx' : f'.server t with
  | some x' =>
    have hnot : ¬Behind f s t := by
      intro hb
      rw [(hgone t).mpr (.inr hb)] at hx'
      cases hx'
    rw [hsame t (by rw [hx']; rfl), and_iff_left hnot]
  | none =>
    rw [hnone' t hx']
    obtain hx | hb := (hgone t).mp hx'
    · rw [hnone t hx]
      simp
    · simp [hb]

theorem TreeOk.splitOff (h : TreeOk ircd f) (hshrinks : Shrinks ircd (fun _ => False) f f')
    (hgone : f'.server s = none)
    (hbehind : ∀ t, (f.server t).isSome = true → f'.server t = none → Behind f s t) :
    SplitOff ircd f f' s := by
  have hiff : ∀ t, f'.server t = none ↔ f.server t = none ∨ Behind f s t := by
    intro t
    constructor
    · intro hnone
      cases hx : f.server t with
      | none => exact .inl rfl
      | some x => exact .inr (hbehind t (by rw [hx]; rfl) hnone)
    · rintro (hnone | hb)
      · cases hx' : f'.server t with
        | none => rfl
        | some x' =>
          obtain ⟨x, hx, -⟩ := hshrinks.servers t x' hx'
          rw [hnone] at hx
          cases hx
      · exact hshrinks.gone h hgone hb
  have hkept : ∀ t x, f.server t = some x → ¬Behind f s t → ∃ x', f'.server t = some x' := by
    intro t x hx hnot
    cases hx' : f'.server t with
    | some x' => exact ⟨x', rfl⟩
    | none =>
      obtain hnone | hb := (hiff t).mp hx'
      · rw [hx] at hnone
        cases hnone
      · exact absurd hb hnot
  have hsame : ∀ t, (f'.server t).isSome = true → f'.name t = f.name t ∧
      (f'.idents t).sid = (f.idents t).sid ∧ (f'.idents t).masked = (f.idents t).masked := by
    intro t hlive
    obtain ⟨x', hx'⟩ := Option.isSome_iff_exists.mp hlive
    obtain ⟨x, hx, hname, -, -, hident⟩ := hshrinks.servers t x' hx'
    refine ⟨?_, hident⟩
    rw [name, hx', name, hx, Option.map_some, Option.map_some, hname]
  have hnameless : ∀ {g : ServerNet} t, g.server t = none → g.name t = none := by
    intro g t hnone
    rw [name, hnone, Option.map_none]
  refine ⟨fun t hb => hshrinks.gone h hgone hb, fun t x hx hnot => ?_,
    fun t hnone => (hiff t).mpr (.inl hnone), ?_, ?_, fun u x hx hb => ?_, fun u x hx hnot => ?_,
    fun u x hx hnew => ?_, hshrinks.ok.count, fun t x hx ht => ?_⟩
  · obtain ⟨x', hx'⟩ := hkept t x hx hnot
    obtain ⟨x₀, hx₀, hname, huplink, -⟩ := hshrinks.servers t x' hx'
    rw [hx] at hx₀
    obtain rfl := Option.some.inj hx₀
    exact ⟨x', hx', hname, huplink, hshrinks.children_eq h hx hx'⟩
  · apply index_split h.names hshrinks.ok.names _ _ _ hiff
    · intro t hnone
      rw [nameKey, hnameless t hnone, Option.bind_none]
    · intro t hnone
      rw [nameKey, hnameless t hnone, Option.bind_none]
    · intro t hlive
      obtain ⟨hname, -, hmasked⟩ := hsame t hlive
      rw [nameKey, nameKey, hname, hmasked]
  · apply index_split h.sids hshrinks.ok.sids _ _ _ hiff
    · intro t hnone
      rw [sidKey, hnameless t hnone, Option.bind_none]
    · intro t hnone
      rw [sidKey, hnameless t hnone, Option.bind_none]
    · intro t hlive
      obtain ⟨hname, hsid, -⟩ := hsame t hlive
      rw [sidKey, sidKey, hname, hsid]
  · apply hshrinks.ok.absent
    cases hy : f'.net.dir.users.find u with
    | none => rfl
    | some y =>
      obtain hold | ⟨hle, -⟩ := hshrinks.origin u y hy
      · rw [hx] at hold
        obtain rfl := Option.some.inj hold
        have hhome := hshrinks.ok.placed.homes u x hy
        rw [← server, hshrinks.gone h hgone hb] at hhome
        cases hhome
      · exact absurd hle (Nat.not_le.mpr (h.members.nicks.fresh u x hx))
  · obtain ⟨y, hy⟩ := Option.isSome_iff_exists.mp (h.placed.homes u x hx)
    obtain ⟨y', hy'⟩ := hkept x.server y hy hnot
    have huser := hshrinks.users u x hx id (by rw [hy']; rfl)
    refine ⟨huser, hshrinks.ok.members.nicks.found huser.user, fun k hk => ?_, y', hy', ?_⟩
    · exact hshrinks.uids k u hk (by rw [huser.user]; rfl)
    · rw [hshrinks.ok.placed.lists x.server y' hy']
      exact mem_usersOn.mpr ⟨x, huser.user, rfl⟩
  · obtain hold | ⟨-, hme⟩ := hshrinks.origin u x hx
    · rw [hnew] at hold
      cases hold
    · exact hme
  · obtain ⟨up, hup, hlive⟩ := hshrinks.ok.tree.uplink t x hx ht
    obtain ⟨y, hy⟩ := Option.isSome_iff_exists.mp hlive
    have hmem := (hshrinks.ok.tree.children up y t hy).mpr ⟨x, hx, hup⟩
    exact ⟨up, y, hup, hy, List.count_eq_one_of_mem (hshrinks.ok.tree.nodup up y hy) hmem⟩

end rules

variable {ircd : Ircd} {f : ServerNet} {s : ServerId}

/-- A netsplit takes the server with all that is behind it and leaves the rest. -/
theorem server_delete_removes_subtree (leaving : Net → MemberId → List ClientId)
    (proto : JupeProtocol) (h : TreeOk ircd f) {name : CString}
    (hfind : f.serverFind ircd name = some s) (hs : s ≠ me) :
    ∃ f', serverDelete ircd leaving proto f name = some f' ∧ TreeOk ircd f' ∧
      SplitOff ircd f f' s := by
  have hname : ∃ nm, f.name s = some nm := by
    rw [serverFind, Option.or_eq_some_iff] at hfind
    obtain hsid | ⟨-, hname⟩ := hfind
    · obtain ⟨nm, hnm, -⟩ := Option.bind_eq_some_iff.mp ((h.sids name s).mp hsid)
      exact ⟨nm, hnm⟩
    · obtain ⟨nm, hnm, -⟩ := Option.bind_eq_some_iff.mp ((h.names _ s).mp hname)
      exact ⟨nm, hnm⟩
  obtain ⟨nm, hnm⟩ := hname
  obtain ⟨x, hx, -⟩ := Option.map_eq_some_iff.mp hnm
  obtain ⟨f', hrun, hshrinks, hgone, hbehind⟩ :=
    h.serverDeleteServ leaving proto hx hs (Nat.le_add_left _ _)
  refine ⟨f', ?_, hshrinks.ok, h.splitOff hshrinks hgone hbehind⟩
  rw [serverDelete, hfind]
  exact hrun

def leafTree : ServerNet :=
  let f := serverAdd Net.plainIrcd (start Net.plainIrcd none) (some ['h']) me (some ['1'])
  let f := serverAdd Net.plainIrcd f (some ['l']) 1 (some ['2'])
  let f := serverAdd Net.plainIrcd f none 2 (some ['3'])
  let f := { f with
    net := f.net.userInsert Net.plainIrcd ⟨['u'], ['u'], ['h'], some ['3', 'A'], 3, 1⟩ }
  f.setJupePending 2

theorem leafTree_ok : TreeOk Net.plainIrcd leafTree := by
  apply TreeOk.setJupePending
  apply TreeOk.userInsert
  · apply TreeOk.serverAdd
    · apply TreeOk.serverAdd
      · apply TreeOk.serverAdd (treeOk_start none)
        · rfl
        · intro k hk
          obtain rfl := Option.some.inj hk
          decide
        · intro k hk
          rfl
      · decide
      · intro k hk
        obtain rfl := Option.some.inj hk
        decide
      · intro k hk
        obtain rfl := Option.some.inj hk
        decide
    · decide
    · intro k hk
      cases hk
    · intro k hk
      obtain rfl := Option.some.inj hk
      decide
  · decide
  · decide
  · right
    intro k hk
    obtain rfl := Option.some.inj hk
    decide

theorem server_delete_removes_subtree_leaf : leafTree.serverFind Net.plainIrcd ['l'] = some 2 ∧
    ∃ f', serverDelete Net.plainIrcd (fun _ _ => []) .inspircd leafTree ['l'] = some f' ∧
      TreeOk Net.plainIrcd f' ∧ SplitOff Net.plainIrcd leafTree f' 2 :=
  ⟨by decide, server_delete_removes_subtree _ _ leafTree_ok (by decide) (by decide)⟩

end ServerNet
end ChatServices.Network
