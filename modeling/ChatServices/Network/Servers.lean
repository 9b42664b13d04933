import ChatServices.Network.UserIndex

/-! Servers that come and go, `libathemecore/servers.c`, and the clients of services,
`libathemecore/servtree.c`. -/
namespace ChatServices.Network
open ChatServices.Lib ChatServices.Text

namespace Net
variable (ircd : Ircd) (leaving : Net → MemberId → List ClientId)

/-- `servtree_update` for a service that has no client yet. The code writes through the null
pointer that `user_add` returns where the nick is still taken. -/
def introduceService (n : Net) (nick user host : CString) (deaf : Bool) (now : Int) : Option Net :=
  let n := match n.userFindNamed ircd nick with
    | some u => killUser ircd leaving n u
    | none => n
  let uid := n.nextUid ircd
  match userAdd ircd leaving (n.drawUid ircd) ⟨nick, user, host, uid, me, now⟩ now with
  | (_, none) => none
  | (n, some u) =>
    let f := n.census.flags u ||| (UF_IRCOP ||| UF_INVIS ||| UF_SERVICE)
    some (n.setFlags u (if deaf then f ||| UF_DEAF else f))

def serverAdd (n : Net) (name : CString) (uplink : ServerId) : Net :=
  { n with census := n.census.addServer name uplink }

/-- One round of the loop of `server_delete_serv` over the users of the server. -/
def splitUser (n : Net) (u : ClientId) : Net :=
  userDelete ircd leaving { n with logins := n.logins.allowBurst u } u

def childrenOf (n : Net) (s : ServerId) : List ServerId :=
  ((n.census.servers.find s).map Server.children).getD []

/-- `server_delete_serv`, with a bound on the depth of the servers behind `s`. -/
def serverDeleteServ : Nat → Net → ServerId → Net
  | 0, n, _ => n
  | depth + 1, n, s =>
    if s = me then n
    else
      match n.census.servers.find s with
      | none => n
      | some x =>
        let n := x.userlist.foldl (splitUser ircd leaving) n
        let n := (n.childrenOf s).foldl (serverDeleteServ depth) n
        { n with census := n.census.dropServer s }

def serverDelete (n : Net) (s : ServerId) : Net :=
  serverDeleteServ ircd leaving n.census.next n s

end Net

/-! ### The depth is enough -/

def Upwards (c : Census) : Prop :=
  ∀ s x t, c.servers.find s = some x → t ∈ x.children → s < t ∧ t < c.next

namespace Census

theorem upwards_modify {c c' : Census} {s : ServerId} {f : Server → Server} (h : Upwards c)
    (hservers : c'.servers = c.servers.modify s f) (hnext : c'.next = c.next)
    (hf : ∀ x, (f x).children = x.children) : Upwards c' := by
  intro t y u hy hu
  rw [hservers, Registry.find_modify] at hy
  rw [hnext]
  split_ifs at hy
  · simp only [Option.map_eq_some_iff] at hy
    obtain ⟨x, hx, rfl⟩ := hy
    rw [hf] at hu
    exact h t x u hx hu
  · exact h t y u hy hu

theorem upwards_tally {c : Census} {s : ServerId} {a b e : Int} (h : Upwards c) :
    Upwards (c.tally s a b e) := upwards_modify h rfl rfl fun _ => rfl

theorem upwards_enter {c : Census} {s : ServerId} {u : ClientId} (h : Upwards c) :
    Upwards (c.enter s u) := by
  have htally : Upwards ((c.setFlags u 0).tally s 1 0 0) := upwards_tally h
  exact upwards_modify htally rfl rfl fun _ => rfl

theorem upwards_leave {c : Census} {s : ServerId} {u : ClientId} (h : Upwards c) :
    Upwards (c.leave s u) := by
  have htally : Upwards (c.tally s (-1) (-bit (isSet UF_IRCOP (c.flags u)))
      (-bit (isSet UF_INVIS (c.flags u)))) := upwards_tally h
  exact upwards_modify htally rfl rfl fun _ => rfl

theorem upwards_dropServer {c : Census} {s : ServerId} (h : Upwards c) :
    Upwards (c.dropServer s) := by
  have herase : ∀ {c' : Census}, Upwards c' → Upwards { c' with servers := c'.servers.erase s } := by
    intro c' h' t y u hy hu
    simp only [Registry.find_erase] at hy
    split_ifs at hy
    exact h' t y u hy hu
  rw [dropServer]
  cases (c.servers.find s).bind Server.uplink with
  | none => exact herase h
  | some up =>
    apply @herase { c with servers := c.servers.modify up _ }
    intro t y u hy hu
    simp only [Registry.find_modify] at hy
    split_ifs at hy
    · simp only [Option.map_eq_some_iff] at hy
      obtain ⟨x, hx, rfl⟩ := hy
      exact h t x u hx (List.mem_of_mem_erase hu)
    · exact h t y u hy hu

theorem dropServer_next (c : Census) (s : ServerId) : (c.dropServer s).next = c.next := by
  rw [dropServer]
  cases (c.servers.find s).bind Server.uplink with
  | none => rfl
  | some up => rfl

theorem dropServer_flags (c : Census) (s : ServerId) : (c.dropServer s).flags = c.flags := by
  rw [dropServer]
  cases (c.servers.find s).bind Server.uplink with
  | none => rfl
  | some up => rfl

theorem upwards_addServer {c : Census} {name : CString} {up : ServerId} (h : Upwards c)
    (hup : up < c.next) : Upwards (c.addServer name up) := by
  intro t y u hy hu
  simp only [addServer, Registry.find_modify, Registry.find_insertNew] at hy
  show t < u ∧ u < c.next + 1
  have hold : ∀ x, (c.servers.find t).or (if c.next = t then some (newServer name (some up))
      else none) = some x → c.servers.find t = some x ∨ x.children = [] := by
    intro x hx
    rw [Option.or_eq_some_iff] at hx
    obtain hx | ⟨-, hx⟩ := hx
    · exact .inl hx
    · split_ifs at hx
      cases hx
      exact .inr rfl
  by_cases ht : t = up
  · rw [if_pos ht, Option.map_eq_some_iff] at hy
    obtain ⟨x, hx, rfl⟩ := hy
    obtain hu | hu := List.mem_append.mp hu
    · obtain hx | hx := hold x hx
      · obtain ⟨h1, h2⟩ := h t x u hx hu
        exact ⟨h1, Nat.lt_succ_of_lt h2⟩
      · rw [hx] at hu
        cases hu
    · rw [List.mem_singleton.mp hu]
      exact ⟨ht ▸ hup, Nat.lt_succ_self _⟩
  · rw [if_neg ht] at hy
    obtain hx | hx := hold y hy
    · obtain ⟨h1, h2⟩ := h t y u hx hu
      exact ⟨h1, Nat.lt_succ_of_lt h2⟩
    · rw [hx] at hu
      cases hu

end Census

end ChatServices.Network
