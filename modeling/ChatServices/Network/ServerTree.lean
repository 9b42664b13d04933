import ChatServices.Lib.Walk
import ChatServices.Network.LoginRun
import ChatServices.Network.MembershipRun
import ChatServices.Network.UserCounts

/-! The tree of the servers with its indexes `servlist` and `sidlist` and the count `cnt.server`,
`libathemecore/servers.c`. A masked server has the name of its uplink and is found by its SID. -/
namespace ChatServices.Network
open ChatServices.Lib ChatServices.Lib.Walk ChatServices.Text

/-- What a `server_t` has besides its name and its place in the tree; `masked` and `jupePending`
are the flags `SF_MASKED` and `SF_JUPE_PENDING`. -/
structure Ident where
  sid : Option CString
  masked : Bool
  jupePending : Bool
  deriving DecidableEq

/-- The protocol modules whose `jupe` waits for a server to split. -/
inductive JupeProtocol where
  | ircnet
  | bahamut
  | inspircd
  deriving DecidableEq

structure ServerNet where
  net : Net
  idents : ServerId → Ident
  servlist : Registry CString ServerId
  sidlist : Registry CString ServerId
  cntServer : Int

namespace ServerNet
variable (ircd : Ircd) (leaving : Net → MemberId → List ClientId) (proto : JupeProtocol)

def server (f : ServerNet) (s : ServerId) : Option Server := f.net.census.servers.find s

def userlist (s : ServerId) (f : ServerNet) : List ClientId :=
  ((f.server s).map Server.userlist).getD []

def children (s : ServerId) (f : ServerNet) : List ServerId :=
  ((f.server s).map Server.children).getD []

def start (sid : Option CString) : ServerNet where
  net := .start ircd
  idents := fun _ => ⟨sid, false, false⟩
  servlist := Registry.empty.insertNew (ircd.irccasecanon ircd.meName) me
  sidlist := Registry.empty.insertKey sid me
  cntServer := 1

def serverFind (f : ServerNet) (name : CString) : Option ServerId :=
  (f.sidlist.find name).or (f.servlist.find (ircd.irccasecanon name))

/-- `server_add` of a server behind another; a masked server has no name of its own. -/
def serverAdd (f : ServerNet) (name : Option CString) (uplink : ServerId) (sid : Option CString) :
    ServerNet :=
  match f.server uplink with
  | none => f
  | some up =>
    if name.isNone && sid.isNone then f
    else
      let s := f.net.census.next
      { net := f.net.serverAdd (name.getD up.name) uplink
        idents := fun t => if t = s then ⟨sid, name.isNone, false⟩ else f.idents t
        servlist := f.servlist.insertKey (name.map ircd.irccasecanon) s
        sidlist := f.sidlist.insertKey sid s
        cntServer := f.cntServer + 1 }

def setJupePending (f : ServerNet) (s : ServerId) : ServerNet :=
  { f with
    idents := fun t => if t = s then { f.idents t with jupePending := true } else f.idents t }

/-- `jupe`; a server that is still there has to split first. -/
def jupe (f : ServerNet) (name : CString) : ServerNet :=
  match f.serverFind ircd name with
  | none => f
  | some t =>
    match proto with
    | .ircnet => f.setJupePending t
    | .inspircd => f.setJupePending t
    | .bahamut =>
      match (f.server t).bind Server.uplink with
      | none => f
      | some up =>
        if (f.server up).bind Server.uplink ≠ some me then f.setJupePending t else f

/-- The end of `server_delete_serv`, for the server `x` at `s`. -/
def removeServer (f : ServerNet) (s : ServerId) (x : Server) : ServerNet :=
  let i := f.idents s
  let f := { f with
    servlist := f.servlist.eraseKey (if i.masked then none else some (ircd.irccasecanon x.name))
    sidlist := f.sidlist.eraseKey i.sid }
  let f := if i.jupePending then jupe ircd proto f x.name else f
  { f with
    net := { f.net with census := f.net.census.dropServer s }
    cntServer := f.cntServer - 1 }

def splitUser (f : ServerNet) (u : ClientId) : ServerNet :=
  { f with net := f.net.splitUser ircd leaving u }

/-- `server_delete_serv`; a server or a user that is read after it was freed is no result. -/
def serverDeleteServ : Nat → ServerNet → ServerId → Option ServerNet
  | 0, _, _ => none
  | depth + 1, f, s =>
    if s = me then some f
    else
      match f.server s with
      | none => none
      | some x =>
        (walkSafe (userlist s) (fun f u => some (splitUser ircd leaving f u))
          (f.userlist s).length (f.userlist s).head? f).bind fun f =>
            (walkSafe (children s) (serverDeleteServ depth)
              (f.children s).length (f.children s).head? f).bind fun f =>
                some (removeServer ircd proto f s x)

def serverDelete (f : ServerNet) (name : CString) : Option ServerNet :=
  match f.serverFind ircd name with
  | none => some f
  | some s => serverDeleteServ ircd leaving proto f.net.census.next f s

/-! ### The tree -/

def name (f : ServerNet) (s : ServerId) : Option CString := (f.server s).map Server.name

def nameKey (f : ServerNet) (s : ServerId) : Option CString :=
  (f.name s).bind fun name =>
    if (f.idents s).masked then none else some (ircd.irccasecanon name)

def sidKey (f : ServerNet) (s : ServerId) : Option CString := (f.name s).bind fun _ => (f.idents s).sid

end ServerNet

/-- The servers are a tree below `me.me`, and each is linked once. -/
structure Tree (c : Census) : Prop where
  root : ∀ x, c.servers.find me = some x → x.uplink = none
  uplink : ∀ s x, c.servers.find s = some x → s ≠ me →
    ∃ up, x.uplink = some up ∧ (c.servers.find up).isSome = true
  children : ∀ s x t, c.servers.find s = some x →
    (t ∈ x.children ↔ ∃ y, c.servers.find t = some y ∧ y.uplink = some s)
  nodup : ∀ s x, c.servers.find s = some x → x.children.Nodup

def RemoteUids (d : Directory) : Prop :=
  ∀ u x k, d.users.find u = some x → x.server ≠ me → x.uid = some k → d.uidlist.find k = some u

namespace ServerNet

structure TreeOk (ircd : Ircd) (f : ServerNet) : Prop where
  members : f.net.MembersOk ircd
  logins : f.net.LoginsOk ircd
  remote : RemoteUids f.net.dir
  placed : Placed f.net.dir f.net.census
  tree : Tree f.net.census
  names : Registry.IndexBy (f.nameKey ircd) f.servlist
  sids : Registry.IndexBy f.sidKey f.sidlist
  count : f.cntServer = f.net.census.servers.entries.length

inductive Behind (f : ServerNet) (s : ServerId) : ServerId → Prop where
  | self : Behind f s s
  | through {t v : ServerId} {x : Server} :
      Behind f s t → f.server v = some x → x.uplink = some t → Behind f s v

end ServerNet

/-! ### Changes of the users leave the tree -/

structure SameServers (c c' : Census) : Prop where
  place : ∀ t, (c'.servers.find t).map (fun x => (x.name, x.uplink, x.children)) =
    (c.servers.find t).map fun x => (x.name, x.uplink, x.children)
  length : c'.servers.entries.length = c.servers.entries.length

section servers
variable {c c' c'' : Census} {s t up : ServerId} {u : ClientId} {x : Server} {nm : CString}

theorem SameServers.refl : SameServers c c := ⟨fun _ => rfl, rfl⟩

theorem sameServers_setFlags {g : Flags} : SameServers c (c.setFlags u g) := ⟨fun _ => rfl, rfl⟩

theorem SameServers.trans (h : SameServers c c') (h' : SameServers c' c'') : SameServers c c'' :=
  ⟨fun t => (h'.place t).trans (h.place t), h'.length.trans h.length⟩

theorem SameServers.symm (h : SameServers c c') : SameServers c' c :=
  ⟨fun t => (h.place t).symm, h.length.symm⟩

theorem SameServers.find (h : SameServers c c') (hx : c.servers.find t = some x) :
    ∃ x', c'.servers.find t = some x' ∧ x'.name = x.name ∧ x'.uplink = x.uplink ∧
      x'.children = x.children := by
  have hplace := h.place t
  rw [hx, Option.map_some, Option.map_eq_some_iff] at hplace
  obtain ⟨x', hx', heq⟩ := hplace
  simp only [Prod.mk.injEq] at heq
  exact ⟨x', hx', heq⟩

theorem SameServers.name (h : SameServers c c') :
    (c'.servers.find t).map Server.name = (c.servers.find t).map Server.name := by
  have hplace := congrArg (Option.map Prod.fst) (h.place t)
  rw [Option.map_map, Option.map_map] at hplace
  exact hplace

theorem SameServers.modify {f : Server → Server} (hservers : c'.servers = c.servers.modify s f)
    (hname : ∀ x, (f x).name = x.name) (huplink : ∀ x, (f x).uplink = x.uplink)
    (hchildren : ∀ x, (f x).children = x.children) : SameServers c c' := by
  refine ⟨fun t => ?_, ?_⟩
  · rw [hservers, Registry.find_modify]
    split_ifs
    · cases c.servers.find t with
      | none => rfl
      | some x => simp [hname, huplink, hchildren]
    · rfl
  · rw [hservers, Registry.length_modify]

theorem sameServers_leave : SameServers c (c.leave s u) := by
  have htally : SameServers c (c.tally s (-1) (-Census.bit (isSet UF_IRCOP (c.flags u)))
      (-Census.bit (isSet UF_INVIS (c.flags u)))) :=
    SameServers.modify rfl (fun _ => rfl) (fun _ => rfl) fun _ => rfl
  exact htally.trans (SameServers.modify rfl (fun _ => rfl) (fun _ => rfl) fun _ => rfl)

theorem sameServers_enter : SameServers c (c.enter s u) := by
  have htally : SameServers c ((c.setFlags u 0).tally s 1 0 0) :=
    SameServers.modify rfl (fun _ => rfl) (fun _ => rfl) fun _ => rfl
  exact htally.trans (SameServers.modify rfl (fun _ => rfl) (fun _ => rfl) fun _ => rfl)

theorem Tree.same (h : Tree c) (hs : SameServers c c') : Tree c' := by
  refine ⟨fun x' hx' => ?_, fun s x' hx' hme => ?_, fun s x' t hx' => ?_, fun s x' hx' => ?_⟩
  · obtain ⟨x, hx, -, huplink, -⟩ := hs.symm.find hx'
    rw [← huplink]
    exact h.root x hx
  · obtain ⟨x, hx, -, huplink, -⟩ := hs.symm.find hx'
    obtain ⟨up, hup, hlive⟩ := h.uplink s x hx hme
    obtain ⟨y, hy⟩ := Option.isSome_iff_exists.mp hlive
    obtain ⟨y', hy', -⟩ := hs.find hy
    exact ⟨up, huplink.symm.trans hup, by rw [hy']; rfl⟩
  · obtain ⟨x, hx, -, -, hchildren⟩ := hs.symm.find hx'
    rw [← hchildren, h.children s x t hx]
    constructor
    · rintro ⟨y, hy, hup⟩
      obtain ⟨y', hy', -, huplink, -⟩ := hs.find hy
      exact ⟨y', hy', huplink.trans hup⟩
    · rintro ⟨y', hy', hup⟩
      obtain ⟨y, hy, -, huplink, -⟩ := hs.symm.find hy'
      exact ⟨y, hy, huplink.trans hup⟩
  · obtain ⟨x, hx, -, -, hchildren⟩ := hs.symm.find hx'
    rw [← hchildren]
    exact h.nodup s x hx

/-! ### A server comes or goes -/

theorem find_added (hfree : c.servers.find c.next = none)
    (hup : (c.servers.find up).isSome = true) :
    (c.addServer nm up).servers.find t =
      if t = c.next then some (Census.newServer nm (some up))
      else if t = up then (c.servers.find t).map fun x => { x with children := x.children ++ [c.next] }
      else c.servers.find t := by
  have hne : up ≠ c.next := by
    intro heq
    rw [heq, hfree] at hup
    cases hup
  rw [Census.addServer, Registry.find_modify, Registry.find_insertNew]
  by_cases ht : t = c.next
  · rw [if_pos ht, ht, hfree, if_neg hne.symm, if_pos rfl, Option.none_or]
  · rw [if_neg ht, if_neg (Ne.symm ht), Option.or_none]

theorem find_added_old (hfree : c.servers.find c.next = none)
    (hup : (c.servers.find up).isSome = true) (hx : c.servers.find t = some x) :
    t ≠ c.next ∧ (c.addServer nm up).servers.find t =
      some { x with children := if t = up then x.children ++ [c.next] else x.children } := by
  have ht : t ≠ c.next := by
    intro heq
    rw [heq, hfree] at hx
    cases hx
  refine ⟨ht, ?_⟩
  rw [find_added hfree hup, if_neg ht, hx]
  split_ifs <;> rfl

theorem find_added_cases (hfree : c.servers.find c.next = none)
    (hup : (c.servers.find up).isSome = true) {x' : Server}
    (hx' : (c.addServer nm up).servers.find t = some x') :
    (t = c.next ∧ x' = Census.newServer nm (some up)) ∨
      ∃ x, c.servers.find t = some x ∧
        x' = { x with children := if t = up then x.children ++ [c.next] else x.children } := by
  by_cases ht : t = c.next
  · rw [find_added hfree hup, if_pos ht] at hx'
    exact .inl ⟨ht, (Option.some.inj hx').symm⟩
  · cases hx : c.servers.find t with
    | none =>
      rw [find_added hfree hup, if_neg ht, hx] at hx'
      split_ifs at hx'
      cases hx'
    | some x =>
      rw [(find_added_old hfree hup hx).2] at hx'
      exact .inr ⟨x, rfl, (Option.some.inj hx').symm⟩

theorem Tree.add (h : Tree c) (hfree : c.servers.find c.next = none)
    (hup : (c.servers.find up).isSome = true) (hme : c.next ≠ me) : Tree (c.addServer nm up) := by
  have hnew : (c.addServer nm up).servers.find c.next =
      some (Census.newServer nm (some up)) := by rw [find_added hfree hup, if_pos rfl]
  have hlive : ∀ t, (c.servers.find t).isSome = true →
      ((c.addServer nm up).servers.find t).isSome = true := by
    intro t ht
    obtain ⟨x, hx⟩ := Option.isSome_iff_exists.mp ht
    rw [(find_added_old hfree hup hx).2]
    rfl
  have hlinked : ∀ t v, (∃ x', (c.addServer nm up).servers.find t = some x' ∧
      x'.uplink = some v) ↔
        (∃ x, c.servers.find t = some x ∧ x.uplink = some v) ∨ t = c.next ∧ v = up := by
    intro t v
    constructor
    · rintro ⟨x', hx', hv⟩
      obtain ⟨ht, rfl⟩ | ⟨x, hx, rfl⟩ := find_added_cases hfree hup hx'
      · exact .inr ⟨ht, (Option.some.inj hv).symm⟩
      · exact .inl ⟨x, hx, hv⟩
    · rintro (⟨x, hx, hv⟩ | ⟨rfl, rfl⟩)
      · exact ⟨_, (find_added_old hfree hup hx).2, hv⟩
      · exact ⟨_, hnew, rfl⟩
  -- nobody was linked to a server that is only now there
  have hleaf : ∀ t, ¬∃ x, c.servers.find t = some x ∧ x.uplink = some c.next := by
    rintro t ⟨x, hx, hv⟩
    by_cases ht : t = me
    · rw [h.root x (ht ▸ hx)] at hv
      cases hv
    · obtain ⟨w, hw, hwlive⟩ := h.uplink t x hx ht
      rw [hv] at hw
      rw [← Option.some.inj hw, hfree] at hwlive
      cases hwlive
  have hne : up ≠ c.next := by
    intro heq
    rw [heq, hfree] at hup
    cases hup
  refine ⟨fun x' hx' => ?_, fun t x' hx' ht => ?_, fun t x' v hx' => ?_, fun t x' hx' => ?_⟩
  · obtain ⟨ht, -⟩ | ⟨x, hx, rfl⟩ := find_added_cases hfree hup hx'
    · exact absurd ht.symm hme
    · exact h.root x hx
  · obtain ⟨-, rfl⟩ | ⟨x, hx, rfl⟩ := find_added_cases hfree hup hx'
    · exact ⟨up, rfl, hlive up hup⟩
    · obtain ⟨v, hv, hvlive⟩ := h.uplink t x hx ht
      exact ⟨v, hv, hlive v hvlive⟩
  · rw [hlinked v t]
    obtain ⟨rfl, rfl⟩ | ⟨x, hx, rfl⟩ := find_added_cases hfree hup hx'
    · have hno := hleaf v
      simp [Census.newServer, hno, hne.symm]
    · dsimp only
      rw [← h.children t x v hx]
      by_cases htu : t = up
      · rw [if_pos htu, List.mem_append, List.mem_singleton]
        simp [htu]
      · simp [htu]
  · obtain ⟨-, rfl⟩ | ⟨x, hx, rfl⟩ := find_added_cases hfree hup hx'
    · exact List.nodup_nil
    · dsimp only
      split_ifs
      · have hnot : c.next ∉ x.children := by
          intro hmem
          obtain ⟨z, hz, -⟩ := (h.children t x c.next hx).mp hmem
          rw [hfree] at hz
          cases hz
        rw [List.nodup_append_comm]
        exact List.nodup_cons.mpr ⟨by simpa using hnot, h.nodup t x hx⟩
      · exact h.nodup t x hx

theorem find_dropped (hx : c.servers.find s = some x) (hup : x.uplink = some up) :
    (c.dropServer s).servers.find t =
      if t = s then none
      else if t = up then (c.servers.find t).map fun y => { y with children := y.children.erase s }
      else c.servers.find t := by
  rw [Census.dropServer, hx, Option.bind_some, hup]
  dsimp only
  rw [Registry.find_erase, Registry.find_modify]

theorem find_dropped_old (hx : c.servers.find s = some x) (hup : x.uplink = some up) {y' : Server}
    (hy' : (c.dropServer s).servers.find t = some y') :
    t ≠ s ∧ ∃ y, c.servers.find t = some y ∧
      y' = { y with children := if t = up then y.children.erase s else y.children } := by
  rw [find_dropped hx hup] at hy'
  split_ifs at hy' with ht htu
  · obtain ⟨y, hy, rfl⟩ := Option.map_eq_some_iff.mp hy'
    exact ⟨ht, y, hy, by rw [if_pos htu]⟩
  · exact ⟨ht, y', hy', by rw [if_neg htu]⟩

theorem find_dropped_kept (hx : c.servers.find s = some x) (hup : x.uplink = some up) {y : Server}
    (hy : c.servers.find t = some y) (ht : t ≠ s) : (c.dropServer s).servers.find t =
      some { y with children := if t = up then y.children.erase s else y.children } := by
  rw [find_dropped hx hup, if_neg ht, hy]
  split_ifs <;> rfl

theorem Tree.drop (h : Tree c) (hx : c.servers.find s = some x) (hup : x.uplink = some up)
    (hchildren : x.children = []) : Tree (c.dropServer s) := by
  have hleaf : ∀ t y, c.servers.find t = some y → y.uplink ≠ some s := by
    intro t y hy hs
    have hmem := (h.children s x t hx).mpr ⟨y, hy, hs⟩
    rw [hchildren] at hmem
    cases hmem
  have hlinked : ∀ t v, (∃ y', (c.dropServer s).servers.find t = some y' ∧ y'.uplink = some v) ↔
      t ≠ s ∧ ∃ y, c.servers.find t = some y ∧ y.uplink = some v := by
    intro t v
    constructor
    · rintro ⟨y', hy', hv⟩
      obtain ⟨ht, y, hy, rfl⟩ := find_dropped_old hx hup hy'
      exact ⟨ht, y, hy, hv⟩
    · rintro ⟨ht, y, hy, hv⟩
      exact ⟨_, find_dropped_kept hx hup hy ht, hv⟩
  refine ⟨fun y' hy' => ?_, fun t y' hy' hme => ?_, fun t y' v hy' => ?_, fun t y' hy' => ?_⟩
  · obtain ⟨-, y, hy, rfl⟩ := find_dropped_old hx hup hy'
    exact h.root y hy
  · obtain ⟨-, y, hy, rfl⟩ := find_dropped_old hx hup hy'
    obtain ⟨v, hv, hlive⟩ := h.uplink t y hy hme
    obtain ⟨z, hz⟩ := Option.isSome_iff_exists.mp hlive
    have hvs : v ≠ s := fun heq => hleaf t y hy (heq ▸ hv)
    exact ⟨v, hv, by rw [find_dropped_kept hx hup hz hvs]; rfl⟩
  · rw [hlinked v t]
    obtain ⟨-, y, hy, rfl⟩ := find_dropped_old hx hup hy'
    dsimp only
    rw [← h.children t y v hy]
    by_cases htu : t = up
    · rw [if_pos htu, (h.nodup t y hy).mem_erase_iff]
    · have hne : v ∈ y.children → v ≠ s := by
        intro hv heq
        obtain ⟨z, hz, hzup⟩ := (h.children t y v hy).mp hv
        rw [heq, hx] at hz
        obtain rfl := Option.some.inj hz
        rw [hup] at hzup
        exact htu (Option.some.inj hzup).symm
      rw [if_neg htu]
      exact ⟨fun hv => ⟨hne hv, hv⟩, And.right⟩
  · obtain ⟨-, y, hy, rfl⟩ := find_dropped_old hx hup hy'
    dsimp only
    split_ifs
    · exact (h.nodup t y hy).erase s
    · exact h.nodup t y hy

theorem length_dropped (hx : c.servers.find s = some x) (hup : x.uplink = some up)
    (hne : up ≠ s) : (c.dropServer s).servers.entries.length + 1 = c.servers.entries.length := by
  have hfind : (c.servers.modify up fun y => { y with children := y.children.erase s }).find s =
      some x := by rw [Registry.find_modify, if_neg hne.symm, hx]
  rw [Census.dropServer, hx, Option.bind_some, hup]
  dsimp only
  rw [Registry.length_erase hfind, Registry.length_modify]

end servers

section directory
variable {canon : CString → CString} {d : Directory} {u : ClientId} {x : User}

theorem RemoteUids.insert (h : RemoteUids d)
    (huid : x.server = me ∨ ∀ k, x.uid = some k → d.uidlist.find k = none) :
    RemoteUids (d.insert canon x) := by
  intro v y k hy hremote hk
  rw [Directory.insert, Registry.find_insertNew] at hy
  rw [Directory.insert]
  cases hold : d.users.find v with
  | some y' =>
    rw [hold, Option.some_or] at hy
    obtain rfl := Option.some.inj hy
    have hfind := h v y' k hold hremote hk
    cases hx : x.uid with
    | none => exact hfind
    | some k' =>
      show (d.uidlist.insertNew k' d.next).find k = some v
      rw [Registry.find_insertNew, hfind, Option.some_or]
  | none =>
    rw [hold, Option.none_or] at hy
    split_ifs at hy with hv
    obtain rfl := Option.some.inj hy
    have hnone := (huid.resolve_left hremote) k hk
    rw [hk]
    show (d.uidlist.insertNew k d.next).find k = some v
    rw [Registry.find_insertNew, hnone, if_pos rfl, hv, Option.none_or]

variable (canon) in
theorem uid_kept (h : RemoteUids d) (hx : d.users.find u = some x) (hremote : x.server ≠ me)
    {k : CString} {v : ClientId} (hv : d.uidlist.find k = some v) (hne : v ≠ u) :
    (d.remove canon u x).uidlist.find k = some v := by
  rw [Directory.remove]
  dsimp only
  cases huid : x.uid with
  | none => exact hv
  | some k' =>
    have hk : k ≠ k' := by
      intro heq
      rw [heq, h u x k' hx hremote huid] at hv
      exact hne (Option.some.inj hv).symm
    show (d.uidlist.erase k').find k = some v
    rw [Registry.find_erase, if_neg hk, hv]

variable (canon) in
theorem RemoteUids.remove (h : RemoteUids d) (hx : d.users.find u = some x)
    (hremote : x.server ≠ me) : RemoteUids (d.remove canon u x) := by
  intro v y k hy hyremote hk
  rw [Directory.remove, Registry.find_erase] at hy
  split_ifs at hy with hv
  exact uid_kept canon h hx hremote (h v y k hy hyremote hk) hv

end directory

namespace ServerNet
section rules
variable {ircd : Ircd} {leaving : Net → MemberId → List ClientId} {proto : JupeProtocol}
  {f : ServerNet} {n : Net} {s : ServerId} {x : Server}

theorem TreeOk.of_net (h : TreeOk ircd f) (hmembers : n.MembersOk ircd)
    (hlogins : n.LoginsOk ircd) (hremote : RemoteUids n.dir) (hplaced : Placed n.dir n.census)
    (hsame : SameServers f.net.census n.census) : TreeOk ircd { f with net := n } := by
  have hname : ∀ t, name { f with net := n } t = f.name t := fun t => hsame.name
  refine ⟨hmembers, hlogins, hremote, hplaced, h.tree.same hsame, ?_, ?_, ?_⟩
  · have hkey : nameKey ircd { f with net := n } = f.nameKey ircd := by
      funext t
      rw [nameKey, hname, nameKey]
    rw [hkey]
    exact h.names
  · have hkey : sidKey { f with net := n } = f.sidKey := by
      funext t
      rw [sidKey, hname, sidKey]
    rw [hkey]
    exact h.sids
  · rw [hsame.length]
    exact h.count

theorem treeOk_start (sid : Option CString) : TreeOk ircd (start ircd sid) := by
  have hname : ∀ t, (start ircd sid).name t = if t = me then some ircd.meName else none := by
    intro t
    cases hx : (start ircd sid).server t with
    | some x =>
      obtain ⟨rfl, rfl⟩ := find_start hx
      rfl
    | none =>
      rw [name, hx, Option.map_none, if_neg]
      rintro rfl
      cases hx
  refine ⟨Net.membersOk_start, Net.loginsOk_start, ?_, placed_start ircd.meName, ⟨?_, ?_, ?_, ?_⟩,
    ?_, ?_, rfl⟩
  · intro u x k hx
    cases hx
  · intro x hx
    obtain ⟨-, rfl⟩ := find_start hx
    rfl
  · intro t x hx ht
    exact absurd (find_start hx).1 ht
  · intro t x v hx
    obtain ⟨-, rfl⟩ := find_start hx
    constructor
    · intro hv
      cases hv
    · rintro ⟨y, hy, hup⟩
      obtain ⟨-, rfl⟩ := find_start hy
      cases hup
  · intro t x hx
    obtain ⟨-, rfl⟩ := find_start hx
    exact List.nodup_nil
  · have hkey : (start ircd sid).nameKey ircd =
        fun t => if t = me then some (ircd.irccasecanon ircd.meName) else none := by
      funext t
      rw [nameKey, hname]
      by_cases ht : t = me
      · rw [if_pos ht, if_pos ht]
        rfl
      · rw [if_neg ht, if_neg ht, Option.bind_none]
    rw [hkey]
    exact Registry.indexBy_empty.insertKey (o := some _) rfl fun _ _ => rfl
  · have hkey : (start ircd sid).sidKey = fun t => if t = me then sid else none := by
      funext t
      rw [sidKey, hname]
      by_cases ht : t = me
      · rw [if_pos ht, if_pos ht]
        rfl
      · rw [if_neg ht, if_neg ht, Option.bind_none]
    rw [hkey]
    exact Registry.indexBy_empty.insertKey rfl fun _ _ => rfl

theorem TreeOk.userInsert (h : TreeOk ircd f) {x : User}
    (hfree : f.net.userFindNamed ircd x.nick = none) (hserver : (f.server x.server).isSome = true)
    (huid : x.server = me ∨ ∀ k, x.uid = some k → f.net.dir.uidlist.find k = none) :
    TreeOk ircd { f with net := f.net.userInsert ircd x } := by
  have hnext := h.members.nicks.next_free
  exact h.of_net (h.members.userInsert hfree)
    (h.logins.userInsert hfree)
    (h.remote.insert huid) (h.placed.enter hnext hserver) sameServers_enter

theorem TreeOk.serverAdd (h : TreeOk ircd f) {nm sid : Option CString} {up : ServerId}
    (hup : (f.server up).isSome = true)
    (hname : ∀ k, nm.map ircd.irccasecanon = some k → f.servlist.find k = none)
    (hsid : ∀ k, sid = some k → f.sidlist.find k = none) :
    TreeOk ircd (serverAdd ircd f nm up sid) := by
  obtain ⟨y, hy⟩ := Option.isSome_iff_exists.mp hup
  rw [ServerNet.serverAdd, hy]
  dsimp only
  split_ifs
  · exact h
  have hfree : f.net.census.servers.find f.net.census.next = none := by
    cases hx : f.net.census.servers.find f.net.census.next with
    | none => rfl
    | some x => exact absurd (h.placed.fresh _ _ hx) (Nat.lt_irrefl _)
  have hme : f.net.census.next ≠ me := by
    intro heq
    have hown := h.placed.own
    rw [← heq, hfree] at hown
    cases hown
  have hnone : f.name f.net.census.next = none := by rw [name, server, hfree, Option.map_none]
  have hnames : ∀ t, ((f.net.census.addServer (nm.getD y.name) up).servers.find t).map Server.name =
      if t = f.net.census.next then some (nm.getD y.name) else f.name t := by
    intro t
    rw [find_added hfree hup]
    split_ifs
    · rfl
    · rw [Option.map_map]
      rfl
    · rfl
  refine ⟨⟨h.members.nicks, h.members.uids, h.members.rooms⟩,
    ⟨h.logins.nicks, h.logins.links, h.logins.accounts⟩, h.remote, h.placed.addServer hup _,
    h.tree.add hfree hup hme, ?_, ?_, ?_⟩
  · have hkey : f.nameKey ircd f.net.census.next = none := by rw [nameKey, hnone, Option.bind_none]
    have hindex := h.names.insertKey hkey hname
    convert hindex using 1
    funext t
    rw [nameKey, name, server, Net.serverAdd, hnames t]
    dsimp only
    by_cases ht : t = f.net.census.next
    · simp only [if_pos ht]
      cases nm <;> rfl
    · simp only [if_neg ht]
      rfl
  · have hkey : f.sidKey f.net.census.next = none := by rw [sidKey, hnone, Option.bind_none]
    have hindex := h.sids.insertKey hkey hsid
    convert hindex using 1
    funext t
    rw [sidKey, name, server, Net.serverAdd, hnames t]
    dsimp only
    by_cases ht : t = f.net.census.next
    · simp only [if_pos ht]
      rfl
    · simp only [if_neg ht]
      rfl
  · rw [Net.serverAdd, Census.addServer, Registry.length_modify, Registry.length_insertNew hfree,
      h.count]
    push_cast
    rfl

theorem TreeOk.setJupePending (h : TreeOk ircd f) (s : ServerId) :
    TreeOk ircd (f.setJupePending s) := by
  have hidents : ∀ t, ((f.setJupePending s).idents t).sid = (f.idents t).sid ∧
      ((f.setJupePending s).idents t).masked = (f.idents t).masked := by
    intro t
    simp only [ServerNet.setJupePending]
    split_ifs <;> exact ⟨rfl, rfl⟩
  refine ⟨h.members, h.logins, h.remote, h.placed, h.tree, ?_, ?_, h.count⟩
  · have hkey : nameKey ircd (f.setJupePending s) = f.nameKey ircd := by
      funext t
      rw [nameKey, nameKey, (hidents t).2]
      rfl
    rw [hkey]
    exact h.names
  · have hkey : sidKey (f.setJupePending s) = f.sidKey := by
      funext t
      rw [sidKey, sidKey, (hidents t).1]
      rfl
    rw [hkey]
    exact h.sids

variable (ircd proto) in
theorem jupe_frame (f : ServerNet) (nm : CString) :
    ∃ idents, jupe ircd proto f nm = { f with idents := idents } ∧
      ∀ t, (idents t).sid = (f.idents t).sid ∧ (idents t).masked = (f.idents t).masked := by
  have hsame : ∃ idents, f = { f with idents := idents } ∧
      ∀ t, (idents t).sid = (f.idents t).sid ∧ (idents t).masked = (f.idents t).masked :=
    ⟨f.idents, rfl, fun _ => ⟨rfl, rfl⟩⟩
  have hmark : ∀ t, ∃ idents, f.setJupePending t = { f with idents := idents } ∧
      ∀ t, (idents t).sid = (f.idents t).sid ∧ (idents t).masked = (f.idents t).masked := by
    intro t
    refine ⟨_, rfl, fun v => ?_⟩
    split_ifs <;> exact ⟨rfl, rfl⟩
  rw [jupe]
  split
  · exact hsame
  · next t ht =>
    cases proto with
    | ircnet => exact hmark t
    | inspircd => exact hmark t
    | bahamut =>
      dsimp only
      split
      · exact hsame
      · split_ifs
        · exact hmark t
        · exact hsame

variable (ircd proto) in
theorem removeServer_frame (f : ServerNet) (s : ServerId) (x : Server) :
    ∃ idents, removeServer ircd proto f s x =
      { net := { f.net with census := f.net.census.dropServer s }
        idents := idents
        servlist := f.servlist.eraseKey
          (if (f.idents s).masked then none else some (ircd.irccasecanon x.name))
        sidlist := f.sidlist.eraseKey (f.idents s).sid
        cntServer := f.cntServer - 1 } ∧
      ∀ t, (idents t).sid = (f.idents t).sid ∧ (idents t).masked = (f.idents t).masked := by
  rw [removeServer]
  generalize Registry.eraseKey (if (f.idents s).masked then none
    else some (ircd.irccasecanon x.name)) f.servlist = servlist
  dsimp only
  split_ifs
  · obtain ⟨idents, hjupe, hidents⟩ := jupe_frame ircd proto
      { f with servlist := servlist, sidlist := f.sidlist.eraseKey (f.idents s).sid } x.name
    rw [hjupe]
    exact ⟨idents, rfl, hidents⟩
  · exact ⟨f.idents, rfl, fun _ => ⟨rfl, rfl⟩⟩

variable (proto) in
theorem TreeOk.removeServer (h : TreeOk ircd f) (hx : f.server s = some x) (hs : s ≠ me)
    (hchildren : x.children = []) (husers : usersOn f.net.dir s = []) {x₀ : Server}
    (hname : x₀.name = x.name) : TreeOk ircd (removeServer ircd proto f s x₀) := by
  obtain ⟨up, hup, hlive⟩ := h.tree.uplink s x hx hs
  have hne : up ≠ s := by
    intro heq
    have hmem := (h.tree.children s x s hx).mpr ⟨x, hx, heq ▸ hup⟩
    rw [hchildren] at hmem
    cases hmem
  have hnamekey : (if (f.idents s).masked then none else some (ircd.irccasecanon x₀.name)) =
      f.nameKey ircd s := by
    rw [nameKey, name, hx, hname]
    rfl
  have hsidkey : (f.idents s).sid = f.sidKey s := by
    rw [sidKey, name, hx]
    rfl
  obtain ⟨idents, hjuped, hidents⟩ := removeServer_frame ircd proto f s x₀
  rw [hnamekey, hsidkey] at hjuped
  have hnames : ∀ t, ((f.net.census.dropServer s).servers.find t).map Server.name =
      if t = s then none else f.name t := by
    intro t
    rw [find_dropped hx hup]
    split_ifs
    · rfl
    · rw [Option.map_map]
      rfl
    · rfl
  rw [hjuped]
  refine ⟨⟨h.members.nicks, h.members.uids, h.members.rooms⟩,
    ⟨h.logins.nicks, h.logins.links, h.logins.accounts⟩, h.remote, h.placed.dropServer hs husers,
    h.tree.drop hx hup hchildren, ?_, ?_, ?_⟩
  · convert h.names.eraseKey s using 1
    funext t
    rw [nameKey, name, server, hnames t, (hidents t).2]
    by_cases ht : t = s
    · simp only [if_pos ht, Option.bind_none]
    · simp only [if_neg ht]
      rfl
  · convert h.sids.eraseKey s using 1
    funext t
    rw [sidKey, name, server, hnames t, (hidents t).1]
    by_cases ht : t = s
    · simp only [if_pos ht, Option.bind_none]
    · simp only [if_neg ht]
      rfl
  · have hlen := length_dropped hx hup hne
    have hcount := h.count
    dsimp only
    omega

end rules
end ServerNet
end ChatServices.Network
