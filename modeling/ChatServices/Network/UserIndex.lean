import ChatServices.Lib.Run
import ChatServices.Network.Frames

/-! The indexes of the users over whole runs. A collision of nicks is settled without regard to
the timestamps: an internal client stays, anybody else goes. -/
namespace ChatServices.Network
open ChatServices.Lib ChatServices.Lib.Run ChatServices.Text

structure IndexOk (irccasecanon : CString → CString) (d : Directory) : Prop where
  nicks : d.NicksOk irccasecanon
  sound : d.UidsSound
  complete : d.UidsComplete

section directory
variable {irccasecanon : CString → CString} {d : Directory} {u : ClientId} {x : User}

theorem indexOk_empty : IndexOk irccasecanon .empty :=
  ⟨Directory.empty_nicksOk, Directory.empty_uidsSound, Directory.empty_uidsComplete⟩

theorem IndexOk.insert (h : IndexOk irccasecanon d)
    (hfree : d.userFindNamed irccasecanon x.nick = none) (huid : d.UidUnused x.uid d.next) :
    IndexOk irccasecanon (d.insert irccasecanon x) :=
  ⟨h.nicks.insert hfree, h.sound.insert h.nicks.next_free,
    h.complete.insert h.sound h.nicks.next_free huid⟩

theorem IndexOk.remove (h : IndexOk irccasecanon d) (hx : d.users.find u = some x) :
    IndexOk irccasecanon (d.remove irccasecanon u x) :=
  ⟨h.nicks.remove hx, h.sound.remove hx, h.complete.remove hx⟩

theorem IndexOk.rename (h : IndexOk irccasecanon d) (hx : d.users.find u = some x) {nick : CString}
    (hfree : ∀ v, d.userFindNamed irccasecanon nick = some v → v = u) (ts : Int) :
    IndexOk irccasecanon (d.rename irccasecanon u x nick ts) :=
  ⟨h.nicks.rename hx hfree ts, h.sound.rename hx nick ts, h.complete.rename hx nick ts⟩

theorem IndexOk.changeUid (h : IndexOk irccasecanon d) (hx : d.users.find u = some x)
    {uid : Option CString} (huid : d.UidUnused uid u) :
    IndexOk irccasecanon (d.changeUid u x uid) :=
  ⟨h.nicks.changeUid hx uid, h.sound.changeUid hx uid, h.complete.changeUid h.sound hx huid⟩

theorem unused_remove {uid : Option CString} {v : ClientId} (h : d.UidUnused uid v) :
    (d.remove irccasecanon u x).UidUnused uid v := by
  intro w y hy
  rw [Directory.remove, Registry.find_erase] at hy
  split_ifs at hy with hw
  exact h w y hy

theorem unused_rename {uid : Option CString} {v : ClientId} {nick : CString} {ts : Int}
    (hx : d.users.find u = some x) (h : d.UidUnused uid v) :
    (d.rename irccasecanon u x nick ts).UidUnused uid v := by
  intro w y hy
  rw [Directory.rename, Registry.find_set] at hy
  split_ifs at hy with hw
  · subst hw
    rw [hx] at hy
    cases hy
    exact h w x hx
  · exact h w y hy

end directory

namespace Net
variable (ircd : Ircd) (leaving : Net → MemberId → List ClientId)

def marked (n : Net) (u : ClientId) : Bool := isSet UF_DOENFORCE (n.census.flags u)

/-- What `uid_get` returns next is nobody's UID. -/
def EnforcerUidUnused (n : Net) : Prop := n.dir.UidUnused (n.nextUid ircd) n.dir.next

inductive UserEvent where
  | add (x : User) (now : Int)
  | changeNick (u : ClientId) (nick : CString) (ts : Int)
  | changeUid (u : ClientId) (uid : Option CString)
  | delete (u : ClientId)
  | setFlags (u : ClientId) (f : Flags)

def userStep (n : Net) (e : UserEvent) : Net × List Unit :=
  (match e with
    | .add x now => (userAdd ircd leaving n x now).1
    | .changeNick u nick ts => (userChangenick ircd leaving n u nick ts).1
    | .changeUid u uid => userChangeuid n u uid
    | .delete u => userDelete ircd leaving n u
    | .setFlags u f => n.setFlags u f, [])

def atStake (n : Net) : UserEvent → List ClientId
  | .add x _ => (n.userFindNamed ircd x.nick).toList
  | .changeNick u nick _ => u :: (n.userFindNamed ircd nick).toList
  | .delete u => [u]
  | .changeUid _ _ => []
  | .setFlags _ _ => []

def newUid (n : Net) : UserEvent → Option CString × ClientId
  | .add x _ => (x.uid, n.dir.next)
  | .changeUid u uid => (uid, u)
  | _ => (none, n.dir.next)

def UidsUnused (n : Net) (e : UserEvent) : Prop :=
  n.dir.UidUnused (newUid n e).1 (newUid n e).2 ∧
  ∀ u ∈ atStake ircd n e, n.marked u = true → n.EnforcerUidUnused ircd

instance (n : Net) : Decidable (n.EnforcerUidUnused ircd) :=
  inferInstanceAs (Decidable (n.dir.UidUnused _ _))

instance (n : Net) (e : UserEvent) : Decidable (UidsUnused ircd n e) :=
  inferInstanceAs (Decidable (_ ∧ _))

section rules
variable {ircd leaving} {n : Net} {u : ClientId} {x : User}

theorem marked_cleared (n : Net) (u : ClientId) :
    (n.setFlags u (n.census.flags u &&& ~~~UF_DOENFORCE)).marked u = false := by
  have hbits : ∀ f : Flags, isSet UF_DOENFORCE (f &&& ~~~UF_DOENFORCE) = false := by
    intro f
    have hnone : ~~~UF_DOENFORCE &&& UF_DOENFORCE = 0 := by decide
    simp [isSet, BitVec.and_assoc, hnone]
  simp only [marked, setFlags, Census.setFlags, if_true]
  exact hbits _

theorem marked_setFlags_ne {v : ClientId} {f : Flags} (h : v ≠ u) :
    (n.setFlags u f).marked v = n.marked v := by
  simp only [marked, setFlags, Census.setFlags, if_neg h]

@[simp] theorem marked_userGone {v : ClientId} :
    (userGone ircd leaving n u x).marked v = n.marked v := by
  rw [marked, userGone_census]
  rfl

theorem userDelete_unmarked (hx : n.dir.users.find u = some x) (h : n.marked u = false) :
    userDelete ircd leaving n u = userGone ircd leaving n u x := by
  rw [marked] at h
  simp only [userDelete, hx, h, Bool.false_eq_true, if_false]

theorem userDelete_marked (hx : n.dir.users.find u = some x) (h : n.marked u = true) :
    userDelete ircd leaving n u = introduceEnforcer ircd
      (userGone ircd leaving (n.setFlags u (n.census.flags u &&& ~~~UF_DOENFORCE)) u x)
      (truncate NICKLEN x.nick) := by
  rw [marked] at h
  simp only [userDelete, hx, h, if_true]

variable (ircd) in
theorem introduceEnforcer_dir (n : Net) (nick : CString) :
    (introduceEnforcer ircd n nick).dir = n.dir ∨
      n.userFindNamed ircd nick = none ∧ (introduceEnforcer ircd n nick).dir =
        n.dir.insert ircd.irccasecanon (enforcer ircd n nick) := by
  cases h : n.userFindNamed ircd nick with
  | some v =>
    rw [introduceEnforcer_taken ircd h, drawUid_dir]
    exact .inl rfl
  | none =>
    rw [introduceEnforcer_free ircd h, setFlags_dir, userInsert_dir, drawUid_dir]
    exact .inr ⟨rfl, rfl⟩

theorem introduceEnforcer_index (h : IndexOk ircd.irccasecanon n.dir)
    (huid : n.EnforcerUidUnused ircd) (nick : CString) :
    IndexOk ircd.irccasecanon (introduceEnforcer ircd n nick).dir := by
  obtain hdir | ⟨hfree, hdir⟩ := introduceEnforcer_dir ircd n nick
  · rw [hdir]
    exact h
  · rw [hdir]
    exact h.insert hfree huid

theorem userDelete_index (h : IndexOk ircd.irccasecanon n.dir)
    (huid : n.marked u = true → n.EnforcerUidUnused ircd) :
    IndexOk ircd.irccasecanon (userDelete ircd leaving n u).dir := by
  cases hx : n.dir.users.find u with
  | none =>
    simp only [userDelete, hx]
    exact h
  | some x =>
    cases hm : n.marked u with
    | false =>
      rw [userDelete_unmarked hx hm, userGone_dir]
      exact h.remove hx
    | true =>
      rw [userDelete_marked hx hm]
      apply introduceEnforcer_index
      · rw [userGone_dir]
        exact h.remove hx
      · rw [EnforcerUidUnused, userGone_dir, userGone_nextUid]
        exact unused_remove (huid hm)

theorem userAdd_index (h : IndexOk ircd.irccasecanon n.dir) {now : Int}
    (huid : UidsUnused ircd n (.add x now)) :
    IndexOk ircd.irccasecanon (userAdd ircd leaving n x now).1.dir := by
  obtain ⟨hnew, henf⟩ := huid
  simp only [userAdd]
  cases hf : n.userFindNamed ircd x.nick with
  | none =>
    show IndexOk _ (n.userInsert ircd _).dir
    rw [userInsert_dir]
    apply h.insert
    · exact hf
    · exact hnew
  | some u2 =>
    simp only
    split_ifs
    · exact h
    · exact h
    · apply userDelete_index h
      exact henf u2 (by simp [atStake, hf])

def unmarked (n : Net) (u : ClientId) : Net :=
  if n.marked u then n.setFlags u (n.census.flags u &&& ~~~UF_DOENFORCE) else n

@[simp] theorem unmarked_dir : (n.unmarked u).dir = n.dir := by
  rw [unmarked]
  split_ifs <;> rfl

@[simp] theorem unmarked_nextUid : (n.unmarked u).nextUid ircd = n.nextUid ircd := by
  rw [unmarked]
  split_ifs <;> rfl

theorem marked_unmarked : (n.unmarked u).marked u = false := by
  rw [unmarked]
  split_ifs with hm
  · exact marked_cleared n u
  · simpa using hm

theorem marked_unmarked_ne {v : ClientId} (hv : v ≠ u) :
    (n.unmarked u).marked v = n.marked v := by
  rw [unmarked]
  split_ifs
  · exact marked_setFlags_ne hv
  · rfl

theorem userChangenick_eq (hx : n.dir.users.find u = some x) (nick : CString) (ts : Int)
    (hne : n.userFindNamed ircd nick ≠ some u) :
    userChangenick ircd leaving n u nick ts = match n.userFindNamed ircd nick with
      | some u2 =>
        if x.server = me then (n.unmarked u, false)
        else if n.dir.isInternalClient u2 then (userGone ircd leaving (n.unmarked u) u x, true)
        else (userDelete ircd leaving (userGone ircd leaving (n.unmarked u) u x) u2, true)
      | none =>
        let renamed :=
          { n.unmarked u with dir := n.dir.rename ircd.irccasecanon u x nick ts }
        (if n.marked u then introduceEnforcer ircd renamed (truncate NICKLEN x.nick)
          else renamed, false) := by
  have hdo : (isSet UF_DOENFORCE (n.census.flags u) && n.userFindNamed ircd nick != some u) =
      n.marked u := by
    have hbne : (n.userFindNamed ircd nick != some u) = true := by simpa using hne
    rw [hbne, Bool.and_true, marked]
  have hmx : (n.unmarked u).dir.users.find u = some x := by rw [unmarked_dir, hx]
  have hgone : userDelete ircd leaving (n.unmarked u) u =
      userGone ircd leaving (n.unmarked u) u x := userDelete_unmarked hmx marked_unmarked
  have hm : (if n.marked u = true then n.setFlags u (n.census.flags u &&& ~~~UF_DOENFORCE) else n) =
      n.unmarked u := rfl
  simp only [userChangenick, hx, hdo, hm]
  cases hf : n.userFindNamed ircd nick with
  | none =>
    simp only [Option.filter_none, unmarked_dir]
  | some u2 =>
    have hu2 : u2 ≠ u := fun he => hne (he ▸ hf)
    have hfilter : (some u2).filter (fun v => decide (v ≠ u)) = some u2 := by simp [hu2]
    simp only [hfilter, hgone, unmarked_dir]

theorem userChangenick_index (h : IndexOk ircd.irccasecanon n.dir) {nick : CString} {ts : Int}
    (huid : UidsUnused ircd n (.changeNick u nick ts)) :
    IndexOk ircd.irccasecanon (userChangenick ircd leaving n u nick ts).1.dir := by
  obtain ⟨-, henf⟩ := huid
  cases hx : n.dir.users.find u with
  | none =>
    simp only [userChangenick, hx]
    exact h
  | some x =>
    by_cases hown : n.userFindNamed ircd nick = some u
    · have hfree : ∀ v, n.dir.userFindNamed ircd.irccasecanon nick = some v → v = u := by
        intro v hv
        rw [userFindNamed, hv] at hown
        exact Option.some.inj hown
      have hnone : (some u).filter (fun v => decide (v ≠ u)) = none := by simp
      simp only [userChangenick, hx, hown, hnone, bne_self_eq_false, Bool.and_false,
        Bool.false_eq_true, if_false]
      exact h.rename hx hfree ts
    · rw [userChangenick_eq hx nick ts hown]
      cases hf : n.userFindNamed ircd nick with
      | none =>
        have hren : IndexOk ircd.irccasecanon (n.dir.rename ircd.irccasecanon u x nick ts) := by
          apply h.rename hx
          intro v hv
          rw [userFindNamed, hv] at hf
          cases hf
        simp only
        split_ifs with hm
        · apply introduceEnforcer_index hren
          have hunused := henf u (by simp [atStake]) hm
          rw [EnforcerUidUnused, ← unmarked_nextUid (u := u)] at hunused
          exact unused_rename hx hunused
        · exact hren
      | some u2 =>
        simp only
        split_ifs
        · rw [unmarked_dir]
          exact h
        · rw [userGone_dir, unmarked_dir]
          exact h.remove hx
        · apply userDelete_index
          · rw [userGone_dir, unmarked_dir]
            exact h.remove hx
          · intro hm
            have hu2 : u2 ≠ u := fun he => hown (he ▸ hf)
            rw [marked_userGone, marked_unmarked_ne hu2] at hm
            have hunused := henf u2 (by simp [atStake, hf]) hm
            rw [EnforcerUidUnused, userGone_dir, userGone_nextUid, unmarked_dir, unmarked_nextUid]
            exact unused_remove hunused

theorem userStep_index (h : IndexOk ircd.irccasecanon n.dir) {e : UserEvent}
    (huid : UidsUnused ircd n e) :
    IndexOk ircd.irccasecanon (userStep ircd leaving n e).1.dir := by
  cases e with
  | add x now => exact userAdd_index h huid
  | changeNick u nick ts => exact userChangenick_index h huid
  | changeUid u uid =>
    simp only [userStep, userChangeuid]
    cases hx : n.dir.users.find u with
    | none => exact h
    | some x => exact h.changeUid hx huid.1
  | delete u => exact userDelete_index h (huid.2 u (by simp [atStake]))
  | setFlags u f => exact h

end rules

/-! ### Collisions -/

/-- Nobody but the users in `gone` has left, and nobody has come but an enforcer for one of them. -/
def Leaves (n n' : Net) (gone : List ClientId) : Prop :=
  (∀ v, v ≠ n.dir.next →
    n'.dir.users.find v = if v ∈ gone then none else n.dir.users.find v) ∧
  ∀ y, n'.dir.users.find n.dir.next = some y → y.server = me ∧ ∃ v ∈ gone, n.marked v = true

section collisions
variable {ircd leaving} {n : Net} {u u2 : ClientId} {x x2 : User}

theorem leaves_nobody {n' : Net} (h : IndexOk ircd.irccasecanon n.dir) (hdir : n'.dir = n.dir) :
    Leaves n n' [] := by
  refine ⟨fun v _ => by simp [hdir], fun y hy => ?_⟩
  rw [hdir, h.nicks.next_free] at hy
  cases hy

theorem Leaves.userGone {m : Net} {gone : List ClientId} (h : Leaves n m gone)
    (hlt : u ≠ n.dir.next) : Leaves n (userGone ircd leaving m u x) (u :: gone) := by
  refine ⟨fun v hv => ?_, fun y hy => ?_⟩
  · rw [userGone_dir, Directory.remove, Registry.find_erase]
    by_cases hvu : v = u
    · simp [hvu]
    · simp [hvu, h.1 v hv]
  · rw [userGone_dir, Directory.remove, Registry.find_erase, if_neg (Ne.symm hlt)] at hy
    obtain ⟨hserver, v, hv, hmark⟩ := h.2 y hy
    exact ⟨hserver, v, List.mem_cons_of_mem _ hv, hmark⟩

theorem Leaves.userDelete {m : Net} {gone : List ClientId} (h : Leaves n m gone)
    (hnext : m.dir.next = n.dir.next) (hmark : m.marked u = n.marked u)
    (hx : m.dir.users.find u = some x) (hfree : m.dir.users.find m.dir.next = none) :
    Leaves n (userDelete ircd leaving m u) (u :: gone) := by
  have hlt : u ≠ n.dir.next := by
    intro he
    rw [← hnext] at he
    rw [he, hfree] at hx
    cases hx
  cases hm : m.marked u with
  | false =>
    rw [userDelete_unmarked hx hm]
    exact h.userGone hlt
  | true =>
    rw [userDelete_marked hx hm]
    have hgone : Leaves n (Net.userGone ircd leaving
        (m.setFlags u (m.census.flags u &&& ~~~UF_DOENFORCE)) u x) (u :: gone) :=
      Leaves.userGone ⟨h.1, h.2⟩ hlt
    obtain hdir | ⟨-, hdir⟩ := introduceEnforcer_dir ircd
      (Net.userGone ircd leaving (m.setFlags u (m.census.flags u &&& ~~~UF_DOENFORCE)) u x)
      (truncate NICKLEN x.nick)
    · exact ⟨fun v hv => by rw [hdir, hgone.1 v hv], fun y hy => hgone.2 y (hdir ▸ hy)⟩
    · rw [userGone_dir] at hdir
      refine ⟨fun v hv => ?_, fun y hy => ?_⟩
      · have hvn : ¬m.dir.next = v := fun he => hv (hnext ▸ he.symm)
        have hold := hgone.1 v hv
        rw [userGone_dir] at hold
        rw [hdir, Directory.insert, Registry.find_insertNew]
        show (Registry.find v (m.dir.remove ircd.irccasecanon u x).users).or
          (if m.dir.next = v then _ else none) = _
        rw [if_neg hvn, Option.or_none, ← hold]
        rfl
      · have hnone : (m.dir.remove ircd.irccasecanon u x).users.find n.dir.next = none := by
          rw [Directory.remove, Registry.find_erase, if_neg (Ne.symm hlt), ← hnext, hfree]
        rw [hdir, Directory.insert, Registry.find_insertNew] at hy
        have hins : (m.dir.remove ircd.irccasecanon u x).users.find n.dir.next = none := hnone
        change ((m.dir.remove ircd.irccasecanon u x).users.find n.dir.next).or _ = some y at hy
        rw [hins, Option.none_or] at hy
        split_ifs at hy
        cases hy
        exact ⟨rfl, u, List.mem_cons_self .., hmark ▸ hm⟩

theorem userAdd_collision (h : IndexOk ircd.irccasecanon n.dir)
    (hx2 : n.dir.users.find u2 = some x2) (now : Int)
    (hnick : ircd.irccasecanon x.nick = ircd.irccasecanon x2.nick) :
    (userAdd ircd leaving n x now).2 = none ∧
    Leaves n (userAdd ircd leaving n x now).1
      (if x.server = me ∨ x2.server = me then [] else [u2]) := by
  have hf : n.userFindNamed ircd x.nick = some u2 := by
    rw [userFindNamed, Directory.userFindNamed, hnick]
    exact h.nicks.found hx2
  have hint : n.dir.isInternalClient u2 = decide (x2.server = me) := by
    simp [Directory.isInternalClient, hx2]
  simp only [userAdd, hf, hint, decide_eq_true_eq]
  by_cases hxme : x.server = me
  · simp only [hxme, true_or, if_true]
    exact ⟨trivial, leaves_nobody h rfl⟩
  · by_cases hx2me : x2.server = me
    · simp only [hxme, hx2me, or_true, if_true, if_false]
      exact ⟨trivial, leaves_nobody h rfl⟩
    · simp only [hxme, hx2me, or_self, if_false]
      exact ⟨trivial, (leaves_nobody h rfl).userDelete rfl rfl hx2 h.nicks.next_free⟩

theorem userChangenick_collision (h : IndexOk ircd.irccasecanon n.dir)
    (hx : n.dir.users.find u = some x) (hx2 : n.dir.users.find u2 = some x2) (hne : u ≠ u2)
    {nick : CString} (ts : Int) (hnick : ircd.irccasecanon nick = ircd.irccasecanon x2.nick) :
    Leaves n (userChangenick ircd leaving n u nick ts).1
      (if x.server = me then [] else if x2.server = me then [u] else [u2, u]) := by
  have hf : n.userFindNamed ircd nick = some u2 := by
    rw [userFindNamed, Directory.userFindNamed, hnick]
    exact h.nicks.found hx2
  have hint : n.dir.isInternalClient u2 = decide (x2.server = me) := by
    simp [Directory.isInternalClient, hx2]
  have hother : n.userFindNamed ircd nick ≠ some u := by
    rw [hf]
    exact fun he => hne (Option.some.inj he).symm
  have hlt : u ≠ n.dir.next := by
    intro he
    rw [he, h.nicks.next_free] at hx
    cases hx
  have hgone : Leaves n (userGone ircd leaving (n.unmarked u) u x) [u] :=
    (leaves_nobody h unmarked_dir).userGone hlt
  rw [userChangenick_eq hx nick ts hother, hf]
  simp only [hint, decide_eq_true_eq]
  split_ifs
  · exact leaves_nobody h unmarked_dir
  · exact hgone
  · apply hgone.userDelete
    · rw [userGone_dir, unmarked_dir]
      rfl
    · rw [marked_userGone, marked_unmarked_ne hne.symm]
    · rw [userGone_dir, Directory.remove, Registry.find_erase, if_neg hne.symm, unmarked_dir, hx2]
    · rw [userGone_dir, unmarked_dir]
      show (n.dir.users.erase u).find n.dir.next = none
      rw [Registry.find_erase, if_neg hlt.symm, h.nicks.next_free]

structure Indexed (ircd : Ircd) (d : Directory) : Prop where
  byNick : ∀ u x, d.users.find u = some x → d.userFindNamed ircd.irccasecanon x.nick = some u
  byUid : ∀ u x k, d.users.find u = some x → x.uid = some k →
    d.userFind ircd.irccasecanon true k = some u
  nicks : ∀ u v x y, d.users.find u = some x → d.users.find v = some y → u ≠ v →
    ircd.irccasecanon x.nick ≠ ircd.irccasecanon y.nick
  uids : ∀ u v x y, d.users.find u = some x → d.users.find v = some y → u ≠ v →
    x.uid ≠ none → x.uid ≠ y.uid
  userlist : ∀ k u, d.userlist.find k = some u → (d.users.find u).isSome = true
  uidlist : ∀ k u, d.uidlist.find k = some u → (d.users.find u).isSome = true

theorem indexed_of_indexOk {d : Directory} (h : IndexOk ircd.irccasecanon d) : Indexed ircd d where
  byNick u x hx := h.nicks.found hx
  byUid u x k hx hk := by rw [Directory.userFind, h.complete u x k hx hk]; rfl
  nicks u v x y hx hy hne heq := hne (h.nicks.nick_inj hx hy heq)
  uids u v x y hx hy hne huid heq := by
    obtain ⟨k, hk⟩ := Option.ne_none_iff_exists'.mp huid
    exact hne (h.complete.uid_inj hx hy hk (heq ▸ hk))
  userlist k u hu := by
    obtain ⟨x, hx, -⟩ := (h.nicks.named k u).mp hu
    rw [hx]
    rfl
  uidlist k u hu := by
    obtain ⟨x, hx, -⟩ := h.sound k u hu
    rw [hx]
    rfl

/-- The indexes in every run, and who is left by a collision of nicks: the client of services if
it has the nick already, otherwise neither of the two, whatever the timestamps say. -/
theorem user_index_run (es : List UserEvent)
    (hrun : Guarded (userStep ircd leaving) (UidsUnused ircd) (start ircd) es) :
    let n := (run (userStep ircd leaving) (start ircd) es).1
    Indexed ircd n.dir ∧
    ∀ u2 x2, n.dir.users.find u2 = some x2 →
      (∀ x now, ircd.irccasecanon x.nick = ircd.irccasecanon x2.nick →
        (userAdd ircd leaving n x now).2 = none ∧
        Leaves n (userAdd ircd leaving n x now).1
          (if x.server = me ∨ x2.server = me then [] else [u2])) ∧
      ∀ u x nick ts, n.dir.users.find u = some x → u ≠ u2 →
        ircd.irccasecanon nick = ircd.irccasecanon x2.nick →
        Leaves n (userChangenick ircd leaving n u nick ts).1
          (if x.server = me then [] else if x2.server = me then [u] else [u2, u]) := by
  intro n
  have hok : IndexOk ircd.irccasecanon n.dir := by
    apply @run_state_invariant _ _ _ (userStep ircd leaving)
      (fun n => IndexOk ircd.irccasecanon n.dir) (UidsUnused ircd)
    · exact fun s e h huid => userStep_index h huid
    · exact indexOk_empty
    · exact hrun
  refine ⟨indexed_of_indexOk hok, fun u2 x2 hx2 => ⟨?_, ?_⟩⟩
  · exact fun x now hnick => userAdd_collision hok hx2 now hnick
  · exact fun u x nick ts hx hne hnick => userChangenick_collision hok hx hx2 hne ts hnick

end collisions

/-! ### The timestamps -/

def sameUserHost (ircd : Ircd) (x x2 : User) : Bool :=
  ircd.irccasecanon x.user = ircd.irccasecanon x2.user &&
    ircd.irccasecanon x.host = ircd.irccasecanon x2.host

def holderLoses (ircd : Ircd) (x x2 : User) : Bool :=
  x.ts = x2.ts || (x.ts < x2.ts ^^ sameUserHost ircd x x2)

def plainIrcd : Ircd where
  irccasecanon := Text.irccasecanon .rfc1459
  usesUid := true
  uidGet _ := some ['0', '0', 'A']
  permMode := 0
  prefixModeList := []
  userModeList := [('i', UF_INVIS), ('o', UF_IRCOP)]
  killsOnLogout := false
  meName := ['s']

def older : User := ⟨['a'], ['u'], ['h'], some ['1'], 1, 100⟩
def younger : User := ⟨['a'], ['v'], ['g'], some ['2'], 1, 200⟩

/-- The holder of a nick is older than a newcomer with another user and host, and is gone. -/
theorem collision_older_gone :
    holderLoses plainIrcd younger older = false ∧
    let n := (userStep plainIrcd (fun _ _ => []) (start plainIrcd) (.add older 0)).1
    n.dir.users.find 0 = some older ∧
    let n' := (userStep plainIrcd (fun _ _ => []) n (.add younger 0)).1
    n'.dir.users.find 0 = none ∧ n'.userFindNamed plainIrcd ['a'] = none := by
  decide +kernel

theorem user_index_of_collision :
    let n := (run (userStep plainIrcd fun _ _ => []) (start plainIrcd)
      [.add older 0, .add younger 0]).1
    Indexed plainIrcd n.dir :=
  (user_index_run [.add older 0, .add younger 0] (by decide +kernel)).1

end Net
end ChatServices.Network
