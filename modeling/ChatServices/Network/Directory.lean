import ChatServices.Lib.Registry
import ChatServices.Text

/-! The users of the network and the two indexes `userlist` and `uidlist`,
`libathemecore/users.c`. An index keeps what it has when a key is added twice. -/
namespace ChatServices.Network
open ChatServices.Lib ChatServices.Text

abbrev ClientId := Nat
abbrev ServerId := Nat

def me : ServerId := 0

def NICKLEN : Nat := 32

/-- The fields of a `user_t` that its introduction sets. -/
structure User where
  nick : CString
  user : CString
  host : CString
  uid : Option CString
  server : ServerId
  ts : Int
  deriving DecidableEq

structure Directory where
  users : Registry ClientId User
  userlist : Registry CString ClientId
  uidlist : Registry CString ClientId
  next : ClientId

namespace Directory
variable (irccasecanon : CString → CString)

def empty : Directory := ⟨.empty, .empty, .empty, 0⟩

def userFindNamed (d : Directory) (nick : CString) : Option ClientId :=
  d.userlist.find (irccasecanon nick)

def userFind (usesUid : Bool) (d : Directory) (nick : CString) : Option ClientId :=
  if usesUid then (d.uidlist.find nick).or (d.userFindNamed irccasecanon nick)
  else d.userFindNamed irccasecanon nick

def isInternalClient (d : Directory) (u : ClientId) : Bool :=
  (d.users.find u).any fun x => x.server = me

def addUid (uidlist : Registry CString ClientId) (uid : Option CString) (u : ClientId) :
    Registry CString ClientId :=
  match uid with
  | some uid => uidlist.insertNew uid u
  | none => uidlist

def deleteUid (uidlist : Registry CString ClientId) (uid : Option CString) :
    Registry CString ClientId :=
  match uid with
  | some uid => uidlist.erase uid
  | none => uidlist

/-- What `user_add` does for a user it takes. -/
def insert (d : Directory) (x : User) : Directory where
  users := d.users.insertNew d.next x
  userlist := d.userlist.insertNew (irccasecanon x.nick) d.next
  uidlist := addUid d.uidlist x.uid d.next
  next := d.next + 1

/-- What `user_delete` does with the user `x` at `u`. -/
def remove (d : Directory) (u : ClientId) (x : User) : Directory :=
  { d with
    users := d.users.erase u
    userlist := d.userlist.erase (irccasecanon x.nick)
    uidlist := deleteUid d.uidlist x.uid }

/-- What `user_changenick` does once nobody is in the way. -/
def rename (d : Directory) (u : ClientId) (x : User) (nick : CString) (ts : Int) : Directory :=
  { d with
    users := d.users.set u { x with nick := nick, ts := ts }
    userlist := (d.userlist.erase (irccasecanon x.nick)).insertNew (irccasecanon nick) u }

def changeUid (d : Directory) (u : ClientId) (x : User) (uid : Option CString) : Directory :=
  { d with
    users := d.users.set u { x with uid := uid }
    uidlist := addUid (deleteUid d.uidlist x.uid) uid u }

structure NicksOk (d : Directory) : Prop where
  named : ∀ k u, d.userlist.find k = some u ↔ ∃ x, d.users.find u = some x ∧ irccasecanon x.nick = k
  fresh : ∀ u x, d.users.find u = some x → u < d.next

def UidsSound (d : Directory) : Prop :=
  ∀ k u, d.uidlist.find k = some u → ∃ x, d.users.find u = some x ∧ x.uid = some k

def UidsComplete (d : Directory) : Prop :=
  ∀ u x k, d.users.find u = some x → x.uid = some k → d.uidlist.find k = some u

/-- No user but `u` has the UID. -/
def UidUnused (d : Directory) (uid : Option CString) (u : ClientId) : Prop :=
  ∀ v y, d.users.find v = some y → uid ≠ none → y.uid = uid → v = u

instance (d : Directory) (uid : Option CString) (u : ClientId) : Decidable (d.UidUnused uid u) :=
  decidable_of_iff (∀ e ∈ d.users.entries, uid ≠ none → e.2.uid = uid → e.1 = u) <| by
    simp only [UidUnused, Registry.find_eq_some_iff, Prod.forall]

section rules
variable {irccasecanon} {d : Directory} {u : ClientId} {x : User}

theorem empty_nicksOk : NicksOk irccasecanon empty :=
  ⟨fun k u => by simp [empty], fun u x => by simp [empty]⟩

theorem NicksOk.next_free (h : NicksOk irccasecanon d) : d.users.find d.next = none := by
  cases hx : d.users.find d.next with
  | none => rfl
  | some x => exact absurd (h.fresh _ _ hx) (Nat.lt_irrefl _)

theorem NicksOk.found (h : NicksOk irccasecanon d) (hx : d.users.find u = some x) :
    d.userFindNamed irccasecanon x.nick = some u := (h.named _ u).mpr ⟨x, hx, rfl⟩

theorem NicksOk.holder (h : NicksOk irccasecanon d) {nick : CString}
    (hu : d.userFindNamed irccasecanon nick = some u) :
    ∃ x, d.users.find u = some x ∧ irccasecanon x.nick = irccasecanon nick := (h.named _ u).mp hu

theorem NicksOk.nick_inj (h : NicksOk irccasecanon d) {v : ClientId} {y : User}
    (hx : d.users.find u = some x) (hy : d.users.find v = some y)
    (heq : irccasecanon x.nick = irccasecanon y.nick) : u = v := by
  have hu := h.found hx
  have hv := h.found hy
  rw [userFindNamed, heq] at hu
  rw [userFindNamed, hu] at hv
  exact Option.some.inj hv

theorem NicksOk.insert (h : NicksOk irccasecanon d)
    (hfree : d.userFindNamed irccasecanon x.nick = none) :
    NicksOk irccasecanon (d.insert irccasecanon x) := by
  have hnext := h.next_free
  refine ⟨fun k u => ?_, fun u y hy => ?_⟩
  · rw [Directory.insert, Registry.find_insertNew, Registry.find_insertNew]
    rw [userFindNamed] at hfree
    by_cases hu : u = d.next
    · subst hu
      have hno : d.userlist.find k ≠ some d.next := by
        intro hk
        obtain ⟨y, hy, -⟩ := (h.named k _).mp hk
        simp [hnext] at hy
      by_cases hk : irccasecanon x.nick = k
      · subst hk
        simp [hfree, hnext]
      · cases hf : d.userlist.find k with
        | none => simp [hk, hnext]
        | some v =>
          have hv : v ≠ d.next := fun hv => hno (hv ▸ hf)
          simp [hk, hnext, hv]
    · have hne : ¬d.next = u := fun he => hu he.symm
      rw [if_neg hne, Option.or_none, ← h.named k u]
      by_cases hk : irccasecanon x.nick = k
      · subst hk
        simp [hfree, hne]
      · rw [if_neg hk, Option.or_none]
  · rw [Directory.insert, Registry.find_insertNew, Option.or_eq_some_iff] at hy
    show u < d.next + 1
    obtain hy | ⟨-, hy⟩ := hy
    · exact Nat.lt_succ_of_lt (h.fresh u y hy)
    · split_ifs at hy with hu
      exact hu ▸ Nat.lt_succ_self _

theorem NicksOk.remove (h : NicksOk irccasecanon d) (hx : d.users.find u = some x) :
    NicksOk irccasecanon (d.remove irccasecanon u x) := by
  refine ⟨fun k v => ?_, fun v y hy => ?_⟩
  · rw [Directory.remove, Registry.find_erase, Registry.find_erase]
    by_cases hv : v = u
    · subst hv
      by_cases hk : k = irccasecanon x.nick
      · simp [hk]
      · have hno : d.userlist.find k ≠ some v := by
          intro hf
          obtain ⟨y, hy, hnick⟩ := (h.named k v).mp hf
          rw [hx] at hy
          cases hy
          exact hk hnick.symm
        simp [hk, hno]
    · rw [if_neg hv, ← h.named k v]
      by_cases hk : k = irccasecanon x.nick
      · have hf := h.found hx
        rw [userFindNamed, ← hk] at hf
        have hne : ¬u = v := fun he => hv he.symm
        simp [hk ▸ hf, hk, hne]
      · rw [if_neg hk]
  · rw [Directory.remove, Registry.find_erase] at hy
    split_ifs at hy with hv
    exact h.fresh v y hy

theorem NicksOk.rename (h : NicksOk irccasecanon d) (hx : d.users.find u = some x) {nick : CString}
    (hfree : ∀ v, d.userFindNamed irccasecanon nick = some v → v = u) (ts : Int) :
    NicksOk irccasecanon (d.rename irccasecanon u x nick ts) := by
  have hfound := h.found hx
  rw [userFindNamed] at hfound
  have hfree' : (d.userlist.erase (irccasecanon x.nick)).find (irccasecanon nick) = none := by
    rw [Registry.find_erase]
    split_ifs with hk
    · rfl
    · cases hf : d.userlist.find (irccasecanon nick) with
      | none => rfl
      | some v =>
        obtain rfl := hfree v hf
        obtain ⟨y, hy, hnick⟩ := (h.named _ v).mp hf
        rw [hx] at hy
        cases hy
        exact absurd hnick.symm hk
  refine ⟨fun k v => ?_, fun v y hy => ?_⟩
  · rw [Directory.rename, Registry.find_insertNew, Registry.find_set]
    by_cases hk : irccasecanon nick = k
    · subst hk
      rw [hfree', if_pos rfl, Option.none_or]
      by_cases hv : v = u
      · subst hv
        simp [hx]
      · have hne : ¬u = v := fun he => hv he.symm
        rw [if_neg hv, ← h.named _ v]
        have hno : d.userlist.find (irccasecanon nick) ≠ some v := fun hf => hv (hfree v hf)
        simp [hne, hno]
    · rw [if_neg hk, Option.or_none, Registry.find_erase]
      by_cases hv : v = u
      · subst hv
        have hno : k ≠ irccasecanon x.nick → d.userlist.find k ≠ some v := by
          intro hkx hf
          obtain ⟨y, hy, hnick⟩ := (h.named k v).mp hf
          rw [hx] at hy
          cases hy
          exact hkx hnick.symm
        by_cases hkx : k = irccasecanon x.nick
        · simp [hkx, hx]
          exact fun he => hk (he.trans hkx.symm)
        · simp [hkx, hno hkx, hx, hk]
      · rw [if_neg hv, ← h.named k v]
        by_cases hkx : k = irccasecanon x.nick
        · have hne : ¬u = v := fun he => hv he.symm
          simp [hkx, hfound, hne]
        · rw [if_neg hkx]
  · rw [Directory.rename, Registry.find_set] at hy
    split_ifs at hy with hv
    · subst hv
      exact h.fresh v x hx
    · exact h.fresh v y hy

theorem NicksOk.changeUid (h : NicksOk irccasecanon d) (hx : d.users.find u = some x)
    (uid : Option CString) : NicksOk irccasecanon (d.changeUid u x uid) := by
  refine ⟨fun k v => ?_, fun v y hy => ?_⟩
  · rw [Directory.changeUid, Registry.find_set, h.named k v]
    by_cases hv : v = u
    · subst hv
      simp [hx]
    · rw [if_neg hv]
  · rw [Directory.changeUid, Registry.find_set] at hy
    split_ifs at hy with hv
    · subst hv
      exact h.fresh v x hx
    · exact h.fresh v y hy

theorem find_addUid {ids : Registry CString ClientId} {uid : Option CString} {k : CString} :
    (addUid ids uid u).find k = (ids.find k).or (if uid = some k then some u else none) := by
  cases uid with
  | none => simp [addUid]
  | some uid => simp [addUid, Registry.find_insertNew]

theorem find_deleteUid {ids : Registry CString ClientId} {uid : Option CString} {k : CString} :
    (deleteUid ids uid).find k = if uid = some k then none else ids.find k := by
  cases uid with
  | none => simp [deleteUid]
  | some uid => simp [deleteUid, Registry.find_erase, eq_comm]

theorem empty_uidsSound : UidsSound empty := by simp [UidsSound, empty]

theorem empty_uidsComplete : UidsComplete empty := by simp [UidsComplete, empty]

theorem UidsSound.insert (h : UidsSound d) (hnext : d.users.find d.next = none) :
    UidsSound (d.insert irccasecanon x) := by
  intro k u hu
  rw [Directory.insert, find_addUid, Option.or_eq_some_iff] at hu
  rw [Directory.insert, Registry.find_insertNew]
  obtain hu | ⟨-, hu⟩ := hu
  · obtain ⟨y, hy, huid⟩ := h k u hu
    exact ⟨y, by rw [hy, Option.some_or], huid⟩
  · split_ifs at hu with huid
    cases hu
    exact ⟨x, by rw [hnext, if_pos rfl, Option.none_or], huid⟩

theorem UidsSound.remove (h : UidsSound d) (hx : d.users.find u = some x) :
    UidsSound (d.remove irccasecanon u x) := by
  intro k v hv
  rw [Directory.remove, find_deleteUid] at hv
  split_ifs at hv with huid
  obtain ⟨y, hy, hyuid⟩ := h k v hv
  have hne : v ≠ u := by
    intro he
    subst he
    rw [hx] at hy
    cases hy
    exact huid hyuid
  exact ⟨y, by rw [Directory.remove, Registry.find_erase, if_neg hne, hy], hyuid⟩

theorem UidsSound.rename (h : UidsSound d) (hx : d.users.find u = some x) (nick : CString)
    (ts : Int) : UidsSound (d.rename irccasecanon u x nick ts) := by
  intro k v hv
  obtain ⟨y, hy, hyuid⟩ := h k v hv
  rw [Directory.rename, Registry.find_set]
  by_cases hvu : v = u
  · subst hvu
    rw [hx] at hy
    cases hy
    exact ⟨{ x with nick := nick, ts := ts }, by rw [if_pos rfl, hx]; rfl, hyuid⟩
  · exact ⟨y, by rw [if_neg hvu, hy], hyuid⟩

theorem UidsSound.changeUid (h : UidsSound d) (hx : d.users.find u = some x)
    (uid : Option CString) : UidsSound (d.changeUid u x uid) := by
  intro k v hv
  rw [Directory.changeUid, find_addUid, find_deleteUid, Option.or_eq_some_iff] at hv
  rw [Directory.changeUid, Registry.find_set]
  obtain hv | ⟨-, hv⟩ := hv
  · split_ifs at hv with huid
    obtain ⟨y, hy, hyuid⟩ := h k v hv
    have hne : v ≠ u := by
      intro he
      subst he
      rw [hx] at hy
      cases hy
      exact huid hyuid
    exact ⟨y, by rw [if_neg hne, hy], hyuid⟩
  · split_ifs at hv with huid
    cases hv
    exact ⟨_, by rw [if_pos rfl, hx]; rfl, huid⟩

theorem UidsComplete.uid_inj (h : UidsComplete d) {v : ClientId} {y : User} {k : CString}
    (hx : d.users.find u = some x) (hy : d.users.find v = some y) (hxk : x.uid = some k)
    (hyk : y.uid = some k) : u = v := by
  have hu := h u x k hx hxk
  have hv := h v y k hy hyk
  rw [hu] at hv
  exact Option.some.inj hv

theorem UidsSound.unused (h : UidsSound d) {k : CString} (hno : d.users.find u = none)
    (hk : UidUnused d (some k) u) : d.uidlist.find k = none := by
  cases hf : d.uidlist.find k with
  | none => rfl
  | some v =>
    obtain ⟨y, hy, hyuid⟩ := h k v hf
    obtain rfl := hk v y hy (by simp) hyuid
    simp [hno] at hy

theorem UidsComplete.insert (h : UidsComplete d) (hs : UidsSound d)
    (hnext : d.users.find d.next = none) (huid : UidUnused d x.uid d.next) :
    UidsComplete (d.insert irccasecanon x) := by
  intro v y k hy hk
  rw [Directory.insert, Registry.find_insertNew, Option.or_eq_some_iff] at hy
  rw [Directory.insert, find_addUid]
  obtain hy | ⟨-, hy⟩ := hy
  · rw [h v y k hy hk, Option.some_or]
  · split_ifs at hy with hv
    cases hy
    subst hv
    rw [hs.unused hnext (hk ▸ huid), hk, if_pos rfl, Option.none_or]

theorem UidsComplete.remove (h : UidsComplete d) (hx : d.users.find u = some x) :
    UidsComplete (d.remove irccasecanon u x) := by
  intro v y k hy hk
  rw [Directory.remove, Registry.find_erase] at hy
  split_ifs at hy with hv
  rw [Directory.remove, find_deleteUid, if_neg, h v y k hy hk]
  exact fun hxk => hv (h.uid_inj hy hx hk hxk)

theorem UidsComplete.rename (h : UidsComplete d) (hx : d.users.find u = some x) (nick : CString)
    (ts : Int) : UidsComplete (d.rename irccasecanon u x nick ts) := by
  intro v y k hy hk
  rw [Directory.rename, Registry.find_set] at hy
  split_ifs at hy with hv
  · subst hv
    rw [hx] at hy
    cases hy
    exact h v x k hx hk
  · exact h v y k hy hk

theorem UidsComplete.changeUid (h : UidsComplete d) (hs : UidsSound d)
    (hx : d.users.find u = some x) {uid : Option CString} (huid : UidUnused d uid u) :
    UidsComplete (d.changeUid u x uid) := by
  intro v y k hy hk
  rw [Directory.changeUid, Registry.find_set] at hy
  rw [Directory.changeUid, find_addUid, find_deleteUid]
  split_ifs at hy with hv
  · subst hv
    rw [hx] at hy
    cases hy
    have hgone : (if x.uid = some k then none else d.uidlist.find k) = none := by
      split_ifs with hxk
      · rfl
      · cases hf : d.uidlist.find k with
        | none => rfl
        | some w =>
          obtain ⟨z, hz, hzk⟩ := hs k w hf
          have hset : uid = some k := hk
          have hw := huid w z hz (by simp [hset]) (hzk.trans hset.symm)
          subst hw
          rw [hx] at hz
          cases hz
          exact absurd hzk hxk
    rw [hgone, if_pos hk, Option.none_or]
  · rw [if_neg, h v y k hy hk, Option.some_or]
    exact fun hxk => hv (h.uid_inj hy hx hk hxk)

end rules
end Directory
end ChatServices.Network
