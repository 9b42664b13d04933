import Mathlib.Logic.Relation
import Mathlib.Algebra.BigOperators.Group.Finset.Basic
import Mathlib.Algebra.Order.BigOperators.Group.Finset
import ChatServices.ChanServ.AccessQuery

/-! The exttarget `$chanacs:#channel` on an access list stands for everybody with flags on another
channel, whose own list may name such exttargets in turn: how deep that goes, and whose flags hang
on the level of an entry. -/
namespace ChatServices.ChanServ
open ChatServices.Lib ChatServices.Lib.Mask ChatServices.Text

/-- The channel that a `$chanacs` exttarget names. -/
def chanacsChannel (name : CString) : Option CString :=
  if "$chanacs:".toList.isPrefixOf name then some (name.drop 9) else none

/-- `match_user` of an exttarget. `checking` has a `$chanacs` exttarget once for each time that it is
being checked; what the other exttargets say about a user does not hang on access lists. -/
def extMatchUser (cfg : ChanConfig) (w : World) (db : ChanDb) :
    Nat → List CString → CString → User → Bool
  | 0, _, _, _ => false
  | fuel + 1, checking, name, u =>
    match chanacsChannel name with
    | none => w.extMatchUser name u
    | some channel =>
      if checking.count name > 4 then false
      else
        match mychanFind cfg db channel with
        | none => false
        | some (mc, _) =>
          let w' := { w with extMatchUser := extMatchUser cfg w db fuel (name :: checking) }
          let flags := chanacsUserFlags cfg w' db mc u
          !test flags caAkick && flags ≠ 0#32

def withExttargets (cfg : ChanConfig) (w : World) (db : ChanDb) : World :=
  { w with extMatchUser := extMatchUser cfg w db (5 * db.acl.entries.length + 1) [] }

def ChanDb.setLevel (db : ChanDb) (mc : MyChanRef) (t : Target) (level : Flags) : ChanDb :=
  { db with acl := db.acl.modify (mc, t) fun ca => { ca with level := level } }

/-- An entry of one channel is a `$chanacs` exttarget for the other one. -/
def Refers (cfg : ChanConfig) (db : ChanDb) (mc mc' : MyChanRef) : Prop :=
  ∃ e ∈ chanacsOf db.acl mc, ∃ name channel other, e.1 = .entity (.ext name) ∧
    chanacsChannel name = some channel ∧ mychanFind cfg db channel = some (mc', other)

/-- Following the `$chanacs` exttargets from a channel does not lead back to it, or the entry is none
of them. -/
def LooksAway (cfg : ChanConfig) (db : ChanDb) (mc : MyChanRef) (t : Target) : Prop :=
  ∀ name, t = .entity (.ext name) → (chanacsChannel name).isSome = true →
    ¬ Relation.TransGen (Refers cfg db) mc mc

def applies (db : ChanDb) (w : World) (u : User) (t : Target) : Bool :=
  (u.myuser db.accounts).any (fun mu => appliesToEntity db (.user mu) t) ||
    appliesToUser w u t || appliesToHost w u t

section flags
variable {cfg : ChanConfig} {w w' : World} {db db' : ChanDb} {mc mc' : MyChanRef} {u : User}
  {t : Target} {level : Flags} {fuel fuel' : Nat} {checking : List CString} {name channel : CString}

theorem collectLevels_congr {p p' : Target → Bool} {es es' : List (Target × Chanacs)} {result : Flags}
    (h : List.Forall₂ (fun e e' => p' e'.1 = p e.1 ∧ (p e.1 = true → e'.2.level = e.2.level)) es es') :
    collectLevels p' result es' = collectLevels p result es := by
  induction h generalizing result with
  | nil => rfl
  | @cons e e' es es' he _ ih =>
    rw [collectLevels, collectLevels, he.1, ih]
    split_ifs with hp
    · rw [he.2 hp]
    · rfl

theorem chanacsUserFlags_congr (haccounts : db'.accounts = db.accounts) (hgroups : db'.groups = db.groups)
    (hhost : w'.hostMatches = w.hostMatches)
    (h : List.Forall₂ (fun e e' => e'.1 = e.1 ∧ appliesToUser w' u e.1 = appliesToUser w u e.1 ∧
        (applies db w u e.1 = true → e'.2.level = e.2.level))
      (chanacsOf db.acl mc) (chanacsOf db'.acl mc)) :
    chanacsUserFlags cfg w' db' mc u = chanacsUserFlags cfg w db mc u := by
  have hentity : ∀ mu, u.myuser db.accounts = some mu →
      chanacsEntityFlags db' mc (.user mu) = chanacsEntityFlags db mc (.user mu) := by
    intro mu hmu
    refine collectLevels_congr (h.imp fun e e' he => ⟨?_, fun happ => he.2.2 ?_⟩)
    · rw [he.1]
      cases e.1 with
      | host _ => rfl
      | entity mt => simp only [appliesToEntity, matchEntity, hgroups]
    · rw [applies, hmu, Option.any_some, happ, Bool.true_or, Bool.true_or]
  have hbyUser : chanacsEntityFlagsByUser w' db' mc u = chanacsEntityFlagsByUser w db mc u := by
    refine collectLevels_congr (h.imp fun e e' he => ⟨?_, fun happ => he.2.2 ?_⟩)
    · rw [he.1, he.2.1]
    · rw [applies, happ, Bool.or_true, Bool.true_or]
  have hbyHost : chanacsHostFlagsByUser w' db' mc u = chanacsHostFlagsByUser w db mc u := by
    refine collectLevels_congr (h.imp fun e e' he => ⟨?_, fun happ => he.2.2 ?_⟩)
    · rw [he.1]
      cases e.1 with
      | host _ => simp only [appliesToHost, hhost]
      | entity _ => rfl
    · rw [applies, happ, Bool.or_true]
  have haccount : accountFlags db' mc (u.myuser db'.accounts) =
      accountFlags db mc (u.myuser db.accounts) := by
    rw [haccounts]
    cases hmu : u.myuser db.accounts with
    | none => rfl
    | some mu => exact hentity mu hmu
  have hwaits : awaitsAuth db' = awaitsAuth db := by
    funext mu
    rw [awaitsAuth, awaitsAuth, haccounts]
  rw [chanacsUserFlags, chanacsUserFlags, haccount, hbyUser, hbyHost, hwaits, haccounts]

theorem hostMatches_with (f : CString → User → Bool) :
    ({ w with extMatchUser := f } : World).hostMatches = w.hostMatches := rfl

theorem appliesToUser_congr
    (h : ∀ name, t = .entity (.ext name) → w'.extMatchUser name u = w.extMatchUser name u) :
    appliesToUser w' u t = appliesToUser w u t := by
  cases t with
  | host _ => rfl
  | entity mt =>
    cases mt with
    | user _ => rfl
    | group _ => rfl
    | ext name => exact h name rfl

theorem extMatchUser_other (h : chanacsChannel name = none) :
    extMatchUser cfg w db (fuel + 1) checking name u = w.extMatchUser name u := by
  rw [extMatchUser, h]

theorem extMatchUser_congr (hchans : db'.chans = db.chans)
    (hother : chanacsChannel name = none → w'.extMatchUser name u = w.extMatchUser name u)
    (hflags : ∀ channel mc other, chanacsChannel name = some channel →
      mychanFind cfg db channel = some (mc, other) → checking.count name ≤ 4 →
      chanacsUserFlags cfg { w' with extMatchUser := extMatchUser cfg w' db' fuel' (name :: checking) }
          db' mc u =
        chanacsUserFlags cfg { w with extMatchUser := extMatchUser cfg w db fuel (name :: checking) }
          db mc u) :
    extMatchUser cfg w' db' (fuel' + 1) checking name u =
      extMatchUser cfg w db (fuel + 1) checking name u := by
  rw [extMatchUser, extMatchUser]
  cases hname : chanacsChannel name with
  | none => exact hother hname
  | some channel =>
    dsimp only
    split_ifs with hcount
    · rfl
    · have hfind : mychanFind cfg db' channel = mychanFind cfg db channel := by
        rw [mychanFind, mychanFind, hchans]
      rw [hfind]
      cases hmc : mychanFind cfg db channel with
      | none => rfl
      | some e =>
        dsimp only
        rw [hflags channel e.1 e.2 hname hmc (by omega)]

end flags

/-! ### The depth of a lookup -/

section depth
variable {cfg : ChanConfig} {w : World} {db : ChanDb} {u : User}

def extNames (db : ChanDb) : List CString :=
  db.acl.entries.filterMap fun e =>
    match e.1.2 with
    | .entity (.ext name) => some name
    | _ => none

theorem mem_extNames {mc : MyChanRef} {e : Target × Chanacs} {name : CString}
    (he : e ∈ chanacsOf db.acl mc) (hname : e.1 = .entity (.ext name)) : name ∈ extNames db := by
  obtain ⟨e₀, he₀, rfl⟩ := List.mem_map.mp he
  refine List.mem_filterMap.mpr ⟨e₀, List.mem_of_mem_filter he₀, ?_⟩
  dsimp only at hname
  rw [hname]

def Bounded (db : ChanDb) (checking : List CString) : Prop :=
  ∀ name ∈ checking, name ∈ extNames db ∧ checking.count name ≤ 5

theorem Bounded.length (h : Bounded db checking) : checking.length ≤ 5 * db.acl.entries.length := by
  have hcard : checking.toFinset.card ≤ db.acl.entries.length := by
    have hsub : checking.toFinset ⊆ (extNames db).toFinset := by
      intro name hname
      exact List.mem_toFinset.mpr (h name (List.mem_toFinset.mp hname)).1
    calc checking.toFinset.card ≤ (extNames db).toFinset.card := Finset.card_le_card hsub
      _ ≤ (extNames db).length := List.toFinset_card_le _
      _ ≤ db.acl.entries.length := List.length_filterMap_le ..
  have hcount : ∀ name ∈ checking.toFinset, checking.count name ≤ 5 :=
    fun name hname => (h name (List.mem_toFinset.mp hname)).2
  have hsum : checking.length = ∑ name ∈ checking.toFinset, checking.count name := by
    convert (List.sum_toFinset_count_eq_length checking).symm
  calc checking.length ≤ ∑ _name ∈ checking.toFinset, 5 := hsum.trans_le (Finset.sum_le_sum hcount)
    _ = checking.toFinset.card * 5 := Finset.sum_const_nat fun _ _ => rfl
    _ ≤ 5 * db.acl.entries.length := by omega

theorem Bounded.cons {checking : List CString} {name : CString} (h : Bounded db checking)
    (hname : name ∈ extNames db) (hcount : checking.count name ≤ 4) : Bounded db (name :: checking) := by
  intro other hother
  by_cases heq : other = name
  · rw [heq, List.count_cons_self]
    exact ⟨hname, by omega⟩
  · rw [List.count_cons_of_ne (Ne.symm heq)]
    exact h other ((List.mem_cons.mp hother).resolve_left heq)

theorem extMatchUser_enough {fuel fuel' : Nat} {checking : List CString} {name : CString}
    (hchecking : Bounded db checking) (hname : name ∈ extNames db)
    (hfuel : 5 * db.acl.entries.length < fuel + checking.length)
    (hfuel' : 5 * db.acl.entries.length < fuel' + checking.length) :
    extMatchUser cfg w db fuel' checking name u = extMatchUser cfg w db fuel checking name u := by
  induction fuel generalizing fuel' checking name with
  | zero => have hlength := hchecking.length; omega
  | succ fuel ih =>
    cases fuel' with
    | zero => have hlength := hchecking.length; omega
    | succ fuel' =>
      refine extMatchUser_congr rfl (fun _ => rfl) fun channel mc other _ _ hcount => ?_
      have hdeeper : Bounded db (name :: checking) := hchecking.cons hname hcount
      refine chanacsUserFlags_congr rfl rfl ((hostMatches_with _).trans (hostMatches_with _).symm)
        (List.forall₂_same.mpr fun e he => ⟨rfl, ?_, fun _ => rfl⟩)
      refine appliesToUser_congr fun name' htarget => ?_
      have hlength : (name :: checking).length = checking.length + 1 := rfl
      exact ih hdeeper (mem_extNames he htarget) (by omega) (by omega)

theorem chanacsUserFlags_depth (cfg : ChanConfig) (w : World) (db : ChanDb) (mc : MyChanRef) (u : User)
    (more : Nat) : chanacsUserFlags cfg
      { w with extMatchUser := extMatchUser cfg w db (5 * db.acl.entries.length + 1 + more) [] } db mc u =
        chanacsUserFlags cfg (withExttargets cfg w db) db mc u := by
  have hnone : Bounded db [] := fun name hname => absurd hname List.not_mem_nil
  refine chanacsUserFlags_congr rfl rfl ((hostMatches_with _).trans (hostMatches_with _).symm)
    (List.forall₂_same.mpr fun e he => ⟨rfl, ?_, fun _ => rfl⟩)
  refine appliesToUser_congr fun name htarget => ?_
  exact extMatchUser_enough hnone (mem_extNames he htarget) (by simp) (by simp; omega)

end depth

/-! ### The level of an entry -/

section level
variable {cfg : ChanConfig} {w : World} {db : ChanDb} {mc : MyChanRef} {u : User} {t : Target}
  {level : Flags}

theorem setLevel_accounts : (db.setLevel mc t level).accounts = db.accounts := rfl

theorem setLevel_groups : (db.setLevel mc t level).groups = db.groups := rfl

theorem forall₂_setLevel (x : MyChanRef) : List.Forall₂
    (fun e e' : Target × Chanacs => e'.1 = e.1 ∧ (x = mc ∧ e.1 = t ∨ e'.2 = e.2))
    (chanacsOf db.acl x) (chanacsOf (db.setLevel mc t level).acl x) := by
  rw [chanacsOf, chanacsOf, ChanDb.setLevel, Registry.entries_modify]
  induction db.acl.entries with
  | nil => exact .nil
  | cons e es ih =>
    have hkey : ∀ ca : Chanacs, (if e.1 = (mc, t) then (e.1, ca) else e).1 = e.1 := by
      intro ca
      split_ifs <;> rfl
    rw [List.map_cons, List.filter_cons, List.filter_cons, hkey]
    split_ifs with hx hk
    · rw [decide_eq_true_eq] at hx
      exact .cons ⟨rfl, .inl ⟨hx.symm.trans (congrArg Prod.fst hk), congrArg Prod.snd hk⟩⟩ ih
    · exact .cons ⟨rfl, .inr rfl⟩ ih
    · exact ih

/-- The lookups that a user's flags on some channels lead to do not see the level of an entry, if
none of the channels is that of the entry, or the entry never applies to the user. -/
theorem extMatchUser_setLevel {Reach : MyChanRef → Prop}
    (hclosed : ∀ x y, Reach x → Refers cfg db x y → Reach y)
    (hnever : Reach mc → ∀ fuel checking,
      applies db { w with extMatchUser := extMatchUser cfg w db fuel checking } u t = false)
    (fuel : Nat) (checking : List CString) (name : CString)
    (hname : ∀ channel x other, chanacsChannel name = some channel →
      mychanFind cfg db channel = some (x, other) → Reach x) :
    extMatchUser cfg w (db.setLevel mc t level) fuel checking name u =
      extMatchUser cfg w db fuel checking name u := by
  induction fuel generalizing checking name with
  | zero => rfl
  | succ fuel ih =>
    refine extMatchUser_congr rfl (fun _ => rfl) fun channel x other hchannel hfind _ => ?_
    have hx : Reach x := hname channel x other hchannel hfind
    have hlevels := (List.forall₂_and_left ..).mpr ⟨fun _ he => he, @forall₂_setLevel db mc t level x⟩
    refine chanacsUserFlags_congr setLevel_accounts setLevel_groups
      ((hostMatches_with _).trans (hostMatches_with _).symm)
      (hlevels.imp fun e e' he => ⟨he.2.1, ?_, fun happ => ?_⟩)
    · refine appliesToUser_congr fun name' htarget => ?_
      refine ih _ name' fun channel' y other' hchannel' hfind' => hclosed x y hx ?_
      exact ⟨e, he.1, name', channel', other', htarget, hchannel', hfind'⟩
    · cases he.2.2 with
      | inl hentry =>
        rw [hentry.2, hnever (hentry.1 ▸ hx)] at happ
        cases happ
      | inr hsame => rw [hsame]

theorem matchUser_withExttargets (name : CString) : matchUser (withExttargets cfg w db) (.ext name) u =
    extMatchUser cfg w db (5 * db.acl.entries.length + 1) [] name u := rfl

theorem length_setLevel : (db.setLevel mc t level).acl.entries.length = db.acl.entries.length := by
  rw [ChanDb.setLevel, Registry.entries_modify, List.length_map]

theorem applies_entity {e : Entity} {mu : MyUserRef} (hmu : u.myuser db.accounts = some mu)
    (hentity : matchEntity db e (.user mu) = false) (huser : matchUser w e u = false) :
    applies db w u (.entity e) = false := by
  have hne : e ≠ .user mu := by
    intro heq
    rw [heq, matchEntity, decide_eq_false_iff_not] at hentity
    · exact hentity rfl
    · exact nofun
  rw [applies, hmu, Option.any_some]
  simp only [appliesToEntity, appliesToUser, appliesToHost, hentity, huser, hne, decide_false,
    Bool.or_false]

section changed
variable {e : Entity} {mu : MyUserRef} (haway : LooksAway cfg db mc (.entity e))
  (hmu : u.myuser db.accounts = some mu) (hentity : matchEntity db e (.user mu) = false)
  (huser : matchUser (withExttargets cfg w (db.setLevel mc (.entity e) level)) e u = false)

include haway hmu hentity huser

theorem withExttargets_setLevel {entry : Target × Chanacs} (hon : entry ∈ chanacsOf db.acl mc) :
    appliesToUser (withExttargets cfg w (db.setLevel mc (.entity e) level)) u entry.1 =
      appliesToUser (withExttargets cfg w db) u entry.1 := by
  refine appliesToUser_congr fun name htarget => ?_
  have hname : ∀ db', (withExttargets cfg w db').extMatchUser name u =
      extMatchUser cfg w db' (5 * db'.acl.entries.length + 1) [] name u := fun _ => rfl
  rw [hname, hname, length_setLevel]
  by_cases hchanacs : ∃ n, e = .ext n ∧ (chanacsChannel n).isSome = true
  · -- no lookup comes back to the list
    obtain ⟨n, rfl, hn⟩ := hchanacs
    exact extMatchUser_setLevel (fun _ _ => Relation.TransGen.tail)
      (fun hback => absurd hback (haway n rfl hn)) _ _ name
      fun channel x chan hchannel hfind =>
        .single ⟨entry, hon, name, channel, chan, htarget, hchannel, hfind⟩
  · -- the entry does not match in any lookup
    refine extMatchUser_setLevel (fun _ _ _ _ => trivial)
      (fun _ fuel checking => applies_entity hmu hentity ?_) _ _ name fun _ _ _ _ _ => trivial
    cases e with
    | user _ => rfl
    | group _ => rfl
    | ext n =>
      have hnone : chanacsChannel n = none := by
        cases hn : chanacsChannel n with
        | none => rfl
        | some channel => exact absurd ⟨n, rfl, by rw [hn]; rfl⟩ hchanacs
      rw [matchUser_withExttargets, extMatchUser_other hnone] at huser
      rw [matchUser]
      cases fuel with
      | zero => rfl
      | succ fuel => exact (extMatchUser_other hnone).trans huser

theorem chanacsUserFlags_setLevel :
    chanacsUserFlags cfg (withExttargets cfg w (db.setLevel mc (.entity e) level))
        (db.setLevel mc (.entity e) level) mc u =
      chanacsUserFlags cfg (withExttargets cfg w db) db mc u := by
  have hsame : ∀ entry ∈ chanacsOf db.acl mc,
      appliesToUser (withExttargets cfg w (db.setLevel mc (.entity e) level)) u entry.1 =
        appliesToUser (withExttargets cfg w db) u entry.1 :=
    fun entry => withExttargets_setLevel haway hmu hentity huser
  have hlevels := (List.forall₂_and_left ..).mpr
    ⟨fun _ he => he, @forall₂_setLevel db mc (.entity e) level mc⟩
  refine chanacsUserFlags_congr setLevel_accounts setLevel_groups
    ((hostMatches_with _).trans (hostMatches_with _).symm) (hlevels.imp fun entry entry' he => ⟨he.2.1, hsame entry he.1, fun happ => ?_⟩)
  cases he.2.2 with
  | inl hentry =>
    have hnot : matchUser (withExttargets cfg w db) e u = false := by
      have hmatch := hsame entry he.1
      rw [hentry.2] at hmatch
      exact hmatch.symm.trans huser
    rw [hentry.2, applies_entity hmu hentity hnot] at happ
    cases happ
  | inr hlevel => rw [hlevel]

end changed

end level

end ChatServices.ChanServ
