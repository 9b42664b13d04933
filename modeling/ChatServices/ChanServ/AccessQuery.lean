import ChatServices.ChanServ.AccessList

/-! The queries that fold a channel's access list into the flags of an entity, a user or
a command source, and what they report of an account that awaits its verification. -/
namespace ChatServices.ChanServ
open ChatServices.Lib ChatServices.Lib.Mask

/-- The loop `result |= ca->level` over the entries of one kind. -/
def collectLevels (p : Target → Bool) (result : Flags) : List (Target × Chanacs) → Flags
  | [] => result
  | e :: es => collectLevels p (if p e.1 then result ||| e.2.level else result) es

def appliesToEntity (db : ChanDb) (mt : Entity) : Target → Bool
  | .entity e => e = mt || matchEntity db e mt
  | .host _ => false

def appliesToUser (w : World) (u : User) : Target → Bool
  | .entity e => matchUser w e u
  | .host _ => false

def appliesToHost (w : World) (u : User) : Target → Bool
  | .entity _ => false
  | .host mask => w.hostMatches mask u

def chanacsEntityFlags (db : ChanDb) (mc : MyChanRef) (mt : Entity) : Flags :=
  collectLevels (appliesToEntity db mt) 0#32 (chanacsOf db.acl mc)

def chanacsEntityHasFlag (db : ChanDb) (mc : MyChanRef) (mt : Entity) (level : Flags) : Bool :=
  test (chanacsEntityFlags db mc mt) level

def chanacsEntityFlagsByUser (w : World) (db : ChanDb) (mc : MyChanRef) (u : User) : Flags :=
  collectLevels (appliesToUser w u) 0#32 (chanacsOf db.acl mc)

def chanacsHostFlagsByUser (w : World) (db : ChanDb) (mc : MyChanRef) (u : User) : Flags :=
  collectLevels (appliesToHost w u) 0#32 (chanacsOf db.acl mc)

def awaitsAuth (db : ChanDb) (mu : MyUserRef) : Bool :=
  ((db.accounts.get mu).map (fun m => test m.flags muWaitauth)).getD false

def accountFlags (db : ChanDb) (mc : MyChanRef) (mu : Option MyUserRef) : Flags :=
  match mu with
  | some mu => chanacsEntityFlags db mc (.user mu)
  | none => 0#32

def chanacsUserFlags (cfg : ChanConfig) (w : World) (db : ChanDb) (mc : MyChanRef) (u : User) :
    Flags :=
  let result := accountFlags db mc (u.myuser db.accounts) ||| chanacsEntityFlagsByUser w db mc u
  let result :=
    if (u.myuser db.accounts).any (awaitsAuth db) then
      result &&& ~~~(cfg.caAll &&& ~~~caAkick)
    else result
  result ||| chanacsHostFlagsByUser w db mc u

def chanacsUserHasFlag (cfg : ChanConfig) (w : World) (db : ChanDb) (mc : MyChanRef) (u : User)
    (level : Flags) : Bool :=
  (u.myuser db.accounts).any (fun mu => chanacsEntityHasFlag db mc (.user mu) level) ||
    test (chanacsUserFlags cfg w db mc u) level

def chanacsSourceFlags (cfg : ChanConfig) (w : World) (db : ChanDb) (mc : MyChanRef) :
    Source → Flags
  | .irc u => chanacsUserFlags cfg w db mc u
  | .other smu => accountFlags db mc smu

def chanacsSourceHasFlag (cfg : ChanConfig) (w : World) (db : ChanDb) (mc : MyChanRef)
    (si : Source) (level : Flags) : Bool :=
  match si with
  | .irc u => chanacsUserHasFlag cfg w db mc u level
  | .other smu => smu.any (fun mu => chanacsEntityHasFlag db mc (.user mu) level)

theorem has_collectLevels (p : Target → Bool) (result : Flags) (es : List (Target × Chanacs))
    (i : Nat) : Has (collectLevels p result es) i ↔
      Has result i ∨ ∃ e ∈ es, p e.1 = true ∧ Has e.2.level i := by
  induction es generalizing result with
  | nil => simp [collectLevels]
  | cons e es ih =>
    rw [collectLevels, ih]
    by_cases hp : p e.1 = true <;> simp [hp, or_assoc]

theorem collectLevels_sub {p : Target → Bool} {es : List (Target × Chanacs)} {m : Flags}
    (h : ∀ e ∈ es, Sub e.2.level m) : Sub (collectLevels p 0#32 es) m := by
  rw [sub_iff]
  intro i hi
  rcases (has_collectLevels p _ es i).mp hi with h0 | ⟨e, he, -, hl⟩
  · simp at h0
  · exact (h e he).has hl

/-! ### Accounts that await their verification -/

/-- What is left of entity flags once everything but `CA_AKICK` is filtered out. -/
def pendingFilter (cfg : ChanConfig) (flags : Flags) : Flags :=
  flags &&& ~~~(cfg.caAll &&& ~~~caAkick)

def hostDerived (w : World) (db : ChanDb) (mc : MyChanRef) : Source → Flags
  | .irc u => chanacsHostFlagsByUser w db mc u
  | .other _ => 0#32

def entityDerived (w : World) (db : ChanDb) (mc : MyChanRef) : Source → Flags
  | .irc u => accountFlags db mc (u.myuser db.accounts) ||| chanacsEntityFlagsByUser w db mc u
  | .other smu => accountFlags db mc smu

/-- The queries about a source agree with one another and report of its account and
groups no flag but `CA_AKICK`. -/
structure QueriesAgree (cfg : ChanConfig) (w : World) (db : ChanDb) (mc : MyChanRef)
    (si : Source) : Prop where
  user : ∀ u, si = .irc u → ∀ level,
    chanacsUserHasFlag cfg w db mc u level = test (chanacsUserFlags cfg w db mc u) level
  source_has : ∀ level, chanacsSourceHasFlag cfg w db mc si level =
    test (chanacsSourceFlags cfg w db mc si) level
  source_flags : chanacsSourceFlags cfg w db mc si =
    pendingFilter cfg (entityDerived w db mc si) ||| hostDerived w db mc si
  reported : ∀ i, Has cfg.caAll i → i ≠ 31 →
    Has (chanacsSourceFlags cfg w db mc si) i ∨
      chanacsSourceHasFlag cfg w db mc si (BitVec.twoPow 32 i) = true →
    Has (hostDerived w db mc si) i

theorem has_pendingFilter (cfg : ChanConfig) (flags : Flags) (i : Nat) :
    Has (pendingFilter cfg flags) i ↔ Has flags i ∧ (Has cfg.caAll i → i = 31) := by
  simp only [pendingFilter, has_and, has_not, has_caAkick, and_congr_right_iff]
  intro h
  have := h.lt
  simp only [this, true_and, not_and, not_not]

theorem test_twoPow (f : Flags) {i : Nat} (hi : i < 32) :
    test f (BitVec.twoPow 32 i) = true ↔ Has f i := by
  apply test_bit
  intro j
  rw [has_twoPow]
  omega

theorem test_or_eq_iff (a b : Flags) :
    (∀ level, (test a level || test b level) = test b level) ↔ Sub a b := by
  constructor
  · intro h
    rw [sub_iff]
    intro i hi
    have ht := h (BitVec.twoPow 32 i)
    rw [(test_twoPow a hi.lt).mpr hi, Bool.true_or] at ht
    exact (test_twoPow b hi.lt).mp ht.symm
  · intro h level
    cases ha : test a level with
    | false => rw [Bool.false_or]
    | true => rw [test_mono h ha, Bool.true_or]

section pending
variable {cfg : ChanConfig} {w : World} {db : ChanDb} {mc : MyChanRef} {mu : MyUserRef}

theorem chanacsUserFlags_pending {u : User} (hmu : u.myuser db.accounts = some mu)
    (h : awaitsAuth db mu = true) :
    chanacsUserFlags cfg w db mc u =
      pendingFilter cfg (entityDerived w db mc (.irc u)) ||| hostDerived w db mc (.irc u) := by
  simp only [chanacsUserFlags, hmu, Option.any_some, h, if_true, pendingFilter, entityDerived,
    hostDerived]

/-- On IRC the queries agree exactly if the boolean one, which looks at the account's own
flags before they are filtered, finds nothing there that the filter removes. -/
theorem queriesAgree_irc_iff {u : User} (hmu : u.myuser db.accounts = some mu)
    (h : awaitsAuth db mu = true) :
    QueriesAgree cfg w db mc (.irc u) ↔
      ∀ i, Has (chanacsEntityFlags db mc (.user mu)) i → Has cfg.caAll i → i ≠ 31 →
        Has (chanacsHostFlagsByUser w db mc u) i := by
  have hflags : chanacsUserFlags cfg w db mc u =
      pendingFilter cfg (entityDerived w db mc (.irc u)) ||| hostDerived w db mc (.irc u) :=
    chanacsUserFlags_pending hmu h
  have hhas : ∀ level, chanacsUserHasFlag cfg w db mc u level =
      (test (chanacsEntityFlags db mc (.user mu)) level ||
        test (chanacsUserFlags cfg w db mc u) level) := by
    intro level
    simp only [chanacsUserHasFlag, hmu, Option.any_some, chanacsEntityHasFlag]
  have hfilt : ∀ i, Has (chanacsUserFlags cfg w db mc u) i → Has cfg.caAll i → i ≠ 31 →
      Has (chanacsHostFlagsByUser w db mc u) i := by
    intro i hi hall h31
    rw [hflags, has_or, has_pendingFilter] at hi
    rcases hi with hi | hi
    · exact absurd (hi.2 hall) h31
    · exact hi
  constructor
  · intro hq i hi hall h31
    refine hq.reported i hall h31 (.inr ?_)
    simp only [chanacsSourceHasFlag, hhas, (test_twoPow _ hi.lt).mpr hi, Bool.true_or]
  · intro hc
    have hsub : Sub (chanacsEntityFlags db mc (.user mu)) (chanacsUserFlags cfg w db mc u) := by
      rw [sub_iff]
      intro i hi
      rw [hflags, has_or, has_pendingFilter]
      by_cases hall : Has cfg.caAll i ∧ i ≠ 31
      · exact .inr (hc i hi hall.1 hall.2)
      · have he : Has (entityDerived w db mc (.irc u)) i := by
          simp only [entityDerived, hmu, accountFlags, has_or, hi, true_or]
        exact .inl ⟨he, fun ha => by_contra fun hne => hall ⟨ha, hne⟩⟩
    have hagree := (test_or_eq_iff _ _).mpr hsub
    refine ⟨?_, ?_, hflags, ?_⟩
    · intro u' hu level
      obtain rfl : u = u' := Source.irc.inj hu
      rw [hhas, hagree]
    · exact fun level => (hhas level).trans (hagree level)
    · intro i hall h31 hrep
      refine hfilt i (hrep.elim id fun ht => ?_) hall h31
      rw [chanacsSourceHasFlag, hhas, hagree] at ht
      exact (test_twoPow _ hall.lt).mp ht

theorem queriesAgree_other_iff :
    QueriesAgree cfg w db mc (.other (some mu)) ↔
      ∀ i, Has (chanacsEntityFlags db mc (.user mu)) i → Has cfg.caAll i → i = 31 := by
  have hflags : chanacsSourceFlags cfg w db mc (.other (some mu)) =
      chanacsEntityFlags db mc (.user mu) := rfl
  have hhas : ∀ level, chanacsSourceHasFlag cfg w db mc (.other (some mu)) level =
      test (chanacsEntityFlags db mc (.user mu)) level := fun _ => rfl
  constructor
  · intro hq i hi hall
    by_contra h31
    simpa [hostDerived] using hq.reported i hall h31 (.inl (hflags ▸ hi))
  · intro hc
    refine ⟨fun u hu => (nomatch hu), fun level => by rw [hhas, hflags], ?_, ?_⟩
    · apply ext
      intro i
      simp only [hflags, hostDerived, entityDerived, accountFlags, has_or, has_pendingFilter,
        has_zero, or_false]
      exact ⟨fun hi => ⟨hi, hc i hi⟩, And.left⟩
    · intro i hall h31 hrep
      have hi : Has (chanacsEntityFlags db mc (.user mu)) i :=
        hrep.elim id fun ht => (test_twoPow _ hall.lt).mp ht
      exact absurd (hc i hi hall) h31

end pending

def OnlyHostFlags (cfg : ChanConfig) (w : World) (db : ChanDb) (mc : MyChanRef) (mu : MyUserRef)
    (si : Source) : Prop :=
  ∀ i, Has (chanacsEntityFlags db mc (.user mu)) i → Has cfg.caAll i → i ≠ 31 →
    Has (hostDerived w db mc si) i

/-- For a source whose account awaits its e-mail verification the queries agree exactly
when every flag of the account's own and group entries is `CA_AKICK` or is given to the
user by a hostmask entry as well. -/
theorem pending_queries_agree_iff (cfg : ChanConfig) (w : World) (db : ChanDb) (mc : MyChanRef)
    (si : Source) (mu : MyUserRef) (hmu : si.smu db = some mu) (h : awaitsAuth db mu = true) :
    QueriesAgree cfg w db mc si ↔ OnlyHostFlags cfg w db mc mu si := by
  cases si with
  | irc u => exact queriesAgree_irc_iff hmu h
  | other smu =>
    obtain rfl : smu = some mu := hmu
    rw [queriesAgree_other_iff]
    simp only [OnlyHostFlags, hostDerived, has_zero, imp_false, not_not, ne_eq]

/- A channel operator whose account awaits its verification. -/
def pendingDb : ChanDb where
  accounts := sampleAccounts muWaitauth []
  groups := .empty
  chans := ⟨[(0, sampleChan "#chan" head_chan [])], nodup_chan⟩
  acl := ⟨[((0, .entity (.user 0)), sampleEntry caOp)], by decide⟩

theorem pending_queries_agree_witness :
    (Source.irc sampleUser).smu pendingDb = some 0 ∧ awaitsAuth pendingDb 0 = true ∧
      (QueriesAgree sampleConfig sampleWorld pendingDb 0 (.irc sampleUser) ↔
        OnlyHostFlags sampleConfig sampleWorld pendingDb 0 0 (.irc sampleUser)) :=
  ⟨by decide, by decide,
    pending_queries_agree_iff sampleConfig sampleWorld pendingDb 0 (.irc sampleUser) 0 (by decide)
      (by decide)⟩

/-- The boolean query still takes the operator for one; the bitmask query does not. -/
theorem pending_operator_has_flag :
    awaitsAuth pendingDb 0 = true ∧ sampleUser.myuser pendingDb.accounts = some 0 ∧
      chanacsUserHasFlag sampleConfig sampleWorld pendingDb 0 sampleUser caOp = true ∧
      chanacsUserFlags sampleConfig sampleWorld pendingDb 0 sampleUser = 0#32 ∧
      ¬ QueriesAgree sampleConfig sampleWorld pendingDb 0 (.irc sampleUser) := by
  refine ⟨by decide, by decide, by decide, by decide, ?_⟩
  intro h
  have := h.user sampleUser rfl caOp
  revert this
  decide

end ChatServices.ChanServ
