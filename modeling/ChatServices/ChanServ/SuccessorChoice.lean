import ChatServices.Lib.Ascent
import ChatServices.ChanServ.Rights
import ChatServices.ChanServ.Succession

/-! The choice of a successor. The loop of `mychan_pick_candidate` climbs through the entries that
could take the channel, and groups and exttargets climb with the accounts, although only an
account is returned: where the way up ends at a group, the accounts it passed are lost. -/
namespace ChatServices.ChanServ
open ChatServices.Lib ChatServices.Lib.Mask ChatServices.Lib.Ascent ChatServices.Text

/-- An entry in the order of the loop, with what `recent_ok` holds when it is compared. -/
structure Contender where
  mt : Entity
  level : Flags
  recent : Bool

def Below (a b : Contender) : Prop :=
  Sub a.level b.level ∧ a.level ≠ b.level ∨
    a.level = b.level ∧ a.recent = false ∧ b.recent = true

instance : DecidableRel Below := fun _ _ => inferInstanceAs (Decidable (_ ∧ _ ∨ _ ∧ _))

instance : IsStrictOrder Contender Below where
  irrefl a h := by
    obtain ⟨-, hne⟩ | ⟨-, hold, hnew⟩ := h
    · exact hne rfl
    · rw [hold] at hnew
      cases hnew
  trans a b c hab hbc := by
    obtain ⟨hsub, hne⟩ | ⟨heq, hold, hnew⟩ := hab
    · obtain ⟨hsub', hne'⟩ | ⟨heq', -, -⟩ := hbc
      · refine .inl ⟨hsub.trans hsub', fun he => hne ?_⟩
        rw [← he] at hsub'
        exact hsub.antisymm hsub'
      · rw [Below, ← heq']
        exact .inl ⟨hsub, hne⟩
    · obtain ⟨hsub', hne'⟩ | ⟨-, hold', -⟩ := hbc
      · rw [Below, heq]
        exact .inl ⟨hsub', hne'⟩
      · rw [hnew] at hold'
        cases hold'

/-! ### The loop as a climb -/

def askedOf (minlevel : Flags) (e : Target × Chanacs) : Option Entity :=
  match e.1 with
  | .host _ => none
  | .entity mt =>
    if test e.2.level caAkick ∨ test e.2.level caFounder ∨ ¬ Sub minlevel e.2.level then none
    else some mt

/-- What takes part; an account's own `recent_ok` stays for the groups behind it. -/
def contendersFrom (cfg : ChanConfig) (w : World) (db : ChanDb) (minlevel : Flags) :
    Bool → List (Target × Chanacs) → List Contender
  | _, [] => []
  | recent, e :: es =>
    match askedOf minlevel e with
    | none => contendersFrom cfg w db minlevel recent es
    | some mt =>
      let recent := seenLately w db mt recent
      if myentityCanRegisterChannel cfg w db mt then
        ⟨mt, addAutoFlags e.2.level, recent⟩ :: contendersFrom cfg w db minlevel recent es
      else contendersFrom cfg w db minlevel recent es

def contenders (cfg : ChanConfig) (w : World) (db : ChanDb) (mc : MyChanRef) (minlevel : Flags) :
    List Contender :=
  contendersFrom cfg w db minlevel false (chanacsOf db.acl mc)

def Candidate.hi (c : Candidate) : Option Contender :=
  c.hiMt.map fun mt => ⟨mt, c.hiLevel, c.hiRecentOk⟩

section loop
variable {cfg : ChanConfig} {w : World} {db : ChanDb} {mc : MyChanRef} {minlevel : Flags}
  {e : Target × Chanacs} {mt : Entity} {mu : MyUserRef} {ca : Chanacs}

theorem askedOf_eq_some : askedOf minlevel e = some mt ↔
    e.1 = .entity mt ∧ test e.2.level caAkick = false ∧ test e.2.level caFounder = false ∧
      Sub minlevel e.2.level := by
  obtain ⟨t, ca⟩ := e
  cases t with
  | host mask => simp [askedOf]
  | entity mt' =>
    simp only [askedOf, Option.ite_none_left_eq_some, not_or, not_not, Bool.not_eq_true,
      Option.some.injEq, Target.entity.injEq]
    tauto

theorem considerEntry_passed (c : Candidate) (h : askedOf minlevel e = none) :
    considerEntry cfg w db minlevel c e = c := by
  obtain ⟨t, ca⟩ := e
  cases t with
  | host mask => rfl
  | entity mt =>
    simp only [askedOf, ite_eq_left_iff, reduceCtorEq, imp_false, not_not] at h
    unfold considerEntry
    dsimp only
    split_ifs with hakick hfounder hasked hkept hregister
    · rfl
    · rfl
    · rfl
    all_goals
      exfalso
      simp only [Bool.not_eq_true', decide_eq_false_iff_not, not_not] at hasked
      tauto

theorem skipped_iff {mt' : Entity} {hiLevel level : Flags} {hiRecent recent : Bool} :
    (test hiLevel (~~~level) || (hiLevel = level && (!recent || hiRecent))) = true ↔
      ¬ Below ⟨mt, hiLevel, hiRecent⟩ ⟨mt', level, recent⟩ := by
  have hsub : test hiLevel (~~~level) = false ↔ Sub hiLevel level := test_eq_false_iff_and ..
  rw [Below, ← hsub]
  by_cases hlevel : hiLevel = level
  · have htest : test level (~~~level) = false := by
      rw [test_eq_false_iff_and]
      exact Sub.refl level
    subst hlevel
    cases recent <;> cases hiRecent <;> simp [htest]
  · simp [hlevel]

theorem considerEntry_asked (c : Candidate) (h : askedOf minlevel e = some mt) :
    (considerEntry cfg w db minlevel c e).recentOk = seenLately w db mt c.recentOk ∧
      (considerEntry cfg w db minlevel c e).hi =
        if myentityCanRegisterChannel cfg w db mt then
          climb Below c.hi ⟨mt, addAutoFlags e.2.level, seenLately w db mt c.recentOk⟩
        else c.hi := by
  obtain ⟨hentity, hakick, hfounder, hasked⟩ := askedOf_eq_some.mp h
  obtain ⟨t, ca⟩ := e
  cases hentity
  unfold considerEntry
  dsimp only at hakick hfounder hasked ⊢
  rw [if_neg (by simp [hakick]), if_neg (by simp [hfounder]), if_neg (by simp [hasked])]
  generalize seenLately w db mt c.recentOk = recent
  generalize addAutoFlags ca.level = level
  cases hhi : c.hiMt with
  | none =>
    rw [if_neg (by simp)]
    by_cases hcan : myentityCanRegisterChannel cfg w db mt
    · simp [hcan, Candidate.hi, hhi, climb]
    · simp [hcan, Candidate.hi, hhi]
  | some hiMt =>
    have hskip := @skipped_iff hiMt mt c.hiLevel level c.hiRecentOk recent
    rw [Option.isSome_some, Bool.true_and]
    by_cases hbelow : Below ⟨hiMt, c.hiLevel, c.hiRecentOk⟩ ⟨mt, level, recent⟩
    · rw [if_neg (hskip.not_left.mpr hbelow)]
      by_cases hcan : myentityCanRegisterChannel cfg w db mt
      · simp [hcan, Candidate.hi, hhi, climb, hbelow]
      · simp [hcan, Candidate.hi, hhi]
    · rw [if_pos (hskip.mpr hbelow)]
      simp [Candidate.hi, hhi, climb, hbelow]

theorem foldl_considerEntry (c : Candidate) (es : List (Target × Chanacs)) :
    (es.foldl (considerEntry cfg w db minlevel) c).hi =
      (contendersFrom cfg w db minlevel c.recentOk es).foldl (climb Below) c.hi := by
  induction es generalizing c with
  | nil => rfl
  | cons e es ih =>
    rw [List.foldl_cons, contendersFrom, ih]
    cases hasked : askedOf minlevel e with
    | none => rw [considerEntry_passed c hasked]
    | some mt =>
      obtain ⟨hrecent, hhi⟩ := @considerEntry_asked cfg w db minlevel e mt c hasked
      rw [hrecent, hhi]
      dsimp only
      split_ifs
      · rw [List.foldl_cons]
      · rfl

theorem mychanPickCandidate_iff : mychanPickCandidate cfg w db mc minlevel = some mu ↔
    ∃ a, Reaches Below (contenders cfg w db mc minlevel) a ∧ a.mt = .user mu := by
  have hloop := @foldl_considerEntry cfg w db minlevel ⟨none, 0#32, false, false⟩
    (chanacsOf db.acl mc)
  have hmt : ∀ c : Candidate, c.hiMt = c.hi.map Contender.mt := by
    intro c
    rw [Candidate.hi]
    cases c.hiMt <;> rfl
  rw [mychanPickCandidate, hmt, hloop]
  constructor
  · intro h
    obtain ⟨mt, hmt, hmu⟩ := Option.bind_eq_some_iff.mp h
    obtain ⟨a, ha, rfl⟩ := Option.map_eq_some_iff.mp hmt
    refine ⟨a, scan_iff.mp ha, ?_⟩
    cases hentity : a.mt with
    | user mu' =>
      rw [hentity] at hmu
      cases hmu
      rfl
    | group mg =>
      rw [hentity] at hmu
      cases hmu
    | ext name =>
      rw [hentity] at hmu
      cases hmu
  · rintro ⟨a, ha, hmu⟩
    have hscan := scan_iff.mpr ha
    rw [contenders] at hscan
    rw [Candidate.hi, Option.map_none, hscan, Option.map_some, hmu]
    rfl

end loop

/-! ### Who takes part -/

structure Eligible (cfg : ChanConfig) (w : World) (db : ChanDb) (mc : MyChanRef) (minlevel : Flags)
    (mt : Entity) (ca : Chanacs) : Prop where
  entry : db.acl.find (mc, .entity mt) = some ca
  akick : test ca.level caAkick = false
  founder : test ca.level caFounder = false
  asked : Sub minlevel ca.level
  register : myentityCanRegisterChannel cfg w db mt = true

def isRecent (w : World) (mu : MyUser) : Bool :=
  mu.logins.length > 0 || w.currtime - mu.lastlogin < recentlySeen

def SeenLately (w : World) (db : ChanDb) (mu : MyUserRef) (lately : Bool) : Prop :=
  ∃ m, db.accounts.get mu = some m ∧ isRecent w m = lately

section contenders
variable {cfg : ChanConfig} {w : World} {db : ChanDb} {mc : MyChanRef} {minlevel : Flags}
  {mt : Entity} {mu : MyUserRef} {ca : Chanacs} {a : Contender} {recent lately : Bool}
  {es : List (Target × Chanacs)}

theorem seenLately_eq (h : SeenLately w db mu lately) : seenLately w db (.user mu) recent = lately := by
  obtain ⟨m, hm, rfl⟩ := h
  rw [seenLately, hm]
  rfl

theorem mem_contendersFrom (h : a ∈ contendersFrom cfg w db minlevel recent es) :
    (∃ ca, (.entity a.mt, ca) ∈ es ∧ askedOf minlevel (.entity a.mt, ca) = some a.mt ∧
      a.level = addAutoFlags ca.level) ∧ myentityCanRegisterChannel cfg w db a.mt = true ∧
      ∀ mu lately, a.mt = .user mu → SeenLately w db mu lately → a.recent = lately := by
  induction es generalizing recent with
  | nil => cases h
  | cons e es ih =>
    have hrest : ∀ recent', a ∈ contendersFrom cfg w db minlevel recent' es →
        (∃ ca, (.entity a.mt, ca) ∈ e :: es ∧ askedOf minlevel (.entity a.mt, ca) = some a.mt ∧
          a.level = addAutoFlags ca.level) ∧ myentityCanRegisterChannel cfg w db a.mt = true ∧
          ∀ mu lately, a.mt = .user mu → SeenLately w db mu lately → a.recent = lately := by
      intro recent' ha
      obtain ⟨⟨ca, hmem, hca⟩, hothers⟩ := ih ha
      exact ⟨⟨ca, List.mem_cons_of_mem e hmem, hca⟩, hothers⟩
    rw [contendersFrom] at h
    cases hasked : askedOf minlevel e with
    | none =>
      rw [hasked] at h
      exact hrest recent h
    | some mt =>
      rw [hasked] at h
      dsimp only at h
      split_ifs at h with hcan
      · cases h with
        | head =>
          have he : e = (.entity mt, e.2) := Prod.ext (askedOf_eq_some.mp hasked).1 rfl
          refine ⟨⟨e.2, ?_, ?_, rfl⟩, hcan, fun mu lately hmu hseen => ?_⟩
          · rw [← he]
            exact List.mem_cons_self ..
          · rw [← he]
            exact hasked
          · rw [show mt = .user mu from hmu]
            exact seenLately_eq hseen
        | tail _ h => exact hrest _ h
      · exact hrest _ h

theorem exists_contendersFrom (h : (.entity mt, ca) ∈ es)
    (hasked : askedOf minlevel (.entity mt, ca) = some mt)
    (hcan : myentityCanRegisterChannel cfg w db mt = true) (recent : Bool) :
    ∃ a ∈ contendersFrom cfg w db minlevel recent es,
      a.mt = mt ∧ a.level = addAutoFlags ca.level := by
  induction es generalizing recent with
  | nil => cases h
  | cons e es ih =>
    rw [contendersFrom]
    cases h with
    | head =>
      rw [hasked]
      dsimp only
      rw [if_pos hcan]
      exact ⟨_, List.mem_cons_self .., rfl, rfl⟩
    | tail _ h =>
      cases askedOf minlevel e with
      | none => exact ih h recent
      | some mt' =>
        dsimp only
        split_ifs
        · obtain ⟨a, ha, hlevel⟩ := ih h (seenLately w db mt' recent)
          exact ⟨a, List.mem_cons_of_mem _ ha, hlevel⟩
        · exact ih h _

theorem mem_contenders (h : a ∈ contenders cfg w db mc minlevel) :
    (∃ ca, Eligible cfg w db mc minlevel a.mt ca ∧ a.level = addAutoFlags ca.level) ∧
      ∀ mu lately, a.mt = .user mu → SeenLately w db mu lately → a.recent = lately := by
  obtain ⟨⟨ca, hmem, hasked, hlevel⟩, hcan, hseen⟩ := mem_contendersFrom h
  obtain ⟨-, hakick, hfounder, hsub⟩ := askedOf_eq_some.mp hasked
  exact ⟨⟨ca, ⟨(mem_chanacsOf ..).mp hmem, hakick, hfounder, hsub, hcan⟩, hlevel⟩, hseen⟩

theorem Eligible.exists_contender (h : Eligible cfg w db mc minlevel mt ca) :
    ∃ a ∈ contenders cfg w db mc minlevel, a.mt = mt ∧ a.level = addAutoFlags ca.level :=
  exists_contendersFrom ((mem_chanacsOf ..).mpr h.entry)
    (askedOf_eq_some.mpr ⟨rfl, h.akick, h.founder, h.asked⟩) h.register false

end contenders

/-! ### What is chosen -/

/-- No entry that could have been chosen has more flags, and an account that was not seen lately
comes with flags that no account has which was. -/
structure BestChoice (cfg : ChanConfig) (w : World) (db : ChanDb) (mc : MyChanRef) (minlevel : Flags)
    (mu : MyUserRef) (ca : Chanacs) : Prop where
  eligible : Eligible cfg w db mc minlevel (.user mu) ca
  flags : ∀ mt ca', Eligible cfg w db mc minlevel mt ca' →
    Sub (addAutoFlags ca.level) (addAutoFlags ca'.level) →
      addAutoFlags ca.level = addAutoFlags ca'.level
  recent : ∀ mu' ca', Eligible cfg w db mc minlevel (.user mu') ca' →
    addAutoFlags ca.level = addAutoFlags ca'.level → SeenLately w db mu false →
      ¬ SeenLately w db mu' true

structure SuccessionLaw (cfg : ChanConfig) (w : World) (db : ChanDb) (mc : MyChanRef) : Prop where
  kept : ∀ mu ca, Eligible cfg w db mc 0#32 (.user mu) ca →
    ∃ mu' ca', mychanPickSuccessor cfg w db mc = some mu' ∧
      Eligible cfg w db mc 0#32 (.user mu') ca'
  best : ∀ minlevel mu, mychanPickCandidate cfg w db mc minlevel = some mu →
    ∃ ca, BestChoice cfg w db mc minlevel mu ca

def EndsAtUser (cfg : ChanConfig) (w : World) (db : ChanDb) (mc : MyChanRef) (minlevel : Flags) :
    Prop :=
  ∃ a mu, Reaches Below (contenders cfg w db mc minlevel) a ∧ a.mt = .user mu

section choice
variable {cfg : ChanConfig} {w : World} {db : ChanDb} {mc : MyChanRef} {minlevel : Flags}
  {mu : MyUserRef}

theorem mychanPickCandidate_best (h : mychanPickCandidate cfg w db mc minlevel = some mu) :
    ∃ ca, BestChoice cfg w db mc minlevel mu ca := by
  obtain ⟨a, ha, hmu⟩ := mychanPickCandidate_iff.mp h
  have hmax := ha.maximal
  obtain ⟨⟨ca, heligible, hlevel⟩, hrecent⟩ := mem_contenders ha.mem
  rw [hmu] at heligible
  refine ⟨ca, heligible, fun mt ca' helig' hsub => ?_, fun mu' ca' helig' heq hnot hseen => ?_⟩
  · obtain ⟨b, hb, -, hblevel⟩ := helig'.exists_contender
    by_contra hne
    rw [← hlevel, ← hblevel] at hsub hne
    exact hmax b hb (.inl ⟨hsub, hne⟩)
  · obtain ⟨b, hb, hbmt, hblevel⟩ := helig'.exists_contender
    have hbrecent := (mem_contenders hb).2 mu' true hbmt hseen
    have harecent := hrecent mu false hmu hnot
    rw [← hlevel, ← hblevel] at heq
    exact hmax b hb (.inr ⟨heq, harecent, hbrecent⟩)

theorem Eligible.any {mt : Entity} {ca : Chanacs} (h : Eligible cfg w db mc minlevel mt ca) :
    Eligible cfg w db mc 0#32 mt ca :=
  { h with asked := zero_sub _ }

theorem mychanPickSuccessor_isSome : (mychanPickSuccessor cfg w db mc).isSome ↔
    ∃ level ∈ successorLevels cfg, EndsAtUser cfg w db mc level := by
  rw [mychanPickSuccessor, List.findSome?_isSome_iff]
  constructor
  · rintro ⟨level, hlevel, hsome⟩
    obtain ⟨mu, hmu⟩ := Option.isSome_iff_exists.mp hsome
    obtain ⟨a, ha⟩ := mychanPickCandidate_iff.mp hmu
    exact ⟨level, hlevel, a, mu, ha⟩
  · rintro ⟨level, hlevel, a, mu, ha⟩
    refine ⟨level, hlevel, ?_⟩
    rw [mychanPickCandidate_iff.mpr ⟨a, ha⟩]
    rfl

/-- A channel is not lost to its accounts exactly if none could take it over, or the way up ends
at an account at one of the levels that are tried. -/
theorem succession_iff (cfg : ChanConfig) (w : World) (db : ChanDb) (mc : MyChanRef) :
    SuccessionLaw cfg w db mc ↔
      ((∃ mu ca, Eligible cfg w db mc 0#32 (.user mu) ca) →
        ∃ level ∈ successorLevels cfg, EndsAtUser cfg w db mc level) := by
  constructor
  · rintro hlaw ⟨mu, ca, heligible⟩
    obtain ⟨mu', ca', hpick, -⟩ := hlaw.kept mu ca heligible
    rw [← mychanPickSuccessor_isSome, hpick]
    rfl
  · intro h
    refine ⟨fun mu ca heligible => ?_, fun minlevel mu => mychanPickCandidate_best⟩
    have hsome := mychanPickSuccessor_isSome.mpr (h ⟨mu, ca, heligible⟩)
    obtain ⟨mu', hpick⟩ := Option.isSome_iff_exists.mp hsome
    obtain ⟨level, -, hcandidate⟩ := List.exists_of_findSome?_eq_some hpick
    obtain ⟨ca', hbest⟩ := mychanPickCandidate_best hcandidate
    exact ⟨mu', ca', hpick, hbest.eligible.any⟩

/- A channel of alice's, on which a group has more flags than bob. -/
def groupDb : ChanDb where
  accounts := sampleAccounts 0#32 []
  groups := ⟨[(7, ⟨"!helpers".toList, "AAAAAAAAC".toList, 0#32, [⟨.user 0, 0#32⟩]⟩)], by simp⟩
  chans := ⟨[(0, sampleChan "#chan" head_chan [])], nodup_chan⟩
  acl := ⟨[((0, .entity (.user 0)), sampleEntry (caFounder ||| caFlags)),
    ((0, .entity (.group 7)), sampleEntry (caVoice ||| caOp)),
    ((0, .entity (.user 1)), sampleEntry caVoice)], by simp⟩

/-- Bob could take the channel over, and no successor is found. -/
theorem group_hides_account :
    Eligible sampleConfig sampleWorld groupDb 0 0#32 (.user 1) (sampleEntry caVoice) ∧
      mychanPickSuccessor sampleConfig sampleWorld groupDb 0 = none ∧
      ¬ SuccessionLaw sampleConfig sampleWorld groupDb 0 := by
  have heligible : Eligible sampleConfig sampleWorld groupDb 0 0#32 (.user 1)
      (sampleEntry caVoice) :=
    ⟨by decide, by decide, by decide, by decide, by decide +kernel⟩
  have hnone : mychanPickSuccessor sampleConfig sampleWorld groupDb 0 = none := by decide +kernel
  refine ⟨heligible, hnone, fun hlaw => ?_⟩
  obtain ⟨mu, ca, hpick, -⟩ := hlaw.kept _ _ heligible
  rw [hnone] at hpick
  cases hpick

end choice

end ChatServices.ChanServ
