import ChatServices.ChanServ.FlagsSpec

/-! FLAGS from a source without `CA_FLAGS` and `CA_FOUNDER`: the self-automode shortcut
and the removal of one's own access. The shortcut bounds the change by all the flags of
the source, and so lets through more than automode flags. -/
namespace ChatServices.ChanServ
open ChatServices.Lib ChatServices.Lib.Mask ChatServices.Lib.MaskUpdate ChatServices.Lib.Rights
open ChatServices.Text

def AutomodeBit (f : Flags) (i : Nat) : Prop :=
  (i = 3 ∧ Has f 2) ∨ (i = 11 ∧ Has f 10) ∨ (i = 1 ∧ Has f 0)

instance (f : Flags) (i : Nat) : Decidable (AutomodeBit f i) :=
  inferInstanceAs (Decidable (_ ∨ _ ∨ _))

structure OnlyAutomode (f : Flags) (own : MyChanRef × Target) (flagstr : Option CString)
    (acl acl' : AccessList) : Prop where
  other : ∀ k, k ≠ own → levelAt acl' k = levelAt acl k
  self : flagstr ≠ some "-*".toList → ∀ i, Differs (levelAt acl) (levelAt acl') own i →
    AutomodeBit f i

def automodeBound (f : Flags) (own : MyChanRef × Target) (flagstr : Option CString)
    (k : MyChanRef × Target) (i : Nat) : Prop :=
  k = own ∧ (flagstr ≠ some "-*".toList → AutomodeBit f i)

theorem onlyAutomode_iff {f : Flags} {own : MyChanRef × Target} {flagstr : Option CString}
    {acl acl' : AccessList} : OnlyAutomode f own flagstr acl acl' ↔
      Confined (automodeBound f own flagstr) (levelAt acl) (levelAt acl') := by
  constructor
  · intro h k i hd
    have hk : k = own := by
      by_contra hk
      rw [Differs, h.other k hk] at hd
      exact hd Iff.rfl
    subst hk
    exact ⟨rfl, fun hstr => h.self hstr i hd⟩
  · intro h
    refine ⟨fun k hk => eq_of_not_differs fun i hd => hk (h k i hd).1, ?_⟩
    exact fun hstr i hd => (h own i hd).2 hstr

section restrict
variable {cfg : ChanConfig} {chan : MyChan} {f : Flags} {self auto : Bool} {flagstr : CString}
  {restrict : Flags}

theorem flagsRestrict_cases (hf : ¬ Has f 13)
    (h : flagsRestrict cfg chan f self flagstr = some (restrict, auto)) :
    (self = false ∧ auto = false ∧ restrict = allowFlags cfg chan f) ∨
      (self = true ∧ auto = true ∧ restrict = f) ∨
      (self = true ∧ auto = false ∧ restrict = f ||| allowFlags cfg chan f) := by
  rw [flagsRestrict, if_neg (by rwa [test_caFounder])] at h
  split_ifs at h with h1 h2 h3
  · simp only [Bool.and_eq_true] at h1
    cases h
    exact .inr (.inl ⟨h1.2.1.2, rfl, rfl⟩)
  · cases h
    exact .inl ⟨by rwa [Bool.not_eq_true'] at h3, rfl, rfl⟩
  · cases h
    exact .inr (.inr ⟨by rwa [Bool.not_eq_true', Bool.not_eq_false] at h3, rfl, rfl⟩)

theorem flagsRestrict_not_founder (hf : ¬ Has f 13)
    (h : flagsRestrict cfg chan f self flagstr = some (restrict, auto)) : ¬ Has restrict 13 := by
  have hallow : ¬ Has (allowFlags cfg chan f) 13 := allowFlags_not_founder hf
  obtain ⟨-, -, rfl⟩ | ⟨-, -, rfl⟩ | ⟨-, -, rfl⟩ := flagsRestrict_cases hf h
  · exact hallow
  · exact hf
  · rw [has_or]
    exact fun h => h.elim hf hallow

theorem has_autoRestrict {level : Flags} {c : Change} {i : Nat}
    (h : Has (autoRestrict level c restrict) i) : Has restrict i ∨ AutomodeBit level i := by
  rcases has_ite_or h with h | ⟨hc, h⟩
  · rcases has_ite_or h with h | ⟨hc, h⟩
    · rcases has_ite_or h with h | ⟨hc, h⟩
      · exact .inl h
      · rw [Bool.and_eq_true, test_bit has_caOp] at hc
        exact .inr (.inl ⟨(has_caAutoop i).mp h, hc.1⟩)
    · rw [Bool.and_eq_true, test_bit has_caHalfop] at hc
      exact .inr (.inr (.inl ⟨(has_caAutohalfop i).mp h, hc.1⟩))
  · rw [Bool.and_eq_true, test_bit has_caVoice] at hc
    exact .inr (.inr (.inr ⟨(has_caAutovoice i).mp h, hc.1⟩))

theorem has_flagsMask {req : FlagsRequest} {level : Flags} {t : Target} {i : Nat}
    (h : Has (flagsMask req level t) i) :
    Has req.restrictflags i ∨ req.selfautomode = true ∧ AutomodeBit level i := by
  cases t with
  | host mask => exact .inl h
  | entity mt =>
    simp only [flagsMask, FlagsRequest.entityRestrict] at h
    split_ifs at h with hauto
    · exact (has_autoRestrict h).imp id (And.intro hauto)
    · exact .inl h

theorem flagsMask_not_founder {req : FlagsRequest} (h : ¬ Has req.restrictflags 13)
    (level : Flags) (t : Target) : ¬ Has (flagsMask req level t) 13 := by
  intro hm
  rcases has_flagsMask hm with hm | ⟨-, hm | hm | hm⟩
  · exact h hm
  all_goals omega

end restrict

theorem flagsRestrict_self {cfg : ChanConfig} {chan : MyChan} {f : Flags} {self : Bool}
    {flagstr : CString} {r : Flags × Bool} (hflags : ¬ Has f 9) (hfounder : ¬ Has f 13)
    (h : flagsRestrict cfg chan f self flagstr = some r) :
    self = true ∧
      (cfg.permitSelfAutoop = true ∧ maySelfAutomode cfg f = true ∨ flagstr = "-*".toList) := by
  have h9 : test f caFlags = false := by
    rwa [← Bool.not_eq_true, test_bit has_caFlags]
  rw [flagsRestrict, if_neg (by rwa [test_caFounder]), h9, Bool.not_false, Bool.true_and,
    Bool.true_and] at h
  split_ifs at h with h1 h2 h3
  · simp only [Bool.and_eq_true] at h1
    exact ⟨h1.1.2, .inl ⟨h1.1.1, h1.2⟩⟩
  · rw [Bool.not_eq_true'] at h3
    simp [h3] at h2
  · simp only [Bool.or_eq_true, decide_eq_true_eq, not_or, not_not] at h2
    rw [Bool.not_eq_true', Bool.not_eq_false] at h3
    exact ⟨h3, .inr h2.2⟩

/-- A FLAGS command that passes as one about oneself and is about more than automode: its
target names the entry of another entity, or the change has another flag. -/
structure GrantsMore (cfg : ChanConfig) (w : World) (db : ChanDb) (si : Source)
    (parv : List CString) (f : Flags) (mc : MyChanRef) (smu : MyUserRef) (req : FlagsRequest)
    (t : Target) (i : Nat) : Prop where
  plan : flagsPlan cfg w db si parv = .ok req
  self : checkSelfMatch cfg db req.target (some smu) = true
  shortcut : cfg.permitSelfAutoop = true ∧ maySelfAutomode cfg f = true ∨
    req.flagstr = "-*".toList
  goes : FlagsGoes cfg w db si req t
  touches : Has (flagsTouched db req t) i
  more : openKey db.acl req.mc t ≠ (mc, .entity (.user smu)) ∨
    (parv[2]? ≠ some "-*".toList ∧ ¬ AutomodeBit f i)

/-- For a source whose flags lack `CA_FLAGS` and `CA_FOUNDER`, FLAGS changes nothing but
automode flags of its own entry exactly if the command is none that goes through with
another flag or on another entry. -/
theorem self_automode_iff (cfg : ChanConfig) (w : World) (db : ChanDb) (si : Source)
    (channel : CString) (params : List CString) (mc : MyChanRef) (chan : MyChan) (smu : MyUserRef)
    (hchan : mychanFind cfg db channel = some (mc, chan)) (hsmu : si.smu db = some smu)
    (hflags : ¬ Has (chanacsSourceFlags cfg w db mc si) 9)
    (hfounder : ¬ Has (chanacsSourceFlags cfg w db mc si) 13) :
    (∀ db' replies, csCmdFlags cfg w db si (channel :: params) = .done db' replies →
        OnlyAutomode (chanacsSourceFlags cfg w db mc si) (mc, .entity (.user smu)) params[1]?
          db.acl db'.acl) ↔
      ¬ ∃ req t i, GrantsMore cfg w db si (channel :: params) (chanacsSourceFlags cfg w db mc si)
        mc smu req t i := by
  cases hplan : flagsPlan cfg w db si (channel :: params) with
  | error replies =>
    constructor
    · rintro - ⟨req, t, i, h⟩
      have := h.plan
      rw [hplan] at this
      cases this
    · intro _ db' replies' h
      rw [csCmdFlags, hplan] at h
      cases h
      exact ⟨fun _ _ => rfl, fun _ i hd => absurd hd (differs_self _ _ i)⟩
  | ok req =>
    have hp := flagsPlan_ok hplan
    have hmc := (hp.named hchan).1
    have hF : ∀ level t, ¬ Has (flagsMask req level t) 13 :=
      flagsMask_not_founder (flagsRestrict_not_founder (hmc ▸ hfounder) hp.restrict)
    obtain ⟨hself, hshort⟩ := flagsRestrict_self (hmc ▸ hflags) (hmc ▸ hfounder) hp.restrict
    rw [hmc] at hshort
    rw [hsmu] at hself
    have hcmd : csCmdFlags cfg w db si (channel :: params) = flagsApply cfg w db si req := by
      rw [csCmdFlags, hplan]
    simp only [hcmd, onlyAutomode_iff]
    rw [flagsApply_confined_iff hF]
    constructor
    · rintro h ⟨req', t, i, hg⟩
      have hreq : req = req' := Except.ok.inj (hplan.symm.trans hg.plan)
      subst hreq
      obtain ⟨hown, hbit⟩ := h t hg.goes i hg.touches
      rcases hg.more with hk | ⟨hstr, hnot⟩
      · exact hk hown
      · exact hnot (hbit hstr)
    · intro h t hg i hi
      by_contra hbound
      refine h ⟨req, t, i, hplan, hself, hshort, hg, hi, ?_⟩
      by_cases hown : openKey db.acl req.mc t = (mc, .entity (.user smu))
      · refine .inr ⟨fun hstr => hbound ⟨hown, fun hne => absurd hstr hne⟩, fun hbit => ?_⟩
        exact hbound ⟨hown, fun _ => hbit⟩
      · exact .inl hown

/- A user with `+v` whose hostmask has `+t`. -/
def voiceDb : ChanDb where
  accounts := sampleAccounts 0#32 []
  groups := .empty
  chans := ⟨[(0, sampleChan "#chan" head_chan [])], nodup_chan⟩
  acl := ⟨[((0, .entity (.user 0)), sampleEntry caVoice),
    ((0, .host "*!*@*".toList), sampleEntry caTopic)], by decide⟩

def voiceWorld : World := { sampleWorld with hostMatches := fun _ _ => true }

theorem self_automode_witness :
    mychanFind sampleConfig voiceDb "#chan".toList =
        some (0, sampleChan "#chan" (by decide) []) ∧
      ((∀ db' replies, csCmdFlags sampleConfig voiceWorld voiceDb (.irc sampleUser)
          ["#chan".toList, "alice".toList, "+V".toList] = .done db' replies →
        OnlyAutomode (chanacsSourceFlags sampleConfig voiceWorld voiceDb 0 (.irc sampleUser))
          (0, .entity (.user 0)) (some "+V".toList) voiceDb.acl db'.acl) ↔
      ¬ ∃ req t i, GrantsMore sampleConfig voiceWorld voiceDb (.irc sampleUser)
        ["#chan".toList, "alice".toList, "+V".toList]
        (chanacsSourceFlags sampleConfig voiceWorld voiceDb 0 (.irc sampleUser)) 0 0 req t i) :=
  ⟨by decide, self_automode_iff sampleConfig voiceWorld voiceDb (.irc sampleUser) "#chan".toList
    ["alice".toList, "+V".toList] 0 (sampleChan "#chan" (by decide) []) 0 (by decide) (by decide)
    (by decide) (by decide)⟩

/-- `+t`, which the user has by hostmask only, becomes a flag of the user's own entry. -/
theorem voice_takes_topic :
    ¬ Has (chanacsSourceFlags sampleConfig voiceWorld voiceDb 0 (.irc sampleUser)) 9 ∧
      ¬ Has (chanacsSourceFlags sampleConfig voiceWorld voiceDb 0 (.irc sampleUser)) 13 ∧
      ∃ db' replies, csCmdFlags sampleConfig voiceWorld voiceDb (.irc sampleUser)
          ["#chan".toList, "alice".toList, "+t".toList] = .done db' replies ∧
        levelAt voiceDb.acl (0, .entity (.user 0)) = caVoice ∧
        levelAt db'.acl (0, .entity (.user 0)) = caVoice ||| caTopic ∧
        ¬ OnlyAutomode (chanacsSourceFlags sampleConfig voiceWorld voiceDb 0 (.irc sampleUser))
          (0, .entity (.user 0)) (some "+t".toList) voiceDb.acl db'.acl := by
  refine ⟨by decide, by decide, _, _, rfl, by decide, by decide, ?_⟩
  intro h
  have hbit := h.self (by decide) 4 (differs_of_gained (by decide) (by decide))
  revert hbit
  decide

end ChatServices.ChanServ
