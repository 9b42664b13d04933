import ChatServices.ChanServ.AccessSpec
import ChatServices.ChanServ.SelfAutomode
import ChatServices.ChanServ.TemplateSpec

/-! Commands on the access list from a source that is no founder. Each stays within the
flags that the source may set, but for two that take an entry for the source's own when
it is not: FLAGS goes by the nicks of the account, and DEL by the entity that a hostmask
happens to name. -/
namespace ChatServices.ChanServ
open ChatServices.Lib ChatServices.Lib.Mask ChatServices.Lib.MaskUpdate ChatServices.Lib.Rights
open ChatServices.Text

inductive RightsCommand where
  | flags (parv : List CString)
  | accessAdd (parv : List CString)
  | accessSet (parv : List CString)
  | accessDel (parv : List CString)
  | roleSet (parv : List CString)
  | template (parv : List CString)

def RightsCommand.exec (cfg : ChanConfig) (w : World) (db : ChanDb) (si : Source)
    (channel : CString) : RightsCommand → Outcome
  | .flags parv => csCmdFlags cfg w db si (channel :: parv)
  | .accessAdd parv => csCmdAccessAdd cfg w db si channel parv
  | .accessSet parv => csCmdAccessSet cfg w db si channel parv
  | .accessDel parv => csCmdAccessDel cfg w db si channel parv
  | .roleSet parv => csCmdRoleSet cfg w db si channel parv
  | .template parv => csCmdTemplate cfg w db si (channel :: parv)

/-- No flag beyond what a source with the flags `f` may set. -/
structure NoEscalation (cfg : ChanConfig) (chan : MyChan) (f : Flags) (own : MyChanRef × Target)
    (acl acl' : AccessList) : Prop where
  other : ∀ k, k ≠ own → ∀ i, Differs (levelAt acl) (levelAt acl') k i →
    Has (allowFlags cfg chan f) i
  self : ∀ i, ¬ Has (levelAt acl own) i → Has (levelAt acl' own) i →
    Has f i ∨ Has (allowFlags cfg chan f) i ∨ AutomodeBit f i
  founder : ∀ k, ¬ Differs (levelAt acl) (levelAt acl') k 13

def escalationBound (cfg : ChanConfig) (chan : MyChan) (f : Flags) (own k : MyChanRef × Target)
    (i : Nat) : Prop :=
  i ≠ 13 ∧ (k ≠ own → Has (allowFlags cfg chan f) i) ∧
    (Has f i ∨ Has (allowFlags cfg chan f) i ∨ AutomodeBit f i)

section bound
variable {cfg : ChanConfig} {chan : MyChan} {f : Flags} {own k : MyChanRef × Target}
  {acl acl' : AccessList}

theorem noEscalation_of_confined
    (h : Confined (escalationBound cfg chan f own) (levelAt acl) (levelAt acl')) :
    NoEscalation cfg chan f own acl acl' :=
  ⟨fun k hk i hd => (h k i hd).2.1 hk,
    fun i hold hnew => (h own i (differs_of_gained hnew hold)).2.2,
    fun k hd => (h k 13 hd).1 rfl⟩

theorem noEscalation_of_levels (h : levelAt acl' = levelAt acl) :
    NoEscalation cfg chan f own acl acl' := by
  refine noEscalation_of_confined fun k i hd => ?_
  rw [h] at hd
  exact absurd hd (differs_self _ k i)

theorem escalationBound_of_allow (hf : ¬ Has f 13) {i : Nat} (h : Has (allowFlags cfg chan f) i) :
    escalationBound cfg chan f own k i :=
  ⟨fun hi => allowFlags_not_founder hf (hi ▸ h), fun _ => h, .inr (.inl h)⟩

theorem escalationBound_of_own (hf : ¬ Has f 13) {i : Nat}
    (h : Has f i ∨ Has (allowFlags cfg chan f) i) : escalationBound cfg chan f own own i := by
  refine ⟨fun hi => ?_, fun hk => absurd rfl hk, h.imp id .inl⟩
  subst hi
  exact h.elim hf (allowFlags_not_founder hf)

end bound

section commands
variable {cfg : ChanConfig} {w : World} {db : ChanDb} {si : Source} {channel : CString}
  {parv : List CString} {mc : MyChanRef} {chan : MyChan} {smu : MyUserRef}

/-! ### ROLE and TEMPLATE -/

theorem bulk_noEscalation {db' : ChanDb} {oldflags : Flags}
    (hf : ¬ Has (chanacsSourceFlags cfg w db mc si) 13)
    (h : BulkStep cfg w db si mc (channelRestrict cfg w db si mc chan) oldflags db') :
    NoEscalation cfg chan (chanacsSourceFlags cfg w db mc si) (mc, .entity (.user smu))
      db.acl db'.acl := by
  have hrestrict : channelRestrict cfg w db si mc chan =
      allowFlags cfg chan (chanacsSourceFlags cfg w db mc si) :=
    if_neg fun ht => hf ((test_caFounder _).mp ht)
  rw [hrestrict] at h
  refine noEscalation_of_confined fun k i hd => ?_
  exact escalationBound_of_allow hf ((h.differs hd).2.2 (allowFlags_not_founder hf))

theorem onChannel_noEscalation {db' : ChanDb} {P : MyChanRef → MyChan → Prop}
    {own : MyChanRef × Target} {f : Flags} (hchan : mychanFind cfg db channel = some (mc, chan))
    (h : OnChannel cfg db channel db' P)
    (hP : P mc chan → NoEscalation cfg chan f own db.acl db'.acl) :
    NoEscalation cfg chan f own db.acl db'.acl := by
  obtain rfl | ⟨mc', chan', hfind, h⟩ := h
  · exact noEscalation_of_levels rfl
  · rw [hchan] at hfind
    cases hfind
    exact hP h

/-! ### ACCESS ADD and SET -/

theorem accessRestrict_bound {f restrict : Flags} {t : Target} (hf : ¬ Has f 13)
    (h : accessRestrict cfg chan f (some (.user smu)) t.mt = some restrict) {acl : AccessList}
    {i : Nat} (hi : Has restrict i) :
    escalationBound cfg chan f (mc, .entity (.user smu)) (openKey acl mc t) i := by
  rw [accessRestrict, if_neg (by rwa [test_caFounder])] at h
  split_ifs at h with hakick hother
  · cases h
    exact escalationBound_of_allow hf hi
  · cases h
    rw [ne_eq, not_not] at hother
    cases t with
    | host mask => cases hother
    | entity mt =>
      cases hother
      exact escalationBound_of_own hf ((has_or _ _ i).mp hi)

theorem accessApply_noEscalation
    {refusal : ChanDb → MyChanRef → Option Entity → Option Reply} {req : AccessRequest}
    {body : Option Entity → CString → ChanDb → Chanacs → EntryEnd EntryResult}
    {finish : Option Entity → CString → Flags → Modified → Option (List Reply)}
    (hsmu : si.smu db = some smu) (hf : ¬ Has (chanacsSourceFlags cfg w db req.mc si) 13)
    (hbody : ∀ t, BodyEnd w (bodyDb w db si req.mc t) si (bodyEntry w db si req.mc t)
      (RoleStep refusal cfg w db si req t)
      (body t.mt (t.name db) (bodyDb w db si req.mc t) (bodyEntry w db si req.mc t)))
    {db' : ChanDb} {replies : List Reply}
    (h : accessApply cfg w db si req body finish = .done db' replies) :
    NoEscalation cfg req.chan (chanacsSourceFlags cfg w db req.mc si)
      (req.mc, .entity (.user smu)) db.acl db'.acl := by
  obtain ⟨-, hsame | ⟨t, c, restrict, -, hstep, -, hu⟩⟩ := accessApply_rights hbody h
  · exact noEscalation_of_levels hsame
  · have hmask := hstep.mask
    rw [Source.entity, hsmu] at hmask
    exact noEscalation_of_confined (hu.confined fun i hi => accessRestrict_bound hf hmask hi)

/-! ### ACCESS DEL -/

structure DelEscalates (cfg : ChanConfig) (w : World) (db : ChanDb) (si : Source)
    (mc : MyChanRef) (chan : MyChan) (f : Flags) (smu : MyUserRef) (target : CString) (i : Nat) :
    Prop where
  host : validhostmask target = true
  names : myentityFindExt cfg w db target = some (.user smu)
  notAkicked : test f caAkick = false
  within : Sub (levelAt db.acl (openKey db.acl mc (.host target))) f
  told : notifyCrashes cfg db si (.user smu) = false
  takes : Has (levelAt db.acl (openKey db.acl mc (.host target))) i
  beyond : ¬ Has (allowFlags cfg chan f) i

theorem touched_all (level : Flags) : touched level 0#32 level = level := by
  apply ext
  intro i
  simp [has_touched, has_added, has_removed]

theorem openKey_host_ne (acl : AccessList) (mask : CString) (mt : Entity) :
    openKey acl mc (.host mask) ≠ (mc, .entity mt) := by
  simp [openKey]

theorem accessDelApply_noEscalation {req : AccessRequest} {db' : ChanDb} {replies : List Reply}
    (hsmu : si.smu db = some smu) (hf : ¬ Has (chanacsSourceFlags cfg w db req.mc si) 13)
    (hnone : ¬ ∃ i, DelEscalates cfg w db si req.mc req.chan
      (chanacsSourceFlags cfg w db req.mc si) smu req.target i)
    (h : accessDelApply cfg w db si req = .done db' replies) :
    NoEscalation cfg req.chan (chanacsSourceFlags cfg w db req.mc si)
      (req.mc, .entity (.user smu)) db.acl db'.acl := by
  obtain ⟨-, hsame | ⟨t, c, restrict, ht, hstep, htold, hu⟩⟩ := accessDelApply_rights h
  · exact noEscalation_of_levels hsame
  · have hmask := hstep.mask
    have hasked := hstep.asked
    subst hasked
    rw [Source.entity, hsmu, accessDelRestrict, if_neg (by rwa [test_caFounder])] at hmask
    refine noEscalation_of_confined (hu.confined_iff.mpr fun i hi => ?_)
    have hri : Has restrict i := hu.mem_restrict ((hu.differs_touched _ i).mpr ⟨rfl, hi⟩)
    split_ifs at hmask with hakick hother
    · cases hmask
      exact escalationBound_of_allow hf hri
    · cases hmask
      have hmt : myentityFindExt cfg w db req.target = some (.user smu) :=
        (not_not.mp hother).symm
      cases t with
      | entity mt =>
        have hm := (commandTarget_entity ht).2
        rw [hmt] at hm
        cases hm
        exact escalationBound_of_own hf (.inl hri)
      | host mask =>
        obtain ⟨hv, rfl⟩ := commandTarget_host ht
        rw [touched_all] at hi
        refine escalationBound_of_allow hf (by_contra fun hnot => hnone ⟨i, hv, hmt, ?_,
          hu.permits.2.2, ?_, hi, hnot⟩)
        · rw [hmt] at hakick
          simpa [hsmu] using hakick
        · simpa [hmt, Entity.isuser] using htold

theorem accessDelApply_escalates {req : AccessRequest} {i : Nat}
    (hsmu : si.smu db = some smu) (hf : ¬ Has (chanacsSourceFlags cfg w db req.mc si) 13)
    (hesc : DelEscalates cfg w db si req.mc req.chan (chanacsSourceFlags cfg w db req.mc si) smu
      req.target i) :
    ∃ db' replies, accessDelApply cfg w db si req = .done db' replies ∧
      ¬ NoEscalation cfg req.chan (chanacsSourceFlags cfg w db req.mc si)
        (req.mc, .entity (.user smu)) db.acl db'.acl := by
  have hne : levelAt db.acl (openKey db.acl req.mc (.host req.target)) ≠ 0#32 := by
    intro h0
    have htakes := hesc.takes
    rw [h0] at htakes
    exact absurd htakes (has_zero i)
  have hmask : accessDelRestrict cfg req.chan (chanacsSourceFlags cfg w db req.mc si)
      (si.entity db) (some (.user smu)) = some (chanacsSourceFlags cfg w db req.mc si) := by
    rw [Source.entity, hsmu, accessDelRestrict, if_neg (by rwa [test_caFounder]),
      hesc.notAkicked]
    simp
  have hperm : Permits (chanacsSourceFlags cfg w db req.mc si)
      (levelAt db.acl (openKey db.acl req.mc (.host req.target))) 0#32
      (levelAt db.acl (openKey db.acl req.mc (.host req.target))) := by
    refine ⟨(sub_iff _ _).mpr fun j hj => ?_, (sub_iff _ _).mpr fun j hj => ?_, hesc.within⟩
    · exact absurd ((has_added _ _ j).mp hj).1 (has_zero j)
    · exact hesc.within.has ((has_removed _ _ _ j).mp hj).2
  obtain ⟨db', hdone, hu⟩ := editEntry_update
    (fun oldlevel _ => accessDelFinish cfg db si req (some (.user smu)) req.target oldlevel)
    (accessDelBody_permitted req.target hne (fun h => hf (hesc.within.has h)) hmask hperm) hperm
    (if_neg (by simp [Entity.isuser, hesc.told]))
  refine ⟨db', _, Eq.trans ?_ hdone, fun hno => ?_⟩
  · rw [accessDelApply, hesc.names]
    exact if_pos hesc.host
  · refine hesc.beyond (hno.other _ (openKey_host_ne db.acl req.target _) i ?_)
    rw [hu.differs_touched, touched_all]
    exact ⟨rfl, hesc.takes⟩

/-! ### FLAGS -/

/-- A FLAGS command that goes through on the entry of another with a flag that the source
may not set, its target being spelled like a nick of the source's account. -/
structure FlagsEscalates (cfg : ChanConfig) (w : World) (db : ChanDb) (si : Source)
    (parv : List CString) (chan : MyChan) (f : Flags) (own : MyChanRef × Target) (smu : MyUserRef)
    (req : FlagsRequest) (t : Target) (i : Nat) : Prop where
  plan : flagsPlan cfg w db si parv = .ok req
  self : checkSelfMatch cfg db req.target (some smu) = true
  goes : FlagsGoes cfg w db si req t
  foreign : openKey db.acl req.mc t ≠ own
  touches : Has (flagsTouched db req t) i
  beyond : ¬ Has (allowFlags cfg chan f) i

theorem flagsMask_bound {f level : Flags} {self : Bool} {req : FlagsRequest} {t : Target}
    {own k : MyChanRef × Target} {i : Nat} (hf : ¬ Has f 13)
    (hr : flagsRestrict cfg chan f self req.flagstr =
      some (req.restrictflags, req.selfautomode))
    (hlevel : Sub level (flagsMask req level t)) (hi : Has (flagsMask req level t) i)
    (hforeign : self = true → k ≠ own → Has (allowFlags cfg chan f) i) :
    escalationBound cfg chan f own k i := by
  obtain ⟨-, hauto, hmask⟩ | ⟨hself, hauto, hmask⟩ | ⟨hself, hauto, hmask⟩ :=
    flagsRestrict_cases hf hr
  · obtain h | ⟨h, -⟩ := has_flagsMask hi
    · exact escalationBound_of_allow hf (hmask ▸ h)
    · rw [hauto] at h
      cases h
  · have hheld : ∀ j, Has level j → Has f j ∨ AutomodeBit level j := by
      intro j hj
      rw [← hmask]
      exact (has_flagsMask (hlevel.has hj)).imp id And.right
    have hbit : Has f i ∨ AutomodeBit f i := by
      obtain h | ⟨-, h⟩ := has_flagsMask hi
      · exact .inl (hmask ▸ h)
      · have hown : ∀ j, Has level j → j = 2 ∨ j = 10 ∨ j = 0 → Has f j := by
          intro j hj hcase
          obtain h | h | h | h := hheld j hj
          · exact h
          all_goals omega
        obtain ⟨hi, hl⟩ | ⟨hi, hl⟩ | ⟨hi, hl⟩ := h
        · exact .inr (.inl ⟨hi, hown 2 hl (by omega)⟩)
        · exact .inr (.inr (.inl ⟨hi, hown 10 hl (by omega)⟩))
        · exact .inr (.inr (.inr ⟨hi, hown 0 hl (by omega)⟩))
    refine ⟨fun h13 => ?_, hforeign hself, hbit.imp id .inr⟩
    subst h13
    obtain h | h | h | h := hbit
    · exact hf h
    all_goals omega
  · have h : Has f i ∨ Has (allowFlags cfg chan f) i := by
      obtain h | ⟨h, -⟩ := has_flagsMask hi
      · rw [hmask] at h
        exact (has_or _ _ i).mp h
      · rw [hauto] at h
        cases h
    refine ⟨fun h13 => ?_, hforeign hself, h.imp id .inl⟩
    subst h13
    exact h.elim hf (allowFlags_not_founder hf)

theorem csCmdFlags_escalation_iff (hchan : mychanFind cfg db channel = some (mc, chan))
    (hsmu : si.smu db = some smu) (hf : ¬ Has (chanacsSourceFlags cfg w db mc si) 13) :
    (∀ db' replies, csCmdFlags cfg w db si (channel :: parv) = .done db' replies →
        NoEscalation cfg chan (chanacsSourceFlags cfg w db mc si) (mc, .entity (.user smu))
          db.acl db'.acl) ↔
      ¬ ∃ req t i, FlagsEscalates cfg w db si (channel :: parv) chan
        (chanacsSourceFlags cfg w db mc si) (mc, .entity (.user smu)) smu req t i := by
  cases hplan : flagsPlan cfg w db si (channel :: parv) with
  | error replies =>
    constructor
    · rintro - ⟨req, t, i, h⟩
      have := h.plan
      rw [hplan] at this
      cases this
    · intro _ db' replies' h
      rw [csCmdFlags, hplan] at h
      cases h
      exact noEscalation_of_levels rfl
  | ok req =>
    have hp := flagsPlan_ok hplan
    obtain ⟨rfl, rfl⟩ := hp.named hchan
    have hF : ∀ level t, ¬ Has (flagsMask req level t) 13 :=
      flagsMask_not_founder (flagsRestrict_not_founder hf hp.restrict)
    have hcmd : csCmdFlags cfg w db si (channel :: parv) = flagsApply cfg w db si req := by
      rw [csCmdFlags, hplan]
    rw [hcmd]
    constructor
    · rintro h ⟨req', t, i, hg⟩
      have hreq : req = req' := Except.ok.inj (hplan.symm.trans hg.plan)
      subst hreq
      have hconf := (flagsApply_confined_iff hF).mp
        (fun db' replies hdone k j hd hk => (h db' replies hdone).other k hk j hd)
      exact hg.beyond (hconf t hg.goes i hg.touches hg.foreign)
    · intro h db' replies hdone
      refine noEscalation_of_confined ((flagsApply_confined_iff hF).mpr ?_ db' replies hdone)
      intro t hg i hi
      have hperm := hg.permits
      have hmask : Has (flagsMask req (levelAt db.acl (openKey db.acl req.mc t)) t) i := by
        obtain ha | hr := (has_touched _ _ _ i).mp hi
        · exact hperm.1.has ha
        · exact hperm.2.1.has hr
      refine flagsMask_bound hf hp.restrict hperm.2.2 hmask fun hself hk => ?_
      rw [hsmu] at hself
      exact by_contra fun hnot => h ⟨req, t, i, hplan, hself, hg, hk, hi, hnot⟩

end commands

def Escalates (cfg : ChanConfig) (w : World) (db : ChanDb) (si : Source) (channel : CString)
    (mc : MyChanRef) (chan : MyChan) (smu : MyUserRef) : RightsCommand → Prop
  | .flags parv => ∃ req t i, FlagsEscalates cfg w db si (channel :: parv) chan
      (chanacsSourceFlags cfg w db mc si) (mc, .entity (.user smu)) smu req t i
  | .accessDel parv => ∃ target i, parv.head? = some target ∧
      DelEscalates cfg w db si mc chan (chanacsSourceFlags cfg w db mc si) smu target i
  | _ => False

/-- A source that is no founder stays within its flags exactly if the command is no FLAGS
or ACCESS DEL that goes through on an entry which only looks like its own. -/
theorem access_escalation_iff (cfg : ChanConfig) (w : World) (db : ChanDb) (si : Source)
    (channel : CString) (mc : MyChanRef) (chan : MyChan) (smu : MyUserRef) (cmd : RightsCommand)
    (hchan : mychanFind cfg db channel = some (mc, chan)) (hsmu : si.smu db = some smu)
    (hf : ¬ Has (chanacsSourceFlags cfg w db mc si) 13) :
    (∀ db' replies, cmd.exec cfg w db si channel = .done db' replies →
        NoEscalation cfg chan (chanacsSourceFlags cfg w db mc si) (mc, .entity (.user smu))
          db.acl db'.acl) ↔
      ¬ Escalates cfg w db si channel mc chan smu cmd := by
  cases cmd with
  | flags parv => exact csCmdFlags_escalation_iff hchan hsmu hf
  | accessAdd parv =>
    refine iff_of_true (fun db' replies h => ?_) id
    simp only [RightsCommand.exec, csCmdAccessAdd] at h
    split at h
    · cases h
      exact noEscalation_of_levels rfl
    · rename_i req hplan
      have hfound := accessPlan_ok hplan
      rw [hchan] at hfound
      cases hfound
      exact accessApply_noEscalation hsmu hf accessAddBody_end h
  | accessSet parv =>
    refine iff_of_true (fun db' replies h => ?_) id
    simp only [RightsCommand.exec, csCmdAccessSet] at h
    split at h
    · cases h
      exact noEscalation_of_levels rfl
    · rename_i req hplan
      have hfound := accessPlan_ok hplan
      rw [hchan] at hfound
      cases hfound
      exact accessApply_noEscalation hsmu hf accessSetBody_end h
  | accessDel parv =>
    constructor
    · rintro h ⟨target, i, hhead, hesc⟩
      have hself : si.entity db = myentityFindExt cfg w db target := by
        rw [Source.entity, hsmu, hesc.names]
        rfl
      have hplan : accessDelPlan cfg w db si channel parv =
          .ok ⟨mc, chan, channel, target, []⟩ := accessDelPlan_self hchan hhead hself
      obtain ⟨db', replies, hdone, hno⟩ : ∃ db' replies,
          accessDelApply cfg w db si ⟨mc, chan, channel, target, []⟩ = .done db' replies ∧
          ¬ NoEscalation cfg chan (chanacsSourceFlags cfg w db mc si) (mc, .entity (.user smu))
            db.acl db'.acl := accessDelApply_escalates hsmu hf hesc
      refine hno (h db' replies ?_)
      rw [RightsCommand.exec, csCmdAccessDel, hplan]
      exact hdone
    · intro hnone db' replies h
      simp only [RightsCommand.exec, csCmdAccessDel] at h
      split at h
      · cases h
        exact noEscalation_of_levels rfl
      · rename_i req hplan
        obtain ⟨hfound, hhead⟩ := accessDelPlan_ok hplan
        rw [hchan] at hfound
        cases hfound
        refine accessDelApply_noEscalation hsmu hf ?_ h
        rintro ⟨i, hesc⟩
        exact hnone ⟨req.target, i, hhead, hesc⟩
  | roleSet parv =>
    refine iff_of_true (fun db' replies h => ?_) id
    refine onChannel_noEscalation hchan (csCmdRoleSet_bulk h) ?_
    rintro ⟨oldflags, hstep⟩
    exact bulk_noEscalation hf hstep
  | template parv =>
    exact iff_of_true (fun db' replies h =>
      onChannel_noEscalation hchan (csCmdTemplate_bulk h) (bulk_noEscalation hf)) id

/- Nick ownership has been turned off since alice grouped the nick bob, and another user
has registered the account bob. -/
def renamedConfig : ChanConfig := { sampleConfig with noNickOwnership := true }

def renamedDb : ChanDb where
  accounts := { sampleAccounts 0#32 [] with
    nicks := [⟨"alice".toList, 0⟩, ⟨"bob".toList, 0⟩] }
  groups := .empty
  chans := ⟨[(0, sampleChan "#chan" head_chan [])], nodup_chan⟩
  acl := ⟨[((0, .entity (.user 0)), sampleEntry (caVoice ||| caSet))], by decide⟩

theorem access_escalation_witness :
    (∀ db' replies, (RightsCommand.flags ["bob".toList, "+v".toList]).exec renamedConfig
        sampleWorld renamedDb (.irc sampleUser) "#chan".toList = .done db' replies →
      NoEscalation renamedConfig (sampleChan "#chan" (by decide) [])
        (chanacsSourceFlags renamedConfig sampleWorld renamedDb 0 (.irc sampleUser))
        (0, .entity (.user 0)) renamedDb.acl db'.acl) ↔
      ¬ Escalates renamedConfig sampleWorld renamedDb (.irc sampleUser) "#chan".toList 0
        (sampleChan "#chan" (by decide) []) 0 (.flags ["bob".toList, "+v".toList]) :=
  access_escalation_iff renamedConfig sampleWorld renamedDb (.irc sampleUser) "#chan".toList 0
    (sampleChan "#chan" (by decide) []) 0 _ (by decide) (by decide) (by decide)

/-- A source with `+vs` gives `+s` to the entry of bob, as if it were its own; `+s` is none
of the flags that it may hand on. -/
theorem set_given_to_namesake :
    ¬ Has (chanacsSourceFlags renamedConfig sampleWorld renamedDb 0 (.irc sampleUser)) 13 ∧
      myentityFindExt renamedConfig sampleWorld renamedDb "bob".toList = some (.user 1) ∧
      ¬ Has (allowFlags renamedConfig (sampleChan "#chan" (by decide) [])
        (chanacsSourceFlags renamedConfig sampleWorld renamedDb 0 (.irc sampleUser))) 5 ∧
      ∃ db' replies, (RightsCommand.flags ["bob".toList, "+s".toList]).exec renamedConfig
          sampleWorld renamedDb (.irc sampleUser) "#chan".toList = .done db' replies ∧
        levelAt renamedDb.acl (0, .entity (.user 1)) = 0#32 ∧
        levelAt db'.acl (0, .entity (.user 1)) = caSet ∧
        ¬ NoEscalation renamedConfig (sampleChan "#chan" (by decide) [])
          (chanacsSourceFlags renamedConfig sampleWorld renamedDb 0 (.irc sampleUser))
          (0, .entity (.user 0)) renamedDb.acl db'.acl := by
  have hnot : ¬ Has (allowFlags renamedConfig (sampleChan "#chan" (by decide) [])
      (chanacsSourceFlags renamedConfig sampleWorld renamedDb 0 (.irc sampleUser))) 5 := by decide
  refine ⟨by decide, by decide, hnot, _, _, rfl, by decide, by decide, fun h => hnot ?_⟩
  exact h.other (0, .entity (.user 1)) (by decide) 5 (differs_of_gained (by decide) (by decide))

end ChatServices.ChanServ
