import ChatServices.ChanServ.TemplateSpec
import ChatServices.ChanServ.FounderRun

/-! The loops of ROLE SET and of TEMPLATE with `!` over the access list of a channel: every
entry with the old flags of the role is to get the new ones, whoever it is for. -/
namespace ChatServices.ChanServ
open ChatServices.Lib ChatServices.Lib.Mask ChatServices.Lib.MaskUpdate ChatServices.Text

structure RoleUpdate where
  mc : MyChanRef
  /-- the channel with its new templates -/
  chan : MyChan
  oldflags : Flags
  newflags : Flags
  flagstr : CString
  /-- what the management is told before the loop -/
  event : Option CString

inductive RoleCommand where
  | roleSet (channel : CString) (parv : List CString)
  | template (parv : List CString)

def RoleCommand.exec (cfg : ChanConfig) (w : World) (db : ChanDb) (si : Source) :
    RoleCommand → Outcome
  | .roleSet channel parv => csCmdRoleSet cfg w db si channel parv
  | .template parv => csCmdTemplate cfg w db si parv

def roleSetUpdate (cfg : ChanConfig) (req : RoleRequest) : Option RoleUpdate :=
  let oldflags := getTemplateFlags cfg (some req.chan) req.role
  let asked := xflagApplyBatch cfg.flagConfig oldflags req.changes
  let newflags := if test asked caFounder then asked ||| caFlags else asked
  if oldflags = 0#32 ∨ test (oldflags ||| asked) (~~~req.restrictflags) ∨
      test (oldflags ^^^ asked) caFounder ∨ newflags = 0#32 ∨
      (buildTemplateList cfg req.chan).find? (fun t => t.level = newflags) ≠ none ∨
      (roleText cfg req.chan req.role newflags).length ≥ 300 then none
  else some ⟨req.mc, setTemplates (roleText cfg req.chan req.role newflags) req.chan, oldflags,
    newflags, bitmaskToFlags2 cfg.flagConfig newflags 0#32, none⟩

/-- What TEMPLATE asks for the entries, unless it is refused, comes without `!` or touches
founder status. -/
def templateUpdate (cfg : ChanConfig) (req : TemplateRequest) : Option RoleUpdate :=
  let e := templateEdit cfg req.chan req.target req.change req.restrictflags
  if templateRefusal cfg req e ≠ none ∨ !req.changechanacs ∨
      test (e.change.add ||| e.change.rem) caFounder then none
  else some ⟨req.mc, setTemplates e.newstr req.chan, e.oldflags, e.newflags,
    bitmaskToFlags2 cfg.flagConfig e.change.add e.change.rem, some (templateEvent cfg req e)⟩

def RoleCommand.update (cfg : ChanConfig) (w : World) (db : ChanDb) (si : Source) :
    RoleCommand → Option RoleUpdate
  | .roleSet channel parv =>
    match rolePlan cfg w db si "ROLE ADD|SET" roleSyntax channel parv with
    | .error _ => none
    | .ok req => roleSetUpdate cfg req
  | .template parv =>
    match templatePlan cfg w db si parv with
    | .error _ => none
    | .ok req => templateUpdate cfg req

def Matching (db : ChanDb) (u : RoleUpdate) (k : MyChanRef × Target) : Prop :=
  k.1 = u.mc ∧ ∃ ca, db.acl.find k = some ca ∧ ca.level = u.oldflags

def EntriesUpdated (db : ChanDb) (u : RoleUpdate) (o : Outcome) : Prop :=
  ∃ db' replies, o = .done db' replies ∧
    (∀ k, Matching db u k → levelAt db'.acl k = u.newflags) ∧
    ∀ k, ¬ Matching db u k → db'.acl.find k = db.acl.find k

def HasAccount (cfg : ChanConfig) (db : ChanDb) : Target → Prop
  | .entity mt => (myuserFind cfg.toConfig db.accounts (mt.name db)).isSome
  | .host _ => False

/-- The entries when the loop has come to `e`: up to it those of the role have the new flags. -/
def RoleUpdate.rowsAt (u : RoleUpdate) (pre : List (Target × Chanacs)) (e : Target × Chanacs)
    (post : List (Target × Chanacs)) : List (Target × Flags) :=
  (aclRows (pre ++ [e])).map (fun r => (r.1, if r.2 = u.oldflags then u.newflags else r.2)) ++
    aclRows post

/-- What the loop relies on: an account of the source and one for each entry it changes, new flags
that an entry can have, and texts of its notices that are no formats with arguments. -/
structure UpdateSafe (cfg : ChanConfig) (db : ChanDb) (si : Source) (u : RoleUpdate) : Prop where
  entries : ∀ k, Matching db u k →
    (si.smu db).isSome ∧ HasAccount cfg db k.2 ∧ Sub u.newflags cfg.caAll
  event : ∀ desc, u.event = some desc → ∀ e ∈ aclRows (chanacsOf db.acl u.mc),
    isTold db (si.smu db) none e = true → Plain (eventText u.chan desc)
  notices : ∀ pre mt ca post, chanacsOf db.acl u.mc = pre ++ (.entity mt, ca) :: post →
    ca.level = u.oldflags → ∀ smu tmu, si.smu db = some smu →
      myuserFind cfg.toConfig db.accounts (mt.name db) = some tmu →
        AclNoticesPlain cfg db u.chan (u.rowsAt pre (.entity mt, ca) post) smu tmu u.flagstr
          u.newflags

/-! ### The commands by their loop -/

/-- How a command that goes through ends. -/
def LoopOutcome (cfg : ChanConfig) (w : World) (db : ChanDb) (si : Source) (u : RoleUpdate)
    (o : Outcome) : Prop :=
  let db₁ := putChan u.mc u.chan db
  ∃ replies, o =
    if u.event.any (miscNoticesCrash db₁ u.chan (aclRows (chanacsOf db.acl u.mc)) (si.smu db)) ||
        updateCrashes cfg w db₁ si u.mc u.chan u.oldflags u.newflags u.flagstr then .crash
    else .done { db₁ with acl := updateMatching cfg w db₁ si u.mc u.oldflags u.newflags } replies

section commands
variable {cfg : ChanConfig} {w : World} {db : ChanDb} {si : Source} {u : RoleUpdate}

theorem xor_founder_result {a b : Flags} (h : ¬ test (a ^^^ b) caFounder = true) :
    ¬ test (a ^^^ (if test b caFounder then b ||| caFlags else b)) caFounder = true := by
  have hiff := test_xor_caFounder h
  rw [test_caFounder, has_xor, not_not]
  split_ifs
  · simp [hiff]
  · exact hiff.symm

theorem roleSet_loop {channel : CString} {parv : List CString}
    (h : (RoleCommand.roleSet channel parv).update cfg w db si = some u) :
    LoopOutcome cfg w db si u (csCmdRoleSet cfg w db si channel parv) := by
  simp only [RoleCommand.update] at h
  rw [csCmdRoleSet]
  cases hplan : rolePlan cfg w db si "ROLE ADD|SET" roleSyntax channel parv with
  | error r =>
    rw [hplan] at h
    cases h
  | ok req =>
    simp only [hplan, roleSetUpdate, Option.ite_none_left_eq_some, not_or, Option.some.injEq,
      not_not] at h
    obtain ⟨⟨hold, hdenied, hfounder, hnew, hfree, hlen⟩, rfl⟩ := h
    have hkeep := xor_founder_result hfounder
    dsimp only
    rw [if_neg hold, if_neg hdenied, if_neg hfounder, roleSetFlags]
    rw [if_neg hnew, hfree, updateRoleEntry]
    have hctrl : ¬ (decide (getTemplateFlags cfg (some req.chan) req.role = 0#32) &&
        hasCtrlChars req.role) = true := by simp [hold]
    have hgo := not_or.mpr ⟨hnew, hkeep⟩
    dsimp only
    rw [if_neg hctrl, if_neg hlen, if_neg hgo]
    exact ⟨_, rfl⟩

theorem template_loop {parv : List CString}
    (h : (RoleCommand.template parv).update cfg w db si = some u) :
    LoopOutcome cfg w db si u (csCmdTemplate cfg w db si parv) := by
  simp only [RoleCommand.update] at h
  rw [csCmdTemplate]
  cases hplan : templatePlan cfg w db si parv with
  | error r =>
    rw [hplan] at h
    cases h
  | ok req =>
    simp only [hplan, templateUpdate, Option.ite_none_left_eq_some, not_or, Option.some.injEq,
      not_not] at h
    obtain ⟨⟨hrefusal, hbang, hfounder⟩, rfl⟩ := h
    dsimp only
    rw [templateApply]
    dsimp only
    rw [hrefusal]
    dsimp only
    rw [if_neg hbang, if_neg hfounder]
    simp only [LoopOutcome, Option.any_some, Bool.or_eq_true, ite_or]
    exact ⟨_, rfl⟩

theorem exec_loop (cmd : RoleCommand) (h : cmd.update cfg w db si = some u) :
    LoopOutcome cfg w db si u (cmd.exec cfg w db si) := by
  cases cmd with
  | roleSet channel parv => exact roleSet_loop h
  | template parv => exact template_loop h

end commands

/-! ### The old and the new flags -/

section flags
variable {cfg : ChanConfig} {w : World} {db : ChanDb} {si : Source} {u : RoleUpdate}

theorem templateEdit_oldflags_sub (chan : MyChan) (target : CString) (c : Change)
    (restrict : Flags) : Sub (templateEdit cfg chan target c restrict).oldflags cfg.caAll := by
  rw [templateEdit]
  dsimp only
  split
  · rename_i item _
    have hitem := item.flags_sub cfg.flagConfig
    split_ifs
    all_goals exact hitem
  · dsimp only
    split_ifs
    all_goals first | exact getTemplateFlags_sub cfg _ _ | exact zero_sub _

theorem update_oldflags_sub (cmd : RoleCommand) (h : cmd.update cfg w db si = some u) :
    Sub u.oldflags cfg.caAll := by
  cases cmd with
  | roleSet channel parv =>
    simp only [RoleCommand.update] at h
    split at h
    · cases h
    · simp only [roleSetUpdate, Option.ite_none_left_eq_some, Option.some.injEq] at h
      obtain ⟨-, rfl⟩ := h
      exact getTemplateFlags_sub cfg _ _
  | template parv =>
    simp only [RoleCommand.update] at h
    split at h
    · cases h
    · simp only [templateUpdate, Option.ite_none_left_eq_some, Option.some.injEq] at h
      obtain ⟨-, rfl⟩ := h
      exact templateEdit_oldflags_sub _ _ _ _

theorem addAutoFlags_known {f : Flags} (h : Sub f cfg.caAll) : Sub (addAutoFlags f) cfg.caAll := by
  obtain ⟨hbasic, hpair⟩ := caAll_basic cfg.flagConfig
  have h1 : Has cfg.caAll 1 := hbasic.has (by decide)
  have h3 : Has cfg.caAll 3 := hbasic.has (by decide)
  refine (sub_iff _ _).mpr fun i hi => ?_
  obtain hi | ⟨-, hi⟩ := has_ite_or hi
  · obtain hi | ⟨htest, hi⟩ := has_ite_or hi
    · obtain hi | ⟨-, hi⟩ := has_ite_or hi
      · exact h.has hi
      · exact (has_caAutoop i).mp hi ▸ h3
    · -- the automode flag of a halfop goes with the flag itself
      obtain ⟨j, hj, hhalfop⟩ := (test_iff _ _).mp htest
      have hj10 : j = 10 := (has_caHalfop j).mp hhalfop
      obtain hj | ⟨-, hj⟩ := has_ite_or hj
      · rw [(has_caAutohalfop i).mp hi]
        exact hpair.mp (h.has (hj10 ▸ hj))
      · have hj3 : j = 3 := (has_caAutoop j).mp hj
        omega
  · exact (has_caAutovoice i).mp hi ▸ h1

theorem allowFlags_known {chan : MyChan} {f : Flags} (h : Sub f cfg.caAll) :
    Sub (allowFlags cfg chan f) cfg.caAll := by
  have h31 : Has cfg.caAll 31 := (caAll_basic cfg.flagConfig).1.has (by decide)
  refine (sub_iff _ _).mpr fun i hi => ?_
  simp only [allowFlags] at hi
  generalize hflags : (if test (f &&& ~~~caAkick) caRemove then f &&& ~~~caAkick ||| caAkick
    else f &&& ~~~caAkick) = flags at hi
  have hsub : Sub flags cfg.caAll := by
    rw [← hflags]
    refine (sub_iff _ _).mpr fun j hj => ?_
    obtain hj | ⟨-, hj⟩ := has_ite_or hj
    · exact h.has ((has_and _ _ j).mp hj).1
    · exact (has_caAkick j).mp hj ▸ h31
  refine (addAutoFlags_known hsub).has ?_
  split_ifs at hi
  · exact has_dropLimited hi
  · exact has_dropLeveled (has_dropLimited hi)
  · exact hi
  · exact has_dropLeveled hi

theorem collectLevels_known {p : Target → Bool} {mc : MyChanRef} (h : LevelsKnown cfg db.acl) :
    Sub (collectLevels p 0#32 (chanacsOf db.acl mc)) cfg.caAll := by
  refine collectLevels_sub fun e he => ?_
  have hfind := (mem_chanacsOf db.acl mc e.1 e.2).mp he
  exact levelAt_of_find hfind ▸ h (mc, e.1)

theorem accountFlags_known {mc : MyChanRef} (mu : Option MyUserRef) (h : LevelsKnown cfg db.acl) :
    Sub (accountFlags db mc mu) cfg.caAll := by
  cases mu with
  | none => exact zero_sub _
  | some mu => exact collectLevels_known h

theorem channelRestrict_known {mc : MyChanRef} {chan : MyChan} (h : LevelsKnown cfg db.acl) :
    Sub (channelRestrict cfg w db si mc chan) cfg.caAll := by
  have hsource : Sub (chanacsSourceFlags cfg w db mc si) cfg.caAll := by
    cases si with
    | other smu => exact accountFlags_known smu h
    | irc v =>
      refine or_sub_iff.mpr ⟨?_, collectLevels_known h⟩
      have hor : Sub (accountFlags db mc (v.myuser db.accounts) |||
          chanacsEntityFlagsByUser w db mc v) cfg.caAll :=
        or_sub_iff.mpr ⟨accountFlags_known _ h, collectLevels_known h⟩
      split_ifs
      · exact (sub_iff _ _).mpr fun i hi => hor.has ((has_and _ _ i).mp hi).1
      · exact hor
  rw [channelRestrict, templateRestrict]
  split_ifs
  · exact (sub_iff _ _).mpr fun i hi => hi
  · exact allowFlags_known hsource

theorem sub_caAll_of_restrict {chan : MyChan} {f : Flags}
    (h : LevelsKnown cfg db.acl) {mc : MyChanRef} {restrict : Flags}
    (hrestrict : restrict = channelRestrict cfg w db si mc chan) (hsub : Sub f restrict) :
    Sub f cfg.caAll :=
  (sub_iff _ _).mpr fun _ hi => (channelRestrict_known h).has (hrestrict ▸ hsub.has hi)

theorem update_newflags_sub (cmd : RoleCommand) (h : cmd.update cfg w db si = some u)
    (hknown : LevelsKnown cfg db.acl) : Sub u.newflags cfg.caAll := by
  cases cmd with
  | roleSet channel parv =>
    simp only [RoleCommand.update] at h
    split at h
    · cases h
    · rename_i req hplan
      simp only [roleSetUpdate, Option.ite_none_left_eq_some, not_or, Option.some.injEq] at h
      obtain ⟨⟨-, hdenied, -⟩, rfl⟩ := h
      have hrestrict := (rolePlan_ok hplan).2
      have hasked := sub_caAll_of_restrict hknown hrestrict
        (or_sub_iff.mp (sub_of_not_test hdenied)).2
      have h9 : Sub caFlags cfg.caAll := by
        refine (sub_iff _ _).mpr fun i hi => (caAll_basic cfg.flagConfig).1.has ?_
        rw [(has_caFlags i).mp hi]
        decide
      dsimp only
      split_ifs
      · exact or_sub_iff.mpr ⟨hasked, h9⟩
      · exact hasked
  | template parv =>
    simp only [RoleCommand.update] at h
    split at h
    · cases h
    · rename_i req hplan
      simp only [templateUpdate, Option.ite_none_left_eq_some, not_or, not_not,
        Option.some.injEq] at h
      obtain ⟨⟨hrefusal, -⟩, rfl⟩ := h
      obtain ⟨hne, hdenied⟩ := templateRefusal_none hrefusal
      cases parv with
      | nil => cases hplan
      | cons channel params =>
        have hrestrict := (templatePlan_ok hplan).2
        exact sub_caAll_of_restrict hknown hrestrict (templateEdit_permitted hne hdenied).newflags

end flags

/-! ### The loop -/

section loop
variable {cfg : ChanConfig} {w : World} {db : ChanDb} {si : Source} {u : RoleUpdate}

theorem chanacsModifySimple_to {ca : Chanacs} {newflags : Flags} {setter : Option Entity}
    (h : Sub ca.level cfg.caAll) :
    (chanacsModifySimple cfg w db ca ⟨newflags, ~~~newflags⟩ setter).level =
      newflags &&& cfg.caAll := by
  have hok : (chanacsModify w db ca (Change.mask ⟨newflags, ~~~newflags⟩ cfg.caAll) cfg.caAll
      setter).ok = true :=
    chanacsModify_ok_iff.mpr (.inr (permits_of_sub h (and_sub_right _ _)))
  rw [chanacsModifySimple, chanacsModify_level hok]
  apply ext
  intro i
  simp only [Change.mask, has_result, has_and, has_not]
  constructor
  · rintro (⟨hl, hrem⟩ | ⟨-, hadd⟩)
    · have hall : Has cfg.caAll i := h.has hl
      exact ⟨not_not.mp fun hn => hrem ⟨⟨hl.lt, hn⟩, hall⟩, hall⟩
    · exact hadd
  · intro hadd
    by_cases hl : Has ca.level i
    · exact .inl ⟨hl, fun hrem => hrem.1.2 hadd.1⟩
    · exact .inr ⟨hl, hadd⟩

theorem find_updateMatching_other {k : MyChanRef × Target} (h : ¬ Matching db u k) :
    (updateMatching cfg w db si u.mc u.oldflags u.newflags).find k = db.acl.find k := by
  rw [updateMatching, Registry.find_update]
  cases hf : db.acl.find k with
  | none => rfl
  | some ca => exact if_neg fun hm => h ⟨hm.1, ca, hf, hm.2⟩

theorem levelAt_updateMatching_matching {k : MyChanRef × Target} (hold : Sub u.oldflags cfg.caAll)
    (h : Matching db u k) : levelAt (updateMatching cfg w db si u.mc u.oldflags u.newflags) k =
      u.newflags &&& cfg.caAll := by
  obtain ⟨hmc, ca, hf, hlevel⟩ := h
  have hnew := @chanacsModifySimple_to cfg w db ca u.newflags (si.entity db) (hlevel ▸ hold)
  rw [levelAt, updateMatching, Registry.find_update, hf, Option.bind_some, if_pos ⟨hmc, hlevel⟩]
  dsimp only
  split_ifs with h0
  · rw [← hnew, h0]
    rfl
  · exact hnew

/-- The command changes neither the accounts nor the groups, so it is asked about the state before. -/
theorem name_putChan {chan : MyChan} {mc : MyChanRef} (mt : Entity) :
    mt.name (putChan mc chan db) = mt.name db := by
  cases mt <;> rfl

theorem isTold_putChan {chan : MyChan} {mc : MyChanRef} {smu tmu : Option MyUserRef} :
    isTold (putChan mc chan db) smu tmu = isTold db smu tmu := by
  funext e
  obtain ⟨t, level⟩ := e
  cases t <;> rfl

theorem aclNoticesPlain_putChan {chan chan' : MyChan} {mc : MyChanRef}
    {rows : List (Target × Flags)} {smu tmu : MyUserRef} {flagstr : CString} {flags : Flags} :
    AclNoticesPlain cfg (putChan mc chan' db) chan rows smu tmu flagstr flags ↔
      AclNoticesPlain cfg db chan rows smu tmu flagstr flags :=
  ⟨fun h => ⟨h.management, h.target⟩, fun h => ⟨h.management, h.target⟩⟩

theorem turnCrashes_eq_false {chan : MyChan} {newflags : Flags} {flagstr : CString}
    {rows : List (Target × Flags)} {t : Target} :
    turnCrashes cfg db si chan newflags flagstr rows t = false ↔
      ∃ mt smu tmu, t = .entity mt ∧ si.smu db = some smu ∧
        myuserFind cfg.toConfig db.accounts (mt.name db) = some tmu ∧
        AclNoticesPlain cfg db chan rows smu tmu flagstr newflags := by
  cases t with
  | host mask => simp [turnCrashes]
  | entity mt =>
    rw [turnCrashes]
    constructor
    · intro h
      split at h
      · rename_i smu tmu hsmu htmu
        exact ⟨mt, smu, tmu, rfl, hsmu, htmu, aclNoticesCrash_eq_false.mp h⟩
      · cases h
    · rintro ⟨mt', smu, tmu, ht, hsmu, htmu, hplain⟩
      cases ht
      rw [hsmu, htmu]
      exact aclNoticesCrash_eq_false.mpr hplain

theorem not_updateCrashes {mc : MyChanRef} {chan : MyChan} {oldflags newflags : Flags}
    {flagstr : CString} : ¬ updateCrashes cfg w db si mc chan oldflags newflags flagstr = true ↔
      ∀ pre e post, chanacsOf db.acl mc = pre ++ e :: post → e.2.level = oldflags →
        turnCrashes cfg db si chan newflags flagstr
          (aclRows ((pre ++ [e]).map (turnDone cfg w db si oldflags newflags) ++ post)) e.1 =
            false := by
  rw [updateCrashes, anyTurn_iff]
  simp only [Bool.and_eq_true, decide_eq_true_eq, not_exists, not_and, List.nil_append,
    List.map_append, List.map_cons, List.map_nil, List.append_assoc, List.singleton_append,
    Bool.not_eq_true]

/-- A matching entry has its turn. -/
theorem Matching.split {k : MyChanRef × Target} (h : Matching db u k) :
    ∃ pre ca post, chanacsOf db.acl u.mc = pre ++ (k.2, ca) :: post ∧ ca.level = u.oldflags := by
  obtain ⟨mc, t⟩ := k
  obtain ⟨hmc, ca, hf, hlevel⟩ := h
  cases hmc
  obtain ⟨pre, post, hsplit⟩ := List.append_of_mem ((mem_chanacsOf _ u.mc t ca).mpr hf)
  exact ⟨pre, ca, post, hsplit, hlevel⟩

theorem matching_of_split {pre post : List (Target × Chanacs)} {t : Target} {ca : Chanacs}
    (h : chanacsOf db.acl u.mc = pre ++ (t, ca) :: post) (hlevel : ca.level = u.oldflags) :
    Matching db u (u.mc, t) :=
  ⟨rfl, ca, (mem_chanacsOf _ _ _ _).mp (h ▸ by simp), hlevel⟩

/-- The notices see the new flags on the entries of the role that the loop has behind it. -/
theorem aclRows_turnDone {pre post : List (Target × Chanacs)} {e : Target × Chanacs}
    (hold : Sub u.oldflags cfg.caAll) (hnew : Sub u.newflags cfg.caAll) :
    aclRows ((pre ++ [e]).map (turnDone cfg w db si u.oldflags u.newflags) ++ post) =
      u.rowsAt pre e post := by
  rw [RoleUpdate.rowsAt, aclRows, aclRows, aclRows, List.map_append, List.map_map, List.map_map]
  refine congrArg (· ++ _) (List.map_congr_left fun x _ => ?_)
  simp only [Function.comp_apply, turnDone]
  split_ifs with hx
  · rw [chanacsModifySimple_to (hx ▸ hold)]
    congr 1
    apply ext
    intro i
    rw [has_and]
    exact and_iff_left_of_imp hnew.has
  · rfl

theorem not_eventCrashes : ¬ u.event.any (miscNoticesCrash (putChan u.mc u.chan db) u.chan
      (aclRows (chanacsOf db.acl u.mc)) (si.smu db)) = true ↔
    ∀ desc, u.event = some desc → ∀ e ∈ aclRows (chanacsOf db.acl u.mc),
      isTold db (si.smu db) none e = true → Plain (eventText u.chan desc) := by
  rw [Bool.not_eq_true, Option.any_eq_false]
  simp only [miscNoticesCrash, any_and_noticeCrashes, isTold_putChan]

-- the access list, the accounts and the groups are those of the state before
theorem matching_putChan {k : MyChanRef × Target} :
    Matching (putChan u.mc u.chan db) u k ↔ Matching db u k := Iff.rfl

theorem smu_putChan {mc : MyChanRef} {chan : MyChan} : si.smu (putChan mc chan db) = si.smu db := by
  cases si <;> rfl

variable {cmd : RoleCommand}

theorem EntriesUpdated.safe (h : cmd.update cfg w db si = some u)
    (hupdated : EntriesUpdated db u (cmd.exec cfg w db si)) : UpdateSafe cfg db si u := by
  have hold := update_oldflags_sub cmd h
  obtain ⟨replies, hexec⟩ := exec_loop cmd h
  rw [hexec] at hupdated
  obtain ⟨db', replies', hdone, hnew, -⟩ := hupdated
  split at hdone
  · cases hdone
  rename_i hgo
  cases hdone
  rw [Bool.or_eq_true, not_or, not_updateCrashes] at hgo
  obtain ⟨hmisc, hturns⟩ := hgo
  have hsub : ∀ k, Matching db u k → Sub u.newflags cfg.caAll := by
    intro k hk
    have hlevel := hnew k hk
    rw [levelAt_updateMatching_matching hold (matching_putChan.mpr hk)] at hlevel
    exact hlevel ▸ and_sub_right _ _
  refine ⟨fun k hk => ?_, not_eventCrashes.mp hmisc,
    fun pre mt ca post hsplit hlevel smu tmu hs ht => ?_⟩
  · obtain ⟨pre, ca, post, hsplit, hlevel⟩ := hk.split
    obtain ⟨mt, smu, tmu, hk2, hs, ht, -⟩ := turnCrashes_eq_false.mp (hturns _ _ _ hsplit hlevel)
    rw [name_putChan] at ht
    rw [smu_putChan] at hs
    refine ⟨by simp [hs], ?_, hsub k hk⟩
    rw [show k.2 = .entity mt from hk2]
    exact Option.isSome_of_mem ht
  · obtain ⟨mt', smu', tmu', hmt, hs', ht', hplain⟩ :=
      turnCrashes_eq_false.mp (hturns _ _ _ hsplit hlevel)
    cases hmt
    rw [smu_putChan, hs] at hs'
    rw [name_putChan] at ht'
    cases hs'
    cases Option.some.inj (ht.symm.trans ht')
    rw [aclRows_turnDone hold (hsub _ (matching_of_split hsplit hlevel))] at hplain
    exact aclNoticesPlain_putChan.mp hplain

theorem UpdateSafe.goes_through (hsafe : UpdateSafe cfg db si u) (hold : Sub u.oldflags cfg.caAll) :
    ¬ updateCrashes cfg w (putChan u.mc u.chan db) si u.mc u.chan u.oldflags u.newflags
      u.flagstr = true := by
  rw [not_updateCrashes]
  rintro pre ⟨t, ca⟩ post hsplit hlevel
  obtain ⟨hs, hacc, hsub⟩ := hsafe.entries _ (matching_of_split hsplit hlevel)
  cases t with
  | host mask => exact hacc.elim
  | entity mt =>
    obtain ⟨smu, hs⟩ := Option.isSome_iff_exists.mp hs
    obtain ⟨tmu, ht⟩ := Option.isSome_iff_exists.mp hacc
    have hplain := hsafe.notices pre mt ca post hsplit hlevel smu tmu hs ht
    refine turnCrashes_eq_false.mpr ⟨mt, smu, tmu, rfl, smu_putChan.trans hs, ?_, ?_⟩
    · rw [name_putChan]
      exact ht
    · rw [aclRows_turnDone hold hsub]
      exact aclNoticesPlain_putChan.mpr hplain

theorem UpdateSafe.updated (hsafe : UpdateSafe cfg db si u) (h : cmd.update cfg w db si = some u) :
    EntriesUpdated db u (cmd.exec cfg w db si) := by
  have hold := update_oldflags_sub cmd h
  obtain ⟨replies, hexec⟩ := exec_loop cmd h
  have hgo : ¬ (u.event.any (miscNoticesCrash (putChan u.mc u.chan db) u.chan
      (aclRows (chanacsOf db.acl u.mc)) (si.smu db)) || updateCrashes cfg w
        (putChan u.mc u.chan db) si u.mc u.chan u.oldflags u.newflags u.flagstr) = true := by
    rw [Bool.or_eq_true, not_or]
    exact ⟨not_eventCrashes.mpr hsafe.event, hsafe.goes_through hold⟩
  rw [hexec, if_neg hgo]
  refine ⟨_, _, rfl, fun k hk => ?_, fun k hk => ?_⟩
  · rw [levelAt_updateMatching_matching hold (matching_putChan.mpr hk)]
    apply ext
    intro i
    rw [has_and]
    exact and_iff_left_of_imp (hsafe.entries k hk).2.2.has
  · rw [find_updateMatching_other (mt matching_putChan.mp hk)]
    rfl

end loop

/-- A ROLE SET or TEMPLATE with `!` that goes through brings all entries with the old flags
to exactly the new ones, and no others, if and only if the source has an account, each of
these entries is for an entity under whose name an account is found, the new flags are
some that an entry can have, and the notices hold no `%` save in pairs `%%`. The flags are such
wherever the levels on the list are. -/
theorem role_update_iff (cfg : ChanConfig) (w : World) (db : ChanDb) (si : Source)
    (cmd : RoleCommand) (u : RoleUpdate) (h : cmd.update cfg w db si = some u) :
    (EntriesUpdated db u (cmd.exec cfg w db si) ↔ UpdateSafe cfg db si u) ∧
      (LevelsKnown cfg db.acl → Sub u.newflags cfg.caAll) :=
  ⟨⟨EntriesUpdated.safe h, fun hsafe => hsafe.updated h⟩, update_newflags_sub cmd h⟩

/- A founder, an account with `+v`, and entries of the other kinds; `mask` has the flags
`masked`. -/
def mixedDb (masked : Flags) : ChanDb where
  accounts := sampleAccounts 0#32 []
  groups := ⟨[(0, ⟨"!staff".toList, "AAAAAAAAC".toList, 0#32, []⟩)], by decide⟩
  chans := ⟨[(0, sampleChan "#chan" head_chan [])], nodup_chan⟩
  acl := ⟨[((0, .entity (.user 0)), sampleEntry (caFounder ||| caFlags)),
    ((0, .entity (.user 1)), sampleEntry caVoice),
    ((0, .entity (.group 0)), sampleEntry caOp),
    ((0, .entity (.ext "$chanacs:#other".toList)), sampleEntry caOp),
    ((0, .host "*!*@host.example".toList), sampleEntry masked)], by
      simp only [List.map]
      decide⟩

def voicesToAutovoice : RoleCommand :=
  .roleSet "#chan".toList ["VOP".toList, "+autovoice".toList]

def voiceUpdate : RoleUpdate where
  mc := 0
  chan := sampleChan "#chan" head_chan [("private:templates".toList, "VOP=+Vv".toList)]
  oldflags := caVoice
  newflags := caVoice ||| caAutovoice
  flagstr := "+Vv".toList
  event := none

theorem role_update_witness :
    (EntriesUpdated (mixedDb caOp) voiceUpdate
      (voicesToAutovoice.exec sampleConfig sampleWorld (mixedDb caOp) (.irc sampleUser)) ↔
      UpdateSafe sampleConfig (mixedDb caOp) (.irc sampleUser) voiceUpdate) ∧
    (LevelsKnown sampleConfig (mixedDb caOp).acl → Sub voiceUpdate.newflags sampleConfig.caAll) :=
  role_update_iff sampleConfig sampleWorld (mixedDb caOp) (.irc sampleUser) voicesToAutovoice
    voiceUpdate rfl

/-- A hostmask with the flags of the role: the entity of its entry is NULL. -/
theorem role_update_crashes :
    voicesToAutovoice.update sampleConfig sampleWorld (mixedDb caVoice) (.irc sampleUser) =
        some voiceUpdate ∧
      voicesToAutovoice.exec sampleConfig sampleWorld (mixedDb caVoice) (.irc sampleUser) =
        .crash ∧
      ¬ EntriesUpdated (mixedDb caVoice) voiceUpdate
        (voicesToAutovoice.exec sampleConfig sampleWorld (mixedDb caVoice) (.irc sampleUser)) := by
  refine ⟨rfl, rfl, fun ⟨db', replies, hdone, _⟩ => ?_⟩
  cases hdone

end ChatServices.ChanServ
