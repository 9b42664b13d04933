import ChatServices.ChanServ.CmdTemplate
import ChatServices.ChanServ.Rights

/-! What ROLE and TEMPLATE can do to the rights: entries with the old flags of a template
change in the flags that the template changes in, and nothing else does. -/
namespace ChatServices.ChanServ
open ChatServices.Lib ChatServices.Lib.Mask ChatServices.Lib.MaskUpdate ChatServices.Lib.Rights
open ChatServices.Text

section update
variable {cfg : ChanConfig} {w : World} {db : ChanDb} {si : Source} {mc : MyChanRef}
  {oldflags newflags : Flags}

theorem chanacsModifySimple_level {ca : Chanacs} {c : Change} {setter : Option Entity} :
    (chanacsModifySimple cfg w db ca c setter).level = ca.level ∨
      (chanacsModifySimple cfg w db ca c setter).level =
        result ca.level (c.mask cfg.caAll).add (c.mask cfg.caAll).rem := by
  rw [chanacsModifySimple]
  cases hok : (chanacsModify w db ca (c.mask cfg.caAll) cfg.caAll setter).ok with
  | false => exact .inl (by rw [chanacsModify_refused hok])
  | true => exact .inr (chanacsModify_level hok)

theorem levelAt_updateMatching (k : MyChanRef × Target) :
    levelAt (updateMatching cfg w db si mc oldflags newflags) k = levelAt db.acl k ∨
      k.1 = mc ∧ levelAt db.acl k = oldflags ∧
        levelAt (updateMatching cfg w db si mc oldflags newflags) k =
          result oldflags (newflags &&& cfg.caAll) (~~~newflags &&& cfg.caAll) := by
  cases hf : db.acl.find k with
  | none =>
    refine .inl ?_
    rw [levelAt, updateMatching, Registry.find_update, hf, levelAt, hf]
    rfl
  | some ca =>
    have hl : levelAt db.acl k = ca.level := levelAt_of_find hf
    by_cases hm : k.1 = mc ∧ ca.level = oldflags
    · have hnew : levelAt (updateMatching cfg w db si mc oldflags newflags) k =
          (chanacsModifySimple cfg w db ca ⟨newflags, ~~~newflags⟩ (si.entity db)).level := by
        rw [levelAt, updateMatching, Registry.find_update, hf, Option.bind_some, if_pos hm]
        dsimp only
        split_ifs with h0
        · exact h0.symm
        · rfl
      rw [hnew, hl]
      refine chanacsModifySimple_level.imp id fun h => ⟨hm.1, hm.2, ?_⟩
      rw [h, hm.2]
      rfl
    · refine .inl ?_
      rw [levelAt, updateMatching, Registry.find_update, hf, Option.bind_some, if_neg hm, levelAt, hf]

theorem updateMatching_differs {k : MyChanRef × Target} {i : Nat}
    (h : Differs (levelAt db.acl)
      (levelAt (updateMatching cfg w db si mc oldflags newflags)) k i) :
    k.1 = mc ∧ ¬ (Has newflags i ↔ Has oldflags i) := by
  obtain hsame | ⟨hmc, hold, hnew⟩ := @levelAt_updateMatching cfg w db si mc oldflags newflags k
  · rw [Differs, hsame] at h
    exact absurd Iff.rfl h
  · refine ⟨hmc, fun hiff => h ?_⟩
    rw [hnew, hold, has_result]
    simp only [has_and, has_not]
    constructor
    · rintro (⟨hl, -⟩ | ⟨-, hn, -⟩)
      · exact hl
      · exact hiff.mp hn
    · exact fun hl => .inl ⟨hl, fun hr => hr.1.2 (hiff.mpr hl)⟩

theorem updateMatching_eq_self
    (h : ∀ e ∈ chanacsOf db.acl mc, e.2.level ≠ oldflags) :
    updateMatching cfg w db si mc oldflags newflags = db.acl := by
  refine Registry.update_eq_self fun e he => if_neg ?_
  rintro ⟨hmc, hlevel⟩
  refine h (e.1.2, e.2) ?_ hlevel
  rw [mem_chanacsOf, Registry.find_eq_some_iff, ← hmc]
  exact he

end update

/-- The effect of ROLE and TEMPLATE: no channel comes or goes, and the access list is as
before or is brought from the old flags of the template to new ones, founders staying
founders and, for a source that is none, within its restriction mask. -/
structure BulkStep (cfg : ChanConfig) (w : World) (db : ChanDb) (si : Source) (mc : MyChanRef)
    (restrict oldflags : Flags) (db' : ChanDb) : Prop where
  chans : ∀ mc', (db'.chans.find mc').isSome = (db.chans.find mc').isSome
  acl : db'.acl = db.acl ∨ ∃ db₁ newflags, db₁.acl = db.acl ∧
    db'.acl = updateMatching cfg w db₁ si mc oldflags newflags ∧
    (Has newflags 13 ↔ Has oldflags 13) ∧
    (¬ Has restrict 13 → Sub oldflags restrict ∧ Sub newflags restrict)

section bulk
variable {cfg : ChanConfig} {w : World} {db db' : ChanDb} {si : Source} {mc : MyChanRef}
  {restrict oldflags : Flags}

theorem BulkStep.refl : BulkStep cfg w db si mc restrict oldflags db :=
  ⟨fun _ => rfl, .inl rfl⟩

theorem find_putChan (chan : MyChan) (mc' : MyChanRef) :
    ((putChan mc chan db).chans.find mc').isSome = (db.chans.find mc').isSome := by
  rw [putChan, Registry.find_set]
  split_ifs <;> simp

theorem BulkStep.differs (h : BulkStep cfg w db si mc restrict oldflags db')
    {k : MyChanRef × Target} {i : Nat} (hd : Differs (levelAt db.acl) (levelAt db'.acl) k i) :
    k.1 = mc ∧ i ≠ 13 ∧ (¬ Has restrict 13 → Has restrict i) := by
  obtain hsame | ⟨db₁, newflags, hacl, hnew, h13, hsub⟩ := h.acl
  · rw [hsame] at hd
    exact absurd hd (differs_self _ k i)
  · rw [hnew, ← hacl] at hd
    obtain ⟨hmc, hiff⟩ := updateMatching_differs hd
    refine ⟨hmc, fun hi => hiff (hi ▸ h13), fun hr => ?_⟩
    obtain ⟨hold, hnew⟩ := hsub hr
    by_contra hnot
    exact hiff ⟨fun h => absurd (hnew.has h) hnot, fun h => absurd (hold.has h) hnot⟩

theorem BulkStep.unchanged (h : BulkStep cfg w db si mc restrict 0#32 db')
    (hlist : ∀ e ∈ chanacsOf db.acl mc, e.2.level ≠ 0#32) : db'.acl = db.acl := by
  obtain hsame | ⟨db₁, newflags, hacl, hnew, -, -⟩ := h.acl
  · exact hsame
  · rw [hnew, updateMatching_eq_self (by rwa [hacl]), hacl]

end bulk

/-! ### The commands -/

theorem sub_of_not_test {a restrict : Flags} (h : ¬ test a (~~~restrict) = true) :
    Sub a restrict := by
  rw [Bool.not_eq_true, test_comm] at h
  exact (test_not_eq_false_iff _ _).mp h

theorem or_sub_iff {a b m : Flags} : Sub (a ||| b) m ↔ Sub a m ∧ Sub b m := by
  simp only [sub_iff, has_or, or_imp, forall_and]

theorem test_xor_caFounder {a b : Flags} (h : ¬ test (a ^^^ b) caFounder = true) :
    Has b 13 ↔ Has a 13 := by
  rw [test_caFounder, has_xor, not_not] at h
  exact h.symm

def channelRestrict (cfg : ChanConfig) (w : World) (db : ChanDb) (si : Source) (mc : MyChanRef)
    (chan : MyChan) : Flags :=
  templateRestrict cfg chan (chanacsSourceFlags cfg w db mc si)

section role
variable {cfg : ChanConfig} {w : World} {db db' : ChanDb} {si : Source} {channel : CString}
  {parv : List CString} {replies : List Reply} {mc : MyChanRef} {chan : MyChan}

theorem updateRoleEntry_bulk {req : RoleRequest} {flags restrict : Flags} {said : Reply}
    (hsub : (Has flags 13 ↔ Has (getTemplateFlags cfg (some req.chan) req.role) 13) →
      ¬ Has restrict 13 →
        Sub (getTemplateFlags cfg (some req.chan) req.role) restrict ∧ Sub flags restrict)
    (h : updateRoleEntry cfg w db si req flags said = .done db' replies) :
    BulkStep cfg w db si req.mc restrict (getTemplateFlags cfg (some req.chan) req.role) db' := by
  unfold updateRoleEntry at h
  dsimp only at h
  split at h
  · cases h
    exact .refl
  split at h
  · cases h
    exact .refl
  split at h
  · cases h
    exact ⟨find_putChan _, .inl rfl⟩
  rename_i hkeep
  split at h
  · cases h
  · cases h
    have h13 := test_xor_caFounder fun ht => hkeep (.inr ht)
    exact ⟨find_putChan _, .inr ⟨_, flags, rfl, rfl, h13, hsub h13⟩⟩

theorem roleSetFlags_bulk {req : RoleRequest} {newflags restrict : Flags}
    (hold : ¬ Has restrict 13 → Sub (getTemplateFlags cfg (some req.chan) req.role) restrict)
    (hnew : Sub newflags restrict)
    (h : roleSetFlags cfg w db si req (getTemplateFlags cfg (some req.chan) req.role) newflags =
      .done db' replies) :
    BulkStep cfg w db si req.mc restrict (getTemplateFlags cfg (some req.chan) req.role) db' := by
  have hflags : ¬ Has restrict 13 →
      (if test newflags caFounder then newflags ||| caFlags else newflags) = newflags :=
    fun hr => if_neg fun ht => hr (hnew.has ((test_caFounder _).mp ht))
  unfold roleSetFlags at h
  generalize (if test newflags caFounder then newflags ||| caFlags else newflags) = flags at h hflags
  dsimp only at h
  split at h
  · cases h
    exact .refl
  split at h
  · cases h
    exact .refl
  · exact updateRoleEntry_bulk (fun _ hr => ⟨hold hr, (hflags hr).symm ▸ hnew⟩) h

theorem rolePlan_ok {cmd syntaxLine : String} {req : RoleRequest}
    (h : rolePlan cfg w db si cmd syntaxLine channel parv = .ok req) :
    mychanFind cfg db channel = some (req.mc, req.chan) ∧
      req.restrictflags = channelRestrict cfg w db si req.mc req.chan := by
  unfold rolePlan at h
  cases hc : mychanFind cfg db channel with
  | none => rw [hc] at h; cases h
  | some found =>
    rw [hc] at h
    cases parv with
    | nil => cases h
    | cons role changes =>
      dsimp only at h
      split_ifs at h
      cases h
      exact ⟨rfl, rfl⟩

def OnChannel (cfg : ChanConfig) (db : ChanDb) (channel : CString) (db' : ChanDb)
    (P : MyChanRef → MyChan → Prop) : Prop :=
  db' = db ∨ ∃ mc chan, mychanFind cfg db channel = some (mc, chan) ∧ P mc chan

theorem csCmdRoleAdd_bulk (h : csCmdRoleAdd cfg w db si channel parv = .done db' replies) :
    OnChannel cfg db channel db' fun mc chan =>
      BulkStep cfg w db si mc (channelRestrict cfg w db si mc chan) 0#32 db' := by
  unfold csCmdRoleAdd at h
  split at h
  · cases h
    exact .inl rfl
  · rename_i req hplan
    obtain ⟨hchan, hrestrict⟩ := rolePlan_ok hplan
    dsimp only at h
    split_ifs at h with hold hdenied
    · cases h
      exact .inl rfl
    · cases h
      exact .inl rfl
    · rw [not_not] at hold
      have hstep : BulkStep cfg w db si req.mc req.restrictflags
          (getTemplateFlags cfg (some req.chan) req.role) db' :=
        roleSetFlags_bulk (fun _ => hold ▸ zero_sub _) (sub_of_not_test hdenied) h
      rw [hold, hrestrict] at hstep
      exact .inr ⟨req.mc, req.chan, hchan, hstep⟩

theorem csCmdRoleSet_bulk (h : csCmdRoleSet cfg w db si channel parv = .done db' replies) :
    OnChannel cfg db channel db' fun mc chan =>
      ∃ oldflags, BulkStep cfg w db si mc (channelRestrict cfg w db si mc chan) oldflags db' := by
  unfold csCmdRoleSet at h
  split at h
  · cases h
    exact .inl rfl
  · rename_i req hplan
    obtain ⟨hchan, hrestrict⟩ := rolePlan_ok hplan
    dsimp only at h
    split_ifs at h with hold hdenied hfounder
    · cases h
      exact .inl rfl
    · cases h
      exact .inl rfl
    · cases h
      exact .inl rfl
    · obtain ⟨hsubOld, hsubNew⟩ := or_sub_iff.mp (sub_of_not_test hdenied)
      have hstep : BulkStep cfg w db si req.mc req.restrictflags
          (getTemplateFlags cfg (some req.chan) req.role) db' :=
        roleSetFlags_bulk (fun _ => hsubOld) hsubNew h
      exact .inr ⟨req.mc, req.chan, hchan, _, hrestrict ▸ hstep⟩

theorem csCmdRoleDel_bulk (h : csCmdRoleDel cfg w db si channel parv = .done db' replies) :
    OnChannel cfg db channel db' fun mc chan =>
      ∃ oldflags, BulkStep cfg w db si mc (channelRestrict cfg w db si mc chan) oldflags db' := by
  unfold csCmdRoleDel at h
  split at h
  · cases h
    exact .inl rfl
  · rename_i req hplan
    obtain ⟨hchan, hrestrict⟩ := rolePlan_ok hplan
    dsimp only at h
    split_ifs at h with hold hdenied
    · cases h
      exact .inl rfl
    · cases h
      exact .inl rfl
    · have hstep : BulkStep cfg w db si req.mc req.restrictflags
          (getTemplateFlags cfg (some req.chan) req.role) db' :=
        updateRoleEntry_bulk (fun _ _ => ⟨sub_of_not_test hdenied, zero_sub _⟩) h
      exact .inr ⟨req.mc, req.chan, hchan, _, hrestrict ▸ hstep⟩

end role

section template
variable {cfg : ChanConfig} {w : World} {db db' : ChanDb} {si : Source} {channel : CString}
  {parv : List CString} {replies : List Reply}

theorem templateDenied_permits {restrict oldflags : Flags} {c : Change}
    (h : templateDenied restrict oldflags ⟨added oldflags c.add, removed oldflags c.add c.rem⟩ =
      false) : Permits restrict oldflags c.add c.rem := by
  simp only [templateDenied, Bool.or_eq_false_iff, test_not_eq_false_iff] at h
  exact ⟨h.1.1, h.1.2, h.2⟩

theorem added_eq_zero_of_result {level add rem : Flags} (h : result level add rem = 0#32) :
    added level add = 0#32 := by
  rw [eq_zero_iff] at h ⊢
  intro i hi
  obtain ⟨ha, hl⟩ := (has_added level add i).mp hi
  exact h i ((has_result level add rem i).mpr (.inr ⟨hl, ha⟩))

structure EditPermitted (restrict : Flags) (e : TemplateEdit) : Prop where
  oldflags : Sub e.oldflags restrict
  newflags : Sub e.newflags restrict
  founder : ¬ Has (e.change.add ||| e.change.rem) 13 → (Has e.newflags 13 ↔ Has e.oldflags 13)

theorem editPermitted_of_permits {restrict oldflags : Flags} {c : Change} {denied redefining : Bool}
    {newstr : CString} (h : Permits restrict oldflags c.add c.rem) :
    EditPermitted restrict ⟨oldflags, result oldflags c.add c.rem,
      ⟨added oldflags c.add, removed oldflags c.add c.rem⟩, denied, newstr, redefining⟩ := by
  refine ⟨h.2.2, h.result_sub, fun h13 => not_not.mp fun hiff => h13 ?_⟩
  exact (has_or _ _ 13).mpr ((result_differs _ _ _ 13).mp hiff)

theorem templateEdit_permitted {chan : MyChan} {target : CString} {c : Change} {restrict : Flags}
    (hne : (templateEdit cfg chan target c restrict).change.add |||
      (templateEdit cfg chan target c restrict).change.rem ≠ 0#32)
    (hdenied : (templateEdit cfg chan target c restrict).denied = false) :
    EditPermitted restrict (templateEdit cfg chan target c restrict) := by
  unfold templateEdit at hne hdenied ⊢
  dsimp only at hne hdenied ⊢
  cases hitem : (templateItems (chan.templates.getD [])).find? fun i => strcaseEq target i.name with
  | some item =>
    simp only [hitem] at hne hdenied ⊢
    by_cases h0 : added (item.flags cfg.flagConfig) c.add |||
        removed (item.flags cfg.flagConfig) c.add c.rem = 0#32
    · rw [if_pos h0] at hne
      exact absurd h0 hne
    by_cases h1 : templateDenied restrict (item.flags cfg.flagConfig)
        ⟨added (item.flags cfg.flagConfig) c.add,
          removed (item.flags cfg.flagConfig) c.add c.rem⟩ = true
    · rw [if_neg h0, if_pos h1] at hdenied
      cases hdenied
    · rw [if_neg h0, if_neg h1]
      exact editPermitted_of_permits (templateDenied_permits (Bool.not_eq_true _ ▸ h1))
  | none =>
    simp only [hitem] at hne hdenied ⊢
    generalize (if (!cfg.hideXop && isXop target) = true then getTemplateFlags cfg none target
      else 0#32) = oldflags at hne hdenied ⊢
    by_cases h0 : (oldflags ||| added oldflags c.add) &&& ~~~removed oldflags c.add c.rem = 0#32
    · have hadd : added oldflags c.add = 0#32 := added_eq_zero_of_result h0
      rw [if_pos h0, hadd] at hne
      exact absurd rfl hne
    · simp only [if_neg h0] at hne hdenied ⊢
      rw [decide_eq_true hne, Bool.true_and] at hdenied
      exact editPermitted_of_permits (templateDenied_permits hdenied)

theorem templateRefusal_none {req : TemplateRequest} {e : TemplateEdit}
    (h : templateRefusal cfg req e = none) :
    e.change.add ||| e.change.rem ≠ 0#32 ∧ e.denied = false := by
  unfold templateRefusal at h
  split_ifs at h with h1 h2 h3 h4
  exact ⟨h2, Bool.not_eq_true _ ▸ h4⟩

theorem templateApply_bulk {req : TemplateRequest}
    (h : templateApply cfg w db si req = .done db' replies) :
    BulkStep cfg w db si req.mc req.restrictflags
      (templateEdit cfg req.chan req.target req.change req.restrictflags).oldflags db' := by
  unfold templateApply at h
  dsimp only at h
  split at h
  · cases h
    exact .refl
  rename_i hrefusal
  obtain ⟨hne, hdenied⟩ := templateRefusal_none hrefusal
  have hperm := templateEdit_permitted hne hdenied
  split at h
  · cases h
  split at h
  · cases h
    exact ⟨find_putChan _, .inl rfl⟩
  split at h
  · cases h
    exact ⟨find_putChan _, .inl rfl⟩
  rename_i hfounder
  split at h
  · cases h
  · cases h
    refine ⟨find_putChan _, .inr ⟨_, _, rfl, rfl, hperm.founder ?_, fun _ => ?_⟩⟩
    · rwa [← test_caFounder]
    · exact ⟨hperm.oldflags, hperm.newflags⟩

theorem templatePlan_ok {req : TemplateRequest}
    (h : templatePlan cfg w db si (channel :: parv) = .ok req) :
    mychanFind cfg db channel = some (req.mc, req.chan) ∧
      req.restrictflags = channelRestrict cfg w db si req.mc req.chan := by
  simp only [templatePlan] at h
  cases hc : mychanFind cfg db channel with
  | none => rw [hc] at h; cases h
  | some found =>
    simp only [hc] at h
    match parv, h with
    | [], h => cases h
    | [target], h =>
      dsimp only at h
      split_ifs at h
    | target :: flagstr :: rest, h =>
      dsimp only at h
      split_ifs at h
      split at h
      · cases h
      · cases h
        exact ⟨rfl, rfl⟩

def templateOldflags (cfg : ChanConfig) (w : World) (db : ChanDb) (si : Source)
    (parv : List CString) : Flags :=
  match templatePlan cfg w db si parv with
  | .error _ => 0#32
  | .ok req => (templateEdit cfg req.chan req.target req.change req.restrictflags).oldflags

theorem csCmdTemplate_bulk (h : csCmdTemplate cfg w db si (channel :: parv) = .done db' replies) :
    OnChannel cfg db channel db' fun mc chan =>
      BulkStep cfg w db si mc (channelRestrict cfg w db si mc chan)
        (templateOldflags cfg w db si (channel :: parv)) db' := by
  unfold csCmdTemplate at h
  split at h
  · cases h
    exact .inl rfl
  · rename_i req hplan
    obtain ⟨hchan, hrestrict⟩ := templatePlan_ok hplan
    have hold : templateOldflags cfg w db si (channel :: parv) =
        (templateEdit cfg req.chan req.target req.change req.restrictflags).oldflags := by
      rw [templateOldflags, hplan]
    have hstep := templateApply_bulk h
    rw [← hold, hrestrict] at hstep
    exact .inr ⟨req.mc, req.chan, hchan, hstep⟩

end template

end ChatServices.ChanServ
