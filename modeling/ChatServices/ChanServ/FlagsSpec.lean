import ChatServices.ChanServ.Rights

/-! What FLAGS can do, said once: which restriction mask a source gets, which entry its
target opens, and the one update of the rights that the command makes, or none. -/
namespace ChatServices.ChanServ
open ChatServices.Lib ChatServices.Lib.Mask ChatServices.Lib.MaskUpdate ChatServices.Lib.Rights

/-- The change as FLAGS hands it to `chanacs_modify`. -/
def flagsAsked (c : Change) : Target → Change
  | .host _ => c
  | .entity _ => founderGetsFlags c

/-- The bound FLAGS hands to `chanacs_modify` for an entry with this level. -/
def flagsMask (req : FlagsRequest) (level : Flags) : Target → Flags
  | .host _ => req.restrictflags
  | .entity _ => req.entityRestrict level (founderGetsFlags req.change)

def flagsBlocked (cfg : ChanConfig) (w : World) (db : ChanDb) (si : Source) (req : FlagsRequest)
    (t : Target) : Bool :=
  let level := levelAt db.acl (openKey db.acl req.mc t)
  (match t with
    | .host _ => (flagsHostRefusal cfg w si req).isSome
    | .entity mt => neveropRefuses db mt level (founderGetsFlags req.change).add) ||
  (level = 0#32 && chanacsIsTableFull cfg (bodyDb w db si req.mc t).acl req.mc)

def flagsTold (cfg : ChanConfig) (db : ChanDb) (si : Source) : Target → Bool
  | .host _ => true
  | .entity mt => !(mt.isuser && notifyCrashes cfg db si mt)

structure FlagsStep (cfg : ChanConfig) (w : World) (db : ChanDb) (si : Source)
    (req : FlagsRequest) (t : Target) (c : Change) (restrict : Flags) : Prop where
  asked : c = flagsAsked req.change t
  mask : restrict = flagsMask req (levelAt db.acl (openKey db.acl req.mc t)) t
  notBlocked : flagsBlocked cfg w db si req t = false
  lastFounder : ∀ mt, t = .entity mt → Has (levelAt db.acl (req.mc, .entity mt)) 13 →
    Has req.change.rem 13 → mychanNumFounders db.acl req.mc ≠ 1
  newFounder : ¬ Has (levelAt db.acl (openKey db.acl req.mc t)) 13 → Has req.change.add 13 →
    ∃ mt, t = .entity mt ∧
      founderRefusal cfg w (bodyDb w db si req.mc t) req.mc (some mt) = none

theorem has_founderGetsFlags_add (c : Change) (i : Nat) (hi : i ≠ 9) :
    Has (founderGetsFlags c).add i ↔ Has c.add i := by
  rw [founderGetsFlags]
  split_ifs <;> simp [hi]

theorem has_founderGetsFlags_rem {c : Change} {i : Nat} (h : Has (founderGetsFlags c).rem i) :
    Has c.rem i := by
  rw [founderGetsFlags] at h
  split_ifs at h
  · exact ((has_and _ _ i).mp h).1
  · exact h

theorem flagsChange_sub {cfg : ChanConfig} {chan : MyChan} {target flagstr : CString} {c : Change}
    (h : flagsChange cfg chan target flagstr = .ok c) : Sub c.add cfg.caAll := by
  unfold flagsChange at h
  dsimp only at h
  split_ifs at h
  · cases h
    exact (flagsMakeBitmasks_sub cfg.flagConfig flagstr).1
  · cases h
    exact getTemplateFlags_sub cfg (some chan) flagstr

theorem flagsAsked_sub {cfg : ChanConfig} {c : Change} (h : Sub c.add cfg.caAll) (t : Target) :
    Sub (flagsAsked c t).add cfg.caAll := by
  cases t with
  | host mask => exact h
  | entity mt =>
    refine (sub_iff _ _).mpr fun i hi => ?_
    by_cases h9 : i = 9
    · subst h9
      exact (caAll_basic cfg.flagConfig).1.has (by decide)
    · exact h.has ((has_founderGetsFlags_add c i h9).mp hi)

theorem founderGetsFlags_eq {c : Change} (h : ¬ Has c.add 13) : founderGetsFlags c = c := by
  rw [founderGetsFlags, if_neg]
  rwa [test_caFounder]

section bodies
variable {cfg : ChanConfig} {w : World} {db : ChanDb} {si : Source} {req : FlagsRequest}

theorem flagsHostBody_end (mask : CString) (hh : flagsHostRefusal cfg w si req = none) :
    BodyEnd w (bodyDb w db si req.mc (.host mask)) si (bodyEntry w db si req.mc (.host mask))
      (FlagsStep cfg w db si req (.host mask))
      (flagsHostBody cfg w si req (bodyDb w db si req.mc (.host mask))
        (bodyEntry w db si req.mc (.host mask))) := by
  have hfounder : ¬ Has req.change.add 13 := by
    rw [← test_caFounder]
    rw [flagsHostRefusal] at hh
    split_ifs at hh with h1 h2
    exact h2
  unfold flagsHostBody
  split
  · exact .stay _
  · rename_i hfull
    dsimp only
    split
    · rename_i hok
      refine .change req.change req.restrictflags ⟨rfl, rfl, ?_, ?_, ?_⟩ hok
      · rw [flagsBlocked, hh]
        rw [bodyEntry_level] at hfull
        simpa using hfull
      · intro mt h
        cases h
      · exact fun _ h => absurd h hfounder
    · exact .stay _

theorem flagsEntityBody_end (mt : Entity) :
    BodyEnd w (bodyDb w db si req.mc (.entity mt)) si (bodyEntry w db si req.mc (.entity mt))
      (FlagsStep cfg w db si req (.entity mt))
      (flagsEntityBody cfg w si req mt (bodyDb w db si req.mc (.entity mt))
        (bodyEntry w db si req.mc (.entity mt))) := by
  have hlevel : (bodyEntry w db si req.mc (.entity mt)).level =
      levelAt db.acl (req.mc, .entity mt) := bodyEntry_level
  have hnum : mychanNumFounders (bodyDb w db si req.mc (.entity mt)).acl req.mc =
      mychanNumFounders db.acl req.mc := mychanNumFounders_open rfl req.mc
  unfold flagsEntityBody
  dsimp only
  split
  · exact .leave _
  · split
    · exact .leave _
    · rename_i hlast
      split
      · exact .stay _
      · rename_i hnew
        split
        · exact .stay _
        · rename_i hneverop
          split
          · exact .stay _
          · rename_i hfull
            split
            · rename_i hok
              rw [hlevel, hnum] at hlast
              rw [hlevel] at hnew hneverop hfull
              rw [Bool.not_eq_true] at hlast hneverop hfull
              refine .change _ _ ⟨rfl, congrArg (req.entityRestrict · _) hlevel, ?_, ?_, ?_⟩ hok
              · exact Bool.or_eq_false_iff.mpr ⟨hneverop, hfull⟩
              · intro mt' ht h13 hrem hone
                cases ht
                rw [(test_caFounder _).mpr h13, (test_caFounder _).mpr hrem, hone] at hlast
                exact Bool.noConfusion hlast
              · intro h13 hadd
                have h1 : test (levelAt db.acl (req.mc, .entity mt)) caFounder = false :=
                  (test_caFounder_eq_false _).mpr h13
                rw [h1, (test_caFounder _).mpr hadd] at hnew
                exact ⟨mt, rfl, hnew⟩
            · exact .stay _

theorem flagsApply_rights {db' : ChanDb} {replies : List Reply}
    (h : flagsApply cfg w db si req = .done db' replies) :
    db' = { db with acl := db'.acl } ∧
      (levelAt db'.acl = levelAt db.acl ∨
        ∃ t c restrict, commandTarget cfg w db req.target = some t ∧
          FlagsStep cfg w db si req t c restrict ∧
          (flagsTold cfg db si t = true ∨
            result (levelAt db.acl (openKey db.acl req.mc t)) c.add c.rem =
              levelAt db.acl (openKey db.acl req.mc t)) ∧
          Update (levelAt db.acl) (levelAt db'.acl) (openKey db.acl req.mc t) c.add c.rem
            restrict) := by
  unfold flagsApply at h
  by_cases hv : validhostmask req.target = true
  · rw [if_pos hv] at h
    cases hh : flagsHostRefusal cfg w si req with
    | some reply =>
      rw [hh] at h
      cases h
      exact ⟨rfl, .inl rfl⟩
    | none =>
      rw [hh] at h
      obtain ⟨hdb, hstep⟩ := editEntry_rights (flagsHostBody_end req.target hh) h
      refine ⟨hdb, hstep.imp id ?_⟩
      rintro ⟨c, restrict, ⟨hP, -⟩, hu⟩
      exact ⟨_, c, restrict, by rw [commandTarget, if_pos hv], hP, .inl rfl, hu⟩
  · rw [if_neg hv] at h
    cases hm : myentityFindExt cfg w db req.target with
    | none =>
      rw [hm] at h
      cases h
      exact ⟨rfl, .inl rfl⟩
    | some mt =>
      rw [hm] at h
      obtain ⟨hdb, hstep⟩ := editEntry_rights (flagsEntityBody_end mt) h
      refine ⟨hdb, hstep.imp id ?_⟩
      rintro ⟨c, restrict, ⟨hP, hfin⟩, hu⟩
      refine ⟨.entity mt, c, restrict, by rw [commandTarget, if_neg hv, hm]; rfl, hP, ?_, hu⟩
      by_cases hres : result (levelAt db.acl (openKey db.acl req.mc (.entity mt))) c.add c.rem =
          levelAt db.acl (openKey db.acl req.mc (.entity mt))
      · exact .inr hres
      · refine .inl ?_
        have hne : (bodyModify w db si req.mc (.entity mt) c restrict).change.add |||
            (bodyModify w db si req.mc (.entity mt) c restrict).change.rem ≠ 0#32 := by
          intro h0
          have hsame := chanacsModify_unchanged_iff.mp h0
          rw [bodyEntry_level] at hsame
          exact hres hsame
        by_contra htold
        simp only [flagsTold, Bool.not_eq_true, Bool.not_eq_false', Bool.and_eq_true] at htold
        rw [htold.1, htold.2, decide_eq_true hne] at hfin
        cases hfin

/-- Where neither the bound nor the entry has `CA_FOUNDER`, no check on founders is in the
way of a permitted change. -/
theorem flagsEntityBody_permitted {mt : Entity}
    (hF : ¬ Has (flagsMask req (levelAt db.acl (req.mc, .entity mt)) (.entity mt)) 13)
    (hb : flagsBlocked cfg w db si req (.entity mt) = false)
    (hperm : Permits (flagsMask req (levelAt db.acl (req.mc, .entity mt)) (.entity mt))
      (levelAt db.acl (req.mc, .entity mt)) req.change.add req.change.rem) :
    flagsEntityBody cfg w si req mt (bodyDb w db si req.mc (.entity mt))
        (bodyEntry w db si req.mc (.entity mt)) =
      .close (bodyModify w db si req.mc (.entity mt) req.change
          (flagsMask req (levelAt db.acl (req.mc, .entity mt)) (.entity mt))).ca
        (.changed (bodyEntry w db si req.mc (.entity mt)).level
          (bodyModify w db si req.mc (.entity mt) req.change
            (flagsMask req (levelAt db.acl (req.mc, .entity mt)) (.entity mt)))) := by
  have hlevel : (bodyEntry w db si req.mc (.entity mt)).level =
      levelAt db.acl (req.mc, .entity mt) := bodyEntry_level
  have hl13 : ¬ Has (levelAt db.acl (req.mc, .entity mt)) 13 := fun h => hF (hperm.2.2.has h)
  have ha13 : ¬ Has req.change.add 13 := fun h =>
    hF (hperm.1.has ((has_added _ _ 13).mpr ⟨h, hl13⟩))
  have hl : test (levelAt db.acl (req.mc, .entity mt)) caFounder = false :=
    (test_caFounder_eq_false _).mpr hl13
  have ha : test req.change.add caFounder = false := (test_caFounder_eq_false _).mpr ha13
  have hc : founderGetsFlags req.change = req.change := founderGetsFlags_eq ha13
  have hok : (bodyModify w db si req.mc (.entity mt) req.change
      (flagsMask req (levelAt db.acl (req.mc, .entity mt)) (.entity mt))).ok = true :=
    bodyModify_ok hperm
  obtain ⟨hneverop, hfull⟩ := Bool.or_eq_false_iff.mp hb
  simp only [hc] at hneverop
  unfold flagsEntityBody
  simp only [flagsMask, hc] at hok
  simp only [hlevel, hl, ha, hc, Bool.false_and, Bool.and_false, Bool.false_eq_true, if_false,
    flagsMask]
  rw [if_neg (by rw [Bool.not_eq_true]; exact hneverop), if_neg (by rw [Bool.not_eq_true]; exact hfull)]
  exact if_pos hok

theorem flagsApply_goes {t : Target} (ht : commandTarget cfg w db req.target = some t)
    (hF : ¬ Has (flagsMask req (levelAt db.acl (openKey db.acl req.mc t)) t) 13)
    (hb : flagsBlocked cfg w db si req t = false) (htold : flagsTold cfg db si t = true)
    (hperm : Permits (flagsMask req (levelAt db.acl (openKey db.acl req.mc t)) t)
      (levelAt db.acl (openKey db.acl req.mc t)) req.change.add req.change.rem) :
    ∃ db' replies, flagsApply cfg w db si req = .done db' replies ∧
      Update (levelAt db.acl) (levelAt db'.acl) (openKey db.acl req.mc t) req.change.add
        req.change.rem (flagsMask req (levelAt db.acl (openKey db.acl req.mc t)) t) := by
  unfold flagsApply
  by_cases hv : validhostmask req.target = true
  · rw [commandTarget, if_pos hv] at ht
    cases ht
    obtain ⟨hrefusal, hfull⟩ := Bool.or_eq_false_iff.mp hb
    rw [Option.isSome_eq_false_iff, Option.isNone_iff_eq_none] at hrefusal
    rw [if_pos hv, hrefusal]
    have hok : (bodyModify w db si req.mc (.host req.target) req.change req.restrictflags).ok =
        true := bodyModify_ok hperm
    have hbody : flagsHostBody cfg w si req (bodyDb w db si req.mc (.host req.target))
        (bodyEntry w db si req.mc (.host req.target)) =
        .close (bodyModify w db si req.mc (.host req.target) req.change req.restrictflags).ca
          (.changed (bodyEntry w db si req.mc (.host req.target)).level
            (bodyModify w db si req.mc (.host req.target) req.change req.restrictflags)) := by
      unfold flagsHostBody
      rw [if_neg (by rw [bodyEntry_level, Bool.not_eq_true]; exact hfull)]
      exact if_pos hok
    obtain ⟨db', h, hu⟩ := editEntry_update
      (fun oldlevel m => some [flagsReply cfg req req.target oldlevel m]) hbody hperm rfl
    exact ⟨db', _, h, hu⟩
  · rw [commandTarget, if_neg hv, Option.map_eq_some_iff] at ht
    obtain ⟨mt, hm, rfl⟩ := ht
    rw [if_neg hv, hm]
    have hbody := flagsEntityBody_permitted hF hb hperm
    have hcalm : ∀ b : Bool, ¬ (mt.isuser && b && notifyCrashes cfg db si mt) = true := by
      intro b hb
      simp only [Bool.and_eq_true] at hb
      simp [flagsTold, hb.1.1, hb.2] at htold
    obtain ⟨db', h, hu⟩ := editEntry_update
      (fun oldlevel m => if mt.isuser && m.change.add ||| m.change.rem ≠ 0#32 &&
          notifyCrashes cfg db si mt then none
        else some [flagsReply cfg req (mt.name db) oldlevel m]) hbody hperm (if_neg (hcalm _))
    exact ⟨db', _, h, hu⟩

/-! ### From the request to the change -/

/-- FLAGS makes the change it is asked for: the target is resolved, no check is in the
way, and the restriction mask permits the change. -/
structure FlagsGoes (cfg : ChanConfig) (w : World) (db : ChanDb) (si : Source)
    (req : FlagsRequest) (t : Target) : Prop where
  target : commandTarget cfg w db req.target = some t
  notBlocked : flagsBlocked cfg w db si req t = false
  told : flagsTold cfg db si t = true
  permits : Permits (flagsMask req (levelAt db.acl (openKey db.acl req.mc t)) t)
    (levelAt db.acl (openKey db.acl req.mc t)) req.change.add req.change.rem

def flagsTouched (db : ChanDb) (req : FlagsRequest) (t : Target) : Flags :=
  touched (levelAt db.acl (openKey db.acl req.mc t)) req.change.add req.change.rem

/-- A request whose restriction masks lack `CA_FOUNDER` stays within a bound exactly if
the bound has every bit of every change that goes through. -/
theorem flagsApply_confined_iff {bound : MyChanRef × Target → Nat → Prop}
    (hF : ∀ level t, ¬ Has (flagsMask req level t) 13) :
    (∀ db' replies, flagsApply cfg w db si req = .done db' replies →
        Confined bound (levelAt db.acl) (levelAt db'.acl)) ↔
      ∀ t, FlagsGoes cfg w db si req t →
        ∀ i, Has (flagsTouched db req t) i → bound (openKey db.acl req.mc t) i := by
  constructor
  · intro h t hg
    obtain ⟨db', replies, hdone, hu⟩ :=
      flagsApply_goes hg.target (hF _ t) hg.notBlocked hg.told hg.permits
    exact hu.confined_iff.mp (h db' replies hdone)
  · intro h db' replies hdone
    rcases (flagsApply_rights hdone).2 with hsame | ⟨t, c, restrict, ht, hstep, htold, hu⟩
    · rw [hsame]
      exact fun k i hd => absurd hd (differs_self _ k i)
    · have hmask : restrict = flagsMask req (levelAt db.acl (openKey db.acl req.mc t)) t := hstep.mask
      have hadd : ¬ Has c.add 13 := by
        intro ha
        have hnot : ¬ Has restrict 13 := hmask ▸ hF _ t
        have hl : ¬ Has (levelAt db.acl (openKey db.acl req.mc t)) 13 :=
          fun hl => hnot (hu.permits.2.2.has hl)
        exact hnot (hu.permits.1.has ((has_added _ _ 13).mpr ⟨ha, hl⟩))
      have hc : c = req.change := by
        rw [hstep.asked] at hadd ⊢
        cases t with
        | host mask => rfl
        | entity mt =>
          exact founderGetsFlags_eq fun ha =>
            hadd ((has_founderGetsFlags_add _ 13 (by omega)).mpr ha)
      subst hc
      rw [hu.confined_iff]
      intro i hi
      refine h t ⟨ht, hstep.notBlocked, htold.resolve_right fun hsame => ?_, hmask ▸ hu.permits⟩ i hi
      exact (result_differs _ _ _ i).mpr ((has_touched _ _ _ i).mp hi) (by rw [hsame])

end bodies

structure FlagsPlanned (cfg : ChanConfig) (w : World) (db : ChanDb) (si : Source)
    (parv : List CString) (req : FlagsRequest) : Prop where
  parv : parv.take 3 = [req.channel, req.target, req.flagstr]
  chan : mychanFind cfg db req.channel = some (req.mc, req.chan)
  smu : (si.smu db).isSome = true
  restrict : flagsRestrict cfg req.chan (chanacsSourceFlags cfg w db req.mc si)
    (checkSelfMatch cfg db req.target (si.smu db)) req.flagstr =
      some (req.restrictflags, req.selfautomode)
  change : flagsChange cfg req.chan req.target req.flagstr = .ok req.change

theorem flagsPlan_ok {cfg : ChanConfig} {w : World} {db : ChanDb} {si : Source}
    {parv : List CString} {req : FlagsRequest} (h : flagsPlan cfg w db si parv = .ok req) :
    FlagsPlanned cfg w db si parv req := by
  match parv, h with
  | [], h => cases h
  | channel :: params, h =>
    cases hc : mychanFind cfg db channel with
    | none => simp only [flagsPlan, hc] at h; cases h
    | some found =>
      obtain ⟨mc, chan⟩ := found
      match params, h with
      | [], h =>
        simp only [flagsPlan, hc] at h
        split_ifs at h
      | [target], h =>
        simp only [flagsPlan, hc] at h
        split_ifs at h
      | target :: flagstr :: rest, h =>
        simp only [flagsPlan, hc] at h
        split_ifs at h with hclosed hsmu
        cases hr : flagsRestrict cfg chan (chanacsSourceFlags cfg w db mc si)
            (checkSelfMatch cfg db target (si.smu db)) flagstr with
        | none => simp only [hr] at h; cases h
        | some r =>
          cases hchange : flagsChange cfg chan target flagstr with
          | error reply => simp only [hr, hchange] at h; cases h
          | ok c =>
            simp only [hr, hchange] at h
            cases h
            refine ⟨rfl, hc, ?_, hr, hchange⟩
            rwa [Option.isNone_iff_eq_none, ← ne_eq, Option.ne_none_iff_isSome] at hsmu

theorem FlagsPlanned.named {cfg : ChanConfig} {w : World} {db : ChanDb} {si : Source}
    {channel : CString} {params : List CString} {mc : MyChanRef} {chan : MyChan} {req : FlagsRequest}
    (h : FlagsPlanned cfg w db si (channel :: params) req)
    (hchan : mychanFind cfg db channel = some (mc, chan)) : req.mc = mc ∧ req.chan = chan := by
  have hfound := h.chan
  have hparv := h.parv
  rw [List.take_succ_cons] at hparv
  rw [← (List.cons.inj hparv).1, hchan] at hfound
  cases hfound
  exact ⟨rfl, rfl⟩

end ChatServices.ChanServ
