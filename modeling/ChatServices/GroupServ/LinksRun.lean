import ChatServices.GroupServ.FlagParsers
import ChatServices.GroupServ.Links

/-! The links of access entries over whole runs. They break where a template is emptied together with
its entries, and where a group is dropped that other groups have as a member; and FLAGS reads an
entry that it has just freed. -/
namespace ChatServices.GroupServ
open ChatServices.Lib ChatServices.Lib.Mask ChatServices.Lib.MaskUpdate ChatServices.Text

/-! ### The flags of templates -/

section templates
variable {c : Change} {group : Group} {flagstr target : CString} {restrictflags : Flags}

theorem gaLetter_sub {x : Char} {flag : Flags} (h : gaLetter x = some flag) :
    Sub flag (gaAllAll ||| gaFounder) := by
  obtain ⟨e, he, rfl⟩ := Option.map_eq_some_iff.mp h
  have hall : gaTable.all (fun e => e.2 &&& ~~~(gaAllAll ||| gaFounder) = 0#32) = true := by decide
  exact of_decide_eq_true (List.all_eq_true.mp hall e (List.mem_of_find?_eq_some he))

theorem parserStep_sub {allowMinus : Bool} {st : Bool × Flags} {x : Char}
    (h : Sub st.2 (gaAllAll ||| gaFounder)) :
    Sub (parserStep allowMinus st x).2 (gaAllAll ||| gaFounder) := by
  have hall : Sub gaAll (gaAllAll ||| gaFounder) := by decide
  rw [parserStep]
  by_cases hplus : x = '+'
  · rw [if_pos hplus]
    exact h
  rw [if_neg hplus]
  by_cases hminus : x = '-'
  · rw [if_pos hminus]
    exact h
  rw [if_neg hminus]
  by_cases hstar : x = '*'
  · rw [if_pos hstar]
    dsimp only
    split_ifs
    · exact zero_sub _
    · exact hall
  rw [if_neg hstar]
  cases hletter : gaLetter x with
  | none => exact h
  | some flag =>
    dsimp only
    split_ifs
    · exact (and_sub_left _ _).trans h
    · exact h.or (gaLetter_sub hletter)

theorem gsFlagsParser_sub (flagstring : CString) (allowMinus : Bool) :
    Sub (gsFlagsParser flagstring allowMinus 0#32) (gaAllAll ||| gaFounder) := by
  have hfold : ∀ (s : CString) (st : Bool × Flags), Sub st.2 (gaAllAll ||| gaFounder) →
      Sub (s.foldl (parserStep allowMinus) st).2 (gaAllAll ||| gaFounder) := by
    intro s
    induction s with
    | nil => exact fun st h => h
    | cons x s ih => exact fun st h => ih _ (parserStep_sub h)
  rw [gsFlagsParser]
  apply hfold
  rw [ite_self]
  exact zero_sub _

theorem templateFounderRule_sub (h : Sub c.add (gaAllAll ||| gaFounder)) :
    Sub (templateFounderRule c).add (gaAllAll ||| gaFounder) := by
  have hflags : Sub gaFlags (gaAllAll ||| gaFounder) := by decide
  rw [templateFounderRule]
  split_ifs
  · exact h.or hflags
  · exact (and_sub_left _ _).trans h
  · exact h

theorem templateChange_sub (h : templateChange group flagstr = .ok c) :
    Sub c.add (gaAllAll ||| gaFounder) := by
  rw [templateChange] at h
  split at h
  · obtain ⟨-, h⟩ := ite_error_ok h
    obtain ⟨-, h⟩ := ite_error_ok h
    cases h
    exact templateFounderRule_sub ((gflagsFrom_sub _ _ _).trans (sub_or_left _ _))
  · obtain ⟨-, h⟩ := ite_error_ok h
    cases h
    apply templateFounderRule_sub
    rw [getGroupTemplateFlags]
    split
    · exact gsFlagsParser_sub _ _
    · exact zero_sub _

theorem sub_of_not_founder {flags : Flags} (h : Sub flags (gaAllAll ||| gaFounder))
    (hf : test flags gaFounder = false) : Sub flags gaAllAll := by
  rw [test_eq_false_iff] at hf
  refine (sub_iff _ _).mpr fun i hi => ?_
  exact ((has_or _ _ i).mp (h.has hi)).resolve_right (hf i hi)

theorem templateEdit_sub {e : TemplateEdit} (he : templateEdit group target c restrictflags = e)
    (hc : Sub c.add (gaAllAll ||| gaFounder))
    (h : test (e.change.add ||| e.change.rem) gaFounder = false) :
    Sub e.oldflags gaAllAll ∧ Sub e.newflags gaAllAll := by
  rw [templateEdit] at he
  dsimp only at he
  cases hitem : (ChanServ.templateItems (group.templates.getD [])).find?
      (fun i => strcaseEq target i.name) with
  | none =>
    rw [hitem] at he
    dsimp only at he
    have hnew : e.oldflags = 0#32 ∧ e.newflags = e.change.add ∧ e.change.add = c.add := by
      split at he
      · rw [← he]
        exact ⟨rfl, rfl, rfl⟩
      · split at he
        · rw [← he]
          exact ⟨rfl, rfl, rfl⟩
        · rw [← he]
          exact ⟨rfl, rfl, rfl⟩
    rw [test_or, Bool.or_eq_false_iff] at h
    rw [hnew.1, hnew.2.1]
    exact ⟨zero_sub _, sub_of_not_founder (hnew.2.2 ▸ hc) h.1⟩
  | some item =>
    rw [hitem] at he
    dsimp only at he
    have hnew : e.oldflags = itemFlags item &&& gaAllAll ∧
        e.change.add = added e.oldflags c.add ∧
        (e.newflags = 0#32 ∨
          e.newflags = (e.oldflags ||| e.change.add) &&& ~~~e.change.rem) := by
      split at he
      · rw [← he]
        exact ⟨rfl, rfl, .inl rfl⟩
      · split at he
        · rw [← he]
          exact ⟨rfl, rfl, .inl rfl⟩
        · rw [← he]
          exact ⟨rfl, rfl, .inr rfl⟩
    obtain ⟨hold, hadd, hzero | hnew⟩ := hnew
    · rw [hold, hzero]
      exact ⟨and_sub_right _ _, zero_sub _⟩
    · have holdsub : Sub e.oldflags gaAllAll := hold ▸ and_sub_right _ _
      have haddsub : Sub e.change.add (gaAllAll ||| gaFounder) := by
        rw [hadd]
        exact (and_sub_left _ _).trans hc
      rw [test_or, Bool.or_eq_false_iff] at h
      refine ⟨holdsub, ?_⟩
      rw [hnew]
      exact (and_sub_left _ _).trans (holdsub.or (sub_of_not_founder haddsub h.1))

theorem find_of_mygroupFind {cfg : GroupConfig} {s : Groups} {name : CString} {mg : GroupRef}
    {group : Group} (h : s.mygroupFind cfg name = some (mg, group)) : s.groups.find mg = some group :=
  (Registry.find_eq_some_iff _ _ _).mpr (List.mem_of_find?_eq_some h)

theorem templatePlan_ok {cfg : GroupConfig} {s : Groups} {si : Source} {parv : List CString}
    {req : TemplateRequest} (h : templatePlan cfg s si parv = some (.ok req)) :
    s.groups.find req.mg = some req.group ∧ si.smu.isSome ∧
      Sub req.change.add (gaAllAll ||| gaFounder) := by
  cases parv with
  | nil => cases h
  | cons name params =>
    rw [templatePlan.eq_def] at h
    dsimp only at h
    split at h
    · cases h
    · cases h
    · cases h
    rename_i hfind
    split at h
    · cases h
    rename_i hsmu
    split at h
    · cases h
    split at h
    · cases h
    split at h
    · cases h
    split at h
    · cases h
    split at h
    · cases h
    · rename_i hchange
      obtain rfl := Except.ok.inj (Option.some.inj h)
      refine ⟨find_of_mygroupFind hfind, ?_, templateChange_sub hchange⟩
      simpa [Option.isSome_iff_ne_none] using hsmu

end templates

/-! ### The commands -/

def TemplateKeepsEntries (s : Groups) (mg : GroupRef) (e : TemplateEdit) : Prop :=
  e.newflags = 0#32 → test (e.change.add ||| e.change.rem) gaFounder = true ∨
    ∀ a ∈ s.acs mg, (s.heap a).flags ≠ e.oldflags

/-- What keeps the links: FLAGS and FFLAGS do not take all flags from an account, TEMPLATE does not
empty a template together with entries, no group is dropped while it is a member of another, and no
virtual entity is freed while it is a member of a group. -/
def LinksSafe (cfg : GroupConfig) (s : Groups) : GroupEvent → Prop
  | .flags si parv target => ∀ req flags,
      flagsPlan cfg s si parv (target.filter s.live) = .ok req →
        flagsLadder cfg s si (parv.getD 2 []) req = .ok flags →
          req.mt.isUser = true → req.ga.isSome → flags ≠ 0#32
  | .fflags _ parv target => ∀ mg group mt req,
      parv.head?.bind (s.mygroupFind cfg) = some (mg, group) → target.filter s.live = some mt →
        requestFor s mg group mt (parv.getD 2 []) = .ok req →
          mt.isUser = true → req.ga.isSome → req.flags ≠ 0#32
  | .template si parv => ∀ req, templatePlan cfg s si parv = some (.ok req) →
      req.changegroupacs = true →
        TemplateKeepsEntries s req.mg
          (templateEdit req.group req.target req.change req.restrictflags)
  | .drop si parv confirmed => ∀ mg group, parv.head?.bind (s.mygroupFind cfg) = some (mg, group) →
      s.groupacsSourceinfoHasFlag mg si gaFounder = true → confirmed = true → Unjoined s mg
  | .fdrop parv => ∀ mg group, parv.head?.bind (s.mygroupFind cfg) = some (mg, group) →
      Unjoined s mg
  | .expire => ∀ mg, s.mygroupCountFlag mg gaFounder = 0 → Unjoined s mg
  | .extFree e => ∀ mg, ∀ a ∈ s.acs mg, (s.heap a).mt ≠ .ext e
  -- whoever is logged in is logged in to an account that there is
  | .join si _ => ∀ mu, si.smu = some mu → s.live (.user mu) = true
  | _ => True

section commands
variable {cfg : GroupConfig} {s s' : Groups} {si : Source} {parv : List CString}
  {target : Option Entity} {req : FlagsRequest} {flags : Flags}

theorem LinksOk.assignFlags (h : LinksOk s) (hgroup : (s.groups.find req.mg).isSome)
    (hlive : s.live req.mt = true) (hga : req.ga = s.groupacsFind req.mg req.mt 0#32 false)
    (hsafe : req.mt.isUser = true → req.ga.isSome → flags ≠ 0#32)
    (hs' : s' ∈ (assignFlags cfg s req flags).after) : Links s s' := by
  obtain rfl | ⟨a, -, -, hset⟩ | ⟨a, hfound, hflags, hgone⟩ | ⟨hfound, hadd⟩ :=
    assignFlags_cases hs'
  · exact .refl h
  · have hkeeps := h.setFlags a flags
    obtain rfl | rfl := hset
    · exact hkeeps
    · exact hkeeps.trans (hkeeps.ok.readAcs _)
  · obtain ⟨hmem, hmt, -⟩ := Groups.mem_of_groupacsFind (hga.symm.trans hfound)
    obtain ⟨-, rfl⟩ | ⟨huser, -⟩ := hgone
    · have hdelete : s.groupacsDelete req.mg req.mt = s.unlink req.mg (s.heap a).mt a := by
        rw [← hmt, h.groupacsDelete hmem]
      rw [hdelete]
      exact h.unlink hmem
    · exact absurd hflags (hsafe huser (by rw [hfound]; rfl))
  · have hadded := h.groupacsAdd hgroup hlive (fun a ha hmt => by
      have hnone := hga.symm.trans hfound
      rw [← hmt, h.groupacsFind ha] at hnone
      cases hnone) flags
    obtain rfl | rfl := hadd
    · exact hadded
    · exact hadded.trans (hadded.ok.readAcs _)

theorem isSome_of_head {parv : List CString} {mg : GroupRef} {group : Group}
    (h : parv.head?.bind (s.mygroupFind cfg) = some (mg, group)) : (s.groups.find mg).isSome := by
  obtain ⟨name, -, hfind⟩ := Option.bind_eq_some_iff.mp h
  rw [find_of_mygroupFind hfind]
  rfl

theorem LinksOk.gsCmdFlags (h : LinksOk s) (hsafe : LinksSafe cfg s (.flags si parv target))
    (hs' : s' ∈ (gsCmdFlags cfg s si parv target).after) : Links s s' := by
  obtain rfl | ⟨req, flags, hplan, hladder, hassign⟩ := gsCmdFlags_cases hs'
  · exact h.look
  · obtain ⟨hgroup, htarget, hga, -⟩ := flagsPlan_ok hplan
    have hmember : s.live req.mt = true := (Option.filter_eq_some_iff.mp htarget).2
    exact h.look.trans (h.look.ok.assignFlags (isSome_of_head hgroup) hmember hga
      (hsafe req flags hplan hladder) hassign)

theorem LinksOk.gsCmdFflags (h : LinksOk s) (hsafe : LinksSafe cfg s (.fflags si parv target))
    (hs' : s' ∈ (gsCmdFflags cfg s si parv target).after) : Links s s' := by
  obtain rfl | ⟨mg, group, mt, req, hgroup, htarget, hreq, -, hassign⟩ := gsCmdFflags_cases hs'
  · exact h.look
  · obtain ⟨⟨hmg, -, hmt⟩, hga, -⟩ := requestFor_ok hreq
    have hkeeps := hsafe mg group mt req hgroup htarget hreq
    rw [← hmt] at hkeeps htarget
    rw [← hmg, ← hmt] at hga
    have hmember : s.live req.mt = true := (Option.filter_eq_some_iff.mp htarget).2
    refine h.look.trans (h.look.ok.assignFlags ?_ hmember hga hkeeps hassign)
    rw [hmg]
    exact isSome_of_head hgroup

theorem LinksOk.gsCmdJoin (h : LinksOk s) (hsafe : LinksSafe cfg s (.join si parv))
    (hs' : s' ∈ (gsCmdJoin cfg s si parv).after) : Links s s' := by
  have hlook := h.look
  obtain rfl | ⟨mg, group, mu, hgroup, hmu, hnone, hjoined⟩ := gsCmdJoin_cases hs'
  · exact hlook
  · have hadd : Links s.look (s.look.groupacsAdd mg (.user mu) (joinFlags cfg group)) := by
      have hlive : s.look.live (.user mu) = true := hsafe mu hmu
      refine hlook.ok.groupacsAdd (isSome_of_head hgroup) hlive (fun a ha => ?_) _
      exact Groups.no_entry_of_groupacsFind_user hnone ha (hlook.ok.own mg a ha).1
    obtain rfl | ⟨f, rfl⟩ := hjoined
    · exact hlook.trans (hadd.trans (hadd.ok.readAcs mg))
    · have hmodify := hadd.ok.modifyAccount mu f
      exact hlook.trans (hadd.trans (hmodify.trans (hmodify.ok.readAcs mg)))

theorem LinksOk.gsCmdInvite (h : LinksOk s) {target : Option AccountRef}
    (hs' : s' ∈ (gsCmdInvite cfg s si parv target).after) : Links s s' := by
  obtain rfl | ⟨mu, f, rfl⟩ := gsCmdInvite_cases hs'
  · exact h.look
  · exact h.look.trans (h.look.ok.modifyAccount mu f)

theorem LinksOk.gsCmdSetOpen (h : LinksOk s) (hs' : s' ∈ (gsCmdSetOpen cfg s si parv).after) :
    Links s s' := by
  obtain rfl | ⟨mg, f, rfl⟩ := gsCmdSetOpen_cases hs'
  · exact h.look
  · exact h.look.trans (h.look.ok.updateGroup mg fun _ => rfl)

theorem LinksOk.gsCmdSetJoinflags (h : LinksOk s)
    (hs' : s' ∈ (gsCmdSetJoinflags cfg s si parv).after) : Links s s' := by
  have hlook := h.look
  obtain ⟨r, hout⟩ | ⟨mg, group, value, -, hout, -⟩ := gsCmdSetJoinflags_cases cfg s si parv
  · rw [hout] at hs'
    obtain rfl := Option.some.inj hs'
    exact hlook
  · rw [hout] at hs'
    obtain rfl := Option.some.inj hs'
    exact hlook.trans (hlook.ok.updateGroup mg fun _ => rfl)

theorem acs_groupacsModifySimple (s : Groups) (a : AcsRef) (add rem : Flags) :
    (s.groupacsModifySimple a add rem).acs = s.acs := by
  rw [Groups.groupacsModifySimple]
  split_ifs <;> rfl

theorem groupacsModifySimple_replace {a : AcsRef} {new : Flags}
    (hold : Sub (s.heap a).flags gaAllAll) (hnew : Sub new gaAllAll) :
    ((s.groupacsModifySimple a new (~~~new)).heap a).flags = new := by
  have hresult := result_replace hold hnew
  rw [Groups.groupacsModifySimple]
  split_ifs with htouched hpermits
  · rw [touched, ← result_eq_self_iff, hresult] at htouched
    exact htouched.symm
  · rw [Groups.heap_setFlags, if_pos rfl, hresult]
  · exact absurd (permits_of_sub hold (and_sub_right _ _)) hpermits

theorem LinksOk.updateEntries {crashes : Groups → AcsRef → Bool} {mg : GroupRef}
    {e : TemplateEdit} {as : List AcsRef} (h : LinksOk s) (has : ∀ a ∈ as, a ∈ s.acs mg)
    (hsub : test (e.change.add ||| e.change.rem) gaFounder = false →
      Sub e.oldflags gaAllAll ∧ Sub e.newflags gaAllAll)
    (hkeeps : e.newflags = 0#32 → test (e.change.add ||| e.change.rem) gaFounder = true ∨
      ∀ a ∈ as, (s.heap a).flags ≠ e.oldflags) (hnodup : as.Nodup)
    (hs' : updateEntries crashes mg e as s = some s') : Links s s' := by
  induction as generalizing s with
  | nil =>
    obtain rfl := Option.some.inj hs'
    exact .refl h
  | cons a as ih =>
    obtain ⟨hnot, hnodup⟩ := List.nodup_cons.mp hnodup
    have ha := has a List.mem_cons_self
    have hrest : ∀ b ∈ as, b ∈ s.acs mg := fun b hb => has b (List.mem_cons_of_mem a hb)
    have hread : Links s (s.read [a]) := h.read fun b hb => by
      rw [List.mem_singleton.mp hb]
      exact h.unfreed mg a ha
    have hkeeps' : e.newflags = 0#32 → test (e.change.add ||| e.change.rem) gaFounder = true ∨
        ∀ b ∈ as, (s.heap b).flags ≠ e.oldflags := fun hzero =>
      (hkeeps hzero).imp id fun hall b hb => hall b (List.mem_cons_of_mem a hb)
    rw [GroupServ.updateEntries] at hs'
    dsimp only at hs'
    split at hs'
    · exact hread.trans (ih hread.ok hrest hkeeps' hnodup hs')
    rename_i hflags
    rw [not_not] at hflags
    split at hs'
    · exact hread.trans (ih hread.ok hrest hkeeps' hnodup hs')
    rename_i hfounder
    rw [Bool.not_eq_true] at hfounder
    split at hs'
    · cases hs'
    · obtain ⟨hold, hnew⟩ := hsub hfounder
      have hmodify := hread.ok.groupacsModifySimple a e.newflags (~~~e.newflags)
      have hset := groupacsModifySimple_replace (s := s.read [a]) (hflags ▸ hold) hnew
      have hzero : e.newflags ≠ 0#32 := by
        intro hzero
        obtain hf | hall := hkeeps hzero
        · rw [hfounder] at hf
          cases hf
        · exact hall a List.mem_cons_self hflags
      have hacs : ((s.read [a]).groupacsModifySimple a e.newflags (~~~e.newflags)).acs = s.acs :=
        acs_groupacsModifySimple _ _ _ _
      have htold := hmodify.ok.readAcs mg
      -- nothing is closed, the entry has flags
      rw [Groups.groupacsClose, if_neg (by rw [Groups.read_heap, hset]; exact hzero)] at hs'
      refine ((hread.trans hmodify).trans htold).trans (ih htold.ok (fun b hb => ?_)
        (fun h0 => absurd h0 hzero) hnodup hs')
      rw [Groups.read_acs, hacs]
      exact hrest b hb

theorem LinksOk.gsCmdTemplate (h : LinksOk s) (hsafe : LinksSafe cfg s (.template si parv))
    (hs' : s' ∈ (gsCmdTemplate cfg s si parv).after) : Links s s' := by
  have hlook := h.look
  obtain rfl | ⟨req, hplan, hchanged⟩ := gsCmdTemplate_cases hs'
  · exact hlook
  · have hset : Links s.look (s.look.updateGroup req.mg (setTemplates
        (templateEdit req.group req.target req.change req.restrictflags).newstr)) :=
      hlook.ok.updateGroup _ fun _ => rfl
    obtain rfl | ⟨hbang, crashes, hloop⟩ := hchanged
    · exact hlook.trans hset
    · have hacs : (s.look.updateGroup req.mg (setTemplates
          (templateEdit req.group req.target req.change req.restrictflags).newstr)).acs = s.acs :=
        Groups.acs_updateGroup fun _ => rfl
      refine (hlook.trans hset).trans (hset.ok.updateEntries (fun a ha => ?_)
        (templateEdit_sub rfl (templatePlan_ok hplan).2.2) (hsafe req hplan hbang) (acs_nodup s req.mg)
        hloop)
      rw [hacs]
      exact ha

theorem LinksOk.gsCmdRegister (h : LinksOk s) (hs' : s' ∈ (gsCmdRegister cfg s si parv).after) :
    Links s s' := by
  have hstay : ∀ replies, s' ∈ (Outcome.done s replies).after → Links s s' := by
    intro replies hs'
    obtain rfl := Option.some.inj hs'
    exact .refl h
  rw [GroupServ.gsCmdRegister] at hs'
  dsimp only at hs'
  split at hs'
  · exact hstay _ hs'
  rename_i mu account hsource
  split at hs'
  · exact hstay _ hs'
  split at hs'
  · exact hstay _ hs'
  split at hs'
  · exact hstay _ hs'
  split at hs'
  · exact hstay _ hs'
  have hread : Links s (s.read (s.membership (.user mu)).items) :=
    h.read fun a ha => h.unfreed _ a ((h.listed _ a).mp ha).2
  split at hs'
  · obtain rfl := Option.some.inj hs'
    exact hread
  split at hs'
  · obtain rfl := Option.some.inj hs'
    exact hread
  have hadd := hread.ok.mygroupAdd (parv.getD 0 [])
  have hlive : ((s.read (s.membership (.user mu)).items).mygroupAdd (parv.getD 0 [])).live
      (.user mu) = true := by
    obtain ⟨mu', -, hfind⟩ := Option.bind_eq_some_iff.mp hsource
    obtain ⟨account', haccount, heq⟩ := Option.map_eq_some_iff.mp hfind
    obtain ⟨rfl, -⟩ := Prod.mk.inj heq
    exact Option.isSome_iff_exists.mpr ⟨account', haccount⟩
  obtain rfl := Option.some.inj hs'
  refine (hread.trans hadd).trans
    (hadd.ok.groupacsAdd hread.ok.find_mygroupAdd hlive (fun a ha => ?_) _)
  rw [hread.ok.acs_mygroupAdd] at ha
  cases ha

theorem LinksOk.gsCmdDrop (h : LinksOk s) {confirmed : Bool}
    (hsafe : LinksSafe cfg s (.drop si parv confirmed))
    (hs' : s' ∈ (gsCmdDrop cfg s si parv confirmed).after) : Links s s' := by
  have hlook := h.look
  have hstay : ∀ replies, s' ∈ (Outcome.done s.look replies).after → Links s s' := by
    intro replies hs'
    obtain rfl := Option.some.inj hs'
    exact hlook
  cases parv with
  | nil => exact hstay _ hs'
  | cons name key =>
    rw [GroupServ.gsCmdDrop] at hs'
    split at hs'
    · exact hstay _ hs'
    split at hs'
    · exact hstay _ hs'
    rename_i mg group hgroup
    split at hs'
    · exact hstay _ hs'
    rename_i hfounder
    rw [Bool.not_eq_true', Bool.not_eq_false] at hfounder
    split at hs'
    · exact hstay _ hs'
    rename_i hconfirmed
    rw [Bool.not_eq_true', Bool.not_eq_false] at hconfirmed
    obtain rfl := Option.some.inj hs'
    have hunjoined : Unjoined s.look mg := hsafe mg group hgroup hfounder hconfirmed
    exact hlook.trans (hlook.ok.mygroupDelete hunjoined)

theorem LinksOk.gsCmdFdrop (h : LinksOk s) (hsafe : LinksSafe cfg s (.fdrop parv))
    (hs' : s' ∈ (gsCmdFdrop cfg s parv).after) : Links s s' := by
  have hstay : ∀ replies, s' ∈ (Outcome.done s replies).after → Links s s' := by
    intro replies hs'
    obtain rfl := Option.some.inj hs'
    exact .refl h
  cases parv with
  | nil => exact hstay _ hs'
  | cons name rest =>
    rw [GroupServ.gsCmdFdrop] at hs'
    split at hs'
    · exact hstay _ hs'
    split at hs'
    · exact hstay _ hs'
    rename_i mg group hgroup
    obtain rfl := Option.some.inj hs'
    exact h.mygroupDelete (hsafe mg group hgroup)

theorem LinksOk.mygroupExpire (h : LinksOk s) (hsafe : LinksSafe cfg s .expire) :
    Links s (mygroupExpire s) := by
  have hloop : ∀ (mgs : List GroupRef) (t : Groups), LinksOk t →
      (∀ mg, t.mygroupCountFlag mg gaFounder = 0 → Unjoined t mg) →
      Links t (mgs.foldl expireGroup t) := by
    intro mgs
    induction mgs with
    | nil => exact fun t ht _ => .refl ht
    | cons mg mgs ih =>
      intro t ht hunjoined
      have hread := ht.readAcs mg
      rw [List.foldl_cons]
      by_cases hcount : (t.read (t.acs mg)).mygroupCountFlag mg gaFounder = 0
      · have hdrop : Links (t.read (t.acs mg)) ((t.read (t.acs mg)).mygroupDelete mg) :=
          hread.ok.mygroupDelete (hunjoined mg hcount)
        rw [expireGroup, if_pos hcount]
        refine (hread.trans hdrop).trans (ih _ hdrop.ok fun mg' hcount' => ?_)
        obtain ⟨hacs, hheap⟩ := acs_mygroupDelete (t.read (t.acs mg)) mg
        by_cases hmg : mg' = mg
        · subst hmg
          intro mg'' a ha hmt
          rw [hheap] at hmt
          rw [hacs] at ha
          split_ifs at ha
          · cases ha
          · exact hunjoined mg' hcount mg'' a ha hmt
        · have hsame : t.mygroupCountFlag mg' gaFounder = 0 := by
            rw [mygroupCountFlag_founder] at hcount' ⊢
            rw [hacs, if_neg hmg, hheap] at hcount'
            exact hcount'
          intro mg'' a ha hmt
          rw [hheap] at hmt
          rw [hacs] at ha
          split_ifs at ha
          · cases ha
          · exact hunjoined mg' hsame mg'' a ha hmt
      · rw [expireGroup, if_neg hcount]
        exact hread.trans (ih _ hread.ok hunjoined)
  exact hloop _ s h hsafe

theorem LinksOk.step (h : LinksOk s) {e : GroupEvent} (hsafe : LinksSafe cfg s e) :
    Links s (groupStep cfg s e).1 := by
  have hexec : ∀ s' ∈ (groupExec cfg s e).after, Links s s' := by
    intro s' hs'
    cases e with
    | flags si parv target => exact h.gsCmdFlags hsafe hs'
    | fflags si parv target => exact h.gsCmdFflags hsafe hs'
    | template si parv => exact h.gsCmdTemplate hsafe hs'
    | join si parv => exact h.gsCmdJoin hsafe hs'
    | invite si parv target => exact h.gsCmdInvite hs'
    | setOpen si parv => exact h.gsCmdSetOpen hs'
    | setJoinflags si parv => exact h.gsCmdSetJoinflags hs'
    | register si parv => exact h.gsCmdRegister hs'
    | drop si parv confirmed => exact h.gsCmdDrop hsafe hs'
    | fdrop parv => exact h.gsCmdFdrop hsafe hs'
    | expire =>
      obtain rfl := Option.some.inj hs'
      exact h.mygroupExpire hsafe
    | accountAdd a =>
      obtain rfl := Option.some.inj hs'
      exact h.accountAdd a
    | accountDelete mu =>
      obtain rfl := Option.some.inj hs'
      exact h.myuserDelete mu
    | extAdd name =>
      obtain rfl := Option.some.inj hs'
      exact h.extAdd name
    | extFree e =>
      obtain rfl := Option.some.inj hs'
      exact h.extFree hsafe
  rw [groupStep]
  cases hout : groupExec cfg s e with
  | crash => exact .refl h
  | done s' replies => exact hexec s' (by rw [hout]; rfl)

end commands

/-! ### Runs -/

structure Linked (s : Groups) : Prop where
  once : ∀ mg, ∀ a ∈ s.acs mg, (s.heap a).mg = mg ∧ (s.acs mg).count a = 1 ∧
    (s.membership (s.heap a).mt).items.count a = 1
  member : ∀ mt, ∀ a ∈ (s.membership mt).items, (s.heap a).mt = mt ∧ a ∈ s.acs (s.heap a).mg
  single : ∀ mg, ∀ a ∈ s.acs mg, ∀ b ∈ s.acs mg, (s.heap a).mt = (s.heap b).mt → a = b
  unfreed : ∀ mg, ∀ a ∈ s.acs mg, a ∉ s.freed
  live : ∀ mg, ∀ a ∈ s.acs mg, (s.groups.find mg).isSome ∧ s.live (s.heap a).mt = true
  unread : s.misuse = false

theorem LinksOk.linked {s : Groups} (h : LinksOk s) : Linked s := by
  refine ⟨fun mg a ha => ?_, fun mt a ha => (h.listed mt a).mp ha, h.single, h.unfreed,
    fun mg a ha => ⟨?_, h.live mg a ha⟩, h.unread⟩
  · have hmg := (h.own mg a ha).1
    have hmember : a ∈ (s.membership (s.heap a).mt).items := (h.listed _ a).mpr ⟨rfl, hmg ▸ ha⟩
    exact ⟨hmg, List.count_eq_one_of_mem (acs_nodup s mg) ha,
      List.count_eq_one_of_mem (s.membership _).nodup hmember⟩
  · obtain ⟨g, hfind, -⟩ := Groups.mem_acs_iff.mp ha
    rw [hfind]
    rfl

theorem LinksOk.run {cfg : GroupConfig} {s : Groups} {es : List GroupEvent} (h : LinksOk s)
    (hsafe : Run.Guarded (groupStep cfg) (LinksSafe cfg) s es) :
    Links s (Run.run (groupStep cfg) s es).1 := by
  induction es generalizing s with
  | nil => exact .refl h
  | cons e es ih =>
    have hstep := h.step hsafe.1
    exact hstep.trans (ih hstep.ok hsafe.2)

def Groups.start : Groups := ⟨.empty, .empty, .empty, fun _ => ⟨0, .user 0, 0#32⟩, [],
  fun _ => .empty, 0, false⟩

theorem linksOk_start : LinksOk Groups.start := by
  have hacs : ∀ mg, Groups.start.acs mg = [] := fun _ => rfl
  refine ⟨fun mg a ha => ?_, fun mt a => ?_, fun mg a ha => ?_, fun mg a ha => ?_,
    fun mg a ha => ?_, fun a ha => absurd ha List.not_mem_nil, fun mg hmg => ?_, fun mu hmu => ?_,
    rfl⟩
  · cases hacs mg ▸ ha
  · rw [hacs]
    exact ⟨fun ha => absurd ha List.not_mem_nil, fun ha => absurd ha.2 List.not_mem_nil⟩
  · cases hacs mg ▸ ha
  · cases hacs mg ▸ ha
  · cases hacs mg ▸ ha
  · cases hmg
  · cases hmu

/-- In a run that is safe, both lists are right at any time, and an entry is in them until it is
freed. -/
theorem links_kept (cfg : GroupConfig) (s : Groups) (h : LinksOk s) (es fs : List GroupEvent)
    (hsafe : Run.Guarded (groupStep cfg) (LinksSafe cfg) s (es ++ fs)) :
    Linked (Run.run (groupStep cfg) s es).1 ∧ Linked (Run.run (groupStep cfg) s (es ++ fs)).1 ∧
      ∀ mg, ∀ a ∈ (Run.run (groupStep cfg) s es).1.acs mg,
        a ∈ (Run.run (groupStep cfg) s (es ++ fs)).1.acs mg ∨
          a ∈ (Run.run (groupStep cfg) s (es ++ fs)).1.freed := by
  obtain ⟨hfirst, hsecond⟩ := Run.guarded_append.mp hsafe
  have hes := h.run hfirst
  have hfs := hes.ok.run hsecond
  rw [Run.run_append]
  exact ⟨hes.ok.linked, hfs.ok.linked, hfs.kept⟩

theorem links_kept_staff :
    let step := groupStep ⟨.rfc1459, 5, 100, true, false, "+v".toList, []⟩
    let alice : Source := ⟨some 0, fun _ => false⟩
    let es : List GroupEvent := [.accountAdd ⟨"alice".toList, 0#32, [], none, false, 0⟩,
      .register alice ["!staff".toList], .accountAdd ⟨"bob".toList, 0#32, [], none, false, 0⟩,
      .setOpen alice ["!staff".toList, "ON".toList],
      .join ⟨some 3, fun _ => false⟩ ["!staff".toList]]
    let s := (Run.run step Groups.start es).1
    let s' := (Run.run step Groups.start (es ++ [.accountDelete 3])).1
    s.acs 1 = [2, 4] ∧ Linked s ∧ Linked s' ∧ ∀ mg, ∀ a ∈ s.acs mg, a ∈ s'.acs mg ∨ a ∈ s'.freed := by
  refine ⟨by decide +kernel, links_kept _ _ linksOk_start _ _
    ⟨trivial, trivial, trivial, trivial, ?_, trivial, trivial⟩⟩
  intro mu hmu
  obtain rfl := Option.some.inj hmu
  decide +kernel

/-- An emptied template frees the entries that have it, and leaves them in their lists. -/
theorem links_broken : ¬∀ (cfg : GroupConfig) (es : List GroupEvent),
    Linked (Run.run (groupStep cfg) Groups.start es).1 := by
  intro h
  have hlinked := h ⟨.rfc1459, 5, 100, true, false, "+v".toList, []⟩
    [.accountAdd ⟨"alice".toList, 0#32, [], none, false, 0⟩,
      .accountAdd ⟨"bob".toList, 0#32, [], none, false, 0⟩,
      .register ⟨some 0, fun _ => false⟩ ["!staff".toList],
      .flags ⟨some 0, fun _ => false⟩ ["!staff".toList, "bob".toList, "+v".toList]
        (some (.user 1)),
      .template ⟨some 0, fun _ => false⟩ ["!staff".toList, "VIP".toList, "+v".toList],
      .template ⟨some 0, fun _ => false⟩ ["!staff".toList, "VIP".toList, "!-v".toList]]
  have hunfreed := hlinked.unfreed 2 4 (by decide +kernel)
  revert hunfreed
  decide +kernel

end ChatServices.GroupServ
