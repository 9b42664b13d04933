import ChatServices.Storage.ChannelRoundTrip
import ChatServices.ChanServ.RoleUpdate
import ChatServices.ChanServ.TemplateText

/-! ROLE and TEMPLATE as transactions on the table of a channel's templates. A name with `=` in
it, or with a space in front, is written like any other and read back as another name; ROLE DEL
takes the channel's own flags away from a name that the network has flags for. -/
namespace ChatServices.ChanServ
open ChatServices.Lib ChatServices.Lib.Mask ChatServices.Lib.MaskUpdate ChatServices.Lib.PairText
open ChatServices.Lib.Run ChatServices.Storage ChatServices.Text

inductive StoreCommand where
  | roleAdd (channel : CString) (parv : List CString)
  | roleSet (channel : CString) (parv : List CString)
  | roleDel (channel : CString) (parv : List CString)
  | template (parv : List CString)

def StoreCommand.exec (cfg : ChanConfig) (w : World) (db : ChanDb) (si : Source) :
    StoreCommand → Outcome
  | .roleAdd channel parv => csCmdRoleAdd cfg w db si channel parv
  | .roleSet channel parv => csCmdRoleSet cfg w db si channel parv
  | .roleDel channel parv => csCmdRoleDel cfg w db si channel parv
  | .template parv => csCmdTemplate cfg w db si parv

structure StoreRequest where
  mc : MyChanRef
  chan : MyChan
  role : CString
  flags : Flags

/-- `update_role_entry`, unless it refuses. -/
def roleRequest (cfg : ChanConfig) (req : RoleRequest) (flags : Flags) : Option StoreRequest :=
  if (getTemplateFlags cfg (some req.chan) req.role = 0#32 && hasCtrlChars req.role) ∨
      (roleText cfg req.chan req.role flags).length ≥ 300 then none
  else some ⟨req.mc, req.chan, req.role, flags⟩

def roleSetRequest (cfg : ChanConfig) (req : RoleRequest) (asked : Flags) : Option StoreRequest :=
  let newflags := if test asked caFounder then asked ||| caFlags else asked
  if newflags = 0#32 ∨
      (buildTemplateList cfg req.chan).find? (fun t => t.level = newflags) ≠ none then none
  else roleRequest cfg req newflags

def StoreCommand.request (cfg : ChanConfig) (w : World) (db : ChanDb) (si : Source) :
    StoreCommand → Option StoreRequest
  | .roleAdd channel parv =>
    match rolePlan cfg w db si "ROLE ADD|SET" roleSyntax channel parv with
    | .error _ => none
    | .ok req =>
      let oldflags := getTemplateFlags cfg (some req.chan) req.role
      let asked := xflagApplyBatch cfg.flagConfig oldflags req.changes
      if oldflags ≠ 0#32 ∨ test asked (~~~req.restrictflags) then none
      else roleSetRequest cfg req asked
  | .roleSet channel parv =>
    match rolePlan cfg w db si "ROLE ADD|SET" roleSyntax channel parv with
    | .error _ => none
    | .ok req =>
      let oldflags := getTemplateFlags cfg (some req.chan) req.role
      let asked := xflagApplyBatch cfg.flagConfig oldflags req.changes
      if oldflags = 0#32 ∨ test (oldflags ||| asked) (~~~req.restrictflags) ∨
          test (oldflags ^^^ asked) caFounder then none
      else roleSetRequest cfg req asked
  | .roleDel channel parv =>
    match rolePlan cfg w db si "ROLE DEL" "Syntax: ROLE <#channel> DEL <role>" channel parv with
    | .error _ => none
    | .ok req =>
      let oldflags := getTemplateFlags cfg (some req.chan) req.role
      if oldflags = 0#32 ∨ test oldflags (~~~req.restrictflags) then none
      else roleRequest cfg req 0#32
  | .template parv =>
    match templatePlan cfg w db si parv with
    | .error _ => none
    | .ok req =>
      let e := templateEdit cfg req.chan req.target req.change req.restrictflags
      if templateRefusal cfg req e ≠ none then none
      else some ⟨req.mc, req.chan, req.target, e.newflags⟩

/-! ### What a command says -/

def roleChanged : String := "Flags for role \x02%s\x02 were changed to: \x02%s\x02."
def roleDeleted : String := "Role \x02%s\x02 has been deleted."
def templateAdded : String := "Added template \x02%s\x02 with flags \x02%s\x02 in: \x02%s\x02"
def templateRemoved : String := "Removed template \x02%s\x02 from: \x02%s\x02"
def templateChanged : String := "Changed template \x02%s\x02 to \x02%s\x02 in: \x02%s\x02"

def Reply.reports : Reply → Bool
  | .success fmt _ =>
    decide (fmt ∈ [roleChanged, roleDeleted, templateAdded, templateRemoved, templateChanged])
  | .fail .. => false

def Reply.ReportsSet (fc : FlagConfig) (req : StoreRequest) (r : Reply) : Prop :=
  r = .success roleChanged [req.role, xflagTostr fc req.flags] ∨
    req.flags = 0#32 ∧ r = .success roleDeleted [req.role] ∨
    r = .success templateAdded [req.role, bitmaskToFlags fc req.flags, req.chan.name] ∨
    req.flags = 0#32 ∧ r = .success templateRemoved [req.role, req.chan.name] ∨
    r = .success templateChanged [req.role, bitmaskToFlags fc req.flags, req.chan.name]

def SaysSet (replies : List Reply) : Prop :=
  (∃ r ∈ replies, r.reports = true) ∧ ∀ r ∈ replies, r.isFail = false

theorem Reply.ReportsSet.reports {fc : FlagConfig} {req : StoreRequest} {r : Reply}
    (h : r.ReportsSet fc req) : r.reports = true := by
  obtain rfl | ⟨-, rfl⟩ | rfl | ⟨-, rfl⟩ | rfl := h <;> simp [Reply.reports]

/-! ### The edit of the text -/

def FlagText (fc : FlagConfig) (flags : Flags) (flagstr : CString) : Prop :=
  flagstr = bitmaskToFlags fc flags ∨ flags = 0#32 ∧ flagstr = []

def editTable (st : TemplateTable) (role : CString) (flags : Flags) (flagstr : CString) :
    TemplateTable :=
  if flags = 0#32 ∧ (st.find (strcasecanon role)).isSome then dropTemplate st role
  else putTemplate st role flagstr

section table
variable {st : TemplateTable} {role flagstr : CString} {flags : Flags} {p : Pair Char}

theorem editTable_missing (hf : st.find (strcasecanon role) = none) :
    editTable st role flags flagstr = putTemplate st role flagstr := by
  rw [editTable, hf]
  exact if_neg fun h => nomatch h.2

theorem editTable_drop (hf : st.find (strcasecanon role) = some p) :
    editTable st role 0#32 flagstr = dropTemplate st role := by
  rw [editTable, hf]
  exact if_pos ⟨rfl, rfl⟩

theorem editTable_set (hflags : flags ≠ 0#32) :
    editTable st role flags flagstr = putTemplate st role flagstr :=
  if_neg fun h => hflags h.1

end table

def IsEdit (fc : FlagConfig) (req : StoreRequest) (newstr : CString) : Prop :=
  ∃ flagstr, FlagText fc req.flags flagstr ∧ ∀ st, TableWf st → HoldsTable req.chan st →
    newstr = truncate 400 (tableText (editTable st req.role req.flags flagstr))

section edit
variable {cfg : ChanConfig} {chan : MyChan} {role : CString} {flags : Flags}

theorem bitmaskToFlags2_flagText (fc : FlagConfig) (flags : Flags) :
    FlagText fc flags (bitmaskToFlags2 fc flags 0#32) := by
  rw [FlagText, bitmaskToFlags2, if_pos rfl, List.nil_append]
  by_cases h : flags = 0#32
  · exact .inr ⟨h, if_pos h⟩
  · exact .inl (if_neg h)

theorem roleText_isEdit (mc : MyChanRef) : IsEdit cfg.flagConfig ⟨mc, chan, role, flags⟩
    (roleText cfg chan role flags) := by
  refine ⟨_, bitmaskToFlags2_flagText cfg.flagConfig flags, fun st hwf hst => ?_⟩
  cases hf : st.find (strcasecanon role) with
  | some p =>
    obtain ⟨item, hown, -, hset, hdrop⟩ := ownItem_some hst hwf hf
    rw [ownItem] at hown
    rw [roleText, hown]
    by_cases h : flags = 0#32
    · subst h
      rw [editTable_drop hf]
      exact hdrop
    · rw [editTable_set h]
      simp only [if_neg h]
      exact hset _
  | none =>
    obtain ⟨hown, happend⟩ := ownItem_none hst hwf hf
    rw [ownItem] at hown
    rw [roleText, hown, editTable_missing hf]
    exact happend _

theorem templateEdit_isEdit {req : TemplateRequest}
    (h : templateRefusal cfg req
      (templateEdit cfg req.chan req.target req.change req.restrictflags) = none) :
    IsEdit cfg.flagConfig ⟨req.mc, req.chan, req.target,
      (templateEdit cfg req.chan req.target req.change req.restrictflags).newflags⟩
      (templateEdit cfg req.chan req.target req.change req.restrictflags).newstr := by
  obtain ⟨hne, hdenied⟩ := templateRefusal_none h
  refine ⟨_, .inl rfl, fun st hwf hst => ?_⟩
  unfold templateEdit at hne hdenied ⊢
  dsimp only at hne hdenied ⊢
  cases hf : st.find (strcasecanon req.target) with
  | some p =>
    obtain ⟨item, hown, -, hset, hdrop⟩ := ownItem_some hst hwf hf
    rw [ownItem] at hown
    simp only [hown] at hne hdenied ⊢
    split_ifs at hne hdenied ⊢ with h1 h2 h3
    · exact absurd h1 hne
    · rw [h3, editTable_drop hf]
      exact hdrop
    · rw [editTable_set h3]
      exact hset _
  | none =>
    obtain ⟨hown, happend⟩ := ownItem_none hst hwf hf
    rw [ownItem] at hown
    simp only [hown]
    rw [editTable_missing hf]
    exact happend _

end edit

/-! ### The text of a mask -/

section mask
variable {fc : FlagConfig} {flags : Flags} {flagstr : CString}

theorem flagsToBitmask_flagText (h : FlagText fc flags flagstr) (hsub : Sub flags fc.caAll) :
    flagsToBitmask fc ('=' :: flagstr) 0#32 = flags := by
  have hmark : flagsToBitmask fc ('=' :: flagstr) 0#32 = flagsToBitmask fc flagstr 0#32 := rfl
  rw [hmark]
  obtain rfl | ⟨rfl, rfl⟩ := h
  · exact flagsToBitmask_bitmaskToFlags fc hsub
  · exact BitVec.zero_and

theorem flagText_length (h : FlagText fc flags flagstr) : flagstr.length ≤ flagTextMax := by
  have htable : fc.table.length ≤ 19 := by
    rw [FlagConfig.table]
    cases fc.successorAcl <;> decide
  obtain rfl | ⟨-, rfl⟩ := h
  · have hrows := List.length_filter_le (fun r => test r.value flags) fc.table
    rw [bitmaskToFlags, flagChars, List.length_cons, List.length_map, flagTextMax]
    omega
  · exact Nat.zero_le _

theorem flagText_space (h : FlagText fc flags flagstr) : ' ' ∉ flagstr := by
  obtain rfl | ⟨-, rfl⟩ := h
  · exact (level_isWord fc flags).1
  · exact List.not_mem_nil

end mask

/-! ### The law of the store -/

def NameOk (role : CString) : Prop := '=' ∉ role ∧ role.head? ≠ some ' '

instance (role : CString) : Decidable (NameOk role) := inferInstanceAs (Decidable (_ ∧ _))

/-- The name has the flags that were asked for, or, after TEMPLATE has deleted the channel's own
ones, those of the network; no other name has changed. -/
structure StoreLaw (cfg : ChanConfig) (byTemplate : Bool) (req : StoreRequest) (chan' : MyChan) :
    Prop where
  own : getTemplateFlags cfg (some chan') req.role = req.flags ∨
    byTemplate = true ∧ req.flags = 0#32 ∧ (ownItem req.chan req.role).isSome ∧
      getTemplateFlags cfg (some chan') req.role = getGlobalTemplateFlags cfg req.role
  others : ∀ s, strcasecanon s ≠ strcasecanon req.role →
    getTemplateFlags cfg (some chan') s = getTemplateFlags cfg (some req.chan) s

def StoreCommand.byTemplate : StoreCommand → Bool
  | .template _ => true
  | _ => false

def Uncovers (cfg : ChanConfig) (req : StoreRequest) : Prop :=
  req.flags = 0#32 ∧ (ownItem req.chan req.role).isSome ∧ getGlobalTemplateFlags cfg req.role ≠ 0#32

def StoreCommand.Sound (cfg : ChanConfig) (w : World) (db : ChanDb) (si : Source)
    (cmd : StoreCommand) : Prop :=
  ∀ req, cmd.request cfg w db si = some req →
    NameOk req.role ∧ (cmd.byTemplate = false → ¬ Uncovers cfg req)

def StoreOk (db : ChanDb) : Prop :=
  ∀ mc chan, db.chans.find mc = some chan → ∃ st, TableWf st ∧ HoldsTable chan st

section law
variable {cfg : ChanConfig} {req : StoreRequest} {newstr : CString} {st : TemplateTable}

theorem TableWf.edit {flagstr : CString} (hwf : TableWf st)
    (hpair : Wf '=' ' ' (req.role, flagstr)) (hshort : flagstr.length ≤ flagTextMax) :
    TableWf (editTable st req.role req.flags flagstr) := by
  rw [editTable]
  split_ifs
  · exact hwf.drop req.role
  · exact hwf.put hpair hshort

theorem ownItem_isSome (hst : HoldsTable req.chan st) (hwf : TableWf st) :
    (ownItem req.chan req.role).isSome = (st.find (strcasecanon req.role)).isSome := by
  cases hf : st.find (strcasecanon req.role) with
  | some p =>
    obtain ⟨item, hown, -⟩ := ownItem_some hst hwf hf
    rw [hown]
    rfl
  | none =>
    rw [(ownItem_none hst hwf hf).1]
    rfl

theorem IsEdit.table (hedit : IsEdit cfg.flagConfig req newstr) (hlen : newstr.length < 300)
    (hst : HoldsTable req.chan st) (hwf : TableWf st) (hname : NameOk req.role) :
    ∃ flagstr, FlagText cfg.flagConfig req.flags flagstr ∧
      TableWf (editTable st req.role req.flags flagstr) ∧
      HoldsTable (setTemplates newstr req.chan) (editTable st req.role req.flags flagstr) := by
  obtain ⟨flagstr, htext, hnew⟩ := hedit
  have htable := hnew st hwf hst
  rw [htable] at hlen
  rw [truncate_of_accepted hlen] at htable
  have hpair : Wf '=' ' ' (req.role, flagstr) := ⟨hname.1, hname.2, flagText_space htext⟩
  refine ⟨flagstr, htext, hwf.edit hpair (flagText_length htext), ?_⟩
  rw [htable]
  exact holdsTable_set req.chan _

theorem edit_law (hedit : IsEdit cfg.flagConfig req newstr) (hlen : newstr.length < 300)
    (hst : HoldsTable req.chan st) (hwf : TableWf st) (hname : NameOk req.role)
    (hsub : Sub req.flags cfg.caAll) {byTemplate : Bool}
    (hcover : byTemplate = false → ¬ Uncovers cfg req) :
    (∃ st', TableWf st' ∧ HoldsTable (setTemplates newstr req.chan) st') ∧
      StoreLaw cfg byTemplate req (setTemplates newstr req.chan) := by
  obtain ⟨flagstr, htext, hwf', hst'⟩ := hedit.table hlen hst hwf hname
  refine ⟨⟨_, hwf', hst'⟩, ?_, fun s hs => ?_⟩
  · rw [getTemplateFlags_table hst' hwf', editTable]
    by_cases hdrop : req.flags = 0#32 ∧ (st.find (strcasecanon req.role)).isSome
    · rw [if_pos hdrop, tableFlags_drop, if_pos rfl]
      have hown : (ownItem req.chan req.role).isSome := by
        rw [ownItem_isSome hst hwf]
        exact hdrop.2
      cases byTemplate with
      | true => exact .inr ⟨rfl, hdrop.1, hown, rfl⟩
      | false =>
        have hzero : getGlobalTemplateFlags cfg req.role = 0#32 :=
          by_contra fun hne => hcover rfl ⟨hdrop.1, hown, hne⟩
        exact .inl (hzero.trans hdrop.1.symm)
    · rw [if_neg hdrop, tableFlags_put, if_pos rfl]
      exact .inl (flagsToBitmask_flagText htext hsub)
  · rw [getTemplateFlags_table hst' hwf', getTemplateFlags_table hst hwf, editTable]
    split_ifs
    · rw [tableFlags_drop, if_neg hs]
    · rw [tableFlags_put, if_neg hs]

end law

/-! ### The commands -/

def StoreOutcome (cfg : ChanConfig) (db : ChanDb) (o : Option StoreRequest) (db' : ChanDb)
    (replies : List Reply) : Prop :=
  match o with
  | none => db'.chans = db.chans ∧ ¬ SaysSet replies
  | some req => db.chans.find req.mc = some req.chan ∧ SaysSet replies ∧
      (∃ r ∈ replies, r.ReportsSet cfg.flagConfig req) ∧
      ∃ newstr, IsEdit cfg.flagConfig req newstr ∧ newstr.length < 300 ∧
        db'.chans = db.chans.set req.mc (setTemplates newstr req.chan)

section commands
variable {cfg : ChanConfig} {w : World} {db db' : ChanDb} {si : Source} {channel : CString}
  {parv : List CString} {replies : List Reply}

theorem mychanFind_find {name : CString} {mc : MyChanRef} {chan : MyChan}
    (h : mychanFind cfg db name = some (mc, chan)) : db.chans.find mc = some chan :=
  (Registry.find_eq_some_iff ..).mpr (List.mem_of_find?_eq_some h)

theorem not_saysSet_of_fail {r : Reply} (hr : r ∈ replies) (hfail : r.isFail = true) :
    ¬ SaysSet replies := by
  intro h
  rw [h.2 r hr] at hfail
  cases hfail

theorem not_saysSet_of_silent (h : ∀ r ∈ replies, r.reports = false) : ¬ SaysSet replies := by
  rintro ⟨⟨r, hr, hreports⟩, -⟩
  rw [h r hr] at hreports
  cases hreports

theorem refused_single {o : Option StoreRequest} (ho : o = none) {r : Reply}
    (hfail : r.isFail = true) : StoreOutcome cfg db o db [r] := by
  subst ho
  exact ⟨rfl, not_saysSet_of_fail (List.mem_singleton_self r) hfail⟩

theorem accepted_outcome {req : StoreRequest} {newstr : CString} {said : Reply}
    (hchan : db.chans.find req.mc = some req.chan) (hsaid : said ∈ replies)
    (hreport : said.ReportsSet cfg.flagConfig req) (hfail : ∀ r ∈ replies, r.isFail = false)
    (hedit : IsEdit cfg.flagConfig req newstr) (hlen : ¬ newstr.length ≥ 300)
    (hdb : db'.chans = db.chans.set req.mc (setTemplates newstr req.chan)) :
    StoreOutcome cfg db (some req) db' replies :=
  ⟨hchan, ⟨⟨said, hsaid, hreport.reports⟩, hfail⟩, ⟨said, hsaid, hreport⟩, newstr, hedit,
    Nat.not_le.mp hlen, hdb⟩

theorem Reply.ReportsSet.isFail {fc : FlagConfig} {req : StoreRequest} {r : Reply}
    (h : r.ReportsSet fc req) : r.isFail = false := by
  obtain rfl | ⟨-, rfl⟩ | rfl | ⟨-, rfl⟩ | rfl := h <;> rfl

theorem updateRoleEntry_outcome {req : RoleRequest} {flags : Flags} {said : Reply}
    (hchan : db.chans.find req.mc = some req.chan)
    (hreport : said.ReportsSet cfg.flagConfig ⟨req.mc, req.chan, req.role, flags⟩)
    (h : updateRoleEntry cfg w db si req flags said = .done db' replies) :
    StoreOutcome cfg db (roleRequest cfg req flags) db' replies := by
  have hedit : IsEdit cfg.flagConfig ⟨req.mc, req.chan, req.role, flags⟩
      (roleText cfg req.chan req.role flags) := roleText_isEdit req.mc
  have hone : ∀ r ∈ [said], r.isFail = false := by
    intro r hr
    rw [List.mem_singleton.mp hr]
    exact hreport.isFail
  unfold updateRoleEntry at h
  dsimp only at h
  rw [roleRequest]
  split at h
  · rename_i hctrl
    cases h
    rw [if_pos (.inl hctrl)]
    exact ⟨rfl, not_saysSet_of_fail (List.mem_cons_of_mem _ (List.mem_singleton_self _)) rfl⟩
  rename_i hctrl
  split at h
  · rename_i hlen
    cases h
    rw [if_pos (.inr hlen)]
    exact ⟨rfl, not_saysSet_of_fail (List.mem_cons_of_mem _ (List.mem_singleton_self _)) rfl⟩
  rename_i hlen
  rw [if_neg (not_or.mpr ⟨hctrl, hlen⟩)]
  split at h
  · cases h
    exact accepted_outcome hchan (List.mem_singleton_self _) hreport hone hedit hlen rfl
  split at h
  · cases h
  · cases h
    refine accepted_outcome hchan (List.mem_cons_self ..) hreport ?_ hedit hlen rfl
    intro r hr
    obtain rfl | hr := List.mem_cons.mp hr
    · exact hreport.isFail
    · split_ifs at hr
      · rw [List.mem_singleton.mp hr]
        rfl
      · cases hr

theorem roleSetFlags_outcome {req : RoleRequest} {oldflags asked : Flags}
    (hchan : db.chans.find req.mc = some req.chan)
    (h : roleSetFlags cfg w db si req oldflags asked = .done db' replies) :
    StoreOutcome cfg db (roleSetRequest cfg req asked) db' replies := by
  unfold roleSetFlags at h
  rw [roleSetRequest]
  generalize (if test asked caFounder then asked ||| caFlags else asked) = newflags at h ⊢
  dsimp only at h ⊢
  split at h
  · rename_i h0
    cases h
    refine refused_single (if_pos (.inl h0)) ?_
    split_ifs <;> rfl
  rename_i h0
  split at h
  · rename_i t ht
    cases h
    exact refused_single (if_pos (.inr (by rw [ht]; exact Option.some_ne_none t))) rfl
  · rename_i ht
    rw [if_neg (not_or.mpr ⟨h0, fun hne => hne ht⟩)]
    exact updateRoleEntry_outcome hchan (.inl rfl) h

theorem rolePlan_error {cmd syntaxLine : String} {rs : List Reply}
    (h : rolePlan cfg w db si cmd syntaxLine channel parv = .error rs) :
    ∃ r ∈ rs, r.isFail = true := by
  unfold rolePlan at h
  cases hc : mychanFind cfg db channel with
  | none =>
    rw [hc] at h
    cases h
    exact ⟨_, List.mem_singleton_self _, rfl⟩
  | some found =>
    rw [hc] at h
    cases parv with
    | nil =>
      cases h
      exact ⟨_, List.mem_cons_self .., rfl⟩
    | cons role changes =>
      dsimp only at h
      split_ifs at h
      cases h
      exact ⟨_, List.mem_singleton_self _, rfl⟩

theorem refused_plan {rs : List Reply} (h : ∃ r ∈ rs, r.isFail = true) :
    StoreOutcome cfg db none db rs := by
  obtain ⟨r, hr, hfail⟩ := h
  exact ⟨rfl, not_saysSet_of_fail hr hfail⟩

theorem csCmdRoleAdd_outcome (h : csCmdRoleAdd cfg w db si channel parv = .done db' replies) :
    StoreOutcome cfg db ((StoreCommand.roleAdd channel parv).request cfg w db si) db' replies := by
  unfold csCmdRoleAdd at h
  rw [StoreCommand.request]
  cases hplan : rolePlan cfg w db si "ROLE ADD|SET" roleSyntax channel parv with
  | error rs =>
    rw [hplan] at h
    cases h
    exact refused_plan (rolePlan_error hplan)
  | ok req =>
    rw [hplan] at h
    have hchan := mychanFind_find (rolePlan_ok hplan).1
    dsimp only at h ⊢
    split_ifs at h with hold hdenied
    · cases h
      exact refused_single (if_pos (.inl hold)) rfl
    · cases h
      exact refused_single (if_pos (.inr hdenied)) rfl
    · rw [if_neg (not_or.mpr ⟨hold, hdenied⟩)]
      exact roleSetFlags_outcome hchan h

theorem csCmdRoleSet_outcome (h : csCmdRoleSet cfg w db si channel parv = .done db' replies) :
    StoreOutcome cfg db ((StoreCommand.roleSet channel parv).request cfg w db si) db' replies := by
  unfold csCmdRoleSet at h
  rw [StoreCommand.request]
  cases hplan : rolePlan cfg w db si "ROLE ADD|SET" roleSyntax channel parv with
  | error rs =>
    rw [hplan] at h
    cases h
    exact refused_plan (rolePlan_error hplan)
  | ok req =>
    rw [hplan] at h
    have hchan := mychanFind_find (rolePlan_ok hplan).1
    dsimp only at h ⊢
    split_ifs at h with hold hdenied hfounder
    · cases h
      exact refused_single (if_pos (.inl hold)) rfl
    · cases h
      exact refused_single (if_pos (.inr (.inl hdenied))) rfl
    · cases h
      exact refused_single (if_pos (.inr (.inr hfounder))) rfl
    · rw [if_neg (not_or.mpr ⟨hold, not_or.mpr ⟨hdenied, hfounder⟩⟩)]
      exact roleSetFlags_outcome hchan h

theorem csCmdRoleDel_outcome (h : csCmdRoleDel cfg w db si channel parv = .done db' replies) :
    StoreOutcome cfg db ((StoreCommand.roleDel channel parv).request cfg w db si) db' replies := by
  unfold csCmdRoleDel at h
  rw [StoreCommand.request]
  cases hplan : rolePlan cfg w db si "ROLE DEL" "Syntax: ROLE <#channel> DEL <role>" channel parv with
  | error rs =>
    rw [hplan] at h
    cases h
    exact refused_plan (rolePlan_error hplan)
  | ok req =>
    rw [hplan] at h
    have hchan := mychanFind_find (rolePlan_ok hplan).1
    dsimp only at h ⊢
    split_ifs at h with hold hdenied
    · cases h
      exact refused_single (if_pos (.inl hold)) rfl
    · cases h
      exact refused_single (if_pos (.inr hdenied)) rfl
    · rw [if_neg (not_or.mpr ⟨hold, hdenied⟩)]
      exact updateRoleEntry_outcome hchan (.inr (.inl ⟨rfl, rfl⟩)) h

theorem templateList_silent (mc : MyChanRef) (chan : MyChan) :
    ¬ SaysSet (templateList cfg w db si mc chan) := by
  apply not_saysSet_of_silent
  intro r hr
  rw [templateList] at hr
  split_ifs at hr
  · rw [List.mem_singleton.mp hr]
    rfl
  · rw [List.mem_singleton.mp hr]
    rfl
  · cases htext : chan.templates with
    | none =>
      rw [htext] at hr
      rw [List.mem_singleton.mp hr]
      simp [Reply.reports, roleChanged, roleDeleted, templateAdded, templateRemoved,
        templateChanged]
    | some text =>
      rw [htext] at hr
      obtain hr | hr := List.mem_append.mp hr
      · obtain ⟨i, -, rfl⟩ := List.mem_map.mp hr
        simp [Reply.reports, roleChanged, roleDeleted, templateAdded, templateRemoved,
          templateChanged]
      · rw [List.mem_singleton.mp hr]
        simp [Reply.reports, roleChanged, roleDeleted, templateAdded, templateRemoved,
          templateChanged]

theorem listGenericFlags_silent : ¬ SaysSet (listGenericFlags cfg) := by
  apply not_saysSet_of_silent
  intro r hr
  obtain hr | hr := List.mem_append.mp hr
  · obtain ⟨t, -, rfl⟩ := List.mem_map.mp hr
    simp [Reply.reports, roleChanged, roleDeleted, templateAdded, templateRemoved,
      templateChanged]
  · rw [List.mem_singleton.mp hr]
    decide

theorem templateChange_error {chan : MyChan} {flagstr : CString} {r : Reply}
    (h : templateChange cfg chan flagstr = .error r) : r.isFail = true := by
  unfold templateChange at h
  split at h
  · dsimp only at h
    split at h
    · cases h
      rfl
    · cases h
  · dsimp only at h
    split at h
    · cases h
      rfl
    · cases h

theorem templatePlan_error {rs : List Reply} (h : templatePlan cfg w db si parv = .error rs) :
    ¬ SaysSet rs := by
  have hfail : ∀ r : Reply, r.isFail = true → ¬ SaysSet [r] := fun r hr =>
    not_saysSet_of_fail (List.mem_singleton_self r) hr
  cases parv with
  | nil =>
    cases h
    exact listGenericFlags_silent
  | cons channel params =>
    simp only [templatePlan] at h
    cases hc : mychanFind cfg db channel with
    | none =>
      rw [hc] at h
      cases h
      exact hfail _ rfl
    | some found =>
      simp only [hc] at h
      obtain _ | ⟨target, _ | ⟨flagstr, rest⟩⟩ := params
      · cases h
        exact templateList_silent found.1 found.2
      · dsimp only at h
        split_ifs at h
        all_goals
          cases h
          exact hfail _ rfl
      · dsimp only at h
        split_ifs at h
        · cases h
          exact hfail _ rfl
        · cases h
          exact hfail _ rfl
        · cases h
          exact hfail _ rfl
        · cases h
          exact hfail _ rfl
        · split at h
          · rename_i r hr
            cases h
            exact hfail r (templateChange_error hr)
          · cases h

theorem templateRefusal_isFail {req : TemplateRequest} {e : TemplateEdit} {r : Reply}
    (h : templateRefusal cfg req e = some r) : r.isFail = true := by
  unfold templateRefusal at h
  split_ifs at h
  · cases h
    rfl
  · cases h
    rfl
  · cases h
    rfl
  · cases h
    rfl
  · cases h
    rfl
  · obtain ⟨i, -, rfl⟩ := Option.map_eq_some_iff.mp h
    rfl

theorem templateRefusal_short {req : TemplateRequest} {e : TemplateEdit}
    (h : templateRefusal cfg req e = none) : ¬ e.newstr.length ≥ 300 := by
  unfold templateRefusal at h
  split_ifs at h with h1 h2 h3 h4 h5
  exact h5

theorem templateReply_reports {req : TemplateRequest} {e : TemplateEdit} :
    (templateReply cfg req e).ReportsSet cfg.flagConfig
      ⟨req.mc, req.chan, req.target, e.newflags⟩ := by
  rw [templateReply]
  split_ifs with hold hnew
  · exact .inr (.inr (.inl rfl))
  · exact .inr (.inr (.inr (.inl ⟨hnew, rfl⟩)))
  · exact .inr (.inr (.inr (.inr rfl)))

theorem templateApply_outcome {req : TemplateRequest} (hchan : db.chans.find req.mc = some req.chan)
    (h : templateApply cfg w db si req = .done db' replies) :
    StoreOutcome cfg db
      (if templateRefusal cfg req (templateEdit cfg req.chan req.target req.change
          req.restrictflags) ≠ none then none
        else some ⟨req.mc, req.chan, req.target,
          (templateEdit cfg req.chan req.target req.change req.restrictflags).newflags⟩)
      db' replies := by
  unfold templateApply at h
  dsimp only at h
  generalize hsaid : (if (templateEdit cfg req.chan req.target req.change
    req.restrictflags).redefining = true then
      [Reply.success "Redefining built-in template \x02%s\x02." [req.target]] else []) = said at h
  have hsaidOk : ∀ r ∈ said, r.isFail = false := by
    intro r hr
    rw [← hsaid] at hr
    split_ifs at hr
    · rw [List.mem_singleton.mp hr]
      rfl
    · cases hr
  cases hrefusal : templateRefusal cfg req
      (templateEdit cfg req.chan req.target req.change req.restrictflags) with
  | some r =>
    rw [hrefusal] at h
    cases h
    rw [if_pos (Option.some_ne_none r)]
    exact ⟨rfl, not_saysSet_of_fail (List.mem_append_right _ (List.mem_singleton_self r))
      (templateRefusal_isFail hrefusal)⟩
  | none =>
    rw [hrefusal] at h
    dsimp only at h
    rw [if_neg (by simp)]
    have hedit := templateEdit_isEdit hrefusal
    have hshort := templateRefusal_short hrefusal
    generalize templateEdit cfg req.chan req.target req.change req.restrictflags = e at *
    have haccepted : ∀ extra : List Reply, (∀ r ∈ extra, r.isFail = false) →
        replies = said ++ [templateReply cfg req e] ++ extra →
        db'.chans = db.chans.set req.mc (setTemplates e.newstr req.chan) →
        StoreOutcome cfg db (some ⟨req.mc, req.chan, req.target, e.newflags⟩) db' replies := by
      rintro extra hextra rfl hdb
      refine accepted_outcome hchan ?_ templateReply_reports ?_ hedit hshort hdb
      · simp
      · intro r hr
        obtain hr | hr := List.mem_append.mp hr
        · obtain hr | hr := List.mem_append.mp hr
          · exact hsaidOk r hr
          · rw [List.mem_singleton.mp hr]
            exact templateReply_reports.isFail
        · exact hextra r hr
    split at h
    · cases h
    split at h
    · cases h
      exact haccepted [] (by simp) (by simp) rfl
    split at h
    · cases h
      refine haccepted _ ?_ (List.append_assoc ..) rfl
      intro r hr
      obtain hr | hr := List.mem_append.mp hr
      · rw [List.mem_singleton.mp hr]
        rfl
      · split_ifs at hr
        · rw [List.mem_singleton.mp hr]
          rfl
        · cases hr
    split at h
    · cases h
    · cases h
      refine haccepted _ ?_ rfl rfl
      intro r hr
      rw [List.mem_singleton.mp hr]
      rfl

theorem csCmdTemplate_outcome (h : csCmdTemplate cfg w db si parv = .done db' replies) :
    StoreOutcome cfg db ((StoreCommand.template parv).request cfg w db si) db' replies := by
  unfold csCmdTemplate at h
  rw [StoreCommand.request]
  cases hplan : templatePlan cfg w db si parv with
  | error rs =>
    rw [hplan] at h
    cases h
    exact ⟨rfl, templatePlan_error hplan⟩
  | ok req =>
    rw [hplan] at h
    cases parv with
    | nil => cases hplan
    | cons channel params =>
      exact templateApply_outcome (mychanFind_find (templatePlan_ok hplan).1) h

theorem exec_outcome (cmd : StoreCommand) (h : cmd.exec cfg w db si = .done db' replies) :
    StoreOutcome cfg db (cmd.request cfg w db si) db' replies := by
  cases cmd with
  | roleAdd channel parv => exact csCmdRoleAdd_outcome h
  | roleSet channel parv => exact csCmdRoleSet_outcome h
  | roleDel channel parv => exact csCmdRoleDel_outcome h
  | template parv => exact csCmdTemplate_outcome h

theorem exec_known (cmd : StoreCommand) (hknown : LevelsKnown cfg db.acl)
    (h : cmd.exec cfg w db si = .done db' replies) : LevelsKnown cfg db'.acl := by
  cases cmd with
  | roleAdd channel parv =>
    obtain rfl | ⟨mc, chan, -, hstep⟩ := csCmdRoleAdd_bulk h
    · exact hknown
    · exact hstep.known hknown
  | roleSet channel parv =>
    obtain rfl | ⟨mc, chan, -, oldflags, hstep⟩ := csCmdRoleSet_bulk h
    · exact hknown
    · exact hstep.known hknown
  | roleDel channel parv =>
    obtain rfl | ⟨mc, chan, -, oldflags, hstep⟩ := csCmdRoleDel_bulk h
    · exact hknown
    · exact hstep.known hknown
  | template parv =>
    cases parv with
    | nil =>
      cases h
      exact hknown
    | cons channel parv =>
      obtain rfl | ⟨mc, chan, -, hstep⟩ := csCmdTemplate_bulk h
      · exact hknown
      · exact hstep.known hknown

theorem roleRequest_flags {req : RoleRequest} {flags : Flags} {r : StoreRequest}
    (h : roleRequest cfg req flags = some r) : r.flags = flags := by
  rw [roleRequest, Option.ite_none_left_eq_some, Option.some.injEq] at h
  rw [← h.2]

theorem roleSetRequest_flags {req : RoleRequest} {asked : Flags} {r : StoreRequest}
    (hasked : Sub asked cfg.caAll) (h : roleSetRequest cfg req asked = some r) :
    Sub r.flags cfg.caAll ∧ r.flags ≠ 0#32 := by
  have h9 : Sub caFlags cfg.caAll := by
    refine (sub_iff _ _).mpr fun i hi => (caAll_basic cfg.flagConfig).1.has ?_
    rw [(has_caFlags i).mp hi]
    decide
  rw [roleSetRequest] at h
  rw [Option.ite_none_left_eq_some, not_or] at h
  obtain ⟨⟨hne, -⟩, h⟩ := h
  rw [roleRequest_flags h]
  refine ⟨?_, hne⟩
  split_ifs
  · exact or_sub_iff.mpr ⟨hasked, h9⟩
  · exact hasked

theorem request_known (cmd : StoreCommand) (hknown : LevelsKnown cfg db.acl) {req : StoreRequest}
    (h : cmd.request cfg w db si = some req) : Sub req.flags cfg.caAll := by
  cases cmd with
  | roleAdd channel parv =>
    rw [StoreCommand.request] at h
    split at h
    · cases h
    · rename_i req' hplan
      dsimp only at h
      rw [Option.ite_none_left_eq_some, not_or] at h
      obtain ⟨⟨-, hdenied⟩, h⟩ := h
      have hasked := sub_caAll_of_restrict hknown (rolePlan_ok hplan).2 (sub_of_not_test hdenied)
      exact (roleSetRequest_flags hasked h).1
  | roleSet channel parv =>
    rw [StoreCommand.request] at h
    split at h
    · cases h
    · rename_i req' hplan
      dsimp only at h
      rw [Option.ite_none_left_eq_some, not_or, not_or] at h
      obtain ⟨⟨-, hdenied, -⟩, h⟩ := h
      have hasked := sub_caAll_of_restrict hknown (rolePlan_ok hplan).2
        (or_sub_iff.mp (sub_of_not_test hdenied)).2
      exact (roleSetRequest_flags hasked h).1
  | roleDel channel parv =>
    rw [StoreCommand.request] at h
    split at h
    · cases h
    · dsimp only at h
      rw [Option.ite_none_left_eq_some] at h
      rw [roleRequest_flags h.2]
      exact zero_sub _
  | template parv =>
    rw [StoreCommand.request] at h
    split at h
    · cases h
    · rename_i req' hplan
      dsimp only at h
      rw [Option.ite_none_left_eq_some, not_not, Option.some.injEq] at h
      obtain ⟨hrefusal, rfl⟩ := h
      obtain ⟨hne, hdenied⟩ := templateRefusal_none hrefusal
      cases parv with
      | nil => cases hplan
      | cons channel params =>
        exact sub_caAll_of_restrict hknown (templatePlan_ok hplan).2
          (templateEdit_permitted hne hdenied).newflags

end commands

/-! ### Runs -/

inductive StoreEvent where
  | issued (e : Issued StoreCommand)
  /-- the rest of the program turns the database into this one -/
  | others (db : ChanDb)

structure StoreObs where
  e : Issued StoreCommand
  before : ChanDb
  after : ChanDb
  replies : List Reply

def storeStep (cfg : ChanConfig) (s : Option ChanDb) (ev : StoreEvent) :
    Option ChanDb × List StoreObs :=
  match s with
  | none => (none, [])
  | some db =>
    match ev with
    | .others db' => (some db', [])
    | .issued e =>
      match e.cmd.exec cfg e.w db e.si with
      | .crash => (none, [])
      | .done db' replies => (some db', [⟨e, db, db', replies⟩])

def KeepsTemplates (db db' : ChanDb) : Prop :=
  ∀ mc chan', db'.chans.find mc = some chan' → chan'.templates = none ∨
    ∃ chan, db.chans.find mc = some chan ∧ chan'.templates = chan.templates

def StoreSound (cfg : ChanConfig) (s : Option ChanDb) (ev : StoreEvent) : Prop :=
  ∀ db, s = some db →
    match ev with
    | .others db' => KeepsTemplates db db' ∧ LevelsKnown cfg db'.acl
    | .issued e => e.cmd.Sound cfg e.w db e.si

/-- A command that asks for a change which it does not refuse reports it and obeys the law, and
another command neither reports nor changes anything. -/
def StoreObs.Law (cfg : ChanConfig) (o : StoreObs) : Prop :=
  match o.e.cmd.request cfg o.e.w o.before o.e.si with
  | none => o.after.chans = o.before.chans ∧ ¬ SaysSet o.replies
  | some req => SaysSet o.replies ∧ (∃ r ∈ o.replies, r.ReportsSet cfg.flagConfig req) ∧
      o.before.chans.find req.mc = some req.chan ∧
      (∃ chan', o.after.chans.find req.mc = some chan' ∧
        StoreLaw cfg o.e.cmd.byTemplate req chan') ∧
      ∀ mc, mc ≠ req.mc → o.after.chans.find mc = o.before.chans.find mc

section run
variable {cfg : ChanConfig} {w : World} {db db' : ChanDb} {si : Source} {replies : List Reply}

theorem emptyTable_holds {chan : MyChan} (h : chan.templates = none) :
    ∃ st, TableWf st ∧ HoldsTable chan st :=
  ⟨.empty, ⟨nofun, nofun, nofun⟩, h⟩

theorem storeOk_of_none (h : ∀ mc chan, db.chans.find mc = some chan → chan.templates = none) :
    StoreOk db :=
  fun mc chan hf => emptyTable_holds (h mc chan hf)

theorem StoreOk.others (h : StoreOk db) (hkeep : KeepsTemplates db db') : StoreOk db' := by
  intro mc chan' hf
  obtain hnone | ⟨chan, hold, hsame⟩ := hkeep mc chan' hf
  · exact emptyTable_holds hnone
  · obtain ⟨st, hwf, hst⟩ := h mc chan hold
    exact ⟨st, hwf, hsame.trans hst⟩

theorem storeStep_law {e : Issued StoreCommand} (hok : StoreOk db) (hknown : LevelsKnown cfg db.acl)
    (hsound : e.cmd.Sound cfg e.w db e.si)
    (h : e.cmd.exec cfg e.w db e.si = .done db' replies) :
    StoreOk db' ∧ StoreObs.Law cfg ⟨e, db, db', replies⟩ := by
  have hout := exec_outcome e.cmd h
  unfold StoreObs.Law
  dsimp only
  cases hreq : e.cmd.request cfg e.w db e.si with
  | none =>
    rw [hreq] at hout
    refine ⟨fun mc chan hf => ?_, hout⟩
    rw [hout.1] at hf
    exact hok mc chan hf
  | some req =>
    rw [hreq] at hout
    obtain ⟨hchan, hsays, hreports, newstr, hedit, hlen, hdb⟩ := hout
    obtain ⟨st, hwf, hst⟩ := hok req.mc req.chan hchan
    obtain ⟨hname, hcover⟩ := hsound req hreq
    obtain ⟨hnew, hlaw⟩ := edit_law hedit hlen hst hwf hname (request_known e.cmd hknown hreq) hcover
    have hfind : ∀ mc, db'.chans.find mc = if mc = req.mc
        then some (setTemplates newstr req.chan) else db.chans.find mc := by
      intro mc
      rw [hdb, Registry.find_set]
      split_ifs with hmc
      · rw [hmc, hchan]
        rfl
      · rfl
    refine ⟨fun mc chan hf => ?_, hsays, hreports, hchan, ⟨_, by rw [hfind, if_pos rfl], hlaw⟩,
      fun mc hmc => by rw [hfind, if_neg hmc]⟩
    rw [hfind] at hf
    split_ifs at hf with hmc
    · cases hf
      exact hnew
    · exact hok mc chan hf

structure StoreInv (cfg : ChanConfig) (db : ChanDb) : Prop where
  store : StoreOk db
  known : LevelsKnown cfg db.acl

theorem storeStep_inv (s : Option ChanDb) (ev : StoreEvent) (hinv : ∀ db, s = some db → StoreInv cfg db)
    (hsound : StoreSound cfg s ev) :
    (∀ db, (storeStep cfg s ev).1 = some db → StoreInv cfg db) ∧
      ∀ o ∈ (storeStep cfg s ev).2, o.Law cfg := by
  cases s with
  | none => exact ⟨nofun, nofun⟩
  | some db =>
    have hdb := hinv db rfl
    have hev := hsound db rfl
    cases ev with
    | others db' =>
      refine ⟨fun db₁ h => ?_, nofun⟩
      cases h
      exact ⟨hdb.store.others hev.1, hev.2⟩
    | issued e =>
      rw [storeStep]
      cases hexec : e.cmd.exec cfg e.w db e.si with
      | crash => exact ⟨nofun, nofun⟩
      | done db' replies =>
        obtain ⟨hok, hlaw⟩ := storeStep_law hdb.store hdb.known hev hexec
        refine ⟨fun db₁ h => ?_, fun o ho => ?_⟩
        · cases h
          exact ⟨hok, exec_known e.cmd hdb.known hexec⟩
        · rw [List.mem_singleton.mp ho]
          exact hlaw

/-- In every run of ROLE and TEMPLATE commands by any sources in any worlds in which names are
written as they are read and ROLE DEL uncovers none of the network's, a name has the flags that
the command reports, and no other name has changed. -/
theorem template_store_laws (cfg : ChanConfig) (db : ChanDb) (es : List StoreEvent)
    (hstore : StoreOk db) (hknown : LevelsKnown cfg db.acl)
    (hsound : Guarded (storeStep cfg) (StoreSound cfg) (some db) es) :
    ∀ o ∈ (run (storeStep cfg) (some db) es).2, o.Law cfg := by
  have hinit : ∀ db', some db = some db' → StoreInv cfg db' := by
    intro db' h
    cases h
    exact ⟨hstore, hknown⟩
  exact run_guarded_emits storeStep_inv hinit hsound

/- A channel of alice's, with these templates of its own. -/
def foundedDb (metadata : Metadata) : ChanDb where
  accounts := sampleAccounts 0#32 []
  groups := .empty
  chans := ⟨[(0, sampleChan "#chan" head_chan metadata)], by simp⟩
  acl := ⟨[((0, .entity (.user 0)), sampleEntry (caFounder ||| caFlags))], by simp⟩

def roleEvent (cmd : StoreCommand) : StoreEvent := .issued ⟨sampleWorld, .irc sampleUser, cmd⟩

theorem foundedDb_known (metadata : Metadata) : LevelsKnown sampleConfig (foundedDb metadata).acl := by
  intro k
  rw [levelAt]
  cases hf : (foundedDb metadata).acl.find k with
  | none => exact zero_sub _
  | some ca =>
    have hmem := (Registry.find_eq_some_iff ..).mp hf
    have hca : (k, ca) = ((0, .entity (.user 0)), sampleEntry (caFounder ||| caFlags)) :=
      List.mem_singleton.mp hmem
    cases hca
    decide

theorem foundedDb_none (mc : MyChanRef) (chan : MyChan)
    (hf : (foundedDb []).chans.find mc = some chan) : chan.templates = none := by
  have hmem := (Registry.find_eq_some_iff ..).mp hf
  have hchan : (mc, chan) = (0, sampleChan "#chan" rfl []) := List.mem_singleton.mp hmem
  cases hchan
  rfl

/-- A role is added to a channel without templates. -/
theorem template_store_laws_helper :
    (run (storeStep sampleConfig) (some (foundedDb []))
      [roleEvent (.roleAdd "#chan".toList ["helper".toList, "+op".toList])]).2.Forall
      (StoreObs.Law sampleConfig) := by
  apply List.forall_iff_forall_mem.mpr
  apply template_store_laws sampleConfig (foundedDb []) _ (storeOk_of_none foundedDb_none)
    (foundedDb_known [])
  refine ⟨fun db hdb req hreq => ?_, trivial⟩
  cases hdb
  have hname : (StoreCommand.request sampleConfig sampleWorld (foundedDb []) (.irc sampleUser)
      (.roleAdd "#chan".toList ["helper".toList, "+op".toList])).all
        (fun r => decide (NameOk r.role ∧ r.flags ≠ 0#32)) = true := by
    decide +kernel
  rw [hreq, Option.all_some, decide_eq_true_eq] at hname
  exact ⟨hname.1, fun _ huncovers => hname.2 huncovers.1⟩

/-- ROLE ADD of `a=b` says that it has set this name, which has no flags afterwards, while the
name `a` has them. -/
theorem marked_name_lost :
    ∃ db' replies chan',
      (StoreCommand.roleAdd "#chan".toList ["a=b".toList, "+op".toList]).exec sampleConfig
        sampleWorld (foundedDb []) (.irc sampleUser) = .done db' replies ∧
      replies = [.success roleChanged ["a=b".toList, xflagTostr sampleConfig.flagConfig caOp]] ∧
      db'.chans.find 0 = some chan' ∧
      getTemplateFlags sampleConfig (some chan') "a=b".toList = 0#32 ∧
      getTemplateFlags sampleConfig ((foundedDb []).chans.find 0) "a".toList = 0#32 ∧
      getTemplateFlags sampleConfig (some chan') "a".toList = caOp := by
  exact ⟨_, _, _, rfl, by decide +kernel, rfl, by decide +kernel, by decide +kernel,
    by decide +kernel⟩

end run

end ChatServices.ChanServ
