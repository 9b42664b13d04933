import ChatServices.ChanServ.TemplateStore

/-! Names of levels. `get_template_name` looks through the channel's templates and then through
the network's, and `get_template_flags` asks the network only about names that the channel does
not use: a name found in the network's dictionary may have other flags on the channel. -/
namespace ChatServices.ChanServ
open ChatServices.Lib ChatServices.Lib.Mask ChatServices.Lib.PairText ChatServices.Lib.Run
open ChatServices.Storage ChatServices.Text

def DictWf (cfg : ChanConfig) : Prop :=
  (cfg.globalTemplates.map (fun t => strcasecanon t.1)).Nodup

instance (cfg : ChanConfig) : Decidable (DictWf cfg) := inferInstanceAs (Decidable (List.Nodup _))

def networkTemplate (cfg : ChanConfig) (level : Flags) : Option (CString × Flags) :=
  cfg.globalTemplates.reverse.find? (fun t => t.2 &&& cfg.caAll = level)

def Shadowed (cfg : ChanConfig) (mc : MyChan) (level : Flags) : Prop :=
  (∀ item ∈ templateItems (mc.templates.getD []), item.flags cfg.flagConfig ≠ level) ∧
    ∃ t ∈ networkTemplate cfg level, (ownItem mc t.1).isSome

section dictionary
variable {cfg : ChanConfig} {level : Flags} {t : CString × Flags}

theorem networkTemplate_level (h : networkTemplate cfg level = some t) :
    t.2 &&& cfg.caAll = level := by
  have hlevel := List.find?_some h
  simpa using hlevel

theorem networkTemplate_mem (h : networkTemplate cfg level = some t) :
    t ∈ cfg.globalTemplates := by
  have hmem := List.mem_of_find?_eq_some h
  rwa [List.mem_reverse] at hmem

theorem find?_dict {ts : List (CString × Flags)}
    (hnd : (ts.map (fun t => strcasecanon t.1)).Nodup) (h : t ∈ ts) :
    ts.find? (fun t' => strcaseEq t'.1 t.1) = some t := by
  induction ts with
  | nil => cases h
  | cons t' ts ih =>
    rw [List.map_cons, List.nodup_cons] at hnd
    cases h with
    | head => rw [List.find?_cons_of_pos (by simp [strcaseEq])]
    | tail _ h =>
      have hne : strcaseEq t'.1 t.1 = false := by
        rw [strcaseEq, decide_eq_false_iff_not]
        intro he
        apply hnd.1
        rw [he]
        exact List.mem_map_of_mem h
      rw [List.find?_cons_of_neg (by simp [hne])]
      exact ih hnd.2 h

theorem getGlobalTemplateFlags_mem (hdict : DictWf cfg) (h : t ∈ cfg.globalTemplates) :
    getGlobalTemplateFlags cfg t.1 = t.2 &&& cfg.caAll := by
  rw [getGlobalTemplateFlags, find?_dict hdict h]
  rfl

end dictionary

/-! ### Names by the table -/

section table
variable {cfg : ChanConfig} {chan : MyChan} {st : TemplateTable} {level : Flags} {n : CString}
  {item : TemplateItem} {ps : List (Pair Char)}

theorem mem_pairItems {off : Nat} (h : item ∈ pairItems off ps) :
    ∃ p ∈ ps, item.name = p.1 ∧ item.value = '=' :: p.2 := by
  induction ps generalizing off with
  | nil => cases h
  | cons q ps ih =>
    rw [pairItems] at h
    cases h with
    | head => exact ⟨q, List.mem_cons_self .., rfl, rfl⟩
    | tail _ h =>
      obtain ⟨p, hp, hitem⟩ := ih h
      exact ⟨p, List.mem_cons_of_mem q hp, hitem⟩

theorem item_entry (hst : HoldsTable chan st) (hwf : TableWf st)
    (h : item ∈ templateItems (chan.templates.getD [])) :
    ∃ e ∈ st.entries, item.name = e.2.1 ∧ item.value = '=' :: e.2.2 := by
  rw [hst.getD, tableText, templateItems_join hwf.allPairs] at h
  obtain ⟨p, hp, hitem⟩ := mem_pairItems h
  obtain ⟨e, he, rfl⟩ := List.mem_map.mp hp
  exact ⟨e, he, hitem⟩

theorem item_flags (hst : HoldsTable chan st) (hwf : TableWf st)
    (h : item ∈ templateItems (chan.templates.getD [])) :
    getTemplateFlags cfg (some chan) item.name = item.flags cfg.flagConfig := by
  obtain ⟨e, he, hname, hvalue⟩ := item_entry hst hwf h
  have hkey : e.1 = strcasecanon item.name := by
    rw [hname]
    exact hwf.keyed e he
  have hf : st.find (strcasecanon item.name) = some e.2 := by
    rw [← hkey]
    exact (Registry.find_eq_some_iff ..).mpr he
  have hwhole : truncate 40 item.value = item.value := by
    have hshort := hwf.short e he
    rw [flagTextMax] at hshort
    rw [truncate, List.take_of_length_le]
    rw [hvalue, List.length_cons]
    omega
  rw [getTemplateFlags_table hst hwf, tableFlags, hf, TemplateItem.flags, hwhole, hvalue]

theorem item_name_whole (hst : HoldsTable chan st) (hwf : TableWf st)
    (hshort : (chan.templates.getD []).length < 300)
    (h : item ∈ templateItems (chan.templates.getD [])) : truncate 400 item.name = item.name := by
  obtain ⟨e, he, hname, -⟩ := item_entry hst hwf h
  have hlen : e.2.1.length ≤ (tableText st).length := name_length_le (List.mem_map_of_mem he)
  rw [hst.getD] at hshort
  rw [truncate, List.take_of_length_le]
  rw [hname]
  omega

theorem ownItem_flags (hst : HoldsTable chan st) (hwf : TableWf st)
    (h : (ownItem chan n).isSome) :
    ∃ item ∈ templateItems (chan.templates.getD []),
      getTemplateFlags cfg (some chan) n = item.flags cfg.flagConfig := by
  obtain ⟨item, hown⟩ := Option.isSome_iff_exists.mp h
  have hmem := List.mem_of_find?_eq_some hown
  have hname := List.find?_some hown
  rw [strcaseEq, decide_eq_true_eq] at hname
  refine ⟨item, hmem, ?_⟩
  rw [← item_flags hst hwf hmem, getTemplateFlags_table hst hwf, getTemplateFlags_table hst hwf,
    tableFlags, tableFlags, hname]
  have hglobal : getGlobalTemplateFlags cfg n = getGlobalTemplateFlags cfg item.name := by
    rw [getGlobalTemplateFlags, getGlobalTemplateFlags]
    simp only [strcaseEq, hname]
  rw [hglobal]

theorem getTemplateFlags_notOwn (hst : HoldsTable chan st) (hwf : TableWf st)
    (h : ¬ (ownItem chan n).isSome) :
    getTemplateFlags cfg (some chan) n = getGlobalTemplateFlags cfg n := by
  have hsame := @ownItem_isSome ⟨0, chan, n, 0#32⟩ st hst hwf
  rw [hsame] at h
  rw [getTemplateFlags_table hst hwf, tableFlags]
  cases hf : st.find (strcasecanon n) with
  | none => rfl
  | some p =>
    rw [hf] at h
    exact absurd rfl h

theorem getTemplateName_faithful_iff (hdict : DictWf cfg) (hst : HoldsTable chan st)
    (hwf : TableWf st) (hshort : (chan.templates.getD []).length < 300)
    (h : getTemplateName cfg chan level = some n) :
    getTemplateFlags cfg (some chan) n = level ↔ ¬ Shadowed cfg chan level := by
  rw [getTemplateName] at h
  split at h
  · rename_i item hitem
    obtain rfl := Option.some.inj h
    have hmem := List.mem_of_find?_eq_some hitem
    have hlevel := List.find?_some hitem
    rw [decide_eq_true_eq] at hlevel
    rw [item_name_whole hst hwf hshort hmem, item_flags hst hwf hmem]
    refine iff_of_true hlevel ?_
    rintro ⟨hnone, -⟩
    exact hnone item hmem hlevel
  · rename_i hnone
    have hother : ∀ item ∈ templateItems (chan.templates.getD []),
        item.flags cfg.flagConfig ≠ level := by
      intro item hitem
      simpa using List.find?_eq_none.mp hnone item hitem
    obtain ⟨t, ht, rfl⟩ := Option.map_eq_some_iff.mp h
    have hlevel := networkTemplate_level ht
    have hmem := networkTemplate_mem ht
    by_cases hown : (ownItem chan t.1).isSome
    · have howner : ∃ item ∈ templateItems (chan.templates.getD []),
          getTemplateFlags cfg (some chan) t.1 = item.flags cfg.flagConfig :=
        ownItem_flags hst hwf hown
      obtain ⟨item, hitem, hflags⟩ := howner
      rw [hflags]
      exact iff_of_false (hother item hitem) (not_not.mpr ⟨hother, t, ht, hown⟩)
    · rw [getTemplateFlags_notOwn hst hwf hown, getGlobalTemplateFlags_mem hdict hmem]
      refine iff_of_true hlevel ?_
      rintro ⟨-, t', ht', hown'⟩
      rw [networkTemplate, Option.mem_def] at ht'
      rw [ht] at ht'
      cases ht'
      exact hown hown'

end table

/-! ### Runs -/

structure NamesInv (db : ChanDb) : Prop where
  store : StoreOk db
  short : ∀ mc chan, db.chans.find mc = some chan → (chan.templates.getD []).length < 300

def NamesSound (cfg : ChanConfig) (s : Option ChanDb) (ev : StoreEvent) : Prop :=
  ∀ db, s = some db →
    match ev with
    | .others db' => KeepsTemplates db db'
    | .issued e => ∀ req, e.cmd.request cfg e.w db e.si = some req → NameOk req.role

section run
variable {cfg : ChanConfig} {db db' : ChanDb} {replies : List Reply}

theorem NamesInv.others (h : NamesInv db) (hkeep : KeepsTemplates db db') : NamesInv db' := by
  refine ⟨h.store.others hkeep, fun mc chan' hf => ?_⟩
  obtain hnone | ⟨chan, hold, hsame⟩ := hkeep mc chan' hf
  · simp [hnone]
  · rw [hsame]
    exact h.short mc chan hold

theorem NamesInv.write {mc : MyChanRef} {chan : MyChan} {newstr : CString} {st : TemplateTable}
    (h : NamesInv db) (hchan : db.chans.find mc = some chan) (hlen : newstr.length < 300)
    (hwf : TableWf st) (hst : HoldsTable (setTemplates newstr chan) st)
    (hdb : db'.chans = db.chans.set mc (setTemplates newstr chan)) : NamesInv db' := by
  have hfind : ∀ mc' chan', db'.chans.find mc' = some chan' →
      chan' = setTemplates newstr chan ∨ db.chans.find mc' = some chan' := by
    intro mc' chan' hf
    rw [hdb, Registry.find_set] at hf
    split_ifs at hf with hmc
    · rw [hmc, hchan] at hf
      cases hf
      exact .inl rfl
    · exact .inr hf
  refine ⟨fun mc' chan' hf => ?_, fun mc' chan' hf => ?_⟩
  · obtain rfl | hold := hfind mc' chan' hf
    · exact ⟨st, hwf, hst⟩
    · exact h.store mc' chan' hold
  · obtain rfl | hold := hfind mc' chan' hf
    · rw [templates_setTemplates]
      by_cases hnil : newstr = []
      · simp [hnil]
      · rw [if_neg hnil]
        exact hlen
    · exact h.short mc' chan' hold

theorem storeStep_names (s : Option ChanDb) (ev : StoreEvent)
    (hinv : ∀ db, s = some db → NamesInv db) (hsound : NamesSound cfg s ev) :
    ∀ db, (storeStep cfg s ev).1 = some db → NamesInv db := by
  cases s with
  | none =>
    intro db h
    cases h
  | some db =>
    have hdb := hinv db rfl
    have hev := hsound db rfl
    cases ev with
    | others db' =>
      intro db₁ h
      cases h
      exact hdb.others hev
    | issued e =>
      rw [storeStep]
      cases hexec : e.cmd.exec cfg e.w db e.si with
      | crash =>
        intro db₁ h
        cases h
      | done db' replies =>
        intro db₁ h
        cases h
        have hout := exec_outcome e.cmd hexec
        cases hreq : e.cmd.request cfg e.w db e.si with
        | none =>
          rw [hreq] at hout
          apply hdb.others
          intro mc chan hf
          rw [hout.1] at hf
          exact .inr ⟨chan, hf, rfl⟩
        | some req =>
          rw [hreq] at hout
          obtain ⟨hchan, -, -, newstr, hedit, hlen, hwritten⟩ := hout
          obtain ⟨st, hwf, hst⟩ := hdb.store req.mc req.chan hchan
          obtain ⟨flagstr, -, hwf', hst'⟩ := hedit.table hlen hst hwf (hev req hreq)
          exact hdb.write hchan hlen hwf' hst' hwritten

/-- After any run of ROLE and TEMPLATE commands, a name that is found for a level has that level,
unless no template of the channel has it and the network's has a name that the channel uses. -/
theorem template_names_faithful_iff (cfg : ChanConfig) (db : ChanDb) (es : List StoreEvent)
    (hdict : DictWf cfg) (hstart : NamesInv db)
    (hsound : Guarded (storeStep cfg) (NamesSound cfg) (some db) es) :
    ∀ db', (run (storeStep cfg) (some db) es).1 = some db' →
      ∀ mc chan, db'.chans.find mc = some chan → ∀ level n,
        getTemplateName cfg chan level = some n →
          (getTemplateFlags cfg (some chan) n = level ↔ ¬ Shadowed cfg chan level) := by
  have hinit : ∀ db', some db = some db' → NamesInv db' := by
    intro db' h
    cases h
    exact hstart
  have hend := run_state_invariant storeStep_names hinit hsound
  intro db' hdb' mc chan hf level n hname
  have hinv := hend db' hdb'
  obtain ⟨st, hwf, hst⟩ := hinv.store mc chan hf
  exact getTemplateName_faithful_iff hdict hst hwf (hinv.short mc chan hf) hname

/-- A role is added to a channel without templates, and its flags then have its name. -/
theorem template_names_faithful_helper :
    ∃ db' chan, (run (storeStep sampleConfig) (some (foundedDb []))
        [roleEvent (.roleAdd "#chan".toList ["helper".toList, "+op".toList])]).1 = some db' ∧
      db'.chans.find 0 = some chan ∧
      getTemplateName sampleConfig chan caOp = some "helper".toList ∧
      (getTemplateFlags sampleConfig (some chan) "helper".toList = caOp ↔
        ¬ Shadowed sampleConfig chan caOp) := by
  have hstart : NamesInv (foundedDb []) := by
    refine ⟨storeOk_of_none foundedDb_none, fun mc chan hf => ?_⟩
    simp [foundedDb_none mc chan hf]
  have hsound : Guarded (storeStep sampleConfig) (NamesSound sampleConfig) (some (foundedDb []))
      [roleEvent (.roleAdd "#chan".toList ["helper".toList, "+op".toList])] := by
    refine ⟨fun db hdb req hreq => ?_, trivial⟩
    cases hdb
    have hname : (StoreCommand.request sampleConfig sampleWorld (foundedDb []) (.irc sampleUser)
        (.roleAdd "#chan".toList ["helper".toList, "+op".toList])).all
          (fun r => decide (NameOk r.role)) = true := by
      decide +kernel
    rw [hreq, Option.all_some, decide_eq_true_eq] at hname
    exact hname
  refine ⟨_, _, rfl, rfl, by decide +kernel, ?_⟩
  exact template_names_faithful_iff sampleConfig (foundedDb []) _ (by decide) hstart hsound _ rfl 0 _
    rfl caOp _ (by decide +kernel)

/-- ROLE SET gives the channel's VOP one flag more than the network's has. The network's flags
are still called VOP, which has others on this channel. -/
theorem overridden_name :
    ∃ db' replies chan',
      (StoreCommand.roleSet "#chan".toList ["VOP".toList, "+op".toList]).exec sampleConfig
        sampleWorld (foundedDb []) (.irc sampleUser) = .done db' replies ∧
      db'.chans.find 0 = some chan' ∧
      getTemplateName sampleConfig chan' caVoice = some "VOP".toList ∧
      getTemplateFlags sampleConfig (some chan') "VOP".toList = caVoice ||| caOp ∧
      getTemplateFlags sampleConfig (some chan') "VOP".toList ≠ caVoice := by
  exact ⟨_, _, _, rfl, rfl, by decide +kernel, by decide +kernel, by decide +kernel⟩

end run

end ChatServices.ChanServ
