import ChatServices.Storage.ChannelTable

/-! What is left of a channel after its rows have been written and loaded again. -/
namespace ChatServices.Storage
open ChatServices.Lib ChatServices.Lib.Mask ChatServices.Lib.Rows ChatServices.Text
open ChatServices.ChanServ

def keptSetter (ents : EntityTable) (uid : CString) : CString :=
  if (ents.findUid uid).isSome then uid else []

def keptEntry (ents : EntityTable) (e : StoredTarget × Chanacs) : StoredTarget × Chanacs :=
  (e.1, { e.2 with setterUid := keptSetter ents e.2.setterUid })

def keptChan (ents : EntityTable) (mc : StoredChan) : StoredChan :=
  { mc with
    flags := mc.flags &&& Letters.union mcFlags
    chanacs := mc.chanacs.map (keptEntry ents) }

/-! ### What can be stored -/

structure StorableMetadata (md : Metadata) : Prop where
  names : ∀ e ∈ md, IsWord e.1
  values : ∀ e ∈ md, IsLine e.2
  nodup : (md.map fun e => strcasecanon e.1).Nodup

/-- A key as MLOCK takes it, and without the character that ends a key for `strip`. -/
structure StorableKey (key : CString) : Prop where
  word : IsWord key
  nonempty : key ≠ []
  length : key.length < 4096
  start : key.head? ≠ some ':'
  chars : ',' ∉ key ∧ '\r' ∉ key ∧ '\x01' ∉ key

def TargetNamed (ents : EntityTable) : StoredTarget → Prop
  | .entity mt => ents.find mt.name = some mt ∧ IsWord mt.name
  | .host mask => ents.find mask = none ∧ validhostmask mask = true ∧ IsLine mask

structure SetterNamed (ents : EntityTable) (uid : CString) : Prop where
  found : ∀ mt, uid ≠ [] → ents.findUid uid = some mt →
    ents.find mt.name = some mt ∧ IsWord mt.name ∧ truncate idLen mt.id = uid
  star : ents.find ['*'] = none

structure StorableEntry (cfg : ChanConfig) (ents : EntityTable) (e : StoredTarget × Chanacs) :
    Prop where
  target : TargetNamed ents e.1
  level : Sub e.2.level cfg.caAll
  tmodified : e.2.tmodified < 2 ^ 64
  setter : SetterNamed ents e.2.setterUid
  metadata : StorableMetadata e.2.metadata

def SameTarget : StoredTarget → StoredTarget → Prop
  | .entity mt, .entity mt' => mt = mt'
  | .host mask, .host mask' => strcaseEq mask mask' = true
  | _, _ => False

structure StorableChan (cfg : ChanConfig) (ents : EntityTable) (mc : StoredChan) : Prop where
  name : IsWord mc.name
  hash : mc.name.head? = some '#'
  length : mc.name.length < 4096
  registered : mc.registered < 2 ^ 64
  used : mc.used < 2 ^ 64
  key : ∀ key, mc.mlockKey = some key → StorableKey key
  metadata : StorableMetadata mc.metadata
  entries : ∀ e ∈ mc.chanacs, StorableEntry cfg ents e
  single : mc.chanacs.Pairwise fun e e' => ¬ SameTarget e.1 e'.1

structure StorableChans (cfg : ChanConfig) (ents : EntityTable) (chans : List StoredChan) : Prop where
  each : ∀ mc ∈ chans, StorableChan cfg ents mc
  names : (chans.map fun mc => mychanKey cfg mc.name).Nodup

/-! ### Rows and cells -/

section rows
variable {cfg : ChanConfig} {ents : EntityTable} {now : Nat} {st : ChanLoader}

theorem loadRow_writeRow {type : String} (hword : ' ' ∉ type.toList)
    (hstart : ∃ c s, type.toList = c :: s ∧ c ∉ ['#', '\n', '\t', ' ', '\r'])
    (words : List CString) (rest : CString) :
    loadRow cfg ents now st (writeRow type words rest) =
      ((dbProcess cfg ents now st type.toList).run (some (writeCells ' ' words rest))).map
        Prod.fst :=
  parseRow_writeRow hword hstart words rest

theorem gflags_isWord {rows : GFlags} (h : ' ' ∉ rows.map Prod.fst ∧ '\n' ∉ rows.map Prod.fst)
    (flags : Flags) : IsWord (gflagsTostr rows flags) := by
  have hletters : ∀ c ∈ Letters.encode rows flags, c ∈ rows.map Prod.fst := by
    intro c hc
    obtain ⟨r, hr, -, rfl⟩ := Letters.mem_encode.mp hc
    exact List.mem_map_of_mem hr
  constructor
  · rw [gflagsTostr, List.mem_cons, not_or]
    exact ⟨by decide, fun hc => h.1 (hletters _ hc)⟩
  · rw [gflagsTostr, List.mem_cons, not_or]
    exact ⟨by decide, fun hc => h.2 (hletters _ hc)⟩

theorem level_isWord (fc : FlagConfig) (level : Flags) : IsWord (bitmaskToFlags fc level) := by
  have hletters : ' ' ∉ (levelRows fc).map Prod.fst ∧ '\n' ∉ (levelRows fc).map Prod.fst := by
    rw [levelRows_eq]
    cases fc.successorAcl <;> decide
  rw [bitmaskToFlags, flagChars_eq]
  exact gflags_isWord hletters level

theorem nil_isWord : IsWord [] := ⟨List.not_mem_nil, List.not_mem_nil⟩

theorem strip_eq_self {line : CString} (h : '\n' ∉ line ∧ '\r' ∉ line ∧ '\x01' ∉ line) :
    strip line = line := by
  have htake : ∀ c, c ∉ line → line.takeWhile (· ≠ c) = line := by
    intro c hc
    refine List.takeWhile_eq_self_iff.mpr fun d hd => ?_
    simpa using fun heq : d = c => hc (heq ▸ hd)
  rw [strip, htake _ h.1, htake _ h.2.1, htake _ h.2.2]

theorem loadedKey_eq {key : CString} (h : StorableKey key) : loadedKey key = some key := by
  have hlen : truncate 4096 key = key := by
    rw [truncate, List.take_of_length_le]
    have := h.length
    omega
  have hstrip : strip key = key := strip_eq_self ⟨h.word.2, h.chars.2⟩
  rw [loadedKey, hlen, hstrip]
  exact if_pos ⟨h.nonempty, h.start, h.chars.1⟩

theorem validhostmask_blank {mask : CString} (h : validhostmask mask = true) : ' ' ∉ mask := by
  simp only [validhostmask, Bool.and_eq_true, Bool.not_eq_true'] at h
  simpa using h.1.1.1.1.1

theorem TargetNamed.word {t : StoredTarget} (h : TargetNamed ents t) : IsWord t.name := by
  cases t with
  | entity mt => exact h.2
  | host mask => exact ⟨validhostmask_blank h.2.1, h.2.2⟩

theorem TargetNamed.loaded {t : StoredTarget} (h : TargetNamed ents t) :
    loadedTarget ents t.name = some t := by
  cases t with
  | entity mt =>
    have hfind : ents.find mt.name = some mt := h.1
    simp only [loadedTarget, StoredTarget.name, hfind]
  | host mask =>
    have hfind : ents.find mask = none := h.1
    simp only [loadedTarget, StoredTarget.name, hfind]
    exact if_pos h.2.1

theorem star_isWord : IsWord ['*'] := by
  decide

theorem SetterNamed.word {uid : CString} (h : SetterNamed ents uid) :
    IsWord (setterName ents uid) := by
  rw [setterName]
  split_ifs with huid
  · exact star_isWord
  · cases hf : ents.findUid uid with
    | none => exact star_isWord
    | some mt => exact (h.found mt huid hf).2.1

theorem SetterNamed.loaded {uid : CString} (h : SetterNamed ents uid) :
    truncate idLen (((ents.find (setterName ents uid)).map Ent.id).getD []) =
      keptSetter ents uid := by
  rw [setterName, keptSetter]
  split_ifs with huid hsome hsome
  · rw [h.star, huid]
    rfl
  · rw [h.star]
    rfl
  · obtain ⟨mt, hf⟩ := Option.isSome_iff_exists.mp hsome
    obtain ⟨hname, -, hid⟩ := h.found mt huid hf
    rw [hf, Option.map_some, Option.getD_some, hname]
    exact hid
  · rw [Option.not_isSome_iff_eq_none] at hsome
    rw [hsome, Option.map_none, Option.getD_none, h.star]
    rfl

/-! ### One row at a time -/

def StoredChan.withChanacs (mc : StoredChan) (list : List (StoredTarget × Chanacs)) : StoredChan :=
  { mc with chanacs := list }

def StoredChan.withMetadata (mc : StoredChan) (md : Metadata) : StoredChan :=
  { mc with metadata := md }

def bareEntry (ents : EntityTable) (e : StoredTarget × Chanacs) : StoredTarget × Chanacs :=
  (e.1, { (keptEntry ents e).2 with metadata := [] })

def withChan (cfg : ChanConfig) (mc : StoredChan) (st : ChanLoader) : ChanLoader :=
  { st with mclist := st.mclist.insertNew (mychanKey cfg mc.name) mc }

structure Ready (cfg : ChanConfig) (st : ChanLoader) : Prop where
  dbv : st.dbv = 12#32
  caAll : st.theirCaAll = cfg.caAll

structure Filling (cfg : ChanConfig) (st : ChanLoader) (name : CString) : Prop extends Ready cfg st where
  word : IsWord name
  hash : name.head? = some '#'
  fresh : st.mychanFind cfg name = none

variable {mc : StoredChan} {e : StoredTarget × Chanacs}

theorem Ready.withChan (h : Ready cfg st) : Ready cfg (withChan cfg mc st) := ⟨h.dbv, h.caAll⟩

theorem modify_withChan {name : CString} {f : StoredChan → StoredChan} (hmc : mc.name = name)
    (hname : (f mc).name = name) (hnew : st.mychanFind cfg name = none) :
    (withChan cfg mc st).modify cfg name f = withChan cfg (f mc) st := by
  rw [ChanLoader.modify, withChan, hmc, Registry.modify_insertNew hnew, withChan, hname]

theorem find_withChan (hnew : st.mychanFind cfg mc.name = none) :
    (withChan cfg mc st).mychanFind cfg mc.name = some mc := by
  have hf : st.mclist.find (mychanKey cfg mc.name) = none := hnew
  rw [ChanLoader.mychanFind, withChan, Registry.find_insertNew, hf, if_pos rfl]
  rfl

theorem caExempt_known : test cfg.caAll caExempt = true := by
  have h : ∀ fc : FlagConfig, test fc.caAll caExempt = true := by
    intro fc
    obtain ⟨successor, halfops, protect, owner⟩ := fc
    cases successor <;> cases halfops <;> cases protect <;> cases owner <;> decide
  exact h cfg.flagConfig

theorem loadRows_head : ∃ st, loadRows cfg ents now .empty (headRows cfg.flagConfig) = some st ∧
    Ready cfg st ∧ st.mclist = .empty := by
  have hdbv : loadRow cfg ents now .empty (writeRow "DBV" [natArg 12] []) =
      some ⟨12#32, 0#32, .empty⟩ := by
    rw [loadRow_writeRow (by decide) ⟨'D', "BV".toList, rfl, by decide⟩]
    show ((corestorageHDbv .empty) _).map Prod.fst = _
    have hint : natArg 12 = natArg (12#32).toNat := rfl
    rw [corestorageHDbv, hint, sreadInt_bind]
    rfl
  have hcf : loadRow cfg ents now ⟨12#32, 0#32, .empty⟩
      (writeRow "CF" [bitmaskToFlags cfg.flagConfig cfg.flagConfig.caAll] []) =
      some ⟨12#32, cfg.caAll, .empty⟩ := by
    rw [loadRow_writeRow (by decide) ⟨'C', "F".toList, rfl, by decide⟩]
    show ((corestorageHCf cfg _) _).map Prod.fst = _
    rw [corestorageHCf, sreadWord_bind (level_isWord _ _),
      flagsToBitmask_bitmaskToFlags cfg.flagConfig (Sub.refl _)]
    rfl
  refine ⟨⟨12#32, cfg.caAll, .empty⟩, ?_, ⟨rfl, rfl⟩, rfl⟩
  simp only [loadRows, headRows, List.foldlM_cons, List.foldlM_nil, hdbv, hcf, Option.bind_eq_bind,
    Option.bind_some]
  rfl

theorem loadRow_mc (h : StorableChan cfg ents mc) (hst : Ready cfg st)
    (hnew : st.mychanFind cfg mc.name = none) : loadRow cfg ents now st (mcRow mc) =
      some (withChan cfg (((keptChan ents mc).withMetadata []).withChanacs []) st) := by
  have hlen : truncate 4096 mc.name = mc.name := by
    rw [truncate, List.take_of_length_le]
    have := h.length
    omega
  have hkey : IsWord (mc.mlockKey.getD []) := by
    cases hk : mc.mlockKey with
    | none => exact nil_isWord
    | some key => exact (h.key key hk).word
  have hflags : IsWord (gflagsTostr mcFlags mc.flags) := gflags_isWord (by decide) mc.flags
  have hdbv : 8#32 ≤ (mychanAdd cfg now mc.name st).dbv := by
    have heq : (mychanAdd cfg now mc.name st).dbv = 12#32 := hst.dbv
    rw [heq]
    decide
  have hloaded : ((some (mc.mlockKey.getD [])).bind loadedKey).or none = mc.mlockKey := by
    cases hk : mc.mlockKey with
    | none => rfl
    | some key =>
      have hread : loadedKey key = some key := loadedKey_eq (h.key key hk)
      rw [Option.getD_some, Option.bind_some, hread]
      rfl
  rw [mcRow, loadRow_writeRow (by decide) ⟨'M', "C".toList, rfl, by decide⟩]
  show ((corestorageHMc cfg now st) _).map Prod.fst = _
  rw [corestorageHMc, sreadWord_bind h.name]
  dsimp only
  rw [sreadTime_bind h.registered, sreadTime_bind h.used, hlen, if_pos hdbv, bind_assoc,
    sreadWord_bind hflags, pure_bind, sreadUint_bind, sreadUint_bind, sreadUint_bind,
    readWord_bind hkey, mcFlags_readback]
  have hmodify : ∀ f : StoredChan → StoredChan, (f ⟨mc.name, now, 0, 0#32, 0#32, 0#32, 0#32, none, [], []⟩).name =
      mc.name → (mychanAdd cfg now mc.name st).modify cfg mc.name f =
        withChan cfg (f ⟨mc.name, now, 0, 0#32, 0#32, 0#32, 0#32, none, [], []⟩) st :=
    fun f hf => modify_withChan rfl hf hnew
  rw [hmodify _ rfl, hloaded]
  rfl

theorem loadRow_ca (h : StorableEntry cfg ents e) (hfill : Filling cfg st mc.name)
    (mc' : StoredChan) (hmc : mc'.name = mc.name) :
    loadRow cfg ents now (withChan cfg mc st) (caRow cfg.flagConfig ents mc' e) =
      some (withChan cfg (mc.withChanacs (mc.chanacs ++ [bareEntry ents e])) st) := by
  have hdbv : 9#32 ≤ (withChan cfg mc st).dbv := by
    have heq : (withChan cfg mc st).dbv = 12#32 := hfill.dbv
    rw [heq]
    decide
  have hexempt : ¬ ((!test (withChan cfg mc st).theirCaAll caExempt && test e.2.level caRemove) = true) := by
    have heq : (withChan cfg mc st).theirCaAll = cfg.caAll := hfill.caAll
    rw [heq, caExempt_known]
    simp
  have hlevel : e.2.level &&& cfg.caAll = e.2.level := by
    apply Mask.ext
    intro i
    rw [has_and]
    exact ⟨And.left, fun hi => ⟨hi, h.level.has hi⟩⟩
  have hfound : ¬ ((withChan cfg mc st).mychanFind cfg mc.name).isNone = true := by
    rw [find_withChan hfill.fresh]
    simp
  rw [caRow, hmc, loadRow_writeRow (by decide) ⟨'C', "A".toList, rfl, by decide⟩]
  show ((corestorageHCa cfg ents _) _).map Prod.fst = _
  rw [corestorageHCa, sreadWord_bind hfill.word, sreadWord_bind h.target.word,
    sreadWord_bind (level_isWord _ _), flagsToBitmask_bitmaskToFlags _ h.level]
  dsimp only
  rw [if_neg hexempt, sreadTime_bind h.tmodified, if_pos hdbv, bind_assoc,
    sreadWord_bind h.setter.word, pure_bind, if_neg hfound, h.target.loaded]
  show some (ChanLoader.modify cfg mc.name _ (withChan cfg mc st)) = _
  have hadd : chanacsAdd cfg e.1 e.2.level e.2.tmodified (ents.find (setterName ents e.2.setterUid)) mc =
      mc.withChanacs (mc.chanacs ++ [bareEntry ents e]) := by
    rw [chanacsAdd, if_pos hfill.hash, hlevel, h.setter.loaded]
    rfl
  have hkeep : (chanacsAdd cfg e.1 e.2.level e.2.tmodified
      (ents.find (setterName ents e.2.setterUid)) mc).name = mc.name := by
    rw [hadd]
    rfl
  rw [modify_withChan rfl hkeep hfill.fresh, hadd]

theorem loadRow_mda {t : StoredTarget} {md : CString × CString} (hfill : Filling cfg st mc.name)
    (ht : IsWord t.name) (hprop : IsWord md.1) (mc' : StoredChan) (hmc : mc'.name = mc.name) :
    loadRow cfg ents now (withChan cfg mc st) (mdaRow mc' t md) =
      some (withChan cfg (mc.withChanacs (modifyFirst (maskNames ents mc.chanacs t.name)
        (addMetadata md.1 md.2) mc.chanacs)) st) := by
  have hdbv : ¬ (withChan cfg mc st).dbv < 12#32 := by
    have heq : (withChan cfg mc st).dbv = 12#32 := hfill.dbv
    rw [heq]
    decide
  rw [mdaRow, hmc, loadRow_writeRow (by decide) ⟨'M', "DA".toList, rfl, by decide⟩]
  show ((corestorageHMda cfg ents _) _).map Prod.fst = _
  rw [corestorageHMda, if_neg hdbv, sreadWord_bind hfill.word, sreadWord_bind ht, sreadWord_bind hprop,
    writeCells_nil, sreadStr_bind]
  show some (entryMetadata cfg ents mc.name t.name md.1 md.2 (withChan cfg mc st)) = _
  rw [entryMetadata, modify_withChan rfl rfl hfill.fresh]
  rfl

theorem loadRow_mdc {md : CString × CString} (hfill : Filling cfg st mc.name) (hprop : IsWord md.1)
    (mc' : StoredChan) (hmc : mc'.name = mc.name) : loadRow cfg ents now (withChan cfg mc st) (mdcRow mc' md) =
      some (withChan cfg (mc.withMetadata (metadataAdd mc.metadata md.1 md.2)) st) := by
  have hexempt : ¬ ((!test (withChan cfg mc st).theirCaAll caExempt &&
      decide (md.1 = "private:templates".toList)) = true) := by
    have heq : (withChan cfg mc st).theirCaAll = cfg.caAll := hfill.caAll
    rw [heq, caExempt_known]
    simp
  rw [mdcRow, hmc, loadRow_writeRow (by decide) ⟨'M', "DC".toList, rfl, by decide⟩]
  show ((corestorageHMd cfg ents "MDC" _) _).map Prod.fst = _
  rw [corestorageHMd, sreadWord_bind hfill.word, sreadWord_bind hprop, writeCells_nil, sreadStr_bind,
    if_pos rfl, if_neg hexempt]
  show some (chanMetadata cfg mc.name md.1 md.2 (withChan cfg mc st)) = _
  rw [chanMetadata, modify_withChan rfl rfl hfill.fresh]
  rfl

/-! ### Whole lists -/

variable {done list : List (StoredTarget × Chanacs)} {p : StoredTarget → Bool}
  {f : StoredTarget × Chanacs → StoredTarget × Chanacs}

theorem modifyFirst_last (hdone : ∀ d ∈ done, p d.1 = false) (he : p e.1 = true) :
    modifyFirst p f (done ++ [e]) = done ++ [f e] := by
  induction done with
  | nil => rw [List.nil_append, modifyFirst, if_pos he, List.nil_append]
  | cons d done ih =>
    have hd : ¬ p d.1 = true := by
      rw [hdone d List.mem_cons_self]
      exact Bool.false_ne_true
    rw [List.cons_append, modifyFirst, if_neg hd, ih fun x hx => hdone x (List.mem_cons_of_mem d hx),
      List.cons_append]

theorem maskNames_self (h : TargetNamed ents e.1) (hmem : e ∈ list) :
    maskNames ents list e.1.name e.1 = true := by
  obtain ⟨t, ca⟩ := e
  cases t with
  | entity mt =>
    have hfind : ents.find mt.name = some mt := h.1
    have hany : list.any (fun e => decide (e.1 = StoredTarget.entity mt)) = true :=
      List.any_eq_true.mpr ⟨_, hmem, decide_eq_true rfl⟩
    simp only [maskNames, StoredTarget.name, hfind, hany, if_true, decide_true]
  | host mask =>
    have hfind : ents.find mask = none := h.1
    simp only [maskNames, StoredTarget.name, hfind, hostIs, strcaseEq, decide_true]

theorem maskNames_other {t : StoredTarget} (h : TargetNamed ents e.1) (hmem : e ∈ list)
    (hne : ¬ SameTarget t e.1) : maskNames ents list e.1.name t = false := by
  obtain ⟨t₁, ca⟩ := e
  cases t₁ with
  | entity mt =>
    have hfind : ents.find mt.name = some mt := h.1
    have hany : list.any (fun e => decide (e.1 = StoredTarget.entity mt)) = true :=
      List.any_eq_true.mpr ⟨_, hmem, decide_eq_true rfl⟩
    simp only [maskNames, StoredTarget.name, hfind, hany, if_true, decide_eq_false_iff_not]
    rintro rfl
    exact hne rfl
  | host mask =>
    have hfind : ents.find mask = none := h.1
    simp only [maskNames, StoredTarget.name, hfind]
    cases t with
    | entity mt => rfl
    | host mask' => exact Bool.not_eq_true _ ▸ hne

theorem metadataAdd_new {md : Metadata} {name value : CString}
    (h : strcasecanon name ∉ md.map fun e => strcasecanon e.1) :
    metadataAdd md name value = md ++ [(name, value)] := by
  have hkeep : metadataDelete md name = md := by
    refine List.filter_eq_self.mpr fun e he => ?_
    rw [Bool.not_eq_true', strcaseEq, decide_eq_false_iff_not]
    intro heq
    exact h (heq ▸ List.mem_map_of_mem he)
  rw [metadataAdd, hkeep]

theorem loadRows_mda {t : StoredTarget} {ca : Chanacs} (md rest : Metadata)
    (ht : TargetNamed ents t) (hfill : Filling cfg st mc.name) (hdone : ∀ d ∈ done, ¬ SameTarget d.1 t)
    (hprops : ∀ m ∈ rest, IsWord m.1)
    (hnodup : ((md ++ rest).map fun m => strcasecanon m.1).Nodup) (mc' : StoredChan)
    (hmc : mc'.name = mc.name) :
    loadRows cfg ents now
        (withChan cfg (mc.withChanacs (done ++ [(t, { ca with metadata := md })])) st)
        (rest.map (mdaRow mc' t)) =
      some (withChan cfg (mc.withChanacs (done ++ [(t, { ca with metadata := md ++ rest })])) st) := by
  induction rest generalizing md with
  | nil =>
    rw [List.append_nil]
    rfl
  | cons m rest ih =>
    have hmem : ∀ ca' : Chanacs, (t, ca') ∈ done ++ [(t, ca')] := fun ca' =>
      List.mem_append_right done (List.mem_singleton_self _)
    have hself : maskNames ents (done ++ [(t, { ca with metadata := md })]) t.name t = true :=
      @maskNames_self ents (t, { ca with metadata := md }) _ ht (hmem _)
    have hothers : ∀ d ∈ done,
        maskNames ents (done ++ [(t, { ca with metadata := md })]) t.name d.1 = false :=
      fun d hd => @maskNames_other ents (t, { ca with metadata := md }) _ d.1 ht (hmem _) (hdone d hd)
    have hfresh : strcasecanon m.1 ∉ md.map fun e => strcasecanon e.1 := by
      rw [List.map_append, List.map_cons] at hnodup
      intro hin
      exact List.disjoint_of_nodup_append hnodup hin List.mem_cons_self
    have hrow := @loadRow_mda cfg ents now st
      (mc.withChanacs (done ++ [(t, { ca with metadata := md })])) t m hfill ht.word
      (hprops m List.mem_cons_self) mc' hmc
    have hstep := @modifyFirst_last (t, { ca with metadata := md }) done
      (maskNames ents (done ++ [(t, { ca with metadata := md })]) t.name) (addMetadata m.1 m.2)
      hothers hself
    have hadd : addMetadata m.1 m.2 (t, { ca with metadata := md }) =
        (t, { ca with metadata := md ++ [m] }) := by
      rw [addMetadata, metadataAdd_new hfresh]
    have htail := ih (md ++ [m]) (fun m' hm' => hprops m' (List.mem_cons_of_mem m hm'))
      (by rwa [List.append_assoc, List.singleton_append])
    rw [List.append_assoc, List.singleton_append] at htail
    rw [List.map_cons, loadRows, List.foldlM_cons, hrow]
    show loadRows cfg ents now (withChan cfg (mc.withChanacs _) st) _ = _
    rw [← htail, ← hadd, ← hstep]
    rfl

theorem loadRows_append (st : ChanLoader) (rows rows' : List CString) :
    loadRows cfg ents now st (rows ++ rows') =
      (loadRows cfg ents now st rows).bind fun st => loadRows cfg ents now st rows' :=
  List.foldlM_append

theorem loadRows_entry (h : StorableEntry cfg ents e) (hfill : Filling cfg st mc.name)
    (hdone : ∀ d ∈ done, ¬ SameTarget d.1 e.1) (mc' : StoredChan) (hmc : mc'.name = mc.name) :
    loadRows cfg ents now (withChan cfg (mc.withChanacs done) st)
        (entryRows cfg.flagConfig ents mc' e) =
      some (withChan cfg (mc.withChanacs (done ++ [keptEntry ents e])) st) := by
  have hrow := @loadRow_ca cfg ents now st (mc.withChanacs done) e h hfill mc' hmc
  have hrest := @loadRows_mda cfg ents now st mc done e.1 (keptEntry ents e).2 [] e.2.metadata
    h.target hfill hdone h.metadata.names h.metadata.nodup mc' hmc
  rw [entryRows, loadRows, List.foldlM_cons, hrow]
  exact hrest

theorem loadRows_entries (hentries : ∀ e ∈ list, StorableEntry cfg ents e)
    (hsingle : list.Pairwise fun e e' => ¬ SameTarget e.1 e'.1)
    (hdone : ∀ d ∈ done, ∀ e ∈ list, ¬ SameTarget d.1 e.1) (hfill : Filling cfg st mc.name)
    (mc' : StoredChan) (hmc : mc'.name = mc.name) :
    loadRows cfg ents now (withChan cfg (mc.withChanacs done) st)
        (list.flatMap (entryRows cfg.flagConfig ents mc')) =
      some (withChan cfg (mc.withChanacs (done ++ list.map (keptEntry ents))) st) := by
  induction list generalizing done with
  | nil =>
    rw [List.map_nil, List.append_nil]
    rfl
  | cons e list ih =>
    obtain ⟨hhead, htail⟩ := List.pairwise_cons.mp hsingle
    have hfirst := @loadRows_entry cfg ents now st mc e done (hentries e List.mem_cons_self) hfill
      (fun d hd => hdone d hd e List.mem_cons_self) mc' hmc
    have hdone' : ∀ d ∈ done ++ [keptEntry ents e], ∀ e' ∈ list, ¬ SameTarget d.1 e'.1 := by
      intro d hd e' he'
      obtain hd | hd := List.mem_append.mp hd
      · exact hdone d hd e' (List.mem_cons_of_mem e he')
      · rw [List.mem_singleton.mp hd]
        exact hhead e' he'
    have hrest := ih (fun e' he' => hentries e' (List.mem_cons_of_mem e he')) htail hdone'
    rw [List.append_assoc, List.singleton_append] at hrest
    rw [List.flatMap_cons, loadRows_append, hfirst, Option.bind_some, hrest, List.map_cons]

theorem loadRows_mdc (md rest : Metadata) (hfill : Filling cfg st mc.name)
    (hprops : ∀ m ∈ rest, IsWord m.1)
    (hnodup : ((md ++ rest).map fun m => strcasecanon m.1).Nodup) (mc' : StoredChan)
    (hmc : mc'.name = mc.name) :
    loadRows cfg ents now (withChan cfg (mc.withMetadata md) st) (rest.map (mdcRow mc')) =
      some (withChan cfg (mc.withMetadata (md ++ rest)) st) := by
  induction rest generalizing md with
  | nil =>
    rw [List.append_nil]
    rfl
  | cons m rest ih =>
    have hfresh : strcasecanon m.1 ∉ md.map fun e => strcasecanon e.1 := by
      rw [List.map_append, List.map_cons] at hnodup
      intro hin
      exact List.disjoint_of_nodup_append hnodup hin List.mem_cons_self
    have hrow := @loadRow_mdc cfg ents now st (mc.withMetadata md) m hfill
      (hprops m List.mem_cons_self) mc' hmc
    have hadd : (mc.withMetadata md).withMetadata (metadataAdd md m.1 m.2) =
        mc.withMetadata (md ++ [m]) := by
      rw [metadataAdd_new hfresh]
      rfl
    have htail := ih (md ++ [m]) (fun m' hm' => hprops m' (List.mem_cons_of_mem m hm'))
      (by rwa [List.append_assoc, List.singleton_append])
    rw [List.append_assoc, List.singleton_append] at htail
    rw [List.map_cons, loadRows, List.foldlM_cons, hrow, ← htail, ← hadd]
    rfl

theorem loadRows_chan (h : StorableChan cfg ents mc) (hst : Ready cfg st)
    (hnew : st.mychanFind cfg mc.name = none) :
    loadRows cfg ents now st (chanRows cfg.flagConfig ents mc) =
      some (withChan cfg (keptChan ents mc) st) := by
  have hfill : Filling cfg st mc.name := ⟨hst, h.name, h.hash, hnew⟩
  have hrow := @loadRow_mc cfg ents now st mc h hst hnew
  have hentries := @loadRows_entries cfg ents now st ((keptChan ents mc).withMetadata []) []
    mc.chanacs h.entries h.single nofun hfill mc rfl
  have hmd := @loadRows_mdc cfg ents now st (keptChan ents mc) [] mc.metadata hfill
    h.metadata.names h.metadata.nodup mc rfl
  rw [chanRows, List.cons_append, loadRows, List.foldlM_cons, hrow]
  show loadRows cfg ents now _ _ = _
  rw [loadRows_append, hentries, Option.bind_some]
  exact hmd

theorem loadRows_chans {chans : List StoredChan} (h : StorableChans cfg ents chans)
    (hst : Ready cfg st) (hnew : ∀ mc ∈ chans, st.mychanFind cfg mc.name = none) :
    ∃ st', loadRows cfg ents now st (chans.flatMap (chanRows cfg.flagConfig ents)) = some st' ∧
      st'.mclist.entries = st.mclist.entries ++
        chans.map fun mc => (mychanKey cfg mc.name, keptChan ents mc) := by
  induction chans generalizing st with
  | nil => exact ⟨st, rfl, (List.append_nil _).symm⟩
  | cons mc chans ih =>
    obtain ⟨hnot, hnames⟩ := List.nodup_cons.mp h.names
    have hmc := hnew mc List.mem_cons_self
    have hfirst := @loadRows_chan cfg ents now st mc (h.each mc List.mem_cons_self) hst hmc
    have hchans : StorableChans cfg ents chans :=
      ⟨fun mc' hm => h.each mc' (List.mem_cons_of_mem mc hm), hnames⟩
    have hnew' : ∀ mc' ∈ chans, (withChan cfg (keptChan ents mc) st).mychanFind cfg mc'.name = none := by
      intro mc' hm
      have hold : st.mclist.find (mychanKey cfg mc'.name) = none := hnew mc' (List.mem_cons_of_mem mc hm)
      have hkey : ¬ mychanKey cfg mc.name = mychanKey cfg mc'.name := fun heq =>
        hnot (List.mem_map.mpr ⟨mc', hm, heq.symm⟩)
      rw [ChanLoader.mychanFind, withChan, Registry.find_insertNew, hold]
      exact if_neg hkey
    obtain ⟨st', hload, hentries⟩ := ih hchans hst.withChan hnew'
    refine ⟨st', ?_, ?_⟩
    · rw [List.flatMap_cons, loadRows_append, hfirst]
      exact hload
    · have hwith : (withChan cfg (keptChan ents mc) st).mclist.entries =
          st.mclist.entries ++ [(mychanKey cfg mc.name, keptChan ents mc)] :=
        Registry.entries_insertNew hmc
      rw [hentries, hwith, List.append_assoc]
      rfl

/-! ### The file -/

theorem line_head (fc : FlagConfig) : ∀ row ∈ headRows fc, '\n' ∉ row := by
  have hdbv : ∀ w ∈ [natArg 12], IsWord w := List.forall_mem_singleton.mpr (natArg_isWord 12)
  have hcf : ∀ w ∈ [bitmaskToFlags fc fc.caAll], IsWord w :=
    List.forall_mem_singleton.mpr (level_isWord fc _)
  exact List.forall_mem_cons.mpr ⟨line_writeRow (by decide) hdbv nil_isWord.line,
    List.forall_mem_singleton.mpr (line_writeRow (by decide) hcf nil_isWord.line)⟩

theorem line_mc (h : StorableChan cfg ents mc) : '\n' ∉ mcRow mc := by
  have hkey : IsWord (mc.mlockKey.getD []) := by
    cases hk : mc.mlockKey with
    | none => exact nil_isWord
    | some key => exact (h.key key hk).word
  have hflags : IsWord (gflagsTostr mcFlags mc.flags) := gflags_isWord (by decide) mc.flags
  apply line_writeRow (by decide) _ nil_isWord.line
  simp only [List.forall_mem_cons]
  exact ⟨h.name, natArg_isWord _, natArg_isWord _, hflags, natArg_isWord _, natArg_isWord _,
    natArg_isWord _, hkey, nofun⟩

theorem line_entry (h : StorableEntry cfg ents e) (hname : IsWord mc.name) :
    ∀ row ∈ entryRows cfg.flagConfig ents mc e, '\n' ∉ row := by
  have hca : '\n' ∉ caRow cfg.flagConfig ents mc e := by
    apply line_writeRow (by decide) _ nil_isWord.line
    simp only [List.forall_mem_cons]
    exact ⟨hname, h.target.word, level_isWord _ _, natArg_isWord _, h.setter.word, nofun⟩
  refine List.forall_mem_cons.mpr ⟨hca, fun row hrow => ?_⟩
  obtain ⟨m, hm, rfl⟩ := List.mem_map.mp hrow
  apply line_writeRow (by decide) _ (h.metadata.values m hm)
  simp only [List.forall_mem_cons]
  exact ⟨hname, h.target.word, h.metadata.names m hm, nofun⟩

theorem line_chan (h : StorableChan cfg ents mc) :
    ∀ row ∈ chanRows cfg.flagConfig ents mc, '\n' ∉ row := by
  intro row hrow
  obtain hrow | hrow := List.mem_append.mp hrow
  · obtain rfl | hrow := List.mem_cons.mp hrow
    · exact line_mc h
    · obtain ⟨e, he, hrow⟩ := List.mem_flatMap.mp hrow
      exact line_entry (h.entries e he) h.name row hrow
  · obtain ⟨m, hm, rfl⟩ := List.mem_map.mp hrow
    apply line_writeRow (by decide) _ (h.metadata.values m hm)
    simp only [List.forall_mem_cons]
    exact ⟨h.name, h.metadata.names m hm, nofun⟩

theorem loadFile_saveChans {chans : List StoredChan} (h : StorableChans cfg ents chans) :
    ∃ st, loadFile cfg ents now (writeRows '\n' (saveChans cfg.flagConfig ents chans)) = some st ∧
      st.mclist.entries = chans.map fun mc => (mychanKey cfg mc.name, keptChan ents mc) := by
  have hlines : ∀ row ∈ saveChans cfg.flagConfig ents chans, '\n' ∉ row := by
    intro row hrow
    obtain hrow | hrow := List.mem_append.mp hrow
    · exact line_head _ row hrow
    · obtain ⟨mc, hmc, hrow⟩ := List.mem_flatMap.mp hrow
      exact line_chan (h.each mc hmc) row hrow
  obtain ⟨st, hhead, hready, hempty⟩ := @loadRows_head cfg ents now
  have hnew : ∀ mc ∈ chans, st.mychanFind cfg mc.name = none := by
    intro mc _
    rw [ChanLoader.mychanFind, hempty]
    exact Registry.find_empty _
  obtain ⟨st', hload, hentries⟩ := @loadRows_chans cfg ents now st chans h hready hnew
  refine ⟨st', ?_, ?_⟩
  · rw [loadFile, readRows_writeRows hlines, saveChans, loadRows_append, hhead]
    exact hload
  · rw [hentries, hempty]
    rfl

end rows

def anna : Ent := ⟨"anna".toList, "AAAAAAAAB".toList⟩

def annaOnly : EntityTable where
  find name := if name = anna.name then some anna else none
  findUid uid := if uid = anna.id then some anna else none

def annasChan : StoredChan where
  name := "#anna".toList
  registered := 1000
  used := 2000
  flags := mcTopiclock
  mlockOn := 0x10#32
  mlockOff := 0#32
  mlockLimit := 0#32
  mlockKey := none
  metadata := [("url".toList, "http://anna".toList)]
  chanacs := [(.entity anna, ⟨caFlags, 1000, anna.id, []⟩),
    (.host "*!*@host".toList, ⟨caAkick, 1500, anna.id, [("reason".toList, "no reason".toList)]⟩)]

theorem annasChan_storable : StorableChan sampleConfig annaOnly annasChan := by
  have hsetter : SetterNamed annaOnly anna.id := by
    refine ⟨fun mt _ hmt => ?_, by decide⟩
    obtain rfl : mt = anna := by simpa [annaOnly] using hmt.symm
    decide
  refine ⟨by decide, by decide, by decide, by decide, by decide, nofun, ⟨by decide, by decide, by decide⟩,
    List.forall_mem_cons.mpr ⟨?_, List.forall_mem_singleton.mpr ?_⟩, by simp [annasChan, SameTarget]⟩
  · exact ⟨⟨by decide, by decide⟩, by decide, by decide, hsetter, ⟨nofun, nofun, List.nodup_nil⟩⟩
  · exact ⟨⟨by decide, by decide +kernel, by decide⟩, by decide, by decide, hsetter,
      ⟨by decide, by decide, by decide⟩⟩

theorem loadFile_saveChans_anna : ∃ st,
    loadFile sampleConfig annaOnly 3000
      (writeRows '\n' (saveChans sampleConfig.flagConfig annaOnly [annasChan])) = some st ∧
    st.mclist.entries = [("#ANNA".toList, keptChan annaOnly annasChan)] :=
  loadFile_saveChans ⟨List.forall_mem_singleton.mpr annasChan_storable, by simp⟩

end ChatServices.Storage
