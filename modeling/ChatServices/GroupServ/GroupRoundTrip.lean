import ChatServices.GroupServ.GroupTable
import ChatServices.Storage.ChannelRoundTrip

/-! Groups written and loaded again. The row of an access entry is read before the rows of the groups
behind it in the file, so the entry of such a group is lost. -/
namespace ChatServices.GroupServ
open ChatServices.Lib ChatServices.Lib.Mask ChatServices.Lib.Rows ChatServices.Text
open ChatServices.Storage
open ChatServices.ChanServ (Metadata metadataAdd natArg)

/-! ### What can be stored -/

def MemberNamed (ents : EntityTable) (names : List CString) : StoredMember → Prop
  | .account mt => ents.find mt.name = some mt ∧ IsWord mt.name
  | .group name => name ∈ names

structure StorableGroup (ents : EntityTable) (names : List CString) (mg : StoredGroup) : Prop where
  name : IsWord mg.name
  free : ents.find mg.name = none
  id : IsWord mg.id
  id_length : mg.id ≠ [] ∧ truncate Entities.IDLEN mg.id = mg.id
  id_free : ents.findUid mg.id = none
  regtime : mg.regtime < 2 ^ 64
  flags : Sub mg.flags (Letters.union mgTable)
  members : ∀ ga ∈ mg.acs, MemberNamed ents names ga.1
  levels : ∀ ga ∈ mg.acs, Sub ga.2 (Letters.union gaTable)
  metadata : StorableMetadata mg.metadata

def names (groups : List StoredGroup) : List CString := groups.map StoredGroup.name

structure StorableGroups (cm : CaseMapping) (ents : EntityTable) (groups : List StoredGroup) : Prop where
  each : ∀ mg ∈ groups, StorableGroup ents (names groups) mg
  keys : ((names groups).map (groupKey cm)).Nodup
  ids : (groups.map StoredGroup.id).Nodup

/-! ### What comes back -/

def known (seen : List CString) (ga : StoredMember × Flags) : Bool :=
  match ga.1 with
  | .account _ => true
  | .group name => decide (name ∈ seen)

def keptGroup (seen : List CString) (mg : StoredGroup) : StoredGroup :=
  { mg with acs := mg.acs.filter (known (mg.name :: seen)) }

def keptGroups (seen : List CString) : List StoredGroup → List StoredGroup
  | [] => []
  | mg :: groups => keptGroup seen mg :: keptGroups (mg.name :: seen) groups

def MembersFirst (groups : List StoredGroup) : Prop :=
  ∀ before mg after, groups = before ++ mg :: after →
    ∀ ga ∈ mg.acs, ∀ name, ga.1 = .group name → name ∈ names (before ++ [mg])

theorem keptGroup_eq_iff {seen : List CString} {mg : StoredGroup} :
    keptGroup seen mg = mg ↔ ∀ ga ∈ mg.acs, known (mg.name :: seen) ga = true := by
  rw [← List.filter_eq_self]
  constructor
  · exact congrArg StoredGroup.acs
  · intro h
    rw [keptGroup, h]

theorem keptGroups_eq_iff (seen : List CString) (groups : List StoredGroup) :
    keptGroups seen groups = groups ↔ ∀ before mg after, groups = before ++ mg :: after →
      ∀ ga ∈ mg.acs, ∀ name, ga.1 = .group name → name ∈ seen ∨ name ∈ names (before ++ [mg]) := by
  induction groups generalizing seen with
  | nil =>
    constructor
    · intro _ before mg after h
      simp at h
    · exact fun _ => rfl
  | cons mg groups ih =>
    rw [keptGroups, List.cons.injEq, keptGroup_eq_iff, ih]
    have hknown : (∀ ga ∈ mg.acs, known (mg.name :: seen) ga = true) ↔
        ∀ ga ∈ mg.acs, ∀ name, ga.1 = .group name → name = mg.name ∨ name ∈ seen := by
      refine forall₂_congr fun ga _ => ?_
      rw [known]
      cases ga.1 with
      | account mt => simp
      | group name => simp
    rw [hknown]
    constructor
    · rintro ⟨hfirst, hrest⟩ before mg' after heq ga hga name hname
      cases before with
      | nil =>
        obtain ⟨rfl, -⟩ := List.cons.inj heq
        obtain rfl | hseen := hfirst ga hga name hname
        · exact .inr (by simp [names])
        · exact .inl hseen
      | cons b before =>
        obtain ⟨rfl, htail⟩ := List.cons.inj heq
        obtain hseen | hbefore := hrest before mg' after htail ga hga name hname
        · obtain rfl | hseen := List.mem_cons.mp hseen
          · exact .inr (by simp [names])
          · exact .inl hseen
        · exact .inr (List.mem_cons_of_mem _ hbefore)
    · intro h
      refine ⟨fun ga hga name hname => ?_, fun before mg' after heq ga hga name hname => ?_⟩
      · obtain hseen | hself := h [] mg groups rfl ga hga name hname
        · exact .inr hseen
        · exact .inl (by simpa [names] using hself)
      · obtain hseen | hmem := h (mg :: before) mg' after (by rw [heq]; rfl) ga hga name hname
        · exact .inl (List.mem_cons_of_mem _ hseen)
        · obtain rfl | hmem := List.mem_cons.mp hmem
          · exact .inl List.mem_cons_self
          · exact .inr hmem

/-! ### One row at a time -/

section rows
variable {cm : CaseMapping} {ents : EntityTable} {st : GroupLoader} {mg : StoredGroup}
  {ga : StoredMember × Flags}

def withGroup (cm : CaseMapping) (mg : StoredGroup) (st : GroupLoader) : GroupLoader :=
  { st with groups := st.groups.insertNew (groupKey cm mg.name) mg, ids := mg.id :: st.ids }

structure LoaderReady (st : GroupLoader) : Prop where
  gdbv : st.loadingGdbv = 4#32
  gaAll : st.theirGaAll = gaAll

theorem LoaderReady.withGroup (h : LoaderReady st) : LoaderReady (withGroup cm mg st) :=
  ⟨h.gdbv, h.gaAll⟩

theorem modify_withGroup {f : StoredGroup → StoredGroup} (hid : (f mg).id = mg.id)
    (hname : (f mg).name = mg.name) (hnew : st.groups.find (groupKey cm mg.name) = none) :
    (withGroup cm mg st).modify cm mg.name f = withGroup cm (f mg) st := by
  rw [GroupLoader.modify, withGroup]
  dsimp only
  rw [Registry.modify_insertNew hnew, withGroup, hname, hid]

theorem find_withGroup (hfree : ents.find mg.name = none)
    (hnew : st.groups.find (groupKey cm mg.name) = none) :
    (withGroup cm mg st).mygroupFind cm ents mg.name = some mg := by
  rw [GroupLoader.mygroupFind, hfree, withGroup]
  dsimp only
  rw [Registry.find_insertNew, hnew, if_pos rfl]
  rfl

theorem mgTable_readback {flags : Flags} (h : Sub flags (Letters.union mgTable)) :
    (gflagsFromstr mgTable (gflagsTostr mgTable flags)).1 = flags := by
  have hone : Letters.OneToOne mgTable := oneToOne_of_twoPow (by decide) (by decide)
  rw [gflagsFromstr_tostr (by decide), Letters.decode_encode hone]
  apply Mask.ext
  intro i
  rw [has_and]
  exact ⟨And.left, fun hi => ⟨hi, h.has hi⟩⟩

theorem gaTable_readback {flags : Flags} (h : Sub flags (Letters.union gaTable)) :
    (gflagsFromstr gaTable (gflagsTostr gaTable flags)).1 = flags := by
  have hone : Letters.OneToOne gaTable := oneToOne_of_twoPow (by decide) (by decide)
  rw [gflagsFromstr_tostr (by decide), Letters.decode_encode hone]
  apply Mask.ext
  intro i
  rw [has_and]
  exact ⟨And.left, fun hi => ⟨hi, h.has hi⟩⟩

theorem loadGroupRows_head (lastUid : CString) : ∃ st,
    loadGroupRows cm ents (.start lastUid)
      [writeRow "GDBV" [natArg gdbvVersion] [], writeRow "GFA" [gflagsTostr gaTable gaAll] []] =
        some st ∧
      LoaderReady st ∧ st.groups = .empty ∧ st.ids = [] := by
  have hgdbv : loadGroupRow cm ents (.start lastUid) (writeRow "GDBV" [natArg gdbvVersion] []) =
      some ⟨4#32, gaAllOld, .empty, [], lastUid⟩ := by
    rw [loadGroupRow, parseRow_writeRow (by decide) ⟨'G', "DBV".toList, rfl, by decide⟩]
    have hhandler : groupProcess cm ents (.start lastUid) "GDBV".toList = dbHGdbv (.start lastUid) :=
      rfl
    have hint : natArg gdbvVersion = natArg (4#32).toNat := rfl
    rw [hhandler, StateT.run, dbHGdbv, hint, sreadUint_bind]
    rfl
  have hgfa : loadGroupRow cm ents ⟨4#32, gaAllOld, .empty, [], lastUid⟩
      (writeRow "GFA" [gflagsTostr gaTable gaAll] []) =
      some ⟨4#32, gaAll, .empty, [], lastUid⟩ := by
    rw [loadGroupRow, parseRow_writeRow (by decide) ⟨'G', "FA".toList, rfl, by decide⟩]
    have hhandler : groupProcess cm ents ⟨4#32, gaAllOld, .empty, [], lastUid⟩ "GFA".toList =
      dbHGfa ⟨4#32, gaAllOld, .empty, [], lastUid⟩ := rfl
    rw [hhandler, StateT.run, dbHGfa, sreadWord_bind (gflags_isWord (by decide) _),
      gaTable_readback (by decide)]
    rfl
  refine ⟨⟨4#32, gaAll, .empty, [], lastUid⟩, ?_, ⟨rfl, rfl⟩, rfl, rfl⟩
  simp only [loadGroupRows, List.foldlM_cons, List.foldlM_nil, hgdbv, hgfa, Option.bind_eq_bind,
    Option.bind_some]
  rfl

theorem loadGroupRow_grp {names : List CString} (h : StorableGroup ents names mg)
    (hst : LoaderReady st) (hnew : st.groups.find (groupKey cm mg.name) = none)
    (hid : mg.id ∉ st.ids) : loadGroupRow cm ents st (grpRow mg) =
      some (withGroup cm { mg with acs := [], metadata := [] } st) := by
  have hgdbv : 4#32 ≤ st.loadingGdbv := by
    rw [hst.gdbv]
    decide
  have hgdbv3 : 3#32 ≤ st.loadingGdbv := by
    rw [hst.gdbv]
    decide
  have hnone : ¬(st.mygroupFind cm ents mg.name).isSome = true := by
    rw [GroupLoader.mygroupFind, h.free, hnew]
    simp
  have htaken : st.uidTaken ents mg.id = false := by
    rw [GroupLoader.uidTaken, h.id_free]
    simpa using hid
  have hunused : ¬(some mg.id).any (st.uidTaken ents) = true := by
    rw [Option.any_some, htaken]
    simp
  have hflags : IsWord (gflagsTostr mgTable mg.flags) := gflags_isWord (by decide) mg.flags
  rw [loadGroupRow, grpRow, parseRow_writeRow (by decide) ⟨'G', "RP".toList, rfl, by decide⟩]
  have hhandler : groupProcess cm ents st "GRP".toList = dbHGrp cm ents st := rfl
  rw [hhandler, StateT.run, dbHGrp, if_pos hgdbv, bind_assoc, sreadWord_bind h.id, pure_bind]
  dsimp only
  rw [sreadWord_bind h.name, if_neg hnone, if_neg hunused, sreadTime_bind h.regtime, if_pos hgdbv3,
    bind_assoc, sreadWord_bind hflags, pure_bind, mgTable_readback h.flags]
  have hadd : st.mygroupAddId cm ents (some mg.id) mg.name mg.regtime mg.flags =
      withGroup cm { mg with acs := [], metadata := [] } st := by
    rw [GroupLoader.mygroupAddId, h.free]
    dsimp only
    rw [htaken, if_neg Bool.false_ne_true, h.id_length.2, if_neg h.id_length.1]
    rfl
  rw [hadd]
  rfl

variable (mg) in
theorem loadGroupRow_gacl {seen : List CString} (hname : IsWord mg.name)
    (hfree : ents.find mg.name = none) (hword : IsWord ga.1.name)
    (hlevel : Sub ga.2 (Letters.union gaTable)) (hst : LoaderReady st)
    (hnew : st.groups.find (groupKey cm mg.name) = none)
    (hmember : (withGroup cm mg st).myentityFind cm ents ga.1.name =
      if known seen ga then some ga.1 else none) (row : StoredGroup) (hrow : row.name = mg.name) :
    loadGroupRow cm ents (withGroup cm mg st) (gaclRow row ga) =
      some (withGroup cm { mg with acs := mg.acs ++ if known seen ga then [ga] else [] } st) := by
  have hready : LoaderReady (withGroup cm mg st) := hst.withGroup
  have hgdbv : 2#32 ≤ (withGroup cm mg st).loadingGdbv := by
    rw [hready.gdbv]
    decide
  have hflags : IsWord (gflagsTostr gaTable ga.2) := gflags_isWord (by decide) ga.2
  have hcompat : ¬(!test (withGroup cm mg st).theirGaAll gaAclview &&
      decide (ga.2 &&& gaAllOld = (withGroup cm mg st).theirGaAll)) = true := by
    have haclview : test gaAll gaAclview = true := by decide
    rw [hready.gaAll, haclview]
    simp
  rw [loadGroupRow, gaclRow, hrow,
    parseRow_writeRow (by decide) ⟨'G', "ACL".toList, rfl, by decide⟩]
  have hhandler : groupProcess cm ents (withGroup cm mg st) "GACL".toList =
    dbHGacl cm ents (withGroup cm mg st) := rfl
  rw [hhandler, StateT.run, dbHGacl, sreadWord_bind hname, sreadWord_bind hword,
    find_withGroup hfree hnew, hmember]
  cases hknown : known seen ga with
  | false =>
    rw [if_neg Bool.false_ne_true, if_neg Bool.false_ne_true, List.append_nil]
    rfl
  | true =>
    rw [if_pos rfl, if_pos rfl]
    dsimp only
    rw [if_pos hgdbv, bind_assoc, sreadWord_bind hflags, gaTable_readback hlevel, if_neg hcompat, pure_bind, modify_withGroup rfl rfl hnew]
    rfl

variable (mg) in
theorem loadGroupRow_mdg {md : CString × CString} (hname : IsWord mg.name)
    (hfree : ents.find mg.name = none) (hprop : IsWord md.1)
    (hnew : st.groups.find (groupKey cm mg.name) = none) (row : StoredGroup)
    (hrow : row.name = mg.name) :
    loadGroupRow cm ents (withGroup cm mg st) (mdgRow row md) =
      some (withGroup cm { mg with metadata := metadataAdd mg.metadata md.1 md.2 } st) := by
  rw [loadGroupRow, mdgRow, hrow,
    parseRow_writeRow (by decide) ⟨'M', "DG".toList, rfl, by decide⟩]
  have hhandler : groupProcess cm ents (withGroup cm mg st) "MDG".toList =
    dbHMdg cm ents (withGroup cm mg st) := rfl
  rw [hhandler, StateT.run, dbHMdg, sreadWord_bind hname, sreadWord_bind hprop, writeCells_nil,
    sreadStr_bind, find_withGroup hfree hnew]
  dsimp only
  rw [modify_withGroup rfl rfl hnew]
  rfl

/-! ### Whole lists -/

theorem loadGroupRows_append (st : GroupLoader) (rows rows' : List CString) :
    loadGroupRows cm ents st (rows ++ rows') =
      (loadGroupRows cm ents st rows).bind fun st => loadGroupRows cm ents st rows' :=
  List.foldlM_append

/-- The loader after the groups with the names `seen`; `all` are the names in the file. -/
structure Loaded (cm : CaseMapping) (ents : EntityTable) (all seen : List CString)
    (st : GroupLoader) : Prop where
  ready : LoaderReady st
  free : ∀ name ∈ all, ents.find name = none
  keys : ∀ a ∈ all, ∀ b ∈ all, groupKey cm a = groupKey cm b → a = b
  found : ∀ name ∈ all, (st.groups.find (groupKey cm name)).map StoredGroup.name =
    if name ∈ seen then some name else none

variable {all seen : List CString}

theorem Loaded.fresh (h : Loaded cm ents all seen st) {name : CString} (hname : name ∈ all)
    (hnew : name ∉ seen) : st.groups.find (groupKey cm name) = none := by
  have hfound := h.found name hname
  rw [if_neg hnew, Option.map_eq_none_iff] at hfound
  exact hfound

variable (mg) in
theorem Loaded.withGroup (h : Loaded cm ents all seen st) (hname : mg.name ∈ all)
    (hnew : mg.name ∉ seen) : Loaded cm ents all (mg.name :: seen) (withGroup cm mg st) := by
  refine ⟨h.ready.withGroup, h.free, h.keys, fun name hmem => ?_⟩
  rw [GroupServ.withGroup]
  dsimp only
  rw [Registry.find_insertNew]
  by_cases heq : name = mg.name
  · rw [heq, h.fresh hname hnew, if_pos rfl, if_pos List.mem_cons_self]
    rfl
  · have hkey : groupKey cm mg.name ≠ groupKey cm name := fun hkey =>
      heq (h.keys _ hname _ hmem hkey).symm
    rw [if_neg hkey, Option.or_none, h.found name hmem]
    simp [heq]

theorem Loaded.member (h : Loaded cm ents all seen st) (hga : MemberNamed ents all ga.1) :
    st.myentityFind cm ents ga.1.name = if known seen ga then some ga.1 else none := by
  obtain ⟨mt, level⟩ := ga
  cases mt with
  | account mt =>
    have hfind : ents.find mt.name = some mt := hga.1
    rw [GroupLoader.myentityFind, StoredMember.name, hfind]
    rfl
  | group name =>
    have hfree := h.free name hga
    have hfound := h.found name hga
    rw [GroupLoader.myentityFind, StoredMember.name, hfree]
    dsimp only
    have hmap : (fun mg : StoredGroup => StoredMember.group mg.name) =
      StoredMember.group ∘ StoredGroup.name := rfl
    rw [hmap, ← Option.map_map, hfound, known]
    by_cases hseen : name ∈ seen <;> simp [hseen]

theorem MemberNamed.word (h : MemberNamed ents all ga.1) (hall : ∀ name ∈ all, IsWord name) :
    IsWord ga.1.name := by
  obtain ⟨mt, level⟩ := ga
  cases mt with
  | account mt => exact h.2
  | group name => exact hall name h

variable (mg) in
theorem loadGroupRows_gacl (h : Loaded cm ents all seen st) (hmg : mg.name ∈ all)
    (hnew : mg.name ∉ seen) (hall : ∀ name ∈ all, IsWord name) (done rest : List (StoredMember × Flags))
    (hmembers : ∀ ga ∈ rest, MemberNamed ents all ga.1)
    (hlevels : ∀ ga ∈ rest, Sub ga.2 (Letters.union gaTable)) (row : StoredGroup)
    (hrow : row.name = mg.name) :
    loadGroupRows cm ents (withGroup cm { mg with acs := done } st) (rest.map (gaclRow row)) =
      some (withGroup cm { mg with acs := done ++ rest.filter (known (mg.name :: seen)) } st) := by
  induction rest generalizing done with
  | nil =>
    rw [List.filter_nil, List.append_nil]
    rfl
  | cons ga rest ih =>
    have hga := hmembers ga List.mem_cons_self
    have hfresh := h.fresh hmg hnew
    have hafter : Loaded cm ents all (mg.name :: seen) (withGroup cm { mg with acs := done } st) :=
      h.withGroup { mg with acs := done } hmg hnew
    have hfirst := loadGroupRow_gacl { mg with acs := done } (hall _ hmg) (h.free _ hmg)
      (hga.word hall) (hlevels ga List.mem_cons_self) h.ready hfresh (hafter.member hga) row hrow
    have htail := ih (done ++ if known (mg.name :: seen) ga then [ga] else [])
      (fun g hg => hmembers g (List.mem_cons_of_mem ga hg))
      fun g hg => hlevels g (List.mem_cons_of_mem ga hg)
    rw [List.map_cons, loadGroupRows, List.foldlM_cons, hfirst]
    refine htail.trans ?_
    rw [List.append_assoc, List.filter_cons]
    split_ifs <;> rfl

variable (mg) in
theorem loadGroupRows_mdg (hname : IsWord mg.name) (hfree : ents.find mg.name = none)
    (hnew : st.groups.find (groupKey cm mg.name) = none) (done rest : Metadata)
    (hprops : ∀ md ∈ rest, IsWord md.1)
    (hnodup : ((done ++ rest).map fun md => strcasecanon md.1).Nodup) (row : StoredGroup)
    (hrow : row.name = mg.name) :
    loadGroupRows cm ents (withGroup cm { mg with metadata := done } st) (rest.map (mdgRow row)) =
      some (withGroup cm { mg with metadata := done ++ rest } st) := by
  induction rest generalizing done with
  | nil =>
    rw [List.append_nil]
    rfl
  | cons md rest ih =>
    have hfresh : strcasecanon md.1 ∉ done.map fun e => strcasecanon e.1 := by
      rw [List.map_append, List.map_cons] at hnodup
      intro hin
      exact List.disjoint_of_nodup_append hnodup hin List.mem_cons_self
    have hfirst := loadGroupRow_mdg { mg with metadata := done } hname hfree
      (hprops md List.mem_cons_self) hnew row hrow
    dsimp only at hfirst
    rw [metadataAdd_new hfresh] at hfirst
    have htail := ih (done ++ [md]) (fun m hm => hprops m (List.mem_cons_of_mem md hm))
      (by rwa [List.append_assoc, List.singleton_append])
    rw [List.append_assoc, List.singleton_append] at htail
    rw [List.map_cons, loadGroupRows, List.foldlM_cons, hfirst]
    exact htail

theorem loadGroupRows_group (h : Loaded cm ents all seen st) (hmg : mg.name ∈ all)
    (hnew : mg.name ∉ seen) (hall : ∀ name ∈ all, IsWord name) (hs : StorableGroup ents all mg)
    (hid : mg.id ∉ st.ids) :
    loadGroupRows cm ents st (groupRows mg) = some (withGroup cm (keptGroup seen mg) st) := by
  have hfresh := h.fresh hmg hnew
  have hgrp := loadGroupRow_grp hs h.ready hfresh hid
  have hgacl := loadGroupRows_gacl { mg with metadata := [] } h hmg hnew hall [] mg.acs
    hs.members hs.levels mg rfl
  have hmdg := loadGroupRows_mdg (keptGroup seen mg) hs.name hs.free hfresh [] mg.metadata
    hs.metadata.names hs.metadata.nodup mg rfl
  rw [groupRows, List.cons_append, loadGroupRows, List.foldlM_cons, hgrp]
  refine (loadGroupRows_append _ _ _).trans ?_
  rw [hgacl]
  exact hmdg

theorem loadGroupRows_groups {groups : List StoredGroup} (h : Loaded cm ents all seen st)
    (hall : ∀ name ∈ all, IsWord name) (hs : ∀ mg ∈ groups, StorableGroup ents all mg)
    (hmem : ∀ mg ∈ groups, mg.name ∈ all) (hnew : ∀ mg ∈ groups, mg.name ∉ seen)
    (hnames : (names groups).Nodup) (hids : (groups.map StoredGroup.id).Nodup)
    (hfresh : ∀ mg ∈ groups, mg.id ∉ st.ids) :
    ∃ st', loadGroupRows cm ents st (groups.flatMap groupRows) = some st' ∧
      st'.groups.entries = st.groups.entries ++
        (keptGroups seen groups).map fun mg => (groupKey cm mg.name, mg) := by
  induction groups generalizing seen st with
  | nil => exact ⟨st, rfl, (List.append_nil _).symm⟩
  | cons mg groups ih =>
    obtain ⟨hname, hnames⟩ := List.nodup_cons.mp hnames
    obtain ⟨hid, hids⟩ := List.nodup_cons.mp hids
    have hmg := hmem mg List.mem_cons_self
    have hmgnew := hnew mg List.mem_cons_self
    have hfirst := loadGroupRows_group h hmg hmgnew hall (hs mg List.mem_cons_self)
      (hfresh mg List.mem_cons_self)
    have hnext : Loaded cm ents all (mg.name :: seen) (withGroup cm (keptGroup seen mg) st) :=
      h.withGroup (keptGroup seen mg) hmg hmgnew
    obtain ⟨st', hload, hentries⟩ := ih hnext
      (fun m hm => hs m (List.mem_cons_of_mem mg hm))
      (fun m hm => hmem m (List.mem_cons_of_mem mg hm))
      (fun m hm hseen => by
        obtain heq | hseen := List.mem_cons.mp hseen
        · exact hname (heq ▸ List.mem_map_of_mem hm)
        · exact hnew m (List.mem_cons_of_mem mg hm) hseen)
      hnames hids
      (fun m hm hseen => by
        obtain heq | hseen := List.mem_cons.mp hseen
        · exact hid (heq ▸ List.mem_map_of_mem hm)
        · exact hfresh m (List.mem_cons_of_mem mg hm) hseen)
    refine ⟨st', ?_, ?_⟩
    · rw [List.flatMap_cons, loadGroupRows_append, hfirst]
      exact hload
    · have hwith : (withGroup cm (keptGroup seen mg) st).groups.entries =
          st.groups.entries ++ [(groupKey cm mg.name, keptGroup seen mg)] :=
        Registry.entries_insertNew (h.fresh hmg hmgnew)
      rw [hentries, hwith, List.append_assoc]
      rfl

/-! ### The file -/

theorem line_group (h : StorableGroup ents all mg) (hall : ∀ name ∈ all, IsWord name) :
    ∀ row ∈ groupRows mg, '\n' ∉ row := by
  intro row hrow
  obtain hrow | hrow := List.mem_append.mp hrow
  · obtain rfl | hrow := List.mem_cons.mp hrow
    · apply line_writeRow (by decide) _ nil_isWord.line
      simp only [List.forall_mem_cons]
      exact ⟨h.id, h.name, natArg_isWord _, gflags_isWord (by decide) _, nofun⟩
    · obtain ⟨ga, hga, rfl⟩ := List.mem_map.mp hrow
      apply line_writeRow (by decide) _ nil_isWord.line
      simp only [List.forall_mem_cons]
      exact ⟨h.name, (h.members ga hga).word hall, gflags_isWord (by decide) _, nofun⟩
  · obtain ⟨md, hmd, rfl⟩ := List.mem_map.mp hrow
    apply line_writeRow (by decide) _ (h.metadata.values md hmd)
    simp only [List.forall_mem_cons]
    exact ⟨h.name, h.metadata.names md hmd, nofun⟩

theorem loadGroupFile_write (lastUid : CString) {groups : List StoredGroup}
    (h : StorableGroups cm ents groups) : ∃ st,
      loadGroupFile cm ents lastUid (writeRows '\n' (writeGroupdb groups)) = some st ∧
        st.groups.entries = (keptGroups [] groups).map fun mg => (groupKey cm mg.name, mg) := by
  have hall : ∀ name ∈ names groups, IsWord name ∧ ents.find name = none := by
    intro name hname
    obtain ⟨mg, hmg, rfl⟩ := List.mem_map.mp hname
    exact ⟨(h.each mg hmg).name, (h.each mg hmg).free⟩
  have hlines : ∀ row ∈ writeGroupdb groups, '\n' ∉ row := by
    intro row hrow
    obtain hrow | hrow := List.mem_append.mp hrow
    · have hgdbv : ∀ w ∈ [natArg gdbvVersion], IsWord w :=
        List.forall_mem_singleton.mpr (natArg_isWord _)
      have hgfa : ∀ w ∈ [gflagsTostr gaTable gaAll], IsWord w :=
        List.forall_mem_singleton.mpr (gflags_isWord (by decide) _)
      obtain rfl | rfl := List.mem_pair.mp hrow
      · exact line_writeRow (by decide) hgdbv nil_isWord.line
      · exact line_writeRow (by decide) hgfa nil_isWord.line
    · obtain ⟨mg, hmg, hrow⟩ := List.mem_flatMap.mp hrow
      exact line_group (h.each mg hmg) (fun name hname => (hall name hname).1) row hrow
  obtain ⟨st, hhead, hready, hgroups, hids⟩ := @loadGroupRows_head cm ents lastUid
  have hstart : Loaded cm ents (names groups) [] st := by
    refine ⟨hready, fun name hname => (hall name hname).2, fun a ha b hb heq => ?_, fun name _ => ?_⟩
    · exact List.inj_on_of_nodup_map h.keys ha hb heq
    · rw [hgroups]
      rfl
  obtain ⟨st', hload, hentries⟩ := loadGroupRows_groups hstart (fun name hname => (hall name hname).1)
    h.each (fun mg hmg => List.mem_map_of_mem hmg) (fun mg _ => List.not_mem_nil)
    h.keys.of_map h.ids (fun mg _ => by rw [hids]; exact List.not_mem_nil)
  refine ⟨st', ?_, ?_⟩
  · rw [loadGroupFile, readRows_writeRows hlines, writeGroupdb, loadGroupRows_append, hhead]
    exact hload
  · rw [hentries, hgroups]
    rfl

end rows

def Reproduced (cm : CaseMapping) (ents : EntityTable) (lastUid : CString)
    (groups : List StoredGroup) : Prop :=
  ∃ st, loadGroupFile cm ents lastUid (writeRows '\n' (writeGroupdb groups)) = some st ∧
    st.groups.entries = groups.map fun mg => (groupKey cm mg.name, mg)

/-- Groups survive a restart exactly where each group that is a member of another comes first. -/
theorem reproduced_iff (cm : CaseMapping) (ents : EntityTable) (lastUid : CString)
    (groups : List StoredGroup) (h : StorableGroups cm ents groups) :
    Reproduced cm ents lastUid groups ↔ MembersFirst groups := by
  obtain ⟨st, hload, hentries⟩ := loadGroupFile_write lastUid h
  have hfirst : keptGroups [] groups = groups ↔ MembersFirst groups := by
    rw [keptGroups_eq_iff, MembersFirst]
    simp
  rw [← hfirst]
  constructor
  · rintro ⟨st', hload', hsame⟩
    obtain rfl := Option.some.inj (hload.symm.trans hload')
    have hlists := congrArg (List.map Prod.snd) (hentries.symm.trans hsame)
    rw [List.map_map, List.map_map] at hlists
    exact (List.map_id _).symm.trans (hlists.trans (List.map_id _))
  · intro hkept
    rw [hkept] at hentries
    exact ⟨st, hload, hentries⟩

def aliceTable : EntityTable where
  find name := if name = "alice".toList then some ⟨"alice".toList, "AAAAAAAAB".toList⟩ else none
  findUid uid := if uid = "AAAAAAAAB".toList then some ⟨"alice".toList, "AAAAAAAAB".toList⟩ else none

/-- `!admins`, with alice and all of `!helpers`. -/
def adminsGroup : StoredGroup :=
  ⟨"AAAAAAAAC".toList, "!admins".toList, 1500000000, mgPublic,
    [(.account ⟨"alice".toList, "AAAAAAAAB".toList⟩, gaAll ||| gaFounder),
      (.group "!helpers".toList, gaChanacs)], [("description".toList, "Those who know".toList)]⟩

def helpersGroup : StoredGroup :=
  ⟨"AAAAAAAAD".toList, "!helpers".toList, 1500000001, 0#32,
    [(.account ⟨"alice".toList, "AAAAAAAAB".toList⟩, gaAll ||| gaFounder)], []⟩

theorem storable_admins : StorableGroups .rfc1459 aliceTable [adminsGroup, helpersGroup] := by
  refine ⟨fun mg hmg => ?_, by decide, by decide⟩
  obtain rfl | rfl := List.mem_pair.mp hmg
  · refine ⟨by decide, by decide, by decide, by decide, by decide, by decide, by decide,
      fun ga hga => ?_, fun ga hga => ?_, ⟨by decide, by decide, by decide⟩⟩
    · obtain rfl | rfl := List.mem_pair.mp hga
      · exact ⟨rfl, by decide⟩
      · exact List.mem_cons_of_mem _ List.mem_cons_self
    · obtain rfl | rfl := List.mem_pair.mp hga
      · decide
      · decide
  · refine ⟨by decide, by decide, by decide, by decide, by decide, by decide, by decide,
      fun ga hga => ?_, fun ga hga => ?_, ⟨nofun, nofun, by decide⟩⟩
    · rw [List.mem_singleton.mp hga]
      exact ⟨rfl, by decide⟩
    · rw [List.mem_singleton.mp hga]
      decide

theorem reproduced_admins :
    Reproduced .rfc1459 aliceTable "AAAAAAAAD".toList [adminsGroup, helpersGroup] ↔
      MembersFirst [adminsGroup, helpersGroup] :=
  reproduced_iff _ _ _ _ storable_admins

/-- The entry of `!helpers` in `!admins` is lost. -/
theorem nested_entry_lost :
    ¬∀ (cm : CaseMapping) (ents : EntityTable) (lastUid : CString) (groups : List StoredGroup),
      StorableGroups cm ents groups → Reproduced cm ents lastUid groups := by
  intro h
  obtain ⟨st, hload, hentries⟩ := h _ _ "AAAAAAAAD".toList _ storable_admins
  obtain ⟨st', hload', hentries'⟩ := loadGroupFile_write "AAAAAAAAD".toList storable_admins
  obtain rfl := Option.some.inj (hload.symm.trans hload')
  have hsame := hentries.symm.trans hentries'
  revert hsame
  decide
end ChatServices.GroupServ
