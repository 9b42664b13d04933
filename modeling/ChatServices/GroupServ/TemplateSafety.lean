import ChatServices.ChanServ.TemplateSegments
import ChatServices.ChanServ.TemplateText
import ChatServices.GroupServ.LinksRun

/-! What TEMPLATE leaves behind: the list as `get_group_template_flags` reads it, and the entries that
follow the template. A member that is no account ends the program, an emptied template leaves its
entries in the lists, and some texts come out with other names than they went in. -/
namespace ChatServices.GroupServ
open ChatServices.Lib ChatServices.Lib.Mask ChatServices.Lib.MaskUpdate ChatServices.Text
open ChatServices.ChanServ (TemplateItem templateItems rewriteTemplate appendTemplate getitem Segment
  Segmented Laid leadSegments segText segItems restOf readItem Plain)

def ownItem (group : Group) (target : CString) : Option TemplateItem :=
  (templateItems (group.templates.getD [])).find? fun i => strcaseEq target i.name

def oldFlags (group : Group) (target : CString) : Flags :=
  match ownItem group target with
  | some item => itemFlags item &&& gaAllAll
  | none => 0#32

def Empties (old : Flags) (c : Change) : Prop := Sub c.add old ∧ Sub old c.rem

instance (old : Flags) (c : Change) : Decidable (Empties old c) :=
  inferInstanceAs (Decidable (_ ∧ _))

/-- How the two readers of the list see the flags of an item. -/
def fullFlags (item : TemplateItem) : Flags := gsFlagsParser (truncate 300 item.value) true 0#32

/-- Behind spaces `get_group_item` does not see the first name. The item may go where the only other
one of its name, one space behind it, has the same flags and takes its place. -/
structure TwinBehind (items : List TemplateItem) (item : TemplateItem) (target : CString) : Prop where
  twin : ∃ twin ∈ items[1]?, strcaseEq target twin.name = true ∧ fullFlags twin = fullFlags item
  spaced : (item.rest.getD [])[1]? ≠ some ' '
  both : items.countP (fun i => strcaseEq target i.name) = 2

/-- The item comes first, behind spaces. -/
def FirstBehind (group : Group) (item : TemplateItem) : Prop :=
  (group.templates.getD []).head? = some ' ' ∧
    (templateItems (group.templates.getD [])).head? = some item

/-- The text is read the same after the change, but for the template itself: an item that is changed
is not the first behind spaces; a new name has no `=`, and comes behind an item and not behind another
word; an item that is taken out has a name of its own, and as the first of several one space behind
it. -/
def TextKept (group : Group) (target : CString) (c : Change) : Prop :=
  let items := templateItems (group.templates.getD [])
  match ownItem group target with
  | some item =>
    (FirstBehind group item →
      Empties (itemFlags item &&& gaAllAll) c ∧ TwinBehind items item target) ∧
    (¬FirstBehind group item → Empties (itemFlags item &&& gaAllAll) c →
      items.countP (fun i => strcaseEq target i.name) = 1 ∧
      (item.off = 0 → items.length = 1 ∨ (item.rest.getD [])[1]? ≠ some ' '))
  | none => '=' ∉ target ∧ (group.templates.isSome → target.head? ≠ some ' ' ∧
      ∃ item ∈ items.getLast?, ∀ c ∈ item.rest.getD [], c = ' ')

/-- The items have flags that both readers see, and the target is no name that only spaces at the
start of the text could give; no parameter of a command is one. -/
def Legible (group : Group) (target : CString) : Prop :=
  ((group.templates.getD []).head? = some ' ' → target.head? ≠ some ' ') ∧
  ∀ item ∈ templateItems (group.templates.getD []), itemFlags item &&& gaAllAll ≠ 0#32 ∧
    fullFlags item = itemFlags item &&& gaAllAll

structure TemplateLaw (group group' : Group) (target : CString) (new : Flags) : Prop where
  own : getGroupTemplateFlags group' target = new
  others : ∀ name, strcaseEq target name = false →
    getGroupTemplateFlags group' name = getGroupTemplateFlags group name

/-- The entries of a group with the flags `old`. -/
def Follows (s : Groups) (mg : GroupRef) (old : Flags) (a : AcsRef) : Prop :=
  a ∈ s.acs mg ∧ (s.heap a).flags = old

instance (s : Groups) (mg : GroupRef) (old : Flags) (a : AcsRef) : Decidable (Follows s mg old a) :=
  inferInstanceAs (Decidable (_ ∧ _))

/-- These entries get the flags `new`, and leave both of their lists if that is none. -/
structure EntriesFollow (s s' : Groups) (mg : GroupRef) (old new : Flags) : Prop where
  heap : ∀ a, s'.heap a =
    if Follows s mg old a then { s.heap a with flags := new } else s.heap a
  acs : ∀ mg' a, a ∈ s'.acs mg' ↔ a ∈ s.acs mg' ∧ ¬(new = 0#32 ∧ Follows s mg old a)
  membership : ∀ mt a, a ∈ (s'.membership mt).items ↔
    a ∈ (s.membership mt).items ∧ ¬(new = 0#32 ∧ Follows s mg old a)

structure EntriesKept (s s' : Groups) : Prop where
  heap : s'.heap = s.heap
  acs : s'.acs = s.acs
  membership : s'.membership = s.membership

def TemplateSound (cfg : GroupConfig) (s : Groups) (si : Source) (parv : List CString) : Prop :=
  ∃ s' replies, gsCmdTemplate cfg s si parv = .done s' replies ∧
    ∀ req, templatePlan cfg s si parv = some (.ok req) → replies = [] →
      let e := templateEdit req.group req.target req.change req.restrictflags
      test (e.change.add ||| e.change.rem) gaFounder = false →
        (∃ group, s'.groups.find req.mg = some group ∧
          TemplateLaw req.group group req.target e.newflags) ∧
        if req.changegroupacs then
          EntriesFollow s s' req.mg (getGroupTemplateFlags req.group req.target) e.newflags
        else EntriesKept s s'

def told (s : Groups) (a : AcsRef) : Bool := (s.heap a).mt.isUser && s.live (s.heap a).mt

/-- The entries of `done` that had the template's old flags have the new ones. -/
def changed (e : TemplateEdit) (done : List AcsRef) (s : Groups) : Groups :=
  { s with heap := fun b =>
      if b ∈ done ∧ (s.heap b).flags = e.oldflags then { s.heap b with flags := e.newflags }
      else s.heap b }

def EventPlain (s : Groups) (si : Source) (mg : GroupRef) (group : Group) (desc : CString) : Prop :=
  ∀ a ∈ s.acs mg, isTold s si.smu none (s.heap a).mt (s.heap a).flags = true →
    Plain (eventText group desc)

/-- The notices about the account of one entry, to itself and to the management. -/
def TurnPlain (cfg : GroupConfig) (si : Source) (mg : GroupRef) (group : Group) (e : TemplateEdit)
    (s : Groups) (a : AcsRef) : Prop :=
  ∀ smu ∈ si.smu, ∀ tmu, (s.heap a).mt = .user tmu →
    let source := entityName s (.user smu)
    let flagstr := bitmaskToGflags2 e.change
    (isNotified s tmu = true → Plain (targetAclText cfg group source flagstr e.newflags)) ∧
    ∀ b ∈ s.acs mg, isTold s (some smu) (some tmu) (s.heap b).mt (s.heap b).flags = true →
      Plain (groupAclText cfg group source (entityName s (.user tmu)) flagstr e.newflags)

/-- What TEMPLATE relies on where it goes through: an event that can be told, and without founder
status a text that is kept, and with `!` only accounts that can be told among the entries that follow,
and a template that is not emptied under them. -/
def TemplateSafe (cfg : GroupConfig) (s : Groups) (si : Source) (parv : List CString) : Prop :=
  ∀ req, templatePlan cfg s si parv = some (.ok req) →
    let e := templateEdit req.group req.target req.change req.restrictflags
    let old := oldFlags req.group req.target
    let group := setTemplates e.newstr req.group
    templateRefusal req.group req.target e = none →
    EventPlain s si req.mg group (templateEvent req.target e) ∧
    (test (e.change.add ||| e.change.rem) gaFounder = false →
      TextKept req.group req.target req.change ∧
      (req.changegroupacs = true → getGroupTemplateFlags req.group req.target = old ∧
        ∀ pre a post, s.acs req.mg = pre ++ a :: post → (s.heap a).flags = old →
          ¬Empties old req.change ∧ told s a = true ∧
            TurnPlain cfg si req.mg group e (changed e (pre ++ [a]) s) a))

/-! ### Flags written and read -/

section letters
variable {flags : Flags} {s : CString} {del : Bool}

theorem lastUse_plus {letter : Char} (hs : '-' ∉ s) {use : Bool × CString}
    (h : lastUse letter false s = some use) : use.1 = false := by
  induction s with
  | nil => cases h
  | cons x s ih =>
    simp only [List.mem_cons, not_or] at hs
    have hsign : (if x = '+' then false else if x = '-' then true else false) = false := by
      rw [if_neg (Ne.symm hs.1), ite_self]
    rw [lastUse, hsign] at h
    split at h
    · rename_i huse
      obtain rfl := Option.some.inj h
      exact ih hs.2 huse
    · split at h
      · obtain rfl := Option.some.inj h
        rfl
      · cases h

theorem mem_gflagLetters {c : Char} :
    c ∈ gflagLetters flags ↔ ∃ e ∈ gaTable, test e.2 flags = true ∧ e.1 = c := by
  simp only [gflagLetters, List.mem_map, List.mem_filter, and_assoc]

theorem bitmaskToGflags_length (flags : Flags) : (bitmaskToGflags flags).length ≤ 10 := by
  have hlen := List.length_filter_le (fun e : Char × Flags => test e.2 flags) gaTable
  have htable : gaTable.length = 9 := rfl
  rw [bitmaskToGflags, gflagLetters, List.length_cons, List.length_map]
  omega

theorem not_mem_bitmaskToGflags {c : Char} (hc : ∀ e ∈ gaTable, e.1 ≠ c) (hplus : c ≠ '+') :
    c ∉ bitmaskToGflags flags := by
  rw [bitmaskToGflags, List.mem_cons, mem_gflagLetters]
  rintro (rfl | ⟨e, he, -, rfl⟩)
  · exact hplus rfl
  · exact hc e he rfl

theorem gsFlagsParser_bitmaskToGflags (h : Sub flags (gaAllAll ||| gaFounder)) :
    gsFlagsParser (truncate 300 ('=' :: bitmaskToGflags flags)) true 0#32 = flags := by
  have hlen := bitmaskToGflags_length flags
  have hwhole : truncate 300 ('=' :: bitmaskToGflags flags) = '=' :: bitmaskToGflags flags := by
    rw [truncate, List.take_of_length_le]
    rw [List.length_cons]
    omega
  have hstar : '*' ∉ '=' :: bitmaskToGflags flags := by
    rw [List.mem_cons, not_or]
    exact ⟨by decide, not_mem_bitmaskToGflags (by decide) (by decide)⟩
  have hminus : '-' ∉ '=' :: bitmaskToGflags flags := by
    rw [List.mem_cons, not_or]
    exact ⟨by decide, not_mem_bitmaskToGflags (by decide) (by decide)⟩
  rw [hwhole, gsFlagsParser, ite_self]
  apply Mask.ext
  intro i
  by_cases howned : ∃ e ∈ gaTable, Has e.2 i
  · obtain ⟨e, he, hi⟩ := howned
    have hletter : e.1 ∈ '=' :: bitmaskToGflags flags ↔ Has flags i := by
      have hequal : ∀ e ∈ gaTable, e.1 ≠ '=' := by decide
      have hsigns := gaTable_signs he
      rw [List.mem_cons, bitmaskToGflags, List.mem_cons, mem_gflagLetters, ← gaTable_test he hi]
      constructor
      · rintro (h | h | ⟨e', he', htest, hsame⟩)
        · exact absurd h (hequal e he)
        · exact absurd h hsigns.1
        · rw [← gaTable_letter_inj he' he hsame, test_comm]
          exact htest
      · intro htest
        exact .inr (.inr ⟨e, he, by rw [test_comm]; exact htest, rfl⟩)
    rw [has_parsed he hi hstar, ← hletter]
    cases huse : lastUse e.1 false ('=' :: bitmaskToGflags flags) with
    | none =>
      have hnot := lastUse_none_iff.mp huse
      simp [hnot]
    | some use =>
      have hmem : e.1 ∈ '=' :: bitmaskToGflags flags := by
        by_contra hnot
        rw [lastUse_none_iff.mpr hnot] at huse
        cases huse
      simp [hmem, lastUse_plus hminus huse]
  · have hnone : ∀ e ∈ gaTable, ¬Has e.2 i := fun e he hi => howned ⟨e, he, hi⟩
    have hunion : Sub (gaAllAll ||| gaFounder) (Letters.union gaTable) := by decide
    rw [has_parsed_other hnone hstar]
    constructor
    · intro h0
      exact absurd h0 (by simp)
    · intro hi
      exact absurd (Letters.has_union.mp (hunion.has (h.has hi))) howned

end letters

/-! ### The edit -/

section edit
variable {group : Group} {target : CString} {c : Change} {restrictflags : Flags} {e : TemplateEdit}
  {item : TemplateItem}

theorem templateRefusal_none (h : templateRefusal group target e = none) :
    e.change.add ||| e.change.rem ≠ 0#32 ∧ e.denied = false ∧ e.newstr.length < 300 := by
  rw [templateRefusal] at h
  split at h
  · cases h
  split at h
  · split at h
    · cases h
    · cases h
  rename_i hchange
  split at h
  · cases h
  rename_i hdenied
  split at h
  · cases h
  rename_i hlen
  exact ⟨hchange, by simpa using hdenied, by omega⟩

theorem templateEdit_oldflags :
    (templateEdit group target c restrictflags).oldflags = oldFlags group target := by
  rw [templateEdit, oldFlags, ownItem]
  dsimp only
  cases (templateItems (group.templates.getD [])).find? (fun i => strcaseEq target i.name) with
  | none =>
    dsimp only
    split_ifs <;> rfl
  | some item =>
    dsimp only
    split_ifs <;> rfl

theorem templateEdit_own (hown : ownItem group target = some item)
    (he : templateEdit group target c restrictflags = e) (h : templateRefusal group target e = none) :
    e.newflags = result (itemFlags item &&& gaAllAll) c.add c.rem ∧
      e.newstr = rewriteTemplate (group.templates.getD []) item target
        (if e.newflags = 0#32 then none else some (bitmaskToGflags e.newflags)) := by
  obtain ⟨hchange, hdenied, -⟩ := templateRefusal_none h
  rw [ownItem] at hown
  rw [templateEdit, hown] at he
  dsimp only at he
  split at he
  · rename_i hzero
    rw [← he] at hchange
    exact absurd hzero hchange
  split at he
  · rw [← he] at hdenied
    cases hdenied
  · rw [← he]
    exact ⟨rfl, rfl⟩

theorem templateEdit_changes (hown : ownItem group target = some item)
    (he : templateEdit group target c restrictflags = e) (h : templateRefusal group target e = none) :
    e.newflags ≠ itemFlags item &&& gaAllAll := by
  rw [(templateEdit_own hown he h).1, Ne, result_eq_self_iff]
  obtain ⟨hchange, -, -⟩ := templateRefusal_none h
  rw [ownItem] at hown
  rw [templateEdit, hown] at he
  dsimp only at he
  split at he
  · rename_i hzero
    rw [← he] at hchange
    exact absurd hzero hchange
  · assumption

theorem templateEdit_new (hown : ownItem group target = none)
    (he : templateEdit group target c restrictflags = e) (h : templateRefusal group target e = none) :
    e.newflags = c.add ∧ e.newflags ≠ 0#32 ∧
      e.newstr = appendTemplate group.templates target (bitmaskToGflags e.newflags) := by
  obtain ⟨hchange, hdenied, -⟩ := templateRefusal_none h
  rw [ownItem] at hown
  rw [templateEdit, hown] at he
  dsimp only at he
  split at he
  · rename_i hzero
    rw [← he] at hchange
    exact absurd hzero hchange
  rename_i hadd
  split at he
  · rw [← he] at hdenied
    cases hdenied
  · rw [← he]
    refine ⟨rfl, ?_, rfl⟩
    simpa using hadd

theorem result_eq_zero_iff {old : Flags} : result old c.add c.rem = 0#32 ↔ Empties old c := by
  rw [eq_zero_iff, Empties, sub_iff, sub_iff]
  simp only [has_result]
  constructor
  · intro h
    have hadd : ∀ i, Has c.add i → Has old i := by
      intro i hi
      by_contra hnot
      exact h i (by tauto)
    refine ⟨hadd, fun i hi => ?_⟩
    have hi' := h i
    tauto
  · rintro ⟨hadd, hrem⟩ i hi
    have hadd' := hadd i
    have hrem' := hrem i
    tauto

theorem newflags_eq (he : templateEdit group target c restrictflags = e)
    (h : templateRefusal group target e = none) :
    e.newflags = result (oldFlags group target) c.add c.rem := by
  rw [oldFlags]
  cases hown : ownItem group target with
  | none => rw [(templateEdit_new hown he h).1, result_zero_level]
  | some item => exact (templateEdit_own hown he h).1

end edit

/-! ### The list after the edit -/

def readFlags (d : Option CString) : Flags :=
  match d with
  | some d => gsFlagsParser d true 0#32
  | none => 0#32

section text
variable {group : Group} {target name newstr : CString} {c : Change} {restrictflags : Flags}
  {e : TemplateEdit} {item : TemplateItem} {gs pre post : List Segment} {g : Segment}
  {last lead : CString}

theorem getGroupTemplateFlags_getD :
    getGroupTemplateFlags group name = readFlags (getitem (group.templates.getD []) name) := by
  rw [getGroupTemplateFlags]
  cases group.templates with
  | none => rfl
  | some text => rfl

theorem getGroupTemplateFlags_set :
    getGroupTemplateFlags (setTemplates newstr group) name = readFlags (getitem newstr name) := by
  rw [getGroupTemplateFlags_getD, setTemplates]
  dsimp only
  split_ifs with hnil
  · rw [hnil]
    rfl
  · rfl

theorem TemplateLaw.of_read {new : Flags} (hown : readFlags (getitem newstr target) = new)
    (hothers : ∀ name, strcaseEq target name = false →
      getitem newstr name = getitem (group.templates.getD []) name) :
    TemplateLaw group (setTemplates newstr group) target new := by
  refine ⟨getGroupTemplateFlags_set.trans hown, fun name hname => ?_⟩
  rw [getGroupTemplateFlags_set, getGroupTemplateFlags_getD, hothers name hname]

theorem strcaseEq_self : strcaseEq target target = true := decide_eq_true rfl

theorem ownItem_laid (h : Laid (group.templates.getD []) lead gs last) :
    (ownItem group target = none ∧ ∀ g ∈ gs, strcaseEq target g.name = false) ∨
      ∃ pre g post, gs = pre ++ g :: post ∧ (∀ q ∈ pre, strcaseEq target q.name = false) ∧
        strcaseEq target g.name = true ∧
        ownItem group target = some ⟨lead.length + (segText pre []).length, g.name, '=' :: g.value,
          restOf g.gap (segText post last)⟩ := by
  rw [ownItem, h.items]
  cases hfind : gs.find? (fun g => strcaseEq target g.name) with
  | none =>
    have hnone : ∀ g ∈ gs, strcaseEq target g.name = false := by
      simpa using List.find?_eq_none.mp hfind
    exact .inl ⟨ChanServ.find_segItems_none _ hnone, hnone⟩
  | some g =>
    obtain ⟨hg, pre, post, rfl, hpre⟩ := List.find?_eq_some_iff_append.mp hfind
    have hpre' : ∀ q ∈ pre, strcaseEq target q.name = false := by
      intro q hq
      simpa using hpre q hq
    exact .inr ⟨pre, g, post, rfl, hpre', hg, ChanServ.find_segItems _ hpre' hg⟩

/-- A name that an item has begins with no space. -/
theorem unspaced_of_mem (h : Segmented gs last) (hg : g ∈ gs) (hsame : strcaseEq target g.name = true) :
    target.head? ≠ some ' ' := by
  intro hstart
  rw [h.unspaced hstart g hg] at hsame
  cases hsame

theorem space_not_mem (flags : Flags) : ' ' ∉ bitmaskToGflags flags :=
  not_mem_bitmaskToGflags (by decide) (by decide)

theorem law_rewritten {new : Flags} (h : Laid (group.templates.getD []) lead (pre ++ g :: post) last)
    (hpre : ∀ q ∈ pre, strcaseEq target q.name = false) (hg : strcaseEq target g.name = true)
    (hfirst : lead = [] ∨ pre ≠ []) (hnew : Sub new (gaAllAll ||| gaFounder)) :
    TemplateLaw group (setTemplates
      (lead ++ segText (pre ++ ⟨target, bitmaskToGflags new, g.gap⟩ :: post) last) group) target
        new := by
  have hread := ChanServ.getitem_lead (h.segmented.put hg (space_not_mem new)) h.spaces
  have hpre' := ChanServ.leadSegments_other h.spaces hpre
    (.inr (unspaced_of_mem h.segmented (by simp) hg))
  apply TemplateLaw.of_read
  · rw [hread, ChanServ.leadSegments_append hfirst, ChanServ.readItem_put hpre' hg,
      if_pos strcaseEq_self]
    exact gsFlagsParser_bitmaskToGflags hnew
  · intro name hname
    rw [hread, ChanServ.leadSegments_append hfirst, ChanServ.readItem_put hpre' hg, hname, h.read,
      ChanServ.leadSegments_append hfirst]
    rfl

theorem law_dropped (h : Laid (group.templates.getD []) lead (pre ++ g :: post) last)
    (hpre : ∀ q ∈ pre, strcaseEq target q.name = false) (hg : strcaseEq target g.name = true)
    (hpost : ∀ q ∈ post, strcaseEq target q.name = false) (hfirst : lead = [] ∨ pre ≠ [])
    (hread : ∀ name, getitem newstr name = readItem (leadSegments lead pre ++ post) name) :
    TemplateLaw group (setTemplates newstr group) target 0#32 := by
  have hpre' := ChanServ.leadSegments_other h.spaces hpre
    (.inr (unspaced_of_mem h.segmented (by simp) hg))
  apply TemplateLaw.of_read
  · rw [hread, ChanServ.readItem_none fun q hq => (List.mem_append.mp hq).elim (hpre' q) (hpost q)]
    rfl
  · intro name hname
    rw [hread, ChanServ.readItem_drop hg hname, h.read, ChanServ.leadSegments_append hfirst]

/-- A name that spaces belong to is none that begins with something else. -/
theorem lead_other (hlead : lead ≠ []) (hspaces : ∀ c ∈ lead, c = ' ') (hstart : target.head? ≠ some ' ')
    (name : CString) : strcaseEq target (lead ++ name) = false := by
  obtain ⟨x, rest, rfl⟩ := List.exists_cons_of_ne_nil hlead
  rw [Bool.eq_false_iff]
  intro heq
  refine hstart ((ChanServ.head_of_strcaseEq (by decide) heq).mpr ?_)
  rw [hspaces x List.mem_cons_self]
  rfl

theorem law_twin {q : Segment} (h : Laid (group.templates.getD []) lead (g :: q :: post) last)
    (hlead : lead ≠ []) (hg : strcaseEq target g.name = true) (hq : strcaseEq target q.name = true)
    (hpost : ∀ r ∈ post, strcaseEq target r.name = false)
    (hsame : readFlags (some (truncate 300 ('=' :: q.value))) =
      readFlags (some (truncate 300 ('=' :: g.value)))) :
    TemplateLaw group (setTemplates (lead ++ segText (q :: post) last) group) target 0#32 := by
  have hstart := unspaced_of_mem h.segmented List.mem_cons_self hg
  have hread := ChanServ.getitem_lead h.segmented.2.2 h.spaces
  have hfirst : strcaseEq (lead ++ q.name) target = false :=
    (ChanServ.strcaseEq_comm _ _).trans (lead_other hlead h.spaces hstart _)
  refine ⟨getGroupTemplateFlags_set.trans ?_, fun name hname => ?_⟩
  · rw [hread, leadSegments, ChanServ.readItem_cons, hfirst, if_neg Bool.false_ne_true,
      ChanServ.readItem_none hpost]
    rfl
  · rw [getGroupTemplateFlags_set, getGroupTemplateFlags_getD, hread, h.read, leadSegments, leadSegments,
      ChanServ.readItem_cons, ChanServ.readItem_cons, ChanServ.readItem_cons]
    have hnames : strcaseEq (lead ++ q.name) name = strcaseEq (lead ++ g.name) name := by
      refine ChanServ.strcaseEq_trans ?_
      rw [ChanServ.strcaseEq_append, ← ChanServ.strcaseEq_trans hq, hg]
    rw [hnames, ← ChanServ.strcaseEq_trans hq, hname, if_neg Bool.false_ne_true]
    split_ifs
    · exact hsame
    · rfl

theorem law_appended {new : Flags} {p : Segment}
    (h : Laid (group.templates.getD []) lead (pre ++ [p]) [])
    (hfresh : ∀ q ∈ pre ++ [p], strcaseEq target q.name = false) (hname : '=' ∉ target)
    (hstart : target.head? ≠ some ' ') (hnew : Sub new (gaAllAll ||| gaFounder)) :
    TemplateLaw group (setTemplates (lead ++ segText (pre ++ [⟨p.name, p.value, p.gap ++ [' ']⟩,
      ⟨target, bitmaskToGflags new, []⟩]) []) group) target new := by
  have hfresh' := ChanServ.leadSegments_other h.spaces hfresh (.inr hstart)
  have hread : ∀ name, getitem (lead ++ segText (pre ++ [⟨p.name, p.value, p.gap ++ [' ']⟩,
      ⟨target, bitmaskToGflags new, []⟩]) []) name =
      if strcaseEq target name = true then some (truncate 300 ('=' :: bitmaskToGflags new))
      else readItem (leadSegments lead (pre ++ [p])) name := by
    intro name
    rw [ChanServ.getitem_lead (h.segmented.appended hname hstart (space_not_mem _) (by simp)) h.spaces,
      ChanServ.readItem_leadGap, ← ChanServ.readItem_appended hfresh', ← ChanServ.leadSegments_append
        (.inr (by simp)), List.append_assoc]
    rfl
  apply TemplateLaw.of_read
  · rw [hread, if_pos strcaseEq_self]
    exact gsFlagsParser_bitmaskToGflags hnew
  · intro name hname
    rw [hread, hname, h.read]
    rfl

theorem law_first {new : Flags} (htext : group.templates = none) (hname : '=' ∉ target)
    (hnew : Sub new (gaAllAll ||| gaFounder)) :
    TemplateLaw group (setTemplates (target ++ '=' :: bitmaskToGflags new) group) target new := by
  have hread := fun name =>
    ChanServ.getitem_single name hname (space_not_mem new)
  apply TemplateLaw.of_read
  · rw [hread, if_pos strcaseEq_self]
    exact gsFlagsParser_bitmaskToGflags hnew
  · intro name hother
    rw [hread, hother, htext]
    rfl

theorem newstr_eq {str : CString} (h : e.newstr.length < 300) (hstr : e.newstr = truncate 400 str) :
    e.newstr = str := by
  rw [hstr] at h ⊢
  exact ChanServ.truncate_of_accepted h

theorem read_dropLater {p : Segment} (h : Segmented (pre ++ p :: g :: post) last)
    (hlead : ∀ c ∈ lead, c = ' ') (name : CString) :
    getitem (lead ++ segText (pre ++ ⟨p.name, p.value, p.gap.dropLast ++ g.gap⟩ :: post) last) name =
      readItem (leadSegments lead (pre ++ [p]) ++ post) name := by
  rw [ChanServ.getitem_lead h.dropLater.2 hlead, ChanServ.readItem_leadGap,
    ← ChanServ.leadSegments_append (.inr (by simp)), List.append_assoc]
  rfl

/-- With no more than one space behind an item, what follows is the rest without it. -/
theorem gap_single (h : Segmented (g :: post) last) (hpost : post ≠ [])
    (hspace : (g.gap ++ segText post last)[1]? ≠ some ' ') : g.gap = [' '] := by
  obtain ⟨hwf, hgap, -⟩ := h
  cases hg : g.gap with
  | nil => exact absurd (hgap hg).1 hpost
  | cons x gap =>
    have hx : x = ' ' := hwf.gap x (by simp [hg])
    cases gap with
    | nil => rw [hx]
    | cons y gap =>
      have hy : y = ' ' := hwf.gap y (by simp [hg])
      rw [hg, hy] at hspace
      exact absurd rfl hspace

theorem read_dropFirst (h : Segmented (g :: post) last)
    (hspace : post = [] ∨ (g.gap ++ segText post last)[1]? ≠ some ' ') (name : CString) :
    getitem ((g.gap ++ segText post last).drop 1) name = readItem post name := by
  by_cases hpost : post = []
  · obtain ⟨hwf, -, hrest⟩ := h
    subst hpost
    have hplain : '=' ∉ (g.gap ++ segText [] last).drop 1 := by
      intro hin
      obtain hin | hin := List.mem_append.mp (List.mem_of_mem_drop hin)
      · exact absurd (hwf.gap _ hin) (by decide)
      · exact hrest.1 hin
    rw [ChanServ.getitem_plain hplain]
    rfl
  · rw [gap_single h hpost (hspace.resolve_left hpost)]
    exact ChanServ.getitem_segments h.2.2 name

theorem dropLast_space (hlead : lead ≠ []) (hspaces : ∀ c ∈ lead, c = ' ') (text : CString) :
    lead.dropLast ++ ' ' :: text = lead ++ text := by
  have hlast : lead.getLast hlead = ' ' := hspaces _ (List.getLast_mem hlead)
  conv_rhs => rw [← List.dropLast_append_getLast hlead, hlast]
  simp

theorem clean_last {p : Segment} (h : Segmented (pre ++ [p]) last)
    (hrest : ∀ c ∈ (restOf p.gap last).getD [], c = ' ') : last = [] := by
  have hstart : last.head? ≠ some ' ' := h.tail.2.2.2
  rw [ChanServ.getD_restOf] at hrest
  cases hlast : last with
  | nil => rfl
  | cons c last =>
    rw [hlast] at hstart hrest
    have hc : c = ' ' := hrest c (by simp)
    rw [hc] at hstart
    exact absurd rfl hstart

theorem firstBehind_iff (h : Laid (group.templates.getD []) lead (pre ++ g :: post) last) :
    FirstBehind group ⟨lead.length + (segText pre []).length, g.name, '=' :: g.value,
      restOf g.gap (segText post last)⟩ ↔ lead ≠ [] ∧ pre = [] := by
  rw [FirstBehind, h.head_iff, h.items]
  refine and_congr_right fun _ => ?_
  cases pre with
  | nil => simp [segItems, segText]
  | cons q pre =>
    rw [ChanServ.segText_cons]
    simp [segItems]

section kept
variable (he : templateEdit group target c restrictflags = e)
  (hrefusal : templateRefusal group target e = none)
include he hrefusal

theorem TextKept.new (h : TextKept group target c) (hnew : Sub e.newflags (gaAllAll ||| gaFounder))
    (hlaid : Laid (group.templates.getD []) lead gs last) (hown : ownItem group target = none)
    (hfresh : ∀ g ∈ gs, strcaseEq target g.name = false) :
    TemplateLaw group (setTemplates e.newstr group) target e.newflags := by
  obtain ⟨-, -, hlen⟩ := templateRefusal_none hrefusal
  rw [TextKept, hlaid.items, hown] at h
  obtain ⟨hname, hmore⟩ := h
  obtain ⟨-, -, hstr⟩ := templateEdit_new hown he hrefusal
  cases htemplates : group.templates with
  | none =>
    rw [htemplates] at hstr
    rw [newstr_eq hlen hstr]
    exact law_first htemplates hname hnew
  | some text =>
    obtain ⟨htarget, item, hitem, hrest⟩ := hmore (by rw [htemplates]; rfl)
    obtain rfl | ⟨pre, p, rfl⟩ := gs.eq_nil_or_concat'
    · cases hitem
    rw [ChanServ.getLast?_segItems] at hitem
    obtain rfl := Option.some.inj hitem
    obtain rfl := clean_last hlaid.segmented hrest
    have hsome : text = lead ++ segText (pre ++ [p]) [] := by
      rw [← hlaid.text_eq, htemplates]
      rfl
    rw [htemplates, hsome, ← List.nil_append target, ChanServ.appendTemplate_clean] at hstr
    rw [newstr_eq hlen hstr]
    exact law_appended hlaid hfresh hname htarget hnew

variable (hlaid : Laid (group.templates.getD []) lead (pre ++ g :: post) last)
  (hg : strcaseEq target g.name = true)
  (hown : ownItem group target = some ⟨lead.length + (segText pre []).length, g.name, '=' :: g.value,
    restOf g.gap (segText post last)⟩)
include hlaid hg hown

/-- The first item behind spaces goes, and the one behind it takes its place. -/
theorem TextKept.twin (h : TextKept group target c) (hlead : lead ≠ []) (hnil : pre = []) :
    TemplateLaw group (setTemplates e.newstr group) target e.newflags := by
  subst hnil
  obtain ⟨-, -, hlen⟩ := templateRefusal_none hrefusal
  obtain ⟨hflags, hstr⟩ := templateEdit_own hown he hrefusal
  rw [TextKept, hlaid.items, hown] at h
  dsimp only at h
  rw [firstBehind_iff hlaid] at h
  obtain ⟨hempties, htwin⟩ := h.1 ⟨hlead, rfl⟩
  have hzero : e.newflags = 0#32 := by
    rw [hflags, result_eq_zero_iff]
    exact hempties
  obtain ⟨twin, hmem, hsame, hread⟩ := htwin.twin
  cases post with
  | nil => cases hmem
  | cons q post =>
    obtain rfl := Option.some.inj hmem
    have hgap : g.gap = [' '] := by
      have hspaced := htwin.spaced
      rw [ChanServ.getD_restOf] at hspaced
      exact gap_single hlaid.segmented (List.cons_ne_nil q post) hspaced
    have hpost : ∀ r ∈ post, strcaseEq target r.name = false := by
      have hboth := htwin.both
      rw [List.nil_append, ChanServ.countP_segItems, List.countP_cons, List.countP_cons, hg, hsame,
        if_pos rfl] at hboth
      have hnone : post.countP (fun r => strcaseEq target r.name) = 0 := by omega
      simpa using List.countP_eq_zero.mp hnone
    rw [if_pos hzero, hlaid.text_eq] at hstr
    rw [hzero, newstr_eq hlen (hstr.trans
      (ChanServ.rewriteTemplate_none_lead (by simp [segText]) hlead rfl)), hgap,
      List.singleton_append, dropLast_space hlead hlaid.spaces]
    exact law_twin hlaid hlead hg hsame hpost hread

/-- Any other item goes. -/
theorem TextKept.emptied (h : TextKept group target c)
    (hpre : ∀ q ∈ pre, strcaseEq target q.name = false) (hfirst : lead = [] ∨ pre ≠ [])
    (hzero : e.newflags = 0#32) :
    TemplateLaw group (setTemplates e.newstr group) target e.newflags := by
  obtain ⟨-, -, hlen⟩ := templateRefusal_none hrefusal
  obtain ⟨hflags, hstr⟩ := templateEdit_own hown he hrefusal
  rw [TextKept, hlaid.items, hown] at h
  dsimp only at h
  rw [firstBehind_iff hlaid] at h
  have hempties := hzero
  rw [hflags, result_eq_zero_iff] at hempties
  obtain ⟨hsingle, hspace⟩ := h.2 (by tauto) hempties
  rw [ChanServ.countP_segItems] at hsingle
  have hpost : ∀ q ∈ post, strcaseEq target q.name = false := by
    rw [List.countP_append, List.countP_cons, hg, if_pos rfl] at hsingle
    have hnone : post.countP (fun q => strcaseEq target q.name) = 0 := by omega
    simpa using List.countP_eq_zero.mp hnone
  rw [hlaid.text_eq, if_pos hzero] at hstr
  rw [hzero]
  refine law_dropped hlaid hpre hg hpost hfirst ?_
  obtain rfl | ⟨pre, p, rfl⟩ := pre.eq_nil_or_concat'
  · obtain rfl := hfirst.resolve_right (not_not.mpr rfl)
    rw [ChanServ.length_segItems, ChanServ.getD_restOf] at hspace
    have hspace' : post = [] ∨ (g.gap ++ segText post last)[1]? ≠ some ' ' := by
      refine (hspace rfl).imp (fun hone => ?_) id
      simpa using hone
    rw [newstr_eq hlen (hstr.trans (ChanServ.rewriteTemplate_none_first rfl rfl))]
    exact read_dropFirst hlaid.segmented hspace'
  · have hseg := hlaid.segmented
    rw [List.append_assoc] at hseg hstr
    rw [newstr_eq hlen (hstr.trans
      (ChanServ.rewriteTemplate_none_later rfl rfl hseg.dropLater.1))]
    exact read_dropLater hseg hlaid.spaces

end kept

theorem TextKept.law (h : TextKept group target c)
    (he : templateEdit group target c restrictflags = e)
    (hrefusal : templateRefusal group target e = none)
    (hnew : Sub e.newflags (gaAllAll ||| gaFounder)) :
    TemplateLaw group (setTemplates e.newstr group) target e.newflags := by
  obtain ⟨lead, gs, last, hlaid⟩ := ChanServ.exists_laid (group.templates.getD [])
  obtain ⟨hown, hfresh⟩ | ⟨pre, g, post, rfl, hpre, hg, hown⟩ := ownItem_laid hlaid
  · exact h.new he hrefusal hnew hlaid hown hfresh
  · by_cases hfirst : lead ≠ [] ∧ pre = []
    · exact h.twin he hrefusal hlaid hg hown hfirst.1 hfirst.2
    have hfirst' : lead = [] ∨ pre ≠ [] := by tauto
    by_cases hzero : e.newflags = 0#32
    · exact h.emptied he hrefusal hlaid hg hown hpre hfirst' hzero
    · obtain ⟨-, -, hlen⟩ := templateRefusal_none hrefusal
      obtain ⟨-, hstr⟩ := templateEdit_own hown he hrefusal
      rw [hlaid.text_eq, if_neg hzero] at hstr
      rw [newstr_eq hlen (hstr.trans (ChanServ.rewriteTemplate_some_segments rfl rfl))]
      exact law_rewritten hlaid hpre hg hfirst' hnew

/-! ### What a text that follows the law is like -/

theorem strcaseEq_length {a b : CString} (h : strcaseEq a b = true) : a.length = b.length := by
  have hcanon : strcasecanon a = strcasecanon b := of_decide_eq_true h
  simpa [strcasecanon] using congrArg List.length hcanon

theorem strcaseEq_of_length {a b : CString} (h : a.length ≠ b.length) : strcaseEq a b = false := by
  rw [Bool.eq_false_iff]
  exact fun hsame => h (strcaseEq_length hsame)

theorem Legible.flags (h : Legible group target) (hlaid : Laid (group.templates.getD []) lead gs last)
    (hg : g ∈ gs) : readFlags (some (truncate 300 ('=' :: g.value))) ≠ 0#32 := by
  obtain ⟨item, hitem, hvalue⟩ := ChanServ.exists_segItem lead.length hg
  rw [← hlaid.items] at hitem
  obtain ⟨hsome, hsame⟩ := h.2 item hitem
  rw [fullFlags, hvalue] at hsame
  rw [readFlags, hsame]
  exact hsome

theorem Legible.start (h : Legible group target) (hlaid : Laid (group.templates.getD []) lead gs last) :
    lead = [] ∨ target.head? ≠ some ' ' := by
  rw [or_iff_not_imp_left]
  exact fun hlead => h.1 (hlaid.head_iff.mpr hlead)

theorem TextKept.old (h : TextKept group target c) (hlegible : Legible group target) :
    getGroupTemplateFlags group target = oldFlags group target := by
  obtain ⟨lead, gs, last, hlaid⟩ := ChanServ.exists_laid (group.templates.getD [])
  rw [getGroupTemplateFlags_getD, oldFlags, hlaid.read]
  obtain ⟨hown, hfresh⟩ | ⟨pre, g, post, rfl, hpre, hg, hown⟩ := ownItem_laid hlaid
  · have hother := ChanServ.leadSegments_other hlaid.spaces hfresh (hlegible.start hlaid)
    rw [hown, ChanServ.readItem_none hother]
    rfl
  · have hsame := (hlegible.2 _ (List.mem_of_find?_eq_some hown)).2
    rw [TextKept, hown] at h
    dsimp only at h
    rw [hlaid.items, firstBehind_iff hlaid] at h
    rw [hown]
    by_cases hfirst : lead ≠ [] ∧ pre = []
    · obtain ⟨twin, hmem, hname, htwin⟩ := (h.1 hfirst).2.twin
      obtain ⟨hlead, rfl⟩ := hfirst
      have hother := lead_other hlead hlaid.spaces (unspaced_of_mem hlaid.segmented (by simp) hg) g.name
      cases post with
      | nil => cases hmem
      | cons q post =>
        obtain rfl := Option.some.inj hmem
        rw [List.nil_append, leadSegments, ChanServ.readItem_cons, ChanServ.strcaseEq_comm, hother,
          if_neg Bool.false_ne_true, ChanServ.readItem_cons, ChanServ.strcaseEq_comm, hname, if_pos rfl]
        exact htwin.trans hsame
    · have hpre' := ChanServ.leadSegments_other hlaid.spaces hpre
        (.inr (unspaced_of_mem hlaid.segmented (by simp) hg))
      rw [ChanServ.leadSegments_append (by tauto), ChanServ.readItem_append,
        ChanServ.readItem_none hpre', ChanServ.readItem_cons, ChanServ.strcaseEq_comm, hg, if_pos rfl]
      exact hsame

theorem TemplateLaw.read {new : Flags} (h : TemplateLaw group (setTemplates newstr group) target new) :
    readFlags (getitem newstr target) = new ∧ ∀ name, strcaseEq target name = false →
      readFlags (getitem newstr name) = readFlags (getitem (group.templates.getD []) name) := by
  refine ⟨?_, fun name hname => ?_⟩
  · rw [← getGroupTemplateFlags_set]
    exact h.own
  · rw [← getGroupTemplateFlags_set, ← getGroupTemplateFlags_getD]
    exact h.others name hname

theorem read_behind {flags : Flags} (h : Segmented gs last) (hspaces : ∀ c ∈ lead, c = ' ')
    (hname : '=' ∉ target) (hfresh : ∀ q ∈ gs, strcaseEq target q.name = false)
    (hstart : lead = [] ∨ target.head? ≠ some ' ') (hbehind : gs = [] ∨ last ≠ []) :
    getitem (lead ++ segText (gs ++ [⟨last ++ ' ' :: target, bitmaskToGflags flags, []⟩]) []) target =
      none := by
  have hlonger : ∀ front : CString, strcaseEq target (front ++ ' ' :: target) = false := by
    intro front
    apply strcaseEq_of_length
    simp only [List.length_append, List.length_cons]
    omega
  by_cases hlast : last = []
  · obtain rfl := hbehind.resolve_right (not_not.mpr hlast)
    have hequal : '=' ∉ lead ++ ' ' :: target := by
      simp only [List.mem_append, List.mem_cons, not_or]
      exact ⟨fun hin => absurd (hspaces _ hin) (by decide), by decide, hname⟩
    have htext : lead ++ segText ([] ++ [⟨last ++ ' ' :: target, bitmaskToGflags flags, []⟩]) [] =
        (lead ++ ' ' :: target) ++ '=' :: bitmaskToGflags flags := by
      simp [segText, Segment.text, hlast]
    rw [htext, ChanServ.getitem_single _ hequal (space_not_mem _), ChanServ.strcaseEq_comm, hlonger]
    rfl
  · rw [ChanServ.getitem_lead (h.appendedWord hlast hname (space_not_mem _)) hspaces]
    refine ChanServ.readItem_none (ChanServ.leadSegments_other hspaces (fun q hq => ?_) hstart)
    obtain hq | hq := List.mem_append.mp hq
    · exact hfresh q hq
    · rw [List.mem_singleton.mp hq]
      exact hlonger last

theorem read_spaced {flags : Flags} {p : Segment} (h : Segmented (pre ++ [p]) [])
    (hname : '=' ∉ target) (hfresh : ∀ q ∈ pre ++ [p], strcaseEq target q.name = false)
    (hstart : target.head? = some ' ') :
    getitem (segText (pre ++ [⟨p.name, p.value, p.gap ++ ' ' :: target.takeWhile (· = ' ')⟩,
      ⟨target.dropWhile (· = ' '), bitmaskToGflags flags, []⟩]) []) target = none := by
  have hspaces : ∀ c ∈ target.takeWhile (· = ' '), c = ' ' := by
    intro c hc
    simpa using List.mem_takeWhile_imp hc
  have hequal : '=' ∉ target.dropWhile (· = ' ') := fun hin =>
    hname ((List.dropWhile_suffix _).subset hin)
  have hshorter : strcaseEq (target.dropWhile (· = ' ')) target = false := by
    apply strcaseEq_of_length
    cases target with
    | nil => cases hstart
    | cons c target =>
      obtain rfl : c = ' ' := Option.some.inj hstart
      have hle := (List.dropWhile_suffix (l := target) (· = ' ')).length_le
      rw [List.dropWhile_cons_of_pos (by simp), List.length_cons]
      omega
  rw [ChanServ.getitem_segments (h.appended hequal (ChanServ.dropSpaces_head target) (space_not_mem _)
    hspaces), ChanServ.readItem_gap, List.append_cons, ChanServ.readItem_append,
    ChanServ.readItem_none hfresh, ChanServ.readItem_cons, hshorter]
  rfl

theorem TemplateLaw.new (hlegible : Legible group target)
    (he : templateEdit group target c restrictflags = e)
    (hrefusal : templateRefusal group target e = none)
    (h : TemplateLaw group (setTemplates e.newstr group) target e.newflags)
    (hlaid : Laid (group.templates.getD []) lead gs last)
    (hown : ownItem group target = none) (hfresh : ∀ g ∈ gs, strcaseEq target g.name = false) :
    '=' ∉ target ∧ (group.templates.isSome → target.head? ≠ some ' ' ∧
      ∃ item ∈ (templateItems (group.templates.getD [])).getLast?,
        ∀ c ∈ item.rest.getD [], c = ' ') := by
  obtain ⟨-, -, hlen⟩ := templateRefusal_none hrefusal
  obtain ⟨-, hnew, hstr⟩ := templateEdit_new hown he hrefusal
  have hfound : getitem e.newstr target ≠ none := by
    intro hnone
    have hread := h.read.1
    rw [hnone] at hread
    exact hnew hread.symm
  have hname : '=' ∉ target := fun hin => hfound (ChanServ.getitem_equals hin)
  refine ⟨hname, fun hsome => ?_⟩
  obtain ⟨text, htemplates⟩ := Option.isSome_iff_exists.mp hsome
  have hsegs : text = lead ++ segText gs last := by
    rw [← hlaid.text_eq, htemplates]
    rfl
  rw [htemplates, hsegs] at hstr
  have hclean : gs ≠ [] ∧ last = [] := by
    by_contra hnot
    have hbehind : gs = [] ∨ last ≠ [] := by tauto
    rw [newstr_eq hlen (hstr.trans ChanServ.appendTemplate_word)] at hfound
    exact hfound (read_behind hlaid.segmented hlaid.spaces hname hfresh (hlegible.start hlaid) hbehind)
  obtain ⟨hitems, rfl⟩ := hclean
  obtain rfl | ⟨pre, p, rfl⟩ := gs.eq_nil_or_concat'
  · exact absurd rfl hitems
  refine ⟨fun hstart => ?_, ?_⟩
  · obtain rfl := (hlegible.start hlaid).resolve_right (not_not.mpr hstart)
    have hsplit : target.takeWhile (· = ' ') ++ target.dropWhile (· = ' ') = target :=
      List.takeWhile_append_dropWhile
    have hput : appendTemplate (some (segText (pre ++ [p]) [])) target (bitmaskToGflags e.newflags) =
        truncate 400 (segText (pre ++ [⟨p.name, p.value, p.gap ++ ' ' :: target.takeWhile (· = ' ')⟩,
          ⟨target.dropWhile (· = ' '), bitmaskToGflags e.newflags, []⟩]) []) := by
      nth_rewrite 1 [← hsplit]
      exact @ChanServ.appendTemplate_clean [] pre p _ _ _
    rw [newstr_eq hlen (hstr.trans hput)] at hfound
    exact hfound (read_spaced hlaid.segmented hname hfresh hstart)
  · rw [hlaid.items, ChanServ.getLast?_segItems]
    refine ⟨_, rfl, fun c hc => ?_⟩
    rw [ChanServ.getD_restOf] at hc
    exact hlaid.segmented.tail.1.gap c (by simpa [segText] using hc)

theorem head_of_gap {gap : CString} {c : Char} (hc : c ∈ gap) (hgap : ∀ c ∈ gap, c = ' ')
    (b : CString) : (gap ++ b).head? = some ' ' := by
  cases gap with
  | nil => cases hc
  | cons x gap =>
    rw [hgap x List.mem_cons_self]
    rfl

theorem TemplateLaw.space {new : Flags} (hlegible : Legible group target)
    (h : TemplateLaw group (setTemplates ((g.gap ++ segText post last).drop 1) group) target new)
    (hlaid : Laid (group.templates.getD []) [] (g :: post) last)
    (hg : strcaseEq target g.name = true) :
    post = [] ∨ (g.gap ++ segText post last)[1]? ≠ some ' ' := by
  by_contra hnot
  rw [not_or, not_not] at hnot
  obtain ⟨hpost, hsecond⟩ := hnot
  cases post with
  | nil => exact hpost rfl
  | cons q post =>
    have hseg := hlaid.segmented
    have hwf := hseg.1
    have hgap := hseg.2.1
    have hrest := hseg.2.2
    have hstart := hrest.start
    cases hg' : g.gap with
    | nil => cases (hgap hg').1
    | cons x gap =>
      have hspaces : ∀ c ∈ gap, c = ' ' := by
        intro c hc
        exact hwf.gap c (by simp [hg', hc])
      have hmore : ' ' ∈ gap := by
        rw [hg'] at hsecond
        cases gap with
        | nil =>
          rw [List.singleton_append, List.getElem?_cons_succ, ← List.head?_eq_getElem?] at hsecond
          exact absurd hsecond hstart
        | cons y gap =>
          rw [hspaces y List.mem_cons_self]
          exact List.mem_cons_self
      have hlead : (gap ++ q.name).head? = some ' ' := head_of_gap hmore hspaces _
      have hunnamed := hseg.unspaced hlead
      have hother : strcaseEq target (gap ++ q.name) = false := by
        rw [ChanServ.strcaseEq_trans hg, ChanServ.strcaseEq_comm]
        exact hunnamed g List.mem_cons_self
      have hread := h.read.2 _ hother
      have hdrop : (g.gap ++ segText (q :: post) last).drop 1 =
          gap ++ segText (q :: post) last := by
        rw [hg']
        rfl
      rw [hlaid.read, ChanServ.leadSegments_nil, ChanServ.readItem_none hunnamed, hdrop,
        ChanServ.getitem_lead hrest hspaces] at hread
      rw [leadSegments, ChanServ.readItem_cons, if_pos strcaseEq_self] at hread
      exact hlegible.flags hlaid (List.mem_cons_of_mem g List.mem_cons_self) hread

theorem TemplateLaw.single (hlegible : Legible group target)
    (h : TemplateLaw group (setTemplates newstr group) target 0#32)
    (hread : getitem newstr target = readItem post target)
    (hlaid : Laid (group.templates.getD []) lead gs last) (hsub : ∀ q ∈ post, q ∈ gs) :
    ∀ q ∈ post, strcaseEq target q.name = false := by
  intro q hq
  rw [Bool.eq_false_iff]
  intro hsame
  obtain ⟨r, hr, hitem⟩ := ChanServ.readItem_some ⟨q, hq, hsame⟩
  have hown := h.read.1
  rw [hread, hitem] at hown
  exact hlegible.flags hlaid (hsub r hr) hown

theorem TemplateLaw.emptied (hlegible : Legible group target)
    (he : templateEdit group target c restrictflags = e)
    (hrefusal : templateRefusal group target e = none)
    (h : TemplateLaw group (setTemplates e.newstr group) target e.newflags)
    (hlaid : Laid (group.templates.getD []) lead (pre ++ g :: post) last)
    (hfirst : lead = [] ∨ pre ≠ []) (hpre : ∀ q ∈ pre, strcaseEq target q.name = false)
    (hg : strcaseEq target g.name = true) (hzero : e.newflags = 0#32)
    (hown : ownItem group target = some ⟨lead.length + (segText pre []).length, g.name, '=' :: g.value,
      restOf g.gap (segText post last)⟩) :
    (∀ q ∈ post, strcaseEq target q.name = false) ∧
      (pre = [] → post = [] ∨ (g.gap ++ segText post last)[1]? ≠ some ' ') := by
  obtain ⟨-, -, hlen⟩ := templateRefusal_none hrefusal
  obtain ⟨-, hstr⟩ := templateEdit_own hown he hrefusal
  rw [if_pos hzero, hlaid.text_eq] at hstr
  rw [hzero] at h
  obtain rfl | ⟨pre, p, rfl⟩ := pre.eq_nil_or_concat'
  · obtain rfl := hfirst.resolve_right (not_not.mpr rfl)
    rw [newstr_eq hlen (hstr.trans (ChanServ.rewriteTemplate_none_first rfl rfl))] at h
    have hspace := h.space hlegible hlaid hg
    have hread := read_dropFirst hlaid.segmented hspace target
    exact ⟨h.single hlegible hread hlaid fun q hq => by simp [hq], fun _ => hspace⟩
  · have hpre' := ChanServ.leadSegments_other hlaid.spaces hpre
      (.inr (unspaced_of_mem hlaid.segmented (by simp) hg))
    have hseg := hlaid.segmented
    rw [List.append_assoc] at hseg hstr
    rw [newstr_eq hlen (hstr.trans
      (ChanServ.rewriteTemplate_none_later rfl rfl hseg.dropLater.1))] at h
    have hread := read_dropLater hseg hlaid.spaces target
    rw [ChanServ.readItem_append, ChanServ.readItem_none hpre', Option.none_or] at hread
    refine ⟨h.single hlegible hread hlaid fun q hq => by simp [hq], fun hpre => ?_⟩
    exact absurd hpre (by simp)

/-- The name of the first item with the spaces in front of it is read like any other. -/
theorem TemplateLaw.firstName {new : Flags}
    (h : TemplateLaw group (setTemplates newstr group) target new)
    (hlaid : Laid (group.templates.getD []) lead (g :: post) last) (hlead : lead ≠ [])
    (hg : strcaseEq target g.name = true) :
    readFlags (getitem newstr (lead ++ g.name)) = readFlags (some (truncate 300 ('=' :: g.value))) := by
  have hstart := unspaced_of_mem hlaid.segmented List.mem_cons_self hg
  have hread := h.read.2 _ (lead_other hlead hlaid.spaces hstart g.name)
  rwa [hlaid.read, leadSegments, ChanServ.readItem_cons, if_pos strcaseEq_self] at hread

theorem TemplateLaw.twin (h : TemplateLaw group (setTemplates
      (lead.dropLast ++ (g.gap ++ segText post last)) group) target 0#32)
    (hlegible : Legible group target)
    (hlaid : Laid (group.templates.getD []) lead (g :: post) last) (hlead : lead ≠ [])
    (hg : strcaseEq target g.name = true) :
    TwinBehind (templateItems (group.templates.getD []))
      ⟨lead.length, g.name, '=' :: g.value, restOf g.gap (segText post last)⟩ target := by
  have hstart := unspaced_of_mem hlaid.segmented List.mem_cons_self hg
  have hfirst := h.firstName hlaid hlead hg
  have hsome := hlegible.flags hlaid List.mem_cons_self
  obtain ⟨hwf, hgap, hpost⟩ := hlaid.segmented
  cases post with
  | nil =>
    have hplain : '=' ∉ lead.dropLast ++ (g.gap ++ segText [] last) := by
      simp only [List.mem_append, not_or]
      refine ⟨fun hin => ?_, fun hin => ?_, hpost.1⟩
      · exact absurd (hlaid.spaces _ (List.mem_of_mem_dropLast hin)) (by decide)
      · exact absurd (hwf.gap _ hin) (by decide)
    rw [ChanServ.getitem_plain hplain] at hfirst
    exact absurd hfirst.symm hsome
  | cons q post =>
    cases hgap' : g.gap with
    | nil => cases (hgap hgap').1
    | cons x gap =>
      have hspaces : ∀ c ∈ lead ++ gap, c = ' ' := by
        intro c hc
        obtain hc | hc := List.mem_append.mp hc
        · exact hlaid.spaces c hc
        · exact hwf.gap c (by simp [hgap', hc])
      have htext : lead.dropLast ++ (g.gap ++ segText (q :: post) last) =
          (lead ++ gap) ++ segText (q :: post) last := by
        rw [hgap', hwf.gap x (by simp [hgap']), List.cons_append,
          dropLast_space hlead hlaid.spaces, List.append_assoc]
      have hread := ChanServ.getitem_lead hpost hspaces
      rw [htext] at h hfirst
      rw [hread, leadSegments, ChanServ.readItem_cons] at hfirst
      cases hsame : strcaseEq (lead ++ gap ++ q.name) (lead ++ g.name) with
      | false =>
        have hspaced : (lead ++ g.name).head? = some ' ' := by
          obtain ⟨x, hx⟩ := List.exists_mem_of_ne_nil lead hlead
          exact head_of_gap hx hlaid.spaces _
        rw [hsame, if_neg Bool.false_ne_true,
          ChanServ.readItem_none (hpost.2.2.unspaced hspaced)] at hfirst
        exact absurd hfirst.symm hsome
      | true =>
        rw [hsame, if_pos rfl] at hfirst
        rw [List.append_assoc, ChanServ.strcaseEq_append] at hsame
        have hnil : gap = [] := by
          by_contra hne
          obtain ⟨y, hy⟩ := List.exists_mem_of_ne_nil gap hne
          have hgapped := head_of_gap hy (fun c hc => hspaces c (List.mem_append_right _ hc)) q.name
          exact hwf.start ((ChanServ.head_of_strcaseEq (by decide) hsame).mp hgapped)
        subst hnil
        have hq : strcaseEq target q.name = true := by
          rw [ChanServ.strcaseEq_trans hg, ChanServ.strcaseEq_comm]
          exact hsame
        have hunread := lead_other hlead hlaid.spaces hstart q.name
        rw [List.append_nil] at h hread
        have hown := hread target
        rw [leadSegments, ChanServ.readItem_cons, ChanServ.strcaseEq_comm, hunread,
          if_neg Bool.false_ne_true] at hown
        have hnone := h.single hlegible hown hlaid fun r hr => by simp [hr]
        have hcount : post.countP (fun r => strcaseEq target r.name) = 0 := by
          simpa [List.countP_eq_zero] using hnone
        rw [hlaid.items]
        refine ⟨⟨_, rfl, hq, hfirst⟩, ?_, ?_⟩
        · rw [ChanServ.getD_restOf, List.singleton_append, List.getElem?_cons_succ,
            ← List.head?_eq_getElem?]
          exact hpost.start
        · rw [ChanServ.countP_segItems, List.countP_cons, List.countP_cons, hg, hq, hcount]
          rfl

theorem TemplateLaw.kept (hlegible : Legible group target)
    (he : templateEdit group target c restrictflags = e)
    (hrefusal : templateRefusal group target e = none)
    (hnew : Sub e.newflags (gaAllAll ||| gaFounder))
    (h : TemplateLaw group (setTemplates e.newstr group) target e.newflags) :
    TextKept group target c := by
  obtain ⟨-, -, hlen⟩ := templateRefusal_none hrefusal
  obtain ⟨lead, gs, last, hlaid⟩ := ChanServ.exists_laid (group.templates.getD [])
  rw [TextKept]
  obtain ⟨hown, hfresh⟩ | ⟨pre, g, post, rfl, hpre, hg, hown⟩ := ownItem_laid hlaid
  · rw [hown]
    exact h.new hlegible he hrefusal hlaid hown hfresh
  · rw [hown]
    dsimp only
    rw [firstBehind_iff hlaid, ← result_eq_zero_iff, ← (templateEdit_own hown he hrefusal).1]
    refine ⟨?_, fun hfirst hzero => ?_⟩
    · rintro ⟨hlead, rfl⟩
      obtain ⟨hflags, hstr⟩ := templateEdit_own hown he hrefusal
      rw [hlaid.text_eq] at hstr
      by_cases hzero : e.newflags = 0#32
      · rw [if_pos hzero] at hstr
        rw [hzero, newstr_eq hlen (hstr.trans
          (ChanServ.rewriteTemplate_none_lead rfl hlead rfl))] at h
        exact ⟨hzero, h.twin hlegible hlaid hlead hg⟩
      · rw [if_neg hzero] at hstr
        rw [newstr_eq hlen (hstr.trans
          (ChanServ.rewriteTemplate_some_lead rfl rfl))] at h
        have hfirst := h.firstName hlaid hlead hg
        have hput : Segmented (⟨target, bitmaskToGflags e.newflags, g.gap⟩ :: post) last :=
          hlaid.segmented.put hg (space_not_mem _)
        rw [ChanServ.getitem_lead hput hlaid.spaces, leadSegments, ChanServ.readItem_cons, ChanServ.strcaseEq_append, hg,
          if_pos rfl, readFlags, gsFlagsParser_bitmaskToGflags hnew] at hfirst
        have hsame := (hlegible.2 _ (List.mem_of_find?_eq_some hown)).2
        exact absurd (hfirst.trans hsame) (templateEdit_changes hown he hrefusal)
    · obtain ⟨hpost, hspace⟩ := h.emptied hlegible he hrefusal hlaid (by tauto) hpre hg hzero hown
      rw [hlaid.items, ChanServ.countP_segItems, ChanServ.length_segItems, ChanServ.getD_restOf]
      refine ⟨?_, fun hoff => ?_⟩
      · have hnopre : pre.countP (fun q => strcaseEq target q.name) = 0 := by
          simpa [List.countP_eq_zero] using hpre
        have hnopost : post.countP (fun q => strcaseEq target q.name) = 0 := by
          simpa [List.countP_eq_zero] using hpost
        rw [List.countP_append, List.countP_cons, hg, hnopre, hnopost]
        rfl
      · cases pre with
        | nil =>
          refine (hspace rfl).imp (fun hnil => ?_) id
          rw [hnil]
          rfl
        | cons q pre =>
          rw [ChanServ.segText_cons] at hoff
          simp at hoff

end text

/-! ### The entries -/

section entries
variable {s s' : Groups} {mg : GroupRef} {e : TemplateEdit} {a b : AcsRef} {as : List AcsRef}

theorem groupacsModifySimple_eq {new : Flags} (hold : Sub (s.heap a).flags gaAllAll)
    (hnew : Sub new gaAllAll) : s.groupacsModifySimple a new (~~~new) = s.setFlags a new := by
  have hresult := result_replace hold hnew
  rw [Groups.groupacsModifySimple]
  split_ifs with htouched hpermits
  · rw [touched, ← result_eq_self_iff, hresult] at htouched
    rw [Groups.setFlags, htouched, Function.update_eq_self]
  · rw [hresult]
  · exact absurd (permits_of_sub hold (and_sub_right _ _)) hpermits

theorem changed_heap {done : List AcsRef} : (changed e done s).heap b =
    if b ∈ done ∧ (s.heap b).flags = e.oldflags then { s.heap b with flags := e.newflags }
    else s.heap b := rfl

theorem changed_mt {done : List AcsRef} : ((changed e done s).heap b).mt = (s.heap b).mt := by
  rw [changed_heap]
  split_ifs <;> rfl

theorem changed_cons (ha : a ∉ as) (hheap : s'.heap = (changed e [a] s).heap) :
    (changed e as s').heap = (changed e (a :: as) s).heap := by
  funext b
  rw [changed_heap, changed_heap, hheap, changed_heap]
  by_cases hb : b = a
  · subst hb
    simp [ha]
  · simp [hb]

theorem setFlags_eq_changed (ha : (s.heap a).flags = e.oldflags) :
    (s.setFlags a e.newflags).heap = (changed e [a] s).heap := by
  funext b
  rw [Groups.heap_setFlags, changed_heap]
  by_cases hb : b = a
  · subst hb
    simp [ha]
  · simp [hb]

/-- The states are the same to the notices. -/
structure Alike (s s' : Groups) : Prop where
  heap : s'.heap = s.heap
  groups : s'.groups = s.groups
  accounts : s'.accounts = s.accounts

variable {crashes : Groups → AcsRef → Bool}

/-- One turn of the loop. -/
theorem updateEntries_cons (mg : GroupRef) (a : AcsRef) (as : List AcsRef) (s : Groups)
    (hsub : Sub e.oldflags gaAllAll ∧ Sub e.newflags gaAllAll)
    (hf : test (e.change.add ||| e.change.rem) gaFounder = false)
    (hcongr : ∀ s s' a, Alike s s' → crashes s' a = crashes s a) :
    ∃ s₁ : Groups, Alike (changed e [a] s) s₁ ∧ s₁.membership = s.membership ∧
      updateEntries crashes mg e (a :: as) s =
        if (s.heap a).flags = e.oldflags ∧ crashes (changed e [a] s) a = true then none
        else updateEntries crashes mg e as s₁ := by
  rw [updateEntries]
  dsimp only
  by_cases hflags : (s.heap a).flags = e.oldflags
  · have hset : (s.read [a]).groupacsModifySimple a e.newflags (~~~e.newflags) =
        (s.read [a]).setFlags a e.newflags :=
      groupacsModifySimple_eq (by rw [Groups.read_heap, hflags]; exact hsub.1) hsub.2
    have halike : Alike (changed e [a] s) ((s.read [a]).setFlags a e.newflags) :=
      ⟨setFlags_eq_changed hflags, rfl, rfl⟩
    rw [if_neg (by rw [Groups.read_heap]; exact not_not.mpr hflags), hf, if_neg Bool.false_ne_true,
      hset, hcongr _ _ a halike]
    refine ⟨_, ?_, ?_, by simp only [hflags, true_and]; rfl⟩
    · rw [Groups.groupacsClose]
      split_ifs
      · exact ⟨halike.heap, rfl, rfl⟩
      · exact ⟨halike.heap, rfl, rfl⟩
    · rw [Groups.groupacsClose]
      split_ifs <;> rfl
  · refine ⟨s.read [a], ⟨?_, rfl, rfl⟩, rfl, ?_⟩
    · funext b
      rw [changed_heap, if_neg]
      · rfl
      · rintro ⟨hb, hold⟩
        rw [List.mem_singleton.mp hb] at hold
        exact hflags hold
    · rw [Groups.read_heap, if_pos hflags, if_neg fun h => hflags h.1]

theorem updateEntries_some (hsub : Sub e.oldflags gaAllAll ∧ Sub e.newflags gaAllAll)
    (hf : test (e.change.add ||| e.change.rem) gaFounder = false)
    (hcongr : ∀ s s' a, Alike s s' → crashes s' a = crashes s a) (hnodup : as.Nodup)
    (h : updateEntries crashes mg e as s = some s') :
    Alike (changed e as s) s' ∧ s'.membership = s.membership := by
  induction as generalizing s with
  | nil =>
    obtain rfl := Option.some.inj h
    refine ⟨⟨?_, rfl, rfl⟩, rfl⟩
    funext b
    simp [changed_heap]
  | cons a as ih =>
    obtain ⟨hnot, hnodup⟩ := List.nodup_cons.mp hnodup
    obtain ⟨s₁, halike, hmembership, hstep⟩ := updateEntries_cons mg a as s hsub hf hcongr
    rw [hstep] at h
    split at h
    · cases h
    · obtain ⟨hrest, hmembership'⟩ := ih hnodup h
      refine ⟨⟨?_, hrest.groups.trans halike.groups, hrest.accounts.trans halike.accounts⟩,
        hmembership'.trans hmembership⟩
      rw [hrest.heap, changed_cons hnot halike.heap]

/-- The loop goes through if no turn ends the program, each with the entries before it changed. -/
theorem updateEntries_isSome_iff (hsub : Sub e.oldflags gaAllAll ∧ Sub e.newflags gaAllAll)
    (hf : test (e.change.add ||| e.change.rem) gaFounder = false)
    (hcongr : ∀ s s' a, Alike s s' → crashes s' a = crashes s a) (hnodup : as.Nodup) :
    (updateEntries crashes mg e as s).isSome ↔ ∀ pre a post, as = pre ++ a :: post →
      (s.heap a).flags = e.oldflags → crashes (changed e (pre ++ [a]) s) a = false := by
  induction as generalizing s with
  | nil => simp [updateEntries]
  | cons a as ih =>
    obtain ⟨hnot, hnodup⟩ := List.nodup_cons.mp hnodup
    obtain ⟨s₁, halike, -, hstep⟩ := updateEntries_cons mg a as s hsub hf hcongr
    have hrest : ∀ pre b post, as = pre ++ b :: post →
        ((s₁.heap b).flags = e.oldflags ↔ (s.heap b).flags = e.oldflags) ∧
          crashes (changed e (pre ++ [b]) s₁) b = crashes (changed e (a :: pre ++ [b]) s) b := by
      rintro pre b post rfl
      have hpre : a ∉ pre ++ [b] := by
        intro hin
        exact hnot (by simp only [List.mem_append, List.mem_cons] at hin ⊢; tauto)
      have hne : b ≠ a := by
        rintro rfl
        exact hpre (by simp)
      refine ⟨?_, hcongr _ _ b ⟨changed_cons hpre halike.heap, halike.groups, halike.accounts⟩⟩
      rw [halike.heap, changed_heap, if_neg fun h => hne (List.mem_singleton.mp h.1)]
    rw [hstep]
    constructor
    · intro h pre b post hsplit hold
      split at h
      · cases h
      rename_i hturn
      cases pre with
      | nil =>
        obtain ⟨rfl, rfl⟩ := List.cons.inj hsplit
        simpa [hold] using hturn
      | cons q pre =>
        obtain ⟨rfl, has⟩ := List.cons.inj hsplit
        obtain ⟨hflags, hcrash⟩ := hrest pre b post has
        rw [← hcrash]
        exact (ih hnodup).mp h pre b post has (hflags.mpr hold)
    · intro h
      rw [if_neg, ih hnodup]
      · intro pre b post has hold
        obtain ⟨hflags, hcrash⟩ := hrest pre b post has
        rw [hcrash]
        exact h (a :: pre) b post (by rw [has]; rfl) (hflags.mp hold)
      · rintro ⟨hold, hcrash⟩
        have hsafe := h [] a as rfl hold
        rw [List.nil_append, hcrash] at hsafe
        cases hsafe

/-! ### The notices -/

theorem acs_congr (h : s'.groups = s.groups) : s'.acs = s.acs := by
  funext mg
  rw [Groups.acs, Groups.acs, h]

theorem told_congr (hmt : (s'.heap a).mt = (s.heap a).mt)
    (haccounts : s'.accounts = s.accounts) : told s' a = told s a := by
  rw [told, told, hmt]
  cases (s.heap a).mt with
  | user mu => simp [Groups.live, haccounts]
  | group mg => rfl
  | ext x => rfl

theorem isTold_congr (haccounts : s'.accounts = s.accounts) : isTold s' = isTold s := by
  funext smu tmu mt flags
  cases mt with
  | user mu => simp only [isTold, notifyacl, haccounts]
  | group mg => rfl
  | ext x => rfl

theorem turnCrashes_congr {cfg : GroupConfig} {si : Source} {group : Group}
    (hheap : s'.heap = s.heap) (hacs : s'.acs mg = s.acs mg) (haccounts : s'.accounts = s.accounts) :
    turnCrashes cfg si mg group e s' a = turnCrashes cfg si mg group e s a := by
  simp only [turnCrashes, hheap, hacs, isTold_congr haccounts, isNotified, entityName, Groups.live,
    haccounts]

theorem turnCrashes_alike (cfg : GroupConfig) (si : Source) (mg : GroupRef) (group : Group)
    (e : TemplateEdit) (s s' : Groups) (a : AcsRef) (h : Alike s s') :
    turnCrashes cfg si mg group e s' a = turnCrashes cfg si mg group e s a :=
  turnCrashes_congr h.heap (congrFun (acs_congr h.groups) mg) h.accounts

theorem turnCrashes_eq_false {cfg : GroupConfig} {si : Source} {group : Group}
    (hsmu : si.smu.isSome) : turnCrashes cfg si mg group e s a = false ↔
      told s a = true ∧ TurnPlain cfg si mg group e s a := by
  obtain ⟨smu, hsmu⟩ := Option.isSome_iff_exists.mp hsmu
  rw [turnCrashes, told, TurnPlain, hsmu]
  cases (s.heap a).mt with
  | user tmu =>
    dsimp only
    rw [Bool.or_eq_false_iff, Bool.or_eq_false_iff, ChanServ.any_and_noticeCrashes,
      ChanServ.and_noticeCrashes]
    simp [Entity.isUser, and_assoc]
  | group mg => simp [Entity.isUser]
  | ext x => simp [Entity.isUser]

/-- No member has asked to be told of changes. -/
def quiet (s : Groups) (mg : GroupRef) : Bool :=
  (s.acs mg).all fun a =>
    match (s.heap a).mt with
    | .user mu => !notifyacl s mu
    | _ => true

theorem eventCrashes_eq_false {si : Source} {group : Group} {desc : CString} :
    eventCrashes s si mg group desc = false ↔ EventPlain s si mg group desc := by
  rw [eventCrashes, ChanServ.any_and_noticeCrashes]
  rfl

theorem updateEntries_founder (hf : test (e.change.add ||| e.change.rem) gaFounder = true) :
    ∃ s', updateEntries crashes mg e as s = some s' := by
  induction as generalizing s with
  | nil => exact ⟨s, rfl⟩
  | cons a as ih =>
    rw [updateEntries]
    dsimp only
    split
    · exact ih
    · exact ih

end entries

/-! ### The command -/

section command
variable {cfg : GroupConfig} {s s' : Groups} {si : Source} {parv : List CString}
  {req : TemplateRequest} {e : TemplateEdit}

def stored (s : Groups) (req : TemplateRequest) (e : TemplateEdit) : Groups :=
  s.look.updateGroup req.mg (setTemplates e.newstr)

theorem stored_acs : (stored s req e).acs = s.acs := Groups.acs_updateGroup fun _ => rfl

theorem gsCmdTemplate_through (hplan : templatePlan cfg s si parv = some (.ok req))
    (he : templateEdit req.group req.target req.change req.restrictflags = e)
    (hrefusal : templateRefusal req.group req.target e = none) :
    gsCmdTemplate cfg s si parv =
      if eventCrashes s si req.mg (setTemplates e.newstr req.group) (templateEvent req.target e)
      then .crash
      else if req.changegroupacs then
        match updateEntries (turnCrashes cfg si req.mg (setTemplates e.newstr req.group) e) req.mg e
          (s.acs req.mg) (stored s req e) with
        | none => .crash
        | some s' => .done s' []
      else .done (stored s req e) [] := by
  have hlook : templatePlan cfg s.look si parv = some (.ok req) := hplan
  have hevent : eventCrashes (stored s req e) = eventCrashes s := by
    funext si mg group desc
    have haccounts : (stored s req e).accounts = s.accounts := rfl
    rw [eventCrashes, eventCrashes, stored_acs, isTold_congr haccounts]
    rfl
  rw [gsCmdTemplate]
  dsimp only
  rw [hlook]
  dsimp only
  rw [he, hrefusal]
  dsimp only
  rw [← stored, stored_acs, hevent]
  cases req.changegroupacs <;> rfl

theorem gsCmdTemplate_stopped (hplan : templatePlan cfg s si parv ≠ none)
    (hstop : ∀ req, templatePlan cfg s si parv = some (.ok req) →
      templateRefusal req.group req.target
        (templateEdit req.group req.target req.change req.restrictflags) ≠ none) :
    ∃ replies, gsCmdTemplate cfg s si parv = .done s.look replies ∧
      ∀ req, templatePlan cfg s si parv = some (.ok req) → replies ≠ [] := by
  cases hcase : templatePlan cfg s si parv with
  | none => exact absurd hcase hplan
  | some plan =>
    have hlook : templatePlan cfg s.look si parv = some plan := hcase
    cases plan with
    | error replies =>
      refine ⟨replies, ?_, fun req hreq => ?_⟩
      · rw [gsCmdTemplate]
        dsimp only
        rw [hlook]
      · cases hreq
    | ok req =>
      cases hrefusal : templateRefusal req.group req.target
          (templateEdit req.group req.target req.change req.restrictflags) with
      | none => exact absurd hrefusal (hstop req hcase)
      | some r =>
        refine ⟨[r], ?_, fun _ _ => List.cons_ne_nil _ _⟩
        rw [gsCmdTemplate]
        dsimp only
        rw [hlook]
        dsimp only
        rw [hrefusal]

theorem stored_find (hgroup : s.groups.find req.mg = some req.group) :
    (stored s req e).groups.find req.mg = some (setTemplates e.newstr req.group) := by
  rw [stored, Groups.updateGroup]
  dsimp only
  rw [Registry.find_modify, if_pos rfl]
  exact congrArg (Option.map _) hgroup

/-- The turns of the loop, read in the state before the command. -/
theorem updateEntries_stored (hplan : templatePlan cfg s si parv = some (.ok req))
    (hsub : Sub e.oldflags gaAllAll ∧ Sub e.newflags gaAllAll)
    (hf : test (e.change.add ||| e.change.rem) gaFounder = false) {group : Group} :
    (updateEntries (turnCrashes cfg si req.mg group e) req.mg e (s.acs req.mg)
        (stored s req e)).isSome ↔
      ∀ pre a post, s.acs req.mg = pre ++ a :: post → (s.heap a).flags = e.oldflags →
        told s a = true ∧ TurnPlain cfg si req.mg group e (changed e (pre ++ [a]) s) a := by
  have hsmu := (templatePlan_ok hplan).2.1
  rw [updateEntries_isSome_iff hsub hf (turnCrashes_alike cfg si req.mg group e)
    (acs_nodup s req.mg)]
  refine forall₃_congr fun pre a post => imp_congr_right fun _ => imp_congr_right fun _ => ?_
  have hstored : turnCrashes cfg si req.mg group e (changed e (pre ++ [a]) (stored s req e)) a =
      turnCrashes cfg si req.mg group e (changed e (pre ++ [a]) s) a :=
    turnCrashes_congr rfl (congrFun (stored_acs (s := s)) _) rfl
  have htold : told (changed e (pre ++ [a]) s) a = told s a := told_congr changed_mt rfl
  rw [hstored, turnCrashes_eq_false hsmu, htold]

theorem TemplateSafe.sound (hplan : templatePlan cfg s si parv ≠ none)
    (h : TemplateSafe cfg s si parv) : TemplateSound cfg s si parv := by
  by_cases hgoes : ∃ req, templatePlan cfg s si parv = some (.ok req) ∧
      templateRefusal req.group req.target
        (templateEdit req.group req.target req.change req.restrictflags) = none
  · obtain ⟨req, hreq, hrefusal⟩ := hgoes
    have hthrough := gsCmdTemplate_through hreq rfl hrefusal
    obtain ⟨hgroup, -, hadd⟩ := templatePlan_ok hreq
    obtain ⟨hevent, hrest⟩ := h req hreq hrefusal
    rw [if_neg (by rw [eventCrashes_eq_false.mpr hevent]; exact Bool.false_ne_true)] at hthrough
    generalize he : templateEdit req.group req.target req.change req.restrictflags = e
      at hrefusal hthrough hrest
    cases hf : test (e.change.add ||| e.change.rem) gaFounder with
    | true =>
      have hends : ∃ s', gsCmdTemplate cfg s si parv = .done s' [] := by
        rw [hthrough]
        obtain ⟨s', hrun⟩ := updateEntries_founder (s := stored s req e) hf
        rw [hrun]
        split
        · exact ⟨s', rfl⟩
        · exact ⟨_, rfl⟩
      obtain ⟨s', hdone⟩ := hends
      refine ⟨s', [], hdone, fun req' hreq' _ hf' => ?_⟩
      rw [hreq] at hreq'
      obtain rfl := Except.ok.inj (Option.some.inj hreq')
      rw [he, hf] at hf'
      cases hf'
    | false =>
      obtain ⟨hkept, hentries⟩ := hrest hf
      have hsub := templateEdit_sub he hadd hf
      have hlaw := hkept.law he hrefusal (hsub.2.trans (sub_or_left _ _))
      cases hbang : req.changegroupacs with
      | false =>
        rw [hbang, if_neg Bool.false_ne_true] at hthrough
        refine ⟨_, [], hthrough, fun req' hreq' _ _ => ?_⟩
        rw [hreq] at hreq'
        obtain rfl := Except.ok.inj (Option.some.inj hreq')
        rw [he, hbang, if_neg Bool.false_ne_true]
        exact ⟨⟨_, stored_find hgroup, hlaw⟩, rfl, stored_acs, rfl⟩
      | true =>
        obtain ⟨halike, hall⟩ := hentries hbang
        have holds : e.oldflags = oldFlags req.group req.target := by
          rw [← he, templateEdit_oldflags]
        have hruns := (updateEntries_stored hreq hsub hf).mpr fun pre a post hsplit hflags =>
          (hall pre a post hsplit (hflags.trans holds)).2
        obtain ⟨s', hrun⟩ := Option.isSome_iff_exists.mp hruns
        obtain ⟨hchanged, hmembership⟩ := updateEntries_some hsub hf
          (turnCrashes_alike cfg si req.mg _ e) (acs_nodup s req.mg) hrun
        have hgroups : s'.groups = (stored s req e).groups := hchanged.groups
        rw [hbang, if_pos rfl, hrun] at hthrough
        have hnone : ∀ a, ¬(e.newflags = 0#32 ∧ Follows s req.mg
            (getGroupTemplateFlags req.group req.target) a) := by
          rintro a ⟨hzero, ha, hold⟩
          obtain ⟨pre, post, hsplit⟩ := List.append_of_mem ha
          rw [newflags_eq he hrefusal, result_eq_zero_iff] at hzero
          exact (hall pre a post hsplit (hold.trans halike)).1 hzero
        refine ⟨s', [], hthrough, fun req' hreq' _ _ => ?_⟩
        rw [hreq] at hreq'
        obtain rfl := Except.ok.inj (Option.some.inj hreq')
        rw [he, hbang, if_pos rfl]
        refine ⟨⟨_, by rw [hgroups]; exact stored_find hgroup, hlaw⟩, fun a => ?_, fun mg' a => ?_,
          fun mt a => ?_⟩
        · rw [hchanged.heap, changed_heap, halike, ← holds]
          rfl
        · rw [acs_congr hgroups, stored_acs]
          exact ⟨fun ha => ⟨ha, hnone a⟩, And.left⟩
        · rw [hmembership]
          exact ⟨fun ha => ⟨ha, hnone a⟩, And.left⟩
  · obtain ⟨replies, hdone, hreplies⟩ := gsCmdTemplate_stopped hplan
      fun req hreq hrefusal => hgoes ⟨req, hreq, hrefusal⟩
    exact ⟨s.look, replies, hdone, fun req hreq hnil => absurd hnil (hreplies req hreq)⟩

theorem TemplateSound.ends (h : TemplateSound cfg s si parv) :
    (gsCmdTemplate cfg s si parv).after.isSome = true := by
  obtain ⟨s', replies, hdone, -⟩ := h
  rw [hdone]
  rfl

end command
end ChatServices.GroupServ
