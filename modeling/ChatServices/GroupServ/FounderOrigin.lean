import ChatServices.GroupServ.Foundership

/-! Where founder status comes from: FLAGS gives it only for a founder and TEMPLATE never does, but
`SET JOINFLAGS` takes the founder flag from anybody with `GA_SET`, and JOIN gives what it finds. -/
namespace ChatServices.GroupServ
open ChatServices.Lib ChatServices.Lib.Mask ChatServices.Text
open ChatServices.ChanServ (natArg strtol_natArg strtol_neg_natArg)
open ChatServices.Cidr (atoi strtol)

def Gains (s s' : Groups) (mg : GroupRef) (a : AcsRef) : Prop :=
  (a ∈ s'.acs mg ∧ test (s'.heap a).flags gaFounder = true) ∧
    ¬(a ∈ s.acs mg ∧ test (s.heap a).flags gaFounder = true)

instance (s s' : Groups) (mg : GroupRef) (a : AcsRef) : Decidable (Gains s s' mg a) :=
  inferInstanceAs (Decidable ((_ ∧ _) ∧ ¬(_ ∧ _)))

/-- Founder status is gained where `P` allows it, and no join flags change. -/
structure Steady (P : GroupRef → AcsRef → Prop) (s s' : Groups) : Prop where
  own : (∀ mg, s.OwnEntries mg) → ∀ mg, s'.OwnEntries mg
  joins : ∀ mg, (s'.groups.find mg).map Group.joinflags = (s.groups.find mg).map Group.joinflags
  gains : (∀ mg, s.OwnEntries mg) → ∀ mg a, Gains s s' mg a → P mg a

section steady
variable {s s' s'' : Groups} {mg mg' : GroupRef} {mt : Entity} {a b : AcsRef} {flags : Flags}
  {P : GroupRef → AcsRef → Prop}

theorem Steady.refl (s : Groups) : Steady P s s := ⟨id, fun _ => rfl, fun _ _ _ h => absurd h.1 h.2⟩

theorem Steady.trans (h : Steady P s s') (h' : Steady P s' s'') : Steady P s s'' := by
  refine ⟨fun hown => h'.own (h.own hown), fun mg => (h'.joins mg).trans (h.joins mg), ?_⟩
  intro hown mg a hg
  by_cases hmid : a ∈ s'.acs mg ∧ test (s'.heap a).flags gaFounder = true
  · exact h.gains hown mg a ⟨hmid, hg.2⟩
  · exact h'.gains (h.own hown) mg a ⟨hg.1, hmid⟩

theorem Steady.of_eq (hgroups : s'.groups = s.groups) (hheap : s'.heap = s.heap)
    (hnext : s'.next = s.next) : Steady P s s' := by
  have hacs : s'.acs = s.acs := by
    funext mg
    rw [Groups.acs, Groups.acs, hgroups]
  refine ⟨fun hown mg => ?_, fun mg => by rw [hgroups], fun _ mg a hg => ?_⟩
  · rw [Groups.OwnEntries, hacs, hheap, hnext]
    exact hown mg
  · rw [Gains, hacs, hheap] at hg
    exact absurd hg.1 hg.2

theorem Steady.read (s : Groups) (as : List AcsRef) : Steady P s (s.read as) := .of_eq rfl rfl rfl

theorem joins_updateGroup {f : Group → Group} (hjoins : ∀ g, (f g).joinflags = g.joinflags) :
    ((s.updateGroup mg f).groups.find mg').map Group.joinflags =
      (s.groups.find mg').map Group.joinflags := by
  rw [Groups.updateGroup]
  dsimp only
  rw [Registry.find_modify]
  split_ifs
  · cases s.groups.find mg' with
    | none => rfl
    | some g => simp [hjoins g]
  · rfl

theorem Steady.updateGroup (s : Groups) (mg : GroupRef) {f : Group → Group}
    (hacs : ∀ g, (f g).acs = g.acs) (hjoins : ∀ g, (f g).joinflags = g.joinflags) :
    Steady P s (s.updateGroup mg f) := by
  have hsame : (s.updateGroup mg f).acs = s.acs := Groups.acs_updateGroup hacs
  refine ⟨fun hown mg' => ?_, fun mg' => joins_updateGroup hjoins, fun _ mg' a hg => ?_⟩
  · rw [Groups.OwnEntries, hsame]
    exact hown mg'
  · rw [Gains, hsame] at hg
    exact absurd hg.1 hg.2

theorem Steady.setFlags (h : ∀ mg, (s.heap a).mg = mg → test flags gaFounder = true →
    ¬test (s.heap a).flags gaFounder = true → P mg a) : Steady P s (s.setFlags a flags) := by
  refine ⟨fun hown mg => (hown mg).setFlags, fun mg => rfl, fun hown mg b hg => ?_⟩
  rw [Gains, Groups.heap_setFlags] at hg
  by_cases hb : b = a
  · subst hb
    rw [if_pos rfl] at hg
    exact h mg (hown mg b hg.1.1).1 hg.1.2 fun hold => hg.2 ⟨hg.1.1, hold⟩
  · rw [if_neg hb] at hg
    exact absurd hg.1 hg.2

theorem Steady.groupacsAdd (h : test flags gaFounder = true → s.next ∉ s.acs mg → P mg s.next) :
    Steady P s (s.groupacsAdd mg mt flags) := by
  refine ⟨fun hown mg' => (hown mg').groupacsAdd, fun mg' => joins_updateGroup fun _ => rfl, ?_⟩
  intro hown mg' b hg
  obtain ⟨⟨hmem, hfounder⟩, hnot⟩ := hg
  obtain hold | ⟨rfl, -, rfl⟩ := Groups.mem_acs_groupacsAdd.mp hmem
  · rw [(hown mg').heap_add hold] at hfounder
    exact absurd ⟨hold, hfounder⟩ hnot
  · rw [Groups.heap_add_self] at hfounder
    refine h hfounder fun hold => ?_
    exact Nat.lt_irrefl _ (hown mg' _ hold).2

theorem Steady.unlink (s : Groups) (mg : GroupRef) (mt : Entity) (a : AcsRef) :
    Steady P s (s.unlink mg mt a) := by
  refine ⟨fun hown mg' => (hown mg').unlink, fun mg' => joins_updateGroup fun _ => rfl, ?_⟩
  intro _ mg' b hg
  exact absurd ⟨(Groups.mem_acs_unlink.mp hg.1.1).1, hg.1.2⟩ hg.2

theorem Steady.groupacsDelete (s : Groups) (mg : GroupRef) (mt : Entity) :
    Steady P s (s.groupacsDelete mg mt) := by
  rw [Groups.groupacsDelete]
  split
  · exact .refl s
  · exact .unlink s mg mt _

theorem Steady.groupacsModifySimple (s : Groups) (a : AcsRef) (add rem : Flags) :
    Steady P s (s.groupacsModifySimple a add rem) := by
  rw [Groups.groupacsModifySimple]
  split_ifs with _ hpermits
  · exact .refl s
  · refine .setFlags fun _ _ hgiven hnot => ?_
    have hout : test gaAllAll gaFounder = false := by decide
    rw [test_mono hpermits.result_sub hgiven] at hout
    cases hout
  · exact .refl s

theorem Steady.groupacsClose (s : Groups) (a : AcsRef) : Steady P s (s.groupacsClose a) := by
  rw [Groups.groupacsClose]
  split_ifs
  · exact .of_eq rfl rfl rfl
  · exact .refl s

theorem Steady.updateEntries {crashes : Groups → AcsRef → Bool} {e : TemplateEdit}
    {as : List AcsRef} (h : updateEntries crashes mg e as s = some s') : Steady P s s' := by
  induction as generalizing s with
  | nil =>
    obtain rfl := Option.some.inj h
    exact .refl s
  | cons a as ih =>
    rw [GroupServ.updateEntries] at h
    dsimp only at h
    have hread : Steady P s (s.read [a]) := .read s [a]
    split at h
    · exact hread.trans (ih h)
    · split at h
      · exact hread.trans (ih h)
      · split at h
        · cases h
        · have hmodify := hread.trans (.groupacsModifySimple _ a e.newflags (~~~e.newflags))
          exact ((hmodify.trans (.read _ _)).trans (.groupacsClose _ a)).trans (ih h)

end steady

/-! ### The commands -/

section commands
variable {cfg : GroupConfig} {s s' : Groups} {si : Source} {req : FlagsRequest} {flags : Flags}
  {parv : List CString} {target : Option Entity} {P : GroupRef → AcsRef → Prop}

theorem flagsLadder_founder {changes : CString}
    (h : flagsLadder cfg s si changes req = .ok flags) (hfounder : test flags gaFounder = true) :
    test (s.groupacsSourceinfoFlags req.mg si) gaFounder = true ∨
      test req.oldflags gaFounder = true := by
  by_contra hneither
  rw [not_or, Bool.not_eq_true, Bool.not_eq_true] at hneither
  obtain ⟨hsource, hold⟩ := hneither
  rw [flagsLadder] at h
  dsimp only at h
  rw [hsource, hold] at h
  cases hasked : test req.flags gaFounder with
  | true =>
    rw [hasked] at h
    obtain rfl := Except.ok.inj h
    rw [test_andNot_self] at hfounder
    cases hfounder
  | false =>
    simp only [hasked, Bool.false_and, Bool.false_eq_true, if_false] at h
    obtain ⟨-, h⟩ := ite_error_ok h
    split at h
    · cases h
    · obtain rfl := Except.ok.inj h
      rw [hasked] at hfounder
      cases hfounder

theorem Steady.assignFlags
    (h : test flags gaFounder = true → test req.oldflags gaFounder = true ∨ ∀ a, P req.mg a)
    (hga : req.ga = s.groupacsFind req.mg req.mt 0#32 false)
    (hold : req.oldflags = (s.entryFlags req.mg req.mt).getD 0#32)
    (hs' : s' ∈ (assignFlags cfg s req flags).after) : Steady P s s' := by
  rw [Groups.entryFlags, ← hga] at hold
  obtain rfl | ⟨a, hfound, -, hset⟩ | ⟨a, -, -, hgone⟩ | ⟨hfound, hadd⟩ := assignFlags_cases hs'
  · exact .refl s'
  · have hentry := Groups.mem_of_groupacsFind (hga.symm.trans hfound)
    have hkeeps : Steady P s (s.setFlags a flags) := by
      refine .setFlags fun mg hmg hgiven hnot => ?_
      obtain hhad | hany := h hgiven
      · rw [hold, hfound] at hhad
        exact absurd hhad hnot
      · rw [← hmg, hentry.2.2]
        exact hany a
    obtain rfl | rfl := hset
    · exact hkeeps
    · exact hkeeps.trans (.read _ _)
  · have hdelete : Steady P s (s.groupacsDelete req.mg req.mt) := .groupacsDelete s _ _
    obtain ⟨-, rfl⟩ | ⟨-, rfl⟩ := hgone
    · exact hdelete
    · exact (hdelete.trans (.read _ _)).trans (.read _ _)
  · have hadded : Steady P s (s.groupacsAdd req.mg req.mt flags) := by
      refine .groupacsAdd fun hgiven _ => ?_
      obtain hhad | hany := h hgiven
      · rw [hold, hfound] at hhad
        simp at hhad
      · exact hany _
    obtain rfl | rfl := hadd
    · exact hadded
    · exact hadded.trans (.read _ _)

theorem Steady.look (s : Groups) : Steady P s s.look := .read s _

theorem Steady.gsCmdFlags (hs' : s' ∈ (gsCmdFlags cfg s si parv target).after) :
    Steady (fun mg _ => test (s.groupacsSourceinfoFlags mg si) gaFounder = true) s s' := by
  obtain rfl | ⟨req, flags, hplan, hladder, hassign⟩ := gsCmdFlags_cases hs'
  · exact .look s
  · obtain ⟨-, -, hga, hold⟩ := flagsPlan_ok hplan
    refine Steady.trans (.look s) (.assignFlags (fun hgiven => ?_) hga hold hassign)
    exact (flagsLadder_founder hladder hgiven).symm.imp id fun h _ => h

theorem Steady.gsCmdTemplate (hs' : s' ∈ (gsCmdTemplate cfg s si parv).after) : Steady P s s' := by
  obtain rfl | ⟨req, -, hchanged⟩ := gsCmdTemplate_cases hs'
  · exact .look s
  · have hset : Steady P s (s.look.updateGroup req.mg (setTemplates
        (templateEdit req.group req.target req.change req.restrictflags).newstr)) :=
      Steady.trans (.look s) (.updateGroup _ _ (fun _ => rfl) fun _ => rfl)
    obtain rfl | ⟨-, crashes, hloop⟩ := hchanged
    · exact hset
    · exact hset.trans (.updateEntries hloop)

theorem Steady.gsCmdInvite {target : Option AccountRef}
    (hs' : s' ∈ (gsCmdInvite cfg s si parv target).after) : Steady P s s' := by
  obtain rfl | ⟨mu, f, rfl⟩ := gsCmdInvite_cases hs'
  · exact .look s
  · exact .of_eq rfl rfl rfl

theorem Steady.gsCmdSetOpen (hs' : s' ∈ (gsCmdSetOpen cfg s si parv).after) : Steady P s s' := by
  obtain rfl | ⟨mg, f, rfl⟩ := gsCmdSetOpen_cases hs'
  · exact .look s
  · exact Steady.trans (.look s) (.updateGroup _ _ (fun _ => rfl) fun _ => rfl)

theorem Steady.gsCmdJoin (hs' : s' ∈ (gsCmdJoin cfg s si parv).after)
    (h : ∀ mg group, parv.head?.bind (s.mygroupFind cfg) = some (mg, group) →
      test (joinFlags cfg group) gaFounder = true → s.next ∉ s.acs mg → P mg s.next) :
    Steady P s s' := by
  obtain rfl | ⟨mg, group, mu, hgroup, -, -, hjoined⟩ := gsCmdJoin_cases hs'
  · exact .look s
  · have hadd : Steady P s (s.look.groupacsAdd mg (.user mu) (joinFlags cfg group)) :=
      Steady.trans (.look s) (.groupacsAdd fun hgiven hnew => h mg group hgroup hgiven hnew)
    obtain rfl | ⟨f, rfl⟩ := hjoined
    · exact hadd.trans (.read _ _)
    · exact hadd.trans (.of_eq rfl rfl rfl)

end commands

/-! ### Join flags -/

/-- `SET JOINFLAGS` gets as far as storing these flags for the group. -/
structure StoresJoinflags (cfg : GroupConfig) (s : Groups) (si : Source) (parv : List CString)
    (mg : GroupRef) (flags : Flags) : Prop where
  group : ∃ group, s.mygroupFind cfg (parv.getD 0 []) = some (mg, group)
  source : s.groupacsSourceinfoHasFlag mg si gaSet = true
  flags : ∃ joinflags, parv[1]? = some joinflags ∧ flags = gsFlagsParser joinflags false 0#32 ∧
    strcaseEq "OFF".toList joinflags = false ∧ strcaseEq "NONE".toList joinflags = false ∧
    joinflags.head? ≠ some '-'

theorem gsCmdSetJoinflags_cases (cfg : GroupConfig) (s : Groups) (si : Source)
    (parv : List CString) :
    (∃ r, gsCmdSetJoinflags cfg s si parv = .done s.look [r]) ∨
      ∃ mg group value, s.mygroupFind cfg (parv.getD 0 []) = some (mg, group) ∧
        gsCmdSetJoinflags cfg s si parv =
          .done (s.look.updateGroup mg fun g => { g with joinflags := value }) [] ∧
        (value = none ∨ ∃ flags, StoresJoinflags cfg s si parv mg flags ∧
          value = some (numberToString flags)) := by
  rw [gsCmdSetJoinflags]
  dsimp only
  cases hgroup : s.look.mygroupFind cfg (parv.getD 0 []) with
  | none => exact .inl ⟨_, rfl⟩
  | some found =>
    obtain ⟨mg, group⟩ := found
    have hfound : s.mygroupFind cfg (parv.getD 0 []) = some (mg, group) := hgroup
    -- taking the join flags away, where there are any
    have hclear : (∃ r, gsCmdSetJoinflags.clear s.look mg group (parv.getD 0 []) =
          .done s.look [r]) ∨
        gsCmdSetJoinflags.clear s.look mg group (parv.getD 0 []) =
          .done (s.look.updateGroup mg fun g => { g with joinflags := none }) [] := by
      rw [gsCmdSetJoinflags.clear]
      split
      · exact .inr rfl
      · exact .inl ⟨_, rfl⟩
    have hcleared := hclear.imp id fun h =>
      (⟨mg, group, none, hfound, h, .inl rfl⟩ : ∃ mg' group' value,
        s.mygroupFind cfg (parv.getD 0 []) = some (mg', group') ∧
          gsCmdSetJoinflags.clear s.look mg group (parv.getD 0 []) =
            .done (s.look.updateGroup mg' fun g => { g with joinflags := value }) [] ∧
          (value = none ∨ ∃ flags, StoresJoinflags cfg s si parv mg' flags ∧
            value = some (numberToString flags)))
    dsimp only
    split
    · exact .inl ⟨_, rfl⟩
    · rename_i hsource
      rw [Bool.not_eq_true', Bool.not_eq_false] at hsource
      cases hvalue : parv[1]? with
      | none => exact hcleared
      | some joinflags =>
        dsimp only
        split
        · exact hcleared
        · rename_i hoff
          rw [Bool.or_eq_true, not_or, Bool.not_eq_true, Bool.not_eq_true] at hoff
          split
          · exact .inl ⟨_, rfl⟩
          · rename_i hminus
            refine .inr ⟨mg, group, _, hfound, rfl, .inr ⟨_, ⟨⟨group, hfound⟩, hsource,
              joinflags, hvalue, rfl, hoff.1, hoff.2, hminus⟩, rfl⟩⟩


/-! ### Runs -/

structure Audit where
  groups : Groups
  setBy : GroupRef → Bool

structure Transition where
  before : Audit
  event : GroupEvent
  after : Groups

def founderIn (s : Groups) (mg : GroupRef) (si : Source) : Bool :=
  test (s.groupacsSourceinfoFlags mg si) gaFounder

def GroupEvent.source : GroupEvent → Option Source
  | .flags si .. | .template si .. | .join si .. | .invite si .. | .setOpen si ..
  | .setJoinflags si .. => some si
  | _ => none

def GroupEvent.isJoin : GroupEvent → Bool
  | .join .. => true
  | _ => false

def Transition.Justified (t : Transition) : Prop :=
  ∀ mg a, Gains t.before.groups t.after mg a →
    (∃ si, t.event.source = some si ∧ founderIn t.before.groups mg si = true) ∨
      (t.event.isJoin = true ∧ a ∉ t.before.groups.acs mg ∧
        (∃ group, t.before.groups.groups.find mg = some group ∧ group.joinflags.isSome) ∧
        t.before.setBy mg = true)

structure AuditOk (A : Audit) : Prop where
  own : ∀ mg, A.groups.OwnEntries mg
  joins : ∀ mg group value, A.groups.groups.find mg = some group → group.joinflags = some value →
    test (BitVec.ofInt 32 (atoi value)) gaFounder = true → A.setBy mg = true

section run
variable {cfg : GroupConfig} {A : Audit} {s' : Groups} {e : GroupEvent}

theorem AuditOk.setJoinflags (h : AuditOk A) {mg : GroupRef} {value : Option CString} {by' : Bool}
    (hby : ∀ v, value = some v → test (BitVec.ofInt 32 (atoi v)) gaFounder = true → by' = true) :
    AuditOk ⟨A.groups.look.updateGroup mg fun g => { g with joinflags := value },
      Function.update A.setBy mg by'⟩ := by
  have hacs : (A.groups.look.updateGroup mg fun g => { g with joinflags := value }).acs =
      A.groups.acs := Groups.acs_updateGroup fun _ => rfl
  refine ⟨fun mg' => ?_, fun mg' group v hfind hv hfounder => ?_⟩
  · rw [Groups.OwnEntries, hacs]
    exact h.own mg'
  · dsimp only [Groups.updateGroup] at hfind ⊢
    rw [Registry.find_modify] at hfind
    rw [Function.update_apply]
    split_ifs at hfind ⊢ with hmg
    · obtain ⟨before, -, rfl⟩ := Option.map_eq_some_iff.mp hfind
      exact hby v hv hfounder
    · exact h.joins mg' group v hfind hv hfounder

end run

end ChatServices.GroupServ
