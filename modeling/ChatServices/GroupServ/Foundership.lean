import ChatServices.GroupServ.CommandCases

/-! A group keeps a founder under FLAGS, FFLAGS, JOIN and TEMPLATE: the guard for the last founder is
jumped over only where the entry is not one of a founder, and templates have no founder flag. -/
namespace ChatServices.GroupServ
open ChatServices.Lib ChatServices.Lib.Mask ChatServices.Lib.MaskUpdate ChatServices.Text

structure Founded (s : Groups) (mg : GroupRef) : Prop where
  own : s.OwnEntries mg
  single : ∀ a ∈ s.acs mg, ∀ b ∈ s.acs mg, (s.heap a).mt = (s.heap b).mt → a = b
  founder : ∃ a ∈ s.acs mg, test (s.heap a).flags gaFounder = true

section operations
variable {cfg : GroupConfig} {s s' : Groups} {mg mg' : GroupRef} {mt : Entity} {a : AcsRef}
  {flags : Flags}

theorem Founded.of_eq (h : Founded s mg) (hacs : s'.acs mg = s.acs mg) (hheap : s'.heap = s.heap)
    (hnext : s'.next = s.next) : Founded s' mg := by
  refine ⟨?_, ?_, ?_⟩
  · rw [Groups.OwnEntries, hacs, hheap, hnext]
    exact h.own
  · rw [hacs, hheap]
    exact h.single
  · rw [hacs, hheap]
    exact h.founder

theorem Founded.read (h : Founded s mg) (as : List AcsRef) : Founded (s.read as) mg :=
  h.of_eq rfl rfl rfl

theorem Founded.updateGroup (h : Founded s mg) (mg' : GroupRef) {f : Group → Group}
    (hf : ∀ g, (f g).acs = g.acs) : Founded (s.updateGroup mg' f) mg :=
  h.of_eq (congrFun (Groups.acs_updateGroup hf) mg) rfl rfl

theorem Founded.setFlags (h : Founded s mg)
    (hkept : a ∈ s.acs mg → test (s.heap a).flags gaFounder = true →
      test flags gaFounder = false → ∃ b ∈ s.acs mg, b ≠ a ∧ test (s.heap b).flags gaFounder = true) :
    Founded (s.setFlags a flags) mg := by
  refine ⟨h.own.setFlags, fun b hb c hc heq => ?_, ?_⟩
  · rw [Groups.heap_setFlags_mt.1, Groups.heap_setFlags_mt.1] at heq
    exact h.single b hb c hc heq
  · obtain ⟨b, hb, hfounder⟩ := h.founder
    simp only [Groups.heap_setFlags]
    by_cases hba : b = a
    · subst hba
      cases hnew : test flags gaFounder with
      | true => exact ⟨b, hb, by rw [if_pos rfl]; exact hnew⟩
      | false =>
        obtain ⟨c, hc, hne, hother⟩ := hkept hb hfounder hnew
        exact ⟨c, hc, by rw [if_neg hne]; exact hother⟩
    · exact ⟨b, hb, by rw [if_neg hba]; exact hfounder⟩

theorem Founded.groupacsAdd (h : Founded s mg)
    (hnew : mg' = mg → ∀ a ∈ s.acs mg, (s.heap a).mt ≠ mt) :
    Founded (s.groupacsAdd mg' mt flags) mg := by
  have hold : ∀ b ∈ s.acs mg, (s.groupacsAdd mg' mt flags).heap b = s.heap b :=
    fun b hb => h.own.heap_add hb
  have hat : (s.groupacsAdd mg' mt flags).heap s.next = ⟨mg', mt, flags⟩ := Groups.heap_add_self
  refine ⟨h.own.groupacsAdd, fun b hb c hc heq => ?_, ?_⟩
  · obtain hb | ⟨hmg, -, rfl⟩ := Groups.mem_acs_groupacsAdd.mp hb <;>
      obtain hc | ⟨hmg', -, rfl⟩ := Groups.mem_acs_groupacsAdd.mp hc
    · rw [hold b hb, hold c hc] at heq
      exact h.single b hb c hc heq
    · rw [hold b hb, hat] at heq
      exact absurd heq (hnew hmg'.symm b hb)
    · rw [hold c hc, hat] at heq
      exact absurd heq.symm (hnew hmg.symm c hc)
    · rfl
  · obtain ⟨b, hb, hfounder⟩ := h.founder
    exact ⟨b, Groups.mem_acs_groupacsAdd.mpr (.inl hb), by rw [hold b hb]; exact hfounder⟩

theorem Founded.unlink (h : Founded s mg)
    (hkept : mg' = mg → test (s.heap a).flags gaFounder = true →
      ∃ b ∈ s.acs mg, b ≠ a ∧ test (s.heap b).flags gaFounder = true) :
    Founded (s.unlink mg' mt a) mg := by
  have hold : ∀ b ∈ (s.unlink mg' mt a).acs mg, b ∈ s.acs mg := fun b hb =>
    (Groups.mem_acs_unlink.mp hb).1
  have hheap : (s.unlink mg' mt a).heap = s.heap := rfl
  refine ⟨h.own.unlink, fun b hb c hc => h.single b (hold b hb) c (hold c hc), ?_⟩
  obtain ⟨b, hb, hfounder⟩ := h.founder
  rw [hheap]
  by_cases hgone : mg = mg' ∧ b = a
  · obtain ⟨c, hc, hne, hother⟩ := hkept hgone.1.symm (hgone.2 ▸ hfounder)
    exact ⟨c, Groups.mem_acs_unlink.mpr ⟨hc, fun hc' => hne hc'.2⟩, hother⟩
  · exact ⟨b, Groups.mem_acs_unlink.mpr ⟨hb, hgone⟩, hfounder⟩

theorem Founded.groupacsModifySimple (h : Founded s mg) (add rem : Flags) :
    Founded (s.groupacsModifySimple a add rem) mg := by
  rw [Groups.groupacsModifySimple]
  split_ifs with _ hpermits
  · exact h
  · refine h.setFlags fun _ hfounder _ => ?_
    -- the bound excludes the entries of founders
    have hsub := hpermits.2.2
    have hout : test gaAllAll gaFounder = false := by decide
    rw [test_mono hsub hfounder] at hout
    cases hout
  · exact h

theorem Founded.groupacsClose (h : Founded s mg) : Founded (s.groupacsClose a) mg := by
  rw [Groups.groupacsClose]
  split_ifs
  · exact h.of_eq rfl rfl rfl
  · exact h

end operations

section commands
variable {cfg : GroupConfig} {s s' : Groups} {si : Source} {mg : GroupRef} {a : AcsRef}
  {req : FlagsRequest} {flags : Flags} {parv : List CString} {target : Option Entity}

theorem acs_nodup (s : Groups) (mg : GroupRef) : (s.acs mg).Nodup := by
  rw [Groups.acs]
  cases s.groups.find mg with
  | none => exact List.nodup_nil
  | some g => exact g.acs.nodup

theorem mygroupCountFlag_founder (s : Groups) (mg : GroupRef) : s.mygroupCountFlag mg gaFounder =
    (s.acs mg).countP fun a => test (s.heap a).flags gaFounder :=
  if_neg (by decide)

theorem other_founder (ha : a ∈ s.acs mg) (hfounder : test (s.heap a).flags gaFounder = true)
    (hcount : s.mygroupCountFlag mg gaFounder ≠ 1) :
    ∃ b ∈ s.acs mg, b ≠ a ∧ test (s.heap b).flags gaFounder = true := by
  by_contra hnone
  apply hcount
  have honly : ∀ b ∈ (s.acs mg).filter fun b => test (s.heap b).flags gaFounder, b = a := by
    intro b hb
    obtain ⟨hmem, hf⟩ := List.mem_filter.mp hb
    by_contra hne
    exact hnone ⟨b, hmem, hne, hf⟩
  have hmem : a ∈ (s.acs mg).filter fun b => test (s.heap b).flags gaFounder :=
    List.mem_filter.mpr ⟨ha, hfounder⟩
  have hnodup : ((s.acs mg).filter fun b => test (s.heap b).flags gaFounder).Nodup :=
    (acs_nodup s mg).filter _
  rw [mygroupCountFlag_founder, List.countP_eq_length_filter]
  cases hlist : (s.acs mg).filter fun b => test (s.heap b).flags gaFounder with
  | nil =>
    rw [hlist] at hmem
    cases hmem
  | cons b rest =>
    rw [hlist] at honly hnodup
    cases rest with
    | nil => rfl
    | cons c rest =>
      have hb := honly b List.mem_cons_self
      have hc := honly c (List.mem_cons_of_mem b List.mem_cons_self)
      rw [hb, hc] at hnodup
      simp at hnodup

def KeepsFounder (s : Groups) (req : FlagsRequest) (flags : Flags) : Prop :=
  ∀ a, req.ga = some a → test (s.heap a).flags gaFounder = true → test flags gaFounder = false →
    s.mygroupCountFlag req.mg gaFounder ≠ 1

theorem Founded.assignFlags (h : Founded s mg)
    (hga : req.ga = s.groupacsFind req.mg req.mt 0#32 false) (hkept : KeepsFounder s req flags)
    (hs' : s' ∈ (assignFlags cfg s req flags).after) : Founded s' mg := by
  obtain rfl | ⟨a, hfound, -, hset⟩ | ⟨a, hfound, hflags, hgone⟩ | ⟨hfound, hadd⟩ :=
    assignFlags_cases hs'
  · exact h
  · obtain ⟨hmem, -, hmg⟩ := Groups.mem_of_groupacsFind (hga.symm.trans hfound)
    have hkeeps : Founded (s.setFlags a flags) mg := by
      refine h.setFlags fun hlisted hfounder hlost => ?_
      have heq : mg = req.mg := (h.own a hlisted).1.symm.trans hmg
      rw [heq]
      exact other_founder hmem hfounder (hkept a hfound hfounder hlost)
    obtain rfl | rfl := hset
    · exact hkeeps
    · exact hkeeps.read _
  · obtain ⟨hmem, -, -⟩ := Groups.mem_of_groupacsFind (hga.symm.trans hfound)
    have hunlinked : Founded (s.groupacsDelete req.mg req.mt) mg := by
      rw [Groups.groupacsDelete_of_find (hga.symm.trans hfound)]
      refine h.unlink fun heq hfounder => ?_
      have hlost : test flags gaFounder = false := by
        rw [hflags]
        exact test_zero_left _
      rw [← heq]
      exact other_founder hmem hfounder (hkept a hfound hfounder hlost)
    obtain ⟨-, rfl⟩ | ⟨-, rfl⟩ := hgone
    · exact hunlinked
    · exact (hunlinked.read _).read _
  · have hadded : Founded (s.groupacsAdd req.mg req.mt flags) mg := by
      refine h.groupacsAdd fun heq b hb hmt => ?_
      have hnone := hga.symm.trans hfound
      rw [Groups.groupacsFind_entry, heq] at hnone
      have hno := List.find?_eq_none.mp hnone b hb
      simp [hmt, (h.own b hb).1] at hno
    obtain rfl | rfl := hadd
    · exact hadded
    · exact hadded.read _

theorem keepsFounder_of_guard (hga : req.ga = s.groupacsFind req.mg req.mt 0#32 false)
    (h : founderGuard s si req flags = none) : KeepsFounder s req flags := by
  intro a ha hfounder hlost hcount
  obtain ⟨hmem, hmt, hmg⟩ := Groups.mem_of_groupacsFind (hga.symm.trans ha)
  have hfound : (s.groupacsFind req.mg req.mt gaFounder false).isSome = true := by
    rw [Groups.groupacsFind_literal, List.find?_isSome]
    exact ⟨a, hmem, by simp [hmt, hmg, hfounder]⟩
  rw [founderGuard, hlost, hfound, hcount] at h
  cases h

theorem keepsFounder_of_ladder (hga : req.ga = s.groupacsFind req.mg req.mt 0#32 false)
    (hold : req.oldflags = (s.entryFlags req.mg req.mt).getD 0#32) {changes : CString}
    (h : flagsLadder cfg s si changes req = .ok flags) : KeepsFounder s req flags := by
  rw [flagsLadder] at h
  split_ifs at h with hjump
  · intro a ha hfounder
    simp only [Bool.and_eq_true, Bool.not_eq_true'] at hjump
    rw [hold, Groups.entryFlags, ← hga, ha, Option.map_some, Option.getD_some, hfounder] at hjump
    simp at hjump
  · obtain ⟨hrefusal, rfl⟩ := founderGuard_ok (ite_error_ok h).2
    exact keepsFounder_of_guard hga hrefusal
  · obtain ⟨hrefusal, rfl⟩ := founderGuard_ok (ite_error_ok h).2
    exact keepsFounder_of_guard hga hrefusal

theorem Founded.look (h : Founded s mg) : Founded s.look mg := h.read _

theorem Founded.gsCmdFlags (h : Founded s mg)
    (hs' : s' ∈ (gsCmdFlags cfg s si parv target).after) : Founded s' mg := by
  obtain rfl | ⟨req, flags, hplan, hladder, hassign⟩ := gsCmdFlags_cases hs'
  · exact h.look
  · obtain ⟨-, -, hga, hold⟩ := flagsPlan_ok hplan
    exact h.look.assignFlags hga (keepsFounder_of_ladder hga hold hladder) hassign

theorem Founded.gsCmdFflags (h : Founded s mg)
    (hs' : s' ∈ (gsCmdFflags cfg s si parv target).after) : Founded s' mg := by
  obtain rfl | ⟨mg', group, mt, req, -, -, hreq, hguard, hassign⟩ := gsCmdFflags_cases hs'
  · exact h.look
  · obtain ⟨⟨hmg, -, hmt⟩, hga, -⟩ := requestFor_ok hreq
    rw [← hmg, ← hmt] at hga
    exact h.look.assignFlags hga (keepsFounder_of_guard hga hguard) hassign

theorem Founded.gsCmdJoin (h : Founded s mg) (hs' : s' ∈ (gsCmdJoin cfg s si parv).after) :
    Founded s' mg := by
  obtain rfl | ⟨mg', group, mu, -, -, hnone, hjoined⟩ := gsCmdJoin_cases hs'
  · exact h.look
  · have hadded : Founded (s.look.groupacsAdd mg' (.user mu) (joinFlags cfg group)) mg := by
      refine h.look.groupacsAdd fun heq b hb => ?_
      rw [heq] at hnone
      exact Groups.no_entry_of_groupacsFind_user hnone hb (h.own b hb).1
    obtain rfl | ⟨f, rfl⟩ := hjoined
    · exact hadded.read _
    · exact hadded.of_eq rfl rfl rfl

theorem Founded.updateEntries {crashes : Groups → AcsRef → Bool} {e : TemplateEdit}
    {mg' : GroupRef} {as : List AcsRef} (h : Founded s mg)
    (hs' : updateEntries crashes mg' e as s = some s') : Founded s' mg := by
  induction as generalizing s with
  | nil =>
    obtain rfl := Option.some.inj hs'
    exact h
  | cons a as ih =>
    rw [GroupServ.updateEntries] at hs'
    dsimp only at hs'
    split at hs'
    · exact ih (h.read _) hs'
    · split at hs'
      · exact ih (h.read _) hs'
      · split at hs'
        · cases hs'
        · exact ih (((h.read _).groupacsModifySimple _ _).read _).groupacsClose hs'

theorem Founded.gsCmdTemplate (h : Founded s mg) (hs' : s' ∈ (gsCmdTemplate cfg s si parv).after) :
    Founded s' mg := by
  obtain rfl | ⟨req, -, hchanged⟩ := gsCmdTemplate_cases hs'
  · exact h.look
  · have hset := h.look.updateGroup req.mg (f := setTemplates
      (templateEdit req.group req.target req.change req.restrictflags).newstr) fun _ => rfl
    obtain rfl | ⟨-, crashes, hloop⟩ := hchanged
    · exact hset
    · exact hset.updateEntries hloop

def GroupEvent.isAccess : GroupEvent → Bool
  | .flags .. | .fflags .. | .template .. | .join .. => true
  | _ => false

theorem Founded.step (h : Founded s mg) {e : GroupEvent} (he : e.isAccess = true) :
    Founded (groupStep cfg s e).1 mg := by
  have hexec : ∀ s' ∈ (groupExec cfg s e).after, Founded s' mg := by
    intro s' hs'
    cases e with
    | flags si parv target => exact h.gsCmdFlags hs'
    | fflags si parv target => exact h.gsCmdFflags hs'
    | template si parv => exact h.gsCmdTemplate hs'
    | join si parv => exact h.gsCmdJoin hs'
    | _ => cases he
  rw [groupStep]
  cases hout : groupExec cfg s e with
  | crash => exact h
  | done s' replies => exact hexec s' (by rw [hout]; rfl)

end commands

section expiry
variable {s : Groups} {mg mg' : GroupRef}

theorem mygroupDelete_other (h : mg ≠ mg') :
    (s.mygroupDelete mg').groups.find mg = s.groups.find mg ∧
      (s.mygroupDelete mg').heap = s.heap := by
  have hfold : ∀ (as : List AcsRef) (t : Groups),
      (as.foldl (fun s a => (s.read [a]).unlink mg' (s.heap a).mt a) t).groups.find mg =
          t.groups.find mg ∧
        (as.foldl (fun s a => (s.read [a]).unlink mg' (s.heap a).mt a) t).heap = t.heap := by
    intro as
    induction as with
    | nil => exact fun t => ⟨rfl, rfl⟩
    | cons a as ih =>
      intro t
      obtain ⟨hfind, hheap⟩ := ih ((t.read [a]).unlink mg' (t.heap a).mt a)
      refine ⟨hfind.trans ?_, hheap⟩
      have hunlink : ((t.read [a]).unlink mg' (t.heap a).mt a).groups =
          t.groups.modify mg' fun g => { g with acs := g.acs.remove a } := rfl
      rw [hunlink, Registry.find_modify, if_neg h]
  obtain ⟨hfind, hheap⟩ := hfold (s.acs mg') s
  refine ⟨?_, hheap⟩
  rw [Groups.mygroupDelete]
  dsimp only
  rw [Registry.find_erase, if_neg h]
  exact hfind

end expiry

end ChatServices.GroupServ
