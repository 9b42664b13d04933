import ChatServices.GroupServ.NestedGroups

/-! The flag levels of FLAGS: what a source without founder status may do to the entry of somebody
else. Asking for founder status jumps over the checks on the other flags, and an entry that keeps its
founder flag is not recognised as the entry of a founder. -/
namespace ChatServices.GroupServ
open ChatServices.Lib ChatServices.Lib.Mask ChatServices.Text

def Outcome.after : Outcome → Option Groups
  | .crash => none
  | .done s _ => some s

/-- The flags of an entry before and after a command, `none` where there is no entry. -/
structure LevelsKept (source : Flags) (old new : Option Flags) : Prop where
  founder : test (new.getD 0#32) gaFounder = test (old.getD 0#32) gaFounder
  privileged : test (old.getD 0#32) gaFounder = true ∨ test (old.getD 0#32) gaSet = true → new = old
  set_not_added : test (new.getD 0#32) gaSet = true → test (old.getD 0#32) gaSet = true
  flags_kept : test source gaSet = false → test (old.getD 0#32) gaFlags = true → new = old
  flags_not_added : test source gaSet = false → test (new.getD 0#32) gaFlags = true →
    test (old.getD 0#32) gaFlags = true

namespace Groups
variable (s s' : Groups)

/-- The flags of the entry of `mt`. -/
def entryFlags (mg : GroupRef) (mt : Entity) : Option Flags :=
  (s.groupacsFind mg mt 0#32 false).map fun a => (s.heap a).flags

/-- The flags, after a command, of the entry that `mt` had before it or has got. -/
def entryFlagsAfter (mg : GroupRef) (mt : Entity) : Option Flags :=
  match s.groupacsFind mg mt 0#32 false with
  | some a => if a ∈ s'.acs mg then some (s'.heap a).flags else none
  | none => s'.entryFlags mg mt

end Groups

structure ForeignFlags (cfg : GroupConfig) (s : Groups) (si : Source) (parv : List CString)
    (target : Option Entity) (mg : GroupRef) (group : Group) (mt : Entity) : Prop where
  group : parv.head?.bind (s.mygroupFind cfg) = some (mg, group)
  target : target = some mt
  foreign : si.smu.map Entity.user ≠ some mt
  source : test (s.groupacsSourceinfoFlags mg si) gaFounder = false

def FlagsLevelled (cfg : GroupConfig) (s : Groups) (si : Source) (parv : List CString)
    (target : Option Entity) : Prop :=
  cfg.noLeveledFlags = false →
    ∀ mg group mt, ForeignFlags cfg s si parv target mg group mt →
      ∀ s' ∈ (gsCmdFlags cfg s si parv target).after,
        LevelsKept (s.groupacsSourceinfoFlags mg si) (s.entryFlags mg mt)
          (s.entryFlagsAfter s' mg mt)

def listFull (cfg : GroupConfig) (s : Groups) (req : FlagsRequest) : Bool :=
  req.ga.isNone && decide ((s.acs req.mg).length > cfg.maxgroupacs) &&
    !test req.group.flags mgAcsnolimit

def nothingAsked (cfg : GroupConfig) (s : Groups) (req : FlagsRequest) (flags : Flags) : Prop :=
  flags = req.oldflags ∧ (req.ga.isSome → flags ≠ 0#32) ∨ listFull cfg s req = true

def BelowLevel (source flags : Flags) : Prop :=
  test flags gaSet = false ∧ (test source gaSet = true ∨ test flags gaFlags = false)

/-- Founder status is asked for only with flags below the level of the source, for an entry below
it, and an entry with founder status is asked to keep it only where the checks on the other flags
refuse the change. -/
def AskedWithinLevels (cfg : GroupConfig) (s : Groups) (si : Source) (req : FlagsRequest) : Prop :=
  let source := s.groupacsSourceinfoFlags req.mg si
  test req.flags gaFounder = true →
    if test req.oldflags gaFounder then
      req.flags = req.oldflags ∨ ¬BelowLevel source (req.oldflags ||| req.flags)
    else
      nothingAsked cfg s req (req.flags &&& ~~~gaFounder) ∨
        BelowLevel source (req.oldflags ||| req.flags)

def FlagsWithinLevels (cfg : GroupConfig) (s : Groups) (si : Source) (parv : List CString)
    (target : Option Entity) : Prop :=
  cfg.noLeveledFlags = false →
    ∀ mg group mt, ForeignFlags cfg s si parv target mg group mt →
      ∀ req, flagsPlan cfg s si parv (target.filter s.live) = .ok req →
        AskedWithinLevels cfg s si req

section command
variable {cfg : GroupConfig} {s s' : Groups} {si : Source} {parv : List CString}
  {target : Option Entity} {req : FlagsRequest} {replies : List ChanServ.Reply}

theorem requestFor_ok {mg : GroupRef} {group : Group} {mt : Entity} {changes : CString}
    (h : requestFor s mg group mt changes = .ok req) :
    (req.mg = mg ∧ req.group = group ∧ req.mt = mt) ∧ req.ga = s.groupacsFind mg mt 0#32 false ∧
      req.oldflags = (s.entryFlags mg mt).getD 0#32 := by
  rw [requestFor] at h
  split at h
  · cases h
  · cases h
    exact ⟨⟨rfl, rfl, rfl⟩, rfl, rfl⟩

theorem ite_error_ok {ε α : Type} {c : Prop} [Decidable c] {e : ε} {x : Except ε α} {r : α}
    (h : (if c then .error e else x) = .ok r) : ¬c ∧ x = .ok r := by
  split_ifs at h with hc
  exact ⟨hc, h⟩

theorem flagsPlan_ok (h : flagsPlan cfg s si parv target = .ok req) :
    parv.head?.bind (s.mygroupFind cfg) = some (req.mg, req.group) ∧ target = some req.mt ∧
      req.ga = s.groupacsFind req.mg req.mt 0#32 false ∧
      req.oldflags = (s.entryFlags req.mg req.mt).getD 0#32 := by
  cases parv with
  | nil => cases h
  | cons name params =>
    obtain ⟨-, h⟩ := ite_error_ok h
    cases hgroup : s.mygroupFind cfg name with
    | none =>
      rw [hgroup] at h
      cases h
    | some found =>
      rw [hgroup] at h
      obtain ⟨-, h⟩ := ite_error_ok h
      match params, h with
      | [], h =>
        obtain ⟨-, h⟩ := ite_error_ok h
        cases h
      | [who], h =>
        obtain ⟨-, h⟩ := ite_error_ok h
        cases target <;> cases h
      | who :: changes :: rest, h =>
        obtain ⟨-, h⟩ := ite_error_ok h
        cases target with
        | none => cases h
        | some mt =>
          obtain ⟨-, h⟩ := ite_error_ok h
          obtain ⟨-, h⟩ := ite_error_ok h
          cases hreq : requestFor s found.1 found.2 mt changes with
          | error r =>
            rw [hreq] at h
            cases h
          | ok req' =>
            rw [hreq] at h
            obtain ⟨-, h⟩ := ite_error_ok h
            cases h
            obtain ⟨⟨hmg, hg, hmt⟩, hga, hold⟩ := requestFor_ok hreq
            rw [hmg, hg, hmt]
            exact ⟨hgroup, rfl, hga, hold⟩

def assigned (cfg : GroupConfig) (s : Groups) (req : FlagsRequest) (flags : Flags) : Option Flags :=
  match req.ga with
  | some _ => if flags ≠ 0#32 then some flags else none
  | none => if flags = 0#32 ∨ listFull cfg s req = true then none else some flags

theorem entryFlagsAfter_self (mg : GroupRef) (mt : Entity) :
    s.entryFlagsAfter s mg mt = s.entryFlags mg mt := by
  rw [Groups.entryFlagsAfter, Groups.entryFlags]
  cases h : s.groupacsFind mg mt 0#32 false with
  | none => simp
  | some a => simp [(Groups.mem_of_groupacsFind h).1]

theorem LevelsKept.refl (source : Flags) (old : Option Flags) : LevelsKept source old old :=
  ⟨rfl, fun _ => rfl, id, fun _ _ => rfl, fun _ => id⟩

theorem assignFlags_after (hga : req.ga = s.groupacsFind req.mg req.mt 0#32 false)
    (hgroup : (s.groups.find req.mg).isSome) {flags : Flags}
    (h : s' ∈ (assignFlags cfg s req flags).after) :
    s.entryFlagsAfter s' req.mg req.mt = assigned cfg s req flags := by
  rw [assignFlags] at h
  rw [Groups.entryFlagsAfter, ← hga, assigned]
  cases hfound : req.ga with
  | some a =>
    have hentry := Groups.mem_of_groupacsFind (hga.symm.trans hfound)
    rw [hfound] at h
    dsimp only at h ⊢
    by_cases hflags : flags = 0#32
    · rw [if_neg (not_not.mpr hflags)] at h ⊢
      obtain rfl := Option.some.inj h
      have hgone : a ∉ (s.groupacsDelete req.mg req.mt).acs req.mg := by
        rw [Groups.groupacsDelete_of_find (hga.symm.trans hfound), Groups.mem_acs_unlink]
        exact fun hmem => hmem.2 ⟨rfl, rfl⟩
      rw [if_neg]
      cases req.mt.isUser <;> exact hgone
    · rw [if_pos hflags] at h ⊢
      by_cases hsame : (s.heap a).flags = flags
      · rw [if_pos hsame] at h
        obtain rfl := Option.some.inj h
        rw [if_pos hentry.1, hsame]
      · rw [if_neg hsame] at h
        obtain rfl := Option.some.inj h
        cases req.mt.isUser <;> simp [hentry.1, Groups.heap_setFlags]
  | none =>
    rw [hfound] at h
    dsimp only at h ⊢
    have hnone := hga.symm.trans hfound
    have hold : s.entryFlags req.mg req.mt = none := by rw [Groups.entryFlags, hnone]; rfl
    by_cases hflags : flags = 0#32
    · rw [if_pos hflags] at h
      obtain rfl := Option.some.inj h
      rw [hold, if_pos (.inl hflags)]
    · rw [if_neg hflags] at h
      by_cases hfull : listFull cfg s req = true
      · have hcond := hfull
        simp only [listFull, hfound, Option.isNone_none, Bool.true_and] at hcond
        rw [if_pos (by simpa using hcond)] at h
        obtain rfl := Option.some.inj h
        rw [hold, if_pos (.inr hfull)]
      · have hcond := hfull
        simp only [listFull, hfound, Option.isNone_none, Bool.true_and] at hcond
        rw [if_neg (by simpa using hcond)] at h
        obtain rfl := Option.some.inj h
        have hnew : (s.groupacsAdd req.mg req.mt flags).entryFlags req.mg req.mt = some flags := by
          rw [Groups.entryFlags, Groups.groupacsFind_groupacsAdd hnone hgroup]
          simp [Groups.heap_groupacsAdd]
        rw [if_neg (not_or.mpr ⟨hflags, hfull⟩)]
        cases req.mt.isUser <;> exact hnew

theorem founderGuard_ok {asked flags : Flags} (h : (match founderGuard s si req asked with
      | some r => Except.error r
      | none => .ok asked) = .ok flags) : founderGuard s si req asked = none ∧ flags = asked := by
  cases hrefusal : founderGuard s si req asked with
  | some r =>
    rw [hrefusal] at h
    cases h
  | none =>
    rw [hrefusal] at h
    exact ⟨rfl, (Except.ok.inj h).symm⟩

theorem flagsLadder_ok (hlevel : cfg.noLeveledFlags = false)
    (hsource : test (s.groupacsSourceinfoFlags req.mg si) gaFounder = false)
    (hforeign : si.smu.map Entity.user ≠ some req.mt) {changes : CString} {flags : Flags}
    (h : flagsLadder cfg s si changes req = .ok flags) :
    (test req.flags gaFounder = true ∧ test req.oldflags gaFounder = false ∧
        flags = req.flags &&& ~~~gaFounder) ∨
      (test req.flags gaFounder = test req.oldflags gaFounder ∧ flags = req.flags ∧
        BelowLevel (s.groupacsSourceinfoFlags req.mg si) (req.oldflags ||| req.flags)) := by
  have hown : ownRemoval si req changes = false := by simp [ownRemoval, hforeign]
  -- past the ladder, the flags are those asked for and below the level of the source
  have hpassed : ∀ x : Except ChanServ.Reply Flags,
      (if !cfg.noLeveledFlags && !ownRemoval si req changes &&
        ((test req.oldflags gaFlags || test req.flags gaFlags) &&
            !(test (s.groupacsSourceinfoFlags req.mg si) gaSet || false) ||
          (test req.oldflags gaSet || test req.flags gaSet)) then
        .error notAuthorized else x) = .ok flags →
      x = .ok flags ∧
        BelowLevel (s.groupacsSourceinfoFlags req.mg si) (req.oldflags ||| req.flags) := by
    intro x hx
    obtain ⟨hchecks, hx⟩ := ite_error_ok hx
    refine ⟨hx, ?_, ?_⟩
    · rw [test_or]
      simp only [hlevel, hown, Bool.not_false, Bool.true_and, Bool.or_false,
        Bool.or_eq_true, not_or, Bool.not_eq_true] at hchecks
      rw [hchecks.2.1, hchecks.2.2]
      rfl
    · rw [test_or]
      simp only [hlevel, hown, Bool.not_false, Bool.true_and, Bool.or_false,
        Bool.or_eq_true, not_or, Bool.and_eq_true, Bool.not_eq_true', not_and, Bool.not_eq_false]
        at hchecks
      by_cases hset : test (s.groupacsSourceinfoFlags req.mg si) gaSet = true
      · exact .inl hset
      · right
        by_contra hflags
        rw [Bool.not_eq_false, Bool.or_eq_true] at hflags
        exact hset (hchecks.1 hflags)
  rw [flagsLadder] at h
  dsimp only at h
  rw [hsource] at h
  cases hasked : test req.flags gaFounder <;> cases hold : test req.oldflags gaFounder <;>
    simp only [hasked, hold, Bool.not_false, Bool.not_true, Bool.and_true, Bool.and_false,
      if_true, if_false, Bool.false_eq_true] at h
  · obtain ⟨hmatch, hbelow⟩ := hpassed _ h
    exact .inr ⟨rfl, (founderGuard_ok hmatch).2, hbelow⟩
  · cases h
  · exact .inl ⟨rfl, rfl, (Except.ok.inj h).symm⟩
  · obtain ⟨hmatch, hbelow⟩ := hpassed _ h
    exact .inr ⟨rfl, (founderGuard_ok hmatch).2, hbelow⟩

theorem flagsLadder_jump (hsource : test (s.groupacsSourceinfoFlags req.mg si) gaFounder = false)
    (hasked : test req.flags gaFounder = true) (hold : test req.oldflags gaFounder = false)
    (changes : CString) : flagsLadder cfg s si changes req = .ok (req.flags &&& ~~~gaFounder) := by
  rw [flagsLadder]
  dsimp only
  rw [hsource, hasked, hold]
  rfl

theorem flagsLadder_keep (hsource : test (s.groupacsSourceinfoFlags req.mg si) gaFounder = false)
    (hasked : test req.flags gaFounder = true) (hold : test req.oldflags gaFounder = true)
    (hbelow : BelowLevel (s.groupacsSourceinfoFlags req.mg si) (req.oldflags ||| req.flags))
    (changes : CString) : flagsLadder cfg s si changes req = .ok req.flags := by
  obtain ⟨hset, hflags⟩ := hbelow
  rw [test_or, Bool.or_eq_false_iff] at hset
  rw [test_or, Bool.or_eq_false_iff] at hflags
  have hguard : founderGuard s si req req.flags = none := by
    rw [founderGuard, hasked]
    rfl
  rw [flagsLadder]
  dsimp only
  simp only [hsource, hasked, hold, hset.1, hset.2, Bool.not_true, Bool.not_false, Bool.and_false,
    Bool.and_true, Bool.or_false, Bool.false_eq_true, if_false, hguard]
  rw [if_neg]
  rintro hlevel
  simp only [Bool.and_eq_true, Bool.or_eq_true, Bool.not_eq_true'] at hlevel
  obtain ⟨-, hasks, hlacks⟩ := hlevel
  obtain hsets | ⟨h1, h2⟩ := hflags
  · rw [hsets] at hlacks
    cases hlacks
  · rw [h1, h2] at hasks
    simp at hasks

/-! ### The exact condition -/

def FlagsRequest.old (req : FlagsRequest) : Option Flags := req.ga.map fun _ => req.oldflags

theorem assigned_getD (hold : req.ga = none → req.oldflags = 0#32) {flags : Flags}
    (h : ¬nothingAsked cfg s req flags) : (assigned cfg s req flags).getD 0#32 = flags := by
  rw [nothingAsked, not_or] at h
  rw [assigned]
  cases hga : req.ga with
  | some a =>
    by_cases hflags : flags = 0#32 <;> simp [hflags]
  | none =>
    have hflags : flags ≠ 0#32 := fun h0 =>
      h.1 ⟨h0.trans (hold hga).symm, fun hsome => by simp [hga] at hsome⟩
    dsimp only
    rw [if_neg (not_or.mpr ⟨hflags, h.2⟩), Option.getD_some]

theorem assigned_eq_old (hold : req.ga = none → req.oldflags = 0#32) {flags : Flags} :
    assigned cfg s req flags = req.old ↔ nothingAsked cfg s req flags := by
  rw [nothingAsked, assigned, FlagsRequest.old]
  cases hga : req.ga with
  | some a =>
    have hroom : listFull cfg s req = false := by simp [listFull, hga]
    by_cases hflags : flags = 0#32 <;> simp [hflags, hroom]
  | none =>
    rw [hold hga]
    by_cases hflags : flags = 0#32 <;> by_cases hfull : listFull cfg s req = true <;>
      simp [hflags, hfull]

theorem old_getD (hold : req.ga = none → req.oldflags = 0#32) :
    req.old.getD 0#32 = req.oldflags := by
  rw [FlagsRequest.old]
  cases hga : req.ga with
  | some a => rfl
  | none => exact (hold hga).symm

theorem gaFounder_gaSet : test gaFounder gaSet = false := by decide
theorem gaFounder_gaFlags : test gaFounder gaFlags = false := by decide

theorem levelsKept_below (hold : req.ga = none → req.oldflags = 0#32) {source flags : Flags}
    (hfounder : test req.oldflags gaFounder = false) (hflags : test flags gaFounder = false)
    (hbelow : BelowLevel source (req.oldflags ||| flags)) :
    LevelsKept source req.old (assigned cfg s req flags) := by
  by_cases hnothing : nothingAsked cfg s req flags
  · rw [(assigned_eq_old hold).mpr hnothing]
    exact .refl _ _
  · obtain ⟨hset, hf⟩ := hbelow
    rw [test_or, Bool.or_eq_false_iff] at hset
    rw [test_or, Bool.or_eq_false_iff] at hf
    refine ⟨?_, fun hp => ?_, fun hn => ?_, fun hs ho => ?_, fun hs hn => ?_⟩
    · rw [assigned_getD hold hnothing, old_getD hold, hflags, hfounder]
    · rw [old_getD hold, hfounder, hset.1] at hp
      simp at hp
    · rw [assigned_getD hold hnothing, hset.2] at hn
      cases hn
    · rw [old_getD hold, (hf.resolve_left (by simp [hs])).1] at ho
      cases ho
    · rw [assigned_getD hold hnothing, (hf.resolve_left (by simp [hs])).2] at hn
      cases hn

theorem below_of_levelsKept (hold : req.ga = none → req.oldflags = 0#32) {source flags : Flags}
    (h : LevelsKept source req.old (assigned cfg s req flags)) :
    nothingAsked cfg s req flags ∨ BelowLevel source (req.oldflags ||| flags) := by
  by_cases hnothing : nothingAsked cfg s req flags
  · exact .inl hnothing
  · have hchanged : assigned cfg s req flags ≠ req.old := fun heq =>
      hnothing ((assigned_eq_old hold).mp heq)
    have hset : test req.oldflags gaSet = false := by
      by_contra hs
      rw [Bool.not_eq_false] at hs
      exact hchanged (h.privileged (.inr (by rw [old_getD hold]; exact hs)))
    have hnew := h.set_not_added
    rw [assigned_getD hold hnothing, old_getD hold, hset] at hnew
    refine .inr ⟨?_, ?_⟩
    · rw [test_or, hset, Bool.false_or]
      exact Bool.eq_false_iff.mpr fun ht => by simpa using hnew ht
    · by_cases hs : test source gaSet = true
      · exact .inl hs
      · right
        have hf : test req.oldflags gaFlags = false := by
          by_contra hf
          rw [Bool.not_eq_false] at hf
          exact hchanged (h.flags_kept (by simpa using hs) (by rw [old_getD hold]; exact hf))
        have hadded := h.flags_not_added (by simpa using hs)
        rw [assigned_getD hold hnothing, old_getD hold, hf] at hadded
        rw [test_or, hf, Bool.false_or]
        exact Bool.eq_false_iff.mpr fun ht => by simpa using hadded ht

theorem below_andNot {source o n : Flags} :
    BelowLevel source (o ||| (n &&& ~~~gaFounder)) ↔ BelowLevel source (o ||| n) := by
  rw [BelowLevel, BelowLevel, test_or, test_or, test_or, test_or,
    test_andNot_disjoint gaFounder_gaSet, test_andNot_disjoint gaFounder_gaFlags]

theorem assignFlags_done (flags : Flags) : ∃ s', (assignFlags cfg s req flags).after = some s' := by
  rw [assignFlags]
  cases req.ga with
  | some a =>
    dsimp only
    split_ifs <;> exact ⟨_, rfl⟩
  | none =>
    dsimp only
    split_ifs <;> exact ⟨_, rfl⟩

theorem gsCmdFlags_assign (hplan : flagsPlan cfg s si parv (target.filter s.live) = .ok req)
    {flags : Flags} (hladder : flagsLadder cfg s si (parv.getD 2 []) req = .ok flags) :
    gsCmdFlags cfg s si parv target = assignFlags cfg s.look req flags := by
  have hplan' : flagsPlan cfg s.look si parv (target.filter s.live) = .ok req := hplan
  have hladder' : flagsLadder cfg s.look si (parv.getD 2 []) req = .ok flags := hladder
  rw [gsCmdFlags, hplan']
  dsimp only
  rw [hladder']

theorem of_mem_done {replies : List ChanServ.Reply} (h : s' ∈ (Outcome.done s replies).after) :
    s' = s := (Option.some.inj h).symm

theorem gsCmdFlags_cases (h : s' ∈ (gsCmdFlags cfg s si parv target).after) :
    s' = s.look ∨ ∃ req flags, flagsPlan cfg s si parv (target.filter s.live) = .ok req ∧
      flagsLadder cfg s si (parv.getD 2 []) req = .ok flags ∧
      s' ∈ (assignFlags cfg s.look req flags).after := by
  cases hplan : flagsPlan cfg s si parv (target.filter s.live) with
  | error replies =>
    have hplan' : flagsPlan cfg s.look si parv (target.filter s.live) = .error replies := hplan
    rw [gsCmdFlags, hplan'] at h
    exact .inl (of_mem_done h)
  | ok req =>
    cases hladder : flagsLadder cfg s si (parv.getD 2 []) req with
    | error r =>
      have hplan' : flagsPlan cfg s.look si parv (target.filter s.live) = .ok req := hplan
      have hladder' : flagsLadder cfg s.look si (parv.getD 2 []) req = .error r := hladder
      rw [gsCmdFlags, hplan'] at h
      dsimp only at h
      rw [hladder'] at h
      exact .inl (of_mem_done h)
    | ok flags =>
      rw [gsCmdFlags_assign hplan hladder] at h
      exact .inr ⟨req, flags, rfl, hladder, h⟩

end command

section levels
variable {cfg : GroupConfig} {s s' : Groups} {si : Source} {parv : List CString}
  {target : Option Entity} {mg : GroupRef} {group : Group} {mt : Entity} {req : FlagsRequest}

structure Requested (s : Groups) (req : FlagsRequest) : Prop where
  live : (s.groups.find req.mg).isSome
  ga : req.ga = s.groupacsFind req.mg req.mt 0#32 false
  zero : req.ga = none → req.oldflags = 0#32
  old : s.entryFlags req.mg req.mt = req.old

theorem ForeignFlags.requested (hf : ForeignFlags cfg s si parv target mg group mt)
    (hplan : flagsPlan cfg s si parv (target.filter s.live) = .ok req) :
    req.mg = mg ∧ req.mt = mt ∧ Requested s req := by
  obtain ⟨hgroup, htarget, hga, hold⟩ := flagsPlan_ok hplan
  have hfound : s.groups.find req.mg = some req.group := by
    obtain ⟨name, -, hfind⟩ := Option.bind_eq_some_iff.mp hgroup
    exact (Registry.find_eq_some_iff _ _ _).mpr (List.mem_of_find?_eq_some hfind)
  rw [hf.group] at hgroup
  rw [hf.target] at htarget
  refine ⟨(Prod.mk.inj (Option.some.inj hgroup)).1.symm, ?_, by rw [hfound]; rfl, hga, ?_, ?_⟩
  · exact (Option.some.inj (Option.filter_eq_some_iff.mp htarget).1).symm
  · intro hnone
    rw [hold, Groups.entryFlags, ← hga, hnone]
    rfl
  · rw [FlagsRequest.old, hold, Groups.entryFlags, ← hga]
    cases req.ga <;> rfl

theorem Requested.after (h : Requested s req) {flags : Flags}
    (hs' : s' ∈ (assignFlags cfg s.look req flags).after) :
    s.entryFlagsAfter s' req.mg req.mt = assigned cfg s req flags :=
  assignFlags_after (s := s.look) h.ga h.live hs'

theorem within_of_levelled (h : FlagsLevelled cfg s si parv target) :
    FlagsWithinLevels cfg s si parv target := by
  intro hlevel mg group mt hf req hplan hasked
  obtain ⟨rfl, rfl, hreq⟩ := hf.requested hplan
  have hkept : ∀ flags, flagsLadder cfg s si (parv.getD 2 []) req = .ok flags →
      LevelsKept (s.groupacsSourceinfoFlags req.mg si) req.old (assigned cfg s req flags) := by
    intro flags hladder
    obtain ⟨s', hs'⟩ : ∃ s', (assignFlags cfg s.look req flags).after = some s' :=
      assignFlags_done flags
    have hafter := h hlevel _ _ _ hf s' (by rw [gsCmdFlags_assign hplan hladder]; exact hs')
    rw [hreq.after hs', hreq.old] at hafter
    exact hafter
  split_ifs with hfounder
  · by_cases hbelow : BelowLevel (s.groupacsSourceinfoFlags req.mg si) (req.oldflags ||| req.flags)
    · left
      have hlevels := hkept _ (flagsLadder_keep hf.source hasked hfounder hbelow _)
      have hsame := hlevels.privileged (.inl (by rw [old_getD hreq.zero]; exact hfounder))
      obtain ⟨heq, -⟩ | hfull := (assigned_eq_old hreq.zero).mp hsame
      · exact heq
      · have hnone : req.ga = none := by
          simp only [listFull, Bool.and_eq_true, Option.isNone_iff_eq_none] at hfull
          exact hfull.1.1
        rw [hreq.zero hnone] at hfounder
        simp at hfounder
    · exact .inr hbelow
  · rw [Bool.not_eq_true] at hfounder
    have hlevels := hkept _ (flagsLadder_jump hf.source hasked hfounder _)
    rw [← below_andNot]
    exact below_of_levelsKept hreq.zero hlevels

theorem levelsKept_of_asked (hlevel : cfg.noLeveledFlags = false) (hreq : Requested s req)
    (hsource : test (s.groupacsSourceinfoFlags req.mg si) gaFounder = false)
    (hforeign : si.smu.map Entity.user ≠ some req.mt) (hasked : AskedWithinLevels cfg s si req)
    {changes : CString} {flags : Flags} (hladder : flagsLadder cfg s si changes req = .ok flags) :
    LevelsKept (s.groupacsSourceinfoFlags req.mg si) req.old (assigned cfg s req flags) := by
  have hnothing : ∀ flags, nothingAsked cfg s req flags →
      LevelsKept (s.groupacsSourceinfoFlags req.mg si) req.old (assigned cfg s req flags) := by
    intro flags h
    rw [(assigned_eq_old hreq.zero).mpr h]
    exact .refl _ _
  obtain ⟨hfounder, hold, rfl⟩ | ⟨hboth, rfl, hbelow⟩ :=
    flagsLadder_ok hlevel hsource hforeign hladder
  · have hwithin := hasked hfounder
    rw [hold, if_neg (by simp)] at hwithin
    obtain hsame | hbelow := hwithin
    · exact hnothing _ hsame
    · exact levelsKept_below hreq.zero hold (test_andNot_self _ _) (below_andNot.mpr hbelow)
  · by_cases hfounder : test req.flags gaFounder = true
    · have hwithin := hasked hfounder
      rw [← hboth, if_pos hfounder] at hwithin
      refine hnothing _ (.inl ⟨hwithin.resolve_right (not_not.mpr hbelow), fun _ h0 => ?_⟩)
      rw [h0] at hfounder
      simp at hfounder
    · rw [Bool.not_eq_true] at hfounder
      exact levelsKept_below hreq.zero (hboth.symm.trans hfounder) hfounder hbelow

theorem levelled_of_within (h : FlagsWithinLevels cfg s si parv target) :
    FlagsLevelled cfg s si parv target := by
  intro hlevel mg group mt hf s' hs'
  have hsame : LevelsKept (s.groupacsSourceinfoFlags mg si) (s.entryFlags mg mt)
      (s.entryFlagsAfter s.look mg mt) := by
    have heq : s.entryFlagsAfter s.look mg mt = s.entryFlags mg mt := entryFlagsAfter_self mg mt
    rw [heq]
    exact .refl _ _
  obtain rfl | ⟨req, flags, hplan, hladder, hassign⟩ := gsCmdFlags_cases hs'
  · exact hsame
  · obtain ⟨rfl, rfl, hreq⟩ := hf.requested hplan
    rw [hreq.after hassign, hreq.old]
    exact levelsKept_of_asked hlevel hreq hf.source hf.foreign (h hlevel _ _ _ hf req hplan) hladder

end levels

/-- FLAGS respects the levels of the flags exactly where founder status is not asked for along with
flags, or on an entry, above the level of the source. -/
theorem flags_levelled_iff (cfg : GroupConfig) (s : Groups) (si : Source) (parv : List CString)
    (target : Option Entity) :
    FlagsLevelled cfg s si parv target ↔ FlagsWithinLevels cfg s si parv target :=
  ⟨within_of_levelled, levelled_of_within⟩

/-- A group of alice, its founder, and of bob, who has `GA_FLAGS` only. -/
def levelledGroup : Groups where
  groups := Registry.empty.insertNew 0 ⟨"!staff".toList, 0#32, (NodeList.empty.add 1).add 2, none,
    none, false⟩
  accounts := ((Registry.empty.insertNew 3 ⟨"alice".toList, 0#32, [], none, false, 0⟩).insertNew 4
    ⟨"bob".toList, 0#32, [], none, false, 0⟩).insertNew 5 ⟨"carol".toList, 0#32, [], none, false, 0⟩
  exts := .empty
  heap a := if a = 1 then ⟨0, .user 3, gaAll ||| gaFounder⟩ else ⟨0, .user 4, gaFlags⟩
  freed := []
  membership mt := if mt = .user 3 then NodeList.empty.add 1 else
    if mt = .user 4 then NodeList.empty.add 2 else .empty
  next := 6
  misuse := false

/-- Bob, who may not give anybody `GA_SET`, does so by asking for founder status too. -/
theorem flags_founder_jump :
    ¬∀ (cfg : GroupConfig) (s : Groups) (si : Source) (parv : List CString) (target : Option Entity),
      FlagsLevelled cfg s si parv target := by
  intro h
  have hkept := h ⟨.rfc1459, 5, 100, false, false, "+".toList, []⟩ levelledGroup ⟨some 4, fun _ => false⟩
    ["!staff".toList, "carol".toList, "+Fs".toList] (some (.user 5)) rfl 0 _ (.user 5)
    ⟨rfl, rfl, by decide, by decide +kernel⟩ _ rfl
  have hset := hkept.set_not_added (by decide +kernel)
  revert hset
  decide +kernel

end ChatServices.GroupServ
