import ChatServices.GroupServ.FlagLevels

/-! What each command can leave behind: the groups that it has looked at, or those with its change. -/
namespace ChatServices.GroupServ
open ChatServices.Lib ChatServices.Lib.Mask ChatServices.Text

section cases
variable {cfg : GroupConfig} {s s' : Groups} {si : Source} {parv : List CString}
  {target : Option Entity} {req : FlagsRequest} {flags : Flags}

theorem read_or (s : Groups) (isUser : Bool) (as : List AcsRef) :
    (if isUser then s.read as else s) = s ∨ (if isUser then s.read as else s) = s.read as := by
  cases isUser
  · exact .inl rfl
  · exact .inr rfl

theorem assignFlags_cases (h : s' ∈ (assignFlags cfg s req flags).after) :
    s' = s ∨
      (∃ a, req.ga = some a ∧ flags ≠ 0#32 ∧
        (s' = s.setFlags a flags ∨ s' = (s.setFlags a flags).read (s.acs req.mg))) ∨
      (∃ a, req.ga = some a ∧ flags = 0#32 ∧
        let t := s.groupacsDelete req.mg req.mt
        (req.mt.isUser = false ∧ s' = t ∨
          req.mt.isUser = true ∧ s' = (t.read [a]).read (t.acs req.mg))) ∨
      (req.ga = none ∧
        let t := s.groupacsAdd req.mg req.mt flags
        (s' = t ∨ s' = t.read (t.acs req.mg))) := by
  rw [assignFlags] at h
  cases hfound : req.ga with
  | some a =>
    rw [hfound] at h
    dsimp only at h
    by_cases hflags : flags = 0#32
    · rw [if_neg (not_not.mpr hflags)] at h
      right; right; left
      refine ⟨a, rfl, hflags, ?_⟩
      rw [of_mem_done h]
      cases req.mt.isUser
      · exact .inl ⟨rfl, rfl⟩
      · exact .inr ⟨rfl, rfl⟩
    · rw [if_pos hflags] at h
      split at h
      · exact .inl (of_mem_done h)
      · right; left
        refine ⟨a, rfl, hflags, ?_⟩
        rw [of_mem_done h]
        exact read_or _ _ _
  | none =>
    rw [hfound] at h
    dsimp only at h
    split at h
    · exact .inl (of_mem_done h)
    · split at h
      · exact .inl (of_mem_done h)
      · right; right; right
        refine ⟨rfl, ?_⟩
        rw [of_mem_done h]
        exact read_or _ _ _

theorem gsCmdFflags_cases (h : s' ∈ (gsCmdFflags cfg s si parv target).after) :
    s' = s.look ∨ ∃ mg group mt req,
      parv.head?.bind (s.mygroupFind cfg) = some (mg, group) ∧
      target.filter s.live = some mt ∧ requestFor s mg group mt (parv.getD 2 []) = .ok req ∧
      founderGuard s si req req.flags = none ∧
      s' ∈ (assignFlags cfg s.look req req.flags).after := by
  rw [gsCmdFflags.eq_def] at h
  dsimp only at h
  split at h
  · split at h
    · exact .inl (of_mem_done h)
    rename_i mg group hgroup
    split at h
    · exact .inl (of_mem_done h)
    split at h
    · exact .inl (of_mem_done h)
    rename_i mt htarget
    split at h
    · exact .inl (of_mem_done h)
    rename_i req hreq
    split at h
    · exact .inl (of_mem_done h)
    rename_i hguard
    exact .inr ⟨mg, group, mt, req, hgroup, htarget, hreq, hguard, h⟩
  · exact .inl (of_mem_done h)

theorem gsCmdTemplate_cases (h : s' ∈ (gsCmdTemplate cfg s si parv).after) :
    s' = s.look ∨ ∃ req, templatePlan cfg s si parv = some (.ok req) ∧
      let e := templateEdit req.group req.target req.change req.restrictflags
      let t := s.look.updateGroup req.mg (setTemplates e.newstr)
      (s' = t ∨ req.changegroupacs = true ∧ ∃ crashes,
        updateEntries crashes req.mg e (s.acs req.mg) t = some s') := by
  rw [gsCmdTemplate] at h
  dsimp only at h
  split at h
  · cases h
  · exact .inl (of_mem_done h)
  rename_i req hplan
  split at h
  · exact .inl (of_mem_done h)
  refine .inr ⟨req, hplan, ?_⟩
  split at h
  · cases h
  split at h
  · exact .inl (of_mem_done h)
  rename_i hbang
  rw [Bool.not_eq_true', Bool.not_eq_false] at hbang
  split at h
  · cases h
  rename_i hloop
  rw [Groups.acs_updateGroup (f := setTemplates _) fun _ => rfl] at hloop
  rw [of_mem_done h]
  exact .inr ⟨hbang, _, hloop⟩

theorem gsCmdJoin_cases (h : s' ∈ (gsCmdJoin cfg s si parv).after) :
    s' = s.look ∨ ∃ mg group mu, parv.head?.bind (s.mygroupFind cfg) = some (mg, group) ∧
      si.smu = some mu ∧ s.groupacsFind mg (.user mu) 0#32 true = none ∧
      let t := s.look.groupacsAdd mg (.user mu) (joinFlags cfg group)
      (s' = t.read (t.acs mg) ∨ ∃ f, s' =
        Groups.read (t.acs mg) { t with accounts := t.accounts.modify mu f }) := by
  rw [gsCmdJoin.eq_def] at h
  dsimp only at h
  split at h
  · exact .inl (of_mem_done h)
  split at h
  · exact .inl (of_mem_done h)
  · exact .inl (of_mem_done h)
  rename_i mg group mu hgroup hmu
  split at h
  · exact .inl (of_mem_done h)
  split at h
  · exact .inl (of_mem_done h)
  split at h
  · exact .inl (of_mem_done h)
  rename_i hmember
  split at h
  · exact .inl (of_mem_done h)
  have hnone : s.groupacsFind mg (.user mu) 0#32 true = none := by
    rw [Groups.groupacsSourceinfoHasFlag, hmu] at hmember
    exact Option.not_isSome_iff_eq_none.mp hmember
  refine .inr ⟨mg, group, mu, hgroup, hmu, hnone, ?_⟩
  rw [of_mem_done h]
  split
  · exact .inr ⟨_, rfl⟩
  · exact .inl rfl

theorem gsCmdInvite_cases {target : Option AccountRef}
    (h : s' ∈ (gsCmdInvite cfg s si parv target).after) :
    s' = s.look ∨ ∃ mu f,
      s' = { s.look with accounts := s.look.accounts.modify mu f } := by
  rw [gsCmdInvite.eq_def] at h
  dsimp only at h
  split at h
  · split at h
    · exact .inl (of_mem_done h)
    split at h
    · exact .inl (of_mem_done h)
    split at h
    · exact .inl (of_mem_done h)
    split at h
    · exact .inl (of_mem_done h)
    split at h
    · exact .inl (of_mem_done h)
    split at h
    · exact .inl (of_mem_done h)
    exact .inr ⟨_, _, of_mem_done h⟩
  · exact .inl (of_mem_done h)

theorem gsCmdSetOpen_cases (h : s' ∈ (gsCmdSetOpen cfg s si parv).after) :
    s' = s.look ∨ ∃ mg, ∃ f : Group → Flags,
      s' = s.look.updateGroup mg fun g => { g with flags := f g } := by
  rw [gsCmdSetOpen.eq_def] at h
  dsimp only at h
  split at h
  · split at h
    · exact .inl (of_mem_done h)
    split at h
    · exact .inl (of_mem_done h)
    split at h
    · split at h
      · exact .inl (of_mem_done h)
      split at h
      · exact .inl (of_mem_done h)
      exact .inr ⟨_, _, of_mem_done h⟩
    split at h
    · split at h
      · exact .inl (of_mem_done h)
      exact .inr ⟨_, _, of_mem_done h⟩
    exact .inl (of_mem_done h)
  · exact .inl (of_mem_done h)

end cases
end ChatServices.GroupServ
