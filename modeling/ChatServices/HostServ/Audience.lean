import ChatServices.HostServ.Offers

/-! Offers respect their audience: whom TAKE gives a host, and how long an offer stays with its
group. -/
namespace ChatServices.HostServ.Offers
open ChatServices.Text ChatServices.Lib ChatServices.Lib.Mask ChatServices.Lib.Run
open ChatServices.Lib.Rows ChatServices.Storage
open ChatServices.ChanServ (templateItems natArg)
open ChatServices.GroupServ (Flags GroupAcs gaVhost gaBan gaFounder)

/-! ### Whom a host is offered to -/

section audience
variable (cfg : OfferConfig)

def IsTemplate (mg : Group) (name : CString) (flags : Flags) : Prop :=
  (∃ item ∈ templateItems (mg.templates.getD []), templateFlags item = flags ∧
    name = truncate 400 item.name) ∨ (name, flags) ∈ cfg.globalTemplates

structure OfferedTo (s : OfferState) (mu : Nat) (host : CString) (l : HsOffered) : Prop where
  offered : l ∈ s.offered
  host : irccaseEq cfg.casemapping l.vhost host = true
  audience : ∀ mg ∈ l.group, ∃ ga ∈ s.acs,
    ga.mg = mg ∧ ga.mt = .user mu ∧ test ga.flags gaVhost = true

structure Attached (s : OfferState) (mu : Nat) (host : CString) (ga : GroupAcs) : Prop where
  entry : ga ∈ s.acs
  member : ga.mt = .user mu
  unbanned : test ga.flags gaBan = false
  vhost : ∃ mg name vhost, s.groups.find ga.mg = some mg ∧ IsTemplate cfg mg name ga.flags ∧
    getGroupTemplateVhost cfg mg name = some vhost ∧ irccaseEq cfg.casemapping vhost host = true

def Entitled (s : OfferState) (mu : Nat) (host : CString) : Prop :=
  (∃ l, OfferedTo cfg s mu host l) ∨ ∃ ga, Attached cfg s mu host ga

end audience

/-! ### The walks -/

section walks
variable {cfg : OfferConfig} {s : OfferState} {mu : Nat} {host : CString}

theorem walkOffers_some {p : HsOffered → Bool} {ls : List HsOffered} {l : HsOffered}
    (h : (walkOffers s mu p ls).1 = some l) : l ∈ ls ∧ openTo s mu l = true ∧ p l = true := by
  induction ls with
  | nil => cases h
  | cons l' ls ih =>
    rw [walkOffers] at h
    split at h
    next hl' =>
      obtain rfl := Option.some.inj h
      rw [Bool.and_eq_true] at hl'
      exact ⟨List.mem_cons_self, hl'⟩
    next =>
      obtain ⟨hmem, hl⟩ := ih h
      exact ⟨List.mem_cons_of_mem l' hmem, hl⟩

theorem walkOffers_none {p : HsOffered → Bool} {ls : List HsOffered}
    (h : (walkOffers s mu p ls).1 = none) : (ls.any fun l => openTo s mu l && p l) = false := by
  induction ls with
  | nil => rfl
  | cons l ls ih =>
    rw [walkOffers] at h
    split at h
    next => cases h
    next hl => rw [List.any_cons, ih h, Bool.or_false, Bool.eq_false_iff.mpr hl]

theorem readGroup_live {mg : Nat} (h : (s.groups.find mg).isSome) : readGroup s mg = [] := if_pos h

variable (mu) in
theorem walkOffers_quiet (p : HsOffered → Bool) {ls : List HsOffered}
    (h : ∀ l ∈ ls, ∀ mg ∈ l.group, (s.groups.find mg).isSome) : (walkOffers s mu p ls).2 = [] := by
  induction ls with
  | nil => rfl
  | cons l ls ih =>
    have hread : l.group.toList.flatMap (readGroup s) = [] := by
      rw [List.flatMap_eq_nil_iff]
      exact fun mg hmg => readGroup_live (h l List.mem_cons_self mg (Option.mem_toList.mp hmg))
    have htail := ih fun l' hl' => h l' (List.mem_cons_of_mem l hl')
    rw [walkOffers]
    split
    · exact hread
    · rw [hread, htail]
      rfl

theorem takeTemplate_some {acs : List GroupAcs} {ga : GroupAcs}
    (h : (takeTemplate cfg s host acs).1 = some ga) : ga ∈ acs ∧ test ga.flags gaBan = false ∧
      (vhostOf cfg s ga).any (irccaseEq cfg.casemapping · host) = true := by
  induction acs with
  | nil => cases h
  | cons ga' acs ih =>
    have htail : (takeTemplate cfg s host acs).1 = some ga → ga ∈ ga' :: acs ∧
        test ga.flags gaBan = false ∧
          (vhostOf cfg s ga).any (irccaseEq cfg.casemapping · host) = true := fun hrest =>
      ⟨List.mem_cons_of_mem ga' (ih hrest).1, (ih hrest).2⟩
    rw [takeTemplate] at h
    split at h
    next => exact htail h
    next hban =>
      split at h
      next hvhost =>
        obtain rfl := Option.some.inj h
        exact ⟨List.mem_cons_self, Bool.eq_false_iff.mpr hban, hvhost⟩
      next => exact htail h

variable (cfg host) in
theorem takeTemplate_quiet {acs : List GroupAcs}
    (h : ∀ ga ∈ acs, (s.groups.find ga.mg).isSome) : (takeTemplate cfg s host acs).2 = [] := by
  induction acs with
  | nil => rfl
  | cons ga acs ih =>
    have hread := readGroup_live (h ga List.mem_cons_self)
    have htail := ih fun ga' hga' => h ga' (List.mem_cons_of_mem ga hga')
    rw [takeTemplate]
    split
    · exact htail
    · split
      · exact hread
      · rw [hread, htail]
        rfl

theorem renameTemplate_quiet {p : CString → Bool} {acs : List GroupAcs}
    (hlive : ∀ ga ∈ acs, (s.groups.find ga.mg).isSome)
    (h : ∀ ga ∈ acs.takeWhile (fun ga => test ga.flags gaBan || !(vhostOf cfg s ga).any p),
      test ga.flags gaBan = true ∨ (vhostOf cfg s ga).isSome) :
    (renameTemplate cfg s p acs).2 = [] := by
  induction acs with
  | nil => rfl
  | cons ga acs ih =>
    have hread := readGroup_live (hlive ga List.mem_cons_self)
    have hrest := fun ga' hga' => hlive ga' (List.mem_cons_of_mem ga hga')
    rw [renameTemplate]
    by_cases hban : test ga.flags gaBan = true
    · rw [if_pos hban]
      rw [List.takeWhile_cons_of_pos (by simp [hban])] at h
      exact ih hrest fun ga' hga' => h ga' (List.mem_cons_of_mem ga hga')
    · rw [if_neg hban]
      cases hvhost : vhostOf cfg s ga with
      | none =>
        rw [List.takeWhile_cons_of_pos (by simp [hvhost])] at h
        have hsome := (h ga List.mem_cons_self).resolve_left hban
        simp [hvhost] at hsome
      | some vhost =>
        dsimp only
        split
        next => exact hread
        next hp =>
          rw [List.takeWhile_cons_of_pos (by simp [hvhost, hp])] at h
          rw [hread, ih hrest fun ga' hga' => h ga' (List.mem_cons_of_mem ga hga')]
          rfl

end walks

/-! ### The invariant and its condition -/

/-- Offers and access entries are of live groups, and what is offered to everybody is one word that
no group's name can be taken for. -/
structure InOrder (s : OfferState) : Prop where
  live : ∀ l ∈ s.offered, ∀ mg ∈ l.group, (s.groups.find mg).isSome
  acs : ∀ ga ∈ s.acs, (s.groups.find ga.mg).isSome
  words : ∀ l ∈ s.offered, l.group = none → IsWord l.vhost ∧ l.vhost.head? ≠ some '!'

/-- No founderless group that goes has an offer, every group with an offer is read back, and the
account renamed has no host, or has one that an offer shows, or is in groups that give a host to
its flags, up to the one that gives it its own. -/
def Clear (cfg : OfferConfig) (s : OfferState) : Event → Prop
  | .expire => ∀ l ∈ s.offered, ∀ mg ∈ l.group, mygroupCountFounder s mg ≠ 0
  | .reload back => ∀ l ∈ s.offered, ∀ mg ∈ l.group, mg ∈ back
  | .rename mu _ _ => ∀ cloak ∈ (s.hosts.accounts.find mu).bind Account.usercloak,
      let p := shows (accountName s mu) cloak
      (s.offered.any fun l => openTo s mu l && p l.vhost) = true ∨
        ∀ ga ∈ (memberships s mu).takeWhile
          (fun ga => test ga.flags gaBan || !(vhostOf cfg s ga).any p),
          test ga.flags gaBan = true ∨ (vhostOf cfg s ga).isSome
  | _ => True

instance (cfg : OfferConfig) (s : OfferState) : ∀ e, Decidable (Clear cfg s e)
  | .expire => inferInstanceAs (Decidable (∀ l ∈ s.offered, ∀ mg ∈ l.group, _))
  | .reload _ => inferInstanceAs (Decidable (∀ l ∈ s.offered, ∀ mg ∈ l.group, _))
  | .rename mu _ _ => inferInstanceAs
      (Decidable (∀ cloak ∈ (s.hosts.accounts.find mu).bind Account.usercloak, (_ = true ∨ _)))
  | .offer .. => inferInstanceAs (Decidable True)
  | .unoffer _ => inferInstanceAs (Decidable True)
  | .take .. => inferInstanceAs (Decidable True)
  | .drop _ => inferInstanceAs (Decidable True)

def IsOpen (s : OfferState) (vhost : CString) : Prop :=
  ∃ l ∈ s.offered, l.group = none ∧ l.vhost = vhost

/-- `OFFER` of this host, without a group. -/
def OfferedToAll (vhost : CString) : Event → Prop
  | .offer _ (some w) _ _ => w.1 = vhost ∧ w.1.head? ≠ some '!'
  | _ => False

structure Kept (s : OfferState) (e : Event) (r : OfferState × List Obs) : Prop where
  inOrder : InOrder r.1
  quiet : ∀ o ∈ r.2, o ≠ .missingTemplateVhost ∧ ∀ mg, o ≠ .deletedGroup mg
  opened : ∀ vhost, IsOpen r.1 vhost → IsOpen s vhost ∨ OfferedToAll vhost e

section steps
variable {cfg : OfferConfig} {s : OfferState}

theorem Kept.of_hosts (h : InOrder s) (e : Event) {hosts : State} {obs : List Obs}
    (hobs : ∀ o ∈ obs, o ≠ .missingTemplateVhost ∧ ∀ mg, o ≠ .deletedGroup mg) :
    Kept s e ({ s with hosts := hosts }, obs) :=
  ⟨⟨h.live, h.acs, h.words⟩, hobs, fun _ hv => .inl hv⟩

theorem Kept.of_offered (h : InOrder s) (e : Event) {offered : List HsOffered}
    (hsub : ∀ l ∈ offered, l ∈ s.offered) : Kept s e ({ s with offered := offered }, []) := by
  refine ⟨⟨?_, h.acs, ?_⟩, by simp, ?_⟩
  · exact fun l hl => h.live l (hsub l hl)
  · exact fun l hl => h.words l (hsub l hl)
  · rintro vhost ⟨l, hl, hopen⟩
    exact .inl ⟨l, hsub l hl, hopen⟩

theorem find_mygroupDelete (gone : Nat → Bool) (mg : Nat) :
    (mygroupDelete gone s).groups.find mg = if gone mg then none else s.groups.find mg := by
  rw [mygroupDelete, Registry.find_update]
  cases s.groups.find mg <;> simp

theorem acs_mygroupDelete (h : InOrder s) (gone : Nat → Bool) :
    ∀ ga ∈ (mygroupDelete gone s).acs, ((mygroupDelete gone s).groups.find ga.mg).isSome := by
  intro ga hga
  obtain ⟨hmem, hkept⟩ := List.mem_filter.mp hga
  have hstay : ¬ gone ga.mg = true := by simpa using hkept
  rw [find_mygroupDelete, if_neg hstay]
  exact h.acs ga hmem

theorem Kept.of_delete (h : InOrder s) (e : Event) (gone : Nat → Bool)
    (hfree : ∀ l ∈ s.offered, ∀ mg ∈ l.group, gone mg = false) :
    Kept s e (mygroupDelete gone s, []) := by
  refine ⟨⟨?_, acs_mygroupDelete h gone, h.words⟩, by simp, fun _ hv => .inl hv⟩
  intro l hl mg hmg
  have hstay : ¬ gone mg = true := by simp [hfree l hl mg hmg]
  rw [find_mygroupDelete, if_neg hstay]
  exact h.live l hl mg hmg

theorem addOffer_kept (h : InOrder s) (e : Event) {mu : Nat} {host : CString} {mt : Option Nat}
    {now : Nat} (hlive : ∀ mg ∈ mt, (s.groups.find mg).isSome)
    (hword : mt = none → IsWord host ∧ host.head? ≠ some '!')
    (hopen : mt = none → OfferedToAll host e) : Kept s e (addOffer cfg s mu host mt now, []) := by
  rw [addOffer]
  split
  · exact Kept.of_offered h e fun _ hl => hl
  · refine ⟨⟨?_, h.acs, ?_⟩, by simp, ?_⟩
    · intro l hl
      rcases List.mem_append.mp hl with hold | hnew
      · exact h.live l hold
      · obtain rfl := List.mem_singleton.mp hnew
        exact hlive
    · intro l hl
      rcases List.mem_append.mp hl with hold | hnew
      · exact h.words l hold
      · obtain rfl := List.mem_singleton.mp hnew
        exact hword
    · rintro vhost ⟨l, hl, hnone, rfl⟩
      rcases List.mem_append.mp hl with hold | hnew
      · exact .inl ⟨l, hold, hnone, rfl⟩
      · obtain rfl := List.mem_singleton.mp hnew
        exact .inr (hopen hnone)

theorem hsCmdOffer_kept (h : InOrder s) {smu : Option Nat} {parv0 : Option Word}
    {parv1 : Option CString} {now : Nat} :
    Kept s (.offer smu parv0 parv1 now) (hsCmdOffer cfg s smu parv0 parv1 now, []) := by
  have hsame : ∀ e, Kept s e (s, []) := fun e => Kept.of_offered h e fun _ hl => hl
  rw [hsCmdOffer.eq_def]
  split
  next => exact hsame _
  next group =>
    split
    next =>
      split
      next host mu mg _ _ hfind =>
        apply addOffer_kept h
        · intro mg' hmg
          obtain rfl := Option.some.inj hmg
          obtain ⟨g, hg, -⟩ := Registry.firstWhere_some hfind
          exact Option.isSome_iff_exists.mpr ⟨g, hg⟩
        · exact fun hnone => nomatch hnone
        · exact fun hnone => nomatch hnone
      next => exact hsame _
    next hhead =>
      split
      next =>
        apply addOffer_kept h
        · exact fun _ hmg => nomatch hmg
        · exact fun _ => ⟨group.2, hhead⟩
        · exact fun _ => ⟨rfl, hhead⟩
      next => exact hsame _

theorem giveHost_kept (h : InOrder s) (e : Event) {mu : Nat} {host : CString} {now : Int} :
    Kept s e (giveHost cfg s mu host now) := by
  rw [giveHost]
  split
  · exact Kept.of_hosts h e (by simp)
  · exact Kept.of_hosts h e (by simp)

theorem memberships_live (h : InOrder s) (mu : Nat) :
    ∀ ga ∈ memberships s mu, (s.groups.find ga.mg).isSome :=
  fun ga hga => h.acs ga (List.mem_filter.mp hga).1

theorem hsCmdTake_kept (h : InOrder s) {si : Source} {host : Option CString} {now : Int} :
    Kept s (.take si host now) (hsCmdTake cfg s si host now) := by
  have hsame : ∀ e, Kept s e (s, []) := fun e => Kept.of_offered h e fun _ hl => hl
  rw [hsCmdTake.eq_def]
  split
  next => exact hsame _
  next host =>
    have hoffers := walkOffers_quiet si.smu
      (fun l => irccaseEq cfg.casemapping l.vhost host) h.live
    have hfound := takeTemplate_quiet cfg host (memberships_live h si.smu)
    dsimp only
    split
    · exact hsame _
    · split
      · exact hsame _
      · split
        · rw [hoffers]
          exact giveHost_kept h _
        · split
          · rw [hoffers, hfound]
            exact giveHost_kept h _
          · rw [hoffers, hfound]
            exact hsame _

theorem updateVhost_kept (h : InOrder s) {mu : Nat} {newname : CString} {now : Int}
    (hclear : Clear cfg s (.rename mu newname now)) : Kept s (.rename mu newname now)
      (updateVhostOnAccountNameChange cfg s mu newname now) := by
  rw [updateVhostOnAccountNameChange]
  split
  next => exact Kept.of_offered h _ fun _ hl => hl
  next cloak hcloak =>
    have hoffers := walkOffers_quiet mu
      (fun l => shows (accountName s mu) cloak l.vhost) h.live
    dsimp only
    split
    · rw [hoffers]
      exact Kept.of_hosts h _ (by simp)
    next hnone =>
      have hany := walkOffers_none hnone
      have hshown := (hclear cloak hcloak).resolve_left (by simp [hany])
      have hfound := renameTemplate_quiet (memberships_live h mu) hshown
      rw [hoffers, hfound]
      split
      · exact Kept.of_hosts h _ (by simp)
      · exact Kept.of_hosts h _ (by simp)

theorem groupDrop_kept (h : InOrder s) (mg : Nat) : Kept s (.drop mg) (groupDrop s mg, []) := by
  have hsub : ∀ l ∈ s.offered.filter (fun l => l.group ≠ some mg), l ∈ s.offered :=
    fun _ hl => List.mem_of_mem_filter hl
  have hfirst := Kept.of_offered h (.drop mg) hsub
  rw [groupDrop]
  split
  · have hfree : ∀ l ∈ s.offered.filter (fun l => l.group ≠ some mg), ∀ mg' ∈ l.group,
        decide (mg' = mg) = false := by
      intro l hl mg' hmg
      have hne : l.group ≠ some mg := by simpa using (List.mem_filter.mp hl).2
      rw [decide_eq_false_iff_not]
      rintro rfl
      exact hne hmg
    have hnext := Kept.of_delete hfirst.inOrder (.drop mg) (· = mg) hfree
    refine ⟨hnext.inOrder, by simp, ?_⟩
    intro vhost hv
    exact (hnext.opened vhost hv).elim (hfirst.opened vhost) .inr
  · exact Kept.of_offered h _ fun _ hl => hl

end steps

/-! ### The rows -/

section rows
variable {cfg : OfferConfig} {s : OfferState} {groups : Registry Nat Group}

def ReadAs (groups : Registry Nat Group) (l l' : HsOffered) : Prop :=
  (l.group = none ∧ l'.group = none ∧ l'.vhost = l.vhost) ∨
    (l.group ≠ none ∧ ∃ mg, l'.group = some mg ∧ (groups.find mg).isSome)

theorem rowTail_fields {vhost : CString} {mt : Option Nat} {token : Token}
    {r : HsOffered × Token}
    (h : (do
      let vhostTs ← dbSreadTime
      let creator ← dbSreadWord
      pure (HsOffered.mk vhost vhostTs creator mt) : Reader HsOffered) token = some r) :
    r.1.vhost = vhost ∧ r.1.group = mt := by
  simp only [bind, StateT.bind, Option.bind_eq_some_iff] at h
  obtain ⟨p, -, q, -, hr⟩ := h
  obtain rfl := Option.some.inj hr
  exact ⟨rfl, rfl⟩

theorem bind_fields {P : HsOffered → Prop} {ρ : Type} {m : Reader ρ} {f : ρ → Reader HsOffered}
    (hf : ∀ a token r, f a token = some r → P r.1) {token : Token} {r : HsOffered × Token}
    (h : (m >>= f) token = some r) : P r.1 := by
  simp only [bind, StateT.bind, Option.bind_eq_some_iff] at h
  obtain ⟨a, -, hr⟩ := h
  exact hf _ _ r hr

theorem dbHHo_group {name : CString} (hname : IsWord name) (hhead : name.head? = some '!')
    {words : List CString} {r : HsOffered × Token}
    (h : dbHHo cfg groups (some (writeCells ' ' (name :: words) [])) = some r) :
    r.1.group = groupFind cfg groups name := by
  rw [dbHHo, sreadWord_bind hname, if_pos hhead] at h
  simp only [pure_bind] at h
  exact bind_fields (P := fun l => l.group = groupFind cfg groups name)
    (fun _ _ _ hr => (rowTail_fields hr).2) h

theorem dbHHo_everybody {vhost : CString} (hvhost : IsWord vhost) (hhead : vhost.head? ≠ some '!')
    {words : List CString} {r : HsOffered × Token}
    (h : dbHHo cfg groups (some (writeCells ' ' (vhost :: words) [])) = some r) :
    r.1.group = none ∧ r.1.vhost = vhost := by
  rw [dbHHo, sreadWord_bind hvhost, if_neg hhead] at h
  exact (rowTail_fields h).symm

theorem readOffer_hoRow (hlive : ∀ l ∈ s.offered, ∀ mg ∈ l.group, ∃ group ∈ s.groups.find mg,
      (groupFind cfg groups group.name.1).isSome)
    (hwords : ∀ l ∈ s.offered, l.group = none → IsWord l.vhost ∧ l.vhost.head? ≠ some '!')
    {l : HsOffered} (hl : l ∈ s.offered) {offered offered' : List HsOffered}
    (h : readOffer cfg groups offered (hoRow s l) = some offered') :
    ∃ l', offered' = offered ++ [l'] ∧ ReadAs groups l l' := by
  rw [readOffer, hoRow, parseRow_writeRow (by decide) ⟨'H', ['O'], by decide, by decide⟩] at h
  obtain ⟨r, hr, rfl⟩ := Option.map_eq_some_iff.mp h
  simp only [bind, StateT.bind, StateT.run, Option.bind_eq_some_iff] at hr
  obtain ⟨q, hq, hr⟩ := hr
  obtain rfl := Option.some.inj hr
  refine ⟨q.1, rfl, ?_⟩
  cases hgroup : l.group with
  | none =>
    obtain ⟨hvhost, hhead⟩ := hwords l hl hgroup
    rw [hgroup] at hq
    exact .inl ⟨hgroup, dbHHo_everybody hvhost hhead hq⟩
  | some mg =>
    obtain ⟨group, hfind, hfound⟩ := hlive l hl mg hgroup
    rw [hgroup] at hq
    simp only [Option.toList_some, List.map_cons, List.map_nil, List.singleton_append] at hq
    rw [Option.mem_def.mp hfind] at hq
    have hq' := dbHHo_group group.name.2.2 group.name.2.1 hq
    obtain ⟨mg', hmg'⟩ := Option.isSome_iff_exists.mp hfound
    obtain ⟨g, hg, -⟩ := Registry.firstWhere_some hmg'
    exact .inr ⟨by simp [hgroup], mg', hq'.trans hmg', Option.isSome_iff_exists.mpr ⟨g, hg⟩⟩

theorem readOffers_hoRows (hlive : ∀ l ∈ s.offered, ∀ mg ∈ l.group, ∃ group ∈ s.groups.find mg,
      (groupFind cfg groups group.name.1).isSome)
    (hwords : ∀ l ∈ s.offered, l.group = none → IsWord l.vhost ∧ l.vhost.head? ≠ some '!')
    {ls : List HsOffered} (hls : ∀ l ∈ ls, l ∈ s.offered) {offered offered' : List HsOffered}
    (hold : ∀ l' ∈ offered, ∃ l ∈ s.offered, ReadAs groups l l')
    (h : (ls.map (hoRow s)).foldlM (readOffer cfg groups) offered = some offered') :
    ∀ l' ∈ offered', ∃ l ∈ s.offered, ReadAs groups l l' := by
  induction ls generalizing offered with
  | nil =>
    obtain rfl := Option.some.inj h
    exact hold
  | cons l ls ih =>
    rw [List.map_cons, List.foldlM_cons] at h
    obtain ⟨next, hnext, hrest⟩ := Option.bind_eq_some_iff.mp h
    have hl := hls l List.mem_cons_self
    obtain ⟨l', rfl, hread⟩ := readOffer_hoRow hlive hwords hl hnext
    apply ih (fun l hl => hls l (List.mem_cons_of_mem _ hl)) _ hrest
    intro l'' hl''
    rcases List.mem_append.mp hl'' with hmem | hmem
    · exact hold l'' hmem
    · obtain rfl := List.mem_singleton.mp hmem
      exact ⟨l, hl, hread⟩

theorem reload_kept (h : InOrder s) {back : List Nat}
    (hback : ∀ l ∈ s.offered, ∀ mg ∈ l.group, mg ∈ back) :
    Kept s (.reload back) (reload cfg s back) := by
  have hquiet : (s.offered.flatMap fun l => l.group.toList.flatMap (readGroup s)) = [] := by
    rw [List.flatMap_eq_nil_iff]
    intro l hl
    rw [List.flatMap_eq_nil_iff]
    exact fun mg hmg => readGroup_live (h.live l hl mg (Option.mem_toList.mp hmg))
  have hstay : ∀ l ∈ s.offered, ∀ mg ∈ l.group,
      (mygroupDelete (fun mg => mg ∉ back) s).groups.find mg = s.groups.find mg := by
    intro l hl mg hmg
    have hmem := hback l hl mg hmg
    rw [find_mygroupDelete, if_neg (by simpa using hmem)]
  -- a group that comes back is found by its name, and so some live group is
  have hfound : ∀ l ∈ s.offered, ∀ mg ∈ l.group, ∃ group ∈ s.groups.find mg,
      (groupFind cfg (mygroupDelete (fun mg => mg ∉ back) s).groups group.name.1).isSome := by
    intro l hl mg hmg
    obtain ⟨group, hgroup⟩ := Option.isSome_iff_exists.mp (h.live l hl mg hmg)
    refine ⟨group, hgroup, ?_⟩
    rw [← Option.ne_none_iff_isSome]
    intro hnone
    have hno := Registry.firstWhere_none_iff.mp hnone mg group ((hstay l hl mg hmg).trans hgroup)
    simp at hno
  rw [reload]
  dsimp only [writeHsofferdb]
  rw [hquiet]
  split
  next offered hread =>
    have hall := readOffers_hoRows hfound h.words (fun _ hl => hl) (by simp) hread
    refine ⟨⟨?_, ?_, ?_⟩, by simp, ?_⟩
    · intro l' hl' mg hmg
      obtain ⟨l, hl, ⟨-, hnone, -⟩ | ⟨-, mg', hmg', hlive⟩⟩ := hall l' hl'
      · rw [hnone] at hmg
        cases hmg
      · rw [hmg'] at hmg
        exact Option.some.inj hmg ▸ hlive
    · intro ga hga
      obtain ⟨mg, -, hmem⟩ := List.mem_flatMap.mp hga
      exact acs_mygroupDelete h _ ga (List.mem_of_mem_filter hmem)
    · intro l' hl' hopen
      obtain ⟨l, hl, ⟨hnone, -, hvhost⟩ | ⟨-, mg', hmg', -⟩⟩ := hall l' hl'
      · rw [hvhost]
        exact h.words l hl hnone
      · rw [hmg'] at hopen
        cases hopen
    · rintro vhost ⟨l', hl', hopen, rfl⟩
      obtain ⟨l, hl, ⟨hnone, -, hvhost⟩ | ⟨-, mg', hmg', -⟩⟩ := hall l' hl'
      · exact .inl ⟨l, hl, hnone, hvhost.symm⟩
      · rw [hmg'] at hopen
        cases hopen
  next => exact Kept.of_hosts h _ (by simp)

end rows

/-! ### Runs -/

section runs
variable {cfg : OfferConfig} {s : OfferState}

theorem step_kept (h : InOrder s) {e : Event} (hclear : Clear cfg s e) :
    Kept s e (step cfg s e) := by
  cases e with
  | offer smu parv0 parv1 now => exact hsCmdOffer_kept h
  | unoffer host =>
    cases host with
    | none => exact Kept.of_offered h _ fun _ hl => hl
    | some host => exact Kept.of_offered h _ fun _ hl => List.mem_of_mem_filter hl
  | take si host now => exact hsCmdTake_kept h
  | drop mg => exact groupDrop_kept h mg
  | expire =>
    apply Kept.of_delete h
    intro l hl mg hmg
    simpa using hclear l hl mg hmg
  | rename mu newname now =>
    have hkept := updateVhost_kept h hclear
    exact ⟨⟨hkept.inOrder.live, hkept.inOrder.acs, hkept.inOrder.words⟩, hkept.quiet, hkept.opened⟩
  | reload back => exact reload_kept h hclear

theorem getGroupTemplateName_isTemplate {mg : Group} {level : Flags} {name : CString}
    (h : getGroupTemplateName cfg mg level = some name) : IsTemplate cfg mg name level := by
  rw [getGroupTemplateName] at h
  split at h
  next item hitem =>
    have hlevel : templateFlags item = level := by simpa using List.find?_some hitem
    exact .inl ⟨item, List.mem_of_find?_eq_some hitem, hlevel, (Option.some.inj h).symm⟩
  next =>
    obtain ⟨t, ht, rfl⟩ := Option.map_eq_some_iff.mp h
    have hlevel : t.2 = level := by simpa using List.find?_some ht
    subst hlevel
    exact .inr (List.mem_reverse.mp (List.mem_of_find?_eq_some ht))

theorem readGroup_taken {mg mu : Nat} {host : CString} : .taken mu host ∉ readGroup s mg := by
  rw [readGroup]
  split <;> simp

theorem walkOffers_taken {mu mu' : Nat} {host : CString} {p : HsOffered → Bool}
    (ls : List HsOffered) : .taken mu host ∉ (walkOffers s mu' p ls).2 := by
  have hread : ∀ l : HsOffered, .taken mu host ∉ l.group.toList.flatMap (readGroup s) := by
    intro l hmem
    obtain ⟨mg, -, hmg⟩ := List.mem_flatMap.mp hmem
    exact readGroup_taken hmg
  induction ls with
  | nil => exact List.not_mem_nil
  | cons l ls ih =>
    rw [walkOffers]
    split
    · exact hread l
    · rw [List.mem_append, not_or]
      exact ⟨hread l, ih⟩

theorem takeTemplate_taken {mu : Nat} {host host' : CString} (acs : List GroupAcs) :
    .taken mu host ∉ (takeTemplate cfg s host' acs).2 := by
  induction acs with
  | nil => exact List.not_mem_nil
  | cons ga acs ih =>
    rw [takeTemplate]
    split
    · exact ih
    · split
      · exact readGroup_taken
      · rw [List.mem_append, not_or]
        exact ⟨readGroup_taken, ih⟩

theorem entitled_of_taken {si : Source} {arg : Option CString} {now : Int} {mu : Nat}
    {host : CString} (h : .taken mu host ∈ (hsCmdTake cfg s si arg now).2) :
    Entitled cfg s mu host := by
  have hgive : ∀ host', .taken mu host ∈ (giveHost cfg s si.smu host' now).2 →
      mu = si.smu ∧ host = host' := by
    intro host' hmem
    rw [giveHost] at hmem
    split at hmem
    · simpa using hmem
    · exact absurd hmem List.not_mem_nil
  rw [hsCmdTake.eq_def] at h
  split at h
  next => exact absurd h List.not_mem_nil
  next host' =>
    dsimp only at h
    split at h
    · exact absurd h List.not_mem_nil
    · split at h
      · exact absurd h List.not_mem_nil
      · split at h
        next l hl =>
          obtain ⟨hmem, hopen, hhost⟩ := walkOffers_some hl
          rcases List.mem_append.mp h with hread | hgiven
          · exact absurd hread (walkOffers_taken _)
          · obtain ⟨rfl, rfl⟩ := hgive host' hgiven
            refine .inl ⟨l, hmem, hhost, ?_⟩
            intro mg hmg
            rw [openTo, hmg, Option.all_some, myuserIsInGroup, List.any_eq_true] at hopen
            obtain ⟨ga, hga, hin⟩ := hopen
            simp only [Bool.and_eq_true, decide_eq_true_eq] at hin
            exact ⟨ga, hga, hin.1.1, hin.1.2, hin.2⟩
        next =>
          split at h
          next ga hga =>
            obtain ⟨hmem, hban, hvhost⟩ := takeTemplate_some hga
            rcases List.mem_append.mp h with hread | hgiven
            · rcases List.mem_append.mp hread with hread | hread
              · exact absurd hread (walkOffers_taken _)
              · exact absurd hread (takeTemplate_taken _)
            · obtain ⟨rfl, rfl⟩ := hgive host' hgiven
              obtain ⟨hentry, hmember⟩ := List.mem_filter.mp hmem
              obtain ⟨vhost, hvhost, heq⟩ := (Option.any_eq_true _ _).mp hvhost
              obtain ⟨mg, hmg, hflags⟩ := Option.bind_eq_some_iff.mp hvhost
              obtain ⟨name, hname, hattached⟩ := Option.bind_eq_some_iff.mp hflags
              refine .inr ⟨ga, hentry, by simpa using hmember, hban, mg, name, vhost, hmg, ?_⟩
              exact ⟨getGroupTemplateName_isTemplate hname, hattached, heq⟩
          next =>
            rcases List.mem_append.mp h with hread | hread
            · exact absurd hread (walkOffers_taken _)
            · exact absurd hread (takeTemplate_taken _)

/-- In a run whose steps meet the condition offers are to everybody or to live groups, an offer to
everybody was one before or was made for everybody, TAKE gives a host only to whom it is offered,
and no deleted group or missing host is read. -/
theorem offers_respect_audience (h : InOrder s) {es : List Event}
    (hG : Guarded (step cfg) (Clear cfg) s es) :
    (∀ l ∈ (run (step cfg) s es).1.offered, ∀ mg ∈ l.group,
        ((run (step cfg) s es).1.groups.find mg).isSome) ∧
      (∀ vhost, IsOpen (run (step cfg) s es).1 vhost →
        IsOpen s vhost ∨ ∃ e ∈ es, OfferedToAll vhost e) ∧
      (∀ si arg now mu host,
        .taken mu host ∈ (step cfg (run (step cfg) s es).1 (.take si arg now)).2 →
          Entitled cfg (run (step cfg) s es).1 mu host) ∧
      ∀ o ∈ (run (step cfg) s es).2, o ≠ .missingTemplateVhost ∧ ∀ mg, o ≠ .deletedGroup mg := by
  have hend : InOrder (run (step cfg) s es).1 :=
    run_state_invariant (I := InOrder) (fun _ _ hs hc => (step_kept hs hc).inOrder) h hG
  refine ⟨hend.live, ?_, fun _ _ _ _ _ htaken => entitled_of_taken htaken, ?_⟩
  · clear hend
    induction es generalizing s with
    | nil => exact fun vhost hopen => .inl hopen
    | cons e es ih =>
      intro vhost hopen
      have hkept := step_kept h hG.1
      rcases ih hkept.inOrder hG.2 vhost hopen with hnext | ⟨e', he', hall⟩
      · rcases hkept.opened vhost hnext with hold | hall
        · exact .inl hold
        · exact .inr ⟨e, List.mem_cons_self, hall⟩
      · exact .inr ⟨e', List.mem_cons_of_mem e he', hall⟩
  · exact run_guarded_emits (I := InOrder) (G := Clear cfg)
      (Q := fun o => o ≠ .missingTemplateVhost ∧ ∀ mg, o ≠ .deletedGroup mg)
      (fun s e hs hc => ⟨(step_kept hs hc).inOrder, (step_kept hs hc).quiet⟩) h hG

/-! ### One group -/

def offerHosts : OfferConfig where
  casemapping := .rfc1459
  noNickOwnership := true
  requestPerNick := false
  requestTime := 60
  limitFirstReq := false
  ratelimitUses := 0
  ratelimitPeriod := 0
  isValidHost := fun _ => true
  findNamed := fun _ => none
  findUid := fun _ => none
  globalTemplates := []
  printed := fun value => value

def oneGroup : OfferState where
  hosts :=
    { accounts := ⟨[(1, ⟨"anna".toList, 0, false, some "anna.example.org".toList, [], none⟩)],
        by decide⟩
      nicks := []
      reqlist := []
      ratelimitCount := 0 }
  groups := ⟨[(7, ⟨⟨"!team".toList, by decide⟩, none, []⟩)], by decide⟩
  acs := [⟨7, .user 1, gaVhost⟩]
  offered := [⟨"team.example.org".toList, 0, "oper".toList, some 7⟩]

def takes (host : String) : Event :=
  .take ⟨1, none, "anna".toList, true, true⟩ (some host.toList) 1000

theorem oneGroup_inOrder : InOrder oneGroup :=
  ⟨by decide +kernel, by decide +kernel, by decide +kernel⟩

theorem offers_respect_audience_oneGroup :
    let es := [.offer (some 1) (some ⟨"all.example.org".toList, by decide⟩) none 5,
      takes "team.example.org", .reload [7], .drop 7, .rename 1 "ann".toList 2000, .expire]
    .taken 1 "team.example.org".toList ∈ (run (step offerHosts) oneGroup es).2 ∧
      ∀ l ∈ (run (step offerHosts) oneGroup es).1.offered, ∀ mg ∈ l.group,
        ((run (step offerHosts) oneGroup es).1.groups.find mg).isSome :=
  ⟨by decide +kernel, (offers_respect_audience oneGroup_inOrder (by decide +kernel)).1⟩

/-- The expiry of the group leaves its offer, and the next TAKE reads the group; a rename of the
member reads a template's host that is not there. -/
theorem expired_group_read :
    InOrder oneGroup ∧
      (∃ l ∈ (step offerHosts oneGroup .expire).1.offered,
        l.group = some 7 ∧ (step offerHosts oneGroup .expire).1.groups.find 7 = none) ∧
      .deletedGroup 7 ∈ (run (step offerHosts) oneGroup [.expire, takes "team.example.org"]).2 ∧
      .missingTemplateVhost ∈ (step offerHosts oneGroup (.rename 1 "ann".toList 2000)).2 :=
  ⟨oneGroup_inOrder, by decide +kernel, by decide +kernel, by decide +kernel⟩

end runs
end ChatServices.HostServ.Offers
