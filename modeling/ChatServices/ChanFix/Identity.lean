import ChatServices.ChanFix.Records

/-! Op records identify people: which steps keep one record for an account and one for a
user@host, and which leave a record pointing at a freed account. -/
namespace ChatServices.ChanFix
open ChatServices.Text ChatServices.Lib ChatServices.Lib.Run ChatServices.Lib.FirstMatch

section consistent
variable (cm : CaseMapping)

def OpRecord.mask (orec : OpRecord) : CString × CString :=
  (irccasecanon cm orec.user, irccasecanon cm orec.host)

def OpRecord.person (orec : OpRecord) : Option Nat × CString × CString :=
  (orec.entity, orec.user, orec.host)

structure Consistent (accounts : List Account) (recs : List OpRecord) : Prop where
  live : ∀ orec ∈ recs, ∀ a, orec.entity = some a → a ∈ accounts.map Account.ref
  accounts : (recs.filterMap OpRecord.entity).Nodup
  masks : (recs.map (OpRecord.mask cm)).Nodup

/-- The record found for an op takes no account that another one has, and a record made for
one takes no mask that another one has. -/
def Separable (recs : List OpRecord) (u : User) (myuser : Option Nat) : Prop :=
  match chanfixOprecordFind cm recs u myuser with
  | some orec => orec.entity.isSome ∨ myuser = none ∨ myuser ∉ recs.map OpRecord.entity
  | none => (irccasecanon cm (truncate USERLEN u.user), irccasecanon cm (truncate HOSTLEN u.vhost))
      ∉ recs.map (OpRecord.mask cm)

instance (recs : List OpRecord) (u : User) (myuser : Option Nat) :
    Decidable (Separable cm recs u myuser) :=
  match h : chanfixOprecordFind cm recs u myuser with
  | some orec => decidable_of_iff
      (orec.entity.isSome ∨ myuser = none ∨ myuser ∉ recs.map OpRecord.entity) (by simp [Separable, h])
  | none => decidable_of_iff
      ((irccasecanon cm (truncate USERLEN u.user), irccasecanon cm (truncate HOSTLEN u.vhost))
        ∉ recs.map (OpRecord.mask cm)) (by simp [Separable, h])

def MemberSeparable (s : State) (v : CString × User) : Prop :=
  ∀ chan ∈ s.channels.find (strcasecanon v.1),
    Separable cm chan.oprecords v.2 (s.login v.2.uid)

instance (s : State) (v : CString × User) : Decidable (MemberSeparable cm s v) :=
  inferInstanceAs (Decidable (∀ chan ∈ s.channels.find (strcasecanon v.1), _))

def ChannelSeparable (now : Int) (s : State) (ch : Channel) : Prop :=
  ch.registered = true ∨
    Guarded (gatherMember cm now) (MemberSeparable cm) (chanfixChannelGet s ch) ch.opped

instance (now : Int) (s : State) (ch : Channel) : Decidable (ChannelSeparable cm now s ch) :=
  inferInstanceAs (Decidable (_ ∨ _))

def Unreferenced (s : State) (a : Nat) : Prop :=
  ∀ e ∈ s.channels.entries, ∀ orec ∈ e.2.oprecords, orec.entity ≠ some a

instance (s : State) (a : Nat) : Decidable (Unreferenced s a) :=
  inferInstanceAs (Decidable (∀ e ∈ s.channels.entries, ∀ orec ∈ e.2.oprecords, _))

def Identifies (s : State) : Event → Prop
  | .delete a => Unreferenced s a
  | .gather now chanlist => Guarded (gatherChannel cm now) (ChannelSeparable cm now) s chanlist
  | .reload => ∀ mu ∈ s.saved.accounts, irccaseEq cm mu.name ['*'] = false
  | _ => True

instance (s : State) : ∀ e, Decidable (Identifies cm s e)
  | .delete a => inferInstanceAs (Decidable (Unreferenced s a))
  | .gather now chanlist =>
    inferInstanceAs (Decidable (Guarded (gatherChannel cm now) (ChannelSeparable cm now) s chanlist))
  | .reload => inferInstanceAs (Decidable (∀ mu ∈ s.saved.accounts, irccaseEq cm mu.name ['*'] = false))
  | .register _ | .login .. | .logout _ | .expire _ | .save => inferInstanceAs (Decidable True)

end consistent

section lemmas
variable {cm : CaseMapping} {accounts accounts' : List Account} {recs recs' : List OpRecord}
  {now : Int} {u : User} {myuser : Option Nat}

theorem Consistent.nil : Consistent cm accounts [] := ⟨by simp, by simp, by simp⟩

theorem Consistent.mono (h : Consistent cm accounts recs)
    (hacc : ∀ orec ∈ recs, ∀ a, orec.entity = some a → a ∈ accounts.map Account.ref →
      a ∈ accounts'.map Account.ref) : Consistent cm accounts' recs :=
  ⟨fun orec hmem a ha => hacc orec hmem a ha (h.live orec hmem a ha), h.accounts, h.masks⟩

theorem filterMap_person (recs : List OpRecord) :
    recs.filterMap OpRecord.entity = (recs.map OpRecord.person).filterMap Prod.fst := by
  rw [List.filterMap_map]
  rfl

theorem Consistent.of_people (h : Consistent cm accounts recs)
    (hpeople : recs'.map OpRecord.person = recs.map OpRecord.person) :
    Consistent cm accounts recs' := by
  refine ⟨?_, ?_, ?_⟩
  · intro orec hmem a ha
    have hin : orec.person ∈ recs.map OpRecord.person := hpeople ▸ List.mem_map_of_mem hmem
    obtain ⟨orec', hmem', hperson⟩ := List.mem_map.mp hin
    have hentity : orec'.entity = orec.entity := congrArg Prod.fst hperson
    exact h.live orec' hmem' a (hentity.trans ha)
  · rw [filterMap_person, hpeople, ← filterMap_person]
    exact h.accounts
  · have hmask : ∀ xs : List OpRecord, xs.map (OpRecord.mask cm) =
        (xs.map OpRecord.person).map fun p => (irccasecanon cm p.2.1, irccasecanon cm p.2.2) := by
      intro xs
      rw [List.map_map]
      rfl
    rw [hmask, hpeople, ← hmask]
    exact h.masks

theorem Consistent.sublist (h : Consistent cm accounts recs) (hsub : recs'.Sublist recs) :
    Consistent cm accounts recs' :=
  ⟨fun orec hmem => h.live orec (hsub.subset hmem), h.accounts.sublist (hsub.filterMap _),
    h.masks.sublist (hsub.map _)⟩

theorem Consistent.sweep {chan : ChanfixChannel} (h : Consistent cm accounts chan.oprecords) :
    Consistent cm accounts (chan.sweep now).oprecords := by
  have hdecay : Consistent cm accounts (chan.oprecords.map OpRecord.decay) :=
    h.of_people (by rw [List.map_map]; rfl)
  exact hdecay.sublist List.filter_sublist

theorem Consistent.update {chan : ChanfixChannel} {ref : Nat}
    (h : Consistent cm accounts chan.oprecords)
    (hlive : ∀ a, myuser = some a → a ∈ accounts.map Account.ref)
    (hsep : Separable cm chan.oprecords u myuser) :
    Consistent cm accounts (chanfixOprecordUpdate cm ref now u myuser chan).oprecords := by
  rw [Separable] at hsep
  rw [chanfixOprecordUpdate]
  cases hfind : chanfixOprecordFind cm chan.oprecords u myuser with
  | none =>
    rw [hfind] at hsep
    dsimp only at hsep ⊢
    have hother : ∀ orec ∈ chan.oprecords, ∀ a, myuser = some a → orec.entity ≠ some a := by
      intro orec hmem a ha hentity
      have hno := List.find?_eq_none.mp hfind orec hmem
      simp [OpRecord.matches, hentity, ha] at hno
    refine ⟨?_, ?_, ?_⟩
    · intro orec hmem a ha
      obtain hold | hnew := List.mem_append.mp hmem
      · exact h.live orec hold a ha
      · rw [List.mem_singleton.mp hnew] at ha
        exact hlive a ha
    · rw [List.filterMap_append, List.nodup_append]
      refine ⟨h.accounts, ?_, ?_⟩
      · cases myuser <;> simp [chanfixOprecordCreate]
      · intro a ha b hb hab
        obtain ⟨orec, hmem, hentity⟩ := List.mem_filterMap.mp ha
        obtain ⟨orec', hmem', hentity'⟩ := List.mem_filterMap.mp hb
        rw [List.mem_singleton.mp hmem'] at hentity'
        have hb' : myuser = some b := hentity'
        exact hother orec hmem b hb' (hab ▸ hentity)
    · rw [List.map_append, List.nodup_append]
      refine ⟨h.masks, by simp, ?_⟩
      intro m hm m' hm' hmm
      rw [List.map_singleton, List.mem_singleton] at hm'
      have hmask : m' = (irccasecanon cm (truncate USERLEN u.user),
          irccasecanon cm (truncate HOSTLEN u.vhost)) := hm'
      rw [hmm, hmask] at hm
      exact hsep hm
  | some orec =>
    rw [hfind] at hsep
    dsimp only at hsep ⊢
    have hmasks : ((updateFirst (fun orec => orec.matches cm u myuser) (OpRecord.touch now myuser)
        chan.oprecords).map (OpRecord.mask cm)).Nodup := by
      have hmask : ∀ orec, OpRecord.mask cm (OpRecord.touch now myuser orec) =
          OpRecord.mask cm orec := fun _ => rfl
      rw [map_updateFirst (OpRecord.mask cm) hmask]
      exact h.masks
    by_cases hsame : orec.entity.isSome ∨ myuser = none
    · -- the record keeps its account, so the list stands for the same people
      obtain ⟨l, r, hrecs, hup, -, -⟩ := updateFirst_split (f := OpRecord.touch now myuser) hfind
      have hentity : (orec.touch now myuser).entity = orec.entity := by
        cases horec : orec.entity with
        | some a => simp [OpRecord.touch, horec]
        | none => simpa [OpRecord.touch, horec] using hsame
      refine h.of_people ?_
      rw [hup, hrecs]
      simp only [List.map_append, List.map_cons, OpRecord.person, hentity]
      rfl
    · obtain ⟨hnone, hsome⟩ := not_or.mp hsame
      obtain ⟨a, rfl⟩ := Option.ne_none_iff_exists'.mp hsome
      have hentity : orec.entity = none := by simpa using hnone
      have hfree : some a ∉ chan.oprecords.map OpRecord.entity := by
        obtain h | h | h := hsep
        · exact absurd h hnone
        · cases h
        · exact h
      obtain ⟨l, r, hrecs, hup, -, -⟩ :=
        updateFirst_split (f := OpRecord.touch now (some a)) hfind
      have htouched : (orec.touch now (some a)).entity = some a := by
        simp [OpRecord.touch, hentity]
      refine ⟨?_, ?_, hmasks⟩
      · intro orec' hmem b hb
        obtain hold | rfl := mem_updateFirst hfind hmem
        · exact h.live orec' hold b hb
        · rw [htouched] at hb
          exact hlive b hb
      · have hold := h.accounts
        rw [hrecs, List.filterMap_append, List.filterMap_cons_none hentity] at hold
        rw [hup, List.filterMap_append, List.filterMap_cons_some htouched, List.nodup_middle,
          List.nodup_cons]
        refine ⟨fun hmem => hfree ?_, hold⟩
        rw [← List.filterMap_append, List.mem_filterMap] at hmem
        obtain ⟨orec', hmem', hentity'⟩ := hmem
        refine List.mem_map.mpr ⟨orec', ?_, hentity'⟩
        rw [hrecs]
        simp only [List.mem_append, List.mem_cons] at hmem' ⊢
        tauto

end lemmas

/-! ### The accounts -/

structure AccountsOk (cm : CaseMapping) (next : Nat) (accounts : List Account) : Prop where
  below : ∀ mu ∈ accounts, mu.ref < next
  refs : (accounts.map Account.ref).Nodup
  names : (accounts.map fun mu => irccasecanon cm mu.name).Nodup

section accounts
variable {cm : CaseMapping} {next : Nat} {accounts : List Account}

theorem myentityFind_accountName (h : AccountsOk cm next accounts) {a : Nat}
    (hlive : a ∈ accounts.map Account.ref) :
    ∃ name, accountName accounts a = some name ∧ myentityFind cm accounts name = some a := by
  obtain ⟨mu, hmem, rfl⟩ := List.mem_map.mp hlive
  have hfirst : accounts.find? (fun mu' => mu'.ref = mu.ref) = some mu := by
    cases hfind : accounts.find? (fun mu' => decide (mu'.ref = mu.ref)) with
    | none =>
      have hno := List.find?_eq_none.mp hfind mu hmem
      simp at hno
    | some mu' =>
      have href : mu'.ref = mu.ref := by simpa using List.find?_some hfind
      rw [List.inj_on_of_nodup_map h.refs (List.mem_of_find?_eq_some hfind) hmem href]
  have hname : accounts.find? (fun mu' => irccaseEq cm mu'.name mu.name) = some mu := by
    cases hfind : accounts.find? (fun mu' => irccaseEq cm mu'.name mu.name) with
    | none =>
      have hno := List.find?_eq_none.mp hfind mu hmem
      simp [irccaseEq] at hno
    | some mu' =>
      have hsame : irccasecanon cm mu'.name = irccasecanon cm mu.name := by
        simpa [irccaseEq] using List.find?_some hfind
      rw [List.inj_on_of_nodup_map h.names (List.mem_of_find?_eq_some hfind) hmem hsame]
  exact ⟨mu.name, by simp [accountName, hfirst], by simp [myentityFind, hname]⟩

theorem myentityFind_entityWord (h : AccountsOk cm next accounts)
    (hstar : ∀ mu ∈ accounts, irccaseEq cm mu.name ['*'] = false) {orec : OpRecord}
    (hlive : ∀ a, orec.entity = some a → a ∈ accounts.map Account.ref) :
    myentityFind cm accounts (orec.entityWord accounts) = orec.entity := by
  cases hentity : orec.entity with
  | none =>
    have hnone : accounts.find? (fun mu => irccaseEq cm mu.name ['*']) = none := by
      rw [List.find?_eq_none]
      intro mu hmem
      simp [hstar mu hmem]
    simp [OpRecord.entityWord, hentity, myentityFind, hnone]
  | some a =>
    obtain ⟨name, hname, hfind⟩ := myentityFind_accountName h (hlive a hentity)
    simp [OpRecord.entityWord, hentity, hname, hfind]

theorem AccountsOk.myuserAdd {s : State} (h : AccountsOk cm s.nextAccount s.accounts)
    (name : CString) :
    AccountsOk cm (myuserAdd cm s name).nextAccount (myuserAdd cm s name).accounts := by
  rw [ChanFix.myuserAdd]
  cases hfind : myentityFind cm s.accounts name with
  | some a => exact h
  | none =>
    have hfree : ∀ mu ∈ s.accounts, irccasecanon cm mu.name ≠ irccasecanon cm name := by
      intro mu hmem hsame
      have hno := List.find?_eq_none.mp (Option.map_eq_none_iff.mp hfind) mu hmem
      simp [irccaseEq, hsame] at hno
    refine ⟨?_, ?_, ?_⟩
    · intro mu hmem
      dsimp only at hmem ⊢
      obtain hold | hnew := List.mem_append.mp hmem
      · exact Nat.lt_succ_of_lt (h.below mu hold)
      · rw [List.mem_singleton.mp hnew]
        exact Nat.lt_succ_self _
    · simp only [List.map_append, List.map_cons, List.map_nil, List.nodup_append]
      refine ⟨h.refs, by simp, ?_⟩
      intro r hr r' hr' hrr
      obtain ⟨mu, hmem, rfl⟩ := List.mem_map.mp hr
      have hlt := h.below mu hmem
      rw [List.mem_singleton.mp hr'] at hrr
      omega
    · simp only [List.map_append, List.map_cons, List.map_nil, List.nodup_append]
      refine ⟨h.names, by simp, ?_⟩
      intro n hn n' hn' hnn
      obtain ⟨mu, hmem, rfl⟩ := List.mem_map.mp hn
      rw [List.mem_singleton.mp hn'] at hnn
      exact hfree mu hmem hnn

theorem AccountsOk.sublist {accounts' : List Account} (h : AccountsOk cm next accounts)
    (hsub : accounts'.Sublist accounts) : AccountsOk cm next accounts' :=
  ⟨fun mu hmem => h.below mu (hsub.subset hmem), h.refs.sublist (hsub.map _),
    h.names.sublist (hsub.map _)⟩

theorem AccountsOk.mono {next' : Nat} (h : AccountsOk cm next accounts) (hle : next ≤ next') :
    AccountsOk cm next' accounts :=
  ⟨fun mu hmem => Nat.lt_of_lt_of_le (h.below mu hmem) hle, h.refs, h.names⟩

end accounts

/-! ### The channels and the database -/

structure ChannelsOk (cm : CaseMapping) (accounts : List Account)
    (channels : Registry CString ChanfixChannel) : Prop where
  key : ∀ key chan, channels.find key = some chan → key = strcasecanon chan.name
  fits : ∀ key chan, channels.find key = some chan → ∀ orec ∈ chan.oprecords,
    truncate USERLEN orec.user = orec.user ∧ truncate HOSTLEN orec.host = orec.host
  people : ∀ key chan, channels.find key = some chan → Consistent cm accounts chan.oprecords

structure Identified (cm : CaseMapping) (s : State) : Prop where
  accounts : AccountsOk cm s.nextAccount s.accounts
  logins : ∀ uid a, s.login uid = some a → s.live a
  channels : ChannelsOk cm s.accounts s.channels
  savedAccounts : AccountsOk cm s.nextAccount s.saved.accounts
  savedRows : ∃ channels, ChannelsOk cm s.saved.accounts channels ∧
    s.saved.rows = rowsOf s.saved.accounts channels

section channels
variable {cm : CaseMapping} {s : State} {now : Int} {accounts : List Account}
  {channels : Registry CString ChanfixChannel}

theorem channelsOk_empty : ChannelsOk cm accounts Registry.empty :=
  ⟨by simp, by simp, by simp⟩

theorem ChannelsOk.insertNew (h : ChannelsOk cm accounts channels) (name : CString)
    (ts lastupdate : Int) :
    ChannelsOk cm accounts (channels.insertNew (strcasecanon name) ⟨name, ts, lastupdate, []⟩) := by
  have hold : ∀ key chan, (channels.insertNew (strcasecanon name)
      ⟨name, ts, lastupdate, []⟩).find key = some chan →
        channels.find key = some chan ∨
          key = strcasecanon name ∧ chan = ⟨name, ts, lastupdate, []⟩ := by
    intro key chan hfind
    rw [Registry.find_insertNew, Option.or_eq_some_iff] at hfind
    obtain hfind | ⟨-, hfind⟩ := hfind
    · exact Or.inl hfind
    · split_ifs at hfind with hkey
      exact Or.inr ⟨hkey.symm, (Option.some.inj hfind).symm⟩
  refine ⟨?_, ?_, ?_⟩
  · intro key chan hfind
    obtain hfind | ⟨rfl, rfl⟩ := hold key chan hfind
    · exact h.key key chan hfind
    · rfl
  · intro key chan hfind orec hmem
    obtain hfind | ⟨rfl, rfl⟩ := hold key chan hfind
    · exact h.fits key chan hfind orec hmem
    · cases hmem
  · intro key chan hfind
    obtain hfind | ⟨rfl, rfl⟩ := hold key chan hfind
    · exact h.people key chan hfind
    · exact Consistent.nil

theorem ChannelsOk.update (h : ChannelsOk cm accounts channels)
    {f : CString → ChanfixChannel → Option ChanfixChannel}
    (hf : ∀ key chan chan', channels.find key = some chan → f key chan = some chan' →
      chan'.name = chan.name ∧ Consistent cm accounts chan'.oprecords ∧
        ∀ orec ∈ chan'.oprecords,
          truncate USERLEN orec.user = orec.user ∧ truncate HOSTLEN orec.host = orec.host) :
    ChannelsOk cm accounts (channels.update f) := by
  have hold : ∀ key chan', (channels.update f).find key = some chan' →
      ∃ chan, channels.find key = some chan ∧ f key chan = some chan' := by
    intro key chan' hfind
    rw [Registry.find_update, Option.bind_eq_some_iff] at hfind
    exact hfind
  refine ⟨?_, ?_, ?_⟩
  · intro key chan' hfind
    obtain ⟨chan, hchan, hnew⟩ := hold key chan' hfind
    rw [(hf key chan chan' hchan hnew).1]
    exact h.key key chan hchan
  · intro key chan' hfind
    obtain ⟨chan, hchan, hnew⟩ := hold key chan' hfind
    exact (hf key chan chan' hchan hnew).2.2
  · intro key chan' hfind
    obtain ⟨chan, hchan, hnew⟩ := hold key chan' hfind
    exact (hf key chan chan' hchan hnew).2.1

theorem truncate_truncate (n : Nat) (x : CString) : truncate n (truncate n x) = truncate n x := by
  simp [truncate, List.take_take]

theorem mem_update_fits {ref : Nat} {u : User} {myuser : Option Nat} {chan : ChanfixChannel}
    (h : ∀ orec ∈ chan.oprecords,
      truncate USERLEN orec.user = orec.user ∧ truncate HOSTLEN orec.host = orec.host) :
    ∀ orec ∈ (chanfixOprecordUpdate cm ref now u myuser chan).oprecords,
      truncate USERLEN orec.user = orec.user ∧ truncate HOSTLEN orec.host = orec.host := by
  intro orec hmem
  rw [chanfixOprecordUpdate] at hmem
  cases hfind : chanfixOprecordFind cm chan.oprecords u myuser with
  | none =>
    rw [hfind] at hmem
    obtain hold | hnew := List.mem_append.mp hmem
    · exact h orec hold
    · rw [List.mem_singleton.mp hnew]
      exact ⟨truncate_truncate _ _, truncate_truncate _ _⟩
  | some orec' =>
    rw [hfind] at hmem
    obtain hold | rfl := mem_updateFirst hfind hmem
    · exact h orec hold
    · exact h orec' (List.mem_of_find?_eq_some hfind)

theorem gatherMember_identified (s : State) (v : CString × User) (h : Identified cm s)
    (hsep : MemberSeparable cm s v) : Identified cm (gatherMember cm now s v).1 := by
  refine ⟨h.accounts, h.logins, ?_, h.savedAccounts, h.savedRows⟩
  refine h.channels.update fun key chan chan' hchan hnew => ?_
  split_ifs at hnew with hkey
  · obtain rfl := Option.some.inj hnew
    have hsep' := hsep chan (hkey ▸ hchan)
    refine ⟨?_, ?_, ?_⟩
    · rw [chanfixOprecordUpdate]
      split <;> rfl
    · exact (h.channels.people key chan hchan).update (h.logins v.2.uid) hsep'
    · exact mem_update_fits (h.channels.fits key chan hchan)
  · obtain rfl := Option.some.inj hnew
    exact ⟨rfl, h.channels.people key chan hchan, h.channels.fits key chan hchan⟩

theorem gatherChannel_identified (s : State) (ch : Channel) (h : Identified cm s)
    (hsep : ChannelSeparable cm now s ch) : Identified cm (gatherChannel cm now s ch).1 := by
  rw [gatherChannel]
  split
  · exact h
  · rename_i hreg
    have hget : Identified cm (chanfixChannelGet s ch) :=
      ⟨h.accounts, h.logins, h.channels.insertNew ch.name ch.ts 0, h.savedAccounts, h.savedRows⟩
    exact run_state_invariant gatherMember_identified hget (hsep.resolve_left hreg)

theorem chanfixExpire_identified (h : Identified cm s) : Identified cm (chanfixExpire now s).1 := by
  refine ⟨h.accounts, h.logins, ?_, h.savedAccounts, h.savedRows⟩
  refine h.channels.update fun key chan chan' hchan hnew => ?_
  rw [expireChannel] at hnew
  split_ifs at hnew
  obtain rfl := Option.some.inj hnew
  refine ⟨rfl, (h.channels.people key chan hchan).sweep, fun orec hmem => ?_⟩
  obtain ⟨orec', hmem', rfl⟩ := List.mem_map.mp (List.mem_filter.mp hmem).1
  exact h.channels.fits key chan hchan orec' hmem'

/-! ### Reading the database back -/

theorem readRow_records {key : CString} {R : Registry CString ChanfixChannel}
    (hfree : R.find key = none) (recs : List OpRecord)
    (hrecs : ∀ orec ∈ recs, myentityFind cm accounts (orec.entityWord accounts) = orec.entity ∧
      truncate USERLEN orec.user = orec.user ∧ truncate HOSTLEN orec.host = orec.host)
    {chan : ChanfixChannel} {t : State} (hacc : t.accounts = accounts)
    (hchannels : t.channels = R.insertNew key chan) (hkey : key = strcasecanon chan.name) :
    ∃ chan', ((recs.map (OpRecord.row accounts chan.name)).foldl (readRow cm) t) =
        { t with
          channels := R.insertNew key chan'
          next := ((recs.map (OpRecord.row accounts chan.name)).foldl (readRow cm) t).next } ∧
      chan'.name = chan.name ∧ chan'.oprecords.map OpRecord.person =
        chan.oprecords.map OpRecord.person ++ recs.map OpRecord.person := by
  induction recs generalizing t chan with
  | nil => exact ⟨chan, by simp [← hchannels], rfl, by simp⟩
  | cons orec recs ih =>
    obtain ⟨hentity, huser, hhost⟩ := hrecs orec List.mem_cons_self
    have hrest := fun orec' hmem' => hrecs orec' (List.mem_cons_of_mem orec hmem')
    rw [List.map_cons, List.foldl_cons]
    have hstep : (readRow cm t (orec.row accounts chan.name)).channels =
        R.insertNew key { chan with oprecords := chan.oprecords ++ [⟨t.next, orec.entity, orec.user,
          orec.host, orec.firstseen, orec.lastevent, orec.age⟩] } := by
      simp only [readRow, OpRecord.row, hchannels, hacc, hentity, huser, hhost, ← hkey]
      exact Registry.modify_insertNew hfree
    have hnext : (readRow cm t (orec.row accounts chan.name)).accounts = accounts := hacc
    obtain ⟨chan', hfold, hname, hpeople⟩ := ih hrest hnext hstep hkey
    refine ⟨chan', ?_, hname, ?_⟩
    · dsimp only at hfold
      rw [hfold]
      rfl
    · rw [hpeople]
      simp [OpRecord.person]

theorem ChannelsOk.insertPeople (h : ChannelsOk cm accounts channels) {key : CString}
    {chan chan' : ChanfixChannel} (hkey : key = strcasecanon chan.name)
    (hname : chan'.name = chan.name)
    (hpeople : chan'.oprecords.map OpRecord.person = chan.oprecords.map OpRecord.person)
    (hfits : ∀ orec ∈ chan.oprecords,
      truncate USERLEN orec.user = orec.user ∧ truncate HOSTLEN orec.host = orec.host)
    (hcons : Consistent cm accounts chan.oprecords) :
    ChannelsOk cm accounts (channels.insertNew key chan') := by
  have hold : ∀ k c, (channels.insertNew key chan').find k = some c →
      channels.find k = some c ∨ k = key ∧ c = chan' := by
    intro k c hfind
    rw [Registry.find_insertNew, Option.or_eq_some_iff] at hfind
    obtain hfind | ⟨-, hfind⟩ := hfind
    · exact Or.inl hfind
    · split_ifs at hfind with hk
      exact Or.inr ⟨hk.symm, (Option.some.inj hfind).symm⟩
  refine ⟨?_, ?_, ?_⟩
  · intro k c hfind
    obtain hfind | ⟨rfl, rfl⟩ := hold k c hfind
    · exact h.key k c hfind
    · rw [hname, hkey]
  · intro k c hfind orec hmem
    obtain hfind | ⟨rfl, rfl⟩ := hold k c hfind
    · exact h.fits k c hfind orec hmem
    · have hin : orec.person ∈ chan.oprecords.map OpRecord.person :=
        hpeople ▸ List.mem_map_of_mem hmem
      obtain ⟨orec', hmem', hperson⟩ := List.mem_map.mp hin
      have huser : orec'.user = orec.user := congrArg (fun p => p.2.1) hperson
      have hhost : orec'.host = orec.host := congrArg (fun p => p.2.2) hperson
      rw [← huser, ← hhost]
      exact hfits orec' hmem'
  · intro k c hfind
    obtain hfind | ⟨rfl, rfl⟩ := hold k c hfind
    · exact h.people k c hfind
    · exact hcons.of_people hpeople

theorem readRows_channels {next : Nat} (hacc : AccountsOk cm next accounts)
    (hstar : ∀ mu ∈ accounts, irccaseEq cm mu.name ['*'] = false)
    (hchannels : ChannelsOk cm accounts channels) (xs : List (CString × ChanfixChannel))
    (hsub : ∀ e ∈ xs, e ∈ channels.entries) (hkeys : (xs.map Prod.fst).Nodup) {t : State}
    (ht : t.accounts = accounts) (hfree : ∀ e ∈ xs, t.channels.find e.1 = none)
    (hok : ChannelsOk cm accounts t.channels) :
    ∃ R n, (xs.flatMap fun e => e.2.rows accounts).foldl (readRow cm) t =
      { t with channels := R, next := n } ∧ ChannelsOk cm accounts R := by
  induction xs generalizing t with
  | nil => exact ⟨t.channels, t.next, rfl, hok⟩
  | cons e xs ih =>
    have hentry := (Registry.find_eq_some_iff e.1 e.2 _).mpr (hsub e List.mem_cons_self)
    have hkey := hchannels.key e.1 e.2 hentry
    have hfits := hchannels.fits e.1 e.2 hentry
    have hcons := hchannels.people e.1 e.2 hentry
    have hrecs : ∀ orec ∈ e.2.oprecords,
        myentityFind cm accounts (orec.entityWord accounts) = orec.entity ∧
          truncate USERLEN orec.user = orec.user ∧ truncate HOSTLEN orec.host = orec.host :=
      fun orec hmem => ⟨myentityFind_entityWord hacc hstar (hcons.live orec hmem), hfits orec hmem⟩
    have hfirst := hfree e List.mem_cons_self
    have hopened : (readRow cm t (.cfchan e.2.name e.2.ts e.2.lastupdate)).channels =
        t.channels.insertNew e.1 ⟨e.2.name, e.2.ts, e.2.lastupdate, []⟩ := by
      rw [hkey]
      rfl
    have hsame : (readRow cm t (.cfchan e.2.name e.2.ts e.2.lastupdate)).accounts = accounts := ht
    obtain ⟨chan', hfold, hname, hpeople⟩ :=
      readRow_records hfirst e.2.oprecords hrecs hsame hopened hkey
    rw [List.flatMap_cons, List.foldl_append, ChanfixChannel.rows, List.foldl_cons]
    dsimp only at hfold
    rw [hfold]
    have hnew : ChannelsOk cm accounts (t.channels.insertNew e.1 chan') :=
      hok.insertPeople hkey hname (by simpa using hpeople) hfits hcons
    have hrest : ∀ e' ∈ xs, (t.channels.insertNew e.1 chan').find e'.1 = none := by
      intro e' he'
      have hne : e.1 ≠ e'.1 := fun h => (List.nodup_cons.mp hkeys).1 (h ▸ List.mem_map_of_mem he')
      rw [Registry.find_insertNew, hfree e' (List.mem_cons_of_mem e he'), if_neg hne]
      rfl
    obtain ⟨R, n, hread, hR⟩ := ih (fun e' he' => hsub e' (List.mem_cons_of_mem e he'))
      (List.nodup_cons.mp hkeys).2 (t := { t with
        channels := t.channels.insertNew e.1 chan'
        next := ((e.2.oprecords.map (OpRecord.row accounts e.2.name)).foldl (readRow cm)
          (readRow cm t (.cfchan e.2.name e.2.ts e.2.lastupdate))).next }) ht hrest hnew
    exact ⟨R, n, hread, hR⟩

theorem readDatabase_identified (h : Identified cm s)
    (hstar : ∀ mu ∈ s.saved.accounts, irccaseEq cm mu.name ['*'] = false) :
    Identified cm (readDatabase cm s) := by
  obtain ⟨channels, hchannels, hrows⟩ := h.savedRows
  have hread := readRows_channels h.savedAccounts hstar hchannels channels.entries
    (fun _ he => he) channels.nodup
    (t := { s with
      accounts := s.saved.accounts, login := fun _ => none, channels := Registry.empty })
    (by rfl) (fun _ _ => by rfl) channelsOk_empty
  obtain ⟨R, n, hread, hR⟩ := hread
  rw [readDatabase, hrows, rowsOf, hread]
  exact ⟨h.savedAccounts, by simp, hR, h.savedAccounts, ⟨channels, hchannels, hrows⟩⟩

theorem writeChanfixdb_identified (h : Identified cm s) :
    Identified cm (writeChanfixdb s).1 ∧ (writeChanfixdb s).2 = [] := by
  refine ⟨⟨h.accounts, h.logins, h.channels, h.accounts, ⟨s.channels, h.channels, rfl⟩⟩, ?_⟩
  simp only [writeChanfixdb, List.flatMap_eq_nil_iff]
  intro e he
  rw [State.freedReads, List.filterMap_eq_nil_iff]
  intro a ha
  obtain ⟨orec, hmem, hentity⟩ := List.mem_filterMap.mp ha
  have hentry := (Registry.find_eq_some_iff e.1 e.2 _).mpr he
  exact if_pos ((h.channels.people e.1 e.2 hentry).live orec hmem a hentity)

theorem myuserDelete_identified (h : Identified cm s) {a : Nat} (hfree : Unreferenced s a) :
    Identified cm (myuserDelete s a) := by
  have hlive : ∀ b, b ≠ a → s.live b → (myuserDelete s a).live b := by
    intro b hb hlive
    obtain ⟨mu, hmem, rfl⟩ := List.mem_map.mp hlive
    exact List.mem_map_of_mem (List.mem_filter.mpr ⟨hmem, by simpa using hb⟩)
  refine ⟨h.accounts.sublist List.filter_sublist, ?_, ⟨h.channels.key, h.channels.fits, ?_⟩,
    h.savedAccounts, h.savedRows⟩
  · intro uid b hlogin
    obtain ⟨hlogin, hb⟩ := Option.filter_eq_some_iff.mp hlogin
    exact hlive b (by simpa using hb) (h.logins uid b hlogin)
  · intro key chan hfind
    refine (h.channels.people key chan hfind).mono fun orec hmem b hentity hb => ?_
    have hother := hfree _ ((Registry.find_eq_some_iff _ _ _).mp hfind) orec hmem
    exact hlive b (fun hba => hother (hba ▸ hentity)) hb

theorem myuserAdd_identified (h : Identified cm s) (name : CString) :
    Identified cm (myuserAdd cm s name) := by
  have hok := h.accounts.myuserAdd name
  cases hfind : myentityFind cm s.accounts name with
  | some a =>
    rw [myuserAdd, hfind]
    exact h
  | none =>
    rw [myuserAdd, hfind] at hok ⊢
    have hlive : ∀ a, s.live a → a ∈ (s.accounts ++ [Account.mk s.nextAccount name]).map Account.ref := by
      intro a ha
      rw [List.map_append]
      exact List.mem_append_left _ ha
    refine ⟨hok, fun uid a hlogin => hlive a (h.logins uid a hlogin),
      ⟨h.channels.key, h.channels.fits, ?_⟩, h.savedAccounts.mono (Nat.le_succ _), h.savedRows⟩
    intro key chan hfind'
    exact (h.channels.people key chan hfind').mono fun _ _ a _ ha => hlive a ha

end channels

section run
variable {cm : CaseMapping} {s : State}

def NoFreedRead : Obs → Prop
  | .readFreed _ => False
  | _ => True

theorem gatherMember_noFreedRead {now : Int} (s : State) (v : CString × User) :
    ∀ o ∈ (gatherMember cm now s v).2, NoFreedRead o := by
  intro o ho
  simp only [gatherMember, Option.mem_toList, Option.map_eq_some_iff] at ho
  obtain ⟨orec, -, rfl⟩ := ho
  trivial

theorem step_identified (s : State) (e : Event) (h : Identified cm s) (hg : Identifies cm s e) :
    Identified cm (step cm s e).1 ∧ ∀ o ∈ (step cm s e).2, NoFreedRead o := by
  cases e with
  | register name => exact ⟨myuserAdd_identified h name, by simp [step]⟩
  | delete a => exact ⟨myuserDelete_identified h hg, by simp [step]⟩
  | login uid a =>
    refine ⟨?_, by simp [step]⟩
    simp only [step]
    split
    · rename_i hlive
      refine ⟨h.accounts, ?_, h.channels, h.savedAccounts, h.savedRows⟩
      intro v b hlogin
      dsimp only at hlogin
      split_ifs at hlogin
      · exact Option.some.inj hlogin ▸ hlive
      · exact h.logins v b hlogin
    · exact h
  | logout uid =>
    refine ⟨⟨h.accounts, ?_, h.channels, h.savedAccounts, h.savedRows⟩, by simp [step]⟩
    intro v b hlogin
    simp only [step] at hlogin
    split_ifs at hlogin
    exact h.logins v b hlogin
  | gather now chanlist =>
    refine ⟨run_state_invariant gatherChannel_identified h hg, ?_⟩
    refine run_emits (I := fun _ => True) (fun _ _ _ => trivial) (fun t ch _ => ?_) trivial _
    rw [gatherChannel]
    split
    · simp
    · exact run_emits (I := fun _ => True) (fun _ _ _ => trivial)
        (fun t v _ => gatherMember_noFreedRead t v) trivial _
  | expire now =>
    refine ⟨chanfixExpire_identified h, ?_⟩
    intro o ho
    obtain ⟨_, rfl⟩ | ⟨_, rfl⟩ := chanfixExpire_obs ho
    · trivial
    · trivial
  | save =>
    obtain ⟨hid, hobs⟩ := writeChanfixdb_identified h
    refine ⟨hid, ?_⟩
    simp only [step]
    rw [hobs]
    simp
  | reload => exact ⟨readDatabase_identified h hg, by simp [step]⟩

theorem identified_init : Identified cm init := by
  have haccounts : AccountsOk cm 0 [] := ⟨by simp, by simp, by simp⟩
  refine ⟨haccounts, by simp [init], channelsOk_empty, haccounts, ?_⟩
  exact ⟨Registry.empty, channelsOk_empty, rfl⟩

/-- In a run that deletes no account a record refers to, attaches no account to a second record,
cuts no mask to one that is there and reads no account by the name of the placeholder, records
identify people and refer to live accounts. -/
theorem oprecords_identify_people (es : List Event)
    (h : Guarded (step cm) (Identifies cm) init es) :
    (∀ key chan, (run (step cm) init es).1.channels.find key = some chan →
      Consistent cm (run (step cm) init es).1.accounts chan.oprecords) ∧
    ∀ o ∈ (run (step cm) init es).2, NoFreedRead o := by
  have hid : Identified cm (run (step cm) init es).1 :=
    run_state_invariant (fun s e hs hg => (step_identified s e hs hg).1) identified_init h
  exact ⟨hid.channels.people, run_guarded_emits step_identified identified_init h⟩

def opA : User := ⟨1, ['a'], ['h']⟩

def opB : User := ⟨2, ['b'], ['h']⟩

def opsOf (ops : List User) : Channel := ⟨['#', 'c'], 0, false, ops.map fun u => ⟨u, true⟩⟩

theorem oprecords_identify_people_reload :
    let es : List Event := [.register ['x'], .gather 0 [opsOf [opA]], .login 1 0,
      .gather 300 [opsOf [opA, opB]], .expire 3600, .register ['y'], .delete 1, .save, .reload]
    (∀ key chan, (run (step .ascii) init es).1.channels.find key = some chan →
      Consistent .ascii (run (step .ascii) init es).1.accounts chan.oprecords) ∧
    ∀ o ∈ (run (step .ascii) init es).2, NoFreedRead o :=
  oprecords_identify_people _ (by decide +kernel)

/-- An op's account is deleted, and the next save reads its name. -/
theorem save_reads_freed_account :
    Obs.readFreed 0 ∈ (run (step .ascii) init
      [.register ['x'], .login 1 0, .gather 0 [opsOf [opA]], .delete 0, .save]).2 ∧
    ¬ NoFreedRead (.readFreed 0) := by
  refine ⟨by decide +kernel, fun h => h⟩

example : ((run (step .ascii) init [.register ['x'], .gather 0 [opsOf [opA]], .login 2 0,
    .gather 300 [opsOf [opB]], .login 1 0, .gather 600 [opsOf [opA]]]).1.channels.find
      ['#', 'C']).map (fun chan => chan.oprecords.map OpRecord.entity) = some [some 0, some 0] := by
  decide +kernel

end run
end ChatServices.ChanFix
