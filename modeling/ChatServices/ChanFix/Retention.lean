import ChatServices.ChanFix.Records

/-! What the expiry pass removes, and how long a record lasts that nothing refreshes. -/
namespace ChatServices.ChanFix
open ChatServices.Text ChatServices.Lib ChatServices.Lib.Run ChatServices.Lib.FirstMatch
variable {cm : CaseMapping} {s : State} {now : Int}

def Justified : Obs → Prop
  | .removed now orec => orec.age = 0 ∨ CHANFIX_RETENTION_TIME ≤ now - orec.lastevent
  | .dropped now chan => ∀ orec ∈ chan.oprecords, ¬ orec.decay.kept now
  | _ => True

def ChanfixChannel.Refreshed (now : Int) (chan : ChanfixChannel) : Prop :=
  (∃ orec ∈ chan.oprecords, orec.decay.kept now) →
    now - chan.lastupdate < CHANFIX_RETENTION_TIME

def Refreshed (s : State) : Event → Prop
  | .expire now => ∀ e ∈ s.channels.entries, e.2.Refreshed now
  | _ => True

theorem not_kept_iff (orec : OpRecord) :
    ¬ orec.kept now ↔ orec.age = 0 ∨ CHANFIX_RETENTION_TIME ≤ now - orec.lastevent := by
  have hpos : 0 < orec.age ↔ orec.age ≠ 0 := by
    rw [UInt32.lt_iff_toNat_lt, ne_eq, ← UInt32.toNat_inj]
    simp
    omega
  simp only [OpRecord.kept, hpos]
  by_cases h : orec.age = 0
  · simp [h]
  · simp [h]

theorem mem_sweep (chan : ChanfixChannel) (orec : OpRecord) :
    orec ∈ (chan.sweep now).oprecords ↔
      ∃ orec' ∈ chan.oprecords, orec'.decay = orec ∧ orec.kept now := by
  simp only [ChanfixChannel.sweep, List.mem_filter, List.mem_map, decide_eq_true_eq]
  constructor
  · rintro ⟨⟨orec', hmem, hdec⟩, hkept⟩
    exact ⟨orec', hmem, hdec, hkept⟩
  · rintro ⟨orec', hmem, hdec, hkept⟩
    exact ⟨⟨orec', hmem, hdec⟩, hkept⟩

theorem expireObs_justified_iff (chan : ChanfixChannel) :
    (∀ o ∈ expireObs now chan, Justified o) ↔ chan.Refreshed now := by
  have hloop : ∀ o ∈ ((chan.oprecords.map OpRecord.decay).filter
      (fun orec => ¬ orec.kept now)).map (Obs.removed now), Justified o := by
    intro o ho
    obtain ⟨orec, hmem, rfl⟩ := List.mem_map.mp ho
    have hnot : ¬ orec.kept now := by simpa using (List.mem_filter.mp hmem).2
    exact (not_kept_iff orec).mp hnot
  rw [expireObs, List.forall_mem_append]
  constructor
  · rintro ⟨_, htail⟩ ⟨orec, hmem, hkept⟩
    by_contra hlate
    have hgoes : ¬ (chan.sweep now).stays now := fun h => hlate h.2
    rw [if_neg hgoes] at htail
    have hdrop : Justified (.dropped now chan) :=
      htail _ (List.mem_append_right _ (List.mem_singleton.mpr rfl))
    exact hdrop orec hmem hkept
  · intro hfresh
    refine ⟨hloop, ?_⟩
    split
    · simp
    · rename_i hgoes
      have hnone : ∀ orec ∈ chan.oprecords, ¬ orec.decay.kept now := by
        intro orec hmem hkept
        have hin : orec.decay ∈ (chan.sweep now).oprecords :=
          (mem_sweep chan orec.decay).mpr ⟨orec, hmem, rfl, hkept⟩
        exact hgoes ⟨List.length_pos_of_mem hin, hfresh ⟨orec, hmem, hkept⟩⟩
      have hempty : (chan.sweep now).oprecords = [] := by
        rw [List.eq_nil_iff_forall_not_mem]
        intro orec hmem
        obtain ⟨orec', hmem', rfl, hkept⟩ := (mem_sweep chan orec).mp hmem
        exact hnone orec' hmem' hkept
      rw [hempty]
      simpa [Justified] using hnone

/-! ### What the other steps show -/

theorem gatherMember_justified (v : CString × User) :
    ∀ o ∈ (gatherMember cm now s v).2, Justified o := by
  intro o ho
  simp only [gatherMember, Option.mem_toList, Option.map_eq_some_iff] at ho
  obtain ⟨orec, -, rfl⟩ := ho
  trivial

theorem gatherChannel_justified (ch : Channel) :
    ∀ o ∈ (gatherChannel cm now s ch).2, Justified o := by
  rw [gatherChannel]
  split
  · simp
  · exact run_emits (I := fun _ => True) (fun _ _ _ => trivial)
      (fun _ v _ => gatherMember_justified v) trivial _

theorem step_justified_iff (s : State) (e : Event) :
    (∀ o ∈ (step cm s e).2, Justified o) ↔ Refreshed s e := by
  cases e with
  | expire now =>
    simp only [step, chanfixExpire, Refreshed, List.mem_flatMap]
    constructor
    · intro h e he
      exact (expireObs_justified_iff e.2).mp fun o ho => h o ⟨e, he, ho⟩
    · rintro h o ⟨e, he, ho⟩
      exact (expireObs_justified_iff e.2).mpr (h e he) o ho
  | gather now chanlist =>
    refine iff_of_true ?_ trivial
    exact run_emits (I := fun _ => True) (fun _ _ _ => trivial)
      (fun _ ch _ => gatherChannel_justified ch) trivial _
  | save =>
    refine iff_of_true ?_ trivial
    simp only [step, writeChanfixdb, State.freedReads, List.mem_flatMap, List.mem_filterMap]
    rintro o ⟨e, -, a, -, ho⟩
    split at ho
    · cases ho
    · cases ho
      trivial
  | _ => simp [step, Refreshed]

/-! ### Scores -/

theorem decrement_le (age : UInt32) : decrement age ≤ age := by
  rw [UInt32.le_iff_toNat_le]
  simp only [decrement, CHANFIX_EXPIRE_DIVISOR, UInt32.toNat_div, UInt32.toNat_sub,
    UInt32.toNat_add, UInt32.reduceToNat]
  have hlt := age.toNat_lt
  omega

theorem toNat_decay (age : UInt32) :
    (age - decrement age).toNat = age.toNat - (decrement age).toNat :=
  UInt32.toNat_sub_of_le _ _ (decrement_le age)

theorem decay_lt {age : UInt32} (hpos : 0 < age.toNat) (hlow : age.toNat + 671 < 2 ^ 32) :
    (age - decrement age).toNat < age.toNat := by
  rw [toNat_decay]
  simp only [decrement, CHANFIX_EXPIRE_DIVISOR, UInt32.toNat_div, UInt32.toNat_sub,
    UInt32.toNat_add, UInt32.reduceToNat]
  omega

theorem decay_stuck {age : UInt32} (hhigh : 2 ^ 32 ≤ age.toNat + 671) :
    age - decrement age = age := by
  rw [← UInt32.toNat_inj, toNat_decay]
  have hlt := age.toNat_lt
  simp only [decrement, CHANFIX_EXPIRE_DIVISOR, UInt32.toNat_div, UInt32.toNat_sub,
    UInt32.toNat_add, UInt32.reduceToNat]
  omega

/-! ### Records that no event is counted for -/

def opRecords (channels : Registry CString ChanfixChannel) : List OpRecord :=
  channels.entries.flatMap fun e => e.2.oprecords

def State.records (s : State) : List OpRecord := opRecords s.channels

theorem mem_opRecords_modify {channels : Registry CString ChanfixChannel} {key : CString}
    {f : ChanfixChannel → ChanfixChannel} {orec : OpRecord}
    (h : orec ∈ opRecords (channels.modify key f)) :
    orec ∈ opRecords channels ∨
      ∃ chan, channels.find key = some chan ∧ orec ∈ (f chan).oprecords := by
  obtain ⟨e, he, hmem⟩ := List.mem_flatMap.mp h
  rw [Registry.entries_modify, List.mem_map] at he
  obtain ⟨e', he', rfl⟩ := he
  by_cases hkey : e'.1 = key
  · rw [if_pos hkey] at hmem
    exact Or.inr ⟨e'.2, hkey ▸ (Registry.find_eq_some_iff _ _ _).mpr he', hmem⟩
  · rw [if_neg hkey] at hmem
    exact Or.inl (List.mem_flatMap.mpr ⟨e', he', hmem⟩)

theorem mem_opRecords_insertNew {channels : Registry CString ChanfixChannel} {key : CString}
    {chan : ChanfixChannel} (hempty : chan.oprecords = []) {orec : OpRecord}
    (h : orec ∈ opRecords (channels.insertNew key chan)) : orec ∈ opRecords channels := by
  cases hfind : channels.find key with
  | some chan' => rwa [Registry.insertNew_of_find hfind] at h
  | none =>
    rw [opRecords, Registry.entries_insertNew hfind, List.flatMap_append, List.mem_append] at h
    simpa [opRecords, hempty] using h

theorem mem_update {ref : Nat} {u : User} {myuser : Option Nat} {chan : ChanfixChannel}
    {orec : OpRecord}
    (h : orec ∈ (chanfixOprecordUpdate cm ref now u myuser chan).oprecords) :
    orec ∈ chan.oprecords ∨
      (∃ orec', chanfixOprecordFind cm chan.oprecords u myuser = some orec' ∧
        orec = orec'.touch now myuser) ∨
      chanfixOprecordFind cm chan.oprecords u myuser = none ∧
        orec = chanfixOprecordCreate ref now u myuser := by
  rw [chanfixOprecordUpdate] at h
  cases hfind : chanfixOprecordFind cm chan.oprecords u myuser with
  | none =>
    rw [hfind] at h
    have hmem : orec ∈ chan.oprecords ∨ orec = chanfixOprecordCreate ref now u myuser := by
      simpa using h
    exact hmem.imp_right fun h => Or.inr ⟨rfl, h⟩
  | some orec' =>
    rw [hfind] at h
    have hmem := mem_updateFirst hfind h
    exact hmem.imp_right fun h => Or.inl ⟨orec', rfl, h⟩

/-- No record numbered `k` came up on the way from `s` to `t`. -/
def Quiet (k : Nat) (s t : State) : Prop :=
  k < s.next → s.next ≤ t.next ∧ ∀ orec ∈ t.records, orec.ref = k → orec ∈ s.records

def NoEvent (k : Nat) : Obs → Prop
  | .event orec => orec.ref ≠ k
  | _ => True

section quiet
variable {k : Nat}

theorem Quiet.refl (s : State) : Quiet k s s := fun _ => ⟨Nat.le_refl _, fun _ h _ => h⟩

theorem Quiet.trans (s t u : State) (h : Quiet k s t) (h' : Quiet k t u) : Quiet k s u := by
  intro hk
  have hst := h hk
  have htu := h' (Nat.lt_of_lt_of_le hk hst.1)
  exact ⟨Nat.le_trans hst.1 htu.1, fun orec hmem href => hst.2 orec (htu.2 orec hmem href) href⟩

theorem gatherMember_quiet (s : State) (v : CString × User)
    (h : ∀ o ∈ (gatherMember cm now s v).2, NoEvent k o) : Quiet k s (gatherMember cm now s v).1 := by
  intro hk
  refine ⟨Nat.le_succ _, fun orec hmem href => ?_⟩
  obtain hold | ⟨chan, hchan, hnew⟩ := mem_opRecords_modify hmem
  · exact hold
  · obtain hold | ⟨orec', hfind, rfl⟩ | ⟨-, rfl⟩ := mem_update hnew
    · exact List.mem_flatMap.mpr ⟨_, (Registry.find_eq_some_iff _ _ _).mp hchan, hold⟩
    · have hevent : Obs.event orec' ∈ (gatherMember cm now s v).2 := by
        simp [gatherMember, hchan, hfind]
      exact absurd href (h _ hevent)
    · have hnext : s.next = k := href
      omega

theorem gatherChannel_quiet (s : State) (ch : Channel)
    (h : ∀ o ∈ (gatherChannel cm now s ch).2, NoEvent k o) :
    Quiet k s (gatherChannel cm now s ch).1 := by
  rw [gatherChannel] at h ⊢
  split
  · exact Quiet.refl s
  · rename_i hreg
    rw [if_neg hreg] at h
    have hget : Quiet k s (chanfixChannelGet s ch) := fun _ =>
      ⟨Nat.le_refl _, fun _ hmem _ => mem_opRecords_insertNew (by rfl) hmem⟩
    exact Quiet.trans _ _ _ hget (run_related Quiet.refl Quiet.trans gatherMember_quiet h)

theorem readRow_quiet (s : State) (row : Row) : Quiet k s (readRow cm s row) := by
  cases row with
  | cfchan name ts lastupdate =>
    exact fun _ => ⟨Nat.le_refl _, fun _ hmem _ => mem_opRecords_insertNew (by rfl) hmem⟩
  | cfop name entity user host firstseen lastevent age =>
    intro hk
    refine ⟨Nat.le_succ _, fun orec hmem href => ?_⟩
    obtain hold | ⟨chan, hchan, hnew⟩ := mem_opRecords_modify hmem
    · exact hold
    · obtain hold | hnew := List.mem_append.mp hnew
      · exact List.mem_flatMap.mpr ⟨_, (Registry.find_eq_some_iff _ _ _).mp hchan, hold⟩
      · rw [List.mem_singleton.mp hnew] at href
        dsimp only at href
        omega

theorem readRows_quiet (rows : List Row) (s : State) : Quiet k s (rows.foldl (readRow cm) s) := by
  induction rows generalizing s with
  | nil => exact Quiet.refl s
  | cons row rows ih => exact Quiet.trans _ _ _ (readRow_quiet s row) (ih _)

end quiet

def Event.isExpire : Event → Bool
  | .expire _ => true
  | _ => false

theorem step_quiet {k : Nat} (s : State) {e : Event} (he : e.isExpire = false)
    (h : ∀ o ∈ (step cm s e).2, NoEvent k o) : Quiet k s (step cm s e).1 := by
  cases e with
  | gather now chanlist => exact run_related Quiet.refl Quiet.trans gatherChannel_quiet h
  | expire now => cases he
  | reload =>
    refine Quiet.trans _ _ _ ?_ (readRows_quiet _ _)
    exact fun _ => ⟨Nat.le_refl _, fun _ hmem _ => absurd hmem (by simp [State.records, opRecords,
      Registry.empty])⟩
  | register name =>
    simp only [step, myuserAdd]
    split <;> exact Quiet.refl _
  | login uid a =>
    simp only [step]
    split <;> exact Quiet.refl _
  | _ => exact Quiet.refl _

theorem mem_records_expire {orec : OpRecord} (h : orec ∈ (chanfixExpire now s).1.records) :
    ∃ orec' ∈ s.records, orec'.decay = orec ∧ orec.kept now := by
  obtain ⟨e, he, hmem⟩ := List.mem_flatMap.mp h
  have hfind := (Registry.find_eq_some_iff e.1 e.2 _).mpr he
  simp only [chanfixExpire, Registry.find_update, Option.bind_eq_some_iff] at hfind
  obtain ⟨chan, hchan, hexp⟩ := hfind
  rw [expireChannel] at hexp
  split at hexp
  · have hsweep := Option.some.inj hexp
    rw [← hsweep] at hmem
    obtain ⟨orec', hmem', hdec, hkept⟩ := (mem_sweep chan orec).mp hmem
    exact ⟨orec', List.mem_flatMap.mpr ⟨_, (Registry.find_eq_some_iff _ _ _).mp hchan, hmem'⟩,
      hdec, hkept⟩
  · cases hexp

theorem run_removes {k : Nat} (fs : List Event) {s : State} (hk : k < s.next)
    (h : ∀ orec ∈ s.records, orec.ref = k →
      orec.age.toNat < fs.countP Event.isExpire ∧ orec.age.toNat + 671 < 2 ^ 32)
    (hquiet : ∀ o ∈ (run (step cm) s fs).2, NoEvent k o) :
    ∀ orec ∈ (run (step cm) s fs).1.records, orec.ref ≠ k := by
  induction fs generalizing s with
  | nil =>
    intro orec hmem href
    have hlt := (h orec hmem href).1
    simp at hlt
  | cons e fs ih =>
    rw [run_cons] at hquiet
    have hfirst : ∀ o ∈ (step cm s e).2, NoEvent k o :=
      fun o ho => hquiet o (List.mem_append_left _ ho)
    have hrest : ∀ o ∈ (run (step cm) (step cm s e).1 fs).2, NoEvent k o :=
      fun o ho => hquiet o (List.mem_append_right _ ho)
    cases hexp : e.isExpire with
    | false =>
      have hq := step_quiet s hexp hfirst hk
      refine ih (Nat.lt_of_lt_of_le hk hq.1) (fun orec hmem href => ?_) hrest
      have hold := h orec (hq.2 orec hmem href) href
      rwa [List.countP_cons_of_neg (by simp [hexp])] at hold
    | true =>
      cases e with
      | expire now =>
        refine ih hk (fun orec hmem href => ?_) hrest
        obtain ⟨orec', hmem', rfl, hkept⟩ := mem_records_expire hmem
        have hold := h orec' hmem' href
        rw [List.countP_cons_of_pos hexp] at hold
        have hpos : 0 < orec'.age.toNat := by
          have hage : 0 < (orec'.age - decrement orec'.age).toNat := by
            simpa [UInt32.lt_iff_toNat_lt, OpRecord.decay] using hkept.1
          rw [toNat_decay] at hage
          omega
        have hlt := decay_lt hpos hold.2
        simp only [OpRecord.decay]
        omega
      | _ => cases hexp

/-! ### Addresses are not reused -/

structure Numbered (s : State) : Prop where
  below : ∀ key chan, s.channels.find key = some chan → ∀ orec ∈ chan.oprecords, orec.ref < s.next
  within : ∀ key chan, s.channels.find key = some chan → (chan.oprecords.map OpRecord.ref).Nodup
  across : ∀ key chan key' chan', s.channels.find key = some chan →
    s.channels.find key' = some chan' → ∀ orec ∈ chan.oprecords, ∀ orec' ∈ chan'.oprecords,
      orec.ref = orec'.ref → key = key'

theorem mem_records_iff {orec : OpRecord} :
    orec ∈ s.records ↔ ∃ key chan, s.channels.find key = some chan ∧ orec ∈ chan.oprecords := by
  simp only [State.records, opRecords, List.mem_flatMap, Registry.find_eq_some_iff]
  constructor
  · rintro ⟨e, he, hmem⟩
    exact ⟨e.1, e.2, he, hmem⟩
  · rintro ⟨key, chan, he, hmem⟩
    exact ⟨_, he, hmem⟩

theorem Numbered.eq_of_ref (h : Numbered s) {orec orec' : OpRecord} (hmem : orec ∈ s.records)
    (hmem' : orec' ∈ s.records) (href : orec.ref = orec'.ref) : orec = orec' := by
  obtain ⟨key, chan, hchan, hin⟩ := mem_records_iff.mp hmem
  obtain ⟨key', chan', hchan', hin'⟩ := mem_records_iff.mp hmem'
  obtain rfl := h.across key chan key' chan' hchan hchan' orec hin orec' hin' href
  rw [hchan] at hchan'
  obtain rfl := Option.some.inj hchan'
  exact List.inj_on_of_nodup_map (h.within key chan hchan) hin hin' href

theorem Numbered.modify (h : Numbered s) {t : State} {key : CString}
    {f : ChanfixChannel → ChanfixChannel} (hchannels : t.channels = s.channels.modify key f)
    (hnext : t.next = s.next + 1)
    (hf : ∀ chan, (f chan).oprecords.map OpRecord.ref = chan.oprecords.map OpRecord.ref ∨
      (f chan).oprecords.map OpRecord.ref = chan.oprecords.map OpRecord.ref ++ [s.next]) :
    Numbered t := by
  have hold : ∀ k chan, t.channels.find k = some chan → ∃ chan', s.channels.find k = some chan' ∧
      (chan = chan' ∨ k = key ∧ chan = f chan') := by
    intro k chan hfind
    rw [hchannels, Registry.find_modify] at hfind
    split_ifs at hfind with hkey
    · obtain ⟨chan', hchan', rfl⟩ := Option.map_eq_some_iff.mp hfind
      exact ⟨chan', hchan', Or.inr ⟨hkey, rfl⟩⟩
    · exact ⟨chan, hfind, Or.inl rfl⟩
  -- an address in the table is an old one of the same channel, or the new one in channel `key`
  have hrefs : ∀ k chan, t.channels.find k = some chan → ∀ orec ∈ chan.oprecords,
      (∃ chan', s.channels.find k = some chan' ∧ ∃ orec' ∈ chan'.oprecords, orec'.ref = orec.ref) ∨
        k = key ∧ orec.ref = s.next := by
    intro k chan hfind orec hmem
    obtain ⟨chan', hchan', rfl | ⟨hkey, rfl⟩⟩ := hold k chan hfind
    · exact Or.inl ⟨chan, hchan', orec, hmem, rfl⟩
    · have hin : orec.ref ∈ (f chan').oprecords.map OpRecord.ref := List.mem_map_of_mem hmem
      cases hf chan' with
      | inl hsame =>
        rw [hsame, List.mem_map] at hin
        exact Or.inl ⟨chan', hchan', hin⟩
      | inr hadd =>
        rw [hadd, List.mem_append, List.mem_singleton, List.mem_map] at hin
        exact hin.imp (fun h => ⟨chan', hchan', h⟩) fun h => ⟨hkey, h⟩
  refine ⟨?_, ?_, ?_⟩
  · intro k chan hfind orec hmem
    obtain ⟨chan', hchan', orec', hmem', href⟩ | ⟨-, href⟩ := hrefs k chan hfind orec hmem
    · have hlt := h.below k chan' hchan' orec' hmem'
      omega
    · omega
  · intro k chan hfind
    obtain ⟨chan', hchan', rfl | ⟨-, rfl⟩⟩ := hold k chan hfind
    · exact h.within k chan hchan'
    · cases hf chan' with
      | inl hsame =>
        rw [hsame]
        exact h.within k chan' hchan'
      | inr hadd =>
        rw [hadd, List.nodup_append]
        refine ⟨h.within k chan' hchan', List.nodup_singleton _, ?_⟩
        intro a ha b hb hab
        obtain ⟨orec, hmem, rfl⟩ := List.mem_map.mp ha
        have hlt := h.below k chan' hchan' orec hmem
        rw [List.mem_singleton.mp hb] at hab
        omega
  · intro k chan k' chan' hfind hfind' orec hmem orec' hmem' href
    have hk := hrefs k chan hfind orec hmem
    have hk' := hrefs k' chan' hfind' orec' hmem'
    obtain ⟨c, hc, r, hr, hrr⟩ | ⟨hkey, hnew⟩ := hk
    · obtain ⟨c', hc', r', hr', hrr'⟩ | ⟨hkey', hnew'⟩ := hk'
      · exact h.across k c k' c' hc hc' r hr r' hr' (by omega)
      · have hlt := h.below k c hc r hr
        omega
    · obtain ⟨c', hc', r', hr', hrr'⟩ | ⟨hkey', hnew'⟩ := hk'
      · have hlt := h.below k' c' hc' r' hr'
        omega
      · rw [hkey, hkey']

theorem Numbered.insertNew (h : Numbered s) {t : State} {key : CString} {chan : ChanfixChannel}
    (hchannels : t.channels = s.channels.insertNew key chan) (hempty : chan.oprecords = [])
    (hnext : t.next = s.next) : Numbered t := by
  have hold : ∀ k c, t.channels.find k = some c → ∀ orec ∈ c.oprecords,
      s.channels.find k = some c := by
    intro k c hfind orec hmem
    rw [hchannels, Registry.find_insertNew, Option.or_eq_some_iff] at hfind
    obtain hfind | ⟨-, hfind⟩ := hfind
    · exact hfind
    · split_ifs at hfind
      obtain rfl := Option.some.inj hfind
      simp [hempty] at hmem
  refine ⟨?_, ?_, ?_⟩
  · intro k c hfind orec hmem
    rw [hnext]
    exact h.below k c (hold k c hfind orec hmem) orec hmem
  · intro k c hfind
    cases hrecs : c.oprecords with
    | nil => simp
    | cons orec recs =>
      rw [← hrecs]
      exact h.within k c (hold k c hfind orec (by simp [hrecs]))
  · intro k c k' c' hfind hfind' orec hmem orec' hmem' href
    exact h.across k c k' c' (hold k c hfind orec hmem) (hold k' c' hfind' orec' hmem') orec hmem
      orec' hmem' href

theorem map_ref_update (ref : Nat) (u : User) (myuser : Option Nat) (chan : ChanfixChannel) :
    (chanfixOprecordUpdate cm ref now u myuser chan).oprecords.map OpRecord.ref =
        chan.oprecords.map OpRecord.ref ∨
      (chanfixOprecordUpdate cm ref now u myuser chan).oprecords.map OpRecord.ref =
        chan.oprecords.map OpRecord.ref ++ [ref] := by
  rw [chanfixOprecordUpdate]
  split
  · exact Or.inl (map_updateFirst _ fun _ => rfl)
  · exact Or.inr (by simp [chanfixOprecordCreate])

theorem gatherMember_numbered (s : State) (v : CString × User) (h : Numbered s) :
    Numbered (gatherMember cm now s v).1 :=
  h.modify (by rfl) (by rfl) fun chan => map_ref_update s.next v.2 (s.login v.2.uid) chan

theorem gatherChannel_numbered (s : State) (ch : Channel) (h : Numbered s) :
    Numbered (gatherChannel cm now s ch).1 := by
  rw [gatherChannel]
  split
  · exact h
  · have hget : Numbered (chanfixChannelGet s ch) := h.insertNew (by rfl) (by rfl) (by rfl)
    exact run_keeps gatherMember_numbered hget _

theorem readRow_numbered (s : State) (row : Row) (h : Numbered s) : Numbered (readRow cm s row) := by
  cases row with
  | cfchan name ts lastupdate => exact h.insertNew (by rfl) (by rfl) (by rfl)
  | cfop name entity user host firstseen lastevent age =>
    exact h.modify (by rfl) (by rfl) fun chan => Or.inr (by simp)

theorem chanfixExpire_numbered (h : Numbered s) : Numbered (chanfixExpire now s).1 := by
  have hold : ∀ key chan, (chanfixExpire now s).1.channels.find key = some chan →
      ∃ chan', s.channels.find key = some chan' ∧ chan = chan'.sweep now := by
    intro key chan hfind
    simp only [chanfixExpire, Registry.find_update, Option.bind_eq_some_iff, expireChannel] at hfind
    obtain ⟨chan', hchan', hexp⟩ := hfind
    split_ifs at hexp
    exact ⟨chan', hchan', (Option.some.inj hexp).symm⟩
  refine ⟨?_, ?_, ?_⟩
  · intro key chan hfind orec hmem
    obtain ⟨chan', hchan', rfl⟩ := hold key chan hfind
    obtain ⟨orec', hmem', rfl, -⟩ := (mem_sweep chan' orec).mp hmem
    exact h.below key chan' hchan' orec' hmem'
  · intro key chan hfind
    obtain ⟨chan', hchan', rfl⟩ := hold key chan hfind
    have hsub : ((chan'.sweep now).oprecords.map OpRecord.ref).Sublist
        ((chan'.oprecords.map OpRecord.decay).map OpRecord.ref) := List.filter_sublist.map _
    rw [List.map_map] at hsub
    exact (h.within key chan' hchan').sublist hsub
  · intro key chan key' chan' hfind hfind' orec hmem orec' hmem' href
    obtain ⟨c, hc, rfl⟩ := hold key chan hfind
    obtain ⟨c', hc', rfl⟩ := hold key' chan' hfind'
    obtain ⟨r, hr, rfl, -⟩ := (mem_sweep c orec).mp hmem
    obtain ⟨r', hr', rfl, -⟩ := (mem_sweep c' orec').mp hmem'
    exact h.across key c key' c' hc hc' r hr r' hr' href

theorem numbered_empty (hempty : s.channels = Registry.empty) : Numbered s := by
  refine ⟨?_, ?_, ?_⟩ <;> intro key chan <;> intros <;> simp_all

theorem step_numbered (s : State) (e : Event) (h : Numbered s) : Numbered (step cm s e).1 := by
  cases e with
  | gather now chanlist => exact run_keeps gatherChannel_numbered h chanlist
  | expire now => exact chanfixExpire_numbered h
  | reload =>
    simp only [step, readDatabase]
    exact List.foldlRecOn _ _ (numbered_empty (by rfl)) fun t ht row _ => readRow_numbered t row ht
  | register name =>
    simp only [step, myuserAdd]
    split
    · exact h
    · exact ⟨h.below, h.within, h.across⟩
  | login uid a =>
    simp only [step]
    split
    · exact ⟨h.below, h.within, h.across⟩
    · exact h
  | _ => exact ⟨h.below, h.within, h.across⟩

/-! ### Scores near the wrap -/

theorem expire_stuck {e : CString × ChanfixChannel} {orec : OpRecord} (n : Nat) {s : State}
    (he : e ∈ s.channels.entries) (hmem : orec ∈ e.2.oprecords)
    (hhigh : 2 ^ 32 ≤ orec.age.toNat + 671) (hevent : now ≤ orec.lastevent)
    (hupdate : now ≤ e.2.lastupdate) :
    orec ∈ (run (step cm) s (List.replicate n (.expire now))).1.records := by
  induction n generalizing s e with
  | zero => exact List.mem_flatMap.mpr ⟨e, he, hmem⟩
  | succ n ih =>
    have hsame : orec.decay = orec := by rw [OpRecord.decay, decay_stuck hhigh]
    have hkept : orec.kept now := by
      have hlt := orec.age.toNat_lt
      refine ⟨?_, ?_⟩
      · rw [UInt32.lt_iff_toNat_lt]
        simp
        omega
      · simp only [CHANFIX_RETENTION_TIME]
        omega
    have hsweep : orec ∈ (e.2.sweep now).oprecords :=
      (mem_sweep e.2 orec).mpr ⟨orec, hmem, hsame, hkept⟩
    have hstays : (e.2.sweep now).stays now := by
      refine ⟨List.length_pos_of_mem hsweep, ?_⟩
      simp only [ChanfixChannel.sweep, CHANFIX_RETENTION_TIME]
      omega
    have hnext : (e.1, e.2.sweep now) ∈ (step cm s (.expire now)).1.channels.entries := by
      rw [← Registry.find_eq_some_iff]
      simp only [step, chanfixExpire, Registry.find_update,
        (Registry.find_eq_some_iff e.1 e.2 _).mpr he, Option.bind_some, expireChannel, if_pos hstays]
    rw [List.replicate_succ, run_cons]
    exact ih hnext hsweep hupdate

theorem expire_noEvent {k : Nat} (s : State) (n : Nat) :
    ∀ o ∈ (run (step cm) s (List.replicate n (.expire now))).2, NoEvent k o := by
  induction n generalizing s with
  | zero => simp
  | succ n ih =>
    rw [List.replicate_succ, run_cons, List.forall_mem_append]
    refine ⟨?_, ih _⟩
    intro o ho
    obtain ⟨_, rfl⟩ | ⟨_, rfl⟩ := chanfixExpire_obs ho
    · trivial
    · trivial

def WearsOut (cm : CaseMapping) (s : State) (orec : OpRecord) : Prop :=
  ∃ n, ∀ fs, (∀ o ∈ (run (step cm) s fs).2, NoEvent orec.ref o) →
    n ≤ fs.countP Event.isExpire → ∀ orec' ∈ (run (step cm) s fs).1.records, orec'.ref ≠ orec.ref

theorem wearsOut_iff (h : Numbered s) {orec : OpRecord} (hmem : orec ∈ s.records) :
    WearsOut cm s orec ↔ orec.age.toNat + 671 < 2 ^ 32 := by
  obtain ⟨key, chan, hchan, hin⟩ := mem_records_iff.mp hmem
  constructor
  · rintro ⟨n, hgone⟩
    by_contra hhigh
    -- passes made before the record's last event and the channel's last update
    have hstuck : orec ∈ (run (step cm) s (List.replicate n
        (.expire (min orec.lastevent chan.lastupdate)))).1.records :=
      expire_stuck n ((Registry.find_eq_some_iff _ _ _).mp hchan) hin (by omega) (by omega)
        (by dsimp only; omega)
    refine hgone _ (expire_noEvent s n) ?_ orec hstuck rfl
    rw [List.countP_replicate]
    exact Nat.le_refl _
  · intro hlow
    refine ⟨orec.age.toNat + 1, fun fs hquiet hcount => ?_⟩
    have hbelow : orec.ref < s.next := h.below key chan hchan orec hin
    refine run_removes fs hbelow (fun orec' hmem' href => ?_) hquiet
    rw [h.eq_of_ref hmem' hmem href]
    omega

/-- What passes remove is spent or old exactly where every channel with a record to keep was
extended in time; scores never underflow, and records that nothing refreshes wear out exactly
below the wrap. -/
theorem chanfix_history_kept (es : List Event) :
    ((∀ o ∈ (run (step cm) init es).2, Justified o) ↔ Guarded (step cm) Refreshed init es) ∧
      ∀ orec ∈ (run (step cm) init es).1.records, decrement orec.age ≤ orec.age ∧
        (WearsOut cm (run (step cm) init es).1 orec ↔ orec.age.toNat + 671 < 2 ^ 32) := by
  refine ⟨run_emits_iff step_justified_iff init es, fun orec hmem => ⟨decrement_le orec.age, ?_⟩⟩
  have hnum : Numbered (run (step cm) init es).1 := run_keeps step_numbered (numbered_empty rfl) es
  exact wearsOut_iff hnum hmem

def stableOp : User := ⟨1, ['a'], ['h']⟩

def stableChannel : Channel := ⟨['#', 'c'], 0, false, [⟨stableOp, true⟩]⟩

/-- An op who stays: the last event is at the time of the expiry pass, and yet the pass frees
the channel, whose list of records did not grow for 28 days. -/
theorem stable_channel_lost :
    Obs.removed (86400 * 28) ⟨0, none, ['a'], ['h'], 0, 86400 * 28, 1⟩ ∈
        (run (step .ascii) init [.gather 0 [stableChannel],
          .gather (86400 * 28) [stableChannel], .expire (86400 * 28)]).2 ∧
      ¬ Justified (.removed (86400 * 28) ⟨0, none, ['a'], ['h'], 0, 86400 * 28, 1⟩) := by
  refine ⟨by decide +kernel, ?_⟩
  simp [Justified, CHANFIX_RETENTION_TIME]

end ChatServices.ChanFix
