import ChatServices.ChanServ.Channels

/-! Channels with `MC_SECURE`: which reports of the network leave nobody on the channel with a
status that its access does not allow. -/
namespace ChatServices.ChanServ.Channels
open ChatServices.Lib ChatServices.Lib.Mask ChatServices.Lib.Run ChatServices.Text

def Entitled (ircd : Ircd) (flags modes : Flags) : Prop :=
  (ircd.usesOwner = true → test modes ircd.ownerMode = true → test flags caUseowner = true) ∧
  (ircd.usesProtect = true → test modes ircd.protectMode = true → test flags caUseprotect = true) ∧
  (test modes cstatusOp = true → test flags (caOp ||| caAutoop) = true) ∧
  (ircd.usesHalfops = true → test modes ircd.halfopsMode = true →
    test flags (caHalfop ||| caAutohalfop) = true)

instance (ircd : Ircd) (flags modes : Flags) : Decidable (Entitled ircd flags modes) :=
  inferInstanceAs (Decidable (_ ∧ _))

def Watched (net : Net) (u : Uid) : Prop :=
  (net.user u).internal = false ∧ test (net.user u).flags ufService = false

instance (net : Net) (u : Uid) : Decidable (Watched net u) := inferInstanceAs (Decidable (_ ∧ _))

def SecureOk (net : Net) (st : ChanState) : Prop :=
  ∀ cu ∈ st.chan.members, Watched net cu.user → Entitled net.ircd (net.access cu.user) cu.modes

instance (net : Net) (st : ChanState) : Decidable (SecureOk net st) :=
  inferInstanceAs (Decidable (∀ cu ∈ st.chan.members, _))

/-! ### Statuses -/

section statuses
variable {net : Net} {ircd : Ircd} {flags modes modes' value : Flags} {noop : Bool}

theorem Entitled.mono (h : Entitled ircd flags modes)
    (hsub : ∀ m, test modes' m = true → test modes m = true) : Entitled ircd flags modes' :=
  ⟨fun huses ht => h.1 huses (hsub _ ht), fun huses ht => h.2.1 huses (hsub _ ht),
    fun ht => h.2.2.1 (hsub _ ht), fun huses ht => h.2.2.2 huses (hsub _ ht)⟩

theorem Entitled.or (h : Entitled ircd flags modes) (h' : Entitled ircd flags modes') :
    Entitled ircd flags (modes ||| modes') := by
  refine ⟨fun huses ht => ?_, fun huses ht => ?_, fun ht => ?_, fun huses ht => ?_⟩
  all_goals
    rw [test_or, Bool.or_eq_true] at ht
  · exact ht.elim (h.1 huses) (h'.1 huses)
  · exact ht.elim (h.2.1 huses) (h'.2.1 huses)
  · exact ht.elim h.2.2.1 h'.2.2.1
  · exact ht.elim (h.2.2.2 huses) (h'.2.2.2 huses)

theorem Entitled.remove (h : Entitled ircd flags modes) : Entitled ircd flags (modes &&& ~~~value) :=
  h.mono fun _ => test_mono (and_sub_left _ _)

theorem Entitled.bounce (h : Entitled ircd flags modes) :
    Entitled ircd flags ((modes ||| value) &&& ~~~value) := by
  refine h.mono fun m => test_mono ?_
  rw [sub_iff]
  intro i hi
  obtain ⟨hor, hnot⟩ := (has_and _ _ i).mp hi
  exact ((has_or _ _ i).mp hor).resolve_right ((has_not _ i).mp hnot).2

theorem protect_apart (ircd : Ircd) : test ircd.protectMode cstatusOwner = false ∧
    test ircd.protectMode cstatusOp = false ∧ test ircd.protectMode cstatusHalfop = false := by
  obtain h | h := ircd.protect_bit <;> rw [h] <;> decide

theorem halfops_apart (ircd : Ircd) : test ircd.halfopsMode cstatusOwner = false ∧
    test ircd.halfopsMode cstatusProtect = false ∧ test ircd.halfopsMode cstatusOp = false := by
  obtain h | h := ircd.halfops_bit <;> rw [h] <;> decide

variable {m : Flags}

theorem test_joinProtect {secure : Bool} (h : test net.ircd.protectMode m = false) :
    test (joinProtect net flags noop secure modes) m = test modes m := by
  rw [joinProtect]
  split_ifs
  · rfl
  · exact test_or_disjoint h _
  · rfl
  · exact test_andNot_disjoint h _
  · rfl

theorem test_joinOp {secure service : Bool} (h : test cstatusOp m = false) :
    test (joinOp flags noop secure service modes) m = test modes m := by
  rw [joinOp]
  split_ifs
  · exact test_or_disjoint h _
  · rfl
  · exact test_andNot_disjoint h _
  · rfl

theorem test_joinHalfop {secure : Bool} (h : test net.ircd.halfopsMode m = false) :
    test (joinHalfop net flags noop secure modes) m = test modes m := by
  rw [joinHalfop]
  split_ifs
  · rfl
  · exact test_or_disjoint h _
  · rfl
  · exact test_andNot_disjoint h _
  · rfl

theorem test_joinVoice (h : test cstatusVoice m = false) :
    test (joinVoice net flags noop modes) m = test modes m := by
  rw [joinVoice]
  split_ifs
  · exact test_or_disjoint h _
  · rfl

theorem joinOwner_entitled (huses : net.ircd.usesOwner = true) (hflag : test flags caUseowner = false) :
    test (joinOwner net flags noop true modes) net.ircd.ownerMode = false := by
  rw [joinOwner, huses, hflag]
  cases ht : test modes net.ircd.ownerMode with
  | true => exact test_andNot_self _ _
  | false => exact ht

theorem joinProtect_entitled (huses : net.ircd.usesProtect = true)
    (hflag : test flags caUseprotect = false) :
    test (joinProtect net flags noop true modes) net.ircd.protectMode = false := by
  rw [joinProtect, huses, hflag]
  cases ht : test modes net.ircd.protectMode with
  | true => exact test_andNot_self _ _
  | false => exact ht

theorem joinOp_entitled (hflag : test flags (caOp ||| caAutoop) = false) :
    test (joinOp flags noop true false modes) cstatusOp = false := by
  rw [test_comm, test_or, Bool.or_eq_false_iff, test_comm, test_comm caAutoop] at hflag
  rw [joinOp, hflag.2, hflag.1]
  cases ht : test modes cstatusOp with
  | true => exact test_andNot_self _ _
  | false => exact ht

theorem joinHalfop_entitled (huses : net.ircd.usesHalfops = true)
    (hflag : test flags (caHalfop ||| caAutohalfop) = false) :
    test (joinHalfop net flags noop true modes) net.ircd.halfopsMode = false := by
  rw [test_comm, test_or, Bool.or_eq_false_iff, test_comm, test_comm caAutohalfop] at hflag
  rw [joinHalfop, huses, hflag.2, hflag.1]
  cases ht : test modes net.ircd.halfopsMode with
  | true => exact test_andNot_self _ _
  | false => exact ht

theorem joinStatus_entitled :
    Entitled net.ircd flags (joinStatus net flags noop true false modes) := by
  refine ⟨fun huses ht => ?_, fun huses ht => ?_, fun ht => ?_, fun huses ht => ?_⟩
  · by_contra hflag
    have hnone := @joinOwner_entitled net flags modes noop huses (Bool.not_eq_true _ ▸ hflag)
    obtain hbit | hbit := net.ircd.owner_bit
    · rw [hbit] at ht hnone
      rw [joinStatus, test_joinVoice (by decide), test_joinHalfop (halfops_apart _).1,
        test_joinOp (by decide), test_joinProtect (protect_apart _).1, hnone] at ht
      cases ht
    · rw [hbit, test_zero_right] at ht
      cases ht
  · by_contra hflag
    have hnone := @joinProtect_entitled net flags (joinOwner net flags noop true modes) noop huses
      (Bool.not_eq_true _ ▸ hflag)
    obtain hbit | hbit := net.ircd.protect_bit
    · rw [hbit] at ht hnone
      rw [joinStatus, test_joinVoice (by decide), test_joinHalfop (halfops_apart _).2.1,
        test_joinOp (by decide), hnone] at ht
      cases ht
    · rw [hbit, test_zero_right] at ht
      cases ht
  · by_contra hflag
    have hnone := @joinOp_entitled flags (joinProtect net flags noop true
      (joinOwner net flags noop true modes)) noop (Bool.not_eq_true _ ▸ hflag)
    rw [joinStatus, test_joinVoice (by decide), test_joinHalfop (halfops_apart _).2.2, hnone] at ht
    cases ht
  · by_contra hflag
    have hnone := @joinHalfop_entitled net flags (joinOp flags noop true false
      (joinProtect net flags noop true (joinOwner net flags noop true modes))) noop huses
      (Bool.not_eq_true _ ▸ hflag)
    obtain hbit | hbit := net.ircd.halfops_bit
    · rw [hbit] at ht hnone
      rw [joinStatus, test_joinVoice (by decide), hnone] at ht
      cases ht
    · rw [hbit, test_zero_right] at ht
      cases ht

end statuses

/-! ### Members that come and go -/

structure Quiet (net : Net) (st st' : ChanState) : Prop where
  members : ∀ cu ∈ st'.chan.members, Watched net cu.user → cu ∈ st.chan.members
  secure : test st'.flags mcSecure = test st.flags mcSecure

def OthersOk (net : Net) (u : Uid) (st : ChanState) : Prop :=
  ∀ cu ∈ st.chan.members, cu.user ≠ u → Watched net cu.user →
    Entitled net.ircd (net.access cu.user) cu.modes

section quiet
variable {net : Net} {now : Moment} {st st' st'' : ChanState} {u : Uid} {flags : Flags}

theorem Quiet.refl : Quiet net st st := ⟨fun _ h _ => h, rfl⟩

theorem Quiet.trans (h : Quiet net st st') (h' : Quiet net st' st'') : Quiet net st st'' :=
  ⟨fun cu hcu hw => h.members cu (h'.members cu hcu hw) hw, h'.secure.trans h.secure⟩

theorem Quiet.same (hmembers : st'.chan.members = st.chan.members) (hflags : st'.flags = st.flags) :
    Quiet net st st' :=
  ⟨fun _ h _ => hmembers ▸ h, by rw [hflags]⟩

theorem SecureOk.quiet (h : SecureOk net st) (hq : Quiet net st st') : SecureOk net st' :=
  fun cu hcu hw => h cu (hq.members cu hcu hw) hw

theorem OthersOk.quiet (h : OthersOk net u st) (hq : Quiet net st st') : OthersOk net u st' :=
  fun cu hcu hne hw => h cu (hq.members cu hcu hw) hne hw

theorem mem_of_find {cu : Chanuser} (h : st.find u = some cu) : cu ∈ st.chan.members ∧ cu.user = u := by
  have huser := List.find?_some h
  exact ⟨List.mem_of_find?_eq_some h, by simpa using huser⟩

theorem find_none (h : st.find u = none) {cu : Chanuser} (hcu : cu ∈ st.chan.members) : cu.user ≠ u := by
  have hnot := List.find?_eq_none.mp h cu hcu
  simpa using hnot

theorem join_quiet : Quiet net st (join net st) := by
  rw [join]
  split
  · exact .refl
  · refine ⟨fun cu hcu hw => ?_, rfl⟩
    obtain hold | hnew := List.mem_append.mp hcu
    · exact hold
    · obtain rfl := List.mem_singleton.mp hnew
      have hinternal := hw.1
      rw [net.chanserv_internal] at hinternal
      cases hinternal

theorem chanuserErase_quiet : Quiet net st (chanuserErase net u st) := by
  rw [chanuserErase]
  dsimp only
  split_ifs
  · exact ⟨fun _ h => absurd h List.not_mem_nil, rfl⟩
  · exact ⟨fun _ h _ => List.mem_of_mem_filter h, rfl⟩

theorem csUsed_quiet : Quiet net st (csUsed net now u st) := by
  rw [csUsed]
  split_ifs
  · exact .same rfl rfl
  · exact .refl

theorem csPart_quiet : Quiet net st (csPart net now u st) := by
  rw [csPart]
  split_ifs
  · exact .refl
  · dsimp only
    split_ifs
    · exact csUsed_quiet
    · split
      · exact csUsed_quiet
      · exact csUsed_quiet.trans (csUsed_quiet.trans chanuserErase_quiet)

theorem chanuserDelete_quiet : Quiet net st (chanuserDelete net now u st) := by
  rw [chanuserDelete]
  split
  · exact .refl
  · exact csPart_quiet.trans chanuserErase_quiet

theorem chanuserDelete_gone (hon : (st.find u).isSome) :
    ∀ cu ∈ (chanuserDelete net now u st).chan.members, cu.user ≠ u := by
  obtain ⟨cu₀, h₀⟩ := Option.isSome_iff_exists.mp hon
  intro cu hcu
  rw [chanuserDelete, h₀] at hcu
  dsimp only at hcu
  rw [chanuserErase] at hcu
  dsimp only at hcu
  split_ifs at hcu
  · cases hcu
  · have hne := (List.mem_filter.mp hcu).2
    simpa using hne

theorem tryKick_quiet : Quiet net st (tryKick net now u st) := by
  rw [tryKick]
  split
  · exact .refl
  · split_ifs
    · exact .refl
    · exact chanuserDelete_quiet

theorem tryKick_gone (hkick : ∀ cu ∈ st.chan.members, cu.user = u → immune net st.chan.modes cu = false) :
    ∀ cu ∈ (tryKick net now u st).chan.members, cu.user ≠ u := by
  rw [tryKick]
  cases hfind : st.find u with
  | none => exact fun cu hcu => find_none hfind hcu
  | some cu₀ =>
    obtain ⟨hmem, huser⟩ := mem_of_find hfind
    dsimp only
    rw [if_neg (by rw [hkick cu₀ hmem huser]; exact Bool.false_ne_true)]
    refine chanuserDelete_gone ?_
    rw [hfind]
    rfl

theorem checkModes_quiet : Quiet net st (checkModes net now st) := by
  refine ⟨fun _ h _ => h, ?_⟩
  exact test_andNot_disjoint (by decide) _

theorem chanbanAdd_quiet {mask : CString} {type : Char} : Quiet net st (chanbanAdd net mask type st) := by
  rw [chanbanAdd]
  split_ifs
  · exact .refl
  · exact .same rfl rfl

theorem stay_quiet : Quiet net st (stay net st) := by
  have hflag : Quiet net st { st with flags := st.flags ||| mcInhabit } :=
    ⟨fun _ h _ => h, test_or_disjoint (by decide) _⟩
  rw [stay]
  split_ifs
  · dsimp only
    split_ifs
    · exact hflag.trans join_quiet
    · exact hflag
  · exact .refl

theorem csPrepare_quiet {why : Reject} : Quiet net st (csPrepare net now u st why) := by
  have hremove : ∀ (s : ChanState) type, Quiet net s (removeBanlike net type u s) :=
    fun s type => .same rfl rfl
  cases why with
  | restricted =>
    rw [csPrepare]
    dsimp only
    split_ifs
    · exact stay_quiet.trans (hremove _ _)
    · exact stay_quiet.trans (checkModes_quiet.trans (hremove _ _))
    · exact stay_quiet.trans (chanbanAdd_quiet.trans (hremove _ _))
  | akick =>
    rw [csPrepare]
    refine stay_quiet.trans (Quiet.trans ?_ (hremove _ _))
    split
    · split_ifs
      · exact .refl
      · exact chanbanAdd_quiet
    · exact chanbanAdd_quiet
  | inviteOnly =>
    rw [csPrepare]
    split_ifs
    · exact stay_quiet
    · exact stay_quiet.trans checkModes_quiet

theorem leaveInhabited_quiet : Quiet net st (leaveInhabited net now st) := by
  have hflag : Quiet net st { st with flags := st.flags &&& ~~~mcInhabit } :=
    ⟨fun _ h _ => h, test_andNot_disjoint (by decide) _⟩
  rw [leaveInhabited]
  split_ifs
  · dsimp only
    split_ifs
    · exact hflag
    · exact hflag.trans chanuserDelete_quiet
  · exact .refl

theorem mem_setModes {f : Flags → Flags} {cu : Chanuser} (h : cu ∈ (st.setModes u f).chan.members) :
    ∃ cu₀ ∈ st.chan.members, cu.user = cu₀.user ∧
      cu.modes = if cu₀.user = u then f cu₀.modes else cu₀.modes := by
  obtain ⟨cu₀, hcu₀, rfl⟩ := List.mem_map.mp h
  refine ⟨cu₀, hcu₀, ?_⟩
  split_ifs <;> exact ⟨rfl, rfl⟩

theorem OthersOk.setModes {f : Flags → Flags} (h : OthersOk net u st)
    (hf : Watched net u → ∀ cu ∈ st.chan.members, cu.user = u →
      Entitled net.ircd (net.access u) (f cu.modes)) : SecureOk net (st.setModes u f) := by
  intro cu hcu hw
  obtain ⟨cu₀, hcu₀, huser, hmodes⟩ := mem_setModes hcu
  rw [hmodes, huser]
  rw [huser] at hw
  split_ifs with heq
  · rw [heq] at hw ⊢
    exact hf hw cu₀ hcu₀ heq
  · exact h cu₀ hcu₀ heq hw

theorem SecureOk.others (h : SecureOk net st) : OthersOk net u st := fun cu hcu _ hw => h cu hcu hw

theorem OthersOk.all (h : OthersOk net u st)
    (hu : Watched net u → ∀ cu ∈ st.chan.members, cu.user = u → Entitled net.ircd (net.access u) cu.modes) :
    SecureOk net st := by
  intro cu hcu hw
  by_cases heq : cu.user = u
  · rw [heq] at hw ⊢
    exact hu hw cu hcu heq
  · exact h cu hcu heq hw

end quiet

/-! ### Reports of members -/

/-- The modes of the channel when a user is to be kicked: the mode lock is enforced first where it
locks the channel and the channel is open. -/
def modesAtKick (net : Net) (modes : Flags) : Reject → Flags
  | .akick => modes
  | _ => if test net.mlockOn cmodeInvite && !test modes cmodeInvite then lockedModes net modes else modes

/-- A report of a member brings no status that the access does not allow; or the member is new, and
if it is to leave at once, it is not immune to that. -/
def MemberAllowed (net : Net) (now : Moment) (nick : CString) (st : ChanState) : Prop :=
  ∀ u ∈ now.userFind (readPrefixes net.ircd nick).2, Watched net u →
    Entitled net.ircd (net.access u) (readPrefixes net.ircd nick).1 ∨
      u ∉ st.chan.members.map Chanuser.user ∧
      ∀ why ∈ csReject net now u (st.enter ⟨u, (readPrefixes net.ircd nick).1⟩),
        immune net (modesAtKick net st.chan.modes why) ⟨u, (readPrefixes net.ircd nick).1⟩ = false

section members
variable {net : Net} {now : Moment} {st : ChanState} {u : Uid} {flags : Flags} {nick : CString}

theorem join_keeps : (join net st).chan.modes = st.chan.modes ∧
    (join net st).chan.bans = st.chan.bans ∧ (join net st).flags = st.flags ∧
    nonservices net (join net st) = nonservices net st := by
  rw [join]
  split
  · exact ⟨rfl, rfl, rfl, rfl⟩
  · refine ⟨rfl, rfl, rfl, ?_⟩
    show (st.chan.members ++ [_]).countP _ = _
    rw [List.countP_append, List.countP_singleton]
    dsimp only
    rw [net.chanserv_internal]
    rfl

theorem csReject_join : csReject net now u (join net st) = csReject net now u st := by
  obtain ⟨-, hbans, hflags, hcount⟩ := @join_keeps net st
  rw [csReject, csReject, hbans, hflags, hcount]

theorem stay_modes : (stay net st).chan.modes = st.chan.modes := by
  rw [stay]
  split_ifs
  · dsimp only
    split_ifs
    · exact join_keeps.1
    · rfl
  · rfl

theorem chanbanAdd_modes {mask : CString} {type : Char} :
    (chanbanAdd net mask type st).chan.modes = st.chan.modes := by
  rw [chanbanAdd]
  split_ifs <;> rfl

theorem csReject_invite (h : csReject net now u st = some .inviteOnly) :
    test net.mlockOn cmodeInvite = true := by
  rw [csReject] at h
  split at h
  · cases h
  · split at h
    · cases h
    · split at h
      · rename_i hinvite
        simp only [Bool.and_eq_true] at hinvite
        exact hinvite.1.1.1.1
      · cases h

theorem csPrepare_restricted_modes :
    (csPrepare net now u st .restricted).chan.modes = modesAtKick net st.chan.modes .restricted := by
  rw [csPrepare, modesAtKick]
  · dsimp only
    rw [stay_modes]
    cases hlock : test net.mlockOn cmodeInvite <;> cases hmode : test st.chan.modes cmodeInvite
    · exact chanbanAdd_modes.trans stay_modes
    · exact stay_modes
    · exact congrArg (lockedModes net) stay_modes
    · exact stay_modes
  · exact nofun

theorem csPrepare_modes {why : Reject} (h : csReject net now u st = some why) :
    (csPrepare net now u st why).chan.modes = modesAtKick net st.chan.modes why := by
  cases why with
  | restricted => exact csPrepare_restricted_modes
  | akick =>
    rw [csPrepare, modesAtKick]
    have hban : ∀ s : ChanState, (removeBanlike net net.ircd.exceptMchar u s).chan.modes = s.chan.modes :=
      fun s => rfl
    rw [hban]
    split
    · split_ifs
      · exact stay_modes
      · exact chanbanAdd_modes.trans stay_modes
    · exact chanbanAdd_modes.trans stay_modes
  | inviteOnly =>
    rw [csPrepare, modesAtKick, csReject_invite h]
    · rw [stay_modes]
      cases hmode : test st.chan.modes cmodeInvite
      · exact congrArg (lockedModes net) stay_modes
      · exact stay_modes
    · exact nofun

theorem guardJoin_quiet : Quiet net st (guardJoin net st) := by
  rw [guardJoin]
  split_ifs
  · exact join_quiet
  · exact .refl

theorem guardJoin_keeps : (guardJoin net st).chan.modes = st.chan.modes ∧
    csReject net now u (guardJoin net st) = csReject net now u st := by
  rw [guardJoin]
  split_ifs
  · exact ⟨join_keeps.1, csReject_join⟩
  · exact ⟨rfl, rfl⟩

theorem csWelcome_ok {noop : Bool} (h : OthersOk net u st) :
    SecureOk net (csWelcome net now noop true u st) := by
  have hothers := h.quiet (@leaveInhabited_quiet net now st)
  have hok : SecureOk net ((leaveInhabited net now st).setModes u (joinStatus net (net.access u)
      noop true (test (net.user u).flags ufService))) := by
    refine hothers.setModes fun hw cu hcu heq => ?_
    rw [hw.2]
    exact joinStatus_entitled
  rw [csWelcome]
  split_ifs
  · exact hok
  · exact hok

theorem csJoin_ok (h : OthersOk net u st) (hsecure : test st.flags mcSecure = true)
    (hu : Watched net u →
      (∀ cu ∈ st.chan.members, cu.user = u → Entitled net.ircd (net.access u) cu.modes) ∨
      ∀ why ∈ csReject net now u st, ∀ cu ∈ st.chan.members, cu.user = u →
        immune net (modesAtKick net st.chan.modes why) cu = false) :
    SecureOk net (csJoin net now u st) := by
  rw [csJoin]
  by_cases hinternal : (net.user u).internal = true
  · rw [if_pos hinternal]
    refine h.all fun hw => ?_
    rw [hw.1] at hinternal
    cases hinternal
  · rw [if_neg hinternal, hsecure, Bool.true_or]
    obtain ⟨hmodes, hreject⟩ := @guardJoin_keeps net now st u
    have hq := @guardJoin_quiet net st
    dsimp only
    split
    · rename_i why hwhy
      have hprep := hq.trans (@csPrepare_quiet net now _ u why)
      have hkicked := hprep.trans (@tryKick_quiet net now _ u)
      refine (h.quiet hkicked).all fun hw cu hcu heq => ?_
      obtain hentitled | hkick := hu hw
      · exact hentitled cu (hkicked.members cu hcu (heq ▸ hw)) heq
      · refine absurd heq (tryKick_gone (fun cu' hcu' heq' => ?_) cu hcu)
        rw [csPrepare_modes hwhy, hmodes]
        rw [hreject] at hwhy
        exact hkick why hwhy cu' (hprep.members cu' hcu' (heq' ▸ hw)) heq'
    · exact csWelcome_ok (h.quiet hq)

theorem csJoin_secure : test (csJoin net now u st).flags mcSecure = test st.flags mcSecure := by
  rw [csJoin]
  have hq := @guardJoin_quiet net st
  split_ifs
  · rfl
  · dsimp only
    split
    · exact (hq.trans (csPrepare_quiet.trans tryKick_quiet)).secure
    · rw [csWelcome]
      split_ifs
      all_goals exact (hq.trans leaveInhabited_quiet).secure

theorem chanuserAdd_ok (h : SecureOk net st) (hsecure : test st.flags mcSecure = true)
    (hallowed : MemberAllowed net now nick st) : SecureOk net (chanuserAdd net now nick st) := by
  rw [chanuserAdd]
  rw [MemberAllowed] at hallowed
  generalize readPrefixes net.ircd nick = r at hallowed ⊢
  obtain ⟨flags, name⟩ := r
  dsimp only at hallowed ⊢
  split
  · exact h
  · rename_i u hname
    have hu := hallowed u hname
    split
    · rename_i cu₀ hfind
      obtain ⟨hmem, huser⟩ := mem_of_find hfind
      refine h.others.setModes fun hw cu hcu heq => ?_
      obtain hentitled | ⟨hnew, -⟩ := hu hw
      · have hold := h cu hcu (heq ▸ hw)
        rw [heq] at hold
        exact hold.or hentitled
      · exact absurd (huser ▸ List.mem_map_of_mem hmem) hnew
    · rename_i hfind
      have honly : ∀ cu ∈ (st.enter ⟨u, flags⟩).chan.members, cu.user = u → cu = ⟨u, flags⟩ := by
        intro cu hcu heq
        obtain hold | hnew := List.mem_append.mp hcu
        · exact absurd heq (find_none hfind hold)
        · exact List.mem_singleton.mp hnew
      have hsecure' : test (st.enter ⟨u, flags⟩).flags mcSecure = true := hsecure
      refine csJoin_ok (fun cu hcu hne hw => ?_) hsecure' fun hw => ?_
      · obtain hold | hnew := List.mem_append.mp hcu
        · exact h cu hold hw
        · exact absurd (congrArg Chanuser.user (List.mem_singleton.mp hnew)) hne
      · obtain hentitled | ⟨-, hkick⟩ := hu hw
        · refine .inl fun cu hcu heq => ?_
          rw [honly cu hcu heq]
          exact hentitled
        · refine .inr fun why hwhy cu hcu heq => ?_
          rw [honly cu hcu heq]
          exact hkick why hwhy

theorem chanuserAdd_secure : test (chanuserAdd net now nick st).flags mcSecure = test st.flags mcSecure := by
  rw [chanuserAdd]
  dsimp only
  split
  · rfl
  · split
    · rfl
    · exact csJoin_secure

end members

/-! ### Changes of modes -/

def ChangeAllowed (net : Net) (now : Moment) (st : ChanState) : ModeChange → Prop
  | .status true mode value nick => ∀ u ∈ now.userFind nick, Watched net u →
      u ∈ st.chan.members.map Chanuser.user →
      Entitled net.ircd (net.access u) value ∨ bounces net u mode = true
  | _ => True

def ModeAllowed (net : Net) (now : Moment) (pos : CString) (params : List CString) (st : ChanState) :
    Prop :=
  pos.head? = some '0' ∨ ∀ change ∈ parseModes net.ircd false pos params, ChangeAllowed net now st change

section modes
variable {net : Net} {now : Moment} {st st' : ChanState} {u : Uid} {mode : Char} {value : Flags}
  {change : ModeChange} {pos : CString} {params : List CString}

structure ModeKept (net : Net) (st st' : ChanState) : Prop where
  ok : SecureOk net st'
  secure : test st'.flags mcSecure = test st.flags mcSecure
  users : st'.chan.members.map Chanuser.user = st.chan.members.map Chanuser.user

theorem ModeKept.same (h : SecureOk net st) (hmembers : st'.chan.members = st.chan.members)
    (hflags : st'.flags = st.flags) : ModeKept net st st' :=
  ⟨h.quiet (.same hmembers hflags), by rw [hflags], by rw [hmembers]⟩

theorem setModes_users {f : Flags → Flags} :
    (st.setModes u f).chan.members.map Chanuser.user = st.chan.members.map Chanuser.user := by
  show (st.chan.members.map _).map Chanuser.user = _
  rw [List.map_map]
  refine List.map_congr_left fun cu _ => ?_
  rw [Function.comp_apply]
  split_ifs <;> rfl

theorem ModeKept.setModes {f : Flags → Flags} (h : SecureOk net st)
    (hf : Watched net u → ∀ m, Entitled net.ircd (net.access u) m → Entitled net.ircd (net.access u) (f m)) :
    ModeKept net st (st.setModes u f) := by
  refine ⟨h.others.setModes fun hw cu hcu heq => ?_, rfl, setModes_users⟩
  have hold := h cu hcu (heq ▸ hw)
  rw [heq] at hold
  exact hf hw cu.modes hold

theorem statusAdd_ok (h : SecureOk net st) (hsecure : test st.flags mcSecure = true)
    (hu : Watched net u → Entitled net.ircd (net.access u) value ∨ bounces net u mode = true) :
    ModeKept net st (statusChange net true mode value u st) := by
  rw [statusChange, if_pos rfl, hsecure]
  refine ModeKept.setModes h fun hw m hm => ?_
  rw [hw.1, if_neg Bool.false_ne_true, csBounceModeChange, Bool.true_and]
  split_ifs with hbounce
  · exact hm.bounce
  · obtain hvalue | hbounced := hu hw
    · exact hm.or hvalue
    · exact absurd hbounced hbounce

theorem statusDel_ok (h : SecureOk net st) :
    ModeKept net st (statusChange net false mode value u st) := by
  rw [statusChange, if_neg Bool.false_ne_true]
  split_ifs
  · exact .same h rfl rfl
  · exact ModeKept.setModes h fun _ m hm => hm.remove

theorem applyChange_ok (h : SecureOk net st) (hsecure : test st.flags mcSecure = true)
    (hallowed : ChangeAllowed net now st change) :
    ModeKept net st (applyChange net now st change).1 := by
  cases change with
  | simple add value => cases add <;> exact .same h rfl rfl
  | ext i value => exact .same h rfl rfl
  | limit value => cases value <;> exact .same h rfl rfl
  | key value => cases value <;> exact .same h rfl rfl
  | banlike add type mask =>
    cases add with
    | false => exact .same h rfl rfl
    | true =>
      show ModeKept net st (chanbanAdd net mask type st)
      rw [chanbanAdd]
      split_ifs
      · exact .same h rfl rfl
      · exact .same h rfl rfl
  | status add mode value nick =>
    rw [applyChange]
    split
    · exact .same h rfl rfl
    · rename_i u hname
      split
      · exact .same h rfl rfl
      · rename_i cu hfind
        cases add with
        | false => exact @statusDel_ok net st u mode value h
        | true =>
          refine statusAdd_ok h hsecure fun hw => hallowed u hname hw ?_
          obtain ⟨hmem, huser⟩ := mem_of_find hfind
          exact huser ▸ List.mem_map_of_mem hmem

theorem applyChanges_ok (changes : List ModeChange) (acc : ChanState × Bool) (h : SecureOk net acc.1)
    (hsecure : test acc.1.flags mcSecure = true)
    (hallowed : ∀ change ∈ changes, ChangeAllowed net now acc.1 change) :
    SecureOk net (applyChanges net now acc changes).1 ∧
      test (applyChanges net now acc changes).1.flags mcSecure = true := by
  induction changes generalizing acc with
  | nil => exact ⟨h, hsecure⟩
  | cons change changes ih =>
    have hkept := applyChange_ok h hsecure (hallowed change (List.mem_cons_self ..))
    rw [applyChanges]
    refine ih _ hkept.ok (hkept.secure.trans hsecure) fun change' hmem => ?_
    have hthis := hallowed change' (List.mem_cons_of_mem _ hmem)
    cases change' with
    | status add mode value nick =>
      cases add with
      | false => trivial
      | true =>
        rw [ChangeAllowed] at hthis ⊢
        rwa [hkept.users]
    | _ => trivial

theorem channelMode_ok (h : SecureOk net st) (hsecure : test st.flags mcSecure = true)
    (hallowed : ModeAllowed net now pos params st) :
    SecureOk net (channelMode net now pos params st) ∧
      test (channelMode net now pos params st).flags mcSecure = true := by
  rw [channelMode]
  split_ifs with hnone
  · exact ⟨h, hsecure⟩
  · have hchanges := hallowed.resolve_left fun hzero => hnone (.inr hzero)
    obtain ⟨hok, hsec⟩ := @applyChanges_ok net now (parseModes net.ircd false pos params) (st, false) h
      hsecure hchanges
    dsimp only
    split_ifs
    · exact ⟨hok.quiet checkModes_quiet, checkModes_quiet.secure.trans hsec⟩
    · exact ⟨hok, hsec⟩

end modes

/-! ### Runs -/

inductive ChanEvent where
  | member (now : Moment) (nick : CString)
  | mode (now : Moment) (pos : CString) (params : List CString)

def ChanEvent.Allowed (net : Net) (st : ChanState) : ChanEvent → Prop
  | .member now nick => MemberAllowed net now nick st
  | .mode now pos params => ModeAllowed net now pos params st

def ChanEvent.exec (net : Net) (st : ChanState) : ChanEvent → ChanState
  | .member now nick => chanuserAdd net now nick st
  | .mode now pos params => channelMode net now pos params st

def chanStep (net : Net) (st : ChanState) (e : ChanEvent) : ChanState × List ChanState :=
  (e.exec net st, [e.exec net st])

/-- From an empty channel on, as long as no report gives a member a status that its access does not
allow and that services do not look at. -/
theorem secure_run (net : Net) (st : ChanState) (hempty : st.chan.members = [])
    (hsecure : test st.flags mcSecure = true) (es : List ChanEvent)
    (h : Guarded (chanStep net) (fun st e => e.Allowed net st) st es) :
    ∀ st' ∈ (run (chanStep net) st es).2, SecureOk net st' := by
  have hstep : ∀ (st : ChanState) (e : ChanEvent),
      SecureOk net st ∧ test st.flags mcSecure = true → e.Allowed net st →
      (SecureOk net (chanStep net st e).1 ∧ test (chanStep net st e).1.flags mcSecure = true) ∧
        ∀ st' ∈ (chanStep net st e).2, SecureOk net st' := by
    intro st e hst he
    have hnext : SecureOk net (e.exec net st) ∧ test (e.exec net st).flags mcSecure = true := by
      cases e with
      | member now nick =>
        exact ⟨chanuserAdd_ok hst.1 hst.2 he, chanuserAdd_secure.trans hst.2⟩
      | mode now pos params => exact channelMode_ok hst.1 hst.2 he
    refine ⟨hnext, fun st' hst' => ?_⟩
    rw [List.mem_singleton.mp hst']
    exact hnext.1
  have hstart : SecureOk net st := by
    intro cu hcu
    rw [hempty] at hcu
    cases hcu
  exact run_guarded_emits hstep ⟨hstart, hsecure⟩ h

instance (net : Net) (now : Moment) (nick : CString) (st : ChanState) :
    Decidable (MemberAllowed net now nick st) :=
  inferInstanceAs (Decidable (∀ u ∈ now.userFind (readPrefixes net.ircd nick).2, Watched net u → _ ∨ _ ∧ _))

instance (net : Net) (now : Moment) (st : ChanState) :
    ∀ change : ModeChange, Decidable (ChangeAllowed net now st change)
  | .status true _ _ nick =>
    inferInstanceAs (Decidable (∀ u ∈ now.userFind nick, Watched net u → _ → _ ∨ _))
  | .status false _ _ _ => isTrue trivial
  | .simple .. => isTrue trivial
  | .ext .. => isTrue trivial
  | .limit _ => isTrue trivial
  | .key _ => isTrue trivial
  | .banlike .. => isTrue trivial

instance (net : Net) (now : Moment) (pos : CString) (params : List CString) (st : ChanState) :
    Decidable (ModeAllowed net now pos params st) :=
  inferInstanceAs (Decidable (_ ∨ ∀ change ∈ parseModes net.ircd false pos params, _))

instance (net : Net) (st : ChanState) : ∀ e : ChanEvent, Decidable (e.Allowed net st)
  | .member now nick => inferInstanceAs (Decidable (MemberAllowed net now nick st))
  | .mode now pos params => inferInstanceAs (Decidable (ModeAllowed net now pos params st))

/-- The tables of the protocol module for Nefarious. Its `halfops_mchar` is `+`, without a letter. -/
def nefarious : Ircd where
  usesOwner := false
  usesProtect := false
  usesHalfops := true
  ownerMode := 0#32
  protectMode := 0#32
  halfopsMode := cstatusHalfop
  ownerMchar := "+".toList
  protectMchar := "+".toList
  halfopsMchar := "+".toList
  permMode := 0x200000#32
  oimmuneMode := 0#32
  banLikeModes := ['b', 'e']
  exceptMchar := some 'e'
  invexMchar := some 'e'
  modeList := [('a', 0x40000#32), ('i', cmodeInvite), ('m', 0x8#32), ('n', 0x10#32), ('p', 0x40#32),
    ('r', 0x100000#32), ('s', 0x80#32), ('t', 0x100#32), ('z', 0x200000#32), ('c', 0x1000#32),
    ('C', 0x2000#32), ('D', 0x4000#32), ('Q', 0x10000#32), ('N', 0x20000#32), ('M', 0x80000#32),
    ('C', 0x2000#32), ('S', 0x400000#32), ('T', 0x800000#32), ('O', 0x1000000#32),
    ('L', 0x2000000#32), ('Z', 0x4000000#32)]
  ignoreModeList := []
  statusModeList := [('o', cstatusOp), ('h', cstatusHalfop), ('v', cstatusVoice)]
  prefixModeList := [('@', cstatusOp), ('%', cstatusHalfop), ('+', cstatusVoice)]
  owner_bit := mode_none cstatusOwner
  protect_bit := mode_none cstatusProtect
  halfops_bit := mode_own cstatusHalfop
  status_nodup := by decide

/- Three users: ChanServ, one that is immune to kicks, and everybody else, who is not. The channel
has an entry with `+o` for the account that is logged in from the address of the sample user. -/
def secureUser (u : Uid) : NetUser :=
  if u = "ACAAA".toList then ⟨{ sampleUser with uid := u }, true, 0#64⟩
  else if u = "ABAAI".toList then ⟨{ sampleUser with uid := u }, false, ufImmune⟩
  else ⟨{ sampleUser with uid := u }, false, 0#64⟩

theorem nodup_operator : ([(((0 : MyChanRef), Target.entity (.user 0)), sampleEntry caOp)].map
    Prod.fst).Nodup := by decide

def secureNet : Net where
  ircd := nefarious
  cfg := sampleConfig
  world := sampleWorld
  db := ⟨sampleAccounts 0#32 [], .empty, ⟨[(0, sampleChan "#chan" head_chan [])], nodup_chan⟩,
    ⟨[((0, .entity (.user 0)), sampleEntry caOp)], nodup_operator⟩⟩
  mc := 0
  mychan := sampleChan "#chan" head_chan []
  registered := by decide
  mlockOn := 0#32
  mlockOff := 0#32
  mlockLimit := 0
  mlockKey := none
  user := secureUser
  chanserv := "ACAAA".toList
  chanserv_internal := by decide
  immuneLevel := ufImmune
  changets := false
  leaveChans := true
  chanLog := false
  banMatches _ _ := false

def secureNow : Moment := ⟨1000, false, some, fun _ => true, fun _ _ => true⟩

def secureStart (flags : Flags) : ChanState :=
  ⟨⟨500, 0#32, 0, none, fun _ => none, [], []⟩, flags, 0⟩

/-- A user with `+o` and one without join, both with a status, and are given more; then the mode
string sets a limit as well. -/
def secureRun : List ChanEvent :=
  [.member secureNow ("@".toList ++ sampleUser.uid), .member secureNow "@%ABAAB".toList,
    .mode secureNow "+ov-o+l".toList ["ABAAB".toList, "ABAAB".toList, sampleUser.uid, "10".toList],
    .member secureNow "+ABAAB".toList, .mode secureNow "+h".toList ["ACAAA".toList]]

theorem secure_run_witness :
    (run (chanStep secureNet) (secureStart mcSecure) secureRun).2 ≠ [] ∧
      ∀ st' ∈ (run (chanStep secureNet) (secureStart mcSecure) secureRun).2,
        SecureOk secureNet st' := by
  refine ⟨nofun, ?_⟩
  refine secure_run secureNet (secureStart mcSecure) rfl (by decide) secureRun ?_
  decide

/-- A status that is reported for a user already on the channel stays, as does that of a user who
is to be kicked but is immune, and a halfop that Nefarious reports. -/
theorem secure_status_kept :
    (¬ ∀ st' ∈ (run (chanStep secureNet) (secureStart mcSecure)
      [.member secureNow "ABAAB".toList, .member secureNow "@ABAAB".toList]).2, SecureOk secureNet st') ∧
    (¬ ∀ st' ∈ (run (chanStep secureNet) (secureStart (mcSecure ||| mcRestricted))
      [.member secureNow "@ABAAI".toList]).2, SecureOk secureNet st') ∧
    ¬ ∀ st' ∈ (run (chanStep secureNet) (secureStart mcSecure)
      [.member secureNow "ABAAB".toList, .mode secureNow "+h".toList ["ABAAB".toList]]).2,
        SecureOk secureNet st' := by
  decide

end ChatServices.ChanServ.Channels
