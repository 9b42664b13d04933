import ChatServices.ChanServ.Exttargets
import ChatServices.ChanServ.SecureChannels
import ChatServices.Lib.Settle

/-! The sync of a channel: every member is given the statuses that its flags give it of themselves,
loses those that they do not allow, or is kicked. -/
namespace ChatServices.ChanServ.Channels
open ChatServices.Lib ChatServices.Lib.Mask ChatServices.Text

/-! ### One member -/

def giveOrTake (status : Flags) (may auto noop takes : Bool) (modes : Flags) : Flags :=
  if may then
    if !noop && auto && !test modes status then modes ||| status else modes
  else if takes && test modes status then modes &&& ~~~status
  else modes

section model
variable (net : Net) (now : Moment)

def syncOwner (fl : Flags) (noop takes : Bool) (modes : Flags) : Flags :=
  if net.ircd.usesOwner then
    giveOrTake net.ircd.ownerMode (test fl caUseowner) (test fl caAutoop) noop takes modes
  else modes

def syncProtect (fl : Flags) (noop takes : Bool) (modes : Flags) : Flags :=
  if net.ircd.usesProtect then
    -- an owner is not given protection as well
    giveOrTake net.ircd.protectMode (test fl caUseprotect)
      (test fl caAutoop && !(net.ircd.usesOwner && test modes net.ircd.ownerMode)) noop takes modes
  else modes

def syncOp (fl : Flags) (noop takes : Bool) (modes : Flags) : Flags :=
  giveOrTake cstatusOp (test fl (caAutoop ||| caOp)) (test fl caAutoop) noop takes modes

def syncHalfop (fl : Flags) (noop takes : Bool) (modes : Flags) : Flags :=
  if net.ircd.usesHalfops then
    giveOrTake net.ircd.halfopsMode (test fl (caAutohalfop ||| caHalfop)) (test fl caAutohalfop) noop
      takes modes
  else modes

def syncVoice (fl : Flags) (noop take : Bool) (modes : Flags) : Flags :=
  giveOrTake cstatusVoice (test fl (caAutovoice ||| caVoice)) (test fl caAutovoice) noop take modes

def syncOps (fl : Flags) (noop takes take : Bool) (modes : Flags) : Flags :=
  let modes := syncOp fl noop takes modes
  if test fl (caAutoop ||| caOp) && test modes cstatusOp then modes
  else
    let modes := syncHalfop net fl noop takes modes
    if net.ircd.usesHalfops && test fl (caAutohalfop ||| caHalfop) && test modes net.ircd.halfopsMode then
      modes
    else syncVoice fl noop take modes

def syncStatus (fl : Flags) (noop takes take : Bool) (modes : Flags) : Flags :=
  syncOps net fl noop takes take (syncProtect net fl noop takes (syncOwner net fl noop takes modes))

def syncReject (take : Bool) (u : Uid) (st : ChanState) : Option Reject :=
  let fl := net.access u
  if take && !test fl caAllprivs && test st.flags mcRestricted &&
      !net.world.hasPriv (.irc (net.user u).toUser) "chan:joinstaffonly".toList then some .restricted
  else if test fl caAkick && !test fl caExempt then some .akick
  else none

/-- What comes before the kick. It is what `cs_join` does, but that only users with an account are
banned by their host when no hostmask entry applies. -/
def syncPrepare (u : Uid) (st : ChanState) : Reject → ChanState
  | .akick =>
    let st := stay net st
    let st := match akickHost net u with
      | some mask => if chanbanFind net st mask 'b' then st else chanbanAdd net mask 'b' st
      | none => if ((net.user u).toUser.myuser net.db.accounts).isSome then ban net u st else st
    removeBanlike net net.ircd.exceptMchar u st
  | why => csPrepare net now u st why

def passesOver (u : Uid) : Target → Bool
  | .host _ => false
  | .entity e =>
    ((net.user u).toUser.myuser net.db.accounts).any fun mu =>
      !matchEntity net.db e (.user mu) && !matchUser net.world e (net.user u).toUser

/-- `u` stands for the `chanuser_t`, which is on the channel. -/
def doChanuserSync (ca : Option Target) (take : Bool) (st : ChanState) (u : Uid) : ChanState :=
  if (st.find u).isNone then st
  else if (net.user u).internal || test (net.user u).flags ufService then st
  else if ca.any (passesOver net u) then st
  else
    let noop := test st.flags mcNoop || noopAccount net u
    match syncReject net take u st with
    | some why => tryKick net now u (syncPrepare net now u st why)
    | none => st.setModes u (syncStatus net (net.access u) noop (take || test st.flags mcSecure) take)

/-- The loop reads the next member before it goes on with one, and a kick takes only that one off;
ChanServ, which may join meanwhile, is passed over. -/
def doChannelSync (ca : Option Target) (st : ChanState) : ChanState :=
  (st.chan.members.map Chanuser.user).foldl (doChanuserSync net now ca true) st

end model

/-! ### Statuses -/

def Given (status modes : Flags) : Prop := status = 0#32 ∨ test modes status = true

section giveOrTake
variable {status m modes modes' : Flags} {may auto noop takes : Bool}

theorem Given.congr (h : Given status modes) (htest : test modes' status = test modes status) :
    Given status modes' := by
  cases h with
  | inl hzero => exact .inl hzero
  | inr hon => exact .inr (htest.trans hon)

theorem giveOrTake_given (hmay : may = true) (hauto : auto = true) (hnoop : noop = false) :
    Given status (giveOrTake status may auto noop takes modes) := by
  rw [giveOrTake, if_pos hmay, hauto, hnoop]
  cases ht : test modes status with
  | true => exact .inr ht
  | false =>
    by_cases hzero : status = 0#32
    · exact .inl hzero
    · have hself : test status status = true := by
        rw [test, bne_iff_ne, BitVec.and_self]
        exact hzero
      refine .inr ?_
      rw [if_pos (by rfl), test_or, hself, Bool.or_true]

theorem giveOrTake_taken (hmay : may = false) (htakes : takes = true) :
    test (giveOrTake status may auto noop takes modes) status = false := by
  rw [giveOrTake, hmay, htakes, if_neg Bool.false_ne_true]
  cases ht : test modes status with
  | true => exact test_andNot_self _ _
  | false => exact ht

theorem test_giveOrTake (h : test status m = false) :
    test (giveOrTake status may auto noop takes modes) m = test modes m := by
  rw [giveOrTake]
  split_ifs
  · exact test_or_disjoint h _
  · rfl
  · exact test_andNot_disjoint h _
  · rfl

theorem giveOrTake_fixed (hgive : may = true → auto = true → noop = false → Given status modes)
    (htake : may = false → takes = true → test modes status = false) :
    giveOrTake status may auto noop takes modes = modes := by
  rw [giveOrTake]
  cases hmay : may with
  | true =>
    rw [if_pos rfl]
    split_ifs with hcond
    · simp only [Bool.and_eq_true, Bool.not_eq_true'] at hcond
      have hzero : status = 0#32 := by
        cases hgive hmay hcond.1.2 hcond.1.1 with
        | inl hzero => exact hzero
        | inr hon => exact absurd hon (by rw [hcond.2]; exact Bool.false_ne_true)
      rw [hzero, BitVec.or_zero]
    · rfl
  | false =>
    rw [if_neg Bool.false_ne_true]
    split_ifs with hcond
    · rw [Bool.and_eq_true] at hcond
      have hoff := htake hmay hcond.1
      rw [hcond.2] at hoff
      cases hoff
    · rfl

end giveOrTake

/-- The access allows the statuses that a sync looks at: a halfop status is looked at where there is
no operator status, and a voice where there is neither. -/
def Allowed (ircd : Ircd) (flags modes : Flags) : Prop :=
  (ircd.usesOwner = true → test modes ircd.ownerMode = true → test flags caUseowner = true) ∧
  (ircd.usesProtect = true → test modes ircd.protectMode = true → test flags caUseprotect = true) ∧
  (test modes cstatusOp = true → test flags (caAutoop ||| caOp) = true) ∧
  (test modes cstatusOp = false →
    (ircd.usesHalfops = true → test modes ircd.halfopsMode = true →
      test flags (caAutohalfop ||| caHalfop) = true) ∧
    ((ircd.usesHalfops && test modes ircd.halfopsMode) = false → test modes cstatusVoice = true →
      test flags (caAutovoice ||| caVoice) = true))

instance (ircd : Ircd) (flags modes : Flags) : Decidable (Allowed ircd flags modes) :=
  inferInstanceAs (Decidable (_ ∧ _))

section statuses
variable {net : Net} {ircd : Ircd} {fl m modes : Flags} {noop takes take : Bool}

theorem lower_apart (ircd : Ircd) : test ircd.protectMode ircd.ownerMode = false ∧
    test cstatusOp ircd.ownerMode = false ∧ test ircd.halfopsMode ircd.ownerMode = false ∧
    test cstatusVoice ircd.ownerMode = false ∧ test cstatusOp ircd.protectMode = false ∧
    test ircd.halfopsMode ircd.protectMode = false ∧ test cstatusVoice ircd.protectMode = false ∧
    test ircd.halfopsMode cstatusOp = false ∧ test cstatusVoice ircd.halfopsMode = false := by
  obtain ho | ho := ircd.owner_bit <;> obtain hp | hp := ircd.protect_bit <;>
    obtain hh | hh := ircd.halfops_bit <;> rw [ho, hp, hh] <;> decide

theorem immune_apart (ircd : Ircd) : test ircd.ownerMode cstatusImmune = false ∧
    test ircd.protectMode cstatusImmune = false ∧ test ircd.halfopsMode cstatusImmune = false := by
  obtain ho | ho := ircd.owner_bit <;> obtain hp | hp := ircd.protect_bit <;>
    obtain hh | hh := ircd.halfops_bit <;> rw [ho, hp, hh] <;> decide

theorem test_syncOwner (h : test net.ircd.ownerMode m = false) :
    test (syncOwner net fl noop takes modes) m = test modes m := by
  rw [syncOwner]
  split_ifs
  · exact test_giveOrTake h
  · rfl

theorem test_syncProtect (h : test net.ircd.protectMode m = false) :
    test (syncProtect net fl noop takes modes) m = test modes m := by
  rw [syncProtect]
  split_ifs
  · exact test_giveOrTake h
  · rfl

theorem test_syncHalfop (h : test net.ircd.halfopsMode m = false) :
    test (syncHalfop net fl noop takes modes) m = test modes m := by
  rw [syncHalfop]
  split_ifs
  · exact test_giveOrTake h
  · rfl

theorem test_syncOps (hop : test cstatusOp m = false) (hhalfop : test net.ircd.halfopsMode m = false)
    (hvoice : test cstatusVoice m = false) :
    test (syncOps net fl noop takes take modes) m = test modes m := by
  have hfirst : test (syncOp fl noop takes modes) m = test modes m := test_giveOrTake hop
  rw [syncOps]
  dsimp only
  split_ifs
  · exact hfirst
  · exact (test_syncHalfop hhalfop).trans hfirst
  · have hlast : ∀ s, test (syncVoice fl noop take s) m = test s m := fun s => test_giveOrTake hvoice
    exact (hlast _).trans ((test_syncHalfop hhalfop).trans hfirst)

structure OpsSettled (ircd : Ircd) (fl : Flags) (noop : Bool) (modes : Flags) : Prop where
  op : test fl (caAutoop ||| caOp) = false → test modes cstatusOp = false
  giveOp : test fl (caAutoop ||| caOp) = true → test fl caAutoop = true → noop = false →
    Given cstatusOp modes
  halfop : test modes cstatusOp = false → ircd.usesHalfops = true →
    test fl (caAutohalfop ||| caHalfop) = false → test modes ircd.halfopsMode = false
  giveHalfop : test modes cstatusOp = false → ircd.usesHalfops = true →
    test fl (caAutohalfop ||| caHalfop) = true → test fl caAutohalfop = true → noop = false →
    Given ircd.halfopsMode modes
  voice : test modes cstatusOp = false → (ircd.usesHalfops && test modes ircd.halfopsMode) = false →
    test fl (caAutovoice ||| caVoice) = false → test modes cstatusVoice = false
  giveVoice : test modes cstatusOp = false →
    (ircd.usesHalfops && test modes ircd.halfopsMode) = false →
    test fl (caAutovoice ||| caVoice) = true → test fl caAutovoice = true → noop = false →
    Given cstatusVoice modes

theorem syncOps_settled : OpsSettled net.ircd fl noop (syncOps net fl noop true true modes) := by
  obtain ⟨-, -, -, -, -, -, -, hho, hvh⟩ := lower_apart net.ircd
  have hvo : test cstatusVoice cstatusOp = false := by decide
  have hop : test fl (caAutoop ||| caOp) = false → test (syncOp fl noop true modes) cstatusOp = false :=
    fun hmay => giveOrTake_taken hmay rfl
  have hgive : test fl (caAutoop ||| caOp) = true → test fl caAutoop = true → noop = false →
      Given cstatusOp (syncOp fl noop true modes) := giveOrTake_given
  have hhalfop : ∀ s, net.ircd.usesHalfops = true → test fl (caAutohalfop ||| caHalfop) = false →
      test (syncHalfop net fl noop true s) net.ircd.halfopsMode = false := by
    intro s huses hmay
    rw [syncHalfop, if_pos huses]
    exact giveOrTake_taken hmay rfl
  have hgiveHalfop : ∀ s, net.ircd.usesHalfops = true → test fl (caAutohalfop ||| caHalfop) = true →
      test fl caAutohalfop = true → noop = false →
      Given net.ircd.halfopsMode (syncHalfop net fl noop true s) := by
    intro s huses
    rw [syncHalfop, if_pos huses]
    exact giveOrTake_given
  have hkept : ∀ s, test (syncHalfop net fl noop true s) cstatusOp = test s cstatusOp :=
    fun s => test_syncHalfop hho
  rw [syncOps]
  dsimp only
  generalize syncOp fl noop true modes = modes₁ at hop hgive ⊢
  split_ifs with hstop hhalf
  · obtain ⟨-, hon⟩ := (Bool.and_eq_true_iff ..).mp hstop
    have hnot : ∀ {p : Prop}, test modes₁ cstatusOp = false → p := by
      intro p hoff
      rw [hon] at hoff
      cases hoff
    exact ⟨hop, hgive, hnot, hnot, hnot, hnot⟩
  · have hnot : ∀ {p : Prop}, (net.ircd.usesHalfops &&
        test (syncHalfop net fl noop true modes₁) net.ircd.halfopsMode) = false → p := by
      intro p hoff
      simp only [Bool.and_eq_true] at hhalf
      rw [hhalf.1.1, hhalf.2] at hoff
      cases hoff
    exact ⟨fun hmay => (hkept _).trans (hop hmay),
      fun hmay hauto hno => (hgive hmay hauto hno).congr (hkept _),
      fun _ => hhalfop _, fun _ => hgiveHalfop _, fun _ => hnot, fun _ => hnot⟩
  · -- the voice status is the last one, and changes no other
    have hlast : ∀ s, test (syncVoice fl noop true s) cstatusOp = test s cstatusOp :=
      fun s => test_giveOrTake (by decide)
    have hlast' : ∀ s, test (syncVoice fl noop true s) net.ircd.halfopsMode = test s net.ircd.halfopsMode :=
      fun s => test_giveOrTake hvh
    exact ⟨fun hmay => (hlast _).trans ((hkept _).trans (hop hmay)),
      fun hmay hauto hno => (hgive hmay hauto hno).congr ((hlast _).trans (hkept _)),
      fun _ huses hmay => (hlast' _).trans (hhalfop _ huses hmay),
      fun _ huses hmay hauto hno => (hgiveHalfop _ huses hmay hauto hno).congr (hlast' _),
      fun _ _ hmay => giveOrTake_taken hmay rfl, fun _ _ => giveOrTake_given⟩

theorem OpsSettled.fixed (h : OpsSettled net.ircd fl noop modes) :
    syncOps net fl noop true true modes = modes := by
  have hop : syncOp fl noop true modes = modes := giveOrTake_fixed h.giveOp fun hmay _ => h.op hmay
  rw [syncOps, hop]
  dsimp only
  by_cases hstop : (test fl (caAutoop ||| caOp) && test modes cstatusOp) = true
  · rw [if_pos hstop]
  · rw [if_neg hstop]
    have hoff : test modes cstatusOp = false := by
      cases hmay : test fl (caAutoop ||| caOp) with
      | true => simpa [hmay] using hstop
      | false => exact h.op hmay
    have hhalfop : syncHalfop net fl noop true modes = modes := by
      rw [syncHalfop]
      split_ifs with huses
      · exact giveOrTake_fixed (h.giveHalfop hoff huses) fun hmay _ => h.halfop hoff huses hmay
      · rfl
    rw [hhalfop]
    split_ifs with hhalf
    · rfl
    · have hnone : (net.ircd.usesHalfops && test modes net.ircd.halfopsMode) = false := by
        cases huses : net.ircd.usesHalfops with
        | false => rfl
        | true =>
          cases hmay : test fl (caAutohalfop ||| caHalfop) with
          | true => simpa [huses, hmay] using hhalf
          | false => rw [h.halfop hoff huses hmay, Bool.and_false]
      exact giveOrTake_fixed (h.giveVoice hoff hnone) fun hmay _ => h.voice hoff hnone hmay

structure StatusSettled (ircd : Ircd) (fl : Flags) (noop : Bool) (modes : Flags) : Prop
    extends OpsSettled ircd fl noop modes where
  owner : ircd.usesOwner = true → test fl caUseowner = false → test modes ircd.ownerMode = false
  giveOwner : ircd.usesOwner = true → test fl caUseowner = true → test fl caAutoop = true →
    noop = false → Given ircd.ownerMode modes
  protect : ircd.usesProtect = true → test fl caUseprotect = false →
    test modes ircd.protectMode = false
  giveProtect : ircd.usesProtect = true → test fl caUseprotect = true →
    (test fl caAutoop && !(ircd.usesOwner && test modes ircd.ownerMode)) = true → noop = false →
    Given ircd.protectMode modes

theorem syncStatus_settled :
    StatusSettled net.ircd fl noop (syncStatus net fl noop true true modes) := by
  obtain ⟨hpo, hoo, hho, hvo, hop, hhp, hvp, -, -⟩ := lower_apart net.ircd
  rw [syncStatus]
  have hops : ∀ s, test (syncOps net fl noop true true s) net.ircd.ownerMode =
      test s net.ircd.ownerMode := fun s => test_syncOps hoo hho hvo
  have hops' : ∀ s, test (syncOps net fl noop true true s) net.ircd.protectMode =
      test s net.ircd.protectMode := fun s => test_syncOps hop hhp hvp
  have hprotect : ∀ s, test (syncProtect net fl noop true s) net.ircd.ownerMode =
      test s net.ircd.ownerMode := fun s => test_syncProtect hpo
  refine ⟨syncOps_settled, fun huses hmay => ?_, fun huses hmay hauto hno => ?_, fun huses hmay => ?_,
    fun huses hmay hauto hno => ?_⟩
  · rw [hops, hprotect, syncOwner, if_pos huses]
    exact giveOrTake_taken hmay rfl
  · refine Given.congr ?_ ((hops _).trans (hprotect _))
    rw [syncOwner, if_pos huses]
    exact giveOrTake_given hmay hauto hno
  · rw [hops', syncProtect, if_pos huses]
    exact giveOrTake_taken hmay rfl
  · rw [hops, hprotect] at hauto
    refine Given.congr ?_ (hops' _)
    rw [syncProtect, if_pos huses]
    exact giveOrTake_given hmay hauto hno

theorem StatusSettled.fixed (h : StatusSettled net.ircd fl noop modes) :
    syncStatus net fl noop true true modes = modes := by
  have howner : syncOwner net fl noop true modes = modes := by
    rw [syncOwner]
    split_ifs with huses
    · exact giveOrTake_fixed (h.giveOwner huses) fun hmay _ => h.owner huses hmay
    · rfl
  have hprotect : syncProtect net fl noop true modes = modes := by
    rw [syncProtect]
    split_ifs with huses
    · exact giveOrTake_fixed (h.giveProtect huses) fun hmay _ => h.protect huses hmay
    · rfl
  rw [syncStatus, howner, hprotect]
  exact h.toOpsSettled.fixed

theorem StatusSettled.allowed (h : StatusSettled ircd fl noop modes) : Allowed ircd fl modes := by
  have hkept : ∀ {b status : Bool}, (b = false → status = false) → status = true → b = true := by
    intro b status himp hon
    cases b with
    | true => rfl
    | false => rw [himp rfl] at hon; cases hon
  exact ⟨fun huses => hkept (h.owner huses), fun huses => hkept (h.protect huses), hkept h.op,
    fun hoff => ⟨fun huses => hkept (h.halfop hoff huses), fun hnone => hkept (h.voice hoff hnone)⟩⟩

end statuses

/-! ### The channel -/

def Settled (net : Net) (st : ChanState) (u : Uid) : Prop :=
  Watched net u → ∀ cu ∈ st.chan.members, cu.user = u →
    syncReject net true u st = none ∧
      StatusSettled net.ircd (net.access u) (test st.flags mcNoop || noopAccount net u) cu.modes

def Kickable (net : Net) (st : ChanState) : Prop :=
  ∀ cu ∈ st.chan.members, Watched net cu.user →
    immune net st.chan.modes cu = false ∧ immune net (lockedModes net st.chan.modes) cu = false

instance (net : Net) (st : ChanState) : Decidable (Kickable net st) :=
  inferInstanceAs (Decidable (∀ cu ∈ st.chan.members, _))

def SameSettings (st st' : ChanState) : Prop :=
  ∀ m, test mcInhabit m = false → test mcMlockCheck m = false → test st'.flags m = test st.flags m

section channel
variable {net : Net} {now : Moment} {st st' st'' : ChanState} {u u' : Uid}

theorem SameSettings.trans (h : SameSettings st st') (h' : SameSettings st' st'') :
    SameSettings st st'' :=
  fun m hi hm => (h' m hi hm).trans (h m hi hm)

theorem SameSettings.same (h : st'.flags = st.flags) : SameSettings st st' := fun _ _ _ => by rw [h]

theorem stay_settings : SameSettings st (stay net st) := by
  have hflag : SameSettings st { st with flags := st.flags ||| mcInhabit } :=
    fun m hi _ => test_or_disjoint hi _
  rw [stay]
  split_ifs
  · dsimp only
    split_ifs
    · exact hflag.trans (.same join_keeps.2.2.1)
    · exact hflag
  · exact .same rfl

theorem chanbanAdd_flags {mask : CString} {type : Char} :
    (chanbanAdd net mask type st).flags = st.flags := by
  rw [chanbanAdd]
  split_ifs <;> rfl

theorem checkModes_settings : SameSettings st (checkModes net now st) :=
  fun _ _ hm => test_andNot_disjoint hm _

structure Prepared (net : Net) (st st' : ChanState) : Prop where
  quiet : Quiet net st st'
  settings : SameSettings st st'
  modes : st'.chan.modes = st.chan.modes ∨ st'.chan.modes = lockedModes net st.chan.modes

theorem Prepared.of_stay (hquiet : Quiet net (stay net st) st') (hsettings : SameSettings (stay net st) st')
    (hmodes : st'.chan.modes = (stay net st).chan.modes ∨
      st'.chan.modes = lockedModes net (stay net st).chan.modes) : Prepared net st st' := by
  rw [stay_modes] at hmodes
  exact ⟨stay_quiet.trans hquiet, stay_settings.trans hsettings, hmodes⟩

theorem csPrepare_restricted_prepared : Prepared net st (csPrepare net now u st .restricted) := by
  rw [csPrepare]
  dsimp only
  split_ifs
  · exact .of_stay (.same rfl rfl) (.same rfl) (.inl rfl)
  · have hquiet : Quiet net (stay net st) (checkModes net now (stay net st)) := checkModes_quiet
    have hsettings : SameSettings (stay net st) (checkModes net now (stay net st)) :=
      checkModes_settings
    exact .of_stay (hquiet.trans (.same rfl rfl)) (hsettings.trans (.same rfl)) (.inr rfl)
  · exact .of_stay (chanbanAdd_quiet.trans (.same rfl rfl)) (.same chanbanAdd_flags)
      (.inl chanbanAdd_modes)

theorem syncPrepare_prepared {why : Reject} (h : syncReject net true u st = some why) :
    Prepared net st (syncPrepare net now u st why) := by
  cases why with
  | restricted => exact csPrepare_restricted_prepared
  | inviteOnly =>
    rw [syncReject] at h
    split_ifs at h
    · cases h
    · cases h
  | akick =>
    rw [syncPrepare]
    split
    · split_ifs
      · exact .of_stay (.same rfl rfl) (.same rfl) (.inl rfl)
      · exact .of_stay (chanbanAdd_quiet.trans (.same rfl rfl)) (.same chanbanAdd_flags)
          (.inl chanbanAdd_modes)
    · split_ifs
      · exact .of_stay (chanbanAdd_quiet.trans (.same rfl rfl)) (.same chanbanAdd_flags)
          (.inl chanbanAdd_modes)
      · exact .of_stay (.same rfl rfl) (.same rfl) (.inl rfl)

theorem lockedModes_locked (modes : Flags) :
    lockedModes net (lockedModes net modes) = lockedModes net modes := by
  rw [lockedModes, lockedModes]
  apply BitVec.eq_of_getLsbD_eq
  intro i hi
  simp only [BitVec.getLsbD_and, BitVec.getLsbD_or, BitVec.getLsbD_not, hi]
  generalize modes.getLsbD i = a
  generalize net.mlockOn.getLsbD i = on
  generalize net.mlockOff.getLsbD i = off
  generalize (!((cmodeKey).getLsbD i || (cmodeLimit).getLsbD i)) = simple
  revert a on off simple
  decide

theorem Prepared.kickable (h : Prepared net st st') (hk : Kickable net st) : Kickable net st' := by
  intro cu hcu hw
  obtain ⟨hnow, hlocked⟩ := hk cu (h.quiet.members cu hcu hw) hw
  cases h.modes with
  | inl hsame => rw [hsame]; exact ⟨hnow, hlocked⟩
  | inr hlock => rw [hlock, lockedModes_locked]; exact ⟨hlocked, hlocked⟩

theorem chanuserErase_kickable (hk : Kickable net st) : Kickable net (chanuserErase net u st) := by
  rw [chanuserErase]
  dsimp only
  split_ifs
  · exact fun _ h => absurd h List.not_mem_nil
  · exact fun cu hcu hw => hk cu (List.mem_of_mem_filter hcu) hw

theorem csUsed_kickable (hk : Kickable net st) : Kickable net (csUsed net now u st) := by
  rw [csUsed]
  split_ifs
  · exact hk
  · exact hk

theorem csPart_kickable (hk : Kickable net st) : Kickable net (csPart net now u st) := by
  rw [csPart]
  split_ifs
  · exact hk
  · dsimp only
    split_ifs
    · exact csUsed_kickable hk
    · split
      · exact csUsed_kickable hk
      · exact chanuserErase_kickable (csUsed_kickable (csUsed_kickable hk))

theorem tryKick_kickable (hk : Kickable net st) : Kickable net (tryKick net now u st) := by
  rw [tryKick]
  split
  · exact hk
  · split_ifs
    · exact hk
    · rw [chanuserDelete]
      split
      · exact hk
      · exact chanuserErase_kickable (csPart_kickable hk)

theorem chanuserErase_flags : (chanuserErase net u st).flags = st.flags := by
  rw [chanuserErase]
  dsimp only
  split_ifs <;> rfl

theorem csUsed_flags : (csUsed net now u st).flags = st.flags := by
  rw [csUsed]
  split_ifs <;> rfl

theorem csPart_flags : (csPart net now u st).flags = st.flags := by
  rw [csPart]
  split_ifs
  · rfl
  · dsimp only
    split_ifs
    · exact csUsed_flags
    · split
      · exact csUsed_flags
      · exact chanuserErase_flags.trans (csUsed_flags.trans csUsed_flags)

theorem tryKick_flags : (tryKick net now u st).flags = st.flags := by
  rw [tryKick]
  split
  · rfl
  · split_ifs
    · rfl
    · rw [chanuserDelete]
      split
      · rfl
      · exact chanuserErase_flags.trans csPart_flags

theorem doChanuserSync_cases (ca : Option Target) :
    (doChanuserSync net now ca true st u = st ∧
      (st.find u = none ∨ ¬ Watched net u ∨ ca.any (passesOver net u) = true)) ∨
    (∃ why, Watched net u ∧ syncReject net true u st = some why ∧
      doChanuserSync net now ca true st u = tryKick net now u (syncPrepare net now u st why)) ∨
    (Watched net u ∧ syncReject net true u st = none ∧ doChanuserSync net now ca true st u =
      st.setModes u (syncStatus net (net.access u) (test st.flags mcNoop || noopAccount net u) true true)) := by
  rw [doChanuserSync]
  split_ifs with hgone hservice hpassed
  · exact .inl ⟨rfl, .inl (Option.isNone_iff_eq_none.mp hgone)⟩
  · refine .inl ⟨rfl, .inr (.inl fun hw => ?_)⟩
    rw [hw.1, hw.2] at hservice
    cases hservice
  · exact .inl ⟨rfl, .inr (.inr hpassed)⟩
  · have hw : Watched net u := by simpa [Watched] using hservice
    cases hreject : syncReject net true u st with
    | some why => exact .inr (.inl ⟨why, hw, rfl, rfl⟩)
    | none => exact .inr (.inr ⟨hw, rfl, rfl⟩)

theorem setModes_kickable {fl : Flags} {noop : Bool} (hk : Kickable net st) :
    Kickable net (st.setModes u (syncStatus net fl noop true true)) := by
  obtain ⟨himmune, himmune', himmune''⟩ := immune_apart net.ircd
  have hsame : ∀ modes, test (syncStatus net fl noop true true modes) cstatusImmune =
      test modes cstatusImmune := fun modes =>
    (test_syncOps (by decide) himmune'' (by decide)).trans
      ((test_syncProtect himmune').trans (test_syncOwner himmune))
  intro cu hcu hw
  obtain ⟨cu₀, hcu₀, huser, hmodes⟩ := mem_setModes hcu
  have hstatus : test cu.modes cstatusImmune = test cu₀.modes cstatusImmune := by
    rw [hmodes]
    split_ifs
    · exact hsame _
    · rfl
  have himm : ∀ modes, immune net modes cu = immune net modes cu₀ := fun modes => by
    rw [immune, immune, hstatus, huser]
  rw [himm, himm]
  exact hk cu₀ hcu₀ (huser ▸ hw)

theorem doChanuserSync_kickable (ca : Option Target) (hk : Kickable net st) :
    Kickable net (doChanuserSync net now ca true st u) := by
  obtain ⟨h, -⟩ | ⟨why, -, hreject, h⟩ | ⟨-, -, h⟩ := @doChanuserSync_cases net now st u ca
  · rw [h]; exact hk
  · rw [h]; exact tryKick_kickable ((syncPrepare_prepared hreject).kickable hk)
  · rw [h]; exact setModes_kickable hk

theorem doChanuserSync_here (hk : Kickable net st) :
    Settled net (doChanuserSync net now none true st u) u := by
  intro hw cu hcu huser
  obtain ⟨h, hnot⟩ | ⟨why, -, hreject, h⟩ | ⟨-, hreject, h⟩ := @doChanuserSync_cases net now st u none
  · rw [h] at hcu
    obtain hgone | hno | hpassed := hnot
    · exact absurd huser (find_none hgone hcu)
    · exact absurd hw hno
    · cases hpassed
  · have hk' : Kickable net (syncPrepare net now u st why) :=
      (syncPrepare_prepared hreject).kickable hk
    rw [h] at hcu
    refine absurd huser (tryKick_gone (fun cu hcu huser => ?_) cu hcu)
    exact (hk' cu hcu (huser ▸ hw)).1
  · rw [h] at hcu ⊢
    obtain ⟨cu₀, -, huser₀, hmodes⟩ := mem_setModes hcu
    rw [if_pos (huser₀ ▸ huser)] at hmodes
    rw [hmodes]
    exact ⟨hreject, syncStatus_settled⟩

theorem doChanuserSync_kept (ca : Option Target) (hs : Settled net st u') :
    Settled net (doChanuserSync net now ca true st u) u' := by
  intro hw cu hcu huser
  obtain ⟨h, -⟩ | ⟨why, -, hreject, h⟩ | ⟨-, -, h⟩ := @doChanuserSync_cases net now st u ca
  · rw [h] at hcu ⊢
    exact hs hw cu hcu huser
  · have hprep : Prepared net st (syncPrepare net now u st why) := syncPrepare_prepared hreject
    have hold : cu ∈ st.chan.members := by
      rw [h] at hcu
      exact (hprep.quiet.trans tryKick_quiet).members cu hcu (huser ▸ hw)
    have hflags : SameSettings st (doChanuserSync net now ca true st u) := by
      rw [h]
      exact hprep.settings.trans (.same tryKick_flags)
    obtain ⟨hnone, hsettled⟩ := hs hw cu hold huser
    rw [syncReject, hflags mcRestricted (by decide) (by decide), hflags mcNoop (by decide) (by decide)]
    exact ⟨hnone, hsettled⟩
  · rw [h] at hcu ⊢
    obtain ⟨cu₀, hcu₀, huser₀, hmodes⟩ := mem_setModes hcu
    obtain ⟨hnone, hsettled⟩ := hs hw cu₀ hcu₀ (huser₀ ▸ huser)
    refine ⟨hnone, ?_⟩
    rw [hmodes]
    split_ifs with heq
    · have hsame : u' = u := by rw [← huser, huser₀, heq]
      subst hsame
      rw [hsettled.fixed]
      exact hsettled
    · exact hsettled

theorem setModes_self {f : Flags → Flags} (h : ∀ cu ∈ st.chan.members, cu.user = u → f cu.modes = cu.modes) :
    st.setModes u f = st := by
  have hmembers : st.chan.members.map (fun cu => if cu.user = u then { cu with modes := f cu.modes } else cu) =
      st.chan.members := by
    refine (List.map_congr_left fun cu hcu => ?_).trans (List.map_id _)
    split_ifs with huser
    · rw [h cu hcu huser, id]
    · rfl
  rw [ChanState.setModes, hmembers]

theorem doChanuserSync_fixed (ca : Option Target) (hs : Settled net st u) :
    doChanuserSync net now ca true st u = st := by
  by_cases hw : Watched net u
  · cases hfind : st.find u with
    | none =>
      rw [doChanuserSync, hfind]
      rfl
    | some cu =>
      obtain ⟨hmem, huser⟩ := mem_of_find hfind
      obtain ⟨hnone, -⟩ := hs hw cu hmem huser
      obtain ⟨h, -⟩ | ⟨why, -, hreject, -⟩ | ⟨-, -, h⟩ := @doChanuserSync_cases net now st u ca
      · exact h
      · rw [hnone] at hreject
        cases hreject
      · rw [h]
        exact setModes_self fun cu hcu huser => (hs hw cu hcu huser).2.fixed
  · obtain ⟨h, -⟩ | ⟨why, hw', -⟩ | ⟨hw', -⟩ := @doChanuserSync_cases net now st u ca
    · exact h
    · exact absurd hw' hw
    · exact absurd hw' hw

def Among (net : Net) (us : List Uid) (st : ChanState) : Prop :=
  ∀ cu ∈ st.chan.members, Watched net cu.user → cu.user ∈ us

theorem doChanuserSync_among (ca : Option Target) {us : List Uid} (hs : Among net us st) :
    Among net us (doChanuserSync net now ca true st u) := by
  intro cu hcu hw
  obtain ⟨h, -⟩ | ⟨why, -, hreject, h⟩ | ⟨-, -, h⟩ := @doChanuserSync_cases net now st u ca
  · rw [h] at hcu
    exact hs cu hcu hw
  · rw [h] at hcu
    have hprep : Prepared net st (syncPrepare net now u st why) := syncPrepare_prepared hreject
    exact hs cu ((hprep.quiet.trans tryKick_quiet).members cu hcu hw) hw
  · rw [h] at hcu
    obtain ⟨cu₀, hcu₀, huser, -⟩ := mem_setModes hcu
    rw [huser] at hw ⊢
    exact hs cu₀ hcu₀ hw

theorem sync_settles : Settle.Settles (Kickable net) (Settled net) (doChanuserSync net now none true) where
  inv _ _ := doChanuserSync_kickable none
  here _ _ := doChanuserSync_here
  kept _ _ _ := doChanuserSync_kept none

theorem doChannelSync_settled (hk : Kickable net st) (u : Uid) :
    Settled net (doChannelSync net now none st) u := by
  have husers : Among net (st.chan.members.map Chanuser.user) (doChannelSync net now none st) :=
    Settle.pass_inv (fun _ _ => doChanuserSync_among none) _ fun cu hcu _ => List.mem_map_of_mem hcu
  intro hw cu hcu huser
  have hu : u ∈ st.chan.members.map Chanuser.user := huser ▸ husers cu hcu (huser ▸ hw)
  exact Settle.pass_settled sync_settles _ hk u hu hw cu hcu huser

theorem doChannelSync_fixed (ca : Option Target) (h : ∀ u, Settled net st u) :
    doChannelSync net now ca st = st :=
  Settle.pass_fixed (fun _ _ => doChanuserSync_fixed ca) _ fun u _ => h u

theorem doChannelSync_some {t : Target} (h : ∀ u, passesOver net u t = true → Settled net st u) :
    doChannelSync net now (some t) st = doChannelSync net now none st := by
  have hpassed : ∀ s u, passesOver net u t = true → doChanuserSync net now (some t) true s u = s := by
    intro s u hu
    rw [doChanuserSync]
    split_ifs with hgone hservice hcheck
    · rfl
    · rfl
    · rfl
    · exact absurd hu hcheck
  have hother : ∀ s u, ¬ passesOver net u t = true →
      doChanuserSync net now (some t) true s u = doChanuserSync net now none true s u := by
    intro s u hu
    have hnot : (some t).any (passesOver net u) = Option.any (passesOver net u) none :=
      (Bool.not_eq_true _).mp hu
    rw [doChanuserSync, doChanuserSync, hnot]
  have hkept : ∀ s u u', Settled net s u' → Settled net (doChanuserSync net now none true s u) u' :=
    fun _ _ _ => doChanuserSync_kept none
  exact Settle.pass_skips hkept (fun _ _ => doChanuserSync_fixed none) hpassed hother _ fun u _ => h u

end channel

end ChatServices.ChanServ.Channels

/-! The sync after one access entry has changed: it may pass over the members that the entry does
not match, for the channel was in sync before. -/
namespace ChatServices.ChanServ.Channels
open ChatServices.Lib ChatServices.Lib.Mask ChatServices.Text

def Net.withExttargets (net : Net) : Net :=
  { net with world := ChanServ.withExttargets net.cfg net.world net.db }

def Net.setLevel (net : Net) (t : Target) (level : Flags) : Net :=
  { net with db := net.db.setLevel net.mc t level, registered := net.registered }

structure SameMembers (net net' : Net) : Prop where
  ircd : net'.ircd = net.ircd
  user : net'.user = net.user
  accounts : net'.db.accounts = net.db.accounts
  hasPriv : net'.world.hasPriv = net.world.hasPriv

section change
variable {net net' net'' : Net} {now : Moment} {st : ChanState} {u : Uid} {t : Target} {level : Flags}

theorem SameMembers.trans (h : SameMembers net net') (h' : SameMembers net' net'') :
    SameMembers net net'' :=
  ⟨h'.ircd.trans h.ircd, h'.user.trans h.user, h'.accounts.trans h.accounts, h'.hasPriv.trans h.hasPriv⟩

theorem sameMembers_withExttargets : SameMembers net net.withExttargets := ⟨rfl, rfl, rfl, rfl⟩

theorem sameMembers_withExttargets' : SameMembers net.withExttargets net := ⟨rfl, rfl, rfl, rfl⟩

theorem sameMembers_setLevel : SameMembers net (net.setLevel t level) := ⟨rfl, rfl, rfl, rfl⟩

theorem SameMembers.settled (h : SameMembers net net') (haccess : net'.access u = net.access u)
    (hs : Settled net st u) : Settled net' st u := by
  intro hw cu hcu huser
  have hw' : Watched net u := by
    rw [Watched, h.user] at hw
    exact hw
  obtain ⟨hnone, hsettled⟩ := hs hw' cu hcu huser
  refine ⟨?_, ?_⟩
  · rw [syncReject, haccess, h.user, h.hasPriv]
    exact hnone
  · have hnoop : noopAccount net' u = noopAccount net u := by
      rw [noopAccount, noopAccount, h.user, h.accounts]
    rw [h.ircd, haccess, hnoop]
    exact hsettled

theorem access_setLevel (haway : LooksAway net.cfg net.db net.mc t)
    (hpassed : passesOver (net.setLevel t level).withExttargets u t = true) :
    (net.setLevel t level).withExttargets.access u = net.withExttargets.access u := by
  cases t with
  | host _ => cases hpassed
  | entity e =>
    obtain ⟨mu, hmu, hmatch⟩ := (Option.any_eq_true ..).mp hpassed
    rw [Bool.and_eq_true, Bool.not_eq_true', Bool.not_eq_true'] at hmatch
    have hflags := @chanacsUserFlags_setLevel net.cfg net.world net.db net.mc (net.user u).toUser level
      e mu haway hmu hmatch.1 hmatch.2
    exact hflags

end change

/-- A sync leaves no remote member but services with a status that its access does not allow; a
second one changes nothing; and after the level of an entry has changed, the sync for that entry does
what a sync of the whole channel does, if the entry looks away from the channel. -/
theorem channel_synced (net : Net) (now : Moment) (st : ChanState) (hkick : Kickable net st) :
    let synced := doChannelSync net.withExttargets now none st
    (∀ cu ∈ synced.chan.members, Watched net cu.user →
      Allowed net.ircd (net.withExttargets.access cu.user) cu.modes) ∧
    (∀ now', doChannelSync net.withExttargets now' none synced = synced) ∧
    ∀ now' t level, LooksAway net.cfg net.db net.mc t →
      let net' := (net.setLevel t level).withExttargets
      doChannelSync net' now' (some t) synced = doChannelSync net' now' none synced := by
  have hsettled : ∀ u, Settled net.withExttargets (doChannelSync net.withExttargets now none st) u :=
    doChannelSync_settled hkick
  refine ⟨fun cu hcu hw => ?_, fun now' => doChannelSync_fixed none hsettled, fun now' t level haway => ?_⟩
  · exact (hsettled cu.user hw cu hcu rfl).2.allowed
  · refine doChannelSync_some fun u hpassed => ?_
    have hsame : SameMembers net.withExttargets (net.setLevel t level).withExttargets :=
      sameMembers_withExttargets'.trans (sameMembers_setLevel.trans sameMembers_withExttargets)
    exact hsame.settled (access_setLevel haway hpassed) (hsettled u)

/- Somebody with an account and somebody of another service, on a channel whose access list and that
of another channel name each other. -/
def syncUser (u : Uid) : NetUser :=
  if u = "ACAAA".toList then ⟨{ sampleUser with uid := u }, true, 0#64⟩
  else if u = "ABAAS".toList then ⟨{ sampleUser with uid := u }, false, ufService⟩
  else ⟨{ sampleUser with uid := u }, false, 0#64⟩

def syncNet : Net where
  ircd := nefarious
  cfg := sampleConfig
  world := { sampleWorld with hostMatches := fun _ u => u.uid = sampleUser.uid }
  db := ⟨sampleAccounts 0#32 [], .empty,
    ⟨[(0, sampleChan "#chan" head_chan []), (1, sampleChan "#other" head_other [])], nodup_chan_other⟩,
    ⟨[((0, .entity (.ext "$chanacs:#chan".toList)), sampleEntry caAutoop),
      ((0, .entity (.ext "$chanacs:#other".toList)), sampleEntry caAkick),
      ((0, .host "alice!*@*".toList), sampleEntry caExempt),
      ((1, .entity (.user 0)), sampleEntry caVoice),
      ((1, .entity (.ext "$chanacs:#chan".toList)), sampleEntry caAkick)], by decide⟩⟩
  mc := 0
  mychan := sampleChan "#chan" head_chan []
  registered := by decide
  mlockOn := 0#32
  mlockOff := 0#32
  mlockLimit := 0
  mlockKey := none
  user := syncUser
  chanserv := "ACAAA".toList
  chanserv_internal := by decide
  immuneLevel := ufImmune
  changets := false
  leaveChans := true
  chanLog := false
  banMatches _ _ := false

def syncStart : ChanState :=
  ⟨⟨500, 0#32, 0, none, fun _ => none, [], [⟨sampleUser.uid, 0#32⟩, ⟨"ABAAS".toList, cstatusOp⟩]⟩, 0#32, 0⟩

/-- Its list names `#other`, and the list of `#other` no channel. -/
def awayNet : Net where
  __ := syncNet
  db := ⟨syncNet.db.accounts, .empty, syncNet.db.chans,
    ⟨[((0, .entity (.ext "$chanacs:#other".toList)), sampleEntry caAutoop),
      ((0, .host "alice!*@*".toList), sampleEntry caExempt),
      ((1, .entity (.user 0)), sampleEntry caVoice)], by decide⟩⟩
  registered := by decide

theorem awayNet_refers {mc mc' : MyChanRef} (h : Refers awayNet.cfg awayNet.db mc mc') : mc' = 1 := by
  obtain ⟨e, he, name, channel, other, hext, hname, hfind⟩ := h
  obtain ⟨entry, hmem, rfl⟩ := List.mem_map.mp he
  have hentry := (List.mem_filter.mp hmem).1
  simp only [awayNet, List.mem_cons, List.not_mem_nil, or_false] at hentry
  obtain rfl | rfl | rfl := hentry
  · obtain rfl : "$chanacs:#other".toList = name := Entity.ext.inj (Target.entity.inj hext)
    obtain rfl : "#other".toList = channel := Option.some.inj hname
    have hother : (mychanFind awayNet.cfg awayNet.db "#other".toList).map Prod.fst = some 1 := by decide
    rw [hfind] at hother
    exact Option.some.inj hother
  · cases hext
  · cases hext

theorem awayNet_looksAway (t : Target) : LooksAway awayNet.cfg awayNet.db awayNet.mc t := by
  intro _ _ _ hback
  cases hback with
  | single hlast => exact absurd (awayNet_refers hlast) (by decide)
  | tail _ hlast => exact absurd (awayNet_refers hlast) (by decide)

theorem channel_synced_exttarget :
    let synced := doChannelSync awayNet.withExttargets secureNow none syncStart
    let other := Target.entity (.ext "$chanacs:#other".toList)
    let net' := (awayNet.setLevel other caVoice).withExttargets
    (∀ cu ∈ synced.chan.members, Watched awayNet cu.user →
      Allowed awayNet.ircd (awayNet.withExttargets.access cu.user) cu.modes) ∧
    doChannelSync awayNet.withExttargets secureNow none synced = synced ∧
    doChannelSync net' secureNow (some other) synced = doChannelSync net' secureNow none synced := by
  have h := channel_synced awayNet secureNow syncStart (by decide)
  exact ⟨h.1, h.2.1 secureNow, h.2.2 secureNow _ caVoice (awayNet_looksAway _)⟩

/-- A service keeps a status that its access does not allow. The entry for `$chanacs:#other` does not
match the user with an account when it is looked up first, but it does so five lookups deep, so that
its level decides what `$chanacs:#chan` says about that user. -/
theorem sync_passes_over :
    (∀ cu ∈ syncStart.chan.members, immune syncNet syncStart.chan.modes cu = false) ∧
    (∃ cu ∈ (doChannelSync syncNet.withExttargets secureNow none syncStart).chan.members,
      (syncNet.user cu.user).internal = false ∧ test cu.modes cstatusOp = true ∧
        test (syncNet.withExttargets.access cu.user) (caAutoop ||| caOp) = false) ∧
    let synced := doChannelSync syncNet.withExttargets secureNow none syncStart
    let net' := (syncNet.setLevel (.entity (.ext "$chanacs:#other".toList)) caVoice).withExttargets
    (doChannelSync net' secureNow (some (.entity (.ext "$chanacs:#other".toList))) synced).chan.members ≠
      (doChannelSync net' secureNow none synced).chan.members := by
  decide +kernel

end ChatServices.ChanServ.Channels
