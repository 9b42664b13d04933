import ChatServices.SaslServ

/-! The ECDSA mechanism alone: one session of it, fed any messages, and exactly when
every success rests on a valid signature. -/
namespace ChatServices.Sasl
open ChatServices.Lib ChatServices.Lib.Run ChatServices.Lib.Trace ChatServices.Text

/-- What one call of `mech_step` is given. -/
structure EcdsaInput where
  world : World
  accounts : Accounts
  message : CString

/-- A call of `mech_step` and its answer. -/
structure EcdsaObs where
  input : EcdsaInput
  rc : Rc
  out : CString

def ecdsaRunStep (cfg : Config) (p : Session) (i : EcdsaInput) : Session × List EcdsaObs :=
  match p.mech with
  | some (.ecdsa s) =>
    let r := ecdsaMechStep cfg i.world i.accounts p s i.message
    (r.session, [⟨i, r.rc, r.out⟩])
  | _ => (p, [])

def storedKey (cfg : Config) (i : EcdsaInput) : Option EcKey := do
  let mu ← myuserFindByNick cfg i.accounts (accname i.message)
  let md ← (i.accounts.get mu).bind pubkeyMetadata
  let raw ← Base64.decode md bufsize
  some (o2iECPublicKey i.world ⟨none⟩ raw)

/-- A success is sound when a challenge sent before in this session was found validly
signed under the key stored for the account named then. -/
def SoundDone (cfg : Config) (before : List EcdsaObs) (o : EcdsaObs) : Prop :=
  o.rc = .done → ∃ o' ∈ before, o'.rc = .more ∧ ∃ key, storedKey cfg o'.input = some key ∧
    o.input.world.ecdsaVerify o'.out o.input.message key = .valid

def VerifyDefined (p : Session) (i : EcdsaInput) : Prop :=
  ∀ s, p.mech = some (.ecdsa s) → s.step = .response →
    i.world.ecdsaVerify s.challenge i.message s.pubkey ≠ .error

/-- Where an ECDSA session is: nothing sent yet and a fresh key, or one challenge
sent, which is the session's, under the key stored for the account named then. -/
inductive EcdsaInv (cfg : Config) (p : Session) (t : List EcdsaObs) : Prop
  | accname (s : EcdsaSession) (mech : p.mech = some (.ecdsa s)) (step : s.step = .accname)
      (key : s.pubkey = ⟨none⟩) (unsent : ∀ o ∈ t, o.rc ≠ .more)
  | response (s : EcdsaSession) (mech : p.mech = some (.ecdsa s)) (step : s.step = .response)
      (sent : ∃ o ∈ t, o.rc = .more)
      (only : ∀ o ∈ t, o.rc = .more → o.out = s.challenge ∧ storedKey cfg o.input = some s.pubkey)

theorem mechStepAccname_cases (cfg : Config) (i : EcdsaInput) (p : Session) (s : EcdsaSession)
    (hk : s.pubkey = ⟨none⟩) :
    let r := mechStepAccname cfg i.world i.accounts p s i.message
    (r.rc = .fail ∧ r.session.mech = p.mech) ∨
      (r.rc = .more ∧ ∃ key, storedKey cfg i = some key ∧
        r.session.mech = some (.ecdsa ⟨.response, key, r.out⟩)) := by
  simp only [mechStepAccname]
  split
  · exact .inl ⟨rfl, rfl⟩
  · rename_i mu hmu
    split
    · exact .inl ⟨rfl, rfl⟩
    · rename_i md hmd
      split
      · exact .inl ⟨rfl, rfl⟩
      · rename_i raw hraw
        refine .inr ⟨rfl, o2iECPublicKey i.world ⟨none⟩ raw, ?_, ?_⟩
        · simp [storedKey, hmu, hmd, hraw]
        · rw [hk]

theorem ecdsaInv_fail {cfg : Config} {p q : Session} {t : List EcdsaObs} (h : EcdsaInv cfg p t)
    (hm : q.mech = p.mech) {o : EcdsaObs} (ho : o.rc ≠ .more) : EcdsaInv cfg q (t ++ [o]) := by
  cases h with
  | accname s mech step key unsent =>
    refine .accname s (hm.trans mech) step key fun o' h' => ?_
    cases List.mem_append.mp h' with
    | inl h' => exact unsent o' h'
    | inr h' => exact List.mem_singleton.mp h' ▸ ho
  | response s mech step sent only =>
    obtain ⟨o', h', hrc⟩ := sent
    refine .response s (hm.trans mech) step ⟨o', by simp [h'], hrc⟩ fun o'' h'' hmore => ?_
    cases List.mem_append.mp h'' with
    | inl h'' => exact only o'' h'' hmore
    | inr h'' => exact absurd (List.mem_singleton.mp h'' ▸ hmore) ho

theorem soundDone_of_not_done {cfg : Config} {t : List EcdsaObs} {o : EcdsaObs}
    (ho : o.rc ≠ .done) : Always (after t (SoundDone cfg)) [o] := by
  simp only [always_cons, always_nil, and_true]
  exact fun h => absurd h ho

theorem ecdsaStep_sound {cfg : Config} (p : Session) (t : List EcdsaObs) (i : EcdsaInput)
    (h : EcdsaInv cfg p t) (hg : VerifyDefined p i) :
    EcdsaInv cfg (ecdsaRunStep cfg p i).1 (t ++ (ecdsaRunStep cfg p i).2) ∧
      Always (after t (SoundDone cfg)) (ecdsaRunStep cfg p i).2 := by
  cases h with
  | accname s mech step key unsent =>
    have hstep : ecdsaRunStep cfg p i =
        ((mechStepAccname cfg i.world i.accounts p s i.message).session,
          [⟨i, (mechStepAccname cfg i.world i.accounts p s i.message).rc,
            (mechStepAccname cfg i.world i.accounts p s i.message).out⟩]) := by
      simp [ecdsaRunStep, mech, ecdsaMechStep, step]
    rw [hstep]
    cases mechStepAccname_cases cfg i p s key with
    | inl hr =>
      refine ⟨ecdsaInv_fail (.accname s mech step key unsent) hr.2 (by simp [hr.1]),
        soundDone_of_not_done (by simp [hr.1])⟩
    | inr hr =>
      obtain ⟨hrc, k, hk, hm⟩ := hr
      refine ⟨.response _ hm rfl
        ⟨_, List.mem_append_right _ (List.mem_singleton.mpr rfl), hrc⟩ fun o ho hmore => ?_,
        soundDone_of_not_done (by simp [hrc])⟩
      cases List.mem_append.mp ho with
      | inl ho => exact absurd hmore (unsent o ho)
      | inr ho =>
        rw [List.mem_singleton.mp ho]
        exact ⟨rfl, hk⟩
  | response s mech step sent only =>
    have hinv : EcdsaInv cfg p t := .response s mech step sent only
    have hdefined := hg s mech step
    have hstep : ecdsaRunStep cfg p i =
        ((mechStepResponse i.world p s i.message).session,
          [⟨i, (mechStepResponse i.world p s i.message).rc,
            (mechStepResponse i.world p s i.message).out⟩]) := by
      simp [ecdsaRunStep, mech, ecdsaMechStep, step]
    rw [hstep, mechStepResponse]
    cases hv : i.world.ecdsaVerify s.challenge i.message s.pubkey with
    | error => exact absurd hv hdefined
    | invalid => exact ⟨ecdsaInv_fail hinv rfl (by simp [failed, VerifyResult.toInt]),
        soundDone_of_not_done (by simp [failed, VerifyResult.toInt])⟩
    | valid =>
      refine ⟨ecdsaInv_fail hinv rfl (by simp [VerifyResult.toInt]), ?_⟩
      simp only [always_cons, always_nil, and_true, after_apply, List.append_nil]
      intro _
      obtain ⟨o', h', hrc⟩ := sent
      obtain ⟨hout, hkey⟩ := only o' h' hrc
      exact ⟨o', h', hrc, s.pubkey, hkey, by rw [hout]; exact hv⟩

theorem ecdsaStep_unsound {cfg : Config} (p : Session) (t : List EcdsaObs) (i : EcdsaInput)
    (h : EcdsaInv cfg p t) (hg : ¬ VerifyDefined p i) :
    ¬ Always (after t (SoundDone cfg)) (ecdsaRunStep cfg p i).2 := by
  simp only [VerifyDefined, not_forall, ne_eq, not_not] at hg
  obtain ⟨s, hm, hs, herr⟩ := hg
  intro hall
  cases h with
  | accname s' mech step key none =>
    rw [hm] at mech
    cases mech
    rw [hs] at step
    cases step
  | response s' mech step sent only =>
    rw [hm] at mech
    cases mech
    simp only [ecdsaRunStep, hm, ecdsaMechStep, hs, mechStepResponse, herr, VerifyResult.toInt,
      always_cons, always_nil, and_true, after_apply, List.append_nil] at hall
    obtain ⟨o', h', hrc, key, hkey, hvalid⟩ := hall rfl
    obtain ⟨hout, hkey'⟩ := only o' h' hrc
    rw [hkey] at hkey'
    cases hkey'
    rw [hout] at hvalid
    dsimp only at hvalid
    rw [herr] at hvalid
    cases hvalid

/-- A session of the mechanism answers that it is done only for valid signatures, if
and only if none of the verifications it makes ends in an error. -/
theorem ecdsa_done_sound_iff (cfg : Config) (p : Session) (is : List EcdsaInput) :
    Always (SoundDone cfg) (run (ecdsaRunStep cfg) (mechStart .ecdsa p).session is).2 ↔
      Guarded (ecdsaRunStep cfg) VerifyDefined (mechStart .ecdsa p).session is := by
  have hinit : EcdsaInv cfg (mechStart .ecdsa p).session [] :=
    .accname ecdsaStart rfl rfl rfl (by simp)
  have h := run_always_iff ecdsaStep_sound ecdsaStep_unsound hinit is
  rw [after_nil] at h
  exact h

def malformedRun : List EcdsaInput :=
  [⟨.refusing, sampleAccounts, "mallory".toList⟩,
   ⟨{ World.refusing with ecdsaVerify := fun _ _ _ => .error }, sampleAccounts, ['0']⟩]

theorem malformed_signature_done :
    ¬ Always (SoundDone sampleConfig.toConfig)
      (run (ecdsaRunStep sampleConfig.toConfig) (mechStart .ecdsa .fresh).session
        malformedRun).2 := by
  intro h
  have hdone := h [⟨malformedRun.head (by decide), .more, List.replicate 32 'c'⟩] _ [] rfl rfl
  obtain ⟨o', -, -, key, -, hv⟩ := hdone
  cases hv

end ChatServices.Sasl
