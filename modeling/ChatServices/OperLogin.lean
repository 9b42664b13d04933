import ChatServices.PrivsRun

/-! What operators may do: the privileges of a user and of an account, and the class that is named
at a login. A class goes and comes with the configuration file while records point to it. -/
namespace ChatServices.Privs
open ChatServices.Lib ChatServices.Lib.Mask ChatServices.Lib.Run ChatServices.Text

def operclassNeedoper : Flags := 0x1#32

/-- What `init_privs` makes first. -/
def userR : OperclassRef := 0
def authenticatedR : OperclassRef := 1
def ircopR : OperclassRef := 2

/-- `UF_IRCOP` and `UF_SOPER_PASS` are flags of the user. -/
structure User where
  ircop : Bool
  soperPass : Bool
  myuser : Option AccountRef

def stringInListFrom : Nat → CString → CString → Bool
  | 0, _, _ => false
  | fuel + 1, str, name =>
    if str = [] then false
    else if strcaseEq (str.takeWhile (· ≠ ' ')) name then true
    else stringInListFrom fuel ((str.dropWhile (· ≠ ' ')).dropWhile (· = ' ')) name

/-- `string_in_list`, of words with blanks between them. -/
def stringInList (str name : CString) : Bool := stringInListFrom str.length str name

section queries
variable (p : PrivsState)

/-- `has_priv_operclass`; `none` where the class is not there. -/
def hasPrivOperclass (oc : OperclassRef) (priv : CString) : Option Bool :=
  (p.operclasses.find oc).map fun o => stringInList o.privs priv

/-- The record of an account: `some none` for NULL, `none` where it is not there. -/
def soperRead (mu : AccountRef) : Option (Option Soper) :=
  match p.soperOf mu with
  | none => some none
  | some s => (p.sopers.find s).map some

/-- The end of `has_priv_user`, for the record of the account. -/
def hasPrivSoper (u : User) (soper : Option Soper) (priv : CString) : Option Bool :=
  match soper with
  | none => some false
  | some r =>
    match r.operclass with
    | none => some false
    | some oc => do
      let operclass ← p.operclasses.find oc
      if test operclass.flags operclassNeedoper && !u.ircop then some false
      else if r.password.isSome && !u.soperPass then some false
      else hasPrivOperclass p oc priv

def hasPrivUser (u : Option User) (priv : Option CString) : Option Bool :=
  match priv, u with
  | none, _ => some true
  | some _, none => some false
  | some priv, some u =>
    hasPrivOperclass p userR priv <||> (pure u.ircop <&&> hasPrivOperclass p ircopR priv) <||>
      match u.myuser with
      | none => some false
      | some mu => hasPrivOperclass p authenticatedR priv <||>
          (soperRead p mu).bind fun soper => hasPrivSoper p u soper priv

/-- The end of `has_priv_myuser`. -/
def hasPrivRecord (soper : Option Soper) (priv : CString) : Option Bool :=
  match soper.bind Soper.operclass with
  | none => some false
  | some oc => hasPrivOperclass p oc priv

def hasPrivMyuser (mu : Option AccountRef) (priv : Option CString) : Option Bool :=
  match priv, mu with
  | none, _ => some true
  | some _, none => some false
  | some priv, some mu => hasPrivOperclass p authenticatedR priv <||>
      (soperRead p mu).bind fun soper => hasPrivRecord p soper priv

/-- What `myuser_login` names: nothing, or the class of the record. -/
def loginClass (mu : AccountRef) : Option (Option CString) := do
  match ← soperRead p mu with
  | none => return none
  | some r =>
    let operclass ← p.operclasses.find (← r.operclass)
    return some operclass.name

def classMissing (mu : AccountRef) : Bool :=
  (soperRead p mu).any fun soper => soper.any fun r => r.operclass = none

def bare (mu : AccountRef) : PrivsState := p.setSoper (some mu) none

end queries

/-- A missing class or record is read; or a query is answered, beside what the answer would be
without the record, and for an account whose class is missing or not. -/
inductive LoginObs where
  | missing
  | answered (classMissing answer bare : Bool)
  deriving DecidableEq

def LoginObs.Fine : LoginObs → Prop
  | .missing => False
  | .answered classMissing answer bare => classMissing = true → answer = bare

inductive LoginEvent where
  | privs (e : PrivsEvent)
  | login (u : User) (mu : AccountRef)
  | userPriv (u : Option User) (priv : Option CString)
  | myuserPriv (mu : Option AccountRef) (priv : Option CString)

def queried (classMissing : Bool) (answer bare : Option Bool) : List LoginObs :=
  match answer, bare with
  | some answer, some bare => [.answered classMissing answer bare]
  | _, _ => [.missing]

def loginStep (cm : CaseMapping) (p : PrivsState) : LoginEvent → PrivsState × List LoginObs
  | .privs e => ((privsStep cm p e).1, [])
  | .login u mu =>
    (p, if u.myuser.isNone && (loginClass p mu).isNone then [.missing] else [])
  | .userPriv u priv =>
    (p, match u.bind User.myuser with
      | none => queried false (hasPrivUser p u priv) (hasPrivUser p u priv)
      | some mu => queried (classMissing p mu) (hasPrivUser p u priv) (hasPrivUser (bare p mu) u priv))
  | .myuserPriv mu priv =>
    (p, match mu with
      | none => queried false (hasPrivMyuser p mu priv) (hasPrivMyuser p mu priv)
      | some m => queried (classMissing p m) (hasPrivMyuser p mu priv)
          (hasPrivMyuser (bare p m) mu priv))

/-- Records are added and accounts renamed as `Callers` says. -/
def Manages (cm : CaseMapping) (p : PrivsState) : LoginEvent → Prop
  | .privs e => Callers cm p e
  | _ => True

def ClassThere (p : PrivsState) : LoginEvent → Prop
  | .login u mu => u.myuser = none → ∀ s ∈ p.soperOf mu, ∀ r ∈ p.sopers.find s,
    (p.operclassFind r.classname).isSome
  | _ => True

/-! ### What is there -/

/-- The classes that `init_privs` makes stay. -/
def Builtins (p : PrivsState) : Prop :=
  ∀ oc ∈ [userR, authenticatedR, ircopR], ∃ o, p.operclasses.find oc = some o ∧
    test o.flags operclassBuiltin = true

section builtins
variable {cm : CaseMapping} {p p' : PrivsState}

theorem Builtins.of_eq (h : Builtins p) (heq : p'.operclasses = p.operclasses) : Builtins p' := by
  rw [Builtins, heq]
  exact h

theorem Builtins.operclassAdd (h : Builtins p) (name privs : CString) (flags : Flags) :
    Builtins (p.operclassAdd name privs flags) := by
  intro oc hoc
  obtain ⟨o, ho, hbuiltin⟩ := h oc hoc
  rw [PrivsState.operclassAdd]
  split
  · dsimp only
    rw [Registry.find_modify, ho]
    split_ifs
    · refine ⟨_, rfl, ?_⟩
      obtain ⟨i, hi, hmask⟩ := (test_iff _ _).mp hbuiltin
      refine (test_iff _ _).mpr ⟨i, ?_, hmask⟩
      rw [has_or, has_and]
      exact .inr ⟨hi, hmask⟩
    · exact ⟨o, rfl, hbuiltin⟩
  · dsimp only
    rw [Registry.find_insertNew, ho]
    exact ⟨o, rfl, hbuiltin⟩

theorem Builtins.operclassDelete (h : Builtins p) (oc : OperclassRef) :
    Builtins (p.operclassDelete oc) := by
  rw [PrivsState.operclassDelete]
  split
  · exact h
  · next o hfind =>
    split_ifs with hbuiltin
    · exact h
    · intro oc' hoc'
      obtain ⟨o', ho', hbuiltin'⟩ := h oc' hoc'
      dsimp only
      rw [Registry.find_erase]
      split_ifs with heq
      · rw [heq, hfind] at ho'
        obtain rfl := Option.some.inj ho'
        exact absurd hbuiltin' hbuiltin
      · exact ⟨o', ho', hbuiltin'⟩

@[simp] theorem soperDelete_operclasses (s : SoperRef) :
    (p.soperDelete s).operclasses = p.operclasses := by
  rw [PrivsState.soperDelete]
  split
  · rfl
  · rw [setSoper_operclasses]

@[simp] theorem soperInsert_operclasses (name classname : CString) (flags : Flags)
    (password : Option CString) (mu : Option AccountRef) :
    (p.soperInsert name classname flags password mu).operclasses = p.operclasses := by
  rw [PrivsState.soperInsert, setSoper_operclasses]

theorem Builtins.privsStep (h : Builtins p) (e : PrivsEvent) : Builtins (privsStep cm p e).1 := by
  cases e with
  | operclassAdd name privs flags => exact h.operclassAdd name privs flags
  | operclassDelete oc => exact h.operclassDelete oc
  | soperAdd name classname flags password =>
    apply h.of_eq
    rw [Privs.privsStep, PrivsState.soperAdd]
    dsimp only
    split
    · rw [soperInsert_operclasses]
    · split
      · rfl
      · split_ifs
        · rw [soperInsert_operclasses, soperDelete_operclasses]
        · rfl
  | soperDelete s => exact h.of_eq (soperDelete_operclasses s)
  | myuserAdd name =>
    apply h.of_eq
    rw [Privs.privsStep, PrivsState.myuserAdd]
    dsimp only
    split
    · rfl
    · split
      · rfl
      · rw [setSoper_operclasses]
  | myuserDelete mu =>
    apply h.of_eq
    rw [Privs.privsStep, PrivsState.myuserDelete]
    dsimp only
    split
    · rfl
    · dsimp only
      split
      · rw [soperDelete_operclasses]
      · rfl
  | myuserRename mu name => exact h.of_eq rfl

end builtins

/-! ### Answers -/

section answers
variable {cm : CaseMapping} {p : PrivsState} {u : User} {mu : AccountRef} {soper : Option Soper}
  {priv : CString}

theorem Ok.soperRead (h : Ok cm p) (mu : AccountRef) : ∃ soper, Privs.soperRead p mu = some soper ∧
    ∀ r ∈ soper, ∀ oc ∈ r.operclass, (p.operclasses.find oc).isSome := by
  rw [Privs.soperRead]
  cases hof : p.soperOf mu with
  | none => exact ⟨none, rfl, nofun⟩
  | some s =>
    have hback := (h.links.pairs mu s).mp hof
    obtain ⟨r, hr, -⟩ := Option.bind_eq_some_iff.mp hback
    dsimp only
    rw [hr]
    refine ⟨some r, rfl, fun r' hr' oc hoc => ?_⟩
    obtain rfl := Option.some.inj hr'
    rw [h.classes.given s r hr] at hoc
    obtain ⟨o, ho, -⟩ := Registry.firstWhere_some hoc
    rw [ho]
    rfl

variable (priv) in
theorem Builtins.answer (h : Builtins p) {oc : OperclassRef}
    (hoc : oc ∈ [userR, authenticatedR, ircopR]) : ∃ b, hasPrivOperclass p oc priv = some b := by
  obtain ⟨o, ho, -⟩ := h oc hoc
  rw [hasPrivOperclass, ho]
  exact ⟨_, rfl⟩

theorem hasPrivOperclass_bare : hasPrivOperclass (bare p mu) = hasPrivOperclass p := by
  funext oc priv
  rw [hasPrivOperclass, bare, setSoper_operclasses, hasPrivOperclass]

theorem soperRead_bare : soperRead (bare p mu) mu = some none := by
  have hnone : (bare p mu).soperOf mu = none := by
    rw [bare, PrivsState.soperOf, PrivsState.setSoper]
    dsimp only
    rw [Registry.find_modify, if_pos rfl]
    cases p.accounts.find mu <;> rfl
  rw [soperRead, hnone]

theorem hasPrivUser_some (h : Builtins p) (hmu : u.myuser = some mu)
    (hread : soperRead p mu = some soper) {b : Bool} (hend : hasPrivSoper p u soper priv = some b) :
    ∃ a, hasPrivUser p (some u) (some priv) = some a := by
  obtain ⟨b₀, h₀⟩ := h.answer priv (List.mem_cons_self : userR ∈ _)
  obtain ⟨b₁, h₁⟩ := h.answer priv (by decide : ircopR ∈ _)
  obtain ⟨b₂, h₂⟩ := h.answer priv (by decide : authenticatedR ∈ _)
  rw [hasPrivUser, hmu, h₀, h₁]
  dsimp only
  rw [h₂, hread, Option.bind_some, hend]
  cases b₀ <;> cases b₁ <;> cases b₂ <;> cases u.ircop <;> exact ⟨_, rfl⟩

theorem hasPrivMyuser_some (h : Builtins p) (hread : soperRead p mu = some soper) {b : Bool}
    (hend : hasPrivRecord p soper priv = some b) :
    ∃ a, hasPrivMyuser p (some mu) (some priv) = some a := by
  obtain ⟨b₂, h₂⟩ := h.answer priv (by decide : authenticatedR ∈ _)
  rw [hasPrivMyuser, h₂, hread, Option.bind_some, hend]
  cases b₂ <;> exact ⟨_, rfl⟩

theorem hasPrivUser_bare (hmu : u.myuser = some mu) (hread : soperRead p mu = some soper)
    (hend : hasPrivSoper p u soper priv = some false) :
    hasPrivUser (bare p mu) (some u) (some priv) = hasPrivUser p (some u) (some priv) := by
  rw [hasPrivUser, hasPrivUser, hmu, hasPrivOperclass_bare]
  dsimp only
  rw [soperRead_bare, hread, Option.bind_some, Option.bind_some, hend]
  rfl

theorem hasPrivMyuser_bare (hread : soperRead p mu = some soper)
    (hend : hasPrivRecord p soper priv = some false) :
    hasPrivMyuser (bare p mu) (some mu) (some priv) = hasPrivMyuser p (some mu) (some priv) := by
  rw [hasPrivMyuser, hasPrivMyuser, hasPrivOperclass_bare, soperRead_bare, hread, Option.bind_some,
    Option.bind_some, hend]
  rfl

theorem Builtins.bare (h : Builtins p) : Builtins (bare p mu) := h.of_eq (setSoper_operclasses _ _)

variable (u priv) in
theorem hasPrivSoper_some (h : ∀ r ∈ soper, ∀ oc ∈ r.operclass, (p.operclasses.find oc).isSome) :
    ∃ b, hasPrivSoper p u soper priv = some b := by
  rw [hasPrivSoper.eq_def]
  cases soper with
  | none => exact ⟨false, rfl⟩
  | some r =>
    dsimp only
    cases hclass : r.operclass with
    | none => exact ⟨false, rfl⟩
    | some oc =>
      obtain ⟨o, ho⟩ := Option.isSome_iff_exists.mp (h r rfl oc hclass)
      simp only [ho, Option.bind_eq_bind, Option.bind_some, hasPrivOperclass, Option.map_some]
      split_ifs <;> exact ⟨_, rfl⟩

variable (priv) in
theorem hasPrivRecord_some (h : ∀ r ∈ soper, ∀ oc ∈ r.operclass, (p.operclasses.find oc).isSome) :
    ∃ b, hasPrivRecord p soper priv = some b := by
  rw [hasPrivRecord]
  cases hclass : soper.bind Soper.operclass with
  | none => exact ⟨false, rfl⟩
  | some oc =>
    obtain ⟨r, hr, hoc⟩ := Option.bind_eq_some_iff.mp hclass
    obtain ⟨o, ho⟩ := Option.isSome_iff_exists.mp (h r hr oc hoc)
    dsimp only
    rw [hasPrivOperclass, ho]
    exact ⟨_, rfl⟩

theorem classMissing_iff (hread : soperRead p mu = some soper) :
    classMissing p mu = true ↔ ∃ r ∈ soper, r.operclass = none := by
  rw [classMissing, hread]
  cases soper <;> simp

theorem queried_fine {missing : Bool} {answer bare : Option Bool} (hanswer : ∃ a, answer = some a)
    (hbare : ∃ b, bare = some b) (hsame : missing = true → bare = answer) :
    ∀ o ∈ queried missing answer bare, o.Fine := by
  obtain ⟨a, rfl⟩ := hanswer
  obtain ⟨b, rfl⟩ := hbare
  intro o ho
  rw [List.mem_singleton.mp ho]
  exact fun hmissing => (Option.some.inj (hsame hmissing)).symm

theorem userPriv_fine (h : Ok cm p) (hb : Builtins p) (u : Option User) (priv : Option CString) :
    ∀ o ∈ (loginStep cm p (.userPriv u priv)).2, o.Fine := by
  rw [loginStep]
  dsimp only
  cases hu : u.bind User.myuser with
  | none =>
    have hsome : ∃ a, hasPrivUser p u priv = some a := by
      cases priv with
      | none => exact ⟨true, rfl⟩
      | some priv =>
        cases u with
        | none => exact ⟨false, rfl⟩
        | some u =>
          have hnone : u.myuser = none := hu
          obtain ⟨b₀, h₀⟩ := hb.answer priv (List.mem_cons_self : userR ∈ _)
          obtain ⟨b₁, h₁⟩ := hb.answer priv (by decide : ircopR ∈ _)
          rw [hasPrivUser, hnone, h₀, h₁]
          cases b₀ <;> cases b₁ <;> cases u.ircop <;> exact ⟨_, rfl⟩
    exact queried_fine hsome hsome fun _ => rfl
  | some mu =>
    obtain ⟨u, rfl, hmu⟩ := Option.bind_eq_some_iff.mp hu
    cases priv with
    | none => exact queried_fine ⟨true, rfl⟩ ⟨true, rfl⟩ fun _ => rfl
    | some priv =>
      obtain ⟨soper, hread, hclass⟩ := h.soperRead mu
      obtain ⟨b, hend⟩ := hasPrivSoper_some u priv hclass
      have hbare : hasPrivSoper (bare p mu) u none priv = some false := rfl
      refine queried_fine (hasPrivUser_some hb hmu hread hend)
        (hasPrivUser_some hb.bare hmu soperRead_bare hbare) fun hmissing => ?_
      obtain ⟨r, rfl, hnone⟩ := (classMissing_iff hread).mp hmissing
      apply hasPrivUser_bare hmu hread
      rw [hasPrivSoper, hnone]

theorem myuserPriv_fine (h : Ok cm p) (hb : Builtins p) (mu : Option AccountRef)
    (priv : Option CString) : ∀ o ∈ (loginStep cm p (.myuserPriv mu priv)).2, o.Fine := by
  cases priv with
  | none => cases mu <;> exact queried_fine ⟨true, rfl⟩ ⟨true, rfl⟩ fun _ => rfl
  | some priv =>
    cases mu with
    | none => exact queried_fine ⟨false, rfl⟩ ⟨false, rfl⟩ fun _ => rfl
    | some mu =>
      obtain ⟨soper, hread, hclass⟩ := h.soperRead mu
      obtain ⟨b, hend⟩ := hasPrivRecord_some priv hclass
      have hbare : hasPrivRecord (bare p mu) none priv = some false := rfl
      refine queried_fine (hasPrivMyuser_some hb hread hend)
        (hasPrivMyuser_some hb.bare soperRead_bare hbare) fun hmissing => ?_
      obtain ⟨r, rfl, hnone⟩ := (classMissing_iff hread).mp hmissing
      apply hasPrivMyuser_bare hread
      rw [hasPrivRecord, Option.bind_some, hnone]

theorem login_fine_iff (h : Ok cm p) (u : User) :
    (∀ o ∈ (loginStep cm p (.login u mu)).2, o.Fine) ↔ ClassThere p (.login u mu) := by
  have hobs : (∀ o ∈ (loginStep cm p (.login u mu)).2, o.Fine) ↔
      (u.myuser = none → (loginClass p mu).isSome) := by
    rw [loginStep]
    dsimp only
    cases u.myuser <;> cases loginClass p mu <;> simp [LoginObs.Fine]
  rw [hobs, ClassThere]
  apply imp_congr_right
  intro _
  obtain ⟨soper, hread, hclass⟩ := h.soperRead mu
  rw [loginClass, hread]
  rw [soperRead] at hread
  cases hof : p.soperOf mu with
  | none =>
    rw [hof] at hread
    obtain rfl := Option.some.inj hread
    exact ⟨fun _ => nofun, fun _ => rfl⟩
  | some s =>
    rw [hof] at hread
    obtain ⟨r, hr, rfl⟩ := Option.map_eq_some_iff.mp hread
    have hfind := h.classes.given s r hr
    have hrecord : (∀ s' ∈ some s, ∀ r' ∈ p.sopers.find s', (p.operclassFind r'.classname).isSome) ↔
        (p.operclassFind r.classname).isSome := by
      simp [hr]
    rw [hrecord, ← hfind]
    cases hoc : r.operclass with
    | none => simp [hoc]
    | some oc =>
      obtain ⟨o, ho⟩ := Option.isSome_iff_exists.mp (hclass r rfl oc hoc)
      simp [hoc, ho]

end answers

/-! ### Runs -/

structure LoginOk (cm : CaseMapping) (p : PrivsState) : Prop where
  ok : Ok cm p
  builtins : Builtins p

instance (cm : CaseMapping) (p : PrivsState) : ∀ e, Decidable (Manages cm p e)
  | .privs e => inferInstanceAs (Decidable (Callers cm p e))
  | .login .. => inferInstanceAs (Decidable True)
  | .userPriv .. => inferInstanceAs (Decidable True)
  | .myuserPriv .. => inferInstanceAs (Decidable True)

theorem loginOk_initial (cm : CaseMapping) : LoginOk cm .initial := by
  refine ⟨ok_initial cm, fun oc hoc => ?_⟩
  have hall : ∀ oc ∈ [userR, authenticatedR, ircopR],
      (PrivsState.initial.operclasses.find oc).any fun o => test o.flags operclassBuiltin := by
    decide +kernel
  have hany := hall oc hoc
  cases hfind : PrivsState.initial.operclasses.find oc with
  | none =>
    rw [hfind] at hany
    cases hany
  | some o =>
    rw [hfind] at hany
    exact ⟨o, rfl, hany⟩

/-- In every run in which records and accounts are managed as the callers do it, no query and no
login reads a class or a record that is not there, and a missing class is as good as no record,
exactly if whoever logs in has no record or the class of the record is there. -/
theorem operators_log_in_iff (cm : CaseMapping) (es : List LoginEvent)
    (h : Guarded (loginStep cm) (Manages cm) .initial es) :
    (∀ o ∈ (run (loginStep cm) .initial es).2, o.Fine) ↔
      Guarded (loginStep cm) ClassThere .initial es := by
  apply run_emits_iff_guarded (I := LoginOk cm) (C := Manages cm) _ _ (loginOk_initial cm) h
  · intro p e hp he
    cases e with
    | privs e => exact ⟨hp.ok.step e he, hp.builtins.privsStep e⟩
    | login u mu => exact hp
    | userPriv u priv => exact hp
    | myuserPriv mu priv => exact hp
  · intro p e hp
    cases e with
    | privs e => exact iff_true_intro nofun
    | login u mu => exact login_fine_iff hp.ok u
    | userPriv u priv => exact iff_true_intro (userPriv_fine hp.ok hp.builtins u priv)
    | myuserPriv mu priv => exact iff_true_intro (myuserPriv_fine hp.ok hp.builtins mu priv)

/-- The class of an operator goes and comes, and he logs in after. -/
theorem operators_log_in_after_rehash :
    let es := [.privs (.operclassAdd "sra".toList "user:auspex".toList 0),
      .privs (.soperAdd "bob".toList "sra".toList soperConf none),
      .privs (.myuserAdd "bob".toList), .privs (.operclassDelete 3),
      .userPriv (some ⟨false, false, some 5⟩) (some "user:auspex".toList),
      .privs (.operclassAdd "sra".toList "user:auspex".toList 0),
      .login ⟨false, false, none⟩ 5]
    (∀ o ∈ (run (loginStep .rfc1459) .initial es).2, o.Fine) ↔
      Guarded (loginStep .rfc1459) ClassThere .initial es :=
  operators_log_in_iff .rfc1459 _ (by decide +kernel)

/-- The configuration file does not have the class of an operator any more when he logs in. -/
theorem operator_without_class_logs_in :
    ¬∀ (cm : CaseMapping) (es : List LoginEvent), Guarded (loginStep cm) (Manages cm) .initial es →
      ∀ o ∈ (run (loginStep cm) .initial es).2, o.Fine := by
  intro h
  exact h .rfc1459 [.privs (.operclassAdd "sra".toList "user:auspex".toList 0),
    .privs (.myuserAdd "bob".toList), .privs (.soperAdd "bob".toList "sra".toList 0 none),
    .privs (.operclassDelete 3), .login ⟨false, false, none⟩ 4] (by decide +kernel) .missing
    (by decide +kernel)

end ChatServices.Privs
