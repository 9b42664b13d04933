import ChatServices.SaslStep

/-! STRICTACCESS on the two automatic login paths: `handle_certfp` checks the user it
logs in, the SASL path decides before there is a user and never looks at it. -/
namespace ChatServices.Sasl
open ChatServices.Lib ChatServices.Lib.Mask ChatServices.Lib.Run ChatServices.Lib.Trace
open ChatServices.Text

/-- `handle_certfp`, on a network with or without a NickServ service. -/
def handleCertfp (cfg : ServConfig) (w : World) (nickserv : Bool) (db : Accounts) (u : User)
    (certfp : CString) : Accounts × List Obs :=
  if u.myuser db ≠ none then (db, [])
  else
    match w.mycertfpFind certfp with
    | none => (db, [])
    | some mu =>
      match db.get mu with
      | none => (db, [])
      | some account =>
        if !nickserv then (db, [])
        else if !w.userCanLogin mu then (db, [])
        else if account.frozen then
          (db, [.notice u.nick
            "You cannot login as \x02%s\x02 because the account has been frozen." [account.name]])
        else if test account.flags muStrictaccess && !myuserAccessVerify cfg.toConfig u account then
          (db, [.commandFail .authfail strictNotice])
        else if account.logins.length ≥ cfg.maxlogins then
          (db, [.notice u.nick
            "There are already \x02%zu\x02 sessions logged in to \x02%s\x02 (maximum allowed: %u)."
            [(toString account.logins.length).toList, account.name,
              (toString cfg.maxlogins).toList]])
        else
          let fmt := if cfg.noNickOwnership then "You are now logged in as \x02%s\x02."
            else "You are now identified for \x02%s\x02."
          let r := myuserLogin w db u mu "CERT IDENTIFY".toList
          (r.1, .notice u.nick fmt [account.name] :: r.2)

inductive NetEvent where
  | sasl (e : Event)
  | certfp (w : World) (nickserv : Bool) (u : User) (certfp : CString)
  | quit (uid : Uid)
  | accounts (db : Accounts)

def netStep (cfg : ServConfig) (s : State) : NetEvent → State × List Obs
  | .sasl e => step cfg s e
  | .certfp w nickserv u certfp =>
    let r := handleCertfp cfg w nickserv s.accounts u certfp
    (⟨s.sessions, r.1⟩, r.2)
  | .quit uid => (⟨s.sessions, s.accounts.logout uid⟩, [])
  | .accounts db => (⟨s.sessions, db⟩, [])

def StrictOk (cfg : ServConfig) : Obs → Prop
  | .loggedIn u _ account =>
    test account.flags muStrictaccess = true → myuserAccessVerify cfg.toConfig u account = true
  | _ => True

instance (cfg : ServConfig) (o : Obs) : Decidable (StrictOk cfg o) :=
  match o with
  | .loggedIn u _ account => inferInstanceAs (Decidable
      (test account.flags muStrictaccess = true → myuserAccessVerify cfg.toConfig u account = true))
  | .sts .. | .svslogin .. | .notice .. | .commandFail .. | .badPassword .. | .packet ..
  | .accepted .. | .myuserLogin .. | .destroyed .. => isTrue trivial

def OnAccessList (cfg : ServConfig) (u : User) (account : MyUser) : Prop :=
  cfg.useMyuserAccess = true ∧ account.frozen = false ∧
    ∃ entry ∈ account.accessList, accessEntryMatches cfg.toConfig u entry = true

/-- Whoever is introduced with a session for an account with STRICTACCESS connects
from a host on the access list of that account. -/
def IntroducedFromAccessList (cfg : ServConfig) (s : State) : NetEvent → Prop
  | .sasl (.newuser _ u) => ∀ p mu account, s.sessions.find u.uid = some p →
      p.authzid.bind (myuserFindByNick cfg.toConfig s.accounts) = some mu →
      s.accounts.get mu = some account → u.myuser s.accounts = none →
      test account.flags muStrictaccess = true → OnAccessList cfg u account
  | _ => True

theorem myuserLogin_strictOk (cfg : ServConfig) (w : World) (db : Accounts) (u : User)
    (mu : MyUserRef) (d : CString) :
    (∀ o ∈ (myuserLogin w db u mu d).2, StrictOk cfg o) ↔
      ∀ account, db.get mu = some account → u.myuser db = none →
        test account.flags muStrictaccess = true →
          myuserAccessVerify cfg.toConfig u account = true := by
  unfold myuserLogin
  split
  · rename_i account hnone hget
    simp [StrictOk, hget, hnone]
  · rename_i hcase
    simp only [List.mem_singleton, forall_eq, StrictOk, true_iff]
    intro account hget hnone
    exact absurd hget (hcase account hnone)

theorem handleCertfp_strictOk (cfg : ServConfig) (w : World) (nickserv : Bool) (db : Accounts)
    (u : User) (certfp : CString) :
    ∀ o ∈ (handleCertfp cfg w nickserv db u certfp).2, StrictOk cfg o := by
  unfold handleCertfp
  split
  · simp
  · split
    · simp
    · rename_i mu _
      split
      · simp
      · rename_i account hget
        split
        · simp
        · split
          · simp
          · split
            · simp [StrictOk]
            · split
              · simp [StrictOk]
              · rename_i hverify
                split
                · simp [StrictOk]
                · intro o ho
                  cases List.mem_cons.mp ho with
                  | inl ho => simp [ho, StrictOk]
                  | inr ho =>
                    refine (myuserLogin_strictOk cfg w db u mu _).mpr ?_ o ho
                    intro account' hget' _ hstrict
                    rw [hget] at hget'
                    cases hget'
                    simpa [hstrict] using hverify

theorem saslInput_strictOk (cfg : ServConfig) (w : World) (s : State) (msg : SaslMessage) :
    ∀ o ∈ (saslInput cfg w s msg).2, StrictOk cfg o := by
  intro o ho
  have h := saslInput_ofMessage cfg w s msg o ho
  cases o with
  | loggedIn u mu account => exact h.elim
  | _ => trivial

theorem deleteStale_strictOk (cfg : ServConfig) (s : State) :
    ∀ o ∈ (deleteStale s).2, StrictOk cfg o := by
  intro o ho
  simp only [deleteStale, List.mem_map] at ho
  obtain ⟨e, -, rfl⟩ := ho
  trivial

theorem saslNewuser_strictOk_iff (cfg : ServConfig) (w : World) (s : State) (u : User) :
    (∀ o ∈ (saslNewuser cfg w s u).2, StrictOk cfg o) ↔
      IntroducedFromAccessList cfg s (.sasl (.newuser w u)) := by
  simp only [IntroducedFromAccessList, OnAccessList, ← myuserAccessVerify_iff]
  cases hp : s.sessions.find u.uid with
  | none => simp [saslNewuser, hp]
  | some p =>
    cases hmu : p.authzid.bind (myuserFindByNick cfg.toConfig s.accounts) with
    | none =>
      refine iff_of_true (by simp [saslNewuser, hp, hmu, StrictOk]) ?_
      intro p' mu' account hp' hmu' hget hnone hstrict
      cases hp'
      rw [hmu] at hmu'
      cases hmu'
    | some mu =>
      have hobs : (∀ o ∈ (saslNewuser cfg w s u).2, StrictOk cfg o) ↔
          ∀ o ∈ (myuserLogin w s.accounts u mu (loginDescription p)).2, StrictOk cfg o := by
        have hrest : ∀ a, ∀ o ∈ [Obs.destroyed u.uid, .notice u.nick "You are now logged in to: %s" a],
            StrictOk cfg o := by simp [StrictOk]
        simp only [saslNewuser, hp, hmu, List.forall_mem_append]
        exact and_iff_left (hrest _)
      rw [hobs, myuserLogin_strictOk]
      constructor
      · intro h p' mu' account hp' hmu' hget hnone hstrict
        cases hp'
        rw [hmu] at hmu'
        cases hmu'
        exact h account hget hnone hstrict
      · intro h account hget hnone hstrict
        exact h p mu account rfl hmu hget hnone hstrict

theorem netStep_strictOk_iff (cfg : ServConfig) (s : State) (e : NetEvent) :
    (∀ o ∈ (netStep cfg s e).2, StrictOk cfg o) ↔ IntroducedFromAccessList cfg s e := by
  cases e with
  | sasl e =>
    cases e with
    | message w msg => exact iff_of_true (saslInput_strictOk cfg w s msg) trivial
    | sweep => exact iff_of_true (deleteStale_strictOk cfg s) trivial
    | newuser w u => exact saslNewuser_strictOk_iff cfg w s u
  | certfp w nickserv u certfp =>
    exact iff_of_true (handleCertfp_strictOk cfg w nickserv s.accounts u certfp) trivial
  | quit uid => simp [netStep, IntroducedFromAccessList]
  | accounts db => simp [netStep, IntroducedFromAccessList]

/-- In every run, with certificates, quits and whatever else happens to the accounts,
all logins respect STRICTACCESS if and only if everyone introduced with a SASL
session for an account with STRICTACCESS connects from its access list. -/
theorem logins_strict_iff (cfg : ServConfig) (s : State) (es : List NetEvent) :
    (∀ o ∈ (run (netStep cfg) s es).2, StrictOk cfg o) ↔
      Guarded (netStep cfg) (IntroducedFromAccessList cfg) s es := by
  rw [← always_const]
  have h := @run_always_iff _ _ _ (netStep cfg) (fun _ _ => True) (IntroducedFromAccessList cfg)
    (fun _ => StrictOk cfg)
    (fun s t e _ hg => ⟨trivial, always_const.mpr ((netStep_strictOk_iff cfg s e).mpr hg)⟩)
    (fun s t e _ hg ha => hg ((netStep_strictOk_iff cfg s e).mp (always_const.mp ha))) s [] trivial es
  exact h

def strictAccounts : Accounts :=
  sampleAccounts.modify 1 (fun mu => { mu with flags := muStrictaccess })

def strictRun : List NetEvent :=
  [.sasl (.message .refusing ⟨sampleUser.uid, .S, "PLAIN".toList, []⟩),
   .sasl (.message { World.refusing with verifyPassword := fun _ _ => true }
    ⟨sampleUser.uid, .C, "AGFkbWluAHB3".toList, []⟩),
   .sasl (.newuser .refusing sampleUser)]

theorem plain_ignores_strictaccess :
    ¬ ∀ o ∈ (run (netStep sampleConfig) (.initial strictAccounts) strictRun).2,
      StrictOk sampleConfig o := by
  decide

end ChatServices.Sasl
