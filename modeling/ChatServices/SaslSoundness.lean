import ChatServices.SaslStep

/-! Which logins of a SASL run are justified by a completed authentication, and
exactly when all of them are. -/
namespace ChatServices.Sasl
open ChatServices.Lib ChatServices.Lib.Run ChatServices.Lib.Trace ChatServices.Text

/-- `login_user` returned `mu` for the session of `uid`, which has lived on since. -/
def Authenticated (uid : Uid) (mu : MyUserRef) : List Obs → Prop :=
  Since (· = .accepted uid mu) (· = .destroyed uid)

def Justified (before : List Obs) : Obs → Prop
  | .myuserLogin uid mu _ => Authenticated uid mu before
  | _ => True

def ChallengePending (p : Session) : Prop :=
  p.needLog = false ∧ ∃ m, p.mech = some m ∧ AwaitsResponse m

def loginAccount (cfg : ServConfig) (db : Accounts) (p : Session) : Option MyUserRef :=
  p.authzid.bind (myuserFindByNick cfg.toConfig db)

def NoPendingIntroduction (cfg : ServConfig) (s : State) : Event → Prop
  | .newuser _ u => ∀ p, s.sessions.find u.uid = some p → ChallengePending p →
      loginAccount cfg s.accounts p = none
  | _ => True

def EverAuthenticated (uid : Uid) : List Obs → Prop :=
  Since (fun o => ∃ mu, o = .accepted uid mu) (· = .destroyed uid)

structure Settled (p : Session) : Prop where
  canFinish : p.needLog = true → ∃ m, p.mech = some m ∧ m.CanFinish
  waiting : p.needLog = false → p.authzid = none ∨ ChallengePending p

/-- What holds of a live session after the observations `t`. -/
structure SessionOk (cfg : ServConfig) (db : Accounts) (uid : Uid) (t : List Obs) (p : Session) :
    Prop where
  settled : Settled p
  authenticated : p.needLog = true → ∃ mu, loginAccount cfg db p = some mu ∧ Authenticated uid mu t

structure Inv (cfg : ServConfig) (names : List (MyUserRef × CString) × List MyNick) (s : State)
    (t : List Obs) : Prop where
  names : s.accounts.names = names
  session : ∀ uid p, s.sessions.find uid = some p → SessionOk cfg s.accounts uid t p
  noted : ∀ uid, EverAuthenticated uid t → ∃ p, s.sessions.find uid = some p ∧ p.needLog = true

theorem loginAccount_congr (cfg : ServConfig) {db db' : Accounts} (h : db'.names = db.names)
    (p : Session) : loginAccount cfg db' p = loginAccount cfg db p := by
  unfold loginAccount
  cases p.authzid with
  | none => rfl
  | some z => exact myuserFindByNick_congr cfg.toConfig h z

theorem settled_fresh : Settled .fresh :=
  ⟨fun h => Bool.noConfusion h, fun _ => .inl rfl⟩

/-! ### Observations that bear on no session but one -/

def Neutral (obs : List Obs) : Prop :=
  ∀ o ∈ obs, (∀ u mu, o ≠ .accepted u mu) ∧ (∀ u, o ≠ .destroyed u) ∧
    ∀ u mu d, o ≠ .myuserLogin u mu d

theorem neutral_of_quiet {obs : List Obs} (h : Quiet obs) : Neutral obs := by
  intro o ho
  have hq := h o ho
  cases o <;> simp_all [Obs.Quiet]

theorem Neutral.cons_packet {obs : List Obs} (h : Neutral obs) (uid : Uid) (buf : CString) :
    Neutral (.packet uid buf :: obs) := by
  intro o ho
  cases List.mem_cons.mp ho with
  | inl ho => simp [ho]
  | inr ho => exact h o ho

theorem always_of_message {uid : Uid} {obs : List Obs} (h : ∀ o ∈ obs, o.OfMessage uid)
    (t : List Obs) : Always (after t Justified) obs := by
  refine always_of_quiet fun o ho pre => ?_
  cases o with
  | myuserLogin u mu d => exact (h _ ho).elim
  | _ => trivial

theorem authenticated_other {uid u : Uid} {obs : List Obs} (h : ∀ o ∈ obs, o.OfMessage uid)
    (hu : u ≠ uid) (mu : MyUserRef) (t : List Obs) :
    Authenticated u mu (t ++ obs) ↔ Authenticated u mu t := by
  refine since_append_of_quiet (fun o ho he => ?_) (fun o ho he => ?_)
  · exact hu (he ▸ h o ho : (Obs.accepted u mu).OfMessage uid)
  · exact hu (he ▸ h o ho : (Obs.destroyed u).OfMessage uid)

theorem everAuthenticated_other {uid u : Uid} {obs : List Obs} (h : ∀ o ∈ obs, o.OfMessage uid)
    (hu : u ≠ uid) (t : List Obs) : EverAuthenticated u (t ++ obs) ↔ EverAuthenticated u t := by
  refine since_append_of_quiet (fun o ho he => ?_) (fun o ho he => ?_)
  · obtain ⟨mu, he⟩ := he
    exact hu (he ▸ h o ho : (Obs.accepted u mu).OfMessage uid)
  · exact hu (he ▸ h o ho : (Obs.destroyed u).OfMessage uid)

theorem authenticated_neutral {obs : List Obs} (h : Neutral obs) (u : Uid) (mu : MyUserRef)
    (t : List Obs) : Authenticated u mu (t ++ obs) ↔ Authenticated u mu t :=
  since_append_of_quiet (fun o ho he => (h o ho).1 u mu he) (fun o ho he => (h o ho).2.1 u he)

theorem everAuthenticated_neutral {obs : List Obs} (h : Neutral obs) (u : Uid) (t : List Obs) :
    EverAuthenticated u (t ++ obs) ↔ EverAuthenticated u t :=
  since_append_of_quiet (fun o ho ⟨mu, he⟩ => (h o ho).1 u mu he)
    (fun o ho he => (h o ho).2.1 u he)

theorem not_everAuthenticated_destroyed (uid : Uid) (t obs behind : List Obs) :
    ¬ EverAuthenticated uid (t ++ (obs ++ .destroyed uid :: behind)) ∨
      ∃ mu, .accepted uid mu ∈ behind := by
  rw [or_iff_not_imp_right]
  intro hb h
  rw [EverAuthenticated, ← List.append_assoc, since_append] at h
  cases h with
  | inl h =>
    rw [← List.singleton_append, since_append, since_singleton] at h
    cases h with
    | inl h =>
      obtain ⟨o, ho, mu, rfl⟩ := h.exists_mem
      exact hb ⟨mu, ho⟩
    | inr h =>
      obtain ⟨⟨mu, he⟩, -⟩ := h
      cases he
  | inr h => exact h.2 (.destroyed uid) (by simp) rfl

/-! ### Messages -/

inductive Effect (cfg : ServConfig) (db : Accounts) (uid : Uid) (p : Session) :
    PacketResult → Prop where
  | kept {q : Session} {obs : List Obs} (neutral : Neutral obs) (settled : Settled q)
      (needLog : q.needLog = p.needLog)
      (authzid : q.needLog = true → q.authzid = p.authzid) : Effect cfg db uid p ⟨some q, db, obs⟩
  | accepted {q : Session} {db' : Accounts} {mu : MyUserRef} {before behind : List Obs}
      (names : db'.names = db.names) (hb : Neutral before) (ha : Neutral behind)
      (settled : Settled q) (needLog : q.needLog = true)
      (account : loginAccount cfg db q = some mu) :
      Effect cfg db uid p ⟨some q, db', before ++ .accepted uid mu :: behind⟩
  | destroyed {db' : Accounts} {obs : List Obs} (names : db'.names = db.names)
      (ho : Neutral obs) : Effect cfg db uid p ⟨none, db', obs ++ [.destroyed uid]⟩

theorem Advance.settled {p : Session} {m : MechResult} (h : Advance p m) (hp : Settled p)
    (hrc : m.rc = .more) : Settled { m.session with markedForDeletion := false } := by
  cases h with
  | start k hm =>
    refine ⟨fun hn => ?_, fun hn => ?_⟩
    · obtain ⟨m', hm', -⟩ := hp.canFinish hn
      rw [hm] at hm'
      cases hm'
    · cases hp.waiting hn with
      | inl hz => exact .inl hz
      | inr hc =>
        obtain ⟨-, m', hm', -⟩ := hc
        rw [hm] at hm'
        cases hm'
  | step hm hr =>
    obtain ⟨hnot, m', hm', hw⟩ := hr.more hrc
    refine ⟨fun hn => ?_, fun hn => .inr ⟨hn, m', hm', hw⟩⟩
    obtain ⟨m'', hm'', hc⟩ := hp.canFinish (hr.needLog ▸ hn)
    rw [hm] at hm''
    cases hm''
    exact absurd hc hnot

theorem Advance.not_more_of_needLog {p : Session} {m : MechResult} (h : Advance p m)
    (hp : Settled p) (hn : p.needLog = true) : m.rc ≠ .more := by
  intro hrc
  obtain ⟨k, hk, hc⟩ := hp.canFinish hn
  cases h with
  | start k' hm =>
    rw [hm] at hk
    cases hk
  | step hm hr =>
    rw [hm] at hk
    cases hk
    exact (hr.more hrc).1 hc

theorem Advance.done_canFinish {p : Session} {m : MechResult} (h : Advance p m)
    (hrc : m.rc = .done) : ∃ k, m.session.mech = some k ∧ k.CanFinish := by
  cases h with
  | start k hm => simp [mechStart] at hrc
  | step hm hr =>
    obtain ⟨hc, hmech⟩ := hr.done hrc
    exact ⟨_, hmech.trans hm, hc⟩

theorem packet_effect {cfg : ServConfig} {db : Accounts} {uid : Uid} {p : Session}
    {m : MechResult} {r : PacketResult} (buf : CString) (hp : Settled { p with buf := none })
    (ha : Advance { p with buf := none } m) (hr : PacketSpec cfg db uid m r) :
    Effect cfg db uid p { r with obs := .packet uid buf :: r.obs } := by
  have hneed := ha.needLog
  cases hr with
  | accepted done find names hb ha' =>
    obtain ⟨k, hk, hc⟩ := ha.done_canFinish done
    exact .accepted names ((neutral_of_quiet hb).cons_packet uid buf) (neutral_of_quiet ha')
      ⟨fun _ => ⟨k, hk, hc⟩, fun h => Bool.noConfusion h⟩ rfl find
  | destroyed names ho => exact .destroyed names ((neutral_of_quiet ho).cons_packet uid buf)
  | more more ho =>
    refine .kept ((neutral_of_quiet ho).cons_packet uid buf) (ha.settled hp more) hneed fun hn => ?_
    exact absurd more (ha.not_more_of_needLog hp (hneed ▸ hn))

theorem Settled.congr {p q : Session} (h : Settled p) (hn : q.needLog = p.needLog)
    (hm : q.mech = p.mech) (hz : q.authzid = p.authzid) : Settled q := by
  obtain ⟨hc, hw⟩ := h
  refine ⟨fun h => hm ▸ hc (hn ▸ h), fun h => ?_⟩
  rw [hz, ChallengePending, hn, hm]
  exact hw (hn ▸ h)

theorem Effect.of_eq {cfg : ServConfig} {db : Accounts} {uid : Uid} {p q : Session}
    {r : PacketResult} (h : Effect cfg db uid q r) (hn : q.needLog = p.needLog)
    (hz : q.authzid = p.authzid) : Effect cfg db uid p r := by
  cases h with
  | kept neutral settled needLog authzid =>
    exact .kept neutral settled (needLog.trans hn) fun h => (authzid h).trans hz
  | accepted names hb ha settled needLog account =>
    exact .accepted names hb ha settled needLog account
  | destroyed names ho => exact .destroyed names ho

theorem saslData_effect (cfg : ServConfig) (w : World) (db : Accounts) (uid : Uid) {p q : Session}
    (hp : Settled p) (hn : q.needLog = p.needLog) (hm : q.mech = p.mech)
    (hz : q.authzid = p.authzid) (data : CString) :
    Effect cfg db uid p (saslData cfg w db uid q data) := by
  have hd := saslData_spec cfg w db uid q data
  generalize saslData cfg w db uid q data = r at hd
  cases hd with
  | stored buf =>
    exact .kept (neutral_of_quiet quiet_nil) (hp.congr hn hm hz) hn fun _ => hz
  | overflow =>
    exact .destroyed rfl (neutral_of_quiet (quiet_sts uid 'D' ['F']))
  | @packet buf m r ha hr =>
    exact (packet_effect buf (hp.congr hn hm hz) ha hr).of_eq hn hz

theorem inputSession_effect (cfg : ServConfig) (w : World) (db : Accounts) {p : Session}
    (hp : Settled p) (msg : SaslMessage) :
    Effect cfg db msg.uid p (inputSession cfg w db p msg) := by
  have hstart : (startInfo p msg).needLog = p.needLog ∧ (startInfo p msg).mech = p.mech ∧
      (startInfo p msg).authzid = p.authzid := by
    unfold startInfo
    split
    · split <;> exact ⟨rfl, rfl, rfl⟩
    · exact ⟨rfl, rfl, rfl⟩
  unfold inputSession
  split
  · exact .kept (neutral_of_quiet quiet_nil) (hp.congr rfl rfl rfl) rfl fun _ => rfl
  · exact saslData_effect cfg w db msg.uid hp hstart.1 hstart.2.1 hstart.2.2 _
  · exact saslData_effect cfg w db msg.uid hp rfl rfl rfl _
  · exact .destroyed rfl (neutral_of_quiet quiet_nil)
  · exact .kept (neutral_of_quiet quiet_nil) hp rfl fun _ => rfl

theorem Effect.names {cfg : ServConfig} {db : Accounts} {uid : Uid} {p : Session}
    {r : PacketResult} (h : Effect cfg db uid p r) : r.accounts.names = db.names := by
  cases h with
  | kept => rfl
  | accepted names => exact names
  | destroyed names => exact names

theorem Effect.sessionOk {cfg : ServConfig} {db : Accounts} {uid : Uid} {p : Session}
    {t : List Obs} {r : PacketResult} (h : Effect cfg db uid p r)
    (hp : SessionOk cfg db uid t p) {q : Session} (hq : r.session = some q) :
    SessionOk cfg r.accounts uid (t ++ r.obs) q := by
  cases h with
  | kept neutral settled needLog authzid =>
    cases hq
    refine ⟨settled, fun hn => ?_⟩
    obtain ⟨mu, hmu, ht⟩ := hp.authenticated (needLog ▸ hn)
    refine ⟨mu, ?_, (authenticated_neutral neutral uid mu t).mpr ht⟩
    rw [loginAccount, authzid hn]
    exact hmu
  | @accepted q db' mu before behind names hb ha settled needLog account =>
    cases hq
    refine ⟨settled, fun _ => ⟨mu, (loginAccount_congr cfg names _).trans account, ?_⟩⟩
    have hnow : Authenticated uid mu ([.accepted uid mu] ++ behind) :=
      (authenticated_neutral ha uid mu _).mpr ((since_singleton _).mpr rfl)
    exact (since_append _ _).mpr (.inl ((since_append _ _).mpr (.inl hnow)))
  | destroyed names ho => cases hq

theorem Effect.noted {cfg : ServConfig} {db : Accounts} {uid : Uid} {p : Session}
    {t : List Obs} {r : PacketResult} (h : Effect cfg db uid p r)
    (hp : EverAuthenticated uid t → p.needLog = true) (ht : EverAuthenticated uid (t ++ r.obs)) :
    ∃ q, r.session = some q ∧ q.needLog = true := by
  cases h with
  | @kept q obs neutral settled needLog authzid =>
    have hold := (everAuthenticated_neutral neutral uid t).mp ht
    exact ⟨q, rfl, needLog.trans (hp hold)⟩
  | @accepted q db' mu before behind names hb ha settled needLog account => exact ⟨q, rfl, needLog⟩
  | @destroyed db' obs names ho =>
    cases not_everAuthenticated_destroyed uid t obs [] with
    | inl h => exact absurd ht h
    | inr h => simp at h

theorem sessionOk_sessionOf {cfg : ServConfig} {names : List (MyUserRef × CString) × List MyNick}
    {s : State} {t : List Obs} (h : Inv cfg names s t) (uid : Uid) :
    SessionOk cfg s.accounts uid t (sessionOf s uid) := by
  cases hs : s.sessions.find uid with
  | none =>
    rw [sessionOf, hs]
    exact ⟨settled_fresh, fun h => Bool.noConfusion h⟩
  | some p =>
    rw [sessionOf, hs]
    exact h.session uid p hs

theorem inv_message {cfg : ServConfig} {names : List (MyUserRef × CString) × List MyNick}
    {s : State} {t : List Obs} (h : Inv cfg names s t) (w : World) (msg : SaslMessage) :
    Inv cfg names (saslInput cfg w s msg).1 (t ++ (saslInput cfg w s msg).2) ∧
      Always (after t Justified) (saslInput cfg w s msg).2 := by
  have hp := sessionOk_sessionOf h msg.uid
  have he := inputSession_effect cfg w s.accounts hp.settled msg
  have hnames := he.names
  have hobs := saslInput_ofMessage cfg w s msg
  rw [obs_saslInput] at hobs ⊢
  refine ⟨⟨?_, ?_, ?_⟩, always_of_message hobs t⟩
  · rw [accounts_saslInput, hnames, h.names]
  · intro u q hq
    rw [find_saslInput] at hq
    rw [accounts_saslInput]
    by_cases hu : u = msg.uid
    · subst hu
      rw [if_pos rfl] at hq
      exact he.sessionOk hp hq
    · rw [if_neg hu] at hq
      have hold := h.session u q hq
      refine ⟨hold.settled, fun hn => ?_⟩
      obtain ⟨mu, hmu, ht⟩ := hold.authenticated hn
      exact ⟨mu, (loginAccount_congr cfg hnames q).trans hmu,
        (authenticated_other hobs hu mu t).mpr ht⟩
  · intro u hu
    rw [find_saslInput]
    by_cases heq : u = msg.uid
    · subst heq
      rw [if_pos rfl]
      refine he.noted (fun hev => ?_) hu
      obtain ⟨p, hfind, hn⟩ := h.noted _ hev
      rw [sessionOf, hfind]
      exact hn
    · rw [if_neg heq]
      exact h.noted u ((everAuthenticated_other hobs heq t).mp hu)

/-! ### The stale timer -/

theorem mem_deleteStale_obs {s : State} {o : Obs} (h : o ∈ (deleteStale s).2) :
    ∃ uid p, o = .destroyed uid ∧ s.sessions.find uid = some p ∧ p.markedForDeletion = true := by
  simp only [deleteStale, List.mem_map, List.mem_filter] at h
  obtain ⟨⟨uid, p⟩, ⟨hmem, hmark⟩, rfl⟩ := h
  exact ⟨uid, p, rfl, (Registry.find_eq_some_iff _ _ _).mpr hmem, hmark⟩

theorem destroyed_mem_deleteStale {s : State} {uid : Uid} {p : Session}
    (h : s.sessions.find uid = some p) (hm : p.markedForDeletion = true) :
    Obs.destroyed uid ∈ (deleteStale s).2 := by
  simp only [deleteStale, List.mem_map, List.mem_filter]
  exact ⟨(uid, p), ⟨(Registry.find_eq_some_iff _ _ _).mp h, hm⟩, rfl⟩

theorem find_deleteStale {s : State} {uid : Uid} {q : Session}
    (h : (deleteStale s).1.sessions.find uid = some q) :
    ∃ p, s.sessions.find uid = some p ∧ p.markedForDeletion = false ∧
      q = { p with markedForDeletion := true } := by
  simp only [deleteStale, Registry.find_update, Option.bind_eq_some_iff, ageSession] at h
  obtain ⟨p, hp, hq⟩ := h
  cases hm : p.markedForDeletion with
  | true => simp [hm] at hq
  | false =>
    simp only [hm, Bool.false_eq_true, if_false, Option.some.injEq] at hq
    exact ⟨p, hp, hm, hq.symm⟩

theorem inv_sweep {cfg : ServConfig} {names : List (MyUserRef × CString) × List MyNick}
    {s : State} {t : List Obs} (h : Inv cfg names s t) :
    Inv cfg names (deleteStale s).1 (t ++ (deleteStale s).2) ∧
      Always (after t Justified) (deleteStale s).2 := by
  refine ⟨⟨h.names, ?_, ?_⟩, ?_⟩
  · intro u q hq
    obtain ⟨p, hp, hm, rfl⟩ := find_deleteStale hq
    have hold := h.session u p hp
    refine ⟨hold.settled.congr rfl rfl rfl, fun hn => ?_⟩
    obtain ⟨mu, hmu, ht⟩ := hold.authenticated hn
    refine ⟨mu, hmu, (since_append_of_quiet ?_ ?_).mpr ht⟩
    · intro o ho he
      obtain ⟨u', p', rfl, -⟩ := mem_deleteStale_obs ho
      cases he
    · intro o ho he
      obtain ⟨u', p', rfl, hp', hm'⟩ := mem_deleteStale_obs ho
      cases he
      rw [hp] at hp'
      cases hp'
      rw [hm] at hm'
      cases hm'
  · intro u hu
    cases (since_append t _).mp hu with
    | inl hu =>
      obtain ⟨o, ho, mu, rfl⟩ := hu.exists_mem
      obtain ⟨u', p', he, -⟩ := mem_deleteStale_obs ho
      cases he
    | inr hu =>
      obtain ⟨p, hp, hn⟩ := h.noted u hu.1
      have hm : p.markedForDeletion = false := by
        cases hm : p.markedForDeletion with
        | false => rfl
        | true => exact absurd rfl (hu.2 _ (destroyed_mem_deleteStale hp hm))
      refine ⟨{ p with markedForDeletion := true }, ?_, hn⟩
      simp [deleteStale, Registry.find_update, hp, ageSession, hm]
  · refine always_of_quiet fun o ho pre => ?_
    obtain ⟨u, p, rfl, -⟩ := mem_deleteStale_obs ho
    trivial

/-! ### Introductions -/

theorem inv_erase {cfg : ServConfig} {names : List (MyUserRef × CString) × List MyNick}
    {s : State} {t : List Obs} (h : Inv cfg names s t) {uid : Uid} {db : Accounts}
    (hdb : db.names = s.accounts.names) {obs behind : List Obs}
    (ho : ∀ o ∈ obs ++ .destroyed uid :: behind,
      (∀ u mu, o ≠ .accepted u mu) ∧ ∀ u, o = .destroyed u → u = uid) :
    Inv cfg names ⟨s.sessions.erase uid, db⟩ (t ++ (obs ++ .destroyed uid :: behind)) := by
  have hquiet : ∀ u, u ≠ uid → ∀ mu, Authenticated u mu (t ++ (obs ++ .destroyed uid :: behind)) ↔
      Authenticated u mu t := fun u hu mu =>
    since_append_of_quiet (fun o hm he => (ho o hm).1 u mu he)
      (fun o hm he => hu ((ho o hm).2 u he))
  refine ⟨hdb.trans h.names, ?_, ?_⟩
  · intro u q hq
    rw [Registry.find_erase] at hq
    by_cases hu : u = uid
    · rw [if_pos hu] at hq
      cases hq
    · rw [if_neg hu] at hq
      have hold := h.session u q hq
      refine ⟨hold.settled, fun hn => ?_⟩
      obtain ⟨mu, hmu, ht⟩ := hold.authenticated hn
      exact ⟨mu, (loginAccount_congr cfg hdb q).trans hmu, (hquiet u hu mu).mpr ht⟩
  · intro u hu
    rw [Registry.find_erase]
    by_cases heq : u = uid
    · subst heq
      cases not_everAuthenticated_destroyed u t obs behind with
      | inl hnot => exact absurd hu hnot
      | inr hacc =>
        obtain ⟨mu, hmem⟩ := hacc
        exact absurd rfl ((ho (.accepted u mu) (by simp [hmem])).1 u mu)
    · rw [if_neg heq]
      refine h.noted u ((since_append_of_quiet ?_ ?_).mp hu)
      · rintro o hm ⟨mu, he⟩
        exact (ho o hm).1 u mu he
      · exact fun o hm he => heq ((ho o hm).2 u he)

theorem myuserLogin_spec (w : World) (db : Accounts) (u : User) (mu : MyUserRef) (d : CString) :
    (myuserLogin w db u mu d).1.names = db.names ∧
      ∃ rest, (myuserLogin w db u mu d).2 = .myuserLogin u.uid mu d :: rest ∧
        ∀ o ∈ rest, ∃ account, o = .loggedIn u mu account := by
  unfold myuserLogin
  split
  · rename_i account _ _
    exact ⟨names_modify mu (addLogin u w.currtime) (fun _ => rfl) db,
      [.loggedIn u mu account], rfl, by simp⟩
  · exact ⟨rfl, [], rfl, by simp⟩

theorem inv_newuser {cfg : ServConfig} {names : List (MyUserRef × CString) × List MyNick}
    {s : State} {t : List Obs} (h : Inv cfg names s t) (w : World) (u : User)
    (hg : NoPendingIntroduction cfg s (.newuser w u)) :
    Inv cfg names (saslNewuser cfg w s u).1 (t ++ (saslNewuser cfg w s u).2) ∧
      Always (after t Justified) (saslNewuser cfg w s u).2 := by
  unfold saslNewuser
  split
  · simpa using h
  · rename_i p hp
    split
    · rename_i hnone
      have hobs := @inv_erase cfg names s t h u.uid s.accounts rfl
        [.notice u.nick "Account %s dropped, login cancelled" [p.authzid.getD "??".toList]] []
        (by simp)
      exact ⟨hobs, by simp [Justified]⟩
    · rename_i mu hmu
      obtain ⟨hnames, rest, hobs, hrest⟩ :=
        myuserLogin_spec w s.accounts u mu (loginDescription p)
      have hsession := h.session u.uid p hp
      have hneed : p.needLog = true := by
        by_contra hn
        rw [Bool.not_eq_true] at hn
        cases hsession.settled.waiting hn with
        | inl hz => simp [hz] at hmu
        | inr hc =>
          have := hg p hp hc
          rw [loginAccount, hmu] at this
          cases this
      have hauth : Authenticated u.uid mu t := by
        obtain ⟨mu', hmu', ht⟩ := hsession.authenticated hneed
        rw [loginAccount, hmu] at hmu'
        cases hmu'
        exact ht
      dsimp only
      rw [hobs]
      refine ⟨inv_erase h hnames ?_, ?_⟩
      · intro o ho
        simp only [List.mem_append, List.mem_cons] at ho
        rcases ho with (rfl | ho) | rfl | rfl | ho
        · simp
        · obtain ⟨account, rfl⟩ := hrest o ho
          simp
        · simp
        · simp
        · simp at ho
      · rw [List.cons_append, always_cons]
        refine ⟨by simpa [Justified] using hauth, always_of_quiet fun o ho pre => ?_⟩
        simp only [List.mem_append, List.mem_cons] at ho
        rcases ho with ho | rfl | rfl | ho
        · obtain ⟨account, rfl⟩ := hrest o ho
          trivial
        · trivial
        · trivial
        · simp at ho

theorem newuser_unjustified {cfg : ServConfig}
    {names : List (MyUserRef × CString) × List MyNick} {s : State} {t : List Obs}
    (h : Inv cfg names s t) (w : World) (u : User)
    (hg : ¬ NoPendingIntroduction cfg s (.newuser w u)) :
    ¬ Always (after t Justified) (saslNewuser cfg w s u).2 := by
  simp only [NoPendingIntroduction, not_forall] at hg
  obtain ⟨p, hp, hc, hacc⟩ := hg
  obtain ⟨mu, hmu⟩ := Option.ne_none_iff_exists'.mp hacc
  obtain ⟨-, rest, hobs, -⟩ := myuserLogin_spec w s.accounts u mu (loginDescription p)
  rw [loginAccount] at hmu
  intro hall
  simp only [saslNewuser, hp, hmu, hobs, List.cons_append, always_cons] at hall
  have hauth : Authenticated u.uid mu t := by simpa [Justified] using hall.1
  obtain ⟨q, hq, hn⟩ := h.noted u.uid (hauth.mono fun o ho => ⟨mu, ho⟩)
  rw [hp] at hq
  cases hq
  rw [hc.1] at hn
  cases hn

/-! ### Runs -/

theorem inv_initial (cfg : ServConfig) (db : Accounts) :
    Inv cfg db.names (.initial db) [] := by
  refine ⟨rfl, fun uid p h => ?_, fun uid h => ?_⟩
  · simp [State.initial] at h
  · exact absurd h since_nil

theorem step_justified {cfg : ServConfig} {names : List (MyUserRef × CString) × List MyNick}
    (s : State) (t : List Obs) (e : Event) (h : Inv cfg names s t)
    (hg : NoPendingIntroduction cfg s e) :
    Inv cfg names (step cfg s e).1 (t ++ (step cfg s e).2) ∧
      Always (after t Justified) (step cfg s e).2 := by
  cases e with
  | message w msg => exact inv_message h w msg
  | sweep => exact inv_sweep h
  | newuser w u => exact inv_newuser h w u hg

theorem step_unjustified {cfg : ServConfig} {names : List (MyUserRef × CString) × List MyNick}
    (s : State) (t : List Obs) (e : Event) (h : Inv cfg names s t)
    (hg : ¬ NoPendingIntroduction cfg s e) : ¬ Always (after t Justified) (step cfg s e).2 := by
  cases e with
  | message w msg => exact absurd trivial hg
  | sweep => exact absurd trivial hg
  | newuser w u => exact newuser_unjustified h w u hg

/-- A run of messages, timer sweeps and introductions logs every user in to the
account its own session was authenticated for, if and only if none of its
introductions meets a pending challenge whose authzid names an account. -/
theorem sasl_logins_justified_iff (cfg : ServConfig) (db : Accounts) (es : List Event) :
    Always Justified (run (step cfg) (.initial db) es).2 ↔
      Guarded (step cfg) (NoPendingIntroduction cfg) (.initial db) es := by
  have h := run_always_iff step_justified step_unjustified (inv_initial cfg db) es
  rw [after_nil] at h
  exact h

theorem not_always_justified {t : List Obs} {uid : Uid} {mu : MyUserRef} {d : CString}
    (hl : .myuserLogin uid mu d ∈ t) (ha : ∀ o ∈ t, o ≠ .accepted uid mu) :
    ¬ Always Justified t := by
  intro h
  obtain ⟨pre, post, rfl⟩ := List.append_of_mem hl
  obtain ⟨o, ho, he⟩ := (h pre _ post rfl).exists_mem
  exact ha o (by simp [ho]) he

/-- A client names its own keyed account and somebody else's as authzid, gets the
challenge, and is introduced instead of answering it. -/
def pendingRun : List Event :=
  [.message .refusing ⟨sampleUser.uid, .S, "ECDSA-NIST256P-CHALLENGE".toList, []⟩,
   .message .refusing ⟨sampleUser.uid, .C, "bWFsbG9yeQBhZG1pbg==".toList, []⟩,
   .newuser .refusing sampleUser]

theorem pending_challenge_logs_in :
    ¬ Always Justified (run (step sampleConfig) (.initial sampleAccounts) pendingRun).2 :=
  @not_always_justified _ sampleUser.uid 1 "SASL ECDSA-NIST256P-CHALLENGE".toList
    (by decide) (by decide)

end ChatServices.Sasl
