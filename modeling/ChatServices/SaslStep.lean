import ChatServices.SaslServ

/-! What each operation of the SASL service can do, one lemma an operation: later
modules reason from these and unfold nothing. -/
namespace ChatServices.Sasl
open ChatServices.Lib ChatServices.Lib.Mask ChatServices.Text

def Obs.Quiet : Obs → Prop
  | .sts .. | .svslogin .. | .notice .. | .badPassword .. => True
  | _ => False

def Quiet (obs : List Obs) : Prop := ∀ o ∈ obs, o.Quiet

@[simp] theorem quiet_nil : Quiet [] := by simp [Quiet]

theorem quiet_append {xs ys : List Obs} (hx : Quiet xs) (hy : Quiet ys) : Quiet (xs ++ ys) := by
  intro o ho
  cases List.mem_append.mp ho with
  | inl h => exact hx o h
  | inr h => exact hy o h

theorem quiet_sts (uid : Uid) (c : Char) (data : CString) : Quiet [.sts uid c data] := by
  simp [Quiet, Obs.Quiet]

theorem quiet_map_sts (uid : Uid) (c : Char) (xs : List CString) :
    Quiet (xs.map (Obs.sts uid c)) := by
  simp [Quiet, Obs.Quiet]

theorem quiet_failedAuth (cfg : ServConfig) (db : Accounts) (p : Session) :
    Quiet (failedAuth cfg db p) := by
  unfold failedAuth
  split <;> simp [Quiet, Obs.Quiet]

theorem quiet_acceptObs (db : Accounts) (uid : Uid) (mu : MyUserRef) :
    Quiet (acceptObs db uid mu) := by
  unfold acceptObs
  split <;> simp [Quiet, Obs.Quiet]

/-! ### The mechanisms -/

def AwaitsResponse (m : MechState) : Prop := ∃ s, m = .ecdsa s ∧ s.step = .response

instance (m : MechState) : Decidable (AwaitsResponse m) :=
  match m with
  | .plain => isFalse (by rintro ⟨s, h, -⟩; cases h)
  | .authcookie => isFalse (by rintro ⟨s, h, -⟩; cases h)
  | .external => isFalse (by rintro ⟨s, h, -⟩; cases h)
  | .ecdsa s => decidable_of_iff (s.step = .response)
      ⟨fun h => ⟨s, rfl, h⟩, by rintro ⟨s', h, hs⟩; cases h; exact hs⟩

def MechState.CanFinish (m : MechState) : Prop := ∀ s, m = .ecdsa s → s.step = .response

structure StepSpec (p : Session) (m : MechState) (r : MechResult) : Prop where
  needLog : r.session.needLog = p.needLog
  buf : r.session.buf = p.buf
  more : r.rc = .more → ¬ m.CanFinish ∧ ∃ m', r.session.mech = some m' ∧ AwaitsResponse m'
  done : r.rc = .done → m.CanFinish ∧ r.session.mech = p.mech

theorem failed_spec (p q : Session) (m : MechState) (hn : q.needLog = p.needLog)
    (hb : q.buf = p.buf) : StepSpec p m (failed q) :=
  ⟨hn, hb, by simp [failed], by simp [failed]⟩

theorem plain_canFinish : MechState.plain.CanFinish := by
  intro s h
  cases h

theorem authcookie_canFinish : MechState.authcookie.CanFinish := by
  intro s h
  cases h

theorem external_canFinish : MechState.external.CanFinish := by
  intro s h
  cases h

theorem plainStep_spec (cfg : Config) (w : World) (db : Accounts) (p : Session)
    (message : CString) : StepSpec p .plain (plainStep cfg w db p message) := by
  unfold plainStep
  dsimp only
  repeat' split
  all_goals first
    | exact failed_spec p _ _ rfl rfl
    | exact ⟨rfl, rfl, by simp, fun _ => ⟨plain_canFinish, rfl⟩⟩

theorem authcookieStep_spec (cfg : Config) (w : World) (db : Accounts) (p : Session)
    (message : CString) : StepSpec p .authcookie (authcookieStep cfg w db p message) := by
  unfold authcookieStep
  dsimp only
  repeat' split
  all_goals first
    | exact failed_spec p _ _ rfl rfl
    | exact ⟨rfl, rfl, by simp, fun _ => ⟨authcookie_canFinish, rfl⟩⟩

theorem externalStep_spec (w : World) (db : Accounts) (p : Session) (message : CString) :
    StepSpec p .external (externalStep w db p message) := by
  unfold externalStep
  split
  · exact failed_spec p _ _ rfl rfl
  · split
    · exact failed_spec p _ _ rfl rfl
    · exact ⟨rfl, rfl, by simp, fun _ => ⟨external_canFinish, rfl⟩⟩

theorem mechStepAccname_spec (cfg : Config) (w : World) (db : Accounts) (p : Session)
    (s : EcdsaSession) (hs : s.step ≠ .response) (message : CString) :
    StepSpec p (.ecdsa s) (mechStepAccname cfg w db p s message) := by
  unfold mechStepAccname
  dsimp only
  split
  · exact failed_spec p _ _ rfl rfl
  · split
    · exact failed_spec p _ _ rfl rfl
    · split
      · exact failed_spec p _ _ rfl rfl
      · refine ⟨rfl, rfl, fun _ => ⟨fun h => hs (h s rfl), _, rfl, _, rfl, rfl⟩, by simp⟩

theorem mechStepResponse_spec (w : World) (p : Session) (s : EcdsaSession)
    (hs : s.step = .response) (message : CString) :
    StepSpec p (.ecdsa s) (mechStepResponse w p s message) := by
  unfold mechStepResponse
  split
  · exact failed_spec p _ _ rfl rfl
  · refine ⟨rfl, rfl, by simp, fun _ => ⟨fun s' h => ?_, rfl⟩⟩
    cases h
    exact hs

theorem mechStep_spec (cfg : Config) (w : World) (db : Accounts) (p : Session) (m : MechState)
    (message : CString) : StepSpec p m (mechStep cfg w db p m message) := by
  cases m with
  | plain => exact plainStep_spec cfg w db p message
  | authcookie => exact authcookieStep_spec cfg w db p message
  | external => exact externalStep_spec w db p message
  | ecdsa s =>
    simp only [mechStep, ecdsaMechStep]
    cases hs : s.step with
    | init => exact failed_spec p _ _ rfl rfl
    | accname => exact mechStepAccname_spec cfg w db p s (by simp [hs]) message
    | response => exact mechStepResponse_spec w p s hs message

theorem stepMessage_spec (cfg : ServConfig) (w : World) (db : Accounts) (p : Session)
    (m : MechState) (buf : CString) : StepSpec p m (stepMessage cfg w db p m buf) := by
  unfold stepMessage
  split
  · exact mechStep_spec _ _ db p m _
  · split
    · exact mechStep_spec _ _ db p m _
    · exact failed_spec p _ _ rfl rfl

/-! ### The login decision -/

theorem loginTarget_spec (cfg : ServConfig) (db : Accounts) (p : Session) (source : MyUserRef)
    (hs : p.username.bind (myuserFindByNick cfg.toConfig db) = some source) :
    ∃ authzid, (loginTarget cfg db p source).2 = { p with authzid := authzid } ∧
      ∀ target, (loginTarget cfg db p source).1 = some target →
        authzid.bind (myuserFindByNick cfg.toConfig db) = some target := by
  unfold loginTarget
  split
  · rename_i c cs h
    exact ⟨p.authzid, rfl, fun target ht => by rw [h]; exact ht⟩
  · refine ⟨p.username, rfl, fun target ht => ?_⟩
    cases ht
    exact hs

theorem names_markPendingLogin (db : Accounts) (mu : MyUserRef) :
    (db.modify mu markPendingLogin).names = db.names :=
  names_modify mu markPendingLogin (fun _ => rfl) db

/-- `login_user` touches no names, sends notices only, and when it returns an account
the session is left with the log flag and an authzid that names this account. -/
structure LoginSpec (cfg : ServConfig) (db : Accounts) (p : Session) (l : LoginResult) : Prop where
  names : l.accounts.names = db.names
  quiet : Quiet l.obs
  session : ∀ mu, l.mu = some mu → ∃ z, myuserFindByNick cfg.toConfig db z = some mu ∧
    l.session = { p with needLog := true, authzid := some z }

theorem refused_spec (cfg : ServConfig) (db : Accounts) (p q : Session) {obs : List Obs}
    (h : Quiet obs) : LoginSpec cfg db p ⟨none, q, db, obs⟩ :=
  ⟨rfl, h, by simp⟩

theorem loginUser_spec (cfg : ServConfig) (w : World) (db : Accounts) (p : Session) :
    LoginSpec cfg db p (loginUser cfg w db p) := by
  unfold loginUser
  split
  · exact refused_spec cfg db p p quiet_nil
  · rename_i source hs
    split
    · exact refused_spec cfg db p p quiet_nil
    · obtain ⟨authzid, hq, ht⟩ := loginTarget_spec cfg db p source hs
      split
      · exact refused_spec cfg db p _ quiet_nil
      · rename_i target q htq
        rw [htq] at hq ht
        obtain ⟨z, hz, hfind⟩ := Option.bind_eq_some_iff.mp (ht target rfl)
        have hnotice : Quiet ((strictRefused cfg db source target).map
            (fun u => Obs.notice u.nick strictNotice [])) := by simp [Quiet, Obs.Quiet]
        repeat' split
        all_goals first
          | exact refused_spec cfg db p _ hnotice
          | exact refused_spec cfg db p _ quiet_nil
          | skip
        · refine ⟨names_markPendingLogin db target, quiet_nil, fun mu hmu => ⟨z, ?_, ?_⟩⟩
          · cases hmu
            exact hfind
          · dsimp only at hq ⊢
            rw [hq, hz]
        · refine ⟨rfl, quiet_nil, fun mu hmu => ⟨z, ?_, ?_⟩⟩
          · cases hmu
            exact hfind
          · dsimp only at hq ⊢
            rw [hq, hz]

/-! ### A packet -/

inductive PacketSpec (cfg : ServConfig) (db : Accounts) (uid : Uid) (r : MechResult) :
    PacketResult → Prop where
  | accepted {db' : Accounts} {mu : MyUserRef} {z : CString} {before behind : List Obs}
      (done : r.rc = .done) (find : myuserFindByNick cfg.toConfig db z = some mu)
      (names : db'.names = db.names) (hb : Quiet before) (ha : Quiet behind) :
      PacketSpec cfg db uid r ⟨some { r.session with
        markedForDeletion := false, needLog := true, authzid := some z }, db',
        before ++ .accepted uid mu :: behind⟩
  | destroyed {db' : Accounts} {obs : List Obs} (names : db'.names = db.names) (ho : Quiet obs) :
      PacketSpec cfg db uid r ⟨none, db', obs ++ [.destroyed uid]⟩
  | more {obs : List Obs} (more : r.rc = .more) (ho : Quiet obs) :
      PacketSpec cfg db uid r ⟨some { r.session with markedForDeletion := false }, db, obs⟩

theorem failSession_spec (cfg : ServConfig) {db db' : Accounts} (uid : Uid) (r : MechResult)
    {obs : List Obs} (names : db'.names = db.names) (ho : Quiet obs) :
    PacketSpec cfg db uid r (failSession uid db' obs) := by
  have h : failSession uid db' obs =
      ⟨none, db', (obs ++ [.sts uid 'D' ['F']]) ++ [.destroyed uid]⟩ := by
    simp [failSession]
  rw [h]
  exact .destroyed names (quiet_append ho (quiet_sts uid 'D' ['F']))

theorem packetOutcome_spec (cfg : ServConfig) (w : World) (db : Accounts) (uid : Uid)
    (r : MechResult) : PacketSpec cfg db uid r (packetOutcome cfg w db uid r) := by
  unfold packetOutcome
  dsimp only
  split
  · rename_i hrc
    have hl := loginUser_spec cfg w db { r.session with markedForDeletion := false }
    split
    · rename_i mu hmu
      obtain ⟨z, hz, hsess⟩ := hl.session mu hmu
      rw [hsess]
      exact .accepted hrc hz hl.names hl.quiet (quiet_acceptObs _ uid mu)
    · exact failSession_spec cfg uid r hl.names hl.quiet
  · rename_i hrc
    split
    · exact .more hrc (quiet_map_sts uid 'C' _)
    · exact .more hrc (quiet_sts uid 'C' _)
  · exact failSession_spec cfg uid r rfl (quiet_failedAuth cfg db _)

inductive Advance (p : Session) : MechResult → Prop where
  | start (m : Mechanism) (h : p.mech = none) : Advance p (mechStart m p)
  | step {m : MechState} {r : MechResult} (h : p.mech = some m) (hr : StepSpec p m r) : Advance p r

theorem Advance.buf {p : Session} {r : MechResult} (h : Advance p r) : r.session.buf = p.buf := by
  cases h with
  | start m _ => cases m <;> rfl
  | step _ hr => exact hr.buf

theorem Advance.needLog {p : Session} {r : MechResult} (h : Advance p r) :
    r.session.needLog = p.needLog := by
  cases h with
  | start m _ => cases m <;> rfl
  | step _ hr => exact hr.needLog

theorem saslPacket_spec (cfg : ServConfig) (w : World) (db : Accounts) (uid : Uid) (p : Session)
    (buf : CString) : ∃ r, Advance p r ∧ PacketSpec cfg db uid r (saslPacket cfg w db uid p buf) := by
  unfold saslPacket
  split
  · rename_i hm
    split
    · exact ⟨_, .start .plain hm, failSession_spec cfg uid _ rfl quiet_nil⟩
    · split
      · exact ⟨_, .start .plain hm, failSession_spec cfg uid _ rfl (quiet_sts uid 'M' _)⟩
      · exact ⟨_, .start _ hm, packetOutcome_spec cfg w db uid _⟩
  · rename_i m hm
    exact ⟨_, .step hm (stepMessage_spec cfg w db p m buf), packetOutcome_spec cfg w db uid _⟩

/-! ### A piece of data -/

def Session.collected (p : Session) : CString := p.buf.getD []

theorem saslData_full (cfg : ServConfig) (w : World) (db : Accounts) (uid : Uid) {p : Session}
    {data : CString} (hroom : p.collected.length + data.length < maxBuffer)
    (hfull : pieceLen ≤ data.length) :
    saslData cfg w db uid p data = ⟨some { p with buf := some (p.collected ++ data) }, db, []⟩ := by
  have hlimit : ¬ (p.buf ≠ none ∧ (p.buf.getD []).length + data.length + 1 > maxBuffer) := by
    simp only [Session.collected] at hroom
    omega
  simp only [saslData, if_neg hlimit, if_neg (Nat.not_lt.mpr hfull), Session.collected]

theorem saslData_short (cfg : ServConfig) (w : World) (db : Accounts) (uid : Uid) {p : Session}
    {data : CString} (hroom : p.collected.length + data.length < maxBuffer)
    (hshort : data.length < pieceLen) :
    saslData cfg w db uid p data =
      { saslPacket cfg w db uid { p with buf := none } (p.collected ++ data) with
        obs := .packet uid (p.collected ++ data) ::
          (saslPacket cfg w db uid { p with buf := none } (p.collected ++ data)).obs } := by
  have hlimit : ¬ (p.buf ≠ none ∧ (p.buf.getD []).length + data.length + 1 > maxBuffer) := by
    simp only [Session.collected] at hroom
    omega
  simp only [saslData, if_neg hlimit, if_pos hshort, Session.collected]

inductive DataSpec (cfg : ServConfig) (db : Accounts) (uid : Uid) (p : Session) :
    PacketResult → Prop where
  | stored (buf : CString) : DataSpec cfg db uid p ⟨some { p with buf := some buf }, db, []⟩
  | overflow : DataSpec cfg db uid p (failSession uid db [])
  | packet {buf : CString} {m : MechResult} {r : PacketResult} (ha : Advance { p with buf := none } m)
      (hr : PacketSpec cfg db uid m r) :
      DataSpec cfg db uid p { r with obs := .packet uid buf :: r.obs }

theorem saslData_spec (cfg : ServConfig) (w : World) (db : Accounts) (uid : Uid) (p : Session)
    (data : CString) : DataSpec cfg db uid p (saslData cfg w db uid p data) := by
  unfold saslData
  dsimp only
  split
  · exact .overflow
  · split
    · obtain ⟨m, ha, hr⟩ := saslPacket_spec cfg w db uid { p with buf := none } (p.buf.getD [] ++ data)
      exact .packet ha hr
    · exact .stored _

/-! ### A message -/

theorem find_makeSession (uid u : Uid) (s : State) :
    (makeSession uid s).sessions.find u =
      if u = uid then some (sessionOf s uid) else s.sessions.find u := by
  simp only [makeSession, Registry.find_insertNew, sessionOf]
  by_cases hu : u = uid
  · subst hu
    cases s.sessions.find u <;> simp
  · simp [hu, Ne.symm hu]

theorem find_saslInput (cfg : ServConfig) (w : World) (s : State) (msg : SaslMessage) (u : Uid) :
    (saslInput cfg w s msg).1.sessions.find u =
      if u = msg.uid then
        (inputSession cfg w s.accounts (sessionOf s msg.uid) msg).session
      else s.sessions.find u := by
  unfold saslInput putSession
  split <;> rename_i h <;> by_cases hu : u = msg.uid <;> simp [find_makeSession, hu, h]

theorem accounts_saslInput (cfg : ServConfig) (w : World) (s : State) (msg : SaslMessage) :
    (saslInput cfg w s msg).1.accounts =
      (inputSession cfg w s.accounts (sessionOf s msg.uid) msg).accounts := by
  unfold saslInput putSession
  split <;> rfl

theorem obs_saslInput (cfg : ServConfig) (w : World) (s : State) (msg : SaslMessage) :
    (saslInput cfg w s msg).2 =
      (inputSession cfg w s.accounts (sessionOf s msg.uid) msg).obs := by
  unfold saslInput putSession
  split <;> rfl

/-! ### The observations of a message -/

/-- Observations a message for `uid` can cause: no login, and nothing about the
sessions of others. -/
def Obs.OfMessage (uid : Uid) : Obs → Prop
  | .packet u _ | .accepted u _ | .destroyed u => u = uid
  | .myuserLogin .. | .loggedIn .. => False
  | _ => True

theorem Quiet.ofMessage {obs : List Obs} (h : Quiet obs) (uid : Uid) :
    ∀ o ∈ obs, o.OfMessage uid := by
  intro o ho
  have hq := h o ho
  cases o with
  | packet u buf => exact hq.elim
  | accepted u mu => exact hq.elim
  | destroyed u => exact hq.elim
  | myuserLogin u mu d => exact hq.elim
  | loggedIn u mu account => exact hq.elim
  | _ => trivial

theorem PacketSpec.ofMessage {cfg : ServConfig} {db : Accounts} {uid : Uid} {m : MechResult}
    {r : PacketResult} (h : PacketSpec cfg db uid m r) : ∀ o ∈ r.obs, o.OfMessage uid := by
  intro o ho
  cases h with
  | accepted done find names hb ha =>
    simp only [List.mem_append, List.mem_cons] at ho
    rcases ho with ho | rfl | ho
    · exact hb.ofMessage uid o ho
    · rfl
    · exact ha.ofMessage uid o ho
  | destroyed names hq =>
    simp only [List.mem_append, List.mem_singleton] at ho
    rcases ho with ho | rfl
    · exact hq.ofMessage uid o ho
    · rfl
  | more more hq => exact hq.ofMessage uid o ho

theorem saslData_ofMessage (cfg : ServConfig) (w : World) (db : Accounts) (uid : Uid) (p : Session)
    (data : CString) : ∀ o ∈ (saslData cfg w db uid p data).obs, o.OfMessage uid := by
  have h := saslData_spec cfg w db uid p data
  generalize saslData cfg w db uid p data = r at h
  intro o ho
  cases h with
  | stored buf => simp at ho
  | overflow =>
    simp only [failSession, List.nil_append, List.mem_cons, List.not_mem_nil, or_false] at ho
    rcases ho with rfl | rfl
    · trivial
    · rfl
  | packet ha hr =>
    cases List.mem_cons.mp ho with
    | inl ho => rw [ho]; rfl
    | inr ho => exact hr.ofMessage o ho

theorem saslInput_ofMessage (cfg : ServConfig) (w : World) (s : State) (msg : SaslMessage) :
    ∀ o ∈ (saslInput cfg w s msg).2, o.OfMessage msg.uid := by
  rw [obs_saslInput]
  unfold inputSession
  split
  · simp
  · exact saslData_ofMessage cfg w s.accounts msg.uid _ _
  · exact saslData_ofMessage cfg w s.accounts msg.uid _ _
  · simp [Obs.OfMessage]
  · simp

end ChatServices.Sasl
