import ChatServices.ChanServ.AccountDeletion

/-! Runs of everything that makes, changes or frees an account or something that points to one. -/
namespace ChatServices.ChanServ.Tables
open ChatServices.Lib ChatServices.Lib.Mask ChatServices.Lib.Run ChatServices.Text
open ChatServices.ChanServ.Heap

def mygroupAddId (cfg : ChanConfig) (mg : GroupRef) (id : Option CString) (name : CString)
    (flags : Flags) (acs : List GroupAcs) (s : ServDb) : ServDb :=
  let ids := newId s id
  myentityPut cfg (.group mg) name ids.1 { s with
    groups := s.groups.insertNew mg ⟨name, ids.1, flags, acs⟩
    lastEntityUid := ids.2 }

def mygroupDelete (cfg : ChanConfig) (mg : GroupRef) (s : ServDb) : Option ServDb :=
  (s.groups.find mg).map fun g =>
    { myentityDel cfg g.name g.id s with groups := s.groups.erase mg }

inductive TableEvent where
  | access (e : AccessEvent)
  | othersChans (chans : Registry MyChanRef MyChan)
  | othersGroups (groups : Registry GroupRef MyGroup)
  | connect (uid : CString)
  | quit (uid : CString) (now : Nat)
  | identify (u : User) (now : Nat) (mu : MyUserRef)
  | leave (uid : CString)
  | register (mu : MyUserRef) (id : Option CString) (name : CString) (flags : Flags)
      (accessList : List CString) (metadata : Metadata)
  | set (mu : MyUserRef) (flags : Flags) (accessList : List CString) (metadata : Metadata)
  | rename (lc : LogoutConfig) (now : Nat) (mu : MyUserRef) (name : CString)
  | drop (lc : LogoutConfig) (w : World) (mu : MyUserRef)
  | groupAdd (mg : GroupRef) (id : Option CString) (name : CString) (flags : Flags)
      (acs : List GroupAcs)
  | groupDel (mg : GroupRef)
  | nickAdd (r : NickRef) (mu : MyUserRef) (name : CString)
  | nickDel (r : NickRef)
  | certfpAdd (r : CertfpRef) (mu : MyUserRef) (certfp : CString)
  | certfpDel (r : CertfpRef)
  | cookieAdd (r : CookieRef) (mu : MyUserRef) (ticket : CString) (now : Nat)
  | cookieDel (r : CookieRef)
  | operAdd (r : SoperRef) (name : CString) (conf : Bool)
  | operDel (r : SoperRef)

def TableEvent.exec (cfg : ChanConfig) (s : ServDb) : TableEvent → Option ServDb
  | .access e => (e.exec cfg s.heapDb).map s.withHeap
  | .othersChans chans => some { s with chans := chans }
  | .othersGroups groups => some { s with groups := groups }
  | .connect uid => some { s with online := s.online.insertNew uid none }
  | .quit uid now => userDelete uid now s
  | .identify u now mu => some (login u now mu s)
  | .leave uid => logout uid s
  | .register mu id name flags accessList metadata =>
    some (myuserAddId cfg mu id name flags accessList metadata s)
  | .set mu flags accessList metadata => some (accountSet mu flags accessList metadata s)
  | .rename lc now mu name => myuserRename cfg lc now mu name s
  | .drop lc w mu => myuserDelete cfg lc w mu s
  | .groupAdd mg id name flags acs => some (mygroupAddId cfg mg id name flags acs s)
  | .groupDel mg => mygroupDelete cfg mg s
  | .nickAdd r mu name => some (mynickAdd cfg r mu name s)
  | .nickDel r => mynickDelete cfg s r
  | .certfpAdd r mu certfp => some (mycertfpAdd r mu certfp s)
  | .certfpDel r => mycertfpDelete s r
  | .cookieAdd r mu ticket now => some (authcookieCreate r mu ticket now s)
  | .cookieDel r => some (authcookieDestroy r s)
  | .operAdd r name conf => soperAdd cfg r name conf s
  | .operDel r => soperDelete s r

def TableEvent.Promised (cfg : ChanConfig) (s : ServDb) : TableEvent → Prop
  | .access e => e.Searched s.heapDb ∧ AccessPromised cfg s e
  | .quit uid _ => (s.online.find uid).isSome
  | .identify u _ mu => s.online.find u.uid = some none ∧ Live s.users mu
  | .leave uid => (s.online.find uid).isSome
  | .register mu _ _ _ _ _ => s.users.find mu = none
  | .rename _ _ mu _ => Live s.users mu
  | .drop _ _ mu => Live s.users mu
  | .groupDel mg => (s.groups.find mg).isSome
  | .nickAdd r mu _ => s.nicks.objs.find r = none ∧ Live s.users mu
  | .nickDel r => (s.nicks.objs.find r).isSome
  | .certfpAdd r mu _ => s.certfps.objs.find r = none ∧ Live s.users mu
  | .certfpDel r => (s.certfps.objs.find r).isSome
  | .cookieAdd _ mu _ _ => Live s.users mu
  | .operAdd r _ _ => s.soperlist.find r = none
  | .operDel r => (s.soperlist.find r).isSome
  | .connect _ => True
  | .othersChans _ => True
  | .othersGroups _ => True
  | .set .. => True
  | .groupAdd .. => True
  | .cookieDel _ => True

instance (cfg : ChanConfig) (s : ServDb) : ∀ e : TableEvent, Decidable (e.Promised cfg s)
  | .access e => inferInstanceAs (Decidable (e.Searched s.heapDb ∧ AccessPromised cfg s e))
  | .quit uid _ => inferInstanceAs (Decidable ((s.online.find uid).isSome = true))
  | .identify u _ mu => inferInstanceAs (Decidable (s.online.find u.uid = some none ∧ Live s.users mu))
  | .leave uid => inferInstanceAs (Decidable ((s.online.find uid).isSome = true))
  | .register mu .. => inferInstanceAs (Decidable (s.users.find mu = none))
  | .rename _ _ mu _ => inferInstanceAs (Decidable (Live s.users mu))
  | .drop _ _ mu => inferInstanceAs (Decidable (Live s.users mu))
  | .groupDel mg => inferInstanceAs (Decidable ((s.groups.find mg).isSome = true))
  | .nickAdd r mu _ => inferInstanceAs
      (Decidable (s.nicks.objs.find r = none ∧ Live s.users mu))
  | .nickDel r => inferInstanceAs (Decidable ((s.nicks.objs.find r).isSome = true))
  | .certfpAdd r mu _ => inferInstanceAs
      (Decidable (s.certfps.objs.find r = none ∧ Live s.users mu))
  | .certfpDel r => inferInstanceAs (Decidable ((s.certfps.objs.find r).isSome = true))
  | .cookieAdd _ mu _ _ => inferInstanceAs (Decidable (Live s.users mu))
  | .operAdd r _ _ => inferInstanceAs (Decidable (s.soperlist.find r = none))
  | .operDel r => inferInstanceAs (Decidable ((s.soperlist.find r).isSome = true))
  | .connect _ => inferInstanceAs (Decidable True)
  | .othersChans _ => inferInstanceAs (Decidable True)
  | .othersGroups _ => inferInstanceAs (Decidable True)
  | .set .. => inferInstanceAs (Decidable True)
  | .groupAdd .. => inferInstanceAs (Decidable True)
  | .cookieDel _ => inferInstanceAs (Decidable True)

/-- An account goes with nobody left logged in to it. -/
def TableEvent.LogoutsDone (s : ServDb) : TableEvent → Prop
  | .drop lc _ mu => lingering lc mu s = []
  | _ => True

instance (s : ServDb) : ∀ e : TableEvent, Decidable (e.LogoutsDone s)
  | .drop lc _ mu => inferInstanceAs (Decidable (lingering lc mu s = []))
  | .access _ | .othersChans _ | .othersGroups _ | .connect _ | .quit .. | .identify .. | .leave _
  | .register .. | .set .. | .rename .. | .groupAdd .. | .groupDel _ | .nickAdd .. | .nickDel _
  | .certfpAdd .. | .certfpDel _ | .cookieAdd .. | .cookieDel _ | .operAdd .. | .operDel _ =>
    inferInstanceAs (Decidable True)

/-- `none` is a touch of freed memory. -/
def tableStep (cfg : ChanConfig) (s : Option ServDb) (e : TableEvent) :
    Option ServDb × List (Option ServDb) :=
  let s' := s.bind fun s => e.exec cfg s
  (s', [s'])

section runs
variable {cfg : ChanConfig} {s : ServDb} {uid : CString}

theorem connect_ok (h : TablesOk cfg s) :
    TablesOk cfg { s with online := s.online.insertNew uid none } := by
  have hold : ∀ uid' m, (s.online.insertNew uid none).find uid' = some (some m) →
      s.online.find uid' = some (some m) := by
    intro uid' m hm
    rw [Registry.find_insertNew] at hm
    cases hf : s.online.find uid' with
    | some x => rwa [hf, Option.some_or] at hm
    | none =>
      rw [hf, Option.none_or] at hm
      split_ifs at hm
      cases hm
  refine ⟨⟨h.names.accountlist, h.names.entities, h.names.entitiesById⟩,
    ⟨fun uid' m hm => h.logins.online uid' m (hold uid' m hm), fun m u hu => ?_, h.logins.nodup⟩,
    h.sopers.mono (fun _ => id) rfl rfl, h.records.mono (fun _ => id) rfl rfl rfl,
    h.entries.mono (fun _ => id) rfl⟩
  have hlisted := h.logins.listed m u hu
  show (s.online.insertNew uid none).find u.uid = some (some m)
  rw [Registry.find_insertNew, hlisted]
  rfl

theorem TablesOk.entities {s' : ServDb} (h : TablesOk cfg s) (hnames : NamesOk cfg s')
    (hothers : s' = { s with
      groups := s'.groups, chans := s'.chans, entities := s'.entities
      entitiesById := s'.entitiesById, lastEntityUid := s'.lastEntityUid }) : TablesOk cfg s' := by
  refine ⟨hnames, ?_, ?_, ?_, ?_⟩
  · rw [hothers]
    exact ⟨h.logins.online, h.logins.listed, h.logins.nodup⟩
  · rw [hothers]
    exact h.sopers.mono (fun _ => id) rfl rfl
  · rw [hothers]
    exact h.records.mono (fun _ => id) rfl rfl rfl
  · rw [hothers]
    exact h.entries.mono (fun _ => id) rfl

theorem groupAdd_ok {mg : GroupRef} {id : Option CString} {name : CString} {flags : Flags}
    {acs : List GroupAcs} (h : TablesOk cfg s) : TablesOk cfg (mygroupAddId cfg mg id name flags acs s) := by
  have hnames : NamesOk cfg { s with
      groups := s.groups.insertNew mg ⟨name, (newId s id).1, flags, acs⟩
      lastEntityUid := (newId s id).2 } :=
    ⟨h.names.accountlist, h.names.entities, h.names.entitiesById⟩
  exact h.entities (hnames.other rfl) rfl

theorem groupDel_ok {mg : GroupRef} (h : TablesOk cfg s) (hmg : (s.groups.find mg).isSome) :
    ∃ s', mygroupDelete cfg mg s = some s' ∧ TablesOk cfg s' := by
  obtain ⟨g, hg⟩ := Option.isSome_iff_exists.mp hmg
  have hnames := @NamesOk.del cfg s g.name h.names g.id
  rw [mygroupDelete, hg]
  exact ⟨_, rfl, h.entities ⟨hnames.accountlist, hnames.entities, hnames.entitiesById⟩ rfl⟩

theorem event_ok (h : TablesOk cfg s) (e : TableEvent) (he : e.Promised cfg s)
    (hdone : e.LogoutsDone s) :
    ∃ s', e.exec cfg s = some s' ∧ TablesOk cfg s' := by
  cases e with
  | access e =>
    obtain ⟨d, hrun, hok⟩ := access_ok h e he.1 he.2
    exact ⟨_, by rw [TableEvent.exec, hrun]; rfl, hok⟩
  | othersChans chans =>
    exact ⟨_, rfl, h.entities ⟨h.names.accountlist, h.names.entities, h.names.entitiesById⟩ rfl⟩
  | othersGroups groups =>
    exact ⟨_, rfl, h.entities ⟨h.names.accountlist, h.names.entities, h.names.entitiesById⟩ rfl⟩
  | connect uid => exact ⟨_, rfl, connect_ok h⟩
  | quit uid now =>
    obtain ⟨s', hrun, hout⟩ := @userDelete_ok cfg s uid now h he
    exact ⟨s', hrun, hout.ok⟩
  | identify u now mu => exact ⟨_, rfl, login_ok h he.1 he.2⟩
  | leave uid =>
    obtain ⟨s', hrun, hout⟩ := logout_ok h he
    exact ⟨s', hrun, hout.ok⟩
  | register mu id name flags accessList metadata => exact ⟨_, rfl, myuserAddId_ok h he⟩
  | set mu flags accessList metadata => exact ⟨_, rfl, accountSet_ok h⟩
  | rename lc now mu name => exact myuserRename_ok h he
  | drop lc w mu =>
    obtain ⟨-, s', -, hrun, hok, -⟩ := @myuserDelete_ok cfg lc w s mu h he hdone
    exact ⟨s', hrun, hok⟩
  | groupAdd mg id name flags acs => exact ⟨_, rfl, groupAdd_ok h⟩
  | groupDel mg => exact groupDel_ok h he
  | nickAdd r mu name => exact ⟨_, rfl, mynickAdd_ok h he.1 he.2⟩
  | nickDel r => exact mynickDelete_ok h he
  | certfpAdd r mu certfp => exact ⟨_, rfl, mycertfpAdd_ok h he.1 he.2⟩
  | certfpDel r => exact mycertfpDelete_ok h he
  | cookieAdd r mu ticket now => exact ⟨_, rfl, authcookieCreate_ok h he⟩
  | cookieDel r => exact ⟨_, rfl, authcookieDestroy_ok h⟩
  | operAdd r name conf =>
    obtain ⟨s', hrun, hchange⟩ := @soperAdd_ok cfg s r name conf h he
    exact ⟨s', hrun, hchange.ok⟩
  | operDel r =>
    obtain ⟨sp, hsp⟩ := Option.isSome_iff_exists.mp he
    obtain ⟨s', hrun, hchange, -⟩ := soperDelete_ok h hsp
    exact ⟨s', hrun, hchange.ok⟩

theorem tables_run {es : List TableEvent}
    (h : Guarded (tableStep cfg) (fun s e => ∀ s' ∈ s, e.Promised cfg s' ∧ e.LogoutsDone s')
      (some .empty) es) :
    ∃ s, (run (tableStep cfg) (some .empty) es).1 = some s ∧ TablesOk cfg s := by
  have hstep : ∀ (s : Option ServDb) (e : TableEvent), (∃ s₁, s = some s₁ ∧ TablesOk cfg s₁) →
      (∀ s' ∈ s, e.Promised cfg s' ∧ e.LogoutsDone s') →
      ∃ s₁, (tableStep cfg s e).1 = some s₁ ∧ TablesOk cfg s₁ := by
    intro s e hs he
    obtain ⟨s₁, rfl, hok⟩ := hs
    obtain ⟨hpromised, hdone⟩ := he s₁ rfl
    obtain ⟨s', hrun, hok'⟩ := event_ok hok e hpromised hdone
    exact ⟨s', by rw [tableStep, Option.bind_some, hrun], hok'⟩
  exact run_state_invariant hstep ⟨_, rfl, .empty cfg⟩ h

/-- In every run in which accounts go with nobody left logged in to them, the deletion of an account
leaves nothing that points to it, and the channels that it alone had founded have the chosen successor
or are gone with their entries, if and only if nobody stays logged in. -/
theorem deleted_account_unreferenced (cfg : ChanConfig) (es : List TableEvent)
    (h : Guarded (tableStep cfg) (fun s e => ∀ s' ∈ s, e.Promised cfg s' ∧ e.LogoutsDone s')
      (some .empty) es) :
    ∃ s, (run (tableStep cfg) (some .empty) es).1 = some s ∧
      ∀ lc w mu, Live s.users mu → (Unwinds cfg lc w mu s ↔ lingering lc mu s = []) := by
  obtain ⟨s, hrun, hok⟩ := tables_run h
  exact ⟨s, hrun, fun lc w mu hmu => unwinds_iff hok hmu⟩

end runs

/- Two accounts, the first with everything that an account can have. -/
def tableRun : List TableEvent :=
  [.register 0 none "alice".toList 0#32 [] [], .register 1 none "bob".toList 0#32 [] [],
    .connect sampleUser.uid, .identify sampleUser 100 0, .nickAdd 0 0 "alice".toList,
    .nickAdd 1 0 "alice2".toList, .certfpAdd 0 0 "00ff".toList, .cookieAdd 0 0 "ticket".toList 100,
    .operAdd 0 "alice".toList true, .othersChans heapChans,
    .access (.add 0 (.entity (.user 0)) (caFounder ||| caAclview) 100 none),
    .access (.add 0 (.entity (.user 1)) caOp 100 none),
    .access (.add 1 (.entity (.user 0)) caFounder 100 none),
    .access (.add 1 (.host "*!*@host.example".toList) caVoice 100 none)]

theorem deleted_account_unreferenced_witness :
    ∃ s, (run (tableStep sampleConfig) (some .empty) tableRun).1 = some s ∧
      ∀ lc w mu, Live s.users mu → (Unwinds sampleConfig lc w mu s ↔ lingering lc mu s = []) := by
  refine deleted_account_unreferenced sampleConfig tableRun ?_
  decide

/-- On P10 a client of services that an ACCOUNT message has logged in keeps the pointer. -/
theorem refused_login_dangles : ¬∀ (cfg : ChanConfig) (es : List TableEvent),
    Guarded (tableStep cfg) (fun s e => ∀ s' ∈ s, e.Promised cfg s') (some .empty) es →
    ∃ s, (run (tableStep cfg) (some .empty) es).1 = some s ∧
      ∀ lc w mu, Live s.users mu → Unwinds cfg lc w mu s := by
  intro h
  let es : List TableEvent := [.register 0 none "bob".toList 0#32 [] [], .connect sampleUser.uid,
    .identify sampleUser 100 0]
  let p10 : LogoutConfig := ⟨true, fun _ => true, fun u => u.uid = sampleUser.uid⟩
  obtain ⟨s, hrun, hall⟩ := h sampleConfig es (by decide)
  have hlive : (run (tableStep sampleConfig) (some .empty) es).1.any
      (fun s => (s.users.find 0).isSome) = true := by decide
  rw [hrun] at hlive
  obtain ⟨s₁, s', -, hdelete, hgone, -⟩ := hall p10 sampleWorld 0 hlive
  have honline : ((run (tableStep sampleConfig) (some .empty) es).1.bind
      (myuserDelete sampleConfig p10 sampleWorld 0)).map (fun s => s.online.find sampleUser.uid) =
        some (some (some 0)) := by decide
  rw [hrun, Option.bind_some, hdelete] at honline
  exact hgone.online sampleUser.uid (Option.some.inj honline)

end ChatServices.ChanServ.Tables
