import ChatServices.Lib.Run
import ChatServices.SaslServ

/-! Authcookies: the tickets an account is given, the timer that drops them, and the two callers
that look one up. -/
namespace ChatServices.Authcookies
open ChatServices.Text ChatServices.Lib ChatServices.Lib.Run ChatServices.Lib.Trace
open ChatServices.Sasl

structure Authcookie where
  ticket : CString
  myuser : MyUserRef
  expire : Int
  deriving DecidableEq

structure State where
  db : Accounts
  next : MyUserRef
  cookies : List Authcookie

def init : State := ⟨⟨Registry.empty, []⟩, 0, []⟩

/-- `ticket` of a creation is what `random_string` gives; an exchange brings the message of a
session and the bytes behind it. -/
inductive Event where
  | register (mu : MyUser)
  | group (nick : CString) (mu : MyUserRef)
  | delete (mu : MyUserRef)
  | create (mu : MyUserRef) (ticket : CString) (now : Int)
  | expire (now : Int)
  | validate (ticket : Option CString) (mu : Option MyUserRef) (now : Int)
  | destroyAll (mu : MyUserRef)
  | exchange (p : Session) (message memoryAfter : CString) (now : Int)

inductive Obs where
  | created (ticket : CString) (mu : MyUserRef) (now : Int)
  | deleted (mu : MyUserRef)
  | validated (ticket : Option CString) (mu : Option MyUserRef) (now : Int) (answer : Bool)
  | done (ticket : CString) (mu : MyUserRef) (now : Int)
  deriving DecidableEq

def State.live (s : State) (mu : MyUserRef) : Prop := (s.db.get mu).isSome

instance (s : State) (mu : MyUserRef) : Decidable (s.live mu) :=
  inferInstanceAs (Decidable ((s.db.get mu).isSome = true))

section cookies

/-- The three searches of `authcookie_find`. -/
def authcookieFind (cookies : List Authcookie) : Option CString → Option MyUserRef →
    Option Authcookie
  | none, none => none
  | some ticket, none => cookies.find? (fun ac => ac.ticket = ticket)
  | none, some mu => cookies.find? (fun ac => ac.myuser = mu)
  | some ticket, some mu => cookies.find? (fun ac => ac.myuser = mu ∧ ac.ticket = ticket)

def authcookieCreate (mu : MyUserRef) (ticket : CString) (now : Int) : Authcookie :=
  ⟨ticket, mu, now + 3600⟩

def authcookieDestroyAll (mu : MyUserRef) (cookies : List Authcookie) : List Authcookie :=
  cookies.filter (fun ac => ac.myuser ≠ mu)

def authcookieExpire (now : Int) (cookies : List Authcookie) : List Authcookie :=
  cookies.filter (fun ac => now < ac.expire)

/-- `authcookie_validate`: an expired cookie is destroyed where it is found. -/
def authcookieValidate (cookies : List Authcookie) (ticket : Option CString)
    (mu : Option MyUserRef) (now : Int) : Bool × List Authcookie :=
  match authcookieFind cookies ticket mu with
  | none => (false, cookies)
  | some ac => if ac.expire ≤ now then (false, cookies.erase ac) else (true, cookies)

end cookies

section step
variable (cfg : ServConfig)

/-- `myuser_delete`, as far as cookies and name lookups go. -/
def myuserDelete (s : State) (mu : MyUserRef) : State :=
  { s with
    db := ⟨s.db.users.erase mu, s.db.nicks.filter (fun mn => mn.owner ≠ mu)⟩
    cookies := authcookieDestroyAll mu s.cookies }

def State.world (s : State) (memoryAfter : CString) : World :=
  { World.refusing with
    authcookieFind := fun ticket mu => (authcookieFind s.cookies (some ticket) (some mu)).isSome
    memoryAfter := memoryAfter }

def messageParts (message memoryAfter : CString) : Option (CString × CString × CString) :=
  let memory := message ++ memoryAfter
  let authz := cstr memory
  if authz.length > 255 then none
  else
    let len := (message.length + 2 ^ 64 - (authz.length + 1)) % 2 ^ 64
    if len = 0 then none
    else
      let memory := memory.drop (authz.length + 1)
      let authc := cstr memory
      if authc.length > 255 then none
      else
        let len := (len + 2 ^ 64 - (authc.length + 1)) % 2 ^ 64
        if len = 0 then none
        else
          let memory := memory.drop (authc.length + 1)
          if (cstr memory).length > 255 then none
          else some (authz, authc, (cstr memory).take len)

def asked (s : State) (message memoryAfter : CString) : Option (CString × MyUserRef) :=
  (messageParts message memoryAfter).bind fun parts =>
    (myuserFindByNick cfg.toConfig s.db parts.2.1).map fun mu => (parts.2.2, mu)

def step (s : State) : Event → State × List Obs
  | .register mu =>
    ({ s with
        db := ⟨s.db.users.insertNew s.next mu, s.db.nicks ++ [⟨mu.name, s.next⟩]⟩
        next := s.next + 1 }, [])
  | .group nick mu =>
    (if s.live mu then { s with db := { s.db with nicks := s.db.nicks ++ [⟨nick, mu⟩] } } else s, [])
  | .delete mu => (myuserDelete s mu, [.deleted mu])
  | .create mu ticket now =>
    if s.live mu then
      ({ s with cookies := s.cookies ++ [authcookieCreate mu ticket now] }, [.created ticket mu now])
    else (s, [])
  | .expire now => ({ s with cookies := authcookieExpire now s.cookies }, [])
  | .validate ticket mu now =>
    ({ s with cookies := (authcookieValidate s.cookies ticket mu now).2 },
      [.validated ticket mu now (authcookieValidate s.cookies ticket mu now).1])
  | .destroyAll mu => ({ s with cookies := authcookieDestroyAll mu s.cookies }, [])
  | .exchange p message memoryAfter now =>
    (s, if (authcookieStep cfg.toConfig (s.world memoryAfter) s.db p message).rc = .done then
        ((asked cfg s message memoryAfter).map fun q => Obs.done q.1 q.2 now).toList
      else [])

end step

/-! ### The mechanism -/

section mechanism
variable {cfg : ServConfig} {s : State}

theorem authcookieStep_eq (cfg : Config) (w : World) (db : Accounts) (p : Session)
    (message : CString) :
    authcookieStep cfg w db p message =
      match messageParts message w.memoryAfter with
      | none => failed p
      | some (authz, authc, cookie) =>
        match myuserFindByNick cfg db authc with
        | none => failed p
        | some mu =>
          if w.authcookieFind cookie mu then
            ⟨.done, { p with username := some authc, authzid := some authz }, []⟩
          else failed { p with username := some authc, authzid := some authz } := by
  rw [authcookieStep, messageParts]
  dsimp only
  split_ifs <;> rfl

theorem authcookieStep_done_iff (p : Session) (message memoryAfter : CString) :
    (authcookieStep cfg.toConfig (s.world memoryAfter) s.db p message).rc = .done ↔
      ∃ ticket mu, asked cfg s message memoryAfter = some (ticket, mu) ∧
        (authcookieFind s.cookies (some ticket) (some mu)).isSome := by
  rw [authcookieStep_eq, asked]
  have hmemory : (s.world memoryAfter).memoryAfter = memoryAfter := rfl
  have hworld : ∀ ticket mu, (s.world memoryAfter).authcookieFind ticket mu =
      (authcookieFind s.cookies (some ticket) (some mu)).isSome := fun _ _ => rfl
  rw [hmemory]
  cases messageParts message memoryAfter with
  | none => simp [failed]
  | some parts =>
    obtain ⟨authz, authc, cookie⟩ := parts
    dsimp only [Option.bind_some]
    cases myuserFindByNick cfg.toConfig s.db authc with
    | none => simp [failed]
    | some mu =>
      dsimp only [Option.map_some]
      rw [hworld]
      cases hcookie : (authcookieFind s.cookies (some cookie) (some mu)).isSome with
      | true => simp [hcookie]
      | false => simp [failed, hcookie]

theorem authcookieFind_some {cookies : List Authcookie} {ticket : CString} {mu : MyUserRef}
    {ac : Authcookie} (h : authcookieFind cookies (some ticket) (some mu) = some ac) :
    ac ∈ cookies ∧ ac.myuser = mu ∧ ac.ticket = ticket :=
  ⟨List.mem_of_find?_eq_some h, by simpa using List.find?_some h⟩

end mechanism

/-! ### Cookies and their accounts -/

section invariant
variable {cfg : ServConfig} {s : State} {t : List Obs}

def Issued (t : List Obs) (ac : Authcookie) : Prop :=
  Since (fun o => o = .created ac.ticket ac.myuser (ac.expire - 3600))
    (fun o => o = .deleted ac.myuser) t

structure CookiesOk (s : State) (t : List Obs) : Prop where
  live : ∀ ac ∈ s.cookies, s.live ac.myuser
  issued : ∀ ac ∈ s.cookies, Issued t ac

theorem Issued.append {ac : Authcookie} {u : List Obs} (h : Issued t ac)
    (hu : ∀ o ∈ u, o ≠ .deleted ac.myuser) : Issued (t ++ u) ac :=
  (since_append t u).mpr (Or.inr ⟨h, hu⟩)

theorem CookiesOk.step_sublist {s' : State} {u : List Obs} (h : CookiesOk s t)
    (hsub : s'.cookies.Sublist s.cookies) (hlive : ∀ ac ∈ s'.cookies, s.live ac.myuser →
      s'.live ac.myuser) (hu : ∀ ac ∈ s'.cookies, ∀ o ∈ u, o ≠ .deleted ac.myuser) :
    CookiesOk s' (t ++ u) :=
  ⟨fun ac hac => hlive ac hac (h.live ac (hsub.subset hac)),
    fun ac hac => (h.issued ac (hsub.subset hac)).append (hu ac hac)⟩

theorem authcookieValidate_sublist (cookies : List Authcookie) (ticket : Option CString)
    (mu : Option MyUserRef) (now : Int) :
    (authcookieValidate cookies ticket mu now).2.Sublist cookies := by
  rw [authcookieValidate]
  split
  · exact List.Sublist.refl _
  · split
    · exact List.erase_sublist
    · exact List.Sublist.refl _

theorem authcookieValidate_true {cookies : List Authcookie} {ticket : CString} {mu : MyUserRef}
    {now : Int} (h : (authcookieValidate cookies (some ticket) (some mu) now).1 = true) :
    ∃ ac ∈ cookies, ac.myuser = mu ∧ ac.ticket = ticket ∧ now < ac.expire := by
  rw [authcookieValidate] at h
  cases hfind : authcookieFind cookies (some ticket) (some mu) with
  | none =>
    rw [hfind] at h
    cases h
  | some ac =>
    rw [hfind] at h
    dsimp only at h
    split_ifs at h with hexpired
    obtain ⟨hmem, hmu, hticket⟩ := authcookieFind_some hfind
    exact ⟨ac, hmem, hmu, hticket, by omega⟩

theorem step_cookiesOk (e : Event) (h : CookiesOk s t) :
    CookiesOk (step cfg s e).1 (t ++ (step cfg s e).2) := by
  cases e with
  | register mu =>
    refine h.step_sublist (List.Sublist.refl _) (fun ac _ hlive => ?_) (by simp [step])
    obtain ⟨mu', hmu'⟩ := Option.isSome_iff_exists.mp hlive
    have hfind : (s.db.users.insertNew s.next mu).find ac.myuser = some mu' := by
      rw [Registry.find_insertNew]
      simp only [Accounts.get] at hmu'
      simp [hmu']
    exact Option.isSome_iff_exists.mpr ⟨mu', hfind⟩
  | group nick mu =>
    simp only [step]
    split
    · exact h.step_sublist (List.Sublist.refl _) (fun _ _ hlive => hlive) (by simp)
    · exact h.step_sublist (List.Sublist.refl _) (fun _ _ hlive => hlive) (by simp)
  | delete mu =>
    have hother : ∀ ac ∈ authcookieDestroyAll mu s.cookies, ac.myuser ≠ mu := fun ac hac => by
      simpa using (List.mem_filter.mp hac).2
    refine h.step_sublist List.filter_sublist (fun ac hac hlive => ?_) (fun ac hac o ho => ?_)
    · obtain ⟨mu', hmu'⟩ := Option.isSome_iff_exists.mp hlive
      have hfind : (s.db.users.erase mu).find ac.myuser = some mu' := by
        rw [Registry.find_erase, if_neg (hother ac hac)]
        exact hmu'
      exact Option.isSome_iff_exists.mpr ⟨mu', hfind⟩
    · rw [List.mem_singleton.mp ho]
      intro heq
      exact hother ac hac (Obs.deleted.inj heq).symm
  | create mu ticket now =>
    simp only [step]
    split
    · rename_i hlive
      have hold : CookiesOk s (t ++ [.created ticket mu now]) :=
        h.step_sublist (List.Sublist.refl _) (fun _ _ hlive => hlive) (by simp)
      refine ⟨fun ac hac => ?_, fun ac hac => ?_⟩
      · obtain hac | hac := List.mem_append.mp hac
        · exact hold.live ac hac
        · rw [List.mem_singleton.mp hac]
          exact hlive
      · obtain hac | hac := List.mem_append.mp hac
        · exact hold.issued ac hac
        · rw [List.mem_singleton.mp hac]
          refine (since_append _ _).mpr (Or.inl ?_)
          simp [authcookieCreate]
    · exact h.step_sublist (List.Sublist.refl _) (fun _ _ hlive => hlive) (by simp)
  | expire now =>
    exact h.step_sublist List.filter_sublist (fun _ _ hlive => hlive) (by simp [step])
  | validate ticket mu now =>
    exact h.step_sublist (authcookieValidate_sublist _ _ _ _) (fun _ _ hlive => hlive)
      (by simp [step])
  | destroyAll mu =>
    exact h.step_sublist List.filter_sublist (fun _ _ hlive => hlive) (by simp [step])
  | exchange p message memoryAfter now =>
    refine h.step_sublist (List.Sublist.refl _) (fun _ _ hlive => hlive) (fun ac _ o ho => ?_)
    simp only [step] at ho
    split_ifs at ho
    · simp only [Option.mem_toList, Option.map_eq_some_iff] at ho
      obtain ⟨q, -, rfl⟩ := ho
      simp
    · cases ho

/-! ### What the two callers accept -/

def Fresh (t : List Obs) (ticket : CString) (mu : MyUserRef) (now : Int) : Prop :=
  ∃ t0, now - t0 < 3600 ∧ Since (fun o => o = .created ticket mu t0) (fun o => o = .deleted mu) t

def Accepted (t : List Obs) : Obs → Prop
  | .done ticket mu now => Fresh t ticket mu now
  | .validated (some ticket) (some mu) now true => Fresh t ticket mu now
  | _ => True

def TimerKeptUp (cfg : ServConfig) (s : State) : Event → Prop
  | .exchange _ message memoryAfter now =>
    ∀ q ∈ asked cfg s message memoryAfter,
      (authcookieFind s.cookies (some q.1) (some q.2)).isSome →
        ∃ ac ∈ s.cookies, ac.myuser = q.2 ∧ ac.ticket = q.1 ∧ now < ac.expire
  | _ => True

instance (cfg : ServConfig) (s : State) : ∀ e, Decidable (TimerKeptUp cfg s e)
  | .exchange _ message memoryAfter _ =>
    inferInstanceAs (Decidable (∀ q ∈ asked cfg s message memoryAfter, _))
  | .register _ | .group .. | .delete _ | .create .. | .expire _ | .validate .. | .destroyAll _ =>
    inferInstanceAs (Decidable True)

theorem CookiesOk.fresh (h : CookiesOk s t) {ticket : CString} {mu : MyUserRef} {now : Int}
    {ac : Authcookie} (hac : ac ∈ s.cookies) (hmu : ac.myuser = mu) (hticket : ac.ticket = ticket)
    (hexpire : now < ac.expire) : Fresh t ticket mu now := by
  have hissued := h.issued ac hac
  rw [Issued, hmu, hticket] at hissued
  exact ⟨ac.expire - 3600, by omega, hissued⟩

theorem step_accepted (e : Event) (h : CookiesOk s t) (hg : TimerKeptUp cfg s e) :
    Always (after t Accepted) (step cfg s e).2 := by
  cases e with
  | validate ticket mu now =>
    simp only [step, always_cons, always_nil, and_true, after_apply, List.append_nil]
    cases ticket with
    | none => trivial
    | some ticket =>
      cases mu with
      | none => trivial
      | some mu =>
        cases hans : (authcookieValidate s.cookies (some ticket) (some mu) now).1 with
        | false => trivial
        | true =>
          obtain ⟨ac, hac, hmu, hticket, hexpire⟩ := authcookieValidate_true hans
          exact h.fresh hac hmu hticket hexpire
  | exchange p message memoryAfter now =>
    simp only [step]
    split_ifs with hdone
    · obtain ⟨ticket, mu, hasked, hsome⟩ := (authcookieStep_done_iff p message memoryAfter).mp hdone
      obtain ⟨ac, hac, hmu, hticket, hexpire⟩ := hg _ hasked hsome
      rw [hasked]
      simp only [Option.map_some, Option.toList_some, always_cons, always_nil, and_true,
        after_apply, List.append_nil]
      exact h.fresh hac hmu hticket hexpire
    · exact always_nil
  | create mu ticket now =>
    simp only [step]
    split
    · exact always_of_quiet (by simp [Accepted])
    · exact always_nil
  | delete mu => exact always_of_quiet (by simp [step, Accepted])
  | _ => exact always_nil

/-- In a run whose exchanges find no ticket that has expired, both callers accept only tickets
that were created for the account within the hour, and no cookie is of a deleted account. -/
theorem cookies_expire_and_bound (cfg : ServConfig) (es : List Event)
    (h : Guarded (step cfg) (TimerKeptUp cfg) init es) :
    (∀ ac ∈ (run (step cfg) init es).1.cookies, (run (step cfg) init es).1.live ac.myuser) ∧
      Always Accepted (run (step cfg) init es).2 := by
  have hinit : CookiesOk init [] := ⟨by simp [init], by simp [init]⟩
  have hstep : ∀ s t e, CookiesOk s t → TimerKeptUp cfg s e →
      CookiesOk (step cfg s e).1 (t ++ (step cfg s e).2) ∧ Always (after t Accepted) (step cfg s e).2 :=
    fun s t e hs hg => ⟨step_cookiesOk e hs, step_accepted e hs hg⟩
  have hrun := run_guarded_always hstep hinit h
  exact ⟨hrun.1.live, hrun.2⟩

def bob : MyUser := ⟨"bob".toList, "AAAAAAAAA".toList, 0#32, [], 0, none, [], []⟩

/-- No authzid, `bob` and the ticket `T`. -/
def bobMessage : CString := nul :: "bob".toList ++ [nul, 'T']

theorem cookies_expire_and_bound_hour :
    let es : List Event := [.register bob, .create 0 ['T'] 0, .exchange .fresh bobMessage [] 3599,
      .validate (some ['T']) (some 0) 3599, .expire 3600, .exchange .fresh bobMessage [] 3601,
      .create 0 ['U'] 3700, .delete 0]
    (run (step sampleConfig) init es).2.length = 5 ∧
    (∀ ac ∈ (run (step sampleConfig) init es).1.cookies,
      (run (step sampleConfig) init es).1.live ac.myuser) ∧
    Always Accepted (run (step sampleConfig) init es).2 :=
  ⟨by decide +kernel, cookies_expire_and_bound sampleConfig _ (by decide +kernel)⟩

/-- The ticket is an hour old, and the timer has not gone off since. -/
theorem mechanism_accepts_expired :
    (run (step sampleConfig) init
      [.register bob, .create 0 ['T'] 0, .exchange .fresh bobMessage [] 3700]).2 =
        [.created ['T'] 0 0, .done ['T'] 0 3700] ∧
      ¬ Accepted [.created ['T'] 0 0] (.done ['T'] 0 3700) := by
  refine ⟨by decide +kernel, ?_⟩
  rintro ⟨t0, hlt, hsince⟩
  rw [since_singleton] at hsince
  cases hsince
  omega

end invariant
end ChatServices.Authcookies
