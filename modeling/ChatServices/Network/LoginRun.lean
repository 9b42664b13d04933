import ChatServices.Network.Changes
import ChatServices.Network.Links

/-! The logins over whole runs: users come, go and are killed, they log in and out, accounts come,
go and change their names, and modules are loaded. -/
namespace ChatServices.Network
open ChatServices.Lib ChatServices.Lib.Run ChatServices.Text ChatServices.Network.Logins

namespace Net
variable (ircd : Ircd) (leaving : Net → MemberId → List ClientId)

inductive LoginEvent where
  | addUser (x : User) (now : Int)
  | deleteUser (u : ClientId)
  | killUser (u : ClientId)
  | splitUser (u : ClientId)
  | changeNick (u : ClientId) (nick : CString) (ts : Int)
  | changeUid (u : ClientId) (uid : Option CString)
  | setFlags (u : ClientId) (f : Flags)
  | authservice (loaded : Bool)
  | backend (loaded : Bool)
  | addAccount (name : CString) (now : Int)
  | accountFlags (a : AccountId) (noburstlogin pendinglogin : Bool)
  | addNick (nick : CString) (a : AccountId)
  | deleteNick (nick : CString)
  | burstlogin (u : ClientId) (login : Option CString) (ts now : Int)
  | setlogin (u : ClientId) (login : Option CString) (ts now : Int)
  | clearlogin (u : ClientId)
  | login (u : ClientId) (a : AccountId)
  | deleteAccount (a : AccountId)
  | renameAccount (a : AccountId) (name : CString)

def loginStep (n : Net) (e : LoginEvent) : Net × List Unit :=
  (match e with
    | .addUser x now => (userAdd ircd leaving n x now).1
    | .deleteUser u => userDelete ircd leaving n u
    | .killUser u => Net.killUser ircd leaving n u
    | .splitUser u => Net.splitUser ircd leaving n u
    | .changeNick u nick ts => (userChangenick ircd leaving n u nick ts).1
    | .changeUid u uid => userChangeuid n u uid
    | .setFlags u f => n.setFlags u f
    | .authservice loaded => { n with authserviceLoaded := loaded }
    | .backend loaded => { n with backendLoaded := loaded }
    | .addAccount name now => n.withLogins (n.logins.myuserAdd ircd.irccasecanon name now).1
    | .accountFlags a noburstlogin pendinglogin =>
      n.withLogins (n.logins.setFlags a noburstlogin pendinglogin)
    | .addNick nick a =>
      if (n.logins.accounts.find a).isSome then
        n.withLogins (n.logins.mynickAdd ircd.irccasecanon nick a)
      else n
    | .deleteNick nick => n.withLogins (n.logins.mynickDelete ircd.irccasecanon nick)
    | .burstlogin u login ts now => handleBurstlogin ircd leaving n u login ts now
    | .setlogin u login ts now => handleSetlogin ircd n u login ts now
    | .clearlogin u => handleClearlogin n u
    | .login u a => myuserLogin n u a
    | .deleteAccount a => myuserDelete ircd leaving n a
    | .renameAccount a name => myuserRename ircd leaving n a name, [])

/-- The clients that `kill_user` does not kill. -/
def spared (n : Net) (u : ClientId) : Bool :=
  n.dir.isInternalClient u && !isSet UF_ENFORCER (n.census.flags u)

def lingering (n : Net) (a : AccountId) : List ClientId :=
  if n.authserviceLoaded && ircd.killsOnLogout then (n.logins.logins a).filter n.spared else []

def LogoutsDone (n : Net) : LoginEvent → Prop
  | .deleteAccount a => lingering ircd n a = []
  | _ => True

instance (n : Net) : (e : LoginEvent) → Decidable (LogoutsDone ircd n e)
  | .deleteAccount a => inferInstanceAs (Decidable (lingering ircd n a = []))
  | .addUser .. | .deleteUser .. | .killUser .. | .splitUser .. | .changeNick .. | .changeUid ..
  | .setFlags .. | .authservice .. | .backend .. | .addAccount .. | .accountFlags .. | .addNick ..
  | .deleteNick .. | .burstlogin .. | .setlogin .. | .clearlogin .. | .login ..
  | .renameAccount .. => inferInstanceAs (Decidable True)

structure LoginsOk (n : Net) : Prop where
  nicks : n.dir.NicksOk ircd.irccasecanon
  links : LinksOk n.dir n.logins
  accounts : AccountsOk ircd.irccasecanon n.logins

section rules
variable {ircd leaving} {n m : Net} {u w : ClientId} {a : AccountId} {x y : User}

theorem loginsOk_start : LoginsOk ircd (start ircd) :=
  ⟨Directory.empty_nicksOk, linksOk_empty, accountsOk_empty⟩

/-! ### Users -/

theorem drawUid_logins (n : Net) : (n.drawUid ircd).logins = n.logins := by
  rw [drawUid]
  split_ifs <;> rfl

theorem isSome_rename {d : Directory} {nick : CString} {ts : Int} (hx : d.users.find u = some x)
    {v : ClientId} (hv : (d.users.find v).isSome = true) :
    ((d.rename ircd.irccasecanon u x nick ts).users.find v).isSome = true := by
  rw [Directory.rename, Registry.find_set]
  split_ifs with he
  · rw [he, hx]
    rfl
  · exact hv

theorem LoginsOk.userInsert (h : LoginsOk ircd n) (hfree : n.userFindNamed ircd x.nick = none) :
    LoginsOk ircd (n.userInsert ircd x) :=
  ⟨h.nicks.insert hfree, h.links.enter h.nicks.next_free x,
    ⟨h.accounts.named, h.accounts.owned, h.accounts.fresh⟩⟩

theorem LoginsOk.changes (h : LoginsOk ircd n) (hc : Changes ircd leaving n m) :
    LoginsOk ircd m ∧ m.logins.accounts = n.logins.accounts ∧
      m.authserviceLoaded = n.authserviceLoaded := by
  induction hc with
  | refl => exact ⟨h, rfl, rfl⟩
  | flags u f _ ih => exact ⟨⟨ih.1.nicks, ih.1.links, ih.1.accounts⟩, ih.2⟩
  | @drawUid m _ ih =>
    obtain ⟨⟨hnicks, hlinks, haccounts⟩, hsame⟩ := ih
    have hauth : (m.drawUid ircd).authserviceLoaded = m.authserviceLoaded := by
      rw [Net.drawUid]
      split_ifs <;> rfl
    rw [hauth, drawUid_logins]
    exact ⟨⟨by rwa [drawUid_dir], by rwa [drawUid_dir, drawUid_logins], by rwa [drawUid_logins]⟩, hsame⟩
  | insert _ hfree ih => exact ⟨ih.1.userInsert hfree, ih.2⟩
  | @gone m u x _ hx ih =>
    obtain ⟨⟨hnicks, hlinks, haccounts⟩, hsame, hauth⟩ := ih
    obtain ⟨r, hr⟩ := userGone_frame ircd leaving m u x
    rw [hr]
    refine ⟨⟨hnicks.remove hx, hlinks.remove x, haccounts.unlink u⟩, ?_, hauth⟩
    rw [← hsame]
    exact unlink_accounts m.logins u
  | rename ts _ hx hfree ih =>
    obtain ⟨⟨hnicks, hlinks, haccounts⟩, hsame⟩ := ih
    exact ⟨⟨hnicks.rename hx hfree ts, hlinks.of_users fun v hv => isSome_rename hx hv, haccounts⟩,
      hsame⟩

theorem killUser_eq (n : Net) (u : ClientId) :
    Net.killUser ircd leaving n u = if n.spared u then n else userDelete ircd leaving n u := by
  rw [Net.killUser, spared]
  cases n.dir.isInternalClient u <;> cases isSet UF_ENFORCER (n.census.flags u) <;> rfl

structure SameUser (w : ClientId) (n n' : Net) : Prop where
  user : n'.dir.users.find w = n.dir.users.find w
  flags : n'.census.flags w = n.census.flags w
  myuser : n'.logins.myuser w = n.logins.myuser w

theorem SameUser.spared (h : SameUser w n m) : m.spared w = n.spared w := by
  rw [Net.spared, Net.spared, h.flags, Directory.isInternalClient, Directory.isInternalClient, h.user]

theorem SameUser.userGone (h : SameUser w n m) (hne : w ≠ u) :
    SameUser w n (userGone ircd leaving m u x) := by
  obtain ⟨r, hr⟩ := userGone_frame ircd leaving m u x
  rw [hr]
  refine ⟨?_, h.flags, ?_⟩
  · show (m.dir.users.erase u).find w = _
    rw [Registry.find_erase, if_neg hne, h.user]
  · show (m.logins.unlink u).myuser w = _
    rw [unlink_myuser, if_neg hne, h.myuser]

theorem SameUser.introduceEnforcer (h : SameUser w n m) (hw : n.dir.users.find w = some y)
    (hnext : m.dir.users.find m.dir.next = none) (nick : CString) :
    SameUser w n (introduceEnforcer ircd m nick) := by
  have hold : m.dir.users.find w = some y := by rw [h.user, hw]
  have hne : w ≠ m.dir.next := by
    intro he
    rw [he, hnext] at hold
    cases hold
  have hdraw : SameUser w n (m.drawUid ircd) := by
    rw [Net.drawUid]
    split_ifs
    · exact ⟨h.user, h.flags, h.myuser⟩
    · exact h
  cases hf : m.userFindNamed ircd nick with
  | some v =>
    rw [introduceEnforcer_taken ircd hf]
    exact hdraw
  | none =>
    rw [introduceEnforcer_free ircd hf]
    refine ⟨?_, ?_, ?_⟩
    · show ((m.drawUid ircd).dir.users.insertNew _ _).find w = _
      rw [Registry.find_insertNew, drawUid_dir, hold, Option.some_or, hw]
    · show (if w = m.dir.next then _ else ((m.drawUid ircd).userInsert ircd _).census.flags w) = _
      rw [if_neg hne, userInsert_flags, drawUid_dir, if_neg hne, hdraw.flags]
    · show (if w = (m.drawUid ircd).dir.next then none else (m.drawUid ircd).logins.myuser w) = _
      rw [drawUid_dir, if_neg hne, hdraw.myuser]

variable (leaving) in
theorem userDelete_others (h : n.dir.NicksOk ircd.irccasecanon) (hx : n.dir.users.find u = some x) :
    (userDelete ircd leaving n u).logins.logins = (n.logins.unlink u).logins ∧
      ∀ w y, n.dir.users.find w = some y → w ≠ u → SameUser w n (userDelete ircd leaving n u) := by
  have hsame : ∀ w, SameUser w n n := fun w => ⟨rfl, rfl, rfl⟩
  cases hm : n.marked u with
  | false =>
    rw [userDelete_unmarked hx hm, userGone_logins]
    exact ⟨rfl, fun w y _ hne => (hsame w).userGone hne⟩
  | true =>
    rw [userDelete_marked hx hm]
    have hclear : ∀ w, w ≠ u →
        SameUser w n (n.setFlags u (n.census.flags u &&& ~~~UF_DOENFORCE)) := by
      intro w hne
      exact ⟨rfl, if_neg hne, rfl⟩
    generalize hk : Net.userGone ircd leaving (n.setFlags u _) u x = k
    have hkdir : k.dir = n.dir.remove ircd.irccasecanon u x := by rw [← hk, userGone_dir]; rfl
    have hklogins : k.logins = n.logins.unlink u := by rw [← hk, userGone_logins]; rfl
    have hnext : k.dir.users.find k.dir.next = none := by
      rw [hkdir]
      exact (h.remove hx).next_free
    constructor
    · rw [← hklogins]
      cases hf : k.userFindNamed ircd (truncate NICKLEN x.nick) with
      | some v => rw [introduceEnforcer_taken ircd hf, drawUid_logins]
      | none =>
        rw [introduceEnforcer_free ircd hf]
        show (k.drawUid ircd).logins.logins = _
        rw [drawUid_logins]
    · intro w y hw hne
      have hgone : SameUser w n k := hk ▸ (hclear w hne).userGone hne
      exact hgone.introduceEnforcer hw hnext _

/-! ### Accounts -/

variable (leaving) in
theorem logOutUsers_spec (h : LoginsOk ircd n) (a : AccountId) :
    LoginsOk ircd ((n.logins.logins a).foldl (logOutUser ircd leaving a) n) ∧
      ((n.logins.logins a).foldl (logOutUser ircd leaving a) n).logins.accounts =
        n.logins.accounts ∧
      ((n.logins.logins a).foldl (logOutUser ircd leaving a) n).logins.logins a =
        lingering ircd n a := by
  rw [lingering]
  by_cases hkills : (n.authserviceLoaded && ircd.killsOnLogout) = true
  · -- the ones that stay come first on the list
    have hloop : ∀ (us kept : List ClientId) (k : Net), LoginsOk ircd k →
        (k.authserviceLoaded && ircd.killsOnLogout) = true → k.logins.logins a = kept ++ us →
        LoginsOk ircd (us.foldl (logOutUser ircd leaving a) k) ∧
          (us.foldl (logOutUser ircd leaving a) k).logins.accounts = k.logins.accounts ∧
          (us.foldl (logOutUser ircd leaving a) k).logins.logins a = kept ++ us.filter k.spared := by
      intro us
      induction us with
      | nil =>
        intro kept k hk _ hlist
        exact ⟨hk, rfl, hlist⟩
      | cons u us ih =>
        intro kept k hk hkills hlist
        obtain ⟨hauth, hkill⟩ := Bool.and_eq_true_iff.mp hkills
        have hone : logOutUser ircd leaving a k u = Net.killUser ircd leaving k u := by
          simp only [logOutUser, hauth, ircdOnLogout, hkill, if_true]
        have hnodup : (kept ++ u :: us).Nodup := hlist ▸ hk.links.nodup a
        have hmem : u ∈ k.logins.logins a := by simp [hlist]
        rw [List.foldl_cons, hone, killUser_eq]
        by_cases hu : k.spared u = true
        · rw [if_pos hu, List.filter_cons_of_pos hu, List.append_cons]
          exact ih (kept ++ [u]) k hk hkills (by rw [hlist, List.append_cons])
        · rw [if_neg hu, List.filter_cons_of_neg hu]
          obtain ⟨x, hx⟩ := Option.isSome_iff_exists.mp (hk.links.userLive u a hmem)
          obtain ⟨hlists, hothers⟩ := userDelete_others leaving hk.nicks hx
          obtain ⟨hok, haccounts, hloaded⟩ := hk.changes (userDelete_changes ircd leaving k u)
          have hlist' : (userDelete ircd leaving k u).logins.logins a = kept ++ us := by
            rw [hlists, unlink_eq_logOut ((hk.links.linked u a).mpr hmem)]
            show (if a = a then (k.logins.logins a).erase u else _) = _
            rw [if_pos rfl, hlist, List.erase_append_right _ (by
              intro hkept
              exact (List.nodup_append.mp hnodup).2.2 u hkept u (List.mem_cons_self ..) rfl)]
            rw [List.erase_cons_head]
          obtain ⟨hok', haccounts', hres⟩ := ih kept _ hok (by rw [hloaded]; exact hkills) hlist'
          refine ⟨hok', haccounts'.trans haccounts, hres.trans ?_⟩
          congr 1
          apply List.filter_congr
          intro w hw
          have hwmem : w ∈ k.logins.logins a := by simp [hlist, hw]
          obtain ⟨y, hy⟩ := Option.isSome_iff_exists.mp (hk.links.userLive w a hwmem)
          have hne : w ≠ u := by
            intro he
            have hcons := (List.nodup_append.mp hnodup).2.1
            exact (List.nodup_cons.mp hcons).1 (he ▸ hw)
          exact (hothers w y hy hne).spared
    rw [if_pos hkills]
    exact hloop _ [] n h hkills rfl
  · have hloop : ∀ (us : List ClientId) (k : Net), LoginsOk ircd k →
        ¬(k.authserviceLoaded && ircd.killsOnLogout) = true → k.logins.logins a = us →
        LoginsOk ircd (us.foldl (logOutUser ircd leaving a) k) ∧
          (us.foldl (logOutUser ircd leaving a) k).logins.accounts = k.logins.accounts ∧
          (us.foldl (logOutUser ircd leaving a) k).logins.logins a = [] := by
      intro us
      induction us with
      | nil =>
        intro k hk _ hlist
        exact ⟨hk, rfl, hlist⟩
      | cons u us ih =>
        intro k hk hkills hlist
        have hone : logOutUser ircd leaving a k u = k.withLogins (k.logins.logOut u a) := by
          cases hauth : k.authserviceLoaded with
          | false => simp only [logOutUser, hauth, Bool.false_eq_true, if_false]
          | true =>
            have hkill : ircd.killsOnLogout = false := by simpa [hauth] using hkills
            simp only [logOutUser, hauth, ircdOnLogout, hkill, if_true, Bool.false_eq_true, if_false]
        have hmem : u ∈ k.logins.logins a := by simp [hlist]
        have hok : LoginsOk ircd (k.withLogins (k.logins.logOut u a)) :=
          ⟨hk.nicks, hk.links.logOut ((hk.links.linked u a).mpr hmem),
            ⟨hk.accounts.named, hk.accounts.owned, hk.accounts.fresh⟩⟩
        have hlist' : (k.withLogins (k.logins.logOut u a)).logins.logins a = us := by
          show (if a = a then (k.logins.logins a).erase u else _) = _
          rw [if_pos rfl, hlist, List.erase_cons_head]
        rw [List.foldl_cons, hone]
        exact ih _ hok hkills hlist'
    rw [if_neg hkills]
    exact hloop _ n h hkills rfl

theorem LoginsOk.myuserDelete (h : LoginsOk ircd n) (hgone : lingering ircd n a = []) :
    LoginsOk ircd (myuserDelete ircd leaving n a) := by
  cases hx : n.logins.accounts.find a with
  | none =>
    simp only [Net.myuserDelete, hx]
    exact h
  | some x =>
    obtain ⟨hok, haccounts, hlist⟩ := logOutUsers_spec leaving h a
    simp only [Net.myuserDelete, hx]
    rw [hgone] at hlist
    exact ⟨hok.nicks, hok.links.free hlist, hok.accounts.free (by rw [haccounts, hx])⟩

variable (leaving) in
theorem myuserDelete_linked_iff (h : LoginsOk ircd n) (a : AccountId) :
    (∀ u b, (myuserDelete ircd leaving n a).logins.myuser u = some b ↔
      u ∈ (myuserDelete ircd leaving n a).logins.logins b) ↔ lingering ircd n a = [] := by
  cases hx : n.logins.accounts.find a with
  | none =>
    have hnil : n.logins.logins a = [] := by
      apply List.eq_nil_iff_forall_not_mem.mpr
      intro u hu
      have hlive := h.links.accountLive u a hu
      rw [hx] at hlive
      cases hlive
    have hlinger : lingering ircd n a = [] := by
      rw [lingering, hnil]
      split_ifs <;> rfl
    simp only [Net.myuserDelete, hx]
    exact ⟨fun _ => hlinger, fun _ => h.links.linked⟩
  | some x =>
    obtain ⟨hok, -, hlist⟩ := logOutUsers_spec leaving h a
    simp only [Net.myuserDelete, hx]
    rw [← hlist]
    exact hok.links.free_iff

variable (leaving) in
theorem LoginsOk.ircdOnLogout (h : LoginsOk ircd n) (u : ClientId) :
    LoginsOk ircd (ircdOnLogout ircd leaving n u).1 ∧
      (ircdOnLogout ircd leaving n u).1.logins.accounts = n.logins.accounts := by
  rw [Net.ircdOnLogout]
  split_ifs
  · obtain ⟨hok, haccounts, -⟩ := h.changes (killUser_changes ircd leaving n u)
    exact ⟨hok, haccounts⟩
  · exact ⟨h, rfl⟩

theorem LoginsOk.myuserRename (h : LoginsOk ircd n) (a : AccountId) (name : CString) :
    LoginsOk ircd (myuserRename ircd leaving n a name) := by
  cases hx : n.logins.accounts.find a with
  | none =>
    simp only [Net.myuserRename, hx]
    exact h
  | some x =>
    have hloop : ∀ (us : List ClientId) (k : Net), LoginsOk ircd k →
        LoginsOk ircd (us.foldl (fun k u => (Net.ircdOnLogout ircd leaving k u).1) k) ∧
          (us.foldl (fun k u => (Net.ircdOnLogout ircd leaving k u).1) k).logins.accounts =
            k.logins.accounts := by
      intro us
      induction us with
      | nil => exact fun k hk => ⟨hk, rfl⟩
      | cons u us ih =>
        intro k hk
        obtain ⟨hok, haccounts⟩ := hk.ircdOnLogout leaving u
        obtain ⟨hok', haccounts'⟩ := ih _ hok
        exact ⟨hok', haccounts'.trans haccounts⟩
    have hrename : ∀ k : Net, LoginsOk ircd k → k.logins.accounts = n.logins.accounts →
        LoginsOk ircd (k.withLogins (k.logins.rename ircd.irccasecanon a x name)) := by
      intro k hk haccounts
      have hlinks := hk.links.of_accounts (fun y => { y with name := name }) a
      exact ⟨hk.nicks, ⟨hlinks.linked, hlinks.nodup, hlinks.userLive, hlinks.accountLive⟩,
        hk.accounts.rename (by rw [haccounts, hx]) name⟩
    simp only [Net.myuserRename, hx]
    split_ifs
    · obtain ⟨hok, haccounts⟩ := hloop (n.logins.logins a) n h
      exact hrename _ hok haccounts
    · exact hrename n h rfl
    · exact h

/-! ### Logins -/

theorem LoginsOk.identify (h : LoginsOk ircd n) (huser : (n.dir.users.find u).isSome = true)
    (hfree : n.logins.myuser u = none) (haccount : (n.logins.accounts.find a).isSome = true) :
    LoginsOk ircd (identify n u a) :=
  ⟨h.nicks, h.links.link hfree huser haccount,
    ⟨h.accounts.named, h.accounts.owned, h.accounts.fresh⟩⟩

theorem LoginsOk.modify (h : LoginsOk ircd n) (f : Account → Account)
    (hf : ∀ x, (f x).name = x.name) (a : AccountId) :
    LoginsOk ircd (n.withLogins { n.logins with accounts := n.logins.accounts.modify a f }) :=
  ⟨h.nicks, h.links.of_accounts f a, h.accounts.modify a hf⟩

theorem LoginsOk.unlink (h : LoginsOk ircd n) (u : ClientId) :
    LoginsOk ircd (n.withLogins (n.logins.unlink u)) :=
  ⟨h.nicks, h.links.unlink u, h.accounts.unlink u⟩

theorem LoginsOk.loginTarget_live (h : LoginsOk ircd n) {login : Option CString} {name : CString}
    (ht : loginTarget ircd n x login = (some a, name)) :
    (n.logins.accounts.find a).isSome = true := by
  cases login with
  | some login =>
    simp only [loginTarget, Prod.mk.injEq] at ht
    exact h.accounts.myuserFind_live ht.1
  | none =>
    cases ho : n.logins.nickOwner ircd.irccasecanon x.nick with
    | none => simp [loginTarget, ho] at ht
    | some b =>
      simp only [loginTarget, ho, Prod.mk.injEq, Option.some.injEq] at ht
      rw [← ht.1]
      exact h.accounts.owned _ b ho

theorem LoginsOk.createLogin (h : LoginsOk ircd n) (login : CString) (ts now : Int) :
    LoginsOk ircd (createLogin ircd n login ts now).1 ∧
      (createLogin ircd n login ts now).1.dir = n.dir ∧
      (createLogin ircd n login ts now).1.logins.myuser = n.logins.myuser ∧
      ((createLogin ircd n login ts now).1.logins.accounts.find
        (createLogin ircd n login ts now).2).isSome = true := by
  obtain ⟨hlinks, haccounts, hmyuser, hlive⟩ :=
    myuserAdd_ok h.links h.accounts login now
  simp only [Net.createLogin]
  generalize n.logins.myuserAdd ircd.irccasecanon login now = s at hlinks haccounts hmyuser hlive
  obtain ⟨l, a⟩ := s
  have hok : LoginsOk ircd (n.withLogins l) := ⟨h.nicks, hlinks, haccounts⟩
  simp only
  split_ifs
  · refine ⟨hok.modify (fun y => { y with registered := ts }) (fun _ => rfl) a, rfl, hmyuser, ?_⟩
    show ((l.accounts.modify a _).find a).isSome = true
    rw [isSome_modify_account]
    exact hlive
  · exact ⟨hok, rfl, hmyuser, hlive⟩

theorem LoginsOk.burstIdentify (h : LoginsOk ircd n) (huser : (n.dir.users.find u).isSome = true)
    (haccount : (n.logins.accounts.find a).isSome = true) (ts : Int) :
    LoginsOk ircd (burstIdentify ircd leaving n u a ts) := by
  rw [Net.burstIdentify]
  by_cases hin : (n.logins.myuser u).isSome = true
  · rw [if_pos hin]
    exact h
  · have hfree : n.logins.myuser u = none := by simpa using hin
    have hid := h.identify huser hfree haccount
    rw [if_neg hin]
    split_ifs
    · exact (h.ircdOnLogout leaving u).1
    · exact h
    · exact (h.ircdOnLogout leaving u).1
    · dsimp only
      split_ifs
      · exact hid.modify (fun y => { y with pendinglogin := false }) (fun _ => rfl) a
      · exact hid

theorem LoginsOk.handleBurstlogin (h : LoginsOk ircd n) (u : ClientId) (login : Option CString)
    (ts now : Int) : LoginsOk ircd (handleBurstlogin ircd leaving n u login ts now) := by
  rw [Net.handleBurstlogin]
  cases hx : n.dir.users.find u with
  | none => exact h
  | some x =>
    simp only
    cases ht : loginTarget ircd n x login with
    | mk mu name =>
      cases mu with
      | some a => exact h.burstIdentify (by rw [hx]; rfl) (h.loginTarget_live ht) ts
      | none =>
        simp only
        split_ifs
        · exact (h.ircdOnLogout leaving u).1
        · exact h
        · obtain ⟨hok, hdir, -, hlive⟩ := h.createLogin name ts now
          exact hok.burstIdentify (by rw [hdir, hx]; rfl) hlive ts

theorem LoginsOk.handleSetlogin (h : LoginsOk ircd n) (u : ClientId) (login : Option CString)
    (ts now : Int) : LoginsOk ircd (handleSetlogin ircd n u login ts now) := by
  rw [Net.handleSetlogin]
  cases hx : n.dir.users.find u with
  | none => exact h
  | some x =>
    simp only
    cases ht : loginTarget ircd n x login with
    | mk mu name =>
      have hout := h.unlink u
      have huser : ((n.withLogins (n.logins.unlink u)).dir.users.find u).isSome = true := by
        show (n.dir.users.find u).isSome = true
        rw [hx]
        rfl
      have hfree : (n.withLogins (n.logins.unlink u)).logins.myuser u = none := by
        show (n.logins.unlink u).myuser u = none
        rw [unlink_myuser, if_pos rfl]
      cases mu with
      | none =>
        simp only
        split_ifs
        · exact h
        · exact hout
        · obtain ⟨hok, hdir, hmyuser, hlive⟩ := hout.createLogin name ts now
          apply hok.identify
          · rw [hdir]
            exact huser
          · rw [hmyuser]
            exact hfree
          · exact hlive
      | some a =>
        have hlive : ((n.withLogins (n.logins.unlink u)).logins.accounts.find a).isSome = true := by
          show ((n.logins.unlink u).accounts.find a).isSome = true
          rw [unlink_accounts]
          exact h.loginTarget_live ht
        simp only
        split_ifs
        · exact h
        · exact hout
        · have hset := hout.modify (fun y => { y with registered := ts }) (fun _ => rfl) a
          refine hset.identify huser hfree ?_
          show ((Registry.modify a _ (n.logins.unlink u).accounts).find a).isSome = true
          rw [isSome_modify_account]
          exact hlive
        · exact hout.identify huser hfree hlive

theorem LoginsOk.myuserLogin (h : LoginsOk ircd n) (u : ClientId) (a : AccountId) :
    LoginsOk ircd (myuserLogin n u a) := by
  rw [Net.myuserLogin]
  cases hx : n.dir.users.find u with
  | none => exact h
  | some x =>
    cases ha : n.logins.accounts.find a with
    | none => exact h
    | some y =>
      cases hu : n.logins.myuser u with
      | some b => exact h
      | none => exact h.identify (by rw [hx]; rfl) hu (by rw [ha]; rfl)

/-! ### Runs -/

theorem LoginsOk.splitUser (h : LoginsOk ircd n) (u : ClientId) :
    LoginsOk ircd (Net.splitUser ircd leaving n u) := by
  have hallow : LoginsOk ircd (n.withLogins (n.logins.allowBurst u)) := by
    rw [allowBurst]
    cases n.logins.myuser u with
    | none => exact h
    | some a => exact h.modify (fun y => { y with noburstlogin := false }) (fun _ => rfl) a
  exact (hallow.changes (userDelete_changes ircd leaving _ u)).1

theorem LoginsOk.userChangeuid (h : LoginsOk ircd n) (u : ClientId) (uid : Option CString) :
    LoginsOk ircd (userChangeuid n u uid) := by
  rw [Net.userChangeuid]
  cases hx : n.dir.users.find u with
  | none => exact h
  | some x =>
    refine ⟨h.nicks.changeUid hx uid, h.links.of_users fun v hv => ?_, h.accounts⟩
    show ((n.dir.users.set u _).find v).isSome = true
    rw [Registry.find_set]
    split_ifs with he
    · rw [he, hx]
      rfl
    · exact hv

theorem loginStep_ok (h : LoginsOk ircd n) (e : LoginEvent) (hdone : LogoutsDone ircd n e) :
    LoginsOk ircd (loginStep ircd leaving n e).1 := by
  cases e with
  | addUser x now => exact (h.changes (userAdd_changes ircd leaving n x now)).1
  | deleteUser u => exact (h.changes (userDelete_changes ircd leaving n u)).1
  | killUser u => exact (h.changes (killUser_changes ircd leaving n u)).1
  | splitUser u => exact h.splitUser u
  | changeNick u nick ts => exact (h.changes (userChangenick_changes ircd leaving n u nick ts)).1
  | changeUid u uid => exact h.userChangeuid u uid
  | setFlags u f => exact ⟨h.nicks, h.links, h.accounts⟩
  | authservice loaded => exact ⟨h.nicks, h.links, h.accounts⟩
  | backend loaded => exact ⟨h.nicks, h.links, h.accounts⟩
  | addAccount name now =>
    obtain ⟨hlinks, haccounts, -⟩ := myuserAdd_ok h.links h.accounts name now
    exact ⟨h.nicks, hlinks, haccounts⟩
  | accountFlags a noburstlogin pendinglogin =>
    exact h.modify (fun y => { y with noburstlogin := noburstlogin, pendinglogin := pendinglogin })
      (fun _ => rfl) a
  | addNick nick a =>
    rw [loginStep]
    simp only
    split_ifs with ha
    · exact ⟨h.nicks, ⟨h.links.linked, h.links.nodup, h.links.userLive, h.links.accountLive⟩,
        h.accounts.mynickAdd nick ha⟩
    · exact h
  | deleteNick nick =>
    exact ⟨h.nicks, ⟨h.links.linked, h.links.nodup, h.links.userLive, h.links.accountLive⟩,
      h.accounts.mynickDelete nick⟩
  | burstlogin u login ts now => exact h.handleBurstlogin u login ts now
  | setlogin u login ts now => exact h.handleSetlogin u login ts now
  | clearlogin u =>
    rw [loginStep, handleClearlogin]
    simp only
    split_ifs
    · exact h
    · exact h.unlink u
  | login u a => exact h.myuserLogin u a
  | deleteAccount a => exact h.myuserDelete hdone
  | renameAccount a name => exact h.myuserRename a name

structure Linked (n : Net) : Prop where
  linked : ∀ u a, n.logins.myuser u = some a ↔ u ∈ n.logins.logins a
  once : ∀ u a, u ∈ n.logins.logins a → (n.logins.logins a).count u = 1
  only : ∀ u a b, u ∈ n.logins.logins a → u ∈ n.logins.logins b → a = b
  live : ∀ u a, u ∈ n.logins.logins a →
    (n.dir.users.find u).isSome = true ∧ (n.logins.accounts.find a).isSome = true

theorem LoginsOk.linked (h : LoginsOk ircd n) : Linked n where
  linked := h.links.linked
  once u a hu := List.count_eq_one_of_mem (h.links.nodup a) hu
  only u a b ha hb := by
    have hpa := (h.links.linked u a).mpr ha
    have hpb := (h.links.linked u b).mpr hb
    rw [hpa] at hpb
    exact Option.some.inj hpb
  live u a hu := ⟨h.links.userLive u a hu, h.links.accountLive u a hu⟩

end rules

/-- The links in every run in which no account is deleted while somebody stays logged in to it, and
that such a deletion is the only step that breaks them. -/
theorem login_links_run (es : List LoginEvent)
    (hrun : Guarded (loginStep ircd leaving) (LogoutsDone ircd) (start ircd) es) :
    let n := (run (loginStep ircd leaving) (start ircd) es).1
    Linked n ∧ ∀ e, Linked (loginStep ircd leaving n e).1 ↔ LogoutsDone ircd n e := by
  intro n
  have hok : LoginsOk ircd n := by
    apply run_state_invariant _ loginsOk_start hrun
    exact fun n e h hdone => loginStep_ok h e hdone
  refine ⟨hok.linked, fun e => ⟨fun h => ?_, fun hdone => (loginStep_ok hok e hdone).linked⟩⟩
  cases e with
  | deleteAccount a => exact (myuserDelete_linked_iff leaving hok a).mp h.linked
  | _ => trivial

def killingIrcd : Ircd := { plainIrcd with killsOnLogout := true }

/-- A user from another server is killed when its account goes. -/
theorem login_links_of_killed :
    let n := (run (loginStep killingIrcd fun _ _ => []) (start killingIrcd)
      [.addUser ⟨['a'], ['u'], ['h'], some ['1'], 1, 100⟩ 0, .addAccount ['b'] 0,
        .burstlogin 0 (some ['b']) 0 0, .authservice true, .deleteAccount 0]).1
    Linked n ∧ ∀ e, Linked (loginStep killingIrcd (fun _ _ => []) n e).1 ↔
      LogoutsDone killingIrcd n e :=
  login_links_run killingIrcd (fun _ _ => []) _ (by decide +kernel)

/-- A client of services that was set to be logged in is not killed, and keeps the pointer. -/
theorem spared_login_dangles :
    ¬Linked (run (loginStep killingIrcd fun _ _ => []) (start killingIrcd)
      [.addUser ⟨['s'], ['u'], ['h'], some ['1'], me, 100⟩ 0, .addAccount ['b'] 0,
        .setlogin 0 (some ['b']) 0 0, .authservice true, .deleteAccount 0]).1 := by
  intro h
  have hlist := (h.linked 0 0).mp (by decide +kernel)
  have hnil : (0 : ClientId) ∉ (run (loginStep killingIrcd fun _ _ => []) (start killingIrcd)
      [.addUser ⟨['s'], ['u'], ['h'], some ['1'], me, 100⟩ 0, .addAccount ['b'] 0,
        .setlogin 0 (some ['b']) 0 0, .authservice true, .deleteAccount 0]).1.logins.logins 0 := by
    decide +kernel
  exact hnil hlist

end Net
end ChatServices.Network
