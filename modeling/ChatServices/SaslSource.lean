import ChatServices.SaslServ

/-! The `sourceinfo_t` that `login_user` creates for hooks and logging: it is released behind the first
hook already, and used and released again on most ways out. -/
namespace ChatServices.Sasl
open ChatServices.Lib ChatServices.Text

/-- What `login_user` does with its source: create it, hand it to the hooks or to `logcommand`, or
release it. -/
inductive SourceOp where
  | create
  | canLogin (mu : MyUserRef)
  | logcommand (fmt : String) (args : List CString)
  | unref
  deriving DecidableEq

def accountName (db : Accounts) (mu : MyUserRef) : CString := ((db.get mu).map MyUser.name).getD []

/-- The end of `login_user`, from the check on the number of logins on. -/
def maxloginsSource (cfg : ServConfig) (db : Accounts) (target : MyUserRef) : List SourceOp :=
  if (loginsOf db target).length ≥ cfg.maxlogins then
    [.logcommand "failed LOGIN to \x02%s\x02 (too many logins)" [accountName db target], .unref]
  else [.unref]

def accountsSource (cfg : ServConfig) (w : World) (db : Accounts) (source target : MyUserRef) :
    List SourceOp :=
  if target = source then maxloginsSource cfg db target
  else if !mayImpersonate w db source target then
    [.logcommand "denied IMPERSONATE by \x02%s\x02 to \x02%s\x02"
      [accountName db source, accountName db target], .unref]
  else
    [.logcommand "allowed IMPERSONATE by \x02%s\x02 to \x02%s\x02"
      [accountName db source, accountName db target], .canLogin target] ++
    if !w.userCanLogin target then
      [.logcommand "failed LOGIN to \x02%s\x02 (denied by hook)" [accountName db target], .unref]
    else if isFrozen db target then
      [.logcommand "failed LOGIN to \x02%s\x02 (frozen)" [accountName db target], .unref]
    else maxloginsSource cfg db target

def hookedSource (cfg : ServConfig) (w : World) (db : Accounts) (p : Session) (source : MyUserRef) :
    List SourceOp :=
  if !w.userCanLogin source then
    [.logcommand "failed LOGIN to \x02%s\x02 (denied by hook)" [accountName db source]]
  else
    match loginTarget cfg db p source with
    | (none, _) => [.unref]
    | (some target, _) =>
      if strictRefused cfg db source target ≠ [] then []
      else if isFrozen db source then
        [.logcommand "failed LOGIN to \x02%s\x02 (frozen)" [accountName db source], .unref]
      else accountsSource cfg w db source target

/-- The source of `login_user` on the way that the call takes. -/
def loginSource (cfg : ServConfig) (w : World) (db : Accounts) (p : Session) : List SourceOp :=
  match p.username.bind (myuserFindByNick cfg.toConfig db) with
  | none => []
  | some source => .create :: .canLogin source :: .unref :: hookedSource cfg w db p source

def ReleasedOnce (ops : List SourceOp) : Prop :=
  .create ∈ ops → ops.count .unref = 1 ∧ ops.getLast? = some .unref

instance (ops : List SourceOp) : Decidable (ReleasedOnce ops) :=
  inferInstanceAs (Decidable (_ → _))

def EarlyReleaseRight (cfg : ServConfig) (w : World) (db : Accounts) (p : Session) : Prop :=
  ∀ source, p.username.bind (myuserFindByNick cfg.toConfig db) = some source →
    w.userCanLogin source = true ∧
      ∃ target, (loginTarget cfg db p source).1 = some target ∧ strictRefused cfg db source target ≠ []

section login
variable {cfg : ServConfig} {w : World} {db : Accounts} {p : Session} {source target : MyUserRef}
  {rest : List SourceOp}

theorem releasedOnce_early (mu : MyUserRef) :
    ReleasedOnce (.create :: .canLogin mu :: .unref :: rest) ↔ rest = [] := by
  cases rest with
  | nil => simp [ReleasedOnce]
  | cons op rest =>
    simp only [reduceCtorEq, iff_false]
    intro h
    obtain ⟨hcount, hlast⟩ := h List.mem_cons_self
    rw [List.getLast?_cons_cons, List.getLast?_cons_cons, List.getLast?_cons_cons] at hlast
    have hpos := List.count_pos_iff.mpr (List.mem_of_getLast? hlast)
    rw [List.count_cons_of_ne (by simp), List.count_cons_of_ne (by simp), List.count_cons_self]
      at hcount
    omega

theorem maxloginsSource_ne_nil : maxloginsSource cfg db target ≠ [] := by
  rw [maxloginsSource]
  split <;> simp

theorem accountsSource_ne_nil : accountsSource cfg w db source target ≠ [] := by
  rw [accountsSource]
  split
  · exact maxloginsSource_ne_nil
  split
  · simp
  · simp

theorem hookedSource_eq_nil_iff : hookedSource cfg w db p source = [] ↔
    w.userCanLogin source = true ∧ ∃ target,
      (loginTarget cfg db p source).1 = some target ∧ strictRefused cfg db source target ≠ [] := by
  rw [hookedSource]
  cases w.userCanLogin source with
  | false => simp
  | true =>
    generalize loginTarget cfg db p source = found
    obtain ⟨target, q⟩ := found
    cases target with
    | none => simp
    | some target =>
      by_cases hstrict : strictRefused cfg db source target = []
      · cases isFrozen db source <;> simp [hstrict, accountsSource_ne_nil]
      · simp [hstrict]

/-- The exact ways on which `login_user` releases its source once and leaves it alone then. -/
theorem loginSource_released_iff (cfg : ServConfig) (w : World) (db : Accounts) (p : Session) :
    ReleasedOnce (loginSource cfg w db p) ↔ EarlyReleaseRight cfg w db p := by
  rw [loginSource, EarlyReleaseRight]
  cases p.username.bind (myuserFindByNick cfg.toConfig db) with
  | none => simp [ReleasedOnce]
  | some source =>
    dsimp only
    rw [releasedOnce_early, hookedSource_eq_nil_iff]
    simp

end login

/-- A plain login already releases the source twice. -/
theorem loginSource_released_twice : ¬∀ (cfg : ServConfig) (w : World) (db : Accounts) (p : Session),
    ReleasedOnce (loginSource cfg w db p) := by
  intro h
  have hplain := h sampleConfig World.refusing sampleAccounts
    { Session.fresh with username := some "admin".toList }
  revert hplain
  decide +kernel

end ChatServices.Sasl
