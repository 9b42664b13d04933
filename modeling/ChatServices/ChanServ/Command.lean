import ChatServices.ChanServ.AccessQuery
import ChatServices.ChanServ.Templates
import ChatServices.Cidr

/-! What every channel command shares: replies, outcomes, and the rules about opening,
changing and closing one access entry. -/
namespace ChatServices.ChanServ
open ChatServices.Lib ChatServices.Lib.Mask ChatServices.Lib.MaskUpdate ChatServices.Text

/-- `command_fail` and `command_success`, with the format of the message. -/
inductive Reply where
  | fail (fault : Fault) (fmt : String) (args : List CString)
  | success (fmt : String) (args : List CString)
  deriving DecidableEq

def Reply.isFail : Reply → Bool
  | .fail .. => true
  | .success .. => false

/-- How a command ends. `crash` is a NULL pointer followed, or a text with a conversion in it used as
a format; there is no telling what becomes of the process. -/
inductive Outcome where
  | crash
  | done (db : ChanDb) (replies : List Reply)

inductive EntryResult where
  | stopped (reply : Reply)
  | changed (oldlevel : Flags) (m : Modified)

def insufficientParams : String := "Insufficient parameters for \x02%s\x02."
def notRegisteredChannel : String := "Channel \x02%s\x02 is not registered."
def notRegistered : String := "\x02%s\x02 is not registered."
def notAuthorizedOperation : String := "You are not authorized to perform this operation."
def notAuthorizedCommand : String := "You are not authorized to execute this command."
def listFull : String := "Channel %s access list is full."
def tooFewNonWildcards : String :=
  "Invalid nick!user@host: \x02%s\x02  At least %u non-wildcard characters are required."
def founderOnHostmask : String := "You may not set founder status on a hostmask."
def flagsRequireAccount : String :=
  "You may not add any of the following flags to hostmasks: %s"
def tooManyChannels : String := "\x02%s\x02 has too many channels registered."
def noFoundership : String := "\x02%s\x02 cannot take foundership of a channel."
def lastFounder : String := "You may not remove the last founder."
def unchangedAccess : String := "Channel access to \x02%s\x02 for \x02%s\x02 unchanged."

def natArg (n : Nat) : CString := (toString n).toList

theorem natArg_eq (n : Nat) : natArg n = Nat.toDigits 10 n := Nat.toList_repr

theorem isDigit_of_mem_natArg {n : Nat} {c : Char} (h : c ∈ natArg n) : c.isDigit = true :=
  Nat.isDigit_of_mem_toDigits (by omega) (by omega) (natArg_eq n ▸ h)

theorem takeWhile_isDigit_natArg (n : Nat) : (natArg n).takeWhile Char.isDigit = natArg n :=
  List.takeWhile_eq_self_iff.mpr fun _ => isDigit_of_mem_natArg

theorem foldl_digits_natArg (n : Nat) :
    (natArg n).foldl (fun n c => 10 * n + (c.toNat - '0'.toNat)) 0 = n := by
  rw [natArg_eq]
  exact Nat.ofDigitChars_eq_foldl.symm.trans Nat.ofDigitChars_ten_toDigits

theorem isDigit_natArg {n : Nat} {c : Char} (h : c ∈ natArg n) : Match.isDigit c = true := by
  have hdigit := isDigit_of_mem_natArg h
  simpa [Match.isDigit, Char.isDigit, Char.le_def] using hdigit

theorem digitsVal_natArg (n : Nat) : Cidr.digitsVal (natArg n) = n := by
  have hfold : (fun n c => n * 10 + Cidr.digitVal c) =
      fun (n : Nat) (c : Char) => 10 * n + (c.toNat - '0'.toNat) := by
    funext n c
    rw [Nat.mul_comm, Cidr.digitVal]
  rw [Cidr.digitsVal, hfold, foldl_digits_natArg]

theorem natArg_ne_nil (n : Nat) : natArg n ≠ [] := natArg_eq n ▸ Nat.toDigits_ne_nil

theorem strtol_natArg (n : Nat) {rest : CString} (hrest : ∀ d ∈ rest.head?, Match.isDigit d = false) :
    Cidr.strtol (natArg n ++ rest) = min (n : Int) (2 ^ 63 - 1) := by
  have hval := digitsVal_natArg n
  have hdigits : ∀ d ∈ natArg n, Match.isDigit d = true := fun _ => isDigit_natArg
  cases hdec : natArg n with
  | nil => exact absurd hdec (natArg_ne_nil n)
  | cons d ds =>
    rw [hdec] at hval hdigits
    rw [Cidr.strtol_leading hdigits hrest, hval]

theorem strtol_neg_natArg (n : Nat) : Cidr.strtol ('-' :: natArg n) = max (-(n : Int)) (-2 ^ 63) := by
  have htake : (natArg n).takeWhile Match.isDigit = natArg n :=
    List.takeWhile_eq_self_iff.mpr fun _ => isDigit_natArg
  rw [Cidr.strtol, List.dropWhile_cons_of_neg (by decide)]
  change max (-(Cidr.digitsVal ((natArg n).takeWhile Match.isDigit) : Int)) (-2 ^ 63) = _
  rw [htake, digitsVal_natArg]

/-- A `%s` without an argument to print. -/
def orNull (s : Option CString) : CString := s.getD "(null)".toList

def isFlagString (s : CString) : Bool := s.head?.any (fun c => c ∈ ['+', '-', '='])

def rcommandPrefix (cfg : ChanConfig) : CString := if cfg.usesRcommand then [] else "msg ".toList

/-- A command at work on one entry: open it, run the command's body on it, and answer;
`finish` gives the answer to an accepted change, or `none` for a crash. -/
def editEntry (w : World) (db : ChanDb) (si : Source) (mc : MyChanRef) (t : Target)
    (body : ChanDb → Chanacs → EntryEnd EntryResult)
    (finish : Flags → Modified → Option (List Reply)) : Outcome :=
  let r := withEntry db.acl (openKey db.acl mc t) (newEntry w db (si.entity db))
    (fun acl ca => body { db with acl := acl } ca)
  match r.2 with
  | .stopped reply => .done { db with acl := r.1 } [reply]
  | .changed oldlevel m =>
    match finish oldlevel m with
    | some replies => .done { db with acl := r.1 } replies
    | none => .crash

/-- `notify_channel_acl_change` needs the account of the source and of the target. Where a command
works on one entry it is followed as far as that; for the loops of ROLE and TEMPLATE the texts are
followed too (`aclNoticesCrash`). -/
def notifyCrashes (cfg : ChanConfig) (db : ChanDb) (si : Source) (mt : Entity) : Bool :=
  (si.smu db).isNone || (myuserFind cfg.toConfig db.accounts (mt.name db)).isNone

def founderRefusal (cfg : ChanConfig) (w : World) (db : ChanDb) (mc : MyChanRef)
    (mt : Option Entity) : Option Reply :=
  if mychanNumFounders db.acl mc ≥ cfg.maxfounders then
    if cfg.maxfounders = 1 then some (.fail .noprivs "Only 1 founder allowed per channel." [])
    else some (.fail .noprivs "Only %d founders allowed per channel." [natArg cfg.maxfounders])
  else
    match mt with
    | none => some (.fail .badparams founderOnHostmask [])
    | some mt =>
      if !myentityCanRegisterChannel cfg w db mt then
        some (.fail .toomany tooManyChannels [mt.name db])
      else if !myentityAllowFoundership db mt then
        some (.fail .toomany noFoundership [mt.name db])
      else none

/-! ### Changing an entry -/

section modify
variable {w : World} {db : ChanDb} {ca : Chanacs} {c : Change} {restrict : Flags}
  {setter : Option Entity}

theorem chanacsModify_change : (chanacsModify w db ca c restrict setter).change =
    ⟨added ca.level c.add, removed ca.level c.add c.rem⟩ := by
  simp only [chanacsModify]
  split_ifs <;> rfl

theorem chanacsModify_ok_iff : (chanacsModify w db ca c restrict setter).ok = true ↔
    result ca.level c.add c.rem = ca.level ∨ Permits restrict ca.level c.add c.rem := by
  simp only [chanacsModify, result_eq_self_iff, Permits, ← test_not_eq_false_iff]
  split_ifs with h1 h2 h3 h4
  · simp [h1]
  · simp [h1, h2]
  · simp [h1, h3]
  · simp [h1, h4]
  · simp [h1, h2, h3, h4]

theorem chanacsModify_level (h : (chanacsModify w db ca c restrict setter).ok = true) :
    (chanacsModify w db ca c restrict setter).ca.level = result ca.level c.add c.rem := by
  revert h
  simp only [chanacsModify]
  split_ifs with h1
  · exact fun _ => ((result_eq_self_iff _ _ _).mpr h1).symm
  · exact False.elim
  · exact False.elim
  · exact False.elim
  · exact fun _ => rfl

theorem chanacsModify_refused (h : (chanacsModify w db ca c restrict setter).ok = false) :
    (chanacsModify w db ca c restrict setter).ca = ca := by
  revert h
  simp only [chanacsModify]
  split_ifs <;> simp

theorem chanacsModify_unchanged
    (h : (chanacsModify w db ca c restrict setter).change.add |||
      (chanacsModify w db ca c restrict setter).change.rem = 0#32) :
    (chanacsModify w db ca c restrict setter).ca = ca := by
  rw [chanacsModify_change] at h
  simp only [chanacsModify]
  rw [if_pos h]

theorem chanacsModify_unchanged_iff :
    (chanacsModify w db ca c restrict setter).change.add |||
      (chanacsModify w db ca c restrict setter).change.rem = 0#32 ↔
    result ca.level c.add c.rem = ca.level := by
  rw [chanacsModify_change, result_eq_self_iff]

end modify

/-! ### The rights that an access list gives -/

def levelAt (acl : AccessList) (k : MyChanRef × Target) : Flags :=
  ((acl.find k).map Chanacs.level).getD 0#32

@[simp] theorem levelAt_of_find {acl : AccessList} {k : MyChanRef × Target} {ca : Chanacs}
    (h : acl.find k = some ca) : levelAt acl k = ca.level := by
  simp [levelAt, h]

theorem find_chanacsClose (k k' : MyChanRef × Target) (acl : AccessList) :
    (chanacsClose k acl).find k' =
      if k' = k ∧ levelAt acl k = 0#32 then none else acl.find k' := by
  rw [chanacsClose]
  cases h : acl.find k with
  | none =>
    by_cases hk : k' = k
    · simp [hk, h]
    · simp [hk]
  | some ca =>
    by_cases h0 : ca.level = 0#32
    · by_cases hk : k' = k <;> simp [h, h0, hk]
    · simp [h, h0]

@[simp] theorem levelAt_chanacsClose (k k' : MyChanRef × Target) (acl : AccessList) :
    levelAt (chanacsClose k acl) k' = levelAt acl k' := by
  rw [levelAt, find_chanacsClose]
  by_cases h : k' = k ∧ levelAt acl k = 0#32
  · rw [if_pos h, h.1, h.2]
    rfl
  · rw [if_neg h, levelAt]

section entry
variable {α : Type} {acl : AccessList} {k : MyChanRef × Target} {fresh : Chanacs}
  {body : AccessList → Chanacs → EntryEnd α}

def openedEntry (acl : AccessList) (k : MyChanRef × Target) (fresh : Chanacs) : Chanacs :=
  (acl.find k).getD fresh

theorem find_insertNew_self : (acl.insertNew k fresh).find k = some (openedEntry acl k fresh) := by
  rw [Registry.find_insertNew, if_pos rfl, openedEntry]
  cases acl.find k <;> rfl

theorem openedEntry_level (h : fresh.level = 0#32) :
    (openedEntry acl k fresh).level = levelAt acl k := by
  rw [openedEntry, levelAt]
  cases acl.find k with
  | none => exact h
  | some ca => rfl

theorem levelAt_insertNew (h : fresh.level = 0#32) (k' : MyChanRef × Target) :
    levelAt (acl.insertNew k fresh) k' = levelAt acl k' := by
  rw [levelAt, levelAt, Registry.find_insertNew]
  cases hf : acl.find k' with
  | some ca => rfl
  | none =>
    by_cases hk : k = k' <;> simp [hk, h]

theorem withEntry_leave {r : α}
    (h : body (acl.insertNew k fresh) (openedEntry acl k fresh) = .leave r) :
    withEntry acl k fresh body = (acl.insertNew k fresh, r) := by
  simp only [withEntry, find_insertNew_self, Option.getD_some, h]

theorem withEntry_close {ca : Chanacs} {r : α}
    (h : body (acl.insertNew k fresh) (openedEntry acl k fresh) = .close ca r) :
    withEntry acl k fresh body = (chanacsClose k ((acl.insertNew k fresh).set k ca), r) := by
  simp only [withEntry, find_insertNew_self, Option.getD_some, h]

theorem levelAt_closed (h : fresh.level = 0#32) (ca : Chanacs) (k' : MyChanRef × Target) :
    levelAt (chanacsClose k ((acl.insertNew k fresh).set k ca)) k' =
      if k' = k then ca.level else levelAt acl k' := by
  rw [levelAt_chanacsClose, levelAt, Registry.find_set]
  by_cases hk : k' = k
  · subst hk
    rw [if_pos rfl, if_pos rfl, find_insertNew_self]
    rfl
  · rw [if_neg hk, if_neg hk, ← levelAt_insertNew h k', levelAt]

end entry

end ChatServices.ChanServ
