import ChatServices.ChanServ.Channels
import ChatServices.NickServ.Registration
import ChatServices.Storage.OpensexFile

/-! Marks on accounts, `modules/nickserv/multimark.c`: the marks of each account, those that wait
under the name of a nick, the hooks that move them and their rows in the database. -/
namespace ChatServices.NickServ.Marks
open ChatServices.Text ChatServices.Lib ChatServices.Lib.Rows ChatServices.Storage
open ChatServices.ChanServ (natArg)
open ChatServices.Cidr (atoi)
open ChatServices.NickServ.Registration (NICKLEN)

/-- What `nickserv/mark` has left on an account or on an old name: `private:mark:setter`,
`private:mark:reason` and `private:mark:timestamp`. -/
structure OldMark where
  setter : Option CString
  reason : Option CString
  timestamp : Option CString
  deriving DecidableEq

def OldMark.none : OldMark := ⟨.none, .none, .none⟩

structure Multimark where
  setterUid : Option CString
  setterName : CString
  restoredFromUid : Option CString
  restoredFromAccount : Option CString
  time : Int
  number : Int
  mark : CString
  deriving DecidableEq

structure RestoredMark where
  accountUid : CString
  accountName : CString
  nick : CString
  setterUid : Option CString
  setterName : CString
  time : Int
  mark : CString
  deriving DecidableEq

structure Note where
  setterUid : Option CString
  setterName : CString
  time : Int
  mark : CString
  deriving DecidableEq

def Multimark.note (mm : Multimark) : Note := ⟨mm.setterUid, mm.setterName, mm.time, mm.mark⟩

def RestoredMark.note (rm : RestoredMark) : Note := ⟨rm.setterUid, rm.setterName, rm.time, rm.mark⟩

/-- Accounts and nicks, and by the address of an account its id, its marks and its old-style mark.
`dropped` has the marks of the accounts that were dropped and whose names nobody has registered
since; the code does not keep it. -/
structure Store where
  base : Registration.State
  uids : Nat → CString
  marks : Nat → List Multimark
  old : Nat → OldMark
  restoredMarks : Registry CString (List RestoredMark)
  dropped : List (CString × List Note)

def Store.empty : Store := ⟨.empty, fun _ => [], fun _ => [], fun _ => .none, .empty, []⟩

/-- `newUid` is what `myentity_alloc_uid` gives, an id that no account has. -/
structure Config where
  base : Registration.Config
  newUid : (used : List CString) → { uid : CString // uid ∉ used ∧ IsWord uid }

def int32 (i : Int) : Int := (BitVec.ofInt 32 i).toInt

namespace Store

def accountName (s : Store) (a : Nat) : CString :=
  ((s.base.accounts.find a).map Registration.Account.name).getD []

/-- `MYENTITY_FOREACH_T` for accounts. -/
def listed (s : Store) : List Nat := s.base.entities.entries.map Prod.snd

def myuserFindUid (s : Store) (uid : CString) : Option Nat :=
  s.listed.find? fun a => s.uids a = uid

def setMarks (s : Store) (a : Nat) (l : List Multimark) : Store :=
  { s with marks := fun b => if b = a then l else s.marks b }

def setOld (s : Store) (a : Nat) (old : OldMark) : Store :=
  { s with old := fun b => if b = a then old else s.old b }

def restoredMarkList (s : Store) (nick : CString) : List RestoredMark :=
  (s.restoredMarks.find (strcasecanon nick)).getD []

def setRestored (s : Store) (nick : CString) (rml : List RestoredMark) : Store :=
  { s with restoredMarks :=
      (s.restoredMarks.insertNew (strcasecanon nick) []).set (strcasecanon nick) rml }

end Store

/-! ### The hooks -/

/-- The loop of `get_multimark_max`. -/
def numberMax (l : List Multimark) : Int :=
  l.foldl (fun max mm => if mm.number > max then mm.number else max) 0

def getMultimarkMax (l : List Multimark) : Int := int32 (numberMax l + 1)

def oldSetter (setter : CString) : CString :=
  if '(' ∈ setter then
    let name := (setter.dropWhile (· ≠ '(')).drop 1
    if ')' ∈ setter.takeWhile (· ≠ '(') then name else name.takeWhile (· ≠ ')')
  else setter

section hooks
variable (cfg : Config) (s : Store)

def migrateUser (a : Nat) : Store :=
  match (s.old a).setter with
  | none => s
  | some setter =>
    let name := oldSetter setter
    let mm : Multimark :=
      { setterUid := (Registration.myuserFind cfg.base s.base name).map s.uids
        setterName := name
        restoredFromUid := none
        restoredFromAccount := none
        time := ((s.old a).timestamp.map fun value => int32 (atoi value)).getD 0
        number := getMultimarkMax (s.marks a)
        mark := (s.old a).reason.getD "unknown".toList }
    (s.setMarks a (s.marks a ++ [mm])).setOld a .none

def migrateAll : Store := s.listed.foldl (migrateUser cfg) s

def storeMark (uid account nick : CString) (mm : Multimark) : RestoredMark :=
  ⟨uid, account, nick, mm.setterUid, mm.setterName, mm.time, mm.mark⟩

def storeMarks (a : Nat) (nick : CString) : Store :=
  s.setRestored nick
    (s.restoredMarkList nick ++ (s.marks a).map (storeMark (s.uids a) (s.accountName a) nick))

def nickUngroupHook (a : Nat) (nick : CString) : Store := storeMarks s a nick

def accountDropHook (a : Nat) : Store :=
  storeMarks (migrateUser cfg s a) a (s.accountName a)

def restoreMark (l : List Multimark) (rm : RestoredMark) : List Multimark :=
  l ++ [{ setterUid := rm.setterUid
          setterName := rm.setterName
          restoredFromUid := some rm.accountUid
          restoredFromAccount := some rm.accountName
          time := rm.time
          number := getMultimarkMax l
          mark := rm.mark }]

def accountRegisterHook (a : Nat) : Store :=
  let name := s.accountName a
  let s := migrateUser cfg s a
  (s.setMarks a ((s.restoredMarkList name).foldl restoreMark (s.marks a))).setRestored name []

/-- One round of the loop of `nick_group_hook`: a text that the account has already is not
restored. -/
def groupMark (l : List Multimark) (rm : RestoredMark) : List Multimark :=
  if l.any fun mm2 => strcaseEq mm2.mark rm.mark then l else restoreMark l rm

def nickGroupHook (smu : Nat) (nick : CString) : Store :=
  let s := migrateUser cfg s smu
  (s.setMarks smu ((s.restoredMarkList nick).foldl groupMark (s.marks smu))).setRestored nick []

/-! ### The commands -/

/-- The reason that `myuser_name_restore` gives to an account. -/
def restoredReason (reason : CString) : CString :=
  let tag := "(restored) ".toList
  if tag.isPrefixOf reason then reason else tag ++ reason

/-- `myuser_name_restore`: what the account has is preferred to what the old name has. -/
def myuserNameRestore (a : Nat) (mun : OldMark) : Store :=
  s.setOld a
    { setter := (s.old a).setter.or mun.setter
      reason := (s.old a).reason.or (mun.reason.map restoredReason)
      timestamp := (s.old a).timestamp.or mun.timestamp }

/-- `myuser_add`; a new account has an id and nothing else yet. -/
def addAccount (account email : CString) : Nat × Store :=
  let added := Registration.myuserAdd cfg.base s.base account email
  let a := added.1
  match Registration.myuserFind cfg.base s.base account with
  | some _ => (a, { s with base := added.2.1 })
  | none =>
    let uid := (cfg.newUid (s.listed.map s.uids)).1
    (a, ({ s with
      base := added.2.1
      uids := fun b => if b = a then uid else s.uids b }.setMarks a []).setOld a .none)

def registrable (account : CString) : Bool :=
  account.length < NICKLEN &&
    if cfg.base.noNickOwnership then (Registration.myuserFind cfg.base s.base account).isNone
    else (Registration.mynickFind cfg.base s.base account).isNone

def nameKey (name : CString) : CString := Registration.nameKey cfg.base name

def lostNotes (account : CString) : List Note :=
  (s.dropped.filter fun d => nameKey cfg d.1 = nameKey cfg account).flatMap Prod.snd

/-- REGISTER once its checks have passed; `mun` is the old name, if there is one. -/
def register (account email : CString) (mun : OldMark) : Nat × Store :=
  let added := addAccount cfg s account email
  let a := added.1
  let s := myuserNameRestore added.2 a mun
  let s := if cfg.base.noNickOwnership then s
    else { s with base := Registration.mynickAdd cfg.base s.base a (s.accountName a) }
  let s := accountRegisterHook cfg s a
  (a, { s with dropped := s.dropped.filter fun d => nameKey cfg d.1 ≠ nameKey cfg account })

def groupable (smu mu : Nat) (nick : CString) : Bool :=
  (s.base.accounts.find smu).isSome && (s.base.accounts.find mu).isSome &&
    !cfg.base.noNickOwnership && (Registration.mynickFind cfg.base s.base nick).isNone

/-- GROUP by `smu`, or FGROUP by `smu` of a nick to `mu`. The hook looks at `smu` alone. -/
def group (smu mu : Nat) (nick : CString) (mun : OldMark) : Store :=
  if groupable cfg s smu mu nick then
    let s := { s with base := Registration.mynickAdd cfg.base s.base mu nick }
    nickGroupHook cfg (myuserNameRestore s mu mun) smu (truncate NICKLEN nick)
  else s

/-- The nick `n` goes from the account `a`. -/
def takeNick (a n : Nat) (nick : CString) : Store :=
  let s := nickUngroupHook s a nick
  match Registration.mynickDelete cfg.base s.base n with
  | none => s
  | some base => { s with base := base }

def ungroup (nick : CString) (newname : Option CString) : Store :=
  match Registration.mynickFind cfg.base s.base nick with
  | none => s
  | some n =>
    match s.base.nicks.objs.find n with
    | none => s
    | some mn =>
      if irccaseEq cfg.base.casemapping mn.nick (s.accountName mn.owner) then
        match newname.bind (Registration.mynickFind cfg.base s.base) with
        | none => s
        | some n2 =>
          match s.base.nicks.objs.find n2 with
          | none => s
          | some mn2 =>
            if n2 = n ∨ mn2.owner ≠ mn.owner then s
            else
              let s := { s with base := Registration.myuserRename cfg.base s.base mn.owner mn2.nick }
              takeNick cfg s mn.owner n mn.nick
      else if newname.isSome then s
      else takeNick cfg s mn.owner n mn.nick

def drop (a : Nat) : Store :=
  if (s.base.accounts.find a).isSome then
    let name := s.accountName a
    let s := accountDropHook cfg s a
    match Registration.myuserDelete cfg.base s.base a with
    | none => s
    | some base =>
      ({ s with
        base := base
        dropped := (name, (s.marks a).map Multimark.note) :: s.dropped }.setMarks a []).setOld a
          .none
  else s

/-- `MARK <target> ADD <note>` -/
def addMark (smu mu : Nat) (info : CString) (now : Int) : Store :=
  if (s.base.accounts.find smu).isSome && (s.base.accounts.find mu).isSome then
    s.setMarks mu (s.marks mu ++
      [{ setterUid := some (s.uids smu)
         setterName := s.accountName smu
         restoredFromUid := none
         restoredFromAccount := none
         time := now
         number := getMultimarkMax (s.marks mu)
         mark := info }])
  else s

end hooks

/-! ### The database -/

def wordOf (word : Option CString) : CString := word.getD ['*']

/-- A `time_t` that is given to `db_write_uint`. -/
def timeArg (time : Int) : CString := natArg (BitVec.ofInt 32 time).toNat

def mmRow (uid : CString) (mm : Multimark) : CString :=
  writeRow "MM" [uid, wordOf mm.setterUid, mm.setterName, mm.restoredFromUid.getD "NULL".toList,
    wordOf mm.restoredFromAccount, timeArg mm.time, intArg mm.number] mm.mark

def rmRow (rm : RestoredMark) : CString :=
  writeRow "RM" [rm.accountUid, rm.accountName, rm.nick, wordOf rm.setterUid, rm.setterName,
    timeArg rm.time] rm.mark

def writeMultimarkDb (s : Store) : List CString :=
  (s.listed.flatMap fun a => (s.marks a).map (mmRow (s.uids a))) ++
    s.restoredMarks.entries.flatMap fun e => e.2.map rmRow

/-- `db_h_mm`; a mark of nobody is put into the list that NULL is. -/
def dbHMm (s : Store) : Reader Store := do
  let accountUid ← dbSreadWord
  let setterUid ← dbSreadWord
  let setterName ← dbSreadWord
  let restoredFromUid ← dbSreadWord
  let restoredFromAccount ← dbSreadWord
  let time ← dbSreadUint
  let number ← dbSreadInt
  let mark ← dbSreadStr
  match s.myuserFindUid accountUid with
  | none => failure
  | some a =>
    pure (s.setMarks a (s.marks a ++
      [{ setterUid := some setterUid
         setterName := setterName
         restoredFromUid := if strcaseEq restoredFromUid "NULL".toList then none
           else some restoredFromUid
         restoredFromAccount := some restoredFromAccount
         time := time.toNat
         number := number.toInt
         mark := mark }]))

def dbHRm (s : Store) : Reader Store := do
  let accountUid ← dbSreadWord
  let accountName ← dbSreadWord
  let nick ← dbSreadWord
  let setterUid ← dbSreadWord
  let setterName ← dbSreadWord
  let time ← dbSreadUint
  let mark ← dbSreadStr
  pure (s.setRestored nick (s.restoredMarkList nick ++
    [⟨accountUid, accountName, nick, some setterUid, setterName, time.toNat, mark⟩]))

def processRow (s : Store) (type : CString) : Reader Store :=
  if type = "MM".toList then dbHMm s
  else if type = "RM".toList then dbHRm s
  else pure s

def loadRows (s : Store) (rows : List CString) : Option Store :=
  rows.foldlM (fun s row => parseRow (processRow s) s row) s

def Store.blank (s : Store) : Store := { s with marks := fun _ => [], restoredMarks := .empty }

def readFile (was : Store) (text : CString) : Option Store :=
  loadRows was.blank (readRows '\n' [] text)

/-! ### Runs -/

structure State where
  store : Store
  file : Option (Store × CString)

/-- `ungroup` with a new name is FUNGROUP of a nick that is the name of its account. -/
inductive Event where
  | migrate
  | info (a : Nat)
  | add (smu mu : Nat) (info : CString) (now : Int)
  | register (account email : CString) (mun : OldMark)
  | group (smu mu : Nat) (nick : CString) (mun : OldMark)
  | ungroup (nick : CString) (newname : Option CString)
  | drop (a : Nat)
  | save
  | reload

/-- An account is registered whose name was dropped with these marks, and has those; a database is
loaded; or the process ends over a row. -/
inductive Obs where
  | registered (lost : List Note) (marks : List Multimark)
  | reloaded (was loaded : Store)
  | exited

def step (cfg : Config) (st : State) : Event → State × List Obs
  | .migrate => ({ st with store := migrateAll cfg st.store }, [])
  | .info a => ({ st with store := migrateUser cfg st.store a }, [])
  | .add smu mu info now => ({ st with store := addMark st.store smu mu info now }, [])
  | .register account email mun =>
    if registrable cfg st.store account then
      let r := register cfg st.store account email mun
      ({ st with store := r.2 }, [.registered (lostNotes cfg st.store account) (r.2.marks r.1)])
    else (st, [])
  | .group smu mu nick mun => ({ st with store := group cfg st.store smu mu nick mun }, [])
  | .ungroup nick newname => ({ st with store := ungroup cfg st.store nick newname }, [])
  | .drop a => ({ st with store := drop cfg st.store a }, [])
  | .save =>
    ({ st with file := some (st.store, writeRows '\n' (writeMultimarkDb st.store)) }, [])
  | .reload =>
    match st.file with
    | none => (st, [])
    | some (was, text) =>
      match readFile was text with
      | none => (st, [.exited])
      | some loaded => ({ st with store := loaded }, [.reloaded was loaded])

/-! Marks in the database: a file of rows whose words are all there is read back into the same
marks. -/

/-- The words of a row that the code takes from pointers that may be NULL are there, and nothing in
the row is taken for something else. -/
structure StorableMark (mm : Multimark) : Prop where
  setterUid : ∃ uid ∈ mm.setterUid, IsWord uid
  setterName : IsWord mm.setterName
  restoredFromUid : ∀ uid ∈ mm.restoredFromUid,
    IsWord uid ∧ strcaseEq uid "NULL".toList = false
  restoredFromAccount : ∃ name ∈ mm.restoredFromAccount, IsWord name
  time : 0 ≤ mm.time ∧ mm.time < 2 ^ 32
  number : 0 ≤ mm.number ∧ mm.number < 2 ^ 31
  mark : IsLine mm.mark

structure StorableRestored (rm : RestoredMark) : Prop where
  accountUid : IsWord rm.accountUid
  accountName : IsWord rm.accountName
  nick : IsWord rm.nick
  setterUid : ∃ uid ∈ rm.setterUid, IsWord uid
  setterName : IsWord rm.setterName
  time : 0 ≤ rm.time ∧ rm.time < 2 ^ 32
  mark : IsLine rm.mark

structure Storable (s : Store) : Prop where
  marks : ∀ a ∈ s.listed, ∀ mm ∈ s.marks a, StorableMark mm
  restored : ∀ e ∈ s.restoredMarks.entries, ∀ rm ∈ e.2, StorableRestored rm

instance (mm : Multimark) : Decidable (StorableMark mm) :=
  decidable_of_iff ((∃ uid ∈ mm.setterUid, IsWord uid) ∧ IsWord mm.setterName ∧
      (∀ uid ∈ mm.restoredFromUid, IsWord uid ∧ strcaseEq uid "NULL".toList = false) ∧
      (∃ name ∈ mm.restoredFromAccount, IsWord name) ∧ (0 ≤ mm.time ∧ mm.time < 2 ^ 32) ∧
      (0 ≤ mm.number ∧ mm.number < 2 ^ 31) ∧ IsLine mm.mark)
    ⟨fun ⟨hsetter, hname, huid, haccount, htime, hnumber, hmark⟩ =>
      ⟨hsetter, hname, huid, haccount, htime, hnumber, hmark⟩,
    fun h => ⟨h.setterUid, h.setterName, h.restoredFromUid, h.restoredFromAccount, h.time,
      h.number, h.mark⟩⟩

instance (rm : RestoredMark) : Decidable (StorableRestored rm) :=
  decidable_of_iff (IsWord rm.accountUid ∧ IsWord rm.accountName ∧ IsWord rm.nick ∧
      (∃ uid ∈ rm.setterUid, IsWord uid) ∧ IsWord rm.setterName ∧
      (0 ≤ rm.time ∧ rm.time < 2 ^ 32) ∧ IsLine rm.mark)
    ⟨fun ⟨huid, hname, hnick, hsetter, hsetterName, htime, hmark⟩ =>
      ⟨huid, hname, hnick, hsetter, hsetterName, htime, hmark⟩,
    fun h => ⟨h.accountUid, h.accountName, h.nick, h.setterUid, h.setterName, h.time, h.mark⟩⟩

instance (s : Store) : Decidable (Storable s) :=
  decidable_of_iff ((∀ a ∈ s.listed, ∀ mm ∈ s.marks a, StorableMark mm) ∧
      ∀ e ∈ s.restoredMarks.entries, ∀ rm ∈ e.2, StorableRestored rm)
    ⟨fun ⟨hmarks, hrestored⟩ => ⟨hmarks, hrestored⟩, fun h => ⟨h.marks, h.restored⟩⟩

def Keyed (s : Store) : Prop :=
  ∀ k rml, s.restoredMarks.find k = some rml → ∀ rm ∈ rml, strcasecanon rm.nick = k

section lists
variable {s : Store} {nick nick' : CString} {rml : List RestoredMark}

@[simp] theorem restoredMarkList_setRestored :
    (s.setRestored nick' rml).restoredMarkList nick =
      if strcasecanon nick = strcasecanon nick' then rml else s.restoredMarkList nick := by
  rw [Store.restoredMarkList, Store.setRestored, Registry.find_set, Registry.find_insertNew]
  by_cases hkey : strcasecanon nick = strcasecanon nick'
  · rw [if_pos hkey, if_pos hkey, if_pos hkey.symm]
    cases s.restoredMarks.find (strcasecanon nick) <;> rfl
  · rw [if_neg hkey, if_neg hkey, if_neg (Ne.symm hkey), Option.or_none, Store.restoredMarkList]

theorem Keyed.setRestored (h : Keyed s)
    (hrml : ∀ rm ∈ rml, strcasecanon rm.nick = strcasecanon nick) :
    Keyed (s.setRestored nick rml) := by
  intro k l hl rm hrm
  rw [Store.setRestored, Registry.find_set, Registry.find_insertNew] at hl
  by_cases hk : k = strcasecanon nick
  · rw [if_pos hk] at hl
    obtain ⟨-, -, rfl⟩ := Option.map_eq_some_iff.mp hl
    rw [hk]
    exact hrml rm hrm
  · rw [if_neg hk, if_neg (Ne.symm hk), Option.or_none] at hl
    exact h k l hl rm hrm

theorem Keyed.mem (h : Keyed s) {rm : RestoredMark} (hrm : rm ∈ s.restoredMarkList nick) :
    strcasecanon rm.nick = strcasecanon nick := by
  rw [Store.restoredMarkList] at hrm
  cases hl : s.restoredMarks.find (strcasecanon nick) with
  | none =>
    rw [hl] at hrm
    cases hrm
  | some rml =>
    rw [hl] at hrm
    exact h _ rml hl rm hrm

end lists

/-! ### One row -/

section rows
variable {s : Store} {mm : Multimark} {rm : RestoredMark} {a : Nat} {uid : CString}

theorem toNat_ofInt {i : Int} (h : 0 ≤ i ∧ i < 2 ^ 32) : ((BitVec.ofInt 32 i).toNat : Int) = i := by
  rw [BitVec.toNat_ofInt]
  omega

theorem intArg_ofInt {i : Int} (h : 0 ≤ i ∧ i < 2 ^ 31) :
    intArg i = natArg (BitVec.ofInt 32 i).toNat := by
  have hbits : (BitVec.ofInt 32 i).toNat = i.natAbs := by
    rw [BitVec.toNat_ofInt]
    omega
  rw [intArg, if_neg (Int.not_lt.mpr h.1), hbits]

theorem int32_eq {i : Int} (h : 0 ≤ i ∧ i < 2 ^ 31) : int32 i = i := by
  rw [int32, BitVec.toInt_ofInt, Int.bmod_eq_of_le] <;> omega

theorem loadRow_mm (h : StorableMark mm) (huid : IsWord uid)
    (hfind : s.myuserFindUid uid = some a) :
    parseRow (processRow s) s (mmRow uid mm) = some (s.setMarks a (s.marks a ++ [mm])) := by
  obtain ⟨setterUid, hsetter, hsetterWord⟩ := h.setterUid
  obtain ⟨account, haccount, haccountWord⟩ := h.restoredFromAccount
  have hfrom : IsWord (mm.restoredFromUid.getD "NULL".toList) := by
    cases hr : mm.restoredFromUid with
    | none => decide
    | some uid => exact (h.restoredFromUid uid hr).1
  have hback : (if strcaseEq (mm.restoredFromUid.getD "NULL".toList) "NULL".toList then none
      else some (mm.restoredFromUid.getD "NULL".toList)) = mm.restoredFromUid := by
    cases hr : mm.restoredFromUid with
    | none => rfl
    | some uid =>
      rw [Option.getD_some, (h.restoredFromUid uid hr).2]
      rfl
  rw [mmRow, parseRow_writeRow (by decide) ⟨'M', "M".toList, rfl, by decide⟩]
  have hhandler : processRow s "MM".toList = dbHMm s := rfl
  rw [hhandler, StateT.run, dbHMm, hsetter, haccount, wordOf, wordOf, Option.getD_some,
    Option.getD_some, timeArg, intArg_ofInt h.number, sreadWord_bind huid,
    sreadWord_bind hsetterWord, sreadWord_bind h.setterName, sreadWord_bind hfrom,
    sreadWord_bind haccountWord, sreadUint_bind, sreadInt_bind, writeCells_nil, sreadStr_bind,
    hfind]
  dsimp only
  rw [hback, toNat_ofInt h.time, ← int32, int32_eq h.number, ← hsetter, ← haccount]
  rfl

theorem loadRow_rm (h : StorableRestored rm) : parseRow (processRow s) s (rmRow rm) =
    some (s.setRestored rm.nick (s.restoredMarkList rm.nick ++ [rm])) := by
  obtain ⟨setterUid, hsetter, hsetterWord⟩ := h.setterUid
  rw [rmRow, parseRow_writeRow (by decide) ⟨'R', "M".toList, rfl, by decide⟩]
  have hhandler : processRow s "RM".toList = dbHRm s := rfl
  rw [hhandler, StateT.run, dbHRm, hsetter, wordOf, Option.getD_some, timeArg,
    sreadWord_bind h.accountUid, sreadWord_bind h.accountName, sreadWord_bind h.nick,
    sreadWord_bind hsetterWord, sreadWord_bind h.setterName, sreadUint_bind, writeCells_nil,
    sreadStr_bind, toNat_ofInt h.time, ← hsetter]
  rfl

end rows

/-! ### All rows -/

section files
variable {s st : Store}

theorem loadRows_append (rows rows' : List CString) :
    loadRows s (rows ++ rows') = (loadRows s rows).bind fun s => loadRows s rows' :=
  List.foldlM_append

theorem loadRows_cons (row : CString) (rows : List CString) :
    loadRows s (row :: rows) = (parseRow (processRow s) s row).bind fun s => loadRows s rows := rfl

theorem loadRows_marks {a : Nat} {uid : CString} {l : List Multimark}
    (h : ∀ mm ∈ l, StorableMark mm) (huid : IsWord uid) (hfind : s.myuserFindUid uid = some a) :
    loadRows s (l.map (mmRow uid)) = some (s.setMarks a (s.marks a ++ l)) := by
  induction l generalizing s with
  | nil =>
    rw [List.append_nil, List.map_nil]
    have hsame : s.setMarks a (s.marks a) = s := by
      rw [Store.setMarks]
      congr 1
      funext b
      split_ifs with hb
      · rw [hb]
      · rfl
    rw [hsame]
    rfl
  | cons mm l ih =>
    have hmm := loadRow_mm (h mm List.mem_cons_self) huid hfind
    have hrest := ih (s := s.setMarks a (s.marks a ++ [mm]))
      (fun mm' hmm' => h mm' (List.mem_cons_of_mem mm hmm')) hfind
    rw [List.map_cons, loadRows_cons, hmm, Option.bind_some, hrest]
    simp only [Store.setMarks, if_true, List.append_assoc, List.singleton_append]
    congr 2
    funext b
    split_ifs <;> rfl

theorem loadRows_accounts {was : Store} {as : List Nat} (hnodup : as.Nodup)
    (h : ∀ a ∈ as, ∀ mm ∈ was.marks a, StorableMark mm) (huid : ∀ a ∈ as, IsWord (was.uids a))
    (hfind : ∀ a ∈ as, s.myuserFindUid (was.uids a) = some a) :
    loadRows s (as.flatMap fun a => (was.marks a).map (mmRow (was.uids a))) =
      some { s with marks := fun b => s.marks b ++ if b ∈ as then was.marks b else [] } := by
  induction as generalizing s with
  | nil => simp [loadRows]
  | cons a as ih =>
    obtain ⟨ha, hrest⟩ := List.nodup_cons.mp hnodup
    have hfirst := loadRows_marks (h a List.mem_cons_self) (huid a List.mem_cons_self)
      (hfind a List.mem_cons_self)
    have hall := ih (s := s.setMarks a (s.marks a ++ was.marks a)) hrest
      (fun b hb => h b (List.mem_cons_of_mem a hb))
      (fun b hb => huid b (List.mem_cons_of_mem a hb))
      (fun b hb => hfind b (List.mem_cons_of_mem a hb))
    rw [List.flatMap_cons, loadRows_append, hfirst, Option.bind_some, hall]
    simp only [Store.setMarks]
    congr 2
    funext b
    by_cases hb : b = a
    · subst hb
      simp [ha]
    · simp [hb]

def addRestored (s : Store) (rm : RestoredMark) : Store :=
  s.setRestored rm.nick (s.restoredMarkList rm.nick ++ [rm])

theorem loadRows_restored {rml : List RestoredMark} (h : ∀ rm ∈ rml, StorableRestored rm) :
    loadRows s (rml.map rmRow) = some (rml.foldl addRestored s) := by
  induction rml generalizing s with
  | nil => rfl
  | cons rm rml ih =>
    rw [List.map_cons, loadRows_cons, loadRow_rm (h rm List.mem_cons_self), Option.bind_some]
    exact ih fun rm' hrm' => h rm' (List.mem_cons_of_mem rm hrm')

structure SameAccounts (s s' : Store) : Prop where
  base : s'.base = s.base
  uids : s'.uids = s.uids
  marks : s'.marks = s.marks
  old : s'.old = s.old
  dropped : s'.dropped = s.dropped

theorem foldl_addRestored (rml : List RestoredMark) (hkeyed : Keyed s) :
    SameAccounts s (rml.foldl addRestored s) ∧ Keyed (rml.foldl addRestored s) ∧
      ∀ nick, (rml.foldl addRestored s).restoredMarkList nick =
        s.restoredMarkList nick ++ rml.filter fun rm => strcasecanon rm.nick = strcasecanon nick := by
  induction rml generalizing s with
  | nil => exact ⟨⟨rfl, rfl, rfl, rfl, rfl⟩, hkeyed, fun nick => (List.append_nil _).symm⟩
  | cons rm rml ih =>
    have hfirst : Keyed (addRestored s rm) := by
      apply hkeyed.setRestored
      intro rm' hrm'
      obtain hold | hnew := List.mem_append.mp hrm'
      · exact hkeyed.mem hold
      · rw [List.mem_singleton.mp hnew]
    obtain ⟨⟨hbase, huids, hmarks, hold, hdropped⟩, hkeyed', hlists⟩ := ih hfirst
    refine ⟨⟨hbase, huids, hmarks, hold, hdropped⟩, hkeyed', fun nick => ?_⟩
    rw [List.foldl_cons, hlists, addRestored, restoredMarkList_setRestored, List.filter_cons]
    by_cases hkey : strcasecanon nick = strcasecanon rm.nick
    · have hlist : s.restoredMarkList nick = s.restoredMarkList rm.nick := by
        rw [Store.restoredMarkList, hkey, Store.restoredMarkList]
      simp [hkey, hlist]
    · simp [hkey, Ne.symm hkey]

theorem line_mmRow {mm : Multimark} {uid : CString} (h : StorableMark mm) (huid : IsWord uid) :
    IsLine (mmRow uid mm) := by
  obtain ⟨setterUid, hsetter, hsetterWord⟩ := h.setterUid
  obtain ⟨account, haccount, haccountWord⟩ := h.restoredFromAccount
  have hfrom : IsWord (mm.restoredFromUid.getD "NULL".toList) := by
    cases hr : mm.restoredFromUid with
    | none => decide
    | some uid => exact (h.restoredFromUid uid hr).1
  apply line_writeRow (by decide) _ h.mark
  rw [hsetter, haccount, intArg_ofInt h.number]
  simp only [List.forall_mem_cons]
  exact ⟨huid, hsetterWord, h.setterName, hfrom, haccountWord, natArg_isWord _, natArg_isWord _,
    nofun⟩

theorem line_rmRow {rm : RestoredMark} (h : StorableRestored rm) : IsLine (rmRow rm) := by
  obtain ⟨setterUid, hsetter, hsetterWord⟩ := h.setterUid
  apply line_writeRow (by decide) _ h.mark
  rw [hsetter]
  simp only [List.forall_mem_cons]
  exact ⟨h.accountUid, h.accountName, h.nick, hsetterWord, h.setterName, natArg_isWord _, nofun⟩

theorem line_writeMultimarkDb (h : Storable s) (hword : ∀ a ∈ s.listed, IsWord (s.uids a)) :
    ∀ row ∈ writeMultimarkDb s, '\n' ∉ row := by
  intro row hrow
  obtain hrow | hrow := List.mem_append.mp hrow
  · obtain ⟨a, ha, hrow⟩ := List.mem_flatMap.mp hrow
    obtain ⟨mm, hmm, rfl⟩ := List.mem_map.mp hrow
    exact line_mmRow (h.marks a ha mm hmm) (hword a ha)
  · obtain ⟨e, he, hrow⟩ := List.mem_flatMap.mp hrow
    obtain ⟨rm, hrm, rfl⟩ := List.mem_map.mp hrow
    exact line_rmRow (h.restored e he rm hrm)

theorem myuserFindUid_eq {a : Nat} (ha : a ∈ s.listed)
    (huids : ∀ b ∈ s.listed, s.uids b = s.uids a → b = a) :
    s.myuserFindUid (s.uids a) = some a := by
  cases hfind : s.myuserFindUid (s.uids a) with
  | none =>
    have hnone := List.find?_eq_none.mp hfind a ha
    simp at hnone
  | some b =>
    have hb := List.mem_of_find?_eq_some hfind
    have hsame := List.find?_some hfind
    rw [huids b hb (of_decide_eq_true hsame)]

theorem readFile_write (h : Storable s) (hkeyed : Keyed s) (hnodup : s.listed.Nodup)
    (hword : ∀ a ∈ s.listed, IsWord (s.uids a))
    (huids : ∀ a ∈ s.listed, ∀ b ∈ s.listed, s.uids a = s.uids b → a = b) :
    ∃ loaded, readFile s (writeRows '\n' (writeMultimarkDb s)) = some loaded ∧
      SameAccounts { s with marks := fun a => if a ∈ s.listed then s.marks a else [] } loaded ∧
      Keyed loaded ∧ ∀ nick, loaded.restoredMarkList nick = s.restoredMarkList nick := by
  have hrestored : ∀ rm ∈ s.restoredMarks.entries.flatMap Prod.snd, StorableRestored rm := by
    intro rm hrm
    obtain ⟨e, he, hrm⟩ := List.mem_flatMap.mp hrm
    exact h.restored e he rm hrm
  have haccounts := loadRows_accounts (s := s.blank) hnodup h.marks hword fun a ha =>
    myuserFindUid_eq (s := s.blank) ha fun b hb => huids b hb a ha
  have hrows : (s.restoredMarks.entries.flatMap fun e => e.2.map rmRow) =
      (s.restoredMarks.entries.flatMap Prod.snd).map rmRow := List.map_flatMap.symm
  have hblank : Keyed { s.blank with
      marks := fun b => s.blank.marks b ++ if b ∈ s.listed then s.marks b else [] } := nofun
  obtain ⟨hsame, hkeyed', hlists⟩ := foldl_addRestored (s.restoredMarks.entries.flatMap Prod.snd)
    hblank
  have hmarks : (fun b => s.blank.marks b ++ if b ∈ s.listed then s.marks b else []) =
      fun b => if b ∈ s.listed then s.marks b else [] := rfl
  rw [hmarks] at hsame hkeyed' hlists haccounts
  refine ⟨_, ?_, ⟨hsame.base, hsame.uids, hsame.marks, hsame.old, hsame.dropped⟩, hkeyed',
    fun nick => ?_⟩
  · rw [readFile, readRows_writeRows (line_writeMultimarkDb h hword), writeMultimarkDb,
      loadRows_append, haccounts, Option.bind_some, hrows]
    exact loadRows_restored hrestored
  · rw [hlists]
    exact Registry.filter_flatMap_entries hkeyed (strcasecanon nick)

end files
end ChatServices.NickServ.Marks
