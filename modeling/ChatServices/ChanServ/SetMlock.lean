import ChatServices.Cidr
import ChatServices.Lib.FirstMatch
import ChatServices.Modes.Lock
import Mathlib.Tactic.SplitIfs

/-! `SET MLOCK`: a mode string with parameters becomes the mode lock of a registered channel, as far
as its source may change it. -/
namespace ChatServices.ChanServ.SetMlock
open ChatServices.Lib ChatServices.Lib.Mask ChatServices.Lib.Latest ChatServices.Lib.Run
open ChatServices.Text ChatServices.ChanServ.Channels ChatServices.Modes ChatServices.Modes.Lock

def keylen : Nat := 24

def atol (s : CString) : Int := Cidr.strtol s

def needValue : String := "You need to specify a value for mode +%c."
def keyTooLong : String := "MLOCK key is too long (%d > %d)."
def keyInvalid : String := "MLOCK key contains invalid characters."
def needPositive : String := "You must specify a positive integer for limit."
def invalidValue : String := "Invalid value \x02%s\x02 for mode +%c."
def notAuthorizedPerform : String := "You are not authorized to perform this command."
def onlyAlter : String := "You may only alter \x02+%s\x02 modes."

/-- What the source may do: `CA_SET` or `CA_FOUNDER` on the channel, and two privileges. -/
structure MlockSource where
  set : Bool
  chanCmodes : Bool
  chanAdmin : Bool

/-- `newlock_on`, `newlock_off`, `newlock_limit`, `newlock_key`, `newlock_ext` and
`newlock_ext_off`. -/
structure NewLock where
  on : Flags
  off : Flags
  limit : BitVec 32
  key : CString
  ext : Nat → CString
  extOff : Nat → Bool

def NewLock.empty : NewLock := ⟨0#32, 0#32, 0#32, [], fun _ => [], fun _ => false⟩

section model
variable (t : Tables) (operOnly : Flags) (src : MlockSource) (check : Nat → CString → Bool)
  (chan : Option Channel)

def callerMask : Option (Flags × Bool) :=
  if src.set then some (if src.chanCmodes then 0#32 else operOnly, false)
  else if operOnly = 0#32 ∨ src.chanCmodes = false ∨ src.chanAdmin = false then none
  else some (~~~operOnly, true)

def failure (fmt : String) (args : List CString) : Except Reply (NewLock × List CString) :=
  .error (.fail .badparams fmt args)

def lockKeyLetter (add : Bool) (args : List CString) (new : NewLock) :
    Except Reply (NewLock × List CString) :=
  if add then
    match args with
    | [] => failure needValue [['k']]
    | arg :: args =>
      if arg.length ≥ keylen then failure keyTooLong [natArg arg.length, natArg (keylen - 1)]
      else if ',' ∈ arg ∨ arg.head? = some ':' then failure keyInvalid []
      else .ok ({ new with key := truncate keylen arg, off := new.off &&& ~~~cmodeKey }, args)
  else .ok ({ new with key := [], off := new.off ||| cmodeKey }, args)

/-- The limit is an `int`, and what is read a `long`. -/
def lockLimitLetter (add : Bool) (args : List CString) (new : NewLock) :
    Except Reply (NewLock × List CString) :=
  if add then
    match args with
    | [] => failure needValue [['l']]
    | arg :: args =>
      if atol arg ≤ 0 then failure needPositive []
      else .ok ({ new with limit := BitVec.ofInt 32 (atol arg), off := new.off &&& ~~~cmodeLimit }, args)
  else .ok ({ new with limit := 0#32, off := new.off ||| cmodeLimit }, args)

def lockSimpleLetter (add : Bool) (flag : Flags) (new : NewLock) : NewLock :=
  if add then { new with on := new.on ||| flag, off := new.off &&& ~~~flag }
  else { new with off := new.off ||| flag, on := new.on &&& ~~~flag }

def lockExtLetter (add : Bool) (c : Char) (i : Nat) (args : List CString) (new : NewLock) :
    Except Reply (NewLock × List CString) :=
  if add then
    match args with
    | [] => failure needValue [[c]]
    | arg :: args =>
      if arg.length > 350 then failure invalidValue [arg, [c]]
      else if chan.bind (fun ch => ch.extmodes i) ≠ some arg ∧ check i arg = false then
        failure invalidValue [arg, [c]]
      else .ok ({ new with
        ext := Function.update new.ext i (truncate 512 arg)
        extOff := Function.update new.extOff i false }, args)
  else .ok ({ new with
    ext := Function.update new.ext i []
    extOff := Function.update new.extOff i true }, args)

def lockLetter (add : Bool) (c : Char) (args : List CString) (new : NewLock) :
    Except Reply (NewLock × List CString) :=
  if c = 'k' then lockKeyLetter add args new
  else if c = 'l' then lockLimitLetter add args new
  else
    match t.modeList.find? fun m => m.1 = c with
    | some m => .ok (lockSimpleLetter add m.2 new, args)
    | none =>
      match t.ignoreModeList.idxOf? c with
      | some i => lockExtLetter check chan add c i args new
      | none => .ok (new, args)

def lockLetters : Option Bool → CString → List CString → NewLock → Except Reply NewLock
  | _, [], _, new => .ok new
  | dir, c :: letters, args, new =>
    if c = '+' then lockLetters (some true) letters args new
    else if c = '-' then lockLetters (some false) letters args new
    else
      match dir with
      | none => lockLetters none letters args new
      | some add =>
        match lockLetter t check chan add c args new with
        | .error reply => .error reply
        | .ok (new, args) => lockLetters (some add) letters args new

/-- `newext`: one word for each extended mode, added part by part. -/
def newext (new : NewLock) : CString :=
  (List.range (ignoreModeListSize t)).foldl (fun text i =>
    if new.ext i ≠ [] ∨ new.extOff i then
      let text := if text ≠ [] then truncate 512 (text ++ [' ']) else text
      let text := truncate 512 (text ++ [extLetter t i])
      if new.extOff i then text else truncate 512 (text ++ new.ext i)
    else text) []

/-- The lock as it is saved; the modes in `mask` are left unchanged. -/
def savedLock (mask : Flags) (maskExt : Bool) (new : NewLock) (lock : ModeLock) : ModeLock where
  on := (new.on &&& ~~~mask) ||| (lock.on &&& mask)
  off := (new.off &&& ~~~mask) ||| (lock.off &&& mask)
  limit := if test mask cmodeLimit then lock.limit else new.limit
  key := if test mask cmodeKey then lock.key else if new.key ≠ [] then some new.key else none
  ext := if maskExt then lock.ext else if newext t new ≠ [] then some (newext t new) else none

def setMlock (text : CString) (lock : ModeLock) : Except Reply ModeLock :=
  match callerMask operOnly src with
  | none => .error (.fail .noprivs notAuthorizedPerform [])
  | some (mask, maskExt) =>
    let tokens := words text
    match lockLetters t check chan none (tokens.headD []) tokens.tail .empty with
    | .error reply => .error reply
    | .ok new =>
      let changed := ((new.on ^^^ lock.on) ||| (new.off ^^^ lock.off)) &&& ~~~mask
      if changed = 0#32 ∧ maskExt then
        .error (.fail .noprivs onlyAlter [flagsToString t (~~~mask)])
      else .ok (savedLock t mask maskExt new lock)

/-- The lock of a channel that has just been registered, by `REGISTER` or `ACTIVATE`. -/
def registeredLock : ModeLock where
  on := 0x10#32 ||| 0x100#32
  off := (if chan.any (fun ch => ch.limit = 0) then cmodeLimit else 0#32) |||
    (if chan.any (fun ch => ch.key.isNone) then cmodeKey else 0#32)
  limit := 0#32
  key := none
  ext := none

end model

/-! ### What a mode string asks for -/

section asked
variable (t : Tables)

def askedLetter (add : Bool) (c : Char) (args : List CString) : List ModeChange × List CString :=
  if c = 'k' then
    if add then withParam (fun p => .key (some p)) args else ([.key none], args)
  else if c = 'l' then
    if add then withParam (fun p => .limit (some p)) args else ([.limit none], args)
  else
    match t.modeList.find? fun m => m.1 = c with
    | some m => ([.simple add m.2], args)
    | none =>
      match t.ignoreModeList.idxOf? c with
      | some i => if add then withParam (fun p => .ext i (some p)) args else ([.ext i none], args)
      | none => ([], args)

def askedLetters : Option Bool → CString → List CString → List ModeChange
  | _, [], _ => []
  | dir, c :: letters, args =>
    if c = '+' then askedLetters (some true) letters args
    else if c = '-' then askedLetters (some false) letters args
    else
      match dir with
      | none => askedLetters none letters args
      | some add =>
        (askedLetter t add c args).1 ++ askedLetters (some add) letters (askedLetter t add c args).2

def asked (text : CString) : List ModeChange :=
  askedLetters t none ((words text).headD []) (words text).tail

/-- What a change says about one bit of `mlock_on`. -/
def onAt (i : Nat) : ModeChange → Option Bool
  | .simple add flag => if flag.getLsbD i then some add else none
  | _ => none

/-- What a change says about one bit of `mlock_off`. -/
def offAt (i : Nat) : ModeChange → Option Bool
  | .simple add flag => if flag.getLsbD i then some (!add) else none
  | .key value => if cmodeKey.getLsbD i then some value.isNone else none
  | .limit value => if cmodeLimit.getLsbD i then some value.isNone else none
  | _ => none

def keyAt : ModeChange → Option (Option CString)
  | .key value => some value
  | _ => none

def limitAt : ModeChange → Option (Option CString)
  | .limit value => some value
  | _ => none

def extAt (i : Nat) : ModeChange → Option (Option CString)
  | .ext j value => if j = i then some value else none
  | _ => none

def askedExts (xs : List ModeChange) : List (Nat × CString) :=
  (List.range t.ignoreModeList.length).filterMap fun i =>
    (latest (extAt i) xs).map fun value => (i, value.getD [])

structure ConsistentIn (mask : Flags) (lock : ModeLock) : Prop where
  apart : lock.on &&& lock.off &&& mask = 0#32
  limit : test mask cmodeLimit = true → lock.limit ≠ 0#32 → test lock.off cmodeLimit = false
  key : test mask cmodeKey = true → lock.key ≠ none → test lock.off cmodeKey = false

structure Consistent (lock : ModeLock) : Prop where
  apart : lock.on &&& lock.off = 0#32
  limit : lock.limit ≠ 0#32 → test lock.off cmodeLimit = false
  key : lock.key ≠ none → test lock.off cmodeKey = false

structure Fits (mask : Flags) (maskExt : Bool) (xs : List ModeChange) (lock : ModeLock) : Prop where
  consistent : ConsistentIn mask lock
  number : test mask cmodeLimit = false → ∀ arg, latest limitAt xs = some (some arg) →
    atol arg < 2 ^ 32
  text : maskExt = false →
    ([' '].intercalate ((askedExts t xs).map (extWord t))).length < 512

end asked

end ChatServices.ChanServ.SetMlock
