import ChatServices.ChanServ.Channels
import ChatServices.Storage.Opensex

/-! Memos, `modules/memoserv`: the inbox of each account, the commands that put memos into it, read
them and take them out, and the row of the database that has one. -/
namespace ChatServices.MemoServ
open ChatServices.Text ChatServices.Storage
open ChatServices.Cidr (atoi)

def NICKLEN : Nat := 32
def MEMOLEN : Nat := 300
def MEMO_MAX_NUM : Nat := 5
def MEMO_MAX_TIME : Int := 180
def MAX_READ_AT_ONCE : Nat := 5

def MEMO_READ : BitVec 32 := 1
def MEMO_CHANNEL : BitVec 32 := 2

structure Mymemo where
  sender : CString
  text : CString
  sent : Int
  status : BitVec 32
  deriving DecidableEq

def Mymemo.isRead (memo : Mymemo) : Bool := memo.status &&& MEMO_READ ≠ 0
def Mymemo.isChannel (memo : Mymemo) : Bool := memo.status &&& MEMO_CHANNEL ≠ 0

/-- What memos need of an account; `nomemo` and `waitauth` are flags, and `memoct_new` is an
`unsigned short`. -/
structure Myuser where
  name : CString
  nomemo : Bool
  waitauth : Bool
  logins : Nat
  memoIgnores : List CString
  memos : List Mymemo
  memoctNew : BitVec 16
  ratelimitNum : BitVec 16
  ratelimitTime : Int

def Myuser.blank : Myuser := ⟨[], false, false, 0, [], [], 0, 0, 0⟩

/-- `nick` is the one of MemoServ, and `strftime` what is printed of a time. -/
structure Conf where
  maxmemos : Nat
  mdlimit : Nat
  noNickOwnership : Bool
  nick : CString
  strftime : Int → CString

/-- Accounts by address; `mynickFind` has the owner of a nick. -/
structure State where
  conf : Conf
  myuserFind : CString → Option Nat
  mynickFind : CString → Option Nat
  users : Nat → Myuser

def State.start (conf : Conf) : State := ⟨conf, fun _ => none, fun _ => none, fun _ => .blank⟩

/-- A command puts a memo into an inbox that has `count` memos, or takes one unread memo off the
counter that shows `memoctNew`. -/
inductive Obs where
  | added (count maxmemos : Nat)
  | taken (memoctNew : BitVec 16)
  deriving DecidableEq

section inbox
variable (s : State)

def update (a : Nat) (f : Myuser → Myuser) : State :=
  { s with users := fun b => if b = a then f (s.users b) else s.users b }

def nodeAdd (memo : Mymemo) (mu : Myuser) : Myuser :=
  { mu with memos := mu.memos ++ [memo], memoctNew := mu.memoctNew + 1 }

def deliver (tmu : Nat) (memo : Mymemo) : State × List Obs :=
  (update s tmu (nodeAdd memo), [.added (s.users tmu).memos.length s.conf.maxmemos])

/-- Whether `a` is the owner of a name on the ignore list of `tmu`. -/
def ignored (tmu a : Nat) : Bool :=
  (s.users tmu).memoIgnores.any fun name =>
    (if s.conf.noNickOwnership then s.myuserFind name else s.mynickFind name) = some a

def ratelimitReset (a : Nat) (now : Int) : State :=
  update s a fun mu =>
    if now - mu.ratelimitTime > MEMO_MAX_TIME then { mu with ratelimitNum := 0 } else mu

def limited (a : Nat) (flood : Bool) : Bool :=
  (s.users a).ratelimitNum.toNat > MEMO_MAX_NUM && !flood

def ratelimitCount (a : Nat) (now : Int) : State :=
  update s a fun mu => { mu with ratelimitNum := mu.ratelimitNum + 1, ratelimitTime := now }

end inbox

/-! ### Sending -/

section send
variable (s : State)

/-- What `send_user_memo` wants of its arguments; `\001` starts a CTCP. -/
def sendable (memotext : CString) : Bool :=
  memotext.length < MEMOLEN && memotext.head? ≠ some '\x01'

/-- The inbox takes memos from commands that ask for `maxmemos`. -/
def isOpen (target : Nat) : Bool :=
  !(s.users target).nomemo && (s.users target).memos.length < s.conf.maxmemos

def channelStatus (channel : Bool) : BitVec 32 := if channel then MEMO_CHANNEL else 0

/-- `send_user_memo`, whose status is 0 or `MEMO_CHANNEL` -/
def sendUserMemo (smu target : Option Nat) (memotext : Option CString) (channel : Bool)
    (now : Int) : State × List Obs :=
  match smu, target, memotext with
  | some smu, some target, some memotext =>
    if sendable memotext then
      let s := ratelimitCount s smu now
      if isOpen s target && !ignored s target smu then
        deliver s target
          ⟨truncate NICKLEN (s.users smu).name, truncate MEMOLEN memotext, now,
            channelStatus channel⟩
      else (s, [])
    else (s, [])
  | _, _, _ => (s, [])

def sendUserMemoMisc (target : Option Nat) (memotext : Option CString) (channel : Bool)
    (now : Int) : State × List Obs :=
  match target, memotext with
  | some target, some memotext =>
    if sendable memotext && isOpen s target then
      deliver s target
        ⟨truncate NICKLEN s.conf.nick, truncate MEMOLEN memotext, now, channelStatus channel⟩
    else (s, [])
  | _, _ => (s, [])

/-- SEND to an account; `tmu` is what `myuser_find_ext` finds of the target. -/
def msCmdSend (smu : Nat) (tmu : Option Nat) (m : Option CString) (flood : Bool) (now : Int) :
    State × List Obs :=
  match m with
  | none => (s, [])
  | some m =>
    if (s.users smu).waitauth then (s, [])
    else
      let s' := ratelimitReset s smu now
      if limited s' smu flood then (s', [])
      else if !sendable m then (s', [])
      else
        match tmu with
        | none => (s', [])
        | some tmu =>
          let s' := ratelimitCount s' smu now
          if isOpen s' tmu then sendUserMemo s' (some smu) (some tmu) (some m) false now
          else (s', [])

/-- An index of a memo, kept in an `unsigned int`. -/
def memoNumber (arg : CString) : Nat := (BitVec.ofInt 32 (atoi arg)).toNat

def forwardable (smu tmu : Nat) (memonum : Nat) : Bool :=
  !(s.users smu).waitauth && smu ≠ tmu && memonum ≠ 0 && !(s.users tmu).nomemo &&
    memonum ≤ (s.users smu).memos.length && (s.users tmu).memos.length < s.conf.mdlimit

def msCmdForward (smu : Nat) (tmu : Option Nat) (arg : Option CString) (flood : Bool)
    (now : Int) : State × List Obs :=
  match tmu, arg with
  | some tmu, some arg =>
    if forwardable s smu tmu (memoNumber arg) then
      let s' := ratelimitReset s smu now
      if limited s' smu flood then (s', [])
      else
        let s' := ratelimitCount s' smu now
        if ignored s' tmu smu then (s', [])
        else
          match (s'.users smu).memos[memoNumber arg - 1]? with
          | none => (s', [])
          | some memo =>
            deliver s' tmu
              ⟨truncate NICKLEN (s'.users smu).name, truncate MEMOLEN memo.text, now, 0⟩
    else (s, [])
  | _, _ => (s, [])

end send

/-! ### Reading and deleting -/

section read
variable (s : State)

def receiptTo (memo : Mymemo) : Option Nat :=
  if memo.isChannel then none
  else (s.myuserFind memo.sender).filter fun tmu =>
    !strcaseEq s.conf.nick memo.sender && (s.users tmu).logins = 0 &&
      (s.users tmu).memos.length < s.conf.mdlimit

def setRead (i : Nat) (mu : Myuser) : Myuser :=
  { mu with
    memos := mu.memos.modify i fun memo => { memo with status := memo.status ||| MEMO_READ }
    memoctNew := mu.memoctNew - 1 }

def receiptText (a : Nat) (memo : Mymemo) : CString :=
  (s.users a).name ++ " has read a memo from you sent at ".toList ++ s.conf.strftime memo.sent

/-- The memo at the place `i` is read. True if its sender gets a memo, whose node the loop goes on
from. -/
def readMemo (a i : Nat) (memo : Mymemo) (now : Int) : (State × List Obs) × Bool :=
  if memo.isRead then ((s, []), false)
  else
    let taken := [.taken (s.users a).memoctNew]
    let s := update s a (setRead i)
    match receiptTo s memo with
    | none => ((s, taken), false)
    | some tmu =>
      let r := deliver s tmu
        ⟨truncate NICKLEN s.conf.nick, truncate MEMOLEN (receiptText s a memo), now, 0⟩
      ((r.1, taken ++ r.2), true)

/-- The loop of READ from the place `i` on. The node of a receipt is the last of its list, so that
nothing is read after it. -/
def readFrom (a memonum : Nat) (readnew : Bool) (now : Int) (s : State) (i numread : Nat) :
    List Mymemo → State × List Obs
  | [] => (s, [])
  | memo :: rest =>
    if i + 1 = memonum || (readnew && !memo.isRead) then
      let r := readMemo s a i memo now
      if !readnew then r.1
      else if numread + 1 ≥ MAX_READ_AT_ONCE && (r.1.1.users a).memoctNew ≠ 0 then r.1
      else if r.2 then r.1
      else
        let next := readFrom a memonum readnew now r.1.1 (i + 1) (numread + 1) rest
        (next.1, r.1.2 ++ next.2)
    else readFrom a memonum readnew now s (i + 1) numread rest

def msCmdRead (a : Nat) (arg1 : Option CString) (now : Int) : State × List Obs :=
  match arg1 with
  | none => (s, [])
  | some arg1 =>
    let memonum := memoNumber arg1
    let readnew := strcaseEq arg1 "NEW".toList
    if (!readnew && memonum = 0) || memonum > (s.users a).memos.length then (s, [])
    else readFrom a memonum readnew now s 0 0 (s.users a).memos

/-- `strtoul (s, &errptr, 10)` -/
def strtoulDecimal (s : CString) : Nat × CString :=
  let (neg, s) := numberSign (s.dropWhile isSpace)
  let digits := s.takeWhile Char.isDigit
  let n := digits.foldl (fun n c => 10 * n + (c.toNat - '0'.toNat)) 0
  (if n ≥ 2 ^ 64 then 2 ^ 64 - 1 else if neg then (2 ^ 64 - n) % 2 ^ 64 else n,
    s.dropWhile Char.isDigit)

inductive Which where
  | all
  | old
  | number (memonum : Nat)

/-- The argument of DELETE, for an inbox of `count` memos. -/
def deleteArg (arg1 : CString) (count : Nat) : Option Which :=
  if strcaseEq "all".toList arg1 then some .all
  else if strcaseEq "old".toList arg1 then some .old
  else
    let memonum := (strtoulDecimal arg1).1 % 2 ^ 32
    if memonum = 0 ∨ (strtoulDecimal arg1).2 ≠ [] ∨ memonum > count then none
    else some (.number memonum)

def Which.picks (which : Which) (i : Nat) (memo : Mymemo) : Bool :=
  match which with
  | .all => true
  | .old => memo.isRead
  | .number memonum => i + 1 = memonum

/-- The loop of DELETE: what is left of the memos from the place `i` on, and the counter. -/
def deleteFrom (which : Which) (i : Nat) (memoctNew : BitVec 16) :
    List Mymemo → List Mymemo × BitVec 16 × List Obs
  | [] => ([], memoctNew, [])
  | memo :: rest =>
    if which.picks i memo then
      if memo.isRead then deleteFrom which (i + 1) memoctNew rest
      else
        let r := deleteFrom which (i + 1) (memoctNew - 1) rest
        (r.1, r.2.1, .taken memoctNew :: r.2.2)
    else
      let r := deleteFrom which (i + 1) memoctNew rest
      (memo :: r.1, r.2)

def msCmdDelete (a : Nat) (arg1 : Option CString) : State × List Obs :=
  match arg1.bind fun arg1 => deleteArg arg1 (s.users a).memos.length with
  | none => (s, [])
  | some which =>
    let r := deleteFrom which 0 (s.users a).memoctNew (s.users a).memos
    (update s a fun mu => { mu with memos := r.1, memoctNew := r.2.1 }, r.2.2)

/-- `corestorage_h_me`, once the row is read. -/
def corestorageHMe (dest src : CString) (sent : Int) (status : BitVec 32) (text : CString) :
    State :=
  match s.myuserFind dest with
  | none => s
  | some a =>
    let mz : Mymemo := ⟨truncate NICKLEN src, truncate MEMOLEN text, sent, status⟩
    update s a fun mu =>
      { mu with
        memos := mu.memos ++ [mz]
        memoctNew := if mz.isRead then mu.memoctNew else mu.memoctNew + 1 }

end read

/-! ### Runs -/

/-- `account`, `names` and `conf` are all else that happens: an account is made or dropped, its other
data change, names come to be found, and the configuration is read again. -/
inductive Event where
  | sendUserMemo (smu target : Option Nat) (memotext : Option CString) (channel : Bool) (now : Int)
  | sendUserMemoMisc (target : Option Nat) (memotext : Option CString) (channel : Bool) (now : Int)
  | send (smu : Nat) (tmu : Option Nat) (m : Option CString) (flood : Bool) (now : Int)
  | forward (smu : Nat) (tmu : Option Nat) (arg : Option CString) (flood : Bool) (now : Int)
  | read (smu : Nat) (arg1 : Option CString) (now : Int)
  | delete (smu : Nat) (arg1 : Option CString)
  | load (dest src : CString) (sent : Int) (status : BitVec 32) (text : CString)
  | fresh (a : Nat)
  | account (a : Nat) (name : CString) (nomemo waitauth : Bool) (logins : Nat)
      (memoIgnores : List CString)
  | names (myuserFind mynickFind : CString → Option Nat)
  | conf (conf : Conf)

def step (s : State) : Event → State × List Obs
  | .sendUserMemo smu target memotext channel now =>
    MemoServ.sendUserMemo s smu target memotext channel now
  | .sendUserMemoMisc target memotext channel now =>
    MemoServ.sendUserMemoMisc s target memotext channel now
  | .send smu tmu m flood now => msCmdSend s smu tmu m flood now
  | .forward smu tmu arg flood now => msCmdForward s smu tmu arg flood now
  | .read smu arg1 now => msCmdRead s smu arg1 now
  | .delete smu arg1 => msCmdDelete s smu arg1
  | .load dest src sent status text => (corestorageHMe s dest src sent status text, [])
  | .fresh a => (update s a fun _ => .blank, [])
  | .account a name nomemo waitauth logins memoIgnores =>
    (update s a fun mu =>
      { mu with
        name := name
        nomemo := nomemo
        waitauth := waitauth
        logins := logins
        memoIgnores := memoIgnores }, [])
  | .names myuserFind mynickFind =>
    ({ s with myuserFind := myuserFind, mynickFind := mynickFind }, [])
  | .conf conf => ({ s with conf := conf }, [])

end ChatServices.MemoServ
