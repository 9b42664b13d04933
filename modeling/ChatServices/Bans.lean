import ChatServices.Lib.Numbered
import ChatServices.Lib.Run
import ChatServices.Lib.Walk
import ChatServices.Text

/-! K-lines, X-lines and Q-lines: how they get their numbers, how they go, and what saving the
database and loading it in a new process makes of numbers and counters. -/
namespace ChatServices
open ChatServices.Lib ChatServices.Lib.Numbered ChatServices.Lib.Walk ChatServices.Text

/-- A `kline_t` (`α` is user and host), an `xline_t` or a `qline_t`. -/
structure Ban (α : Type) where
  mask : α
  number : Nat
  duration : Nat
  settime : Nat
  expires : Nat
  deriving DecidableEq

def Ban.expired {α : Type} (b : Ban α) (now : Nat) : Bool := b.duration ≠ 0 && b.expires ≤ now

def newBan {α : Type} (now : Nat) (mask : α) (duration number : Nat) : Ban α :=
  ⟨mask, number, duration, now, now + duration⟩

abbrev Kline := Ban (CString × CString)

/-- The list of X-lines or Q-lines with the function-static counter of its constructor, an
`unsigned int`, and the id in `me` that is saved but not used. -/
structure LineList where
  lines : List (Ban CString)
  cnt : Nat
  id : Nat
  deriving DecidableEq

/-- The state of a process; `klineId` is `me.kline_id`, an `unsigned long`. -/
structure Bans where
  klines : List Kline
  klineId : Nat
  xlines : LineList
  qlines : LineList
  deriving DecidableEq

def noBans : Bans := ⟨[], 0, ⟨[], 0, 0⟩, ⟨[], 0, 0⟩⟩

structure BanConfig where
  casemapping : CaseMapping
  /-- `!match (mask, name)` and `!match_ips (mask, address)` -/
  matchMask : CString → CString → Bool
  matchIps : CString → CString → Bool
  klineDoNotRemoveMoreSpecific : Bool

/-! ### K-lines -/

def klineAddWithId (s : Bans) (now : Nat) (mask : CString × CString) (duration id : Nat) : Bans :=
  { s with klines := s.klines ++ [newBan now mask duration id] }

def klineAdd (s : Bans) (now : Nat) (mask : CString × CString) (duration : Nat) : Bans :=
  let id := (s.klineId + 1) % 2 ^ 64
  klineAddWithId { s with klineId := id } now mask duration id

/-- `kline_delete` on the first K-line that a search accepts. -/
def klineDelete (s : Bans) (found : Kline → Bool) : Bans :=
  { s with klines := s.klines.eraseP found }

def klineHits (cfg : BanConfig) (mask : CString × CString) (k : Kline) : Bool :=
  cfg.matchMask k.mask.1 mask.1 && cfg.matchMask k.mask.2 mask.2

def klineFind (cfg : BanConfig) (s : Bans) (mask : CString × CString) : Option Kline :=
  s.klines.find? (klineHits cfg mask)

def klineFindNum (s : Bans) (number : Nat) : Option Kline :=
  s.klines.find? (fun k => k.number = number)

def klineExpire (s : Bans) (now : Nat) : Bans :=
  { s with klines := s.klines.filter (fun k => !k.expired now) }

def redundant (cfg : BanConfig) (now : Nat) (mask : CString × CString) (duration : Nat)
    (k : Kline) : Bool :=
  cfg.matchMask mask.1 k.mask.1 &&
    (cfg.matchMask mask.2 k.mask.2 || cfg.matchIps mask.2 k.mask.2) &&
    !(duration ≠ 0 && k.duration = 0) && !(duration ≠ 0 && k.expires > now + duration)

def osCmdAkillAdd (cfg : BanConfig) (s : Bans) (now : Nat) (mask : CString × CString)
    (duration : Nat) : Bans :=
  if (klineFind cfg s mask).isSome then s
  else
    let kept := if cfg.klineDoNotRemoveMoreSpecific then s.klines
      else s.klines.filter (fun k => !redundant cfg now mask duration k)
    klineAdd { s with klines := kept } now mask duration

def akillDelNum (s : Bans) (number : Nat) : Bans :=
  match klineFindNum s number with
  | some _ => klineDelete s (fun k => k.number = number)
  | none => s

/-! ### X-lines and Q-lines, by the search that their deletion makes -/

namespace LineList

def add (l : LineList) (now : Nat) (mask : CString) (duration : Nat) : LineList :=
  let number := (l.cnt + 1) % 2 ^ 32
  { l with cnt := number, lines := l.lines ++ [newBan now mask duration number] }

section hits
variable (hits : CString → CString → Bool)

def find (l : LineList) (mask : CString) : Option (Ban CString) :=
  l.lines.find? (fun x => hits x.mask mask)

def delete (l : LineList) (mask : CString) : LineList :=
  { l with lines := l.lines.eraseP (fun x => hits x.mask mask) }

def expireBody (now : Nat) (nodes : List (Ban CString × Nat)) (n : Ban CString × Nat) :
    Option (List (Ban CString × Nat)) :=
  some (if n.1.expired now then nodes.eraseP (fun x => hits x.1.mask n.1.mask) else nodes)

/-- The nodes are bans with their places on the list; nothing where the loop goes on to one that it
has freed. -/
def expire (l : LineList) (now : Nat) : Option LineList :=
  let nodes := l.lines.zipIdx
  (walkSafe (fun nodes => nodes) (expireBody hits now) nodes.length nodes.head? nodes).map fun nodes =>
    { l with lines := nodes.map Prod.fst }

def cmdAdd (l : LineList) (now : Nat) (mask : CString) (duration : Nat) : LineList :=
  if (l.find hits mask).isSome then l else l.add now mask duration

def delNum (l : LineList) (number : Nat) : LineList :=
  match l.lines.find? (fun x => x.number = number) with
  | some x => l.delete hits x.mask
  | none => l

end hits
end LineList

/-- `xline_find` matches masks, `qline_find` compares them. -/
def xlineHits (cfg : BanConfig) : CString → CString → Bool := cfg.matchMask
def qlineHits (cfg : BanConfig) : CString → CString → Bool := irccaseEq cfg.casemapping

/-! ### The database -/

/-- A `KL`, `XL` or `QL` row; numbers go through `unsigned int`. -/
structure BanRow (α : Type) where
  id : Nat
  mask : α
  duration : Nat
  settime : Nat

def saveBan {α : Type} (b : Ban α) : BanRow α :=
  ⟨b.number % 2 ^ 32, b.mask, b.duration % 2 ^ 32, b.settime⟩

def restoreBan {α : Type} (row : BanRow α) (number : Nat) : Ban α :=
  ⟨row.mask, number, row.duration, row.settime, row.settime + row.duration⟩

structure BanDb where
  kid : Nat
  kl : List (BanRow (CString × CString))
  xid : Nat
  xl : List (BanRow CString)
  qid : Nat
  ql : List (BanRow CString)

def corestorageDbSave (s : Bans) : BanDb where
  kid := s.klineId % 2 ^ 32
  kl := s.klines.map saveBan
  xid := s.xlines.id % 2 ^ 32
  xl := s.xlines.lines.map saveBan
  qid := s.qlines.id % 2 ^ 32
  ql := s.qlines.lines.map saveBan

/-- `db_sread_int`, assigned to an `unsigned long`. -/
def sreadIntUlong (n : Nat) : Nat := if n % 2 ^ 32 < 2 ^ 31 then n % 2 ^ 32
  else n % 2 ^ 32 + (2 ^ 64 - 2 ^ 32)

def rowId {α : Type} (dbv : Nat) (row : BanRow α) : Nat := if dbv > 10 then row.id else 0

def corestorageHKl (dbv : Nat) (s : Bans) (row : BanRow (CString × CString)) : Bans :=
  let id := rowId dbv row
  if id ≠ 0 then { s with klines := s.klines ++ [restoreBan row id] }
  else
    let id := (s.klineId + 1) % 2 ^ 64
    { s with klineId := id, klines := s.klines ++ [restoreBan row id] }

/-- `corestorage_h_xl` and `corestorage_h_ql`: the counter goes on in any case. -/
def corestorageHLine (dbv : Nat) (l : LineList) (row : BanRow CString) : LineList :=
  let number := (l.cnt + 1) % 2 ^ 32
  let id := rowId dbv row
  { l with cnt := number,
           lines := l.lines ++ [restoreBan row (if id ≠ 0 then id else number)] }

def loadLines (dbv id : Nat) (rows : List (BanRow CString)) : LineList :=
  rows.foldl (corestorageHLine dbv) ⟨[], 0, sreadIntUlong id⟩

def corestorageDbLoad (dbv : Nat) (db : BanDb) : Bans :=
  let s := db.kl.foldl (corestorageHKl dbv) { noBans with klineId := sreadIntUlong db.kid }
  { s with xlines := loadLines dbv db.xid db.xl, qlines := loadLines dbv db.qid db.ql }

def dbVersion : Nat := 12

/-! ### Runs -/

inductive BanEvent where
  | akillAdd (now : Nat) (mask : CString × CString) (duration : Nat)
  | klineAdd (now : Nat) (mask : CString × CString) (duration : Nat)
  | akillDelNum (number : Nat)
  | akillDel (mask : CString × CString)
  | klineExpire (now : Nat)
  | sglineAdd (now : Nat) (mask : CString) (duration : Nat)
  | sglineDelNum (number : Nat)
  | sglineDel (mask : CString)
  | xlineExpire (now : Nat)
  | sqlineAdd (now : Nat) (mask : CString) (duration : Nat)
  | sqlineDelNum (number : Nat)
  | sqlineDel (mask : CString)
  | qlineExpire (now : Nat)
  | restart
  deriving DecidableEq

def BanEvent.exec (cfg : BanConfig) (s : Bans) : BanEvent → Option Bans
  | .akillAdd now mask duration => some (osCmdAkillAdd cfg s now mask duration)
  | .klineAdd now mask duration => some (ChatServices.klineAdd s now mask duration)
  | .akillDelNum number => some (ChatServices.akillDelNum s number)
  | .akillDel mask => some (klineDelete s (klineHits cfg mask))
  | .klineExpire now => some (ChatServices.klineExpire s now)
  | .sglineAdd now mask duration =>
    some { s with xlines := s.xlines.cmdAdd (xlineHits cfg) now mask duration }
  | .sglineDelNum number => some { s with xlines := s.xlines.delNum (xlineHits cfg) number }
  | .sglineDel mask => some { s with xlines := s.xlines.delete (xlineHits cfg) mask }
  | .xlineExpire now =>
    (s.xlines.expire (xlineHits cfg) now).map fun xlines => { s with xlines := xlines }
  | .sqlineAdd now mask duration =>
    some { s with qlines := s.qlines.cmdAdd (qlineHits cfg) now mask duration }
  | .sqlineDelNum number => some { s with qlines := s.qlines.delNum (qlineHits cfg) number }
  | .sqlineDel mask => some { s with qlines := s.qlines.delete (qlineHits cfg) mask }
  | .qlineExpire now =>
    (s.qlines.expire (qlineHits cfg) now).map fun qlines => { s with qlines := qlines }
  | .restart => some (corestorageDbLoad dbVersion (corestorageDbSave s))

/-- `after` is nothing where freed memory was read. -/
structure BanTransition where
  before : Bans
  event : BanEvent
  after : Option Bans

def banStep (cfg : BanConfig) (s : Bans) (e : BanEvent) : Bans × List BanTransition :=
  ((e.exec cfg s).getD s, [⟨s, e, e.exec cfg s⟩])

def NumbersUnique (s : Bans) : Prop :=
  Distinct Ban.number s.klines ∧ Distinct Ban.number s.xlines.lines ∧ Distinct Ban.number s.qlines.lines

def DeletesListed (before after : Bans) : BanEvent → Prop
  | .akillDelNum n => after.klines = before.klines.filter (fun k => k.number ≠ n)
  | .sglineDelNum n => after.xlines.lines = before.xlines.lines.filter (fun x => x.number ≠ n)
  | .sqlineDelNum n => after.qlines.lines = before.qlines.lines.filter (fun q => q.number ≠ n)
  | _ => True

/-- The step reads no freed memory, all bans of a kind have different numbers after it, and a
deletion by number takes off the ban with that number alone. -/
def BanTransition.Sound (t : BanTransition) : Prop :=
  ∃ s ∈ t.after, NumbersUnique s ∧ DeletesListed t.before s t.event

/-- Where the counters do their work. K-lines get a number that is not 0 in the 32 bits that
are saved, the counters of the others do not wrap, no number on a list that is loaded is beyond
the length of the list, an X-line that is deleted by number has a mask that matches its own text,
and so has one that expires, unless none does. -/
def CountersFit (cfg : BanConfig) (s : Bans) : BanEvent → Prop
  | .akillAdd _ _ _ => (s.klineId + 1) % 2 ^ 32 ≠ 0
  | .klineAdd _ _ _ => (s.klineId + 1) % 2 ^ 32 ≠ 0
  | .sglineAdd _ _ _ => s.xlines.cnt + 1 < 2 ^ 32
  | .sqlineAdd _ _ _ => s.qlines.cnt + 1 < 2 ^ 32
  | .sglineDelNum n => ∀ x ∈ s.xlines.lines, x.number = n → cfg.matchMask x.mask x.mask = true
  | .xlineExpire now => ∀ x ∈ s.xlines.lines, x.expired now = true →
      cfg.matchMask x.mask x.mask = true ∨ ∀ y ∈ s.xlines.lines, cfg.matchMask y.mask x.mask = false
  | .restart => (∀ x ∈ s.xlines.lines, x.number ≤ s.xlines.lines.length) ∧
      ∀ q ∈ s.qlines.lines, q.number ≤ s.qlines.lines.length
  | _ => True

end ChatServices
