import ChatServices.Lib.Segments
import Mathlib.Data.List.TakeWhile

/-! The send and receive queues of a connection, `libathemecore/datastream.c`. What the socket
answers is an input: `send` may take any part of what it is offered, `recv` may deliver any
number of bytes up to the room it is given. -/
namespace ChatServices.Net
open ChatServices.Lib.Segments

def SENDQSIZE : Nat := 4096 - 40

/-- `struct sendq`; both queues are made of it. -/
abbrev SendqChunk := Segment UInt8

/-- `smalloc(sizeof(struct sendq))` hands out zeroed memory. -/
def newChunk : SendqChunk := ⟨0, 0, List.replicate SENDQSIZE 0⟩

structure Connection where
  recvq : List SendqChunk
  sendq : List SendqChunk
  sendqLimit : Nat
  CF_DEAD : Bool
  CF_NONEWLINE : Bool
  CF_SEND_EOF : Bool
  CF_SEND_DEAD : Bool
  /-- `connection_setselect_write`: the connection waits for its socket to take data. -/
  writeHandler : Bool
  /-- `connection_close` has been called. -/
  closed : Bool
  deriving DecidableEq

def Connection.fresh : Connection := ⟨[], [], 0, false, false, false, false, false, false⟩

/-- The value a C `int` of 32 bits keeps of a number. -/
def toInt (n : Int) : Int := n.bmod (2 ^ 32)

section sendq

/-- The `l` bytes at `buf + pos`; there are none outside the buffer. -/
def bytesAt (buf : List UInt8) (pos : Int) (l : Nat) : Option (List UInt8) :=
  if 0 ≤ pos ∧ pos + l ≤ buf.length then some ((buf.drop pos.toNat).take l) else none

/-- The second part of `sendq_add`: new chunks while there is something left. `pos` is an `int`. -/
def sendqAddChunks (buf : List UInt8) (pos : Int) (len : Nat) : Option (List SendqChunk) :=
  if _h : len = 0 then some []
  else do
    let l := min SENDQSIZE len
    let data ← bytesAt buf pos l
    let more ← sendqAddChunks buf (toInt (pos + l)) (len - l)
    pure (newChunk.push data :: more)
termination_by len
decreasing_by
  simp only [SENDQSIZE]
  omega

def sendqNonempty (cptr : Connection) : Bool :=
  if cptr.CF_SEND_DEAD then false
  else if cptr.CF_SEND_EOF then true
  else
    match cptr.sendq.head? with
    | none => false
    | some sq => sq.firstfree > sq.firstused

/-- `sendq_add(cptr, buf, len)` with `len` the length of `buf`; `none` where the code reads
outside `buf`. -/
def sendqAdd (cptr : Connection) (buf : List UInt8) : Option Connection :=
  let len := buf.length
  if cptr.CF_DEAD || cptr.CF_SEND_EOF then some cptr
  else if len = 0 then some cptr
  else if cptr.sendqLimit ≠ 0 ∧ cptr.sendq.length * SENDQSIZE + len > cptr.sendqLimit then
    some { cptr with CF_DEAD := true }
  else
    let cptr := if sendqNonempty cptr then cptr else { cptr with writeHandler := true }
    match cptr.sendq.getLast? with
    | some sq => do
      let l := min (SENDQSIZE - sq.firstfree) len
      let data ← bytesAt buf 0 l
      let more ← sendqAddChunks buf l (len - l)
      pure { cptr with sendq := cptr.sendq.dropLast ++ [sq.push data] ++ more }
    | none => do
      let more ← sendqAddChunks buf 0 len
      pure { cptr with sendq := more }

def sendqAddEof (cptr : Connection) : Connection :=
  if cptr.CF_DEAD || cptr.CF_SEND_EOF then cptr
  else
    let cptr := if sendqNonempty cptr then cptr else { cptr with writeHandler := true }
    { cptr with CF_SEND_EOF := true }

def sendqSetLimit (cptr : Connection) (len : Nat) : Connection := { cptr with sendqLimit := len }

/-- What `send(2)` answers: a count, an error that means to try again, or another error. -/
inductive SendAnswer where
  | accepted (l : Nat)
  | again
  | failed
  deriving DecidableEq

/-- One `send` of the flush loop: it takes at most what it is offered. The flag says that the
connection is dead. A socket that has no answer left is not ready. -/
def sendOnce (s : List SendAnswer × Bool) (offered : List UInt8) :
    (List SendAnswer × Bool) × Option Nat :=
  match s.1 with
  | [] => (s, none)
  | .accepted l :: answers => ((answers, s.2), some (min l offered.length))
  | .again :: answers => ((answers, s.2), none)
  | .failed :: answers => ((answers, true), none)

/-- `sendq_flush`, and the bytes the socket has accepted. -/
def sendqFlush (cptr : Connection) (answers : List SendAnswer) : Connection × List UInt8 :=
  let r := drain (fun _ => false) sendOnce (answers, cptr.CF_DEAD) cptr.sendq
  let cptr := { cptr with sendq := r.rest, CF_DEAD := r.state.2 }
  if r.cut then (cptr, r.out)
  else
    ({ cptr with
      CF_SEND_DEAD := cptr.CF_SEND_DEAD || cptr.CF_SEND_EOF
      writeHandler := false }, r.out)

end sendq

section recvq

/-- What `recv(2)` answers: bytes, the end of the stream, or an error. -/
inductive RecvAnswer where
  | bytes (data : List UInt8)
  | again
  | failed
  deriving DecidableEq

/-- `connection_close` also frees both queues. -/
def connectionClose (cptr : Connection) : Connection :=
  { cptr with closed := true, recvq := [], sendq := [] }

/-- The queue with the chunk `recv` reads into as its last one. -/
def recvqRoom (recvq : List SendqChunk) : List SendqChunk × SendqChunk :=
  match recvq.getLast? with
  | some sq => if SENDQSIZE - sq.firstfree = 0 then (recvq, newChunk) else (recvq.dropLast, sq)
  | none => ([], newChunk)

/-- `recvq_put` up to the call of the handler, and the bytes `recv` has delivered. The handler
is the caller of the functions below, whose calls are steps of their own. -/
def recvqPut (cptr : Connection) (answer : RecvAnswer) : Connection × List UInt8 :=
  if cptr.CF_DEAD || cptr.CF_SEND_DEAD then (connectionClose cptr, [])
  else
    let (front, sq) := recvqRoom cptr.recvq
    match answer with
    | .again => ({ cptr with recvq := front ++ [sq] }, [])
    | .failed => (connectionClose cptr, [])
    | .bytes data =>
      let got := data.take (SENDQSIZE - sq.firstfree)
      if got = [] then (connectionClose cptr, [])
      else ({ cptr with recvq := front ++ [sq.push got] }, got)

/-- `p - buf`, returned as an `int`. -/
def countOf (got : List UInt8) : Int := toInt got.length

def getOnce (len : Nat) (offered : List UInt8) : Nat × Option Nat :=
  let l := min offered.length len
  (len - l, some l)

structure Got where
  cptr : Connection
  got : List UInt8
  count : Int
  deriving DecidableEq

def recvqGet (cptr : Connection) (len : Nat) : Got :=
  let r := drain (fun len => len == 0) getOnce len cptr.recvq
  ⟨{ cptr with recvq := r.rest }, r.out, countOf r.out⟩

def newline : UInt8 := 10

/-- The first loop of `recvq_getline`: the bytes seen, and where the newline is: so many chunks
on, at that offset from its first used byte. -/
def findNewline (len : Nat) : Nat → List SendqChunk → Nat × Option (Nat × Nat)
  | l, [] => (l, none)
  | l, sq2 :: rest =>
    let l := l + (sq2.firstfree - sq2.firstused)
    if newline ∈ sq2.pending then (l, some (0, sq2.pending.idxOf newline))
    else if l ≥ len then (l, none)
    else
      let r := findNewline len l rest
      (r.1, r.2.map fun m => (m.1 + 1, m.2))

structure LineState where
  len : Nat
  mark : Option (Nat × Nat)
  CF_NONEWLINE : Bool
  deriving DecidableEq

/-- One chunk of the second loop. With no newline found the comparison against the null
pointer fails, as it does for the chunks that are not `sq2`. -/
def lineOnce (s : LineState) (offered : List UInt8) : LineState × Option Nat :=
  let l := min offered.length s.len
  match s.mark with
  | some (0, k) =>
    if l ≥ k + 1 then (⟨s.len - (k + 1), none, false⟩, some (k + 1))
    else (⟨s.len - l, none, s.CF_NONEWLINE⟩, some l)
  | some (j + 1, k) => (⟨s.len - l, some (j, k), s.CF_NONEWLINE⟩, some l)
  | none => (⟨s.len - l, none, s.CF_NONEWLINE⟩, some l)

def recvqGetline (cptr : Connection) (len : Nat) : Got :=
  let (l, mark) := findNewline len 0 cptr.recvq
  if mark = none ∧ l < len then ⟨cptr, [], 0⟩
  else
    let r := drain (fun s => s.len == 0) lineOnce ⟨len, mark, true⟩ cptr.recvq
    ⟨{ cptr with recvq := r.rest, CF_NONEWLINE := r.state.CF_NONEWLINE }, r.out, countOf r.out⟩

end recvq

end ChatServices.Net
