import ChatServices.Text

/-! The Base64 codec: `base64_encode` and `base64_decode` into a buffer of a given
size, with the decoder's partial byte and its checks at the end of the text. -/
namespace ChatServices.Base64
open ChatServices.Text

def alphabet : CString :=
  "ABCDEFGHIJKLMNOPQRSTUVWXYZabcdefghijklmnopqrstuvwxyz0123456789+/".toList

def pad64 : Char := '='

def digit (n : Nat) : Char := alphabet.getD n pad64

/-- `strchr (Base64, ch) - Base64`. -/
def index (c : Char) : Option Nat := alphabet.findIdx? (· = c)

def isspace (c : Char) : Bool := c = ' ' ∨ ('\t' ≤ c ∧ c ≤ '\r')

def encodeGroups : CString → CString
  | a :: b :: c :: rest =>
    digit (a.toNat / 4) :: digit (a.toNat % 4 * 16 + b.toNat / 16) ::
      digit (b.toNat % 16 * 4 + c.toNat / 64) :: digit (c.toNat % 64) :: encodeGroups rest
  | [a, b] =>
    [digit (a.toNat / 4), digit (a.toNat % 4 * 16 + b.toNat / 16), digit (b.toNat % 16 * 4), pad64]
  | [a] => [digit (a.toNat / 4), digit (a.toNat % 4 * 16), pad64, pad64]
  | [] => []

/-- `base64_encode`; `none` is the -1 of a target that is too small. -/
def encode (src : CString) (targsize : Nat) : Option CString :=
  if (encodeGroups src).length < targsize then some (encodeGroups src) else none

inductive Phase where
  | s0 | s1 | s2 | s3
  deriving DecidableEq, Repr

/-- The decoder after some input: where it is in its group of four, the bytes it
has finished (newest first) and the byte it is filling. -/
structure Decoder where
  phase : Phase
  done : CString
  partialByte : Nat
  deriving DecidableEq, Repr

def decodeDigit (targsize : Nat) (d : Decoder) (v : Nat) : Option Decoder :=
  let tarindex := d.done.length
  match d.phase with
  | .s0 => if tarindex ≥ targsize then none else some ⟨.s1, d.done, v * 4 % 256⟩
  | .s1 =>
    if tarindex + 1 ≥ targsize then none
    else some ⟨.s2, Char.ofNat (d.partialByte ||| v / 16) :: d.done, v % 16 * 16⟩
  | .s2 =>
    if tarindex + 1 ≥ targsize then none
    else some ⟨.s3, Char.ofNat (d.partialByte ||| v / 4) :: d.done, v % 4 * 64⟩
  | .s3 =>
    if tarindex ≥ targsize then none
    else some ⟨.s0, Char.ofNat (d.partialByte ||| v) :: d.done, 0⟩

/-- The checks after a pad character: the second one where two are due, nothing
but whitespace behind, and no bits left in the partial byte. -/
def decodePadded (d : Decoder) (rest : CString) : Option CString :=
  match d.phase with
  | .s0 | .s1 => none
  | .s2 =>
    match rest.dropWhile isspace with
    | '=' :: rest' => if rest'.all isspace ∧ d.partialByte = 0 then some d.done.reverse else none
    | _ => none
  | .s3 => if rest.all isspace ∧ d.partialByte = 0 then some d.done.reverse else none

def decodeFrom (targsize : Nat) (d : Decoder) : CString → Option CString
  | [] => if d.phase = .s0 then some d.done.reverse else none
  | c :: cs =>
    if isspace c then decodeFrom targsize d cs
    else if c = pad64 then decodePadded d cs
    else
      match index c with
      | none => none
      | some v =>
        match decodeDigit targsize d v with
        | none => none
        | some d' => decodeFrom targsize d' cs

/-- `base64_decode`; `none` is -1, otherwise the bytes it stored. -/
def decode (src : CString) (targsize : Nat) : Option CString :=
  decodeFrom targsize ⟨.s0, [], 0⟩ (cstr src)

example : decode "AGEAYg==".toList 1024 = some ['\x00', 'a', '\x00', 'b'] := by decide
example : encode ['\x00', 'a', '\x00', 'b'] 1024 = some "AGEAYg==".toList := by decide

end ChatServices.Base64
