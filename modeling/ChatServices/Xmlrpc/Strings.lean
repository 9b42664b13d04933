import ChatServices.CidrExact
import ChatServices.Lib.InPlace
import ChatServices.ChanServ.Command

/-! The strings of XML-RPC, `transport/xmlrpc/xmlrpclib.c`: how they are encoded for the wire, and
how a buffer of values is cut into strings and decoded, all in the buffer itself. -/
namespace ChatServices.Xmlrpc
open ChatServices.Lib ChatServices.Lib.InPlace ChatServices.Lib.Halting ChatServices.Text
open ChatServices.ChanServ (natArg)

structure ByteString where
  text : CString
  bytes : ∀ c ∈ text, c ≠ nul ∧ c.toNat < 256

/-! ### Encoding -/

def encodeChar (c : Char) : CString :=
  if c.toNat > 127 then "&#".toList ++ natArg c.toNat ++ [';']
  else if c = '&' then "&amp;".toList
  else if c = '<' then "&lt;".toList
  else if c = '>' then "&gt;".toList
  else if c = '"' then "&quot;".toList
  else [c]

/-- `xmlrpc_append_char_encode`, on what is in the string buffer already. -/
def xmlrpcAppendCharEncode (s s1 : CString) : CString := s ++ (cstr s1).flatMap encodeChar

/-! ### Memory -/

abbrev Memory := List Char

def charAt (mem : Memory) (i : Nat) : Char := mem.getD i nul

/-- The C string that starts at `i`. -/
def stringAt (mem : Memory) (i : Nat) : CString := cstr (mem.drop i)

def strchr (mem : Memory) (i : Nat) (c : Char) : Option Nat :=
  ((stringAt mem i).idxOf? c).map (i + ·)

def findText (pattern : CString) : CString → Option Nat
  | [] => none
  | c :: s => if pattern.isPrefixOf (c :: s) then some 0 else (findText pattern s).map (· + 1)

def strstr (mem : Memory) (i : Nat) (pattern : CString) : Option Nat :=
  (findText pattern (stringAt mem i)).map (i + ·)

section memory
variable {w : CString} {c : Char}

@[simp] theorem charAt_front (front : Memory) (c : Char) (rest : Memory) :
    charAt (front ++ c :: rest) front.length = c := by
  simp [charAt]

theorem stringAt_front (front rest : Memory) : stringAt (front ++ rest) front.length = cstr rest := by
  simp [stringAt]

theorem stringAt_next (front : Memory) (c : Char) (rest : Memory) :
    stringAt (front ++ c :: rest) (front.length + 1) = cstr rest := by
  have hfront := stringAt_front (front ++ [c]) rest
  rw [List.append_assoc, List.length_append] at hfront
  exact hfront

theorem stringAt_skip (front skipped rest : Memory) :
    stringAt (front ++ (skipped ++ rest)) (front.length + skipped.length) = cstr rest := by
  have hfront := stringAt_front (front ++ skipped) rest
  rwa [List.append_assoc, List.length_append] at hfront

theorem stringAt_set {mem : Memory} {i j : Nat} (h : i < j) (c : Char) :
    stringAt (mem.set i c) j = stringAt mem j := by
  rw [stringAt, stringAt, List.drop_set, if_pos h]

theorem idxOf_append {w : CString} (hw : c ∉ w) (rest : CString) :
    (w ++ c :: rest).idxOf? c = some w.length := by
  rw [List.idxOf?_eq_some_iff]
  refine ⟨by simp, by simp, fun j hj => ?_⟩
  have hlt : j < w.length := hj
  rw [List.getElem_append_left hlt]
  exact fun heq => hw (heq ▸ List.getElem_mem hlt)

theorem strchr_front (hw : nul ∉ w) (hc : c ∉ w) (hnul : c ≠ nul) (front rest : Memory) :
    strchr (front ++ (w ++ c :: rest)) front.length c = some (front.length + w.length) := by
  rw [strchr, stringAt_front, cstr_append hw, cstr_cons hnul, idxOf_append hc]
  rfl

theorem set_front (front w rest : Memory) (c d : Char) :
    (front ++ (w ++ c :: rest)).set (front.length + w.length) d = front ++ (w ++ d :: rest) := by
  rw [← List.append_assoc, ← List.length_append, ← List.append_assoc]
  simp

end memory

/-! ### Decoding -/

/-- The byte that an `int` is cut down to. -/
def byteOf (i : Int) : Char := Char.ofNat (i % 256).toNat

/-- One turn of the loop of `xmlrpc_decode_string`, with `p` to read at and `q` to write at. A
number is read up to its semicolon, which stays to be read. -/
def decodeStep (s : Cursor Char) : Memory ⊕ Cursor Char :=
  let p := s.read
  let q := s.write
  if charAt s.mem p = nul then .inl (s.mem.set q nul)
  else if charAt s.mem p = '&' then
    let p := p + 1
    if "gt;".toList.isPrefixOf (stringAt s.mem p) then .inr ⟨s.mem.set q '>', p + 3, q + 1⟩
    else if "lt;".toList.isPrefixOf (stringAt s.mem p) then .inr ⟨s.mem.set q '<', p + 3, q + 1⟩
    else if "quot;".toList.isPrefixOf (stringAt s.mem p) then .inr ⟨s.mem.set q '"', p + 5, q + 1⟩
    else if "amp;".toList.isPrefixOf (stringAt s.mem p) then .inr ⟨s.mem.set q '&', p + 4, q + 1⟩
    else if charAt s.mem p = '#' then
      let p := p + 1
      let mem := s.mem.set q (byteOf (Cidr.atoi (stringAt s.mem p)))
      .inr ⟨mem, p + ((stringAt mem p).takeWhile (· ≠ ';')).length, q + 1⟩
    else .inr ⟨s.mem, p, q⟩
  else .inr ⟨s.mem.set q (charAt s.mem p), p + 1, q + 1⟩

/-- `xmlrpc_decode_string`: the memory it leaves. The loop is through before the limit. -/
def xmlrpcDecodeString (mem : Memory) (buf : Nat) : Memory :=
  (run decodeStep (mem.length + 1) ⟨mem, buf, buf⟩).getD mem

/-! ### Splitting -/

/-- `data` and `argv` of `xmlrpc_split_buf`. -/
structure Split where
  mem : Memory
  data : Nat
  argv : List Nat

def splitStep (s : Split) : (Memory × List Nat) ⊕ Split :=
  match strstr s.mem s.data "<value>".toList with
  | none => .inl (s.mem, s.argv)
  | some data =>
    match strchr s.mem (data + 7) '<' with
    | none => .inl (s.mem, s.argv)
    | some lt =>
      let nexttag := lt + 1
      match strchr s.mem nexttag '>' with
      | none => .inl (s.mem, s.argv)
      | some p =>
        let mem := s.mem.set p nul
        let isString := strcaseEq "string".toList (stringAt mem nexttag)
        let str := p + 1
        match strchr mem str '<' with
        | none => .inl (mem, s.argv)
        | some p =>
          let mem := mem.set p nul
          let mem := if isString then xmlrpcDecodeString mem str else mem
          .inr ⟨mem, p + 1, s.argv ++ [str]⟩

/-- `xmlrpc_split_buf`: the strings that `argv` points to when it is through. -/
def xmlrpcSplitBuf (buffer : CString) : List CString :=
  let mem := buffer ++ [nul]
  match run splitStep (mem.length + 1) ⟨mem, 0, []⟩ with
  | none => []
  | some (mem, argv) => argv.map (stringAt mem)

def wrapped (s : CString) : CString :=
  "<value><string>".toList ++ s ++ "</string></value>".toList

end ChatServices.Xmlrpc
