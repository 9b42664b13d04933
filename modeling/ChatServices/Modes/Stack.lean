import ChatServices.Modes.Effects

/-! The mode stack of `libathemecore/cmode.c`: mode changes of one source on one channel are
gathered into one MODE line, which is sent when it is full, when another source or channel comes
up, and from a timer. -/
namespace ChatServices.Modes
open ChatServices.Lib.Mask ChatServices.Text ChatServices.ChanServ ChatServices.ChanServ.Channels
  ChatServices.Storage

def maxModes : Nat := 4
def userlen : Nat := 12
def hostlen : Nat := 64

/-- `struct modestackdata`; a pointer to a channel is a `κ`. -/
structure Modestackdata (κ : Type*) where
  source : CString
  channel : Option κ
  modesOn : Flags
  modesOff : Flags
  limit : BitVec 32
  extmodes : Nat → CString
  limitused : Bool
  extmodesused : Nat → Bool
  pmodes : CString
  /-- Includes the leading space, as `totalparamslen` does. -/
  params : CString
  totalparamslen : Nat
  totallen : Nat
  paramcount : Nat

inductive Sent (κ : Type*) where
  /-- `mode_sts` -/
  | mode (source : CString) (channel : Option κ) (text : CString)
  | overflow (text : CString)
  deriving DecidableEq

/-- The buffer that `modestack_flush` fills, up to `p`, and the direction its letters have. -/
structure Buf where
  text : CString
  dir : Option Bool

def signOf (add : Bool) : Char := if add then '+' else '-'

def Buf.turn (add : Bool) (b : Buf) : Buf :=
  if b.dir ≠ some add then ⟨b.text ++ [signOf add], some add⟩ else b

def Buf.letter (c : Char) (b : Buf) : Buf := { b with text := b.text ++ [c] }

/-- `mowgli_strlcpy` or `snprintf` to `p`, with the end of 512 bytes in sight. -/
def Buf.put (s : CString) (b : Buf) : Buf := { b with text := b.text ++ s.take (511 - b.text.length) }

section model
variable {κ : Type*} (t : Tables) (cm : CaseMapping) (name : κ → CString)

def flagsToString (flags : Flags) : CString := (t.modeList.filter fun m => test flags m.2).map Prod.fst

/-- `ignore_mode_list_size`, which counts the entry that ends the list. -/
def ignoreModeListSize : Nat := t.ignoreModeList.length + 1

def extLetter (i : Nat) : Char := t.ignoreModeList[i]?.getD nul

def calclen (md : Modestackdata κ) : Modestackdata κ :=
  let used := (List.range (ignoreModeListSize t)).filter md.extmodesused
  let totalparamslen := (if md.limitused ∧ md.limit ≠ 0 then 11 else 0) +
    (used.map fun i => if md.extmodes i = [] then 0 else 1 + (md.extmodes i).length).sum + md.params.length
  { md with
    totalparamslen := totalparamslen
    totallen := md.source.length + userlen + hostlen + 1 + 4 + 1 + 10 +
      ((md.channel.map name).getD []).length + 1 + (2 + 32 + md.pmodes.length) + totalparamslen
    paramcount := md.limitused.toNat + used.length + md.params.count ' ' }

def clear (md : Modestackdata κ) : Modestackdata κ :=
  { md with
    modesOn := 0#32, modesOff := 0#32, limitused := false
    extmodesused := fun i => if i < ignoreModeListSize t then false else md.extmodesused i
    extmodes := fun i => if i < ignoreModeListSize t then [] else md.extmodes i
    pmodes := [], params := [], totallen := 0, totalparamslen := 0, paramcount := 0 }

def flushLetters (add : Bool) (flags : Flags) (md : Modestackdata κ) (b : Buf) : Buf :=
  let b := if flags ≠ 0#32 then (b.turn add).put (flagsToString t flags) else b
  let b := if md.limitused ∧ (md.limit ≠ 0 ↔ add = true) then (b.turn add).letter 'l' else b
  (List.range (ignoreModeListSize t)).foldl (fun b i =>
    if md.extmodesused i ∧ (md.extmodes i ≠ [] ↔ add = true) then (b.turn add).letter (extLetter t i)
    else b) b

/-- The sign that `pmodes` starts with may be that of the letters before. -/
def flushPmodes (md : Modestackdata κ) (b : Buf) : Buf :=
  b.put (md.pmodes.drop (if (b.dir = some true ∧ md.pmodes.head? = some '+') ∨
    (b.dir = some false ∧ md.pmodes.head? = some '-') then 1 else 0))

def flushParams (md : Modestackdata κ) (b : Buf) : Buf :=
  let b := if md.limitused ∧ md.limit ≠ 0 then b.put (' ' :: natArg md.limit.toNat) else b
  let b := (List.range (ignoreModeListSize t)).foldl (fun b i =>
    if md.extmodesused i ∧ md.extmodes i ≠ [] then b.put (' ' :: md.extmodes i) else b) b
  if md.params ≠ [] then b.put md.params else b

def flush (md : Modestackdata κ) : Modestackdata κ × List (Sent κ) :=
  let b := flushLetters t true md.modesOn md (flushLetters t false md.modesOff md ⟨[], none⟩)
  let b := flushPmodes md b
  if b.text = [] then (md, [])
  else if b.text.length + md.totalparamslen ≥ 512 then (clear t md, [.overflow b.text])
  else (clear t md, [.mode md.source md.channel (flushParams t md b).text])

def flushIf (c : Bool) (md : Modestackdata κ) : Modestackdata κ × List (Sent κ) :=
  if c then flush t md else (md, [])

def init [DecidableEq κ] (source : CString) (channel : κ) (md : Modestackdata κ) :
    Modestackdata κ × List (Sent κ) :=
  let (md, out) := flushIf t (!irccaseEq cm source md.source || md.channel ≠ some channel) md
  ({ md with source := truncate hostlen source, channel := some channel }, out)

def addSimple (add : Bool) (flags : Flags) (md : Modestackdata κ) : Modestackdata κ :=
  if add then { md with modesOn := md.modesOn ||| flags, modesOff := md.modesOff &&& ~~~flags }
  else { md with modesOff := md.modesOff ||| flags, modesOn := md.modesOn &&& ~~~flags }

def addLimit (add : Bool) (limit : BitVec 32) (md : Modestackdata κ) : Modestackdata κ × List (Sent κ) :=
  let md := calclen t name { md with limitused := false }
  let (md, out) := flushIf t (md.paramcount ≥ maxModes) md
  let (md, out') := flushIf t (add && md.totallen + 11 > 512) md
  ({ md with limit := if add then limit else 0, limitused := true }, out ++ out')

def addExt (add : Bool) (i : Nat) (value : CString) (md : Modestackdata κ) :
    Modestackdata κ × List (Sent κ) :=
  let md := calclen t name { md with extmodesused := Function.update md.extmodesused i false }
  let (md, out) := flushIf t (md.paramcount ≥ maxModes) md
  let (md, out') := flushIf t (add && md.totallen + 1 + value.length > 512) md
  ({ md with
    extmodes := Function.update md.extmodes i (if add then truncate 512 value else [])
    extmodesused := Function.update md.extmodesused i true }, out ++ out')

/-- The direction at the end of `pmodes`. -/
def dirAfter : Option Bool → CString → Option Bool
  | dir, [] => dir
  | dir, c :: s => dirAfter (if c = '+' then some true else if c = '-' then some false else dir) s

def strlcat (size : Nat) (s s' : CString) : CString := s ++ s'.take (size - 1 - s.length)

/-- Whether one more mode goes to the next line, as `n`, the length and a second key say. -/
def paramFull (add : Bool) (type : Char) (value : CString) (md : Modestackdata κ) : Bool :=
  (md.pmodes.countP fun c => c ≠ '+' ∧ c ≠ '-') + md.limitused.toNat +
      ((List.range (ignoreModeListSize t)).filter md.extmodesused).length ≥ maxModes ∨
    md.totallen + (decide (dirAfter none md.pmodes ≠ some add)).toNat + 2 + value.length > 512 ∨
    (type = 'k' ∧ 'k' ∈ md.pmodes)

def addParam (add : Bool) (type : Char) (value : CString) (md : Modestackdata κ) :
    Modestackdata κ × List (Sent κ) :=
  let md := calclen t name md
  let full := paramFull t add type value md
  let dir := if full then none else dirAfter none md.pmodes
  let (md, out) := flushIf t full md
  ({ md with
    pmodes := strlcat (2 * maxModes + 2) md.pmodes (if dir ≠ some add then [signOf add, type] else [type])
    params := strlcat 512 (strlcat 512 md.params [' ']) value }, out)

inductive Call (κ : Type*) where
  /-- `modestack_mode_simple` -/
  | simple (source : CString) (channel : κ) (add : Bool) (flags : Flags)
  /-- `modestack_mode_limit` -/
  | limit (source : CString) (channel : κ) (add : Bool) (limit : BitVec 32)
  /-- `modestack_mode_ext` -/
  | ext (source : CString) (channel : κ) (add : Bool) (i : Nat) (value : CString)
  /-- `modestack_mode_param` -/
  | param (source : CString) (channel : κ) (add : Bool) (type : Char) (value : CString)
  /-- `modestack_flush_channel`; the timer and `modestack_flush_now` name no channel -/
  | flush (channel : Option κ)
  deriving DecidableEq

variable [DecidableEq κ]

def stackStep (md : Modestackdata κ) : Call κ → Modestackdata κ × List (Sent κ)
  | .simple source channel add flags =>
    if flags = 0#32 then (md, [])
    else
      let (md, out) := init t cm source channel md
      (addSimple add flags md, out)
  | .limit source channel add limit =>
    let (md, out) := init t cm source channel md
    let (md, out') := addLimit t name add limit md
    (md, out ++ out')
  | .ext source channel add i value =>
    let (md, out) := init t cm source channel md
    if i ≥ ignoreModeListSize t then (md, out)
    else
      let (md, out') := addExt t name add i value md
      (md, out ++ out')
  | .param source channel add type value =>
    let (md, out) := init t cm source channel md
    let (md, out') := addParam t name add type value md
    (md, out ++ out')
  | .flush channel => flushIf t (channel = none ∨ channel = md.channel) md

end model

def emptyStack {κ : Type*} : Modestackdata κ :=
  ⟨[], none, 0#32, 0#32, 0#32, fun _ => [], false, fun _ => false, [], [], 0, 0, 0⟩

end ChatServices.Modes
