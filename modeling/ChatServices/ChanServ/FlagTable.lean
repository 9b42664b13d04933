import ChatServices.Accounts

/-! The channel access flags: their table, the masks derived from it and the parsers
from flag strings to bit masks. -/
namespace ChatServices.ChanServ
open ChatServices.Lib.Mask ChatServices.Text

def caVoice : Flags := 0x1#32
def caAutovoice : Flags := 0x2#32
def caOp : Flags := 0x4#32
def caAutoop : Flags := 0x8#32
def caTopic : Flags := 0x10#32
def caSet : Flags := 0x20#32
def caRemove : Flags := 0x40#32
def caInvite : Flags := 0x80#32
def caRecover : Flags := 0x100#32
def caFlags : Flags := 0x200#32
def caHalfop : Flags := 0x400#32
def caAutohalfop : Flags := 0x800#32
def caAclview : Flags := 0x1000#32
def caFounder : Flags := 0x2000#32
def caUseprotect : Flags := 0x4000#32
def caUseowner : Flags := 0x8000#32
def caExempt : Flags := 0x10000#32
def caAkick : Flags := 0x80000000#32

def caHighprivs : Flags := caSet ||| caRecover ||| caFlags

def caAllprivs : Flags :=
  caVoice ||| caAutovoice ||| caOp ||| caAutoop ||| caTopic ||| caSet ||| caRemove ||| caInvite |||
    caRecover ||| caFlags ||| caHalfop ||| caAutohalfop ||| caAclview ||| caFounder |||
    caUseprotect ||| caUseowner ||| caExempt

/-- A used slot of `chanacs_flags`. `enable` is the source's `def`. -/
structure FlagRow where
  ch : Char
  value : Flags
  enable : Bool
  name : CString
  deriving DecidableEq

/-- `chanacs_flags` as compiled in, in the order of the characters. -/
def chanacsFlags : List FlagRow :=
  [⟨'A', caAclview, true, "acl-view".toList⟩,
   ⟨'F', caFounder, false, "founder".toList⟩,
   ⟨'H', caAutohalfop, true, "autohalfop".toList⟩,
   ⟨'O', caAutoop, true, "autoop".toList⟩,
   ⟨'R', caRecover, true, "recover".toList⟩,
   ⟨'V', caAutovoice, true, "autovoice".toList⟩,
   ⟨'a', caUseprotect, true, "protect".toList⟩,
   ⟨'b', caAkick, false, "banned".toList⟩,
   ⟨'e', caExempt, true, "exempt".toList⟩,
   ⟨'f', caFlags, true, "acl-change".toList⟩,
   ⟨'h', caHalfop, true, "halfop".toList⟩,
   ⟨'i', caInvite, true, "invite".toList⟩,
   ⟨'o', caOp, true, "op".toList⟩,
   ⟨'q', caUseowner, true, "owner".toList⟩,
   ⟨'r', caRemove, true, "remove".toList⟩,
   ⟨'s', caSet, true, "set".toList⟩,
   ⟨'t', caTopic, true, "topic".toList⟩,
   ⟨'v', caVoice, true, "voice".toList⟩]

structure FlagConfig where
  successorAcl : Bool
  usesHalfops : Bool
  usesProtect : Bool
  usesOwner : Bool
  deriving DecidableEq

def tableOr (rows : List FlagRow) : Flags := rows.foldr (fun r m => r.value ||| m) 0#32

def flagsFindSlot (rows : List FlagRow) : Flags :=
  match (List.range 32).find? (fun i => !(tableOr rows).getLsbD i) with
  | some i => BitVec.twoPow 32 i
  | none => 0#32

/-- `flags_associate`: the table with the new flag, and its value, 0 when taken. -/
def flagsAssociate (rows : List FlagRow) (flag : Char) (enable : Bool) (name : CString) :
    List FlagRow × Flags :=
  if rows.any (fun r => r.ch = flag && r.value ≠ 0#32 && r.value ≠ 0xFFFFFFFF#32) then (rows, 0#32)
  else
    let value := flagsFindSlot rows
    (rows.filter (fun r => r.ch < flag) ++ ⟨flag, value, enable, name⟩ ::
      rows.filter (fun r => flag < r.ch), value)

def successorAssociated : List FlagRow × Flags :=
  flagsAssociate chanacsFlags 'S' false "successor".toList

namespace FlagConfig
variable (fc : FlagConfig)

def table : List FlagRow := if fc.successorAcl then successorAssociated.1 else chanacsFlags

def successorFlag : Option Flags := if fc.successorAcl then some successorAssociated.2 else none

/-- `ca_all`, as `update_chanacs_flags` leaves it. -/
def caAll : Flags :=
  tableOr fc.table &&&
    ~~~(if fc.usesHalfops then 0#32 else caHalfop ||| caAutohalfop) &&&
    ~~~(if fc.usesProtect then 0#32 else caUseprotect) &&&
    ~~~(if fc.usesOwner then 0#32 else caUseowner)

def caAllEnable : Flags := tableOr (fc.table.filter (·.enable))

def value (c : Char) : Flags := ((fc.table.find? (·.ch = c)).map FlagRow.value).getD 0#32

def xflagLookup (name : CString) : Flags :=
  ((fc.table.find? (fun r => strcaseEq r.name name)).map FlagRow.value).getD 0#32

end FlagConfig

inductive Status where
  | add | del
  deriving DecidableEq

structure Change where
  add : Flags
  rem : Flags
  deriving DecidableEq

def Change.apply (c : Change) (status : Status) (flag : Flags) : Change :=
  match status with
  | .add => ⟨c.add ||| flag, c.rem &&& ~~~flag⟩
  | .del => ⟨c.add &&& ~~~flag, c.rem ||| flag⟩

def Change.mask (c : Change) (m : Flags) : Change := ⟨c.add &&& m, c.rem &&& m⟩

/-- The loop of `flags_make_bitmasks`. A flag may be named by a whole word as long as
no single character has been taken for one. -/
def makeBitmasksFrom (fc : FlagConfig) : Bool → Status → Change → CString → Change
  | _, _, c, [] => c.mask fc.caAll
  | shortflag, status, c, ch :: string =>
    if ch = '+' then makeBitmasksFrom fc shortflag .add c string
    else if ch = '-' then makeBitmasksFrom fc shortflag .del c string
    else if ch = '=' then makeBitmasksFrom fc shortflag .add ⟨0#32, 0xFFFFFFFF#32⟩ string
    else if ch = '*' then
      match status with
      | .add =>
        makeBitmasksFrom fc shortflag status ⟨c.add ||| fc.caAllEnable, c.rem ||| caAkick⟩ string
      | .del => makeBitmasksFrom fc shortflag status ⟨0#32, 0xFFFFFFFF#32⟩ string
    else if !shortflag ∧ fc.xflagLookup (ch :: string) ≠ 0#32 then
      (c.apply status (fc.xflagLookup (ch :: string))).mask fc.caAll
    else makeBitmasksFrom fc true status (c.apply status (fc.value ch)) string

def flagsMakeBitmasks (fc : FlagConfig) (string : CString) : Change :=
  makeBitmasksFrom fc false .add ⟨0#32, 0#32⟩ string

def toBitmaskFrom (fc : FlagConfig) : Status → Flags → CString → Flags
  | _, bitmask, [] => bitmask &&& fc.caAll
  | status, bitmask, ch :: string =>
    if ch = '+' then toBitmaskFrom fc .add bitmask string
    else if ch = '-' then toBitmaskFrom fc .del bitmask string
    else if ch = '=' then toBitmaskFrom fc .add 0#32 string
    else if ch = '*' then
      match status with
      | .add => toBitmaskFrom fc status (bitmask ||| (caAllprivs &&& fc.caAllEnable &&& ~~~caFounder)) string
      | .del => toBitmaskFrom fc status 0#32 string
    else
      match status with
      | .add => toBitmaskFrom fc status (bitmask ||| fc.value ch) string
      | .del => toBitmaskFrom fc status (bitmask &&& ~~~fc.value ch) string

def flagsToBitmask (fc : FlagConfig) (string : CString) (flags : Flags) : Flags :=
  toBitmaskFrom fc .add flags string

def flagChars (fc : FlagConfig) (flags : Flags) : CString :=
  (fc.table.filter (fun r => test r.value flags)).map FlagRow.ch

def bitmaskToFlags (fc : FlagConfig) (flags : Flags) : CString := '+' :: flagChars fc flags

def bitmaskToFlags2 (fc : FlagConfig) (addflags removeflags : Flags) : CString :=
  (if removeflags = 0#32 then [] else '-' :: flagChars fc removeflags) ++
    (if addflags = 0#32 then [] else '+' :: flagChars fc addflags)

def xflagApply (fc : FlagConfig) (flags : Flags) : CString → Flags
  | '+' :: name => flags ||| fc.xflagLookup name
  | '-' :: name => flags &&& ~~~fc.xflagLookup name
  | name => flags ||| fc.xflagLookup name

/-- `xflag_tostr`, in its buffer of `BUFSIZE` bytes. -/
def xflagTostr (fc : FlagConfig) (flags : Flags) : CString :=
  truncate 1024 (", ".toList.intercalate
    ((fc.table.filter (fun r => test flags r.value)).map FlagRow.name))

/-! ### The masks -/

section bits
variable (i : Nat)

@[simp] theorem has_caVoice : Has caVoice i ↔ i = 0 := by
  rw [show caVoice = BitVec.twoPow 32 0 from rfl, has_twoPow]; omega
@[simp] theorem has_caAutovoice : Has caAutovoice i ↔ i = 1 := by
  rw [show caAutovoice = BitVec.twoPow 32 1 from rfl, has_twoPow]; omega
@[simp] theorem has_caOp : Has caOp i ↔ i = 2 := by
  rw [show caOp = BitVec.twoPow 32 2 from rfl, has_twoPow]; omega
@[simp] theorem has_caAutoop : Has caAutoop i ↔ i = 3 := by
  rw [show caAutoop = BitVec.twoPow 32 3 from rfl, has_twoPow]; omega
@[simp] theorem has_caFlags : Has caFlags i ↔ i = 9 := by
  rw [show caFlags = BitVec.twoPow 32 9 from rfl, has_twoPow]; omega
@[simp] theorem has_caHalfop : Has caHalfop i ↔ i = 10 := by
  rw [show caHalfop = BitVec.twoPow 32 10 from rfl, has_twoPow]; omega
@[simp] theorem has_caAutohalfop : Has caAutohalfop i ↔ i = 11 := by
  rw [show caAutohalfop = BitVec.twoPow 32 11 from rfl, has_twoPow]; omega
@[simp] theorem has_caFounder : Has caFounder i ↔ i = 13 := by
  rw [show caFounder = BitVec.twoPow 32 13 from rfl, has_twoPow]; omega
@[simp] theorem has_caAkick : Has caAkick i ↔ i = 31 := by
  rw [show caAkick = BitVec.twoPow 32 31 from rfl, has_twoPow]; omega

end bits

theorem test_caFounder (f : Flags) : test f caFounder = true ↔ Has f 13 :=
  test_bit has_caFounder f

theorem test_caFounder_eq_false (f : Flags) : test f caFounder = false ↔ ¬ Has f 13 := by
  rw [← Bool.not_eq_true, test_caFounder]

theorem test_caAkick (f : Flags) : test f caAkick = true ↔ Has f 31 :=
  test_bit has_caAkick f

theorem caAll_basic (fc : FlagConfig) :
    Sub (caVoice ||| caAutovoice ||| caOp ||| caAutoop ||| caRemove ||| caFlags ||| caFounder |||
      caAkick) fc.caAll ∧ (Has fc.caAll 10 ↔ Has fc.caAll 11) := by
  obtain ⟨a, b, c, d⟩ := fc
  cases a <;> cases b <;> cases c <;> cases d <;> decide

theorem caAll_founder (fc : FlagConfig) : Has fc.caAll 13 := by
  refine (caAll_basic fc).1.has ?_
  decide

theorem Change.mask_sub (c : Change) (m : Flags) : Sub (c.mask m).add m ∧ Sub (c.mask m).rem m :=
  ⟨and_sub_right _ _, and_sub_right _ _⟩

theorem flagsMakeBitmasks_sub (fc : FlagConfig) (string : CString) :
    Sub (flagsMakeBitmasks fc string).add fc.caAll ∧
      Sub (flagsMakeBitmasks fc string).rem fc.caAll := by
  suffices h : ∀ shortflag status c,
      Sub (makeBitmasksFrom fc shortflag status c string).add fc.caAll ∧
        Sub (makeBitmasksFrom fc shortflag status c string).rem fc.caAll from h _ _ _
  induction string with
  | nil => exact fun _ _ c => c.mask_sub _
  | cons ch string ih =>
    intro shortflag status c
    simp only [makeBitmasksFrom]
    split_ifs
    · exact ih ..
    · exact ih ..
    · exact ih ..
    · cases status <;> exact ih ..
    · exact Change.mask_sub _ _
    · exact ih ..

theorem flagsToBitmask_sub (fc : FlagConfig) (string : CString) (flags : Flags) :
    Sub (flagsToBitmask fc string flags) fc.caAll := by
  suffices h : ∀ status m, Sub (toBitmaskFrom fc status m string) fc.caAll from h _ _
  induction string with
  | nil => exact fun _ m => and_sub_right _ _
  | cons ch string ih =>
    intro status m
    simp only [toBitmaskFrom]
    split_ifs
    · exact ih ..
    · exact ih ..
    · exact ih ..
    · cases status <;> exact ih ..
    · cases status <;> exact ih ..

theorem bitmaskToFlags2_eq_nil (fc : FlagConfig) (addflags removeflags : Flags) :
    bitmaskToFlags2 fc addflags removeflags = [] ↔ addflags ||| removeflags = 0#32 := by
  have h : addflags ||| removeflags = 0#32 ↔ addflags = 0#32 ∧ removeflags = 0#32 := by
    simp only [eq_zero_iff, has_or, not_or, forall_and]
  rw [h]
  by_cases ha : addflags = 0#32 <;> by_cases hr : removeflags = 0#32 <;>
    simp [bitmaskToFlags2, ha, hr]

example : flagsMakeBitmasks ⟨false, true, true, true⟩ "+o-v".toList = ⟨caOp, caVoice⟩ := by decide

end ChatServices.ChanServ
