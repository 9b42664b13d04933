import ChatServices.ChanServ.FlagSlots

/-! The two masks that `flags_make_bitmasks` makes. A string is read as a list of operations
on the pair, and each flag is decided by the last of them that speaks of it and by a `+*`
after that one, which adds to both masks and takes from neither. -/
namespace ChatServices.ChanServ
open ChatServices.Lib.Mask ChatServices.Text

/-- One turn of the loop. `clear` is `=`, or `*` while removing; `all` is `*` while adding. -/
inductive FlagOp where
  | set (status : Status) (flag : Flags)
  | all
  | clear
  deriving DecidableEq

/-- What an operation says about a flag. `all` says nothing: it leaves what was said. -/
def FlagOp.status (i : Nat) : FlagOp → Option Status
  | .set status flag => if Has flag i then some status else none
  | .all => none
  | .clear => some .del

def lastSaid (ops : List FlagOp) (i : Nat) : Option Status :=
  ops.reverse.findSome? (FlagOp.status i)

/-- A `+*` comes after the last operation that speaks of the flag. -/
def Starred (ops : List FlagOp) (i : Nat) : Prop :=
  FlagOp.all ∈ ops.reverse.takeWhile (fun op => (op.status i).isNone)

namespace FlagState

def execFlagOp (st : FlagState) (c : Change) : FlagOp → Change
  | .set status flag => c.apply status flag
  | .all => ⟨c.add ||| st.caAllEnable, c.rem ||| caAkick⟩
  | .clear => ⟨0#32, 0xFFFFFFFF#32⟩

def flagOpsFrom (st : FlagState) : Bool → Status → CString → List FlagOp
  | _, _, [] => []
  | shortflag, status, ch :: string =>
    if ch = '+' then flagOpsFrom st shortflag .add string
    else if ch = '-' then flagOpsFrom st shortflag .del string
    else if ch = '=' then .clear :: flagOpsFrom st shortflag .add string
    else if ch = '*' then
      match status with
      | .add => .all :: flagOpsFrom st shortflag status string
      | .del => .clear :: flagOpsFrom st shortflag status string
    else if !shortflag ∧ st.xflagLookup (ch :: string) ≠ 0#32 then
      [.set status (st.xflagLookup (ch :: string))]
    else .set status (st.value (slotOf ch)) :: flagOpsFrom st true status string

def flagOps (st : FlagState) (string : CString) : List FlagOp := st.flagOpsFrom false .add string

variable (st : FlagState)

theorem makeBitmasksFrom_eq_ops (string : CString) (shortflag : Bool) (status : Status)
    (c : Change) : st.makeBitmasksFrom shortflag status c string =
      ((st.flagOpsFrom shortflag status string).foldl st.execFlagOp c).mask st.caAll := by
  induction string generalizing shortflag status c with
  | nil => rfl
  | cons ch string ih =>
    unfold makeBitmasksFrom flagOpsFrom
    split_ifs with hadd hdel heq hstar hname
    · exact ih ..
    · exact ih ..
    · exact ih ..
    · cases status with
      | add => exact ih ..
      | del => exact ih ..
    · rfl
    · exact ih ..

theorem flagsMakeBitmasks_eq_ops (string : CString) : st.flagsMakeBitmasks string =
    ((st.flagOps string).foldl st.execFlagOp ⟨0#32, 0#32⟩).mask st.caAll :=
  st.makeBitmasksFrom_eq_ops string false .add ⟨0#32, 0#32⟩

/-! ### One flag through the operations -/

theorem execFlagOp_add (c : Change) (op : FlagOp) (i : Nat) : Has (st.execFlagOp c op).add i ↔
    op.status i = some .add ∨
      op.status i = none ∧ (Has c.add i ∨ op = .all ∧ Has st.caAllEnable i) := by
  cases op with
  | all => simp [execFlagOp, FlagOp.status]
  | clear => simp [execFlagOp, FlagOp.status]
  | set status flag =>
    by_cases hflag : Has flag i
    · cases status <;> simp [execFlagOp, Change.apply, FlagOp.status, hflag]
    · have hlt : Has c.add i → i < 32 := Has.lt
      cases status <;> simp [execFlagOp, Change.apply, FlagOp.status, hflag]
      exact hlt

theorem execFlagOp_rem (c : Change) (op : FlagOp) {i : Nat} (hi : i < 32) :
    Has (st.execFlagOp c op).rem i ↔ op.status i = some .del ∨
      op.status i = none ∧ (Has c.rem i ∨ op = .all ∧ Has caAkick i) := by
  cases op with
  | all => simp [execFlagOp, FlagOp.status]
  | clear =>
    have hfull : Has (0xFFFFFFFF#32) i := (has_orphanedFlag i).mpr hi
    simp [execFlagOp, FlagOp.status, hfull]
  | set status flag =>
    by_cases hflag : Has flag i
    · cases status <;> simp [execFlagOp, Change.apply, FlagOp.status, hflag]
    · cases status <;> simp [execFlagOp, Change.apply, FlagOp.status, hflag, hi]

end FlagState

theorem lastSaid_append (ops : List FlagOp) (op : FlagOp) (i : Nat) :
    lastSaid (ops ++ [op]) i = (op.status i).or (lastSaid ops i) := by
  rw [lastSaid, List.reverse_append, List.reverse_singleton, List.singleton_append,
    List.findSome?_cons]
  cases op.status i with
  | none => rfl
  | some status => rfl

theorem starred_append (ops : List FlagOp) (op : FlagOp) (i : Nat) :
    Starred (ops ++ [op]) i ↔ op.status i = none ∧ (op = .all ∨ Starred ops i) := by
  rw [Starred, List.reverse_append, List.reverse_singleton, List.singleton_append,
    List.takeWhile_cons]
  cases hop : op.status i with
  | none => simp [Starred, eq_comm]
  | some status => simp

section run
variable (st : FlagState) (ops : List FlagOp)

theorem foldl_flagOps_add (i : Nat) : Has (ops.foldl st.execFlagOp ⟨0#32, 0#32⟩).add i ↔
    lastSaid ops i = some .add ∨ Starred ops i ∧ Has st.caAllEnable i := by
  induction ops using List.reverseRecOn with
  | nil => simp [lastSaid, Starred]
  | append_singleton ops op ih =>
    rw [List.foldl_append, List.foldl_cons, List.foldl_nil, st.execFlagOp_add, ih,
      lastSaid_append, starred_append]
    cases op.status i with
    | none =>
      rw [Option.none_or]
      tauto
    | some status => simp

theorem foldl_flagOps_rem {i : Nat} (hi : i < 32) :
    Has (ops.foldl st.execFlagOp ⟨0#32, 0#32⟩).rem i ↔
      lastSaid ops i = some .del ∨ Starred ops i ∧ Has caAkick i := by
  induction ops using List.reverseRecOn with
  | nil => simp [lastSaid, Starred]
  | append_singleton ops op ih =>
    rw [List.foldl_append, List.foldl_cons, List.foldl_nil, st.execFlagOp_rem _ op hi, ih,
      lastSaid_append, starred_append]
    cases op.status i with
    | none =>
      rw [Option.none_or]
      tauto
    | some status => simp

end run

/-! ### The postcondition -/

/-- A `+*` meets a flag that is in the other mask: one that was removed and that `+*` adds, or
one that was added, or is added by the same `+*`, and that `+*` removes. -/
def StarClash (st : FlagState) (ops : List FlagOp) (i : Nat) : Prop :=
  Starred ops i ∧ (lastSaid ops i = some .add ∨ Has st.caAllEnable i) ∧
    (lastSaid ops i = some .del ∨ Has caAkick i)

/-- Whatever the table, the masks are disjoint exactly if no `+*` of the string meets a flag
that is in the other mask. -/
theorem flags_make_bitmasks_disjoint_iff (st : FlagState) (string : CString) :
    (st.flagsMakeBitmasks string).add &&& (st.flagsMakeBitmasks string).rem = 0#32 ↔
      ∀ i, Has st.caAll i → ¬ StarClash st (st.flagOps string) i := by
  rw [st.flagsMakeBitmasks_eq_ops, eq_zero_iff]
  apply forall_congr'
  intro i
  rw [Change.mask, has_and, has_and, has_and]
  by_cases hall : Has st.caAll i
  · rw [foldl_flagOps_add, foldl_flagOps_rem st _ hall.lt, StarClash]
    cases lastSaid (st.flagOps string) i with
    | none => simp only [reduceCtorEq, false_or]; tauto
    | some status => cases status <;> simp [hall]
  · simp [hall]

/-- With the table as compiled in, the flag that is taken away is in both masks. -/
theorem removal_then_star :
    TableSound everyMode (runFlagCalls everyMode []) ∧
      ((runFlagCalls everyMode []).flagsMakeBitmasks "-v+*".toList).add &&&
        ((runFlagCalls everyMode []).flagsMakeBitmasks "-v+*".toList).rem ≠ 0#32 := by
  have hsound : TableSound everyMode (runFlagCalls everyMode []) :=
    (flag_table_sound_iff everyMode []).mpr fun c h => nomatch h
  exact ⟨hsound, by decide +kernel⟩

end ChatServices.ChanServ
