import ChatServices.ChanServ.FlagTable

/-! The flag table with all its slots, as modules associate and clear flags while the
program runs. A cleared slot holds all ones, which the slot search, the masks derived from
the table, the parsers and the printers take for a value. -/
namespace ChatServices.ChanServ
open ChatServices.Lib.Mask ChatServices.Text

/-- One slot of `chanacs_flags`. `enable` is the source's `def`. -/
structure FlagSlot where
  value : Flags
  restrictflags : Flags
  enable : Bool
  name : Option CString
  deriving DecidableEq

def orphanedFlag : Flags := 0xFFFFFFFF#32

structure IrcdModes where
  usesHalfops : Bool
  usesProtect : Bool
  usesOwner : Bool

/-- What `update_chanacs_flags` takes out of `ca_all` again. -/
def IrcdModes.lacks (ircd : IrcdModes) : Flags :=
  (if ircd.usesHalfops then 0#32 else caHalfop ||| caAutohalfop) |||
    (if ircd.usesProtect then 0#32 else caUseprotect) |||
    (if ircd.usesOwner then 0#32 else caUseowner)

structure FlagState where
  slots : Fin 256 → FlagSlot
  caAll : Flags
  caAllEnable : Flags

def slotOf (ch : Char) : Fin 256 := Fin.ofNat 256 ch.toNat

def charOf (c : Fin 256) : Char := Char.ofNat c.val

theorem charOf_injective {c c' : Fin 256} (h : charOf c = charOf c') : c = c' := by
  have hval : ∀ c : Fin 256, (charOf c).toNat = c.val := by
    intro c
    have hvalid : c.val.isValidChar := .inl (by omega)
    rw [charOf, Char.ofNat, dif_pos hvalid]
    rfl
  exact Fin.ext ((hval c).symm.trans (h ▸ hval c'))

def orSlots (f : Fin 256 → Flags) : Flags :=
  (List.finRange 256).foldr (fun c m => f c ||| m) 0#32

def updateChanacsFlags (ircd : IrcdModes) (slots : Fin 256 → FlagSlot) : FlagState where
  slots := slots
  caAll := orSlots (fun c => (slots c).value) &&& ~~~ircd.lacks
  caAllEnable := orSlots (fun c => if (slots c).enable then (slots c).value else 0#32)

/-- `chanacs_flags` as compiled in. -/
def staticSlots (c : Fin 256) : FlagSlot :=
  match chanacsFlags.find? (fun r => r.ch.toNat = c.val) with
  | some r => ⟨r.value, 0#32, r.enable, some r.name⟩
  | none => ⟨0#32, 0#32, false, none⟩

def findSlot (slots : Fin 256 → FlagSlot) : Flags :=
  let allFlags := orSlots (fun c => (slots c).value)
  match (List.range 32).find? (fun i => !allFlags.getLsbD i) with
  | some i => BitVec.twoPow 32 i
  | none => 0#32

namespace FlagState

def value (st : FlagState) (c : Fin 256) : Flags := (st.slots c).value

/-- `flags_associate`: the new table, and the value of the flag, 0 when it is taken. -/
def associate (ircd : IrcdModes) (st : FlagState) (flag : Fin 256) (restrictflags : Flags)
    (enable : Bool) (name : CString) : FlagState × Flags :=
  if st.value flag ≠ 0#32 ∧ st.value flag ≠ orphanedFlag then (st, 0#32)
  else
    let value := findSlot st.slots
    (updateChanacsFlags ircd
      (Function.update st.slots flag ⟨value, restrictflags, enable, some name⟩), value)

/-- `flags_clear`, which leaves `ca_all` alone. -/
def clear (st : FlagState) (flag : Fin 256) : FlagState :=
  { st with slots := Function.update st.slots flag ⟨orphanedFlag, 0#32, false, none⟩ }

def xflagLookup (st : FlagState) (name : CString) : Flags :=
  (((List.finRange 256).find? fun c => (st.slots c).name.any (strcaseEq · name)).map
    st.value).getD 0#32

def makeBitmasksFrom (st : FlagState) : Bool → Status → Change → CString → Change
  | _, _, c, [] => c.mask st.caAll
  | shortflag, status, c, ch :: string =>
    if ch = '+' then makeBitmasksFrom st shortflag .add c string
    else if ch = '-' then makeBitmasksFrom st shortflag .del c string
    else if ch = '=' then makeBitmasksFrom st shortflag .add ⟨0#32, 0xFFFFFFFF#32⟩ string
    else if ch = '*' then
      match status with
      | .add => makeBitmasksFrom st shortflag status ⟨c.add ||| st.caAllEnable, c.rem ||| caAkick⟩ string
      | .del => makeBitmasksFrom st shortflag status ⟨0#32, 0xFFFFFFFF#32⟩ string
    else if !shortflag ∧ st.xflagLookup (ch :: string) ≠ 0#32 then
      (c.apply status (st.xflagLookup (ch :: string))).mask st.caAll
    else makeBitmasksFrom st true status (c.apply status (st.value (slotOf ch))) string

def flagsMakeBitmasks (st : FlagState) (string : CString) : Change :=
  makeBitmasksFrom st false .add ⟨0#32, 0#32⟩ string

def toBitmaskFrom (st : FlagState) : Status → Flags → CString → Flags
  | _, bitmask, [] => bitmask &&& st.caAll
  | status, bitmask, ch :: string =>
    if ch = '+' then toBitmaskFrom st .add bitmask string
    else if ch = '-' then toBitmaskFrom st .del bitmask string
    else if ch = '=' then toBitmaskFrom st .add 0#32 string
    else if ch = '*' then
      match status with
      | .add => toBitmaskFrom st status (bitmask ||| (caAllprivs &&& st.caAllEnable &&& ~~~caFounder)) string
      | .del => toBitmaskFrom st status 0#32 string
    else
      match status with
      | .add => toBitmaskFrom st status (bitmask ||| st.value (slotOf ch)) string
      | .del => toBitmaskFrom st status (bitmask &&& ~~~st.value (slotOf ch)) string

def flagsToBitmask (st : FlagState) (string : CString) (flags : Flags) : Flags :=
  toBitmaskFrom st .add flags string

/-- The characters that `bitmask_to_flags` prints for a mask. -/
def flagChars (st : FlagState) (flags : Flags) : CString :=
  ((List.finRange 256).filter (fun c => test (st.value c) flags)).map charOf

def bitmaskToFlags (st : FlagState) (flags : Flags) : CString := '+' :: st.flagChars flags

end FlagState

inductive FlagCall where
  | associate (flag : Fin 256) (restrictflags : Flags) (enable : Bool) (name : CString)
  | clear (flag : Fin 256)
  deriving DecidableEq

def FlagCall.flag : FlagCall → Fin 256
  | .associate flag _ _ _ => flag
  | .clear flag => flag

def FlagCall.exec (ircd : IrcdModes) (st : FlagState) : FlagCall → FlagState
  | .associate flag restrictflags enable name => (st.associate ircd flag restrictflags enable name).1
  | .clear flag => st.clear flag

def runFlagCalls (ircd : IrcdModes) (calls : List FlagCall) : FlagState :=
  calls.foldl (FlagCall.exec ircd) (updateChanacsFlags ircd staticSlots)

/-- A character in use: `flags_associate` refuses it. -/
def InUse (st : FlagState) (c : Fin 256) : Prop := st.value c ≠ 0#32 ∧ st.value c ≠ orphanedFlag

/-- A character that the parsers pass over and that no mask is printed with. Where no single
character has been read yet, a name may begin here. -/
structure Silent (st : FlagState) (c : Fin 256) : Prop where
  toBitmask : ∀ status bitmask string ch, slotOf ch = c → ch ∉ ['+', '-', '=', '*'] →
    st.toBitmaskFrom status bitmask (ch :: string) = st.toBitmaskFrom status bitmask string
  makeBitmasks : ∀ shortflag status change string ch, slotOf ch = c → ch ∉ ['+', '-', '=', '*'] →
    (shortflag = true ∨ st.xflagLookup (ch :: string) = 0#32) →
    st.makeBitmasksFrom shortflag status change (ch :: string) =
      st.makeBitmasksFrom true status change string
  printed : ∀ flags, charOf c ∉ st.flagChars flags

structure TableSound (ircd : IrcdModes) (st : FlagState) : Prop where
  single : ∀ c, InUse st c → ∃ k, ∀ i, Has (st.value c) i ↔ i = k
  disjoint : ∀ c c', InUse st c → InUse st c' → c ≠ c' →
    ∀ i, Has (st.value c) i → ¬ Has (st.value c') i
  all : ∀ i, Has st.caAll i ↔ (∃ c, InUse st c ∧ Has (st.value c) i) ∧ ¬ Has ircd.lacks i
  cleared : ∀ c, ¬ InUse st c → Silent st c

/-! ### The slot search -/

theorem has_orSlots (f : Fin 256 → Flags) (i : Nat) : Has (orSlots f) i ↔ ∃ c, Has (f c) i := by
  have hfold : ∀ l : List (Fin 256), Has (l.foldr (fun c m => f c ||| m) 0#32) i ↔
      ∃ c ∈ l, Has (f c) i := by
    intro l
    induction l with
    | nil => simp
    | cons c l ih => simp [ih]
  rw [orSlots, hfold]
  simp

theorem findSlot_spec (slots : Fin 256 → FlagSlot) : findSlot slots = 0#32 ∨
    ∃ k, k < 32 ∧ findSlot slots = BitVec.twoPow 32 k ∧ ∀ c, ¬ Has (slots c).value k := by
  unfold findSlot
  dsimp only
  cases hf : (List.range 32).find?
      (fun i => !(orSlots fun c => (slots c).value).getLsbD i) with
  | none => exact .inl rfl
  | some k =>
    refine .inr ⟨k, List.mem_range.mp (List.mem_of_find?_eq_some hf), rfl, fun c hc => ?_⟩
    have hfree := List.find?_some hf
    rw [Bool.not_eq_true'] at hfree
    have htaken : Has (orSlots fun c => (slots c).value) k := (has_orSlots _ k).mpr ⟨c, hc⟩
    rw [Has, hfree] at htaken
    cases htaken

theorem has_orphanedFlag (i : Nat) : Has orphanedFlag i ↔ i < 32 := by
  rw [orphanedFlag, show (0xFFFFFFFF#32) = ~~~(0#32) from rfl, has_not]
  simp

theorem twoPow_ne (k : Nat) (hk : k < 32) :
    BitVec.twoPow 32 k ≠ 0#32 ∧ BitVec.twoPow 32 k ≠ orphanedFlag := by
  have hself : Has (BitVec.twoPow 32 k) k := (has_twoPow k k).mpr ⟨hk, rfl⟩
  constructor
  · intro h0
    rw [h0] at hself
    exact has_zero k hself
  · intro hall
    have hother : Has (BitVec.twoPow 32 k) ((k + 1) % 32) := by
      rw [hall, has_orphanedFlag]
      omega
    have := ((has_twoPow k _).mp hother).2
    omega

theorem orphanedFlag_ne_zero : orphanedFlag ≠ 0#32 := by decide

/-! ### What every call keeps -/

structure TableOk (ircd : IrcdModes) (st : FlagState) : Prop where
  values : ∀ c, st.value c = 0#32 ∨ st.value c = orphanedFlag ∨
    ∃ k, k < 32 ∧ st.value c = BitVec.twoPow 32 k
  disjoint : ∀ c c', InUse st c → InUse st c' → c ≠ c' →
    ∀ i, Has (st.value c) i → ¬ Has (st.value c') i
  fresh : (∀ c, st.value c ≠ orphanedFlag) → st = updateChanacsFlags ircd st.slots

theorem staticSlots_ok (ircd : IrcdModes) : TableOk ircd (updateChanacsFlags ircd staticSlots) := by
  have hbits : ∀ r ∈ chanacsFlags, ∃ k : Fin 32, r.value = BitVec.twoPow 32 k.val := by decide
  have hapart : ∀ r ∈ chanacsFlags, ∀ r' ∈ chanacsFlags, r.ch ≠ r'.ch →
      r.value &&& r'.value = 0#32 := by decide
  have hrow : ∀ c, (updateChanacsFlags ircd staticSlots).value c = 0#32 ∨
      ∃ r ∈ chanacsFlags, r.ch.toNat = c.val ∧
        (updateChanacsFlags ircd staticSlots).value c = r.value := by
    intro c
    show (staticSlots c).value = 0#32 ∨ ∃ r ∈ chanacsFlags, r.ch.toNat = c.val ∧
      (staticSlots c).value = r.value
    rw [staticSlots]
    cases hf : chanacsFlags.find? (fun r => r.ch.toNat = c.val) with
    | none => exact .inl rfl
    | some r =>
      have hc := List.find?_some hf
      rw [decide_eq_true_eq] at hc
      exact .inr ⟨r, List.mem_of_find?_eq_some hf, hc, rfl⟩
  refine ⟨fun c => ?_, fun c c' hc hc' hne i hi hi' => ?_, fun _ => rfl⟩
  · obtain h0 | ⟨r, hr, -, hv⟩ := hrow c
    · exact .inl h0
    · obtain ⟨k, hk⟩ := hbits r hr
      exact .inr (.inr ⟨k, k.isLt, hv.trans hk⟩)
  · obtain h0 | ⟨r, hr, hrc, hv⟩ := hrow c
    · exact hc.1 h0
    obtain h0 | ⟨r', hr', hrc', hv'⟩ := hrow c'
    · exact hc'.1 h0
    have hch : r.ch ≠ r'.ch := by
      intro he
      rw [he, hrc'] at hrc
      exact hne (Fin.ext hrc.symm)
    have hboth : Has (r.value &&& r'.value) i := (has_and _ _ i).mpr ⟨hv ▸ hi, hv' ▸ hi'⟩
    rw [hapart r hr r' hr' hch] at hboth
    exact has_zero i hboth

section calls
variable {ircd : IrcdModes} {st : FlagState}

theorem value_update (slots : Fin 256 → FlagSlot) (caAll caAllEnable : Flags) (flag : Fin 256)
    (slot : FlagSlot) (c : Fin 256) :
    (FlagState.mk (Function.update slots flag slot) caAll caAllEnable).value c =
      if c = flag then slot.value else (slots c).value := by
  show (Function.update slots flag slot c).value = _
  rw [Function.update_apply]
  split_ifs <;> rfl

theorem TableOk.associate (h : TableOk ircd st) (flag : Fin 256) (restrictflags : Flags)
    (enable : Bool) (name : CString) :
    TableOk ircd (st.associate ircd flag restrictflags enable name).1 := by
  unfold FlagState.associate
  split
  · exact h
  have hslot := findSlot_spec st.slots
  generalize findSlot st.slots = value at hslot
  have hval : ∀ c, (updateChanacsFlags ircd (Function.update st.slots flag
      ⟨value, restrictflags, enable, some name⟩)).value c =
      if c = flag then value else st.value c := fun c => value_update ..
  refine ⟨fun c => ?_, fun c c' hc hc' hne i hi hi' => ?_, fun _ => rfl⟩
  · rw [hval]
    split
    · obtain h0 | ⟨k, hk, hv, -⟩ := hslot
      · exact .inl h0
      · exact .inr (.inr ⟨k, hk, hv⟩)
    · exact h.values c
  · rw [InUse, hval] at hc hc'
    rw [hval] at hi hi'
    -- a bit of the new value is in no other slot
    have hnew : ∀ c'', Has value i → ¬ Has (st.value c'') i := by
      intro c'' hi
      obtain h0 | ⟨k, -, hv, hfree⟩ := hslot
      · rw [h0] at hi
        exact absurd hi (has_zero i)
      · rw [hv] at hi
        rw [← ((has_twoPow k i).mp hi).2]
        exact hfree c''
    by_cases hcf : c = flag
    · by_cases hcf' : c' = flag
      · exact hne (hcf.trans hcf'.symm)
      · rw [if_pos hcf] at hi
        rw [if_neg hcf'] at hi'
        exact hnew c' hi hi'
    · rw [if_neg hcf] at hi hc
      by_cases hcf' : c' = flag
      · rw [if_pos hcf'] at hi'
        exact hnew c hi' hi
      · rw [if_neg hcf'] at hi' hc'
        exact h.disjoint c c' hc hc' hne i hi hi'

theorem TableOk.clear (h : TableOk ircd st) (flag : Fin 256) : TableOk ircd (st.clear flag) := by
  have hval : ∀ c, (st.clear flag).value c = if c = flag then orphanedFlag else st.value c :=
    fun c => value_update ..
  refine ⟨fun c => ?_, fun c c' hc hc' hne i hi hi' => ?_, fun hnone => ?_⟩
  · rw [hval]
    split
    · exact .inr (.inl rfl)
    · exact h.values c
  · rw [InUse, hval] at hc hc'
    rw [hval] at hi hi'
    by_cases hcf : c = flag
    · rw [if_pos hcf] at hc
      exact hc.2 rfl
    · by_cases hcf' : c' = flag
      · rw [if_pos hcf'] at hc'
        exact hc'.2 rfl
      · rw [if_neg hcf] at hi hc
        rw [if_neg hcf'] at hi' hc'
        exact h.disjoint c c' hc hc' hne i hi hi'
  · have hself := hnone flag
    rw [hval, if_pos rfl] at hself
    exact absurd rfl hself

theorem TableOk.exec (h : TableOk ircd st) (call : FlagCall) : TableOk ircd (call.exec ircd st) := by
  cases call with
  | associate flag restrictflags enable name => exact h.associate flag restrictflags enable name
  | clear flag => exact h.clear flag

theorem runFlagCalls_ok (calls : List FlagCall) : TableOk ircd (runFlagCalls ircd calls) := by
  have hrun : ∀ st, TableOk ircd st → TableOk ircd (calls.foldl (FlagCall.exec ircd) st) := by
    induction calls with
    | nil => exact fun st h => h
    | cons call calls ih => exact fun st h => ih _ (h.exec call)
  exact hrun _ (staticSlots_ok ircd)

/-! ### Orphaned slots -/

def Cleared (calls : List FlagCall) (c : Fin 256) : Prop :=
  (calls.filter (·.flag = c)).getLast? = some (.clear c)

theorem exec_orphaned (call : FlagCall) (c : Fin 256) :
    (call.exec ircd st).value c = orphanedFlag ↔
      if call.flag = c then call = .clear c else st.value c = orphanedFlag := by
  cases call with
  | clear flag =>
    have hval : (st.clear flag).value c = if c = flag then orphanedFlag else st.value c :=
      value_update ..
    rw [FlagCall.exec, hval, FlagCall.flag]
    by_cases hc : c = flag
    · subst hc
      simp
    · rw [if_neg hc, if_neg (Ne.symm hc)]
  | associate flag restrictflags enable name =>
    rw [FlagCall.exec, FlagCall.flag, FlagState.associate]
    split
    · rename_i huse
      by_cases hc : flag = c
      · subst hc
        simp [huse.2]
      · rw [if_neg hc]
    · have hval : (updateChanacsFlags ircd (Function.update st.slots flag
          ⟨findSlot st.slots, restrictflags, enable, some name⟩)).value c =
          if c = flag then findSlot st.slots else st.value c := value_update ..
      rw [hval]
      by_cases hc : c = flag
      · subst hc
        rw [if_pos rfl, if_pos rfl]
        refine iff_of_false (fun h => ?_) (fun h => nomatch h)
        obtain h0 | ⟨k, hk, hv, -⟩ := findSlot_spec st.slots
        · exact orphanedFlag_ne_zero (h.symm.trans h0)
        · exact (twoPow_ne k hk).2 (hv.symm.trans h)
      · rw [if_neg hc, if_neg (Ne.symm hc)]

theorem runFlagCalls_orphaned (calls : List FlagCall) (c : Fin 256) :
    (runFlagCalls ircd calls).value c = orphanedFlag ↔ Cleared calls c := by
  induction calls using List.reverseRecOn with
  | nil =>
    refine iff_of_false (fun h => ?_) (fun h => nomatch h)
    have hrows : ∀ r ∈ chanacsFlags, r.value ≠ orphanedFlag := by decide
    have hstatic : (staticSlots c).value = orphanedFlag := h
    rw [staticSlots] at hstatic
    cases hf : chanacsFlags.find? (fun r => r.ch.toNat = c.val) with
    | none => rw [hf] at hstatic; exact orphanedFlag_ne_zero hstatic.symm
    | some r =>
      rw [hf] at hstatic
      exact hrows r (List.mem_of_find?_eq_some hf) hstatic
  | append_singleton calls call ih =>
    rw [runFlagCalls, List.foldl_append, List.foldl_cons, List.foldl_nil, exec_orphaned]
    rw [Cleared, List.filter_append]
    by_cases hc : call.flag = c
    · simp [hc]
    · have hnone : [call].filter (·.flag = c) = [] := by simp [hc]
      rw [if_neg hc, hnone, List.append_nil]
      exact ih

end calls

/-! ### Soundness -/

theorem and_not_zero (m : Flags) : m &&& ~~~(0#32) = m := by
  apply ext
  intro i
  rw [has_and, has_not]
  exact ⟨And.left, fun h => ⟨h, h.lt, has_zero i⟩⟩

theorem or_zero (m : Flags) : m ||| 0#32 = m := by
  apply ext
  intro i
  simp

theorem silent_of_zero {st : FlagState} {c : Fin 256} (h : st.value c = 0#32) : Silent st c := by
  refine ⟨fun status bitmask string ch hch hplain => ?_,
    fun shortflag status change string ch hch hplain hname => ?_, fun flags hmem => ?_⟩
  · simp only [List.mem_cons, List.not_mem_nil, or_false, not_or] at hplain
    cases status <;>
      simp only [FlagState.toBitmaskFrom, hplain, if_false, hch, h, and_not_zero, or_zero]
  · simp only [List.mem_cons, List.not_mem_nil, or_false, not_or] at hplain
    have hshort : ¬ ((!shortflag) = true ∧ st.xflagLookup (ch :: string) ≠ 0#32) := by
      intro hs
      cases hname with
      | inl hs' => simp [hs'] at hs
      | inr h0 => exact hs.2 h0
    cases status <;>
      simp only [FlagState.makeBitmasksFrom, hplain, if_false, hshort, hch, h, Change.apply,
        and_not_zero, or_zero]
  · rw [FlagState.flagChars, List.mem_map] at hmem
    obtain ⟨c', hc', he⟩ := hmem
    have hcc : c' = c := charOf_injective he
    subst hcc
    have ht := (List.mem_filter.mp hc').2
    rw [h, test_zero_left] at ht
    cases ht

theorem not_silent_of_orphaned {st : FlagState} {c : Fin 256} (h : st.value c = orphanedFlag) :
    ¬ Silent st c := by
  intro hs
  refine hs.printed caVoice (List.mem_map.mpr ⟨c, List.mem_filter.mpr ⟨List.mem_finRange c, ?_⟩, rfl⟩)
  rw [h]
  decide

/-- However modules load and unload, the table is as its readers expect it exactly if every
character that was cleared has been associated again. -/
theorem flag_table_sound_iff (ircd : IrcdModes) (calls : List FlagCall) :
    TableSound ircd (runFlagCalls ircd calls) ↔ ∀ c, ¬ Cleared calls c := by
  have hok : TableOk ircd (runFlagCalls ircd calls) := runFlagCalls_ok calls
  constructor
  · intro h c hcleared
    have horphan := (@runFlagCalls_orphaned ircd calls c).mpr hcleared
    exact not_silent_of_orphaned horphan (h.cleared c fun huse => huse.2 horphan)
  · intro h
    have hnone : ∀ c, (runFlagCalls ircd calls).value c ≠ orphanedFlag := fun c horphan =>
      h c (runFlagCalls_orphaned calls c |>.mp horphan)
    refine ⟨fun c huse => ?_, hok.disjoint, fun i => ?_, fun c hunused => ?_⟩
    · obtain h0 | horphan | ⟨k, hk, hv⟩ := hok.values c
      · exact absurd h0 huse.1
      · exact absurd horphan huse.2
      · refine ⟨k, fun i => ?_⟩
        rw [hv, has_twoPow]
        omega
    · have hall : (runFlagCalls ircd calls).caAll =
          orSlots (runFlagCalls ircd calls).value &&& ~~~ircd.lacks :=
        congrArg FlagState.caAll (hok.fresh hnone)
      rw [hall, has_and, has_not, has_orSlots]
      constructor
      · rintro ⟨⟨c, hc⟩, -, hlacks⟩
        refine ⟨⟨c, ⟨fun h0 => ?_, hnone c⟩, hc⟩, hlacks⟩
        rw [h0] at hc
        exact has_zero i hc
      · rintro ⟨⟨c, -, hc⟩, hlacks⟩
        exact ⟨⟨c, hc⟩, hc.lt, hlacks⟩
    · refine silent_of_zero (by_contra fun hne => hunused ⟨hne, hnone c⟩)

theorem findSlot_orphaned {slots : Fin 256 → FlagSlot} {c : Fin 256}
    (h : (slots c).value = orphanedFlag) : findSlot slots = 0#32 := by
  obtain h0 | ⟨k, hk, -, hfree⟩ := findSlot_spec slots
  · exact h0
  · have hall : Has orphanedFlag k := (has_orphanedFlag k).mpr hk
    exact absurd (h ▸ hall) (hfree c)

/- The module of the successor flag is loaded and unloaded. -/
def successorUnloaded : List FlagCall :=
  [.associate 83 0#32 false "successor".toList, .clear 83]

theorem flagsToBitmask_orphaned {st : FlagState} (h : st.value (slotOf 'S') = orphanedFlag) :
    st.flagsToBitmask "+S".toList 0#32 = st.caAll := by
  have hparse : st.flagsToBitmask "+S".toList 0#32 = (0#32 ||| st.value (slotOf 'S')) &&& st.caAll :=
    rfl
  rw [hparse, h]
  apply ext
  intro i
  simp only [has_and, has_or, has_zero, false_or, has_orphanedFlag]
  exact ⟨And.right, fun hi => ⟨hi.lt, hi⟩⟩

theorem associate_orphaned {st : FlagState} {flag : Fin 256} (restrictflags : Flags) (enable : Bool)
    (name : CString) (h : st.value flag = orphanedFlag) :
    (st.associate ircd flag restrictflags enable name).2 = 0#32 := by
  rw [FlagState.associate, if_neg fun huse => huse.2 h]
  exact findSlot_orphaned h

def everyMode : IrcdModes := ⟨true, true, true⟩

/-- The letter of a flag that was unloaded stands for every flag, and the flag cannot be
associated when its module is loaded again. -/
theorem orphaned_flag_is_every_flag :
    ¬ TableSound everyMode (runFlagCalls everyMode successorUnloaded) ∧
      (runFlagCalls everyMode successorUnloaded).flagsToBitmask "+S".toList 0#32 =
        (runFlagCalls everyMode successorUnloaded).caAll ∧
      ((runFlagCalls everyMode successorUnloaded).associate everyMode 83 0#32 false
        "successor".toList).2 = 0#32 := by
  have horphan : (runFlagCalls everyMode successorUnloaded).value 83 = orphanedFlag :=
    (@runFlagCalls_orphaned everyMode successorUnloaded 83).mpr rfl
  have hslot : slotOf 'S' = 83 := by decide
  refine ⟨fun h => ?_, flagsToBitmask_orphaned (hslot ▸ horphan),
    associate_orphaned 0#32 false "successor".toList horphan⟩
  exact not_silent_of_orphaned horphan (h.cleared 83 fun huse => huse.2 horphan)

end ChatServices.ChanServ
