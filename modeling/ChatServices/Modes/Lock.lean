import ChatServices.Lib.Settle
import ChatServices.Modes.StackRun

/-! The mode lock of a registered channel: what `check_modes` does to its own copy of the channel,
and what it queues for the network. -/
namespace ChatServices.Modes.Lock
open ChatServices.Lib ChatServices.Lib.Mask ChatServices.Lib.Run ChatServices.Lib.Settle
open ChatServices.Text ChatServices.ChanServ ChatServices.ChanServ.Channels

/-- `mlock_on`, `mlock_off`, `mlock_limit`, `mlock_key` and the metadata `private:mlockext`. -/
structure ModeLock where
  on : Flags
  off : Flags
  limit : BitVec 32
  key : Option CString
  ext : Option CString

/-- A part of `check_modes`: the channel it leaves, and what it gives to the mode stack. -/
abbrev Stage (κ : Type) := Channel → Channel × List (Call κ)

section model
variable {κ : Type} (t : Tables) (check : Nat → CString → Bool) (source : CString) (c : κ)
  (lock : ModeLock)

def simpleMask : Flags := ~~~(cmodeKey ||| cmodeLimit)

def lockOn : Stage κ := fun ch =>
  let modes := ~~~ch.modes &&& lock.on &&& simpleMask
  ({ ch with modes := ch.modes ||| modes }, [.simple source c true modes])

def lockLimit : Stage κ := fun ch =>
  if lock.limit ≠ 0#32 ∧ lock.limit.toNat ≠ ch.limit then
    ({ ch with limit := lock.limit.toNat }, [.limit source c true lock.limit])
  else (ch, [])

def dropKey (key : CString) : Stage κ := fun ch =>
  match ch.key with
  | some k => if k ≠ key then ({ ch with key := none }, [.param source c false 'k' k]) else (ch, [])
  | none => (ch, [])

def addKey (key : CString) : Stage κ := fun ch =>
  match ch.key with
  | none => ({ ch with key := some key }, [.param source c true 'k' key])
  | some _ => (ch, [])

def lockKey : Stage κ := fun ch =>
  match lock.key with
  | none => (ch, [])
  | some key =>
    let dropped := dropKey source c key ch
    let added := addKey source c key dropped.1
    (added.1, dropped.2 ++ added.2)

def lockOff : Stage κ := fun ch =>
  let modes := ch.modes &&& lock.off &&& simpleMask
  ({ ch with modes := ch.modes &&& ~~~modes }, [.simple source c false modes])

def lockOffLimit : Stage κ := fun ch =>
  if ch.limit ≠ 0 ∧ test lock.off cmodeLimit then ({ ch with limit := 0 }, [.limit source c false 0])
  else (ch, [])

def lockOffKey : Stage κ := fun ch =>
  match ch.key with
  | some k =>
    if test lock.off cmodeKey then ({ ch with key := none }, [.param source c false 'k' k])
    else (ch, [])
  | none => (ch, [])

def lockExt (i : Nat) (value : CString) : Stage κ := fun ch =>
  if value = [] then
    if (ch.extmodes i).isSome then
      ({ ch with extmodes := Function.update ch.extmodes i none }, [.ext source c false i []])
    else (ch, [])
  else
    let str2 := truncate 512 value
    if ch.extmodes i ≠ some str2 ∧ check i str2 then
      ({ ch with extmodes := Function.update ch.extmodes i (some str2) }, [.ext source c true i str2])
    else (ch, [])

/-- The entries of `ignore_mode_list` that a word of the list is for. -/
def wordStages : CString → List (Stage κ)
  | [] => []
  | letter :: value =>
    ((List.range t.ignoreModeList.length).filter
      (fun i => t.ignoreModeList[i]? = some letter)).map fun i => lockExt check source c i value

def extStages : List (Stage κ) :=
  match lock.ext with
  | none => []
  | some value => (value.splitOn ' ').flatMap (wordStages t check source c)

def stages : List (Stage κ) :=
  [lockOn source c lock, lockLimit source c lock, lockKey source c lock, lockOff source c lock,
    lockOffLimit source c lock, lockOffKey source c lock] ++ extStages t check source c lock

/-- `check_modes`; the flag `MC_MLOCK_CHECK` is not part of the channel. -/
def checkModes (sendnow : Bool) (ch : Channel) : Channel × List (Call κ) :=
  let r := run (fun ch (stage : Stage κ) => stage ch) ch (stages t check source c lock)
  (r.1, if sendnow then r.2 else [])

end model

end ChatServices.Modes.Lock

/-! The parts of a mode lock. Each stage of `check_modes` settles its part of the lock and leaves
the others settled, and has nothing to queue for a part that is settled. -/
namespace ChatServices.Modes.Lock
open ChatServices.Lib ChatServices.Lib.Mask ChatServices.Lib.Run ChatServices.Lib.Settle
open ChatServices.Text ChatServices.ChanServ ChatServices.ChanServ.Channels

/-- The extended modes of a lock by their places in `ignore_mode_list`; one that is locked off has
an empty value. -/
abbrev ExtLock := Registry Nat CString

section text
variable (t : Tables)

def extWord (e : Nat × CString) : CString := extLetter t e.1 :: e.2

def extText (ext : ExtLock) : Option CString :=
  match ext.entries.map (extWord t) with
  | [] => none
  | word :: words => some (word ++ args words)

structure LockWf (lock : ModeLock) (ext : ExtLock) : Prop where
  apart : lock.on &&& lock.off = 0#32
  limit : lock.limit ≠ 0#32 → test lock.off cmodeLimit = false
  key : ∀ key, lock.key = some key → test lock.off cmodeKey = false
  on_known : Sub (lock.on &&& simpleMask) t.known
  off_known : Sub (lock.off &&& simpleMask) t.known
  text : lock.ext = extText t ext
  entries : ∀ e ∈ ext.entries, e.1 < t.ignoreModeList.length ∧ ' ' ∉ e.2 ∧ e.2.length < 512

end text

inductive Part where
  | on
  | limit
  | key
  | off
  | offLimit
  | offKey
  | ext (i : Nat)

section parts
variable {κ : Type} (t : Tables) (check : Nat → CString → Bool) (source : CString) (c : κ)
  (lock : ModeLock) (ext : ExtLock)

def Part.stage : Part → Stage κ
  | .on => lockOn source c lock
  | .limit => lockLimit source c lock
  | .key => lockKey source c lock
  | .off => lockOff source c lock
  | .offLimit => lockOffLimit source c lock
  | .offKey => lockOffKey source c lock
  | .ext i => fun ch =>
    match ext.find i with
    | none => (ch, [])
    | some value => lockExt check source c i value ch

def Part.visit (ch : Channel) (part : Part) : Channel :=
  (part.stage check source c lock ext ch).1

def Settled (ch : Channel) : Part → Prop
  | .on => Sub (lock.on &&& simpleMask) ch.modes
  | .limit => lock.limit ≠ 0#32 → ch.limit = lock.limit.toNat
  | .key => ∀ key, lock.key = some key → ch.key = some key
  | .off => ch.modes &&& lock.off &&& simpleMask = 0#32
  | .offLimit => test lock.off cmodeLimit = true → ch.limit = 0
  | .offKey => test lock.off cmodeKey = true → ch.key = none
  | .ext i => ∀ value, ext.find i = some value →
    ch.extmodes i = (if value = [] then none else some value) ∨
      value ≠ [] ∧ check i value = false

def lockParts : List Part :=
  [.on, .limit, .key, .off, .offLimit, .offKey] ++ (ext.entries.map Prod.fst).map .ext

variable {t check source c lock ext} {ch : Channel}

theorem extLetter_eq {i : Nat} (hi : i < t.ignoreModeList.length) :
    extLetter t i = t.ignoreModeList[i] := by
  rw [extLetter, List.getElem?_eq_getElem hi]
  rfl

theorem places_extLetter {i : Nat} (hi : i < t.ignoreModeList.length) :
    (List.range t.ignoreModeList.length).filter
      (fun j => t.ignoreModeList[j]? = some (extLetter t i)) = [i] := by
  have hnodup := t.letters_apart.1
  have heq : ∀ j ∈ List.range t.ignoreModeList.length,
      decide (t.ignoreModeList[j]? = some (extLetter t i)) = decide (j = i) := by
    intro j hmem
    have hlt := List.mem_range.mp hmem
    rw [decide_eq_decide, extLetter_eq hi, List.getElem?_eq_getElem hlt, Option.some.injEq]
    exact hnodup.getElem_inj_iff
  have hone := List.count_eq_one_of_mem List.nodup_range (List.mem_range.mpr hi)
  rw [List.filter_congr heq, List.filter_eq, hone]
  rfl

theorem wordStages_extWord {e : Nat × CString} (hi : e.1 < t.ignoreModeList.length) :
    wordStages t check source c (extWord t e) = [lockExt check source c e.1 e.2] := by
  rw [extWord, wordStages, places_extLetter hi]
  rfl

theorem ext_stage {e : Nat × CString} (he : e ∈ ext.entries) :
    Part.stage check source c lock ext (.ext e.1) = lockExt check source c e.1 e.2 := by
  have hf : ext.find e.1 = some e.2 := (Registry.find_eq_some_iff ..).mpr he
  funext ch
  rw [Part.stage, hf]

theorem stages_eq (h : LockWf t lock ext) :
    stages t check source c lock = (lockParts ext).map (Part.stage check source c lock ext) := by
  have hwords : ∀ w ∈ ext.entries.map (extWord t), ' ' ∉ w := by
    intro w hw
    obtain ⟨e, he, rfl⟩ := List.mem_map.mp hw
    obtain ⟨hi, hspace, -⟩ := h.entries e he
    have hmark := (t.letters_apart.2.1 _ (List.getElem_mem hi)).2
    rw [extWord, extLetter_eq hi, List.mem_cons, not_or]
    exact ⟨fun hs => hmark (.inr (.inr hs.symm)), hspace⟩
  have hext : extStages t check source c lock =
      ext.entries.flatMap fun e => wordStages t check source c (extWord t e) := by
    rw [extStages, h.text, extText]
    cases hws : ext.entries.map (extWord t) with
    | nil =>
      rw [List.map_eq_nil_iff] at hws
      rw [hws]
      rfl
    | cons w ws =>
      rw [hws] at hwords
      have hsplit := splitOn_args (hwords w (List.mem_cons_self ..))
        fun p hp => hwords p (List.mem_cons_of_mem w hp)
      dsimp only
      rw [hsplit, ← hws, List.flatMap_map]
  have hstage : ext.entries.flatMap (fun e => wordStages t check source c (extWord t e)) =
      ext.entries.map fun e => Part.stage check source c lock ext (.ext e.1) := by
    have hone : ∀ e ∈ ext.entries, wordStages t check source c (extWord t e) =
        [Part.stage check source c lock ext (.ext e.1)] := by
      intro e he
      rw [wordStages_extWord (h.entries e he).1, ext_stage he]
    rw [List.flatMap_def, List.map_congr_left hone, ← List.flatMap_def]
    exact List.map_eq_flatMap.symm
  rw [stages, hext, hstage, lockParts, List.map_append, List.map_map, List.map_map]
  rfl

/-! ### What a stage leaves -/

theorem visit_on : Part.visit check source c lock ext ch .on =
    { ch with modes := ch.modes ||| (~~~ch.modes &&& lock.on &&& simpleMask) } := rfl

theorem visit_off : Part.visit check source c lock ext ch .off =
    { ch with modes := ch.modes &&& ~~~(ch.modes &&& lock.off &&& simpleMask) } := rfl

theorem visit_limit : Part.visit check source c lock ext ch .limit =
    { ch with limit := if lock.limit ≠ 0#32 then lock.limit.toNat else ch.limit } := by
  rw [Part.visit, Part.stage, lockLimit]
  by_cases hzero : lock.limit = 0#32
  · rw [if_neg fun h => h.1 hzero, if_neg (not_not.mpr hzero)]
  · rw [if_pos hzero]
    by_cases hsame : lock.limit.toNat = ch.limit
    · rw [if_neg fun h => h.2 hsame, hsame]
    · rw [if_pos ⟨hzero, hsame⟩]

theorem visit_offLimit : Part.visit check source c lock ext ch .offLimit =
    { ch with limit := if test lock.off cmodeLimit then 0 else ch.limit } := by
  rw [Part.visit, Part.stage, lockOffLimit]
  by_cases hoff : test lock.off cmodeLimit
  · rw [if_pos hoff]
    by_cases hzero : ch.limit = 0
    · rw [if_neg fun h => h.1 hzero, ← hzero]
    · rw [if_pos ⟨hzero, hoff⟩]
  · rw [if_neg fun h => hoff h.2, if_neg hoff]

theorem visit_key : Part.visit check source c lock ext ch .key =
    { ch with key := lock.key.or ch.key } := by
  rw [Part.visit, Part.stage, lockKey]
  cases hkey : lock.key with
  | none => simp
  | some key =>
    cases hold : ch.key with
    | none => simp [dropKey, addKey, hold]
    | some k =>
      by_cases hsame : k = key
      · subst hsame
        simp only [dropKey, addKey, hold, ne_eq, not_true_eq_false, if_false]
        rw [Option.some_or, ← hold]
      · simp [dropKey, addKey, hold, hsame]

theorem visit_offKey : Part.visit check source c lock ext ch .offKey =
    { ch with key := if test lock.off cmodeKey then none else ch.key } := by
  rw [Part.visit, Part.stage, lockOffKey]
  cases hold : ch.key with
  | none => simp [← hold]
  | some k =>
    by_cases hoff : test lock.off cmodeKey
    · simp [hoff]
    · simp [hoff, ← hold]

def extResult (check : Nat → CString → Bool) (i : Nat) (value : CString) (old : Option CString) :
    Option CString :=
  if value = [] then none
  else if check i (truncate 512 value) then some (truncate 512 value) else old

theorem lockExt_fst {i : Nat} {value : CString} : (lockExt check source c i value ch).1 =
    { ch with
      extmodes := Function.update ch.extmodes i (extResult check i value (ch.extmodes i)) } := by
  have hsame : ∀ x, ch.extmodes i = x → Function.update ch.extmodes i x = ch.extmodes := by
    rintro x rfl
    exact Function.update_eq_self i _
  rw [lockExt, extResult]
  by_cases hvalue : value = []
  · rw [if_pos hvalue, if_pos hvalue]
    cases hold : ch.extmodes i with
    | none => simp [hsame _ hold]
    | some old => simp
  · rw [if_neg hvalue, if_neg hvalue]
    by_cases hold : ch.extmodes i = some (truncate 512 value)
    · simp [hold, hsame _ hold]
    · by_cases hcheck : check i (truncate 512 value)
      · simp [hold, hcheck]
      · simp [hcheck]

theorem visit_ext {i : Nat} {value : CString} (hf : ext.find i = some value) :
    Part.visit check source c lock ext ch (.ext i) =
      { ch with
        extmodes := Function.update ch.extmodes i (extResult check i value (ch.extmodes i)) } := by
  rw [Part.visit, Part.stage, hf]
  exact lockExt_fst

theorem visit_ext_none {i : Nat} (hf : ext.find i = none) :
    Part.visit check source c lock ext ch (.ext i) = ch := by
  rw [Part.visit, Part.stage, hf]

/-! ### What a stage settles -/

theorem locked_on (m on : Flags) : Sub (on &&& simpleMask) (m ||| (~~~m &&& on &&& simpleMask)) := by
  rw [sub_iff]
  intro i hi
  simp only [has_and, has_or, has_not] at hi ⊢
  by_cases hm : Has m i
  · exact .inl hm
  · exact .inr ⟨⟨⟨hi.1.lt, hm⟩, hi.1⟩, hi.2⟩

theorem locked_off (m off : Flags) :
    m &&& ~~~(m &&& off &&& simpleMask) &&& off &&& simpleMask = 0#32 := by
  rw [eq_zero_iff]
  intro i hi
  simp only [has_and, has_not] at hi
  exact hi.1.1.2.2 ⟨⟨hi.1.1.1, hi.1.2⟩, hi.2⟩

theorem LockWf.no_mode (h : LockWf t lock ext) {i : Nat} (hon : Has lock.on i) : ¬ Has lock.off i := by
  intro hoff
  have hapart := (eq_zero_iff _).mp h.apart i
  rw [has_and] at hapart
  exact hapart ⟨hon, hoff⟩

theorem LockWf.no_limit (h : LockWf t lock ext) (hoff : test lock.off cmodeLimit = true) :
    lock.limit = 0#32 := by
  by_contra hne
  rw [h.limit hne] at hoff
  cases hoff

theorem LockWf.no_key (h : LockWf t lock ext) (hoff : test lock.off cmodeKey = true) :
    lock.key = none := by
  cases hkey : lock.key with
  | none => rfl
  | some key =>
    rw [h.key key hkey] at hoff
    cases hoff

theorem LockWf.short (h : LockWf t lock ext) {i : Nat} {value : CString}
    (hf : ext.find i = some value) : truncate 512 value = value := by
  have he : (i, value) ∈ ext.entries := (Registry.find_eq_some_iff ..).mp hf
  have hlen : value.length < 512 := (h.entries _ he).2.2
  exact List.take_of_length_le (by omega)

theorem extResult_settled (h : LockWf t lock ext) {i : Nat} {value : CString}
    (hf : ext.find i = some value) (old : Option CString) :
    extResult check i value old = (if value = [] then none else some value) ∨
      value ≠ [] ∧ check i value = false := by
  rw [extResult, h.short hf]
  by_cases hvalue : value = []
  · rw [if_pos hvalue, if_pos hvalue]
    exact .inl rfl
  · rw [if_neg hvalue, if_neg hvalue]
    cases hcheck : check i value with
    | false => exact .inr ⟨hvalue, rfl⟩
    | true => exact .inl rfl

theorem visit_keeps (h : LockWf t lock ext) (part part' : Part)
    (hs : Settled check lock ext ch part') :
    Settled check lock ext (part.visit check source c lock ext ch) part' := by
  cases part with
  | on =>
    rw [visit_on]
    cases part' with
    | on => exact locked_on ch.modes lock.on
    | off =>
      rw [Settled, eq_zero_iff] at hs ⊢
      intro i hi
      have hold := hs i
      simp only [has_and, has_or, has_not] at hi hold
      obtain ⟨⟨hm | hon, hoff⟩, hmask⟩ := hi
      · exact hold ⟨⟨hm, hoff⟩, hmask⟩
      · exact h.no_mode hon.1.2 hoff
    | _ => exact hs
  | off =>
    rw [visit_off]
    cases part' with
    | on =>
      rw [Settled, sub_iff] at hs ⊢
      intro i hi
      have hold := hs i hi
      rw [has_and] at hi
      simp only [has_and, has_not]
      exact ⟨hold, hold.lt, fun hoff => h.no_mode hi.1 hoff.1.2⟩
    | off => exact locked_off ch.modes lock.off
    | _ => exact hs
  | limit =>
    rw [visit_limit]
    cases part' with
    | limit => exact fun hne => if_pos hne
    | offLimit =>
      intro hoff
      have hzero := h.no_limit hoff
      simp only [hzero, ne_eq, not_true_eq_false, if_false]
      exact hs hoff
    | _ => exact hs
  | offLimit =>
    rw [visit_offLimit]
    cases part' with
    | limit =>
      intro hne
      have hno := h.limit hne
      simp only [hno, Bool.false_eq_true, if_false]
      exact hs hne
    | offLimit => exact fun hoff => if_pos hoff
    | _ => exact hs
  | key =>
    rw [visit_key]
    cases part' with
    | key =>
      intro key hkey
      simp only [hkey, Option.some_or]
    | offKey =>
      intro hoff
      have hnone := h.no_key hoff
      simp only [hnone, Option.none_or]
      exact hs hoff
    | _ => exact hs
  | offKey =>
    rw [visit_offKey]
    cases part' with
    | key =>
      intro key hkey
      have hno := h.key key hkey
      simp only [hno, Bool.false_eq_true, if_false]
      exact hs key hkey
    | offKey => exact fun hoff => if_pos hoff
    | _ => exact hs
  | ext i =>
    cases hf : ext.find i with
    | none =>
      rw [visit_ext_none hf]
      exact hs
    | some value =>
      rw [visit_ext hf]
      cases part' with
      | ext j =>
        intro value' hf'
        by_cases hj : j = i
        · subst hj
          obtain rfl := Option.some.inj (hf.symm.trans hf')
          simp only [Function.update_self]
          exact extResult_settled h hf _
        · simp only [Function.update_of_ne hj]
          exact hs value' hf'
      | _ => exact hs

theorem visit_settles (h : LockWf t lock ext) (part : Part) :
    Settled check lock ext (part.visit check source c lock ext ch) part := by
  cases part with
  | on => exact locked_on ch.modes lock.on
  | off => exact locked_off ch.modes lock.off
  | limit =>
    rw [visit_limit]
    exact fun hne => if_pos hne
  | offLimit =>
    rw [visit_offLimit]
    exact fun hoff => if_pos hoff
  | key =>
    rw [visit_key]
    intro key hkey
    simp only [hkey, Option.some_or]
  | offKey =>
    rw [visit_offKey]
    exact fun hoff => if_pos hoff
  | ext i =>
    intro value hf
    rw [visit_ext hf]
    simp only [Function.update_self]
    exact extResult_settled h hf _

variable (check source c) in
theorem settles (h : LockWf t lock ext) :
    Settles (fun _ => True) (Settled check lock ext) (fun ch part =>
      Part.visit check source c lock ext ch part) :=
  ⟨fun _ _ _ => trivial, fun _ part _ => visit_settles h part, fun _ part part' => visit_keeps h part part'⟩

/-! ### A part that is settled -/

def Idle (call : Call κ) : Prop := ∃ source c add, call = .simple source c add 0#32

variable (source c) in
theorem settled_idle (h : LockWf t lock ext) (part : Part) (hs : Settled check lock ext ch part) :
    (part.stage check source c lock ext ch).1 = ch ∧
      ∀ call ∈ (part.stage check source c lock ext ch).2, Idle call := by
  cases part with
  | on =>
    have hnone : ~~~ch.modes &&& lock.on &&& simpleMask = 0#32 := by
      rw [BitVec.and_assoc, BitVec.and_comm]
      exact hs
    rw [Part.stage, lockOn, hnone, BitVec.or_zero]
    refine ⟨rfl, ?_⟩
    intro call hcall
    exact ⟨source, c, true, List.mem_singleton.mp hcall⟩
  | off =>
    rw [Part.stage, lockOff, hs, BitVec.not_zero, BitVec.and_allOnes]
    refine ⟨rfl, ?_⟩
    intro call hcall
    exact ⟨source, c, false, List.mem_singleton.mp hcall⟩
  | limit =>
    have hno : ¬ (lock.limit ≠ 0#32 ∧ lock.limit.toNat ≠ ch.limit) :=
      fun hyes => hyes.2 (hs hyes.1).symm
    rw [Part.stage, lockLimit, if_neg hno]
    exact ⟨rfl, by simp⟩
  | offLimit =>
    have hno : ¬ (ch.limit ≠ 0 ∧ test lock.off cmodeLimit = true) := fun hyes => hyes.1 (hs hyes.2)
    rw [Part.stage, lockOffLimit, if_neg hno]
    exact ⟨rfl, by simp⟩
  | key =>
    rw [Part.stage, lockKey]
    cases hkey : lock.key with
    | none => exact ⟨rfl, by simp⟩
    | some key =>
      have hsame := hs key hkey
      simp [dropKey, addKey, hsame]
  | offKey =>
    rw [Part.stage, lockOffKey]
    cases hkey : ch.key with
    | none => exact ⟨rfl, by simp⟩
    | some key =>
      have hno : ¬ test lock.off cmodeKey = true := by
        intro hyes
        have hnone := hs hyes
        rw [hkey] at hnone
        cases hnone
      simp only [if_neg hno]
      exact ⟨trivial, by simp⟩
  | ext i =>
    rw [Part.stage]
    cases hf : ext.find i with
    | none => exact ⟨rfl, by simp⟩
    | some value =>
      have hold := hs value hf
      by_cases hvalue : value = []
      · have hnone : ch.extmodes i = none := by simpa [hvalue] using hold
        simp [lockExt, hvalue, hnone]
      · have hno : ¬ (ch.extmodes i ≠ some value ∧ check i value = true) := by
          rintro ⟨hne, hcheck⟩
          obtain hsame | ⟨-, hfail⟩ := hold
          · rw [if_neg hvalue] at hsame
            exact hne hsame
          · rw [hcheck] at hfail
            cases hfail
        simp only [lockExt, if_neg hvalue, h.short hf, if_neg hno]
        exact ⟨trivial, by simp⟩

/-! ### The whole pass -/

theorem run_stages (parts : List Part) :
    (run (fun ch (stage : Stage κ) => stage ch) ch
      (parts.map (Part.stage check source c lock ext))).1 =
      parts.foldl (Part.visit check source c lock ext) ch := by
  induction parts generalizing ch with
  | nil => rfl
  | cons part parts ih =>
    rw [List.map_cons, run_cons, List.foldl_cons, ih]
    rfl

theorem checkModes_fst (h : LockWf t lock ext) (sendnow : Bool) :
    (checkModes t check source c lock sendnow ch).1 =
      (lockParts ext).foldl (Part.visit check source c lock ext) ch := by
  rw [checkModes, stages_eq h]
  exact run_stages (lockParts ext)

theorem pass_fixedParts :
    [Part.on, .limit, .key, .off, .offLimit, .offKey].foldl (Part.visit check source c lock ext) ch =
      { ch with
        modes := (ch.modes ||| (~~~ch.modes &&& lock.on &&& simpleMask)) &&&
          ~~~((ch.modes ||| (~~~ch.modes &&& lock.on &&& simpleMask)) &&& lock.off &&& simpleMask)
        limit := if test lock.off cmodeLimit then 0
          else if lock.limit ≠ 0#32 then lock.limit.toNat else ch.limit
        key := if test lock.off cmodeKey then none else lock.key.or ch.key } := by
  rw [List.foldl_cons, List.foldl_cons, List.foldl_cons, List.foldl_cons, List.foldl_cons,
    List.foldl_cons, List.foldl_nil, visit_on, visit_limit, visit_key, visit_off, visit_offLimit,
    visit_offKey]

variable (check source c lock ext ch) in
theorem pass_exts (l : List Nat) : ∃ exts, (l.map Part.ext).foldl
    (Part.visit check source c lock ext) ch = { ch with extmodes := exts } := by
  induction l generalizing ch with
  | nil => exact ⟨ch.extmodes, rfl⟩
  | cons i l ih =>
    rw [List.map_cons, List.foldl_cons]
    cases hf : ext.find i with
    | none =>
      rw [visit_ext_none hf]
      exact ih ch
    | some value =>
      obtain ⟨exts, hexts⟩ := ih (Part.visit check source c lock ext ch (.ext i))
      refine ⟨exts, ?_⟩
      rw [hexts, visit_ext hf]

variable (check source c ch) in
theorem checkModes_values (h : LockWf t lock ext) (sendnow : Bool) :
    (checkModes t check source c lock sendnow ch).1.limit =
        (if test lock.off cmodeLimit then 0
          else if lock.limit ≠ 0#32 then lock.limit.toNat else ch.limit) ∧
      (checkModes t check source c lock sendnow ch).1.key =
        if test lock.off cmodeKey then none else lock.key.or ch.key := by
  rw [checkModes_fst h, lockParts, List.foldl_append]
  obtain ⟨exts, hexts⟩ := pass_exts check source c lock ext
    ([Part.on, .limit, .key, .off, .offLimit, .offKey].foldl (Part.visit check source c lock ext) ch)
    (ext.entries.map Prod.fst)
  rw [hexts, pass_fixedParts]
  exact ⟨rfl, rfl⟩

theorem mem_lockParts {part : Part} (h : ∀ i, part = .ext i → (ext.find i).isSome) :
    part ∈ lockParts ext := by
  cases part with
  | ext i =>
    obtain ⟨value, hf⟩ := Option.isSome_iff_exists.mp (h i rfl)
    have he : (i, value) ∈ ext.entries := (Registry.find_eq_some_iff ..).mp hf
    exact List.mem_append_right _ (List.mem_map_of_mem (List.mem_map_of_mem he))
  | _ => exact List.mem_append_left _ (by simp)

variable (check source c ch) in
theorem checkModes_settled (h : LockWf t lock ext) (sendnow : Bool) (part : Part) :
    Settled check lock ext (checkModes t check source c lock sendnow ch).1 part := by
  have hall := pass_settled (settles check source c h) (lockParts ext) (s := ch) trivial
  rw [checkModes_fst h]
  by_cases hpart : ∀ i, part = .ext i → (ext.find i).isSome
  · exact hall part (mem_lockParts hpart)
  · cases part with
    | ext i =>
      -- the lock has no such mode
      intro value hf
      refine absurd ?_ hpart
      intro j hj
      obtain rfl := Part.ext.inj hj
      rw [hf]
      rfl
    | _ => exact absurd (fun i hi => Part.noConfusion hi) hpart

variable (source c) in
theorem run_settled (h : LockWf t lock ext) (parts : List Part)
    (hs : ∀ part, Settled check lock ext ch part) :
    (run (fun ch (stage : Stage κ) => stage ch) ch
      (parts.map (Part.stage check source c lock ext))).1 = ch ∧
    ∀ call ∈ (run (fun ch (stage : Stage κ) => stage ch) ch
      (parts.map (Part.stage check source c lock ext))).2, Idle call := by
  induction parts with
  | nil => exact ⟨rfl, by simp⟩
  | cons part parts ih =>
    obtain ⟨hsame, hidle⟩ := settled_idle source c h part (hs part)
    rw [List.map_cons, run_cons, hsame]
    refine ⟨ih.1, ?_⟩
    intro call hcall
    obtain hcall | hcall := List.mem_append.mp hcall
    · exact hidle call hcall
    · exact ih.2 call hcall

variable (source c) in
theorem checkModes_idle (h : LockWf t lock ext) (sendnow : Bool)
    (hs : ∀ part, Settled check lock ext ch part) :
    (checkModes t check source c lock sendnow ch).1 = ch ∧
      ∀ call ∈ (checkModes t check source c lock sendnow ch).2, Idle call := by
  have hrun := run_settled source c h (lockParts ext) hs
  rw [checkModes, stages_eq h]
  cases sendnow with
  | false => exact ⟨hrun.1, by simp⟩
  | true => exact hrun

theorem idle_run [DecidableEq κ] (cm : CaseMapping) (name : κ → CString) (calls : List (Call κ))
    (h : ∀ call ∈ calls, Idle call) (md : Modestackdata κ) :
    run (stackStep t cm name) md calls = (md, []) := by
  induction calls with
  | nil => rfl
  | cons call calls ih =>
    obtain ⟨source, c, add, hcall⟩ := h call List.mem_cons_self
    have hstep : stackStep t cm name md call = (md, []) := by
      rw [hcall, stackStep, if_pos rfl]
    rw [run_cons, hstep]
    exact ih fun call' hmem => h call' (List.mem_cons_of_mem call hmem)

end parts

/-! ### The channel as ChanServ has it -/

section registered
variable {κ : Type} (t : Tables) (source : CString) (c : κ) (net : Net) (now : Moment)

def lockOf : ModeLock where
  on := net.mlockOn
  off := net.mlockOff
  limit := BitVec.ofNat 32 net.mlockLimit
  key := net.mlockKey
  ext := metadataFind net.mychan.metadata "private:mlockext".toList

variable {t source c net now} {ch : Channel}

theorem run_lockExts (value : CString) (l : List Nat) (hl : l.Nodup) :
    (run (fun ch (stage : Stage κ) => stage ch) ch
      (l.map fun i => lockExt now.extCheck source c i value)).1 =
      { ch with extmodes := fun i =>
          if i ∈ l then extResult now.extCheck i value (ch.extmodes i) else ch.extmodes i } := by
  induction l generalizing ch with
  | nil => simp
  | cons i l ih =>
    obtain ⟨hi, hrest⟩ := List.nodup_cons.mp hl
    rw [List.map_cons, run_cons, lockExt_fst, ih hrest]
    have hext : ∀ j, (if j ∈ l then
          extResult now.extCheck j value (Function.update ch.extmodes i
            (extResult now.extCheck i value (ch.extmodes i)) j)
        else Function.update ch.extmodes i (extResult now.extCheck i value (ch.extmodes i)) j) =
        if j ∈ i :: l then extResult now.extCheck j value (ch.extmodes j) else ch.extmodes j := by
      intro j
      by_cases hj : j = i
      · subst hj
        simp [hi]
      · simp [hj]
    simp only [hext]

theorem run_words (hircd : net.ircd = t.toIrcd) (ws : List CString) :
    (run (fun ch (stage : Stage κ) => stage ch) ch
      (ws.flatMap (wordStages t now.extCheck source c))).1 =
      { ch with extmodes := ws.foldl (lockExtmode net now) ch.extmodes } := by
  induction ws generalizing ch with
  | nil => rfl
  | cons w ws ih =>
    rw [List.flatMap_cons, run_append, ih, List.foldl_cons]
    cases w with
    | nil => rfl
    | cons letter value =>
      rw [wordStages, run_lockExts _ _ (List.nodup_range.filter _)]
      have hword : ∀ i, (if i ∈ (List.range t.ignoreModeList.length).filter
            (fun i => t.ignoreModeList[i]? = some letter) then
            extResult now.extCheck i value (ch.extmodes i) else ch.extmodes i) =
          lockExtmode net now ch.extmodes (letter :: value) i := by
        intro i
        have hmem : i ∈ (List.range t.ignoreModeList.length).filter
            (fun i => t.ignoreModeList[i]? = some letter) ↔ t.ignoreModeList[i]? = some letter := by
          rw [List.mem_filter, decide_eq_true_eq, List.mem_range]
          exact ⟨fun hi => hi.2, fun hi => ⟨(List.getElem?_eq_some_iff.mp hi).1, hi⟩⟩
        simp only [lockExtmode, hircd, hmem, extResult]
        by_cases hi : t.ignoreModeList[i]? = some letter
        · rw [if_pos hi, if_neg (not_not.mpr hi)]
          by_cases hvalue : value = []
          · rw [if_pos hvalue, if_pos hvalue]
          · rw [if_neg hvalue, if_neg hvalue]
            by_cases hsame : ch.extmodes i = some (truncate 512 value)
            · simp [hsame]
            · simp [hsame]
        · rw [if_neg hi, if_pos hi]
      have hfun := funext hword
      simp only [hfun]

/-- What the check makes of the channel is what it makes of a registered one with its members. -/
theorem checkModes_chan (hircd : net.ircd = t.toIrcd) (hlimit : net.mlockLimit < 2 ^ 32)
    (sendnow : Bool) (st : ChanState) :
    (Channels.checkModes net now st).chan =
      (checkModes t now.extCheck source c (lockOf net) sendnow st.chan).1 := by
  have hstages : stages t now.extCheck source c (lockOf net) =
      (lockParts Registry.empty).map (Part.stage now.extCheck source c (lockOf net) Registry.empty) ++
        extStages t now.extCheck source c (lockOf net) := rfl
  have hext : ∀ ch : Channel, (run (fun ch (stage : Stage κ) => stage ch) ch
      (extStages t now.extCheck source c (lockOf net))).1 =
      { ch with extmodes := lockedExtmodes net now ch.extmodes } := by
    intro ch
    rw [extStages, lockOf, lockedExtmodes]
    cases metadataFind net.mychan.metadata "private:mlockext".toList with
    | none => rfl
    | some value => exact run_words hircd _
  have hfix : ∀ ch : Channel, (lockParts Registry.empty).foldl
      (Part.visit now.extCheck source c (lockOf net) Registry.empty) ch =
      { ch with
        modes := lockedModes net ch.modes
        limit := lockedLimit net ch.limit
        key := lockedKey net ch.key } := by
    intro ch
    have hnat : (BitVec.ofNat 32 net.mlockLimit).toNat = net.mlockLimit := by
      rw [BitVec.toNat_ofNat, Nat.mod_eq_of_lt hlimit]
    have hzero : BitVec.ofNat 32 net.mlockLimit ≠ 0#32 ↔ net.mlockLimit ≠ 0 := by
      rw [ne_eq, ← BitVec.toNat_inj, hnat]
      rfl
    have hkey : net.mlockKey.or ch.key = if net.mlockKey.isSome then net.mlockKey else ch.key := by
      cases net.mlockKey <;> rfl
    have hparts : lockParts Registry.empty = [.on, .limit, .key, .off, .offLimit, .offKey] := rfl
    rw [hparts, pass_fixedParts]
    simp only [lockOf, hzero, hnat, hkey, lockedModes, lockedLimit, lockedKey]
    rfl
  rw [Channels.checkModes, checkModes, hstages, run_append, run_stages, hext, hfix]

end registered

def jointLock : Metadata := [("private:mlockext".toList, "j5:10".toList)]

def lockedNet : Net where
  ircd := charybdis.toIrcd
  cfg := sampleConfig
  world := sampleWorld
  db := ⟨sampleAccounts 0#32 [], .empty, ⟨[(0, sampleChan "#chan" head_chan jointLock)], by decide⟩,
    .empty⟩
  mc := 0
  mychan := sampleChan "#chan" head_chan jointLock
  registered := by decide
  mlockOn := 0x10#32
  mlockOff := cmodeInvite
  mlockLimit := 20
  mlockKey := none
  user := fun u => ⟨sampleUser, u = "ACAAA".toList, 0#64⟩
  chanserv := "ACAAA".toList
  chanserv_internal := by decide
  immuneLevel := 0#64
  changets := false
  leaveChans := true
  chanLog := false
  banMatches _ _ := false

theorem checkModes_chan_charybdis :
    let now : Moment := ⟨1000, false, some, fun _ => true, fun _ _ => true⟩
    let st : ChanState := ⟨⟨500, cmodeInvite, 0, none, fun _ => none, [], []⟩, 0#32, 0⟩
    (Channels.checkModes lockedNet now st).chan.limit = 20 ∧
      (Channels.checkModes lockedNet now st).chan =
        (checkModes charybdis now.extCheck [] () (lockOf lockedNet) true st.chan).1 := by
  intro now st
  exact ⟨by decide, checkModes_chan rfl (by decide) true st⟩

end ChatServices.Modes.Lock
