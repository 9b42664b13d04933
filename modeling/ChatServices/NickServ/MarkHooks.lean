import ChatServices.NickServ.Marks
import ChatServices.NickServ.NickOwnership

/-! What the hooks do to marks: the numbers of one account stay apart, and a mark that is moved is
somewhere after. -/
namespace ChatServices.NickServ.Marks
open ChatServices.Text ChatServices.Lib ChatServices.Storage

/-! ### Numbers -/

structure NumbersOk (l : List Multimark) : Prop where
  distinct : (l.map Multimark.number).Nodup
  positive : ∀ mm ∈ l, 0 < mm.number

section numbers
variable {l l' : List Multimark} {mm : Multimark} {rm : RestoredMark} {rml : List RestoredMark}

theorem numbersOk_nil : NumbersOk [] := ⟨List.nodup_nil, nofun⟩

@[simp] theorem numberMax_append :
    numberMax (l ++ [mm]) = if mm.number > numberMax l then mm.number else numberMax l := by
  rw [numberMax, List.foldl_append]
  rfl

theorem numberMax_nonneg : 0 ≤ numberMax l := by
  induction l using List.reverseRecOn with
  | nil => exact le_refl _
  | append_singleton l mm ih =>
    rw [numberMax_append]
    split_ifs <;> omega

theorem le_numberMax (h : mm ∈ l) : mm.number ≤ numberMax l := by
  induction l using List.reverseRecOn with
  | nil => cases h
  | append_singleton l mm' ih =>
    rw [numberMax_append]
    obtain hold | hnew := List.mem_append.mp h
    · have hle := ih hold
      split_ifs <;> omega
    · rw [List.mem_singleton.mp hnew]
      split_ifs <;> omega

theorem getMultimarkMax_eq (hroom : numberMax l + 1 < 2 ^ 31) :
    getMultimarkMax l = numberMax l + 1 := by
  have hnonneg := numberMax_nonneg (l := l)
  exact int32_eq ⟨by omega, hroom⟩

theorem NumbersOk.add (h : NumbersOk l) (hroom : numberMax l + 1 < 2 ^ 31)
    (hnumber : mm.number = getMultimarkMax l) :
    NumbersOk (l ++ [mm]) ∧ numberMax (l ++ [mm]) = numberMax l + 1 := by
  have hnonneg := numberMax_nonneg (l := l)
  rw [getMultimarkMax_eq hroom] at hnumber
  refine ⟨⟨?_, fun mm' hmm' => ?_⟩, ?_⟩
  · rw [List.map_append, List.nodup_append]
    refine ⟨h.distinct, List.nodup_singleton _, fun i hi j hj heq => ?_⟩
    obtain ⟨mm', hmm', rfl⟩ := List.mem_map.mp hi
    have hle := le_numberMax hmm'
    have hj' := List.mem_singleton.mp hj
    omega
  · obtain hold | hnew := List.mem_append.mp hmm'
    · exact h.positive mm' hold
    · rw [List.mem_singleton.mp hnew]
      omega
  · rw [numberMax_append, if_pos] <;> omega

def Numbering (f : List Multimark → RestoredMark → List Multimark) : Prop :=
  ∀ l rm, f l rm = l ∨ ∃ mm, mm.number = getMultimarkMax l ∧ f l rm = l ++ [mm]

theorem restoreMark_numbering : Numbering restoreMark := fun _ _ => .inr ⟨_, rfl, rfl⟩

theorem groupMark_numbering : Numbering groupMark := by
  intro l rm
  rw [groupMark]
  split
  · exact .inl rfl
  · exact restoreMark_numbering l rm

theorem foldl_numbering {f : List Multimark → RestoredMark → List Multimark} (hf : Numbering f)
    (h : NumbersOk l) (hroom : numberMax l + rml.length < 2 ^ 31) : NumbersOk (rml.foldl f l) := by
  induction rml generalizing l with
  | nil => exact h
  | cons rm rml ih =>
    rw [List.length_cons] at hroom
    rw [List.foldl_cons]
    obtain hsame | ⟨mm, hnumber, hadd⟩ := hf l rm
    · rw [hsame]
      apply ih h
      omega
    · obtain ⟨hok, hmax⟩ := h.add (by omega) hnumber
      rw [hadd]
      apply ih hok
      omega

theorem mem_foldl_numbering {f : List Multimark → RestoredMark → List Multimark}
    (hf : Numbering f) (h : mm ∈ l) : mm ∈ rml.foldl f l := by
  induction rml generalizing l with
  | nil => exact h
  | cons rm rml ih =>
    rw [List.foldl_cons]
    apply ih
    obtain hsame | ⟨mm', -, hadd⟩ := hf l rm
    · rw [hsame]
      exact h
    · rw [hadd]
      exact List.mem_append_left _ h

theorem foldl_restoreMark (h : rm ∈ rml) : ∃ mm ∈ rml.foldl restoreMark l, mm.note = rm.note := by
  induction rml generalizing l with
  | nil => cases h
  | cons rm' rml ih =>
    rw [List.foldl_cons]
    obtain heq | hrest := List.mem_cons.mp h
    · refine ⟨_, mem_foldl_numbering restoreMark_numbering (List.mem_append_right l
        (List.mem_singleton.mpr rfl)), ?_⟩
      rw [heq]
      rfl
    · exact ih hrest

def Unmixed (notes : List Note) : Prop :=
  ∀ x ∈ notes, ∀ y ∈ notes, strcaseEq x.mark y.mark = true → x = y

instance (notes : List Note) : Decidable (Unmixed notes) :=
  inferInstanceAs (Decidable (∀ x ∈ notes, ∀ y ∈ notes, strcaseEq x.mark y.mark = true → x = y))

theorem Unmixed.mono {notes notes' : List Note} (h : Unmixed notes) (hsub : notes' ⊆ notes) :
    Unmixed notes' :=
  fun x hx y hy => h x (hsub hx) y (hsub hy)

theorem groupMark_note (h : ∀ mm ∈ l, strcaseEq mm.mark rm.mark = true → mm.note = rm.note) :
    ∃ mm ∈ groupMark l rm, mm.note = rm.note := by
  rw [groupMark]
  split
  · next hany =>
    obtain ⟨mm, hmm, hsame⟩ := List.any_eq_true.mp hany
    exact ⟨mm, hmm, h mm hmm hsame⟩
  · exact ⟨_, List.mem_append_right l (List.mem_singleton.mpr rfl), rfl⟩

theorem groupMark_notes :
    (groupMark l rm).map Multimark.note ⊆ l.map Multimark.note ++ [rm.note] := by
  rw [groupMark]
  split
  · exact List.subset_append_left _ _
  · rw [restoreMark, List.map_append]
    exact List.Subset.refl _

theorem foldl_groupMark (h : rm ∈ rml)
    (hunmixed : Unmixed (l.map Multimark.note ++ rml.map RestoredMark.note)) :
    ∃ mm ∈ rml.foldl groupMark l, mm.note = rm.note := by
  induction rml generalizing l with
  | nil => cases h
  | cons rm' rml ih =>
    rw [List.foldl_cons]
    obtain rfl | hrest := List.mem_cons.mp h
    · have hnote : ∃ mm ∈ groupMark l rm, mm.note = rm.note := by
        apply groupMark_note
        intro mm hmm htext
        exact hunmixed mm.note (List.mem_append_left _ (List.mem_map_of_mem hmm)) rm.note
          (List.mem_append_right _ List.mem_cons_self) htext
      obtain ⟨mm, hmm, hsame⟩ := hnote
      exact ⟨mm, mem_foldl_numbering groupMark_numbering hmm, hsame⟩
    · apply ih hrest
      apply hunmixed.mono
      intro note hnote
      obtain hleft | hright := List.mem_append.mp hnote
      · have hone := groupMark_notes hleft
        simp only [List.map_cons, List.mem_append, List.mem_cons, List.not_mem_nil,
          or_false] at hone ⊢
        tauto
      · exact List.mem_append_right _ (List.mem_cons_of_mem _ hright)

end numbers

/-! ### The hooks -/

def migrating (old : OldMark) : Nat := if old.setter.isSome then 1 else 0

structure SameBase (s s' : Store) : Prop where
  base : s'.base = s.base
  uids : s'.uids = s.uids
  dropped : s'.dropped = s.dropped

structure Grows (s s' : Store) : Prop extends SameBase s s' where
  marks : ∀ a, ∀ mm ∈ s.marks a, mm ∈ s'.marks a
  restored : ∀ nick, ∀ rm ∈ s.restoredMarkList nick, rm ∈ s'.restoredMarkList nick

structure ListsOk (s : Store) : Prop where
  numbers : ∀ a, NumbersOk (s.marks a)
  keyed : Keyed s

structure Moved (s s' : Store) (a : Nat) (nick : CString) : Prop extends SameBase s s' where
  marks : ∀ b, ∀ mm ∈ s.marks b, mm ∈ s'.marks b
  others : ∀ nick', strcasecanon nick' ≠ strcasecanon nick →
    s'.restoredMarkList nick' = s.restoredMarkList nick'
  restored : ∀ rm ∈ s.restoredMarkList nick, ∃ mm ∈ s'.marks a, mm.note = rm.note

section hooks
variable {cfg : Config} {s s' : Store} {a : Nat} {nick : CString}

theorem Grows.refl : Grows s s := ⟨⟨rfl, rfl, rfl⟩, fun _ _ h => h, fun _ _ h => h⟩

theorem Grows.trans {s'' : Store} (h : Grows s s') (h' : Grows s' s'') : Grows s s'' where
  base := h'.base.trans h.base
  uids := h'.uids.trans h.uids
  dropped := h'.dropped.trans h.dropped
  marks a mm hmm := h'.marks a mm (h.marks a mm hmm)
  restored nick rm hrm := h'.restored nick rm (h.restored nick rm hrm)

theorem addNumbered_ok (h : ListsOk s) (hroom : numberMax (s.marks a) + 1 < 2 ^ 31)
    {mm : Multimark} (hnumber : mm.number = getMultimarkMax (s.marks a)) :
    Grows s (s.setMarks a (s.marks a ++ [mm])) ∧ ListsOk (s.setMarks a (s.marks a ++ [mm])) := by
  refine ⟨⟨⟨rfl, rfl, rfl⟩, fun b mm' hmm' => ?_, fun _ _ hrm => hrm⟩, fun b => ?_, h.keyed⟩
  · rw [Store.setMarks]
    dsimp only
    split_ifs with hb
    · rw [← hb]
      exact List.mem_append_left _ hmm'
    · exact hmm'
  · rw [Store.setMarks]
    dsimp only
    split_ifs
    · exact ((h.numbers a).add hroom hnumber).1
    · exact h.numbers b

theorem addMark_ok (smu : Nat) (info : CString) (now : Int) (h : ListsOk s)
    (hroom : numberMax (s.marks a) + 1 < 2 ^ 31) :
    Grows s (addMark s smu a info now) ∧ ListsOk (addMark s smu a info now) := by
  rw [addMark]
  split_ifs
  · exact addNumbered_ok h hroom rfl
  · exact ⟨.refl, h⟩

variable (cfg s a) in
theorem migrateUser_cases : migrating (s.old a) = 0 ∧ migrateUser cfg s a = s ∨
    ∃ mm, mm.number = getMultimarkMax (s.marks a) ∧ migrating (s.old a) = 1 ∧
      migrateUser cfg s a = (s.setMarks a (s.marks a ++ [mm])).setOld a .none := by
  rw [migrateUser, migrating]
  cases (s.old a).setter with
  | none => exact .inl ⟨rfl, rfl⟩
  | some setter => exact .inr ⟨_, rfl, rfl, rfl⟩

variable (cfg) in
theorem migrateUser_ok (h : ListsOk s)
    (hroom : numberMax (s.marks a) + migrating (s.old a) < 2 ^ 31) :
    Grows s (migrateUser cfg s a) ∧ ListsOk (migrateUser cfg s a) ∧
      numberMax ((migrateUser cfg s a).marks a) =
        numberMax (s.marks a) + migrating (s.old a) := by
  obtain ⟨hnone, hsame⟩ | ⟨mm, hnumber, hone, hadd⟩ := migrateUser_cases cfg s a
  · rw [hsame, hnone]
    exact ⟨.refl, h, (Int.add_zero _).symm⟩
  · rw [hone] at hroom
    obtain ⟨hgrows, hok⟩ := addNumbered_ok h hroom hnumber
    rw [hadd, hone]
    refine ⟨⟨⟨rfl, rfl, rfl⟩, hgrows.marks, hgrows.restored⟩, ⟨hok.numbers, hok.keyed⟩, ?_⟩
    have hmarks : ((s.setMarks a (s.marks a ++ [mm])).setOld a .none).marks a =
        s.marks a ++ [mm] := if_pos rfl
    rw [hmarks]
    exact ((h.numbers a).add hroom hnumber).2

theorem migrateUser_restored : (migrateUser cfg s a).restoredMarks = s.restoredMarks := by
  obtain ⟨-, hsame⟩ | ⟨mm, -, -, hadd⟩ := migrateUser_cases cfg s a
  · rw [hsame]
  · rw [hadd]
    rfl

/-- An account and its old-style mark after `migrate_user`: together they have as many numbers. -/
theorem migrateUser_room (b : Nat) (h : ListsOk s)
    (hroom : numberMax (s.marks a) + migrating (s.old a) < 2 ^ 31) :
    numberMax ((migrateUser cfg s a).marks b) + migrating ((migrateUser cfg s a).old b) =
      numberMax (s.marks b) + migrating (s.old b) := by
  obtain ⟨-, hsame⟩ | ⟨mm, hnumber, hone, hadd⟩ := migrateUser_cases cfg s a
  · rw [hsame]
  · by_cases hb : b = a
    · have hmax := (migrateUser_ok cfg h hroom).2.2
      have hnone : migrating ((migrateUser cfg s a).old a) = 0 := by
        rw [hadd, Store.setOld]
        dsimp only
        rw [if_pos rfl]
        rfl
      rw [hb, hmax, hnone]
      exact Int.add_zero _
    · rw [hadd]
      simp only [Store.setOld, Store.setMarks, if_neg hb]

variable (cfg) in
theorem foldl_migrateUser {as : List Nat} (h : ListsOk s)
    (hroom : ∀ a ∈ as, numberMax (s.marks a) + migrating (s.old a) < 2 ^ 31) :
    Grows s (as.foldl (migrateUser cfg) s) ∧ ListsOk (as.foldl (migrateUser cfg) s) := by
  induction as generalizing s with
  | nil => exact ⟨.refl, h⟩
  | cons a as ih =>
    have hfirst := hroom a List.mem_cons_self
    obtain ⟨hgrows, hok, -⟩ := migrateUser_ok cfg h hfirst
    have hrest : ∀ b ∈ as, numberMax ((migrateUser cfg s a).marks b) +
        migrating ((migrateUser cfg s a).old b) < 2 ^ 31 := by
      intro b hb
      rw [migrateUser_room b h hfirst]
      exact hroom b (List.mem_cons_of_mem a hb)
    obtain ⟨hgrows', hok'⟩ := ih hok hrest
    exact ⟨hgrows.trans hgrows', hok'⟩

variable (a nick) in
theorem storeMarks_ok (h : ListsOk s) : Grows s (storeMarks s a nick) ∧
    ListsOk (storeMarks s a nick) ∧
    ∀ mm ∈ s.marks a, ∃ rm ∈ (storeMarks s a nick).restoredMarkList nick, rm.note = mm.note := by
  have hlist : ∀ nick', (storeMarks s a nick).restoredMarkList nick' =
      if strcasecanon nick' = strcasecanon nick then s.restoredMarkList nick ++
        (s.marks a).map (storeMark (s.uids a) (s.accountName a) nick)
      else s.restoredMarkList nick' := fun _ => restoredMarkList_setRestored
  refine ⟨⟨⟨rfl, rfl, rfl⟩, fun _ _ hmm => hmm, fun nick' rm hrm => ?_⟩, ⟨h.numbers, ?_⟩,
    fun mm hmm => ?_⟩
  · rw [hlist]
    split_ifs with hkey
    · rw [Store.restoredMarkList, hkey, ← Store.restoredMarkList] at hrm
      exact List.mem_append_left _ hrm
    · exact hrm
  · apply h.keyed.setRestored
    intro rm hrm
    obtain hold | hnew := List.mem_append.mp hrm
    · exact h.keyed.mem hold
    · obtain ⟨mm, -, rfl⟩ := List.mem_map.mp hnew
      rfl
  · rw [hlist, if_pos rfl]
    exact ⟨_, List.mem_append_right _ (List.mem_map_of_mem hmm), rfl⟩

theorem moved_of_foldl {f : List Multimark → RestoredMark → List Multimark} (hf : Numbering f)
    (h : ListsOk s) (hroom : numberMax (s.marks a) + migrating (s.old a) +
      (s.restoredMarkList nick).length < 2 ^ 31)
    (hnotes : ∀ rm ∈ s.restoredMarkList nick,
      ∃ mm ∈ (s.restoredMarkList nick).foldl f ((migrateUser cfg s a).marks a),
        mm.note = rm.note)
    (hs' : s' = ((migrateUser cfg s a).setMarks a (((migrateUser cfg s a).restoredMarkList
      nick).foldl f ((migrateUser cfg s a).marks a))).setRestored nick []) :
    Moved s s' a nick ∧ ListsOk s' := by
  have hfirst : numberMax (s.marks a) + migrating (s.old a) < 2 ^ 31 := by omega
  obtain ⟨hgrows, hok, hmax⟩ := migrateUser_ok cfg h hfirst
  have hlist : ∀ nick', (migrateUser cfg s a).restoredMarkList nick' = s.restoredMarkList nick' := by
    intro nick'
    rw [Store.restoredMarkList, migrateUser_restored, Store.restoredMarkList]
  have hmarks : ∀ b, s'.marks b = if b = a then
      (s.restoredMarkList nick).foldl f ((migrateUser cfg s a).marks a)
      else (migrateUser cfg s a).marks b := by
    intro b
    rw [hs', hlist]
    rfl
  have hlist' : ∀ nick', s'.restoredMarkList nick' =
      if strcasecanon nick' = strcasecanon nick then [] else s.restoredMarkList nick' := by
    intro nick'
    rw [hs', restoredMarkList_setRestored, ← hlist nick']
    rfl
  have hsame : SameBase s s' := by
    rw [hs']
    exact ⟨hgrows.base, hgrows.uids, hgrows.dropped⟩
  refine ⟨⟨hsame, fun b mm hmm => ?_, fun nick' hkey => ?_, fun rm hrm => ?_⟩, fun b => ?_, ?_⟩
  · have hmm' := hgrows.marks b mm hmm
    rw [hmarks]
    split_ifs with hb
    · rw [hb] at hmm'
      exact mem_foldl_numbering hf hmm'
    · exact hmm'
  · rw [hlist', if_neg hkey]
  · rw [hmarks, if_pos rfl]
    exact hnotes rm hrm
  · rw [hmarks]
    split_ifs
    · apply foldl_numbering hf (hok.numbers a)
      omega
    · exact hok.numbers b
  · rw [hs']
    have hkeyed : Keyed ((migrateUser cfg s a).setMarks a (((migrateUser cfg s a).restoredMarkList
        nick).foldl f ((migrateUser cfg s a).marks a))) := hok.keyed
    exact hkeyed.setRestored (List.forall_mem_nil _)

variable (cfg) in
theorem accountRegisterHook_moved (h : ListsOk s) (hroom : numberMax (s.marks a) +
    migrating (s.old a) + (s.restoredMarkList (s.accountName a)).length < 2 ^ 31) :
    Moved s (accountRegisterHook cfg s a) a (s.accountName a) ∧
      ListsOk (accountRegisterHook cfg s a) :=
  moved_of_foldl restoreMark_numbering h hroom (fun _ hrm => foldl_restoreMark hrm) rfl

variable (cfg) in
theorem nickGroupHook_moved (h : ListsOk s) (hroom : numberMax (s.marks a) +
    migrating (s.old a) + (s.restoredMarkList nick).length < 2 ^ 31)
    (hunmixed : Unmixed (((migrateUser cfg s a).marks a).map Multimark.note ++
      (s.restoredMarkList nick).map RestoredMark.note)) :
    Moved s (nickGroupHook cfg s a nick) a nick ∧ ListsOk (nickGroupHook cfg s a nick) :=
  moved_of_foldl groupMark_numbering h hroom (fun _ hrm => foldl_groupMark hrm hunmixed) rfl

end hooks

end ChatServices.NickServ.Marks
