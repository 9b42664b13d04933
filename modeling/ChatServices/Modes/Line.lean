import ChatServices.Modes.Stack

/-! A MODE line is read back as the changes whose letters were written, in their order and with
their parameters. -/
namespace ChatServices.Modes
open ChatServices.Lib.Mask ChatServices.Text ChatServices.ChanServ ChatServices.ChanServ.Channels
  ChatServices.Storage

/-! ### Words -/

def words (text : CString) : List CString := (text.splitOn ' ').filter fun s => s ≠ []

def lineChanges (ircd : Ircd) (text : CString) : List ModeChange :=
  match words text with
  | [] => []
  | pos :: params => parseModes ircd false pos params

def IsArg (s : CString) : Prop := s ≠ [] ∧ ' ' ∉ s

instance (s : CString) : Decidable (IsArg s) := inferInstanceAs (Decidable (_ ∧ _))

def args (ps : List CString) : CString := ps.flatMap fun p => ' ' :: p

theorem args_append (ps qs : List CString) : args (ps ++ qs) = args ps ++ args qs :=
  List.flatMap_append

theorem args_cons (p : CString) (ps : List CString) : args (p :: ps) = ' ' :: (p ++ args ps) := rfl

theorem splitOn_args {pos : CString} (hpos : ' ' ∉ pos) {ps : List CString}
    (hps : ∀ p ∈ ps, ' ' ∉ p) : (pos ++ args ps).splitOn ' ' = pos :: ps := by
  induction ps generalizing pos with
  | nil =>
    rw [args, List.flatMap_nil, List.append_nil]
    exact List.splitOnP_eq_singleton fun c hc => by simpa using fun h : c = ' ' => hpos (h ▸ hc)
  | cons p ps ih =>
    have htail := ih (hps p List.mem_cons_self) fun q hq => hps q (List.mem_cons_of_mem p hq)
    rw [args_cons, List.splitOn_append_cons_self_of_not_mem hpos, htail]

theorem words_args {pos : CString} (hpos : IsArg pos) {ps : List CString} (hps : ∀ p ∈ ps, IsArg p) :
    words (pos ++ args ps) = pos :: ps := by
  rw [words, splitOn_args hpos.2 fun p hp => (hps p hp).2, List.filter_eq_self]
  intro p hp
  obtain rfl | hp := List.mem_cons.mp hp
  · simpa using hpos.1
  · simpa using (hps p hp).1

/-! ### Letters -/

section letters
variable (t : Tables)

/-- The letters in the buffer stand for `xs`, and eat the parameters `ps`. -/
structure Wrote (b : Buf) (xs : List ModeChange) (ps : List CString) (n : Nat) : Prop where
  reads : ∀ rest params, parseModes t.toIrcd false (b.text ++ rest) (ps ++ params) =
    xs ++ parseModes t.toIrcd (b.dir.getD false) rest params
  clean : ' ' ∉ b.text
  start : b.text = [] ∧ b.dir = none ∨ ∃ add s, b.text = signOf add :: s ∧ b.dir ≠ none
  length_le : b.text.length ≤ n

variable {t}

theorem Wrote.empty : Wrote t ⟨[], none⟩ [] [] 0 :=
  ⟨fun _ _ => rfl, List.not_mem_nil, .inl ⟨rfl, rfl⟩, le_refl _⟩

theorem Wrote.mono {b : Buf} {xs : List ModeChange} {ps : List CString} {n m : Nat}
    (h : Wrote t b xs ps n) (hle : n ≤ m) : Wrote t b xs ps m :=
  ⟨h.reads, h.clean, h.start, h.length_le.trans hle⟩

theorem turn_dir (add : Bool) (b : Buf) : (b.turn add).dir = some add := by
  rw [Buf.turn]
  split_ifs with hdir
  · rfl
  · simpa using hdir

theorem Wrote.turn {b : Buf} {xs : List ModeChange} {ps : List CString} {n : Nat}
    (h : Wrote t b xs ps n) (add : Bool) : Wrote t (b.turn add) xs ps (n + 1) := by
  rw [Buf.turn]
  split_ifs
  · refine ⟨?_, ?_, ?_, ?_⟩
    · intro rest params
      rw [List.append_assoc, h.reads]
      cases add <;> rfl
    · cases add <;> simpa [signOf] using h.clean
    · right
      obtain ⟨htext, -⟩ | ⟨add', s, htext, -⟩ := h.start
      · exact ⟨add, [], by rw [htext]; rfl, Option.some_ne_none _⟩
      · exact ⟨add', s ++ [signOf add], by rw [htext]; rfl, Option.some_ne_none _⟩
    · have hle := h.length_le
      simp only [List.length_append, List.length_cons, List.length_nil]
      omega
  · exact h.mono (by omega)

theorem Wrote.letter {b : Buf} {xs xs' : List ModeChange} {ps ps' : List CString} {n : Nat} {c : Char}
    {add : Bool} (h : Wrote t b xs ps n) (hdir : b.dir = some add) (hc : ¬ IsMark c)
    (hparse : ∀ params, parseMode t.toIrcd add c (ps' ++ params) = (xs', params)) :
    Wrote t (b.letter c) (xs ++ xs') (ps ++ ps') (n + 1) := by
  have hplus : c ≠ '+' := fun he => hc (.inl he)
  have hminus : c ≠ '-' := fun he => hc (.inr (.inl he))
  have hblank : c ≠ ' ' := fun he => hc (.inr (.inr he))
  have hadd : b.dir.getD false = add := by
    rw [hdir]
    rfl
  refine ⟨?_, ?_, ?_, ?_⟩
  · intro rest params
    have hstep : parseModes t.toIrcd add (c :: rest) (ps' ++ params) =
        xs' ++ parseModes t.toIrcd add rest params := by
      rw [parseModes, if_neg hplus, if_neg hminus, hparse]
    simp only [Buf.letter, List.append_assoc, List.singleton_append, h.reads, hadd, hstep]
  · simpa [Buf.letter] using ⟨h.clean, Ne.symm hblank⟩
  · right
    obtain ⟨-, hnone⟩ | ⟨add', s, htext, -⟩ := h.start
    · rw [hnone] at hdir
      cases hdir
    · refine ⟨add', s ++ [c], ?_, ?_⟩
      · rw [Buf.letter, htext]
        rfl
      · rw [Buf.letter, hdir]
        exact Option.some_ne_none _
  · have hle := h.length_le
    simp only [Buf.letter, List.length_append, List.length_cons, List.length_nil]
    omega

theorem put_eq {s : CString} {b : Buf} (h : b.text.length + s.length ≤ 511) :
    b.put s = { b with text := b.text ++ s } := by
  rw [Buf.put, List.take_of_length_le (by omega)]

theorem Wrote.simples {b : Buf} {xs : List ModeChange} {ps : List CString} {n : Nat} {add : Bool}
    (h : Wrote t b xs ps n) (hdir : b.dir = some add) (l : List (Char × Flags))
    (hl : ∀ m ∈ l, m ∈ t.modeList) :
    Wrote t { b with text := b.text ++ l.map Prod.fst } (xs ++ l.map fun m => .simple add m.2) ps
      (n + l.length) := by
  induction l generalizing b xs ps n with
  | nil => simpa using h
  | cons m l ih =>
    have hm := hl m List.mem_cons_self
    have hmark : ¬ IsMark m.1 := t.letters_apart.2.2.1 m.1 (List.mem_map_of_mem hm)
    have hone : Wrote t (b.letter m.1) (xs ++ [.simple add m.2]) (ps ++ []) (n + 1) :=
      h.letter hdir hmark (t.parseMode_simple hm add)
    have hrest := ih hone hdir fun m' hm' => hl m' (List.mem_cons_of_mem m hm')
    simp only [Buf.letter, List.append_assoc, List.singleton_append, List.append_nil] at hrest
    rw [List.map_cons, List.map_cons, List.length_cons]
    exact hrest.mono (by omega)

end letters

/-! ### The line of a stack -/

/-- A change that waits in `pmodes` and `params`. -/
structure Item where
  add : Bool
  type : Char
  value : CString

def pmodesText : Option Bool → List Item → CString
  | _, [] => []
  | dir, p :: items =>
    (if dir ≠ some p.add then [signOf p.add, p.type] else [p.type]) ++ pmodesText (some p.add) items

section line
variable {κ : Type*} (t : Tables)

def itemChanges (p : Item) : List ModeChange := (parseMode t.toIrcd p.add p.type [p.value]).1

def limitPending (add : Bool) (md : Modestackdata κ) : Prop :=
  md.limitused = true ∧ (md.limit ≠ 0 ↔ add = true)

instance (add : Bool) (md : Modestackdata κ) : Decidable (limitPending add md) :=
  inferInstanceAs (Decidable (_ ∧ _))

def limitChange (add : Bool) (md : Modestackdata κ) : List ModeChange :=
  if limitPending add md then [.limit (if add then some (natArg md.limit.toNat) else none)] else []

def limitArg (add : Bool) (md : Modestackdata κ) : List CString :=
  if limitPending add md ∧ add = true then [natArg md.limit.toNat] else []

def pendingExts (add : Bool) (md : Modestackdata κ) : List Nat :=
  (List.range (ignoreModeListSize t)).filter fun i =>
    md.extmodesused i ∧ (md.extmodes i ≠ [] ↔ add = true)

def extChange (add : Bool) (md : Modestackdata κ) (i : Nat) : ModeChange :=
  .ext i (if add then some (md.extmodes i) else none)

def extArg (add : Bool) (md : Modestackdata κ) (i : Nat) : List CString :=
  if add then [md.extmodes i] else []

def modeChanges (add : Bool) (flags : Flags) (md : Modestackdata κ) : List ModeChange :=
  t.simples add flags ++ (limitChange add md ++ (pendingExts t add md).map (extChange add md))

def modeArgs (add : Bool) (md : Modestackdata κ) : List CString :=
  limitArg add md ++ (pendingExts t add md).flatMap (extArg add md)

variable {t} {md : Modestackdata κ}

variable (md) in
theorem Wrote.exts {b : Buf} {xs : List ModeChange} {ps : List CString} {n : Nat} (add : Bool)
    (c : Nat → Prop) [DecidablePred c] (h : Wrote t b xs ps n) (l : List Nat)
    (hl : ∀ i ∈ l, c i → i < t.ignoreModeList.length) :
    Wrote t (l.foldl (fun b i => if c i then (b.turn add).letter (extLetter t i) else b) b)
      (xs ++ (l.filter fun i => c i).map (extChange add md))
      (ps ++ (l.filter fun i => c i).flatMap (extArg add md)) (n + 2 * (l.filter fun i => c i).length) := by
  induction l generalizing b xs ps n with
  | nil => simpa using h
  | cons i l ih =>
    have hrest : ∀ j ∈ l, c j → j < t.ignoreModeList.length :=
      fun j hj => hl j (List.mem_cons_of_mem i hj)
    rw [List.foldl_cons]
    by_cases hc : c i
    · have hi := hl i List.mem_cons_self hc
      have hmem := List.getElem_mem hi
      have hletter : extLetter t i = t.ignoreModeList[i] := by
        rw [extLetter, List.getElem?_eq_getElem hi, Option.getD_some]
      have hmark : ¬ IsMark (extLetter t i) := hletter ▸ (t.letters_apart.2.1 _ hmem).2
      have hparse : ∀ params, parseMode t.toIrcd add (extLetter t i) (extArg add md i ++ params) =
          ([extChange add md i], params) := by
        intro params
        have hext := t.parseMode_ext hi params
        rw [hletter]
        cases add
        · exact hext.1
        · exact hext.2 (md.extmodes i)
      have hone := (h.turn add).letter (turn_dir add b) hmark hparse
      rw [if_pos hc, List.filter_cons_of_pos (by simpa using hc), List.map_cons, List.flatMap_cons,
        List.length_cons]
      have hall := (ih hone hrest).mono (m := n + 2 * ((l.filter fun i => c i).length + 1)) (by omega)
      simpa only [List.append_assoc, List.singleton_append] using hall
    · rw [if_neg hc, List.filter_cons_of_neg (by simpa using hc)]
      exact ih h hrest

variable (md) in
theorem Wrote.flushLetters {b : Buf} {xs : List ModeChange} {ps : List CString} {n : Nat} (add : Bool)
    (flags : Flags) (h : Wrote t b xs ps n) (hn : n ≤ 400)
    (hexts : ∀ i, md.extmodesused i = true → i < t.ignoreModeList.length) :
    Wrote t (flushLetters t add flags md b) (xs ++ modeChanges t add flags md) (ps ++ modeArgs t add md)
      (n + 34 + 2 * (pendingExts t add md).length) := by
  -- the simple modes
  have hsimple : Wrote t (if flags ≠ 0#32 then (b.turn add).put (flagsToString t flags) else b)
      (xs ++ t.simples add flags) ps (n + 32) := by
    split_ifs with hflags
    · have hturn := h.turn add
      have hshort := t.simple_short
      have hfilter := List.length_filter_le (fun m : Char × Flags => test flags m.2) t.modeList
      have hlen := hturn.length_le
      have hput : (b.turn add).put (flagsToString t flags) = { (b.turn add) with
          text := (b.turn add).text ++ flagsToString t flags } := by
        apply put_eq
        rw [flagsToString, List.length_map]
        omega
      rw [hput]
      exact (hturn.simples (turn_dir add b) _ fun m hm => (List.mem_filter.mp hm).1).mono (by omega)
    · have hnone : t.simples add flags = [] := by
        rw [Tables.simples, not_not.mp hflags]
        simp
      rw [hnone, List.append_nil]
      exact h.mono (by omega)
  -- the limit
  have hlimit : ∀ b' xs, Wrote t b' xs ps (n + 32) →
      Wrote t (if limitPending add md then (b'.turn add).letter 'l' else b') (xs ++ limitChange add md)
        (ps ++ limitArg add md) (n + 34) := by
    intro b' xs h
    by_cases hl : limitPending add md
    · rw [if_pos hl, limitChange, if_pos hl, limitArg]
      apply (h.turn add).letter (turn_dir add b')
      · rintro (he | he | he)
        all_goals exact absurd he (by decide)
      · intro params
        have hparse := t.parseMode_limit params
        cases add
        · simp only [Bool.false_eq_true, and_false, if_false]
          exact hparse.1
        · simp only [hl, and_self, if_true]
          exact hparse.2 (natArg md.limit.toNat)
    · rw [if_neg hl, limitChange, if_neg hl, limitArg, if_neg fun h => hl h.1, List.append_nil,
        List.append_nil]
      exact h.mono (by omega)
  have hall := (hlimit _ _ hsimple).exts md add
    (fun i => md.extmodesused i ∧ (md.extmodes i ≠ [] ↔ add = true))
    (List.range (ignoreModeListSize t)) fun i _ hi => hexts i hi.1
  simp only [List.append_assoc] at hall
  exact hall

/-! Then come the letters of the items, and all the parameters. -/

theorem pmodesText_fold (items : List Item) (b : Buf) :
    (items.foldl (fun b p => (b.turn p.add).letter p.type) b).text =
      b.text ++ pmodesText b.dir items := by
  induction items generalizing b with
  | nil => simp [pmodesText]
  | cons p items ih =>
    have hdir : ((b.turn p.add).letter p.type).dir = some p.add := turn_dir p.add b
    rw [List.foldl_cons, ih, pmodesText, hdir, Buf.turn, Buf.letter]
    split_ifs <;> simp

theorem Wrote.items {b : Buf} {xs : List ModeChange} {ps : List CString} {n : Nat}
    (h : Wrote t b xs ps n) (items : List Item) (hitems : ∀ p ∈ items, t.IsParam p.type) :
    Wrote t (items.foldl (fun b p => (b.turn p.add).letter p.type) b)
      (xs ++ items.flatMap (itemChanges t)) (ps ++ items.map Item.value) (n + 2 * items.length) := by
  induction items generalizing b xs ps n with
  | nil => simpa using h
  | cons p items ih =>
    have hp := hitems p List.mem_cons_self
    have hmark : ¬ IsMark p.type := (t.letters_apart.2.2.2.2 p.type hp).2.2.2
    have hparse : ∀ params, parseMode t.toIrcd p.add p.type ([p.value] ++ params) =
        (itemChanges t p, params) := by
      intro params
      obtain ⟨x, -, hx⟩ := t.parseMode_param hp p.add p.value
      rw [itemChanges, List.singleton_append, hx, hx]
    have hone := (h.turn p.add).letter (turn_dir p.add b) hmark hparse
    have hall := (ih hone fun q hq => hitems q (List.mem_cons_of_mem p hq)).mono
      (m := n + 2 * (items.length + 1)) (by omega)
    rw [List.foldl_cons, List.flatMap_cons, List.map_cons, List.length_cons]
    simpa only [List.append_assoc, List.singleton_append] using hall

theorem drop_pmodesText (dir : Option Bool) (items : List Item) :
    (pmodesText none items).drop (if (dir = some true ∧ (pmodesText none items).head? = some '+') ∨
      (dir = some false ∧ (pmodesText none items).head? = some '-') then 1 else 0) =
      pmodesText dir items := by
  cases items with
  | nil => simp [pmodesText]
  | cons p items =>
    have hnone : (none : Option Bool) ≠ some p.add := (Option.some_ne_none _).symm
    simp only [pmodesText, if_pos hnone, List.cons_append, List.head?_cons, Option.some.injEq,
      List.nil_append]
    obtain rfl | rfl | rfl : dir = none ∨ dir = some true ∨ dir = some false := by
      cases dir with
      | none => exact .inl rfl
      | some add => cases add <;> simp
    all_goals cases p.add <;> simp [signOf]

theorem length_pmodesText_le (items : List Item) (dir : Option Bool) :
    (pmodesText dir items).length ≤ 2 * items.length := by
  induction items generalizing dir with
  | nil => exact le_refl _
  | cons p items ih =>
    have hrest := ih (some p.add)
    rw [pmodesText, List.length_append, List.length_cons]
    split_ifs <;> simp only [List.length_cons, List.length_nil] <;> omega

theorem put_args (ps : List CString) (b : Buf) (h : b.text.length + (args ps).length ≤ 511) :
    (ps.foldl (fun b p => b.put (' ' :: p)) b).text = b.text ++ args ps := by
  induction ps generalizing b with
  | nil => simp [args]
  | cons p ps ih =>
    rw [args_cons, List.length_cons, List.length_append] at h
    have hput : b.put (' ' :: p) = { b with text := b.text ++ ' ' :: p } :=
      put_eq (by rw [List.length_cons]; omega)
    have hrest := ih (b.put (' ' :: p)) (by
      rw [hput, List.length_append, List.length_cons]
      omega)
    rw [List.foldl_cons, hrest, hput, args_cons]
    simp

end line

end ChatServices.Modes
