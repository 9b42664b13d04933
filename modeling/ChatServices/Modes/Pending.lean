import ChatServices.Modes.Line

/-! What a stack holds back, as a list of changes, and that a flush sends just that. -/
namespace ChatServices.Modes
open ChatServices.Lib.Mask ChatServices.Text ChatServices.ChanServ ChatServices.ChanServ.Channels
  ChatServices.Storage

section stack
variable {κ : Type*} (t : Tables)

def pending (md : Modestackdata κ) (items : List Item) : List ModeChange :=
  modeChanges t false md.modesOff md ++ modeChanges t true md.modesOn md ++ items.flatMap (itemChanges t)

def usedExts (md : Modestackdata κ) : List Nat :=
  (List.range (ignoreModeListSize t)).filter md.extmodesused

def extLength (md : Modestackdata κ) (i : Nat) : Nat :=
  if md.extmodes i = [] then 0 else 1 + (md.extmodes i).length

/-- What `modestack_calclen` takes the parameters to need. -/
def paramsLength (md : Modestackdata κ) : Nat :=
  (if md.limitused ∧ md.limit ≠ 0 then 11 else 0) + ((usedExts t md).map (extLength md)).sum +
    md.params.length

structure StackOk (md : Modestackdata κ) (items : List Item) : Prop where
  pmodes : md.pmodes = pmodesText none items
  params : md.params = args (items.map Item.value)
  items_ok : ∀ p ∈ items, t.IsParam p.type ∧ IsArg p.value
  exts : ∀ i, md.extmodesused i = true → i < t.ignoreModeList.length
  extmodes : ∀ i, md.extmodesused i = true → ' ' ∉ md.extmodes i
  count : md.limitused.toNat + (usedExts t md).length + items.length ≤ maxModes
  room : paramsLength t md ≤ 385
  stale : md.totalparamslen ≤ 385

variable {t} {md : Modestackdata κ} {items : List Item}

/-! ### The parameters -/

theorem length_natArg_le (n : BitVec 32) : (natArg n.toNat).length ≤ 10 := by
  rw [natArg_eq]
  exact (Nat.length_toDigits_le_iff (by omega) (by omega)).mpr (by have := n.isLt; omega)

theorem limitPending_true : limitPending true md ↔ md.limitused = true ∧ md.limit ≠ 0 := by
  simp [limitPending]

theorem isArg_natArg (n : Nat) : IsArg (natArg n) := by
  refine ⟨natArg_ne_nil n, ?_⟩
  intro h
  exact absurd (isDigit_of_mem_natArg h) (by decide)

theorem isArg_modeArgs (h : StackOk t md items) (add : Bool) : ∀ p ∈ modeArgs t add md, IsArg p := by
  intro p hp
  obtain hp | hp := List.mem_append.mp hp
  · rw [limitArg] at hp
    split_ifs at hp
    · rw [List.mem_singleton.mp hp]
      exact isArg_natArg _
    · cases hp
  · obtain ⟨i, hi, hp⟩ := List.mem_flatMap.mp hp
    rw [pendingExts, List.mem_filter, decide_eq_true_eq] at hi
    cases add
    · cases hp
    · rw [extArg, if_pos rfl, List.mem_singleton] at hp
      exact hp ▸ ⟨hi.2.2.mpr rfl, h.extmodes i hi.2.1⟩

variable (md) in
theorem length_args_exts (l : List Nat) :
    (args ((l.filter fun i => md.extmodesused i ∧ (md.extmodes i ≠ [] ↔ true = true)).flatMap
      (extArg true md))).length = ((l.filter md.extmodesused).map (extLength md)).sum := by
  induction l with
  | nil => rfl
  | cons i l ih =>
    by_cases hu : md.extmodesused i = true
    · rw [List.filter_cons_of_pos hu, List.map_cons, List.sum_cons, ← ih, extLength]
      by_cases he : md.extmodes i = []
      · rw [if_pos he, List.filter_cons_of_neg (by simp [he]), Nat.zero_add]
      · rw [if_neg he, List.filter_cons_of_pos (by simp [hu, he]), List.flatMap_cons, args_append,
          List.length_append, extArg, if_pos rfl, args_cons]
        simp [args, Nat.add_comm]
    · rw [List.filter_cons_of_neg (by simp [hu]), List.filter_cons_of_neg hu, ih]

theorem length_args_le (h : StackOk t md items) :
    (args (modeArgs t true md ++ items.map Item.value)).length ≤ paramsLength t md := by
  have hexts := length_args_exts md (List.range (ignoreModeListSize t))
  have hlimit : (args (limitArg true md)).length ≤ if md.limitused ∧ md.limit ≠ 0 then 11 else 0 := by
    have hdigits := length_natArg_le md.limit
    by_cases hl : md.limitused = true ∧ md.limit ≠ 0
    · rw [if_pos hl, limitArg, if_pos ⟨limitPending_true.mpr hl, rfl⟩, args_cons]
      simp only [args, List.flatMap_nil, List.append_nil, List.length_cons]
      omega
    · rw [if_neg hl, limitArg, if_neg fun h => hl (limitPending_true.mp h.1)]
      exact le_refl _
  rw [args_append, modeArgs, args_append, ← h.params, List.length_append, List.length_append,
    paramsLength]
  have hsum : (args ((pendingExts t true md).flatMap (extArg true md))).length =
      ((usedExts t md).map (extLength md)).sum := hexts
  omega

theorem flushParams_text (h : StackOk t md items) (b : Buf)
    (hroom : b.text.length + paramsLength t md ≤ 511) :
    (flushParams t md b).text = b.text ++ args (modeArgs t true md ++ items.map Item.value) := by
  have hlen := length_args_le h
  have hlimit : (if md.limitused ∧ md.limit ≠ 0 then b.put (' ' :: natArg md.limit.toNat) else b) =
      (limitArg true md).foldl (fun b p => b.put (' ' :: p)) b := by
    by_cases hl : md.limitused = true ∧ md.limit ≠ 0
    · rw [if_pos hl, limitArg, if_pos ⟨limitPending_true.mpr hl, rfl⟩]
      rfl
    · rw [if_neg hl, limitArg, if_neg fun h => hl (limitPending_true.mp h.1)]
      rfl
  have hexts : ∀ b : Buf, (List.range (ignoreModeListSize t)).foldl (fun b i =>
      if md.extmodesused i ∧ md.extmodes i ≠ [] then b.put (' ' :: md.extmodes i) else b) b =
      ((pendingExts t true md).flatMap (extArg true md)).foldl (fun b p => b.put (' ' :: p)) b := by
    intro b
    have hsingle : (pendingExts t true md).flatMap (extArg true md) =
        (pendingExts t true md).map md.extmodes := by
      rw [List.map_eq_flatMap]
      rfl
    rw [hsingle, List.foldl_map, pendingExts, List.foldl_filter]
    simp
  rw [args_append, ← h.params] at hlen ⊢
  rw [List.length_append] at hlen
  rw [flushParams]
  simp only [hlimit, hexts, ← List.foldl_append]
  have hmodes := put_args (modeArgs t true md) b (by omega)
  rw [modeArgs] at hmodes
  split_ifs with hparams
  · rw [put_eq (by rw [hmodes, List.length_append]; exact (by rw [modeArgs] at hlen; omega))]
    simp only [hmodes, modeArgs, List.append_assoc]
  · rw [hmodes, not_not.mp hparams, List.append_nil, modeArgs]

/-! ### The flush -/

variable (t md) in
theorem pendingExts_length_le (add : Bool) : (pendingExts t add md).length ≤ (usedExts t md).length := by
  have hsub : ∀ l : List Nat, (l.filter fun i => md.extmodesused i ∧ (md.extmodes i ≠ [] ↔ add = true)).length ≤
      (l.filter md.extmodesused).length := by
    intro l
    rw [← List.countP_eq_length_filter, ← List.countP_eq_length_filter]
    apply List.countP_mono_left
    intro i _ hi
    exact (of_decide_eq_true hi).1
  exact hsub _

theorem modeArgs_false : modeArgs t false md = [] := by
  rw [modeArgs, limitArg, if_neg (by simp), List.nil_append, List.flatMap_eq_nil_iff]
  intro i _
  rfl

theorem wrote_line (h : StackOk t md items) :
    ∃ b, Wrote t b (pending t md items) (modeArgs t true md ++ items.map Item.value) 92 ∧
      (flushPmodes md (flushLetters t true md.modesOn md
        (flushLetters t false md.modesOff md ⟨[], none⟩))).text = b.text := by
  have hcount := h.count
  have hfalse := pendingExts_length_le t md false
  have htrue := pendingExts_length_le t md true
  rw [maxModes] at hcount
  have hoff := (Wrote.empty (t := t)).flushLetters md false md.modesOff (by omega) h.exts
  have hon := hoff.flushLetters md true md.modesOn (by omega) h.exts
  have hitems := hon.items items fun p hp => (h.items_ok p hp).1
  rw [modeArgs_false] at hitems
  refine ⟨_, hitems.mono (by omega), ?_⟩
  have hlen := hon.length_le
  have hpmodes := length_pmodesText_le items (flushLetters t true md.modesOn md
    (flushLetters t false md.modesOff md ⟨[], none⟩)).dir
  rw [pmodesText_fold, flushPmodes, h.pmodes, drop_pmodesText, put_eq (by omega)]

theorem flush_line (h : StackOk t md items) :
    flush t md = (md, []) ∧ pending t md items = [] ∨
    ∃ text, flush t md = (clear t md, [.mode md.source md.channel text]) ∧
      lineChanges t.toIrcd text = pending t md items ∧
      ∀ v ch, channelMode t.toIrcd v ch (words text) = changes v ch (pending t md items) := by
  obtain ⟨b, hb, htext⟩ := wrote_line h
  have hlen := hb.length_le
  have hroom := h.room
  have hstale := h.stale
  have hread := hb.reads [] []
  rw [List.append_nil, List.append_nil, parseModes.eq_1, List.append_nil] at hread
  obtain ⟨hnil, -⟩ | ⟨add, s, hstart, -⟩ := hb.start
  · left
    rw [hnil, parseModes.eq_1] at hread
    refine ⟨?_, hread.symm⟩
    simp only [flush, htext, hnil, if_true]
  · right
    have hne : b.text ≠ [] := by
      rw [hstart]
      exact List.cons_ne_nil _ _
    have hpos : IsArg b.text := ⟨hne, hb.clean⟩
    have hargs : ∀ p ∈ modeArgs t true md ++ items.map Item.value, IsArg p := by
      intro p hp
      obtain hp | hp := List.mem_append.mp hp
      · exact isArg_modeArgs h true p hp
      · obtain ⟨q, hq, rfl⟩ := List.mem_map.mp hp
        exact (h.items_ok q hq).2
    have hwords := words_args hpos hargs
    refine ⟨b.text ++ args (modeArgs t true md ++ items.map Item.value), ?_, ?_, ?_⟩
    · have hfits : ¬ b.text.length + md.totalparamslen ≥ 512 := by omega
      simp only [flush, htext, if_neg hne, if_neg hfits]
      rw [flushParams_text h _ (by rw [htext]; omega), htext]
    · simp only [lineChanges, hwords, hread]
    · intro v ch
      have hsign : ¬ (b.text.head? = none ∨ b.text.head? = some '0') := by
        rw [hstart]
        cases add <;> simp [signOf]
      simp only [channelMode, hwords, if_neg hsign, hread]

end stack

end ChatServices.Modes
