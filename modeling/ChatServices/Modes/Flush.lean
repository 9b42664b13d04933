import ChatServices.Modes.Overlay

/-! A flush in the course of a call sends what was held back, and leaves room for one change. -/
namespace ChatServices.Modes
open ChatServices.Lib.Mask ChatServices.Text ChatServices.ChanServ ChatServices.ChanServ.Channels
  ChatServices.Storage

def parameterised : ModeChange → Bool
  | .simple .. => false
  | .ext .. | .limit _ | .key _ | .banlike .. | .status .. => true

section flush
variable {κ : Type*} (t : Tables)

def deliverTo (v : View) (ch : Channel) (out : List (Sent κ)) : Channel :=
  out.foldl (fun ch s =>
    match s with
    | .mode _ _ text => channelMode t.toIrcd v ch (words text)
    | .overflow _ => ch) ch

/-- A line for the channel, with at most `MAXMODES` modes that count. -/
def ModeLine (channel : Option κ) (s : Sent κ) : Prop :=
  ∃ source text, s = .mode source channel text ∧
    (lineChanges t.toIrcd text).countP parameterised ≤ maxModes

/-- The lines of a step and what is held back after it come to what was held back before, and then
the changes `xs`. -/
structure Sends (md : Modestackdata κ) (items : List Item) (md' : Modestackdata κ) (items' : List Item)
    (out : List (Sent κ)) (xs : List ModeChange) : Prop where
  ok : StackOk t md' items'
  channel : md'.channel = md.channel
  held : ∀ v ch, held t md' v items' (deliverTo t v ch out) = changes v (held t md v items ch) xs
  lines : ∀ s ∈ out, ModeLine t md.channel s

variable {t} {md : Modestackdata κ} {items : List Item}

theorem StackOk.sends (h : StackOk t md items) : Sends t md items md items [] [] :=
  ⟨h, rfl, fun _ _ => rfl, by simp⟩

theorem Sends.trans {md' md'' : Modestackdata κ} {items' items'' : List Item} {out out' : List (Sent κ)}
    {xs xs' : List ModeChange} (h : Sends t md items md' items' out xs)
    (h' : Sends t md' items' md'' items'' out' xs') :
    Sends t md items md'' items'' (out ++ out') (xs ++ xs') := by
  refine ⟨h'.ok, h'.channel.trans h.channel, ?_, ?_⟩
  · intro v ch
    rw [deliverTo, List.foldl_append, ← deliverTo, ← deliverTo, h'.held, h.held, changes_append]
  · intro s hs
    obtain hs | hs := List.mem_append.mp hs
    · exact h.lines s hs
    · exact h.channel ▸ h'.lines s hs

/-! ### Nothing left -/

theorem pendingExts_eq (add : Bool) : pendingExts t add md =
    (usedExts t md).filter fun i => decide (md.extmodes i ≠ [] ↔ add = true) := by
  rw [pendingExts, usedExts, List.filter_filter]
  apply List.filter_congr
  intro i _
  rw [Bool.decide_and, Bool.decide_eq_true, Bool.and_comm]

theorem itemChanges_single {p : Item} (hp : t.IsParam p.type) :
    ∃ x, itemChanges t p = [x] ∧ listed x = true := by
  obtain ⟨x, hx, hparse⟩ := t.parseMode_param hp p.add p.value
  exact ⟨x, by rw [itemChanges, hparse], hx⟩

theorem StackOk.drained (h : StackOk t md items) (hp : pending t md items = []) :
    items = [] ∧ md.limitused = false ∧ (∀ i, md.extmodesused i = false) ∧ paramsLength t md = 0 := by
  simp only [pending, modeChanges, List.append_eq_nil_iff, List.map_eq_nil_iff,
    List.flatMap_eq_nil_iff] at hp
  obtain ⟨⟨⟨-, hlimit, hexts⟩, -, hlimit', hexts'⟩, hitems⟩ := hp
  have hnil : items = [] := by
    cases items with
    | nil => rfl
    | cons p items =>
      obtain ⟨x, hx, -⟩ := itemChanges_single (h.items_ok p List.mem_cons_self).1
      rw [hitems p List.mem_cons_self] at hx
      cases hx
  have hnone : md.limitused = false := by
    by_contra hl
    rw [Bool.not_eq_false] at hl
    by_cases hz : md.limit = 0
    · rw [limitChange, if_pos ⟨hl, by rw [hz]; decide⟩] at hlimit
      cases hlimit
    · rw [limitChange, if_pos ⟨hl, fun _ => rfl, fun _ => hz⟩] at hlimit'
      cases hlimit'
  have hused : usedExts t md = [] := by
    rw [List.eq_nil_iff_forall_not_mem]
    intro i hi
    by_cases he : md.extmodes i = []
    · have hmem : i ∈ pendingExts t false md := by
        rw [pendingExts_eq, List.mem_filter, decide_eq_true_eq, he]
        exact ⟨hi, by decide⟩
      rw [hexts] at hmem
      cases hmem
    · have hmem : i ∈ pendingExts t true md := by
        rw [pendingExts_eq, List.mem_filter, decide_eq_true_eq]
        exact ⟨hi, fun _ => rfl, fun _ => he⟩
      rw [hexts'] at hmem
      cases hmem
  refine ⟨hnil, hnone, ?_, ?_⟩
  · intro i
    by_contra hi
    rw [Bool.not_eq_false] at hi
    have hlt := h.exts i hi
    have hmem : i ∈ usedExts t md := by
      rw [usedExts, List.mem_filter, List.mem_range, ignoreModeListSize]
      exact ⟨by omega, hi⟩
    rw [hused] at hmem
    cases hmem
  · have hparams := h.params
    rw [hnil] at hparams
    rw [paramsLength, hused, hnone, hparams]
    rfl

theorem clear_ok (h : ∀ i, md.extmodesused i = true → i < t.ignoreModeList.length) :
    StackOk t (clear t md) [] ∧ pending t (clear t md) [] = [] := by
  have hext : ∀ i, (clear t md).extmodesused i = false := by
    intro i
    show (if i < ignoreModeListSize t then false else md.extmodesused i) = false
    split_ifs with hi
    · rfl
    · by_contra hu
      rw [Bool.not_eq_false] at hu
      have hlt := h i hu
      rw [ignoreModeListSize] at hi
      omega
  have hused : usedExts t (clear t md) = [] := by
    rw [usedExts, List.filter_eq_nil_iff]
    intro i _
    rw [hext i]
    exact Bool.false_ne_true
  have hnever : ∀ i, (clear t md).extmodesused i ≠ true := by
    intro i
    rw [hext i]
    exact Bool.false_ne_true
  refine ⟨⟨rfl, rfl, by simp, fun i hi => absurd hi (hnever i), fun i hi => absurd hi (hnever i),
    ?_, ?_, Nat.zero_le _⟩, ?_⟩
  · rw [hused]
    exact Nat.zero_le _
  · rw [paramsLength, hused]
    exact Nat.zero_le _
  · have hlimit : ∀ add, limitChange add (clear t md) = [] := fun add => if_neg fun h => Bool.noConfusion h.1
    have hpending : ∀ add, pendingExts t add (clear t md) = [] := by
      intro add
      rw [pendingExts_eq, hused]
      rfl
    have hsimple : ∀ add, t.simples add 0#32 = [] := by
      intro add
      rw [Tables.simples]
      simp
    simp only [pending, modeChanges, hlimit, hpending, List.map_nil, List.flatMap_nil, List.append_nil]
    show t.simples false 0#32 ++ t.simples true 0#32 = []
    rw [hsimple, hsimple]
    rfl

/-! ### What a line counts -/

theorem pending_countP_le (h : StackOk t md items) :
    (pending t md items).countP parameterised ≤ maxModes := by
  have hcount := h.count
  have hsimple : ∀ add flags, (t.simples add flags).countP parameterised = 0 := by
    intro add flags
    rw [List.countP_eq_zero]
    intro x hx
    obtain ⟨m, -, rfl⟩ := List.mem_map.mp hx
    exact Bool.false_ne_true
  have hexts : (pendingExts t true md).length + (pendingExts t false md).length =
      (usedExts t md).length := by
    rw [pendingExts_eq, pendingExts_eq, List.length_eq_length_filter_add (l := usedExts t md)
      fun i => decide (md.extmodes i ≠ [] ↔ true = true)]
    congr 2
    apply List.filter_congr
    intro i _
    by_cases he : md.extmodes i = [] <;> simp [he]
  have hlimit : (limitChange true md).length + (limitChange false md).length ≤ md.limitused.toNat := by
    by_cases hl : md.limitused = true
    · by_cases hz : md.limit = 0
      · have htrue : ¬ limitPending true md := fun h => h.2.mpr rfl hz
        rw [limitChange, if_neg htrue, limitChange, hl]
        split_ifs <;> simp
      · have hfalse : ¬ limitPending false md := fun h => Bool.noConfusion (h.2.mp hz)
        rw [limitChange, limitChange, if_neg hfalse, hl]
        split_ifs <;> simp
    · have hnone : ∀ add, ¬ limitPending add md := fun add h => hl h.1
      rw [limitChange, if_neg (hnone _), limitChange, if_neg (hnone _)]
      exact Nat.zero_le _
  have hitems : (items.flatMap (itemChanges t)).length = items.length := by
    have hall : ∀ l : List Item, (∀ p ∈ l, t.IsParam p.type) →
        (l.flatMap (itemChanges t)).length = l.length := by
      intro l
      induction l with
      | nil => exact fun _ => rfl
      | cons p l ih =>
        intro hl
        obtain ⟨x, hx, -⟩ := itemChanges_single (hl p List.mem_cons_self)
        have hrest := ih fun q hq => hl q (List.mem_cons_of_mem p hq)
        rw [List.flatMap_cons, hx, List.length_append, hrest, List.length_singleton, List.length_cons]
        omega
    exact hall items fun p hp => (h.items_ok p hp).1
  have hle : ∀ xs : List ModeChange, xs.countP parameterised ≤ xs.length := fun xs => List.countP_le_length
  have hl := hle (limitChange true md)
  have hl' := hle (limitChange false md)
  have he := hle ((pendingExts t true md).map (extChange true md))
  have he' := hle ((pendingExts t false md).map (extChange false md))
  have hi := hle (items.flatMap (itemChanges t))
  rw [List.length_map] at he he'
  simp only [pending, modeChanges, List.countP_append, hsimple]
  omega

/-! ### The flush itself -/

theorem flush_spec (h : StackOk t md items) :
    Sends t md items (flush t md).1 [] (flush t md).2 [] ∧ pending t (flush t md).1 [] = [] := by
  obtain ⟨hflush, hp⟩ | ⟨text, hflush, hline, hmode⟩ := flush_line h
  · obtain ⟨rfl, -⟩ := h.drained hp
    rw [hflush]
    exact ⟨h.sends, hp⟩
  · obtain ⟨hok, hp⟩ := clear_ok h.exts
    rw [hflush]
    refine ⟨⟨hok, rfl, ?_, ?_⟩, hp⟩
    · intro v ch
      show changes v (channelMode t.toIrcd v ch (words text)) (pending t (clear t md) []) =
        changes v ch (pending t md items)
      rw [hp, hmode, changes_nil]
    · intro s hs
      rw [List.mem_singleton] at hs
      refine ⟨md.source, text, hs, ?_⟩
      rw [hline]
      exact pending_countP_le h

theorem flushIf_spec (h : StackOk t md items) (c : Bool) :
    ∃ items', Sends t md items (flushIf t c md).1 items' (flushIf t c md).2 [] ∧
      (c = true → pending t (flushIf t c md).1 items' = []) ∧ (c = false → items' = items) := by
  cases c with
  | true => exact ⟨[], (flush_spec h).1, fun _ => (flush_spec h).2, fun h => Bool.noConfusion h⟩
  | false => exact ⟨items, h.sends, fun h => Bool.noConfusion h, fun _ => rfl⟩

def counted (t : Tables) (md : Modestackdata κ) (items : List Item) : Nat :=
  md.limitused.toNat + (usedExts t md).length + items.length

theorem StackOk.counted_drained (h : StackOk t md items) (hp : pending t md items = []) :
    counted t md items = 0 := by
  obtain ⟨hnil, hlimit, hexts, -⟩ := h.drained hp
  have hused : usedExts t md = [] := by
    rw [usedExts, List.filter_eq_nil_iff]
    intro i _
    rw [hexts i]
    exact Bool.false_ne_true
  rw [counted, hnil, hlimit, hused]
  rfl

theorem count_args (ps : List CString) (h : ∀ p ∈ ps, IsArg p) : (args ps).count ' ' = ps.length := by
  induction ps with
  | nil => rfl
  | cons p ps ih =>
    have hp : p.count ' ' = 0 := List.count_eq_zero.mpr (h p List.mem_cons_self).2
    have hrest := ih fun q hq => h q (List.mem_cons_of_mem p hq)
    rw [args_cons, List.count_cons_self, List.count_append, hp, hrest, List.length_cons]
    omega

theorem calclen_spec (name : κ → CString) (h : StackOk t md items) :
    StackOk t (calclen t name md) items ∧
    (calclen t name md).totallen = md.source.length + ((md.channel.map name).getD []).length + 127 +
      md.pmodes.length + paramsLength t md ∧
    (calclen t name md).paramcount = counted t md items := by
  have hparams := count_args (items.map Item.value) fun p hp => by
    obtain ⟨q, hq, rfl⟩ := List.mem_map.mp hp
    exact (h.items_ok q hq).2
  rw [← h.params, List.length_map] at hparams
  refine ⟨⟨h.pmodes, h.params, h.items_ok, h.exts, h.extmodes, h.count, h.room, h.room⟩, ?_, ?_⟩
  · show md.source.length + userlen + hostlen + 1 + 4 + 1 + 10 + ((md.channel.map name).getD []).length +
      1 + (2 + 32 + md.pmodes.length) + paramsLength t md = _
    rw [userlen, hostlen]
    omega
  · show md.limitused.toNat + (usedExts t md).length + md.params.count ' ' = _
    rw [hparams]
    rfl

theorem flushTwice_spec (h : StackOk t md items) (hlen : 127 + paramsLength t md ≤ md.totallen)
    (hcount : md.paramcount = counted t md items) (add : Bool) (extra : Nat) (hextra : extra ≤ 385)
    {r r' : Modestackdata κ × List (Sent κ)} (hr : r = flushIf t (md.paramcount ≥ maxModes) md)
    (hr' : r' = flushIf t (add && r.1.totallen + extra > 512) r.1) :
    ∃ items', Sends t md items r'.1 items' (r.2 ++ r'.2) [] ∧ counted t r'.1 items' < maxModes ∧
      (add = true → paramsLength t r'.1 + extra ≤ 385) ∧
      (md.limitused = false → r'.1.limitused = false) ∧
      ∀ i, md.extmodesused i = false → r'.1.extmodesused i = false := by
  obtain ⟨items₁, hsend₁, hdrain₁, hsame₁⟩ := flushIf_spec h (md.paramcount ≥ maxModes)
  rw [← hr] at hsend₁ hdrain₁
  obtain ⟨items₂, hsend₂, hdrain₂, hsame₂⟩ :=
    flushIf_spec hsend₁.ok (add && r.1.totallen + extra > 512)
  rw [← hr'] at hsend₂ hdrain₂
  refine ⟨items₂, hsend₁.trans hsend₂, ?_⟩
  have hpos : (0 : Nat) < maxModes := by decide
  -- once everything is sent there is room
  have hempty : pending t r'.1 items₂ = [] → counted t r'.1 items₂ < maxModes ∧
      (add = true → paramsLength t r'.1 + extra ≤ 385) ∧
      (md.limitused = false → r'.1.limitused = false) ∧
      ∀ i, md.extmodesused i = false → r'.1.extmodesused i = false := by
    intro hp
    obtain ⟨-, hlimit, hexts, hzero⟩ := hsend₂.ok.drained hp
    refine ⟨?_, ?_, fun _ => hlimit, fun i _ => hexts i⟩
    · rw [hsend₂.ok.counted_drained hp]
      exact hpos
    · intro _
      omega
  by_cases hc₂ : (add && r.1.totallen + extra > 512) = true
  · exact hempty (hdrain₂ hc₂)
  · rw [Bool.not_eq_true] at hc₂
    have hsame : r' = (r.1, []) := by
      rw [hr', hc₂]
      rfl
    by_cases hc₁ : md.paramcount ≥ maxModes
    · have hp := hdrain₁ (decide_eq_true hc₁)
      rw [hsame₂ hc₂, hsame] at hempty
      rw [hsame₂ hc₂, hsame]
      exact hempty hp
    · have hkeep : r = (md, []) := by
        rw [hr, decide_eq_false hc₁]
        rfl
      rw [hsame₂ hc₂, hsame₁ (decide_eq_false hc₁), hsame, hkeep]
      dsimp only
      refine ⟨by omega, ?_, id, fun _ => id⟩
      intro hadd
      rw [hkeep, hadd, Bool.true_and, decide_eq_false_iff_not] at hc₂
      dsimp only at hc₂
      omega

end flush

end ChatServices.Modes
