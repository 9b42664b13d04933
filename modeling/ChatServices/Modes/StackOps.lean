import Mathlib.Algebra.Order.BigOperators.Group.List
import Mathlib.Algebra.Order.Group.Nat
import ChatServices.Modes.Flush

/-! Each call to the stack holds its change back, after what was held back before. -/
namespace ChatServices.Modes
open ChatServices.Lib.Mask ChatServices.Text ChatServices.ChanServ ChatServices.ChanServ.Channels
  ChatServices.Storage

section ops
variable {κ : Type*} {t : Tables} {md : Modestackdata κ} {items : List Item}

theorem plain_simples (add : Bool) (flags : Flags) : ∀ x ∈ t.simples add flags, Plain x := by
  intro x hx
  obtain ⟨m, hm, rfl⟩ := List.mem_map.mp hx
  have hapart := (eq_zero_iff _).mp (t.simple_apart m (List.mem_filter.mp hm).1)
  show m.2 &&& cmodeKey = 0#32
  rw [eq_zero_iff]
  intro i hi
  rw [has_and] at hi
  exact hapart i ((has_and _ _ _).mpr ⟨hi.1, (has_or _ _ _).mpr (.inl hi.2)⟩)

theorem addSimple_spec (h : StackOk t md items) (add : Bool) (flags : Flags) :
    Sends t md items (addSimple add flags md) items [] (t.simples add flags) := by
  have hover : ∀ v ch, overlay t (addSimple add flags md) ch =
      changes v (overlay t md ch) (t.simples add flags) := by
    intro v ch
    rw [overlay_addSimple, t.changes_simples]
  have hok : StackOk t (addSimple add flags md) items := by
    cases add
    · exact ⟨h.pmodes, h.params, h.items_ok, h.exts, h.extmodes, h.count, h.room, h.stale⟩
    · exact ⟨h.pmodes, h.params, h.items_ok, h.exts, h.extmodes, h.count, h.room, h.stale⟩
  refine ⟨hok, ?_, ?_, by simp⟩
  · cases add <;> rfl
  · intro v ch
    exact held_plain v (fun p hp => (h.items_ok p hp).1) (plain_simples add flags) (hover v) ch

/-! ### The limit -/

theorem overlay_limit_changes (v : View) (limit : BitVec 32) (ch : Channel) :
    overlay t { md with limit := limit, limitused := true } ch =
      changes v (overlay t md ch) [.limit (limitValue limit)] := by
  rw [overlay_limit, changes_cons, changes_nil, change_limit]

theorem held_limit (v : View) (h : StackOk t md items) (limit : BitVec 32) (ch : Channel) :
    held t { md with limit := limit, limitused := true } v items ch =
      changes v (held t md v items ch) [.limit (limitValue limit)] :=
  held_plain v (fun p hp => (h.items_ok p hp).1) (fun x hx => by rw [List.mem_singleton.mp hx]; trivial)
    (overlay_limit_changes v limit) ch

theorem paramsLength_limit_le (limit : BitVec 32) (hl : md.limitused = false) :
    paramsLength t { md with limit := limit, limitused := true } ≤
      paramsLength t md + if limit = 0 then 0 else 11 := by
  show (if true = true ∧ limit ≠ 0 then 11 else 0) + ((usedExts t md).map (extLength md)).sum +
    md.params.length ≤ _
  rw [paramsLength, hl]
  split_ifs <;> simp_all
  all_goals omega

theorem addLimit_spec (name : κ → CString) (h : StackOk t md items) (add : Bool) (limit : BitVec 32) :
    ∃ items', Sends t md items (addLimit t name add limit md).1 items' (addLimit t name add limit md).2
      [.limit (limitValue (if add then limit else 0))] := by
  have hcount := h.count
  have hroom := h.room
  -- the limit held back so far gives way
  have hdrop : StackOk t { md with limitused := false } items := by
    have hle : paramsLength t { md with limitused := false } ≤ paramsLength t md := by
      show (if false = true ∧ md.limit ≠ 0 then 11 else 0) + ((usedExts t md).map (extLength md)).sum +
        md.params.length ≤ _
      rw [paramsLength, if_neg fun h => Bool.false_ne_true h.1]
      omega
    refine ⟨h.pmodes, h.params, h.items_ok, h.exts, h.extmodes, ?_, hle.trans hroom, h.stale⟩
    show (false : Bool).toNat + (usedExts t md).length + items.length ≤ maxModes
    rw [Bool.toNat_false]
    omega
  obtain ⟨hok, hlen, hparam⟩ := calclen_spec name hdrop
  obtain ⟨items', hsend, hfew, hfits, hlimit, -⟩ := flushTwice_spec hok (by
    rw [hlen]
    show 127 + paramsLength t { md with limitused := false } ≤ _
    omega) hparam add 11 (by omega) rfl rfl
  refine ⟨items', ?_⟩
  rw [addLimit]
  dsimp only
  generalize flushIf t (decide ((calclen t name { md with limitused := false }).paramcount ≥ maxModes))
    (calclen t name { md with limitused := false }) = r at hsend hfew hfits hlimit ⊢
  generalize flushIf t (add && decide (r.1.totallen + 11 > 512)) r.1 = r' at hsend hfew hfits hlimit ⊢
  have hbefore := hsend.ok
  have hunused := hlimit rfl
  refine ⟨⟨hbefore.pmodes, hbefore.params, hbefore.items_ok, hbefore.exts, hbefore.extmodes, ?_, ?_,
    hbefore.stale⟩, hsend.channel, ?_, hsend.lines⟩
  · rw [counted, hunused, Bool.toNat_false] at hfew
    show (true : Bool).toNat + (usedExts t r'.1).length + items'.length ≤ maxModes
    rw [Bool.toNat_true]
    omega
  · have hle := paramsLength_limit_le (t := t) (if add then limit else 0) hunused
    cases add
    · simp only [Bool.false_eq_true, if_false, if_true, Nat.add_zero] at hle ⊢
      exact hle.trans hbefore.room
    · have hfits := hfits rfl
      refine hle.trans ?_
      split_ifs <;> omega
  · intro v ch
    rw [held_limit v hbefore, hsend.held, changes_nil]
    have hsame := held_limit v hok (if add then limit else 0) ch
    rw [← hsame]
    exact held_limit v h (if add then limit else 0) ch

/-! ### Extended modes -/

theorem sum_update_le (u : Nat → Bool) (e e' : Nat → Nat) (i : Nat) (he : ∀ j, j ≠ i → e' j = e j)
    (l : List Nat) : ((l.filter (Function.update u i true)).map e').sum ≤
      ((l.filter u).map e).sum + l.count i * e' i := by
  induction l with
  | nil => exact Nat.zero_le _
  | cons j l ih =>
    by_cases hj : j = i
    · have hused : Function.update u i true j = true := by rw [hj, Function.update_self]
      rw [List.filter_cons_of_pos hused, List.map_cons, List.sum_cons, hj, List.count_cons_self,
        Nat.succ_mul]
      have hle : ((l.filter u).map e).sum ≤ (((i :: l).filter u).map e).sum := by
        rw [List.filter_cons]
        split_ifs <;> simp
      omega
    · have hsame : Function.update u i true j = u j := Function.update_of_ne hj _ _
      rw [List.count_cons_of_ne hj]
      by_cases hu : u j = true
      · rw [List.filter_cons_of_pos (hsame.trans hu), List.filter_cons_of_pos hu, List.map_cons,
          List.map_cons, List.sum_cons, List.sum_cons, he j hj]
        omega
      · rw [List.filter_cons_of_neg (by rw [hsame]; exact hu), List.filter_cons_of_neg hu]
        exact ih

variable (t md) in
def withExt (i : Nat) (value : CString) : Modestackdata κ :=
  { md with
    extmodes := Function.update md.extmodes i value
    extmodesused := Function.update md.extmodesused i true }

variable (t md) in
theorem usedExts_withExt_le (i : Nat) (value : CString) :
    (usedExts t (withExt md i value)).length ≤ (usedExts t md).length + 1 := by
  have hsum := sum_update_le md.extmodesused (fun _ => 1) (fun _ => 1) i (fun _ _ => rfl)
    (List.range (ignoreModeListSize t))
  have hone := List.nodup_iff_count_le_one.mp (List.nodup_range (n := ignoreModeListSize t)) i
  simp only [List.map_const', List.sum_replicate_nat, Nat.mul_one] at hsum
  show ((List.range (ignoreModeListSize t)).filter (Function.update md.extmodesused i true)).length ≤ _
  rw [usedExts]
  omega

variable (t md) in
theorem paramsLength_withExt_le (i : Nat) (value : CString) :
    paramsLength t (withExt md i value) ≤
      paramsLength t md + if value = [] then 0 else 1 + value.length := by
  have hsum := sum_update_le md.extmodesused (extLength md) (extLength (withExt md i value)) i
    (fun j hj => by
      show (if Function.update md.extmodes i value j = [] then 0
        else 1 + (Function.update md.extmodes i value j).length) = _
      rw [Function.update_of_ne hj]
      rfl)
    (List.range (ignoreModeListSize t))
  have hone := List.nodup_iff_count_le_one.mp (List.nodup_range (n := ignoreModeListSize t)) i
  have hvalue : extLength (withExt md i value) i = if value = [] then 0 else 1 + value.length := by
    show (if Function.update md.extmodes i value i = [] then 0
      else 1 + (Function.update md.extmodes i value i).length) = _
    rw [Function.update_self]
  have hmul := Nat.mul_le_mul_right (extLength (withExt md i value) i) hone
  rw [Nat.one_mul, hvalue] at hmul
  rw [hvalue] at hsum
  show (if md.limitused = true ∧ md.limit ≠ 0 then 11 else 0) +
    (((List.range (ignoreModeListSize t)).filter (Function.update md.extmodesused i true)).map
      (extLength (withExt md i value))).sum + md.params.length ≤ _
  rw [paramsLength, usedExts]
  omega

def extValue (value : CString) : Option CString := if value = [] then none else some value

theorem held_ext (v : View) (h : StackOk t md items) {i : Nat} (hi : i < t.ignoreModeList.length)
    (value : CString) (ch : Channel) :
    held t (withExt md i value) v items ch =
      changes v (held t md v items ch) [.ext i (extValue value)] := by
  have hsize : i < ignoreModeListSize t := Nat.lt_succ_of_lt hi
  apply held_plain v (fun p hp => (h.items_ok p hp).1)
  · intro x hx
    rw [List.mem_singleton.mp hx]
    trivial
  · intro ch
    rw [withExt, overlay_ext hsize, changes_cons, changes_nil]
    rfl

theorem addExt_spec (name : κ → CString) (h : StackOk t md items) (add : Bool) {i : Nat}
    (hi : i < t.ignoreModeList.length) {value : CString}
    (hvalue : add = true → ' ' ∉ value ∧ 1 + value.length ≤ 385) :
    ∃ items', Sends t md items (addExt t name add i value md).1 items' (addExt t name add i value md).2
      [.ext i (extValue (if add then value else []))] := by
  have hcount := h.count
  have hroom := h.room
  -- the value held back so far gives way
  have hdrop : StackOk t { md with extmodesused := Function.update md.extmodesused i false } items := by
    have hfilter : ((List.range (ignoreModeListSize t)).filter (Function.update md.extmodesused i false)).Sublist
        (usedExts t md) := by
      apply List.monotone_filter_right
      intro j hj
      by_cases hji : j = i
      · rw [hji, Function.update_self] at hj
        exact Bool.noConfusion hj
      · rwa [Function.update_of_ne hji] at hj
    have hle : paramsLength t { md with extmodesused := Function.update md.extmodesused i false } ≤
        paramsLength t md := by
      have hsum := (hfilter.map (extLength md)).sum_le_sum (by simp)
      show (if md.limitused = true ∧ md.limit ≠ 0 then 11 else 0) +
        (((List.range (ignoreModeListSize t)).filter (Function.update md.extmodesused i false)).map
          (extLength md)).sum + md.params.length ≤ _
      rw [paramsLength]
      omega
    have hused : ∀ j, Function.update md.extmodesused i false j = true → md.extmodesused j = true := by
      intro j hj
      by_cases hji : j = i
      · rw [hji, Function.update_self] at hj
        exact Bool.noConfusion hj
      · rwa [Function.update_of_ne hji] at hj
    refine ⟨h.pmodes, h.params, h.items_ok, fun j hj => h.exts j (hused j hj),
      fun j hj => h.extmodes j (hused j hj), ?_, hle.trans hroom, h.stale⟩
    have hlen := hfilter.length_le
    show md.limitused.toNat + ((List.range (ignoreModeListSize t)).filter
      (Function.update md.extmodesused i false)).length + items.length ≤ maxModes
    omega
  obtain ⟨hok, hlen, hparam⟩ := calclen_spec name hdrop
  have hlen' : 127 + paramsLength t { md with extmodesused := Function.update md.extmodesused i false } ≤
      (calclen t name { md with extmodesused := Function.update md.extmodesused i false }).totallen := by
    rw [hlen]
    omega
  obtain ⟨items', hsend, hfew, hfits, -, hext⟩ := flushTwice_spec hok hlen' hparam add
    (if add then 1 + value.length else 0) (by
      split_ifs with hadd
      · exact (hvalue hadd).2
      · omega) rfl rfl
  have hextra : ∀ n : Nat, (add && decide (n + 1 + value.length > 512)) =
      (add && decide (n + (if add then 1 + value.length else 0) > 512)) := by
    intro n
    cases add
    · rfl
    · rw [Nat.add_assoc]
      rfl
  refine ⟨items', ?_⟩
  rw [addExt]
  dsimp only
  rw [hextra]
  generalize flushIf t (decide ((calclen t name { md with
    extmodesused := Function.update md.extmodesused i false }).paramcount ≥ maxModes))
    (calclen t name { md with extmodesused := Function.update md.extmodesused i false }) = r
    at hsend hfew hfits hext ⊢
  generalize flushIf t (add && decide (r.1.totallen + (if add then 1 + value.length else 0) > 512)) r.1 = r'
    at hsend hfew hfits hext ⊢
  have hbefore := hsend.ok
  have hstored : (if add then truncate 512 value else []) = if add then value else [] := by
    split_ifs with hadd
    · have hshort := (hvalue hadd).2
      rw [truncate, List.take_of_length_le (by omega)]
    · rfl
  have hused : ∀ j, Function.update r'.1.extmodesused i true j = true → j = i ∨ r'.1.extmodesused j = true := by
    intro j hj
    by_cases hji : j = i
    · exact .inl hji
    · right
      rwa [Function.update_of_ne hji] at hj
  rw [hstored]
  show Sends t md items (withExt r'.1 i (if add then value else [])) items' (r.2 ++ r'.2) _
  refine ⟨⟨hbefore.pmodes, hbefore.params, hbefore.items_ok, ?_, ?_, ?_, ?_, hbefore.stale⟩,
    hsend.channel, ?_, hsend.lines⟩
  · intro j hj
    obtain rfl | hj := hused j hj
    · exact hi
    · exact hbefore.exts j hj
  · intro j hj
    show ' ' ∉ Function.update r'.1.extmodes i (if add then value else []) j
    by_cases hji : j = i
    · rw [hji, Function.update_self]
      split_ifs with hadd
      · exact (hvalue hadd).1
      · exact List.not_mem_nil
    · rw [Function.update_of_ne hji]
      exact hbefore.extmodes j ((hused j hj).resolve_left hji)
  · have hle := usedExts_withExt_le t r'.1 i (if add then value else [])
    rw [counted] at hfew
    show r'.1.limitused.toNat + _ + items'.length ≤ maxModes
    omega
  · have hle := paramsLength_withExt_le t r'.1 i (if add then value else [])
    refine hle.trans ?_
    cases add
    · exact hbefore.room
    · have hfits := hfits rfl
      simp only [if_true] at hfits ⊢
      split_ifs <;> omega
  · intro v ch
    rw [held_ext v hbefore hi, hsend.held, changes_nil]
    have hsame := held_ext v hok hi (if add then value else []) ch
    have hdirect := held_ext v h hi (if add then value else []) ch
    rw [← hsame, ← hdirect]
    have hupdate : Function.update (Function.update md.extmodesused i false) i true =
        Function.update md.extmodesused i true := Function.update_idem _ _ _
    exact congrArg (fun u => held t { withExt md i (if add then value else []) with extmodesused := u }
      v items ch) hupdate

/-! ### Lists, keys and statuses -/

theorem countP_pmodesText (items : List Item) (h : ∀ p ∈ items, t.IsParam p.type) (dir : Option Bool) :
    ((pmodesText dir items).countP fun c => c ≠ '+' ∧ c ≠ '-') = items.length := by
  induction items generalizing dir with
  | nil => rfl
  | cons p items ih =>
    have hrest := ih (fun q hq => h q (List.mem_cons_of_mem p hq)) (some p.add)
    have hmark := (t.letters_apart.2.2.2.2 p.type (h p List.mem_cons_self)).2.2.2
    have htype : p.type ≠ '+' ∧ p.type ≠ '-' := ⟨fun he => hmark (.inl he), fun he => hmark (.inr (.inl he))⟩
    have hsign : ¬ (signOf p.add ≠ '+' ∧ signOf p.add ≠ '-') := by
      cases p.add <;> decide
    rw [pmodesText, List.countP_append, hrest, List.length_cons]
    split_ifs
    · rw [List.countP_cons_of_neg (by simpa using hsign), List.countP_cons_of_pos (by simpa using htype),
        List.countP_nil]
      omega
    · rw [List.countP_cons_of_pos (by simpa using htype), List.countP_nil]
      omega

theorem pmodesText_append (items : List Item) (p : Item) (h : ∀ q ∈ items, t.IsParam q.type)
    (dir : Option Bool) : pmodesText dir (items ++ [p]) = pmodesText dir items ++
      (if dirAfter dir (pmodesText dir items) ≠ some p.add then [signOf p.add, p.type] else [p.type]) := by
  induction items generalizing dir with
  | nil => rw [List.nil_append, pmodesText, pmodesText, pmodesText, dirAfter, List.append_nil, List.nil_append]
  | cons q items ih =>
    have hrest := ih (fun q' hq' => h q' (List.mem_cons_of_mem q hq')) (some q.add)
    have hmark := (t.letters_apart.2.2.2.2 q.type (h q List.mem_cons_self)).2.2.2
    have hplus : q.type ≠ '+' := fun he => hmark (.inl he)
    have hminus : q.type ≠ '-' := fun he => hmark (.inr (.inl he))
    have hletter : ∀ dir s, dirAfter dir (q.type :: s) = dirAfter dir s := by
      intro dir s
      rw [dirAfter, if_neg hplus, if_neg hminus]
    have hsign : ∀ s, dirAfter dir (signOf q.add :: s) = dirAfter (some q.add) s := by
      intro s
      cases q.add <;> rfl
    have hdir : ∀ s, dirAfter dir ((if dir ≠ some q.add then [signOf q.add, q.type] else [q.type]) ++ s) =
        dirAfter (some q.add) s := by
      intro s
      split_ifs with hne
      · rw [List.cons_append, List.cons_append, List.nil_append, hsign, hletter]
      · rw [List.cons_append, List.nil_append, hletter, not_not.mp hne]
    rw [List.cons_append, pmodesText, pmodesText, hrest, hdir, List.append_assoc]

theorem strlcat_eq {size : Nat} {s s' : CString} (h : s.length + s'.length ≤ size - 1) :
    strlcat size s s' = s ++ s' := by
  rw [strlcat, List.take_of_length_le (by omega)]

def withItem (md : Modestackdata κ) (p : Item) (pmodes : CString) : Modestackdata κ :=
  { md with pmodes := pmodes, params := md.params ++ ' ' :: p.value }

theorem withItem_sends (h : StackOk t md items) {p : Item} (ht : t.IsParam p.type) (hv : IsArg p.value)
    (hfew : counted t md items < maxModes) (hfits : paramsLength t md + 1 + p.value.length ≤ 385) :
    Sends t md items (withItem md p (pmodesText none (items ++ [p]))) (items ++ [p]) [] (itemChanges t p) := by
  have hlength : paramsLength t (withItem md p (pmodesText none (items ++ [p]))) =
      paramsLength t md + 1 + p.value.length := by
    show (if md.limitused = true ∧ md.limit ≠ 0 then 11 else 0) + ((usedExts t md).map (extLength md)).sum +
      (md.params ++ ' ' :: p.value).length = _
    rw [paramsLength, List.length_append, List.length_cons]
    omega
  refine ⟨⟨rfl, ?_, ?_, h.exts, h.extmodes, ?_, ?_, h.stale⟩, rfl, ?_, by simp⟩
  · show md.params ++ ' ' :: p.value = _
    have hnil : args [] = [] := rfl
    rw [h.params, List.map_append, args_append, List.map_singleton, args_cons, hnil, List.append_nil]
  · intro q hq
    obtain hq | hq := List.mem_append.mp hq
    · exact h.items_ok q hq
    · rw [List.mem_singleton.mp hq]
      exact ⟨ht, hv⟩
  · rw [counted] at hfew
    show md.limitused.toNat + (usedExts t md).length + (items ++ [p]).length ≤ maxModes
    rw [List.length_append, List.length_singleton]
    omega
  · rw [hlength]
    exact hfits
  · intro v ch
    show changes v ch (modeChanges t false md.modesOff md ++ modeChanges t true md.modesOn md ++
      (items ++ [p]).flatMap (itemChanges t)) = _
    rw [List.flatMap_append, List.flatMap_singleton, ← List.append_assoc, changes_append]
    rfl

theorem addParam_spec (name : κ → CString) (h : StackOk t md items) (add : Bool) {type : Char}
    (ht : t.IsParam type) {value : CString} (hv : IsArg value) (hshort : 1 + value.length ≤ 385) :
    ∃ items', Sends t md items (addParam t name add type value md).1 items'
      (addParam t name add type value md).2 (itemChanges t ⟨add, type, value⟩) := by
  have hparams : ∀ p ∈ items, t.IsParam p.type := fun p hp => (h.items_ok p hp).1
  obtain ⟨hok, hlen, -⟩ := calclen_spec name h
  have hkeep : Sends t md items (calclen t name md) items [] [] := ⟨hok, rfl, fun _ _ => rfl, by simp⟩
  rw [addParam]
  dsimp only
  generalize hfull : paramFull t add type value (calclen t name md) = full
  obtain ⟨items', hsend, hdrain, hsame⟩ := flushIf_spec hok full
  have hflush : full = false → flushIf t full (calclen t name md) = (calclen t name md, []) := by
    rintro rfl
    rfl
  generalize flushIf t full (calclen t name md) = r at hsend hdrain hflush ⊢
  have hbefore := hsend.ok
  -- the direction that the letters are in, and the room there is
  have hdir : (if full then none else dirAfter none (calclen t name md).pmodes) =
      dirAfter none r.1.pmodes := by
    cases full with
    | true =>
      obtain ⟨hnil, -⟩ := hbefore.drained (hdrain rfl)
      rw [hbefore.pmodes, hnil]
      rfl
    | false =>
      rw [hflush rfl]
      rfl
  have hroom : counted t r.1 items' < maxModes ∧ paramsLength t r.1 + 1 + value.length ≤ 385 := by
    cases full with
    | true =>
      obtain ⟨-, -, -, hzero⟩ := hbefore.drained (hdrain rfl)
      rw [hbefore.counted_drained (hdrain rfl), hzero]
      exact ⟨by decide, by omega⟩
    | false =>
      have hcount := countP_pmodesText items hparams none
      rw [← h.pmodes] at hcount
      rw [paramFull, decide_eq_false_iff_not, not_or, not_or] at hfull
      obtain ⟨hfew, hfits, -⟩ := hfull
      have hpmodes : (calclen t name md).pmodes = md.pmodes := rfl
      have hlimit : (calclen t name md).limitused = md.limitused := rfl
      have hexts : (List.range (ignoreModeListSize t)).filter (calclen t name md).extmodesused =
        usedExts t md := rfl
      have hparams' : paramsLength t (calclen t name md) = paramsLength t md := rfl
      rw [hpmodes, hcount, hlimit, hexts] at hfew
      rw [hflush rfl, hsame rfl]
      dsimp only
      rw [counted, hlimit, hparams', usedExts, hexts]
      omega
  have hpmodes : strlcat (2 * maxModes + 2) r.1.pmodes
      (if dirAfter none r.1.pmodes ≠ some add then [signOf add, type] else [type]) =
      pmodesText none (items' ++ [⟨add, type, value⟩]) := by
    have hle := length_pmodesText_le items' none
    have hcounted := hroom.1
    rw [counted, maxModes] at hcounted
    rw [pmodesText_append items' ⟨add, type, value⟩ (fun p hp => (hbefore.items_ok p hp).1) none,
      ← hbefore.pmodes] at *
    rw [strlcat_eq]
    rw [maxModes]
    split_ifs <;> simp only [List.length_cons, List.length_nil] <;> omega
  have hparams' : strlcat 512 (strlcat 512 r.1.params [' ']) value = r.1.params ++ ' ' :: value := by
    have hle : r.1.params.length ≤ paramsLength t r.1 := by
      rw [paramsLength]
      omega
    have hblank : strlcat 512 r.1.params [' '] = r.1.params ++ [' '] := by
      apply strlcat_eq
      rw [List.length_singleton]
      omega
    rw [hblank, strlcat_eq, List.append_assoc, List.singleton_append]
    rw [List.length_append, List.length_singleton]
    omega
  rw [hdir, hpmodes, hparams']
  have hitem := withItem_sends hbefore (p := ⟨add, type, value⟩) ht hv hroom.1 hroom.2
  have hall := (hkeep.trans hsend).trans hitem
  rw [List.nil_append, List.append_nil] at hall
  exact ⟨_, hall⟩

end ops

end ChatServices.Modes
