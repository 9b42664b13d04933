import ChatServices.Modes.Pending

/-! The modes that a stack holds back, laid over those of the channel: each of the calls lays one
more change over the rest. -/
namespace ChatServices.Modes
open ChatServices.Lib.Mask ChatServices.Text ChatServices.ChanServ ChatServices.ChanServ.Channels
  ChatServices.Storage

section overlay
variable {κ : Type*} (t : Tables)

def limitValue (limit : BitVec 32) : Option CString :=
  if limit = 0 then none else some (natArg limit.toNat)

def setLimit (limit : BitVec 32) (ch : Channel) : Channel :=
  { ch with
    modes := if limit = 0 then ch.modes &&& ~~~cmodeLimit else ch.modes ||| cmodeLimit
    limit := if limit = 0 then 0 else newLimit (natArg limit.toNat) }

def overlayLimit (md : Modestackdata κ) (ch : Channel) : Channel :=
  if md.limitused then setLimit md.limit ch else ch

def overlay (md : Modestackdata κ) (ch : Channel) : Channel :=
  { overlayLimit md (setModes true (md.modesOn &&& t.known)
      (setModes false (md.modesOff &&& t.known) ch)) with
    extmodes := fun i =>
      if md.extmodesused i = true ∧ i < ignoreModeListSize t then
        if md.extmodes i = [] then none else some (md.extmodes i)
      else ch.extmodes i }

variable {t} {md : Modestackdata κ}

theorem change_limit (v : View) (ch : Channel) (limit : BitVec 32) :
    change v ch (.limit (limitValue limit)) = setLimit limit ch := by
  rw [limitValue, setLimit]
  split_ifs <;> rfl

theorem known_apart : t.known &&& cmodeKey = 0#32 ∧ t.known &&& cmodeLimit = 0#32 := by
  have hall : ∀ l : List (Char × Flags), (∀ m ∈ l, m.2 &&& (cmodeKey ||| cmodeLimit) = 0#32) →
      orAll l &&& (cmodeKey ||| cmodeLimit) = 0#32 := by
    intro l
    induction l with
    | nil => exact fun _ => BitVec.zero_and
    | cons m l ih =>
      intro hl
      have hrest := ih fun m' hm' => hl m' (List.mem_cons_of_mem m hm')
      have hm := hl m List.mem_cons_self
      rw [eq_zero_iff] at hrest hm ⊢
      intro i hi
      rw [orAll, List.foldr_cons, has_and, has_or] at hi
      obtain ⟨hi | hi, hbit⟩ := hi
      · exact hm i ((has_and _ _ _).mpr ⟨hi, hbit⟩)
      · exact hrest i ((has_and _ _ _).mpr ⟨hi, hbit⟩)
  have hboth := (eq_zero_iff _).mp (hall t.modeList t.simple_apart)
  constructor
  · rw [eq_zero_iff]
    intro i hi
    rw [has_and] at hi
    exact hboth i ((has_and _ _ _).mpr ⟨hi.1, (has_or _ _ _).mpr (.inl hi.2)⟩)
  · rw [eq_zero_iff]
    intro i hi
    rw [has_and] at hi
    exact hboth i ((has_and _ _ _).mpr ⟨hi.1, (has_or _ _ _).mpr (.inr hi.2)⟩)

theorem and_known_apart (flags : Flags) :
    flags &&& t.known &&& cmodeKey = 0#32 ∧ flags &&& t.known &&& cmodeLimit = 0#32 := by
  obtain ⟨hkey, hlimit⟩ := known_apart (t := t)
  rw [BitVec.and_assoc, hkey, BitVec.and_assoc, hlimit, BitVec.and_zero]
  exact ⟨rfl, rfl⟩

theorem setLimit_setModes {f : Flags} (h : f &&& cmodeLimit = 0#32) (add : Bool) (limit : BitVec 32)
    (ch : Channel) : setLimit limit (setModes add f ch) = setModes add f (setLimit limit ch) := by
  have hset : ∀ add', (setModes add' cmodeLimit (setModes add f ch)).modes =
      (setModes add f (setModes add' cmodeLimit ch)).modes :=
    fun add' => setModes_comm h add' add ch
  have htrue := hset true
  have hfalse := hset false
  by_cases hl : limit = 0
  · simp only [setLimit, if_pos hl]
    cases add <;> exact congrArg (fun m => { ch with modes := m, limit := 0 }) hfalse
  · simp only [setLimit, if_neg hl]
    cases add <;>
      exact congrArg (fun m => { ch with modes := m, limit := newLimit (natArg limit.toNat) }) htrue

theorem setLimit_setLimit (limit limit' : BitVec 32) (ch : Channel) :
    setLimit limit' (setLimit limit ch) = setLimit limit' ch := by
  have hoff : ∀ m : Flags, (m ||| cmodeLimit) &&& ~~~cmodeLimit = m &&& ~~~cmodeLimit := by
    intro m
    apply Lib.Mask.ext
    intro i
    simp only [has_and, has_or, has_not]
    tauto
  have hon : ∀ m : Flags, m &&& ~~~cmodeLimit ||| cmodeLimit = m ||| cmodeLimit := by
    intro m
    apply Lib.Mask.ext
    intro i
    by_cases hbit : Has cmodeLimit i
    · simp [hbit]
    · simp only [has_and, has_or, has_not, hbit, or_false, not_false_eq_true, and_true]
      exact ⟨fun h => h.1, fun h => ⟨h, h.lt⟩⟩
  have hoff' : ∀ m : Flags, m &&& ~~~cmodeLimit &&& ~~~cmodeLimit = m &&& ~~~cmodeLimit := by
    intro m
    rw [BitVec.and_assoc, BitVec.and_self]
  have hon' : ∀ m : Flags, m ||| cmodeLimit ||| cmodeLimit = m ||| cmodeLimit := by
    intro m
    rw [BitVec.or_assoc, BitVec.or_self]
  simp only [setLimit]
  split_ifs
  · rw [hoff']
  · rw [hoff]
  · rw [hon]
  · rw [hon']

/-! ### The changes of the letters -/

theorem changes_limitChange (v : View) (add : Bool) (ch : Channel) :
    changes v ch (limitChange add md) = if limitPending add md then setLimit md.limit ch else ch := by
  rw [limitChange]
  split_ifs with h hadd
  · have hne : md.limit ≠ 0 := h.2.mpr hadd
    have hvalue : some (natArg md.limit.toNat) = limitValue md.limit := (if_neg hne).symm
    rw [hvalue]
    exact change_limit v ch md.limit
  · have hzero : md.limit = 0 := by
      by_contra hne
      exact hadd (h.2.mp hne)
    have hvalue : none = limitValue md.limit := (if_pos hzero).symm
    rw [hvalue]
    exact change_limit v ch md.limit
  · rfl

theorem changes_modeChanges (v : View) (add : Bool) (flags : Flags) (ch : Channel) :
    changes v ch (modeChanges t add flags md) =
      { (if limitPending add md then setLimit md.limit (setModes add (flags &&& t.known) ch)
          else setModes add (flags &&& t.known) ch) with
        extmodes := fun i =>
          if md.extmodesused i = true ∧ i < ignoreModeListSize t ∧ (md.extmodes i ≠ [] ↔ add = true) then
            if add then some (md.extmodes i) else none
          else ch.extmodes i } := by
  have hexts := changes_exts v (pendingExts t add md) fun i => if add then some (md.extmodes i) else none
  have hmem : ∀ i, i ∈ pendingExts t add md ↔
      md.extmodesused i = true ∧ i < ignoreModeListSize t ∧ (md.extmodes i ≠ [] ↔ add = true) := by
    intro i
    rw [pendingExts, List.mem_filter, List.mem_range, decide_eq_true_eq]
    tauto
  have hsame : ∀ ch : Channel, (if limitPending add md then setLimit md.limit ch else ch).extmodes =
      ch.extmodes := by
    intro ch
    split_ifs <;> rfl
  have hset : (setModes add (flags &&& t.known) ch).extmodes = ch.extmodes := rfl
  rw [modeChanges, changes_append, changes_append, t.changes_simples, changes_limitChange]
  rw [show (pendingExts t add md).map (extChange add md) = (pendingExts t add md).map fun i =>
    .ext i (if add then some (md.extmodes i) else none) from rfl, hexts, hsame, hset]
  simp only [hmem]

theorem changes_overlay (v : View) (ch : Channel) :
    changes v ch (modeChanges t false md.modesOff md ++ modeChanges t true md.modesOn md) =
      overlay t md ch := by
  have hext : (fun i =>
      if md.extmodesused i = true ∧ i < ignoreModeListSize t ∧ (md.extmodes i ≠ [] ↔ true = true) then
        if true then some (md.extmodes i) else none
      else if md.extmodesused i = true ∧ i < ignoreModeListSize t ∧
          (md.extmodes i ≠ [] ↔ false = true) then
        if false then some (md.extmodes i) else none
      else ch.extmodes i) = fun i =>
      if md.extmodesused i = true ∧ i < ignoreModeListSize t then
        if md.extmodes i = [] then none else some (md.extmodes i)
      else ch.extmodes i := by
    funext i
    by_cases hu : md.extmodesused i = true ∧ i < ignoreModeListSize t
    · by_cases he : md.extmodes i = [] <;> simp [hu, he]
    · rw [if_neg hu, if_neg fun h => hu ⟨h.1, h.2.1⟩, if_neg fun h => hu ⟨h.1, h.2.1⟩]
  have hon := (and_known_apart (t := t) md.modesOn).2
  rw [changes_append, changes_modeChanges, changes_modeChanges, overlay, overlayLimit]
  by_cases hl : md.limitused = true
  · by_cases hz : md.limit = 0
    · have hfalse : limitPending false md := ⟨hl, by rw [hz]; decide⟩
      have htrue : ¬ limitPending true md := fun h => h.2.mpr rfl hz
      rw [if_pos hfalse, if_neg htrue, if_pos hl, setLimit_setModes hon]
      exact congrArg (fun e => { setModes true (md.modesOn &&& t.known)
        (setLimit md.limit (setModes false (md.modesOff &&& t.known) ch)) with extmodes := e }) hext
    · have hfalse : ¬ limitPending false md := fun h => Bool.noConfusion (h.2.mp hz)
      have htrue : limitPending true md := ⟨hl, fun _ => rfl, fun _ => hz⟩
      rw [if_neg hfalse, if_pos htrue, if_pos hl]
      exact congrArg (fun e => { setLimit md.limit (setModes true (md.modesOn &&& t.known)
        (setModes false (md.modesOff &&& t.known) ch)) with extmodes := e }) hext
  · have hnone : ∀ add, ¬ limitPending add md := fun add h => hl h.1
    rw [if_neg (hnone _), if_neg (hnone _), if_neg hl]
    exact congrArg (fun e => { setModes true (md.modesOn &&& t.known)
      (setModes false (md.modesOff &&& t.known) ch) with extmodes := e }) hext

/-! ### One change more -/

theorem setModes_base (add : Bool) (f on off known : Flags) (ch : Channel) :
    setModes add (f &&& known) (setModes true (on &&& known) (setModes false (off &&& known) ch)) =
      setModes true ((if add then on ||| f else on &&& ~~~f) &&& known)
        (setModes false ((if add then off &&& ~~~f else off ||| f) &&& known) ch) := by
  have hbits : ∀ a b : Flags, (∀ i, Has a i ↔ Has b i) →
      { ch with modes := a } = { ch with modes := b } :=
    fun a b h => congrArg (fun m => { ch with modes := m }) (Lib.Mask.ext h)
  cases add
  · apply hbits
    intro i
    simp only [setModes, Bool.false_eq_true, if_false, if_true, has_and, has_or, has_not]
    have hlt : ∀ m : Flags, Has m i → i < 32 := fun m h => h.lt
    have hch := hlt ch.modes
    have hon := hlt on
    tauto
  · apply hbits
    intro i
    simp only [setModes, Bool.false_eq_true, if_false, if_true, has_and, has_or, has_not]
    have hlt : ∀ m : Flags, Has m i → i < 32 := fun m h => h.lt
    have hch := hlt ch.modes
    tauto

theorem overlay_addSimple (add : Bool) (flags : Flags) (ch : Channel) :
    overlay t (addSimple add flags md) ch = setModes add (flags &&& t.known) (overlay t md ch) := by
  have hlimit : ∀ base, overlayLimit md (setModes add (flags &&& t.known) base) =
      setModes add (flags &&& t.known) (overlayLimit md base) := by
    intro base
    rw [overlayLimit, overlayLimit]
    split_ifs
    · exact setLimit_setModes (and_known_apart flags).2 add md.limit base
    · rfl
  have hbase := hlimit (setModes true (md.modesOn &&& t.known) (setModes false (md.modesOff &&& t.known) ch))
  rw [setModes_base] at hbase
  cases add
  · exact congrArg (fun c : Channel => { c with extmodes := (overlay t md ch).extmodes }) hbase
  · exact congrArg (fun c : Channel => { c with extmodes := (overlay t md ch).extmodes }) hbase

theorem overlay_limit (limit : BitVec 32) (ch : Channel) :
    overlay t { md with limit := limit, limitused := true } ch = setLimit limit (overlay t md ch) := by
  have hover : ∀ base, setLimit limit (overlayLimit md base) = setLimit limit base := by
    intro base
    rw [overlayLimit]
    split_ifs
    · exact setLimit_setLimit md.limit limit base
    · rfl
  have hbase := hover (setModes true (md.modesOn &&& t.known) (setModes false (md.modesOff &&& t.known) ch))
  exact congrArg (fun c : Channel => { c with extmodes := (overlay t md ch).extmodes }) hbase.symm

theorem overlay_ext {i : Nat} (hi : i < ignoreModeListSize t) (value : CString) (ch : Channel) :
    overlay t { md with
      extmodes := Function.update md.extmodes i value
      extmodesused := Function.update md.extmodesused i true } ch =
      { overlay t md ch with extmodes := fun j =>
          if j = i then (if value = [] then none else some value) else (overlay t md ch).extmodes j } := by
  have hext : (fun j => if Function.update md.extmodesused i true j = true ∧ j < ignoreModeListSize t then
        if Function.update md.extmodes i value j = [] then none
        else some (Function.update md.extmodes i value j)
      else ch.extmodes j) = fun j =>
      if j = i then (if value = [] then none else some value) else (overlay t md ch).extmodes j := by
    funext j
    by_cases hj : j = i
    · rw [if_pos hj, hj, Function.update_self, Function.update_self, if_pos ⟨rfl, hi⟩]
    · rw [if_neg hj, Function.update_of_ne hj, Function.update_of_ne hj]
      rfl
  exact congrArg (fun e => { overlay t md ch with extmodes := e }) hext

/-! ### What a channel is like with all that is held back -/

variable (t md) in
def held (v : View) (items : List Item) (ch : Channel) : Channel := changes v ch (pending t md items)

theorem held_eq (v : View) (items : List Item) (ch : Channel) :
    held t md v items ch = changes v (overlay t md ch) (items.flatMap (itemChanges t)) := by
  rw [held, pending, changes_append, changes_overlay]

theorem listed_items {items : List Item} (hitems : ∀ p ∈ items, t.IsParam p.type) :
    ∀ x ∈ items.flatMap (itemChanges t), listed x = true := by
  intro x hx
  obtain ⟨p, hp, hx⟩ := List.mem_flatMap.mp hx
  obtain ⟨y, hy, hparse⟩ := t.parseMode_param (hitems p hp) p.add p.value
  rw [itemChanges, hparse, List.mem_singleton] at hx
  exact hx ▸ hy

theorem held_plain (v : View) {md' : Modestackdata κ} {items : List Item} {xs : List ModeChange}
    (hitems : ∀ p ∈ items, t.IsParam p.type) (hxs : ∀ x ∈ xs, Plain x)
    (h : ∀ ch, overlay t md' ch = changes v (overlay t md ch) xs) (ch : Channel) :
    held t md' v items ch = changes v (held t md v items ch) xs := by
  rw [held_eq, held_eq, h]
  exact (changes_comm v hxs (listed_items hitems) _).symm

end overlay

end ChatServices.Modes
