import ChatServices.Modes.Tables

/-! What the changes of a line do to a channel, kind by kind, and that the changes of lists, keys
and statuses do not depend on the others. -/
namespace ChatServices.Modes
open ChatServices.Lib.Mask ChatServices.Text ChatServices.ChanServ ChatServices.ChanServ.Channels

@[simp] theorem changes_nil (v : View) (ch : Channel) : changes v ch [] = ch := rfl

theorem changes_cons (v : View) (ch : Channel) (x : ModeChange) (xs : List ModeChange) :
    changes v ch (x :: xs) = changes v (change v ch x) xs := rfl

theorem changes_append (v : View) (ch : Channel) (xs ys : List ModeChange) :
    changes v ch (xs ++ ys) = changes v (changes v ch xs) ys := List.foldl_append

/-! ### Simple modes -/

def orAll (l : List (Char × Flags)) : Flags := l.foldr (fun m f => m.2 ||| f) 0#32

def Tables.simples (t : Tables) (add : Bool) (flags : Flags) : List ModeChange :=
  (t.modeList.filter fun m => test flags m.2).map fun m => .simple add m.2

def Tables.known (t : Tables) : Flags := orAll t.modeList

def setModes (add : Bool) (flags : Flags) (ch : Channel) : Channel :=
  { ch with modes := if add then ch.modes ||| flags else ch.modes &&& ~~~flags }

@[simp] theorem setModes_zero (add : Bool) (ch : Channel) : setModes add 0#32 ch = ch := by
  have hall : ch.modes &&& ~~~0#32 = ch.modes := by
    rw [BitVec.not_zero, BitVec.and_allOnes]
  cases add
  · simp only [setModes, Bool.false_eq_true, if_false, hall]
  · simp only [setModes, if_true, BitVec.or_zero]

theorem setModes_setModes (add : Bool) (f g : Flags) (ch : Channel) :
    setModes add g (setModes add f ch) = setModes add (f ||| g) ch := by
  have hor : ch.modes ||| f ||| g = ch.modes ||| (f ||| g) := BitVec.or_assoc _ _ _
  have hand : ch.modes &&& ~~~f &&& ~~~g = ch.modes &&& ~~~(f ||| g) := by
    rw [BitVec.not_or, BitVec.and_assoc]
  cases add
  · simp only [setModes, Bool.false_eq_true, if_false, hand]
  · simp only [setModes, if_true, hor]

theorem test_twoPow (flags : Flags) (i : Fin 32) : test flags (BitVec.twoPow 32 i) = flags.getLsbD i := by
  rw [test, BitVec.and_twoPow]
  cases h : flags.getLsbD i with
  | false => simp
  | true =>
    simp only [if_true, bne_iff_ne, ne_eq]
    intro hzero
    have hbit := (has_twoPow (w := 32) i i).mpr ⟨i.isLt, rfl⟩
    rw [hzero] at hbit
    exact has_zero _ hbit

theorem changes_simples (v : View) (add : Bool) (flags : Flags) (l : List (Char × Flags))
    (hbit : ∀ m ∈ l, ∃ i : Fin 32, m.2 = BitVec.twoPow 32 i) (ch : Channel) :
    changes v ch ((l.filter fun m => test flags m.2).map fun m => .simple add m.2) =
      setModes add (flags &&& orAll l) ch := by
  induction l generalizing ch with
  | nil =>
    have hzero : flags &&& orAll [] = 0#32 := BitVec.and_zero
    rw [hzero, setModes_zero]
    rfl
  | cons m l ih =>
    have htail := ih (fun m' hm' => hbit m' (List.mem_cons_of_mem m hm'))
    obtain ⟨i, hi⟩ := hbit m List.mem_cons_self
    have hand : flags &&& orAll (m :: l) =
        (if test flags m.2 then m.2 else 0#32) ||| (flags &&& orAll l) := by
      rw [orAll, List.foldr_cons, BitVec.and_or_distrib_left, hi, test_twoPow, BitVec.and_twoPow]
      rfl
    rw [hand, ← setModes_setModes, List.filter_cons]
    split_ifs
    · rw [List.map_cons, changes_cons, htail]
      cases add <;> rfl
    · rw [htail, setModes_zero]

theorem Tables.changes_simples (t : Tables) (v : View) (add : Bool) (flags : Flags) (ch : Channel) :
    changes v ch (t.simples add flags) = setModes add (flags &&& t.known) ch :=
  Modes.changes_simples v add flags t.modeList t.simple_bit ch

/-! ### Limits and extended modes -/

theorem changes_exts (v : View) (l : List Nat) (f : Nat → Option CString) (ch : Channel) :
    changes v ch (l.map fun i => .ext i (f i)) =
      { ch with extmodes := fun j => if j ∈ l then f j else ch.extmodes j } := by
  induction l generalizing ch with
  | nil => simp
  | cons i l ih =>
    rw [List.map_cons, changes_cons, ih]
    have hext : (fun j => if j ∈ l then f j else (change v ch (.ext i (f i))).extmodes j) =
        fun j => if j ∈ i :: l then f j else ch.extmodes j := by
      funext j
      by_cases hj : j ∈ l
      · rw [if_pos hj, if_pos (List.mem_cons_of_mem i hj)]
      · by_cases hji : j = i
        · rw [if_neg hj, if_pos (hji ▸ List.mem_cons_self), hji]
          exact if_pos rfl
        · rw [if_neg hj, if_neg (by simp [hj, hji])]
          exact if_neg hji
    rw [hext]
    rfl

/-! ### What commutes -/

def Plain : ModeChange → Prop
  | .simple _ value => value &&& cmodeKey = 0#32
  | .ext .. | .limit _ => True
  | .key _ | .banlike .. | .status .. => False

theorem or_andNot_comm {a b : Flags} (h : a &&& b = 0#32) (m : Flags) :
    (m ||| a) &&& ~~~b = m &&& ~~~b ||| a := by
  apply Lib.Mask.ext
  intro i
  have hi := (eq_zero_iff _).mp h i
  simp only [has_and, has_or, has_not] at hi ⊢
  constructor
  · rintro ⟨hm | ha, hb⟩
    · exact .inl ⟨hm, hb⟩
    · exact .inr ha
  · rintro (⟨hm, hb⟩ | ha)
    · exact ⟨.inl hm, hb⟩
    · exact ⟨.inr ha, ha.lt, fun hb => hi ⟨ha, hb⟩⟩

theorem or_right_comm (m a b : Flags) : m ||| a ||| b = m ||| b ||| a := by
  rw [BitVec.or_assoc, BitVec.or_comm a b, ← BitVec.or_assoc]

theorem and_right_comm (m a b : Flags) : m &&& a &&& b = m &&& b &&& a := by
  rw [BitVec.and_assoc, BitVec.and_comm a b, ← BitVec.and_assoc]

theorem setModes_comm {f g : Flags} (h : f &&& g = 0#32) (add add' : Bool) (ch : Channel) :
    (setModes add g (setModes add' f ch)).modes = (setModes add' f (setModes add g ch)).modes := by
  have hgf : g &&& f = 0#32 := BitVec.and_comm f g ▸ h
  cases add <;> cases add'
  · exact and_right_comm _ _ _
  · exact or_andNot_comm h _
  · exact (or_andNot_comm hgf _).symm
  · exact or_right_comm _ _ _

theorem Plain.eq (v : View) {r : ModeChange} (h : Plain r) :
    ∃ add f, f &&& cmodeKey = 0#32 ∧ ∃ (limit : Nat → Nat) (ext : (Nat → Option CString) → Nat → Option CString),
      ∀ ch, change v ch r = { ch with
        modes := (setModes add f ch).modes, limit := limit ch.limit, extmodes := ext ch.extmodes } := by
  cases r with
  | simple add value =>
    refine ⟨add, value, h, id, id, ?_⟩
    intro ch
    cases add <;> rfl
  | ext i value => 
    refine ⟨true, 0#32, BitVec.zero_and, id, fun e j => if j = i then value else e j, ?_⟩
    intro ch
    rw [setModes_zero]
    rfl
  | limit value =>
    cases value with
    | none => exact ⟨false, cmodeLimit, by decide, fun _ => 0, id, fun ch => rfl⟩
    | some value => exact ⟨true, cmodeLimit, by decide, fun _ => newLimit value, id, fun ch => rfl⟩
  | key value => exact h.elim
  | banlike add type mask => exact h.elim
  | status add mode value nick => exact h.elim

theorem listed_eq (v : View) {p : ModeChange} (h : listed p = true) :
    ∃ add f, f &&& ~~~cmodeKey = 0#32 ∧ ∃ (key : Option CString → Option CString)
        (bans : List Chanban → List Chanban) (members : List Chanuser → List Chanuser),
      ∀ ch, change v ch p = { ch with
        modes := (setModes add f ch).modes, key := key ch.key, bans := bans ch.bans
        members := members ch.members } := by
  cases p with
  | simple add value => exact Bool.noConfusion h
  | ext i value => exact Bool.noConfusion h
  | limit value => exact Bool.noConfusion h
  | key value =>
    cases value with
    | none => exact ⟨false, cmodeKey, by decide, fun _ => none, id, id, fun ch => rfl⟩
    | some value => exact ⟨true, cmodeKey, by decide, fun _ => some value, id, id, fun ch => rfl⟩
  | banlike add type mask =>
    cases add with
    | true =>
      refine ⟨true, 0#32, BitVec.zero_and, id,
        fun bans => (banAdd v ⟨0, 0#32, 0, none, fun _ => none, bans, []⟩ type mask).bans, id, ?_⟩
      intro ch
      rw [setModes_zero]
      simp only [change, banAdd]
      split_ifs <;> rfl
    | false =>
      refine ⟨true, 0#32, BitVec.zero_and, id,
        fun bans => (banDelete v ⟨0, 0#32, 0, none, fun _ => none, bans, []⟩ type mask).bans, id, ?_⟩
      intro ch
      rw [setModes_zero]
      rfl
  | status add mode value nick =>
    refine ⟨true, 0#32, BitVec.zero_and, id, id,
      fun members => (change v ⟨0, 0#32, 0, none, fun _ => none, [], members⟩
        (.status add mode value nick)).members, ?_⟩
    intro ch
    rw [setModes_zero]
    cases hu : v.userFind nick with
    | none => simp only [change, hu, id]
    | some u =>
      simp only [change, hu]
      split_ifs <;> rfl

theorem change_comm (v : View) {r p : ModeChange} (hr : Plain r) (hp : listed p = true)
    (ch : Channel) : change v (change v ch p) r = change v (change v ch r) p := by
  obtain ⟨add, f, hf, limit, ext, hr⟩ := hr.eq v
  obtain ⟨add', g, hg, key, bans, members, hp⟩ := listed_eq v hp
  have hgf : g &&& f = 0#32 := by
    rw [eq_zero_iff] at hf hg ⊢
    intro i hi
    have hgi := hg i
    have hfi := hf i
    simp only [has_and, has_not] at hi hgi hfi
    exact hgi ⟨hi.1, hi.1.lt, fun hk => hfi ⟨hi.2, hk⟩⟩
  have hmodes := setModes_comm hgf add add' ch
  simp only [hr, hp]
  congr 1

theorem changes_comm (v : View) {rs ps : List ModeChange} (hr : ∀ r ∈ rs, Plain r)
    (hp : ∀ p ∈ ps, listed p = true) (ch : Channel) :
    changes v (changes v ch ps) rs = changes v (changes v ch rs) ps := by
  have hone : ∀ r, Plain r → ∀ ps : List ModeChange, (∀ p ∈ ps, listed p = true) → ∀ ch,
      change v (changes v ch ps) r = changes v (change v ch r) ps := by
    intro r hr ps
    induction ps with
    | nil => exact fun _ _ => rfl
    | cons p ps ih =>
      intro hps ch
      have htail := ih (fun p' hp' => hps p' (List.mem_cons_of_mem p hp')) (change v ch p)
      rw [changes_cons, changes_cons, htail, change_comm v hr (hps p List.mem_cons_self)]
  induction rs generalizing ch with
  | nil => rfl
  | cons r rs ih =>
    have htail := ih (fun r' hr' => hr r' (List.mem_cons_of_mem r hr')) (change v ch r)
    rw [changes_cons, changes_cons, hone r (hr r List.mem_cons_self) ps hp, htail]

end ChatServices.Modes
