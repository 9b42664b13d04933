import ChatServices.ChanServ.Templates

/-! Any text of a template list: what its readers make of it, and of the text after an item was
rewritten, taken out or put at the end. -/
namespace ChatServices.ChanServ
open ChatServices.Text

/-- A `name=value` of the text, with the spaces behind it. -/
structure Segment where
  name : CString
  value : CString
  gap : CString

def Segment.text (g : Segment) : CString := g.name ++ '=' :: g.value ++ g.gap

structure Segment.Wf (g : Segment) : Prop where
  name : '=' ∉ g.name
  start : g.name.head? ≠ some ' '
  value : ' ' ∉ g.value
  gap : ∀ c ∈ g.gap, c = ' '

/-- The segments of a text, and a last word without `=`. -/
def Segmented : List Segment → CString → Prop
  | [], last => '=' ∉ last ∧ last.head? ≠ some ' '
  | g :: gs, last => g.Wf ∧ (g.gap = [] → gs = [] ∧ last = []) ∧ Segmented gs last

def segText (gs : List Segment) (last : CString) : CString := gs.flatMap Segment.text ++ last

def restOf (gap text : CString) : Option CString := if gap ++ text = [] then none else some (gap ++ text)

def segItems : Nat → List Segment → CString → List TemplateItem
  | _, [], _ => []
  | off, g :: gs, last =>
    ⟨off, g.name, '=' :: g.value, restOf g.gap (segText gs last)⟩ ::
      segItems (off + g.text.length) gs last

/-- The segments as `getitem` reads them behind spaces, which it takes for a part of the first name. -/
def leadSegments (lead : CString) : List Segment → List Segment
  | [] => []
  | g :: gs => ⟨lead ++ g.name, g.value, g.gap⟩ :: gs

/-- A text is made of spaces, segments and a last word. -/
structure Laid (text lead : CString) (gs : List Segment) (last : CString) : Prop where
  spaces : ∀ c ∈ lead, c = ' '
  segmented : Segmented gs last
  text_eq : text = lead ++ segText gs last

def readItem (gs : List Segment) (name : CString) : Option CString :=
  (gs.find? fun g => strcaseEq g.name name).map fun g => truncate 300 ('=' :: g.value)

section segments
variable {g : Segment} {gs pre post : List Segment} {last text name : CString}

theorem segText_cons (g : Segment) (gs : List Segment) (last : CString) :
    segText (g :: gs) last = g.name ++ '=' :: (g.value ++ (g.gap ++ segText gs last)) := by
  simp [segText, Segment.text]

theorem segText_append (pre post : List Segment) (last : CString) :
    segText (pre ++ post) last = segText pre [] ++ segText post last := by
  simp [segText]

theorem takeWhile_split {p : Char → Bool} {a b : CString} (ha : ∀ c ∈ a, p c = true)
    (hb : ∀ c ∈ b.head?, p c = false) :
    (a ++ b).takeWhile p = a ∧ (a ++ b).dropWhile p = b := by
  rw [List.takeWhile_append_of_pos ha, List.dropWhile_append_of_pos ha]
  cases b with
  | nil => simp
  | cons c b =>
    have hc : p c = false := hb c rfl
    simp [hc]

theorem ne_of_not_mem {a : CString} {x : Char} (h : x ∉ a) : ∀ c ∈ a, decide (c ≠ x) = true := by
  intro c hc
  have hne : c ≠ x := fun heq => h (heq ▸ hc)
  simpa using hne

theorem dropSpaces_head (a : CString) : (a.dropWhile (· = ' ')).head? ≠ some ' ' := by
  induction a with
  | nil => simp
  | cons c a ih =>
    by_cases hc : c = ' '
    · rwa [List.dropWhile_cons_of_pos (by simpa using hc)]
    · simp [hc]

theorem exists_segments (h : text.head? ≠ some ' ') :
    ∃ gs last, Segmented gs last ∧ text = segText gs last := by
  induction hk : text.length using Nat.strongRecOn generalizing text with
  | ind k ih =>
    by_cases hmem : '=' ∈ text
    · obtain ⟨n, q, rfl, hn⟩ := List.eq_append_cons_of_mem hmem
      have hstart : n.head? ≠ some ' ' := by
        cases n with
        | nil => simp
        | cons c n => simpa using h
      by_cases hspace : ' ' ∈ q
      · obtain ⟨v, r, rfl, hv⟩ := List.eq_append_cons_of_mem hspace
        have hlen := (List.dropWhile_suffix (l := r) (· = ' ')).length_le
        simp only [List.length_append, List.length_cons] at hk
        obtain ⟨gs, last, hseg, hrest⟩ := ih _ (by omega) (dropSpaces_head r) rfl
        refine ⟨⟨n, v, ' ' :: r.takeWhile (· = ' ')⟩ :: gs, last, ⟨⟨hn, hstart, hv, ?_⟩, ?_, hseg⟩, ?_⟩
        · intro c hc
          obtain rfl | hc := List.mem_cons.mp hc
          · rfl
          · simpa using List.mem_takeWhile_imp hc
        · intro hnil
          cases hnil
        · rw [segText_cons, ← hrest, List.cons_append, List.takeWhile_append_dropWhile]
      · exact ⟨[⟨n, q, []⟩], [], ⟨⟨hn, hstart, hspace, by simp⟩, fun _ => ⟨rfl, rfl⟩, by simp, by simp⟩,
          by simp [segText, Segment.text]⟩
    · exact ⟨[], text, ⟨hmem, h⟩, rfl⟩

theorem exists_laid (text : CString) : ∃ lead gs last, Laid text lead gs last := by
  obtain ⟨gs, last, hseg, hrest⟩ := exists_segments (dropSpaces_head text)
  refine ⟨text.takeWhile (· = ' '), gs, last, fun c hc => ?_, hseg, ?_⟩
  · simpa using List.mem_takeWhile_imp hc
  · rw [← hrest, List.takeWhile_append_dropWhile]

theorem Segmented.start (h : Segmented gs last) : (segText gs last).head? ≠ some ' ' := by
  cases gs with
  | nil => exact h.2
  | cons g gs =>
    obtain ⟨hwf, -⟩ := h
    rw [segText_cons]
    cases hn : g.name with
    | nil => simp
    | cons c n =>
      have hstart := hwf.start
      rw [hn] at hstart
      simpa using hstart

theorem Segmented.afterName (h : Segmented (g :: gs) last) :
    (segText (g :: gs) last).takeWhile (· ≠ '=') = g.name ∧
      (segText (g :: gs) last).dropWhile (· ≠ '=') =
        '=' :: g.value ++ (g.gap ++ segText gs last) := by
  rw [segText_cons]
  exact takeWhile_split (ne_of_not_mem h.1.name) (by simp)

theorem Segmented.restStart (h : Segmented (g :: gs) last) :
    ∀ c ∈ (g.gap ++ segText gs last).head?, decide (c ≠ ' ') = false := by
  obtain ⟨hwf, hgap, -⟩ := h
  cases hg : g.gap with
  | nil =>
    obtain ⟨rfl, rfl⟩ := hgap hg
    simp [segText]
  | cons c gap =>
    have hc := hwf.gap c (by simp [hg])
    simp [hc]

theorem Segmented.afterValue (h : Segmented (g :: gs) last) :
    ('=' :: g.value ++ (g.gap ++ segText gs last)).takeWhile (· ≠ ' ') = '=' :: g.value ∧
      ('=' :: g.value ++ (g.gap ++ segText gs last)).dropWhile (· ≠ ' ') =
        g.gap ++ segText gs last := by
  refine takeWhile_split (ne_of_not_mem ?_) h.restStart
  intro hin
  exact h.1.value ((List.mem_cons.mp hin).resolve_left (by decide))

theorem Segmented.afterGap (h : Segmented gs last) {gap : CString} (hgap : ∀ c ∈ gap, c = ' ') :
    (gap ++ segText gs last).dropWhile (· = ' ') = segText gs last := by
  refine (takeWhile_split (fun c hc => by simp [hgap c hc]) fun c hc => ?_).2
  have hne : c ≠ ' ' := by
    rintro rfl
    exact h.start hc
  simpa using hne

/-! ### What the readers find -/

theorem toupper_eq_iff {c x : Char} (hx : x.toNat < 65) : toupper c = x ↔ c = x := by
  rw [toupper]
  split_ifs with h
  · have hsmall : c.toNat < 128 := by
      have hle : c.toNat ≤ 'z'.toNat := h.2
      have hz : 'z'.toNat = 122 := rfl
      omega
    have hall : ∀ n < 128, 'a' ≤ Char.ofNat n ∧ Char.ofNat n ≤ 'z' →
        65 ≤ (Char.ofNat (n - 32)).toNat ∧ 65 ≤ (Char.ofNat n).toNat := by decide +kernel
    have hc := hall c.toNat hsmall
    rw [Char.ofNat_toNat] at hc
    obtain ⟨hupper, hlower⟩ := hc h
    constructor
    · rintro rfl
      omega
    · rintro rfl
      omega
  · rfl

theorem strcaseEq_comm (a b : CString) : strcaseEq a b = strcaseEq b a :=
  decide_eq_decide.mpr eq_comm

theorem strcaseEq_trans {a b c : CString} (h : strcaseEq a b = true) :
    strcaseEq a c = strcaseEq b c := by
  have hcanon : strcasecanon a = strcasecanon b := of_decide_eq_true h
  rw [strcaseEq, strcaseEq, hcanon]

theorem strcaseEq_append (a b c : CString) : strcaseEq (a ++ b) (a ++ c) = strcaseEq b c := by
  refine decide_eq_decide.mpr ?_
  rw [strcasecanon, strcasecanon, List.map_append, List.map_append, List.append_cancel_left_eq]
  rfl

theorem mem_of_strcaseEq {a b : CString} {x : Char} (hx : x.toNat < 65)
    (h : strcaseEq a b = true) : x ∈ a ↔ x ∈ b := by
  have hcanon : ∀ s : CString, x ∈ strcasecanon s ↔ x ∈ s := by
    intro s
    simp [strcasecanon, toupper_eq_iff hx]
  rw [← hcanon a, ← hcanon b, of_decide_eq_true h]

theorem head_of_strcaseEq {a b : CString} {x : Char} (hx : x.toNat < 65)
    (h : strcaseEq a b = true) : a.head? = some x ↔ b.head? = some x := by
  have hcanon : ∀ s : CString, (strcasecanon s).head? = some x ↔ s.head? = some x := by
    intro s
    simp [strcasecanon, List.head?_map, toupper_eq_iff hx]
  rw [← hcanon a, ← hcanon b, of_decide_eq_true h]

theorem length_le_segText (gs : List Segment) (last : CString) :
    gs.length ≤ (segText gs last).length := by
  induction gs with
  | nil => exact Nat.zero_le _
  | cons g gs ih =>
    rw [segText_cons]
    simp only [List.length_append, List.length_cons]
    omega

theorem templateItemsFrom_segments (h : Segmented gs last) (fuel off : Nat) {gap : CString}
    (hgap : ∀ c ∈ gap, c = ' ') (hfuel : gs.length < fuel) :
    templateItemsFrom fuel off (gap ++ segText gs last) = segItems (off + gap.length) gs last := by
  induction gs generalizing fuel off gap with
  | nil =>
    cases fuel with
    | zero => cases hfuel
    | succ fuel =>
      have hnone : (segText [] last).dropWhile (· ≠ '=') = [] := by
        rw [List.dropWhile_eq_nil_iff]
        exact ne_of_not_mem h.1
      rw [templateItemsFrom, h.afterGap hgap, if_pos hnone]
      rfl
  | cons g gs ih =>
    cases fuel with
    | zero => cases hfuel
    | succ fuel =>
      have hname := h.afterName
      have hvalue := h.afterValue
      have hlen : (gap ++ segText (g :: gs) last).length - (segText (g :: gs) last).length =
          gap.length := by
        simp
      have hrest : (segText (g :: gs) last).length - (g.gap ++ segText gs last).length =
          g.text.length - g.gap.length := by
        rw [segText_cons, Segment.text]
        simp only [List.length_append, List.length_cons]
        omega
      have hgaplen : g.gap.length ≤ g.text.length := by
        rw [Segment.text]
        simp only [List.length_append, List.length_cons]
        omega
      have hoff : off + gap.length + (g.text.length - g.gap.length) + g.gap.length =
          off + gap.length + g.text.length := by omega
      rw [templateItemsFrom, h.afterGap hgap, hlen, hname.1, hname.2, if_neg (by simp)]
      dsimp only
      rw [hvalue.1, hvalue.2, hrest, ih h.2.2 fuel _ h.1.gap (by simpa using hfuel), hoff, segItems,
        restOf]

theorem Laid.head_iff {lead : CString} (h : Laid text lead gs last) :
    text.head? = some ' ' ↔ lead ≠ [] := by
  rw [h.text_eq]
  cases lead with
  | nil => simpa using h.segmented.start
  | cons x lead => simp [h.spaces x List.mem_cons_self]

theorem Laid.items {lead : CString} (h : Laid text lead gs last) :
    templateItems text = segItems lead.length gs last := by
  have hfuel := length_le_segText gs last
  rw [templateItems, h.text_eq, templateItemsFrom_segments h.segmented _ 0 h.spaces, Nat.zero_add]
  rw [List.length_append]
  omega

theorem getitemFrom_segments (h : Segmented gs last) (fuel : Nat) (hfuel : gs.length < fuel) :
    getitemFrom fuel (segText gs last) name = readItem gs name := by
  induction gs generalizing fuel with
  | nil =>
    cases fuel with
    | zero => cases hfuel
    | succ fuel =>
      have hnone : (segText [] last).dropWhile (· ≠ '=') = [] := by
        rw [List.dropWhile_eq_nil_iff]
        exact ne_of_not_mem h.1
      rw [getitemFrom, if_pos hnone]
      rfl
  | cons g gs ih =>
    cases fuel with
    | zero => cases hfuel
    | succ fuel =>
      have hname := h.afterName
      have hvalue := h.afterValue
      rw [getitemFrom, hname.1, hname.2, if_neg (by simp), hvalue.2,
        h.2.2.afterGap h.1.gap, readItem, List.find?_cons]
      cases hsame : strcaseEq g.name name with
      | true =>
        rw [if_pos rfl, Option.map_some, truncate, truncate, ← List.take_takeWhile, hvalue.1]
      | false =>
        rw [if_neg (by simp)]
        exact ih h.2.2 fuel (by simpa using hfuel)

theorem getitem_segments (h : Segmented gs last) (name : CString) :
    getitem (segText gs last) name = readItem gs name := by
  have hfuel := length_le_segText gs last
  exact getitemFrom_segments h _ (by omega)

theorem getitem_equals (h : '=' ∈ name) : getitem text name = none := by
  have hfrom : ∀ fuel str, getitemFrom fuel str name = none := by
    intro fuel
    induction fuel with
    | zero => exact fun str => rfl
    | succ fuel ih =>
      intro str
      have hne : strcaseEq (str.takeWhile (· ≠ '=')) name = false := by
        rw [Bool.eq_false_iff]
        intro hsame
        have hmem := (mem_of_strcaseEq (by decide) hsame).mpr h
        simpa using List.mem_takeWhile_imp hmem
      rw [getitemFrom, hne]
      simp [ih]
  exact hfrom _ text

theorem getitem_plain (h : '=' ∉ text) : getitem text name = none := by
  have hnone : text.dropWhile (· ≠ '=') = [] := by
    rw [List.dropWhile_eq_nil_iff]
    exact ne_of_not_mem h
  rw [getitem, getitemFrom, if_pos hnone]

theorem getitem_lead (h : Segmented gs last) {lead : CString} (hlead : ∀ c ∈ lead, c = ' ')
    (name : CString) : getitem (lead ++ segText gs last) name = readItem (leadSegments lead gs) name := by
  cases gs with
  | nil =>
    have hplain : '=' ∉ lead ++ segText [] last := by
      rw [List.mem_append, not_or]
      exact ⟨fun hin => absurd (hlead _ hin) (by decide), h.1⟩
    rw [getitem_plain hplain]
    rfl
  | cons g gs =>
    have hname : '=' ∉ lead ++ g.name := by
      rw [List.mem_append, not_or]
      exact ⟨fun hin => absurd (hlead _ hin) (by decide), h.1.name⟩
    have hsplit := takeWhile_split (a := lead ++ g.name)
      (b := '=' :: (g.value ++ (g.gap ++ segText gs last))) (ne_of_not_mem hname) (by simp)
    have hvalue := h.afterValue
    rw [List.cons_append] at hvalue
    rw [getitem, getitemFrom, segText_cons, ← List.append_assoc, hsplit.1, hsplit.2,
      if_neg (by simp), hvalue.2, h.2.2.afterGap h.1.gap, leadSegments, readItem, List.find?_cons]
    cases hsame : strcaseEq (lead ++ g.name) name with
    | true =>
      rw [if_pos rfl, Option.map_some, truncate, truncate, ← List.take_takeWhile, hvalue.1]
    | false =>
      have hfuel := length_le_segText gs last
      rw [if_neg (by simp)]
      refine getitemFrom_segments h.2.2 _ ?_
      simp only [List.length_append, List.length_cons]
      omega

theorem Laid.read {lead : CString} (h : Laid text lead gs last) (name : CString) :
    getitem text name = readItem (leadSegments lead gs) name := by
  rw [h.text_eq, getitem_lead h.segmented h.spaces]

theorem find_segItems_none {role : CString} (off : Nat)
    (h : ∀ g ∈ gs, strcaseEq role g.name = false) :
    (segItems off gs last).find? (fun i => strcaseEq role i.name) = none := by
  induction gs generalizing off with
  | nil => rfl
  | cons g gs ih =>
    have hg := h g (List.mem_cons_self ..)
    rw [segItems, List.find?_cons]
    dsimp only
    rw [hg]
    exact ih _ fun q hq => h q (List.mem_cons_of_mem g hq)

theorem find_segItems {role : CString} (off : Nat) (hpre : ∀ q ∈ pre, strcaseEq role q.name = false)
    (hg : strcaseEq role g.name = true) :
    (segItems off (pre ++ g :: post) last).find? (fun i => strcaseEq role i.name) =
      some ⟨off + (segText pre []).length, g.name, '=' :: g.value,
        restOf g.gap (segText post last)⟩ := by
  induction pre generalizing off with
  | nil => simp [segItems, hg, segText]
  | cons q pre ih =>
    have hq := hpre q (List.mem_cons_self ..)
    have hrest := ih (off + q.text.length) fun r hr => hpre r (List.mem_cons_of_mem q hr)
    have hlen : (segText (q :: pre) []).length = q.text.length + (segText pre []).length := by
      simp [segText]
    rw [List.cons_append, segItems, List.find?_cons]
    dsimp only
    rw [hq, hrest, hlen, Nat.add_assoc]

theorem length_segItems (off : Nat) : (segItems off gs last).length = gs.length := by
  induction gs generalizing off with
  | nil => rfl
  | cons g gs ih => rw [segItems, List.length_cons, ih, List.length_cons]

theorem countP_segItems {role : CString} (off : Nat) :
    (segItems off gs last).countP (fun i => strcaseEq role i.name) =
      gs.countP fun g => strcaseEq role g.name := by
  induction gs generalizing off with
  | nil => rfl
  | cons g gs ih => rw [segItems, List.countP_cons, List.countP_cons, ih]

theorem exists_segItem (off : Nat) (h : g ∈ gs) :
    ∃ item ∈ segItems off gs last, item.value = '=' :: g.value := by
  induction gs generalizing off with
  | nil => cases h
  | cons q gs ih =>
    rw [segItems]
    obtain rfl | h := List.mem_cons.mp h
    · exact ⟨_, List.mem_cons_self, rfl⟩
    · obtain ⟨item, hitem, hvalue⟩ := ih (off + q.text.length) h
      exact ⟨item, List.mem_cons_of_mem _ hitem, hvalue⟩

theorem getLast?_segItems {p : Segment} (off : Nat) :
    (segItems off (pre ++ [p]) last).getLast? =
      some ⟨off + (segText pre []).length, p.name, '=' :: p.value, restOf p.gap last⟩ := by
  induction pre generalizing off with
  | nil => simp [segItems, segText]
  | cons q pre ih =>
    have hlen : (segText (q :: pre) []).length = q.text.length + (segText pre []).length := by
      simp [segText]
    rw [List.cons_append, segItems, List.getLast?_cons, ih, hlen, Nat.add_assoc]
    rfl

theorem getitem_single (name : CString) {role flagstr : CString} (hname : '=' ∉ role) (hflags : ' ' ∉ flagstr) :
    getitem (role ++ '=' :: flagstr) name =
      if strcaseEq role name = true then some (truncate 300 ('=' :: flagstr)) else none := by
  have hsplit := takeWhile_split (a := role) (b := '=' :: flagstr) (ne_of_not_mem hname) (by simp)
  have hvalue : ∀ c ∈ '=' :: flagstr, decide (c ≠ ' ') = true := by
    refine ne_of_not_mem fun hin => ?_
    exact hflags ((List.mem_cons.mp hin).resolve_left (by decide))
  have hrest : ('=' :: flagstr).dropWhile (· ≠ ' ') = [] := by
    rw [List.dropWhile_eq_nil_iff]
    exact hvalue
  rw [getitem, getitemFrom, hsplit.1, hsplit.2, if_neg (by simp), hrest, truncate,
    ← List.take_takeWhile, List.takeWhile_eq_self_iff.mpr hvalue]
  split
  · rfl
  · cases (role ++ '=' :: flagstr).length <;> rfl

/-! ### What is written -/

theorem getD_restOf (gap text : CString) : (restOf gap text).getD [] = gap ++ text := by
  rw [restOf]
  by_cases hnil : gap ++ text = []
  · rw [if_pos hnil, hnil]
    rfl
  · rw [if_neg hnil]
    rfl

section write
variable {item : TemplateItem} {role flagstr lead : CString} {p : Segment}

theorem rewriteTemplate_some_segments (hoff : item.off = lead.length + (segText pre []).length)
    (hrest : item.rest = restOf g.gap (segText post last)) :
    rewriteTemplate (lead ++ segText (pre ++ g :: post) last) item role (some flagstr) =
      truncate 400 (lead ++ segText (pre ++ ⟨role, flagstr, g.gap⟩ :: post) last) := by
  rw [rewriteTemplate, hoff, hrest, getD_restOf, segText_append pre, ← List.length_append,
    ← List.append_assoc lead (segText pre []), List.take_left, segText_append pre, segText_cons]
  simp

theorem rewriteTemplate_some_lead (hoff : item.off = lead.length)
    (hrest : item.rest = restOf g.gap (segText post last)) :
    rewriteTemplate (lead ++ segText (g :: post) last) item role (some flagstr) =
      truncate 400 (lead ++ segText (⟨role, flagstr, g.gap⟩ :: post) last) := by
  have hnone : item.off = lead.length + (segText [] []).length := hoff
  exact rewriteTemplate_some_segments hnone hrest

theorem rewriteTemplate_none_first (hoff : item.off = 0)
    (hrest : item.rest = restOf g.gap (segText post last)) :
    rewriteTemplate (segText (g :: post) last) item role none =
      truncate 400 ((g.gap ++ segText post last).drop 1) := by
  rw [rewriteTemplate, if_pos hoff, hrest, getD_restOf]

/-- Behind spaces, the space in front of the first item goes with it. -/
theorem rewriteTemplate_none_lead (hoff : item.off = lead.length) (hlead : lead ≠ [])
    (hrest : item.rest = restOf g.gap (segText post last)) :
    rewriteTemplate (lead ++ segText (g :: post) last) item role none =
      truncate 400 (lead.dropLast ++ (g.gap ++ segText post last)) := by
  have hlen : lead.length ≠ 0 := fun h => hlead (List.length_eq_zero_iff.mp h)
  rw [rewriteTemplate, hoff, if_neg hlen, hrest, getD_restOf, List.take_append_of_le_length (by omega),
    List.dropLast_eq_take]

theorem rewriteTemplate_none_later (hoff : item.off = lead.length + (segText (pre ++ [p]) []).length)
    (hrest : item.rest = restOf g.gap (segText post last)) (hgap : p.gap ≠ []) :
    rewriteTemplate (lead ++ segText (pre ++ p :: g :: post) last) item role none =
      truncate 400
        (lead ++ segText (pre ++ ⟨p.name, p.value, p.gap.dropLast ++ g.gap⟩ :: post) last) := by
  have hfront : segText (pre ++ [p]) [] =
      segText pre [] ++ (p.name ++ '=' :: (p.value ++ p.gap.dropLast)) ++ [p.gap.getLast hgap] := by
    have hsplit := List.dropLast_append_getLast hgap
    rw [segText_append, segText_cons]
    simp [segText, hsplit]
  have hlen : item.off - 1 =
      (lead ++ (segText pre [] ++ (p.name ++ '=' :: (p.value ++ p.gap.dropLast)))).length := by
    have hadd := congrArg List.length hfront
    rw [List.length_append, List.length_singleton] at hadd
    rw [List.length_append]
    omega
  have hpos : item.off ≠ 0 := by
    rw [hoff, hfront]
    simp
  have htext : segText (pre ++ p :: g :: post) last =
      segText (pre ++ [p]) [] ++ segText (g :: post) last := by
    rw [← segText_append]
    simp
  rw [rewriteTemplate, if_neg hpos, hrest, getD_restOf, htext, hfront, hlen, List.append_assoc,
    ← List.append_assoc lead (segText pre [] ++ _), List.take_left, segText_append pre, segText_cons]
  simp

theorem appendTemplate_clean (pre : List Segment) (p : Segment) (gap role flagstr : CString) :
    appendTemplate (some (lead ++ segText (pre ++ [p]) [])) (gap ++ role) flagstr =
      truncate 400
        (lead ++ segText (pre ++ [⟨p.name, p.value, p.gap ++ ' ' :: gap⟩, ⟨role, flagstr, []⟩]) []) := by
  rw [appendTemplate, segText_append, segText_append, segText_cons, segText_cons, segText_cons]
  simp [segText]

theorem appendTemplate_word :
    appendTemplate (some (lead ++ segText gs last)) role flagstr =
      truncate 400 (lead ++ segText (gs ++ [⟨last ++ ' ' :: role, flagstr, []⟩]) []) := by
  rw [appendTemplate, segText_append, segText_cons]
  simp [segText]

end write

/-! ### The edited text has segments again -/

section edit
variable {role flagstr : CString} {p : Segment}

theorem segmented_append (hne : post ≠ [] ∨ last ≠ []) :
    Segmented (pre ++ post) last ↔ (∀ g ∈ pre, g.Wf ∧ g.gap ≠ []) ∧ Segmented post last := by
  induction pre with
  | nil => simp
  | cons q pre ih =>
    have hmore : ¬(pre ++ post = [] ∧ last = []) := by
      rintro ⟨hnil, hlast⟩
      exact hne.elim (fun h => h (List.append_eq_nil_iff.mp hnil).2) fun h => h hlast
    rw [List.cons_append, Segmented, ih, List.forall_mem_cons]
    simp only [hmore, imp_false]
    tauto

theorem Segmented.put (h : Segmented (pre ++ g :: post) last) (hg : strcaseEq role g.name = true)
    (hflags : ' ' ∉ flagstr) : Segmented (pre ++ ⟨role, flagstr, g.gap⟩ :: post) last := by
  rw [segmented_append (by simp)] at h ⊢
  obtain ⟨hpre, hwf, hgap, hpost⟩ := h
  refine ⟨hpre, ⟨?_, ?_, hflags, hwf.gap⟩, hgap, hpost⟩
  · rw [mem_of_strcaseEq (by decide) hg]
    exact hwf.name
  · intro hstart
    exact hwf.start ((head_of_strcaseEq (by decide) hg).mp hstart)

theorem Segmented.tail (h : Segmented (pre ++ post) last) : Segmented post last := by
  induction pre with
  | nil => exact h
  | cons q pre ih => exact ih h.2.2

theorem Segmented.wf (h : Segmented gs last) : ∀ g ∈ gs, g.Wf := by
  induction gs with
  | nil => simp
  | cons q gs ih =>
    rw [List.forall_mem_cons]
    exact ⟨h.1, ih h.2.2⟩

theorem Segmented.unspaced (h : Segmented gs last) (hrole : role.head? = some ' ') :
    ∀ q ∈ gs, strcaseEq role q.name = false := by
  intro q hq
  rw [Bool.eq_false_iff]
  intro hsame
  exact (h.wf q hq).start ((head_of_strcaseEq (by decide) hsame).mp hrole)

theorem Segmented.dropLater (h : Segmented (pre ++ p :: g :: post) last) :
    p.gap ≠ [] ∧
      Segmented (pre ++ ⟨p.name, p.value, p.gap.dropLast ++ g.gap⟩ :: post) last := by
  rw [segmented_append (by simp)] at h
  obtain ⟨hpre, hp, hpgap, hg, hggap, hpost⟩ := h
  have hne : p.gap ≠ [] := by
    intro hnil
    cases (hpgap hnil).1
  refine ⟨hne, ?_⟩
  rw [segmented_append (by simp)]
  refine ⟨hpre, ⟨hp.name, hp.start, hp.value, ?_⟩, ?_, hpost⟩
  · intro c hc
    obtain hc | hc := List.mem_append.mp hc
    · exact hp.gap c (List.mem_of_mem_dropLast hc)
    · exact hg.gap c hc
  · intro hnil
    exact hggap (List.append_eq_nil_iff.mp hnil).2

theorem Segmented.appended (h : Segmented (pre ++ [p]) []) (hname : '=' ∉ role)
    (hstart : role.head? ≠ some ' ') (hflags : ' ' ∉ flagstr) {gap : CString}
    (hgap : ∀ c ∈ gap, c = ' ') :
    Segmented (pre ++ [⟨p.name, p.value, p.gap ++ ' ' :: gap⟩, ⟨role, flagstr, []⟩]) [] := by
  rw [segmented_append (by simp)] at h ⊢
  obtain ⟨hpre, hp, -⟩ := h
  have hgaps : ∀ c ∈ p.gap ++ ' ' :: gap, c = ' ' := by
    intro c hc
    simp only [List.mem_append, List.mem_cons] at hc
    obtain hc | rfl | hc := hc
    · exact hp.gap c hc
    · rfl
    · exact hgap c hc
  exact ⟨hpre, ⟨hp.name, hp.start, hp.value, hgaps⟩, by simp, ⟨hname, hstart, hflags, by simp⟩,
    by simp, by simp, by simp⟩

theorem Segmented.appendedWord (h : Segmented gs last) (hlast : last ≠ []) (hname : '=' ∉ role)
    (hflags : ' ' ∉ flagstr) : Segmented (gs ++ [⟨last ++ ' ' :: role, flagstr, []⟩]) [] := by
  rw [segmented_append (by simp)]
  rw [← List.append_nil gs, segmented_append (.inr hlast)] at h
  obtain ⟨hgs, hword, hstart⟩ := h
  refine ⟨hgs, ⟨?_, ?_, hflags, by simp⟩, by simp, by simp, by simp⟩
  · simp [hword, hname]
  · rwa [List.head?_append_of_ne_nil _ hlast]

/-! ### What the readers find in the edited text -/

theorem readItem_append : readItem (pre ++ post) name = (readItem pre name).or (readItem post name) := by
  rw [readItem, List.find?_append, Option.map_or, readItem, readItem]

theorem readItem_cons : readItem (g :: gs) name =
    if strcaseEq g.name name = true then some (truncate 300 ('=' :: g.value))
    else readItem gs name := by
  rw [readItem, List.find?_cons]
  cases strcaseEq g.name name <;> rfl

@[simp] theorem leadSegments_nil (gs : List Segment) : leadSegments [] gs = gs := by
  cases gs <;> rfl

theorem leadSegments_append {lead : CString} (h : lead = [] ∨ pre ≠ []) :
    leadSegments lead (pre ++ post) = leadSegments lead pre ++ post := by
  obtain rfl | h := h
  · simp
  · cases pre with
    | nil => exact absurd rfl h
    | cons q pre => rfl

/-- A name that begins with no space is not the first one behind spaces. -/
theorem leadSegments_other {lead : CString} (hlead : ∀ c ∈ lead, c = ' ')
    (h : ∀ q ∈ gs, strcaseEq role q.name = false) (hrole : lead = [] ∨ role.head? ≠ some ' ') :
    ∀ q ∈ leadSegments lead gs, strcaseEq role q.name = false := by
  cases gs with
  | nil => exact fun q hq => absurd hq List.not_mem_nil
  | cons g gs =>
    intro q hq
    obtain rfl | hq := List.mem_cons.mp hq
    · cases lead with
      | nil => exact h g List.mem_cons_self
      | cons x lead =>
        have hx : x = ' ' := hlead x List.mem_cons_self
        rw [Bool.eq_false_iff]
        intro hsame
        refine hrole.resolve_left (List.cons_ne_nil x lead) ?_
        rw [head_of_strcaseEq (by decide) hsame, hx]
        rfl
    · exact h q (List.mem_cons_of_mem g hq)

theorem readItem_none (h : ∀ q ∈ gs, strcaseEq role q.name = false) : readItem gs role = none := by
  rw [readItem, Option.map_eq_none_iff, List.find?_eq_none]
  intro q hq
  rw [strcaseEq_comm, h q hq]
  simp

theorem readItem_some (h : ∃ q ∈ gs, strcaseEq role q.name = true) :
    ∃ q ∈ gs, readItem gs role = some (truncate 300 ('=' :: q.value)) := by
  obtain ⟨q, hq, hsame⟩ := h
  cases hfind : gs.find? (fun g => strcaseEq g.name role) with
  | none =>
    have hnot := List.find?_eq_none.mp hfind q hq
    rw [strcaseEq_comm] at hsame
    exact absurd hsame hnot
  | some g =>
    refine ⟨g, List.mem_of_find?_eq_some hfind, ?_⟩
    rw [readItem, hfind]
    rfl

theorem readItem_gap {gap : CString} :
    readItem (pre ++ ⟨p.name, p.value, gap⟩ :: post) name = readItem (pre ++ p :: post) name := by
  rw [readItem_append, readItem_append, readItem_cons, readItem_cons]

theorem readItem_leadGap {lead gap : CString} :
    readItem (leadSegments lead (pre ++ ⟨p.name, p.value, gap⟩ :: post)) name =
      readItem (leadSegments lead (pre ++ p :: post)) name := by
  cases pre with
  | nil => rw [List.nil_append, List.nil_append, leadSegments, leadSegments, readItem_cons, readItem_cons]
  | cons q pre =>
    rw [List.cons_append, List.cons_append, leadSegments, leadSegments, ← List.cons_append,
      ← List.cons_append, readItem_gap]

theorem readItem_put (hpre : ∀ q ∈ pre, strcaseEq role q.name = false)
    (hg : strcaseEq role g.name = true) {gap : CString} :
    readItem (pre ++ ⟨role, flagstr, gap⟩ :: post) name =
      if strcaseEq role name = true then some (truncate 300 ('=' :: flagstr))
      else readItem (pre ++ g :: post) name := by
  have hother : strcaseEq g.name name = strcaseEq role name := (strcaseEq_trans hg).symm
  rw [readItem_append, readItem_append, readItem_cons, readItem_cons, hother]
  split
  · rename_i hname
    have hnone : readItem pre name = none := by
      refine readItem_none fun q hq => ?_
      rw [← strcaseEq_trans hname]
      exact hpre q hq
    rw [hnone]
    rfl
  · rfl

theorem readItem_drop (hg : strcaseEq role g.name = true) (hname : strcaseEq role name = false) :
    readItem (pre ++ post) name = readItem (pre ++ g :: post) name := by
  rw [readItem_append, readItem_append, readItem_cons, ← strcaseEq_trans hg, hname]
  rfl

theorem readItem_appended (hgs : ∀ q ∈ gs, strcaseEq role q.name = false) {gap : CString} :
    readItem (gs ++ [⟨role, flagstr, gap⟩]) name =
      if strcaseEq role name = true then some (truncate 300 ('=' :: flagstr))
      else readItem gs name := by
  rw [readItem_append, readItem_cons]
  split
  · rename_i hname
    have hnone : readItem gs name = none := by
      refine readItem_none fun q hq => ?_
      rw [← strcaseEq_trans hname]
      exact hgs q hq
    rw [hnone]
    rfl
  · exact Option.or_none

end edit

end segments
end ChatServices.ChanServ
