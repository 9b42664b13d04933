import Mathlib.Data.List.Find
import ChatServices.Lib.PairText
import ChatServices.ChanServ.Templates

/-! The templates of a channel as a table of names and flag texts. The loop of the editors and
that of `getitem` read the same table from the text, and what the editors write is the text of
the edited table. -/
namespace ChatServices.ChanServ
open ChatServices.Lib ChatServices.Lib.Mask ChatServices.Lib.PairText ChatServices.Text

abbrev TemplateTable := Registry CString (Pair Char)

/-- The room that the buffer `ss` has for a flag text behind its `=`. -/
def flagTextMax : Nat := 38

structure TableWf (st : TemplateTable) : Prop where
  keyed : ∀ e ∈ st.entries, e.1 = strcasecanon e.2.1
  pairs : ∀ e ∈ st.entries, Wf '=' ' ' e.2
  short : ∀ e ∈ st.entries, e.2.2.length ≤ flagTextMax

def tablePairs (st : TemplateTable) : List (Pair Char) := st.entries.map Prod.snd

def tableText (st : TemplateTable) : CString := join '=' ' ' (tablePairs st)

def HoldsTable (chan : MyChan) (st : TemplateTable) : Prop :=
  chan.templates = if st.entries = [] then none else some (tableText st)

/-! ### Reading -/

def pairItems : Nat → List (Pair Char) → List TemplateItem
  | _, [] => []
  | off, p :: ps =>
    ⟨off, p.1, '=' :: p.2, if ps = [] then none else some (tail '=' ' ' ps)⟩ ::
      pairItems (off + (Pair.text '=' p).length + 1) ps

section read
variable {ps qs : List (Pair Char)} {p : Pair Char}

theorem templateItemsFrom_join (hwf : ∀ p ∈ ps, Wf '=' ' ' p) (fuel off : Nat) (str : CString)
    (hstr : str.dropWhile (· = ' ') = join '=' ' ' ps) (hfuel : ps.length < fuel) :
    templateItemsFrom fuel off str =
      pairItems (off + (str.length - (join '=' ' ' ps).length)) ps := by
  induction ps generalizing fuel off str with
  | nil =>
    cases fuel with
    | zero => cases hfuel
    | succ fuel =>
      rw [templateItemsFrom]
      simp only [hstr, join, List.dropWhile_nil, if_true, pairItems]
  | cons p ps ih =>
    cases fuel with
    | zero => cases hfuel
    | succ fuel =>
      have hp : Wf '=' ' ' p := hwf p (List.mem_cons_self ..)
      have hps : ∀ q ∈ ps, Wf '=' ' ' q := fun q hq => hwf q (List.mem_cons_of_mem p hq)
      have hne : ('=' : Char) ≠ ' ' := by decide
      have hname := takeWhile_name (tail '=' ' ' ps) hp
      have hmark := dropWhile_name (tail '=' ' ' ps) hp
      have hvalue : ('=' :: p.2 ++ tail '=' ' ' ps).takeWhile (· ≠ ' ') = '=' :: p.2 :=
        takeWhile_value hne hp
      have hrest : ('=' :: p.2 ++ tail '=' ' ' ps).dropWhile (· ≠ ' ') = tail '=' ' ' ps :=
        dropWhile_value hne hp
      have hnext := ih hps fuel (off + (str.length - (join '=' ' ' (p :: ps)).length) +
        ((join '=' ' ' (p :: ps)).length - (tail '=' ' ' ps).length)) (tail '=' ' ' ps)
        (dropWhile_tail hne hps) (by simpa using hfuel)
      rw [templateItemsFrom]
      dsimp only
      rw [hstr]
      rw [join] at hnext ⊢
      rw [hmark, hname, if_neg (by simp), hvalue, hrest, hnext, pairItems]
      have htail : tail '=' ' ' ps = [] ↔ ps = [] := by
        cases ps with
        | nil => simp [tail]
        | cons q qs => simp [tail]
      simp only [htail]
      congr 1
      cases ps with
      | nil => rfl
      | cons q qs =>
        have hlen : (tail '=' ' ' (q :: qs)).length = (join '=' ' ' (q :: qs)).length + 1 := by
          rw [tail_cons, List.length_cons]
        congr 1
        rw [List.length_append]
        omega

theorem length_le_join : ps.length ≤ (join '=' ' ' ps).length := by
  cases ps with
  | nil => simp
  | cons p ps =>
    have htail : ps.length ≤ (tail '=' ' ' ps).length := by
      induction ps with
      | nil => simp
      | cons q qs ih =>
        rw [tail_cons, join, List.length_cons, List.length_cons, List.length_append]
        omega
    rw [join, List.length_append, Pair.text, List.length_append, List.length_cons, List.length_cons]
    omega

theorem templateItems_join (hwf : ∀ p ∈ ps, Wf '=' ' ' p) :
    templateItems (join '=' ' ' ps) = pairItems 0 ps := by
  have hstr : (join '=' ' ' ps).dropWhile (· = ' ') = join '=' ' ' ps := by
    cases ps with
    | nil => rfl
    | cons p ps => exact dropWhile_sep _ (by decide) (hwf p (List.mem_cons_self ..))
  have hfuel : ps.length < (join '=' ' ' ps).length + 1 := Nat.lt_succ_of_le length_le_join
  rw [templateItems, templateItemsFrom_join hwf _ 0 _ hstr hfuel]
  simp

theorem getitemFrom_join (hwf : ∀ p ∈ ps, Wf '=' ' ' p)
    (hshort : ∀ p ∈ ps, p.2.length ≤ flagTextMax) (fuel : Nat) (name : CString)
    (hfuel : ps.length < fuel) : getitemFrom fuel (join '=' ' ' ps) name =
      (ps.find? (fun p => strcaseEq p.1 name)).map fun p => '=' :: p.2 := by
  induction ps generalizing fuel with
  | nil =>
    cases fuel with
    | zero => cases hfuel
    | succ fuel => rfl
  | cons p ps ih =>
    cases fuel with
    | zero => cases hfuel
    | succ fuel =>
      have hp : Wf '=' ' ' p := hwf p (List.mem_cons_self ..)
      have hps : ∀ q ∈ ps, Wf '=' ' ' q := fun q hq => hwf q (List.mem_cons_of_mem p hq)
      have hne : ('=' : Char) ≠ ' ' := by decide
      have hlen : ('=' :: p.2).length ≤ 299 := by
        have := hshort p (List.mem_cons_self ..)
        rw [flagTextMax] at this
        rw [List.length_cons]
        omega
      rw [getitemFrom, join, dropWhile_name _ hp, takeWhile_name _ hp, if_neg (by simp),
        dropWhile_value hne hp, dropWhile_tail hne hps, List.find?_cons]
      cases hsame : strcaseEq p.1 name with
      | true =>
        rw [if_pos rfl, Option.map_some, truncate, takeWhile_value_take hne hp hlen]
      | false =>
        rw [if_neg (by simp)]
        exact ih hps (fun q hq => hshort q (List.mem_cons_of_mem p hq)) fuel (by simpa using hfuel)

theorem find_pairItems {role : CString} (off : Nat) (hpre : ∀ q ∈ ps, strcaseEq role q.1 = false)
    (hp : strcaseEq role p.1 = true) :
    (pairItems off (ps ++ p :: qs)).find? (fun i => strcaseEq role i.name) =
      some ⟨off + (front '=' ' ' ps).length, p.1, '=' :: p.2,
        if qs = [] then none else some (tail '=' ' ' qs)⟩ := by
  induction ps generalizing off with
  | nil => simp [pairItems, hp, front]
  | cons q ps ih =>
    have hq := hpre q (List.mem_cons_self ..)
    have hrest := ih (off + (Pair.text '=' q).length + 1)
      fun r hr => hpre r (List.mem_cons_of_mem q hr)
    rw [List.cons_append, pairItems, List.find?_cons_of_neg (by simp [hq]), hrest]
    have hlen : (front '=' ' ' (q :: ps)).length =
        (Pair.text '=' q).length + 1 + (front '=' ' ' ps).length := by
      simp only [front, List.flatMap_cons, List.length_append, List.length_singleton]
    rw [hlen]
    simp only [Nat.add_assoc]

theorem find_pairItems_none {role : CString} (off : Nat)
    (h : ∀ q ∈ ps, strcaseEq role q.1 = false) :
    (pairItems off ps).find? (fun i => strcaseEq role i.name) = none := by
  induction ps generalizing off with
  | nil => rfl
  | cons q ps ih =>
    rw [pairItems, List.find?_cons_of_neg (by simp [h q (List.mem_cons_self ..)])]
    exact ih _ fun r hr => h r (List.mem_cons_of_mem q hr)

/-! ### Writing -/

theorem getD_rest : (if qs = [] then none else some (tail '=' ' ' qs)).getD [] = tail '=' ' ' qs := by
  by_cases h : qs = []
  · rw [if_pos h, h]
    rfl
  · rw [if_neg h]
    rfl

variable {item : TemplateItem} {role flagstr : CString}

theorem rewriteTemplate_some (hoff : item.off = (front '=' ' ' ps).length)
    (hrest : item.rest = if qs = [] then none else some (tail '=' ' ' qs)) :
    rewriteTemplate (join '=' ' ' (ps ++ p :: qs)) item role (some flagstr) =
      truncate 400 (join '=' ' ' (ps ++ (role, flagstr) :: qs)) := by
  have htake : (join '=' ' ' (ps ++ p :: qs)).take (front '=' ' ' ps).length = front '=' ' ' ps := by
    rw [join_split, List.append_assoc, List.take_left]
  rw [rewriteTemplate, hoff, hrest, getD_rest, htake, join_split, Pair.text]
  simp

theorem rewriteTemplate_none (hoff : item.off = (front '=' ' ' ps).length)
    (hrest : item.rest = if qs = [] then none else some (tail '=' ' ' qs)) :
    rewriteTemplate (join '=' ' ' (ps ++ p :: qs)) item role none =
      truncate 400 (join '=' ' ' (ps ++ qs)) := by
  rw [rewriteTemplate, hoff, hrest, getD_rest]
  by_cases hps : ps = []
  · have hdrop : (tail '=' ' ' qs).drop 1 = join '=' ' ' qs := by
      cases qs with
      | nil => rfl
      | cons q qs =>
        rw [tail_cons]
        rfl
    rw [if_pos (by rw [hps]; rfl), hdrop, hps, List.nil_append]
  · have hlen : (front '=' ' ' ps).length = (join '=' ' ' ps).length + 1 := by
      rw [front_eq hps]
      simp
    rw [if_neg (by omega), hlen, Nat.add_sub_cancel, join_append hps, List.take_left,
      join_append hps]

theorem appendTemplate_eq :
    appendTemplate (if ps = [] then none else some (join '=' ' ' ps)) role flagstr =
      truncate 400 (join '=' ' ' (ps ++ [(role, flagstr)])) := by
  by_cases hps : ps = []
  · rw [if_pos hps, hps]
    simp [appendTemplate, join, Pair.text, tail]
  · rw [if_neg hps, join_append hps, tail_cons]
    simp [appendTemplate, join, Pair.text, tail]

end read

/-! ### The table and its text -/

def putTemplate (st : TemplateTable) (role flagstr : CString) : TemplateTable :=
  if (st.find (strcasecanon role)).isSome then st.set (strcasecanon role) (role, flagstr)
  else st.insertNew (strcasecanon role) (role, flagstr)

def dropTemplate (st : TemplateTable) (role : CString) : TemplateTable :=
  st.erase (strcasecanon role)

def ownItem (chan : MyChan) (role : CString) : Option TemplateItem :=
  (templateItems (chan.templates.getD [])).find? (fun i => strcaseEq role i.name)

section table
variable {cfg : ChanConfig} {chan : MyChan} {st : TemplateTable} {role flagstr : CString}
  {p : Pair Char}

theorem TableWf.allPairs (h : TableWf st) : ∀ p ∈ tablePairs st, Wf '=' ' ' p := by
  intro p hp
  obtain ⟨e, he, rfl⟩ := List.mem_map.mp hp
  exact h.pairs e he

theorem tablePairs_eq_nil : tablePairs st = [] ↔ st.entries = [] := by
  rw [tablePairs, List.map_eq_nil_iff]

theorem HoldsTable.getD (h : HoldsTable chan st) : chan.templates.getD [] = tableText st := by
  rw [h]
  by_cases hnil : st.entries = []
  · rw [if_pos hnil, tableText, tablePairs_eq_nil.mpr hnil]
    rfl
  · rw [if_neg hnil]
    rfl

theorem TableWf.sameName (h : TableWf st) {e : CString × Pair Char} (he : e ∈ st.entries) :
    strcaseEq role e.2.1 = decide (e.1 = strcasecanon role) := by
  rw [strcaseEq, ← h.keyed e he]
  exact decide_eq_decide.mpr eq_comm

theorem find?_tablePairs (h : TableWf st) :
    (tablePairs st).find? (fun p => strcaseEq p.1 role) = st.find (strcasecanon role) := by
  have hname : ∀ e ∈ st.entries, strcaseEq e.2.1 role = decide (e.1 = strcasecanon role) := by
    intro e he
    rw [← h.sameName he, strcaseEq, strcaseEq]
    exact decide_eq_decide.mpr eq_comm
  rw [tablePairs, Registry.find, List.find?_map]
  congr 1
  exact List.find?_congr fun e he => hname e he

def tableFlags (cfg : ChanConfig) (st : TemplateTable) (name : CString) : Flags :=
  match st.find (strcasecanon name) with
  | some p => flagsToBitmask cfg.flagConfig ('=' :: p.2) 0#32
  | none => getGlobalTemplateFlags cfg name

theorem getTemplateFlags_table (h : HoldsTable chan st) (hwf : TableWf st) (name : CString) :
    getTemplateFlags cfg (some chan) name = tableFlags cfg st name := by
  have hshort : ∀ p ∈ tablePairs st, p.2.length ≤ flagTextMax := by
    intro p hp
    obtain ⟨e, he, rfl⟩ := List.mem_map.mp hp
    exact hwf.short e he
  have hitem : chan.templates.bind (getitem · name) =
      (st.find (strcasecanon name)).map fun p => '=' :: p.2 := by
    rw [h, ← find?_tablePairs hwf]
    by_cases hnil : st.entries = []
    · rw [if_pos hnil, tablePairs_eq_nil.mpr hnil]
      rfl
    · rw [if_neg hnil, Option.bind_some, getitem]
      exact getitemFrom_join hwf.allPairs hshort _ name (Nat.lt_succ_of_le length_le_join)
  rw [getTemplateFlags, Option.bind_some, hitem, tableFlags]
  cases st.find (strcasecanon name) with
  | none => rfl
  | some p => rfl

theorem ownItem_some (h : HoldsTable chan st) (hwf : TableWf st)
    (hf : st.find (strcasecanon role) = some p) :
    ∃ item, ownItem chan role = some item ∧ item.value = '=' :: p.2 ∧
      (∀ flagstr, rewriteTemplate (chan.templates.getD []) item role (some flagstr) =
        truncate 400 (tableText (putTemplate st role flagstr))) ∧
      rewriteTemplate (chan.templates.getD []) item role none =
        truncate 400 (tableText (dropTemplate st role)) := by
  obtain ⟨pre, post, hentries, hpre, hset, herase⟩ := Registry.exists_split hf
  have hpairs : tablePairs st = pre.map Prod.snd ++ p :: post.map Prod.snd := by
    rw [tablePairs, hentries]
    simp
  have hmem : (strcasecanon role, p) ∈ st.entries := by
    rw [hentries]
    simp
  have hsame : strcaseEq role p.1 = true := by
    rw [hwf.sameName hmem, decide_eq_true_eq]
  have hother : ∀ q ∈ pre.map Prod.snd, strcaseEq role q.1 = false := by
    intro q hq
    obtain ⟨e, he, rfl⟩ := List.mem_map.mp hq
    have he' : e ∈ st.entries := by
      rw [hentries]
      exact List.mem_append_left _ he
    rw [hwf.sameName he', decide_eq_false_iff_not]
    exact hpre e he
  have hown : ownItem chan role = some ⟨(front '=' ' ' (pre.map Prod.snd)).length, p.1, '=' :: p.2,
      if post.map Prod.snd = [] then none else some (tail '=' ' ' (post.map Prod.snd))⟩ := by
    rw [ownItem, h.getD, tableText, templateItems_join hwf.allPairs, hpairs,
      find_pairItems 0 hother hsame, Nat.zero_add]
  refine ⟨_, hown, rfl, fun flagstr => ?_, ?_⟩
  · rw [h.getD, tableText, hpairs, rewriteTemplate_some rfl rfl, putTemplate, hf,
      if_pos Option.isSome_some,
      tableText, tablePairs, hset]
    simp
  · rw [h.getD, tableText, hpairs, rewriteTemplate_none rfl rfl, dropTemplate, tableText,
      tablePairs, herase]
    simp

theorem ownItem_none (h : HoldsTable chan st) (hwf : TableWf st)
    (hf : st.find (strcasecanon role) = none) :
    ownItem chan role = none ∧ ∀ flagstr, appendTemplate chan.templates role flagstr =
      truncate 400 (tableText (putTemplate st role flagstr)) := by
  have hother : ∀ q ∈ tablePairs st, strcaseEq role q.1 = false := by
    intro q hq
    obtain ⟨e, he, rfl⟩ := List.mem_map.mp hq
    rw [hwf.sameName he, decide_eq_false_iff_not]
    intro hk
    exact (Registry.find_eq_none_iff ..).mp hf (List.mem_map.mpr ⟨e, he, hk⟩)
  constructor
  · rw [ownItem, h.getD, tableText, templateItems_join hwf.allPairs]
    exact find_pairItems_none 0 hother
  · intro flagstr
    have hnil : (if st.entries = [] then none else some (tableText st)) =
        if tablePairs st = [] then none else some (join '=' ' ' (tablePairs st)) := by
      simp only [tablePairs_eq_nil, tableText]
    have hnew : tablePairs (st.insertNew (strcasecanon role) (role, flagstr)) =
        tablePairs st ++ [(role, flagstr)] := by
      rw [tablePairs, Registry.entries_insertNew hf, List.map_append]
      rfl
    rw [h, hnil, appendTemplate_eq, putTemplate, hf, if_neg (by simp), tableText, hnew]

/-! ### The edited table -/

theorem templates_setTemplates (newstr : CString) :
    (setTemplates newstr chan).templates = if newstr = [] then none else some newstr := by
  rw [MyChan.templates, setTemplates]
  have hdelete : ∀ md : Metadata, (metadataDelete md "private:templates".toList).find?
      (fun e => strcaseEq e.1 "private:templates".toList) = none := by
    intro md
    rw [List.find?_eq_none]
    intro e he
    simpa using (List.mem_filter.mp he).2
  by_cases hnil : newstr = []
  · rw [if_pos hnil, if_pos hnil, metadataFind, hdelete]
    rfl
  · rw [if_neg hnil, if_neg hnil, metadataFind, metadataAdd, List.find?_append, hdelete]
    rfl

theorem tableText_eq_nil : tableText st = [] ↔ st.entries = [] := by
  rw [← tablePairs_eq_nil, tableText]
  cases hps : tablePairs st with
  | nil => simp [join]
  | cons p ps => simp [join_ne_nil]

theorem holdsTable_set (chan : MyChan) (st : TemplateTable) :
    HoldsTable (setTemplates (tableText st) chan) st := by
  rw [HoldsTable, templates_setTemplates]
  simp only [tableText_eq_nil]

theorem truncate_of_accepted {str : CString} (h : (truncate 400 str).length < 300) :
    truncate 400 str = str := by
  rw [truncate, List.length_take] at h
  rw [truncate, List.take_of_length_le (by omega)]

theorem TableWf.put (h : TableWf st) (hpair : Wf '=' ' ' (role, flagstr))
    (hshort : flagstr.length ≤ flagTextMax) : TableWf (putTemplate st role flagstr) := by
  have hmem : ∀ e ∈ (putTemplate st role flagstr).entries,
      e ∈ st.entries ∨ e = (strcasecanon role, (role, flagstr)) := by
    intro e he
    cases hf : st.find (strcasecanon role) with
    | some p =>
      obtain ⟨pre, post, hentries, -, hset, -⟩ := Registry.exists_split hf
      rw [putTemplate, hf, if_pos Option.isSome_some, hset] at he
      rw [hentries]
      simp only [List.mem_append, List.mem_cons] at he ⊢
      tauto
    | none =>
      rw [putTemplate, hf, if_neg (by simp), Registry.entries_insertNew hf] at he
      simpa using he
  refine ⟨fun e he => ?_, fun e he => ?_, fun e he => ?_⟩
  · obtain hold | rfl := hmem e he
    · exact h.keyed e hold
    · rfl
  · obtain hold | rfl := hmem e he
    · exact h.pairs e hold
    · exact hpair
  · obtain hold | rfl := hmem e he
    · exact h.short e hold
    · exact hshort

theorem TableWf.drop (h : TableWf st) (role : CString) : TableWf (dropTemplate st role) := by
  have hmem : ∀ e ∈ (dropTemplate st role).entries, e ∈ st.entries := by
    intro e he
    rw [dropTemplate, Registry.entries_erase] at he
    exact (List.mem_filter.mp he).1
  exact ⟨fun e he => h.keyed e (hmem e he), fun e he => h.pairs e (hmem e he),
    fun e he => h.short e (hmem e he)⟩

theorem find_putTemplate (name : CString) :
    (putTemplate st role flagstr).find (strcasecanon name) =
      if strcasecanon name = strcasecanon role then some (role, flagstr)
      else st.find (strcasecanon name) := by
  rw [putTemplate]
  cases hf : st.find (strcasecanon role) with
  | some p =>
    rw [if_pos Option.isSome_some, Registry.find_set]
    by_cases hname : strcasecanon name = strcasecanon role
    · rw [if_pos hname, if_pos hname, hname, hf]
      rfl
    · rw [if_neg hname, if_neg hname]
  | none =>
    rw [if_neg (by simp), Registry.find_insertNew]
    by_cases hname : strcasecanon name = strcasecanon role
    · rw [if_pos hname.symm, if_pos hname, hname, hf]
      rfl
    · rw [if_neg (Ne.symm hname), if_neg hname, Option.or_none]

theorem tableFlags_put (name : CString) : tableFlags cfg (putTemplate st role flagstr) name =
    if strcasecanon name = strcasecanon role
      then flagsToBitmask cfg.flagConfig ('=' :: flagstr) 0#32
      else tableFlags cfg st name := by
  rw [tableFlags, find_putTemplate]
  by_cases hname : strcasecanon name = strcasecanon role
  · rw [if_pos hname, if_pos hname]
  · rw [if_neg hname, if_neg hname, tableFlags]

theorem tableFlags_drop (name : CString) : tableFlags cfg (dropTemplate st role) name =
    if strcasecanon name = strcasecanon role then getGlobalTemplateFlags cfg name
    else tableFlags cfg st name := by
  rw [tableFlags, dropTemplate, Registry.find_erase]
  by_cases hname : strcasecanon name = strcasecanon role
  · rw [if_pos hname, if_pos hname]
  · rw [if_neg hname, if_neg hname, tableFlags]

end table

end ChatServices.ChanServ
