import ChatServices.Lib.Joined
import ChatServices.Text
import Mathlib.Data.List.DropRight
import Mathlib.Logic.Function.Iterate

/-! The parameters of a command: `text_to_parv` and `command_exec_split` of
`libathemecore/commandtree.c`. -/
namespace ChatServices.CommandTree
open ChatServices.Lib.Joined ChatServices.Text

/-- `strtok (s, delim)` with the place where the call before it stopped, which is known by the text
from there on: the token and the new place. -/
def strtok (s : Option CString) (delim save : CString) : Option CString × CString :=
  let s := (s.getD save).dropWhile (· ∈ delim)
  if s = [] then (none, [])
  else (some (s.takeWhile (· ∉ delim)), (s.dropWhile (· ∉ delim)).drop 1)

/-- The variables of `text_to_parv`, and the place that `strtok` keeps. -/
structure Split where
  count : Nat
  p : Option CString
  save : CString
  parv : Nat → Option CString

def assign (parv : Nat → Option CString) (i : Nat) (value : Option CString) : Nat → Option CString :=
  fun k => if k = i then value else parv k

/-- The loop over the words, with `n` turns left to `maxparc - 1`. -/
def wordLoop : Nat → Split → Split
  | 0, s => s
  | n + 1, s =>
    match strtok s.p [' '] s.save with
    | (none, save) => { s with save, parv := assign s.parv s.count none }
    | (some word, save) => wordLoop n ⟨s.count + 1, none, save, assign s.parv s.count (some word)⟩

/-- `p` goes back to the last byte that is no space, and not before the first. -/
def lastByte (s : CString) : Nat → Nat
  | 0 => 0
  | p + 1 => if s[p + 1]? = some ' ' then lastByte s p else p + 1

def lastParameter (s : Split) : Nat × (Nat → Option CString) :=
  match strtok s.p [] s.save with
  | (none, _) => (s.count, assign s.parv s.count none)
  | (some rest, _) =>
    let p := rest.dropWhile (· = ' ')
    if p = [] then (s.count, assign s.parv s.count (some p))
    else (s.count + 1, assign s.parv s.count (some (p.take (lastByte p (p.length - 1) + 1))))

/-- `text_to_parv`: the count, and the entries of `parv`; `save` is what `strtok` keeps of the calls
before. -/
def textToParv (text : Option CString) (maxparc : Nat) (save : CString) (parv : Nat → Option CString) :
    Nat × (Nat → Option CString) :=
  if maxparc = 0 then (0, parv)
  else
    match text with
    | none => (0, parv)
    | some text => lastParameter (wordLoop (maxparc - 1) ⟨0, some text, save, parv⟩)

def parvSize : Nat := 20

/-- The parameters that `command_exec_split` hands to a command. -/
def commandExecSplit (text : Option CString) (maxparc : Nat) (save : CString)
    (parv : Nat → Option CString) : Nat × (Nat → Option CString) :=
  let r := textToParv text maxparc save parv
  (r.1, fun i => if r.1 ≤ i ∧ i < parvSize then none else r.2 i)

/-! ### What the parameters are -/

def words (text : CString) : List CString := fields ' ' text

def afterWord (text : CString) : CString := (text.dropWhile (· = ' ')).dropWhile (· ≠ ' ')

def trimEnd (text : CString) : CString := text.rdropWhile (· = ' ')

/-- The words, if there are at most `n`; else the first `n` of them, and the text from the next one
on, without the spaces at its end. -/
def entries (n : Nat) (text : CString) : List CString :=
  if (words text).length ≤ n then words text
  else (words text).take n ++ [trimEnd ((afterWord^[n] text).dropWhile (· = ' '))]

section texts
variable (text : CString)

theorem words_dropSpaces : words (text.dropWhile (· = ' ')) = words text := by
  induction text with
  | nil => rfl
  | cons c text ih =>
    rw [List.dropWhile_cons]
    split_ifs with hc
    · rw [decide_eq_true_eq] at hc
      rw [ih, hc, words, words, fields_sep]
    · rfl

theorem afterWord_head (c : Char) (hc : c ∈ (afterWord text).head?) : c = ' ' := by
  have hhead := List.head?_dropWhile_not (fun c => decide (c ≠ ' ')) (text.dropWhile (· = ' '))
  rw [← afterWord, Option.mem_def.mp hc] at hhead
  simpa using hhead

theorem words_of_nonblank (h : text.dropWhile (· = ' ') ≠ []) :
    words text = (text.dropWhile (· = ' ')).takeWhile (· ≠ ' ') :: words (afterWord text) := by
  have hsplit := List.takeWhile_append_dropWhile (p := fun c => decide (c ≠ ' '))
    (l := text.dropWhile (· = ' '))
  have hne : (text.dropWhile (· = ' ')).takeWhile (· ≠ ' ') ≠ [] := by
    obtain ⟨c, rest, hrest⟩ := List.exists_cons_of_ne_nil h
    have hc := List.head?_dropWhile_not (fun c => decide (c = ' ')) text
    rw [hrest] at hc ⊢
    simpa using hc
  have hspace : ' ' ∉ (text.dropWhile (· = ' ')).takeWhile (· ≠ ' ') := by
    intro h
    have hc := List.mem_takeWhile_imp h
    simp at hc
  have hword := fields_word hne hspace (afterWord_head text)
  rw [afterWord, hsplit] at hword
  rw [← words_dropSpaces, words, hword]
  rfl

theorem words_of_blank (h : text.dropWhile (· = ' ') = []) : words text = [] := by
  rw [← words_dropSpaces, h]
  rfl

theorem entries_of_blank (n : Nat) (h : text.dropWhile (· = ' ') = []) : entries n text = [] := by
  have hwords := words_of_blank text h
  rw [entries, hwords]
  exact if_pos (Nat.zero_le n)

theorem entries_space (n : Nat) : entries n (' ' :: text) = entries n text := by
  have hwords : words (' ' :: text) = words text := fields_sep text
  have hdrop : (' ' :: text).dropWhile (· = ' ') = text.dropWhile (· = ' ') := rfl
  rw [entries, entries, hwords]
  cases n with
  | zero => rw [Function.iterate_zero_apply, Function.iterate_zero_apply, hdrop]
  | succ n =>
    have hafter : afterWord (' ' :: text) = afterWord text := by rw [afterWord, afterWord, hdrop]
    rw [Function.iterate_succ_apply, Function.iterate_succ_apply, hafter]

theorem entries_drop_afterWord (n : Nat) :
    entries n ((afterWord text).drop 1) = entries n (afterWord text) := by
  have hhead := afterWord_head text
  cases hrest : afterWord text with
  | nil => rfl
  | cons c rest =>
    have hc : c = ' ' := hhead c (by rw [hrest]; rfl)
    rw [hc, entries_space]
    rfl

theorem entries_succ (n : Nat) (h : text.dropWhile (· = ' ') ≠ []) : entries (n + 1) text =
    (text.dropWhile (· = ' ')).takeWhile (· ≠ ' ') :: entries n (afterWord text) := by
  rw [entries, entries, words_of_nonblank text h, List.length_cons, Function.iterate_succ_apply,
    List.take_succ_cons]
  by_cases hfew : (words (afterWord text)).length ≤ n
  · rw [if_pos (by omega), if_pos hfew]
  · rw [if_neg (by omega), if_neg hfew]
    rfl

theorem entries_zero (h : text.dropWhile (· = ' ') ≠ []) :
    entries 0 text = [trimEnd (text.dropWhile (· = ' '))] := by
  rw [entries, words_of_nonblank text h, if_neg (by simp)]
  rfl

def Trimmed (w : CString) : Prop := w ≠ [] ∧ w.head? ≠ some ' ' ∧ w.getLast? ≠ some ' '

theorem trimmed_word {w : CString} (hne : w ≠ []) (hspace : ' ' ∉ w) : Trimmed w :=
  ⟨hne, fun h => hspace (List.mem_of_head? h), fun h => hspace (List.mem_of_getLast? h)⟩

variable {text}

theorem trimmed_trimEnd (hne : text ≠ []) (hhead : text.head? ≠ some ' ') :
    Trimmed (trimEnd text) := by
  obtain ⟨c, rest, htext⟩ := List.exists_cons_of_ne_nil hne
  have hc : c ≠ ' ' := fun h => hhead (by rw [htext, h]; rfl)
  have hkept : trimEnd text ≠ [] := by
    rw [trimEnd, Ne, List.rdropWhile_eq_nil_iff]
    intro hall
    have hspace := hall c (by rw [htext]; exact List.mem_cons_self)
    exact hc (by simpa using hspace)
  refine ⟨hkept, ?_, ?_⟩
  · obtain ⟨more, hmore⟩ := List.rdropWhile_prefix (fun c => decide (c = ' ')) text
    rw [← trimEnd] at hmore
    rwa [← hmore, List.head?_append_of_ne_nil _ hkept] at hhead
  · have hlast := List.rdropWhile_last_not (fun c => decide (c = ' ')) text hkept
    rw [List.getLast?_eq_getLast_of_ne_nil hkept]
    intro h
    exact hlast (decide_eq_true (Option.some.inj h))

theorem dropSpaces_head : (text.dropWhile (· = ' ')).head? ≠ some ' ' := by
  intro hc
  have hhead := List.head?_dropWhile_not (fun c => decide (c = ' ')) text
  rw [hc] at hhead
  exact absurd hhead (by decide)

theorem entries_trimmed {n : Nat} {w : CString} (h : w ∈ entries n text) : Trimmed w := by
  induction n generalizing text with
  | zero =>
    by_cases hblank : text.dropWhile (· = ' ') = []
    · rw [entries_of_blank _ _ hblank] at h
      cases h
    · rw [entries_zero _ hblank, List.mem_singleton] at h
      rw [h]
      exact trimmed_trimEnd hblank dropSpaces_head
  | succ n ih =>
    by_cases hblank : text.dropWhile (· = ' ') = []
    · rw [entries_of_blank _ _ hblank] at h
      cases h
    · rw [entries_succ _ _ hblank, List.mem_cons] at h
      obtain h | h := h
      · have hword : w ∈ words text := by
          rw [words_of_nonblank _ hblank, h]
          exact List.mem_cons_self
        exact trimmed_word (mem_fields hword).1 (mem_fields hword).2
      · exact ih h

end texts

/-! ### The loops -/

theorem lastByte_append (s t : CString) (p : Nat) (h : p < s.length) :
    lastByte (s ++ t) p = lastByte s p := by
  induction p with
  | zero => rfl
  | succ p ih => rw [lastByte, lastByte, List.getElem?_append_left h, ih (by omega)]

theorem lastByte_le (s : CString) (p : Nat) : lastByte s p ≤ p := by
  induction p with
  | zero => exact Nat.le_refl 0
  | succ p ih =>
    rw [lastByte]
    split_ifs <;> omega

theorem take_lastByte {s : CString} (hs : s ≠ []) (hhead : s.head? ≠ some ' ') :
    s.take (lastByte s (s.length - 1) + 1) = trimEnd s := by
  induction s using List.reverseRecOn with
  | nil => exact absurd rfl hs
  | append_singleton s c ih =>
    rw [List.length_append, List.length_singleton, Nat.add_sub_cancel]
    cases hlen : s.length with
    | zero =>
      rw [List.length_eq_zero_iff.mp hlen] at hhead ⊢
      have hc : c ≠ ' ' := fun h => hhead (by rw [h]; rfl)
      rw [List.nil_append, trimEnd, List.rdropWhile_singleton, if_neg (by simpa using hc)]
      rfl
    | succ k =>
      have hs' : s ≠ [] := fun h => by rw [h] at hlen; cases hlen
      have hhead' : s.head? ≠ some ' ' := by rwa [List.head?_append_of_ne_nil _ hs'] at hhead
      have hat : (s ++ [c])[k + 1]? = some c := by rw [← hlen, List.getElem?_concat_length]
      rw [lastByte, hat]
      by_cases hc : c = ' '
      · have hstep := ih hs' hhead'
        have hplace : s.length - 1 = k := by omega
        rw [hplace] at hstep
        have hin : lastByte s k + 1 ≤ s.length := by
          have hle := lastByte_le s k
          omega
        rw [if_pos (by rw [hc]), lastByte_append s [c] k (by omega), List.take_append_of_le_length hin,
          hstep, trimEnd, trimEnd, List.rdropWhile_concat_pos _ _ _ (by simpa using hc)]
      · rw [if_neg (by simpa using hc), trimEnd, List.rdropWhile_concat_neg _ _ _ (by simpa using hc)]
        apply List.take_of_length_le
        rw [List.length_append, List.length_singleton]
        omega

section calls
variable {s : Option CString} {save text : CString}

theorem strtok_space : strtok s [' '] save =
    if (s.getD save).dropWhile (· = ' ') = [] then (none, [])
    else (some (((s.getD save).dropWhile (· = ' ')).takeWhile (· ≠ ' ')),
      (afterWord (s.getD save)).drop 1) := by
  simp [strtok, afterWord]

theorem strtok_rest : strtok s [] save =
    if s.getD save = [] then (none, []) else (some (s.getD save), []) := by
  have htake : ∀ t : CString, t.takeWhile (· ∉ ([] : CString)) = t := fun t =>
    List.takeWhile_eq_self_iff.mpr fun c _ => by simp
  have hdrop : ∀ t : CString, t.dropWhile (· ∈ ([] : CString)) = t := fun t => by
    cases t <;> simp
  have hend : ∀ t : CString, t.dropWhile (· ∉ ([] : CString)) = [] := fun t => by
    rw [List.dropWhile_eq_nil_iff]
    simp
  rw [strtok, hdrop, htake, hend]
  rfl

/-- `parv` is filled with some entries from the place `start` on, and no place further than `n` behind
it is written. -/
structure Gives (start : Nat) (parv : Nat → Option CString) (n : Nat) (es : List CString)
    (r : Nat × (Nat → Option CString)) : Prop where
  count : r.1 = start + es.length
  before : ∀ i < start, r.2 i = parv i
  filled : ∀ i < es.length, r.2 (start + i) = es[i]?
  behind : ∀ i, start + n < i → r.2 i = parv i

variable {start n : Nat} {parv : Nat → Option CString} {es : List CString} {w : CString}
  {v : Option CString} {r : Nat × (Nat → Option CString)}

theorem Gives.none : Gives start parv n [] (start, assign parv start v) := by
  refine ⟨rfl, ?_, nofun, ?_⟩
  · intro i hi
    exact if_neg (by omega)
  · intro i hi
    exact if_neg (by omega)

theorem Gives.one : Gives start parv n [w] (start + 1, assign parv start (some w)) := by
  refine ⟨rfl, ?_, ?_, ?_⟩
  · intro i hi
    exact if_neg (by omega)
  · intro i hi
    have hzero : i = 0 := by simpa using hi
    rw [hzero]
    exact if_pos rfl
  · intro i hi
    exact if_neg (by omega)

theorem Gives.cons (h : Gives (start + 1) (assign parv start (some w)) n es r) :
    Gives start parv (n + 1) (w :: es) r := by
  refine ⟨?_, ?_, ?_, ?_⟩
  · rw [h.count, List.length_cons]
    omega
  · intro i hi
    rw [h.before i (by omega)]
    exact if_neg (by omega)
  · intro i hi
    cases i with
    | zero =>
      rw [h.before _ (by omega)]
      exact if_pos rfl
    | succ i =>
      have hplace : start + (i + 1) = start + 1 + i := by omega
      rw [hplace, h.filled i (by simpa using hi)]
      rfl
  · intro i hi
    rw [h.behind i (by omega)]
    exact if_neg (by omega)

theorem Gives.again (h : Gives start (assign parv start v) n es r) : Gives start parv n es r := by
  refine ⟨h.count, ?_, h.filled, ?_⟩
  · intro i hi
    rw [h.before i hi]
    exact if_neg (by omega)
  · intro i hi
    rw [h.behind i hi]
    exact if_neg (by omega)

theorem lastParameter_gives (s : Split) (n : Nat) :
    Gives s.count s.parv n (entries 0 (s.p.getD s.save)) (lastParameter s) := by
  rw [lastParameter, strtok_rest]
  by_cases hend : s.p.getD s.save = []
  · rw [if_pos hend, hend]
    exact .none
  · rw [if_neg hend]
    dsimp only
    by_cases hblank : (s.p.getD s.save).dropWhile (· = ' ') = []
    · rw [if_pos hblank, entries_of_blank _ _ hblank]
      exact .none
    · rw [if_neg hblank, entries_zero _ hblank, take_lastByte hblank dropSpaces_head]
      exact .one

theorem wordLoop_gives (n : Nat) (s : Split) :
    Gives s.count s.parv n (entries n (s.p.getD s.save)) (lastParameter (wordLoop n s)) := by
  induction n generalizing s with
  | zero => exact lastParameter_gives s 0
  | succ n ih =>
    rw [wordLoop, strtok_space]
    by_cases hblank : (s.p.getD s.save).dropWhile (· = ' ') = []
    · -- `p` is the text still where the first call finds no word
      rw [if_pos hblank, entries_of_blank _ _ hblank]
      have hlast := lastParameter_gives { s with save := [], parv := assign s.parv s.count none } (n + 1)
      have hrest : (s.p.getD []).dropWhile (· = ' ') = [] := by
        cases hp : s.p with
        | none => rfl
        | some text => rwa [hp] at hblank
      dsimp only at hlast ⊢
      rw [entries_of_blank _ _ hrest] at hlast
      exact hlast.again
    · rw [if_neg hblank, entries_succ _ _ hblank, ← entries_drop_afterWord]
      exact (ih ⟨s.count + 1, none, _, _⟩).cons

end calls

theorem entries_length_le (n : Nat) (text : CString) : (entries n text).length ≤ n + 1 := by
  rw [entries]
  split_ifs with hfew
  · omega
  · rw [List.length_append, List.length_take, List.length_singleton]
    omega

/-- The entries of `parv` are the words, the last of them the rest of the line where there are too
many; `save` is whatever `strtok` kept, and `parv` holds anything before. -/
theorem text_to_parv_splits (text : Option CString) (maxparc : Nat) (h : 1 ≤ maxparc ∧ maxparc ≤ parvSize)
    (save : CString) (parv : Nat → Option CString) :
    let es := (text.map (entries (maxparc - 1))).getD []
    (textToParv text maxparc save parv).1 = es.length ∧ es.length ≤ maxparc ∧
      (∀ i < es.length, (textToParv text maxparc save parv).2 i = es[i]?) ∧
      (∀ w ∈ es, Trimmed w) ∧
      (∀ i, maxparc ≤ i → (textToParv text maxparc save parv).2 i = parv i) ∧
      ∀ i < parvSize, (commandExecSplit text maxparc save parv).2 i = es[i]? := by
  have hpositive : maxparc ≠ 0 := by omega
  intro es
  have hgives : Gives 0 parv (maxparc - 1) es (textToParv text maxparc save parv) := by
    rw [textToParv.eq_def, if_neg hpositive]
    cases text with
    | none => exact ⟨rfl, nofun, nofun, fun _ _ => rfl⟩
    | some text => exact wordLoop_gives (maxparc - 1) ⟨0, some text, save, parv⟩
  have hcount := hgives.count
  have hfilled := hgives.filled
  simp only [Nat.zero_add] at hcount hfilled
  have hlen : es.length ≤ maxparc := by
    cases text with
    | none => exact Nat.zero_le _
    | some text =>
      have hle : es.length ≤ maxparc - 1 + 1 := entries_length_le (maxparc - 1) text
      omega
  have htrimmed : ∀ w ∈ es, Trimmed w := by
    cases text with
    | none =>
      intro w hw
      exact absurd hw List.not_mem_nil
    | some text => exact fun w hw => entries_trimmed hw
  refine ⟨hcount, hlen, hfilled, htrimmed, fun i hi => hgives.behind i (by omega), ?_⟩
  intro i hi
  rw [commandExecSplit]
  dsimp only
  by_cases hin : i < es.length
  · rw [if_neg (by omega), hfilled i hin]
  · rw [if_pos ⟨by omega, hi⟩, List.getElem?_eq_none (by omega)]

theorem text_to_parv_two :
    (textToParv (some "  ab  cd ef ".toList) 2 [] fun _ => none).1 =
      ["ab".toList, "cd ef".toList].length :=
  (text_to_parv_splits (some "  ab  cd ef ".toList) 2 (by decide) [] fun _ => none).1

end ChatServices.CommandTree
