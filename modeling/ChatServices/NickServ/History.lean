import ChatServices.ChanServ.Command

/-! The numbered history entries of an account: `modules/nickserv/history.c` and its twin
`modules/nickserv/loginhistory.c`. -/
namespace ChatServices.NickServ.History
open ChatServices.Text
open ChatServices.ChanServ (Metadata metadataFind metadataAdd metadataFind_add metadataFind_add_ne
  natArg natArg_eq foldl_digits_natArg isDigit_of_mem_natArg)

def NICKSERV_HISTORY_LIMIT : Nat := 25
def NICKSERV_LOGINHISTORY_LIMIT : Nat := 25

structure Journal where
  key : CString
  size : Nat
  limit : Nat
  fits : key.length + 3 < size
  several : 2 ≤ limit
  short : limit < 1000

def changeHistory : Journal :=
  ⟨"private:history-".toList, 20, NICKSERV_HISTORY_LIMIT, by decide, by decide, by decide⟩

def loginHistory : Journal :=
  ⟨"private:loginhistory-".toList, 25, NICKSERV_LOGINHISTORY_LIMIT, by decide, by decide, by decide⟩

def threeDigits (i : Nat) : CString := List.replicate (3 - (natArg i).length) '0' ++ natArg i

def Journal.numbered (j : Journal) (i : Nat) : CString := j.key ++ threeDigits i

def Journal.mdname (j : Journal) (i : Nat) : CString := truncate j.size (j.numbered i)

structure Event where
  now : Int
  smu : Option CString
  desc : CString

def mdvalue (e : Event) : CString :=
  truncate 400 (natArg (e.now % 2 ^ 32).toNat ++ ' ' :: (e.smu.getD "<none>".toList ++ ' ' :: e.desc))

section entries
variable (j : Journal)

/-- The first loop from the number `i` on, at most `n` turns of it. -/
def countFrom (md : Metadata) : Nat → Nat → Nat
  | 0, _ => 0
  | n + 1, i => if (metadataFind md (j.mdname i)).isSome then countFrom md n (i + 1) + 1 else 0

def last (md : Metadata) : Nat := countFrom j md (j.limit - 1) 1

/-- One turn of the second loop: the entry `i` goes to the number before it. -/
def moveUp (md : Metadata) (i : Nat) : Metadata :=
  match metadataFind md (j.mdname i) with
  | none => md
  | some value => metadataAdd md (j.mdname (i - 1)) value

def addEntry (md : Metadata) (e : Event) : Metadata :=
  let last := last j md
  let md := if last = j.limit - 1 then (List.range' 2 (j.limit - 1)).foldl (moveUp j) md else md
  metadataAdd md (j.mdname (last + 1)) (mdvalue e)

/-- The loop of `show_history`. -/
def shownFrom (md : Metadata) : Nat → Nat → List (Nat × CString)
  | 0, _ => []
  | n + 1, i =>
    match metadataFind md (j.mdname i) with
    | none => []
    | some value => (i, value) :: shownFrom md n (i + 1)

/-- `show_history`: nothing where the first entry is missing. -/
def showHistory (md : Metadata) : Option (List (Nat × CString)) :=
  if (metadataFind md (j.numbered 1)).isSome then some (shownFrom j md j.limit 1) else none

end entries

def addHistoryEntry : Metadata → Event → Metadata := addEntry changeHistory
def addLoginHistoryEntry : Metadata → Event → Metadata := addEntry loginHistory

/-! ### Lists of entries -/

section lists
variable {α : Type*} (limit : Nat)

/-- The last `limit` of some entries. -/
def lastOnes (xs : List α) : List α := xs.drop (xs.length - limit)

def push (xs : List α) (x : α) : List α :=
  if xs.length + 1 < limit then xs ++ [x]
  else if xs.length + 1 = limit then xs.tail ++ (xs.drop (limit - 2) ++ [x])
  else xs.tail ++ [x]

def stored (xs : List α) : List α :=
  if xs.length < limit then xs else lastOnes limit (xs.take (limit - 1) ++ xs.drop (limit - 2))

variable {limit}

theorem length_stored (xs : List α) (h : 2 ≤ limit) : (stored limit xs).length = min xs.length limit := by
  rw [stored]
  split_ifs with hshort
  · omega
  · simp only [lastOnes, List.length_drop, List.length_append, List.length_take]
    omega

theorem push_stored (h : 2 ≤ limit) (xs : List α) (x : α) :
    push limit (stored limit xs) x = stored limit (xs ++ [x]) := by
  have hlen := length_stored xs h
  rw [push, hlen, stored, stored]
  simp only [List.length_append, List.length_singleton]
  by_cases hshort : xs.length + 1 < limit
  · rw [if_pos (by omega), if_pos (by omega), if_pos (by omega)]
  · rw [if_neg (by omega), if_neg hshort]
    have htake : (xs ++ [x]).take (limit - 1) = xs.take (limit - 1) :=
      List.take_append_of_le_length (by omega)
    have hdrop : (xs ++ [x]).drop (limit - 2) = xs.drop (limit - 2) ++ [x] :=
      List.drop_append_of_le_length (by omega)
    rw [htake, hdrop, lastOnes, lastOnes]
    by_cases hfull : xs.length + 1 = limit
    · have hall : xs.take (limit - 1) = xs := List.take_of_length_le (by omega)
      have hone : (xs ++ (xs.drop (limit - 2) ++ [x])).length - limit = 1 := by
        simp only [List.length_append, List.length_drop, List.length_singleton]
        omega
      rw [if_pos (by omega), if_pos (by omega), hall, hone, List.drop_append_of_le_length (by omega),
        List.drop_one]
    · have hmore : (xs.take (limit - 1) ++ (xs.drop (limit - 2) ++ [x])).length - limit =
          (xs.take (limit - 1) ++ xs.drop (limit - 2)).length - limit + 1 := by
        simp only [List.length_append, List.length_take, List.length_drop, List.length_singleton]
        omega
      have hroom : (xs.take (limit - 1) ++ xs.drop (limit - 2)).length - limit + 1 ≤
          (xs.take (limit - 1) ++ xs.drop (limit - 2)).length := by
        simp only [List.length_append, List.length_take, List.length_drop]
        omega
      rw [if_neg (by omega), if_neg (by omega), hmore, ← List.append_assoc,
        List.drop_append_of_le_length hroom, ← List.drop_drop, List.drop_one]

theorem stored_eq_lastOnes_iff (h : 2 ≤ limit) (xs : List α) : stored limit xs = lastOnes limit xs ↔
    xs.length < limit ∨
      ∀ t, xs.length - limit ≤ t → t + 2 < limit → xs[t]? = xs[t + 1]? := by
  rw [stored]
  split_ifs with hshort
  · have hzero : xs.length - limit = 0 := by omega
    simp [hshort, lastOnes, hzero]
  · have hstart : (xs.take (limit - 1) ++ xs.drop (limit - 2)).length - limit = xs.length - limit + 1 := by
      simp only [List.length_append, List.length_take, List.length_drop]
      omega
    -- place `i` of the stored ones
    have hat : ∀ i, (lastOnes limit (xs.take (limit - 1) ++ xs.drop (limit - 2)))[i]? =
        if xs.length - limit + i + 2 < limit then xs[xs.length - limit + i + 1]?
        else xs[xs.length - limit + i]? := by
      intro i
      rw [lastOnes, hstart, List.getElem?_drop, List.getElem?_append, List.length_take]
      split_ifs with hleft hlow hlow
      · rw [List.getElem?_take_of_lt (by omega)]
        congr 1
        omega
      · omega
      · omega
      · rw [List.getElem?_drop]
        congr 1
        omega
    constructor
    · intro heq
      right
      intro t ht hlow
      have hplace := congrArg (·[t - (xs.length - limit)]?) heq
      rw [hat, if_pos (by omega), lastOnes, List.getElem?_drop] at hplace
      have ht' : xs.length - limit + (t - (xs.length - limit)) = t := by omega
      rw [ht'] at hplace
      exact hplace.symm
    · intro hsame
      have hsame := hsame.resolve_left hshort
      apply List.ext_getElem?
      intro i
      rw [hat, lastOnes, List.getElem?_drop]
      split_ifs with hlow
      · exact (hsame _ (by omega) hlow).symm
      · rfl

end lists

/-! ### The keys -/

section keys
variable (j : Journal)

theorem foldl_threeDigits (i : Nat) :
    (threeDigits i).foldl (fun n c => 10 * n + (c.toNat - '0'.toNat)) 0 = i := by
  have hzeros : ∀ k, (List.replicate k '0').foldl (fun n c => 10 * n + (c.toNat - '0'.toNat)) 0 = 0 := by
    intro k
    induction k with
    | zero => rfl
    | succ k ih =>
      rw [List.replicate_succ, List.foldl_cons]
      exact ih
  rw [threeDigits, List.foldl_append, hzeros, foldl_digits_natArg]

theorem length_threeDigits {i : Nat} (h : i < 1000) : (threeDigits i).length = 3 := by
  have hlen : (natArg i).length ≤ 3 := by
    rw [natArg_eq]
    exact (Nat.length_toDigits_le_iff (by omega) (by omega)).mpr h
  rw [threeDigits, List.length_append, List.length_replicate]
  omega

theorem mdname_eq {i : Nat} (h : i < 1000) : j.mdname i = j.numbered i := by
  have hfits := j.fits
  have hlen := length_threeDigits h
  rw [Journal.mdname, truncate]
  apply List.take_of_length_le
  rw [Journal.numbered, List.length_append]
  omega

theorem toupper_digit {c : Char} (h : c.isDigit = true) : toupper c = c := by
  rw [toupper, if_neg]
  rintro ⟨ha, -⟩
  have hnine : c.toNat ≤ 57 := by
    rw [Char.isDigit, Bool.and_eq_true, decide_eq_true_eq, decide_eq_true_eq] at h
    exact h.2
  have hle : 'a'.toNat ≤ c.toNat := ha
  have ha97 : 'a'.toNat = 97 := rfl
  omega

theorem strcasecanon_threeDigits (i : Nat) : strcasecanon (threeDigits i) = threeDigits i := by
  have hdigits : ∀ c ∈ threeDigits i, toupper c = id c := by
    intro c hc
    apply toupper_digit
    rw [threeDigits, List.mem_append] at hc
    obtain hc | hc := hc
    · rw [List.eq_of_mem_replicate hc]
      rfl
    · exact isDigit_of_mem_natArg hc
  rw [strcasecanon, List.map_congr_left hdigits, List.map_id]

theorem numbered_ne {a b : Nat} (h : a ≠ b) : strcaseEq (j.numbered a) (j.numbered b) = false := by
  rw [strcaseEq, decide_eq_false_iff_not]
  intro heq
  simp only [Journal.numbered, strcasecanon, List.map_append] at heq
  rw [List.append_cancel_left_eq, ← strcasecanon, ← strcasecanon, strcasecanon_threeDigits,
    strcasecanon_threeDigits] at heq
  have hread := foldl_threeDigits a
  rw [heq, foldl_threeDigits] at hread
  exact h hread.symm

theorem find_add (md : Metadata) (a b : Nat) (value : CString) :
    metadataFind (metadataAdd md (j.numbered a) value) (j.numbered b) =
      if b = a then some value else metadataFind md (j.numbered b) := by
  split_ifs with h
  · rw [h, metadataFind_add]
  · rw [metadataFind_add_ne (numbered_ne j (Ne.symm h))]

end keys

/-! ### The entries of an account -/

/-- The numbered entries of an account are `xs`, from the number 1 on. -/
def Lists (j : Journal) (md : Metadata) (xs : List CString) : Prop :=
  ∀ i, metadataFind md (j.numbered i) = if i = 0 then none else xs[i - 1]?

section calls
variable {j : Journal} {md : Metadata} {xs : List CString}

theorem Lists.find (h : Lists j md xs) {i : Nat} (hi : i < 999) :
    metadataFind md (j.mdname (i + 1)) = xs[i]? := by
  rw [mdname_eq j (by omega), h, if_neg (by omega), Nat.add_sub_cancel]

theorem Lists.countFrom (h : Lists j md xs) (n i : Nat) (hn : n + i < 1000) :
    countFrom j md n (i + 1) = min n (xs.length - i) := by
  induction n generalizing i with
  | zero => rw [History.countFrom, Nat.zero_min]
  | succ n ih =>
    rw [History.countFrom, h.find (by omega), ih (i + 1) (by omega)]
    by_cases hi : i < xs.length
    · rw [List.getElem?_eq_getElem hi, Option.isSome_some, if_pos rfl]
      omega
    · rw [List.getElem?_eq_none (by omega), Option.isSome_none, if_neg Bool.false_ne_true]
      omega

theorem Lists.last (h : Lists j md xs) : last j md = min (j.limit - 1) xs.length := by
  have hshort := j.short
  rw [History.last, h.countFrom _ 0 (by omega), Nat.sub_zero]

theorem Lists.moved (h : Lists j md xs) (k i : Nat) (hk : k + 1 < 1000) :
    metadataFind ((List.range' 2 k).foldl (moveUp j) md) (j.numbered i) =
      if i = 0 then none else if i ≤ k ∧ i < xs.length then xs[i]? else xs[i - 1]? := by
  induction k generalizing i with
  | zero =>
    rw [List.range'_zero, List.foldl_nil, h]
    by_cases hi : i = 0
    · rw [if_pos hi, if_pos hi]
    · rw [if_neg hi, if_neg hi, if_neg (by omega)]
  | succ k ih =>
    rw [List.range'_concat, List.foldl_append, List.foldl_cons, List.foldl_nil, moveUp,
      mdname_eq j (by omega), mdname_eq j (by omega), ih _ (by omega), if_neg (by omega),
      if_neg (by omega)]
    have hplace : 2 + 1 * k - 1 = k + 1 := by omega
    rw [hplace]
    by_cases hthere : k + 1 < xs.length
    · rw [List.getElem?_eq_getElem hthere]
      dsimp only
      rw [find_add, ih i (by omega)]
      by_cases hi : i = k + 1
      · subst hi
        rw [if_pos rfl, if_neg (by omega), if_pos ⟨le_refl _, hthere⟩, List.getElem?_eq_getElem hthere]
      · rw [if_neg hi]
        congr 1
        by_cases hle : i ≤ k
        · simp only [hle, show i ≤ k + 1 by omega]
        · rw [if_neg (by omega), if_neg (by omega)]
    · rw [List.getElem?_eq_none (by omega)]
      dsimp only
      rw [ih i (by omega)]
      congr 1
      by_cases hle : i ≤ k
      · simp only [hle, show i ≤ k + 1 by omega]
      · rw [if_neg (by omega), if_neg (by omega)]

theorem Lists.addEntry_room (h : Lists j md xs) (e : Event) (hroom : xs.length + 1 < j.limit) :
    Lists j (addEntry j md e) (xs ++ [mdvalue e]) := by
  have hshort := j.short
  have hlast : min (j.limit - 1) xs.length = xs.length := by omega
  intro i
  rw [addEntry, h.last, hlast, if_neg (by omega), mdname_eq j (by omega), find_add, h]
  by_cases hi : i = xs.length + 1
  · rw [if_pos hi, if_neg (by omega), hi, Nat.add_sub_cancel, List.getElem?_append_right (le_refl _),
      Nat.sub_self]
    rfl
  · rw [if_neg hi, List.getElem?_append]
    split_ifs with hzero hlow
    · rfl
    · rfl
    · rw [List.getElem?_eq_none (by omega), List.getElem?_eq_none]
      rw [List.length_singleton]
      omega

theorem Lists.addEntry_moved (h : Lists j md xs) (e : Event) (hfull : j.limit ≤ xs.length + 1) (i : Nat) :
    metadataFind (addEntry j md e) (j.numbered i) = if i = j.limit then some (mdvalue e)
      else if i = 0 then none
      else if i ≤ j.limit - 1 ∧ i < xs.length then xs[i]? else xs[i - 1]? := by
  have hshort := j.short
  have hseveral := j.several
  have hlast : min (j.limit - 1) xs.length = j.limit - 1 := by omega
  have hnext : j.limit - 1 + 1 = j.limit := by omega
  rw [addEntry, h.last, hlast, if_pos rfl, hnext, mdname_eq j hshort, find_add, h.moved _ _ (by omega)]

theorem Lists.addEntry (h : Lists j md xs) (e : Event) (hlen : xs.length ≤ j.limit) :
    Lists j (addEntry j md e) (push j.limit xs (mdvalue e)) := by
  have hseveral := j.several
  rw [push]
  split_ifs with hroom hfull
  · exact h.addEntry_room e hroom
  · intro i
    rw [h.addEntry_moved e (by omega)]
    by_cases hi : i = 0
    · rw [if_neg (by omega), if_pos hi, if_pos hi]
    · have hone : i - 1 + 1 = i := by omega
      rw [if_neg hi, if_neg hi, List.getElem?_append, List.getElem?_append, List.length_tail,
        List.length_drop, List.getElem?_tail, List.getElem?_drop, hone]
      by_cases hend : i = j.limit
      · have hplace : i - 1 - (xs.length - 1) - (xs.length - (j.limit - 2)) = 0 := by omega
        rw [if_pos hend, if_neg (by omega), if_neg (by omega), hplace]
        rfl
      · rw [if_neg hend]
        by_cases hlow : i < xs.length
        · rw [if_pos (by omega), if_pos (by omega)]
        · rw [if_neg (by omega), if_neg (by omega)]
          by_cases hlast : i = xs.length
          · have hplace : j.limit - 2 + (i - 1 - (xs.length - 1)) = i - 1 := by omega
            rw [if_pos (by omega), hplace]
          · rw [if_neg (by omega), List.getElem?_eq_none (by omega), List.getElem?_eq_none]
            rw [List.length_singleton]
            omega
  · intro i
    rw [h.addEntry_moved e (by omega)]
    by_cases hi : i = 0
    · rw [if_neg (by omega), if_pos hi, if_pos hi]
    · have hone : i - 1 + 1 = i := by omega
      rw [if_neg hi, if_neg hi, List.getElem?_append, List.length_tail, List.getElem?_tail, hone]
      by_cases hend : i = j.limit
      · have hplace : i - 1 - (xs.length - 1) = 0 := by omega
        rw [if_pos hend, if_neg (by omega), hplace]
        rfl
      · rw [if_neg hend]
        by_cases hlow : i < xs.length
        · rw [if_pos (by omega), if_pos (by omega)]
        · rw [if_neg (by omega), if_neg (by omega), List.getElem?_eq_none (by omega),
            List.getElem?_eq_none]
          rw [List.length_singleton]
          omega

theorem lists_stored (h : Lists j md []) (es : List Event) :
    Lists j (es.foldl (addEntry j) md) (stored j.limit (es.map mdvalue)) := by
  have hseveral := j.several
  induction es using List.reverseRecOn with
  | nil =>
    have hempty : stored j.limit ([] : List CString) = [] := by
      rw [stored, if_pos]
      exact Nat.lt_of_lt_of_le Nat.two_pos hseveral
    rw [List.map_nil, hempty]
    exact h
  | append_singleton es e ih =>
    have hlen : (stored j.limit (es.map mdvalue)).length ≤ j.limit := by
      rw [length_stored _ hseveral]
      omega
    have hstep := ih.addEntry e hlen
    rw [push_stored hseveral] at hstep
    rw [List.foldl_append, List.foldl_cons, List.foldl_nil, List.map_append]
    exact hstep

theorem Lists.unique {ys : List CString} (hx : Lists j md xs) (hy : Lists j md ys) : xs = ys := by
  apply List.ext_getElem?
  intro i
  have hfirst := hx (i + 1)
  have hsecond := hy (i + 1)
  rw [if_neg (by omega), Nat.add_sub_cancel] at hfirst hsecond
  rw [← hfirst, hsecond]

theorem Lists.shown (h : Lists j md xs) (n i : Nat) (hn : n + i < 1000) (hlen : xs.length ≤ n + i) :
    shownFrom j md n (i + 1) = ((xs.drop i).zipIdx (i + 1)).map Prod.swap := by
  induction n generalizing i with
  | zero =>
    rw [List.drop_eq_nil_of_le (by omega)]
    rfl
  | succ n ih =>
    rw [shownFrom.eq_def]
    dsimp only
    rw [h.find (by omega)]
    by_cases hi : i < xs.length
    · rw [List.getElem?_eq_getElem hi, List.drop_eq_getElem_cons hi, List.zipIdx_cons, List.map_cons]
      dsimp only
      rw [ih (i + 1) (by omega) (by omega)]
      rfl
    · rw [List.getElem?_eq_none (by omega), List.drop_eq_nil_of_le (by omega)]
      rfl

theorem Lists.showHistory (h : Lists j md xs) (hlen : xs.length ≤ j.limit) :
    showHistory j md = if xs = [] then none else some ((xs.zipIdx 1).map Prod.swap) := by
  have hshort := j.short
  have hfirst := h 1
  rw [if_neg (by omega)] at hfirst
  rw [History.showHistory, hfirst, h.shown j.limit 0 (by omega) (by omega), List.drop_zero]
  cases xs with
  | nil => rfl
  | cons x xs => rfl

end calls

/-- After a run of calls on an account without entries, the entries numbered from 1 on are the last
ones as they were recorded, up to the limit, if and only if there are fewer than the limit, or the
recorded texts from the first that is due up to the last but one before the limit are all the same. -/
theorem keeps_last_entries_iff (j : Journal) (md : Metadata) (h : Lists j md []) (es : List Event) :
    Lists j (es.foldl (addEntry j) md) (lastOnes j.limit (es.map mdvalue)) ↔
      es.length < j.limit ∨ ∀ t, es.length - j.limit ≤ t → t + 2 < j.limit →
        (es.map mdvalue)[t]? = (es.map mdvalue)[t + 1]? := by
  have hiff := stored_eq_lastOnes_iff j.several (es.map mdvalue)
  rw [List.length_map] at hiff
  rw [← hiff]
  have hrun := lists_stored h es
  constructor
  · exact fun hlast => hrun.unique hlast
  · intro heq
    rw [← heq]
    exact hrun

theorem no_entries (j : Journal) : Lists j [] [] := by
  intro i
  split_ifs <;> rfl

theorem showHistory_run (j : Journal) (md : Metadata) (h : Lists j md []) (es : List Event) :
    showHistory j (es.foldl (addEntry j) md) =
      if es = [] then none else some (((stored j.limit (es.map mdvalue)).zipIdx 1).map Prod.swap) := by
  have hlen := length_stored (es.map mdvalue) j.several
  have hseveral := j.several
  have hnil : stored j.limit (es.map mdvalue) = [] ↔ es = [] := by
    rw [← List.length_eq_zero_iff, hlen, ← List.length_eq_zero_iff, List.length_map]
    omega
  rw [(lists_stored h es).showHistory (by omega)]
  simp only [hnil]

theorem showHistory_run_two :
    showHistory changeHistory
      ([⟨1000, none, "EMAIL".toList⟩, ⟨1060, some "anna".toList, "PASS".toList⟩].foldl
        addHistoryEntry []) =
      some [(1, "1000 <none> EMAIL".toList), (2, "1060 anna PASS".toList)] :=
  showHistory_run changeHistory [] (no_entries _)
    [⟨1000, none, "EMAIL".toList⟩, ⟨1060, some "anna".toList, "PASS".toList⟩]

theorem keeps_two_logins :
    Lists loginHistory
      ([⟨1000, none, "login".toList⟩, ⟨1060, some "anna".toList, "login".toList⟩].foldl
        addLoginHistoryEntry [])
      ["1000 <none> login".toList, "1060 anna login".toList] :=
  (keeps_last_entries_iff loginHistory [] (no_entries _)
    [⟨1000, none, "login".toList⟩, ⟨1060, some "anna".toList, "login".toList⟩]).mpr (.inl (by decide))

/-- After 25 logins the first one is gone. -/
theorem first_login_lost :
    ¬ Lists loginHistory
      (((List.range 25).map fun i => (⟨i, none, "login".toList⟩ : Event)).foldl addLoginHistoryEntry [])
      (lastOnes NICKSERV_LOGINHISTORY_LIMIT
        (((List.range 25).map fun i => (⟨i, none, "login".toList⟩ : Event)).map mdvalue)) := by
  intro h
  have hstored := (lists_stored (no_entries loginHistory)
    ((List.range 25).map fun i => (⟨i, none, "login".toList⟩ : Event))).unique h
  exact absurd (congrArg List.head? hstored) (by decide +kernel)

end ChatServices.NickServ.History
