import Mathlib.Data.List.TakeWhile

/-! Tables as flat text: a row is a line of words with a separator behind each, and the rest of a
row may be free text. A cursor reads the cells of one row from the left. -/
namespace ChatServices.Lib.Rows
variable {α : Type*}

def writeCells (sep : α) (words : List (List α)) (rest : List α) : List α :=
  words.foldr (fun w row => w ++ sep :: row) rest

def writeRows (nl : α) (rows : List (List α)) : List α := rows.flatMap (· ++ [nl])

variable [DecidableEq α]

def readWord (sep : α) (row : List α) : List α × Option (List α) :=
  (row.takeWhile (· ≠ sep), if sep ∈ row then some ((row.dropWhile (· ≠ sep)).drop 1) else none)

def readRows (nl : α) : List α → List α → List (List α)
  | row, [] => if row = [] then [] else [row]
  | row, c :: s => if c = nl then row :: readRows nl [] s else readRows nl (row ++ [c]) s

omit [DecidableEq α] in
@[simp] theorem writeCells_nil (sep : α) (rest : List α) : writeCells sep [] rest = rest := rfl

omit [DecidableEq α] in
@[simp] theorem writeCells_cons (sep : α) (w : List α) (ws : List (List α)) (rest : List α) :
    writeCells sep (w :: ws) rest = w ++ sep :: writeCells sep ws rest := rfl

theorem takeWhile_word {sep : α} {w : List α} (h : sep ∉ w) (rest : List α) :
    (w ++ sep :: rest).takeWhile (· ≠ sep) = w := by
  induction w with
  | nil => simp
  | cons c w ih =>
    have hc : c ≠ sep := fun heq => h (heq ▸ List.mem_cons_self)
    have hw : sep ∉ w := fun hmem => h (List.mem_cons_of_mem c hmem)
    rw [List.cons_append, List.takeWhile_cons_of_pos (by simpa using hc), ih hw]

theorem dropWhile_word {sep : α} {w : List α} (h : sep ∉ w) (rest : List α) :
    (w ++ sep :: rest).dropWhile (· ≠ sep) = sep :: rest := by
  induction w with
  | nil => simp
  | cons c w ih =>
    have hc : c ≠ sep := fun heq => h (heq ▸ List.mem_cons_self)
    have hw : sep ∉ w := fun hmem => h (List.mem_cons_of_mem c hmem)
    rw [List.cons_append, List.dropWhile_cons_of_pos (by simpa using hc), ih hw]

theorem readWord_append {sep : α} {w : List α} (h : sep ∉ w) (rest : List α) :
    readWord sep (w ++ sep :: rest) = (w, some rest) := by
  have hmem : sep ∈ w ++ sep :: rest := List.mem_append_right w List.mem_cons_self
  rw [readWord, takeWhile_word h, dropWhile_word h, if_pos hmem]
  rfl

theorem readRows_line {nl : α} {line : List α} (h : nl ∉ line) (row rest : List α) :
    readRows nl row (line ++ nl :: rest) = (row ++ line) :: readRows nl [] rest := by
  induction line generalizing row with
  | nil => simp [readRows]
  | cons c line ih =>
    have hc : c ≠ nl := fun heq => h (heq ▸ List.mem_cons_self)
    have hline : nl ∉ line := fun hmem => h (List.mem_cons_of_mem c hmem)
    rw [List.cons_append, readRows, if_neg hc, ih hline, List.append_assoc, List.singleton_append]

theorem readRows_writeRows {nl : α} {rows : List (List α)} (h : ∀ row ∈ rows, nl ∉ row) :
    readRows nl [] (writeRows nl rows) = rows := by
  induction rows with
  | nil => rfl
  | cons row rows ih =>
    have hrows : readRows nl [] (writeRows nl rows) = rows :=
      ih fun r hr => h r (List.mem_cons_of_mem row hr)
    rw [writeRows, List.flatMap_cons, List.append_assoc, List.singleton_append,
      readRows_line (h row List.mem_cons_self), ← writeRows, hrows, List.nil_append]

omit [DecidableEq α] in
theorem notMem_writeCells {sep nl : α} {words : List (List α)} {rest : List α} (hne : nl ≠ sep)
    (hwords : ∀ w ∈ words, nl ∉ w) (hrest : nl ∉ rest) : nl ∉ writeCells sep words rest := by
  induction words with
  | nil => exact hrest
  | cons w ws ih =>
    have htail : nl ∉ writeCells sep ws rest := ih fun v hv => hwords v (List.mem_cons_of_mem w hv)
    rw [writeCells_cons, List.mem_append, List.mem_cons]
    rintro (hw | heq | hmem)
    · exact hwords w List.mem_cons_self hw
    · exact hne heq
    · exact htail hmem

end ChatServices.Lib.Rows
