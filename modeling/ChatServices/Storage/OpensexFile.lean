import ChatServices.Storage.Opensex

/-! The file of the database byte by byte, `modules/backend/opensex.c`: rows are read into a line
buffer that doubles, and its size is an `unsigned int`. -/
namespace ChatServices.Storage
open ChatServices.Lib ChatServices.Lib.Rows ChatServices.Text ChatServices.ChanServ

/-! ### Writing -/

def intArg (i : Int) : CString := if i < 0 then '-' :: natArg i.natAbs else natArg i.natAbs

def opensexStartRow (type : CString) : CString := type ++ [' ']

def opensexWriteCell (data : Option CString) (multiword : Bool) : CString :=
  data.getD ['*'] ++ if !multiword then [' '] else []

def opensexWriteWord (word : CString) : CString := opensexWriteCell (some word) false

def opensexWriteStr (word : CString) : CString := opensexWriteCell (some word) true

def opensexWriteInt (num : BitVec 32) : CString :=
  opensexWriteCell (some (intArg num.toInt)) false

def opensexWriteUint (num : BitVec 32) : CString :=
  opensexWriteCell (some (natArg num.toNat)) false

/-- A `time_t` is printed as an `unsigned long`. -/
def opensexWriteTime (tm : BitVec 64) : CString :=
  opensexWriteCell (some (natArg tm.toNat)) false

def opensexCommitRow : CString := ['\n']

/-! ### Reading -/

structure Opensex where
  f : CString
  bufsize : Nat
  token : Token
  line : Nat
  tokens : Nat
  deriving DecidableEq

def opensexDbOpenRead (f : CString) : Opensex := ⟨f, 512, none, 0, 0⟩

/-- What the loop over `getc` leaves: the row, the size of the buffer, whether the file is at its
end, and the rest of the file. -/
structure Scanned where
  row : CString
  bufsize : Nat
  eof : Bool
  f : CString
  deriving DecidableEq

/-- The loop over `getc`; `none` where `realloc` is asked for 0 bytes. -/
def getRow (n bufsize : Nat) (row : CString) : CString → Option Scanned
  | [] => some ⟨row, bufsize, true, []⟩
  | c :: f =>
    if c = '\n' then some ⟨row, bufsize, false, f⟩
    else
      let n := (n + 1) % 2 ^ 32
      if n = bufsize then
        let bufsize := bufsize * 2 % 2 ^ 32
        if bufsize = 0 then none else getRow n bufsize (row ++ [c]) f
      else getRow n bufsize (row ++ [c]) f

def opensexReadNextRow (rs : Opensex) : Option (Bool × Opensex) :=
  (getRow 0 rs.bufsize [] rs.f).map fun r =>
    if r.eof ∧ r.row = [] then
      (false, { rs with f := r.f, bufsize := r.bufsize, token := some r.row })
    else (true, ⟨r.f, r.bufsize, some r.row, rs.line + 1, 0⟩)

def opensexReadWord (rs : Opensex) : Option CString × Opensex :=
  match rs.token with
  | none => (none, rs)
  | some res =>
    (some (readWord ' ' res).1,
      { rs with token := (readWord ' ' res).2, tokens := rs.tokens + 1 })

def opensexReadStr (rs : Opensex) : Option CString × Opensex :=
  (rs.token, { rs with tokens := rs.tokens + 1 })

def readNumber {β γ : Type} (conv : CString → γ × CString) (keep : γ → β) (rs : Opensex) :
    Option β × Opensex :=
  match opensexReadWord rs with
  | (none, rs) => (none, rs)
  | (some s, rs) => (if s ≠ [] ∧ (conv s).2 = [] then some (keep (conv s).1) else none, rs)

def opensexReadInt : Opensex → Option (BitVec 32) × Opensex := readNumber strtol (BitVec.ofInt 32)

def opensexReadUint : Opensex → Option (BitVec 32) × Opensex :=
  readNumber strtoul (BitVec.ofNat 32)

def opensexReadTime : Opensex → Option (BitVec 64) × Opensex :=
  readNumber strtoul (BitVec.ofNat 64)

/-! ### Rows -/

def Word : Type := { w : CString // w ≠ [] ∧ IsWord w }

def Line : Type := { s : CString // IsLine s }

instance : DecidableEq Word := inferInstanceAs (DecidableEq { _w : CString // _ })

instance : DecidableEq Line := inferInstanceAs (DecidableEq { _s : CString // _ })

inductive Cell where
  | word (w : Word)
  | int (num : BitVec 32)
  | uint (num : BitVec 32)
  | time (tm : BitVec 64)
  deriving DecidableEq

inductive Kind where
  | word
  | int
  | uint
  | time
  deriving DecidableEq

def Cell.kind : Cell → Kind
  | .word _ => .word
  | .int _ => .int
  | .uint _ => .uint
  | .time _ => .time

structure Row where
  type : Word
  cells : List Cell
  str : Option Line
  deriving DecidableEq

def writeCell : Cell → CString
  | .word w => opensexWriteWord w.1
  | .int num => opensexWriteInt num
  | .uint num => opensexWriteUint num
  | .time tm => opensexWriteTime tm

def Row.text (row : Row) : CString :=
  opensexStartRow row.type.1 ++ row.cells.flatMap writeCell ++
    match row.str with
    | some s => opensexWriteStr s.1
    | none => []

def writeFile (rows : List Row) : CString := rows.flatMap fun row => row.text ++ opensexCommitRow

inductive ReadCell where
  | text (s : CString)
  | int (num : BitVec 32)
  | uint (num : BitVec 32)
  | time (tm : BitVec 64)
  deriving DecidableEq

def Cell.read : Cell → ReadCell
  | .word w => .text w.1
  | .int num => .int num
  | .uint num => .uint num
  | .time tm => .time tm

/-- One read call of a kind; `none` where it finds no such cell. -/
def readCell (rs : Opensex) : Kind → Option ReadCell × Opensex
  | .word => ((opensexReadWord rs).1.map .text, (opensexReadWord rs).2)
  | .int => ((opensexReadInt rs).1.map .int, (opensexReadInt rs).2)
  | .uint => ((opensexReadUint rs).1.map .uint, (opensexReadUint rs).2)
  | .time => ((opensexReadTime rs).1.map .time, (opensexReadTime rs).2)

def readCells (rs : Opensex) : List Kind → Option (List ReadCell) × Opensex
  | [] => (some [], rs)
  | k :: ks =>
    let (cell, rs) := readCell rs k
    let (cells, rs) := readCells rs ks
    (cell.bind fun c => cells.map (c :: ·), rs)

structure ReadRow where
  type : CString
  cells : List ReadCell
  str : Option CString
  deriving DecidableEq

def Row.read (row : Row) : ReadRow := ⟨row.type.1, row.cells.map Cell.read, row.str.map (·.1)⟩

def Row.shape (row : Row) : List Kind × Bool := (row.cells.map Cell.kind, row.str.isSome)

def readRow (rs : Opensex) (shape : List Kind × Bool) : Option ReadRow × Opensex :=
  let (type, rs) := opensexReadWord rs
  let (cells, rs) := readCells rs shape.1
  if shape.2 then
    let (str, rs) := opensexReadStr rs
    (type.bind fun t => cells.bind fun cs => str.map fun s => ⟨t, cs, some s⟩, rs)
  else (type.bind fun t => cells.map fun cs => ⟨t, cs, none⟩, rs)

def readFile (rs : Opensex) : List (List Kind × Bool) → Option (List ReadRow)
  | [] =>
    match opensexReadNextRow rs with
    | some (false, _) => some []
    | _ => none
  | shape :: shapes =>
    match opensexReadNextRow rs with
    | some (true, rs) => do
      let row ← (readRow rs shape).1
      let rows ← readFile (readRow rs shape).2 shapes
      pure (row :: rows)
    | _ => none

/-! What is written is read back, number by number, cell by cell, row by row. The line buffer
doubles up to 2^31 bytes; a row that fills it makes the next size 0. -/

/-! ### Numbers -/

theorem strtol_intArg {i : Int} (hlo : -(2 ^ 63) ≤ i) (hhi : i < 2 ^ 63) :
    strtol (intArg i) = (i, []) := by
  rw [intArg]
  split_ifs with hneg
  · unfold strtol
    rw [scanNumber_minus (by omega)]
    simp only [if_true, Prod.mk.injEq, and_true]
    omega
  · have habs : (i.natAbs : Int) = i := by omega
    rw [strtol_natArg (by omega), habs]

theorem intArg_isWord (i : Int) : IsWord (intArg i) := by
  have hdigits := natArg_isWord i.natAbs
  rw [intArg]
  split_ifs
  · constructor
    · rw [List.mem_cons, not_or]
      exact ⟨by decide, hdigits.1⟩
    · rw [List.mem_cons, not_or]
      exact ⟨by decide, hdigits.2⟩
  · exact hdigits

theorem intArg_ne_nil (i : Int) : intArg i ≠ [] := by
  rw [intArg]
  split_ifs
  · exact List.cons_ne_nil _ _
  · exact natArg_ne_nil i.natAbs

theorem strtol_int (num : BitVec 32) : strtol (intArg num.toInt) = (num.toInt, []) := by
  have hlo := BitVec.le_toInt num
  have hhi := @BitVec.toInt_lt 32 num
  exact strtol_intArg (by omega) (by omega)

/-! ### Cells -/

def Cell.text : Cell → CString
  | .word w => w.1
  | .int num => intArg num.toInt
  | .uint num => natArg num.toNat
  | .time tm => natArg tm.toNat

theorem writeCell_eq (c : Cell) : writeCell c = c.text ++ [' '] := by
  cases c with
  | word w => rfl
  | int num => rfl
  | uint num => rfl
  | time tm => rfl

theorem Cell.isWord (c : Cell) : IsWord c.text := by
  cases c with
  | word w => exact w.2.2
  | int num => exact intArg_isWord num.toInt
  | uint num => exact natArg_isWord num.toNat
  | time tm => exact natArg_isWord tm.toNat

def Opensex.next (rs : Opensex) (row : CString) : Opensex :=
  { rs with token := some row, tokens := rs.tokens + 1 }

theorem opensexReadWord_cell {rs : Opensex} {w row : CString} (h : IsWord w)
    (hrs : rs.token = some (w ++ ' ' :: row)) : opensexReadWord rs = (some w, rs.next row) := by
  rw [opensexReadWord, hrs]
  simp only [readWord_append h.1 row]
  rfl

theorem readNumber_cell {β γ : Type} {conv : CString → γ × CString} {keep : γ → β} {rs : Opensex}
    {w row : CString} {n : γ} (h : IsWord w) (hne : w ≠ []) (hconv : conv w = (n, []))
    (hrs : rs.token = some (w ++ ' ' :: row)) :
    readNumber conv keep rs = (some (keep n), rs.next row) := by
  rw [readNumber, opensexReadWord_cell h hrs]
  simp [hconv, hne]

theorem readCell_cell {rs : Opensex} (c : Cell) {row : CString}
    (hrs : rs.token = some (c.text ++ ' ' :: row)) :
    readCell rs c.kind = (some c.read, rs.next row) := by
  have hword := c.isWord
  cases c with
  | word w => simp [readCell, Cell.kind, Cell.read, opensexReadWord_cell hword hrs, Cell.text]
  | int num =>
    have hread : opensexReadInt rs = (some (BitVec.ofInt 32 num.toInt), rs.next row) :=
      readNumber_cell hword (intArg_ne_nil _) (strtol_int num) hrs
    simp [readCell, Cell.kind, Cell.read, hread]
  | uint num =>
    have hread : opensexReadUint rs = (some (BitVec.ofNat 32 num.toNat), rs.next row) :=
      readNumber_cell hword (natArg_ne_nil num.toNat)
        (strtoul_natArg (by omega)) hrs
    simp [readCell, Cell.kind, Cell.read, hread]
  | time tm =>
    have hread : opensexReadTime rs = (some (BitVec.ofNat 64 tm.toNat), rs.next row) :=
      readNumber_cell hword (natArg_ne_nil tm.toNat)
        (strtoul_natArg tm.isLt) hrs
    simp [readCell, Cell.kind, Cell.read, hread]

theorem readCells_cells {rs : Opensex} (cells : List Cell) {row : CString}
    (hrs : rs.token = some (writeCells ' ' (cells.map Cell.text) row)) :
    readCells rs (cells.map Cell.kind)
      = (some (cells.map Cell.read),
        { rs with token := some row, tokens := rs.tokens + cells.length }) := by
  induction cells generalizing rs with
  | nil =>
    rw [List.map_nil, writeCells_nil] at hrs
    simp [readCells, ← hrs]
  | cons c cells ih =>
    rw [List.map_cons, writeCells_cons] at hrs
    have htail := @ih (rs.next (writeCells ' ' (cells.map Cell.text) row)) rfl
    simp only [List.map_cons, readCells, readCell_cell c hrs, htail]
    simp only [Opensex.next, Option.map_some, Option.bind_some, List.length_cons,
      Nat.add_right_comm rs.tokens 1, Nat.add_assoc]

/-! ### Rows -/

def Row.rest (row : Row) : CString :=
  match row.str with
  | some s => s.1
  | none => []

theorem writeCells_append (words : List CString) (rest : CString) :
    writeCells ' ' words rest = words.flatMap (· ++ [' ']) ++ rest := by
  induction words with
  | nil => rfl
  | cons w ws ih => simp [ih]

theorem Row.text_eq (row : Row) :
    row.text = writeCells ' ' (row.type.1 :: row.cells.map Cell.text) row.rest := by
  have hcells : row.cells.flatMap writeCell = (row.cells.map Cell.text).flatMap (· ++ [' ']) := by
    rw [List.flatMap_map]
    exact List.flatMap_congr fun c _ => writeCell_eq c
  rw [writeCells_append, List.flatMap_cons, ← hcells]
  cases hstr : row.str with
  | none => simp [Row.text, Row.rest, hstr, opensexStartRow]
  | some s => simp [Row.text, Row.rest, hstr, opensexStartRow, opensexWriteStr, opensexWriteCell]

theorem Row.isLine (row : Row) : IsLine row.text := by
  rw [Row.text_eq]
  refine notMem_writeCells (by decide) (fun w hw => ?_) ?_
  · cases List.mem_cons.mp hw with
    | inl htype =>
      rw [htype]
      exact row.type.2.2.2
    | inr hcell =>
      obtain ⟨c, -, hc⟩ := List.mem_map.mp hcell
      rw [← hc]
      exact c.isWord.2
  · rw [Row.rest]
    split
    · rename_i s _
      exact s.2
    · exact List.not_mem_nil

theorem readRow_row {rs : Opensex} (row : Row) (hrs : rs.token = some row.text) :
    (readRow rs row.shape).1 = some row.read ∧ (readRow rs row.shape).2.f = rs.f
      ∧ (readRow rs row.shape).2.bufsize = rs.bufsize := by
  rw [Row.text_eq, writeCells_cons] at hrs
  have htype := opensexReadWord_cell row.type.2.2 hrs
  have hcells := @readCells_cells (rs.next (writeCells ' ' (row.cells.map Cell.text) row.rest))
    row.cells row.rest rfl
  cases hstr : row.str with
  | none =>
    simp only [readRow, Row.shape, hstr, htype, hcells, Option.isSome_none]
    exact ⟨by simp [Row.read, hstr], rfl, rfl⟩
  | some s =>
    have hrest : row.rest = s.1 := by rw [Row.rest, hstr]
    simp only [readRow, Row.shape, hstr, htype, hcells, Option.isSome_some]
    exact ⟨by simp [Row.read, hstr, opensexReadStr, hrest], rfl, rfl⟩

/-! ### The line buffer -/

def Doubled (s : Nat) : Prop := ∃ k ≤ 22, s = 512 * 2 ^ k

theorem doubled_start : Doubled 512 := ⟨0, by omega, rfl⟩

theorem Doubled.pos {s : Nat} (h : Doubled s) : 0 < s := by
  obtain ⟨k, -, hs⟩ := h
  have hpow := Nat.two_pow_pos k
  omega

theorem Doubled.next {s : Nat} (h : Doubled s) :
    s = 2 ^ 31 ∨ s < 2 ^ 31 ∧ Doubled (s * 2) := by
  obtain ⟨k, hk, hs⟩ := h
  by_cases hlast : k = 22
  · left
    rw [hs, hlast]
    decide
  · right
    have hpow : 2 ^ k ≤ 2 ^ 21 := Nat.pow_le_pow_right (by omega) (by omega)
    refine ⟨by omega, k + 1, by omega, ?_⟩
    rw [hs, Nat.pow_succ]
    omega

theorem Doubled.le {s : Nat} (h : Doubled s) : s ≤ 2 ^ 31 := by
  cases h.next with
  | inl heq => omega
  | inr hlt => omega

theorem getRow_newline (n s : Nat) (row rest : CString) :
    getRow n s row ('\n' :: rest) = some ⟨row, s, false, rest⟩ := by
  rw [getRow, if_pos rfl]

theorem getRow_cons {n s : Nat} {c : Char} (hc : c ≠ '\n') (hn : n < s) (hs : Doubled s)
    (row f : CString) :
    getRow n s row (c :: f) =
      if n + 1 = s then
        if s = 2 ^ 31 then none else getRow (n + 1) (s * 2) (row ++ [c]) f
      else getRow (n + 1) s (row ++ [c]) f := by
  have hle := hs.le
  have hmod : (n + 1) % 2 ^ 32 = n + 1 := Nat.mod_eq_of_lt (by omega)
  rw [getRow, if_neg hc]
  simp only [hmod]
  by_cases hfull : n + 1 = s
  · rw [if_pos hfull, if_pos hfull]
    cases hs.next with
    | inl heq => simp [heq]
    | inr hlt =>
      have hdouble : s * 2 % 2 ^ 32 = s * 2 := Nat.mod_eq_of_lt (by omega)
      have hpos := hs.pos
      rw [hdouble, if_neg (by omega), if_neg (by omega)]
  · rw [if_neg hfull, if_neg hfull]

theorem getRow_line {line rest : CString} (hline : IsLine line) {n s : Nat} (hn : n < s)
    (hs : Doubled s) (hlen : n + line.length < 2 ^ 31) (row : CString) :
    ∃ s', getRow n s row (line ++ '\n' :: rest) = some ⟨row ++ line, s', false, rest⟩
      ∧ Doubled s' := by
  induction line generalizing n s row with
  | nil => exact ⟨s, by rw [List.nil_append, getRow_newline, List.append_nil], hs⟩
  | cons c line ih =>
    have hc : c ≠ '\n' := fun heq => hline (heq ▸ List.mem_cons_self)
    have htail : IsLine line := fun hmem => hline (List.mem_cons_of_mem c hmem)
    rw [List.length_cons] at hlen
    rw [List.cons_append, getRow_cons hc hn hs]
    by_cases hfull : n + 1 = s
    · have hsmall : s ≠ 2 ^ 31 := by omega
      have hdouble := (hs.next.resolve_left hsmall).2
      obtain ⟨s', hget, hs'⟩ := ih htail (by omega : n + 1 < s * 2) hdouble (by omega) (row ++ [c])
      rw [if_pos hfull, if_neg hsmall]
      exact ⟨s', by rw [hget, List.append_assoc, List.singleton_append], hs'⟩
    · obtain ⟨s', hget, hs'⟩ := ih htail (by omega : n + 1 < s) hs (by omega) (row ++ [c])
      rw [if_neg hfull]
      exact ⟨s', by rw [hget, List.append_assoc, List.singleton_append], hs'⟩

theorem getRow_long {line rest : CString} (hline : IsLine line) {n s : Nat} (hn : n < s)
    (hs : Doubled s) (hlen : ¬n + line.length < 2 ^ 31) (row : CString) :
    getRow n s row (line ++ rest) = none := by
  induction line generalizing n s row with
  | nil =>
    have hle := hs.le
    rw [List.length_nil] at hlen
    omega
  | cons c line ih =>
    have hc : c ≠ '\n' := fun heq => hline (heq ▸ List.mem_cons_self)
    have htail : IsLine line := fun hmem => hline (List.mem_cons_of_mem c hmem)
    rw [List.length_cons] at hlen
    rw [List.cons_append, getRow_cons hc hn hs]
    by_cases hfull : n + 1 = s
    · rw [if_pos hfull]
      split_ifs with hlast
      · rfl
      · have hdouble := (hs.next.resolve_left hlast).2
        exact ih htail (by omega) hdouble (by omega) (row ++ [c])
    · rw [if_neg hfull]
      exact ih htail (by omega) hs (by omega) (row ++ [c])

/-! ### Files -/

theorem writeFile_cons (row : Row) (rows : List Row) :
    writeFile (row :: rows) = row.text ++ '\n' :: writeFile rows := by
  simp [writeFile, opensexCommitRow]

theorem readFile_writeFile_of_lt {rs : Opensex} {rows : List Row} (hs : Doubled rs.bufsize)
    (hf : rs.f = writeFile rows) (h : ∀ row ∈ rows, row.text.length < 2 ^ 31) :
    readFile rs (rows.map Row.shape) = some (rows.map Row.read) := by
  induction rows generalizing rs with
  | nil =>
    have hget : getRow 0 rs.bufsize [] rs.f = some ⟨[], rs.bufsize, true, []⟩ := by
      rw [hf]
      rfl
    simp [readFile, opensexReadNextRow, hget]
  | cons row rows ih =>
    obtain ⟨s', hget, hs'⟩ := @getRow_line row.text (writeFile rows) row.isLine 0 _ hs.pos hs
      (by have hlen := h row List.mem_cons_self; omega) []
    rw [← writeFile_cons, ← hf, List.nil_append] at hget
    have hnext : opensexReadNextRow rs
        = some (true, ⟨writeFile rows, s', some row.text, rs.line + 1, 0⟩) := by
      simp [opensexReadNextRow, hget]
    obtain ⟨hrow, hrest, hsize⟩ :=
      @readRow_row ⟨writeFile rows, s', some row.text, rs.line + 1, 0⟩ row rfl
    have htail := @ih (readRow ⟨writeFile rows, s', some row.text, rs.line + 1, 0⟩ row.shape).2
      (hsize ▸ hs') hrest fun r hr => h r (List.mem_cons_of_mem row hr)
    simp [readFile, hnext, hrow, htail]

theorem readFile_writeFile_long {rs : Opensex} {rows : List Row} (hs : Doubled rs.bufsize)
    (hf : rs.f = writeFile rows) (h : ¬∀ row ∈ rows, row.text.length < 2 ^ 31) :
    readFile rs (rows.map Row.shape) = none := by
  induction rows generalizing rs with
  | nil => simp at h
  | cons row rows ih =>
    by_cases hlen : row.text.length < 2 ^ 31
    · have htail : ¬∀ r ∈ rows, r.text.length < 2 ^ 31 := fun hall => h fun r hr => by
        cases List.mem_cons.mp hr with
        | inl heq => exact heq ▸ hlen
        | inr hr => exact hall r hr
      obtain ⟨s', hget, hs'⟩ := @getRow_line row.text (writeFile rows) row.isLine 0 _ hs.pos hs
        (by omega) []
      rw [← writeFile_cons, ← hf, List.nil_append] at hget
      have hnext : opensexReadNextRow rs
          = some (true, ⟨writeFile rows, s', some row.text, rs.line + 1, 0⟩) := by
        simp [opensexReadNextRow, hget]
      obtain ⟨hrow, hrest, hsize⟩ :=
        @readRow_row ⟨writeFile rows, s', some row.text, rs.line + 1, 0⟩ row rfl
      have hnone := @ih (readRow ⟨writeFile rows, s', some row.text, rs.line + 1, 0⟩
        row.shape).2 (hsize ▸ hs') hrest htail
      simp [readFile, hnext, hrow, hnone]
    · have hget := @getRow_long row.text ('\n' :: writeFile rows) row.isLine 0 _ hs.pos hs
        (by omega) []
      rw [← writeFile_cons, ← hf] at hget
      simp [readFile, opensexReadNextRow, hget]

/-- The rows come back exactly where each of them is below 2^31 bytes. -/
theorem readFile_writeFile_iff (rows : List Row) :
    readFile (opensexDbOpenRead (writeFile rows)) (rows.map Row.shape)
        = some (rows.map Row.read)
      ↔ ∀ row ∈ rows, row.text.length < 2 ^ 31 := by
  constructor
  · intro hread
    by_contra h
    rw [readFile_writeFile_long doubled_start rfl h] at hread
    exact absurd hread (by simp)
  · exact readFile_writeFile_of_lt doubled_start rfl

theorem not_readFile_writeFile {s : Line} (h : s.1.length = 2 ^ 31) (type : Word) :
    readFile (opensexDbOpenRead (writeFile [⟨type, [], some s⟩])) [([], true)] ≠
      some [⟨type.1, [], some s.1⟩] := by
  have hlen : ¬∀ row ∈ [Row.mk type [] (some s)], row.text.length < 2 ^ 31 := by
    intro hall
    have htext := hall _ List.mem_cons_self
    simp [Row.text, opensexStartRow, opensexWriteStr, opensexWriteCell] at htext
    omega
  have hnone := @readFile_writeFile_long (opensexDbOpenRead
    (writeFile [Row.mk type [] (some s)])) _ doubled_start rfl hlen
  intro hread
  rw [← List.map_singleton] at hread
  exact absurd (hnone.symm.trans hread) (by simp)

def letters (n : Nat) : Line :=
  ⟨List.replicate n 'a', fun h => absurd (List.eq_of_mem_replicate h) (by decide)⟩

theorem readFile_two_gigabytes_fails :
    readFile (opensexDbOpenRead (writeFile
      [⟨⟨['X'], by decide⟩, [], some (letters (2 ^ 31))⟩]))
      [([], true)] ≠ some [⟨['X'], [], some (List.replicate (2 ^ 31) 'a')⟩] :=
  not_readFile_writeFile List.length_replicate _

end ChatServices.Storage
