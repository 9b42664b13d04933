import ChatServices.Net.SendQueue

/-! The receive queue over whole runs. The copying loop of `recvq_getline` goes on into the next
chunk when the line ends with its chunk, which is where a call returns more than the line. -/
namespace ChatServices.Net
open ChatServices.Lib.Segments ChatServices.Lib.Run

section lines

def firstLine (w : List UInt8) : List UInt8 :=
  if newline ∈ w then w.take (w.idxOf newline + 1) else []

variable {w v : List UInt8}

theorem length_firstLine (h : newline ∈ w) : (firstLine w).length = w.idxOf newline + 1 := by
  have hlt := List.idxOf_lt_length_of_mem h
  rw [firstLine, if_pos h, List.length_take]
  omega

theorem firstLine_append_of_mem (h : newline ∈ w) : firstLine (w ++ v) = firstLine w := by
  have hlt := List.idxOf_lt_length_of_mem h
  rw [firstLine, firstLine, if_pos h, if_pos (List.mem_append_left v h),
    List.idxOf_append_of_mem h, List.take_append_of_le_length (by omega)]

theorem firstLine_append_of_notMem (h : newline ∉ w) (hv : newline ∈ v) :
    firstLine (w ++ v) = w ++ firstLine v := by
  rw [firstLine, firstLine, if_pos hv, if_pos (List.mem_append_right w hv),
    List.idxOf_append_of_notMem h, Nat.add_assoc, List.take_length_add_append]

end lines

section getline

/-- The first newline, as `recvq_getline` remembers it. -/
def markOf : List SendqChunk → Option (Nat × Nat)
  | [] => none
  | c :: rest =>
    if newline ∈ c.pending then some (0, c.pending.idxOf newline)
    else (markOf rest).map fun m => (m.1 + 1, m.2)

def lineAtSeam : List SendqChunk → Bool
  | [] => false
  | c :: rest =>
    if newline ∈ c.pending then
      c.pending.idxOf newline + 1 = c.pending.length && !(content rest).isEmpty
    else lineAtSeam rest

/-- What the copying loop adds to the line, with room for `len` bytes in all. -/
def overrun (len : Nat) : List SendqChunk → List UInt8
  | [] => []
  | c :: rest =>
    if newline ∈ c.pending then
      if c.pending.idxOf newline + 1 = c.pending.length then
        (content rest).take (len - c.pending.length)
      else []
    else overrun (len - c.pending.length) rest

variable {q : List SendqChunk} {len : Nat}

theorem isSome_markOf : (markOf q).isSome ↔ newline ∈ content q := by
  induction q with
  | nil => simp [markOf]
  | cons c rest ih =>
    rw [markOf, content_cons, List.mem_append]
    split_ifs with h
    · simp [h]
    · simp [h, ih]

theorem findNewline_of_mem (hq : ∀ c ∈ q, Segment.Fits SENDQSIZE c) (l : Nat)
    (h : newline ∈ content q) (hlen : l + (firstLine (content q)).length ≤ len) :
    (findNewline len l q).2 = markOf q := by
  induction q generalizing l with
  | nil => simp at h
  | cons c rest ih =>
    have hpending := Segment.length_pending (hq c List.mem_cons_self)
    rw [Segment.avail] at hpending
    rw [content_cons] at h hlen
    by_cases hmem : newline ∈ c.pending
    · simp [findNewline, markOf, hmem]
    · have hrest : newline ∈ content rest := (List.mem_append.mp h).resolve_left hmem
      have hpos := length_firstLine hrest
      rw [firstLine_append_of_notMem hmem hrest, List.length_append] at hlen
      have hshort : ¬l + (c.firstfree - c.firstused) ≥ len := by omega
      simp only [findNewline, markOf, hmem, hshort, if_false]
      rw [ih (fun d hd => hq d (List.mem_cons_of_mem c hd)) _ hrest (by omega)]

theorem findNewline_of_notMem (hq : ∀ c ∈ q, Segment.Fits SENDQSIZE c) (l : Nat)
    (h : newline ∉ content q) (hlen : l + (content q).length < len) :
    findNewline len l q = (l + (content q).length, none) := by
  induction q generalizing l with
  | nil => rfl
  | cons c rest ih =>
    have hpending := Segment.length_pending (hq c List.mem_cons_self)
    rw [Segment.avail] at hpending
    rw [content_cons, List.length_append] at hlen
    rw [content_cons, List.mem_append] at h
    have hmem : newline ∉ c.pending := fun hm => h (.inl hm)
    have hshort : ¬l + (c.firstfree - c.firstused) ≥ len := by omega
    simp only [findNewline, hmem, hshort, if_false]
    rw [ih (fun d hd => hq d (List.mem_cons_of_mem c hd)) _ (fun hm => h (.inr hm)) (by omega)]
    simp only [Option.map_none, content_cons, List.length_append]
    rw [← hpending, Nat.add_assoc]

theorem modest_getOnce : Modest getOnce := by
  intro s xs n h
  simp only [getOnce, Option.some.injEq] at h
  omega

theorem modest_lineOnce : Modest lineOnce := by
  intro s xs n h
  simp only [lineOnce] at h
  split at h
  · split_ifs at h <;> simp only [Option.some.injEq] at h <;> omega
  · simp only [Option.some.injEq] at h
    omega
  · simp only [Option.some.injEq] at h
    omega

theorem drain_getOnce (h : Tidy SENDQSIZE q) (len : Nat) :
    (drain (fun len => len == 0) getOnce len q).out = (content q).take len := by
  refine @drain_budget _ _ _ _ _ _ (fun _ => True) id ?_ ?_ len trivial h
  · intro s _
    exact beq_iff_eq
  · intro s xs _
    exact ⟨rfl, trivial, rfl⟩

theorem drain_lineOnce_none (h : Tidy SENDQSIZE q) (s : LineState) (hs : s.mark = none) :
    (drain (fun s => s.len == 0) lineOnce s q).out = (content q).take s.len := by
  refine @drain_budget _ _ _ _ _ _ (fun s => s.mark = none) LineState.len ?_ ?_ s hs h
  · intro s _
    exact beq_iff_eq
  · intro s xs hs
    simp [lineOnce, hs]

theorem drain_lineOnce (h : Tidy SENDQSIZE q) (hmem : newline ∈ content q)
    (hlen : (firstLine (content q)).length < len) (nn : Bool) :
    (drain (fun s => s.len == 0) lineOnce ⟨len, markOf q, nn⟩ q).out
      = firstLine (content q) ++ overrun len q := by
  induction q generalizing len with
  | nil => simp at hmem
  | cons c rest ih =>
    have hpending := Segment.length_pending h.head
    have hbusy : c.firstused ≠ c.firstfree := by
      intro hidle
      rw [h.content_of_idle hidle] at hmem
      simp at hmem
    rw [content_cons] at hmem hlen
    by_cases hc : newline ∈ c.pending
    · have hidx := List.idxOf_lt_length_of_mem hc
      have hline := length_firstLine hc
      rw [firstLine_append_of_mem hc, hline] at hlen
      have htake : c.pending.take (c.pending.idxOf newline + 1) = firstLine c.pending := by
        rw [firstLine, if_pos hc]
      have hgrab : lineOnce ⟨len, markOf (c :: rest), nn⟩ c.pending
          = (⟨len - (c.pending.idxOf newline + 1), none, false⟩,
            some (c.pending.idxOf newline + 1)) := by
        simp only [lineOnce, markOf, hc, if_true]
        rw [if_pos (by omega)]
      have hstop : ¬(c.firstused = c.firstfree ∨ ((len == 0) = true)) := by
        simp only [beq_iff_eq]
        omega
      have hused := h.head.used
      rw [Segment.avail] at hpending
      rw [content_cons, firstLine_append_of_mem hc]
      simp only [drain, hgrab, if_neg hstop, htake]
      by_cases hseam : c.pending.idxOf newline + 1 = c.pending.length
      · have hdone : (c.skip (c.pending.idxOf newline + 1)).firstused
            = (c.skip (c.pending.idxOf newline + 1)).firstfree := by
          simp only [Segment.skip]
          omega
        rw [hseam] at hdone
        by_cases hrest : rest = []
        · simp [hdone, hrest, overrun, hc, hseam]
        · simp only [hdone, if_true, ne_eq, hrest, not_false_eq_true, overrun, hc, hseam]
          rw [drain_lineOnce_none h.tail _ rfl]
      · have hmore : (c.skip (c.pending.idxOf newline + 1)).firstused
            ≠ (c.skip (c.pending.idxOf newline + 1)).firstfree := by
          simp only [Segment.skip]
          omega
        simp [hmore, overrun, hc, hseam]
    · have hrest : newline ∈ content rest := (List.mem_append.mp hmem).resolve_left hc
      have hne : rest ≠ [] := by
        intro hnil
        simp [hnil] at hrest
      have hpos := length_firstLine hrest
      rw [firstLine_append_of_notMem hc hrest, List.length_append] at hlen
      obtain ⟨m, hm⟩ := Option.isSome_iff_exists.mp (isSome_markOf.mpr hrest)
      have hgrab : lineOnce ⟨len, markOf (c :: rest), nn⟩ c.pending
          = (⟨len - c.pending.length, markOf rest, nn⟩, some c.pending.length) := by
        simp only [lineOnce, markOf, hc, if_false, hm, Option.map_some]
        rw [Nat.min_eq_left (by omega)]
      have hstop : ((len == 0) = false) := by
        simp only [beq_eq_false_iff_ne, ne_eq]
        omega
      have hwhole := @drain_whole _ _ _ (fun s : LineState => s.len == 0) lineOnce _ _ c rest
        h.head (h.head_busy hne) hne hstop hgrab
      rw [hwhole, ih h.tail hrest (by omega), content_cons, firstLine_append_of_notMem hc hrest]
      simp [overrun, hc]

theorem overrun_eq_nil (hmem : newline ∈ content q) (hlen : (firstLine (content q)).length < len) :
    overrun len q = [] ↔ lineAtSeam q = false := by
  induction q generalizing len with
  | nil => simp [overrun, lineAtSeam]
  | cons c rest ih =>
    rw [content_cons] at hmem hlen
    by_cases hc : newline ∈ c.pending
    · have hline := length_firstLine hc
      rw [firstLine_append_of_mem hc, hline] at hlen
      by_cases hseam : c.pending.idxOf newline + 1 = c.pending.length
      · simp only [overrun, lineAtSeam, hc, if_true, hseam, decide_true, Bool.true_and]
        rw [List.take_eq_nil_iff]
        simp
        omega
      · simp [overrun, lineAtSeam, hc, hseam]
    · have hrest : newline ∈ content rest := (List.mem_append.mp hmem).resolve_left hc
      rw [firstLine_append_of_notMem hc hrest, List.length_append] at hlen
      simp only [overrun, lineAtSeam, hc, if_false]
      exact ih hrest (by omega)

theorem lineAtSeam_of_notMem (h : newline ∉ content q) : lineAtSeam q = false := by
  induction q with
  | nil => rfl
  | cons c rest ih =>
    rw [content_cons, List.mem_append, not_or] at h
    rw [lineAtSeam, if_neg h.1]
    exact ih h.2

end getline

section calls

theorem toInt_eq_iff (n : Nat) : toInt n = n ↔ n < 2 ^ 31 := by
  rw [toInt, Int.bmod_def]
  omega

def LineFits (len : Nat) (w : List UInt8) : Prop :=
  if newline ∈ w then (firstLine w).length < len else w.length < len

theorem recvqGet_right {cptr : Connection} (h : Tidy SENDQSIZE cptr.recvq) (len : Nat) :
    ((recvqGet cptr len).got = (content cptr.recvq).take len
      ∧ (recvqGet cptr len).count = (recvqGet cptr len).got.length)
      ↔ min len (content cptr.recvq).length < 2 ^ 31 := by
  have hgot : (recvqGet cptr len).got = (content cptr.recvq).take len := by
    simp only [recvqGet]
    exact drain_getOnce h len
  have hcount : (recvqGet cptr len).count = toInt (recvqGet cptr len).got.length := by
    simp only [recvqGet, countOf]
  rw [hcount, toInt_eq_iff, hgot, List.length_take]
  simp

/-- `recvq_getline` returns the line unless the line ends at a seam; where there is none it
returns nothing. -/
theorem recvqGetline_right {cptr : Connection} (h : Tidy SENDQSIZE cptr.recvq) {len : Nat}
    (hfits : LineFits len (content cptr.recvq)) :
    ((recvqGetline cptr len).got = firstLine (content cptr.recvq)
      ∧ (recvqGetline cptr len).count = (recvqGetline cptr len).got.length)
      ↔ lineAtSeam cptr.recvq = false ∧ (firstLine (content cptr.recvq)).length < 2 ^ 31 := by
  rw [LineFits] at hfits
  by_cases hmem : newline ∈ content cptr.recvq
  · rw [if_pos hmem] at hfits
    have hmark := findNewline_of_mem h.fits 0 hmem (by omega : _ ≤ len)
    have hsome : markOf cptr.recvq ≠ none := by
      rw [← Option.isSome_iff_ne_none, isSome_markOf]
      exact hmem
    have hscan : ¬((findNewline len 0 cptr.recvq).2 = none ∧
        (findNewline len 0 cptr.recvq).1 < len) := by
      rw [hmark]
      exact fun hnone => hsome hnone.1
    have hgot : (recvqGetline cptr len).got
        = firstLine (content cptr.recvq) ++ overrun len cptr.recvq := by
      simp only [recvqGetline]
      rw [if_neg hscan, hmark]
      exact drain_lineOnce h hmem hfits true
    have hcount : (recvqGetline cptr len).count = toInt (recvqGetline cptr len).got.length := by
      simp only [recvqGetline]
      rw [if_neg hscan, countOf]
    rw [hcount, toInt_eq_iff, hgot, ← overrun_eq_nil hmem hfits, List.append_right_eq_self]
    constructor
    · intro hright
      refine ⟨hright.1, ?_⟩
      have hlen := hright.2
      rw [hright.1, List.append_nil] at hlen
      exact hlen
    · intro hright
      refine ⟨hright.1, ?_⟩
      rw [hright.1, List.append_nil]
      exact hright.2
  · rw [if_neg hmem] at hfits
    have hscan := findNewline_of_notMem h.fits 0 hmem (by omega : _ < len)
    have hgot : recvqGetline cptr len = ⟨cptr, [], 0⟩ := by
      simp only [recvqGetline, hscan]
      rw [if_pos ⟨trivial, by omega⟩]
    simp [hgot, firstLine, hmem, lineAtSeam_of_notMem hmem]

theorem recvqGet_content {cptr : Connection} (h : Tidy SENDQSIZE cptr.recvq) (len : Nat) :
    (recvqGet cptr len).got ++ content (recvqGet cptr len).cptr.recvq = content cptr.recvq
      ∧ Tidy SENDQSIZE (recvqGet cptr len).cptr.recvq :=
  drain_spec modest_getOnce len h

theorem recvqGetline_content {cptr : Connection} (h : Tidy SENDQSIZE cptr.recvq) (len : Nat) :
    (recvqGetline cptr len).got ++ content (recvqGetline cptr len).cptr.recvq
        = content cptr.recvq
      ∧ Tidy SENDQSIZE (recvqGetline cptr len).cptr.recvq := by
  simp only [recvqGetline]
  split
  · exact ⟨rfl, h⟩
  · exact drain_spec modest_lineOnce _ h

theorem recvqRoom_spec {q : List SendqChunk} (h : Tidy SENDQSIZE q) :
    content ((recvqRoom q).1 ++ [(recvqRoom q).2]) = content q
      ∧ Tidy SENDQSIZE ((recvqRoom q).1 ++ [(recvqRoom q).2]) := by
  have hnew : Tidy SENDQSIZE [newChunk] := tidy_singleton fits_newChunk (fun _ => rfl)
  rw [recvqRoom]
  cases hlast : q.getLast? with
  | none =>
    have hnil : q = [] := List.getLast?_eq_none_iff.mp hlast
    rw [hnil]
    exact ⟨rfl, hnew⟩
  | some sq =>
    have hq : q.dropLast ++ [sq] = q := List.dropLast_append_getLast? sq hlast
    dsimp only
    split_ifs with hfull
    · refine ⟨?_, tidy_append h hnew fun _ c hc => ?_⟩
      · rw [content_append, content_cons, content_nil]
        simp [newChunk, Segment.pending]
      · rw [← hq] at hc
        cases List.mem_append.mp hc with
        | inl hc => exact h.busy c hc
        | inr hc =>
          have hsq := List.mem_of_getLast? hlast
          have hused := (h.fits sq hsq).used
          have hrewound := h.rewound sq hsq
          rw [List.mem_singleton.mp hc]
          simp only [SENDQSIZE] at hfull
          omega
    · rw [hq]
      exact ⟨rfl, h⟩

theorem recvqPut_content {cptr : Connection} (h : Tidy SENDQSIZE cptr.recvq)
    (answer : RecvAnswer) :
    (recvqPut cptr answer).1 = connectionClose cptr ∧ (recvqPut cptr answer).2 = []
      ∨ (recvqPut cptr answer).1.closed = cptr.closed
        ∧ content (recvqPut cptr answer).1.recvq
          = content cptr.recvq ++ (recvqPut cptr answer).2
        ∧ Tidy SENDQSIZE (recvqPut cptr answer).1.recvq := by
  obtain ⟨hcontent, htidy⟩ := recvqRoom_spec h
  rw [recvqPut]
  split_ifs with hdead
  · exact .inl ⟨rfl, rfl⟩
  · cases answer with
    | again => exact .inr ⟨rfl, by rw [hcontent, List.append_nil], htidy⟩
    | failed => exact .inl ⟨rfl, rfl⟩
    | bytes data =>
      dsimp only
      split_ifs with hnone
      · exact .inl ⟨rfl, rfl⟩
      · right
        have hlen : (data.take (SENDQSIZE - (recvqRoom cptr.recvq).2.firstfree)).length
            = min (SENDQSIZE - (recvqRoom cptr.recvq).2.firstfree)
              (data.take (SENDQSIZE - (recvqRoom cptr.recvq).2.firstfree)).length := by
          rw [List.length_take]
          omega
        have hfill := @fill_spec _ SENDQSIZE _ _ _ (0 : UInt8) _ (by decide) htidy hlen
        rw [List.take_length, List.drop_length, cut_nil, List.append_nil, hcontent] at hfill
        exact ⟨rfl, hfill⟩

end calls

section runs

inductive Call where
  | get (len : Nat)
  | getline (len : Nat)
  deriving DecidableEq

inductive ConnEvent where
  | put (answer : RecvAnswer)
  | call (c : Call)
  | send (e : SendEvent)
  deriving DecidableEq

structure Report where
  call : Call
  pending : List UInt8
  got : List UInt8
  count : Int
  deriving DecidableEq

structure RecvSession where
  cptr : Connection
  received : List UInt8
  returned : List UInt8
  deriving DecidableEq

def RecvSession.start : RecvSession := ⟨Connection.fresh, [], []⟩

def answerCall (cptr : Connection) : Call → Got
  | .get len => recvqGet cptr len
  | .getline len => recvqGetline cptr len

def connStep (s : RecvSession) (e : ConnEvent) : RecvSession × List Report :=
  if s.cptr.closed then (s, [])
  else
    match e with
    | .put answer =>
      ({ s with
        cptr := (recvqPut s.cptr answer).1
        received := s.received ++ (recvqPut s.cptr answer).2 }, [])
    | .call c =>
      let r := answerCall s.cptr c
      ({ s with cptr := r.cptr, returned := s.returned ++ r.got },
        [⟨c, content s.cptr.recvq, r.got, r.count⟩])
    | .send e => ({ s with cptr := (sendStep ⟨s.cptr, [], [], false⟩ e).1.cptr }, [])

def Report.Right (r : Report) : Prop :=
  match r.call with
  | .get len => r.got = r.pending.take len ∧ r.count = r.got.length
  | .getline len =>
    LineFits len r.pending → r.got = firstLine r.pending ∧ r.count = r.got.length

/-- The line does not end at a seam, and what is returned can be counted in an `int`. -/
def Whole (s : RecvSession) : ConnEvent → Prop
  | .call (.get len) => s.cptr.closed = false → min len (content s.cptr.recvq).length < 2 ^ 31
  | .call (.getline len) => s.cptr.closed = false → LineFits len (content s.cptr.recvq) →
    lineAtSeam s.cptr.recvq = false ∧ (firstLine (content s.cptr.recvq)).length < 2 ^ 31
  | _ => True

structure Stream (s : RecvSession) : Prop where
  returned : s.returned <+: s.received
  pending : s.cptr.closed = false → s.received = s.returned ++ content s.cptr.recvq
  tidy : Tidy SENDQSIZE s.cptr.recvq

theorem stream_start : Stream .start := ⟨List.prefix_refl _, fun _ => rfl, tidy_nil⟩

theorem sendStep_recvq (cptr : Connection) (e : SendEvent) :
    (sendStep ⟨cptr, [], [], false⟩ e).1.cptr.recvq = cptr.recvq
      ∧ (sendStep ⟨cptr, [], [], false⟩ e).1.cptr.closed = cptr.closed := by
  cases e with
  | add buf =>
    have hadd : ∀ c, sendqAdd cptr buf = some c →
        c.recvq = cptr.recvq ∧ c.closed = cptr.closed := by
      intro c hc
      simp only [sendqAdd] at hc
      split_ifs at hc
      · cases hc
        exact ⟨rfl, rfl⟩
      · cases hc
        exact ⟨rfl, rfl⟩
      · cases hc
        exact ⟨rfl, rfl⟩
      all_goals
        split at hc
        · obtain ⟨data, -, hc⟩ := Option.bind_eq_some_iff.mp hc
          obtain ⟨more, -, hc⟩ := Option.bind_eq_some_iff.mp hc
          cases hc
          exact ⟨rfl, rfl⟩
        · obtain ⟨more, -, hc⟩ := Option.bind_eq_some_iff.mp hc
          cases hc
          exact ⟨rfl, rfl⟩
    cases hc : sendqAdd cptr buf with
    | none => simp [sendStep, hc]
    | some c =>
      simp only [sendStep, hc]
      exact hadd c hc
  | addEof =>
    simp only [sendStep, sendqAddEof]
    split_ifs <;> exact ⟨rfl, rfl⟩
  | setLimit len => exact ⟨rfl, rfl⟩
  | flush answers =>
    simp only [sendStep, sendqFlush]
    split <;> exact ⟨rfl, rfl⟩

theorem answerCall_content {cptr : Connection} (h : Tidy SENDQSIZE cptr.recvq) (c : Call) :
    (answerCall cptr c).got ++ content (answerCall cptr c).cptr.recvq = content cptr.recvq
      ∧ Tidy SENDQSIZE (answerCall cptr c).cptr.recvq
      ∧ (answerCall cptr c).cptr.closed = cptr.closed := by
  cases c with
  | get len => exact ⟨(recvqGet_content h len).1, (recvqGet_content h len).2, rfl⟩
  | getline len =>
    refine ⟨(recvqGetline_content h len).1, (recvqGetline_content h len).2, ?_⟩
    simp only [answerCall, recvqGetline]
    split <;> rfl

theorem stream_step (s : RecvSession) (e : ConnEvent) (h : Stream s) :
    Stream (connStep s e).1 := by
  have htidy := h.tidy
  rw [connStep.eq_def]
  cases hclosed : s.cptr.closed with
  | true =>
    rw [if_pos rfl]
    exact h
  | false =>
    have hpending := h.pending hclosed
    rw [if_neg Bool.false_ne_true]
    cases e with
    | put answer =>
      cases recvqPut_content htidy answer with
      | inl hput =>
        obtain ⟨hclose, hnone⟩ := hput
        simp only [hclose, hnone, List.append_nil]
        exact ⟨h.returned, fun hc => absurd hc (by simp [connectionClose]), tidy_nil⟩
      | inr hput =>
        obtain ⟨-, hcontent, htidy'⟩ := hput
        refine ⟨h.returned.trans (List.prefix_append _ _), fun _ => ?_, htidy'⟩
        simp only [hcontent]
        rw [hpending, List.append_assoc]
    | call c =>
      obtain ⟨hcontent, htidy', -⟩ := answerCall_content htidy c
      refine ⟨⟨content (answerCall s.cptr c).cptr.recvq, ?_⟩, fun _ => ?_, htidy'⟩
      · simp only [List.append_assoc, hcontent, ← hpending]
      · simp only [List.append_assoc, hcontent, ← hpending]
    | send e =>
      obtain ⟨hq, -⟩ := sendStep_recvq s.cptr e
      refine ⟨h.returned, fun _ => ?_, ?_⟩
      · simp only [hq]
        exact hpending
      · simp only [hq]
        exact htidy

theorem right_step_iff (s : RecvSession) (e : ConnEvent) (h : Stream s) :
    (∀ r ∈ (connStep s e).2, r.Right) ↔ Whole s e := by
  rw [connStep.eq_def]
  cases hclosed : s.cptr.closed with
  | true =>
    rw [if_pos rfl]
    cases e with
    | put answer => simp [Whole]
    | call c => cases c <;> simp [Whole, hclosed]
    | send e => simp [Whole]
  | false =>
    rw [if_neg Bool.false_ne_true]
    cases e with
    | put answer => simp [Whole]
    | call c =>
      cases c with
      | get len =>
        simp only [List.forall_mem_singleton, Report.Right, answerCall, Whole, hclosed,
          forall_const]
        exact recvqGet_right h.tidy len
      | getline len =>
        simp only [List.forall_mem_singleton, Report.Right, answerCall, Whole, hclosed,
          forall_const]
        exact forall_congr' fun hfits => recvqGetline_right h.tidy hfits
    | send e => simp [Whole]

structure RecvqSound (r : RecvSession × List Report) : Prop where
  stream : r.1.returned <+: r.1.received
  pending : r.1.cptr.closed = false → r.1.received = r.1.returned ++ content r.1.cptr.recvq
  calls : ∀ report ∈ r.2, report.Right

theorem stream_run {s : RecvSession} (h : Stream s) (es : List ConnEvent) :
    Stream (run connStep s es).1 := by
  induction es generalizing s with
  | nil => exact h
  | cons e es ih => exact ih (stream_step s e h)

theorem recvqSound_run_iff (es : List ConnEvent) :
    RecvqSound (run connStep .start es) ↔ Guarded connStep Whole .start es := by
  have hstream := stream_run stream_start es
  have hcalls := run_emits_iff_of_invariant stream_step right_step_iff stream_start es
  constructor
  · intro h
    exact hcalls.mp h.calls
  · intro h
    exact ⟨hstream.returned, hstream.pending, hcalls.mpr h⟩

theorem connStep_put {s : RecvSession} (h : s.cptr.closed = false) (answer : RecvAnswer) :
    connStep s (.put answer) = ({ s with
      cptr := (recvqPut s.cptr answer).1
      received := s.received ++ (recvqPut s.cptr answer).2 }, []) := by
  rw [connStep.eq_def, h, if_neg Bool.false_ne_true]

theorem not_recvqSound_seam {body : List UInt8} (hlen : body.length = SENDQSIZE - 1)
    (hbody : newline ∉ body) (x : UInt8) :
    ¬RecvqSound (run connStep .start [.put (.bytes (body ++ [newline])), .put (.bytes [x]),
      .call (.getline 8192)]) := by
  have hfull : (body ++ [newline]).length = SENDQSIZE := by
    rw [List.length_append, hlen]
    rfl
  have hne : body ++ [newline] ≠ [] := by simp
  have hfits : Segment.Fits SENDQSIZE (newChunk.push (body ++ [newline])) :=
    fits_newChunk.push (by rw [hfull]; decide)
  have hpending : (newChunk.push (body ++ [newline])).pending = body ++ [newline] := by
    rw [Segment.pending_push fits_newChunk (by rw [hfull]; decide)]
    rfl
  have hpendingx : (newChunk.push [x]).pending = [x] := by
    rw [Segment.pending_push fits_newChunk (by rw [List.length_singleton]; decide)]
    rfl
  have hput : recvqPut Connection.fresh (.bytes (body ++ [newline]))
      = ({ Connection.fresh with recvq := [newChunk.push (body ++ [newline])] },
        body ++ [newline]) := by
    have htake : (body ++ [newline]).take (SENDQSIZE - newChunk.firstfree)
        = body ++ [newline] := List.take_of_length_le (by rw [hfull]; decide)
    simp only [recvqPut, recvqRoom, Connection.fresh, List.getLast?_nil, htake, if_neg hne]
    rfl
  have hputx : recvqPut { Connection.fresh with recvq := [newChunk.push (body ++ [newline])] }
      (.bytes [x]) = ({ Connection.fresh with
        recvq := [newChunk.push (body ++ [newline]), newChunk.push [x]] }, [x]) := by
    have hroom : SENDQSIZE - (newChunk.push (body ++ [newline])).firstfree = 0 := by
      simp only [Segment.push, hfull]
      decide
    have htake : [x].take (SENDQSIZE - newChunk.firstfree) = [x] :=
      List.take_of_length_le (by rw [List.length_singleton]; decide)
    simp only [recvqPut, recvqRoom, Connection.fresh, List.getLast?_singleton, hroom, if_true,
      htake]
    rfl
  have hcontent : content [newChunk.push (body ++ [newline]), newChunk.push [x]]
      = body ++ [newline] ++ [x] := by
    rw [content_cons, content_cons, content_nil, hpending, hpendingx]
    simp
  have hmem : newline ∈ body ++ [newline] := by simp
  have hidx : (body ++ [newline]).idxOf newline + 1 = (body ++ [newline]).length := by
    rw [List.idxOf_append_of_notMem hbody]
    simp
  have hline : firstLine (body ++ [newline] ++ [x]) = body ++ [newline] := by
    rw [firstLine_append_of_mem hmem, firstLine, if_pos hmem, hidx, List.take_length]
  have hseam : lineAtSeam [newChunk.push (body ++ [newline]), newChunk.push [x]] = true := by
    simp only [lineAtSeam, hpending, hmem, hidx, content_cons, hpendingx, content_nil]
    simp
  have hroomy : LineFits 8192 (body ++ [newline] ++ [x]) := by
    rw [LineFits, if_pos (List.mem_append_left _ hmem), hline, hfull]
    decide
  have hfirst : connStep .start (.put (.bytes (body ++ [newline])))
      = (⟨{ Connection.fresh with recvq := [newChunk.push (body ++ [newline])] },
          body ++ [newline], []⟩, []) := by
    rw [connStep_put rfl]
    simp only [RecvSession.start, hput, List.nil_append]
  have hsecond : connStep ⟨{ Connection.fresh with
        recvq := [newChunk.push (body ++ [newline])] }, body ++ [newline], []⟩ (.put (.bytes [x]))
      = (⟨{ Connection.fresh with
            recvq := [newChunk.push (body ++ [newline]), newChunk.push [x]] },
          body ++ [newline] ++ [x], []⟩, []) := by
    rw [connStep_put rfl]
    simp only [hputx]
  intro hsound
  have hcalls := (run_emits_iff_of_invariant stream_step right_step_iff stream_start _).mp
    hsound.calls
  simp only [Guarded, hfirst, hsecond] at hcalls
  have hwhole := hcalls.2.2.1 rfl
  simp only [hcontent] at hwhole
  rw [hseam] at hwhole
  exact Bool.false_ne_true (hwhole hroomy).1.symm

theorem recvqSound_seam_fails :
    ¬RecvqSound (run connStep .start
      [.put (.bytes (List.replicate (SENDQSIZE - 1) 97 ++ [newline])), .put (.bytes [98]),
        .call (.getline 8192)]) :=
  not_recvqSound_seam List.length_replicate
    (fun h => absurd (List.eq_of_mem_replicate h) (by decide)) 98

end runs

end ChatServices.Net
