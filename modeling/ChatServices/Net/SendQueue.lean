import ChatServices.Net.Datastream
import ChatServices.Lib.Run

/-! The send queue over whole runs: what has been accepted is what has been written, followed by
what the queue still holds. `pos` is an `int`, so an addition reads outside its buffer as soon
as a chunk has to be filled from offset 2^31 on. -/
namespace ChatServices.Net
open ChatServices.Lib.Segments ChatServices.Lib.Run

theorem fits_newChunk : Segment.Fits SENDQSIZE newChunk := fits_blank 0

theorem toInt_of_lt {n : Nat} (h : n < 2 ^ 31) : toInt n = n := by
  rw [toInt, Int.bmod_def]
  omega

theorem toInt_neg {n : Nat} (h : 2 ^ 31 ≤ n) (h' : n < 2 ^ 32) : toInt n < 0 := by
  rw [toInt, Int.bmod_def]
  omega

section add

theorem bytesAt_of_le {buf : List UInt8} {pos l : Nat} (h : pos + l ≤ buf.length) :
    bytesAt buf pos l = some ((buf.drop pos).take l) := by
  rw [bytesAt, if_pos (by omega), Int.toNat_natCast]

theorem bytesAt_zero {buf : List UInt8} {l : Nat} (h : l ≤ buf.length) :
    bytesAt buf 0 l = some (buf.take l) := @bytesAt_of_le buf 0 l (by omega)

theorem bytesAt_neg {buf : List UInt8} {pos : Int} {l : Nat} (h : pos < 0) :
    bytesAt buf pos l = none := if_neg (by omega)

/-- The offset into the buffer at which the last chunk is filled, when the last chunk of the
queue has room for `room` bytes. -/
def lastCopy (room len : Nat) : Nat :=
  if len ≤ room then 0 else room + SENDQSIZE * ((len - room - 1) / SENDQSIZE)

theorem sendqAddChunks_zero (buf : List UInt8) (pos : Int) :
    sendqAddChunks buf pos 0 = some [] := by
  rw [sendqAddChunks]
  rfl

theorem sendqAddChunks_of_ne (buf : List UInt8) (pos : Int) {len : Nat} (h : len ≠ 0) :
    sendqAddChunks buf pos len = (bytesAt buf pos (min SENDQSIZE len)).bind fun data =>
      (sendqAddChunks buf (toInt (pos + (min SENDQSIZE len : Nat))) (len - min SENDQSIZE len)).map
        fun more => newChunk.push data :: more := by
  rw [sendqAddChunks, dif_neg h]
  simp only [Option.map_eq_bind]
  rfl

theorem sendqAddChunks_eq_cut (buf : List UInt8) (p len : Nat) (hlen : p + len = buf.length)
    (hcopy : len = 0 ∨ p + SENDQSIZE * ((len - 1) / SENDQSIZE) < 2 ^ 31) :
    sendqAddChunks buf p len = some (cut SENDQSIZE 0 (buf.drop p)) := by
  induction hn : len using Nat.strongRecOn generalizing p len with
  | ind n ih =>
    subst hn
    by_cases hzero : len = 0
    · have hnil : buf.drop p = [] := List.drop_eq_nil_of_le (by omega)
      rw [hzero, hnil, sendqAddChunks_zero, cut_nil]
    · have hne : ¬(buf.drop p = [] ∨ SENDQSIZE = 0) := by
        rw [List.drop_eq_nil_iff]
        simp only [SENDQSIZE]
        omega
      have hstart : p + SENDQSIZE * ((len - 1) / SENDQSIZE) < 2 ^ 31 := by omega
      have hread := @bytesAt_of_le buf p (min SENDQSIZE len) (by omega)
      have htake : (buf.drop p).take (min SENDQSIZE len) = (buf.drop p).take SENDQSIZE := by
        rw [List.take_eq_take_iff, List.length_drop]
        omega
      have hmore : sendqAddChunks buf (toInt (p + ((min SENDQSIZE len : Nat) : Int)))
          (len - min SENDQSIZE len) = some (cut SENDQSIZE 0 ((buf.drop p).drop SENDQSIZE)) := by
        by_cases hlast : len ≤ SENDQSIZE
        · have hnil : (buf.drop p).drop SENDQSIZE = [] :=
            List.drop_eq_nil_of_le (by rw [List.length_drop]; omega)
          rw [Nat.min_eq_right hlast, Nat.sub_self, hnil, sendqAddChunks_zero, cut_nil]
        · have hsize : min SENDQSIZE len = SENDQSIZE := Nat.min_eq_left (by omega)
          have hnext : p + SENDQSIZE
              + SENDQSIZE * ((len - SENDQSIZE - 1) / SENDQSIZE) < 2 ^ 31 := by
            simp only [SENDQSIZE] at hstart hlast ⊢
            omega
          have hpos : toInt (p + (SENDQSIZE : Int)) = ((p + SENDQSIZE : Nat) : Int) := by
            rw [← Int.natCast_add]
            exact toInt_of_lt (by omega)
          rw [hsize, hpos, ih (len - SENDQSIZE) (by simp only [SENDQSIZE]; omega)
            (p + SENDQSIZE) (len - SENDQSIZE) (by omega) (.inr hnext) rfl, List.drop_drop]
      rw [sendqAddChunks_of_ne buf p hzero, hread, Option.bind_some, hmore, htake,
        cut_of_ne 0 (not_or.mp hne).1 (not_or.mp hne).2]
      rfl

theorem sendqAddChunks_eq_none (buf : List UInt8) (p len : Nat) (hlen : p + len = buf.length)
    (hpos : p < 2 ^ 31) (hne : len ≠ 0)
    (hcopy : ¬p + SENDQSIZE * ((len - 1) / SENDQSIZE) < 2 ^ 31) :
    sendqAddChunks buf p len = none := by
  induction hn : len using Nat.strongRecOn generalizing p len with
  | ind n ih =>
    subst hn
    have hsize : SENDQSIZE < len := by
      simp only [SENDQSIZE] at hcopy ⊢
      omega
    have hread := @bytesAt_of_le buf p SENDQSIZE (by omega)
    have hmore : sendqAddChunks buf (toInt (p + (SENDQSIZE : Int))) (len - SENDQSIZE) = none := by
      by_cases hwrap : p + SENDQSIZE < 2 ^ 31
      · have hnext : ¬p + SENDQSIZE
            + SENDQSIZE * ((len - SENDQSIZE - 1) / SENDQSIZE) < 2 ^ 31 := by
          simp only [SENDQSIZE] at hcopy hsize ⊢
          omega
        have hpos' : toInt (p + (SENDQSIZE : Int)) = ((p + SENDQSIZE : Nat) : Int) := by
          rw [← Int.natCast_add]
          exact toInt_of_lt hwrap
        rw [hpos']
        exact ih (len - SENDQSIZE) (by simp only [SENDQSIZE]; omega) (p + SENDQSIZE)
          (len - SENDQSIZE) (by omega) hwrap (by omega) hnext rfl
      · have hneg : toInt (p + (SENDQSIZE : Int)) < 0 := by
          rw [← Int.natCast_add]
          exact toInt_neg (by omega) (by simp only [SENDQSIZE]; omega)
        rw [sendqAddChunks_of_ne _ _ (by omega), bytesAt_neg hneg]
        rfl
    rw [sendqAddChunks_of_ne buf p hne, Nat.min_eq_left (by omega), hread, Option.bind_some, hmore]
    rfl

/-- `sendq_add` takes the addition. -/
def takes (cptr : Connection) (buf : List UInt8) : Bool :=
  !(cptr.CF_DEAD || cptr.CF_SEND_EOF)
    && !(cptr.sendqLimit ≠ 0 && cptr.sendq.length * SENDQSIZE + buf.length > cptr.sendqLimit)

def room (cptr : Connection) : Nat :=
  match cptr.sendq.getLast? with
  | some sq => SENDQSIZE - sq.firstfree
  | none => 0

theorem sendqAdd_refused {cptr : Connection} {buf : List UInt8} (h : takes cptr buf = false) :
    ∃ c, sendqAdd cptr buf = some c ∧ c.sendq = cptr.sendq := by
  simp only [sendqAdd]
  split_ifs with hdead hlen hlimit
  · exact ⟨cptr, rfl, rfl⟩
  · exact ⟨cptr, rfl, rfl⟩
  · exact ⟨_, rfl, rfl⟩
  all_goals
    exfalso
    simp only [takes, hdead, Bool.not_false, Bool.true_and, Bool.not_eq_false',
      Bool.and_eq_true, decide_eq_true_eq] at h
    exact hlimit h

theorem sendqAdd_taken {cptr : Connection} {buf : List UInt8} (h : takes cptr buf = true)
    (hbuf : buf ≠ []) :
    ∃ w, sendqAdd cptr buf = match cptr.sendq.getLast? with
      | some sq => (sendqAddChunks buf ((min (SENDQSIZE - sq.firstfree) buf.length : Nat) : Int)
            (buf.length - min (SENDQSIZE - sq.firstfree) buf.length)).map fun more =>
          { cptr with
            writeHandler := w
            sendq := cptr.sendq.dropLast
              ++ [sq.push (buf.take (min (SENDQSIZE - sq.firstfree) buf.length))] ++ more }
      | none => (sendqAddChunks buf ((0 : Nat) : Int) buf.length).map fun more =>
          { cptr with writeHandler := w, sendq := more } := by
  have hlive : (cptr.CF_DEAD || cptr.CF_SEND_EOF) = false := by
    simp only [takes, Bool.and_eq_true, Bool.not_eq_true'] at h
    exact h.1
  have hlimit : ¬(cptr.sendqLimit ≠ 0 ∧
      cptr.sendq.length * SENDQSIZE + buf.length > cptr.sendqLimit) := by
    simp only [takes, Bool.and_eq_true, Bool.not_eq_true', Bool.and_eq_false_iff,
      decide_eq_false_iff_not] at h
    intro hboth
    cases h.2 with
    | inl h0 => exact h0 hboth.1
    | inr hlen => exact hlen hboth.2
  have hlen : buf.length ≠ 0 := fun hl => hbuf (List.length_eq_zero_iff.mp hl)
  refine ⟨if sendqNonempty cptr then cptr.writeHandler else true, ?_⟩
  simp only [sendqAdd, hlive, Bool.false_eq_true, if_false, hlen, hlimit]
  cases hw : sendqNonempty cptr
  · cases hlast : cptr.sendq.getLast? with
    | none =>
      simp only [Bool.false_eq_true, if_false, hlast, Option.map_eq_bind]
      rfl
    | some sq =>
      have hread := @bytesAt_zero buf (min (SENDQSIZE - sq.firstfree) buf.length) (by omega)
      simp only [Bool.false_eq_true, if_false, hlast, hread, Option.map_eq_bind]
      rfl
  · cases hlast : cptr.sendq.getLast? with
    | none =>
      simp only [if_true, hlast, Option.map_eq_bind]
      rfl
    | some sq =>
      have hread := @bytesAt_zero buf (min (SENDQSIZE - sq.firstfree) buf.length) (by omega)
      simp only [if_true, hlast, hread, Option.map_eq_bind]
      rfl

theorem sendqAdd_content {cptr : Connection} {buf : List UInt8} (ht : Tidy SENDQSIZE cptr.sendq)
    (h : takes cptr buf = true) (hcopy : lastCopy (room cptr) buf.length < 2 ^ 31) :
    ∃ c, sendqAdd cptr buf = some c ∧ content c.sendq = content cptr.sendq ++ buf
      ∧ Tidy SENDQSIZE c.sendq := by
  have hsize : 0 < SENDQSIZE := by decide
  by_cases hbuf : buf = []
  · refine ⟨cptr, ?_, by simp [hbuf], ht⟩
    have hlive : (cptr.CF_DEAD || cptr.CF_SEND_EOF) = false := by
      simp only [takes, Bool.and_eq_true, Bool.not_eq_true'] at h
      exact h.1
    simp [sendqAdd, hlive, hbuf]
  · obtain ⟨w, hadd⟩ := sendqAdd_taken h hbuf
    rw [hadd]
    cases hlast : cptr.sendq.getLast? with
    | none =>
      have hnil : cptr.sendq = [] := List.getLast?_eq_none_iff.mp hlast
      simp only [room, hlast, lastCopy] at hcopy
      have hcut := sendqAddChunks_eq_cut buf 0 buf.length (by omega) (by
        by_cases hzero : buf.length = 0
        · exact .inl hzero
        · right
          rw [if_neg (by omega)] at hcopy
          exact hcopy)
      rw [List.drop_zero] at hcut
      obtain ⟨hcontent, htidy, -⟩ := cut_spec hsize (0 : UInt8) buf
      refine ⟨{ cptr with writeHandler := w, sendq := cut SENDQSIZE 0 buf }, ?_, ?_, htidy⟩
      · simp only [hcut, Option.map_some]
      · simp [hcontent, hnil]
    | some sq =>
      have hq : cptr.sendq = cptr.sendq.dropLast ++ [sq] :=
        (List.dropLast_append_getLast? sq hlast).symm
      simp only [room, hlast, lastCopy] at hcopy
      have hcut := sendqAddChunks_eq_cut buf (min (SENDQSIZE - sq.firstfree) buf.length)
        (buf.length - min (SENDQSIZE - sq.firstfree) buf.length) (by omega) (by
          by_cases hfit : buf.length ≤ SENDQSIZE - sq.firstfree
          · left
            omega
          · right
            rw [if_neg hfit] at hcopy
            rw [Nat.min_eq_left (by omega)]
            exact hcopy)
      have ht' : Tidy SENDQSIZE (cptr.sendq.dropLast ++ [sq]) := hq ▸ ht
      obtain ⟨hcontent, htidy⟩ := @fill_spec _ SENDQSIZE _ sq _ (0 : UInt8) buf hsize ht' rfl
      rw [← hq] at hcontent
      simp only [hcut, Option.map_some, Option.some.injEq, exists_eq_left']
      exact ⟨hcontent, htidy⟩

theorem sendqAdd_outside {cptr : Connection} {buf : List UInt8} (h : takes cptr buf = true)
    (hcopy : ¬lastCopy (room cptr) buf.length < 2 ^ 31) : sendqAdd cptr buf = none := by
  have hbuf : buf ≠ [] := by
    intro hnil
    simp [hnil, lastCopy] at hcopy
  obtain ⟨w, hadd⟩ := sendqAdd_taken h hbuf
  rw [hadd]
  simp only [lastCopy] at hcopy
  split_ifs at hcopy with hfit
  · omega
  · cases hlast : cptr.sendq.getLast? with
    | none =>
      simp only [room, hlast] at hcopy hfit
      have hnone := sendqAddChunks_eq_none buf 0 buf.length (by omega) (by omega) (by omega)
        (by simpa using hcopy)
      simp only [hnone, Option.map_none]
    | some sq =>
      simp only [room, hlast] at hcopy hfit
      have hmin : min (SENDQSIZE - sq.firstfree) buf.length = SENDQSIZE - sq.firstfree :=
        Nat.min_eq_left (by omega)
      have hnone := sendqAddChunks_eq_none buf (SENDQSIZE - sq.firstfree)
        (buf.length - (SENDQSIZE - sq.firstfree)) (by omega) (by simp only [SENDQSIZE]; omega)
        (by omega) hcopy
      simp only [hmin, hnone, Option.map_none]

end add

section flush

theorem modest_sendOnce : Modest sendOnce := by
  intro s xs n h
  simp only [sendOnce] at h
  split at h
  · cases h
  · cases h
    exact Nat.min_le_right _ _
  · cases h
  · cases h

theorem sendqFlush_content {cptr : Connection} (ht : Tidy SENDQSIZE cptr.sendq)
    (answers : List SendAnswer) :
    (sendqFlush cptr answers).2 ++ content (sendqFlush cptr answers).1.sendq = content cptr.sendq
      ∧ Tidy SENDQSIZE (sendqFlush cptr answers).1.sendq := by
  have hspec := @drain_spec _ _ _ _ (fun _ => false) _ modest_sendOnce (answers, cptr.CF_DEAD) ht
  simp only [sendqFlush]
  split <;> exact hspec

end flush

section runs

inductive SendEvent where
  | add (buf : List UInt8)
  | addEof
  | setLimit (len : Nat)
  | flush (answers : List SendAnswer)
  deriving DecidableEq

/-- A connection, the additions taken so far and the bytes the socket has accepted. `outside`
tells that an addition has read outside its buffer. -/
structure SendSession where
  cptr : Connection
  taken : List UInt8
  written : List UInt8
  outside : Bool
  deriving DecidableEq

def SendSession.start : SendSession := ⟨Connection.fresh, [], [], false⟩

def sendStep (s : SendSession) : SendEvent → SendSession × List Unit
  | .add buf =>
    match sendqAdd s.cptr buf with
    | some c => ({ s with cptr := c, taken := s.taken ++ if takes s.cptr buf then buf else [] }, [])
    | none => ({ s with outside := true }, [])
  | .addEof => ({ s with cptr := sendqAddEof s.cptr }, [])
  | .setLimit len => ({ s with cptr := sendqSetLimit s.cptr len }, [])
  | .flush answers =>
    ({ s with
      cptr := (sendqFlush s.cptr answers).1
      written := s.written ++ (sendqFlush s.cptr answers).2 }, [])

def CopiesBelow (s : SendSession) : SendEvent → Prop
  | .add buf => takes s.cptr buf = true → lastCopy (room s.cptr) buf.length < 2 ^ 31
  | _ => True

/-- The queue is a FIFO byte stream: what has been written is a prefix of what has been taken,
the rest is in the queue, and the fill offsets are in order and within the chunks. -/
structure Fifo (s : SendSession) : Prop where
  stream : s.taken = s.written ++ content s.cptr.sendq
  tidy : Tidy SENDQSIZE s.cptr.sendq

theorem fifo_start : Fifo .start := ⟨rfl, tidy_nil⟩

theorem sendqAddEof_sendq (cptr : Connection) : (sendqAddEof cptr).sendq = cptr.sendq := by
  simp only [sendqAddEof]
  split_ifs <;> rfl

theorem fifo_step {s : SendSession} (e : SendEvent) (h : Fifo s) : Fifo (sendStep s e).1 := by
  have hstream := h.stream
  have htidy := h.tidy
  cases e with
  | add buf =>
    cases htakes : takes s.cptr buf with
    | false =>
      obtain ⟨c, hadd, hq⟩ := sendqAdd_refused htakes
      simp only [sendStep, hadd, htakes, Bool.false_eq_true, if_false, List.append_nil]
      exact ⟨by rw [hq]; exact hstream, by rw [hq]; exact htidy⟩
    | true =>
      by_cases hcopy : lastCopy (room s.cptr) buf.length < 2 ^ 31
      · obtain ⟨c, hadd, hcontent, htidy'⟩ := sendqAdd_content htidy htakes hcopy
        simp only [sendStep, hadd, htakes, if_true]
        exact ⟨by rw [hcontent, hstream, List.append_assoc], htidy'⟩
      · rw [sendStep, sendqAdd_outside htakes hcopy]
        exact ⟨hstream, htidy⟩
  | addEof =>
    refine ⟨?_, ?_⟩
    · rw [sendStep, sendqAddEof_sendq]
      exact hstream
    · rw [sendStep, sendqAddEof_sendq]
      exact htidy
  | setLimit len => exact ⟨hstream, htidy⟩
  | flush answers =>
    obtain ⟨hcontent, htidy'⟩ := sendqFlush_content htidy answers
    refine ⟨?_, htidy'⟩
    simp only [sendStep]
    rw [List.append_assoc, hcontent]
    exact hstream

theorem fifo_run {s : SendSession} (h : Fifo s) (es : List SendEvent) :
    Fifo (run sendStep s es).1 := by
  induction es generalizing s with
  | nil => exact h
  | cons e es ih => exact ih (fifo_step e h)

theorem outside_step {s : SendSession} (e : SendEvent) (h : Fifo s) :
    (sendStep s e).1.outside = false ↔ s.outside = false ∧ CopiesBelow s e := by
  cases e with
  | add buf =>
    cases htakes : takes s.cptr buf with
    | false =>
      obtain ⟨c, hadd, -⟩ := sendqAdd_refused htakes
      simp [sendStep, hadd, CopiesBelow, htakes]
    | true =>
      by_cases hcopy : lastCopy (room s.cptr) buf.length < 2 ^ 31
      · obtain ⟨c, hadd, -⟩ := sendqAdd_content h.tidy htakes hcopy
        have hbelow : CopiesBelow s (.add buf) := fun _ => hcopy
        simp [sendStep, hadd, hbelow]
      · have houtside := sendqAdd_outside htakes hcopy
        simp only [sendStep, houtside, CopiesBelow, htakes, hcopy]
        simp
  | addEof => simp [sendStep, CopiesBelow]
  | setLimit len => simp [sendStep, CopiesBelow]
  | flush answers => simp [sendStep, CopiesBelow]

theorem outside_run {s : SendSession} (h : Fifo s) (es : List SendEvent) :
    (run sendStep s es).1.outside = false ↔
      s.outside = false ∧ Guarded sendStep CopiesBelow s es := by
  induction es generalizing s with
  | nil => simp [Guarded]
  | cons e es ih =>
    rw [run_cons, Guarded, ← and_assoc, ← outside_step e h]
    exact ih (fifo_step e h)

def exceeds (cptr : Connection) (buf : List UInt8) : Prop :=
  cptr.sendqLimit ≠ 0 ∧ cptr.sendq.length * SENDQSIZE + buf.length > cptr.sendqLimit

structure SendqSound (s : SendSession) : Prop where
  inside : s.outside = false
  stream : s.written ++ content s.cptr.sendq = s.taken
  offsets : ∀ sq ∈ s.cptr.sendq, sq.firstused ≤ sq.firstfree ∧ sq.firstfree ≤ SENDQSIZE
  whole : ∀ buf, exceeds s.cptr buf →
    takes s.cptr buf = false ∧ ∃ c, sendqAdd s.cptr buf = some c ∧ c.sendq = s.cptr.sendq

theorem takes_of_exceeds {cptr : Connection} {buf : List UInt8} (h : exceeds cptr buf) :
    takes cptr buf = false := by
  rw [exceeds] at h
  simp only [takes, Bool.and_eq_false_iff, Bool.not_eq_false', Bool.and_eq_true,
    decide_eq_true_eq]
  exact .inr h

theorem sendqSound_run_iff (es : List SendEvent) :
    SendqSound (run sendStep .start es).1 ↔ Guarded sendStep CopiesBelow .start es := by
  have hfifo := fifo_run fifo_start es
  have houtside := outside_run fifo_start es
  constructor
  · intro h
    exact (houtside.mp h.inside).2
  · intro h
    refine ⟨houtside.mpr ⟨rfl, h⟩, hfifo.stream.symm, fun sq hsq => ?_, fun buf hbuf => ?_⟩
    · have hfits := hfifo.tidy.fits sq hsq
      exact ⟨hfits.used, hfits.free⟩
    · have hrefused := takes_of_exceeds hbuf
      exact ⟨hrefused, sendqAdd_refused hrefused⟩

theorem not_sendqSound_add {buf : List UInt8} (h : buf.length = 2 ^ 31 + 4056) :
    ¬SendqSound (run sendStep .start [.add buf]).1 := by
  intro hsound
  have htakes : takes Connection.fresh buf = true := rfl
  have hadd := sendqAdd_outside htakes (by
    rw [h]
    decide)
  have hinside := hsound.inside
  simp [run_cons, sendStep, SendSession.start, hadd] at hinside

theorem sendqSound_two_gigabytes :
    ¬SendqSound (run sendStep .start [.add (List.replicate (2 ^ 31 + 4056) 0)]).1 :=
  not_sendqSound_add List.length_replicate

end runs

end ChatServices.Net
