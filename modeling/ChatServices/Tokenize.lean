import ChatServices.Xmlrpc.Strings

/-! `tokenize` of `libathemecore/tokenize.c`: the parameters of a protocol line are cut where they
stand. The trailing one goes first, the others behind it. -/
namespace ChatServices.Tokenize
open ChatServices.Lib.Halting ChatServices.Text
open ChatServices.Xmlrpc (Memory charAt stringAt strchr strchr_front stringAt_front stringAt_skip
  stringAt_next charAt_front set_front)

def MAXPARC : Nat := 35

def colonStep (mem : Memory) (pos : Nat) : (Memory × Option Nat) ⊕ Nat :=
  match strchr mem pos ':' with
  | none => .inl (mem, none)
  | some pos =>
    if charAt mem (pos - 1) ≠ ' ' then .inr (pos + 1)
    else .inl ((mem.set (pos - 1) nul).set pos nul, some (pos + 1))

/-- The variables of the second loop. `parv` is filled from the front, so that `count` is its
length. -/
structure Tokens where
  mem : Memory
  next : Nat
  parv : List Nat

/-- The first place from `next` on that is no space. -/
def skipSpaces (mem : Memory) (next : Nat) : Nat :=
  next + ((stringAt mem next).takeWhile (· = ' ')).length

def tokenStep (s : Tokens) : (Memory × List Nat × Bool) ⊕ Tokens :=
  if charAt s.mem s.next = nul then .inl (s.mem, s.parv, false)
  else if s.parv.length = MAXPARC then .inl (s.mem, s.parv, true)
  else if charAt s.mem s.next = ' ' then
    let mem := s.mem.set s.next nul
    let next := skipSpaces mem (s.next + 1)
    if charAt mem next = nul then .inl (mem, s.parv, false) else .inr ⟨mem, next, s.parv ++ [next]⟩
  else .inr { s with next := s.next + 1 }

/-- `tokenize`: the memory it leaves, the count and the entries of `parv`. -/
def tokenize (mem : Memory) (message : Option Nat) : Option (Memory × Int × List Nat) :=
  match message with
  | none => some (mem, -1, [])
  | some message => do
    let (mem, pos) ← run (colonStep mem) (mem.length + 1) message
    let (mem, parv, full) ← run tokenStep (mem.length + 1) ⟨mem, message, [message]⟩
    let parv := if full then parv else parv ++ pos.toList
    return (mem, parv.length, parv)

/-! ### Lines -/

structure Word where
  text : CString
  clean : nul ∉ text
  noSpace : ' ' ∉ text
  noColon : ∃ c s, text = c :: s ∧ c ≠ ':'

/-- A line: the middle parameters, each but the first behind one space and some more, spaces behind
the last one, and the trailing part. There are at most `MAXPARC` middle parameters. -/
structure Line where
  first : Word
  rest : List (Nat × Word)
  pad : Nat
  trailing : Option CString
  clean : ∀ t ∈ trailing, nul ∉ t
  few : rest.length < MAXPARC

def spaces (n : Nat) : CString := List.replicate n ' '

def gaps (rest : List (Nat × Word)) : CString :=
  rest.flatMap fun p => ' ' :: (spaces p.1 ++ p.2.text)

def Line.middle (l : Line) : CString := l.first.text ++ (gaps l.rest ++ spaces l.pad)

def Line.text (l : Line) : CString :=
  l.middle ++ match l.trailing with
    | none => []
    | some t => ' ' :: ':' :: t

def Line.params (l : Line) : List CString :=
  l.first.text :: l.rest.map (fun p => p.2.text) ++ l.trailing.toList

/-! ### The trailing part -/

def Bound (s : CString) : Prop := ∀ l r, s = l ++ ':' :: r → ∃ l' c, l = l' ++ [c] ∧ c ≠ ' '

section colons
variable {s t : CString}

theorem bound_of_none (h : ':' ∉ s) : Bound s := by
  intro l r hs
  rw [hs] at h
  exact absurd (List.mem_append_right l List.mem_cons_self) h

theorem Bound.append (hs : Bound s) (ht : Bound t) : Bound (s ++ t) := by
  intro l r h
  obtain ⟨m, hl, hr⟩ | ⟨m, hl, hr⟩ := List.append_eq_append_iff.mp h
  · obtain ⟨l', c, hm, hc⟩ := ht m r hr
    exact ⟨s ++ l', c, by rw [hl, hm, List.append_assoc], hc⟩
  · cases m with
    | nil =>
      obtain ⟨l', c, hm, -⟩ := ht [] r (by simpa using hr.symm)
      cases l' <;> cases hm
    | cons d m =>
      obtain ⟨rfl, rfl⟩ := List.cons.inj hr
      exact hs l m hl

theorem Word.bound (w : Word) : Bound w.text := by
  obtain ⟨c, s, hw, hc⟩ := w.noColon
  intro l r h
  rcases List.eq_nil_or_concat' l with hl | ⟨l', d, hl⟩
  · rw [hl, hw] at h
    exact absurd (List.cons.inj h).1 hc
  · refine ⟨l', d, hl, ?_⟩
    rintro rfl
    apply w.noSpace
    rw [h, hl]
    simp

theorem spaces_bound (n : Nat) : Bound (spaces n) := by
  apply bound_of_none
  intro h
  exact absurd (List.eq_of_mem_replicate h) (by decide)

theorem gaps_bound (rest : List (Nat × Word)) : Bound (gaps rest) := by
  induction rest with
  | nil => exact bound_of_none (by simp [gaps])
  | cons p rest ih =>
    have hspace : Bound (' ' :: spaces p.1) := spaces_bound (p.1 + 1)
    have hgap := (hspace.append p.2.bound).append ih
    simpa [gaps] using hgap

theorem Line.middle_bound (l : Line) : Bound l.middle :=
  l.first.bound.append ((gaps_bound l.rest).append (spaces_bound l.pad))

end colons

section scan
variable {front tail body todo : CString} {mem : Memory} {answer : Memory × Option Nat}

theorem colonStep_skip {done a b : CString} (hmem : mem = front ++ (done ++ (a ++ ':' :: b)))
    (hnul : nul ∉ a) (hcolon : ':' ∉ a) (hbound : ∃ l c, done ++ a = l ++ [c] ∧ c ≠ ' ') :
    colonStep mem (front.length + done.length) = .inr (front.length + (done ++ a ++ [':']).length) := by
  obtain ⟨l, c, hl, hc⟩ := hbound
  have hassoc : mem = (front ++ done) ++ (a ++ ':' :: b) := by rw [hmem, List.append_assoc]
  have hfound : strchr mem (front.length + done.length) ':' =
      some (front.length + done.length + a.length) := by
    have hfront := strchr_front hnul hcolon (by decide) (front ++ done) b
    rw [List.length_append] at hfront
    rw [hassoc, hfront]
  have hlen : done.length + a.length = l.length + 1 := by
    rw [← List.length_append, hl, List.length_append, List.length_singleton]
  have hbefore : charAt mem (front.length + done.length + a.length - 1) = c := by
    have hchar := charAt_front (front ++ l) c (':' :: b)
    have hplace : front.length + done.length + a.length - 1 = (front ++ l).length := by
      rw [List.length_append]
      omega
    have hsplit : mem = (front ++ l) ++ c :: ':' :: b := by
      rw [hassoc, List.append_assoc, ← List.append_assoc done, hl]
      simp
    rw [hplace, hsplit, hchar]
  rw [colonStep, hfound]
  dsimp only
  rw [hbefore, if_pos hc]
  simp only [List.length_append, List.length_singleton]
  congr 1
  omega

theorem scan_takes (hmem : mem = front ++ (body ++ tail)) (hnul : nul ∉ body) (hbound : Bound body)
    (hstop : ∀ done todo, done ++ todo = body → ':' ∉ todo →
      colonStep mem (front.length + done.length) = .inl answer) (done : CString)
    (hbody : done ++ todo = body) :
    ∃ n ≤ todo.length + 1, Takes (colonStep mem) n (front.length + done.length) answer := by
  induction hlen : todo.length using Nat.strongRecOn generalizing todo done with
  | ind k ih =>
    by_cases hcolon : ':' ∈ todo
    · obtain ⟨a, b, hsplit, hfirst⟩ := List.eq_append_cons_of_mem hcolon
      have hnul' : nul ∉ a := fun h => hnul (by
        rw [← hbody, hsplit]
        exact List.mem_append_right _ (List.mem_append_left _ h))
      have hb := hbound (done ++ a) b (by rw [← hbody, hsplit, List.append_assoc])
      have hmem' : mem = front ++ (done ++ (a ++ ':' :: (b ++ tail))) := by
        rw [hmem, ← hbody, hsplit]
        simp
      have hstep := colonStep_skip hmem' hnul' hfirst hb
      have hless : b.length < k := by
        rw [← hlen, hsplit, List.length_append, List.length_cons]
        omega
      have hrest : (done ++ a ++ [':']) ++ b = body := by
        rw [← hbody, hsplit]
        simp
      obtain ⟨n, hn, htakes⟩ := ih b.length hless (done ++ a ++ [':']) hrest rfl
      exact ⟨n + 1, by omega, Takes.next hstep htakes⟩
    · exact ⟨1, by omega, Takes.stop (hstop done todo hbody hcolon)⟩

theorem scan_none (front behind : CString) (hnul : nul ∉ body) (hbound : Bound body) :
    ∃ n ≤ body.length + 1, Takes (colonStep (front ++ (body ++ nul :: behind))) n front.length
      (front ++ (body ++ nul :: behind), none) := by
  have hstop : ∀ done todo, done ++ todo = body → ':' ∉ todo →
      colonStep (front ++ (body ++ nul :: behind)) (front.length + done.length) =
        .inl (front ++ (body ++ nul :: behind), none) := by
    intro done todo hbody hcolon
    have hclean : nul ∉ todo := fun h => hnul (hbody ▸ List.mem_append_right _ h)
    have hstring : stringAt (front ++ (body ++ nul :: behind)) (front.length + done.length) = todo := by
      rw [← hbody, List.append_assoc, stringAt_skip, cstr_split hclean]
    have hnone : todo.idxOf? ':' = none := List.idxOf?_eq_none_iff.mpr hcolon
    rw [colonStep, strchr, hstring, hnone]
    rfl
  exact scan_takes rfl hnul hbound hstop [] rfl

theorem scan_some (front behind : CString) (hnul : nul ∉ body) (hbound : Bound body) :
    ∃ n ≤ body.length + 1, Takes (colonStep (front ++ (body ++ ' ' :: ':' :: behind))) n front.length
      (front ++ (body ++ nul :: nul :: behind), some (front.length + body.length + 2)) := by
  have hstop : ∀ done todo, done ++ todo = body → ':' ∉ todo →
      colonStep (front ++ (body ++ ' ' :: ':' :: behind)) (front.length + done.length) =
        .inl (front ++ (body ++ nul :: nul :: behind), some (front.length + body.length + 2)) := by
    intro done todo hbody hcolon
    have hclean : nul ∉ todo ++ [' '] := by
      rw [List.mem_append, List.mem_singleton, not_or]
      exact ⟨fun h => hnul (hbody ▸ List.mem_append_right _ h), by decide⟩
    have hcolon' : ':' ∉ todo ++ [' '] := by
      rw [List.mem_append, List.mem_singleton, not_or]
      exact ⟨hcolon, by decide⟩
    have hlen : front.length + done.length + (todo ++ [' ']).length = front.length + body.length + 1 := by
      rw [← hbody, List.length_append, List.length_append, List.length_singleton]
      omega
    have hmem : front ++ (body ++ ' ' :: ':' :: behind) =
        (front ++ done) ++ ((todo ++ [' ']) ++ ':' :: behind) := by
      rw [← hbody]
      simp
    have hfound : strchr (front ++ (body ++ ' ' :: ':' :: behind)) (front.length + done.length) ':' =
        some (front.length + body.length + 1) := by
      have hfront := strchr_front hclean hcolon' (by decide) (front ++ done) behind
      have hplace : (front ++ done).length = front.length + done.length := List.length_append
      rw [hplace, hlen] at hfront
      rw [hmem, hfront]
    have hspace : charAt (front ++ (body ++ ' ' :: ':' :: behind)) (front.length + body.length + 1 - 1) =
        ' ' := by
      have hchar := charAt_front (front ++ body) ' ' (':' :: behind)
      rwa [List.append_assoc, List.length_append] at hchar
    have hcut : ((front ++ (body ++ ' ' :: ':' :: behind)).set (front.length + body.length + 1 - 1) nul).set
        (front.length + body.length + 1) nul = front ++ (body ++ nul :: nul :: behind) := by
      have hfirst : (front ++ (body ++ ' ' :: ':' :: behind)).set (front.length + body.length + 1 - 1)
          nul = front ++ (body ++ nul :: ':' :: behind) := set_front front body _ ' ' nul
      have hsecond := set_front front (body ++ [nul]) behind ':' nul
      rw [List.length_append, List.length_singleton] at hsecond
      rw [hfirst]
      simpa [← Nat.add_assoc] using hsecond
    rw [colonStep, hfound]
    dsimp only
    rw [hspace, if_neg (by decide), hcut]
  exact scan_takes rfl hnul hbound hstop [] rfl

end scan

/-! ### The middle parameters -/

section words
variable {w rest : CString} {parv : List Nat} {answer : Memory × List Nat × Bool} {n : Nat}

theorem walk (front : Memory) (hnul : nul ∉ w) (hspace : ' ' ∉ w) (hlimit : parv.length ≠ MAXPARC)
    (h : Takes tokenStep n ⟨front ++ (w ++ rest), front.length + w.length, parv⟩ answer) :
    Takes tokenStep (n + w.length) ⟨front ++ (w ++ rest), front.length, parv⟩ answer := by
  induction w generalizing front with
  | nil => exact h
  | cons c w ih =>
    rw [List.mem_cons, not_or] at hnul hspace
    have hstep : tokenStep ⟨front ++ (c :: w ++ rest), front.length, parv⟩ =
        .inr ⟨front ++ (c :: w ++ rest), front.length + 1, parv⟩ := by
      have hchar : charAt (front ++ (c :: w ++ rest)) front.length = c := charAt_front front c _
      rw [tokenStep]
      dsimp only
      rw [hchar, if_neg (Ne.symm hnul.1), if_neg hlimit, if_neg (Ne.symm hspace.1)]
    have hnext : front ++ (c :: w ++ rest) = (front ++ [c]) ++ (w ++ rest) := by simp
    have hplace : front.length + 1 = (front ++ [c]).length := by simp
    have hend : front.length + (c :: w).length = (front ++ [c]).length + w.length := by
      simp
      omega
    have htakes := ih (front ++ [c]) hnul.2 hspace.2 (by rw [← hnext, ← hend]; exact h)
    rw [← hnext, ← hplace] at htakes
    rw [List.length_cons, ← Nat.add_assoc]
    exact Takes.next hstep htakes

theorem tokenStep_gap (front : Memory) (k : Nat) (hrest : rest.head? ≠ some ' ')
    (hlimit : parv.length ≠ MAXPARC) :
    tokenStep ⟨front ++ ' ' :: (spaces k ++ rest), front.length, parv⟩ =
      let mem := front ++ nul :: (spaces k ++ rest)
      let next := front.length + 1 + k
      if rest.headD nul = nul then .inl (mem, parv, false) else .inr ⟨mem, next, parv ++ [next]⟩ := by
  have hclean : nul ∉ spaces k := fun h => absurd (List.eq_of_mem_replicate h) (by decide)
  have hset : (front ++ ' ' :: (spaces k ++ rest)).set front.length nul =
      front ++ nul :: (spaces k ++ rest) := by simp
  have hstring : stringAt (front ++ nul :: (spaces k ++ rest)) (front.length + 1) =
      spaces k ++ cstr rest := by
    rw [stringAt_next, cstr_append hclean]
  have htake : (spaces k ++ cstr rest).takeWhile (· = ' ') = spaces k := by
    have hall : ∀ c ∈ spaces k, decide (c = ' ') = true := fun c hc =>
      decide_eq_true (List.eq_of_mem_replicate hc)
    have hnone : (cstr rest).takeWhile (· = ' ') = [] := by
      cases rest with
      | nil => rfl
      | cons c rest =>
        have hc : c ≠ ' ' := fun h => hrest (by rw [h]; rfl)
        by_cases hnul : c = nul
        · rw [hnul]
          rfl
        · rw [cstr_cons hnul, List.takeWhile_cons]
          simp [hc]
    rw [List.takeWhile_append_of_pos hall, hnone, List.append_nil]
  have hskip : skipSpaces (front ++ nul :: (spaces k ++ rest)) (front.length + 1) =
      front.length + 1 + k := by
    rw [skipSpaces, hstring, htake, spaces, List.length_replicate]
  have hnext : charAt (front ++ nul :: (spaces k ++ rest)) (front.length + 1 + k) = rest.headD nul := by
    have hsplit : front ++ nul :: (spaces k ++ rest) = (front ++ nul :: spaces k) ++ rest := by simp
    have hplace : front.length + 1 + k = (front ++ nul :: spaces k).length := by
      rw [List.length_append, List.length_cons, spaces, List.length_replicate]
      omega
    rw [hsplit, hplace, charAt]
    cases rest <;> simp
  rw [tokenStep]
  dsimp only
  rw [charAt_front, if_neg (by decide), if_neg hlimit, if_pos rfl, hset, hskip, hnext]

def padLast (pad : CString) : List CString → List CString
  | [] => []
  | [w] => [w ++ pad]
  | w :: v :: ws => w :: padLast pad (v :: ws)

theorem length_spaces (k : Nat) : (spaces k).length = k := List.length_replicate

theorem spaces_clean (k : Nat) : nul ∉ spaces k := fun h =>
  absurd (List.eq_of_mem_replicate h) (by decide)

theorem last_run (w : Word) (pad : Nat) (front behind : Memory) (parv : List Nat) :
    ∃ n ≤ (w.text ++ spaces pad).length + 1, ∃ mid, mid.length = (w.text ++ spaces pad).length ∧
      Takes tokenStep n ⟨front ++ (w.text ++ (spaces pad ++ nul :: behind)), front.length, parv⟩
        (front ++ (mid ++ nul :: behind), parv, decide (parv.length = MAXPARC)) ∧
      stringAt (front ++ (mid ++ nul :: behind)) front.length =
        w.text ++ if parv.length = MAXPARC then spaces pad else [] := by
  by_cases hfull : parv.length = MAXPARC
  · obtain ⟨c, s, hw, -⟩ := w.noColon
    have hc : c ≠ nul := fun h => w.clean (by rw [hw, h]; exact List.mem_cons_self)
    have hmem : front ++ (w.text ++ (spaces pad ++ nul :: behind)) =
        front ++ ((w.text ++ spaces pad) ++ nul :: behind) := by rw [List.append_assoc w.text]
    have hchar : charAt (front ++ (w.text ++ (spaces pad ++ nul :: behind))) front.length = c := by
      rw [hw]
      exact charAt_front front c _
    have hstep : tokenStep
        ⟨front ++ (w.text ++ (spaces pad ++ nul :: behind)), front.length, parv⟩ =
        .inl (front ++ ((w.text ++ spaces pad) ++ nul :: behind), parv, true) := by
      rw [tokenStep]
      dsimp only
      rw [hchar, if_neg hc, if_pos hfull, hmem]
    have hclean : nul ∉ w.text ++ spaces pad := by
      rw [List.mem_append, not_or]
      exact ⟨w.clean, spaces_clean pad⟩
    refine ⟨1, by omega, w.text ++ spaces pad, rfl, ?_, ?_⟩
    · rw [decide_eq_true hfull]
      exact Takes.stop hstep
    · rw [if_pos hfull, stringAt_front, cstr_split hclean]
  · rw [if_neg hfull, decide_eq_false hfull, List.append_nil]
    cases pad with
    | zero =>
      have hstop : tokenStep ⟨front ++ (w.text ++ nul :: behind), front.length + w.text.length,
          parv⟩ = .inl (front ++ (w.text ++ nul :: behind), parv, false) := by
        have hchar := charAt_front (front ++ w.text) nul behind
        rw [List.append_assoc, List.length_append] at hchar
        rw [tokenStep]
        dsimp only
        rw [if_pos hchar]
      have hwalk := walk front w.clean w.noSpace hfull (Takes.stop hstop)
      refine ⟨_, ?_, w.text, ?_, hwalk, ?_⟩
      · rw [List.length_append]
        omega
      · rw [List.length_append, length_spaces]
        rfl
      · rw [stringAt_front, cstr_split w.clean]
    | succ k =>
      have hhead : (nul :: behind).head? ≠ some ' ' := by
        rw [List.head?_cons]
        decide
      have hgap := tokenStep_gap (front ++ w.text) k hhead hfull
      have hend : (nul :: behind).headD nul = nul := rfl
      rw [List.append_assoc, List.length_append] at hgap
      dsimp only at hgap
      rw [if_pos hend] at hgap
      have hwalk := walk front w.clean w.noSpace hfull (Takes.stop hgap)
      have hmem : front ++ w.text ++ nul :: (spaces k ++ nul :: behind) =
          front ++ ((w.text ++ nul :: spaces k) ++ nul :: behind) := by simp
      rw [hmem] at hwalk
      refine ⟨_, ?_, w.text ++ nul :: spaces k, ?_, hwalk, ?_⟩
      · rw [List.length_append, length_spaces]
        omega
      · rw [List.length_append, List.length_append, List.length_cons, length_spaces, length_spaces]
      · rw [stringAt_front, List.append_assoc, List.cons_append, cstr_split w.clean]

theorem Word.head_clean (w : Word) (rest : CString) : (w.text ++ rest).headD nul ≠ nul := by
  obtain ⟨c, s, hw, -⟩ := w.noColon
  rw [hw, List.cons_append, List.headD_cons]
  rintro rfl
  apply w.clean
  rw [hw]
  exact List.mem_cons_self

theorem Word.head_noSpace (w : Word) (rest : CString) : (w.text ++ rest).head? ≠ some ' ' := by
  obtain ⟨c, s, hw, -⟩ := w.noColon
  rw [hw, List.cons_append, List.head?_cons]
  intro h
  apply w.noSpace
  rw [hw, Option.some.inj h]
  exact List.mem_cons_self

theorem gap_run (w v : Word) (k : Nat) (front : Memory) (hlimit : parv.length ≠ MAXPARC)
    (h : Takes tokenStep n ⟨(front ++ w.text ++ nul :: spaces k) ++ (v.text ++ rest),
      (front ++ w.text ++ nul :: spaces k).length,
      parv ++ [(front ++ w.text ++ nul :: spaces k).length]⟩ answer) :
    Takes tokenStep (n + 1 + w.text.length)
      ⟨front ++ (w.text ++ ' ' :: (spaces k ++ (v.text ++ rest))), front.length, parv⟩ answer := by
  have hgap := tokenStep_gap (front ++ w.text) k (v.head_noSpace rest) hlimit
  have hnext : (front ++ w.text).length + 1 + k = (front ++ w.text ++ nul :: spaces k).length := by
    simp only [List.length_append, List.length_cons, length_spaces]
    omega
  have hfront : front ++ w.text ++ nul :: (spaces k ++ (v.text ++ rest)) =
      (front ++ w.text ++ nul :: spaces k) ++ (v.text ++ rest) := by simp
  dsimp only at hgap
  rw [if_neg (v.head_clean rest), hnext, hfront, List.append_assoc, List.length_append] at hgap
  exact walk front w.clean w.noSpace hlimit (Takes.next hgap h)

/-- The words are cut one by one. If there are as many as `parv` takes, the last is left as it
stands. -/
theorem words_run (w : Word) (rest : List (Nat × Word)) (pad : Nat) (front behind : Memory)
    (parv : List Nat) (hcount : parv.length + rest.length ≤ MAXPARC) :
    ∃ n ≤ (w.text ++ (gaps rest ++ spaces pad)).length + 1, ∃ mid places,
      mid.length = (w.text ++ (gaps rest ++ spaces pad)).length ∧ places.length = rest.length ∧
      Takes tokenStep n
        ⟨front ++ (w.text ++ (gaps rest ++ (spaces pad ++ nul :: behind))), front.length, parv⟩
        (front ++ (mid ++ nul :: behind), parv ++ places,
          decide (parv.length + rest.length = MAXPARC)) ∧
      (front.length :: places).map (stringAt (front ++ (mid ++ nul :: behind))) =
        padLast (if parv.length + rest.length = MAXPARC then spaces pad else [])
          (w.text :: rest.map fun p => p.2.text) := by
  induction rest generalizing w front parv with
  | nil =>
    obtain ⟨n, hn, mid, hmid, htakes, hstring⟩ := last_run w pad front behind parv
    refine ⟨n, hn, mid, [], hmid, rfl, ?_, ?_⟩
    · rw [List.append_nil]
      exact htakes
    · rw [List.map_cons, hstring]
      rfl
  | cons p rest ih =>
    obtain ⟨k, v⟩ := p
    rw [List.length_cons] at hcount
    have hlimit : parv.length ≠ MAXPARC := by omega
    have hcount' : (parv ++ [(front ++ w.text ++ nul :: spaces k).length]).length + rest.length =
        parv.length + (rest.length + 1) := by
      rw [List.length_append, List.length_singleton]
      omega
    obtain ⟨n, hn, mid, places, hmid, hplaces, htakes, hstrings⟩ :=
      ih v (front ++ w.text ++ nul :: spaces k)
        (parv ++ [(front ++ w.text ++ nul :: spaces k).length]) (by rw [hcount']; exact hcount)
    rw [hcount'] at htakes hstrings
    have hmem : front ++ w.text ++ nul :: spaces k ++ (mid ++ nul :: behind) =
        front ++ ((w.text ++ nul :: (spaces k ++ mid)) ++ nul :: behind) := by simp
    have hline : front ++ (w.text ++ (gaps ((k, v) :: rest) ++ (spaces pad ++ nul :: behind))) =
        front ++ (w.text ++ ' ' :: (spaces k ++ (v.text ++
          (gaps rest ++ (spaces pad ++ nul :: behind))))) := by simp [gaps]
    have hlen : (w.text ++ (gaps ((k, v) :: rest) ++ spaces pad)).length =
        w.text.length + (1 + k + (v.text ++ (gaps rest ++ spaces pad)).length) := by
      simp only [gaps, List.flatMap_cons, List.length_append, List.length_cons, length_spaces]
      omega
    rw [hmem] at htakes hstrings
    have hwalk := gap_run w v k front hlimit htakes
    rw [← hline] at hwalk
    refine ⟨n + 1 + w.text.length, ?_, w.text ++ nul :: (spaces k ++ mid),
      (front ++ w.text ++ nul :: spaces k).length :: places, ?_, ?_, ?_, ?_⟩
    · rw [hlen]
      omega
    · rw [hlen, List.length_append, List.length_cons, List.length_append, length_spaces, hmid]
      omega
    · rw [List.length_cons, List.length_cons, hplaces]
    · rw [List.append_assoc parv, List.singleton_append] at hwalk
      rw [List.length_cons]
      exact hwalk
    · have hhere : stringAt (front ++ ((w.text ++ nul :: (spaces k ++ mid)) ++ nul :: behind))
          front.length = w.text := by
        rw [stringAt_front, List.append_assoc, List.cons_append, cstr_split w.clean]
      rw [List.map_cons, hhere, hstrings]
      rfl

theorem length_padLast (pad : CString) (w : CString) (ws : List CString) :
    (padLast pad (w :: ws)).length = ws.length + 1 := by
  induction ws generalizing w with
  | nil => rfl
  | cons v ws ih =>
    rw [padLast, List.length_cons, ih v]
    rfl

theorem padLast_eq_iff {pad : CString} (w : CString) (ws : List CString) :
    padLast pad (w :: ws) = w :: ws ↔ pad = [] := by
  induction ws generalizing w with
  | nil => simp [padLast]
  | cons v ws ih =>
    rw [padLast, List.cons_inj_right]
    exact ih v

end words

section lines
variable (l : Line) (front behind : Memory)

theorem gaps_clean (rest : List (Nat × Word)) : nul ∉ gaps rest := by
  intro h
  rw [gaps, List.mem_flatMap] at h
  obtain ⟨p, -, hp⟩ := h
  rw [List.mem_cons, List.mem_append] at hp
  obtain hp | hp | hp := hp
  · exact absurd hp (by decide)
  · exact spaces_clean p.1 hp
  · exact p.2.clean hp

theorem Line.length_params : l.params.length = l.rest.length + 1 + l.trailing.toList.length := by
  rw [Line.params, List.length_append, List.length_cons, List.length_map]

theorem Line.middle_clean : nul ∉ l.middle := by
  rw [Line.middle, List.mem_append, List.mem_append]
  intro h
  obtain h | h | h := h
  · exact l.first.clean h
  · exact gaps_clean l.rest h
  · exact spaces_clean l.pad h

theorem tokenize_of {mem mem₁ mem₂ : Memory} {message n m : Nat} {pos : Option Nat} {parv : List Nat}
    {full : Bool} (hscan : Takes (colonStep mem) n message (mem₁, pos)) (hn : n ≤ mem.length + 1)
    (hwords : Takes tokenStep m ⟨mem₁, message, [message]⟩ (mem₂, parv, full))
    (hm : m ≤ mem₁.length + 1) : tokenize mem (some message) =
      some (mem₂, ((if full then parv else parv ++ pos.toList).length : Int),
        if full then parv else parv ++ pos.toList) := by
  have hfirst := hscan.run_eq_some_iff.mpr ⟨hn, rfl⟩
  have hsecond := hwords.run_eq_some_iff.mpr ⟨hm, rfl⟩
  rw [tokenize]
  simp only [hfirst, hsecond, Option.bind_eq_bind, Option.bind_some]
  rfl

/-- The entries of `parv` at the end: with `MAXPARC` middle parameters these only, the last of them
with the spaces that stand behind it. -/
theorem tokenize_line : ∃ mem parv, tokenize (front ++ (l.text ++ nul :: behind)) (some front.length) =
      some (mem, (parv.length : Int), parv) ∧
    parv.map (stringAt mem) = if l.rest.length + 1 = MAXPARC then
      padLast (spaces l.pad) (l.first.text :: l.rest.map fun p => p.2.text) else l.params := by
  have hcount : [front.length].length + l.rest.length ≤ MAXPARC := by
    have hfew := l.few
    rw [List.length_singleton]
    omega
  have hone : [front.length].length + l.rest.length = l.rest.length + 1 := by
    rw [List.length_singleton]
    omega
  cases htrailing : l.trailing with
  | none =>
    have htext : l.text = l.middle := by rw [Line.text, htrailing, List.append_nil]
    obtain ⟨n, hn, hscan⟩ := scan_none front behind l.middle_clean l.middle_bound
    obtain ⟨m, hm, mid, places, hmid, -, hwords, hstrings⟩ :=
      words_run l.first l.rest l.pad front behind [front.length] hcount
    have hmem : front ++ (l.first.text ++ (gaps l.rest ++ (spaces l.pad ++ nul :: behind))) =
        front ++ (l.middle ++ nul :: behind) := by simp [Line.middle]
    have hlen : l.middle.length ≤ (front ++ (l.middle ++ nul :: behind)).length := by simp; omega
    rw [hone] at hwords hstrings
    rw [hmem] at hwords
    rw [← Line.middle] at hm
    have hcall := tokenize_of hscan (by omega) hwords (by omega)
    rw [Option.toList_none, List.append_nil, ite_self] at hcall
    refine ⟨_, _, by rw [htext]; exact hcall, ?_⟩
    rw [List.singleton_append, hstrings]
    by_cases hfull : l.rest.length + 1 = MAXPARC
    · rw [if_pos hfull, if_pos hfull]
    · rw [if_neg hfull, if_neg hfull, (padLast_eq_iff _ _).mpr rfl, Line.params, htrailing,
        Option.toList_none, List.append_nil]
  | some t =>
    have htext : l.text = l.middle ++ ' ' :: ':' :: t := by rw [Line.text, htrailing]
    obtain ⟨n, hn, hscan⟩ := scan_some front (t ++ nul :: behind) l.middle_clean l.middle_bound
    obtain ⟨m, hm, mid, places, hmid, -, hwords, hstrings⟩ :=
      words_run l.first l.rest l.pad front (nul :: (t ++ nul :: behind)) [front.length] hcount
    have hmem : front ++ (l.first.text ++ (gaps l.rest ++ (spaces l.pad ++ nul :: nul ::
        (t ++ nul :: behind)))) = front ++ (l.middle ++ nul :: nul :: (t ++ nul :: behind)) := by
      simp [Line.middle]
    have hline : front ++ (l.text ++ nul :: behind) =
        front ++ (l.middle ++ ' ' :: ':' :: (t ++ nul :: behind)) := by
      rw [htext]
      simp
    rw [hone] at hwords hstrings
    rw [hmem] at hwords
    rw [← Line.middle] at hm hmid
    have hlen : ∀ c d : Char, l.middle.length ≤
        (front ++ (l.middle ++ c :: d :: (t ++ nul :: behind))).length := by
      intro c d
      simp
      omega
    have hlen₁ := hlen ' ' ':'
    have hlen₂ := hlen nul nul
    have hcall := tokenize_of hscan (by omega) hwords (by omega)
    have hlast : stringAt (front ++ (mid ++ nul :: nul :: (t ++ nul :: behind)))
        (front.length + l.middle.length + 2) = t := by
      have hclean := l.clean t htrailing
      have hskip := stringAt_skip front (mid ++ [nul, nul]) (t ++ nul :: behind)
      rw [List.length_append, hmid, cstr_split hclean] at hskip
      simpa [Nat.add_assoc] using hskip
    refine ⟨_, _, by rw [hline]; exact hcall, ?_⟩
    rw [Option.toList_some]
    by_cases hfull : l.rest.length + 1 = MAXPARC
    · rw [if_pos hfull] at hstrings
      rw [decide_eq_true hfull, if_pos rfl, if_pos hfull, List.singleton_append, hstrings]
    · rw [if_neg hfull, (padLast_eq_iff _ _).mpr rfl] at hstrings
      rw [decide_eq_false hfull, if_neg Bool.false_ne_true, if_neg hfull, List.map_append,
        List.singleton_append, hstrings, List.map_singleton, hlast, Line.params, htrailing,
        Option.toList_some]

end lines

/-- The parameters come out as they are, unless there are as many middle ones as `parv` takes, with
a trailing one or a space behind them. -/
theorem tokenize_exact_iff (l : Line) (front behind : Memory) :
    (∃ mem parv, tokenize (front ++ (l.text ++ nul :: behind)) (some front.length) =
        some (mem, (l.params.length : Int), parv) ∧
      parv.map (stringAt mem) = l.params ∧ parv.length ≤ MAXPARC + 1) ↔
      l.rest.length + 1 < MAXPARC ∨ l.trailing = none ∧ l.pad = 0 := by
  obtain ⟨mem, parv, hcall, hstrings⟩ := tokenize_line l front behind
  have hfew := l.few
  have hcount := l.length_params
  have hentries := congrArg List.length hstrings
  rw [List.length_map] at hentries
  by_cases hfull : l.rest.length + 1 = MAXPARC
  · rw [if_pos hfull] at hstrings hentries
    rw [length_padLast, List.length_map] at hentries
    constructor
    · rintro ⟨mem', parv', hcall', hparams, -⟩
      rw [hcall, Option.some_inj, Prod.mk.injEq, Prod.mk.injEq] at hcall'
      obtain ⟨rfl, -, rfl⟩ := hcall'
      right
      have hsame := hstrings.symm.trans hparams
      cases htrailing : l.trailing with
      | none =>
        rw [Line.params, htrailing, Option.toList_none, List.append_nil, padLast_eq_iff] at hsame
        have hpad := congrArg List.length hsame
        rw [length_spaces] at hpad
        exact ⟨rfl, hpad⟩
      | some t =>
        -- one parameter is missing
        have hlen := congrArg List.length hparams
        rw [List.length_map, hcount, htrailing, Option.toList_some, List.length_singleton] at hlen
        omega
    · rintro (hless | ⟨htrailing, hpad⟩)
      · omega
      · have hparams : parv.map (stringAt mem) = l.params := by
          rw [hstrings, Line.params, htrailing, hpad, Option.toList_none, List.append_nil]
          exact (padLast_eq_iff _ _).mpr rfl
        have hlen := congrArg List.length hparams
        rw [List.length_map] at hlen
        refine ⟨mem, parv, by rw [hcall, hlen], hparams, ?_⟩
        omega
  · rw [if_neg hfull] at hstrings hentries
    have hone : l.trailing.toList.length ≤ 1 := by cases l.trailing <;> simp
    constructor
    · intro _
      left
      omega
    · intro _
      refine ⟨mem, parv, by rw [hcall, hentries], hstrings, ?_⟩
      omega

/-- With a trailing parameter behind `MAXPARC` middle ones the answer is one short. -/
theorem trailing_parameter_lost : ∃ l : Line,
    l.params = List.replicate MAXPARC ['a'] ++ [['x']] ∧
    (tokenize (l.text ++ [nul]) (some 0)).map (fun r => (r.2.1, r.2.2.map (stringAt r.1))) =
      some (35, List.replicate MAXPARC ['a']) := by
  exact ⟨⟨⟨['a'], by decide, by decide, 'a', [], rfl, by decide⟩,
    List.replicate 34 (0, ⟨['a'], by decide, by decide, 'a', [], rfl, by decide⟩), 0, some ['x'],
    by decide, by decide⟩, rfl, by decide +kernel⟩

end ChatServices.Tokenize
