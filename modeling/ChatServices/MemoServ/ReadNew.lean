import ChatServices.MemoServ.InboxCount

/-! `READ NEW` shows unread memos until it gets to one whose sender is told by a memo: the loop goes
on from the node of that memo, which is the last of its list. -/
namespace ChatServices.MemoServ
open ChatServices.Text

/-- The memos that the loop of READ shows, under their numbers; `readFrom` has what it changes. -/
def shownFrom (a memonum : Nat) (readnew : Bool) (now : Int) (s : State) (i numread : Nat) :
    List Mymemo → List (Nat × Mymemo)
  | [] => []
  | memo :: rest =>
    if i + 1 = memonum || (readnew && !memo.isRead) then
      let r := readMemo s a i memo now
      if !readnew then [(i + 1, memo)]
      else if numread + 1 ≥ MAX_READ_AT_ONCE && (r.1.1.users a).memoctNew ≠ 0 then [(i + 1, memo)]
      else if r.2 then [(i + 1, memo)]
      else (i + 1, memo) :: shownFrom a memonum readnew now r.1.1 (i + 1) (numread + 1) rest
    else shownFrom a memonum readnew now s (i + 1) numread rest

def msCmdReadShown (s : State) (a : Nat) (arg1 : Option CString) (now : Int) : List (Nat × Mymemo) :=
  match arg1 with
  | none => []
  | some arg1 =>
    let memonum := memoNumber arg1
    let readnew := strcaseEq arg1 "NEW".toList
    if (!readnew && memonum = 0) || memonum > (s.users a).memos.length then []
    else shownFrom a memonum readnew now s 0 0 (s.users a).memos

/-! ### What should be shown -/

/-- The unread memos of an inbox with their numbers, from the place `i` on. -/
def unreadFrom (i : Nat) : List Mymemo → List (Nat × Mymemo)
  | [] => []
  | memo :: rest =>
    if memo.isRead then unreadFrom (i + 1) rest else (i + 1, memo) :: unreadFrom (i + 1) rest

/-- The first `n` unread memos are marked as read. -/
def markFirst : Nat → List Mymemo → List Mymemo
  | _, [] => []
  | n, memo :: rest =>
    if memo.isRead then memo :: markFirst n rest
    else
      match n with
      | 0 => memo :: rest
      | n + 1 => memo.read :: markFirst n rest

/-- READ NEW as it should be: the first unread memos are shown and marked, and the inbox is as it was
otherwise, with receipts from MemoServ at its end. -/
structure OldestShown (s : State) (a : Nat) (shown : List (Nat × Mymemo)) (s' : State) : Prop where
  shown : shown = (unreadFrom 0 (s.users a).memos).take MAX_READ_AT_ONCE
  marked : ∃ receipts, (s'.users a).memos = markFirst MAX_READ_AT_ONCE (s.users a).memos ++ receipts ∧
    ∀ receipt ∈ receipts, receipt.sender = truncate NICKLEN s.conf.nick

def yields (s : State) (memo : Mymemo) : Bool := (receiptTo s memo).isSome

/-- None of the memos that are due yields a receipt, the last of them apart; and if there are more,
this one does, or the counter is not used up with it. -/
def Undisturbed (s : State) (a : Nat) : Prop :=
  let us := unreadFrom 0 (s.users a).memos
  (∀ p ∈ us.take (min us.length MAX_READ_AT_ONCE - 1), yields s p.2 = false) ∧
    (MAX_READ_AT_ONCE < us.length → (s.users a).memoctNew ≠ BitVec.ofNat 16 MAX_READ_AT_ONCE ∨
      us[MAX_READ_AT_ONCE - 1]?.any (fun p => yields s p.2) = true)

instance (s : State) (a : Nat) : Decidable (Undisturbed s a) := inferInstanceAs (Decidable (_ ∧ _))

def readCount (s : State) : Nat → BitVec 16 → List (Nat × Mymemo) → Nat
  | _, _, [] => 0
  | numread, memoctNew, (_, memo) :: us =>
    if yields s memo then 1
    else if numread + 1 ≥ MAX_READ_AT_ONCE && memoctNew - 1 ≠ 0 then 1
    else readCount s (numread + 1) (memoctNew - 1) us + 1

section lists
variable {s : State} {us : List (Nat × Mymemo)}

theorem readCount_le (numread : Nat) (memoctNew : BitVec 16) :
    readCount s numread memoctNew us ≤ us.length := by
  induction us generalizing numread memoctNew with
  | nil => exact Nat.zero_le 0
  | cons p us ih =>
    have hrest := ih (numread + 1) (memoctNew - 1)
    rw [readCount, List.length_cons]
    split_ifs <;> omega

theorem readCount_pos {p : Nat × Mymemo} (numread : Nat) (memoctNew : BitVec 16) :
    0 < readCount s numread memoctNew (p :: us) := by
  rw [readCount]
  split_ifs <;> omega

theorem markFirst_read {memo : Mymemo} (h : memo.isRead = true) (n : Nat) (l : List Mymemo) :
    markFirst n (memo :: l) = memo :: markFirst n l := by
  rw [markFirst.eq_def]
  exact if_pos h

theorem markFirst_unread {memo : Mymemo} (h : memo.isRead = false) (n : Nat) (l : List Mymemo) :
    markFirst (n + 1) (memo :: l) = memo.read :: markFirst n l := by
  rw [markFirst.eq_def]
  exact if_neg (by rw [h]; exact Bool.false_ne_true)

theorem markFirst_zero (l : List Mymemo) : markFirst 0 l = l := by
  induction l with
  | nil => rfl
  | cons memo l ih =>
    cases hread : memo.isRead with
    | true => rw [markFirst_read hread, ih]
    | false =>
      rw [markFirst.eq_def]
      exact if_neg (by rw [hread]; exact Bool.false_ne_true)

theorem unreadFrom_read {memo : Mymemo} (h : memo.isRead = true) (i : Nat) (l : List Mymemo) :
    unreadFrom i (memo :: l) = unreadFrom (i + 1) l := if_pos h

theorem unreadFrom_unread {memo : Mymemo} (h : memo.isRead = false) (i : Nat) (l : List Mymemo) :
    unreadFrom i (memo :: l) = (i + 1, memo) :: unreadFrom (i + 1) l :=
  if_neg (by rw [h]; exact Bool.false_ne_true)

theorem markFirst_min (i n : Nat) (l : List Mymemo) :
    markFirst (min (unreadFrom i l).length n) l = markFirst n l := by
  induction l generalizing i n with
  | nil => rfl
  | cons memo l ih =>
    cases hread : memo.isRead with
    | true => rw [unreadFrom_read hread, markFirst_read hread, markFirst_read hread, ih]
    | false =>
      rw [unreadFrom_unread hread, List.length_cons]
      cases n with
      | zero => rw [Nat.min_zero]
      | succ n => rw [Nat.succ_min_succ, markFirst_unread hread, markFirst_unread hread, ih]

theorem sub_one_eq_iff (c : BitVec 16) (m : Nat) :
    c - 1 = BitVec.ofNat 16 m ↔ c = BitVec.ofNat 16 (m + 1) := by
  have hone : (1 : BitVec 16).toNat = 1 := rfl
  have hc := c.isLt
  rw [BitVec.toNat_eq, BitVec.toNat_eq, BitVec.toNat_sub, BitVec.toNat_ofNat, BitVec.toNat_ofNat, hone]
  omega

theorem readCount_iff {numread left : Nat} (hleft : numread + left = MAX_READ_AT_ONCE) (hpos : 0 < left)
    (memoctNew : BitVec 16) : readCount s numread memoctNew us = min us.length left ↔
      (∀ p ∈ us.take (min us.length left - 1), yields s p.2 = false) ∧
        (left < us.length → memoctNew ≠ BitVec.ofNat 16 left ∨
          us[left - 1]?.any (fun p => yields s p.2) = true) := by
  induction us generalizing numread left memoctNew with
  | nil => simp [readCount]
  | cons p us ih =>
    obtain ⟨i, memo⟩ := p
    have hmax : MAX_READ_AT_ONCE = 5 := rfl
    rw [readCount, List.length_cons]
    cases hyields : yields s memo with
    | true =>
      rw [if_pos rfl]
      constructor
      · intro hone
        have hzero : min (us.length + 1) left - 1 = 0 := by omega
        rw [hzero, List.take_zero]
        refine ⟨nofun, fun hmore => .inr ?_⟩
        have hfirst : left - 1 = 0 := by omega
        rw [hfirst, List.getElem?_cons_zero, Option.any_some]
        exact hyields
      · rintro ⟨hnone, -⟩
        by_contra hone
        obtain ⟨k, hk⟩ : ∃ k, min (us.length + 1) left - 1 = k + 1 :=
          ⟨min (us.length + 1) left - 2, by omega⟩
        rw [hk, List.take_succ_cons] at hnone
        have hfirst := hnone (i, memo) List.mem_cons_self
        rw [hyields] at hfirst
        cases hfirst
    | false =>
      rw [if_neg Bool.false_ne_true]
      by_cases hend : left = 1
      · have hzero : min (us.length + 1) left - 1 = 0 := by omega
        rw [hzero, List.take_zero, hend, Nat.sub_self, List.getElem?_cons_zero, Option.any_some, hyields]
        have hused : memoctNew - 1 = 0 ↔ memoctNew = BitVec.ofNat 16 1 := sub_one_eq_iff memoctNew 0
        by_cases hnext : memoctNew - 1 = 0
        · have hgoes : ¬ (decide (numread + 1 ≥ MAX_READ_AT_ONCE) && decide (memoctNew - 1 ≠ 0)) = true := by
            rw [decide_eq_false (not_not.mpr hnext), Bool.and_false]
            exact Bool.false_ne_true
          rw [if_neg hgoes]
          cases us with
          | nil => simp [readCount]
          | cons p us =>
            have hpos' : 0 < readCount s (numread + 1) (memoctNew - 1) (p :: us) := readCount_pos _ _
            constructor
            · intro hcount
              simp only [List.length_cons] at hcount
              omega
            · rintro ⟨-, hmore⟩
              have hless : 1 < (p :: us).length + 1 := by
                rw [List.length_cons]
                omega
              obtain hne | hno := hmore hless
              · exact absurd (hused.mp hnext) hne
              · cases hno
        · have hstop : (decide (numread + 1 ≥ MAX_READ_AT_ONCE) && decide (memoctNew - 1 ≠ 0)) = true := by
            rw [decide_eq_true hnext, Bool.and_true]
            exact decide_eq_true (by omega)
          rw [if_pos hstop]
          exact ⟨fun _ => ⟨nofun, fun _ => .inl (mt hused.mpr hnext)⟩, fun _ => by omega⟩
      · obtain ⟨m, rfl⟩ : ∃ m, left = m + 1 := ⟨left - 1, by omega⟩
        have hgoes : ¬ (decide (numread + 1 ≥ MAX_READ_AT_ONCE) && decide (memoctNew - 1 ≠ 0)) = true := by
          rw [decide_eq_false (by omega), Bool.false_and]
          exact Bool.false_ne_true
        have hrest : readCount s (numread + 1) (memoctNew - 1) us = min us.length m ↔
            (∀ p ∈ us.take (min us.length m - 1), yields s p.2 = false) ∧
              (m < us.length → memoctNew - 1 ≠ BitVec.ofNat 16 m ∨
                us[m - 1]?.any (fun p => yields s p.2) = true) := ih (by omega) (by omega) (memoctNew - 1)
        have hplace : ((i, memo) :: us)[m + 1 - 1]? = us[m - 1]? := by
          obtain ⟨k, rfl⟩ : ∃ k, m = k + 1 := ⟨m - 1, by omega⟩
          rfl
        have htake : (∀ p ∈ ((i, memo) :: us).take (min (us.length + 1) (m + 1) - 1), yields s p.2 = false) ↔
            ∀ p ∈ us.take (min us.length m - 1), yields s p.2 = false := by
          rw [Nat.add_min_add_right, Nat.add_sub_cancel]
          cases hlen : min us.length m with
          | zero => simp
          | succ k =>
            rw [List.take_succ_cons, List.forall_mem_cons, Nat.add_sub_cancel]
            exact and_iff_right hyields
        have hcounter : memoctNew - 1 ≠ BitVec.ofNat 16 m ↔ memoctNew ≠ BitVec.ofNat 16 (m + 1) :=
          not_congr (sub_one_eq_iff memoctNew m)
        rw [if_neg hgoes, htake, hplace, Nat.add_min_add_right, Nat.add_right_cancel_iff, hrest, hcounter,
          Nat.add_lt_add_iff_right]

end lists

/-! ### What is shown -/

section reading
variable {s : State} {memo : Mymemo} {before rest : List Mymemo} {a : Nat} {now : Int}

theorem yields_setRead {i : Nat} : yields (update s a (setRead i)) = yields s := by
  funext memo
  rw [yields, receiptTo_setRead, yields]

theorem readCount_setRead {i : Nat} : readCount (update s a (setRead i)) = readCount s := by
  funext numread memoctNew us
  induction us generalizing numread memoctNew with
  | nil => rfl
  | cons p us ih => rw [readCount, yields_setRead, ih, readCount]

theorem readMemo_alone (hunread : memo.isRead = false) (hyields : yields s memo = false) :
    (readMemo s a before.length memo now).1.1 = update s a (setRead before.length) := by
  rw [yields, Option.isSome_eq_false_iff, Option.isNone_iff_eq_none] at hyields
  rw [readMemo, hunread]
  dsimp only
  rw [if_neg Bool.false_ne_true, receiptTo_setRead, hyields]

variable (now) in
theorem readMemo_memos (hmemos : (s.users a).memos = before ++ memo :: rest)
    (hunread : memo.isRead = false) : ∃ receipts,
      ((readMemo s a before.length memo now).1.1.users a).memos = before ++ memo.read :: rest ++ receipts ∧
        ∀ receipt ∈ receipts, receipt.sender = truncate NICKLEN s.conf.nick := by
  have hself : ((update s a (setRead before.length)).users a).memos = before ++ memo.read :: rest := by
    rw [users_update_self, setRead_memos hmemos]
  rw [readMemo, hunread]
  dsimp only
  rw [if_neg Bool.false_ne_true]
  cases receiptTo (update s a (setRead before.length)) memo with
  | none => exact ⟨[], by rw [hself, List.append_nil], List.forall_mem_nil _⟩
  | some tmu =>
    dsimp only
    by_cases htmu : a = tmu
    · rw [deliver, ← htmu, users_update_self, nodeAdd, hself]
      refine ⟨_, rfl, fun receipt hreceipt => ?_⟩
      rw [List.mem_singleton.mp hreceipt]
      rfl
    · rw [deliver, users_update_of_ne htmu, hself]
      exact ⟨[], by rw [List.append_nil], List.forall_mem_nil _⟩

theorem readFrom_shows (hmemos : (s.users a).memos = before ++ rest) (numread : Nat) :
    shownFrom a 0 true now s before.length numread rest = (unreadFrom before.length rest).take
        (readCount s numread (s.users a).memoctNew (unreadFrom before.length rest)) ∧
      ∃ receipts, ((readFrom a 0 true now s before.length numread rest).1.users a).memos = before ++
          (markFirst (readCount s numread (s.users a).memoctNew (unreadFrom before.length rest)) rest ++
            receipts) ∧
        ∀ receipt ∈ receipts, receipt.sender = truncate NICKLEN s.conf.nick := by
  induction rest generalizing s before numread with
  | nil =>
    refine ⟨rfl, [], ?_, List.forall_mem_nil _⟩
    rw [markFirst.eq_def]
    exact hmemos
  | cons memo rest ih =>
    cases hread : memo.isRead with
    | true =>
      have hmemos' : (s.users a).memos = (before ++ [memo]) ++ rest := by simpa using hmemos
      have hrest := ih hmemos' numread
      simp only [List.length_append, List.length_singleton, List.append_assoc] at hrest
      rw [unreadFrom_read hread, markFirst_read hread, shownFrom, readFrom, hread]
      exact hrest
    | false =>
      have hreceipt : (readMemo s a before.length memo now).2 = yields s memo :=
        readMemo_receipt s before a now hread
      have hends : unreadFrom before.length (memo :: rest) =
          (before.length + 1, memo) :: unreadFrom (before.length + 1) rest := unreadFrom_unread hread _ _
      -- The loop ends with this memo.
      have hlast : [(before.length + 1, memo)] =
            (unreadFrom before.length (memo :: rest)).take 1 ∧
          ∃ receipts, ((readMemo s a before.length memo now).1.1.users a).memos =
              before ++ (markFirst 1 (memo :: rest) ++ receipts) ∧
            ∀ receipt ∈ receipts, receipt.sender = truncate NICKLEN s.conf.nick := by
        obtain ⟨receipts, hboth, hsender⟩ := readMemo_memos now hmemos hread
        rw [hends, markFirst_unread hread, markFirst_zero]
        refine ⟨rfl, receipts, ?_, hsender⟩
        rw [hboth, List.append_assoc]
      rw [hends] at hlast ⊢
      rw [readCount, shownFrom, readFrom, hread]
      simp only [Bool.not_false, Bool.and_self, Bool.or_true, if_true, Bool.not_true,
        Bool.false_eq_true, if_false, hreceipt]
      cases hyields : yields s memo with
      | true =>
        simp only [if_true, ite_self]
        exact hlast
      | false =>
        have hmemos' : ((update s a (setRead before.length)).users a).memos =
            (before ++ [memo.read]) ++ rest := by
          rw [users_update_self, setRead_memos hmemos, List.append_assoc]
          rfl
        have hcounter : ((update s a (setRead before.length)).users a).memoctNew =
            (s.users a).memoctNew - 1 := by
          rw [users_update_self]
          rfl
        rw [readMemo_alone hread hyields, hcounter]
        simp only [Bool.false_eq_true, if_false]
        cases hstop : decide (numread + 1 ≥ MAX_READ_AT_ONCE) &&
            decide ((s.users a).memoctNew - 1 ≠ 0) with
        | true =>
          simp only [if_true]
          exact hlast
        | false =>
          have hrest := ih hmemos' (numread + 1)
          rw [hcounter, readCount_setRead] at hrest
          simp only [List.length_append, List.length_singleton, List.append_assoc] at hrest
          obtain ⟨hshown, receipts, hmarked, hsender⟩ := hrest
          simp only [Bool.false_eq_true, if_false]
          rw [List.take_succ_cons, hshown, markFirst_unread hread]
          exact ⟨rfl, receipts, hmarked, hsender⟩

variable (s a now) in
theorem read_new_shows {arg1 : CString} (h : strcaseEq arg1 "NEW".toList = true) :
    msCmdReadShown s a (some arg1) now = (unreadFrom 0 (s.users a).memos).take
        (readCount s 0 (s.users a).memoctNew (unreadFrom 0 (s.users a).memos)) ∧
      ∃ receipts, ((msCmdRead s a (some arg1) now).1.users a).memos =
          markFirst (readCount s 0 (s.users a).memoctNew (unreadFrom 0 (s.users a).memos))
            (s.users a).memos ++ receipts ∧
        ∀ receipt ∈ receipts, receipt.sender = truncate NICKLEN s.conf.nick := by
  have hall : (s.users a).memos = [] ++ (s.users a).memos := rfl
  rw [msCmdReadShown, msCmdRead, memoNumber_new h, h]
  exact readFrom_shows hall 0

/-- READ NEW shows the oldest unread memos, five at most, marks these as read and leaves the others,
if and only if nothing disturbs it. -/
theorem read_new_oldest_iff (s : State) (a : Nat) (now : Int) (arg1 : CString)
    (h : strcaseEq arg1 "NEW".toList = true) :
    OldestShown s a (msCmdReadShown s a (some arg1) now) (msCmdRead s a (some arg1) now).1 ↔
      Undisturbed s a := by
  obtain ⟨hshown, receipts, hmarked, hsender⟩ := read_new_shows s a now h
  have hle : readCount s 0 (s.users a).memoctNew (unreadFrom 0 (s.users a).memos) ≤
      (unreadFrom 0 (s.users a).memos).length := readCount_le 0 _
  have hcount : readCount s 0 (s.users a).memoctNew (unreadFrom 0 (s.users a).memos) =
        min (unreadFrom 0 (s.users a).memos).length MAX_READ_AT_ONCE ↔ Undisturbed s a :=
    readCount_iff rfl (by decide) _
  rw [← hcount]
  constructor
  · intro holdest
    have hlen := congrArg List.length holdest.shown
    rw [hshown, List.length_take, List.length_take] at hlen
    omega
  · intro hmin
    rw [hmin] at hshown hmarked
    rw [markFirst_min] at hmarked
    refine ⟨?_, receipts, hmarked, hsender⟩
    rw [hshown, Nat.min_comm, ← List.take_take, List.take_length]

end reading

def Conf.usual : Conf := { Conf.small with maxmemos := 30 }

def twoMemos (sender : Option Nat) : State where
  conf := .usual
  myuserFind name := if name = "alice".toList then sender else none
  mynickFind _ := none
  users a :=
    if a = 2 then
      { Myuser.blank with
        memos := [⟨"alice".toList, "hi".toList, 1000, 0⟩, ⟨"alice".toList, "there".toList, 1001, 0⟩]
        memoctNew := 2 }
    else .blank

/-- Nobody is told of the memos. -/
theorem read_new_oldest_two :
    OldestShown (twoMemos none) 2 (msCmdReadShown (twoMemos none) 2 (some "new".toList) 2000)
      (msCmdRead (twoMemos none) 2 (some "new".toList) 2000).1 :=
  (read_new_oldest_iff (twoMemos none) 2 2000 "new".toList (by decide +kernel)).mpr
    (by decide +kernel)

/-- Alice is away and gets a receipt for the first memo: the second is not shown. -/
theorem second_memo_not_shown :
    ¬ OldestShown (twoMemos (some 1)) 2
      (msCmdReadShown (twoMemos (some 1)) 2 (some "new".toList) 2000)
      (msCmdRead (twoMemos (some 1)) 2 (some "new".toList) 2000).1 := by
  intro h
  have hshort : msCmdReadShown (twoMemos (some 1)) 2 (some "new".toList) 2000 =
      [(1, ⟨"alice".toList, "hi".toList, 1000, 0⟩)] := by decide +kernel
  have hlen := congrArg List.length h.shown
  rw [hshort] at hlen
  exact absurd hlen (by decide +kernel)

end ChatServices.MemoServ
