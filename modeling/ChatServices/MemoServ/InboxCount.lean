import ChatServices.Lib.Run
import ChatServices.MemoServ.Memos

/-! The counter of unread memos and the limit of the inbox, along every run: which memo that a
command adds breaks them, and no other step does. -/
namespace ChatServices.MemoServ
open ChatServices.Text ChatServices.Lib.Run
open ChatServices.Cidr (atoi strtol)

/-! ### The counter -/

def unread (l : List Mymemo) : Nat := l.countP fun memo => !memo.isRead

/-- `memoct_new` is the number of unread memos. -/
def Counts (mu : Myuser) : Prop := mu.memoctNew.toNat = unread mu.memos

def Counted (s : State) : Prop := ∀ a, Counts (s.users a)

def Obs.Fine : Obs → Prop
  | .added count maxmemos => count < maxmemos
  | .taken memoctNew => memoctNew ≠ 0

def Kept (r : State × List Obs) : Prop := Counted r.1 ∧ ∀ o ∈ r.2, o.Fine

def Room (s : State) (t : Nat) : Prop :=
  (s.users t).memos.length < s.conf.maxmemos ∧ unread (s.users t).memos + 1 < 2 ^ 16

section counter
variable {s : State} {mu : Myuser} {memo : Mymemo} {a t : Nat} {f : Myuser → Myuser}

@[simp] theorem users_update_self : (update s a f).users a = f (s.users a) := if_pos rfl

theorem users_update_of_ne {b : Nat} (h : b ≠ a) : (update s a f).users b = s.users b := if_neg h

theorem counts_blank : Counts .blank := rfl

theorem counted_update (h : Counted s) : Counted (update s t f) ↔ Counts (f (s.users t)) := by
  constructor
  · intro hall
    have hself := hall t
    rw [users_update_self] at hself
    exact hself
  · intro hself b
    by_cases hb : b = t
    · rw [hb, users_update_self]
      exact hself
    · rw [users_update_of_ne hb]
      exact h b

theorem counts_nodeAdd (h : Counts mu) (hunread : memo.isRead = false) :
    Counts (nodeAdd memo mu) ↔ unread mu.memos + 1 < 2 ^ 16 := by
  have hcount : unread (mu.memos ++ [memo]) = unread mu.memos + 1 := by
    rw [unread, List.countP_append, List.countP_singleton, hunread]
    rfl
  have hlt := mu.memoctNew.isLt
  rw [Counts] at h
  rw [Counts, nodeAdd]
  dsimp only
  rw [hcount, BitVec.toNat_add, h]
  have hone : (1 : BitVec 16).toNat = 1 := rfl
  rw [hone]
  omega

theorem kept_deliver (h : Counted s) (hunread : memo.isRead = false) :
    Kept (deliver s t memo) ↔ Room s t := by
  rw [Kept, deliver, counted_update h, counts_nodeAdd (h t) hunread, List.forall_mem_singleton]
  exact and_comm

theorem kept_cons {r : State × List Obs} {o : Obs} (ho : o.Fine) : Kept (r.1, o :: r.2) ↔ Kept r := by
  rw [Kept, List.forall_mem_cons, Kept]
  exact and_congr_right fun _ => and_iff_right ho

theorem kept_nil (h : Counted s) : Kept (s, []) := ⟨h, nofun⟩

end counter

/-! ### Sending -/

structure Ticked (s s' : State) : Prop where
  conf : s'.conf = s.conf
  myuserFind : s'.myuserFind = s.myuserFind
  mynickFind : s'.mynickFind = s.mynickFind
  memos : ∀ a, (s'.users a).memos = (s.users a).memos
  memoctNew : ∀ a, (s'.users a).memoctNew = (s.users a).memoctNew
  nomemo : ∀ a, (s'.users a).nomemo = (s.users a).nomemo
  memoIgnores : ∀ a, (s'.users a).memoIgnores = (s.users a).memoIgnores

section send
variable {s s' : State} {r r' : State × List Obs} {o : Option Nat} {smu t : Nat} {now : Int}
  {memo : Mymemo}

theorem Ticked.refl : Ticked s s :=
  ⟨rfl, rfl, rfl, fun _ => rfl, fun _ => rfl, fun _ => rfl, fun _ => rfl⟩

theorem Ticked.trans {s'' : State} (h : Ticked s s') (h' : Ticked s' s'') : Ticked s s'' where
  conf := h'.conf.trans h.conf
  myuserFind := h'.myuserFind.trans h.myuserFind
  mynickFind := h'.mynickFind.trans h.mynickFind
  memos a := (h'.memos a).trans (h.memos a)
  memoctNew a := (h'.memoctNew a).trans (h.memoctNew a)
  nomemo a := (h'.nomemo a).trans (h.nomemo a)
  memoIgnores a := (h'.memoIgnores a).trans (h.memoIgnores a)

theorem ticked_update {f : Myuser → Myuser} (hmemos : ∀ mu, (f mu).memos = mu.memos)
    (hmemoct : ∀ mu, (f mu).memoctNew = mu.memoctNew) (hnomemo : ∀ mu, (f mu).nomemo = mu.nomemo)
    (hignores : ∀ mu, (f mu).memoIgnores = mu.memoIgnores) : Ticked s (update s smu f) := by
  refine ⟨rfl, rfl, rfl, fun a => ?_, fun a => ?_, fun a => ?_, fun a => ?_⟩
  all_goals
    rw [update]
    dsimp only
    split_ifs
  · exact hmemos _
  · rfl
  · exact hmemoct _
  · rfl
  · exact hnomemo _
  · rfl
  · exact hignores _
  · rfl

theorem ratelimitCount_ticked : Ticked s (ratelimitCount s smu now) :=
  ticked_update (fun _ => rfl) (fun _ => rfl) (fun _ => rfl) fun _ => rfl

theorem ratelimitReset_ticked : Ticked s (ratelimitReset s smu now) := by
  apply ticked_update <;> intro mu <;> split_ifs <;> rfl

theorem Ticked.counted (h : Ticked s s') (hs : Counted s) : Counted s' := by
  intro a
  rw [Counts, h.memos, h.memoctNew]
  exact hs a

theorem Ticked.isOpen (h : Ticked s s') : isOpen s' t = isOpen s t := by
  rw [MemoServ.isOpen, h.nomemo, h.memos, h.conf, MemoServ.isOpen]

theorem Ticked.ignored (h : Ticked s s') : ignored s' t smu = ignored s t smu := by
  rw [MemoServ.ignored, h.memoIgnores, h.conf, h.myuserFind, h.mynickFind, MemoServ.ignored]

theorem Ticked.room (h : Ticked s s') : Room s' t ↔ Room s t := by
  rw [Room, h.memos, h.conf, Room]

theorem isOpen_length (h : isOpen s t = true) : (s.users t).memos.length < s.conf.maxmemos := by
  rw [isOpen, Bool.and_eq_true, decide_eq_true_eq] at h
  exact h.2

theorem isRead_channelStatus {sender text : CString} {sent : Int} (channel : Bool) :
    (Mymemo.mk sender text sent (channelStatus channel)).isRead = false := by
  cases channel <;> simp [Mymemo.isRead, channelStatus, MEMO_CHANNEL, MEMO_READ]

theorem isRead_zero {sender text : CString} {sent : Int} :
    (Mymemo.mk sender text sent 0).isRead = false := isRead_channelStatus false

theorem kept_of_none (h : Kept r) : Kept r ↔ ∀ t ∈ (none : Option Nat), Room s t :=
  ⟨fun _ => nofun, fun _ => h⟩

theorem kept_deliver_some (h : Counted s') (hticked : Ticked s s') (hunread : memo.isRead = false) :
    Kept (deliver s' t memo) ↔ ∀ b ∈ some t, Room s b := by
  rw [kept_deliver h hunread, hticked.room]
  simp

theorem kept_if {c : Prop} [Decidable c] (hyes : c → (Kept r ↔ ∀ t ∈ o, Room s t)) (hno : Kept r') :
    Kept (if c then r else r') ↔ ∀ t ∈ (if c then o else none), Room s t := by
  by_cases hc : c
  · rw [if_pos hc, if_pos hc]
    exact hyes hc
  · rw [if_neg hc, if_neg hc]
    exact kept_of_none hno

theorem kept_unless {c : Prop} [Decidable c] (hyes : ¬c → (Kept r ↔ ∀ t ∈ o, Room s t))
    (hno : Kept r') : Kept (if c then r' else r) ↔ ∀ t ∈ (if c then none else o), Room s t := by
  by_cases hc : c
  · rw [if_pos hc, if_pos hc]
    exact kept_of_none hno
  · rw [if_neg hc, if_neg hc]
    exact hyes hc

/-- The account that `send_user_memo` puts the memo to. -/
def sendUserMemoTo (s : State) (smu target : Option Nat) (memotext : Option CString) :
    Option Nat :=
  match smu, target, memotext with
  | some smu, some target, some memotext =>
    if sendable memotext then
      if isOpen s target && !ignored s target smu then some target else none
    else none
  | _, _, _ => none

theorem sendUserMemo_kept (h : Counted s') (hticked : Ticked s s') (smu target : Option Nat)
    (memotext : Option CString) (channel : Bool) :
    Kept (sendUserMemo s' smu target memotext channel now) ↔
      ∀ t ∈ sendUserMemoTo s smu target memotext, Room s t := by
  obtain _ | smu := smu
  · exact kept_of_none (kept_nil h)
  obtain _ | target := target
  · exact kept_of_none (kept_nil h)
  obtain _ | memotext := memotext
  · exact kept_of_none (kept_nil h)
  have hcount : Ticked s (ratelimitCount s' smu now) := hticked.trans ratelimitCount_ticked
  have hcounted : Counted (ratelimitCount s' smu now) := ratelimitCount_ticked.counted h
  rw [sendUserMemo, sendUserMemoTo]
  dsimp only
  rw [hcount.isOpen, hcount.ignored]
  apply kept_if _ (kept_nil h)
  intro _
  apply kept_if _ (kept_nil hcounted)
  exact fun _ => kept_deliver_some hcounted hcount (isRead_channelStatus channel)

def sendUserMemoMiscTo (s : State) (target : Option Nat) (memotext : Option CString) :
    Option Nat :=
  match target, memotext with
  | some target, some memotext =>
    if sendable memotext && isOpen s target then some target else none
  | _, _ => none

theorem sendUserMemoMisc_kept (h : Counted s) (target : Option Nat) (memotext : Option CString)
    (channel : Bool) : Kept (sendUserMemoMisc s target memotext channel now) ↔
      ∀ t ∈ sendUserMemoMiscTo s target memotext, Room s t := by
  obtain _ | target := target
  · exact kept_of_none (kept_nil h)
  obtain _ | memotext := memotext
  · exact kept_of_none (kept_nil h)
  apply kept_if _ (kept_nil h)
  exact fun _ => kept_deliver_some h .refl (isRead_channelStatus channel)

/-- The checks of SEND, and behind them those of `send_user_memo`. -/
def msCmdSendTo (s : State) (smu : Nat) (tmu : Option Nat) (m : Option CString) (flood : Bool)
    (now : Int) : Option Nat :=
  match m with
  | none => none
  | some m =>
    if (s.users smu).waitauth then none
    else if limited (ratelimitReset s smu now) smu flood then none
    else if !sendable m then none
    else
      match tmu with
      | none => none
      | some tmu =>
        if isOpen s tmu then sendUserMemoTo s (some smu) (some tmu) (some m) else none

theorem msCmdSend_kept (h : Counted s) (tmu : Option Nat) (m : Option CString) (flood : Bool) :
    Kept (msCmdSend s smu tmu m flood now) ↔
      ∀ t ∈ msCmdSendTo s smu tmu m flood now, Room s t := by
  have hreset : Ticked s (ratelimitReset s smu now) := ratelimitReset_ticked
  have hcount : Ticked s (ratelimitCount (ratelimitReset s smu now) smu now) :=
    hreset.trans ratelimitCount_ticked
  have hkept := kept_nil (hreset.counted h)
  rw [msCmdSend.eq_def, msCmdSendTo.eq_def]
  cases m with
  | none => exact kept_of_none (kept_nil h)
  | some m =>
    dsimp only
    apply kept_unless _ (kept_nil h)
    intro _
    apply kept_unless _ hkept
    intro _
    apply kept_unless _ hkept
    intro _
    cases tmu with
    | none => exact kept_of_none hkept
    | some tmu =>
      dsimp only
      rw [hcount.isOpen]
      apply kept_if _ (kept_nil (hcount.counted h))
      exact fun _ => sendUserMemo_kept (hcount.counted h) hcount (some smu) (some tmu) (some m) false

def msCmdForwardTo (s : State) (smu : Nat) (tmu : Option Nat) (arg : Option CString)
    (flood : Bool) (now : Int) : Option Nat :=
  match tmu, arg with
  | some tmu, some arg =>
    if forwardable s smu tmu (memoNumber arg) then
      if limited (ratelimitReset s smu now) smu flood then none
      else if ignored s tmu smu then none
      else some tmu
    else none
  | _, _ => none

theorem msCmdForward_kept (h : Counted s) (tmu : Option Nat) (arg : Option CString) (flood : Bool) :
    Kept (msCmdForward s smu tmu arg flood now) ↔
      ∀ t ∈ msCmdForwardTo s smu tmu arg flood now, Room s t := by
  have hreset : Ticked s (ratelimitReset s smu now) := ratelimitReset_ticked
  have hcount : Ticked s (ratelimitCount (ratelimitReset s smu now) smu now) :=
    hreset.trans ratelimitCount_ticked
  have hcounted := hcount.counted h
  obtain _ | tmu := tmu
  · exact kept_of_none (kept_nil h)
  obtain _ | arg := arg
  · exact kept_of_none (kept_nil h)
  rw [msCmdForward, msCmdForwardTo]
  dsimp only
  rw [hcount.ignored]
  apply kept_if _ (kept_nil h)
  intro hforward
  apply kept_unless _ (kept_nil (hreset.counted h))
  intro _
  apply kept_unless _ (kept_nil hcounted)
  intro _
  have hlen : memoNumber arg - 1 < (s.users smu).memos.length := by
    simp only [forwardable, Bool.and_eq_true, decide_eq_true_eq] at hforward
    omega
  rw [hcount.memos, List.getElem?_eq_getElem hlen]
  exact kept_deliver_some hcounted hcount isRead_zero

end send

/-! ### Reading -/

def ReadRoom (s : State) (a t : Nat) : Prop :=
  (s.users t).memos.length < s.conf.maxmemos ∧
    (t ≠ a → unread (s.users t).memos + 1 < 2 ^ 16)

def Mymemo.read (memo : Mymemo) : Mymemo := { memo with status := memo.status ||| MEMO_READ }

section reading
variable {s : State} {mu : Myuser} {memo : Mymemo} {before rest : List Mymemo} {a t : Nat}
  {now : Int} {f : Myuser → Myuser}

theorem isRead_read : memo.read.isRead = true := by
  have hbit : (memo.status ||| MEMO_READ) &&& MEMO_READ = MEMO_READ := by
    apply BitVec.eq_of_getLsbD_eq
    intro i hi
    rw [BitVec.getLsbD_and, BitVec.getLsbD_or]
    cases memo.status.getLsbD i <;> simp
  rw [Mymemo.isRead, Mymemo.read, hbit]
  rfl

theorem setRead_memos (h : mu.memos = before ++ memo :: rest) :
    (setRead before.length mu).memos = before ++ memo.read :: rest := by
  have hlen : before.length < (before ++ memo :: rest).length := by simp
  rw [setRead, h]
  dsimp only
  rw [List.modify_eq_take_cons_drop hlen]
  simp [Mymemo.read]

theorem unread_middle : unread (before ++ memo :: rest) =
    unread before + unread rest + if memo.isRead then 0 else 1 := by
  rw [unread, List.countP_append, List.countP_cons, unread, unread]
  cases memo.isRead <;> simp only [Bool.not_true, Bool.not_false, Bool.false_eq_true, if_true, if_false] <;>
    omega

theorem setRead_counts (h : Counts mu) (hmemos : mu.memos = before ++ memo :: rest)
    (hunread : memo.isRead = false) : mu.memoctNew ≠ 0 ∧ Counts (setRead before.length mu) ∧
      unread (setRead before.length mu).memos + 1 = unread mu.memos := by
  have hread : unread (setRead before.length mu).memos + 1 = unread mu.memos := by
    rw [setRead_memos hmemos, hmemos, unread_middle, unread_middle, isRead_read, hunread]
    rfl
  have hone : (1 : BitVec 16).toNat = 1 := rfl
  have hlt := mu.memoctNew.isLt
  rw [Counts] at h
  refine ⟨fun hzero => ?_, ?_, hread⟩
  · rw [hzero] at h
    have hzero' : (0 : BitVec 16).toNat = 0 := rfl
    omega
  · rw [Counts]
    have hsub : (setRead before.length mu).memoctNew = mu.memoctNew - 1 := rfl
    rw [hsub, BitVec.toNat_sub, hone]
    omega

theorem receiptTo_update (hlen : ∀ mu, (f mu).memos.length = mu.memos.length)
    (hlogins : ∀ mu, (f mu).logins = mu.logins) : receiptTo (update s a f) = receiptTo s := by
  have hsame : ∀ t, ((update s a f).users t).memos.length = (s.users t).memos.length ∧
      ((update s a f).users t).logins = (s.users t).logins := by
    intro t
    by_cases ht : t = a
    · rw [ht, users_update_self]
      exact ⟨hlen _, hlogins _⟩
    · rw [users_update_of_ne ht]
      exact ⟨rfl, rfl⟩
  funext memo
  rw [receiptTo, receiptTo]
  congr 2
  funext t
  rw [(hsame t).1, (hsame t).2]
  rfl

theorem receiptTo_setRead {i : Nat} : receiptTo (update s a (setRead i)) = receiptTo s :=
  receiptTo_update (fun _ => List.length_modify ..) fun _ => rfl

theorem readRoom_setRead {i : Nat} : ReadRoom (update s a (setRead i)) a t ↔ ReadRoom s a t := by
  by_cases ht : t = a
  · have hlen : ((update s a (setRead i)).users t).memos.length = (s.users t).memos.length := by
      rw [ht, users_update_self]
      exact List.length_modify ..
    rw [ReadRoom, ReadRoom, hlen]
    simp [ht, update]
  · rw [ReadRoom, ReadRoom, users_update_of_ne ht]
    rfl

theorem room_setRead (h : Counts (s.users a)) (hmemos : (s.users a).memos = before ++ memo :: rest)
    (hunread : memo.isRead = false) :
    Room (update s a (setRead before.length)) t ↔ ReadRoom s a t := by
  rw [← readRoom_setRead (i := before.length), Room, ReadRoom]
  by_cases ht : t = a
  · obtain ⟨-, -, hless⟩ := setRead_counts h hmemos hunread
    have hlt := (s.users a).memoctNew.isLt
    rw [Counts] at h
    rw [ht, users_update_self, hless, ← h]
    simp [hlt]
  · simp [ht]

variable (now) in
theorem readMemo_kept (h : Counted s) (hmemos : (s.users a).memos = before ++ memo :: rest)
    (hunread : memo.isRead = false) : Kept (readMemo s a before.length memo now).1 ↔
      ∀ t ∈ receiptTo s memo, ReadRoom s a t := by
  obtain ⟨hne, hcounts, -⟩ := setRead_counts (h a) hmemos hunread
  have hcounted : Counted (update s a (setRead before.length)) := (counted_update h).mpr hcounts
  rw [readMemo, hunread]
  dsimp only
  rw [if_neg Bool.false_ne_true, receiptTo_setRead]
  cases hto : receiptTo s memo with
  | none =>
    refine ⟨fun _ => nofun, fun _ => ⟨hcounted, fun o ho => ?_⟩⟩
    rw [List.mem_singleton.mp ho]
    exact hne
  | some t =>
    dsimp only
    have htaken : (Obs.taken (s.users a).memoctNew).Fine := hne
    rw [List.singleton_append, kept_cons htaken, kept_deliver hcounted isRead_zero,
      room_setRead (h a) hmemos hunread]
    simp

variable (s a before now) in
theorem readMemo_receipt (hunread : memo.isRead = false) :
    (readMemo s a before.length memo now).2 = (receiptTo s memo).isSome := by
  rw [readMemo, hunread]
  dsimp only
  rw [if_neg Bool.false_ne_true, receiptTo_setRead]
  cases receiptTo s memo <;> rfl

/-- The memos that `READ <number>` reads, of those from the place `i` on. -/
def numbered (memonum i : Nat) (rest : List Mymemo) : List Mymemo :=
  ((rest.drop (memonum - 1 - i)).take 1).filter fun memo => !memo.isRead

theorem readFrom_number (h : Counted s) (hmemos : (s.users a).memos = before ++ rest)
    {memonum numread : Nat} (hi : before.length < memonum) :
    Kept (readFrom a memonum false now s before.length numread rest) ↔
      ∀ t ∈ (numbered memonum before.length rest).findSome? (receiptTo s), ReadRoom s a t := by
  induction rest generalizing before with
  | nil =>
    rw [readFrom, numbered, List.drop_nil]
    exact ⟨fun _ => nofun, fun _ => kept_nil h⟩
  | cons memo rest ih =>
    rw [readFrom]
    by_cases hhere : before.length + 1 = memonum
    · have hnumbered : numbered memonum before.length (memo :: rest) =
          if memo.isRead then [] else [memo] := by
        have hdrop : memonum - 1 - before.length = 0 := by omega
        rw [numbered, hdrop, List.drop_zero, List.take_succ_cons, List.take_zero,
          List.filter_singleton]
        cases memo.isRead <;> rfl
      rw [hnumbered]
      simp only [hhere, decide_true, Bool.true_or, if_true, Bool.not_false]
      cases hread : memo.isRead with
      | true =>
        rw [readMemo, hread]
        exact ⟨fun _ => nofun, fun _ => kept_nil h⟩
      | false =>
        rw [readMemo_kept now h hmemos hread]
        simp
    · have hmemos' : (s.users a).memos = (before ++ [memo]) ++ rest := by simpa using hmemos
      have hi' : (before ++ [memo]).length < memonum := by
        rw [List.length_append, List.length_singleton]
        omega
      have hrest := ih hmemos' hi'
      rw [List.length_append, List.length_singleton] at hrest
      have hnumbered : numbered memonum before.length (memo :: rest) =
          numbered memonum (before.length + 1) rest := by
        have hdrop : memonum - 1 - before.length = memonum - 1 - (before.length + 1) + 1 := by omega
        rw [numbered, hdrop, List.drop_succ_cons, numbered]
      simp only [hhere, decide_false, Bool.false_and, Bool.or_false, Bool.false_eq_true, if_false]
      rw [hnumbered]
      exact hrest

theorem readFrom_read {i numread : Nat} (h : ∀ memo ∈ rest, memo.isRead = true) :
    readFrom a 0 true now s i numread rest = (s, []) := by
  induction rest generalizing i with
  | nil => rfl
  | cons memo rest ih =>
    rw [readFrom, h memo List.mem_cons_self]
    exact ih fun memo' hmemo' => h memo' (List.mem_cons_of_mem memo hmemo')

def unreadFirst (numread : Nat) (rest : List Mymemo) : List Mymemo :=
  (rest.filter fun memo => !memo.isRead).take (MAX_READ_AT_ONCE - numread)

theorem readFrom_new (h : Counted s) (hmemos : (s.users a).memos = before ++ rest) {numread : Nat}
    (hnumread : numread < MAX_READ_AT_ONCE) :
    Kept (readFrom a 0 true now s before.length numread rest) ↔
      ∀ t ∈ (unreadFirst numread rest).findSome? (receiptTo s), ReadRoom s a t := by
  induction rest generalizing s before numread with
  | nil =>
    rw [readFrom, unreadFirst, List.filter_nil, List.take_nil]
    exact ⟨fun _ => nofun, fun _ => kept_nil h⟩
  | cons memo rest ih =>
    cases hread : memo.isRead with
    | true =>
      have hfirst : unreadFirst numread (memo :: rest) = unreadFirst numread rest := by
        rw [unreadFirst, List.filter_cons, hread, unreadFirst]
        rfl
      have hmemos' : (s.users a).memos = (before ++ [memo]) ++ rest := by simpa using hmemos
      have hrest := ih h hmemos' hnumread
      rw [List.length_append, List.length_singleton] at hrest
      rw [hfirst, readFrom, hread]
      exact hrest
    | false =>
      have hfirst : unreadFirst numread (memo :: rest) = memo :: unreadFirst (numread + 1) rest := by
        have htake : MAX_READ_AT_ONCE - numread = MAX_READ_AT_ONCE - (numread + 1) + 1 := by omega
        rw [unreadFirst, List.filter_cons, hread, htake, unreadFirst]
        rfl
      have hkept := readMemo_kept now h hmemos hread
      have hreceipt := readMemo_receipt s before a now hread
      rw [hfirst, readFrom, hread, List.findSome?_cons]
      cases hto : receiptTo s memo with
      | some t =>
        -- The loop ends, by the number of memos or at the node of the receipt.
        rw [hto] at hkept hreceipt
        simp only [Bool.not_false, Bool.and_true, Bool.or_true, if_true, Bool.not_true,
          Bool.false_eq_true, if_false, hreceipt, Option.isSome_some]
        rw [ite_self]
        exact hkept
      | none =>
        rw [hto] at hkept hreceipt
        obtain ⟨hne, hcounts, -⟩ := setRead_counts (h a) hmemos hread
        have htaken : (Obs.taken (s.users a).memoctNew).Fine := hne
        have hcounted : Counted (update s a (setRead before.length)) :=
          (counted_update h).mpr hcounts
        have hmemo : readMemo s a before.length memo now =
            ((update s a (setRead before.length), [.taken (s.users a).memoctNew]), false) := by
          rw [readMemo, hread]
          dsimp only
          rw [if_neg Bool.false_ne_true, receiptTo_setRead, hto]
        have hmemos' : ((update s a (setRead before.length)).users a).memos =
            (before ++ [memo.read]) ++ rest := by
          rw [users_update_self, setRead_memos hmemos, List.append_assoc]
          rfl
        rw [hmemo]
        simp only [Bool.not_false, Bool.and_true, Bool.or_true, if_true, Bool.not_true,
          Bool.false_eq_true, if_false, List.singleton_append]
        by_cases hmore : numread + 1 < MAX_READ_AT_ONCE
        · have hrest := ih hcounted hmemos' hmore
          rw [List.length_append, List.length_singleton, receiptTo_setRead] at hrest
          simp only [readRoom_setRead] at hrest
          simp only [Nat.not_le.mpr hmore, decide_false, Bool.false_and, Bool.false_eq_true,
            if_false, kept_cons htaken]
          exact hrest
        · -- Nobody can get a receipt any more.
          have hnone : unreadFirst (numread + 1) rest = [] := by
            have hzero : MAX_READ_AT_ONCE - (numread + 1) = 0 := by omega
            rw [unreadFirst, hzero, List.take_zero]
          rw [hnone]
          refine ⟨fun _ => nofun, fun _ => ?_⟩
          split
          · exact (kept_cons htaken).mpr (kept_nil hcounted)
          · next hstop =>
            have hzero : ((update s a (setRead before.length)).users a).memoctNew = 0 := by
              by_contra hcount
              apply hstop
              rw [Bool.and_eq_true, decide_eq_true_eq, decide_eq_true_eq]
              exact ⟨Nat.not_lt.mp hmore, hcount⟩
            have hall : ∀ memo' ∈ rest, memo'.isRead = true := by
              have hcount := hcounted a
              rw [Counts, hzero, hmemos', unread] at hcount
              have hnone := List.countP_eq_zero.mp hcount.symm
              intro memo' hmemo'
              simpa using hnone memo' (List.mem_append_right _ hmemo')
            rw [readFrom_read hall]
            exact (kept_cons htaken).mpr (kept_nil hcounted)

theorem memoNumber_new {arg1 : CString} (h : strcaseEq arg1 "NEW".toList = true) :
    memoNumber arg1 = 0 := by
  have hcanon : strcasecanon arg1 = ['N', 'E', 'W'] := of_decide_eq_true h
  cases arg1 with
  | nil => cases hcanon
  | cons c arg =>
    have hc : toupper c = 'N' := (List.cons.inj hcanon).1
    have hletter : c = 'N' ∨ c = 'n' := by
      rw [toupper] at hc
      split_ifs at hc with hsmall
      · right
        have hle : 97 ≤ c.toNat ∧ c.toNat ≤ 122 := hsmall
        have hvalid : (c.toNat - 32).isValidChar := .inl (by omega)
        rw [Char.ofNat, dif_pos hvalid] at hc
        have hval : c.toNat - 32 = 78 := congrArg Char.toNat hc
        exact Char.toNat_inj.mp (show c.toNat = 110 by omega)
      · exact .inl hc
    have hzero : strtol (c :: arg) = 0 := by
      obtain rfl | rfl := hletter <;> rfl
    rw [memoNumber, atoi, hzero]
    rfl

def picked (arg1 : CString) (l : List Mymemo) : List Mymemo :=
  if strcaseEq arg1 "NEW".toList then unreadFirst 0 l
  else if memoNumber arg1 = 0 then []
  else numbered (memoNumber arg1) 0 l

def msCmdReadTo (s : State) (a : Nat) (arg1 : Option CString) : Option Nat :=
  arg1.bind fun arg1 => (picked arg1 (s.users a).memos).findSome? (receiptTo s)

theorem msCmdRead_kept (h : Counted s) (arg1 : Option CString) :
    Kept (msCmdRead s a arg1 now) ↔ ∀ t ∈ msCmdReadTo s a arg1, ReadRoom s a t := by
  cases arg1 with
  | none => exact ⟨fun _ => nofun, fun _ => kept_nil h⟩
  | some arg1 =>
    rw [msCmdReadTo, Option.bind_some, msCmdRead, picked]
    cases hnew : strcaseEq arg1 "NEW".toList with
    | true =>
      rw [memoNumber_new hnew]
      have hall : (s.users a).memos = [] ++ (s.users a).memos := rfl
      have hnone : 0 < MAX_READ_AT_ONCE := by decide
      exact readFrom_new h hall hnone
    | false =>
      simp only [Bool.not_false, Bool.true_and, Bool.false_eq_true, if_false]
      by_cases hzero : memoNumber arg1 = 0
      · rw [hzero]
        exact ⟨fun _ => nofun, fun _ => kept_nil h⟩
      · rw [if_neg hzero]
        by_cases hlen : memoNumber arg1 > (s.users a).memos.length
        · have hnone : numbered (memoNumber arg1) 0 (s.users a).memos = [] := by
            have hle : (s.users a).memos.length ≤ memoNumber arg1 - 1 - 0 := by omega
            rw [numbered, List.drop_eq_nil_of_le hle]
            rfl
          simp only [hlen, decide_true, Bool.or_true, if_true]
          rw [hnone]
          exact ⟨fun _ => nofun, fun _ => kept_nil h⟩
        · simp only [hzero, hlen, decide_false, Bool.or_false, Bool.false_eq_true, if_false]
          have hall : (s.users a).memos = [] ++ (s.users a).memos := rfl
          exact readFrom_number h hall (Nat.pos_of_ne_zero hzero)

theorem deleteFrom_counts (which : Which) (i : Nat) {n : Nat} {memoctNew : BitVec 16}
    (h : memoctNew.toNat = n + unread rest) :
    (deleteFrom which i memoctNew rest).2.1.toNat =
        n + unread (deleteFrom which i memoctNew rest).1 ∧
      ∀ o ∈ (deleteFrom which i memoctNew rest).2.2, o.Fine := by
  induction rest generalizing i n memoctNew with
  | nil => exact ⟨h, nofun⟩
  | cons memo rest ih =>
    have hcons : unread (memo :: rest) = unread rest + if memo.isRead then 0 else 1 := by
      rw [unread, List.countP_cons, unread]
      cases memo.isRead <;> rfl
    rw [hcons] at h
    rw [deleteFrom]
    cases hread : memo.isRead with
    | true =>
      rw [hread] at h
      split
      · exact ih (i + 1) h
      · obtain ⟨hcount, hfine⟩ := ih (i + 1) h
        refine ⟨?_, hfine⟩
        dsimp only
        rw [hcount, unread, unread, List.countP_cons, hread]
        rfl
    | false =>
      rw [hread] at h
      simp only [Bool.false_eq_true, if_false] at h ⊢
      split
      · have hone : (1 : BitVec 16).toNat = 1 := rfl
        have hlt := memoctNew.isLt
        have hless : (memoctNew - 1).toNat = n + unread rest := by
          rw [BitVec.toNat_sub, hone]
          omega
        have htaken : (Obs.taken memoctNew).Fine := by
          intro hzero
          rw [hzero] at h
          have hzero' : (0 : BitVec 16).toNat = 0 := rfl
          omega
        obtain ⟨hcount, hfine⟩ := ih (i + 1) hless
        exact ⟨hcount, List.forall_mem_cons.mpr ⟨htaken, hfine⟩⟩
      · have hmore : memoctNew.toNat = (n + 1) + unread rest := by omega
        obtain ⟨hcount, hfine⟩ := ih (i + 1) hmore
        refine ⟨?_, hfine⟩
        dsimp only
        rw [hcount, unread, unread, List.countP_cons, hread]
        simp only [Bool.not_false, if_true]
        omega

theorem msCmdDelete_kept (h : Counted s) (arg1 : Option CString) : Kept (msCmdDelete s a arg1) := by
  rw [msCmdDelete]
  split
  · exact kept_nil h
  · next which _ =>
    have hself : (s.users a).memoctNew.toNat = 0 + unread (s.users a).memos := by
      rw [Nat.zero_add]
      exact h a
    obtain ⟨hcount, hfine⟩ := deleteFrom_counts which 0 hself
    rw [Nat.zero_add] at hcount
    refine ⟨?_, hfine⟩
    dsimp only
    rw [counted_update h]
    exact hcount

end reading

/-! ### Runs -/

def Countable (s : State) (t : Nat) : Prop := unread (s.users t).memos + 1 < 2 ^ 16

/-- A memo that a step is about to add leaves the counter what it can count, and where FORWARD or
READ adds it, the inbox has fewer than `maxmemos` memos. -/
def Within (s : State) : Event → Prop
  | .sendUserMemo smu target memotext _ _ =>
    ∀ t ∈ sendUserMemoTo s smu target memotext, Countable s t
  | .sendUserMemoMisc target memotext _ _ => ∀ t ∈ sendUserMemoMiscTo s target memotext, Countable s t
  | .send smu tmu m flood now => ∀ t ∈ msCmdSendTo s smu tmu m flood now, Countable s t
  | .forward smu tmu arg flood now => ∀ t ∈ msCmdForwardTo s smu tmu arg flood now, Room s t
  | .read smu arg1 _ => ∀ t ∈ msCmdReadTo s smu arg1, ReadRoom s smu t
  | .load dest _ _ status _ => ∀ t ∈ s.myuserFind dest, status &&& MEMO_READ = 0 → Countable s t
  | _ => True

section runs
variable {s : State}

theorem room_iff {o : Option Nat} (h : ∀ t ∈ o, isOpen s t = true) :
    (∀ t ∈ o, Room s t) ↔ ∀ t ∈ o, Countable s t :=
  forall₂_congr fun t ht => and_iff_right (isOpen_length (h t ht))

theorem sendUserMemoTo_open {smu target : Option Nat} {memotext : Option CString} :
    ∀ t ∈ sendUserMemoTo s smu target memotext, isOpen s t = true := by
  intro t ht
  rw [Option.mem_def, sendUserMemoTo.eq_def] at ht
  split at ht
  · split_ifs at ht with _ hopen
    obtain rfl := Option.some.inj ht
    rw [Bool.and_eq_true] at hopen
    exact hopen.1
  · cases ht

theorem sendUserMemoMiscTo_open {target : Option Nat} {memotext : Option CString} :
    ∀ t ∈ sendUserMemoMiscTo s target memotext, isOpen s t = true := by
  intro t ht
  rw [Option.mem_def, sendUserMemoMiscTo.eq_def] at ht
  split at ht
  · split_ifs at ht with hopen
    obtain rfl := Option.some.inj ht
    rw [Bool.and_eq_true] at hopen
    exact hopen.2
  · cases ht

theorem msCmdSendTo_open {smu : Nat} {tmu : Option Nat} {m : Option CString} {flood : Bool}
    {now : Int} : ∀ t ∈ msCmdSendTo s smu tmu m flood now, isOpen s t = true := by
  intro t ht
  rw [Option.mem_def, msCmdSendTo.eq_def] at ht
  split at ht
  · cases ht
  · split_ifs at ht
    split at ht
    · cases ht
    · split_ifs at ht
      exact sendUserMemoTo_open t ht

theorem load_kept (h : Counted s) (dest src text : CString) (sent : Int) (status : BitVec 32) :
    Kept (corestorageHMe s dest src sent status text, []) ↔
      ∀ t ∈ s.myuserFind dest, status &&& MEMO_READ = 0 → Countable s t := by
  rw [corestorageHMe]
  cases s.myuserFind dest with
  | none => exact ⟨fun _ => nofun, fun _ => kept_nil h⟩
  | some a =>
    have hmem : ∀ P : Nat → Prop, (∀ t ∈ some a, P t) ↔ P a := by simp
    rw [hmem, Kept, and_iff_left (by nofun)]
    dsimp only
    rw [counted_update h]
    by_cases hstatus : status &&& MEMO_READ = 0
    · have hunread : (Mymemo.mk (truncate NICKLEN src) (truncate MEMOLEN text) sent status).isRead =
          false := decide_eq_false (not_not.mpr hstatus)
      rw [hunread]
      refine (counts_nodeAdd (h a) hunread).trans ⟨fun hlt _ => hlt, fun hlt => hlt hstatus⟩
    · have hread : (Mymemo.mk (truncate NICKLEN src) (truncate MEMOLEN text) sent status).isRead =
          true := decide_eq_true hstatus
      rw [hread]
      refine ⟨fun _ hzero => absurd hzero hstatus, fun _ => ?_⟩
      rw [Counts, unread, List.countP_append, List.countP_singleton, hread]
      exact h a

theorem step_kept (h : Counted s) (e : Event) : Kept (step s e) ↔ Within s e := by
  have hsame : ∀ {a f}, (∀ mu, (f mu).memos = mu.memos) → (∀ mu, (f mu).memoctNew = mu.memoctNew) →
      (Kept (update s a f, []) ↔ True) := by
    intro a f hmemos hmemoct
    refine iff_true_intro ⟨(counted_update h).mpr ?_, nofun⟩
    rw [Counts, hmemos, hmemoct]
    exact h a
  cases e with
  | sendUserMemo smu target memotext channel now =>
    exact (sendUserMemo_kept h .refl smu target memotext channel).trans
      (room_iff sendUserMemoTo_open)
  | sendUserMemoMisc target memotext channel now =>
    exact (sendUserMemoMisc_kept h target memotext channel).trans (room_iff sendUserMemoMiscTo_open)
  | send smu tmu m flood now => exact (msCmdSend_kept h tmu m flood).trans (room_iff msCmdSendTo_open)
  | forward smu tmu arg flood now => exact msCmdForward_kept h tmu arg flood
  | read smu arg1 now => exact msCmdRead_kept h arg1
  | delete smu arg1 => exact iff_true_intro (msCmdDelete_kept h arg1)
  | load dest src sent status text => exact load_kept h dest src text sent status
  | fresh a =>
    have hcounted : Counted (update s a fun _ => .blank) := (counted_update h).mpr counts_blank
    exact iff_true_intro ⟨hcounted, nofun⟩
  | account a name nomemo waitauth logins memoIgnores => exact hsame (fun _ => rfl) fun _ => rfl
  | names myuserFind mynickFind => exact iff_true_intro ⟨h, nofun⟩
  | conf conf => exact iff_true_intro ⟨h, nofun⟩

end runs

/-- Along every run, the counters are right in every state, nothing is taken off a zero and no
command adds to a full inbox, exactly if every step is within. -/
theorem inbox_kept_iff (conf : Conf) (es : List Event) :
    (∀ fs, fs <+: es → Counted (run step (.start conf) fs).1 ∧
      ∀ o ∈ (run step (.start conf) fs).2, o.Fine) ↔ Guarded step Within (.start conf) es :=
  run_states_iff (I := Counted) (fun _ e hs => step_kept hs e) (fun _ => counts_blank) es

/-- Memos of one may hold 30, but of `maxmemos` only one. -/
def Conf.small : Conf := ⟨1, 30, false, "MemoServ".toList, fun _ => "today".toList⟩

/-- Bob's inbox is full after one memo, and Alice forwards him another. -/
theorem forward_to_full_inbox :
    let es := [.account 1 "alice".toList false false 0 [], .account 2 "bob".toList false false 0 [],
      .send 1 (some 2) (some "hi".toList) false 1000, .send 2 (some 1) (some "hello".toList) false 1000,
      .forward 1 (some 2) (some "1".toList) false 1000]
    ¬ ∀ fs, fs <+: es → Counted (run step (.start .small) fs).1 ∧
      ∀ o ∈ (run step (.start .small) fs).2, o.Fine := by
  intro es h
  have hfine := (h es (List.prefix_refl es)).2 (.added 1 1) (by decide +kernel)
  exact Nat.lt_irrefl 1 hfine

end ChatServices.MemoServ
