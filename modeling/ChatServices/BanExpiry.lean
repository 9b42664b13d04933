import ChatServices.Lib.Sweep
import ChatServices.Bans
import ChatServices.Match

/-! The expiry timers, over the nodes of their lists. `kline_expire` takes the node at hand off;
the timers of X-lines and Q-lines search their list once more, with the text of the ban at hand,
and take off what they find. -/
namespace ChatServices.BanExpiry
open ChatServices.Lib ChatServices.Lib.Walk ChatServices.Lib.Sweep ChatServices.Match
open ChatServices.Text

abbrev BanNode (α : Type) := Nat × Ban α

abbrev Klines := NodeList (BanNode (CString × CString))

abbrev Lines := NodeList (BanNode CString)

def klineDelete (s : Klines) (k : BanNode (CString × CString)) : Klines := s.remove k

def klineExpire (now : Nat) (s : Klines) : Option Klines :=
  walkSafe NodeList.items
    (fun s k => some (if k.2.expired now then klineDelete s k else s)) s.items.length s.items.head? s

section lines
variable (cm : CaseMapping)

def xlineFind (xs : List (BanNode CString)) (realname : CString) : Option (BanNode CString) :=
  xs.find? (fun x => matchMask cm x.2.mask realname)

def xlineDelete (s : Lines) (realname : CString) : Lines :=
  match xlineFind cm s.items realname with
  | some x => s.remove x
  | none => s

/-- `none` where the loop reads a node that has been freed. -/
def xlineExpire (now : Nat) (s : Lines) : Option Lines :=
  walkSafe NodeList.items
    (fun s x => some (if x.2.expired now then xlineDelete cm s x.2.mask else s))
    s.items.length s.items.head? s

def qlineFind (qs : List (BanNode CString)) (mask : CString) : Option (BanNode CString) :=
  qs.find? (fun q => irccaseEq cm q.2.mask mask)

def qlineDelete (s : Lines) (mask : CString) : Lines :=
  match qlineFind cm s.items mask with
  | some q => s.remove q
  | none => s

def qlineExpire (now : Nat) (s : Lines) : Option Lines :=
  walkSafe NodeList.items
    (fun s q => some (if q.2.expired now then qlineDelete cm s q.2.mask else s))
    s.items.length s.items.head? s

end lines

/-! ### What should go -/

def unexpired {α : Type} (now : Nat) (s : NodeList (BanNode α)) : NodeList (BanNode α) :=
  kept (fun n => n.2.expired now) s

def TextsApart (hits : CString → CString → Bool) (now : Nat) (s : Lines) : Prop :=
  ∀ before x after, s.items = before ++ x :: after → x.2.expired now = true →
    hits x.2.mask x.2.mask = true ∧
      ∀ y ∈ before, y.2.expired now = false → hits y.2.mask x.2.mask = false

def MasksApart (cm : CaseMapping) (now : Nat) (s : Lines) : Prop :=
  ∀ before q after, s.items = before ++ q :: after → q.2.expired now = true →
    ∀ y ∈ before, y.2.expired now = false → irccaseEq cm y.2.mask q.2.mask = false

variable {cm : CaseMapping} {now : Nat} {s : Lines}

theorem expire_iff {hits : CString → CString → Bool} :
    sweep (fun x : BanNode CString => x.2.expired now)
        (fun xs x => xs.find? (fun y => hits y.2.mask x.2.mask)) s = some (unexpired now s) ↔
      TextsApart hits now s :=
  sweep_iff.trans finds_iff_of_search

theorem klineExpire_eq (now : Nat) (s : Klines) : klineExpire now s = some (unexpired now s) := by
  have hsweep : klineExpire now s = sweep (fun k => k.2.expired now) (fun _ k => some k) s := rfl
  rw [hsweep, unexpired, sweep_iff]
  intro before k rest hs hdue
  rfl

theorem xlineExpire_iff :
    xlineExpire cm now s = some (unexpired now s) ↔ TextsApart (matchMask cm) now s := by
  have hbody : (fun (s : Lines) (x : BanNode CString) =>
      some (if x.2.expired now then xlineDelete cm s x.2.mask else s)) =
        sweepBody (fun x => x.2.expired now)
          (fun xs x => xs.find? (fun y => matchMask cm y.2.mask x.2.mask)) := by
    funext s x
    rw [sweepBody, xlineDelete, xlineFind]
    cases s.items.find? (fun y => matchMask cm y.2.mask x.2.mask) <;> rfl
  rw [xlineExpire, hbody, ← expire_iff, sweep]

theorem qlineExpire_iff :
    qlineExpire cm now s = some (unexpired now s) ↔ MasksApart cm now s := by
  have hbody : (fun (s : Lines) (q : BanNode CString) =>
      some (if q.2.expired now then qlineDelete cm s q.2.mask else s)) =
        sweepBody (fun q => q.2.expired now)
          (fun qs q => qs.find? (fun y => irccaseEq cm y.2.mask q.2.mask)) := by
    funext s q
    rw [sweepBody, qlineDelete, qlineFind]
    cases s.items.find? (fun y => irccaseEq cm y.2.mask q.2.mask) <;> rfl
  have hlines : qlineExpire cm now s = some (unexpired now s) ↔ TextsApart (irccaseEq cm) now s := by
    rw [qlineExpire, hbody, ← expire_iff, sweep]
  rw [hlines]
  constructor
  · intro h before q after hs hq
    exact (h before q after hs hq).2
  · intro h before q after hs hq
    exact ⟨irccaseEq_self cm q.2.mask, h before q after hs hq⟩

/-- K-lines expire exactly. X-lines do if and only if no X-line that stays takes the place of an
expired one in the search, which has to find its own text, and Q-lines if and only if no Q-line
that stays has the mask of an expired one behind it. -/
theorem line_expiry_exact_iff (cm : CaseMapping) (now : Nat) (xs qs : Lines) (ks : Klines) :
    (xlineExpire cm now xs = some (unexpired now xs) ↔ TextsApart (matchMask cm) now xs) ∧
      (qlineExpire cm now qs = some (unexpired now qs) ↔ MasksApart cm now qs) ∧
      klineExpire now ks = some (unexpired now ks) :=
  ⟨xlineExpire_iff, qlineExpire_iff, klineExpire_eq now ks⟩

/- A permanent X-line for every real name, and an expired one behind it. -/
def starLines : Lines :=
  ⟨[(1, ⟨"*".toList, 1, 0, 0, 0⟩), (2, ⟨"spam".toList, 2, 60, 10, 70⟩)], by decide⟩

/-- The permanent X-line goes, and the expired one stays. -/
theorem permanent_xline_goes :
    (xlineExpire .rfc1459 100 starLines).map (fun s => s.items.map Prod.fst) = some [2] ∧
      (unexpired 100 starLines).items.map Prod.fst = [1] := by
  decide +kernel

end ChatServices.BanExpiry
