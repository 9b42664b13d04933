import ChatServices.Modes.StackOps

/-! Whole runs of the mode stack: the lines that have come in when it is flushed do to the channels
what was asked for, call by call. -/
namespace ChatServices.Modes
open ChatServices.Lib ChatServices.Lib.Mask ChatServices.Text ChatServices.ChanServ
  ChatServices.ChanServ.Channels ChatServices.Storage

section run
variable {κ : Type*} [DecidableEq κ] (t : Tables) (cm : CaseMapping) (name : κ → CString)

def deliver (v : View) (chans : κ → Channel) : Sent κ → κ → Channel
  | .mode _ (some c) text => Function.update chans c (channelMode t.toIrcd v (chans c) (words text))
  | .mode _ none _ => chans
  | .overflow _ => chans

def Call.channel? : Call κ → Option κ
  | .simple _ c _ _ | .limit _ c _ _ | .ext _ c _ _ _ | .param _ c _ _ _ => some c
  | .flush _ => none

/-- The changes that a call asks for: simple modes that the protocol module does not know and
extended modes beyond its list are none, and a limit of 0 is no limit. -/
def asks : Call κ → List ModeChange
  | .simple _ _ add flags => t.simples add flags
  | .limit _ _ add limit => [.limit (limitValue (if add then limit else 0))]
  | .ext _ _ add i value =>
    if i < t.ignoreModeList.length then [.ext i (if add then some value else none)] else []
  | .param _ _ add type value => (parseMode t.toIrcd add type [value]).1
  | .flush _ => []

def asked (v : View) (chans : κ → Channel) (call : Call κ) : κ → Channel :=
  match call.channel? with
  | none => chans
  | some c => Function.update chans c (changes v (chans c) (asks t call))

/-- What `modestack_calclen` takes a line without modes to need. -/
def lineLength (source : CString) (channel : κ) : Nat :=
  (truncate hostlen source).length + userlen + hostlen + 1 + 4 + 1 + 10 + (name channel).length + 1 + 2 + 32

/-- A mode that can be asked for: the index is not that of the entry that ends the list, the type is
one of a list, of the key or of a status, and the parameter fits a line that has no other. -/
def Fits : Call κ → Prop
  | .simple .. => True
  | .limit .. => True
  | .ext source channel add i value => i ≠ t.ignoreModeList.length ∧
      (add = true → IsArg value ∧ lineLength name source channel + 1 + value.length ≤ 512)
  | .param source channel _ type value => t.IsParam type ∧ IsArg value ∧
      lineLength name source channel + 3 + value.length ≤ 512
  | .flush _ => True

instance : DecidablePred (Fits t name)
  | .simple .. => inferInstanceAs (Decidable True)
  | .limit .. => inferInstanceAs (Decidable True)
  | .ext .. => inferInstanceAs (Decidable (_ ∧ (_ → _)))
  | .param .. => inferInstanceAs (Decidable (_ ∧ _ ∧ _))
  | .flush _ => inferInstanceAs (Decidable True)

/-- A MODE line for a channel, with at most `MAXMODES` modes that count. -/
def GoodLine (s : Sent κ) : Prop := ∃ channel, ModeLine t (some channel) s

def view (v : View) (md : Modestackdata κ) (items : List Item) (chans : κ → Channel) : κ → Channel :=
  match md.channel with
  | none => chans
  | some c => Function.update chans c (held t md v items (chans c))

structure RunOk (md : Modestackdata κ) (items : List Item) : Prop where
  ok : StackOk t md items
  idle : md.channel = none → md = emptyStack ∧ items = []

variable {t cm name} {md : Modestackdata κ} {items : List Item}

omit [DecidableEq κ] in
theorem le_lineLength (name : κ → CString) (source : CString) (c : κ) : 127 ≤ lineLength name source c := by
  rw [lineLength, userlen, hostlen]
  omega

theorem deliver_lines (v : View) {c : κ} (out : List (Sent κ)) (h : ∀ s ∈ out, ModeLine t (some c) s)
    (chans : κ → Channel) :
    out.foldl (deliver t v) chans = Function.update chans c (deliverTo t v (chans c) out) := by
  induction out generalizing chans with
  | nil => exact (Function.update_eq_self c chans).symm
  | cons s out ih =>
    obtain ⟨source, text, rfl, -⟩ := h s List.mem_cons_self
    rw [List.foldl_cons, ih fun s hs => h s (List.mem_cons_of_mem _ hs), deliver, Function.update_idem,
      Function.update_self]
    rfl

theorem view_some (v : View) {c : κ} (h : md.channel = some c) (chans : κ → Channel) :
    view t v md items chans = Function.update chans c (held t md v items (chans c)) := by
  rw [view, h]

theorem Sends.view {md' : Modestackdata κ} {items' : List Item} {out : List (Sent κ)}
    {xs : List ModeChange} (h : Sends t md items md' items' out xs) {c : κ} (hc : md.channel = some c)
    (v : View) (chans : κ → Channel) :
    view t v md' items' (out.foldl (deliver t v) chans) =
      Function.update (view t v md items chans) c (changes v (view t v md items chans c) xs) := by
  rw [view_some v (h.channel.trans hc), view_some v hc, deliver_lines v out (hc ▸ h.lines),
    Function.update_idem, Function.update_idem, Function.update_self, Function.update_self, h.held]

theorem view_of_pending_nil (v : View) (h : pending t md items = []) (chans : κ → Channel) :
    view t v md items chans = chans := by
  rw [view]
  cases md.channel with
  | none => rfl
  | some c =>
    have hheld : held t md v items (chans c) = chans c := by
      rw [held, h, changes_nil]
    simp only [hheld, Function.update_eq_self]

/-! ### The first call -/

omit [DecidableEq κ] in
variable (t) in
theorem emptyStack_ok : RunOk t (emptyStack : Modestackdata κ) [] ∧
    pending t (emptyStack : Modestackdata κ) [] = [] := by
  have hclear : clear t (emptyStack : Modestackdata κ) = emptyStack := by
    have hused : (fun i => if i < ignoreModeListSize t then false else false) = fun _ : Nat => false := by
      funext i
      exact ite_self _
    have hexts : (fun i => if i < ignoreModeListSize t then [] else []) = fun _ : Nat => ([] : CString) := by
      funext i
      exact ite_self _
    show ({ emptyStack with
      extmodesused := fun i => if i < ignoreModeListSize t then false else false
      extmodes := fun i => if i < ignoreModeListSize t then [] else [] } : Modestackdata κ) = emptyStack
    rw [hused, hexts]
    rfl
  have hcleared : StackOk t (clear t (emptyStack : Modestackdata κ)) [] ∧
      pending t (clear t (emptyStack : Modestackdata κ)) [] = [] :=
    clear_ok fun i hi => absurd hi Bool.false_ne_true
  rw [hclear] at hcleared
  obtain ⟨hok, hp⟩ := hcleared
  exact ⟨⟨hok, fun _ => ⟨rfl, rfl⟩⟩, hp⟩

omit [DecidableEq κ] in
variable (t) in
theorem flush_emptyStack : flush t (emptyStack : Modestackdata κ) = (emptyStack, []) := by
  have hletters : ∀ add b, flushLetters t add 0#32 (emptyStack : Modestackdata κ) b = b := by
    intro add b
    have hfold : ∀ l : List Nat, l.foldl (fun (b : Buf) i =>
        if (emptyStack : Modestackdata κ).extmodesused i ∧
          ((emptyStack : Modestackdata κ).extmodes i ≠ [] ↔ add = true)
        then (b.turn add).letter (extLetter t i) else b) b = b := by
      intro l
      induction l with
      | nil => rfl
      | cons i l ih =>
        rw [List.foldl_cons, if_neg fun h => Bool.false_ne_true h.1]
        exact ih
    exact hfold _
  have hpmodes : flushPmodes (emptyStack : Modestackdata κ) ⟨[], none⟩ = ⟨[], none⟩ := rfl
  rw [flush]
  have hon : (emptyStack : Modestackdata κ).modesOn = 0#32 := rfl
  have hoff : (emptyStack : Modestackdata κ).modesOff = 0#32 := rfl
  rw [hon, hoff, hletters, hletters, hpmodes, if_pos rfl]

omit [DecidableEq κ] in
variable (t) in
theorem flushIf_emptyStack (cond : Bool) :
    flushIf t cond (emptyStack : Modestackdata κ) = (emptyStack, []) := by
  cases cond with
  | true => exact flush_emptyStack t
  | false => rfl

variable (cm) in
theorem init_spec (h : RunOk t md items) (source : CString) (c : κ) :
    ∃ items', StackOk t (init t cm source c md).1 items' ∧ (init t cm source c md).1.channel = some c ∧
      (∀ v chans, view t v (init t cm source c md).1 items' ((init t cm source c md).2.foldl (deliver t v) chans) =
        view t v md items chans) ∧
      ∀ s ∈ (init t cm source c md).2, GoodLine t s := by
  have hrename : ∀ (md : Modestackdata κ) items source (channel : Option κ), StackOk t md items →
      StackOk t { md with source := source, channel := channel } items :=
    fun _ _ _ _ h => ⟨h.pmodes, h.params, h.items_ok, h.exts, h.extmodes, h.count, h.room, h.stale⟩
  rw [init]
  dsimp only
  generalize hcond : (!irccaseEq cm source md.source || decide (md.channel ≠ some c)) = cond
  cases hc : md.channel with
  | none =>
    obtain ⟨rfl, rfl⟩ := h.idle hc
    rw [flushIf_emptyStack]
    refine ⟨[], hrename _ _ _ _ h.ok, rfl, ?_, by simp⟩
    intro v chans
    have hp : pending t (emptyStack : Modestackdata κ) [] = [] := (emptyStack_ok t).2
    refine view_of_pending_nil v ?_ chans
    exact hp
  | some c' =>
    obtain ⟨items', hsend, hdrain, hsame⟩ := flushIf_spec h.ok cond
    refine ⟨items', hrename _ _ _ _ hsend.ok, rfl, ?_, fun s hs => ⟨c', hc ▸ hsend.lines s hs⟩⟩
    intro v chans
    have hview := hsend.view hc v chans
    rw [changes_nil, Function.update_eq_self] at hview
    rw [← hview]
    cases cond with
    | true =>
      have hp := hdrain rfl
      rw [view_of_pending_nil v hp]
      refine view_of_pending_nil v ?_ _
      exact hp
    | false =>
      -- the same channel as before
      rw [Bool.or_eq_false_iff, decide_eq_false_iff_not, not_not] at hcond
      have hflush : flushIf t false md = (md, []) := rfl
      rw [hflush, view_some v hcond.2]
      rfl

/-! ### The run -/

theorem step_spec (h : RunOk t md items) (call : Call κ) (hfits : Fits t name call) :
    ∃ items', RunOk t (stackStep t cm name md call).1 items' ∧
      (∀ v chans, view t v (stackStep t cm name md call).1 items'
        ((stackStep t cm name md call).2.foldl (deliver t v) chans) =
          asked t v (view t v md items chans) call) ∧
      ∀ s ∈ (stackStep t cm name md call).2, GoodLine t s := by
  -- a call for a channel: what it adds after `modestack_init` is what it asks for
  have hcall : ∀ source c (op : Modestackdata κ → Modestackdata κ × List (Sent κ)) (xs : List ModeChange),
      (∀ md items, StackOk t md items → ∃ items', Sends t md items (op md).1 items' (op md).2 xs) →
      ∃ items', RunOk t (op (init t cm source c md).1).1 items' ∧
        (∀ v chans, view t v (op (init t cm source c md).1).1 items'
          (((init t cm source c md).2 ++ (op (init t cm source c md).1).2).foldl (deliver t v) chans) =
            Function.update (view t v md items chans) c (changes v (view t v md items chans c) xs)) ∧
        ∀ s ∈ (init t cm source c md).2 ++ (op (init t cm source c md).1).2, GoodLine t s := by
    intro source c op xs hop
    obtain ⟨items₁, hok, hchannel, hinit, hlines⟩ := init_spec cm h source c
    obtain ⟨items₂, hsend⟩ := hop _ _ hok
    refine ⟨items₂, ⟨hsend.ok, ?_⟩, ?_, ?_⟩
    · intro hnone
      rw [hsend.channel, hchannel] at hnone
      cases hnone
    · intro v chans
      rw [List.foldl_append, hsend.view hchannel, hinit]
    · intro s hs
      obtain hs | hs := List.mem_append.mp hs
      · exact hlines s hs
      · exact ⟨c, hchannel ▸ hsend.lines s hs⟩
  cases call with
  | simple source c add flags =>
    by_cases hzero : flags = 0#32
    · have hstep : stackStep t cm name md (.simple source c add flags) = (md, []) := if_pos hzero
      have hnone : asks t (.simple source c add flags) = [] := by
        show t.simples add flags = []
        rw [hzero, Tables.simples]
        simp
      rw [hstep]
      refine ⟨items, h, ?_, by simp⟩
      intro v chans
      rw [asked, hnone]
      exact (Function.update_eq_self c _).symm
    · have hstep : stackStep t cm name md (.simple source c add flags) =
          (addSimple add flags (init t cm source c md).1, (init t cm source c md).2 ++ []) := by
        rw [List.append_nil]
        exact if_neg hzero
      rw [hstep]
      exact hcall source c (fun md => (addSimple add flags md, [])) (t.simples add flags)
        fun md items h => ⟨items, addSimple_spec h add flags⟩
  | limit source c add limit =>
    exact hcall source c (addLimit t name add limit) _ fun md items h => addLimit_spec name h add limit
  | ext source c add i value =>
    obtain ⟨hi, hvalue⟩ := hfits
    by_cases hsize : i ≥ ignoreModeListSize t
    · have hstep : stackStep t cm name md (.ext source c add i value) =
          ((init t cm source c md).1, (init t cm source c md).2 ++ []) := by
        rw [List.append_nil]
        exact if_pos hsize
      have hnone : asks t (.ext source c add i value) = [] := by
        rw [ignoreModeListSize] at hsize
        exact if_neg (by omega)
      rw [hstep]
      have hall := hcall source c (fun md => (md, [])) [] fun md items h => ⟨items, h.sends⟩
      rw [← hnone] at hall
      exact hall
    · have hstep : stackStep t cm name md (.ext source c add i value) =
          ((addExt t name add i value (init t cm source c md).1).1,
            (init t cm source c md).2 ++ (addExt t name add i value (init t cm source c md).1).2) :=
        if_neg hsize
      have hlt : i < t.ignoreModeList.length := by
        rw [ignoreModeListSize] at hsize
        omega
      have hasks : asks t (.ext source c add i value) = [.ext i (extValue (if add then value else []))] := by
        show (if i < t.ignoreModeList.length then _ else _) = _
        rw [if_pos hlt, extValue]
        cases add
        · rfl
        · rw [if_pos rfl, if_pos rfl, if_neg (hvalue rfl).1.1]
      have hroom : add = true → ' ' ∉ value ∧ 1 + value.length ≤ 385 := by
        intro hadd
        obtain ⟨harg, hlen⟩ := hvalue hadd
        have hline := le_lineLength name source c
        exact ⟨harg.2, by omega⟩
      rw [hstep]
      have hall := hcall source c (addExt t name add i value) _
        fun md items h => addExt_spec name h add hlt hroom
      rw [← hasks] at hall
      exact hall
  | param source c add type value =>
    obtain ⟨ht, hv, hlen⟩ := hfits
    have hline := le_lineLength name source c
    exact hcall source c (addParam t name add type value) _
      fun md items h => addParam_spec name h add ht hv (by omega)
  | flush channel =>
    simp only [stackStep]
    generalize decide (channel = none ∨ channel = md.channel) = cond
    cases hc : md.channel with
    | none =>
      obtain ⟨rfl, rfl⟩ := h.idle hc
      rw [flushIf_emptyStack]
      exact ⟨[], h, fun _ _ => rfl, by simp⟩
    | some c =>
      obtain ⟨items', hsend, -⟩ := flushIf_spec h.ok cond
      refine ⟨items', ⟨hsend.ok, ?_⟩, ?_, fun s hs => ⟨c, hc ▸ hsend.lines s hs⟩⟩
      · intro hnone
        rw [hsend.channel, hc] at hnone
        cases hnone
      · intro v chans
        have hview := hsend.view hc v chans
        rwa [changes_nil, Function.update_eq_self] at hview

variable (cm) in
theorem run_spec (calls : List (Call κ)) (hfits : ∀ call ∈ calls, Fits t name call)
    (h : RunOk t md items) :
    ∃ items', RunOk t (Run.run (stackStep t cm name) md calls).1 items' ∧
      (∀ v chans, view t v (Run.run (stackStep t cm name) md calls).1 items'
        ((Run.run (stackStep t cm name) md calls).2.foldl (deliver t v) chans) =
          calls.foldl (asked t v) (view t v md items chans)) ∧
      ∀ s ∈ (Run.run (stackStep t cm name) md calls).2, GoodLine t s := by
  induction calls generalizing md items with
  | nil => exact ⟨items, h, fun _ _ => rfl, by simp⟩
  | cons call calls ih =>
    obtain ⟨items₁, h₁, hview₁, hlines₁⟩ := step_spec h call (hfits call List.mem_cons_self)
    obtain ⟨items₂, h₂, hview₂, hlines₂⟩ := ih (fun c hc => hfits c (List.mem_cons_of_mem call hc)) h₁
    refine ⟨items₂, h₂, ?_, ?_⟩
    · intro v chans
      rw [Run.run_cons, List.foldl_append, hview₂, hview₁]
      rfl
    · intro s hs
      rw [Run.run_cons] at hs
      obtain hs | hs := List.mem_append.mp hs
      · exact hlines₁ s hs
      · exact hlines₂ s hs

/-- The lines of a whole run, once the stack is flushed, do to every channel what the calls asked
for one by one; each has at most `MAXMODES` modes that count, and nothing runs into the overflow. -/
theorem modes_stacked (t : Tables) (cm : CaseMapping) (name : κ → CString) (calls : List (Call κ))
    (hfits : ∀ call ∈ calls, Fits t name call) :
    (∀ (v : View) (chans : κ → Channel),
      (Run.run (stackStep t cm name) emptyStack (calls ++ [.flush none])).2.foldl (deliver t v) chans =
        calls.foldl (asked t v) chans) ∧
    ∀ s ∈ (Run.run (stackStep t cm name) emptyStack (calls ++ [.flush none])).2,
      ∃ source channel text, s = .mode source (some channel) text ∧
        (lineChanges t.toIrcd text).countP parameterised ≤ maxModes := by
  have hempty : RunOk t (emptyStack : Modestackdata κ) [] := (emptyStack_ok t).1
  obtain ⟨items, h, hview, hlines⟩ := run_spec cm calls hfits hempty
  have hout : (Run.run (stackStep t cm name) emptyStack (calls ++ [.flush none])).2 =
      (Run.run (stackStep t cm name) emptyStack calls).2 ++
        (flush t (Run.run (stackStep t cm name) emptyStack calls).1).2 := by
    rw [Run.run_append, Run.run_cons, Run.run_nil, List.append_nil]
    rfl
  rw [hout]
  generalize Run.run (stackStep t cm name) emptyStack calls = r at h hview hlines ⊢
  obtain ⟨hsend, hp⟩ := flush_spec h.ok
  cases hc : r.1.channel with
  | none =>
    obtain ⟨hnone, -⟩ := h.idle hc
    rw [hnone, flush_emptyStack, List.append_nil]
    refine ⟨?_, ?_⟩
    · intro v chans
      have hall := hview v chans
      rwa [view, hc] at hall
    · intro s hs
      obtain ⟨c, source, text, hline⟩ := hlines s hs
      exact ⟨source, c, text, hline⟩
  | some c =>
    refine ⟨?_, ?_⟩
    · intro v chans
      have hflush := hsend.view hc v (r.2.foldl (deliver t v) chans)
      rw [changes_nil, Function.update_eq_self, view_of_pending_nil v hp, hview] at hflush
      rw [List.foldl_append]
      exact hflush
    · intro s hs
      obtain hs | hs := List.mem_append.mp hs
      · obtain ⟨c, source, text, hline⟩ := hlines s hs
        exact ⟨source, c, text, hline⟩
      · obtain ⟨source, text, hline⟩ := hsend.lines s hs
        exact ⟨source, c, text, hc ▸ hline⟩

end run

/-! Charybdis, with a run that goes from one channel to another and is flushed in between. -/

def charybdis : Tables where
  usesOwner := false
  usesProtect := false
  usesHalfops := false
  ownerMode := 0#32
  protectMode := 0#32
  halfopsMode := 0#32
  ownerMchar := "+".toList
  protectMchar := "+".toList
  halfopsMchar := "+".toList
  permMode := 0x20000#32
  oimmuneMode := 0x4000000#32
  banLikeModes := ['b', 'e', 'I', 'q']
  exceptMchar := some 'e'
  invexMchar := some 'I'
  modeList := [('i', cmodeInvite), ('m', 0x8#32), ('n', 0x10#32), ('p', 0x40#32), ('s', 0x80#32),
    ('t', 0x100#32), ('r', 0x2000#32), ('z', 0x4000#32), ('g', 0x8000#32), ('L', 0x10000#32),
    ('P', 0x20000#32), ('F', 0x40000#32), ('Q', 0x80000#32), ('N', 0x200000#32), ('S', 0x400000#32),
    ('O', 0x800000#32), ('A', 0x1000000#32), ('c', 0x1000#32), ('C', 0x100000#32),
    ('T', 0x2000000#32), ('M', 0x4000000#32)]
  ignoreModeList := ['f', 'j']
  statusModeList := [('o', cstatusOp), ('v', cstatusVoice)]
  prefixModeList := [('@', cstatusOp), ('+', cstatusVoice)]
  owner_bit := mode_none cstatusOwner
  protect_bit := mode_none cstatusProtect
  halfops_bit := mode_none cstatusHalfop
  status_nodup := by decide
  simple_bit := by decide
  simple_same := by decide
  simple_apart := by decide
  simple_short := by decide
  letters_nodup := by decide

def stackCalls : List (Call CString) :=
  [.simple "ChanServ".toList "#a".toList true 0x118#32, .limit "ChanServ".toList "#a".toList true 20#32,
    .simple "ChanServ".toList "#a".toList false 0x8#32,
    .param "ChanServ".toList "#a".toList false 'o' "1ABAAAAAB".toList,
    .param "ChanServ".toList "#a".toList true 'b' "*!*@host".toList,
    .ext "ChanServ".toList "#a".toList true 1 "5:10".toList,
    .param "ChanServ".toList "#a".toList true 'k' "key".toList, .flush (some "#a".toList),
    .param "ChanServ".toList "#b".toList true 'o' "1ABAAAAAB".toList,
    .limit "OperServ".toList "#b".toList false 0#32]

example : (Run.run (stackStep charybdis .rfc1459 id) emptyStack (stackCalls ++ [.flush none])).2 =
    [.mode "ChanServ".toList (some "#a".toList) "-m+ntlj-o+b 20 5:10 1ABAAAAAB *!*@host".toList,
      .mode "ChanServ".toList (some "#a".toList) "+k key".toList,
      .mode "ChanServ".toList (some "#b".toList) "+o 1ABAAAAAB".toList,
      .mode "OperServ".toList (some "#b".toList) "-l".toList] := by
  decide +kernel

def stackView : View := ⟨.rfc1459, some, fun _ => false⟩

theorem modes_stacked_charybdis :
    (Run.run (stackStep charybdis .rfc1459 id) emptyStack (stackCalls ++ [.flush none])).2.foldl
        (deliver charybdis stackView)
        (fun _ => ⟨500, 0#32, 0, none, fun _ => none, [], [⟨"1ABAAAAAB".toList, cstatusOp⟩]⟩) =
      stackCalls.foldl (asked charybdis stackView)
        (fun _ => ⟨500, 0#32, 0, none, fun _ => none, [], [⟨"1ABAAAAAB".toList, cstatusOp⟩]⟩) :=
  (modes_stacked charybdis .rfc1459 id stackCalls (by decide)).1 stackView _

end ChatServices.Modes
