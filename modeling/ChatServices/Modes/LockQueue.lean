import ChatServices.Modes.Lock

/-! What `check_modes` queues for the network, read back as changes of the channel: all of the
channel follows but the bits of the limit and of the key in its modes word, which `channel_mode`
sets and `check_modes` does not. -/
namespace ChatServices.Modes.Lock
open ChatServices.Lib ChatServices.Lib.Mask ChatServices.Lib.Run ChatServices.Lib.Settle
open ChatServices.Text ChatServices.ChanServ ChatServices.ChanServ.Channels ChatServices.Storage

section queue
variable {κ : Type} (t : Tables) (check : Nat → CString → Bool) (source : CString) (c : κ)
  (lock : ModeLock) (ext : ExtLock)

def Part.bits (ch : Channel) (part : Part) (modes : Flags) : Flags :=
  match part with
  | .on => modes ||| (~~~ch.modes &&& lock.on &&& simpleMask)
  | .limit =>
    if lock.limit ≠ 0#32 ∧ lock.limit.toNat ≠ ch.limit then modes ||| cmodeLimit else modes
  | .key => if lock.key.isSome ∧ ch.key ≠ lock.key then modes ||| cmodeKey else modes
  | .off => modes &&& ~~~(ch.modes &&& lock.off &&& simpleMask)
  | .offLimit => if ch.limit ≠ 0 ∧ test lock.off cmodeLimit then modes &&& ~~~cmodeLimit else modes
  | .offKey => if ch.key.isSome ∧ test lock.off cmodeKey then modes &&& ~~~cmodeKey else modes
  | .ext _ => modes

def queueBits : List Part → Channel → Flags → Flags
  | [], _, modes => modes
  | part :: parts, ch, modes =>
    queueBits parts (part.visit check source c lock ext ch) (part.bits lock ch modes)

def Part.mask : Part → Flags
  | .on | .off => simpleMask
  | .limit | .offLimit => cmodeLimit
  | .key | .offKey => cmodeKey
  | .ext _ => 0#32

variable {t check source c lock ext} {ch : Channel}

theorem newLimit_natArg {n : BitVec 32} (h : n ≠ 0#32) : newLimit (natArg n.toNat) = n.toNat := by
  have hpos : n.toNat ≠ 0 := fun hzero => h (BitVec.eq_of_toNat_eq hzero)
  have hlt := n.isLt
  have hread := congrArg BitVec.toNat (atoi_natArg (n := n.toNat) (by omega))
  rw [BitVec.toNat_ofInt, BitVec.toNat_ofNat] at hread
  rw [newLimit]
  omega

theorem asks_key (add : Bool) (key : CString) :
    asks t (.param source c add 'k' key) = [.key (if add then some key else none)] := by
  obtain ⟨hsimple, hext, -⟩ := t.letters_apart.2.2.2.2 'k' (.inl rfl)
  have hidx : t.ignoreModeList.idxOf? 'k' = none := List.idxOf?_eq_none_iff.mpr hext
  simp only [asks, parseMode, t.find_simple_none hsimple, hidx]
  cases add <;> rfl

theorem asks_limit (add : Bool) {n : BitVec 32} (h : add = true → n ≠ 0#32) :
    asks t (.limit source c add n) = [.limit (if add then some (natArg n.toNat) else none)] := by
  cases add with
  | false => rfl
  | true =>
    have hne : (if true = true then n else 0) ≠ 0 := h rfl
    rw [asks, limitValue, if_neg hne]
    rfl

theorem changes_simple (v : View) (add : Bool) {flags : Flags} (h : Sub flags t.known) :
    changes v ch (asks t (.simple source c add flags)) = setModes add flags ch := by
  have hknown : flags &&& t.known = flags :=
    (and_sub_left flags t.known).antisymm ((sub_iff ..).mpr fun i hi =>
      (has_and ..).mpr ⟨hi, h.has hi⟩)
  rw [asks, t.changes_simples, hknown]

variable (check source c ch) in
theorem stage_asks (h : LockWf t lock ext) (v : View) (part : Part) (modes : Flags) :
    changes v { ch with modes := modes } ((part.stage check source c lock ext ch).2.flatMap (asks t)) =
      { part.visit check source c lock ext ch with modes := part.bits lock ch modes } := by
  cases part with
  | on =>
    have hknown : Sub (~~~ch.modes &&& lock.on &&& simpleMask) t.known := by
      have hsub := h.on_known
      rw [sub_iff] at hsub ⊢
      intro i hi
      simp only [has_and] at hi hsub
      exact hsub i ⟨hi.1.2, hi.2⟩
    rw [Part.stage, lockOn, List.flatMap_singleton, changes_simple v true hknown]
    rfl
  | off =>
    have hknown : Sub (ch.modes &&& lock.off &&& simpleMask) t.known := by
      have hsub := h.off_known
      rw [sub_iff] at hsub ⊢
      intro i hi
      simp only [has_and] at hi hsub
      exact hsub i ⟨hi.1.2, hi.2⟩
    rw [Part.stage, lockOff, List.flatMap_singleton, changes_simple v false hknown]
    rfl
  | limit =>
    by_cases hacts : lock.limit ≠ 0#32 ∧ lock.limit.toNat ≠ ch.limit
    · simp only [Part.visit, Part.stage, Part.bits, lockLimit, if_pos hacts, List.flatMap_singleton]
      rw [asks_limit true fun _ => hacts.1, if_pos rfl, changes_cons, changes_nil, change,
        newLimit_natArg hacts.1]
    · simp only [Part.visit, Part.stage, Part.bits, lockLimit, if_neg hacts]
      rfl
  | offLimit =>
    by_cases hacts : ch.limit ≠ 0 ∧ test lock.off cmodeLimit = true
    · simp only [Part.visit, Part.stage, Part.bits, lockOffLimit, if_pos hacts,
        List.flatMap_singleton]
      rw [asks_limit false fun hfalse => Bool.noConfusion hfalse]
      rfl
    · simp only [Part.visit, Part.stage, Part.bits, lockOffLimit, if_neg hacts]
      rfl
  | key =>
    rw [visit_key, Part.stage, lockKey, Part.bits]
    cases hkey : lock.key with
    | none => simp
    | some key =>
      cases hold : ch.key with
      | none => simp [dropKey, addKey, hold, asks_key, changes_cons, change]
      | some k =>
        by_cases hsame : k = key
        · subst hsame
          simp [dropKey, addKey, hold]
        · -- the old key goes and takes the bit with it
          have hback : modes &&& ~~~cmodeKey ||| cmodeKey = modes ||| cmodeKey := by
            apply Lib.Mask.ext
            intro i
            simp only [has_and, has_or, has_not]
            constructor
            · rintro (⟨hm, -⟩ | hk)
              · exact .inl hm
              · exact .inr hk
            · rintro (hm | hk)
              · by_cases hk : Has cmodeKey i
                · exact .inr hk
                · exact .inl ⟨hm, hm.lt, hk⟩
              · exact .inr hk
          simp [dropKey, addKey, hold, hsame, asks_key, changes_cons, change, hback]
  | offKey =>
    rw [visit_offKey, Part.stage, lockOffKey, Part.bits]
    cases hold : ch.key with
    | none => simp [← hold]
    | some k =>
      by_cases hoff : test lock.off cmodeKey = true
      · simp [hoff, asks_key, changes_cons, change]
      · simp [hoff, ← hold]
  | ext i =>
    rw [Part.visit, Part.stage, Part.bits]
    cases hf : ext.find i with
    | none => rfl
    | some value =>
      have he : (i, value) ∈ ext.entries := (Registry.find_eq_some_iff ..).mp hf
      have hi : i < t.ignoreModeList.length := (h.entries _ he).1
      have hupdate : ∀ x, (fun j => if j = i then x else ch.extmodes j) =
          Function.update ch.extmodes i x := by
        intro x
        funext j
        rw [Function.update_apply]
      simp only [lockExt]
      split_ifs
      all_goals simp [asks, hi, changes_cons, change, hupdate]

variable (check source c ch) in
theorem stages_ask (h : LockWf t lock ext) (v : View) (parts : List Part) (modes : Flags) :
    changes v { ch with modes := modes } ((run (fun ch (stage : Stage κ) => stage ch) ch
        (parts.map (Part.stage check source c lock ext))).2.flatMap (asks t)) =
      { parts.foldl (Part.visit check source c lock ext) ch with
        modes := queueBits check source c lock ext parts ch modes } := by
  induction parts generalizing ch modes with
  | nil => rfl
  | cons part parts ih =>
    have hone := stage_asks check source c ch h v part modes
    have hrest := ih (part.visit check source c lock ext ch) (part.bits lock ch modes)
    rw [List.map_cons, run_cons, List.flatMap_append, changes_append, hone]
    exact hrest

theorem checkModes_asks (h : LockWf t lock ext) (v : View) :
    changes v ch ((checkModes t check source c lock true ch).2.flatMap (asks t)) =
      { (checkModes t check source c lock true ch).1 with
        modes := queueBits check source c lock ext (lockParts ext) ch ch.modes } := by
  have hall := stages_ask check source c ch h v (lockParts ext) ch.modes
  rw [checkModes_fst h, checkModes, stages_eq h]
  exact hall

/-! ### The bits of the modes word -/

theorem has_cmodeKey (i : Nat) : Has cmodeKey i ↔ i = 1 := by
  have hkey : cmodeKey = BitVec.twoPow 32 1 := by decide
  rw [hkey, has_twoPow]
  omega

theorem has_cmodeLimit (i : Nat) : Has cmodeLimit i ↔ i = 2 := by
  have hlimit : cmodeLimit = BitVec.twoPow 32 2 := by decide
  rw [hlimit, has_twoPow]
  omega

theorem has_andNot {modes mask : Flags} {i : Nat} (h : ¬ Has mask i) :
    Has (modes &&& ~~~mask) i ↔ Has modes i := by
  rw [has_and, has_not]
  exact ⟨fun hm => hm.1, fun hm => ⟨hm, hm.lt, h⟩⟩

theorem has_bits_other (part : Part) {modes : Flags} {i : Nat} (hi : ¬ Has part.mask i) :
    Has (part.bits lock ch modes) i ↔ Has modes i := by
  have hset : Has (modes ||| part.mask) i ↔ Has modes i := by rw [has_or, or_iff_left hi]
  have hgone : Has (modes &&& ~~~part.mask) i ↔ Has modes i := has_andNot hi
  cases part with
  | on =>
    rw [Part.bits, has_or, or_iff_left]
    exact fun hm => hi ((has_and ..).mp hm).2
  | off =>
    rw [Part.bits]
    exact has_andNot fun hm => hi ((has_and ..).mp hm).2
  | limit =>
    rw [Part.bits]
    split_ifs
    · exact hset
    · rfl
  | offLimit =>
    rw [Part.bits]
    split_ifs
    · exact hgone
    · rfl
  | key =>
    rw [Part.bits]
    split_ifs
    · exact hset
    · rfl
  | offKey =>
    rw [Part.bits]
    split_ifs
    · exact hgone
    · rfl
  | ext j => rfl

theorem has_bits (part : Part) {modes : Flags} {i : Nat} (hi : i ≠ 1 ∧ i ≠ 2)
    (hsame : Has modes i ↔ Has ch.modes i) :
    Has (part.bits lock ch modes) i ↔ Has (part.visit check source c lock ext ch).modes i := by
  have hkey : ¬ Has cmodeKey i := fun hk => hi.1 ((has_cmodeKey i).mp hk)
  have hlimit : ¬ Has cmodeLimit i := fun hl => hi.2 ((has_cmodeLimit i).mp hl)
  cases part with
  | on => rw [visit_on, Part.bits, has_or, has_or, hsame]
  | off => rw [visit_off, Part.bits, has_and, has_and, hsame]
  | limit =>
    rw [visit_limit, has_bits_other .limit hlimit]
    exact hsame
  | offLimit =>
    rw [visit_offLimit, has_bits_other .offLimit hlimit]
    exact hsame
  | key =>
    rw [visit_key, has_bits_other .key hkey]
    exact hsame
  | offKey =>
    rw [visit_offKey, has_bits_other .offKey hkey]
    exact hsame
  | ext j =>
    cases hf : ext.find j with
    | none => rwa [visit_ext_none hf]
    | some value => rwa [visit_ext hf]

theorem has_queueBits (parts : List Part) {modes : Flags} {i : Nat} (hi : i ≠ 1 ∧ i ≠ 2)
    (hsame : Has modes i ↔ Has ch.modes i) :
    Has (queueBits check source c lock ext parts ch modes) i ↔
      Has (parts.foldl (Part.visit check source c lock ext) ch).modes i := by
  induction parts generalizing ch modes with
  | nil => exact hsame
  | cons part parts ih => exact ih (has_bits part hi hsame)

theorem queueBits_exts (l : List Nat) (modes : Flags) :
    queueBits check source c lock ext (l.map .ext) ch modes = modes := by
  induction l generalizing ch with
  | nil => rfl
  | cons i l ih => exact ih

theorem has_bits_limit {modes : Flags} : Has (Part.bits lock ch .limit modes) 2 ↔
    lock.limit ≠ 0#32 ∧ lock.limit.toNat ≠ ch.limit ∨ Has modes 2 := by
  have hbit : Has cmodeLimit 2 := by decide
  rw [Part.bits]
  split_ifs with hacts <;> simp [hacts, hbit]

theorem has_bits_offLimit {modes : Flags} : Has (Part.bits lock ch .offLimit modes) 2 ↔
    ¬ (ch.limit ≠ 0 ∧ test lock.off cmodeLimit = true) ∧ Has modes 2 := by
  have hbit : Has cmodeLimit 2 := by decide
  rw [Part.bits]
  split_ifs with hacts <;> simp [hacts, hbit]

theorem has_bits_key {modes : Flags} : Has (Part.bits lock ch .key modes) 1 ↔
    lock.key.isSome ∧ ch.key ≠ lock.key ∨ Has modes 1 := by
  have hbit : Has cmodeKey 1 := by decide
  rw [Part.bits]
  split_ifs with hacts <;> simp [hacts, hbit]

theorem has_bits_offKey {modes : Flags} : Has (Part.bits lock ch .offKey modes) 1 ↔
    ¬ (ch.key.isSome ∧ test lock.off cmodeKey = true) ∧ Has modes 1 := by
  have hbit : Has cmodeKey 1 := by decide
  rw [Part.bits]
  split_ifs with hacts <;> simp [hacts, hbit]

variable (check source c ch) in
theorem has_queueBits_limit (h : LockWf t lock ext) :
    Has (queueBits check source c lock ext (lockParts ext) ch ch.modes) 2 ↔
      ¬ (ch.limit ≠ 0 ∧ test lock.off cmodeLimit = true) ∧
        (lock.limit ≠ 0#32 ∧ lock.limit.toNat ≠ ch.limit ∨ Has ch.modes 2) := by
  have hmask : ¬ Has simpleMask 2 := by decide
  have hkey : ¬ Has cmodeKey 2 := by decide
  simp only [lockParts, List.cons_append, List.nil_append, queueBits, queueBits_exts]
  rw [has_bits_other .offKey hkey, has_bits_offLimit, has_bits_other .off hmask,
    has_bits_other .key hkey, has_bits_limit, has_bits_other .on hmask, visit_off, visit_key,
    visit_limit, visit_on]
  by_cases hoff : test lock.off cmodeLimit = true
  · simp [h.no_limit hoff]
  · simp [hoff]

variable (check source c ch) in
theorem has_queueBits_key (h : LockWf t lock ext) :
    Has (queueBits check source c lock ext (lockParts ext) ch ch.modes) 1 ↔
      ¬ (ch.key.isSome ∧ test lock.off cmodeKey = true) ∧
        (lock.key.isSome ∧ ch.key ≠ lock.key ∨ Has ch.modes 1) := by
  have hmask : ¬ Has simpleMask 1 := by decide
  have hlimit : ¬ Has cmodeLimit 1 := by decide
  simp only [lockParts, List.cons_append, List.nil_append, queueBits, queueBits_exts]
  rw [has_bits_offKey, has_bits_other .offLimit hlimit, has_bits_other .off hmask, has_bits_key,
    has_bits_other .limit hlimit, has_bits_other .on hmask, visit_offLimit, visit_off, visit_key,
    visit_limit, visit_on]
  by_cases hoff : test lock.off cmodeKey = true
  · simp [h.no_key hoff]
  · simp [hoff]

variable (check source c lock ext ch) in
theorem has_pass_modes (parts : List Part) {i : Nat} (hi : ¬ Has simpleMask i) :
    Has (parts.foldl (Part.visit check source c lock ext) ch).modes i ↔ Has ch.modes i := by
  induction parts generalizing ch with
  | nil => rfl
  | cons part parts ih =>
    rw [List.foldl_cons, ih]
    cases part with
    | on =>
      rw [visit_on, has_or, or_iff_left]
      exact fun hm => hi ((has_and ..).mp hm).2
    | off =>
      rw [visit_off]
      exact has_andNot fun hm => hi ((has_and ..).mp hm).2
    | limit => rw [visit_limit]
    | offLimit => rw [visit_offLimit]
    | key => rw [visit_key]
    | offKey => rw [visit_offKey]
    | ext j =>
      cases hf : ext.find j with
      | none => rw [visit_ext_none hf]
      | some value => rw [visit_ext hf]

/-! ### The law -/

structure BitsAgree (lock : ModeLock) (ch : Channel) : Prop where
  limit : lock.limit ≠ 0#32 → lock.limit.toNat ≠ ch.limit → test ch.modes cmodeLimit = true
  offLimit : test lock.off cmodeLimit = true → ch.limit ≠ 0 → test ch.modes cmodeLimit = false
  key : ∀ key, lock.key = some key → ch.key ≠ some key → test ch.modes cmodeKey = true
  offKey : test lock.off cmodeKey = true → ch.key ≠ none → test ch.modes cmodeKey = false

variable (check source c) in
theorem queueBits_eq_iff (h : LockWf t lock ext) :
    queueBits check source c lock ext (lockParts ext) ch ch.modes =
        ((lockParts ext).foldl (Part.visit check source c lock ext) ch).modes ↔
      BitsAgree lock ch := by
  have hone : ¬ Has simpleMask 1 := by decide
  have htwo : ¬ Has simpleMask 2 := by decide
  have hkey := has_queueBits_key check source c ch h
  have hlimit := has_queueBits_limit check source c ch h
  have htestk := test_bit has_cmodeKey ch.modes
  have htestl := test_bit has_cmodeLimit ch.modes
  constructor
  · intro heq
    rw [heq, has_pass_modes _ _ _ _ _ _ _ hone, ← htestk] at hkey
    rw [heq, has_pass_modes _ _ _ _ _ _ _ htwo, ← htestl] at hlimit
    refine ⟨?_, ?_, ?_, ?_⟩
    · intro hzero hne
      have hoff := h.limit hzero
      exact hlimit.mpr ⟨fun hyes => by simp [hoff] at hyes, .inl ⟨hzero, hne⟩⟩
    · intro hoff hne
      cases htest : test ch.modes cmodeLimit with
      | false => rfl
      | true => exact absurd ⟨hne, hoff⟩ (hlimit.mp htest).1
    · intro key hlock hne
      have hoff := h.key key hlock
      refine hkey.mpr ⟨fun hyes => by simp [hoff] at hyes, .inl ⟨?_, ?_⟩⟩
      · rw [hlock]
        rfl
      · rwa [hlock]
    · intro hoff hne
      cases htest : test ch.modes cmodeKey with
      | false => rfl
      | true => exact absurd ⟨Option.isSome_iff_ne_none.mpr hne, hoff⟩ (hkey.mp htest).1
  · intro hagree
    apply Lib.Mask.ext
    intro i
    by_cases hi1 : i = 1
    · subst hi1
      rw [hkey, has_pass_modes _ _ _ _ _ _ _ hone, ← htestk]
      constructor
      · rintro ⟨-, ⟨hsome, hne⟩ | htest⟩
        · obtain ⟨key, hlock⟩ := Option.isSome_iff_exists.mp hsome
          exact hagree.key key hlock (hlock ▸ hne)
        · exact htest
      · intro htest
        refine ⟨?_, .inr htest⟩
        rintro ⟨hsome, hoff⟩
        have hclear := hagree.offKey hoff (Option.isSome_iff_ne_none.mp hsome)
        rw [htest] at hclear
        cases hclear
    · by_cases hi2 : i = 2
      · subst hi2
        rw [hlimit, has_pass_modes _ _ _ _ _ _ _ htwo, ← htestl]
        constructor
        · rintro ⟨-, ⟨hzero, hne⟩ | htest⟩
          · exact hagree.limit hzero hne
          · exact htest
        · intro htest
          refine ⟨?_, .inr htest⟩
          rintro ⟨hne, hoff⟩
          have hclear := hagree.offLimit hoff hne
          rw [htest] at hclear
          cases hclear
      · exact has_queueBits (lockParts ext) ⟨hi1, hi2⟩ Iff.rfl

/-- What `check_modes` is there for, on one channel. -/
structure Law [DecidableEq κ] (t : Tables) (check : Nat → CString → Bool) (source : CString) (c : κ)
    (lock : ModeLock) (ext : ExtLock) (ch : Channel) : Prop where
  enforced : ∀ sendnow part,
    Settled check lock ext (checkModes t check source c lock sendnow ch).1 part
  /-- The changes that are queued turn the old channel into the new one. -/
  sent : ∀ v, changes v ch ((checkModes t check source c lock true ch).2.flatMap (asks t)) =
    (checkModes t check source c lock true ch).1
  /-- A second time there is nothing to change, and nothing is added to the mode stack. -/
  idle : ∀ sendnow sendnow', ∀ ch',
    ch' = (checkModes t check source c lock sendnow ch).1 →
    (checkModes t check source c lock sendnow' ch').1 = ch' ∧
    ∀ cm name md, run (stackStep t cm name) md (checkModes t check source c lock sendnow' ch').2 =
      (md, [])

theorem law_iff_sent [DecidableEq κ] (h : LockWf t lock ext) :
    Law t check source c lock ext ch ↔
      ∀ v, changes v ch ((checkModes t check source c lock true ch).2.flatMap (asks t)) =
        (checkModes t check source c lock true ch).1 := by
  refine ⟨fun hlaw => hlaw.sent, fun hsent => ⟨?_, hsent, ?_⟩⟩
  · intro sendnow part
    exact checkModes_settled check source c ch h sendnow part
  · rintro sendnow sendnow' ch' rfl
    obtain ⟨hsame, hidle⟩ := checkModes_idle source c h sendnow'
      fun part => checkModes_settled check source c ch h sendnow part
    exact ⟨hsame, fun cm name md => idle_run cm name _ hidle md⟩

end queue

/-- A lock is enforced at once and for good, on the channel and on the network, just where the bits
of the limit and of the key need no change: `check_modes` does not touch them. -/
theorem lock_law_iff {κ : Type} [DecidableEq κ] (t : Tables) (check : Nat → CString → Bool)
    (source : CString) (c : κ) (lock : ModeLock) (ext : ExtLock) (h : LockWf t lock ext)
    (ch : Channel) : Law t check source c lock ext ch ↔ BitsAgree lock ch := by
  rw [law_iff_sent h, ← queueBits_eq_iff check source c h]
  constructor
  · intro hsent
    have hask := hsent ⟨.rfc1459, fun _ => none, fun _ => false⟩
    rw [checkModes_asks h, checkModes_fst h] at hask
    exact congrArg Channel.modes hask
  · intro hbits v
    rw [checkModes_asks h, checkModes_fst h, hbits]

def sampleLock : ModeLock := ⟨0x110#32, cmodeInvite, 20#32, none, some "j5:10".toList⟩

def sampleExt : ExtLock := ⟨[(1, "5:10".toList)], by decide⟩

def lockedChannel : Channel := ⟨500, cmodeInvite ||| cmodeLimit, 30, none, fun _ => none, [], []⟩

theorem lock_law_sample : Law charybdis (fun _ _ => true) "ChanServ".toList () sampleLock sampleExt
    lockedChannel :=
  (lock_law_iff charybdis (fun _ _ => true) "ChanServ".toList () sampleLock sampleExt
    ⟨by decide, by decide, nofun, by decide, by decide, by decide, by decide⟩ lockedChannel).mpr
    ⟨fun _ _ => by decide, fun hoff => absurd hoff (by decide), nofun, fun hoff => absurd hoff (by decide)⟩

def limitLock : ModeLock := ⟨0x110#32, cmodeInvite, 20#32, none, none⟩

/-- A limit that is locked on a channel without one: those who read `+l 20` set its bit. -/
theorem locked_limit_without_bit : LockWf charybdis limitLock Registry.empty ∧
    ¬ Law charybdis (fun _ _ => true) "ChanServ".toList () limitLock Registry.empty
      ⟨500, 0x110#32, 0, none, fun _ => none, [], []⟩ := by
  refine ⟨⟨by decide, by decide, nofun, by decide, by decide, by decide, by decide⟩, ?_⟩
  intro h
  have hmodes := congrArg Channel.modes (h.sent stackView)
  revert hmodes
  decide

end ChatServices.Modes.Lock
