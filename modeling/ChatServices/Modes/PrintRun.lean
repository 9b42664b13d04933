import ChatServices.Modes.Print

/-! The states that `channel_mode` and `check_modes` bring a channel to, and which of them are
printed as what they are. -/
namespace ChatServices.Modes
open ChatServices.Lib ChatServices.Lib.Mask ChatServices.Lib.Run ChatServices.Lib.Settle
open ChatServices.Text ChatServices.ChanServ ChatServices.ChanServ.Channels ChatServices.Storage
open ChatServices.Modes.Lock (ModeLock ExtLock LockWf Part lockParts checkModes simpleMask)

section model
variable (t : Tables)

def accepted (check : Nat → CString → Bool) : ModeChange → Bool
  | .ext i (some value) => check i value
  | _ => true

/-- `channel_mode`; without a source every parameter is taken. -/
def channelModeBy (check : Nat → CString → Bool) (v : View) (ch : Channel) (parv : List CString) :
    Channel :=
  match parv with
  | [] => ch
  | pos :: params =>
    if pos.head? = none ∨ pos.head? = some '0' then ch
    else changes v ch ((parseModes t.toIrcd false pos params).filter (accepted check))

inductive Event where
  /-- `channel_mode` -/
  | mode (check : Nat → CString → Bool) (v : View) (parv : List CString)
  /-- `check_modes`, for a lock that is well formed -/
  | lock (check : Nat → CString → Bool) (sendnow : Bool) (lock : ModeLock) (ext : ExtLock)
    (wf : LockWf t lock ext)

variable {t}

def Event.apply (ch : Channel) : Event t → Channel
  | .mode check v parv => channelModeBy t check v ch parv
  | .lock check sendnow ml _ _ => (checkModes t check [] () ml sendnow ch).1

structure KeepsKinds (lock : ModeLock) (ch : Channel) : Prop where
  limit : lock.limit ≠ 0#32 → ch.limit ≠ 0
  offLimit : test lock.off cmodeLimit = true → ch.limit = 0
  key : lock.key.isSome → ch.key.isSome
  offKey : test lock.off cmodeKey = true → ch.key = none

def Event.Careful (ch : Channel) : Event t → Prop
  | .mode .. => True
  | .lock _ _ ml _ _ => KeepsKinds ml ch

def newChannel (ts : Nat) (bans : List Chanban) (members : List Chanuser) : Channel :=
  ⟨ts, 0#32, 0, none, fun _ => none, bans, members⟩

def Event.step (ch : Channel) (e : Event t) : Channel × List Unit := (e.apply ch, [])

end model

/-! ### `channel_mode` -/

section mode
variable {t : Tables} {v : View} {ch : Channel}

def SoundChange (t : Tables) : ModeChange → Prop
  | .simple _ value => Sub value t.known
  | .ext i _ => i < t.ignoreModeList.length
  | .limit _ | .key _ | .banlike .. | .status .. => True

theorem sub_orAll {l : List (Char × Flags)} {m : Char × Flags} (hm : m ∈ l) : Sub m.2 (orAll l) := by
  induction l with
  | nil => cases hm
  | cons m' l ih =>
    rw [orAll, List.foldr_cons]
    cases hm with
    | head => exact sub_or_left _ _
    | tail _ hm =>
      have hrest := ih hm
      rw [sub_iff] at hrest ⊢
      intro i hi
      exact (has_or ..).mpr (.inr (hrest i hi))

theorem withParam_sound (f : CString → ModeChange) (hf : ∀ p, SoundChange t (f p))
    (params : List CString) : ∀ x ∈ (withParam f params).1, SoundChange t x := by
  cases params with
  | nil => simp [withParam]
  | cons p params =>
    intro x hx
    rw [List.mem_singleton.mp hx]
    exact hf p

theorem parseMode_sound (add : Bool) (c : Char) (params : List CString) :
    ∀ x ∈ (parseMode t.toIrcd add c params).1, SoundChange t x := by
  have hone : ∀ (y : ModeChange) (ps : List CString), SoundChange t y →
      ∀ x ∈ ([y], ps).1, SoundChange t x := by
    intro y ps hy x hx
    rw [List.mem_singleton.mp hx]
    exact hy
  rw [parseMode]
  cases hfind : t.modeList.find? fun m => m.1 = c with
  | some m => exact hone _ _ (sub_orAll (List.mem_of_find?_eq_some hfind))
  | none =>
    cases hidx : t.ignoreModeList.idxOf? c with
    | some i =>
      obtain ⟨hi, -⟩ := List.idxOf?_eq_some_iff.mp hidx
      dsimp only
      split_ifs
      · apply withParam_sound
        exact fun _ => hi
      · exact hone _ _ hi
    | none =>
      dsimp only
      split_ifs
      · apply withParam_sound
        exact fun _ => trivial
      · exact hone _ _ trivial
      · apply withParam_sound
        exact fun _ => trivial
      · exact hone _ _ trivial
      · apply withParam_sound
        exact fun _ => trivial
      · cases t.statusModeList.find? fun m => m.1 = c with
        | some m =>
          apply withParam_sound
          exact fun _ => trivial
        | none => simp

theorem parseModes_sound (add : Bool) (pos : CString) (params : List CString) :
    ∀ x ∈ parseModes t.toIrcd add pos params, SoundChange t x := by
  induction pos generalizing add params with
  | nil => simp [parseModes]
  | cons c pos ih =>
    rw [parseModes]
    split_ifs
    · exact ih true params
    · exact ih false params
    · intro x hx
      obtain hx | hx := List.mem_append.mp hx
      · exact parseMode_sound add c params x hx
      · exact ih _ _ x hx

structure SameModes (ch ch' : Channel) : Prop where
  modes : ch'.modes = ch.modes
  limit : ch'.limit = ch.limit
  key : ch'.key = ch.key
  exts : ch'.extmodes = ch.extmodes

theorem change_sameModes (v : View) (ch : Channel) {x : ModeChange} (h : listed x = true)
    (hkey : ∀ value, x ≠ .key value) : SameModes ch (change v ch x) := by
  cases x with
  | simple add value => cases h
  | ext i value => cases h
  | limit value => cases h
  | key value => exact absurd rfl (hkey value)
  | banlike add type mask =>
    cases add with
    | false => exact ⟨rfl, rfl, rfl, rfl⟩
    | true =>
      rw [change, banAdd]
      split_ifs <;> exact ⟨rfl, rfl, rfl, rfl⟩
  | status add mode value nick =>
    rw [change]
    cases v.userFind nick with
    | none => exact ⟨rfl, rfl, rfl, rfl⟩
    | some u =>
      dsimp only
      split_ifs <;> exact ⟨rfl, rfl, rfl, rfl⟩

theorem Sound.sameModes {ch' : Channel} (h : Sound t ch) (hsame : SameModes ch ch') : Sound t ch' :=
  ⟨by rw [hsame.modes]; exact h.modes, by rw [hsame.limit]; exact h.limit,
    by rw [hsame.exts]; exact h.exts⟩

theorem BitsMatch.sameModes {ch' : Channel} (h : BitsMatch ch) (hsame : SameModes ch ch') :
    BitsMatch ch' :=
  ⟨by rw [hsame.modes, hsame.limit]; exact h.limit, by rw [hsame.modes, hsame.key]; exact h.key⟩

theorem newLimit_bounds (value : CString) : newLimit value ≠ 0 ∧ newLimit value < 2 ^ 32 := by
  rw [newLimit]
  omega

theorem change_sound (v : View) (h : Sound t ch) {x : ModeChange} (hx : SoundChange t x) :
    Sound t (change v ch x) := by
  have hclear : ∀ f : Flags, Sub (ch.modes &&& ~~~f) (t.known ||| cmodeLimit ||| cmodeKey) :=
    fun f => (and_sub_left ch.modes (~~~f)).trans h.modes
  cases x with
  | simple add value =>
    cases add with
    | false => exact ⟨hclear value, h.limit, h.exts⟩
    | true =>
      have hvalue : Sub value (t.known ||| cmodeLimit ||| cmodeKey) :=
        (Sub.trans hx (sub_or_left _ cmodeLimit)).trans (sub_or_left _ cmodeKey)
      exact ⟨h.modes.or hvalue, h.limit, h.exts⟩
  | ext i value =>
    refine ⟨h.modes, h.limit, ?_⟩
    intro j hj
    have hne : j ≠ i := by
      rintro rfl
      exact absurd hx (by rw [SoundChange]; omega)
    exact (if_neg hne).trans (h.exts j hj)
  | limit value =>
    cases value with
    | none => exact ⟨hclear cmodeLimit, by show 0 < 2 ^ 32; omega, h.exts⟩
    | some value =>
      have hbit : Sub cmodeLimit (t.known ||| cmodeLimit ||| cmodeKey) := by
        rw [BitVec.or_comm t.known, BitVec.or_assoc]
        exact sub_or_left _ _
      exact ⟨h.modes.or hbit, (newLimit_bounds value).2, h.exts⟩
  | key value =>
    cases value with
    | none => exact ⟨hclear cmodeKey, h.limit, h.exts⟩
    | some value =>
      have hbit : Sub cmodeKey (t.known ||| cmodeLimit ||| cmodeKey) := by
        rw [BitVec.or_comm]
        exact sub_or_left _ _
      exact ⟨h.modes.or hbit, h.limit, h.exts⟩
  | banlike add type mask => exact h.sameModes (change_sameModes v ch rfl nofun)
  | status add mode value nick => exact h.sameModes (change_sameModes v ch rfl nofun)

theorem BitsMatch.setModes (h : BitsMatch ch) {value : Flags} (hvalue : Sub value t.known)
    (add : Bool) : BitsMatch (setModes add value ch) := by
  have hknown : ∀ f : Flags, t.known &&& f = 0#32 → test value f = false := by
    intro f hf
    have hno := (test_eq_false_iff_and _ _).mpr hf
    rw [test_eq_false_iff] at hno ⊢
    exact fun i hi => hno i (hvalue.has hi)
  have hkey := hknown cmodeKey known_apart.1
  have hlimit := hknown cmodeLimit known_apart.2
  cases add with
  | false =>
    refine ⟨?_, ?_⟩
    · show test (ch.modes &&& ~~~value) cmodeLimit = true ↔ _
      rw [test_andNot_disjoint hlimit]
      exact h.limit
    · show test (ch.modes &&& ~~~value) cmodeKey = true ↔ _
      rw [test_andNot_disjoint hkey]
      exact h.key
  | true =>
    refine ⟨?_, ?_⟩
    · show test (ch.modes ||| value) cmodeLimit = true ↔ _
      rw [test_or_disjoint hlimit]
      exact h.limit
    · show test (ch.modes ||| value) cmodeKey = true ↔ _
      rw [test_or_disjoint hkey]
      exact h.key

theorem test_andNot_self (m f : Flags) : test (m &&& ~~~f) f = false := by
  rw [test_eq_false_iff]
  intro i hi
  exact ((has_not ..).mp ((has_and ..).mp hi).2).2

theorem change_match (v : View) (h : BitsMatch ch) {x : ModeChange} (hx : SoundChange t x) :
    BitsMatch (change v ch x) := by
  have hlk : test cmodeLimit cmodeKey = false := by decide
  have hkl : test cmodeKey cmodeLimit = false := by decide
  cases x with
  | simple add value =>
    have hset := h.setModes hx add
    cases add <;> exact hset
  | ext i value => exact ⟨h.limit, h.key⟩
  | limit value =>
    cases value with
    | none =>
      refine ⟨?_, ?_⟩
      · show test (ch.modes &&& ~~~cmodeLimit) cmodeLimit = true ↔ 0 ≠ 0
        simp [test_andNot_self]
      · show test (ch.modes &&& ~~~cmodeLimit) cmodeKey = true ↔ _
        rw [test_andNot_disjoint hlk]
        exact h.key
    | some value =>
      have hself : test cmodeLimit cmodeLimit = true := by decide
      refine ⟨?_, ?_⟩
      · show test (ch.modes ||| cmodeLimit) cmodeLimit = true ↔ newLimit value ≠ 0
        simp [test_or, hself, (newLimit_bounds value).1]
      · show test (ch.modes ||| cmodeLimit) cmodeKey = true ↔ _
        rw [test_or_disjoint hlk]
        exact h.key
  | key value =>
    cases value with
    | none =>
      refine ⟨?_, ?_⟩
      · show test (ch.modes &&& ~~~cmodeKey) cmodeLimit = true ↔ _
        rw [test_andNot_disjoint hkl]
        exact h.limit
      · show test (ch.modes &&& ~~~cmodeKey) cmodeKey = true ↔ (none : Option CString).isSome
        simp [test_andNot_self]
    | some value =>
      have hself : test cmodeKey cmodeKey = true := by decide
      refine ⟨?_, ?_⟩
      · show test (ch.modes ||| cmodeKey) cmodeLimit = true ↔ _
        rw [test_or_disjoint hkl]
        exact h.limit
      · show test (ch.modes ||| cmodeKey) cmodeKey = true ↔ (some value).isSome
        simp [test_or, hself]
  | banlike add type mask => exact h.sameModes (change_sameModes v ch rfl nofun)
  | status add mode value nick => exact h.sameModes (change_sameModes v ch rfl nofun)

theorem channelModeBy_keeps {I : Channel → Prop}
    (hchange : ∀ ch x, I ch → SoundChange t x → I (change v ch x)) (h : I ch)
    (check : Nat → CString → Bool) (parv : List CString) : I (channelModeBy t check v ch parv) := by
  have hchanges : ∀ xs : List ModeChange, (∀ x ∈ xs, SoundChange t x) → ∀ ch, I ch →
      I (changes v ch xs) := by
    intro xs
    induction xs with
    | nil => exact fun _ _ h => h
    | cons x xs ih =>
      intro hxs ch h
      have hone : I (change v ch x) := hchange ch x h (hxs x List.mem_cons_self)
      exact ih (fun y hy => hxs y (List.mem_cons_of_mem x hy)) _ hone
  cases parv with
  | nil => exact h
  | cons pos params =>
    rw [channelModeBy]
    split_ifs
    · exact h
    · apply hchanges _ _ ch h
      intro x hx
      exact parseModes_sound false pos params x (List.mem_filter.mp hx).1

end mode

/-! ### `check_modes` -/

section lock
variable {t : Tables} {check : Nat → CString → Bool} {lock : ModeLock} {ext : ExtLock} {ch : Channel}

theorem checkModes_sound (wf : LockWf t lock ext) (h : Sound t ch) (sendnow : Bool) :
    Sound t (checkModes t check [] () lock sendnow ch).1 := by
  have hon : Sub (lock.on &&& simpleMask) (t.known ||| cmodeLimit ||| cmodeKey) :=
    (wf.on_known.trans (sub_or_left _ cmodeLimit)).trans (sub_or_left _ cmodeKey)
  rw [Lock.checkModes_fst wf]
  apply pass_inv _ _ h
  intro ch part h
  cases part with
  | on =>
    have hmore : Sub (~~~ch.modes &&& lock.on &&& simpleMask) (t.known ||| cmodeLimit ||| cmodeKey) := by
      rw [BitVec.and_assoc]
      exact (and_sub_right _ _).trans hon
    exact ⟨h.modes.or hmore, h.limit, h.exts⟩
  | off => exact ⟨(and_sub_left _ _).trans h.modes, h.limit, h.exts⟩
  | limit =>
    rw [Lock.visit_limit]
    refine ⟨h.modes, ?_, h.exts⟩
    dsimp only
    split_ifs
    · exact lock.limit.isLt
    · exact h.limit
  | offLimit =>
    rw [Lock.visit_offLimit]
    refine ⟨h.modes, ?_, h.exts⟩
    dsimp only
    split_ifs
    · omega
    · exact h.limit
  | key =>
    rw [Lock.visit_key]
    exact ⟨h.modes, h.limit, h.exts⟩
  | offKey =>
    rw [Lock.visit_offKey]
    exact ⟨h.modes, h.limit, h.exts⟩
  | ext i =>
    cases hf : ext.find i with
    | none => rwa [Lock.visit_ext_none hf]
    | some value =>
      have he : (i, value) ∈ ext.entries := (Registry.find_eq_some_iff ..).mp hf
      have hi : i < t.ignoreModeList.length := (wf.entries _ he).1
      rw [Lock.visit_ext hf]
      refine ⟨h.modes, h.limit, ?_⟩
      intro j hj
      have hne : j ≠ i := by omega
      exact (Function.update_of_ne hne _ _).trans (h.exts j hj)

theorem checkModes_match_iff (wf : LockWf t lock ext) (h : BitsMatch ch) (sendnow : Bool) :
    BitsMatch (checkModes t check [] () lock sendnow ch).1 ↔ KeepsKinds lock ch := by
  have hone : ¬ Has simpleMask 1 := by decide
  have htwo : ¬ Has simpleMask 2 := by decide
  have hbit1 := Lock.has_pass_modes check [] () lock ext ch (lockParts ext) hone
  have hbit2 := Lock.has_pass_modes check [] () lock ext ch (lockParts ext) htwo
  rw [← test_bit Lock.has_cmodeKey, ← test_bit Lock.has_cmodeKey, h.key,
    ← Lock.checkModes_fst wf sendnow] at hbit1
  rw [← test_bit Lock.has_cmodeLimit, ← test_bit Lock.has_cmodeLimit, h.limit,
    ← Lock.checkModes_fst wf sendnow] at hbit2
  obtain ⟨hlimit, hkey⟩ := Lock.checkModes_values check [] () ch wf sendnow
  have hiff : BitsMatch (checkModes t check [] () lock sendnow ch).1 ↔
      (ch.limit ≠ 0 ↔ (checkModes t check [] () lock sendnow ch).1.limit ≠ 0) ∧
      (ch.key.isSome ↔ (checkModes t check [] () lock sendnow ch).1.key.isSome) := by
    rw [← hbit1, ← hbit2]
    exact ⟨fun hm => ⟨hm.limit, hm.key⟩, fun hm => ⟨hm.1, hm.2⟩⟩
  have hnat : lock.limit.toNat ≠ 0 ↔ lock.limit ≠ 0#32 := by
    rw [ne_eq, ne_eq, ← BitVec.toNat_inj]
    rfl
  rw [hiff, hlimit, hkey]
  constructor
  · rintro ⟨hl, hk⟩
    refine ⟨?_, ?_, ?_, ?_⟩
    · intro hne
      rw [wf.limit hne, if_neg Bool.false_ne_true, if_pos hne, hnat] at hl
      exact hl.mpr hne
    · intro hoff
      rw [if_pos hoff] at hl
      by_contra hne
      exact hl.mp hne rfl
    · intro hsome
      obtain ⟨key, hlock⟩ := Option.isSome_iff_exists.mp hsome
      rw [wf.key key hlock, if_neg Bool.false_ne_true, hlock, Option.some_or] at hk
      exact hk.mpr rfl
    · intro hoff
      rw [if_pos hoff] at hk
      cases hold : ch.key with
      | none => rfl
      | some key =>
        rw [hold] at hk
        cases hk.mp rfl
  · intro hkinds
    refine ⟨?_, ?_⟩
    · split_ifs with hoff hne
      · simp [hkinds.offLimit hoff]
      · rw [hnat]
        exact ⟨fun _ => hne, fun _ => hkinds.limit hne⟩
      · rfl
    · split_ifs with hoff
      · simp [hkinds.offKey hoff]
      · cases hlock : lock.key with
        | none => rw [Option.none_or]
        | some key =>
          have hsome := hkinds.key (by rw [hlock]; rfl)
          simp [hsome]

end lock

/-! ### Runs -/

section run
variable {t : Tables} {ch : Channel}

theorem newChannel_sound (ts : Nat) (bans : List Chanban) (members : List Chanuser) :
    Sound t (newChannel ts bans members) :=
  ⟨zero_sub _, by show 0 < 2 ^ 32; omega, fun _ _ => rfl⟩

theorem newChannel_match (ts : Nat) (bans : List Chanban) (members : List Chanuser) :
    BitsMatch (newChannel ts bans members) := by
  refine ⟨?_, ?_⟩
  · show test 0#32 cmodeLimit = true ↔ 0 ≠ 0
    simp
  · show test 0#32 cmodeKey = true ↔ (none : Option CString).isSome
    simp

theorem step_sound (h : Sound t ch) (e : Event t) : Sound t (e.step ch).1 := by
  cases e with
  | mode check v parv =>
    have hchange : ∀ ch x, Sound t ch → SoundChange t x → Sound t (change v ch x) :=
      fun _ _ h hx => change_sound v h hx
    exact channelModeBy_keeps hchange h check parv
  | lock check sendnow lock ext wf => exact checkModes_sound wf h sendnow

theorem step_match_iff (h : BitsMatch ch) (e : Event t) : BitsMatch (e.step ch).1 ↔ e.Careful ch := by
  cases e with
  | mode check v parv =>
    have hchange : ∀ ch x, BitsMatch ch → SoundChange t x → BitsMatch (change v ch x) :=
      fun _ _ h hx => change_match v h hx
    have hkeeps : BitsMatch (channelModeBy t check v ch parv) :=
      channelModeBy_keeps hchange h check parv
    exact ⟨fun _ => trivial, fun _ => hkeeps⟩
  | lock check sendnow lock ext wf => exact checkModes_match_iff wf h sendnow

/-- A state that is reached is read back from what is printed of it if and only if the bits of the
limit and of the key match them; they do all along a run if and only if none of its locks gives a
limit or a key to a channel without one, or takes one away. -/
theorem modes_round_trip_iff (t : Tables) (ts : Nat) (bans : List Chanban) (members : List Chanuser)
    (es : List (Event t)) :
    (∀ fs, fs <+: es → Printable t (run Event.step (newChannel ts bans members) fs).1 →
      (RoundTrips t (run Event.step (newChannel ts bans members) fs).1 ↔
        BitsMatch (run Event.step (newChannel ts bans members) fs).1)) ∧
    ((∀ fs, fs <+: es → BitsMatch (run Event.step (newChannel ts bans members) fs).1) ↔
      Guarded Event.step (fun ch e => e.Careful ch) (newChannel ts bans members) es) := by
  constructor
  · intro fs _ hprint
    have hstep : ∀ (ch : Channel) (e : Event t), Sound t ch → Sound t (e.step ch).1 :=
      fun _ e h => step_sound h e
    have hsound := run_keeps hstep (newChannel_sound ts bans members) fs
    exact roundTrips_iff hprint hsound
  · have hstep : ∀ (ch : Channel) (e : Event t), BitsMatch ch →
        ((BitsMatch (e.step ch).1 ∧ ∀ o ∈ (e.step ch).2, True) ↔ e.Careful ch) := by
      intro ch e h
      rw [← step_match_iff h e]
      exact and_iff_left fun _ _ => trivial
    have hrun := run_states_iff (Q := fun _ : Unit => True) hstep (newChannel_match ts bans members) es
    rw [← hrun]
    exact forall₂_congr fun fs _ => (and_iff_left fun _ _ => trivial).symm

end run

/-- `+l 20` by a lock on a channel without modes. -/
def limitLocked : Channel :=
  (run Event.step (newChannel 500 [] [])
    [(.lock (fun _ _ => true) true Lock.limitLock Registry.empty
      ⟨by decide, by decide, nofun, by decide, by decide, by decide, by decide⟩ : Event charybdis)]).1

example : channelModes charybdis true limitLocked = "+ntl 20".toList := by decide

/-- The text is read as a channel with the bit of the limit, which the lock has not set. -/
theorem locked_limit_not_read_back : Printable charybdis limitLocked ∧
    ¬ RoundTrips charybdis limitLocked := by
  refine ⟨⟨?_, ?_, by decide⟩, ?_⟩
  · intro key hkey
    cases hkey
  · intro i value hvalue
    cases hvalue
  · intro h
    have hmodes := congrArg Channel.modes (h stackView)
    revert hmodes
    decide

end ChatServices.Modes
