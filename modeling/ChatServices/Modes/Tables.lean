import ChatServices.ChanServ.Channels
import ChatServices.Storage.Opensex

/-! What a change of modes does to a channel on the network, whoever has registered it:
`channel_mode` of `libathemecore/cmode.c` without its hooks. -/
namespace ChatServices.Modes
open ChatServices.Lib.Mask ChatServices.Text ChatServices.ChanServ ChatServices.ChanServ.Channels

structure View where
  casemapping : CaseMapping
  /-- `user_find` -/
  userFind : CString → Option Uid
  /-- `is_internal_client` -/
  internal : Uid → Bool

def setStatus (ch : Channel) (u : Uid) (f : Flags → Flags) : Channel :=
  { ch with members := ch.members.map fun cu => if cu.user = u then { cu with modes := f cu.modes } else cu }

/-- `chanban_add`, which takes no mask that would break the protocol. -/
def banAdd (v : View) (ch : Channel) (type : Char) (mask : CString) : Channel :=
  if mask.head? = none ∨ mask.head? = some ':' ∨ ' ' ∈ mask ∨
      (ch.bans.any fun b => b.type = type && irccaseEq v.casemapping b.mask mask) = true then ch
  else { ch with bans := ch.bans ++ [⟨mask, type⟩] }

def banDelete (v : View) (ch : Channel) (type : Char) (mask : CString) : Channel :=
  { ch with bans := ch.bans.eraseP fun b => b.type = type && irccaseEq v.casemapping b.mask mask }

def change (v : View) (ch : Channel) : ModeChange → Channel
  | .simple true value => { ch with modes := ch.modes ||| value }
  | .simple false value => { ch with modes := ch.modes &&& ~~~value }
  | .ext i value => { ch with extmodes := fun j => if j = i then value else ch.extmodes j }
  | .limit (some value) => { ch with modes := ch.modes ||| cmodeLimit, limit := newLimit value }
  | .limit none => { ch with modes := ch.modes &&& ~~~cmodeLimit, limit := 0 }
  | .key (some value) => { ch with modes := ch.modes ||| cmodeKey, key := some value }
  | .key none => { ch with modes := ch.modes &&& ~~~cmodeKey, key := none }
  | .banlike true type mask => banAdd v ch type mask
  | .banlike false type mask => banDelete v ch type mask
  | .status add _ value nick =>
    match v.userFind nick with
    | none => ch
    | some u =>
      if add then setStatus ch u (· ||| value)
      -- a service that loses its status is given it back by `reop_service`
      else if v.internal u ∧ value = cstatusOp then ch
      else setStatus ch u (· &&& ~~~value)

def changes (v : View) (ch : Channel) (cs : List ModeChange) : Channel := cs.foldl (change v) ch

/-- `channel_mode` with the mode string and its parameters; a mode string of 0 is no change. -/
def channelMode (ircd : Ircd) (v : View) (ch : Channel) (parv : List CString) : Channel :=
  match parv with
  | [] => ch
  | pos :: params =>
    if pos.head? = none ∨ pos.head? = some '0' then ch
    else changes v ch (parseModes ircd false pos params)

end ChatServices.Modes

/-! The tables of a protocol module as the mode code needs them: no letter of two kinds, and one
bit for each simple mode. -/
namespace ChatServices.Modes
open ChatServices.Lib.Mask ChatServices.Text ChatServices.ChanServ ChatServices.ChanServ.Channels
  ChatServices.Storage

structure Tables extends Ircd where
  simple_bit : ∀ m ∈ modeList, ∃ i : Fin 32, m.2 = BitVec.twoPow 32 i
  simple_same : ∀ m ∈ modeList, ∀ m' ∈ modeList, m.1 = m'.1 → m.2 = m'.2
  simple_apart : ∀ m ∈ modeList, m.2 &&& (cmodeKey ||| cmodeLimit) = 0#32
  /-- `flags_to_string` writes into 32 bytes. -/
  simple_short : modeList.length < 32
  letters_nodup : ((modeList.map Prod.fst).dedup ++ (ignoreModeList ++ 'l' :: 'k' ::
    (banLikeModes ++ (statusModeList.map Prod.fst ++ ['+', '-', ' '])))).Nodup

variable (t : Tables)

def Tables.IsParam (c : Char) : Prop :=
  c = 'k' ∨ c ∈ t.banLikeModes ∨ c ∈ t.statusModeList.map Prod.fst

instance (c : Char) : Decidable (t.IsParam c) := inferInstanceAs (Decidable (_ ∨ _ ∨ _))

def IsMark (c : Char) : Prop := c = '+' ∨ c = '-' ∨ c = ' '

theorem Tables.letters_apart :
    t.ignoreModeList.Nodup ∧
    (∀ c ∈ t.ignoreModeList, c ∉ t.modeList.map Prod.fst ∧ ¬ IsMark c) ∧
    (∀ c ∈ t.modeList.map Prod.fst, ¬ IsMark c) ∧
    ('l' ∉ t.modeList.map Prod.fst ∧ 'l' ∉ t.ignoreModeList) ∧
    ∀ c, t.IsParam c → c ∉ t.modeList.map Prod.fst ∧ c ∉ t.ignoreModeList ∧ c ≠ 'l' ∧ ¬ IsMark c := by
  have h := t.letters_nodup
  simp only [List.nodup_append, List.nodup_cons, List.mem_append, List.mem_cons,
    List.mem_dedup] at h
  obtain ⟨-, ⟨hext, ⟨hl, hk, hban, ⟨hstatus, hmarks, hsm⟩, hbs⟩, hei⟩, hsi⟩ := h
  refine ⟨hext, ?_, ?_, ?_, ?_⟩
  · intro c hc
    refine ⟨fun hs => hsi c hs c (.inl hc) rfl, ?_⟩
    rintro (rfl | rfl | rfl)
    all_goals exact hei _ hc _ (by simp) rfl
  · rintro c hc (rfl | rfl | rfl)
    all_goals exact hsi _ hc _ (by simp) rfl
  · exact ⟨fun hs => hsi _ hs _ (by simp) rfl, fun hs => hei _ hs _ (by simp) rfl⟩
  · rintro c (rfl | hc | hc)
    · exact ⟨fun hs => hsi _ hs _ (by simp) rfl, fun hs => hei _ hs _ (by simp) rfl, by decide,
        by unfold IsMark; decide⟩
    · refine ⟨fun hs => hsi _ hs c (by simp [hc]) rfl, fun hs => hei _ hs c (by simp [hc]) rfl, ?_, ?_⟩
      · rintro rfl
        exact hl (by simp [hc])
      · rintro (rfl | rfl | rfl)
        all_goals exact hbs _ hc _ (by simp) rfl
    · refine ⟨fun hs => hsi _ hs c (by simp [hc]) rfl, fun hs => hei _ hs c (by simp [hc]) rfl, ?_, ?_⟩
      · rintro rfl
        exact hl (by simp [hc])
      · rintro (rfl | rfl | rfl)
        all_goals exact hsm _ hc _ (by simp) rfl

/-! ### Letters -/

theorem Tables.find_simple_none {c : Char} (h : c ∉ t.modeList.map Prod.fst) :
    (t.modeList.find? fun m => m.1 = c) = none := by
  rw [List.find?_eq_none]
  intro m hm hc
  exact h (List.mem_map.mpr ⟨m, hm, of_decide_eq_true hc⟩)

theorem Tables.parseMode_simple {m : Char × Flags} (hm : m ∈ t.modeList) (add : Bool)
    (params : List CString) : parseMode t.toIrcd add m.1 params = ([.simple add m.2], params) := by
  rw [parseMode]
  cases hfind : t.modeList.find? fun m' => m'.1 = m.1 with
  | none => simpa using List.find?_eq_none.mp hfind m hm
  | some m' =>
    have hletter : m'.1 = m.1 := by simpa using List.find?_some hfind
    have hvalue := t.simple_same m' (List.mem_of_find?_eq_some hfind) m hm hletter
    simp only [hvalue]

theorem Tables.parseMode_ext {i : Nat} (hi : i < t.ignoreModeList.length) (params : List CString) :
    parseMode t.toIrcd false t.ignoreModeList[i] params = ([.ext i none], params) ∧
    ∀ p, parseMode t.toIrcd true t.ignoreModeList[i] (p :: params) = ([.ext i (some p)], params) := by
  obtain ⟨hnodup, hext, -⟩ := t.letters_apart
  have hsimple := t.find_simple_none (hext _ (List.getElem_mem hi)).1
  have hidx : t.ignoreModeList.idxOf? t.ignoreModeList[i] = some i := by
    rw [List.idxOf?_eq_some_iff]
    refine ⟨hi, rfl, ?_⟩
    intro j hj heq
    exact absurd (hnodup.getElem_inj_iff.mp heq) (by omega)
  constructor
  · simp only [parseMode, hsimple, hidx]
    rfl
  · intro p
    simp only [parseMode, hsimple, hidx]
    rfl

theorem Tables.parseMode_limit (params : List CString) :
    parseMode t.toIrcd false 'l' params = ([.limit none], params) ∧
    ∀ p, parseMode t.toIrcd true 'l' (p :: params) = ([.limit (some p)], params) := by
  obtain ⟨-, -, -, ⟨hsimple, hext⟩, -⟩ := t.letters_apart
  have hidx : t.ignoreModeList.idxOf? 'l' = none := List.idxOf?_eq_none_iff.mpr hext
  constructor
  · simp only [parseMode, t.find_simple_none hsimple, hidx]
    rfl
  · intro p
    simp only [parseMode, t.find_simple_none hsimple, hidx]
    rfl

def listed : ModeChange → Bool
  | .key _ | .banlike .. | .status .. => true
  | .simple .. | .ext .. | .limit _ => false

theorem Tables.parseMode_param {c : Char} (hc : t.IsParam c) (add : Bool) (p : CString) :
    ∃ x, listed x = true ∧
      ∀ params, parseMode t.toIrcd add c (p :: params) = ([x], params) := by
  obtain ⟨hsimple, hext, hl, -⟩ := t.letters_apart.2.2.2.2 c hc
  have hidx : t.ignoreModeList.idxOf? c = none := List.idxOf?_eq_none_iff.mpr hext
  simp only [parseMode, t.find_simple_none hsimple, hidx, if_neg hl]
  by_cases hk : c = 'k'
  · cases add with
    | true => exact ⟨.key (some p), rfl, fun params => by rw [if_pos hk]; rfl⟩
    | false => exact ⟨.key none, rfl, fun params => by rw [if_pos hk]; rfl⟩
  · by_cases hban : c ∈ t.banLikeModes
    · exact ⟨.banlike add c p, rfl, fun params => by rw [if_neg hk, if_pos hban]; rfl⟩
    · obtain ⟨m, hm, rfl⟩ := List.mem_map.mp ((hc.resolve_left hk).resolve_left hban)
      cases hfind : t.statusModeList.find? fun m' => m'.1 = m.1 with
      | none => simpa using List.find?_eq_none.mp hfind m hm
      | some m' =>
        exact ⟨.status add m.1 m'.2 p, rfl, fun params => by rw [if_neg hk, if_neg hban]; rfl⟩

end ChatServices.Modes
