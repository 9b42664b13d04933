import ChatServices.Lib.Framing
import ChatServices.SaslStep
import Mathlib.Algebra.Order.BigOperators.Group.List
import Mathlib.Algebra.Order.Ring.Nat

/-! `sasl_write` against `sasl_input`: the receiver is the generic one for pieces of
400 bytes, the sender is not, and the payloads that survive are characterised. -/
namespace ChatServices.Sasl
open ChatServices.Lib ChatServices.Lib.Run ChatServices.Lib.Framing ChatServices.Text

/-- The packets handed to `sasl_packet` for one uid. -/
def packets (uid : Uid) (obs : List Obs) : List CString :=
  obs.filterMap fun o => match o with
    | .packet u buf => if u = uid then some buf else none
    | _ => none

def feedStep (cfg : ServConfig) (uid : Uid) (s : State) (e : World × CString) : State × List Obs :=
  saslInput cfg e.1 s ⟨uid, .C, e.2, []⟩

def feed (cfg : ServConfig) (uid : Uid) : State → List (World × CString) → State × List Obs :=
  run (feedStep cfg uid)

/-! ### The receiver -/

theorem packets_append (uid : Uid) (xs ys : List Obs) :
    packets uid (xs ++ ys) = packets uid xs ++ packets uid ys := by
  simp [packets]

theorem packets_eq_nil {uid : Uid} {obs : List Obs}
    (h : ∀ o ∈ obs, ∀ u buf, o ≠ .packet u buf) : packets uid obs = [] := by
  simp only [packets, List.filterMap_eq_nil_iff]
  intro o ho
  cases o with
  | packet u buf => exact absurd rfl (h _ ho u buf)
  | _ => rfl

theorem packets_quiet {uid : Uid} {obs : List Obs} (h : Quiet obs) : packets uid obs = [] := by
  refine packets_eq_nil fun o ho u buf he => ?_
  subst he
  exact h _ ho

theorem PacketSpec.packets {cfg : ServConfig} {db : Accounts} {uid : Uid} {m : MechResult}
    {r : PacketResult} (h : PacketSpec cfg db uid m r) (u : Uid) : packets u r.obs = [] := by
  cases h with
  | accepted done find names hb ha =>
    rw [packets_append, packets_quiet hb]
    simpa [Sasl.packets] using @packets_quiet u _ ha
  | destroyed names ho =>
    rw [packets_append, packets_quiet ho]
    rfl
  | more more ho => exact packets_quiet ho

theorem PacketSpec.buf {cfg : ServConfig} {db : Accounts} {uid : Uid} {p : Session}
    {m : MechResult} {r : PacketResult} (h : PacketSpec cfg db uid m r)
    (ha : Advance { p with buf := none } m) {q : Session} (hq : r.session = some q) :
    q.buf = none := by
  have hbuf := ha.buf
  cases h with
  | accepted => cases hq; exact hbuf
  | destroyed => cases hq
  | more => cases hq; exact hbuf

theorem feedStep_full (cfg : ServConfig) (uid : Uid) (s : State) (w : World) (piece : CString)
    (hroom : (sessionOf s uid).collected.length + (cstr piece).length < maxBuffer)
    (hfull : pieceLen ≤ (cstr piece).length) :
    packets uid (feedStep cfg uid s (w, piece)).2 = [] ∧
      (sessionOf (feedStep cfg uid s (w, piece)).1 uid).collected =
        (sessionOf s uid).collected ++ cstr piece := by
  have h := saslData_full cfg w s.accounts uid hroom hfull
  have hin : inputSession cfg w s.accounts (sessionOf s uid) ⟨uid, .C, piece, []⟩ =
      saslData cfg w s.accounts uid (sessionOf s uid) (cstr piece) := rfl
  constructor
  · rw [feedStep, obs_saslInput, hin, h]
    rfl
  · rw [feedStep, sessionOf, find_saslInput, if_pos rfl, hin, h]
    rfl

theorem feedStep_short (cfg : ServConfig) (uid : Uid) (s : State) (w : World) (piece : CString)
    (hroom : (sessionOf s uid).collected.length + (cstr piece).length < maxBuffer)
    (hshort : (cstr piece).length < pieceLen) :
    packets uid (feedStep cfg uid s (w, piece)).2 = [(sessionOf s uid).collected ++ cstr piece] ∧
      (sessionOf (feedStep cfg uid s (w, piece)).1 uid).collected = [] := by
  have h := saslData_short cfg w s.accounts uid hroom hshort
  have hin : inputSession cfg w s.accounts (sessionOf s uid) ⟨uid, .C, piece, []⟩ =
      saslData cfg w s.accounts uid (sessionOf s uid) (cstr piece) := rfl
  obtain ⟨m, ha, hr⟩ := saslPacket_spec cfg w s.accounts uid
    { sessionOf s uid with buf := none } ((sessionOf s uid).collected ++ cstr piece)
  constructor
  · rw [feedStep, obs_saslInput, hin, h]
    simpa [packets] using hr.packets uid
  · rw [feedStep, sessionOf, find_saslInput, if_pos rfl, hin, h]
    dsimp only
    generalize hp : saslPacket cfg w s.accounts uid { sessionOf s uid with buf := none }
      ((sessionOf s uid).collected ++ cstr piece) = r at hr ⊢
    cases hq : r.session with
    | none => rfl
    | some q => simp [Session.collected, hr.buf ha hq]

theorem packets_feed (cfg : ServConfig) (uid : Uid) (s : State) (es : List (World × CString))
    (hroom : (sessionOf s uid).collected.length +
      (es.map (fun e => (cstr e.2).length)).sum < maxBuffer) :
    packets uid (feed cfg uid s es).2 =
      receive pieceLen (sessionOf s uid).collected (es.map (fun e => cstr e.2)) := by
  induction es generalizing s with
  | nil => rfl
  | cons e es ih =>
    obtain ⟨w, piece⟩ := e
    simp only [List.map_cons, List.sum_cons] at hroom
    rw [feed, run_cons, packets_append, List.map_cons]
    by_cases hlen : (cstr piece).length < pieceLen
    · obtain ⟨hp, hs⟩ := feedStep_short cfg uid s w piece (by omega) hlen
      have hroom' : (sessionOf (feedStep cfg uid s (w, piece)).1 uid).collected.length +
          (es.map (fun e => (cstr e.2).length)).sum < maxBuffer := by
        rw [hs, List.length_nil]
        omega
      rw [receive_cons_short hlen, hp]
      simpa [hs, feed] using ih _ hroom'
    · have hfull : pieceLen ≤ (cstr piece).length := by omega
      obtain ⟨hp, hs⟩ := feedStep_full cfg uid s w piece (by omega) hfull
      have hroom' : (sessionOf (feedStep cfg uid s (w, piece)).1 uid).collected.length +
          (es.map (fun e => (cstr e.2).length)).sum < maxBuffer := by
        rw [hs, List.length_append]
        omega
      rw [receive_cons_full hfull, hp]
      simpa [hs, feed] using ih _ hroom'

/-! ### The sender -/

theorem writeFrom_nil (fuel last : Nat) :
    writeFrom fuel last [] = if last = pieceLen then [['+']] else [] := by
  cases fuel <;> rfl

theorem cstr_cstr (s : CString) : cstr (cstr s) = cstr s :=
  (cstr_eq_self_iff _).mpr (nul_notMem_cstr s)

/-- `sasl_write` is the generic sender with `+` for its closing piece, and what it
sends are C strings. -/
theorem writeFrom_eq_send {fuel last : Nat} {data : CString} (hf : data.length ≤ fuel)
    (hlast : data = [] → last = pieceLen) :
    writeFrom fuel last data = (send pieceLen ['+'] fuel data).map cstr := by
  have hplus : cstr ['+'] = ['+'] := rfl
  induction fuel generalizing last data with
  | zero =>
    have hd : data = [] := List.length_eq_zero_iff.mp (by omega)
    subst hd
    rw [writeFrom_nil, if_pos (hlast rfl), send_nil, List.map_singleton, hplus]
  | succ fuel ih =>
    cases data with
    | nil => rw [writeFrom_nil, if_pos (hlast rfl), send_nil, List.map_singleton, hplus]
    | cons c cs =>
      have hpl : pieceLen = 400 := rfl
      by_cases hlong : (c :: cs).length > pieceLen
      · have hdrop : ((c :: cs).drop pieceLen).length ≤ fuel := by
          rw [List.length_drop]
          omega
        rw [send_full (by omega) hlong.le, List.map_cons, ← ih hdrop (fun _ => rfl)]
        simp only [writeFrom, if_pos hlong]
      · simp only [writeFrom, if_neg hlong, List.take_length, List.drop_length, writeFrom_nil]
        by_cases heq : (c :: cs).length = pieceLen
        · rw [send_full (by omega) heq.ge, List.take_of_length_le heq.le,
            List.drop_of_length_le heq.le, send_nil, if_pos heq]
          rfl
        · rw [send_short (by simp) (by omega), if_neg heq]
          rfl

theorem saslWrite_eq_send (payload : CString) :
    saslWrite payload = (send pieceLen ['+'] payload.length payload).map cstr :=
  writeFrom_eq_send (le_refl _) (fun _ => rfl)

theorem cstr_of_mem_saslWrite {payload p : CString} (h : p ∈ saslWrite payload) : cstr p = p := by
  rw [saslWrite_eq_send, List.mem_map] at h
  obtain ⟨q, -, rfl⟩ := h
  exact cstr_cstr q

theorem saslWrite_of_nul_notMem {payload : CString} (hn : nul ∉ payload) :
    saslWrite payload = send pieceLen ['+'] payload.length payload := by
  rw [saslWrite_eq_send]
  have h : (send pieceLen ['+'] payload.length payload).map cstr =
      (send pieceLen ['+'] payload.length payload).map id := by
    refine List.map_congr_left fun p hp => (cstr_eq_self_iff p).mpr fun hnp => ?_
    have hmem := List.mem_flatten.mpr ⟨p, hp, hnp⟩
    rw [flatten_send (by decide) payload _ (le_refl _), List.mem_append] at hmem
    cases hmem with
    | inl h => exact hn h
    | inr h => split at h <;> simp [nul] at h
  rw [h, List.map_id]

theorem sum_saslWrite_le (payload : CString) :
    ((saslWrite payload).map List.length).sum ≤
      payload.length + if payload.length % pieceLen = 0 then 1 else 0 := by
  calc
    ((saslWrite payload).map List.length).sum
        = ((send pieceLen ['+'] payload.length payload).map (fun p => (cstr p).length)).sum := by
          rw [saslWrite_eq_send, List.map_map]
          rfl
    _ ≤ ((send pieceLen ['+'] payload.length payload).map List.length).sum :=
          List.sum_le_sum fun p _ => length_cstr_le p
    _ = payload.length + if payload.length % pieceLen = 0 then 1 else 0 := by
          rw [← List.length_flatten, flatten_send (by decide) payload _ (le_refl _),
            List.length_append]
          split <;> rfl

theorem packets_saslWrite (cfg : ServConfig) (uid : Uid) (s : State)
    (hs : (sessionOf s uid).buf = none) {payload : CString} (hlen : payload.length < maxBuffer)
    {es : List (World × CString)} (hes : es.map Prod.snd = saslWrite payload) :
    packets uid (feed cfg uid s es).2 = receive pieceLen [] (saslWrite payload) := by
  have hcollected : (sessionOf s uid).collected = [] := by simp [Session.collected, hs]
  have hpieces : es.map (fun e => cstr e.2) = saslWrite payload := by
    calc
      es.map (fun e => cstr e.2) = (es.map Prod.snd).map cstr := by simp
      _ = (saslWrite payload).map id := by
        rw [hes]
        exact List.map_congr_left fun p hp => cstr_of_mem_saslWrite hp
      _ = saslWrite payload := List.map_id _
  have hlens : es.map (fun e => (cstr e.2).length) = (saslWrite payload).map List.length := by
    rw [← hpieces]
    simp
  have hsum := sum_saslWrite_le payload
  have hroom : (sessionOf s uid).collected.length +
      (es.map (fun e => (cstr e.2).length)).sum < maxBuffer := by
    have hmax : maxBuffer = 8192 := rfl
    rw [hcollected, hlens, List.length_nil]
    split at hsum
    · rename_i hmod
      simp only [pieceLen] at hmod
      omega
    · omega
  rw [packets_feed cfg uid s es hroom, hcollected, hpieces]

theorem receive_saslWrite {payload : CString} (hn : nul ∉ payload) :
    receive pieceLen [] (saslWrite payload) =
      [payload ++ if payload.length % pieceLen = 0 then ['+'] else []] := by
  rw [saslWrite_of_nul_notMem hn, receive_send (by decide) [] payload _ (le_refl _), List.nil_append]

/-- A payload comes through as the one packet it is exactly when its last piece is
shorter than a full one and no NUL ends a piece early. -/
theorem sasl_write_round_trip_iff (cfg : ServConfig) (uid : Uid) (s : State)
    (hs : (sessionOf s uid).buf = none) (payload : CString) (hlen : payload.length ≤ 8191)
    (es : List (World × CString)) (hes : es.map Prod.snd = saslWrite payload) :
    packets uid (feed cfg uid s es).2 = [payload] ↔
      payload.length % pieceLen ≠ 0 ∧ nul ∉ payload := by
  have hmax : payload.length < maxBuffer := by
    have : maxBuffer = 8192 := rfl
    omega
  rw [packets_saslWrite cfg uid s hs hmax hes]
  by_cases hn : nul ∈ payload
  · have hne : receive pieceLen [] (saslWrite payload) ≠ [payload] := by
      intro h
      have hmem : payload ∈ receive pieceLen [] (saslWrite payload) := by simp [h]
      cases mem_receive hmem hn with
      | inl h => simp at h
      | inr h =>
        obtain ⟨p, hp, hnp⟩ := h
        rw [← cstr_of_mem_saslWrite hp] at hnp
        exact nul_notMem_cstr p hnp
    simp [hne, hn]
  · rw [receive_saslWrite hn]
    by_cases hmod : payload.length % pieceLen = 0 <;> simp [hmod, hn]

theorem sasl_write_round_trip_witness :
    packets ['u'] (feed sampleConfig ['u'] (.initial ⟨.empty, []⟩)
      [(.refusing, "AGEAYg==".toList)]).2 = ["AGEAYg==".toList] :=
  (sasl_write_round_trip_iff sampleConfig ['u'] (.initial ⟨.empty, []⟩) rfl "AGEAYg==".toList
    (by decide) [(.refusing, "AGEAYg==".toList)] rfl).mpr (by decide)

/-- A payload of exactly one full piece comes out with the closing `+` appended. -/
theorem sasl_write_full_piece_garbled :
    packets ['u'] (feed sampleConfig ['u'] (.initial ⟨.empty, []⟩)
      ((saslWrite (List.replicate 400 'A')).map (Prod.mk .refusing))).2 ≠
        [List.replicate 400 'A'] := by
  have hn : nul ∉ List.replicate 400 'A' := by
    intro h
    exact absurd (List.eq_of_mem_replicate h) (by decide)
  have hlen : (List.replicate 400 'A').length < maxBuffer := by
    rw [List.length_replicate]
    decide
  have hes : ((saslWrite (List.replicate 400 'A')).map (Prod.mk World.refusing)).map Prod.snd =
      saslWrite (List.replicate 400 'A') := by
    rw [List.map_map]
    exact List.map_id _
  rw [packets_saslWrite sampleConfig ['u'] (.initial ⟨.empty, []⟩) rfl hlen hes,
    receive_saslWrite hn, List.length_replicate, if_pos (by decide)]
  intro h
  exact absurd (List.append_right_eq_self.mp (List.singleton_inj.mp h)) (by decide)

end ChatServices.Sasl
