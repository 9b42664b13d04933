import ChatServices.Bans
import Mathlib.Data.List.Sigma

/-! Ban numbers stay unique while the counters stay ahead of them. The counter of the K-lines
is saved with the database; the ones of the X-lines and Q-lines begin again with the length of
the loaded list. -/
namespace ChatServices
open ChatServices.Lib ChatServices.Lib.Numbered ChatServices.Lib.Run ChatServices.Lib.Walk
  ChatServices.Text

/-! ### K-lines -/

structure KlinesOk (klines : List Kline) (klineId : Nat) : Prop where
  unique : Distinct (fun k => k.number % 2 ^ 32) klines
  pos : ∀ k ∈ klines, 0 < k.number % 2 ^ 32
  le : ∀ k ∈ klines, k.number % 2 ^ 32 ≤ klineId % 2 ^ 32

section klines
variable {cfg : BanConfig} {s : Bans}

theorem KlinesOk.numbers {ks : List Kline} {id : Nat} (h : KlinesOk ks id) :
    Distinct Ban.number ks :=
  @Distinct.of_comp Kline Ban.number ks (· % 2 ^ 32) h.unique

theorem KlinesOk.sublist {ks ks' : List Kline} {id : Nat} (h : KlinesOk ks id)
    (hs : ks'.Sublist ks) : KlinesOk ks' id :=
  ⟨h.unique.sublist hs, fun k hk => h.pos k (hs.subset hk), fun k hk => h.le k (hs.subset hk)⟩

theorem klineAdd_ok {ks : List Kline} {id : Nat} (now : Nat) (mask : CString × CString)
    (duration : Nat) (h : KlinesOk ks id) (hfit : (id + 1) % 2 ^ 32 ≠ 0) :
    KlinesOk (ks ++ [newBan now mask duration ((id + 1) % 2 ^ 64)]) ((id + 1) % 2 ^ 64) := by
  have hmod : (id + 1) % 2 ^ 64 % 2 ^ 32 = (id + 1) % 2 ^ 32 := by omega
  have hnext : (id + 1) % 2 ^ 32 = id % 2 ^ 32 + 1 := by omega
  refine ⟨h.unique.append_fresh h.le ?_, fun k hk => ?_, fun k hk => ?_⟩
  · show id % 2 ^ 32 < (id + 1) % 2 ^ 64 % 2 ^ 32
    omega
  · obtain hk | hk := List.mem_append.mp hk
    · exact h.pos k hk
    · rw [List.mem_singleton.mp hk]
      show 0 < (id + 1) % 2 ^ 64 % 2 ^ 32
      omega
  · obtain hk | hk := List.mem_append.mp hk
    · have hle := h.le k hk
      omega
    · rw [List.mem_singleton.mp hk]
      exact le_refl _

theorem osCmdAkillAdd_ok (now : Nat) (mask : CString × CString) (duration : Nat)
    (h : KlinesOk s.klines s.klineId) (hfit : (s.klineId + 1) % 2 ^ 32 ≠ 0) :
    KlinesOk (osCmdAkillAdd cfg s now mask duration).klines
      (osCmdAkillAdd cfg s now mask duration).klineId := by
  rw [osCmdAkillAdd]
  split_ifs
  · exact h
  · exact klineAdd_ok now mask duration h hfit
  · exact klineAdd_ok now mask duration (h.sublist List.filter_sublist) hfit

theorem akillDelNum_eq (h : KlinesOk s.klines s.klineId) (n : Nat) :
    akillDelNum s n = { s with klines := s.klines.filter (fun k => k.number ≠ n) } := by
  rw [akillDelNum]
  cases hf : klineFindNum s n with
  | none =>
    have hkeep : s.klines.filter (fun k => decide (k.number ≠ n)) = s.klines :=
      List.filter_eq_self.mpr fun k hk => by
        have hmiss := List.find?_eq_none.mp hf k hk
        simpa using hmiss
    rw [hkeep]
  | some k =>
    have hk : k.number = n := by simpa using List.find?_some hf
    have heq := h.numbers.eraseP_num (List.mem_of_find?_eq_some hf)
    rw [hk] at heq
    simp only [klineDelete, heq]

theorem sreadIntUlong_mod (n : Nat) : sreadIntUlong (n % 2 ^ 32) % 2 ^ 32 = n % 2 ^ 32 := by
  rw [sreadIntUlong]
  split_ifs <;> omega

theorem foldl_corestorageHKl (rows : List (BanRow (CString × CString))) (s : Bans)
    (h : ∀ row ∈ rows, row.id ≠ 0) :
    rows.foldl (corestorageHKl dbVersion) s =
      { s with klines := s.klines ++ rows.map (fun row => restoreBan row row.id) } := by
  induction rows generalizing s with
  | nil => simp
  | cons row rows ih =>
    have hrow : rowId dbVersion row ≠ 0 := h row (List.mem_cons_self ..)
    have hstep : corestorageHKl dbVersion s row =
        { s with klines := s.klines ++ [restoreBan row row.id] } := by
      rw [corestorageHKl]
      exact if_pos hrow
    rw [List.foldl_cons, hstep, ih _ fun row' hrow' => h row' (List.mem_cons_of_mem _ hrow')]
    simp

theorem klines_load_ok (h : KlinesOk s.klines s.klineId) :
    KlinesOk (corestorageDbLoad dbVersion (corestorageDbSave s)).klines
      (corestorageDbLoad dbVersion (corestorageDbSave s)).klineId := by
  have hids : ∀ row ∈ s.klines.map saveBan, row.id ≠ 0 := by
    intro row hrow
    obtain ⟨k, hk, rfl⟩ := List.mem_map.mp hrow
    exact Nat.pos_iff_ne_zero.mp (h.pos k hk)
  rw [corestorageDbLoad, corestorageDbSave, foldl_corestorageHKl _ _ hids]
  simp only [noBans, List.nil_append, List.map_map]
  have hnumber : ∀ k : Kline, (restoreBan (saveBan k) (saveBan k).id).number % 2 ^ 32 =
      k.number % 2 ^ 32 := fun k => Nat.mod_mod _ _
  refine ⟨?_, fun k' hk' => ?_, fun k' hk' => ?_⟩
  · have hmap : (s.klines.map ((fun row => restoreBan row row.id) ∘ saveBan)).map
        (fun k => k.number % 2 ^ 32) = s.klines.map (fun k => k.number % 2 ^ 32) := by
      rw [List.map_map]
      exact List.map_congr_left fun k _ => hnumber k
    rw [Distinct, hmap]
    exact h.unique
  · obtain ⟨k, hk, rfl⟩ := List.mem_map.mp hk'
    exact (hnumber k).symm ▸ h.pos k hk
  · obtain ⟨k, hk, rfl⟩ := List.mem_map.mp hk'
    rw [sreadIntUlong_mod]
    exact (hnumber k).symm ▸ h.le k hk

end klines

/-! ### X-lines and Q-lines -/

structure LinesOk (hits : CString → CString → Bool) (l : LineList) : Prop where
  unique : Distinct Ban.number l.lines
  pos : ∀ x ∈ l.lines, 0 < x.number
  le : ∀ x ∈ l.lines, x.number ≤ l.cnt
  cnt : l.cnt < 2 ^ 32
  misses : l.lines.Pairwise fun a b => hits a.mask b.mask = false

section lines
variable {hits : CString → CString → Bool} {l : LineList}

theorem LinesOk.sublist {ls : List (Ban CString)} (h : LinesOk hits l) (hs : ls.Sublist l.lines) :
    LinesOk hits { l with lines := ls } :=
  ⟨h.unique.sublist hs, fun x hx => h.pos x (hs.subset hx), fun x hx => h.le x (hs.subset hx),
    h.cnt, h.misses.sublist hs⟩

theorem LinesOk.delete (h : LinesOk hits l) (mask : CString) : LinesOk hits (l.delete hits mask) :=
  h.sublist List.eraseP_sublist

theorem LinesOk.delNum (h : LinesOk hits l) (n : Nat) : LinesOk hits (l.delNum hits n) := by
  rw [LineList.delNum]
  split
  · exact h.delete _
  · exact h

theorem expireBody_eq {now : Nat} {before rest : List (Ban CString × Nat)} {x : Ban CString × Nat}
    (hmisses : ∀ y ∈ before, hits y.1.mask x.1.mask = false)
    (hfound : x.1.expired now = true → hits x.1.mask x.1.mask = true ∨
      ∀ y ∈ before ++ x :: rest, hits y.1.mask x.1.mask = false) :
    LineList.expireBody hits now (before ++ x :: rest) x = some (before ++ rest) ∨
      LineList.expireBody hits now (before ++ x :: rest) x = some (before ++ x :: rest) := by
  rw [LineList.expireBody]
  by_cases hdue : x.1.expired now = true
  · rw [if_pos hdue]
    obtain hself | hnone := hfound hdue
    · left
      rw [List.eraseP_append_right _ (by simpa using hmisses), List.eraseP_cons, hself, cond_true]
    · right
      rw [List.eraseP_of_forall_not (by simpa using hnone)]
  · rw [if_neg hdue]
    exact .inr rfl

theorem LinesOk.expire (h : LinesOk hits l) {now : Nat}
    (hfound : ∀ x ∈ l.lines, x.expired now = true →
      hits x.mask x.mask = true ∨ ∀ y ∈ l.lines, hits y.mask x.mask = false) :
    ∃ l', l.expire hits now = some l' ∧ LinesOk hits l' := by
  have hfst : l.lines.zipIdx.map Prod.fst = l.lines := List.zipIdx_map_fst ..
  have hmem : ∀ {xs : List (Ban CString × Nat)}, xs.Sublist l.lines.zipIdx → ∀ x ∈ xs,
      x.1 ∈ l.lines := fun hs x hx => hfst ▸ List.mem_map_of_mem (hs.subset hx)
  have hnodup : l.lines.zipIdx.Nodup := .of_map _ (List.nodup_zipIdx_map_snd l.lines)
  have hmisses : l.lines.zipIdx.Pairwise fun a b => hits a.1.mask b.1.mask = false := by
    have hpairs := h.misses
    rw [← hfst] at hpairs
    exact List.pairwise_map.mp hpairs
  -- the nodes that are still to come end the list, and no ban has come to it
  let I (rest nodes : List (Ban CString × Nat)) : Prop :=
    nodes.Sublist l.lines.zipIdx ∧ ∃ before, nodes = before ++ rest
  have hwalk : ∃ nodes, walkSafe (fun nodes => nodes) (LineList.expireBody hits now)
      l.lines.zipIdx.length l.lines.zipIdx.head? l.lines.zipIdx = some nodes ∧ I [] nodes := walkSafe_run
    (fun rest nodes hI => ⟨hnodup.sublist hI.1, hI.2⟩)
    (fun x rest nodes hI => by
      obtain ⟨hsub, before, rfl⟩ := hI
      have hbefore := (List.pairwise_append.mp (hmisses.sublist hsub)).2.2
      have hx := hmem hsub x (by simp)
      obtain hgone | hkept := expireBody_eq (fun y hy => hbefore y hy x List.mem_cons_self)
        (fun hdue => (hfound x.1 hx hdue).imp_right fun hnone y hy => hnone y.1 (hmem hsub y hy))
      · exact ⟨_, hgone, (List.Sublist.append_left (List.sublist_cons_self x rest) before).trans hsub,
          before, rfl⟩
      · exact ⟨_, hkept, hsub, before ++ [x], by simp⟩)
    ⟨.refl _, [], rfl⟩ (le_refl _)
  obtain ⟨nodes, hnodes, hsub, -⟩ := hwalk
  refine ⟨{ l with lines := nodes.map Prod.fst }, ?_, ?_⟩
  · rw [LineList.expire, hnodes, Option.map_some]
  · have hlines := hsub.map Prod.fst
    rw [hfst] at hlines
    exact h.sublist hlines

theorem LinesOk.cmdAdd (h : LinesOk hits l) (now : Nat) (mask : CString) (duration : Nat)
    (hfit : l.cnt + 1 < 2 ^ 32) : LinesOk hits (l.cmdAdd hits now mask duration) := by
  rw [LineList.cmdAdd]
  split_ifs with hfind
  · exact h
  have hnew : (l.cnt + 1) % 2 ^ 32 = l.cnt + 1 := Nat.mod_eq_of_lt hfit
  have hmiss : ∀ x ∈ l.lines, hits x.mask mask = false := by
    have hnone := Option.not_isSome_iff_eq_none.mp hfind
    intro x hx
    simpa using List.find?_eq_none.mp hnone x hx
  simp only [LineList.add, hnew]
  refine ⟨h.unique.append_fresh h.le (Nat.lt_succ_self _), fun x hx => ?_, fun x hx => ?_, hfit, ?_⟩
  · obtain hx | hx := List.mem_append.mp hx
    · exact h.pos x hx
    · rw [List.mem_singleton.mp hx]
      exact Nat.succ_pos _
  · obtain hx | hx := List.mem_append.mp hx
    · have hle := h.le x hx
      show x.number ≤ l.cnt + 1
      omega
    · rw [List.mem_singleton.mp hx]
      exact le_refl _
  · refine List.pairwise_append.mpr ⟨h.misses, List.pairwise_singleton _ _, fun x hx y hy => ?_⟩
    rw [List.mem_singleton.mp hy]
    exact hmiss x hx

theorem LinesOk.delNum_eq (h : LinesOk hits l) {n : Nat}
    (hself : ∀ x ∈ l.lines, x.number = n → hits x.mask x.mask = true) :
    l.delNum hits n = { l with lines := l.lines.filter (fun x => x.number ≠ n) } := by
  rw [LineList.delNum]
  cases hf : l.lines.find? (fun x => x.number = n) with
  | none =>
    have hkeep : l.lines.filter (fun x => decide (x.number ≠ n)) = l.lines :=
      List.filter_eq_self.mpr fun x hx => by
        have hmiss := List.find?_eq_none.mp hf x hx
        simpa using hmiss
    rw [hkeep]
  | some x =>
    have hx : x.number = n := by simpa using List.find?_some hf
    have hmem := List.mem_of_find?_eq_some hf
    have heq := @eraseP_eq_filter _ Ban.number l.lines (fun a b => hits a.mask b.mask) x h.misses
      (hself x hmem hx) h.unique hmem
    rw [hx] at heq
    simp only [LineList.delete, heq]

theorem foldl_corestorageHLine (rows : List (BanRow CString)) (l : LineList)
    (h : ∀ row ∈ rows, row.id ≠ 0) (hcnt : l.cnt + rows.length < 2 ^ 32) :
    rows.foldl (corestorageHLine dbVersion) l =
      { l with cnt := l.cnt + rows.length,
               lines := l.lines ++ rows.map (fun row => restoreBan row row.id) } := by
  induction rows generalizing l with
  | nil => simp
  | cons row rows ih =>
    rw [List.length_cons] at hcnt
    have hrow : rowId dbVersion row ≠ 0 := h row (List.mem_cons_self ..)
    have hstep : corestorageHLine dbVersion l row =
        { l with cnt := l.cnt + 1, lines := l.lines ++ [restoreBan row row.id] } := by
      have hnew : (l.cnt + 1) % 2 ^ 32 = l.cnt + 1 := Nat.mod_eq_of_lt (by omega)
      simp only [corestorageHLine, hnew, if_pos hrow]
      rfl
    rw [List.foldl_cons, hstep, ih _ (fun row' hrow' => h row' (List.mem_cons_of_mem _ hrow'))
      (by dsimp only; omega)]
    simp only [List.length_cons, List.map_cons, List.append_assoc, List.singleton_append,
      LineList.mk.injEq, true_and, and_true]
    omega

theorem LinesOk.load (h : LinesOk hits l) (hlen : ∀ x ∈ l.lines, x.number ≤ l.lines.length) :
    LinesOk hits (loadLines dbVersion (l.id % 2 ^ 32) (l.lines.map saveBan)) := by
  have hlt : ∀ x ∈ l.lines, x.number < 2 ^ 32 := fun x hx => by
    have hle := h.le x hx
    have hcnt := h.cnt
    omega
  have hids : ∀ row ∈ l.lines.map saveBan, row.id ≠ 0 := by
    intro row hrow
    obtain ⟨x, hx, rfl⟩ := List.mem_map.mp hrow
    have hmod : x.number % 2 ^ 32 = x.number := Nat.mod_eq_of_lt (hlt x hx)
    have hpos := h.pos x hx
    show x.number % 2 ^ 32 ≠ 0
    omega
  have hshort : l.lines.length < 2 ^ 32 := h.unique.length_lt h.pos hlt (by omega)
  rw [loadLines, foldl_corestorageHLine _ _ hids (by simpa using hshort)]
  simp only [List.nil_append, List.map_map, List.length_map, Nat.zero_add]
  have hnumber : ∀ x ∈ l.lines, (restoreBan (saveBan x) (saveBan x).id).number = x.number :=
    fun x hx => Nat.mod_eq_of_lt (hlt x hx)
  refine ⟨?_, fun y hy => ?_, fun y hy => ?_, hshort, ?_⟩
  · have hmap : (l.lines.map ((fun row => restoreBan row row.id) ∘ saveBan)).map Ban.number =
        l.lines.map Ban.number := by
      rw [List.map_map]
      exact List.map_congr_left hnumber
    rw [Distinct, hmap]
    exact h.unique
  · obtain ⟨x, hx, rfl⟩ := List.mem_map.mp hy
    exact (hnumber x hx).symm ▸ h.pos x hx
  · obtain ⟨x, hx, rfl⟩ := List.mem_map.mp hy
    exact (hnumber x hx).symm ▸ hlen x hx
  · exact List.pairwise_map.mpr h.misses

end lines

/-! ### Runs -/

structure BansOk (cfg : BanConfig) (s : Bans) : Prop where
  klines : KlinesOk s.klines s.klineId
  xlines : LinesOk (xlineHits cfg) s.xlines
  qlines : LinesOk (qlineHits cfg) s.qlines

theorem BansOk.unique {cfg : BanConfig} {s : Bans} (h : BansOk cfg s) : NumbersUnique s :=
  ⟨h.klines.numbers, h.xlines.unique, h.qlines.unique⟩

theorem BansOk.step {cfg : BanConfig} {s : Bans} (h : BansOk cfg s) (e : BanEvent)
    (hfit : CountersFit cfg s e) : ∃ s', e.exec cfg s = some s' ∧ BansOk cfg s' := by
  cases e with
  | akillAdd now mask duration =>
    have hk := @osCmdAkillAdd_ok cfg s now mask duration h.klines hfit
    have hrest : (osCmdAkillAdd cfg s now mask duration).xlines = s.xlines ∧
        (osCmdAkillAdd cfg s now mask duration).qlines = s.qlines := by
      rw [osCmdAkillAdd]
      split_ifs <;> exact ⟨rfl, rfl⟩
    exact ⟨_, rfl, hk, hrest.1.symm ▸ h.xlines, hrest.2.symm ▸ h.qlines⟩
  | klineAdd now mask duration =>
    exact ⟨_, rfl, klineAdd_ok now mask duration h.klines hfit, h.xlines, h.qlines⟩
  | akillDelNum n =>
    refine ⟨_, rfl, ?_⟩
    rw [akillDelNum_eq h.klines]
    exact ⟨h.klines.sublist List.filter_sublist, h.xlines, h.qlines⟩
  | akillDel mask => exact ⟨_, rfl, h.klines.sublist List.eraseP_sublist, h.xlines, h.qlines⟩
  | klineExpire now => exact ⟨_, rfl, h.klines.sublist List.filter_sublist, h.xlines, h.qlines⟩
  | sglineAdd now mask duration =>
    exact ⟨_, rfl, h.klines, h.xlines.cmdAdd now mask duration hfit, h.qlines⟩
  | sglineDelNum n => exact ⟨_, rfl, h.klines, h.xlines.delNum n, h.qlines⟩
  | sglineDel mask => exact ⟨_, rfl, h.klines, h.xlines.delete mask, h.qlines⟩
  | xlineExpire now =>
    obtain ⟨xlines, hexpire, hok⟩ := h.xlines.expire hfit
    exact ⟨{ s with xlines := xlines }, by rw [BanEvent.exec, hexpire, Option.map_some],
      h.klines, hok, h.qlines⟩
  | sqlineAdd now mask duration =>
    exact ⟨_, rfl, h.klines, h.xlines, h.qlines.cmdAdd now mask duration hfit⟩
  | sqlineDelNum n => exact ⟨_, rfl, h.klines, h.xlines, h.qlines.delNum n⟩
  | sqlineDel mask => exact ⟨_, rfl, h.klines, h.xlines, h.qlines.delete mask⟩
  | qlineExpire now =>
    obtain ⟨qlines, hexpire, hok⟩ := h.qlines.expire fun q _ (_ : q.expired now = true) =>
      .inl (irccaseEq_self cfg.casemapping q.mask)
    exact ⟨{ s with qlines := qlines }, by rw [BanEvent.exec, hexpire, Option.map_some],
      h.klines, h.xlines, hok⟩
  | restart =>
    exact ⟨_, rfl, klines_load_ok h.klines, h.xlines.load hfit.1, h.qlines.load hfit.2⟩

theorem BansOk.deletesListed {cfg : BanConfig} {s s' : Bans} (h : BansOk cfg s) (e : BanEvent)
    (hfit : CountersFit cfg s e) (hs' : e.exec cfg s = some s') : DeletesListed s s' e := by
  cases e with
  | akillDelNum n =>
    obtain rfl := Option.some.inj hs'
    exact congrArg Bans.klines (akillDelNum_eq h.klines n)
  | sglineDelNum n =>
    obtain rfl := Option.some.inj hs'
    exact congrArg LineList.lines (h.xlines.delNum_eq hfit)
  | sqlineDelNum n =>
    obtain rfl := Option.some.inj hs'
    have hself : ∀ q ∈ s.qlines.lines, q.number = n → qlineHits cfg q.mask q.mask = true :=
      fun q _ _ => irccaseEq_self _ _
    exact congrArg LineList.lines (h.qlines.delNum_eq hself)
  | _ => trivial

theorem noBans_ok (cfg : BanConfig) : BansOk cfg noBans where
  klines := ⟨List.nodup_nil, by simp [noBans], by simp [noBans]⟩
  xlines := ⟨List.nodup_nil, by simp [noBans], by simp [noBans], by decide, List.Pairwise.nil⟩
  qlines := ⟨List.nodup_nil, by simp [noBans], by simp [noBans], by decide, List.Pairwise.nil⟩

/-- In a run whose steps leave the counters ahead of the numbers, all bans of a kind have
different numbers, and a deletion by number takes the ban with that number alone. -/
theorem ban_numbers_unique (cfg : BanConfig) (es : List BanEvent)
    (h : Guarded (banStep cfg) (CountersFit cfg) noBans es) :
    ∀ t ∈ (run (banStep cfg) noBans es).2, t.Sound := by
  refine run_guarded_emits (fun s e hs hfit => ?_) (noBans_ok cfg) h
  obtain ⟨s', hs', hok⟩ := hs.step e hfit
  rw [banStep, hs']
  refine ⟨hok, fun t ht => ?_⟩
  obtain rfl := List.mem_singleton.mp ht
  exact ⟨s', rfl, hok.unique, hs.deletesListed e hfit hs'⟩

def banConfig : BanConfig where
  casemapping := .rfc1459
  matchMask mask name := mask = name
  matchIps _ _ := false
  klineDoNotRemoveMoreSpecific := false

/- Three X-lines, the first of which goes, and a restart. -/
def restartedLines : List BanEvent :=
  [.sglineAdd 0 "spam".toList 0, .sglineAdd 0 "scam".toList 0, .sglineAdd 0 "sham".toList 0,
    .sglineDelNum 1, .restart]

theorem ban_numbers_witness :
    (run (banStep banConfig) noBans (restartedLines.take 4 ++ [.sglineDelNum 3, .sglineDelNum 2,
        .restart, .klineAdd 0 ("*".toList, "host.example".toList) 60])).2 ≠ [] ∧
      ∀ t ∈ (run (banStep banConfig) noBans (restartedLines.take 4 ++ [.sglineDelNum 3,
        .sglineDelNum 2, .restart, .klineAdd 0 ("*".toList, "host.example".toList) 60])).2,
        t.Sound := by
  refine ⟨nofun, ?_⟩
  refine ban_numbers_unique banConfig _ ⟨?_, ?_, ?_, ?_, ?_, ?_, ?_, ?_, trivial⟩
  all_goals unfold CountersFit; decide

/-- The counter of the X-lines begins at the number of those that were loaded, so that the next
X-line gets the number of one that was saved; DEL with that number takes the older one. -/
theorem restarted_number_twice :
    ((run (banStep banConfig) noBans restartedLines).1.xlines.lines.map Ban.number) = [2, 3] ∧
      ((run (banStep banConfig) noBans
        (restartedLines ++ [.sglineAdd 0 "bots".toList 0])).1.xlines.lines.map Ban.number) =
          [2, 3, 3] ∧
      ¬ NumbersUnique (run (banStep banConfig) noBans
        (restartedLines ++ [.sglineAdd 0 "bots".toList 0])).1 := by
  refine ⟨by decide, by decide, fun h => ?_⟩
  have hx := h.2.1
  unfold Distinct at hx
  revert hx
  decide

end ChatServices
