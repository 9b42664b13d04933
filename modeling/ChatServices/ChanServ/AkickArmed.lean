import ChatServices.ChanServ.AccessFrame
import ChatServices.ChanServ.AkickTimer

/-! Temporary AKICKs end on time as long as the timer is set for the first of them. The list
that is made at the start of the module is not given a timer, and AKICK DEL of one mask can
take the timeout of another. -/
namespace ChatServices.ChanServ
open ChatServices.Lib ChatServices.Lib.Mask ChatServices.Lib.MaskUpdate ChatServices.Lib.Deadline
open ChatServices.Lib.Run ChatServices.Text

/-! ### The end of an AKICK -/

section acl
variable {cfg : ChanConfig} {w : World} {db db' : ChanDb} {k : MyChanRef × Target}
  {setter : Option Entity} {ca ca' : Chanacs}

theorem find_akickOff_other {k' : MyChanRef × Target} (hk : k' ≠ k) :
    (akickOff cfg w setter k ca db).acl.find k' = db.acl.find k' := by
  rw [akickOff]
  dsimp only
  rw [find_chanacsClose, if_neg fun h => hk h.1, Registry.find_set, if_neg hk]

theorem find_akickOff_self (hsub : Sub ca.level cfg.caAll)
    (hf : (akickOff cfg w setter k ca db).acl.find k = some ca') :
    ¬ Has ca'.level 31 ∧ Sub ca'.level cfg.caAll := by
  have h31 : Has cfg.caAll 31 := (caAll_basic cfg.flagConfig).1.has (by decide)
  rw [akickOff] at hf
  dsimp only at hf
  rw [find_chanacsClose, Option.ite_none_left_eq_some, Registry.find_set, if_pos rfl] at hf
  obtain ⟨old, -, rfl⟩ := Option.map_eq_some_iff.mp hf.2
  have hok : (chanacsModify w db ca (Change.mask ⟨0#32, caAkick⟩ cfg.caAll) cfg.caAll
      setter).ok = true :=
    chanacsModify_ok_iff.mpr (.inr (permits_of_sub hsub (and_sub_right _ _)))
  have hlevel := chanacsModify_level hok
  refine ⟨fun hhas => ?_, chanacsModifySimple_known hsub⟩
  rw [chanacsModifySimple, hlevel, has_result] at hhas
  obtain ⟨-, hnot⟩ | ⟨-, hadd⟩ := hhas
  · exact hnot ((has_and _ _ 31).mpr ⟨(has_caAkick 31).mpr rfl, h31⟩)
  · exact has_zero 31 ((has_and _ _ 31).mp hadd).1

theorem AclOk.off (h : AclOk cfg db) (hsub : Sub ca.level cfg.caAll) :
    AclOk cfg (akickOff cfg w setter k ca db) := by
  have hsome : ∀ k', ((akickOff cfg w setter k ca db).acl.find k').isSome →
      (db.acl.find k').isSome := by
    intro k' hk'
    by_cases hk : k' = k
    · have hset : ((akickOff cfg w setter k ca db).acl.find k).isSome := hk ▸ hk'
      rw [akickOff] at hset
      dsimp only at hset
      rw [find_chanacsClose] at hset
      split_ifs at hset
      · simp at hset
      · rw [Registry.find_set, if_pos rfl, Option.isSome_map] at hset
        exact hk ▸ hset
    · rwa [find_akickOff_other hk] at hk'
  refine h.shrink (fun k' hk' => h.chans k' (hsome k' hk')) hsome fun k' => ?_
  · by_cases hk : k' = k
    · subst hk
      cases hf : (akickOff cfg w setter k' ca db).acl.find k' with
      | none =>
        rw [levelAt, hf]
        exact zero_sub _
      | some ca' =>
        rw [levelAt_of_find hf]
        exact (find_akickOff_self hsub hf).2
    · rw [levelAt, find_akickOff_other hk]
      exact h.known k'

theorem expires_eq_none (h : ¬ Has ca.level 31) : ca.expires = none := by
  rw [Chanacs.expires, if_neg]
  rwa [test_caAkick]

theorem has_of_expires {e : Nat} (h : ca.expires = some e) : Has ca.level 31 := by
  by_contra hnot
  rw [expires_eq_none hnot] at h
  cases h

end acl

section off
variable {cfg : ChanConfig} {w : World} {db : ChanDb} {k k' : MyChanRef × Target}
  {setter : Option Entity} {ca ca' : Chanacs}

theorem akickOff_temporary {e : Nat} (hsub : Sub ca.level cfg.caAll)
    (hf : (akickOff cfg w setter k ca db).acl.find k' = some ca') (he : ca'.expires = some e) :
    db.acl.find k' = some ca' ∧ k' ≠ k := by
  have hne : k' ≠ k := by
    intro heq
    subst heq
    exact (find_akickOff_self hsub hf).1 (has_of_expires he)
  rw [find_akickOff_other hne] at hf
  exact ⟨hf, hne⟩

end off

/-! ### Timeouts and the entries they are for -/

def AkickTimeout.names (timeout : AkickTimeout) (k : MyChanRef × Target) : Prop :=
  timeout.chan = k.1 ∧
    match k.2 with
    | .entity mt => timeout.entity = some mt
    | .host mask => timeout.entity = none ∧ timeout.host = mask

instance (timeout : AkickTimeout) :
    ∀ k : MyChanRef × Target, Decidable (timeout.names k)
  | (mc, .entity mt) => inferInstanceAs (Decidable (timeout.chan = mc ∧ timeout.entity = some mt))
  | (mc, .host mask) => inferInstanceAs (Decidable (timeout.chan = mc ∧
      timeout.entity = none ∧ timeout.host = mask))

def Covered (db : ChanDb) (timeouts : List AkickTimeout) : Prop :=
  ∀ k ca e, db.acl.find k = some ca → ca.expires = some e →
    ∃ timeout ∈ timeouts, timeout.names k ∧ timeout.expiration = e

section timeouts
variable {cfg : ChanConfig} {w : World} {db : ChanDb} {timeout : AkickTimeout}

theorem newTimeout_expiration (db : ChanDb) (mc : MyChanRef) (t : Target) (e : Nat) :
    (newTimeout db mc t e).expiration = e := by
  cases t <;> rfl

theorem newTimeout_chan (db : ChanDb) (mc : MyChanRef) (t : Target) (e : Nat) :
    (newTimeout db mc t e).chan = mc := by
  cases t <;> rfl

theorem newTimeout_names {mc : MyChanRef} {t : Target} {e : Nat}
    (h : ∀ mask, t = .host mask → mask.length ≤ nickLen + userLen + hostLen + 1) :
    (newTimeout db mc t e).names (mc, t) := by
  cases t with
  | entity mt => exact ⟨rfl, rfl⟩
  | host mask =>
    refine ⟨rfl, rfl, List.take_of_length_le ?_⟩
    have hlen := h mask rfl
    rw [akickHostLen]
    omega

theorem timeoutEntry_some {t : Target} {ca : Chanacs}
    (h : timeoutEntry db.acl timeout = some (t, ca)) :
    db.acl.find (timeout.chan, t) = some ca := by
  rw [timeoutEntry] at h
  split at h
  · obtain ⟨⟨mask, ca₁⟩, hfound, heq⟩ := Option.map_eq_some_iff.mp h
    cases heq
    exact find_of_findHostEntry hfound
  · obtain ⟨ca₁, hfound, heq⟩ := Option.map_eq_some_iff.mp h
    cases heq
    exact (Option.filter_eq_some_iff.mp hfound).1

theorem timeoutEntry_names {k : MyChanRef × Target} {ca : Chanacs} (h : AclOk cfg db)
    (hn : timeout.names k) (hf : db.acl.find k = some ca) (h31 : Has ca.level 31) :
    timeoutEntry db.acl timeout = some (k.2, ca) := by
  obtain ⟨mc, t⟩ := k
  obtain ⟨hchan, hn⟩ := hn
  have hsub : Sub caAkick ca.level := by
    refine (sub_iff _ _).mpr fun i hi => ?_
    rwa [(has_caAkick i).mp hi]
  rw [timeoutEntry]
  cases t with
  | entity mt =>
    have hmt : timeout.entity = some mt := hn
    rw [hmt, hchan]
    dsimp only
    rw [chanacsFindLiteral, hf, Option.filter_some, decide_eq_true hsub]
    rfl
  | host mask =>
    obtain ⟨hnone, hhost⟩ := hn
    rw [hnone, hchan]
    dsimp only
    cases hfind : chanacsFindHostLiteral db.acl mc timeout.host caAkick with
    | none =>
      have hmiss := List.findSome?_eq_none_iff.mp hfind (.host mask, ca)
        ((mem_chanacsOf db.acl mc _ _).mpr hf)
      simp only [ite_eq_right_iff, reduceCtorEq, imp_false, not_and] at hmiss
      exact absurd hsub (hmiss (hhost ▸ sameSubject_refl (.host mask)))
    | some found =>
      obtain ⟨mask₁, ca₁⟩ := found
      have hf₁ : db.acl.find (mc, .host mask₁) = some ca₁ := find_of_findHostEntry hfind
      have hcase : SameSubject (.host mask₁) (.host mask) := by
        obtain ⟨⟨t₁, ca₂⟩, -, he⟩ := List.exists_of_findSome?_eq_some hfind
        cases t₁ with
        | entity mt => cases he
        | host mask₂ =>
          simp only [Option.ite_none_right_eq_some, Option.some.injEq, Prod.mk.injEq] at he
          obtain ⟨⟨hc, -⟩, rfl, -⟩ := he
          exact hhost ▸ hc
      have heq := h.single mc _ _ (by rw [hf₁]; rfl) (by rw [hf]; rfl) hcase
      cases heq
      rw [hf] at hf₁
      cases hf₁
      rfl

theorem akickExpire_temporary {k : MyChanRef × Target} {ca : Chanacs} {e : Nat} (h : AclOk cfg db)
    (hf : (akickExpire cfg w db timeout).acl.find k = some ca) (he : ca.expires = some e) :
    db.acl.find k = some ca ∧ ¬ timeout.names k := by
  rw [akickExpire] at hf
  cases hentry : timeoutEntry db.acl timeout with
  | none =>
    rw [hentry] at hf
    refine ⟨hf, fun hn => ?_⟩
    rw [timeoutEntry_names h hn hf (has_of_expires he)] at hentry
    cases hentry
  | some found =>
    obtain ⟨t, ca₁⟩ := found
    rw [hentry] at hf
    obtain ⟨hold, hne⟩ := akickOff_temporary (h.level (timeoutEntry_some hentry)) hf he
    refine ⟨hold, fun hn => hne ?_⟩
    rw [timeoutEntry_names h hn hold (has_of_expires he)] at hentry
    cases hentry
    exact Prod.ext hn.1.symm rfl

theorem AclOk.expire (h : AclOk cfg db) : AclOk cfg (akickExpire cfg w db timeout) := by
  rw [akickExpire]
  cases hentry : timeoutEntry db.acl timeout with
  | none => exact h
  | some found => exact h.off (h.level (timeoutEntry_some hentry))

theorem akickExpire_chans : (akickExpire cfg w db timeout).chans = db.chans := by
  rw [akickExpire]
  split <;> rfl

end timeouts

/-! ### The invariant of the running module -/

structure AkickOk (cfg : ChanConfig) (s : AkickState) : Prop where
  acl : AclOk cfg s.db
  armed : Armed AkickTimeout.expiration s.next s.timeouts
  chans : ∀ timeout ∈ s.timeouts, (s.db.chans.find timeout.chan).isSome
  covered : Covered s.db s.timeouts

def NoneOverdue (now : Nat) (db : ChanDb) : Prop :=
  ∀ k ca e, db.acl.find k = some ca → ca.expires = some e → now < e

section tick
variable {cfg : ChanConfig} {w : World} {s : AkickState}

theorem Covered.noneOverdue {db : ChanDb} {timeouts : List AkickTimeout} {now : Nat}
    (h : Covered db timeouts) (hlate : ∀ timeout ∈ timeouts, now < timeout.expiration) :
    NoneOverdue now db := by
  intro k ca e hf he
  obtain ⟨timeout, hmem, -, hexp⟩ := h k ca e hf he
  exact hexp ▸ hlate timeout hmem

theorem Covered.expire {db : ChanDb} {timeout : AkickTimeout} {timeouts : List AkickTimeout}
    (hacl : AclOk cfg db) (h : Covered db (timeout :: timeouts)) :
    Covered (akickExpire cfg w db timeout) timeouts := by
  intro k ca e hf he
  obtain ⟨hold, hnot⟩ := akickExpire_temporary hacl hf he
  obtain ⟨other, hmem, hnames, hexp⟩ := h k ca e hold he
  obtain rfl | hmem := List.mem_cons.mp hmem
  · exact absurd hnames hnot
  · exact ⟨other, hmem, hnames, hexp⟩

theorem akickCheckFrom_ok {timeouts : List AkickTimeout} {db : ChanDb} (hacl : AclOk cfg db)
    (hsorted : timeouts.Pairwise fun a b => a.expiration ≤ b.expiration)
    (hchans : ∀ timeout ∈ timeouts, (db.chans.find timeout.chan).isSome)
    (hcovered : Covered db timeouts) :
    ∃ s', akickCheckFrom cfg w db timeouts = some s' ∧ AkickOk cfg s' ∧
      NoneOverdue w.currtime s'.db := by
  induction timeouts generalizing db with
  | nil => exact ⟨_, rfl, ⟨hacl, armed_nil, hchans, hcovered⟩, hcovered.noneOverdue (by simp)⟩
  | cons timeout timeouts ih =>
    obtain ⟨hle, hrest⟩ := List.pairwise_cons.mp hsorted
    rw [akickCheckFrom]
    by_cases hlate : timeout.expiration > w.currtime
    · have hall : ∀ other ∈ timeout :: timeouts, timeout.expiration ≤ other.expiration := by
        intro other hmem
        obtain rfl | hmem := List.mem_cons.mp hmem
        · exact le_refl _
        · exact hle other hmem
      rw [if_pos hlate]
      refine ⟨_, rfl, ⟨hacl, .of_le hsorted fun other hmem => ?_, hchans, hcovered⟩, ?_⟩
      · have h := hall other hmem
        dsimp only
        omega
      · refine hcovered.noneOverdue fun other hmem => ?_
        have h := hall other hmem
        omega
    · have hfound := hchans timeout (List.mem_cons_self ..)
      rw [if_neg hlate, if_neg (by simp [Option.isSome_iff_ne_none.mp hfound])]
      refine ih hacl.expire hrest (fun other hmem => ?_) (hcovered.expire hacl)
      rw [akickExpire_chans]
      exact hchans other (List.mem_cons_of_mem _ hmem)

theorem akickTick_ok (h : AkickOk cfg s) :
    ∃ s', akickTick cfg w s = some s' ∧ AkickOk cfg s' ∧ NoneOverdue w.currtime s'.db := by
  rw [akickTick]
  split_ifs with hwait
  · refine ⟨s, rfl, h, h.covered.noneOverdue fun timeout hmem => ?_⟩
    have hset := h.armed.le hmem
    omega
  · exact akickCheckFrom_ok h.acl h.armed.sorted h.chans h.covered

end tick

/-! ### ADD -/

theorem atol_natArg (n : Nat) : atol (natArg n) = n := by
  rw [atol, takeWhile_isDigit_natArg]
  exact foldl_digits_natArg n

section add
variable {cfg : ChanConfig} {w : World} {db : ChanDb} {si : Source} {channel : CString}
  {parv : List CString} {req : AkickRequest} {t : Target}

theorem akickEntry_expires : (akickEntry cfg w db si req).expires =
    if req.duration > 0 then some ((akickEntry cfg w db si req).tmodified + req.duration)
    else none := by
  have h31 : test (akickEntry cfg w db si req).level caAkick = true := by
    rw [akickEntry_level]
    decide
  have hempty : (chanacsModifySimple cfg w db (newEntry w db (si.entity db)) ⟨caAkick, 0#32⟩
      (si.entity db)).metadata = [] := by
    rw [chanacsModifySimple, chanacsModify]
    dsimp only
    split_ifs <;> rfl
  rw [Chanacs.expires, if_pos h31]
  by_cases hd : req.duration > 0
  · rw [if_pos hd]
    simp only [akickEntry, if_pos hd]
    rw [metadataFind_add, Option.map_some, atol_natArg]
  · rw [if_neg hd]
    simp only [akickEntry, if_neg hd, hempty]
    by_cases hr : req.reason = []
    · rw [if_pos hr]
      rfl
    · rw [if_neg hr, metadataFind_add_other (by decide)]
      rfl

theorem akickAddPlan_chan (h : akickAddPlan cfg w db si channel parv = .ok req) :
    (db.chans.find req.mc).isSome := by
  unfold akickAddPlan at h
  split at h
  · cases h
  split at h
  · cases h
  rename_i mc chan hfind
  split at h
  · cases h
  split at h
  · cases h
  split at h
  · cases h
  cases h
  exact mychanFind_registered hfind

theorem akickAddTarget_fits {w : NetWorld}
    (htarget : akickAddTarget cfg w.toWorld db si channel parv = some (req, t)) :
    (db.chans.find req.mc).isSome ∧
      ∀ mask, t = .host mask → mask.length ≤ nickLen + userLen + hostLen + 1 := by
  rw [akickAddTarget] at htarget
  split at htarget
  · cases htarget
  rename_i plan hplan
  split at htarget
  · split at htarget
    · cases htarget
    · cases htarget
      refine ⟨akickAddPlan_chan hplan, fun mask hmask => ?_⟩
      cases hmask
  · dsimp only at htarget
    split_ifs at htarget with hv
    split at htarget
    · cases htarget
      refine ⟨akickAddPlan_chan hplan, fun mask hmask => ?_⟩
      cases hmask
      have hlen := length_collapse_le ((w.prettyMask req.target).getD req.target)
      have hvalid : validhostmask ((w.prettyMask req.target).getD req.target) = true := by
        simpa using hv
      simp only [validhostmask, Bool.and_eq_true, decide_eq_true_eq] at hvalid
      rw [w.collapse_eq]
      omega
    · cases htarget

theorem akickAdd_acl {w : NetWorld} (h : AclOk cfg db)
    (htarget : akickAddTarget cfg w.toWorld db si channel parv = some (req, t)) :
    AclOk cfg { db with acl := db.acl.insertNew (req.mc, t) (akickEntry cfg w.toWorld db si req) } := by
  obtain ⟨hfind, hopen⟩ := akickAddTarget_new htarget
  obtain ⟨hchan, hlen⟩ := akickAddTarget_fits htarget
  refine h.grow (fun _ => id) hchan hlen (fun k hk => ?_) fun k => ?_
  · rw [hopen]
    rw [Registry.find_insertNew] at hk
    by_cases hkey : (req.mc, t) = k
    · exact .inr hkey.symm
    · rw [if_neg hkey, Option.or_none] at hk
      exact .inl hk
  · rw [levelAt_insertNew_none hfind, Function.update_apply, akickEntry_level]
    split_ifs
    · exact caAkick_known
    · exact h.known k

theorem akickAdd_find {k : MyChanRef × Target} {ca : Chanacs}
    (htarget : akickAddTarget cfg w db si channel parv = some (req, t))
    (hk : (db.acl.insertNew (req.mc, t) (akickEntry cfg w db si req)).find k = some ca) :
    db.acl.find k = some ca ∨ k = (req.mc, t) ∧ ca = akickEntry cfg w db si req := by
  have hfind := (akickAddTarget_new htarget).1
  rw [Registry.find_insertNew] at hk
  by_cases hkey : (req.mc, t) = k
  · rw [← hkey, hfind, Option.none_or, if_pos rfl] at hk
    exact .inr ⟨hkey.symm, (Option.some.inj hk).symm⟩
  · rw [if_neg hkey, Option.or_none] at hk
    exact .inl hk

theorem akickAdd_ok {w : NetWorld} {s : AkickState} (h : AkickOk cfg s) :
    AkickOk cfg (akickAdd cfg w.toWorld s si channel parv) := by
  rw [akickAdd]
  cases htarget : akickAddTarget cfg w.toWorld s.db si channel parv with
  | none => exact h
  | some found =>
    obtain ⟨req, t⟩ := found
    obtain ⟨hchan, hlen⟩ := akickAddTarget_fits htarget
    have hacl := akickAdd_acl h.acl htarget
    dsimp only
    split_ifs with hfull hd
    · exact h
    · refine ⟨hacl, ?_, fun timeout hmem => ?_, fun k ca e hk he => ?_⟩
      · refine h.armed.insert ?_
        rw [newTimeout_expiration]
        omega
      · obtain rfl | hmem := mem_insert.mp hmem
        · rwa [newTimeout_chan]
        · exact h.chans timeout hmem
      · obtain hold | ⟨rfl, rfl⟩ := akickAdd_find htarget hk
        · obtain ⟨timeout, hmem, hnames, hexp⟩ := h.covered k ca e hold he
          exact ⟨timeout, mem_insert.mpr (.inr hmem), hnames, hexp⟩
        · rw [akickEntry_expires, if_pos hd] at he
          cases he
          exact ⟨_, mem_insert.mpr (.inl rfl), newTimeout_names hlen, newTimeout_expiration ..⟩
    · refine ⟨hacl, h.armed, h.chans, fun k ca e hk he => ?_⟩
      obtain hold | ⟨-, rfl⟩ := akickAdd_find htarget hk
      · exact h.covered k ca e hold he
      · rw [akickEntry_expires, if_neg hd] at he
        cases he

end add

/-! ### DEL -/

section del
variable {cfg : ChanConfig} {w : World} {s : AkickState} {si : Source} {channel : CString}
  {parv : List CString}

theorem akickDelTarget_found {mc : MyChanRef} {t : Target} {ca : Chanacs} {uname : CString}
    (h : akickDelTarget cfg w s.db si channel parv = some (mc, t, ca, uname)) :
    s.db.acl.find (mc, t) = some ca ∧ ∀ mask, t = .host mask → strcaseEq mask uname = true := by
  rw [akickDelTarget] at h
  split at h
  · cases h
  split at h
  · obtain ⟨ca₁, hfound, heq⟩ := Option.map_eq_some_iff.mp h
    cases heq
    refine ⟨(Option.filter_eq_some_iff.mp hfound).1, fun mask hmask => ?_⟩
    cases hmask
  · obtain ⟨⟨mask₁, ca₁⟩, hfound, heq⟩ := Option.map_eq_some_iff.mp h
    cases heq
    refine ⟨find_of_findHostEntry hfound, fun mask hmask => ?_⟩
    cases hmask
    obtain ⟨⟨t₁, ca₂⟩, -, he⟩ := List.exists_of_findSome?_eq_some hfound
    cases t₁ with
    | entity mt => cases he
    | host mask₂ =>
      simp only [Option.ite_none_right_eq_some, Option.some.injEq, Prod.mk.injEq] at he
      obtain ⟨⟨hc, -⟩, rfl, -⟩ := he
      exact hc

def DropsOwn (cfg : ChanConfig) (w : World) (s : AkickState) (si : Source) (channel : CString)
    (parv : List CString) : Prop :=
  ∀ found ∈ akickDelTarget cfg w s.db si channel parv, ∀ timeout ∈ s.timeouts,
    delDrops cfg found.1 found.2.1 found.2.2.2 timeout = true → timeout.names (found.1, found.2.1)

instance : Decidable (DropsOwn cfg w s si channel parv) :=
  inferInstanceAs (Decidable (∀ found ∈ akickDelTarget cfg w s.db si channel parv,
    ∀ timeout ∈ s.timeouts, delDrops cfg found.1 found.2.1 found.2.2.2 timeout = true →
      timeout.names (found.1, found.2.1)))

theorem names_inj {timeout : AkickTimeout} {k k' : MyChanRef × Target} (h : timeout.names k)
    (h' : timeout.names k') : k = k' := by
  obtain ⟨mc, t⟩ := k
  obtain ⟨mc', t'⟩ := k'
  obtain ⟨hchan, hn⟩ := h
  obtain ⟨hchan', hn'⟩ := h'
  refine Prod.ext (hchan.symm.trans hchan') ?_
  cases t <;> cases t' <;> simp_all

theorem akickDel_ok (h : AkickOk cfg s) (hown : DropsOwn cfg w s si channel parv) :
    AkickOk cfg (akickDel cfg w s si channel parv) := by
  rw [akickDel]
  cases htarget : akickDelTarget cfg w s.db si channel parv with
  | none => exact h
  | some found =>
    obtain ⟨mc, t, ca, uname⟩ := found
    obtain ⟨hf, -⟩ := akickDelTarget_found htarget
    have hlevel := h.acl.level hf
    refine ⟨h.acl.off hlevel, h.armed.sublist List.filter_sublist, fun timeout hmem => ?_,
      fun k ca' e hk he => ?_⟩
    · exact h.chans timeout (List.mem_filter.mp hmem).1
    · obtain ⟨hold, hne⟩ := akickOff_temporary hlevel hk he
      obtain ⟨timeout, hmem, hnames, hexp⟩ := h.covered k ca' e hold he
      refine ⟨timeout, List.mem_filter.mpr ⟨hmem, ?_⟩, hnames, hexp⟩
      rw [Bool.not_eq_true']
      refine Bool.eq_false_iff.mpr fun hdrop => hne ?_
      exact names_inj hnames (hown _ htarget timeout hmem hdrop)

end del

/-! ### The start of the module -/

def AllEnded (now : Nat) (db : ChanDb) : Prop :=
  ∀ k ca e, db.acl.find k = some ca → ca.expires = some e → e < now

section load
variable {cfg : ChanConfig} {w : World} {db : ChanDb} {mc : MyChanRef}

theorem listCreateEntry_ended {s : AkickState} {e : Target × Chanacs}
    (hended : ∀ x, e.2.expires = some x → x < w.currtime) :
    listCreateEntry cfg w mc s e = if e.2.expires = none then s
      else { s with db := akickOff cfg w none (mc, e.1) e.2 s.db } := by
  rw [listCreateEntry]
  cases he : e.2.expires with
  | none => rfl
  | some x => exact if_pos (hended x he)

theorem listCreate_entries (entries : List (Target × Chanacs)) (hacl : AclOk cfg db)
    (hlevel : ∀ e ∈ entries, Sub e.2.level cfg.caAll)
    (hended : ∀ e ∈ entries, ∀ x, e.2.expires = some x → x < w.currtime) :
    ∃ db', entries.foldl (listCreateEntry cfg w mc) ⟨db, [], 0⟩ = ⟨db', [], 0⟩ ∧
      AclOk cfg db' ∧ db'.chans = db.chans ∧
      ∀ k ca x, db'.acl.find k = some ca → ca.expires = some x →
        db.acl.find k = some ca ∧ ∀ e ∈ entries, e.2.expires ≠ none → k ≠ (mc, e.1) := by
  induction entries generalizing db with
  | nil => exact ⟨db, rfl, hacl, rfl, fun k ca x hk _ => ⟨hk, by simp⟩⟩
  | cons e entries ih =>
    have hsub := hlevel e (List.mem_cons_self ..)
    have hrest : ∀ e ∈ entries, Sub e.2.level cfg.caAll :=
      fun e he => hlevel e (List.mem_cons_of_mem _ he)
    have hlater : ∀ e ∈ entries, ∀ x, e.2.expires = some x → x < w.currtime :=
      fun e he => hended e (List.mem_cons_of_mem _ he)
    rw [List.foldl_cons, listCreateEntry_ended (hended e (List.mem_cons_self ..))]
    by_cases hnone : e.2.expires = none
    · obtain ⟨db', hrun, hok, hchans, htemp⟩ := ih hacl hrest hlater
      rw [if_pos hnone]
      refine ⟨db', hrun, hok, hchans, fun k ca x hk hx => ?_⟩
      obtain ⟨hold, hne⟩ := htemp k ca x hk hx
      refine ⟨hold, fun e' he' hsome => ?_⟩
      obtain rfl | he' := List.mem_cons.mp he'
      · exact absurd hnone hsome
      · exact hne e' he' hsome
    · obtain ⟨db', hrun, hok, hchans, htemp⟩ := ih (hacl.off hsub) hrest hlater
      rw [if_neg hnone]
      refine ⟨db', hrun, hok, hchans, fun k ca x hk hx => ?_⟩
      obtain ⟨hmid, hne⟩ := htemp k ca x hk hx
      obtain ⟨hold, hself⟩ := akickOff_temporary hsub hmid hx
      refine ⟨hold, fun e' he' hsome => ?_⟩
      obtain rfl | he' := List.mem_cons.mp he'
      · exact hself
      · exact hne e' he' hsome

theorem listCreate_chans (chans : List (MyChanRef × MyChan)) (hacl : AclOk cfg db)
    (hended : AllEnded w.currtime db) :
    ∃ db', chans.foldl (fun s c => (chanacsOf s.db.acl c.1).foldl (listCreateEntry cfg w c.1) s)
        ⟨db, [], 0⟩ = ⟨db', [], 0⟩ ∧
      AclOk cfg db' ∧ db'.chans = db.chans ∧
      ∀ k ca x, db'.acl.find k = some ca → ca.expires = some x →
        db.acl.find k = some ca ∧ k.1 ∉ chans.map Prod.fst := by
  induction chans generalizing db with
  | nil => exact ⟨db, rfl, hacl, rfl, fun k ca x hk _ => ⟨hk, by simp⟩⟩
  | cons c chans ih =>
    have hfound : ∀ e ∈ chanacsOf db.acl c.1, db.acl.find (c.1, e.1) = some e.2 :=
      fun e he => (mem_chanacsOf ..).mp he
    obtain ⟨db₁, hrun, hok, hchans, htemp⟩ := listCreate_entries (chanacsOf db.acl c.1) hacl
      (fun e he => hacl.level (hfound e he)) (fun e he x hx => hended _ _ x (hfound e he) hx)
    obtain ⟨db', hrun', hok', hchans', htemp'⟩ := ih hok
      fun k ca x hk hx => hended k ca x (htemp k ca x hk hx).1 hx
    rw [List.foldl_cons]
    dsimp only
    rw [hrun]
    refine ⟨db', hrun', hok', hchans'.trans hchans, fun k ca x hk hx => ?_⟩
    obtain ⟨hmid, hnot⟩ := htemp' k ca x hk hx
    obtain ⟨hold, hne⟩ := htemp k ca x hmid hx
    refine ⟨hold, fun hmem => ?_⟩
    obtain hmem | hmem := List.mem_cons.mp hmem
    · have hk₁ : k = (c.1, k.2) := Prod.ext hmem rfl
      exact hne (k.2, ca) ((mem_chanacsOf ..).mpr (hk₁ ▸ hold)) (by simp [hx]) hk₁
    · exact hnot hmem

theorem akickdelListCreate_ok (hacl : AclOk cfg db) (hended : AllEnded w.currtime db) :
    AkickOk cfg (akickdelListCreate cfg w db) := by
  obtain ⟨db', hrun, hok, hchans, htemp⟩ := @listCreate_chans cfg w db db.chans.entries hacl hended
  rw [akickdelListCreate, hrun]
  refine ⟨hok, armed_nil, by simp, fun k ca x hk hx => ?_⟩
  obtain ⟨hold, hnot⟩ := htemp k ca x hk hx
  obtain ⟨chan, hchan⟩ := Option.isSome_iff_exists.mp (hacl.chans k (by rw [hold]; rfl))
  exact absurd (List.mem_map.mpr ⟨_, (Registry.find_eq_some_iff ..).mp hchan, rfl⟩) hnot

end load

/-! ### Runs -/

structure LoadedDb (cfg : ChanConfig) where
  db : ChanDb
  acl : AclOk cfg db

inductive AkickEvent (cfg : ChanConfig) where
  | add (w : NetWorld) (si : Source) (channel : CString) (parv : List CString)
  | del (w : NetWorld) (si : Source) (channel : CString) (parv : List CString)
  | tick (w : NetWorld)
  | load (w : NetWorld) (saved : LoadedDb cfg)

def AkickEvent.exec {cfg : ChanConfig} (s : AkickState) : AkickEvent cfg → Option AkickState
  | .add w si channel parv => some (akickAdd cfg w.toWorld s si channel parv)
  | .del w si channel parv => some (akickDel cfg w.toWorld s si channel parv)
  | .tick w => akickTick cfg w.toWorld s
  | .load w saved => some (akickdelListCreate cfg w.toWorld saved.db)

def AkickEvent.KeepsTimer {cfg : ChanConfig} (s : Option AkickState) : AkickEvent cfg → Prop
  | .add .. => True
  | .del w si channel parv => ∀ s' ∈ s, DropsOwn cfg w.toWorld s' si channel parv
  | .tick _ => True
  | .load w saved => AllEnded w.currtime saved.db

def OnTime {cfg : ChanConfig} : AkickObs (AkickEvent cfg) → Prop
  | .crashed => False
  | .moved _ e s => Armed AkickTimeout.expiration s.next s.timeouts ∧
      ∀ w, e = .tick w → NoneOverdue w.currtime s.db

section runs
variable {cfg : ChanConfig}

theorem akickStep_ok {s : Option AkickState} {e : AkickEvent cfg} (h : ∀ s' ∈ s, AkickOk cfg s')
    (hkeeps : e.KeepsTimer s) :
    (∀ s' ∈ (akickStep AkickEvent.exec s e).1, AkickOk cfg s') ∧
      ∀ o ∈ (akickStep AkickEvent.exec s e).2, OnTime o := by
  cases s with
  | none => simp [akickStep]
  | some s =>
    have hs := h s rfl
    have hexec : ∃ s', AkickEvent.exec s e = some s' ∧ AkickOk cfg s' ∧
        ∀ w, e = .tick w → NoneOverdue w.currtime s'.db := by
      cases e with
      | add w si channel parv => exact ⟨_, rfl, akickAdd_ok hs, nofun⟩
      | del w si channel parv => exact ⟨_, rfl, akickDel_ok hs (hkeeps s rfl), nofun⟩
      | tick w =>
        obtain ⟨s', hrun, hok, hover⟩ := @akickTick_ok cfg w.toWorld s hs
        refine ⟨s', hrun, hok, fun w' heq => ?_⟩
        cases heq
        exact hover
      | load w saved => exact ⟨_, rfl, akickdelListCreate_ok saved.acl hkeeps, nofun⟩
    obtain ⟨s', hrun, hok, hover⟩ := hexec
    simp only [akickStep, hrun, Option.mem_def, Option.some.injEq, List.mem_singleton,
      forall_eq', forall_eq]
    exact ⟨hok, hok.armed, hover⟩

/-- In a run of a module that starts with no temporary AKICK left, each one ends once the timer
fires. -/
theorem temporary_akicks_on_time (s : AkickState) (w : NetWorld) (saved : LoadedDb cfg)
    (es : List (AkickEvent cfg))
    (h : Guarded (akickStep AkickEvent.exec) (fun s e => e.KeepsTimer s) (some s)
      (.load w saved :: es)) :
    ∀ o ∈ (run (akickStep AkickEvent.exec) (some s) (.load w saved :: es)).2, OnTime o := by
  have hloaded : AkickOk cfg (akickdelListCreate cfg w.toWorld saved.db) :=
    akickdelListCreate_ok saved.acl h.1
  intro o ho
  rw [run_cons] at ho
  obtain ho | ho := List.mem_append.mp ho
  · rw [List.mem_singleton.mp ho]
    exact ⟨hloaded.armed, nofun⟩
  · have hstart : ∀ s' ∈ (akickStep AkickEvent.exec (some s) (.load w saved)).1, AkickOk cfg s' := by
      intro s' hs'
      cases hs'
      exact hloaded
    have hsteps : ∀ (s : Option AkickState) (e : AkickEvent cfg), (∀ s' ∈ s, AkickOk cfg s') →
        e.KeepsTimer s → (∀ s' ∈ (akickStep AkickEvent.exec s e).1, AkickOk cfg s') ∧
          ∀ o ∈ (akickStep AkickEvent.exec s e).2, OnTime o :=
      fun s e hs hkeeps => akickStep_ok hs hkeeps
    exact run_guarded_emits hsteps hstart h.2 o ho

end runs

/- Alice bans hosts from #chan, where bob was banned until 200. -/
def akickWorld (now : Nat) : NetWorld :=
  ⟨{ sampleWorld with currtime := now, collapse := Text.collapse }, rfl⟩

def akickDb : ChanDb where
  accounts := sampleAccounts 0#32 []
  groups := .empty
  chans := ⟨[(0, sampleChan "#chan" head_chan [])], nodup_chan⟩
  acl := ⟨[((0, .entity (.user 0)), sampleEntry (caFounder ||| caFlags ||| caRemove)),
    ((0, .entity (.user 1)), ⟨caAkick, 100, [], [("expires".toList, "200".toList)]⟩)], by decide⟩

def akickSaved : LoadedDb sampleConfig where
  db := akickDb
  acl := by
    have hentries : ∀ {k : MyChanRef × Target} {ca : Chanacs}, akickDb.acl.find k = some ca →
        (k, ca) ∈ akickDb.acl.entries := fun h => (Registry.find_eq_some_iff ..).mp h
    have hkeys : ∀ {k : MyChanRef × Target}, (akickDb.acl.find k).isSome →
        k ∈ akickDb.acl.entries.map Prod.fst := by
      intro k hk
      obtain ⟨ca, hca⟩ := Option.isSome_iff_exists.mp hk
      exact List.mem_map.mpr ⟨_, hentries hca, rfl⟩
    have hlevels : ∀ e ∈ akickDb.acl.entries, e.2.level &&& ~~~sampleConfig.caAll = 0#32 := by decide
    refine ⟨fun k hk => ?_, fun mc t t' ht ht' hs => ?_, fun mc mask hm => ?_, fun k => ?_⟩
    · have hchans : ∀ k ∈ akickDb.acl.entries.map Prod.fst, (akickDb.chans.find k.1).isSome := by
        decide
      exact hchans k (hkeys hk)
    · have hone : ∀ k ∈ akickDb.acl.entries.map Prod.fst, ∀ k' ∈ akickDb.acl.entries.map Prod.fst,
          SameSubject k.2 k'.2 → k.2 = k'.2 := by decide
      exact hone _ (hkeys ht) _ (hkeys ht') hs
    · have hhosts : ∀ k ∈ akickDb.acl.entries.map Prod.fst, ¬ k.2 = .host mask := by
        simp [akickDb]
      exact absurd rfl (hhosts _ (hkeys hm))
    · rw [levelAt]
      cases hf : akickDb.acl.find k with
      | none => exact zero_sub _
      | some ca => exact hlevels (k, ca) (hentries hf)

/- Both hosts are banned for a while, and the ban of one is taken off before its end. -/
def akickRun : List (AkickEvent sampleConfig) :=
  [.add (akickWorld 300) (.irc sampleUser) "#chan".toList
      ["*!*@spam.example".toList, "!T 5 spam".toList],
    .add (akickWorld 310) (.irc sampleUser) "#chan".toList
      ["*!*@scam.example".toList, "!T 1 scam".toList],
    .tick (akickWorld 400),
    .del (akickWorld 420) (.irc sampleUser) "#chan".toList ["*!*@spam.example".toList]]

theorem temporary_akicks_on_time_witness :
    (run (akickStep AkickEvent.exec) (some ⟨akickDb, [], 0⟩)
        (.load (akickWorld 250) akickSaved :: akickRun)).2 ≠ [] ∧
      ∀ o ∈ (run (akickStep AkickEvent.exec) (some ⟨akickDb, [], 0⟩)
        (.load (akickWorld 250) akickSaved :: akickRun)).2, OnTime o := by
  refine ⟨nofun, ?_⟩
  have hended : AllEnded 250 akickDb := by
    intro k ca e hk he
    have hentries : ∀ e ∈ akickDb.acl.entries, ∀ x ∈ e.2.expires, x < 250 := by decide
    exact hentries (k, ca) ((Registry.find_eq_some_iff ..).mp hk) e he
  refine temporary_akicks_on_time ⟨akickDb, [], 0⟩ (akickWorld 250) akickSaved akickRun
    ⟨hended, trivial, trivial, trivial, ?_, trivial⟩
  unfold AkickEvent.KeepsTimer
  decide

/-- A temporary AKICK that is loaded from the database gets its timeout, and no timer. -/
theorem loaded_akick_without_timer :
    (akickdelListCreate sampleConfig (akickWorld 150).toWorld akickDb).timeouts.map
        AkickTimeout.expiration = [200] ∧
      (akickdelListCreate sampleConfig (akickWorld 150).toWorld akickDb).next = 0 ∧
      ¬ ∀ o ∈ (run (akickStep AkickEvent.exec) (some ⟨akickDb, [], 0⟩)
        [.load (akickWorld 150) akickSaved]).2, OnTime o := by
  refine ⟨by decide, by decide, fun h => ?_⟩
  have harmed := (h _ (List.mem_singleton_self _)).1
  have hnext : (akickdelListCreate sampleConfig (akickWorld 150).toWorld akickDb).next = 0 := by
    decide
  cases htimeouts : (akickdelListCreate sampleConfig (akickWorld 150).toWorld akickDb).timeouts with
  | nil => exact absurd htimeouts (by decide)
  | cons timeout timeouts =>
    exact (harmed.head timeout (by rw [akickSaved, htimeouts]; rfl)).1 hnext

end ChatServices.ChanServ
