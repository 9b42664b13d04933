import ChatServices.HostServ.Requests

/-! Requested hosts stay unique where a host waits for one account at most. -/
namespace ChatServices.HostServ
open ChatServices.Text ChatServices.Match ChatServices.Lib ChatServices.Lib.Run
open ChatServices.Lib.FirstMatch

def HeldBy (nicks : List Nick) (mu : Account) (host : CString) : Prop :=
  mu.usercloak = some host ∨ ∃ mn ∈ nicks, nickcloak mu mn.nick = some host

instance (nicks : List Nick) (mu : Account) (host : CString) : Decidable (HeldBy nicks mu host) :=
  inferInstanceAs (Decidable (_ ∨ _))

def Holds (s : State) (a : Nat) (host : CString) : Prop :=
  ∃ mu ∈ s.accounts.find a, HeldBy (nicksOf s a) mu host

instance (s : State) (a : Nat) (host : CString) : Decidable (Holds s a host) :=
  inferInstanceAs (Decidable (∃ mu ∈ s.accounts.find a, _))

def Unique (s : State) : Prop := ∀ a b host, Holds s a host → Holds s b host → a = b

section order
variable (cfg : Config)

structure InOrder (s : State) : Prop where
  unique : Unique s
  oneEach : (s.reqlist.map fun l => irccasecanon cfg.casemapping l.nick).Nodup
  owned : ∀ l ∈ s.reqlist, ∀ b, Holds s b l.vhost → myuserFindExt cfg s l.nick = some b
  apart : ∀ l ∈ s.reqlist, ∀ l' ∈ s.reqlist, l.vhost = l'.vhost →
    myuserFindExt cfg s l.nick = myuserFindExt cfg s l'.nick
  live : ∀ name a, myuserFindExt cfg s name = some a → (s.accounts.find a).isSome

def filedUnder (s : State) (target : CString) : CString :=
  ((s.reqlist.find? fun l => irccaseEq cfg.casemapping l.nick target).map HsReq.nick).getD target

/-- `allow_vhost_change` finds the account that it reads. -/
def MayAsk (s : State) (si : Source) (nick : CString) : Prop :=
  si.override = true ∨ cfg.limitFirstReq = false ∨ (myuserFind cfg s nick).isSome

/-- A request that comes to the list is for a host that, taken as a mask, matches itself and that
waits for no other account; and who is online under the name to activate has an account of that
name. -/
def Clear (s : State) : Event → Prop
  | .request si host now approved => ∀ t ∈ reachesList cfg s si host now approved,
      matchMask cfg.casemapping t.2 t.2 = true ∧ ∀ l ∈ s.reqlist, l.vhost = t.2 →
        myuserFindExt cfg s l.nick = myuserFindExt cfg s (filedUnder cfg s t.1)
  | .activate si (some nick) online _ => online = true →
      (∃ l ∈ s.reqlist, irccaseEq cfg.casemapping l.nick nick = true) → MayAsk cfg s si nick
  | .activate _ none _ _ => True

instance (s : State) (e : Event) : Decidable (Clear cfg s e) :=
  match e with
  | .request _ _ _ _ => inferInstanceAs (Decidable (∀ t ∈ reachesList cfg s _ _ _ _, _))
  | .activate _ (some _) _ _ =>
    inferInstanceAs (Decidable (_ = true → (∃ l ∈ s.reqlist, _) → (_ ∨ _ ∨ _)))
  | .activate _ none _ _ => inferInstanceAs (Decidable True)

end order

/-! ### Assignments -/

section assigns
variable {cfg : Config} {s : State} {a : Nat} {host : CString} {f : Account → Account}

def assign (s : State) (a : Nat) (f : Account → Account) : State :=
  { s with accounts := s.accounts.modify a f }

structure Assigns (nicks : List Nick) (host : CString) (f : Account → Account) : Prop where
  name : ∀ mu, (f mu).name = mu.name
  held : ∀ mu h, HeldBy nicks (f mu) h → HeldBy nicks mu h ∨ h = host

theorem myuserFind_assign (hname : ∀ mu, (f mu).name = mu.name) (name : CString) :
    myuserFind cfg (assign s a f) name = myuserFind cfg s name := by
  have hfirst := Registry.firstWhere_modify (p := fun mu : Account => irccaseEq cfg.casemapping mu.name name)
    (r := s.accounts) (k := a) (f := f) fun mu _ => by rw [hname]
  exact hfirst

variable (cfg s a) in
theorem myuserFindExt_assign (hname : ∀ mu, (f mu).name = mu.name) (name : CString) :
    myuserFindExt cfg (assign s a f) name = myuserFindExt cfg s name := by
  rw [myuserFindExt, myuserFindExt, myuserFind_assign hname]
  rfl

theorem holds_assign (hf : Assigns (nicksOf s a) host f) {b : Nat} {h : CString}
    (hb : Holds (assign s a f) b h) : Holds s b h ∨ (b = a ∧ h = host) := by
  obtain ⟨mu', hfind, hheld⟩ := hb
  simp only [assign, Option.mem_def, Registry.find_modify] at hfind
  by_cases hba : b = a
  · subst hba
    rw [if_pos rfl, Option.map_eq_some_iff] at hfind
    obtain ⟨mu, hmu, rfl⟩ := hfind
    cases hf.held mu h hheld with
    | inl hold => exact .inl ⟨mu, hmu, hold⟩
    | inr hhost => exact .inr ⟨rfl, hhost⟩
  · rw [if_neg hba] at hfind
    exact .inl ⟨mu', hfind, hheld⟩

theorem assigns_all {now : Int} (nicks : List Nick) :
    Assigns nicks host fun mu =>
      { mu with
        nickcloaks := mu.nickcloaks.filter fun md =>
          md.1 ∉ nicks.map fun mn => strcasecanon mn.nick
        usercloak := some host
        timestamp := some now } := by
  constructor
  · exact fun _ => rfl
  · intro mu h hheld
    cases hheld with
    | inl hall => exact .inr (Option.some.inj hall).symm
    | inr hnick =>
      -- no nick of the account has a host of its own any more
      obtain ⟨mn, hmn, hcloak⟩ := hnick
      rw [nickcloak, Option.map_eq_some_iff] at hcloak
      obtain ⟨md, hmd, -⟩ := hcloak
      have hkey : md.1 = strcasecanon mn.nick := by simpa using List.find?_some hmd
      have hkept := (List.mem_filter.mp (List.mem_of_find?_eq_some hmd)).2
      have hin : md.1 ∈ nicks.map fun mn => strcasecanon mn.nick :=
        List.mem_map.mpr ⟨mn, hmn, hkey.symm⟩
      simp [hin] at hkept

theorem find_filter_ne {xs : List (CString × CString)} {k key : CString} (h : key ≠ k) :
    (xs.filter fun md => md.1 ≠ k).find? (fun md => md.1 = key) =
      xs.find? (fun md => md.1 = key) := by
  rw [List.find?_filter]
  congr 1
  funext md
  by_cases hmd : md.1 = key <;> simp [hmd, h]

theorem assigns_nick {nick : CString} (nicks : List Nick) :
    Assigns nicks host fun mu =>
      { mu with
        nickcloaks := mu.nickcloaks.filter (fun md => md.1 ≠ strcasecanon nick) ++
          [(strcasecanon nick, host)] } := by
  constructor
  · exact fun _ => rfl
  · intro mu h hheld
    cases hheld with
    | inl hall => exact .inl (.inl hall)
    | inr hnick =>
      obtain ⟨mn, hmn, hcloak⟩ := hnick
      simp only [nickcloak, List.find?_append] at hcloak
      by_cases hkey : strcasecanon mn.nick = strcasecanon nick
      · have hgone : (mu.nickcloaks.filter fun md => md.1 ≠ strcasecanon nick).find?
            (fun md => md.1 = strcasecanon mn.nick) = none := by
          rw [List.find?_eq_none]
          intro md hmd
          have hne := (List.mem_filter.mp hmd).2
          simpa [hkey] using hne
        rw [hgone, Option.none_or, hkey] at hcloak
        simp at hcloak
        exact .inr hcloak.symm
      · rw [find_filter_ne hkey] at hcloak
        have hlast : [(strcasecanon nick, host)].find?
            (fun md => decide (md.1 = strcasecanon mn.nick)) = none := by
          simp [Ne.symm hkey]
        rw [hlast, Option.or_none] at hcloak
        exact .inl (.inr ⟨mn, hmn, hcloak⟩)

end assigns

/-! ### What a grant does -/

section grants
variable {cfg : Config} {s : State} {si : Source} {l : HsReq} {now : Int}

def Live (cfg : Config) (s : State) : Prop :=
  ∀ name a, myuserFindExt cfg s name = some a → (s.accounts.find a).isSome

theorem allowVhostChange_ne_none {target : Option Nat}
    (h : si.override = true ∨ cfg.limitFirstReq = false ∨
      (target.bind fun a => s.accounts.find a).isSome) :
    allowVhostChange cfg s si target now ≠ none := by
  rw [allowVhostChange]
  by_cases hover : si.override = true
  · rw [if_pos hover]
    exact Option.some_ne_none _
  · rw [if_neg hover]
    split
    · by_cases hlimit : cfg.limitFirstReq = false
      · simp [hlimit]
      · have htarget := (h.resolve_left hover).resolve_left hlimit
        obtain ⟨mu, hmu⟩ := Option.isSome_iff_exists.mp htarget
        simp [hlimit, hmu]
    · exact Option.some_ne_none _

def withoutReq (s : State) (l : HsReq) : State := { s with reqlist := s.reqlist.erase l }

inductive Granted (cfg : Config) (s : State) (l : HsReq) : State × List Obs → Prop where
  | refused : Granted cfg s l (withoutReq s l, [])
  | given (a : Nat) (f : Account → Account) (hext : myuserFindExt cfg s l.nick = some a)
      (hf : Assigns (nicksOf s a) l.vhost f) : Granted cfg s l (assign (withoutReq s l) a f, [])

variable (si l now) in
theorem grant_granted (hlive : Live cfg s) : Granted cfg s l (grant cfg s si l now) := by
  have hread : ∀ a, myuserFindExt cfg s l.nick = some a →
      allowVhostChange cfg (withoutReq s l) si (some a) now ≠ none := fun a ha =>
    allowVhostChange_ne_none (.inr (.inr (hlive _ a ha)))
  have hsame : myuserFindExt cfg (withoutReq s l) l.nick = myuserFindExt cfg s l.nick := rfl
  rw [grant]
  by_cases hper : cfg.requestPerNick = true
  · rw [if_pos hper]
    change Granted cfg s l (hsCmdVhostnick cfg (withoutReq s l) si l.nick l.vhost now)
    rw [hsCmdVhostnick, hsame]
    cases ha : myuserFindExt cfg s l.nick with
    | none => exact .refused
    | some a =>
      dsimp only
      split
      next hnone => exact absurd hnone (hread a ha)
      next => exact .refused
      next =>
        split
        next => exact .refused
        next mn _ =>
          split
          · exact .given a _ ha (assigns_nick _)
          · exact .refused
  · rw [if_neg hper]
    change Granted cfg s l (hsCmdVhost cfg (withoutReq s l) si l.nick l.vhost now)
    rw [hsCmdVhost, hsame]
    cases ha : myuserFindExt cfg s l.nick with
    | none => exact .refused
    | some a =>
      dsimp only
      split
      next hnone => exact absurd hnone (hread a ha)
      next => exact .refused
      next =>
        split
        · exact .given a _ ha (assigns_all _)
        · exact .refused

end grants

/-! ### The invariant -/

section invariant
variable {cfg : Config} {s : State} {si : Source} {l : HsReq} {now : Int}

theorem InOrder.withoutReq (h : InOrder cfg s) (l : HsReq) : InOrder cfg (withoutReq s l) := by
  have hsub : ∀ l' ∈ s.reqlist.erase l, l' ∈ s.reqlist := fun _ => List.mem_of_mem_erase
  constructor
  · exact h.unique
  · exact h.oneEach.sublist (List.erase_sublist.map _)
  · exact fun l' hl' => h.owned l' (hsub l' hl')
  · exact fun l' hl' l'' hl'' => h.apart l' (hsub l' hl') l'' (hsub l'' hl'')
  · exact h.live

theorem InOrder.granted (h : InOrder cfg s) (hl : l ∈ s.reqlist) {r : State × List Obs}
    (hr : Granted cfg s l r) : InOrder cfg r.1 := by
  have hrest := h.withoutReq l
  cases hr with
  | refused => exact hrest
  | given a f hext hf =>
    have hsame := myuserFindExt_assign cfg (HostServ.withoutReq s l) a hf.name
    constructor
    · intro b c host hb hc
      have hb' := holds_assign hf hb
      have hc' := holds_assign hf hc
      have honly : ∀ d, Holds s d l.vhost → d = a := fun d hd =>
        Option.some.inj ((h.owned l hl d hd).symm.trans hext)
      rcases hb' with hb' | ⟨rfl, rfl⟩
      · rcases hc' with hc' | ⟨rfl, rfl⟩
        · exact h.unique b c host hb' hc'
        · exact honly b hb'
      · rcases hc' with hc' | ⟨rfl, -⟩
        · exact (honly c hc').symm
        · rfl
    · exact hrest.oneEach
    · intro l' hl' b hb
      rw [hsame]
      rcases holds_assign hf hb with hb' | ⟨rfl, hhost⟩
      · exact hrest.owned l' hl' b hb'
      · have hl'' : l' ∈ s.reqlist := List.mem_of_mem_erase hl'
        exact (h.apart l' hl'' l hl hhost).trans hext
    · intro l' hl' l'' hl'' hhost
      rw [hsame, hsame]
      exact hrest.apart l' hl' l'' hl'' hhost
    · intro name b hb
      rw [hsame] at hb
      have hfound := hrest.live name b hb
      simp only [assign, Registry.find_modify]
      split <;> simpa using hfound

theorem Granted.emits {r : State × List Obs} (h : Granted cfg s l r) : r.2 = [] := by
  cases h <;> rfl

theorem Granted.reqlist {r : State × List Obs} (h : Granted cfg s l r) :
    r.1.reqlist = s.reqlist.erase l := by
  cases h <;> rfl

theorem Granted.mayAsk {r : State × List Obs} (h : Granted cfg s l r) {nick : CString}
    (hask : MayAsk cfg s si nick) : MayAsk cfg r.1 si nick := by
  cases h with
  | refused => exact hask
  | given a f hext hf =>
    rw [MayAsk, myuserFind_assign hf.name]
    exact hask

theorem activateLoop_inOrder {nick : CString} {online : Bool} (ls : List HsReq) {s : State}
    (h : InOrder cfg s) (hnodup : ls.Nodup) (hls : ∀ l ∈ ls, l ∈ s.reqlist)
    (hask : online = true → (∃ l ∈ ls, irccaseEq cfg.casemapping l.nick nick = true) →
      MayAsk cfg s si nick) :
    InOrder cfg (activateLoop cfg si nick online now ls s).1 ∧
      (activateLoop cfg si nick online now ls s).2 = [] := by
  induction ls generalizing s with
  | nil => exact ⟨h, rfl⟩
  | cons l ls ih =>
    have hl : l ∈ s.reqlist := hls l List.mem_cons_self
    have hgrant := grant_granted si l now h.live
    have hnext := h.granted hl hgrant
    rw [activateLoop]
    by_cases hnick : irccaseEq cfg.casemapping l.nick nick = true
    · rw [if_pos hnick]
      by_cases honline : online = true
      · rw [if_pos honline]
        have hread : allowVhostChange cfg s si (myuserFind cfg s nick) now ≠ none := by
          apply allowVhostChange_ne_none
          rcases hask honline ⟨l, List.mem_cons_self, hnick⟩ with hover | hfree | hfound
          · exact .inl hover
          · exact .inr (.inl hfree)
          · obtain ⟨a, ha⟩ := Option.isSome_iff_exists.mp hfound
            have hfirst : s.accounts.firstWhere
                (fun mu => irccaseEq cfg.casemapping mu.name nick) = some a := ha
            obtain ⟨mu, hmu, -⟩ := Registry.firstWhere_some hfirst
            exact .inr (.inr (by simp [ha, hmu]))
        split
        next hnone => exact absurd hnone hread
        next => exact ⟨h, rfl⟩
        next => exact ⟨hnext, hgrant.emits⟩
      · rw [if_neg honline]
        exact ⟨hnext, hgrant.emits⟩
    · rw [if_neg hnick]
      have htail : ls.Nodup := (List.nodup_cons.mp hnodup).2
      by_cases hall : irccaseEq cfg.casemapping ['*'] nick = true
      · rw [if_pos hall]
        dsimp only
        split
        · exact ⟨hnext, hgrant.emits⟩
        · have hkeep : ∀ l' ∈ ls, l' ∈ (grant cfg s si l now).1.reqlist := by
            intro l' hl'
            rw [hgrant.reqlist]
            have hne : l' ≠ l := fun he => (List.nodup_cons.mp hnodup).1 (he ▸ hl')
            exact (List.mem_erase_of_ne hne).mpr (hls l' (List.mem_cons_of_mem l hl'))
          have hrest := ih hnext htail hkeep fun honline hsome => by
            obtain ⟨l', hl', heq⟩ := hsome
            exact hgrant.mayAsk (hask honline ⟨l', List.mem_cons_of_mem l hl', heq⟩)
          rw [hgrant.emits, hrest.2]
          exact ⟨hrest.1, rfl⟩
      · rw [if_neg hall]
        refine ih h htail (fun l' hl' => hls l' (List.mem_cons_of_mem l hl')) ?_
        intro honline hsome
        obtain ⟨l', hl', heq⟩ := hsome
        exact hask honline ⟨l', List.mem_cons_of_mem l hl', heq⟩

end invariant

/-! ### Requests -/

section requests
variable {cfg : Config} {s : State} {si : Source} {target host : CString} {now : Int}

theorem not_holds_of_assigned (hself : matchMask cfg.casemapping host host = true)
    (h : assigned cfg s host = false) (b : Nat) : ¬ Holds s b host := by
  rintro ⟨mu, hmu, hheld⟩
  have hmem : (b, mu) ∈ s.accounts.entries := (Registry.find_eq_some_iff _ _ _).mp hmu
  rw [assigned, List.any_eq_false] at h
  have hnone := h (b, mu) hmem
  apply hnone
  rw [Bool.or_eq_true]
  cases hheld with
  | inl hall => exact .inl (by simp [hall, hself])
  | inr hnick =>
    obtain ⟨mn, hmn, hcloak⟩ := hnick
    exact .inr (List.any_eq_true.mpr ⟨mn, hmn, by simp [hcloak, hself]⟩)

theorem InOrder.file (h : InOrder cfg s) {reqs : List HsReq} {count : Nat} {l : HsReq}
    (hnodup : (reqs.map fun l => irccasecanon cfg.casemapping l.nick).Nodup)
    (hmem : ∀ l' ∈ reqs, l' ∈ s.reqlist ∨ l' = l) (hfree : ∀ b, ¬ Holds s b l.vhost)
    (hwait : ∀ l' ∈ s.reqlist, l'.vhost = l.vhost →
      myuserFindExt cfg s l'.nick = myuserFindExt cfg s l.nick) :
    InOrder cfg { s with reqlist := reqs, ratelimitCount := count } := by
  constructor
  · exact h.unique
  · exact hnodup
  · intro l' hl' b hb
    rcases hmem l' hl' with hold | rfl
    · exact h.owned l' hold b hb
    · exact absurd hb (hfree b)
  · intro l' hl' l'' hl'' hhost
    rcases hmem l' hl' with hold | rfl
    · rcases hmem l'' hl'' with hold' | rfl
      · exact h.apart l' hold l'' hold' hhost
      · exact hwait l' hold hhost
    · rcases hmem l'' hl'' with hold' | rfl
      · exact (hwait l'' hold' hhost.symm).symm
      · rfl
  · exact h.live

theorem fileRequest_inOrder (h : InOrder cfg s) (hfree : ∀ b, ¬ Holds s b host)
    (hwait : ∀ l ∈ s.reqlist, l.vhost = host →
      myuserFindExt cfg s l.nick = myuserFindExt cfg s (filedUnder cfg s target)) :
    InOrder cfg (fileRequest cfg s si target host now) := by
  rw [fileRequest]
  rw [filedUnder] at hwait
  cases hfind : s.reqlist.find? (fun l => irccaseEq cfg.casemapping l.nick target) with
  | some l =>
    rw [hfind] at hwait
    dsimp only
    split
    · exact h
    · split
      · exact h
      · apply h.file (l := { l with vhost := host, vhostTs := now }) _ _ hfree hwait
        · have hsame : ∀ reqs : List HsReq, (updateFirst _ _ reqs).map _ = reqs.map _ := fun _ =>
            map_updateFirst (p := fun l => irccaseEq cfg.casemapping l.nick target)
              (f := fun l : HsReq => { l with vhost := host, vhostTs := now })
              (fun l : HsReq => irccasecanon cfg.casemapping l.nick) fun _ => rfl
          rw [hsame]
          exact h.oneEach
        · exact fun l' hl' => mem_updateFirst hfind hl'
  | none =>
    rw [hfind] at hwait
    dsimp only
    split
    · exact h
    · apply h.file (l := ⟨target, host, now, si.name⟩) _ _ hfree hwait
      · rw [List.map_append, List.nodup_append]
        refine ⟨h.oneEach, by simp, ?_⟩
        intro x hx y hy hxy
        obtain ⟨l, hl, rfl⟩ := List.mem_map.mp hx
        have hy' : y = irccasecanon cfg.casemapping target := by simpa using hy
        have hno := List.find?_eq_none.mp hfind l hl
        rw [irccaseEq_iff] at hno
        exact hno (hxy.trans hy')
      · intro l' hl'
        simpa using hl'

theorem reachesList_unassigned {host : Option CString} {approved : Bool} {t : CString × CString}
    (h : reachesList cfg s si host now approved = some t) : assigned cfg s t.2 = false := by
  cases host with
  | none => cases h
  | some host =>
    rw [reachesList] at h
    cases htarget : requestTarget cfg s si with
    | none =>
      rw [htarget] at h
      split_ifs at h
    | some p =>
      rw [htarget] at h
      dsimp only at h
      split_ifs at h with _ _ _ _ hassigned
      cases h
      exact eq_false_of_ne_true hassigned

theorem hsCmdRequest_inOrder (h : InOrder cfg s) {host : Option CString} {approved : Bool}
    (hclear : Clear cfg s (.request si host now approved)) :
    InOrder cfg (hsCmdRequest cfg s si host now approved) := by
  rw [hsCmdRequest_eq]
  cases hreach : reachesList cfg s si host now approved with
  | none => exact h
  | some t =>
    obtain ⟨hself, hwait⟩ := hclear t hreach
    have hfree := not_holds_of_assigned hself (reachesList_unassigned hreach)
    exact fileRequest_inOrder h hfree hwait

end requests

/-! ### Runs -/

theorem step_inOrder {cfg : Config} {s : State} {e : Event} (h : InOrder cfg s)
    (hclear : Clear cfg s e) : InOrder cfg (step cfg s e).1 ∧ (step cfg s e).2 = [] := by
  cases e with
  | request si host now approved => exact ⟨hsCmdRequest_inOrder h hclear, rfl⟩
  | activate si nick online now =>
    cases nick with
    | none => exact ⟨h, rfl⟩
    | some nick =>
      have hnodup : s.reqlist.Nodup := h.oneEach.of_map
      exact activateLoop_inOrder s.reqlist h hnodup (fun _ hl => hl) hclear

/-- The runs in which a host waits for one account at most give no host to two accounts. -/
theorem requested_hosts_stay_unique {cfg : Config} {s : State} {es : List Event}
    (h : InOrder cfg s) (hG : Guarded (step cfg) (Clear cfg) s es) :
    Unique (run (step cfg) s es).1 ∧
      ((run (step cfg) s es).1.reqlist.map fun l =>
        irccasecanon cfg.casemapping l.nick).Nodup ∧
      .missingAccountRead ∉ (run (step cfg) s es).2 := by
  have hend : InOrder cfg (run (step cfg) s es).1 :=
    run_state_invariant (I := InOrder cfg) (fun s e hs hc => (step_inOrder hs hc).1) h hG
  have hquiet : ∀ o ∈ (run (step cfg) s es).2, False :=
    run_guarded_emits (I := InOrder cfg) (G := Clear cfg) (Q := fun _ => False)
      (fun s e hs hc => by
        obtain ⟨hnext, hemits⟩ := step_inOrder hs hc
        exact ⟨hnext, by simp [hemits]⟩) h hG
  exact ⟨hend.unique, hend.oneEach, hquiet _⟩

/-! ### Two accounts -/

def twoAccounts : State where
  accounts := ⟨[(1, ⟨"anna".toList, 0, false, none, [], none⟩),
    (2, ⟨"bert".toList, 0, false, none, [], none⟩)], by decide⟩
  nicks := []
  reqlist := []
  ratelimitCount := 0

def accountHosts : Config where
  casemapping := .rfc1459
  noNickOwnership := true
  requestPerNick := false
  requestTime := 60
  limitFirstReq := false
  ratelimitUses := 0
  ratelimitPeriod := 0
  isValidHost := fun _ => true
  findNamed := fun _ => none
  findUid := fun _ => none

def asks (a : Nat) (name host : String) : Event :=
  .request ⟨a, none, name.toList, false, true⟩ (some host.toList) 1000 false

def activateAll : Event :=
  .activate ⟨1, none, "oper".toList, true, true⟩ (some ['*']) false 2000

theorem twoAccounts_free (a : Nat) (host : CString) : ¬ Holds twoAccounts a host := by
  rintro ⟨mu, hmu, hheld⟩
  have hmem := (Registry.find_eq_some_iff _ _ _).mp hmu
  have hfree : mu.usercloak = none ∧ mu.nickcloaks = [] := by
    simp only [twoAccounts, List.mem_cons, Prod.mk.injEq, List.not_mem_nil, or_false] at hmem
    rcases hmem with ⟨-, rfl⟩ | ⟨-, rfl⟩ <;> exact ⟨rfl, rfl⟩
  simp [HeldBy, nickcloak, hfree] at hheld

theorem twoAccounts_inOrder : InOrder accountHosts twoAccounts := by
  constructor
  · exact fun a b host ha _ => absurd ha (twoAccounts_free a host)
  · exact List.nodup_nil
  · exact fun l hl => absurd hl List.not_mem_nil
  · exact fun l hl => absurd hl List.not_mem_nil
  · intro name a ha
    rw [myuserFindExt] at ha
    split at ha
    · cases ha
    · split at ha
      · cases ha
      · have hfirst : twoAccounts.accounts.firstWhere
            (fun mu => irccaseEq .rfc1459 mu.name name) = some a := ha
        obtain ⟨mu, hmu, -⟩ := Registry.firstWhere_some hfirst
        exact Option.isSome_iff_exists.mpr ⟨mu, hmu⟩

theorem requested_hosts_stay_unique_two :
    let es := [asks 1 "anna" "a.example.org", asks 2 "bert" "b.example.org", activateAll]
    Holds (run (step accountHosts) twoAccounts es).1 2 "b.example.org".toList ∧
      Unique (run (step accountHosts) twoAccounts es).1 :=
  ⟨by decide +kernel,
    (requested_hosts_stay_unique twoAccounts_inOrder (by decide +kernel)).1⟩

/-- Two accounts ask for one host before it is assigned, and both get it. -/
theorem both_get_one_host :
    let es := [asks 1 "anna" "a.example.org", asks 2 "bert" "a.example.org", activateAll]
    Unique twoAccounts ∧ ¬ Unique (run (step accountHosts) twoAccounts es).1 :=
  ⟨twoAccounts_inOrder.unique,
    fun h => absurd (h 1 2 "a.example.org".toList (by decide +kernel) (by decide +kernel))
      (by decide)⟩

end ChatServices.HostServ
