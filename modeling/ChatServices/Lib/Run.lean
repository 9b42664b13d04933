import Mathlib.Data.List.Basic

/-! Past-time properties of finite traces: a fact that was granted and not
withdrawn since, and a requirement every element puts on what came before it. -/
namespace ChatServices.Lib.Trace
variable {ο : Type*}

/-- Some element with `p` occurs and no later element has `q`. -/
def Since (p q : ο → Prop) (t : List ο) : Prop :=
  ∃ pre o post, t = pre ++ o :: post ∧ p o ∧ ∀ x ∈ post, ¬ q x

def Always (P : List ο → ο → Prop) (t : List ο) : Prop :=
  ∀ pre o post, t = pre ++ o :: post → P pre o

/-- The requirement `P` as it stands once `t` has already happened. -/
def after (t : List ο) (P : List ο → ο → Prop) : List ο → ο → Prop :=
  fun pre o => P (t ++ pre) o

section since
variable {p q : ο → Prop}

@[simp] theorem since_nil : ¬ Since p q ([] : List ο) := by
  rintro ⟨pre, o, post, h, -⟩
  simp at h

@[simp] theorem since_singleton (o : ο) : Since p q [o] ↔ p o := by
  constructor
  · rintro ⟨pre, x, post, h, hx, -⟩
    cases pre with
    | nil =>
      simp only [List.nil_append, List.cons.injEq] at h
      exact h.1 ▸ hx
    | cons y ys => simp at h
  · intro h
    exact ⟨[], o, [], rfl, h, by simp⟩

theorem since_append (s t : List ο) :
    Since p q (s ++ t) ↔ Since p q t ∨ (Since p q s ∧ ∀ x ∈ t, ¬ q x) := by
  constructor
  · rintro ⟨pre, o, post, h, hp, hq⟩
    rcases List.append_eq_append_iff.mp h with ⟨as, rfl, ht⟩ | ⟨bs, hs, ht⟩
    · exact .inl ⟨as, o, post, ht, hp, hq⟩
    · cases bs with
      | nil =>
        simp only [List.append_nil] at hs
        exact .inl ⟨[], o, post, by simpa using ht.symm, hp, hq⟩
      | cons b bs =>
        simp only [List.cons_append, List.cons.injEq] at ht
        obtain ⟨rfl, rfl⟩ := ht
        refine .inr ⟨⟨pre, o, bs, hs, hp, fun x hx => hq x ?_⟩, fun x hx => hq x ?_⟩
        · exact List.mem_append_left _ hx
        · exact List.mem_append_right _ hx
  · rintro (⟨pre, o, post, rfl, hp, hq⟩ | ⟨⟨pre, o, post, rfl, hp, hq⟩, ht⟩)
    · exact ⟨s ++ pre, o, post, by simp, hp, hq⟩
    · refine ⟨pre, o, post ++ t, by simp, hp, fun x hx => ?_⟩
      rcases List.mem_append.mp hx with hx | hx
      · exact hq x hx
      · exact ht x hx

theorem since_append_of_quiet {s t : List ο} (hp : ∀ x ∈ t, ¬ p x) (hq : ∀ x ∈ t, ¬ q x) :
    Since p q (s ++ t) ↔ Since p q s := by
  have ht : ¬ Since p q t := by
    rintro ⟨pre, o, post, rfl, ho, -⟩
    exact hp o (by simp) ho
  rw [since_append]
  exact ⟨fun h => (h.resolve_left ht).1, fun h => .inr ⟨h, hq⟩⟩

theorem Since.mono {p' : ο → Prop} {t : List ο} (hp : ∀ o, p o → p' o) (h : Since p q t) :
    Since p' q t := by
  obtain ⟨pre, o, post, ht, ho, hq⟩ := h
  exact ⟨pre, o, post, ht, hp o ho, hq⟩

theorem Since.exists_mem {t : List ο} (h : Since p q t) : ∃ o ∈ t, p o := by
  obtain ⟨pre, o, post, rfl, ho, -⟩ := h
  exact ⟨o, by simp, ho⟩

end since

section always
variable {P : List ο → ο → Prop}

@[simp] theorem always_nil : Always P [] := by
  intro pre o post h
  simp at h

theorem always_append (s t : List ο) :
    Always P (s ++ t) ↔ Always P s ∧ Always (after s P) t := by
  constructor
  · refine fun h => ⟨fun pre o post hs => h pre o (post ++ t) (by simp [hs]), ?_⟩
    intro pre o post ht
    exact h (s ++ pre) o post (by simp [ht])
  · rintro ⟨hs, ht⟩ pre o post h
    rcases List.append_eq_append_iff.mp h with ⟨as, rfl, hb⟩ | ⟨bs, ha, hb⟩
    · exact ht as o post hb
    · cases bs with
      | nil =>
        have := ht [] o post (by simpa using hb.symm)
        simpa [after, ha] using this
      | cons b bs =>
        simp only [List.cons_append, List.cons.injEq] at hb
        obtain ⟨rfl, rfl⟩ := hb
        exact hs pre o bs ha

@[simp] theorem always_cons (o : ο) (t : List ο) :
    Always P (o :: t) ↔ P [] o ∧ Always (after [o] P) t := by
  have hs : Always P [o] ↔ P [] o := by
    constructor
    · exact fun h => h [] o [] rfl
    · intro h pre x post hx
      cases pre with
      | nil => simp only [List.nil_append, List.cons.injEq] at hx; exact hx.1 ▸ h
      | cons y ys => simp at hx
  rw [← hs, ← always_append, List.singleton_append]

@[simp] theorem after_apply (s pre : List ο) (o : ο) : after s P pre o = P (s ++ pre) o := rfl

@[simp] theorem after_nil : after [] P = P := rfl

theorem after_after (s t : List ο) : after t (after s P) = after (s ++ t) P := by
  funext pre o
  simp [after, List.append_assoc]

theorem always_const {Q : ο → Prop} {t : List ο} : Always (fun _ => Q) t ↔ ∀ o ∈ t, Q o := by
  induction t with
  | nil => simp
  | cons o t ih =>
    have h : after [o] (fun _ : List ο => Q) = fun _ => Q := rfl
    rw [always_cons, h, ih, List.forall_mem_cons]

theorem always_of_quiet {t : List ο} (h : ∀ o ∈ t, ∀ pre, P pre o) : Always P t := by
  rintro pre o post rfl
  exact h o (by simp) pre

end always
end ChatServices.Lib.Trace

/-! Deterministic step systems that emit observations, run over a finite list of
events. The guarded rule turns a step-by-step analysis into an exact condition
on whole runs. -/
namespace ChatServices.Lib.Run
open ChatServices.Lib.Trace
variable {σ ε ο : Type*}

def run (step : σ → ε → σ × List ο) : σ → List ε → σ × List ο
  | s, [] => (s, [])
  | s, e :: es => ((run step (step s e).1 es).1, (step s e).2 ++ (run step (step s e).1 es).2)

/-- Every step of the run is taken where `G` allows it. -/
def Guarded (step : σ → ε → σ × List ο) (G : σ → ε → Prop) : σ → List ε → Prop
  | _, [] => True
  | s, e :: es => G s e ∧ Guarded step G (step s e).1 es

instance (step : σ → ε → σ × List ο) (G : σ → ε → Prop) [∀ s e, Decidable (G s e)] :
    ∀ s es, Decidable (Guarded step G s es)
  | _, [] => inferInstanceAs (Decidable True)
  | s, e :: es =>
    have : Decidable (Guarded step G (step s e).1 es) := instDecidableGuarded step G _ es
    inferInstanceAs (Decidable (G s e ∧ Guarded step G (step s e).1 es))

section rules
variable (step : σ → ε → σ × List ο)

@[simp] theorem run_nil (s : σ) : run step s [] = (s, []) := rfl

theorem run_cons (s : σ) (e : ε) (es : List ε) :
    run step s (e :: es) =
      ((run step (step s e).1 es).1, (step s e).2 ++ (run step (step s e).1 es).2) := rfl

theorem run_append (s : σ) (es fs : List ε) :
    run step s (es ++ fs) =
      ((run step (run step s es).1 fs).1, (run step s es).2 ++ (run step (run step s es).1 fs).2) := by
  induction es generalizing s with
  | nil => simp
  | cons e es ih => simp [run_cons, ih, List.append_assoc]

variable {step}

theorem guarded_append {G : σ → ε → Prop} {s : σ} {es fs : List ε} :
    Guarded step G s (es ++ fs) ↔ Guarded step G s es ∧ Guarded step G (run step s es).1 fs := by
  induction es generalizing s with
  | nil => simp [Guarded]
  | cons e es ih =>
    rw [List.cons_append, Guarded, Guarded, ih, run_cons, and_assoc]

theorem run_keeps {I : σ → Prop} (hstep : ∀ s e, I s → I (step s e).1) {s : σ} (h : I s)
    (es : List ε) : I (run step s es).1 := by
  induction es generalizing s with
  | nil => exact h
  | cons e es ih => exact ih (hstep s e h)

theorem run_invariant {I : σ → List ο → Prop}
    (hstep : ∀ s t e, I s t → I (step s e).1 (t ++ (step s e).2)) {s : σ} {t : List ο}
    (h : I s t) (es : List ε) : I (run step s es).1 (t ++ (run step s es).2) := by
  induction es generalizing s t with
  | nil => simpa using h
  | cons e es ih => simpa [run_cons, List.append_assoc] using ih (hstep s t e h)

theorem run_state_invariant {I : σ → Prop} {G : σ → ε → Prop}
    (hstep : ∀ s e, I s → G s e → I (step s e).1) {s : σ} (h : I s) {es : List ε}
    (hG : Guarded step G s es) : I (run step s es).1 := by
  induction es generalizing s with
  | nil => exact h
  | cons e es ih => exact ih (hstep s e h hG.1) hG.2

theorem run_guarded_emits {I : σ → Prop} {G : σ → ε → Prop} {Q : ο → Prop}
    (hstep : ∀ s e, I s → G s e → I (step s e).1 ∧ ∀ o ∈ (step s e).2, Q o) {s : σ} (h : I s)
    {es : List ε} (hG : Guarded step G s es) : ∀ o ∈ (run step s es).2, Q o := by
  induction es generalizing s with
  | nil => simp
  | cons e es ih =>
    obtain ⟨hnext, hemits⟩ := hstep s e h hG.1
    intro o ho
    obtain ho | ho := List.mem_append.mp ho
    · exact hemits o ho
    · exact ih hnext hG.2 o ho

theorem run_emits_iff {G : σ → ε → Prop} {Q : ο → Prop}
    (hstep : ∀ s e, (∀ o ∈ (step s e).2, Q o) ↔ G s e) (s : σ) (es : List ε) :
    (∀ o ∈ (run step s es).2, Q o) ↔ Guarded step G s es := by
  induction es generalizing s with
  | nil => simp [Guarded]
  | cons e es ih =>
    rw [Guarded, ← hstep s e, ← ih (step s e).1, run_cons]
    exact List.forall_mem_append

theorem run_emits_iff_of_invariant {I : σ → Prop} {G : σ → ε → Prop} {Q : ο → Prop}
    (hinv : ∀ s e, I s → I (step s e).1)
    (hstep : ∀ s e, I s → ((∀ o ∈ (step s e).2, Q o) ↔ G s e)) {s : σ} (h : I s) (es : List ε) :
    (∀ o ∈ (run step s es).2, Q o) ↔ Guarded step G s es := by
  induction es generalizing s with
  | nil => simp [Guarded]
  | cons e es ih =>
    rw [Guarded, ← hstep s e h, ← ih (hinv s e h), run_cons]
    exact List.forall_mem_append

/-- Where the guard says exactly which steps keep the invariant and emit what `Q` accepts, it says
so of every beginning of a run. -/
theorem run_states_iff {I : σ → Prop} {G : σ → ε → Prop} {Q : ο → Prop}
    (hstep : ∀ s e, I s → ((I (step s e).1 ∧ ∀ o ∈ (step s e).2, Q o) ↔ G s e)) {s : σ} (h : I s)
    (es : List ε) : (∀ fs, fs <+: es → I (run step s fs).1 ∧ ∀ o ∈ (run step s fs).2, Q o) ↔
      Guarded step G s es := by
  induction es generalizing s with
  | nil =>
    refine ⟨fun _ => trivial, fun _ fs hfs => ?_⟩
    rw [List.prefix_nil.mp hfs]
    exact ⟨h, nofun⟩
  | cons e es ih =>
    constructor
    · intro hall
      have hfirst := hall [e] ⟨es, rfl⟩
      rw [run_cons, run_nil, List.append_nil] at hfirst
      refine ⟨(hstep s e h).mp hfirst, (ih hfirst.1).mp fun fs hfs => ?_⟩
      obtain ⟨hI, hQ⟩ := hall (e :: fs) (List.prefix_cons_inj e |>.mpr hfs)
      exact ⟨hI, fun o ho => hQ o (List.mem_append_right _ ho)⟩
    · rintro ⟨hG, hrest⟩ fs hfs
      obtain ⟨hI, hQ⟩ := (hstep s e h).mpr hG
      cases fs with
      | nil => exact ⟨h, nofun⟩
      | cons f fs =>
        obtain ⟨rfl, hfs'⟩ := List.cons_prefix_cons.mp hfs
        obtain ⟨hI', hQ'⟩ := (ih hI).mpr hrest fs hfs'
        refine ⟨hI', fun o ho => ?_⟩
        obtain ho | ho := List.mem_append.mp ho
        · exact hQ o ho
        · exact hQ' o ho

theorem run_emits_iff_guarded {I : σ → Prop} {C G : σ → ε → Prop} {Q : ο → Prop}
    (hinv : ∀ s e, I s → C s e → I (step s e).1)
    (hstep : ∀ s e, I s → ((∀ o ∈ (step s e).2, Q o) ↔ G s e)) {s : σ} (h : I s) {es : List ε}
    (hC : Guarded step C s es) : (∀ o ∈ (run step s es).2, Q o) ↔ Guarded step G s es := by
  induction es generalizing s with
  | nil => simp [Guarded]
  | cons e es ih =>
    rw [Guarded, ← hstep s e h, ← ih (hinv s e h hC.1) hC.2, run_cons]
    exact List.forall_mem_append

theorem run_emits {I : σ → Prop} {Q : ο → Prop} (hstep : ∀ s e, I s → I (step s e).1)
    (hobs : ∀ s e, I s → ∀ o ∈ (step s e).2, Q o) {s : σ} (h : I s) (es : List ε) :
    ∀ o ∈ (run step s es).2, Q o := by
  induction es generalizing s with
  | nil => simp
  | cons e es ih =>
    intro o ho
    rcases List.mem_append.mp ho with ho | ho
    · exact hobs s e h o ho
    · exact ih (hstep s e h) o ho

theorem run_related {R : σ → σ → Prop} {Q : ο → Prop} (hrefl : ∀ s, R s s)
    (htrans : ∀ s t u, R s t → R t u → R s u)
    (hstep : ∀ s e, (∀ o ∈ (step s e).2, Q o) → R s (step s e).1) {s : σ} {es : List ε}
    (h : ∀ o ∈ (run step s es).2, Q o) : R s (run step s es).1 := by
  induction es generalizing s with
  | nil => exact hrefl s
  | cons e es ih =>
    rw [run_cons] at h
    have hfirst : R s (step s e).1 := hstep s e fun o ho => h o (List.mem_append_left _ ho)
    exact htrans _ _ _ hfirst (ih fun o ho => h o (List.mem_append_right _ ho))

theorem run_guarded_always {I : σ → List ο → Prop} {G : σ → ε → Prop} {P : List ο → ο → Prop}
    (hstep : ∀ s t e, I s t → G s e →
      I (step s e).1 (t ++ (step s e).2) ∧ Always (after t P) (step s e).2)
    {s : σ} {t : List ο} (h : I s t) {es : List ε} (hG : Guarded step G s es) :
    I (run step s es).1 (t ++ (run step s es).2) ∧ Always (after t P) (run step s es).2 := by
  induction es generalizing s t with
  | nil => simpa using h
  | cons e es ih =>
    obtain ⟨hI, hP⟩ := hstep s t e h hG.1
    have hrest := ih hI hG.2
    rw [run_cons, always_append, after_after, ← List.append_assoc]
    exact ⟨hrest.1, hP, hrest.2⟩

/-- The exact condition on runs. Guarded steps keep the invariant and emit only
acceptable observations; a step outside the guard emits an unacceptable one. -/
theorem run_always_iff {I : σ → List ο → Prop} {G : σ → ε → Prop} {P : List ο → ο → Prop}
    (hgood : ∀ s t e, I s t → G s e →
      I (step s e).1 (t ++ (step s e).2) ∧ Always (after t P) (step s e).2)
    (hbad : ∀ s t e, I s t → ¬ G s e → ¬ Always (after t P) (step s e).2)
    {s : σ} {t : List ο} (h : I s t) (es : List ε) :
    Always (after t P) (run step s es).2 ↔ Guarded step G s es := by
  induction es generalizing s t with
  | nil => simp [Guarded]
  | cons e es ih =>
    rw [run_cons, always_append, after_after, Guarded]
    by_cases hg : G s e
    · obtain ⟨hI, hP⟩ := hgood s t e h hg
      simp [hg, hP, ih hI]
    · simp [hg, hbad s t e h hg]

end rules
end ChatServices.Lib.Run
