import Mathlib.Logic.Function.Basic
import ChatServices.Lib.Registry

/-! Members in buckets by a key. A bucket is made for its first member and freed with its last
one; an index has the buckets by their keys, and using a freed bucket is recorded as a fault. -/
namespace ChatServices.Lib
variable {κ υ β : Type*}

structure Bucket (κ υ β : Type*) where
  key : κ
  members : List υ
  data : β
  deriving DecidableEq

structure Buckets (κ υ β : Type*) where
  heap : Registry Nat (Bucket κ υ β)
  index : Registry κ Nat
  next : Nat
  fault : Bool

namespace Buckets
variable [DecidableEq κ] [DecidableEq υ]

def empty : Buckets κ υ β := ⟨.empty, .empty, 0, false⟩

def use (a : Nat) (f : Bucket κ υ β → Buckets κ υ β) (t : Buckets κ υ β) : Buckets κ υ β :=
  match t.heap.find a with
  | none => { t with fault := true }
  | some b => f b

def alloc (k : κ) (data : β) (t : Buckets κ υ β) : Buckets κ υ β :=
  ⟨t.heap.insertNew t.next ⟨k, [], data⟩, t.index.insertNew k t.next, t.next + 1, t.fault⟩

def join (u : υ) (a : Nat) (t : Buckets κ υ β) : Buckets κ υ β :=
  t.use a fun b => { t with heap := t.heap.set a { b with members := b.members ++ [u] } }

def setData (data : β) (a : Nat) (t : Buckets κ υ β) : Buckets κ υ β :=
  t.use a fun b => { t with heap := t.heap.set a { b with data := data } }

def free (a : Nat) (k : κ) (t : Buckets κ υ β) : Buckets κ υ β :=
  { t with heap := t.heap.erase a, index := t.index.erase k }

def leave (u : υ) (a : Nat) (t : Buckets κ υ β) : Buckets κ υ β :=
  t.use a fun b =>
    if u ∈ b.members then
      if b.members.erase u = [] then t.free a b.key
      else { t with heap := t.heap.set a { b with members := b.members.erase u } }
    else t

def obtain (k stored : κ) (data : β) (t : Buckets κ υ β) : Buckets κ υ β × Nat :=
  match t.index.find k with
  | some a => (t, a)
  | none => (t.alloc stored data, t.next)

def put (k stored : κ) (data : β) (u : υ) (t : Buckets κ υ β) : Buckets κ υ β :=
  (t.obtain k stored data).1.join u (t.obtain k stored data).2

def quit (k : κ) (u : υ) (t : Buckets κ υ β) : Buckets κ υ β :=
  match t.index.find k with
  | none => t
  | some a => t.leave u a

structure Holds (t : Buckets κ υ β) (place : υ → Option κ) : Prop where
  found : ∀ k a, t.index.find k = some a ↔ ∃ b, t.heap.find a = some b ∧ b.key = k
  nonempty : ∀ a b, t.heap.find a = some b → b.members ≠ []
  nodup : ∀ a b, t.heap.find a = some b → b.members.Nodup
  mem : ∀ a b, t.heap.find a = some b → ∀ u, u ∈ b.members ↔ place u = some b.key
  present : ∀ u k, place u = some k → (t.index.find k).isSome
  fresh : ∀ a b, t.heap.find a = some b → a < t.next
  sound : t.fault = false

section rules
variable {t : Buckets κ υ β} {place : υ → Option κ} {k : κ} {u : υ} {a : Nat} {b : Bucket κ υ β}

omit [DecidableEq υ] in
theorem holds_empty : Holds (empty : Buckets κ υ β) fun _ => none :=
  ⟨fun _ _ => by simp [empty], nofun, nofun, nofun, nofun, nofun, rfl⟩

omit [DecidableEq κ] [DecidableEq υ] in
theorem use_of_find (h : t.heap.find a = some b) (f : Bucket κ υ β → Buckets κ υ β) :
    t.use a f = f b := by
  rw [use, h]

omit [DecidableEq υ] in
theorem Holds.next_free (h : Holds t place) : t.heap.find t.next = none := by
  cases hb : t.heap.find t.next with
  | none => rfl
  | some b => exact absurd (h.fresh _ b hb) (Nat.lt_irrefl _)

omit [DecidableEq υ] in
theorem Holds.bucket (h : Holds t place) (ha : t.index.find k = some a) :
    ∃ b, t.heap.find a = some b ∧ b.key = k := (h.found k a).mp ha

omit [DecidableEq υ] in
theorem Holds.key_inj (h : Holds t place) {a' : Nat} {b' : Bucket κ υ β}
    (hb : t.heap.find a = some b) (hb' : t.heap.find a' = some b') (hkey : b'.key = b.key) :
    a' = a := by
  have ha := (h.found b.key a).mpr ⟨b, hb, rfl⟩
  have ha' := (h.found b.key a').mpr ⟨b', hb', hkey⟩
  rw [ha] at ha'
  exact (Option.some.inj ha').symm

omit [DecidableEq υ] in
theorem Holds.set (h : Holds t place) {b' : Bucket κ υ β} {place' : υ → Option κ}
    (hb : t.heap.find a = some b) (hkey : b'.key = b.key) (hne : b'.members ≠ [])
    (hnodup : b'.members.Nodup) (hmem : ∀ u, u ∈ b'.members ↔ place' u = some b.key)
    (hother : ∀ u k, k ≠ b.key → (place' u = some k ↔ place u = some k)) :
    Holds { t with heap := t.heap.set a b' } place' := by
  have hfind : ∀ a₁, (t.heap.set a b').find a₁ = if a₁ = a then some b' else t.heap.find a₁ := by
    intro a₁
    rw [Registry.find_set]
    split_ifs with heq
    · rw [heq, hb]
      rfl
    · rfl
  refine ⟨fun k a₁ => ?_, fun a₁ b₁ hb₁ => ?_, fun a₁ b₁ hb₁ => ?_, fun a₁ b₁ hb₁ u => ?_,
    fun u k hu => ?_, fun a₁ b₁ hb₁ => ?_, h.sound⟩
  · rw [hfind, h.found]
    by_cases heq : a₁ = a
    · subst heq
      rw [if_pos rfl, hb]
      simp [hkey]
    · rw [if_neg heq]
  · rw [hfind] at hb₁
    split_ifs at hb₁
    · cases hb₁
      exact hne
    · exact h.nonempty a₁ b₁ hb₁
  · rw [hfind] at hb₁
    split_ifs at hb₁
    · cases hb₁
      exact hnodup
    · exact h.nodup a₁ b₁ hb₁
  · rw [hfind] at hb₁
    split_ifs at hb₁ with heq
    · cases hb₁
      rw [hkey]
      exact hmem u
    · have hne : b₁.key ≠ b.key := fun hk => heq (h.key_inj hb hb₁ hk)
      rw [hother u b₁.key hne]
      exact h.mem a₁ b₁ hb₁ u
  · by_cases hk : k = b.key
    · rw [hk, (h.found b.key a).mpr ⟨b, hb, rfl⟩]
      rfl
    · exact h.present u k ((hother u k hk).mp hu)
  · rw [hfind] at hb₁
    split_ifs at hb₁ with heq
    · exact heq ▸ h.fresh a b hb
    · exact h.fresh a₁ b₁ hb₁

omit [DecidableEq υ] in
theorem Holds.setData (h : Holds t place) (hb : t.heap.find a = some b) (data : β) :
    Holds (t.setData data a) place := by
  rw [Buckets.setData, use_of_find hb]
  exact h.set hb rfl (h.nonempty a b hb) (h.nodup a b hb) (h.mem a b hb) fun _ _ _ => Iff.rfl

theorem Holds.join (h : Holds t place) (hb : t.heap.find a = some b) (hu : place u = none) :
    Holds (t.join u a) (Function.update place u (some b.key)) := by
  have hnew : u ∉ b.members := by
    rw [h.mem a b hb, hu]
    exact nofun
  rw [Buckets.join, use_of_find hb]
  refine h.set hb rfl (by simp) ?_ (fun v => ?_) fun v k hk => ?_
  · rw [List.nodup_append]
    exact ⟨h.nodup a b hb, List.nodup_singleton u, fun x hx y hy hxy => hnew (by simp_all)⟩
  · rw [List.mem_append, List.mem_singleton, h.mem a b hb, Function.update_apply]
    by_cases hv : v = u <;> simp [hv]
  · rw [Function.update_apply]
    split_ifs with hv
    · rw [hv, hu]
      simp [Ne.symm hk]
    · exact Iff.rfl

theorem Holds.allocJoin (h : Holds t place) (hk : t.index.find k = none) (hu : place u = none)
    (data : β) : Holds ((t.alloc k data).join u t.next) (Function.update place u (some k)) := by
  have hfree := h.next_free
  have hnokey : ∀ v, place v ≠ some k := by
    intro v hv
    have hsome := h.present v k hv
    rw [hk] at hsome
    cases hsome
  have hjoin : (t.alloc k data).join u t.next =
      ⟨(t.heap.insertNew t.next ⟨k, [], data⟩).set t.next ⟨k, [u], data⟩,
        t.index.insertNew k t.next, t.next + 1, t.fault⟩ := by
    have hfind : (t.alloc k data).heap.find t.next = some ⟨k, [], data⟩ := by
      rw [alloc, Registry.find_insertNew, hfree, if_pos rfl, Option.none_or]
    rw [Buckets.join, use_of_find hfind]
    rfl
  have hfind : ∀ a₁, ((t.heap.insertNew t.next ⟨k, [], data⟩).set t.next ⟨k, [u], data⟩).find a₁ =
      if a₁ = t.next then some ⟨k, [u], data⟩ else t.heap.find a₁ := by
    intro a₁
    rw [Registry.find_set, Registry.find_insertNew]
    by_cases heq : a₁ = t.next
    · rw [if_pos heq, if_pos heq, heq, hfree, if_pos rfl]
      rfl
    · rw [if_neg heq, if_neg heq, if_neg (Ne.symm heq), Option.or_none]
  rw [hjoin]
  refine ⟨fun k₁ a₁ => ?_, fun a₁ b₁ hb₁ => ?_, fun a₁ b₁ hb₁ => ?_, fun a₁ b₁ hb₁ v => ?_,
    fun v k₁ hv => ?_, fun a₁ b₁ hb₁ => ?_, h.sound⟩
  · rw [hfind, Registry.find_insertNew]
    by_cases heq : a₁ = t.next
    · have hold : t.index.find k₁ ≠ some t.next := by
        intro hold
        obtain ⟨b₁, hb₁, -⟩ := h.bucket hold
        rw [hfree] at hb₁
        cases hb₁
      subst heq
      rw [if_pos rfl]
      by_cases hkey : k = k₁
      · subst hkey
        simp [hk]
      · cases hold₁ : t.index.find k₁ with
        | none => simp [hkey]
        | some a₂ =>
          have hne : a₂ ≠ t.next := fun he => hold (he ▸ hold₁)
          simp [hkey, hne]
    · rw [if_neg heq, ← h.found]
      by_cases hkey : k = k₁
      · subst hkey
        simp [hk, Ne.symm heq]
      · rw [if_neg hkey, Option.or_none]
  · rw [hfind] at hb₁
    split_ifs at hb₁
    · cases hb₁
      exact List.cons_ne_nil u []
    · exact h.nonempty a₁ b₁ hb₁
  · rw [hfind] at hb₁
    split_ifs at hb₁
    · cases hb₁
      exact List.nodup_singleton u
    · exact h.nodup a₁ b₁ hb₁
  · rw [hfind] at hb₁
    rw [Function.update_apply]
    split_ifs at hb₁ with heq
    · cases hb₁
      by_cases hv : v = u
      · simp [hv]
      · simp [hv, hnokey v]
    · have hne : b₁.key ≠ k := by
        intro hkey
        have hsome := (h.found k a₁).mpr ⟨b₁, hb₁, hkey⟩
        rw [hk] at hsome
        cases hsome
      rw [h.mem a₁ b₁ hb₁]
      split_ifs with hv
      · rw [hv, hu]
        simp [Ne.symm hne]
      · exact Iff.rfl
  · rw [Registry.find_insertNew]
    rw [Function.update_apply] at hv
    split_ifs at hv with hvu
    · cases hv
      simp [hk]
    · have hsome := h.present v k₁ hv
      rw [Option.isSome_or, hsome]
      rfl
  · rw [hfind] at hb₁
    show a₁ < t.next + 1
    split_ifs at hb₁ with heq
    · omega
    · have hlt := h.fresh a₁ b₁ hb₁
      omega

theorem Holds.put (h : Holds t place) (hu : place u = none) (data : β) :
    Holds (t.put k k data u) (Function.update place u (some k)) := by
  rw [Buckets.put, Buckets.obtain]
  cases hk : t.index.find k with
  | none => exact h.allocJoin hk hu data
  | some a =>
    obtain ⟨b, hb, rfl⟩ := h.bucket hk
    exact h.join hb hu

omit [DecidableEq υ] in
theorem Holds.find_put (h : Holds t place) (data : β) :
    ∃ b, (t.put k k data u).heap.find (t.obtain k k data).2 = some b := by
  rw [Buckets.put, Buckets.obtain]
  cases hk : t.index.find k with
  | none =>
    have hfind : (t.alloc k data).heap.find t.next = some ⟨k, [], data⟩ := by
      rw [alloc, Registry.find_insertNew, h.next_free, if_pos rfl, Option.none_or]
    refine ⟨⟨k, [u], data⟩, ?_⟩
    dsimp only
    rw [Buckets.join, use_of_find hfind, Registry.find_set, if_pos rfl, hfind]
    rfl
  | some a =>
    obtain ⟨b, hb, rfl⟩ := h.bucket hk
    refine ⟨{ b with members := b.members ++ [u] }, ?_⟩
    dsimp only
    rw [Buckets.join, use_of_find hb, Registry.find_set, if_pos rfl, hb]
    rfl

theorem Holds.free (h : Holds t place) (hb : t.heap.find a = some b) (hlast : b.members = [u]) :
    Holds (t.free a b.key) (Function.update place u none) := by
  have honly : ∀ v, place v = some b.key → v = u := by
    intro v hv
    have hmem := (h.mem a b hb v).mpr hv
    rw [hlast] at hmem
    exact List.mem_singleton.mp hmem
  have hplace : place u = some b.key := (h.mem a b hb u).mp (by rw [hlast]; exact List.mem_singleton_self u)
  refine ⟨fun k₁ a₁ => ?_, fun a₁ b₁ hb₁ => ?_, fun a₁ b₁ hb₁ => ?_, fun a₁ b₁ hb₁ v => ?_,
    fun v k₁ hv => ?_, fun a₁ b₁ hb₁ => ?_, h.sound⟩
  · rw [Buckets.free, Registry.find_erase, Registry.find_erase]
    by_cases hkey : k₁ = b.key
    · rw [if_pos hkey]
      refine iff_of_false nofun ?_
      rintro ⟨b₁, hb₁, hkey₁⟩
      split_ifs at hb₁ with heq
      exact heq (h.key_inj hb hb₁ (hkey₁.trans hkey))
    · rw [if_neg hkey, h.found]
      by_cases heq : a₁ = a
      · subst heq
        rw [if_pos rfl, hb]
        simp [Ne.symm hkey]
      · rw [if_neg heq]
  all_goals try rw [Buckets.free, Registry.find_erase] at hb₁
  · split_ifs at hb₁
    exact h.nonempty a₁ b₁ hb₁
  · split_ifs at hb₁
    exact h.nodup a₁ b₁ hb₁
  · split_ifs at hb₁ with heq
    have hne : b₁.key ≠ b.key := fun hk => heq (h.key_inj hb hb₁ hk)
    rw [h.mem a₁ b₁ hb₁, Function.update_apply]
    split_ifs with hv
    · rw [hv, hplace]
      simp [Ne.symm hne]
    · exact Iff.rfl
  · rw [Function.update_apply] at hv
    split_ifs at hv with hvu
    have hne : k₁ ≠ b.key := fun hk => hvu (honly v (hk ▸ hv))
    rw [Buckets.free, Registry.find_erase, if_neg hne]
    exact h.present v k₁ hv
  · split_ifs at hb₁
    exact h.fresh a₁ b₁ hb₁

omit [DecidableEq κ] in
theorem update_of_none (hu : place u = none) : Function.update place u none = place := by
  rw [← hu, Function.update_eq_self]

theorem Holds.quit (h : Holds t place) (hu : place u = none ∨ place u = some k) :
    Holds (t.quit k u) (Function.update place u none) := by
  rw [Buckets.quit]
  cases hk : t.index.find k with
  | none =>
    obtain hu | hu := hu
    · rwa [update_of_none hu]
    · have hsome := h.present u k hu
      rw [hk] at hsome
      cases hsome
  | some a =>
    obtain ⟨b, hb, rfl⟩ := h.bucket hk
    dsimp only
    rw [Buckets.leave, use_of_find hb]
    by_cases hmem : u ∈ b.members
    · rw [if_pos hmem]
      split_ifs with hempty
      · have hlast : b.members = [u] := by
          have hperm := List.perm_cons_erase hmem
          rw [hempty] at hperm
          exact List.perm_singleton.mp hperm
        exact h.free hb hlast
      · have hnodup := h.nodup a b hb
        refine h.set hb rfl hempty (hnodup.erase u) (fun v => ?_) fun v k hk => ?_
        · rw [hnodup.mem_erase_iff, h.mem a b hb, Function.update_apply]
          by_cases hv : v = u <;> simp [hv]
        · rw [Function.update_apply]
          split_ifs with hv
          · rw [hv, (h.mem a b hb u).mp hmem]
            simp [Ne.symm hk]
          · exact Iff.rfl
    · rw [if_neg hmem]
      obtain hu | hu := hu
      · rwa [update_of_none hu]
      · exact absurd ((h.mem a b hb u).mpr hu) hmem

end rules
end Buckets
end ChatServices.Lib
