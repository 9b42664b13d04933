/-! Computations that touch memory on the way and may give up: what they touch, in order, and their
result. -/
namespace ChatServices.Lib
universe u v

structure Scan (ω : Type u) (α : Type v) where
  accesses : List ω
  result : Option α

namespace Scan
variable {ω : Type u} {α β : Type v}

def pure (a : α) : Scan ω α := ⟨[], some a⟩

def fail : Scan ω α := ⟨[], none⟩

def bind (x : Scan ω α) (f : α → Scan ω β) : Scan ω β :=
  match x.result with
  | some a => ⟨x.accesses ++ (f a).accesses, (f a).result⟩
  | none => ⟨x.accesses, none⟩

instance : Monad (Scan ω) where
  pure := pure
  bind := bind

@[simp] theorem pure_accesses (a : α) : (Pure.pure a : Scan ω α).accesses = [] := rfl

theorem mk_bind (as : List ω) (a : α) (f : α → Scan ω β) :
    ((⟨as, some a⟩ : Scan ω α) >>= f) = ⟨as ++ (f a).accesses, (f a).result⟩ := rfl

theorem mk_none_bind (as : List ω) (f : α → Scan ω β) :
    ((⟨as, none⟩ : Scan ω α) >>= f) = ⟨as, none⟩ := rfl

theorem bind_result (x : Scan ω α) (f : α → Scan ω β) :
    (x >>= f).result = x.result.bind fun a => (f a).result := by
  obtain ⟨as, r⟩ := x
  cases r <;> rfl

def Within (P : ω → Prop) (x : Scan ω α) : Prop := ∀ a ∈ x.accesses, P a

theorem within_bind {P : ω → Prop} {x : Scan ω α} {f : α → Scan ω β} :
    Within P (x >>= f) ↔ Within P x ∧ ∀ a, x.result = some a → Within P (f a) := by
  obtain ⟨as, r⟩ := x
  cases r with
  | none => simp [Within, mk_none_bind]
  | some a => simp [Within, mk_bind, or_imp, forall_and]

end Scan
end ChatServices.Lib
