import ChatServices.Text
import Mathlib.Data.List.Nodup
import Mathlib.Logic.Relation

/-! The modules of `libathemecore/module.c`: loading, which may nest, the dependencies that symbols make,
and unloading with everything that depends on a module. -/
namespace ChatServices.Modules
open ChatServices.Text

inductive Capability where
  | ok | never | reloadOnly
  deriving DecidableEq

/-- A `module_t`; `failed` is `MODTYPE_FAIL`. -/
structure Module where
  name : CString
  modpath : CString
  canUnload : Capability
  failed : Bool
  dephost : List Nat
  deplist : List Nat

inductive Fault where
  | pointer | depth
  deriving DecidableEq

/-- The modules whose `modinit` runs have the innermost first, which is `modtarget`. -/
structure Loader where
  heap : Nat → Option Module
  next : Nat
  modules : List Nat
  inprogress : List Nat
  deinits : List Nat

namespace Loader
variable (l : Loader)

def deps (m : Nat) : List Nat := ((l.heap m).map Module.deplist).getD []
def hosts (m : Nat) : List Nat := ((l.heap m).map Module.dephost).getD []

def deref (m : Nat) : Except Fault Module :=
  match l.heap m with
  | some x => .ok x
  | none => .error .pointer

def moduleFind (path : CString) : Option Nat :=
  l.modules.find? fun m => (l.heap m).any fun x => strcaseEq x.modpath path

def moduleFindPublished (name : CString) : Option Nat :=
  l.modules.find? fun m => (l.heap m).any fun x => strcaseEq x.name name

/-- `module_load` up to `modinit`, for a file with a good header. -/
def beginLoad (path name : CString) (canUnload : Capability) : Loader :=
  if (l.moduleFind path).isSome ∨ (l.moduleFindPublished name).isSome then l
  else { l with
    heap := Function.update l.heap l.next (some ⟨name, path, canUnload, false, [], []⟩)
    next := l.next + 1
    inprogress := l.next :: l.inprogress }

def modify (m : Nat) (f : Module → Module) : Loader :=
  { l with heap := Function.update l.heap m ((l.heap m).map f) }

/-- `MODTYPE_FAIL` is set by the module that is being loaded. -/
def failLoad : Loader :=
  match l.inprogress with
  | [] => l
  | m :: _ => l.modify m fun x => { x with failed := true }

def link (target m : Nat) : Loader :=
  (l.modify target fun x => { x with deplist := x.deplist ++ [m] }).modify m
    fun x => { x with dephost := x.dephost ++ [target] }

/-- `module_locate_symbol`, where a module in `modinit` comes to depend on the one with the symbol. -/
def locateSymbol (modname : CString) : Except Fault Loader :=
  match l.moduleFindPublished modname, l.inprogress with
  | some m, target :: _ => do
    let t ← l.deref target
    if m ∈ t.deplist then return l else return l.link target m
  | _, _ => return l

/-- `module_request`, for a file with a good header: a module that is being loaded is not loaded again. -/
def moduleRequest (name path published : CString) (canUnload : Capability) : Loader :=
  if (l.moduleFindPublished name).isSome ∨
      l.inprogress.any fun m => (l.heap m).any fun x => strcaseEq x.name name then l
  else l.beginLoad path published canUnload

/-- A module that `m` depends on is told that it no longer exists. -/
def forget (m : Nat) (heap : Nat → Option Module) (hm : Nat) : Except Fault (Nat → Option Module) :=
  match heap hm with
  | some x =>
    if m ∈ x.dephost then
      .ok (Function.update heap hm (some { x with dephost := x.dephost.erase m }))
    else .error .pointer
  | none => .error .pointer

/-- `module_unload`: after each module that depends on it, the loop goes on where it began. -/
def moduleUnload : Nat → Loader → Nat → Except Fault Loader
  | 0, _, _ => .error .depth
  | depth + 1, l, m => do
    let x ← l.deref m
    match x.dephost with
    | d :: _ => do
      let l ← moduleUnload depth l d
      moduleUnload depth l m
    | [] => do
      let heap ← x.deplist.foldlM (forget m) l.heap
      return { l with
        heap := Function.update heap m none
        modules := l.modules.erase m
        deinits := if m ∈ l.modules then l.deinits ++ [m] else l.deinits }

/-- The rest of `module_load` after `modinit`. -/
def endLoad : Except Fault Loader :=
  match l.inprogress with
  | [] => return l
  | m :: inprogress => do
    let x ← l.deref m
    if x.failed then moduleUnload 1 { l with inprogress := inprogress } m
    else return { l with inprogress := inprogress, modules := l.modules ++ [m] }

/-- MODUNLOAD with one module, which no `modinit` calls. -/
def modunload (name : CString) : Except Fault Loader :=
  match l.moduleFindPublished name, l.inprogress with
  | some m, [] => do
    let x ← l.deref m
    if x.canUnload ≠ .ok ∨ x.name ∈ ["operserv/main".toList, "operserv/modload".toList,
        "operserv/modunload".toList] then return l
    else moduleUnload l.modules.length l m
  | _, _ => return l

end Loader

inductive Input where
  | beginLoad (path name : CString) (canUnload : Capability)
  | request (name path published : CString) (canUnload : Capability)
  | locateSymbol (modname : CString)
  | failLoad
  | endLoad
  | modunload (name : CString)

namespace Loader

def step (l : Loader) : Input → Except Fault Loader
  | .beginLoad path name canUnload => return l.beginLoad path name canUnload
  | .request name path published canUnload => return l.moduleRequest name path published canUnload
  | .locateSymbol modname => l.locateSymbol modname
  | .failLoad => return l.failLoad
  | .endLoad => l.endLoad
  | .modunload name => l.modunload name

def start : Loader := ⟨fun _ => none, 0, [], [], []⟩

def run (l : Loader) (inputs : List Input) : Except Fault Loader := inputs.foldlM step l

/-! ### What holds of the modules -/

structure Inv (l : Loader) : Prop where
  alive : ∀ m, (l.heap m).isSome ↔ m ∈ l.inprogress ++ l.modules
  nodup : (l.inprogress ++ l.modules).Nodup
  fresh : ∀ m, l.next ≤ m → l.heap m = none
  back : ∀ m d, d ∈ l.deps m ↔ m ∈ l.hosts d
  single : ∀ m, (l.deps m).Nodup ∧ (l.hosts m).Nodup
  closed : ∀ m, ∀ d ∈ l.deps m, d ∈ l.modules ∧ d ≠ m
  sorted : l.modules.Pairwise fun a b => b ∉ l.deps a

def Needs (l : Loader) : Nat → Nat → Prop := Relation.ReflTransGen fun a b => b ∈ l.deps a

/-- The modules without `m`, which no other one depends on. -/
def remove (l : Loader) (m : Nat) : Loader := { l with
  heap := fun k => if k = m then none else (l.heap k).map fun x => { x with dephost := x.dephost.erase m }
  modules := l.modules.erase m
  inprogress := l.inprogress.erase m
  deinits := if m ∈ l.modules then l.deinits ++ [m] else l.deinits }

def without (l : Loader) (gone : List Nat) : Loader := gone.foldl remove l

section unload
variable {l : Loader} {m d k : Nat} {x : Module} {gone gone' : List Nat}

theorem deps_remove : (l.remove m).deps k = if k = m then [] else l.deps k := by
  by_cases hk : k = m <;> cases hx : l.heap k <;> simp [deps, remove, hk, hx]

theorem hosts_remove : (l.remove m).hosts k = if k = m then [] else (l.hosts k).erase m := by
  by_cases hk : k = m <;> cases hx : l.heap k <;> simp [hosts, remove, hk, hx]

theorem deps_without : (l.without gone).deps k = if k ∈ gone then [] else l.deps k := by
  induction gone generalizing l with
  | nil => simp [without]
  | cons m gone ih =>
    have hrest : (l.without (m :: gone)).deps k = ((l.remove m).without gone).deps k := rfl
    rw [hrest, ih, deps_remove]
    by_cases hk : k = m <;> simp [hk]

theorem Inv.remove (h : l.Inv) (hhosts : l.hosts m = []) : (l.remove m).Inv := by
  have hnodup := List.nodup_append.mp h.nodup
  have hleft : ∀ k, m ∉ l.deps k := by
    intro k hk
    simp [h.back, hhosts] at hk
  have hdeps : ∀ {k d}, d ∈ (l.remove m).deps k → d ∈ l.deps k := by
    intro k d hd
    rw [deps_remove] at hd
    split_ifs at hd
    · cases hd
    · exact hd
  constructor
  · intro k
    have halive := h.alive k
    by_cases hk : k = m <;>
      simp_all [Loader.remove, hnodup.1.mem_erase_iff, hnodup.2.1.mem_erase_iff]
  · exact h.nodup.sublist ((List.erase_sublist ..).append (List.erase_sublist ..))
  · intro k hk
    have hnone := h.fresh k hk
    simp [Loader.remove, hnone]
  · intro k e
    have hmem := (h.single e).2.mem_erase_iff (a := k) (b := m)
    rw [deps_remove, hosts_remove]
    by_cases hk : k = m <;> by_cases he : e = m <;> simp_all [h.back]
  · intro k
    rw [deps_remove, hosts_remove]
    split_ifs
    · exact ⟨List.nodup_nil, List.nodup_nil⟩
    · exact ⟨(h.single k).1, (h.single k).2.erase m⟩
  · intro k e he
    obtain ⟨hmodules, hne⟩ := h.closed k e (hdeps he)
    have hem : e ≠ m := fun heq => hleft k (heq ▸ hdeps he)
    exact ⟨(List.mem_erase_of_ne hem).mpr hmodules, hne⟩
  · exact (h.sorted.sublist (List.erase_sublist ..)).imp fun hab hb => hab (hdeps hb)

/-- The modules that are unloaded with `m`, in this order. -/
structure Gone (l : Loader) (m : Nat) (gone : List Nat) : Prop where
  needs : ∀ k, k ∈ gone ↔ l.Needs k m
  nodup : gone.Nodup
  order : gone.Pairwise fun a b => a ∉ l.deps b

theorem Gone.append (hd : m ∈ l.deps d) (hm : m ∉ gone) (hgone : l.Gone d gone)
    (hgone' : (l.without gone).Gone m gone') :
    l.Gone m (gone ++ gone') := by
  have hdisjoint : ∀ k ∈ gone', k ∉ gone := by
    intro k hk
    rcases ((hgone'.needs k).mp hk).cases_head with rfl | ⟨b, hb, -⟩
    · exact hm
    · intro hmem
      simp [deps_without, hmem] at hb
  refine ⟨fun k => ⟨fun hk => ?_, fun hk => ?_⟩, ?_, ?_⟩
  · rcases List.mem_append.mp hk with hk | hk
    · exact ((hgone.needs k).mp hk).tail hd
    · refine Relation.ReflTransGen.mono ?_ k m ((hgone'.needs k).mp hk)
      intro a b hb
      rw [deps_without] at hb
      split_ifs at hb
      · cases hb
      · exact hb
  · rw [List.mem_append, or_iff_not_imp_left]
    intro hnot
    rw [hgone'.needs]
    induction hk using Relation.ReflTransGen.head_induction_on with
    | refl => exact .refl
    | @head a b hb _ ih =>
      have hb' : b ∉ gone := fun hmem => hnot ((hgone.needs a).mpr (.head hb ((hgone.needs b).mp hmem)))
      exact .head (by simp [deps_without, hnot, hb]) (ih hb')
  · exact hgone.nodup.append hgone'.nodup fun k hk hk' => hdisjoint k hk' hk
  · refine List.pairwise_append.mpr ⟨hgone.order, ?_, ?_⟩
    · refine hgone'.order.imp_of_mem ?_
      intro a b ha hb hab hdep
      simp [deps_without, hdisjoint b hb, hdep] at hab
    · intro a ha b hb hdep
      exact hdisjoint b hb ((hgone.needs b).mpr (.head hdep ((hgone.needs a).mp ha)))

end unload

/-! ### Any run -/

section run
variable {l l' : Loader} {m : Nat} {x : Module}

end run
end Loader
end ChatServices.Modules
