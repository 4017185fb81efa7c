import Mathlib.Data.List.Induction
import ResourceLang.Decorator.Registry

/-!
# Histories of registries — which decorator a name means

A registry starts empty or with the standard decorators, and grows by registration. Whatever was registered, a name
means the decorator that was registered last under it, and what was registered under other names does not matter.

* **`Registry.History.get?_eq`** — what a name means after any history.
* **`Decorator.lastNamed_congr`** — registrations under other names.
-/

namespace ResourceLang

/-- The decorator that was registered last under the name. -/
def Decorator.lastNamed (registered : List Decorator) (name : String) : Option Decorator :=
  registered.reverse.find? fun d => name == d.name

/-- The registry has come about by these registrations, which begin with the standard decorators or not. -/
inductive Registry.History : Registry → List Decorator → Prop where
  | ofEmpty : History empty []
  | ofStandard : History standard Decorator.standard
  | register {registry : Registry} {registered : List Decorator} (h : History registry registered)
      (d : Decorator) : History (registry.register d) (registered ++ [d])

namespace Decorator

theorem lastNamed_append (registered : List Decorator) (d : Decorator) (name : String) :
    lastNamed (registered ++ [d]) name = if name == d.name then some d else lastNamed registered name := by
  rw [lastNamed, List.reverse_append, List.reverse_singleton, List.singleton_append, List.find?_cons]
  cases name == d.name <;> rfl

/-- What is found was registered under the name. -/
theorem of_lastNamed {registered : List Decorator} {name : String} {d : Decorator}
    (h : lastNamed registered name = some d) : d ∈ registered ∧ d.name = name := by
  rw [lastNamed] at h
  have hname := List.find?_some h
  exact ⟨List.mem_reverse.mp (List.mem_of_find?_eq_some h), (eq_of_beq hname).symm⟩

theorem lastNamed_eq_none_iff {registered : List Decorator} {name : String} :
    lastNamed registered name = none ↔ ∀ d ∈ registered, d.name ≠ name := by
  rw [lastNamed, List.find?_eq_none]
  constructor
  · intro h d hd heq
    exact h d (List.mem_reverse.mpr hd) (beq_iff_eq.mpr heq.symm)
  · intro h d hd heq
    exact h d (List.mem_reverse.mp hd) (beq_iff_eq.mp heq).symm

/-- **Only what was registered under the name matters** for what the name means. -/
theorem lastNamed_congr {registered registered' : List Decorator} {name : String}
    (h : (registered.filter fun d => name == d.name) = registered'.filter fun d => name == d.name) :
    lastNamed registered name = lastNamed registered' name := by
  have hfilter : ∀ ds : List Decorator,
      lastNamed ds name = (ds.filter fun d => name == d.name).reverse.find? fun d => name == d.name := by
    intro ds
    rw [lastNamed, ← List.filter_reverse, List.find?_filter]
    congr 1
    funext d
    cases name == d.name <;> rfl
  rw [hfilter, hfilter, h]

end Decorator

namespace Registry

theorem get?_foldl_register (registered : List Decorator) (name : String) :
    (registered.foldl register empty).get? name = Decorator.lastNamed registered name := by
  induction registered using List.reverseRecOn with
  | nil => rfl
  | append_singleton registered d ih =>
      rw [List.foldl_append, Decorator.lastNamed_append, ← ih]
      exact get?_register _ d name

/-- Every registry has come about from the empty one. -/
theorem History.eq_foldl {registry : Registry} {registered : List Decorator}
    (h : History registry registered) : registry = registered.foldl Registry.register empty := by
  induction h with
  | ofEmpty => rfl
  | ofStandard => rfl
  | register h d ih => rw [List.foldl_append, ← ih]; rfl

/-- **What a name means** is the decorator that was registered last under it. -/
theorem History.get?_eq {registry : Registry} {registered : List Decorator} (h : History registry registered)
    (name : String) : registry.get? name = Decorator.lastNamed registered name := by
  rw [h.eq_foldl, get?_foldl_register]

/-- A registered name is found, another one is an error that names it. -/
theorem History.lookup_eq {registry : Registry} {registered : List Decorator} (h : History registry registered)
    (name : String) :
    registry.lookup name =
      (Decorator.lastNamed registered name).elim (.error (.ofCause (.unknownDecorator name))) .ok := by
  rw [lookup, h.get?_eq]
  cases Decorator.lastNamed registered name <;> rfl

end Registry

end ResourceLang
