import ResourceLang.Decorator.Standard
import ResourceLang.Error

/-!
# Registries — decorators by name

A registry finds decorators by name and lists them in the order in which their names were first
registered. Registering under a name that is taken replaces the decorator and keeps its place.

* **`get?_register`** — a name means the decorator registered last under it.
-/

namespace ResourceLang

/-- Decorators by name. -/
structure Registry where
  decorators : Keyed String Decorator

namespace Registry

/-- The registry without decorators. -/
def empty : Registry := ⟨.empty⟩

/-- Registers a decorator under its name. -/
def register (r : Registry) (d : Decorator) : Registry := ⟨r.decorators.insert d.name d⟩

/-- The registry of the standard decorators. -/
def standard : Registry := Decorator.standard.foldl register empty

/-- The decorator with the given name. -/
def get? (r : Registry) (name : String) : Option Decorator := r.decorators.get? name

/-- The decorator with the given name, or an error that names it. -/
def lookup (r : Registry) (name : String) : Except Error Decorator :=
  match r.get? name with
  | some d => .ok d
  | none => .error (.ofCause (.unknownDecorator name))

/-- Whether a decorator has the given name. -/
def contains (r : Registry) (name : String) : Bool := r.decorators.contains name

/-- The names in the order of registration. -/
def names (r : Registry) : List String := r.decorators.keys

/-- The decorators in the order of registration. -/
def toList (r : Registry) : List Decorator := r.decorators.values

/-- The number of decorators. -/
def size (r : Registry) : Nat := r.decorators.size

/-- Whether there are no decorators. -/
def isEmpty (r : Registry) : Bool := r.decorators.isEmpty

/-- A registration changes what its own name means and nothing else. -/
theorem get?_register (r : Registry) (d : Decorator) (name : String) :
    (r.register d).get? name = if name == d.name then some d else r.get? name :=
  Keyed.get?_insert r.decorators d.name name d

end Registry

end ResourceLang
