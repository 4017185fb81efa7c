import ResourceLang.Decorator.Registry

/-!
# Evaluation — the decorators of one declaration together

The decorators of a declaration are applied in source order, each to the type that the ones before it left.
Metadata under a key that was used before replaces the value and keeps its place. A name without a decorator
is reported with the declaration and the region of the application, and otherwise passed over.
-/

namespace ResourceLang

open Syntax (Declaration DecoratorUse Node)

/-- What the decorators of a declaration come to. -/
structure Evaluation where
  metadata : Keyed String Node
  narrowed : Ty
  unknown : List Error

namespace Evaluation

/-- The state before the first decorator. -/
def start (type : Ty) : Evaluation := ⟨.empty, type, []⟩

/-- The state after a known decorator. -/
def apply (e : Evaluation) (d : Decorator) (use : DecoratorUse) : Evaluation where
  metadata :=
    match d.metadata use e.narrowed with
    | some (key, value) => e.metadata.insert key value
    | none => e.metadata
  narrowed := d.narrow e.narrowed
  unknown := e.unknown

/-- The state after an application on the declaration `owner`. -/
def step (registry : Registry) (owner : String) (e : Evaluation) (use : DecoratorUse) :
    Except Disorder Evaluation :=
  match registry.lookup use.name with
  | .ok d => .ok (e.apply d use)
  | .error unknown => do
    let span ← use.span
    pure { e with unknown := e.unknown ++ [unknown.within ⟨some owner, some span⟩] }

end Evaluation

/-- Applies the decorators of a declaration whose type is `type`. -/
def evaluateDecorators (registry : Registry) (declaration : Declaration) (type : Ty) :
    Except Disorder Evaluation :=
  declaration.decorators.foldlM (Evaluation.step registry declaration.name.name) (.start type)

end ResourceLang
