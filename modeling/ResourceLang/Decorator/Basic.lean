import ResourceLang.Decorator.Signature
import ResourceLang.Ty.Acceptance

/-!
# Decorators — what an application adds to a declaration

Applying a decorator can give a piece of metadata, which pairs a key with an argument that is not yet
evaluated, and can change the type of the declaration. Both are functions of the decorator. Whether it may
stand on a declaration can be asked, but is not checked when it is applied.
-/

namespace ResourceLang

open Syntax (DecoratorUse DeclarationKind Node)

/-- The definition of a decorator. -/
structure Decorator where
  /-- The types of declarations that may carry it. -/
  target : Ty
  /-- How it is called. -/
  signature : Signature
  /-- The metadata of an application to a declaration of the given type. -/
  metadata : DecoratorUse → Ty → Option (String × Node)
  /-- The type of a declaration to which it is applied. -/
  narrow : Ty → Ty

namespace Decorator

/-- The first argument under the given key, if there is an argument. -/
def firstArgument (key : String) (use : DecoratorUse) : Option (String × Node) :=
  use.arguments.head?.map fun argument => (key, argument.expression)

/-- A decorator whose metadata is its first argument under `key`, and which leaves types alone. -/
def recording (target : Ty) (signature : Signature) (key : String) : Decorator where
  target := target
  signature := signature
  metadata := fun use _ => firstArgument key use
  narrow := id

/-- A decorator whose metadata is its first argument under its own name. -/
def plain (target : Ty) (signature : Signature) : Decorator :=
  recording target signature signature.name

/-- The name under which the decorator is applied. -/
def name (d : Decorator) : String := d.signature.name

/-- Which kinds of declarations it may decorate. -/
def flags (d : Decorator) : FunctionFlags := d.signature.flags

/-- Whether a declaration of the type may carry it. -/
def acceptsTarget (d : Decorator) (type : Ty) : Bool := d.target.accepts type

/-- Whether a declaration of the kind may carry it. -/
def appliesTo (d : Decorator) (kind : DeclarationKind) : Bool := d.flags.allows kind

end Decorator

end ResourceLang
