import ResourceLang.Error
import ResourceLang.Scope
import ResourceLang.Ty.Basic

/-!
# Catalogs — schemas of resource types

Schemas are not part of a program: a `Provider` is asked for the type of a reference at a scope and either
answers with a resource type or refuses. A `Catalog` is a list of registered schemas, each with the scopes
at which it is available. A schema registered for a reference replaces the one registered before for an
equal reference, scopes included. The answer has the spelling of the reference that was asked for.

* **`get?_register`** — what the catalog holds after a registration.
-/

namespace ResourceLang

/-- Answers which resource type a reference names at a scope. -/
abbrev Provider := Scope → Reference → Except Error ResourceTy

/-- The type of a resource body and the scopes at which the resource can be deployed. -/
structure Schema where
  body : Ty
  scopes : List Scope

/-- Registered schemas by reference. -/
structure Catalog where
  schemas : Keyed Reference Schema

namespace Catalog

/-- The catalog without schemas. -/
def empty : Catalog := ⟨.empty⟩

/-- Registers a schema at the given scopes. -/
def registerAt (c : Catalog) (reference : Reference) (body : Ty) (scopes : List Scope) : Catalog :=
  ⟨c.schemas.insert reference ⟨body, scopes⟩⟩

/-- Registers a schema at every scope. -/
def register (c : Catalog) (reference : Reference) (body : Ty) : Catalog :=
  c.registerAt reference body Scope.all

/-- The number of references with a schema. -/
def size (c : Catalog) : Nat := c.schemas.size

/-- Whether no schema is registered. -/
def isEmpty (c : Catalog) : Bool := c.schemas.isEmpty

/-- Answers from the registered schemas. -/
def provider (c : Catalog) : Provider := fun scope reference =>
  match c.schemas.get? reference with
  | none => .error (.ofCause (.unknownResourceType reference.text))
  | some schema =>
    if scope ∈ schema.scopes then .ok ⟨reference, schema.body⟩
    else .error (.ofCause (.unsupportedScope reference.text scope.name))

/-- After a registration the schema of every equal reference is the new one. -/
theorem get?_register (c : Catalog) (reference asked : Reference) (body : Ty)
    (scopes : List Scope) :
    (c.registerAt reference body scopes).schemas.get? asked =
      if asked == reference then some ⟨body, scopes⟩ else c.schemas.get? asked :=
  Keyed.get?_insert c.schemas reference asked ⟨body, scopes⟩

end Catalog

end ResourceLang
