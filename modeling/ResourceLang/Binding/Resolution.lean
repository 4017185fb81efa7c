import ResourceLang.Catalog.Basic
import ResourceLang.Reference.Grammar
import ResourceLang.Syntax.Declaration
import ResourceLang.Ty.ReadOnly

/-!
# Resolution — the types that declarations are written with

A parameter or output is written with a keyword for its type, a resource with a text that names a resource
type. Whatever is wrong with it is a diagnostic at the type node, and the declaration then has an error for
its type. Resolution only fails if the type node covers no region of the text.
-/

namespace ResourceLang

open Syntax

/-- The type that a keyword stands for. -/
def Ty.ofKeyword? (keyword : String) : Option Ty :=
  if keyword = "string" then some .string
  else if keyword = "int" then some .int
  else if keyword = "bool" then some .bool
  else if keyword = "object" then some .anyObject
  else if keyword = "array" then some .anyArray
  else none

/-- The type of a parameter or output, or the given problem at its type node. -/
def resolveKeyword (node : Node) (problem : Problem) : Except Disorder Ty :=
  match node.asTypeName?.bind fun name => Ty.ofKeyword? name.name with
  | some type => .ok type
  | none => do
    let span ← node.span
    pure (.error ⟨span, problem⟩)

namespace Syntax.ResourceDeclaration

/-- The reference that the type node names, or the problem with it. -/
def reference (d : ResourceDeclaration) : Except Problem Reference :=
  match d.type.asString? with
  | none => .error .invalidResourceType
  | some literal =>
    if literal.isInterpolated then .error .interpolatedResourceType
    else
      match literal.literal?.bind Reference.parse? with
      | none => .error .invalidResourceType
      | some reference => .ok reference

/-- The type of the declaration once its schema is known: for an existing resource, the body can only
    be read. -/
def typeFromSchema (d : ResourceDeclaration) (span : Span) (found : ResourceTy) : Ty :=
  if d.isExisting then
    let body := found.body.readOnly
    if body.isError then body.anchoredAt span else .resource (found.withBody body)
  else .resource found

/-- The type of a resource declaration, with schemas from the given provider. -/
def resolve (d : ResourceDeclaration) (scope : Scope) (provider : Provider) :
    Except Disorder Ty := do
  let span ← d.type.span
  match d.reference with
  | .error problem => pure (.error ⟨span, problem⟩)
  | .ok reference =>
    match provider scope reference with
    | .error _ => pure (.error ⟨span, .unknownResourceType reference.text⟩)
    | .ok found => pure (d.typeFromSchema span found)

end Syntax.ResourceDeclaration

/-- The type of a parameter declaration. -/
def Syntax.ParameterDeclaration.resolve (d : ParameterDeclaration) : Except Disorder Ty :=
  resolveKeyword d.type .invalidParameterType

/-- The type of an output declaration. -/
def Syntax.OutputDeclaration.resolve (d : OutputDeclaration) : Except Disorder Ty :=
  resolveKeyword d.type .invalidOutputType

/-- The type of a declaration of any kind. -/
def Syntax.Declaration.resolve (d : Declaration) (scope : Scope) (provider : Provider) :
    Except Disorder Ty :=
  match d with
  | .resource r => r.resolve scope provider
  | .output o => o.resolve
  | .parameter p => p.resolve

end ResourceLang
