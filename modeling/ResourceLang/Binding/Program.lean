import ResourceLang.Binding.Resolution
import ResourceLang.Binding.Settings
import ResourceLang.Catalog.Cache
import ResourceLang.Decorator.Evaluation
import ResourceLang.Ty.Diagnostics

/-!
# Bound programs — what each declaration means

Binding a declaration resolves its type and applies its decorators. Declarations do not depend on each
other, so a program is bound one declaration at a time, and the results stand in source order. With a cache
the declarations share what the provider has answered before.
-/

namespace ResourceLang

open Syntax (Declaration DeclarationKind Node)

/-- A declaration with its types and metadata. -/
structure BoundDeclaration where
  name : String
  kind : DeclarationKind
  span : Span
  declared : Ty
  narrowed : Ty
  metadata : Keyed String Node
  unknown : List Error

namespace BoundDeclaration

/-- The errors within the declared type. -/
def diagnostics (b : BoundDeclaration) : List Diagnostic := b.declared.diagnostics

/-- Whether there is no declared type or some decorator is unknown. -/
def hasErrors (b : BoundDeclaration) : Bool := b.declared.isError || !b.unknown.isEmpty

end BoundDeclaration

/-- Binds one declaration. -/
def bindDeclaration (settings : Settings) (registry : Registry) (provider : Provider)
    (d : Declaration) : Except Disorder BoundDeclaration := do
  let declared ← d.resolve settings.scope provider
  let evaluation ← evaluateDecorators registry d declared
  let span ← d.span
  pure ⟨d.name.name, d.kind, span, declared, evaluation.narrowed, evaluation.metadata,
    evaluation.unknown⟩

/-- What a declaration asks of the provider, if it asks anything. -/
def requestOf (settings : Settings) : Declaration → Option Request
  | .resource r =>
    match r.reference with
    | .ok reference => some ⟨settings.scope, reference⟩
    | .error _ => none
  | _ => none

/-- The bound declarations of a program, in source order. -/
structure BoundProgram where
  declarations : List BoundDeclaration

/-- Binds the declarations of a program in source order. -/
def bindProgram (settings : Settings) (registry : Registry) (provider : Provider)
    (program : List Declaration) : Except Disorder BoundProgram := do
  let declarations ← program.mapM (bindDeclaration settings registry provider)
  pure ⟨declarations⟩

/-- The cache after a declaration was bound with it. -/
def Cache.afterBinding (c : Cache) (settings : Settings) (provider : Provider)
    (d : Declaration) : Cache :=
  match requestOf settings d with
  | some request => (c.answer provider request).2
  | none => c

/-- Binds declarations in source order through a cache, from the bound ones and the cache so far. -/
def bindDeclarationsCached (settings : Settings) (registry : Registry) (provider : Provider) :
    List Declaration → Cache → Except Disorder (List BoundDeclaration × Cache)
  | [], c => .ok ([], c)
  | d :: ds, c => do
    let bound ← bindDeclaration settings registry (c.provider provider) d
    let (later, after) ← bindDeclarationsCached settings registry provider ds
      (c.afterBinding settings provider d)
    pure (bound :: later, after)

/-- Binds the declarations of a program through a cache. -/
def bindProgramCached (settings : Settings) (registry : Registry) (provider : Provider)
    (cache : Cache) (program : List Declaration) : Except Disorder (BoundProgram × Cache) := do
  let (declarations, after) ← bindDeclarationsCached settings registry provider program cache
  pure (⟨declarations⟩, after)

namespace BoundProgram

/-- The first declaration of the given name. -/
def get? (p : BoundProgram) (name : String) : Option BoundDeclaration :=
  p.declarations.find? fun b => b.name == name

/-- The errors within declared types, in source order. -/
def diagnostics (p : BoundProgram) : List Diagnostic :=
  p.declarations.flatMap BoundDeclaration.diagnostics

/-- The unknown decorators, in source order. -/
def unknown (p : BoundProgram) : List Error := p.declarations.flatMap BoundDeclaration.unknown

/-- The number of declarations with errors. -/
def errorCount (p : BoundProgram) : Nat := p.declarations.countP BoundDeclaration.hasErrors

end BoundProgram

end ResourceLang
