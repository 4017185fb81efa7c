import ResourceLang.Span
import ResourceLang.Text.Quoted

/-!
# Errors — what the library refuses

Building a type from parts that do not fit, reading a reference that is not one, and asking for a schema or
a decorator that is not there are errors. An error is a cause, and may say where it arose.
-/

namespace ResourceLang

/-- Why something was refused. -/
inductive Cause where
  /-- Two properties of an object have one name. -/
  | duplicateProperty (object property : String)
  /-- Two members of a discriminated object have one discriminator value. -/
  | duplicateMember (union key : String)
  /-- A member of a discriminated object lacks a literal discriminator. -/
  | missingDiscriminator (member discriminator : String)
  /-- The text does not name a resource type. -/
  | invalidReference (text : String)
  /-- There is no schema for the resource type. -/
  | unknownResourceType (reference : String)
  /-- The resource type cannot be deployed at the scope. -/
  | unsupportedScope (reference scope : String)
  /-- No decorator has the name. -/
  | unknownDecorator (name : String)
deriving DecidableEq

/-- The wording of a cause. -/
def Cause.message : Cause → String
  | duplicateProperty object property => "duplicate property " ++ property ++ " in object " ++ object
  | duplicateMember union key => "duplicate member " ++ key ++ " in union " ++ union
  | missingDiscriminator member discriminator =>
    "member " ++ member ++ " has no string literal discriminator property " ++ discriminator
  | invalidReference text => "invalid resource type reference: " ++ Text.quoted text
  | unknownResourceType reference => "unknown resource type: " ++ reference
  | unsupportedScope reference scope =>
    "resource type " ++ reference ++ " is not available at " ++ scope ++ " scope"
  | unknownDecorator name => "unknown decorator: " ++ name

/-- Where an error arose: the name of a declaration or file, and a region. -/
structure Context where
  source : Option String
  span : Option Span
deriving DecidableEq

/-- The name after a preposition and the region, each if known. -/
def Context.text (c : Context) : String :=
  (match c.source with
    | some source => "at " ++ source
    | none => "")
  ++ (match c.span with
    | some span => span.text
    | none => "")

/-- A cause and, if known, where it arose. -/
structure Error where
  cause : Cause
  context : Option Context
deriving DecidableEq

namespace Error

/-- An error that does not say where it arose. -/
def ofCause (cause : Cause) : Error := ⟨cause, none⟩

/-- The same error, arising in the given context. -/
def within (e : Error) (context : Context) : Error := { e with context := some context }

/-- The wording of the cause; the context is told apart. -/
def message (e : Error) : String := e.cause.message

end Error

end ResourceLang
