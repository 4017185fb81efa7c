import ResourceLang.Span

/-!
# Diagnostics — what is wrong with a program, and where

A diagnostic names a problem in the program under analysis and the region of source text it concerns. Each
problem has a stable code, a severity and a short default wording. A diagnostic has a severity of its own; unless
another one is given, it is that of the problem.
-/

namespace ResourceLang

/-- How much a diagnostic matters. -/
inductive Severity where
  | info
  | warning
  | error
deriving DecidableEq

/-- What is wrong. -/
inductive Problem where
  /-- The type of a resource is not a text that names a resource type. -/
  | invalidResourceType
  /-- The type of a resource is an interpolated string. -/
  | interpolatedResourceType
  /-- No schema is available for the resource type. -/
  | unknownResourceType (reference : String)
  /-- The type of an output is none of the supported ones. -/
  | invalidOutputType
  /-- The type of a parameter is none of the supported ones. -/
  | invalidParameterType
  /-- A type that is made of other types does not fit together. -/
  | malformedType (reason : String)
deriving DecidableEq

namespace Problem

/-- The stable code of a problem. -/
def code : Problem → String
  | invalidResourceType => "BCP029"
  | invalidOutputType => "BCP030"
  | invalidParameterType => "BCP031"
  | interpolatedResourceType => "BCP047"
  | malformedType _ => "BCP070"
  | unknownResourceType _ => "BCP081"

/-- The severity of a problem: each of them makes the program invalid. -/
def severity : Problem → Severity
  | _ => .error

/-- The default wording of a problem. -/
def message : Problem → String
  | invalidResourceType =>
    "The resource type is not valid. Specify a valid resource type of format \"<types>@<apiVersion>\"."
  | interpolatedResourceType =>
    "String interpolation is unsupported for specifying the resource type."
  | unknownResourceType reference => "Resource type \"" ++ reference ++ "\" is not available."
  | invalidOutputType =>
    "The output type is not valid. Specify one of: array, bool, int, object, string."
  | invalidParameterType =>
    "The parameter type is not valid. Specify one of: array, bool, int, object, string."
  | malformedType reason => "The type is malformed: " ++ reason

end Problem

/-- How much a problem matters where it was found. -/
class Rating (problem : Problem) where
  severity : Severity
deriving DecidableEq

/-- Unless it is rated otherwise, a problem matters as much as it does anywhere. -/
instance (problem : Problem) : Rating problem := ⟨problem.severity⟩

/-- A problem, the region of source text it concerns, and how much it matters there. -/
structure Diagnostic where
  span : Span
  problem : Problem
  [rating : Rating problem]
deriving DecidableEq

namespace Diagnostic

/-- The severity of the diagnostic. -/
def severity (d : Diagnostic) : Severity := d.rating.severity

/-- Whether the diagnostic makes the program invalid. -/
def isError (d : Diagnostic) : Bool := d.severity == .error

/-- The region, the code and the wording. -/
def text (d : Diagnostic) : String :=
  d.span.text ++ " " ++ d.problem.code ++ ": " ++ d.problem.message

end Diagnostic

end ResourceLang
