import ResourceLang.Ty.Basic

/-!
# Names of types — how messages write a type

A type is written the way source text would: keywords for primitives, quotes around a single text, brackets
after the item of an array, bars between the members of a union. Objects are written by their name and
resources by their reference.
-/

namespace ResourceLang

mutual

/-- How a message writes the type. -/
def Ty.name : Ty → String
  | .any => "any"
  | .error _ => "error"
  | .primitive k _ => k.keyword
  | .literal value => "'" ++ value ++ "'"
  | .array item =>
    match item with
    | .any => "array"
    | .union members => "(" ++ unionName members ++ ")[]"
    | other => other.name ++ "[]"
  | .object o => o.name
  | .discriminated d => d.name
  | .union members => unionName members
  | .resource r => r.reference.text
termination_by structural t => t

/-- The members of a union with bars between them; without members it is `never`. -/
def unionName : List Ty → String
  | [] => "never"
  | [t] => t.name
  | t :: ts => t.name ++ " | " ++ unionName ts
termination_by structural ts => ts

end

end ResourceLang
