import ResourceLang.Decorator.Basic
import ResourceLang.Ty.Union

/-!
# Standard decorators — the eight that every program can use

`secure` marks a type and records nothing. The other seven leave the type alone and record their argument,
`allowed` under a key of its own and the rest under their names.
-/

namespace ResourceLang.Decorator

/-- A parameter that must be given. -/
private def needed (name : String) (type : Ty) (description : String) : Parameter :=
  ⟨name, type, description, true⟩

/-- Texts and objects. -/
def stringOrObject : Ty := Ty.unionOf [.string, .anyObject]

/-- Texts and lists. -/
def stringOrArray : Ty := Ty.unionOf [.string, .anyArray]

/-- Marks a parameter as secret. -/
def secure : Decorator where
  target := stringOrObject
  signature :=
    { name := "secure"
      description := "Makes the parameter a secure parameter. Its value is not logged or returned."
      flags := .onParameters }
  metadata := fun _ _ => none
  narrow := Ty.withValidation .secure

/-- The key under which `allowed` records its argument. -/
def allowedKey : String := "allowedValues"

/-- Restricts a parameter to a list of values. -/
def allowed : Decorator :=
  recording .any
    { name := "allowed"
      description := "Defines the allowed values of the parameter."
      parameters := [needed "values" .anyArray "The allowed values."]
      flags := .onParameters }
    allowedKey

/-- Sets the smallest allowed number. -/
def minValue : Decorator :=
  plain .int
    { name := "minValue"
      description := "Defines the minimum value of the parameter."
      parameters := [needed "value" .int "The minimum value."]
      flags := .onParameters }

/-- Sets the largest allowed number. -/
def maxValue : Decorator :=
  plain .int
    { name := "maxValue"
      description := "Defines the maximum value of the parameter."
      parameters := [needed "value" .int "The maximum value."]
      flags := .onParameters }

/-- Sets the length of the shortest allowed text or list. -/
def minLength : Decorator :=
  plain stringOrArray
    { name := "minLength"
      description := "Defines the minimum length of the parameter."
      parameters := [needed "length" .int "The minimum length."]
      flags := .onParameters }

/-- Sets the length of the longest allowed text or list. -/
def maxLength : Decorator :=
  plain stringOrArray
    { name := "maxLength"
      description := "Defines the maximum length of the parameter."
      parameters := [needed "length" .int "The maximum length."]
      flags := .onParameters }

/-- Documents a declaration. -/
def description : Decorator :=
  plain .any
    { name := "description"
      description := "Describes the declaration."
      parameters := [needed "text" .string "The description."]
      flags := .onAny }

/-- Attaches arbitrary data to a declaration. -/
def attachment : Decorator :=
  plain .any
    { name := "metadata"
      description := "Defines metadata of the declaration."
      parameters := [needed "object" .anyObject "The metadata object."]
      flags := .onAny }

/-- The standard decorators in the order in which they are registered. -/
def standard : List Decorator :=
  [secure, allowed, minValue, maxValue, minLength, maxLength, description, attachment]

end ResourceLang.Decorator
