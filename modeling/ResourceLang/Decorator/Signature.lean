import ResourceLang.Syntax.Declaration
import ResourceLang.Ty.Name

/-!
# Signatures — how decorators are called and where they may stand

A signature has a name, parameters, a return type and flags that say which kinds of declarations it may
decorate.
-/

namespace ResourceLang

/-- The flags of a signature. -/
def functionVocabulary : FlagVocabulary 8 :=
  ⟨"FunctionFlags",
    [("NONE", 0), ("PARAMETER_DECORATOR", 1), ("OUTPUT_DECORATOR", 2), ("RESOURCE_DECORATOR", 4),
      ("ANY_DECORATOR", 7)]⟩

/-- Which kinds of declarations something may decorate. -/
abbrev FunctionFlags := FlagSet functionVocabulary

namespace FunctionFlags

/-- May decorate parameters. -/
def onParameters : FunctionFlags := ⟨1⟩

/-- May decorate outputs. -/
def onOutputs : FunctionFlags := ⟨2⟩

/-- May decorate resources. -/
def onResources : FunctionFlags := ⟨4⟩

/-- May decorate any declaration. -/
def onAny : FunctionFlags := ⟨7⟩

/-- Whether the flags allow to decorate declarations of the kind. -/
def allows (flags : FunctionFlags) : Syntax.DeclarationKind → Bool
  | .parameter => flags.contains onParameters
  | .output => flags.contains onOutputs
  | .resource => flags.contains onResources

end FunctionFlags

/-- A parameter of a signature. -/
structure Parameter where
  name : String
  type : Ty
  description : String
  required : Bool

/-- How something is called. -/
structure Signature where
  name : String
  description : String := ""
  returns : Ty := .any
  parameters : List Parameter := []
  flags : FunctionFlags := .none

namespace Signature

/-- The number of arguments that must be given. -/
def minimumArguments (s : Signature) : Nat := s.parameters.countP Parameter.required

/-- The number of arguments that can be given. -/
def maximumArguments (s : Signature) : Nat := s.parameters.length

/-- The signature with a further parameter. -/
def withParameter (s : Signature) (p : Parameter) : Signature :=
  { s with parameters := s.parameters ++ [p] }

/-- A parameter with its type; a question mark says that it may be left out. -/
def parameterText (p : Parameter) : String :=
  p.name ++ (if p.required then "" else "?") ++ ": " ++ p.type.name

/-- The signature with its parameters and return type. -/
def text (s : Signature) : String :=
  s.name ++ "(" ++ ", ".intercalate (s.parameters.map parameterText) ++ "): " ++ s.returns.name

end Signature

end ResourceLang
