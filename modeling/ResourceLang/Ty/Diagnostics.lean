import ResourceLang.Ty.Basic

/-!
# Diagnostics of types — the errors that a type contains

An error may stand at any depth of a type. Its diagnostics are collected from left to right: properties in
the order in which they are declared and then the type of all others, members in the order of their keys,
members of a union in order, and the body of a resource.
-/

namespace ResourceLang

mutual

/-- The diagnostics of all errors in the type, from left to right. -/
def Ty.diagnostics : Ty → List Diagnostic
  | .any => []
  | .error d => [d]
  | .primitive _ _ => []
  | .literal _ => []
  | .array t => t.diagnostics
  | .object o => o.diagnostics
  | .discriminated ⟨_, _, _, ⟨members⟩⟩ => diagnosticsOfMembers members
  | .union ts => diagnosticsOfTypes ts
  | .resource ⟨_, body⟩ => body.diagnostics
termination_by structural t => t

/-- The diagnostics in the properties, and then in the type of all others. -/
def ObjectTy.diagnostics : ObjectTy → List Diagnostic
  | ⟨_, _, ⟨properties⟩, additional, _⟩ =>
    diagnosticsOfProperties properties ++ diagnosticsIfGiven additional
termination_by structural o => o

/-- The diagnostics of a type that may be left out. -/
def diagnosticsIfGiven : Option Ty → List Diagnostic
  | none => []
  | some t => t.diagnostics
termination_by structural t => t

/-- The diagnostics of a list of types, in order. -/
def diagnosticsOfTypes : List Ty → List Diagnostic
  | [] => []
  | t :: ts => t.diagnostics ++ diagnosticsOfTypes ts
termination_by structural ts => ts

/-- The diagnostics of the types of properties, in order. -/
def diagnosticsOfProperties : List (String × Property) → List Diagnostic
  | [] => []
  | (_, ⟨_, t, _, _⟩) :: ps => t.diagnostics ++ diagnosticsOfProperties ps
termination_by structural ps => ps

/-- The diagnostics of members, in order. -/
def diagnosticsOfMembers : List (String × ObjectTy) → List Diagnostic
  | [] => []
  | (_, o) :: ms => o.diagnostics ++ diagnosticsOfMembers ms
termination_by structural ms => ms

end

end ResourceLang
