import ResourceLang.Ty.Equality

/-!
# Unions — one of several types

The union of some types has their alternatives as members: a type that is a union gives its members, any
other type gives itself. Of equal alternatives the first one stays. If one of the types is `any` so is the
union, and if one alternative is left it stands for itself.
-/

namespace ResourceLang.Ty

/-- The members of a union, and any other type alone. -/
def alternatives : Ty → List Ty
  | union members => members
  | t => [t]

/-- The type made of the given alternatives: a single one stands for itself. -/
def ofAlternatives : List Ty → Ty
  | [t] => t
  | members => union members

/-- The union of some types. -/
def unionOf (types : List Ty) : Ty :=
  if types.any isAny then any else ofAlternatives (types.flatMap alternatives).eraseDups

end ResourceLang.Ty
