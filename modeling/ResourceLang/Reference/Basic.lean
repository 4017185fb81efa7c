import ResourceLang.Text.Case

/-!
# References — names of resource types

A reference names a resource schema by a namespace, one or more type segments and a version. Spelling is
kept, but references are compared without regard to the case of the letters `a` to `z`: `==` on references
is that comparison, part by part.

* **`beq_iff_folded_eq`** — equal references are those with equal lowercase parts.
-/

namespace ResourceLang

/-- The name of a resource type. -/
structure Reference where
  ns : String
  types : List String
  version : String
  types_ne_nil : types ≠ []

/-- A reference was to be built without type segments. -/
structure NoTypeSegment where
deriving DecidableEq

/-- The wording of the refusal to build a reference without type segments. -/
def NoTypeSegment.message (_ : NoTypeSegment) : String :=
  "a type reference needs at least one type segment"

namespace Reference

/-- A reference from any texts, of which there must be at least one type segment. -/
def ofParts (ns : String) (types : List String) (version : String) :
    Except NoTypeSegment Reference :=
  if h : types ≠ [] then .ok ⟨ns, types, version, h⟩ else .error ⟨⟩

/-- The namespace and the type segments. -/
def fullName (r : Reference) : String := r.ns ++ "/" ++ "/".intercalate r.types

/-- The reference as written in source text. -/
def text (r : Reference) : String := r.fullName ++ "@" ++ r.version

/-- Whether the type is nested in another one. -/
def isChild (r : Reference) : Bool := 1 < r.types.length

/-- The lowercase text, by which references can be hashed. -/
def canonical (r : Reference) : String := Text.lowered r.text

/-- The parts of the reference in lowercase. -/
def folded (r : Reference) : String × List String × String :=
  (Text.lowered r.ns, r.types.map Text.lowered, Text.lowered r.version)

/-- References are compared part by part, without regard to letter case. -/
instance : BEq Reference := ⟨fun a b => a.folded == b.folded⟩

theorem beq_iff_folded_eq (a b : Reference) : (a == b) = true ↔ a.folded = b.folded :=
  beq_iff_eq (a := a.folded) (b := b.folded)

instance : EquivBEq Reference where
  symm h := (beq_iff_folded_eq _ _).mpr ((beq_iff_folded_eq _ _).mp h).symm
  trans h h' :=
    (beq_iff_folded_eq _ _).mpr (((beq_iff_folded_eq _ _).mp h).trans ((beq_iff_folded_eq _ _).mp h'))
  rfl := (beq_iff_folded_eq _ _).mpr rfl

end Reference

end ResourceLang
