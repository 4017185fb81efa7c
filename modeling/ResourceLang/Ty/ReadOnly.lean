import ResourceLang.Ty.Construction

/-!
# Read-only views — what can be done with a resource that exists already

A declaration that refers to an existing resource cannot set its properties, except those that say which
resource is meant. The read-only view of the type of a body marks all other properties read-only and no
longer required; it does not look into the types of properties. Object types with a discriminator are
converted member by member and built anew.
-/

namespace ResourceLang

/-- The properties that can be assigned even on an existing resource. -/
def writableOnExisting : List String := ["name", "scope"]

/-- The read-only view of a property kept under `key`. -/
def Property.readOnly (key : String) (p : Property) : Property :=
  if key ∈ writableOnExisting then p else { p with flags := p.flags.toReadOnly }

/-- The read-only view of an object type. -/
def ObjectTy.readOnly (o : ObjectTy) : ObjectTy :=
  { o with
    properties := o.properties.map Property.readOnly
    additionalFlags := o.additionalFlags.toReadOnly }

/-- The read-only view of an object type with a discriminator; an error without a position if the
    converted members do not fit together. -/
def DiscriminatedTy.readOnly (d : DiscriminatedTy) : Ty :=
  match ofMembers d.name d.validation d.discriminator (d.members.values.map ObjectTy.readOnly) with
  | .ok converted => .discriminated converted
  | .error e => .error ⟨Span.nil, .malformedType e.message⟩

/-- The read-only view of the type of a resource body; types that are not objects stay as they are. -/
def Ty.readOnly : Ty → Ty
  | .object o => .object o.readOnly
  | .discriminated d => d.readOnly
  | t => t

end ResourceLang
