import ResourceLang.Error
import ResourceLang.Ty.Basic

/-!
# Construction of object types — from lists of properties and members

An object type is built from a list of properties with different names. An object type with a discriminator
is built from a list of object types, each of which declares the discriminator as a single text; it is kept
under that text, and the members stand in ascending order of their keys. The first property or member that
does not fit is the error.
-/

namespace ResourceLang

/-- Adds properties under their names, as long as the names are new. -/
def collectProperties (object : String) :
    Keyed String Property → List Property → Except Error (Keyed String Property)
  | seen, [] => .ok seen
  | seen, p :: ps =>
    if seen.contains p.name then .error (.ofCause (.duplicateProperty object p.name))
    else collectProperties object (seen.insert p.name p) ps

/-- An object type from its properties in order. -/
def ObjectTy.ofProperties (name : String) (validation : ValidationFlags)
    (properties : List Property) (additional : Option Ty) (additionalFlags : PropertyFlags) :
    Except Error ObjectTy := do
  let properties ← collectProperties name .empty properties
  pure ⟨name, validation, properties, additional, additionalFlags⟩

/-- The single text that the object declares for its property `discriminator`. -/
def ObjectTy.discriminatorValue? (o : ObjectTy) (discriminator : String) : Option String :=
  match o.property? discriminator with
  | some ⟨_, .literal value, _, _⟩ => some value
  | _ => none

/-- Adds members under their discriminator values, as long as the values are new. -/
def collectMembers (union discriminator : String) :
    Keyed String ObjectTy → List ObjectTy → Except Error (Keyed String ObjectTy)
  | seen, [] => .ok seen
  | seen, m :: ms =>
    match m.discriminatorValue? discriminator with
    | none => .error (.ofCause (.missingDiscriminator m.name discriminator))
    | some key =>
      if seen.contains key then .error (.ofCause (.duplicateMember union key))
      else collectMembers union discriminator (seen.insertAscending key m) ms

/-- An object type with a discriminator from its members. -/
def DiscriminatedTy.ofMembers (name : String) (validation : ValidationFlags)
    (discriminator : String) (members : List ObjectTy) : Except Error DiscriminatedTy := do
  let members ← collectMembers name discriminator .empty members
  pure ⟨name, validation, discriminator, members⟩

/-- An object type with members under any keys, in ascending order of the keys. -/
def DiscriminatedTy.ofKeyedMembers (name : String) (validation : ValidationFlags)
    (discriminator : String) (members : List (String × ObjectTy)) : DiscriminatedTy :=
  ⟨name, validation, discriminator, Keyed.ascending members⟩

/-! ## Drafts -/

/-- An object type in the making: closed and checked as usual unless it is told otherwise. -/
structure ObjectDraft where
  name : String
  validation : ValidationFlags := .none
  properties : List Property := []
  additional : Option Ty := none
  additionalFlags : PropertyFlags := .none

namespace ObjectDraft

/-- The draft with another property at the end. -/
def withProperty (draft : ObjectDraft) (property : Property) : ObjectDraft :=
  { draft with properties := draft.properties ++ [property] }

/-- The draft with a type for all other properties. -/
def withAdditional (draft : ObjectDraft) (type : Ty) (flags : PropertyFlags) : ObjectDraft :=
  { draft with additional := some type, additionalFlags := flags }

/-- The draft with other validation flags. -/
def withValidation (draft : ObjectDraft) (flags : ValidationFlags) : ObjectDraft :=
  { draft with validation := flags }

/-- The object type, if its properties have different names. -/
def build (draft : ObjectDraft) : Except Error ObjectTy :=
  ObjectTy.ofProperties draft.name draft.validation draft.properties draft.additional
    draft.additionalFlags

end ObjectDraft

end ResourceLang
