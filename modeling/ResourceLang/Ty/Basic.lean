import ResourceLang.Diagnostic
import ResourceLang.Keyed
import ResourceLang.Reference.Basic
import ResourceLang.Ty.Flags

/-!
# Types — what declarations resolve to

A type is `any`, an error with the diagnostic that explains it, a primitive, a single text, an array, an
object with named properties, an object whose shape a discriminator selects, a union, or a resource. Types
are trees: objects hold types in their properties, and so on to any depth.

Nothing here forbids a malformed type, such as a union of one member or a member kept under a key that is
not its discriminator; the functions that build types from parts are in `Ty.Construction` and `Ty.Union`.
-/

namespace ResourceLang

/-- The kinds of primitive types. -/
inductive PrimitiveKind where
  | string
  | int
  | bool
  | null
deriving DecidableEq

/-- The keyword of a primitive type. -/
def PrimitiveKind.keyword : PrimitiveKind → String
  | string => "string"
  | int => "int"
  | bool => "bool"
  | null => "null"

mutual

/-- A type. -/
inductive Ty where
  /-- Accepts everything and is accepted by everything. -/
  | any
  /-- There is no type, for the reason given. -/
  | error (diagnostic : Diagnostic)
  /-- Texts, numbers, truth values, or nothing. -/
  | primitive (kind : PrimitiveKind) (validation : ValidationFlags)
  /-- A single text. -/
  | literal (value : String)
  /-- Lists of items of one type. -/
  | array (item : Ty)
  /-- Objects with named properties. -/
  | object (shape : ObjectTy)
  /-- Objects with one shape for each value of a discriminator. -/
  | discriminated (shape : DiscriminatedTy)
  /-- One of several types. -/
  | union (members : List Ty)
  /-- A deployable resource. -/
  | resource (resource : ResourceTy)

/-- A named property of an object type. -/
structure Property where
  name : String
  type : Ty
  flags : PropertyFlags
  description : Option String

/-- An object type: its properties by name, and the type of all others if others are allowed. -/
structure ObjectTy where
  name : String
  validation : ValidationFlags
  properties : Keyed String Property
  additional : Option Ty
  additionalFlags : PropertyFlags

/-- An object type with one shape, its member, for each value of the property `discriminator`. -/
structure DiscriminatedTy where
  name : String
  validation : ValidationFlags
  discriminator : String
  members : Keyed String ObjectTy

/-- The type of a resource: what it is called and the type of its body. -/
structure ResourceTy where
  reference : Reference
  body : Ty

end

namespace Ty

instance : Inhabited Ty := ⟨any⟩

/-- Texts, checked as usual. -/
def string : Ty := primitive .string .none

/-- Numbers, checked as usual. -/
def int : Ty := primitive .int .none

/-- Truth values, checked as usual. -/
def bool : Ty := primitive .bool .none

/-- The type of nothing, checked as usual. -/
def null : Ty := primitive .null .none

/-- Lists of anything. -/
def anyArray : Ty := array any

/-- Objects with any properties. -/
def anyObject : Ty := object ⟨"object", .none, .empty, some any, .none⟩

/-- The union without members, which nothing belongs to. -/
def never : Ty := union []

/-- Whether the type is `any`. -/
def isAny : Ty → Bool
  | any => true
  | _ => false

/-- Whether there is no type. -/
def isError : Ty → Bool
  | error _ => true
  | _ => false

/-- The reason why there is no type. -/
def diagnostic? : Ty → Option Diagnostic
  | error d => some d
  | _ => none

/-- The object type, of an object. -/
def asObject? : Ty → Option ObjectTy
  | object o => some o
  | _ => none

/-- The object type with a discriminator, of such an object. -/
def asDiscriminated? : Ty → Option DiscriminatedTy
  | discriminated d => some d
  | _ => none

/-- The resource type, of a resource. -/
def asResource? : Ty → Option ResourceTy
  | resource r => some r
  | _ => none

/-- Whether the type is the union without members. -/
def isNever : Ty → Bool
  | union [] => true
  | _ => false

/-! ## Flags and positions -/

/-- How strictly assignments to the type are checked. -/
def validation : Ty → ValidationFlags
  | primitive _ v => v
  | object o => o.validation
  | discriminated d => d.validation
  | _ => .none

/-- The type with further validation flags, if it carries such flags at all. -/
def withValidation (flags : ValidationFlags) : Ty → Ty
  | primitive k v => primitive k (v.insert flags)
  | object o => object { o with validation := o.validation.insert flags }
  | discriminated d => discriminated { d with validation := d.validation.insert flags }
  | t => t

/-- Flags that a type is given one after the other can be given together. -/
theorem withValidation_withValidation (flags flags' : ValidationFlags) (t : Ty) :
    (t.withValidation flags).withValidation flags' = t.withValidation (flags.insert flags') := by
  cases t with
  | primitive kind validation => exact congrArg (primitive kind) (FlagSet.insert_assoc validation flags flags')
  | object o =>
    show object { o with validation := (o.validation.insert flags).insert flags' } = _
    rw [FlagSet.insert_assoc]
    rfl
  | discriminated d =>
    show discriminated { d with validation := (d.validation.insert flags).insert flags' } = _
    rw [FlagSet.insert_assoc]
    rfl
  | _ => rfl

/-- The type; if it is an error without a position, the error moved to `span`. -/
def anchoredAt (span : Span) : Ty → Ty
  | error d => if d.span = Span.nil then error { d with span := span } else error d
  | t => t

end Ty

/-- The property with the given name. -/
def ObjectTy.property? (o : ObjectTy) (name : String) : Option Property := o.properties.get? name

/-- The member under the given discriminator value. -/
def DiscriminatedTy.member? (d : DiscriminatedTy) (key : String) : Option ObjectTy :=
  d.members.get? key

/-- The same resource with another body. -/
def ResourceTy.withBody (r : ResourceTy) (body : Ty) : ResourceTy := { r with body := body }

end ResourceLang
