import ResourceLang.FlagSet

/-!
# Flags of types — how properties may be used and types assigned

Every property of an object type carries flags that say how it may be used, and primitive and object types
carry flags that say how strictly assignments to them are checked.

* **`toReadOnly_bit`** — what the read-only view of a property changes: two bits, and no other.
-/

namespace ResourceLang

/-- The flags of a property. -/
def propertyVocabulary : FlagVocabulary 8 :=
  ⟨"TypePropertyFlags",
    [("NONE", 0), ("REQUIRED", 1), ("READ_ONLY", 2), ("WRITE_ONLY", 4), ("DEPLOY_TIME_CONSTANT", 8)]⟩

/-- How a property may be used. -/
abbrev PropertyFlags := FlagSet propertyVocabulary

namespace PropertyFlags

/-- The property must be assigned. -/
def required : PropertyFlags := ⟨1⟩

/-- The property is set by the platform and cannot be assigned. -/
def readOnly : PropertyFlags := ⟨2⟩

/-- The flags of the same property where it can only be read: no longer required, and read-only. -/
def toReadOnly (flags : PropertyFlags) : PropertyFlags := (flags.insert readOnly).remove required

/-- The read-only view clears the first bit, sets the second and keeps every other. -/
theorem toReadOnly_bit (flags : PropertyFlags) (i : Nat) :
    flags.toReadOnly.bits.getLsbD i =
      if i = 0 then false else if i = 1 then true else flags.bits.getLsbD i := by
  show ((flags.bits ||| 2#8) &&& ~~~1#8).getLsbD i = _
  rw [BitVec.getLsbD_and, BitVec.getLsbD_or, BitVec.getLsbD_not]
  match i with
  | 0 => simp
  | 1 => simp
  | 2 | 3 | 4 | 5 | 6 | 7 => simp
  | n + 8 => simp

end PropertyFlags

/-- The flags of a type. -/
def validationVocabulary : FlagVocabulary 8 :=
  ⟨"TypeSymbolValidationFlags",
    [("DEFAULT", 0), ("WARN_ON_TYPE_MISMATCH", 1), ("PREVENT_ASSIGNMENT", 2), ("IS_SECURE", 4)]⟩

/-- How strictly assignments to a type are checked. -/
abbrev ValidationFlags := FlagSet validationVocabulary

/-- Values of the type must not be logged or returned. -/
def ValidationFlags.secure : ValidationFlags := ⟨4⟩

end ResourceLang
