import ResourceLang.Ty.Equality

/-!
# Acceptance — where a value of one type may be used

A type accepts another if values of the other may stand where it is expected. The test is lenient: `any` and
errors go with everything, so that one error does not cause others, and the shapes of objects are not
compared. A union is accepted if each of its members is, and accepts what some member accepts.

* **`Ty.accepts_union`** — a union is accepted exactly if every member is.
-/

namespace ResourceLang

mutual

/-- Whether `p` holds of the type, or of each member if it is a union. -/
def Ty.allMembers (p : Ty → Bool) : Ty → Bool
  | .union members => allMembersOf p members
  | t => p t
termination_by structural t => t

/-- Whether `p` holds of each type, or of each member of those that are unions. -/
def allMembersOf (p : Ty → Bool) : List Ty → Bool
  | [] => true
  | t :: ts => t.allMembers p && allMembersOf p ts
termination_by structural ts => ts

end

mutual

/-- Whether values of `given`, which is no union, may be used where the type is expected. -/
def Ty.acceptsMember : Ty → Ty → Bool
  | _, .any => true
  | _, .error _ => true
  | .any, _ => true
  | .error _, _ => true
  | .union members, given => anyAcceptsMember members given
  | .primitive kind _, .primitive kind' _ => kind == kind'
  | .primitive kind _, .literal _ => kind == .string
  | .literal value, .literal value' => value == value'
  | .array item, .array item' => item'.allMembers item.acceptsMember
  | .object _, .object _ => true
  | .object _, .discriminated _ => true
  | .discriminated _, .discriminated _ => true
  | .resource ⟨reference, _⟩, .resource ⟨reference', _⟩ => reference == reference'
  | _, _ => false
termination_by structural t => t

/-- Whether some type of the list accepts `given`, which is no union. -/
def anyAcceptsMember : List Ty → Ty → Bool
  | [], _ => false
  | t :: ts, given => t.acceptsMember given || anyAcceptsMember ts given
termination_by structural ts => ts

end

/-- Whether values of type `given` may be used where `expected` is expected. -/
def Ty.accepts (expected given : Ty) : Bool := given.allMembers expected.acceptsMember

theorem Ty.accepts_union (expected : Ty) (members : List Ty) :
    expected.accepts (.union members) = members.all expected.accepts := by
  show allMembersOf expected.acceptsMember members = members.all expected.accepts
  induction members with
  | nil => rfl
  | cons t ts ih => rw [allMembersOf, ih]; rfl

end ResourceLang
