import ResourceLang.Error
import ResourceLang.Reference.Basic

/-!
# The grammar of references — reading a reference from text

A reference is written as a namespace, type segments each after a slash, an at sign and a version. The
namespace starts with a letter or digit and has only letters, digits and dots; a segment has letters,
digits and hyphens; a version is a date in digits, with a tag of letters and digits after a further hyphen
if there is one. Letters and digits are those of ASCII.

No part has a slash or an at sign in it, so cutting the text at these signs finds the parts.
-/

namespace ResourceLang.Reference

/-- Cuts a text at each `sign`: the piece before the first one, and the pieces after each. -/
def pieces (sign : Char) : List Char → List Char × List (List Char)
  | [] => ([], [])
  | c :: cs =>
    let (first, others) := pieces sign cs
    if c = sign then ([], first :: others) else (c :: first, others)

/-- Letters, digits and dots, with a letter or digit first. -/
def isNamespace : List Char → Bool
  | [] => false
  | c :: cs => c.isAlphanum && cs.all fun d => d.isAlphanum || d == '.'

/-- At least one letter, digit or hyphen, and nothing else. -/
def isSegment (cs : List Char) : Bool := !cs.isEmpty && cs.all fun c => c.isAlphanum || c == '-'

/-- Four, two and two digits with hyphens between. -/
def isDate : List Char → Bool
  | [y₁, y₂, y₃, y₄, s₁, m₁, m₂, s₂, d₁, d₂] =>
    [y₁, y₂, y₃, y₄, m₁, m₂, d₁, d₂].all Char.isDigit && s₁ == '-' && s₂ == '-'
  | _ => false

/-- Nothing, or a hyphen and at least one letter or digit. -/
def isTag : List Char → Bool
  | [] => true
  | c :: cs => c == '-' && !cs.isEmpty && cs.all Char.isAlphanum

/-- A date and, if there is one, a tag. -/
def isVersion (cs : List Char) : Bool := isDate (cs.take 10) && isTag (cs.drop 10)

/-- The reference that a text spells, if it spells one. -/
def parse? (text : String) : Option Reference :=
  match pieces '@' text.toList with
  | (path, [version]) =>
    match pieces '/' path with
    | (ns, segment :: segments) =>
      if isNamespace ns && (segment :: segments).all isSegment && isVersion version then
        some ⟨String.ofList ns, (segment :: segments).map String.ofList, String.ofList version, by simp⟩
      else none
    | _ => none
  | _ => none

/-- The reference that a text spells, or an error that carries the text. -/
def parse (text : String) : Except Error Reference :=
  match parse? text with
  | some reference => .ok reference
  | none => .error (.ofCause (.invalidReference text))

end ResourceLang.Reference
