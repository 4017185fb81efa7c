import ResourceLang.Syntax.Shape

/-!
# Layout — laying out trees from scratch

Trees that come from no source text still need spans. A `Layout` lays tokens out one after the other, each
followed by one byte of space, and keeps the offset at which the next one starts; a compound node is laid
out part by part in source order, so that its parts lie within it. A step may refuse the parts it is given;
the offset reached by then stays.
-/

namespace ResourceLang.Syntax

/-- A step that lays something out, from the offset it starts at to the offset it reaches. -/
abbrev Layout (α : Type) := ExceptT ShapeFault (StateM Nat) α

namespace Layout

/-- The outcome of a step begun at `offset`, and the offset it reached. -/
def runAt {α : Type} (step : Layout α) (offset : Nat) : Except ShapeFault α × Nat :=
  StateT.run (ExceptT.run step) offset

/-- A step that lays nothing out and has the given outcome. -/
def ofExcept {α : Type} (outcome : Except ShapeFault α) : Layout α := ExceptT.mk (pure outcome)

/-- A token that covers `text`; the next one starts one byte after its end. -/
def token (kind : TokenKind) (text : String) : Layout Token :=
  ExceptT.mk fun offset =>
    (.ok ⟨kind, text, ⟨offset, text.utf8ByteSize⟩⟩, offset + text.utf8ByteSize + 1)

/-! ## Leaves -/

/-- An identifier that serves as a keyword. -/
def keyword (text : String) : Layout Token := token .identifier text

/-- A line break between leading nodes. -/
def newline : Layout Node := return .token (← token .newLine "\n")

/-- An assignment sign. -/
def assignment : Layout Node := return .token (← token .assignment "=")

/-- A name. -/
def identifier (name : String) : Layout Identifier := do
  ofExcept (Identifier.ofToken (← token .identifier name))

/-- A type name. -/
def typeName (name : String) : Layout Node := do
  return .typeName (← ofExcept (TypeName.ofToken (← token .identifier name)))

/-- A use of a declaration. -/
def access (name : String) : Layout Node := return .access ⟨← identifier name⟩

/-- A number in decimal digits. -/
def integer (value : UInt64) : Layout Node := do
  let token ← token .integer (toString value.toNat)
  return .integer (← ofExcept (IntegerLiteral.ofParts token value))

/-- A boolean literal. -/
def boolean (value : Bool) : Layout Node := do
  let token ← if value then token .trueKeyword "true" else token .falseKeyword "false"
  return .boolean (← ofExcept (BooleanLiteral.ofToken token))

/-- The literal `null`. -/
def null : Layout Node := do
  return .null (← ofExcept (NullLiteral.ofToken (← token .nullKeyword "null")))

/-- Input that was passed over. -/
def skipped (text : String) : Layout Node := do
  let token ← token .unrecognized text
  return .skipped ⟨token.span, [.token token]⟩

/-! ## Strings -/

/-- A string without interpolation. -/
def string (value : String) : Layout Node := do
  let token ← token .wholeString ("'" ++ value ++ "'")
  return .string (← ofExcept (StringLiteral.ofParts [token] [] [value]))

/-- The variables and the segments after them: a middle piece each, and a right piece at the end. -/
def laterPieces : List (String × String) → Layout (List Node × List Token)
  | [] => pure ([], [])
  | (variableName, segment) :: later => do
    let expression ← access variableName
    let piece ←
      if later.isEmpty then token .rightPiece ("\x7d" ++ segment ++ "'")
      else token .middlePiece ("\x7d" ++ segment ++ "$\x7b")
    let (expressions, pieces) ← laterPieces later
    return (expression :: expressions, piece :: pieces)

/-- A string of segments with a variable between any two of them; with one segment, a plain string. -/
def interpolated (segments names : List String) : Layout Node := do
  match segments with
  | [] => throw .segmentCount
  | first :: others =>
    if others.length ≠ names.length then throw .segmentCount
    let piece ←
      if others.isEmpty then token .wholeString ("'" ++ first ++ "'")
      else token .leftPiece ("'" ++ first ++ "$\x7b")
    let (expressions, pieces) ← laterPieces (names.zip others)
    return .string (← ofExcept (StringLiteral.ofParts (piece :: pieces) expressions segments))

/-! ## Compound nodes -/

/-- Items between square brackets. -/
def array (items : Layout (List Node)) : Layout Node := do
  let opening ← token .leftSquare "["
  let items ← items
  let closing ← token .rightSquare "]"
  return .array (← ofExcept (ArrayLiteral.ofParts opening items closing))

/-- A property whose key is a name. -/
def property (key : String) (value : Layout Node) : Layout PropertyAssignment := do
  let key ← identifier key
  let colon ← token .colon ":"
  let value ← value
  ofExcept (PropertyAssignment.ofParts (.identifier key) colon value)

/-- Properties between braces. -/
def object (properties : Layout (List PropertyAssignment)) : Layout Node := do
  let opening ← token .leftBrace "\x7b"
  let properties ← properties
  let closing ← token .rightBrace "\x7d"
  return .object (← ofExcept (ObjectLiteral.ofParts opening properties closing))

/-- Arguments from expressions already laid out: a comma is laid out for each but the last. -/
def separated : List Node → Layout (List Argument)
  | [] => pure []
  | [last] => return [← ofExcept (Argument.ofParts last none)]
  | expression :: later => do
    let comma ← token .comma ","
    let argument ← ofExcept (Argument.ofParts expression (some comma))
    return argument :: (← separated later)

/-- A name and arguments between parentheses; the commas come after the last argument. -/
def call (name : String) (arguments : Layout (List Node)) : Layout Call := do
  let name ← identifier name
  let opening ← token .leftParen "("
  let expressions ← arguments
  let arguments ← separated expressions
  let closing ← token .rightParen ")"
  ofExcept (Call.ofParts name opening arguments closing)

/-- A decorator application. -/
def decorator (name : String) (arguments : Layout (List Node)) : Layout Node := do
  let sign ← token .atSign "@"
  let call ← call name arguments
  return .decorator (← ofExcept (DecoratorUse.ofParts sign call))

end Layout

end ResourceLang.Syntax
