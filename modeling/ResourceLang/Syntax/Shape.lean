import ResourceLang.Syntax.Node
import ResourceLang.Text.Quoted

/-!
# Shape — building nodes that have the shape of the grammar

The functions named `ofParts` build a node from its parts and refuse parts that the grammar never puts
together: a token of another kind, a keyword spelled differently, a node where another kind belongs. Parts
are checked in the order in which they are given, and the first that does not fit is the answer.

* **`StringLiteral.checkPieces`** — the kinds of the tokens of a string, one token or left, middle and
  right pieces.
-/

namespace ResourceLang.Syntax

/-- A part that does not fit where it was put. -/
inductive ShapeFault where
  /-- The token in `slot` is not the identifier `keyword`. -/
  | keyword (slot keyword : String) (found : Token)
  /-- The token in `slot` has another kind than the expected one. -/
  | tokenKind (slot : String) (expected found : TokenKind)
  /-- The node in `slot` has none of the allowed kinds. -/
  | nodeKind (slot : String) (allowed : List NodeKind) (found : NodeKind)
  /-- The token of a boolean literal is neither of the two keywords. -/
  | notBoolean (found : TokenKind)
  /-- A string has not exactly one token more than expressions. -/
  | pieceCount (tokens expressions : Nat)
  /-- A string has not exactly one decoded text per token. -/
  | valueCount
  /-- An interpolated string to be laid out has not exactly one segment more than variables. -/
  | segmentCount
deriving DecidableEq

/-- The wording of a shape fault. -/
def ShapeFault.message : ShapeFault → String
  | keyword slot word found =>
    slot ++ " must be the keyword '" ++ word ++ "', got " ++ found.kind.name ++ " "
      ++ Text.quoted found.text
  | tokenKind slot expected found =>
    slot ++ " must be a " ++ expected.name ++ " token, got " ++ found.name
  | nodeKind slot allowed found =>
    slot ++ " must be one of [" ++ ", ".intercalate (allowed.map NodeKind.name) ++ "], got "
      ++ found.name
  | notBoolean found => "literal must be true or false, got " ++ found.name
  | pieceCount tokens expressions =>
    "string must have one more token than expressions, got " ++ toString tokens ++ " tokens and "
      ++ toString expressions ++ " expressions"
  | valueCount => "string must have one segment value per token"
  | segmentCount => "interpolated string needs one more segment than variables"

/-! ## Single requirements -/

/-- The token is the identifier that spells `keyword`. -/
def requireKeyword (slot keyword : String) (token : Token) : Except ShapeFault Unit :=
  if token.isKeyword keyword then .ok () else .error (.keyword slot keyword token)

/-- The token has the expected kind. -/
def requireToken (slot : String) (expected : TokenKind) (token : Token) : Except ShapeFault Unit :=
  if token.kind = expected then .ok () else .error (.tokenKind slot expected token.kind)

/-- The node has one of the allowed kinds. -/
def requireNode (slot : String) (allowed : List NodeKind) (node : Node) : Except ShapeFault Unit :=
  if node.kind ∈ allowed then .ok () else .error (.nodeKind slot allowed node.kind)

/-- The requirement on a part that may be left out. -/
def requireIfGiven {α : Type} (check : α → Except ShapeFault Unit) :
    Option α → Except ShapeFault Unit
  | none => .ok ()
  | some part => check part

/-! ## Leaves -/

/-- A name from its identifier token. -/
def Identifier.ofToken (token : Token) : Except ShapeFault Identifier := do
  requireToken "token" .identifier token
  pure ⟨token⟩

/-- A type name from its identifier token. -/
def TypeName.ofToken (token : Token) : Except ShapeFault TypeName := do
  requireToken "identifier" .identifier token
  pure ⟨token⟩

/-- A number from its token and value. -/
def IntegerLiteral.ofParts (token : Token) (value : UInt64) : Except ShapeFault IntegerLiteral := do
  requireToken "literal" .integer token
  pure ⟨token, value⟩

/-- A boolean literal from one of the two keywords. -/
def BooleanLiteral.ofToken (token : Token) : Except ShapeFault BooleanLiteral :=
  if token.kind = .trueKeyword ∨ token.kind = .falseKeyword then .ok ⟨token⟩
  else .error (.notBoolean token.kind)

/-- The literal `null` from its keyword. -/
def NullLiteral.ofToken (token : Token) : Except ShapeFault NullLiteral := do
  requireToken "null_keyword" .nullKeyword token
  pure ⟨token⟩

/-! ## Strings -/

namespace StringLiteral

/-- After a left piece: middle pieces up to the right piece, which is the last token. -/
def checkLaterPieces : List Token → Except ShapeFault Unit
  | [] => .ok ()
  | [last] => requireToken "string_tokens" .rightPiece last
  | middle :: later => do
    requireToken "string_tokens" .middlePiece middle
    checkLaterPieces later

/-- A whole string alone, or a left piece and the pieces after it. -/
def checkPieces : List Token → Except ShapeFault Unit
  | [] => .ok ()
  | [whole] => requireToken "string_tokens" .wholeString whole
  | left :: later => do
    requireToken "string_tokens" .leftPiece left
    checkLaterPieces later

/-- A string from its pieces, the expressions between them and the decoded text of each piece. -/
def ofParts (tokens : List Token) (expressions : List Node) (values : List String) :
    Except ShapeFault StringLiteral := do
  if tokens.length ≠ expressions.length + 1 then
    throw (.pieceCount tokens.length expressions.length)
  if tokens.length ≠ values.length then
    throw .valueCount
  checkPieces tokens
  pure ⟨tokens, expressions, values⟩

end StringLiteral

/-! ## Compound nodes -/

/-- Items between square brackets. -/
def ArrayLiteral.ofParts (opening : Token) (items : List Node) (closing : Token) :
    Except ShapeFault ArrayLiteral := do
  requireToken "open_bracket" .leftSquare opening
  requireToken "close_bracket" .rightSquare closing
  pure ⟨opening, items, closing⟩

/-- A property; the key is a name, a string, or input that was passed over. -/
def PropertyAssignment.ofParts (key : Node) (colon : Token) (value : Node) :
    Except ShapeFault PropertyAssignment := do
  requireNode "key" [.identifier, .string, .skipped] key
  requireToken "colon" .colon colon
  pure ⟨key, colon, value⟩

/-- Properties between braces. -/
def ObjectLiteral.ofParts (opening : Token) (properties : List PropertyAssignment)
    (closing : Token) : Except ShapeFault ObjectLiteral := do
  requireToken "open_brace" .leftBrace opening
  requireToken "close_brace" .rightBrace closing
  pure ⟨opening, properties, closing⟩

/-- An argument and the comma after it. -/
def Argument.ofParts (expression : Node) (comma : Option Token) : Except ShapeFault Argument := do
  requireIfGiven (requireToken "comma" .comma) comma
  pure ⟨expression, comma⟩

/-- A name and arguments between parentheses. -/
def Call.ofParts (name : Identifier) (opening : Token) (arguments : List Argument)
    (closing : Token) : Except ShapeFault Call := do
  requireToken "open_paren" .leftParen opening
  requireToken "close_paren" .rightParen closing
  pure ⟨name, opening, arguments, closing⟩

/-- A condition after its keyword. -/
def Condition.ofParts (keyword : Token) (condition : Node) : Except ShapeFault Condition := do
  requireKeyword "keyword" "if" keyword
  pure ⟨keyword, condition⟩

/-- A default value after its assignment sign. -/
def DefaultValue.ofParts (assignment : Token) (value : Node) : Except ShapeFault DefaultValue := do
  requireToken "assignment" .assignment assignment
  pure ⟨assignment, value⟩

/-- A decorator after its sign. -/
def DecoratorUse.ofParts (sign : Token) (call : Call) : Except ShapeFault DecoratorUse := do
  requireToken "at" .atSign sign
  pure ⟨sign, call⟩

end ResourceLang.Syntax
