import ResourceLang.Span

/-!
# Tokens — the smallest pieces of source text

A token has a kind, the text it covers and its span. Keywords are identifiers: the text decides which
keyword an identifier is. A string without interpolation is one token; an interpolated one is a left piece,
middle pieces and a right piece.
-/

namespace ResourceLang.Syntax

/-- The kinds of tokens. -/
inductive TokenKind where
  | leftBrace
  | rightBrace
  | leftSquare
  | rightSquare
  | leftParen
  | rightParen
  | atSign
  | assignment
  | colon
  | comma
  | dot
  | identifier
  | integer
  | wholeString
  | leftPiece
  | middlePiece
  | rightPiece
  | trueKeyword
  | falseKeyword
  | nullKeyword
  | newLine
  | endOfInput
  | unrecognized
deriving DecidableEq

namespace TokenKind

/-- How a message names a kind of token. -/
def name : TokenKind → String
  | leftBrace => "'\x7b'"
  | rightBrace => "'\x7d'"
  | leftSquare => "'['"
  | rightSquare => "']'"
  | leftParen => "'('"
  | rightParen => "')'"
  | atSign => "'@'"
  | assignment => "'='"
  | colon => "':'"
  | comma => "','"
  | dot => "'.'"
  | identifier => "identifier"
  | integer => "integer"
  | wholeString => "string"
  | leftPiece => "string"
  | middlePiece => "string"
  | rightPiece => "string"
  | trueKeyword => "true"
  | falseKeyword => "false"
  | nullKeyword => "null"
  | newLine => "newline"
  | endOfInput => "end of input"
  | unrecognized => "unrecognized"

/-- Whether the token is a string or a piece of one. -/
def isStringSegment : TokenKind → Bool
  | wholeString => true
  | leftPiece => true
  | middlePiece => true
  | rightPiece => true
  | _ => false

end TokenKind

/-- A token of the source text. -/
structure Token where
  kind : TokenKind
  text : String
  span : Span
deriving DecidableEq

/-- Whether the token is the identifier that spells `keyword`. -/
def Token.isKeyword (t : Token) (keyword : String) : Bool :=
  t.kind == .identifier && t.text == keyword

end ResourceLang.Syntax
