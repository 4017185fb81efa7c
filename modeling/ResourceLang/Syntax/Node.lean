import ResourceLang.Syntax.Token

/-!
# Nodes — the syntax tree of expressions and parts of declarations

A `Node` is one of fifteen kinds; the compound ones hold further nodes, tokens and the values decoded from
them. Any combination of parts is a tree: which ones the grammar produces is decided where trees are built
(`Shape`), so a tree can also hold what a parser would never produce.
-/

namespace ResourceLang.Syntax

/-- A name. -/
structure Identifier where
  token : Token
deriving DecidableEq

/-- The text of a name. -/
def Identifier.name (i : Identifier) : String := i.token.text

/-- The name of a type in a parameter or output declaration. -/
structure TypeName where
  token : Token
deriving DecidableEq

/-- The text of a type name. -/
def TypeName.name (t : TypeName) : String := t.token.text

/-- A number and its decoded value. -/
structure IntegerLiteral where
  token : Token
  value : UInt64
deriving DecidableEq

/-- `true` or `false`. -/
structure BooleanLiteral where
  token : Token
deriving DecidableEq

/-- The value that a boolean literal spells. -/
def BooleanLiteral.value (b : BooleanLiteral) : Bool := b.token.kind == .trueKeyword

/-- `null`. -/
structure NullLiteral where
  token : Token
deriving DecidableEq

/-- A use of a declaration by its name. -/
structure VariableAccess where
  name : Identifier
deriving DecidableEq

mutual

/-- A node of the syntax tree. -/
inductive Node where
  | token (token : Token)
  | identifier (name : Identifier)
  | string (literal : StringLiteral)
  | typeName (name : TypeName)
  | integer (literal : IntegerLiteral)
  | boolean (literal : BooleanLiteral)
  | null (literal : NullLiteral)
  | array (literal : ArrayLiteral)
  | object (literal : ObjectLiteral)
  | call (call : Call)
  | access (access : VariableAccess)
  | condition (condition : Condition)
  | defaultValue (value : DefaultValue)
  | decorator (use : DecoratorUse)
  | skipped (skipped : SkippedText)

/-- A string: its pieces, the expressions between them, and the decoded text of each piece. -/
structure StringLiteral where
  tokens : List Token
  expressions : List Node
  values : List String

/-- Items between square brackets. -/
structure ArrayLiteral where
  opening : Token
  items : List Node
  closing : Token

/-- A key, a colon and a value inside an object. -/
structure PropertyAssignment where
  key : Node
  colon : Token
  value : Node

/-- Properties between braces. -/
structure ObjectLiteral where
  opening : Token
  properties : List PropertyAssignment
  closing : Token

/-- An argument of a call, with the comma after it if there is one. -/
structure Argument where
  expression : Node
  comma : Option Token

/-- A name and arguments between parentheses. -/
structure Call where
  name : Identifier
  opening : Token
  arguments : List Argument
  closing : Token

/-- The condition under which a resource is deployed. -/
structure Condition where
  keyword : Token
  condition : Node

/-- The value that a parameter has if none is given. -/
structure DefaultValue where
  assignment : Token
  value : Node

/-- A decorator applied to the declaration that follows. -/
structure DecoratorUse where
  sign : Token
  call : Call

/-- Input that was passed over, with the region it covers. -/
structure SkippedText where
  span : Span
  elements : List Node

end

/-- The kinds of nodes. -/
inductive NodeKind where
  | token
  | identifier
  | string
  | typeName
  | integer
  | boolean
  | null
  | array
  | object
  | call
  | access
  | condition
  | defaultValue
  | decorator
  | skipped
deriving DecidableEq

/-- How a message names a kind of node. -/
def NodeKind.name : NodeKind → String
  | token => "Token"
  | identifier => "Identifier"
  | string => "String"
  | typeName => "Type"
  | integer => "IntegerLiteral"
  | boolean => "BooleanLiteral"
  | null => "NullLiteral"
  | array => "Array"
  | object => "Object"
  | call => "FunctionCall"
  | access => "VariableAccess"
  | condition => "IfCondition"
  | defaultValue => "ParameterDefaultValue"
  | decorator => "Decorator"
  | skipped => "SkippedTrivia"

namespace Node

/-- The kind of a node. -/
def kind : Node → NodeKind
  | token _ => .token
  | identifier _ => .identifier
  | string _ => .string
  | typeName _ => .typeName
  | integer _ => .integer
  | boolean _ => .boolean
  | null _ => .null
  | array _ => .array
  | object _ => .object
  | call _ => .call
  | access _ => .access
  | condition _ => .condition
  | defaultValue _ => .defaultValue
  | decorator _ => .decorator
  | skipped _ => .skipped

/-- The token, of a bare token. -/
def asToken? : Node → Option Token
  | token t => some t
  | _ => none

/-- The string, of a string node. -/
def asString? : Node → Option StringLiteral
  | string s => some s
  | _ => none

/-- The type name, of a type node. -/
def asTypeName? : Node → Option TypeName
  | typeName t => some t
  | _ => none

/-- The object, of an object node. -/
def asObject? : Node → Option ObjectLiteral
  | object o => some o
  | _ => none

/-- The decorator, of a decorator node. -/
def asDecorator? : Node → Option DecoratorUse
  | decorator d => some d
  | _ => none

/-- Whether the node is input that was passed over. -/
def isSkipped : Node → Bool
  | skipped _ => true
  | _ => false

end Node

/-! ## What the compound nodes say -/

namespace StringLiteral

/-- Whether expressions are embedded in the string. -/
def isInterpolated (s : StringLiteral) : Bool := !s.expressions.isEmpty

/-- The text of a string without embedded expressions. -/
def literal? (s : StringLiteral) : Option String :=
  if s.isInterpolated then none else s.values.head?

end StringLiteral

/-- The text of a key that is a name or a plain string. -/
def PropertyAssignment.keyText? (p : PropertyAssignment) : Option String :=
  match p.key with
  | .identifier i => some i.name
  | .string s => s.literal?
  | _ => none

/-- The first property with the given key. -/
def ObjectLiteral.property? (o : ObjectLiteral) (key : String) : Option PropertyAssignment :=
  o.properties.find? fun p => p.keyText? == some key

namespace DecoratorUse

/-- The name of the applied decorator. -/
def name (d : DecoratorUse) : String := d.call.name.name

/-- The arguments in source order. -/
def arguments (d : DecoratorUse) : List Argument := d.call.arguments

/-- The application with its arguments counted instead of written out. -/
def text (d : DecoratorUse) : String :=
  "@" ++ d.name ++ "(" ++ toString d.arguments.length ++ " args)"

end DecoratorUse

end ResourceLang.Syntax
