import ResourceLang.Syntax.Equality
import ResourceLang.Syntax.Extent
import ResourceLang.Syntax.Layout

/-!
# Declarations — resources, outputs and parameters

A program is a list of declarations. Each one names what it declares and owns the nodes it is written with,
the decorators and line breaks above it included. A declaration covers the text from its keyword to its
last part; what stands above the keyword is not part of that region.
-/

namespace ResourceLang.Syntax

/-- A declared resource, or a reference to one that exists already. -/
structure ResourceDeclaration where
  leading : List Node
  keyword : Token
  name : Identifier
  type : Node
  existing : Option Token
  assignment : Node
  condition : Option Node
  body : Node
deriving DecidableEq

/-- A declared output. -/
structure OutputDeclaration where
  leading : List Node
  keyword : Token
  name : Identifier
  type : Node
  assignment : Node
  value : Node
deriving DecidableEq

/-- A declared parameter; the modifier is its default value or an object that describes it. -/
structure ParameterDeclaration where
  leading : List Node
  keyword : Token
  name : Identifier
  type : Node
  modifier : Option Node
deriving DecidableEq

/-- A declaration of any kind. -/
inductive Declaration where
  | resource (declaration : ResourceDeclaration)
  | output (declaration : OutputDeclaration)
  | parameter (declaration : ParameterDeclaration)
deriving DecidableEq

/-- The kinds of declarations. -/
inductive DeclarationKind where
  | resource
  | output
  | parameter
deriving DecidableEq

/-- Whether the declaration refers to a resource that exists already. -/
def ResourceDeclaration.isExisting (d : ResourceDeclaration) : Bool := d.existing.isSome

namespace Declaration

/-- The kind of a declaration. -/
def kind : Declaration → DeclarationKind
  | resource _ => .resource
  | output _ => .output
  | parameter _ => .parameter

/-- The declared name. -/
def name : Declaration → Identifier
  | resource d => d.name
  | output d => d.name
  | parameter d => d.name

/-- The nodes above the keyword. -/
def leading : Declaration → List Node
  | resource d => d.leading
  | output d => d.leading
  | parameter d => d.leading

/-- The node that gives the type. -/
def typeNode : Declaration → Node
  | resource d => d.type
  | output d => d.type
  | parameter d => d.type

/-- The decorators in source order. -/
def decorators (d : Declaration) : List DecoratorUse := d.leading.filterMap Node.asDecorator?

/-- The last part: the body, the value, or the modifier if there is one and else the type. -/
def lastPart : Declaration → Node
  | resource d => d.body
  | output d => d.value
  | parameter d => d.modifier.getD d.type

/-- The keyword that starts the declaration. -/
def keyword : Declaration → Token
  | resource d => d.keyword
  | output d => d.keyword
  | parameter d => d.keyword

/-- The region from the keyword to the last part. -/
def span (d : Declaration) : Except Disorder Span := do
  let last ← d.lastPart.span
  Span.between d.keyword.span last

end Declaration

/-! ## Checked construction -/

/-- The nodes above a declaration are decorators and line breaks. -/
def requireLeading : List Node → Except ShapeFault Unit
  | [] => .ok ()
  | node :: rest => do
    requireNode "leading_nodes" [.decorator, .token] node
    requireIfGiven (requireToken "leading_nodes" .newLine) node.asToken?
    requireLeading rest

/-- An assignment is its sign, or input that was passed over. -/
def requireAssignment (node : Node) : Except ShapeFault Unit := do
  requireNode "assignment" [.token, .skipped] node
  requireIfGiven (requireToken "assignment" .assignment) node.asToken?

/-- A resource declaration; the type is a string and the body an object unless they were passed over. -/
def ResourceDeclaration.ofParts (leading : List Node) (keyword : Token) (name : Identifier)
    (type : Node) (existing : Option Token) (assignment : Node) (condition : Option Node)
    (body : Node) : Except ShapeFault ResourceDeclaration := do
  requireLeading leading
  requireKeyword "keyword" "resource" keyword
  requireNode "type_reference" [.string, .skipped] type
  requireIfGiven (requireKeyword "existing_keyword" "existing") existing
  requireAssignment assignment
  requireIfGiven (requireNode "if_condition" [.condition, .skipped]) condition
  requireNode "body" [.object, .skipped] body
  pure ⟨leading, keyword, name, type, existing, assignment, condition, body⟩

/-- An output declaration; the type is a type name unless it was passed over. -/
def OutputDeclaration.ofParts (leading : List Node) (keyword : Token) (name : Identifier)
    (type assignment value : Node) : Except ShapeFault OutputDeclaration := do
  requireLeading leading
  requireKeyword "keyword" "output" keyword
  requireNode "output_type" [.typeName, .skipped] type
  requireAssignment assignment
  pure ⟨leading, keyword, name, type, assignment, value⟩

/-- A parameter declaration; the type is a type name unless it was passed over. -/
def ParameterDeclaration.ofParts (leading : List Node) (keyword : Token) (name : Identifier)
    (type : Node) (modifier : Option Node) : Except ShapeFault ParameterDeclaration := do
  requireLeading leading
  requireKeyword "keyword" "param" keyword
  requireNode "parameter_type" [.typeName, .skipped] type
  requireIfGiven (requireNode "modifier" [.defaultValue, .object, .skipped]) modifier
  pure ⟨leading, keyword, name, type, modifier⟩

/-! ## Laying declarations out -/

namespace Layout

/-- A resource declaration below nodes already laid out. -/
def resource (leading : List Node) (name : String) (type : Layout Node) (existing : Bool)
    (body : Layout Node) : Layout ResourceDeclaration := do
  let start ← keyword "resource"
  let name ← identifier name
  let type ← type
  let existing ← if existing then some <$> keyword "existing" else pure none
  let sign ← assignment
  let body ← body
  ofExcept (ResourceDeclaration.ofParts leading start name type existing sign none body)

/-- An output declaration below nodes already laid out. -/
def output (leading : List Node) (name type : String) (value : Layout Node) :
    Layout OutputDeclaration := do
  let start ← keyword "output"
  let name ← identifier name
  let type ← typeName type
  let sign ← assignment
  let value ← value
  ofExcept (OutputDeclaration.ofParts leading start name type sign value)

/-- A parameter declaration without a default value, below nodes already laid out. -/
def parameter (leading : List Node) (name type : String) : Layout ParameterDeclaration := do
  let start ← keyword "param"
  let name ← identifier name
  let type ← typeName type
  ofExcept (ParameterDeclaration.ofParts leading start name type none)

/-- A parameter declaration with a default value, below nodes already laid out. -/
def parameterWithDefault (leading : List Node) (name type : String) (value : Layout Node) :
    Layout ParameterDeclaration := do
  let start ← keyword "param"
  let name ← identifier name
  let type ← typeName type
  let sign ← token .assignment "="
  let value ← value
  let modifier ← ofExcept (DefaultValue.ofParts sign value)
  ofExcept (ParameterDeclaration.ofParts leading start name type (some (.defaultValue modifier)))

end Layout

end ResourceLang.Syntax
