import ResourceLang.Syntax.Node

/-!
# Extents — the region of source text that a node covers

A compound node covers the text from the start of its first part to the end of its last one. In a tree
that is not in source order there may be no such region; the first pair of spans that cannot be joined is
then the answer.
-/

namespace ResourceLang.Syntax

/-- From the name to the closing parenthesis. -/
def Call.span (c : Call) : Except Disorder Span := Span.between c.name.token.span c.closing.span

/-- From the sign to the end of the call. -/
def DecoratorUse.span (d : DecoratorUse) : Except Disorder Span := do
  let call ← d.call.span
  Span.between d.sign.span call

/-- From the first piece to the last; a string without pieces covers nothing. -/
def StringLiteral.span (s : StringLiteral) : Except Disorder Span :=
  match s.tokens.head?, s.tokens.getLast? with
  | some first, some last => Span.between first.span last.span
  | _, _ => .ok Span.nil

/-- The region that a node covers. -/
def Node.span : Node → Except Disorder Span
  | .token t => .ok t.span
  | .identifier i => .ok i.token.span
  | .string s => s.span
  | .typeName t => .ok t.token.span
  | .integer i => .ok i.token.span
  | .boolean b => .ok b.token.span
  | .null n => .ok n.token.span
  | .array a => Span.between a.opening.span a.closing.span
  | .object o => Span.between o.opening.span o.closing.span
  | .call c => c.span
  | .access v => .ok v.name.token.span
  | .condition ⟨sign, tested⟩ => do
    let last ← tested.span
    Span.between sign.span last
  | .defaultValue ⟨sign, given⟩ => do
    let last ← given.span
    Span.between sign.span last
  | .decorator d => d.span
  | .skipped s => .ok s.span

/-- From the key to the value. -/
def PropertyAssignment.span (p : PropertyAssignment) : Except Disorder Span := do
  let first ← p.key.span
  let last ← p.value.span
  Span.between first last

/-- The expression, and the comma if there is one. -/
def Argument.span (a : Argument) : Except Disorder Span := do
  let first ← a.expression.span
  match a.comma with
  | some comma => Span.between first comma.span
  | none => .ok first

end ResourceLang.Syntax
