import ResourceLang.Proofs.Syntax.Shape

/-!
# Pieces — what a tree is made of, down to its tokens

A piece is anything that covers a region of the text: a token, a node, a property, an argument, a call or a
declaration. Its children are the pieces it is written with, in source order, and its tokens are those of its
children one after the other. Decorators and line breaks above a declaration are not among its children, for its
region starts at the keyword.

Each piece that is built with the checks of `Shape` covers the text from the start of its first child to the end
of its last one. That is the only place where the fifteen kinds of nodes are told apart; what follows about
regions uses nothing else.

* **`Piece.tokens_eq_flatMap`** — the tokens of a piece are those of its children.
* **`Piece.exists_ends`** — the region of a piece joins those of its first and its last child.
* **`Piece.encloses_of_ordered`** — if the children stand in order, all of them lie within that region.
-/

namespace ResourceLang.Syntax

/-! ## Tokens in source order -/

mutual

/-- The tokens of a node in source order. -/
def Node.tokens : Node → List Token
  | .token t => [t]
  | .identifier i => [i.token]
  | .string ⟨ts, es, _⟩ => wovenTokens ts es
  | .typeName t => [t.token]
  | .integer i => [i.token]
  | .boolean b => [b.token]
  | .null n => [n.token]
  | .array ⟨o, is, c⟩ => o :: (tokensOfNodes is ++ [c])
  | .object ⟨o, ps, c⟩ => o :: (tokensOfProperties ps ++ [c])
  | .call c => c.tokens
  | .access v => [v.name.token]
  | .condition ⟨k, n⟩ => k :: n.tokens
  | .defaultValue ⟨k, n⟩ => k :: n.tokens
  | .decorator ⟨s, c⟩ => s :: c.tokens
  | .skipped ⟨_, es⟩ => tokensOfNodes es
termination_by structural n => n

/-- The tokens of a call: each argument is followed by its comma. -/
def Call.tokens : Call → List Token
  | ⟨n, o, as, c⟩ => n.token :: o :: (tokensOfArguments as ++ [c])
termination_by structural c => c

/-- The tokens of nodes one after the other. -/
def tokensOfNodes : List Node → List Token
  | [] => []
  | n :: ns => n.tokens ++ tokensOfNodes ns
termination_by structural ns => ns

/-- The pieces of a string with the tokens of an expression after each but the last. -/
def wovenTokens : List Token → List Node → List Token
  | ts, [] => ts
  | [], e :: es => e.tokens ++ wovenTokens [] es
  | t :: ts, e :: es => t :: (e.tokens ++ wovenTokens ts es)
termination_by structural _ es => es

/-- The tokens of properties one after the other. -/
def tokensOfProperties : List PropertyAssignment → List Token
  | [] => []
  | ⟨k, c, v⟩ :: ps => k.tokens ++ c :: v.tokens ++ tokensOfProperties ps
termination_by structural ps => ps

/-- The tokens of arguments one after the other. -/
def tokensOfArguments : List Argument → List Token
  | [] => []
  | ⟨e, c⟩ :: as => e.tokens ++ c.toList ++ tokensOfArguments as
termination_by structural as => as

end

/-- The tokens of a declaration from its keyword on. -/
def Declaration.tokens : Declaration → List Token
  | .resource d => d.keyword :: d.name.token :: (d.type.tokens ++ d.existing.toList ++ d.assignment.tokens
      ++ tokensOfNodes d.condition.toList ++ d.body.tokens)
  | .output d => d.keyword :: d.name.token :: (d.type.tokens ++ d.assignment.tokens ++ d.value.tokens)
  | .parameter d => d.keyword :: d.name.token :: (d.type.tokens ++ tokensOfNodes d.modifier.toList)

/-! ## Pieces -/

/-- Anything that covers a region of the text. -/
inductive Piece where
  | token (token : Token)
  | node (node : Node)
  | property (property : PropertyAssignment)
  | argument (argument : Argument)
  | call (call : Call)
  | declaration (declaration : Declaration)

/-- The pieces of a string with an expression after each but the last. -/
def weave : List Token → List Node → List Piece
  | ts, [] => ts.map .token
  | [], e :: es => .node e :: weave [] es
  | t :: ts, e :: es => .token t :: .node e :: weave ts es

/-- What a node is written with, in source order. -/
def Node.children : Node → List Piece
  | .token t => [.token t]
  | .identifier i => [.token i.token]
  | .string s => weave s.tokens s.expressions
  | .typeName t => [.token t.token]
  | .integer i => [.token i.token]
  | .boolean b => [.token b.token]
  | .null n => [.token n.token]
  | .array a => .token a.opening :: (a.items.map .node ++ [.token a.closing])
  | .object o => .token o.opening :: (o.properties.map .property ++ [.token o.closing])
  | .call c => [.call c]
  | .access v => [.node (.identifier v.name)]
  | .condition c => [.token c.keyword, .node c.condition]
  | .defaultValue v => [.token v.assignment, .node v.value]
  | .decorator d => [.token d.sign, .call d.call]
  | .skipped s => s.elements.map .node

/-- What a declaration is written with from its keyword on, in source order. -/
def Declaration.children : Declaration → List Piece
  | .resource d => .token d.keyword :: .node (.identifier d.name) :: .node d.type ::
      (d.existing.toList.map .token ++ .node d.assignment :: (d.condition.toList.map .node ++ [.node d.body]))
  | .output d =>
      [.token d.keyword, .node (.identifier d.name), .node d.type, .node d.assignment, .node d.value]
  | .parameter d => .token d.keyword :: .node (.identifier d.name) :: .node d.type ::
      d.modifier.toList.map .node

namespace Piece

/-- What a piece is written with, in source order. -/
def children : Piece → List Piece
  | token _ => []
  | node n => n.children
  | property p => [node p.key, token p.colon, node p.value]
  | argument a => node a.expression :: a.comma.toList.map token
  | call c => node (.identifier c.name) :: token c.opening :: (c.arguments.map argument ++ [token c.closing])
  | declaration d => d.children

/-- The region that a piece covers. -/
def span : Piece → Except Disorder Span
  | token t => .ok t.span
  | node n => n.span
  | property p => p.span
  | argument a => a.span
  | call c => c.span
  | declaration d => d.span

/-- The tokens of a piece in source order. -/
def tokens : Piece → List Token
  | token t => [t]
  | node n => n.tokens
  | property p => p.key.tokens ++ p.colon :: p.value.tokens
  | argument a => a.expression.tokens ++ a.comma.toList
  | call c => c.tokens
  | declaration d => d.tokens

theorem ne_token_of_mem_children {p c : Piece} (hc : c ∈ p.children) (t : Token) : p ≠ token t := by
  rintro rfl
  exact nomatch hc

/-- What holds of a piece and of all that it is written with, at every depth. -/
inductive Everywhere (P : Piece → Prop) : Piece → Prop where
  | intro {p : Piece} (here : P p) (inside : ∀ c ∈ p.children, Everywhere P c) : Everywhere P p

namespace Everywhere

variable {P : Piece → Prop} {p : Piece}

theorem here (h : p.Everywhere P) : P p := by
  cases h with
  | intro here _ => exact here

theorem child (h : p.Everywhere P) {c : Piece} (hc : c ∈ p.children) : c.Everywhere P := by
  cases h with
  | intro _ inside => exact inside c hc

/-- A token is written with nothing but itself. -/
theorem of_token {t : Token} (here : P (.token t)) : (Piece.token t).Everywhere P :=
  .intro here fun _ hc => nomatch hc

end Everywhere

theorem everywhere_iff {P : Piece → Prop} {p : Piece} :
    p.Everywhere P ↔ P p ∧ ∀ c ∈ p.children, c.Everywhere P :=
  ⟨fun h => ⟨h.here, fun _ hc => h.child hc⟩, fun h => .intro h.1 h.2⟩

end Piece

/-! ## Tokens of children -/

namespace Piece

theorem tokens_of_nodes (ns : List Node) : (ns.map node).flatMap tokens = tokensOfNodes ns := by
  induction ns with
  | nil => rfl
  | cons n ns ih => rw [List.map_cons, List.flatMap_cons, ih]; rfl

theorem tokens_of_properties (ps : List PropertyAssignment) :
    (ps.map property).flatMap tokens = tokensOfProperties ps := by
  induction ps with
  | nil => rfl
  | cons p ps ih =>
      obtain ⟨key, colon, value⟩ := p
      rw [List.map_cons, List.flatMap_cons, ih]
      rfl

theorem tokens_of_arguments (as : List Argument) : (as.map argument).flatMap tokens = tokensOfArguments as := by
  induction as with
  | nil => rfl
  | cons a as ih =>
      obtain ⟨expression, comma⟩ := a
      rw [List.map_cons, List.flatMap_cons, ih]
      rfl

theorem tokens_of_tokens (ts : List Token) : (ts.map token).flatMap tokens = ts := by
  induction ts with
  | nil => rfl
  | cons t ts ih => rw [List.map_cons, List.flatMap_cons, ih]; rfl

theorem tokens_of_weave (ts : List Token) (es : List Node) :
    (weave ts es).flatMap tokens = wovenTokens ts es := by
  induction es generalizing ts with
  | nil =>
      rw [weave.eq_1, wovenTokens.eq_1]
      exact tokens_of_tokens ts
  | cons e es ih =>
      cases ts with
      | nil => rw [weave, wovenTokens, List.flatMap_cons, ih]; rfl
      | cons t ts => rw [weave, wovenTokens, List.flatMap_cons, List.flatMap_cons, ih]; rfl

/-- **The tokens of a piece are those of its children**, one child after the other. -/
theorem tokens_eq_flatMap {p : Piece} (hp : ∀ t, p ≠ token t) : p.tokens = p.children.flatMap tokens := by
  cases p with
  | token t => exact absurd rfl (hp t)
  | node n =>
      cases n with
      | string s =>
          obtain ⟨pieces, expressions, values⟩ := s
          exact (tokens_of_weave pieces expressions).symm
      | array a =>
          obtain ⟨opening, items, closing⟩ := a
          simp [tokens, children, Node.tokens, Node.children, tokens_of_nodes]
      | object o =>
          obtain ⟨opening, properties, closing⟩ := o
          simp [tokens, children, Node.tokens, Node.children, tokens_of_properties]
      | condition c =>
          obtain ⟨keyword, condition⟩ := c
          simp [tokens, children, Node.tokens, Node.children]
      | defaultValue v =>
          obtain ⟨assignment, value⟩ := v
          simp [tokens, children, Node.tokens, Node.children]
      | decorator d =>
          obtain ⟨sign, call⟩ := d
          simp [tokens, children, Node.tokens, Node.children]
      | skipped s =>
          obtain ⟨span, elements⟩ := s
          exact (tokens_of_nodes elements).symm
      | call c => exact (List.append_nil c.tokens).symm
      | _ => rfl
  | property p => simp [tokens, children]
  | argument a => simp [tokens, children, tokens_of_tokens]
  | call c =>
      obtain ⟨name, opening, arguments, closing⟩ := c
      simp [tokens, children, Call.tokens, Node.tokens, tokens_of_arguments]
  | declaration d =>
      cases d with
      | resource d =>
          simp [tokens, children, Declaration.tokens, Declaration.children, Node.tokens, tokens_of_tokens,
            tokens_of_nodes]
      | output d => simp [tokens, children, Declaration.tokens, Declaration.children, Node.tokens]
      | parameter d =>
          simp [tokens, children, Declaration.tokens, Declaration.children, Node.tokens, tokens_of_nodes]

end Piece

/-! ## Built with checks -/

/-- The parts of the node pass the check with which such a node is built. -/
def Node.Checked : Node → Prop
  | .identifier i => Identifier.ofToken i.token = .ok i
  | .string s => StringLiteral.ofParts s.tokens s.expressions s.values = .ok s
  | .typeName t => TypeName.ofToken t.token = .ok t
  | .integer i => IntegerLiteral.ofParts i.token i.value = .ok i
  | .boolean b => BooleanLiteral.ofToken b.token = .ok b
  | .null n => NullLiteral.ofToken n.token = .ok n
  | .array a => ArrayLiteral.ofParts a.opening a.items a.closing = .ok a
  | .object o => ObjectLiteral.ofParts o.opening o.properties o.closing = .ok o
  | .condition c => Condition.ofParts c.keyword c.condition = .ok c
  | .defaultValue v => DefaultValue.ofParts v.assignment v.value = .ok v
  | .decorator d => DecoratorUse.ofParts d.sign d.call = .ok d
  | .token _ | .call _ | .access _ | .skipped _ => True

/-- The parts of the declaration pass the check with which it is built. -/
def Declaration.Checked : Declaration → Prop
  | .resource d => ResourceDeclaration.ofParts d.leading d.keyword d.name d.type d.existing d.assignment
      d.condition d.body = .ok d
  | .output d => OutputDeclaration.ofParts d.leading d.keyword d.name d.type d.assignment d.value = .ok d
  | .parameter d => ParameterDeclaration.ofParts d.leading d.keyword d.name d.type d.modifier = .ok d

/-- The parts of the piece pass the check with which it is built. -/
def Piece.Checked : Piece → Prop
  | token _ => True
  | node n => n.Checked
  | property p => PropertyAssignment.ofParts p.key p.colon p.value = .ok p
  | argument a => Argument.ofParts a.expression a.comma = .ok a
  | call c => Call.ofParts c.name c.opening c.arguments c.closing = .ok c
  | declaration d => d.Checked

/-- Input that was passed over covers what it holds, from the first element to the last one. -/
structure SkippedText.Spanning (s : SkippedText) : Prop where
  nonempty : s.elements ≠ []
  start : ∀ first ∈ s.elements.head?, ∀ a, first.span = .ok a → s.span.position = a.position
  stop : ∀ last ∈ s.elements.getLast?, ∀ b, last.span = .ok b → s.span.stop = b.stop

/-- If the piece is input that was passed over, it covers what it holds. -/
def Piece.Spanning : Piece → Prop
  | node (.skipped s) => s.Spanning
  | _ => True

/-- The piece is built with the checks, and input that was passed over covers what it holds. -/
def Piece.Regular (p : Piece) : Prop := p.Checked ∧ p.Spanning

/-- The last part of a declaration is its last child. -/
theorem Declaration.getLast?_children (d : Declaration) : d.children.getLast? = some (.node d.lastPart) := by
  cases d with
  | resource d =>
      obtain ⟨leading, keyword, name, type, existing, assignment, condition, body⟩ := d
      cases existing <;> cases condition <;> rfl
  | output d => rfl
  | parameter d =>
      obtain ⟨leading, keyword, name, type, modifier⟩ := d
      cases modifier <;> rfl

/-! ## Regions -/

theorem Span.exists_between {first last : Span} (h : first.position ≤ last.stop) :
    ∃ s, Span.between first last = .ok s ∧ s.position = first.position ∧ s.stop = last.stop := by
  have hstop : first.position + (last.stop - first.position) = last.stop := by omega
  refine ⟨⟨first.position, last.stop - first.position⟩, if_pos h, rfl, hstop⟩

namespace Piece

/-- The region of `p` starts where that of `first` starts and stops where that of `last` stops. -/
def SpansFrom (p first last : Piece) : Prop :=
  ∀ a b, first.span = .ok a → last.span = .ok b → a.position ≤ b.stop →
    ∃ s, p.span = .ok s ∧ s.position = a.position ∧ s.stop = b.stop

/-- A piece that has the region of its only child. -/
theorem SpansFrom.of_span_eq {p c : Piece} (h : p.span = c.span) : p.SpansFrom c c := by
  intro a b ha hb _
  obtain rfl : a = b := Except.ok.inj (ha.symm.trans hb)
  exact ⟨a, h.trans ha, rfl, rfl⟩

/-- A piece whose region joins those of two of its children. -/
theorem SpansFrom.of_between {p first last : Piece}
    (h : ∀ a b, first.span = .ok a → last.span = .ok b → p.span = Span.between a b) :
    p.SpansFrom first last := by
  intro a b ha hb hle
  obtain ⟨s, hs, hends⟩ := Span.exists_between hle
  exact ⟨s, (h a b ha hb).trans hs, hends⟩

theorem head?_weave (t : Token) (ts : List Token) (es : List Node) :
    (weave (t :: ts) es).head? = some (.token t) := by
  cases es <;> rfl

theorem getLast?_weave {ts : List Token} {es : List Node} (h : ts.length = es.length + 1) :
    (weave ts es).getLast? = ts.getLast?.map token := by
  induction es generalizing ts with
  | nil =>
      obtain ⟨t, rfl⟩ := List.length_eq_one_iff.mp h
      rfl
  | cons e es ih =>
      match ts, h with
      | t :: t' :: ts, h =>
          have hlater : (t' :: ts).length = es.length + 1 := Nat.succ.inj h
          rw [weave, List.getLast?_cons_cons, List.getLast?_cons, ih hlater, List.getLast?_cons_cons,
            List.getLast?_cons]
          rfl

/-- **The region of a piece joins those of its first and its last child.** -/
theorem exists_ends {p : Piece} (hp : ∀ t, p ≠ token t) (hchecked : p.Checked) (hspanning : p.Spanning) :
    ∃ first last, p.children.head? = some first ∧ p.children.getLast? = some last ∧ p.SpansFrom first last := by
  cases p with
  | token t => exact absurd rfl (hp t)
  | node n =>
      cases n with
      | string s =>
          obtain ⟨pieces, expressions, values⟩ := s
          obtain ⟨hlength, -, -⟩ := StringLiteral.eq_of_ofParts hchecked
          obtain ⟨first, later, rfl⟩ := List.exists_cons_of_length_eq_add_one hlength
          obtain ⟨last, hlast⟩ : ∃ last, (first :: later).getLast? = some last := ⟨_, List.getLast?_cons⟩
          refine ⟨.token first, .token last, head?_weave first later expressions, ?_, .of_between ?_⟩
          · exact (getLast?_weave hlength).trans (congrArg (Option.map token) hlast)
          · rintro a b ⟨⟩ ⟨⟩
            simp only [span, Node.span, StringLiteral.span, hlast, List.head?_cons]
      | array a =>
          refine ⟨.token a.opening, .token a.closing, rfl, ?_, .of_between ?_⟩
          · exact List.getLast?_concat (l := .token a.opening :: a.items.map node)
          · rintro _ _ ⟨⟩ ⟨⟩
            rfl
      | object o =>
          refine ⟨.token o.opening, .token o.closing, rfl, ?_, .of_between ?_⟩
          · exact List.getLast?_concat (l := .token o.opening :: o.properties.map property)
          · rintro _ _ ⟨⟩ ⟨⟩
            rfl
      | condition c =>
          obtain ⟨keyword, condition⟩ := c
          refine ⟨.token keyword, .node condition, rfl, rfl, .of_between ?_⟩
          rintro _ b ⟨⟩ hb
          have hb : condition.span = .ok b := hb
          simp only [span, Node.span, hb]
          rfl
      | defaultValue v =>
          obtain ⟨assignment, value⟩ := v
          refine ⟨.token assignment, .node value, rfl, rfl, .of_between ?_⟩
          rintro _ b ⟨⟩ hb
          have hb : value.span = .ok b := hb
          simp only [span, Node.span, hb]
          rfl
      | decorator d =>
          refine ⟨.token d.sign, .call d.call, rfl, rfl, .of_between ?_⟩
          rintro _ b ⟨⟩ hb
          have hb : d.call.span = .ok b := hb
          simp only [span, Node.span, DecoratorUse.span, hb]
          rfl
      | skipped s =>
          obtain ⟨first, hfirst⟩ : ∃ first, s.elements.head? = some first :=
            ⟨_, List.head?_eq_some_head hspanning.nonempty⟩
          obtain ⟨last, hlast⟩ : ∃ last, s.elements.getLast? = some last :=
            ⟨_, List.getLast?_eq_some_getLast hspanning.nonempty⟩
          refine ⟨.node first, .node last, ?_, ?_, ?_⟩
          · exact List.head?_map.trans (congrArg (Option.map node) hfirst)
          · exact List.getLast?_map.trans (congrArg (Option.map node) hlast)
          · intro a b ha hb _
            exact ⟨s.span, rfl, hspanning.start first hfirst a ha, hspanning.stop last hlast b hb⟩
      | call c => exact ⟨.call c, .call c, rfl, rfl, .of_span_eq rfl⟩
      | token t => exact ⟨.token t, .token t, rfl, rfl, .of_span_eq rfl⟩
      | identifier i => exact ⟨.token i.token, .token i.token, rfl, rfl, .of_span_eq rfl⟩
      | typeName t => exact ⟨.token t.token, .token t.token, rfl, rfl, .of_span_eq rfl⟩
      | integer i => exact ⟨.token i.token, .token i.token, rfl, rfl, .of_span_eq rfl⟩
      | boolean b => exact ⟨.token b.token, .token b.token, rfl, rfl, .of_span_eq rfl⟩
      | null n => exact ⟨.token n.token, .token n.token, rfl, rfl, .of_span_eq rfl⟩
      | access v => exact ⟨.node (.identifier v.name), .node (.identifier v.name), rfl, rfl, .of_span_eq rfl⟩
  | property p =>
      refine ⟨.node p.key, .node p.value, rfl, rfl, .of_between ?_⟩
      intro a b ha hb
      have ha : p.key.span = .ok a := ha
      have hb : p.value.span = .ok b := hb
      rw [span, PropertyAssignment.span, ha, hb]
      rfl
  | argument a =>
      obtain ⟨expression, comma⟩ := a
      cases comma with
      | none =>
          refine ⟨.node expression, .node expression, rfl, rfl, .of_span_eq ?_⟩
          exact bind_pure expression.span
      | some comma =>
          refine ⟨.node expression, .token comma, rfl, rfl, .of_between ?_⟩
          rintro a _ ha ⟨⟩
          have ha : expression.span = .ok a := ha
          rw [span, Argument.span, ha]
          rfl
  | call c =>
      refine ⟨.node (.identifier c.name), .token c.closing, rfl, ?_, .of_between ?_⟩
      · exact List.getLast?_concat
          (l := .node (.identifier c.name) :: .token c.opening :: c.arguments.map argument)
      · rintro _ _ ⟨⟩ ⟨⟩
        rfl
  | declaration d =>
      refine ⟨.token d.keyword, .node d.lastPart, ?_, ?_, .of_between ?_⟩
      · cases d <;> rfl
      · exact d.getLast?_children
      · rintro _ b ⟨⟩ hb
        have hb : d.lastPart.span = .ok b := hb
        rw [span, Declaration.span, hb]
        rfl

/-! ## Children in order -/

/-- The region of `a` ends before that of `b` starts. -/
def Precedes (a b : Piece) : Prop := ∃ s s', a.span = .ok s ∧ b.span = .ok s' ∧ s.stop ≤ s'.position

/-- The piece covers a region, and its children cover regions within that one. -/
def Encloses (p : Piece) : Prop :=
  ∃ s, p.span = .ok s ∧ ∀ c ∈ p.children, ∃ s', c.span = .ok s' ∧ s.contains s' = true

theorem Precedes.of_spans {a b : Piece} {s s' : Span} (h : a.Precedes b) (ha : a.span = .ok s)
    (hb : b.span = .ok s') : s.stop ≤ s'.position := by
  obtain ⟨r, r', hr, hr', hle⟩ := h
  obtain rfl : r = s := Except.ok.inj (hr.symm.trans ha)
  obtain rfl : r' = s' := Except.ok.inj (hr'.symm.trans hb)
  exact hle

theorem contains_iff {s s' : Span} : s.contains s' = true ↔ s.position ≤ s'.position ∧ s'.stop ≤ s.stop := by
  rw [Span.contains, Bool.and_eq_true, decide_eq_true_eq, decide_eq_true_eq]

/-- A token covers its own region and has no children. -/
theorem encloses_token (t : Token) : (token t).Encloses := ⟨t.span, rfl, fun _ hc => nomatch hc⟩

/-- **Children in order lie within the region of the piece**, which starts where the first one starts and stops
    where the last one stops. -/
theorem encloses_of_ordered {p : Piece} (hp : ∀ t, p ≠ token t) (hchecked : p.Checked)
    (hspanning : p.Spanning) (hspans : ∀ c ∈ p.children, ∃ s, c.span = .ok s)
    (hordered : p.children.Pairwise Precedes) :
    p.Encloses ∧ ∃ s first last a b, p.span = .ok s ∧ p.children.head? = some first ∧
      p.children.getLast? = some last ∧ first.span = .ok a ∧ last.span = .ok b ∧
      s.position = a.position ∧ s.stop = b.stop := by
  obtain ⟨first, last, hfirst, hlast, hends⟩ := exists_ends hp hchecked hspanning
  obtain ⟨a, ha⟩ := hspans first (List.mem_of_head? hfirst)
  obtain ⟨b, hb⟩ := hspans last (List.mem_of_getLast? hlast)
  -- nothing starts before the first child, and nothing stops after the last one
  have hstart : ∀ c ∈ p.children, ∀ s', c.span = .ok s' → a.position ≤ s'.position := by
    obtain ⟨later, hchildren⟩ := List.head?_eq_some_iff.mp hfirst
    rw [hchildren, List.pairwise_cons] at hordered
    intro c hc s' hs'
    rw [hchildren] at hc
    rcases List.mem_cons.mp hc with rfl | hc
    · obtain rfl : a = s' := Except.ok.inj (ha.symm.trans hs')
      exact Nat.le_refl a.position
    · have hle := (hordered.1 c hc).of_spans ha hs'
      rw [Span.stop] at hle
      omega
  have hstop : ∀ c ∈ p.children, ∀ s', c.span = .ok s' → s'.stop ≤ b.stop := by
    obtain ⟨earlier, hchildren⟩ := List.getLast?_eq_some_iff.mp hlast
    rw [hchildren, List.pairwise_append] at hordered
    intro c hc s' hs'
    rw [hchildren] at hc
    rcases List.mem_append.mp hc with hc | hc
    · have hle := (hordered.2.2 c hc last List.mem_cons_self).of_spans hs' hb
      rw [Span.stop] at hle ⊢
      rw [Span.stop]
      omega
    · rw [List.mem_singleton] at hc
      subst hc
      obtain rfl : b = s' := Except.ok.inj (hb.symm.trans hs')
      exact Nat.le_refl b.stop
  have hab : a.position ≤ b.stop := by
    have hle := hstart last (List.mem_of_getLast? hlast) b hb
    rw [Span.stop]
    omega
  obtain ⟨s, hs, hposition, hend⟩ := hends a b ha hb hab
  refine ⟨⟨s, hs, fun c hc => ?_⟩, s, first, last, a, b, hs, hfirst, hlast, ha, hb, hposition, hend⟩
  obtain ⟨s', hs'⟩ := hspans c hc
  refine ⟨s', hs', contains_iff.mpr ⟨?_, ?_⟩⟩
  · exact hposition ▸ hstart c hc s' hs'
  · exact hend ▸ hstop c hc s' hs'

end Piece

end ResourceLang.Syntax
