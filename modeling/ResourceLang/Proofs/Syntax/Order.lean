import ResourceLang.Proofs.Syntax.Pieces

/-!
# Source order — trees over tokens in order have regions that nest

Where a tree comes from source text, each of its tokens ends before the next one starts. That is all it takes
for regions to exist and to nest: every piece covers the text from its first token to its last one, its children
lie within it, and no child reaches into the next.

The order of the tokens of a piece is an order within each child, and between any two children; with the children
covered from end to end, the second makes them follow each other, and then they lie within the piece.

* **`Piece.wellPlaced_of_ordered`** — a piece over tokens in order is well placed, at every depth.
* **`regions_of_ordered`** — the same for nodes and for declarations with what stands above them.
-/

namespace ResourceLang.Syntax

/-- Each token ends before the next one starts. -/
def InOrder (ts : List Token) : Prop := ts.IsChain fun t u => t.span.stop ≤ u.span.position

namespace Piece

/-- The piece covers the text from the start of its first token to the end of its last one. -/
def CoversTokens (p : Piece) : Prop :=
  ∃ s first last, p.span = .ok s ∧ p.tokens.head? = some first ∧ p.tokens.getLast? = some last ∧
    s.position = first.span.position ∧ s.stop = last.span.stop

/-- What is required of a piece over tokens in order. -/
structure WellPlaced (p : Piece) : Prop where
  covers : p.CoversTokens
  encloses : p.Encloses
  ordered : p.children.Pairwise Precedes

end Piece

/-! ## Tokens in order -/

/-- Tokens in order are in order two by two. -/
theorem InOrder.pairwise {ts : List Token} (h : InOrder ts) :
    ts.Pairwise fun t u => t.span.stop ≤ u.span.position := by
  have : Trans (fun t u : Token => t.span.stop ≤ u.span.position)
      (fun t u : Token => t.span.stop ≤ u.span.position) (fun t u : Token => t.span.stop ≤ u.span.position) := by
    refine ⟨fun {t u v} htu huv => ?_⟩
    have hu : u.span.position ≤ u.span.stop := Nat.le_add_right _ _
    exact Nat.le_trans htu (Nat.le_trans hu huv)
  exact List.isChain_iff_pairwise.mp h

private theorem head?_flatMap_of_head? {α β : Type} {f : α → List β} {l : List α} {a : α} {b : β}
    (ha : l.head? = some a) (hb : (f a).head? = some b) : (l.flatMap f).head? = some b := by
  obtain ⟨later, rfl⟩ := List.head?_eq_some_iff.mp ha
  rw [List.flatMap_cons, List.head?_append, hb]
  rfl

private theorem getLast?_flatMap_of_getLast? {α β : Type} {f : α → List β} {l : List α} {a : α} {b : β}
    (ha : l.getLast? = some a) (hb : (f a).getLast? = some b) : (l.flatMap f).getLast? = some b := by
  obtain ⟨earlier, rfl⟩ := List.getLast?_eq_some_iff.mp ha
  rw [List.flatMap_append, List.flatMap_singleton, List.getLast?_append, hb]
  rfl

namespace Piece

/-- Pieces that cover their tokens stand in the order of these. -/
theorem CoversTokens.precedes {p q : Piece} (hp : p.CoversTokens) (hq : q.CoversTokens)
    (h : ∀ t ∈ p.tokens, ∀ u ∈ q.tokens, t.span.stop ≤ u.span.position) : p.Precedes q := by
  obtain ⟨s, -, last, hs, -, hlast, -, hstop⟩ := hp
  obtain ⟨s', first, -, hs', hfirst, -, hposition, -⟩ := hq
  refine ⟨s, s', hs, hs', ?_⟩
  rw [hstop, hposition]
  exact h last (List.mem_of_getLast? hlast) first (List.mem_of_head? hfirst)

theorem wellPlaced_token (t : Token) : (token t).WellPlaced where
  covers := ⟨t.span, t, t, rfl, rfl, rfl, rfl, rfl⟩
  encloses := encloses_token t
  ordered := List.Pairwise.nil

/-- If the children cover their tokens and stand in order, the piece covers its tokens. -/
theorem wellPlaced_of_children {p : Piece} (hp : ∀ t, p ≠ token t) (hregular : p.Regular)
    (hcovers : ∀ c ∈ p.children, c.CoversTokens) (hordered : p.children.Pairwise Precedes) : p.WellPlaced := by
  have hspans : ∀ c ∈ p.children, ∃ s, c.span = .ok s := by
    intro c hc
    obtain ⟨s, -, -, hs, -⟩ := hcovers c hc
    exact ⟨s, hs⟩
  obtain ⟨hencloses, s, first, last, a, b, hs, hfirst, hlast, ha, hb, hposition, hstop⟩ :=
    encloses_of_ordered hp hregular.1 hregular.2 hspans hordered
  refine ⟨?_, hencloses, hordered⟩
  obtain ⟨a', t, -, ha', ht, -, hat, -⟩ := hcovers first (List.mem_of_head? hfirst)
  obtain ⟨b', -, u, hb', -, hu, -, hbu⟩ := hcovers last (List.mem_of_getLast? hlast)
  obtain rfl : a = a' := Except.ok.inj (ha.symm.trans ha')
  obtain rfl : b = b' := Except.ok.inj (hb.symm.trans hb')
  refine ⟨s, t, u, hs, ?_, ?_, hposition.trans hat, hstop.trans hbu⟩
  · rw [tokens_eq_flatMap hp]
    exact head?_flatMap_of_head? hfirst ht
  · rw [tokens_eq_flatMap hp]
    exact getLast?_flatMap_of_getLast? hlast hu

/-- **A piece over tokens in order is well placed, at every depth**, by induction on the piece. -/
theorem wellPlaced_of_ordered {p : Piece} (h : p.Everywhere Regular)
    (hordered : p.tokens.Pairwise fun t u => t.span.stop ≤ u.span.position) : p.Everywhere WellPlaced := by
  induction h with
  | @intro p here _ ih =>
      by_cases htoken : ∃ t, p = token t
      · obtain ⟨t, rfl⟩ := htoken
        exact .of_token (wellPlaced_token t)
      · have hp : ∀ t, p ≠ token t := not_exists.mp htoken
        -- the order of all tokens is an order within each child and one between any two of them
        rw [tokens_eq_flatMap hp, List.pairwise_flatMap] at hordered
        obtain ⟨hwithin, hbetween⟩ := hordered
        have hchildren : ∀ c ∈ p.children, c.Everywhere WellPlaced := fun c hc => ih c hc (hwithin c hc)
        have hcovers : ∀ c ∈ p.children, c.CoversTokens := fun c hc => (hchildren c hc).here.covers
        refine .intro (wellPlaced_of_children hp here hcovers ?_) hchildren
        exact hbetween.imp_of_mem fun ha hb => (hcovers _ ha).precedes (hcovers _ hb)

end Piece

/-! ## Declarations -/

/-- The region of a declaration whose children lie within it runs from the keyword to the end of its last part. -/
theorem Declaration.span_of_encloses {d : Declaration} (h : (Piece.declaration d).Encloses) :
    ∃ s last, d.span = .ok s ∧ d.lastPart.span = .ok last ∧ s.position = d.keyword.span.position ∧
      s.stop = last.stop := by
  obtain ⟨s, hs, hwithin⟩ := h
  obtain ⟨last, hlast, -⟩ := hwithin _ (List.mem_of_getLast? d.getLast?_children)
  have hs : d.span = .ok s := hs
  have hlast : d.lastPart.span = .ok last := hlast
  refine ⟨s, last, hs, hlast, ?_⟩
  rw [Declaration.span, hlast] at hs
  exact ((Span.between_eq_ok_iff _ _ _).mp hs).2

/-- **Regions over tokens in order.** A node over tokens in order is well placed at every depth. So is a
    declaration from its keyword to its last part; the nodes above it are well placed too, they follow each other,
    and they end before the keyword starts. -/
theorem regions_of_ordered :
    (∀ n : Node, (Piece.node n).Everywhere Piece.Regular → InOrder n.tokens →
      (Piece.node n).Everywhere Piece.WellPlaced) ∧
    ∀ d : Declaration, (Piece.declaration d).Everywhere Piece.Regular →
      (∀ n ∈ d.leading, (Piece.node n).Everywhere Piece.Regular) →
      InOrder (tokensOfNodes d.leading ++ d.tokens) →
      (Piece.declaration d).Everywhere Piece.WellPlaced ∧
      (∃ s last, d.span = .ok s ∧ d.lastPart.span = .ok last ∧ s.position = d.keyword.span.position ∧
        s.stop = last.stop) ∧
      (∀ n ∈ d.leading, (Piece.node n).Everywhere Piece.WellPlaced) ∧
      (d.leading.map Piece.node).Pairwise Piece.Precedes ∧
      ∀ n ∈ d.leading, ∃ s, n.span = .ok s ∧ s.stop ≤ d.keyword.span.position := by
  refine ⟨fun n hregular hordered => Piece.wellPlaced_of_ordered hregular hordered.pairwise, ?_⟩
  intro d hregular hleading hordered
  obtain ⟨habove, hbelow, hacross⟩ := List.pairwise_append.mp hordered.pairwise
  have hplaced : (Piece.declaration d).Everywhere Piece.WellPlaced := Piece.wellPlaced_of_ordered hregular hbelow
  rw [← Piece.tokens_of_nodes, List.pairwise_flatMap] at habove
  obtain ⟨hwithin, hbetween⟩ := habove
  have hnodes : ∀ n ∈ d.leading, (Piece.node n).Everywhere Piece.WellPlaced := fun n hn =>
    Piece.wellPlaced_of_ordered (hleading n hn) (hwithin _ (List.mem_map_of_mem hn))
  have hcovers : ∀ p ∈ d.leading.map Piece.node, p.CoversTokens := by
    intro p hp
    obtain ⟨n, hn, rfl⟩ := List.mem_map.mp hp
    exact (hnodes n hn).here.covers
  have hkeyword : d.keyword ∈ d.tokens := by
    cases d <;> exact List.mem_cons_self
  refine ⟨hplaced, d.span_of_encloses hplaced.here.encloses, hnodes, ?_, ?_⟩
  · exact hbetween.imp_of_mem fun ha hb => (hcovers _ ha).precedes (hcovers _ hb)
  · intro n hn
    obtain ⟨s, -, last, hs, -, hlast, -, hstop⟩ := (hnodes n hn).here.covers
    refine ⟨s, hs, ?_⟩
    rw [hstop]
    refine hacross last ?_ d.keyword hkeyword
    rw [← Piece.tokens_of_nodes]
    exact List.mem_flatMap.mpr ⟨_, List.mem_map_of_mem hn, List.mem_of_getLast? hlast⟩

/-! ## A parameter with a type that could not be read -/

/-- The use of `x` at the given byte. -/
def useOfX (position : Nat) : Node := .access ⟨⟨.identifier, "x", ⟨position, 1⟩⟩⟩

/-- `@f(x, 2)`, a line break and `param p ?? = 'a${x}b'`, of which the type was passed over. -/
def ParameterDeclaration.recovered : ParameterDeclaration where
  leading :=
    [.decorator ⟨⟨.atSign, "@", ⟨0, 1⟩⟩, ⟨⟨⟨.identifier, "f", ⟨1, 1⟩⟩⟩, ⟨.leftParen, "(", ⟨2, 1⟩⟩,
      [⟨useOfX 3, some ⟨.comma, ",", ⟨4, 1⟩⟩⟩, ⟨.integer ⟨⟨.integer, "2", ⟨6, 1⟩⟩, 2⟩, none⟩],
      ⟨.rightParen, ")", ⟨7, 1⟩⟩⟩⟩,
    .token ⟨.newLine, "\n", ⟨8, 1⟩⟩]
  keyword := ⟨.identifier, "param", ⟨9, 5⟩⟩
  name := ⟨⟨.identifier, "p", ⟨15, 1⟩⟩⟩
  type := .skipped ⟨⟨17, 2⟩, [.token ⟨.unrecognized, "?", ⟨17, 1⟩⟩, .token ⟨.unrecognized, "?", ⟨18, 1⟩⟩]⟩
  modifier := some (.defaultValue ⟨⟨.assignment, "=", ⟨20, 1⟩⟩,
    .string ⟨[⟨.leftPiece, "'a$\x7b", ⟨22, 4⟩⟩, ⟨.rightPiece, "\x7db'", ⟨27, 3⟩⟩], [useOfX 26], ["a", "b"]⟩⟩)

/-- All of the parameter is built with the checks, and what was passed over covers what it holds. -/
theorem regular_recovered : (Piece.declaration (.parameter .recovered)).Everywhere Piece.Regular ∧
    ∀ n ∈ (Declaration.parameter .recovered).leading, (Piece.node n).Everywhere Piece.Regular := by
  have hskipped : SkippedText.Spanning
      ⟨⟨17, 2⟩, [.token ⟨.unrecognized, "?", ⟨17, 1⟩⟩, .token ⟨.unrecognized, "?", ⟨18, 1⟩⟩]⟩ := by
    refine ⟨nofun, ?_, ?_⟩
    · rintro _ ⟨⟩ _ ⟨⟩
      rfl
    · rintro _ ⟨⟩ _ ⟨⟩
      rfl
  -- down to the checks of the single pieces
  simp only [Declaration.leading, ParameterDeclaration.recovered, useOfX, Piece.everywhere_iff (p := .node _),
    Piece.everywhere_iff (p := .token _), Piece.everywhere_iff (p := .declaration _),
    Piece.everywhere_iff (p := .call _), Piece.everywhere_iff (p := .argument _), Piece.children,
    Declaration.children, Node.children, weave, List.forall_mem_cons, List.map_cons, List.map_nil,
    List.cons_append, List.nil_append, Option.toList_some, Option.toList_none, List.not_mem_nil, false_implies,
    implies_true, and_true, true_and, Piece.Regular, Piece.Spanning, Piece.Checked, Node.Checked, hskipped]
  exact ⟨⟨rfl, rfl, rfl, rfl, rfl⟩, rfl, rfl, rfl, ⟨rfl, rfl⟩, rfl, rfl⟩

/-- The parameter is well placed from its keyword to the end of its default value, and so is the decorator above
    it, which ends before the keyword starts. -/
theorem regions_of_recovered :
    let d := Declaration.parameter .recovered
    (Piece.declaration d).Everywhere Piece.Regular ∧
      (∀ n ∈ d.leading, (Piece.node n).Everywhere Piece.Regular) ∧
      InOrder (tokensOfNodes d.leading ++ d.tokens) ∧ (∀ n ∈ d.leading, InOrder n.tokens) ∧
      (Piece.declaration d).Everywhere Piece.WellPlaced ∧
      (∀ n ∈ d.leading, (Piece.node n).Everywhere Piece.WellPlaced) ∧ d.span = .ok ⟨9, 21⟩ ∧
      ∀ n ∈ d.leading, ∃ s, n.span = .ok s ∧ s.stop ≤ 9 := by
  intro d
  obtain ⟨hregular, hleading⟩ := regular_recovered
  have hordered : InOrder (tokensOfNodes d.leading ++ d.tokens) := by
    unfold InOrder
    decide
  have hnodes : ∀ n ∈ d.leading, InOrder n.tokens := by
    unfold InOrder
    decide
  obtain ⟨hnode, hdeclaration⟩ := regions_of_ordered
  obtain ⟨hplaced, -, -, -, hbefore⟩ := hdeclaration d hregular hleading hordered
  exact ⟨hregular, hleading, hordered, hnodes, hplaced, fun n hn => hnode n (hleading n hn) (hnodes n hn), rfl,
    hbefore⟩

end ResourceLang.Syntax
