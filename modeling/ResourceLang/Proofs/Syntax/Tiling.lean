import ResourceLang.Proofs.Syntax.Placement
import Mathlib.Data.List.Perm.Basic

/-!
# Tiling — laid out trees cover the text without a gap

A laid out piece fills the bytes between the offsets before and after it, but for the byte of space after its last
token. So do its parts, one after the other, and hence its tokens: in the order of their positions, each starts
one byte after the end of the one before.

In a call that order is not the one of the source. The tokens are the same, though, and whatever the call is
written with lies within it; an argument reaches from its expression to its comma, over all the arguments between
them.

* **`Placed.fills`** — a placed piece fills what lies between the two offsets.
* **`Placed.exists_tiles`** — its tokens are the tiles of that region.
* **`laidOut_tiles`** — both for what was laid out, and that a refused string leaves the offset as it is.
-/

namespace ResourceLang.Syntax

/-! ## Runs of tokens -/

/-- Whether the first token starts no later than the second one. -/
def Token.positionLe (t u : Token) : Bool := t.span.position ≤ u.span.position

/-- The tokens stand one after the other, each followed by one byte of space, from the first offset to the second
    one. -/
def Tiles : Nat → List Token → Nat → Prop
  | o, [], o' => o = o'
  | o, t :: ts, o' => t.span = ⟨o, t.text.utf8ByteSize⟩ ∧ Tiles (o + t.text.utf8ByteSize + 1) ts o'

namespace Tiles

variable {o o₁ o' : Nat} {ts us : List Token}

theorem append (hts : Tiles o ts o₁) (hus : Tiles o₁ us o') : Tiles o (ts ++ us) o' := by
  induction ts generalizing o with
  | nil =>
      obtain rfl : o = o₁ := hts
      exact hus
  | cons t ts ih => exact ⟨hts.1, ih hts.2⟩

theorem le_position (h : Tiles o ts o') : ∀ t ∈ ts, o ≤ t.span.position := by
  induction ts generalizing o with
  | nil => exact fun _ ht => nomatch ht
  | cons t ts ih =>
      intro u hu
      rcases List.mem_cons.mp hu with rfl | hu
      · exact Nat.le_of_eq (congrArg Span.position h.1).symm
      · have hle := ih h.2 u hu
        omega

/-- Of any two tokens, the first ends before the second starts, and the space after it lies between them. -/
theorem pairwise (h : Tiles o ts o') : ts.Pairwise fun t u => t.span.stop < u.span.position := by
  induction ts generalizing o with
  | nil => exact .nil
  | cons t ts ih =>
      refine .cons (fun u hu => ?_) (ih h.2)
      have hle := le_position h.2 u hu
      rw [h.1]
      exact hle

theorem nodup (h : Tiles o ts o') : ts.Nodup := by
  refine h.pairwise.imp fun {t u} hlt => ?_
  rintro rfl
  rw [Span.stop] at hlt
  omega

/-- No two of the tokens start at the same position. -/
theorem eq_of_position (h : Tiles o ts o') {t u : Token} (ht : t ∈ ts) (hu : u ∈ ts)
    (heq : t.span.position = u.span.position) : t = u := by
  have hdistinct : ts.Pairwise fun t u => t.span.position ≠ u.span.position :=
    h.pairwise.imp fun {t u} hlt heq => by
      rw [Span.stop] at hlt
      omega
  refine List.Pairwise.forall_of_forall_of_flip (R := fun t u => t.span.position = u.span.position → t = u)
    (fun _ _ _ => rfl) ?_ ?_ ht hu heq
  · exact hdistinct.imp fun hne heq => absurd heq hne
  · exact hdistinct.imp fun hne heq => absurd heq.symm hne

/-- Sorting the tokens by position puts them into the order in which they stand. -/
theorem mergeSort_of_perm (h : Tiles o ts o') (hperm : us.Perm ts) :
    us.mergeSort Token.positionLe = ts := by
  have hsorted : (us.mergeSort Token.positionLe).Pairwise fun t u => t.positionLe u = true := by
    refine List.pairwise_mergeSort (fun t u v htu huv => ?_) (fun t u => ?_) us
    · exact decide_eq_true (Nat.le_trans (of_decide_eq_true htu) (of_decide_eq_true huv))
    · simpa [Token.positionLe] using Nat.le_total t.span.position u.span.position
  have hascending : ts.Pairwise fun t u => t.positionLe u = true := by
    refine h.pairwise.imp fun {t u} hlt => decide_eq_true ?_
    rw [Span.stop] at hlt
    omega
  have hall := (List.mergeSort_perm us Token.positionLe).trans hperm
  refine List.Perm.eq_of_pairwise (fun t u ht hu htu hut => ?_) hsorted hascending hall
  exact h.eq_of_position (hall.mem_iff.mp ht) hu
    (Nat.le_antisymm (of_decide_eq_true htu) (of_decide_eq_true hut))

end Tiles

/-! ## Filled regions -/

/-- The piece covers all that lies between the two offsets, except for the last byte. -/
def Fills (o : Nat) (p : Piece) (o' : Nat) : Prop :=
  ∃ s, p.span = .ok s ∧ s.position = o ∧ s.stop + 1 = o'

namespace Fills

variable {o o' : Nat} {p : Piece}

theorem lt (h : Fills o p o') : o < o' := by
  obtain ⟨s, -, rfl, rfl⟩ := h
  rw [Span.stop]
  omega

theorem le (h : Fills o p o') : o ≤ o' := Nat.le_of_lt h.lt

/-- A piece fills no more than one region. -/
theorem unique {a b : Nat} (h : Fills o p o') (h' : Fills a p b) : o = a ∧ o' = b := by
  obtain ⟨s, hs, rfl, rfl⟩ := h
  obtain ⟨s', hs', rfl, rfl⟩ := h'
  obtain rfl : s = s' := Except.ok.inj (hs.symm.trans hs')
  exact ⟨rfl, rfl⟩

/-- A piece encloses its children if they fill regions within the one that it fills. -/
theorem encloses (h : Fills o p o') (hchildren : ∀ c ∈ p.children, ∃ a b, Fills a c b ∧ o ≤ a ∧ b ≤ o') :
    p.Encloses := by
  obtain ⟨s, hs, rfl, rfl⟩ := h
  refine ⟨s, hs, fun c hc => ?_⟩
  obtain ⟨_, _, ⟨r, hr, rfl, rfl⟩, hposition, hstop⟩ := hchildren c hc
  exact ⟨r, hr, Piece.contains_iff.mpr ⟨hposition, Nat.le_of_succ_le_succ hstop⟩⟩

theorem precedes {q : Piece} {a b : Nat} (hp : Fills o p o') (hq : Fills a q b) (h : o' ≤ a) : p.Precedes q := by
  obtain ⟨s, hs, rfl, rfl⟩ := hp
  obtain ⟨s', hs', rfl, rfl⟩ := hq
  exact ⟨s, s', hs, hs', Nat.le_of_succ_le h⟩

end Fills

theorem Piece.head?_layoutOrder (p : Piece) : p.layoutOrder.head? = p.children.head? := by
  cases p <;> rfl

theorem Piece.getLast?_layoutOrder (p : Piece) : p.layoutOrder.getLast? = p.children.getLast? := by
  cases p with
  | call c => simp [layoutOrder, children, List.getLast?_cons, List.getLast?_append]
  | _ => rfl

/-- A piece fills the region from the start of its first child to the end of its last one. -/
theorem Fills.of_ends {p first last : Piece} {o b a o' : Nat} (hp : ∀ t, p ≠ .token t) (hregular : p.Regular)
    (hfirst : p.children.head? = some first) (hlast : p.children.getLast? = some last) (hstart : Fills o first b)
    (hstop : Fills a last o') (hlt : o < o') : Fills o p o' := by
  obtain ⟨first', last', hfirst', hlast', hends⟩ := Piece.exists_ends hp hregular.1 hregular.2
  obtain rfl : first = first' := Option.some.inj (hfirst.symm.trans hfirst')
  obtain rfl : last = last' := Option.some.inj (hlast.symm.trans hlast')
  obtain ⟨s, hs, rfl, -⟩ := hstart
  obtain ⟨s', hs', -, rfl⟩ := hstop
  obtain ⟨r, hr, hposition, hend⟩ := hends s s' hs hs' (Nat.le_of_lt_succ hlt)
  exact ⟨r, hr, hposition, congrArg (· + 1) hend⟩

/-- **A placed piece fills what lies between the two offsets**, for it is laid out from its first child to its last
    one. -/
theorem Placed.fills {o o' : Nat} {p : Piece} (h : Placed o p o') : Fills o p o' := by
  induction h using Placed.rule with
  | token kind text o => exact ⟨⟨o, text.utf8ByteSize⟩, rfl, rfl, rfl⟩
  | parts o p o' _ hp regular _ inside =>
      have inside : Consecutive Fills o p.layoutOrder o' := inside.imp fun ⟨_, h⟩ => h
      obtain ⟨first, last, hfirst, hlast, -⟩ := Piece.exists_ends hp regular.1 regular.2
      obtain ⟨_, hstart, hle⟩ := inside.head Fills.le (p.head?_layoutOrder.trans hfirst)
      obtain ⟨_, hstop⟩ := inside.last (p.getLast?_layoutOrder.trans hlast)
      exact .of_ends hp regular hfirst hlast hstart hstop (Nat.lt_of_lt_of_le hstart.lt hle)

theorem Placed.le {o o' : Nat} {p : Piece} (h : Placed o p o') : o ≤ o' := h.fills.le

/-! ## Arguments -/

/-- The expressions of a call lie one after the other, and its commas after all of them. -/
theorem Placed.call_parts {o o' : Nat} {c : Call} (h : Placed o (.call c) o') :
    ∃ o₁ o₂ o₃, o ≤ o₁ ∧ Consecutive Placed o₁ (c.arguments.map (.node ·.expression)) o₂ ∧
      Consecutive Placed o₂ ((c.arguments.filterMap Argument.comma).map .token) o₃ ∧ o₃ ≤ o' := by
  have hinside := h.layoutOrder (p := .call c) nofun
  cases hinside with
  | cons hname hinside =>
      cases hinside with
      | cons hopening hinside =>
          obtain ⟨o₂, hexpressions, hinside⟩ := Consecutive.append_iff.mp hinside
          obtain ⟨o₃, hcommas, hclosing⟩ := Consecutive.append_iff.mp hinside
          exact ⟨_, o₂, o₃, Nat.le_trans hname.le hopening.le, hexpressions, hcommas, hclosing.le Placed.le⟩

/-- The comma of an argument lies behind all expressions of the call. -/
theorem Placed.comma_within {o₂ o₃ : Nat} {as : List Argument} {a : Argument} {comma : Token} (ha : a ∈ as)
    (hcomma : a.comma = some comma)
    (h : Consecutive Placed o₂ ((as.filterMap Argument.comma).map .token) o₃) :
    ∃ z w, Placed z (.token comma) w ∧ o₂ ≤ z ∧ w ≤ o₃ :=
  h.within Placed.le (List.mem_map_of_mem (List.mem_filterMap.mpr ⟨a, ha, hcomma⟩))

/-- An argument fills the region from its expression to its comma, if it has one. -/
theorem Placed.argument_fills {o o' : Nat} {c : Call} (h : Placed o (.call c) o') {a : Argument}
    (ha : a ∈ c.arguments) : ∃ x y w, Fills x (.node a.expression) y ∧ Fills x (.argument a) w ∧ o ≤ x ∧ y ≤ w ∧
      w ≤ o' ∧ ∀ comma, a.comma = some comma → ∃ z, y ≤ z ∧ Fills z (.token comma) w := by
  have hp : ∀ t, Piece.argument a ≠ .token t := by
    rintro _ ⟨⟩
  have hregular : (Piece.argument a).Regular := ⟨h.separated.checked a ha, trivial⟩
  obtain ⟨o₁, o₂, o₃, ho, hexpressions, hcommas, ho'⟩ := h.call_parts
  obtain ⟨x, y, hplaced, hx, hy⟩ := hexpressions.within Placed.le (List.mem_map_of_mem ha)
  have hexpression := hplaced.fills
  have hcommas_le := hcommas.le Placed.le
  cases hcomma : a.comma with
  | none =>
      have hlast : (Piece.argument a).children.getLast? = some (.node a.expression) := by
        rw [Piece.children, hcomma]
        rfl
      refine ⟨x, y, y, hexpression, ?_, by omega, Nat.le_refl _, by omega, ?_⟩
      · exact .of_ends hp hregular rfl hlast hexpression hexpression hexpression.lt
      · rintro _ ⟨⟩
  | some comma =>
      have hlast : (Piece.argument a).children.getLast? = some (.token comma) := by
        rw [Piece.children, hcomma]
        rfl
      obtain ⟨z, w, hplaced, hle, hw⟩ := Placed.comma_within ha hcomma hcommas
      have hz := hplaced.fills
      have hlt := hz.lt
      refine ⟨x, y, w, hexpression, ?_, by omega, by omega, by omega, ?_⟩
      · have hxy := hexpression.lt
        exact .of_ends hp hregular rfl hlast hexpression hz (by omega)
      · rintro _ ⟨⟩
        exact ⟨z, by omega, hz⟩

/-- Each child of a placed piece fills a region within the one of the piece. -/
theorem Placed.children_within {o o' : Nat} {p : Piece} (h : Placed o p o') :
    ∀ q ∈ p.children, ∃ a b, Fills a q b ∧ o ≤ a ∧ b ≤ o' := by
  intro q hq
  have hparts : ∀ q ∈ p.layoutOrder, ∃ a b, Fills a q b ∧ o ≤ a ∧ b ≤ o' := fun q hpart =>
    ((h.layoutOrder (Piece.ne_token_of_mem_children hq)).imp Placed.fills).within Fills.le hpart
  rcases p.call_or_layoutOrder_eq with ⟨c, rfl⟩ | heq
  · rcases Piece.mem_children_call hq with hq | ⟨a, ha, rfl⟩
    · exact hparts q hq
    · obtain ⟨x, _, w, -, hargument, hx, -, hw, -⟩ := h.argument_fills ha
      exact ⟨x, w, hargument, hx, hw⟩
  · exact hparts q (heq ▸ hq)

/-- Everything that a placed piece is written with lies within it, at every depth. -/
theorem Placed.everywhere_encloses {o o' : Nat} {p : Piece} (h : Placed o p o') : p.Everywhere Piece.Encloses := by
  refine h.everywhere (fun h => h.fills.encloses h.children_within) fun h a ha => ?_
  obtain ⟨x, y, w, hexpression, hargument, -, hy, -, hcomma⟩ := h.argument_fills ha
  refine hargument.encloses fun q hq => ?_
  rcases List.mem_cons.mp hq with rfl | hq
  · exact ⟨x, y, hexpression, Nat.le_refl x, hy⟩
  · obtain ⟨comma, hmem, rfl⟩ := List.mem_map.mp hq
    obtain ⟨z, hz, hfills⟩ := hcomma comma (Option.mem_toList.mp hmem)
    exact ⟨z, w, hfills, Nat.le_trans hexpression.le hz, Nat.le_refl w⟩

/-! ## Tokens -/

/-- A piece has the tokens of what it is laid out with. -/
theorem Piece.perm_tokens {p : Piece} (hp : ∀ t, p ≠ .token t) : (p.layoutOrder.flatMap tokens).Perm p.tokens := by
  rw [tokens_eq_flatMap hp]
  rcases p.call_or_layoutOrder_eq with ⟨c, rfl⟩ | heq
  · have hcommas := List.flatMap_append_perm c.arguments (·.expression.tokens) (·.comma.toList)
    simp only [layoutOrder, children, List.flatMap_cons, List.flatMap_append, List.flatMap_map, tokens,
      List.flatMap_singleton', List.filterMap_eq_flatMap_toList]
    rw [← List.append_assoc (c.arguments.flatMap _)]
    exact ((hcommas.append_right _).append_left _).append_left _
  · rw [heq]

theorem Consecutive.exists_tiles {o o' : Nat} {ps : List Piece}
    (h : Consecutive (fun a q b => ∃ ts, ts.Perm q.tokens ∧ Tiles a ts b) o ps o') :
    ∃ ts, ts.Perm (ps.flatMap Piece.tokens) ∧ Tiles o ts o' := by
  induction h with
  | nil => exact ⟨[], .nil, rfl⟩
  | cons first _ ih =>
      obtain ⟨ts, hts, htiles⟩ := first
      obtain ⟨us, hus, hlater⟩ := ih
      exact ⟨ts ++ us, hts.append hus, htiles.append hlater⟩

/-- **The tokens of a placed piece are the tiles of its region.** -/
theorem Placed.exists_tiles {o o' : Nat} {p : Piece} (h : Placed o p o') :
    ∃ ts, ts.Perm p.tokens ∧ Tiles o ts o' := by
  induction h using Placed.rule with
  | token kind text o => exact ⟨[_], .refl _, rfl, rfl⟩
  | parts o p o' _ hp _ _ inside =>
      obtain ⟨ts, hts, htiles⟩ := (inside.imp fun ⟨_, h⟩ => h).exists_tiles
      exact ⟨ts, hts.trans (Piece.perm_tokens hp), htiles⟩

/-! ## Laid out trees -/

/-- **Layout tiles the text.** What a step of layout gives, whatever steps were given to it, fills the region
    between the offsets before and after it; no token occurs twice in it; its tokens sorted by position cover the
    region one after the other, with one byte between any two of them; and at every depth, what a piece is written
    with lies within the piece. A string with a wrong number of segments is refused and leaves the offset as it
    is. -/
theorem laidOut_tiles :
    (∀ o p o', LaidOut o p o' → Fills o p o' ∧ p.tokens.Nodup ∧
      Tiles o (p.tokens.mergeSort Token.positionLe) o' ∧ p.Everywhere Piece.Encloses) ∧
    ∀ segments names o, segments.length ≠ names.length + 1 →
      (Layout.interpolated segments names).runAt o = (.error .segmentCount, o) := by
  constructor
  · intro o p o' h
    have hplaced := placed_of_laidOut h
    obtain ⟨ts, hperm, htiles⟩ := hplaced.exists_tiles
    refine ⟨hplaced.fills, hperm.nodup_iff.mp htiles.nodup, ?_, hplaced.everywhere_encloses⟩
    rw [htiles.mergeSort_of_perm hperm.symm]
    exact htiles
  · intro segments names o h
    cases segments with
    | nil => rfl
    | cons first others =>
        have hlength : others.length ≠ names.length := fun heq => h (congrArg (· + 1) heq)
        simp only [Layout.interpolated, if_pos hlength]
        rfl

/-! ## A resource with a call inside -/

open Layout in
/-- The arguments `'a${x}b'` and `[true]`. -/
def mixedArguments : Layout (List Node) :=
  return [← interpolated ["a", "b"] ["x"], ← array (return [← boolean true])]

open Layout in
/-- `resource r 'T@1' existing = { k: f('a${x}b', [true]) }`. -/
def resourceWithCall : Layout ResourceDeclaration :=
  resource [] "r" (string "T@1") true (object (return [← property "k" (.call <$> call "f" mixedArguments)]))

theorem laidOut_mixedArguments {o o' : Nat} {ns : List Node} (h : mixedArguments.runAt o = (.ok ns, o')) :
    Consecutive LaidOut o (ns.map .node) o' := by
  simp only [mixedArguments, Layout.runAt_bind_eq_ok, Layout.runAt_pure_eq_ok] at h
  obtain ⟨text, _, htext, list, _, hlist, rfl, rfl⟩ := h
  refine .cons (.interpolated htext) (.singleton (.array (fun o ns o' h => ?_) hlist))
  simp only [Layout.runAt_bind_eq_ok, Layout.runAt_pure_eq_ok] at h
  obtain ⟨item, _, hitem, rfl, rfl⟩ := h
  exact .singleton (.boolean hitem)

theorem laidOut_resourceWithCall {o o' : Nat} {d : ResourceDeclaration}
    (h : resourceWithCall.runAt o = (.ok d, o')) : LaidOut o (.declaration (.resource d)) o' := by
  refine .resource (fun _ _ _ h => .string h) (fun _ _ _ h => .object (fun o ps o' h => ?_) h) h
  simp only [Layout.runAt_bind_eq_ok, Layout.runAt_pure_eq_ok] at h
  obtain ⟨p, _, hp, rfl, rfl⟩ := h
  refine .singleton (.property (fun o n o' h => ?_) hp)
  obtain ⟨c, hc, rfl⟩ := Layout.runAt_map_eq_ok.mp h
  exact .callNode (.call (fun _ _ _ h => laidOut_mixedArguments h) hc)

/-- The resource fills the first 64 bytes, its tokens tile them, and a string that is refused there lays nothing
    out. -/
theorem tiles_of_resourceWithCall :
    (∃ d, resourceWithCall.runAt 0 = (.ok d, 64) ∧ LaidOut 0 (.declaration (.resource d)) 64 ∧
      Fills 0 (.declaration (.resource d)) 64 ∧ (Declaration.resource d).tokens.Nodup ∧
      Tiles 0 ((Declaration.resource d).tokens.mergeSort Token.positionLe) 64 ∧
      (Piece.declaration (.resource d)).Everywhere Piece.Encloses) ∧
    ["a"].length ≠ ["x"].length + 1 ∧ (Layout.interpolated ["a"] ["x"]).runAt 64 = (.error .segmentCount, 64) := by
  obtain ⟨htiles, hrefused⟩ := laidOut_tiles
  obtain ⟨d, hrun⟩ : ∃ d, resourceWithCall.runAt 0 = (.ok d, 64) := ⟨_, rfl⟩
  have hlaidOut := laidOut_resourceWithCall hrun
  exact ⟨⟨d, hrun, hlaidOut, htiles _ _ _ hlaidOut⟩, by decide, hrefused _ _ _ (by decide)⟩

end ResourceLang.Syntax
