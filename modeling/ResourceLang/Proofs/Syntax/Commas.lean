import ResourceLang.Proofs.Syntax.Tiling

/-!
# Commas — where laid out trees leave the source order

Layout puts the parts of a piece one after the other in source order, so that regions nest and follow each other
the way they do in a tree that was read from text. Only calls do not keep to it: all their commas come after the
last expression. An argument covers its comma, and hence reaches into every argument after it.

So a laid out tree is in source order exactly if no call in it has a second argument.

* **`Placed.comma_after`** — the comma of an argument comes after the expressions of all later ones.
* **`inSourceOrder_iff`** — laid out trees in source order, and what holds of the regions in all others.
-/

namespace ResourceLang.Syntax

/-- Each token starts after all earlier ones and does not reach back into them. -/
def InSourceOrder (ts : List Token) : Prop :=
  ts.Pairwise fun t u => t.span.position < u.span.position ∧ t.span.stop ≤ u.span.position

namespace Piece

/-- If the piece is a call, it has at most one argument. -/
def SingleArgument : Piece → Prop
  | call c => c.arguments.length ≤ 1
  | _ => True

/-- The region of `a` starts before that of `b` and ends after `b` has started. -/
def ReachesInto (a b : Piece) : Prop :=
  ∃ s s', a.span = .ok s ∧ b.span = .ok s' ∧ s.position < s'.position ∧ s'.position < s.stop

end Piece

/-! ## Calls with several arguments -/

/-- **The comma of an argument comes after the expressions of all later ones.** -/
theorem Placed.comma_after {o o' : Nat} {c : Call} (h : Placed o (.call c) o') :
    c.arguments.Pairwise fun a b => ∃ comma x y x' y', a.comma = some comma ∧ Placed x (.node a.expression) y ∧
      Placed x' (.node b.expression) y' ∧ y ≤ x' ∧ y' ≤ comma.span.position := by
  obtain ⟨o₁, o₂, o₃, -, hexpressions, hcommas, -⟩ := h.call_parts
  have hordered := List.pairwise_map.mp (hexpressions.pairwise Placed.le)
  refine (hordered.and h.separated.comma).imp_of_mem fun {a b} ha _ hab => ?_
  obtain ⟨⟨x, y, x', y', hx, hx', hle, hlast⟩, hcomma⟩ := hab
  obtain ⟨comma, hcomma⟩ := Option.isSome_iff_exists.mp hcomma
  obtain ⟨z, _, hz, hfirst, -⟩ := Placed.comma_within ha hcomma hcommas
  obtain ⟨_, ⟨⟩, rfl, -⟩ := hz.fills
  exact ⟨comma, x, y, x', y', hcomma, hx, hx', hle, Nat.le_trans hlast hfirst⟩

/-- Each argument of a call reaches into all later ones. -/
theorem Placed.reachesInto {o o' : Nat} {c : Call} (h : Placed o (.call c) o') :
    c.arguments.Pairwise fun a b => (Piece.argument a).ReachesInto (.argument b) := by
  refine h.comma_after.imp_of_mem fun {a b} ha hb hab => ?_
  obtain ⟨comma, x, y, x', y', hcomma, hx, hx', hle, hlast⟩ := hab
  obtain ⟨_, _, w, hexpression, ⟨s, hs, hposition, hstop⟩, -, -, -, hends⟩ := h.argument_fills ha
  obtain ⟨rfl, rfl⟩ := hx.fills.unique hexpression
  obtain ⟨_, -, hfills⟩ := hends comma hcomma
  obtain ⟨_, _, _, hexpression', ⟨s', hs', hposition', -⟩, -⟩ := h.argument_fills hb
  obtain ⟨rfl, rfl⟩ := hx'.fills.unique hexpression'
  have hlt := hx.fills.lt
  have hlt' := hx'.fills.lt
  have hltcomma := hfills.lt
  obtain ⟨_, ⟨⟩, rfl, -⟩ := hfills
  refine ⟨s, s', hs, hs', ?_, ?_⟩ <;> omega

theorem Placed.exists_token {o o' : Nat} {p : Piece} (h : Placed o p o') :
    ∃ t ∈ p.tokens, t.span.position = o := by
  obtain ⟨ts, hperm, htiles⟩ := h.exists_tiles
  cases ts with
  | nil => exact absurd htiles (Nat.ne_of_lt h.fills.lt)
  | cons t ts => exact ⟨t, hperm.mem_iff.mp List.mem_cons_self, congrArg Span.position htiles.1⟩

/-- A call in source order has at most one argument. -/
theorem Placed.length_le_one {o o' : Nat} {c : Call} (h : Placed o (.call c) o')
    (hordered : InSourceOrder c.tokens) : c.arguments.length ≤ 1 := by
  have hbetween : c.arguments.Pairwise fun a b => ∀ t ∈ (Piece.argument a).tokens,
      ∀ u ∈ (Piece.argument b).tokens, t.span.position < u.span.position ∧ t.span.stop ≤ u.span.position := by
    have hchildren : InSourceOrder ((Piece.call c).children.flatMap Piece.tokens) :=
      Piece.tokens_eq_flatMap (p := .call c) nofun ▸ hordered
    have hpairs := (List.pairwise_flatMap.mp hchildren).2
    have harguments := (List.pairwise_cons.mp (List.pairwise_cons.mp hpairs).2).2
    exact List.pairwise_map.mp (List.pairwise_append.mp harguments).1
  have hnone : c.arguments.Pairwise fun _ _ => False := by
    refine (hbetween.and h.comma_after).imp fun {a b} hab => ?_
    obtain ⟨hab, comma, _, _, x', y', hcomma, -, hx', -, hlast⟩ := hab
    obtain ⟨u, hu, rfl⟩ := hx'.exists_token
    have hcomma_mem : comma ∈ (Piece.argument a).tokens :=
      List.mem_append_right _ (Option.mem_toList.mpr hcomma)
    have hlt := (hab comma hcomma_mem u (List.mem_append_left _ hu)).1
    have hlt' := hx'.fills.lt
    omega
  by_contra hlength
  exact List.pairwise_iff_getElem.mp hnone 0 1 (by omega) (by omega) (by omega)

/-! ## Calls with one argument -/

/-- Without a second argument, the children of a piece fill its region one after the other. -/
theorem Placed.children_consecutive {o o' : Nat} {p : Piece} (hp : ∀ t, p ≠ .token t) (h : Placed o p o')
    (hsingle : p.SingleArgument) : Consecutive Fills o p.children o' := by
  have hparts := (h.layoutOrder hp).imp Placed.fills
  rcases p.call_or_layoutOrder_eq with ⟨⟨name, opening, arguments, closing⟩, rfl⟩ | heq
  · match arguments, hsingle with
    | [], _ => exact hparts
    | [⟨expression, none⟩], _ =>
        have hspan : (Piece.argument ⟨expression, none⟩).span = expression.span := bind_pure expression.span
        match hparts with
        | .cons hname (.cons hopening (.cons ⟨s, hs, hends⟩ hclosing)) =>
            exact .cons hname (.cons hopening (.cons ⟨s, hspan.trans hs, hends⟩ hclosing))
    | [⟨expression, some comma⟩], _ => exact nomatch h.separated.last _ rfl
  · exact heq ▸ hparts

/-- Without a second argument, a piece is laid out with its tokens in source order. -/
theorem Piece.tokens_layoutOrder {p : Piece} (hp : ∀ t, p ≠ token t) (hsingle : p.SingleArgument) :
    p.layoutOrder.flatMap tokens = p.tokens := by
  rw [tokens_eq_flatMap hp]
  rcases p.call_or_layoutOrder_eq with ⟨⟨name, opening, arguments, closing⟩, rfl⟩ | heq
  · match arguments, hsingle with
    | [], _ => rfl
    | [⟨expression, none⟩], _ => simp [layoutOrder, children, tokens]
    | [⟨expression, some comma⟩], _ => simp [layoutOrder, children, tokens]
  · rw [heq]

theorem Tiles.of_consecutive {o o' : Nat} {ps : List Piece}
    (h : Consecutive (fun a q b => Tiles a q.tokens b) o ps o') : Tiles o (ps.flatMap Piece.tokens) o' := by
  induction h with
  | nil => rfl
  | cons first _ ih => exact first.append ih

/-- Without a call that has a second argument, the tokens of a placed piece tile its region in source order. -/
theorem Placed.tiles_of_singleArgument {o o' : Nat} {p : Piece} (h : Placed o p o')
    (hsingle : p.Everywhere Piece.SingleArgument) : Tiles o p.tokens o' := by
  induction h using Placed.rule with
  | token kind text o => exact ⟨rfl, rfl⟩
  | parts o p o' _ hp _ _ inside =>
      rw [← Piece.tokens_layoutOrder hp hsingle.here]
      refine Tiles.of_consecutive (inside.imp_of_mem fun hq h => ?_)
      obtain ⟨-, h⟩ := h
      exact h (hsingle.of_mem_layoutOrder hq)

/-- Without a second argument, the children of a piece follow each other. -/
theorem Placed.children_follow {o o' : Nat} {p : Piece} (h : Placed o p o') (hsingle : p.SingleArgument) :
    p.children.Pairwise Piece.Precedes := by
  by_cases htoken : ∃ t, p = .token t
  · obtain ⟨t, rfl⟩ := htoken
    exact .nil
  · refine ((h.children_consecutive (not_exists.mp htoken) hsingle).pairwise Fills.le).imp fun hab => ?_
    obtain ⟨_, _, _, _, ha, hb, hle, -⟩ := hab
    exact ha.precedes hb hle

/-- The comma of an argument follows its expression. -/
theorem Placed.argument_follow {o o' : Nat} {c : Call} (h : Placed o (.call c) o') {a : Argument}
    (ha : a ∈ c.arguments) : (Piece.argument a).children.Pairwise Piece.Precedes := by
  obtain ⟨_, _, _, hexpression, -, -, -, -, hends⟩ := h.argument_fills ha
  refine .cons (fun q hq => ?_) (List.pairwise_map.mpr ?_)
  · obtain ⟨comma, hcomma, rfl⟩ := List.mem_map.mp hq
    obtain ⟨_, hle, hfills⟩ := hends comma (Option.mem_toList.mp hcomma)
    exact hexpression.precedes hfills hle
  · cases a.comma with
    | none => exact .nil
    | some comma => exact List.pairwise_singleton _ comma

/-! ## Laid out trees in source order -/

/-- An order of all tokens of a piece is one of the tokens of whatever it is written with. -/
theorem Piece.Everywhere.of_inSourceOrder {P : Piece → Prop} {p : Piece}
    (h : p.Everywhere fun q => InSourceOrder q.tokens → P q) (hordered : InSourceOrder p.tokens) :
    p.Everywhere P := by
  induction h with
  | @intro p here _ ih =>
      refine .intro (here hordered) fun c hc => ih c hc ?_
      rw [InSourceOrder, tokens_eq_flatMap (ne_token_of_mem_children hc), List.pairwise_flatMap] at hordered
      exact hordered.1 c hc

/-- The tokens of a placed piece are in source order exactly if no call in it has a second argument. -/
theorem Placed.inSourceOrder_iff_singleArgument {o o' : Nat} {p : Piece} (h : Placed o p o') :
    InSourceOrder p.tokens ↔ p.Everywhere Piece.SingleArgument := by
  constructor
  · refine Piece.Everywhere.of_inSourceOrder (h.everywhere (fun {_ q _} hq => ?_) ?_)
    · cases q with
      | call c => exact hq.length_le_one
      | _ => exact fun _ => trivial
    · exact fun _ _ _ _ => trivial
  · intro hsingle
    refine (h.tiles_of_singleArgument hsingle).pairwise.imp fun {t u} hlt => ?_
    rw [Span.stop] at hlt ⊢
    omega

/-- **Laid out trees in source order.** The tokens of a laid out tree are in source order exactly if no call in it
    has a second argument. The children of every piece but such a call follow each other in any case, and in such a
    call each argument reaches into all later ones. -/
theorem inSourceOrder_iff {o o' : Nat} {p : Piece} (h : LaidOut o p o') :
    (InSourceOrder p.tokens ↔ p.Everywhere Piece.SingleArgument) ∧
      (p.Everywhere fun q => q.SingleArgument → q.children.Pairwise Piece.Precedes) ∧
      p.Everywhere fun q => ∀ c, q = .call c →
        c.arguments.Pairwise fun a b => (Piece.argument a).ReachesInto (.argument b) := by
  have hplaced := placed_of_laidOut h
  refine ⟨hplaced.inSourceOrder_iff_singleArgument, ?_, ?_⟩
  · exact hplaced.everywhere Placed.children_follow fun hc a ha _ => hc.argument_follow ha
  · refine hplaced.everywhere ?_ ?_
    · rintro _ _ _ hq c rfl
      exact hq.reachesInto
    · rintro _ _ _ _ _ _ _ ⟨⟩

open Layout in
/-- `@allowed(['a', 'b'])`, where the only call has one argument. -/
def allowedDecorator : Layout Node :=
  decorator "allowed" (return [← array (return [← string "a", ← string "b"])])

theorem laidOut_allowedDecorator {o o' : Nat} {n : Node} (h : allowedDecorator.runAt o = (.ok n, o')) :
    LaidOut o (.node n) o' := by
  refine .decorator (fun o ns o' h => ?_) h
  simp only [Layout.runAt_bind_eq_ok, Layout.runAt_pure_eq_ok] at h
  obtain ⟨list, _, hlist, rfl, rfl⟩ := h
  refine .singleton (.array (fun o ns o' h => ?_) hlist)
  simp only [Layout.runAt_bind_eq_ok, Layout.runAt_pure_eq_ok] at h
  obtain ⟨a, _, ha, b, _, hb, rfl, rfl⟩ := h
  exact .cons (.string ha) (.singleton (.string hb))

/-- The decorator is in source order, so no call in it has a second argument, and what it is written with follows
    each other. -/
theorem inSourceOrder_allowedDecorator :
    ∃ n, allowedDecorator.runAt 7 = (.ok n, 33) ∧ LaidOut 7 (.node n) 33 ∧ InSourceOrder n.tokens ∧
      (Piece.node n).Everywhere Piece.SingleArgument ∧ (Piece.node n).children.Pairwise Piece.Precedes := by
  obtain ⟨n, hrun, hordered⟩ : ∃ n, allowedDecorator.runAt 7 = (.ok n, 33) ∧ InSourceOrder n.tokens := by
    refine ⟨_, rfl, ?_⟩
    unfold InSourceOrder
    decide
  have hlaidOut := laidOut_allowedDecorator hrun
  obtain ⟨hiff, hfollow, -⟩ := inSourceOrder_iff hlaidOut
  have hsingle := hiff.mp hordered
  exact ⟨n, hrun, hlaidOut, hordered, hsingle, hfollow.here hsingle.here⟩

open Layout in
/-- The call `range(1, 2)`. -/
def rangeCall : Layout Call := call "range" (return [← integer 1, ← integer 2])

theorem laidOut_rangeCall {o o' : Nat} {c : Call} (h : rangeCall.runAt o = (.ok c, o')) :
    LaidOut o (.call c) o' := by
  refine .call (fun o ns o' h => ?_) h
  simp only [Layout.runAt_bind_eq_ok, Layout.runAt_pure_eq_ok] at h
  obtain ⟨first, _, hfirst, second, _, hsecond, rfl, rfl⟩ := h
  exact .cons (.integer hfirst) (.singleton (.integer hsecond))

/-- The comma of the call comes after the second number, and the first argument covers the second one. -/
theorem not_inSourceOrder_rangeCall :
    ∃ c, rangeCall.runAt 0 = (.ok c, 16) ∧ LaidOut 0 (.call c) 16 ∧ ¬ InSourceOrder c.tokens ∧
      ¬ (c.arguments.map Piece.argument).Pairwise Piece.Precedes := by
  refine ⟨_, rfl, laidOut_rangeCall rfl, ?_, fun hfollow => ?_⟩
  · unfold InSourceOrder
    decide
  · have hprecedes := (List.pairwise_cons.mp hfollow).1 _ List.mem_cons_self
    have hle : (⟨8, 5⟩ : Span).stop ≤ (⟨10, 1⟩ : Span).position := hprecedes.of_spans rfl rfl
    exact absurd hle (by decide)

end ResourceLang.Syntax
