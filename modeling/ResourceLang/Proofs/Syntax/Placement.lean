import ResourceLang.Proofs.Syntax.Pieces

/-!
# Placement — where layout puts the pieces of a tree

A layout step puts tokens one after the other, and most pieces are laid out child by child, in the order in which
the children stand in the source. Only a call is not: all its expressions come before the first of its commas.
`Placed` says just that of a piece and of the offsets before and after it. It does not mention steps, and what is
known of laid out trees follows from it.

A tree is laid out by steps within steps: what stands between brackets, braces and parentheses, and the values of
properties and declarations, is laid out by steps that the caller gives. `LaidOut` are the results of steps nested
in this way. A given step may do as it likes, and what it lays out next can depend on what it has laid out
before, as long as it gives all of it in order.

* **`placed_of_laidOut`** — what was laid out is placed between the offsets before and after the step.
-/

namespace ResourceLang.Syntax

/-! ## Runs of steps -/

namespace Layout

variable {α β : Type} {o o' : Nat}

/-- A step followed by another one: the second starts where the first one has stopped. -/
theorem runAt_bind_eq_ok {x : Layout α} {f : α → Layout β} {b : β} :
    (x >>= f).runAt o = (.ok b, o') ↔ ∃ a o₁, x.runAt o = (.ok a, o₁) ∧ (f a).runAt o₁ = (.ok b, o') := by
  have hbind : (x >>= f).runAt o = match x.runAt o with
      | (.ok a, o₁) => (f a).runAt o₁
      | (.error e, o₁) => (.error e, o₁) := by
    unfold runAt ExceptT.run StateT.run
    simp only [bind, ExceptT.bind, ExceptT.mk, StateT.bind, ExceptT.bindCont]
    cases x o with
    | mk outcome next => cases outcome <;> rfl
  rw [hbind]
  cases x.runAt o with
  | mk outcome next =>
      cases outcome with
      | ok a =>
          constructor
          · intro h
            exact ⟨a, next, rfl, h⟩
          · rintro ⟨_, _, ⟨⟩, h⟩
            exact h
      | error e =>
          constructor
          · intro h
            exact nomatch h
          · rintro ⟨_, _, ⟨⟩, _⟩

theorem runAt_pure_eq_ok {a b : α} : (pure a : Layout α).runAt o = (.ok b, o') ↔ a = b ∧ o = o' := by
  show (Except.ok a, o) = (Except.ok b, o') ↔ _
  rw [Prod.mk.injEq, Except.ok.injEq]

theorem runAt_map_eq_ok {x : Layout α} {f : α → β} {b : β} :
    (f <$> x).runAt o = (.ok b, o') ↔ ∃ a, x.runAt o = (.ok a, o') ∧ f a = b := by
  rw [map_eq_pure_bind, runAt_bind_eq_ok]
  simp only [runAt_pure_eq_ok]
  constructor
  · rintro ⟨a, _, h, hb, rfl⟩
    exact ⟨a, h, hb⟩
  · rintro ⟨a, h, hb⟩
    exact ⟨a, o', h, hb, rfl⟩

theorem runAt_ofExcept_eq_ok {outcome : Except ShapeFault α} {a : α} :
    (ofExcept outcome).runAt o = (.ok a, o') ↔ outcome = .ok a ∧ o = o' := by
  show (outcome, o) = (Except.ok a, o') ↔ _
  rw [Prod.mk.injEq]

end Layout

/-! ## Placed pieces -/

/-- Pieces one after the other, each starting at the offset that the one before has reached. -/
inductive Consecutive (P : Nat → Piece → Nat → Prop) : Nat → List Piece → Nat → Prop where
  | nil {o : Nat} : Consecutive P o [] o
  | cons {o o₁ o' : Nat} {p : Piece} {ps : List Piece} (first : P o p o₁) (later : Consecutive P o₁ ps o') :
      Consecutive P o (p :: ps) o'

/-- The arguments pass their checks, and all but the last have a comma. -/
structure Separated (as : List Argument) : Prop where
  checked : ∀ a ∈ as, (Piece.argument a).Checked
  comma : as.Pairwise fun a _ => a.comma.isSome
  last : ∀ a ∈ as.getLast?, a.comma = none

namespace Piece

/-- What a piece is written with, in the order in which it is laid out: in a call, the commas come after all
    expressions. -/
def layoutOrder : Piece → List Piece
  | call c => node (.identifier c.name) :: token c.opening :: (c.arguments.map (node ·.expression) ++
      ((c.arguments.filterMap Argument.comma).map token ++ [token c.closing]))
  | p => p.children

/-- If the piece is a call, commas separate its arguments. -/
def CallSeparated : Piece → Prop
  | call c => Separated c.arguments
  | _ => True

end Piece

/-- The piece has been laid out from the first offset to the second one. -/
inductive Placed : Nat → Piece → Nat → Prop where
  | token (kind : TokenKind) (text : String) (o : Nat) :
      Placed o (.token ⟨kind, text, ⟨o, text.utf8ByteSize⟩⟩) (o + text.utf8ByteSize + 1)
  | parts {o o' : Nat} {p : Piece} (hp : ∀ t, p ≠ .token t) (regular : p.Regular) (separated : p.CallSeparated)
      (inside : Consecutive Placed o p.layoutOrder o') : Placed o p o'

/-! ## Results of nested steps -/

/-- The piece is the result of a step of `Layout` that went from the first offset to the second one, and the steps
    given to that step lay out what they give in order. -/
inductive LaidOut : Nat → Piece → Nat → Prop where
  | token {kind : TokenKind} {text : String} {o t o'} (h : (Layout.token kind text).runAt o = (.ok t, o')) :
      LaidOut o (.token t) o'
  | bareToken {kind : TokenKind} {text : String} {o t o'}
      (h : (Layout.token kind text).runAt o = (.ok t, o')) : LaidOut o (.node (.token t)) o'
  | newline {o n o'} (h : Layout.newline.runAt o = (.ok n, o')) : LaidOut o (.node n) o'
  | assignment {o n o'} (h : Layout.assignment.runAt o = (.ok n, o')) : LaidOut o (.node n) o'
  | identifier {name : String} {o i o'} (h : (Layout.identifier name).runAt o = (.ok i, o')) :
      LaidOut o (.node (.identifier i)) o'
  | typeName {name : String} {o n o'} (h : (Layout.typeName name).runAt o = (.ok n, o')) : LaidOut o (.node n) o'
  | access {name : String} {o n o'} (h : (Layout.access name).runAt o = (.ok n, o')) : LaidOut o (.node n) o'
  | integer {value : UInt64} {o n o'} (h : (Layout.integer value).runAt o = (.ok n, o')) : LaidOut o (.node n) o'
  | boolean {value : Bool} {o n o'} (h : (Layout.boolean value).runAt o = (.ok n, o')) : LaidOut o (.node n) o'
  | null {o n o'} (h : Layout.null.runAt o = (.ok n, o')) : LaidOut o (.node n) o'
  | skipped {text : String} {o n o'} (h : (Layout.skipped text).runAt o = (.ok n, o')) : LaidOut o (.node n) o'
  | string {value : String} {o n o'} (h : (Layout.string value).runAt o = (.ok n, o')) : LaidOut o (.node n) o'
  | interpolated {segments names : List String} {o n o'}
      (h : (Layout.interpolated segments names).runAt o = (.ok n, o')) : LaidOut o (.node n) o'
  | array {items : Layout (List Node)} {o n o'}
      (inside : ∀ o ns o', items.runAt o = (.ok ns, o') → Consecutive LaidOut o (ns.map .node) o')
      (h : (Layout.array items).runAt o = (.ok n, o')) : LaidOut o (.node n) o'
  | property {key : String} {value : Layout Node} {o p o'}
      (inside : ∀ o n o', value.runAt o = (.ok n, o') → LaidOut o (.node n) o')
      (h : (Layout.property key value).runAt o = (.ok p, o')) : LaidOut o (.property p) o'
  | object {properties : Layout (List PropertyAssignment)} {o n o'}
      (inside : ∀ o ps o', properties.runAt o = (.ok ps, o') → Consecutive LaidOut o (ps.map .property) o')
      (h : (Layout.object properties).runAt o = (.ok n, o')) : LaidOut o (.node n) o'
  | call {name : String} {arguments : Layout (List Node)} {o c o'}
      (inside : ∀ o ns o', arguments.runAt o = (.ok ns, o') → Consecutive LaidOut o (ns.map .node) o')
      (h : (Layout.call name arguments).runAt o = (.ok c, o')) : LaidOut o (.call c) o'
  | callNode {o c o'} (h : LaidOut o (.call c) o') : LaidOut o (.node (.call c)) o'
  | decorator {name : String} {arguments : Layout (List Node)} {o n o'}
      (inside : ∀ o ns o', arguments.runAt o = (.ok ns, o') → Consecutive LaidOut o (ns.map .node) o')
      (h : (Layout.decorator name arguments).runAt o = (.ok n, o')) : LaidOut o (.node n) o'
  | resource {leading : List Node} {name : String} {type : Layout Node} {existing : Bool} {body : Layout Node}
      {o d o'} (insideType : ∀ o n o', type.runAt o = (.ok n, o') → LaidOut o (.node n) o')
      (insideBody : ∀ o n o', body.runAt o = (.ok n, o') → LaidOut o (.node n) o')
      (h : (Layout.resource leading name type existing body).runAt o = (.ok d, o')) :
      LaidOut o (.declaration (.resource d)) o'
  | output {leading : List Node} {name type : String} {value : Layout Node} {o d o'}
      (inside : ∀ o n o', value.runAt o = (.ok n, o') → LaidOut o (.node n) o')
      (h : (Layout.output leading name type value).runAt o = (.ok d, o')) :
      LaidOut o (.declaration (.output d)) o'
  | parameter {leading : List Node} {name type : String} {o d o'}
      (h : (Layout.parameter leading name type).runAt o = (.ok d, o')) :
      LaidOut o (.declaration (.parameter d)) o'
  | parameterWithDefault {leading : List Node} {name type : String} {value : Layout Node} {o d o'}
      (inside : ∀ o n o', value.runAt o = (.ok n, o') → LaidOut o (.node n) o')
      (h : (Layout.parameterWithDefault leading name type value).runAt o = (.ok d, o')) :
      LaidOut o (.declaration (.parameter d)) o'

/-! ## Consecutive pieces -/

namespace Consecutive

variable {P Q : Nat → Piece → Nat → Prop} {o o₁ o' : Nat} {p : Piece} {ps qs : List Piece}

theorem singleton (h : P o p o') : Consecutive P o [p] o' := .cons h .nil

theorem append (hps : Consecutive P o ps o₁) (hqs : Consecutive P o₁ qs o') : Consecutive P o (ps ++ qs) o' := by
  induction hps with
  | nil => exact hqs
  | cons first _ ih => exact .cons first (ih hqs)

theorem append_iff : Consecutive P o (ps ++ qs) o' ↔ ∃ o₁, Consecutive P o ps o₁ ∧ Consecutive P o₁ qs o' := by
  constructor
  · intro h
    induction ps generalizing o with
    | nil => exact ⟨o, .nil, h⟩
    | cons p ps ih =>
        cases h with
        | cons first later =>
            obtain ⟨o₁, hps, hqs⟩ := ih later
            exact ⟨o₁, .cons first hps, hqs⟩
  · rintro ⟨o₁, hps, hqs⟩
    exact hps.append hqs

theorem imp_of_mem (himp : ∀ {a q b}, q ∈ ps → P a q b → Q a q b) (h : Consecutive P o ps o') :
    Consecutive Q o ps o' := by
  induction h with
  | nil => exact .nil
  | cons first _ ih =>
      exact .cons (himp List.mem_cons_self first) (ih fun hq => himp (List.mem_cons_of_mem _ hq))

theorem imp (himp : ∀ {a q b}, P a q b → Q a q b) (h : Consecutive P o ps o') : Consecutive Q o ps o' :=
  h.imp_of_mem fun _ => himp

theorem last (h : Consecutive P o ps o') (hp : ps.getLast? = some p) : ∃ a, P a p o' := by
  induction h with
  | nil => exact nomatch hp
  | @cons _ _ _ first ps hfirst hlater ih =>
      cases hlater with
      | nil =>
          obtain rfl := Option.some.inj hp
          exact ⟨_, hfirst⟩
      | cons => exact ih (List.getLast?_cons_cons ▸ hp)

theorem exists_of_mem (h : Consecutive P o ps o') (hp : p ∈ ps) : ∃ a b, P a p b := by
  induction h with
  | nil => exact nomatch hp
  | cons first _ ih =>
      rcases List.mem_cons.mp hp with rfl | hp
      · exact ⟨_, _, first⟩
      · exact ih hp

section Ascending

variable (hP : ∀ {a q b}, P a q b → a ≤ b)
include hP

theorem le (h : Consecutive P o ps o') : o ≤ o' := by
  induction h with
  | nil => exact Nat.le_refl _
  | cons first _ ih => exact Nat.le_trans (hP first) ih

theorem head (h : Consecutive P o ps o') (hp : ps.head? = some p) : ∃ b, P o p b ∧ b ≤ o' := by
  cases h with
  | nil => exact nomatch hp
  | cons first later =>
      obtain rfl := Option.some.inj hp
      exact ⟨_, first, later.le hP⟩

/-- Each piece lies between the two offsets. -/
theorem within (h : Consecutive P o ps o') (hp : p ∈ ps) : ∃ a b, P a p b ∧ o ≤ a ∧ b ≤ o' := by
  induction h with
  | nil => exact nomatch hp
  | cons first later ih =>
      rcases List.mem_cons.mp hp with rfl | hp
      · exact ⟨_, _, first, Nat.le_refl _, later.le hP⟩
      · obtain ⟨a, b, hab, ha, hb⟩ := ih hp
        exact ⟨a, b, hab, Nat.le_trans (hP first) ha, hb⟩

/-- Of any two pieces, the second starts where the first has stopped or later. -/
theorem pairwise (h : Consecutive P o ps o') :
    ps.Pairwise fun p q => ∃ a b a' b', P a p b ∧ P a' q b' ∧ b ≤ a' ∧ b' ≤ o' := by
  induction h with
  | nil => exact .nil
  | cons first later ih =>
      refine .cons (fun q hq => ?_) ih
      obtain ⟨a', b', hab, ha, hb⟩ := later.within hP hq
      exact ⟨_, _, a', b', first, hab, ha, hb⟩

end Ascending

end Consecutive

/-! ## Induction over placed pieces -/

mutual

/-- Induction over placed pieces: the claim is known of all that a piece is laid out with. -/
theorem Placed.rule {motive : (o : Nat) → (p : Piece) → (o' : Nat) → Placed o p o' → Prop}
    (token : ∀ kind text o, motive o (.token ⟨kind, text, ⟨o, text.utf8ByteSize⟩⟩) (o + text.utf8ByteSize + 1)
      (.token kind text o))
    (parts : ∀ o p o' (h : Placed o p o'), (∀ t, p ≠ .token t) → p.Regular → p.CallSeparated →
      Consecutive (fun a q b => ∃ h, motive a q b h) o p.layoutOrder o' → motive o p o' h) :
    ∀ {o p o'} (h : Placed o p o'), motive o p o' h
  | _, _, _, .token kind text o => token kind text o
  | _, _, _, .parts hp regular separated inside =>
    parts _ _ _ _ hp regular separated (Placed.rule_consecutive token parts inside)

theorem Placed.rule_consecutive {motive : (o : Nat) → (p : Piece) → (o' : Nat) → Placed o p o' → Prop}
    (token : ∀ kind text o, motive o (.token ⟨kind, text, ⟨o, text.utf8ByteSize⟩⟩) (o + text.utf8ByteSize + 1)
      (.token kind text o))
    (parts : ∀ o p o' (h : Placed o p o'), (∀ t, p ≠ .token t) → p.Regular → p.CallSeparated →
      Consecutive (fun a q b => ∃ h, motive a q b h) o p.layoutOrder o' → motive o p o' h) :
    ∀ {o ps o'}, Consecutive Placed o ps o' → Consecutive (fun a q b => ∃ h, motive a q b h) o ps o'
  | _, _, _, .nil => .nil
  | _, _, _, .cons first later =>
    .cons ⟨first, Placed.rule token parts first⟩ (Placed.rule_consecutive token parts later)

end

namespace Piece

/-- All pieces but calls are laid out child by child. -/
theorem call_or_layoutOrder_eq (p : Piece) : (∃ c, p = call c) ∨ p.layoutOrder = p.children := by
  cases p with
  | call c => exact .inl ⟨c, rfl⟩
  | _ => exact .inr rfl

/-- What a call is written with is laid out, except for the arguments, of which the parts are laid out. -/
theorem mem_children_call {c : Call} {q : Piece} (hq : q ∈ (call c).children) :
    q ∈ (call c).layoutOrder ∨ ∃ a ∈ c.arguments, q = argument a := by
  simp only [children, layoutOrder, List.mem_cons, List.mem_append, List.mem_map] at hq ⊢
  rcases hq with rfl | rfl | ⟨a, ha, rfl⟩ | hq
  · exact .inl (.inl rfl)
  · exact .inl (.inr (.inl rfl))
  · exact .inr ⟨a, ha, rfl⟩
  · exact .inl (.inr (.inr (.inr (.inr hq))))

/-- What a piece is laid out with is part of it, be it a child or a part of an argument. -/
theorem Everywhere.of_mem_layoutOrder {P : Piece → Prop} {p q : Piece} (h : p.Everywhere P)
    (hq : q ∈ p.layoutOrder) : q.Everywhere P := by
  rcases p.call_or_layoutOrder_eq with ⟨c, rfl⟩ | heq
  · have hargument : ∀ a ∈ c.arguments, (argument a).Everywhere P := fun a ha =>
      h.child (List.mem_cons_of_mem _ (List.mem_cons_of_mem _ (List.mem_append_left _ (List.mem_map_of_mem ha))))
    simp only [layoutOrder, List.mem_cons, List.mem_append, List.mem_map, List.mem_filterMap] at hq
    rcases hq with rfl | rfl | ⟨a, ha, rfl⟩ | ⟨comma, ⟨a, ha, hcomma⟩, rfl⟩ | hq
    · exact h.child List.mem_cons_self
    · exact h.child (List.mem_cons_of_mem _ List.mem_cons_self)
    · exact (hargument a ha).child List.mem_cons_self
    · exact (hargument a ha).child (List.mem_cons_of_mem _ (List.mem_map_of_mem (Option.mem_toList.mpr hcomma)))
    · have hclosing : q ∈ [token c.closing] := List.mem_cons.mpr hq
      exact h.child (List.mem_cons_of_mem _ (List.mem_cons_of_mem _ (List.mem_append_right _ hclosing)))
  · rw [heq] at hq
    exact h.child hq

theorem expression_mem_layoutOrder {c : Call} {a : Argument} (ha : a ∈ c.arguments) :
    node a.expression ∈ (call c).layoutOrder := by
  refine List.mem_cons_of_mem _ (List.mem_cons_of_mem _ (List.mem_append_left _ ?_))
  exact List.mem_map_of_mem ha

theorem comma_mem_layoutOrder {c : Call} {a : Argument} {comma : Token} (ha : a ∈ c.arguments)
    (hcomma : a.comma = some comma) : token comma ∈ (call c).layoutOrder := by
  refine List.mem_cons_of_mem _ (List.mem_cons_of_mem _ (List.mem_append_right _ (List.mem_append_left _ ?_)))
  exact List.mem_map_of_mem (List.mem_filterMap.mpr ⟨a, ha, hcomma⟩)

end Piece

theorem Placed.layoutOrder {o o' : Nat} {p : Piece} (hp : ∀ t, p ≠ .token t) (h : Placed o p o') :
    Consecutive Placed o p.layoutOrder o' := by
  cases h with
  | token kind text => exact absurd rfl (hp _)
  | parts _ _ _ inside => exact inside

theorem Placed.separated {o o' : Nat} {c : Call} (h : Placed o (.call c) o') : Separated c.arguments := by
  cases h with
  | parts _ _ separated _ => exact separated

/-- What holds of every placed piece, and of the arguments of every placed call, holds of a placed piece at every
    depth. -/
theorem Placed.everywhere {P : Piece → Prop} (hpiece : ∀ {o p o'}, Placed o p o' → P p)
    (hargument : ∀ {o c o'}, Placed o (.call c) o' → ∀ a ∈ c.arguments, P (.argument a))
    {o o' : Nat} {p : Piece} (h : Placed o p o') : p.Everywhere P := by
  induction h using Placed.rule with
  | token kind text o => exact .of_token (hpiece (.token kind text o))
  | parts o p o' h hp regular separated inside =>
      have hparts : ∀ q ∈ p.layoutOrder, q.Everywhere P := by
        intro q hq
        obtain ⟨_, _, -, hq⟩ := inside.exists_of_mem hq
        exact hq
      refine .intro (hpiece h) fun q hq => ?_
      rcases p.call_or_layoutOrder_eq with ⟨c, rfl⟩ | heq
      · rcases Piece.mem_children_call hq with hq | ⟨a, ha, rfl⟩
        · exact hparts q hq
        · refine .intro (hargument h a ha) fun q hq => ?_
          rcases List.mem_cons.mp hq with rfl | hq
          · exact hparts _ (Piece.expression_mem_layoutOrder ha)
          · obtain ⟨comma, hcomma, rfl⟩ := List.mem_map.mp hq
            exact hparts _ (Piece.comma_mem_layoutOrder ha (Option.mem_toList.mp hcomma))
      · exact hparts q (heq ▸ hq)

/-! ## What each step places

One lemma for each step: it runs the step part by part, and what the parts have placed is what the piece is
laid out with. -/

namespace Layout

variable {o o' : Nat}

theorem placed_token {kind : TokenKind} {text : String} {t : Token} (h : (token kind text).runAt o = (.ok t, o')) :
    Placed o (.token t) o' := by
  cases h
  exact .token kind text o

theorem placed_identifier {name : String} {i : Identifier} (h : (identifier name).runAt o = (.ok i, o')) :
    Placed o (.node (.identifier i)) o' := by
  simp only [identifier, runAt_bind_eq_ok, runAt_ofExcept_eq_ok] at h
  obtain ⟨t, _, ht, hi, rfl⟩ := h
  cases Identifier.eq_of_ofToken hi
  exact .parts nofun ⟨hi, trivial⟩ trivial (.singleton (placed_token ht))

theorem placed_typeName {name : String} {n : Node} (h : (typeName name).runAt o = (.ok n, o')) :
    Placed o (.node n) o' := by
  simp only [typeName, runAt_bind_eq_ok, runAt_ofExcept_eq_ok, runAt_pure_eq_ok] at h
  obtain ⟨t, _, ht, i, _, ⟨hi, rfl⟩, rfl, rfl⟩ := h
  cases TypeName.eq_of_ofToken hi
  exact .parts nofun ⟨hi, trivial⟩ trivial (.singleton (placed_token ht))

theorem placed_bareToken {t : Token} (ht : Placed o (.token t) o') : Placed o (.node (.token t)) o' :=
  .parts nofun ⟨trivial, trivial⟩ trivial (.singleton ht)

theorem placed_newline {n : Node} (h : newline.runAt o = (.ok n, o')) : Placed o (.node n) o' := by
  simp only [newline, runAt_bind_eq_ok, runAt_pure_eq_ok] at h
  obtain ⟨t, _, ht, rfl, rfl⟩ := h
  exact placed_bareToken (placed_token ht)

theorem placed_assignment {n : Node} (h : assignment.runAt o = (.ok n, o')) : Placed o (.node n) o' := by
  simp only [assignment, runAt_bind_eq_ok, runAt_pure_eq_ok] at h
  obtain ⟨t, _, ht, rfl, rfl⟩ := h
  exact placed_bareToken (placed_token ht)

theorem placed_access {name : String} {n : Node} (h : (access name).runAt o = (.ok n, o')) :
    Placed o (.node n) o' := by
  simp only [access, runAt_bind_eq_ok, runAt_pure_eq_ok] at h
  obtain ⟨i, _, hi, rfl, rfl⟩ := h
  exact .parts nofun ⟨trivial, trivial⟩ trivial (.singleton (placed_identifier hi))

theorem placed_integer {value : UInt64} {n : Node} (h : (integer value).runAt o = (.ok n, o')) :
    Placed o (.node n) o' := by
  simp only [integer, runAt_bind_eq_ok, runAt_ofExcept_eq_ok, runAt_pure_eq_ok] at h
  obtain ⟨t, _, ht, i, _, ⟨hi, rfl⟩, rfl, rfl⟩ := h
  cases IntegerLiteral.eq_of_ofParts hi
  exact .parts nofun ⟨hi, trivial⟩ trivial (.singleton (placed_token ht))

theorem placed_boolean {value : Bool} {n : Node} (h : (boolean value).runAt o = (.ok n, o')) :
    Placed o (.node n) o' := by
  have hkeyword : ∃ kind text, (do
      let token ← token kind text
      return Node.boolean (← ofExcept (BooleanLiteral.ofToken token)) : Layout Node).runAt o = (.ok n, o') := by
    cases value with
    | false => exact ⟨.falseKeyword, "false", h⟩
    | true => exact ⟨.trueKeyword, "true", h⟩
  obtain ⟨kind, text, h⟩ := hkeyword
  simp only [runAt_bind_eq_ok, runAt_ofExcept_eq_ok, runAt_pure_eq_ok] at h
  obtain ⟨t, _, ht, b, _, ⟨hb, rfl⟩, rfl, rfl⟩ := h
  cases BooleanLiteral.eq_of_ofToken hb
  exact .parts nofun ⟨hb, trivial⟩ trivial (.singleton (placed_token ht))

theorem placed_null {n : Node} (h : null.runAt o = (.ok n, o')) : Placed o (.node n) o' := by
  simp only [null, runAt_bind_eq_ok, runAt_ofExcept_eq_ok, runAt_pure_eq_ok] at h
  obtain ⟨t, _, ht, l, _, ⟨hl, rfl⟩, rfl, rfl⟩ := h
  cases NullLiteral.eq_of_ofToken hl
  exact .parts nofun ⟨hl, trivial⟩ trivial (.singleton (placed_token ht))

theorem placed_skipped {text : String} {n : Node} (h : (skipped text).runAt o = (.ok n, o')) :
    Placed o (.node n) o' := by
  simp only [skipped, runAt_bind_eq_ok, runAt_pure_eq_ok] at h
  obtain ⟨t, _, ht, rfl, rfl⟩ := h
  refine .parts nofun ⟨trivial, ⟨nofun, ?_, ?_⟩⟩ trivial (.singleton (placed_bareToken (placed_token ht)))
  · rintro _ ⟨⟩ _ ⟨⟩
    rfl
  · rintro _ ⟨⟩ _ ⟨⟩
    rfl

/-! ### Strings -/

theorem placed_string {value : String} {n : Node} (h : (string value).runAt o = (.ok n, o')) :
    Placed o (.node n) o' := by
  simp only [string, runAt_bind_eq_ok, runAt_ofExcept_eq_ok, runAt_pure_eq_ok] at h
  obtain ⟨t, _, ht, s, _, ⟨hs, rfl⟩, rfl, rfl⟩ := h
  obtain ⟨-, -, rfl⟩ := StringLiteral.eq_of_ofParts hs
  exact .parts nofun ⟨hs, trivial⟩ trivial (.singleton (placed_token ht))

/-- After a piece of the string, each variable and the piece after it follow. -/
theorem placed_laterPieces {later : List (String × String)} {o₀ : Nat} {t : Token} {es : List Node}
    {ts : List Token} (ht : Placed o₀ (.token t) o) (h : (laterPieces later).runAt o = (.ok (es, ts), o')) :
    Consecutive Placed o₀ (weave (t :: ts) es) o' := by
  induction later generalizing o₀ o t es ts with
  | nil =>
      simp only [laterPieces, runAt_pure_eq_ok] at h
      obtain ⟨⟨⟩, rfl⟩ := h
      exact .singleton ht
  | cons first later ih =>
      obtain ⟨e, o₁, he, h⟩ := runAt_bind_eq_ok.mp h
      -- whether or not it is the last one, a piece follows
      have hpiece : ∃ kind text, (do
          let piece ← token kind text
          let rest ← laterPieces later
          return (e :: rest.1, piece :: rest.2) : Layout (List Node × List Token)).runAt o₁ =
            (.ok (es, ts), o') := by
        split_ifs at h
        · exact ⟨_, _, h⟩
        · exact ⟨_, _, h⟩
      obtain ⟨kind, text, h⟩ := hpiece
      simp only [runAt_bind_eq_ok, runAt_pure_eq_ok] at h
      obtain ⟨piece, _, hpiece, rest, _, hlater, ⟨⟩, rfl⟩ := h
      exact .cons ht (.cons (placed_access he) (ih (placed_token hpiece) hlater))

theorem placed_interpolated {segments names : List String} {n : Node}
    (h : (interpolated segments names).runAt o = (.ok n, o')) : Placed o (.node n) o' := by
  cases segments with
  | nil => cases h
  | cons first others =>
      have hpiece : ∃ kind text, (do
          let piece ← token kind text
          let rest ← laterPieces (names.zip others)
          return Node.string (← ofExcept (StringLiteral.ofParts (piece :: rest.2) rest.1
            (first :: others))) : Layout Node).runAt o = (.ok n, o') := by
        by_cases hlength : others.length ≠ names.length
        · simp only [interpolated, if_pos hlength] at h
          cases h
        · simp only [interpolated, if_neg hlength] at h
          split_ifs at h
          · exact ⟨_, _, h⟩
          · exact ⟨_, _, h⟩
      obtain ⟨kind, text, h⟩ := hpiece
      simp only [runAt_bind_eq_ok, runAt_ofExcept_eq_ok, runAt_pure_eq_ok] at h
      obtain ⟨piece, _, hpiece, rest, _, hlater, s, _, ⟨hs, rfl⟩, rfl, rfl⟩ := h
      obtain ⟨-, -, rfl⟩ := StringLiteral.eq_of_ofParts hs
      exact .parts nofun ⟨hs, trivial⟩ trivial (placed_laterPieces (placed_token hpiece) hlater)

/-! ### Brackets and braces -/

theorem placed_array {items : Layout (List Node)} {n : Node}
    (hitems : ∀ o ns o', items.runAt o = (.ok ns, o') → Consecutive Placed o (ns.map .node) o')
    (h : (array items).runAt o = (.ok n, o')) : Placed o (.node n) o' := by
  simp only [array, runAt_bind_eq_ok, runAt_ofExcept_eq_ok, runAt_pure_eq_ok] at h
  obtain ⟨opening, _, hopening, ns, _, hns, closing, _, hclosing, a, _, ⟨ha, rfl⟩, rfl, rfl⟩ := h
  cases ArrayLiteral.eq_of_ofParts ha
  refine .parts nofun ⟨ha, trivial⟩ trivial (.cons (placed_token hopening) ?_)
  exact (hitems _ _ _ hns).append (.singleton (placed_token hclosing))

theorem placed_property {key : String} {value : Layout Node} {p : PropertyAssignment}
    (hvalue : ∀ o n o', value.runAt o = (.ok n, o') → Placed o (.node n) o')
    (h : (property key value).runAt o = (.ok p, o')) : Placed o (.property p) o' := by
  simp only [property, runAt_bind_eq_ok, runAt_ofExcept_eq_ok] at h
  obtain ⟨i, _, hi, colon, _, hcolon, n, _, hn, hp, rfl⟩ := h
  cases PropertyAssignment.eq_of_ofParts hp
  exact .parts nofun ⟨hp, trivial⟩ trivial
    (.cons (placed_identifier hi) (.cons (placed_token hcolon) (.singleton (hvalue _ _ _ hn))))

theorem placed_object {properties : Layout (List PropertyAssignment)} {n : Node}
    (hproperties : ∀ o ps o', properties.runAt o = (.ok ps, o') → Consecutive Placed o (ps.map .property) o')
    (h : (object properties).runAt o = (.ok n, o')) : Placed o (.node n) o' := by
  simp only [object, runAt_bind_eq_ok, runAt_ofExcept_eq_ok, runAt_pure_eq_ok] at h
  obtain ⟨opening, _, hopening, ps, _, hps, closing, _, hclosing, l, _, ⟨hl, rfl⟩, rfl, rfl⟩ := h
  cases ObjectLiteral.eq_of_ofParts hl
  refine .parts nofun ⟨hl, trivial⟩ trivial (.cons (placed_token hopening) ?_)
  exact (hproperties _ _ _ hps).append (.singleton (placed_token hclosing))

/-! ### Calls -/

/-- The commas are laid out one after the other, one for each expression but the last. -/
theorem placed_separated {es : List Node} {as : List Argument} (h : (separated es).runAt o = (.ok as, o')) :
    as.map Argument.expression = es ∧ Separated as ∧
      Consecutive Placed o ((as.filterMap Argument.comma).map .token) o' := by
  fun_induction separated es generalizing o as with
  | case1 =>
      simp only [runAt_pure_eq_ok] at h
      obtain ⟨rfl, rfl⟩ := h
      exact ⟨rfl, ⟨nofun, .nil, nofun⟩, .nil⟩
  | case2 last =>
      simp only [runAt_bind_eq_ok, runAt_ofExcept_eq_ok, runAt_pure_eq_ok] at h
      obtain ⟨a, _, ⟨ha, rfl⟩, rfl, rfl⟩ := h
      cases Argument.eq_of_ofParts ha
      refine ⟨rfl, ⟨fun a hlast => ?_, List.pairwise_singleton _ _, ?_⟩, .nil⟩
      · obtain rfl := List.mem_singleton.mp hlast
        exact ha
      · rintro _ ⟨⟩
        rfl
  | case3 e later hlater ih =>
      simp only [runAt_bind_eq_ok, runAt_ofExcept_eq_ok, runAt_pure_eq_ok] at h
      obtain ⟨comma, _, hcomma, a, _, ⟨ha, rfl⟩, as, _, has, rfl, rfl⟩ := h
      obtain ⟨hexpressions, hseparated, hcommas⟩ := ih has
      cases Argument.eq_of_ofParts ha
      refine ⟨congrArg (List.cons e) hexpressions, ⟨?_, ?_, ?_⟩, .cons (placed_token hcomma) hcommas⟩
      · exact List.forall_mem_cons.mpr ⟨ha, hseparated.checked⟩
      · exact .cons (fun _ _ => rfl) hseparated.comma
      · cases as with
        | nil => exact absurd hexpressions.symm hlater
        | cons a' as =>
            rw [List.getLast?_cons_cons]
            exact hseparated.last

theorem placed_call {name : String} {arguments : Layout (List Node)} {c : Call}
    (harguments : ∀ o ns o', arguments.runAt o = (.ok ns, o') → Consecutive Placed o (ns.map .node) o')
    (h : (call name arguments).runAt o = (.ok c, o')) : Placed o (.call c) o' := by
  simp only [call, runAt_bind_eq_ok, runAt_ofExcept_eq_ok] at h
  obtain ⟨i, _, hi, opening, _, hopening, es, _, hes, as, _, has, closing, _, hclosing, hc, rfl⟩ := h
  obtain ⟨rfl, hseparated, hcommas⟩ := placed_separated has
  cases Call.eq_of_ofParts hc
  have hexpressions := harguments _ _ _ hes
  rw [List.map_map] at hexpressions
  refine .parts nofun ⟨hc, trivial⟩ hseparated (.cons (placed_identifier hi) (.cons (placed_token hopening) ?_))
  exact hexpressions.append (hcommas.append (.singleton (placed_token hclosing)))

theorem placed_callNode {c : Call} (h : Placed o (.call c) o') : Placed o (.node (.call c)) o' :=
  .parts nofun ⟨trivial, trivial⟩ trivial (.singleton h)

theorem placed_decorator {name : String} {arguments : Layout (List Node)} {n : Node}
    (harguments : ∀ o ns o', arguments.runAt o = (.ok ns, o') → Consecutive Placed o (ns.map .node) o')
    (h : (decorator name arguments).runAt o = (.ok n, o')) : Placed o (.node n) o' := by
  simp only [decorator, runAt_bind_eq_ok, runAt_ofExcept_eq_ok, runAt_pure_eq_ok] at h
  obtain ⟨sign, _, hsign, c, _, hc, d, _, ⟨hd, rfl⟩, rfl, rfl⟩ := h
  cases DecoratorUse.eq_of_ofParts hd
  exact .parts nofun ⟨hd, trivial⟩ trivial (.cons (placed_token hsign) (.singleton (placed_call harguments hc)))

/-! ### Declarations -/

theorem placed_resource {leading : List Node} {name : String} {type : Layout Node} {existing : Bool}
    {body : Layout Node} {d : ResourceDeclaration}
    (htype : ∀ o n o', type.runAt o = (.ok n, o') → Placed o (.node n) o')
    (hbody : ∀ o n o', body.runAt o = (.ok n, o') → Placed o (.node n) o')
    (h : (resource leading name type existing body).runAt o = (.ok d, o')) :
    Placed o (.declaration (.resource d)) o' := by
  simp only [resource, runAt_bind_eq_ok] at h
  obtain ⟨start, _, hstart, i, _, hi, t, o₁, ht, h⟩ := h
  have hword : ∃ (word : Option Token) (o₂ : Nat), Consecutive Placed o₁ (word.toList.map .token) o₂ ∧ (do
      let sign ← assignment
      let body ← body
      ofExcept (ResourceDeclaration.ofParts leading start i t word sign none body)).runAt o₂ = (.ok d, o') := by
    cases existing with
    | false => exact ⟨none, o₁, .nil, h⟩
    | true =>
        obtain ⟨_, o₂, hword, h⟩ := runAt_bind_eq_ok.mp h
        obtain ⟨w, hw, rfl⟩ := runAt_map_eq_ok.mp hword
        exact ⟨some w, o₂, .singleton (placed_token hw), h⟩
  obtain ⟨word, o₂, hword, h⟩ := hword
  simp only [runAt_bind_eq_ok, runAt_ofExcept_eq_ok] at h
  obtain ⟨sign, _, hsign, b, _, hb, hd, rfl⟩ := h
  cases ResourceDeclaration.eq_of_ofParts hd
  refine .parts nofun ⟨hd, trivial⟩ trivial
    (.cons (placed_token hstart) (.cons (placed_identifier hi) (.cons (htype _ _ _ ht) ?_)))
  exact hword.append (.cons (placed_assignment hsign) (.singleton (hbody _ _ _ hb)))

theorem placed_output {leading : List Node} {name type : String} {value : Layout Node} {d : OutputDeclaration}
    (hvalue : ∀ o n o', value.runAt o = (.ok n, o') → Placed o (.node n) o')
    (h : (output leading name type value).runAt o = (.ok d, o')) : Placed o (.declaration (.output d)) o' := by
  simp only [output, runAt_bind_eq_ok, runAt_ofExcept_eq_ok] at h
  obtain ⟨start, _, hstart, i, _, hi, t, _, ht, sign, _, hsign, n, _, hn, hd, rfl⟩ := h
  cases OutputDeclaration.eq_of_ofParts hd
  exact .parts nofun ⟨hd, trivial⟩ trivial
    (.cons (placed_token hstart) (.cons (placed_identifier hi) (.cons (placed_typeName ht)
      (.cons (placed_assignment hsign) (.singleton (hvalue _ _ _ hn))))))

theorem placed_parameter {leading : List Node} {name type : String} {d : ParameterDeclaration}
    (h : (parameter leading name type).runAt o = (.ok d, o')) : Placed o (.declaration (.parameter d)) o' := by
  simp only [parameter, runAt_bind_eq_ok, runAt_ofExcept_eq_ok] at h
  obtain ⟨start, _, hstart, i, _, hi, t, _, ht, hd, rfl⟩ := h
  cases ParameterDeclaration.eq_of_ofParts hd
  exact .parts nofun ⟨hd, trivial⟩ trivial
    (.cons (placed_token hstart) (.cons (placed_identifier hi) (.singleton (placed_typeName ht))))

theorem placed_parameterWithDefault {leading : List Node} {name type : String} {value : Layout Node}
    {d : ParameterDeclaration} (hvalue : ∀ o n o', value.runAt o = (.ok n, o') → Placed o (.node n) o')
    (h : (parameterWithDefault leading name type value).runAt o = (.ok d, o')) :
    Placed o (.declaration (.parameter d)) o' := by
  simp only [parameterWithDefault, runAt_bind_eq_ok, runAt_ofExcept_eq_ok] at h
  obtain ⟨start, _, hstart, i, _, hi, t, o₁, ht, sign, _, hsign, n, o₂, hn, v, _, ⟨hv, rfl⟩, hd, rfl⟩ := h
  cases DefaultValue.eq_of_ofParts hv
  cases ParameterDeclaration.eq_of_ofParts hd
  have hmodifier : Placed o₁ (.node (.defaultValue ⟨sign, n⟩)) o₂ :=
    .parts nofun ⟨hv, trivial⟩ trivial (.cons (placed_token hsign) (.singleton (hvalue _ _ _ hn)))
  exact .parts nofun ⟨hd, trivial⟩ trivial
    (.cons (placed_token hstart) (.cons (placed_identifier hi) (.cons (placed_typeName ht)
      (.singleton hmodifier))))

end Layout

mutual

/-- **What was laid out is placed** between the offsets before and after the step, by induction on the nest of
    steps. -/
theorem placed_of_laidOut {o o' : Nat} {p : Piece} : LaidOut o p o' → Placed o p o'
  | .token h => Layout.placed_token h
  | .bareToken h => Layout.placed_bareToken (Layout.placed_token h)
  | .newline h => Layout.placed_newline h
  | .assignment h => Layout.placed_assignment h
  | .identifier h => Layout.placed_identifier h
  | .typeName h => Layout.placed_typeName h
  | .access h => Layout.placed_access h
  | .integer h => Layout.placed_integer h
  | .boolean h => Layout.placed_boolean h
  | .null h => Layout.placed_null h
  | .skipped h => Layout.placed_skipped h
  | .string h => Layout.placed_string h
  | .interpolated h => Layout.placed_interpolated h
  | .array inside h =>
    Layout.placed_array (fun o ns o' hrun => consecutive_placed_of_laidOut (inside o ns o' hrun)) h
  | .property inside h => Layout.placed_property (fun o n o' hrun => placed_of_laidOut (inside o n o' hrun)) h
  | .object inside h =>
    Layout.placed_object (fun o ps o' hrun => consecutive_placed_of_laidOut (inside o ps o' hrun)) h
  | .call inside h =>
    Layout.placed_call (fun o ns o' hrun => consecutive_placed_of_laidOut (inside o ns o' hrun)) h
  | .callNode h => Layout.placed_callNode (placed_of_laidOut h)
  | .decorator inside h =>
    Layout.placed_decorator (fun o ns o' hrun => consecutive_placed_of_laidOut (inside o ns o' hrun)) h
  | .resource insideType insideBody h =>
    Layout.placed_resource (fun o n o' hrun => placed_of_laidOut (insideType o n o' hrun))
      (fun o n o' hrun => placed_of_laidOut (insideBody o n o' hrun)) h
  | .output inside h => Layout.placed_output (fun o n o' hrun => placed_of_laidOut (inside o n o' hrun)) h
  | .parameter h => Layout.placed_parameter h
  | .parameterWithDefault inside h =>
    Layout.placed_parameterWithDefault (fun o n o' hrun => placed_of_laidOut (inside o n o' hrun)) h

theorem consecutive_placed_of_laidOut {o o' : Nat} {ps : List Piece} :
    Consecutive LaidOut o ps o' → Consecutive Placed o ps o'
  | .nil => .nil
  | .cons first later => .cons (placed_of_laidOut first) (consecutive_placed_of_laidOut later)

end

end ResourceLang.Syntax
