import ResourceLang.Proofs.Binding.Equality
import ResourceLang.Proofs.Catalog
import ResourceLang.Proofs.Reference.Pattern

/-!
# Outcomes of resolution — what a resource declaration comes to, and what it asks

The type of a resource declaration is decided in order by the shape of its type node, the text in it, the
answer of the provider and the read-only view of the body. `ResolvesTo` is this decision as a relation, with
one rule for each outcome; resolution gives the outcome of the one rule that applies. An unknown reference is
reported as it was written, because reading a reference loses nothing of its text.

The only thing that is asked of the provider is the reference that the text reads as.

* **`ResourceDeclaration.resolve_eq_ok_iff`** — resolution decides the relation.
* **`ResourceDeclaration.resolve_decides`** — there is one outcome, and it depends on at most one answer.
-/

namespace ResourceLang.Syntax.ResourceDeclaration

/-- The type node is a string without embedded expressions, with the given text. -/
def WrittenAs (d : ResourceDeclaration) (text : String) : Prop :=
  ∃ s, d.type = .string s ∧ s.expressions = [] ∧ s.values.head? = some text

/-- What a resource declaration with its type node at `span` resolves to. -/
inductive ResolvesTo (d : ResourceDeclaration) (scope : Scope) (provider : Provider) (span : Span) :
    Ty → Prop where
  /-- The type node is no string. -/
  | notString (hnode : ∀ s, d.type ≠ .string s) :
    ResolvesTo d scope provider span (.error ⟨span, .invalidResourceType⟩)
  /-- Expressions are embedded in the string, whatever its pieces are. -/
  | interpolated {s : StringLiteral} (hnode : d.type = .string s) (hexpressions : s.expressions ≠ []) :
    ResolvesTo d scope provider span (.error ⟨span, .interpolatedResourceType⟩)
  /-- The string has no piece. -/
  | noText {s : StringLiteral} (hnode : d.type = .string s) (hexpressions : s.expressions = [])
      (hvalues : s.values = []) :
    ResolvesTo d scope provider span (.error ⟨span, .invalidResourceType⟩)
  /-- The text is no reference. -/
  | noReference {text : String} {e : Error} (htext : d.WrittenAs text)
      (hparse : Reference.parse text = .error e) :
    ResolvesTo d scope provider span (.error ⟨span, .invalidResourceType⟩)
  /-- The provider refuses, for any reason; the text is reported as it was written. -/
  | unknown {text : String} {r : Reference} {e : Error} (htext : d.WrittenAs text)
      (hparse : Reference.parse text = .ok r) (hanswer : provider scope r = .error e) :
    ResolvesTo d scope provider span (.error ⟨span, .unknownResourceType text⟩)
  /-- The declared resource is new, and its type is the answer as it is. -/
  | declared {text : String} {r : Reference} {found : ResourceTy} (htext : d.WrittenAs text)
      (hparse : Reference.parse text = .ok r) (hanswer : provider scope r = .ok found)
      (hexisting : d.existing = none) :
    ResolvesTo d scope provider span (.resource found)
  /-- The declared resource exists already, and its body can only be read. -/
  | viewed {text : String} {r : Reference} {found : ResourceTy} {body : Ty} (htext : d.WrittenAs text)
      (hparse : Reference.parse text = .ok r) (hanswer : provider scope r = .ok found)
      (hexisting : d.existing ≠ none) (hview : found.body.readOnly = body)
      (hbody : ∀ diagnostic, body ≠ .error diagnostic) :
    ResolvesTo d scope provider span (.resource ⟨found.reference, body⟩)
  /-- The declared resource exists already, and there is no view of its body; the error is moved to the type
      node if it has no position. -/
  | malformed {text : String} {r : Reference} {found : ResourceTy} {diagnostic : Diagnostic}
      (htext : d.WrittenAs text) (hparse : Reference.parse text = .ok r)
      (hanswer : provider scope r = .ok found) (hexisting : d.existing ≠ none)
      (hview : found.body.readOnly = .error diagnostic) :
    ResolvesTo d scope provider span
      (.error { diagnostic with span := if diagnostic.span = Span.nil then span else diagnostic.span })

variable {d : ResourceDeclaration}

/-! ## The reference that is written -/

theorem reference_of_not_string (h : ∀ s, d.type ≠ .string s) :
    d.reference = .error .invalidResourceType := by
  have hnone : d.type.asString? = none := by
    cases hnode : d.type with
    | string s => exact absurd hnode (h s)
    | _ => rfl
  rw [reference, hnone]

theorem reference_of_interpolated {s : StringLiteral} (hnode : d.type = .string s)
    (h : s.expressions ≠ []) : d.reference = .error .interpolatedResourceType := by
  have hinterpolated : s.isInterpolated = true := by
    rw [StringLiteral.isInterpolated, Bool.not_eq_true', List.isEmpty_eq_false_iff]
    exact h
  rw [reference, hnode]
  exact if_pos hinterpolated

/-- A string without embedded expressions names what its first piece reads as. -/
theorem reference_of_plain {s : StringLiteral} (hnode : d.type = .string s) (h : s.expressions = []) :
    d.reference =
      (s.values.head?.bind Reference.parse?).elim (.error .invalidResourceType) .ok := by
  have hplain : s.isInterpolated = false := by
    rw [StringLiteral.isInterpolated, h]
    rfl
  have hliteral : s.literal? = s.values.head? := by
    rw [StringLiteral.literal?, hplain]
    exact if_neg Bool.false_ne_true
  rw [reference, hnode]
  show (if s.isInterpolated then _ else _) = _
  rw [if_neg (by rw [hplain]; exact Bool.false_ne_true), hliteral]
  cases s.values.head?.bind Reference.parse? <;> rfl

theorem reference_of_no_text {s : StringLiteral} (hnode : d.type = .string s) (h : s.expressions = [])
    (hvalues : s.values = []) : d.reference = .error .invalidResourceType := by
  rw [reference_of_plain hnode h, hvalues]
  rfl

theorem reference_of_unread {text : String} {e : Error} (h : d.WrittenAs text)
    (hparse : Reference.parse text = .error e) : d.reference = .error .invalidResourceType := by
  obtain ⟨s, hnode, hexpressions, htext⟩ := h
  have hnone : Reference.parse? text = none := by
    cases hparse? : Reference.parse? text with
    | none => rfl
    | some r =>
        rw [Reference.parse_eq_ok_iff.mpr hparse?] at hparse
        exact nomatch hparse
  rw [reference_of_plain hnode hexpressions, htext, Option.bind_some, hnone, Option.elim_none]

theorem reference_of_read {text : String} {r : Reference} (h : d.WrittenAs text)
    (hparse : Reference.parse text = .ok r) : d.reference = .ok r := by
  obtain ⟨s, hnode, hexpressions, htext⟩ := h
  rw [reference_of_plain hnode hexpressions, htext, Option.bind_some,
    Reference.parse_eq_ok_iff.mp hparse, Option.elim_some]

/-- What a type node can be: no string, an interpolated one, one without a piece, or one with a text that is
    read or not. -/
theorem typeNode_cases (d : ResourceDeclaration) :
    (∀ s, d.type ≠ .string s) ∨ (∃ s, d.type = .string s ∧ s.expressions ≠ []) ∨
      (∃ s, d.type = .string s ∧ s.expressions = [] ∧ s.values = []) ∨
      ∃ text, d.WrittenAs text ∧
        ((∃ e, Reference.parse text = .error e) ∨ ∃ r, Reference.parse text = .ok r) := by
  cases hnode : d.type with
  | string s =>
      refine Or.inr ?_
      by_cases hexpressions : s.expressions = []
      · refine Or.inr ?_
        cases hvalues : s.values with
        | nil => exact Or.inl ⟨s, rfl, hexpressions, hvalues⟩
        | cons text rest =>
            refine Or.inr ⟨text, ⟨s, hnode, hexpressions, by rw [hvalues]; rfl⟩, ?_⟩
            cases Reference.parse text with
            | error e => exact Or.inl ⟨e, rfl⟩
            | ok r => exact Or.inr ⟨r, rfl⟩
      · exact Or.inl ⟨s, rfl, hexpressions⟩
  | _ => exact Or.inl nofun

/-- A reference is named exactly by a text that reads as it. -/
theorem reference_eq_ok_iff {r : Reference} :
    d.reference = .ok r ↔ ∃ text, d.WrittenAs text ∧ Reference.parse text = .ok r := by
  constructor
  · intro h
    rcases d.typeNode_cases with hnode | ⟨s, hnode, hexpressions⟩ | ⟨s, hnode, hexpressions, hvalues⟩ |
      ⟨text, htext, ⟨e, hparse⟩ | ⟨r', hparse⟩⟩
    · rw [reference_of_not_string hnode] at h
      exact nomatch h
    · rw [reference_of_interpolated hnode hexpressions] at h
      exact nomatch h
    · rw [reference_of_no_text hnode hexpressions hvalues] at h
      exact nomatch h
    · rw [reference_of_unread htext hparse] at h
      exact nomatch h
    · rw [reference_of_read htext hparse] at h
      exact ⟨text, htext, Except.ok.inj h ▸ hparse⟩
  · rintro ⟨text, htext, hparse⟩
    exact reference_of_read htext hparse

/-! ## The outcome -/

section Outcome

variable {scope : Scope} {provider : Provider} {span : Span}

theorem typeFromSchema_of_new (h : d.existing = none) (found : ResourceTy) :
    d.typeFromSchema span found = .resource found := by
  rw [typeFromSchema, isExisting, h]
  exact if_neg Bool.false_ne_true

theorem isExisting_of_marked (h : d.existing ≠ none) : d.isExisting = true :=
  Option.isSome_iff_ne_none.mpr h

theorem typeFromSchema_of_viewed (h : d.existing ≠ none) {found : ResourceTy}
    (hbody : ∀ diagnostic, found.body.readOnly ≠ .error diagnostic) :
    d.typeFromSchema span found = .resource ⟨found.reference, found.body.readOnly⟩ := by
  have hview : ¬found.body.readOnly.isError = true := by
    intro herror
    cases hbody' : found.body.readOnly with
    | error diagnostic => exact hbody diagnostic hbody'
    | _ =>
        rw [hbody'] at herror
        exact nomatch herror
  rw [typeFromSchema, if_pos (isExisting_of_marked h)]
  exact if_neg hview

theorem typeFromSchema_of_malformed (h : d.existing ≠ none) {found : ResourceTy} {diagnostic : Diagnostic}
    (hview : found.body.readOnly = .error diagnostic) :
    d.typeFromSchema span found =
      .error { diagnostic with span := if diagnostic.span = Span.nil then span else diagnostic.span } := by
  have hmoved : (Ty.error diagnostic).anchoredAt span =
      .error { diagnostic with span := if diagnostic.span = Span.nil then span else diagnostic.span } := by
    rw [Ty.anchoredAt]
    by_cases hnil : diagnostic.span = Span.nil
    · rw [if_pos hnil, if_pos hnil]
    · rw [if_neg hnil, if_neg hnil]
  rw [typeFromSchema, if_pos (isExisting_of_marked h), hview, ← hmoved]
  rfl

/-- The type that a schema gives is an outcome. -/
theorem resolvesTo_typeFromSchema {text : String} {r : Reference} {found : ResourceTy}
    (htext : d.WrittenAs text) (hparse : Reference.parse text = .ok r)
    (hanswer : provider scope r = .ok found) :
    ResolvesTo d scope provider span (d.typeFromSchema span found) := by
  by_cases hexisting : d.existing = none
  · rw [typeFromSchema_of_new hexisting]
    exact .declared htext hparse hanswer hexisting
  · by_cases hview : ∃ diagnostic, found.body.readOnly = .error diagnostic
    · obtain ⟨diagnostic, hview⟩ := hview
      rw [typeFromSchema_of_malformed hexisting hview]
      exact .malformed htext hparse hanswer hexisting hview
    · have hbody : ∀ diagnostic, found.body.readOnly ≠ .error diagnostic :=
        fun diagnostic h => hview ⟨diagnostic, h⟩
      rw [typeFromSchema_of_viewed hexisting hbody]
      exact .viewed htext hparse hanswer hexisting rfl hbody

/-- **Resolution decides the relation**: it gives the outcome of the rule that applies, and one applies. -/
theorem resolve_eq_ok_iff (hspan : d.type.span = .ok span) {t : Ty} :
    d.resolve scope provider = .ok t ↔ ResolvesTo d scope provider span t := by
  constructor
  · intro h
    rcases d.typeNode_cases with hnode | ⟨s, hnode, hexpressions⟩ | ⟨s, hnode, hexpressions, hvalues⟩ |
      ⟨text, htext, ⟨e, hparse⟩ | ⟨r, hparse⟩⟩
    · rw [resolve_of_problem hspan (reference_of_not_string hnode)] at h
      exact Except.ok.inj h ▸ .notString hnode
    · rw [resolve_of_problem hspan (reference_of_interpolated hnode hexpressions)] at h
      exact Except.ok.inj h ▸ .interpolated hnode hexpressions
    · rw [resolve_of_problem hspan (reference_of_no_text hnode hexpressions hvalues)] at h
      exact Except.ok.inj h ▸ .noText hnode hexpressions hvalues
    · rw [resolve_of_problem hspan (reference_of_unread htext hparse)] at h
      exact Except.ok.inj h ▸ .noReference htext hparse
    · have hread := reference_of_read htext hparse
      cases hanswer : provider scope r with
      | error e =>
          rw [resolve_of_refused hspan hread hanswer, Reference.text_of_parse hparse] at h
          exact Except.ok.inj h ▸ .unknown htext hparse hanswer
      | ok found =>
          rw [resolve_of_found hspan hread hanswer] at h
          exact Except.ok.inj h ▸ resolvesTo_typeFromSchema htext hparse hanswer
  · intro h
    cases h with
    | notString hnode => exact resolve_of_problem hspan (reference_of_not_string hnode)
    | interpolated hnode hexpressions =>
        exact resolve_of_problem hspan (reference_of_interpolated hnode hexpressions)
    | noText hnode hexpressions hvalues =>
        exact resolve_of_problem hspan (reference_of_no_text hnode hexpressions hvalues)
    | noReference htext hparse => exact resolve_of_problem hspan (reference_of_unread htext hparse)
    | unknown htext hparse hanswer =>
        rw [resolve_of_refused hspan (reference_of_read htext hparse) hanswer,
          Reference.text_of_parse hparse]
    | declared htext hparse hanswer hexisting =>
        rw [resolve_of_found hspan (reference_of_read htext hparse) hanswer,
          typeFromSchema_of_new hexisting]
    | viewed htext hparse hanswer hexisting hview hbody =>
        obtain rfl := hview
        rw [resolve_of_found hspan (reference_of_read htext hparse) hanswer,
          typeFromSchema_of_viewed hexisting hbody]
    | malformed htext hparse hanswer hexisting hview =>
        rw [resolve_of_found hspan (reference_of_read htext hparse) hanswer,
          typeFromSchema_of_malformed hexisting hview]

/-! ## The question -/

/-- What is asked is the reference that the text reads as, at the scope of the program. -/
theorem requestOf_eq_some_iff {settings : Settings} {request : Request} :
    requestOf settings (.resource d) = some request ↔
      request.scope = settings.scope ∧
        ∃ text, d.WrittenAs text ∧ Reference.parse text = .ok request.reference := by
  rw [requestOf_resource, ← reference_eq_ok_iff]
  cases d.reference with
  | error problem => exact ⟨nofun, fun h => nomatch h.2⟩
  | ok r =>
      constructor
      · intro h
        obtain rfl : (⟨settings.scope, r⟩ : Request) = request := Option.some.inj h
        exact ⟨rfl, rfl⟩
      · rintro ⟨hscope, hreference⟩
        rw [Except.ok.inj hreference, ← hscope]
        rfl

/-- Providers that give the same answer to the reference that is written resolve the declaration alike. -/
theorem resolve_of_same_answer {other : Provider}
    (h : ∀ text r, d.WrittenAs text → Reference.parse text = .ok r → other scope r = provider scope r) :
    d.resolve scope other = d.resolve scope provider := by
  have hrequest : ∀ request, requestOf { scope := scope } (.resource d) = some request →
      other request.scope request.reference = provider request.scope request.reference := by
    intro request hrequest
    obtain ⟨hscope, text, htext, hparse⟩ := requestOf_eq_some_iff.mp hrequest
    rw [hscope]
    exact h text request.reference htext hparse
  exact resolve_of_same_request hrequest

/-- **Resolution is a decision with one outcome.** If the type node covers a region of the text then the
    declaration resolves to exactly what the rule that applies gives, and some rule does. The provider is only
    asked for the reference that the text reads as, if there is one: what it would answer to anything else
    makes no difference. This is the request of the declaration, and resolution sees the provider through the
    answer to its request alone; without a request it does not see it at all. -/
theorem resolve_decides (hspan : d.type.span = .ok span) :
    (∀ t, d.resolve scope provider = .ok t ↔ ResolvesTo d scope provider span t) ∧
      (∃ t, d.resolve scope provider = .ok t) ∧
      (∀ other : Provider,
        (∀ text r, d.WrittenAs text → Reference.parse text = .ok r → other scope r = provider scope r) →
          d.resolve scope other = d.resolve scope provider) ∧
      ∀ settings : Settings, settings.scope = scope →
        (∀ request, requestOf settings (.resource d) = some request ↔
          request.scope = scope ∧
            ∃ text, d.WrittenAs text ∧ Reference.parse text = .ok request.reference) ∧
        ∀ other : Provider,
          (∀ request, requestOf settings (.resource d) = some request →
            other request.scope request.reference = provider request.scope request.reference) →
          d.resolve scope other = d.resolve scope provider := by
  refine ⟨fun t => resolve_eq_ok_iff hspan, exists_resolve hspan, fun other => resolve_of_same_answer, ?_⟩
  rintro settings rfl
  exact ⟨fun request => requestOf_eq_some_iff, fun other h => resolve_of_same_request h⟩

end Outcome

/-! ## An existing account -/

/-- An existing resource with the given text for its type. -/
def existingAccount (text : String) : ResourceDeclaration where
  leading := []
  keyword := ⟨.identifier, "resource", ⟨0, 8⟩⟩
  name := ⟨⟨.identifier, "account", ⟨9, 7⟩⟩⟩
  type := .string ⟨[⟨.wholeString, "'" ++ text ++ "'", ⟨17, 48⟩⟩], [], [text]⟩
  existing := some ⟨.identifier, "existing", ⟨66, 8⟩⟩
  assignment := .token ⟨.assignment, "=", ⟨75, 1⟩⟩
  condition := none
  body := .object ⟨⟨.leftBrace, "\x7b", ⟨77, 1⟩⟩, [], ⟨.rightBrace, "\x7d", ⟨79, 1⟩⟩⟩

/-- A body with tiers of which the only one does not declare what tier it is. -/
def untiered : DiscriminatedTy :=
  ⟨"Account", .none, "tier", ⟨[("hot", ⟨"Hot", .none, .empty, none, .none⟩)]⟩⟩

/-- The error of a body without a view is moved to the type of the declaration, and a refusal is reported
    there with the text as it was written. -/
theorem resolve_account :
    (existingAccount Reference.storage.text).type.span = .ok ⟨17, 48⟩ ∧
      (existingAccount Reference.storage.text).resolve .tenant
          (fun _ r => .ok ⟨r, .discriminated untiered⟩) =
        .ok (.error ⟨⟨17, 48⟩,
          .malformedType (Error.ofCause (.missingDiscriminator "Hot" "tier")).message⟩) ∧
      ∀ e : Error, (existingAccount Reference.storage.text).resolve .tenant (fun _ _ => .error e) =
        .ok (.error ⟨⟨17, 48⟩, .unknownResourceType Reference.storage.text⟩) := by
  have hspan : (existingAccount Reference.storage.text).type.span = .ok ⟨17, 48⟩ := rfl
  have htext : (existingAccount Reference.storage.text).WrittenAs Reference.storage.text :=
    ⟨_, rfl, rfl, rfl⟩
  have hparse : Reference.parse Reference.storage.text = .ok .storage := Reference.parse_eq_ok_iff.mpr rfl
  let found : ResourceTy := ⟨.storage, .discriminated untiered⟩
  have hview : found.body.readOnly =
      .error ⟨Span.nil, .malformedType (Error.ofCause (.missingDiscriminator "Hot" "tier")).message⟩ := rfl
  refine ⟨hspan, ?_, fun e => ?_⟩
  · exact ((resolve_decides hspan).1 _).mpr (.malformed htext hparse rfl nofun hview)
  · exact ((resolve_decides hspan).1 _).mpr (.unknown htext hparse rfl)

end ResourceLang.Syntax.ResourceDeclaration
