import ResourceLang.Binding.Program
import ResourceLang.Proofs.Cache.Inquiries
import ResourceLang.Proofs.Decorator.Equality

/-!
# Binding from equal answers — what a declaration takes from its provider

A declaration asks its provider at most one thing, `requestOf`, and looks at nothing else that the provider
could answer. What it makes of two answers that agree differs at most in the types, and these are equal. If
the parts of a declaration cover regions of the text then binding gives a result, whatever the provider says.

* **`bindDeclaration_congr`** — binding from answers that agree.
* **`bindDeclaration_of_located`** — a declaration that covers a region of the text is bound.
-/

namespace ResourceLang

open Syntax (Declaration ResourceDeclaration)

/-- Equal up to the equality of types. -/
structure BoundDeclaration.Agrees (b b' : BoundDeclaration) : Prop where
  name : b.name = b'.name
  kind : b.kind = b'.kind
  span : b.span = b'.span
  declared : (b.declared == b'.declared) = true
  narrowed : (b.narrowed == b'.narrowed) = true
  metadata : b.metadata = b'.metadata
  unknown : b.unknown = b'.unknown

/-- The parts of a declaration that are looked up cover regions of the text: its type node, the
    declaration itself and its decorators. -/
structure Syntax.Declaration.Located (d : Declaration) : Prop where
  type : ∃ span, d.typeNode.span = .ok span
  whole : ∃ span, d.span = .ok span
  decorators : ∀ use ∈ d.decorators, ∃ span, use.span = .ok span

/-! ## Resolution -/

/-- Schemas that are equal give equal types to a declaration. -/
theorem Syntax.ResourceDeclaration.typeFromSchema_congr (d : ResourceDeclaration) (span : Span)
    {found found' : ResourceTy} (h : (found == found') = true) :
    (d.typeFromSchema span found == d.typeFromSchema span found') = true := by
  obtain ⟨href, hbody⟩ := (ResourceTy.beq_iff_parts found found').mp h
  have hview := Ty.readOnly_congr hbody
  rw [typeFromSchema, typeFromSchema]
  by_cases hexisting : d.isExisting = true
  · rw [if_pos hexisting, if_pos hexisting]
    show (if found.body.readOnly.isError then _ else _ : Ty) ==
      (if found'.body.readOnly.isError then _ else _ : Ty)
    rw [← Ty.isError_congr hview]
    by_cases herror : found.body.readOnly.isError = true
    · rw [if_pos herror, if_pos herror]
      exact Ty.anchoredAt_congr span hview
    · rw [if_neg herror, if_neg herror]
      exact (ResourceTy.beq_iff_parts _ _).mpr ⟨href, hview⟩
  · rw [if_neg hexisting, if_neg hexisting]
    exact h

/-- What a resource declaration asks. -/
theorem requestOf_resource (settings : Settings) (d : ResourceDeclaration) :
    requestOf settings (.resource d) = d.reference.toOption.map fun reference =>
      ⟨settings.scope, reference⟩ := by
  rw [requestOf]
  cases d.reference <;> rfl

/-- A declaration that asks nothing has its type from its own text. -/
theorem resolve_of_requestOf_eq_none {settings : Settings} {d : Declaration}
    (h : requestOf settings d = none) (p p' : Provider) :
    d.resolve settings.scope p = d.resolve settings.scope p' := by
  cases d with
  | resource d =>
      rw [requestOf_resource] at h
      rw [Declaration.resolve, Declaration.resolve, ResourceDeclaration.resolve, ResourceDeclaration.resolve]
      cases href : d.reference with
      | error problem => rfl
      | ok reference =>
          rw [href] at h
          exact nomatch h
  | output d => rfl
  | parameter d => rfl

/-- A declaration looks at the answer to its request and at no other. -/
theorem resolve_of_requestOf_eq_some {settings : Settings} {d : Declaration} {r : Request}
    (h : requestOf settings d = some r) (p : Provider) :
    d.resolve settings.scope p = d.resolve settings.scope fun _ _ => p r.scope r.reference := by
  cases d with
  | resource d =>
      rw [requestOf_resource] at h
      rw [Declaration.resolve, Declaration.resolve, ResourceDeclaration.resolve, ResourceDeclaration.resolve]
      cases href : d.reference with
      | error problem => rfl
      | ok reference =>
          rw [href] at h
          obtain rfl : (⟨settings.scope, reference⟩ : Request) = r := Option.some.inj h
          rfl
  | output d => rfl
  | parameter d => rfl

/-- A declaration looks at its provider through the answer to its request alone. -/
theorem resolve_of_same_request {settings : Settings} {d : Declaration} {p p' : Provider}
    (h : ∀ r, requestOf settings d = some r → p r.scope r.reference = p' r.scope r.reference) :
    d.resolve settings.scope p = d.resolve settings.scope p' := by
  cases hrequest : requestOf settings d with
  | none => exact resolve_of_requestOf_eq_none hrequest p p'
  | some r =>
      rw [resolve_of_requestOf_eq_some hrequest p, resolve_of_requestOf_eq_some hrequest p', h r hrequest]

/-- Answers that agree give equal types. -/
theorem resolve_congr (d : Declaration) (scope : Scope) {x x' : Except Error ResourceTy}
    (h : AnswersAgree x x') :
    Agree (fun a b : Ty => (a == b) = true) (d.resolve scope fun _ _ => x)
      (d.resolve scope fun _ _ => x') := by
  cases d with
  | resource d =>
      -- the span of the type node comes first and is the same for both
      rw [Declaration.resolve, Declaration.resolve, ResourceDeclaration.resolve, ResourceDeclaration.resolve]
      refine (Agree.refl (R := Eq) (fun _ => rfl) d.type.span).bind ?_
      rintro span _ rfl
      cases d.reference with
      | error problem => exact .ok (BEq.refl _)
      | ok reference =>
          cases h with
          | ok hfound => exact .ok (d.typeFromSchema_congr span hfound)
          | error e => exact .ok (BEq.refl _)
  | output d => exact Agree.refl (fun _ => BEq.refl _) d.resolve
  | parameter d => exact Agree.refl (fun _ => BEq.refl _) d.resolve

/-! ## Binding -/

/-- A declaration that asks nothing is bound without its provider. -/
theorem bindDeclaration_of_requestOf_eq_none {settings : Settings} {d : Declaration}
    (h : requestOf settings d = none) (registry : Registry) (p p' : Provider) :
    bindDeclaration settings registry p d = bindDeclaration settings registry p' d := by
  rw [bindDeclaration, bindDeclaration, resolve_of_requestOf_eq_none h p p']

/-- A declaration is bound from the answer to its request. -/
theorem bindDeclaration_of_requestOf_eq_some {settings : Settings} {d : Declaration} {r : Request}
    (h : requestOf settings d = some r) (registry : Registry) (p : Provider) :
    bindDeclaration settings registry p d =
      bindDeclaration settings registry (fun _ _ => p r.scope r.reference) d := by
  rw [bindDeclaration, bindDeclaration, resolve_of_requestOf_eq_some h p]

/-- **Binding from answers that agree** gives results that agree. -/
theorem bindDeclaration_congr {registry : Registry} (hregistry : registry.RespectsEquality)
    (settings : Settings) (d : Declaration) {x x' : Except Error ResourceTy}
    (h : AnswersAgree x x') :
    Agree BoundDeclaration.Agrees (bindDeclaration settings registry (fun _ _ => x) d)
      (bindDeclaration settings registry (fun _ _ => x') d) := by
  rw [bindDeclaration, bindDeclaration]
  refine (resolve_congr d settings.scope h).bind ?_
  intro declared declared' hdeclared
  refine (evaluateDecorators_congr hregistry d hdeclared).bind ?_
  intro e e' he
  refine (Agree.refl (R := Eq) (fun _ => rfl) d.span).bind ?_
  rintro span _ rfl
  exact .ok ⟨rfl, rfl, rfl, hdeclared, he.narrowed, he.metadata, he.unknown⟩

/-! ## Results -/

namespace Syntax.ResourceDeclaration

variable {d : ResourceDeclaration} {scope : Scope} {provider : Provider} {span : Span}

theorem resolve_of_problem {problem : Problem} (hspan : d.type.span = .ok span)
    (h : d.reference = .error problem) : d.resolve scope provider = .ok (.error ⟨span, problem⟩) := by
  rw [resolve, hspan, h]
  rfl

theorem resolve_of_refused {r : Reference} {e : Error} (hspan : d.type.span = .ok span)
    (h : d.reference = .ok r) (hanswer : provider scope r = .error e) :
    d.resolve scope provider = .ok (.error ⟨span, .unknownResourceType r.text⟩) := by
  simp only [resolve, hspan, h, hanswer, bind, Except.bind]
  rfl

theorem resolve_of_found {r : Reference} {found : ResourceTy} (hspan : d.type.span = .ok span)
    (h : d.reference = .ok r) (hanswer : provider scope r = .ok found) :
    d.resolve scope provider = .ok (d.typeFromSchema span found) := by
  simp only [resolve, hspan, h, hanswer, bind, Except.bind]
  rfl

/-- A resource is resolved, or what is wrong is reported at a type node that covers a region. -/
theorem exists_resolve (hspan : d.type.span = .ok span) : ∃ t, d.resolve scope provider = .ok t := by
  cases href : d.reference with
  | error problem => exact ⟨_, resolve_of_problem hspan href⟩
  | ok r =>
      cases hanswer : provider scope r with
      | error e => exact ⟨_, resolve_of_refused hspan href hanswer⟩
      | ok found => exact ⟨_, resolve_of_found hspan href hanswer⟩

end Syntax.ResourceDeclaration

/-- A keyword is resolved, or the problem is reported at a node that covers a region. -/
theorem resolveKeyword_of_span {node : Syntax.Node} {span : Span} (h : node.span = .ok span)
    (problem : Problem) : ∃ type, resolveKeyword node problem = .ok type := by
  rw [resolveKeyword]
  cases node.asTypeName?.bind fun name => Ty.ofKeyword? name.name with
  | some type => exact ⟨type, rfl⟩
  | none => exact ⟨.error ⟨span, problem⟩, by rw [h]; rfl⟩

/-- A declaration of any kind is resolved, or what is wrong is reported, if its type node covers a region. -/
theorem resolve_of_span {d : Declaration} {span : Span} (hspan : d.typeNode.span = .ok span) (scope : Scope)
    (p : Provider) : ∃ type, d.resolve scope p = .ok type := by
  cases d with
  | resource d => exact ResourceDeclaration.exists_resolve hspan
  | output d => exact resolveKeyword_of_span hspan .invalidOutputType
  | parameter d => exact resolveKeyword_of_span hspan .invalidParameterType

theorem evaluateDecorators_of_located {d : Declaration} (h : d.Located) (registry : Registry)
    (type : Ty) : ∃ e, evaluateDecorators registry d type = .ok e := by
  have hloop : ∀ (uses : List Syntax.DecoratorUse), (∀ use ∈ uses, ∃ span, use.span = .ok span) →
      ∀ e : Evaluation, ∃ e', uses.foldlM (Evaluation.step registry d.name.name) e = .ok e' := by
    intro uses huses
    induction uses with
    | nil => intro e; exact ⟨e, rfl⟩
    | cons use rest ih =>
        intro e
        obtain ⟨span, hspan⟩ := huses use List.mem_cons_self
        have hstep : ∃ e₁, Evaluation.step registry d.name.name e use = .ok e₁ := by
          rw [Evaluation.step]
          cases registry.lookup use.name with
          | ok decorator => exact ⟨_, rfl⟩
          | error unknown => exact ⟨_, by rw [hspan]; rfl⟩
        obtain ⟨e₁, he₁⟩ := hstep
        obtain ⟨e₂, he₂⟩ := ih (fun use' hmem => huses use' (List.mem_cons_of_mem use hmem)) e₁
        refine ⟨e₂, ?_⟩
        rw [List.foldlM_cons, he₁]
        exact he₂
  exact hloop d.decorators h.decorators (.start type)

/-- **A declaration that covers a region of the text is bound**, whatever the provider answers. -/
theorem bindDeclaration_of_located {d : Declaration} (h : d.Located) (settings : Settings)
    (registry : Registry) (p : Provider) : ∃ b, bindDeclaration settings registry p d = .ok b := by
  obtain ⟨_, htype⟩ := h.type
  obtain ⟨declared, hdeclared⟩ := resolve_of_span htype settings.scope p
  obtain ⟨e, he⟩ := evaluateDecorators_of_located h registry declared
  obtain ⟨span, hspan⟩ := h.whole
  refine ⟨⟨d.name.name, d.kind, span, declared, e.narrowed, e.metadata, e.unknown⟩, ?_⟩
  simp only [bindDeclaration, hdeclared, he, hspan, bind, Except.bind]
  rfl

end ResourceLang
