import ResourceLang.Proofs.Binding.Resolution

/-!
# Positions of errors — where it is reported that a declaration has no type

A declaration without a type has an error in its place. Errors that arise while it is resolved stand at its type
node, and so do errors without a position that arise while a body is made read-only. One kind of error comes from
elsewhere: the provider may answer with a body that is an error already. A new resource keeps such a body within its
type; an existing one takes the error for its own type, and if the error has a position then it stays there.

* **`Ty.readOnly_eq_error`** — errors of read-only views have no position, or were there before.
* **`Declaration.error_elsewhere_iff`** — the errors that stand elsewhere than at the type node.
-/

namespace ResourceLang

open Syntax (Declaration ResourceDeclaration Layout Node)

/-- The declaration refers to an existing resource, of which the provider gives the error for the body. -/
inductive Syntax.Declaration.Inherits (scope : Scope) (provider : Provider) (diagnostic : Diagnostic) :
    Declaration → Prop where
  | intro {r : ResourceDeclaration} {text : String} {reference spelled : Reference}
      (hexisting : r.existing ≠ none) (htext : r.WrittenAs text)
      (hparse : Reference.parse text = .ok reference)
      (hanswer : provider scope reference = .ok ⟨spelled, .error diagnostic⟩) :
    Inherits scope provider diagnostic (.resource r)

/-! ## Read-only views -/

/-- A view that cannot be built is an error without a position. -/
theorem DiscriminatedTy.unplaced_of_readOnly {d : DiscriminatedTy} {diagnostic : Diagnostic}
    (h : d.readOnly = .error diagnostic) : diagnostic.span = Span.nil := by
  cases hmembers : collectMembers d.name d.discriminator .empty (d.members.values.map ObjectTy.readOnly) with
  | ok members =>
      rw [readOnly_of_collected hmembers] at h
      exact nomatch h
  | error e =>
      rw [readOnly_of_refused hmembers] at h
      rw [← Ty.error.inj h]

/-- The view of a type is an error if there is none, and that error has no position, or if the type is that
    error itself. -/
theorem Ty.readOnly_eq_error {t : Ty} {diagnostic : Diagnostic} (h : t.readOnly = .error diagnostic) :
    diagnostic.span = Span.nil ∨ t = .error diagnostic := by
  cases t with
  | discriminated d => exact Or.inl (DiscriminatedTy.unplaced_of_readOnly h)
  | object o => exact nomatch h
  | _ => exact Or.inr h

/-! ## Keywords -/

/-- No keyword stands for an error. -/
theorem Ty.ofKeyword?_ne_error (keyword : String) (diagnostic : Diagnostic) :
    ofKeyword? keyword ≠ some (.error diagnostic) := by
  intro h
  rw [ofKeyword?] at h
  split_ifs at h <;> exact nomatch Option.some.inj h

/-- What is wrong with a keyword is reported at its node. -/
theorem span_of_resolveKeyword {node : Node} {problem : Problem} {span : Span} {diagnostic : Diagnostic}
    (hspan : node.span = .ok span) (h : resolveKeyword node problem = .ok (.error diagnostic)) :
    diagnostic.span = span := by
  rw [resolveKeyword] at h
  cases hkeyword : node.asTypeName?.bind fun name => Ty.ofKeyword? name.name with
  | some type =>
      rw [hkeyword] at h
      obtain rfl : type = .error diagnostic := Except.ok.inj h
      obtain ⟨name, -, hname⟩ := Option.bind_eq_some_iff.mp hkeyword
      exact absurd hname (Ty.ofKeyword?_ne_error name.name diagnostic)
  | none =>
      rw [hkeyword, hspan] at h
      rw [← Ty.error.inj (Except.ok.inj h)]

/-! ## Resources -/

section Resolution

variable {scope : Scope} {provider : Provider} {span : Span} {diagnostic : Diagnostic}

/-- What is wrong with a resource is reported at its type node, unless it is an error with a position that was
    given for the body of an existing resource. -/
theorem Syntax.ResourceDeclaration.span_of_resolve {d : ResourceDeclaration} (hspan : d.type.span = .ok span)
    (h : d.resolve scope provider = .ok (.error diagnostic)) :
    diagnostic.span = span ∨
      diagnostic.span ≠ Span.nil ∧ (Declaration.resource d).Inherits scope provider diagnostic := by
  cases (resolve_eq_ok_iff hspan).mp h with
  | @malformed text reference found given htext hparse hanswer hexisting hview =>
      by_cases hnil : given.span = Span.nil
      · exact Or.inl (if_pos hnil)
      · rcases Ty.readOnly_eq_error hview with hunplaced | hbody
        · exact absurd hunplaced hnil
        · obtain ⟨spelled, body⟩ := found
          obtain rfl : body = .error given := hbody
          have hkept : { given with span := if given.span = Span.nil then span else given.span } = given := by
            rw [if_neg hnil]
          rw [hkept]
          exact Or.inr ⟨hnil, .intro hexisting htext hparse hanswer⟩
  | _ => exact Or.inl rfl

/-- What is wrong with a declaration of any kind is reported at its type node, unless it is inherited. -/
theorem Syntax.Declaration.span_of_resolve {d : Declaration} (hspan : d.typeNode.span = .ok span)
    (h : d.resolve scope provider = .ok (.error diagnostic)) :
    diagnostic.span = span ∨ diagnostic.span ≠ Span.nil ∧ d.Inherits scope provider diagnostic := by
  cases d with
  | resource d => exact d.span_of_resolve hspan h
  | output d => exact Or.inl (span_of_resolveKeyword hspan h)
  | parameter d => exact Or.inl (span_of_resolveKeyword hspan h)

/-- An error with a position that is given for the body of an existing resource is the type of the
    declaration as it is. -/
theorem Syntax.Declaration.resolve_of_inherits {d : Declaration} (hspan : d.typeNode.span = .ok span)
    (hplaced : diagnostic.span ≠ Span.nil) (h : d.Inherits scope provider diagnostic) :
    d.resolve scope provider = .ok (.error diagnostic) := by
  cases h with
  | intro hexisting htext hparse hanswer =>
      have hview : (Ty.error diagnostic).readOnly = .error diagnostic := rfl
      have hresolved := (ResourceDeclaration.resolve_eq_ok_iff hspan).mpr
        (.malformed htext hparse hanswer hexisting hview)
      rw [if_neg hplaced] at hresolved
      exact hresolved

end Resolution

/-! ## Declarations of any kind -/

namespace Syntax.Declaration

/-- **Where an error stands.** A declaration whose type node covers a region of the text is resolved. The errors
    that it can have elsewhere than at this node are those with a position that are given for the body of the
    existing resource that it refers to, and each of these is its type. So all errors stand at the type node
    exactly if what is inherited stands there or has no position. -/
theorem error_elsewhere_iff {d : Declaration} {span : Span} (hspan : d.typeNode.span = .ok span) (scope : Scope)
    (provider : Provider) :
    (∃ t, d.resolve scope provider = .ok t) ∧
      (∀ diagnostic : Diagnostic, diagnostic.span ≠ span →
        (d.resolve scope provider = .ok (.error diagnostic) ↔
          diagnostic.span ≠ Span.nil ∧ d.Inherits scope provider diagnostic)) ∧
      ((∀ diagnostic, d.resolve scope provider = .ok (.error diagnostic) → diagnostic.span = span) ↔
        ∀ diagnostic, d.Inherits scope provider diagnostic →
          diagnostic.span = span ∨ diagnostic.span = Span.nil) := by
  have hposition : ∀ diagnostic, d.resolve scope provider = .ok (.error diagnostic) →
      diagnostic.span = span ∨ diagnostic.span ≠ Span.nil ∧ d.Inherits scope provider diagnostic :=
    fun diagnostic h => span_of_resolve hspan h
  refine ⟨resolve_of_span hspan scope provider, fun diagnostic helsewhere => ⟨?_, ?_⟩, ?_, ?_⟩
  · intro h
    exact (hposition diagnostic h).resolve_left helsewhere
  · rintro ⟨hplaced, h⟩
    exact resolve_of_inherits hspan hplaced h
  · intro hall diagnostic h
    by_cases hplaced : diagnostic.span = Span.nil
    · exact Or.inr hplaced
    · exact Or.inl (hall diagnostic (resolve_of_inherits hspan hplaced h))
  · intro hinherited diagnostic h
    rcases hposition diagnostic h with hspan | ⟨hplaced, h⟩
    · exact hspan
    · exact (hinherited diagnostic h).resolve_right hplaced

/-! ## An account whose schema is an error -/

/-- An error that says where it arose. -/
def placedError : Diagnostic := ⟨⟨1, 1⟩, .invalidResourceType⟩

/-- The error that an existing account inherits stays where it arose; without a position, it is moved to the type
    node. -/
theorem error_of_account :
    let account := resource (.existingAccount Reference.storage.text)
    account.typeNode.span = .ok ⟨17, 48⟩ ∧
      account.resolve .tenant (fun _ r => .ok ⟨r, .error placedError⟩) = .ok (.error placedError) ∧
      ∀ diagnostic,
        account.resolve .tenant (fun _ r => .ok ⟨r, .error ⟨Span.nil, .invalidResourceType⟩⟩) =
          .ok (.error diagnostic) → diagnostic.span = ⟨17, 48⟩ := by
  intro account
  have hspan : account.typeNode.span = .ok ⟨17, 48⟩ := rfl
  have htext : (ResourceDeclaration.existingAccount Reference.storage.text).WrittenAs
      Reference.storage.text := ⟨_, rfl, rfl, rfl⟩
  have hparse : Reference.parse Reference.storage.text = .ok .storage := Reference.parse_eq_ok_iff.mpr rfl
  obtain ⟨-, helsewhere, -⟩ := error_elsewhere_iff hspan .tenant fun _ r => .ok ⟨r, .error placedError⟩
  obtain ⟨-, -, hnode⟩ :=
    error_elsewhere_iff hspan .tenant fun _ r => .ok ⟨r, .error ⟨Span.nil, .invalidResourceType⟩⟩
  refine ⟨hspan, ?_, hnode.mpr ?_⟩
  · exact (helsewhere placedError (by decide)).mpr ⟨by decide, .intro nofun htext hparse rfl⟩
  · intro diagnostic h
    obtain ⟨-, -, -, hanswer⟩ : (resource (.existingAccount Reference.storage.text)).Inherits .tenant
      (fun _ r => .ok ⟨r, .error ⟨Span.nil, .invalidResourceType⟩⟩) diagnostic := h
    have hbody := (ResourceTy.mk.inj (Except.ok.inj hanswer)).2
    exact Or.inr (congrArg Diagnostic.span (Ty.error.inj hbody).symm)

/-- Not every error stands at the type node: the type of the account that is laid out here is at the bytes from 17
    on, and its error is at the second byte. -/
theorem error_not_at_type :
    ∃ account,
      ((Layout.resource [] "account" (Layout.string Reference.storage.text) true
        (Layout.object (pure []))).runAt 0).1 = .ok account ∧
      (resource account).typeNode.span = .ok ⟨17, 46⟩ ∧
      (resource account).resolve .tenant (Catalog.empty.register .storage (.error placedError)).provider =
        .ok (.error placedError) ∧
      placedError.span ≠ ⟨17, 46⟩ :=
  ⟨_, rfl, rfl, rfl, by decide⟩

end Syntax.Declaration

end ResourceLang
