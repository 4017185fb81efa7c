import ResourceLang.Proofs.Binding.Resolution
import ResourceLang.Proofs.Ty.Diagnostics

/-!
# Counting errors — which declarations count as having errors, and which do not

A bound declaration has errors if there is no type for it or some decorator is unknown. Its diagnostics are found by
walking its declared type, so a declaration that has errors has a diagnostic or an unknown decorator. The converse
does not hold: the body of a resource comes from the provider and may have errors within it. Such a declaration is
not counted, with or without a read-only view of the body in between, unless one of its decorators is unknown.

* **`isError_iff_of_resolve`** — when a declared type is an error.
* **`errorCount_eq_zero_iff`** — what it means that no declaration has errors.
-/

namespace ResourceLang

open Syntax (Declaration ResourceDeclaration Layout)

/-- The declaration resolves to a resource, and the body that the provider gives for it has errors within. -/
inductive Syntax.Declaration.HidesErrors (scope : Scope) (provider : Provider) : Declaration → Prop where
  | intro {r : ResourceDeclaration} {text : String} {reference : Reference} {found : ResourceTy}
      (htext : r.WrittenAs text) (hparse : Reference.parse text = .ok reference)
      (hanswer : provider scope reference = .ok found)
      (hresource : r.existing = none ∨ found.body.readOnly.isError = false)
      (herrors : found.body.diagnostics ≠ []) : HidesErrors scope provider (.resource r)

/-- What it takes for the bound declaration to have errors. -/
structure BoundDeclaration.CountsFor (scope : Scope) (provider : Provider) (d : Declaration)
    (b : BoundDeclaration) : Prop where
  counted : b.hasErrors = true ↔ b.unknown ≠ [] ∨ b.diagnostics ≠ [] ∧ ¬ d.HidesErrors scope provider
  hidden : d.HidesErrors scope provider → b.diagnostics ≠ []

/-! ## Declared types -/

section Resolution

variable {scope : Scope} {provider : Provider} {d : Declaration} {t : Ty}

/-- No errors are within the type that a keyword stands for. -/
theorem Ty.diagnostics_of_keyword {keyword : String} (h : ofKeyword? keyword = some t) :
    t.diagnostics = [] := by
  rw [ofKeyword?] at h
  split_ifs at h <;> obtain rfl := Option.some.inj h <;> rfl

/-- A keyword gives an error, or a type without errors. -/
theorem diagnostics_of_resolveKeyword {node : Syntax.Node} {problem : Problem}
    (h : resolveKeyword node problem = .ok t) : t.isError = true ∨ t.diagnostics = [] := by
  rw [resolveKeyword] at h
  cases hkeyword : node.asTypeName?.bind fun name => Ty.ofKeyword? name.name with
  | some type =>
      rw [hkeyword] at h
      obtain rfl : type = t := Except.ok.inj h
      obtain ⟨name, -, hname⟩ := Option.bind_eq_some_iff.mp hkeyword
      exact Or.inr (Ty.diagnostics_of_keyword hname)
  | none =>
      rw [hkeyword] at h
      obtain ⟨span, -, h⟩ := bind_eq_ok_iff.mp h
      obtain rfl := Except.ok.inj h
      exact Or.inl rfl

/-- A declared type that is no error but has errors within it is a resource with such a body. -/
theorem hidesErrors_of_resolve (h : d.resolve scope provider = .ok t) (hnone : ¬ t.isError = true)
    (herrors : t.diagnostics ≠ []) : d.HidesErrors scope provider := by
  cases d with
  | resource d =>
      obtain ⟨span, hspan, -⟩ := bind_eq_ok_iff.mp h
      cases (ResourceDeclaration.resolve_eq_ok_iff hspan).mp h with
      | declared htext hparse hanswer hexisting =>
          rw [Ty.diagnostics_resource] at herrors
          exact .intro htext hparse hanswer (Or.inl hexisting) herrors
      | @viewed text reference found body htext hparse hanswer hexisting hview hbody =>
          obtain rfl := hview
          rw [Ty.diagnostics_resource] at herrors
          have hresource : found.body.readOnly.isError = false := by
            cases hbody' : found.body.readOnly with
            | error diagnostic => exact absurd hbody' (hbody diagnostic)
            | _ => rfl
          refine .intro htext hparse hanswer (Or.inr hresource) fun hfound => herrors ?_
          have hview := Ty.diagnostics_readOnly hresource
          rw [hfound] at hview
          exact hview.eq_nil
      | _ => exact absurd rfl hnone
  | output d => exact absurd ((diagnostics_of_resolveKeyword h).resolve_left hnone) herrors
  | parameter d => exact absurd ((diagnostics_of_resolveKeyword h).resolve_left hnone) herrors

/-- A resource whose body has errors within it is no error itself. -/
theorem resource_of_hidesErrors (h : d.resolve scope provider = .ok t) (hhides : d.HidesErrors scope provider) :
    t.isError = false ∧ t.diagnostics ≠ [] := by
  cases hhides with
  | @intro d text reference found htext hparse hanswer hresource herrors =>
      obtain ⟨span, hspan, -⟩ := bind_eq_ok_iff.mp h
      have hfound := ResourceDeclaration.resolve_of_found hspan
        (ResourceDeclaration.reference_of_read htext hparse) hanswer
      obtain rfl : d.typeFromSchema span found = t := Except.ok.inj (hfound.symm.trans h)
      by_cases hexisting : d.existing = none
      · rw [ResourceDeclaration.typeFromSchema_of_new hexisting, Ty.diagnostics_resource]
        exact ⟨rfl, herrors⟩
      · have hview := hresource.resolve_left hexisting
        have hbody : ∀ diagnostic, found.body.readOnly ≠ .error diagnostic := by
          intro diagnostic hbody
          rw [hbody] at hview
          exact nomatch hview
        rw [ResourceDeclaration.typeFromSchema_of_viewed hexisting hbody, Ty.diagnostics_resource]
        exact ⟨rfl, fun hnil => herrors (hnil ▸ Ty.diagnostics_readOnly hview).symm.eq_nil⟩

/-- **When a declared type is an error**: it has errors within it, and they are not those of a body. -/
theorem isError_iff_of_resolve (h : d.resolve scope provider = .ok t) :
    t.isError = true ↔ t.diagnostics ≠ [] ∧ ¬ d.HidesErrors scope provider := by
  constructor
  · intro herror
    refine ⟨Ty.diagnostics_of_isError herror, fun hhides => ?_⟩
    rw [(resource_of_hidesErrors h hhides).1] at herror
    exact nomatch herror
  · rintro ⟨herrors, hopen⟩
    by_contra hnone
    exact hopen (hidesErrors_of_resolve h hnone herrors)

end Resolution

/-! ## Bound declarations -/

section Counting

variable {scope : Scope} {provider : Provider}

theorem BoundDeclaration.hasErrors_iff {b : BoundDeclaration} :
    b.hasErrors = true ↔ b.declared.isError = true ∨ b.unknown ≠ [] := by
  rw [hasErrors, Bool.or_eq_true, Bool.not_eq_true', List.isEmpty_eq_false_iff]

/-- A declaration that has errors has a diagnostic or an unknown decorator. -/
theorem BoundDeclaration.of_hasErrors {b : BoundDeclaration} (h : b.hasErrors = true) :
    b.diagnostics ≠ [] ∨ b.unknown ≠ [] :=
  (hasErrors_iff.mp h).imp_left Ty.diagnostics_of_isError

theorem countsFor_of_bound {settings : Settings} {registry : Registry} {d : Declaration} {b : BoundDeclaration}
    (h : bindDeclaration settings registry provider d = .ok b) : b.CountsFor settings.scope provider d := by
  obtain ⟨declared, hdeclared, h⟩ := bind_eq_ok_iff.mp h
  obtain ⟨evaluation, -, h⟩ := bind_eq_ok_iff.mp h
  obtain ⟨span, -, h⟩ := bind_eq_ok_iff.mp h
  obtain rfl := Except.ok.inj h
  refine ⟨?_, fun hhides => (resource_of_hidesErrors hdeclared hhides).2⟩
  rw [BoundDeclaration.hasErrors_iff, or_comm]
  exact or_congr_right (isError_iff_of_resolve hdeclared)

/-- A declaration without errors has no unknown decorator, and its diagnostics are those of a body. -/
theorem BoundDeclaration.CountsFor.quiet_iff {d : Declaration} {b : BoundDeclaration}
    (h : b.CountsFor scope provider d) :
    b.hasErrors = false ↔ b.unknown = [] ∧ (b.diagnostics = [] ∨ d.HidesErrors scope provider) := by
  rw [← Bool.not_eq_true, h.counted, not_or, not_not, not_and_or, not_not, not_not]

/-- No declaration of a program has errors. -/
theorem quiet_iff_of_counts {program : List Declaration} {bs : List BoundDeclaration}
    (h : List.Forall₂ (BoundDeclaration.CountsFor scope provider) program bs) :
    (∀ b ∈ bs, b.hasErrors = false) ↔
      (∀ b ∈ bs, b.unknown = []) ∧
        List.Forall₂ (fun d b => b.diagnostics = [] ∨ d.HidesErrors scope provider) program bs := by
  induction h with
  | nil => exact iff_of_true nofun ⟨nofun, .nil⟩
  | cons hfirst _ ih =>
      rw [List.forall_mem_cons, List.forall_mem_cons, List.forall₂_cons, hfirst.quiet_iff, ih]
      exact and_and_and_comm

/-- If no declaration has errors, then there are diagnostics exactly if errors are hidden. -/
theorem clean_iff_of_quiet {program : List Declaration} {bs : List BoundDeclaration}
    (h : List.Forall₂ (BoundDeclaration.CountsFor scope provider) program bs)
    (hquiet : ∀ b ∈ bs, b.hasErrors = false) :
    (∀ b ∈ bs, b.diagnostics = []) ↔ ∀ d ∈ program, ¬ d.HidesErrors scope provider := by
  induction h with
  | nil => exact iff_of_true nofun fun d hd => nomatch hd
  | cons hfirst _ ih =>
      have hquietFirst := hquiet _ List.mem_cons_self
      have hquietRest := fun b hb => hquiet b (List.mem_cons_of_mem _ hb)
      rw [List.forall_mem_cons, List.forall_mem_cons, ih hquietRest]
      refine and_congr_left fun _ => ⟨fun hclean hhides => hfirst.hidden hhides hclean, fun hopen => ?_⟩
      exact (hfirst.quiet_iff.mp hquietFirst).2.resolve_right hopen

end Counting

/-! ## Bound programs -/

namespace BoundProgram

theorem errorCount_eq_zero {p : BoundProgram} :
    p.errorCount = 0 ↔ ∀ b ∈ p.declarations, b.hasErrors = false := by
  rw [errorCount, List.countP_eq_zero]
  exact forall₂_congr fun b _ => iff_of_eq (Bool.not_eq_true b.hasErrors)

theorem diagnostics_eq_nil {p : BoundProgram} :
    p.diagnostics = [] ↔ ∀ b ∈ p.declarations, b.diagnostics = [] := List.flatMap_eq_nil_iff

theorem unknown_eq_nil {p : BoundProgram} :
    p.unknown = [] ↔ ∀ b ∈ p.declarations, b.unknown = [] := List.flatMap_eq_nil_iff

/-- **What it means that no declaration has errors.** A declaration has errors if some decorator is unknown, or if
    there are diagnostics and these are not hidden in a body. So no declaration has errors exactly if all decorators
    are known and all diagnostics are hidden; and this is the same as that there are neither diagnostics nor unknown
    decorators unless some body of a program without errors hides one. -/
theorem errorCount_eq_zero_iff {settings : Settings} {registry : Registry} {provider : Provider}
    {program : List Declaration} {bound : BoundProgram}
    (h : bindProgram settings registry provider program = .ok bound) :
    List.Forall₂ (BoundDeclaration.CountsFor settings.scope provider) program bound.declarations ∧
      (bound.errorCount = 0 ↔ bound.unknown = [] ∧
        List.Forall₂ (fun d b => b.diagnostics = [] ∨ d.HidesErrors settings.scope provider) program
          bound.declarations) ∧
      ((bound.errorCount = 0 ↔ bound.diagnostics = [] ∧ bound.unknown = []) ↔
        (bound.errorCount = 0 → ∀ d ∈ program, ¬ d.HidesErrors settings.scope provider)) := by
  obtain ⟨declarations, hdeclarations, h⟩ := bind_eq_ok_iff.mp h
  obtain rfl := Except.ok.inj h
  have hcounts : List.Forall₂ (BoundDeclaration.CountsFor settings.scope provider) program declarations :=
    (forall₂_of_mapM hdeclarations).imp fun d b => countsFor_of_bound
  rw [errorCount_eq_zero, diagnostics_eq_nil, unknown_eq_nil]
  have hquiet := quiet_iff_of_counts hcounts
  refine ⟨hcounts, hquiet, ?_, ?_⟩
  · intro hsame hnone
    exact (clean_iff_of_quiet hcounts hnone).mp (hsame.mp hnone).1
  · intro hopen
    constructor
    · intro hnone
      exact ⟨(clean_iff_of_quiet hcounts hnone).mpr (hopen hnone), (hquiet.mp hnone).1⟩
    · rintro ⟨hdiagnostics, hunknown⟩ b hb
      by_contra herrors
      rcases BoundDeclaration.of_hasErrors (Bool.not_eq_false _ ▸ herrors) with hne | hne
      · exact hne (hdiagnostics b hb)
      · exact hne (hunknown b hb)

/-! ## An account with an error within it -/

/-- A catalog with a schema of accounts that has an error for the type of a property. -/
def faultyCatalog : Catalog :=
  Catalog.empty.register .storage (.object ⟨"Account", .none,
    ⟨[("tier", ⟨"tier", .error ⟨⟨3, 4⟩, .invalidResourceType⟩, .none, none⟩)]⟩, none, .none⟩)

/-- An existing account has the error within its read-only view: it is not counted, and therefore hidden. -/
theorem error_of_existing_account :
    let account := Declaration.resource (.existingAccount Reference.storage.text)
    ∃ bound, bindProgram {} .standard faultyCatalog.provider [account] = .ok bound ∧ bound.errorCount = 0 ∧
      bound.diagnostics ≠ [] ∧ account.HidesErrors .resourceGroup faultyCatalog.provider := by
  intro account
  obtain ⟨bound, hbound⟩ : ∃ bound, bindProgram {} .standard faultyCatalog.provider [account] = .ok bound :=
    ⟨_, rfl⟩
  obtain ⟨-, hcount, -⟩ := errorCount_eq_zero_iff hbound
  obtain rfl := Except.ok.inj hbound
  refine ⟨_, hbound, rfl, List.cons_ne_nil _ _, ?_⟩
  obtain ⟨-, hhidden⟩ := hcount.mp rfl
  exact (List.forall₂_cons.mp hhidden).1.resolve_left (List.cons_ne_nil _ _)

/-- Not every program without declarations that have errors is without diagnostics: the account that is laid out
    here is bound without errors, and has one. -/
theorem error_not_counted :
    ∃ account bound,
      ((Layout.resource [] "account" (Layout.string Reference.storage.text) false
        (Layout.object (pure []))).runAt 0).1 = .ok account ∧
      bindProgram {} .standard faultyCatalog.provider [.resource account] = .ok bound ∧
      bound.declarations.map BoundDeclaration.hasErrors = [false] ∧ bound.errorCount = 0 ∧
      bound.diagnostics = [⟨⟨3, 4⟩, .invalidResourceType⟩] :=
  ⟨_, _, rfl, rfl, rfl, rfl, rfl⟩

end BoundProgram

end ResourceLang
