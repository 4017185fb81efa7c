import ResourceLang.Proofs.Binding.Resolution
import ResourceLang.Proofs.Ty.WellFormed

/-!
# Well-formed bindings — the types of a bound program

Binding takes types from three places: from the keywords of parameters and outputs, from the provider, and
from what decorators make of them. Keywords stand for well-formed types, a catalog answers with the types that
were registered, and the standard decorators at most add flags to a type. Errors stand for themselves. So if
the registered types are well formed, then what is bound is well formed as well.

* **`bindDeclaration_wellFormed`** — binding from well-formed answers with decorators that keep types
  well formed.
* **`built_and_bound_wellFormed`** — all types that are built are well formed, and so are all types that
  are bound from a catalog of such types.
-/

namespace ResourceLang

open Syntax (Declaration DecoratorUse ResourceDeclaration)

/-! ## Providers -/

/-- The bodies of all answers have the property. -/
def Provider.AnswersWith (p : Provider) (P : Ty → Prop) : Prop :=
  ∀ scope r found, p scope r = .ok found → P found.body

namespace Catalog

/-- The catalogs to which only types with the property were registered. -/
inductive RegisteredWith (P : Ty → Prop) : Catalog → Prop where
  | empty : RegisteredWith P empty
  | registerAt {c : Catalog} (h : RegisteredWith P c) (reference : Reference) {body : Ty} (hbody : P body)
      (scopes : List Scope) : RegisteredWith P (c.registerAt reference body scopes)

variable {P : Ty → Prop} {c : Catalog}

theorem RegisteredWith.register (h : RegisteredWith P c) (reference : Reference) {body : Ty}
    (hbody : P body) : RegisteredWith P (c.register reference body) :=
  h.registerAt reference hbody Scope.all

/-- Every schema was registered. -/
theorem RegisteredWith.schema (h : RegisteredWith P c) {r : Reference} {schema : Schema}
    (hget : c.schemas.get? r = some schema) : P schema.body := by
  induction h with
  | empty => exact nomatch hget
  | registerAt h reference hbody scopes ih =>
      rw [get?_register] at hget
      by_cases heq : (r == reference) = true
      · rw [if_pos heq] at hget
        rw [← Option.some.inj hget]
        exact hbody
      · rw [if_neg heq] at hget
        exact ih hget

/-- A catalog answers with what was registered. -/
theorem RegisteredWith.answers (h : RegisteredWith P c) : c.provider.AnswersWith P := by
  intro scope r found hfound
  obtain ⟨schema, hget, -, rfl⟩ := (c.provider_eq_ok_iff scope r found).mp hfound
  exact h.schema hget

end Catalog

/-! ## Declared types -/

/-- The type that a keyword stands for. -/
theorem Ty.wellFormed_of_keyword {keyword : String} {t : Ty} (h : ofKeyword? keyword = some t) :
    t.WellFormed := by
  rw [ofKeyword?] at h
  split_ifs at h <;> obtain rfl := Option.some.inj h
  · exact .leaf rfl trivial
  · exact .leaf rfl trivial
  · exact .leaf rfl trivial
  · exact wellFormed_anyObject
  · exact wellFormed_array (.leaf rfl trivial)

theorem resolveKeyword_wellFormed {node : Syntax.Node} {problem : Problem} {t : Ty}
    (h : resolveKeyword node problem = .ok t) : t.WellFormed := by
  rw [resolveKeyword] at h
  cases hkeyword : node.asTypeName?.bind fun name => Ty.ofKeyword? name.name with
  | some type =>
      rw [hkeyword] at h
      obtain rfl : type = t := Except.ok.inj h
      obtain ⟨name, -, hname⟩ := Option.bind_eq_some_iff.mp hkeyword
      exact Ty.wellFormed_of_keyword hname
  | none =>
      rw [hkeyword] at h
      obtain ⟨span, -, h⟩ := bind_eq_ok_iff.mp h
      obtain rfl := Except.ok.inj h
      exact .leaf rfl trivial

/-- A resource has an error for its type, or the answer of the provider or its read-only view for its body. -/
theorem Syntax.ResourceDeclaration.resolve_wellFormed {d : ResourceDeclaration} {scope : Scope}
    {provider : Provider} (hprovider : provider.AnswersWith Ty.WellFormed) {t : Ty}
    (h : d.resolve scope provider = .ok t) : t.WellFormed := by
  obtain ⟨span, hspan, -⟩ := bind_eq_ok_iff.mp h
  cases (resolve_eq_ok_iff hspan).mp h with
  | declared htext hparse hanswer hexisting => exact Ty.wellFormed_resource (hprovider _ _ _ hanswer)
  | viewed htext hparse hanswer hexisting hview hbody =>
      obtain rfl := hview
      exact Ty.wellFormed_resource (hprovider _ _ _ hanswer).readOnly
  | _ => exact .leaf rfl trivial

theorem Syntax.Declaration.resolve_wellFormed {d : Declaration} {scope : Scope} {provider : Provider}
    (hprovider : provider.AnswersWith Ty.WellFormed) {t : Ty} (h : d.resolve scope provider = .ok t) :
    t.WellFormed := by
  cases d with
  | resource d => exact d.resolve_wellFormed hprovider h
  | output d => exact resolveKeyword_wellFormed h
  | parameter d => exact resolveKeyword_wellFormed h

/-! ## Narrowed types -/

/-- No decorator takes the property away from a type. -/
def Registry.Keeps (registry : Registry) (P : Ty → Prop) : Prop :=
  ∀ name d, registry.get? name = some d → ∀ t, P t → P (d.narrow t)

section Narrowing

variable {registry : Registry} {P : Ty → Prop}

/-- An application keeps what its decorator keeps; an unknown decorator changes no type. -/
theorem Evaluation.step_keeps (hregistry : registry.Keeps P) {owner : String} {e e' : Evaluation}
    {use : DecoratorUse} (he : P e.narrowed) (h : step registry owner e use = .ok e') : P e'.narrowed := by
  rw [step] at h
  cases hlookup : registry.lookup use.name with
  | ok d =>
      rw [hlookup] at h
      obtain rfl := Except.ok.inj h
      exact hregistry use.name d (Registry.lookup_eq_ok_iff.mp hlookup) e.narrowed he
  | error unknown =>
      rw [hlookup] at h
      obtain ⟨span, -, h⟩ := bind_eq_ok_iff.mp h
      obtain rfl := Except.ok.inj h
      exact he

/-- All decorators of a declaration together keep what each of them keeps. -/
theorem evaluateDecorators_keeps (hregistry : registry.Keeps P) {d : Declaration} {t : Ty} {e : Evaluation}
    (ht : P t) (h : evaluateDecorators registry d t = .ok e) : P e.narrowed :=
  foldlM_invariant (P := fun e : Evaluation => P e.narrowed)
    (fun _ _ _ he hstep => Evaluation.step_keeps hregistry he hstep) ht h

end Narrowing

/-- The standard decorators keep types well formed: at most they add flags. -/
theorem Registry.standard_keeps : Registry.standard.Keeps Ty.WellFormed := by
  intro name d hget t ht
  rcases Decorator.eq_secure_or_recording (mem_of_registered hget) with rfl | ⟨target, signature, key, rfl⟩
  · exact ht.withValidation .secure
  · exact ht

/-! ## Bound declarations -/

/-- **Binding from well-formed answers** gives well-formed types, before and after decorators that keep
    types well formed. -/
theorem bindDeclaration_wellFormed {settings : Settings} {registry : Registry} {provider : Provider}
    (hregistry : registry.Keeps Ty.WellFormed) (hprovider : provider.AnswersWith Ty.WellFormed)
    {d : Declaration} {b : BoundDeclaration} (h : bindDeclaration settings registry provider d = .ok b) :
    b.declared.WellFormed ∧ b.narrowed.WellFormed := by
  obtain ⟨declared, hdeclared, h⟩ := bind_eq_ok_iff.mp h
  obtain ⟨evaluation, hevaluation, h⟩ := bind_eq_ok_iff.mp h
  obtain ⟨span, -, h⟩ := bind_eq_ok_iff.mp h
  obtain rfl := Except.ok.inj h
  have hwell : declared.WellFormed := d.resolve_wellFormed hprovider hdeclared
  exact ⟨hwell, evaluateDecorators_keeps hregistry hwell hevaluation⟩

/-- **All types that are built are well formed**, and so are all types that declarations are bound to, one by
    one or in a program, from a catalog of types that were built and with the standard decorators. -/
theorem built_and_bound_wellFormed :
    (∀ t : Ty, t.Built → t.WellFormed) ∧
      ∀ (settings : Settings) (catalog : Catalog), catalog.RegisteredWith Ty.Built →
        (∀ d b, bindDeclaration settings .standard catalog.provider d = .ok b →
          b.declared.WellFormed ∧ b.narrowed.WellFormed) ∧
        ∀ program bound, bindProgram settings .standard catalog.provider program = .ok bound →
          ∀ b ∈ bound.declarations, b.declared.WellFormed ∧ b.narrowed.WellFormed := by
  refine ⟨fun t => Ty.Built.wellFormed, fun settings catalog hcatalog => ?_⟩
  have hprovider : catalog.provider.AnswersWith Ty.WellFormed := fun scope r found hfound =>
    (hcatalog.answers scope r found hfound).wellFormed
  have hbound : ∀ d b, bindDeclaration settings .standard catalog.provider d = .ok b →
      b.declared.WellFormed ∧ b.narrowed.WellFormed :=
    fun d b h => bindDeclaration_wellFormed Registry.standard_keeps hprovider h
  refine ⟨hbound, fun program bound h b hb => ?_⟩
  obtain ⟨declarations, hdeclarations, h⟩ := bind_eq_ok_iff.mp h
  obtain rfl := Except.ok.inj h
  obtain ⟨d, -, hd⟩ := exists_item_of_mapM hdeclarations hb
  exact hbound d b hd

/-! ## An account among accounts -/

/-- Accounts by their tiers, and lists of them. -/
def Ty.accountOrAccounts : Ty := unionOf [discriminated .accounts, array (discriminated .accounts)]

theorem Ty.built_accounts : (discriminated .accounts).Built := by
  have haccount : ∀ tier, (object (.account tier)).Built := by
    intro tier
    have hbuild : ObjectTy.ofProperties "Account" .secure (ObjectTy.account tier).properties.values
        (some .any) .required = .ok (.account tier) := rfl
    refine .object ?_ ?_ hbuild
    · intro p hp
      have hp : p ∈ [_, _, _] := hp
      simp only [List.mem_cons, List.not_mem_nil, or_false] at hp
      rcases hp with rfl | rfl | rfl
      · exact .primitive .string .none
      · exact .anyObject
      · exact .literal tier
    · intro t ht
      rw [← Option.mem_some.mp ht]
      exact .any
  have hbuild : DiscriminatedTy.ofMembers "Account" .none "tier" [.account "hot", .account "cold"] =
      .ok .accounts := rfl
  refine .discriminated ?_ hbuild
  intro m hm
  rcases List.mem_pair.mp hm with rfl | rfl <;> exact haccount _

/-- The types that are made of accounts, and the type of an account that exists already. -/
theorem accounts_wellFormed :
    Ty.accountOrAccounts.Built ∧ Ty.accountOrAccounts.WellFormed ∧
      ∃ b, bindDeclaration {} .standard
          (Catalog.empty.register .storage (.discriminated .accounts)).provider
          (.resource (.existingAccount Reference.storage.text)) = .ok b ∧
        b.declared = .resource ⟨.storage, (Ty.discriminated .accounts).readOnly⟩ ∧
        b.declared.WellFormed ∧ b.narrowed.WellFormed := by
  have hbuilt : Ty.accountOrAccounts.Built := by
    refine .union fun t ht => ?_
    rcases List.mem_pair.mp ht with rfl | rfl
    · exact Ty.built_accounts
    · exact .array Ty.built_accounts
  obtain ⟨htypes, hbound⟩ := built_and_bound_wellFormed
  obtain ⟨hdeclarations, -⟩ := hbound {} _
    (Catalog.RegisteredWith.empty.register .storage Ty.built_accounts)
  refine ⟨hbuilt, htypes _ hbuilt, _, rfl, rfl, ?_⟩
  exact hdeclarations (.resource (.existingAccount Reference.storage.text)) _ rfl

end ResourceLang
