import ResourceLang.Proofs.Cache.Inquiries
import ResourceLang.Proofs.Ty.Canonical

/-!
# Answers of catalogs — one schema for all spellings

A catalog answers from the schema registered for an equal reference and gives the answer the spelling that
was asked for. So its answers under two spellings of one reference differ in the spelling and in nothing
else, and as a provider it is `Congruent`.

* **`provider_respelled`** — the answer under another spelling of a reference.
* **`provider_congruent`** — equal references are answered by equal types.
-/

namespace ResourceLang.Catalog

/-- A catalog answers with the body of a schema that is available at the scope, in the spelling of the
    request. -/
theorem provider_eq_ok_iff (c : Catalog) (scope : Scope) (r : Reference) (found : ResourceTy) :
    c.provider scope r = .ok found ↔
      ∃ schema, c.schemas.get? r = some schema ∧ scope ∈ schema.scopes ∧
        found = ⟨r, schema.body⟩ := by
  rw [provider]
  cases hget : c.schemas.get? r with
  | none =>
      constructor
      · intro h; exact nomatch h
      · rintro ⟨schema, h, -, -⟩; exact nomatch h
  | some schema =>
      show (if scope ∈ schema.scopes then _ else _) = _ ↔ _
      by_cases hscope : scope ∈ schema.scopes
      · rw [if_pos hscope]
        constructor
        · intro h
          exact ⟨schema, rfl, hscope, (Except.ok.inj h).symm⟩
        · rintro ⟨schema', h, -, hfound⟩
          rw [hfound, Option.some.inj h]
      · rw [if_neg hscope]
        constructor
        · intro h; exact nomatch h
        · rintro ⟨schema', h, hscope', -⟩
          exact absurd (Option.some.inj h ▸ hscope') hscope

/-- The answer under another spelling of a reference has that spelling and the same body. -/
theorem provider_respelled (c : Catalog) {scope : Scope} {r r' : Reference} {found : ResourceTy}
    (heq : (r == r') = true) (h : c.provider scope r = .ok found) :
    c.provider scope r' = .ok ⟨r', found.body⟩ := by
  obtain ⟨schema, hget, hscope, hfound⟩ := (c.provider_eq_ok_iff scope r found).mp h
  refine (c.provider_eq_ok_iff scope r' _).mpr ⟨schema, ?_, hscope, ?_⟩
  · rw [← Keyed.get?_congr c.schemas heq]
    exact hget
  · rw [hfound]

/-- An answer is spelled as the request was. -/
theorem reference_of_provider (c : Catalog) {scope : Scope} {r : Reference} {found : ResourceTy}
    (h : c.provider scope r = .ok found) : found.reference = r := by
  obtain ⟨schema, -, -, hfound⟩ := (c.provider_eq_ok_iff scope r found).mp h
  rw [hfound]

/-- **Equal references are answered by equal types.** -/
theorem provider_congruent (c : Catalog) : c.provider.Congruent := by
  intro scope r r' found heq h
  refine ⟨⟨r', found.body⟩, c.provider_respelled heq h, ?_⟩
  rw [ResourceTy.beq_iff_parts, c.reference_of_provider h]
  exact ⟨heq, BEq.refl found.body⟩

end ResourceLang.Catalog

/-! ## A catalog with one schema -/

namespace ResourceLang

/-- A reference with letters of both cases in its namespace and in its segment. -/
def Reference.storage : Reference :=
  ⟨"Microsoft.Storage", ["storageAccounts"], "2021-04-01", List.cons_ne_nil _ _⟩

/-- The catalog that has a schema for this reference and for no other. -/
def Catalog.storage : Catalog := Catalog.empty.register .storage .anyObject

end ResourceLang
