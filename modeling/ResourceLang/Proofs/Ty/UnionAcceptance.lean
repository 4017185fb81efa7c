import ResourceLang.Proofs.Ty.Congruence

/-!
# Acceptance and unions — what is accepted does not depend on how a union is written

A union that is made of types is not written as these types: unions among them are replaced by their members, equal
alternatives are left out, one alternative stands for itself, and `any` stands for all. Acceptance looks at how a
type is written, but none of this changes its answer. The members of a union accept together what the union accepts,
so it can be flattened; and equal types accept the same and are accepted alike, so one of them is enough.

Where the expected type is made, `any` among the types accepts everything, as does the union that is then `any`. Where
the given type is made, `any` would hide what the others are, so there it must not be among them.

* **`unionOf_accepts_iff`** — what a union that is made accepts, one type for all it is made of.
* **`accepts_unionOf_iff`** — where a union that is made is accepted.
* **`unionOf_acceptance`** — both, and that the union could as well have been left as it was.
-/

namespace ResourceLang

namespace Ty

/-! ## Alternatives -/

/-- A type accepts what one of its alternatives accepts. -/
theorem accepts_iff_alternative (a : Ty) {g : Ty} (hg : ∀ inner, g ≠ union inner) (hstrict : ¬g.Lenient) :
    a.accepts g = true ↔ ∃ e ∈ a.alternatives, e.accepts g = true := by
  cases a with
  | union members => exact union_accepts_iff members hg hstrict
  | _ => simp [alternatives]

/-- A type is accepted if each of its alternatives is. -/
theorem accepts_iff_alternatives (a t : Ty) : a.accepts t = true ↔ ∀ g ∈ t.alternatives, a.accepts g = true := by
  cases t with
  | union members => rw [accepts_union, List.all_eq_true]; rfl
  | _ => simp [alternatives]

theorem ofAlternatives_accepts_iff (members : List Ty) {g : Ty} (hg : ∀ inner, g ≠ union inner)
    (hstrict : ¬g.Lenient) : (ofAlternatives members).accepts g = true ↔ ∃ m ∈ members, m.accepts g = true := by
  rcases ofAlternatives_cases members with ⟨t, rfl, hmake⟩ | ⟨-, hmake⟩
  · rw [hmake]
    simp
  · rw [hmake]
    exact union_accepts_iff members hg hstrict

theorem accepts_ofAlternatives_iff (a : Ty) (members : List Ty) :
    a.accepts (ofAlternatives members) = true ↔ ∀ m ∈ members, a.accepts m = true := by
  rcases ofAlternatives_cases members with ⟨t, rfl, hmake⟩ | ⟨-, hmake⟩
  · rw [hmake]
    simp
  · rw [hmake, accepts_union, List.all_eq_true]

/-! ## Unions that are made -/

/-- **What a union accepts that is made of types**: what one of these types accepts. -/
theorem unionOf_accepts_iff (types : List Ty) {g : Ty} (hg : ∀ inner, g ≠ union inner) (hstrict : ¬g.Lenient) :
    (unionOf types).accepts g = true ↔ ∃ t ∈ types, t.accepts g = true := by
  by_cases hany : any ∈ types
  · rw [unionOf_of_mem_any hany]
    have haccepts : any.accepts g = true := Lenient.accepts (Or.inl rfl) g
    exact ⟨fun _ => ⟨any, hany, haccepts⟩, fun _ => haccepts⟩
  · rw [unionOf_of_not_mem_any hany, ofAlternatives_accepts_iff _ hg hstrict, exists_mem_firsts_iff]
    · constructor
      · rintro ⟨e, he, h⟩
        obtain ⟨t, ht, he⟩ := List.mem_flatMap.mp he
        exact ⟨t, ht, (accepts_iff_alternative t hg hstrict).mpr ⟨e, he, h⟩⟩
      · rintro ⟨t, ht, h⟩
        obtain ⟨e, he, h⟩ := (accepts_iff_alternative t hg hstrict).mp h
        exact ⟨e, List.mem_flatMap.mpr ⟨t, ht, he⟩, h⟩
    · intro a b hab h
      rw [accepts_congr hab (BEq.refl g)]
      exact h

/-- **Where a union is accepted that is made of types**: where each of these types is. -/
theorem accepts_unionOf_iff {types : List Ty} (hany : any ∉ types) (a : Ty) :
    a.accepts (unionOf types) = true ↔ ∀ t ∈ types, a.accepts t = true := by
  rw [unionOf_of_not_mem_any hany, accepts_ofAlternatives_iff, forall_mem_firsts_iff]
  · constructor
    · intro h t ht
      exact (accepts_iff_alternatives a t).mpr fun g hg => h g (List.mem_flatMap.mpr ⟨t, ht, hg⟩)
    · intro h g hg
      obtain ⟨t, ht, hg⟩ := List.mem_flatMap.mp hg
      exact (accepts_iff_alternatives a t).mp (h t ht) g hg
  · intro b b' hb h
    rw [← accepts_congr (BEq.refl a) hb]
    exact h

/-- A union that is made of types accepts what the union with these types as members accepts. -/
theorem unionOf_accepts (types : List Ty) (t : Ty) : (unionOf types).accepts t = (union types).accepts t := by
  rw [Bool.eq_iff_iff, accepts_iff_given, accepts_iff_given (union types)]
  refine forall₂_congr fun g hg => ?_
  have hne := ne_union_of_mem_choices t g hg
  by_cases hlenient : g.Lenient
  · rw [accepts_of_lenient_given _ hlenient, accepts_of_lenient_given _ hlenient]
  · rw [unionOf_accepts_iff types hne hlenient, union_accepts_iff types hne hlenient]

/-- **Unions and acceptance.** A union that is made of types accepts a type that is no union and not lenient exactly
    if one of the types does. Without `any` among them, it is accepted exactly where each of the types is. So what
    is done to the types in making the union changes nothing: not for what is given, be it a union itself, and
    without `any` not for what is expected. -/
theorem unionOf_acceptance :
    (∀ (types : List Ty) (y : Ty), (∀ members, y ≠ union members) → y.isAny = false → y.isError = false →
        ((unionOf types).accepts y = true ↔ ∃ x ∈ types, x.accepts y = true)) ∧
      (∀ types : List Ty, any ∉ types → ∀ t : Ty,
        (t.accepts (unionOf types) = true ↔ ∀ y ∈ types, t.accepts y = true)) ∧
      (∀ (types : List Ty) (t : Ty), (unionOf types).accepts t = (union types).accepts t) ∧
      ∀ types : List Ty, any ∉ types → ∀ t : Ty, t.accepts (unionOf types) = t.accepts (union types) := by
  refine ⟨?_, fun _ hany => accepts_unionOf_iff hany, unionOf_accepts, ?_⟩
  · intro types y hne hany herror
    refine unionOf_accepts_iff types hne ?_
    rintro (h | h)
    · exact Bool.false_ne_true (hany.symm.trans h)
    · exact Bool.false_ne_true (herror.symm.trans h)
  · intro types hany t
    rw [Bool.eq_iff_iff, accepts_unionOf_iff hany, accepts_union, List.all_eq_true]

/-- The union of texts, of numbers and of an object in two spellings accepts a single text for the texts among
    them, and is accepted where all of them are. -/
theorem mixed_acceptance :
    (∀ members, literal "wide" ≠ union members) ∧ any ∉ mixed ∧
      (unionOf mixed).accepts (literal "wide") = true ∧
      (unionOf mixed).accepts bool = false ∧
      (union [anyObject, union [int, string]]).accepts (unionOf mixed) = true ∧
      (union [anyObject, int]).accepts (unionOf mixed) = false := by
  obtain ⟨haccepts, haccepted, -, -⟩ := unionOf_acceptance
  have hany : any ∉ mixed := by simp [mixed, string, ofNumbers]
  have hliteral : ∀ members, literal "wide" ≠ union members := by
    intro members h
    cases h
  have hbool : ∀ members, bool ≠ union members := by
    intro members h
    cases h
  refine ⟨hliteral, hany, ?_, ?_, ?_, ?_⟩
  · exact (haccepts mixed (literal "wide") hliteral rfl rfl).mpr ⟨string, List.mem_cons_self, rfl⟩
  · rw [Bool.eq_false_iff, ne_eq, haccepts mixed bool hbool rfl rfl]
    rintro ⟨x, hx, h⟩
    simp only [mixed, List.mem_cons, List.not_mem_nil, or_false] at hx
    rcases hx with rfl | rfl | rfl | rfl <;> exact absurd h Bool.false_ne_true
  · rw [haccepted mixed hany]
    intro y hy
    simp only [mixed, List.mem_cons, List.not_mem_nil, or_false] at hy
    rcases hy with rfl | rfl | rfl | rfl <;> rfl
  · rw [Bool.eq_false_iff, ne_eq, haccepted mixed hany]
    intro h
    exact absurd (h string List.mem_cons_self) Bool.false_ne_true

end Ty

end ResourceLang
