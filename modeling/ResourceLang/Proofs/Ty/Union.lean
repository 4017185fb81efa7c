import ResourceLang.Proofs.FirstSeen
import ResourceLang.Proofs.Ty.Parts
import ResourceLang.Ty.Union

/-!
# Unions in canonical form — how unions are made of unions

A union is canonical if its members are distinct up to `==`, none of them is `any` or a union again, and
there is more than one or none. Making a union looks one level into the unions it is given, which is enough
if these are canonical: it flattens them in place and keeps the first alternative of each class.

Members are compared by `==`, which is coarser than equality, so the order of the given types decides which
alternative stands for its class; it decides nothing else.

* **`unionOf_everywhere`** — a union of canonical types is canonical, at every depth.
* **`unionOf_map_unionOf`** — a union of unions is the union of all that they were made of.
* **`unionOf_canonical`** — what the union of given types is, and how it changes with their order.
-/

namespace ResourceLang.Ty

/-- The members of a union in canonical form. -/
structure DistinctAlternatives (members : List Ty) : Prop where
  no_any : any ∉ members
  no_union : ∀ inner, union inner ∉ members
  distinct : Distinct members
  not_single : members.length ≠ 1

/-- If the type is a union then its members are as they should be. -/
def UnionCanonical : Ty → Prop
  | union members => DistinctAlternatives members
  | _ => True

/-! ## Alternatives -/

/-- A type that is no union is its own only alternative. -/
theorem alternatives_of_ne_union {t : Ty} (h : ∀ members, t ≠ union members) : t.alternatives = [t] := by
  cases t with
  | union members => exact absurd rfl (h members)
  | _ => rfl

theorem mem_alternatives {t a : Ty} (h : a ∈ t.alternatives) :
    (a = t ∧ ∀ inner, t ≠ union inner) ∨ ∃ members, t = union members ∧ a ∈ members := by
  cases t with
  | union members => exact Or.inr ⟨members, rfl, h⟩
  | _ => exact Or.inl ⟨List.mem_singleton.mp h, fun inner h => nomatch h⟩

/-- No alternative of a canonical type is a union. -/
theorem UnionCanonical.alternative_ne_union {t a : Ty} (ht : t.UnionCanonical) (ha : a ∈ t.alternatives)
    (inner : List Ty) : a ≠ union inner := by
  rcases mem_alternatives ha with ⟨rfl, hne⟩ | ⟨members, rfl, hmem⟩
  · exact hne inner
  · rintro rfl
    exact ht.no_union inner hmem

/-- An alternative of a canonical type is `any` only if the type is. -/
theorem UnionCanonical.alternative_ne_any {t a : Ty} (ht : t.UnionCanonical) (hany : t ≠ any)
    (ha : a ∈ t.alternatives) : a ≠ any := by
  rcases mem_alternatives ha with ⟨rfl, -⟩ | ⟨members, rfl, hmem⟩
  · exact hany
  · rintro rfl
    exact ht.no_any hmem

/-- An alternative of a type is the type itself or a part of it. -/
theorem Everywhere.alternative {P : Ty → Prop} {t a : Ty} (ht : t.Everywhere P) (ha : a ∈ t.alternatives) :
    a.Everywhere P := by
  rcases mem_alternatives ha with ⟨rfl, -⟩ | ⟨members, rfl, hmem⟩
  · exact ht
  · exact ht.part hmem

/-- A single alternative stands for itself; none and several make a union. -/
theorem ofAlternatives_cases (members : List Ty) :
    (∃ t, members = [t] ∧ ofAlternatives members = t) ∨
      (members.length ≠ 1 ∧ ofAlternatives members = union members) := by
  match members with
  | [] => exact Or.inr ⟨Nat.zero_ne_one, rfl⟩
  | [t] => exact Or.inl ⟨t, rfl, rfl⟩
  | a :: b :: rest => exact Or.inr ⟨by rw [List.length_cons, List.length_cons]; omega, rfl⟩

/-- The alternatives of a type made of alternatives that are no unions. -/
theorem alternatives_ofAlternatives {members : List Ty} (h : ∀ a ∈ members, ∀ inner, a ≠ union inner) :
    (ofAlternatives members).alternatives = members := by
  rcases ofAlternatives_cases members with ⟨t, rfl, hmake⟩ | ⟨-, hmake⟩
  · rw [hmake]
    cases t with
    | union inner => exact absurd rfl (h _ List.mem_cons_self inner)
    | _ => rfl
  · rw [hmake]
    rfl

/-! ## The union of canonical types -/

theorem any_isAny_iff {types : List Ty} : types.any isAny = true ↔ any ∈ types := by
  rw [List.any_eq_true]
  constructor
  · rintro ⟨t, ht, hany⟩
    cases t with
    | any => exact ht
    | _ => exact nomatch hany
  · intro h
    exact ⟨any, h, rfl⟩

theorem unionOf_of_mem_any {types : List Ty} (h : any ∈ types) : unionOf types = any :=
  if_pos (any_isAny_iff.mpr h)

theorem unionOf_of_not_mem_any {types : List Ty} (h : any ∉ types) :
    unionOf types = ofAlternatives (firsts [] (types.flatMap alternatives)) := by
  rw [← eraseDups_eq_firsts]
  exact if_neg fun hany => h (any_isAny_iff.mp hany)

section Canonical

variable {types : List Ty}

/-- What is kept of the alternatives of canonical types is neither `any` nor a union. -/
theorem kept_alternative (h : ∀ t ∈ types, t.UnionCanonical) (hany : any ∉ types) {a : Ty}
    (ha : a ∈ firsts [] (types.flatMap alternatives)) : a ≠ any ∧ ∀ inner, a ≠ union inner := by
  obtain ⟨t, ht, ha⟩ := List.mem_flatMap.mp ((firsts_sublist [] _).subset ha)
  have hne : t ≠ any := fun heq => hany (heq ▸ ht)
  exact ⟨(h t ht).alternative_ne_any hne ha, (h t ht).alternative_ne_union ha⟩

theorem alternatives_unionOf (h : ∀ t ∈ types, t.UnionCanonical) (hany : any ∉ types) :
    (unionOf types).alternatives = firsts [] (types.flatMap alternatives) := by
  rw [unionOf_of_not_mem_any hany]
  exact alternatives_ofAlternatives fun a ha => (kept_alternative h hany ha).2

/-- A union of canonical types is `any` exactly if one of them is. -/
theorem unionOf_eq_any_iff (h : ∀ t ∈ types, t.UnionCanonical) : unionOf types = any ↔ any ∈ types := by
  constructor
  · intro hunion
    by_contra hany
    have hmem : any ∈ firsts [] (types.flatMap alternatives) := by
      rw [← alternatives_unionOf h hany, hunion]
      exact List.mem_singleton.mpr rfl
    exact (kept_alternative h hany hmem).1 rfl
  · exact unionOf_of_mem_any

/-- The first occurrences of alternatives, if there is more than one or none, make a canonical union. -/
theorem distinctAlternatives_firsts (h : ∀ t ∈ types, t.UnionCanonical) (hany : any ∉ types)
    (hlength : (firsts [] (types.flatMap alternatives)).length ≠ 1) :
    DistinctAlternatives (firsts [] (types.flatMap alternatives)) where
  no_any hmem := (kept_alternative h hany hmem).1 rfl
  no_union inner hmem := (kept_alternative h hany hmem).2 inner rfl
  distinct := (distinct_firsts [] _).1
  not_single := hlength

/-- What holds of the alternatives of canonical types, and of a union if it holds of its members, holds of the union of
    these types. -/
theorem unionOf_of_alternatives {P : Ty → Prop} (hcanonical : ∀ t ∈ types, t.UnionCanonical) (hany : P any)
    (hunion : ∀ members, DistinctAlternatives members → (∀ m ∈ members, P m) → P (union members))
    (h : ∀ t ∈ types, ∀ a ∈ t.alternatives, P a) : P (unionOf types) := by
  by_cases hmem : any ∈ types
  · rw [unionOf_of_mem_any hmem]
    exact hany
  · have hkept : ∀ a ∈ firsts [] (types.flatMap alternatives), P a := by
      intro a ha
      obtain ⟨t, ht, ha⟩ := List.mem_flatMap.mp ((firsts_sublist [] _).subset ha)
      exact h t ht a ha
    rw [unionOf_of_not_mem_any hmem]
    rcases ofAlternatives_cases (firsts [] (types.flatMap alternatives)) with
      ⟨t, hsingle, hmake⟩ | ⟨hlength, hmake⟩
    · rw [hmake]
      exact hkept t (hsingle ▸ List.mem_cons_self)
    · rw [hmake]
      exact hunion _ (distinctAlternatives_firsts hcanonical hmem hlength) hkept

/-- **A union of types has what its parts have**: a property that says of unions that they are canonical, and
    no more than that, passes from types to their union. -/
theorem unionOf_everywhere {P : Ty → Prop} (hany : P any)
    (hunion : ∀ members, P (union members) ↔ DistinctAlternatives members)
    (h : ∀ t ∈ types, t.Everywhere P) : (unionOf types).Everywhere P := by
  have hcanonical : ∀ t ∈ types, t.UnionCanonical := by
    intro t ht
    cases t with
    | union members => exact (hunion members).mp (h _ ht).here
    | _ => trivial
  refine unionOf_of_alternatives hcanonical (.leaf rfl hany) ?_ fun t ht a ha => (h t ht).alternative ha
  intro members hdistinct hmembers
  exact .intro ((hunion members).mpr hdistinct) hmembers

theorem unionCanonical_unionOf (h : ∀ t ∈ types, t.Everywhere UnionCanonical) :
    (unionOf types).Everywhere UnionCanonical :=
  unionOf_everywhere trivial (fun _ => Iff.rfl) h

end Canonical

/-- **A union of unions** is the union of all that they were made of. -/
theorem unionOf_map_unionOf {lists : List (List Ty)}
    (h : ∀ types ∈ lists, ∀ t ∈ types, t.Everywhere UnionCanonical) :
    unionOf (lists.map unionOf) = unionOf lists.flatten := by
  have hcanonical : ∀ types ∈ lists, ∀ t ∈ types, t.UnionCanonical :=
    fun types htypes t ht => (h types htypes t ht).here
  by_cases hany : any ∈ lists.flatten
  · obtain ⟨types, htypes, hmem⟩ := List.mem_flatten.mp hany
    rw [unionOf_of_mem_any hany]
    exact unionOf_of_mem_any (List.mem_map.mpr ⟨types, htypes, unionOf_of_mem_any hmem⟩)
  · have hnone : ∀ types ∈ lists, any ∉ types := fun types htypes hmem =>
      hany (List.mem_flatten.mpr ⟨types, htypes, hmem⟩)
    have hmap : any ∉ lists.map unionOf := by
      intro hmem
      obtain ⟨types, htypes, hunion⟩ := List.mem_map.mp hmem
      exact hnone types htypes ((unionOf_eq_any_iff (hcanonical types htypes)).mp hunion)
    -- each inner union has had the first occurrences of its own alternatives taken
    have halternatives : (lists.map unionOf).flatMap alternatives =
        ((lists.map (List.flatMap alternatives)).map (firsts [])).flatten := by
      rw [List.flatMap_def, List.map_map, List.map_map]
      congr 1
      exact List.map_congr_left fun types htypes =>
        alternatives_unionOf (hcanonical types htypes) (hnone types htypes)
    have hflatten : (lists.map (List.flatMap alternatives)).flatten = lists.flatten.flatMap alternatives := by
      rw [List.flatMap_def, List.map_flatten, List.flatten_flatten, List.map_map]
      rfl
    rw [unionOf_of_not_mem_any hany, unionOf_of_not_mem_any hmap, halternatives, firsts_flatten, hflatten]

/-- Of given types in another order the union has the same alternatives up to `==`, in another order. -/
theorem exists_perm_alternatives_unionOf {types others : List Ty} (hperm : others.Perm types)
    (h : ∀ t ∈ types, t.UnionCanonical) :
    ∃ matched, matched.Perm (unionOf others).alternatives ∧
      List.Forall₂ (fun a b => (a == b) = true) matched (unionOf types).alternatives := by
  by_cases hany : any ∈ types
  · rw [unionOf_of_mem_any hany, unionOf_of_mem_any (hperm.mem_iff.mpr hany)]
    exact ⟨[any], List.Perm.refl _, List.Forall₂.cons rfl List.Forall₂.nil⟩
  · rw [alternatives_unionOf h hany,
      alternatives_unionOf (fun t ht => h t (hperm.mem_iff.mp ht)) fun hmem => hany (hperm.mem_iff.mp hmem)]
    refine exists_perm_of_among_eq (distinct_firsts [] _).1 (distinct_firsts [] _).1 fun x => ?_
    rw [among_firsts, among_firsts]
    exact (hperm.flatMap_right alternatives).any_eq

/-- **The union of given types in canonical form.** It is `any` exactly if one of them is. Otherwise unions
    among them are replaced by their members, the first alternative of each class is kept, and if one is left
    it stands for itself. The union is canonical again, making a union of it or of unions of its parts gives
    no other one, and the order of the types only matters for the order and choice of alternatives. -/
theorem unionOf_canonical {types : List Ty} (h : ∀ t ∈ types, t.Everywhere UnionCanonical) :
    let kept := firsts [] (types.flatMap alternatives)
    (unionOf types = any ↔ any ∈ types) ∧
      (any ∉ types →
        (kept = [] ∧ unionOf types = never) ∨ (∃ t, kept = [t] ∧ unionOf types = t) ∨
          (2 ≤ kept.length ∧ unionOf types = union kept)) ∧
      (unionOf types).Everywhere UnionCanonical ∧
      unionOf [unionOf types] = unionOf types ∧
      (∀ lists : List (List Ty), lists.flatten = types → unionOf (lists.map unionOf) = unionOf types) ∧
      ∀ others : List Ty, others.Perm types →
        ∃ matched, matched.Perm (unionOf others).alternatives ∧
          List.Forall₂ (fun a b => (a == b) = true) matched (unionOf types).alternatives := by
  intro kept
  have hcanonical : ∀ t ∈ types, t.UnionCanonical := fun t ht => (h t ht).here
  have hlists : ∀ lists : List (List Ty), lists.flatten = types →
      unionOf (lists.map unionOf) = unionOf types := by
    rintro lists rfl
    exact unionOf_map_unionOf fun types htypes t ht => h t (List.mem_flatten.mpr ⟨types, htypes, ht⟩)
  refine ⟨unionOf_eq_any_iff hcanonical, ?_, unionCanonical_unionOf h, ?_, hlists, ?_⟩
  · intro hany
    rw [unionOf_of_not_mem_any hany]
    rcases ofAlternatives_cases kept with hsingle | ⟨hlength, hmake⟩
    · exact Or.inr (Or.inl hsingle)
    · by_cases hnil : kept = []
      · refine Or.inl ⟨hnil, ?_⟩
        rw [hmake, hnil]
        rfl
      · have hpos : 0 < kept.length := List.length_pos_iff.mpr hnil
        exact Or.inr (Or.inr ⟨by omega, hmake⟩)
  · exact hlists [types] (List.flatten_singleton)
  · intro others hperm
    exact exists_perm_alternatives_unionOf hperm hcanonical

/-! ## A union with equal alternatives -/

/-- An object type with two numbers for its properties, in the given order. -/
def ofNumbers (first second : String) : Ty :=
  object ⟨"Size", .none, ⟨[(first, ⟨first, int, .none, none⟩), (second, ⟨second, int, .none, none⟩)]⟩,
    none, .none⟩

/-- A union between other types; its second member is equal to the type after it but for the order of
    properties. -/
def mixed : List Ty :=
  [string, union [int, ofNumbers "width" "height"], ofNumbers "height" "width", string]

/-- The union of these types has the members of the inner union in place and each alternative once; in the
    opposite order the object type in the other spelling stands for its class. -/
theorem unionOf_mixed :
    (∀ t ∈ mixed, t.Everywhere UnionCanonical) ∧
      unionOf mixed = union [string, int, ofNumbers "width" "height"] ∧
      unionOf mixed.reverse = union [string, ofNumbers "height" "width", int] ∧
      (unionOf mixed).Everywhere UnionCanonical ∧
      unionOf [unionOf (mixed.take 2), unionOf (mixed.drop 2)] = unionOf mixed ∧
      ∃ matched, matched.Perm (unionOf mixed.reverse).alternatives ∧
        List.Forall₂ (fun a b => (a == b) = true) matched (unionOf mixed).alternatives := by
  have hnumbers : ∀ first second, (ofNumbers first second).Everywhere UnionCanonical := by
    intro first second
    refine .intro trivial fun part hpart => ?_
    have hpart : part ∈ [int, int] := hpart
    rcases List.mem_pair.mp hpart with rfl | rfl <;> exact .leaf rfl trivial
  have hinner : DistinctAlternatives [int, ofNumbers "width" "height"] := by
    refine ⟨?_, ?_, List.pairwise_pair.mpr rfl, by decide⟩
    · intro h
      rcases List.mem_pair.mp h with h | h <;> exact nomatch h
    · intro inner h
      rcases List.mem_pair.mp h with h | h <;> exact nomatch h
  have hmixed : ∀ t ∈ mixed, t.Everywhere UnionCanonical := by
    intro t ht
    simp only [mixed, List.mem_cons, List.not_mem_nil, or_false] at ht
    rcases ht with rfl | rfl | rfl | rfl
    · exact .leaf rfl trivial
    · refine .intro hinner fun part hpart => ?_
      rcases List.mem_pair.mp hpart with rfl | rfl
      · exact .leaf rfl trivial
      · exact hnumbers _ _
    · exact hnumbers _ _
    · exact .leaf rfl trivial
  obtain ⟨-, -, hcanonical, -, hlists, horder⟩ := unionOf_canonical hmixed
  exact ⟨hmixed, rfl, rfl, hcanonical, hlists [mixed.take 2, mixed.drop 2] rfl,
    horder mixed.reverse mixed.reverse_perm⟩

end ResourceLang.Ty
