import ResourceLang.Proofs.Text.Case
import ResourceLang.Proofs.Ty.Acceptance
import ResourceLang.Proofs.Ty.Comparison
import ResourceLang.Proofs.Ty.Union

/-!
# Equal types in place of each other — `==` on types is a congruence

A function of types respects `==` if it does not look at what a canonical form leaves out. Acceptance compares
kinds, texts and references, and references are compared without regard to case, so it says of two types what it
says of their canonical forms. Making a union removes alternatives by `==` itself: lists of types that are equal one
by one have alternatives that are equal one by one, and so have the alternatives that are left of them.

* **`accepts_canonical`** — acceptance is the same on canonical forms.
* **`unionOf_congr`** — unions of equal types are equal.
* **`beq_is_congruence`** — what `==` asks, that it is an equivalence, and that what is done to types respects it.
-/

namespace ResourceLang

/-! ## References in lowercase -/

/-- References in lowercase are equal if the references are. -/
theorem Reference.lowercase_beq_lowercase (r r' : Reference) : (r.lowercase == r'.lowercase) = (r == r') := by
  have hsame : ∀ r : Reference, r.lowercase.lowercase = r.lowercase := by
    intro r
    simp [lowercase, Text.lowered_lowered, Function.comp_def]
  rw [Bool.eq_iff_iff, beq_iff_lowercase_eq, beq_iff_lowercase_eq, hsame, hsame]

/-! ## Members and choices of canonical forms -/

theorem allMembersOf_eq_all (p : Ty → Bool) (ts : List Ty) : allMembersOf p ts = ts.all (Ty.allMembers p) := by
  induction ts with
  | nil => rfl
  | cons t ts ih => rw [allMembersOf, ih, List.all_cons]

namespace Ty

theorem allMembers_of_ne_union (p : Ty → Bool) {t : Ty} (h : ∀ members, t ≠ union members) :
    t.allMembers p = p t := by
  cases t with
  | union members => exact absurd rfl (h members)
  | _ => rfl

/-- The canonical form of a type that is no union is no union. -/
theorem canonical_ne_union {t : Ty} (h : ∀ members, t ≠ union members) (members : List Ty) :
    t.canonical ≠ union members := by
  cases t with
  | union inner => exact absurd rfl (h inner)
  | _ => simp [canonical, canonical_discriminated, canonical_resource]

/-- A union has the canonical form of a union only if it is one, of members that are equal one by one. -/
theorem beq_union_iff {members members' : List Ty} :
    (union members == union members') = true ↔
      List.Forall₂ (fun a b => (a == b) = true) members members' := by
  rw [beq_iff_canonical_eq, canonical, canonical, union.injEq, canonicalTypes_eq_map, canonicalTypes_eq_map,
    ← List.forall₂_eq_eq_eq, List.forall₂_map_left_iff, List.forall₂_map_right_iff]
  simp only [beq_iff_canonical_eq]

/-- Of two equal types, both are unions or none is. -/
theorem ne_union_of_beq {a b : Ty} (h : (a == b) = true) (ha : ∀ members, a ≠ union members) :
    ∀ members, b ≠ union members := by
  rintro members rfl
  rw [beq_iff_canonical_eq, canonical] at h
  exact canonical_ne_union ha _ h

/-! ## Acceptance -/

/-- A test that says the same on canonical forms does so member by member. -/
theorem allMembers_canonical {p q : Ty → Bool}
    (h : ∀ t : Ty, (∀ members, t ≠ union members) → q t.canonical = p t) (t : Ty) :
    t.canonical.allMembers q = t.allMembers p := by
  induction t using holds_of_items with
  | array item _ => exact h (array item) nofun
  | union members ih =>
      show allMembersOf q (canonicalTypes members) = allMembersOf p members
      rw [allMembersOf_eq_all, allMembersOf_eq_all, canonicalTypes_eq_map, List.all_map,
        Bool.eq_iff_iff, List.all_eq_true, List.all_eq_true]
      exact forall₂_congr fun m hm => by rw [Function.comp_apply, ih m hm]
  | other t _ hunion =>
      rw [allMembers_of_ne_union q (canonical_ne_union hunion), allMembers_of_ne_union p hunion, h t hunion]

theorem acceptsMember_canonical (a : Ty) : ∀ b : Ty, (∀ members, b ≠ union members) →
    a.canonical.acceptsMember b.canonical = a.acceptsMember b := by
  induction a using holds_of_items with
  | array item ih =>
      intro b hb
      cases b with
      | union members => exact absurd rfl (hb members)
      | array item' => exact allMembers_canonical ih item'
      | _ => simp [canonical, canonical_discriminated, canonical_resource, acceptsMember]
  | union members ih =>
      intro b hb
      have hany : anyAcceptsMember (canonicalTypes members) b.canonical = anyAcceptsMember members b := by
        rw [anyAcceptsMember_eq_any, anyAcceptsMember_eq_any, canonicalTypes_eq_map, List.any_map,
          Bool.eq_iff_iff, List.any_eq_true, List.any_eq_true]
        exact exists_congr fun m => and_congr_right fun hm => by rw [Function.comp_apply, ih m hm b hb]
      cases b with
      | union members => exact absurd rfl (hb members)
      | _ => simp_all [canonical, canonical_discriminated, canonical_resource, acceptsMember]
  | other a harray hunion =>
      intro b hb
      -- only resources are compared by something that a canonical form changes
      cases a with
      | array item => exact absurd rfl (harray item)
      | union members => exact absurd rfl (hunion members)
      | resource r =>
          cases b with
          | union members => exact absurd rfl (hb members)
          | resource r' =>
              rw [canonical_resource, canonical_resource, acceptsMember_resource, acceptsMember_resource]
              exact r.reference.lowercase_beq_lowercase r'.reference
          | _ => simp [canonical, canonical_discriminated, canonical_resource, acceptsMember]
      | _ =>
          cases b with
          | union members => exact absurd rfl (hb members)
          | _ => simp [canonical, canonical_discriminated, canonical_resource, acceptsMember]

/-- **Acceptance is the same on canonical forms.** -/
theorem accepts_canonical (a b : Ty) : a.canonical.accepts b.canonical = a.accepts b :=
  allMembers_canonical a.acceptsMember_canonical b

theorem accepts_congr {a a' b b' : Ty} (h : (a == a') = true) (h' : (b == b') = true) :
    a.accepts b = a'.accepts b' := by
  rw [← accepts_canonical a b, ← accepts_canonical a' b', (beq_iff_canonical_eq a a').mp h,
    (beq_iff_canonical_eq b b').mp h']

/-! ## Unions -/

theorem isAny_congr {a b : Ty} (h : (a == b) = true) : a.isAny = b.isAny := by
  have hcanonical : ∀ t : Ty, t.canonical.isAny = t.isAny := by
    intro t
    cases t <;> simp [canonical, canonical_discriminated, canonical_resource, isAny]
  rw [← hcanonical a, ← hcanonical b, (beq_iff_canonical_eq a b).mp h]

/-- Equal types have alternatives that are equal one by one. -/
theorem alternatives_congr {a b : Ty} (h : (a == b) = true) :
    List.Forall₂ (fun a b => (a == b) = true) a.alternatives b.alternatives := by
  by_cases ha : ∃ members, a = union members
  · obtain ⟨members, rfl⟩ := ha
    by_cases hb : ∃ members', b = union members'
    · obtain ⟨members', rfl⟩ := hb
      exact beq_union_iff.mp h
    · exact absurd rfl (ne_union_of_beq (BEq.symm h) (not_exists.mp hb) members)
  · rw [alternatives_of_ne_union (not_exists.mp ha),
      alternatives_of_ne_union (ne_union_of_beq h (not_exists.mp ha))]
    exact List.Forall₂.cons h List.Forall₂.nil

theorem ofAlternatives_congr {members members' : List Ty}
    (h : List.Forall₂ (fun a b => (a == b) = true) members members') :
    (ofAlternatives members == ofAlternatives members') = true := by
  cases h with
  | nil => exact BEq.refl never
  | cons hfirst hrest =>
      cases hrest with
      | nil => exact hfirst
      | cons hsecond hrest => exact beq_union_iff.mpr (.cons hfirst (.cons hsecond hrest))

/-- **Unions of types that are equal one by one are equal.** -/
theorem unionOf_congr {types types' : List Ty} (h : List.Forall₂ (fun a b => (a == b) = true) types types') :
    (unionOf types == unionOf types') = true := by
  have hany : types.any isAny = types'.any isAny := by
    induction h with
    | nil => rfl
    | cons hfirst _ ih => rw [List.any_cons, List.any_cons, isAny_congr hfirst, ih]
  have halternatives : List.Forall₂ (fun a b => (a == b) = true) (types.flatMap alternatives)
      (types'.flatMap alternatives) := by
    clear hany
    induction h with
    | nil => exact List.Forall₂.nil
    | cons hfirst _ ih =>
        rw [List.flatMap_cons, List.flatMap_cons]
        exact List.rel_append (alternatives_congr hfirst) ih
  rw [unionOf, unionOf, hany]
  by_cases hsome : types'.any isAny = true
  · rw [if_pos hsome, if_pos hsome]
    exact BEq.refl any
  · rw [if_neg hsome, if_neg hsome, eraseDups_eq_firsts, eraseDups_eq_firsts]
    exact ofAlternatives_congr (forall₂_firsts halternatives fun _ => rfl)

/-- **`==` on types is a congruence.** Where properties stand under distinct keys it is the comparison part by part.
    It is reflexive, symmetric and transitive on all types, and acceptance, read-only views (the wording of an error
    included), further flags and unions respect it. -/
theorem beq_is_congruence :
    (∀ a b : Ty, a.Everywhere KeysDistinct → b.Everywhere KeysDistinct → (a == b) = a.alike b) ∧
      (∀ a : Ty, (a == a) = true) ∧
      (∀ a b : Ty, (a == b) = true → (b == a) = true) ∧
      (∀ a b c : Ty, (a == b) = true → (b == c) = true → (a == c) = true) ∧
      (∀ a a' b b' : Ty, (a == a') = true → (b == b') = true → a.accepts b = a'.accepts b') ∧
      (∀ a a' : Ty, (a == a') = true → (a.readOnly == a'.readOnly) = true) ∧
      (∀ (a a' : Ty) (flags : ValidationFlags), (a == a') = true →
        (a.withValidation flags == a'.withValidation flags) = true) ∧
      ∀ types types' : List Ty, List.Forall₂ (fun a b => (a == b) = true) types types' →
        (unionOf types == unionOf types') = true := by
  refine ⟨fun _ _ => beq_eq_alike, BEq.refl, fun _ _ => BEq.symm, fun _ _ _ => BEq.trans,
    fun _ _ _ _ => accepts_congr, fun _ _ => readOnly_congr, fun _ _ flags => withValidation_congr flags,
    fun _ _ => unionOf_congr⟩

/-! ## One type in two spellings -/

/-- Sizes as a resource, with a namespace in the given spelling and two numbers in the given order. -/
def sizes (ns first second : String) : Ty :=
  resource ⟨⟨ns, ["sizes"], "2021-04-01", List.cons_ne_nil _ _⟩, ofNumbers first second⟩

/-- Sizes by their unit, of which none declares a unit. -/
def unitless (first second : String) : Ty :=
  discriminated ⟨"Sizes", .none, "unit",
    ⟨[("px", ⟨"Size", .none, ⟨[(first, ⟨first, int, .none, none⟩), (second, ⟨second, int, .none, none⟩)]⟩,
      none, .none⟩)]⟩⟩

/-- Sizes in two spellings are equal and take each other's place, also where no read-only view can be built. -/
theorem sizes_interchangeable :
    (sizes "Contoso" "width" "height").Everywhere KeysDistinct ∧
      (sizes "CONTOSO" "height" "width").Everywhere KeysDistinct ∧
      (sizes "Contoso" "width" "height" == sizes "CONTOSO" "height" "width") = true ∧
      (sizes "CONTOSO" "height" "width" == sizes "contoso" "width" "height") = true ∧
      (sizes "Contoso" "width" "height" == sizes "contoso" "width" "height") = true ∧
      (sizes "Contoso" "width" "height").accepts (unitless "width" "height") =
        (sizes "CONTOSO" "height" "width").accepts (unitless "height" "width") ∧
      (unitless "width" "height").readOnly.isError = true ∧
      ((unitless "width" "height").readOnly == (unitless "height" "width").readOnly) = true ∧
      ((unitless "width" "height").withValidation .secure ==
        (unitless "height" "width").withValidation .secure) = true ∧
      (unionOf [unitless "width" "height", sizes "Contoso" "width" "height"] ==
        unionOf [unitless "height" "width", sizes "CONTOSO" "height" "width"]) = true := by
  have hnumbers : ∀ first second : String, (first == second) = false →
      (ofNumbers first second).Everywhere KeysDistinct := by
    intro first second hne
    refine .intro (List.pairwise_pair.mpr hne) fun part hpart => ?_
    have hpart : part ∈ [int, int] := hpart
    rcases List.mem_pair.mp hpart with rfl | rfl <;> exact .leaf rfl trivial
  have hsizes : ∀ ns first second : String, (first == second) = false →
      (sizes ns first second).Everywhere KeysDistinct := by
    intro ns first second hne
    refine .intro trivial fun part hpart => ?_
    rw [List.mem_singleton.mp hpart]
    exact hnumbers first second hne
  obtain ⟨hcompare, -, hsymm, htrans, haccepts, hreadOnly, hflags, hunion⟩ := beq_is_congruence
  have hunitless : (unitless "width" "height" == unitless "height" "width") = true := rfl
  have hupper : (sizes "Contoso" "width" "height" == sizes "CONTOSO" "height" "width") = true := by
    rw [hcompare _ _ (hsizes _ _ _ rfl) (hsizes _ _ _ rfl)]
    rfl
  have hlower : (sizes "CONTOSO" "height" "width" == sizes "contoso" "width" "height") = true := by
    refine hsymm _ _ ?_
    rw [hcompare _ _ (hsizes _ _ _ rfl) (hsizes _ _ _ rfl)]
    rfl
  exact ⟨hsizes _ _ _ rfl, hsizes _ _ _ rfl, hupper, hlower, htrans _ _ _ hupper hlower,
    haccepts _ _ _ _ hupper hunitless, rfl, hreadOnly _ _ hunitless, hflags _ _ _ hunitless,
    hunion _ _ (.cons hunitless (.cons hupper .nil))⟩

end Ty

end ResourceLang
