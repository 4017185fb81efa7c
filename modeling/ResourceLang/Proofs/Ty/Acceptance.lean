import ResourceLang.Ty.Acceptance

/-!
# Acceptance as an order — reflexive, and transitive where nothing lenient stands in between

A union stands for its members, and these may be unions again: what a type offers in the end are its `choices`,
none of which is a union. One type accepts another if each choice of the other is lenient or is accepted by some
choice of the one. Between two choices the test is a comparison of kinds, of texts, of references or of the items
of arrays.

`any` and errors go with everything, so acceptance cannot be transitive across them. They are in the way only
where the test looks: in items of arrays and in members of unions.

* **`accepts_iff`** — acceptance is decided between choices.
* **`accepts_of_choices`** — two steps of acceptance between choices make one.
* **`accepts_preorder`** — acceptance is reflexive, and transitive across types in which nothing lenient can be
  reached.
-/

namespace ResourceLang

namespace Ty

/-- The type goes with everything: it is `any`, or there is none. -/
def Lenient (t : Ty) : Prop := t.isAny = true ∨ t.isError = true

/-- What can be reached in a type through the items of arrays and the members of unions. -/
inductive Reaches : Ty → Ty → Prop where
  | here (t : Ty) : Reaches t t
  | item {item u : Ty} (h : Reaches item u) : Reaches (array item) u
  | member {members : List Ty} {m u : Ty} (hm : m ∈ members) (h : Reaches m u) : Reaches (union members) u

mutual

/-- The members of a union, with the members of those that are unions again; any other type alone. -/
def choices : Ty → List Ty
  | union members => choicesOf members
  | t => [t]
termination_by structural t => t

/-- The choices of some types. -/
def choicesOf : List Ty → List Ty
  | [] => []
  | t :: ts => t.choices ++ choicesOf ts
termination_by structural ts => ts

end

/-- What holds of arrays and unions if it holds of what they are made of, and of all other types, holds of every
    type. -/
theorem holds_of_items {P : Ty → Prop} (array : ∀ item, P item → P (.array item))
    (union : ∀ members, (∀ m ∈ members, P m) → P (.union members))
    (other : ∀ t, (∀ item, t ≠ .array item) → (∀ members, t ≠ .union members) → P t) : (t : Ty) → P t
  | .array item => array item (holds_of_items array union other item)
  | .union members => union members fun m hm => by
      have : sizeOf m < sizeOf members := List.sizeOf_lt_of_mem hm
      exact holds_of_items array union other m
  | .any => other _ nofun nofun
  | .error _ => other _ nofun nofun
  | .primitive _ _ => other _ nofun nofun
  | .literal _ => other _ nofun nofun
  | .object _ => other _ nofun nofun
  | .discriminated _ => other _ nofun nofun
  | .resource _ => other _ nofun nofun

/-! ## Choices -/

theorem mem_choicesOf {members : List Ty} {u : Ty} : u ∈ choicesOf members ↔ ∃ m ∈ members, u ∈ m.choices := by
  induction members with
  | nil => exact ⟨nofun, fun ⟨_, hm, _⟩ => nomatch hm⟩
  | cons t ts ih =>
      rw [choicesOf, List.mem_append, ih]
      constructor
      · rintro (h | ⟨m, hm, h⟩)
        · exact ⟨t, List.mem_cons_self, h⟩
        · exact ⟨m, List.mem_cons_of_mem t hm, h⟩
      · rintro ⟨m, hm, h⟩
        rcases List.mem_cons.mp hm with rfl | hm
        · exact Or.inl h
        · exact Or.inr ⟨m, hm, h⟩

theorem mem_choices_union {members : List Ty} {u : Ty} :
    u ∈ (union members).choices ↔ ∃ m ∈ members, u ∈ m.choices := mem_choicesOf

/-- A type that is no union has no choice but itself. -/
theorem choices_eq_singleton {t : Ty} (h : ∀ members, t ≠ union members) : t.choices = [t] := by
  cases t with
  | union members => exact absurd rfl (h members)
  | _ => rfl

/-- No choice is a union. -/
theorem ne_union_of_mem_choices (t : Ty) : ∀ u ∈ t.choices, ∀ members, u ≠ union members := by
  induction t using holds_of_items with
  | array item _ =>
      intro u hu members
      rw [List.mem_singleton.mp hu]
      exact nofun
  | union members ih =>
      intro u hu
      obtain ⟨m, hm, hu⟩ := mem_choices_union.mp hu
      exact ih m hm u hu
  | other t _ hunion =>
      intro u hu
      rw [choices_eq_singleton hunion, List.mem_singleton] at hu
      rw [hu]
      exact hunion

/-! ## Acceptance between choices -/

/-- A type that is no union is put to the test as it is. -/
theorem accepts_of_ne_union (a : Ty) {g : Ty} (hg : ∀ members, g ≠ union members) :
    a.accepts g = a.acceptsMember g := by
  cases g with
  | union members => exact absurd rfl (hg members)
  | _ => rfl

theorem acceptsMember_resource (r r' : ResourceTy) :
    (resource r).acceptsMember (resource r') = (r.reference == r'.reference) := by
  cases r
  cases r'
  rfl

/-- A type is accepted if its choices are. -/
theorem accepts_iff_given (a c : Ty) : a.accepts c = true ↔ ∀ g ∈ c.choices, a.accepts g = true := by
  induction c using holds_of_items with
  | array item _ => exact (List.forall_mem_singleton (p := fun g => a.accepts g = true)).symm
  | union members ih =>
      rw [accepts_union, List.all_eq_true]
      constructor
      · intro h g hg
        obtain ⟨m, hm, hg⟩ := mem_choices_union.mp hg
        exact (ih m hm).mp (h m hm) g hg
      · intro h m hm
        exact (ih m hm).mpr fun g hg => h g (mem_choices_union.mpr ⟨m, hm, hg⟩)
  | other t _ hunion =>
      rw [choices_eq_singleton hunion]
      exact (List.forall_mem_singleton (p := fun g => a.accepts g = true)).symm

/-- What is lenient is accepted everywhere. -/
theorem accepts_of_lenient_given (a : Ty) {g : Ty} (hg : g.Lenient) : a.accepts g = true := by
  cases g with
  | any => cases a <;> rfl
  | error _ => cases a <;> rfl
  | _ => rcases hg with hg | hg <;> exact nomatch hg

/-- What is lenient accepts everything. -/
theorem Lenient.accepts {a : Ty} (ha : a.Lenient) (c : Ty) : a.accepts c = true := by
  rw [accepts_iff_given]
  intro g hg
  rw [accepts_of_ne_union a (ne_union_of_mem_choices c g hg)]
  cases a with
  | any => cases g <;> rfl
  | error _ => cases g <;> rfl
  | _ => rcases ha with ha | ha <;> exact nomatch ha

theorem anyAcceptsMember_eq_any (members : List Ty) (g : Ty) :
    anyAcceptsMember members g = members.any fun m => m.acceptsMember g := by
  induction members with
  | nil => rfl
  | cons t ts ih => rw [anyAcceptsMember, ih, List.any_cons]

/-- A union accepts what some member accepts. -/
theorem union_accepts_iff (members : List Ty) {g : Ty} (hg : ∀ inner, g ≠ union inner) (hstrict : ¬g.Lenient) :
    (union members).accepts g = true ↔ ∃ m ∈ members, m.accepts g = true := by
  have hany : (union members).acceptsMember g = anyAcceptsMember members g := by
    cases g with
    | any => exact absurd (Or.inl rfl) hstrict
    | error _ => exact absurd (Or.inr rfl) hstrict
    | _ => rfl
  rw [accepts_of_ne_union _ hg, hany, anyAcceptsMember_eq_any, List.any_eq_true]
  exact exists_congr fun m => and_congr_right fun _ => by rw [accepts_of_ne_union m hg]

/-- A type accepts what some choice of it accepts. -/
theorem accepts_iff_expected (a : Ty) {g : Ty} (hg : ∀ inner, g ≠ union inner) (hstrict : ¬g.Lenient) :
    a.accepts g = true ↔ ∃ e ∈ a.choices, e.accepts g = true := by
  induction a using holds_of_items with
  | array item _ => simp only [choices, List.mem_singleton, exists_eq_left]
  | union members ih =>
      rw [union_accepts_iff members hg hstrict]
      constructor
      · rintro ⟨m, hm, h⟩
        obtain ⟨e, he, h⟩ := (ih m hm).mp h
        exact ⟨e, mem_choices_union.mpr ⟨m, hm, he⟩, h⟩
      · rintro ⟨e, he, h⟩
        obtain ⟨m, hm, he⟩ := mem_choices_union.mp he
        exact ⟨m, hm, (ih m hm).mpr ⟨e, he, h⟩⟩
  | other t _ hunion =>
      simp only [choices_eq_singleton hunion, List.mem_singleton, exists_eq_left]

/-- **Acceptance is decided between choices**: each choice of the given type is lenient or is accepted by a choice
    of the expected one. -/
theorem accepts_iff (a c : Ty) :
    a.accepts c = true ↔ ∀ g ∈ c.choices, g.Lenient ∨ ∃ e ∈ a.choices, e.accepts g = true := by
  rw [accepts_iff_given]
  refine forall₂_congr fun g hg => ?_
  by_cases hlenient : g.Lenient
  · exact ⟨fun _ => Or.inl hlenient, fun _ => accepts_of_lenient_given a hlenient⟩
  · rw [accepts_iff_expected a (ne_union_of_mem_choices c g hg) hlenient, or_iff_right hlenient]

/-! ## Two steps -/

/-- **Two steps between choices make one**, given that two steps between items do. The type in the middle must
    not be lenient. -/
theorem accepts_of_choices {e b g : Ty} (he : ∀ members, e ≠ union members) (hb : ∀ members, b ≠ union members)
    (hg : ∀ members, g ≠ union members) (hstrict : ¬b.Lenient)
    (hitems : ∀ item, b = array item → ∀ i j : Ty, i.accepts item = true → item.accepts j = true →
      i.accepts j = true)
    (heb : e.accepts b = true) (hbg : b.accepts g = true) : e.accepts g = true := by
  by_cases hfirst : e.Lenient
  · exact hfirst.accepts g
  by_cases hlast : g.Lenient
  · exact accepts_of_lenient_given e hlast
  rw [accepts_of_ne_union _ hb] at heb
  rw [accepts_of_ne_union _ hg] at hbg ⊢
  cases b with
  | any => exact absurd (Or.inl rfl) hstrict
  | error _ => exact absurd (Or.inr rfl) hstrict
  | union members => exact absurd rfl (hb members)
  | array item =>
      -- what accepts an array and what an array accepts are arrays, so the items decide
      cases e with
      | any => exact absurd (Or.inl rfl) hfirst
      | error _ => exact absurd (Or.inr rfl) hfirst
      | union members => exact absurd rfl (he members)
      | array i =>
          cases g with
          | any => exact absurd (Or.inl rfl) hlast
          | error _ => exact absurd (Or.inr rfl) hlast
          | array j => exact hitems item rfl i j heb hbg
          | _ => exact nomatch hbg
      | _ => exact nomatch heb
  | primitive kind _ => cases e <;> cases g <;> simp_all [acceptsMember]
  | literal value => cases e <;> cases g <;> simp_all [acceptsMember]
  | object _ => cases e <;> cases g <;> simp_all [acceptsMember]
  | discriminated _ => cases e <;> cases g <;> simp_all [acceptsMember]
  | resource r =>
      cases e with
      | any => exact absurd (Or.inl rfl) hfirst
      | error _ => exact absurd (Or.inr rfl) hfirst
      | union members => exact absurd rfl (he members)
      | resource r' =>
          cases g with
          | any => exact absurd (Or.inl rfl) hlast
          | error _ => exact absurd (Or.inr rfl) hlast
          | resource r'' =>
              rw [acceptsMember_resource] at heb hbg ⊢
              exact BEq.trans heb hbg
          | _ => exact nomatch hbg
      | _ => exact nomatch heb

/-- Two steps across a type that is no union make one, given that two steps between items do. -/
theorem accepts_of_ne_union_between {a b c : Ty} (hb : ∀ members, b ≠ union members) (hstrict : ¬b.Lenient)
    (hitems : ∀ item, b = array item → ∀ i j : Ty, i.accepts item = true → item.accepts j = true →
      i.accepts j = true)
    (hab : a.accepts b = true) (hbc : b.accepts c = true) : a.accepts c = true := by
  obtain ⟨e, he, heb⟩ := (accepts_iff_expected a hb hstrict).mp hab
  rw [accepts_iff]
  intro g hg
  have hbg : b.accepts g = true := (accepts_iff_given b c).mp hbc g hg
  have heg : e.accepts g = true := accepts_of_choices (ne_union_of_mem_choices a e he) hb
    (ne_union_of_mem_choices c g hg) hstrict hitems heb hbg
  exact Or.inr ⟨e, he, heg⟩

/-- Two steps across a type in which nothing lenient can be reached make one, by induction on that type. -/
theorem accepts_trans_of_strict (b : Ty) : (∀ u, b.Reaches u → ¬u.Lenient) → ∀ a c : Ty, a.accepts b = true →
    b.accepts c = true → a.accepts c = true := by
  induction b using holds_of_items with
  | array item ih =>
      intro hstrict a c
      refine accepts_of_ne_union_between nofun (hstrict _ (.here _)) ?_
      rintro _ ⟨⟩
      exact ih fun u hu => hstrict u (.item hu)
  | union members ih =>
      intro hstrict a c hab hbc
      rw [accepts_union, List.all_eq_true] at hab
      rw [accepts_iff_given]
      intro g hg
      by_cases hlenient : g.Lenient
      · exact accepts_of_lenient_given a hlenient
      · -- the member that accepts this choice is accepted in turn
        have hunion : (union members).accepts g = true := (accepts_iff_given _ c).mp hbc g hg
        obtain ⟨m, hm, hmg⟩ := (union_accepts_iff members (ne_union_of_mem_choices c g hg) hlenient).mp hunion
        exact ih m hm (fun u hu => hstrict u (.member hm hu)) a g (hab m hm) hmg
  | other t harray hunion =>
      intro hstrict a c
      exact accepts_of_ne_union_between hunion (hstrict t (.here t)) fun item h => absurd h (harray item)

/-- Every type accepts itself: each choice of it accepts itself. -/
theorem accepts_refl (t : Ty) : t.accepts t = true := by
  induction t using holds_of_items with
  | array item ih => exact ih
  | union members ih =>
      rw [accepts_iff]
      intro g hg
      obtain ⟨m, hm, hgm⟩ := mem_choices_union.mp hg
      rcases (accepts_iff m m).mp (ih m hm) g hgm with hlenient | ⟨e, he, heg⟩
      · exact Or.inl hlenient
      · exact Or.inr ⟨e, mem_choices_union.mpr ⟨m, hm, he⟩, heg⟩
  | other t harray hunion =>
      rw [accepts_of_ne_union t hunion]
      cases t with
      | array item => exact absurd rfl (harray item)
      | union members => exact absurd rfl (hunion members)
      | primitive kind _ => exact beq_self_eq_true kind
      | literal value => exact beq_self_eq_true value
      | resource r =>
          rw [acceptsMember_resource]
          exact BEq.rfl
      | _ => rfl

/-- **Acceptance is reflexive, and transitive across types in which nothing lenient can be reached.** What stands
    before and after may be lenient, empty or a union at any depth. -/
theorem accepts_preorder :
    (∀ t : Ty, t.accepts t = true) ∧
      ∀ a b c : Ty, (∀ u, b.Reaches u → u.isAny = false ∧ u.isError = false) →
        a.accepts b = true → b.accepts c = true → a.accepts c = true := by
  refine ⟨accepts_refl, fun a b c hreach => accepts_trans_of_strict b ?_ a c⟩
  rintro u hu (hany | herror)
  · exact Bool.false_ne_true ((hreach u hu).1.symm.trans hany)
  · exact Bool.false_ne_true ((hreach u hu).2.symm.trans herror)

/-- Lists of texts stand between a union that takes lists of anything and one that offers, besides lists of one
    text, nothing and anything. -/
theorem accepts_across_texts :
    (∀ u, (union [array string, never]).Reaches u → u.isAny = false ∧ u.isError = false) ∧
      (union [int, array (union [bool, any])]).accepts (union [array string, never]) = true ∧
      (union [array string, never]).accepts (union [array (literal "a"), union [], any]) = true ∧
      (union [int, array (union [bool, any])]).accepts (union [array (literal "a"), union [], any]) = true := by
  have hstrict : ∀ u, (union [array string, never]).Reaches u → u.isAny = false ∧ u.isError = false := by
    intro u hu
    cases hu with
    | here => exact ⟨rfl, rfl⟩
    | member hm hu =>
        simp only [List.mem_cons, List.not_mem_nil, or_false] at hm
        rcases hm with rfl | rfl
        · cases hu with
          | here => exact ⟨rfl, rfl⟩
          | item hu =>
              cases hu
              exact ⟨rfl, rfl⟩
        · cases hu with
          | here => exact ⟨rfl, rfl⟩
          | member hm _ => exact nomatch hm
  obtain ⟨-, htrans⟩ := accepts_preorder
  exact ⟨hstrict, rfl, rfl, htrans _ _ _ hstrict rfl rfl⟩

/-- Across `any`, two steps need not make one. -/
example : (literal "a").accepts any = true ∧ any.accepts int = true ∧ (literal "a").accepts int = false := by
  decide

end Ty

end ResourceLang
