import ResourceLang.Proofs.Ty.ReadOnly
import ResourceLang.Proofs.Ty.Union

/-!
# Well-formed types — what construction and conversion keep at every depth

A type is well formed if, at every depth, properties stand under their names, the members of a discriminated
object stand in order under the texts they declare, and unions are canonical. Not every function that makes a
type checks this: read-only views of objects, types with further flags and the empty union are written down
as they are. That they are well formed all the same is because the checked part of the type they are made
from is not touched, or is built anew.

`Built` are the types that can be made by construction, by conversion and by taking types apart, in any
composition.

* **`WellFormed.readOnly`** — a read-only view is well formed at every depth.
* **`Built.wellFormed`** — so is every type that is built.
-/

namespace ResourceLang

namespace Ty

/-- What is required of a type itself, apart from its parts. -/
def Coherent : Ty → Prop
  | object o => NamedProperties o.properties
  | discriminated d => KeyedMembers d.discriminator d.members
  | union members => DistinctAlternatives members
  | _ => True

/-- What is required of a type holds at every depth. -/
def WellFormed (t : Ty) : Prop := t.Everywhere Coherent

/-- The types that are made by construction and conversion. -/
inductive Built : Ty → Prop where
  | any : Built any
  | error (diagnostic : Diagnostic) : Built (error diagnostic)
  | primitive (kind : PrimitiveKind) (validation : ValidationFlags) : Built (primitive kind validation)
  | literal (value : String) : Built (literal value)
  | array {item : Ty} (hitem : Built item) : Built (array item)
  | anyObject : Built anyObject
  /-- An object type with properties and a type for all others. -/
  | object {name : String} {validation : ValidationFlags} {properties : List Property}
      {additional : Option Ty} {flags : PropertyFlags} {o : ObjectTy}
      (hproperties : ∀ p ∈ properties, Built p.type) (hadditional : ∀ t ∈ additional, Built t)
      (hbuild : ObjectTy.ofProperties name validation properties additional flags = .ok o) :
      Built (object o)
  /-- An object type from a draft. -/
  | drafted {draft : ObjectDraft} {o : ObjectTy} (hproperties : ∀ p ∈ draft.properties, Built p.type)
      (hadditional : ∀ t ∈ draft.additional, Built t) (hbuild : draft.build = .ok o) : Built (.object o)
  /-- A discriminated object with the given members. -/
  | discriminated {name discriminator : String} {validation : ValidationFlags} {members : List ObjectTy}
      {d : DiscriminatedTy} (hmembers : ∀ m ∈ members, Built (.object m))
      (hbuild : DiscriminatedTy.ofMembers name validation discriminator members = .ok d) :
      Built (discriminated d)
  | union {types : List Ty} (htypes : ∀ t ∈ types, Built t) : Built (unionOf types)
  | never : Built never
  | resource {r : ResourceTy} (hbody : Built r.body) : Built (resource r)
  | withBody {r : ResourceTy} {body : Ty} (hresource : Built (.resource r)) (hbody : Built body) :
      Built (.resource (r.withBody body))
  | readOnly {t : Ty} (h : Built t) : Built t.readOnly
  | withValidation {t : Ty} (h : Built t) (flags : ValidationFlags) : Built (t.withValidation flags)
  | anchoredAt {t : Ty} (h : Built t) (span : Span) : Built (t.anchoredAt span)
  /-- What a type that is built holds. -/
  | part {t part : Ty} (h : Built t) (hpart : part ∈ t.parts) : Built part

/-! ## Construction -/

theorem wellFormed_array {item : Ty} (h : item.WellFormed) : (array item).WellFormed := by
  refine .intro trivial fun part hpart => ?_
  rw [List.mem_singleton.mp hpart]
  exact h

theorem wellFormed_anyObject : anyObject.WellFormed := by
  refine .intro NamedProperties.empty fun part hpart => ?_
  rw [List.mem_singleton.mp hpart]
  exact .leaf rfl trivial

theorem wellFormed_never : never.WellFormed :=
  .leaf rfl ⟨List.not_mem_nil, fun _ => List.not_mem_nil, List.Pairwise.nil, Nat.zero_ne_one⟩

/-- An object type that was constructed from well-formed types. -/
theorem wellFormed_of_ofProperties {name : String} {validation : ValidationFlags}
    {properties : List Property} {additional : Option Ty} {flags : PropertyFlags} {o : ObjectTy}
    (hproperties : ∀ p ∈ properties, p.type.WellFormed) (hadditional : ∀ t ∈ additional, t.WellFormed)
    (h : ObjectTy.ofProperties name validation properties additional flags = .ok o) :
    (object o).WellFormed := by
  obtain ⟨hnamed, hgiven, hsame⟩ := ObjectTy.ofProperties_eq_ok h
  refine .intro hnamed fun part hpart => ?_
  rcases List.mem_append.mp hpart with hpart | hpart
  · obtain ⟨p, hp, rfl⟩ := List.mem_map.mp hpart
    exact hproperties p (hgiven p hp)
  · rw [hsame] at hpart
    exact hadditional part (Option.mem_toList.mp hpart)

/-- A discriminated object that was constructed from well-formed members. -/
theorem wellFormed_of_ofMembers {name discriminator : String} {validation : ValidationFlags}
    {members : List ObjectTy} {d : DiscriminatedTy} (hmembers : ∀ m ∈ members, (object m).WellFormed)
    (h : DiscriminatedTy.ofMembers name validation discriminator members = .ok d) :
    (discriminated d).WellFormed := by
  obtain ⟨hkeyed, hgiven⟩ := DiscriminatedTy.ofMembers_eq_ok h
  refine .intro hkeyed fun part hpart => ?_
  obtain ⟨m, hm, rfl⟩ := List.mem_map.mp hpart
  exact hmembers m (hgiven m hm)

theorem wellFormed_unionOf {types : List Ty} (h : ∀ t ∈ types, t.WellFormed) : (unionOf types).WellFormed :=
  unionOf_everywhere trivial (fun _ => Iff.rfl) h

theorem wellFormed_resource {r : ResourceTy} (h : r.body.WellFormed) : (resource r).WellFormed := by
  refine .intro trivial fun part hpart => ?_
  rw [List.mem_singleton.mp hpart]
  exact h

end Ty

/-! ## Read-only views -/

/-- Views of properties stand under their names. -/
theorem NamedProperties.map_readOnly {properties : Keyed String Property} (h : NamedProperties properties) :
    NamedProperties (properties.map Property.readOnly) := by
  refine ⟨?_, ?_⟩
  · rw [Keyed.DistinctKeys, Keyed.keys_map]
    exact h.distinct
  · intro e he
    obtain ⟨e', he', rfl⟩ := List.mem_map.mp he
    show (e'.2.readOnly e'.1).name = e'.1
    rw [← h.named e' he']
    exact e'.2.readOnly_converted.name

/-- The view of an object holds the same types. -/
theorem ObjectTy.parts_readOnly (o : ObjectTy) : o.readOnly.parts = o.parts := by
  have htypes : o.readOnly.properties.values.map Property.type = o.properties.values.map Property.type := by
    show (o.properties.map Property.readOnly).values.map Property.type = o.properties.values.map Property.type
    rw [Keyed.values_map, Keyed.values, List.map_map, List.map_map]
    exact List.map_congr_left fun e _ => e.2.type_readOnly e.1
  rw [parts, parts, htypes]
  rfl

namespace Ty.WellFormed

theorem readOnly_object {o : ObjectTy} (h : (object o).WellFormed) : (object o.readOnly).WellFormed := by
  have hnamed : NamedProperties o.properties := h.here
  refine Everywhere.of_parts_subset h ?_ hnamed.map_readOnly
  show o.readOnly.parts ⊆ o.parts
  rw [o.parts_readOnly]
  exact List.Subset.refl _

/-- **A read-only view is well formed**: that of an object because no key and no type in it changes, that of a
    discriminated object because it is built anew from such views. -/
theorem readOnly {t : Ty} (h : t.WellFormed) : t.readOnly.WellFormed := by
  cases t with
  | object o => exact h.readOnly_object
  | discriminated d =>
      show d.readOnly.WellFormed
      rcases d.readOnly_cases with ⟨diagnostic, hview⟩ | ⟨view, hview, hkeyed, hviews⟩
      · rw [hview]
        exact .leaf rfl trivial
      · rw [hview]
        refine .intro hkeyed fun part hpart => ?_
        obtain ⟨o, ho, rfl⟩ := List.mem_map.mp hpart
        obtain ⟨m, hm, rfl⟩ := hviews o ho
        have hmember : (object m).WellFormed := h.part (List.mem_map_of_mem hm)
        exact hmember.readOnly_object
  | _ => exact h

/-! ## Flags and positions -/

/-- Further flags change neither what a type holds nor what is required of it. -/
theorem withValidation {t : Ty} (h : t.WellFormed) (flags : ValidationFlags) :
    (t.withValidation flags).WellFormed := by
  cases t with
  | primitive kind validation => exact .leaf rfl trivial
  | object o => exact .intro h.here fun _ hpart => h.part hpart
  | discriminated d => exact .intro h.here fun _ hpart => h.part hpart
  | _ => exact h

theorem anchoredAt {t : Ty} (h : t.WellFormed) (span : Span) : (t.anchoredAt span).WellFormed := by
  cases t with
  | error diagnostic =>
      rw [Ty.anchoredAt]
      by_cases hnil : diagnostic.span = Span.nil
      · rw [if_pos hnil]
        exact .leaf rfl trivial
      · rw [if_neg hnil]
        exact h
  | _ => exact h

end Ty.WellFormed

/-- **Every type that is built is well formed**, by induction on how it was built. -/
theorem Ty.Built.wellFormed {t : Ty} (h : t.Built) : t.WellFormed := by
  induction h with
  | any => exact .leaf rfl trivial
  | error diagnostic => exact .leaf rfl trivial
  | primitive kind validation => exact .leaf rfl trivial
  | literal value => exact .leaf rfl trivial
  | array hitem ih => exact wellFormed_array ih
  | anyObject => exact wellFormed_anyObject
  | object hproperties hadditional hbuild ihproperties ihadditional =>
      exact wellFormed_of_ofProperties ihproperties ihadditional hbuild
  | drafted hproperties hadditional hbuild ihproperties ihadditional =>
      exact wellFormed_of_ofProperties ihproperties ihadditional hbuild
  | discriminated hmembers hbuild ih => exact wellFormed_of_ofMembers ih hbuild
  | union htypes ih => exact wellFormed_unionOf ih
  | never => exact wellFormed_never
  | resource hbody ih => exact wellFormed_resource ih
  | withBody hresource hbody ihresource ihbody => exact wellFormed_resource ihbody
  | readOnly h ih => exact ih.readOnly
  | withValidation h flags ih => exact ih.withValidation flags
  | anchoredAt h span ih => exact ih.anchoredAt span
  | part h hpart ih => exact ih.part hpart

end ResourceLang
