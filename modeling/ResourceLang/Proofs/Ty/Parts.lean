import ResourceLang.Ty.Basic

/-!
# Parts — what a type is made of, and what holds of it at every depth

The parts of a type are the types it holds directly: the item of an array, the types of the properties of an
object and of all others, the members of a union, the body of a resource. A discriminated object holds its
members as object types. What holds of a type, of its parts, of their parts and so on holds `Everywhere`.

* **`holds_of_parts`** — what holds of a type as soon as it holds of its parts holds of every type.
* **`Everywhere.of_parts_subset`** — a type without parts of its own needs to be looked at once.
-/

namespace ResourceLang

/-- The types of the properties, and the type of all others if others are allowed. -/
def ObjectTy.parts (o : ObjectTy) : List Ty :=
  o.properties.values.map Property.type ++ o.additional.toList

namespace Ty

/-- The types that a type holds directly. -/
def parts : Ty → List Ty
  | any | error _ | primitive _ _ | literal _ => []
  | array item => [item]
  | object o => o.parts
  | discriminated d => d.members.values.map object
  | union members => members
  | resource r => [r.body]

/-- A part is smaller than the type that holds it, through all that stands in between. -/
theorem sizeOf_lt_of_mem_parts {t part : Ty} (h : part ∈ t.parts) : sizeOf part < sizeOf t := by
  cases t with
  | any => exact nomatch h
  | error _ => exact nomatch h
  | primitive _ _ => exact nomatch h
  | literal _ => exact nomatch h
  | array item =>
      rw [List.mem_singleton.mp h]
      simp
  | object o =>
      obtain ⟨n, v, ⟨ps⟩, a, f⟩ := o
      rcases List.mem_append.mp h with h | h
      · obtain ⟨p, hp, rfl⟩ := List.mem_map.mp h
        obtain ⟨⟨k, n', t, f', d⟩, he, rfl⟩ := List.mem_map.mp hp
        have hentry := List.sizeOf_lt_of_mem he
        simp at hentry ⊢
        omega
      · obtain rfl : a = some part := Option.mem_toList.mp h
        simp
        omega
  | discriminated d =>
      obtain ⟨n, v, k, ⟨ms⟩⟩ := d
      obtain ⟨m, hm, rfl⟩ := List.mem_map.mp h
      obtain ⟨⟨key, m⟩, he, rfl⟩ := List.mem_map.mp hm
      have hentry := List.sizeOf_lt_of_mem he
      simp at hentry ⊢
      omega
  | union members =>
      have hmember : sizeOf part < sizeOf members := List.sizeOf_lt_of_mem h
      simp
      omega
  | resource r =>
      obtain ⟨r, body⟩ := r
      rw [List.mem_singleton.mp h]
      simp
      omega

/-- What holds of a type as soon as it holds of its parts holds of every type. -/
theorem holds_of_parts {P : Ty → Prop} (step : ∀ t : Ty, (∀ part ∈ t.parts, P part) → P t) (t : Ty) : P t :=
  step t fun part hpart =>
    have : sizeOf part < sizeOf t := sizeOf_lt_of_mem_parts hpart
    holds_of_parts step part
termination_by sizeOf t

/-- What holds of the type and of all that it holds, at every depth. -/
inductive Everywhere (P : Ty → Prop) : Ty → Prop where
  | intro {t : Ty} (here : P t) (inside : ∀ part ∈ t.parts, Everywhere P part) : Everywhere P t

namespace Everywhere

variable {P : Ty → Prop} {t u : Ty}

theorem here (h : t.Everywhere P) : P t := by
  cases h with
  | intro here _ => exact here

theorem part (h : t.Everywhere P) {part : Ty} (hpart : part ∈ t.parts) : part.Everywhere P := by
  cases h with
  | intro _ inside => exact inside part hpart

/-- A type that holds nothing. -/
theorem leaf (hparts : t.parts = []) (here : P t) : t.Everywhere P := by
  refine .intro here ?_
  rw [hparts]
  intro part hpart
  exact nomatch hpart

/-- A type that holds nothing but parts of another one. -/
theorem of_parts_subset (h : t.Everywhere P) (hparts : u.parts ⊆ t.parts) (here : P u) :
    u.Everywhere P := .intro here fun _ hpart => h.part (hparts hpart)

end Everywhere

end Ty

end ResourceLang
