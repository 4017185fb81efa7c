import ResourceLang.Proofs.Ty.Parts
import ResourceLang.Proofs.Ty.ReadOnly
import ResourceLang.Ty.Diagnostics

/-!
# Errors within types — what read-only views do to them

The errors within a type are found by walking it from left to right. A read-only view changes flags and no types, so
the view of an object has the errors that the object has. The view of a discriminated object is built anew and its
members may come in another order, but none is lost: the errors are the same up to order.

* **`diagnosticsOfMembers_eq_flatMap`** — the errors of members, member by member.
* **`Ty.diagnostics_eq_flatMap_parts`** — the errors within a type, part by part.
* **`Ty.diagnostics_readOnly`** — the errors of a view.
-/

namespace ResourceLang

/-- The errors of members are those of one member after the other. -/
theorem diagnosticsOfMembers_eq_flatMap (members : List (String × ObjectTy)) :
    diagnosticsOfMembers members = (members.map Prod.snd).flatMap ObjectTy.diagnostics := by
  induction members with
  | nil => rfl
  | cons e rest ih =>
      obtain ⟨key, o⟩ := e
      rw [diagnosticsOfMembers, ih, List.map_cons, List.flatMap_cons]

/-- The errors of a list of types are those of one type after the other. -/
theorem diagnosticsOfTypes_eq_flatMap (types : List Ty) :
    diagnosticsOfTypes types = types.flatMap Ty.diagnostics := by
  induction types with
  | nil => rfl
  | cons t rest ih => rw [diagnosticsOfTypes, ih, List.flatMap_cons]

/-- The errors of properties are those of one type after the other. -/
theorem diagnosticsOfProperties_eq_flatMap (properties : List (String × Property)) :
    diagnosticsOfProperties properties = (properties.map fun e => e.2.type).flatMap Ty.diagnostics := by
  induction properties with
  | nil => rfl
  | cons e rest ih =>
      obtain ⟨key, ⟨name, type, flags, description⟩⟩ := e
      rw [diagnosticsOfProperties, ih, List.map_cons, List.flatMap_cons]

/-- **The errors within a type** that is no error itself are those of one part after the other. -/
theorem Ty.diagnostics_eq_flatMap_parts {t : Ty} (h : t.isError = false) :
    t.diagnostics = t.parts.flatMap Ty.diagnostics := by
  cases t with
  | error d => exact nomatch h
  | array item => exact (List.flatMap_singleton diagnostics item).symm
  | object o =>
      obtain ⟨name, validation, ⟨properties⟩, additional, flags⟩ := o
      have hothers : diagnosticsIfGiven additional = additional.toList.flatMap Ty.diagnostics := by
        cases additional with
        | none => rfl
        | some t => exact (List.flatMap_singleton diagnostics t).symm
      show diagnosticsOfProperties properties ++ diagnosticsIfGiven additional = _
      rw [diagnosticsOfProperties_eq_flatMap, hothers, ← List.flatMap_append]
      congr 2
      exact (List.map_map).symm
  | discriminated d =>
      obtain ⟨name, validation, discriminator, ⟨members⟩⟩ := d
      show diagnosticsOfMembers members = ((members.map Prod.snd).map object).flatMap Ty.diagnostics
      rw [diagnosticsOfMembers_eq_flatMap]
      exact (List.flatMap_map object Ty.diagnostics _).symm
  | union members => exact diagnosticsOfTypes_eq_flatMap members
  | resource r =>
      obtain ⟨reference, body⟩ := r
      exact (List.flatMap_singleton diagnostics body).symm
  | _ => rfl

/-- An error is found in itself. -/
theorem Ty.diagnostics_of_isError {t : Ty} (h : t.isError = true) : t.diagnostics ≠ [] := by
  cases t with
  | error d => exact List.cons_ne_nil d []
  | _ => exact nomatch h

/-- The errors within a resource are those of its body. -/
theorem Ty.diagnostics_resource (r : ResourceTy) : (resource r).diagnostics = r.body.diagnostics := by
  cases r
  rfl

/-- Converted properties have the types that they had. -/
theorem diagnosticsOfProperties_readOnly (properties : List (String × Property)) :
    diagnosticsOfProperties (properties.map fun e => (e.1, e.2.readOnly e.1)) =
      diagnosticsOfProperties properties := by
  induction properties with
  | nil => rfl
  | cons e rest ih =>
      obtain ⟨key, p⟩ := e
      have htype := p.type_readOnly key
      rw [List.map_cons]
      generalize p.readOnly key = view at htype
      obtain ⟨name, type, flags, description⟩ := p
      obtain ⟨name', type', flags', description'⟩ := view
      obtain rfl : type' = type := htype
      rw [diagnosticsOfProperties, diagnosticsOfProperties, ih]

theorem ObjectTy.diagnostics_readOnly (o : ObjectTy) : o.readOnly.diagnostics = o.diagnostics := by
  obtain ⟨name, validation, ⟨properties⟩, additional, flags⟩ := o
  show diagnosticsOfProperties (properties.map fun e => (e.1, e.2.readOnly e.1)) ++ diagnosticsIfGiven additional =
    diagnosticsOfProperties properties ++ diagnosticsIfGiven additional
  rw [diagnosticsOfProperties_readOnly]

/-- **The errors of a read-only view** are those of the type itself, up to order, if there is a view. -/
theorem Ty.diagnostics_readOnly {t : Ty} (h : t.readOnly.isError = false) :
    t.readOnly.diagnostics.Perm t.diagnostics := by
  cases t with
  | object o => exact List.Perm.of_eq o.diagnostics_readOnly
  | discriminated d =>
      obtain ⟨name, validation, discriminator, ⟨members⟩⟩ := d
      cases hmembers : collectMembers name discriminator .empty
          ((members.map Prod.snd).map ObjectTy.readOnly) with
      | error e =>
          have hview : (discriminated ⟨name, validation, discriminator, ⟨members⟩⟩).readOnly = .error _ :=
            DiscriminatedTy.readOnly_of_refused hmembers
          rw [hview] at h
          exact nomatch h
      | ok found =>
          have hview : (discriminated ⟨name, validation, discriminator, ⟨members⟩⟩).readOnly =
            discriminated ⟨name, validation, discriminator, found⟩ :=
            DiscriminatedTy.readOnly_of_collected hmembers
          have hvalues : found.values.Perm ((members.map Prod.snd).map ObjectTy.readOnly) :=
            perm_values_of_collected hmembers
          rw [hview]
          show (diagnosticsOfMembers found.entries).Perm (diagnosticsOfMembers members)
          rw [diagnosticsOfMembers_eq_flatMap, diagnosticsOfMembers_eq_flatMap]
          calc List.Perm (found.values.flatMap ObjectTy.diagnostics)
                (((members.map Prod.snd).map ObjectTy.readOnly).flatMap ObjectTy.diagnostics) :=
                hvalues.flatMap_right ObjectTy.diagnostics
            _ = (members.map Prod.snd).flatMap ObjectTy.diagnostics := by
                rw [List.flatMap_map]
                exact congrArg (fun f => List.flatMap f _) (funext ObjectTy.diagnostics_readOnly)
  | _ => exact List.Perm.refl _

end ResourceLang
