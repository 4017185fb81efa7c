import Mathlib.Data.List.Forall2
import Mathlib.Data.List.Lex
import ResourceLang.Proofs.Ascending
import ResourceLang.Proofs.Ty.Comparison
import ResourceLang.Proofs.Ty.Diagnostics
import ResourceLang.Proofs.Ty.Union

/-!
# Places — where in a type its errors stand, and that each of them is told

A place in a type is the way to it, step by step: to the item of an array, to a property or to all others, to a member
under its key, to an alternative, to the body of a resource. Steps from one type are ordered from left to right, so
that places are ordered as their steps are, the first different ones deciding.

The diagnostics of a type are those of the errors at its places, one for each place, in this order. They are found by
walking the type, so the proof goes along its parts: below a type that is no error itself, the places of errors are
those of its parts after one step each.

* **`exists_errorsBelow`** — the errors below a type, from those of its parts.
* **`exists_listsErrors`** — the errors of a type.
* **`perm_diagnostics_canonical`** — equal types have the same errors.
* **`diagnostics_told`** — no error is lost and none is invented, also by views, flags and unions.
-/

namespace ResourceLang.Ty

/-! ## Steps and places -/

/-- A step from a type to a part of it. -/
inductive Step where
  /-- To the item of an array. -/
  | item
  /-- To the type of a property, counted from zero in the order in which they were added. -/
  | property (index : Nat)
  /-- To the type of all other properties. -/
  | others
  /-- To the member of a discriminated object under a key. -/
  | member (key : String)
  /-- To a member of a union, counted from zero. -/
  | alternative (index : Nat)
  /-- To the body of a resource. -/
  | body

/-- The order of the steps from one type, from left to right. -/
inductive Step.Before : Step → Step → Prop where
  | properties {i j : Nat} (h : i < j) : Before (.property i) (.property j)
  | others (i : Nat) : Before (.property i) .others
  | members {key key' : String} (h : key < key') : Before (.member key) (.member key')
  | alternatives {i j : Nat} (h : i < j) : Before (.alternative i) (.alternative j)

/-- What the step leads to, if there is such a step from the type. -/
def part? : Ty → Step → Option Ty
  | array item, .item => some item
  | object o, .property i => o.properties.values[i]?.map Property.type
  | object o, .others => o.additional
  | discriminated d, .member key => (d.member? key).map object
  | union members, .alternative i => members[i]?
  | resource r, .body => some r.body
  | _, _ => none

/-- What stands at a place, if there is such a place in the type. -/
def at? : Ty → List Step → Option Ty
  | t, [] => some t
  | t, s :: place => (t.part? s).bind fun part => part.at? place

/-- The steps from the type, in the order of the parts. -/
def steps : Ty → List Step
  | any | error _ | primitive _ _ | literal _ => []
  | array _ => [.item]
  | object o => (List.range o.properties.size).map .property ++ o.additional.toList.map fun _ => .others
  | discriminated d => d.members.keys.map .member
  | union members => (List.range members.length).map .alternative
  | resource _ => [.body]

/-- The members of a discriminated object stand in order, each key once. -/
def MembersAscending : Ty → Prop
  | discriminated d => d.members.Ascending
  | _ => True

theorem at?_cons_of_part? {t part : Ty} {s : Step} (h : t.part? s = some part) (place : List Step) :
    t.at? (s :: place) = part.at? place := by
  rw [at?, h, Option.bind_some]

/-- Items that are counted are each found at their number. -/
theorem forall₂_range {R : Step → Ty → Prop} {step : Nat → Step} {types : List Ty}
    (h : ∀ i part, types[i]? = some part → R (step i) part) :
    List.Forall₂ R ((List.range types.length).map step) types := by
  rw [List.forall₂_iff_get]
  refine ⟨by rw [List.length_map, List.length_range], fun i hi hi' => ?_⟩
  rw [List.get_eq_getElem, List.get_eq_getElem, List.getElem_map, List.getElem_range]
  exact h i _ (List.getElem?_eq_getElem hi')

/-- Each step leads to the part in its place. -/
theorem forall₂_parts {t : Ty} (h : t.MembersAscending) :
    List.Forall₂ (fun s part => t.part? s = some part) t.steps t.parts := by
  cases t with
  | array item => exact .cons rfl .nil
  | object o =>
      have hproperties : List.Forall₂ (fun s part => (object o).part? s = some part)
          ((List.range o.properties.size).map .property) (o.properties.values.map Property.type) := by
        have hsize : o.properties.size = (o.properties.values.map Property.type).length := by
          rw [List.length_map, Keyed.values, List.length_map, Keyed.size]
        rw [hsize]
        refine forall₂_range fun i part hpart => ?_
        rw [List.getElem?_map] at hpart
        exact hpart
      have hothers : List.Forall₂ (fun s part => (object o).part? s = some part)
          (o.additional.toList.map fun _ => .others) o.additional.toList := by
        cases hadditional : o.additional with
        | none => exact .nil
        | some part => exact .cons hadditional .nil
      exact List.rel_append hproperties hothers
  | discriminated d =>
      show List.Forall₂ _ ((d.members.entries.map Prod.fst).map Step.member)
        ((d.members.entries.map Prod.snd).map object)
      rw [List.map_map, List.map_map, List.forall₂_map_left_iff, List.forall₂_map_right_iff, List.forall₂_same]
      intro e he
      exact congrArg (Option.map object) (Keyed.get?_of_mem (Keyed.Ascending.distinctKeys h) he)
  | union members => exact forall₂_range fun i part hpart => hpart
  | resource r => exact .cons rfl .nil
  | _ => exact .nil

/-- The steps of a type stand from left to right. -/
theorem pairwise_steps {t : Ty} (h : t.MembersAscending) : t.steps.Pairwise Step.Before := by
  cases t with
  | array item => exact List.pairwise_singleton _ _
  | object o =>
      refine List.pairwise_append.mpr ⟨?_, ?_, ?_⟩
      · exact List.pairwise_map.mpr (List.pairwise_lt_range.imp .properties)
      · cases o.additional with
        | none => exact .nil
        | some part => exact List.pairwise_singleton _ _
      · intro s hs s' hs'
        obtain ⟨i, -, rfl⟩ := List.mem_map.mp hs
        obtain ⟨part, -, rfl⟩ := List.mem_map.mp hs'
        exact .others i
  | discriminated d => exact List.pairwise_map.mpr (List.Pairwise.imp .members h)
  | union members => exact List.pairwise_map.mpr (List.pairwise_lt_range.imp .alternatives)
  | resource r => exact List.pairwise_singleton _ _
  | _ => exact .nil

/-- There are no other steps. -/
theorem mem_steps_of_part? {t part : Ty} {s : Step} (h : t.part? s = some part) : s ∈ t.steps := by
  cases t with
  | array item =>
      cases s with
      | item => exact List.mem_singleton_self _
      | _ => cases h
  | object o =>
      cases s with
      | property i =>
          obtain ⟨p, hp, -⟩ := Option.map_eq_some_iff.mp h
          obtain ⟨hi, -⟩ := List.getElem?_eq_some_iff.mp hp
          rw [Keyed.values, List.length_map] at hi
          exact List.mem_append_left _ (List.mem_map_of_mem (List.mem_range.mpr hi))
      | others =>
          have hadditional : o.additional = some part := h
          rw [steps, hadditional]
          exact List.mem_append_right _ (List.mem_singleton_self _)
      | _ => cases h
  | discriminated d =>
      cases s with
      | member key =>
          obtain ⟨m, hm, -⟩ := Option.map_eq_some_iff.mp h
          exact List.mem_map_of_mem (Keyed.contains_iff_mem_keys.mp (Option.isSome_of_eq_some hm))
      | _ => cases h
  | union members =>
      cases s with
      | alternative i =>
          obtain ⟨hi, -⟩ := List.getElem?_eq_some_iff.mp h
          exact List.mem_map_of_mem (List.mem_range.mpr hi)
      | _ => cases h
  | resource r =>
      cases s with
      | body => exact List.mem_singleton_self _
      | _ => cases h
  | _ => cases s <;> cases h

/-! ## Errors at places -/

/-- The places of the errors in a type: they stand from left to right, there is an error at no other place, and the
    diagnostics of the type are those of these errors. -/
structure ListsErrors (t : Ty) (places : List (List Step)) : Prop where
  ordered : places.Pairwise (List.Lex Step.Before)
  complete : ∀ place d, t.at? place = some (error d) → place ∈ places
  told : List.Forall₂ (fun place d => t.at? place = some (error d)) places t.diagnostics

/-- The places of the errors below a type that start with one of the steps. -/
structure ErrorsBelow (t : Ty) (steps : List Step) (places : List (List Step)) (found : List Diagnostic) : Prop where
  ordered : places.Pairwise (List.Lex Step.Before)
  below : ∀ place ∈ places, ∃ s ∈ steps, ∃ rest, place = s :: rest
  complete : ∀ s ∈ steps, ∀ rest d, t.at? (s :: rest) = some (error d) → s :: rest ∈ places
  told : List.Forall₂ (fun place d => t.at? place = some (error d)) places found

instance : Std.Asymm Step.Before where
  asymm s s' h h' := by
    cases h with
    | properties hij =>
        cases h' with
        | properties hji => exact Nat.lt_asymm hij hji
    | others i => exact nomatch h'
    | members hkeys =>
        cases h' with
        | members hkeys' => exact String.lt_asymm hkeys hkeys'
    | alternatives hij =>
        cases h' with
        | alternatives hji => exact Nat.lt_asymm hij hji

/-- Each place is listed once. -/
theorem ListsErrors.nodup {t : Ty} {places : List (List Step)} (h : t.ListsErrors places) : places.Nodup := by
  refine h.ordered.imp ?_
  rintro place _ hlt rfl
  exact Std.Asymm.asymm _ _ hlt hlt

/-- The errors of one part, and then those of the parts after it. -/
theorem ErrorsBelow.cons {t part : Ty} {s : Step} {later : List Step} {places places' : List (List Step)}
    {found : List Diagnostic} (hpart : t.part? s = some part) (hbefore : ∀ s' ∈ later, s.Before s')
    (hplaces : part.ListsErrors places) (hlater : t.ErrorsBelow later places' found) :
    t.ErrorsBelow (s :: later) (places.map (s :: ·) ++ places') (part.diagnostics ++ found) where
  ordered := by
    refine List.pairwise_append.mpr ⟨?_, hlater.ordered, ?_⟩
    · exact List.pairwise_map.mpr (hplaces.ordered.imp .cons)
    · intro place hplace place' hplace'
      obtain ⟨rest, -, rfl⟩ := List.mem_map.mp hplace
      obtain ⟨s', hs', rest', rfl⟩ := hlater.below place' hplace'
      exact .rel (hbefore s' hs')
  below := by
    intro place hplace
    rcases List.mem_append.mp hplace with hplace | hplace
    · obtain ⟨rest, -, rfl⟩ := List.mem_map.mp hplace
      exact ⟨s, List.mem_cons_self, rest, rfl⟩
    · obtain ⟨s', hs', rest, rfl⟩ := hlater.below place hplace
      exact ⟨s', List.mem_cons_of_mem s hs', rest, rfl⟩
  complete := by
    intro s' hs' rest d hd
    rcases List.mem_cons.mp hs' with rfl | hs'
    · rw [at?_cons_of_part? hpart] at hd
      exact List.mem_append_left _ (List.mem_map_of_mem (hplaces.complete rest d hd))
    · exact List.mem_append_right _ (hlater.complete s' hs' rest d hd)
  told := by
    refine List.rel_append (List.forall₂_map_left_iff.mpr (hplaces.told.imp fun rest d hd => ?_)) hlater.told
    rw [at?_cons_of_part? hpart]
    exact hd

/-- **The errors below a type** are those of its parts, each after the step to the part. -/
theorem exists_errorsBelow {t : Ty} {steps : List Step} {parts : List Ty}
    (hparts : List.Forall₂ (fun s part => t.part? s = some part) steps parts) (hsteps : steps.Pairwise Step.Before)
    (h : ∀ part ∈ parts, ∃ places, part.ListsErrors places) :
    ∃ places, t.ErrorsBelow steps places (parts.flatMap diagnostics) := by
  induction hparts with
  | nil => exact ⟨[], .nil, nofun, nofun, .nil⟩
  | cons hpart _ ih =>
      obtain ⟨hbefore, hlater⟩ := List.pairwise_cons.mp hsteps
      obtain ⟨places, hplaces⟩ := h _ List.mem_cons_self
      obtain ⟨places', hplaces'⟩ := ih hlater fun part hpart => h part (List.mem_cons_of_mem _ hpart)
      exact ⟨_, .cons hpart hbefore hplaces hplaces'⟩

/-- An error is at the place where one starts, and there is nothing below it. -/
theorem listsErrors_error (d : Diagnostic) : (error d).ListsErrors [[]] where
  ordered := List.pairwise_singleton _ _
  complete := by
    intro place d' hd'
    cases place with
    | nil => exact List.mem_singleton_self _
    | cons s rest => exact nomatch hd'
  told := .cons rfl .nil

/-- **The errors of a type** stand at places from left to right, and its diagnostics are theirs, by induction along
    the parts of the type. -/
theorem exists_listsErrors {t : Ty} : t.Everywhere MembersAscending → ∃ places, t.ListsErrors places := by
  induction t using holds_of_parts with
  | step t ih =>
      intro ht
      cases herror : t.isError with
      | true =>
          cases t with
          | error d => exact ⟨[[]], listsErrors_error d⟩
          | _ => exact nomatch herror
      | false =>
          obtain ⟨places, hplaces⟩ := exists_errorsBelow (forall₂_parts ht.here) (pairwise_steps ht.here)
            fun part hpart => ih part hpart (ht.part hpart)
          refine ⟨places, hplaces.ordered, ?_, diagnostics_eq_flatMap_parts herror ▸ hplaces.told⟩
          intro place d hd
          cases place with
          | nil =>
              rw [Option.some.inj hd] at herror
              exact nomatch herror
          | cons s rest =>
              obtain ⟨part, hpart, -⟩ := Option.bind_eq_some_iff.mp hd
              exact hplaces.complete s (mem_steps_of_part? hpart) rest d hd

/-! ## Views and flags -/

/-- The members of a discriminated object stand in order under the texts they declare. -/
def MembersKeyed : Ty → Prop
  | discriminated d => KeyedMembers d.discriminator d.members
  | _ => True

/-- A view of members that stand where they belong has their errors, in the same order. -/
theorem diagnostics_readOnly_of_keyed {t : Ty} (h : t.MembersKeyed) : t.readOnly.diagnostics = t.diagnostics := by
  cases t with
  | object o => exact o.diagnostics_readOnly
  | discriminated d =>
      have hview : (discriminated d).readOnly = discriminated _ := DiscriminatedTy.readOnly_of_keyed h
      rw [hview]
      obtain ⟨name, validation, discriminator, ⟨members⟩⟩ := d
      show diagnosticsOfMembers (members.map fun e => (e.1, ObjectTy.readOnly e.2)) = diagnosticsOfMembers members
      rw [diagnosticsOfMembers_eq_flatMap, diagnosticsOfMembers_eq_flatMap, List.map_map, List.flatMap_map,
        List.flatMap_map]
      exact congrArg (fun f => List.flatMap f _) (funext fun e => e.2.diagnostics_readOnly)
  | _ => rfl

theorem diagnostics_withValidation (flags : ValidationFlags) (t : Ty) :
    (t.withValidation flags).diagnostics = t.diagnostics := by
  cases t with
  | object o =>
      cases o
      rfl
  | discriminated d =>
      cases d
      rfl
  | _ => rfl

/-! ## Equal types and unions -/

/-- The parts of a canonical form are those of the type in canonical form, in another order. -/
theorem perm_parts_canonical (t : Ty) : t.canonical.parts.Perm (t.parts.map canonical) := by
  cases t with
  | object o =>
      obtain ⟨name, validation, ⟨properties⟩, additional, flags⟩ := o
      have hproperties := (perm_canonicalProperties properties).map fun e => e.2.type
      have hothers : (canonicalIfGiven additional).toList = additional.toList.map canonical := by
        cases additional <;> rfl
      show (((canonicalProperties properties).map Prod.snd).map Property.type ++
        (canonicalIfGiven additional).toList).Perm
          (((properties.map Prod.snd).map Property.type ++ additional.toList).map canonical)
      rw [hothers, List.map_append, List.map_map, List.map_map, List.map_map]
      rw [List.map_map] at hproperties
      exact hproperties.append_right _
  | discriminated d =>
      rw [canonical_discriminated]
      show List.Perm (((d.members.entries.map fun e => (e.1, e.2.canonical)).map Prod.snd).map object)
        (((d.members.entries.map Prod.snd).map object).map canonical)
      rw [List.map_map, List.map_map, List.map_map, List.map_map]
      exact List.Perm.refl _
  | union members =>
      rw [canonical, canonicalTypes_eq_map]
      exact List.Perm.refl _
  | resource r =>
      rw [canonical_resource]
      exact List.Perm.refl _
  | _ => exact List.Perm.refl _

/-- **Canonical forms have the same errors**, in another order. -/
theorem perm_diagnostics_canonical (t : Ty) : t.canonical.diagnostics.Perm t.diagnostics := by
  induction t using holds_of_parts with
  | step t ih =>
      cases herror : t.isError with
      | true =>
          cases t with
          | error d => exact List.Perm.refl _
          | _ => exact nomatch herror
      | false =>
          rw [diagnostics_eq_flatMap_parts herror,
            diagnostics_eq_flatMap_parts ((isError_canonical t).trans herror)]
          calc List.Perm (t.canonical.parts.flatMap diagnostics) ((t.parts.map canonical).flatMap diagnostics) :=
                t.perm_parts_canonical.flatMap_right diagnostics
            List.Perm _ (t.parts.flatMap fun part => part.canonical.diagnostics) :=
                List.Perm.of_eq (List.flatMap_map canonical diagnostics t.parts)
            List.Perm _ (t.parts.flatMap diagnostics) := List.Perm.flatMap_left t.parts ih

/-- Equal types have the same errors. -/
theorem mem_diagnostics_congr {t u : Ty} (h : (t == u) = true) {d : Diagnostic} :
    d ∈ t.diagnostics ↔ d ∈ u.diagnostics := by
  rw [← t.perm_diagnostics_canonical.mem_iff, (beq_iff_canonical_eq t u).mp h, u.perm_diagnostics_canonical.mem_iff]

/-- The errors within a type are those of its alternatives. -/
theorem diagnostics_eq_flatMap_alternatives (t : Ty) : t.diagnostics = t.alternatives.flatMap diagnostics := by
  cases t with
  | union members => exact diagnosticsOfTypes_eq_flatMap members
  | _ => exact (List.flatMap_singleton diagnostics _).symm

theorem diagnostics_ofAlternatives (members : List Ty) :
    (ofAlternatives members).diagnostics = members.flatMap diagnostics := by
  rcases ofAlternatives_cases members with ⟨t, rfl, hmake⟩ | ⟨-, hmake⟩
  · rw [hmake, List.flatMap_singleton]
  · rw [hmake]
    exact diagnosticsOfTypes_eq_flatMap members

/-- **The errors of a union** are those of the types it is made of, unless one of them is `any`. -/
theorem mem_diagnostics_unionOf {types : List Ty} (h : any ∉ types) {d : Diagnostic} :
    d ∈ (unionOf types).diagnostics ↔ ∃ t ∈ types, d ∈ t.diagnostics := by
  have hsame : ∀ a b : Ty, (a == b) = true → d ∈ b.diagnostics → d ∈ a.diagnostics :=
    fun a b hab => (mem_diagnostics_congr hab).mpr
  calc d ∈ (unionOf types).diagnostics
      ↔ ∃ a ∈ firsts [] (types.flatMap alternatives), d ∈ a.diagnostics := by
        rw [unionOf_of_not_mem_any h, diagnostics_ofAlternatives, List.mem_flatMap]
    _ ↔ ∃ a ∈ types.flatMap alternatives, d ∈ a.diagnostics := exists_mem_firsts_iff hsame _
    _ ↔ d ∈ types.flatMap fun t => t.alternatives.flatMap diagnostics := by
        rw [← List.flatMap_assoc, List.mem_flatMap]
    _ ↔ ∃ t ∈ types, d ∈ t.diagnostics := by
        rw [List.mem_flatMap]
        refine exists_congr fun t => and_congr_right fun _ => ?_
        rw [diagnostics_eq_flatMap_alternatives t]

/-- **No error is lost and none is invented.** The diagnostics of a type are those of the errors in it, one for each
    place, from left to right. Flags leave them as they are, and so does a read-only view if the members of a
    discriminated object stand under the texts they declare. A union has the errors of the types it is made of,
    unless one of these is `any`. -/
theorem diagnostics_told :
    (∀ t : Ty, t.Everywhere MembersAscending → ∃ places, t.ListsErrors places ∧ places.Nodup) ∧
      (∀ t : Ty, t.MembersKeyed → t.readOnly.diagnostics = t.diagnostics) ∧
      (∀ (t : Ty) (flags : ValidationFlags), (t.withValidation flags).diagnostics = t.diagnostics) ∧
      ∀ types : List Ty, any ∉ types →
        ∀ d, d ∈ (unionOf types).diagnostics ↔ ∃ t ∈ types, d ∈ t.diagnostics := by
  refine ⟨fun t ht => ?_, fun _ => diagnostics_readOnly_of_keyed, ?_, fun _ h _ => mem_diagnostics_unionOf h⟩
  · obtain ⟨places, hplaces⟩ := exists_listsErrors ht
    exact ⟨places, hplaces, hplaces.nodup⟩
  · exact fun t flags => diagnostics_withValidation flags t

/-- An account in the given tier whose name has no type, for the given reason. -/
def nameless (tier : String) (d : Diagnostic) : ObjectTy :=
  ⟨"Account", .none, ⟨[("tier", ⟨"tier", .literal tier, .required, none⟩), ("name", ⟨"name", .error d, .none, none⟩)]⟩,
    none, .none⟩

/-- Accounts by their tiers, each without a type for its name. -/
def flawed : Ty :=
  discriminated ⟨"Account", .none, "tier", ⟨[("cold", nameless "cold" ⟨Span.nil, .invalidParameterType⟩),
    ("hot", nameless "hot" ⟨Span.nil, .invalidOutputType⟩)]⟩⟩

/-- Both errors are told, in the order of the tiers; so they are of a view of the accounts, and of a union with one of
    the errors alone. -/
theorem diagnostics_flawed :
    (∃ places, flawed.ListsErrors places ∧ [.member "cold", .property 1] ∈ places ∧
        [.member "hot", .property 1] ∈ places) ∧
      flawed.readOnly.diagnostics = [⟨Span.nil, .invalidParameterType⟩, ⟨Span.nil, .invalidOutputType⟩] ∧
      ∀ d, d ∈ (unionOf [flawed, error ⟨Span.nil, .invalidOutputType⟩]).diagnostics ↔
        d = ⟨Span.nil, .invalidParameterType⟩ ∨ d = ⟨Span.nil, .invalidOutputType⟩ := by
  obtain ⟨htold, hview, -, hunion⟩ := diagnostics_told
  have hascending : flawed.Everywhere MembersAscending := by
    refine .intro (List.pairwise_pair.mpr (by decide)) fun part hpart => ?_
    have hmember : ∀ tier d, (object (nameless tier d)).Everywhere MembersAscending := by
      intro tier d
      refine .intro trivial fun part hpart => ?_
      rcases List.mem_pair.mp hpart with rfl | rfl <;> exact .leaf rfl trivial
    rcases List.mem_pair.mp hpart with rfl | rfl <;> exact hmember _ _
  have hkeyed : flawed.MembersKeyed := by
    refine ⟨List.pairwise_pair.mpr (by decide), fun e he => ?_⟩
    rcases List.mem_pair.mp he with rfl | rfl <;> rfl
  have hany : any ∉ [flawed, error ⟨Span.nil, .invalidOutputType⟩] := by
    intro h
    rcases List.mem_pair.mp h with h | h <;> exact nomatch h
  refine ⟨?_, hview flawed hkeyed, fun d => ?_⟩
  · obtain ⟨places, hplaces, -⟩ := htold flawed hascending
    exact ⟨places, hplaces, hplaces.complete _ _ rfl, hplaces.complete _ _ rfl⟩
  · have hflawed : d ∈ flawed.diagnostics ↔
        d = ⟨Span.nil, .invalidParameterType⟩ ∨ d = ⟨Span.nil, .invalidOutputType⟩ := List.mem_pair
    have herror : d ∈ (error ⟨Span.nil, .invalidOutputType⟩).diagnostics ↔ d = ⟨Span.nil, .invalidOutputType⟩ :=
      List.mem_singleton
    rw [hunion _ hany, List.exists_mem_cons_iff, List.exists_mem_cons_iff, hflawed, herror]
    constructor
    · rintro (h | h | ⟨_, h, _⟩)
      · exact h
      · exact Or.inr h
      · exact nomatch h
    · exact Or.inl

end ResourceLang.Ty
