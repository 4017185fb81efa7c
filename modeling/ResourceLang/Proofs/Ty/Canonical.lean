import ResourceLang.Ty.Equality
import ResourceLang.Ty.ReadOnly

/-!
# Canonical forms — the transforms of types respect `==`

Types are equal if their canonical forms are, so a transform respects `==` as soon as it commutes with
taking the canonical form. Adding validation flags and anchoring look at the outermost constructor only.
The read-only view of a discriminated object is built anew from its members, keyed by what each declares
for the discriminator; there the order of properties must not matter for looking a property up, and
collecting members must not see more of a member than its name and its discriminator value.

* **`Ty.canonical_readOnly`**, **`Ty.canonical_withValidation`**, **`Ty.canonical_anchoredAt`** — the
  transforms commute with canonical forms.
* **`ResourceTy.beq_iff_parts`** — resource types are equal if their references and their bodies are.
-/

namespace ResourceLang

/-! ## Ascending entries -/

namespace Keyed

variable {α β : Type}

/-- Sorting an entry in is seen under its own key and under no other. -/
theorem lookup_sortIn (key k : String) (v : α) (entries : List (String × α)) :
    (sortIn (k, v) entries).lookup key = if key == k then some v else entries.lookup key := by
  induction entries with
  | nil =>
      show [(k, v)].lookup key = if key == k then some v else none
      rw [List.lookup_cons]
      cases key == k <;> rfl
  | cons e rest ih =>
      obtain ⟨k', v'⟩ := e
      by_cases hlt : k' < k
      · rw [show sortIn (k, v) ((k', v') :: rest) = (k', v') :: sortIn (k, v) rest from if_pos hlt,
          List.lookup_cons, List.lookup_cons, ih]
        cases hk' : key == k' with
        | false => rfl
        | true =>
            -- the key of an entry passed by is smaller than the new one
            have hne : (key == k) = false := by
              rw [beq_eq_false_iff_ne]
              intro hk
              rw [← hk, eq_of_beq hk'] at hlt
              exact absurd hlt (String.lt_irrefl k')
            rw [hne]
            rfl
      · rw [show sortIn (k, v) ((k', v') :: rest) = (k, v) :: (k', v') :: rest from if_neg hlt,
          List.lookup_cons]
        cases key == k <;> rfl

/-- Changing values by key commutes with sorting in. -/
theorem map_sortIn (f : String → α → β) (k : String) (v : α) (entries : List (String × α)) :
    (sortIn (k, v) entries).map (fun e => (e.1, f e.1 e.2)) =
      sortIn (k, f k v) (entries.map fun e => (e.1, f e.1 e.2)) := by
  induction entries with
  | nil => rfl
  | cons e rest ih =>
      obtain ⟨k', v'⟩ := e
      rw [List.map_cons]
      by_cases hlt : k' < k
      · rw [show sortIn (k, v) ((k', v') :: rest) = (k', v') :: sortIn (k, v) rest from if_pos hlt,
          show sortIn (k, f k v) ((k', f k' v') :: rest.map fun e => (e.1, f e.1 e.2))
            = (k', f k' v') :: sortIn (k, f k v) (rest.map fun e => (e.1, f e.1 e.2)) from if_pos hlt,
          List.map_cons, ih]
      · rw [show sortIn (k, v) ((k', v') :: rest) = (k, v) :: (k', v') :: rest from if_neg hlt,
          show sortIn (k, f k v) ((k', f k' v') :: rest.map fun e => (e.1, f e.1 e.2))
            = (k, f k v) :: (k', f k' v') :: rest.map (fun e => (e.1, f e.1 e.2)) from if_neg hlt]
        rfl

/-- Changing values does not change what is found where. -/
theorem get?_map [BEq κ] (f : α → β) (m : Keyed κ α) (key : κ) :
    (m.map fun _ => f).get? key = (m.get? key).map f := by
  obtain ⟨entries⟩ := m
  show (entries.map fun e => (e.1, f e.2)).lookup key = (entries.lookup key).map f
  induction entries with
  | nil => rfl
  | cons e rest ih =>
      obtain ⟨k, v⟩ := e
      rw [List.map_cons, List.lookup_cons, List.lookup_cons, ih]
      cases key == k <;> rfl

theorem contains_map [BEq κ] (f : α → β) (m : Keyed κ α) (key : κ) :
    (m.map fun _ => f).contains key = m.contains key := by
  rw [contains, contains, get?_map, Option.isSome_map]

/-- Changing values commutes with writing in ascending order. -/
theorem map_insertAscending (f : α → β) (m : Keyed String α) (key : String) (value : α) :
    (m.insertAscending key value).map (fun _ => f) =
      (m.map fun _ => f).insertAscending key (f value) := by
  obtain ⟨entries⟩ := m
  show Keyed.mk ((place key value entries).map fun e => (e.1, f e.2)) =
    Keyed.mk (place key (f value) (entries.map fun e => (e.1, f e.2)))
  congr 1
  induction entries with
  | nil => rfl
  | cons e rest ih =>
      obtain ⟨k, v⟩ := e
      rw [List.map_cons, place, place]
      by_cases hlt : key < k
      · rw [if_pos hlt, if_pos hlt]
        rfl
      · rw [if_neg hlt, if_neg hlt]
        by_cases heq : key = k
        · rw [if_pos heq, if_pos heq]
          rfl
        · rw [if_neg heq, if_neg heq, List.map_cons, ih]

end Keyed

/-! ## Parts of canonical forms -/

/-- The property with its type in canonical form. -/
def Property.canonical (p : Property) : Property := { p with type := p.type.canonical }

theorem canonicalProperties_cons (k : String) (p : Property) (ps : List (String × Property)) :
    canonicalProperties ((k, p) :: ps) = Keyed.sortIn (k, p.canonical) (canonicalProperties ps) := by
  obtain ⟨n, t, f, d⟩ := p
  rfl

/-- Under each name the canonical form has the property in canonical form. -/
theorem ObjectTy.property?_canonical (o : ObjectTy) (name : String) :
    o.canonical.property? name = (o.property? name).map Property.canonical := by
  obtain ⟨n, v, ⟨ps⟩, a, f⟩ := o
  show (canonicalProperties ps).lookup name = (ps.lookup name).map Property.canonical
  induction ps with
  | nil => rfl
  | cons e rest ih =>
      obtain ⟨k, p⟩ := e
      rw [canonicalProperties_cons, Keyed.lookup_sortIn, List.lookup_cons, ih]
      cases name == k <;> rfl

/-- Canonical forms have the same discriminator value. -/
theorem ObjectTy.discriminatorValue?_canonical (o : ObjectTy) (discriminator : String) :
    o.canonical.discriminatorValue? discriminator = o.discriminatorValue? discriminator := by
  rw [discriminatorValue?, discriminatorValue?, property?_canonical]
  cases o.property? discriminator with
  | none => rfl
  | some p =>
      obtain ⟨n, t, f, d⟩ := p
      cases t with
      | discriminated s => obtain ⟨n, v, k, ⟨ms⟩⟩ := s; rfl
      | resource r => obtain ⟨r, t⟩ := r; rfl
      | _ => rfl

theorem ObjectTy.name_canonical (o : ObjectTy) : o.canonical.name = o.name := by
  obtain ⟨n, v, ⟨ps⟩, a, f⟩ := o
  rfl

theorem canonicalMembers_eq_map (ms : List (String × ObjectTy)) :
    canonicalMembers ms = ms.map fun e => (e.1, e.2.canonical) := by
  induction ms with
  | nil => rfl
  | cons e rest ih => rw [canonicalMembers, ih]; rfl

theorem canonicalTypes_eq_map (ts : List Ty) : canonicalTypes ts = ts.map Ty.canonical := by
  induction ts with
  | nil => rfl
  | cons t ts ih => rw [canonicalTypes, ih, List.map_cons]

/-- The canonical form of a discriminated object has the members in canonical form. -/
theorem Ty.canonical_discriminated (d : DiscriminatedTy) :
    (Ty.discriminated d).canonical =
      .discriminated { d with members := d.members.map fun _ => ObjectTy.canonical } := by
  obtain ⟨n, v, k, ⟨ms⟩⟩ := d
  rw [Ty.canonical, canonicalMembers_eq_map]
  rfl

/-! ## The outermost constructor -/

theorem Ty.canonical_withValidation (flags : ValidationFlags) (t : Ty) :
    (t.withValidation flags).canonical = t.canonical.withValidation flags := by
  cases t with
  | object o => obtain ⟨n, v, ⟨ps⟩, a, f⟩ := o; rfl
  | discriminated d => obtain ⟨n, v, k, ⟨ms⟩⟩ := d; rfl
  | resource r => obtain ⟨r, t⟩ := r; rfl
  | _ => rfl

theorem Ty.canonical_anchoredAt (span : Span) (t : Ty) :
    (t.anchoredAt span).canonical = t.canonical.anchoredAt span := by
  cases t with
  | error d =>
      show (if d.span = Span.nil then Ty.error { d with span := span } else .error d).canonical =
        if d.span = Span.nil then Ty.error { d with span := span } else .error d
      by_cases h : d.span = Span.nil
      · rw [if_pos h]; rfl
      · rw [if_neg h]; rfl
  | discriminated d => obtain ⟨n, v, k, ⟨ms⟩⟩ := d; rfl
  | resource r => obtain ⟨r, t⟩ := r; rfl
  | _ => rfl

theorem Ty.isError_canonical (t : Ty) : t.canonical.isError = t.isError := by
  cases t with
  | discriminated d => obtain ⟨n, v, k, ⟨ms⟩⟩ := d; rfl
  | resource r => obtain ⟨r, t⟩ := r; rfl
  | _ => rfl

/-! ## Read-only views -/

theorem Property.canonical_readOnly (key : String) (p : Property) :
    (p.readOnly key).canonical = p.canonical.readOnly key := by
  rw [Property.readOnly, Property.readOnly]
  by_cases h : key ∈ writableOnExisting
  · rw [if_pos h, if_pos h]
  · rw [if_neg h, if_neg h]; rfl

/-- The read-only view of an object respects canonical forms. -/
theorem ObjectTy.canonical_readOnly (o : ObjectTy) : o.readOnly.canonical = o.canonical.readOnly := by
  obtain ⟨n, v, ⟨ps⟩, a, f⟩ := o
  show ObjectTy.mk n v ⟨canonicalProperties (ps.map fun e => (e.1, e.2.readOnly e.1))⟩
      (canonicalIfGiven a) f.toReadOnly =
    ObjectTy.mk n v ⟨(canonicalProperties ps).map fun e => (e.1, e.2.readOnly e.1)⟩
      (canonicalIfGiven a) f.toReadOnly
  congr 2
  induction ps with
  | nil => rfl
  | cons e rest ih =>
      obtain ⟨k, p⟩ := e
      rw [List.map_cons, canonicalProperties_cons, canonicalProperties_cons, ih,
        Property.canonical_readOnly, Keyed.map_sortIn (fun key p => Property.readOnly key p)]

/-- Collecting members sees only their names and their discriminator values. -/
theorem collectMembers_map (union discriminator : String) (g : ObjectTy → ObjectTy)
    (hname : ∀ o, (g o).name = o.name)
    (hvalue : ∀ o, (g o).discriminatorValue? discriminator = o.discriminatorValue? discriminator)
    (seen : Keyed String ObjectTy) (ms : List ObjectTy) :
    collectMembers union discriminator (seen.map fun _ => g) (ms.map g) =
      (collectMembers union discriminator seen ms).map (Keyed.map fun _ => g) := by
  induction ms generalizing seen with
  | nil => rfl
  | cons m rest ih =>
      rw [List.map_cons, collectMembers, collectMembers, hvalue, hname]
      cases m.discriminatorValue? discriminator with
      | none => rfl
      | some key =>
          show (if (seen.map fun _ => g).contains key then
              .error (.ofCause (.duplicateMember union key))
            else collectMembers union discriminator ((seen.map fun _ => g).insertAscending key (g m))
              (rest.map g)) =
            (if seen.contains key then .error (.ofCause (.duplicateMember union key))
            else collectMembers union discriminator (seen.insertAscending key m) rest).map _
          rw [Keyed.contains_map, ← Keyed.map_insertAscending, ih]
          by_cases hseen : seen.contains key = true
          · rw [if_pos hseen, if_pos hseen]; rfl
          · rw [if_neg hseen, if_neg hseen]

theorem DiscriminatedTy.readOnly_of_collected {d : DiscriminatedTy} {members : Keyed String ObjectTy}
    (h : collectMembers d.name d.discriminator .empty (d.members.values.map ObjectTy.readOnly) =
      .ok members) :
    d.readOnly = .discriminated { d with members := members } := by
  rw [readOnly, ofMembers, h]
  rfl

theorem DiscriminatedTy.readOnly_of_refused {d : DiscriminatedTy} {e : Error}
    (h : collectMembers d.name d.discriminator .empty (d.members.values.map ObjectTy.readOnly) =
      .error e) :
    d.readOnly = .error ⟨Span.nil, .malformedType e.message⟩ := by
  rw [readOnly, ofMembers, h]
  rfl

/-- The read-only view of a discriminated object respects canonical forms, the wording of the error
    included. -/
theorem DiscriminatedTy.canonical_readOnly (d : DiscriminatedTy) :
    d.readOnly.canonical =
      DiscriminatedTy.readOnly { d with members := d.members.map fun _ => ObjectTy.canonical } := by
  have hmembers : (d.members.map fun _ => ObjectTy.canonical).values.map ObjectTy.readOnly =
      (d.members.values.map ObjectTy.readOnly).map ObjectTy.canonical := by
    show ((d.members.entries.map fun e => (e.1, e.2.canonical)).map Prod.snd).map ObjectTy.readOnly =
      ((d.members.entries.map Prod.snd).map ObjectTy.readOnly).map ObjectTy.canonical
    rw [List.map_map, List.map_map, List.map_map, List.map_map]
    exact List.map_congr_left fun e _ => (e.2.canonical_readOnly).symm
  have hcollect := collectMembers_map d.name d.discriminator ObjectTy.canonical
    ObjectTy.name_canonical (fun o => o.discriminatorValue?_canonical d.discriminator) .empty
    (d.members.values.map ObjectTy.readOnly)
  rw [← hmembers] at hcollect
  -- both views collect members; they do so alike, member by member
  cases h : collectMembers d.name d.discriminator .empty (d.members.values.map ObjectTy.readOnly) with
  | ok members =>
      rw [h] at hcollect
      rw [readOnly_of_collected h, readOnly_of_collected hcollect]
      exact Ty.canonical_discriminated ⟨d.name, d.validation, d.discriminator, members⟩
  | error e =>
      rw [h] at hcollect
      rw [readOnly_of_refused h, readOnly_of_refused hcollect]
      rfl

/-- **The read-only view commutes with canonical forms.** -/
theorem Ty.canonical_readOnly (t : Ty) : t.readOnly.canonical = t.canonical.readOnly := by
  cases t with
  | object o => exact congrArg Ty.object o.canonical_readOnly
  | discriminated d =>
      rw [canonical_discriminated]
      exact d.canonical_readOnly
  | resource r => obtain ⟨r, t⟩ := r; rfl
  | _ => rfl

/-! ## Transforms of equal types -/

namespace Ty

theorem withValidation_congr (flags : ValidationFlags) {a b : Ty} (h : (a == b) = true) :
    (a.withValidation flags == b.withValidation flags) = true := by
  rw [beq_iff_canonical_eq, canonical_withValidation, canonical_withValidation,
    (beq_iff_canonical_eq a b).mp h]

theorem readOnly_congr {a b : Ty} (h : (a == b) = true) : (a.readOnly == b.readOnly) = true := by
  rw [beq_iff_canonical_eq, canonical_readOnly, canonical_readOnly, (beq_iff_canonical_eq a b).mp h]

theorem anchoredAt_congr (span : Span) {a b : Ty} (h : (a == b) = true) :
    (a.anchoredAt span == b.anchoredAt span) = true := by
  rw [beq_iff_canonical_eq, canonical_anchoredAt, canonical_anchoredAt,
    (beq_iff_canonical_eq a b).mp h]

theorem isError_congr {a b : Ty} (h : (a == b) = true) : a.isError = b.isError := by
  rw [← isError_canonical a, ← isError_canonical b, (beq_iff_canonical_eq a b).mp h]

end Ty

/-! ## Resource types -/

theorem Reference.beq_iff_lowercase_eq (a b : Reference) :
    (a == b) = true ↔ a.lowercase = b.lowercase := by
  rw [beq_iff_folded_eq, folded, folded, Prod.mk.injEq, Prod.mk.injEq, lowercase, lowercase,
    Reference.mk.injEq]

/-- Resource types are equal if their references and their bodies are. -/
theorem ResourceTy.beq_iff_parts (a b : ResourceTy) :
    (a == b) = true ↔ (a.reference == b.reference) = true ∧ (a.body == b.body) = true := by
  obtain ⟨r, t⟩ := a
  obtain ⟨r', t'⟩ := b
  rw [ResourceTy.beq_iff, Ty.beq_iff_canonical_eq, Ty.canonical, Ty.canonical, Ty.resource.injEq,
    ResourceTy.mk.injEq, Reference.beq_iff_lowercase_eq, Ty.beq_iff_canonical_eq]

end ResourceLang
