import ResourceLang.Proofs.Keyed
import ResourceLang.Proofs.Ty.Canonical
import ResourceLang.Proofs.Ty.Parts

/-!
# Comparison part by part — what `==` on types asks

`==` compares canonical forms, which puts the order of properties and the case of references out of sight before
anything is compared. One can also compare as one goes: kind by kind, with the parts in turn. The properties of two
objects are then compared as maps, which means that there are as many on both sides and each one is found under its
key on the other side, like it in name, type, flags and description. References are compared without regard to
case, the members of unions one by one in order, and all else as it is.

The two say the same wherever properties stand under distinct keys. With distinct keys the properties in canonical
form are the only strictly ascending list of their entries, so they are the same if the entries are.

* **`canonicalProperties_eq_iff`** — two maps of properties have one canonical form if each property is found.
* **`Ty.beq_eq_alike`** — `==` is the comparison part by part.
-/

namespace ResourceLang

mutual

/-- Whether two types are alike: of one kind, with parts that are alike. -/
def Ty.alike : Ty → Ty → Bool
  | .any, .any => true
  | .error d, .error d' => d == d'
  | .primitive k v, .primitive k' v' => k == k' && v == v'
  | .literal s, .literal s' => s == s'
  | .array t, .array t' => t.alike t'
  | .object o, .object o' => o.alike o'
  | .discriminated ⟨n, v, k, ⟨ms⟩⟩, .discriminated ⟨n', v', k', ⟨ms'⟩⟩ =>
    n == n' && v == v' && k == k' && alikeMembers ms ms'
  | .union ts, .union ts' => alikeTypes ts ts'
  | .resource ⟨r, t⟩, .resource ⟨r', t'⟩ => r == r' && t.alike t'
  | _, _ => false
termination_by structural t => t

/-- Whether two object types are alike: they have as many properties, and each one is found in the other. -/
def ObjectTy.alike : ObjectTy → ObjectTy → Bool
  | ⟨n, v, ⟨ps⟩, a, f⟩, o =>
    n == o.name && v == o.validation && (ps.length == o.properties.size && eachFound ps o.properties) &&
      alikeIfGiven a o.additional && f == o.additionalFlags
termination_by structural o => o

/-- Whether two types that may be left out are alike. -/
def alikeIfGiven : Option Ty → Option Ty → Bool
  | none, none => true
  | some t, some t' => t.alike t'
  | _, _ => false
termination_by structural t => t

/-- Whether two lists of types are alike, in order. -/
def alikeTypes : List Ty → List Ty → Bool
  | [], [] => true
  | t :: ts, t' :: ts' => t.alike t' && alikeTypes ts ts'
  | _, _ => false
termination_by structural ts => ts

/-- Whether there is a property like each of the given ones under its key. -/
def eachFound : List (String × Property) → Keyed String Property → Bool
  | [], _ => true
  | (k, ⟨n, t, f, d⟩) :: ps, others =>
    (match others.get? k with
      | some p => n == p.name && t.alike p.type && f == p.flags && d == p.description
      | none => false) && eachFound ps others
termination_by structural ps => ps

/-- Whether two lists of members are alike, in order. -/
def alikeMembers : List (String × ObjectTy) → List (String × ObjectTy) → Bool
  | [], [] => true
  | (k, o) :: ms, (k', o') :: ms' => k == k' && o.alike o' && alikeMembers ms ms'
  | _, _ => false
termination_by structural ms => ms

end

/-- The properties of an object stand under distinct keys. -/
def Ty.KeysDistinct : Ty → Prop
  | .object o => o.properties.DistinctKeys
  | _ => True

/-! ## Entries sorted in -/

namespace Keyed

variable {α : Type}

/-- Sorting in adds one entry. -/
theorem perm_sortIn (e : String × α) (entries : List (String × α)) : (sortIn e entries).Perm (e :: entries) := by
  induction entries with
  | nil => exact List.Perm.refl _
  | cons first rest ih =>
      show (if first.1 < e.1 then first :: sortIn e rest else e :: first :: rest).Perm (e :: first :: rest)
      by_cases hlt : first.1 < e.1
      · rw [if_pos hlt]
        exact (ih.cons first).trans (List.Perm.swap e first rest)
      · rw [if_neg hlt]

/-- Sorting in under a new key keeps entries in strictly ascending order. -/
theorem pairwise_sortIn {e : String × α} {entries : List (String × α)}
    (h : entries.Pairwise fun a b => a.1 < b.1) (hnew : ∀ a ∈ entries, a.1 ≠ e.1) :
    (sortIn e entries).Pairwise fun a b => a.1 < b.1 := by
  induction entries with
  | nil => exact List.pairwise_singleton _ _
  | cons first rest ih =>
      obtain ⟨hfirst, hrest⟩ := List.pairwise_cons.mp h
      show (if first.1 < e.1 then first :: sortIn e rest else e :: first :: rest).Pairwise fun a b => a.1 < b.1
      by_cases hlt : first.1 < e.1
      · rw [if_pos hlt]
        refine List.pairwise_cons.mpr ⟨?_, ih hrest fun a ha => hnew a (List.mem_cons_of_mem first ha)⟩
        intro a ha
        rcases List.mem_cons.mp ((perm_sortIn e rest).mem_iff.mp ha) with rfl | ha
        · exact hlt
        · exact hfirst a ha
      · have hgt : e.1 < first.1 :=
          Std.lt_of_le_of_ne (String.not_lt.mp hlt) (hnew first List.mem_cons_self).symm
        rw [if_neg hlt]
        refine List.pairwise_cons.mpr ⟨?_, h⟩
        intro a ha
        rcases List.mem_cons.mp ha with rfl | ha
        · exact hgt
        · exact String.lt_trans hgt (hfirst a ha)

end Keyed

/-! ## Maps of properties -/

/-- A canonical form has the entries in canonical form, in another order. -/
theorem perm_canonicalProperties (ps : List (String × Property)) :
    (canonicalProperties ps).Perm (ps.map fun e => (e.1, e.2.canonical)) := by
  induction ps with
  | nil => exact List.Perm.refl _
  | cons e rest ih =>
      obtain ⟨k, p⟩ := e
      rw [canonicalProperties_cons]
      exact (Keyed.perm_sortIn (k, p.canonical) _).trans (ih.cons (k, p.canonical))

/-- Properties under distinct keys have a canonical form in strictly ascending order. -/
theorem pairwise_canonicalProperties {ps : List (String × Property)} (h : (Keyed.mk ps).DistinctKeys) :
    (canonicalProperties ps).Pairwise fun a b => a.1 < b.1 := by
  induction ps with
  | nil => exact List.Pairwise.nil
  | cons e rest ih =>
      obtain ⟨k, p⟩ := e
      obtain ⟨hk, hrest⟩ := List.pairwise_cons.mp h
      rw [canonicalProperties_cons]
      refine Keyed.pairwise_sortIn (ih hrest) ?_
      intro a ha hak
      obtain ⟨e, he, rfl⟩ := List.mem_map.mp ((perm_canonicalProperties rest).mem_iff.mp ha)
      exact beq_eq_false_iff_ne.mp (hk e.1 (List.mem_map_of_mem he)) hak.symm

/-- Properties under distinct keys have one canonical form exactly if they are, in canonical form, the same ones in
    some order. -/
theorem canonicalProperties_eq_iff_perm {ps ps' : List (String × Property)} (h : (Keyed.mk ps).DistinctKeys)
    (h' : (Keyed.mk ps').DistinctKeys) :
    canonicalProperties ps = canonicalProperties ps' ↔
      (ps.map fun e => (e.1, e.2.canonical)).Perm (ps'.map fun e => (e.1, e.2.canonical)) := by
  constructor
  · intro heq
    exact (perm_canonicalProperties ps).symm.trans (heq ▸ perm_canonicalProperties ps')
  · intro hperm
    -- there is one way only to put entries in strictly ascending order
    refine List.Perm.eq_of_pairwise ?_ (pairwise_canonicalProperties h) (pairwise_canonicalProperties h')
      ((perm_canonicalProperties ps).trans (hperm.trans (perm_canonicalProperties ps').symm))
    intro a b _ _ hab hba
    exact absurd hba (String.lt_asymm hab)

/-- **Two maps of properties have one canonical form** exactly if they are of one size and each property of the one
    is found in the other, with a type of one canonical form. -/
theorem canonicalProperties_eq_iff {ps ps' : List (String × Property)} (h : (Keyed.mk ps).DistinctKeys)
    (h' : (Keyed.mk ps').DistinctKeys) :
    canonicalProperties ps = canonicalProperties ps' ↔
      ps.length = ps'.length ∧
        ∀ e ∈ ps, ((Keyed.mk ps').get? e.1).map Property.canonical = some e.2.canonical := by
  let m : Keyed String Property := (Keyed.mk ps).map fun _ => Property.canonical
  let m' : Keyed String Property := (Keyed.mk ps').map fun _ => Property.canonical
  have hdistinct : m.DistinctKeys := by
    rw [Keyed.DistinctKeys, Keyed.keys_map]
    exact h
  have hdistinct' : m'.DistinctKeys := by
    rw [Keyed.DistinctKeys, Keyed.keys_map]
    exact h'
  calc canonicalProperties ps = canonicalProperties ps'
      ↔ m.entries.Perm m'.entries := canonicalProperties_eq_iff_perm h h'
    _ ↔ m.size = m'.size ∧ ∀ e ∈ m.entries, m'.get? e.1 = some e.2 := Keyed.perm_iff_found hdistinct hdistinct'
    _ ↔ _ := by
      refine and_congr ?_ ?_
      · show (ps.map _).length = (ps'.map _).length ↔ ps.length = ps'.length
        rw [List.length_map, List.length_map]
      · show (∀ e ∈ ps.map fun e => (e.1, e.2.canonical), m'.get? e.1 = some e.2) ↔ _
        rw [List.forall_mem_map]
        refine forall₂_congr fun e _ => ?_
        rw [Keyed.get?_map]

/-! ## Parts -/

/-- For these two types, both comparisons say the same. -/
def Ty.Decided (t u : Ty) : Prop := t.alike u = true ↔ t.canonical = u.canonical

theorem alikeTypes_iff {ts us : List Ty} (h : ∀ t ∈ ts, ∀ u ∈ us, t.Decided u) :
    alikeTypes ts us = true ↔ canonicalTypes ts = canonicalTypes us := by
  induction ts generalizing us with
  | nil => cases us <;> simp [alikeTypes, canonicalTypes]
  | cons t ts ih =>
      cases us with
      | nil => simp [alikeTypes, canonicalTypes]
      | cons u us =>
          have hhead : t.alike u = true ↔ t.canonical = u.canonical := h t List.mem_cons_self u List.mem_cons_self
          have htail := ih fun t' ht u' hu => h t' (List.mem_cons_of_mem t ht) u' (List.mem_cons_of_mem u hu)
          rw [alikeTypes, canonicalTypes, canonicalTypes, Bool.and_eq_true, List.cons.injEq, hhead, htail]

theorem alikeMembers_iff {ms ns : List (String × ObjectTy)}
    (h : ∀ m ∈ ms, ∀ n ∈ ns, (Ty.object m.2).Decided (.object n.2)) :
    alikeMembers ms ns = true ↔ canonicalMembers ms = canonicalMembers ns := by
  induction ms generalizing ns with
  | nil => cases ns <;> simp [alikeMembers, canonicalMembers]
  | cons m ms ih =>
      obtain ⟨k, o⟩ := m
      cases ns with
      | nil => simp [alikeMembers, canonicalMembers]
      | cons n ns =>
          obtain ⟨k', o'⟩ := n
          have hhead : o.alike o' = true ↔ o.canonical = o'.canonical := by
            have hobjects := h (k, o) List.mem_cons_self (k', o') List.mem_cons_self
            simpa [Ty.Decided, Ty.alike, Ty.canonical] using hobjects
          have htail := ih fun m hm n hn => h m (List.mem_cons_of_mem _ hm) n (List.mem_cons_of_mem _ hn)
          rw [alikeMembers, canonicalMembers, canonicalMembers, Bool.and_eq_true, Bool.and_eq_true,
            List.cons.injEq, Prod.mk.injEq, hhead, htail, beq_iff_eq]

theorem alikeIfGiven_iff {a b : Option Ty} (h : ∀ t ∈ a, ∀ u ∈ b, t.Decided u) :
    alikeIfGiven a b = true ↔ canonicalIfGiven a = canonicalIfGiven b := by
  cases a with
  | none => cases b <;> simp [alikeIfGiven, canonicalIfGiven]
  | some t =>
      cases b with
      | none => simp [alikeIfGiven, canonicalIfGiven]
      | some u =>
          rw [alikeIfGiven, canonicalIfGiven, canonicalIfGiven, Option.some.injEq]
          exact h t rfl u rfl

theorem eachFound_iff {ps : List (String × Property)} {others : Keyed String Property}
    (h : ∀ e ∈ ps, ∀ p ∈ others.values, e.2.type.Decided p.type) :
    eachFound ps others = true ↔
      ∀ e ∈ ps, (others.get? e.1).map Property.canonical = some e.2.canonical := by
  induction ps with
  | nil => simp [eachFound]
  | cons e rest ih =>
      obtain ⟨k, ⟨n, t, f, d⟩⟩ := e
      rw [eachFound, Bool.and_eq_true, ih fun e he => h e (List.mem_cons_of_mem _ he), List.forall_mem_cons]
      refine and_congr_left fun _ => ?_
      cases hget : others.get? k with
      | none => simp
      | some p =>
          obtain ⟨_, hmem, -⟩ := Keyed.exists_entry_of_get? hget
          have htype : t.alike p.type = true ↔ t.canonical = p.type.canonical :=
            h (k, ⟨n, t, f, d⟩) List.mem_cons_self p (List.mem_map_of_mem hmem)
          obtain ⟨n', t', f', d'⟩ := p
          simp only [Property.canonical, Option.map_some, Option.some.injEq, Property.mk.injEq, Bool.and_eq_true,
            beq_iff_eq, htype, and_assoc]
          constructor
          · rintro ⟨rfl, hsame, rfl, rfl⟩
            exact ⟨rfl, hsame.symm, rfl, rfl⟩
          · rintro ⟨rfl, hsame, rfl, rfl⟩
            exact ⟨rfl, hsame.symm, rfl, rfl⟩

/-- Objects are compared property by property. -/
theorem ObjectTy.alike_iff {o o' : ObjectTy} (hkeys : o.properties.DistinctKeys)
    (hkeys' : o'.properties.DistinctKeys) (h : ∀ t ∈ o.parts, ∀ u ∈ o'.parts, t.Decided u) :
    o.alike o' = true ↔ o.canonical = o'.canonical := by
  obtain ⟨n, v, ⟨ps⟩, a, f⟩ := o
  obtain ⟨n', v', ⟨ps'⟩, a', f'⟩ := o'
  have hproperties : (ps.length == ps'.length && eachFound ps ⟨ps'⟩) = true ↔
      canonicalProperties ps = canonicalProperties ps' := by
    rw [Bool.and_eq_true, beq_iff_eq, canonicalProperties_eq_iff hkeys hkeys', eachFound_iff]
    intro e he p hp
    exact h e.2.type (List.mem_append_left _ (List.mem_map_of_mem (List.mem_map_of_mem he))) p.type
      (List.mem_append_left _ (List.mem_map_of_mem hp))
  have hadditional : alikeIfGiven a a' = true ↔ canonicalIfGiven a = canonicalIfGiven a' :=
    alikeIfGiven_iff fun t ht u hu => h t (List.mem_append_right _ (Option.mem_toList.mpr ht)) u
      (List.mem_append_right _ (Option.mem_toList.mpr hu))
  simp only [alike, canonical, Keyed.size, Bool.and_eq_true (_ && _), hproperties, hadditional, beq_iff_eq,
    Bool.and_eq_true, mk.injEq, Keyed.mk.injEq, and_assoc]

/-! ## Types -/

namespace Ty

theorem canonical_resource (r : ResourceTy) :
    (resource r).canonical = resource ⟨r.reference.lowercase, r.body.canonical⟩ := by
  cases r
  rfl

theorem alike_resource (r r' : ResourceTy) :
    (resource r).alike (resource r') = (r.reference == r'.reference && r.body.alike r'.body) := by
  cases r
  cases r'
  rfl

theorem alike_discriminated (d d' : DiscriminatedTy) :
    (discriminated d).alike (discriminated d') =
      (d.name == d'.name && d.validation == d'.validation && d.discriminator == d'.discriminator &&
        alikeMembers d.members.entries d'.members.entries) := by
  obtain ⟨n, v, k, ⟨ms⟩⟩ := d
  obtain ⟨n', v', k', ⟨ms'⟩⟩ := d'
  rfl

/-- **Types are alike exactly if they have one canonical form**, by induction on the one type through its parts. -/
theorem alike_iff_canonical_eq {t : Ty} : ∀ u : Ty, t.Everywhere KeysDistinct → u.Everywhere KeysDistinct →
    (t.alike u = true ↔ t.canonical = u.canonical) := by
  induction t using holds_of_parts with
  | step t ih =>
      intro u ht hu
      have hparts : ∀ part ∈ t.parts, ∀ part' ∈ u.parts, part.Decided part' :=
        fun part hpart part' hpart' => ih part hpart part' (ht.part hpart) (hu.part hpart')
      -- types of different kinds are neither alike nor have they one canonical form
      cases t with
      | any => cases u <;> simp [alike, canonical, canonical_discriminated, canonical_resource]
      | error d => cases u <;> simp [alike, canonical, canonical_discriminated, canonical_resource]
      | primitive k v => cases u <;> simp [alike, canonical, canonical_discriminated, canonical_resource]
      | literal s => cases u <;> simp [alike, canonical, canonical_discriminated, canonical_resource]
      | array item =>
          cases u with
          | array item' =>
              rw [alike, canonical, canonical, array.injEq]
              exact hparts item (List.mem_singleton_self item) item' (List.mem_singleton_self item')
          | _ => simp [alike, canonical, canonical_discriminated, canonical_resource]
      | object o =>
          cases u with
          | object o' =>
              rw [alike, canonical, canonical, object.injEq]
              exact ObjectTy.alike_iff ht.here hu.here hparts
          | _ => simp [alike, canonical, canonical_discriminated, canonical_resource]
      | discriminated d =>
          cases u with
          | discriminated d' =>
              have hmembers : alikeMembers d.members.entries d'.members.entries = true ↔
                  canonicalMembers d.members.entries = canonicalMembers d'.members.entries :=
                alikeMembers_iff fun m hm n hn => hparts _ (List.mem_map_of_mem (List.mem_map_of_mem hm)) _
                  (List.mem_map_of_mem (List.mem_map_of_mem hn))
              obtain ⟨n, v, k, ⟨ms⟩⟩ := d
              obtain ⟨n', v', k', ⟨ms'⟩⟩ := d'
              simp [alike_discriminated, canonical, hmembers, and_assoc]
          | _ => simp [alike, canonical, canonical_discriminated, canonical_resource]
      | union members =>
          cases u with
          | union members' =>
              rw [alike, canonical, canonical, union.injEq]
              exact alikeTypes_iff hparts
          | _ => simp [alike, canonical, canonical_discriminated, canonical_resource]
      | resource r =>
          cases u with
          | resource r' =>
              have hbody : r.body.alike r'.body = true ↔ r.body.canonical = r'.body.canonical :=
                hparts r.body (List.mem_singleton_self _) r'.body (List.mem_singleton_self _)
              rw [alike_resource, canonical_resource, canonical_resource, resource.injEq, ResourceTy.mk.injEq,
                Bool.and_eq_true, hbody, Reference.beq_iff_lowercase_eq]
          | _ => simp [alike, canonical, canonical_discriminated, canonical_resource]

/-- **`==` is the comparison part by part**, for types in which properties stand under distinct keys. -/
theorem beq_eq_alike {t u : Ty} (ht : t.Everywhere KeysDistinct) (hu : u.Everywhere KeysDistinct) :
    (t == u) = t.alike u := by
  rw [Bool.eq_iff_iff, beq_iff_canonical_eq]
  exact (alike_iff_canonical_eq u ht hu).symm

end Ty

end ResourceLang
