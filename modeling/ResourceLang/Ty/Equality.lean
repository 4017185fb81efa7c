import ResourceLang.Ty.Basic

/-!
# Equality of types — two types are equal up to order of properties and spelling of references

The order in which an object type declares its properties and the letter case of a reference carry no
meaning. The canonical form of a type has the properties of each object in ascending order of their keys
and each reference in lowercase, at every depth; `==` on types compares canonical forms. Members of unions
are compared in order, and everything else as it is.

* **`Ty.identical_iff`** — the comparison part by part decides equality proper.
* **`Ty.beq_iff_canonical_eq`** — equal types are those with one canonical form, so `==` is an equivalence.
-/

namespace ResourceLang

/-! ## Equality proper -/

/-- Whether two references have the same parts, letter case included. -/
def Reference.identical (a b : Reference) : Bool :=
  a.ns == b.ns && a.types == b.types && a.version == b.version

mutual

/-- Whether two types are the same in every part. -/
def Ty.identical : Ty → Ty → Bool
  | .any, .any => true
  | .error d, .error d' => d == d'
  | .primitive k v, .primitive k' v' => k == k' && v == v'
  | .literal s, .literal s' => s == s'
  | .array t, .array t' => t.identical t'
  | .object o, .object o' => o.identical o'
  | .discriminated ⟨n, v, k, ⟨ms⟩⟩, .discriminated ⟨n', v', k', ⟨ms'⟩⟩ =>
    n == n' && v == v' && k == k' && identicalMembers ms ms'
  | .union ts, .union ts' => identicalTypes ts ts'
  | .resource ⟨r, t⟩, .resource ⟨r', t'⟩ => r.identical r' && t.identical t'
  | _, _ => false
termination_by structural t => t

/-- Whether two object types are the same in every part. -/
def ObjectTy.identical : ObjectTy → ObjectTy → Bool
  | ⟨n, v, ⟨ps⟩, a, f⟩, ⟨n', v', ⟨ps'⟩, a', f'⟩ =>
    n == n' && v == v' && identicalProperties ps ps' && identicalIfGiven a a' && f == f'
termination_by structural o => o

/-- Whether two types that may be left out are the same. -/
def identicalIfGiven : Option Ty → Option Ty → Bool
  | none, none => true
  | some t, some t' => t.identical t'
  | _, _ => false
termination_by structural t => t

/-- Whether two lists of types are the same. -/
def identicalTypes : List Ty → List Ty → Bool
  | [], [] => true
  | t :: ts, t' :: ts' => t.identical t' && identicalTypes ts ts'
  | _, _ => false
termination_by structural ts => ts

/-- Whether two lists of properties under keys are the same. -/
def identicalProperties : List (String × Property) → List (String × Property) → Bool
  | [], [] => true
  | (k, ⟨n, t, f, d⟩) :: ps, (k', ⟨n', t', f', d'⟩) :: ps' =>
    k == k' && n == n' && t.identical t' && f == f' && d == d' && identicalProperties ps ps'
  | _, _ => false
termination_by structural ps => ps

/-- Whether two lists of members under keys are the same. -/
def identicalMembers : List (String × ObjectTy) → List (String × ObjectTy) → Bool
  | [], [] => true
  | (k, o) :: ms, (k', o') :: ms' => k == k' && o.identical o' && identicalMembers ms ms'
  | _, _ => false
termination_by structural ms => ms

end

private theorem Reference.eq_of_identical (a b : Reference) (h : a.identical b = true) : a = b := by
  obtain ⟨ns, types, version, hne⟩ := a
  obtain ⟨ns', types', version', hne'⟩ := b
  simp only [Reference.identical, Bool.and_eq_true, beq_iff_eq] at h
  obtain ⟨⟨rfl, rfl⟩, rfl⟩ := h
  rfl

mutual

private theorem Ty.eq_of_identical : (a b : Ty) → a.identical b = true → a = b
  | .any, b, h => by cases b <;> simp_all [Ty.identical]
  | .error d, b, h => by cases b <;> simp_all [Ty.identical]
  | .primitive k v, b, h => by cases b <;> simp_all [Ty.identical]
  | .literal s, b, h => by cases b <;> simp_all [Ty.identical]
  | .array t, b, h => by
    cases b with
    | array t' => simp only [Ty.identical] at h; rw [Ty.eq_of_identical t t' h]
    | _ => simp [Ty.identical] at h
  | .object o, b, h => by
    cases b with
    | object o' => simp only [Ty.identical] at h; rw [ObjectTy.eq_of_identical o o' h]
    | _ => simp [Ty.identical] at h
  | .discriminated ⟨n, v, k, ⟨ms⟩⟩, b, h => by
    cases b with
    | discriminated d =>
      obtain ⟨n', v', k', ⟨ms'⟩⟩ := d
      simp only [Ty.identical, Bool.and_eq_true, beq_iff_eq] at h
      rw [h.1.1.1, h.1.1.2, h.1.2, eq_of_identicalMembers ms ms' h.2]
    | _ => simp [Ty.identical] at h
  | .union ts, b, h => by
    cases b with
    | union ts' => simp only [Ty.identical] at h; rw [eq_of_identicalTypes ts ts' h]
    | _ => simp [Ty.identical] at h
  | .resource ⟨r, t⟩, b, h => by
    cases b with
    | resource s =>
      obtain ⟨r', t'⟩ := s
      simp only [Ty.identical, Bool.and_eq_true] at h
      rw [Reference.eq_of_identical r r' h.1, Ty.eq_of_identical t t' h.2]
    | _ => simp [Ty.identical] at h

private theorem ObjectTy.eq_of_identical : (a b : ObjectTy) → a.identical b = true → a = b
  | ⟨n, v, ⟨ps⟩, a, f⟩, ⟨n', v', ⟨ps'⟩, a', f'⟩, h => by
    simp only [ObjectTy.identical, Bool.and_eq_true, beq_iff_eq] at h
    rw [h.1.1.1.1, h.1.1.1.2, eq_of_identicalProperties ps ps' h.1.1.2,
      eq_of_identicalIfGiven a a' h.1.2, h.2]

private theorem eq_of_identicalIfGiven : (a b : Option Ty) → identicalIfGiven a b = true → a = b
  | none, none, _ => rfl
  | some t, some t', h => by
    simp only [identicalIfGiven] at h
    rw [Ty.eq_of_identical t t' h]
  | none, some _, h => by simp [identicalIfGiven] at h
  | some _, none, h => by simp [identicalIfGiven] at h

private theorem eq_of_identicalTypes : (as bs : List Ty) → identicalTypes as bs = true → as = bs
  | [], [], _ => rfl
  | t :: ts, t' :: ts', h => by
    simp only [identicalTypes, Bool.and_eq_true] at h
    rw [Ty.eq_of_identical t t' h.1, eq_of_identicalTypes ts ts' h.2]
  | [], _ :: _, h => by simp [identicalTypes] at h
  | _ :: _, [], h => by simp [identicalTypes] at h

private theorem eq_of_identicalProperties :
    (as bs : List (String × Property)) → identicalProperties as bs = true → as = bs
  | [], [], _ => rfl
  | (k, ⟨n, t, f, d⟩) :: ps, (k', ⟨n', t', f', d'⟩) :: ps', h => by
    simp only [identicalProperties, Bool.and_eq_true, beq_iff_eq] at h
    rw [h.1.1.1.1.1, h.1.1.1.1.2, Ty.eq_of_identical t t' h.1.1.1.2, h.1.1.2, h.1.2,
      eq_of_identicalProperties ps ps' h.2]
  | [], _ :: _, h => by simp [identicalProperties] at h
  | _ :: _, [], h => by simp [identicalProperties] at h

private theorem eq_of_identicalMembers :
    (as bs : List (String × ObjectTy)) → identicalMembers as bs = true → as = bs
  | [], [], _ => rfl
  | (k, o) :: ms, (k', o') :: ms', h => by
    simp only [identicalMembers, Bool.and_eq_true, beq_iff_eq] at h
    rw [h.1.1, ObjectTy.eq_of_identical o o' h.1.2, eq_of_identicalMembers ms ms' h.2]
  | [], _ :: _, h => by simp [identicalMembers] at h
  | _ :: _, [], h => by simp [identicalMembers] at h

end

mutual

private theorem Ty.identical_refl : (a : Ty) → a.identical a = true
  | .any => by simp [Ty.identical]
  | .error d => by simp [Ty.identical]
  | .primitive k v => by simp [Ty.identical]
  | .literal s => by simp [Ty.identical]
  | .array t => by simp [Ty.identical, Ty.identical_refl t]
  | .object o => by simp [Ty.identical, ObjectTy.identical_refl o]
  | .discriminated ⟨n, v, k, ⟨ms⟩⟩ => by simp [Ty.identical, identicalMembers_refl ms]
  | .union ts => by simp [Ty.identical, identicalTypes_refl ts]
  | .resource ⟨r, t⟩ => by simp [Ty.identical, Reference.identical, Ty.identical_refl t]

private theorem ObjectTy.identical_refl : (a : ObjectTy) → a.identical a = true
  | ⟨n, v, ⟨ps⟩, a, f⟩ => by
    simp [ObjectTy.identical, identicalProperties_refl ps, identicalIfGiven_refl a]

private theorem identicalIfGiven_refl : (a : Option Ty) → identicalIfGiven a a = true
  | none => rfl
  | some t => by simp [identicalIfGiven, Ty.identical_refl t]

private theorem identicalTypes_refl : (as : List Ty) → identicalTypes as as = true
  | [] => rfl
  | t :: ts => by simp [identicalTypes, Ty.identical_refl t, identicalTypes_refl ts]

private theorem identicalProperties_refl :
    (as : List (String × Property)) → identicalProperties as as = true
  | [] => rfl
  | (k, ⟨n, t, f, d⟩) :: ps => by
    simp [identicalProperties, Ty.identical_refl t, identicalProperties_refl ps]

private theorem identicalMembers_refl :
    (as : List (String × ObjectTy)) → identicalMembers as as = true
  | [] => rfl
  | (k, o) :: ms => by simp [identicalMembers, ObjectTy.identical_refl o, identicalMembers_refl ms]

end

/-- Two types pass the comparison part by part exactly if they are equal. -/
theorem Ty.identical_iff (a b : Ty) : a.identical b = true ↔ a = b :=
  ⟨Ty.eq_of_identical a b, fun h => h ▸ Ty.identical_refl a⟩

/-! ## Equality up to order and spelling -/

/-- The reference in lowercase. -/
def Reference.lowercase (r : Reference) : Reference :=
  ⟨Text.lowered r.ns, r.types.map Text.lowered, Text.lowered r.version,
    fun h => r.types_ne_nil (List.map_eq_nil_iff.mp h)⟩

mutual

/-- The type with properties in ascending order and references in lowercase, at every depth. -/
def Ty.canonical : Ty → Ty
  | .any => .any
  | .error d => .error d
  | .primitive k v => .primitive k v
  | .literal s => .literal s
  | .array t => .array t.canonical
  | .object o => .object o.canonical
  | .discriminated ⟨n, v, k, ⟨ms⟩⟩ => .discriminated ⟨n, v, k, ⟨canonicalMembers ms⟩⟩
  | .union ts => .union (canonicalTypes ts)
  | .resource ⟨r, t⟩ => .resource ⟨r.lowercase, t.canonical⟩
termination_by structural t => t

/-- The object type in canonical form. -/
def ObjectTy.canonical : ObjectTy → ObjectTy
  | ⟨n, v, ⟨ps⟩, a, f⟩ => ⟨n, v, ⟨canonicalProperties ps⟩, canonicalIfGiven a, f⟩
termination_by structural o => o

/-- The canonical form of a type that may be left out. -/
def canonicalIfGiven : Option Ty → Option Ty
  | none => none
  | some t => some t.canonical
termination_by structural t => t

/-- The canonical forms of a list of types, in order. -/
def canonicalTypes : List Ty → List Ty
  | [] => []
  | t :: ts => t.canonical :: canonicalTypes ts
termination_by structural ts => ts

/-- Properties in canonical form and ascending order. -/
def canonicalProperties : List (String × Property) → List (String × Property)
  | [] => []
  | (k, ⟨n, t, f, d⟩) :: ps => Keyed.sortIn (k, ⟨n, t.canonical, f, d⟩) (canonicalProperties ps)
termination_by structural ps => ps

/-- Members in canonical form, in order. -/
def canonicalMembers : List (String × ObjectTy) → List (String × ObjectTy)
  | [] => []
  | (k, o) :: ms => (k, o.canonical) :: canonicalMembers ms
termination_by structural ms => ms

end

/-- Types are compared by their canonical forms. -/
instance : BEq Ty := ⟨fun a b => a.canonical.identical b.canonical⟩

theorem Ty.beq_iff_canonical_eq (a b : Ty) : (a == b) = true ↔ a.canonical = b.canonical :=
  Ty.identical_iff a.canonical b.canonical

instance : EquivBEq Ty where
  symm h := (Ty.beq_iff_canonical_eq _ _).mpr ((Ty.beq_iff_canonical_eq _ _).mp h).symm
  trans h h' := (Ty.beq_iff_canonical_eq _ _).mpr
    (((Ty.beq_iff_canonical_eq _ _).mp h).trans ((Ty.beq_iff_canonical_eq _ _).mp h'))
  rfl := (Ty.beq_iff_canonical_eq _ _).mpr rfl

/-- Resource types are compared as types. -/
instance : BEq ResourceTy := ⟨fun a b => Ty.resource a == Ty.resource b⟩

theorem ResourceTy.beq_iff (a b : ResourceTy) :
    (a == b) = true ↔ (Ty.resource a == Ty.resource b) = true := Iff.rfl

instance : EquivBEq ResourceTy where
  symm h := BEq.symm (α := Ty) h
  trans h h' := BEq.trans (α := Ty) h h'
  rfl := BEq.refl (α := Ty) _

end ResourceLang
