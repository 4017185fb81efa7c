import ResourceLang.Syntax.Node

/-!
# Equality of nodes — two trees are equal part by part

Trees hold lists of trees, so their equality is decided by one function per kind of part. It decides
equality proper, spans included.

* **`Node.same_iff`** — `Node.same` holds exactly of equal nodes; hence `DecidableEq Node`.
-/

namespace ResourceLang.Syntax

mutual

/-- Whether two nodes are equal. -/
def Node.same : Node → Node → Bool
  | .token a, .token b => a == b
  | .identifier a, .identifier b => a == b
  | .string ⟨ts, es, vs⟩, .string ⟨ts', es', vs'⟩ => ts == ts' && sameNodes es es' && vs == vs'
  | .typeName a, .typeName b => a == b
  | .integer a, .integer b => a == b
  | .boolean a, .boolean b => a == b
  | .null a, .null b => a == b
  | .array ⟨o, is, c⟩, .array ⟨o', is', c'⟩ => o == o' && sameNodes is is' && c == c'
  | .object ⟨o, ps, c⟩, .object ⟨o', ps', c'⟩ => o == o' && sameProperties ps ps' && c == c'
  | .call a, .call b => a.same b
  | .access a, .access b => a == b
  | .condition ⟨k, n⟩, .condition ⟨k', n'⟩ => k == k' && n.same n'
  | .defaultValue ⟨k, n⟩, .defaultValue ⟨k', n'⟩ => k == k' && n.same n'
  | .decorator ⟨s, c⟩, .decorator ⟨s', c'⟩ => s == s' && c.same c'
  | .skipped ⟨s, es⟩, .skipped ⟨s', es'⟩ => s == s' && sameNodes es es'
  | _, _ => false
termination_by structural n => n

/-- Whether two calls are equal. -/
def Call.same : Call → Call → Bool
  | ⟨n, o, as, c⟩, ⟨n', o', as', c'⟩ => n == n' && o == o' && sameArguments as as' && c == c'
termination_by structural c => c

/-- Whether two lists of nodes are equal. -/
def sameNodes : List Node → List Node → Bool
  | [], [] => true
  | a :: as, b :: bs => a.same b && sameNodes as bs
  | _, _ => false
termination_by structural ns => ns

/-- Whether two lists of properties are equal. -/
def sameProperties : List PropertyAssignment → List PropertyAssignment → Bool
  | [], [] => true
  | ⟨k, c, v⟩ :: ps, ⟨k', c', v'⟩ :: qs => k.same k' && c == c' && v.same v' && sameProperties ps qs
  | _, _ => false
termination_by structural ps => ps

/-- Whether two lists of arguments are equal. -/
def sameArguments : List Argument → List Argument → Bool
  | [], [] => true
  | ⟨e, c⟩ :: as, ⟨e', c'⟩ :: bs => e.same e' && c == c' && sameArguments as bs
  | _, _ => false
termination_by structural as => as

end

mutual

private theorem Node.eq_of_same : (a b : Node) → a.same b = true → a = b
  | .string ⟨ts, es, vs⟩, b, h => by
    cases b with
    | string s =>
      obtain ⟨ts', es', vs'⟩ := s
      simp only [Node.same, Bool.and_eq_true, beq_iff_eq] at h
      rw [h.1.1, h.2, eq_of_sameNodes es es' h.1.2]
    | _ => simp [Node.same] at h
  | .array ⟨o, is, c⟩, b, h => by
    cases b with
    | array a =>
      obtain ⟨o', is', c'⟩ := a
      simp only [Node.same, Bool.and_eq_true, beq_iff_eq] at h
      rw [h.1.1, h.2, eq_of_sameNodes is is' h.1.2]
    | _ => simp [Node.same] at h
  | .object ⟨o, ps, c⟩, b, h => by
    cases b with
    | object q =>
      obtain ⟨o', ps', c'⟩ := q
      simp only [Node.same, Bool.and_eq_true, beq_iff_eq] at h
      rw [h.1.1, h.2, eq_of_sameProperties ps ps' h.1.2]
    | _ => simp [Node.same] at h
  | .call c, b, h => by
    cases b with
    | call c' => simp only [Node.same] at h; rw [Call.eq_of_same c c' h]
    | _ => simp [Node.same] at h
  | .condition ⟨k, n⟩, b, h => by
    cases b with
    | condition c =>
      obtain ⟨k', n'⟩ := c
      simp only [Node.same, Bool.and_eq_true, beq_iff_eq] at h
      rw [h.1, Node.eq_of_same n n' h.2]
    | _ => simp [Node.same] at h
  | .defaultValue ⟨k, n⟩, b, h => by
    cases b with
    | defaultValue c =>
      obtain ⟨k', n'⟩ := c
      simp only [Node.same, Bool.and_eq_true, beq_iff_eq] at h
      rw [h.1, Node.eq_of_same n n' h.2]
    | _ => simp [Node.same] at h
  | .decorator ⟨s, c⟩, b, h => by
    cases b with
    | decorator d =>
      obtain ⟨s', c'⟩ := d
      simp only [Node.same, Bool.and_eq_true, beq_iff_eq] at h
      rw [h.1, Call.eq_of_same c c' h.2]
    | _ => simp [Node.same] at h
  | .skipped ⟨s, es⟩, b, h => by
    cases b with
    | skipped d =>
      obtain ⟨s', es'⟩ := d
      simp only [Node.same, Bool.and_eq_true, beq_iff_eq] at h
      rw [h.1, eq_of_sameNodes es es' h.2]
    | _ => simp [Node.same] at h
  | .token a, b, h => by cases b <;> simp_all [Node.same]
  | .identifier a, b, h => by cases b <;> simp_all [Node.same]
  | .typeName a, b, h => by cases b <;> simp_all [Node.same]
  | .integer a, b, h => by cases b <;> simp_all [Node.same]
  | .boolean a, b, h => by cases b <;> simp_all [Node.same]
  | .null a, b, h => by cases b <;> simp_all [Node.same]
  | .access a, b, h => by cases b <;> simp_all [Node.same]

private theorem Call.eq_of_same : (a b : Call) → a.same b = true → a = b
  | ⟨n, o, as, c⟩, ⟨n', o', as', c'⟩, h => by
    simp only [Call.same, Bool.and_eq_true, beq_iff_eq] at h
    rw [h.1.1.1, h.1.1.2, h.2, eq_of_sameArguments as as' h.1.2]

private theorem eq_of_sameNodes : (as bs : List Node) → sameNodes as bs = true → as = bs
  | [], [], _ => rfl
  | a :: as, b :: bs, h => by
    simp only [sameNodes, Bool.and_eq_true] at h
    rw [Node.eq_of_same a b h.1, eq_of_sameNodes as bs h.2]
  | [], _ :: _, h => by simp [sameNodes] at h
  | _ :: _, [], h => by simp [sameNodes] at h

private theorem eq_of_sameProperties :
    (as bs : List PropertyAssignment) → sameProperties as bs = true → as = bs
  | [], [], _ => rfl
  | ⟨k, c, v⟩ :: as, ⟨k', c', v'⟩ :: bs, h => by
    simp only [sameProperties, Bool.and_eq_true, beq_iff_eq] at h
    rw [Node.eq_of_same k k' h.1.1.1, h.1.1.2, Node.eq_of_same v v' h.1.2,
      eq_of_sameProperties as bs h.2]
  | [], _ :: _, h => by simp [sameProperties] at h
  | _ :: _, [], h => by simp [sameProperties] at h

private theorem eq_of_sameArguments :
    (as bs : List Argument) → sameArguments as bs = true → as = bs
  | [], [], _ => rfl
  | ⟨e, c⟩ :: as, ⟨e', c'⟩ :: bs, h => by
    simp only [sameArguments, Bool.and_eq_true, beq_iff_eq] at h
    rw [Node.eq_of_same e e' h.1.1, h.1.2, eq_of_sameArguments as bs h.2]
  | [], _ :: _, h => by simp [sameArguments] at h
  | _ :: _, [], h => by simp [sameArguments] at h

end

mutual

private theorem Node.same_refl : (a : Node) → a.same a = true
  | .string ⟨ts, es, vs⟩ => by simp [Node.same, sameNodes_refl es]
  | .array ⟨o, is, c⟩ => by simp [Node.same, sameNodes_refl is]
  | .object ⟨o, ps, c⟩ => by simp [Node.same, sameProperties_refl ps]
  | .call c => by simp [Node.same, Call.same_refl c]
  | .condition ⟨k, n⟩ => by simp [Node.same, Node.same_refl n]
  | .defaultValue ⟨k, n⟩ => by simp [Node.same, Node.same_refl n]
  | .decorator ⟨s, c⟩ => by simp [Node.same, Call.same_refl c]
  | .skipped ⟨s, es⟩ => by simp [Node.same, sameNodes_refl es]
  | .token a => by simp [Node.same]
  | .identifier a => by simp [Node.same]
  | .typeName a => by simp [Node.same]
  | .integer a => by simp [Node.same]
  | .boolean a => by simp [Node.same]
  | .null a => by simp [Node.same]
  | .access a => by simp [Node.same]

private theorem Call.same_refl : (a : Call) → a.same a = true
  | ⟨n, o, as, c⟩ => by simp [Call.same, sameArguments_refl as]

private theorem sameNodes_refl : (as : List Node) → sameNodes as as = true
  | [] => rfl
  | a :: as => by simp [sameNodes, Node.same_refl a, sameNodes_refl as]

private theorem sameProperties_refl : (as : List PropertyAssignment) → sameProperties as as = true
  | [] => rfl
  | ⟨k, c, v⟩ :: as => by
    simp [sameProperties, Node.same_refl k, Node.same_refl v, sameProperties_refl as]

private theorem sameArguments_refl : (as : List Argument) → sameArguments as as = true
  | [] => rfl
  | ⟨e, c⟩ :: as => by simp [sameArguments, Node.same_refl e, sameArguments_refl as]

end

/-- Two nodes pass the comparison exactly if they are equal. -/
theorem Node.same_iff (a b : Node) : a.same b = true ↔ a = b :=
  ⟨Node.eq_of_same a b, fun h => h ▸ Node.same_refl a⟩

instance : DecidableEq Node := fun a b => decidable_of_iff _ (Node.same_iff a b)

end ResourceLang.Syntax
