import ResourceLang.Catalog.Basic

/-!
# Caches — remembered answers of a provider

A cache remembers the answers of a provider by scope and reference. A request is answered from the cache
if an equal one was answered before; otherwise the provider is asked, and what it answers is remembered
unless an equal request has been answered meanwhile, in which case the answer remembered first is handed
out. Refusals are not remembered.

The three steps of a request are `find?`, the provider's answer and `settle`; other requests can come in
between them. `answer` takes them at once.
-/

namespace ResourceLang

/-- What was asked of a provider. -/
structure Request where
  scope : Scope
  reference : Reference

/-- Requests are compared as their scopes and references are. -/
instance : BEq Request := ⟨fun a b => a.scope == b.scope && a.reference == b.reference⟩

theorem Request.beq_iff (a b : Request) :
    (a == b) = true ↔ a.scope = b.scope ∧ (a.reference == b.reference) = true := by
  show (a.scope == b.scope && a.reference == b.reference) = true ↔ _
  rw [Bool.and_eq_true, beq_iff_eq]

instance : EquivBEq Request where
  symm h := (Request.beq_iff _ _).mpr
    ⟨((Request.beq_iff _ _).mp h).1.symm, BEq.symm ((Request.beq_iff _ _).mp h).2⟩
  trans h h' := (Request.beq_iff _ _).mpr
    ⟨((Request.beq_iff _ _).mp h).1.trans ((Request.beq_iff _ _).mp h').1,
      BEq.trans ((Request.beq_iff _ _).mp h).2 ((Request.beq_iff _ _).mp h').2⟩
  rfl := (Request.beq_iff _ _).mpr ⟨rfl, BEq.refl _⟩

/-- Remembered answers. -/
structure Cache where
  answers : Keyed Request ResourceTy

namespace Cache

/-- The cache that remembers nothing. -/
def empty : Cache := ⟨.empty⟩

/-- The number of remembered answers. -/
def size (c : Cache) : Nat := c.answers.size

/-- The answer remembered for an equal request. -/
def find? (c : Cache) (request : Request) : Option ResourceTy := c.answers.get? request

/-- Remembers an answer unless one is remembered already, and hands out the remembered one. -/
def settle (c : Cache) (request : Request) (found : ResourceTy) : ResourceTy × Cache :=
  match c.find? request with
  | some remembered => (remembered, c)
  | none => (found, ⟨c.answers.insert request found⟩)

/-- The answer to a request, and the cache afterwards. -/
def answer (c : Cache) (provider : Provider) (request : Request) :
    Except Error ResourceTy × Cache :=
  match c.find? request with
  | some remembered => (.ok remembered, c)
  | none =>
    match provider request.scope request.reference with
    | .error e => (.error e, c)
    | .ok found =>
      let (handed, after) := c.settle request found
      (.ok handed, after)

/-- The provider that answers through the cache as it is now. -/
def provider (c : Cache) (inner : Provider) : Provider := fun scope reference =>
  (c.answer inner ⟨scope, reference⟩).1

end Cache

end ResourceLang
