import Mathlib.Data.List.Induction
import Mathlib.Data.Set.Card
import ResourceLang.Proofs.Catalog
import ResourceLang.Proofs.Reference.Case

/-!
# Registrations — what a catalog answers after any of them

A catalog is filled by registrations, one after the other, and answers as the latest registration for an equal
reference says: its body and its scopes count, and those of earlier ones do not. A reference is unknown only if no
equal one was registered. The catalog holds one schema for each class of equal references that were registered.

As equal references are hashed alike, a table that finds schemas by hash and `==` holds the same ones.

* **`get?_after`**, **`getElem?_table`** — the schema that a catalog and a table by hash hold for a reference.
* **`size_after`** — how many schemas a catalog holds.
* **`answers_as_latest`** — what a catalog answers.
-/

namespace ResourceLang

/-- The classes of equal references. -/
instance Reference.setoid : Setoid Reference where
  r a b := (a == b) = true
  iseqv := ⟨BEq.refl, fun h => BEq.symm h, fun h h' => BEq.trans h h'⟩

/-- One registration of a schema: at every scope, be it to change a catalog or to build a larger one, or at some. -/
inductive Registration where
  | register (reference : Reference) (body : Ty)
  | registerAt (reference : Reference) (body : Ty) (scopes : List Scope)

namespace Registration

/-- The reference that the schema is registered for. -/
def reference : Registration → Reference
  | register reference _ => reference
  | registerAt reference _ _ => reference

/-- The schema: a body and the scopes at which it is available. -/
def schema : Registration → Schema
  | register _ body => ⟨body, Scope.all⟩
  | registerAt _ body scopes => ⟨body, scopes⟩

/-- The registration is the latest one for a reference that is equal to `r`. -/
structure Latest (log : List Registration) (r : Reference) (w : Registration) : Prop where
  equal : (w.reference == r) = true
  last : ∃ earlier later, log = earlier ++ w :: later ∧ ∀ w' ∈ later, (w'.reference == r) = false

end Registration

namespace Catalog

/-- The catalog with one more registration. -/
def apply (c : Catalog) : Registration → Catalog
  | .register reference body => c.register reference body
  | .registerAt reference body scopes => c.registerAt reference body scopes

/-- The catalog after some registrations. -/
def after (log : List Registration) : Catalog := log.foldl apply empty

/-- The schemas of some registrations in a table by hash. -/
def table (log : List Registration) : Std.HashMap Reference Schema :=
  log.foldl (fun schemas w => schemas.insert w.reference w.schema) ∅

theorem apply_eq (c : Catalog) (w : Registration) : c.apply w = ⟨c.schemas.insert w.reference w.schema⟩ := by
  cases w <;> rfl

theorem after_append (log : List Registration) (w : Registration) :
    after (log ++ [w]) = ⟨(after log).schemas.insert w.reference w.schema⟩ := by
  rw [after, List.foldl_append, ← apply_eq]
  rfl

theorem table_append (log : List Registration) (w : Registration) :
    table (log ++ [w]) = (table log).insert w.reference w.schema := by
  rw [table, List.foldl_append]
  rfl

/-! ## Schemas -/

/-- **The schema that a catalog holds** is that of the last registration for an equal reference. -/
theorem get?_after (log : List Registration) (r : Reference) :
    (after log).schemas.get? r = (log.reverse.find? fun w => w.reference == r).map Registration.schema := by
  induction log using List.reverseRecOn with
  | nil => rfl
  | append_singleton log w ih =>
      rw [after_append, Keyed.get?_insert, ih, List.reverse_append, List.reverse_singleton, List.singleton_append,
        List.find?_cons, BEq.comm]
      cases w.reference == r <;> rfl

/-- **A table by hash** holds the same schemas: it looks only where equal references are. -/
theorem getElem?_table (log : List Registration) (r : Reference) :
    (table log)[r]? = (after log).schemas.get? r := by
  induction log using List.reverseRecOn with
  | nil => exact Std.HashMap.getElem?_empty
  | append_singleton log w ih =>
      rw [table_append, after_append, Std.HashMap.getElem?_insert, Keyed.get?_insert, ih, BEq.comm]

/-- The latest registration is the first one from the end. -/
theorem latest_iff {log : List Registration} {r : Reference} {w : Registration} :
    Registration.Latest log r w ↔ log.reverse.find? (fun w => w.reference == r) = some w := by
  rw [List.find?_eq_some_iff_append]
  constructor
  · rintro ⟨hequal, earlier, later, rfl, hlater⟩
    refine ⟨hequal, later.reverse, earlier.reverse, by simp, ?_⟩
    intro w' hw'
    rw [hlater w' (List.mem_reverse.mp hw')]
    rfl
  · rintro ⟨hequal, later, earlier, hlog, hlater⟩
    refine ⟨hequal, earlier.reverse, later.reverse, ?_, ?_⟩
    · rw [← List.reverse_reverse log, hlog]
      simp
    · intro w' hw'
      have hother := hlater w' (List.mem_reverse.mp hw')
      rwa [Bool.not_eq_true'] at hother

/-- Some registration for an equal reference is the latest, unless there is none. -/
theorem exists_latest (log : List Registration) (r : Reference) :
    (∀ w ∈ log, (w.reference == r) = false) ∨ ∃ w, Registration.Latest log r w := by
  simp only [latest_iff]
  cases hfind : log.reverse.find? fun w => w.reference == r with
  | none =>
      refine Or.inl fun w hw => ?_
      rw [← Bool.not_eq_true]
      exact List.find?_eq_none.mp hfind w (List.mem_reverse.mpr hw)
  | some w => exact Or.inr ⟨w, rfl⟩

/-! ## Classes -/

/-- The keys of a catalog are of the classes that were registered. -/
theorem mem_keys_after (log : List Registration) (q : Quotient Reference.setoid) :
    q ∈ (after log).schemas.keys.map (Quotient.mk _) ↔ ∃ w ∈ log, Quotient.mk _ w.reference = q := by
  induction log using List.reverseRecOn with
  | nil =>
      constructor
      · intro h
        exact nomatch h
      · rintro ⟨w, hw, -⟩
        exact nomatch hw
  | append_singleton log w ih =>
      have hlog : (∃ w' ∈ log ++ [w], Quotient.mk _ w'.reference = q) ↔
          (∃ w' ∈ log, Quotient.mk _ w'.reference = q) ∨ Quotient.mk _ w.reference = q := by
        simp [or_and_right, exists_or]
      rw [after_append, Keyed.keys_insert, hlog, ← ih]
      by_cases hpresent : (after log).schemas.contains w.reference = true
      · -- an equal key is there already
        obtain ⟨schema, hschema⟩ := Option.isSome_iff_exists.mp hpresent
        obtain ⟨key, hentry, hkey⟩ := Keyed.exists_entry_of_get? hschema
        rw [if_pos hpresent]
        refine ⟨Or.inl, fun h => h.elim id ?_⟩
        rintro rfl
        exact List.mem_map.mpr ⟨key, List.mem_map_of_mem hentry, Quotient.sound (BEq.symm hkey)⟩
      · rw [if_neg hpresent, List.map_append, List.mem_append, List.map_singleton, List.mem_singleton, eq_comm (a := q)]

/-- No two keys of a catalog are of one class. -/
theorem nodup_keys_after (log : List Registration) :
    ((after log).schemas.keys.map (Quotient.mk Reference.setoid)).Nodup := by
  have hdistinct : (after log).schemas.DistinctKeys := by
    induction log using List.reverseRecOn with
    | nil => exact Keyed.distinctKeys_empty
    | append_singleton log w ih =>
        rw [after_append]
        exact Keyed.distinctKeys_insert ih w.reference w.schema
  refine List.pairwise_map.mpr (hdistinct.imp fun {a b} hne heq => ?_)
  have hequal : (a == b) = true := Quotient.exact heq
  rw [hne] at hequal
  exact nomatch hequal

/-- **A catalog holds one schema for each class** of equal references that were registered. -/
theorem size_after (log : List Registration) :
    (after log).size = {q : Quotient Reference.setoid | ∃ w ∈ log, Quotient.mk _ w.reference = q}.ncard := by
  classical
  have hclasses : {q : Quotient Reference.setoid | ∃ w ∈ log, Quotient.mk _ w.reference = q} =
      ((after log).schemas.keys.map (Quotient.mk Reference.setoid)).toFinset := by
    ext q
    rw [Set.mem_ofPred_eq, Finset.mem_coe, List.mem_toFinset, mem_keys_after]
  rw [hclasses, Set.ncard_coe_finset, List.toFinset_card_of_nodup (nodup_keys_after log), List.length_map, Keyed.keys,
    List.length_map]
  rfl

/-- A table by hash is of the size of the catalog. -/
theorem size_table (log : List Registration) : (table log).size = (after log).size := by
  induction log using List.reverseRecOn with
  | nil => exact Std.HashMap.size_empty
  | append_singleton log w ih =>
      have hsize : ∀ c : Catalog, c.size = c.schemas.keys.length := fun c => (List.length_map Prod.fst).symm
      have hpresent : w.reference ∈ table log ↔ (after log).schemas.contains w.reference = true := by
        rw [Std.HashMap.mem_iff_isSome_getElem?, getElem?_table]
        rfl
      rw [table_append, Std.HashMap.size_insert, ih, after_append, hsize, hsize, Keyed.keys_insert]
      by_cases h : (after log).schemas.contains w.reference = true
      · rw [if_pos h, if_pos (hpresent.mpr h)]
      · rw [if_neg h, if_neg fun hmem => h (hpresent.mp hmem), List.length_append]
        rfl

/-! ## Answers -/

/-- **What a catalog answers** after any registrations. If no equal reference was registered, it is unknown. Otherwise
    the latest registration for an equal reference decides: at its scopes the answer has its body and the reference as
    it was asked for, and at no other scope is there an answer. A table by hash holds the same schemas, one for each
    class of equal references. -/
theorem answers_as_latest (log : List Registration) :
    (∀ r, (∀ w ∈ log, (w.reference == r) = false) ∨ ∃ w, Registration.Latest log r w) ∧
      (∀ r, (∀ w ∈ log, (w.reference == r) = false) → ∀ scope,
        (after log).provider scope r = .error (.ofCause (.unknownResourceType r.text))) ∧
      (∀ r w, Registration.Latest log r w → ∀ scope,
        (after log).provider scope r =
          if scope ∈ w.schema.scopes then .ok ⟨r, w.schema.body⟩
          else .error (.ofCause (.unsupportedScope r.text scope.name))) ∧
      (∀ r, (table log)[r]? = (after log).schemas.get? r) ∧ (table log).size = (after log).size ∧
      (after log).size = {q : Quotient Reference.setoid | ∃ w ∈ log, Quotient.mk _ w.reference = q}.ncard := by
  refine ⟨exists_latest log, ?_, ?_, getElem?_table log, size_table log, size_after log⟩
  · intro r hnone scope
    have hfind : log.reverse.find? (fun w => w.reference == r) = none := by
      rw [List.find?_eq_none]
      intro w hw
      rw [hnone w (List.mem_reverse.mp hw)]
      exact Bool.false_ne_true
    rw [provider, get?_after, hfind]
    rfl
  · intro r w hlatest scope
    rw [provider, get?_after, latest_iff.mp hlatest]
    rfl

/-- A schema at every scope, and then one at a single scope for another spelling of the same reference. -/
def replaced : List Registration :=
  [.register .storage .anyObject, .registerAt Reference.storage.lowercase .string [.tenant]]

/-- The later schema answers, in the spelling that is asked for; at other scopes there is none any more. -/
theorem answers_replaced :
    Registration.Latest replaced .storage (.registerAt Reference.storage.lowercase .string [.tenant]) ∧
      (after replaced).provider .tenant .storage = .ok ⟨.storage, .string⟩ ∧
      (after replaced).provider .subscription .storage =
        .error (.ofCause (.unsupportedScope "Microsoft.Storage/storageAccounts@2021-04-01" "subscription")) ∧
      ∃ other, (∀ w ∈ replaced, (w.reference == other) = false) ∧
        (after replaced).provider .tenant other =
          .error (.ofCause (.unknownResourceType "Quarry/Keys@2021-04-01")) := by
  have hlatest : Registration.Latest replaced .storage
      (.registerAt Reference.storage.lowercase .string [.tenant]) :=
    ⟨by decide, [.register .storage .anyObject], [], rfl, nofun⟩
  have hother : ∀ w ∈ replaced,
      (w.reference == ⟨"Quarry", ["Keys"], "2021-04-01", List.cons_ne_nil _ _⟩) = false := by
    intro w hw
    rcases List.mem_pair.mp hw with rfl | rfl <;> decide
  obtain ⟨-, hunknown, hanswer, -⟩ := answers_as_latest replaced
  exact ⟨hlatest, hanswer _ _ hlatest .tenant, hanswer _ _ hlatest .subscription, _, hother, hunknown _ hother .tenant⟩

end Catalog

end ResourceLang
