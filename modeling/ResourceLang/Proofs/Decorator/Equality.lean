import ResourceLang.Decorator.Evaluation
import ResourceLang.Proofs.Agreement
import ResourceLang.Proofs.Decorator.History
import ResourceLang.Proofs.Ty.Canonical

/-!
# Decorators on equal types — the same metadata and equal types again

Types are compared up to the order of properties and the case of references, and a decorator is free to look
at either. One that does not gives the same metadata on equal types and leaves equal types behind. The
standard decorators are of this kind, and if all decorators of a registry are, then evaluation is too.

* **`respectsEquality_of_standard`** — the standard decorators respect equality.
* **`evaluateDecorators_congr`** — evaluation on equal types.
-/

namespace ResourceLang

open Syntax (Declaration DecoratorUse)

/-- The decorator gives the same metadata on equal types and leaves equal types behind. -/
structure Decorator.RespectsEquality (d : Decorator) : Prop where
  metadata : ∀ (use : DecoratorUse) (a b : Ty), (a == b) = true → d.metadata use a = d.metadata use b
  narrow : ∀ a b : Ty, (a == b) = true → (d.narrow a == d.narrow b) = true

/-- Every decorator of the registry respects equality. -/
def Registry.RespectsEquality (registry : Registry) : Prop :=
  ∀ name d, registry.get? name = some d → d.RespectsEquality

/-- Equal up to the equality of types. -/
structure Evaluation.Agrees (e e' : Evaluation) : Prop where
  metadata : e.metadata = e'.metadata
  narrowed : (e.narrowed == e'.narrowed) = true
  unknown : e.unknown = e'.unknown

/-! ## Decorators -/

namespace Decorator

theorem recording_respectsEquality (target : Ty) (signature : Signature) (key : String) :
    (recording target signature key).RespectsEquality :=
  ⟨fun _ _ _ _ => rfl, fun _ _ h => h⟩

theorem secure_respectsEquality : secure.RespectsEquality :=
  ⟨fun _ _ _ _ => rfl, fun _ _ h => Ty.withValidation_congr .secure h⟩

/-- Of the standard decorators, all but `secure` only record an argument. -/
theorem eq_secure_or_recording {d : Decorator} (h : d ∈ standard) :
    d = secure ∨ ∃ target signature key, d = recording target signature key := by
  rcases List.mem_cons.mp h with rfl | h
  · exact Or.inl rfl
  · have h : d ∈ [allowed, minValue, maxValue, minLength, maxLength, description, attachment] := h
    simp only [List.mem_cons, List.not_mem_nil, or_false] at h
    rcases h with rfl | rfl | rfl | rfl | rfl | rfl | rfl <;> exact Or.inr ⟨_, _, _, rfl⟩

theorem respectsEquality_of_standard {d : Decorator} (h : d ∈ standard) : d.RespectsEquality := by
  rcases eq_secure_or_recording h with rfl | ⟨target, signature, key, rfl⟩
  · exact secure_respectsEquality
  · exact recording_respectsEquality target signature key

end Decorator

/-! ## Registries -/

namespace Registry

/-- A decorator that is found was registered. -/
theorem mem_of_registered {decorators : List Decorator} {name : String} {d : Decorator}
    (h : (decorators.foldl register empty).get? name = some d) : d ∈ decorators := by
  rw [get?_foldl_register] at h
  exact (Decorator.of_lastNamed h).1

/-- A registry to which only decorators that respect equality were ever registered. -/
theorem respectsEquality_of_registered {decorators : List Decorator}
    (h : ∀ d ∈ decorators, d.RespectsEquality) :
    (decorators.foldl register empty).RespectsEquality :=
  fun _ d hget => h d (mem_of_registered hget)

theorem lookup_eq_ok_iff {registry : Registry} {name : String} {d : Decorator} :
    registry.lookup name = .ok d ↔ registry.get? name = some d := by
  rw [lookup]
  cases registry.get? name with
  | none => simp only [reduceCtorEq]
  | some d' => simp only [Except.ok.injEq, Option.some.injEq]

end Registry

/-! ## Evaluation -/

namespace Evaluation

variable {registry : Registry}

/-- One decorator keeps two evaluations in agreement. -/
theorem step_congr (hregistry : registry.RespectsEquality) (owner : String) {e e' : Evaluation}
    (h : e.Agrees e') (use : DecoratorUse) :
    Agree Agrees (step registry owner e use) (step registry owner e' use) := by
  rw [step, step]
  cases hlookup : registry.lookup use.name with
  | ok d =>
      have hd := hregistry use.name d (Registry.lookup_eq_ok_iff.mp hlookup)
      refine .ok ⟨?_, hd.narrow _ _ h.narrowed, h.unknown⟩
      rw [apply, apply, hd.metadata use _ _ h.narrowed, h.metadata]
  | error unknown =>
      refine (Agree.refl (R := Eq) (fun _ => rfl) use.span).bind ?_
      rintro span _ rfl
      refine .ok ⟨h.metadata, h.narrowed, ?_⟩
      rw [h.unknown]

end Evaluation

/-- **Evaluation on equal types**: the same metadata in the same order, the same unknown decorators, and
    equal types. -/
theorem evaluateDecorators_congr {registry : Registry} (hregistry : registry.RespectsEquality)
    (d : Declaration) {a b : Ty} (h : (a == b) = true) :
    Agree Evaluation.Agrees (evaluateDecorators registry d a) (evaluateDecorators registry d b) :=
  Agree.foldlM (fun _ _ use h' => Evaluation.step_congr hregistry d.name.name h' use) d.decorators
    ⟨rfl, h, rfl⟩

end ResourceLang
