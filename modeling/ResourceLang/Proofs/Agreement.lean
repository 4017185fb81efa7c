/-!
# Agreement of outcomes — the same failure, or related values

Two computations that can fail agree up to a relation on values if both fail in the same way or both give
values that are related. Steps that respect the relation can be put one after the other.

* **`Agree.bind`** — what agrees up to a step.
* **`Agree.foldlM`** — a loop whose steps agree, from states that are related.
-/

namespace ResourceLang

universe u

variable {ε : Type} {α β : Type u} {ι : Type}

/-- Both outcomes are one failure, or both are values that are related. -/
inductive Agree (R : α → α → Prop) : Except ε α → Except ε α → Prop where
  | ok {a b : α} (h : R a b) : Agree R (.ok a) (.ok b)
  | error (e : ε) : Agree R (.error e) (.error e)

namespace Agree

variable {R : α → α → Prop} {S : β → β → Prop}

theorem refl (hR : ∀ a, R a a) (x : Except ε α) : Agree R x x := by
  cases x with
  | ok a => exact .ok (hR a)
  | error e => exact .error e

theorem ok_left_iff {a : α} {y : Except ε α} : Agree R (.ok a) y ↔ ∃ b, y = .ok b ∧ R a b := by
  constructor
  · intro h
    cases h with
    | ok hab => exact ⟨_, rfl, hab⟩
  · rintro ⟨b, rfl, hab⟩
    exact .ok hab

theorem ok_right_iff {x : Except ε α} {b : α} : Agree R x (.ok b) ↔ ∃ a, x = .ok a ∧ R a b := by
  constructor
  · intro h
    cases h with
    | ok hab => exact ⟨_, rfl, hab⟩
  · rintro ⟨a, rfl, hab⟩
    exact .ok hab

/-- Steps that respect the relation keep outcomes in agreement. -/
theorem bind {x y : Except ε α} {f g : α → Except ε β} (h : Agree R x y)
    (hstep : ∀ a b, R a b → Agree S (f a) (g b)) : Agree S (x >>= f) (y >>= g) := by
  cases h with
  | ok hab => exact hstep _ _ hab
  | error e => exact .error e

/-- Loops whose steps respect the relation agree. -/
theorem foldlM {step : α → ι → Except ε α} (hstep : ∀ a b i, R a b → Agree R (step a i) (step b i))
    (items : List ι) {a b : α} (h : R a b) :
    Agree R (items.foldlM step a) (items.foldlM step b) := by
  induction items generalizing a b with
  | nil => exact .ok h
  | cons i rest ih =>
      rw [List.foldlM_cons, List.foldlM_cons]
      exact (hstep a b i h).bind fun a' b' h' => ih h'

end Agree

end ResourceLang
