import Mathlib.Data.List.Forall2

/-!
# Outcomes that are values — what the steps of a computation have given

A computation that can fail and has given a value has had a value at each of its steps. So what every step
keeps holds of the value of a loop, and each value of a list that was computed is the value of some item.

* **`bind_eq_ok_iff`** — the steps of a computation that gives a value.
* **`foldlM_invariant`** — what a loop keeps.
* **`forall₂_of_mapM`**, **`exists_item_of_mapM`** — the items that values were computed from.
-/

namespace ResourceLang

universe u

variable {ε ι : Type} {α β : Type u}

theorem bind_eq_ok_iff {x : Except ε α} {f : α → Except ε β} {b : β} :
    (x >>= f) = .ok b ↔ ∃ a, x = .ok a ∧ f a = .ok b := by
  cases x with
  | ok a =>
      constructor
      · intro h
        exact ⟨a, rfl, h⟩
      · rintro ⟨a', ha, h⟩
        rw [Except.ok.inj ha]
        exact h
  | error e =>
      constructor
      · intro h
        exact nomatch h
      · rintro ⟨a, ha, -⟩
        exact nomatch ha

/-- What holds at the start of a loop and is kept by every step holds of the result. -/
theorem foldlM_invariant {P : α → Prop} {step : α → ι → Except ε α}
    (hstep : ∀ a i b, P a → step a i = .ok b → P b) {items : List ι} {a b : α} (ha : P a)
    (h : items.foldlM step a = .ok b) : P b := by
  induction items generalizing a with
  | nil =>
      obtain rfl : a = b := Except.ok.inj h
      exact ha
  | cons i rest ih =>
      rw [List.foldlM_cons, bind_eq_ok_iff] at h
      obtain ⟨a', hfirst, hrest⟩ := h
      exact ih (hstep a i a' ha hfirst) hrest

/-- The values that were computed for a list of items are those of the items one by one. -/
theorem forall₂_of_mapM {f : ι → Except ε β} {items : List ι} {values : List β}
    (h : items.mapM f = .ok values) : List.Forall₂ (fun i b => f i = .ok b) items values := by
  induction items generalizing values with
  | nil =>
      obtain rfl : [] = values := Except.ok.inj h
      exact .nil
  | cons i rest ih =>
      rw [List.mapM_cons, bind_eq_ok_iff] at h
      obtain ⟨first, hfirst, h⟩ := h
      obtain ⟨later, hlater, h⟩ := bind_eq_ok_iff.mp h
      obtain rfl : first :: later = values := Except.ok.inj h
      exact .cons hfirst (ih hlater)

/-- Each of the values that were computed for a list of items is the value of one of them. -/
theorem exists_item_of_mapM {f : ι → Except ε β} {items : List ι} {values : List β}
    (h : items.mapM f = .ok values) {b : β} (hb : b ∈ values) : ∃ i ∈ items, f i = .ok b := by
  have hvalues := forall₂_of_mapM h
  clear h
  induction hvalues with
  | nil => exact nomatch hb
  | cons hfirst _ ih =>
      rcases List.mem_cons.mp hb with rfl | hb
      · exact ⟨_, List.mem_cons_self, hfirst⟩
      · obtain ⟨i, hi, hvalue⟩ := ih hb
        exact ⟨i, List.mem_cons_of_mem _ hi, hvalue⟩

end ResourceLang
