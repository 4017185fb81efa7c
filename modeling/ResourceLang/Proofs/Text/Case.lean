import Mathlib.Data.List.Forall2
import ResourceLang.Text.Case

/-!
# Letter case — what lowercase texts tell about texts

Two texts differ at most in case if they have the same characters one by one, except that one text may have a letter
from `A` to `Z` where the other one has the same letter from `a` to `z`. That is said here without a lowercase form;
and it is what having the same lowercase form means.

* **`toLower_eq_iff`** — when two characters have one lowercase form.
* **`sameButCase_iff`** — when two texts have one.
-/

namespace ResourceLang.Text

/-- The same character, or a letter from `A` to `Z` and the same letter from `a` to `z`. -/
inductive SameLetter : Char → Char → Prop where
  | same (c : Char) : SameLetter c c
  | lower {c d : Char} (hupper : 'A' ≤ c ∧ c ≤ 'Z') (h : d.toNat = c.toNat + 32) : SameLetter c d
  | upper {c d : Char} (hupper : 'A' ≤ d ∧ d ≤ 'Z') (h : c.toNat = d.toNat + 32) : SameLetter c d

/-- The texts have the same characters one by one, but for the case of letters from `a` to `z`. -/
def SameButCase (s t : String) : Prop := List.Forall₂ SameLetter s.toList t.toList

/-! ## Characters -/

/-- Lowercase letters stand 32 places after the uppercase ones. -/
theorem toNat_toLower (c : Char) :
    c.toLower.toNat = if 65 ≤ c.toNat ∧ c.toNat ≤ 90 then c.toNat + 32 else c.toNat := by
  by_cases hupper : c.val ≥ 'A'.val ∧ c.val ≤ 'Z'.val
  · have hbounds : 65 ≤ c.toNat ∧ c.toNat ≤ 90 := hupper
    have hlower : c.toLower.val = c.val + 32 := congrArg Char.val (dif_pos hupper)
    rw [if_pos hbounds]
    show c.toLower.val.toNat = c.toNat + 32
    rw [hlower, UInt32.toNat_add]
    show (c.toNat + 32) % 2 ^ 32 = c.toNat + 32
    omega
  · have hbounds : ¬(65 ≤ c.toNat ∧ c.toNat ≤ 90) := hupper
    have hkept : c.toLower = c := dif_neg hupper
    rw [if_neg hbounds, hkept]

/-- **Two characters have one lowercase form** exactly if they are the same up to case. -/
theorem toLower_eq_iff (c d : Char) : c.toLower = d.toLower ↔ SameLetter c d := by
  rw [← Char.toNat_inj, toNat_toLower, toNat_toLower]
  constructor
  · intro h
    by_cases hc : 65 ≤ c.toNat ∧ c.toNat ≤ 90
    · by_cases hd : 65 ≤ d.toNat ∧ d.toNat ≤ 90
      · rw [if_pos hc, if_pos hd] at h
        obtain rfl : c = d := Char.toNat_inj.mp (by omega)
        exact .same c
      · rw [if_pos hc, if_neg hd] at h
        exact .lower hc h.symm
    · by_cases hd : 65 ≤ d.toNat ∧ d.toNat ≤ 90
      · rw [if_neg hc, if_pos hd] at h
        exact .upper hd h
      · rw [if_neg hc, if_neg hd] at h
        obtain rfl : c = d := Char.toNat_inj.mp h
        exact .same c
  · intro h
    cases h with
    | same => rfl
    | lower hupper h =>
        have hupper : 65 ≤ c.toNat ∧ c.toNat ≤ 90 := hupper
        rw [if_pos hupper, if_neg (by omega), h]
    | upper hupper h =>
        have hupper : 65 ≤ d.toNat ∧ d.toNat ≤ 90 := hupper
        rw [if_pos hupper, if_neg (by omega), h]

/-! ## Texts -/

theorem toList_lowered (s : String) : (lowered s).toList = s.toList.map Char.toLower := String.toList_ofList

/-- Texts in lowercase stay as they are. -/
theorem lowered_lowered (s : String) : lowered (lowered s) = lowered s := by
  rw [← String.toList_inj, toList_lowered, toList_lowered, List.map_map]
  refine List.map_congr_left fun c _ => ?_
  show c.toLower.toLower = c.toLower
  rw [← Char.toNat_inj, toNat_toLower, toNat_toLower]
  -- what comes out lies behind the last letter in uppercase
  split_ifs <;> omega

/-- **Two texts have one lowercase form** exactly if they differ at most in case. -/
theorem sameButCase_iff (s t : String) : SameButCase s t ↔ lowered s = lowered t := by
  have hchars : SameButCase s t ↔ List.Forall₂ (fun c d : Char => c.toLower = d.toLower) s.toList t.toList := by
    rw [SameButCase, funext₂ fun c d => propext (toLower_eq_iff c d)]
  rw [hchars, ← String.toList_inj, toList_lowered, toList_lowered, ← List.forall₂_eq_eq_eq, List.forall₂_map_left_iff,
    List.forall₂_map_right_iff]

end ResourceLang.Text
