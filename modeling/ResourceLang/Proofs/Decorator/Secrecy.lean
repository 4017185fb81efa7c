import Mathlib.Tactic.SplitIfs
import ResourceLang.Binding.Resolution
import ResourceLang.Proofs.Decorator.Reordering
import ResourceLang.Proofs.Ty.Acceptance
import ResourceLang.Proofs.Ty.Union

/-!
# Secrecy — which types `secure` marks

The decorator `secure` asks for texts or objects. Whether a type is of this kind is decided for each of its choices: a
single text will do for a text, and an object with a discriminator for an object. The mark is a validation flag, and
not every type that is accepted has such flags. Texts and objects do. A single text does not, and neither does a union,
whatever its members are; these are left as they are.

Once a type is marked it stays so: the other standard decorators leave types alone, and marking again changes nothing.
A declaration names its type by a keyword, and no keyword stands for a single text or a union.

* **`Decorator.secure_accepts_iff`** — which types are accepted.
* **`Decorator.secure_marks`** — which of them are marked.
* **`evaluateDecorators_marks`** — the mark at the end of a declaration's decorators.
-/

namespace ResourceLang

namespace Ty

/-- Texts, single texts, and objects with or without a discriminator. -/
def isTextOrObject : Ty → Bool
  | primitive kind _ => kind == .string
  | literal _ => true
  | object _ => true
  | discriminated _ => true
  | _ => false

/-- Whether the type has validation flags of its own. -/
def hasValidation : Ty → Bool
  | primitive _ _ => true
  | object _ => true
  | discriminated _ => true
  | _ => false

/-- Types with validation flags are given more. -/
theorem validation_withValidation {t : Ty} (h : t.hasValidation = true) (flags : ValidationFlags) :
    (t.withValidation flags).validation = t.validation.insert flags := by
  cases t with
  | primitive _ _ => rfl
  | object _ => rfl
  | discriminated _ => rfl
  | _ => exact nomatch h

/-- Types without validation flags are left as they are. -/
theorem withValidation_of_not_hasValidation {t : Ty} (h : t.hasValidation = false) (flags : ValidationFlags) :
    t.withValidation flags = t := by
  cases t with
  | primitive _ _ => exact nomatch h
  | object _ => exact nomatch h
  | discriminated _ => exact nomatch h
  | _ => rfl

theorem validation_of_not_hasValidation {t : Ty} (h : t.hasValidation = false) : t.validation = .none := by
  cases t with
  | primitive _ _ => exact nomatch h
  | object _ => exact nomatch h
  | discriminated _ => exact nomatch h
  | _ => rfl

/-- What a type is marked with it has, if it has validation flags at all. -/
theorem contains_withValidation_iff {flags : ValidationFlags} (hflags : FlagSet.none.contains flags = false)
    (t : Ty) : (t.withValidation flags).validation.contains flags = true ↔ t.hasValidation = true := by
  cases h : t.hasValidation with
  | true =>
      rw [validation_withValidation h, FlagSet.contains_insert_iff]
      exact ⟨fun _ => rfl, fun _ _ hi => Or.inr hi⟩
  | false =>
      rw [withValidation_of_not_hasValidation h, validation_of_not_hasValidation h, hflags]

end Ty

namespace Decorator

open Ty (Lenient)

/-- The choices of the target of `secure`. -/
theorem choices_stringOrObject : stringOrObject.choices = [.string, .anyObject] := rfl

/-- **`secure` accepts** the types of which each choice is lenient, a text or an object. -/
theorem secure_accepts_iff (t : Ty) :
    secure.acceptsTarget t = true ↔ ∀ g ∈ t.choices, g.Lenient ∨ g.isTextOrObject = true := by
  show stringOrObject.accepts t = true ↔ _
  rw [Ty.accepts_iff, choices_stringOrObject]
  refine forall₂_congr fun g hg => ?_
  by_cases hlenient : g.Lenient
  · exact ⟨fun _ => Or.inl hlenient, fun _ => Or.inl hlenient⟩
  · rw [or_iff_right hlenient, or_iff_right hlenient]
    have hne := Ty.ne_union_of_mem_choices t g hg
    simp only [List.mem_cons, List.not_mem_nil, or_false, exists_eq_or_imp, exists_eq_left,
      Ty.accepts_of_ne_union _ hne]
    cases g with
    | any => exact absurd (Or.inl rfl) hlenient
    | error _ => exact absurd (Or.inr rfl) hlenient
    | union members => exact absurd rfl (hne members)
    | primitive kind _ => cases kind <;> simp [Ty.string, Ty.anyObject, Ty.acceptsMember, Ty.isTextOrObject]
    | _ => simp [Ty.string, Ty.anyObject, Ty.acceptsMember, Ty.isTextOrObject]

/-- Of the types that are accepted and not lenient, those without validation flags are single texts and unions. -/
theorem hasValidation_eq_false_iff {t : Ty} (haccepted : secure.acceptsTarget t = true) (hstrict : ¬t.Lenient) :
    t.hasValidation = false ↔ (∃ value, t = .literal value) ∨ ∃ members, t = .union members := by
  constructor
  · intro hplain
    by_cases hunion : ∃ members, t = .union members
    · exact Or.inr hunion
    · -- a type that is no union is its own only choice
      have hne : ∀ members, t ≠ .union members := fun members h => hunion ⟨members, h⟩
      rw [secure_accepts_iff, Ty.choices_eq_singleton hne, List.forall_mem_singleton, or_iff_right hstrict] at haccepted
      cases t with
      | literal value => exact Or.inl ⟨value, rfl⟩
      | primitive _ _ => exact nomatch hplain
      | object _ => exact nomatch hplain
      | discriminated _ => exact nomatch hplain
      | _ => exact nomatch haccepted
  · rintro (⟨value, rfl⟩ | ⟨members, rfl⟩) <;> rfl

/-- **Which types `secure` marks.** Of the types that it accepts, other than `any` and errors, it marks exactly those
    that are neither a single text nor a union. These two have no validation flags, and are left as they are. -/
theorem secure_marks {t : Ty} (haccepted : secure.acceptsTarget t = true) (hany : t.isAny = false)
    (herror : t.isError = false) :
    ((secure.narrow t).validation.contains ValidationFlags.secure = true ↔
        (∀ value, t ≠ .literal value) ∧ ∀ members, t ≠ .union members) ∧
      ((∃ value, t = .literal value) ∨ (∃ members, t = .union members) → secure.narrow t = t) := by
  have hstrict : ¬t.Lenient := by
    rintro (h | h)
    · exact Bool.false_ne_true (hany.symm.trans h)
    · exact Bool.false_ne_true (herror.symm.trans h)
  have hplain := hasValidation_eq_false_iff haccepted hstrict
  constructor
  · show (t.withValidation ValidationFlags.secure).validation.contains ValidationFlags.secure = true ↔ _
    rw [Ty.contains_withValidation_iff rfl, ← Bool.not_eq_false, hplain, not_or, not_exists, not_exists]
  · intro h
    exact Ty.withValidation_of_not_hasValidation (hplain.mpr h) ValidationFlags.secure

/-- A text that has other flags is marked, and two single texts to choose from are not. -/
theorem secure_marks_texts :
    secure.acceptsTarget (.primitive .string ⟨3⟩) = true ∧
      (secure.narrow (.primitive .string ⟨3⟩)).validation.contains ValidationFlags.secure = true ∧
      secure.acceptsTarget (.union [.literal "cold", .literal "hot"]) = true ∧
      secure.narrow (.union [.literal "cold", .literal "hot"]) = .union [.literal "cold", .literal "hot"] := by
  obtain ⟨hmarked, -⟩ := secure_marks (t := .primitive .string ⟨3⟩) rfl rfl rfl
  obtain ⟨-, hkept⟩ := secure_marks (t := .union [.literal "cold", .literal "hot"]) rfl rfl rfl
  exact ⟨rfl, hmarked.mpr ⟨nofun, nofun⟩, rfl, hkept (Or.inr ⟨_, rfl⟩)⟩

/-- Not all types that `secure` accepts are marked: a single text is not. -/
theorem secure_not_marks :
    ¬∀ t : Ty, secure.acceptsTarget t = true → t.isAny = false → t.isError = false →
      (secure.narrow t).validation.contains ValidationFlags.secure = true := by
  intro h
  exact absurd (h (.literal "a") rfl rfl rfl) (by decide)

end Decorator

/-! ## Declarations -/

open Decorator (secure)

/-- After all decorators of a declaration, `secure` among them, its type is marked if it has validation flags. -/
theorem evaluateDecorators_marked_iff {d : Syntax.Declaration} {type : Ty} {e : Evaluation}
    (huse : ∃ use ∈ d.decorators, use.name = "secure") (he : evaluateDecorators .standard d type = .ok e) :
    e.narrowed.validation.contains ValidationFlags.secure = true ↔ type.hasValidation = true := by
  obtain ⟨-, rfl⟩ := (evaluateDecorators_eq_ok_iff .ofStandard).mp he
  have hnarrowed : (Evaluation.after Decorator.standard d.name.name (.start type) d.decorators).narrowed =
      type.withValidation ValidationFlags.secure := by
    refine (Application.narrowed_standard type d.decorators).trans ?_
    rw [if_pos huse]
  rw [hnarrowed]
  exact Ty.contains_withValidation_iff rfl type

/-- Types that are named by a keyword have validation flags, unless they are lists. -/
theorem Ty.hasValidation_of_keyword {keyword : String} {t : Ty} (h : ofKeyword? keyword = some t) :
    t.hasValidation = true ∨ t = anyArray := by
  rw [ofKeyword?] at h
  split_ifs at h <;> obtain rfl := Option.some.inj h
  exacts [Or.inl rfl, Or.inl rfl, Or.inl rfl, Or.inl rfl, Or.inr rfl]

/-- **The mark is not lost** on a declaration whose type is named by a keyword: if `secure` accepts the type and is
    among the decorators, the type is marked after all of them. -/
theorem evaluateDecorators_marks {d : Syntax.Declaration} {keyword : String} {type : Ty} {e : Evaluation}
    (hkeyword : Ty.ofKeyword? keyword = some type) (haccepted : secure.acceptsTarget type = true)
    (huse : ∃ use ∈ d.decorators, use.name = "secure") (he : evaluateDecorators .standard d type = .ok e) :
    e.narrowed.validation.contains ValidationFlags.secure = true := by
  rw [evaluateDecorators_marked_iff huse he]
  rcases Ty.hasValidation_of_keyword hkeyword with h | rfl
  · exact h
  · exact nomatch haccepted

end ResourceLang
