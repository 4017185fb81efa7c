import Mathlib.Data.List.Perm.Basic
import ResourceLang.Decorator.Standard
import ResourceLang.Proofs.Ty.Acceptance
import ResourceLang.Proofs.Ty.Places
import ResourceLang.Proofs.Ty.ReadOnly

/-!
# Edits — marks and views, in any order and unseen by decorators

A type is given further flags when a declaration is marked, and it is replaced by its read-only view where a resource
exists already. Neither looks at what the other changes. Flags are kept by a view, which is made of the properties or
members alone; and whether members fit together, and what is wrong if they do not, has nothing to do with flags. So
edits of both kinds can be made in any order.

Acceptance compares kinds of primitives, texts, items and references. What an edit changes is neither of these, so an
edited type `Resembles` the type that it was, and is accepted where that is. Only a view that cannot be built is
something else, an error, which goes with everything; that is why the members of a discriminated object have to stand
under the texts they declare.

* **`readOnly_withValidation`** — the view of a marked type, malformed or not.
* **`edited_perm`** — the order of edits does not matter.
* **`accepts_of_resembles`**, **`accepts_resembles`** — acceptance does not see what is edited.
* **`edits_unseen`** — all of this, and that decorators accept an edited type as they accept the type itself.
-/

namespace ResourceLang

namespace Ty

/-- **The view of a marked type** is the view of the type, marked. If there is no view the error is the same, for it
    does not tell flags. -/
theorem readOnly_withValidation (flags : ValidationFlags) (t : Ty) :
    (t.withValidation flags).readOnly = t.readOnly.withValidation flags := by
  cases t with
  | discriminated d =>
      let marked : DiscriminatedTy := { d with validation := d.validation.insert flags }
      show marked.readOnly = d.readOnly.withValidation flags
      cases h : collectMembers d.name d.discriminator .empty (d.members.values.map ObjectTy.readOnly) with
      | ok found =>
          have hmarked : marked.readOnly = discriminated { marked with members := found } :=
            DiscriminatedTy.readOnly_of_collected h
          rw [hmarked, DiscriminatedTy.readOnly_of_collected h]
          rfl
      | error e =>
          have hmarked : marked.readOnly = error ⟨Span.nil, .malformedType e.message⟩ :=
            DiscriminatedTy.readOnly_of_refused h
          rw [hmarked, DiscriminatedTy.readOnly_of_refused h]
          rfl
  | _ => rfl

/-! ## Edits in any order -/

/-- What is done to a type without making another type of it. -/
inductive Edit where
  /-- Further validation flags. -/
  | mark (flags : ValidationFlags)
  /-- The read-only view. -/
  | view

/-- The type after an edit. -/
def edit (t : Ty) : Edit → Ty
  | .mark flags => t.withValidation flags
  | .view => t.readOnly

/-- The type after some edits, one after the other. -/
def edited (t : Ty) (edits : List Edit) : Ty := edits.foldl edit t

/-- Two edits can trade places. -/
theorem edit_comm (t : Ty) (a b : Edit) : (t.edit a).edit b = (t.edit b).edit a := by
  cases a with
  | mark flags =>
      cases b with
      | mark flags' =>
          show (t.withValidation flags).withValidation flags' = (t.withValidation flags').withValidation flags
          rw [withValidation_withValidation, withValidation_withValidation, FlagSet.insert_comm]
      | view => exact readOnly_withValidation flags t
  | view =>
      cases b with
      | mark flags => exact (readOnly_withValidation flags t).symm
      | view => rfl

instance : RightCommutative edit := ⟨edit_comm⟩

/-- **Edits can be made in any order.** -/
theorem edited_perm {edits edits' : List Edit} (h : edits.Perm edits') (t : Ty) : t.edited edits = t.edited edits' :=
  h.foldl_eq t

/-! ## What acceptance does not see -/

/-- The types are the same but for flags, or are both objects, or both discriminated objects. -/
inductive Resembles : Ty → Ty → Prop where
  | same (t : Ty) : Resembles t t
  | primitive (kind : PrimitiveKind) (validation validation' : ValidationFlags) :
      Resembles (primitive kind validation) (primitive kind validation')
  | object (o o' : ObjectTy) : Resembles (object o) (object o')
  | discriminated (d d' : DiscriminatedTy) : Resembles (discriminated d) (discriminated d')

theorem Resembles.trans {t u v : Ty} (h : t.Resembles u) (h' : u.Resembles v) : t.Resembles v := by
  cases h with
  | same => exact h'
  | primitive kind validation _ =>
      cases h' with
      | same => exact .primitive kind validation _
      | primitive => exact .primitive kind validation _
  | object o _ =>
      cases h' with
      | same => exact .object o _
      | object => exact .object o _
  | discriminated d _ =>
      cases h' with
      | same => exact .discriminated d _
      | discriminated => exact .discriminated d _

section Acceptance

variable {t u : Ty}

/-- **Types that resemble each other accept the same.** -/
theorem accepts_of_resembles (h : t.Resembles u) (x : Ty) : t.accepts x = u.accepts x := by
  have hmember : t.acceptsMember = u.acceptsMember := by
    funext g
    cases h with
    | same => rfl
    | primitive => cases g <;> rfl
    | object => cases g <;> rfl
    | discriminated => cases g <;> rfl
  rw [accepts, accepts, hmember]

theorem acceptsMember_resembles (h : t.Resembles u) (x : Ty) : x.acceptsMember t = x.acceptsMember u := by
  induction x using holds_of_items with
  | array item _ => cases h <;> rfl
  | union members ih =>
      have hsome : anyAcceptsMember members t = anyAcceptsMember members u := by
        rw [anyAcceptsMember_eq_any, anyAcceptsMember_eq_any]
        rw [Bool.eq_iff_iff, List.any_eq_true, List.any_eq_true]
        exact exists_congr fun m => and_congr_right fun hm => by rw [ih m hm]
      cases h with
      | same => rfl
      | primitive => exact hsome
      | object => exact hsome
      | discriminated => exact hsome
  | other x harray hunion =>
      cases x with
      | array item => exact absurd rfl (harray item)
      | union members => exact absurd rfl (hunion members)
      | _ => cases h <;> rfl

/-- **Types that resemble each other are accepted alike.** -/
theorem accepts_resembles (h : t.Resembles u) (x : Ty) : x.accepts t = x.accepts u := by
  cases h with
  | same => rfl
  | primitive kind validation validation' => exact acceptsMember_resembles (.primitive kind validation validation') x
  | object o o' => exact acceptsMember_resembles (.object o o') x
  | discriminated d d' => exact acceptsMember_resembles (.discriminated d d') x

end Acceptance

/-! ## Edited types -/

theorem resembles_withValidation (flags : ValidationFlags) (t : Ty) : t.Resembles (t.withValidation flags) := by
  cases t with
  | primitive kind validation => exact .primitive kind validation _
  | object o => exact .object o _
  | discriminated d => exact .discriminated d _
  | _ => exact .same _

/-- A type resembles its view, if members stand where they belong. -/
theorem resembles_readOnly {t : Ty} (h : t.MembersKeyed) : t.Resembles t.readOnly := by
  cases t with
  | object o => exact .object o _
  | discriminated d =>
      show Resembles _ d.readOnly
      rw [DiscriminatedTy.readOnly_of_keyed h]
      exact .discriminated d _
  | _ => exact .same _

/-- After an edit, members stand where they belong. -/
theorem MembersKeyed.edit {t : Ty} (h : t.MembersKeyed) (e : Edit) : (t.edit e).MembersKeyed := by
  cases t with
  | discriminated d =>
      cases e with
      | mark flags => exact h
      | view =>
          show d.readOnly.MembersKeyed
          rw [DiscriminatedTy.readOnly_of_keyed h]
          exact KeyedMembers.map_readOnly h
  | _ => cases e <;> trivial

theorem resembles_edit {t : Ty} (h : t.MembersKeyed) (e : Edit) : t.Resembles (t.edit e) := by
  cases e with
  | mark flags => exact resembles_withValidation flags t
  | view => exact resembles_readOnly h

/-- **A type resembles what becomes of it** by any edits, if members stand where they belong. -/
theorem resembles_edited {t : Ty} (h : t.MembersKeyed) (edits : List Edit) : t.Resembles (t.edited edits) := by
  induction edits generalizing t with
  | nil => exact .same t
  | cons e edits ih => exact (resembles_edit h e).trans (ih (h.edit e))

/-- **Edits do not see each other and are not seen.** The view of a marked type is the marked view, be the type
    malformed or not, and flags add up. Acceptance does not change on either side with a mark, nor with a view if the
    members of a discriminated object stand under the texts they declare. So edits can be made in any order, and a
    decorator accepts the outcome exactly if it accepts the type. -/
theorem edits_unseen :
    (∀ (t : Ty) (flags : ValidationFlags), (t.withValidation flags).readOnly = t.readOnly.withValidation flags) ∧
      (∀ (t : Ty) (flags flags' : ValidationFlags),
        (t.withValidation flags).withValidation flags' = t.withValidation (flags.insert flags')) ∧
      (∀ (t x : Ty) (flags : ValidationFlags),
        (t.withValidation flags).accepts x = t.accepts x ∧ x.accepts (t.withValidation flags) = x.accepts t) ∧
      (∀ t : Ty, t.MembersKeyed → ∀ x : Ty,
        t.readOnly.accepts x = t.accepts x ∧ x.accepts t.readOnly = x.accepts t) ∧
      (∀ edits edits' : List Edit, edits.Perm edits' → ∀ t : Ty, t.edited edits = t.edited edits') ∧
      ∀ t : Ty, t.MembersKeyed → ∀ (edits : List Edit) (d : Decorator),
        d.acceptsTarget (t.edited edits) = d.acceptsTarget t := by
  refine ⟨fun t flags => readOnly_withValidation flags t,
    fun t flags flags' => withValidation_withValidation flags flags' t, ?_, ?_, fun _ _ => edited_perm, ?_⟩
  · intro t x flags
    have h := resembles_withValidation flags t
    exact ⟨(accepts_of_resembles h x).symm, (accepts_resembles h x).symm⟩
  · intro t ht x
    have h := resembles_readOnly ht
    exact ⟨(accepts_of_resembles h x).symm, (accepts_resembles h x).symm⟩
  · intro t ht edits d
    exact (accepts_resembles (resembles_edited ht edits) d.target).symm

/-- Accounts of which two declare one tier. -/
def sameTier : Ty := discriminated ⟨"Account", .none, "tier", ⟨[("cold", .account "hot"), ("hot", .account "hot")]⟩⟩

/-- Accounts come out the same if they are marked before and after the view, and `secure` accepts them as before, while
    `minValue` does not. Accounts of which two declare one tier have no view, marked or not, for the same reason. -/
theorem edits_accounts :
    (discriminated .accounts).MembersKeyed ∧
      [Edit.mark .secure, .view, .mark ⟨1⟩].Perm [.view, .mark .secure, .mark ⟨1⟩] ∧
      (discriminated .accounts).edited [.mark .secure, .view, .mark ⟨1⟩] =
        (discriminated .accounts).edited [.view, .mark .secure, .mark ⟨1⟩] ∧
      int.accepts (discriminated .accounts).readOnly = false ∧
      Decorator.secure.acceptsTarget ((discriminated .accounts).edited [.mark .secure, .view, .mark ⟨1⟩]) = true ∧
      Decorator.minValue.acceptsTarget ((discriminated .accounts).edited [.mark .secure, .view, .mark ⟨1⟩]) = false ∧
      (sameTier.withValidation .secure).readOnly =
        error ⟨Span.nil, .malformedType "duplicate member hot in union Account"⟩ := by
  have hkeyed : (discriminated .accounts).MembersKeyed := by
    refine ⟨List.pairwise_pair.mpr (by decide), fun e he => ?_⟩
    rcases List.mem_pair.mp he with rfl | rfl <;> rfl
  have hperm : [Edit.mark .secure, .view, .mark ⟨1⟩].Perm [.view, .mark .secure, .mark ⟨1⟩] := .swap _ _ _
  obtain ⟨hview, -, -, haccepts, horder, hdecorators⟩ := edits_unseen
  refine ⟨hkeyed, hperm, horder _ _ hperm _, ?_, ?_, ?_, ?_⟩
  · exact (haccepts _ hkeyed int).2
  · exact hdecorators _ hkeyed _ Decorator.secure
  · exact hdecorators _ hkeyed _ Decorator.minValue
  · exact hview sameTier ValidationFlags.secure

/-- A view that cannot be built is accepted everywhere. -/
example : int.accepts sameTier = false ∧ int.accepts sameTier.readOnly = true := by decide

end Ty

end ResourceLang
