import ResourceLang.Proofs.Ty.ReadOnly
import ResourceLang.Proofs.Ty.Refusal

/-!
# Rebuilt members — which discriminated objects have a read-only view

The read-only view of a discriminated object is built anew from its members, and the keys under which these stand are
not looked at. So it is not the keys that decide whether there is a view: there is one as soon as each member declares
a text for the discriminator and no two declare the same one. Otherwise the first member that does not fit in with
those before it is the reason of an error without a position.

Members of a view stand under the texts they declare, whatever they stood under before. A member that stands under
another text than it declares is misfiled, and the view files it where it belongs: it is no longer found under the key
it had, and if members have traded places the keys do not even tell.

* **`DiscriminatedTy.readOnly_rebuilt`** — which discriminated objects have a view, under which keys, and what else.
-/

namespace ResourceLang

/-! ## Views -/

namespace DiscriminatedTy

/-- The read-only view of a discriminated object: the views of its members, in ascending order under the texts they
    declare. -/
structure ConvertedFrom (view d : DiscriminatedTy) : Prop where
  name : view.name = d.name
  validation : view.validation = d.validation
  discriminator : view.discriminator = d.discriminator
  keyed : KeyedMembers view.discriminator view.members
  members : view.members.values.Perm (d.members.values.map ObjectTy.readOnly)

/-- The members fit together, but some member stands under a key that is not the text it declares. -/
structure Misfiled (d : DiscriminatedTy) : Prop where
  fit : DeclaredApart d.discriminator d.members.values
  elsewhere : ∃ e ∈ d.members.entries, e.2.discriminatorValue? d.discriminator ≠ some e.1

/-- The members of a view are collected as the members are that they are views of. -/
theorem collectMembers_readOnly (d : DiscriminatedTy) :
    collectMembers d.name d.discriminator .empty (d.members.values.map ObjectTy.readOnly) =
      (collectMembers d.name d.discriminator .empty d.members.values).map (Keyed.map fun _ => ObjectTy.readOnly) :=
  collectMembers_map d.name d.discriminator ObjectTy.readOnly (fun _ => rfl)
    (fun o => o.discriminatorValue?_readOnly d.discriminator) .empty d.members.values

/-- Members that fit together are rebuilt. -/
theorem exists_view_of_fit {d : DiscriminatedTy} (h : DeclaredApart d.discriminator d.members.values) :
    ∃ view : DiscriminatedTy, d.readOnly = .discriminated view ∧ view.ConvertedFrom d := by
  obtain ⟨found, hfound⟩ := (exists_collected_iff d.name).mpr h
  obtain ⟨hkeyed, hvalues⟩ := keyed_of_collected hfound
  have hviews := d.collectMembers_readOnly
  rw [hfound] at hviews
  refine ⟨_, readOnly_of_collected hviews, rfl, rfl, rfl, hkeyed.map_readOnly, ?_⟩
  show (found.map fun _ => ObjectTy.readOnly).values.Perm _
  rw [Keyed.values_map]
  have hmap := hvalues.map ObjectTy.readOnly
  rw [Keyed.values, List.map_map] at hmap
  exact hmap

/-- The first member that does not fit in makes the view an error. -/
theorem error_of_misfit {d : DiscriminatedTy} {cause : Cause}
    (h : FirstMisfit d.name d.discriminator d.members.values cause) :
    d.readOnly = .error ⟨Span.nil, .malformedType cause.message⟩ := by
  have hviews := d.collectMembers_readOnly
  rw [refused_of_misfit h] at hviews
  exact readOnly_of_refused hviews

/-- There is a view exactly if the members fit together. -/
theorem exists_view_iff {d : DiscriminatedTy} :
    (∃ view, d.readOnly = .discriminated view) ↔ DeclaredApart d.discriminator d.members.values := by
  constructor
  · rintro ⟨view, hview⟩
    by_contra h
    obtain ⟨cause, hmisfit⟩ := exists_misfit d.name h
    exact nomatch hview.symm.trans (error_of_misfit hmisfit)
  · intro h
    obtain ⟨view, hview, -⟩ := exists_view_of_fit h
    exact ⟨view, hview⟩

theorem convertedFrom_of_view {d view : DiscriminatedTy} (h : d.readOnly = .discriminated view) :
    view.ConvertedFrom d := by
  obtain ⟨view', hview', hconverted⟩ := exists_view_of_fit (exists_view_iff.mp ⟨view, h⟩)
  obtain rfl : view' = view := Ty.discriminated.inj (hview'.symm.trans h)
  exact hconverted

namespace ConvertedFrom

variable {d view : DiscriminatedTy}

/-- The keys of a view are the texts that the members declared all along. -/
theorem perm_keys (h : view.ConvertedFrom d) :
    (view.members.keys.map some).Perm (d.members.values.map fun m => m.discriminatorValue? d.discriminator) := by
  have hviews := h.members.map fun m => m.discriminatorValue? view.discriminator
  rw [← h.keyed.map_keys, List.map_map, h.discriminator] at hviews
  have hsame : (fun m : ObjectTy => m.discriminatorValue? d.discriminator) ∘ ObjectTy.readOnly =
      fun m => m.discriminatorValue? d.discriminator :=
    funext fun m => m.discriminatorValue?_readOnly d.discriminator
  rw [hsame] at hviews
  exact hviews

/-- A view has the keys of the original exactly if these are, in some order, the texts that the members declare. -/
theorem keys_eq_iff (h : view.ConvertedFrom d) (hmap : d.members.Ascending) :
    view.members.keys = d.members.keys ↔
      (d.members.keys.map some).Perm (d.members.values.map fun m => m.discriminatorValue? d.discriminator) := by
  constructor
  · intro heq
    rw [← heq]
    exact h.perm_keys
  · intro hperm
    have hkeys : view.members.keys.Perm d.members.keys :=
      (List.map_perm_map_iff (Option.some_injective _)).mp (h.perm_keys.trans hperm.symm)
    exact hkeys.eq_of_pairwise (fun a b _ _ hab hba => absurd hba (String.lt_asymm hab)) h.keyed.ascending hmap

end ConvertedFrom

/-- Each view stands where its member stood exactly if the members stood under the texts they declare. -/
theorem members_of_view_eq_iff {d view : DiscriminatedTy} (hmap : d.members.Ascending)
    (hview : d.readOnly = .discriminated view) :
    view.members = d.members.map (fun _ => ObjectTy.readOnly) ↔ KeyedMembers d.discriminator d.members := by
  constructor
  · intro heq
    have hconverted := convertedFrom_of_view hview
    refine ⟨hmap, fun e he => ?_⟩
    have hdeclared := hconverted.keyed.declared (e.1, e.2.readOnly)
      (heq ▸ List.mem_map_of_mem (f := fun e => (e.1, ObjectTy.readOnly e.2)) he)
    rw [hconverted.discriminator, ObjectTy.discriminatorValue?_readOnly] at hdeclared
    exact hdeclared
  · intro hkeyed
    rw [readOnly_of_keyed hkeyed] at hview
    rw [← Ty.discriminated.inj hview]

/-- Members that fit together and are not misfiled are well formed. -/
theorem keyedMembers_iff {d : DiscriminatedTy} (hmap : d.members.Ascending) :
    KeyedMembers d.discriminator d.members ↔
      DeclaredApart d.discriminator d.members.values ∧ ¬d.Misfiled := by
  constructor
  · intro hkeyed
    refine ⟨hkeyed.declaredApart, ?_⟩
    rintro ⟨-, e, he, hne⟩
    exact hne (hkeyed.declared e he)
  · rintro ⟨hfit, hfiled⟩
    refine ⟨hmap, fun e he => ?_⟩
    by_contra hne
    exact hfiled ⟨hfit, e, he, hne⟩

/-- **Which discriminated objects have a read-only view.** Those have one of which each member declares a text of its
    own for the discriminator; the others are an error without a position, for the first member that does not fit in.
    A view has all members, under the texts they declare. These need not be the keys under which they stood: the
    keys stay if the texts are the keys in another order, and the members stay in their places only in a well-formed
    object. So to have a view is to be well formed, exactly for those that are not misfiled. -/
theorem readOnly_rebuilt {d : DiscriminatedTy} (hmap : d.members.Ascending) :
    ((∃ view, d.readOnly = .discriminated view) ↔ DeclaredApart d.discriminator d.members.values) ∧
      (¬DeclaredApart d.discriminator d.members.values →
        ∃ cause, FirstMisfit d.name d.discriminator d.members.values cause) ∧
      (∀ cause, FirstMisfit d.name d.discriminator d.members.values cause →
        d.readOnly = .error ⟨Span.nil, .malformedType cause.message⟩) ∧
      (∀ view, d.readOnly = .discriminated view → view.ConvertedFrom d ∧
        (view.members.keys = d.members.keys ↔ (d.members.keys.map some).Perm
          (d.members.values.map fun m => m.discriminatorValue? d.discriminator)) ∧
        (view.members = d.members.map (fun _ => ObjectTy.readOnly) ↔ KeyedMembers d.discriminator d.members)) ∧
      (((∃ view, d.readOnly = .discriminated view) ↔ KeyedMembers d.discriminator d.members) ↔ ¬d.Misfiled) := by
  refine ⟨exists_view_iff, exists_misfit d.name, fun _ => error_of_misfit, ?_, ?_⟩
  · intro view hview
    have hconverted := convertedFrom_of_view hview
    exact ⟨hconverted, hconverted.keys_eq_iff hmap, members_of_view_eq_iff hmap hview⟩
  · rw [exists_view_iff, keyedMembers_iff hmap]
    constructor
    · intro h hmisfiled
      exact (h.mp hmisfiled.fit).2 hmisfiled
    · intro hfiled
      exact ⟨fun hfit => ⟨hfit, hfiled⟩, And.left⟩

/-! ## Accounts in the wrong place -/

/-- Accounts with one member, which stands under `"cold"` and declares `"hot"`. -/
def misfiled : DiscriminatedTy := ⟨"Account", .none, "tier", ⟨[("cold", .account "hot")]⟩⟩

/-- Accounts of which two have traded places. -/
def traded : DiscriminatedTy :=
  ⟨"Account", .none, "tier", ⟨[("cold", .account "hot"), ("hot", .account "cold")]⟩⟩

/-- Accounts of which two declare one text. -/
def repeating : DiscriminatedTy :=
  ⟨"Account", .none, "tier", ⟨[("cold", .account "hot"), ("hot", .account "hot")]⟩⟩

/-- Accounts that have traded places are filed anew under the same keys; two accounts with one text are refused. -/
theorem readOnly_traded :
    traded.members.Ascending ∧ repeating.members.Ascending ∧
      (∃ view, traded.readOnly = .discriminated view ∧ view.members.keys = traded.members.keys ∧
        view.members ≠ traded.members.map fun _ => ObjectTy.readOnly) ∧
      repeating.readOnly = .error ⟨Span.nil, .malformedType "duplicate member hot in union Account"⟩ := by
  have htraded : traded.members.Ascending := List.pairwise_pair.mpr (by decide)
  have hrepeating : repeating.members.Ascending := List.pairwise_pair.mpr (by decide)
  refine ⟨htraded, hrepeating, ?_, ?_⟩
  · obtain ⟨hexists, -, -, hviews, -⟩ := readOnly_rebuilt htraded
    have hfit : DeclaredApart "tier" traded.members.values := by
      refine ⟨?_, List.pairwise_pair.mpr (by decide)⟩
      intro m hm
      rcases List.mem_pair.mp hm with rfl | rfl <;> exact nofun
    obtain ⟨view, hview⟩ := hexists.mpr hfit
    obtain ⟨-, hkeys, hmembers⟩ := hviews view hview
    refine ⟨view, hview, hkeys.mpr (List.Perm.swap _ _ []), ?_⟩
    rw [ne_eq, hmembers]
    intro hkeyed
    exact absurd (hkeyed.declared ("cold", .account "hot") List.mem_cons_self) (by decide)
  · obtain ⟨-, -, herror, -, -⟩ := readOnly_rebuilt hrepeating
    have hfirst : DeclaredApart "tier" [.account "hot"] := by
      refine ⟨?_, List.pairwise_singleton _ _⟩
      intro m hm
      rw [List.mem_singleton.mp hm]
      exact nofun
    exact herror (.duplicateMember "Account" "hot")
      ⟨[.account "hot"], .account "hot", [], rfl, hfirst, .repeated rfl List.mem_cons_self rfl⟩

/-- A misfiled account is not in an object that is well formed, yet there is a view, and the key under which the
    account stood is gone from it. -/
theorem readOnly_misfiled :
    misfiled.members.Ascending ∧ ¬KeyedMembers misfiled.discriminator misfiled.members ∧
      ∃ view, misfiled.readOnly = .discriminated view ∧ view.members.keys = ["hot"] ∧
        misfiled.members.keys = ["cold"] := by
  refine ⟨List.pairwise_singleton _ _, ?_, _, rfl, rfl, rfl⟩
  intro hkeyed
  exact absurd (hkeyed.declared ("cold", .account "hot") List.mem_cons_self) (by decide)

end DiscriminatedTy

end ResourceLang
