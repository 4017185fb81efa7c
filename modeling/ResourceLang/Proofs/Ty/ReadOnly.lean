import Mathlib.Data.List.Forall2
import ResourceLang.Proofs.Ty.Canonical
import ResourceLang.Proofs.Ty.Construction

/-!
# Read-only views — what is converted, what is kept, and that once is enough

The read-only view of an object changes flags and nothing else: those of additional properties and those of
properties that do not say which object is meant. The view of a discriminated object is built anew from the
views of its members. The discriminator is itself a property that is converted, but its type is not, so each
member comes back under the key it had, in the order it had, and the new construction is not refused.

A second view changes nothing more. That holds of malformed discriminated objects too: either no view could
be built, and the error that stands for it stays, or the one that was built is well formed.

* **`DiscriminatedTy.readOnly_of_keyed`** — the view of a well-formed discriminated object.
* **`Ty.readOnly_readOnly`** — a second view changes nothing.
* **`Ty.readOnly_converts`** — all that a view does, kind by kind.
-/

namespace ResourceLang

/-! ## What a view looks like -/

/-- Flags of a read-only view: the second bit set, the first one cleared, all others as they were. -/
structure PropertyFlags.ConvertedFrom (view flags : PropertyFlags) : Prop where
  word : view.bits = (flags.bits ||| PropertyFlags.readOnly.bits) &&& ~~~PropertyFlags.required.bits
  not_required : view.bits.getLsbD 0 = false
  read_only : view.bits.getLsbD 1 = true
  others : ∀ i, 2 ≤ i → view.bits.getLsbD i = flags.bits.getLsbD i

/-- A property of a read-only view: only the flags may differ, and those of `name` and `scope` do not. -/
structure Property.ConvertedFrom (view p : Property) : Prop where
  name : view.name = p.name
  type : view.type = p.type
  description : view.description = p.description
  kept : p.name = "name" ∨ p.name = "scope" → view.flags = p.flags
  converted : p.name ≠ "name" → p.name ≠ "scope" → view.flags.ConvertedFrom p.flags

/-- The read-only view of an object: the same keys in the same order, over converted properties. -/
structure ObjectTy.ConvertedFrom (view o : ObjectTy) : Prop where
  name : view.name = o.name
  validation : view.validation = o.validation
  keys : view.properties.keys = o.properties.keys
  properties : List.Forall₂ Property.ConvertedFrom view.properties.values o.properties.values
  additional : view.additional = o.additional
  additionalFlags : view.additionalFlags.ConvertedFrom o.additionalFlags

/-! ## Flags and properties -/

namespace PropertyFlags

theorem toReadOnly_converted (flags : PropertyFlags) : flags.toReadOnly.ConvertedFrom flags where
  word := rfl
  not_required := flags.toReadOnly_bit 0
  read_only := flags.toReadOnly_bit 1
  others i hi := by
    rw [toReadOnly_bit, if_neg (by omega), if_neg (by omega)]

/-- Setting a bit that is set and clearing one that is clear changes nothing. -/
theorem toReadOnly_toReadOnly (flags : PropertyFlags) : flags.toReadOnly.toReadOnly = flags.toReadOnly := by
  rw [FlagSet.mk.injEq]
  refine BitVec.eq_of_getLsbD_eq fun i _ => ?_
  rw [toReadOnly_bit flags.toReadOnly]
  by_cases h0 : i = 0
  · rw [if_pos h0, h0, toReadOnly_bit]
    rfl
  · rw [if_neg h0]
    by_cases h1 : i = 1
    · rw [if_pos h1, h1, toReadOnly_bit]
      rfl
    · rw [if_neg h1]

end PropertyFlags

namespace Property

theorem readOnly_readOnly (key : String) (p : Property) : (p.readOnly key).readOnly key = p.readOnly key := by
  rw [readOnly, readOnly]
  by_cases h : key ∈ writableOnExisting
  · rw [if_pos h, if_pos h]
  · rw [if_neg h, if_neg h, PropertyFlags.toReadOnly_toReadOnly]

theorem type_readOnly (key : String) (p : Property) : (p.readOnly key).type = p.type := by
  rw [readOnly]
  by_cases h : key ∈ writableOnExisting
  · rw [if_pos h]
  · rw [if_neg h]

theorem readOnly_converted (p : Property) : (p.readOnly p.name).ConvertedFrom p := by
  rw [readOnly]
  by_cases h : p.name ∈ writableOnExisting
  · rw [if_pos h]
    refine ⟨rfl, rfl, rfl, fun _ => rfl, ?_⟩
    intro hname hscope
    rcases List.mem_pair.mp h with h | h
    · exact absurd h hname
    · exact absurd h hscope
  · rw [if_neg h]
    refine ⟨rfl, rfl, rfl, ?_, fun _ _ => p.flags.toReadOnly_converted⟩
    intro hkept
    exact absurd (List.mem_pair.mpr hkept) h

end Property

/-! ## Objects -/

namespace ObjectTy

theorem readOnly_readOnly (o : ObjectTy) : o.readOnly.readOnly = o.readOnly := by
  rw [readOnly, readOnly, PropertyFlags.toReadOnly_toReadOnly]
  congr 1
  show Keyed.mk ((o.properties.entries.map _).map _) = ⟨o.properties.entries.map _⟩
  rw [List.map_map]
  congr 1
  refine List.map_congr_left fun e _ => ?_
  show (e.1, (e.2.readOnly e.1).readOnly e.1) = (e.1, e.2.readOnly e.1)
  rw [Property.readOnly_readOnly]

/-- A property is found in the view under the name it had. -/
theorem property?_readOnly (o : ObjectTy) (name : String) :
    o.readOnly.property? name = (o.property? name).map (Property.readOnly name) := by
  obtain ⟨n, v, ⟨ps⟩, a, f⟩ := o
  show (ps.map fun e => (e.1, e.2.readOnly e.1)).lookup name = (ps.lookup name).map (Property.readOnly name)
  induction ps with
  | nil => rfl
  | cons e rest ih =>
      obtain ⟨k, p⟩ := e
      rw [List.map_cons, Keyed.lookup_cons, Keyed.lookup_cons, ih]
      by_cases hk : (name == k) = true
      · rw [if_pos hk, if_pos hk, eq_of_beq hk]
        rfl
      · rw [if_neg hk, if_neg hk]

/-- The view declares the discriminator as the object does: the type of a property is not converted. -/
theorem discriminatorValue?_readOnly (o : ObjectTy) (discriminator : String) :
    o.readOnly.discriminatorValue? discriminator = o.discriminatorValue? discriminator := by
  rw [discriminatorValue?, discriminatorValue?, property?_readOnly]
  cases o.property? discriminator with
  | none => rfl
  | some p =>
      have htype := p.type_readOnly discriminator
      rw [Option.map_some]
      generalize p.readOnly discriminator = view at htype
      obtain ⟨n, t, f, d⟩ := p
      obtain ⟨n', t', f', d'⟩ := view
      obtain rfl : t' = t := htype
      cases t' <;> rfl

/-- The view of an object whose properties stand under their own names. -/
theorem readOnly_converted {o : ObjectTy} (h : ∀ e ∈ o.properties.entries, e.2.name = e.1) :
    o.readOnly.ConvertedFrom o where
  name := rfl
  validation := rfl
  keys := o.properties.keys_map _
  properties := by
    show List.Forall₂ _ (o.properties.map Property.readOnly).values (o.properties.entries.map Prod.snd)
    rw [Keyed.values_map, List.forall₂_map_left_iff, List.forall₂_map_right_iff, List.forall₂_same]
    intro e he
    rw [← h e he]
    exact e.2.readOnly_converted
  additional := rfl
  additionalFlags := o.additionalFlags.toReadOnly_converted

end ObjectTy

/-! ## Discriminated objects -/

/-- Views of members stand where the members stood. -/
theorem KeyedMembers.map_readOnly {discriminator : String} {members : Keyed String ObjectTy}
    (h : KeyedMembers discriminator members) :
    KeyedMembers discriminator (members.map fun _ => ObjectTy.readOnly) := by
  refine ⟨?_, ?_⟩
  · rw [Keyed.Ascending, Keyed.keys_map]
    exact h.ascending
  · intro e he
    obtain ⟨e', he', rfl⟩ := List.mem_map.mp he
    rw [ObjectTy.discriminatorValue?_readOnly]
    exact h.declared e' he'

/-- **The view of a well-formed discriminated object** has the views of its members, under their keys. -/
theorem DiscriminatedTy.readOnly_of_keyed {d : DiscriminatedTy} (h : KeyedMembers d.discriminator d.members) :
    d.readOnly = .discriminated { d with members := d.members.map fun _ => ObjectTy.readOnly } := by
  refine readOnly_of_collected ?_
  have hvalues : d.members.values.map ObjectTy.readOnly =
      (d.members.map fun _ => ObjectTy.readOnly).values := by
    rw [Keyed.values_map, Keyed.values, List.map_map]
    rfl
  rw [hvalues]
  exact collectMembers_of_keyed h.map_readOnly

/-- The view of any discriminated object is an error, or a well-formed discriminated object of which each
    member is a view. -/
theorem DiscriminatedTy.readOnly_cases (d : DiscriminatedTy) :
    (∃ diagnostic, d.readOnly = .error diagnostic) ∨
      ∃ view : DiscriminatedTy, d.readOnly = .discriminated view ∧
        KeyedMembers view.discriminator view.members ∧
        ∀ o ∈ view.members.values, ∃ m ∈ d.members.values, m.readOnly = o := by
  cases h : collectMembers d.name d.discriminator .empty (d.members.values.map ObjectTy.readOnly) with
  | error e => exact Or.inl ⟨_, readOnly_of_refused h⟩
  | ok members =>
      obtain ⟨hkeyed, hvalues⟩ := keyed_of_collected h
      refine Or.inr ⟨{ d with members := members }, readOnly_of_collected h, hkeyed, ?_⟩
      intro o ho
      exact List.mem_map.mp (hvalues.mem_iff.mp ho)

namespace Ty

/-- **A second view changes nothing.** -/
theorem readOnly_readOnly (t : Ty) : t.readOnly.readOnly = t.readOnly := by
  cases t with
  | object o => exact congrArg object o.readOnly_readOnly
  | discriminated d =>
      show d.readOnly.readOnly = d.readOnly
      rcases d.readOnly_cases with ⟨diagnostic, h⟩ | ⟨view, h, hkeyed, hviews⟩
      · rw [h]
        rfl
      · -- the members of the view are views already
        have hsame : view.members.map (fun _ => ObjectTy.readOnly) = view.members := by
          show Keyed.mk (view.members.entries.map fun e => (e.1, e.2.readOnly)) = view.members
          congr 1
          refine (List.map_congr_left fun e he => ?_).trans (List.map_id view.members.entries)
          obtain ⟨m, -, hm⟩ := hviews e.2 (List.mem_map_of_mem he)
          rw [← hm, ObjectTy.readOnly_readOnly, hm]
          rfl
        rw [h]
        show view.readOnly = discriminated view
        rw [DiscriminatedTy.readOnly_of_keyed hkeyed, hsame]
        cases view
        rfl
  | _ => rfl

/-- **All that a read-only view does.** An object keeps all but flags. A discriminated object whose members
    stand in order under the texts they declare is no error and keeps its keys, each over the view of its
    member. Other types stay as they are, and a second view of any type whatever changes nothing. -/
theorem readOnly_converts :
    (∀ o : ObjectTy, (∀ e ∈ o.properties.entries, e.2.name = e.1) →
      ∃ view, (object o).readOnly = object view ∧ view.ConvertedFrom o) ∧
    (∀ d : DiscriminatedTy, KeyedMembers d.discriminator d.members →
      ∃ view, (discriminated d).readOnly = discriminated view ∧ view.name = d.name ∧
        view.validation = d.validation ∧ view.discriminator = d.discriminator ∧
        view.members.keys = d.members.keys ∧
        ∀ key member, d.member? key = some member →
          ∃ converted, view.member? key = some converted ∧ object converted = (object member).readOnly) ∧
    (∀ t : Ty, (∀ o, t ≠ object o) → (∀ d, t ≠ discriminated d) → t.readOnly = t) ∧
    ∀ t : Ty, t.readOnly.readOnly = t.readOnly := by
  refine ⟨?_, ?_, ?_, readOnly_readOnly⟩
  · intro o h
    exact ⟨o.readOnly, rfl, ObjectTy.readOnly_converted h⟩
  · intro d h
    refine ⟨_, DiscriminatedTy.readOnly_of_keyed h, rfl, rfl, rfl, d.members.keys_map _, ?_⟩
    intro key member hmember
    refine ⟨member.readOnly, ?_, rfl⟩
    show (d.members.map fun _ => ObjectTy.readOnly).get? key = some member.readOnly
    have hfound : d.members.get? key = some member := hmember
    rw [Keyed.get?_map, hfound]
    rfl
  · intro t hobject hdiscriminated
    cases t with
    | object o => exact absurd rfl (hobject o)
    | discriminated d => exact absurd rfl (hdiscriminated d)
    | _ => rfl

end Ty

/-! ## Storage in two tiers -/

/-- The body of an account in the given tier. The flags of its name and of its tags have bits without a
    name. -/
def ObjectTy.account (tier : String) : ObjectTy where
  name := "Account"
  validation := .secure
  properties := ⟨[("name", ⟨"name", .string, ⟨0xa1⟩, some "The name of the account."⟩),
    ("tags", ⟨"tags", .anyObject, ⟨0xa5⟩, none⟩),
    ("tier", ⟨"tier", .literal tier, .required, none⟩)]⟩
  additional := some .any
  additionalFlags := .required

/-- Accounts by their tiers. -/
def DiscriminatedTy.accounts : DiscriminatedTy :=
  ⟨"Account", .none, "tier", ⟨[("cold", .account "cold"), ("hot", .account "hot")]⟩⟩

/-- The views of an account and of accounts by their tiers. -/
theorem Ty.readOnly_accounts :
    (∀ e ∈ (ObjectTy.account "cold").properties.entries, e.2.name = e.1) ∧
      KeyedMembers "tier" DiscriminatedTy.accounts.members ∧
      (∃ view, (object (.account "cold")).readOnly = object view ∧
        view.ConvertedFrom (.account "cold") ∧
        view.properties.values.map Property.flags = [⟨0xa1⟩, ⟨0xa6⟩, ⟨0x02⟩]) ∧
      ∃ view, (discriminated .accounts).readOnly = discriminated view ∧
        view.members.keys = ["cold", "hot"] ∧
        ∃ converted, view.member? "hot" = some converted ∧
          object converted = (object (.account "hot")).readOnly := by
  have hnamed : ∀ e ∈ (ObjectTy.account "cold").properties.entries, e.2.name = e.1 := by
    intro e he
    have he : e ∈ [_, _, _] := he
    simp only [List.mem_cons, List.not_mem_nil, or_false] at he
    rcases he with rfl | rfl | rfl <;> rfl
  have hkeyed : KeyedMembers "tier" DiscriminatedTy.accounts.members := by
    refine ⟨List.pairwise_pair.mpr (by decide), ?_⟩
    intro e he
    rcases List.mem_pair.mp he with rfl | rfl <;> rfl
  obtain ⟨hobjects, hdiscriminated, -, -⟩ := readOnly_converts
  obtain ⟨view, hview, hconverted⟩ := hobjects (.account "cold") hnamed
  obtain ⟨views, hviews, -, -, -, hkeys, hmembers⟩ := hdiscriminated .accounts hkeyed
  refine ⟨hnamed, hkeyed, ⟨view, hview, hconverted, ?_⟩, views, hviews, hkeys, hmembers "hot" _ rfl⟩
  obtain rfl : (ObjectTy.account "cold").readOnly = view := Ty.object.inj hview
  rfl

end ResourceLang
