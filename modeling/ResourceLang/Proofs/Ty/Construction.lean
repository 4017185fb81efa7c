import Mathlib.Data.List.Induction
import Mathlib.Data.List.Nodup
import ResourceLang.Proofs.Ascending
import ResourceLang.Proofs.Outcome
import ResourceLang.Ty.Construction

/-!
# What construction establishes — properties by name, members by discriminator

Checked construction of an object type puts each property under its own name, in the order in which they are given. It
is refused exactly if two of them have one name, and the reason is the first one whose name an earlier one has.

Checked construction of a discriminated object puts each member under the text it declares for the discriminator, in
ascending order of these texts. It takes what it is given and nothing else; and members that are in order already are
taken as they are.

* **`collectProperties_eq_ok_iff`**, **`refused_of_repeated`** — what comes of properties.
* **`keyed_of_collected`** — what is made of members.
* **`collectMembers_of_keyed`** — construction from members that are in order.
-/

namespace ResourceLang

/-- The properties stand under their own names, no two of them under one. -/
structure NamedProperties (properties : Keyed String Property) : Prop where
  distinct : properties.DistinctKeys
  named : ∀ e ∈ properties.entries, e.2.name = e.1

/-- The members stand in ascending order under the texts that they declare for the discriminator. -/
structure KeyedMembers (discriminator : String) (members : Keyed String ObjectTy) : Prop where
  ascending : members.Ascending
  declared : ∀ e ∈ members.entries, e.2.discriminatorValue? discriminator = some e.1

/-! ## Properties -/

theorem NamedProperties.empty : NamedProperties .empty :=
  ⟨Keyed.distinctKeys_empty, fun _ he => nomatch he⟩

/-- The first property that has the name of an earlier one. -/
def FirstRepeated (ps : List Property) (p : Property) : Prop :=
  ∃ earlier later, ps = earlier ++ p :: later ∧ (earlier.map Property.name).Nodup ∧
    p.name ∈ earlier.map Property.name

/-- Properties under their names, in order. -/
def propertiesByName (ps : List Property) : Keyed String Property := ⟨ps.map fun p => (p.name, p)⟩

section Properties

variable {ps : List Property}

theorem keys_propertiesByName (ps : List Property) : (propertiesByName ps).keys = ps.map Property.name := by
  rw [Keyed.keys, propertiesByName, List.map_map]
  rfl

theorem values_propertiesByName (ps : List Property) : (propertiesByName ps).values = ps := by
  rw [Keyed.values, propertiesByName, List.map_map]
  exact List.map_id ps

/-- Properties with different names stand under distinct keys, which are their names. -/
theorem NamedProperties.of_nodup (h : (ps.map Property.name).Nodup) : NamedProperties (propertiesByName ps) where
  distinct := by
    rw [Keyed.DistinctKeys, keys_propertiesByName]
    exact h.imp beq_eq_false_iff_ne.mpr
  named e he := by
    obtain ⟨p, -, rfl⟩ := List.mem_map.mp he
    rfl

/-- A property with a new name goes to the end. -/
theorem propertiesByName_insert {p : Property} (hnew : p.name ∉ ps.map Property.name) :
    (propertiesByName ps).insert p.name p = propertiesByName (ps ++ [p]) := by
  have habsent : (propertiesByName ps).get? p.name = none := by
    rw [← Option.not_isSome_iff_eq_none]
    intro hcontains
    rw [← keys_propertiesByName] at hnew
    exact hnew (Keyed.contains_iff_mem_keys.mp hcontains)
  have hentries := Keyed.entries_insert_of_get?_eq_none habsent p
  rw [propertiesByName, propertiesByName, List.map_append]
  exact congrArg Keyed.mk hentries

/-- Properties with new names are taken, whatever comes after them. -/
theorem collectProperties_append (object : String) (earlier ps later : List Property)
    (h : ((earlier ++ ps).map Property.name).Nodup) :
    collectProperties object (propertiesByName earlier) (ps ++ later) =
      collectProperties object (propertiesByName (earlier ++ ps)) later := by
  induction ps generalizing earlier with
  | nil => rw [List.append_nil, List.nil_append]
  | cons p rest ih =>
      have hnew : p.name ∉ earlier.map Property.name := by
        rw [List.map_append, List.nodup_append] at h
        intro hmem
        exact h.2.2 p.name hmem p.name List.mem_cons_self rfl
      have hcontains : ¬(propertiesByName earlier).contains p.name = true := by
        rw [Keyed.contains_iff_mem_keys, keys_propertiesByName]
        exact hnew
      rw [List.append_cons] at h ⊢
      rw [List.cons_append, collectProperties, if_neg hcontains, propertiesByName_insert hnew, ih _ h]

/-- **Properties with different names are collected** in order. -/
theorem collected_of_nodup (object : String) (h : (ps.map Property.name).Nodup) :
    collectProperties object .empty ps = .ok (propertiesByName ps) := by
  have hall := collectProperties_append object [] ps [] h
  rw [List.append_nil] at hall
  exact hall

/-- **The first repeated name** is the reason why properties are refused. -/
theorem refused_of_repeated (object : String) {p : Property} (h : FirstRepeated ps p) :
    collectProperties object .empty ps = .error (.ofCause (.duplicateProperty object p.name)) := by
  obtain ⟨earlier, later, rfl, hearlier, hmem⟩ := h
  have hcontains : (propertiesByName earlier).contains p.name = true := by
    rw [Keyed.contains_iff_mem_keys, keys_propertiesByName]
    exact hmem
  calc collectProperties object (propertiesByName []) (earlier ++ p :: later)
      = collectProperties object (propertiesByName earlier) (p :: later) :=
        collectProperties_append object [] earlier (p :: later) hearlier
    _ = .error (.ofCause (.duplicateProperty object p.name)) := by rw [collectProperties, if_pos hcontains]

/-- Among properties of which two have one name, there is a first one that has the name of an earlier one. -/
theorem exists_firstRepeated (h : ¬(ps.map Property.name).Nodup) : ∃ p, FirstRepeated ps p := by
  induction ps using List.reverseRecOn with
  | nil => exact absurd List.nodup_nil h
  | append_singleton ps p ih =>
      by_cases hps : (ps.map Property.name).Nodup
      · refine ⟨p, ps, [], rfl, hps, ?_⟩
        by_contra hnew
        rw [List.map_append, List.map_singleton, ← List.concat_eq_append] at h
        exact h (hps.concat hnew)
      · obtain ⟨q, earlier, later, hsplit, hearlier, hmem⟩ := ih hps
        exact ⟨q, earlier, later ++ [p], by rw [hsplit, List.append_assoc, List.cons_append], hearlier, hmem⟩

/-- **What is collected** are all properties under their names, which are different. -/
theorem collectProperties_eq_ok_iff {object : String} {found : Keyed String Property} :
    collectProperties object .empty ps = .ok found ↔
      (ps.map Property.name).Nodup ∧ found = propertiesByName ps := by
  constructor
  · intro h
    by_cases hnames : (ps.map Property.name).Nodup
    · rw [collected_of_nodup object hnames] at h
      exact ⟨hnames, (Except.ok.inj h).symm⟩
    · obtain ⟨p, hp⟩ := exists_firstRepeated hnames
      rw [refused_of_repeated object hp] at h
      exact nomatch h
  · rintro ⟨hnames, rfl⟩
    exact collected_of_nodup object hnames

end Properties

/-- An object type that was constructed from a list of properties. -/
theorem ObjectTy.ofProperties_eq_ok {name : String} {validation : ValidationFlags} {ps : List Property}
    {additional : Option Ty} {flags : PropertyFlags} {o : ObjectTy}
    (h : ofProperties name validation ps additional flags = .ok o) :
    NamedProperties o.properties ∧ (∀ p ∈ o.properties.values, p ∈ ps) ∧ o.additional = additional := by
  rw [ofProperties, bind_eq_ok_iff] at h
  obtain ⟨found, hcollected, h⟩ := h
  obtain rfl := Except.ok.inj h
  obtain ⟨hnames, rfl⟩ := collectProperties_eq_ok_iff.mp hcollected
  refine ⟨.of_nodup hnames, fun p hp => ?_, rfl⟩
  rw [values_propertiesByName] at hp
  exact hp

/-! ## Members -/

theorem KeyedMembers.empty (discriminator : String) : KeyedMembers discriminator .empty :=
  ⟨Keyed.ascending_empty, fun _ he => nomatch he⟩

/-- A member can be added under the text that it declares. -/
theorem KeyedMembers.insertAscending {discriminator : String} {seen : Keyed String ObjectTy}
    (h : KeyedMembers discriminator seen) {m : ObjectTy} {key : String}
    (hm : m.discriminatorValue? discriminator = some key) :
    KeyedMembers discriminator (seen.insertAscending key m) := by
  refine ⟨Keyed.ascending_insertAscending h.ascending key m, ?_⟩
  intro e he
  rcases Keyed.mem_entries_of_insertAscending he with rfl | he
  · exact hm
  · exact h.declared e he

private theorem collectMembers_cons_of_some {union discriminator key : String} {m : ObjectTy}
    (hm : m.discriminatorValue? discriminator = some key) (seen : Keyed String ObjectTy)
    (ms : List ObjectTy) :
    collectMembers union discriminator seen (m :: ms) =
      if seen.contains key then .error (.ofCause (.duplicateMember union key))
      else collectMembers union discriminator (seen.insertAscending key m) ms := by
  rw [collectMembers, hm]

/-- What is collected are members under the texts they declare. -/
theorem KeyedMembers.of_collected {union discriminator : String} {seen found : Keyed String ObjectTy}
    {ms : List ObjectTy} (hseen : KeyedMembers discriminator seen)
    (h : collectMembers union discriminator seen ms = .ok found) : KeyedMembers discriminator found := by
  induction ms generalizing seen with
  | nil =>
      obtain rfl : seen = found := Except.ok.inj h
      exact hseen
  | cons m rest ih =>
      cases hm : m.discriminatorValue? discriminator with
      | none =>
          rw [collectMembers, hm] at h
          exact nomatch h
      | some key =>
          rw [collectMembers_cons_of_some hm] at h
          by_cases hcontains : seen.contains key = true
          · rw [if_pos hcontains] at h
            exact nomatch h
          · rw [if_neg hcontains] at h
            exact ih (hseen.insertAscending hm) h

/-- Nothing is lost: what is collected are the members that were there before and those that were given, in
    another order. -/
theorem perm_values_of_collected {union discriminator : String} {seen found : Keyed String ObjectTy}
    {ms : List ObjectTy} (h : collectMembers union discriminator seen ms = .ok found) :
    found.values.Perm (seen.values ++ ms) := by
  induction ms generalizing seen with
  | nil =>
      obtain rfl : seen = found := Except.ok.inj h
      rw [List.append_nil]
  | cons m rest ih =>
      cases hm : m.discriminatorValue? discriminator with
      | none =>
          rw [collectMembers, hm] at h
          exact nomatch h
      | some key =>
          rw [collectMembers_cons_of_some hm] at h
          by_cases hcontains : seen.contains key = true
          · rw [if_pos hcontains] at h
            exact nomatch h
          · rw [if_neg hcontains] at h
            have hnew : seen.contains key = false := Bool.not_eq_true _ ▸ hcontains
            have hadded : (seen.insertAscending key m).values.Perm (m :: seen.values) :=
              (Keyed.perm_insertAscending hnew m).map Prod.snd
            calc found.values.Perm ((seen.insertAscending key m).values ++ rest) := ih h
              List.Perm _ (m :: seen.values ++ rest) := hadded.append_right rest
              List.Perm _ (seen.values ++ m :: rest) := List.perm_middle.symm

/-- **What is collected** from the start are all members, under the texts they declare. -/
theorem keyed_of_collected {union discriminator : String} {ms : List ObjectTy} {found : Keyed String ObjectTy}
    (h : collectMembers union discriminator .empty ms = .ok found) :
    KeyedMembers discriminator found ∧ found.values.Perm ms :=
  ⟨(KeyedMembers.empty discriminator).of_collected h, perm_values_of_collected h⟩

/-- A discriminated object that was constructed from a list of members. -/
theorem DiscriminatedTy.ofMembers_eq_ok {name discriminator : String} {validation : ValidationFlags}
    {ms : List ObjectTy} {d : DiscriminatedTy} (h : ofMembers name validation discriminator ms = .ok d) :
    KeyedMembers d.discriminator d.members ∧ ∀ o ∈ d.members.values, o ∈ ms := by
  rw [ofMembers, bind_eq_ok_iff] at h
  obtain ⟨found, hcollected, h⟩ := h
  obtain rfl := Except.ok.inj h
  obtain ⟨hkeyed, hvalues⟩ := keyed_of_collected hcollected
  exact ⟨hkeyed, fun o ho => hvalues.mem_iff.mp ho⟩

/-- Members that continue the order are added at the end: each of them comes with a key greater than all
    before it. -/
theorem collectMembers_append_of_keyed {union discriminator : String} {seen : Keyed String ObjectTy}
    {entries : List (String × ObjectTy)} (h : KeyedMembers discriminator ⟨seen.entries ++ entries⟩) :
    collectMembers union discriminator seen (entries.map Prod.snd) = .ok ⟨seen.entries ++ entries⟩ := by
  induction entries generalizing seen with
  | nil =>
      rw [List.append_nil]
      rfl
  | cons e rest ih =>
      obtain ⟨key, m⟩ := e
      have hm : m.discriminatorValue? discriminator = some key :=
        h.declared (key, m) (List.mem_append_right _ List.mem_cons_self)
      have hgreater : ∀ k ∈ seen.keys, k < key := by
        have hkeys : (seen.keys ++ key :: rest.map Prod.fst).Pairwise (· < ·) := by
          have hall := h.ascending
          rw [Keyed.Ascending, Keyed.keys, List.map_append] at hall
          exact hall
        intro k hk
        exact (List.pairwise_append.mp hkeys).2.2 k hk key List.mem_cons_self
      have hnext : (⟨seen.entries ++ [(key, m)]⟩ : Keyed String ObjectTy).entries ++ rest =
          seen.entries ++ (key, m) :: rest := (List.append_cons seen.entries (key, m) rest).symm
      rw [List.map_cons, collectMembers_cons_of_some hm, Keyed.not_contains_of_greater hgreater,
        if_neg Bool.false_ne_true, Keyed.insertAscending_of_greater hgreater, ih (hnext ▸ h), hnext]

/-- **Members that are in order** under the texts they declare are collected as they are. -/
theorem collectMembers_of_keyed {union discriminator : String} {members : Keyed String ObjectTy}
    (h : KeyedMembers discriminator members) :
    collectMembers union discriminator .empty members.values = .ok members := by
  have hall : KeyedMembers discriminator
      ⟨(Keyed.empty : Keyed String ObjectTy).entries ++ members.entries⟩ := h
  exact collectMembers_append_of_keyed hall

end ResourceLang
