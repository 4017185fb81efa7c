import ResourceLang.Proofs.Text.Bytes
import ResourceLang.Proofs.Ty.Comparison
import ResourceLang.Proofs.Ty.ReadOnly
import ResourceLang.Proofs.Ty.Refusal

/-!
# Checked construction — what comes of properties and of members, in any order

An object type is made from properties, at once or by calls on a draft, and a discriminated object from members. What
is refused, and why, depends on names and on discriminator values only. What is made holds exactly what was given:
properties in the order in which they came, members in byte order of the texts that they declare.

The reason of a refusal is about the first property or member that does not fit in, so it depends on the order in
which they come. Nothing else does: `==` does not look at the order of properties, and members are sorted.

* **`ObjectDraft.makes_build`**, **`DiscriminatedTy.madeOf_ofMembers`** — what is made and what is refused.
* **`KeyedMembers.eq_of_perm`** — members stand in one order whatever the order in which they come.
* **`checked_construction`** — all of it.
-/

namespace ResourceLang

/-! ## Specifications -/

/-- The object declares the text for the discriminator: it has such a property, and the text is its type. -/
def ObjectTy.Declares (o : ObjectTy) (discriminator text : String) : Prop :=
  ∃ p, o.property? discriminator = some p ∧ p.type = .literal text

/-- What building an object type from the draft comes to. -/
structure ObjectDraft.Makes (draft : ObjectDraft) (outcome : Except Error ObjectTy) : Prop where
  /-- It is refused exactly if two properties have one name. -/
  refused_iff : (∃ e, outcome = .error e) ↔ ¬(draft.properties.map Property.name).Nodup
  /-- The reason is the first property that has the name of an earlier one. -/
  reason : ∀ e, outcome = .error e ↔
    ∃ p, FirstRepeated draft.properties p ∧ e = .ofCause (.duplicateProperty draft.name p.name)
  /-- What is made has the properties in the order in which they came, and all else as it is in the draft. -/
  made : ∀ o, outcome = .ok o → o.name = draft.name ∧ o.validation = draft.validation ∧
    o.properties.keys = draft.properties.map Property.name ∧ o.properties.values = draft.properties ∧
    o.additional = draft.additional ∧ o.additionalFlags = draft.additionalFlags
  /-- Under a name stands the property that has it. -/
  found : ∀ o, outcome = .ok o → ∀ name p, o.property? name = some p ↔ p ∈ draft.properties ∧ p.name = name

/-- What building a discriminated object from the members comes to. -/
structure DiscriminatedTy.MadeOf (name : String) (validation : ValidationFlags) (discriminator : String)
    (ms : List ObjectTy) (outcome : Except Error DiscriminatedTy) : Prop where
  /-- It is refused exactly if some member declares no text, or two members declare the same one. -/
  refused_iff : (∃ e, outcome = .error e) ↔ (∃ m ∈ ms, ∀ text, ¬m.Declares discriminator text) ∨
    ¬ms.Pairwise fun m m' => ∀ text, m.Declares discriminator text → ¬m'.Declares discriminator text
  /-- The reason is the first member that does not fit in with those before it. -/
  reason : ∀ e, outcome = .error e ↔ ∃ cause, FirstMisfit name discriminator ms cause ∧ e = .ofCause cause
  /-- What is made has the members under the texts they declare, in byte order of these texts. -/
  made : ∀ d, outcome = .ok d → d.name = name ∧ d.validation = validation ∧ d.discriminator = discriminator ∧
    d.members.values.Perm ms ∧ (∀ e ∈ d.members.entries, e.2.Declares discriminator e.1) ∧
    (d.members.keys.map Text.bytes).Pairwise (· < ·)
  /-- Under a text stands the member that declares it. -/
  found : ∀ d, outcome = .ok d → ∀ text m, d.member? text = some m ↔ m ∈ ms ∧ m.Declares discriminator text

/-- Both are refusals, for whatever reason, or both are types that are equal. -/
def EqualOutcomes {α : Type} (type : α → Ty) (x y : Except Error α) : Prop :=
  ((∃ a, x = .ok a) ↔ ∃ b, y = .ok b) ∧ ∀ a b, x = .ok a → y = .ok b → (type a == type b) = true

/-! ## Objects -/

namespace ObjectDraft

/-- The object type with the properties of the draft under their names. -/
def asGiven (draft : ObjectDraft) : ObjectTy :=
  ⟨draft.name, draft.validation, propertiesByName draft.properties, draft.additional, draft.additionalFlags⟩

theorem build_of_nodup {draft : ObjectDraft} (h : (draft.properties.map Property.name).Nodup) :
    draft.build = .ok draft.asGiven := by
  rw [build, ObjectTy.ofProperties, collected_of_nodup draft.name h]
  rfl

theorem build_of_repeated {draft : ObjectDraft} {p : Property} (h : FirstRepeated draft.properties p) :
    draft.build = .error (.ofCause (.duplicateProperty draft.name p.name)) := by
  rw [build, ObjectTy.ofProperties, refused_of_repeated draft.name h]
  rfl

theorem build_eq_ok_iff {draft : ObjectDraft} {o : ObjectTy} :
    draft.build = .ok o ↔ (draft.properties.map Property.name).Nodup ∧ o = draft.asGiven := by
  rw [build, ObjectTy.ofProperties, bind_eq_ok_iff]
  simp only [collectProperties_eq_ok_iff]
  constructor
  · rintro ⟨found, ⟨hnames, rfl⟩, h⟩
    exact ⟨hnames, (Except.ok.inj h).symm⟩
  · rintro ⟨hnames, rfl⟩
    exact ⟨_, ⟨hnames, rfl⟩, rfl⟩

theorem exists_build_iff {draft : ObjectDraft} :
    (∃ o, draft.build = .ok o) ↔ (draft.properties.map Property.name).Nodup := by
  constructor
  · rintro ⟨o, ho⟩
    exact (build_eq_ok_iff.mp ho).1
  · intro hnames
    exact ⟨_, build_of_nodup hnames⟩

/-- **What building a draft comes to.** -/
theorem makes_build (draft : ObjectDraft) : draft.Makes draft.build where
  refused_iff := by
    constructor
    · rintro ⟨e, he⟩ hnames
      exact nomatch he.symm.trans (build_of_nodup hnames)
    · intro hnames
      obtain ⟨p, hp⟩ := exists_firstRepeated hnames
      exact ⟨_, build_of_repeated hp⟩
  reason := by
    intro e
    constructor
    · intro he
      have hnames : ¬(draft.properties.map Property.name).Nodup := by
        intro hnames
        exact nomatch he.symm.trans (build_of_nodup hnames)
      obtain ⟨p, hp⟩ := exists_firstRepeated hnames
      exact ⟨p, hp, Except.error.inj (he.symm.trans (build_of_repeated hp))⟩
    · rintro ⟨p, hp, rfl⟩
      exact build_of_repeated hp
  made := by
    intro o ho
    obtain ⟨-, rfl⟩ := build_eq_ok_iff.mp ho
    exact ⟨rfl, rfl, keys_propertiesByName _, values_propertiesByName _, rfl, rfl⟩
  found := by
    intro o ho name p
    obtain ⟨hnames, rfl⟩ := build_eq_ok_iff.mp ho
    have hnamed := NamedProperties.of_nodup hnames
    have hfound : (propertiesByName draft.properties).get? name = some p ↔
        p ∈ (propertiesByName draft.properties).values ∧ some p.name = some name :=
      Keyed.get?_eq_some_iff_of_keyed (fun p => some p.name) hnamed.distinct
        fun e he => congrArg some (hnamed.named e he)
    rw [values_propertiesByName, Option.some.injEq] at hfound
    exact hfound

/-! ## Calls on drafts -/

/-- A call on a draft. -/
inductive Call where
  | property (property : Property)
  | additional (type : Ty) (flags : PropertyFlags)
  | validation (flags : ValidationFlags)

/-- The property that is given with a call. -/
def Call.property? : Call → Option Property
  | property p => some p
  | _ => none

/-- The draft after a call. -/
def call (draft : ObjectDraft) : Call → ObjectDraft
  | .property p => draft.withProperty p
  | .additional type flags => draft.withAdditional type flags
  | .validation flags => draft.withValidation flags

/-- The draft of an object type after calls in order. -/
def ofCalls (name : String) (calls : List Call) : ObjectDraft := calls.foldl call { name := name }

theorem name_foldl_call (draft : ObjectDraft) (calls : List Call) : (calls.foldl call draft).name = draft.name := by
  induction calls generalizing draft with
  | nil => rfl
  | cons c rest ih =>
      rw [List.foldl_cons, ih]
      cases c <;> rfl

/-- A draft has the properties in the order of the calls, whatever other calls come between them. -/
theorem properties_foldl_call (draft : ObjectDraft) (calls : List Call) :
    (calls.foldl call draft).properties = draft.properties ++ calls.filterMap Call.property? := by
  induction calls generalizing draft with
  | nil => exact (List.append_nil _).symm
  | cons c rest ih =>
      rw [List.foldl_cons, ih]
      cases c with
      | property p => exact (List.append_cons _ _ _).symm
      | additional _ _ => rfl
      | validation _ => rfl

end ObjectDraft

/-! ## Discriminated objects -/

theorem ObjectTy.declares_iff {o : ObjectTy} {discriminator text : String} :
    o.Declares discriminator text ↔ o.discriminatorValue? discriminator = some text := by
  rw [Declares, discriminatorValue?]
  cases o.property? discriminator with
  | none => simp
  | some p =>
      obtain ⟨n, t, f, d⟩ := p
      cases t <;> simp

section Members

variable {name discriminator : String} {validation : ValidationFlags} {ms : List ObjectTy}

/-- Members fit together if each declares a text, and of two never both declare the same one. -/
theorem declaredApart_iff :
    DeclaredApart discriminator ms ↔ (∀ m ∈ ms, ∃ text, m.Declares discriminator text) ∧
      ms.Pairwise fun m m' => ∀ text, m.Declares discriminator text → ¬m'.Declares discriminator text := by
  simp only [ObjectTy.declares_iff]
  constructor
  · intro h
    refine ⟨fun m hm => Option.ne_none_iff_exists'.mp (h.declared m hm), ?_⟩
    exact (List.pairwise_map.mp h.apart).imp fun hne text hm hm' => hne (hm.trans hm'.symm)
  · rintro ⟨hdeclared, hapart⟩
    refine ⟨fun m hm => Option.ne_none_iff_exists'.mpr (hdeclared m hm), List.pairwise_map.mpr ?_⟩
    refine hapart.imp_of_mem fun hm _ hdifferent heq => ?_
    obtain ⟨text, htext⟩ := hdeclared _ hm
    exact hdifferent text htext (heq.symm.trans htext)

namespace KeyedMembers

variable {members members' : Keyed String ObjectTy}

/-- Under a text stands the member that declares it. -/
theorem member_found_iff (h : KeyedMembers discriminator members) {text : String} {m : ObjectTy} :
    members.get? text = some m ↔ m ∈ members.values ∧ m.Declares discriminator text := by
  rw [ObjectTy.declares_iff]
  exact Keyed.get?_eq_some_iff_of_keyed (fun m => m.discriminatorValue? discriminator) h.ascending.distinctKeys
    h.declared

/-- **Members stand in one order**, whatever the order in which they come. -/
theorem eq_of_perm (h : KeyedMembers discriminator members) (h' : KeyedMembers discriminator members')
    (hperm : members.values.Perm members'.values) : members = members' := by
  -- a member tells its key, so that members that are the same in some order are so together with their keys
  let filed : ObjectTy → Option String × ObjectTy := fun m => (m.discriminatorValue? discriminator, m)
  let spelled : String × ObjectTy → Option String × ObjectTy := fun e => (some e.1, e.2)
  have hentries : ∀ {members : Keyed String ObjectTy}, KeyedMembers discriminator members →
      members.values.map filed = members.entries.map spelled := by
    intro members h
    rw [Keyed.values, List.map_map]
    exact List.map_congr_left fun e he => Prod.ext (h.declared e he) rfl
  have hspelled : Function.Injective spelled := by
    rintro ⟨k, m⟩ ⟨k', m'⟩ heq
    have hkey : some k = some k' := congrArg Prod.fst heq
    have hmember : m = m' := congrArg Prod.snd heq
    rw [Option.some.inj hkey, hmember]
  have hsame : members.entries.Perm members'.entries := by
    rw [← List.map_perm_map_iff hspelled, ← hentries h, ← hentries h']
    exact hperm.map filed
  have hordered := List.pairwise_map.mp h.ascending
  have hordered' := List.pairwise_map.mp h'.ascending
  exact congrArg Keyed.mk (hsame.eq_of_pairwise (fun a b _ _ hab hba => absurd hba (String.lt_asymm hab))
    hordered hordered')

end KeyedMembers

namespace DiscriminatedTy

theorem ofMembers_eq_ok_iff {d : DiscriminatedTy} :
    ofMembers name validation discriminator ms = .ok d ↔
      ∃ members, collectMembers name discriminator .empty ms = .ok members ∧
        d = ⟨name, validation, discriminator, members⟩ := by
  rw [ofMembers, bind_eq_ok_iff]
  refine exists_congr fun members => and_congr_right fun _ => ?_
  constructor
  · intro h
    exact (Except.ok.inj h).symm
  · rintro rfl
    rfl

theorem ofMembers_eq_error_iff {e : Error} :
    ofMembers name validation discriminator ms = .error e ↔
      ∃ cause, FirstMisfit name discriminator ms cause ∧ e = .ofCause cause := by
  constructor
  · intro h
    cases hcollect : collectMembers name discriminator .empty ms with
    | ok found =>
        rw [ofMembers, hcollect] at h
        cases h
    | error e' =>
        rw [ofMembers, hcollect] at h
        obtain rfl : e' = e := Except.error.inj h
        obtain ⟨cause, hcause, hmisfit⟩ := misfit_of_refused (KeyedMembers.empty discriminator) (.refl []) hcollect
        exact ⟨cause, hmisfit, hcause⟩
  · rintro ⟨cause, hmisfit, rfl⟩
    rw [ofMembers, refused_of_misfit hmisfit]
    rfl

theorem exists_ofMembers_iff :
    (∃ d, ofMembers name validation discriminator ms = .ok d) ↔ DeclaredApart discriminator ms := by
  rw [← exists_collected_iff name]
  constructor
  · rintro ⟨d, hd⟩
    obtain ⟨members, hmembers, -⟩ := ofMembers_eq_ok_iff.mp hd
    exact ⟨members, hmembers⟩
  · rintro ⟨members, hmembers⟩
    exact ⟨_, ofMembers_eq_ok_iff.mpr ⟨members, hmembers, rfl⟩⟩

/-- **What building a discriminated object comes to.** -/
theorem madeOf_ofMembers (name : String) (validation : ValidationFlags) (discriminator : String)
    (ms : List ObjectTy) :
    MadeOf name validation discriminator ms (ofMembers name validation discriminator ms) where
  refused_iff := by
    have hrefused : (∃ e, ofMembers name validation discriminator ms = .error e) ↔
        ¬DeclaredApart discriminator ms := by
      constructor
      · rintro ⟨e, he⟩
        obtain ⟨cause, hmisfit, -⟩ := ofMembers_eq_error_iff.mp he
        exact hmisfit.not_declaredApart
      · intro hfit
        obtain ⟨cause, hmisfit⟩ := exists_misfit name hfit
        exact ⟨_, ofMembers_eq_error_iff.mpr ⟨cause, hmisfit, rfl⟩⟩
    rw [hrefused, declaredApart_iff, not_and_or]
    push Not
    rfl
  reason := fun _ => ofMembers_eq_error_iff
  made := by
    intro d hd
    obtain ⟨members, hmembers, rfl⟩ := ofMembers_eq_ok_iff.mp hd
    obtain ⟨hkeyed, hvalues⟩ := keyed_of_collected hmembers
    refine ⟨rfl, rfl, rfl, hvalues, fun e he => ObjectTy.declares_iff.mpr (hkeyed.declared e he), ?_⟩
    exact List.pairwise_map.mpr (hkeyed.ascending.imp fun hlt => (Text.lt_iff_bytes_lt _ _).mp hlt)
  found := by
    intro d hd text m
    obtain ⟨members, hmembers, rfl⟩ := ofMembers_eq_ok_iff.mp hd
    obtain ⟨hkeyed, hvalues⟩ := keyed_of_collected hmembers
    rw [member?, hkeyed.member_found_iff, hvalues.mem_iff]

end DiscriminatedTy

end Members

/-! ## The order of what is given -/

/-- Properties in another order make an equal object type, or none. -/
theorem ObjectDraft.equalOutcomes_of_perm (draft : ObjectDraft) {ps : List Property}
    (hperm : draft.properties.Perm ps) :
    EqualOutcomes Ty.object draft.build { draft with properties := ps }.build := by
  refine ⟨?_, fun o o' ho ho' => ?_⟩
  · rw [exists_build_iff, exists_build_iff]
    exact (hperm.map Property.name).nodup_iff
  · obtain ⟨hnames, rfl⟩ := build_eq_ok_iff.mp ho
    obtain ⟨hnames', rfl⟩ := build_eq_ok_iff.mp ho'
    have hsame : canonicalProperties (propertiesByName draft.properties).entries =
        canonicalProperties (propertiesByName ps).entries :=
      (canonicalProperties_eq_iff_perm (NamedProperties.of_nodup hnames).distinct
        (NamedProperties.of_nodup hnames').distinct).mpr ((hperm.map _).map _)
    rw [Ty.beq_iff_canonical_eq, Ty.canonical, Ty.canonical]
    show Ty.object ⟨_, _, ⟨canonicalProperties (propertiesByName draft.properties).entries⟩, _, _⟩ =
      Ty.object ⟨_, _, ⟨canonicalProperties (propertiesByName ps).entries⟩, _, _⟩
    rw [hsame]

/-- Members in another order make the same discriminated object, or none. -/
theorem DiscriminatedTy.equalOutcomes_of_perm (name discriminator : String) (validation : ValidationFlags)
    {ms ms' : List ObjectTy} (hperm : ms.Perm ms') :
    EqualOutcomes Ty.discriminated (ofMembers name validation discriminator ms)
      (ofMembers name validation discriminator ms') := by
  refine ⟨?_, fun d d' hd hd' => ?_⟩
  · rw [exists_ofMembers_iff, exists_ofMembers_iff]
    exact ⟨fun h => h.perm hperm, fun h => h.perm hperm.symm⟩
  · obtain ⟨members, hmembers, rfl⟩ := ofMembers_eq_ok_iff.mp hd
    obtain ⟨members', hmembers', rfl⟩ := ofMembers_eq_ok_iff.mp hd'
    obtain ⟨hkeyed, hvalues⟩ := keyed_of_collected hmembers
    obtain ⟨hkeyed', hvalues'⟩ := keyed_of_collected hmembers'
    rw [hkeyed.eq_of_perm hkeyed' (hvalues.trans (hperm.trans hvalues'.symm))]
    exact BEq.rfl

/-- **Checked construction.** An object type is refused exactly if two properties have one name, for the first one
    whose name an earlier one has, whether it is made at once or by calls on a draft; otherwise it has the properties
    that were given, in their order. A discriminated object is refused exactly if a member declares no text or two
    declare the same one, for the first member that does not fit in; otherwise it has the members that were given, in
    byte order of the texts they declare. In another order the same properties and members make equal types, or none. -/
theorem checked_construction :
    (∀ name validation ps additional flags, ObjectDraft.Makes ⟨name, validation, ps, additional, flags⟩
      (ObjectTy.ofProperties name validation ps additional flags)) ∧
      (∀ name calls, (ObjectDraft.ofCalls name calls).name = name ∧
        (ObjectDraft.ofCalls name calls).properties = calls.filterMap ObjectDraft.Call.property? ∧
        (ObjectDraft.ofCalls name calls).Makes (ObjectDraft.ofCalls name calls).build) ∧
      (∀ name validation discriminator ms, DiscriminatedTy.MadeOf name validation discriminator ms
        (DiscriminatedTy.ofMembers name validation discriminator ms)) ∧
      (∀ name validation ps ps' additional flags, ps.Perm ps' →
        EqualOutcomes Ty.object (ObjectTy.ofProperties name validation ps additional flags)
          (ObjectTy.ofProperties name validation ps' additional flags)) ∧
      (∀ name validation discriminator ms ms', ms.Perm ms' →
        EqualOutcomes Ty.discriminated (DiscriminatedTy.ofMembers name validation discriminator ms)
          (DiscriminatedTy.ofMembers name validation discriminator ms')) := by
  refine ⟨fun name validation ps additional flags => ?_, fun name calls => ⟨?_, ?_, ?_⟩, ?_, ?_, ?_⟩
  · exact ObjectDraft.makes_build ⟨name, validation, ps, additional, flags⟩
  · exact ObjectDraft.name_foldl_call _ calls
  · exact ObjectDraft.properties_foldl_call _ calls
  · exact ObjectDraft.makes_build _
  · exact DiscriminatedTy.madeOf_ofMembers
  · intro name validation ps ps' additional flags hperm
    exact ObjectDraft.equalOutcomes_of_perm ⟨name, validation, ps, additional, flags⟩ hperm
  · intro name validation discriminator ms ms' hperm
    exact DiscriminatedTy.equalOutcomes_of_perm name discriminator validation hperm

/-- The properties of an account in the hot tier. -/
def accountProperties : List Property := (ObjectTy.account "hot").properties.values

/-- An account is made from its properties in reverse, but not if they are given twice; and accounts are made from
    members in descending order. -/
theorem accounts_in_any_order :
    (∃ o, ObjectTy.ofProperties "Account" .secure accountProperties.reverse (some .any) .required = .ok o ∧
      (Ty.object (.account "hot") == Ty.object o) = true) ∧
      ObjectTy.ofProperties "Account" .secure (accountProperties ++ accountProperties) none .none =
        .error (.ofCause (.duplicateProperty "Account" "name")) ∧
      ∃ d, DiscriminatedTy.ofMembers "Account" .none "tier" [.account "hot", .account "cold"] = .ok d ∧
        (Ty.discriminated .accounts == Ty.discriminated d) = true := by
  obtain ⟨hobjects, -, -, hproperties, hmembers⟩ := checked_construction
  refine ⟨?_, ?_, ?_⟩
  · obtain ⟨hexists, hequal⟩ := hproperties "Account" .secure accountProperties accountProperties.reverse
      (some .any) .required (List.reverse_perm _).symm
    have hgiven : ObjectTy.ofProperties "Account" .secure accountProperties (some .any) .required =
      .ok (.account "hot") := rfl
    obtain ⟨o, ho⟩ := hexists.mp ⟨_, hgiven⟩
    exact ⟨o, ho, hequal _ _ hgiven ho⟩
  · have hrepeated : FirstRepeated (accountProperties ++ accountProperties)
        ⟨"name", .string, ⟨0xa1⟩, some "The name of the account."⟩ :=
      ⟨accountProperties, accountProperties.tail, rfl, by decide, by decide⟩
    exact ((hobjects _ _ _ _ _).reason _).mpr ⟨_, hrepeated, rfl⟩
  · obtain ⟨hexists, hequal⟩ := hmembers "Account" .none "tier" [.account "cold", .account "hot"]
      [.account "hot", .account "cold"] (List.Perm.swap _ _ [])
    have hgiven : DiscriminatedTy.ofMembers "Account" .none "tier" [.account "cold", .account "hot"] =
      .ok .accounts := rfl
    obtain ⟨d, hd⟩ := hexists.mp ⟨_, hgiven⟩
    exact ⟨d, hd, hequal _ _ hgiven hd⟩

end ResourceLang
