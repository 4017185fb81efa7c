import ResourceLang.Proofs.Reference.Pattern
import ResourceLang.Proofs.Text.Case
import ResourceLang.Proofs.Ty.Canonical

/-!
# Case of references — comparing, hashing and reading agree

References are compared part by part and hashed by their whole text in lowercase. Putting parts together and taking the
lowercase form can change places, so equal references have one hashed text. The other direction needs that the text
tells the parts: a reference that was read has no slash and no at sign within a part, and reading does not look at case
anywhere, so it can change places with the lowercase form as well. References made of any parts can have one text
without being equal.

* **`canonical_eq_of_beq`** — equal references have one hashed text.
* **`parse?_lowered`** — what is read from a lowercase text.
* **`beq_agrees_with_text`** — comparing references, comparing what is hashed and comparing texts.
-/

namespace ResourceLang

open Text (SameButCase)

namespace Reference

/-! ## Hashing -/

/-- The text in lowercase is the text of the reference in lowercase. -/
theorem canonical_eq_text_lowercase (r : Reference) : r.canonical = r.lowercase.text := by
  have hslash : '/'.toLower = '/' := rfl
  have hat : '@'.toLower = '@' := rfl
  rw [← String.toList_inj, canonical, Text.toList_lowered, toList_text, toList_text]
  simp only [lowercase, Text.toList_lowered, List.map_append, List.map_cons, List.map_flatMap, List.flatMap_map,
    hslash, hat]

/-- **Equal references have one hashed text.** -/
theorem canonical_eq_of_beq {a b : Reference} (h : (a == b) = true) : a.canonical = b.canonical := by
  rw [canonical_eq_text_lowercase, canonical_eq_text_lowercase, (beq_iff_lowercase_eq a b).mp h]

/-- References are hashed by their text in lowercase. -/
instance : Hashable Reference := ⟨fun r => hash r.canonical⟩

instance : LawfulHashable Reference where
  hash_eq _ _ h := congrArg (hash : String → UInt64) (canonical_eq_of_beq h)

/-! ## Parts -/

/-- References are equal if their parts differ at most in case, one by one. -/
theorem beq_iff_sameButCase (a b : Reference) :
    (a == b) = true ↔
      SameButCase a.ns b.ns ∧ List.Forall₂ SameButCase a.types b.types ∧ SameButCase a.version b.version := by
  have htypes : List.Forall₂ SameButCase a.types b.types ↔ a.types.map Text.lowered = b.types.map Text.lowered := by
    rw [funext₂ fun s t => propext (Text.sameButCase_iff s t), ← List.forall₂_eq_eq_eq, List.forall₂_map_left_iff,
      List.forall₂_map_right_iff]
  rw [beq_iff_folded_eq, folded, folded, Prod.mk.injEq, Prod.mk.injEq, Text.sameButCase_iff, Text.sameButCase_iff,
    htypes]

/-! ## Reading without regard to case -/

theorem isDigit_toLower (c : Char) : c.toLower.isDigit = c.isDigit := by
  have hdigit : ∀ d : Char, d.isDigit = true ↔ 48 ≤ d.toNat ∧ d.toNat ≤ 57 := fun d => isDigit_iff d
  rw [Bool.eq_iff_iff, hdigit, hdigit, Text.toNat_toLower]
  split <;> omega

theorem isAlphanum_toLower (c : Char) : c.toLower.isAlphanum = c.isAlphanum := by
  have halphanum : ∀ d : Char, d.isAlphanum = true ↔
      ((97 ≤ d.toNat ∧ d.toNat ≤ 122) ∨ (65 ≤ d.toNat ∧ d.toNat ≤ 90)) ∨ (48 ≤ d.toNat ∧ d.toNat ≤ 57) :=
    fun d => isAlphanum_iff d
  rw [Bool.eq_iff_iff, halphanum, halphanum, Text.toNat_toLower]
  split <;> omega

/-- A sign that is no letter is in lowercase only where it was before. -/
theorem toLower_eq_sign_iff {sign : Char} (hsign : sign.isAlphanum = false) (c : Char) :
    c.toLower = sign ↔ c = sign := by
  have hkept : ¬c.isAlphanum = true → c.toLower = c := by
    intro h
    rw [← Char.toNat_inj, Text.toNat_toLower, if_neg]
    exact fun hupper => h ((isAlphanum_iff c).mpr (Or.inl (Or.inr hupper)))
  constructor
  · intro h
    rw [← hkept, h]
    rw [← isAlphanum_toLower, h, hsign]
    exact Bool.false_ne_true
  · rintro rfl
    rw [hkept]
    rw [hsign]
    exact Bool.false_ne_true

/-- Cutting at a sign that is no letter can change places with the lowercase form. -/
theorem pieces_map_toLower {sign : Char} (hsign : sign.isAlphanum = false) (cs : List Char) :
    pieces sign (cs.map Char.toLower) =
      ((pieces sign cs).1.map Char.toLower, (pieces sign cs).2.map (List.map Char.toLower)) := by
  induction cs with
  | nil => rfl
  | cons c cs ih =>
      rw [List.map_cons, pieces_cons, pieces_cons, ih]
      by_cases hc : c = sign
      · rw [if_pos hc, if_pos ((toLower_eq_sign_iff hsign c).mpr hc)]
        rfl
      · rw [if_neg hc, if_neg fun h => hc ((toLower_eq_sign_iff hsign c).mp h)]
        rfl

/-- What a class of characters without regard to case says of all characters of a text. -/
theorem all_map_toLower {p : Char → Bool} (hp : ∀ c : Char, p c.toLower = p c) (cs : List Char) :
    (cs.map Char.toLower).all p = cs.all p := by
  rw [List.all_map]
  exact congrArg cs.all (funext hp)

theorem toLower_beq_sign {sign : Char} (c : Char) (hsign : sign.isAlphanum = false) :
    (c.toLower == sign) = (c == sign) := by
  rw [Bool.eq_iff_iff, beq_iff_eq, beq_iff_eq, toLower_eq_sign_iff hsign]

theorem isNamespace_map_toLower (cs : List Char) : isNamespace (cs.map Char.toLower) = isNamespace cs := by
  cases cs with
  | nil => rfl
  | cons c cs =>
      have hclass : ∀ d : Char, (d.toLower.isAlphanum || d.toLower == '.') = (d.isAlphanum || d == '.') := by
        intro d
        rw [isAlphanum_toLower, toLower_beq_sign d rfl]
      rw [List.map_cons, isNamespace, isNamespace, isAlphanum_toLower, all_map_toLower hclass]

theorem isSegment_map_toLower (cs : List Char) : isSegment (cs.map Char.toLower) = isSegment cs := by
  have hclass : ∀ c : Char, (c.toLower.isAlphanum || c.toLower == '-') = (c.isAlphanum || c == '-') := by
    intro c
    rw [isAlphanum_toLower, toLower_beq_sign c rfl]
  rw [isSegment, isSegment, all_map_toLower hclass, List.isEmpty_map]

theorem isDate_eq_false_of_length {cs : List Char} (h : cs.length ≠ 10) : isDate cs = false := by
  rw [← Bool.not_eq_true, isDate_iff]
  exact fun hdate => h hdate.length

theorem isDate_map_toLower (cs : List Char) : isDate (cs.map Char.toLower) = isDate cs := by
  by_cases hlength : cs.length = 10
  · match cs, hlength with
    | [y₁, y₂, y₃, y₄, s₁, m₁, m₂, s₂, d₁, d₂], _ =>
        have hdigits := all_map_toLower isDigit_toLower [y₁, y₂, y₃, y₄, m₁, m₂, d₁, d₂]
        show (List.all _ Char.isDigit && s₁.toLower == '-' && s₂.toLower == '-') = _
        rw [toLower_beq_sign s₁ rfl, toLower_beq_sign s₂ rfl]
        exact congrArg (fun digits => digits && s₁ == '-' && s₂ == '-') hdigits
  · rw [isDate_eq_false_of_length hlength, isDate_eq_false_of_length (by rwa [List.length_map])]

theorem isTag_map_toLower (cs : List Char) : isTag (cs.map Char.toLower) = isTag cs := by
  cases cs with
  | nil => rfl
  | cons c cs =>
      rw [List.map_cons, isTag, isTag, toLower_beq_sign c rfl, all_map_toLower isAlphanum_toLower, List.isEmpty_map]

theorem isVersion_map_toLower (cs : List Char) : isVersion (cs.map Char.toLower) = isVersion cs := by
  rw [isVersion, isVersion, ← List.map_take, ← List.map_drop, isDate_map_toLower, isTag_map_toLower]

/-- **What is read from a lowercase text** is the lowercase form of what is read from the text. -/
theorem parse?_lowered (text : String) : parse? (Text.lowered text) = (parse? text).map lowercase := by
  rw [parse?, parse?, Text.toList_lowered, pieces_map_toLower rfl]
  generalize pieces '@' text.toList = cut
  obtain ⟨path, versions⟩ := cut
  cases versions with
  | nil => rfl
  | cons version others =>
      cases others with
      | cons _ _ => rfl
      | nil =>
          have hslash : ('/' : Char).isAlphanum = false := rfl
          simp only [List.map_cons, List.map_nil, pieces_map_toLower hslash]
          generalize pieces '/' path = cut
          obtain ⟨ns, types⟩ := cut
          cases types with
          | nil => rfl
          | cons segment segments =>
              have hsegments : (segment.map Char.toLower :: segments.map (List.map Char.toLower)).all isSegment =
                  (segment :: segments).all isSegment := by
                show ((segment :: segments).map (List.map Char.toLower)).all isSegment = _
                rw [List.all_map]
                exact congrArg (segment :: segments).all (funext isSegment_map_toLower)
              simp only [List.map_cons, hsegments, isNamespace_map_toLower, isVersion_map_toLower]
              by_cases htests : (isNamespace ns && (segment :: segments).all isSegment && isVersion version) = true
              · rw [if_pos htests, if_pos htests]
                simp [lowercase, Text.lowered, Function.comp_def]
              · rw [if_neg htests, if_neg htests]
                rfl

/-! ## Agreement -/

/-- References that were read are equal exactly if the texts differ at most in case. -/
theorem beq_iff_of_parse {s t : String} {a b : Reference} (ha : parse s = .ok a) (hb : parse t = .ok b) :
    (a == b) = true ↔ SameButCase s t := by
  rw [Text.sameButCase_iff]
  constructor
  · intro h
    rw [← text_of_parse ha, ← text_of_parse hb]
    exact canonical_eq_of_beq h
  · intro h
    -- one lowercase form is read as one reference
    have hread := parse?_lowered s
    rw [h, parse?_lowered, parse_eq_ok_iff.mp ha, parse_eq_ok_iff.mp hb] at hread
    exact (beq_iff_lowercase_eq a b).mpr (Option.some.inj hread).symm

/-- Texts that differ at most in case are read or refused together. -/
theorem parse_ok_iff_of_sameButCase {s t : String} (h : SameButCase s t) :
    (∃ a, parse s = .ok a) ↔ ∃ b, parse t = .ok b := by
  have hread : ∀ u : String, (∃ r, parse u = .ok r) ↔ (parse? (Text.lowered u)).isSome = true := by
    intro u
    rw [parse?_lowered, Option.isSome_map, Option.isSome_iff_exists]
    exact exists_congr fun _ => parse_eq_ok_iff
  rw [hread, hread, (Text.sameButCase_iff s t).mp h]

/-- **Comparing, hashing and writing agree.** References are compared by an equivalence, part by part up to case, and
    equal ones are hashed alike. Of references that were read, two are equal exactly if what is hashed is the same, and
    exactly if the texts differ at most in case; and of two such texts both are read or none. -/
theorem beq_agrees_with_text :
    (Equivalence fun a b : Reference => (a == b) = true) ∧
      (∀ a b : Reference, (a == b) = true ↔
        SameButCase a.ns b.ns ∧ List.Forall₂ SameButCase a.types b.types ∧ SameButCase a.version b.version) ∧
      (∀ a b : Reference, (a == b) = true → a.canonical = b.canonical ∧ hash a = hash b) ∧
      (∀ (s t : String) (a b : Reference), parse s = .ok a → parse t = .ok b →
        ((a == b) = true ↔ a.canonical = b.canonical) ∧ (a.canonical = b.canonical ↔ SameButCase s t)) ∧
      ∀ s t : String, SameButCase s t → ((∃ a, parse s = .ok a) ↔ ∃ b, parse t = .ok b) := by
  have hequivalence : Equivalence fun a b : Reference => (a == b) = true :=
    ⟨BEq.refl, fun h => BEq.symm h, fun h h' => BEq.trans h h'⟩
  refine ⟨hequivalence, beq_iff_sameButCase, ?_, ?_, fun _ _ => parse_ok_iff_of_sameButCase⟩
  · intro a b h
    exact ⟨canonical_eq_of_beq h, hash_eq h⟩
  · intro s t a b ha hb
    have hcanonical : a.canonical = b.canonical ↔ SameButCase s t := by
      rw [canonical, canonical, text_of_parse ha, text_of_parse hb, Text.sameButCase_iff]
    exact ⟨(beq_iff_of_parse ha hb).trans hcanonical.symm, hcanonical⟩

/-- Two spellings of a text are read as references that are equal and hashed alike, but not the same. -/
theorem spellings_agree :
    let s := "Quarry/B-x/Keys@2021-04-01-Rc"
    let t := "quarry/b-X/keys@2021-04-01-rc"
    SameButCase s t ∧ ∃ a b, parse s = .ok a ∧ parse t = .ok b ∧ a.text ≠ b.text ∧ (a == b) = true ∧
      a.canonical = b.canonical := by
  intro s t
  have hcase : SameButCase s t := (Text.sameButCase_iff s t).mpr (by decide)
  have hspells : Spells s "Quarry" ["B-x", "Keys"] "2021-04-01-Rc" := by
    refine ⟨⟨(isNamespace_iff _).mp (by decide), List.cons_ne_nil _ _, ?_, (isVersion_iff _).mp (by decide)⟩, rfl⟩
    intro s hs
    refine (isSegment_iff _).mp ?_
    revert s
    decide
  have hread := parse_eq_ok_iff.mpr hspells.parse?
  obtain ⟨-, -, -, hagree, htogether⟩ := beq_agrees_with_text
  obtain ⟨b, hb⟩ := (htogether s t hcase).mp ⟨_, hread⟩
  obtain ⟨hbeq, htext⟩ := hagree s t _ b hread hb
  refine ⟨hcase, _, b, hread, hb, ?_, hbeq.mpr (htext.mpr hcase), htext.mpr hcase⟩
  rw [text_of_parse hread, text_of_parse hb]
  decide

/-- References that were not read can have one text without being equal: a slash may stand within a part. -/
example : ∃ a b : Reference, a.canonical = b.canonical ∧ (a == b) = false :=
  ⟨⟨"a", ["b", "c"], "v", List.cons_ne_nil _ _⟩, ⟨"a/b", ["c"], "v", List.cons_ne_nil _ _⟩, by decide⟩

end Reference

end ResourceLang
