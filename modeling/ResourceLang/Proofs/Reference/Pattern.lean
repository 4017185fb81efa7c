import Mathlib.Computability.Language
import ResourceLang.Proofs.Reference.Grammar

/-!
# The pattern of references — the grammar as a regular language

The same grammar, written as a pattern: each part is a regular language, and the text is their product. A
match of the pattern captures the namespace, the path with all its slashes, and the version; cutting the
path at its slashes gives the segments and, because a slash stands in front, one empty piece to be left out.

* **`mem_namespacePattern`**, **`mem_pathPattern`**, **`mem_versionPattern`** — what each part matches.
* **`parse?_of_captures`** — a match of the pattern is what the reader gives.
* **`parse_inverts_text`** — reading and writing are inverse to each other, and all else is refused.
-/

namespace ResourceLang.Reference

open Computability

/-! ## Building blocks -/

/-- One character of a class. -/
def oneOf (p : Char → Prop) : Language Char := fun cs => ∃ c, p c ∧ cs = [c]

/-- One or more times. -/
def repeated (l : Language Char) : Language Char := l * l∗

/-- The given character. -/
def sign (c : Char) : Language Char := {[c]}

theorem mem_oneOf {p : Char → Prop} {cs : List Char} : cs ∈ oneOf p ↔ ∃ c, p c ∧ cs = [c] := Iff.rfl

theorem singleton_mem_sign (c : Char) : [c] ∈ sign c := Set.mem_singleton [c]

/-- Any number of characters of a class. -/
theorem mem_kstar_oneOf {p : Char → Prop} {cs : List Char} :
    cs ∈ (oneOf p)∗ ↔ ∀ c ∈ cs, p c := by
  rw [Language.mem_kstar]
  constructor
  · rintro ⟨pieces, rfl, hpieces⟩ c hc
    obtain ⟨piece, hpiece, hc⟩ := List.mem_flatten.mp hc
    obtain ⟨d, hd, rfl⟩ := mem_oneOf.mp (hpieces piece hpiece)
    rw [List.mem_singleton.mp hc]
    exact hd
  · intro h
    refine ⟨cs.map fun c => [c], ?_, ?_⟩
    · induction cs with
      | nil => rfl
      | cons c cs ih =>
          rw [List.map_cons, List.flatten_cons, ← ih fun d hd => h d (List.mem_cons_of_mem c hd)]
          rfl
    · intro piece hpiece
      obtain ⟨c, hc, rfl⟩ := List.mem_map.mp hpiece
      exact ⟨c, h c hc, rfl⟩

/-- At least one character of a class. -/
theorem mem_repeated_oneOf {p : Char → Prop} {cs : List Char} :
    cs ∈ repeated (oneOf p) ↔ cs ≠ [] ∧ ∀ c ∈ cs, p c := by
  rw [repeated, Language.mem_mul]
  constructor
  · rintro ⟨first, ⟨c, hc, rfl⟩, rest, hrest, rfl⟩
    refine ⟨List.cons_ne_nil c rest, ?_⟩
    intro d hd
    rcases List.mem_cons.mp hd with rfl | hd
    · exact hc
    · exact mem_kstar_oneOf.mp hrest d hd
  · rintro ⟨hne, hchars⟩
    obtain ⟨c, rest, rfl⟩ := List.exists_cons_of_ne_nil hne
    refine ⟨[c], ⟨c, hchars c List.mem_cons_self, rfl⟩, rest, ?_, rfl⟩
    exact mem_kstar_oneOf.mpr fun d hd => hchars d (List.mem_cons_of_mem c hd)

/-- A given number of characters of a class. -/
theorem mem_pow_oneOf {p : Char → Prop} {n : Nat} {cs : List Char} :
    cs ∈ oneOf p ^ n ↔ cs.length = n ∧ ∀ c ∈ cs, p c := by
  induction n generalizing cs with
  | zero =>
      rw [pow_zero, Language.mem_one, List.length_eq_zero_iff]
      constructor
      · rintro rfl
        exact ⟨rfl, nofun⟩
      · exact And.left
  | succ n ih =>
      rw [pow_succ', Language.mem_mul]
      constructor
      · rintro ⟨first, ⟨c, hc, rfl⟩, rest, hrest, rfl⟩
        obtain ⟨hlength, hchars⟩ := ih.mp hrest
        refine ⟨by rw [List.singleton_append, List.length_cons, hlength], ?_⟩
        intro d hd
        rcases List.mem_cons.mp hd with rfl | hd
        · exact hc
        · exact hchars d hd
      · rintro ⟨hlength, hchars⟩
        obtain ⟨c, rest, rfl⟩ := List.exists_cons_of_length_eq_add_one hlength
        refine ⟨[c], ⟨c, hchars c List.mem_cons_self, rfl⟩, rest, ih.mpr ⟨?_, ?_⟩, rfl⟩
        · exact Nat.succ.inj hlength
        · exact fun d hd => hchars d (List.mem_cons_of_mem c hd)

/-! ## The parts -/

/-- A letter or digit, then letters, digits and dots. -/
def namespacePattern : Language Char :=
  oneOf (fun c => Letter c ∨ Digit c) * (oneOf fun c => Letter c ∨ Digit c ∨ c = '.')∗

/-- Segments, each after a slash. -/
def pathPattern : Language Char :=
  repeated (sign '/' * repeated (oneOf fun c => Letter c ∨ Digit c ∨ c = '-'))

/-- Four, two and two digits with hyphens between, and a tag after a further hyphen or none. -/
def versionPattern : Language Char :=
  oneOf Digit ^ 4 * sign '-' * oneOf Digit ^ 2 * sign '-' * oneOf Digit ^ 2 *
    (1 + sign '-' * repeated (oneOf fun c => Letter c ∨ Digit c))

/-- The pattern of a whole text. -/
def pattern : Language Char := namespacePattern * pathPattern * sign '@' * versionPattern

theorem mem_namespacePattern {cs : List Char} : cs ∈ namespacePattern ↔ NamespaceText cs := by
  rw [namespacePattern, Language.mem_mul]
  constructor
  · rintro ⟨first, ⟨c, hc, rfl⟩, rest, hrest, rfl⟩
    refine ⟨List.cons_ne_nil c rest, ?_, ?_⟩
    · intro hdot
      rw [Option.some.inj hdot] at hc
      exact not_alphanum_dot hc
    · intro d hd
      rcases List.mem_cons.mp hd with rfl | hd
      · exact hc.imp_right Or.inl
      · exact mem_kstar_oneOf.mp hrest d hd
  · rintro ⟨hne, hstart, hchars⟩
    obtain ⟨c, rest, rfl⟩ := List.exists_cons_of_ne_nil hne
    refine ⟨[c], ⟨c, ?_, rfl⟩, rest, ?_, rfl⟩
    · rcases hchars c List.mem_cons_self with hletter | hdigit | rfl
      · exact Or.inl hletter
      · exact Or.inr hdigit
      · exact absurd rfl hstart
    · exact mem_kstar_oneOf.mpr fun d hd => hchars d (List.mem_cons_of_mem c hd)

theorem mem_segmentPattern {cs : List Char} :
    cs ∈ sign '/' * repeated (oneOf fun c => Letter c ∨ Digit c ∨ c = '-') ↔
      ∃ segment, SegmentText segment ∧ cs = '/' :: segment := by
  rw [Language.mem_mul]
  constructor
  · rintro ⟨slash, rfl, segment, hsegment, rfl⟩
    obtain ⟨hne, hchars⟩ := mem_repeated_oneOf.mp hsegment
    exact ⟨segment, ⟨hne, hchars⟩, rfl⟩
  · rintro ⟨segment, ⟨hne, hchars⟩, rfl⟩
    exact ⟨['/'], rfl, segment, mem_repeated_oneOf.mpr ⟨hne, hchars⟩, rfl⟩

theorem mem_pathPattern {path : List Char} :
    path ∈ pathPattern ↔
      ∃ types : List String, types ≠ [] ∧ (∀ s ∈ types, SegmentText s.toList) ∧
        path = types.flatMap fun s => '/' :: s.toList := by
  rw [pathPattern, repeated, Language.mem_mul]
  constructor
  · rintro ⟨first, hfirst, rest, hrest, rfl⟩
    obtain ⟨segment, hsegment, rfl⟩ := mem_segmentPattern.mp hfirst
    obtain ⟨others, rfl, hothers⟩ := Language.mem_kstar.mp hrest
    -- every further piece is a slash and a segment, so the segments are the pieces without their slashes
    refine ⟨String.ofList segment :: others.map fun p => String.ofList p.tail, List.cons_ne_nil _ _,
      ?_, ?_⟩
    · intro s hs
      rcases List.mem_cons.mp hs with rfl | hs
      · rw [String.toList_ofList]
        exact hsegment
      · obtain ⟨p, hp, rfl⟩ := List.mem_map.mp hs
        obtain ⟨segment', hsegment', rfl⟩ := mem_segmentPattern.mp (hothers p hp)
        rw [String.toList_ofList]
        exact hsegment'
    · rw [List.flatMap_cons, String.toList_ofList, List.flatMap_map, ← List.flatMap_id']
      congr 1
      refine List.flatMap_congr fun p hp => ?_
      obtain ⟨segment', hsegment', rfl⟩ := mem_segmentPattern.mp (hothers p hp)
      rw [String.toList_ofList]
      rfl
  · rintro ⟨types, hne, hsegments, rfl⟩
    obtain ⟨s, rest, rfl⟩ := List.exists_cons_of_ne_nil hne
    refine ⟨'/' :: s.toList, ?_, rest.flatMap fun s => '/' :: s.toList, ?_, rfl⟩
    · exact mem_segmentPattern.mpr ⟨s.toList, hsegments s List.mem_cons_self, rfl⟩
    · rw [Language.mem_kstar]
      refine ⟨rest.map fun s => '/' :: s.toList, (List.flatMap_def ..), ?_⟩
      intro p hp
      obtain ⟨t, ht, rfl⟩ := List.mem_map.mp hp
      exact mem_segmentPattern.mpr ⟨t.toList, hsegments t (List.mem_cons_of_mem s ht), rfl⟩

theorem mem_datePattern {cs : List Char} :
    cs ∈ oneOf Digit ^ 4 * sign '-' * oneOf Digit ^ 2 * sign '-' * oneOf Digit ^ 2 ↔ DateText cs := by
  constructor
  · rintro ⟨_, ⟨_, ⟨_, ⟨year, hyear, _, rfl, rfl⟩, month, hmonth, rfl⟩, _, rfl, rfl⟩, day, hday, rfl⟩
    obtain ⟨hyear, hyears⟩ := mem_pow_oneOf.mp hyear
    obtain ⟨hmonth, hmonths⟩ := mem_pow_oneOf.mp hmonth
    obtain ⟨hday, hdays⟩ := mem_pow_oneOf.mp hday
    have hdigits : ∀ c ∈ year ++ month ++ day, Digit c := by
      intro c hc
      rcases List.mem_append.mp hc with hc | hc
      · rcases List.mem_append.mp hc with hc | hc
        · exact hyears c hc
        · exact hmonths c hc
      · exact hdays c hc
    have hdate := DateText.mk hyear hmonth hday hdigits
    simpa using hdate
  · rintro ⟨hyear, hmonth, hday, hdigits⟩
    rename_i year month day
    have hyears : year ∈ oneOf Digit ^ 4 := mem_pow_oneOf.mpr
      ⟨hyear, fun c hc => hdigits c (List.mem_append_left day (List.mem_append_left month hc))⟩
    have hmonths : month ∈ oneOf Digit ^ 2 := mem_pow_oneOf.mpr
      ⟨hmonth, fun c hc => hdigits c (List.mem_append_left day (List.mem_append_right year hc))⟩
    have hdays : day ∈ oneOf Digit ^ 2 := mem_pow_oneOf.mpr
      ⟨hday, fun c hc => hdigits c (List.mem_append_right (year ++ month) hc)⟩
    have hhyphen := singleton_mem_sign '-'
    have hdate := Language.append_mem_mul (Language.append_mem_mul (Language.append_mem_mul
      (Language.append_mem_mul hyears hhyphen) hmonths) hhyphen) hdays
    simpa using hdate

theorem mem_versionPattern {cs : List Char} : cs ∈ versionPattern ↔ VersionText cs := by
  rw [versionPattern, Language.mem_mul]
  constructor
  · rintro ⟨date, hdate, tag, htag, rfl⟩
    have hdate' := mem_datePattern.mp hdate
    rcases (Language.mem_add _ _ _).mp htag with rfl | htag
    · rw [List.append_nil]
      exact .date hdate'
    · obtain ⟨_, rfl, suffix, hsuffix, rfl⟩ := Language.mem_mul.mp htag
      obtain ⟨hne, hchars⟩ := mem_repeated_oneOf.mp hsuffix
      exact .tagged hdate' hne hchars
  · rintro (hdate | ⟨hdate, hne, hchars⟩)
    · exact ⟨cs, mem_datePattern.mpr hdate, [], (Language.mem_add _ _ _).mpr (Or.inl rfl),
        List.append_nil cs⟩
    · rename_i date tag
      refine ⟨date, mem_datePattern.mpr hdate, '-' :: tag, ?_, rfl⟩
      have htag := mem_repeated_oneOf.mpr ⟨hne, hchars⟩
      exact (Language.mem_add _ _ _).mpr
        (Or.inr (Language.append_mem_mul (singleton_mem_sign '-') htag))

/-! ## Matches -/

/-- A match of the whole pattern is made of matches of its parts. -/
theorem mem_pattern {cs : List Char} :
    cs ∈ pattern ↔ ∃ ns ∈ namespacePattern, ∃ path ∈ pathPattern, ∃ version ∈ versionPattern,
      cs = ns ++ path ++ '@' :: version := by
  constructor
  · rintro ⟨_, ⟨_, ⟨ns, hns, path, hpath, rfl⟩, _, rfl, rfl⟩, version, hversion, rfl⟩
    exact ⟨ns, hns, path, hpath, version, hversion, List.append_assoc (ns ++ path) ['@'] version⟩
  · rintro ⟨ns, hns, path, hpath, version, hversion, rfl⟩
    have hmatch := Language.append_mem_mul (Language.append_mem_mul (Language.append_mem_mul hns hpath)
      (singleton_mem_sign '@')) hversion
    rw [List.append_assoc (ns ++ path)] at hmatch
    exact hmatch

/-- Cutting a path at its slashes and leaving out empty pieces gives its segments, none dropped. -/
theorem filter_splitOn_path {types : List String} (h : ∀ s ∈ types, SegmentText s.toList) :
    ((types.flatMap fun s => '/' :: s.toList).splitOn '/').filter (fun p => !p.isEmpty) =
      types.map String.toList := by
  have hfree : ∀ p ∈ types.map String.toList, '/' ∉ p := by
    intro p hp
    obtain ⟨s, hs, rfl⟩ := List.mem_map.mp hp
    exact not_mem_of_chars (h s hs).chars not_alphanum_slash (by decide)
  have hpieces := pieces_flatMap hfree
  rw [List.flatMap_map] at hpieces
  rw [splitOn_eq_pieces, hpieces, List.filter_cons_of_neg (by simp), List.filter_eq_self]
  intro p hp
  obtain ⟨s, hs, rfl⟩ := List.mem_map.mp hp
  rw [Bool.not_eq_true', List.isEmpty_eq_false_iff]
  exact (h s hs).nonempty

/-- **A match of the pattern is what the reader gives**: the captured namespace and version, and the
    segments cut out of the captured path. -/
theorem parse?_of_captures {text : String} {ns path version : List Char}
    (htext : text.toList = ns ++ path ++ '@' :: version) (hns : ns ∈ namespacePattern)
    (hpath : path ∈ pathPattern) (hversion : version ∈ versionPattern) :
    ∃ r, parse? text = some r ∧ r.ns = String.ofList ns ∧ r.version = String.ofList version ∧
      r.types = ((path.splitOn '/').filter fun p => !p.isEmpty).map String.ofList := by
  obtain ⟨types, hne, hsegments, rfl⟩ := mem_pathPattern.mp hpath
  have hspells : Spells text (String.ofList ns) types (String.ofList version) := by
    refine ⟨⟨?_, hne, hsegments, ?_⟩, ?_⟩
    · rw [String.toList_ofList]
      exact mem_namespacePattern.mp hns
    · rw [String.toList_ofList]
      exact mem_versionPattern.mp hversion
    · rw [← String.toList_inj, htext]
      simp [List.flatMap_map]
  refine ⟨_, hspells.parse?, rfl, rfl, ?_⟩
  rw [filter_splitOn_path hsegments, List.map_map]
  exact (List.map_id'' (fun s => String.ofList_toList) types).symm

/-- The texts that the pattern matches are those that are read. -/
theorem mem_pattern_iff_parse? (text : String) :
    text.toList ∈ pattern ↔ ∃ r, parse? text = some r := by
  rw [mem_pattern]
  constructor
  · rintro ⟨ns, hns, path, hpath, version, hversion, htext⟩
    obtain ⟨r, hr, -⟩ := parse?_of_captures htext hns hpath hversion
    exact ⟨r, hr⟩
  · rintro ⟨r, hr⟩
    have hspells := (parse?_eq_some_iff text r).mp hr
    exact ⟨r.ns.toList, mem_namespacePattern.mpr hspells.readable.ns,
      r.types.flatMap fun s => '/' :: s.toList,
      mem_pathPattern.mpr ⟨r.types, r.types_ne_nil, hspells.readable.segment, rfl⟩,
      r.version.toList, mem_versionPattern.mpr hspells.readable.version, hspells.toList⟩

/-! ## Reading and writing -/

/-- What the reader makes of a text, in terms of the grammar and in terms of the pattern. -/
structure ReadExactly (text : String) : Prop where
  /-- It gives a reference exactly if the text is written by its parts. -/
  spelled : ∀ r, parse text = .ok r ↔ Spells text r.ns r.types r.version
  /-- It takes the text exactly if some parts write it. -/
  taken : (∃ r, parse text = .ok r) ↔ ∃ ns types version, Spells text ns types version
  /-- No other parts write it. -/
  unique : ∀ ns ns' types types' version version', Spells text ns types version →
    Spells text ns' types' version' → ns = ns' ∧ types = types' ∧ version = version'
  /-- What was read is written as the text. -/
  written : ∀ r, parse text = .ok r → r.text = text
  /-- A text that no parts write, and no other text, is refused, and the refusal carries it. -/
  refused : parse text = .error (.ofCause (.invalidReference text)) ↔
    ¬ ∃ ns types version, Spells text ns types version
  /-- It takes the text exactly if the pattern matches. -/
  matched : (∃ r, parse text = .ok r) ↔ text.toList ∈ pattern
  /-- What a match captures is what was read. -/
  captured : ∀ ns ∈ namespacePattern, ∀ path ∈ pathPattern, ∀ version ∈ versionPattern,
    text.toList = ns ++ path ++ '@' :: version →
      ∃ r, parse text = .ok r ∧ r.ns = String.ofList ns ∧ r.version = String.ofList version ∧
        r.types = ((path.splitOn '/').filter fun p => !p.isEmpty).map String.ofList

theorem parse_eq_ok_iff {text : String} {r : Reference} :
    parse text = .ok r ↔ parse? text = some r := by
  rw [parse]
  cases parse? text with
  | none =>
      constructor
      · intro h; exact nomatch h
      · intro h; exact nomatch h
  | some r' =>
      constructor
      · intro h; rw [Except.ok.inj h]
      · intro h; rw [Option.some.inj h]

/-- A text that is read is the text of what is read. -/
theorem text_of_parse {text : String} {r : Reference} (h : parse text = .ok r) : r.text = text := by
  have hspells : Spells text r.ns r.types r.version := (parse?_eq_some_iff text r).mp (parse_eq_ok_iff.mp h)
  rw [← String.toList_inj, toList_text, hspells.toList]

/-- **Reading and writing are inverse to each other**: the reader takes exactly the texts of the grammar and
    gives their parts, and parts that can be read are read back from the text that they are written as. -/
theorem parse_inverts_text :
    (∀ text, ReadExactly text) ∧
      ∀ ns types version, Readable ns types version →
        ∃ r, ofParts ns types version = .ok r ∧ r.ns = ns ∧ r.types = types ∧ r.version = version ∧
          parse r.text = .ok r := by
  constructor
  · intro text
    have hspelled : ∀ r, parse text = .ok r ↔ Spells text r.ns r.types r.version := fun r =>
      parse_eq_ok_iff.trans (parse?_eq_some_iff text r)
    have hread : (∃ r, parse text = .ok r) ↔ ∃ r, parse? text = some r :=
      exists_congr fun r => parse_eq_ok_iff
    have htaken : (∃ r, parse text = .ok r) ↔ ∃ ns types version, Spells text ns types version := by
      constructor
      · rintro ⟨r, hr⟩
        exact ⟨r.ns, r.types, r.version, (hspelled r).mp hr⟩
      · rintro ⟨ns, types, version, h⟩
        exact ⟨_, parse_eq_ok_iff.mpr h.parse?⟩
    refine ⟨hspelled, htaken, ?_, ?_, ?_, ?_, ?_⟩
    · intro ns ns' types types' version version' h h'
      -- both are what is read from the text, so they are the same
      have hsame := Option.some.inj (h.parse?.symm.trans h'.parse?)
      obtain ⟨hns, htypes, hversion⟩ := (mk.injEq ..).mp hsame
      exact ⟨hns, htypes, hversion⟩
    · intro r hr
      rw [← String.toList_inj, toList_text, ((hspelled r).mp hr).toList]
    · rw [← htaken, parse]
      cases parse? text with
      | none =>
          refine ⟨fun _ => ?_, fun _ => rfl⟩
          rintro ⟨r, hr⟩
          exact nomatch hr
      | some r =>
          refine ⟨?_, fun h => absurd ⟨r, rfl⟩ h⟩
          intro h
          exact nomatch h
    · exact hread.trans (mem_pattern_iff_parse? text).symm
    · intro ns hns path hpath version hversion htext
      obtain ⟨r, hr, hparts⟩ := parse?_of_captures htext hns hpath hversion
      exact ⟨r, parse_eq_ok_iff.mpr hr, hparts⟩
  · intro ns types version h
    let r : Reference := ⟨ns, types, version, h.types_ne_nil⟩
    have hspells : Spells r.text ns types version := by
      refine ⟨h, ?_⟩
      rw [← String.toList_inj, toList_text]
      simp [r, List.flatMap_map]
    refine ⟨r, ?_, rfl, rfl, rfl, parse_eq_ok_iff.mpr hspells.parse?⟩
    rw [ofParts, dif_pos h.types_ne_nil]

/-- Hyphens in a segment and in a version with a tag do not come in each other's way. -/
theorem preview_read_back :
    Readable "Quarry.Data" ["blob-stores", "-"] "2021-04-01-preview" ∧
      ∃ r, ofParts "Quarry.Data" ["blob-stores", "-"] "2021-04-01-preview" = .ok r ∧
        r.ns = "Quarry.Data" ∧ r.types = ["blob-stores", "-"] ∧ r.version = "2021-04-01-preview" ∧
        parse r.text = .ok r := by
  have h : Readable "Quarry.Data" ["blob-stores", "-"] "2021-04-01-preview" := by
    refine ⟨(isNamespace_iff _).mp (by decide), List.cons_ne_nil _ _, ?_,
      (isVersion_iff _).mp (by decide)⟩
    intro s hs
    refine (isSegment_iff _).mp ?_
    revert s
    decide
  exact ⟨h, parse_inverts_text.2 _ _ _ h⟩

end ResourceLang.Reference
