import ResourceLang.Proofs.Reference.Text

/-!
# Reading references — exactly the texts of the grammar

The grammar is stated here without the reader: by ranges of characters, by what the parts may be, and by the
text that parts are written as. The reader takes a text exactly if some parts are written so, and these parts
are then what it gives. No sign that separates two parts can be in a part before it, so a text is written
by one choice of parts only. A hyphen can be in a segment as well as in a version, but it does not separate
a part from the next.

* **`isNamespace_iff`**, **`isSegment_iff`**, **`isVersion_iff`** — the tests of the reader are the grammar's.
* **`parse?_eq_some_iff`** — what is read from a text.
-/

namespace ResourceLang.Reference

/-! ## The grammar -/

/-- A letter from `a` to `z` in either case. -/
def Letter (c : Char) : Prop := ('a' ≤ c ∧ c ≤ 'z') ∨ ('A' ≤ c ∧ c ≤ 'Z')

/-- A digit from `0` to `9`. -/
def Digit (c : Char) : Prop := '0' ≤ c ∧ c ≤ '9'

/-- A namespace has letters, digits and dots, at least one of them, and does not start with a dot. -/
structure NamespaceText (cs : List Char) : Prop where
  nonempty : cs ≠ []
  start : cs.head? ≠ some '.'
  chars : ∀ c ∈ cs, Letter c ∨ Digit c ∨ c = '.'

/-- A segment has letters, digits and hyphens, at least one of them. -/
structure SegmentText (cs : List Char) : Prop where
  nonempty : cs ≠ []
  chars : ∀ c ∈ cs, Letter c ∨ Digit c ∨ c = '-'

/-- A date has a year, a month and a day in four, two and two digits, with hyphens between. -/
inductive DateText : List Char → Prop where
  | mk {year month day : List Char} (hyear : year.length = 4) (hmonth : month.length = 2)
      (hday : day.length = 2) (hdigits : ∀ c ∈ year ++ month ++ day, Digit c) :
      DateText (year ++ '-' :: (month ++ '-' :: day))

/-- A version is a date, or a date, a hyphen and at least one letter or digit. -/
inductive VersionText : List Char → Prop where
  | date {cs : List Char} (h : DateText cs) : VersionText cs
  | tagged {cs tag : List Char} (h : DateText cs) (hne : tag ≠ [])
      (hchars : ∀ c ∈ tag, Letter c ∨ Digit c) : VersionText (cs ++ '-' :: tag)

/-- What the parts of a reference may be if it is to be read. -/
structure Readable (ns : String) (types : List String) (version : String) : Prop where
  ns : NamespaceText ns.toList
  types_ne_nil : types ≠ []
  segment : ∀ s ∈ types, SegmentText s.toList
  version : VersionText version.toList

/-- The text is written by the given parts: the namespace, each segment after a slash, and the version
    after an at sign. -/
structure Spells (text ns : String) (types : List String) (version : String) : Prop where
  readable : Readable ns types version
  text_eq : text = ns ++ String.join (types.map fun s => "/" ++ s) ++ "@" ++ version

/-! ## The tests of the reader -/

theorem isDigit_iff (c : Char) : c.isDigit = true ↔ Digit c := by
  show (decide ('0' ≤ c) && decide (c ≤ '9')) = true ↔ _
  rw [Bool.and_eq_true, decide_eq_true_iff, decide_eq_true_iff, Digit]

theorem isAlphanum_iff (c : Char) : c.isAlphanum = true ↔ Letter c ∨ Digit c := by
  have hupper : c.isUpper = true ↔ 'A' ≤ c ∧ c ≤ 'Z' := decide_eq_true_iff
  have hlower : c.isLower = true ↔ 'a' ≤ c ∧ c ≤ 'z' := by
    show (decide ('a' ≤ c) && decide (c ≤ 'z')) = true ↔ _
    rw [Bool.and_eq_true, decide_eq_true_iff, decide_eq_true_iff]
  show (c.isUpper || c.isLower || c.isDigit) = true ↔ _
  rw [Bool.or_eq_true, Bool.or_eq_true, isDigit_iff, hupper, hlower, Letter, or_comm (a := _ ∧ _)]

theorem not_alphanum_dot : ¬ (Letter '.' ∨ Digit '.') := by unfold Letter Digit; decide

theorem not_alphanum_slash : ¬ (Letter '/' ∨ Digit '/') := by unfold Letter Digit; decide

theorem not_alphanum_at : ¬ (Letter '@' ∨ Digit '@') := by unfold Letter Digit; decide

theorem isNamespace_iff (cs : List Char) : isNamespace cs = true ↔ NamespaceText cs := by
  cases cs with
  | nil =>
      constructor
      · intro h; exact nomatch h
      · intro h; exact absurd rfl h.nonempty
  | cons c cs =>
      rw [isNamespace, Bool.and_eq_true, isAlphanum_iff, List.all_eq_true]
      constructor
      · rintro ⟨hfirst, hrest⟩
        refine ⟨List.cons_ne_nil c cs, ?_, ?_⟩
        · intro hdot
          rw [Option.some.inj hdot] at hfirst
          exact not_alphanum_dot hfirst
        · intro d hd
          rcases List.mem_cons.mp hd with rfl | hd
          · exact hfirst.imp_right Or.inl
          · have hd' := hrest d hd
            rw [Bool.or_eq_true, isAlphanum_iff, beq_iff_eq, or_assoc] at hd'
            exact hd'
      · rintro ⟨-, hstart, hchars⟩
        constructor
        · rcases hchars c List.mem_cons_self with hletter | hdigit | rfl
          · exact Or.inl hletter
          · exact Or.inr hdigit
          · exact absurd rfl hstart
        · intro d hd
          rw [Bool.or_eq_true, isAlphanum_iff, beq_iff_eq, or_assoc]
          exact hchars d (List.mem_cons_of_mem c hd)

theorem isSegment_iff (cs : List Char) : isSegment cs = true ↔ SegmentText cs := by
  have hall : (cs.all fun c => c.isAlphanum || c == '-') = true ↔
      ∀ c ∈ cs, Letter c ∨ Digit c ∨ c = '-' := by
    rw [List.all_eq_true]
    refine forall₂_congr fun c _ => ?_
    rw [Bool.or_eq_true, isAlphanum_iff, beq_iff_eq, or_assoc]
  rw [isSegment, Bool.and_eq_true, hall, Bool.not_eq_true', List.isEmpty_eq_false_iff]
  constructor
  · rintro ⟨hne, hchars⟩
    exact ⟨hne, hchars⟩
  · rintro ⟨hne, hchars⟩
    exact ⟨hne, hchars⟩

theorem isDate_iff (cs : List Char) : isDate cs = true ↔ DateText cs := by
  constructor
  · intro h
    unfold isDate at h
    split at h
    · rename_i y₁ y₂ y₃ y₄ s₁ m₁ m₂ s₂ d₁ d₂
      rw [Bool.and_eq_true, Bool.and_eq_true, beq_iff_eq, beq_iff_eq, List.all_eq_true] at h
      obtain ⟨⟨hdigits, rfl⟩, rfl⟩ := h
      exact @DateText.mk [y₁, y₂, y₃, y₄] [m₁, m₂] [d₁, d₂] rfl rfl rfl
        fun c hc => (isDigit_iff c).mp (hdigits c hc)
    · exact nomatch h
  · rintro ⟨hyear, hmonth, hday, hdigits⟩
    rename_i year month day
    match year, hyear, month, hmonth, day, hday with
    | [y₁, y₂, y₃, y₄], _, [m₁, m₂], _, [d₁, d₂], _ =>
        show ([y₁, y₂, y₃, y₄, m₁, m₂, d₁, d₂].all Char.isDigit && '-' == '-' && '-' == '-') = true
        rw [Bool.and_eq_true, Bool.and_eq_true, List.all_eq_true]
        exact ⟨⟨fun c hc => (isDigit_iff c).mpr (hdigits c hc), rfl⟩, rfl⟩

theorem DateText.length {cs : List Char} (h : DateText cs) : cs.length = 10 := by
  obtain ⟨hyear, hmonth, hday, -⟩ := h
  rw [List.length_append, List.length_cons, List.length_append, List.length_cons]
  omega

theorem isTag_iff (cs : List Char) :
    isTag cs = true ↔
      cs = [] ∨ ∃ tag, tag ≠ [] ∧ (∀ c ∈ tag, Letter c ∨ Digit c) ∧ cs = '-' :: tag := by
  cases cs with
  | nil => exact ⟨fun _ => Or.inl rfl, fun _ => rfl⟩
  | cons c tag =>
      rw [isTag, Bool.and_eq_true, Bool.and_eq_true, beq_iff_eq, Bool.not_eq_true',
        List.isEmpty_eq_false_iff, List.all_eq_true]
      constructor
      · rintro ⟨⟨rfl, hne⟩, hchars⟩
        exact Or.inr ⟨tag, hne, fun d hd => (isAlphanum_iff d).mp (hchars d hd), rfl⟩
      · rintro (h | ⟨tag', hne, hchars, h⟩)
        · exact nomatch h
        · obtain ⟨rfl, rfl⟩ := List.cons.inj h
          exact ⟨⟨rfl, hne⟩, fun d hd => (isAlphanum_iff d).mpr (hchars d hd)⟩

theorem isVersion_iff (cs : List Char) : isVersion cs = true ↔ VersionText cs := by
  -- a date has ten characters, so the cut after the tenth is the one between date and tag
  rw [isVersion, Bool.and_eq_true, isDate_iff, isTag_iff]
  constructor
  · rintro ⟨hdate, htag⟩
    have hsplit := List.take_append_drop 10 cs
    rcases htag with hnil | ⟨tag, hne, hchars, htag⟩
    · rw [hnil, List.append_nil] at hsplit
      rw [hsplit] at hdate
      exact .date hdate
    · rw [htag] at hsplit
      rw [← hsplit]
      exact .tagged hdate hne hchars
  · rintro (hdate | ⟨hdate, hne, hchars⟩)
    · have hlength := hdate.length
      rw [List.take_of_length_le (by omega), List.drop_of_length_le (by omega)]
      exact ⟨hdate, Or.inl rfl⟩
    · rw [List.take_left' hdate.length, List.drop_left' hdate.length]
      exact ⟨hdate, Or.inr ⟨_, hne, hchars, rfl⟩⟩

/-! ## Signs that are in no part -/

/-- A sign that is neither a letter nor a digit is only in texts that admit it as such. -/
theorem not_mem_of_chars {cs : List Char} {sign admitted : Char}
    (h : ∀ c ∈ cs, Letter c ∨ Digit c ∨ c = admitted) (hsign : ¬ (Letter sign ∨ Digit sign))
    (hne : sign ≠ admitted) : sign ∉ cs := by
  intro hmem
  rcases h sign hmem with hletter | hdigit | heq
  · exact hsign (Or.inl hletter)
  · exact hsign (Or.inr hdigit)
  · exact hne heq

theorem DateText.chars {cs : List Char} (h : DateText cs) : ∀ c ∈ cs, Digit c ∨ c = '-' := by
  obtain ⟨-, -, -, hdigits⟩ := h
  intro c hc
  simp only [List.mem_append, List.mem_cons] at hc hdigits
  rcases hc with hc | hc | hc | hc | hc
  · exact Or.inl (hdigits c (Or.inl (Or.inl hc)))
  · exact Or.inr hc
  · exact Or.inl (hdigits c (Or.inl (Or.inr hc)))
  · exact Or.inr hc
  · exact Or.inl (hdigits c (Or.inr hc))

/-- A version has letters, digits and hyphens. -/
theorem VersionText.chars {cs : List Char} (h : VersionText cs) :
    ∀ c ∈ cs, Letter c ∨ Digit c ∨ c = '-' := by
  intro c hc
  cases h with
  | date hdate => exact Or.inr (hdate.chars c hc)
  | tagged hdate hne hchars =>
      rcases List.mem_append.mp hc with hc | hc
      · exact Or.inr (hdate.chars c hc)
      · rcases List.mem_cons.mp hc with rfl | hc
        · exact Or.inr (Or.inr rfl)
        · rcases hchars c hc with hletter | hdigit
          · exact Or.inl hletter
          · exact Or.inr (Or.inl hdigit)

/-! ## What is read -/

section Cut

variable {text ns version : String} {types : List String}

/-- The characters of a text that is written by the given parts. -/
theorem Spells.toList (h : Spells text ns types version) :
    text.toList =
      ns.toList ++ (types.flatMap fun s => '/' :: s.toList) ++ '@' :: version.toList := by
  rw [h.text_eq]
  simp [List.flatMap_map]

/-- At the at sign the text is cut into the version and what is before it. -/
theorem Readable.pieces_at (h : Readable ns types version) :
    pieces '@' (ns.toList ++ (types.flatMap fun s => '/' :: s.toList) ++ '@' :: version.toList) =
      (ns.toList ++ (types.flatMap fun s => '/' :: s.toList), [version.toList]) := by
  refine pieces_eq_iff.mpr ⟨by rw [List.flatMap_singleton], ?_, ?_⟩
  · intro hmem
    rcases List.mem_append.mp hmem with hmem | hmem
    · exact not_mem_of_chars h.ns.chars not_alphanum_at (by decide) hmem
    · obtain ⟨s, hs, hmem⟩ := List.mem_flatMap.mp hmem
      rcases List.mem_cons.mp hmem with hslash | hmem
      · exact absurd hslash (by decide)
      · exact not_mem_of_chars (h.segment s hs).chars not_alphanum_at (by decide) hmem
  · intro p hp
    rw [List.mem_singleton.mp hp]
    exact not_mem_of_chars h.version.chars not_alphanum_at (by decide)

/-- At the slashes the text before the at sign is cut into the namespace and the segments. -/
theorem Readable.pieces_slash (h : Readable ns types version) :
    pieces '/' (ns.toList ++ types.flatMap fun s => '/' :: s.toList) =
      (ns.toList, types.map String.toList) := by
  refine pieces_eq_iff.mpr ⟨by rw [List.flatMap_map], ?_, ?_⟩
  · exact not_mem_of_chars h.ns.chars not_alphanum_slash (by decide)
  · intro p hp
    obtain ⟨s, hs, rfl⟩ := List.mem_map.mp hp
    exact not_mem_of_chars (h.segment s hs).chars not_alphanum_slash (by decide)

/-- A text that is written by some parts is read as these parts. -/
theorem Spells.parse? (h : Spells text ns types version) :
    Reference.parse? text = some ⟨ns, types, version, h.readable.types_ne_nil⟩ := by
  have hns : isNamespace ns.toList = true := (isNamespace_iff _).mpr h.readable.ns
  have hversion : isVersion version.toList = true := (isVersion_iff _).mpr h.readable.version
  have htypes : (types.map String.toList).all isSegment = true := by
    rw [List.all_eq_true]
    intro cs hcs
    obtain ⟨s, hs, rfl⟩ := List.mem_map.mp hcs
    exact (isSegment_iff _).mpr (h.readable.segment s hs)
  have hofList : (types.map String.toList).map String.ofList = types := by
    rw [List.map_map]
    exact List.map_id'' (fun s => String.ofList_toList) types
  rw [Reference.parse?, h.toList, h.readable.pieces_at]
  simp only [h.readable.pieces_slash]
  cases types with
  | nil => exact absurd rfl h.readable.types_ne_nil
  | cons s rest =>
      rw [List.map_cons] at htypes hofList ⊢
      simp only [hns, htypes, hversion, Bool.and_true, hofList, String.ofList_toList, if_true]

end Cut

/-- **What is read from a text** is what it is written by. -/
theorem parse?_eq_some_iff (text : String) (r : Reference) :
    parse? text = some r ↔ Spells text r.ns r.types r.version := by
  constructor
  · intro h
    unfold parse? at h
    split at h
    · rename_i path version hat
      split at h
      · rename_i ns segment segments hslash
        split at h
        · rename_i htests
          rw [Bool.and_eq_true, Bool.and_eq_true] at htests
          obtain ⟨⟨hns, hsegments⟩, hversion⟩ := htests
          -- the pieces of both cuts put the text together again
          obtain ⟨htext, -, -⟩ := pieces_eq_iff.mp hat
          obtain ⟨hpath, -, -⟩ := pieces_eq_iff.mp hslash
          rw [← Option.some.inj h]
          refine ⟨⟨?_, by simp, ?_, ?_⟩, ?_⟩
          · rw [String.toList_ofList]
            exact (isNamespace_iff ns).mp hns
          · intro s hs
            obtain ⟨cs, hcs, rfl⟩ := List.mem_map.mp hs
            rw [String.toList_ofList]
            exact (isSegment_iff cs).mp (List.all_eq_true.mp hsegments cs hcs)
          · rw [String.toList_ofList]
            exact (isVersion_iff version).mp hversion
          · rw [← String.toList_inj, htext, hpath]
            simp [List.flatMap_map]
        · exact nomatch h
      · exact nomatch h
    · exact nomatch h
  · intro h
    exact h.parse?

end ResourceLang.Reference
