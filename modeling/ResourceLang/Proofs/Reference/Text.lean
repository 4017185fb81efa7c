import ResourceLang.Reference.Grammar

/-!
# Text of references — putting parts together and cutting them apart

The text of a reference is its namespace, each segment after a slash, and the version after an at sign. A
text that is put together in this way from pieces without the sign is cut at the sign into these pieces
again, and whatever a text is cut into puts it together.

* **`toList_text`** — the characters of the text of a reference.
* **`pieces_eq_iff`** — what a text is cut into.
* **`eq_of_beq_of_text_eq`** — equal references that are written alike are the same.
-/

namespace ResourceLang.Reference

/-! ## Putting together -/

/-- Texts with a slash before each are the joined texts after a slash. -/
theorem slash_cons_intercalate {types : List String} (h : types ≠ []) :
    '/' :: ("/".intercalate types).toList = types.flatMap fun s => '/' :: s.toList := by
  induction types with
  | nil => exact absurd rfl h
  | cons s rest ih =>
      cases rest with
      | nil => simp
      | cons t rest =>
          have hrest := ih (List.cons_ne_nil t rest)
          rw [List.flatMap_cons, ← hrest, String.intercalate_cons_cons]
          simp

/-- The characters of the text: the namespace, each segment after a slash, the version after an at sign. -/
theorem toList_text (r : Reference) :
    r.text.toList =
      r.ns.toList ++ (r.types.flatMap fun s => '/' :: s.toList) ++ '@' :: r.version.toList := by
  rw [text, fullName, ← slash_cons_intercalate r.types_ne_nil]
  simp

/-- Texts that are the same in lowercase have the same number of characters. -/
theorem length_eq_of_lowered_eq {a b : String} (h : Text.lowered a = Text.lowered b) :
    a.toList.length = b.toList.length := by
  have hchars := congrArg (fun s => s.toList.length) h
  simpa [Text.lowered] using hchars

/-- Segments that are the same in lowercase and put together alike are the same. -/
theorem types_eq_of_lowered_eq {types types' : List String}
    (hlowered : types.map Text.lowered = types'.map Text.lowered)
    (htext : (types.flatMap fun s => '/' :: s.toList) = types'.flatMap fun s => '/' :: s.toList) :
    types = types' := by
  induction types generalizing types' with
  | nil =>
      cases types' with
      | nil => rfl
      | cons s' rest' => exact nomatch hlowered
  | cons s rest ih =>
      cases types' with
      | nil => exact nomatch hlowered
      | cons s' rest' =>
          obtain ⟨hhead, htail⟩ := List.cons.inj hlowered
          rw [List.flatMap_cons, List.flatMap_cons] at htext
          have hlength : ('/' :: s.toList).length = ('/' :: s'.toList).length := by
            rw [List.length_cons, List.length_cons, length_eq_of_lowered_eq hhead]
          obtain ⟨hs, hrest⟩ := List.append_inj htext hlength
          rw [String.toList_inj.mp (List.cons.inj hs).2, ih htail hrest]

/-- **Equal references that are written alike are the same**: the case of letters is all that `==`
    passes over. -/
theorem eq_of_beq_of_text_eq {a b : Reference} (heq : (a == b) = true) (htext : a.text = b.text) :
    a = b := by
  obtain ⟨hns, hparts⟩ := Prod.mk.inj ((beq_iff_folded_eq a b).mp heq)
  obtain ⟨htypes, hversion⟩ := Prod.mk.inj hparts
  have hchars := congrArg String.toList htext
  rw [toList_text, toList_text, List.append_assoc, List.append_assoc] at hchars
  obtain ⟨hns', hrest⟩ := List.append_inj hchars (length_eq_of_lowered_eq hns)
  have hlength : ('@' :: a.version.toList).length = ('@' :: b.version.toList).length := by
    rw [List.length_cons, List.length_cons, length_eq_of_lowered_eq hversion]
  obtain ⟨htypes', hversion'⟩ := List.append_inj' hrest hlength
  obtain ⟨ns, types, version, hne⟩ := a
  obtain ⟨ns', types', version', hne'⟩ := b
  rw [mk.injEq]
  exact ⟨String.toList_inj.mp hns', types_eq_of_lowered_eq htypes htypes',
    String.toList_inj.mp (List.cons.inj hversion').2⟩

/-! ## Cutting apart -/

theorem pieces_cons (sign c : Char) (cs : List Char) :
    pieces sign (c :: cs) =
      if c = sign then ([], (pieces sign cs).1 :: (pieces sign cs).2)
      else (c :: (pieces sign cs).1, (pieces sign cs).2) := rfl

/-- The pieces put the text together, and the sign is in none of them. -/
theorem pieces_spec (sign : Char) (cs : List Char) :
    cs = (pieces sign cs).1 ++ ((pieces sign cs).2.flatMap fun p => sign :: p) ∧
      sign ∉ (pieces sign cs).1 ∧ ∀ p ∈ (pieces sign cs).2, sign ∉ p := by
  induction cs with
  | nil => exact ⟨rfl, List.not_mem_nil, nofun⟩
  | cons c cs ih =>
      obtain ⟨htext, hfirst, hothers⟩ := ih
      rw [pieces_cons]
      by_cases hc : c = sign
      · rw [if_pos hc]
        refine ⟨?_, List.not_mem_nil, ?_⟩
        · rw [List.flatMap_cons, List.nil_append, List.cons_append, hc, ← htext]
        · intro p hp
          rcases List.mem_cons.mp hp with rfl | hp
          · exact hfirst
          · exact hothers p hp
      · rw [if_neg hc]
        refine ⟨?_, ?_, hothers⟩
        · rw [List.cons_append, ← htext]
        · intro hmem
          rcases List.mem_cons.mp hmem with rfl | hmem
          · exact hc rfl
          · exact hfirst hmem

/-- A piece without the sign goes before the first cut of what follows. -/
theorem pieces_append {sign : Char} {first : List Char} (h : sign ∉ first) (cs : List Char) :
    pieces sign (first ++ cs) = (first ++ (pieces sign cs).1, (pieces sign cs).2) := by
  induction first with
  | nil => rfl
  | cons c first ih =>
      have hc : c ≠ sign := fun hc => h (hc ▸ List.mem_cons_self)
      have hrest : sign ∉ first := List.not_mem_of_not_mem_cons h
      rw [List.cons_append, pieces_cons, if_neg hc, ih hrest]
      rfl

/-- Pieces with the sign before each are cut into these pieces. -/
theorem pieces_flatMap {sign : Char} {others : List (List Char)} (h : ∀ p ∈ others, sign ∉ p) :
    pieces sign (others.flatMap fun p => sign :: p) = ([], others) := by
  induction others with
  | nil => rfl
  | cons p rest ih =>
      have hp : sign ∉ p := h p List.mem_cons_self
      have hrest := ih fun q hq => h q (List.mem_cons_of_mem p hq)
      rw [List.flatMap_cons, List.cons_append, pieces_cons, if_pos rfl, pieces_append hp, hrest,
        List.append_nil]

/-- **What a text is cut into**: the pieces without the sign that put it together. -/
theorem pieces_eq_iff {sign : Char} {cs first : List Char} {others : List (List Char)} :
    pieces sign cs = (first, others) ↔
      cs = first ++ (others.flatMap fun p => sign :: p) ∧ sign ∉ first ∧ ∀ p ∈ others, sign ∉ p := by
  constructor
  · intro h
    have hspec := pieces_spec sign cs
    rw [h] at hspec
    exact hspec
  · rintro ⟨rfl, hfirst, hothers⟩
    rw [pieces_append hfirst, pieces_flatMap hothers, List.append_nil]

/-- Cutting is splitting a list at the sign, with the first piece apart. -/
theorem splitOn_eq_pieces (sign : Char) (cs : List Char) :
    cs.splitOn sign = (pieces sign cs).1 :: (pieces sign cs).2 := by
  rw [List.splitOn]
  induction cs with
  | nil => rfl
  | cons c cs ih =>
      rw [List.splitOnP_cons_eq_if_modifyHead, ih, pieces_cons]
      by_cases hc : c = sign
      · rw [if_pos hc, if_pos (beq_iff_eq.mpr hc)]
      · rw [if_neg hc, if_neg (fun h => hc (beq_iff_eq.mp h)), List.modifyHead_cons]

end ResourceLang.Reference
