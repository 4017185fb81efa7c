import Mathlib.Data.List.Induction
import ResourceLang.Proofs.Ty.Acceptance
import ResourceLang.Proofs.Ty.Union
import ResourceLang.Ty.Name

/-!
# Names that tell types apart — read from the end

A name is read from its end. There stand the brackets of the array that was made last, the quote that closes a text,
or the last letter of a keyword, and each of them tells how far what it ends reaches to the left. So of types that
are no unions, no name is the end of another one. (Many are the beginning of another one: that of any type begins the
name of its array.) The members of a union can then be read one by one, from the last to the first, as long as there
is a bar before them, and the parentheses around a union of items tell where its first member begins.

This takes types whose names say all there is to them. Objects and resources are named as one likes, validation flags
are not written, and a text with a quote in it could be written like two texts.

* **`readFromEnd_of_writtenOut`** — a type that is no union, and the place where its name begins, from the end of
  the name.
* **`eq_of_membersBackwards_append`** — the members of a union, from the end of its name.
* **`eq_of_name_eq`** — types with one name are the same.
-/

namespace ResourceLang.Ty

/-- The types whose names say all there is to them. -/
inductive WrittenOut : Ty → Prop where
  | any : WrittenOut any
  | primitive (kind : PrimitiveKind) : WrittenOut (primitive kind .none)
  | literal {value : String} (hquote : '\'' ∉ value.toList) : WrittenOut (literal value)
  | array {item : Ty} (hitem : WrittenOut item) : WrittenOut (array item)
  | union {members : List Ty} (hmembers : ∀ m ∈ members, WrittenOut m) (hcanonical : DistinctAlternatives members) :
      WrittenOut (union members)

/-- The type has such a name and is no union. -/
structure WrittenAlone (t : Ty) : Prop where
  writtenOut : t.WrittenOut
  ne_union : ∀ members, t ≠ union members

/-- The types that are written as one keyword. -/
def keywords : List Ty := [any, string, int, bool, null, anyArray]

/-- The characters of the name, from the last to the first. -/
def backwards (t : Ty) : List Char := t.name.toList.reverse

/-- The characters of the names of members with bars between them, from the last to the first. -/
def membersBackwards (members : List Ty) : List Char := (unionName members).toList.reverse

/-- The characters before a member, from the last to the first: a bar, if there are members before it. -/
def beforeMember : List Ty → List Char
  | [] => []
  | earlier => ' ' :: '|' :: ' ' :: membersBackwards earlier

/-- The characters of an item before the brackets of its array, from the last to the first: a union stands between
    parentheses. -/
def itemBackwards : Ty → List Char
  | union members => ')' :: (membersBackwards members ++ ['('])
  | item => item.backwards

/-- The name of the type, read from its end, tells which type it is and where the name begins. -/
def ReadFromEnd (t : Ty) : Prop :=
  ∀ u : Ty, u.WrittenAlone → ∀ rest rest' : List Char, t.backwards ++ rest = u.backwards ++ rest' →
    t = u ∧ rest = rest'

/-! ## Names backwards -/

theorem backwards_literal (value : String) :
    (literal value).backwards = '\'' :: (value.toList.reverse ++ ['\'']) := by
  rw [backwards, name, String.toList_append, String.toList_append, List.reverse_append, List.reverse_append]
  rfl

/-- The name of an array ends in its brackets, unless it is the abbreviation. -/
theorem backwards_array {item : Ty} (hany : item ≠ any) :
    (array item).backwards = ']' :: '[' :: item.itemBackwards := by
  cases item with
  | any => exact absurd rfl hany
  | union members =>
      show ("(" ++ unionName members ++ ")[]").toList.reverse = _
      rw [String.toList_append, String.toList_append, List.reverse_append, List.reverse_append]
      rfl
  | _ =>
      show (_ ++ "[]").toList.reverse = _
      rw [String.toList_append, List.reverse_append]
      rfl

theorem itemBackwards_of_ne_union {item : Ty} (h : ∀ members, item ≠ union members) :
    item.itemBackwards = item.backwards := by
  cases item with
  | union members => exact absurd rfl (h members)
  | _ => rfl

/-- Every type is written like the union of its alternatives. -/
theorem name_eq_unionName (t : Ty) : t.name = unionName t.alternatives := by
  cases t <;> rfl

theorem unionName_concat {members : List Ty} (h : members ≠ []) (last : Ty) :
    unionName (members ++ [last]) = unionName members ++ " | " ++ last.name := by
  induction members with
  | nil => exact absurd rfl h
  | cons m rest ih =>
      cases rest with
      | nil => rfl
      | cons m' rest =>
          have hlater := ih (List.cons_ne_nil m' rest)
          show m.name ++ " | " ++ unionName (m' :: rest ++ [last]) = m.name ++ " | " ++ unionName (m' :: rest) ++ _ ++ _
          rw [hlater]
          simp only [String.append_assoc]

/-- The last member is read first. -/
theorem membersBackwards_concat (members : List Ty) (last : Ty) :
    membersBackwards (members ++ [last]) = last.backwards ++ beforeMember members := by
  cases members with
  | nil => exact (List.append_nil last.backwards).symm
  | cons m rest =>
      rw [membersBackwards, unionName_concat (List.cons_ne_nil m rest), String.toList_append, String.toList_append,
        List.reverse_append, List.reverse_append]
      rfl

/-! ## Where names end -/

section Endings

variable {t u : Ty}

/-- A type that is no union is written as a keyword, or its name ends in a quote or in brackets. -/
theorem ending_of_writtenAlone (h : t.WrittenAlone) :
    t ∈ keywords ∨ (∃ value, '\'' ∉ value.toList ∧ t = literal value) ∨ ∃ item, item.WrittenOut ∧ item ≠ any ∧
      t = array item := by
  cases h.writtenOut with
  | any => exact Or.inl List.mem_cons_self
  | primitive kind =>
      left
      cases kind <;> simp [keywords, string, int, bool, null]
  | literal hquote => exact Or.inr (Or.inl ⟨_, hquote, rfl⟩)
  | @array item hitem =>
      by_cases hany : item = any
      · left
        simp [hany, keywords, anyArray]
      · exact Or.inr (Or.inr ⟨item, hitem, hany, rfl⟩)
  | @union members _ _ => exact absurd rfl (h.ne_union members)

/-- Keywords end in one of four letters. -/
theorem exists_letter_of_keyword (h : t ∈ keywords) :
    ∃ letter earlier, t.backwards = letter :: earlier ∧ letter ∈ ['y', 'g', 't', 'l'] := by
  simp only [keywords, List.mem_cons, List.not_mem_nil, or_false] at h
  rcases h with rfl | rfl | rfl | rfl | rfl | rfl <;> exact ⟨_, _, rfl, by decide⟩

/-- What ends in another character does not end in a keyword. -/
theorem keyword_append_ne {c : Char} (h : t ∈ keywords) (hc : c ∉ ['y', 'g', 't', 'l']) {rest chars : List Char} :
    t.backwards ++ rest ≠ c :: chars := by
  intro heq
  obtain ⟨letter, earlier, hname, hletter⟩ := exists_letter_of_keyword h
  rw [hname] at heq
  exact hc ((List.cons.inj heq).1 ▸ hletter)

/-- What does not end like a keyword, a text or an array does not end in the name of a type that is no union. -/
theorem writtenAlone_append_ne {c : Char} (h : t.WrittenAlone) (hc : c ∉ ['y', 'g', 't', 'l', '\'', ']'])
    {rest chars : List Char} : t.backwards ++ rest ≠ c :: chars := by
  rcases ending_of_writtenAlone h with hkeyword | ⟨value, -, rfl⟩ | ⟨item, -, hany, rfl⟩
  · exact keyword_append_ne hkeyword fun hletter => hc (List.mem_append_left ['\'', ']'] hletter)
  · intro heq
    rw [backwards_literal] at heq
    exact hc ((List.cons.inj heq).1 ▸ by decide)
  · intro heq
    rw [backwards_array hany] at heq
    exact hc ((List.cons.inj heq).1 ▸ by decide)

/-- No keyword is the end of another one. -/
theorem keyword_eq_of_append (ht : t ∈ keywords) (hu : u ∈ keywords) {rest rest' : List Char}
    (h : t.backwards ++ rest = u.backwards ++ rest') : t = u := by
  have happart : ∀ a ∈ keywords, ∀ b ∈ keywords, a.backwards <+: b.backwards → a.identical b = true := by decide
  have hends : u.backwards <+: t.backwards ++ rest := h ▸ List.prefix_append u.backwards rest'
  rcases List.prefix_or_prefix_of_prefix (List.prefix_append t.backwards rest) hends with hprefix | hprefix
  · exact (identical_iff t u).mp (happart t ht u hu hprefix)
  · exact ((identical_iff u t).mp (happart u hu t ht hprefix)).symm

end Endings

/-- A text without quotes reaches up to the first quote. -/
theorem eq_of_append_quote {a b rest rest' : List Char} (ha : '\'' ∉ a) (hb : '\'' ∉ b)
    (h : a ++ '\'' :: rest = b ++ '\'' :: rest') : a = b ∧ rest = rest' := by
  induction a generalizing b with
  | nil =>
      cases b with
      | nil => exact ⟨rfl, (List.cons.inj h).2⟩
      | cons c b => exact absurd ((List.cons.inj h).1 ▸ List.mem_cons_self) hb
  | cons c a ih =>
      cases b with
      | nil => exact absurd ((List.cons.inj h).1 ▸ List.mem_cons_self) ha
      | cons c' b =>
          obtain ⟨rfl, htail⟩ := List.cons.inj h
          obtain ⟨rfl, hrest⟩ := ih (List.not_mem_of_not_mem_cons ha) (List.not_mem_of_not_mem_cons hb) htail
          exact ⟨rfl, hrest⟩

/-! ## Keywords and texts -/

theorem readFromEnd_of_keyword {t : Ty} (ht : t ∈ keywords) : t.ReadFromEnd := by
  intro u hu rest rest' h
  rcases ending_of_writtenAlone hu with hkeyword | ⟨value, -, rfl⟩ | ⟨item, -, hany, rfl⟩
  · obtain rfl := keyword_eq_of_append ht hkeyword h
    exact ⟨rfl, List.append_cancel_left h⟩
  · rw [backwards_literal] at h
    exact absurd h (keyword_append_ne ht (by decide))
  · rw [backwards_array hany] at h
    exact absurd h (keyword_append_ne ht (by decide))

theorem readFromEnd_literal {value : String} (hquote : '\'' ∉ value.toList) : (literal value).ReadFromEnd := by
  intro u hu rest rest' h
  rw [backwards_literal] at h
  rcases ending_of_writtenAlone hu with hkeyword | ⟨value', hquote', rfl⟩ | ⟨item, -, hany, rfl⟩
  · exact absurd h.symm (keyword_append_ne hkeyword (by decide))
  · rw [backwards_literal] at h
    simp only [List.cons_append, List.append_assoc, List.cons.injEq, true_and] at h
    obtain ⟨hvalue, hrest⟩ := eq_of_append_quote (List.mem_reverse.not.mpr hquote) (List.mem_reverse.not.mpr hquote') h
    exact ⟨congrArg literal (String.toList_injective (List.reverse_injective hvalue)), hrest⟩
  · rw [backwards_array hany] at h
    exact absurd (List.cons.inj h).1 (by decide)

/-! ## Members and items -/

/-- `never` is not the end of the name of a member. -/
theorem membersBackwards_nil_ne {ns : List Ty} {n : Ty} (hn : n.WrittenAlone) {rest rest' : List Char} :
    membersBackwards [] ++ rest ≠ membersBackwards (ns ++ [n]) ++ rest' := by
  rw [membersBackwards_concat, List.append_assoc]
  exact (writtenAlone_append_ne hn (by decide)).symm

/-- **The members of a union are read from the last to the first**, up to the one without a bar before it. -/
theorem eq_of_membersBackwards_append {ms ns : List Ty} (hread : ∀ m ∈ ms, m.ReadFromEnd)
    (hms : ∀ m ∈ ms, m.WrittenAlone) (hns : ∀ n ∈ ns, n.WrittenAlone) {rest rest' : List Char}
    (hrest : rest.head? ≠ some ' ') (hrest' : rest'.head? ≠ some ' ')
    (h : membersBackwards ms ++ rest = membersBackwards ns ++ rest') : ms = ns ∧ rest = rest' := by
  induction ms using List.reverseRecOn generalizing ns with
  | nil =>
      cases ns using List.reverseRecOn with
      | nil => exact ⟨rfl, List.append_cancel_left h⟩
      | append_singleton ns n _ => exact absurd h (membersBackwards_nil_ne (hns n List.mem_concat_self))
  | append_singleton ms m ih =>
      have hm : m ∈ ms ++ [m] := List.mem_concat_self
      cases ns using List.reverseRecOn with
      | nil => exact absurd h.symm (membersBackwards_nil_ne (hms m hm))
      | append_singleton ns n _ =>
          rw [membersBackwards_concat, membersBackwards_concat, List.append_assoc, List.append_assoc] at h
          obtain ⟨rfl, hbefore⟩ := hread m hm n (hns n List.mem_concat_self) _ _ h
          -- a bar on one side only would stand at the beginning of what is left on the other
          cases ms with
          | nil =>
              cases ns with
              | nil => exact ⟨rfl, hbefore⟩
              | cons n' ns => exact absurd (congrArg List.head? hbefore) hrest
          | cons m' ms =>
              cases ns with
              | nil => exact absurd (congrArg List.head? hbefore.symm) hrest'
              | cons n' ns =>
                  have hearlier := (List.cons.inj (List.cons.inj (List.cons.inj hbefore).2).2).2
                  obtain ⟨heq, hsame⟩ := ih (fun m' hm' => hread m' (List.mem_append_left _ hm'))
                    (fun m' hm' => hms m' (List.mem_append_left _ hm'))
                    (fun n' hn' => hns n' (List.mem_append_left _ hn')) hearlier
                  exact ⟨by rw [heq], hsame⟩

/-- The alternatives of a type whose name says all have such names and are no unions. -/
theorem writtenAlone_of_mem_alternatives {t a : Ty} (ht : t.WrittenOut) (ha : a ∈ t.alternatives) :
    a.WrittenAlone := by
  rcases mem_alternatives ha with ⟨rfl, hne⟩ | ⟨members, rfl, hmem⟩
  · exact ⟨ht, hne⟩
  · cases ht with
    | union hmembers hcanonical =>
        refine ⟨hmembers a hmem, ?_⟩
        rintro inner rfl
        exact hcanonical.no_union inner hmem

/-- Only unions stand between parentheses. -/
theorem itemBackwards_ne_of_writtenAlone {item : Ty} (h : item.WrittenAlone) {rest rest' : List Char} :
    ')' :: rest ≠ item.itemBackwards ++ rest' := by
  rw [itemBackwards_of_ne_union h.ne_union]
  exact (writtenAlone_append_ne h (by decide)).symm

/-- **The item of an array** is read from the brackets on, given that its alternatives are. -/
theorem eq_of_itemBackwards_append {item item' : Ty} (hread : ∀ a ∈ item.alternatives, a.ReadFromEnd)
    (hitem : item.WrittenOut) (hitem' : item'.WrittenOut) {rest rest' : List Char}
    (h : item.itemBackwards ++ rest = item'.itemBackwards ++ rest') : item = item' ∧ rest = rest' := by
  by_cases hunion : ∃ ms, item = union ms
  · obtain ⟨ms, rfl⟩ := hunion
    by_cases hunion' : ∃ ns, item' = union ns
    · obtain ⟨ns, rfl⟩ := hunion'
      simp only [itemBackwards, List.cons_append, List.append_assoc, List.cons.injEq, true_and] at h
      obtain ⟨rfl, hrest⟩ := eq_of_membersBackwards_append hread
        (fun m hm => writtenAlone_of_mem_alternatives hitem hm)
        (fun n hn => writtenAlone_of_mem_alternatives hitem' hn) (by simp) (by simp) h
      exact ⟨rfl, (List.cons.inj hrest).2⟩
    · exact absurd h (itemBackwards_ne_of_writtenAlone ⟨hitem', not_exists.mp hunion'⟩)
  · have hne := not_exists.mp hunion
    by_cases hunion' : ∃ ns, item' = union ns
    · obtain ⟨ns, rfl⟩ := hunion'
      exact absurd h.symm (itemBackwards_ne_of_writtenAlone ⟨hitem, hne⟩)
    · have hne' := not_exists.mp hunion'
      rw [itemBackwards_of_ne_union hne, itemBackwards_of_ne_union hne'] at h
      rw [alternatives_of_ne_union hne, List.forall_mem_singleton] at hread
      exact hread item' ⟨hitem', hne'⟩ rest rest' h

theorem readFromEnd_array {item : Ty} (hread : ∀ a ∈ item.alternatives, a.ReadFromEnd) (hitem : item.WrittenOut) :
    (array item).ReadFromEnd := by
  by_cases hany : item = any
  · exact readFromEnd_of_keyword (by simp [hany, keywords, anyArray])
  · intro u hu rest rest' h
    rw [backwards_array hany] at h
    rcases ending_of_writtenAlone hu with hkeyword | ⟨value, -, rfl⟩ | ⟨item', hitem', hany', rfl⟩
    · exact absurd h.symm (keyword_append_ne hkeyword (by decide))
    · rw [backwards_literal] at h
      exact absurd (List.cons.inj h).1 (by decide)
    · rw [backwards_array hany'] at h
      obtain ⟨rfl, hrest⟩ := eq_of_itemBackwards_append hread hitem hitem'
        (List.cons.inj (List.cons.inj h).2).2
      exact ⟨rfl, hrest⟩

/-! ## Names -/

/-- **Types that are no unions are read from the end**, by induction on how their names are made. -/
theorem readFromEnd_of_writtenOut {t : Ty} (h : t.WrittenOut) : ∀ a ∈ t.alternatives, a.ReadFromEnd := by
  induction h with
  | any => exact List.forall_mem_singleton.mpr (readFromEnd_of_keyword List.mem_cons_self)
  | primitive kind =>
      refine List.forall_mem_singleton.mpr (readFromEnd_of_keyword ?_)
      cases kind <;> simp [keywords, string, int, bool, null]
  | literal hquote => exact List.forall_mem_singleton.mpr (readFromEnd_literal hquote)
  | array hitem ih => exact List.forall_mem_singleton.mpr (readFromEnd_array ih hitem)
  | @union members hmembers hcanonical ih =>
      intro m hm
      have halone := writtenAlone_of_mem_alternatives (.union hmembers hcanonical) hm
      refine ih m hm m ?_
      rw [alternatives_of_ne_union halone.ne_union]
      exact List.mem_cons_self

/-- A type is given by its alternatives. -/
theorem WrittenOut.ofAlternatives_alternatives {t : Ty} (h : t.WrittenOut) : ofAlternatives t.alternatives = t := by
  cases h with
  | @union members _ hcanonical =>
      rcases ofAlternatives_cases members with ⟨m, hsingle, -⟩ | ⟨-, hmake⟩
      · exact absurd (congrArg List.length hsingle) hcanonical.not_single
      · exact hmake
  | _ => rfl

/-- **Types with one name are the same**, if their names say all there is to them. -/
theorem eq_of_name_eq {t u : Ty} (ht : t.WrittenOut) (hu : u.WrittenOut) (h : t.name = u.name) : t = u := by
  have hnames : membersBackwards t.alternatives ++ [] = membersBackwards u.alternatives ++ [] := by
    rw [membersBackwards, membersBackwards, ← name_eq_unionName, ← name_eq_unionName, h]
  obtain ⟨halternatives, -⟩ := eq_of_membersBackwards_append (readFromEnd_of_writtenOut ht)
    (fun a => writtenAlone_of_mem_alternatives ht) (fun a => writtenAlone_of_mem_alternatives hu) (by simp) (by simp)
    hnames
  calc t = ofAlternatives t.alternatives := ht.ofAlternatives_alternatives.symm
    _ = ofAlternatives u.alternatives := by rw [halternatives]
    _ = u := hu.ofAlternatives_alternatives

/-- A union of types whose names say all is such a type. -/
theorem writtenOut_unionOf {types : List Ty} (h : ∀ t ∈ types, t.WrittenOut) : (unionOf types).WrittenOut := by
  have hcanonical : ∀ t ∈ types, t.UnionCanonical := by
    intro t ht
    cases h t ht with
    | union _ hcanonical => exact hcanonical
    | _ => trivial
  refine unionOf_of_alternatives hcanonical .any (fun _ hdistinct hmembers => .union hmembers hdistinct) ?_
  intro t ht a ha
  exact (writtenAlone_of_mem_alternatives (h t ht) ha).writtenOut

/-- Lists of a text that reads like a union, of lists of anything, or of lists of these. -/
def listing : Ty := array (unionOf [literal "int | (any)[]", unionOf [anyArray, array anyArray]])

/-- The same lists, put together in another way. -/
def relisting : Ty := array (unionOf [unionOf [literal "int | (any)[]", anyArray], array anyArray, anyArray])

/-- Both have one name, and so they are the same. -/
theorem listing_eq_relisting :
    listing.WrittenOut ∧ relisting.WrittenOut ∧ listing.name = "('int | (any)[]' | array | array[])[]" ∧
      listing.name = relisting.name ∧ listing = relisting := by
  have htext : (literal "int | (any)[]").WrittenOut := .literal (by decide)
  have hlists : anyArray.WrittenOut := .array .any
  have hnested : (array anyArray).WrittenOut := .array hlists
  have hlisting : listing.WrittenOut := by
    refine .array (writtenOut_unionOf (List.forall_mem_cons.mpr ⟨htext, List.forall_mem_singleton.mpr ?_⟩))
    exact writtenOut_unionOf (List.forall_mem_cons.mpr ⟨hlists, List.forall_mem_singleton.mpr hnested⟩)
  have hrelisting : relisting.WrittenOut := by
    have hinner : (unionOf [literal "int | (any)[]", anyArray]).WrittenOut :=
      writtenOut_unionOf (List.forall_mem_cons.mpr ⟨htext, List.forall_mem_singleton.mpr hlists⟩)
    refine .array (writtenOut_unionOf (List.forall_mem_cons.mpr ⟨hinner, List.forall_mem_cons.mpr ?_⟩))
    exact ⟨hnested, List.forall_mem_singleton.mpr hlists⟩
  have hname : listing.name = relisting.name := by decide
  exact ⟨hlisting, hrelisting, by decide, hname, eq_of_name_eq hlisting hrelisting hname⟩

/-- A text with quotes can be written like a union of two texts. -/
example : (literal "cold' | 'hot").name = (union [literal "cold", literal "hot"]).name := by decide

end ResourceLang.Ty
