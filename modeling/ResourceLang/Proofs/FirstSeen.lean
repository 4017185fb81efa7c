import Mathlib.Data.List.Forall2

/-!
# First occurrences — lists without a second item of any kind

An equivalence `==` sorts the items of a list into classes. `firsts seen items` keeps of each class the first
item, unless `seen` has one already, so it reads a list from left to right with all that came before in view.
It can be taken piece by piece, and taking it of some pieces beforehand changes nothing.

* **`exists_mem_firsts_iff`** — what equal items have in common can be looked for among first occurrences.
* **`forall₂_firsts`** — lists that are equal item by item have first occurrences that are.
* **`firsts_flatten`** — first occurrences of lists put together, of which each has its own taken already.
* **`eraseDups_eq_firsts`** — `List.eraseDups` gives the first occurrences.
* **`exists_perm_of_among_eq`** — lists without a second item that have the same classes differ in order and
  in the choice of an item from each class.
-/

namespace ResourceLang

variable {α : Type} [BEq α]

/-- Whether an item of the list is equal to `x`. -/
def among (items : List α) (x : α) : Bool := items.any fun item => item == x

/-- The items to which none of `seen` and none before them is equal. -/
def firsts (seen : List α) : List α → List α
  | [] => []
  | x :: rest => if among seen x then firsts (seen ++ [x]) rest else x :: firsts (seen ++ [x]) rest

/-- No two items are equal. -/
def Distinct (items : List α) : Prop := items.Pairwise fun a b => (a == b) = false

theorem among_nil (x : α) : among [] x = false := rfl

theorem among_cons (a : α) (items : List α) (x : α) : among (a :: items) x = (a == x || among items x) := rfl

theorem among_append (items items' : List α) (x : α) :
    among (items ++ items') x = (among items x || among items' x) := List.any_append

theorem among_eq_true_iff {items : List α} {x : α} :
    among items x = true ↔ ∃ item ∈ items, (item == x) = true := List.any_eq_true

theorem among_eq_false_iff {items : List α} {x : α} :
    among items x = false ↔ ∀ item ∈ items, (item == x) = false := by
  rw [among, List.any_eq_false]
  exact forall₂_congr fun item _ => iff_of_eq (Bool.not_eq_true (item == x))

private theorem firsts_cons_of_among {seen : List α} {x : α} (h : among seen x = true) (rest : List α) :
    firsts seen (x :: rest) = firsts (seen ++ [x]) rest := if_pos h

private theorem firsts_cons_of_not_among {seen : List α} {x : α} (h : among seen x = false)
    (rest : List α) : firsts seen (x :: rest) = x :: firsts (seen ++ [x]) rest :=
  if_neg (by rw [h]; exact Bool.false_ne_true)

/-- The second of two lists is read with the first one in view. -/
theorem firsts_append (seen items items' : List α) :
    firsts seen (items ++ items') = firsts seen items ++ firsts (seen ++ items) items' := by
  induction items generalizing seen with
  | nil => rw [List.append_nil]; rfl
  | cons x rest ih =>
      rw [List.cons_append, List.append_cons]
      cases hx : among seen x with
      | true => rw [firsts_cons_of_among hx, firsts_cons_of_among hx, ih]
      | false => rw [firsts_cons_of_not_among hx, firsts_cons_of_not_among hx, ih, List.cons_append]

/-- What was seen counts only by the classes it has items of. -/
theorem firsts_congr {seen seen' : List α} (h : ∀ x, among seen x = among seen' x) (items : List α) :
    firsts seen items = firsts seen' items := by
  induction items generalizing seen seen' with
  | nil => rfl
  | cons x rest ih =>
      have hrest : firsts (seen ++ [x]) rest = firsts (seen' ++ [x]) rest := by
        refine ih fun y => ?_
        rw [among_append, among_append, h]
      cases hx : among seen x with
      | true => rw [firsts_cons_of_among hx, firsts_cons_of_among (h x ▸ hx), hrest]
      | false => rw [firsts_cons_of_not_among hx, firsts_cons_of_not_among (h x ▸ hx), hrest]

theorem firsts_sublist (seen items : List α) : (firsts seen items).Sublist items := by
  induction items generalizing seen with
  | nil => exact List.Sublist.refl []
  | cons x rest ih =>
      cases hx : among seen x with
      | true => rw [firsts_cons_of_among hx]; exact (ih (seen ++ [x])).cons x
      | false => rw [firsts_cons_of_not_among hx]; exact (ih (seen ++ [x])).cons_cons x

/-- First occurrences are distinct, and distinct from what was seen. -/
theorem distinct_firsts (seen items : List α) :
    Distinct (firsts seen items) ∧ ∀ x ∈ firsts seen items, among seen x = false := by
  induction items generalizing seen with
  | nil => exact ⟨List.Pairwise.nil, fun x hx => nomatch hx⟩
  | cons y rest ih =>
      obtain ⟨hdistinct, hseen⟩ := ih (seen ++ [y])
      have hapart : ∀ x ∈ firsts (seen ++ [y]) rest, among seen x = false ∧ (y == x) = false := by
        intro x hx
        have h := hseen x hx
        rw [among_append, Bool.or_eq_false_iff, among_cons, Bool.or_eq_false_iff] at h
        exact ⟨h.1, h.2.1⟩
      cases hy : among seen y with
      | true =>
          rw [firsts_cons_of_among hy]
          exact ⟨hdistinct, fun x hx => (hapart x hx).1⟩
      | false =>
          rw [firsts_cons_of_not_among hy]
          refine ⟨List.pairwise_cons.mpr ⟨fun x hx => (hapart x hx).2, hdistinct⟩, ?_⟩
          intro x hx
          rcases List.mem_cons.mp hx with rfl | hx
          · exact hy
          · exact (hapart x hx).1

section Equivalence

variable [EquivBEq α]

/-- Equal items are among the same lists. -/
theorem among_congr (items : List α) {x y : α} (h : (x == y) = true) : among items x = among items y := by
  induction items with
  | nil => rfl
  | cons a rest ih => rw [among_cons, among_cons, ih, BEq.congr_right h]

/-- An item of a class that was seen adds nothing to the classes seen. -/
theorem among_append_of_among {seen : List α} {x : α} (h : among seen x = true) (y : α) :
    among (seen ++ [x]) y = among seen y := by
  rw [among_append, among_cons, among_nil, Bool.or_false]
  cases hxy : x == y with
  | false => rw [Bool.or_false]
  | true => rw [← among_congr seen hxy, h]; rfl

/-- The first occurrences have an item of every class. -/
theorem among_append_firsts (seen items : List α) (x : α) :
    among (seen ++ firsts seen items) x = among (seen ++ items) x := by
  induction items generalizing seen with
  | nil => rfl
  | cons y rest ih =>
      cases hy : among seen y with
      | true =>
          have hseen := among_append_of_among hy
          rw [firsts_cons_of_among hy, List.append_cons seen y rest, ← ih, among_append, among_append,
            hseen]
      | false => rw [firsts_cons_of_not_among hy, List.append_cons, ih, ← List.append_cons]

theorem among_firsts (items : List α) (x : α) : among (firsts [] items) x = among items x :=
  among_append_firsts [] items x

/-- Each item is equal to one of the first occurrences. -/
theorem exists_first {items : List α} {x : α} (hx : x ∈ items) : ∃ first ∈ firsts [] items, (first == x) = true := by
  rw [← among_eq_true_iff, among_firsts, among_eq_true_iff]
  exact ⟨x, hx, BEq.refl x⟩

/-- What holds of equal items alike holds of some item if it holds of a first occurrence. -/
theorem exists_mem_firsts_iff {p : α → Prop}
    (hp : ∀ a b, (a == b) = true → p b → p a) (items : List α) :
    (∃ a ∈ firsts [] items, p a) ↔ ∃ a ∈ items, p a := by
  constructor
  · rintro ⟨a, ha, h⟩
    exact ⟨a, (firsts_sublist [] items).subset ha, h⟩
  · rintro ⟨a, ha, h⟩
    obtain ⟨first, hfirst, hequal⟩ := exists_first ha
    exact ⟨first, hfirst, hp first a hequal h⟩

/-- What holds of equal items alike holds of all items if it holds of the first occurrences. -/
theorem forall_mem_firsts_iff {p : α → Prop}
    (hp : ∀ a b, (a == b) = true → p a → p b) (items : List α) :
    (∀ a ∈ firsts [] items, p a) ↔ ∀ a ∈ items, p a := by
  constructor
  · intro h a ha
    obtain ⟨first, hfirst, hequal⟩ := exists_first ha
    exact hp first a hequal (h first hfirst)
  · intro h a ha
    exact h a ((firsts_sublist [] items).subset ha)

/-- **Lists that are equal item by item** have first occurrences that are equal item by item. -/
theorem forall₂_firsts {items items' : List α} (h : List.Forall₂ (fun a b => (a == b) = true) items items') :
    ∀ {seen seen' : List α}, (∀ x, among seen x = among seen' x) →
      List.Forall₂ (fun a b => (a == b) = true) (firsts seen items) (firsts seen' items') := by
  induction h with
  | nil => exact fun _ => List.Forall₂.nil
  | @cons x x' rest rest' hx _ ih =>
      intro seen seen' hseen
      have hrest : ∀ y, among (seen ++ [x]) y = among (seen' ++ [x']) y := by
        intro y
        rw [among_append, among_append, hseen, among_cons, among_cons, BEq.congr_left hx]
      have hsame : among seen' x' = among seen x := by rw [← hseen, among_congr seen hx]
      cases hfirst : among seen x with
      | true =>
          rw [firsts_cons_of_among hfirst, firsts_cons_of_among (hsame.trans hfirst)]
          exact ih hrest
      | false =>
          rw [firsts_cons_of_not_among hfirst, firsts_cons_of_not_among (hsame.trans hfirst)]
          exact List.Forall₂.cons hx (ih hrest)

/-- Taking first occurrences with less in view beforehand changes nothing. -/
theorem firsts_firsts {seen seen' : List α} (h : ∀ x, among seen' x = true → among seen x = true)
    (items : List α) : firsts seen (firsts seen' items) = firsts seen items := by
  induction items generalizing seen seen' with
  | nil => rfl
  | cons x rest ih =>
      cases hx' : among seen' x with
      | true =>
          have hx : among seen x = true := h x hx'
          rw [firsts_cons_of_among hx', firsts_cons_of_among hx,
            firsts_congr (fun y => among_append_of_among hx y) rest, ih]
          intro y hy
          rw [among_append_of_among hx'] at hy
          exact h y hy
      | false =>
          have hrest : firsts (seen ++ [x]) (firsts (seen' ++ [x]) rest) = firsts (seen ++ [x]) rest := by
            refine ih fun y hy => ?_
            rw [among_append, Bool.or_eq_true] at hy ⊢
            exact hy.imp_left (h y)
          rw [firsts_cons_of_not_among hx']
          cases hx : among seen x with
          | true => rw [firsts_cons_of_among hx, firsts_cons_of_among hx, hrest]
          | false => rw [firsts_cons_of_not_among hx, firsts_cons_of_not_among hx, hrest]

/-- **Lists put together**: whether the first occurrences of each list were taken before makes no
    difference. -/
theorem firsts_flatten (seen : List α) (lists : List (List α)) :
    firsts seen (lists.map (firsts [])).flatten = firsts seen lists.flatten := by
  induction lists generalizing seen with
  | nil => rfl
  | cons items rest ih =>
      have hitems : firsts seen (firsts [] items) = firsts seen items :=
        firsts_firsts (fun x hx => absurd hx (by rw [among_nil]; exact Bool.false_ne_true)) items
      rw [List.map_cons, List.flatten_cons, List.flatten_cons, firsts_append, firsts_append, ih, hitems]
      congr 1
      refine firsts_congr (fun x => ?_) rest.flatten
      rw [among_append, among_append, among_firsts]

/-- Erasing what is equal to an earlier item leaves the first occurrences. -/
theorem eraseDups_eq_firsts (items : List α) : items.eraseDups = firsts [] items := by
  -- `eraseDups` takes out of the rest what is equal to the head, so the rest is filtered by what was seen
  have hfilter : ∀ (items seen : List α),
      (items.filter fun x => !among seen x).eraseDups = firsts seen items := by
    intro items
    induction items with
    | nil => intro seen; exact List.eraseDups_nil
    | cons x rest ih =>
        intro seen
        cases hx : among seen x with
        | true =>
            rw [List.filter_cons_of_neg (by rw [hx]; exact Bool.false_ne_true), firsts_cons_of_among hx,
              firsts_congr (fun y => among_append_of_among hx y), ih]
        | false =>
            rw [List.filter_cons_of_pos (by rw [hx]; rfl), firsts_cons_of_not_among hx,
              List.eraseDups_cons, List.filter_filter, ← ih]
            congr 3
            funext y
            rw [among_append, among_cons, among_nil, Bool.or_false, Bool.not_or, Bool.and_comm,
              BEq.comm (a := x)]
  rw [← hfilter items []]
  congr 1
  exact (List.filter_eq_self.mpr fun x _ => rfl).symm

/-- **The same classes**: two lists without a second item of any class that have items of the same classes
    match item by item, in some order of the one. -/
theorem exists_perm_of_among_eq {items items' : List α} (hitems : Distinct items)
    (hitems' : Distinct items') (h : ∀ x, among items x = among items' x) :
    ∃ matched, matched.Perm items ∧ List.Forall₂ (fun a b => (a == b) = true) matched items' := by
  induction items' generalizing items with
  | nil =>
      cases items with
      | nil => exact ⟨[], List.Perm.refl [], List.Forall₂.nil⟩
      | cons x rest =>
          have hx := h x
          rw [among_cons, BEq.refl x] at hx
          exact nomatch hx
  | cons y rest ih =>
      obtain ⟨hy, hrest⟩ := List.pairwise_cons.mp hitems'
      have hfound : among items y = true := by
        rw [h y, among_cons, BEq.refl y]
        rfl
      obtain ⟨x, hx, hxy⟩ := among_eq_true_iff.mp hfound
      obtain ⟨before, after, rfl⟩ := List.append_of_mem hx
      have hfront : (before ++ x :: after).Perm (x :: (before ++ after)) := List.perm_middle
      have hsplit : Distinct (x :: (before ++ after)) :=
        hfront.pairwise hitems fun {a b} hab => BEq.comm (a := a) ▸ hab
      obtain ⟨hapart, hothers⟩ := List.pairwise_cons.mp hsplit
      -- without the pair that matches, the same classes are left on both sides
      have hclasses : ∀ z, among (before ++ after) z = among rest z := by
        intro z
        have hz := h z
        rw [among_append, among_cons, among_cons, Bool.or_left_comm, ← among_append,
          BEq.congr_left hxy] at hz
        cases hyz : y == z with
        | false =>
            rw [hyz, Bool.false_or, Bool.false_or] at hz
            exact hz
        | true =>
            have hxz : (x == z) = true := BEq.trans hxy hyz
            have hleft : among (before ++ after) z = false := by
              rw [← among_congr _ hxz, among_eq_false_iff]
              intro item hitem
              rw [BEq.comm]
              exact hapart item hitem
            have hright : among rest z = false := by
              rw [← among_congr _ hyz, among_eq_false_iff]
              intro item hitem
              rw [BEq.comm]
              exact hy item hitem
            rw [hleft, hright]
      obtain ⟨matched, hperm, hmatched⟩ := ih hothers hrest hclasses
      exact ⟨x :: matched, (hperm.cons x).trans hfront.symm, List.Forall₂.cons hxy hmatched⟩

end Equivalence

end ResourceLang
