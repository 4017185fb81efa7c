import ResourceLang.Proofs.Keyed

/-!
# Ascending keys — collections that are sorted as they grow

Writing with `insertAscending` keeps the keys of a collection in strictly ascending order. An entry whose key
is greater than all others goes to the end, so entries that come in ascending order stand as they came.

* **`ascending_insertAscending`** — writing keeps the order.
* **`perm_insertAscending`** — writing under a new key adds one entry.
* **`insertAscending_of_greater`** — writing under the greatest key.
-/

namespace ResourceLang.Keyed

variable {α : Type}

/-- The keys stand in strictly ascending order. -/
def Ascending (m : Keyed String α) : Prop := m.keys.Pairwise (· < ·)

theorem ascending_empty : (empty : Keyed String α).Ascending := List.Pairwise.nil

/-- Keys in ascending order are distinct. -/
theorem Ascending.distinctKeys {m : Keyed String α} (h : m.Ascending) : m.DistinctKeys := by
  refine List.Pairwise.imp ?_ h
  intro a b hlt
  rw [beq_eq_false_iff_ne]
  rintro rfl
  exact String.lt_irrefl a hlt

private theorem place_cons (key k : String) (value v : α) (rest : List (String × α)) :
    place key value ((k, v) :: rest) =
      if key < k then (key, value) :: (k, v) :: rest
      else if key = k then (k, value) :: rest
      else (k, v) :: place key value rest := rfl

private theorem mem_of_mem_place {key : String} {value : α} {entries : List (String × α)}
    {e : String × α} (h : e ∈ place key value entries) : e = (key, value) ∨ e ∈ entries := by
  induction entries with
  | nil => exact Or.inl (List.mem_singleton.mp h)
  | cons entry rest ih =>
      obtain ⟨k, v⟩ := entry
      rw [place_cons] at h
      by_cases hlt : key < k
      · rw [if_pos hlt] at h
        exact List.mem_cons.mp h
      · rw [if_neg hlt] at h
        by_cases heq : key = k
        · rw [if_pos heq, ← heq] at h
          exact (List.mem_cons.mp h).imp_right (List.mem_cons_of_mem _)
        · rw [if_neg heq] at h
          rcases List.mem_cons.mp h with rfl | h
          · exact Or.inr List.mem_cons_self
          · exact (ih h).imp_right (List.mem_cons_of_mem _)

/-- An entry is the one written or was there before. -/
theorem mem_entries_of_insertAscending {m : Keyed String α} {key : String} {value : α} {e : String × α}
    (h : e ∈ (m.insertAscending key value).entries) : e = (key, value) ∨ e ∈ m.entries :=
  mem_of_mem_place h

/-- Under a new key, an entry is added to the ones that are there. -/
theorem perm_insertAscending {m : Keyed String α} {key : String} (hnew : m.contains key = false) (value : α) :
    (m.insertAscending key value).entries.Perm ((key, value) :: m.entries) := by
  obtain ⟨entries⟩ := m
  have hother : ∀ e ∈ entries, e.1 ≠ key := by
    intro e he heq
    rw [contains, Option.isSome_eq_false_iff, Option.isNone_iff_eq_none, get?_eq_none_iff] at hnew
    exact beq_eq_false_iff_ne.mp (hnew e.1 (List.mem_map_of_mem he)) heq.symm
  show (place key value entries).Perm ((key, value) :: entries)
  clear hnew
  induction entries with
  | nil => exact List.Perm.refl _
  | cons entry rest ih =>
      obtain ⟨k, v⟩ := entry
      rw [place_cons]
      by_cases hlt : key < k
      · rw [if_pos hlt]
      · have hne : ¬ key = k := fun heq => hother (k, v) List.mem_cons_self heq.symm
        rw [if_neg hlt, if_neg hne]
        have hrest := ih fun e he => hother e (List.mem_cons_of_mem _ he)
        exact (hrest.cons (k, v)).trans (List.Perm.swap (key, value) (k, v) rest)

/-- Writing keeps keys in ascending order. -/
theorem ascending_insertAscending {m : Keyed String α} (h : m.Ascending) (key : String) (value : α) :
    (m.insertAscending key value).Ascending := by
  obtain ⟨entries⟩ := m
  have hentries : (entries.map Prod.fst).Pairwise (· < ·) := h
  show ((place key value entries).map Prod.fst).Pairwise (· < ·)
  clear h
  induction entries with
  | nil => exact List.pairwise_singleton _ _
  | cons entry rest ih =>
      obtain ⟨k, v⟩ := entry
      obtain ⟨hk, hrest⟩ := List.pairwise_cons.mp hentries
      rw [place_cons]
      by_cases hlt : key < k
      · rw [if_pos hlt]
        refine List.pairwise_cons.mpr ⟨?_, hentries⟩
        intro k' hk'
        rcases List.mem_cons.mp hk' with rfl | hk'
        · exact hlt
        · exact String.lt_trans hlt (hk k' hk')
      · rw [if_neg hlt]
        by_cases heq : key = k
        · rw [if_pos heq]
          exact hentries
        · rw [if_neg heq]
          have hgt : k < key := Std.lt_of_le_of_ne (String.not_lt.mp hlt) (Ne.symm heq)
          refine List.pairwise_cons.mpr ⟨?_, ih hrest⟩
          intro k' hk'
          obtain ⟨e, he, rfl⟩ := List.mem_map.mp hk'
          rcases mem_of_mem_place he with rfl | he
          · exact hgt
          · exact hk e.1 (List.mem_map_of_mem he)

/-- A key greater than all others is absent. -/
theorem not_contains_of_greater {m : Keyed String α} {key : String} (h : ∀ k ∈ m.keys, k < key) :
    m.contains key = false := by
  rw [contains, Option.isSome_eq_false_iff, Option.isNone_iff_eq_none, get?_eq_none_iff]
  intro k hk
  rw [beq_eq_false_iff_ne]
  rintro rfl
  exact String.lt_irrefl key (h key hk)

/-- A key greater than all others goes to the end. -/
theorem insertAscending_of_greater {m : Keyed String α} {key : String} (h : ∀ k ∈ m.keys, k < key)
    (value : α) : m.insertAscending key value = ⟨m.entries ++ [(key, value)]⟩ := by
  obtain ⟨entries⟩ := m
  have hentries : ∀ e ∈ entries, e.1 < key := fun e he => h e.1 (List.mem_map_of_mem he)
  show Keyed.mk (place key value entries) = ⟨entries ++ [(key, value)]⟩
  congr 1
  clear h
  induction entries with
  | nil => rfl
  | cons entry rest ih =>
      obtain ⟨k, v⟩ := entry
      have hlt : k < key := hentries (k, v) List.mem_cons_self
      have hne : ¬ key = k := fun heq => String.lt_irrefl k (heq ▸ hlt)
      rw [place_cons, if_neg (String.lt_asymm hlt), if_neg hne,
        ih fun e he => hentries e (List.mem_cons_of_mem _ he), List.cons_append]

end ResourceLang.Keyed
