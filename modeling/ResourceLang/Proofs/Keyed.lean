import Mathlib.Data.List.Induction
import Mathlib.Data.List.Nodup
import Mathlib.Data.List.Perm.Subperm
import ResourceLang.Keyed

/-!
# Entries of keyed collections — equal keys and new keys

What stands under a key depends on the key only up to `==`. A key that is absent is written at the end,
and writing keeps the keys pairwise different. For keys compared by an equivalence that is not equality
proper, such as references, these are the facts that make a collection a map.

* **`keys_map`** — values can be changed under keys that stay.
* **`get?_congr`** — equal keys read the same value.
* **`distinctKeys_insert`** — writing never gives two equal keys.
* **`perm_iff_found`** — two maps have the same entries if each entry of the one is read from the other.
* **`keys_insertAll`**, **`get?_insertAll`** — many writes: the order of the first ones, the values of the last ones.
-/

namespace ResourceLang.Keyed

/-- Changed values stand under the keys that were there. -/
theorem keys_map {κ α β : Type} (m : Keyed κ α) (f : κ → α → β) : (m.map f).keys = m.keys := by
  rw [keys, map, List.map_map]
  rfl

/-- Each value is changed as its key says. -/
theorem values_map {κ α β : Type} (m : Keyed κ α) (f : κ → α → β) :
    (m.map f).values = m.entries.map fun e => f e.1 e.2 := by
  rw [values, map, List.map_map]
  rfl

variable {κ α : Type} [BEq κ]

/-- No two keys are equal. -/
def DistinctKeys (m : Keyed κ α) : Prop := m.keys.Pairwise fun a b => (a == b) = false

theorem distinctKeys_empty : (empty : Keyed κ α).DistinctKeys := List.Pairwise.nil

/-- What is read under a key stands beside an equal key. -/
theorem exists_entry_of_get? {m : Keyed κ α} {key : κ} {value : α} (h : m.get? key = some value) :
    ∃ k, (k, value) ∈ m.entries ∧ (key == k) = true := by
  obtain ⟨entries⟩ := m
  have hl : entries.lookup key = some value := h
  induction entries with
  | nil => exact nomatch hl
  | cons e rest ih =>
      obtain ⟨k, v⟩ := e
      rw [lookup_cons] at hl
      by_cases hk : (key == k) = true
      · rw [if_pos hk] at hl
        have hv : v = value := Option.some.inj hl
        exact ⟨k, hv ▸ List.mem_cons_self, hk⟩
      · rw [if_neg hk] at hl
        obtain ⟨k', hmem, heq⟩ := ih hl hl
        exact ⟨k', List.mem_cons_of_mem _ hmem, heq⟩

/-- A key is absent exactly if it is equal to none that is present. -/
theorem get?_eq_none_iff {m : Keyed κ α} {key : κ} :
    m.get? key = none ↔ ∀ k ∈ m.keys, (key == k) = false := by
  show m.entries.lookup key = none ↔ _
  rw [List.lookup_eq_none_iff]
  constructor
  · intro h k hk
    obtain ⟨e, he, heq⟩ := List.mem_map.mp hk
    have hne := h e he
    rw [heq, bne, Bool.not_eq_true'] at hne
    exact hne
  · intro h e he
    rw [bne, h e.1 (List.mem_map.mpr ⟨e, he, rfl⟩)]
    rfl

/-- A new key goes to the end. -/
theorem entries_insert_of_get?_eq_none {m : Keyed κ α} {key : κ} (h : m.get? key = none)
    (value : α) : (m.insert key value).entries = m.entries ++ [(key, value)] := by
  obtain ⟨entries⟩ := m
  have hl : entries.lookup key = none := h
  show put key value entries = entries ++ [(key, value)]
  induction entries with
  | nil => rfl
  | cons e rest ih =>
      obtain ⟨k, v⟩ := e
      rw [lookup_cons] at hl
      by_cases hk : (key == k) = true
      · rw [if_pos hk] at hl
        exact nomatch hl
      · rw [if_neg hk] at hl
        show (if key == k then (k, value) :: rest else (k, v) :: put key value rest) = _
        rw [if_neg hk, ih hl hl, List.cons_append]

/-- What is read stays when entries are added at the end. -/
theorem get?_of_prefix {m m' : Keyed κ α} (h : m.entries <+: m'.entries) {key : κ} {value : α}
    (hm : m.get? key = some value) : m'.get? key = some value :=
  h.lookup_eq_some hm

section Equivalence

variable [EquivBEq κ]

/-- Equal keys read the same value. -/
theorem get?_congr (m : Keyed κ α) {a b : κ} (h : (a == b) = true) : m.get? a = m.get? b := by
  obtain ⟨entries⟩ := m
  show entries.lookup a = entries.lookup b
  induction entries with
  | nil => rfl
  | cons e rest ih =>
      obtain ⟨k, v⟩ := e
      rw [lookup_cons, lookup_cons, ih, BEq.congr_left h]

/-- Writing never gives two equal keys. -/
theorem distinctKeys_insert {m : Keyed κ α} (hm : m.DistinctKeys) (key : κ) (value : α) :
    (m.insert key value).DistinctKeys := by
  show List.Pairwise _ (m.insert key value).keys
  rw [keys_insert]
  by_cases hc : m.contains key = true
  · rw [if_pos hc]
    exact hm
  · rw [if_neg hc]
    have hnone : m.get? key = none := Option.not_isSome_iff_eq_none.mp hc
    refine List.pairwise_append.mpr ⟨hm, List.pairwise_singleton _ _, ?_⟩
    intro k hk k' hk'
    rw [List.mem_singleton.mp hk', BEq.comm]
    exact get?_eq_none_iff.mp hnone k hk

end Equivalence

/-! ## Many writes -/

/-- Writes one value after the other. -/
def insertAll (m : Keyed κ α) (writes : List (κ × α)) : Keyed κ α :=
  writes.foldl (fun m w => m.insert w.1 w.2) m

section Lawful

variable [LawfulBEq κ]

theorem contains_iff_mem_keys {m : Keyed κ α} {key : κ} : m.contains key = true ↔ key ∈ m.keys := by
  rw [contains, Option.isSome_iff_ne_none, ne_eq, get?_eq_none_iff, not_forall]
  constructor
  · rintro ⟨k, hk⟩
    rw [Classical.not_imp, Bool.not_eq_false, beq_iff_eq] at hk
    exact hk.2 ▸ hk.1
  · intro h
    refine ⟨key, fun hne => ?_⟩
    rw [BEq.refl key] at hne
    exact nomatch hne h

theorem nodup_of_distinctKeys {m : Keyed κ α} (h : m.DistinctKeys) : m.entries.Nodup :=
  List.Nodup.of_map Prod.fst (h.imp fun hne heq => beq_eq_false_iff_ne.mp hne heq)

/-- Where keys are distinct, each value is read under its own key. -/
theorem get?_of_mem {m : Keyed κ α} (h : m.DistinctKeys) {e : κ × α} (he : e ∈ m.entries) :
    m.get? e.1 = some e.2 := by
  obtain ⟨entries⟩ := m
  show entries.lookup e.1 = some e.2
  induction entries with
  | nil => exact nomatch he
  | cons first rest ih =>
      obtain ⟨k, v⟩ := first
      obtain ⟨hfirst, hrest⟩ := List.pairwise_cons.mp h
      rw [lookup_cons]
      rcases List.mem_cons.mp he with rfl | he
      · rw [if_pos (BEq.refl k)]
      · have hne : (k == e.1) = false := hfirst e.1 (List.mem_map_of_mem he)
        rw [BEq.comm, hne, if_neg Bool.false_ne_true]
        exact ih hrest he

/-- Where each value says under which key it stands, it is found under that key and no other. -/
theorem get?_eq_some_iff_of_keyed (keyOf : α → Option κ) {m : Keyed κ α} (h : m.DistinctKeys)
    (hkeys : ∀ e ∈ m.entries, keyOf e.2 = some e.1) {key : κ} {value : α} :
    m.get? key = some value ↔ value ∈ m.values ∧ keyOf value = some key := by
  constructor
  · intro hfound
    obtain ⟨k, he, hk⟩ := exists_entry_of_get? hfound
    obtain rfl := eq_of_beq hk
    exact ⟨List.mem_map_of_mem he, hkeys _ he⟩
  · rintro ⟨hvalue, hkey⟩
    obtain ⟨e, he, rfl⟩ := List.mem_map.mp hvalue
    obtain rfl := Option.some.inj ((hkeys e he).symm.trans hkey)
    exact get?_of_mem h he

/-- **Two maps have the same entries**, in some order, exactly if they are of one size and each entry of the one
    is read from the other. -/
theorem perm_iff_found {m m' : Keyed κ α} (h : m.DistinctKeys) (h' : m'.DistinctKeys) :
    m.entries.Perm m'.entries ↔ m.size = m'.size ∧ ∀ e ∈ m.entries, m'.get? e.1 = some e.2 := by
  constructor
  · intro hperm
    exact ⟨hperm.length_eq, fun e he => get?_of_mem h' (hperm.mem_iff.mp he)⟩
  · rintro ⟨hsize, hfound⟩
    have hsubset : m.entries ⊆ m'.entries := by
      intro e he
      obtain ⟨k, hmem, hk⟩ := exists_entry_of_get? (hfound e he)
      rw [← eq_of_beq hk] at hmem
      exact hmem
    exact ((nodup_of_distinctKeys h).subperm hsubset).perm_of_length_le (Nat.le_of_eq hsize.symm)

/-- The keys stand in the order in which they were first written. -/
theorem keys_insertAll (writes : List (κ × α)) :
    (empty.insertAll writes).keys = (writes.map Prod.fst).eraseDups := by
  induction writes using List.reverseRecOn with
  | nil => rfl
  | append_singleton writes w ih =>
      have hstep : empty.insertAll (writes ++ [w]) = (empty.insertAll writes).insert w.1 w.2 :=
        List.foldl_append
      rw [hstep, keys_insert, List.map_append, List.eraseDups_append, ih]
      by_cases hkey : w.1 ∈ writes.map Prod.fst
      · have hold : (List.map Prod.fst [w]).removeAll (writes.map Prod.fst) = [] :=
          List.filter_cons_of_neg (by simpa using hkey)
        have hpresent : (empty.insertAll writes).contains w.1 = true := by
          rw [contains_iff_mem_keys, ih, List.mem_eraseDups]
          exact hkey
        rw [if_pos hpresent, hold, List.eraseDups_nil, List.append_nil]
      · have hnew : (List.map Prod.fst [w]).removeAll (writes.map Prod.fst) = [w.1] :=
          List.filter_cons_of_pos (by simpa using hkey)
        have habsent : ¬ (empty.insertAll writes).contains w.1 = true := by
          rw [contains_iff_mem_keys, ih, List.mem_eraseDups]
          exact hkey
        rw [if_neg habsent, hnew]
        rfl

end Lawful

/-- Under each key stands the value that was written last. -/
theorem get?_insertAll [EquivBEq κ] (m : Keyed κ α) (writes : List (κ × α)) (key : κ) :
    (m.insertAll writes).get? key = (writes.reverse.lookup key).or (m.get? key) := by
  induction writes generalizing m with
  | nil => rfl
  | cons w rest ih =>
      show ((m.insert w.1 w.2).insertAll rest).get? key = _
      rw [ih, get?_insert, List.reverse_cons, List.lookup_append, Option.or_assoc]
      congr 1
      rw [lookup_cons]
      by_cases hkey : (key == w.1) = true
      · rw [if_pos hkey, if_pos hkey]
        rfl
      · rw [if_neg hkey, if_neg hkey]
        rfl

end ResourceLang.Keyed
