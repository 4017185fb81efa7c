/-!
# Keyed collections — values under keys, in insertion order

Properties of an object type, metadata of a declaration, registered decorators, registered schemas and
cached answers are all found by key and listed in the order in which their keys first arrived. A
`Keyed κ α` is that: a list of entries, read by the first entry whose key is equal (`==`) to the one asked
for. Writing under a key that is present replaces the value where it stands and keeps the key as first
spelled; a new key goes to the end.

* **`get?_insert`** — reading after writing, for any equivalence of keys.
* **`keys_insert`** — the keys after writing: unchanged, or one more at the end.
-/

namespace ResourceLang

/-- Values of type `α` under keys of type `κ`, in the order in which the keys arrived. -/
structure Keyed (κ α : Type) where
  entries : List (κ × α)

namespace Keyed

variable {κ α β : Type}

/-- The collection without entries. -/
def empty : Keyed κ α := ⟨[]⟩

instance : Inhabited (Keyed κ α) := ⟨empty⟩

/-- The keys in insertion order. -/
def keys (m : Keyed κ α) : List κ := m.entries.map Prod.fst

/-- The values in the order of their keys. -/
def values (m : Keyed κ α) : List α := m.entries.map Prod.snd

/-- The number of entries. -/
def size (m : Keyed κ α) : Nat := m.entries.length

/-- Holds of the collection without entries. -/
def isEmpty (m : Keyed κ α) : Bool := m.entries.isEmpty

/-- The same keys over changed values. -/
def map (f : κ → α → β) (m : Keyed κ α) : Keyed κ β := ⟨m.entries.map fun e => (e.1, f e.1 e.2)⟩

section Lookup

variable [BEq κ]

/-- The value under the first key equal to `key`. -/
def get? (m : Keyed κ α) (key : κ) : Option α := m.entries.lookup key

/-- Whether some key is equal to `key`. -/
def contains (m : Keyed κ α) (key : κ) : Bool := (m.get? key).isSome

/-- Replaces the value of the first entry with an equal key, or adds an entry at the end. -/
def put (key : κ) (value : α) : List (κ × α) → List (κ × α)
  | [] => [(key, value)]
  | (k, v) :: rest => if key == k then (k, value) :: rest else (k, v) :: put key value rest

/-- Writes `value` under `key`: in place if the key is present, else at the end. -/
def insert (m : Keyed κ α) (key : κ) (value : α) : Keyed κ α := ⟨put key value m.entries⟩

end Lookup

/-! ## Ascending text keys -/

/-- Puts an entry before the first greater key, replacing the value of an equal one. -/
def place (key : String) (value : α) : List (String × α) → List (String × α)
  | [] => [(key, value)]
  | (k, v) :: rest =>
    if key < k then (key, value) :: (k, v) :: rest
    else if key = k then (k, value) :: rest
    else (k, v) :: place key value rest

/-- Writes `value` under `key` at its place in the ascending order of keys. -/
def insertAscending (m : Keyed String α) (key : String) (value : α) : Keyed String α :=
  ⟨place key value m.entries⟩

/-- The collection in ascending order of keys; of two values under one key the later one stays. -/
def ascending (entries : List (String × α)) : Keyed String α :=
  entries.foldl (fun m e => m.insertAscending e.1 e.2) empty

/-- Puts an entry before the first one whose key is not smaller; equal keys stay side by side. -/
def sortIn (entry : String × α) : List (String × α) → List (String × α)
  | [] => [entry]
  | e :: rest => if e.1 < entry.1 then e :: sortIn entry rest else entry :: e :: rest

/-! ## What a write changes -/

theorem lookup_cons [BEq κ] (key k : κ) (v : α) (rest : List (κ × α)) :
    ((k, v) :: rest).lookup key = if key == k then some v else rest.lookup key := by
  show (match key == k with
    | true => some v
    | false => rest.lookup key) = if key == k then some v else rest.lookup key
  cases key == k <;> rfl

private theorem put_cons [BEq κ] (key k : κ) (value v : α) (rest : List (κ × α)) :
    put key value ((k, v) :: rest) =
      if key == k then (k, value) :: rest else (k, v) :: put key value rest := rfl

/-- Reading after writing finds the new value under the keys equal to the one written, and what was
    there before under all others. -/
theorem get?_insert [BEq κ] [EquivBEq κ] (m : Keyed κ α) (key asked : κ) (value : α) :
    (m.insert key value).get? asked = if asked == key then some value else m.get? asked := by
  obtain ⟨entries⟩ := m
  show (put key value entries).lookup asked = if asked == key then some value else entries.lookup asked
  induction entries with
  | nil => exact lookup_cons asked key value []
  | cons e rest ih =>
    obtain ⟨k, v⟩ := e
    rw [put_cons]
    by_cases hk : (key == k) = true
    · have hcongr : (asked == k) = (asked == key) := (BEq.congr_right hk).symm
      rw [if_pos hk, lookup_cons, lookup_cons, hcongr]
      by_cases ha : (asked == key) = true
      · rw [if_pos ha, if_pos ha]
      · rw [if_neg ha, if_neg ha, if_neg ha]
    · rw [if_neg hk, lookup_cons, lookup_cons, ih]
      by_cases hak : (asked == k) = true
      · have hne : ¬ (asked == key) = true := fun h =>
          hk (BEq.trans (BEq.symm h) hak)
        rw [if_pos hak, if_neg hne, if_pos hak]
      · rw [if_neg hak, if_neg hak]

/-- Writing under a key that is present leaves the keys as they are; a new key goes to the end. -/
theorem keys_insert [BEq κ] (m : Keyed κ α) (key : κ) (value : α) :
    (m.insert key value).keys = if m.contains key then m.keys else m.keys ++ [key] := by
  obtain ⟨entries⟩ := m
  show (put key value entries).map Prod.fst =
    if (entries.lookup key).isSome then entries.map Prod.fst else entries.map Prod.fst ++ [key]
  induction entries with
  | nil => rfl
  | cons e rest ih =>
    obtain ⟨k, v⟩ := e
    rw [put_cons, lookup_cons]
    by_cases hk : (key == k) = true
    · rw [if_pos hk, if_pos hk]; rfl
    · rw [if_neg hk, if_neg hk, List.map_cons, ih]
      by_cases hr : (rest.lookup key).isSome = true
      · rw [if_pos hr, if_pos hr]; rfl
      · rw [if_neg hr, if_neg hr]; rfl

end Keyed

end ResourceLang
