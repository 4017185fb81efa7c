/-!
# Flag sets — named bits of a fixed width

A `FlagVocabulary` gives names to bit patterns; a `FlagSet` over it is a word of that width. Any word is a
flag set, bits without a name included: they take part in every operation and are only left out when the
set is written. Two sets over different vocabularies have different types.

* **`contains_insert_iff`** — adding flags adds these flags and no others.
-/

namespace ResourceLang

/-- The name of a kind of flag set, and the names of its flags in the order in which they are written. -/
structure FlagVocabulary (width : Nat) where
  title : String
  flags : List (String × BitVec width)

/-- A set of flags of one vocabulary, as a word. -/
structure FlagSet {width : Nat} (vocabulary : FlagVocabulary width) where
  bits : BitVec width
deriving DecidableEq

namespace FlagSet

variable {width : Nat} {vocabulary : FlagVocabulary width}

/-- No flag. -/
def none : FlagSet vocabulary := ⟨0⟩

instance : Inhabited (FlagSet vocabulary) := ⟨none⟩

/-- The flags of either set. -/
def insert (a b : FlagSet vocabulary) : FlagSet vocabulary := ⟨a.bits ||| b.bits⟩

/-- The flags of both sets. -/
def inter (a b : FlagSet vocabulary) : FlagSet vocabulary := ⟨a.bits &&& b.bits⟩

/-- The flags that are not in the set, bits without a name included. -/
def complement (a : FlagSet vocabulary) : FlagSet vocabulary := ⟨~~~a.bits⟩

/-- The flags of the first set that are not in the second. -/
def remove (a b : FlagSet vocabulary) : FlagSet vocabulary := ⟨a.bits &&& ~~~b.bits⟩

/-- Whether every flag of `b` is in `a`. -/
def contains (a b : FlagSet vocabulary) : Bool := a.bits &&& b.bits == b.bits

/-- Whether some flag is in both sets. -/
def intersects (a b : FlagSet vocabulary) : Bool := a.bits &&& b.bits != 0

/-- Whether there is no flag. -/
def isEmpty (a : FlagSet vocabulary) : Bool := a.bits == 0

/-- The names of the flags that the set contains, patterns without bits left out. -/
def names (a : FlagSet vocabulary) : List String :=
  (vocabulary.flags.filter fun flag => flag.2 != 0 && a.contains ⟨flag.2⟩).map Prod.fst

/-- The title of the vocabulary over the names of the flags. -/
def text (a : FlagSet vocabulary) : String :=
  let shown := if a.names.isEmpty then "empty" else " | ".intercalate a.names
  vocabulary.title ++ "(" ++ shown ++ ")"

theorem insert_assoc (a b c : FlagSet vocabulary) : (a.insert b).insert c = a.insert (b.insert c) := by
  rw [insert, insert, insert, insert, BitVec.or_assoc]

theorem insert_comm (a b : FlagSet vocabulary) : a.insert b = b.insert a := by
  rw [insert, insert, BitVec.or_comm]

theorem insert_self (a : FlagSet vocabulary) : a.insert a = a := by
  rw [insert, BitVec.or_self]

/-- Containment bit by bit. -/
theorem contains_iff (a b : FlagSet vocabulary) :
    a.contains b = true ↔ ∀ i, b.bits.getLsbD i = true → a.bits.getLsbD i = true := by
  rw [contains, beq_iff_eq]
  constructor
  · intro h i hb
    have hi : (a.bits &&& b.bits).getLsbD i = b.bits.getLsbD i := by rw [h]
    rw [BitVec.getLsbD_and, hb, Bool.and_true] at hi
    exact hi
  · intro h
    refine BitVec.eq_of_getLsbD_eq fun i _ => ?_
    rw [BitVec.getLsbD_and]
    cases hb : b.bits.getLsbD i with
    | false => exact Bool.and_false _
    | true => rw [h i hb]; rfl

/-- A set with added flags contains another exactly if the old set and the added flags cover it. -/
theorem contains_insert_iff (a b c : FlagSet vocabulary) :
    (a.insert b).contains c = true ↔
      ∀ i, c.bits.getLsbD i = true → a.bits.getLsbD i = true ∨ b.bits.getLsbD i = true := by
  rw [contains_iff]
  show (∀ i, c.bits.getLsbD i = true → (a.bits ||| b.bits).getLsbD i = true) ↔ _
  simp only [BitVec.getLsbD_or, Bool.or_eq_true]

end FlagSet

end ResourceLang
