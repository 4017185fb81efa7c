/-!
# Spans — regions of source text

A span is a byte position and a length in bytes. The span of a compound piece of syntax runs from the start
of its first part to the end of its last one (`Span.between`); the parts must be in source order, and a pair
that is not is a `Disorder`.

* **`between_eq_ok_iff`** — two spans can be joined exactly if the last does not end before the first starts.
-/

namespace ResourceLang

/-- A region of source text, in bytes. -/
structure Span where
  position : Nat
  length : Nat
deriving DecidableEq

namespace Span

/-- The empty span at the start of the text, which also stands for a position not yet known. -/
def nil : Span := ⟨0, 0⟩

/-- The position after the last byte. -/
def stop (s : Span) : Nat := s.position + s.length

/-- Whether the span covers no byte. -/
def isEmpty (s : Span) : Bool := s.length == 0

/-- Whether `other` lies within `s`. -/
def contains (s other : Span) : Bool := s.position ≤ other.position && other.stop ≤ s.stop

/-- Start and end between brackets. -/
def text (s : Span) : String := "[" ++ toString s.position ++ ":" ++ toString s.stop ++ "]"

end Span

/-- Two spans that cannot be joined: the last ends before the first starts. -/
structure Disorder where
  first : Span
  last : Span
deriving DecidableEq

/-- The wording of a failure to join two spans. -/
def Disorder.message (d : Disorder) : String :=
  "span " ++ d.last.text ++ " ends before span " ++ d.first.text ++ " starts"

namespace Span

/-- The span from the start of `first` to the end of `last`. -/
def between (first last : Span) : Except Disorder Span :=
  if first.position ≤ last.stop then .ok ⟨first.position, last.stop - first.position⟩
  else .error ⟨first, last⟩

/-- Joining succeeds exactly on spans in order, and the result has the outer ends. -/
theorem between_eq_ok_iff (first last joined : Span) :
    between first last = .ok joined ↔
      first.position ≤ last.stop ∧ joined.position = first.position ∧ joined.stop = last.stop := by
  obtain ⟨position, length⟩ := joined
  show (if first.position ≤ last.stop then
      (Except.ok ⟨first.position, last.stop - first.position⟩ : Except Disorder Span)
    else .error ⟨first, last⟩) = .ok ⟨position, length⟩ ↔
    first.position ≤ last.stop ∧ position = first.position ∧ position + length = last.stop
  by_cases h : first.position ≤ last.stop
  · rw [if_pos h, Except.ok.injEq, Span.mk.injEq]; omega
  · rw [if_neg h]
    exact ⟨nofun, fun h' => absurd h'.1 h⟩

/-! ## The text under a span -/

/-- What follows the first `count` bytes; nothing if they end inside a character or past the text. -/
def dropBytes? : Nat → List Char → Option (List Char)
  | 0, cs => some cs
  | _ + 1, [] => none
  | count, c :: cs => if c.utf8Size ≤ count then dropBytes? (count - c.utf8Size) cs else none

/-- The first `count` bytes; nothing if they end inside a character or past the text. -/
def takeBytes? : Nat → List Char → Option (List Char)
  | 0, _ => some []
  | _ + 1, [] => none
  | count, c :: cs =>
    if c.utf8Size ≤ count then (takeBytes? (count - c.utf8Size) cs).map (c :: ·) else none

/-- The part of `source` under the span; nothing if it reaches past the end or cuts a character. -/
def cut? (s : Span) (source : String) : Option String :=
  (dropBytes? s.position source.toList).bind fun rest =>
    (takeBytes? s.length rest).map String.ofList

end Span

end ResourceLang
