import Mathlib.Data.Nat.PSub
import ResourceLang.Proofs.Syntax.Placement

/-!
# Strings — the pieces that make a string, and that laid out strings are made of them

A string is one whole piece, or a left piece, any number of middle pieces and a right piece, with an expression after
each piece but the last one and a text for each piece. Construction takes these and refuses all else, so a string that
was constructed is interpolated exactly if it has more than one piece, and only then it has no text of its own.

The kind of a piece can also be told from its number and that of the last piece, and pieces checked and laid out by
their numbers. This is the same, although the two look at strings with one, two and more pieces in different ways: the
number of the last piece is only asked for when there is one, and what is laid out by number passes the check.

* **`StringLiteral.ofParts_eq_ok_iff`** — which parts make a string.
* **`StringLiteral.ofNumberedParts_eq`**, **`Layout.interpolatedByNumber_eq`** — checking and laying out by numbers.
* **`Layout.runAt_interpolated`** — a string that is laid out has the segments and variables that were given.
* **`pieces_make_strings`** — all of this.
-/

namespace ResourceLang.Syntax

/-- The kinds are those of the pieces of a string: one whole piece, or a left piece, middle pieces and a right piece. -/
def PieceKinds (kinds : List TokenKind) : Prop :=
  kinds = [.wholeString] ∨ ∃ n, kinds = .leftPiece :: (List.replicate n .middlePiece ++ [.rightPiece])

/-- The kind of the piece with the number `i` of a string whose last piece has the number `last`. -/
def pieceKind : Nat → Nat → TokenKind
  | 0, 0 => .wholeString
  | 0, _ => .leftPiece
  | i, last => if i = last then .rightPiece else .middlePiece

theorem pieceKind_later (i last : Nat) :
    pieceKind (i + 1) last = if i + 1 = last then .rightPiece else .middlePiece := rfl

/-! ## Construction -/

/-- A requirement on a token is met exactly by tokens of its kind. -/
theorem requireToken_eq_ok_iff {slot : String} {expected : TokenKind} {t : Token} :
    requireToken slot expected t = .ok () ↔ t.kind = expected := by
  rw [requireToken]
  by_cases h : t.kind = expected
  · rw [if_pos h]
    exact ⟨fun _ => h, fun _ => rfl⟩
  · rw [if_neg h]
    exact ⟨(nomatch ·), fun h' => absurd h' h⟩

/-- A check that starts with a requirement on a token. -/
theorem requireToken_bind_eq_ok_iff {slot : String} {expected : TokenKind} {t : Token}
    {later : Except ShapeFault Unit} :
    (requireToken slot expected t >>= fun _ => later) = .ok () ↔ t.kind = expected ∧ later = .ok () := by
  rw [bind_eq_ok_iff, ← requireToken_eq_ok_iff]
  exact ⟨fun ⟨_, ht, hlater⟩ => ⟨ht, hlater⟩, fun ⟨ht, hlater⟩ => ⟨(), ht, hlater⟩⟩

namespace StringLiteral

theorem checkLaterPieces_eq_ok_iff {later : List Token} (hlater : later ≠ []) :
    checkLaterPieces later = .ok () ↔
      ∃ n, later.map Token.kind = List.replicate n .middlePiece ++ [.rightPiece] := by
  induction later with
  | nil => exact absurd rfl hlater
  | cons piece rest ih =>
      cases rest with
      | nil =>
          show requireToken "string_tokens" .rightPiece piece = .ok () ↔ _
          rw [requireToken_eq_ok_iff]
          constructor
          · intro h
            exact ⟨0, congrArg (fun kind => [kind]) h⟩
          · rintro ⟨n, h⟩
            cases n with
            | zero => exact (List.cons.inj h).1
            | succ n => exact absurd (congrArg List.length h) (by simp)
      | cons next rest =>
          show (requireToken "string_tokens" .middlePiece piece >>= fun _ => checkLaterPieces (next :: rest)) =
            .ok () ↔ _
          rw [requireToken_bind_eq_ok_iff, ih (List.cons_ne_nil next rest)]
          constructor
          · rintro ⟨hpiece, n, hkinds⟩
            refine ⟨n + 1, ?_⟩
            rw [List.map_cons, hkinds, hpiece]
            rfl
          · rintro ⟨n, h⟩
            cases n with
            | zero => exact absurd (congrArg List.length h) (by simp)
            | succ n =>
                obtain ⟨hpiece, hkinds⟩ := List.cons.inj h
                exact ⟨hpiece, n, hkinds⟩

/-- **Pieces pass the check** if their kinds are those of a string. -/
theorem checkPieces_eq_ok_iff {tokens : List Token} (htokens : tokens ≠ []) :
    checkPieces tokens = .ok () ↔ PieceKinds (tokens.map Token.kind) := by
  cases tokens with
  | nil => exact absurd rfl htokens
  | cons first later =>
      cases later with
      | nil =>
          show requireToken "string_tokens" .wholeString first = .ok () ↔ PieceKinds [first.kind]
          rw [requireToken_eq_ok_iff]
          constructor
          · intro h
            exact Or.inl (congrArg (fun kind => [kind]) h)
          · rintro (h | ⟨n, h⟩)
            · exact (List.cons.inj h).1
            · exact absurd (congrArg List.length h) (by simp)
      | cons next later =>
          show (requireToken "string_tokens" .leftPiece first >>= fun _ => checkLaterPieces (next :: later)) = .ok () ↔
            PieceKinds (first.kind :: (next :: later).map Token.kind)
          rw [requireToken_bind_eq_ok_iff, checkLaterPieces_eq_ok_iff (List.cons_ne_nil next later)]
          constructor
          · rintro ⟨hfirst, n, hkinds⟩
            rw [hkinds, hfirst]
            exact Or.inr ⟨n, rfl⟩
          · rintro (h | ⟨n, h⟩)
            · exact absurd (congrArg List.length h) (by simp)
            · obtain ⟨hfirst, hkinds⟩ := List.cons.inj h
              exact ⟨hfirst, n, hkinds⟩

/-- The steps of construction, one after the other. -/
theorem ofParts_eq (tokens : List Token) (expressions : List Node) (values : List String) :
    ofParts tokens expressions values =
      if tokens.length ≠ expressions.length + 1 then .error (.pieceCount tokens.length expressions.length)
      else if tokens.length ≠ values.length then .error .valueCount
      else (checkPieces tokens).map fun _ => ⟨tokens, expressions, values⟩ := by
  rw [ofParts]
  by_cases hpieces : tokens.length ≠ expressions.length + 1
  · rw [if_pos hpieces, if_pos hpieces]
    rfl
  · rw [if_neg hpieces, if_neg hpieces]
    by_cases hvalues : tokens.length ≠ values.length
    · rw [if_pos hvalues, if_pos hvalues]
      rfl
    · rw [if_neg hvalues, if_neg hvalues]
      cases checkPieces tokens <;> rfl

section Parts

variable {tokens : List Token} {expressions : List Node} {values : List String} {s : StringLiteral}

/-- **Which parts make a string**: one piece more than expressions, a text for each piece, and pieces whose kinds are
    those of a string. -/
theorem ofParts_eq_ok_iff :
    ofParts tokens expressions values = .ok s ↔
      tokens.length = expressions.length + 1 ∧ values.length = tokens.length ∧
        PieceKinds (tokens.map Token.kind) ∧ ⟨tokens, expressions, values⟩ = s := by
  constructor
  · intro h
    obtain ⟨hpieces, hvalues, hs⟩ := eq_of_ofParts h
    have htokens : tokens ≠ [] := List.ne_nil_of_length_eq_add_one hpieces
    rw [ofParts_eq, if_neg (not_not_intro hpieces), if_neg (not_not_intro hvalues)] at h
    refine ⟨hpieces, hvalues.symm, (checkPieces_eq_ok_iff htokens).mp ?_, hs⟩
    cases hcheck : checkPieces tokens with
    | ok _ => rfl
    | error e =>
        rw [hcheck] at h
        exact nomatch h
  · rintro ⟨hpieces, hvalues, hkinds, rfl⟩
    have htokens : tokens ≠ [] := List.ne_nil_of_length_eq_add_one hpieces
    rw [ofParts_eq, if_neg (not_not_intro hpieces), if_neg (not_not_intro hvalues.symm),
      (checkPieces_eq_ok_iff htokens).mpr hkinds]
    rfl

/-- A string that was constructed is interpolated exactly if it has two pieces or more. -/
theorem isInterpolated_iff_two_pieces (h : ofParts tokens expressions values = .ok s) :
    s.isInterpolated = true ↔ 2 ≤ s.tokens.length := by
  obtain ⟨hpieces, -, -, rfl⟩ := ofParts_eq_ok_iff.mp h
  show (!expressions.isEmpty) = true ↔ 2 ≤ tokens.length
  rw [hpieces]
  cases expressions with
  | nil => simp
  | cons e rest => simp

/-- A string that was constructed has a text of its own exactly if it is not interpolated. -/
theorem isInterpolated_iff_no_literal (h : ofParts tokens expressions values = .ok s) :
    s.isInterpolated = true ↔ s.literal? = none := by
  obtain ⟨hpieces, hvalues, -, rfl⟩ := ofParts_eq_ok_iff.mp h
  rw [literal?]
  cases hinterpolated : isInterpolated ⟨tokens, expressions, values⟩ with
  | true => exact ⟨fun _ => rfl, fun _ => rfl⟩
  | false =>
      -- there is a piece, and so there is a text
      cases values with
      | nil => exact absurd (hvalues.trans hpieces) (Nat.zero_ne_add_one _)
      | cons value rest => exact ⟨(nomatch ·), (nomatch ·)⟩

end Parts

/-! ## Checking by number -/

/-- Checks the pieces from the one with the number `i` on. -/
def checkNumbered (last : Nat) : Nat → List Token → Except ShapeFault Unit
  | _, [] => .ok ()
  | i, piece :: later => do
    requireToken "string_tokens" (pieceKind i last) piece
    checkNumbered last (i + 1) later

/-- A string from its parts, its pieces checked by their numbers; nothing, if the number of the last piece is asked for
    and there is none. -/
def ofNumberedParts (tokens : List Token) (expressions : List Node) (values : List String) :
    Option (Except ShapeFault StringLiteral) :=
  if tokens.length ≠ expressions.length + 1 then some (.error (.pieceCount tokens.length expressions.length))
  else if tokens.length ≠ values.length then some (.error .valueCount)
  else tokens.length.ppred.map fun last =>
    (checkNumbered last 0 tokens).map fun _ => ⟨tokens, expressions, values⟩

/-- Later pieces are checked by number as they are without. -/
theorem checkNumbered_later (i : Nat) (later : List Token) :
    checkNumbered (i + later.length) (i + 1) later = checkLaterPieces later := by
  induction later generalizing i with
  | nil => rfl
  | cons piece rest ih =>
      cases rest with
      | nil =>
          show (requireToken "string_tokens" (pieceKind (i + 1) (i + 1)) piece >>= fun _ => .ok ()) =
            requireToken "string_tokens" .rightPiece piece
          rw [pieceKind_later, if_pos rfl]
          exact bind_pure_unit
      | cons next rest =>
          have hlast : i + (piece :: next :: rest).length = i + 1 + (next :: rest).length := by
            simp only [List.length_cons]
            omega
          have hnext : ¬i + 1 = i + 1 + (next :: rest).length := by
            simp only [List.length_cons]
            omega
          rw [hlast, checkNumbered, pieceKind_later, if_neg hnext, ih]
          rfl

theorem checkNumbered_eq (first : Token) (later : List Token) :
    checkNumbered later.length 0 (first :: later) = checkPieces (first :: later) := by
  cases later with
  | nil =>
      show (requireToken "string_tokens" .wholeString first >>= fun _ => .ok ()) =
        requireToken "string_tokens" .wholeString first
      exact bind_pure_unit
  | cons next later =>
      have hlater := checkNumbered_later 0 (next :: later)
      rw [Nat.zero_add] at hlater
      rw [checkNumbered, hlater]
      rfl

/-- **Checking by number** is checking, and there always is a last piece when its number is asked for. -/
theorem ofNumberedParts_eq (tokens : List Token) (expressions : List Node) (values : List String) :
    ofNumberedParts tokens expressions values = some (ofParts tokens expressions values) := by
  rw [ofNumberedParts, ofParts_eq]
  by_cases hpieces : tokens.length ≠ expressions.length + 1
  · rw [if_pos hpieces, if_pos hpieces]
  · rw [if_neg hpieces, if_neg hpieces]
    by_cases hvalues : tokens.length ≠ values.length
    · rw [if_pos hvalues, if_pos hvalues]
    · rw [if_neg hvalues, if_neg hvalues]
      cases tokens with
      | nil => exact absurd (Nat.zero_ne_add_one _) hpieces
      | cons first later =>
          rw [List.length_cons, Nat.ppred_succ, ← checkNumbered_eq]
          rfl

end StringLiteral

/-! ## Laying out by number -/

/-- The name that is used, of the use of a declaration. -/
def Node.accessed? : Node → Option String
  | .access use => some use.name.name
  | _ => none

namespace Layout

/-- The piece with the number `i` of a string whose last piece has the number `last`. -/
def numberedPiece (i last : Nat) (segment : String) : Layout Token :=
  match i, last with
  | 0, 0 => token .wholeString ("'" ++ segment ++ "'")
  | 0, _ => token .leftPiece ("'" ++ segment ++ "$\x7b")
  | i, last =>
    if i = last then token .rightPiece ("\x7d" ++ segment ++ "'")
    else token .middlePiece ("\x7d" ++ segment ++ "$\x7b")

/-- The pieces from the one with the number `i` on, each with the variable after it if there is one. -/
def numberedPieces (names : List String) (last : Nat) : Nat → List String → Layout (List Node × List Token)
  | _, [] => pure ([], [])
  | i, segment :: later => do
    let piece ← numberedPiece i last segment
    match names[i]? with
    | some name =>
      let expression ← access name
      let (expressions, pieces) ← numberedPieces names last (i + 1) later
      return (expression :: expressions, piece :: pieces)
    | none =>
      let (expressions, pieces) ← numberedPieces names last (i + 1) later
      return (expressions, piece :: pieces)

/-- A string of segments with a variable between any two of them, laid out by number; nothing, if the number of the
    last segment is asked for and there is none. -/
def interpolatedByNumber (segments names : List String) : Option (Layout Node) :=
  if segments.length ≠ names.length + 1 then some (throw .segmentCount)
  else segments.length.ppred.map fun last => do
    let (expressions, pieces) ← numberedPieces names last 0 segments
    return .string (← ofExcept (StringLiteral.ofParts pieces expressions segments))

theorem numberedPiece_later (i : Nat) (segment : String) (later : Nat) :
    numberedPiece (i + 1) (i + 1 + later) segment =
      if later = 0 then token .rightPiece ("\x7d" ++ segment ++ "'")
      else token .middlePiece ("\x7d" ++ segment ++ "$\x7b") := by
  show (if i + 1 = i + 1 + later then _ else _) = _
  simp only [Nat.left_eq_add]

/-- Pieces that are laid out by number are a first piece and later pieces. -/
theorem numberedPieces_eq {names : List String} (i : Nat) (segment : String) (later : List String)
    (hlater : (names.drop i).length = later.length) :
    numberedPieces names (i + later.length) i (segment :: later) = (do
      let piece ← numberedPiece i (i + later.length) segment
      let rest ← laterPieces ((names.drop i).zip later)
      return (rest.1, piece :: rest.2)) := by
  induction later generalizing i segment with
  | nil =>
      have hnone : names[i]? = none := by
        have hnil := List.eq_nil_of_length_eq_zero hlater
        rw [← Nat.add_zero i, ← List.getElem?_drop, hnil]
        rfl
      simp only [numberedPieces, hnone, List.zip_nil_right, laterPieces, pure_bind]
  | cons next later ih =>
      have hi : i < names.length := by
        rw [List.length_drop, List.length_cons] at hlater
        omega
      have hsome : names[i]? = some names[i] := List.getElem?_eq_getElem hi
      have hdrop : names.drop i = names[i] :: names.drop (i + 1) := List.drop_eq_getElem_cons hi
      have hrest : (names.drop (i + 1)).length = later.length := by
        rw [hdrop] at hlater
        exact Nat.succ.inj hlater
      have hlast : i + (next :: later).length = i + 1 + later.length := by
        rw [List.length_cons]
        omega
      have hempty : ((names.drop (i + 1)).zip later).isEmpty = true ↔ later.length = 0 := by
        rw [List.isEmpty_iff_length_eq_zero, List.length_zip, hrest, Nat.min_self]
      rw [hlast, numberedPieces]
      simp only [hsome, ih (i + 1) next hrest, numberedPiece_later, hdrop, List.zip_cons_cons, laterPieces, hempty]
      by_cases hend : later.length = 0
      · simp only [if_pos hend, bind_assoc, pure_bind]
      · simp only [if_neg hend, bind_assoc, pure_bind]

/-- **Laying out by number** is laying out, and there always is a last segment when its number is asked for. -/
theorem interpolatedByNumber_eq (segments names : List String) :
    interpolatedByNumber segments names = some (interpolated segments names) := by
  cases segments with
  | nil => rfl
  | cons first others =>
      rw [interpolatedByNumber, interpolated]
      by_cases hlength : others.length = names.length
      · have hsegments : (first :: others).length = names.length + 1 := congrArg (· + 1) hlength
        have hpieces := @numberedPieces_eq names 0 first others hlength.symm
        rw [Nat.zero_add, List.drop_zero] at hpieces
        rw [if_neg (not_not_intro hsegments), List.length_cons, Nat.ppred_succ, Option.map_some, hpieces]
        simp only [if_neg (not_not_intro hlength)]
        cases others with
        | nil => simp only [numberedPiece, List.length_nil, List.isEmpty_nil, if_true, bind_assoc, pure_bind]
        | cons next others =>
            simp only [numberedPiece, List.length_cons, List.isEmpty_cons, Bool.false_eq_true, if_false, bind_assoc,
              pure_bind]
      · have hsegments : (first :: others).length ≠ names.length + 1 := fun h => hlength (Nat.succ.inj h)
        rw [if_pos hsegments]
        simp only [if_pos hlength]
        rfl

/-! ## Laid out strings -/

/-- What is laid out by number has the kind that its number asks for. -/
theorem runAt_numberedPiece (i last : Nat) (segment : String) (o : Nat) :
    ∃ piece o', (numberedPiece i last segment).runAt o = (.ok piece, o') ∧ piece.kind = pieceKind i last := by
  cases i with
  | zero =>
      cases last with
      | zero => exact ⟨_, _, rfl, rfl⟩
      | succ last => exact ⟨_, _, rfl, rfl⟩
  | succ i =>
      show ∃ piece o', runAt (if i + 1 = last then _ else _) o = (.ok piece, o') ∧ _
      rw [pieceKind_later]
      by_cases hlast : i + 1 = last
      · rw [if_pos hlast, if_pos hlast]
        exact ⟨_, _, rfl, rfl⟩
      · rw [if_neg hlast, if_neg hlast]
        exact ⟨_, _, rfl, rfl⟩

theorem runAt_access (name : String) (o : Nat) :
    ∃ e o', (access name).runAt o = (.ok e, o') ∧ e.accessed? = some name :=
  ⟨_, _, rfl, rfl⟩

/-- Pieces laid out by number pass the check by number, and the variables between them are the names in order. -/
theorem runAt_numberedPieces (names : List String) (last i : Nat) (segments : List String) (o : Nat) :
    ∃ es ts o', (numberedPieces names last i segments).runAt o = (.ok (es, ts), o') ∧ ts.length = segments.length ∧
      StringLiteral.checkNumbered last i ts = .ok () ∧
      es.map Node.accessed? = ((names.drop i).take segments.length).map some := by
  induction segments generalizing i o with
  | nil => exact ⟨[], [], o, rfl, rfl, rfl, rfl⟩
  | cons segment later ih =>
      obtain ⟨piece, o₁, hpiece, hkind⟩ := runAt_numberedPiece i last segment o
      have hcheck {ts : List Token} (h : StringLiteral.checkNumbered last (i + 1) ts = .ok ()) :
          StringLiteral.checkNumbered last i (piece :: ts) = .ok () :=
        requireToken_bind_eq_ok_iff.mpr ⟨hkind, h⟩
      cases hname : names[i]? with
      | none =>
          obtain ⟨es, ts, o', hrun, hlength, hlater, haccessed⟩ := ih (i + 1) o₁
          have hend : names.length ≤ i := List.getElem?_eq_none_iff.mp hname
          refine ⟨es, piece :: ts, o', ?_, congrArg (· + 1) hlength, hcheck hlater, ?_⟩
          · simp only [numberedPieces, hname, runAt_bind_eq_ok, runAt_pure_eq_ok]
            exact ⟨piece, o₁, hpiece, (es, ts), o', hrun, rfl, rfl⟩
          · rw [haccessed, List.drop_eq_nil_of_le hend, List.drop_eq_nil_of_le (Nat.le_succ_of_le hend),
              List.take_nil, List.take_nil]
      | some name =>
          obtain ⟨e, o₂, haccess, he⟩ := runAt_access name o₁
          obtain ⟨es, ts, o', hrun, hlength, hlater, haccessed⟩ := ih (i + 1) o₂
          obtain ⟨hi, rfl⟩ := List.getElem?_eq_some_iff.mp hname
          refine ⟨e :: es, piece :: ts, o', ?_, congrArg (· + 1) hlength, hcheck hlater, ?_⟩
          · simp only [numberedPieces, hname, runAt_bind_eq_ok, runAt_pure_eq_ok]
            exact ⟨piece, o₁, hpiece, e, o₂, haccess, (es, ts), o', hrun, rfl, rfl⟩
          · rw [List.map_cons, he, haccessed, List.drop_eq_getElem_cons hi]
            rfl

/-- **A string that is laid out**, with a variable between any two segments, passes the check and has the segments and
    variables that were given. -/
theorem runAt_interpolated {segments names : List String} (hlength : segments.length = names.length + 1) (o : Nat) :
    ∃ s o', (interpolated segments names).runAt o = (.ok (.string s), o') ∧
      StringLiteral.ofParts s.tokens s.expressions s.values = .ok s ∧
      s.values = segments ∧ s.expressions.map Node.accessed? = names.map some := by
  have hnumbered := interpolatedByNumber_eq segments names
  rw [interpolatedByNumber, if_neg (not_not_intro hlength), hlength, Nat.ppred_succ, Option.map_some,
    Option.some.injEq] at hnumbered
  obtain ⟨es, ts, o', hrun, hts, hcheck, haccessed⟩ := runAt_numberedPieces names names.length 0 segments o
  rw [List.drop_zero, hlength, List.take_of_length_le (Nat.le_succ _)] at haccessed
  have hes : es.length = names.length := by
    have h := congrArg List.length haccessed
    rwa [List.length_map, List.length_map] at h
  have hs : StringLiteral.ofParts ts es segments = .ok ⟨ts, es, segments⟩ := by
    have h := StringLiteral.ofNumberedParts_eq ts es segments
    rw [StringLiteral.ofNumberedParts, if_neg (not_not_intro (by omega)), if_neg (not_not_intro hts), hts, hlength,
      Nat.ppred_succ, Option.map_some, hcheck] at h
    exact (Option.some.inj h).symm
  refine ⟨⟨ts, es, segments⟩, o', ?_, hs, rfl, haccessed⟩
  rw [← hnumbered]
  simp only [runAt_bind_eq_ok, runAt_ofExcept_eq_ok, runAt_pure_eq_ok]
  exact ⟨(es, ts), o', hrun, _, o', ⟨hs, rfl⟩, rfl, rfl⟩

end Layout

/-- **The pieces that make a string** are one more than the expressions, with a text for each piece, and are a whole
    piece, or a left piece, middle pieces and a right piece; checking them by number never asks for the last piece of
    none. What was constructed is interpolated exactly if it has two pieces or more, and exactly then it has no text of
    its own. A string that is laid out from one segment more than variables, by number or not, passes the check, and
    has the segments and variables that were given. -/
theorem pieces_make_strings :
    (∀ (tokens : List Token) (expressions : List Node) (values : List String),
      StringLiteral.ofNumberedParts tokens expressions values =
        some (StringLiteral.ofParts tokens expressions values) ∧
      ((∃ s, StringLiteral.ofParts tokens expressions values = .ok s) ↔
        tokens.length = expressions.length + 1 ∧ values.length = tokens.length ∧
          PieceKinds (tokens.map Token.kind)) ∧
      ∀ s, StringLiteral.ofParts tokens expressions values = .ok s →
        s.tokens = tokens ∧ s.expressions = expressions ∧ s.values = values ∧
          (s.isInterpolated = true ↔ 2 ≤ s.tokens.length) ∧ (s.isInterpolated = true ↔ s.literal? = none)) ∧
    ∀ segments names : List String,
      Layout.interpolatedByNumber segments names = some (Layout.interpolated segments names) ∧
      (segments.length = names.length + 1 → ∀ offset, ∃ s offset',
        (Layout.interpolated segments names).runAt offset = (.ok (.string s), offset') ∧
          StringLiteral.ofParts s.tokens s.expressions s.values = .ok s ∧
          s.values = segments ∧ s.expressions.map Node.accessed? = names.map some) := by
  refine ⟨fun tokens expressions values => ⟨StringLiteral.ofNumberedParts_eq _ _ _, ?_, ?_⟩, fun segments names =>
    ⟨Layout.interpolatedByNumber_eq segments names, Layout.runAt_interpolated⟩⟩
  · constructor
    · rintro ⟨s, h⟩
      obtain ⟨hpieces, hvalues, hkinds, -⟩ := StringLiteral.ofParts_eq_ok_iff.mp h
      exact ⟨hpieces, hvalues, hkinds⟩
    · rintro ⟨hpieces, hvalues, hkinds⟩
      exact ⟨_, StringLiteral.ofParts_eq_ok_iff.mpr ⟨hpieces, hvalues, hkinds, rfl⟩⟩
  · intro s h
    refine ⟨?_, ?_, ?_, StringLiteral.isInterpolated_iff_two_pieces h, StringLiteral.isInterpolated_iff_no_literal h⟩
    all_goals
      obtain ⟨-, -, -, rfl⟩ := StringLiteral.ofParts_eq_ok_iff.mp h
      rfl

/-- Two variables between three segments. -/
theorem greeting_laidOut :
    ∃ s offset, (Layout.interpolated ["dear ", " ", "!"] ["title", "name"]).runAt 0 = (.ok (.string s), offset) ∧
      s.values = ["dear ", " ", "!"] ∧ s.expressions.map Node.accessed? = [some "title", some "name"] ∧
      s.isInterpolated = true ∧ s.literal? = none := by
  obtain ⟨s, offset, hrun, hs, hvalues, haccessed⟩ :=
    (pieces_make_strings.2 ["dear ", " ", "!"] ["title", "name"]).2 rfl 0
  obtain ⟨-, hparts, hmade⟩ := pieces_make_strings.1 s.tokens s.expressions s.values
  obtain ⟨-, -, -, htwo, hliteral⟩ := hmade s hs
  have hpieces : s.tokens.length = 3 := by
    rw [(hparts.mp ⟨s, hs⟩).1, ← List.length_map Node.accessed?, haccessed]
    rfl
  have hinterpolated : s.isInterpolated = true := htwo.mpr (by rw [hpieces]; decide)
  exact ⟨s, offset, hrun, hvalues, haccessed, hinterpolated, hliteral.mp hinterpolated⟩

end ResourceLang.Syntax
