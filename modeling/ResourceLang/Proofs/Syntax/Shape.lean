import ResourceLang.Proofs.Outcome
import ResourceLang.Syntax.Declaration

/-!
# Checked parts — a check changes nothing

A function named `ofParts` refuses parts or puts them together as they are. So what it gives is made of the very
parts it was given, whatever its requirements are.
-/

namespace ResourceLang.Syntax

theorem Identifier.eq_of_ofToken {token : Token} {i : Identifier} (h : ofToken token = .ok i) : ⟨token⟩ = i := by
  obtain ⟨-, -, h⟩ := bind_eq_ok_iff.mp h
  exact Except.ok.inj h

theorem TypeName.eq_of_ofToken {token : Token} {t : TypeName} (h : ofToken token = .ok t) : ⟨token⟩ = t := by
  obtain ⟨-, -, h⟩ := bind_eq_ok_iff.mp h
  exact Except.ok.inj h

theorem IntegerLiteral.eq_of_ofParts {token : Token} {value : UInt64} {i : IntegerLiteral}
    (h : ofParts token value = .ok i) : ⟨token, value⟩ = i := by
  obtain ⟨-, -, h⟩ := bind_eq_ok_iff.mp h
  exact Except.ok.inj h

theorem BooleanLiteral.eq_of_ofToken {token : Token} {b : BooleanLiteral} (h : ofToken token = .ok b) :
    ⟨token⟩ = b := by
  rw [ofToken] at h
  split_ifs at h
  exact Except.ok.inj h

theorem NullLiteral.eq_of_ofToken {token : Token} {n : NullLiteral} (h : ofToken token = .ok n) :
    ⟨token⟩ = n := by
  obtain ⟨-, -, h⟩ := bind_eq_ok_iff.mp h
  exact Except.ok.inj h

/-- A string has one piece more than expressions, one text for each piece, and is made of these. -/
theorem StringLiteral.eq_of_ofParts {tokens : List Token} {expressions : List Node} {values : List String}
    {s : StringLiteral} (h : ofParts tokens expressions values = .ok s) :
    tokens.length = expressions.length + 1 ∧ tokens.length = values.length ∧
      ⟨tokens, expressions, values⟩ = s := by
  rw [ofParts] at h
  by_cases hpieces : tokens.length = expressions.length + 1
  · by_cases hvalues : tokens.length = values.length
    · rw [if_neg (not_not_intro hpieces), if_neg (not_not_intro hvalues)] at h
      obtain ⟨-, -, h⟩ := bind_eq_ok_iff.mp h
      exact ⟨hpieces, hvalues, Except.ok.inj h⟩
    · rw [if_neg (not_not_intro hpieces), if_pos hvalues] at h
      exact nomatch h
  · rw [if_pos hpieces] at h
    exact nomatch h

theorem ArrayLiteral.eq_of_ofParts {opening closing : Token} {items : List Node} {a : ArrayLiteral}
    (h : ofParts opening items closing = .ok a) : ⟨opening, items, closing⟩ = a := by
  obtain ⟨-, -, h⟩ := bind_eq_ok_iff.mp h
  obtain ⟨-, -, h⟩ := bind_eq_ok_iff.mp h
  exact Except.ok.inj h

theorem PropertyAssignment.eq_of_ofParts {key value : Node} {colon : Token} {p : PropertyAssignment}
    (h : ofParts key colon value = .ok p) : ⟨key, colon, value⟩ = p := by
  obtain ⟨-, -, h⟩ := bind_eq_ok_iff.mp h
  obtain ⟨-, -, h⟩ := bind_eq_ok_iff.mp h
  exact Except.ok.inj h

theorem ObjectLiteral.eq_of_ofParts {opening closing : Token} {properties : List PropertyAssignment}
    {o : ObjectLiteral} (h : ofParts opening properties closing = .ok o) : ⟨opening, properties, closing⟩ = o := by
  obtain ⟨-, -, h⟩ := bind_eq_ok_iff.mp h
  obtain ⟨-, -, h⟩ := bind_eq_ok_iff.mp h
  exact Except.ok.inj h

theorem Argument.eq_of_ofParts {expression : Node} {comma : Option Token} {a : Argument}
    (h : ofParts expression comma = .ok a) : ⟨expression, comma⟩ = a := by
  obtain ⟨-, -, h⟩ := bind_eq_ok_iff.mp h
  exact Except.ok.inj h

theorem Call.eq_of_ofParts {name : Identifier} {opening closing : Token} {arguments : List Argument} {c : Call}
    (h : ofParts name opening arguments closing = .ok c) : ⟨name, opening, arguments, closing⟩ = c := by
  obtain ⟨-, -, h⟩ := bind_eq_ok_iff.mp h
  obtain ⟨-, -, h⟩ := bind_eq_ok_iff.mp h
  exact Except.ok.inj h

theorem DefaultValue.eq_of_ofParts {assignment : Token} {value : Node} {v : DefaultValue}
    (h : ofParts assignment value = .ok v) : ⟨assignment, value⟩ = v := by
  obtain ⟨-, -, h⟩ := bind_eq_ok_iff.mp h
  exact Except.ok.inj h

theorem DecoratorUse.eq_of_ofParts {sign : Token} {call : Call} {d : DecoratorUse}
    (h : ofParts sign call = .ok d) : ⟨sign, call⟩ = d := by
  obtain ⟨-, -, h⟩ := bind_eq_ok_iff.mp h
  exact Except.ok.inj h

theorem ResourceDeclaration.eq_of_ofParts {leading : List Node} {keyword : Token} {name : Identifier}
    {type assignment body : Node} {existing : Option Token} {condition : Option Node} {d : ResourceDeclaration}
    (h : ofParts leading keyword name type existing assignment condition body = .ok d) :
    ⟨leading, keyword, name, type, existing, assignment, condition, body⟩ = d := by
  simp only [ofParts, bind_eq_ok_iff] at h
  obtain ⟨-, -, -, -, -, -, -, -, -, -, -, -, -, -, h⟩ := h
  exact Except.ok.inj h

theorem OutputDeclaration.eq_of_ofParts {leading : List Node} {keyword : Token} {name : Identifier}
    {type assignment value : Node} {d : OutputDeclaration}
    (h : ofParts leading keyword name type assignment value = .ok d) :
    ⟨leading, keyword, name, type, assignment, value⟩ = d := by
  simp only [ofParts, bind_eq_ok_iff] at h
  obtain ⟨-, -, -, -, -, -, -, -, h⟩ := h
  exact Except.ok.inj h

theorem ParameterDeclaration.eq_of_ofParts {leading : List Node} {keyword : Token} {name : Identifier}
    {type : Node} {modifier : Option Node} {d : ParameterDeclaration}
    (h : ofParts leading keyword name type modifier = .ok d) : ⟨leading, keyword, name, type, modifier⟩ = d := by
  simp only [ofParts, bind_eq_ok_iff] at h
  obtain ⟨-, -, -, -, -, -, -, -, h⟩ := h
  exact Except.ok.inj h

end ResourceLang.Syntax
