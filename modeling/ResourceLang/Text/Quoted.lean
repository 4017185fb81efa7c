import ResourceLang.Text.Printable

/-!
# Quoted text — how a message shows a text it was given

The text stands between double quotes. A double quote and a backslash inside are preceded by a backslash,
the four controls with a short name are written by it, and any other character that is not shown as itself
is written by its code point in lowercase hexadecimal digits.
-/

namespace ResourceLang.Text

/-- The code point of `c` between braces. -/
def codePointEscape (c : Char) : List Char :=
  ['\\', 'u', '\x7b'] ++ Nat.toDigits 16 c.toNat ++ ['\x7d']

/-- How one character is written between the quotes. -/
def escaped (c : Char) : List Char :=
  if c = '\x00' then ['\\', '0']
  else if c = '\t' then ['\\', 't']
  else if c = '\n' then ['\\', 'n']
  else if c = '\r' then ['\\', 'r']
  else if c = '"' then ['\\', '"']
  else if c = '\\' then ['\\', '\\']
  else if isShown c then [c]
  else codePointEscape c

/-- The text between double quotes, every character written as `escaped` says. -/
def quoted (text : String) : String :=
  String.ofList ('"' :: text.toList.flatMap escaped ++ ['"'])

end ResourceLang.Text
