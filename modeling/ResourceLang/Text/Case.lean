/-!
# Letter case — comparing names without regard to it

Names of resource types are compared without regard to the case of the letters `a` to `z`. No other
character has a case here, so two texts that differ in an accented or non-Latin letter are different.
-/

namespace ResourceLang.Text

/-- The text with `A` to `Z` replaced by `a` to `z`. -/
def lowered (text : String) : String := String.ofList (text.toList.map Char.toLower)

end ResourceLang.Text
