/-!
# Letter case

Only the twenty-six ASCII letters have a case here; every other character is kept.
-/

namespace BoundSql.Text

/-- A text with its ASCII letters in lower case. -/
def lower (s : String) : String := String.ofList (s.toList.map Char.toLower)

end BoundSql.Text
