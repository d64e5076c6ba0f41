/-!
# Repeated texts

A list without repetition has no first repeated text.
-/

namespace BoundSql.Text

/-- The first text that equals an earlier one or one of those already seen. -/
def firstRepeated? (seen : List String) : List String → Option String
  | [] => none
  | s :: rest => if seen.contains s then some s else firstRepeated? (s :: seen) rest

end BoundSql.Text
