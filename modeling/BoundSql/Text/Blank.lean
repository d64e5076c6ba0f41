/-!
# Blank text

A character is blank when it has the Unicode property `White_Space`, and a text
is blank when all of its characters are.  The empty text is blank.
-/

namespace BoundSql.Text

/-- The twenty-five characters with the property `White_Space`. -/
def isBlankChar (c : Char) : Bool :=
  let n := c.toNat
  (9 ≤ n && n ≤ 13) || n == 0x20 || n == 0x85 || n == 0xA0 || n == 0x1680 ||
    (0x2000 ≤ n && n ≤ 0x200A) || n == 0x2028 || n == 0x2029 || n == 0x202F ||
    n == 0x205F || n == 0x3000

/-- A character sequence without visible content. -/
def isBlankChars (cs : List Char) : Bool := cs.all isBlankChar

/-- A text without visible content. -/
def isBlank (s : String) : Bool := isBlankChars s.toList

/-- Drop the blank characters at the start of a text. -/
def trimStart (s : String) : String := String.ofList (s.toList.dropWhile isBlankChar)

@[simp] theorem isBlankChars_nil : isBlankChars [] = true := rfl

@[simp] theorem isBlankChars_cons (c : Char) (cs : List Char) :
    isBlankChars (c :: cs) = (isBlankChar c && isBlankChars cs) := rfl

@[simp] theorem isBlankChars_append (cs ds : List Char) :
    isBlankChars (cs ++ ds) = (isBlankChars cs && isBlankChars ds) := by
  simp [isBlankChars]

@[simp] theorem isBlank_ofList (cs : List Char) :
    isBlank (String.ofList cs) = isBlankChars cs := by
  simp [isBlank]

theorem isBlankChars_eq_false_iff (cs : List Char) :
    isBlankChars cs = false ↔ ∃ c ∈ cs, isBlankChar c = false := by
  simp [isBlankChars]

end BoundSql.Text
