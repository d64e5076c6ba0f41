import BoundSql.Json.Basic
import BoundSql.Text.Quoted

/-!
# Writing documents

The compact form has no space between tokens.  Strings escape quotes, backslashes
and control characters only; reals are written with their shortest digits.
-/

namespace BoundSql.Json

def stringChar (c : Char) : List Char :=
  match c with
  | '"' => ['\\', '"']
  | '\\' => ['\\', '\\']
  | '\x08' => ['\\', 'b']
  | '\x0c' => ['\\', 'f']
  | '\n' => ['\\', 'n']
  | '\r' => ['\\', 'r']
  | '\t' => ['\\', 't']
  | c => if c.toNat < 0x20 then '\\' :: 'u' :: Text.hexPadded 4 c.toNat else [c]

def stringChars (s : String) : List Char := '"' :: s.toList.flatMap stringChar ++ ['"']

/-- A string with its quotes, as a text. -/
def stringText (s : String) : String := String.ofList (stringChars s)

mutual

/-- The compact form of a document. -/
def chars : Json → List Char
  | .null => ['n', 'u', 'l', 'l']
  | .bool true => ['t', 'r', 'u', 'e']
  | .bool false => ['f', 'a', 'l', 's', 'e']
  | .int n => n.repr.toList
  | .real x => (Binary64.documentLayout.text x).toList
  | .str s => stringChars s
  | .arr items => '[' :: itemChars true items ++ [']']
  | .obj members => '\x7b' :: memberChars true members ++ ['\x7d']

/-- The items of an array; every one but the first follows a comma. -/
def itemChars (first : Bool) : List Json → List Char
  | [] => []
  | item :: rest => (if first then [] else [',']) ++ item.chars ++ itemChars false rest

/-- The members of an object; every one but the first follows a comma. -/
def memberChars (first : Bool) : List (String × Json) → List Char
  | [] => []
  | (key, value) :: rest =>
      (if first then [] else [',']) ++ stringChars key ++ ':' :: value.chars ++
        memberChars false rest

end

/-- The compact form of a document as a text. -/
def text (j : Json) : String := String.ofList j.chars

end BoundSql.Json
