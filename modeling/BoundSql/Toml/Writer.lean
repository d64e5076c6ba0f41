import BoundSql.Toml.Document

/-!
# Writing configuration documents

Every statement is written on lines of its own.  An array of more than one text has
a line for each of them; the entries of an array of tables are set off by an empty
line.
-/

namespace BoundSql.Toml

def Statement.assign (key : String) (value : Toml) (spelling : List Char) : Statement :=
  ⟨[], .assignment (.bare key [' ']) value, ' ' :: spelling⟩

def Statement.text (key s : String) : Statement := .assign key (.str s) (quoted s.toList)

def Statement.count (key : String) (n : Nat) : Statement := .assign key (.int n) n.repr.toList

/-- A text on a line of its own inside an array. -/
def itemLine (s : String) : List Char :=
  [' ', ' ', ' ', ' '] ++ quoted s.toList ++ [',', '\n']

def arrayChars : List String → List Char
  | [] => ['[', ']']
  | [s] => '[' :: quoted s.toList ++ [']']
  | ss => '[' :: '\n' :: ss.flatMap itemLine ++ [']']

def Statement.texts (key : String) (ss : List String) : Statement :=
  .assign key (.arr false (ss.map .str)) (arrayChars ss)

/-- The header of the next entry of an array of tables. -/
def Statement.element (key : String) : Statement :=
  ⟨['\n'], .element (.bare key []), []⟩

end BoundSql.Toml
