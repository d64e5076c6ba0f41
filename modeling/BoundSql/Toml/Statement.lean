import BoundSql.Toml.Basic

/-!
# Statements of configuration files

A statement gives a key a value or makes a table the current one.  It keeps the
characters that it is written with: those in front of it, its keys as they are
spelled, and those behind it up to the line end.
-/

namespace BoundSql.Toml

/-- A key as it is spelled, with the space between it and the points next to it. -/
structure Key where
  name : String
  spelling : List Char
  before : List Char
  after : List Char

def Key.bare (name : String) : Key := ⟨name, name.toList, [], []⟩

def names (keys : List Key) : List String := keys.map Key.name

/-- Keys joined by points, with the space in front of the first and behind the last of them. -/
structure Path where
  lead : List Char
  keys : List Key
  gap : List Char

namespace Path

/-- The path of one key that is spelled like its name. -/
def bare (name : String) (gap : List Char) : Path := ⟨[], [.bare name], gap⟩

/-- The path that begins with a key and the point behind it; `lead` and `after` are the space
around the key. -/
def under (lead : List Char) (key : Key) (after : List Char) (p : Path) : Path where
  lead := lead
  keys := { key with after := after } :: p.keys.modifyHead fun k => { k with before := p.lead }
  gap := p.gap

def keyChars : List Key → List Char
  | [] => []
  | [k] => k.spelling
  | k :: l :: rest => k.spelling ++ k.after ++ '.' :: l.before ++ keyChars (l :: rest)

def chars (p : Path) : List Char := p.lead ++ keyChars p.keys ++ p.gap

end Path

/-- What a statement says. -/
inductive Clause where
  /-- A key of the current table has a value. -/
  | assignment (path : Path) (value : Toml)
  /-- The table with a path is the current one. -/
  | header (path : Path)
  /-- The next entry of the array of tables with a path is the current one. -/
  | element (path : Path)
  /-- The table with a path is the current one, though the file has no header for it. -/
  | implied (path : Path)

namespace Clause

def path : Clause → Path
  | .assignment path _ => path
  | .header path => path
  | .element path => path
  | .implied path => path

def mapPath (f : Path → Path) : Clause → Clause
  | .assignment path v => .assignment (f path) v
  | .header path => .header (f path)
  | .element path => .element (f path)
  | .implied path => .implied (f path)

def scope (current : List Key) : Clause → List Key
  | .assignment .. => current
  | .header path => path.keys
  | .element path => path.keys
  | .implied path => path.keys

/-- The names of the keys that lead to what a clause introduces. -/
def target (current : List Key) : Clause → List String
  | .assignment path _ => names (current ++ path.keys)
  | .header path => names path.keys
  | .element path => names path.keys
  | .implied path => names path.keys

/-- The characters of a clause, without the value. -/
def chars : Clause → List Char
  | .assignment path _ => path.chars ++ ['=']
  | .header path => '[' :: path.chars ++ [']']
  | .element path => '[' :: '[' :: path.chars ++ [']', ']']
  | .implied path => '[' :: path.chars ++ [']']

end Clause

/-- A clause with the characters in front of it and behind it; the value of an assignment is
among those behind it. -/
structure Statement where
  lead : List Char
  clause : Clause
  tail : List Char

namespace Statement

def mapPath (f : Path → Path) (s : Statement) : Statement :=
  { s with clause := s.clause.mapPath f }

/-- Spell the path of a statement with other keys. -/
def respell (keys : List Key) (s : Statement) : Statement :=
  s.mapPath fun p => { p with keys := keys }

def between (lead tail : List Char) (s : Statement) : Statement :=
  ⟨lead ++ s.lead, s.clause, s.tail ++ tail⟩

/-- The characters in front of a clause.  A header that the file does not have is set off by an
empty line unless something stands in front of it. -/
def opening (s : Statement) : List Char :=
  match s.clause, s.lead with
  | .implied _, [] => ['\n']
  | _, lead => lead

def chars (s : Statement) : List Char := s.opening ++ s.clause.chars ++ s.tail

end Statement

end BoundSql.Toml
