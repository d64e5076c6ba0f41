import BoundSql.Sql.Identifier
import BoundSql.Value

/-!
# Statement fragments

A fragment is a list of pieces with the values of its placeholders, in the order of
the placeholders.  Its text is the concatenation of the texts of its pieces.
-/

namespace BoundSql

/-- A name in a statement: quoted, or a text that the caller vouches for. -/
inductive Name where
  | quoted (identifier : Identifier)
  | trusted (text : String)
deriving DecidableEq

def Name.chars : Name → List Char
  | .quoted identifier => identifier.chars
  | .trusted text => text.toList

def Name.text (n : Name) : String := String.ofList n.chars

/-- A piece of statement text. -/
inductive Piece where
  | word (w : Word)
  | name (n : Name)
  | number (n : Nat)
  | placeholder
deriving DecidableEq

namespace Piece

def chars : Piece → List Char
  | .word w => w.chars
  | .name n => n.chars
  | .number n => (Nat.repr n).toList
  | .placeholder => ['?']

/-- Pieces of several parts, separated by a space. -/
def spaced (parts : List (List Piece)) : List Piece := [.word .space].intercalate parts

/-- Pieces of several parts, separated by a comma and a space. -/
def commaSeparated (parts : List (List Piece)) : List Piece :=
  [.word .comma, .word .space].intercalate parts

/-- Pieces of several parts, separated by the conjunction. -/
def conjoined (parts : List (List Piece)) : List Piece :=
  [.word .space, .word .and, .word .space].intercalate parts

def parenthesised (pieces : List Piece) : List Piece :=
  .word .leftParen :: pieces ++ [.word .rightParen]

def placeholders (n : Nat) : List Piece := commaSeparated (List.replicate n [.placeholder])

end Piece

/-- Statement text with the values bound to its placeholders. -/
structure Fragment where
  pieces : List Piece
  params : List Value
deriving DecidableEq

namespace Fragment

/-- The fragment without text. -/
def empty : Fragment := ⟨[], []⟩

def chars (f : Fragment) : List Char := f.pieces.flatMap Piece.chars

def sql (f : Fragment) : String := String.ofList f.chars

def isEmpty (f : Fragment) : Bool := f.chars.isEmpty

/-- The number of question marks in the text, also those inside names. -/
def placeholderCount (f : Fragment) : Nat := f.chars.count '?'

def toJson (f : Fragment) : Json :=
  .obj [("sql", .str f.sql), ("params", .arr (f.params.map Value.toJson))]

end Fragment

end BoundSql
