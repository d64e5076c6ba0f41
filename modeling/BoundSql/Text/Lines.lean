/-!
# Lines of a text

Lines end at a line feed.  A carriage return directly before the line feed
belongs to the line end, and a text that ends with a line feed has no further
empty line.
-/

namespace BoundSql.Text

def dropCarriageReturn (cs : List Char) : List Char :=
  if cs.getLast? = some '\r' then cs.dropLast else cs

def linesOfChars (cs : List Char) : List (List Char) :=
  let parts := cs.splitOn '\n'
  let closed := parts.dropLast.map dropCarriageReturn
  match parts.getLast? with
  | none => closed
  | some [] => closed
  | some last => closed ++ [last]

def lines (s : String) : List String := (linesOfChars s.toList).map String.ofList

end BoundSql.Text
