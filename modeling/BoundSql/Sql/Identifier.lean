import BoundSql.Query.Error
import BoundSql.Text.Blank
import BoundSql.Text.Lines

/-!
# Quoted identifiers

A qualified name is cut at its dots and every segment is quoted on its own, the
closing quote being written twice inside.  Reading a quoted segment back takes the
first closing quote that is not doubled as its end.
-/

namespace BoundSql

/-- A name whose segments all have visible content, with the dialect that quotes it. -/
structure Identifier where
  dialect : Dialect
  segments : List (List Char)
deriving DecidableEq

namespace Identifier

/-- Write the closing quote twice wherever it occurs. -/
def doubled (close : Char) : List Char → List Char
  | [] => []
  | c :: rest => if c = close then close :: close :: doubled close rest else c :: doubled close rest

def quotedSegment (dialect : Dialect) (segment : List Char) : List Char :=
  dialect.openQuote :: doubled dialect.closeQuote segment ++ [dialect.closeQuote]

def quotedSegments (dialect : Dialect) (segments : List (List Char)) : List Char :=
  ['.'].intercalate (segments.map (quotedSegment dialect))

def chars (i : Identifier) : List Char := quotedSegments i.dialect i.segments

def text (i : Identifier) : String := String.ofList i.chars

/-- Quote a name, or refuse it if some segment is blank. -/
def ofString (dialect : Dialect) (name : String) : Except QueryError Identifier :=
  let segments := name.toList.splitOn '.'
  if segments.any Text.isBlankChars then .error (.invalidIdentifier name)
  else .ok ⟨dialect, segments⟩

/-- Read a quoted segment after its opening quote: the segment and what follows its end. -/
def readSegment (close : Char) : List Char → Option (List Char × List Char)
  | [] => none
  | c :: rest =>
      if c = close then
        match rest with
        | d :: rest' =>
            -- a doubled closing quote belongs to the segment
            if d = close then (readSegment close rest').map fun r => (close :: r.1, r.2)
            else some ([], rest)
        | [] => some ([], [])
      else (readSegment close rest).map fun r => (c :: r.1, r.2)

end Identifier

end BoundSql
