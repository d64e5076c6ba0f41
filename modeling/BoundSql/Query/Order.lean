import BoundSql.Query.Whitelist

/-!
# The ordering of a statement

An ordering lists terms, each with a direction.  A term is a whitelisted column or
an expression that the caller vouches for.
-/

namespace BoundSql

/-- The direction of an ordering term. -/
inductive Direction where
  | asc
  | desc
deriving DecidableEq, Inhabited

namespace Direction

def word : Direction → Word
  | asc => .asc
  | desc => .desc

/-- The direction named by a text, in any ASCII case. -/
def ofString? (s : String) : Option Direction :=
  let s := Text.lower s
  if s = "asc" then some asc
  else if s = "desc" then some desc
  else none

/-- The direction named by a text, or an error that quotes it. -/
def ofString (s : String) : Except QueryError Direction :=
  match ofString? s with
  | some d => .ok d
  | none => .error (.invalidSortDirection s)

end Direction

/-- What an ordering term sorts by. -/
inductive SortTarget where
  | column (name : String)
  | trusted (expression : String)
deriving DecidableEq

/-- One term of an ordering. -/
structure SortTerm where
  target : SortTarget
  direction : Direction
deriving DecidableEq

namespace SortTerm

def on (column : String) (direction : Direction) : SortTerm := ⟨.column column, direction⟩

/-- Sort by a column, smallest first. -/
def asc (column : String) : SortTerm := ⟨.column column, .asc⟩

/-- Sort by a column, largest first. -/
def desc (column : String) : SortTerm := ⟨.column column, .desc⟩

def trusted (expression : String) (direction : Direction) : SortTerm :=
  ⟨.trusted expression, direction⟩

def pieces (o : Options) (s : SortTerm) : Except QueryError (List Piece) := do
  let name ← match s.target with
    | .column column => o.columnName column
    | .trusted expression => .ok (.trusted expression)
  return [.name name, .word .space, .word s.direction.word]

end SortTerm

/-- The texts of ordering terms, up to the first that is refused. -/
def Options.sortTerms (o : Options) : List SortTerm → Except QueryError (List (List Piece))
  | [] => .ok []
  | s :: rest => do
      let term ← s.pieces o
      let terms ← o.sortTerms rest
      return term :: terms

/-- Build an ordering; without terms it has no text. -/
def Options.buildOrderBy (o : Options) (sorts : List SortTerm) : Except QueryError Fragment :=
  if sorts.isEmpty then .ok .empty
  else do
    let terms ← o.sortTerms sorts
    return ⟨.word .orderBy :: .word .space :: Piece.commaSeparated terms, []⟩

end BoundSql
