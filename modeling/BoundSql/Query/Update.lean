import BoundSql.Query.Where

/-!
# Updating rows

An update needs at least one assignment and a filter that restricts something, and
assigns each column at most once.
-/

namespace BoundSql

/-- An update of rows of one table. -/
structure UpdateQuery where
  assignments : List (String × Value)
  filter : Filter
deriving DecidableEq

namespace UpdateQuery

/-- The update that assigns nothing. -/
def empty : UpdateQuery := ⟨[], .empty⟩

def set (q : UpdateQuery) (column : String) (v : Value) : UpdateQuery :=
  { q with assignments := q.assignments ++ [(column, v)] }

/-- Assign values to further columns. -/
def setAll (q : UpdateQuery) (pairs : List (String × Value)) : UpdateQuery :=
  { q with assignments := q.assignments ++ pairs }

/-- Restrict the rows, in place of any earlier filter. -/
def withFilter (q : UpdateQuery) (f : Filter) : UpdateQuery := { q with filter := f }

/-- The names of the assigned columns; `seen` are the columns assigned before. -/
def assignedNames (o : Options) (seen : List String) :
    List String → Except QueryError (List Name)
  | [] => .ok []
  | column :: rest =>
      if seen.contains column then .error (.duplicateColumn column)
      else do
        let name ← o.columnName column
        let names ← assignedNames o (column :: seen) rest
        return name :: names

def assignment (name : Name) : List Piece :=
  [.name name, .word .space, .word .equal, .word .space, .placeholder]

def build (q : UpdateQuery) (o : Options) : Traced QueryError Fragment :=
  if q.assignments.isEmpty ∨ q.filter.isEmpty then .fail .emptyUpdateClause
  else do
    let table ← Traced.ofExcept o.tableName
    let names ← Traced.ofExcept (assignedNames o [] (q.assignments.map Prod.fst))
    let restriction ← o.buildWhere q.filter
    let pieces := Piece.spaced
      [[.word .update], [.name table], [.word .set],
       Piece.commaSeparated (names.map assignment), restriction.pieces]
    let fragment : Fragment := ⟨pieces, q.assignments.map Prod.snd ++ restriction.params⟩
    Traced.log (.built .update fragment.sql)
    Traced.log (.bound .update fragment.params)
    return fragment

end UpdateQuery

end BoundSql
