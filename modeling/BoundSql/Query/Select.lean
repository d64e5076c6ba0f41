import BoundSql.Query.Order
import BoundSql.Query.Page
import BoundSql.Query.Where

/-!
# Selecting rows

A query collects columns and ordering terms and keeps the last filter and the last
page.  Its statement has the clauses in a fixed order, each present only if it has
something to say.
-/

namespace BoundSql

/-- A query for rows of one table. -/
structure SelectQuery where
  columns : List String
  filter : Filter
  sorts : List SortTerm
  page : Option Page
deriving DecidableEq

namespace SelectQuery

/-- The query for all columns of all rows. -/
def empty : SelectQuery := ⟨[], .empty, [], none⟩

/-- Ask for further columns. -/
def addColumns (q : SelectQuery) (columns : List String) : SelectQuery :=
  { q with columns := q.columns ++ columns }

/-- Restrict the rows, in place of any earlier filter. -/
def withFilter (q : SelectQuery) (f : Filter) : SelectQuery := { q with filter := f }

def orderBy (q : SelectQuery) (s : SortTerm) : SelectQuery := { q with sorts := q.sorts ++ [s] }

/-- Ask for one page, in place of any earlier one. -/
def withPage (q : SelectQuery) (p : Page) : SelectQuery := { q with page := some p }

/-- The list of selected columns; no columns means all. -/
def selection (o : Options) (columns : List String) : Except QueryError (List Piece) :=
  if columns.isEmpty then .ok [.word .star]
  else do
    let names ← o.columnNames columns
    return Piece.commaSeparated (names.map fun n => [.name n])

/-- The clause for an optional page. -/
def pagination (q : SelectQuery) (o : Options) (ordered : Bool) :
    Except QueryError (Option Fragment) :=
  match q.page with
  | none => .ok none
  | some p => (o.buildPagination p ordered).map some

def build (q : SelectQuery) (o : Options) : Traced QueryError Fragment := do
  let table ← Traced.ofExcept o.tableName
  let selected ← Traced.ofExcept (selection o q.columns)
  let restriction ← o.buildWhere q.filter
  let ordering ← Traced.ofExcept (o.buildOrderBy q.sorts)
  let paging ← Traced.ofExcept (q.pagination o (!ordering.isEmpty))
  let clauses := [restriction, ordering].filter (fun c => !c.isEmpty) ++ paging.toList
  let head :=
    [[.word .select], selected, [.word .from], [.name table]] ++ clauses.map Fragment.pieces
  let fragment : Fragment := ⟨Piece.spaced head, restriction.params⟩
  Traced.log (.built .select fragment.sql)
  Traced.log (.bound .select fragment.params)
  return fragment

/-- Build the statement that counts the rows of the filter; nothing else of the query matters. -/
def buildCount (q : SelectQuery) (o : Options) : Traced QueryError Fragment := do
  let table ← Traced.ofExcept o.tableName
  let restriction ← o.buildWhere q.filter
  let clauses := [restriction].filter fun c => !c.isEmpty
  let counted := .word .count :: Piece.parenthesised [.word .star]
  let head :=
    [[.word .select], counted, [.word .from], [.name table]] ++ clauses.map Fragment.pieces
  let fragment : Fragment := ⟨Piece.spaced head, restriction.params⟩
  Traced.log (.builtCount fragment.sql)
  return fragment

end SelectQuery

end BoundSql
