import BoundSql.Query.Where

/-!
# Deleting rows

A deletion is restricted by a filter; the empty filter deletes every row.
-/

namespace BoundSql

/-- A deletion of rows of one table. -/
structure DeleteQuery where
  filter : Filter
deriving DecidableEq

def DeleteQuery.build (q : DeleteQuery) (o : Options) : Traced QueryError Fragment := do
  let table ← Traced.ofExcept o.tableName
  let restriction ← o.buildWhere q.filter
  let clauses := [restriction].filter fun c => !c.isEmpty
  let head := [[.word .deleteFrom], [.name table]] ++ clauses.map Fragment.pieces
  let fragment : Fragment := ⟨Piece.spaced head, restriction.params⟩
  Traced.log (.built .delete fragment.sql)
  Traced.log (.bound .delete fragment.params)
  return fragment

end BoundSql
