import BoundSql.Filter.Predicate
import BoundSql.Query.Whitelist

/-!
# The restriction of a statement

All columns of a filter are checked against the whitelist before any condition is
compiled.  The restriction is the conjunction of the predicates in filter order; a
filter that restricts nothing has no text.
-/

namespace BoundSql

namespace Filter

def compileEntries :
    List ((String × Condition) × Name) → Traced QueryError (List Predicate)
  | [] => pure []
  | ((column, c), name) :: rest => do
      let first ← c.compile column name
      let others ← compileEntries rest
      return first ++ others

def predicates (f : Filter) (o : Options) : Traced QueryError (List Predicate) := do
  let names ← Traced.ofExcept (o.columnNames f.columns)
  compileEntries (f.entries.zip names)

end Filter

def Predicate.restriction (ps : List Predicate) : Fragment where
  pieces := .word .where :: .word .space :: Piece.conjoined (ps.map Predicate.pieces)
  params := ps.flatMap Predicate.params

def Options.buildWhere (o : Options) (f : Filter) : Traced QueryError Fragment :=
  if f.isEmpty then pure .empty
  else do
    let ps ← f.predicates o
    return Predicate.restriction ps

end BoundSql
