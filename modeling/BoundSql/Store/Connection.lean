import BoundSql.Database.Connection
import BoundSql.Store.Execute

/-!
# The store as a connection

What the store tells about a statement is what a connection tells: its rows, how many
rows it changed and the identifier of the row inserted last.
-/

namespace BoundSql.Store

/-- Whether a statement only reads. -/
def Bound.isReading : Bound → Bool
  | .count .. | .select .. => true
  | _ => false

/-- The identifier of the row that a statement inserts last, zero if it inserts none. -/
def lastRowid (params : List Value) : Bound → Except Failure Int64
  | .insert t targets rows _ => do
      let (_, ids) ← insertAll params targets [] t rows
      return ids.getLast?.getD 0
  | _ => .ok 0

/-- Run a statement and tell what came of it. -/
def tell (s : Store) (params : List Value) (b : Bound) :
    Except Failure (Connection.Outcome × Store) := do
  let (raw, next) ← s.runBound params b
  let last ← lastRowid params b
  return (⟨raw.rows, b.isReading, raw.affected, last⟩, next)

/-- Read a statement, run it and tell what came of it. -/
def tellText (s : Store) (sql : String) (params : List Value) :
    Except Failure (Connection.Outcome × Store) := do
  s.tell params (← s.bindText sql params)

def connection : Connection Store where
  run sql params := fun s =>
    match s.tellText sql params with
    | .ok (out, next) => (.ok out, next)
    | .error e => (.error (e.message sql), s)
  batch stage := fun s =>
    match stage, s.saved with
    | .begin, none => (.ok (), { s with saved := some s.tables })
    | .begin, some _ => (.error "cannot start a transaction within a transaction", s)
    | .commit, some _ => (.ok (), { s with saved := none })
    | .commit, none => (.error "cannot commit - no transaction is active", s)
    | .rollback, some tables => (.ok (), ⟨tables, none⟩)
    | .rollback, none => (.error "cannot rollback - no transaction is active", s)

end BoundSql.Store
