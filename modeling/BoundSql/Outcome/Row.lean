import BoundSql.Value

/-!
# Result rows

A row lists its cells in the order of the selection.  Looking up a column finds the
first cell of that name.
-/

namespace BoundSql

/-- One row of a result. -/
structure Row where
  cells : List (String × Value)
deriving DecidableEq, Inhabited

namespace Row

/-- The first cell of a column. -/
def get? (r : Row) (column : String) : Option Value := r.cells.lookup column

/-- The names of the cells in order. -/
def columns (r : Row) : List String := r.cells.map Prod.fst

/-- The row as a document; a repeated column is written repeatedly. -/
def toJson (r : Row) : Json := .obj (r.cells.map fun c => (c.1, c.2.toJson))

/-- Equality of rows cell by cell, with the equality of values. -/
def same (r s : Row) : Bool :=
  r.columns = s.columns && (r.cells.zip s.cells).all fun p => p.1.2.same p.2.2

end Row

/-- What a driver reports for one statement. -/
structure RawResult where
  rows : List Row
  affected : UInt64
  /-- The identifier of the first row that an insert added, if the driver knows it. -/
  insertId : Option Int64
deriving DecidableEq, Inhabited

/-- Rows of a selection with the number of affected rows. -/
structure RowSet where
  rows : List Row
  affected : UInt64
deriving DecidableEq

namespace RowSet

/-- The rows that a driver reports. -/
def ofRaw (raw : RawResult) : RowSet := ⟨raw.rows, raw.affected⟩

def toJson (s : RowSet) : Json :=
  .obj [("rows", .arr (s.rows.map Row.toJson)), ("affected", .int s.affected.toNat)]

end RowSet

end BoundSql
