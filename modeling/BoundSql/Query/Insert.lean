import BoundSql.Query.Whitelist
import BoundSql.Text.Repeat
import BoundSql.Trace.Traced

/-!
# Inserting rows

A single row is inserted by one statement.  Many rows are cut into consecutive
batches so that no statement binds more values or carries more rows than the
options allow; every batch but the last is full.
-/

namespace BoundSql

/-- The names of the columns of an insert; repetition is checked before anything else. -/
def Options.insertNames (o : Options) (columns : List String) : Except QueryError (List Name) :=
  match Text.firstRepeated? [] columns with
  | some column => .error (.duplicateColumn column)
  | none => o.columnNames columns

/-- The number of rows of a given width that one statement may carry. -/
def batchSize (width maxParams : Nat) (maxRows : Option Nat) : Except QueryError Nat :=
  if width = 0 then .error .missingInsertData
  -- a row that is too wide would make an empty batch
  else if maxParams < width then .error (.rowTooWide width maxParams)
  else
    match maxRows with
    | none => .ok (maxParams / width)
    | some rows => .ok (min (maxParams / width) rows)

/-- The placeholders of so many rows. -/
def insertRows (width rows : Nat) : List Piece :=
  Piece.commaSeparated (List.replicate rows (Piece.parenthesised (Piece.placeholders width)))

/-- The clauses that carry the rows and ask for the identifiers, as the dialect orders them. -/
def insertClauses (strategy : IdStrategy) (id : Option Name) (rows : List Piece) :
    List (List Piece) :=
  match strategy, id with
  | .output, some id =>
      [[.word .output], [.word .inserted, .word .dot, .name id], [.word .values], rows]
  | .returning, some id => [[.word .values], rows, [.word .returning], [.name id]]
  | _, _ => [[.word .values], rows]

/-- The text of an insert of so many rows into named columns. -/
def Options.renderInsert (o : Options) (names : List Name) (rows : Nat) :
    Except QueryError (List Piece) := do
  let table ← o.tableName
  let id ← o.idColumnName
  let columns := Piece.parenthesised (Piece.commaSeparated (names.map fun n => [.name n]))
  return Piece.spaced
    ([[.word .insertInto], [.name table], columns] ++
      insertClauses o.dialect.idStrategy id (insertRows names.length rows))

/-- An insert of one row; every column has its value. -/
structure InsertQuery where
  columns : List String
  values : List Value
  aligned : columns.length = values.length
deriving DecidableEq

namespace InsertQuery

/-- The insert without columns. -/
def empty : InsertQuery := ⟨[], [], rfl⟩

def set (q : InsertQuery) (column : String) (v : Value) : InsertQuery where
  columns := q.columns ++ [column]
  values := q.values ++ [v]
  aligned := by simp [q.aligned]

/-- The statement, if the columns are admissible and the row is not too wide. -/
def fragment (q : InsertQuery) (o : Options) : Except QueryError Fragment :=
  if q.columns.isEmpty then .error .missingInsertData
  else do
    let names ← o.insertNames q.columns
    let _ ← batchSize q.columns.length o.maxParams o.maxInsertRows
    let pieces ← o.renderInsert names 1
    return ⟨pieces, q.values⟩

def build (q : InsertQuery) (o : Options) : Traced QueryError Fragment := do
  let fragment ← Traced.ofExcept (q.fragment o)
  Traced.log (.built .insert fragment.sql)
  Traced.log (.bound .insert fragment.params)
  return fragment

end InsertQuery

/-- One statement of a plan and the input rows it carries. -/
structure InsertBatch where
  fragment : Fragment
  start : Nat
  stop : Nat
deriving DecidableEq

def InsertBatch.rowCount (b : InsertBatch) : Nat := b.stop - b.start

/-- An insert cut into statements, in input order. -/
structure InsertPlan where
  statements : List InsertBatch
  totalRows : Nat
  batchSize : Nat
deriving DecidableEq

/-- An insert of many rows with one list of columns. -/
structure BulkInsert where
  columns : List String
  rows : List (List Value)
deriving DecidableEq

namespace BulkInsert

/-- An insert without rows. -/
def new (columns : List String) : BulkInsert := ⟨columns, []⟩

def addRows (b : BulkInsert) (rows : List (List Value)) : BulkInsert :=
  { b with rows := b.rows ++ rows }

/-- The first row whose width differs, with its index. -/
def firstRagged? (width : Nat) (index : Nat) : List (List Value) → Option (Nat × Nat)
  | [] => none
  | row :: rest =>
      if row.length = width then firstRagged? width (index + 1) rest
      else some (index, row.length)

/-- Cut rows into consecutive groups onto the groups cut before, latest first.  All but the
last have the given positive size; the number of rows bounds the number of groups. -/
def groupsOnto (size : Nat) :
    Nat → List (List Value) → List (List (List Value)) → List (List (List Value))
  | 0, _, done => done.reverse
  | _ + 1, [], done => done.reverse
  | bound + 1, row :: rows, done =>
      groupsOnto size bound ((row :: rows).drop size) ((row :: rows).take size :: done)

/-- Consecutive groups of rows; all but the last have the given positive size. -/
def groups (size : Nat) (rows : List (List Value)) : List (List (List Value)) :=
  groupsOnto size rows.length rows []

def batch (o : Options) (names : List Name) (size index : Nat) (group : List (List Value)) :
    Except QueryError InsertBatch := do
  let pieces ← o.renderInsert names group.length
  let start := index * size
  return ⟨⟨pieces, group.flatten⟩, start, start + group.length⟩

/-- The statements of the insert, or the first defect. -/
def statements (b : BulkInsert) (o : Options) : Except QueryError InsertPlan :=
  if b.columns.isEmpty ∨ b.rows.isEmpty then .error .missingInsertData
  else do
    let width := b.columns.length
    -- columns are checked before rows, and rows before limits
    let names ← o.insertNames b.columns
    match firstRagged? width 0 b.rows with
    | some (row, found) => .error (.raggedInsertRows row width found)
    | none => do
        let size ← batchSize width o.maxParams o.maxInsertRows
        let statements ← ((groups size b.rows).mapIdx (batch o names size)).mapM id
        return ⟨statements, b.rows.length, size⟩

def plan (b : BulkInsert) (o : Options) : Traced QueryError InsertPlan := do
  let p ← Traced.ofExcept (b.statements o)
  Traced.log (.planned p.totalRows o.table p.statements.length p.batchSize)
  Traced.emit (.batchPlanned o.table p.totalRows p.statements.length)
  return p

end BulkInsert

end BoundSql
