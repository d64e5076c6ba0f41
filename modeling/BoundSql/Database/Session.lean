import BoundSql.Database.Executor
import BoundSql.Options.Logged
import BoundSql.Outcome.Inserted
import BoundSql.Query.Delete
import BoundSql.Query.Insert
import BoundSql.Query.Select
import BoundSql.Query.Update

/-!
# Database sessions

A session holds the options in force and the state of a driver.  Every operation
builds its statements under the options in force, hands them to the driver in order
and reads the results; a statement that cannot be built is never handed over.
-/

namespace BoundSql

/-- The options in force and the state of the driver. -/
structure Session (σ : Type) where
  options : Options
  driver : σ

abbrev Session.Action (σ α : Type) : Type := Step (Session σ) DbError α

namespace Session

variable {σ α : Type}

def currentOptions : Action σ Options := fun s => (pure s.options, s)

/-- Run an operation of the driver. -/
def drive (step : Step σ DbError α) : Action σ α := fun s =>
  let (t, driver) := step s.driver
  (t, { s with driver := driver })

def build (f : Options → Traced QueryError α) : Action σ α := fun s =>
  ((f s.options).mapError .query, s)

/-- Execute a statement and report it once it has been executed. -/
def run (x : Executor σ) (kind : StatementKind) (f : Fragment) : Action σ RawResult := do
  let o ← currentOptions
  let sql := f.sql
  Step.log (.executing o.table kind sql)
  Step.log (.executingWith f.params)
  let raw ← drive (x.execute sql f.params)
  Step.emit (.statementExecuted kind o.table raw.affected)
  return raw

/-- Apply overrides to the options in force; on an error they stay as they are. -/
def reconfigure (overrides : Overrides) : Action σ Unit := fun s =>
  let t := (s.options.reconfigured overrides).mapError DbError.config
  match t.result with
  | .ok next => (⟨t.notes, .ok ()⟩, { s with options := next })
  | .error e => (⟨t.notes, .error e⟩, s)

def select (x : Executor σ) (q : SelectQuery) : Action σ RowSet := do
  let f ← build q.build
  let raw ← run x .select f
  return .ofRaw raw

/-- The integer in the first cell of the first row. -/
def countOf? (raw : RawResult) : Option Int64 := do
  let row ← raw.rows.head?
  let cell ← row.cells.head?
  cell.2.asInteger?

/-- Count the rows of a filter; a negative count reads as zero. -/
def count (x : Executor σ) (q : SelectQuery) : Action σ Nat := do
  let f ← build q.buildCount
  let raw ← run x .select f
  match countOf? raw with
  | some n => return n.toInt.toNat
  | none => Step.fail (.unexpectedResult f.sql "COUNT(*) returned no integer cell")

def insertRow (x : Executor σ) (q : InsertQuery) : Action σ InsertResult := do
  let f ← build q.build
  let raw ← run x .insert f
  let o ← currentOptions
  return .ofRaw o raw

/-- Run the batches of a plan in order up to the first that fails or is not accepted. -/
def runBatches (x : Executor σ) (c : Collector) : List InsertBatch → Action σ Collector
  | [] => pure c
  | b :: rest => do
      let o ← currentOptions
      Step.log (.inserting o.table b.start b.stop)
      let raw ← run x .insert b.fragment
      let (t, c) := Collector.record b.rowCount raw c
      Step.lift (t.mapError .query)
      runBatches x c rest

/-- Insert many rows by as many statements as the limits require. -/
def insertRows (x : Executor σ) (b : BulkInsert) : Action σ BulkResult := do
  let plan ← build b.plan
  let o ← currentOptions
  let c ← runBatches x (.new o plan.totalRows) plan.statements
  Step.lift ((Traced.ofExcept c.finish).mapError .query)

/-- Update rows; the result is their number. -/
def update (x : Executor σ) (q : UpdateQuery) : Action σ UInt64 := do
  let f ← build q.build
  let raw ← run x .update f
  return raw.affected

/-- Delete rows; the result is their number. -/
def delete (x : Executor σ) (q : DeleteQuery) : Action σ UInt64 := do
  let f ← build q.build
  let raw ← run x .delete f
  return raw.affected

end Session

end BoundSql
