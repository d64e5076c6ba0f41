import BoundSql.Options.Basic
import BoundSql.Outcome.Row
import BoundSql.Query.Error
import BoundSql.Trace.Traced

/-!
# Outcomes of inserts

Generated identifiers are read the way the dialect reports them.  An insert of many
rows collects the identifiers batch by batch and accepts a batch only if it reports
one identifier for each of its rows.  Counts of affected rows are words and added up
as words, so a sum that needs more than sixty-four bits wraps around.
-/

namespace BoundSql

/-- The outcome of inserting one row. -/
structure InsertResult where
  id : Option Value
  affected : UInt64
deriving DecidableEq

namespace InsertResult

/-- Read the identifier of the inserted row as the dialect reports it. -/
def ofRaw (o : Options) (raw : RawResult) : InsertResult where
  id :=
    match o.dialect.idStrategy with
    | .firstInsertId => raw.insertId.map .integer
    | .returning | .output => do
        let column ← o.idColumn
        let row ← raw.rows.head?
        row.get? column
  affected := raw.affected

/-- The outcome as a document. -/
def toJson (r : InsertResult) : Json :=
  .obj [("id", Json.ofOption Value.toJson r.id), ("affected", .int r.affected.toNat)]

end InsertResult

/-- The outcome of inserting many rows. -/
structure BulkResult where
  ids : List Value
  affected : UInt64
  statements : Nat
deriving DecidableEq

/-- The outcome as a document. -/
def BulkResult.toJson (r : BulkResult) : Json :=
  .obj [("ids", .arr (r.ids.map Value.toJson)), ("affected", .int r.affected.toNat),
    ("statements", .int r.statements)]

/-- What has been learned from the batches recorded so far. -/
structure Collector where
  strategy : IdStrategy
  idColumn : Option String
  totalRows : Nat
  ids : List Value
  affected : UInt64
  statements : Nat
deriving DecidableEq

namespace Collector

/-- A collector for an insert of so many rows. -/
def new (o : Options) (totalRows : Nat) : Collector where
  strategy := o.dialect.idStrategy
  idColumn := o.idColumn
  totalRows := totalRows
  ids := []
  affected := 0
  statements := 0

def collectsIds (c : Collector) : Bool :=
  match c.strategy with
  | .firstInsertId => true
  | .returning | .output => c.idColumn.isSome

def consecutive (first : Int64) (count : Nat) : List Value :=
  (List.range count).map fun i => .integer (first + Int64.ofNat i)

def idsOf (c : Collector) (batchRows : Nat) (raw : RawResult) : List Value :=
  match c.strategy with
  | .firstInsertId =>
      match raw.insertId with
      | some first => consecutive first batchRows
      | none => []
  | .returning | .output =>
      let column := c.idColumn.getD ""
      raw.rows.filterMap fun row => row.get? column

/-- Count a batch, whether or not its identifiers are accepted. -/
def counted (c : Collector) (raw : RawResult) : Collector :=
  { c with statements := c.statements + 1, affected := c.affected + raw.affected }

/-- Record the result of a batch of so many rows.  A batch with the wrong number of
identifiers is counted and adds none. -/
def record (batchRows : Nat) (raw : RawResult) : Step Collector QueryError Unit := fun c =>
  let c := c.counted raw
  -- the batch has been inserted, so it counts also if its identifiers are refused
  if c.collectsIds then
    let ids := c.idsOf batchRows raw
    if ids.length = batchRows then
      (pure (), { c with ids := c.ids ++ ids })
    else
      (do
        Traced.log (.idsMissing c.statements ids.length batchRows)
        Traced.fail (.idCountMismatch batchRows ids.length), c)
  else
    (pure (), c)

/-- Close the collector: identifiers, if collected, have to be as many as the rows. -/
def finish (c : Collector) : Except QueryError BulkResult :=
  if c.collectsIds ∧ c.ids.length ≠ c.totalRows then
    .error (.idCountMismatch c.totalRows c.ids.length)
  else
    .ok ⟨c.ids, c.affected, c.statements⟩

end Collector

end BoundSql
