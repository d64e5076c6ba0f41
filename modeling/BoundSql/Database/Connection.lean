import BoundSql.Database.Executor
import BoundSql.Text.Blank
import BoundSql.Text.Case

/-!
# Connections

A connection runs one statement at a time and tells what came of it.  The driver over
a connection makes a result of this.  A connection knows the identifier of the row
that was inserted last; that of the first row of an insert is reckoned from it and
the number of changed rows.
-/

namespace BoundSql

/-- What a connection tells about a statement that has run. -/
structure Connection.Outcome where
  rows : List Row
  /-- Whether the statement could change nothing. -/
  readonly : Bool
  changes : UInt64
  lastRowid : Int64
deriving DecidableEq

/-- A connection over states of type `σ`; what fails has a message and also leaves a state. -/
structure Connection (σ : Type) where
  run (sql : String) (params : List Value) (s : σ) : Except String Connection.Outcome × σ
  /-- Open a transaction or close it. -/
  batch (stage : TransactionStage) (s : σ) : Except String Unit × σ

namespace Connection

variable {σ : Type}

/-- The value that is bound for a parameter; a truth value is a number. -/
def bound : Value → Value
  | .bool b => .integer (if b then 1 else 0)
  | v => v

/-- Whether a text starts with the keyword of an insert. -/
def startsInsert (sql : String) : Bool :=
  Text.lower (String.ofList ((Text.trimStart sql).toList.take 6)) = "insert"

/-- The identifier of the first inserted row: the last row's, less one for each other row. -/
def Outcome.firstId? (out : Outcome) (sql : String) : Option Int64 :=
  if startsInsert sql ∧ 0 < out.changes then
    some (out.lastRowid - (out.changes.toInt64 - 1))
  else none

/-- The result of a statement. -/
def Outcome.raw (out : Outcome) (sql : String) : RawResult :=
  if out.readonly then ⟨out.rows, out.rows.length, none⟩
  else ⟨out.rows, out.changes, out.firstId? sql⟩

/-- Open or close a transaction; a failure names the stage. -/
def batched (k : Connection σ) (stage : TransactionStage) : Step σ DbError Unit := fun s =>
  match k.batch stage s with
  | (.ok (), next) => (pure (), next)
  | (.error message, next) => (.fail (.transaction stage message), next)

/-- The driver over a connection. -/
def executor (k : Connection σ) : Executor σ where
  execute sql params := fun s =>
    match k.run sql (params.map bound) s with
    | (.ok out, next) =>
        let raw := out.raw sql
        (⟨[.log (.answered raw.rows.length raw.affected)], .ok raw⟩, next)
    | (.error message, next) => (.fail (.execution sql params message), next)
  begin := k.batched .begin
  commit := k.batched .commit
  rollback := k.batched .rollback

end Connection

end BoundSql
