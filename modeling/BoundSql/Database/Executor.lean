import BoundSql.Config.Error
import BoundSql.Outcome.Row
import BoundSql.Query.Error
import BoundSql.Trace.Traced

/-!
# Database drivers

A driver is a machine with a state: it executes one statement at a time and moves
through transactions.  Any of its four operations may fail, and a failed operation
also leaves a state.
-/

namespace BoundSql

/-- Why an operation of the database fails. -/
inductive DbError where
  | query (e : QueryError)
  | config (e : ConfigError)
  | connection (message : String)
  | execution (sql : String) (params : List Value) (message : String)
  | unexpectedResult (sql message : String)
  | transaction (stage : TransactionStage) (message : String)
deriving DecidableEq

namespace DbError

/-- The presentation of a database error; a wrapped error presents itself. -/
def report : DbError → Report
  | .query e => e.report
  | .config e => e.report
  | .connection message =>
      ⟨"sqlward_db::connection", "Database connection failed: " ++ message,
        some "Check if the database file exists and is accessible"⟩
  | .execution sql _ message =>
      ⟨"sqlward_db::query_execution",
        "Query execution failed: " ++ message ++ "\n  sql: " ++ sql, none⟩
  | .unexpectedResult sql message =>
      ⟨"sqlward_db::unexpected_result",
        "Unexpected result: " ++ message ++ "\n  sql: " ++ sql, none⟩
  | .transaction stage message =>
      ⟨"sqlward_db::transaction",
        "Transaction " ++ stage.word ++ " failed: " ++ message, none⟩

/-- The statement that failed, if the error carries one. -/
def sql? : DbError → Option String
  | .execution sql _ _ => some sql
  | .unexpectedResult sql _ => some sql
  | _ => none

end DbError

/-- A database driver over states of type `σ`. -/
structure Executor (σ : Type) where
  execute (sql : String) (params : List Value) : Step σ DbError RawResult
  begin : Step σ DbError Unit
  commit : Step σ DbError Unit
  rollback : Step σ DbError Unit

/-- Report a call of the driver. -/
def Step.call {σ ε : Type} (c : Call) : Step σ ε Unit := fun s => (⟨[.call c], .ok ()⟩, s)

/-- The same driver, reporting each call before it is made. -/
def Executor.recorded {σ : Type} (x : Executor σ) : Executor σ where
  execute sql params := do
    Step.call (.execute sql params)
    x.execute sql params
  begin := do
    Step.call .begin
    x.begin
  commit := do
    Step.call .commit
    x.commit
  rollback := do
    Step.call .rollback
    x.rollback

end BoundSql
