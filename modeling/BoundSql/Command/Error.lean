import BoundSql.Database.Executor

/-!
# Command errors

A command fails for a reason of its own or for that of the configuration, the
statement or the database behind it; such an error presents itself.
-/

namespace BoundSql

/-- What is wrong with a request that has the right shape. -/
inductive RequestFault where
  | nestedCell (row : Nat)
  | nestedAssignment (column : String)
deriving DecidableEq

def RequestFault.reason : RequestFault → String
  | .nestedCell row => "row " ++ row.repr ++ " contains a nested array or object"
  | .nestedAssignment column => "set value for \x60" ++ column ++ "\x60 must be a scalar"

/-- Why a command fails. -/
inductive CommandError where
  | config (e : ConfigError)
  | query (e : QueryError)
  | db (e : DbError)
  | invalidRequest (fault : RequestFault)
  /-- A request that is no document or not of the shape of its kind. -/
  | malformedRequest
  /-- A configuration file that cannot be shown. -/
  | inaccessible
deriving DecidableEq

def CommandError.report : CommandError → Report
  | .config e => e.report
  | .query e => e.report
  | .db e => e.report
  | .invalidRequest fault =>
      ⟨"sqlward_cli::request", "Invalid request: " ++ fault.reason,
        some "Requests are JSON objects, e.g. \x7b\"where\": \x7b\"id\": [1, 2]\x7d\x7d"⟩
  | .malformedRequest => ⟨"sqlward_cli::json", "Malformed JSON request", none⟩
  | .inaccessible => ⟨"sqlward_cli::io", "IO error while reading config", none⟩

end BoundSql
