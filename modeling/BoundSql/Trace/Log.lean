import BoundSql.Dialect
import BoundSql.Json.Writer
import BoundSql.Trace.Event
import BoundSql.Value

/-!
# Log entries

A log entry says what a component did.  Its level, its message and its structured
fields are functions of the entry, so that entries can be compared before any text
is written.
-/

namespace BoundSql

/-- The importance of a log entry, from the most to the least important. -/
inductive LogLevel where
  | error
  | warn
  | info
  | debug
  | trace
deriving DecidableEq

namespace LogLevel

/-- Position in the order of importance. -/
def rank : LogLevel → Nat
  | error => 0
  | warn => 1
  | info => 2
  | debug => 3
  | trace => 4

/-- Whether entries of this level are shown when `limit` is the least important level shown. -/
def shownAt (level limit : LogLevel) : Bool := level.rank ≤ limit.rank

def word : LogLevel → String
  | error => "error"
  | warn => "warn"
  | info => "info"
  | debug => "debug"
  | trace => "trace"

end LogLevel

/-- The part of the program that writes an entry. -/
inductive Component where
  | config
  | query
  | db
  | cli
deriving DecidableEq

def Component.word : Component → String
  | .config => "config"
  | .query => "query"
  | .db => "db"
  | .cli => "cli"

/-- What a component reports. -/
inductive LogEntry where
  | reconfigured (table : String) (dialect : Dialect)
  | usingDefaults (path : String)
  | defaultsWritten (path : String)
  | nullCompared (column operator counterpart : String)
  | built (kind : StatementKind) (sql : String)
  | builtCount (sql : String)
  | bound (kind : StatementKind) (params : List Value)
  | planned (rows : Nat) (table : String) (statements batchSize : Nat)
  | idsMissing (batch found rows : Nat)
  | inserting (table : String) (start stop : Nat)
  | executing (table : String) (kind : StatementKind) (sql : String)
  | executingWith (params : List Value)
  | rollbackFailed (cause : String)
  | answered (rows : Nat) (affected : UInt64)
  | configMissing (path : String)
  | remark (text : String)
  /-- A statement that is shown. -/
  | statement (sql : String)
  /-- The parameters of a statement that is shown. -/
  | parameters (params : List Value)
  /-- The rows that one of several statements carries. -/
  | heading (number total start stop : Nat)
  | output (text : String)
deriving DecidableEq

namespace LogEntry

def level : LogEntry → LogLevel
  | .nullCompared .. | .idsMissing .. | .rollbackFailed _ | .configMissing _ => .warn
  | .defaultsWritten _ | .statement _ | .parameters _ | .heading .. | .output _ => .info
  | .bound .. | .executingWith _ | .answered .. => .trace
  | _ => .debug

def component : LogEntry → Component
  | .reconfigured .. | .usingDefaults _ | .defaultsWritten _ => .config
  | .nullCompared .. | .built .. | .builtCount _ | .bound .. | .planned .. | .idsMissing .. =>
      .query
  | .inserting .. | .executing .. | .executingWith _ | .rollbackFailed _ | .answered .. => .db
  | .configMissing _ | .remark _ | .statement _ | .parameters _ | .heading .. | .output _ => .cli

def message : LogEntry → String
  | .reconfigured table dialect =>
      "reconfigured options for table " ++ table ++ " (" ++ dialect.name ++ ")"
  | .usingDefaults path => "No config file at " ++ path ++ ", using defaults"
  | .defaultsWritten path =>
      "Default configuration file generated with documentation at: " ++ path
  | .nullCompared _ operator counterpart =>
      "comparing against null with \x60" ++ operator ++ "\x60 is deprecated, use \x60" ++
        counterpart ++ "\x60 instead"
  | .built kind sql => "built " ++ kind.word ++ ": " ++ sql
  | .builtCount sql => "built count: " ++ sql
  | .bound kind params => kind.word ++ " params: " ++ Value.inspectAll params
  | .planned rows table statements batchSize =>
      "planned insert of " ++ rows.repr ++ " rows into " ++ table ++ " as " ++ statements.repr ++
        " statements of at most " ++ batchSize.repr ++ " rows"
  | .idsMissing batch found rows =>
      "insert batch #" ++ batch.repr ++ " reported " ++ found.repr ++ " ids for " ++ rows.repr ++
        " rows"
  | .inserting _ start stop => "inserting rows " ++ start.repr ++ ".." ++ stop.repr
  | .executing _ _ sql => "executing " ++ sql
  | .executingWith params => "params: " ++ Value.inspectAll params
  | .rollbackFailed cause => "rollback failed after error: " ++ cause
  | .answered rows affected =>
      "sqlite: " ++ rows.repr ++ " rows, " ++ affected.toNat.repr ++ " affected"
  | .configMissing path => "Config file " ++ path ++ " not found"
  | .remark text => text
  | .statement sql => sql
  | .parameters params => "params: " ++ (Json.arr (params.map Value.toJson)).text
  | .heading number total start stop =>
      "-- statement " ++ number.repr ++ "/" ++ total.repr ++ " (rows " ++ start.repr ++ ".." ++
        stop.repr ++ ")"
  | .output text => text

/-- The structured fields of an entry, in order. -/
def fields : LogEntry → List (String × String)
  | .nullCompared column _ _ => [("column", column)]
  | .inserting table _ _ => [("table", table)]
  | .executing table kind _ => [("table", table), ("kind", kind.word)]
  | _ => []

end LogEntry

end BoundSql
