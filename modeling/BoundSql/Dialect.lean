import BoundSql.Text.Case

/-!
# Dialects

A dialect fixes how names are quoted, how many values and rows one statement may
carry, how generated identifiers come back and how a page is spelled.
-/

namespace BoundSql

/-- The supported database families. -/
inductive Dialect where
  | sqlite
  | postgres
  | mysql
  | sqlserver
deriving DecidableEq, Inhabited

/-- How identifiers generated by an insert are learned. -/
inductive IdStrategy where
  /-- A trailing clause returns one row for each inserted row. -/
  | returning
  /-- A clause before the values returns one row for each inserted row. -/
  | output
  /-- The driver reports the first identifier; the others follow it. -/
  | firstInsertId
deriving DecidableEq

/-- How a page of rows is requested. -/
inductive PaginationStyle where
  /-- The row count stands before the number of skipped rows. -/
  | limitOffset
  /-- The number of skipped rows stands first; needs an ordering. -/
  | offsetFetch
deriving DecidableEq

namespace Dialect

/-- All dialects in their canonical order. -/
def all : List Dialect := [sqlite, postgres, mysql, sqlserver]

def name : Dialect → String
  | sqlite => "sqlite"
  | postgres => "postgres"
  | mysql => "mysql"
  | sqlserver => "sqlserver"

/-- The dialect with exactly this canonical name. -/
def ofName? (s : String) : Option Dialect := all.find? fun d => d.name = s

/-- The dialect called by this name or alias, in any ASCII case. -/
def ofAlias? (s : String) : Option Dialect :=
  let s := Text.lower s
  if s = "sqlite" ∨ s = "sqlite3" then some sqlite
  else if s = "postgres" ∨ s = "postgresql" ∨ s = "pgsql" then some postgres
  else if s = "mysql" ∨ s = "mariadb" then some mysql
  else if s = "sqlserver" ∨ s = "mssql" then some sqlserver
  else none

def openQuote : Dialect → Char
  | sqlite | postgres => '"'
  | mysql => '\x60'
  | sqlserver => '['

def closeQuote : Dialect → Char
  | sqlite | postgres => '"'
  | mysql => '\x60'
  | sqlserver => ']'

/-- The number of values one statement may bind. -/
def defaultMaxParams : Dialect → Nat
  | sqlite => 32766
  | postgres => 65535
  | mysql => 65536
  | sqlserver => 2099

/-- The number of rows one insert may carry, if the dialect limits it. -/
def defaultMaxInsertRows : Dialect → Option Nat
  | sqlserver => some 1000
  | _ => none

/-- How generated identifiers are learned. -/
def idStrategy : Dialect → IdStrategy
  | sqlite | postgres => .returning
  | mysql => .firstInsertId
  | sqlserver => .output

/-- How a page is requested. -/
def paginationStyle : Dialect → PaginationStyle
  | sqlserver => .offsetFetch
  | _ => .limitOffset

theorem ofName?_name (d : Dialect) : ofName? d.name = some d := by
  cases d <;> decide

theorem ofAlias?_name (d : Dialect) : ofAlias? d.name = some d := by
  cases d <;> decide

end Dialect

end BoundSql
