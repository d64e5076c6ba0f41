import BoundSql.Dialect
import BoundSql.Sql.Word

/-!
# Filter operators

A filter names its comparisons by two-letter codes.  The arity of an operator says
which operands it takes: none but the blank text, one value, or also a list.
-/

namespace BoundSql

/-- A comparison of a filter. -/
inductive Operator where
  | eq
  | ne
  | lt
  | le
  | gt
  | ge
  | lk
  | nl
  | nu
  | nn
deriving DecidableEq, Inhabited

/-- Which operands an operator takes. -/
inductive Arity where
  /-- Only the blank text. -/
  | blank
  /-- One value. -/
  | scalar
  /-- One value or a list of values. -/
  | scalarOrList
deriving DecidableEq

namespace Operator

/-- All operators in their canonical order. -/
def all : List Operator := [eq, ne, lt, le, gt, ge, lk, nl, nu, nn]

def code : Operator → String
  | eq => "eq"
  | ne => "ne"
  | lt => "lt"
  | le => "le"
  | gt => "gt"
  | ge => "ge"
  | lk => "lk"
  | nl => "nl"
  | nu => "nu"
  | nn => "nn"

def word : Operator → Word
  | eq => .equal
  | ne => .notEqual
  | lt => .less
  | le => .lessOrEqual
  | gt => .greater
  | ge => .greaterOrEqual
  | lk => .like
  | nl => .notLike
  | nu => .isNull
  | nn => .isNotNull

/-- Which operands the operator takes. -/
def arity : Operator → Arity
  | eq | ne | lk | nl => .scalarOrList
  | lt | le | gt | ge => .scalar
  | nu | nn => .blank

def nullCounterpart? : Operator → Option Operator
  | eq => some nu
  | ne => some nn
  | _ => none

def ofCode? (s : String) : Option Operator := all.find? fun op => op.code = s

theorem ofCode?_code (op : Operator) : ofCode? op.code = some op := by
  cases op <;> decide

end Operator

end BoundSql
