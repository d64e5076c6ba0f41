import BoundSql.Filter.Basic
import BoundSql.Json.Writer
import BoundSql.Query.Error

/-!
# Filters in documents

A filter is written as an object of columns.  A scalar asks for equality, an array
for one of its items, and an object lists operators by their codes.  Parsing stops
at the first offending place in document order.
-/

namespace BoundSql

namespace Filter

/-- Read a scalar operand. -/
def scalarOfJson (column : String) (op : Operator) (j : Json) : Except QueryError Value :=
  match Value.ofJson? j with
  | some v => .ok v
  | none => .error (.operandMismatch column op.code .nested)

/-- Read the items of a list operand. -/
def listOfJson (column : String) (op : Operator) : List Json → Except QueryError (List Value)
  | [] => .ok []
  | item :: rest => do
      let v ← scalarOfJson column op item
      let vs ← listOfJson column op rest
      return v :: vs

/-- Read an operand: an array is a list, anything else has to be a scalar. -/
def operandOfJson (column : String) (op : Operator) : Json → Except QueryError Operand
  | .arr items => (listOfJson column op items).map .list
  | scalar => (scalarOfJson column op scalar).map .value

def operatorOfCode (code : String) : Except QueryError Operator :=
  match Operator.ofCode? code with
  | some op => .ok op
  | none => .error (.invalidOperator code)

/-- Read the operators of a condition; a code is checked before its operand. -/
def opsOfJson (column : String) :
    List (String × Json) → Except QueryError (List (Operator × Operand))
  | [] => .ok []
  | (code, operand) :: rest => do
      let op ← operatorOfCode code
      let operand ← operandOfJson column op operand
      let ops ← opsOfJson column rest
      return (op, operand) :: ops

def conditionOfJson (column : String) : Json → Except QueryError Condition
  | .arr items => (listOfJson column .eq items).map .list
  | .obj members => (opsOfJson column members).map .ops
  | scalar => (scalarOfJson column .eq scalar).map .value

def addMembers (f : Filter) : List (String × Json) → Except QueryError Filter
  | [] => .ok f
  | (column, j) :: rest => do
      let c ← conditionOfJson column j
      addMembers (f.condition column c) rest

def ofMembers (members : List (String × Json)) : Except QueryError Filter :=
  addMembers empty members

/-- Read a filter; null restricts nothing. -/
def ofJson : Json → Except QueryError Filter
  | .obj members => ofMembers members
  | .null => .ok empty
  | other => .error (.operandMismatch "" "where" (.notAnObject other.text))

end Filter

end BoundSql
