import BoundSql.Filter.Operator
import BoundSql.Value

/-!
# Filters

A filter maps columns to conditions in the order in which the columns were first
mentioned.  Setting a condition replaces the old one in place; adding an operator
keeps what the column was filtered by before.
-/

namespace BoundSql

/-- The right-hand side of an operator. -/
inductive Operand where
  | value (v : Value)
  | list (vs : List Value)
deriving DecidableEq

/-- The operand of an operator that takes none. -/
def Operand.blank : Operand := .value Value.blank

/-- What one column is filtered by. -/
inductive Condition where
  /-- Equality with a value. -/
  | value (v : Value)
  /-- Equality with one of several values. -/
  | list (vs : List Value)
  /-- Operators that must all hold. -/
  | ops (entries : List (Operator × Operand))
deriving DecidableEq

def Condition.toOps : Condition → List (Operator × Operand)
  | .value v => [(.eq, .value v)]
  | .list vs => [(.eq, .list vs)]
  | .ops entries => entries

/-- Columns with their conditions, in order of first mention. -/
structure Filter where
  entries : List (String × Condition)
deriving DecidableEq

namespace Filter

/-- The filter that restricts nothing. -/
def empty : Filter := ⟨[]⟩

/-- Whether the filter restricts nothing. -/
def isEmpty (f : Filter) : Bool := f.entries.isEmpty

/-- The number of columns that are restricted. -/
def size (f : Filter) : Nat := f.entries.length

/-- The restricted columns in order. -/
def columns (f : Filter) : List String := f.entries.map Prod.fst

def get? (f : Filter) (column : String) : Option Condition := f.entries.lookup column

/-- Change the condition of a column in place; a new column comes last. -/
def alterEntries (column : String) (change : Option Condition → Condition) :
    List (String × Condition) → List (String × Condition)
  | [] => [(column, change none)]
  | (c, old) :: rest =>
      if c = column then (c, change (some old)) :: rest
      else (c, old) :: alterEntries column change rest

def condition (f : Filter) (column : String) (c : Condition) : Filter :=
  ⟨alterEntries column (fun _ => c) f.entries⟩

def eq (f : Filter) (column : String) (v : Value) : Filter := f.condition column (.value v)

/-- Require a column to equal one of several values. -/
def any (f : Filter) (column : String) (vs : List Value) : Filter :=
  f.condition column (.list vs)

def push (f : Filter) (column : String) (op : Operator) (operand : Operand) : Filter :=
  ⟨alterEntries column
    (fun old => .ops ((old.map Condition.toOps).getD [] ++ [(op, operand)])) f.entries⟩

def op (f : Filter) (column : String) (o : Operator) (v : Value) : Filter :=
  f.push column o (.value v)

def opList (f : Filter) (column : String) (o : Operator) (vs : List Value) : Filter :=
  f.push column o (.list vs)

def isNull (f : Filter) (column : String) : Filter := f.push column .nu .blank

def notNull (f : Filter) (column : String) : Filter := f.push column .nn .blank

end Filter

end BoundSql
