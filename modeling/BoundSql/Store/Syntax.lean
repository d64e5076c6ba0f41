/-!
# Statements of the store

The store understands selections, inserts, updates and deletions over one table.
Names keep the position at which they were written, so that an unknown one can be
pointed at.
-/

namespace BoundSql.Store

/-- A possibly qualified name and its byte position in the statement. -/
structure Ref where
  path : List String
  offset : Nat
deriving DecidableEq

/-- The segments of a name joined by dots. -/
def joined (path : List String) : String := String.intercalate "." path

/-- What a column is compared with or set to. -/
inductive Operand where
  /-- The parameter with this index. -/
  | param (index : Nat)
  | null
  | integer (n : Nat)
deriving DecidableEq

/-- An ordering comparison. -/
inductive Comparison where
  | equal
  | notEqual
  | less
  | lessOrEqual
  | greater
  | greaterOrEqual
deriving DecidableEq

/-- A test of one column. -/
inductive Test where
  | compare (c : Comparison) (x : Operand)
  | like (negated : Bool) (pattern : Operand)
  | member (negated : Bool) (xs : List Operand)
  | isNull (negated : Bool)
deriving DecidableEq

/-- Tests of columns that must all hold. -/
abbrev Conditions := List (Ref × Test)

/-- What a selection returns. -/
inductive Selection where
  | all
  | columns (refs : List Ref)
  /-- The number of rows, under a title. -/
  | count (title : String)
deriving DecidableEq

/-- An ordering term; `true` sorts the largest first. -/
abbrev OrderTerm := Ref × Bool

/-- A statement. -/
inductive Statement where
  | select (what : Selection) (table : List String) (conditions : Conditions)
      (order : List OrderTerm) (window : Option (Nat × Nat))
  | insert (table : List String) (columns : List Ref) (rows : List (List Operand))
      (returning : List Ref)
  | update (table : List String) (assignments : List (Ref × Operand)) (conditions : Conditions)
  | delete (table : List String) (conditions : Conditions)
deriving DecidableEq

end BoundSql.Store
