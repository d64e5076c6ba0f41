import BoundSql.Outcome.Row
import BoundSql.Store.Compare
import BoundSql.Store.Number

/-!
# Tables

A table keeps its rows in the order of their row identifiers.  A key column shows
the row identifier; in a table without one it stands behind the columns, where only its
own names find it.  A row without an identifier gets the number after the largest.
Every row that is put into a table satisfies the constraints of its columns.
-/

namespace BoundSql.Store

/-- A column with its constraints. -/
structure Column where
  name : String
  isKey : Bool
  notNull : Bool
  unique : Bool
deriving DecidableEq, Inhabited

/-- A stored row: one value for each column. -/
structure Record where
  id : Int64
  values : List Value
deriving DecidableEq, Inhabited

/-- The value at a position; behind the columns stands the identifier. -/
def Record.cell (r : Record) (index : Nat) : Value := r.values.getD index (.integer r.id)

/-- A table with its rows in the order of their identifiers. -/
structure Table where
  name : String
  columns : List Column
  records : List Record
deriving DecidableEq, Inhabited

/-- Why a statement fails. -/
inductive Failure where
  | syntaxError
  | noSuchTable (path : List String)
  | noSuchColumn (path : List String)
  /-- An unknown column that can be pointed at. -/
  | noSuchColumnAt (path : List String) (offset : Nat)
  | noColumnNamed (table column : String)
  /-- A statement with more placeholders than it may have, the first too many at a position. -/
  | tooManyVariables (offset : Nat)
  | valueCount (values columns : Nat)
  | parameterCount (found needed : Nat)
  | datatypeMismatch
  | notNull (table column : String)
  | unique (table column : String)
deriving DecidableEq

def Failure.message (sql : String) : Failure → String
  | .syntaxError => "syntax error in " ++ sql ++ " at offset 0"
  | .noSuchTable path => "no such table: " ++ joined path
  | .noSuchColumn path => "no such column: " ++ joined path
  | .noSuchColumnAt path offset =>
      "no such column: " ++ joined path ++ " in " ++ sql ++ " at offset " ++ offset.repr
  | .noColumnNamed table column => "table " ++ table ++ " has no column named " ++ column
  | .tooManyVariables offset =>
      "too many SQL variables in " ++ sql ++ " at offset " ++ offset.repr
  | .valueCount values columns => values.repr ++ " values for " ++ columns.repr ++ " columns"
  | .parameterCount found needed =>
      "Wrong number of parameters passed to query. Got " ++ found.repr ++ ", needed " ++ needed.repr
  | .datatypeMismatch => "datatype mismatch"
  | .notNull table column => "NOT NULL constraint failed: " ++ table ++ "." ++ column
  | .unique table column => "UNIQUE constraint failed: " ++ table ++ "." ++ column

/-- The names that the row identifier has in every table, unless a column has such a name. -/
def rowidNames : List String := ["rowid", "oid", "_rowid_"]

/-- The column in which a table without a key column has its row identifiers. -/
def hiddenKey : Column := ⟨"rowid", true, false, false⟩

namespace Table

/-- Whether a name means the same up to ASCII case. -/
def sameName (s t : String) : Bool := Text.lower s = Text.lower t

/-- The position of the key column. -/
def keyIndex? (t : Table) : Option Nat := t.columns.findIdx? Column.isKey

/-- The position of the row identifier: that of the key column, or behind all columns. -/
def idIndex (t : Table) : Nat := t.keyIndex?.getD t.columns.length

/-- The column at a position; behind the columns stands the row identifier. -/
def columnAt (t : Table) (index : Nat) : Column := t.columns.getD index hiddenKey

/-- The position that a name stands for: that of a column, or of the row identifier. -/
def nameIndex? (t : Table) (name : String) : Option Nat :=
  match t.columns.findIdx? fun c => sameName c.name name with
  | some i => some i
  | none => if rowidNames.any (sameName name) then some t.idIndex else none

/-- The position that a name stands for, which may be qualified by the table. -/
def columnIndex? (t : Table) (path : List String) : Option Nat :=
  match path with
  | [name] => t.nameIndex? name
  | [table, name] => if sameName t.name table then t.nameIndex? name else none
  | _ => none

/-- The identifier that the next row gets. -/
def nextId (t : Table) : Int64 :=
  match t.records.getLast? with
  | some r => r.id + 1
  | none => 1

def row (t : Table) (r : Record) : Row := ⟨(t.columns.map Column.name).zip r.values⟩

/-- All rows in the order of their identifiers. -/
def rows (t : Table) : List Row := t.records.map t.row

/-- The identifier that a key value asks for; null asks for a new one. -/
def keyOf (v : Value) : Except Failure (Option Int64) :=
  match numeric v with
  | .null => .ok none
  | .integer n => .ok (some n)
  | _ => .error .datatypeMismatch

/-- Whether some record has the same value in a column; null equals nothing. -/
def occurs (records : List Record) (index : Nat) (v : Value) : Bool :=
  !v.isNull && records.any fun r => order (r.values.getD index .null) v = .eq

/-- The first column whose null is not allowed. -/
def nullFault? (columns : List Column) (values : List Value) : Option Column :=
  ((columns.zip values).find? fun p => p.1.notNull && p.2.isNull).map Prod.fst

def repeatFault? (columns : List Column) (values : List Value) (records : List Record) :
    Option Column :=
  (columns.zipIdx.find? fun p =>
    p.1.unique && occurs records p.2 (values.getD p.2 .null)).map Prod.fst

/-- Check a record against the constraints and the other records of the table. -/
def check (t : Table) (r : Record) : Except Failure Unit :=
  match nullFault? t.columns r.values with
  | some c => .error (.notNull t.name c.name)
  | none =>
      if t.records.any fun other => other.id = r.id then
        .error (.unique t.name ((t.columns.find? Column.isKey).map Column.name |>.getD "rowid"))
      else
        match repeatFault? t.columns r.values t.records with
        | some c => .error (.unique t.name c.name)
        | none => .ok ()

def place (r : Record) : List Record → List Record
  | [] => [r]
  | s :: rest => if r.id < s.id then r :: s :: rest else s :: place r rest

/-- The record that holds values under an identifier; the key column shows the identifier. -/
def recordOf (t : Table) (id : Int64) (values : List Value) : Record :=
  match t.keyIndex? with
  | some k => ⟨id, values.set k (.integer id)⟩
  | none => ⟨id, values⟩

/-- Put a checked record into the table. -/
def add (t : Table) (r : Record) : Except Failure Table := do
  t.check r
  return { t with records := place r t.records }

/-- Insert a row with a key value and one value for each column; also returns the identifier
it got. -/
def insert (t : Table) (key : Value) (values : List Value) : Except Failure (Table × Int64) := do
  let wanted ← keyOf key
  let id := wanted.getD t.nextId
  let next ← t.add (t.recordOf id values)
  return (next, id)

/-- Replace the values of the record with an identifier, which the key value may change. -/
def replace (t : Table) (id : Int64) (key : Value) (values : List Value) :
    Except Failure Table := do
  match ← keyOf key with
  | none => .error .datatypeMismatch
  | some newId =>
      let others := { t with records := t.records.filter fun r => r.id ≠ id }
      others.add (t.recordOf newId values)

end Table

end BoundSql.Store
