import BoundSql.Command.Error
import BoundSql.Filter.Json
import BoundSql.Json.Reader
import BoundSql.Query.Delete
import BoundSql.Query.Insert
import BoundSql.Query.Select
import BoundSql.Query.Update

/-!
# Requests

A request is a document that describes one operation.  It gives its fields by name,
each at most once, or in order as an array; a field that is unknown, missing or of
the wrong kind makes the whole request malformed.
-/

namespace BoundSql

abbrev Json.Members := List (String × Json)

/-- A request of one kind. -/
inductive Request where
  | select (columns : List String) (filter : Json.Members) (orderBy : List (String × String))
      (page pageSize : Option Nat)
  | insert (columns : List String) (rows : List (List Json))
  | update (set filter : Json.Members)
  | delete (filter : Json.Members)

/-- An operation on the table of a session. -/
inductive Operation where
  | select (q : SelectQuery)
  | insert (q : InsertQuery)
  | insertMany (b : BulkInsert)
  | update (q : UpdateQuery)
  | delete (q : DeleteQuery)

namespace Request

/-! ## Reading fields -/

/-- The fields of a record, absent ones as nothing.  An array has to give at least the first
`least` of them. -/
def fields? (names : List String) (least : Nat) : Json → Option (List (Option Json))
  | .obj members =>
      let keys := members.map Prod.fst
      if keys.all names.contains ∧ Text.firstRepeated? [] keys = none then
        some (names.map fun name => members.lookup name)
      else none
  | .arr items =>
      if least ≤ items.length ∧ items.length ≤ names.length then
        some ((List.range names.length).map fun i => items[i]?)
      else none
  | _ => none

def text? : Json → Option String
  | .str s => some s
  | _ => none

def texts? : Json → Option (List String)
  | .arr items => items.mapM text?
  | _ => none

/-- Read an object; of a repeated key the last value counts. -/
def members? (j : Json) : Option Json.Members :=
  match j.merged with
  | .obj members => some members
  | _ => none

def pairs? : Json → Option (List (String × String))
  | .arr items => items.mapM fun item =>
      match item with
      | .arr [.str a, .str b] => some (a, b)
      | _ => none
  | _ => none

/-- Read a natural number; null is none. -/
def count? : Json → Option (Option Nat)
  | .null => some none
  | .int (.ofNat n) => some (some n)
  | _ => none

def rows? : Json → Option (List (List Json))
  | .arr rows => rows.mapM fun row =>
      match row with
      | .arr cells => some (Json.mergedItems cells)
      | _ => none
  | _ => none

def orElse {α : Type} (field : Option Json) (absent : α) (read : Json → Option α) : Option α :=
  match field with
  | none => some absent
  | some j => read j

/-! ## Reading requests -/

/-- Read a request of a kind from a document that may repeat keys. -/
def ofJson? : StatementKind → Json → Option Request
  | .select, j => do
      match ← fields? ["columns", "where", "order_by", "page", "page_size"] 5 j with
      | [columns, filter, orderBy, page, pageSize] =>
          return .select (← orElse columns [] texts?) (← orElse filter [] members?)
            (← orElse orderBy [] pairs?) (← orElse page none count?)
            (← orElse pageSize none count?)
      | _ => none
  | .insert, j => do
      match ← fields? ["columns", "rows"] 2 j with
      | [some columns, some rows] => return .insert (← texts? columns) (← rows? rows)
      | _ => none
  | .update, j => do
      match ← fields? ["set", "where"] 1 j with
      | [some set, filter] => return .update (← members? set) (← orElse filter [] members?)
      | _ => none
  | .delete, j => do
      match ← fields? ["where"] 0 j with
      | [filter] => return .delete (← orElse filter [] members?)
      | _ => none

def parse (kind : StatementKind) (text : String) : Except CommandError Request :=
  match (Json.parseRaw? text).bind (ofJson? kind) with
  | some r => .ok r
  | none => .error .malformedRequest

/-! ## Operations -/

def filterOf (filter : Json.Members) : Except CommandError Filter :=
  (Filter.ofMembers filter).mapError .query

/-- Read the terms of an ordering. -/
def sortsOf : List (String × String) → Except CommandError (List SortTerm)
  | [] => .ok []
  | (column, direction) :: rest => do
      let direction ← (Direction.ofString direction).mapError CommandError.query
      let terms ← sortsOf rest
      return .on column direction :: terms

/-- The page of a request.  A missing number is the first page, a missing size the largest one
allowed. -/
def pageOf (o : Options) (page pageSize : Option Nat) : Option Page :=
  if page.isNone && pageSize.isNone then none
  else some ⟨page.getD 1, pageSize.getD o.maxPageSize⟩

def cellsOf (index : Nat) : List Json → Except CommandError (List Value)
  | [] => .ok []
  | cell :: rest =>
      match Value.ofJson? cell with
      | none => .error (.invalidRequest (.nestedCell index))
      | some v => do
          let vs ← cellsOf index rest
          return v :: vs

/-- Read rows, the first with a given index. -/
def rowsOf (index : Nat) : List (List Json) → Except CommandError (List (List Value))
  | [] => .ok []
  | row :: rest => do
      let cells ← cellsOf index row
      let rows ← rowsOf (index + 1) rest
      return cells :: rows

/-- An insert of rows; one row that has a value for each column is inserted by itself. -/
def insertOf (columns : List String) (rows : List (List Value)) : Operation :=
  match rows with
  | [row] =>
      if h : row.length = columns.length then .insert ⟨columns, row, h.symm⟩
      else .insertMany ⟨columns, rows⟩
  | rows => .insertMany ⟨columns, rows⟩

def addAssignments (q : UpdateQuery) : Json.Members → Except CommandError UpdateQuery
  | [] => .ok q
  | (column, j) :: rest =>
      match Value.ofJson? j with
      | none => .error (.invalidRequest (.nestedAssignment column))
      | some v => addAssignments (q.set column v) rest

/-- The operation that a request describes, under the options of its table. -/
def operation (o : Options) : Request → Except CommandError Operation
  | .select columns filter orderBy page pageSize => do
      let f ← filterOf filter
      let sorts ← sortsOf orderBy
      return .select ⟨columns, f, sorts, pageOf o page pageSize⟩
  | .insert columns rows => do
      let rows ← rowsOf 0 rows
      return insertOf columns rows
  | .update set filter => do
      let f ← filterOf filter
      let q ← addAssignments (UpdateQuery.empty.withFilter f) set
      return .update q
  | .delete filter => do
      let f ← filterOf filter
      return .delete ⟨f⟩

end Request

/-- The operation that a text describes, under the options of its table. -/
def Operation.parse (kind : StatementKind) (o : Options) (text : String) :
    Except CommandError Operation := do
  let r ← Request.parse kind text
  r.operation o

end BoundSql
