import BoundSql.Database.Executor
import BoundSql.Store.Reader
import BoundSql.Store.Table

/-!
# The store as a driver

A statement is read, its placeholders are counted, its names are resolved and its
parameters counted before it touches a table, and a statement that fails leaves the
store as it was.  Opening a transaction saves the tables, rolling back restores them.
-/

namespace BoundSql

/-- Tables, and the tables to go back to while a transaction is open. -/
structure Store where
  tables : List Store.Table
  saved : Option (List Store.Table)
deriving DecidableEq

namespace Store

/-- The store without tables. -/
def empty : Store := ⟨[], none⟩

def inTransaction (s : Store) : Bool := s.saved.isSome

/-- The table with a name, which may be qualified by the main schema. -/
def table? (s : Store) (path : List String) : Option Table :=
  match path with
  | [name] => s.tables.find? fun t => Table.sameName t.name name
  | [schema, name] =>
      if Table.sameName schema "main" then s.tables.find? fun t => Table.sameName t.name name
      else none
  | _ => none

/-- Replace a table by a new version of it. -/
def putTable (s : Store) (t : Table) : Store :=
  { s with tables := s.tables.map fun old => if old.name = t.name then t else old }

def Operand.value (params : List Value) : Operand → Value
  | .param index => stored (params.getD index .null)
  | .null => .null
  | .integer n => Value.ofInt n

/-- The truth of a test of a stored value; a key column reads texts as numbers. -/
def Test.truth (params : List Value) (isKey : Bool) (v : Value) : Test → Option Bool
  | .compare c x => compare? c v (adapt (x.value params))
  | .like negated x => (like? v (x.value params)).map (· != negated)
  | .member negated xs => (member? v (xs.map fun x => adapt (x.value params))).map (· != negated)
  | .isNull negated => some (v.isNull != negated)
where
  adapt (w : Value) : Value := if isKey then numeric w else w

/-- Columns by position with their tests. -/
abbrev Resolved := List (Nat × Test)

/-- Find a column that an expression mentions. -/
def resolve (t : Table) (r : Ref) : Except Failure Nat :=
  match t.columnIndex? r.path with
  | some i => .ok i
  | none => .error (.noSuchColumnAt r.path r.offset)

/-- Find the columns of conditions. -/
def resolveConditions (t : Table) (cs : Conditions) : Except Failure Resolved :=
  cs.mapM fun c => do return (← resolve t c.1, c.2)

def satisfies (t : Table) (params : List Value) (cs : Resolved) (r : Record) : Bool :=
  cs.all fun c =>
    c.2.truth params (t.columnAt c.1).isKey (r.cell c.1) = some true

def orderRecords : List (Nat × Bool) → Record → Record → Ordering
  | [], _, _ => .eq
  | (i, descending) :: rest, r, s =>
      let o := order (r.cell i) (s.cell i)
      (if descending then o.swap else o).then (orderRecords rest r s)

/-- The cells of chosen columns. -/
def project (t : Table) (indices : List Nat) (r : Record) : Row :=
  ⟨indices.map fun i => ((t.columnAt i).name, r.cell i)⟩

/-- Restrict a list to a window.  Both numbers have to fit sixty-four bits with
a sign. -/
def inWindow {α : Type} : Option (Nat × Nat) → List α → Except Failure (List α)
  | none, rows => .ok rows
  | some (limit, offset), rows =>
      if Int64.maxValue.toInt < limit ∨ Int64.maxValue.toInt < offset then
        .error .datatypeMismatch
      else .ok ((rows.drop offset).take limit)

/-- A statement whose names have been found. -/
inductive Bound where
  | count (t : Table) (title : String) (conditions : Resolved)
  | select (t : Table) (indices : List Nat) (conditions : Resolved) (order : List (Nat × Bool))
      (window : Option (Nat × Nat))
  | insert (t : Table) (targets : List Nat) (rows : List (List Operand)) (returning : List Nat)
  | update (t : Table) (assignments : List (Nat × Operand)) (conditions : Resolved)
  | delete (t : Table) (conditions : Resolved)

def findTable (s : Store) (path : List String) : Except Failure Table :=
  match s.table? path with
  | some t => .ok t
  | none => .error (.noSuchTable path)

/-- Find the column that an insert fills. -/
def insertTarget (t : Table) (r : Ref) : Except Failure Nat :=
  match t.columnIndex? r.path with
  | some i => .ok i
  | none => .error (.noColumnNamed t.name (joined r.path))

/-- Find the column that an update assigns. -/
def updateTarget (t : Table) (a : Ref × Operand) : Except Failure (Nat × Operand) :=
  match t.columnIndex? a.1.path with
  | some i => .ok (i, a.2)
  | none => .error (.noSuchColumn a.1.path)

def bindNames (s : Store) : Statement → Except Failure Bound
  | .select what path conditions order window => do
      let t ← findTable s path
      let indices ← match what with
        | .all => .ok (List.range t.columns.length)
        | .columns refs => refs.mapM (resolve t)
        | .count _ => .ok []
      let conditions ← resolveConditions t conditions
      let order ← order.mapM fun o => do return (← resolve t o.1, o.2)
      match what with
      | .count title => return .count t title conditions
      | _ => return .select t indices conditions order window
  | .insert path columns rows returning => do
      let t ← findTable s path
      let targets ← if columns.isEmpty then .ok (List.range t.columns.length)
        else columns.mapM (insertTarget t)
      match rows.find? fun row => row.length ≠ targets.length with
      | some row => .error (.valueCount row.length targets.length)
      | none => return .insert t targets rows (← returning.mapM (resolve t))
  | .update path assignments conditions => do
      let t ← findTable s path
      let assignments ← assignments.mapM (updateTarget t)
      return .update t assignments (← resolveConditions t conditions)
  | .delete path conditions => do
      let t ← findTable s path
      return .delete t (← resolveConditions t conditions)

/-- The values that a row gives for targets. -/
def given (params : List Value) (targets : List Nat) (row : List Operand) : List (Nat × Value) :=
  targets.zip (row.map (Operand.value params))

/-- The values of a new row: those given for the target columns, null elsewhere. -/
def newValues (t : Table) (params : List Value) (targets : List Nat) (row : List Operand) :
    List Value :=
  (List.range t.columns.length).map fun i => ((given params targets row).lookup i).getD .null

/-- The key value of a new row: the last one given for its identifier, or null. -/
def newKey (t : Table) (params : List Value) (targets : List Nat) (row : List Operand) : Value :=
  ((given params targets row).reverse.lookup t.idIndex).getD .null

/-- Insert rows in order; the identifiers they get follow those of earlier rows. -/
def insertAll (params : List Value) (targets : List Nat) (ids : List Int64) (t : Table) :
    List (List Operand) → Except Failure (Table × List Int64)
  | [] => .ok (t, ids)
  | row :: rest => do
      let (t, id) ← t.insert (newKey t params targets row) (newValues t params targets row)
      insertAll params targets (ids ++ [id]) t rest

def assign (params : List Value) (assignments : List (Nat × Operand)) (values : List Value) :
    List Value :=
  assignments.foldl (fun vs a => vs.set a.1 (a.2.value params)) values

/-- The key value of an updated row: the last one assigned to its identifier, or the old one. -/
def assignedKey (t : Table) (params : List Value) (assignments : List (Nat × Operand))
    (id : Int64) : Value :=
  ((assignments.reverse.lookup t.idIndex).map (Operand.value params)).getD (.integer id)

def updateAll (params : List Value) (assignments : List (Nat × Operand)) (t : Table) :
    List Record → Except Failure Table
  | [] => .ok t
  | r :: rest => do
      let t ← t.replace r.id (assignedKey t params assignments r.id)
        (assign params assignments r.values)
      updateAll params assignments t rest

/-- The identifier reported for an insert: the last row's, less one for each other row. -/
def reportedId (ids : List Int64) : Option Int64 :=
  let affected : UInt64 := ids.length
  if 0 < affected then ids.getLast?.map fun last => last - (affected.toInt64 - 1) else none

def runBound (s : Store) (params : List Value) : Bound → Except Failure (RawResult × Store)
  | .count t title conditions =>
      let n := (t.records.filter (satisfies t params conditions)).length
      .ok (⟨[⟨[(title, .integer (Int64.ofNat n))]⟩], 1, none⟩, s)
  | .select t indices conditions order window => do
      let found := t.records.filter (satisfies t params conditions)
      let sorted := found.mergeSort fun a b => orderRecords order a b ≠ .gt
      let shown ← inWindow window sorted
      return (⟨shown.map (project t indices), shown.length, none⟩, s)
  | .insert t targets rows returning => do
      let (next, ids) ← insertAll params targets [] t rows
      let inserted := ids.filterMap fun id => next.records.find? fun r => r.id = id
      let shown := if returning.isEmpty then [] else inserted.map (project next returning)
      return (⟨shown, ids.length, reportedId ids⟩, s.putTable next)
  | .update t assignments conditions => do
      let found := t.records.filter (satisfies t params conditions)
      let next ← updateAll params assignments t found
      return (⟨[], found.length, none⟩, s.putTable next)
  | .delete t conditions =>
      let kept := t.records.filter fun r => !satisfies t params conditions r
      .ok (⟨[], .ofNat (t.records.length - kept.length), none⟩,
        s.putTable { t with records := kept })

/-- How many placeholders a statement may have. -/
def variableCeiling : Nat := 32766

/-- Read a statement, find its names and count its parameters. -/
def bindText (s : Store) (sql : String) (params : List Value) : Except Failure Bound :=
  match prepare? sql with
  | none => .error .syntaxError
  | some p =>
      match p.placeholders[variableCeiling]? with
      | some offset => .error (.tooManyVariables offset)
      | none => do
          let bound ← bindNames s p.statement
          if params.length ≠ p.placeholders.length then
            .error (.parameterCount params.length p.placeholders.length)
          return bound

def execute (s : Store) (sql : String) (params : List Value) :
    Except Failure (RawResult × Store) := do
  runBound s params (← s.bindText sql params)

def executor : Executor Store where
  execute sql params := fun s =>
    match s.execute sql params with
    | .ok (raw, next) =>
        (⟨[.log (.answered raw.rows.length raw.affected)], .ok raw⟩, next)
    | .error e => (.fail (.execution sql params (e.message sql)), s)
  begin := fun s =>
    match s.saved with
    | some _ => (.fail (.transaction .begin "cannot start a transaction within a transaction"), s)
    | none => (pure (), { s with saved := some s.tables })
  commit := fun s =>
    match s.saved with
    | some _ => (pure (), { s with saved := none })
    | none => (.fail (.transaction .commit "cannot commit - no transaction is active"), s)
  rollback := fun s =>
    match s.saved with
    | some tables => (pure (), ⟨tables, none⟩)
    | none => (.fail (.transaction .rollback "cannot rollback - no transaction is active"), s)

/-- A driver for a file that is no database: transactions are possible, statements are not. -/
def foreignExecutor : Executor Store :=
  { executor with
    execute := fun sql params s =>
      (.fail (.execution sql params "file is not a database"), s) }

end Store

end BoundSql
