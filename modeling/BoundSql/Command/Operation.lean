import BoundSql.Command.Request
import BoundSql.Database.Transaction

/-!
# Previewing and performing operations

A preview shows the statements of an operation; performing it hands the same
statements to the database, those of an insert of many rows inside one transaction.
Events are put into words once the operation has succeeded.
-/

namespace BoundSql

/-- Add the events of a computation in words, if it succeeds. -/
def Traced.recounted {ε α : Type} (t : Traced ε α) : Traced ε α :=
  match t.result with
  | .ok _ => ⟨t.notes ++ t.events.map fun e => .log (.remark e.words), t.result⟩
  | .error _ => t

/-- Add the events of a step in words, if it succeeds. -/
def Step.recounted {σ ε α : Type} (x : Step σ ε α) : Step σ ε α := fun s =>
  let (t, s) := x s
  (t.recounted, s)

namespace Operation

/-! ## Preview -/

def showFragment (f : Fragment) : Traced CommandError Unit := do
  Traced.log (.statement f.sql)
  Traced.log (.parameters f.params)

def showBuilt (t : Traced QueryError Fragment) : Traced CommandError Unit := do
  let f ← t.mapError .query
  showFragment f

/-- Show batches with their numbers, the first with a given one. -/
def showBatches (total number : Nat) : List InsertBatch → Traced CommandError Unit
  | [] => pure ()
  | b :: rest => do
      Traced.log (.heading number total b.start b.stop)
      showFragment b.fragment
      showBatches total (number + 1) rest

/-- Show the statements of an operation. -/
def preview (o : Options) : Operation → Traced CommandError Unit
  | .select q => showBuilt (q.build o)
  | .insert q => showBuilt (q.build o)
  | .insertMany b => do
      let p ← (b.plan o).mapError .query
      showBatches p.statements.length 1 p.statements
  | .update q => showBuilt (q.build o)
  | .delete q => showBuilt (q.build o)

/-! ## Performance -/

variable {σ : Type}

def rowCount (verb : String) (n : Nat) : String := verb ++ " " ++ n.repr ++ " row(s)"

def reportRows (rows : List Row) : List LogEntry :=
  rows.map (fun r => .output r.toJson.text) ++
    [.remark (rows.length.repr ++ " row(s) selected")]

def reportInserted (r : InsertResult) : List LogEntry :=
  match r.id with
  | some id => [.output (rowCount "Inserted" r.affected.toNat ++ ", id " ++ id.display)]
  | none => [.output (rowCount "Inserted" r.affected.toNat)]

def reportInsertedMany (r : BulkResult) : List LogEntry :=
  .output (rowCount "Inserted" r.affected.toNat ++ " in " ++ r.statements.repr ++
      " statement(s)") ::
    if r.ids.isEmpty then []
    else [.output ("ids: " ++ (Json.arr (r.ids.map Value.toJson)).text)]

/-- Run an operation of the database and report its result. -/
def reporting {α : Type} (x : Session.Action σ α) (report : α → List LogEntry) :
    Step (Session σ) CommandError Unit := fun s =>
  let (t, s) := x s
  match t.result with
  | .ok a => (⟨t.notes ++ (report a).map .log, .ok ()⟩, s)
  | .error e => (⟨t.notes, .error (.db e)⟩, s)

def perform (x : Executor σ) : Operation → Step (Session σ) CommandError Unit
  | .select q => reporting (Session.select x q) fun rows => reportRows rows.rows
  | .insert q => reporting (Session.insertRow x q) reportInserted
  | .insertMany b =>
      reporting (Session.transaction x (Session.insertRows x b)) reportInsertedMany
  | .update q =>
      reporting (Session.update x q) fun n => [.output (rowCount "Updated" n.toNat)]
  | .delete q =>
      reporting (Session.delete x q) fun n => [.output (rowCount "Deleted" n.toNat)]

end Operation

def buildRequest (kind : StatementKind) (o : Options) (text : String) :
    Traced CommandError Unit :=
  Traced.recounted do
    let op ← Traced.ofExcept (Operation.parse kind o text)
    op.preview o

def executeRequest {σ : Type} (x : Executor σ) (kind : StatementKind) (text : String) :
    Step (Session σ) CommandError Unit :=
  Step.recounted fun s =>
    match Operation.parse kind s.options text with
    | .ok op => op.perform x s
    | .error e => (.fail e, s)

end BoundSql
