import BoundSql.Database.Session

/-!
# Transactions

A transaction commits if its body succeeds.  If the body or the commit fails, it is
rolled back and the first error is returned, even if rolling back fails too.
-/

namespace BoundSql.Session

variable {σ α : Type}

/-- Open a transaction. -/
def enter (x : Executor σ) : Action σ Unit := do
  drive x.begin
  Step.emit (.transaction .begin)

/-- Roll a transaction back; a failure to do so is only logged. -/
def abort (x : Executor σ) : Action σ Unit := do
  match ← (drive x.rollback).attempt with
  | .ok () => pure ()
  | .error e => Step.log (.rollbackFailed e.report.message)
  Step.emit (.transaction .rollback)

/-- Close a transaction whose body ended with the given outcome. -/
def leave (x : Executor σ) : Except DbError α → Action σ α
  | .ok a => do
      match ← (drive x.commit).attempt with
      | .ok () =>
          Step.emit (.transaction .commit)
          return a
      -- the error of the commit is reported, whatever the rollback says
      | .error e =>
          abort x
          Step.fail e
  | .error e => do
      abort x
      Step.fail e

def transaction (x : Executor σ) (body : Action σ α) : Action σ α := do
  enter x
  let outcome ← body.attempt
  leave x outcome

end BoundSql.Session
