import BoundSql.Database.Executor

/-!
# Scripted drivers

A scripted driver answers each call with the next entry of a list, and succeeds
without rows once the list is used up.
-/

namespace BoundSql

/-- The answers that a scripted driver still has to give. -/
structure Script where
  execute : List (Except String RawResult)
  begin : List (Option String)
  commit : List (Option String)
  rollback : List (Option String)

namespace Script

/-- Fail with the message of the next entry, if it has one. -/
def answer (stage : TransactionStage) : List (Option String) → Traced DbError Unit
  | some message :: _ => .fail (.transaction stage message)
  | _ => pure ()

/-- The driver that follows its script. -/
def executor : Executor Script where
  execute sql params := fun s =>
    let rest := { s with execute := s.execute.tail }
    match s.execute with
    | .ok raw :: _ => (pure raw, rest)
    | .error message :: _ => (.fail (.execution sql params message), rest)
    | [] => (pure ⟨[], 0, none⟩, rest)
  begin := fun s => (answer .begin s.begin, { s with begin := s.begin.tail })
  commit := fun s => (answer .commit s.commit, { s with commit := s.commit.tail })
  rollback := fun s => (answer .rollback s.rollback, { s with rollback := s.rollback.tail })

end Script

end BoundSql
