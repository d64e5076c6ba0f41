/-!
# Diagnostic events

Building and running statements reports events.  A sink keeps, forwards or drops
the events it is given; emitting never fails.
-/

namespace BoundSql

/-- The kind of a statement that was executed. -/
inductive StatementKind where
  | select
  | insert
  | update
  | delete
deriving DecidableEq

def StatementKind.word : StatementKind → String
  | .select => "select"
  | .insert => "insert"
  | .update => "update"
  | .delete => "delete"

/-- A boundary of a transaction. -/
inductive TransactionStage where
  | begin
  | commit
  | rollback
deriving DecidableEq

def TransactionStage.title : TransactionStage → String
  | .begin => "Begin"
  | .commit => "Commit"
  | .rollback => "Rollback"

def TransactionStage.word : TransactionStage → String
  | .begin => "begin"
  | .commit => "commit"
  | .rollback => "rollback"

/-- What happened while a statement was built or run. -/
inductive Event where
  /-- A column was compared with null through an operator that has a better counterpart. -/
  | nullComparison (column operator suggested : String)
  /-- An insert of many rows was cut into statements. -/
  | batchPlanned (table : String) (rows statements : Nat)
  /-- A statement was executed. -/
  | statementExecuted (kind : StatementKind) (table : String) (affected : UInt64)
  /-- A transaction boundary was reached. -/
  | transaction (stage : TransactionStage)
deriving DecidableEq

def Event.isNullComparison : Event → Bool
  | .nullComparison .. => true
  | _ => false

def Event.words : Event → String
  | .nullComparison column operator suggested =>
      "null comparison on " ++ column ++ ": \x60" ++ operator ++ "\x60 used where \x60" ++
        suggested ++ "\x60 fits"
  | .batchPlanned table rows statements =>
      "planned " ++ rows.repr ++ " rows for " ++ table ++ " as " ++ statements.repr ++
        " statement(s)"
  | .statementExecuted kind table affected =>
      kind.word ++ " on " ++ table ++ ": " ++ affected.toNat.repr ++ " row(s)"
  | .transaction stage => "transaction " ++ stage.title

/-- A receiver of events, with the events that can still be read from it. -/
inductive EventSink where
  /-- Keeps every event. -/
  | collector (events : List Event)
  /-- Forwards events to a reader for as long as there is one. -/
  | channel (connected : Bool) (queued : List Event)
  /-- Drops every event. -/
  | null

namespace EventSink

def emit : EventSink → Event → EventSink
  | .collector events, e => .collector (events ++ [e])
  | .channel true queued, e => .channel true (queued ++ [e])
  | .channel false queued, _ => .channel false queued
  | .null, _ => .null

/-- The events that can be read from the sink, in the order of emission. -/
def events : EventSink → List Event
  | .collector events => events
  | .channel _ queued => queued
  | .null => []

def nullComparisons (s : EventSink) : List Event := s.events.filter Event.isNullComparison

end EventSink

end BoundSql
