import BoundSql.Trace.Log

/-!
# Traced computations

A traced computation yields a result or an error together with everything it
reported on the way; what was reported before an error stays.  A step is a traced
computation that also moves a state, and the state it leaves survives an error.
-/

namespace BoundSql

/-- A call of a database driver. -/
inductive Call where
  | execute (sql : String) (params : List Value)
  | begin
  | commit
  | rollback
deriving DecidableEq

/-- Anything a computation reports. -/
inductive Note where
  | log (entry : LogEntry)
  | event (e : Event)
  | call (c : Call)
deriving DecidableEq

namespace Note

/-- The event of a note, if it is one. -/
def event? : Note → Option Event
  | .event e => some e
  | _ => none

/-- The log entry of a note, if it is one. -/
def log? : Note → Option LogEntry
  | .log entry => some entry
  | _ => none

/-- The driver call of a note, if it is one. -/
def call? : Note → Option Call
  | .call c => some c
  | _ => none

def events (notes : List Note) : List Event := notes.filterMap event?

def logs (notes : List Note) : List LogEntry := notes.filterMap log?

/-- The driver calls among notes. -/
def calls (notes : List Note) : List Call := notes.filterMap call?

end Note

/-- A result or an error, with the notes made on the way. -/
structure Traced (ε α : Type) where
  notes : List Note
  result : Except ε α

namespace Traced

variable {ε α β : Type}

/-- Run `f` on the result of `x`; the notes of `x` come first. -/
def bind (x : Traced ε α) (f : α → Traced ε β) : Traced ε β :=
  match x.result with
  | .ok a =>
      let next := f a
      ⟨x.notes ++ next.notes, next.result⟩
  | .error e => ⟨x.notes, .error e⟩

instance : Monad (Traced ε) where
  pure a := ⟨[], .ok a⟩
  bind := bind

/-- A computation that reports nothing. -/
def ofExcept (r : Except ε α) : Traced ε α := ⟨[], r⟩

def fail (e : ε) : Traced ε α := ⟨[], .error e⟩

def log (entry : LogEntry) : Traced ε Unit := ⟨[.log entry], .ok ()⟩

def emit (e : Event) : Traced ε Unit := ⟨[.event e], .ok ()⟩

/-- Wrap the error of a computation. -/
def mapError {δ : Type} (f : ε → δ) (x : Traced ε α) : Traced δ α :=
  ⟨x.notes, x.result.mapError f⟩

/-- The events that a computation reports. -/
def events (x : Traced ε α) : List Event := Note.events x.notes

@[simp] theorem pure_notes (a : α) : (pure a : Traced ε α).notes = [] := rfl

@[simp] theorem pure_result (a : α) : (pure a : Traced ε α).result = .ok a := rfl

theorem bind_of_ok {x : Traced ε α} {a : α} (f : α → Traced ε β) (h : x.result = .ok a) :
    x >>= f = ⟨x.notes ++ (f a).notes, (f a).result⟩ := by
  show bind x f = _
  rw [bind, h]

theorem bind_of_error {x : Traced ε α} {e : ε} (f : α → Traced ε β) (h : x.result = .error e) :
    x >>= f = ⟨x.notes, .error e⟩ := by
  show bind x f = _
  rw [bind, h]

end Traced

/-- A traced computation that moves a state. -/
def Step (σ ε α : Type) : Type := σ → Traced ε α × σ

namespace Step

variable {σ ε α β : Type}

/-- Run `f` on the result of `x` in the state that `x` leaves. -/
def bind (x : Step σ ε α) (f : α → Step σ ε β) : Step σ ε β := fun s =>
  let (first, s) := x s
  match first.result with
  | .ok a =>
      let (second, s) := f a s
      (⟨first.notes ++ second.notes, second.result⟩, s)
  | .error e => (⟨first.notes, .error e⟩, s)

instance : Monad (Step σ ε) where
  pure a := fun s => (pure a, s)
  bind := bind

/-- A computation that leaves the state alone. -/
def lift (x : Traced ε α) : Step σ ε α := fun s => (x, s)

/-- Fail and leave the state alone. -/
def fail (e : ε) : Step σ ε α := lift (.fail e)

def log (entry : LogEntry) : Step σ ε Unit := lift (.log entry)

def emit (e : Event) : Step σ ε Unit := lift (.emit e)

/-- The current state. -/
def get : Step σ ε σ := fun s => (pure s, s)

/-- Replace the state. -/
def set (s : σ) : Step σ ε Unit := fun _ => (pure (), s)

/-- Turn the outcome of a step into its result; such a step never fails. -/
def attempt {δ : Type} (x : Step σ ε α) : Step σ δ (Except ε α) := fun s =>
  let (t, s) := x s
  (⟨t.notes, .ok t.result⟩, s)

def mapError {δ : Type} (f : ε → δ) (x : Step σ ε α) : Step σ δ α := fun s =>
  let (t, s) := x s
  (t.mapError f, s)

end Step

end BoundSql
