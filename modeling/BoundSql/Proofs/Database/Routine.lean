import BoundSql.Database.Transaction
import BoundSql.Proofs.Database.Report
import BoundSql.Proofs.Query.Diagnostics

/-!
# Routines over a session

A routine performs operations of a session and runs further routines in transactions.
After each it sees the outcome and goes on as it likes, so it may pass an error on, hide
it or try again; it may also look at the session, but it calls the driver only through the
operations.  A routine is a tree that branches over what it sees; every run goes down one
branch.

An operation reaches the driver through the execution of statements only.  What these
keep, and what may be noted meanwhile, holds of operations as a whole.
-/

namespace BoundSql

/-! ## Ordinary notes -/

/-- A note that marks no boundary of a transaction. -/
def Note.Ordinary : Note → Prop
  | .event (.transaction _) => False
  | .call .begin | .call .commit | .call .rollback => False
  | _ => True

/-- What is noted on a query marks no boundary of a transaction. -/
theorem Note.Diagnostic.ordinary {n : Note} (h : n.Diagnostic) : n.Ordinary := by
  cases n with
  | log entry => trivial
  | call c => exact h.elim
  | event e =>
      cases e with
      | nullComparison | batchPlanned => trivial
      | statementExecuted | transaction => exact h.elim

/-- A computation that makes ordinary notes only. -/
def Traced.Ordinary {ε α : Type} (x : Traced ε α) : Prop := ∀ n ∈ x.notes, n.Ordinary

theorem Traced.Makes.ordinary {ε α : Type} {x : Traced ε α} (h : x.Makes Note.Diagnostic) :
    x.Ordinary := h.mono fun _ hn => hn.ordinary

/-! ## What steps keep -/

namespace Step

variable {σ ε α β : Type}

/-- A step that keeps a property of the state and makes permitted notes only, as long as it
starts in a state with the property. -/
def Respects (N : Note → Prop) (P : σ → Prop) (x : Step σ ε α) : Prop :=
  ∀ s, P s → (∀ n ∈ (x s).1.notes, N n) ∧ P (x s).2

variable {N : Note → Prop} {P : σ → Prop}

theorem respects_lift {t : Traced ε α} (h : ∀ n ∈ t.notes, N n) : Respects N P (lift t) :=
  fun _ hs => ⟨h, hs⟩

theorem respects_pure (a : α) : Respects N P (pure a : Step σ ε α) :=
  respects_lift fun _ hn => nomatch hn

theorem respects_fail (e : ε) : Respects N P (fail e : Step σ ε α) :=
  respects_lift fun _ hn => nomatch hn

theorem Respects.bind {x : Step σ ε α} {f : α → Step σ ε β} (hx : Respects N P x)
    (hf : ∀ a, Respects N P (f a)) : Respects N P (x >>= f) := by
  intro s hs
  obtain ⟨hnotes, hnext⟩ := hx s hs
  show (∀ n ∈ (Step.bind x f s).1.notes, N n) ∧ P (Step.bind x f s).2
  unfold Step.bind
  cases h : (x s).1.result with
  | error e =>
      simp only [h]
      exact ⟨hnotes, hnext⟩
  | ok a =>
      obtain ⟨hnotes', hlast⟩ := hf a (x s).2 hnext
      simp only [h]
      refine ⟨fun n hn => ?_, hlast⟩
      rcases List.mem_append.mp hn with hn | hn
      · exact hnotes n hn
      · exact hnotes' n hn

theorem Respects.attempt {δ : Type} {x : Step σ ε α} (hx : Respects N P x) :
    Respects N P (attempt x : Step σ δ (Except ε α)) := hx

end Step

namespace Session

/-- A property of the driver of a session. -/
abbrev OnDriver {σ : Type} (P : σ → Prop) (s : Session σ) : Prop := P s.driver

variable {σ α : Type} {x : Executor σ} {N : Note → Prop} {P : σ → Prop}

theorem respects_currentOptions : Step.Respects N (OnDriver P) currentOptions :=
  fun _ hs => ⟨fun _ hn => absurd hn List.not_mem_nil, hs⟩

theorem respects_drive {step : Step σ DbError α} (h : Step.Respects N P step) :
    Step.Respects N (OnDriver P) (drive step) := fun s hs => h s.driver hs

section Operations

variable (hN : ∀ n : Note, n.Ordinary → N n)

include hN

theorem respects_log (entry : LogEntry) :
    Step.Respects N (OnDriver P) (Step.log entry : Action σ Unit) :=
  Step.respects_lift (Traced.makes_log (hN _ trivial))

theorem respects_build {f : Options → Traced QueryError α} (hf : ∀ o, (f o).Ordinary) :
    Step.Respects N (OnDriver P) (build f) := fun s hs => ⟨fun n hn => hN n (hf s.options n hn), hs⟩

variable (hx : ∀ sql params, Step.Respects N P (x.execute sql params))

include hx

theorem respects_run (kind : StatementKind) (f : Fragment) :
    Step.Respects N (OnDriver P) (run x kind f) := by
  refine respects_currentOptions.bind fun o => ?_
  refine (respects_log hN _).bind fun _ => ?_
  refine (respects_log hN _).bind fun _ => ?_
  refine (respects_drive (hx _ _)).bind fun raw => ?_
  refine Step.Respects.bind (Step.respects_lift fun n hn => hN n ?_) fun _ => Step.respects_pure raw
  cases List.mem_singleton.mp hn
  trivial

theorem respects_runBatches (c : Collector) (batches : List InsertBatch) :
    Step.Respects N (OnDriver P) (runBatches x c batches) := by
  -- a collector may log that identifiers are missing, and nothing else
  have hrecord (rows : Nat) (raw : RawResult) (c : Collector) :
      (Collector.record rows raw c).1.Makes Note.Diagnostic := by
    unfold Collector.record
    dsimp only
    split
    · split
      · exact Traced.makes_pure _
      · exact (Traced.diagnostic_log rfl).bind fun _ => Traced.makes_fail _
    · exact Traced.makes_pure _
  induction batches generalizing c with
  | nil => exact Step.respects_pure c
  | cons b batches ih =>
      refine respects_currentOptions.bind fun o => ?_
      refine (respects_log hN _).bind fun _ => ?_
      refine (respects_run hN hx _ _).bind fun raw => ?_
      refine Step.Respects.bind (Step.respects_lift fun n hn => hN n ?_) fun _ => ih _
      exact (hrecord _ raw c).ordinary n hn

end Operations

end Session

/-! ## Routines -/

namespace Session

/-- The operations of a session, by the type of their results. -/
inductive Task : Type → Type where
  | reconfigure (overrides : Overrides) : Task Unit
  | select (q : SelectQuery) : Task RowSet
  | count (q : SelectQuery) : Task Nat
  | insertRow (q : InsertQuery) : Task InsertResult
  | insertRows (b : BulkInsert) : Task BulkResult
  | update (q : UpdateQuery) : Task UInt64
  | delete (q : DeleteQuery) : Task UInt64

variable {σ α : Type}

def Task.run (x : Executor σ) : Task α → Action σ α
  | .reconfigure overrides => Session.reconfigure overrides
  | .select q => Session.select x q
  | .count q => Session.count x q
  | .insertRow q => Session.insertRow x q
  | .insertRows b => Session.insertRows x b
  | .update q => Session.update x q
  | .delete q => Session.delete x q

/-- A program over a session.  What follows an operation or a transaction depends on its
outcome. -/
inductive Routine (σ : Type) : Type → Type 1 where
  | pure {α : Type} (a : α) : Routine σ α
  | fail {α : Type} (e : DbError) : Routine σ α
  /-- Look at the options in force and at the state of the driver. -/
  | inspect {α : Type} (next : Session σ → Routine σ α) : Routine σ α
  | perform {α β : Type} (task : Task β) (next : Except DbError β → Routine σ α) : Routine σ α
  | transaction {α β : Type} (body : Routine σ β) (next : Except DbError β → Routine σ α) :
      Routine σ α

def Routine.run (x : Executor σ) : {α : Type} → Routine σ α → Action σ α
  | _, .pure a => Pure.pure a
  | _, .fail e => Step.fail e
  | _, .inspect next => fun s => (next s).run x s
  | _, .perform task next => do
      let outcome ← (task.run x).attempt
      (next outcome).run x
  | _, .transaction body next => do
      let outcome ← (Session.transaction x (body.run x)).attempt
      (next outcome).run x

/-- An operation keeps of the driver what the execution of a statement keeps, and notes nothing
but ordinary things besides what the driver notes. -/
theorem Task.respects {x : Executor σ} {N : Note → Prop} {P : σ → Prop}
    (hN : ∀ n : Note, n.Ordinary → N n)
    (hx : ∀ sql params, Step.Respects N P (x.execute sql params)) (task : Task α) :
    Step.Respects N (OnDriver P) (task.run x) := by
  cases task with
  | reconfigure overrides =>
      intro s hs
      have hordinary : (s.options.reconfigured overrides).Ordinary :=
        (Traced.makes_ofExcept _).bind fun _ =>
          (Traced.makes_log trivial).bind fun _ => Traced.makes_pure _
      show (∀ n ∈ (Session.reconfigure overrides s).1.notes, N n) ∧
        P (Session.reconfigure overrides s).2.driver
      -- options may be replaced, the driver stays
      unfold Session.reconfigure
      dsimp only
      split
      · exact ⟨fun n hn => hN n (hordinary n hn), hs⟩
      · exact ⟨fun n hn => hN n (hordinary n hn), hs⟩
  | select q =>
      refine (respects_build hN fun o => (q.diagnostic_build o).ordinary).bind fun f => ?_
      exact (respects_run hN hx _ f).bind fun raw => Step.respects_pure _
  | count q =>
      refine (respects_build hN fun o => (q.diagnostic_buildCount o).ordinary).bind fun f => ?_
      refine (respects_run hN hx _ f).bind fun raw => ?_
      split
      · exact Step.respects_pure _
      · exact Step.respects_fail _
  | insertRow q =>
      refine (respects_build hN fun o => (q.diagnostic_build o).ordinary).bind fun f => ?_
      refine (respects_run hN hx _ f).bind fun raw => ?_
      exact respects_currentOptions.bind fun o => Step.respects_pure _
  | insertRows b =>
      refine (respects_build hN fun o => (b.diagnostic_plan o).ordinary).bind fun p => ?_
      refine respects_currentOptions.bind fun o => ?_
      refine (respects_runBatches hN hx _ _).bind fun c => ?_
      exact Step.respects_lift fun _ hn => nomatch hn
  | update q =>
      refine (respects_build hN fun o => (q.diagnostic_build o).ordinary).bind fun f => ?_
      exact (respects_run hN hx _ f).bind fun raw => Step.respects_pure _
  | delete q =>
      refine (respects_build hN fun o => (q.diagnostic_build o).ordinary).bind fun f => ?_
      exact (respects_run hN hx _ f).bind fun raw => Step.respects_pure _

end Session

end BoundSql
