import BoundSql.Proofs.Database.Report
import BoundSql.Proofs.Query.Diagnostics

/-!
# Sessions and builders

A query is an operation of a session that executes one statement.  It hands over the statement
that its builder returns under the options in force, and none if the builder refuses; what the
driver answers decides nothing but the result.  A turn is a query or a change of the options.

A run takes turns one after the other and goes on after an error.  The statements that it hands
over are therefore known from the options it starts with and from the turns alone.  A change of
options that fails could as well be left out; one that succeeds concerns the turns behind it.
-/

namespace BoundSql

/-! ## Notes of builders -/

/-- The call that hands a statement to a driver. -/
def Fragment.call (f : Fragment) : Call := .execute f.sql f.params

namespace Note

/-- The milestones of notes on a query are its events. -/
theorem milestones_of_diagnostic {ns : List Note} (h : ∀ n ∈ ns, n.Diagnostic) :
    milestones ns = (events ns).map .event := by
  induction ns with
  | nil => rfl
  | cons n ns ih =>
      have htail := ih fun m hm => h m (List.mem_cons_of_mem n hm)
      cases n with
      | log entry => exact htail
      | event e => exact congrArg (Note.event e :: ·) htail
      | call c => exact (h _ List.mem_cons_self).elim

theorem calls_map_event (es : List Event) : calls (es.map .event) = [] := by
  induction es with
  | nil => rfl
  | cons e es ih => exact ih

theorem Diagnostic.ne_statementExecuted {e : Event} (h : (Note.event e).Diagnostic)
    (kind : StatementKind) (table : String) (affected : UInt64) :
    e ≠ .statementExecuted kind table affected := by
  rintro rfl
  exact h

end Note

namespace Session

variable {σ α β : Type}

/-! ## One statement -/

/-- How an operation over one statement runs: the builder refuses, or the driver fails, or its
answer is read. -/
inductive Executes (x : Executor σ) (kind : StatementKind)
    (builder : Options → Traced QueryError Fragment)
    (read : Options → Fragment → RawResult → Except DbError α) (s : Session σ) :
    List Note → Except DbError α → Session σ → Prop where
  | refused {e : QueryError} (builds : (builder s.options).result = .error e) :
      Executes x kind builder read s ((builder s.options).events.map .event) (.error (.query e)) s
  | failed {f : Fragment} {e : DbError} {next : σ} (builds : (builder s.options).result = .ok f)
      (fails : (x.execute f.sql f.params).Yields s.driver (.error e) next) :
      Executes x kind builder read s ((builder s.options).events.map .event ++ [.call f.call])
        (.error e) ⟨s.options, next⟩
  | executed {f : Fragment} {raw : RawResult} {next : σ}
      (builds : (builder s.options).result = .ok f)
      (answers : (x.execute f.sql f.params).Yields s.driver (.ok raw) next) :
      Executes x kind builder read s
        ((builder s.options).events.map .event ++
          [.call f.call, .event (.statementExecuted kind s.options.table raw.affected)])
        (read s.options f raw) ⟨s.options, next⟩

/-- An operation runs as the builder of its statement and the driver say. -/
def Follows (x : Executor σ) (operation : Action σ α) (kind : StatementKind)
    (builder : Options → Traced QueryError Fragment)
    (read : Options → Fragment → RawResult → Except DbError α) : Prop :=
  ∀ s trace outcome next, Executes x kind builder read s trace outcome next →
    operation.Reports s trace outcome next

section Executions

variable {x : Executor σ} {kind : StatementKind} {builder : Options → Traced QueryError Fragment}
  {read : Options → Fragment → RawResult → Except DbError α}

theorem exists_executes (x : Executor σ) (kind : StatementKind)
    (builder : Options → Traced QueryError Fragment)
    (read : Options → Fragment → RawResult → Except DbError α) (s : Session σ) :
    ∃ trace outcome next, Executes x kind builder read s trace outcome next := by
  cases hbuild : (builder s.options).result with
  | error e => exact ⟨_, _, _, .refused hbuild⟩
  | ok f =>
      cases hexecute : (x.execute f.sql f.params s.driver).1.result with
      | error e => exact ⟨_, _, _, .failed hbuild ⟨hexecute, rfl⟩⟩
      | ok raw => exact ⟨_, _, _, .executed hbuild ⟨hexecute, rfl⟩⟩

/-- An operation that builds a statement, executes it and reads the answer, without a milestone
of its own, follows the builder. -/
theorem follows (hx : x.Quiet) (hbuilder : ∀ o, (builder o).Makes Note.Diagnostic)
    {rest : Fragment → RawResult → Action σ α}
    (hrest : ∀ f raw s, (rest f raw).Reports s [] (read s.options f raw) s) :
    Follows x (do
        let f ← build builder
        let raw ← run x.recorded kind f
        rest f raw) kind builder read := by
  intro s trace outcome next h
  have hbuild := reports_build builder s
  rw [Note.milestones_of_diagnostic (hbuilder s.options)] at hbuild
  cases h with
  | refused builds =>
      rw [builds] at hbuild
      exact hbuild.bind_error
  | failed builds fails =>
      rw [builds] at hbuild
      exact hbuild.bind (run_reports_error hx fails).bind_error
  | @executed f raw last builds answers =>
      rw [builds] at hbuild
      exact hbuild.bind ((run_reports hx answers).bind_silent (hrest f raw ⟨s.options, last⟩))

/-- The statement of the builder is handed over, whatever the driver makes of it. -/
theorem Executes.calls {s next : Session σ} {trace : List Note} {outcome : Except DbError α}
    (h : Executes x kind builder read s trace outcome next) :
    Note.calls trace = (builder s.options).result.toOption.toList.map Fragment.call := by
  cases h with
  | refused builds =>
      rw [builds, Note.calls_map_event]
      rfl
  | failed builds | executed builds =>
      rw [builds, Note.calls_append, Note.calls_map_event]
      rfl

theorem Executes.outcome_of_error {s next : Session σ} {trace : List Note}
    {outcome : Except DbError α} (h : Executes x kind builder read s trace outcome next)
    {e : QueryError} (hbuild : (builder s.options).result = .error e) :
    outcome = .error (.query e) := by
  cases h with
  | refused builds =>
      cases builds.symm.trans hbuild
      rfl
  | failed builds | executed builds => cases builds.symm.trans hbuild

/-- What an operation returns can be put into another form. -/
theorem Follows.map {operation : Action σ α} (h : Follows x operation kind builder read)
    (g : α → β) :
    Follows x (do return g (← operation)) kind builder
      fun o f raw => (read o f raw).map g := by
  intro s trace outcome next hexecutes
  cases hexecutes with
  | refused builds => exact (h s _ _ _ (.refused builds)).map g
  | failed builds fails => exact (h s _ _ _ (.failed builds fails)).map g
  | executed builds answers => exact (h s _ _ _ (.executed builds answers)).map g

end Executions

section Operations

variable {x : Executor σ} (hx : x.Quiet)

/-- The number that the answer to a count gives. -/
def readCount (f : Fragment) (raw : RawResult) : Except DbError Nat :=
  match countOf? raw with
  | some n => .ok n.toInt.toNat
  | none => .error (.unexpectedResult f.sql "COUNT(*) returned no integer cell")

include hx

theorem select_follows (q : SelectQuery) :
    Follows x (select x.recorded q) .select q.build fun _ _ raw => .ok (.ofRaw raw) :=
  follows hx (fun o => q.diagnostic_build o) fun _ _ _ => Step.reports_pure _ _

theorem count_follows (q : SelectQuery) :
    Follows x (count x.recorded q) .select q.buildCount fun _ f raw => readCount f raw := by
  refine follows hx (fun o => q.diagnostic_buildCount o) fun f raw s => ?_
  unfold readCount
  cases countOf? raw with
  | none => exact Step.reports_lift _ _
  | some n => exact Step.reports_pure _ _

/-- The options that the answer is read with are still those of the statement. -/
theorem insertRow_follows (q : InsertQuery) :
    Follows x (insertRow x.recorded q) .insert q.build fun o _ raw => .ok (.ofRaw o raw) :=
  follows hx (fun o => q.diagnostic_build o) fun _ _ s =>
    (reports_currentOptions s).silent_bind (Step.reports_pure _ _)

theorem update_follows (q : UpdateQuery) :
    Follows x (update x.recorded q) .update q.build fun _ _ raw => .ok raw.affected :=
  follows hx (fun o => q.diagnostic_build o) fun _ _ _ => Step.reports_pure _ _

theorem delete_follows (q : DeleteQuery) :
    Follows x (delete x.recorded q) .delete q.build fun _ _ raw => .ok raw.affected :=
  follows hx (fun o => q.diagnostic_build o) fun _ _ _ => Step.reports_pure _ _

end Operations

/-! ## Queries -/

/-- An operation that executes one statement. -/
inductive Query where
  | select (q : SelectQuery)
  | count (q : SelectQuery)
  | insertRow (q : InsertQuery)
  | update (q : UpdateQuery)
  | delete (q : DeleteQuery)

/-- What an operation returns. -/
inductive Answer where
  | reconfigured
  | rows (rows : RowSet)
  | number (n : Nat)
  | inserted (r : InsertResult)
deriving DecidableEq

namespace Query

/-- The statement of a query under options. -/
def builder : Query → Options → Traced QueryError Fragment
  | select q => q.build
  | count q => q.buildCount
  | insertRow q => q.build
  | update q => q.build
  | delete q => q.build

/-- The kind under which a query is reported. -/
def kind : Query → StatementKind
  | select _ | count _ => .select
  | insertRow _ => .insert
  | update _ => .update
  | delete _ => .delete

/-- What a query makes of the answer to its statement. -/
def read : Query → Options → Fragment → RawResult → Except DbError Answer
  | select _, _, _, raw => .ok (.rows (.ofRaw raw))
  | count _, _, f, raw => (readCount f raw).map .number
  | insertRow _, o, _, raw => .ok (.inserted (.ofRaw o raw))
  | update _, _, _, raw | delete _, _, _, raw => .ok (.number raw.affected.toNat)

def run (x : Executor σ) : Query → Action σ Answer
  | select q => do return .rows (← Session.select x q)
  | count q => do return .number (← Session.count x q)
  | insertRow q => do return .inserted (← Session.insertRow x q)
  | update q => do return .number (← Session.update x q).toNat
  | delete q => do return .number (← Session.delete x q).toNat

theorem diagnostic_builder (q : Query) (o : Options) : (q.builder o).Makes Note.Diagnostic := by
  cases q with
  | select q => exact q.diagnostic_build o
  | count q => exact q.diagnostic_buildCount o
  | insertRow q => exact q.diagnostic_build o
  | update q => exact q.diagnostic_build o
  | delete q => exact q.diagnostic_build o

/-- A builder does not report that a statement has been executed. -/
theorem statementExecuted_notMem_events (q : Query) (o : Options) (kind : StatementKind)
    (table : String) (affected : UInt64) :
    .statementExecuted kind table affected ∉ (q.builder o).events := by
  intro hmem
  obtain ⟨n, hn, hevent⟩ := List.mem_filterMap.mp hmem
  cases n with
  | log entry | call c => cases hevent
  | event e =>
      cases hevent
      have hdiagnostic := q.diagnostic_builder o _ hn
      exact hdiagnostic.ne_statementExecuted kind table affected rfl

variable {x : Executor σ}

/-- A query follows the builder of its statement. -/
theorem follows (hx : x.Quiet) (q : Query) :
    Follows x (q.run x.recorded) q.kind q.builder q.read := by
  cases q with
  | select q => exact (select_follows hx q).map Answer.rows
  | count q => exact (count_follows hx q).map Answer.number
  | insertRow q => exact (insertRow_follows hx q).map Answer.inserted
  | update q => exact (update_follows hx q).map (Answer.number ·.toNat)
  | delete q => exact (delete_follows hx q).map (Answer.number ·.toNat)

end Query

/-! ## Turns -/

/-- A query, or a change of the options. -/
inductive Turn where
  | reconfigure (overrides : Overrides)
  | query (q : Query)

namespace Turn

def run (x : Executor σ) : Turn → Action σ Answer
  | reconfigure overrides => do
      Session.reconfigure overrides
      return .reconfigured
  | query q => q.run x

/-- The options in force after a turn; a change that fails is none. -/
def optionsAfter (o : Options) : Turn → Options
  | reconfigure overrides =>
      match (o.reconfigured overrides).result with
      | .ok changed => changed
      | .error _ => o
  | query _ => o

/-- The statement that a turn hands over, if it does. -/
def statement? (o : Options) : Turn → Option Fragment
  | reconfigure _ => none
  | query q => (q.builder o).result.toOption

/-- How a turn runs: a change of options is applied or refused as a whole, and reports nothing. -/
inductive Takes (x : Executor σ) :
    Turn → Session σ → List Note → Except DbError Answer → Session σ → Prop where
  | reconfigured {s : Session σ} {overrides : Overrides} {o : Options}
      (applies : (s.options.reconfigured overrides).result = .ok o) :
      Takes x (.reconfigure overrides) s [] (.ok .reconfigured) ⟨o, s.driver⟩
  | kept {s : Session σ} {overrides : Overrides} {e : ConfigError}
      (fails : (s.options.reconfigured overrides).result = .error e) :
      Takes x (.reconfigure overrides) s [] (.error (.config e)) s
  | query {s next : Session σ} {q : Query} {trace : List Note} {outcome : Except DbError Answer}
      (executes : Executes x q.kind q.builder q.read s trace outcome next) :
      Takes x (.query q) s trace outcome next

end Turn

/-- Take turns one after the other, whether they succeed or not. -/
def takeTurns (x : Executor σ) : List Turn → Action σ (List (Except DbError Answer))
  | [] => pure []
  | t :: turns => do
      let outcome ← (t.run x).attempt
      let outcomes ← takeTurns x turns
      return outcome :: outcomes

/-- The options in force after turns. -/
def optionsAfter (o : Options) (turns : List Turn) : Options := turns.foldl Turn.optionsAfter o

/-- The statements that turns hand over, each built under the options in force at its turn. -/
def statements (o : Options) : List Turn → List Fragment
  | [] => []
  | t :: turns => (t.statement? o).toList ++ statements (t.optionsAfter o) turns

/-- How a run over turns goes on. -/
inductive TakesTurns (x : Executor σ) :
    List Turn → Session σ → List Note → List (Except DbError Answer) → Session σ → Prop where
  | nil (s : Session σ) : TakesTurns x [] s [] [] s
  | cons {t : Turn} {turns : List Turn} {s middle last : Session σ} {trace trace' : List Note}
      {outcome : Except DbError Answer} {outcomes : List (Except DbError Answer)}
      (head : t.Takes x s trace outcome middle)
      (tail : TakesTurns x turns middle trace' outcomes last) :
      TakesTurns x (t :: turns) s (trace ++ trace') (outcome :: outcomes) last

section Turns

variable {x : Executor σ} {s next : Session σ} {trace : List Note}

/-- A change of options is logged at most. -/
theorem milestones_reconfigured (o : Options) (overrides : Overrides) :
    Note.milestones (o.reconfigured overrides).notes = [] := by
  unfold Options.reconfigured
  cases h : o.reconfigure overrides with
  | ok changed =>
      rw [Traced.bind_of_ok (a := changed) _ rfl]
      rfl
  | error e =>
      rw [Traced.bind_of_error (e := e) _ rfl]
      rfl

theorem reconfigure_reports {overrides : Overrides} {o : Options}
    (h : (s.options.reconfigured overrides).result = .ok o) :
    (Session.reconfigure overrides).Reports s [] (.ok ()) ⟨o, s.driver⟩ := by
  have hrun : Session.reconfigure overrides s =
      (⟨(s.options.reconfigured overrides).notes, .ok ()⟩, ⟨o, s.driver⟩) := by
    simp only [Session.reconfigure, Traced.mapError_result_of_ok DbError.config h]
    rfl
  have hreports := Step.reports_of_eq hrun
  rwa [milestones_reconfigured] at hreports

theorem reconfigure_reports_error {overrides : Overrides} {e : ConfigError}
    (h : (s.options.reconfigured overrides).result = .error e) :
    (Session.reconfigure overrides).Reports s [] (.error (.config e)) s := by
  have hrun : Session.reconfigure overrides s =
      (⟨(s.options.reconfigured overrides).notes, .error (.config e)⟩, s) := by
    simp only [Session.reconfigure, Traced.mapError_result_of_error DbError.config h]
    rfl
  have hreports := Step.reports_of_eq hrun
  rwa [milestones_reconfigured] at hreports

namespace Turn

variable {t : Turn} {outcome : Except DbError Answer}

theorem exists_takes (x : Executor σ) (t : Turn) (s : Session σ) :
    ∃ trace outcome next, t.Takes x s trace outcome next := by
  cases t with
  | reconfigure overrides =>
      cases h : (s.options.reconfigured overrides).result with
      | ok o => exact ⟨_, _, _, .reconfigured h⟩
      | error e => exact ⟨_, _, _, .kept h⟩
  | query q =>
      obtain ⟨trace, outcome, next, h⟩ := exists_executes x q.kind q.builder q.read s
      exact ⟨trace, outcome, next, .query h⟩

theorem Takes.reports (hx : x.Quiet) (h : t.Takes x s trace outcome next) :
    (t.run x.recorded).Reports s trace outcome next := by
  cases h with
  | reconfigured applies =>
      exact (reconfigure_reports applies).bind_silent (Step.reports_pure _ _)
  | kept fails => exact (reconfigure_reports_error fails).bind_error
  | query executes => exact Query.follows hx _ s _ _ _ executes

/-- A turn hands over its statement, whatever becomes of it. -/
theorem Takes.calls (h : t.Takes x s trace outcome next) :
    Note.calls trace = (t.statement? s.options).toList.map Fragment.call := by
  cases h with
  | reconfigured | kept => rfl
  | query executes => exact executes.calls

theorem Takes.options (h : t.Takes x s trace outcome next) :
    next.options = t.optionsAfter s.options := by
  cases h with
  | reconfigured applies => simp only [optionsAfter, applies]
  | kept fails => simp only [optionsAfter, fails]
  | query executes => cases executes <;> rfl

end Turn

/-! ## Runs over turns -/

variable {ts us : List Turn} {outcomes : List (Except DbError Answer)}

theorem exists_takesTurns (x : Executor σ) (ts : List Turn) (s : Session σ) :
    ∃ trace outcomes last, TakesTurns x ts s trace outcomes last := by
  induction ts generalizing s with
  | nil => exact ⟨_, _, _, .nil s⟩
  | cons t ts ih =>
      obtain ⟨trace, outcome, middle, head⟩ := t.exists_takes x s
      obtain ⟨trace', outcomes, last, tail⟩ := ih middle
      exact ⟨_, _, _, .cons head tail⟩

namespace TakesTurns

theorem reports (hx : x.Quiet) (h : TakesTurns x ts s trace outcomes next) :
    (takeTurns x.recorded ts).Reports s trace (.ok outcomes) next := by
  induction h with
  | nil s => exact Step.reports_pure _ _
  | cons head _ ih =>
      have hhead := (head.reports hx).attempt (δ := DbError)
      exact hhead.bind (ih.bind_silent (Step.reports_pure _ _))

/-- A run hands over the statements of its turns and no others. -/
theorem calls (h : TakesTurns x ts s trace outcomes next) :
    Note.calls trace = (statements s.options ts).map Fragment.call := by
  induction h with
  | nil s => rfl
  | cons head _ ih =>
      rw [Note.calls_append, head.calls, ih, head.options, statements, List.map_append]

theorem options (h : TakesTurns x ts s trace outcomes next) :
    next.options = optionsAfter s.options ts := by
  induction h with
  | nil s => rfl
  | cons head _ ih =>
      rw [ih, head.options]
      rfl

theorem length_outcomes (h : TakesTurns x ts s trace outcomes next) :
    outcomes.length = ts.length := by
  induction h with
  | nil s => rfl
  | cons _ _ ih => exact congrArg Nat.succ ih

theorem append {middle : Session σ} {trace' : List Note}
    {outcomes' : List (Except DbError Answer)} (h : TakesTurns x ts s trace outcomes middle)
    (h' : TakesTurns x us middle trace' outcomes' next) :
    TakesTurns x (ts ++ us) s (trace ++ trace') (outcomes ++ outcomes') next := by
  induction h with
  | nil s => exact h'
  | cons head _ ih =>
      rw [List.append_assoc]
      exact .cons head (ih h')

/-- A run can be cut between any two turns. -/
theorem exists_of_append (h : TakesTurns x (ts ++ us) s trace outcomes next) :
    ∃ trace₁ outcomes₁ middle trace₂ outcomes₂,
      TakesTurns x ts s trace₁ outcomes₁ middle ∧ TakesTurns x us middle trace₂ outcomes₂ next ∧
      trace = trace₁ ++ trace₂ ∧ outcomes = outcomes₁ ++ outcomes₂ := by
  induction ts generalizing s trace outcomes with
  | nil => exact ⟨_, _, _, _, _, .nil s, h, rfl, rfl⟩
  | cons t ts ih =>
      cases h with
      | cons head tail =>
          obtain ⟨_, _, middle, _, _, h₁, h₂, rfl, rfl⟩ := ih tail
          exact ⟨_, _, middle, _, _, .cons head h₁, h₂, (List.append_assoc ..).symm, rfl⟩

end TakesTurns

/-- A change of options that fails may be put into a run without a trace but its error. -/
theorem TakesTurns.insert_kept {before after : List Turn} {overrides : Overrides} {e : ConfigError}
    (h : TakesTurns x (before ++ after) s trace outcomes next)
    (hfails : ((optionsAfter s.options before).reconfigured overrides).result = .error e) :
    ∃ done rest, outcomes = done ++ rest ∧ done.length = before.length ∧
      TakesTurns x (before ++ .reconfigure overrides :: after) s trace
        (done ++ .error (.config e) :: rest) next := by
  obtain ⟨trace₁, done, middle, trace₂, rest, hbefore, hafter, rfl, rfl⟩ := h.exists_of_append
  rw [← hbefore.options] at hfails
  exact ⟨done, rest, rfl, hbefore.length_outcomes, hbefore.append (.cons (.kept hfails) hafter)⟩

/-- A change of options that succeeds divides a run: what is before it runs as if nothing
followed, and what follows it as if the options had always been the new ones. -/
theorem TakesTurns.exists_of_reconfigured {before after : List Turn} {overrides : Overrides}
    {o : Options}
    (h : TakesTurns x (before ++ .reconfigure overrides :: after) s trace outcomes next)
    (happlies : ((optionsAfter s.options before).reconfigured overrides).result = .ok o) :
    ∃ trace₁ done middle trace₂ rest,
      TakesTurns x before s trace₁ done middle ∧
      TakesTurns x after ⟨o, middle.driver⟩ trace₂ rest next ∧
      trace = trace₁ ++ trace₂ ∧ outcomes = done ++ .ok .reconfigured :: rest := by
  obtain ⟨trace₁, done, middle, trace₂, rest, hbefore, hrest, rfl, rfl⟩ := h.exists_of_append
  rw [← hbefore.options] at happlies
  cases hrest with
  | cons head tail =>
      cases head with
      | reconfigured applies =>
          cases applies.symm.trans happlies
          exact ⟨_, _, middle, _, _, hbefore, tail, rfl, rfl⟩
      | kept fails => cases fails.symm.trans happlies

end Turns

/-- What a run over turns is, in terms of the builders and of the driver. -/
structure Refines (x : Executor σ) (ts : List Turn) (s : Session σ) (trace : List Note)
    (outcomes : List (Except DbError Answer)) (last : Session σ) : Prop where
  /-- Each turn runs as its builder and the driver say. -/
  turns : TakesTurns x ts s trace outcomes last
  /-- No builder reports that a statement has been executed, so each such report is of a
  statement that the driver has just executed. -/
  reported : ∀ (q : Query) (o : Options) (kind : StatementKind) (table : String)
      (affected : UInt64),
    .statementExecuted kind table affected ∉ (q.builder o).events
  /-- The statements that builders return reach the driver, in their order, and no others. -/
  calls : Note.calls trace = (statements s.options ts).map Fragment.call
  options : last.options = optionsAfter s.options ts
  /-- A change of options that fails may be put in at any place: the run stays the same. -/
  kept : ∀ before overrides after e, ts = before ++ after →
    ((optionsAfter s.options before).reconfigured overrides).result = .error e →
    ∃ done rest, outcomes = done ++ rest ∧ done.length = before.length ∧
      (takeTurns x.recorded (before ++ .reconfigure overrides :: after)).Reports s trace
        (.ok (done ++ .error (.config e) :: rest)) last
  /-- A change that succeeds divides the run into one under the old options, which it does not
  concern, and one that starts with the new options. -/
  changed : ∀ before overrides after o, ts = before ++ .reconfigure overrides :: after →
    ((optionsAfter s.options before).reconfigured overrides).result = .ok o →
    ∃ trace₁ done middle trace₂ rest,
      (takeTurns x.recorded before).Reports s trace₁ (.ok done) middle ∧
      (takeTurns x.recorded after).Reports ⟨o, middle.driver⟩ trace₂ (.ok rest) last ∧
      trace = trace₁ ++ trace₂ ∧ outcomes = done ++ .ok .reconfigured :: rest

/-- A run over turns refines the builders, whatever the driver answers. -/
theorem takeTurns_refines {x : Executor σ} (hx : x.Quiet) (ts : List Turn) (s : Session σ) :
    ∃ trace outcomes last, (takeTurns x.recorded ts).Reports s trace (.ok outcomes) last ∧
      Refines x ts s trace outcomes last := by
  obtain ⟨trace, outcomes, last, h⟩ := exists_takesTurns x ts s
  refine ⟨trace, outcomes, last, h.reports hx, ?_⟩
  constructor
  case turns => exact h
  case reported => exact Query.statementExecuted_notMem_events
  case calls => exact h.calls
  case options => exact h.options
  case kept =>
    rintro before overrides after e rfl hfails
    obtain ⟨done, rest, houtcomes, hlength, hinserted⟩ := h.insert_kept hfails
    exact ⟨done, rest, houtcomes, hlength, hinserted.reports hx⟩
  case changed =>
    rintro before overrides after o rfl happlies
    obtain ⟨trace₁, done, middle, trace₂, rest, hbefore, hafter, htrace, houtcomes⟩ :=
      h.exists_of_reconfigured happlies
    exact ⟨trace₁, done, middle, trace₂, rest, hbefore.reports hx, hafter.reports hx, htrace,
      houtcomes⟩

/-- Turns of all kinds: a change that fails, a refused query and a change that succeeds are
between two queries. -/
def mixedTurns : List Turn :=
  [.query (.select ⟨["a"], ⟨[("b", .value .null)]⟩, [], none⟩),
    .reconfigure [("table", .str "u"), ("max_params", .int 0)],
    .query (.delete ⟨⟨[("c", .value (.integer 1))]⟩⟩),
    .reconfigure [("table", .str "u")],
    .query (.update ⟨[("a", .integer 1)], ⟨[("b", .value (.integer 2))]⟩⟩)]

/-- A driver that serves one statement and fails at the next. -/
def oneAnswer : Script := ⟨[.ok ⟨[], 3, none⟩, .error "locked"], [], [], []⟩

theorem takeTurns_refines_mixedTurns :
    Script.executor.Quiet ∧ ∃ trace outcomes last,
      Refines Script.executor mixedTurns ⟨.defaults .sqlite "t" ["a", "b"], oneAnswer⟩ trace
        outcomes last ∧
      trace = [.event (.nullComparison "b" "eq" "nu"),
        .call (.execute "SELECT \"a\" FROM \"t\" WHERE \"b\" IS NULL" []),
        .event (.statementExecuted .select "t" 3),
        .call (.execute "UPDATE \"u\" SET \"a\" = ? WHERE \"b\" = ?"
          [.integer 1, .integer 2])] ∧
      last.options.table = "u" := by
  obtain ⟨trace, outcomes, last, hreports, hrefines⟩ := takeTurns_refines Script.quiet_executor
    mixedTurns ⟨.defaults .sqlite "t" ["a", "b"], oneAnswer⟩
  refine ⟨Script.quiet_executor, trace, outcomes, last, hrefines, ?_, ?_⟩
  · rw [← hreports.milestones]
    decide +kernel
  · rw [hrefines.options]
    decide +kernel

end Session

end BoundSql
