import BoundSql.Database.Script
import BoundSql.Database.Session
import BoundSql.Proofs.Trace.Outcome

/-!
# Reports of sessions

The milestones of a run are the driver calls it makes and the events it emits, in their
order; log entries are not among them.  The milestones of a sequence are those of its
parts, up to the first part that fails.

Calls are seen through a driver that records them.  A driver has no access to the events
of a session or to the record of its calls, so the drivers considered here only log.
-/

namespace BoundSql

/-! ## Milestones -/

namespace Note

/-- The notes that are not log entries. -/
def milestones (notes : List Note) : List Note := notes.filter fun n => n.log?.isNone

theorem milestones_append (ns ms : List Note) :
    milestones (ns ++ ms) = milestones ns ++ milestones ms := List.filter_append ..

theorem calls_append (ns ms : List Note) : calls (ns ++ ms) = calls ns ++ calls ms :=
  List.filterMap_append

theorem events_milestones (ns : List Note) : events (milestones ns) = events ns := by
  unfold events milestones
  rw [List.filterMap_filter]
  congr 1
  funext n
  cases n <;> rfl

theorem calls_milestones (ns : List Note) : calls (milestones ns) = calls ns := by
  unfold calls milestones
  rw [List.filterMap_filter]
  congr 1
  funext n
  cases n <;> rfl

end Note

namespace Step

variable {σ ε α β : Type}

/-- A step makes certain milestones, ends with an outcome and leaves a state. -/
structure Reports (x : Step σ ε α) (s : σ) (trace : List Note) (outcome : Except ε α) (next : σ) :
    Prop where
  milestones : Note.milestones (x s).1.notes = trace
  result : (x s).1.result = outcome
  state : (x s).2 = next

variable {x : Step σ ε α} {f : α → Step σ ε β} {s next : σ} {trace : List Note}

theorem Reports.yields {outcome : Except ε α} (h : Reports x s trace outcome next) :
    Yields x s outcome next := ⟨h.result, h.state⟩

theorem Yields.reports {outcome : Except ε α} (h : Yields x s outcome next) :
    Reports x s (Note.milestones (x s).1.notes) outcome next := ⟨rfl, h.1, h.2⟩

theorem reports_of_eq {t : Traced ε α} (h : x s = (t, next)) :
    Reports x s (Note.milestones t.notes) t.result next := by
  constructor <;> rw [h]

theorem Reports.events {outcome : Except ε α} (h : Reports x s trace outcome next) :
    Note.events (x s).1.notes = Note.events trace := by
  rw [← Note.events_milestones, h.milestones]

theorem Reports.calls {outcome : Except ε α} (h : Reports x s trace outcome next) :
    Note.calls (x s).1.notes = Note.calls trace := by
  rw [← Note.calls_milestones, h.milestones]

theorem Reports.bind {a : α} {trace' : List Note} {outcome : Except ε β} {last : σ}
    (hx : Reports x s trace (.ok a) next) (hf : Reports (f a) next trace' outcome last) :
    Reports (x >>= f) s (trace ++ trace') outcome last := by
  obtain ⟨hmilestones, hresult, hstate⟩ := hx
  have hbind : (x >>= f) s =
      (⟨(x s).1.notes ++ (f a next).1.notes, (f a next).1.result⟩, (f a next).2) := by
    show Step.bind x f s = _
    unfold Step.bind
    simp only [hresult, hstate]
  constructor
  · rw [hbind, Note.milestones_append, hmilestones, hf.milestones]
  · rw [hbind, hf.result]
  · rw [hbind, hf.state]

theorem Reports.bind_error {e : ε} (hx : Reports x s trace (.error e) next) :
    Reports (x >>= f) s trace (.error e) next := by
  obtain ⟨hmilestones, hresult, hstate⟩ := hx
  have hbind : (x >>= f) s = (⟨(x s).1.notes, .error e⟩, next) := by
    show Step.bind x f s = _
    unfold Step.bind
    simp only [hresult, hstate]
  constructor
  · rw [hbind, hmilestones]
  · rw [hbind]
  · rw [hbind]

/-- Parts without milestones leave those of the other parts. -/
theorem Reports.silent_bind {a : α} {outcome : Except ε β} {last : σ}
    (hx : Reports x s [] (.ok a) next) (hf : Reports (f a) next trace outcome last) :
    Reports (x >>= f) s trace outcome last := hx.bind hf

theorem Reports.bind_silent {a : α} {outcome : Except ε β} {last : σ}
    (hx : Reports x s trace (.ok a) next) (hf : Reports (f a) next [] outcome last) :
    Reports (x >>= f) s trace outcome last := by
  have hboth := hx.bind hf
  rwa [List.append_nil] at hboth

theorem reports_pure (a : α) (s : σ) : Reports (pure a : Step σ ε α) s [] (.ok a) s :=
  ⟨rfl, rfl, rfl⟩

theorem Reports.map {outcome : Except ε α} (g : α → β) (h : Reports x s trace outcome next) :
    Reports (do return g (← x)) s trace (outcome.map g) next := by
  cases outcome with
  | error e => exact h.bind_error
  | ok a => exact h.bind_silent (reports_pure (g a) next)

theorem reports_lift (t : Traced ε α) (s : σ) :
    Reports (lift t) s (Note.milestones t.notes) t.result s := ⟨rfl, rfl, rfl⟩

theorem reports_log (entry : LogEntry) (s : σ) :
    Reports (log entry : Step σ ε Unit) s [] (.ok ()) s := ⟨rfl, rfl, rfl⟩

theorem reports_emit (e : Event) (s : σ) :
    Reports (emit e : Step σ ε Unit) s [.event e] (.ok ()) s := ⟨rfl, rfl, rfl⟩

/-- An attempt makes the milestones of what is attempted, and succeeds with its outcome. -/
theorem Reports.attempt {δ : Type} {outcome : Except ε α} (h : Reports x s trace outcome next) :
    Reports (attempt x : Step σ δ (Except ε α)) s trace (.ok outcome) next :=
  ⟨h.milestones, congrArg Except.ok h.result, h.state⟩

/-- What follows an attempt sees its outcome and adds to its milestones. -/
theorem milestones_attempt_bind {δ : Type} (x : Step σ ε α) (f : Except ε α → Step σ δ β) (s : σ) :
    Note.milestones ((attempt x >>= f) s).1.notes =
      Note.milestones (x s).1.notes ++ Note.milestones (f (x s).1.result (x s).2).1.notes :=
  Note.milestones_append ..

/-- A recorded call is the one milestone of a step that only logs. -/
theorem reports_call {c : Call} {outcome : Except ε α} (hquiet : Note.milestones (x s).1.notes = [])
    (h : Yields x s outcome next) :
    Reports (do call c; x) s [.call c] outcome next := by
  have hcall : Reports (call c : Step σ ε Unit) s [.call c] (.ok ()) s := ⟨rfl, rfl, rfl⟩
  exact hcall.bind ⟨hquiet, h.1, h.2⟩

end Step

/-! ## Drivers that only log -/

/-- A driver that makes no milestones of its own. -/
structure Executor.Quiet {σ : Type} (x : Executor σ) : Prop where
  execute : ∀ sql params s, Note.milestones (x.execute sql params s).1.notes = []
  begin : ∀ s, Note.milestones (x.begin s).1.notes = []
  commit : ∀ s, Note.milestones (x.commit s).1.notes = []
  rollback : ∀ s, Note.milestones (x.rollback s).1.notes = []

theorem Script.quiet_executor : Script.executor.Quiet := by
  have hanswer (stage : TransactionStage) (entries : List (Option String)) :
      Note.milestones (answer stage entries).notes = [] := by
    unfold answer
    split <;> rfl
  refine ⟨fun sql params s => ?_, fun s => hanswer _ _, fun s => hanswer _ _, fun s => hanswer _ _⟩
  unfold executor
  dsimp only
  split <;> rfl

/-! ## Sessions -/

namespace Session

variable {σ α : Type} {x : Executor σ} {o : Options}

theorem reports_currentOptions (s : Session σ) :
    Step.Reports currentOptions s [] (.ok s.options) s := ⟨rfl, rfl, rfl⟩

theorem reports_drive {step : Step σ DbError α} {s next : σ} {trace : List Note}
    {outcome : Except DbError α} (h : Step.Reports step s trace outcome next) :
    Step.Reports (drive step) ⟨o, s⟩ trace outcome ⟨o, next⟩ := by
  refine ⟨h.milestones, h.result, ?_⟩
  show (⟨o, (step s).2⟩ : Session σ) = ⟨o, next⟩
  rw [h.state]

theorem reports_build (f : Options → Traced QueryError α) (s : Session σ) :
    Step.Reports (build f) s (Note.milestones (f s.options).notes)
      ((f s.options).result.mapError .query) s := ⟨rfl, rfl, rfl⟩

/-- A statement that is executed is handed to the driver and then reported. -/
theorem run_reports (hx : x.Quiet) {kind : StatementKind} {f : Fragment} {s next : σ}
    {raw : RawResult} (h : (x.execute f.sql f.params).Yields s (.ok raw) next) :
    Step.Reports (run x.recorded kind f) ⟨o, s⟩
      [.call (.execute f.sql f.params), .event (.statementExecuted kind o.table raw.affected)]
      (.ok raw) ⟨o, next⟩ := by
  have hexecute : Step.Reports (x.recorded.execute f.sql f.params) s
      [.call (.execute f.sql f.params)] (.ok raw) next :=
    Step.reports_call (hx.execute f.sql f.params s) h
  -- what is logged before the call is no milestone
  refine (reports_currentOptions _).silent_bind ?_
  refine (Step.reports_log _ _).silent_bind ?_
  refine (Step.reports_log _ _).silent_bind ?_
  have hemit : Step.Reports (Step.emit (.statementExecuted kind o.table raw.affected))
      (⟨o, next⟩ : Session σ) [.event (.statementExecuted kind o.table raw.affected)] (.ok ())
      ⟨o, next⟩ := Step.reports_emit (ε := DbError) _ _
  exact (reports_drive hexecute).bind (hemit.bind_silent (Step.reports_pure raw _))

/-- A statement that fails is handed to the driver and not reported. -/
theorem run_reports_error (hx : x.Quiet) {kind : StatementKind} {f : Fragment} {s next : σ}
    {e : DbError} (h : (x.execute f.sql f.params).Yields s (.error e) next) :
    Step.Reports (run x.recorded kind f) ⟨o, s⟩ [.call (.execute f.sql f.params)]
      (.error e) ⟨o, next⟩ := by
  have hexecute : Step.Reports (x.recorded.execute f.sql f.params) s
      [.call (.execute f.sql f.params)] (.error e) next :=
    Step.reports_call (hx.execute f.sql f.params s) h
  refine (reports_currentOptions _).silent_bind ?_
  refine (Step.reports_log _ _).silent_bind ?_
  refine (Step.reports_log _ _).silent_bind ?_
  exact (reports_drive hexecute).bind_error

end Session

end BoundSql
