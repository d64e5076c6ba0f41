import BoundSql.Proofs.Database.Atomicity
import BoundSql.Proofs.Database.Refinement

/-!
# Previews and what they show

A preview of a request shows the statements that performing it hands to the driver.  If there is
no preview, performing the request fails for the same reason and executes nothing; otherwise the
statements shown are handed over in their order, with the values shown.  A single statement is
handed over by itself.  Those of an insert of many rows are handed over in one transaction, up to
the first that fails or whose identifiers are not accepted.

The database has to be open, that is, a transaction can begin.  Closing one may fail: a commit
that fails is followed by a rollback.
-/

namespace BoundSql

/-! ## What is shown -/

/-- Whether an entry shows a part of a statement. -/
def LogEntry.isShown : LogEntry → Bool
  | .statement _ | .parameters _ => true
  | _ => false

/-- The entries that show a statement. -/
def Fragment.shown (f : Fragment) : List LogEntry := [.statement f.sql, .parameters f.params]

namespace Note

/-- The entries that show statements, in their order. -/
def shown (ns : List Note) : List LogEntry := (logs ns).filter LogEntry.isShown

theorem shown_append (ns ms : List Note) : shown (ns ++ ms) = shown ns ++ shown ms := by
  unfold shown logs
  rw [List.filterMap_append, List.filter_append]

theorem shown_map_log (entries : List LogEntry) :
    shown (entries.map .log) = entries.filter LogEntry.isShown := by
  have hlogs : logs (entries.map .log) = entries := by
    induction entries with
    | nil => rfl
    | cons entry entries ih => exact congrArg (entry :: ·) ih
  rw [shown, hlogs]

theorem milestones_map_log (entries : List LogEntry) : milestones (entries.map .log) = [] := by
  induction entries with
  | nil => rfl
  | cons entry entries ih => exact ih

/-- No builder shows its statement. -/
theorem shown_of_diagnostic {ns : List Note} (h : ∀ n ∈ ns, n.Diagnostic) : shown ns = [] := by
  have hentry {entry : LogEntry} (hquery : entry.component = .query) : entry.isShown = false := by
    cases entry <;> first | rfl | cases hquery
  rw [shown, List.filter_eq_nil_iff]
  intro entry hmem
  obtain ⟨n, hn, hlog⟩ := List.mem_filterMap.mp hmem
  have hdiagnostic := h n hn
  cases n with
  | event e | call c => cases hlog
  | log entry' =>
      cases hlog
      rw [hentry hdiagnostic]
      exact Bool.false_ne_true

end Note

section Recounted

variable {ε α : Type} (t : Traced ε α)

/-- Events are put into words behind everything else. -/
theorem Traced.exists_notes_recounted : ∃ es : List Event,
    t.recounted.notes = t.notes ++ (es.map fun e => LogEntry.remark e.words).map .log := by
  unfold recounted
  split
  · exact ⟨t.events, by rw [List.map_map]; rfl⟩
  · exact ⟨[], (List.append_nil _).symm⟩

theorem Traced.shown_recounted : Note.shown t.recounted.notes = Note.shown t.notes := by
  obtain ⟨es, hnotes⟩ := t.exists_notes_recounted
  have hremarks : (es.map fun e => LogEntry.remark e.words).filter LogEntry.isShown = [] := by
    simp [LogEntry.isShown]
  rw [hnotes, Note.shown_append, Note.shown_map_log, hremarks, List.append_nil]

theorem Traced.calls_recounted : Note.calls t.recounted.notes = Note.calls t.notes := by
  obtain ⟨es, hnotes⟩ := t.exists_notes_recounted
  have hremarks : Note.calls ((es.map fun e => LogEntry.remark e.words).map .log) = [] := by
    rw [← Note.calls_milestones, Note.milestones_map_log]
    rfl
  rw [hnotes, Note.calls_append, hremarks, List.append_nil]

end Recounted

/-! ## Previews of statements -/

namespace Operation

/-- A statement is shown as it is built, if it is. -/
theorem showBuilt_of_ok {t : Traced QueryError Fragment} (ht : t.Makes Note.Diagnostic)
    {f : Fragment} (h : t.result = .ok f) :
    (showBuilt t).result = .ok () ∧ Note.shown (showBuilt t).notes = f.shown := by
  have hbuilt := Traced.mapError_result_of_ok CommandError.query h
  have hsilent : Note.shown (t.mapError CommandError.query).notes = [] :=
    Note.shown_of_diagnostic ht
  unfold showBuilt
  rw [Traced.bind_of_ok _ hbuilt]
  refine ⟨rfl, ?_⟩
  rw [Note.shown_append, hsilent]
  rfl

theorem showBuilt_of_error {t : Traced QueryError Fragment} {e : QueryError}
    (h : t.result = .error e) : (showBuilt t).result = .error (.query e) := by
  unfold showBuilt
  rw [Traced.bind_of_error _ (Traced.mapError_result_of_error CommandError.query h)]

theorem showBatches_eq (total number : Nat) (batches : List InsertBatch) :
    (showBatches total number batches).result = .ok () ∧
      Note.shown (showBatches total number batches).notes =
        batches.flatMap fun b => b.fragment.shown := by
  induction batches generalizing number with
  | nil => exact ⟨rfl, rfl⟩
  | cons b batches ih =>
      obtain ⟨hresult, hshown⟩ := ih (number + 1)
      have hnotes : (showBatches total number (b :: batches)).notes =
          .log (.heading number total b.start b.stop) :: (b.fragment.shown.map .log ++
            (showBatches total (number + 1) batches).notes) := rfl
      refine ⟨hresult, ?_⟩
      rw [hnotes, List.flatMap_cons, ← hshown]
      rfl

/-- The statements of a plan are shown one after the other. -/
theorem preview_of_plan {o : Options} {b : BulkInsert} {p : InsertPlan}
    (h : (b.plan o).result = .ok p) :
    (preview o (.insertMany b)).result = .ok () ∧
      Note.shown (preview o (.insertMany b)).notes =
        p.statements.flatMap fun b => b.fragment.shown := by
  have hplan := Traced.mapError_result_of_ok CommandError.query h
  have hsilent : Note.shown ((b.plan o).mapError CommandError.query).notes = [] :=
    Note.shown_of_diagnostic (b.diagnostic_plan o)
  obtain ⟨hresult, hshown⟩ := showBatches_eq p.statements.length 1 p.statements
  rw [preview, Traced.bind_of_ok _ hplan]
  refine ⟨hresult, ?_⟩
  rw [Note.shown_append, hsilent, hshown, List.nil_append]

theorem preview_of_plan_error {o : Options} {b : BulkInsert} {e : QueryError}
    (h : (b.plan o).result = .error e) :
    (preview o (.insertMany b)).result = .error (.query e) := by
  rw [preview, Traced.bind_of_error _ (Traced.mapError_result_of_error CommandError.query h)]

end Operation

/-! ## Statements that are reached -/

instance (o : Options) (b : InsertBatch) (raw : RawResult) : Decidable (b.Accepted o raw) :=
  inferInstanceAs (Decidable (_ → _))

namespace Executor

variable {σ : Type}

/-- The batches that are handed over: all up to the first that fails or whose identifiers are not
accepted. -/
def reached (x : Executor σ) (o : Options) : σ → List InsertBatch → List InsertBatch
  | _, [] => []
  | s, b :: rest =>
      let (t, next) := x.execute b.fragment.sql b.fragment.params s
      match t.result with
      | .ok raw => if b.Accepted o raw then b :: x.reached o next rest else [b]
      | .error _ => [b]

variable {x : Executor σ} {o : Options} {s next : σ} {b : InsertBatch} {rest : List InsertBatch}

theorem reached_of_error {e : DbError}
    (h : (x.execute b.fragment.sql b.fragment.params).Yields s (.error e) next) :
    x.reached o s (b :: rest) = [b] := by
  simp only [reached, h.1]

theorem reached_of_not_accepted {raw : RawResult}
    (h : (x.execute b.fragment.sql b.fragment.params).Yields s (.ok raw) next)
    (hrefused : ¬b.Accepted o raw) : x.reached o s (b :: rest) = [b] := by
  simp only [reached, h.1, if_neg hrefused]

theorem reached_of_accepted {raw : RawResult}
    (h : (x.execute b.fragment.sql b.fragment.params).Yields s (.ok raw) next)
    (haccepted : b.Accepted o raw) :
    x.reached o s (b :: rest) = b :: x.reached o next rest := by
  simp only [reached, h.1, h.2, if_pos haccepted]

/-- What is reached behind batches that are served is what is reached from there. -/
theorem Serves.reached {served : List (InsertBatch × RawResult)} (h : x.Serves o s served next)
    (rest : List InsertBatch) :
    x.reached o s (served.map Prod.fst ++ rest) = served.map Prod.fst ++ x.reached o next rest := by
  induction h with
  | nil s => rfl
  | cons executed accepted _ ih =>
      rw [List.map_cons, List.cons_append, reached_of_accepted executed accepted, ih]
      rfl

theorem calls_executedAll (o : Options) (served : List (InsertBatch × RawResult)) :
    Note.calls (executedAll o served) = (served.map Prod.fst).map fun b => b.fragment.call := by
  induction served with
  | nil => rfl
  | cons entry served ih => exact congrArg (entry.1.fragment.call :: ·) ih

/-- A run over batches hands over those that are reached. -/
theorem RunsBatches.calls {batches : List InsertBatch} {trace : List Note}
    {outcome : Except DbError (List (InsertBatch × RawResult))} {last : σ}
    (h : x.RunsBatches o s batches trace outcome last) :
    Note.calls trace = (x.reached o s batches).map fun b => b.fragment.call := by
  cases h with
  | served before all =>
      have hreached := before.reached []
      rw [List.append_nil, ← all] at hreached
      rw [calls_executedAll, hreached, ← all]
      exact congrArg _ (List.append_nil _).symm
  | failed before splits fails =>
      rw [Note.calls_append, calls_executedAll, splits, before.reached, reached_of_error fails,
        List.map_append]
      rfl
  | rejected before splits executed refused =>
      rw [Note.calls_append, calls_executedAll, splits, before.reached,
        reached_of_not_accepted executed refused, List.map_append]
      rfl

end Executor

/-! ## Operations -/

/-- The error itself, without a wrapper around it. -/
def CommandError.unwrapped : CommandError → CommandError
  | .db (.query e) => .query e
  | .db (.config e) => .config e
  | e => e

/-- The calls of a closing. -/
def Closing.calls : Closing → List Call
  | .commit => [.commit]
  | .failedCommit => [.commit, .rollback]
  | .rollback => [.rollback]

theorem Closing.calls_bracket (inner : List Note) (c : Closing) :
    Note.calls (Note.bracket inner c) = .begin :: (Note.calls inner ++ c.calls) := by
  have hclosing : Note.calls c.notes = c.calls := by
    cases c <;> rfl
  rw [Note.bracket, Note.calls_append, Note.calls_append, hclosing]
  rfl

namespace Operation

variable {σ α : Type} {x : Executor σ} {s next : Session σ} {opened : σ}

/-- The calls that perform an operation with given statements, and how they go with the result.
A transaction is committed exactly if the operation succeeds; its commit is followed by a
rollback only if it fails. -/
inductive Performed (x : Executor σ) (o : Options) (opened : σ) :
    Operation → List Fragment → Except CommandError Unit → List Call → Prop where
  | single {op : Operation} {result : Except CommandError Unit} (f : Fragment)
      (one : ∀ b, op ≠ .insertMany b) : Performed x o opened op [f] result [f.call]
  | many {b : BulkInsert} {p : InsertPlan} {result : Except CommandError Unit} (c : Closing)
      (plans : (b.plan o).result = .ok p) (commits : c = .commit ↔ result = .ok ())
      (fails : c = .failedCommit → ∃ d e d', x.commit.Yields d (.error e) d') :
      Performed x o opened (.insertMany b) (p.statements.map InsertBatch.fragment) result
        (.begin :: ((x.reached o opened p.statements).map (fun b => b.fragment.call) ++ c.calls))

/-- A computation is a preview of another one, which comes to calls for the statements that are
shown. -/
structure Previews (preview performance : Traced CommandError Unit)
    (performed : List Fragment → Except CommandError Unit → List Call → Prop) : Prop where
  /-- Where nothing can be shown, nothing is executed, for the same reason. -/
  refused : ∀ e, preview.result = .error e → ∃ e', performance.result = .error e' ∧
    e'.unwrapped = e.unwrapped ∧ ∀ sql params, .execute sql params ∉ Note.calls performance.notes
  performed : preview.result = .ok () → ∃ fs, Note.shown preview.notes = fs.flatMap Fragment.shown ∧
    performed fs performance.result (Note.calls performance.notes)

theorem reporting_reports {y : Session.Action σ α} {trace : List Note}
    {outcome : Except DbError α} (report : α → List LogEntry)
    (h : y.Reports s trace outcome next) :
    (reporting y report).Reports s trace ((outcome.map fun _ => ()).mapError .db) next := by
  have hyields := Session.reporting_yields report h.yields
  have hnotes : ∃ entries : List LogEntry,
      (reporting y report s).1.notes = (y s).1.notes ++ entries.map .log := by
    unfold reporting
    dsimp only
    split
    · exact ⟨_, rfl⟩
    · exact ⟨[], (List.append_nil _).symm⟩
  obtain ⟨entries, hnotes⟩ := hnotes
  refine ⟨?_, hyields.1, hyields.2⟩
  rw [hnotes, Note.milestones_append, Note.milestones_map_log, List.append_nil, h.milestones]

/-- An operation over one statement is previewed by that statement. -/
theorem single_previews {op : Operation} (hone : ∀ b, op ≠ .insertMany b)
    {operation : Session.Action σ α} {kind : StatementKind}
    {builder : Options → Traced QueryError Fragment}
    {read : Options → Fragment → RawResult → Except DbError α} {report : α → List LogEntry}
    (hbuilder : ∀ o, (builder o).Makes Note.Diagnostic)
    (hfollows : Session.Follows x operation kind builder read) (s : Session σ) :
    Previews (showBuilt (builder s.options)) (reporting operation report s).1
      (op.Performed x s.options opened) := by
  obtain ⟨trace, outcome, next, hexecutes⟩ := Session.exists_executes x kind builder read s
  have hreports := reporting_reports report (hfollows s _ _ _ hexecutes)
  have hcalls := hreports.calls.trans hexecutes.calls
  cases hbuild : (builder s.options).result with
  | error e =>
      have hpreview := showBuilt_of_error hbuild
      rw [hbuild] at hcalls
      constructor
      · intro e' he'
        cases hpreview.symm.trans he'
        refine ⟨.db (.query e), ?_, rfl, ?_⟩
        · rw [hreports.result, hexecutes.outcome_of_error hbuild]
          rfl
        · rw [hcalls]
          exact fun _ _ => List.not_mem_nil
      · intro hok
        cases hpreview.symm.trans hok
  | ok f =>
      obtain ⟨hpreview, hshown⟩ := showBuilt_of_ok (hbuilder s.options) hbuild
      rw [hbuild] at hcalls
      constructor
      · intro e he
        cases hpreview.symm.trans he
      · intro _
        refine ⟨[f], by rw [hshown, List.flatMap_singleton], ?_⟩
        rw [hcalls]
        exact .single f hone

/-- An insert of many rows is previewed by the statements of its plan. -/
theorem insertMany_previews (hx : x.Quiet) (ho : s.options.Obtainable)
    (hopens : x.begin.Yields s.driver (.ok ()) opened) (b : BulkInsert) :
    Previews (preview s.options (.insertMany b)) (perform x.recorded (.insertMany b) s).1
      (Performed x s.options opened (.insertMany b)) := by
  obtain ⟨inner, outcome, last, hruns, hbody⟩ := Session.insertRows_reports hx ho b opened
  obtain ⟨ending, c, next, htransacts, htrace, hcommits, hfails, herror⟩ :=
    Session.exists_transacts_of_begins hopens hbody
  have hreports := reporting_reports reportInsertedMany (htransacts.reports hx)
  have hresult : (perform x.recorded (.insertMany b) s).1.result = _ := hreports.result
  have hcalls : Note.calls (perform x.recorded (.insertMany b) s).1.notes = _ := hreports.calls
  rw [htrace, Closing.calls_bracket] at hcalls
  cases hruns with
  | @unplanned e plan =>
      have hpreview := preview_of_plan_error plan
      constructor
      -- the transaction has been opened before the plan is made, and is rolled back
      · intro e' he'
        cases hpreview.symm.trans he'
        rw [herror _ rfl] at hresult
        refine ⟨.db (.query e), hresult, rfl, fun sql params => ?_⟩
        rw [hcalls]
        cases c <;> simp [Closing.calls, Note.calls]
      · intro hok
        cases hpreview.symm.trans hok
  | @planned p trace _ _ plan run =>
      obtain ⟨hpreview, hshown⟩ := preview_of_plan plan
      constructor
      · intro e he
        cases hpreview.symm.trans he
      · intro _
        have hreached : Note.calls
            (.event (.batchPlanned s.options.table p.totalRows p.statements.length) :: trace) =
              (x.reached s.options opened p.statements).map fun b => b.fragment.call := run.calls
        have hcommitted : c = .commit ↔
            (perform x.recorded (.insertMany b) s).1.result = .ok () := by
          rw [hcommits, hresult]
          cases ending.outcome with
          | ok a => exact ⟨fun _ => rfl, fun _ => ⟨a, rfl⟩⟩
          | error e =>
              constructor
              · rintro ⟨a, ha⟩
                cases ha
              · intro hok
                cases hok
        refine ⟨p.statements.map InsertBatch.fragment, ?_, ?_⟩
        · rw [hshown, List.flatMap_map]
        · rw [hcalls, hreached]
          exact .many c plan hcommitted hfails

/-- Every operation is previewed by its statements. -/
theorem previews (hx : x.Quiet) (ho : s.options.Obtainable)
    (hopens : x.begin.Yields s.driver (.ok ()) opened) (op : Operation) :
    Previews (op.preview s.options) (op.perform x.recorded s).1
      (op.Performed x s.options opened) := by
  cases op with
  | select q =>
      refine single_previews (fun b hb => ?_) (fun o => q.diagnostic_build o)
        (Session.select_follows hx q) s
      cases hb
  | insert q =>
      refine single_previews (fun b hb => ?_) (fun o => q.diagnostic_build o)
        (Session.insertRow_follows hx q) s
      cases hb
  | insertMany b => exact insertMany_previews hx ho hopens b
  | update q =>
      refine single_previews (fun b hb => ?_) (fun o => q.diagnostic_build o)
        (Session.update_follows hx q) s
      cases hb
  | delete q =>
      refine single_previews (fun b hb => ?_) (fun o => q.diagnostic_build o)
        (Session.delete_follows hx q) s
      cases hb

/-- Words for events, on either side, change nothing. -/
theorem Previews.recounted {t u : Traced CommandError Unit}
    {performed : List Fragment → Except CommandError Unit → List Call → Prop}
    (h : Previews t u performed) : Previews t.recounted u.recounted performed := by
  constructor
  · rw [Session.recounted_result, Session.recounted_result, u.calls_recounted]
    exact h.refused
  · rw [Session.recounted_result, Session.recounted_result, u.calls_recounted, t.shown_recounted]
    exact h.performed

end Operation

/-! ## Requests -/

/-- A request is previewed by the statements that performing it hands over, for any text and on
any driver that can open a transaction. -/
theorem executeRequest_previewed {σ : Type} {x : Executor σ} (hx : x.Quiet) {s : Session σ}
    (ho : s.options.Obtainable) {opened : σ} (hopens : x.begin.Yields s.driver (.ok ()) opened)
    (kind : StatementKind) (text : String) :
    Operation.Previews (buildRequest kind s.options text)
      (executeRequest x.recorded kind text s).1 fun fs result calls =>
        ∃ op, Operation.parse kind s.options text = .ok op ∧
          op.Performed x s.options opened fs result calls := by
  cases hparse : Operation.parse kind s.options text with
  | error e =>
      have hpreview : buildRequest kind s.options text = .fail e := by
        unfold buildRequest
        rw [hparse, Traced.bind_of_error (e := e) _ rfl]
        rfl
      have hperform : (executeRequest x.recorded kind text s).1 = .fail e := by
        unfold executeRequest Step.recounted
        simp only [hparse]
        rfl
      rw [hpreview, hperform]
      constructor
      -- a request that cannot be read fails before anything else is done
      · intro e' he'
        cases he'
        exact ⟨e, rfl, rfl, fun _ _ => List.not_mem_nil⟩
      · intro hok
        cases hok
  | ok op =>
      have hpreview : buildRequest kind s.options text = (op.preview s.options).recounted := by
        unfold buildRequest
        rw [hparse]
        rfl
      have hperform : (executeRequest x.recorded kind text s).1 =
          (op.perform x.recorded s).1.recounted := by
        rw [Session.executeRequest_of_parse hparse]
        rfl
      rw [hpreview, hperform]
      obtain ⟨hrefused, hperformed⟩ := (Operation.previews hx ho hopens op).recounted
      refine ⟨hrefused, fun hok => ?_⟩
      obtain ⟨fs, hshown, hcalls⟩ := hperformed hok
      exact ⟨fs, hshown, op, rfl, hcalls⟩

/-- Both statements of an insert are shown, and both are handed over although the second one is
not accepted. -/
theorem executeRequest_previewed_threePairs :
    Script.executor.Quiet ∧ ((pairOptions .mysql).withLimits 5 none).Obtainable ∧
      Script.executor.begin.Yields .forgetful (.ok ()) .forgetful ∧
      ∃ op fs result calls,
        Note.shown (buildRequest .insert ((pairOptions .mysql).withLimits 5 none)
          threePairsText).notes = fs.flatMap Fragment.shown ∧
        Operation.Performed Script.executor ((pairOptions .mysql).withLimits 5 none) .forgetful op
          fs result calls ∧
        result.isOk = false ∧
        calls = [.begin,
          .execute "INSERT INTO \x60t\x60 (\x60a\x60, \x60b\x60) VALUES (?, ?), (?, ?)"
            [.integer 1, .integer 2, .integer 3, .integer 4],
          .execute "INSERT INTO \x60t\x60 (\x60a\x60, \x60b\x60) VALUES (?, ?)"
            [.integer 5, .integer 6],
          .rollback] := by
  have hobtainable : ((pairOptions .mysql).withLimits 5 none).Obtainable :=
    .checked (Or.inr ⟨pairOptions .mysql, [("max_params", .int 5)], rfl⟩)
  have hopens : Script.executor.begin.Yields .forgetful (.ok ()) .forgetful := ⟨rfl, rfl⟩
  obtain ⟨-, hperformed⟩ := executeRequest_previewed Script.quiet_executor
    (s := ⟨(pairOptions .mysql).withLimits 5 none, .forgetful⟩) hobtainable hopens .insert
    threePairsText
  have hbuilt : (buildRequest .insert ((pairOptions .mysql).withLimits 5 none)
      threePairsText).result.isOk = true := by
    decide +kernel
  have hok : (buildRequest .insert ((pairOptions .mysql).withLimits 5 none)
      threePairsText).result = .ok () := by
    cases h : (buildRequest .insert ((pairOptions .mysql).withLimits 5 none)
        threePairsText).result with
    | ok u => rfl
    | error e =>
        rw [h] at hbuilt
        cases hbuilt
  obtain ⟨fs, hshown, op, -, hcalls⟩ := hperformed hok
  exact ⟨Script.quiet_executor, hobtainable, hopens, op, fs, _, _, hshown, hcalls,
    by decide +kernel, by decide +kernel⟩

end BoundSql
