import BoundSql.Proofs.Database.Report
import BoundSql.Proofs.Insert.Batching

/-!
# Runs of planned inserts

An insert of many rows hands its statements to the driver one by one.  It stops after the
first that the driver fails to execute or answers with the wrong number of identifiers,
and what it reports by then is what the statements before it and this one add up to.  The
driver may answer as it likes.

Statements that the driver executed stay executed; undoing them is left to a transaction.
Counts of affected rows add up in words: an outcome reports their exact sum up to a multiple of
`2 ^ 64`, hence the sum itself as long as it fits.
-/

namespace BoundSql

/-! ## Options in use -/

/-- Options that a program can hold: checked ones, whose identifier column may have been set
since without a check. -/
inductive Options.Obtainable : Options → Prop where
  | checked {o : Options} (h : o.Checked) : Obtainable o
  | withIdColumn {o : Options} (h : Obtainable o) (column : String) :
      Obtainable (o.withIdColumn column)

theorem Options.Obtainable.maxInsertRows_ne_zero {o : Options} (h : o.Obtainable) :
    o.maxInsertRows ≠ some 0 := by
  induction h with
  | checked h => exact maxInsertRows_ne_zero_of_validate h.validate
  | withIdColumn _ column ih => exact ih

/-! ## Answers to batches -/

namespace InsertBatch

/-- The identifiers that an insert collects from the answer to a batch. -/
def idsIn (o : Options) (b : InsertBatch) (raw : RawResult) : List Value :=
  if (Collector.new o 0).collectsIds then (Collector.new o 0).idsOf b.rowCount raw else []

/-- The answer has an identifier for each row of the batch, if identifiers are collected. -/
def Accepted (o : Options) (b : InsertBatch) (raw : RawResult) : Prop :=
  (Collector.new o 0).collectsIds = true → (b.idsIn o raw).length = b.rowCount

/-- The call that hands a batch to the driver. -/
def handed (b : InsertBatch) : Note := .call (.execute b.fragment.sql b.fragment.params)

/-- What is reported of a batch that the driver executed. -/
def executed (o : Options) (b : InsertBatch) (raw : RawResult) : List Note :=
  [b.handed, .event (.statementExecuted .insert o.table raw.affected)]

/-- The number of rows that batches have between them. -/
def rowTotal (batches : List InsertBatch) : Nat :=
  batches.foldr (fun b total => b.rowCount + total) 0

theorem rowTotal_cons (b : InsertBatch) (batches : List InsertBatch) :
    rowTotal (b :: batches) = b.rowCount + rowTotal batches := rfl

theorem rowTotal_batchesFrom (o : Options) (columns : List String) (start : Nat)
    (groups : List (List (List Value))) :
    rowTotal (BulkInsert.batchesFrom o columns start groups) = groups.flatten.length := by
  induction groups generalizing start with
  | nil => rfl
  | cons group groups ih =>
      rw [BulkInsert.batchesFrom, rowTotal_cons, ih, rowCount, Nat.add_sub_cancel_left,
        List.flatten_cons, List.length_append]

end InsertBatch

/-- The number of rows that answers report as affected between them, however large. -/
def RawResult.affectedTotal (answers : List RawResult) : Nat :=
  answers.foldr (fun raw total => raw.affected.toNat + total) 0

/-- Adding the words of answers one by one gives the word of their exact sum. -/
theorem RawResult.add_affectedTotal_cons (affected : UInt64) (raw : RawResult)
    (answers : List RawResult) :
    affected + .ofNat (affectedTotal (raw :: answers)) =
      affected + raw.affected + .ofNat (affectedTotal answers) := by
  rw [affectedTotal, List.foldr_cons, UInt64.ofNat_add, UInt64.ofNat_toNat, ← UInt64.add_assoc]
  rfl

/-- The outcome that served batches add up to. -/
def BulkResult.ofServed (o : Options) (served : List (InsertBatch × RawResult)) : BulkResult where
  ids := served.flatMap fun entry => entry.1.idsIn o entry.2
  affected := .ofNat (RawResult.affectedTotal (served.map Prod.snd))
  statements := served.length

/-- What is reported as affected is the exact sum as long as it fits a word. -/
theorem BulkResult.toNat_affected_ofServed {o : Options}
    {served : List (InsertBatch × RawResult)}
    (h : RawResult.affectedTotal (served.map Prod.snd) < UInt64.size) :
    (ofServed o served).affected.toNat = RawResult.affectedTotal (served.map Prod.snd) :=
  UInt64.toNat_ofNat_of_lt h

namespace Collector

variable {o : Options} {b : InsertBatch} {raw : RawResult} {total statements : Nat}
  {affected : UInt64} {ids : List Value}

theorem record_of_accepted (h : b.Accepted o raw) :
    record b.rowCount raw (holding o total ids affected statements) =
      (pure (), holding o total (ids ++ b.idsIn o raw) (affected + raw.affected)
        (statements + 1)) := by
  unfold InsertBatch.Accepted InsertBatch.idsIn at h
  unfold InsertBatch.idsIn
  cases hcollects : (new o 0).collectsIds with
  | false =>
      rw [if_neg Bool.false_ne_true, List.append_nil]
      exact record_of_not_collectsIds hcollects b.rowCount
  | true =>
      rw [if_pos rfl]
      rw [if_pos hcollects] at h
      exact record_of_length_eq hcollects (h hcollects)

theorem record_of_not_accepted (h : ¬b.Accepted o raw) :
    record b.rowCount raw (holding o total ids affected statements) =
      (⟨[.log (.idsMissing (statements + 1) (b.idsIn o raw).length b.rowCount)],
          .error (.idCountMismatch b.rowCount (b.idsIn o raw).length)⟩,
        holding o total ids (affected + raw.affected) (statements + 1)) := by
  obtain ⟨hcollects, hlength⟩ := Classical.not_imp.mp h
  have hids : b.idsIn o raw = (new o 0).idsOf b.rowCount raw := if_pos hcollects
  rw [hids] at hlength ⊢
  exact record_of_length_ne hcollects hlength

/-- A collector that has learned so much and then recorded batches that were served. -/
def serving (o : Options) (total : Nat) (ids : List Value) (affected : UInt64) (statements : Nat)
    (served : List (InsertBatch × RawResult)) : Collector :=
  holding o total (ids ++ (BulkResult.ofServed o served).ids)
    (affected + (BulkResult.ofServed o served).affected)
    (statements + (BulkResult.ofServed o served).statements)

theorem serving_nil :
    serving o total ids affected statements [] = holding o total ids affected statements := by
  unfold serving
  rw [BulkResult.ofServed, List.flatMap_nil, List.append_nil, List.map_nil]
  exact congrArg (holding o total ids · statements) (UInt64.add_zero affected)

theorem serving_cons (served : List (InsertBatch × RawResult)) :
    serving o total ids affected statements ((b, raw) :: served) =
      serving o total (ids ++ b.idsIn o raw) (affected + raw.affected) (statements + 1) served := by
  simp only [serving, BulkResult.ofServed, List.flatMap_cons, List.append_assoc, List.map_cons,
    RawResult.add_affectedTotal_cons, List.length_cons, Nat.add_assoc, Nat.add_comm 1]

/-- The last check passes if there is an identifier for each row. -/
theorem finish_serving {served : List (InsertBatch × RawResult)}
    (h : (new o 0).collectsIds = true → (BulkResult.ofServed o served).ids.length = total) :
    (serving o total [] 0 0 served).finish = .ok (.ofServed o served) := by
  rw [serving, List.nil_append, UInt64.zero_add, Nat.zero_add, finish_of_length_eq h]

end Collector

/-! ## Runs over batches -/

/-- Batches that a driver executes one after the other, with its answers, all accepted. -/
inductive Executor.Serves {σ : Type} (x : Executor σ) (o : Options) :
    σ → List (InsertBatch × RawResult) → σ → Prop where
  | nil (s : σ) : Serves x o s [] s
  | cons {s middle last : σ} {b : InsertBatch} {raw : RawResult}
      {served : List (InsertBatch × RawResult)}
      (executed : (x.execute b.fragment.sql b.fragment.params).Yields s (.ok raw) middle)
      (accepted : b.Accepted o raw) (tail : Serves x o middle served last) :
      Serves x o s ((b, raw) :: served) last

/-- What is reported of batches that the driver executed. -/
def executedAll (o : Options) (served : List (InsertBatch × RawResult)) : List Note :=
  served.flatMap fun entry => entry.1.executed o entry.2

/-- How a run over batches ends: all of them are served, or the ones before some batch are,
and that batch fails or is executed with an answer that is not accepted. -/
inductive Executor.RunsBatches {σ : Type} (x : Executor σ) (o : Options) (s : σ)
    (batches : List InsertBatch) :
    List Note → Except DbError (List (InsertBatch × RawResult)) → σ → Prop where
  | served {served : List (InsertBatch × RawResult)} {last : σ}
      (before : x.Serves o s served last) (all : batches = served.map Prod.fst) :
      RunsBatches x o s batches (executedAll o served) (.ok served) last
  | failed {served : List (InsertBatch × RawResult)} {middle last : σ} {b : InsertBatch}
      {rest : List InsertBatch} {e : DbError} (before : x.Serves o s served middle)
      (splits : batches = served.map Prod.fst ++ b :: rest)
      (fails : (x.execute b.fragment.sql b.fragment.params).Yields middle (.error e) last) :
      RunsBatches x o s batches (executedAll o served ++ [b.handed]) (.error e) last
  | rejected {served : List (InsertBatch × RawResult)} {middle last : σ} {b : InsertBatch}
      {rest : List InsertBatch} {raw : RawResult} (before : x.Serves o s served middle)
      (splits : batches = served.map Prod.fst ++ b :: rest)
      (executed : (x.execute b.fragment.sql b.fragment.params).Yields middle (.ok raw) last)
      (refused : ¬b.Accepted o raw) :
      RunsBatches x o s batches (executedAll o served ++ b.executed o raw)
        (.error (.query (.idCountMismatch b.rowCount (b.idsIn o raw).length))) last

namespace Executor

variable {σ : Type} {x : Executor σ} {o : Options}

/-- One more batch in front, which is served. -/
theorem RunsBatches.cons {s middle last : σ} {b : InsertBatch} {raw : RawResult}
    {batches : List InsertBatch} {trace : List Note}
    {outcome : Except DbError (List (InsertBatch × RawResult))}
    (hexecuted : (x.execute b.fragment.sql b.fragment.params).Yields s (.ok raw) middle)
    (haccepted : b.Accepted o raw) (h : x.RunsBatches o middle batches trace outcome last) :
    x.RunsBatches o s (b :: batches) (b.executed o raw ++ trace)
      (outcome.map fun served => (b, raw) :: served) last := by
  have htrace (served : List (InsertBatch × RawResult)) (notes : List Note) :
      b.executed o raw ++ (executedAll o served ++ notes) =
        executedAll o ((b, raw) :: served) ++ notes := by
    rw [executedAll, executedAll, List.flatMap_cons, List.append_assoc]
  cases h with
  | served before all =>
      rw [← List.append_nil (executedAll o _), htrace, List.append_nil]
      exact .served (.cons hexecuted haccepted before) (congrArg (b :: ·) all)
  | failed before splits fails =>
      rw [htrace]
      exact .failed (.cons hexecuted haccepted before) (congrArg (b :: ·) splits) fails
  | rejected before splits executed refused =>
      rw [htrace]
      exact .rejected (.cons hexecuted haccepted before) (congrArg (b :: ·) splits) executed
        refused

/-- Batches that are served have an identifier for each of their rows. -/
theorem Serves.length_ids {s last : σ} {served : List (InsertBatch × RawResult)}
    (h : x.Serves o s served last) (hcollects : (Collector.new o 0).collectsIds = true) :
    (served.flatMap fun entry => entry.1.idsIn o entry.2).length =
      InsertBatch.rowTotal (served.map Prod.fst) := by
  induction h with
  | nil => rfl
  | cons _ accepted _ ih =>
      rw [List.flatMap_cons, List.length_append, List.map_cons, InsertBatch.rowTotal_cons, ih,
        accepted hcollects]

end Executor

/-- How an insert of many rows ends: it cannot be planned, or its plan is run. -/
inductive Executor.RunsInsert {σ : Type} (x : Executor σ) (o : Options) (b : BulkInsert) (s : σ) :
    List Note → Except DbError BulkResult → σ → Prop where
  | unplanned {e : QueryError} (plan : (b.plan o).result = .error e) :
      RunsInsert x o b s [] (.error (.query e)) s
  | planned {p : InsertPlan} {trace : List Note}
      {outcome : Except DbError (List (InsertBatch × RawResult))} {last : σ}
      (plan : (b.plan o).result = .ok p) (run : x.RunsBatches o s p.statements trace outcome last) :
      RunsInsert x o b s (.event (.batchPlanned o.table p.totalRows p.statements.length) :: trace)
        (outcome.map (BulkResult.ofServed o)) last

namespace BulkInsert

variable {b : BulkInsert} {o : Options}

theorem milestones_plan {p : InsertPlan} (h : (b.plan o).result = .ok p) :
    Note.milestones (b.plan o).notes =
      [.event (.batchPlanned o.table p.totalRows p.statements.length)] := by
  unfold plan at h ⊢
  rw [Traced.result_bind_eq_ok_iff] at h
  obtain ⟨q, hq, hp⟩ := h
  cases hp
  rw [Traced.bind_of_ok _ hq]
  rfl

theorem notes_plan_of_error {e : QueryError} (h : (b.plan o).result = .error e) :
    (b.plan o).notes = [] := by
  cases hstatements : b.statements o with
  | error e' =>
      unfold plan
      rw [Traced.bind_of_error (e := e') _ hstatements]
      rfl
  | ok p =>
      have hplan : (b.plan o).result = .ok p := by
        unfold plan
        rw [Traced.bind_of_ok _ hstatements]
        rfl
      rw [hplan] at h
      cases h

/-- The batches of a plan have all the rows between them. -/
theorem rowTotal_of_plan {p : InsertPlan} (ho : o.maxInsertRows ≠ some 0)
    (h : (b.plan o).result = .ok p) : InsertBatch.rowTotal p.statements = p.totalRows := by
  obtain ⟨hb, size, hsize, rfl⟩ := plan_eq_ok_iff.mp h
  obtain ⟨-, -, -, hpos⟩ := batchSize_eq_ok hsize
  have hcut : Cut size b.rows (groups size b.rows) := cut_groups (hpos ho) b.rows
  rw [statements_planOf b o (hpos ho), InsertBatch.rowTotal_batchesFrom, hcut.flatten_eq]
  rfl

end BulkInsert

namespace Session

variable {σ : Type} {x : Executor σ} {o : Options}

theorem runBatches_reports (hx : x.Quiet) (batches : List InsertBatch) (s : σ)
    (total : Nat) (ids : List Value) (affected : UInt64) (statements : Nat) :
    ∃ trace outcome last, x.RunsBatches o s batches trace outcome last ∧
      Step.Reports (runBatches x.recorded (.holding o total ids affected statements) batches)
        ⟨o, s⟩ trace (outcome.map (.serving o total ids affected statements)) ⟨o, last⟩ := by
  induction batches generalizing s ids affected statements with
  | nil =>
      refine ⟨_, _, _, .served (.nil s) rfl, ?_⟩
      show Step.Reports _ _ [] (.ok (Collector.serving o total ids affected statements [])) _
      rw [Collector.serving_nil]
      exact Step.reports_pure _ _
  | cons b batches ih =>
      rw [runBatches]
      cases hresult : (x.execute b.fragment.sql b.fragment.params s).1.result with
      | error e =>
          have hfails : (x.execute b.fragment.sql b.fragment.params).Yields s (.error e) _ :=
            ⟨hresult, rfl⟩
          refine ⟨_, _, _, .failed (.nil s) rfl hfails, ?_⟩
          refine (reports_currentOptions _).silent_bind ?_
          refine (Step.reports_log _ _).silent_bind ?_
          exact (run_reports_error hx hfails).bind_error
      | ok raw =>
          have hexecuted : (x.execute b.fragment.sql b.fragment.params).Yields s (.ok raw) _ :=
            ⟨hresult, rfl⟩
          by_cases haccepted : b.Accepted o raw
          -- the other batches are run with a collector that has recorded this one
          · obtain ⟨trace, outcome, last, hruns, hreports⟩ := ih _ (ids ++ b.idsIn o raw)
              (affected + raw.affected) (statements + 1)
            refine ⟨_, _, _, hruns.cons hexecuted haccepted, ?_⟩
            have houtcome : (outcome.map fun served => (b, raw) :: served).map
                (Collector.serving o total ids affected statements) =
                outcome.map (.serving o total (ids ++ b.idsIn o raw) (affected + raw.affected)
                  (statements + 1)) := by
              cases outcome with
              | error e => rfl
              | ok served => exact congrArg Except.ok (Collector.serving_cons served)
            rw [houtcome]
            refine (reports_currentOptions _).silent_bind ?_
            refine (Step.reports_log _ _).silent_bind ?_
            refine (run_reports hx hexecuted).bind ?_
            simp only [Collector.record_of_accepted haccepted]
            exact (Step.reports_lift _ _).silent_bind hreports
          -- the batch has been executed and reported when its answer is refused
          · refine ⟨_, _, _, .rejected (.nil s) rfl hexecuted haccepted, ?_⟩
            refine (reports_currentOptions _).silent_bind ?_
            refine (Step.reports_log _ _).silent_bind ?_
            refine (run_reports hx hexecuted).bind_silent ?_
            simp only [Collector.record_of_not_accepted haccepted]
            exact (Step.reports_lift _ _).bind_error

/-- An insert of many rows runs its plan to the end or to the first batch that fails or is not
accepted, and its outcome and its milestones are those of the batches up to there. -/
theorem insertRows_reports (hx : x.Quiet) (ho : o.Obtainable) (b : BulkInsert) (s : σ) :
    ∃ trace outcome last, x.RunsInsert o b s trace outcome last ∧
      Step.Reports (insertRows x.recorded b) ⟨o, s⟩ trace outcome ⟨o, last⟩ := by
  have hbuild := reports_build b.plan (⟨o, s⟩ : Session σ)
  cases hplan : (b.plan o).result with
  | error e =>
      refine ⟨_, _, _, .unplanned hplan, ?_⟩
      rw [hplan, BulkInsert.notes_plan_of_error hplan] at hbuild
      exact hbuild.bind_error
  | ok p =>
      obtain ⟨trace, outcome, last, hruns, hreports⟩ :=
        runBatches_reports (o := o) hx p.statements s p.totalRows [] 0 0
      refine ⟨_, _, _, .planned hplan hruns, ?_⟩
      rw [hplan, BulkInsert.milestones_plan hplan] at hbuild
      refine hbuild.bind ((reports_currentOptions _).silent_bind ?_)
      cases hruns with
      | failed | rejected => exact hreports.bind_error
      -- the identifiers are counted once more, which cannot fail any more
      | @served served _ before all =>
          have hrows : InsertBatch.rowTotal (served.map Prod.fst) = p.totalRows := by
            rw [← all]
            exact BulkInsert.rowTotal_of_plan ho.maxInsertRows_ne_zero hplan
          have hfinish : (Collector.serving o p.totalRows [] 0 0 served).finish =
              .ok (.ofServed o served) :=
            Collector.finish_serving fun hcollects => (before.length_ids hcollects).trans hrows
          refine hreports.bind_silent ?_
          rw [hfinish]
          exact Step.reports_lift _ _

end Session

/-- Answers to two batches of an insert, the second without an identifier. -/
def Script.forgetful : Script := ⟨[.ok ⟨[], 2, some 7⟩, .ok ⟨[], 1, none⟩], [], [], []⟩

theorem Session.insertRows_reports_forgetful :
    Script.executor.Quiet ∧ ((pairOptions .mysql).withLimits 5 none).Obtainable ∧
      ∃ trace last,
        Script.executor.RunsInsert ((pairOptions .mysql).withLimits 5 none) threePairs .forgetful
          trace (.error (.query (.idCountMismatch 1 0))) last ∧
        Note.events trace = [.batchPlanned "t" 3 2, .statementExecuted .insert "t" 2,
          .statementExecuted .insert "t" 1] ∧
        (Note.calls trace).length = 2 := by
  have hobtainable : ((pairOptions .mysql).withLimits 5 none).Obtainable :=
    .checked (Or.inr ⟨pairOptions .mysql, [("max_params", .int 5)], rfl⟩)
  obtain ⟨trace, outcome, last, hruns, hreports⟩ :=
    insertRows_reports Script.quiet_executor hobtainable threePairs .forgetful
  have houtcome : outcome = .error (.query (.idCountMismatch 1 0)) :=
    hreports.result.symm.trans rfl
  have hevents := hreports.events
  have hcalls := congrArg List.length hreports.calls
  subst houtcome
  refine ⟨Script.quiet_executor, hobtainable, trace, last, hruns, ?_, ?_⟩
  · rw [← hevents]
    decide +kernel
  · rw [← hcalls]
    decide +kernel

end BoundSql
