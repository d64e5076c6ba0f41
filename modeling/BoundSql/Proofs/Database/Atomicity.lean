import BoundSql.Command.Operation
import BoundSql.Proofs.Database.Bracketing
import BoundSql.Proofs.Insert.Execution
import BoundSql.Store.Execute

/-!
# All or nothing

A driver with transactions goes back to the store that it saved when the transaction was
opened.  No operation of a session touches what is saved, and a transaction inside of
another cannot begin, so a transaction that fails leaves the store it has found, wherever
its body or its commit fails.  A request for an insert of many rows is such a transaction.

If rolling back fails too, nothing is said about the store.
-/

namespace BoundSql

/-! ## Drivers with transactions -/

/-- A driver over a store with at most one open transaction, for which it saves the store.  A
rollback that fails may leave anything. -/
structure Executor.Transactional {σ τ : Type} (x : Executor σ) (store : σ → τ)
    (saved : σ → Option τ) : Prop where
  begin_open : ∀ {s : σ}, saved s ≠ none → ∃ e, (x.begin s).1.result = .error e
  begin_ok : ∀ {s next : σ}, x.begin.Yields s (.ok ()) next →
    store next = store s ∧ saved next = some (store s)
  begin_error : ∀ {s next : σ} {e : DbError}, x.begin.Yields s (.error e) next →
    store next = store s ∧ saved next = saved s
  commit_ok : ∀ {s next : σ}, saved s ≠ none → x.commit.Yields s (.ok ()) next →
    store next = store s ∧ saved next = none
  commit_error : ∀ {s next : σ} {e : DbError}, x.commit.Yields s (.error e) next →
    store next = store s ∧ saved next = saved s
  rollback_ok : ∀ {s next : σ} {t : τ}, saved s = some t → x.rollback.Yields s (.ok ()) next →
    store next = t ∧ saved next = none
  execute_saved : ∀ sql params (s : σ), saved (x.execute sql params s).2 = saved s

namespace Store

/-- A statement changes tables, and not what is saved. -/
theorem saved_runBound {s next : Store} {params : List Value} {bound : Bound} {raw : RawResult}
    (h : runBound s params bound = .ok (raw, next)) : next.saved = s.saved := by
  cases bound with
  | count t title conditions | delete t conditions =>
      cases h
      rfl
  | select t indices conditions order window =>
      obtain ⟨shown, -, h⟩ := bind_eq_ok_iff.mp h
      cases h
      rfl
  | insert t targets rows returning =>
      obtain ⟨⟨table, ids⟩, -, h⟩ := bind_eq_ok_iff.mp h
      cases h
      rfl
  | update t assignments conditions =>
      obtain ⟨table, -, h⟩ := bind_eq_ok_iff.mp h
      cases h
      rfl

theorem saved_execute {s next : Store} {sql : String} {params : List Value} {raw : RawResult}
    (h : s.execute sql params = .ok (raw, next)) : next.saved = s.saved := by
  obtain ⟨bound, -, h⟩ := bind_eq_ok_iff.mp h
  exact saved_runBound h

/-- The driver of the built-in store only logs. -/
theorem quiet_executor : executor.Quiet where
  execute := by
    intro sql params s
    simp only [executor]
    split <;> rfl
  begin := by
    intro s
    simp only [executor]
    split <;> rfl
  commit := by
    intro s
    simp only [executor]
    split <;> rfl
  rollback := by
    intro s
    simp only [executor]
    split <;> rfl

/-- The driver of the built-in store has transactions. -/
theorem transactional_executor : executor.Transactional Store.tables Store.saved where
  begin_open := by
    intro s hs
    obtain ⟨tables, htables⟩ := Option.ne_none_iff_exists'.mp hs
    refine ⟨.transaction .begin "cannot start a transaction within a transaction", ?_⟩
    simp only [executor, htables]
    rfl
  begin_ok := by
    rintro s next ⟨hresult, rfl⟩
    cases hs : s.saved with
    | some tables => simp [executor, hs] at hresult
    | none => simp [executor, hs]
  begin_error := by
    rintro s next e ⟨hresult, rfl⟩
    cases hs : s.saved with
    | some tables => simp [executor, hs]
    | none => simp [executor, hs] at hresult
  commit_ok := by
    rintro s next hs ⟨-, rfl⟩
    obtain ⟨tables, htables⟩ := Option.ne_none_iff_exists'.mp hs
    simp [executor, htables]
  commit_error := by
    rintro s next e ⟨hresult, rfl⟩
    cases hs : s.saved with
    | some tables => simp [executor, hs] at hresult
    | none => simp [executor, hs]
  rollback_ok := by
    rintro s next t hs ⟨-, rfl⟩
    simp [executor, hs]
  execute_saved := by
    intro sql params s
    simp only [executor]
    split
    · rename_i raw next hexecute
      exact saved_execute hexecute
    · rfl

end Store

/-! ## Transactions in a transaction -/

namespace Session

variable {σ τ α : Type} {x : Executor σ} {store : σ → τ} {saved : σ → Option τ}

/-- While a transaction is open, another fails to begin and keeps what is saved. -/
theorem respects_transaction (hx : x.Transactional store saved) (body : Action σ α) (t : τ) :
    Step.Respects (fun _ => True) (OnDriver fun s => saved s = some t) (transaction x body) := by
  intro s hs
  obtain ⟨ending, inner, next, htransacts⟩ := exists_transacts x body s
  obtain ⟨e, hfails⟩ := hx.begin_open (s := s.driver) (by rw [hs]; exact Option.some_ne_none t)
  refine ⟨fun _ _ => trivial, ?_⟩
  rw [htransacts.yields.2]
  cases htransacts with
  | refused begins => exact (hx.begin_error begins).2.trans hs
  | committed begins | commitFailed begins | rolledBack begins =>
      cases hfails.symm.trans begins.1

theorem Task.respects_saved (hx : x.Transactional store saved) (task : Task α) (t : τ) :
    Step.Respects (fun _ => True) (OnDriver fun s => saved s = some t) (task.run x) :=
  task.respects (fun _ _ => trivial) fun sql params s hs =>
    ⟨fun _ _ => trivial, (hx.execute_saved sql params s).trans hs⟩

/-- Whatever a routine does in a transaction, the transaction stays open over what is saved. -/
theorem Routine.respects_saved (hx : x.Transactional store saved) (p : Routine σ α) (t : τ) :
    Step.Respects (fun _ => True) (OnDriver fun s => saved s = some t) (p.run x) := by
  induction p with
  | pure a => exact Step.respects_pure a
  | fail e => exact Step.respects_fail e
  | inspect next ih => exact fun s hs => ih s s hs
  | perform task next ih =>
      exact (task.respects_saved hx t).attempt.bind fun outcome => ih outcome
  | transaction body next _ ih =>
      exact (respects_transaction hx (body.run x) t).attempt.bind fun outcome => ih outcome

/-- What a transaction leaves: if it succeeds, the store that its body left; if it fails and no
rollback fails, the store that it found.  No transaction is open after either. -/
structure AllOrNothing (x : Executor σ) (store : σ → τ) (saved : σ → Option τ) (body : Action σ α)
    (s : Session σ) (ending : TransactionEnd α) (next : Session σ) : Prop where
  all : ∀ a, ending.outcome = .ok a → saved next.driver = none ∧
    ∃ opened left, x.begin.Yields s.driver (.ok ()) opened ∧
      body.Yields ⟨s.options, opened⟩ (.ok a) left ∧ store next.driver = store left.driver
  nothing : ∀ e, ending.outcome = .error e → ending.Undone →
    saved next.driver = none ∧ store next.driver = store s.driver

theorem Transacts.allOrNothing {body : Action σ α} {s next : Session σ}
    {ending : TransactionEnd α} {inner : List Note} (hx : x.Transactional store saved)
    (hbody : ∀ t, Step.Respects (fun _ => True) (OnDriver fun s => saved s = some t) body)
    (hs : saved s.driver = none) (h : Transacts x body s ending inner next) :
    AllOrNothing x store saved body s ending next := by
  -- the body ends with the transaction open over the store before it
  have hopen {opened : σ} {r : Except DbError α} {t : Session σ}
      (hbegins : x.begin.Yields s.driver (.ok ()) opened)
      (hruns : body.Reports ⟨s.options, opened⟩ inner r t) :
      saved t.driver = some (store s.driver) := by
    have hkept := (hbody (store s.driver) ⟨s.options, opened⟩ (hx.begin_ok hbegins).2).2
    rwa [hruns.state] at hkept
  cases h with
  | refused begins =>
      obtain ⟨hstore, hsaved⟩ := hx.begin_error begins
      constructor
      · intro a ha
        cases ha
      · intro e _ _
        exact ⟨hsaved.trans hs, hstore⟩
  | committed begins runs commits =>
      have hsome := hopen begins runs
      obtain ⟨hstore, hsaved⟩ := hx.commit_ok (by rw [hsome]; exact Option.some_ne_none _) commits
      constructor
      · intro a ha
        cases ha
        exact ⟨hsaved, _, _, begins, runs.yields, hstore⟩
      · intro e he
        cases he
  | commitFailed begins runs commits rolls_back =>
      have hsome := (hx.commit_error commits).2.trans (hopen begins runs)
      constructor
      · intro a ha
        cases ha
      · intro e _ hundone
        cases hundone
        exact (hx.rollback_ok hsome rolls_back).symm
  | rolledBack begins runs rolls_back =>
      constructor
      · intro a ha
        cases ha
      · intro e _ hundone
        cases hundone
        exact (hx.rollback_ok (hopen begins runs) rolls_back).symm

end Session

/-! ## Inserts of many rows -/

/-- Where an insert into the columns succeeds, it puts its rows into the store one by one. -/
def Executor.PutsRows {σ τ : Type} (x : Executor σ) (o : Options) (columns : List String)
    (store : σ → τ) (put : τ → List Value → τ) : Prop :=
  ∀ (s next : σ) (rows : List (List Value)) (raw : RawResult), rows ≠ [] →
    (∀ row ∈ rows, row.length = columns.length) →
      (x.execute (Fragment.sql ⟨o.insertPieces columns rows.length, rows.flatten⟩)
        rows.flatten).Yields s (.ok raw) next → store next = rows.foldl put (store s)

namespace Session

variable {σ τ α : Type} {x : Executor σ} {store : σ → τ} {put : τ → List Value → τ} {o : Options}

theorem exists_of_run_ok {kind : StatementKind} {f : Fragment} {raw : RawResult} {s : σ}
    {t : Session σ} (h : (run x kind f).Yields ⟨o, s⟩ (.ok raw) t) :
    ∃ next, (x.execute f.sql f.params).Yields s (.ok raw) next ∧ t = ⟨o, next⟩ := by
  obtain ⟨_, _, ⟨hoptions, rfl⟩, h⟩ := h.exists_of_bind_ok
  obtain ⟨_, _, ⟨-, rfl⟩, h⟩ := h.exists_of_bind_ok
  obtain ⟨_, _, ⟨-, rfl⟩, h⟩ := h.exists_of_bind_ok
  obtain ⟨found, _, ⟨hfound, rfl⟩, h⟩ := h.exists_of_bind_ok
  obtain ⟨_, _, ⟨-, rfl⟩, h⟩ := h.exists_of_bind_ok
  obtain ⟨hraw, rfl⟩ := h
  cases hraw
  exact ⟨_, ⟨hfound, rfl⟩, rfl⟩

theorem runBatches_puts {columns : List String} (hput : x.PutsRows o columns store put)
    {groups : List (List (List Value))} (hgroups : ∀ group ∈ groups, group ≠ [])
    (haligned : ∀ row ∈ groups.flatten, row.length = columns.length) {start : Nat}
    {c c' : Collector} {s : σ} {next : Session σ}
    (h : (runBatches x c (BulkInsert.batchesFrom o columns start groups)).Yields ⟨o, s⟩ (.ok c')
      next) :
    store next.driver = groups.flatten.foldl put (store s) := by
  induction groups generalizing start c s with
  | nil =>
      obtain ⟨-, rfl⟩ := h
      rfl
  | cons group groups ih =>
      rw [BulkInsert.batchesFrom, runBatches] at h
      obtain ⟨_, _, ⟨-, rfl⟩, h⟩ := h.exists_of_bind_ok
      obtain ⟨_, _, ⟨-, rfl⟩, h⟩ := h.exists_of_bind_ok
      obtain ⟨raw, _, hrun, h⟩ := h.exists_of_bind_ok
      obtain ⟨middle, hexecuted, rfl⟩ := exists_of_run_ok hrun
      obtain ⟨_, _, ⟨-, rfl⟩, h⟩ := h.exists_of_bind_ok
      have hmiddle : store middle = group.foldl put (store s) :=
        hput s middle group raw (hgroups group List.mem_cons_self)
          (fun row hrow => haligned row (by simp [hrow])) hexecuted
      have hrest := ih (fun g hg => hgroups g (List.mem_cons_of_mem group hg))
        (fun row hrow => haligned row (List.mem_append_right group hrow)) h
      rw [hrest, hmiddle, List.flatten_cons, List.foldl_append]

/-- An insert that succeeds has put all its rows into the store, in their order. -/
theorem insertRows_puts {b : BulkInsert} (ho : o.maxInsertRows ≠ some 0)
    (hput : x.PutsRows o b.columns store put) {s : σ} {r : BulkResult} {next : Session σ}
    (h : (insertRows x b).Yields ⟨o, s⟩ (.ok r) next) :
    store next.driver = b.rows.foldl put (store s) := by
  obtain ⟨p, _, ⟨hplan, rfl⟩, h⟩ := h.exists_of_bind_ok
  obtain ⟨_, _, ⟨-, rfl⟩, h⟩ := h.exists_of_bind_ok
  obtain ⟨c, _, hruns, h⟩ := h.exists_of_bind_ok
  obtain ⟨-, rfl⟩ := h
  have hplanned : (b.plan o).result = .ok p := by
    change (b.plan o).result.mapError DbError.query = .ok p at hplan
    cases hresult : (b.plan o).result with
    | error e =>
        rw [hresult] at hplan
        cases hplan
    | ok q =>
        rw [hresult] at hplan
        cases hplan
        rfl
  -- since there is a plan, the rows are aligned and cut into groups of at least one
  obtain ⟨hb, size, hsize, rfl⟩ := BulkInsert.plan_eq_ok_iff.mp hplanned
  obtain ⟨-, -, -, hpos⟩ := batchSize_eq_ok hsize
  have hcut := BulkInsert.cut_groups (hpos ho) b.rows
  rw [BulkInsert.statements_planOf b o (hpos ho)] at hruns
  have hstored := runBatches_puts hput
    (fun group hgroup => List.length_pos_iff.mp (hcut.length_pos_of_mem (hpos ho) group hgroup).1)
    (by rw [hcut.flatten_eq]; exact hb.aligned) hruns
  rwa [hcut.flatten_eq] at hstored

theorem recounted_result {ε : Type} (t : Traced ε α) : t.recounted.result = t.result := by
  unfold Traced.recounted
  split <;> rfl

/-- Reporting its result leaves the outcome of an operation as it is. -/
theorem reporting_yields {y : Action σ α} {s next : Session σ} {outcome : Except DbError α}
    (report : α → List LogEntry) (h : y.Yields s outcome next) :
    (Operation.reporting y report).Yields s ((outcome.map fun _ => ()).mapError .db) next := by
  obtain ⟨hresult, rfl⟩ := h
  unfold Operation.reporting Step.Yields
  dsimp only
  cases outcome with
  | ok r =>
      simp only [hresult]
      exact ⟨rfl, trivial⟩
  | error e =>
      simp only [hresult]
      exact ⟨rfl, trivial⟩

/-- A request that can be read is performed; then its events are put into words. -/
theorem executeRequest_of_parse {kind : StatementKind} {text : String} {op : Operation}
    {s : Session σ} (h : Operation.parse kind s.options text = .ok op) :
    executeRequest x kind text s = (op.perform x).recounted s := by
  unfold executeRequest Step.recounted
  simp only [h]

/-- A request for an insert of many rows ends as the transaction around the insert does. -/
theorem executeRequest_yields {kind : StatementKind} {text : String} {b : BulkInsert}
    {s next : Session σ} {outcome : Except DbError BulkResult}
    (hparse : Operation.parse kind s.options text = .ok (.insertMany b))
    (h : (transaction x (insertRows x b)).Yields s outcome next) :
    (executeRequest x kind text).Yields s ((outcome.map fun _ => ()).mapError .db) next := by
  have hperform := reporting_yields Operation.reportInsertedMany h
  rw [Step.Yields, executeRequest_of_parse hparse]
  -- the events are put into words at the end, which leaves the outcome as it is
  exact ⟨(recounted_result _).trans hperform.1, hperform.2⟩

end Session

/-- A transaction over a driver with transactions does all or nothing, whatever routine it is
around, and so does a request for an insert of many rows: it puts all its rows into the store or
leaves the store as it was. -/
theorem Executor.Transactional.all_or_nothing {σ τ : Type} {x : Executor σ} {store : σ → τ}
    {saved : σ → Option τ} (hx : x.Transactional store saved) {s : Session σ}
    (hs : saved s.driver = none) :
    (∀ {α : Type} (p : Session.Routine σ α), ∃ ending inner next,
      Session.Transacts x (p.run x) s ending inner next ∧
      (Session.transaction x (p.run x)).Yields s ending.outcome next ∧
      Session.AllOrNothing x store saved (p.run x) s ending next) ∧
    (∀ (kind : StatementKind) (text : String) (b : BulkInsert) (put : τ → List Value → τ),
      Operation.parse kind s.options text = .ok (.insertMany b) → s.options.Obtainable →
      x.PutsRows s.options b.columns store put → ∃ ending inner next,
        Session.Transacts x (Session.insertRows x b) s ending inner next ∧
        (executeRequest x kind text).Yields s
          ((ending.outcome.map fun _ => ()).mapError .db) next ∧
        (∀ r, ending.outcome = .ok r →
          saved next.driver = none ∧ store next.driver = b.rows.foldl put (store s.driver)) ∧
        (∀ e, ending.outcome = .error e → ending.Undone →
          saved next.driver = none ∧ store next.driver = store s.driver)) := by
  constructor
  · intro α p
    obtain ⟨ending, inner, next, htransacts⟩ := Session.exists_transacts x (p.run x) s
    exact ⟨ending, inner, next, htransacts, htransacts.yields,
      htransacts.allOrNothing hx (p.respects_saved hx) hs⟩
  · intro kind text b put hparse ho hput
    obtain ⟨ending, inner, next, htransacts⟩ :=
      Session.exists_transacts x (Session.insertRows x b) s
    have hall := htransacts.allOrNothing hx ((Session.Task.insertRows b).respects_saved hx) hs
    refine ⟨ending, inner, next, htransacts, Session.executeRequest_yields hparse
      htransacts.yields, fun r hr => ?_, hall.nothing⟩
    obtain ⟨hsaved, opened, left, hbegins, hruns, hleft⟩ := hall.all r hr
    refine ⟨hsaved, ?_⟩
    rw [hleft, Session.insertRows_puts ho.maxInsertRows_ne_zero hput hruns,
      (hx.begin_ok hbegins).1]

/-! ## A driver that refuses a value -/

namespace Executor

variable {σ : Type}

/-- A driver that copies its state when a transaction is opened. -/
def saving (x : Executor σ) : Executor (σ × Option σ) where
  execute sql params := fun s =>
    let (t, next) := x.execute sql params s.1
    (t, (next, s.2))
  begin := fun s =>
    match s.2 with
    | some _ => (.fail (.transaction .begin "open"), s)
    | none => (pure (), (s.1, some s.1))
  commit := fun s => (pure (), (s.1, none))
  rollback := fun s => (pure (), (s.2.getD s.1, none))

/-- The same driver, but no statement may bind a certain value. -/
def refusing (x : Executor σ) (v : Value) : Executor σ :=
  { x with
    execute := fun sql params s =>
      if v ∈ params then (.fail (.execution sql params "refused"), s)
      else x.execute sql params s }

theorem transactional_saving (x : Executor σ) : x.saving.Transactional Prod.fst Prod.snd where
  begin_open := by
    rintro ⟨store, saved⟩ hs
    cases saved with
    | none => exact absurd rfl hs
    | some u => exact ⟨_, rfl⟩
  begin_ok := by
    rintro ⟨store, saved⟩ next ⟨hresult, rfl⟩
    cases saved with
    | none => exact ⟨rfl, rfl⟩
    | some u => cases hresult
  begin_error := by
    rintro ⟨store, saved⟩ next e ⟨hresult, rfl⟩
    cases saved with
    | none => cases hresult
    | some u => exact ⟨rfl, rfl⟩
  commit_ok := by
    rintro s next - ⟨-, rfl⟩
    exact ⟨rfl, rfl⟩
  commit_error := by
    rintro s next e ⟨hresult, -⟩
    cases hresult
  rollback_ok := by
    rintro ⟨store, saved⟩ next t hs ⟨-, rfl⟩
    cases hs
    exact ⟨rfl, rfl⟩
  execute_saved := fun _ _ _ => rfl

/-- Where a driver that appends accepts the rows of an insert, it puts them behind the others. -/
theorem putsRows_refusing (o : Options) (idColumn : Option String) (v : Value)
    {columns : List String} (hcolumns : columns ≠ []) :
    ((appending o.dialect idColumn).refusing v).saving.PutsRows o columns Prod.fst
      fun rows row => rows ++ [row] := by
  rintro ⟨store, saved⟩ next rows raw hne haligned ⟨hresult, rfl⟩
  obtain ⟨-, middle, ⟨-, hmiddle⟩, hstore, -⟩ := (appends_appending o.dialect idColumn).execute
    store columns.length rows _ (List.length_pos_iff.mpr hcolumns) hne haligned
    (Options.insertText_insertPieces o columns rows.length rows.flatten)
  by_cases hrefused : v ∈ rows.flatten
  · simp [saving, refusing, hrefused] at hresult
  · simp only [saving, refusing, hrefused, if_false]
    rw [List.foldl_append_eq_append, ← List.flatMap_def, List.flatMap_singleton', hmiddle]
    exact hstore

end Executor

/-- The request for an insert of three rows of two values. -/
def threePairsText : String :=
  "\x7b\"columns\": [\"a\", \"b\"], \"rows\": [[1, 2], [3, 4], [5, 6]]\x7d"

theorem parse_threePairsText :
    Operation.parse .insert ((pairOptions .mysql).withLimits 5 none) threePairsText =
      .ok (.insertMany threePairs) := by
  have hparsed : (match Operation.parse .insert ((pairOptions .mysql).withLimits 5 none)
      threePairsText with
    | .ok (.insertMany b) => decide (b = threePairs)
    | _ => false) = true := by
    decide +kernel
  split at hparsed
  · rename_i b hb
    rw [hb, of_decide_eq_true hparsed]
  · cases hparsed

/-- A driver that appends, but no row with a five, and that has transactions. -/
def Executor.withoutFive : Executor (List (List Value) × Option (List (List Value))) :=
  ((Executor.appending .mysql (some "id")).refusing (.integer 5)).saving

/-- Two rows have been inserted when the third is refused, and they do not stay. -/
theorem Executor.Transactional.all_or_nothing_threePairs :
    ∃ e next,
      (executeRequest Executor.withoutFive .insert threePairsText).Yields
        ⟨(pairOptions .mysql).withLimits 5 none, ([], none)⟩ (.error e) next ∧
      Note.events (executeRequest Executor.withoutFive .insert threePairsText
        ⟨(pairOptions .mysql).withLimits 5 none, ([], none)⟩).1.notes =
          [.transaction .begin, .batchPlanned "t" 3 2, .statementExecuted .insert "t" 2,
            .transaction .rollback] ∧
      next.driver = ([], none) := by
  have hobtainable : ((pairOptions .mysql).withLimits 5 none).Obtainable :=
    .checked (Or.inr ⟨pairOptions .mysql, [("max_params", .int 5)], rfl⟩)
  have htransactional : Executor.withoutFive.Transactional Prod.fst Prod.snd :=
    Executor.transactional_saving _
  obtain ⟨-, hrequests⟩ := all_or_nothing htransactional
    (s := ⟨(pairOptions .mysql).withLimits 5 none, ([], none)⟩) rfl
  obtain ⟨ending, inner, next, htransacts, hyields, -, hnothing⟩ :=
    hrequests .insert threePairsText threePairs _ parse_threePairsText hobtainable
      (Executor.putsRows_refusing _ (some "id") _ (by decide))
  have hfails : ending.outcome.isOk = false := by
    rw [← htransacts.yields.1]
    decide +kernel
  have hundone : ending.Undone := by
    cases htransacts with
    | refused | committed => trivial
    | commitFailed _ _ _ rolls_back | rolledBack _ _ rolls_back => exact rolls_back.1.symm
  cases houtcome : ending.outcome with
  | ok r =>
      rw [houtcome] at hfails
      cases hfails
  | error e =>
      obtain ⟨hsaved, hstore⟩ := hnothing e houtcome hundone
      rw [houtcome] at hyields
      exact ⟨.db e, next, hyields, by decide +kernel, Prod.ext hstore hsaved⟩

end BoundSql
