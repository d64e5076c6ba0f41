import BoundSql.Proofs.Database.Routine

/-!
# Brackets of transactions

A transaction that begins is closed exactly once, by a commit, by a commit that fails and
the rollback after it, or by the rollback after its body has failed; one that cannot begin
leaves no more than the attempt.  The calls and the events of a run are therefore properly
nested, however the driver fails and whatever a routine does with the errors it sees.

A rollback that fails closes the transaction all the same; what it leaves in the database
is not considered here.
-/

namespace BoundSql

/-! ## Closings -/

/-- How a transaction that has begun is closed. -/
inductive Closing where
  | commit
  | failedCommit
  | rollback
deriving DecidableEq

/-- The calls of a closing, and the one event. -/
def Closing.notes : Closing → List Note
  | commit => [.call .commit, .event (.transaction .commit)]
  | failedCommit => [.call .commit, .call .rollback, .event (.transaction .rollback)]
  | rollback => [.call .rollback, .event (.transaction .rollback)]

namespace Note

/-- The notes of a transaction that has begun. -/
def bracket (inner : List Note) (c : Closing) : List Note :=
  [.call .begin, .event (.transaction .begin)] ++ (inner ++ c.notes)

/-- Notes in which every transaction that begins is closed after what is inside of it. -/
inductive Bracketed : List Note → Prop where
  | nil : Bracketed []
  | ordinary {n : Note} {ns : List Note} (head : n.Ordinary) (tail : Bracketed ns) :
      Bracketed (n :: ns)
  /-- A transaction that cannot begin has no event and no closing. -/
  | refused {ns : List Note} (tail : Bracketed ns) : Bracketed (.call .begin :: ns)
  | closed {inner ns : List Note} (c : Closing) (inside : Bracketed inner)
      (tail : Bracketed ns) : Bracketed (bracket inner c ++ ns)

theorem Bracketed.append {ns ms : List Note} (h : Bracketed ns) (h' : Bracketed ms) :
    Bracketed (ns ++ ms) := by
  induction h with
  | nil => exact h'
  | ordinary head _ ih => exact .ordinary head ih
  | refused _ ih => exact .refused ih
  | closed c inside _ _ ih =>
      rw [List.append_assoc]
      exact .closed c inside ih

theorem bracketed_of_ordinary {ns : List Note} (h : ∀ n ∈ ns, n.Ordinary) : Bracketed ns := by
  induction ns with
  | nil => exact .nil
  | cons n ns ih =>
      exact .ordinary (h n List.mem_cons_self) (ih fun m hm => h m (List.mem_cons_of_mem n hm))

end Note

/-- The number of transactions that are open after events, if none is closed that is not open. -/
def Event.unclosed? : Nat → List Event → Option Nat
  | opened, [] => some opened
  | opened, .transaction .begin :: events => unclosed? (opened + 1) events
  | 0, .transaction _ :: _ => none
  | opened + 1, .transaction _ :: events => unclosed? opened events
  | opened, _ :: events => unclosed? opened events

theorem Event.unclosed?_of_ordinary {e : Event} (h : (Note.event e).Ordinary) (opened : Nat)
    (events : List Event) : unclosed? opened (e :: events) = unclosed? opened events := by
  cases e with
  | transaction stage => exact h.elim
  | nullComparison | batchPlanned | statementExecuted => cases opened <;> rfl

/-- Bracketed notes leave as many transactions open as there were. -/
theorem Note.Bracketed.unclosed? {ns : List Note} (h : Bracketed ns) (opened : Nat)
    (rest : List Event) :
    Event.unclosed? opened (events ns ++ rest) = Event.unclosed? opened rest := by
  induction h generalizing opened rest with
  | nil => rfl
  | @ordinary n ns head _ ih =>
      cases n with
      | log entry => exact ih opened rest
      | call c => exact ih opened rest
      | event e => exact (Event.unclosed?_of_ordinary head _ _).trans (ih opened rest)
  | refused _ ih => exact ih opened rest
  -- what is inside is read with one transaction more open, which the closing takes away
  | @closed inner ns c _ _ ihInside ihTail =>
      have hclosing : Event.unclosed? (opened + 1) (events c.notes ++ (events ns ++ rest)) =
          Event.unclosed? opened (events ns ++ rest) := by
        cases c <;> rfl
      have hevents : events (bracket inner c ++ ns) ++ rest =
          .transaction .begin :: (events inner ++ (events c.notes ++ (events ns ++ rest))) := by
        simp only [bracket, events, List.filterMap_append, List.append_assoc]
        rfl
      rw [hevents]
      show Event.unclosed? (opened + 1) _ = _
      rw [ihInside, hclosing, ihTail]

/-! ## One transaction -/

/-- How a transaction ends.  Where it is rolled back, `undone` is the outcome of that. -/
inductive TransactionEnd (α : Type) where
  | refused (e : DbError)
  | committed (a : α)
  | commitFailed (e : DbError) (undone : Except DbError Unit)
  | rolledBack (e : DbError) (undone : Except DbError Unit)

namespace TransactionEnd

variable {α : Type}

/-- What the transaction returns: the result of the body only if it has been committed, and no
error of a rollback. -/
def outcome : TransactionEnd α → Except DbError α
  | committed a => .ok a
  | refused e | commitFailed e _ | rolledBack e _ => .error e

/-- The milestones of a transaction around those of its body. -/
def trace (inner : List Note) : TransactionEnd α → List Note
  | refused _ => [.call .begin]
  | committed _ => Note.bracket inner .commit
  | commitFailed _ _ => Note.bracket inner .failedCommit
  | rolledBack _ _ => Note.bracket inner .rollback

/-- No rollback has failed. -/
def Undone : TransactionEnd α → Prop
  | refused _ | committed _ => True
  | commitFailed _ undone | rolledBack _ undone => undone = .ok ()

end TransactionEnd

namespace Session

variable {σ α : Type}

/-- The run of a transaction around a body: how it ends, the milestones of the body and the
session that it leaves. -/
inductive Transacts (x : Executor σ) (body : Action σ α) (s : Session σ) :
    TransactionEnd α → List Note → Session σ → Prop where
  | refused {e : DbError} {next : σ} (begins : x.begin.Yields s.driver (.error e) next) :
      Transacts x body s (.refused e) [] ⟨s.options, next⟩
  | committed {opened last : σ} {inner : List Note} {a : α} {t : Session σ}
      (begins : x.begin.Yields s.driver (.ok ()) opened)
      (runs : body.Reports ⟨s.options, opened⟩ inner (.ok a) t)
      (commits : x.commit.Yields t.driver (.ok ()) last) :
      Transacts x body s (.committed a) inner ⟨t.options, last⟩
  | commitFailed {opened middle last : σ} {inner : List Note} {a : α} {t : Session σ}
      {e : DbError} {undone : Except DbError Unit}
      (begins : x.begin.Yields s.driver (.ok ()) opened)
      (runs : body.Reports ⟨s.options, opened⟩ inner (.ok a) t)
      (commits : x.commit.Yields t.driver (.error e) middle)
      (rolls_back : x.rollback.Yields middle undone last) :
      Transacts x body s (.commitFailed e undone) inner ⟨t.options, last⟩
  | rolledBack {opened last : σ} {inner : List Note} {t : Session σ} {e : DbError}
      {undone : Except DbError Unit} (begins : x.begin.Yields s.driver (.ok ()) opened)
      (runs : body.Reports ⟨s.options, opened⟩ inner (.error e) t)
      (rolls_back : x.rollback.Yields t.driver undone last) :
      Transacts x body s (.rolledBack e undone) inner ⟨t.options, last⟩

variable {x : Executor σ}

/-- A transaction that begins is closed around its body.  It is committed exactly if it succeeds,
and the error of its body is its own. -/
theorem exists_transacts_of_begins {body : Action σ α} {s t : Session σ} {opened : σ}
    {inner : List Note} {outcome : Except DbError α}
    (begins : x.begin.Yields s.driver (.ok ()) opened)
    (runs : body.Reports ⟨s.options, opened⟩ inner outcome t) :
    ∃ ending c next, Transacts x body s ending inner next ∧
      ending.trace inner = Note.bracket inner c ∧
      (c = .commit ↔ ∃ a, ending.outcome = .ok a) ∧
      (c = .failedCommit → ∃ d e d', x.commit.Yields d (.error e) d') ∧
      (∀ e, outcome = .error e → ending.outcome = .error e) := by
  cases outcome with
  | error e =>
      refine ⟨_, .rollback, _, .rolledBack begins runs ⟨rfl, rfl⟩, rfl, ?_, nofun, fun _ h => h⟩
      simp [TransactionEnd.outcome]
  | ok a =>
      cases hcommit : (x.commit t.driver).1.result with
      | ok u =>
          refine ⟨_, .commit, _, .committed begins runs ⟨hcommit, rfl⟩, rfl, ?_, nofun, nofun⟩
          simp [TransactionEnd.outcome]
      | error e =>
          refine ⟨_, .failedCommit, _, .commitFailed begins runs ⟨hcommit, rfl⟩ ⟨rfl, rfl⟩, rfl, ?_,
            fun _ => ⟨t.driver, e, _, hcommit, rfl⟩, nofun⟩
          simp [TransactionEnd.outcome]

/-- Whatever the driver and the body do, a transaction runs in one of four ways. -/
theorem exists_transacts (x : Executor σ) (body : Action σ α) (s : Session σ) :
    ∃ ending inner next, Transacts x body s ending inner next := by
  cases hbegin : (x.begin s.driver).1.result with
  | error e => exact ⟨_, _, _, .refused ⟨hbegin, rfl⟩⟩
  | ok u =>
      have hbegins : x.begin.Yields s.driver (.ok ()) _ := ⟨hbegin, rfl⟩
      obtain ⟨ending, _, next, htransacts, -⟩ :=
        exists_transacts_of_begins hbegins (Step.Reports.mk rfl rfl rfl)
      exact ⟨ending, _, next, htransacts⟩

section Steps

variable {y : Executor σ} {s : Session σ} {trace : List Note}

theorem enter_reports {opened : σ} (h : y.begin.Reports s.driver trace (.ok ()) opened) :
    (enter y).Reports s (trace ++ [.event (.transaction .begin)]) (.ok ()) ⟨s.options, opened⟩ :=
  (reports_drive h).bind (Step.reports_emit _ _)

/-- Rolling back is reported the same way whether it succeeds or not. -/
theorem abort_reports {undone : Except DbError Unit} {last : σ}
    (h : y.rollback.Reports s.driver trace undone last) :
    (abort y).Reports s (trace ++ [.event (.transaction .rollback)]) (.ok ())
      ⟨s.options, last⟩ := by
  refine (reports_drive h).attempt.bind ?_
  cases undone with
  | ok u => exact Step.reports_emit _ _
  | error e => exact (Step.reports_log _ _).silent_bind (Step.reports_emit _ _)

theorem leave_reports_error {e : DbError} {undone : Except DbError Unit} {last : σ}
    (h : y.rollback.Reports s.driver trace undone last) :
    (leave y (.error e : Except DbError α)).Reports s
      (trace ++ [.event (.transaction .rollback)]) (.error e) ⟨s.options, last⟩ :=
  (abort_reports h).bind_silent (Step.reports_lift _ _)

theorem leave_reports_commit {a : α} {last : σ}
    (h : y.commit.Reports s.driver trace (.ok ()) last) :
    (leave y (.ok a)).Reports s (trace ++ [.event (.transaction .commit)]) (.ok a)
      ⟨s.options, last⟩ :=
  (reports_drive h).attempt.bind ((Step.reports_emit _ _).bind_silent (Step.reports_pure a _))

theorem leave_reports_failedCommit {a : α} {e : DbError} {undone : Except DbError Unit}
    {middle last : σ} {trace' : List Note}
    (h : y.commit.Reports s.driver trace (.error e) middle)
    (h' : y.rollback.Reports middle trace' undone last) :
    (leave y (.ok a)).Reports s (trace ++ (trace' ++ [.event (.transaction .rollback)])) (.error e)
      ⟨s.options, last⟩ := by
  refine (reports_drive h).attempt.bind ?_
  exact (abort_reports (s := ⟨s.options, middle⟩) h').bind_silent (Step.reports_lift _ _)

end Steps

/-- The outcome of a transaction and the session it leaves. -/
theorem Transacts.yields {body : Action σ α} {s next : Session σ} {ending : TransactionEnd α}
    {inner : List Note} (h : Transacts x body s ending inner next) :
    (transaction x body).Yields s ending.outcome next := by
  cases h with
  | refused begins => exact Step.Yields.bind_error (reports_drive begins.reports).bind_error.yields
  | committed begins runs commits =>
      refine (enter_reports begins.reports).yields.bind (runs.attempt.yields.bind ?_)
      exact (leave_reports_commit commits.reports).yields
  | commitFailed begins runs commits rolls_back =>
      refine (enter_reports begins.reports).yields.bind (runs.attempt.yields.bind ?_)
      exact (leave_reports_failedCommit commits.reports rolls_back.reports).yields
  | rolledBack begins runs rolls_back =>
      refine (enter_reports begins.reports).yields.bind (runs.attempt.yields.bind ?_)
      exact (leave_reports_error rolls_back.reports).yields

/-- With recorded calls, the milestones of a transaction are those of its ending. -/
theorem Transacts.reports {body : Action σ α} {s next : Session σ} {ending : TransactionEnd α}
    {inner : List Note} (hx : x.Quiet) (h : Transacts x body s ending inner next) :
    (transaction x.recorded body).Reports s (ending.trace inner) ending.outcome next := by
  cases h with
  | refused begins =>
      exact (reports_drive (Step.reports_call (hx.begin _) begins)).bind_error.bind_error
  | @committed _ _ _ a _ begins runs commits =>
      have henter := enter_reports (y := x.recorded) (Step.reports_call (hx.begin _) begins)
      have hleave := leave_reports_commit (y := x.recorded) (a := a)
        (Step.reports_call (hx.commit _) commits)
      exact henter.bind (runs.attempt.bind hleave)
  | @commitFailed _ _ _ _ a _ _ _ begins runs commits rolls_back =>
      have henter := enter_reports (y := x.recorded) (Step.reports_call (hx.begin _) begins)
      have hleave := leave_reports_failedCommit (y := x.recorded) (a := a)
        (Step.reports_call (hx.commit _) commits) (Step.reports_call (hx.rollback _) rolls_back)
      exact henter.bind (runs.attempt.bind hleave)
  | @rolledBack _ _ _ _ e _ begins runs rolls_back =>
      have henter := enter_reports (y := x.recorded) (Step.reports_call (hx.begin _) begins)
      have hleave := leave_reports_error (α := α) (y := x.recorded) (e := e)
        (Step.reports_call (hx.rollback _) rolls_back)
      exact henter.bind (runs.attempt.bind hleave)

theorem Transacts.bracketed {body : Action σ α} {s next : Session σ} {ending : TransactionEnd α}
    {inner : List Note} (h : Transacts x body s ending inner next)
    (hbody : ∀ t, Note.Bracketed (Note.milestones (body t).1.notes)) :
    Note.Bracketed (ending.trace inner) := by
  have hclosed {t t' : Session σ} {r : Except DbError α} (c : Closing)
      (hruns : body.Reports t inner r t') : Note.Bracketed (Note.bracket inner c) := by
    have hinner : Note.Bracketed inner := by
      rw [← hruns.milestones]
      exact hbody t
    rw [← List.append_nil (Note.bracket inner c)]
    exact .closed c hinner .nil
  cases h with
  | refused _ => exact .refused .nil
  | committed _ runs _ => exact hclosed .commit runs
  | commitFailed _ runs _ _ => exact hclosed .failedCommit runs
  | rolledBack _ runs _ => exact hclosed .rollback runs

/-! ## Routines -/

/-- A driver that only logs, recorded, notes nothing but ordinary things when it executes a
statement. -/
theorem respects_execute_recorded (hx : x.Quiet) (sql : String) (params : List Value) :
    Step.Respects Note.Ordinary (fun _ : σ => True) (x.recorded.execute sql params) := by
  have hcall : Step.Respects Note.Ordinary (fun _ : σ => True)
      (Step.call (.execute sql params) : Step σ DbError Unit) := by
    refine fun s hs => ⟨fun n hn => ?_, hs⟩
    cases List.mem_singleton.mp hn
    trivial
  refine hcall.bind fun _ s hs => ⟨fun n hn => ?_, hs⟩
  cases n with
  | log entry => trivial
  -- it would be a milestone of the driver, which has none
  | event e | call c =>
      have hmilestone : _ ∈ Note.milestones (x.execute sql params s).1.notes :=
        List.mem_filter.mpr ⟨hn, rfl⟩
      rw [hx.execute] at hmilestone
      exact absurd hmilestone List.not_mem_nil

theorem Task.bracketed (hx : x.Quiet) (task : Task α) (s : Session σ) :
    Note.Bracketed (Note.milestones (task.run x.recorded s).1.notes) := by
  have hordinary := (task.respects (fun _ hn => hn) (respects_execute_recorded hx) s trivial).1
  exact Note.bracketed_of_ordinary fun n hn => hordinary n (List.mem_filter.mp hn).1

theorem Routine.bracketed (hx : x.Quiet) (p : Routine σ α) (s : Session σ) :
    Note.Bracketed (Note.milestones (p.run x.recorded s).1.notes) := by
  -- the rest of a routine is run in the session that its first part leaves
  induction p generalizing s with
  | pure a => exact .nil
  | fail e => exact .nil
  | inspect next ih => exact ih s s
  | perform task next ih =>
      show Note.Bracketed (Note.milestones (((task.run x.recorded).attempt >>= fun outcome =>
        (next outcome).run x.recorded) s).1.notes)
      rw [Step.milestones_attempt_bind]
      exact (task.bracketed hx s).append (ih _ _)
  | transaction body next ihBody ihNext =>
      obtain ⟨ending, inner, middle, htransacts⟩ := exists_transacts x (body.run x.recorded) s
      show Note.Bracketed (Note.milestones (((Session.transaction x.recorded
        (body.run x.recorded)).attempt >>= fun outcome => (next outcome).run x.recorded) s).1.notes)
      rw [Step.milestones_attempt_bind, (htransacts.reports hx).milestones]
      exact (htransacts.bracketed ihBody).append (ihNext _ _)

/-- A routine in a transaction runs in one of four ways, and in any run of a routine every
transaction that begins is closed exactly once, inside of the one around it. -/
theorem Routine.transaction_protocol (hx : x.Quiet) (p : Routine σ α) (s : Session σ) :
    (∃ ending inner next, Transacts x (p.run x.recorded) s ending inner next ∧
      (Session.transaction x.recorded (p.run x.recorded)).Reports s (ending.trace inner)
        ending.outcome next) ∧
    Note.Bracketed (Note.milestones (p.run x.recorded s).1.notes) ∧
    Event.unclosed? 0 (Note.events (p.run x.recorded s).1.notes) = some 0 := by
  obtain ⟨ending, inner, next, htransacts⟩ := exists_transacts x (p.run x.recorded) s
  have hbracketed := p.bracketed hx s
  have hunclosed := hbracketed.unclosed? 0 []
  rw [List.append_nil, Note.events_milestones] at hunclosed
  exact ⟨⟨ending, inner, next, htransacts, htransacts.reports hx⟩, hbracketed, hunclosed⟩

/-- A routine that fails in a transaction and hides the error. -/
def Routine.forgiving : Routine Script Unit :=
  .transaction (.fail (.connection "lost") : Routine Script Unit) fun _ => .pure ()

/-- A driver that cannot roll back once. -/
def stuckScript : Script := ⟨[], [], [], [some "stuck"]⟩

theorem Routine.transaction_protocol_forgiving :
    Script.executor.Quiet ∧ ∃ ending inner next,
      Transacts Script.executor (forgiving.run Script.executor.recorded)
        ⟨.defaults .sqlite "t" ["a"], stuckScript⟩ ending inner next ∧
      ending.outcome = .ok () ∧
      ending.trace inner = Note.bracket (Note.bracket [] .rollback) .commit := by
  obtain ⟨⟨ending, inner, next, htransacts, hreports⟩, -, -⟩ :=
    transaction_protocol Script.quiet_executor forgiving
      ⟨.defaults .sqlite "t" ["a"], stuckScript⟩
  have houtcome : ending.outcome = .ok () := hreports.result.symm.trans rfl
  have htrace : ending.trace inner = Note.bracket (Note.bracket [] .rollback) .commit :=
    hreports.milestones.symm.trans (by decide +kernel)
  exact ⟨Script.quiet_executor, ending, inner, next, htransacts, houtcome, htrace⟩

end Session

end BoundSql
