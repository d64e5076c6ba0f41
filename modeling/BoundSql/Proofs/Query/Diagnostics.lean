import BoundSql.Proofs.Trace.Outcome
import BoundSql.Query.Delete
import BoundSql.Query.Insert
import BoundSql.Query.Select
import BoundSql.Query.Update

/-!
# Diagnostics of builders

Building a statement logs and reports on the query and on nothing else: it reports comparisons
with null and the plan of an insert of many rows, and neither that a statement has been executed
nor a boundary of a transaction.  It calls no driver.
-/

namespace BoundSql

/-! ## Notes of a kind -/

/-- A note on the query that is being built. -/
def Note.Diagnostic : Note → Prop
  | .log entry => entry.component = .query
  | .event (.nullComparison ..) | .event (.batchPlanned ..) => True
  | _ => False

namespace Traced

variable {ε α β : Type} {N : Note → Prop}

/-- A computation that makes notes of one kind only. -/
def Makes (N : Note → Prop) (x : Traced ε α) : Prop := ∀ n ∈ x.notes, N n

theorem Makes.mono {M : Note → Prop} {x : Traced ε α} (h : x.Makes N) (hsub : ∀ n, N n → M n) :
    x.Makes M := fun n hn => hsub n (h n hn)

theorem makes_pure (a : α) : (pure a : Traced ε α).Makes N := fun _ hn => nomatch hn

theorem makes_fail (e : ε) : (fail e : Traced ε α).Makes N := fun _ hn => nomatch hn

theorem makes_ofExcept (r : Except ε α) : (ofExcept r).Makes N := fun _ hn => nomatch hn

theorem makes_log {entry : LogEntry} (h : N (.log entry)) :
    (log entry : Traced ε Unit).Makes N := by
  intro n hn
  cases List.mem_singleton.mp hn
  exact h

theorem diagnostic_log {entry : LogEntry} (h : entry.component = .query) :
    (log entry : Traced ε Unit).Makes Note.Diagnostic := makes_log h

theorem makes_emit {e : Event} (h : N (.event e)) : (emit e : Traced ε Unit).Makes N := by
  intro n hn
  cases List.mem_singleton.mp hn
  exact h

theorem Makes.bind {x : Traced ε α} {f : α → Traced ε β} (hx : x.Makes N)
    (hf : ∀ a, (f a).Makes N) : (x >>= f).Makes N := by
  cases h : x.result with
  | error e =>
      rw [bind_of_error f h]
      exact hx
  | ok a =>
      rw [bind_of_ok f h]
      intro n hn
      rcases List.mem_append.mp hn with hn | hn
      · exact hx n hn
      · exact hf a n hn

end Traced

/-! ## Conditions and clauses -/

namespace Condition

variable (column : String) (n : Name)

theorem diagnostic_compileOp (op : Operator) (operand : Operand) :
    (compileOp column n op operand).Makes Note.Diagnostic := by
  unfold compileOp
  split
  · split
    · exact Traced.makes_fail _
    -- a comparison with null that becomes a check is logged and reported
    · refine (Traced.diagnostic_log rfl).bind fun _ => ?_
      exact (Traced.makes_emit trivial).bind fun _ => Traced.makes_pure _
  · split
    · split
      · exact Traced.makes_pure _
      · exact Traced.makes_fail _
    · exact Traced.makes_pure _
    · exact Traced.makes_pure _
  · split
    · exact Traced.makes_fail _
    · exact Traced.makes_fail _
    · split
      · exact Traced.makes_fail _
      split
      · exact Traced.makes_fail _
      split <;> exact Traced.makes_pure _

theorem diagnostic_compileOps (entries : List (Operator × Operand)) :
    (compileOps column n entries).Makes Note.Diagnostic := by
  induction entries with
  | nil => exact Traced.makes_pure _
  | cons entry entries ih =>
      refine (diagnostic_compileOp column n _ _).bind fun _ => ih.bind fun _ => ?_
      exact Traced.makes_pure _

theorem diagnostic_compile (c : Condition) : (c.compile column n).Makes Note.Diagnostic := by
  unfold compile
  split
  · exact Traced.makes_fail _
  · exact diagnostic_compileOps column n _

end Condition

theorem Filter.diagnostic_compileEntries (entries : List ((String × Condition) × Name)) :
    (compileEntries entries).Makes Note.Diagnostic := by
  induction entries with
  | nil => exact Traced.makes_pure _
  | cons entry entries ih =>
      refine (Condition.diagnostic_compile _ _ _).bind fun _ => ih.bind fun _ => ?_
      exact Traced.makes_pure _

section Builders

variable (o : Options)

theorem Options.diagnostic_buildWhere (f : Filter) : (o.buildWhere f).Makes Note.Diagnostic := by
  unfold buildWhere Filter.predicates
  split
  · exact Traced.makes_pure _
  · refine Traced.Makes.bind ?_ fun _ => Traced.makes_pure _
    exact (Traced.makes_ofExcept _).bind fun _ => Filter.diagnostic_compileEntries _

/-! ## Statements -/

theorem SelectQuery.diagnostic_build (q : SelectQuery) : (q.build o).Makes Note.Diagnostic := by
  unfold build
  refine (Traced.makes_ofExcept _).bind fun _ => ?_
  refine (Traced.makes_ofExcept _).bind fun _ => ?_
  refine (o.diagnostic_buildWhere _).bind fun _ => ?_
  refine (Traced.makes_ofExcept _).bind fun _ => ?_
  refine (Traced.makes_ofExcept _).bind fun _ => ?_
  refine (Traced.diagnostic_log rfl).bind fun _ => ?_
  exact (Traced.diagnostic_log rfl).bind fun _ => Traced.makes_pure _

theorem SelectQuery.diagnostic_buildCount (q : SelectQuery) :
    (q.buildCount o).Makes Note.Diagnostic := by
  unfold buildCount
  refine (Traced.makes_ofExcept _).bind fun _ => ?_
  refine (o.diagnostic_buildWhere _).bind fun _ => ?_
  exact (Traced.diagnostic_log rfl).bind fun _ => Traced.makes_pure _

theorem UpdateQuery.diagnostic_build (q : UpdateQuery) : (q.build o).Makes Note.Diagnostic := by
  unfold build
  split
  · exact Traced.makes_fail _
  · refine (Traced.makes_ofExcept _).bind fun _ => ?_
    refine (Traced.makes_ofExcept _).bind fun _ => ?_
    refine (o.diagnostic_buildWhere _).bind fun _ => ?_
    refine (Traced.diagnostic_log rfl).bind fun _ => ?_
    exact (Traced.diagnostic_log rfl).bind fun _ => Traced.makes_pure _

theorem DeleteQuery.diagnostic_build (q : DeleteQuery) : (q.build o).Makes Note.Diagnostic := by
  unfold build
  refine (Traced.makes_ofExcept _).bind fun _ => ?_
  refine (o.diagnostic_buildWhere _).bind fun _ => ?_
  refine (Traced.diagnostic_log rfl).bind fun _ => ?_
  exact (Traced.diagnostic_log rfl).bind fun _ => Traced.makes_pure _

theorem InsertQuery.diagnostic_build (q : InsertQuery) : (q.build o).Makes Note.Diagnostic := by
  unfold build
  refine (Traced.makes_ofExcept _).bind fun _ => ?_
  refine (Traced.diagnostic_log rfl).bind fun _ => ?_
  exact (Traced.diagnostic_log rfl).bind fun _ => Traced.makes_pure _

theorem BulkInsert.diagnostic_plan (b : BulkInsert) : (b.plan o).Makes Note.Diagnostic := by
  unfold plan
  refine (Traced.makes_ofExcept _).bind fun _ => ?_
  refine (Traced.diagnostic_log rfl).bind fun _ => ?_
  exact (Traced.makes_emit trivial).bind fun _ => Traced.makes_pure _

end Builders

end BoundSql
