import BoundSql.Proofs.Insert.Execution
import Mathlib.Algebra.Group.Int.Defs
import Mathlib.Algebra.GroupWithZero.Nat
import Mathlib.Data.List.Forall2

/-!
# The books of an insert

Answers to the batches of an insert can be recorded in any number and order, also after one was
refused.  Every answer is counted, with the rows it reports as affected; identifiers are kept of
accepted answers only, in the order of recording.  An answer is accepted exactly if it yields an
identifier for each row of its batch, or identifiers are not collected at all.

Affected rows add up in words, exactly as long as the sum is one.  Identifiers that a driver reports
by the first of them are counted up in integers of 64 bits, so the last has to be one.
-/

namespace BoundSql

/-! ## Identifiers in answers -/

/-- The cells of a column in rows: of each row the first cell with that name, and nothing of a row
without one. -/
inductive Row.Cells (column : String) : List Row → List Value → Prop where
  | nil : Cells column [] []
  | lacking {row : Row} {rows : List Row} {vs : List Value}
      (absent : ∀ cell ∈ row.cells, cell.1 ≠ column) (tail : Cells column rows vs) :
      Cells column (row :: rows) vs
  | having {before after : List (String × Value)} {v : Value} {rows : List Row} {vs : List Value}
      (first : ∀ cell ∈ before, cell.1 ≠ column) (tail : Cells column rows vs) :
      Cells column (⟨before ++ (column, v) :: after⟩ :: rows) (v :: vs)

namespace Row

variable {column : String}

theorem get?_eq_none_iff {row : Row} :
    row.get? column = none ↔ ∀ cell ∈ row.cells, cell.1 ≠ column := by
  simp only [get?, List.lookup_eq_none_iff, bne_iff_ne, ne_comm]

/-- The cell of a column is the first of its name. -/
theorem get?_eq_some_iff {row : Row} {v : Value} :
    row.get? column = some v ↔ ∃ before after,
      row.cells = before ++ (column, v) :: after ∧ ∀ cell ∈ before, cell.1 ≠ column := by
  simp only [get?, List.lookup_eq_some_iff, bne_iff_ne, ne_comm]

theorem cells_iff {rows : List Row} {vs : List Value} :
    Cells column rows vs ↔ rows.filterMap (fun row => row.get? column) = vs := by
  constructor
  · intro h
    induction h with
    | nil => rfl
    | lacking absent _ ih =>
        rw [List.filterMap_cons, get?_eq_none_iff.mpr absent, ih]
    | having first _ ih =>
        rw [List.filterMap_cons, get?_eq_some_iff.mpr ⟨_, _, rfl, first⟩, ih]
  · rintro rfl
    induction rows with
    | nil => exact .nil
    | cons row rows ih =>
        rw [List.filterMap_cons]
        cases hcell : row.get? column with
        | none => exact .lacking (get?_eq_none_iff.mp hcell) ih
        | some v =>
            obtain ⟨before, after, hcells, hfirst⟩ := get?_eq_some_iff.mp hcell
            obtain ⟨cells⟩ := row
            cases hcells
            exact .having hfirst ih

end Row

namespace Collector

/-- Identifiers of so many rows that count up from the first, none of them wrapping around. -/
structure CountUp (first : Int64) (rows : Nat) (ids : List Value) : Prop where
  length : ids.length = rows
  value : ∀ k < rows, ∃ i : Int64, ids[k]? = some (.integer i) ∧ i.toInt = first.toInt + k

/-- Whether an insert under options asks for identifiers. -/
def Collects (o : Options) : Prop := o.dialect.idStrategy = .firstInsertId ∨ o.idColumn ≠ none

/-- What becomes of an answer to a batch of so many rows, and the identifiers that are kept
of it. -/
inductive Verdict (o : Options) (rows : Nat) (raw : RawResult) :
    Except QueryError Unit → List Value → Prop where
  /-- Identifiers are not collected. -/
  | uncollected (collects : ¬Collects o) : Verdict o rows raw (.ok ()) []
  /-- The first identifier is known, and the others follow it. -/
  | counted {first : Int64} {ids : List Value} (strategy : o.dialect.idStrategy = .firstInsertId)
      (known : raw.insertId = some first) (count : CountUp first rows ids) :
      Verdict o rows raw (.ok ()) ids
  /-- A batch without rows needs no identifier. -/
  | vacuous (strategy : o.dialect.idStrategy = .firstInsertId) (unknown : raw.insertId = none)
      (no_rows : rows = 0) : Verdict o rows raw (.ok ()) []
  | unreported (strategy : o.dialect.idStrategy = .firstInsertId) (unknown : raw.insertId = none)
      (needed : rows ≠ 0) : Verdict o rows raw (.error (.idCountMismatch rows 0)) []
  /-- As many of the returned rows have the cell as rows were inserted. -/
  | returned {column : String} {ids : List Value}
      (strategy : o.dialect.idStrategy ≠ .firstInsertId) (named : o.idColumn = some column)
      (cells : Row.Cells column raw.rows ids) (complete : ids.length = rows) :
      Verdict o rows raw (.ok ()) ids
  | miscounted {column : String} {ids : List Value}
      (strategy : o.dialect.idStrategy ≠ .firstInsertId) (named : o.idColumn = some column)
      (cells : Row.Cells column raw.rows ids) (incomplete : ids.length ≠ rows) :
      Verdict o rows raw (.error (.idCountMismatch rows ids.length)) []

/-- The numbers of an answer fit words: those of the rows of its batch, and of the last identifier
that follows from the first. -/
structure Representable (o : Options) (rows : Nat) (raw : RawResult) : Prop where
  rows_lt : rows < 2 ^ 63
  last_lt : o.dialect.idStrategy = .firstInsertId →
    ∀ first, raw.insertId = some first → ∀ k < rows, first.toInt + k < 2 ^ 63

variable {o : Options} {rows total statements : Nat} {affected : UInt64} {raw : RawResult}
  {first : Int64} {ids kept : List Value} {outcome : Except QueryError Unit}

theorem collectsIds_iff : (new o 0).collectsIds = true ↔ Collects o := by
  unfold collectsIds Collects new
  cases o.dialect.idStrategy <;> simp [Option.isSome_iff_ne_none]

/-! ## Counting up -/

theorem length_consecutive (first : Int64) (rows : Nat) :
    (consecutive first rows).length = rows := by
  simp [consecutive]

theorem getElem?_consecutive {k : Nat} (hk : k < rows) :
    (consecutive first rows)[k]? = some (.integer (first + Int64.ofNat k)) := by
  rw [consecutive, List.getElem?_map, List.getElem?_range hk]
  rfl

theorem CountUp.eq_consecutive (h : CountUp first rows ids) : ids = consecutive first rows := by
  apply List.ext_getElem?
  intro k
  by_cases hk : k < rows
  · obtain ⟨i, hi, hint⟩ := h.value k hk
    rw [hi, getElem?_consecutive hk, add_ofNat_eq hint]
  · have hids : ids.length ≤ k := by rw [h.length]; omega
    have hconsecutive : (consecutive first rows).length ≤ k := by rw [length_consecutive]; omega
    rw [List.getElem?_eq_none hids, List.getElem?_eq_none hconsecutive]

/-- Counting up does not wrap around if the last identifier is an integer of 64 bits. -/
theorem countUp_consecutive (hrows : rows < 2 ^ 63)
    (hlast : ∀ k < rows, first.toInt + k < 2 ^ 63) :
    CountUp first rows (consecutive first rows) where
  length := length_consecutive first rows
  value k hk := by
    refine ⟨_, getElem?_consecutive hk, ?_⟩
    have hk' : (Int64.ofNat k).toInt = k := Int64.toInt_ofNat_of_lt (by omega)
    have hfirst := first.le_toInt
    have hbound := hlast k hk
    rw [Int64.toInt_add, hk']
    exact Int.bmod_eq_of_le (by omega) (by omega)

/-! ## One answer -/

theorem idsOf_of_firstInsertId (h : o.dialect.idStrategy = .firstInsertId) :
    (new o 0).idsOf rows raw =
      (raw.insertId.map fun first => consecutive first rows).getD [] := by
  cases hfirst : raw.insertId <;> simp [idsOf, new, h, hfirst]

theorem idsOf_of_returned {column : String} (hstrategy : o.dialect.idStrategy ≠ .firstInsertId)
    (hcolumn : o.idColumn = some column) :
    (new o 0).idsOf rows raw = raw.rows.filterMap fun row => row.get? column := by
  cases h : o.dialect.idStrategy with
  | firstInsertId => exact absurd h hstrategy
  | returning | output => simp [idsOf, new, h, hcolumn]

/-- There is a verdict on every answer. -/
theorem exists_verdict (h : Representable o rows raw) :
    ∃ outcome kept, Verdict o rows raw outcome kept := by
  by_cases hcollects : Collects o
  · by_cases hstrategy : o.dialect.idStrategy = .firstInsertId
    · cases hfirst : raw.insertId with
      | some first =>
          exact ⟨_, _, .counted hstrategy hfirst
            (countUp_consecutive h.rows_lt (h.last_lt hstrategy first hfirst))⟩
      | none =>
          by_cases hrows : rows = 0
          · exact ⟨_, _, .vacuous hstrategy hfirst hrows⟩
          · exact ⟨_, _, .unreported hstrategy hfirst hrows⟩
    · obtain ⟨column, hcolumn⟩ :=
        Option.ne_none_iff_exists'.mp (hcollects.resolve_left hstrategy)
      have hcells : Row.Cells column raw.rows _ := Row.cells_iff.mpr rfl
      by_cases hlength : (raw.rows.filterMap fun row => row.get? column).length = rows
      · exact ⟨_, _, .returned hstrategy hcolumn hcells hlength⟩
      · exact ⟨_, _, .miscounted hstrategy hcolumn hcells hlength⟩
  · exact ⟨_, _, .uncollected hcollects⟩

theorem record_accepts (h : Collects o) (hids : (new o 0).idsOf rows raw = kept)
    (hlength : kept.length = rows) :
    (record rows raw).Yields (holding o total ids affected statements) (.ok ())
      (holding o total (ids ++ kept) (affected + raw.affected) (statements + 1)) := by
  subst hids
  rw [Step.Yields, record_of_length_eq (collectsIds_iff.mpr h) hlength]
  exact ⟨rfl, rfl⟩

theorem record_refuses {found : List Value} (h : Collects o)
    (hids : (new o 0).idsOf rows raw = found) (hlength : found.length ≠ rows) :
    (record rows raw).Yields (holding o total ids affected statements)
      (.error (.idCountMismatch rows found.length))
      (holding o total ids (affected + raw.affected) (statements + 1)) := by
  subst hids
  rw [Step.Yields, record_of_length_ne (collectsIds_iff.mpr h) hlength]
  exact ⟨rfl, rfl⟩

/-- An answer is counted whatever the verdict on it, which decides what is kept of it. -/
theorem record_of_verdict (h : Verdict o rows raw outcome kept) :
    (record rows raw).Yields (holding o total ids affected statements) outcome
      (holding o total (ids ++ kept) (affected + raw.affected) (statements + 1)) := by
  cases h with
  | uncollected collects =>
      have hsilent : (new o 0).collectsIds = false := by
        rwa [← Bool.not_eq_true, collectsIds_iff]
      rw [Step.Yields, record_of_not_collectsIds hsilent, List.append_nil]
      exact ⟨rfl, rfl⟩
  | counted strategy known count =>
      refine record_accepts (.inl strategy) ?_ count.length
      rw [idsOf_of_firstInsertId strategy, known, count.eq_consecutive]
      rfl
  | vacuous strategy unknown no_rows =>
      refine record_accepts (.inl strategy) ?_ no_rows.symm
      rw [idsOf_of_firstInsertId strategy, unknown]
      rfl
  | unreported strategy unknown needed =>
      have hids : (new o 0).idsOf rows raw = [] := by
        rw [idsOf_of_firstInsertId strategy, unknown]
        rfl
      rw [List.append_nil]
      exact record_refuses (.inl strategy) hids needed.symm
  | returned strategy named cells complete =>
      refine record_accepts (.inr (by simp [named])) ?_ complete
      rw [idsOf_of_returned strategy named, Row.cells_iff.mp cells]
  | miscounted strategy named cells incomplete =>
      rw [List.append_nil]
      refine record_refuses (.inr (by simp [named])) ?_ incomplete
      rw [idsOf_of_returned strategy named, Row.cells_iff.mp cells]

/-! ## Any number of answers -/

/-- Record answers to batches of so many rows one by one, whether or not they are accepted. -/
def recordEach :
    List (Nat × RawResult) → Step Collector QueryError (List (Except QueryError Unit))
  | [] => pure []
  | (rows, raw) :: rest => do
      let outcome ← Step.attempt (record rows raw)
      let outcomes ← recordEach rest
      return outcome :: outcomes

/-- What becomes of answers, each with the identifiers that are kept of it. -/
def Verdicts (o : Options) (answers : List (Nat × RawResult))
    (entries : List (Except QueryError Unit × List Value)) : Prop :=
  List.Forall₂ (fun answer entry => Verdict o answer.1 answer.2 entry.1 entry.2) answers entries

variable {answers : List (Nat × RawResult)} {entries : List (Except QueryError Unit × List Value)}

theorem exists_verdicts (h : ∀ answer ∈ answers, Representable o answer.1 answer.2) :
    ∃ entries, Verdicts o answers entries := by
  induction answers with
  | nil => exact ⟨[], .nil⟩
  | cons answer answers ih =>
      obtain ⟨hanswer, hanswers⟩ := List.forall_mem_cons.mp h
      obtain ⟨outcome, kept, hverdict⟩ := exists_verdict hanswer
      obtain ⟨entries, hentries⟩ := ih hanswers
      exact ⟨(outcome, kept) :: entries, .cons hverdict hentries⟩

theorem recordEach_of_verdicts (h : Verdicts o answers entries) :
    (recordEach answers).Yields (holding o total ids affected statements)
      (.ok (entries.map Prod.fst))
      (holding o total (ids ++ (entries.map Prod.snd).flatten)
        (affected + .ofNat (RawResult.affectedTotal (answers.map Prod.snd)))
        (statements + answers.length)) := by
  -- an answer moves what the collector holds, so the others are recorded from anywhere
  induction h generalizing ids affected statements with
  | nil =>
      have haffected : affected + .ofNat (RawResult.affectedTotal []) = affected :=
        UInt64.add_zero affected
      rw [List.map_nil, List.map_nil, List.map_nil, haffected, List.flatten_nil, List.append_nil]
      exact Step.yields_pure [] _
  | @cons answer entry answers entries hverdict _ ih =>
      have hstatements : statements + (answer :: answers).length =
          statements + 1 + answers.length := by
        rw [List.length_cons, Nat.add_assoc, Nat.add_comm 1]
      rw [hstatements, List.map_cons, List.map_cons, List.map_cons,
        RawResult.add_affectedTotal_cons, List.flatten_cons, ← List.append_assoc]
      exact (record_of_verdict hverdict).attempt.bind (ih.bind (Step.yields_pure _ _))

/-! ## Closing the books -/

theorem finish_eq_ok_iff {r : BulkResult} :
    (holding o total ids affected statements).finish = .ok r ↔
      (Collects o → ids.length = total) ∧ r = ⟨ids, affected, statements⟩ := by
  by_cases h : Collects o → ids.length = total
  · have hcollects : (new o 0).collectsIds = true → ids.length = total :=
      fun hc => h (collectsIds_iff.mp hc)
    rw [finish_of_length_eq hcollects, Except.ok.injEq, and_iff_right h, eq_comm]
  · obtain ⟨hcollects, hlength⟩ := Classical.not_imp.mp h
    rw [finish_of_length_ne (collectsIds_iff.mpr hcollects) hlength]
    exact iff_of_false (fun hr => nomatch hr) fun hr => h hr.1

theorem finish_eq_error_iff {e : QueryError} :
    (holding o total ids affected statements).finish = .error e ↔
      (Collects o ∧ ids.length ≠ total) ∧ e = .idCountMismatch total ids.length := by
  by_cases h : Collects o ∧ ids.length ≠ total
  · rw [finish_of_length_ne (collectsIds_iff.mpr h.1) h.2, Except.error.injEq, and_iff_right h,
      eq_comm]
  · have hcollects : (new o 0).collectsIds = true → ids.length = total := fun hc =>
      not_not.mp fun hlength => h ⟨collectsIds_iff.mp hc, hlength⟩
    rw [finish_of_length_eq hcollects]
    exact iff_of_false (fun he => nomatch he) fun he => h he.1

/-- How a collector ends up after answers with given verdicts, and how it closes. -/
structure Keeps (o : Options) (total : Nat) (answers : List (Nat × RawResult))
    (entries : List (Except QueryError Unit × List Value)) (c : Collector) : Prop where
  statements : c.statements = answers.length
  /-- Refused answers count as well. -/
  affected : c.affected = .ofNat (RawResult.affectedTotal (answers.map Prod.snd))
  /-- As long as the sum fits a word, it is reported as it is. -/
  toNat_affected : RawResult.affectedTotal (answers.map Prod.snd) < UInt64.size →
    c.affected.toNat = RawResult.affectedTotal (answers.map Prod.snd)
  /-- Of a refused answer nothing is kept. -/
  ids : c.ids = (entries.map Prod.snd).flatten
  closes : ∀ r, c.finish = .ok r ↔
    (Collects o → c.ids.length = total) ∧ r = ⟨c.ids, c.affected, c.statements⟩
  refuses : ∀ e, c.finish = .error e ↔
    (Collects o ∧ c.ids.length ≠ total) ∧ e = .idCountMismatch total c.ids.length

/-- Answers to batches can be recorded in any number and order.  There is a verdict on each, and
whatever the verdicts are, they are the outcomes of recording, and the collector ends up with the
number of the answers, with the affected rows of all of them and with the identifiers of those that
were accepted.  It closes exactly if these are as many as they should be. -/
theorem recordEach_keeps (o : Options) (total : Nat) (answers : List (Nat × RawResult))
    (h : ∀ answer ∈ answers, Representable o answer.1 answer.2) :
    (∃ entries, Verdicts o answers entries) ∧
      ∀ entries, Verdicts o answers entries → ∃ c,
        (recordEach answers).Yields (.new o total) (.ok (entries.map Prod.fst)) c ∧
          Keeps o total answers entries c := by
  refine ⟨exists_verdicts h, fun entries hentries => ?_⟩
  have hrun : (recordEach answers).Yields (holding o total [] 0 0) _ _ :=
    recordEach_of_verdicts hentries
  rw [List.nil_append, UInt64.zero_add, Nat.zero_add] at hrun
  exact ⟨_, hrun, rfl, rfl, UInt64.toNat_ofNat_of_lt, rfl, fun _ => finish_eq_ok_iff,
    fun _ => finish_eq_error_iff⟩

/-- Answers by a driver that reports first identifiers, the last two to a batch without rows and
with the largest identifier there is. -/
def firstIdAnswers : List (Nat × RawResult) :=
  [(2, ⟨[], 2, some 7⟩), (3, ⟨[], 3, none⟩), (0, ⟨[], 0, none⟩),
    (1, ⟨[], 1, some 9223372036854775807⟩)]

/-- Answers by a driver that returns rows: complete, with a row that lacks the cell, and with a row
that has it twice. -/
def returnedAnswers : List (Nat × RawResult) :=
  [(2, ⟨[⟨[("id", .integer 7)]⟩, ⟨[("a", .null), ("id", .integer 4)]⟩], 2, none⟩),
    (2, ⟨[⟨[("a", .integer 1)]⟩, ⟨[("id", .integer 5)]⟩], 2, some 1⟩),
    (1, ⟨[⟨[("id", .text "x"), ("id", .integer 6)]⟩], 1, none⟩)]

/-- Options for drivers that return the cells of an identifier column. -/
def returningOptions : Options := (Options.defaults .postgres "t" ["a"]).withIdColumn "id"

theorem recordEach_keeps_mixed :
    (∃ c, (recordEach firstIdAnswers).Yields (.new (.defaults .mysql "t" ["a"]) 3)
        (.ok [.ok (), .error (.idCountMismatch 3 0), .ok (), .ok ()]) c ∧
      c.finish = .ok ⟨[.integer 7, .integer 8, .integer 9223372036854775807], 6, 4⟩) ∧
    ∃ c, (recordEach returnedAnswers).Yields (.new returningOptions 5)
        (.ok [.ok (), .error (.idCountMismatch 2 1), .ok ()]) c ∧
      c.ids = [.integer 7, .integer 4, .text "x"] ∧
      c.finish = .error (.idCountMismatch 5 3) := by
  constructor
  · have hrepresentable : ∀ answer ∈ firstIdAnswers,
        Representable (.defaults .mysql "t" ["a"]) answer.1 answer.2 := by
      intro answer hanswer
      simp only [firstIdAnswers, List.mem_cons, List.not_mem_nil, or_false] at hanswer
      rcases hanswer with rfl | rfl | rfl | rfl <;>
        refine ⟨by decide, fun _ first hfirst => ?_⟩ <;> cases hfirst <;> decide
    have hverdicts : Verdicts (.defaults .mysql "t" ["a"]) firstIdAnswers
        [(.ok (), [.integer 7, .integer 8]), (.error (.idCountMismatch 3 0), []), (.ok (), []),
          (.ok (), [.integer 9223372036854775807])] := by
      refine .cons (.counted rfl rfl ?_) (.cons (.unreported rfl rfl ?_)
        (.cons (.vacuous rfl rfl rfl) (.cons (.counted rfl rfl ?_) .nil)))
      · exact countUp_consecutive (by decide) (by decide)
      · decide
      · exact countUp_consecutive (by decide) (by decide)
    obtain ⟨c, hrun, hc⟩ := (recordEach_keeps _ 3 firstIdAnswers hrepresentable).2 _ hverdicts
    refine ⟨c, hrun, (hc.closes _).mpr ⟨fun _ => ?_, ?_⟩⟩
    · rw [hc.ids]
      rfl
    · rw [hc.ids, hc.affected, hc.statements]
      rfl
  · have hstrategy : returningOptions.dialect.idStrategy ≠ .firstInsertId := by decide
    have hrepresentable : ∀ answer ∈ returnedAnswers,
        Representable returningOptions answer.1 answer.2 := fun answer hanswer =>
      ⟨by revert answer; decide, fun h => absurd h hstrategy⟩
    have hverdicts : Verdicts returningOptions returnedAnswers
        [(.ok (), [.integer 7, .integer 4]), (.error (.idCountMismatch 2 1), []),
          (.ok (), [.text "x"])] := by
      refine .cons (.returned hstrategy rfl ?_ rfl)
        (.cons (.miscounted hstrategy rfl (?_ : Row.Cells "id" _ [.integer 5]) (by decide))
          (.cons (.returned hstrategy rfl ?_ rfl) .nil)) <;>
        exact Row.cells_iff.mpr rfl
    obtain ⟨c, hrun, hc⟩ := (recordEach_keeps _ 5 returnedAnswers hrepresentable).2 _ hverdicts
    refine ⟨c, hrun, hc.ids, (hc.refuses _).mpr ⟨⟨.inr (by decide), ?_⟩, ?_⟩⟩
    · rw [hc.ids]
      decide
    · rw [hc.ids]
      rfl

end Collector

end BoundSql
