import BoundSql.Proofs.Insert.Plan
import BoundSql.Proofs.Query.Clauses
import BoundSql.Query.Delete
import BoundSql.Query.Select
import BoundSql.Query.Update

/-!
# Requests for statements

The six ways to ask for statements, with the columns each refers to.  A statement that
has been built consists of the clauses that could be built, in a fixed order; the
equations below give its pieces and parameters.
-/

namespace BoundSql

/-- A request for statements over one table. -/
inductive Statement where
  | select (q : SelectQuery)
  | count (q : SelectQuery)
  | update (q : UpdateQuery)
  | delete (q : DeleteQuery)
  | insert (q : InsertQuery)
  | insertMany (b : BulkInsert)

namespace Statement

/-- Build the statements of a request; only an insert of many rows has several. -/
def build (o : Options) : Statement → Traced QueryError (List Fragment)
  | .select q => do return [← q.build o]
  | .count q => do return [← q.buildCount o]
  | .update q => do return [← q.build o]
  | .delete q => do return [← q.build o]
  | .insert q => do return [← q.build o]
  | .insertMany b => do return (← b.plan o).statements.map InsertBatch.fragment

/-- The columns that a request refers to. -/
def columns : Statement → List String
  | .select q => q.columns ++ q.filter.columns ++ Options.sortColumns q.sorts
  | .count q => q.filter.columns
  | .update q => q.assignments.map Prod.fst ++ q.filter.columns
  | .delete q => q.filter.columns
  | .insert q => q.columns
  | .insertMany b => b.columns

/-- Whether the request inserts rows, which may report identifiers. -/
def inserts : Statement → Bool
  | .insert _ | .insertMany _ => true
  | _ => false

end Statement

/-! ## Clauses with text -/

/-- Clauses without text are left out of a statement, and they have no placeholders. -/
theorem Fragment.holes_eq_zero_of_isEmpty {f : Fragment} (h : f.isEmpty = true) :
    Piece.holes f.pieces = 0 := by
  have hchars : f.pieces.flatMap Piece.chars = [] := List.isEmpty_iff.mp h
  rw [Piece.holes, List.count_eq_zero]
  intro hmem
  have hnil := List.flatMap_eq_nil_iff.mp hchars _ hmem
  simp [Piece.chars] at hnil

theorem Fragment.holes_filter (fs : List Fragment) :
    Piece.holes ((fs.filter fun f => !f.isEmpty).map Fragment.pieces).flatten =
      Piece.holes (fs.map Fragment.pieces).flatten := by
  induction fs with
  | nil => rfl
  | cons f fs ih =>
      cases hf : f.isEmpty with
      | true => simpa [hf, holes_eq_zero_of_isEmpty hf] using ih
      | false => simpa [hf] using ih

/-- Tidy parts followed by tidy clauses make a tidy statement. -/
theorem Fragment.tidy_spaced {d : Dialect} {names : String → Prop} {numbers : Nat → Prop}
    {parts : List (List Piece)} {clauses : List Fragment}
    (hparts : ∀ part ∈ parts, Piece.Tidy d names numbers part)
    (hclauses : ∀ f ∈ clauses, Piece.Tidy d names numbers f.pieces) :
    Piece.Tidy d names numbers (Piece.spaced (parts ++ clauses.map Fragment.pieces)) := by
  apply Piece.Tidy.spaced
  intro part hpart
  rcases List.mem_append.mp hpart with hpart | hpart
  · exact hparts part hpart
  · obtain ⟨f, hf, rfl⟩ := List.mem_map.mp hpart
    exact hclauses f hf

/-! ## Built statements -/

variable {o : Options} {f : Fragment}

/-- The pieces of a selection list. -/
def SelectQuery.selected (d : Dialect) (columns : List String) : List Piece :=
  if columns.isEmpty then [.word .star]
  else Piece.commaSeparated (columns.map fun c => [.name (.ofText d c)])

theorem SelectQuery.selection_eq_ok_iff {columns : List String} {ps : List Piece} :
    selection o columns = .ok ps ↔
      (∀ c ∈ columns, o.hasColumn c = true ∧ Name.Escapable c) ∧
        ps = selected o.dialect columns := by
  unfold selection selected
  cases columns with
  | nil =>
      constructor
      · intro h
        cases h
        simp
      · rintro ⟨-, rfl⟩
        rfl
  | cons c columns =>
      simp only [List.isEmpty_cons, Bool.false_eq_true, if_false, bind_eq_ok_iff,
        Options.columnNames_eq_ok_iff, pure_eq_ok, Except.ok.injEq]
      constructor
      · rintro ⟨_, ⟨hcolumns, rfl⟩, rfl⟩
        exact ⟨hcolumns, by simp [Function.comp_def]⟩
      · rintro ⟨hcolumns, rfl⟩
        exact ⟨_, ⟨hcolumns, rfl⟩, by simp [Function.comp_def]⟩

theorem SelectQuery.build_eq_ok_iff {q : SelectQuery} :
    (q.build o).result = .ok f ↔
      Name.Escapable o.table ∧ (∀ c ∈ q.columns, o.hasColumn c = true ∧ Name.Escapable c) ∧
        ∃ restriction ordering paging,
          (o.buildWhere q.filter).result = .ok restriction ∧
          o.buildOrderBy q.sorts = .ok ordering ∧
          q.pagination o (!ordering.isEmpty) = .ok paging ∧
          f = ⟨Piece.spaced ([[.word .select], selected o.dialect q.columns, [.word .from],
            [.name (.ofText o.dialect o.table)]] ++
              ([restriction, ordering].filter (fun c => !c.isEmpty) ++ paging.toList).map
                Fragment.pieces), restriction.params⟩ := by
  simp only [build, Traced.result_bind_eq_ok_iff, Traced.ofExcept_result,
    Options.tableName_eq_ok_iff, selection_eq_ok_iff, Traced.log_result, Traced.pure_result,
    Except.ok.injEq, exists_const, true_and]
  constructor
  · rintro ⟨_, ⟨htable, rfl⟩, _, ⟨hcolumns, rfl⟩, restriction, hrestriction, ordering, hordering,
      paging, hpaging, rfl⟩
    exact ⟨htable, hcolumns, restriction, ordering, paging, hrestriction, hordering, hpaging, rfl⟩
  · rintro ⟨htable, hcolumns, restriction, ordering, paging, hrestriction, hordering, hpaging, rfl⟩
    exact ⟨_, ⟨htable, rfl⟩, _, ⟨hcolumns, rfl⟩, restriction, hrestriction, ordering, hordering,
      paging, hpaging, rfl⟩

theorem SelectQuery.buildCount_eq_ok {q : SelectQuery} (h : (q.buildCount o).result = .ok f) :
    Name.Escapable o.table ∧ ∃ restriction,
      (o.buildWhere q.filter).result = .ok restriction ∧
      f = ⟨Piece.spaced ([[.word .select], .word .count :: Piece.parenthesised [.word .star],
        [.word .from], [.name (.ofText o.dialect o.table)]] ++
          ([restriction].filter fun c => !c.isEmpty).map Fragment.pieces),
            restriction.params⟩ := by
  simp only [buildCount, Traced.result_bind_eq_ok_iff, Traced.ofExcept_result,
    Options.tableName_eq_ok_iff, Traced.log_result, Traced.pure_result, Except.ok.injEq] at h
  obtain ⟨_, ⟨htable, rfl⟩, restriction, hrestriction, _, -, rfl⟩ := h
  exact ⟨htable, restriction, hrestriction, rfl⟩

theorem DeleteQuery.build_eq_ok {q : DeleteQuery} (h : (q.build o).result = .ok f) :
    Name.Escapable o.table ∧ ∃ restriction,
      (o.buildWhere q.filter).result = .ok restriction ∧
      f = ⟨Piece.spaced ([[.word .deleteFrom], [.name (.ofText o.dialect o.table)]] ++
        ([restriction].filter fun c => !c.isEmpty).map Fragment.pieces), restriction.params⟩ := by
  simp only [build, Traced.result_bind_eq_ok_iff, Traced.ofExcept_result,
    Options.tableName_eq_ok_iff, Traced.log_result, Traced.pure_result, Except.ok.injEq] at h
  obtain ⟨_, ⟨htable, rfl⟩, restriction, hrestriction, _, -, _, -, rfl⟩ := h
  exact ⟨htable, restriction, hrestriction, rfl⟩

theorem UpdateQuery.assignedNames_eq_ok_iff {seen columns : List String} {ns : List Name} :
    assignedNames o seen columns = .ok ns ↔
      columns.Nodup ∧ (∀ c ∈ columns, c ∉ seen) ∧
        (∀ c ∈ columns, o.hasColumn c = true ∧ Name.Escapable c) ∧
          ns = columns.map (Name.ofText o.dialect) := by
  induction columns generalizing seen ns with
  | nil =>
      constructor
      · intro h
        cases h
        simp
      · rintro ⟨-, -, -, rfl⟩
        rfl
  | cons c columns ih =>
      unfold assignedNames
      by_cases hseen : c ∈ seen
      · simp [hseen]
      · simp only [List.contains_iff_mem, hseen, if_false, bind_eq_ok_iff,
          Options.columnName_eq_ok_iff, ih, pure_eq_ok, Except.ok.injEq, List.nodup_cons,
          List.mem_cons, forall_eq_or_imp, List.map_cons, not_or, not_false_eq_true, true_and]
        constructor
        · rintro ⟨_, ⟨hlisted, hvisible, rfl⟩, _, ⟨hdistinct, hnew, hrest, rfl⟩, rfl⟩
          exact ⟨⟨fun hc => (hnew c hc).1 rfl, hdistinct⟩, fun c' hc' => (hnew c' hc').2,
            ⟨⟨hlisted, hvisible⟩, hrest⟩, rfl⟩
        · rintro ⟨⟨hfirst, hdistinct⟩, hnew, ⟨⟨hlisted, hvisible⟩, hrest⟩, rfl⟩
          refine ⟨_, ⟨hlisted, hvisible, rfl⟩, _, ⟨hdistinct, fun c' hc' => ⟨?_, hnew c' hc'⟩,
            hrest, rfl⟩, rfl⟩
          rintro rfl
          exact hfirst hc'

theorem UpdateQuery.holes_assignments (d : Dialect) (columns : List String) :
    Piece.holes (Piece.commaSeparated (columns.map fun c => assignment (.ofText d c))) =
      columns.length := by
  rw [Piece.holes_commaSeparated]
  induction columns with
  | nil => rfl
  | cons c columns ih =>
      have hone : Piece.holes (assignment (.ofText d c)) = 1 := rfl
      rw [List.map_cons, List.flatten_cons, Piece.holes_append, hone, ih, List.length_cons,
        Nat.add_comm]

theorem UpdateQuery.build_eq_ok {q : UpdateQuery} (h : (q.build o).result = .ok f) :
    Name.Escapable o.table ∧
      (∀ c ∈ q.assignments.map Prod.fst, o.hasColumn c = true ∧ Name.Escapable c) ∧
      ∃ restriction, (o.buildWhere q.filter).result = .ok restriction ∧
        f = ⟨Piece.spaced [[.word .update], [.name (.ofText o.dialect o.table)], [.word .set],
          Piece.commaSeparated ((q.assignments.map Prod.fst).map fun c =>
            assignment (.ofText o.dialect c)), restriction.pieces],
          q.assignments.map Prod.snd ++ restriction.params⟩ := by
  unfold build at h
  split at h
  · cases h
  · simp only [Traced.result_bind_eq_ok_iff, Traced.ofExcept_result,
      Options.tableName_eq_ok_iff, Traced.log_result, Traced.pure_result, Except.ok.injEq] at h
    obtain ⟨_, ⟨htable, rfl⟩, _, hnames, restriction, hrestriction, _, -, _, -, rfl⟩ := h
    obtain ⟨-, -, hcolumns, rfl⟩ := assignedNames_eq_ok_iff.mp hnames
    exact ⟨htable, hcolumns, restriction, hrestriction, by simp [Function.comp_def]⟩

theorem InsertQuery.build_eq_ok {q : InsertQuery} (h : (q.build o).result = .ok f) :
    Name.Escapable o.table ∧ (∀ c ∈ q.columns, o.hasColumn c = true ∧ Name.Escapable c) ∧
      f = ⟨o.insertPieces q.columns 1, q.values⟩ := by
  simp only [build, Traced.result_bind_eq_ok_iff, Traced.ofExcept_result, Traced.log_result,
    Traced.pure_result, Except.ok.injEq] at h
  obtain ⟨_, h, _, -, _, -, rfl⟩ := h
  unfold fragment at h
  split at h
  · cases h
  · simp only [bind_eq_ok_iff, Options.insertNames_eq_ok_iff, pure_eq_ok, Except.ok.injEq] at h
    obtain ⟨_, ⟨-, hcolumns, rfl⟩, _, -, _, hpieces, rfl⟩ := h
    obtain ⟨htable, -, rfl⟩ := Options.renderInsert_eq_ok_iff.mp hpieces
    exact ⟨htable, hcolumns, rfl⟩

end BoundSql
