import BoundSql.Proofs.Query.Statement

/-!
# The whitelist

No statement is built that refers to a column outside of the whitelist, wherever the request
refers to it and whatever else is wrong with the request.  The columns of a filter are checked
before any of its conditions is looked at: the first one that is refused gives the error, and
nothing is reported.

A trusted expression of an ordering is no column.  The caller vouches for it, and nothing is
said about it here.
-/

namespace BoundSql

/-! ## Refused columns -/

namespace Options

/-- Why a column that cannot be named is refused. -/
def refusal (o : Options) (column : String) : QueryError :=
  if column ∈ o.columns then .invalidIdentifier column else .unknownColumn o.table column

variable {o : Options}

theorem hasColumn_eq_true_iff {column : String} :
    o.hasColumn column = true ↔ column ∈ o.columns := by
  simp [hasColumn]

/-- A column is named or refused, and there is one reason to refuse it. -/
theorem columnName_cases (o : Options) (column : String) :
    (∃ n, o.columnName column = .ok n) ∨ o.columnName column = .error (o.refusal column) := by
  unfold columnName refusal
  by_cases hlisted : column ∈ o.columns
  · rw [if_pos (hasColumn_eq_true_iff.mpr hlisted), if_pos hlisted, quote, Identifier.ofString]
    split
    · exact Or.inr rfl
    · exact Or.inl ⟨_, rfl⟩
  · rw [if_neg fun h => hlisted (hasColumn_eq_true_iff.mp h), if_neg hlisted]
    exact Or.inr rfl

/-- A column that stands first among the refused ones of a list. -/
structure RefusesFirst (o : Options) (columns : List String) (column : String) : Prop where
  before : ∃ named rest, columns = named ++ column :: rest ∧
    ∀ c ∈ named, ∃ n, o.columnName c = .ok n
  refused : o.columnName column = .error (o.refusal column)

/-- Columns are named in order, so the first one that is refused gives the error. -/
theorem RefusesFirst.columnNames {columns : List String} {column : String}
    (h : o.RefusesFirst columns column) :
    o.columnNames columns = .error (o.refusal column) := by
  obtain ⟨⟨named, rest, rfl, hnamed⟩, hrefused⟩ := h
  induction named with
  | nil =>
      rw [List.nil_append, Options.columnNames, hrefused]
      rfl
  | cons c named ih =>
      obtain ⟨n, hn⟩ := hnamed c List.mem_cons_self
      have hrest := ih fun c hc => hnamed c (List.mem_cons_of_mem _ hc)
      rw [List.cons_append, Options.columnNames, hn]
      show (do let names ← o.columnNames (named ++ column :: rest); return n :: names) = _
      rw [hrest]
      rfl

theorem exists_refusesFirst {columns : List String}
    (h : ∃ c ∈ columns, ∃ e, o.columnName c = .error e) : ∃ c, o.RefusesFirst columns c := by
  induction columns with
  | nil =>
      obtain ⟨c, hc, -⟩ := h
      exact absurd hc List.not_mem_nil
  | cons c columns ih =>
      rcases o.columnName_cases c with ⟨n, hn⟩ | hrefused
      -- a column that is named is not the one in question, which then stands behind it
      · obtain ⟨d, hd, e, he⟩ := h
        have hne : d ≠ c := by
          rintro rfl
          cases hn.symm.trans he
        obtain ⟨first, ⟨named, rest, hcolumns, hnamed⟩, hfirst⟩ :=
          ih ⟨d, List.mem_of_ne_of_mem hne hd, e, he⟩
        refine ⟨first, ⟨c :: named, rest, congrArg (c :: ·) hcolumns, ?_⟩, hfirst⟩
        intro b hb
        rcases List.mem_cons.mp hb with rfl | hb
        · exact ⟨n, hn⟩
        · exact hnamed b hb
      · exact ⟨c, ⟨[], columns, rfl, fun _ hb => absurd hb List.not_mem_nil⟩, hrefused⟩

/-! ## Clauses -/

theorem listed_of_buildWhere {f : Filter} {w : Fragment} (h : (o.buildWhere f).result = .ok w) :
    ∀ c ∈ f.columns, o.hasColumn c = true := by
  rcases buildWhere_cases h with ⟨hempty, -⟩ | ⟨-, hcolumns, -⟩
  · intro c hc
    rw [Filter.columns, List.isEmpty_iff.mp hempty] at hc
    exact absurd hc List.not_mem_nil
  · exact fun c hc => (hcolumns c hc).1

theorem listed_of_buildOrderBy {sorts : List SortTerm} {w : Fragment}
    (h : o.buildOrderBy sorts = .ok w) : ∀ c ∈ sortColumns sorts, o.hasColumn c = true := by
  intro c hc
  obtain ⟨s, hs, htarget⟩ := mem_sortColumns_iff.mp hc
  exact ((buildOrderBy_eq_ok_iff.mp h).1 s hs c htarget).1

/-- The columns of a filter are checked before anything is compiled or reported. -/
theorem RefusesFirst.buildWhere {f : Filter} {column : String}
    (h : o.RefusesFirst f.columns column) : o.buildWhere f = .fail (o.refusal column) := by
  have hfilled : f.isEmpty = false := by
    obtain ⟨⟨named, rest, hcolumns, -⟩, -⟩ := h
    rw [Filter.isEmpty, List.isEmpty_eq_false_iff]
    intro hnil
    rw [Filter.columns, hnil] at hcolumns
    simp at hcolumns
  have hnames : (Traced.ofExcept (o.columnNames f.columns)).result = .error (o.refusal column) :=
    h.columnNames
  have hpredicates : f.predicates o = .fail (o.refusal column) := by
    unfold Filter.predicates
    rw [Traced.bind_of_error _ hnames]
    rfl
  unfold Options.buildWhere
  rw [hfilled, hpredicates]
  rfl

end Options

/-! ## Statements -/

/-- All columns of a request that is built are listed. -/
theorem Statement.listed_of_build {o : Options} {s : Statement} {fs : List Fragment}
    (h : (s.build o).result = .ok fs) : ∀ c ∈ s.columns, o.hasColumn c = true := by
  intro c hc
  cases s with
  | select q =>
      obtain ⟨f, hf, -⟩ := Traced.result_bind_eq_ok_iff.mp h
      obtain ⟨-, hselected, w, ordering, -, hwhere, hordering, -⟩ :=
        SelectQuery.build_eq_ok_iff.mp hf
      rcases List.mem_append.mp hc with hc | hc
      · rcases List.mem_append.mp hc with hc | hc
        · exact (hselected c hc).1
        · exact Options.listed_of_buildWhere hwhere c hc
      · exact Options.listed_of_buildOrderBy hordering c hc
  | count q =>
      obtain ⟨f, hf, -⟩ := Traced.result_bind_eq_ok_iff.mp h
      obtain ⟨-, w, hwhere, -⟩ := SelectQuery.buildCount_eq_ok hf
      exact Options.listed_of_buildWhere hwhere c hc
  | update q =>
      obtain ⟨f, hf, -⟩ := Traced.result_bind_eq_ok_iff.mp h
      obtain ⟨-, hassigned, w, hwhere, -⟩ := UpdateQuery.build_eq_ok hf
      rcases List.mem_append.mp hc with hc | hc
      · exact (hassigned c hc).1
      · exact Options.listed_of_buildWhere hwhere c hc
  | delete q =>
      obtain ⟨f, hf, -⟩ := Traced.result_bind_eq_ok_iff.mp h
      obtain ⟨-, w, hwhere, -⟩ := DeleteQuery.build_eq_ok hf
      exact Options.listed_of_buildWhere hwhere c hc
  | insert q =>
      obtain ⟨f, hf, -⟩ := Traced.result_bind_eq_ok_iff.mp h
      obtain ⟨-, hcolumns, -⟩ := InsertQuery.build_eq_ok hf
      exact (hcolumns c hc).1
  | insertMany b =>
      obtain ⟨p, hp, -⟩ := Traced.result_bind_eq_ok_iff.mp h
      obtain ⟨hb, -⟩ := BulkInsert.plan_eq_ok_iff.mp hp
      exact (hb.listed c hc).1

/-- What succeeds only if something holds fails if it does not. -/
theorem exists_error_of_not {ε α : Type} {x : Except ε α} {P : Prop}
    (h : ∀ a, x = .ok a → P) (hP : ¬P) : ∃ e, x = .error e := by
  cases x with
  | ok a => exact absurd (h a rfl) hP
  | error e => exact ⟨e, rfl⟩

/-- A reference to an unlisted column keeps a clause and a statement from being built, and the
first column of a filter that cannot be named gives the error before a condition is looked at. -/
theorem Options.whitelist_enforced (o : Options) :
    (∀ (s : Statement), ∀ c ∈ s.columns, c ∉ o.columns → ∃ e, (s.build o).result = .error e) ∧
    (∀ (f : Filter), ∀ c ∈ f.columns, c ∉ o.columns → ∃ e, (o.buildWhere f).result = .error e) ∧
    (∀ (sorts : List SortTerm), ∀ c ∈ sortColumns sorts, c ∉ o.columns →
      ∃ e, o.buildOrderBy sorts = .error e) ∧
    (∀ (f : Filter), (∃ c ∈ f.columns, ∃ e, o.columnName c = .error e) →
      ∃ c, o.RefusesFirst f.columns c ∧ o.buildWhere f = .fail (o.refusal c)) := by
  refine ⟨fun s c hc hunlisted => ?_, fun f c hc hunlisted => ?_, fun sorts c hc hunlisted => ?_,
    fun f hrefused => ?_⟩
  · exact exists_error_of_not
      (fun _ h => hasColumn_eq_true_iff.mp (Statement.listed_of_build h c hc)) hunlisted
  · exact exists_error_of_not
      (fun _ h => hasColumn_eq_true_iff.mp (listed_of_buildWhere h c hc)) hunlisted
  · exact exists_error_of_not
      (fun _ h => hasColumn_eq_true_iff.mp (listed_of_buildOrderBy h c hc)) hunlisted
  · obtain ⟨c, hc⟩ := exists_refusesFirst hrefused
    exact ⟨c, hc, hc.buildWhere⟩

/-- A filter whose second column is listed but has a blank segment; its conditions are malformed,
and one of them would be reported. -/
def Filter.misnamed : Filter :=
  ⟨[("y", .value .null), ("x.", .ops []), ("z", .list [])]⟩

/-- Options that list a column which cannot be quoted. -/
def Options.blankSegment : Options := .defaults .sqlite "t" ["x.", "y"]

theorem Options.whitelist_enforced_misnamed :
    (∃ e, ((Statement.delete ⟨.misnamed⟩).build .blankSegment).result = .error e) ∧
      ∃ c, Options.blankSegment.RefusesFirst Filter.misnamed.columns c ∧
        Options.blankSegment.buildWhere .misnamed = .fail (Options.blankSegment.refusal c) ∧
        Options.blankSegment.refusal c = .invalidIdentifier "x." := by
  obtain ⟨hstatements, -, -, hfilters⟩ := whitelist_enforced .blankSegment
  have hrefused : ∃ c ∈ Filter.misnamed.columns,
      ∃ e, Options.blankSegment.columnName c = .error e := ⟨"z", by decide, _, rfl⟩
  obtain ⟨c, hc, hfails⟩ := hfilters .misnamed hrefused
  have herror : (Options.blankSegment.buildWhere .misnamed).result =
      .error (.invalidIdentifier "x.") := rfl
  rw [hfails] at herror
  exact ⟨hstatements (.delete ⟨.misnamed⟩) "z" (by decide) (by decide), c, hc, hfails,
    Except.error.inj herror⟩

end BoundSql
