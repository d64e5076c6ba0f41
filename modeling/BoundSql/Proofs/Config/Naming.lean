import BoundSql.Proofs.Config.Resolution
import BoundSql.Proofs.Query.Whitelisting
import BoundSql.Proofs.Sql.Quotation

/-!
# Names of configured tables

A configuration is checked for names without visible content, but a name is quoted segment by
segment: each segment between its dots needs visible content of its own.  The two checks agree on
names without a dot.  A table whose names all pass the second check has statements, and the names
that do not are the only ones that a statement over the table refuses; if the name of the table is
among them then no statement can be built at all, although the configuration resolves.
-/

namespace BoundSql

/-! ## Errors of sequences -/

section Errors

variable {ε α β : Type} {E : ε → Prop}

/-- Whatever a computation fails with has a property. -/
def FailsWith (E : ε → Prop) (r : Except ε α) : Prop := ∀ e, r = .error e → E e

theorem failsWith_ok (a : α) : FailsWith E (.ok a) := fun _ h => nomatch h

theorem failsWith_error {e : ε} (h : E e) : FailsWith E (.error e : Except ε α) := by
  rintro _ ⟨⟩
  exact h

theorem FailsWith.bind {r : Except ε α} {f : α → Except ε β} (hr : FailsWith E r)
    (hf : ∀ a, FailsWith E (f a)) : FailsWith E (r >>= f) := by
  cases r with
  | error e => exact failsWith_error (hr e rfl)
  | ok a => exact hf a

theorem FailsWith.map {r : Except ε α} (hr : FailsWith E r) (f : α → β) :
    FailsWith E (r.map f) := by
  cases r with
  | error e => exact failsWith_error (hr e rfl)
  | ok a => exact failsWith_ok (f a)

theorem failsWith_mapM_id {rs : List (Except ε α)} (h : ∀ r ∈ rs, FailsWith E r) :
    FailsWith E (rs.mapM id) := by
  induction rs with
  | nil => exact failsWith_ok []
  | cons r rs ih =>
      rw [List.mapM_cons]
      refine (h r List.mem_cons_self).bind fun _ => ?_
      exact (ih fun r' hr' => h r' (List.mem_cons_of_mem r hr')).bind fun _ => failsWith_ok _

theorem Traced.failsWith_bind {x : Traced ε α} {f : α → Traced ε β} (hx : FailsWith E x.result)
    (hf : ∀ a, FailsWith E (f a).result) : FailsWith E (x >>= f).result := by
  cases h : x.result with
  | error e =>
      rw [Traced.bind_of_error f h]
      exact failsWith_error (hx e h)
  | ok a =>
      rw [Traced.bind_of_ok f h]
      exact hf a

end Errors

/-! ## Refused names -/

/-- All names that statements over a table may quote. -/
def TableConfig.names (t : TableConfig) : List String := t.name :: t.columns ++ t.idColumn.toList

namespace Options

/-- All names that statements under these options may quote. -/
def names (o : Options) : List String := o.table :: o.columns ++ o.idColumn.toList

/-- A refused name is one of the options and has a segment without visible content; other errors
are not restricted. -/
def Blames (o : Options) : QueryError → Prop
  | .invalidIdentifier name => name ∈ o.names ∧ ¬Name.Escapable name
  | _ => True

variable (o : Options)

theorem blames_quote {name : String} (h : name ∈ o.names) : FailsWith o.Blames (o.quote name) := by
  unfold quote
  by_cases hescapable : Name.Escapable name
  · rw [Identifier.ofString_eq_ok_iff.mpr ⟨hescapable, rfl⟩]
    exact failsWith_ok _
  · rw [Identifier.ofString_of_not_escapable hescapable]
    exact failsWith_error ⟨h, hescapable⟩

theorem blames_tableName : FailsWith o.Blames o.tableName :=
  (o.blames_quote (by simp [names])).map _

theorem blames_columnName (column : String) : FailsWith o.Blames (o.columnName column) := by
  unfold columnName
  split
  · rename_i hlisted
    have hmem : column ∈ o.columns := hasColumn_eq_true_iff.mp hlisted
    exact (o.blames_quote (by simp [names, hmem])).map _
  · exact failsWith_error trivial

theorem blames_columnNames (columns : List String) :
    FailsWith o.Blames (o.columnNames columns) := by
  induction columns with
  | nil => exact failsWith_ok []
  | cons column columns ih =>
      exact (o.blames_columnName column).bind fun _ => ih.bind fun _ => failsWith_ok _

theorem blames_idColumnName : FailsWith o.Blames o.idColumnName := by
  unfold idColumnName
  cases hid : o.idColumn with
  | none => exact failsWith_ok none
  | some column => exact (o.blames_quote (by simp [names, hid])).map _

end Options

/-! ## Clauses -/

section Clauses

variable (o : Options)

theorem Condition.blames_compileOp (column : String) (n : Name) (op : Operator)
    (operand : Operand) : FailsWith o.Blames (compileOp column n op operand).result := by
  unfold compileOp
  split
  · split
    · exact failsWith_error trivial
    · exact failsWith_ok _
  · split
    · split
      · exact failsWith_ok _
      · exact failsWith_error trivial
    · exact failsWith_ok _
    · exact failsWith_ok _
  · split
    · exact failsWith_error trivial
    · exact failsWith_error trivial
    · split
      · exact failsWith_error trivial
      split
      · exact failsWith_error trivial
      split <;> exact failsWith_ok _

theorem Condition.blames_compileOps (column : String) (n : Name)
    (entries : List (Operator × Operand)) :
    FailsWith o.Blames (compileOps column n entries).result := by
  induction entries with
  | nil => exact failsWith_ok []
  | cons entry entries ih =>
      refine Traced.failsWith_bind (blames_compileOp o column n _ _) fun _ => ?_
      exact Traced.failsWith_bind ih fun _ => failsWith_ok _

theorem Condition.blames_compile (column : String) (n : Name) (c : Condition) :
    FailsWith o.Blames (c.compile column n).result := by
  unfold compile
  split
  · exact failsWith_error trivial
  · exact blames_compileOps o column n _

theorem Filter.blames_compileEntries (entries : List ((String × Condition) × Name)) :
    FailsWith o.Blames (compileEntries entries).result := by
  induction entries with
  | nil => exact failsWith_ok []
  | cons entry entries ih =>
      refine Traced.failsWith_bind (Condition.blames_compile o _ _ _) fun _ => ?_
      exact Traced.failsWith_bind ih fun _ => failsWith_ok _

namespace Options

theorem blames_buildWhere (f : Filter) : FailsWith o.Blames (o.buildWhere f).result := by
  unfold buildWhere Filter.predicates
  split
  · exact failsWith_ok _
  · refine Traced.failsWith_bind ?_ fun _ => failsWith_ok _
    exact Traced.failsWith_bind (o.blames_columnNames _) fun _ => Filter.blames_compileEntries o _

theorem blames_sortTerms (sorts : List SortTerm) : FailsWith o.Blames (o.sortTerms sorts) := by
  induction sorts with
  | nil => exact failsWith_ok []
  | cons s sorts ih =>
      have hterm : FailsWith o.Blames (s.pieces o) := by
        unfold SortTerm.pieces
        cases s.target with
        | column column => exact (o.blames_columnName column).bind fun _ => failsWith_ok _
        | trusted expression => exact failsWith_ok _
      exact hterm.bind fun _ => ih.bind fun _ => failsWith_ok _

theorem blames_buildOrderBy (sorts : List SortTerm) :
    FailsWith o.Blames (o.buildOrderBy sorts) := by
  unfold buildOrderBy
  split
  · exact failsWith_ok _
  · exact (o.blames_sortTerms sorts).bind fun _ => failsWith_ok _

theorem blames_buildPagination (p : Page) (ordered : Bool) :
    FailsWith o.Blames (o.buildPagination p ordered) := by
  have hwindow : FailsWith o.Blames (p.window o.maxPageSize) := by
    unfold Page.window
    split
    · exact failsWith_error trivial
    split
    · exact failsWith_error trivial
    split
    · exact failsWith_error trivial
    · exact failsWith_ok _
  unfold buildPagination
  refine hwindow.bind fun _ => ?_
  split
  · exact failsWith_ok _
  · split
    · exact failsWith_ok _
    · exact failsWith_error trivial

theorem blames_insertNames (columns : List String) :
    FailsWith o.Blames (o.insertNames columns) := by
  unfold insertNames
  split
  · exact failsWith_error trivial
  · exact o.blames_columnNames columns

theorem blames_batchSize (width maxParams : Nat) (maxRows : Option Nat) :
    FailsWith o.Blames (batchSize width maxParams maxRows) := by
  unfold batchSize
  split
  · exact failsWith_error trivial
  split
  · exact failsWith_error trivial
  split <;> exact failsWith_ok _

theorem blames_renderInsert (names : List Name) (rows : Nat) :
    FailsWith o.Blames (o.renderInsert names rows) :=
  o.blames_tableName.bind fun _ => o.blames_idColumnName.bind fun _ => failsWith_ok _

end Options

end Clauses

/-! ## Statements -/

section Statements

variable (o : Options)

theorem SelectQuery.blames_build (q : SelectQuery) : FailsWith o.Blames (q.build o).result := by
  have hselection : FailsWith o.Blames (selection o q.columns) := by
    unfold selection
    split
    · exact failsWith_ok _
    · exact (o.blames_columnNames _).bind fun _ => failsWith_ok _
  have hpagination (ordered : Bool) : FailsWith o.Blames (q.pagination o ordered) := by
    unfold pagination
    split
    · exact failsWith_ok _
    · exact (o.blames_buildPagination _ ordered).map _
  refine Traced.failsWith_bind o.blames_tableName fun _ => ?_
  refine Traced.failsWith_bind hselection fun _ => ?_
  refine Traced.failsWith_bind (o.blames_buildWhere _) fun _ => ?_
  refine Traced.failsWith_bind (o.blames_buildOrderBy _) fun _ => ?_
  exact Traced.failsWith_bind (hpagination _) fun _ => failsWith_ok _

theorem SelectQuery.blames_buildCount (q : SelectQuery) :
    FailsWith o.Blames (q.buildCount o).result := by
  refine Traced.failsWith_bind o.blames_tableName fun _ => ?_
  exact Traced.failsWith_bind (o.blames_buildWhere _) fun _ => failsWith_ok _

theorem UpdateQuery.blames_assignedNames (seen columns : List String) :
    FailsWith o.Blames (assignedNames o seen columns) := by
  induction columns generalizing seen with
  | nil => exact failsWith_ok []
  | cons column columns ih =>
      unfold assignedNames
      split
      · exact failsWith_error trivial
      · exact (o.blames_columnName column).bind fun _ => (ih _).bind fun _ => failsWith_ok _

theorem UpdateQuery.blames_build (q : UpdateQuery) : FailsWith o.Blames (q.build o).result := by
  unfold build
  split
  · exact failsWith_error trivial
  · refine Traced.failsWith_bind o.blames_tableName fun _ => ?_
    refine Traced.failsWith_bind (blames_assignedNames o _ _) fun _ => ?_
    exact Traced.failsWith_bind (o.blames_buildWhere _) fun _ => failsWith_ok _

theorem DeleteQuery.blames_build (q : DeleteQuery) : FailsWith o.Blames (q.build o).result := by
  refine Traced.failsWith_bind o.blames_tableName fun _ => ?_
  exact Traced.failsWith_bind (o.blames_buildWhere _) fun _ => failsWith_ok _

theorem InsertQuery.blames_build (q : InsertQuery) : FailsWith o.Blames (q.build o).result := by
  refine Traced.failsWith_bind (x := .ofExcept (q.fragment o)) ?_ fun _ => failsWith_ok _
  show FailsWith o.Blames (q.fragment o)
  unfold fragment
  split
  · exact failsWith_error trivial
  · refine (o.blames_insertNames _).bind fun _ => ?_
    refine (o.blames_batchSize _ _ _).bind fun _ => ?_
    exact (o.blames_renderInsert _ _).bind fun _ => failsWith_ok _

theorem BulkInsert.blames_plan (b : BulkInsert) : FailsWith o.Blames (b.plan o).result := by
  refine Traced.failsWith_bind (x := .ofExcept (b.statements o)) ?_ fun _ => failsWith_ok _
  show FailsWith o.Blames (b.statements o)
  unfold statements
  split
  · exact failsWith_error trivial
  · refine (o.blames_insertNames _).bind fun names => ?_
    split
    · exact failsWith_error trivial
    · refine (o.blames_batchSize _ _ _).bind fun size => ?_
      refine FailsWith.bind (failsWith_mapM_id fun r hr => ?_) fun _ => failsWith_ok _
      obtain ⟨i, hi, rfl⟩ := List.mem_mapIdx.mp hr
      exact (o.blames_renderInsert names _).bind fun _ => failsWith_ok _

/-- A statement over a table refuses no names but those of its options that cannot be quoted. -/
theorem Statement.blames_build (s : Statement) : FailsWith o.Blames (s.build o).result := by
  cases s with
  | select q => exact Traced.failsWith_bind (q.blames_build o) fun _ => failsWith_ok _
  | count q => exact Traced.failsWith_bind (q.blames_buildCount o) fun _ => failsWith_ok _
  | update q => exact Traced.failsWith_bind (q.blames_build o) fun _ => failsWith_ok _
  | delete q => exact Traced.failsWith_bind (q.blames_build o) fun _ => failsWith_ok _
  | insert q => exact Traced.failsWith_bind (q.blames_build o) fun _ => failsWith_ok _
  | insertMany b => exact Traced.failsWith_bind (b.blames_plan o) fun _ => failsWith_ok _

/-- Every statement quotes the name of the table. -/
theorem Statement.escapable_table_of_build {o : Options} {s : Statement} {fs : List Fragment}
    (h : (s.build o).result = .ok fs) : Name.Escapable o.table := by
  cases s with
  | select q =>
      obtain ⟨f, hf, -⟩ := Traced.result_bind_eq_ok_iff.mp h
      exact (SelectQuery.build_eq_ok_iff.mp hf).1
  | count q =>
      obtain ⟨f, hf, -⟩ := Traced.result_bind_eq_ok_iff.mp h
      exact (SelectQuery.buildCount_eq_ok hf).1
  | update q =>
      obtain ⟨f, hf, -⟩ := Traced.result_bind_eq_ok_iff.mp h
      exact (UpdateQuery.build_eq_ok hf).1
  | delete q =>
      obtain ⟨f, hf, -⟩ := Traced.result_bind_eq_ok_iff.mp h
      exact (DeleteQuery.build_eq_ok hf).1
  | insert q =>
      obtain ⟨f, hf, -⟩ := Traced.result_bind_eq_ok_iff.mp h
      exact (InsertQuery.build_eq_ok hf).1
  | insertMany b =>
      obtain ⟨p, hp, -⟩ := Traced.result_bind_eq_ok_iff.mp h
      exact (BulkInsert.plan_eq_ok_iff.mp hp).1.table

end Statements

/-! ## Configured names -/

/-- A name without a dot is its own and only segment. -/
theorem Name.escapable_of_undotted {name : String} (hdot : '.' ∉ name.toList)
    (hvisible : Text.isBlank name = false) : Escapable name := by
  intro segment hsegment
  rw [segments, List.splitOn_eq_singleton hdot, List.mem_singleton] at hsegment
  rw [hsegment]
  exact hvisible

/-- The table, every listed column and the identifier column, if there is one, can be quoted. -/
structure Options.Quotable (o : Options) : Prop where
  table : ∃ n, o.tableName = .ok n
  columns : ∀ c ∈ o.columns, ∃ n, o.columnName c = .ok n
  idColumn : ∃ n, o.idColumnName = .ok n

theorem Options.quotable_iff {o : Options} :
    o.Quotable ↔ ∀ name ∈ o.names, Name.Escapable name := by
  constructor
  · rintro ⟨⟨n, hn⟩, hcolumns, ⟨id, hid⟩⟩ name hname
    simp only [names, List.cons_append, List.mem_cons, List.mem_append, Option.mem_toList] at hname
    rcases hname with rfl | hcolumn | hidColumn
    · exact (tableName_eq_ok_iff.mp hn).1
    · obtain ⟨m, hm⟩ := hcolumns name hcolumn
      exact (columnName_eq_ok_iff.mp hm).2.1
    · exact (idColumnName_eq_ok_iff.mp hid).1 name hidColumn
  · intro h
    refine ⟨⟨_, tableName_eq_ok_iff.mpr ⟨h _ (by simp [names]), rfl⟩⟩, fun c hc => ?_,
      ⟨_, idColumnName_eq_ok_iff.mpr ⟨fun c hc => h c ?_, rfl⟩⟩⟩
    · have hescapable : Name.Escapable c := h c (by simp [names, hc])
      exact ⟨_, columnName_eq_ok_iff.mpr ⟨hasColumn_eq_true_iff.mpr hc, hescapable, rfl⟩⟩
    · have hid : o.idColumn = some c := hc
      simp [names, hid]

theorem Options.visible_of_mem_names {o : Options} (h : o.validate = .ok ()) {name : String}
    (hname : name ∈ o.names) : Text.isBlank name = false := by
  obtain ⟨hsound, hidColumn⟩ := validate_eq_ok_iff.mp h
  simp only [names, List.cons_append, List.mem_cons, List.mem_append, Option.mem_toList] at hname
  rcases hname with rfl | hcolumn | hid
  · exact hsound.table
  · exact hsound.columns name hcolumn
  · exact hidColumn name hid

namespace Config

/-- A resolved configuration serves every table.  The names of the table can be quoted exactly if
all their segments are visible, which holds of those without a dot; a statement refuses no other
names, and none is built over a table whose own name cannot be quoted. -/
theorem resolved_names {c r : Config} (h : c.resolve.result = .ok r) {t : TableConfig}
    (ht : t ∈ c.tables) :
    ∃ o, (r.optionsFor t.name).result = .ok o ∧
      (o.Quotable ↔ ∀ name ∈ t.names, Name.Escapable name) ∧
      (∀ name ∈ t.names, '.' ∉ name.toList → Name.Escapable name) ∧
      (∀ (s : Statement) (name : String),
        (s.build o).result = .error (.invalidIdentifier name) →
          name ∈ t.names ∧ ¬Name.Escapable name) ∧
      (¬Name.Escapable t.name → ∀ s : Statement, ∃ e, (s.build o).result = .error e) := by
  have hserves := (resolve_serves_as_written c).2 r h
  have hvalid : (c.written t).validate = .ok () := by
    cases resolve_eq_iff.mp h with
    | resolved _ hvalid => exact hvalid t ht
  refine ⟨c.written t, hserves.listed t ht, Options.quotable_iff, fun name hname hdot => ?_,
    fun s name he => s.blames_build _ _ he, fun htable s => ?_⟩
  · exact Name.escapable_of_undotted hdot (Options.visible_of_mem_names hvalid hname)
  · exact exists_error_of_not (fun _ => Statement.escapable_table_of_build) htable

/-- A table that is qualified, with a column that ends in a dot and an identifier column that is
not among its columns. -/
def qualifiedTable : TableConfig := ⟨"main.users", ["name", "profile."], some "id", none, none⟩

def qualified : Config := { default with tables := [qualifiedTable] }

theorem resolved_names_qualified :
    ∃ o, (qualified.withDefaults.optionsFor "main.users").result = .ok o ∧ ¬o.Quotable ∧
      Name.Escapable "id" ∧
      ((Statement.delete ⟨.empty⟩).build o).result ≠ .error (.invalidIdentifier "main.users") := by
  have hresolves : qualified.Resolves (.ok qualified.withDefaults) :=
    .resolved (by decide) (by decide)
  obtain ⟨o, hserved, hquotable, hundotted, hrefused, -⟩ :=
    resolved_names (resolve_eq_iff.mpr hresolves) (t := qualifiedTable) List.mem_cons_self
  refine ⟨o, hserved, fun h => ?_, hundotted "id" (by decide) (by decide), fun h => ?_⟩
  · exact absurd (hquotable.mp h "profile." (by decide)) (by decide)
  · exact (hrefused _ _ h).2 (by decide)

/-- A table with a blank segment in its name, which is visible as a whole. -/
def gappedTable : TableConfig := ⟨"a..b", ["x"], none, none, none⟩

def gapped : Config := { default with tables := [gappedTable] }

/-- The configuration resolves and every query over its table fails on the name of the table. -/
theorem gapped_resolves_unbuildable :
    gapped.resolve.result = .ok gapped ∧
      ∃ o, (gapped.optionsFor "a..b").result = .ok o ∧
        o.tableName = .error (.invalidIdentifier "a..b") ∧
        ∀ q : SelectQuery, (q.build o).result = .error (.invalidIdentifier "a..b") := by
  have hresolves : gapped.Resolves (.ok gapped.withDefaults) := .resolved (by decide) (by decide)
  have hresolved : gapped.resolve.result = .ok gapped := resolve_eq_iff.mpr hresolves
  have hserves := (resolve_serves_as_written gapped).2 gapped hresolved
  have hrefused : (gapped.written gappedTable).tableName = .error (.invalidIdentifier "a..b") := by
    rw [Options.tableName, Options.quote, Identifier.ofString_of_not_escapable (by decide)]
    rfl
  refine ⟨hresolved, _, hserves.listed gappedTable List.mem_cons_self, hrefused, fun q => ?_⟩
  have htable : (Traced.ofExcept (gapped.written gappedTable).tableName).result =
      .error (.invalidIdentifier "a..b") := hrefused
  rw [SelectQuery.build, Traced.bind_of_error _ htable]

end Config

end BoundSql
