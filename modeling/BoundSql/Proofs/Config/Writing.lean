import BoundSql.Config.File
import BoundSql.Proofs.Options.RoundTrip
import BoundSql.Proofs.Toml.Annotation
import BoundSql.Proofs.Toml.Outline
import BoundSql.Proofs.Toml.Tree
import Mathlib.Algebra.Order.Group.Nat

/-!
# Written configurations read back

A configuration is written as a document of plain keys: its own, and behind them either an empty
list of tables or a header with the keys of a table for each of them.  Whatever texts it holds,
reading gives the configuration back, so a saved file loads as the configuration resolves.

Annotating edits what was written.  An editor holds integers of sixty-four bits with a sign, while
the numbers of a configuration have none: a configuration that gives a number of 2^63 or more is
written and read back, and is the only kind that cannot be annotated.  In every other annotated
text there are further comment lines in front of the keys up to the second table, and nothing else
is changed.

Nothing is claimed of files: that a written text is found again is left to what stores it.
-/

namespace BoundSql

open Toml (Statement)

/-! ## Values -/

namespace Toml

theorem readCount_toNat (n : UInt64) : readCount (.int n.toNat) = some n := by
  have hrange : (0 : Int) ≤ n.toNat ∧ (n.toNat : Int) < UInt64.size := by
    have := n.toNat_lt
    refine ⟨Int.natCast_nonneg _, ?_⟩
    exact_mod_cast this
  rw [readCount, if_pos hrange, Int.toNat_natCast, UInt64.ofNat_toNat]

theorem readTexts_str (ss : List String) : readTexts (.arr false (ss.map .str)) = some ss := by
  show (ss.map .str).mapM readText = some ss
  induction ss with
  | nil => rfl
  | cons s ss ih =>
      rw [List.map_cons, List.mapM_cons, ih]
      rfl

/-- The keys of an absent or present value. -/
theorem sublist_optional {α : Type} (key : String) (f : α → Toml) (v : Option α) :
    ((v.map fun a => (key, f a)).toList.map Prod.fst).Sublist [key] := by
  cases v <;> simp

theorem onlyKeys_of_sublist {members : Members} {keys : List String}
    (h : (members.map Prod.fst).Sublist keys) : members.onlyKeys keys = true := by
  refine List.all_eq_true.mpr fun m hm => ?_
  simpa using h.subset (List.mem_map_of_mem hm)

/-- Among distinct keys, a key that stands in front of a value exactly if there is one. -/
theorem readOptional_of_mem_iff {α : Type} {members : Members}
    (hnodup : (members.map Prod.fst).Nodup) {key : String} {f : α → Toml}
    {read : Toml → Option α} {v : Option α} (hread : ∀ a, read (f a) = some a)
    (hmem : ∀ a, (key, a) ∈ members ↔ a ∈ v.map f) : members.readOptional key read = some v := by
  have hget : members.get? key = v.map f :=
    Option.ext fun a => (lookup_eq_some_iff_of_nodup hnodup).trans (hmem a)
  rw [Members.readOptional, hget]
  cases v with
  | none => rfl
  | some a =>
      show (read (f a)).map some = _
      rw [hread]
      rfl

/-! ## Numbers of sixty-three bits -/

/-- Whether the integers of a clause fit sixty-four bits with a sign. -/
def Clause.isNarrow : Clause → Bool
  | .assignment _ v => v.isNarrow
  | _ => true

theorem isNarrow_document (d : Document) :
    d.isNarrow = (d.statements.map Statement.clause).all Clause.isNarrow := by
  rw [Document.isNarrow, List.all_map]
  rfl

theorem isNarrow_count (n : UInt64) : isNarrow (.int n.toNat) = true ↔ n.toNat < 2 ^ 63 := by
  have hmin : Int64.minValue.toInt = -(2 ^ 63) := rfl
  have hmax : Int64.maxValue.toInt = 2 ^ 63 - 1 := rfl
  rw [isNarrow, hmin, hmax, decide_eq_true_iff]
  omega

theorem isNarrow_texts (ss : List String) : isNarrow (.arr false (ss.map .str)) = true := by
  rw [isNarrow]
  induction ss with
  | nil => rfl
  | cons s ss ih => exact ih

theorem forall_mem_optional {α : Type} (key : String) (f : α → Toml) (v : Option α) :
    (∀ e ∈ (v.map fun a => (key, f a)).toList, e.2.isNarrow = true) ↔
      ∀ a ∈ v.toList, (f a).isNarrow = true := by
  cases v <;> simp

theorem forall_mem_counts (key : String) (v : Option UInt64) :
    (∀ e ∈ (v.map fun n => (key, Toml.int n.toNat)).toList, e.2.isNarrow = true) ↔
      ∀ n ∈ v.toList, n.toNat < 2 ^ 63 := by
  rw [forall_mem_optional]
  simp only [isNarrow_count]

end Toml

/-! ## Tables -/

namespace TableConfig

/-- The keys of a table and their values, in the order in which they are written. -/
def entries (t : TableConfig) : Toml.Members :=
  [(nameKey, .str t.name), (OptionKey.columns.name, .arr false (t.columns.map .str))] ++
    (t.idColumn.map fun s => (OptionKey.idColumn.name, Toml.str s)).toList ++
    (t.maxParams.map fun n => (OptionKey.maxParams.name, Toml.int n.toNat)).toList ++
    (t.maxInsertRows.map fun n => (OptionKey.maxInsertRows.name, Toml.int n.toNat)).toList

theorem clauses_statements (t : TableConfig) :
    t.statements.map Statement.clause =
      Toml.elementClause Config.tablesKey :: t.entries.map Toml.entryClause := by
  obtain ⟨name, columns, id, params, rows⟩ := t
  cases id <;> cases params <;> cases rows <;> rfl

/-- The statements of a table behind its header. -/
def body (t : TableConfig) : List Statement := t.statements.tail

theorem assignments_body (t : TableConfig) : Toml.Assignments t.body := by
  intro s hs
  simp only [body, statements, List.tail_cons, List.cons_append, List.nil_append, List.mem_append,
    List.mem_cons, Option.mem_toList, Option.map_eq_some_iff] at hs
  rcases hs with rfl | rfl | (⟨id, -, rfl⟩ | ⟨n, -, rfl⟩) | ⟨n, -, rfl⟩
  all_goals exact ⟨_, _, _, rfl⟩

theorem sublist_entries (t : TableConfig) : (t.entries.map Prod.fst).Sublist keys := by
  have hkeys : keys = [nameKey, OptionKey.columns.name] ++ [OptionKey.idColumn.name] ++
      [OptionKey.maxParams.name] ++ [OptionKey.maxInsertRows.name] := rfl
  rw [hkeys, entries, List.map_append, List.map_append, List.map_append]
  refine ((List.Sublist.append ?_ ?_).append ?_).append ?_
  · exact List.Sublist.refl _
  · exact Toml.sublist_optional _ Toml.str _
  · exact Toml.sublist_optional _ (fun n : UInt64 => Toml.int n.toNat) _
  · exact Toml.sublist_optional _ (fun n : UInt64 => Toml.int n.toNat) _

theorem nodup_entries (t : TableConfig) : (t.entries.map Prod.fst).Nodup :=
  t.sublist_entries.nodup (by decide)

theorem ofMembers?_entries (t : TableConfig) : ofMembers? t.entries = some t := by
  have hkeys := Toml.onlyKeys_of_sublist t.sublist_entries
  have hname : t.entries.read nameKey Toml.readText = some t.name := rfl
  have hcolumns : t.entries.read OptionKey.columns.name Toml.readTexts = some t.columns :=
    Toml.readTexts_str t.columns
  have hid : t.entries.readOptional OptionKey.idColumn.name Toml.readText = some t.idColumn :=
    Toml.readOptional_of_mem_iff t.nodup_entries (f := Toml.str) (fun _ => rfl)
      (by simp [entries, nameKey, OptionKey.name, eq_comm])
  have hparams : t.entries.readOptional OptionKey.maxParams.name Toml.readCount =
      some t.maxParams :=
    Toml.readOptional_of_mem_iff t.nodup_entries Toml.readCount_toNat
      (by simp [entries, nameKey, OptionKey.name, eq_comm])
  have hrows : t.entries.readOptional OptionKey.maxInsertRows.name Toml.readCount =
      some t.maxInsertRows :=
    Toml.readOptional_of_mem_iff t.nodup_entries Toml.readCount_toNat
      (by simp [entries, nameKey, OptionKey.name, eq_comm])
  rw [ofMembers?, hkeys, hname, hcolumns, hid, hparams, hrows]
  rfl

theorem written_statements (t : TableConfig) : ∀ s ∈ t.statements, s.Written := by
  intro s hs
  simp only [statements, List.mem_append, List.mem_cons, Option.mem_toList, Option.map_eq_some_iff,
    List.not_mem_nil, or_false] at hs
  rcases hs with (((rfl | rfl | rfl) | ⟨id, -, rfl⟩) | ⟨n, -, rfl⟩) | ⟨n, -, rfl⟩
  · exact ⟨Toml.legible_element (by decide), Or.inr rfl⟩
  · exact ⟨Toml.legible_assign (by decide) (Toml.legible_text _ _), Or.inl rfl⟩
  · exact ⟨Toml.legible_assign (by decide) (Toml.legible_texts 79 _), Or.inl rfl⟩
  · exact ⟨Toml.legible_assign (by decide) (Toml.legible_text _ _), Or.inl rfl⟩
  · exact ⟨Toml.legible_assign (by decide) (Toml.legible_count _ _), Or.inl rfl⟩
  · exact ⟨Toml.legible_assign (by decide) (Toml.legible_count _ _), Or.inl rfl⟩

end TableConfig

/-! ## Configurations -/

namespace Config

/-- The keys of a configuration and their values, apart from the tables. -/
def entries (c : Config) : Toml.Members :=
  [(OptionKey.dialect.name, .str c.dialect.name)] ++
    (c.maxPageSize.map fun n => (OptionKey.maxPageSize.name, Toml.int n.toNat)).toList

/-- The value of the tables: an array that headers add to, if there are any. -/
def tablesValue : List TableConfig → Toml
  | [] => .arr false []
  | ts => .arr true (ts.map fun t => .table .header t.entries)

/-- The tree of a configuration. -/
def tree (c : Config) : Toml.Members := c.entries ++ [(tablesKey, tablesValue c.tables)]

theorem sublist_entries (c : Config) :
    (c.entries.map Prod.fst).Sublist [OptionKey.dialect.name, OptionKey.maxPageSize.name] := by
  rw [entries, List.map_append]
  exact (List.Sublist.refl [OptionKey.dialect.name]).append
    (Toml.sublist_optional _ (fun n : UInt64 => Toml.int n.toNat) _)

theorem sublist_tree (c : Config) : (c.tree.map Prod.fst).Sublist keys := by
  rw [tree, List.map_append]
  exact c.sublist_entries.append (List.Sublist.refl [tablesKey])

theorem nodup_tree (c : Config) : (c.tree.map Prod.fst).Nodup :=
  c.sublist_tree.nodup (by decide)

theorem clauses_document (c : Config) :
    c.document.statements.map Statement.clause =
      c.entries.map Toml.entryClause ++ (tableStatements c.tables).map Statement.clause := by
  obtain ⟨dialect, page, tables⟩ := c
  cases page <;> rfl

theorem clauses_tableStatements (t : TableConfig) (ts : List TableConfig) :
    (tableStatements (t :: ts)).map Statement.clause =
      Toml.arrayClauses tablesKey ((t :: ts).map TableConfig.entries) := by
  show ((t :: ts).flatMap TableConfig.statements).map Statement.clause = _
  simp only [Toml.arrayClauses, List.map_flatMap, List.flatMap_map,
    TableConfig.clauses_statements]

/-- The document of a configuration has its tree. -/
theorem members?_document (c : Config) : c.document.members? = some c.tree := by
  have hnodup := c.nodup_tree
  rw [Toml.Document.members?, clauses_document]
  unfold tree at hnodup ⊢
  cases htables : c.tables with
  | nil =>
      rw [htables] at hnodup
      have hbuild := Toml.build_entries [] (c.entries ++ [(tablesKey, tablesValue [])]) hnodup []
      rw [List.map_append, List.append_assoc] at hbuild
      exact hbuild
  | cons t ts =>
      have hkey : tablesKey ∉ c.entries.map Prod.fst := fun h =>
        absurd (c.sublist_entries.subset h) (by decide)
      have hentries : ∀ entries ∈ t.entries :: ts.map TableConfig.entries,
          (entries.map Prod.fst).Nodup := by
        intro entries hmem
        obtain ⟨u, -, rfl⟩ := List.mem_map.mp (List.map_cons ▸ hmem)
        exact u.nodup_entries
      rw [clauses_tableStatements, List.map_cons,
        Toml.build_document (c.sublist_entries.nodup (by decide)) hkey hentries]
      simp [Toml.withArray, tablesValue, Function.comp_def]

theorem readTables_tablesValue (ts : List TableConfig) :
    readTables (tablesValue ts) = some ts := by
  have hitems : (ts.map fun t => Toml.table .header t.entries).mapM TableConfig.ofToml? =
      some ts := by
    induction ts with
    | nil => rfl
    | cons t ts ih =>
        have ht : TableConfig.ofToml? (.table .header t.entries) = some t := t.ofMembers?_entries
        rw [List.map_cons, List.mapM_cons, ht, ih]
        rfl
  cases ts with
  | nil => rfl
  | cons t ts => exact hitems

/-- The tree of a configuration is read as the configuration. -/
theorem ofMembers?_tree (c : Config) : ofMembers? c.tree = some c := by
  have hkeys := Toml.onlyKeys_of_sublist c.sublist_tree
  have hdialect : c.tree.read OptionKey.dialect.name Toml.readDialect = some c.dialect :=
    Dialect.ofName?_name c.dialect
  have hpage : c.tree.readOptional OptionKey.maxPageSize.name Toml.readCount =
      some c.maxPageSize :=
    Toml.readOptional_of_mem_iff c.nodup_tree Toml.readCount_toNat
      (by simp [tree, entries, tablesKey, OptionKey.name, eq_comm])
  have hget : c.tree.get? tablesKey = some (tablesValue c.tables) :=
    (lookup_eq_some_iff_of_nodup c.nodup_tree).mpr (by simp [tree])
  have htables : c.tree.read tablesKey readTables = some c.tables := by
    rw [Toml.Members.read, hget, Option.bind_some, readTables_tablesValue]
  rw [ofMembers?, hkeys, hdialect, hpage, htables]
  rfl

theorem written_document (c : Config) : ∀ s ∈ c.document.statements, s.Written := by
  intro s hs
  simp only [document, List.mem_append, List.mem_singleton, Option.mem_toList,
    Option.map_eq_some_iff] at hs
  rcases hs with (rfl | ⟨n, -, rfl⟩) | hs
  · exact ⟨Toml.legible_assign (by decide) (Toml.legible_text _ _), Or.inl rfl⟩
  · exact ⟨Toml.legible_assign (by decide) (Toml.legible_count _ _), Or.inl rfl⟩
  · cases htables : c.tables with
    | nil =>
        rw [htables] at hs
        cases List.mem_singleton.mp hs
        exact ⟨Toml.legible_assign (by decide) (Toml.legible_texts 79 _), Or.inl rfl⟩
    | cons t ts =>
        rw [htables] at hs
        obtain ⟨u, -, hu⟩ := List.mem_flatMap.mp hs
        exact u.written_statements s hu

/-- Any document that says what a configuration is written as is read as the configuration. -/
theorem parse_of_clauses {c : Config} {ss : List Statement} (hlines : Toml.Lines ss)
    (hclauses : ss.map Statement.clause = c.document.statements.map Statement.clause) :
    parse (Toml.Document.text ⟨ss, []⟩) = .ok c := by
  have hmembers : Toml.Document.members? ⟨ss, []⟩ = some c.tree := by
    rw [← members?_document, Toml.Document.members?, hclauses]
    rfl
  rw [parse, Toml.Document.parse?_text hlines, Option.bind_some, hmembers, Option.bind_some,
    ofMembers?_tree]

/-- A written configuration is read back. -/
theorem parse_text (c : Config) : parse c.text = .ok c :=
  parse_of_clauses (fun s hs => (c.written_document s hs).line) rfl

/-- The statements in front of those of the tables. -/
def frontStatements (c : Config) : List Statement :=
  .text OptionKey.dialect.name c.dialect.name ::
    (c.maxPageSize.map fun n => .count OptionKey.maxPageSize.name n.toNat).toList

theorem assignments_frontStatements (c : Config) : Toml.Assignments c.frontStatements := by
  intro s hs
  simp only [frontStatements, List.mem_cons, Option.mem_toList, Option.map_eq_some_iff] at hs
  rcases hs with rfl | ⟨n, -, rfl⟩
  all_goals exact ⟨_, _, _, rfl⟩

theorem lacks_frontStatements (c : Config) :
    Toml.Outline.Lacks (Toml.Outline.leaves c.frontStatements) tablesKey := by
  obtain ⟨dialect, page, tables⟩ := c
  cases page <;>
    simp [Toml.Outline.Lacks, Toml.Outline.leaves, frontStatements, Statement.text,
      Statement.count, Statement.assign, Toml.Clause.path, Toml.Path.bare, Toml.Key.bare,
      OptionKey.name, tablesKey]

/-- A written configuration stands in the order in which an editor keeps it. -/
theorem arranged_document (c : Config) :
    Toml.arranged c.document.statements = c.document.statements := by
  show Toml.arranged (c.frontStatements ++ tableStatements c.tables) =
    c.frontStatements ++ tableStatements c.tables
  cases c.tables with
  | nil =>
      refine Toml.arranged_assignments fun s hs => ?_
      rcases List.mem_append.mp hs with hs | hs
      · exact c.assignments_frontStatements s hs
      · exact ⟨tablesKey, .arr false [], Toml.arrayChars [], List.mem_singleton.mp hs⟩
  | cons t ts =>
      have hbodies : ∀ ss ∈ t.body :: ts.map TableConfig.body, Toml.Assignments ss := by
        intro ss hss
        obtain ⟨u, -, rfl⟩ := List.mem_map.mp (List.map_cons ▸ hss)
        exact u.assignments_body
      have harray : tableStatements (t :: ts) =
          Toml.Outline.arrayStatements tablesKey (t.body :: ts.map TableConfig.body) := by
        rw [← List.map_cons, Toml.Outline.arrayStatements, List.flatMap_map]
        rfl
      rw [harray]
      exact Toml.arranged_arrayStatements c.assignments_frontStatements hbodies
        c.lacks_frontStatements

/-- A written configuration can be edited if its numbers fit sixty-four bits with a sign, and what
is edited is what was written. -/
theorem parseEditable?_text (c : Config) :
    Toml.Document.parseEditable? c.text =
      if c.document.isNarrow then some c.document else none := by
  have hparse : Toml.Document.parse? c.text = some c.document :=
    Toml.Document.parse?_text fun s hs => (c.written_document s hs).line
  rw [Toml.Document.parseEditable?, hparse]
  simp only [Option.bind_eq_bind, Option.bind_some, members?_document, arranged_document]
  rfl

/-- What is annotated of a configuration is the document that it is written as. -/
theorem annotated_eq (c : Config) :
    c.annotated =
      if c.document.isNarrow then
        .ok ((c.document.annotateFields docs []).annotateFields TableConfig.docs [tablesKey])
      else .error .unannotatable := by
  have hedit := c.parseEditable?_text
  unfold annotated
  by_cases hnarrow : c.document.isNarrow = true
  · rewrite [if_pos hnarrow] at hedit ⊢
    rewrite [hedit]
    exact rfl
  · rewrite [if_neg hnarrow] at hedit ⊢
    rewrite [hedit]
    exact rfl

theorem load_eq_resolve {text : String} {c : Config} (h : parse text = .ok c) :
    load text = c.resolve := by
  have hresult : (Traced.ofExcept (parse text)).result = .ok c := h
  rw [load, Traced.bind_of_ok _ hresult]
  rfl

/-! ## Annotated configurations -/

/-- The numbers that a configuration gives. -/
def counts (c : Config) : List UInt64 :=
  c.maxPageSize.toList ++
    c.tables.flatMap fun t => t.maxParams.toList ++ t.maxInsertRows.toList

theorem isNarrow_entries (t : TableConfig) :
    (∀ e ∈ t.entries, e.2.isNarrow = true) ↔
      ∀ n ∈ t.maxParams.toList ++ t.maxInsertRows.toList, n.toNat < 2 ^ 63 := by
  have hname : Toml.isNarrow (.str t.name) = true := rfl
  have hcolumns := Toml.isNarrow_texts t.columns
  have hid : ∀ e ∈ (t.idColumn.map fun s => (OptionKey.idColumn.name, Toml.str s)).toList,
      e.2.isNarrow = true := (Toml.forall_mem_optional _ _ _).mpr fun _ _ => rfl
  have hparams := Toml.forall_mem_counts OptionKey.maxParams.name t.maxParams
  have hrows := Toml.forall_mem_counts OptionKey.maxInsertRows.name t.maxInsertRows
  simp only [TableConfig.entries, List.forall_mem_append, List.forall_mem_cons, hname, hcolumns,
    hparams, hrows, List.not_mem_nil, false_implies, implies_true, and_true, true_and]
  exact ⟨fun h => ⟨h.1.2, h.2⟩, fun h => ⟨⟨hid, h.1⟩, h.2⟩⟩

theorem isNarrow_tableStatements (ts : List TableConfig) :
    ((tableStatements ts).map Statement.clause).all Toml.Clause.isNarrow = true ↔
      ∀ n ∈ ts.flatMap fun t => t.maxParams.toList ++ t.maxInsertRows.toList,
        n.toNat < 2 ^ 63 := by
  cases ts with
  | nil =>
      have hnone : ((tableStatements []).map Statement.clause).all Toml.Clause.isNarrow = true :=
        rfl
      simp [hnone]
  | cons t ts =>
      have hentry (t : TableConfig) :
          (Toml.elementClause tablesKey :: t.entries.map Toml.entryClause).all
            Toml.Clause.isNarrow = true ↔
          ∀ n ∈ t.maxParams.toList ++ t.maxInsertRows.toList, n.toNat < 2 ^ 63 := by
        rw [← isNarrow_entries, List.all_cons, List.all_map, List.all_eq_true.symm]
        rfl
      rw [clauses_tableStatements, Toml.arrayClauses, List.flatMap_map, List.all_flatMap,
        List.all_eq_true]
      simp only [hentry, List.mem_flatMap, forall_exists_index, and_imp]
      exact ⟨fun h n u hu hn => h u hu n hn, fun h u hu n hn => h n u hu hn⟩

/-- A document fits sixty-four bits with a sign exactly if the given numbers do. -/
theorem isNarrow_iff (c : Config) :
    c.document.isNarrow = true ↔ ∀ n ∈ c.counts, n.toNat < 2 ^ 63 := by
  have hpage := Toml.forall_mem_counts OptionKey.maxPageSize.name c.maxPageSize
  have hentries : (c.entries.map Toml.entryClause).all Toml.Clause.isNarrow = true ↔
      ∀ n ∈ c.maxPageSize.toList, n.toNat < 2 ^ 63 := by
    rw [← hpage, List.all_map]
    show ((c.maxPageSize.map fun n => (OptionKey.maxPageSize.name, Toml.int n.toNat)).toList.all
      fun e => e.2.isNarrow) = true ↔ _
    exact List.all_eq_true
  rw [Toml.isNarrow_document, clauses_document, List.all_append, Bool.and_eq_true, hentries,
    isNarrow_tableStatements, counts, List.forall_mem_append]

/-- The statements of all tables but the first. -/
def laterStatements (c : Config) : List Statement := c.tables.tail.flatMap TableConfig.statements

/-- The statements up to those of the second table. -/
def firstStatements (c : Config) : List Statement :=
  [.text OptionKey.dialect.name c.dialect.name] ++
    (c.maxPageSize.map fun n => .count OptionKey.maxPageSize.name n.toNat).toList ++
    tableStatements (c.tables.take 1)

theorem statements_document (c : Config) :
    c.document.statements = c.firstStatements ++ c.laterStatements := by
  rw [document, firstStatements, laterStatements]
  cases c.tables with
  | nil => simp [tableStatements]
  | cons t ts => simp [tableStatements]

/-- How a document annotates a configuration. -/
structure AnnotatedBy (c : Config) (d : Toml.Document) : Prop where
  /-- Comment lines stand in front of statements that come before the second table. -/
  statements : ∃ first, List.Forall₂ Statement.Commented c.firstStatements first ∧
    d.statements = first ++ c.laterStatements
  trailer : d.trailer = c.document.trailer
  /-- In the text they are lines of their own between the others. -/
  lines : Toml.Interlined Toml.IsComment c.text.toList d.text.toList

/-- A key that the statements of tables introduce: that of the tables or of a member of one. -/
def TableKey (path : List String) : Prop := path = [tablesKey] ∨ ∃ key, path = [tablesKey, key]

theorem targets_assignments {ss : List Statement} (h : Toml.Assignments ss) :
    ∀ path ∈ Toml.targets [.bare tablesKey] ss, TableKey path := by
  induction ss with
  | nil => exact fun _ hpath => absurd hpath List.not_mem_nil
  | cons s ss ih =>
      obtain ⟨⟨key, v, spelling, rfl⟩, hss⟩ := List.forall_mem_cons.mp h
      intro path hpath
      rcases List.mem_cons.mp hpath with rfl | hpath
      · exact Or.inr ⟨key, rfl⟩
      · exact ih hss path hpath

theorem targets_statements (t : TableConfig) (current : List Toml.Key) :
    ∀ path ∈ Toml.targets current t.statements, TableKey path := by
  intro path hpath
  rcases List.mem_cons.mp hpath with rfl | hpath
  · exact Or.inl rfl
  · exact targets_assignments t.assignments_body path hpath

theorem targets_tables (ts : List TableConfig) (current : List Toml.Key) :
    ∀ path ∈ Toml.targets current (ts.flatMap TableConfig.statements), TableKey path := by
  induction ts generalizing current with
  | nil => exact fun _ hpath => absurd hpath List.not_mem_nil
  | cons t ts ih =>
      intro path hpath
      rw [List.flatMap_cons, Toml.targets_append, List.mem_append] at hpath
      rcases hpath with hpath | hpath
      · exact targets_statements t current path hpath
      · exact ih _ path hpath

theorem tablesKey_mem_targets (c : Config) :
    [tablesKey] ∈ Toml.targets [] c.firstStatements := by
  obtain ⟨dialect, page, tables⟩ := c
  cases page <;> cases tables <;>
    simp [firstStatements, tableStatements, TableConfig.statements, Toml.targets, Statement.text,
      Statement.count, Statement.texts, Statement.assign, Statement.element, Toml.Clause.target,
      Toml.Clause.scope, Toml.names, Toml.Path.bare, Toml.Key.bare]

theorem isElement_firstStatements {c : Config} (h : c.tables ≠ []) :
    (c.firstStatements.map Statement.clause).any (Toml.Clause.isElement [tablesKey]) = true := by
  obtain ⟨dialect, page, tables⟩ := c
  cases tables with
  | nil => exact absurd rfl h
  | cons t ts =>
      refine List.any_eq_true.mpr ⟨Toml.elementClause tablesKey, ?_, by decide⟩
      simp [firstStatements, tableStatements, TableConfig.clauses_statements]

theorem closed_firstStatements (c : Config) : ∀ s ∈ c.firstStatements, s.Closed := fun s hs =>
  (c.written_document s (c.statements_document ▸ List.mem_append_left _ hs)).closed

/-- The keys of the configuration are commented where they are introduced, those of the tables in
front of the first of them. -/
theorem commentFields_docs (c : Config) :
    ∃ first, List.Forall₂ Statement.Commented c.firstStatements first ∧
      Toml.commentFields docs [] [] false (c.firstStatements ++ c.laterStatements) =
        first ++ c.laterStatements := by
  obtain ⟨first, hfirst, hends⟩ := Toml.commentFields_append [] [] false
    (by decide : docs.Printable) c.closed_firstStatements c.laterStatements
  refine ⟨first, hfirst, ?_⟩
  rcases hends with hends | ⟨left, -, hused, hends⟩
  · exact hends
  · rw [hends, Toml.commentFields_eq_self]
    intro path hpath
    rcases targets_tables c.tables.tail _ path hpath with rfl | ⟨key, rfl⟩
    · exact hused _ c.tablesKey_mem_targets
    · exact Toml.Docs.field?_eq_none_of_length (by simp)

/-- The keys of the first table are commented, and the second table ends the work. -/
theorem commentFields_tableDocs {c : Config} {first : List Statement}
    (h : List.Forall₂ Statement.Commented c.firstStatements first) :
    ∃ again, List.Forall₂ Statement.Commented first again ∧
      Toml.commentFields TableConfig.docs [tablesKey] [] false (first ++ c.laterStatements) =
        again ++ c.laterStatements := by
  obtain ⟨again, hagain, hends⟩ := Toml.commentFields_append [tablesKey] [] false
    (by decide : TableConfig.docs.Printable) (Toml.closed_of_commented h c.closed_firstStatements)
    c.laterStatements
  refine ⟨again, hagain, ?_⟩
  rcases hends with hends | ⟨left, -, -, hends⟩
  · exact hends
  rw [hends]
  cases htables : c.tables with
  | nil =>
      have hnone : c.laterStatements = [] := by rw [laterStatements, htables]; rfl
      rw [hnone]
      rfl
  | cons t ts =>
      have hseen : (first.any fun s => s.clause.isElement [tablesKey]) = true := by
        have hany := isElement_firstStatements (c := c) (by simp [htables])
        rwa [← Toml.clauses_of_commented h, List.any_map] at hany
      rw [hseen, Bool.or_true, laterStatements, htables]
      cases ts with
      | nil => rfl
      | cons u ts =>
          rw [List.tail_cons, List.flatMap_cons]
          have hsecond : (Statement.element tablesKey).clause.isElement [tablesKey] = true := by
            decide
          exact congrArg (again ++ ·) (Toml.commentFields_element hsecond left _ _)

theorem statements_of_annotated {c : Config} {d : Toml.Document} (h : c.annotated = .ok d) :
    ∃ first, List.Forall₂ Statement.Commented c.firstStatements first ∧
      d = ⟨first ++ c.laterStatements, []⟩ := by
  rw [annotated_eq] at h
  split at h
  · cases h
    obtain ⟨first, hfirst, hdocs⟩ := c.commentFields_docs
    obtain ⟨again, hagain, htableDocs⟩ := commentFields_tableDocs hfirst
    refine ⟨again, Toml.commented_trans hfirst hagain, ?_⟩
    rw [Toml.Document.annotateFields, Toml.Document.annotateFields, statements_document, hdocs,
      htableDocs]
    rfl
  · cases h

theorem commented_of_annotated {c : Config} {d : Toml.Document} (h : c.annotated = .ok d) :
    List.Forall₂ Statement.Commented c.document.statements d.statements ∧ d.trailer = [] := by
  obtain ⟨first, hfirst, rfl⟩ := statements_of_annotated h
  rw [statements_document]
  exact ⟨List.rel_append hfirst (List.forall₂_same.mpr fun s _ => .refl s), rfl⟩

theorem annotatedBy_of_annotated {c : Config} {d : Toml.Document} (h : c.annotated = .ok d) :
    c.AnnotatedBy d := by
  obtain ⟨hcommented, htrailer⟩ := commented_of_annotated h
  obtain ⟨first, hfirst, hd⟩ := statements_of_annotated h
  refine ⟨⟨first, hfirst, by rw [hd]⟩, htrailer, ?_⟩
  have hlines := Toml.interlined_of_commented (fun s hs => (c.written_document s hs).line)
    (fun s hs => (c.written_document s hs).closed) hcommented
  obtain ⟨statements, trailer⟩ := d
  subst htrailer
  rwa [text, Toml.Document.text, Toml.Document.text, String.toList_ofList, String.toList_ofList]

/-- An annotated configuration is read back. -/
theorem parse_annotated {c : Config} {d : Toml.Document} (h : c.annotated = .ok d) :
    parse d.text = .ok c := by
  obtain ⟨hcommented, htrailer⟩ := commented_of_annotated h
  obtain ⟨statements, trailer⟩ := d
  subst htrailer
  refine parse_of_clauses ?_ (Toml.clauses_of_commented hcommented)
  exact Toml.lines_of_commented hcommented fun s hs => (c.written_document s hs).line

/-- A written configuration is read back and loads as it resolves.  If its numbers are below 2^63
then it can be annotated, which adds comment lines in front of keys that come before the second
table, and the annotated text is read back and loads in the same way; otherwise it cannot. -/
theorem writing_loses_nothing (c : Config) :
    parse c.text = .ok c ∧ load c.text = c.resolve ∧
      ((∀ n ∈ c.counts, n.toNat < 2 ^ 63) →
        ∃ d, c.annotated = .ok d ∧ c.AnnotatedBy d ∧ parse d.text = .ok c ∧
          load d.text = c.resolve) ∧
      ((∃ n ∈ c.counts, 2 ^ 63 ≤ n.toNat) → c.annotated = .error .unannotatable) := by
  refine ⟨c.parse_text, load_eq_resolve c.parse_text, fun hnarrow => ?_, fun ⟨n, hn, hwide⟩ => ?_⟩
  · have hannotated : ∃ d, c.annotated = .ok d := by
      rw [annotated_eq, if_pos (c.isNarrow_iff.mpr hnarrow)]
      exact ⟨_, rfl⟩
    obtain ⟨d, hd⟩ := hannotated
    have hparse := parse_annotated hd
    exact ⟨d, hd, annotatedBy_of_annotated hd, hparse, load_eq_resolve hparse⟩
  · have hrefused : ¬c.document.isNarrow = true := fun h => by
      have := c.isNarrow_iff.mp h n hn
      omega
    rw [annotated_eq, if_neg hrefused]

/-- Texts that need every form of quotes, a table without columns and one with all its keys. -/
def spelled : Config where
  dialect := .mysql
  maxPageSize := none
  tables :=
    [⟨"a'b\"c\\d\n# e", ["it's", "\"\"\"", "a\rb"], some "", none, some 0⟩,
      ⟨"main.users", [], some "id", some 9223372036854775807, none⟩]

theorem writing_loses_nothing_spelled :
    parse spelled.text = .ok spelled ∧
      ∃ d, spelled.annotated = .ok d ∧ spelled.AnnotatedBy d ∧ parse d.text = .ok spelled := by
  obtain ⟨hparse, -, hannotated, -⟩ := writing_loses_nothing spelled
  obtain ⟨d, hd, hcomments, hback, -⟩ :=
    hannotated (List.all_iff_forall_prop.mp (by decide +kernel))
  exact ⟨hparse, d, hd, hcomments, hback⟩

/-- The least page size that an editor does not hold. -/
def wide : Config := ⟨.sqlite, some 9223372036854775808, []⟩

/-- The configuration is written and read back but cannot be annotated. -/
theorem wide_unannotatable :
    parse wide.text = .ok wide ∧ load wide.text = wide.resolve ∧
      wide.annotated = .error .unannotatable := by
  have hparse := wide.parse_text
  have hrefused : ¬wide.document.isNarrow = true := by decide +kernel
  refine ⟨hparse, load_eq_resolve hparse, ?_⟩
  rw [annotated_eq, if_neg hrefused]

end Config

end BoundSql
