import BoundSql.Proofs.Options.RoundTrip
import BoundSql.Proofs.Options.Validity
import BoundSql.Proofs.Text.Repeat

/-!
# Resolved configurations

The options of a configured table are made by overriding the limits of its dialect with
documents.  What comes out is what the configuration says field by field, with the limits of the
dialect for what it leaves out, or the first defect of that.  A configuration therefore resolves
exactly if no table is listed twice and the options of every table are valid as written, and
then serves every table as written.
-/

namespace BoundSql

/-! ## Limits of dialects -/

theorem Dialect.one_le_defaultMaxParams (d : Dialect) : 1 ≤ d.defaultMaxParams := by
  cases d <;> decide

theorem Dialect.one_le_of_mem_defaultMaxInsertRows (d : Dialect) :
    ∀ rows ∈ d.defaultMaxInsertRows, 1 ≤ rows := by
  cases d <;> decide

theorem Options.sound_defaults (dialect : Dialect) {table : String} {columns : List String}
    (htable : Text.isBlank table = false) (hcolumns : ∀ c ∈ columns, Text.isBlank c = false) :
    (defaults dialect table columns).Sound where
  table := htable
  columns := hcolumns
  maxParams := dialect.one_le_defaultMaxParams
  maxInsertRows := dialect.one_le_of_mem_defaultMaxInsertRows
  maxPageSize := show 1 ≤ defaultMaxPageSize by decide

/-- The constructor refuses only names, and it refuses them as a check of all options does. -/
theorem Options.new_eq_ok_or_error (o : Options) :
    Options.new o.dialect o.table o.columns = .ok (defaults o.dialect o.table o.columns) ∨
      ∃ e, Options.new o.dialect o.table o.columns = .error e ∧ o.validated = .error e := by
  by_cases htable : Text.isBlank o.table = true
  · refine Or.inr ⟨.invalidTable o.table, ?_, ?_⟩
    · simp [Options.new, validated, validate, defaults, htable]
    · simp [validated, validate, htable]
  cases hcolumns : o.columns.find? Text.isBlank with
  | some column =>
      refine Or.inr ⟨.invalidOption .columns (.blankColumn column), ?_, ?_⟩
      · simp [Options.new, validated, validate, defaults, htable, hcolumns]
      · simp [validated, validate, htable, hcolumns]
  | none =>
      have hsound := sound_defaults o.dialect (Bool.not_eq_true _ ▸ htable)
        (by simpa using hcolumns)
      have hvalid := validate_eq_ok_iff.mpr ⟨hsound, by simp [defaults]⟩
      exact Or.inl (validated_eq_ok_iff.mpr ⟨hvalid, rfl⟩)

/-! ## Options of a table -/

/-- The options that a table or its configuration gives a value to. -/
def TableConfig.givenKeys (t : TableConfig) (maxPageSize : Option UInt64) : List OptionKey :=
  (t.idColumn.toList.map fun _ => .idColumn) ++ (t.maxParams.toList.map fun _ => .maxParams) ++
    (t.maxInsertRows.toList.map fun _ => .maxInsertRows) ++
    (maxPageSize.toList.map fun _ => .maxPageSize)

namespace Config

variable {c : Config}

/-- The options of a table as a configuration writes them, field by field. -/
def written (c : Config) (t : TableConfig) : Options where
  dialect := c.dialect
  table := t.name
  columns := t.columns
  idColumn := t.idColumn
  maxParams := (t.maxParams.map UInt64.toNat).getD c.dialect.defaultMaxParams
  maxInsertRows := (t.maxInsertRows.map UInt64.toNat).or c.dialect.defaultMaxInsertRows
  maxPageSize := (c.maxPageSize.map UInt64.toNat).getD 1000

theorem written_withDefaults (c : Config) (t : TableConfig) :
    c.withDefaults.written t = c.written t := by
  unfold written withDefaults
  cases c.maxPageSize <;> rfl

/-- The overrides of a table are the documents of its options under the given keys. -/
theorem overrides_eq_members (c : Config) (t : TableConfig) :
    t.overrides c.maxPageSize = (t.givenKeys c.maxPageSize).map (c.written t).member := by
  obtain ⟨dialect, page, tables⟩ := c
  obtain ⟨name, columns, id, params, rows⟩ := t
  cases id <;> cases params <;> cases rows <;> cases page <;> rfl

/-- What no key is given for has the document that the dialect brings. -/
theorem document_defaults {t : TableConfig} {k : OptionKey} (hk : k ∉ t.givenKeys c.maxPageSize) :
    (Options.defaults c.dialect t.name t.columns).document k = (c.written t).document k := by
  cases k with
  | dialect | table | columns => rfl
  | idColumn =>
      have hnone : t.idColumn = none := by simpa [TableConfig.givenKeys] using hk
      simp [Options.document, Options.defaults, written, hnone]
  | maxParams =>
      have hnone : t.maxParams = none := by simpa [TableConfig.givenKeys] using hk
      simp [Options.document, Options.defaults, written, hnone]
  | maxInsertRows =>
      have hnone : t.maxInsertRows = none := by simpa [TableConfig.givenKeys] using hk
      simp [Options.document, Options.defaults, written, hnone]
  | maxPageSize =>
      have hnone : c.maxPageSize = none := by simpa [TableConfig.givenKeys] using hk
      simp [Options.document, Options.defaults, written, hnone, Options.defaultMaxPageSize]

/-- The options of a table are those written, once they are checked. -/
theorem tableOptions_eq_written (c : Config) (t : TableConfig) :
    (c.tableOptions t).result = (c.written t).validated := by
  rw [tableOptions_result]
  rcases (c.written t).new_eq_ok_or_error with hnew | ⟨e, hnew, herror⟩
  · have hsame : (Options.defaults c.dialect t.name t.columns).withDialect c.dialect =
        Options.defaults c.dialect t.name t.columns := by
      simp [Options.withDialect, Options.defaults]
    have hreconfigure : (Options.defaults c.dialect t.name t.columns).reconfigure
        (t.overrides c.maxPageSize) = (c.written t).validated := by
      rw [overrides_eq_members]
      refine Options.reconfigure_members (Or.inr rfl) fun k hk => ?_
      show ((Options.defaults c.dialect t.name t.columns).withDialect c.dialect).document k = _
      rw [hsame]
      exact document_defaults hk
    show (Options.new (c.written t).dialect (c.written t).table (c.written t).columns >>= _) = _
    rw [hnew]
    exact hreconfigure
  · show (Options.new (c.written t).dialect (c.written t).table (c.written t).columns >>= _) = _
    rw [hnew, herror]
    rfl

theorem tableOptions_of_valid {t : TableConfig} (h : (c.written t).validate = .ok ()) :
    (c.tableOptions t).result = .ok (c.written t) := by
  rw [tableOptions_eq_written]
  exact Options.validated_eq_ok_iff.mpr ⟨h, rfl⟩

theorem tableOptions_of_refused {t : TableConfig} {e : ConfigError}
    (h : (c.written t).validate = .error e) : (c.tableOptions t).result = .error e := by
  rw [tableOptions_eq_written, Options.validated, h]

/-! ## Checking all tables -/

/-- Tables with valid options do not decide how a check ends. -/
theorem checkTables_append {before : List TableConfig}
    (h : ∀ t ∈ before, (c.written t).validate = .ok ()) (rest : List TableConfig) :
    (c.checkTables (before ++ rest)).result = (c.checkTables rest).result := by
  induction before with
  | nil => rfl
  | cons t before ih =>
      have ht := tableOptions_of_valid (h t List.mem_cons_self)
      rw [List.cons_append, checkTables, Traced.bind_of_ok _ ht]
      exact ih fun u hu => h u (List.mem_cons_of_mem t hu)

theorem checkTables_of_refused {before rest : List TableConfig} {t : TableConfig} {e : ConfigError}
    (h : ∀ u ∈ before, (c.written u).validate = .ok ())
    (ht : (c.written t).validate = .error e) :
    (c.checkTables (before ++ t :: rest)).result = .error e := by
  rw [checkTables_append h, checkTables, Traced.bind_of_error _ (tableOptions_of_refused ht)]

theorem checkTables_of_valid {tables : List TableConfig}
    (h : ∀ t ∈ tables, (c.written t).validate = .ok ()) :
    (c.checkTables tables).result = .ok () := by
  have hall := checkTables_append h []
  rw [List.append_nil] at hall
  exact hall

theorem valid_or_refused (c : Config) (tables : List TableConfig) :
    (∀ t ∈ tables, (c.written t).validate = .ok ()) ∨
      ∃ before t rest e, tables = before ++ t :: rest ∧
        (∀ u ∈ before, (c.written u).validate = .ok ()) ∧ (c.written t).validate = .error e := by
  rcases forall_or_first (fun t => (c.written t).validate = .ok ()) tables with
    hvalid | ⟨before, t, rest, hsplits, hbefore, hrefused⟩
  · exact Or.inl hvalid
  · cases herror : (c.written t).validate with
    | ok _ => exact absurd herror hrefused
    | error e => exact Or.inr ⟨before, t, rest, e, hsplits, hbefore, herror⟩

/-! ## Resolution -/

/-- How a configuration resolves.  A repeated name comes before all other defects. -/
inductive Resolves (c : Config) : Except ConfigError Config → Prop where
  /-- The first name that was listed before. -/
  | repeated {before rest : List String} {name : String}
      (splits : c.tables.map TableConfig.name = before ++ name :: rest)
      (distinct : before.Nodup) (again : name ∈ before) :
      Resolves c (.error (.duplicateTable name))
  /-- The first table whose options are refused as written. -/
  | refused {before rest : List TableConfig} {t : TableConfig} {e : ConfigError}
      (distinct : (c.tables.map TableConfig.name).Nodup)
      (splits : c.tables = before ++ t :: rest)
      (valid : ∀ u ∈ before, (c.written u).validate = .ok ())
      (refuses : (c.written t).validate = .error e) : Resolves c (.error e)
  | resolved (distinct : (c.tables.map TableConfig.name).Nodup)
      (valid : ∀ t ∈ c.tables, (c.written t).validate = .ok ()) :
      Resolves c (.ok c.withDefaults)

theorem resolve_result (c : Config) :
    c.resolve.result = c.withDefaults.check.result.map fun _ => c.withDefaults := by
  rw [resolve, Traced.bind_return]

theorem check_of_distinct (h : (c.tables.map TableConfig.name).Nodup) :
    c.check = c.checkTables c.tables := by
  have hnone : Text.firstRepeated? [] (c.tables.map TableConfig.name) = none :=
    Text.firstRepeated?_nil_eq_none_iff.mpr h
  rw [check, hnone]

theorem check_of_repeated {before rest : List String} {name : String}
    (hsplits : c.tables.map TableConfig.name = before ++ name :: rest) (hdistinct : before.Nodup)
    (hagain : name ∈ before) : c.check = .fail (.duplicateTable name) := by
  have hsome : Text.firstRepeated? [] (c.tables.map TableConfig.name) = some name :=
    Text.firstRepeated?_nil_eq_some_iff.mpr ⟨before, rest, hsplits, hdistinct, hagain⟩
  rw [check, hsome]

theorem resolve_of_resolves {r : Except ConfigError Config} (h : c.Resolves r) :
    c.resolve.result = r := by
  rw [resolve_result]
  cases h with
  | repeated splits distinct again =>
      have hcheck : c.withDefaults.check = .fail (.duplicateTable _) :=
        check_of_repeated splits distinct again
      rw [hcheck]
      rfl
  | refused distinct splits valid refuses =>
      have hcheck : c.withDefaults.check = c.withDefaults.checkTables c.tables :=
        check_of_distinct distinct
      simp only [← c.written_withDefaults] at valid refuses
      rw [hcheck, splits, checkTables_of_refused valid refuses]
      rfl
  | resolved distinct valid =>
      have hcheck : c.withDefaults.check = c.withDefaults.checkTables c.tables :=
        check_of_distinct distinct
      simp only [← c.written_withDefaults] at valid
      rw [hcheck, checkTables_of_valid valid]
      rfl

theorem exists_resolves (c : Config) : ∃ r, c.Resolves r := by
  cases hrepeated : Text.firstRepeated? [] (c.tables.map TableConfig.name) with
  | some name =>
      obtain ⟨before, rest, hsplits, hdistinct, hagain⟩ :=
        Text.firstRepeated?_nil_eq_some_iff.mp hrepeated
      exact ⟨_, .repeated hsplits hdistinct hagain⟩
  | none =>
      have hdistinct := Text.firstRepeated?_nil_eq_none_iff.mp hrepeated
      rcases c.valid_or_refused c.tables with hvalid | ⟨before, t, rest, e, hsplits, hbefore, ht⟩
      · exact ⟨_, .resolved hdistinct hvalid⟩
      · exact ⟨_, .refused hdistinct hsplits hbefore ht⟩

theorem resolve_eq_iff {r : Except ConfigError Config} :
    c.resolve.result = r ↔ c.Resolves r := by
  constructor
  · intro h
    obtain ⟨r', hr'⟩ := c.exists_resolves
    rwa [← h, resolve_of_resolves hr']
  · exact resolve_of_resolves

/-! ## Service -/

/-- One configuration serves the tables of another as the other writes them, and no others. -/
structure Serves (r c : Config) : Prop where
  tables : r.tables = c.tables
  distinct : (r.tables.map TableConfig.name).Nodup
  listed : ∀ t ∈ c.tables, (r.optionsFor t.name).result = .ok (c.written t)
  unlisted : ∀ name, name ∉ c.tables.map TableConfig.name →
    (r.optionsFor name).result = .error (.missingTable name)
  /-- Resolving once more changes nothing. -/
  again : r.resolve.result = .ok r

theorem table?_of_mem (hdistinct : (c.tables.map TableConfig.name).Nodup) {t : TableConfig}
    (ht : t ∈ c.tables) : c.table? t.name = some t := by
  cases hfind : c.table? t.name with
  | none => exact absurd (decide_eq_true rfl) (List.find?_eq_none.mp hfind t ht)
  | some u =>
      have hname : u.name = t.name := by simpa using List.find?_some hfind
      rw [List.inj_on_of_nodup_map hdistinct (List.mem_of_find?_eq_some hfind) ht hname]

theorem table?_of_not_mem {name : String} (h : name ∉ c.tables.map TableConfig.name) :
    c.table? name = none := by
  refine List.find?_eq_none.mpr fun t ht hname => h ?_
  exact List.mem_map.mpr ⟨t, ht, by simpa using hname⟩

theorem serves_withDefaults (hdistinct : (c.tables.map TableConfig.name).Nodup)
    (hvalid : ∀ t ∈ c.tables, (c.written t).validate = .ok ()) : c.withDefaults.Serves c where
  tables := rfl
  distinct := hdistinct
  listed := by
    intro t ht
    have hfound : c.withDefaults.table? t.name = some t := table?_of_mem hdistinct ht
    have hwritten : (c.withDefaults.written t).validate = .ok () := by
      rw [written_withDefaults]
      exact hvalid t ht
    rw [optionsFor, hfound, ← written_withDefaults]
    exact tableOptions_of_valid hwritten
  unlisted := by
    intro name hname
    have hmissing : c.withDefaults.table? name = none := table?_of_not_mem hname
    rw [optionsFor, hmissing]
    rfl
  again := by
    have hresolves : c.withDefaults.Resolves (.ok c.withDefaults.withDefaults) :=
      .resolved hdistinct fun t ht => by
        rw [written_withDefaults]
        exact hvalid t ht
    exact resolve_of_resolves hresolves

/-- A configuration resolves as its tables are written, and if it does, what it resolves to
serves them so. -/
theorem resolve_serves_as_written (c : Config) :
    (∀ r, c.resolve.result = r ↔ c.Resolves r) ∧
      ∀ r, c.resolve.result = .ok r → r.Serves c := by
  refine ⟨fun _ => resolve_eq_iff, fun r h => ?_⟩
  cases resolve_eq_iff.mp h with
  | resolved hdistinct hvalid => exact serves_withDefaults hdistinct hvalid

/-- Two tables with different options given, under a dialect that limits rows. -/
def twoTables : Config where
  dialect := .sqlserver
  maxPageSize := none
  tables := [⟨"a", ["x"], none, some 10, none⟩, ⟨"b", ["y", "z"], some "y", none, some 3⟩]

/-- The second table once more, behind a table without a visible name. -/
def repeatedTable : Config :=
  { twoTables with tables := ⟨" ", [], none, none, none⟩ :: twoTables.tables ++ twoTables.tables }

theorem resolve_serves_as_written_twoTables :
    repeatedTable.resolve.result = .error (.duplicateTable "a") ∧
      ∃ r, twoTables.resolve.result = .ok r ∧
        (r.optionsFor "b").result =
            .ok ⟨.sqlserver, "b", ["y", "z"], some "y", 2099, some 3, 1000⟩ ∧
          (r.optionsFor "c").result = .error (.missingTable "c") := by
  have hsplits : repeatedTable.tables.map TableConfig.name = [" ", "a", "b"] ++ "a" :: ["b"] := rfl
  have hrepeated : repeatedTable.Resolves (.error (.duplicateTable "a")) :=
    .repeated hsplits (by decide) (by decide)
  have hresolves : twoTables.Resolves (.ok twoTables.withDefaults) :=
    .resolved (by decide) (by decide)
  have hresolved := ((resolve_serves_as_written twoTables).1 _).mpr hresolves
  have hserves := (resolve_serves_as_written twoTables).2 _ hresolved
  refine ⟨((resolve_serves_as_written repeatedTable).1 _).mpr hrepeated, _, hresolved, ?_, ?_⟩
  · exact hserves.listed ⟨"b", ["y", "z"], some "y", none, some 3⟩ (by decide)
  · exact hserves.unlisted "c" (by decide)

end Config

end BoundSql
