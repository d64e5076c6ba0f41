import BoundSql.Proofs.Insert.Execution
import BoundSql.Proofs.Insert.Guarded
import BoundSql.Proofs.Query.Whitelisting
import BoundSql.Proofs.Sql.Quotation
import BoundSql.Proofs.Text.Repeat

/-!
# Well-formed inserts

An insert of many rows is planned exactly if it is well-formed under its options.  What makes it
so is checked in stages: data at all, distinct columns, names that may be used, rows as wide as
the columns, a width within the limit, and the names that the options bring.  An insert that is
refused has passed all stages before one and none after it, and the error names the first column
or row that is at fault there.  A row is found wherever it stands, because the rows are looked at
before they are cut into batches.

The limit on rows takes no part in this.  It cannot refuse an insert, but it must admit a row.
-/

namespace BoundSql

/-! ## Stages -/

namespace BulkInsert

/-- There is something to insert. -/
structure Filled (b : BulkInsert) : Prop where
  columns_ne_nil : b.columns ≠ []
  rows_ne_nil : b.rows ≠ []

/-- No column is given twice. -/
structure Distinct (b : BulkInsert) : Prop extends b.Filled where
  distinct : b.columns.Nodup

/-- All columns are listed and can be quoted. -/
structure Named (b : BulkInsert) (o : Options) : Prop extends b.Distinct where
  named : ∀ c ∈ b.columns, c ∈ o.columns ∧ Name.Escapable c

/-- Every row has a value for each column. -/
structure Aligned (b : BulkInsert) (o : Options) : Prop extends b.Named o where
  aligned : ∀ row ∈ b.rows, row.length = b.columns.length

/-- One row does not exceed the limit on bound values. -/
structure Fits (b : BulkInsert) (o : Options) : Prop extends b.Aligned o where
  fits : b.columns.length ≤ o.maxParams

/-- The names that are written into every insert can be quoted as well.  The identifier column is
among them even where the dialect does not ask for it. -/
structure WellFormed (b : BulkInsert) (o : Options) : Prop extends b.Fits o where
  table : Name.Escapable o.table
  idColumn : ∀ c ∈ o.idColumn, Name.Escapable c

/-- The first defect of an insert: the stage before it has been passed. -/
inductive Defect (b : BulkInsert) (o : Options) : QueryError → Prop where
  | missing (empty : b.columns = [] ∨ b.rows = []) : Defect b o .missingInsertData
  /-- The first column that equals one before it. -/
  | repeated {before rest : List String} {column : String} (filled : b.Filled)
      (splits : b.columns = before ++ column :: rest) (distinct : before.Nodup)
      (again : column ∈ before) : Defect b o (.duplicateColumn column)
  /-- The first column that may not be used is not listed. -/
  | unlisted {before rest : List String} {column : String} (distinct : b.Distinct)
      (splits : b.columns = before ++ column :: rest)
      (named : ∀ c ∈ before, c ∈ o.columns ∧ Name.Escapable c) (unlisted : column ∉ o.columns) :
      Defect b o (.unknownColumn o.table column)
  /-- The first column that may not be used is listed and has a blank segment. -/
  | misnamed {before rest : List String} {column : String} (distinct : b.Distinct)
      (splits : b.columns = before ++ column :: rest)
      (named : ∀ c ∈ before, c ∈ o.columns ∧ Name.Escapable c) (listed : column ∈ o.columns)
      (blank : ¬Name.Escapable column) : Defect b o (.invalidIdentifier column)
  /-- The first row of another width, which is told with its index. -/
  | ragged {before rest : List (List Value)} {row : List Value} (named : b.Named o)
      (splits : b.rows = before ++ row :: rest)
      (aligned : ∀ r ∈ before, r.length = b.columns.length)
      (differs : row.length ≠ b.columns.length) :
      Defect b o (.raggedInsertRows before.length b.columns.length row.length)
  | tooWide (aligned : b.Aligned o) (exceeds : o.maxParams < b.columns.length) :
      Defect b o (.rowTooWide b.columns.length o.maxParams)
  | table (fits : b.Fits o) (blank : ¬Name.Escapable o.table) :
      Defect b o (.invalidIdentifier o.table)
  | idColumn {column : String} (fits : b.Fits o) (table : Name.Escapable o.table)
      (given : o.idColumn = some column) (blank : ¬Name.Escapable column) :
      Defect b o (.invalidIdentifier column)

variable {b : BulkInsert} {o : Options}

theorem filled_iff : b.Filled ↔ b.columns ≠ [] ∧ b.rows ≠ [] :=
  ⟨fun h => ⟨h.columns_ne_nil, h.rows_ne_nil⟩, fun h => ⟨h.1, h.2⟩⟩

theorem Distinct.firstRepeated? (h : b.Distinct) : Text.firstRepeated? [] b.columns = none :=
  Text.firstRepeated?_nil_eq_none_iff.mpr h.distinct

theorem Named.listed (h : b.Named o) :
    ∀ c ∈ b.columns, o.hasColumn c = true ∧ Name.Escapable c := fun c hc =>
  ⟨Options.hasColumn_eq_true_iff.mpr (h.named c hc).1, (h.named c hc).2⟩

theorem Named.insertNames (h : b.Named o) :
    o.insertNames b.columns = .ok (b.columns.map (Name.ofText o.dialect)) :=
  Options.insertNames_eq_ok_iff.mpr ⟨h.firstRepeated?, h.listed, rfl⟩

/-- Well-formed inserts are those that can be planned and are not too wide. -/
theorem WellFormed.plannable (h : b.WellFormed o) : b.Plannable o where
  columns_ne_nil := h.columns_ne_nil
  rows_ne_nil := h.rows_ne_nil
  distinct := h.firstRepeated?
  listed := h.listed
  aligned := h.aligned
  table := h.table
  idColumn := h.idColumn

end BulkInsert

/-! ## Checks that fail -/

namespace Options

variable {o : Options}

theorem insertNames_of_repeated {before rest : List String} {column : String}
    (hdistinct : before.Nodup) (hagain : column ∈ before) :
    o.insertNames (before ++ column :: rest) = .error (.duplicateColumn column) := by
  have hsome : Text.firstRepeated? [] (before ++ column :: rest) = some column :=
    Text.firstRepeated?_nil_eq_some_iff.mpr ⟨before, rest, rfl, hdistinct, hagain⟩
  rw [insertNames, hsome]

theorem columnName_of_named {column : String} (h : column ∈ o.columns ∧ Name.Escapable column) :
    ∃ n, o.columnName column = .ok n :=
  ⟨_, columnName_eq_ok_iff.mpr ⟨hasColumn_eq_true_iff.mpr h.1, h.2, rfl⟩⟩

/-- The first column that may not be used gives the error, if no column is given twice. -/
theorem insertNames_of_refused {before rest : List String} {column : String}
    (hdistinct : (before ++ column :: rest).Nodup)
    (hnamed : ∀ c ∈ before, c ∈ o.columns ∧ Name.Escapable c)
    (hrefused : ¬(column ∈ o.columns ∧ Name.Escapable column)) :
    o.insertNames (before ++ column :: rest) = .error (o.refusal column) := by
  have hnone : Text.firstRepeated? [] (before ++ column :: rest) = none :=
    Text.firstRepeated?_nil_eq_none_iff.mpr hdistinct
  have hcolumn : o.columnName column = .error (o.refusal column) := by
    rcases o.columnName_cases column with ⟨n, hn⟩ | herror
    · obtain ⟨hlisted, hescapable, -⟩ := columnName_eq_ok_iff.mp hn
      exact absurd ⟨hasColumn_eq_true_iff.mp hlisted, hescapable⟩ hrefused
    · exact herror
  have hfirst : o.RefusesFirst (before ++ column :: rest) column :=
    ⟨⟨before, rest, rfl, fun c hc => columnName_of_named (hnamed c hc)⟩, hcolumn⟩
  rw [insertNames, hnone]
  exact hfirst.columnNames

theorem renderInsert_of_table (h : ¬Name.Escapable o.table) (names : List Name) (rows : Nat) :
    o.renderInsert names rows = .error (.invalidIdentifier o.table) := by
  have htable : o.tableName = .error (.invalidIdentifier o.table) := by
    rw [tableName, quote, Identifier.ofString_of_not_escapable h]
    rfl
  rw [renderInsert, htable]
  rfl

/-- The identifier column is quoted behind the table, whether or not a clause mentions it. -/
theorem renderInsert_of_idColumn {column : String} (htable : Name.Escapable o.table)
    (hgiven : o.idColumn = some column) (h : ¬Name.Escapable column) (names : List Name)
    (rows : Nat) : o.renderInsert names rows = .error (.invalidIdentifier column) := by
  have htableName := tableName_eq_ok_iff.mpr ⟨htable, rfl⟩
  have hid : o.idColumnName = .error (.invalidIdentifier column) := by
    rw [idColumnName, hgiven]
    show (o.quote column).map (fun i => some (Name.quoted i)) = _
    rw [quote, Identifier.ofString_of_not_escapable h]
    rfl
  rw [renderInsert, htableName, hid]
  rfl

end Options

/-! ## Statements that fail -/

namespace BulkInsert

variable {b : BulkInsert} {o : Options} {size : Nat}

theorem firstRagged?_append {width : Nat} {before rest : List (List Value)} {row : List Value}
    (hbefore : ∀ r ∈ before, r.length = width) (hrow : row.length ≠ width) (index : Nat) :
    firstRagged? width index (before ++ row :: rest) =
      some (index + before.length, row.length) := by
  induction before generalizing index with
  | nil => rw [List.nil_append, firstRagged?, if_neg hrow, List.length_nil, Nat.add_zero]
  | cons r before ih =>
      have hrest := ih (fun s hs => hbefore s (List.mem_cons_of_mem r hs)) (index + 1)
      rw [List.cons_append, firstRagged?, if_pos (hbefore r List.mem_cons_self), hrest,
        List.length_cons, Nat.add_right_comm, Nat.add_assoc]

/-- Statements that cannot be written fail with the first of them. -/
theorem batches_of_error {names : List Name} {e : QueryError}
    (h : ∀ rows, o.renderInsert names rows = .error e) {groups : List (List (List Value))}
    (hgroups : groups ≠ []) : (groups.mapIdx (batch o names size)).mapM id = .error e := by
  cases groups with
  | nil => exact absurd rfl hgroups
  | cons group groups =>
      have hfirst : batch o names size 0 group = .error e := by
        rw [batch, h]
        rfl
      rw [List.mapIdx_cons, List.mapM_cons, id, hfirst]
      rfl

/-! ## Defects -/

theorem Filled.not_empty (h : b.Filled) : ¬(b.columns.isEmpty = true ∨ b.rows.isEmpty = true) := by
  simp [h.columns_ne_nil, h.rows_ne_nil]

theorem statements_of_names_error (h : b.Filled) {e : QueryError}
    (hnames : o.insertNames b.columns = .error e) : b.statements o = .error e := by
  rw [statements, if_neg h.not_empty, hnames]
  rfl

/-- Behind the names the rows decide, and behind these the limit and the options. -/
theorem Named.statements_eq (h : b.Named o) :
    b.statements o = match firstRagged? b.columns.length 0 b.rows with
      | some (row, found) => .error (.raggedInsertRows row b.columns.length found)
      | none => do
          let size ← batchSize b.columns.length o.maxParams o.maxInsertRows
          let statements ← ((groups size b.rows).mapIdx
            (batch o (b.columns.map (Name.ofText o.dialect)) size)).mapM id
          return ⟨statements, b.rows.length, size⟩ := by
  rw [statements, if_neg h.toFilled.not_empty, h.insertNames]
  rfl

theorem Aligned.statements_eq (h : b.Aligned o) :
    b.statements o = do
      let size ← batchSize b.columns.length o.maxParams o.maxInsertRows
      let statements ← ((groups size b.rows).mapIdx
        (batch o (b.columns.map (Name.ofText o.dialect)) size)).mapM id
      return ⟨statements, b.rows.length, size⟩ := by
  have hnone : firstRagged? b.columns.length 0 b.rows = none :=
    firstRagged?_eq_none_iff.mpr h.aligned
  rw [h.toNamed.statements_eq, hnone]

theorem Fits.statements_of_error (h : b.Fits o) {e : QueryError}
    (hrender : ∀ names rows, o.renderInsert names rows = .error e) :
    b.statements o = .error e := by
  have hsize := batchSize_of_fits (List.length_pos_iff.mpr h.columns_ne_nil) h.fits o.maxInsertRows
  rw [h.toAligned.statements_eq, hsize]
  show (((groups _ b.rows).mapIdx (batch o _ _)).mapM id >>= _) = _
  rw [batches_of_error (hrender _) (groups_ne_nil h.rows_ne_nil)]
  rfl

/-- The first defect of an insert is the error it is refused with. -/
theorem Defect.statements {e : QueryError} (h : b.Defect o e) : b.statements o = .error e := by
  cases h with
  | missing empty =>
      have hempty : b.columns.isEmpty = true ∨ b.rows.isEmpty = true := by simpa using empty
      rw [BulkInsert.statements, if_pos hempty]
  | repeated filled splits distinct again =>
      refine statements_of_names_error filled ?_
      rw [splits]
      exact Options.insertNames_of_repeated distinct again
  | @unlisted before rest column distinct splits named unlisted =>
      refine statements_of_names_error distinct.toFilled ?_
      have hnodup := distinct.distinct
      rw [splits] at hnodup ⊢
      rw [Options.insertNames_of_refused hnodup named fun h => unlisted h.1, Options.refusal,
        if_neg unlisted]
  | @misnamed before rest column distinct splits named listed blank =>
      refine statements_of_names_error distinct.toFilled ?_
      have hnodup := distinct.distinct
      rw [splits] at hnodup ⊢
      rw [Options.insertNames_of_refused hnodup named fun h => blank h.2, Options.refusal,
        if_pos listed]
  | ragged named splits aligned differs =>
      rw [named.statements_eq, splits, firstRagged?_append aligned differs, Nat.zero_add]
  | tooWide aligned exceeds =>
      rw [aligned.statements_eq, batchSize_of_tooWide exceeds]
      rfl
  | table fits blank => exact fits.statements_of_error (Options.renderInsert_of_table blank)
  | idColumn fits table given blank =>
      exact fits.statements_of_error (Options.renderInsert_of_idColumn table given blank)

theorem Filled.distinct_or_defect (h : b.Filled) (o : Options) :
    b.Distinct ∨ ∃ e, b.Defect o e := by
  cases hrepeated : Text.firstRepeated? [] b.columns with
  | none => exact Or.inl ⟨h, Text.firstRepeated?_nil_eq_none_iff.mp hrepeated⟩
  | some column =>
      obtain ⟨before, rest, hsplits, hdistinct, hagain⟩ :=
        Text.firstRepeated?_nil_eq_some_iff.mp hrepeated
      exact Or.inr ⟨_, .repeated h hsplits hdistinct hagain⟩

theorem Distinct.named_or_defect (h : b.Distinct) (o : Options) :
    b.Named o ∨ ∃ e, b.Defect o e := by
  rcases forall_or_first (fun c => c ∈ o.columns ∧ Name.Escapable c) b.columns with
    hnamed | ⟨before, column, rest, hsplits, hbefore, hrefused⟩
  · exact Or.inl ⟨h, hnamed⟩
  · by_cases hlisted : column ∈ o.columns
    · exact Or.inr ⟨_, .misnamed h hsplits hbefore hlisted fun hname => hrefused ⟨hlisted, hname⟩⟩
    · exact Or.inr ⟨_, .unlisted h hsplits hbefore hlisted⟩

theorem Named.aligned_or_defect (h : b.Named o) : b.Aligned o ∨ ∃ e, b.Defect o e := by
  rcases forall_or_first (fun row => row.length = b.columns.length) b.rows with
    haligned | ⟨before, row, rest, hsplits, hbefore, hdiffers⟩
  · exact Or.inl ⟨h, haligned⟩
  · exact Or.inr ⟨_, .ragged h hsplits hbefore hdiffers⟩

theorem Fits.wellFormed_or_defect (h : b.Fits o) : b.WellFormed o ∨ ∃ e, b.Defect o e := by
  by_cases htable : Name.Escapable o.table
  · cases hid : o.idColumn with
    | none => exact Or.inl ⟨h, htable, by simp [hid]⟩
    | some column =>
        by_cases hcolumn : Name.Escapable column
        · exact Or.inl ⟨h, htable, by simpa [hid] using hcolumn⟩
        · exact Or.inr ⟨_, .idColumn h htable hid hcolumn⟩
  · exact Or.inr ⟨_, .table h htable⟩

/-- An insert passes all stages, or there is a first one that it does not pass. -/
theorem wellFormed_or_defect (b : BulkInsert) (o : Options) :
    b.WellFormed o ∨ ∃ e, b.Defect o e := by
  by_cases hempty : b.columns = [] ∨ b.rows = []
  · exact Or.inr ⟨_, .missing hempty⟩
  have hfilled : b.Filled := filled_iff.mpr (not_or.mp hempty)
  rcases hfilled.distinct_or_defect o with hdistinct | hdefect
  · rcases hdistinct.named_or_defect o with hnamed | hdefect
    · rcases hnamed.aligned_or_defect with haligned | hdefect
      · by_cases hfits : b.columns.length ≤ o.maxParams
        · exact Fits.wellFormed_or_defect ⟨haligned, hfits⟩
        · exact Or.inr ⟨_, .tooWide haligned (Nat.lt_of_not_le hfits)⟩
      · exact Or.inr hdefect
    · exact Or.inr hdefect
  · exact Or.inr hdefect

/-! ## Plans -/

theorem WellFormed.exists_plan (h : b.WellFormed o) : ∃ p, (b.plan o).result = .ok p :=
  ⟨_, plan_eq_ok_iff.mpr ⟨h.plannable, _, batchSize_of_fits
    (List.length_pos_iff.mpr h.columns_ne_nil) h.fits o.maxInsertRows, rfl⟩⟩

/-- A refused insert reports nothing. -/
theorem Defect.plan {e : QueryError} (h : b.Defect o e) : b.plan o = .fail e := by
  rw [BulkInsert.plan, h.statements]
  rfl

theorem plan_eq_error_iff {e : QueryError} : (b.plan o).result = .error e ↔ b.Defect o e := by
  constructor
  · intro herror
    rcases b.wellFormed_or_defect o with hformed | ⟨e', hdefect⟩
    · obtain ⟨p, hp⟩ := hformed.exists_plan
      cases hp.symm.trans herror
    · rw [hdefect.plan] at herror
      cases herror
      exact hdefect
  · intro hdefect
    rw [hdefect.plan]
    rfl

theorem exists_plan_iff : (∃ p, (b.plan o).result = .ok p) ↔ b.WellFormed o := by
  refine ⟨fun ⟨p, hp⟩ => ?_, WellFormed.exists_plan⟩
  rcases b.wellFormed_or_defect o with hformed | ⟨e, hdefect⟩
  · exact hformed
  · rw [hdefect.plan] at hp
    cases hp

/-- Whether a row is too wide is looked at only behind the rows. -/
theorem defect_tooWide_iff :
    b.Defect o (.rowTooWide b.columns.length o.maxParams) ↔
      b.Aligned o ∧ o.maxParams < b.columns.length := by
  constructor
  · intro h
    cases h with
    | tooWide aligned exceeds => exact ⟨aligned, exceeds⟩
  · rintro ⟨haligned, hexceeds⟩
    exact .tooWide haligned hexceeds

/-- An insert has a plan exactly if it is well-formed.  Otherwise it is refused with its first
defect, and nothing is reported of it.  Neither ending hides a fault as long as the options admit a
row in a statement. -/
theorem plan_accepts_wellFormed (o : Options) (hrows : ∀ m ∈ o.maxInsertRows, 1 ≤ m)
    (b : BulkInsert) :
    ((∃ p, (b.plan o).result = .ok p) ↔ b.WellFormed o) ∧
      (∀ e, (b.plan o).result = .error e ↔ b.Defect o e) ∧
      (¬b.WellFormed o → ∃ e, b.Defect o e ∧ b.plan o = .fail e) ∧
      ∀ maxWord, b.rows.length ≤ maxWord →
        b.guardedPlan maxWord o = Guarded.ofExcept (b.plan o).result := by
  refine ⟨exists_plan_iff, fun e => plan_eq_error_iff, fun hformed => ?_, fun maxWord hword => ?_⟩
  · obtain ⟨e, hdefect⟩ := (b.wellFormed_or_defect o).resolve_left hformed
    exact ⟨e, hdefect, hdefect.plan⟩
  · have hlimit : o.maxInsertRows ≠ some 0 := fun hzero => absurd (hrows 0 hzero) (by decide)
    rw [guardedPlan_eq hlimit hword, plan_result]

/-- Options that admit one row of one value.  Neither the table nor the identifier column can be
quoted. -/
def faultyOptions : Options :=
  { Options.defaults .mysql "t." ["a", "b"] with
    idColumn := some "", maxParams := 1, maxInsertRows := some 1 }

/-- Rows of two values, but for the last. -/
def lateRow : BulkInsert := ⟨["a", "b"], [[.null, .null], [.null, .null], [.null]]⟩

/-- The last row is the defect that is told, although every row is too wide. -/
theorem plan_accepts_wellFormed_lateRow :
    (∀ m ∈ faultyOptions.maxInsertRows, 1 ≤ m) ∧
      lateRow.Defect faultyOptions (.raggedInsertRows 2 2 1) ∧
      ¬lateRow.WellFormed faultyOptions ∧ threePairs.WellFormed (pairOptions .mysql) := by
  have hrows : ∀ m ∈ faultyOptions.maxInsertRows, 1 ≤ m := by
    decide
  obtain ⟨hplanned, hrefused, -, -⟩ := plan_accepts_wellFormed faultyOptions hrows lateRow
  have hragged : (lateRow.plan faultyOptions).result = .error (.raggedInsertRows 2 2 1) := rfl
  have hformed := (plan_accepts_wellFormed (pairOptions .mysql) (by decide) threePairs).1
  refine ⟨hrows, (hrefused _).mp hragged, fun h => ?_, hformed.mp ⟨_, rfl⟩⟩
  obtain ⟨p, hp⟩ := hplanned.mpr h
  cases hragged.symm.trans hp

end BulkInsert

end BoundSql
