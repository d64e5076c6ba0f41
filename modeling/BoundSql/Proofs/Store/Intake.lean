import BoundSql.Proofs.Insert.Rowids
import BoundSql.Proofs.Store.Keyed

/-!
# The store takes rows

The store gives rows identifiers as a connection to a database is taken to do: an insert of many
rows comes to inserting them one by one, a row that leaves the identifier out gets the number after
the largest, and a text that asks for the identifier gets a row for each inserted one.  The table
has to show its identifiers under the name of the identifier column, and to be in order.

A statement keeps to the limits of the store if it does not have too many parameters.
-/

namespace BoundSql.Store

theorem eq_ok_of_toOption {ε α : Type} {x : Except ε α} {a : α} (h : x.toOption = some a) :
    x = .ok a := by
  cases x with
  | error e => cases h
  | ok b =>
      cases h
      rfl

/-! ## Tables of a store -/

section Tables

variable {s : Store} {t next : Table} {path : List String}

/-- A table that is put back under its name is found instead of the old one. -/
theorem table?_putTable (h : s.table? path = some t) (hname : next.name = t.name) :
    (s.putTable next).table? path = some next := by
  have hfind (name : String) (h : s.tables.find? (fun t => Table.sameName t.name name) = some t) :
      (s.putTable next).tables.find? (fun t => Table.sameName t.name name) = some next := by
    have hsame : (fun t => Table.sameName t.name name) ∘
        (fun old : Table => if old.name = next.name then next else old) =
          fun t => Table.sameName t.name name := by
      funext old
      by_cases hold : old.name = next.name <;> simp [hold]
    rw [putTable, List.find?_map, hsame, h, Option.map_some, if_pos hname.symm]
  unfold table? at h ⊢
  split at h
  · exact hfind _ h
  · split at h
    · rename_i hmain
      rw [if_pos hmain]
      exact hfind _ h
    · cases h
  · cases h

theorem putTable_putTable (s : Store) (hname : next.name = t.name) :
    (s.putTable t).putTable next = s.putTable next := by
  have hlast (old : Table) : (if (if old.name = t.name then t else old).name = next.name then next
      else if old.name = t.name then t else old) = if old.name = next.name then next else old := by
    by_cases hold : old.name = t.name <;> simp [hold, hname]
  simp only [putTable, List.map_map, Function.comp_def, hlast]

end Tables

/-! ## Values of rows -/

/-- A row binds its values in their order. -/
theorem values_operandsFrom (before row more : List Value) :
    (operandsFrom before.length row.length).map (Operand.value (before ++ (row ++ more))) =
      row.map stored := by
  apply List.ext_getElem?
  intro i
  simp only [operandsFrom, List.map_map, List.getElem?_map, Function.comp_def, Operand.value]
  by_cases hi : i < row.length
  · simp [List.getD_eq_getElem?_getD, List.getElem?_append_right, List.getElem?_append_left, hi]
  · simp [hi]

/-- The rows of an insert bind the values of all rows one after the other. -/
theorem values_operandRows {width : Nat} {rows : List (List Value)}
    (haligned : ∀ row ∈ rows, row.length = width) :
    (operandRows width rows.length).map (fun row => row.map (Operand.value rows.flatten)) =
      rows.map fun row => row.map stored := by
  have hfrom (before : List Value) :
      ((List.range rows.length).map fun i => operandsFrom (before.length + i * width) width).map
        (fun row => row.map (Operand.value (before ++ rows.flatten))) =
          rows.map fun row => row.map stored := by
    induction rows generalizing before with
    | nil => rfl
    | cons row rows ih =>
        obtain ⟨hrow, hrows⟩ := List.forall_mem_cons.mp haligned
        have hrest := ih hrows (before ++ row)
        have hshift (i : Nat) : before.length + (i + 1) * width =
            (before ++ row).length + i * width := by
          rw [List.length_append, hrow, Nat.succ_mul]
          omega
        have hfirst := values_operandsFrom before row rows.flatten
        rw [hrow] at hfirst
        rw [List.append_assoc] at hrest
        rw [List.length_cons, List.range_succ_eq_map, List.map_cons, List.map_cons, List.map_cons,
          List.flatten_cons, ← hrest, Nat.zero_mul, Nat.add_zero, hfirst]
        simp only [List.map_map, Function.comp_def, Nat.succ_eq_add_one, hshift]
  have hall := hfrom []
  simpa [operandRows] using hall

/-! ## Rows put one by one -/

/-- The positions of columns. -/
def Table.targets? (t : Table) (columns : List String) : Option (List Nat) :=
  columns.mapM fun column => t.columnIndex? (namePath column)

/-- Insert a row with values for some of the columns. -/
def Table.insertRow (t : Table) (targets : List Nat) (row : List Value) :
    Except Failure (Table × Int64) :=
  t.insert (newKey t row targets (operandsFrom 0 row.length))
    (newValues t row targets (operandsFrom 0 row.length))

/-- A row is inserted as a statement that binds the same values does it. -/
theorem Table.insertRow_eq (t : Table) (targets : List Nat) {params row : List Value}
    {operands : List Operand} (h : operands.map (Operand.value params) = row.map stored) :
    t.insertRow targets row =
      t.insert (newKey t params targets operands) (newValues t params targets operands) := by
  have hvalues : (operandsFrom 0 row.length).map (Operand.value row) = row.map stored := by
    simpa using values_operandsFrom [] row []
  have hgiven : given row targets (operandsFrom 0 row.length) = given params targets operands := by
    rw [given, given, hvalues, h]
  simp only [insertRow, newKey, newValues, hgiven]

/-- A store has a table whose identifiers have a name and a position. -/
structure Holds (table idColumn : String) (s : Store) (t : Table) (k : Nat) : Prop where
  table : s.table? (namePath table) = some t
  column : t.columnIndex? (namePath idColumn) = some k
  keyed : t.Keyed idColumn k

/-- How the store takes the rows of a table. -/
def intake (table idColumn : String) : Intake Store where
  put columns row s := do
    let t ← s.table? (namePath table)
    let targets ← t.targets? columns
    let (next, id) ← (t.insertRow targets row).toOption
    return (id, s.putTable next)
  Ready s := ∃ t k, Holds table idColumn s t k
  columns s :=
    match s.table? (namePath table) with
    | some t => t.columns.map Column.name
    | none => []
  room s :=
    match s.table? (namePath table) with
    | some t => (Int64.maxValue.toInt - t.lastId.toInt).toNat
    | none => 0
  Fits _ params := params.length ≤ variableCeiling

section Rows

variable {table idColumn : String} {s : Store} {t : Table} {k : Nat} {columns : List String}
  {targets : List Nat} {row : List Value} {rows : List (List Value)}

theorem put_eq (htable : s.table? (namePath table) = some t)
    (htargets : t.targets? columns = some targets) :
    (intake table idColumn).put columns row s =
      (t.insertRow targets row).toOption.map fun r => (r.2, s.putTable r.1) := by
  simp only [intake, htable, htargets, bind, Option.bind_some]
  cases t.insertRow targets row <;> rfl

theorem put_eq_none (htable : s.table? (namePath table) = some t)
    (htargets : t.targets? columns = none) : (intake table idColumn).put columns row s = none := by
  simp only [intake, htable, htargets, bind, Option.bind_some, Option.bind_none]

/-- An insert into a table keeps what the store holds, and the columns of the table. -/
theorem Holds.insertRow (h : Holds table idColumn s t k) {next : Table} {id : Int64}
    (hinsert : t.insertRow targets row = .ok (next, id)) :
    Holds table idColumn (s.putTable next) next k ∧ next.columns = t.columns := by
  have hkeyed := h.keyed.insert (length_newValues ..) hinsert
  obtain ⟨rfl, -⟩ := Table.insert_spec hinsert
  exact ⟨⟨table?_putTable h.table rfl, h.column, hkeyed⟩, rfl⟩

theorem Holds.columns_eq (h : Holds table idColumn s t k) :
    (intake table idColumn).columns s = t.columns.map Column.name := by
  simp only [intake, h.table]

/-- A row that is put has been inserted into the table. -/
theorem exists_of_put {id : Int64} {next : Store} (htable : s.table? (namePath table) = some t)
    (h : (intake table idColumn).put columns row s = some (id, next)) :
    ∃ targets added, t.targets? columns = some targets ∧
      t.insertRow targets row = .ok (added, id) ∧ next = s.putTable added := by
  cases htargets : t.targets? columns with
  | none =>
      rw [put_eq_none htable htargets] at h
      cases h
  | some targets =>
      rw [put_eq htable htargets] at h
      obtain ⟨⟨added, _⟩, hinsert, hr⟩ := Option.map_eq_some_iff.mp h
      cases hr
      exact ⟨targets, added, rfl, eq_ok_of_toOption hinsert, rfl⟩

/-- Rows that are put one by one are inserted one by one. -/
theorem putAll_putTable (idColumn : String) {params : List Value} {operands : List (List Operand)}
    (hvalues : operands.map (fun row => row.map (Operand.value params)) =
      rows.map fun row => row.map stored)
    (htable : (s.putTable t).table? (namePath table) = some t)
    (htargets : t.targets? columns = some targets) :
    (intake table idColumn).putAll columns rows (s.putTable t) =
      (insertAll params targets [] t operands).toOption.map fun r => (r.2, s.putTable r.1) := by
  induction rows generalizing t operands with
  | nil =>
      rw [List.map_nil, List.map_eq_nil_iff] at hvalues
      subst hvalues
      rfl
  | cons row rows ih =>
      obtain ⟨first, others, rfl, hfirst, hothers⟩ := List.map_eq_cons_iff.mp hvalues
      rw [Intake.putAll, put_eq htable htargets, t.insertRow_eq targets hfirst, insertAll]
      cases hinsert : t.insert (newKey t params targets first)
          (newValues t params targets first) with
      | error e => rfl
      | ok r =>
          obtain ⟨middle, id⟩ := r
          obtain ⟨hmiddle, -⟩ := Table.insert_spec hinsert
          have hname : middle.name = t.name := by rw [hmiddle]
          have htargets' : middle.targets? columns = some targets := by
            rw [← htargets, hmiddle]
            rfl
          -- the table that has been put back is the one that the next row is put into
          have htable' := table?_putTable htable hname
          rw [putTable_putTable s hname] at htable'
          have hrest := ih hothers htable' htargets'
          simp only [bind, Except.bind, Except.toOption, Option.map_some, Option.bind_some,
            putTable_putTable s hname, hrest, List.nil_append]
          rw [insertAll_append params targets [id] middle others]
          cases insertAll params targets [] middle others <;> rfl

/-- Rows that a statement inserts are put one by one. -/
theorem putAll_eq (htable : s.table? (namePath table) = some t)
    (htargets : t.targets? columns = some targets) (hne : rows ≠ [])
    (haligned : ∀ row ∈ rows, row.length = columns.length) :
    (intake table idColumn).putAll columns rows s =
      (insertAll rows.flatten targets [] t (operandRows columns.length rows.length)).toOption.map
        fun r => (r.2, s.putTable r.1) := by
  have hsame : (s.putTable t).table? (namePath table) = some t := table?_putTable htable rfl
  rw [← putAll_putTable idColumn (values_operandRows haligned) hsame htargets]
  -- only the first row sees whether the table has been put back
  cases rows with
  | nil => exact absurd rfl hne
  | cons row rows =>
      rw [Intake.putAll, Intake.putAll, put_eq htable htargets, put_eq hsame htargets]
      cases hinsert : t.insertRow targets row with
      | error e => rfl
      | ok r =>
          obtain ⟨middle, id⟩ := r
          obtain ⟨hmiddle, -⟩ := Table.insert_spec hinsert
          have hname : middle.name = t.name := by rw [hmiddle]
          simp only [Except.toOption, Option.map_some, putTable_putTable s hname]

theorem putAll_eq_none (htable : s.table? (namePath table) = some t)
    (htargets : t.targets? columns = none) (hne : rows ≠ []) :
    (intake table idColumn).putAll columns rows s = none := by
  cases rows with
  | nil => exact absurd rfl hne
  | cons row rows =>
      rw [Intake.putAll, put_eq_none htable htargets]
      rfl

/-! ## Identifiers of rows -/

theorem forall₂_of_targets? (h : t.targets? columns = some targets) :
    List.Forall₂ (fun column i => t.columnIndex? (namePath column) = some i) columns targets := by
  induction columns generalizing targets with
  | nil =>
      cases h
      exact .nil
  | cons column columns ih =>
      rw [Table.targets?, List.mapM_cons] at h
      obtain ⟨i, hi, h⟩ := Option.bind_eq_some_iff.mp h
      obtain ⟨others, hothers, h⟩ := Option.bind_eq_some_iff.mp h
      cases h
      exact .cons hi (ih hothers)

/-- A name is found through the last segment of a column. -/
theorem exists_of_columnIndex? {column : String} {i : Nat}
    (h : t.columnIndex? (namePath column) = some i) :
    ∃ name ∈ (namePath column).getLast?, t.nameIndex? name = some i := by
  unfold Table.columnIndex? at h
  split at h
  · rename_i name hpath
    rw [hpath]
    exact ⟨name, rfl, h⟩
  · rename_i qualifier name hpath
    split at h
    · rw [hpath]
      exact ⟨name, rfl, h⟩
    · cases h
  · cases h

/-- A column that is found where the identifier is means the identifier. -/
theorem Holds.meansId (h : Holds table idColumn s t k) {column : String}
    (hindex : t.columnIndex? (namePath column) = some k) :
    (intake table idColumn).MeansId s idColumn column := by
  obtain ⟨name, hlast, hname⟩ := exists_of_columnIndex? hindex
  unfold Table.nameIndex? at hname
  split at hname
  · rename_i i hfind
    cases hname
    obtain ⟨hlt, hsame, -⟩ := List.findIdx?_eq_some_iff_getElem.mp hfind
    have hnamed := h.keyed.named
    rw [Table.columnAt, List.getD_eq_getElem?_getD, List.getElem?_eq_getElem hlt,
      Option.getD_some] at hnamed
    rw [hnamed] at hsame
    exact .inl ⟨name, hlast, hsame⟩
  -- no column of the table has the name, so it is one of those for identifiers
  · rename_i hnone
    split at hname
    · rename_i hany
      obtain ⟨other, hother, hsame⟩ := List.any_eq_true.mp hany
      refine .inr ⟨⟨other, hother, name, hlast, ?_⟩, ?_⟩
      · rw [Table.sameName, decide_eq_true_eq] at hsame ⊢
        exact hsame.symm
      · rw [h.columns_eq]
        rintro own hown ⟨segment, hsegment, hsame⟩
        obtain ⟨c, hc, rfl⟩ := List.mem_map.mp hown
        rw [Option.mem_unique hsegment hlast] at hsame
        exact Bool.false_ne_true ((List.findIdx?_eq_none_iff.mp hnone c hc).symm.trans hsame)
    · cases hname

theorem Holds.notMem_targets (h : Holds table idColumn s t k)
    (hcolumns : (intake table idColumn).LeavesOut s idColumn columns)
    (htargets : t.targets? columns = some targets) : k ∉ targets := by
  have hfound := forall₂_of_targets? htargets
  unfold Intake.LeavesOut at hcolumns
  clear htargets
  induction hfound with
  | nil => exact List.not_mem_nil
  | cons hindex _ ih =>
      obtain ⟨hcolumn, hrest⟩ := List.forall_mem_cons.mp hcolumns
      intro hk
      rcases List.mem_cons.mp hk with rfl | hk
      · exact hcolumn (h.meansId hindex)
      · exact ih hrest hk

/-- While numbers are left, rows that leave the identifier out get consecutive ones. -/
theorem isChain_putAll (h : Holds table idColumn s t k)
    (hcolumns : (intake table idColumn).LeavesOut s idColumn columns)
    (hroom : t.lastId.toInt + rows.length ≤ Int64.maxValue.toInt) {ids : List Int64} {next : Store}
    (hput : (intake table idColumn).putAll columns rows s = some (ids, next)) :
    Counting (t.lastId :: ids) := by
  induction rows generalizing s t ids with
  | nil =>
      cases hput
      exact .singleton _
  | cons row rows ih =>
      obtain ⟨⟨id, middle⟩, hfirst, hput⟩ := Option.bind_eq_some_iff.mp hput
      obtain ⟨⟨others, last⟩, hrest, hput⟩ := Option.bind_eq_some_iff.mp hput
      cases hput
      obtain ⟨targets, added, htargets, hinsert, rfl⟩ := exists_of_put h.table hfirst
      have hkey := h.notMem_targets hcolumns htargets
      rw [← h.keyed.key] at hkey
      obtain ⟨hheld, hsame⟩ := h.insertRow hinsert
      have hleaves := hcolumns.of_columns_eq (hheld.columns_eq.trans (hsame ▸ h.columns_eq.symm))
      rw [Table.insertRow, newKey_eq_null hkey] at hinsert
      rw [List.length_cons] at hroom
      obtain ⟨hid, hlast⟩ := h.keyed.lastId_of_insert (by omega) hinsert
      have hchain := ih hheld hleaves (by rw [hlast]; omega) hrest
      rw [hlast] at hchain
      exact .cons_cons hid hchain

/-! ## What is told of an insert -/

theorem toOption_mapM_insertTarget {refs : List Ref}
    (h : refs.map Ref.path = columns.map namePath) :
    (refs.mapM (insertTarget t)).toOption = t.targets? columns := by
  induction columns generalizing refs with
  | nil =>
      rw [List.map_nil, List.map_eq_nil_iff] at h
      subst h
      rfl
  | cons column columns ih =>
      obtain ⟨r, rest, rfl, hpath, hrest⟩ := List.map_eq_cons_iff.mp h
      have hthen := ih hrest
      rw [Table.targets?] at hthen ⊢
      rw [List.mapM_cons, List.mapM_cons, ← hthen, ← hpath, insertTarget]
      cases t.columnIndex? r.path with
      | none => rfl
      | some i => cases rest.mapM (insertTarget t) <;> rfl

/-- The names of an insert into named columns are found one after the other. -/
theorem bindNames_insert {path : List String} (htable : s.table? path = some t) {refs : List Ref}
    (hne : refs ≠ []) (operands : List (List Operand)) (returning : List Ref) :
    bindNames s (.insert path refs operands returning) = do
      let targets ← refs.mapM (insertTarget t)
      match operands.find? fun row => row.length ≠ targets.length with
      | some row => .error (.valueCount row.length targets.length)
      | none => return .insert t targets operands (← returning.mapM (resolve t)) := by
  have hfind : findTable s path = .ok t := by rw [findTable, htable]
  cases refs with
  | nil => exact absurd rfl hne
  | cons r refs =>
      rw [bindNames, hfind]
      rfl

theorem refs_ne_nil {refs : List Ref} (h : refs.map Ref.path = columns.map namePath)
    (hcolumns : columns ≠ []) : refs ≠ [] := by
  rintro rfl
  exact hcolumns (List.map_eq_nil_iff.mp h.symm)

/-- An insert into columns that a table does not have is refused. -/
theorem bindNames_of_targets?_eq_none {path : List String} (htable : s.table? path = some t)
    (hne : columns ≠ []) {refs : List Ref} (hrefs : refs.map Ref.path = columns.map namePath)
    (htargets : t.targets? columns = none) (operands : List (List Operand))
    (returning : List Ref) :
    ∃ e, bindNames s (.insert path refs operands returning) = .error e := by
  have hoption := toOption_mapM_insertTarget (t := t) hrefs
  rw [htargets] at hoption
  cases herror : refs.mapM (insertTarget t) with
  | ok targets =>
      rw [herror] at hoption
      cases hoption
  | error e =>
      refine ⟨e, ?_⟩
      rw [bindNames_insert htable (refs_ne_nil hrefs hne), herror]
      rfl

/-- The names of an insert into columns of a table are all found. -/
theorem bindNames_of_targets? {path : List String} (htable : s.table? path = some t)
    (hne : columns ≠ []) {refs : List Ref} (hrefs : refs.map Ref.path = columns.map namePath)
    (htargets : t.targets? columns = some targets) {back : Option String} {returning : List Ref}
    (hreturning : returning.map Ref.path = back.toList.map namePath)
    (hback : ∀ column ∈ back, t.columnIndex? (namePath column) = some k) (count : Nat) :
    bindNames s (.insert path refs (operandRows columns.length count) returning) =
      .ok (.insert t targets (operandRows columns.length count) (back.toList.map fun _ => k)) := by
  have hmapM : refs.mapM (insertTarget t) = .ok targets :=
    eq_ok_of_toOption ((toOption_mapM_insertTarget hrefs).trans htargets)
  have hwidths : (operandRows columns.length count).find?
      (fun row => row.length ≠ targets.length) = none := by
    rw [List.find?_eq_none]
    intro row hrow
    obtain ⟨i, -, rfl⟩ := List.mem_map.mp hrow
    simp [operandsFrom, (forall₂_of_targets? htargets).length_eq]
  have hasked : returning.mapM (resolve t) = .ok (back.toList.map fun _ => k) := by
    cases back with
    | none =>
        have hnil : returning = [] := List.map_eq_nil_iff.mp hreturning
        subst hnil
        rfl
    | some column =>
        obtain ⟨r, rest, rfl, hpath, hrest⟩ := List.map_eq_cons_iff.mp hreturning
        have hnil : rest = [] := List.map_eq_nil_iff.mp hrest
        have hresolve : resolve t r = .ok k := by
          rw [resolve, hpath, hback column rfl]
        subst hnil
        simp [hresolve, pure, Except.pure, bind, Except.bind]
  rw [bindNames_insert htable (refs_ne_nil hrefs hne), hmapM]
  simp only [hwidths, hasked, bind, Except.bind, pure, Except.pure]

variable {back : Option String} {sql : String}

/-- An insert is read if the table has its columns and it does not have too many parameters. -/
theorem bindText_eq_ok_iff (h : Holds table idColumn s t k)
    (hinsert : PlainInsert (intake table idColumn) s table idColumn columns rows back sql)
    {b : Bound} :
    s.bindText sql rows.flatten = .ok b ↔
      rows.flatten.length ≤ variableCeiling ∧ ∃ targets, t.targets? columns = some targets ∧
        b = .insert t targets (operandRows columns.length rows.length)
          (back.toList.map fun _ => k) := by
  obtain ⟨refs, returning, offsets, hrefs, hreturning, hoffsets, hprepare⟩ := hinsert.text
  -- there is a parameter for each placeholder, because all rows are as wide as the columns
  have hcount : rows.flatten.length = offsets.length := by
    rw [length_flatten_of_forall hinsert.aligned, hoffsets]
  rw [bindText, hprepare, hcount]
  by_cases hfits : offsets.length ≤ variableCeiling
  · have hceiling : offsets[variableCeiling]? = none := List.getElem?_eq_none hfits
    simp only [hceiling]
    cases htargets : t.targets? columns with
    | none =>
        obtain ⟨e, he⟩ := bindNames_of_targets?_eq_none h.table hinsert.columns_ne_nil hrefs
          htargets (operandRows columns.length rows.length) returning
        simp [he, bind, Except.bind]
    | some targets =>
        have hback : ∀ column ∈ back, t.columnIndex? (namePath column) = some k := by
          intro column hcolumn
          rw [hinsert.asks column hcolumn, h.column]
        have hfound := bindNames_of_targets? h.table hinsert.columns_ne_nil hrefs htargets
          hreturning hback rows.length
        simp [hfound, bind, Except.bind, pure, Except.pure, hfits, eq_comm]
  · have hceiling : offsets[variableCeiling]? = some offsets[variableCeiling] :=
      List.getElem?_eq_getElem (Nat.lt_of_not_le hfits)
    simp [hceiling, hfits]

/-- Every inserted row is shown with its identifier. -/
theorem map_get?_project {added : Table} {ids : List Int64} (hkeyed : added.Keyed idColumn k)
    (hids : ∀ id ∈ ids, ∃ r ∈ added.records, r.id = id) :
    ((ids.filterMap fun id => added.records.find? fun r => r.id = id).map
      (project added [k])).map (fun row => row.get? idColumn) =
        ids.map fun id => some (.integer id) := by
  induction ids with
  | nil => rfl
  | cons id ids ih =>
      obtain ⟨⟨found, hfound, hid⟩, hrest⟩ := List.forall_mem_cons.mp hids
      obtain ⟨r, hr⟩ : ∃ r, (added.records.find? fun r => r.id = id) = some r := by
        rw [← Option.isSome_iff_exists, List.find?_isSome]
        exact ⟨found, hfound, decide_eq_true hid⟩
      have hshown : (project added [k] r).get? idColumn = some (.integer id) := by
        have hrid : r.id = id := by simpa using List.find?_some hr
        have hvalue := hkeyed.shows r (List.mem_of_find?_eq_some hr)
        simp only [project, List.map_cons, List.map_nil, Row.get?, hkeyed.named, hvalue, hrid,
          List.lookup_cons_self]
      rw [List.filterMap_cons, hr, List.map_cons, List.map_cons, List.map_cons, hshown, ih hrest]

/-- What is told of rows that have been inserted. -/
theorem tell_insert {params : List Value} {operands : List (List Operand)} {added : Table}
    {ids : List Int64} (hkeyed : t.Keyed idColumn k) (hback : ∀ column ∈ back, column = idColumn)
    (hne : ids ≠ []) (hcount : ids.length < UInt64.size)
    (hinsert : insertAll params targets [] t operands = .ok (added, ids)) :
    ∃ out, s.tell params (.insert t targets operands (back.toList.map fun _ => k)) =
      .ok (out, s.putTable added) ∧ out.Tells back ids := by
  obtain ⟨hadded, hids⟩ := hkeyed.insertAll (fun _ hid => absurd hid List.not_mem_nil) hinsert
  have htell : s.tell params (.insert t targets operands (back.toList.map fun _ => k)) =
      .ok (⟨if (back.toList.map fun _ => k).isEmpty then [] else
        (ids.filterMap fun id => added.records.find? fun r => r.id = id).map
          (project added (back.toList.map fun _ => k)), false, .ofNat ids.length,
            ids.getLast?.getD 0⟩, s.putTable added) := by
    rw [tell, runBound, lastRowid, hinsert]
    rfl
  refine ⟨_, htell, rfl, UInt64.toNat_ofNat_of_lt hcount, ?_, ?_⟩
  · rw [List.getLast?_eq_some_getLast hne]
    rfl
  · rintro column hcolumn
    obtain rfl := hback column hcolumn
    cases hcolumn
    exact map_get?_project hadded hids

/-- An insert that is read and whose rows can be inserted puts them one by one, and tells their
identifiers. -/
theorem tellText_of_insertAll (h : Holds table idColumn s t k)
    (hinsert : PlainInsert (intake table idColumn) s table idColumn columns rows back sql)
    (hfits : rows.flatten.length ≤ variableCeiling) (htargets : t.targets? columns = some targets)
    {added : Table} {ids : List Int64}
    (hall : insertAll rows.flatten targets [] t (operandRows columns.length rows.length) =
      .ok (added, ids)) :
    (intake table idColumn).putAll columns rows s = some (ids, s.putTable added) ∧
      ∃ out, s.tellText sql rows.flatten = .ok (out, s.putTable added) ∧ out.Tells back ids := by
  have hput : (intake table idColumn).putAll columns rows s = some (ids, s.putTable added) := by
    rw [putAll_eq h.table htargets hinsert.rows_ne_nil hinsert.aligned, hall]
    rfl
  have hlength : ids.length = rows.length := Intake.length_putAll hput
  have hne : ids ≠ [] := by
    rw [← List.length_pos_iff, hlength, List.length_pos_iff]
    exact hinsert.rows_ne_nil
  have hcount : ids.length < UInt64.size := by
    have hwidth : 0 < columns.length := List.length_pos_iff.mpr hinsert.columns_ne_nil
    have hle : rows.length ≤ rows.length * columns.length := Nat.le_mul_of_pos_right _ hwidth
    rw [length_flatten_of_forall hinsert.aligned] at hfits
    rw [hlength]
    exact Nat.lt_of_le_of_lt (hle.trans hfits) (by decide)
  obtain ⟨out, htell, hout⟩ := tell_insert (s := s) h.keyed hinsert.asks hne hcount hall
  refine ⟨hput, out, ?_, hout⟩
  rw [tellText, (bindText_eq_ok_iff h hinsert).mpr ⟨hfits, targets, htargets, rfl⟩]
  exact htell

theorem run_connection_eq_ok_iff {params : List Value} {out : Connection.Outcome} {next : Store} :
    connection.run sql params s = (.ok out, next) ↔ s.tellText sql params = .ok (out, next) := by
  simp only [connection]
  cases s.tellText sql params with
  | error e => simp
  | ok r => simp [Prod.ext_iff]

/-- The store takes the rows of a table as a connection to a database is taken to do. -/
theorem takes_connection (table idColumn : String) :
    connection.Takes (intake table idColumn) table idColumn where
  ready := by
    rintro columns row s id next ⟨t, k, h⟩ - hput
    obtain ⟨targets, added, -, hinsert, rfl⟩ := exists_of_put h.table hput
    obtain ⟨hheld, hsame⟩ := h.insertRow hinsert
    exact ⟨⟨added, k, hheld⟩, by rw [hheld.columns_eq, h.columns_eq, hsame]⟩
  counting := by
    rintro columns rows s ids next ⟨t, k, h⟩ hcolumns hroom hput
    have hleft : t.lastId.toInt + rows.length ≤ Int64.maxValue.toInt := by
      have hmax : t.lastId.toInt ≤ Int64.maxValue.toInt := t.lastId.toInt_le
      simp only [intake, h.table] at hroom
      omega
    exact (isChain_putAll h hcolumns hleft hput).tail
  ran := by
    rintro columns rows back sql s out next ⟨t, k, h⟩ hinsert hrun
    obtain ⟨b, hbind, htell⟩ := bind_eq_ok_iff.mp (run_connection_eq_ok_iff.mp hrun)
    obtain ⟨hfits, targets, htargets, rfl⟩ := (bindText_eq_ok_iff h hinsert).mp hbind
    obtain ⟨_, hresult, -⟩ := bind_eq_ok_iff.mp htell
    obtain ⟨⟨added, ids⟩, hall, -⟩ := bind_eq_ok_iff.mp hresult
    obtain ⟨hput, out', htold, hout⟩ := tellText_of_insertAll h hinsert hfits htargets hall
    cases htold.symm.trans (run_connection_eq_ok_iff.mp hrun)
    exact ⟨ids, hput, hout⟩
  runs := by
    rintro columns rows back sql s ids next ⟨t, k, h⟩ hinsert hfits hput
    cases htargets : t.targets? columns with
    | none =>
        rw [putAll_eq_none h.table htargets hinsert.rows_ne_nil] at hput
        cases hput
    | some targets =>
        rw [putAll_eq h.table htargets hinsert.rows_ne_nil hinsert.aligned] at hput
        obtain ⟨⟨added, _⟩, hall, -⟩ := Option.map_eq_some_iff.mp hput
        obtain ⟨-, out, htell, -⟩ :=
          tellText_of_insertAll h hinsert hfits htargets (eq_ok_of_toOption hall)
        exact ⟨out, _, run_connection_eq_ok_iff.mpr htell⟩

end Rows

/-- Options that allow no more parameters than the store make only statements that keep to its
limits. -/
theorem fitsAll_of_plan (table idColumn : String) {o : Options} {b : BulkInsert} {p : InsertPlan}
    (hparams : o.maxParams ≤ variableCeiling) (hlimit : o.maxInsertRows ≠ some 0)
    (hplan : (b.plan o).result = .ok p) : (intake table idColumn).FitsAll p.statements := by
  obtain ⟨hb, size, hsize, rfl⟩ := BulkInsert.plan_eq_ok_iff.mp hplan
  obtain ⟨-, -, -, hpos⟩ := batchSize_eq_ok hsize
  intro s hs
  show (s.fragment.params.map Connection.bound).length ≤ variableCeiling
  rw [List.length_map]
  have hpartitions := BulkInsert.partitions_planOf hsize (hpos hlimit) hb.aligned
  exact (hpartitions.paramLimit s hs).trans hparams

end BoundSql.Store
