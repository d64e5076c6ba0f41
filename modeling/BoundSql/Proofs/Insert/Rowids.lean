import BoundSql.Proofs.Insert.Bookkeeping
import BoundSql.Proofs.Store.Connection
import BoundSql.Proofs.Store.Reading
import Mathlib.Data.List.Chain

/-!
# Row identifiers of inserts

A database takes the rows of an insert one by one and gives each an identifier.  An insert that
leaves the identifier out and runs has had all its rows taken, and the connection tells the number
of rows, the identifier of the last one and, if the text asks for it, a row with the identifier of
each inserted row, in their order.  As long as the identifiers do not run out, they are consecutive.

A database may refuse a statement that takes rows, say for the number of its parameters.  Which
statements keep to its limits is left open; those that do run if their rows are taken.

An insert of many rows that returns then returns the identifiers that its rows got, whether they are
counted up from the first one or read from the rows, and however the rows are cut into batches.
Nothing is claimed about what a failed insert leaves behind.
-/

namespace BoundSql

open Connection (bound startsInsert)
open Store (Inserting asked namePath)

/-! ## Consecutive identifiers -/

/-- Identifiers each of which is one more than the one before. -/
def Counting (ids : List Int64) : Prop := ids.IsChain fun i j => j.toInt = i.toInt + 1

namespace Counting

variable {i j : Int64} {ids more : List Int64}

theorem next_eq (h : j.toInt = i.toInt + 1) : j = i + 1 := (add_ofNat_eq (k := 1) h).symm

theorem right (h : Counting (ids ++ more)) : Counting more := List.IsChain.right_of_append h

/-- Counting up from the first identifier gives the others. -/
theorem consecutive_eq (h : Counting (i :: ids)) :
    Collector.consecutive i (ids.length + 1) = (i :: ids).map Value.integer := by
  induction ids generalizing i with
  | nil => simp [Collector.consecutive]
  | cons j ids ih =>
      obtain ⟨hnext, htail⟩ := List.isChain_cons_cons.mp h
      have hj : j = i + 1 := next_eq hnext
      have hshift (k : Nat) : i + Int64.ofNat (k + 1) = j + Int64.ofNat k := by
        rw [hj, Int64.ofNat_add, Int64.add_assoc, Int64.add_comm (Int64.ofNat k)]
        rfl
      -- what is counted from `i` on is `i`, and what is counted from `j` on
      have hrest := ih htail
      rw [List.map_cons, ← hrest, List.length_cons]
      simp only [Collector.consecutive]
      rw [List.range_succ_eq_map (n := ids.length + 1), List.map_cons, List.map_map]
      simp only [Function.comp_def, Nat.succ_eq_add_one, hshift]
      simp

/-- The first identifier is the last one, less one for each other. -/
theorem first_eq (h : Counting (i :: ids)) :
    (i :: ids).getLast (List.cons_ne_nil i ids) - (Int64.ofNat (ids.length + 1) - 1) = i := by
  have hlast : (i :: ids).getLast (List.cons_ne_nil i ids) = i + Int64.ofNat ids.length := by
    induction ids generalizing i with
    | nil => simp
    | cons j ids ih =>
        obtain ⟨hnext, htail⟩ := List.isChain_cons_cons.mp h
        rw [List.getLast_cons_cons, ih htail, next_eq hnext, List.length_cons, Int64.ofNat_add,
          Int64.add_assoc, Int64.add_comm 1]
        rfl
  have hcount : Int64.ofNat (ids.length + 1) - 1 = Int64.ofNat ids.length := by
    rw [Int64.ofNat_add]
    exact Int64.add_sub_cancel _ _
  rw [hlast, hcount]
  exact Int64.add_sub_cancel _ _

end Counting

/-! ## Databases that take rows -/

/-- How a database over states of type `σ` takes the rows of a table. -/
structure Intake (σ : Type) where
  /-- Put a row with values for some columns; it gets an identifier. -/
  put (columns : List String) (row : List Value) (s : σ) : Option (Int64 × σ)
  /-- Whether the table is there. -/
  Ready : σ → Prop
  /-- The names of the columns of the table. -/
  columns : σ → List String
  /-- The number of identifiers that are left. -/
  room : σ → Nat
  /-- Whether a statement with its parameters keeps to the limits of the database. -/
  Fits (sql : String) (params : List Value) : Prop

/-- A column goes by a name, whether or not it is qualified and in any case of the letters. -/
def GoesBy (name column : String) : Prop :=
  ∃ segment ∈ (namePath column).getLast?, Store.Table.sameName name segment = true

namespace Intake

variable {σ : Type}

/-- Put rows one by one. -/
def putAll (d : Intake σ) (columns : List String) :
    List (List Value) → σ → Option (List Int64 × σ)
  | [], s => some ([], s)
  | row :: rows, s => do
      let (id, s) ← d.put columns row s
      let (ids, s) ← d.putAll columns rows s
      return (id :: ids, s)

/-- A column means the identifier: it goes by the name of the identifier column, or by one of the
names that the identifier has in every table whose own columns do not have that name. -/
def MeansId (d : Intake σ) (s : σ) (idColumn column : String) : Prop :=
  GoesBy idColumn column ∨
    (∃ name ∈ Store.rowidNames, GoesBy name column) ∧ ∀ own ∈ d.columns s, ¬GoesBy own column

/-- None of the columns means the identifier. -/
def LeavesOut (d : Intake σ) (s : σ) (idColumn : String) (columns : List String) : Prop :=
  ∀ column ∈ columns, ¬d.MeansId s idColumn column

/-- All statements keep to the limits of the database. -/
def FitsAll (d : Intake σ) (batches : List InsertBatch) : Prop :=
  ∀ b ∈ batches, d.Fits b.fragment.sql (b.fragment.params.map bound)

end Intake

/-- An insert of rows into a database that leaves the identifier out, and may ask for it. -/
structure PlainInsert {σ : Type} (d : Intake σ) (s : σ) (table idColumn : String)
    (columns : List String) (rows : List (List Value)) (back : Option String) (sql : String) :
    Prop where
  columns_ne_nil : columns ≠ []
  rows_ne_nil : rows ≠ []
  aligned : ∀ row ∈ rows, row.length = columns.length
  leaves_out : d.LeavesOut s idColumn columns
  text : Inserting table columns rows.length back sql
  asks : ∀ column ∈ back, column = idColumn

/-- What is told of an insert whose rows got identifiers. -/
structure Connection.Outcome.Tells (out : Connection.Outcome) (back : Option String)
    (ids : List Int64) : Prop where
  readonly : out.readonly = false
  changes : out.changes.toNat = ids.length
  lastRowid : ids.getLast? = some out.lastRowid
  /-- One row is returned for each inserted row, if the text asks for it. -/
  rows : ∀ column ∈ back,
    out.rows.map (fun row => row.get? column) = ids.map fun id => some (.integer id)

/-- A connection to a database that takes rows. -/
structure Connection.Takes {σ : Type} (k : Connection σ) (d : Intake σ)
    (table idColumn : String) : Prop where
  /-- A row that is put leaves the table there, with its columns. -/
  ready : ∀ {columns row s id next}, d.Ready s → d.LeavesOut s idColumn columns →
    d.put columns row s = some (id, next) → d.Ready next ∧ d.columns next = d.columns s
  /-- While there are identifiers left, the rows of an insert get consecutive ones. -/
  counting : ∀ {columns rows s ids next}, d.Ready s → d.LeavesOut s idColumn columns →
    rows.length ≤ d.room s → d.putAll columns rows s = some (ids, next) → Counting ids
  /-- The rows of an insert that runs are taken one by one, and it tells their identifiers. -/
  ran : ∀ {columns rows back sql s out next}, d.Ready s →
    PlainInsert d s table idColumn columns rows back sql →
      k.run sql rows.flatten s = (.ok out, next) →
        ∃ ids, d.putAll columns rows s = some (ids, next) ∧ out.Tells back ids
  /-- An insert within the limits runs if its rows are taken. -/
  runs : ∀ {columns rows back sql s ids next}, d.Ready s →
    PlainInsert d s table idColumn columns rows back sql → d.Fits sql rows.flatten →
      d.putAll columns rows s = some (ids, next) →
        ∃ out last, k.run sql rows.flatten s = (.ok out, last)

namespace Intake

variable {σ : Type} {d : Intake σ} {columns : List String} {rows more : List (List Value)}
  {s next : σ} {ids : List Int64}

theorem putAll_append (d : Intake σ) (columns : List String) (rows more : List (List Value))
    (s : σ) :
    d.putAll columns (rows ++ more) s = do
      let (ids, s) ← d.putAll columns rows s
      let (others, s) ← d.putAll columns more s
      return (ids ++ others, s) := by
  induction rows generalizing s with
  | nil => cases h : d.putAll columns more s <;> simp [putAll, h]
  | cons row rows ih => simp [putAll, ih, Option.bind_assoc]

theorem length_putAll (h : d.putAll columns rows s = some (ids, next)) :
    ids.length = rows.length := by
  induction rows generalizing s ids with
  | nil =>
      cases h
      rfl
  | cons row rows ih =>
      obtain ⟨⟨id, middle⟩, -, h⟩ := Option.bind_eq_some_iff.mp h
      obtain ⟨⟨others, last⟩, hrest, h⟩ := Option.bind_eq_some_iff.mp h
      cases h
      rw [List.length_cons, List.length_cons, ih hrest]

/-- The columns of a table decide which names mean the identifier. -/
theorem LeavesOut.of_columns_eq {idColumn : String} (h : d.LeavesOut s idColumn columns)
    (hsame : d.columns next = d.columns s) : d.LeavesOut next idColumn columns := by
  unfold LeavesOut MeansId
  rw [hsame]
  exact h

theorem ready_of_putAll {k : Connection σ} {table idColumn : String}
    (hk : k.Takes d table idColumn) (hcolumns : d.LeavesOut s idColumn columns)
    (hready : d.Ready s) (h : d.putAll columns rows s = some (ids, next)) :
    d.Ready next ∧ d.LeavesOut next idColumn columns := by
  induction rows generalizing s ids with
  | nil =>
      cases h
      exact ⟨hready, hcolumns⟩
  | cons row rows ih =>
      obtain ⟨⟨id, middle⟩, hput, h⟩ := Option.bind_eq_some_iff.mp h
      obtain ⟨⟨others, last⟩, hrest, h⟩ := Option.bind_eq_some_iff.mp h
      cases h
      obtain ⟨hmiddle, hsame⟩ := hk.ready hready hcolumns hput
      exact ih (hcolumns.of_columns_eq hsame) hmiddle hrest

/-- However many of the rows are put, they get consecutive identifiers. -/
def Counts (d : Intake σ) (columns : List String) (rows : List (List Value)) (s : σ) : Prop :=
  ∀ first ids next, first <+: rows → d.putAll columns first s = some (ids, next) → Counting ids

theorem Counts.of_prefix (h : d.Counts columns (rows ++ more) s)
    (hput : d.putAll columns rows s = some (ids, next)) : Counting ids :=
  h rows ids next (List.prefix_append rows more) hput

theorem Counts.rest (h : d.Counts columns (rows ++ more) s)
    (hput : d.putAll columns rows s = some (ids, next)) : d.Counts columns more next := by
  intro first others last hfirst hothers
  have hboth : d.putAll columns (rows ++ first) s = some (ids ++ others, last) := by
    rw [putAll_append, hput]
    simp [hothers]
  exact (h _ _ _ ((List.prefix_append_right_inj rows).mpr hfirst) hboth).right

end Intake

/-! ## One batch -/

/-- Options under which an insert learns the identifiers of its rows: counted up from the first, or
read from the cells of a column. -/
def Options.Learns (o : Options) (idColumn : String) : Prop :=
  o.dialect = .mysql ∨ o.dialect = .sqlite ∧ o.idColumn = some idColumn

namespace Options.Learns

variable {o : Options} {idColumn : String}

theorem dialect (h : o.Learns idColumn) : o.dialect = .mysql ∨ o.dialect = .sqlite :=
  h.imp_right And.left

theorem collects (h : o.Learns idColumn) : Collector.Collects o := by
  rcases h with h | ⟨-, h⟩
  · left
    rw [h]
    rfl
  · right
    rw [h]
    exact Option.some_ne_none idColumn

theorem eq_of_asked (h : o.Learns idColumn) : ∀ column ∈ asked o, column = idColumn := by
  intro column hcolumn
  rcases h with h | ⟨hdialect, hid⟩
  · rw [asked, h] at hcolumn
    cases hcolumn
  · rw [asked, hdialect] at hcolumn
    exact (Option.some_inj.mp (hid.symm.trans hcolumn)).symm

end Options.Learns

theorem Store.Inserting.startsInsert {table sql : String} {columns : List String} {rows : Nat}
    {back : Option String} (h : Inserting table columns rows back sql) :
    startsInsert sql = true := by
  obtain ⟨refs, returning, offsets, -, -, -, hprepare⟩ := h
  exact Store.startsInsert_of_prepare? hprepare

/-- Either way of learning finds the identifiers that the rows got. -/
theorem Collector.idsOf_of_tells {o : Options} {idColumn sql : String} {out : Connection.Outcome}
    {ids : List Int64} (ho : o.Learns idColumn) (hsql : startsInsert sql = true)
    (hids : Counting ids) (hout : out.Tells (asked o) ids) :
    (new o 0).idsOf ids.length (out.raw sql) = ids.map Value.integer := by
  obtain ⟨i, rest, rfl⟩ : ∃ i rest, ids = i :: rest := by
    cases ids with
    | nil => cases hout.lastRowid
    | cons i rest => exact ⟨i, rest, rfl⟩
  have hraw : out.raw sql = ⟨out.rows, out.changes, out.firstId? sql⟩ := by
    rw [Connection.Outcome.raw, hout.readonly]
    rfl
  rw [hraw]
  rcases ho with hdialect | ⟨hdialect, hid⟩
  -- the first identifier is reckoned from what is told of the last one
  · have hstrategy : o.dialect.idStrategy = .firstInsertId := by
      rw [hdialect]
      rfl
    have hlast : out.lastRowid = (i :: rest).getLast (List.cons_ne_nil i rest) := by
      have htold := hout.lastRowid
      rw [List.getLast?_eq_some_getLast (List.cons_ne_nil i rest)] at htold
      exact (Option.some_inj.mp htold).symm
    have hchanges : out.changes = .ofNat (rest.length + 1) := by
      rw [← UInt64.ofNat_toNat (x := out.changes), hout.changes, List.length_cons]
    have hpos : 0 < out.changes := by
      rw [UInt64.lt_iff_toNat_lt, hout.changes]
      exact Nat.zero_lt_succ _
    have hfirst : out.firstId? sql = some i := by
      rw [Connection.Outcome.firstId?, if_pos ⟨hsql, hpos⟩, hlast, hchanges,
        UInt64.toInt64_ofNat', hids.first_eq]
    rw [idsOf_of_firstInsertId hstrategy, hfirst]
    exact hids.consecutive_eq
  -- the text asks for the column whose cells are read
  · have hstrategy : o.dialect.idStrategy ≠ .firstInsertId := by
      rw [hdialect]
      decide
    have hasked : asked o = some idColumn := by
      rw [asked, hdialect]
      exact hid
    have hrows := hout.rows idColumn hasked
    rw [idsOf_of_returned hstrategy hid]
    calc out.rows.filterMap (fun row => row.get? idColumn)
        = (out.rows.map fun row => row.get? idColumn).filterMap id := by
          rw [List.filterMap_map]
          rfl
      _ = (i :: rest).map Value.integer := by
          rw [hrows, List.filterMap_map]
          exact congrFun List.filterMap_eq_map _

namespace Session

variable {σ : Type} {k : Connection σ} {d : Intake σ} {o : Options} {idColumn : String}

/-- The rows of an insert as they are bound. -/
def boundRows (rows : List (List Value)) : List (List Value) := rows.map fun row => row.map bound

theorem boundRows_append (rows more : List (List Value)) :
    boundRows (rows ++ more) = boundRows rows ++ boundRows more := List.map_append

theorem length_boundRows (rows : List (List Value)) : (boundRows rows).length = rows.length :=
  List.length_map _

/-- A batch that carries rows into a database, and the insert that is written for them. -/
structure Carries (d : Intake σ) (s : σ) (o : Options) (idColumn : String) (columns : List String)
    (group : List (List Value)) (b : InsertBatch) : Prop where
  insert : PlainInsert d s o.table idColumn columns (boundRows group) (asked o) b.fragment.sql
  params : b.fragment.params.map bound = (boundRows group).flatten
  rowCount : b.rowCount = group.length

theorem carries_insertPieces (ho : o.Learns idColumn) {columns : List String} {s : σ}
    (hne : columns ≠ []) (hcolumns : d.LeavesOut s idColumn columns)
    {group : List (List Value)} (hgroup : group ≠ [])
    (haligned : ∀ row ∈ group, row.length = columns.length) (start : Nat) :
    Carries d s o idColumn columns group
      ⟨⟨o.insertPieces columns group.length, group.flatten⟩, start, start + group.length⟩ where
  insert :=
    { columns_ne_nil := hne
      rows_ne_nil := fun h => hgroup (List.map_eq_nil_iff.mp h)
      aligned := by
        intro row hrow
        obtain ⟨given, hgiven, rfl⟩ := List.mem_map.mp hrow
        rw [List.length_map, haligned given hgiven]
      leaves_out := hcolumns
      text := by
        rw [length_boundRows]
        exact Store.inserting_insertPieces ho.dialect hne (List.length_pos_iff.mpr hgroup) _
      asks := ho.eq_of_asked }
  params := by
    rw [boundRows, List.map_flatten]
  rowCount := Nat.add_sub_cancel_left _ _

section Batches

variable {columns : List String} {group : List (List Value)} {b : InsertBatch} {s middle : σ}
  {total statements : Nat} {affected : UInt64} {before : List Value}

/-- A batch that ran has had its rows taken. -/
theorem Carries.ran (hb : Carries d s o idColumn columns group b)
    (hk : k.Takes d o.table idColumn) (hready : d.Ready s) {out : Connection.Outcome}
    (hrun : k.run b.fragment.sql (b.fragment.params.map bound) s = (.ok out, middle)) :
    ∃ ids, d.putAll columns (boundRows group) s = some (ids, middle) ∧
      out.Tells (asked o) ids := by
  rw [hb.params] at hrun
  exact hk.ran hready hb.insert hrun

/-- A batch that fits and does not run has a row that is not taken. -/
theorem Carries.putAll_eq_none (hb : Carries d s o idColumn columns group b)
    (hk : k.Takes d o.table idColumn) (hready : d.Ready s)
    (hfits : d.Fits b.fragment.sql (b.fragment.params.map bound)) {message : String} {last : σ}
    (hrun : k.run b.fragment.sql (b.fragment.params.map bound) s = (.error message, last)) :
    d.putAll columns (boundRows group) s = none := by
  rw [hb.params] at hfits hrun
  cases hput : d.putAll columns (boundRows group) s with
  | none => rfl
  | some taken =>
      obtain ⟨out, next, hran⟩ := hk.runs hready hb.insert hfits hput
      cases hrun.symm.trans hran

/-- A batch that ran adds the identifiers of its rows to the collector, and the run goes on. -/
theorem runBatches_ran (ho : o.Learns idColumn) (hb : Carries d s o idColumn columns group b)
    {out : Connection.Outcome}
    (hrun : k.run b.fragment.sql (b.fragment.params.map bound) s = (.ok out, middle))
    {ids : List Int64} (hput : d.putAll columns (boundRows group) s = some (ids, middle))
    (hout : out.Tells (asked o) ids) (hids : Counting ids) {rest : List InsertBatch}
    {outcome : Except DbError Collector} {last : Session σ}
    (hrest : Step.Yields
      (runBatches k.executor (.holding o total (before ++ ids.map Value.integer)
        (affected + .ofNat group.length) (statements + 1)) rest) ⟨o, middle⟩ outcome last) :
    Step.Yields (runBatches k.executor (.holding o total before affected statements) (b :: rest))
      ⟨o, s⟩ outcome last := by
  have hlength : ids.length = group.length := by
    rw [Intake.length_putAll hput, length_boundRows]
  have hexecute : (k.executor.execute b.fragment.sql b.fragment.params).Yields s
      (.ok (out.raw b.fragment.sql)) middle := by
    unfold Step.Yields Connection.executor
    simp only [hrun, and_self]
  have hfound : (Collector.new o 0).idsOf group.length (out.raw b.fragment.sql) =
      ids.map Value.integer := by
    rw [← hlength]
    exact Collector.idsOf_of_tells ho hb.insert.text.startsInsert hids hout
  have haffected : (out.raw b.fragment.sql).affected = .ofNat group.length := by
    rw [Connection.Outcome.raw, hout.readonly, ← hlength, ← hout.changes, UInt64.ofNat_toNat]
    rfl
  have hrecord : Collector.record b.rowCount (out.raw b.fragment.sql)
      (.holding o total before affected statements) =
        (pure (), .holding o total (before ++ ids.map Value.integer)
          (affected + .ofNat group.length) (statements + 1)) := by
    rw [hb.rowCount, Collector.record_of_length_eq (Collector.collectsIds_iff.mpr ho.collects),
      hfound, haffected]
    rw [hfound, List.length_map, hlength]
  exact runBatches_accepted hexecute hrecord hrest

/-- A batch that does not run ends the insert. -/
theorem runBatches_not_run {message : String} {last : σ}
    (hrun : k.run b.fragment.sql (b.fragment.params.map bound) s = (.error message, last))
    (c : Collector) (rest : List InsertBatch) :
    ∃ e, Step.Yields (runBatches k.executor c (b :: rest)) ⟨o, s⟩ (.error e) ⟨o, last⟩ := by
  have hexecute : (k.executor.execute b.fragment.sql b.fragment.params).Yields s
      (.error (.execution b.fragment.sql b.fragment.params message)) last := by
    unfold Step.Yields Connection.executor
    simp only [hrun, and_true]
    rfl
  exact ⟨_, runBatches_failed hexecute rest⟩

/-! ## A whole insert -/

/-- Batches that carry rows, group by group, run to the end and collect the identifiers of all rows,
or they fail, because a statement does not fit or a row is not taken. -/
theorem runBatches_ends (hk : k.Takes d o.table idColumn) (ho : o.Learns idColumn)
    (hne : columns ≠ []) (hcolumns : d.LeavesOut s idColumn columns)
    {groups : List (List (List Value))} (hgroups : ∀ group ∈ groups, group ≠ [])
    (haligned : ∀ row ∈ groups.flatten, row.length = columns.length) (hready : d.Ready s)
    (hcounts : d.Counts columns (boundRows groups.flatten) s)
    (start total : Nat) (before : List Value) (affected : UInt64) (statements : Nat) :
    (∃ ids next, d.putAll columns (boundRows groups.flatten) s = some (ids, next) ∧
      Step.Yields (runBatches k.executor (.holding o total before affected statements)
          (BulkInsert.batchesFrom o columns start groups)) ⟨o, s⟩
        (.ok (.holding o total (before ++ ids.map Value.integer)
          (affected + .ofNat groups.flatten.length) (statements + groups.length))) ⟨o, next⟩) ∨
    ((d.FitsAll (BulkInsert.batchesFrom o columns start groups) →
        d.putAll columns (boundRows groups.flatten) s = none) ∧
      ∃ e last, Step.Yields (runBatches k.executor (.holding o total before affected statements)
        (BulkInsert.batchesFrom o columns start groups)) ⟨o, s⟩ (.error e) ⟨o, last⟩) := by
  -- what is collected before a batch is left open, so that the run may start at any batch
  induction groups generalizing s start before affected statements with
  | nil =>
      have hnone : affected + .ofNat 0 = affected := UInt64.add_zero affected
      refine .inl ⟨[], s, rfl, ?_⟩
      simp only [List.flatten_nil, List.map_nil, List.append_nil, List.length_nil, Nat.add_zero,
        hnone]
      exact Step.yields_pure _ _
  | cons group groups ih =>
      rw [List.flatten_cons, boundRows_append] at hcounts
      -- the batch gets a name, so that its text is not unfolded
      obtain ⟨b, hb⟩ : ∃ b : InsertBatch, b =
          ⟨⟨o.insertPieces columns group.length, group.flatten⟩, start, start + group.length⟩ :=
        ⟨_, rfl⟩
      have hcarries : Carries d s o idColumn columns group b := by
        rw [hb]
        exact carries_insertPieces ho hne hcolumns (hgroups group List.mem_cons_self)
          (fun row hrow => haligned row (by simp [hrow])) start
      rw [List.flatten_cons, boundRows_append, Intake.putAll_append, BulkInsert.batchesFrom, ← hb]
      obtain ⟨⟨message | out, middle⟩, hrun⟩ :
          ∃ r, k.run b.fragment.sql (b.fragment.params.map bound) s = r := ⟨_, rfl⟩
      · obtain ⟨e, hfailed⟩ := runBatches_not_run (o := o) hrun
          (.holding o total before affected statements)
          (BulkInsert.batchesFrom o columns (start + group.length) groups)
        refine .inr ⟨fun hfits => ?_, e, middle, hfailed⟩
        rw [hcarries.putAll_eq_none hk hready (hfits b List.mem_cons_self) hrun]
        rfl
      · obtain ⟨ids, hput, hout⟩ := hcarries.ran hk hready hrun
        have hids : Counting ids := hcounts.of_prefix hput
        obtain ⟨hmiddle, hleaves⟩ := Intake.ready_of_putAll hk hcolumns hready hput
        have hrest := ih hleaves (fun g hg => hgroups g (List.mem_cons_of_mem group hg))
          (fun row hrow => haligned row (List.mem_append_right group hrow)) hmiddle
          (hcounts.rest hput) (start + group.length) (before ++ ids.map Value.integer)
          (affected + .ofNat group.length) (statements + 1)
        rcases hrest with ⟨others, next, hmore, hends⟩ | ⟨hrefused, e, last, hfailed⟩
        · refine .inl ⟨ids ++ others, next, by simp [hput, hmore], ?_⟩
          have hall := runBatches_ran ho hcarries hrun hput hout hids hends
          rwa [List.append_assoc, ← List.map_append, UInt64.add_assoc, ← UInt64.ofNat_add,
            Nat.add_assoc statements, Nat.add_comm 1, ← List.length_append] at hall
        · have hfailed := runBatches_ran ho hcarries hrun hput hout hids hfailed
          refine .inr ⟨fun hfits => ?_, e, last, hfailed⟩
          have hnone := hrefused fun b hb => hfits b (List.mem_cons_of_mem _ hb)
          simp [hput, hnone]

end Batches

/-- How an insert of many rows ends over a database that takes rows one by one. -/
inductive EndsAsTaken (k : Connection σ) (d : Intake σ) (b : BulkInsert) (o : Options) (s : σ) :
    Prop where
  /-- The rows are all taken, and the identifiers that they got are returned in their order. -/
  | returned {p : InsertPlan} {ids : List Int64} {next : σ} (plan : (b.plan o).result = .ok p)
      (taken : d.putAll b.columns (boundRows b.rows) s = some (ids, next))
      (length : ids.length = b.rows.length)
      (ends : Step.Yields (insertRows k.executor b) ⟨o, s⟩
        (.ok ⟨ids.map Value.integer, .ofNat b.rows.length, p.statements.length⟩) ⟨o, next⟩)
  /-- One of the statements is beyond the limits of the database, or a row is not taken. -/
  | failed {p : InsertPlan} {e : DbError} {last : σ} (plan : (b.plan o).result = .ok p)
      (refused : d.FitsAll p.statements → d.putAll b.columns (boundRows b.rows) s = none)
      (ends : Step.Yields (insertRows k.executor b) ⟨o, s⟩ (.error e) ⟨o, last⟩)
  /-- What cannot be planned does not reach the database. -/
  | unplanned {e : QueryError} (plan : (b.plan o).result = .error e)
      (ends : Step.Yields (insertRows k.executor b) ⟨o, s⟩ (.error (.query e)) ⟨o, s⟩)

namespace EndsAsTaken

variable {b : BulkInsert} {s : σ}

/-- What an insert returns is what the database gave its rows. -/
theorem of_ok (h : EndsAsTaken k d b o s) {r : BulkResult} {last : Session σ}
    (hrun : Step.Yields (insertRows k.executor b) ⟨o, s⟩ (.ok r) last) :
    ∃ ids next, d.putAll b.columns (boundRows b.rows) s = some (ids, next) ∧
      r.ids = ids.map Value.integer ∧ r.affected = .ofNat b.rows.length ∧ last.driver = next := by
  obtain ⟨hresult, rfl⟩ := hrun
  cases h with
  | returned plan taken length ends =>
      cases hresult.symm.trans ends.1
      exact ⟨_, _, taken, rfl, rfl, congrArg driver ends.2⟩
  | failed plan refused ends => cases hresult.symm.trans ends.1
  | unplanned plan ends => cases hresult.symm.trans ends.1

/-- An insert returns if it can be planned, its statements keep to the limits of the database and
its rows are taken. -/
theorem returns (h : EndsAsTaken k d b o s) {p : InsertPlan} {ids : List Int64} {next : σ}
    (hplan : (b.plan o).result = .ok p) (hfits : d.FitsAll p.statements)
    (hput : d.putAll b.columns (boundRows b.rows) s = some (ids, next)) :
    Step.Yields (insertRows k.executor b) ⟨o, s⟩
      (.ok ⟨ids.map Value.integer, .ofNat b.rows.length, p.statements.length⟩) ⟨o, next⟩ := by
  cases h with
  | returned plan taken length ends =>
      cases hplan.symm.trans plan
      cases hput.symm.trans taken
      exact ends
  | failed plan refused ends =>
      cases hplan.symm.trans plan
      cases hput.symm.trans (refused hfits)
  | unplanned plan ends => cases hplan.symm.trans plan

end EndsAsTaken

/-- An insert under options that learn identifiers ends as its rows are taken one by one. -/
theorem insertRows_endsAsTaken (hk : k.Takes d o.table idColumn) (ho : o.Learns idColumn)
    (hlimit : o.maxInsertRows ≠ some 0) {b : BulkInsert} {s : σ}
    (hcolumns : d.LeavesOut s idColumn b.columns) (hready : d.Ready s)
    (hroom : b.rows.length ≤ d.room s) : EndsAsTaken k d b o s := by
  cases hplan : (b.plan o).result with
  | error e => exact .unplanned hplan (insertRows_of_plan_error hplan)
  | ok p =>
      obtain ⟨hb, size, hsize, rfl⟩ := BulkInsert.plan_eq_ok_iff.mp hplan
      obtain ⟨-, -, -, hsizePos⟩ := batchSize_eq_ok hsize
      have hpos : 0 < size := hsizePos hlimit
      have hcut : Cut size b.rows (BulkInsert.groups size b.rows) :=
        BulkInsert.cut_groups hpos b.rows
      have hgroups : ∀ group ∈ BulkInsert.groups size b.rows, group ≠ [] := fun group hgroup =>
        List.length_pos_iff.mp (hcut.length_pos_of_mem hpos group hgroup).1
      have hstatements := BulkInsert.statements_planOf b o hpos
      -- a batch may fail, so the rows before it have to get consecutive identifiers by themselves
      have hcounts : d.Counts b.columns (boundRows b.rows) s := by
        intro first ids next hfirst hput
        refine hk.counting hready hcolumns (Nat.le_trans hfirst.length_le ?_) hput
        rw [length_boundRows]
        exact hroom
      have hruns := runBatches_ends hk ho hb.columns_ne_nil hcolumns hgroups
        (by rw [hcut.flatten_eq]; exact hb.aligned) hready (by rw [hcut.flatten_eq]; exact hcounts)
        0 b.rows.length [] 0 0
      simp only [hcut.flatten_eq, List.nil_append, UInt64.zero_add, Nat.zero_add,
        ← hstatements] at hruns
      have hbuild : Step.Yields (build b.plan) (⟨o, s⟩ : Session σ) (.ok (b.planOf o size))
          ⟨o, s⟩ := build_yields hplan s
      rcases hruns with ⟨ids, next, hput, hends⟩ | ⟨hrefused, e, last, hfailed⟩
      · have hlength : ids.length = b.rows.length := by
          rw [Intake.length_putAll hput, length_boundRows]
        have hcount : (b.planOf o size).statements.length =
            (BulkInsert.groups size b.rows).length := by
          rw [hstatements, BulkInsert.length_batchesFrom]
        refine .returned hplan hput hlength
          (hbuild.bind ((yields_currentOptions o s).bind (Step.Yields.bind hends ?_)))
        refine Step.yields_lift ?_ _
        rw [Collector.finish_of_length_eq fun _ => (List.length_map _).trans hlength, hcount]
        rfl
      · exact .failed hplan hrefused
          (hbuild.bind ((yields_currentOptions o s).bind hfailed.bind_error))

end Session

end BoundSql
