import BoundSql.Proofs.Insert.Partition

/-!
# Planning without faults

A division by zero, groups of no rows, an index that no machine word holds and a slice beyond the
end have no result.  A guarded planner reports them as faults.  It never ends with one under
options in use, because these limit an insert to at least one row, and then plans what the
unguarded planner plans.

The planner itself does not look for a limit of zero; it relies on the options.
-/

namespace BoundSql

/-! ## Guarded operations -/

/-- Why an operation has no result. -/
inductive Fault where
  | divisionByZero
  | emptyGroups
  | overflow
  | outOfRange
deriving DecidableEq

/-- How a planner ends without a plan. -/
inductive Stop where
  | fault (f : Fault)
  | refused (e : QueryError)
deriving DecidableEq

/-- A computation that ends with a fault, with an error or with a result. -/
abbrev Guarded (α : Type) : Type := Except Stop α

namespace Guarded

variable {α β : Type}

/-- A computation without faults. -/
def ofExcept (x : Except QueryError α) : Guarded α := x.mapError .refused

def div (m n : Nat) : Guarded Nat :=
  if n = 0 then .error (.fault .divisionByZero) else .ok (m / n)

/-- Division that rounds up. -/
def divCeil (m n : Nat) : Guarded Nat :=
  if n = 0 then .error (.fault .divisionByZero) else .ok ((m + n - 1) / n)

/-- A number that must not exceed the largest word. -/
def word (maxWord n : Nat) : Guarded Nat :=
  if n ≤ maxWord then .ok n else .error (.fault .overflow)

/-- The slice of a list before an index. -/
def sliceTo (index : Nat) (xs : List α) : Guarded (List α) :=
  if index ≤ xs.length then .ok (xs.take index) else .error (.fault .outOfRange)

def groups (size : Nat) (rows : List (List Value)) : Guarded (List (List (List Value))) :=
  if size = 0 then .error (.fault .emptyGroups) else .ok (BulkInsert.groups size rows)

theorem ofExcept_ne_fault (x : Except QueryError α) (f : Fault) :
    ofExcept x ≠ .error (.fault f) := by
  cases x with
  | error e =>
      intro h
      cases h
  | ok a =>
      intro h
      cases h

theorem ofExcept_bind (x : Except QueryError α) (f : α → Except QueryError β) :
    ofExcept (x >>= f) = ofExcept x >>= fun a => ofExcept (f a) := by
  cases x <;> rfl

theorem ofExcept_mapM_id (xs : List (Except QueryError α)) :
    (xs.map ofExcept).mapM id = ofExcept (xs.mapM id) := by
  induction xs with
  | nil => rfl
  | cons x xs ih =>
      simp only [List.map_cons, List.mapM_cons, id, ih, ofExcept_bind]
      rfl

end Guarded

/-! ## The guarded planner -/

/-- The first text of the remaining columns that stands in the slice before its index. -/
def Options.guardedRepeated (columns : List String) : Nat → List String → Guarded (Option String)
  | _, [] => .ok none
  | index, column :: rest => do
      let before ← Guarded.sliceTo index columns
      if before.contains column then return some column
      guardedRepeated columns (index + 1) rest

def Options.guardedNames (o : Options) (columns : List String) : Guarded (List Name) := do
  match ← guardedRepeated columns 0 columns with
  | some column => .error (.refused (.duplicateColumn column))
  | none => Guarded.ofExcept (o.columnNames columns)

def guardedBatchSize (width maxParams : Nat) (maxRows : Option Nat) : Guarded Nat :=
  if width = 0 then .error (.refused .missingInsertData)
  else if maxParams < width then .error (.refused (.rowTooWide width maxParams))
  else do
    let byParams ← Guarded.div maxParams width
    return maxRows.elim byParams (min byParams)

namespace BulkInsert

def guardedBatch (maxWord : Nat) (o : Options) (names : List Name) (size index : Nat)
    (group : List (List Value)) : Guarded InsertBatch := do
  let start ← Guarded.word maxWord (index * size)
  let pieces ← Guarded.ofExcept (o.renderInsert names group.length)
  let stop ← Guarded.word maxWord (start + group.length)
  return ⟨⟨pieces, group.flatten⟩, start, stop⟩

/-- The statements for rows in groups of a size. -/
def guardedBatches (maxWord : Nat) (o : Options) (names : List Name) (size : Nat)
    (rows : List (List Value)) : Guarded (List InsertBatch) := do
  -- room for the statements is reserved before the rows are cut
  let _ ← Guarded.divCeil rows.length size
  let groups ← Guarded.groups size rows
  (groups.mapIdx (guardedBatch maxWord o names size)).mapM id

/-- The plan of an insert, made with operations that may end with a fault. -/
def guardedPlan (maxWord : Nat) (b : BulkInsert) (o : Options) : Guarded InsertPlan :=
  if b.columns.isEmpty ∨ b.rows.isEmpty then .error (.refused .missingInsertData)
  else do
    let width := b.columns.length
    let names ← o.guardedNames b.columns
    match firstRagged? width 0 b.rows with
    | some (row, found) => .error (.refused (.raggedInsertRows row width found))
    | none => do
        let size ← guardedBatchSize width o.maxParams o.maxInsertRows
        let statements ← guardedBatches maxWord o names size b.rows
        return ⟨statements, b.rows.length, size⟩

end BulkInsert

/-! ## Absence of faults -/

/-- Looking for a column in the slice before it is looking for it among the columns passed. -/
theorem Options.guardedRepeated_append (before rest : List String) :
    guardedRepeated (before ++ rest) before.length rest =
      .ok (Text.firstRepeated? before.reverse rest) := by
  induction rest generalizing before with
  | nil => rfl
  | cons column rest ih =>
      have hslice : Guarded.sliceTo before.length (before ++ column :: rest) = .ok before := by
        simp [Guarded.sliceTo]
      have hnext := ih (before ++ [column])
      rw [List.append_assoc, List.length_append] at hnext
      rw [guardedRepeated, hslice, Text.firstRepeated?, List.contains_reverse]
      show (if before.contains column then Except.ok (some column)
        else guardedRepeated (before ++ column :: rest) (before.length + 1) rest) = _
      split
      · rfl
      · rw [List.reverse_append] at hnext
        exact hnext

theorem Options.guardedNames_eq (o : Options) (columns : List String) :
    o.guardedNames columns = Guarded.ofExcept (o.insertNames columns) := by
  have hrepeated : guardedRepeated columns 0 columns = .ok (Text.firstRepeated? [] columns) :=
    guardedRepeated_append [] columns
  unfold guardedNames insertNames
  rw [hrepeated]
  cases Text.firstRepeated? [] columns <;> rfl

theorem guardedBatchSize_eq (width maxParams : Nat) (maxRows : Option Nat) :
    guardedBatchSize width maxParams maxRows =
      Guarded.ofExcept (batchSize width maxParams maxRows) := by
  unfold guardedBatchSize batchSize
  split
  · rfl
  rename_i hwidth
  split
  · rfl
  rw [Guarded.div, if_neg hwidth]
  cases maxRows <;> rfl

namespace BulkInsert

variable {maxWord size : Nat} {o : Options} {b : BulkInsert}

theorem guardedBatch_eq (o : Options) (names : List Name) {index : Nat} {group : List (List Value)}
    (h : index * size + group.length ≤ maxWord) :
    guardedBatch maxWord o names size index group =
      Guarded.ofExcept (batch o names size index group) := by
  have hstart : index * size ≤ maxWord := by omega
  unfold guardedBatch batch
  simp only [Guarded.word, if_pos hstart, Guarded.ofExcept_bind]
  cases o.renderInsert names group.length with
  | error e => rfl
  | ok pieces =>
      simp only [Guarded.ofExcept, bind, Except.bind, if_pos h]
      rfl

/-- The ranges of groups end within the rows, so a word that holds the number of rows holds
every index. -/
theorem mapIdx_guardedBatch_eq (o : Options) (names : List Name) {rows : List (List Value)}
    {groups : List (List (List Value))} (hcut : Cut size rows groups) (index : Nat)
    (h : index * size + rows.length ≤ maxWord) :
    groups.mapIdx (fun i => guardedBatch maxWord o names size (index + i)) =
      (groups.mapIdx fun i => batch o names size (index + i)).map Guarded.ofExcept := by
  induction hcut generalizing index with
  | none => rfl
  | last _ _ =>
      have hlast := guardedBatch_eq o names h
      simpa using hlast
  | @full group rest groups full _ _ ih =>
      rw [List.length_append] at h
      have hwithin : index * size + group.length ≤ maxWord := by omega
      have hfirst := guardedBatch_eq o names hwithin
      have hnext : (index + 1) * size = index * size + group.length := by
        rw [full, Nat.succ_mul]
      have hrest := ih (index + 1) (by omega)
      simp only [List.mapIdx_cons, List.map_cons, Nat.add_zero, hfirst]
      simpa [Nat.add_assoc, Nat.add_comm 1] using hrest

theorem guardedBatches_eq (o : Options) (names : List Name) {rows : List (List Value)}
    (hsize : 0 < size)
    (hword : rows.length ≤ maxWord) :
    guardedBatches maxWord o names size rows =
      Guarded.ofExcept (((groups size rows).mapIdx (batch o names size)).mapM id) := by
  have hne : size ≠ 0 := Nat.pos_iff_ne_zero.mp hsize
  have hrows : 0 * size + rows.length ≤ maxWord := by omega
  have hbatches := mapIdx_guardedBatch_eq o names (cut_groups hsize rows) 0 hrows
  simp only [Nat.zero_add] at hbatches
  rw [← Guarded.ofExcept_mapM_id, ← hbatches, guardedBatches, Guarded.divCeil, if_neg hne,
    Guarded.groups, if_neg hne]
  rfl

/-- With a limit of at least one row, or with none, the guarded planner ends as the planner. -/
theorem guardedPlan_eq (ho : o.maxInsertRows ≠ some 0) (hword : b.rows.length ≤ maxWord) :
    b.guardedPlan maxWord o = Guarded.ofExcept (b.statements o) := by
  unfold guardedPlan statements
  split
  · rfl
  rw [Options.guardedNames_eq, Guarded.ofExcept_bind]
  refine bind_congr fun names => ?_
  cases firstRagged? b.columns.length 0 b.rows with
  | some found => rfl
  | none =>
      rw [guardedBatchSize_eq]
      cases hsize : batchSize b.columns.length o.maxParams o.maxInsertRows with
      | error e => rfl
      | ok size =>
          obtain ⟨-, -, -, hpos⟩ := batchSize_eq_ok hsize
          have hbatches := guardedBatches_eq o names (hpos ho) hword
          show (guardedBatches maxWord o names size b.rows >>= _) =
            Guarded.ofExcept (((groups size b.rows).mapIdx (batch o names size)).mapM id >>= _)
          rw [hbatches, Guarded.ofExcept_bind]
          rfl

/-- With a limit of no rows the guarded planner faults on every insert that has a plan. -/
theorem guardedPlan_of_no_rows {p : InsertPlan} (ho : o.maxInsertRows = some 0)
    (h : b.statements o = .ok p) :
    b.guardedPlan maxWord o = .error (.fault .divisionByZero) := by
  obtain ⟨hb, size, hsize, -⟩ := statements_eq_ok_iff.mp h
  obtain ⟨-, -, hlimit, -⟩ := batchSize_eq_ok hsize
  have hzero : size = 0 := Nat.le_zero.mp (hlimit 0 ho)
  subst hzero
  have hfilled : ¬(b.columns.isEmpty = true ∨ b.rows.isEmpty = true) := by
    simp [hb.columns_ne_nil, hb.rows_ne_nil]
  have hnames := Options.insertNames_eq_ok_iff.mpr ⟨hb.distinct, hb.listed, rfl⟩
  have haligned : firstRagged? b.columns.length 0 b.rows = none :=
    firstRagged?_eq_none_iff.mpr hb.aligned
  simp only [guardedPlan, if_neg hfilled, Options.guardedNames_eq, hnames, haligned,
    guardedBatchSize_eq, hsize]
  rfl

theorem plan_result (b : BulkInsert) (o : Options) : (b.plan o).result = b.statements o := by
  unfold plan
  cases h : b.statements o with
  | error e => rfl
  | ok p => rfl

/-- Options that a program gets and changes are sound, and valid if the identifier column was
never given a blank name.  Under them a batch has room for a row, and planning ends with a plan
or an error and without a fault. -/
theorem plan_of_options_in_use {start o : Options} {cs : List Options.Change}
    (hstart : start.Initial) (hchanges : start.changes cs = .ok o) :
    o.Sound ∧
      ((∀ column, .nameIdColumn column ∈ cs → Text.isBlank column = false) →
        o.validate = .ok ()) ∧
      ∀ b : BulkInsert,
        (∀ size, batchSize b.columns.length o.maxParams o.maxInsertRows = .ok size → 1 ≤ size) ∧
        ∀ maxWord, b.rows.length ≤ maxWord →
          b.guardedPlan maxWord o = Guarded.ofExcept (b.plan o).result ∧
            ∀ f, b.guardedPlan maxWord o ≠ .error (.fault f) := by
  have hsound : o.Sound := hstart.sound_changes hchanges
  have hlimit : o.maxInsertRows ≠ some 0 := fun hzero =>
    absurd (hsound.maxInsertRows 0 hzero) (by decide)
  refine ⟨hsound, hstart.validate_changes hchanges, fun b => ⟨?_, ?_⟩⟩
  · intro size hsize
    obtain ⟨-, -, -, hpos⟩ := batchSize_eq_ok hsize
    exact hpos hlimit
  · intro maxWord hword
    have hplan : b.guardedPlan maxWord o = Guarded.ofExcept (b.plan o).result := by
      rw [guardedPlan_eq hlimit hword, plan_result]
    refine ⟨hplan, fun f => ?_⟩
    rw [hplan]
    exact Guarded.ofExcept_ne_fault _ f

/-- Another dialect without its row limit, an identifier column, and a narrow limit. -/
def narrowing : List Options.Change :=
  [.override [("dialect", .str "sqlserver"), ("max_insert_rows", .null)], .nameIdColumn "id",
    .override [("max_params", .int 7)]]

/-- Options of a configured table after these changes. -/
def narrowed : Options where
  dialect := .sqlserver
  table := "users"
  columns := ["id", "name", "email", "created_at"]
  idColumn := some "id"
  maxParams := 7
  maxInsertRows := none
  maxPageSize := 1000

theorem plan_of_options_in_use_narrowed :
    (∃ start : Options, start.Initial ∧ start.changes narrowing = .ok narrowed) ∧
      narrowed.validate = .ok () ∧
      ∃ p, (⟨["id", "name"], List.replicate 4 [.null, .null]⟩ : BulkInsert).guardedPlan
          18446744073709551615 narrowed = .ok p ∧
        p.statements.map (fun s => (s.start, s.stop)) = [(0, 3), (3, 4)] := by
  have hserved : (Config.default.optionsFor "users").result =
      .ok { narrowed with dialect := .sqlite, maxParams := 32766 } := rfl
  have hchanges : Options.changes { narrowed with dialect := .sqlite, maxParams := 32766 }
      narrowing = .ok narrowed := rfl
  obtain ⟨-, hvalid, hplan⟩ := plan_of_options_in_use (.configured hserved) hchanges
  refine ⟨⟨_, .configured hserved, hchanges⟩, hvalid ?_, ?_⟩
  · intro column hcolumn
    have hid : column = "id" := by simpa [narrowing] using hcolumn
    rw [hid]
    decide
  · obtain ⟨-, hguarded⟩ := hplan ⟨["id", "name"], List.replicate 4 [.null, .null]⟩
    obtain ⟨heq, -⟩ := hguarded 18446744073709551615 (by decide)
    rw [heq]
    exact ⟨_, rfl, by decide +kernel⟩

end BulkInsert

end BoundSql
