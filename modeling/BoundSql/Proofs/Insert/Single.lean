import BoundSql.Proofs.Command.Preview
import BoundSql.Proofs.Insert.Guarded

/-!
# One row by itself and in a plan

An insert of one row can be built by itself or planned as an insert of many rows that happens to
have one.  Both check the same things, although at different places: the plan also looks at the
width of the row, which cannot be wrong for a row that was given column by column.  The statement
is the same, and so is the error.  A request may therefore be served either way.

The identifier of the row is read differently on the two ways, and agrees as long as the driver
returns at most one row.  Nothing is said about an answer with more rows, where the plan refuses
what the single insert takes the first of, and nothing about transactions: only a plan opens one.
-/

namespace BoundSql

/-! ## Rows given column by column -/

namespace InsertQuery

/-- The insert that sets columns to values, in their order. -/
def ofCells (cells : List (String × Value)) : InsertQuery :=
  cells.foldl (fun q cell => q.set cell.1 cell.2) empty

theorem foldl_set (cells : List (String × Value)) (q : InsertQuery) :
    (cells.foldl (fun q cell => q.set cell.1 cell.2) q).columns =
        q.columns ++ cells.map Prod.fst ∧
      (cells.foldl (fun q cell => q.set cell.1 cell.2) q).values =
        q.values ++ cells.map Prod.snd := by
  induction cells generalizing q with
  | nil => exact ⟨(List.append_nil _).symm, (List.append_nil _).symm⟩
  | cons cell cells ih =>
      obtain ⟨hcolumns, hvalues⟩ := ih (q.set cell.1 cell.2)
      rw [List.foldl_cons, hcolumns, hvalues]
      exact ⟨List.append_assoc .., List.append_assoc ..⟩

variable {columns : List String} {row : List Value}

theorem ofCells_zip (h : columns.length = row.length) :
    ofCells (columns.zip row) = ⟨columns, row, h⟩ := by
  obtain ⟨hcolumns, hvalues⟩ := foldl_set (columns.zip row) empty
  rw [List.map_fst_zip (Nat.le_of_eq h)] at hcolumns
  rw [List.map_snd_zip (Nat.le_of_eq h.symm)] at hvalues
  unfold ofCells
  cases hq : (columns.zip row).foldl (fun q cell => q.set cell.1 cell.2) empty with
  | mk columns' values' aligned =>
      rw [hq] at hcolumns hvalues
      cases hcolumns
      cases hvalues
      rfl

end InsertQuery

/-! ## Plans of one row -/

namespace BulkInsert

variable {o : Options} {size : Nat}

theorem groups_singleton (hsize : 0 < size) (row : List Value) : groups size [row] = [[row]] := by
  have hone : [row].length ≤ size := hsize
  rw [groups_eq_cons hsize (List.cons_ne_nil row []), List.take_of_length_le hone,
    List.drop_of_length_le hone]
  rfl

theorem batches_singleton (o : Options) (names : List Name) (size : Nat) (row : List Value) :
    ([[row]].mapIdx (batch o names size)).mapM id = do
      let pieces ← o.renderInsert names 1
      return [⟨⟨pieces, row⟩, 0, 1⟩] := by
  have hbatch : batch o names size 0 [row] = do
      let pieces ← o.renderInsert names 1
      return ⟨⟨pieces, row⟩, 0, 1⟩ := by
    simp [batch]
  rw [List.mapIdx_cons, List.mapIdx_nil, hbatch]
  cases o.renderInsert names 1 <;> rfl

/-- A plan of one row has the statement that inserts it by itself. -/
theorem statements_singleton (ho : o.maxInsertRows ≠ some 0) (q : InsertQuery) :
    statements ⟨q.columns, [q.values]⟩ o = do
      let f ← q.fragment o
      let size ← batchSize q.columns.length o.maxParams o.maxInsertRows
      return ⟨[⟨f, 0, 1⟩], 1, size⟩ := by
  have hnone : firstRagged? q.columns.length 0 [q.values] = none :=
    firstRagged?_eq_none_iff.mpr (by simp [q.aligned])
  unfold statements InsertQuery.fragment
  simp only [List.isEmpty_cons, Bool.false_eq_true, or_false, hnone]
  split
  · rfl
  cases o.insertNames q.columns with
  | error e => rfl
  | ok names =>
      cases hsize : batchSize q.columns.length o.maxParams o.maxInsertRows with
      | error e => rfl
      | ok size =>
          obtain ⟨-, -, -, hpos⟩ := batchSize_eq_ok hsize
          have hbatches := batches_singleton o names size q.values
          rw [← groups_singleton (hpos ho) q.values] at hbatches
          show (((groups size [q.values]).mapIdx (batch o names size)).mapM id >>= _) = _
          rw [hbatches]
          simp only [bind, Except.bind]
          cases o.renderInsert names 1 <;> rfl

end BulkInsert

namespace InsertQuery

variable {o : Options} {q : InsertQuery}

theorem build_result (q : InsertQuery) (o : Options) : (q.build o).result = q.fragment o := by
  unfold build
  cases q.fragment o <;> rfl

theorem exists_batchSize {f : Fragment} (h : q.fragment o = .ok f) :
    ∃ size, batchSize q.columns.length o.maxParams o.maxInsertRows = .ok size := by
  unfold fragment at h
  split at h
  · cases h
  · simp only [bind_eq_ok_iff] at h
    obtain ⟨_, -, size, hsize, -⟩ := h
    exact ⟨size, hsize⟩

/-- If the row can be inserted by itself, a plan has the same statement and nothing else. -/
theorem plan_of_build (ho : o.maxInsertRows ≠ some 0) {f : Fragment}
    (h : (q.build o).result = .ok f) :
    ∃ size, (BulkInsert.plan ⟨q.columns, [q.values]⟩ o).result = .ok ⟨[⟨f, 0, 1⟩], 1, size⟩ := by
  rw [build_result] at h
  obtain ⟨size, hsize⟩ := exists_batchSize h
  refine ⟨size, ?_⟩
  rw [BulkInsert.plan_result, BulkInsert.statements_singleton ho, h, hsize]
  rfl

theorem plan_of_build_error (ho : o.maxInsertRows ≠ some 0) {e : QueryError}
    (h : (q.build o).result = .error e) :
    (BulkInsert.plan ⟨q.columns, [q.values]⟩ o).result = .error e := by
  rw [build_result] at h
  rw [BulkInsert.plan_result, BulkInsert.statements_singleton ho, h]
  rfl

theorem build_of_plan (ho : o.maxInsertRows ≠ some 0) {p : InsertPlan}
    (h : (BulkInsert.plan ⟨q.columns, [q.values]⟩ o).result = .ok p) :
    ∃ s, p.statements = [s] ∧ (q.build o).result = .ok s.fragment := by
  cases hbuild : (q.build o).result with
  | error e => cases h.symm.trans (plan_of_build_error ho hbuild)
  | ok f =>
      obtain ⟨size, hplan⟩ := plan_of_build ho hbuild
      cases h.symm.trans hplan
      exact ⟨⟨f, 0, 1⟩, rfl, rfl⟩

theorem build_of_plan_error (ho : o.maxInsertRows ≠ some 0) {e : QueryError}
    (h : (BulkInsert.plan ⟨q.columns, [q.values]⟩ o).result = .error e) :
    (q.build o).result = .error e := by
  cases hbuild : (q.build o).result with
  | error e' =>
      cases h.symm.trans (plan_of_build_error ho hbuild)
      rfl
  | ok f =>
      obtain ⟨size, hplan⟩ := plan_of_build ho hbuild
      cases h.symm.trans hplan

end InsertQuery

/-! ## Requests -/

/-- Two computations come to the same result and show the same statements. -/
structure Traced.ShowsAlike (t u : Traced CommandError Unit) : Prop where
  result : t.result = u.result
  shown : Note.shown t.notes = Note.shown u.notes

namespace Operation

variable {o : Options}

theorem shown_showBuilt_of_error {t : Traced QueryError Fragment} (ht : t.Makes Note.Diagnostic)
    {e : QueryError} (h : t.result = .error e) : Note.shown (showBuilt t).notes = [] := by
  unfold showBuilt
  rw [Traced.bind_of_error _ (Traced.mapError_result_of_error CommandError.query h)]
  exact Note.shown_of_diagnostic ht

theorem shown_preview_of_plan_error {b : BulkInsert} {e : QueryError}
    (h : (b.plan o).result = .error e) : Note.shown (preview o (.insertMany b)).notes = [] := by
  rw [preview, Traced.bind_of_error _ (Traced.mapError_result_of_error CommandError.query h)]
  exact Note.shown_of_diagnostic (b.diagnostic_plan o)

/-- Which way a row is inserted cannot be seen in a preview. -/
theorem insert_showsAlike (ho : o.maxInsertRows ≠ some 0) (q : InsertQuery) :
    (preview o (.insert q)).ShowsAlike (preview o (.insertMany ⟨q.columns, [q.values]⟩)) := by
  have hdiagnostic : (q.build o).Makes Note.Diagnostic := q.diagnostic_build o
  cases hbuild : (q.build o).result with
  | error e =>
      have hplan := InsertQuery.plan_of_build_error ho hbuild
      constructor
      · exact (showBuilt_of_error hbuild).trans (preview_of_plan_error hplan).symm
      · exact (shown_showBuilt_of_error hdiagnostic hbuild).trans
          (shown_preview_of_plan_error hplan).symm
  | ok f =>
      obtain ⟨size, hplan⟩ := InsertQuery.plan_of_build ho hbuild
      obtain ⟨hresult, hshown⟩ := showBuilt_of_ok hdiagnostic hbuild
      obtain ⟨hmany, hshownMany⟩ := preview_of_plan hplan
      constructor
      · exact hresult.trans hmany.symm
      · rw [hshownMany, List.flatMap_singleton]
        exact hshown

theorem insertOf_showsAlike (ho : o.maxInsertRows ≠ some 0) (columns : List String)
    (rows : List (List Value)) :
    (preview o (Request.insertOf columns rows)).ShowsAlike
      (preview o (.insertMany ⟨columns, rows⟩)) := by
  unfold Request.insertOf
  split
  · split
    · exact insert_showsAlike ho _
    · exact ⟨rfl, rfl⟩
  · exact ⟨rfl, rfl⟩

end Operation

/-! ## Identifiers of one row -/

theorem Row.filterMap_get?_of_length_le_one {rows : List Row} (h : rows.length ≤ 1)
    (column : String) :
    rows.filterMap (fun row => row.get? column) =
      (rows.head?.bind fun row => row.get? column).toList := by
  match rows with
  | [] => rfl
  | [row] =>
      show [row].filterMap _ = (row.get? column).toList
      cases hvalue : row.get? column <;> simp [hvalue]
  | _ :: _ :: _ => exact absurd h (by simp)

/-- The identifiers of a batch of one row are the one that a single insert reads, if any. -/
theorem InsertBatch.idsIn_one {o : Options} {b : InsertBatch} {raw : RawResult}
    (hone : b.rowCount = 1) (hrows : raw.rows.length ≤ 1) :
    b.idsIn o raw = (InsertResult.ofRaw o raw).id.toList := by
  have hreturned (column : String) :
      raw.rows.filterMap (fun row => row.get? column) =
        (do let row ← raw.rows.head?; row.get? column : Option Value).toList :=
    Row.filterMap_get?_of_length_le_one hrows column
  unfold idsIn Collector.collectsIds Collector.idsOf InsertResult.ofRaw
  simp only [Collector.new, hone]
  cases o.dialect.idStrategy with
  | firstInsertId =>
      cases raw.insertId with
      | none => rfl
      | some first => simp [Collector.consecutive]
  | returning | output =>
      cases o.idColumn with
      | none => rfl
      | some column => exact hreturned column

/-- What a collector for one row has learned, if it has accepted the answer. -/
theorem Collector.finish_record_one {o : Options} {raw : RawResult} (hrows : raw.rows.length ≤ 1)
    {c : Collector} {r : BulkResult} (hrecord : (record 1 raw).Yields (new o 1) (.ok ()) c)
    (hfinish : c.finish = .ok r) :
    r.ids = (InsertResult.ofRaw o raw).id.toList ∧
      r.affected = (InsertResult.ofRaw o raw).affected := by
  let b : InsertBatch := ⟨⟨[], []⟩, 0, 1⟩
  have hstart : new o 1 = holding o 1 [] 0 0 := rfl
  have hone : b.rowCount = 1 := rfl
  rw [hstart, ← hone] at hrecord
  obtain ⟨hresult, rfl⟩ := hrecord
  by_cases haccepted : b.Accepted o raw
  · rw [record_of_accepted haccepted, List.nil_append, UInt64.zero_add] at hfinish
    unfold finish at hfinish
    split at hfinish
    · cases hfinish
    · cases hfinish
      exact ⟨InsertBatch.idsIn_one hone hrows, rfl⟩
  · rw [record_of_not_accepted haccepted] at hresult
    cases hresult

/-! ## Agreement -/

/-- An insert of one row by itself and a plan of that row have the same statement or the same
error, so a request shows the same whichever way it is served; and where the answer has at most
one row, both ways read the same identifier and count the same rows. -/
theorem InsertQuery.build_agrees_with_plan {o : Options} (ho : o.Obtainable) :
    (∀ (columns : List String) (row : List Value), columns.length = row.length →
      let q := InsertQuery.ofCells (columns.zip row)
      let plan := (BulkInsert.plan ⟨columns, [row]⟩ o).result
      Request.insertOf columns [row] = .insert q ∧
      (∀ p, plan = .ok p → ∃ s, p.statements = [s] ∧ (q.build o).result = .ok s.fragment) ∧
      ∀ e, plan = .error e → (q.build o).result = .error e) ∧
    (∀ (columns : List String) (cells : List (List Json)) (rows : List (List Value)),
      Request.rowsOf 0 cells = .ok rows →
      ∃ op, (Request.insert columns cells).operation o = .ok op ∧
        (op.preview o).ShowsAlike (Operation.preview o (.insertMany ⟨columns, rows⟩))) ∧
    ∀ raw : RawResult, raw.rows.length ≤ 1 → ∀ c r,
      (Collector.record 1 raw).Yields (Collector.new o 1) (.ok ()) c → c.finish = .ok r →
      r.ids = (InsertResult.ofRaw o raw).id.toList ∧
        r.affected = (InsertResult.ofRaw o raw).affected := by
  have hlimit := ho.maxInsertRows_ne_zero
  refine ⟨fun columns row haligned => ?_, fun columns cells rows hcells => ?_,
    fun raw hrows c r hrecord hfinish => Collector.finish_record_one hrows hrecord hfinish⟩
  · intro q plan
    have hq : q = ⟨columns, row, haligned⟩ := InsertQuery.ofCells_zip haligned
    rw [hq]
    exact ⟨dif_pos haligned.symm, fun p hp => build_of_plan hlimit hp,
      fun e he => build_of_plan_error hlimit he⟩
  · refine ⟨Request.insertOf columns rows, ?_, Operation.insertOf_showsAlike hlimit columns rows⟩
    rw [Request.operation, hcells]
    rfl

/-- The answer to an insert of one row that is asked for its identifier. -/
def RawResult.returning (id : Value) : RawResult := ⟨[⟨[("id", id)]⟩], 1, none⟩

/-- A plan has the statement of a row, its error is that of a row with a repeated column, and a
collector reads the identifier that is returned. -/
theorem InsertQuery.build_agrees_with_plan_pair :
    (pairOptions .postgres).Obtainable ∧
      (∃ p s, (BulkInsert.plan ⟨["a", "b"], [[.integer 1, .null]]⟩
          (pairOptions .postgres)).result = .ok p ∧ p.statements = [s] ∧
        (InsertQuery.build (.ofCells [("a", .integer 1), ("b", .null)])
          (pairOptions .postgres)).result = .ok s.fragment) ∧
      (InsertQuery.build (.ofCells [("a", .integer 1), ("a", .null)])
        (pairOptions .postgres)).result = .error (.duplicateColumn "a") ∧
      ∃ c r, (Collector.record 1 (.returning (.integer 7))).Yields
          (.new (pairOptions .postgres) 1) (.ok ()) c ∧
        c.finish = .ok r ∧ r.ids = [.integer 7] := by
  have hobtainable : (pairOptions .postgres).Obtainable :=
    .withIdColumn (.checked (Or.inl ⟨.postgres, "t", ["a", "b"], rfl⟩)) "id"
  obtain ⟨hrow, -, hids⟩ := build_agrees_with_plan hobtainable
  obtain ⟨-, hbuilt, -⟩ := hrow ["a", "b"] [.integer 1, .null] rfl
  obtain ⟨-, -, hrefused⟩ := hrow ["a", "a"] [.integer 1, .null] rfl
  obtain ⟨s, hs, hfragment⟩ := hbuilt _ rfl
  have hread := hids (.returning (.integer 7)) (by decide) _ _ ⟨rfl, rfl⟩ rfl
  exact ⟨hobtainable, ⟨_, s, rfl, hs, hfragment⟩, hrefused _ rfl, _, _, ⟨rfl, rfl⟩, rfl, hread.1⟩

end BoundSql
