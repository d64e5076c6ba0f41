import BoundSql.Proofs.Insert.Acceptance
import Mathlib.Algebra.Order.BigOperators.Group.List
import Mathlib.Algebra.Order.Group.Nat
import Mathlib.Order.Bounds.Basic

/-!
# Fewest statements

Any way to distribute rows over statements counts here that respects the limit on bound values and
the limit on rows, also one that puts the rows out of order or leaves a statement empty.  The size
of a batch is the greatest number of rows that respects both limits, so no such way needs fewer
statements than a plan; and where a row exceeds the limit on bound values there is no such way.

Statements are compared by their number only.  Nothing is said about the length of their text.
-/

namespace BoundSql

/-! ## Limits -/

namespace Options

/-- So many rows of a width respect the limits on one statement. -/
structure AdmitsRows (o : Options) (width rows : Nat) : Prop where
  values : rows * width ≤ o.maxParams
  limit : ∀ m ∈ o.maxInsertRows, rows ≤ m

/-- Rows distributed over statements that all respect the limits. -/
structure Distributes (o : Options) (rows : List (List Value))
    (statements : List (List (List Value))) : Prop where
  complete : statements.flatten.Perm rows
  values : ∀ s ∈ statements, s.flatten.length ≤ o.maxParams
  limit : ∀ s ∈ statements, ∀ m ∈ o.maxInsertRows, s.length ≤ m

variable {o : Options} {width : Nat}

theorem admitsRows_iff {rows : Nat} :
    o.AdmitsRows width rows ↔ rows * width ≤ o.maxParams ∧ ∀ m ∈ o.maxInsertRows, rows ≤ m :=
  ⟨fun h => ⟨h.values, h.limit⟩, fun h => ⟨h.1, h.2⟩⟩

/-- The size of a batch is the greatest number of rows within both limits. -/
theorem exists_isGreatest_batchSize (hrows : ∀ m ∈ o.maxInsertRows, 1 ≤ m) (hwidth : 1 ≤ width)
    (hfits : width ≤ o.maxParams) :
    ∃ size, batchSize width o.maxParams o.maxInsertRows = .ok size ∧ 1 ≤ size ∧
      IsGreatest {k | o.AdmitsRows width k} size := by
  have hlimit : o.maxInsertRows ≠ some 0 := fun hzero => absurd (hrows 0 hzero) (by decide)
  have hsize := batchSize_of_fits hwidth hfits o.maxInsertRows
  obtain ⟨-, hvalues, hwithin, hpos⟩ := batchSize_eq_ok hsize
  refine ⟨_, hsize, hpos hlimit, ⟨hvalues, hwithin⟩, fun k hk => ?_⟩
  have hdiv : k ≤ o.maxParams / width := (Nat.le_div_iff_mul_le hwidth).mpr hk.values
  cases hmax : o.maxInsertRows with
  | none => exact hdiv
  | some m => exact Nat.le_min.mpr ⟨hdiv, hk.limit m hmax⟩

theorem batchSize_eq_error_iff (hwidth : 1 ≤ width) :
    batchSize width o.maxParams o.maxInsertRows = .error (.rowTooWide width o.maxParams) ↔
      o.maxParams < width := by
  by_cases hfits : width ≤ o.maxParams
  · rw [batchSize_of_fits hwidth hfits]
    simp [hfits]
  · have hexceeds : o.maxParams < width := Nat.lt_of_not_le hfits
    simp [batchSize_of_tooWide hexceeds, hexceeds]

/-! ## Distributions -/

namespace Distributes

variable {rows : List (List Value)} {statements : List (List (List Value))}

/-- The statements of a distribution hold numbers of rows that are within the limits. -/
theorem admitsRows (h : o.Distributes rows statements) (hrows : ∀ row ∈ rows, row.length = width)
    {s : List (List Value)} (hs : s ∈ statements) : o.AdmitsRows width s.length where
  values := by
    have haligned : ∀ row ∈ s, row.length = width := fun row hrow =>
      hrows row (h.complete.mem_iff.mp (List.mem_flatten_of_mem hs hrow))
    rw [← length_flatten_of_forall haligned]
    exact h.values s hs
  limit := h.limit s hs

theorem length_le_mul {size : Nat} (h : o.Distributes rows statements)
    (hsize : ∀ s ∈ statements, s.length ≤ size) : rows.length ≤ statements.length * size := by
  have hsum : statements.flatten.length ≤ statements.length * size := by
    have hlengths := List.sum_le_card_nsmul (statements.map List.length) size (by simpa using hsize)
    simpa using hlengths
  rwa [h.complete.length_eq] at hsum

/-- As many statements are needed as it takes to hold the rows in the largest batches. -/
theorem ceilDiv_le_length {size : Nat} (h : o.Distributes rows statements)
    (hrows : ∀ row ∈ rows, row.length = width) (hpos : 1 ≤ size)
    (hsize : IsGreatest {k | o.AdmitsRows width k} size) :
    (rows.length + size - 1) / size ≤ statements.length := by
  have hle : rows.length ≤ statements.length * size :=
    h.length_le_mul fun s hs => hsize.2 (h.admitsRows hrows hs)
  have hlt : rows.length + size - 1 < (statements.length + 1) * size := by
    rw [Nat.succ_mul]
    omega
  exact Nat.lt_succ_iff.mp ((Nat.div_lt_iff_lt_mul hpos).mpr hlt)

/-- There is a distribution exactly if a row fits into a statement: each row can then have a
statement of its own. -/
theorem exists_iff (hlimit : ∀ m ∈ o.maxInsertRows, 1 ≤ m) (hne : rows ≠ [])
    (hrows : ∀ row ∈ rows, row.length = width) :
    (∃ statements, o.Distributes rows statements) ↔ width ≤ o.maxParams := by
  constructor
  · rintro ⟨statements, h⟩
    obtain ⟨row, hrow⟩ := List.exists_mem_of_ne_nil rows hne
    obtain ⟨s, hs, hmem⟩ := List.mem_flatten.mp (h.complete.mem_iff.mpr hrow)
    have hone : 1 * width ≤ s.length * width :=
      Nat.mul_le_mul_right width (List.length_pos_of_mem hmem)
    have hvalues := (h.admitsRows hrows hs).values
    omega
  · intro hfits
    refine ⟨rows.map fun row => [row], ?_, ?_, ?_⟩
    · rw [← List.flatMap_def, List.flatMap_singleton']
    · intro s hs
      obtain ⟨row, hrow, rfl⟩ := List.mem_map.mp hs
      simpa [hrows row hrow] using hfits
    · intro s hs m hm
      obtain ⟨row, -, rfl⟩ := List.mem_map.mp hs
      exact hlimit m hm

end Distributes

end Options

/-! ## Plans -/

/-- The rows in the range of a batch. -/
def InsertBatch.carried (rows : List (List Value)) (s : InsertBatch) : List (List Value) :=
  (rows.drop s.start).take s.rowCount

/-- Ranges that follow one another carry all rows between them. -/
theorem Tiles.take_append_carried {start stop : Nat} {batches : List InsertBatch}
    (h : Tiles start batches stop) (rows : List (List Value)) :
    rows.take start ++ (batches.map (InsertBatch.carried rows)).flatten = rows.take stop := by
  induction h with
  | nil n => simp
  | @cons s batches stop ne tail ih =>
      have hrange : s.start + s.rowCount = s.stop := by
        unfold InsertBatch.rowCount
        omega
      have hfirst : rows.take s.start ++ s.carried rows = rows.take s.stop := by
        rw [← hrange, List.take_add]
        rfl
      rw [List.map_cons, List.flatten_cons, ← List.append_assoc, hfirst, ih]

namespace BulkInsert

variable {b : BulkInsert} {o : Options} {p : InsertPlan}

/-- A plan is itself a distribution of the rows. -/
theorem distributes_of_partitions (h : Partitions o b p) :
    o.Distributes b.rows (p.statements.map (InsertBatch.carried b.rows)) where
  complete := by
    have hall := h.tiles.take_append_carried b.rows
    rw [List.take_zero, List.nil_append, List.take_length] at hall
    rw [hall]
  values := by
    intro s hs
    obtain ⟨batch, hbatch, rfl⟩ := List.mem_map.mp hs
    have hparams := h.paramLimit batch hbatch
    rwa [h.params batch hbatch] at hparams
  limit := by
    intro s hs m hm
    obtain ⟨batch, hbatch, rfl⟩ := List.mem_map.mp hs
    exact Nat.le_trans (List.length_take_le _ _) (h.rowLimit batch hbatch m hm)

theorem exists_partitions (hrows : ∀ m ∈ o.maxInsertRows, 1 ≤ m) (h : b.WellFormed o) :
    ∃ p, (b.plan o).result = .ok p ∧ Partitions o b p ∧
      IsGreatest {k | o.AdmitsRows b.columns.length k} p.batchSize := by
  have hwidth : 1 ≤ b.columns.length := List.length_pos_iff.mpr h.columns_ne_nil
  obtain ⟨size, hsize, hpos, hgreatest⟩ := Options.exists_isGreatest_batchSize hrows hwidth h.fits
  exact ⟨b.planOf o size, plan_eq_ok_iff.mpr ⟨h.plannable, size, hsize, rfl⟩,
    partitions_planOf hsize hpos h.aligned, hgreatest⟩

/-- The size of a batch is the greatest that respects both limits, and a row that exceeds the
limit on bound values is the only reason to have none.  A plan therefore has as few statements as
any distribution of its rows, and it fails for the width of its rows exactly if there is none. -/
theorem plan_fewest_statements (o : Options) (hrows : ∀ m ∈ o.maxInsertRows, 1 ≤ m) (width : Nat)
    (hwidth : 1 ≤ width) :
    (batchSize width o.maxParams o.maxInsertRows = .error (.rowTooWide width o.maxParams) ↔
      o.maxParams < width) ∧
    (width ≤ o.maxParams → ∃ size, batchSize width o.maxParams o.maxInsertRows = .ok size ∧
      1 ≤ size ∧ IsGreatest {k | k * width ≤ o.maxParams ∧ ∀ m ∈ o.maxInsertRows, k ≤ m} size) ∧
    (∀ rows : List (List Value), rows ≠ [] → (∀ row ∈ rows, row.length = width) →
      (batchSize width o.maxParams o.maxInsertRows = .error (.rowTooWide width o.maxParams) ↔
        ¬∃ statements, o.Distributes rows statements)) ∧
    ∀ b : BulkInsert, b.columns.length = width →
      ((b.plan o).result = .error (.rowTooWide width o.maxParams) ↔
        b.Aligned o ∧ ¬∃ statements, o.Distributes b.rows statements) ∧
      (b.Aligned o → Name.Escapable o.table → (∀ c ∈ o.idColumn, Name.Escapable c) →
        ((∃ p, (b.plan o).result = .ok p) ↔ ∃ statements, o.Distributes b.rows statements)) ∧
      ∀ p, (b.plan o).result = .ok p →
        o.Distributes b.rows (p.statements.map (InsertBatch.carried b.rows)) ∧
          ∀ statements, o.Distributes b.rows statements →
            p.statements.length ≤ statements.length := by
  have htooWide (rows : List (List Value)) (hne : rows ≠ [])
      (haligned : ∀ row ∈ rows, row.length = width) :
      (¬∃ statements, o.Distributes rows statements) ↔ o.maxParams < width := by
    rw [Options.Distributes.exists_iff hrows hne haligned, not_le]
  refine ⟨Options.batchSize_eq_error_iff hwidth, fun hfits => ?_, fun rows hne haligned => ?_,
    fun b hb => ⟨?_, fun haligned htable hid => ?_, fun p hp => ?_⟩⟩
  · obtain ⟨size, hsize, hpos, hgreatest⟩ :=
      Options.exists_isGreatest_batchSize hrows hwidth hfits
    simp only [Options.admitsRows_iff] at hgreatest
    exact ⟨size, hsize, hpos, hgreatest⟩
  · rw [Options.batchSize_eq_error_iff hwidth, htooWide rows hne haligned]
  · subst hb
    rw [plan_eq_error_iff, defect_tooWide_iff]
    constructor
    · rintro ⟨haligned, hexceeds⟩
      exact ⟨haligned, (htooWide b.rows haligned.rows_ne_nil haligned.aligned).mpr hexceeds⟩
    · rintro ⟨haligned, hnone⟩
      exact ⟨haligned, (htooWide b.rows haligned.rows_ne_nil haligned.aligned).mp hnone⟩
  · subst hb
    rw [exists_plan_iff,
      Options.Distributes.exists_iff hrows haligned.rows_ne_nil haligned.aligned]
    exact ⟨fun hformed => hformed.fits, fun hfits => ⟨⟨haligned, hfits⟩, htable, hid⟩⟩
  · subst hb
    have hformed : b.WellFormed o := exists_plan_iff.mp ⟨p, hp⟩
    obtain ⟨q, hq, hpartitions, hgreatest⟩ := exists_partitions hrows hformed
    cases hp.symm.trans hq
    refine ⟨distributes_of_partitions hpartitions, fun statements hstatements => ?_⟩
    rw [hpartitions.count]
    exact hstatements.ceilDiv_le_length hformed.aligned hpartitions.size_pos hgreatest

/-- Two of the rows fit into a statement.  Three statements are needed, and the plan has three. -/
theorem plan_fewest_statements_fiveRows :
    (∀ m ∈ narrowOptions.maxInsertRows, 1 ≤ m) ∧
      IsGreatest {k | k * 3 ≤ 8 ∧ ∀ m ∈ some 5, k ≤ m} 2 ∧
      (∃ statements, narrowOptions.Distributes fiveRows.rows statements ∧
        statements.length = 3) ∧
      ∀ statements, narrowOptions.Distributes fiveRows.rows statements →
        3 ≤ statements.length := by
  have hrows : ∀ m ∈ narrowOptions.maxInsertRows, 1 ≤ m := by
    decide
  obtain ⟨-, hsize, -, hplan⟩ := plan_fewest_statements narrowOptions hrows 3 (by decide)
  obtain ⟨size, hbatch, -, hgreatest⟩ := hsize (by decide)
  cases hbatch
  obtain ⟨-, -, hfewest⟩ := hplan fiveRows rfl
  obtain ⟨hdistributes, hleast⟩ := hfewest _ rfl
  exact ⟨hrows, hgreatest, ⟨_, hdistributes, rfl⟩, hleast⟩

end BulkInsert

end BoundSql
