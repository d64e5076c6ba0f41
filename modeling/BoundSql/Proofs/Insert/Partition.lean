import BoundSql.Proofs.Insert.Plan
import BoundSql.Proofs.Options.Validity

/-!
# Partitions of planned inserts

The ranges of a plan are computed from the index of a batch, while its text and its
values come from a group of rows.  Both agree because all groups before a batch are
full.  The statements of a plan therefore carry the rows of their ranges, and the
ranges tile the rows from the first to the last.

Options that were never checked are left out: with a row limit of zero a plan has a
batch size of zero.
-/

namespace BoundSql

/-! ## Batch sizes -/

theorem batchSize_eq_ok {width maxParams size : Nat} {maxRows : Option Nat}
    (h : batchSize width maxParams maxRows = .ok size) :
    0 < width ∧ size * width ≤ maxParams ∧ (∀ m ∈ maxRows, size ≤ m) ∧
      (maxRows ≠ some 0 → 0 < size) := by
  unfold batchSize at h
  split at h
  · cases h
  rename_i hwidth
  split at h
  · cases h
  rename_i hfits
  have hpos : 0 < maxParams / width := Nat.div_pos (by omega) (by omega)
  have hmul : maxParams / width * width ≤ maxParams := Nat.div_mul_le_self maxParams width
  cases maxRows with
  | none =>
      cases h
      exact ⟨by omega, hmul, by simp, fun _ => hpos⟩
  | some m =>
      cases h
      have hle : min (maxParams / width) m * width ≤ maxParams / width * width :=
        Nat.mul_le_mul_right width (Nat.min_le_left _ _)
      have hmin : min (maxParams / width) m ≤ m := Nat.min_le_right _ _
      refine ⟨by omega, by omega, ?_, ?_⟩
      · intro m' hm'
        cases hm'
        exact hmin
      · intro hne
        have hm : m ≠ 0 := fun h => hne (by rw [h])
        omega

theorem batchSize_of_tooWide {width maxParams : Nat} (h : maxParams < width)
    (maxRows : Option Nat) :
    batchSize width maxParams maxRows = .error (.rowTooWide width maxParams) := by
  have hwidth : width ≠ 0 := by omega
  unfold batchSize
  rw [if_neg hwidth, if_pos h]

theorem batchSize_of_fits {width maxParams : Nat} (hwidth : 0 < width) (h : width ≤ maxParams)
    (maxRows : Option Nat) :
    batchSize width maxParams maxRows =
      .ok (maxRows.elim (maxParams / width) (min (maxParams / width))) := by
  have hne : width ≠ 0 := by omega
  have hnot : ¬maxParams < width := by omega
  unfold batchSize
  rw [if_neg hne, if_neg hnot]
  cases maxRows <;> rfl

/-! ## Tilings -/

/-- Batches whose ranges are not empty and follow one another from a row to a row. -/
inductive Tiles : Nat → List InsertBatch → Nat → Prop where
  | nil (n : Nat) : Tiles n [] n
  | cons {s : InsertBatch} {batches : List InsertBatch} {stop : Nat} (ne : s.start < s.stop)
      (tail : Tiles s.stop batches stop) : Tiles s.start (s :: batches) stop

namespace Cut

variable {size : Nat} {rows : List (List Value)} {groups : List (List (List Value))}

theorem flatten_eq (h : Cut size rows groups) : groups.flatten = rows := by
  induction h with
  | none => rfl
  | last _ _ => simp
  | full _ _ _ ih => rw [List.flatten_cons, ih]

theorem length_pos_of_mem (hsize : 0 < size) (h : Cut size rows groups) :
    ∀ group ∈ groups, 0 < group.length ∧ group.length ≤ size := by
  induction h with
  | none => simp
  | last ne le => simpa using ⟨List.length_pos_iff.mpr ne, le⟩
  | full full _ _ ih =>
      intro group hgroup
      rcases List.mem_cons.mp hgroup with rfl | hgroup
      · omega
      · exact ih group hgroup

theorem ne_nil (h : Cut size rows groups) (hrows : rows ≠ []) : groups ≠ [] := by
  cases h with
  | none => exact absurd rfl hrows
  | last _ _ => simp
  | full _ _ _ => simp

/-- All groups but the last are full. -/
theorem length_of_mem_dropLast (h : Cut size rows groups) :
    ∀ group ∈ groups.dropLast, group.length = size := by
  induction h with
  | none => simp
  | last _ _ => simp
  | full full ne tail ih =>
      intro group hgroup
      rw [List.dropLast_cons_of_ne_nil (tail.ne_nil ne)] at hgroup
      rcases List.mem_cons.mp hgroup with rfl | hgroup
      · exact full
      · exact ih group hgroup

/-- There are as many groups as it takes to hold the rows. -/
theorem length_groups (hsize : 0 < size) (h : Cut size rows groups) :
    groups.length = (rows.length + size - 1) / size := by
  induction h with
  | none =>
      have hlt : 0 + size - 1 < size := by omega
      simpa using (Nat.div_eq_of_lt hlt).symm
  | @last rows ne le =>
      have hpos : 0 < rows.length := List.length_pos_iff.mpr ne
      have hone : rows.length + size - 1 = (rows.length - 1) + size := by omega
      rw [hone, Nat.add_div_right _ hsize, Nat.div_eq_of_lt (by omega)]
      rfl
  | @full group rest groups full ne _ ih =>
      have hpos : 0 < rest.length := List.length_pos_iff.mpr ne
      have hmore : (group ++ rest).length + size - 1 = (rest.length + size - 1) + size := by
        rw [List.length_append]
        omega
      rw [hmore, Nat.add_div_right _ hsize, ← ih, List.length_cons]

end Cut

namespace BulkInsert

variable {o : Options} {columns : List String} {size : Nat}

/-- The statements for groups of rows, the first of which starts at a row. -/
def batchesFrom (o : Options) (columns : List String) :
    Nat → List (List (List Value)) → List InsertBatch
  | _, [] => []
  | start, group :: groups =>
      ⟨⟨o.insertPieces columns group.length, group.flatten⟩, start, start + group.length⟩ ::
        batchesFrom o columns (start + group.length) groups

/-- Counting batches amounts to counting rows, because the groups before a batch are full. -/
theorem mapIdx_batchOf_eq (o : Options) (columns : List String) (index : Nat)
    {rows : List (List Value)} {groups : List (List (List Value))} (h : Cut size rows groups) :
    groups.mapIdx (fun i => batchOf o columns size (index + i)) =
      batchesFrom o columns (index * size) groups := by
  induction h generalizing index with
  | none => rfl
  | last _ _ => rfl
  | @full group rest groups full ne tail ih =>
      have hnext : (index + 1) * size = index * size + group.length := by
        rw [full, Nat.succ_mul]
      have hshift : (fun i => batchOf o columns size (index + (i + 1))) =
          fun i => batchOf o columns size (index + 1 + i) := by
        funext i
        rw [Nat.add_right_comm, Nat.add_assoc]
      -- a full group moves the index by one and the rows by the size of a batch
      rw [List.mapIdx_cons, batchesFrom, hshift, ih (index + 1), hnext]
      rfl

theorem statements_planOf (b : BulkInsert) (o : Options) (hsize : 0 < size) :
    (b.planOf o size).statements = batchesFrom o b.columns 0 (groups size b.rows) := by
  have heq := mapIdx_batchOf_eq o b.columns 0 (cut_groups hsize b.rows)
  simp only [Nat.zero_add, Nat.zero_mul] at heq
  exact heq

theorem map_rowCount_batchesFrom (o : Options) (columns : List String) (start : Nat)
    (groups : List (List (List Value))) :
    (batchesFrom o columns start groups).map InsertBatch.rowCount = groups.map List.length := by
  induction groups generalizing start with
  | nil => rfl
  | cons group groups ih => simp [batchesFrom, InsertBatch.rowCount, ih]

theorem length_batchesFrom (start : Nat) (groups : List (List (List Value))) :
    (batchesFrom o columns start groups).length = groups.length := by
  have hcounts := congrArg List.length (map_rowCount_batchesFrom o columns start groups)
  simpa using hcounts

theorem tiles_batchesFrom (o : Options) (columns : List String) (start : Nat)
    {groups : List (List (List Value))} (hpos : ∀ group ∈ groups, 0 < group.length) :
    Tiles start (batchesFrom o columns start groups) (start + groups.flatten.length) := by
  induction groups generalizing start with
  | nil => exact .nil start
  | cons group groups ih =>
      have hgroup := hpos group List.mem_cons_self
      have htail := ih (start + group.length) fun g hg => hpos g (List.mem_cons_of_mem group hg)
      have hne : start < start + group.length := by omega
      rw [List.flatten_cons, List.length_append, ← Nat.add_assoc]
      exact Tiles.cons (s := ⟨_, start, start + group.length⟩) hne htail

theorem flatMap_params_batchesFrom (start : Nat) (groups : List (List (List Value))) :
    (batchesFrom o columns start groups).flatMap (fun s => s.fragment.params) =
      groups.flatten.flatten := by
  induction groups generalizing start with
  | nil => rfl
  | cons group groups ih =>
      rw [batchesFrom, List.flatMap_cons, ih, List.flatten_cons, List.flatten_append]

/-- Every batch carries the rows of its range, in their order. -/
theorem mem_batchesFrom (before : List (List Value)) {groups : List (List (List Value))}
    {s : InsertBatch} (hs : s ∈ batchesFrom o columns before.length groups) :
    ∃ group ∈ groups, s.rowCount = group.length ∧ s.fragment.params = group.flatten ∧
      InsertText o.dialect columns.length group.length s.fragment.sql ∧
        ((before ++ groups.flatten).drop s.start).take s.rowCount = group := by
  induction groups generalizing before with
  | nil => cases hs
  | cons group groups ih =>
      rw [batchesFrom] at hs
      rcases List.mem_cons.mp hs with rfl | hs
      · have hcount : before.length + group.length - before.length = group.length :=
          Nat.add_sub_cancel_left _ _
        refine ⟨group, List.mem_cons_self, hcount, rfl,
          Options.insertText_insertPieces o columns group.length group.flatten, ?_⟩
        rw [InsertBatch.rowCount, hcount, List.flatten_cons, List.drop_left, List.take_left]
      · rw [← List.length_append] at hs
        obtain ⟨g, hg, hcount, hparams, htext, hrows⟩ := ih (before ++ group) hs
        refine ⟨g, List.mem_cons_of_mem group hg, hcount, hparams, htext, ?_⟩
        rw [List.flatten_cons, ← List.append_assoc, hrows]

end BulkInsert

/-! ## Plans -/

/-- A plan cuts the rows of an insert as the options allow. -/
structure Partitions (o : Options) (b : BulkInsert) (p : InsertPlan) : Prop where
  size_eq : batchSize b.columns.length o.maxParams o.maxInsertRows = .ok p.batchSize
  size_pos : 0 < p.batchSize
  /-- The ranges follow one another from the first row to the last. -/
  tiles : Tiles 0 p.statements b.rows.length
  /-- Every batch but the last is full. -/
  full : ∀ s ∈ p.statements.dropLast, s.rowCount = p.batchSize
  bounded : ∀ s ∈ p.statements, 1 ≤ s.rowCount ∧ s.rowCount ≤ p.batchSize
  rowLimit : ∀ s ∈ p.statements, ∀ m ∈ o.maxInsertRows, s.rowCount ≤ m
  paramLimit : ∀ s ∈ p.statements, s.fragment.params.length ≤ o.maxParams
  text : ∀ s ∈ p.statements, InsertText o.dialect b.columns.length s.rowCount s.fragment.sql
  params : ∀ s ∈ p.statements,
    s.fragment.params = ((b.rows.drop s.start).take s.rowCount).flatten
  /-- All values are bound once, in input order. -/
  flatMap_params : p.statements.flatMap (fun s => s.fragment.params) = b.rows.flatten
  count : p.statements.length = (b.rows.length + p.batchSize - 1) / p.batchSize
  totalRows : p.totalRows = b.rows.length

namespace BulkInsert

variable {o : Options} {b : BulkInsert}

theorem partitions_planOf {size : Nat}
    (hsize : batchSize b.columns.length o.maxParams o.maxInsertRows = .ok size) (hpos : 0 < size)
    (haligned : ∀ row ∈ b.rows, row.length = b.columns.length) :
    Partitions o b (b.planOf o size) := by
  obtain ⟨-, hwidth, hlimit, -⟩ := batchSize_eq_ok hsize
  have hcut : Cut size b.rows (groups size b.rows) := cut_groups hpos b.rows
  have hstatements := statements_planOf b o hpos
  have hbounds := hcut.length_pos_of_mem hpos
  have hmem (s : InsertBatch) (hs : s ∈ (b.planOf o size).statements) :
      ∃ group ∈ groups size b.rows, s.rowCount = group.length ∧
        s.fragment.params = group.flatten ∧
          InsertText o.dialect b.columns.length group.length s.fragment.sql ∧
            (b.rows.drop s.start).take s.rowCount = group := by
    rw [hstatements] at hs
    have hfound := mem_batchesFrom [] hs
    rwa [hcut.flatten_eq] at hfound
  have hbounded (s : InsertBatch) (hs : s ∈ (b.planOf o size).statements) :
      1 ≤ s.rowCount ∧ s.rowCount ≤ size := by
    obtain ⟨group, hgroup, hcount, -⟩ := hmem s hs
    rw [hcount]
    exact hbounds group hgroup
  refine
    { size_eq := hsize
      size_pos := hpos
      tiles := ?_
      full := ?_
      bounded := hbounded
      rowLimit := ?_
      paramLimit := ?_
      text := ?_
      params := ?_
      flatMap_params := ?_
      count := ?_
      totalRows := rfl }
  · have htiles := tiles_batchesFrom o b.columns 0 fun group hgroup => (hbounds group hgroup).1
    rwa [hcut.flatten_eq, Nat.zero_add, ← hstatements] at htiles
  -- row counts are compared as lists, because the last batch is known by its place only
  · intro s hs
    have hcounts := map_rowCount_batchesFrom o b.columns 0 (groups size b.rows)
    rw [← hstatements] at hcounts
    have hlast : (b.planOf o size).statements.dropLast.map InsertBatch.rowCount =
        (groups size b.rows).dropLast.map List.length := by
      rw [List.map_dropLast, hcounts, List.map_dropLast]
    have hcount : s.rowCount ∈ (groups size b.rows).dropLast.map List.length := by
      rw [← hlast]
      exact List.mem_map_of_mem hs
    obtain ⟨group, hgroup, hlength⟩ := List.mem_map.mp hcount
    rw [← hlength]
    exact hcut.length_of_mem_dropLast group hgroup
  · intro s hs m hm
    exact Nat.le_trans (hbounded s hs).2 (hlimit m hm)
  · intro s hs
    obtain ⟨group, hgroup, hcount, hparams, -⟩ := hmem s hs
    have hwidths : ∀ row ∈ group, row.length = b.columns.length := fun row hrow =>
      haligned row (mem_of_mem_groups hgroup hrow)
    rw [hparams, length_flatten_of_forall hwidths, ← hcount]
    exact Nat.le_trans (Nat.mul_le_mul_right _ (hbounded s hs).2) hwidth
  · intro s hs
    obtain ⟨group, -, hcount, -, htext, -⟩ := hmem s hs
    rwa [hcount]
  · intro s hs
    obtain ⟨group, -, -, hparams, -, hrows⟩ := hmem s hs
    rw [hparams, hrows]
  · rw [hstatements, flatMap_params_batchesFrom, hcut.flatten_eq]
  · rw [hstatements, length_batchesFrom]
    exact hcut.length_groups hpos

theorem events_plan {p : InsertPlan} (h : (b.plan o).result = .ok p) :
    (b.plan o).events = [.batchPlanned o.table p.totalRows p.statements.length] := by
  unfold plan at h ⊢
  rw [Traced.result_bind_eq_ok_iff] at h
  obtain ⟨q, hq, hp⟩ := h
  cases hp
  rw [Traced.bind_of_ok _ hq]
  rfl

/-- A plan made under checked options partitions the rows, and reports their number and the
number of its statements. -/
theorem partitions_of_plan {p : InsertPlan} (ho : o.Checked) (h : (b.plan o).result = .ok p) :
    Partitions o b p ∧
      (b.plan o).events = [.batchPlanned o.table p.totalRows p.statements.length] := by
  have hevents := events_plan h
  obtain ⟨hb, size, hsize, rfl⟩ := plan_eq_ok_iff.mp h
  obtain ⟨-, -, -, hsizePos⟩ := batchSize_eq_ok hsize
  have hpos : 0 < size := hsizePos (Options.maxInsertRows_ne_zero_of_validate ho.validate)
  exact ⟨partitions_planOf hsize hpos hb.aligned, hevents⟩

/-- Options whose limit on parameters is not a multiple of the width of a row. -/
def narrowOptions : Options :=
  { Options.defaults .sqlite "t" ["a", "b", "c"] with maxParams := 8, maxInsertRows := some 5 }

/-- Five rows of three values, of which two fit into one statement. -/
def fiveRows : BulkInsert :=
  ⟨["a", "b", "c"], (List.range 5).map fun i => List.replicate 3 (.integer (Int64.ofNat i))⟩

theorem partitions_fiveRows :
    ∃ p, (fiveRows.plan narrowOptions).result = .ok p ∧
      p.statements.map (fun s => (s.start, s.stop)) = [(0, 2), (2, 4), (4, 5)] ∧
      Partitions narrowOptions fiveRows p := by
  have hchecked : narrowOptions.Checked :=
    Or.inr ⟨.defaults .sqlite "t" ["a", "b", "c"],
      [("max_params", .int 8), ("max_insert_rows", .int 5)], rfl⟩
  refine ⟨_, rfl, by decide +kernel, ?_⟩
  exact (partitions_of_plan (o := narrowOptions) (b := fiveRows) hchecked rfl).1

end BulkInsert

end BoundSql
