import BoundSql.Proofs.Insert.Text

/-!
# The statements of a planned insert

Rows are cut into groups that are all full except perhaps the last, which is never
empty.  A plan succeeds on the names, the widths of the rows and the width limit
alone, and then writes one statement for each group.
-/

namespace BoundSql

/-! ## Groups of rows -/

/-- Rows cut into groups of a size: all groups are full but the last, which is not empty. -/
inductive Cut (size : Nat) : List (List Value) → List (List (List Value)) → Prop where
  | none : Cut size [] []
  | last {rows : List (List Value)} (ne : rows ≠ []) (le : rows.length ≤ size) :
      Cut size rows [rows]
  | full {group rest : List (List Value)} {groups : List (List (List Value))}
      (full : group.length = size) (ne : rest ≠ []) (tail : Cut size rest groups) :
      Cut size (group ++ rest) (group :: groups)

namespace BulkInsert

variable {size : Nat}

theorem groupsOnto_eq_append (size bound : Nat) (rows : List (List Value))
    (done : List (List (List Value))) :
    groupsOnto size bound rows done = done.reverse ++ groupsOnto size bound rows [] := by
  induction bound generalizing rows done with
  | zero => simp [groupsOnto]
  | succ bound ih =>
      cases rows with
      | nil => simp [groupsOnto]
      | cons row rows =>
          simp only [groupsOnto]
          rw [ih _ (_ :: done), ih _ [_]]
          simp

/-- The bound does not matter as long as it covers the rows. -/
theorem groupsOnto_eq_of_le (hsize : 0 < size) {bound bound' : Nat} {rows : List (List Value)}
    (h : rows.length ≤ bound) (h' : rows.length ≤ bound') :
    groupsOnto size bound rows [] = groupsOnto size bound' rows [] := by
  induction bound generalizing bound' rows with
  | zero =>
      have hnil : rows = [] := List.length_eq_zero_iff.mp (by omega)
      subst hnil
      cases bound' <;> rfl
  | succ bound ih =>
      cases rows with
      | nil => cases bound' <;> rfl
      | cons row rows =>
          cases bound' with
          | zero => simp at h'
          | succ bound' =>
              simp only [List.length_cons] at h h'
              have hshort : ((row :: rows).drop size).length ≤ rows.length := by
                rw [List.length_drop, List.length_cons]
                omega
              have hsame : groupsOnto size bound ((row :: rows).drop size) [] =
                  groupsOnto size bound' ((row :: rows).drop size) [] :=
                ih (by omega) (by omega)
              simp only [groupsOnto]
              rw [groupsOnto_eq_append, groupsOnto_eq_append size bound', hsame]

theorem groups_eq_cons (hsize : 0 < size) {rows : List (List Value)} (hrows : rows ≠ []) :
    groups size rows = rows.take size :: groups size (rows.drop size) := by
  cases rows with
  | nil => exact absurd rfl hrows
  | cons row rows =>
      have hshort : ((row :: rows).drop size).length ≤ rows.length := by
        rw [List.length_drop, List.length_cons]
        omega
      unfold groups
      rw [List.length_cons, groupsOnto, groupsOnto_eq_append,
        groupsOnto_eq_of_le hsize hshort (Nat.le_refl _)]
      rfl

theorem groups_ne_nil {rows : List (List Value)} (hrows : rows ≠ []) : groups size rows ≠ [] := by
  cases rows with
  | nil => exact absurd rfl hrows
  | cons row rows =>
      unfold groups
      rw [List.length_cons, groupsOnto, groupsOnto_eq_append]
      simp

theorem mem_of_mem_groupsOnto {bound : Nat} {rows group : List (List Value)}
    (hgroup : group ∈ groupsOnto size bound rows []) {row : List Value} (hrow : row ∈ group) :
    row ∈ rows := by
  induction bound generalizing rows with
  | zero => simp [groupsOnto] at hgroup
  | succ bound ih =>
      cases rows with
      | nil => simp [groupsOnto] at hgroup
      | cons first rows =>
          rw [groupsOnto, groupsOnto_eq_append] at hgroup
          rcases List.mem_append.mp hgroup with hfirst | hrest
          · rw [List.reverse_singleton, List.mem_singleton] at hfirst
            subst hfirst
            exact List.mem_of_mem_take hrow
          · exact List.mem_of_mem_drop (ih hrest)

/-- Groups hold only rows that were given, whatever their size. -/
theorem mem_of_mem_groups {rows group : List (List Value)} (hgroup : group ∈ groups size rows)
    {row : List Value} (hrow : row ∈ group) : row ∈ rows :=
  mem_of_mem_groupsOnto hgroup hrow

theorem cut_groups (hsize : 0 < size) (rows : List (List Value)) :
    Cut size rows (groups size rows) := by
  induction h : rows.length using Nat.strongRecOn generalizing rows with
  | ind n ih =>
      -- groups are cut from the front, so the induction is on the number of rows left
      by_cases hrows : rows = []
      · subst hrows
        exact .none
      have hpos : 0 < rows.length := List.length_pos_iff.mpr hrows
      rw [groups_eq_cons hsize hrows]
      by_cases hle : rows.length ≤ size
      · rw [List.take_of_length_le hle, List.drop_of_length_le hle]
        exact .last hrows hle
      · have hrest : rows.drop size ≠ [] := by
          rw [← List.length_pos_iff, List.length_drop]
          omega
        have htail := ih (rows.drop size).length (by rw [List.length_drop]; omega) _ rfl
        have hfull : (rows.take size).length = size := by
          rw [List.length_take]
          omega
        have hcut := Cut.full hfull hrest htail
        rwa [List.take_append_drop] at hcut

theorem firstRagged?_eq_none_iff {width index : Nat} {rows : List (List Value)} :
    firstRagged? width index rows = none ↔ ∀ row ∈ rows, row.length = width := by
  induction rows generalizing index with
  | nil => simp [firstRagged?]
  | cons row rows ih =>
      by_cases hrow : row.length = width
      · simp [firstRagged?, hrow, ih]
      · simp [firstRagged?, hrow]

/-! ## Plans -/

/-- The statement for a group of rows with a given index. -/
def batchOf (o : Options) (columns : List String) (size index : Nat)
    (group : List (List Value)) : InsertBatch where
  fragment := ⟨o.insertPieces columns group.length, group.flatten⟩
  start := index * size
  stop := index * size + group.length

theorem holes_batchOf {o : Options} {columns : List String} {index : Nat}
    {group : List (List Value)} (h : ∀ row ∈ group, row.length = columns.length) :
    Piece.holes (batchOf o columns size index group).fragment.pieces =
      (batchOf o columns size index group).fragment.params.length := by
  unfold batchOf
  rw [Options.holes_insertPieces]
  exact (length_flatten_of_forall h).symm

/-- The plan for rows in groups of a size. -/
def planOf (b : BulkInsert) (o : Options) (size : Nat) : InsertPlan where
  statements := (groups size b.rows).mapIdx (batchOf o b.columns size)
  totalRows := b.rows.length
  batchSize := size

/-- What a planned insert requires besides a batch size. -/
structure Plannable (b : BulkInsert) (o : Options) : Prop where
  columns_ne_nil : b.columns ≠ []
  rows_ne_nil : b.rows ≠ []
  distinct : Text.firstRepeated? [] b.columns = none
  listed : ∀ c ∈ b.columns, o.hasColumn c = true ∧ Name.Escapable c
  aligned : ∀ row ∈ b.rows, row.length = b.columns.length
  table : Name.Escapable o.table
  idColumn : ∀ c ∈ o.idColumn, Name.Escapable c

theorem mapM_id_eq_ok_iff {ε α : Type} {xs : List (Except ε α)} {ys : List α} :
    xs.mapM id = .ok ys ↔ xs = ys.map .ok := by
  induction xs generalizing ys with
  | nil => cases ys <;> simp
  | cons x xs ih =>
      simp only [List.mapM_cons, id, bind_eq_ok_iff, ih, pure_eq_ok, Except.ok.injEq]
      cases ys with
      | nil => simp
      | cons y ys =>
          simp only [List.map_cons, List.cons.injEq]
          constructor
          · rintro ⟨_, rfl, _, rfl, rfl, rfl⟩
            exact ⟨rfl, rfl⟩
          · rintro ⟨rfl, rfl⟩
            exact ⟨y, rfl, ys, rfl, rfl, rfl⟩

theorem batch_eq_ok_iff {o : Options} {columns : List String} {index : Nat}
    {group : List (List Value)} {s : InsertBatch} :
    batch o (columns.map (Name.ofText o.dialect)) size index group = .ok s ↔
      Name.Escapable o.table ∧ (∀ c ∈ o.idColumn, Name.Escapable c) ∧
        s = batchOf o columns size index group := by
  simp only [batch, bind_eq_ok_iff, Options.renderInsert_eq_ok_iff, pure_eq_ok, Except.ok.injEq]
  constructor
  · rintro ⟨_, ⟨htable, hid, rfl⟩, rfl⟩
    exact ⟨htable, hid, rfl⟩
  · rintro ⟨htable, hid, rfl⟩
    exact ⟨_, ⟨htable, hid, rfl⟩, rfl⟩

theorem batches_eq_ok_iff {o : Options} {columns : List String}
    {groups : List (List (List Value))} (hgroups : groups ≠ []) {ss : List InsertBatch} :
    (groups.mapIdx (batch o (columns.map (Name.ofText o.dialect)) size)).mapM id = .ok ss ↔
      Name.Escapable o.table ∧ (∀ c ∈ o.idColumn, Name.Escapable c) ∧
        ss = groups.mapIdx (batchOf o columns size) := by
  rw [mapM_id_eq_ok_iff]
  constructor
  · intro h
    have hlength : ss.length = groups.length := by simpa using (congrArg List.length h).symm
    have heach (i : Nat) (hi : i < groups.length) (hi' : i < ss.length) :
        batch o (columns.map (Name.ofText o.dialect)) size i groups[i] = .ok ss[i] := by
      have hat := congrArg (fun l => l[i]?) h
      simpa [hi, hi'] using hat
    have hpos : 0 < groups.length := List.length_pos_iff.mpr hgroups
    have hzero := batch_eq_ok_iff.mp (heach 0 hpos (by omega))
    refine ⟨hzero.1, hzero.2.1, List.ext_getElem (by simpa using hlength) ?_⟩
    intro i hi hi'
    rw [List.getElem_mapIdx]
    exact (batch_eq_ok_iff.mp (heach i (by omega) hi)).2.2
  · rintro ⟨htable, hid, rfl⟩
    refine List.ext_getElem (by simp) ?_
    intro i hi hi'
    rw [List.getElem_map, List.getElem_mapIdx, List.getElem_mapIdx]
    exact batch_eq_ok_iff.mpr ⟨htable, hid, rfl⟩

theorem statements_eq_ok_iff {b : BulkInsert} {o : Options} {p : InsertPlan} :
    b.statements o = .ok p ↔
      b.Plannable o ∧ ∃ size, batchSize b.columns.length o.maxParams o.maxInsertRows = .ok size ∧
        p = b.planOf o size := by
  unfold statements
  split
  · rename_i hempty
    constructor
    · intro h
      cases h
    · rintro ⟨hb, -⟩
      rcases hempty with hempty | hempty
      · exact absurd (List.isEmpty_iff.mp hempty) hb.columns_ne_nil
      · exact absurd (List.isEmpty_iff.mp hempty) hb.rows_ne_nil
  · rename_i hfilled
    simp only [not_or, Bool.not_eq_true, List.isEmpty_eq_false_iff] at hfilled
    obtain ⟨hcolumns, hrows⟩ := hfilled
    simp only [bind_eq_ok_iff, Options.insertNames_eq_ok_iff]
    constructor
    · rintro ⟨_, ⟨hdistinct, hlisted, rfl⟩, h⟩
      cases hragged : firstRagged? b.columns.length 0 b.rows with
      | some found => simp [hragged] at h
      | none =>
          simp only [hragged, bind_eq_ok_iff, pure_eq_ok, Except.ok.injEq] at h
          obtain ⟨size, hsize, ss, hss, rfl⟩ := h
          obtain ⟨htable, hid, rfl⟩ := (batches_eq_ok_iff (groups_ne_nil hrows)).mp hss
          exact ⟨⟨hcolumns, hrows, hdistinct, hlisted, firstRagged?_eq_none_iff.mp hragged,
            htable, hid⟩, size, hsize, rfl⟩
    · rintro ⟨hb, size, hsize, rfl⟩
      refine ⟨_, ⟨hb.distinct, hb.listed, rfl⟩, ?_⟩
      simp only [firstRagged?_eq_none_iff.mpr hb.aligned, bind_eq_ok_iff, pure_eq_ok,
        Except.ok.injEq]
      exact ⟨size, hsize, _,
        (batches_eq_ok_iff (groups_ne_nil hrows)).mpr ⟨hb.table, hb.idColumn, rfl⟩, rfl⟩

theorem plan_eq_ok_iff {b : BulkInsert} {o : Options} {p : InsertPlan} :
    (b.plan o).result = .ok p ↔
      b.Plannable o ∧ ∃ size, batchSize b.columns.length o.maxParams o.maxInsertRows = .ok size ∧
        p = b.planOf o size := by
  rw [← statements_eq_ok_iff]
  simp [plan, Traced.result_bind_eq_ok_iff]

end BulkInsert

end BoundSql
