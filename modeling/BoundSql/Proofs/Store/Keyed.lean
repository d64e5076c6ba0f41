import BoundSql.Proofs.Trace.Outcome
import BoundSql.Store.Execute

/-!
# Inserts into ordered tables

A table shows the identifier of each record in its key column, or behind all columns if it has no
key column, and keeps its records in the order of their identifiers.  An insert keeps it so.  A row
without a key value gets the number after the largest identifier, so that many of them get
consecutive numbers as long as these are integers of 64 bits.

Nothing is claimed about which rows the constraints of a table refuse.
-/

namespace BoundSql.Store

/-! ## Records in order -/

theorem mem_place {r s : Record} {records : List Record} :
    s ∈ Table.place r records ↔ s = r ∨ s ∈ records := by
  induction records with
  | nil => simp [Table.place]
  | cons first records ih =>
      unfold Table.place
      split <;> simp [ih, or_left_comm]

theorem pairwise_place {r : Record} {records : List Record} (hfresh : ∀ s ∈ records, s.id ≠ r.id)
    (hordered : records.Pairwise fun s t => s.id < t.id) :
    (Table.place r records).Pairwise fun s t => s.id < t.id := by
  induction records with
  | nil => simp [Table.place]
  | cons first records ih =>
      obtain ⟨hfirst, hrest⟩ := List.pairwise_cons.mp hordered
      obtain ⟨hne, hothers⟩ := List.forall_mem_cons.mp hfresh
      unfold Table.place
      split
      · rename_i hlt
        refine List.pairwise_cons.mpr ⟨?_, hordered⟩
        intro s hs
        rcases List.mem_cons.mp hs with rfl | hs
        · exact hlt
        · exact Int64.lt_trans hlt (hfirst s hs)
      · rename_i hnot
        have hlt : first.id < r.id := Int64.lt_of_le_of_ne (Int64.not_lt.mp hnot) hne
        refine List.pairwise_cons.mpr ⟨?_, ih hothers hrest⟩
        intro s hs
        rcases mem_place.mp hs with rfl | hs
        · exact hlt
        · exact hfirst s hs

/-- A record with a larger identifier than all others is placed behind them. -/
theorem place_eq_append {r : Record} {records : List Record} (h : ∀ s ∈ records, s.id < r.id) :
    Table.place r records = records ++ [r] := by
  induction records with
  | nil => rfl
  | cons first records ih =>
      obtain ⟨hfirst, hrest⟩ := List.forall_mem_cons.mp h
      have hnot : ¬r.id < first.id := Int64.not_lt.mpr (Int64.le_of_lt hfirst)
      rw [Table.place, if_neg hnot, ih hrest, List.cons_append]

namespace Table

variable {t next : Table} {name : String} {k : Nat} {id : Int64} {key : Value}
  {values : List Value}

/-- The largest identifier, zero if there is none. -/
def lastId (t : Table) : Int64 := (t.records.getLast?.map Record.id).getD 0

theorem nextId_eq (t : Table) : t.nextId = t.lastId + 1 := by
  unfold nextId lastId
  cases t.records.getLast? <;> rfl

@[simp] theorem id_recordOf (t : Table) (id : Int64) (values : List Value) :
    (t.recordOf id values).id = id := by
  unfold recordOf
  split <;> rfl

/-- A record is only admitted under a new identifier. -/
theorem fresh_of_check {r : Record} (h : t.check r = .ok ()) : ∀ s ∈ t.records, s.id ≠ r.id := by
  unfold check at h
  split at h
  · cases h
  · split at h
    · cases h
    · rename_i hany
      intro s hs heq
      exact hany (List.any_eq_true.mpr ⟨s, hs, decide_eq_true heq⟩)

/-- An insert adds one record, under an identifier that is new. -/
theorem insert_spec (h : t.insert key values = .ok (next, id)) :
    next = { t with records := place (t.recordOf id values) t.records } ∧
      ∀ s ∈ t.records, s.id ≠ id := by
  obtain ⟨wanted, -, h⟩ := bind_eq_ok_iff.mp h
  obtain ⟨added, hadd, h⟩ := bind_eq_ok_iff.mp h
  cases h
  obtain ⟨⟨⟩, hcheck, hadd⟩ := bind_eq_ok_iff.mp hadd
  cases hadd
  exact ⟨rfl, by simpa using fresh_of_check hcheck⟩

/-- Without a key value a row gets the next number. -/
theorem id_of_insert (h : t.insert .null values = .ok (next, id)) : id = t.nextId := by
  obtain ⟨wanted, hwanted, h⟩ := bind_eq_ok_iff.mp h
  obtain ⟨added, -, h⟩ := bind_eq_ok_iff.mp h
  cases hwanted
  cases h
  rfl

/-- The record of a row shows its identifier. -/
theorem cell_recordOf (hlength : values.length = t.columns.length) (id : Int64) :
    (t.recordOf id values).cell t.idIndex = .integer id := by
  unfold recordOf Record.cell idIndex
  cases hkey : t.keyIndex? with
  | none => simp [hlength]
  | some k =>
      obtain ⟨hlt, -⟩ := List.findIdx?_eq_some_iff_getElem.mp hkey
      simp [hlength, hlt]

/-- A table that shows the identifiers of its records at a position with a name, in order. -/
structure Keyed (t : Table) (name : String) (k : Nat) : Prop where
  key : t.idIndex = k
  named : (t.columnAt k).name = name
  shows : ∀ r ∈ t.records, r.cell k = .integer r.id
  ordered : t.records.Pairwise fun r s => r.id < s.id

namespace Keyed

theorem insert (h : t.Keyed name k) (hlength : values.length = t.columns.length)
    (hinsert : t.insert key values = .ok (next, id)) : next.Keyed name k := by
  obtain ⟨rfl, hfresh⟩ := insert_spec hinsert
  refine ⟨h.key, h.named, fun r hr => ?_, pairwise_place (by simpa using hfresh) h.ordered⟩
  rcases mem_place.mp hr with rfl | hr
  · rw [← h.key, cell_recordOf hlength, id_recordOf]
  · exact h.shows r hr

theorem le_lastId (h : t.Keyed name k) : ∀ r ∈ t.records, r.id ≤ t.lastId := by
  intro r hr
  have hne : t.records ≠ [] := List.ne_nil_of_mem hr
  have hsplit := List.dropLast_concat_getLast hne
  have hlast : t.lastId = (t.records.getLast hne).id := by
    rw [lastId, List.getLast?_eq_some_getLast hne]
    rfl
  have hordered := h.ordered
  rw [← hsplit, List.pairwise_append] at hordered
  rw [← hsplit, List.mem_append] at hr
  rw [hlast]
  rcases hr with hr | hr
  · exact Int64.le_of_lt (hordered.2.2 r hr _ List.mem_cons_self)
  · rw [List.mem_singleton.mp hr]
    exact Int64.le_refl _

/-- While numbers are left, a row without a key value gets the one after the largest identifier,
which then is the largest. -/
theorem lastId_of_insert (h : t.Keyed name k) (hroom : t.lastId.toInt < Int64.maxValue.toInt)
    (hinsert : t.insert .null values = .ok (next, id)) :
    id.toInt = t.lastId.toInt + 1 ∧ next.lastId = id := by
  have hnext : id.toInt = t.lastId.toInt + 1 := by
    have hmax : Int64.maxValue.toInt = 2 ^ 63 - 1 := by decide
    have hmin := t.lastId.le_toInt
    rw [id_of_insert hinsert, nextId_eq, Int64.toInt_add]
    exact Int.bmod_eq_of_le (by simp; omega) (by simp; omega)
  refine ⟨hnext, ?_⟩
  obtain ⟨rfl, -⟩ := insert_spec hinsert
  -- the new record goes behind all others, so the next row is counted from it
  have hlarger : ∀ r ∈ t.records, r.id < (t.recordOf id values).id := by
    intro r hr
    have hle := Int64.le_iff_toInt_le.mp (h.le_lastId r hr)
    rw [id_recordOf, Int64.lt_iff_toInt_lt]
    omega
  simp [lastId, place_eq_append hlarger]

end Keyed

end Table

/-! ## Many rows -/

variable {params : List Value} {targets : List Nat} {t next : Table} {name : String} {k : Nat}
  {rows : List (List Operand)} {ids all : List Int64}

theorem length_newValues (t : Table) (params : List Value) (targets : List Nat)
    (row : List Operand) : (newValues t params targets row).length = t.columns.length := by
  simp [newValues]

/-- A row gets no key value if its identifier is no target. -/
theorem newKey_eq_null (hk : t.idIndex ∉ targets) (row : List Operand) :
    newKey t params targets row = .null := by
  have hlookup : (given params targets row).reverse.lookup t.idIndex = none := by
    rw [List.lookup_eq_none_iff]
    intro p hp
    have hmem : p.1 ∈ targets := (List.of_mem_zip (List.mem_reverse.mp hp)).1
    rw [bne_iff_ne]
    exact fun heq => hk (heq ▸ hmem)
  rw [newKey, hlookup]
  rfl

/-- The identifiers of rows before others stay in front. -/
theorem insertAll_append (params : List Value) (targets : List Nat) (ids : List Int64) (t : Table)
    (rows : List (List Operand)) :
    insertAll params targets ids t rows =
      (insertAll params targets [] t rows).map fun r => (r.1, ids ++ r.2) := by
  induction rows generalizing ids t with
  | nil => simp [insertAll, Except.map]
  | cons row rows ih =>
      cases hinsert : t.insert (newKey t params targets row) (newValues t params targets row) with
      | error e => simp [insertAll, hinsert, bind, Except.bind, Except.map]
      | ok r =>
          simp only [insertAll, hinsert, bind, Except.bind]
          rw [ih (ids ++ [r.2]), ih ([] ++ [r.2])]
          cases insertAll params targets [] r.1 rows <;> simp [Except.map]

/-- A table stays in order over many inserts, and shows every identifier that they gave. -/
theorem Table.Keyed.insertAll (h : t.Keyed name k)
    (hids : ∀ id ∈ ids, ∃ r ∈ t.records, r.id = id)
    (hinsert : insertAll params targets ids t rows = .ok (next, all)) :
    next.Keyed name k ∧ ∀ id ∈ all, ∃ r ∈ next.records, r.id = id := by
  induction rows generalizing t ids with
  | nil =>
      cases hinsert
      exact ⟨h, hids⟩
  | cons row rows ih =>
      obtain ⟨⟨middle, id⟩, hrow, hinsert⟩ := bind_eq_ok_iff.mp hinsert
      have hkeyed := h.insert (length_newValues t params targets row) hrow
      obtain ⟨rfl, -⟩ := insert_spec hrow
      have hfound : ∀ i ∈ ids ++ [id], ∃ r ∈ place (t.recordOf id
          (newValues t params targets row)) t.records, r.id = i := by
        intro i hi
        rcases List.mem_append.mp hi with hi | hi
        · obtain ⟨r, hr, hid⟩ := hids i hi
          exact ⟨r, mem_place.mpr (.inr hr), hid⟩
        · rw [List.mem_singleton.mp hi]
          exact ⟨_, mem_place.mpr (.inl rfl), id_recordOf t id _⟩
      exact ih hkeyed hfound hinsert

end BoundSql.Store
