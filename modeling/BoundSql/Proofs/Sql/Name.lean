import BoundSql.Proofs.Trace.Outcome
import BoundSql.Query.Whitelist

/-!
# Segments of names

A name is cut at its dots, and joining its segments by dots gives the name back.  A
name is admitted into a statement exactly if none of its segments is blank and, for a
column other than the identifier column, the whitelist has it.  What is admitted is
always the quotation of the whole name, so statements name nothing by its parts.
-/

namespace BoundSql

namespace Name

/-- The segments of a name between its dots. -/
def segments (name : String) : List (List Char) := name.toList.splitOn '.'

/-- Whether every segment of a name has visible content. -/
def Escapable (name : String) : Prop := ∀ s ∈ segments name, Text.isBlankChars s = false

instance (name : String) : Decidable (Escapable name) := by
  unfold Escapable
  infer_instance

/-- The quotation of a name. -/
def ofText (d : Dialect) (name : String) : Name := .quoted ⟨d, segments name⟩

theorem segments_ne_nil (name : String) : segments name ≠ [] :=
  List.splitOn_ne_nil _ _

theorem intercalate_segments (name : String) :
    ['.'].intercalate (segments name) = name.toList :=
  List.intercalate_splitOn '.'

end Name

theorem Identifier.ofString_eq_ok_iff {d : Dialect} {name : String} {i : Identifier} :
    ofString d name = .ok i ↔ Name.Escapable name ∧ i = ⟨d, Name.segments name⟩ := by
  rw [ofString]
  unfold Name.Escapable Name.segments
  split
  · rename_i hblank
    obtain ⟨s, hs, hsblank⟩ := List.any_eq_true.mp hblank
    constructor
    · intro h
      cases h
    · rintro ⟨hvisible, -⟩
      rw [hvisible s hs] at hsblank
      cases hsblank
  · rename_i hvisible
    have hall : ∀ s ∈ name.toList.splitOn '.', Text.isBlankChars s = false := by
      simpa using hvisible
    constructor
    · intro h
      cases h
      exact ⟨hall, rfl⟩
    · rintro ⟨-, rfl⟩
      rfl

namespace Options

variable {o : Options}

theorem quote_map_eq_ok_iff {α : Type} {name : String} {f : Identifier → α} {a : α} :
    (o.quote name).map f = .ok a ↔
      Name.Escapable name ∧ a = f ⟨o.dialect, Name.segments name⟩ := by
  rw [map_eq_ok_iff]
  constructor
  · rintro ⟨i, hi, rfl⟩
    obtain ⟨hvisible, rfl⟩ := Identifier.ofString_eq_ok_iff.mp hi
    exact ⟨hvisible, rfl⟩
  · rintro ⟨hvisible, rfl⟩
    exact ⟨_, Identifier.ofString_eq_ok_iff.mpr ⟨hvisible, rfl⟩, rfl⟩

theorem tableName_eq_ok_iff {n : Name} :
    o.tableName = .ok n ↔ Name.Escapable o.table ∧ n = Name.ofText o.dialect o.table :=
  quote_map_eq_ok_iff

theorem columnName_eq_ok_iff {column : String} {n : Name} :
    o.columnName column = .ok n ↔
      o.hasColumn column = true ∧ Name.Escapable column ∧ n = Name.ofText o.dialect column := by
  unfold columnName
  split
  · rename_i hlisted
    rw [quote_map_eq_ok_iff]
    simp only [hlisted, true_and]
    rfl
  · rename_i hlisted
    simp [hlisted]

theorem columnNames_eq_ok_iff {columns : List String} {ns : List Name} :
    o.columnNames columns = .ok ns ↔
      (∀ c ∈ columns, o.hasColumn c = true ∧ Name.Escapable c) ∧
        ns = columns.map (Name.ofText o.dialect) := by
  induction columns generalizing ns with
  | nil =>
      constructor
      · intro h
        cases h
        simp
      · rintro ⟨-, rfl⟩
        rfl
  | cons column rest ih =>
      simp only [columnNames, bind_eq_ok_iff, columnName_eq_ok_iff, ih, List.mem_cons,
        forall_eq_or_imp, List.map_cons, pure_eq_ok, Except.ok.injEq]
      constructor
      · rintro ⟨_, ⟨hlisted, hvisible, rfl⟩, _, ⟨hrest, rfl⟩, rfl⟩
        exact ⟨⟨⟨hlisted, hvisible⟩, hrest⟩, rfl⟩
      · rintro ⟨⟨⟨hlisted, hvisible⟩, hrest⟩, rfl⟩
        exact ⟨_, ⟨hlisted, hvisible, rfl⟩, _, ⟨hrest, rfl⟩, rfl⟩

theorem idColumnName_eq_ok_iff {n : Option Name} :
    o.idColumnName = .ok n ↔
      (∀ c ∈ o.idColumn, Name.Escapable c) ∧ n = o.idColumn.map (Name.ofText o.dialect) := by
  unfold idColumnName
  cases o.idColumn with
  | none =>
      constructor
      · intro h
        cases h
        simp
      · rintro ⟨-, rfl⟩
        rfl
  | some column => simp [quote_map_eq_ok_iff, Name.ofText]

end Options

end BoundSql
