import BoundSql.Proofs.Sql.Vocabulary
import BoundSql.Query.Insert

/-!
# The text of an insert

Whether an insert can be written depends on its names alone; the number of rows only
repeats the group of placeholders.
-/

namespace BoundSql

namespace Options

variable {o : Options} {columns : List String}

theorem insertNames_eq_ok_iff {ns : List Name} :
    o.insertNames columns = .ok ns ↔
      Text.firstRepeated? [] columns = none ∧
        (∀ c ∈ columns, o.hasColumn c = true ∧ Name.Escapable c) ∧
          ns = columns.map (Name.ofText o.dialect) := by
  unfold insertNames
  cases h : Text.firstRepeated? [] columns with
  | some column => simp
  | none => simp [columnNames_eq_ok_iff]

/-- The clause before the values that asks for generated values, if the dialect has it there. -/
def outputClause (o : Options) : List Piece :=
  match o.dialect.idStrategy, o.idColumn with
  | .output, some c =>
      [.word .space, .word .output, .word .space, .word .inserted, .word .dot,
        .name (.ofText o.dialect c)]
  | _, _ => []

/-- The clause after the values that asks for generated values, if the dialect has it there. -/
def returningClause (o : Options) : List Piece :=
  match o.dialect.idStrategy, o.idColumn with
  | .returning, some c =>
      [.word .space, .word .returning, .word .space, .name (.ofText o.dialect c)]
  | _, _ => []

/-- The table and the columns of an insert. -/
def insertTarget (o : Options) (columns : List String) : List Piece :=
  .name (.ofText o.dialect o.table) :: .word .space ::
    Piece.parenthesised
      (Piece.commaSeparated (columns.map fun c => [.name (.ofText o.dialect c)]))

/-- The pieces of an insert of so many rows into columns. -/
def insertPieces (o : Options) (columns : List String) (rows : Nat) : List Piece :=
  [.word .insertInto, .word .space] ++ (o.insertTarget columns ++ o.outputClause) ++
    [.word .space, .word .values, .word .space] ++
      (insertRows columns.length rows ++ o.returningClause)

theorem spaced_insertClauses (o : Options) (columns : List String) (rows : Nat) :
    Piece.spaced
      ([[.word .insertInto], [.name (.ofText o.dialect o.table)],
        Piece.parenthesised
          (Piece.commaSeparated (columns.map fun c => [.name (.ofText o.dialect c)]))] ++
        insertClauses o.dialect.idStrategy (o.idColumn.map (Name.ofText o.dialect))
          (insertRows columns.length rows)) = o.insertPieces columns rows := by
  unfold insertPieces insertTarget outputClause returningClause Piece.spaced
  cases hid : o.idColumn with
  | none => cases o.dialect.idStrategy <;> simp [insertClauses]
  | some c => cases o.dialect.idStrategy <;> simp [insertClauses]

theorem renderInsert_eq_ok_iff {rows : Nat} {ps : List Piece} :
    o.renderInsert (columns.map (Name.ofText o.dialect)) rows = .ok ps ↔
      Name.Escapable o.table ∧ (∀ c ∈ o.idColumn, Name.Escapable c) ∧
        ps = o.insertPieces columns rows := by
  have hpieces := spaced_insertClauses o columns rows
  simp only [renderInsert, bind_eq_ok_iff, tableName_eq_ok_iff, idColumnName_eq_ok_iff, pure_eq_ok,
    Except.ok.injEq, List.map_map, Function.comp_def, List.length_map]
  constructor
  · rintro ⟨_, ⟨htable, rfl⟩, _, ⟨hid, rfl⟩, rfl⟩
    exact ⟨htable, hid, hpieces⟩
  · rintro ⟨htable, hid, rfl⟩
    exact ⟨_, ⟨htable, rfl⟩, _, ⟨hid, rfl⟩, hpieces⟩

/-! ## Tidiness -/

section Tidy

variable {names : String → Prop} {numbers : Nat → Prop}

theorem tidy_insertRows (d : Dialect) (width rows : Nat) :
    Piece.Tidy d names numbers (insertRows width rows) := by
  apply Piece.Tidy.commaSeparated
  intro part hpart
  rw [List.eq_of_mem_replicate hpart]
  exact .parenthesised (.placeholders width)

theorem holes_insertRows (width rows : Nat) :
    Piece.holes (insertRows width rows) = rows * width := by
  rw [insertRows, Piece.holes_commaSeparated]
  induction rows with
  | zero => simp
  | succ rows ih =>
      rw [List.replicate_succ, List.flatten_cons, Piece.holes_append, ih,
        Piece.holes_parenthesised, Piece.holes_placeholders, Nat.succ_mul, Nat.add_comm]

theorem tidy_insertTarget_append_outputClause (htable : names o.table)
    (hcolumns : ∀ c ∈ columns, names c) (hid : ∀ c ∈ o.idColumn, names c) :
    Piece.Tidy o.dialect names numbers (o.insertTarget columns ++ o.outputClause) := by
  have htarget : Piece.Tidy o.dialect names numbers (o.insertTarget columns) :=
    .name htable .space (.parenthesised (.quotedNames hcolumns))
  unfold outputClause
  split
  · rename_i c _ hc
    exact htarget.append_word .space (.word _ (.word _ (.word _ (.word _ (.lastName (hid c hc))))))
  · simpa using htarget

theorem tidy_insertRows_append_returningClause (width rows : Nat)
    (hid : ∀ c ∈ o.idColumn, names c) :
    Piece.Tidy o.dialect names numbers (insertRows width rows ++ o.returningClause) := by
  have hrows : Piece.Tidy o.dialect names numbers (insertRows width rows) :=
    tidy_insertRows o.dialect width rows
  unfold returningClause
  split
  · rename_i c _ hc
    exact hrows.append_word .space (.word _ (.word _ (.lastName (hid c hc))))
  · simpa using hrows

theorem tidy_insertPieces {rows : Nat} (htable : names o.table) (hcolumns : ∀ c ∈ columns, names c)
    (hid : ∀ c ∈ o.idColumn, names c) :
    Piece.Tidy o.dialect names numbers (o.insertPieces columns rows) := by
  have hhead : Piece.Tidy o.dialect names numbers (o.insertTarget columns ++ o.outputClause) :=
    tidy_insertTarget_append_outputClause htable hcolumns hid
  have htail : Piece.Tidy o.dialect names numbers
      (insertRows columns.length rows ++ o.returningClause) :=
    tidy_insertRows_append_returningClause columns.length rows hid
  unfold insertPieces
  rw [List.append_assoc]
  exact .word _ (.word _ (hhead.append_word .space (.word _ (.word _ htail))))

theorem holes_outputClause (o : Options) : Piece.holes o.outputClause = 0 := by
  unfold outputClause
  split <;> rfl

theorem holes_returningClause (o : Options) : Piece.holes o.returningClause = 0 := by
  unfold returningClause
  split <;> rfl

theorem holes_insertTarget (o : Options) (columns : List String) :
    Piece.holes (o.insertTarget columns) = 0 := by
  rw [insertTarget, Piece.holes_name_cons, Piece.holes_word_cons, Piece.holes_parenthesised,
    Piece.holes_quotedNames]

theorem holes_insertPieces (o : Options) (columns : List String) (rows : Nat) :
    Piece.holes (o.insertPieces columns rows) = rows * columns.length := by
  simp [insertPieces, holes_insertTarget, holes_outputClause, holes_returningClause,
    holes_insertRows]

end Tidy

end Options

/-! ## Scanning -/

open Lexeme (plainText)

/-- So many placeholders. -/
def markLexemes (width : Nat) : List Lexeme :=
  [.plain ',', .plain ' '].intercalate (List.replicate width [.plain '?'])

/-- A group of so many placeholders. -/
def groupLexemes (width : Nat) : List Lexeme := .plain '(' :: (markLexemes width ++ [.plain ')'])

/-- So many groups of so many placeholders. -/
def rowLexemes (width rows : Nat) : List Lexeme :=
  [.plain ',', .plain ' '].intercalate (List.replicate rows (groupLexemes width))

/-- The text of an insert with so many groups of so many placeholders, and with no placeholder
outside these groups. -/
def InsertText (d : Dialect) (width rows : Nat) (sql : String) : Prop :=
  ∃ target tail, Lexeme.scan d sql.toList =
      some (plainText "INSERT INTO ".toList ++ target ++ plainText " VALUES ".toList ++
        (rowLexemes width rows ++ tail)) ∧
    .plain '?' ∉ target ∧ .plain '?' ∉ tail

/-- Lexemes with a clause that asks for the generated values of a column. -/
def Lexeme.AskFor (column : String) (ls : List Lexeme) : Prop :=
  plainText " RETURNING ".toList ++ ofSegments (Name.segments column) <:+: ls ∨
    plainText " OUTPUT inserted.".toList ++ ofSegments (Name.segments column) <:+: ls

instance (column : String) (ls : List Lexeme) : Decidable (Lexeme.AskFor column ls) :=
  inferInstanceAs (Decidable (_ ∨ _))

/-- The text of a statement with a clause that asks for the generated values of a column. -/
def AsksFor (d : Dialect) (column sql : String) : Prop :=
  ∃ ls ∈ Lexeme.scan d sql.toList, Lexeme.AskFor column ls

instance (d : Dialect) (column sql : String) : Decidable (AsksFor d column sql) :=
  inferInstanceAs (Decidable (∃ ls ∈ Lexeme.scan d sql.toList, Lexeme.AskFor column ls))

theorem lexemes_placeholderGroup (width : Nat) :
    (Piece.parenthesised (Piece.placeholders width)).flatMap Piece.lexemes =
      groupLexemes width := by
  have hmarks : (Piece.placeholders width).flatMap Piece.lexemes = markLexemes width := by
    rw [Piece.placeholders, Piece.commaSeparated, flatMap_intercalate, List.map_replicate]
    rfl
  rw [Piece.parenthesised, List.cons_append, List.flatMap_cons, List.flatMap_append, hmarks]
  rfl

theorem lexemes_insertRows (width rows : Nat) :
    (insertRows width rows).flatMap Piece.lexemes = rowLexemes width rows := by
  rw [insertRows, Piece.commaSeparated, flatMap_intercalate, List.map_replicate,
    lexemes_placeholderGroup]
  rfl

namespace Options

variable {o : Options} {columns : List String}

/-- The lexemes of an insert around its groups of placeholders. -/
theorem scan_insertPieces (o : Options) (columns : List String) (rows : Nat)
    (params : List Value) :
    Lexeme.scan o.dialect (Fragment.sql ⟨o.insertPieces columns rows, params⟩).toList =
      some (plainText "INSERT INTO ".toList ++
        (o.insertTarget columns ++ o.outputClause).flatMap Piece.lexemes ++
          plainText " VALUES ".toList ++
            (rowLexemes columns.length rows ++ o.returningClause.flatMap Piece.lexemes)) := by
  have htidy : Piece.Tidy o.dialect (fun _ => True) (fun _ => False)
      (o.insertPieces columns rows) :=
    tidy_insertPieces trivial (fun _ _ => trivial) fun _ _ => trivial
  have hopening : [Piece.word .insertInto, .word .space].flatMap Piece.lexemes =
      plainText "INSERT INTO ".toList := by
    decide
  have hvalues : [Piece.word .space, .word .values, .word .space].flatMap Piece.lexemes =
      plainText " VALUES ".toList := by
    decide
  have hrows : (insertRows columns.length rows ++ o.returningClause).flatMap Piece.lexemes =
      rowLexemes columns.length rows ++ o.returningClause.flatMap Piece.lexemes := by
    rw [List.flatMap_append, lexemes_insertRows]
  rw [Fragment.toList_sql, htidy.scan_flatMap_chars, insertPieces, List.flatMap_append,
    List.flatMap_append, List.flatMap_append, hopening, hvalues, hrows]

theorem insertText_insertPieces (o : Options) (columns : List String) (rows : Nat)
    (params : List Value) :
    InsertText o.dialect columns.length rows
      (Fragment.sql ⟨o.insertPieces columns rows, params⟩) := by
  have htarget : Piece.Tidy o.dialect (fun _ => True) (fun _ => False)
      (o.insertTarget columns ++ o.outputClause) :=
    tidy_insertTarget_append_outputClause trivial (fun _ _ => trivial) fun _ _ => trivial
  have htail : Piece.Tidy o.dialect (fun _ => True) (fun _ => False) o.returningClause :=
    tidy_insertRows_append_returningClause 0 0 fun _ _ => trivial
  refine ⟨_, _, scan_insertPieces o columns rows params, ?_, ?_⟩
  · rw [← List.count_eq_zero, htarget.count_questionMark, Piece.holes_append, holes_insertTarget,
      holes_outputClause]
  · rw [← List.count_eq_zero, htail.count_questionMark, holes_returningClause]

/-- A dialect that returns generated values is asked for them if their column is known. -/
theorem asksFor_insertPieces {c : String} (hc : o.idColumn = some c)
    (hstrategy : o.dialect.idStrategy ≠ .firstInsertId) (rows : Nat) (params : List Value) :
    AsksFor o.dialect c (Fragment.sql ⟨o.insertPieces columns rows, params⟩) := by
  have hname : Piece.lexemes (.name (.ofText o.dialect c)) =
      Lexeme.ofSegments (Name.segments c) := Name.lexemes_tokens o.dialect c
  refine ⟨_, scan_insertPieces o columns rows params, ?_⟩
  cases hs : o.dialect.idStrategy with
  | firstInsertId => exact absurd hs hstrategy
  | returning =>
      have hclause : o.returningClause.flatMap Piece.lexemes =
          plainText " RETURNING ".toList ++ Lexeme.ofSegments (Name.segments c) := by
        simp only [returningClause, hs, hc, List.flatMap_cons, hname, List.flatMap_nil,
          List.append_nil]
        rfl
      left
      rw [hclause]
      exact List.IsSuffix.isInfix (List.suffix_append_of_suffix (List.suffix_append _ _))
  | output =>
      have hclause : o.outputClause.flatMap Piece.lexemes =
          plainText " OUTPUT inserted.".toList ++ Lexeme.ofSegments (Name.segments c) := by
        simp only [outputClause, hs, hc, List.flatMap_cons, hname, List.flatMap_nil,
          List.append_nil]
        rfl
      right
      rw [List.flatMap_append, hclause]
      refine ⟨plainText "INSERT INTO ".toList ++ (o.insertTarget columns).flatMap Piece.lexemes,
        plainText " VALUES ".toList ++
          (rowLexemes columns.length rows ++ o.returningClause.flatMap Piece.lexemes), ?_⟩
      simp only [List.append_assoc]

end Options

end BoundSql
