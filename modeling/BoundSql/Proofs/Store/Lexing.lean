import BoundSql.Proofs.Insert.Text
import BoundSql.Store.Reader

/-!
# Lexing written inserts

The text of an insert is cut into the tokens that it is meant to have, in the quotation of either
dialect that the store reads: its keywords, its quoted names with dots between the segments, and
its placeholders, numbered from the first to the last.

A text is cut piece by piece from the front.  What stands behind a word must not lengthen it, and
what stands behind a quoted name must not be its closing quote again.  The positions of tokens are
left open.
-/

namespace BoundSql.Store

variable {holes : Nat} {c : Char} {cs rest : List Char} {ts : List Token}

/-- A text that is cut into tokens, wherever it stands, when so many placeholders came before. -/
def Lexes (holes : Nat) (cs : List Char) (ts : List Token) : Prop :=
  ∀ offset bound, cs.length ≤ bound →
    ∃ ls, lexFrom holes offset bound cs = some ls ∧ ls.map Lexeme.token = ts

/-- The number of placeholders behind a token. -/
def holesAfter (holes : Nat) : Token → Nat
  | .placeholder _ => holes + 1
  | _ => holes

theorem lexes_nil (holes : Nat) : Lexes holes [] [] := by
  intro offset bound _
  refine ⟨[], ?_, rfl⟩
  rw [lexFrom]

theorem Lexes.blank (hc : Text.isBlankChar c = true) (h : Lexes holes cs ts) :
    Lexes holes (c :: cs) ts := by
  intro offset bound hbound
  obtain ⟨bound, rfl⟩ : ∃ b, bound = b + 1 := ⟨bound - 1, by simp at hbound; omega⟩
  rw [lexFrom, if_pos hc]
  exact h _ _ (by simpa using hbound)

theorem Lexes.token {t : Token} {w : List Char} (hc : Text.isBlankChar c = false)
    (hread : readToken? holes (c :: w ++ rest) = some (t, (c :: w).length))
    (h : Lexes (holesAfter holes t) rest ts) : Lexes holes (c :: w ++ rest) (t :: ts) := by
  intro offset bound hbound
  obtain ⟨bound, rfl⟩ : ∃ b, bound = b + 1 := ⟨bound - 1, by simp at hbound; omega⟩
  have hrest : rest.length ≤ bound := by
    simp only [List.cons_append, List.length_cons, List.length_append] at hbound
    omega
  obtain ⟨ls, hls, hts⟩ := h (offset + byteWidth (c :: w)) bound hrest
  refine ⟨⟨t, offset, byteWidth (c :: w)⟩ :: ls, ?_, by rw [List.map_cons, hts]⟩
  have htake : (c :: w ++ rest).take (c :: w).length = c :: w := List.take_left
  have hdrop : (c :: w ++ rest).drop (c :: w).length = rest := List.drop_left
  rw [List.cons_append] at hread htake hdrop ⊢
  rw [lexFrom, if_neg (by simp [hc]), hread]
  simp only [bind, Option.bind_some, htake, hdrop]
  show (lexFrom (holesAfter holes t) _ bound rest).bind _ = _
  rw [hls]
  rfl

theorem Lexes.space (h : Lexes holes cs ts) : Lexes holes (' ' :: cs) ts := h.blank rfl

theorem Lexes.placeholder (h : Lexes (holes + 1) rest ts) :
    Lexes holes ('?' :: rest) (.placeholder holes :: ts) :=
  Lexes.token (w := []) rfl rfl h

theorem Lexes.sign (hc : c ∈ ['(', ')', ',', '.']) (h : Lexes holes rest ts) :
    Lexes holes (c :: rest) (.sign (String.singleton c) :: ts) := by
  simp only [List.mem_cons, List.not_mem_nil, or_false] at hc
  rcases hc with rfl | rfl | rfl | rfl
  all_goals exact Lexes.token (w := []) rfl rfl h

/-! ## Words -/

/-- A word of letters, in front of something that does not lengthen it. -/
theorem Lexes.word {w : List Char} (hblank : Text.isBlankChar c = false)
    (hw : ∀ d ∈ c :: w, isWordChar d = true)
    (hc : c.isDigit = false) (hrest : ∀ d ∈ rest.head?, isWordChar d = false)
    (h : Lexes holes rest ts) :
    Lexes holes (c :: w ++ rest) (.word (String.ofList (c :: w)) :: ts) := by
  -- a letter opens no quoted name, so the longest run of word characters is read
  have hquote : ∀ close, closingQuote? c ≠ some close := by
    intro close hclose
    unfold closingQuote? at hclose
    split at hclose
    · exact absurd (hw _ List.mem_cons_self) (by decide)
    · exact absurd (hw _ List.mem_cons_self) (by decide)
    · exact absurd (hw _ List.mem_cons_self) (by decide)
    · cases hclose
  have htake : (c :: w ++ rest).takeWhile isWordChar = c :: w := by
    rw [List.takeWhile_append_of_pos hw]
    cases rest with
    | nil => simp
    | cons d rest =>
        rw [List.takeWhile_cons_of_neg (by simp [hrest d rfl]), List.append_nil]
  have hread : readToken? holes (c :: w ++ rest) =
      some (.word (String.ofList (c :: w)), (c :: w).length) := by
    rw [List.cons_append] at htake ⊢
    unfold readToken?
    split
    · rename_i hnil
      cases hnil
    · rename_i hmark
      cases hmark
      exact absurd (hw _ List.mem_cons_self) (by decide)
    · rename_i d more _ hcons
      cases hcons
      split
      · rename_i close hclose
        exact absurd hclose (hquote close)
      · simp only [hc, hw c List.mem_cons_self, htake, if_true]
        rfl
  exact h.token hblank hread

/-! ## Quoted names -/

theorem readQuoted_cons_of_ne {quote : Char} (hc : c ≠ quote) (rest : List Char) :
    readQuoted quote (c :: rest) =
      (readQuoted quote rest).map fun r => (c :: r.1, r.2.1 + 1, r.2.2) := by
  rw [readQuoted.eq_def]
  simp [hc]

/-- What is written between quotes is read back with the number of its characters. -/
theorem readQuoted_doubled {quote : Char} (segment : List Char)
    (hrest : rest.head? ≠ some quote) :
    readQuoted quote (Identifier.doubled quote segment ++ quote :: rest) =
      some (segment, (Identifier.doubled quote segment).length + 1, rest) := by
  induction segment with
  | nil =>
      cases rest with
      | nil => simp [Identifier.doubled, readQuoted]
      | cons d rest =>
          have hd : d ≠ quote := by simpa using hrest
          simp [Identifier.doubled, readQuoted, hd]
  | cons d segment ih =>
      by_cases hd : d = quote
      · subst hd
        simp [Identifier.doubled, readQuoted, ih]
      · simp only [Identifier.doubled, hd, if_false, List.cons_append]
        rw [readQuoted_cons_of_ne hd, ih]
        rfl

theorem Lexes.quoted {d : Dialect} (hd : d = .mysql ∨ d = .sqlite) (segment : List Char)
    (hrest : rest.head? ≠ some d.closeQuote) (h : Lexes holes rest ts) :
    Lexes holes (Identifier.quotedSegment d segment ++ rest)
      (.quoted (String.ofList segment) :: ts) := by
  have hopen : d.openQuote = d.closeQuote ∧ closingQuote? d.openQuote = some d.closeQuote ∧
      d.openQuote ≠ '?' ∧ Text.isBlankChar d.openQuote = false := by
    rcases hd with rfl | rfl <;> decide
  obtain ⟨hsame, hclosing, hmark, hblank⟩ := hopen
  have hquoted := readQuoted_doubled segment hrest
  refine h.token hblank ?_
  show readToken? holes (d.openQuote ::
    (Identifier.doubled d.closeQuote segment ++ [d.closeQuote] ++ rest)) = _
  rw [List.append_assoc, List.singleton_append]
  unfold readToken?
  split
  · rename_i hnil
    cases hnil
  · rename_i heq
    injection heq with heq
    exact absurd heq hmark
  · rename_i c more _ hcons
    cases hcons
    simp only [hclosing, hquoted, Option.map_some]
    simp

/-- The tokens of a name: its segments, with dots between them. -/
def nameTokens (path : List String) : List Token :=
  [.sign "."].intercalate (path.map fun s => [.quoted s])

theorem Lexes.name {d : Dialect} (hd : d = .mysql ∨ d = .sqlite) {segments : List (List Char)}
    (hne : segments ≠ []) (hrest : rest.head? ≠ some d.closeQuote) (h : Lexes holes rest ts) :
    Lexes holes (Identifier.quotedSegments d segments ++ rest)
      (nameTokens (segments.map String.ofList) ++ ts) := by
  induction segments with
  | nil => exact absurd rfl hne
  | cons s segments ih =>
      cases segments with
      | nil => simpa [Identifier.quotedSegments, nameTokens] using h.quoted hd s hrest
      | cons t segments =>
          have hdot : '.' ≠ d.closeQuote := by rcases hd with rfl | rfl <;> decide
          have htail := (ih (List.cons_ne_nil t segments)).sign (c := '.') (by decide)
          have hall := htail.quoted hd s (by simpa using hdot)
          simp only [Identifier.quotedSegments, nameTokens, List.map_cons] at hall ⊢
          rw [List.intercalate_cons_cons, List.intercalate_cons_cons, List.append_assoc,
            List.append_assoc]
          exact hall

/-! ## Lists -/

/-- The tokens of items with so many placeholders each, separated by commas. -/
def separated {α : Type} (tokens : Nat → α → List Token) (width : Nat) :
    Nat → List α → List Token
  | _, [] => []
  | holes, [x] => tokens holes x
  | holes, x :: y :: xs =>
      tokens holes x ++ .sign "," :: separated tokens width (holes + width) (y :: xs)

theorem Lexes.separated {α : Type} {d : Dialect} (hd : d = .mysql ∨ d = .sqlite)
    {chars : α → List Char} {tokens : Nat → α → List Token} {width : Nat} {xs : List α}
    (hitem : ∀ x ∈ xs, ∀ holes rest ts, rest.head? ≠ some d.closeQuote →
      Lexes (holes + width) rest ts → Lexes holes (chars x ++ rest) (tokens holes x ++ ts))
    (hrest : rest.head? ≠ some d.closeQuote) (h : Lexes (holes + xs.length * width) rest ts) :
    Lexes holes ([',', ' '].intercalate (xs.map chars) ++ rest)
      (separated tokens width holes xs ++ ts) := by
  induction xs generalizing holes with
  | nil => simpa [Store.separated] using h
  | cons x xs ih =>
      cases xs with
      | nil =>
          have hlast : Lexes (holes + width) rest ts := by simpa using h
          simpa [Store.separated] using hitem x List.mem_cons_self holes rest ts hrest hlast
      | cons y xs =>
          have hcomma : ',' ≠ d.closeQuote := by rcases hd with rfl | rfl <;> decide
          have hholes : holes + width + (y :: xs).length * width =
              holes + (x :: y :: xs).length * width := by
            rw [List.length_cons (a := x), Nat.succ_mul]
            omega
          rw [← hholes] at h
          have htail := ih (fun z hz => hitem z (List.mem_cons_of_mem x hz)) h
          have hall := hitem x List.mem_cons_self holes _ _ (by simpa using hcomma)
            (htail.space.sign (c := ',') (by decide))
          rw [List.map_cons, List.map_cons] at *
          rw [List.intercalate_cons_cons, List.append_assoc, List.append_assoc, Store.separated,
            List.append_assoc]
          exact hall

/-! ## Inserts -/

/-- The segments of a name as texts. -/
def namePath (name : String) : List String := (Name.segments name).map String.ofList

theorem namePath_ne_nil (name : String) : namePath name ≠ [] := fun h =>
  Name.segments_ne_nil name (List.map_eq_nil_iff.mp h)

def markTokens (holes : Nat) (_ : Unit) : List Token := [.placeholder holes]

def groupTokens (width holes : Nat) (_ : Unit) : List Token :=
  .sign "(" :: (separated markTokens 1 holes (List.replicate width ()) ++ [.sign ")"])

def columnTokens (_ : Nat) (column : String) : List Token := nameTokens (namePath column)

/-- The tokens that ask for a column of the inserted rows. -/
def askTokens : Option String → List Token
  | some column => .word "RETURNING" :: nameTokens (namePath column)
  | none => []

/-- The tokens of an insert of so many rows. -/
def insertTokens (table : String) (columns : List String) (rows : Nat) (asked : Option String) :
    List Token :=
  .word "INSERT" :: .word "INTO" :: (nameTokens (namePath table) ++
    .sign "(" :: (separated columnTokens 0 0 columns ++ .sign ")" :: .word "VALUES" ::
      (separated (groupTokens columns.length) columns.length 0 (List.replicate rows ()) ++
        askTokens asked)))

/-- The characters of a group of so many placeholders. -/
def groupChars (width : Nat) : List Char :=
  '(' :: ([',', ' '].intercalate ((List.replicate width ()).map fun _ => ['?']) ++ [')'])

theorem chars_insertRows (width rows : Nat) :
    (insertRows width rows).flatMap Piece.chars =
      [',', ' '].intercalate ((List.replicate rows ()).map fun _ => groupChars width) := by
  have hmarks : (Piece.placeholders width).flatMap Piece.chars =
      [',', ' '].intercalate ((List.replicate width ()).map fun _ => ['?']) := by
    rw [Piece.placeholders, Piece.commaSeparated, flatMap_intercalate, List.map_replicate,
      List.map_replicate]
    rfl
  have hgroup : (Piece.parenthesised (Piece.placeholders width)).flatMap Piece.chars =
      groupChars width := by
    rw [Piece.parenthesised, List.cons_append, List.flatMap_cons, List.flatMap_append, hmarks]
    rfl
  rw [insertRows, Piece.commaSeparated, flatMap_intercalate, List.map_replicate, List.map_replicate,
    hgroup]
  rfl

theorem Lexes.group {d : Dialect} (hd : d = .mysql ∨ d = .sqlite) {holes width : Nat}
    {rest : List Char} (h : Lexes (holes + width) rest ts) :
    Lexes holes (groupChars width ++ rest) (groupTokens width holes () ++ ts) := by
  have hparen : ')' ≠ d.closeQuote := by rcases hd with rfl | rfl <;> decide
  have hmarks : Lexes holes
      ([',', ' '].intercalate ((List.replicate width ()).map fun _ => ['?']) ++ ')' :: rest)
      (Store.separated markTokens 1 holes (List.replicate width ()) ++ .sign ")" :: ts) := by
    refine Lexes.separated hd (fun _ _ holes rest ts _ hrest => hrest.placeholder)
      (by simpa using hparen) ?_
    rw [List.length_replicate, Nat.mul_one]
    exact h.sign (c := ')') (by decide)
  have hall := hmarks.sign (c := '(') (by decide)
  simpa [groupChars, groupTokens] using hall

/-- The column that an insert asks for behind its rows. -/
def asked (o : Options) : Option String :=
  match o.dialect.idStrategy with
  | .returning => o.idColumn
  | _ => none

theorem lexes_keyword {w : List Char} {c : Char} {holes : Nat} {rest : List Char}
    (hblank : Text.isBlankChar c = false) (hdigit : c.isDigit = false)
    (hw : (c :: w).all isWordChar = true) (h : Lexes holes rest ts) :
    Lexes holes (c :: w ++ ' ' :: rest) (.word (String.ofList (c :: w)) :: ts) :=
  Lexes.word hblank (List.all_eq_true.mp hw) hdigit (by simp [isWordChar]) h.space

theorem lexes_returningClause {o : Options} (hd : o.dialect = .mysql ∨ o.dialect = .sqlite)
    (holes : Nat) : Lexes holes (o.returningClause.flatMap Piece.chars) (askTokens (asked o)) := by
  rcases hd with hd | hd
  · simpa [Options.returningClause, asked, hd, Dialect.idStrategy, askTokens] using lexes_nil holes
  · cases hid : o.idColumn with
    | none =>
        simpa [Options.returningClause, asked, hd, hid, Dialect.idStrategy, askTokens] using
          lexes_nil holes
    | some column =>
        have hname := (lexes_nil holes).name (Or.inr hd) (Name.segments_ne_nil column) (by simp)
        have hall := (lexes_keyword (c := 'R') (w := "ETURNING".toList) rfl rfl (by decide)
          hname).space
        have hchars : o.returningClause.flatMap Piece.chars = ' ' :: ('R' :: "ETURNING".toList ++
            ' ' :: (Identifier.quotedSegments o.dialect (Name.segments column) ++ [])) := by
          have hstrategy : o.dialect.idStrategy = .returning := by rw [hd]; rfl
          simp only [Options.returningClause, hstrategy, hid]
          rfl
        have hasked : asked o = some column := by rw [asked, hd]; exact hid
        rw [hchars, hasked]
        simpa [askTokens, namePath] using hall

/-- The quoted columns of an insert. -/
def columnChars (d : Dialect) (columns : List String) : List Char :=
  [',', ' '].intercalate
    (columns.map fun column => Identifier.quotedSegments d (Name.segments column))

theorem chars_insertPieces {o : Options} (hd : o.dialect = .mysql ∨ o.dialect = .sqlite)
    (columns : List String) (rows : Nat) :
    (o.insertPieces columns rows).flatMap Piece.chars =
      "INSERT".toList ++ ' ' :: ("INTO".toList ++ ' ' ::
        (Identifier.quotedSegments o.dialect (Name.segments o.table) ++ ' ' :: '(' ::
          (columnChars o.dialect columns ++ ')' :: ' ' :: ("VALUES".toList ++ ' ' ::
            ([',', ' '].intercalate
              ((List.replicate rows ()).map fun _ => groupChars columns.length) ++
                o.returningClause.flatMap Piece.chars))))) := by
  have houtput : o.outputClause = [] := by
    rcases hd with hd | hd <;> simp [Options.outputClause, hd, Dialect.idStrategy]
  have hcolumns : (Piece.commaSeparated
      (columns.map fun c => [.name (.ofText o.dialect c)])).flatMap Piece.chars =
        columnChars o.dialect columns := by
    rw [Piece.commaSeparated, flatMap_intercalate, List.map_map]
    simp only [columnChars, Function.comp_def, List.flatMap_singleton]
    rfl
  have htarget : (o.insertTarget columns).flatMap Piece.chars =
      Identifier.quotedSegments o.dialect (Name.segments o.table) ++ ' ' :: '(' ::
        (columnChars o.dialect columns ++ [')']) := by
    rw [Options.insertTarget, Piece.parenthesised, List.cons_append, List.flatMap_cons,
      List.flatMap_cons, List.flatMap_cons, List.flatMap_append, hcolumns]
    rfl
  rw [Options.insertPieces, houtput, List.append_nil, List.flatMap_append, List.flatMap_append,
    List.flatMap_append, List.flatMap_append, chars_insertRows, htarget]
  simp [Piece.chars, Word.chars, Word.text]

theorem Lexes.columns {d : Dialect} (hd : d = .mysql ∨ d = .sqlite) (columns : List String)
    {holes : Nat} {rest : List Char} (hrest : rest.head? ≠ some d.closeQuote)
    (h : Lexes holes rest ts) :
    Lexes holes (columnChars d columns ++ rest)
      (Store.separated columnTokens 0 holes columns ++ ts) := by
  refine Lexes.separated hd (fun column _ holes rest ts hrest h => ?_) hrest h
  exact h.name hd (Name.segments_ne_nil column) hrest

theorem lexes_insertPieces {o : Options} (hd : o.dialect = .mysql ∨ o.dialect = .sqlite)
    (columns : List String) (rows : Nat) :
    Lexes 0 ((o.insertPieces columns rows).flatMap Piece.chars)
      (insertTokens o.table columns rows (asked o)) := by
  have hspace : ' ' ≠ o.dialect.closeQuote := by rcases hd with hd | hd <;> rw [hd] <;> decide
  have hparen : ')' ≠ o.dialect.closeQuote := by rcases hd with hd | hd <;> rw [hd] <;> decide
  have hback := lexes_returningClause hd (0 + (List.replicate rows ()).length * columns.length)
  have hbackHead : (o.returningClause.flatMap Piece.chars).head? ≠ some o.dialect.closeQuote := by
    unfold Options.returningClause
    split
    · simpa [Piece.chars, Word.chars, Word.text] using hspace
    · simp
  have hrows := Lexes.separated hd (fun _ _ holes rest ts _ h => h.group hd) hbackHead hback
  have hvalues := (lexes_keyword (c := 'V') (w := "ALUES".toList) rfl rfl (by decide) hrows).space
  have hcolumns := (hvalues.sign (c := ')') (by decide)).columns hd columns (by simpa using hparen)
  have htable := (hcolumns.sign (c := '(') (by decide)).space.name hd
    (Name.segments_ne_nil o.table) (by simpa using hspace)
  have hinto := lexes_keyword (c := 'I') (w := "NTO".toList) rfl rfl (by decide) htable
  have hinsert := lexes_keyword (c := 'I') (w := "NSERT".toList) rfl rfl (by decide) hinto
  rw [chars_insertPieces hd]
  exact hinsert

end BoundSql.Store
