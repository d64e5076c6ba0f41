import BoundSql.Proofs.Sql.Lexer
import BoundSql.Proofs.Text.Join

/-!
# The vocabulary of statements

A statement is tidy when every name in it is quoted for the dialect, comes from the
names it may mention and is followed by a word or by nothing.  The text of a tidy
statement is scanned into words of the vocabulary, numbers, placeholders and the
segments of those names; it never ends inside a segment, and a question mark outside
the segments is always a placeholder.

Tidiness says nothing about statements with trusted texts: such a text may hold anything.
-/

namespace BoundSql

/-! ## Characters of words and numbers -/

namespace Word

theorem openQuote_notMem_chars (d : Dialect) (w : Word) : d.openQuote ∉ w.chars := by
  cases d <;> cases w <;> decide

theorem head?_chars_ne_closeQuote (d : Dialect) (w : Word) (rest : List Char) :
    (Piece.chars (.word w) ++ rest).head? ≠ some d.closeQuote := by
  have hfirst : ∃ c cs, w.chars = c :: cs ∧ c ≠ d.closeQuote := by
    cases d <;> cases w <;> exact ⟨_, _, rfl, by decide⟩
  obtain ⟨c, cs, hchars, hc⟩ := hfirst
  simpa [Piece.chars, hchars] using hc

theorem questionMark_notMem_chars (w : Word) : '?' ∉ w.chars := by
  cases w <;> decide

end Word

theorem notMem_repr_of_not_isDigit {c : Char} (hc : c.isDigit = false) (n : Nat) :
    c ∉ (Nat.repr n).toList := by
  intro hmem
  rw [Nat.toList_repr] at hmem
  have hdigit := Nat.isDigit_of_mem_toDigits (by decide) (by decide) hmem
  rw [hc] at hdigit
  cases hdigit

/-! ## Tokens -/

/-- What statement text consists of. -/
inductive Token where
  | word (w : Word)
  | number (n : Nat)
  | placeholder
  /-- A quoted segment of a name. -/
  | quoted (segment : List Char)
deriving DecidableEq

/-- A token as it is scanned. -/
def Token.lexemes : Token → List Lexeme
  | .word w => w.chars.map .plain
  | .number n => (Nat.repr n).toList.map .plain
  | .placeholder => [.plain '?']
  | .quoted segment => [.quoted segment]

/-- The tokens of a name; a trusted text has none. -/
def Name.tokens : Name → List Token
  | .quoted i => [.word .dot].intercalate (i.segments.map fun s => [.quoted s])
  | .trusted _ => []

/-- The tokens of a piece. -/
def Piece.tokens : Piece → List Token
  | .word w => [.word w]
  | .name n => n.tokens
  | .number n => [.number n]
  | .placeholder => [.placeholder]

/-- A piece as it is scanned. -/
def Piece.lexemes (p : Piece) : List Lexeme := p.tokens.flatMap Token.lexemes

theorem Name.lexemes_tokens (d : Dialect) (name : String) :
    (ofText d name).tokens.flatMap Token.lexemes = Lexeme.ofSegments (segments name) := by
  unfold ofText tokens Lexeme.ofSegments
  rw [flatMap_intercalate, List.map_map]
  rfl

theorem Name.mem_tokens {d : Dialect} {name : String} {t : Token}
    (h : t ∈ (ofText d name).tokens) : t = .word .dot ∨ ∃ s ∈ segments name, t = .quoted s := by
  rcases mem_of_mem_intercalate h with h | ⟨part, hpart, h⟩
  · exact Or.inl (List.mem_singleton.mp h)
  · obtain ⟨s, hs, rfl⟩ := List.mem_map.mp hpart
    exact Or.inr ⟨s, hs, List.mem_singleton.mp h⟩

theorem Name.mem_segments_of_quoted_mem_tokens {d : Dialect} {name : String} {s : List Char}
    (h : .quoted s ∈ (ofText d name).tokens) : s ∈ segments name := by
  rcases mem_tokens h with h | ⟨t, ht, h⟩
  · cases h
  · cases h
    exact ht

theorem Name.number_notMem_tokens {d : Dialect} {name : String} (n : Nat) :
    .number n ∉ (ofText d name).tokens := by
  intro h
  rcases mem_tokens h with h | ⟨t, ht, h⟩ <;> cases h

/-! ## Placeholders of pieces -/

namespace Piece

/-- The number of placeholders among pieces. -/
def holes (ps : List Piece) : Nat := ps.count .placeholder

@[simp] theorem holes_nil : holes [] = 0 := rfl

@[simp] theorem holes_word_cons (w : Word) (ps : List Piece) :
    holes (.word w :: ps) = holes ps := by
  simp [holes]

@[simp] theorem holes_name_cons (n : Name) (ps : List Piece) :
    holes (.name n :: ps) = holes ps := by
  simp [holes]

@[simp] theorem holes_number_cons (n : Nat) (ps : List Piece) :
    holes (.number n :: ps) = holes ps := by
  simp [holes]

@[simp] theorem holes_placeholder_cons (ps : List Piece) :
    holes (.placeholder :: ps) = holes ps + 1 := by
  simp [holes]

@[simp] theorem holes_append (ps qs : List Piece) : holes (ps ++ qs) = holes ps + holes qs :=
  List.count_append

@[simp] theorem holes_spaced (parts : List (List Piece)) :
    holes (spaced parts) = holes parts.flatten :=
  count_intercalate rfl parts

@[simp] theorem holes_commaSeparated (parts : List (List Piece)) :
    holes (commaSeparated parts) = holes parts.flatten :=
  count_intercalate rfl parts

@[simp] theorem holes_conjoined (parts : List (List Piece)) :
    holes (conjoined parts) = holes parts.flatten :=
  count_intercalate rfl parts

theorem holes_flatten_eq_zero {parts : List (List Piece)} (h : ∀ part ∈ parts, holes part = 0) :
    holes parts.flatten = 0 := by
  induction parts with
  | nil => rfl
  | cons part parts ih =>
      rw [List.flatten_cons, holes_append, h part List.mem_cons_self,
        ih fun q hq => h q (List.mem_cons_of_mem part hq)]

theorem holes_quotedNames (d : Dialect) (columns : List String) :
    holes (commaSeparated (columns.map fun c => [.name (.ofText d c)])) = 0 := by
  rw [holes_commaSeparated]
  apply holes_flatten_eq_zero
  intro part hpart
  obtain ⟨c, -, rfl⟩ := List.mem_map.mp hpart
  rfl

@[simp] theorem holes_parenthesised (ps : List Piece) : holes (parenthesised ps) = holes ps := by
  simp [parenthesised]

@[simp] theorem holes_placeholders (n : Nat) : holes (placeholders n) = n := by
  rw [placeholders, holes_commaSeparated, List.flatten_replicate_singleton, holes,
    List.count_replicate_self]

end Piece

/-! ## Tidy statements -/

/-- Pieces in which every name is one of `names`, quoted, with a word or nothing after it,
and every number is one of `numbers`. -/
inductive Piece.Tidy (d : Dialect) (names : String → Prop) (numbers : Nat → Prop) :
    List Piece → Prop where
  | nil : Tidy d names numbers []
  | word {ps : List Piece} (w : Word) (tail : Tidy d names numbers ps) :
      Tidy d names numbers (.word w :: ps)
  | number {ps : List Piece} {n : Nat} (allowed : numbers n) (tail : Tidy d names numbers ps) :
      Tidy d names numbers (.number n :: ps)
  | placeholder {ps : List Piece} (tail : Tidy d names numbers ps) :
      Tidy d names numbers (.placeholder :: ps)
  | lastName {name : String} (allowed : names name) :
      Tidy d names numbers [.name (.ofText d name)]
  | name {ps : List Piece} {name : String} (allowed : names name) (w : Word)
      (tail : Tidy d names numbers ps) :
      Tidy d names numbers (.name (.ofText d name) :: .word w :: ps)

namespace Piece.Tidy

variable {d : Dialect} {names : String → Prop} {numbers : Nat → Prop} {ps qs : List Piece}

theorem append_word (hps : Tidy d names numbers ps) (w : Word) (hqs : Tidy d names numbers qs) :
    Tidy d names numbers (ps ++ .word w :: qs) := by
  induction hps with
  | nil => exact .word w hqs
  | word v _ ih => exact .word v ih
  | number allowed _ ih => exact .number allowed ih
  | placeholder _ ih => exact .placeholder ih
  | lastName allowed => exact .name allowed w hqs
  | name allowed v _ ih => exact .name allowed v ih

/-- Words may be put in front of tidy pieces. -/
theorem words_append (ws : List Word) (hps : Tidy d names numbers ps) :
    Tidy d names numbers (ws.map .word ++ ps) := by
  induction ws with
  | nil => exact hps
  | cons w ws ih => exact .word w ih

/-- Tidy parts may be joined by words, of which there has to be at least one. -/
theorem intercalate (w : Word) (ws : List Word) {parts : List (List Piece)}
    (hparts : ∀ part ∈ parts, Tidy d names numbers part) :
    Tidy d names numbers (((w :: ws).map .word).intercalate parts) := by
  induction parts with
  | nil => exact .nil
  | cons part rest ih =>
      have hpart := hparts part List.mem_cons_self
      have hrest := ih fun q hq => hparts q (List.mem_cons_of_mem part hq)
      cases rest with
      | nil => simpa using hpart
      | cons next rest =>
          rw [List.intercalate_cons_cons, List.append_assoc]
          exact append_word hpart w (words_append ws hrest)

theorem spaced {parts : List (List Piece)} (hparts : ∀ part ∈ parts, Tidy d names numbers part) :
    Tidy d names numbers (Piece.spaced parts) :=
  intercalate .space [] hparts

theorem commaSeparated {parts : List (List Piece)}
    (hparts : ∀ part ∈ parts, Tidy d names numbers part) :
    Tidy d names numbers (Piece.commaSeparated parts) :=
  intercalate .comma [.space] hparts

theorem conjoined {parts : List (List Piece)}
    (hparts : ∀ part ∈ parts, Tidy d names numbers part) :
    Tidy d names numbers (Piece.conjoined parts) :=
  intercalate .space [.and, .space] hparts

theorem parenthesised (hps : Tidy d names numbers ps) :
    Tidy d names numbers (Piece.parenthesised ps) :=
  .word .leftParen (append_word hps .rightParen .nil)

theorem placeholders (n : Nat) : Tidy d names numbers (Piece.placeholders n) := by
  apply commaSeparated
  intro part hpart
  rw [List.eq_of_mem_replicate hpart]
  exact .placeholder .nil

theorem quotedNames {columns : List String} (hnames : ∀ c ∈ columns, names c) :
    Tidy d names numbers
      (Piece.commaSeparated (columns.map fun c => [.name (.ofText d c)])) := by
  apply commaSeparated
  intro part hpart
  obtain ⟨c, hc, rfl⟩ := List.mem_map.mp hpart
  exact .lastName (hnames c hc)

/-! ## Scanning tidy statements -/

theorem scan_word (w : Word) (rest : List Char) :
    Lexeme.scan d (Piece.chars (.word w) ++ rest) =
      (Lexeme.scan d rest).map (Piece.lexemes (.word w) ++ ·) := by
  simpa [Piece.chars, Piece.lexemes, Piece.tokens, Token.lexemes] using
    Lexeme.scan_append_of_notMem (Word.openQuote_notMem_chars d w) rest

theorem scan_name (name : String) {rest : List Char} (hrest : rest.head? ≠ some d.closeQuote) :
    Lexeme.scan d (Piece.chars (.name (.ofText d name)) ++ rest) =
      (Lexeme.scan d rest).map (Piece.lexemes (.name (.ofText d name)) ++ ·) := by
  have hlexemes : Piece.lexemes (.name (.ofText d name)) =
      Lexeme.ofSegments (Name.segments name) := Name.lexemes_tokens d name
  rw [hlexemes]
  exact Lexeme.scan_quotedSegments (Name.segments_ne_nil name) hrest

theorem scan_flatMap_chars (hps : Tidy d names numbers ps) :
    Lexeme.scan d (ps.flatMap Piece.chars) = some (ps.flatMap Piece.lexemes) := by
  induction hps with
  | nil => simp
  | word w _ ih => rw [List.flatMap_cons, List.flatMap_cons, scan_word, ih, Option.map_some]
  | number _ _ ih =>
      rename_i n _ _
      have hdigits : d.openQuote ∉ (Nat.repr n).toList :=
        notMem_repr_of_not_isDigit (by cases d <;> decide) n
      rw [List.flatMap_cons, List.flatMap_cons]
      simp only [Piece.chars, Piece.lexemes, Piece.tokens, List.flatMap_singleton, Token.lexemes,
        Lexeme.scan_append_of_notMem hdigits, ih, Option.map_some]
  | placeholder _ ih =>
      have hmark : '?' ≠ d.openQuote := by cases d <;> decide
      rw [List.flatMap_cons, List.flatMap_cons]
      simp [Piece.chars, Piece.lexemes, Piece.tokens, Token.lexemes,
        Lexeme.scan_cons_of_ne hmark, ih]
  | lastName _ =>
      rename_i last _
      have hend : ([] : List Char).head? ≠ some d.closeQuote := by simp
      simpa using scan_name last hend
  | name _ w _ ih =>
      -- no word starts with a closing quote, so the name ends where its quote stands
      have hnext := Word.head?_chars_ne_closeQuote d w
      simp only [List.flatMap_cons]
      rw [scan_name _ (hnext _), scan_word, ih]
      simp

theorem exists_name_of_quoted_mem (hps : Tidy d names numbers ps) {s : List Char}
    (hs : .quoted s ∈ ps.flatMap Piece.tokens) : ∃ name, names name ∧ s ∈ Name.segments name := by
  induction hps with
  | nil => cases hs
  | word _ _ ih => exact ih (by simpa [Piece.tokens] using hs)
  | number _ _ ih => exact ih (by simpa [Piece.tokens] using hs)
  | placeholder _ ih => exact ih (by simpa [Piece.tokens] using hs)
  | lastName allowed =>
      exact ⟨_, allowed, Name.mem_segments_of_quoted_mem_tokens (by simpa [Piece.tokens] using hs)⟩
  | name allowed _ _ ih =>
      rw [List.flatMap_cons, List.mem_append] at hs
      rcases hs with hs | hs
      · exact ⟨_, allowed, Name.mem_segments_of_quoted_mem_tokens hs⟩
      · exact ih (by simpa [Piece.tokens] using hs)

theorem allowed_of_number_mem (hps : Tidy d names numbers ps) {n : Nat}
    (hn : .number n ∈ ps.flatMap Piece.tokens) : numbers n := by
  induction hps with
  | nil => cases hn
  | word _ _ ih => exact ih (by simpa [Piece.tokens] using hn)
  | number allowed _ ih =>
      rw [List.flatMap_cons, List.mem_append] at hn
      rcases hn with hn | hn
      · have heq := List.mem_singleton.mp hn
        cases heq
        exact allowed
      · exact ih hn
  | placeholder _ ih => exact ih (by simpa [Piece.tokens] using hn)
  | lastName _ => exact absurd (by simpa [Piece.tokens] using hn) (Name.number_notMem_tokens n)
  | name _ _ _ ih =>
      rw [List.flatMap_cons, List.mem_append] at hn
      rcases hn with hn | hn
      · exact absurd hn (Name.number_notMem_tokens n)
      · exact ih (by simpa [Piece.tokens] using hn)

/-- Outside the segments of names, question marks are placeholders. -/
theorem count_questionMark (hps : Tidy d names numbers ps) :
    (ps.flatMap Piece.lexemes).count (.plain '?') = Piece.holes ps := by
  have hword (w : Word) : (Piece.lexemes (.word w)).count (.plain '?') = 0 := by
    rw [List.count_eq_zero]
    simpa [Piece.lexemes, Piece.tokens, Token.lexemes] using Word.questionMark_notMem_chars w
  have hname (name : String) : (Piece.lexemes (.name (.ofText d name))).count (.plain '?') = 0 := by
    rw [List.count_eq_zero]
    intro hmem
    obtain ⟨t, ht, hmem⟩ := List.mem_flatMap.mp hmem
    rcases Name.mem_tokens ht with rfl | ⟨s, -, rfl⟩
    · exact absurd hmem (by decide)
    · simp [Token.lexemes] at hmem
  have hnumber (n : Nat) : (Piece.lexemes (.number n)).count (.plain '?') = 0 := by
    have hdigits : '?' ∉ (Nat.repr n).toList := notMem_repr_of_not_isDigit (by decide) n
    rw [List.count_eq_zero]
    simpa only [Piece.lexemes, Piece.tokens, List.flatMap_singleton, Token.lexemes, List.mem_map,
      Lexeme.plain.injEq, exists_eq_right] using hdigits
  induction hps with
  | nil => rfl
  | word w _ ih => rw [List.flatMap_cons, List.count_append, hword, ih]; simp
  | number _ _ ih => rw [List.flatMap_cons, List.count_append, hnumber, ih]; simp
  | placeholder _ ih =>
      rw [List.flatMap_cons, List.count_append, ih]
      simp [Piece.lexemes, Piece.tokens, Token.lexemes, Nat.add_comm]
  | lastName _ => rw [List.flatMap_singleton, hname]; rfl
  | name _ w _ ih =>
      rw [List.flatMap_cons, List.flatMap_cons, List.count_append, List.count_append, hname,
        hword, ih]
      simp

end Piece.Tidy

namespace Fragment

variable {d : Dialect} {names : String → Prop} {numbers : Nat → Prop} {f : Fragment}

/-- The text is scanned to its end into words of the vocabulary, `numbers`, placeholders and
segments of `names`, and it has one placeholder for each parameter. -/
def LexicallySafe (d : Dialect) (names : String → Prop) (numbers : Nat → Prop)
    (f : Fragment) : Prop :=
  ∃ tokens : List Token,
    Lexeme.scan d f.sql.toList = some (tokens.flatMap Token.lexemes) ∧
      (∀ s, .quoted s ∈ tokens → ∃ name, names name ∧ s ∈ Name.segments name) ∧
      (∀ n, .number n ∈ tokens → numbers n) ∧
      (tokens.flatMap Token.lexemes).count (.plain '?') = f.params.length

@[simp] theorem toList_sql (f : Fragment) : f.sql.toList = f.pieces.flatMap Piece.chars := by
  simp [sql, chars]

theorem flatMap_lexemes (ps : List Piece) :
    (ps.flatMap Piece.tokens).flatMap Token.lexemes = ps.flatMap Piece.lexemes :=
  List.flatMap_assoc

theorem lexicallySafe_of_tidy (hps : Piece.Tidy d names numbers f.pieces)
    (hholes : Piece.holes f.pieces = f.params.length) : f.LexicallySafe d names numbers := by
  refine ⟨f.pieces.flatMap Piece.tokens, ?_, ?_, ?_, ?_⟩
  · rw [toList_sql, flatMap_lexemes]
    exact hps.scan_flatMap_chars
  · intro s hs
    exact hps.exists_name_of_quoted_mem hs
  · intro n hn
    exact hps.allowed_of_number_mem hn
  · rw [flatMap_lexemes, hps.count_questionMark, hholes]

end Fragment

end BoundSql
