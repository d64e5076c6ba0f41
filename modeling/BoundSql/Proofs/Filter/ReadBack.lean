import BoundSql.Proofs.Query.Clauses

/-!
# Reading restrictions back

A restriction is read from its text and its parameters alone.  The text is scanned and
cut at its conjunctions, and each part is read as a test of one column that takes as
many of the parameters as it has placeholders.  What is read is exactly the list of
tests of the filter that was built, so neither a separator inside a column name nor a
list that was expanded can shift a value to another operator.

Reading needs the dialect, but neither the whitelist nor the filter.
-/

namespace BoundSql

/-! ## Texts of tests -/

namespace Test

/-- The placeholders of a list with its closing parenthesis. -/
def itemsText : Nat → List Char
  | 0 => [')']
  | 1 => ['?', ')']
  | n + 2 => '?' :: ',' :: ' ' :: itemsText (n + 1)

/-- The text after the column of a test for membership. -/
def oneOfText (n : Nat) : List Char := ' ' :: 'I' :: 'N' :: '(' :: itemsText n

/-- The text after the column of a test for absence. -/
def noneOfText (n : Nat) : List Char :=
  ' ' :: 'N' :: 'O' :: 'T' :: ' ' :: 'I' :: 'N' :: '(' :: itemsText n

/-- The text after the column of a null check. -/
def isNullText : List Char := [' ', 'I', 'S', ' ', 'N', 'U', 'L', 'L']

/-- The text after the column of a check for presence. -/
def isNotNullText : List Char := [' ', 'I', 'S', ' ', 'N', 'O', 'T', ' ', 'N', 'U', 'L', 'L']

/-- The text after the column of a comparison. -/
def compareText (op : Operator) : List Char := ' ' :: op.word.chars ++ [' ', '?']

/-- The text of a test after the column. -/
def text : Test → List Char
  | .isNull => isNullText
  | .isNotNull => isNotNullText
  | .compare op _ => compareText op
  | .oneOf vs => oneOfText vs.length
  | .noneOf vs => noneOfText vs.length

end Test

namespace Restriction

open Lexeme (plainText plainText_injective)

/-! ## Readers -/

/-- The lexemes between two conjuncts. -/
def separator : List Lexeme := plainText [' ', 'A', 'N', 'D', ' ']

/-- Cut lexemes at their conjunctions. -/
def conjuncts : List Lexeme → List (List Lexeme)
  -- outside quotes the letter A occurs in the conjunction only
  | .plain ' ' :: .plain 'A' :: .plain 'N' :: .plain 'D' :: .plain ' ' :: rest =>
      [] :: conjuncts rest
  | l :: rest => (conjuncts rest).modifyHead (l :: ·)
  | [] => [[]]

/-- Read a quoted name as a whole. -/
def readName : List Lexeme → Option (List Char × List Lexeme)
  | .quoted s :: .plain c :: rest =>
      if c = '.' then (readName rest).map fun r => (s ++ '.' :: r.1, r.2)
      else some (s, .plain c :: rest)
  | .quoted s :: rest => some (s, rest)
  | _ => none

/-- The operators that have a symbol. -/
def comparisons : List Operator := [.eq, .ne, .lt, .le, .gt, .ge, .lk, .nl]

/-- Read a comparison, which takes one value. -/
def readComparison (ls : List Lexeme) : List Value → Option (Test × List Value)
  | [] => none
  | v :: vs =>
      (comparisons.find? fun op => ls = plainText (Test.compareText op)).map fun op =>
        (.compare op v, vs)

/-- Read what follows a column, with the values it takes. -/
def readTest (ls : List Lexeme) (vs : List Value) : Option (Test × List Value) :=
  -- the placeholders tell how long the list is, if the test turns out to be one
  let n := ls.count (.plain '?')
  if ls = plainText Test.isNullText then some (.isNull, vs)
  else if ls = plainText Test.isNotNullText then some (.isNotNull, vs)
  else if ls = plainText (Test.oneOfText n) then some (.oneOf (vs.take n), vs.drop n)
  else if ls = plainText (Test.noneOfText n) then some (.noneOf (vs.take n), vs.drop n)
  else readComparison ls vs

/-- Read tests from their conjuncts, until all values are taken. -/
def readTests : List (List Lexeme) → List Value → Option (List (String × Test))
  | [], [] => some []
  | [], _ :: _ => none
  | part :: parts, vs =>
      match readName part with
      | none => none
      | some (name, ls) =>
          match readTest ls vs with
          | none => none
          | some (t, vs) => (readTests parts vs).map ((String.ofList name, t) :: ·)

/-- Read a restriction from its text and its parameters. -/
def read (d : Dialect) (sql : String) (params : List Value) : Option (List (String × Test)) :=
  match Lexeme.scan d sql.toList with
  | some [] => readTests [] params
  | some (.plain 'W' :: .plain 'H' :: .plain 'E' :: .plain 'R' :: .plain 'E' :: .plain ' ' :: ls) =>
      readTests (conjuncts ls) params
  | _ => none

/-! ## Conjuncts -/

theorem conjuncts_cons {l : Lexeme} {rest : List Lexeme}
    (h : rest.head? ≠ some (.plain 'A')) :
    conjuncts (l :: rest) = (conjuncts rest).modifyHead (l :: ·) := by
  rw [conjuncts]
  rintro rest' - rfl
  exact h rfl

theorem conjuncts_append {part rest : List Lexeme} (hpart : .plain 'A' ∉ part)
    (hrest : rest.head? ≠ some (.plain 'A')) :
    conjuncts (part ++ rest) = (conjuncts rest).modifyHead (part ++ ·) := by
  induction part with
  | nil =>
      cases h : conjuncts rest <;> simp [h]
  | cons l part ih =>
      have htail : .plain 'A' ∉ part := fun h => hpart (List.mem_cons_of_mem l h)
      have hhead : (part ++ rest).head? ≠ some (.plain 'A') := by
        cases part with
        | nil => exact hrest
        | cons m part =>
            intro h
            cases h
            exact htail List.mem_cons_self
      rw [List.cons_append, conjuncts_cons hhead, ih htail]
      cases conjuncts rest <;> rfl

/-- No part holds a conjunction of its own, because names are quoted. -/
theorem conjuncts_intercalate {parts : List (List Lexeme)} (hne : parts ≠ [])
    (hparts : ∀ part ∈ parts, .plain 'A' ∉ part) :
    conjuncts (separator.intercalate parts) = parts := by
  induction parts with
  | nil => exact absurd rfl hne
  | cons part parts ih =>
      have hpart := hparts part List.mem_cons_self
      cases parts with
      | nil =>
          have hend : ([] : List Lexeme).head? ≠ some (.plain 'A') := by simp
          simpa [conjuncts] using conjuncts_append hpart hend
      | cons next parts =>
          have hrest := ih (List.cons_ne_nil next parts)
            fun p hp => hparts p (List.mem_cons_of_mem part hp)
          have hspace : (separator ++ separator.intercalate (next :: parts)).head? ≠
              some (.plain 'A') := by
            simp [separator, plainText]
          -- the part has no conjunction inside, so the first cut falls right behind it
          rw [List.intercalate_cons_cons, List.append_assoc, conjuncts_append hpart hspace]
          show List.modifyHead (part ++ ·)
            ([] :: conjuncts (separator.intercalate (next :: parts))) = _
          rw [hrest]
          simp

/-! ## Tests -/

/-- The lexemes of a test with its column. -/
def lexemes (t : String × Test) : List Lexeme :=
  Lexeme.ofSegments (Name.segments t.1) ++ plainText t.2.text

theorem readName_ofSegments {segments : List (List Char)} (hne : segments ≠ [])
    {rest : List Lexeme} (hrest : ∃ ls, rest = .plain ' ' :: ls) :
    readName (Lexeme.ofSegments segments ++ rest) = some (['.'].intercalate segments, rest) := by
  induction segments with
  | nil => exact absurd rfl hne
  | cons s segments ih =>
      cases segments with
      | nil =>
          obtain ⟨ls, rfl⟩ := hrest
          simp [Lexeme.ofSegments, readName]
      | cons t segments =>
          have htail := ih (List.cons_ne_nil t segments)
          simp only [Lexeme.ofSegments, List.map_cons] at htail ⊢
          rw [List.intercalate_cons_cons, List.intercalate_cons_cons, List.append_assoc,
            List.append_assoc, List.singleton_append, List.singleton_append, readName, if_pos rfl,
            htail]
          simp

theorem count_itemsText (n : Nat) : (plainText (Test.itemsText n)).count (.plain '?') = n := by
  induction n using Test.itemsText.induct with
  | case1 => rfl
  | case2 => rfl
  | case3 n ih => simpa [plainText, Test.itemsText] using ih

theorem readTest_text {t : Test} (ht : t.Admissible) (vs : List Value) :
    readTest (plainText t.text) (t.values ++ vs) = some (t, vs) := by
  cases t with
  | isNull => rfl
  | isNotNull => rfl
  | compare op v =>
      cases op <;> first | rfl | exact absurd rfl ht
  | oneOf items =>
      have hcount :
          (plainText (Test.oneOfText items.length)).count (.plain '?') = items.length := by
        simpa [Test.oneOfText, plainText] using count_itemsText items.length
      have hnull : plainText (Test.oneOfText items.length) ≠ plainText Test.isNullText :=
        mt plainText_injective (by simp [Test.oneOfText, Test.isNullText])
      have hnotNull : plainText (Test.oneOfText items.length) ≠ plainText Test.isNotNullText :=
        mt plainText_injective (by simp [Test.oneOfText, Test.isNotNullText])
      show readTest (plainText (Test.oneOfText items.length)) (items ++ vs) = _
      rw [readTest, hcount, if_neg hnull, if_neg hnotNull, if_pos rfl, List.take_left,
        List.drop_left]
  | noneOf items =>
      have hcount : (plainText (Test.noneOfText items.length)).count (.plain '?') =
          items.length := by
        simpa [Test.noneOfText, plainText] using count_itemsText items.length
      have hnull : plainText (Test.noneOfText items.length) ≠ plainText Test.isNullText :=
        mt plainText_injective (by simp [Test.noneOfText, Test.isNullText])
      have hnotNull : plainText (Test.noneOfText items.length) ≠ plainText Test.isNotNullText :=
        mt plainText_injective (by simp [Test.noneOfText, Test.isNotNullText])
      have hone : plainText (Test.noneOfText items.length) ≠
          plainText (Test.oneOfText items.length) :=
        mt plainText_injective (by simp [Test.noneOfText, Test.oneOfText])
      show readTest (plainText (Test.noneOfText items.length)) (items ++ vs) = _
      rw [readTest, hcount, if_neg hnull, if_neg hnotNull, if_neg hone, if_pos rfl,
        List.take_left, List.drop_left]

theorem readTests_lexemes {ts : List (String × Test)} (hts : ∀ t ∈ ts, t.2.Admissible) :
    readTests (ts.map lexemes) (ts.flatMap fun t => t.2.values) = some ts := by
  induction ts with
  | nil => rfl
  | cons t ts ih =>
      obtain ⟨column, test⟩ := t
      have hspace : ∃ ls, plainText test.text = .plain ' ' :: ls := by
        cases test <;> exact ⟨_, rfl⟩
      have hname := readName_ofSegments (Name.segments_ne_nil column) hspace
      have htest := readTest_text (hts _ List.mem_cons_self) (ts.flatMap fun t => t.2.values)
      have hrest := ih fun t ht => hts t (List.mem_cons_of_mem _ ht)
      rw [Name.intercalate_segments] at hname
      simp only [List.map_cons, List.flatMap_cons, readTests, lexemes, hname, htest]
      simp [hrest]

/-! ## The text of a restriction -/

theorem lexemes_placeholders (n : Nat) :
    (Piece.placeholders n).flatMap Piece.lexemes ++ [.plain ')'] =
      plainText (Test.itemsText n) := by
  induction n using Test.itemsText.induct with
  | case1 => rfl
  | case2 => rfl
  | case3 n ih =>
      simp only [Piece.placeholders, Piece.commaSeparated, List.replicate_succ,
        List.intercalate_cons_cons, List.flatMap_append, List.append_assoc] at ih ⊢
      rw [ih]
      rfl

theorem lexemes_predicateOf (d : Dialect) (t : String × Test) :
    (Filter.predicateOf d t).pieces.flatMap Piece.lexemes = lexemes t := by
  obtain ⟨column, test⟩ := t
  have hname : Piece.lexemes (.name (.ofText d column)) =
      Lexeme.ofSegments (Name.segments column) := Name.lexemes_tokens d column
  have hitems (n : Nat) : (Piece.parenthesised (Piece.placeholders n)).flatMap Piece.lexemes =
      .plain '(' :: plainText (Test.itemsText n) := by
    rw [← lexemes_placeholders]
    simp [Piece.parenthesised, Piece.lexemes, Piece.tokens, Token.lexemes, Word.chars, Word.text]
  cases test with
  | isNull =>
      simp only [Filter.predicateOf, Test.on, Predicate.pieces, List.flatMap_cons, hname]
      rfl
  | isNotNull =>
      simp only [Filter.predicateOf, Test.on, Predicate.pieces, List.flatMap_cons, hname]
      rfl
  | compare op v =>
      simp only [Filter.predicateOf, Test.on, Predicate.pieces, List.flatMap_cons, hname]
      cases op <;> rfl
  | oneOf vs =>
      simp only [Filter.predicateOf, Test.on, Predicate.pieces, List.flatMap_cons, hname, hitems]
      rfl
  | noneOf vs =>
      simp only [Filter.predicateOf, Test.on, Predicate.pieces, List.flatMap_cons, hname, hitems]
      rfl

theorem plain_mem_ofSegments {c : Char} {segments : List (List Char)}
    (h : .plain c ∈ Lexeme.ofSegments segments) : c = '.' := by
  rcases mem_of_mem_intercalate h with h | ⟨part, hpart, h⟩
  · simpa using h
  · obtain ⟨s, -, rfl⟩ := List.mem_map.mp hpart
    simp at h

/-- No operator has the first letter of the conjunction. -/
theorem firstLetter_notMem_text (t : Test) : 'A' ∉ t.text := by
  have hitems (n : Nat) : 'A' ∉ Test.itemsText n := by
    induction n using Test.itemsText.induct with
    | case1 => decide
    | case2 => decide
    | case3 n ih => simpa [Test.itemsText] using ih
  cases t with
  | isNull => decide
  | isNotNull => decide
  | compare op v =>
      show 'A' ∉ Test.compareText op
      cases op <;> decide
  | oneOf vs => simpa [Test.text, Test.oneOfText] using hitems vs.length
  | noneOf vs => simpa [Test.text, Test.noneOfText] using hitems vs.length

theorem firstLetter_notMem_lexemes (t : String × Test) : .plain 'A' ∉ lexemes t := by
  intro h
  rcases List.mem_append.mp h with h | h
  · exact absurd (plain_mem_ofSegments h) (by decide)
  · exact firstLetter_notMem_text t.2 (by simpa [plainText] using h)

/-- What stands before the first test. -/
def opening : List Lexeme := plainText ['W', 'H', 'E', 'R', 'E', ' ']

theorem scan_restriction (d : Dialect) (ts : List (String × Test)) :
    Lexeme.scan d (Predicate.restriction (ts.map (Filter.predicateOf d))).sql.toList =
      some (opening ++ separator.intercalate (ts.map lexemes)) := by
  have htidy : Piece.Tidy d (fun _ => True) (fun _ => False)
      (Predicate.restriction (ts.map (Filter.predicateOf d))).pieces := by
    refine .word .where (.word .space (.conjoined ?_))
    intro part hpart
    rw [List.map_map] at hpart
    obtain ⟨t, -, rfl⟩ := List.mem_map.mp hpart
    exact Filter.tidy_predicateOf trivial
  have hparts : (ts.map fun t => (Filter.predicateOf d t).pieces.flatMap Piece.lexemes) =
      ts.map lexemes := List.map_congr_left fun t _ => lexemes_predicateOf d t
  rw [Fragment.toList_sql, htidy.scan_flatMap_chars]
  simp only [Predicate.restriction, Piece.conjoined, List.flatMap_cons, flatMap_intercalate,
    List.map_map, Function.comp_def, hparts]
  rfl

theorem read_restriction {d : Dialect} {ts : List (String × Test)} (hne : ts ≠ [])
    (hts : ∀ t ∈ ts, t.2.Admissible) :
    read d (Predicate.restriction (ts.map (Filter.predicateOf d))).sql
      (Predicate.restriction (ts.map (Filter.predicateOf d))).params = some ts := by
  have hparts : conjuncts (separator.intercalate (ts.map lexemes)) = ts.map lexemes := by
    apply conjuncts_intercalate (by simpa using hne)
    intro part hpart
    obtain ⟨t, -, rfl⟩ := List.mem_map.mp hpart
    exact firstLetter_notMem_lexemes t
  rw [read, scan_restriction, Predicate.params_restriction]
  show readTests (conjuncts (separator.intercalate (ts.map lexemes))) _ = _
  rw [hparts, readTests_lexemes hts]

/-- A test has as many placeholders as values. -/
theorem count_lexemes (t : String × Test) :
    (lexemes t).count (.plain '?') = t.2.values.length := by
  have htidy : Piece.Tidy .sqlite (fun _ => True) (fun _ => False)
      (Filter.predicateOf .sqlite t).pieces := Filter.tidy_predicateOf trivial
  rw [← lexemes_predicateOf .sqlite, htidy.count_questionMark, Filter.holes_predicateOf]

theorem count_separated (before : List (String × Test)) :
    ((before.map lexemes).flatMap (· ++ separator)).count (.plain '?') =
      (before.flatMap fun t => t.2.values).length := by
  induction before with
  | nil => rfl
  | cons t before ih =>
      have hseparator : separator.count (.plain '?') = 0 := by decide
      simp only [List.map_cons, List.flatMap_cons, List.count_append, List.length_append,
        count_lexemes, hseparator, ih]
      omega

/-- The placeholders of a test bind its own values, because the tests before it have as many
placeholders as values. -/
theorem scan_restriction_at (d : Dialect) (before : List (String × Test)) (t : String × Test)
    (after : List (String × Test)) :
    ∃ ls ns, Lexeme.scan d
        (Predicate.restriction ((before ++ t :: after).map (Filter.predicateOf d))).sql.toList =
          some (ls ++ (lexemes t ++ ns)) ∧
      ls.count (.plain '?') = (before.flatMap fun u => u.2.values).length := by
  refine ⟨opening ++ (before.map lexemes).flatMap (· ++ separator),
    (after.map lexemes).flatMap (separator ++ ·), ?_, ?_⟩
  · rw [scan_restriction, List.map_append, List.map_cons, intercalate_append_cons]
    simp
  · have hopening : opening.count (.plain '?') = 0 := by decide
    rw [List.count_append, hopening, count_separated, Nat.zero_add]

/-! ## Built restrictions -/

theorem read_of_build {o : Options} {f : Filter} {w : Fragment}
    (h : (o.buildWhere f).result = .ok w) : read o.dialect w.sql w.params = some f.tests := by
  cases hf : f.isEmpty with
  | true =>
      have hentries : f.entries = [] := by simpa [Filter.isEmpty] using hf
      simp only [Options.buildWhere, hf, if_true] at h
      cases h
      simp [read, readTests, Fragment.empty, Fragment.sql, Fragment.chars, Filter.tests, hentries]
  | false =>
      obtain ⟨-, rfl, hne, hadmissible⟩ := Options.buildWhere_eq_ok hf h
      exact read_restriction hne hadmissible

/-- A built restriction is read back as the tests of its filter.  So filters with the same text
and the same parameters have the same tests, and every test binds its own values. -/
theorem read_buildWhere {o : Options} {f : Filter} {w : Fragment}
    (h : (o.buildWhere f).result = .ok w) :
    read o.dialect w.sql w.params = some f.tests ∧
      (∀ (g : Filter) (v : Fragment), (o.buildWhere g).result = .ok v →
        v.sql = w.sql → v.params = w.params → g.tests = f.tests) ∧
      ∀ before t after, f.tests = before ++ t :: after →
        ∃ ls ns, Lexeme.scan o.dialect w.sql.toList = some (ls ++ (lexemes t ++ ns)) ∧
          ls.count (.plain '?') = (before.flatMap fun u => u.2.values).length ∧
          (lexemes t).count (.plain '?') = t.2.values.length ∧
          w.params = (before.flatMap fun u => u.2.values) ++
            (t.2.values ++ after.flatMap fun u => u.2.values) := by
  refine ⟨read_of_build h, ?_, ?_⟩
  · intro g v hg hsql hparams
    have hread := read_of_build hg
    rw [hsql, hparams, read_of_build h] at hread
    exact (Option.some.inj hread).symm
  · intro before t after htests
    rcases Options.buildWhere_cases h with ⟨hf, -⟩ | ⟨-, -, rfl⟩
    · have hentries : f.entries = [] := by simpa [Filter.isEmpty] using hf
      simp [Filter.tests, hentries] at htests
    · rw [htests]
      obtain ⟨ls, ns, hscan, hcount⟩ := scan_restriction_at o.dialect before t after
      refine ⟨ls, ns, hscan, hcount, count_lexemes t, ?_⟩
      rw [Predicate.params_restriction, List.flatMap_append, List.flatMap_cons]

/-- Options with a column whose name looks like a conjunction of comparisons. -/
def conjunctionOptions : Options := .defaults .postgres "t" ["a\" = ? AND \"b", "c"]

/-- A filter with every kind of test. -/
def conjunctionFilter : Filter :=
  ⟨[("a\" = ? AND \"b", .list [.integer 1, .integer 2]),
    ("c", .ops [(.ne, .value .null), (.lk, .list [.text "x", .text "y"]),
      (.lt, .value (.integer 3))])]⟩

theorem read_conjunctionFilter :
    ∃ w, (conjunctionOptions.buildWhere conjunctionFilter).result = .ok w ∧
      w.sql = "WHERE \"a\"\" = ? AND \"\"b\" IN(?, ?) AND \"c\" IS NOT NULL AND " ++
        "\"c\" LIKE ? AND \"c\" LIKE ? AND \"c\" < ?" ∧
      read .postgres w.sql w.params =
        some [("a\" = ? AND \"b", .oneOf [.integer 1, .integer 2]), ("c", .isNotNull),
          ("c", .compare .lk (.text "x")), ("c", .compare .lk (.text "y")),
          ("c", .compare .lt (.integer 3))] := by
  refine ⟨_, rfl, by decide +kernel, ?_⟩
  exact (read_buildWhere (o := conjunctionOptions) (f := conjunctionFilter) rfl).1

end Restriction

end BoundSql
