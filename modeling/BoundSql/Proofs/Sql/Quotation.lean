import BoundSql.Proofs.Sql.Lexer

/-!
# Quotations read back

A name is quoted segment by segment.  Reading a quotation takes its segments off their quotes,
undoubles the closing quotes inside and joins the segments by dots again, which gives back the
name, whatever quotes, brackets and dots it holds.  So no two names have the same quotation.

The reader starts at the front of a text and needs no help to find the end: it takes the whole
quotation and not one character more, unless the text goes on with a dot or another closing quote.
-/

namespace BoundSql.Identifier

/-- Read a quotation at the start of a text: its segments, and the text behind it.  A dot behind a
segment announces another one. -/
def readQuotation (d : Dialect) : List Char → Option (List (List Char) × List Char)
  | [] => none
  | c :: rest =>
      if c = d.openQuote then
        match _h : readSegment d.closeQuote rest with
        | none => none
        | some (segment, '.' :: after) =>
            (readQuotation d after).map fun r => (segment :: r.1, r.2)
        | some (segment, after) => some ([segment], after)
      else none
termination_by cs => cs.length
decreasing_by
  have := readSegment_length _h
  simp only [List.length_cons] at this ⊢
  omega

/-- The name that a text is the quotation of. -/
def unquote (d : Dialect) (text : String) : Option String :=
  match readQuotation d text.toList with
  | some (segments, []) => some (String.ofList (['.'].intercalate segments))
  | _ => none

variable {d : Dialect}

/-- Behind a segment the reader stops, unless a dot leads it on. -/
theorem readQuotation_segment {segment rest : List Char}
    (hquote : rest.head? ≠ some d.closeQuote) :
    readQuotation d (quotedSegment d segment ++ rest) =
      if rest.head? = some '.' then
        (readQuotation d rest.tail).map fun r => (segment :: r.1, r.2)
      else some ([segment], rest) := by
  have hread := readSegment_doubled d.closeQuote segment hquote
  rw [quotedSegment, List.cons_append, List.cons_append, List.append_assoc, List.singleton_append,
    readQuotation, if_pos rfl]
  split
  · rename_i hnone
    cases hread.symm.trans hnone
  · rename_i hsome
    cases hread.symm.trans hsome
    rfl
  · rename_i hend hsome
    cases hread.symm.trans hsome
    have hdot : rest.head? ≠ some '.' := by
      intro hhead
      obtain ⟨tail, rfl⟩ := List.head?_eq_some_iff.mp hhead
      exact hend tail rfl
    rw [if_neg hdot]

theorem readQuotation_quotedSegments {segments : List (List Char)} (hne : segments ≠ [])
    {rest : List Char} (hquote : rest.head? ≠ some d.closeQuote) (hdot : rest.head? ≠ some '.') :
    readQuotation d (quotedSegments d segments ++ rest) = some (segments, rest) := by
  induction segments with
  | nil => exact absurd rfl hne
  | cons s segments ih =>
      cases segments with
      | nil =>
          have hlast : readQuotation d (quotedSegment d s ++ rest) = some ([s], rest) := by
            rw [readQuotation_segment hquote, if_neg hdot]
          simpa [quotedSegments] using hlast
      | cons t segments =>
          -- a dot is no closing quote, so it does not lengthen the segment before it
          have hclosed (after : List Char) : ('.' :: after).head? ≠ some d.closeQuote := by
            cases d <;> simp [Dialect.closeQuote]
          have htail := ih (List.cons_ne_nil t segments)
          simp only [quotedSegments, List.map_cons] at htail ⊢
          rw [List.intercalate_cons_cons, List.append_assoc, List.append_assoc,
            List.singleton_append, readQuotation_segment (hclosed _), List.head?_cons, if_pos rfl,
            List.tail_cons, htail]
          rfl

theorem unquote_quotation (d : Dialect) (name : String) :
    unquote d (text ⟨d, Name.segments name⟩) = some name := by
  have hread : readQuotation d (quotedSegments d (Name.segments name) ++ []) =
      some (Name.segments name, []) :=
    readQuotation_quotedSegments (Name.segments_ne_nil name) (by simp) (by simp)
  rw [List.append_nil] at hread
  rw [unquote, text, chars, String.toList_ofList, hread]
  simp only [Name.intercalate_segments, String.ofList_toList]

theorem ofString_of_not_escapable {name : String} (h : ¬Name.Escapable name) :
    ofString d name = .error (.invalidIdentifier name) := by
  have hblank : (name.toList.splitOn '.').any Text.isBlankChars = true := by
    simpa [Name.Escapable, Name.segments] using h
  simp only [ofString, hblank, if_true]

theorem escapable_iff {name : String} :
    Name.Escapable name ↔
      ∀ segment ∈ Name.segments name, ∃ c ∈ segment, Text.isBlankChar c = false := by
  simp only [Name.Escapable, Text.isBlankChars_eq_false_iff]

/-- Names that have a visible character in every segment are quoted, and no others.  A quotation is
read back as the name, so it is the quotation of no other name; and it is read to its end and not
beyond, whatever text follows, unless that text goes on with the quotation. -/
theorem quotation_reversible (d : Dialect) (name : String) :
    ((∃ i, ofString d name = .ok i) ↔
      ∀ segment ∈ Name.segments name, ∃ c ∈ segment, Text.isBlankChar c = false) ∧
    (∀ e, ofString d name = .error e ↔ e = .invalidIdentifier name ∧
      ∃ segment ∈ Name.segments name, ∀ c ∈ segment, Text.isBlankChar c = true) ∧
    ∀ i, ofString d name = .ok i →
      unquote d i.text = some name ∧
      (∀ other j, ofString d other = .ok j → j.text = i.text → other = name) ∧
      ∀ rest : String, rest.toList.head? ≠ some d.closeQuote → rest.toList.head? ≠ some '.' →
        readQuotation d (i.text ++ rest).toList = some (Name.segments name, rest.toList) := by
  refine ⟨?_, fun e => ?_, fun i hi => ?_⟩
  · rw [← escapable_iff]
    exact ⟨fun ⟨i, hi⟩ => (ofString_eq_ok_iff.mp hi).1,
      fun h => ⟨_, ofString_eq_ok_iff.mpr ⟨h, rfl⟩⟩⟩
  · have hblank : (∃ segment ∈ Name.segments name, ∀ c ∈ segment, Text.isBlankChar c = true) ↔
        ¬Name.Escapable name := by
      simp [escapable_iff]
    rw [hblank]
    by_cases h : Name.Escapable name
    · rw [ofString_eq_ok_iff.mpr ⟨h, rfl⟩]
      simp [h]
    · rw [ofString_of_not_escapable h]
      simp [h, eq_comm]
  · obtain ⟨hescapable, rfl⟩ := ofString_eq_ok_iff.mp hi
    refine ⟨unquote_quotation d name, fun other j hj htext => ?_, fun rest hquote hdot => ?_⟩
    · obtain ⟨-, rfl⟩ := ofString_eq_ok_iff.mp hj
      have hother := unquote_quotation d other
      rw [htext, unquote_quotation d name] at hother
      exact (Option.some.inj hother).symm
    · rw [String.toList_append, text, String.toList_ofList]
      exact readQuotation_quotedSegments (Name.segments_ne_nil name) hquote hdot

/-- A name with closing brackets at the end of a segment and an opening one at the start of the
next, in front of the rest of a comparison. -/
theorem quotation_reversible_brackets :
    ∃ i, ofString .sqlserver "x]].[y" = .ok i ∧ i.text = "[x]]]]].[[y]" ∧
      unquote .sqlserver i.text = some "x]].[y" ∧
      readQuotation .sqlserver (i.text ++ " = ?").toList =
        some ([['x', ']', ']'], ['[', 'y']], [' ', '=', ' ', '?']) := by
  obtain ⟨-, -, hread⟩ := quotation_reversible .sqlserver "x]].[y"
  obtain ⟨hunquote, -, hrest⟩ := hread _ rfl
  exact ⟨_, rfl, by decide, hunquote, (hrest " = ?" (by decide) (by decide)).trans rfl⟩

end BoundSql.Identifier
