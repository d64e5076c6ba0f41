import BoundSql.Proofs.Sql.Name

/-!
# Scanning statement text

A scan goes from left to right.  The opening quote of the dialect starts a segment, a
doubled closing quote inside stands for itself, and a single one ends the segment; a
text that ends inside a segment is refused.  Everything else is scanned character by
character.

A quoted name is scanned back into its segments whatever the name holds, provided that
the text after it does not start with the closing quote.
-/

namespace BoundSql

/-- The smallest unit of statement text. -/
inductive Lexeme where
  /-- A character outside quotes. -/
  | plain (c : Char)
  /-- A quoted segment, without its quotes. -/
  | quoted (segment : List Char)
deriving DecidableEq

namespace Identifier

theorem readSegment_cons_of_ne {close c : Char} (hc : c ≠ close) (rest : List Char) :
    readSegment close (c :: rest) = (readSegment close rest).map fun r => (c :: r.1, r.2) := by
  rw [readSegment.eq_def]
  simp [hc]

theorem readSegment_length {close : Char} {cs segment rest : List Char}
    (h : readSegment close cs = some (segment, rest)) : rest.length < cs.length := by
  induction cs using readSegment.induct close generalizing segment with
  | case1 => simp [readSegment] at h
  | case2 after ih =>
      simp only [readSegment, if_true, Option.map_eq_some_iff] at h
      obtain ⟨⟨s, r⟩, hread, hpair⟩ := h
      cases hpair
      have hshort : r.length < after.length := ih hread
      simp only [List.length_cons]
      omega
  | case3 c after hc =>
      rw [readSegment, if_pos rfl, if_neg hc] at h
      cases h
      simp
  | case4 =>
      rw [readSegment, if_pos rfl] at h
      cases h
      simp
  | case5 c after hc ih =>
      rw [readSegment_cons_of_ne hc, Option.map_eq_some_iff] at h
      obtain ⟨⟨s, r⟩, hread, hpair⟩ := h
      cases hpair
      have hshort : r.length < after.length := ih hread
      simp only [List.length_cons]
      omega

/-- What the escaper writes between quotes is read back. -/
theorem readSegment_doubled (close : Char) (segment : List Char) {rest : List Char}
    (hrest : rest.head? ≠ some close) :
    readSegment close (doubled close segment ++ close :: rest) = some (segment, rest) := by
  induction segment with
  | nil =>
      cases rest with
      | nil => simp [doubled, readSegment]
      | cons c after =>
          have hc : c ≠ close := by simpa using hrest
          simp [doubled, readSegment, hc]
  | cons c segment ih =>
      by_cases hc : c = close
      -- the doubled quote is consumed as a pair, so it cannot end the segment
      · subst hc
        simp [doubled, readSegment, ih]
      · simp only [doubled, hc, if_false, List.cons_append]
        rw [readSegment_cons_of_ne hc, ih]
        rfl

end Identifier

namespace Lexeme

/-- Scan a text from left to right. -/
def scan (d : Dialect) : List Char → Option (List Lexeme)
  | [] => some []
  | c :: rest =>
      if c = d.openQuote then
        match _h : Identifier.readSegment d.closeQuote rest with
        | some (segment, after) => (scan d after).map (.quoted segment :: ·)
        -- a segment that is never closed refuses the whole text
        | none => none
      else (scan d rest).map (.plain c :: ·)
termination_by cs => cs.length
decreasing_by
  · have := Identifier.readSegment_length _h
    simp only [List.length_cons]
    omega
  · simp

/-- Characters outside quotes. -/
def plainText (cs : List Char) : List Lexeme := cs.map plain

theorem plainText_injective {cs ds : List Char} (h : plainText cs = plainText ds) : cs = ds :=
  (List.map_inj_right fun _ _ hc => plain.inj hc).mp h

/-- The lexemes of quoted segments joined by dots. -/
def ofSegments (segments : List (List Char)) : List Lexeme :=
  [plain '.'].intercalate (segments.map fun s => [quoted s])

variable {d : Dialect}

@[simp] theorem scan_nil : scan d [] = some [] := by
  rw [scan]

theorem scan_cons_of_ne {c : Char} (hc : c ≠ d.openQuote) (rest : List Char) :
    scan d (c :: rest) = (scan d rest).map (plain c :: ·) := by
  rw [scan, if_neg hc]

/-- Text without opening quotes is scanned as it stands. -/
theorem scan_append_of_notMem {cs : List Char} (hcs : d.openQuote ∉ cs) (rest : List Char) :
    scan d (cs ++ rest) = (scan d rest).map (cs.map plain ++ ·) := by
  induction cs with
  | nil => simp
  | cons c cs ih =>
      have hc : c ≠ d.openQuote := fun h => hcs (by simp [h])
      have htail : d.openQuote ∉ cs := fun h => hcs (List.mem_cons_of_mem c h)
      rw [List.cons_append, scan_cons_of_ne hc, ih htail, Option.map_map]
      rfl

theorem scan_quotedSegment (segment : List Char) {rest : List Char}
    (hrest : rest.head? ≠ some d.closeQuote) :
    scan d (Identifier.quotedSegment d segment ++ rest) =
      (scan d rest).map (quoted segment :: ·) := by
  have hread := Identifier.readSegment_doubled d.closeQuote segment hrest
  rw [Identifier.quotedSegment, List.cons_append, List.cons_append, List.append_assoc,
    List.singleton_append, scan, if_pos rfl]
  split
  · rename_i s after hsome
    rw [hread] at hsome
    cases hsome
    rfl
  · rename_i hnone
    rw [hread] at hnone
    cases hnone

/-- The dots between quoted segments keep the closing quotes apart, so only the text after
the last segment matters. -/
theorem scan_quotedSegments {segments : List (List Char)} (hne : segments ≠ [])
    {rest : List Char} (hrest : rest.head? ≠ some d.closeQuote) :
    scan d (Identifier.quotedSegments d segments ++ rest) =
      (scan d rest).map (ofSegments segments ++ ·) := by
  induction segments with
  | nil => exact absurd rfl hne
  | cons s segments ih =>
      cases segments with
      | nil => simpa [Identifier.quotedSegments, ofSegments] using scan_quotedSegment s hrest
      | cons t segments =>
          have hdotOpen : '.' ≠ d.openQuote := by cases d <;> decide
          have hdotClose : '.' ≠ d.closeQuote := by cases d <;> decide
          have htail := ih (List.cons_ne_nil t segments)
          simp only [Identifier.quotedSegments, ofSegments, List.map_cons] at htail ⊢
          rw [List.intercalate_cons_cons, List.append_assoc, List.append_assoc,
            scan_quotedSegment s (by simpa using hdotClose), List.singleton_append,
            scan_cons_of_ne hdotOpen, htail]
          cases scan d rest <;> simp

end Lexeme

end BoundSql
